import FalconLib.Dsl.DefaultArguments
import FalconLib.Dsl.InstanceCache
import FalconLib.Dsl.RoutineRuns

/-!
# Static calls

In `T.R(args)` the receiver `T` is the name of a struct. A declaration marks its initialiser with
the type that it declares, and a generic type takes part in the lookup of the receiver: the struct
it is an instance of is looked up in place of `T`.
-/

namespace FalconLib.Dsl.StaticDispatch

open FalconLib.Base
open ExprEvaluator
open TypeDescriptor (instanceName)
open InstanceCache (instanceOf)
open RoutineRuns (found lookupStruct_outcome)

variable {S : Type}

/-- No variable has the name, with its module or without. -/
def Unbound (vars : Variables) (w : World S) (name : String) : Prop :=
  (vars.read w)[name]? = none ∧ (vars.read w)[stripModulePrefix name]? = none

/-- The struct that a name stands for, which may be that of a module. -/
def denoted (types : TypeRegistry) (name : String) : Option StructDecl :=
  (found types name).or
    (if isQualified name then found types (stripModulePrefix name) else none)

/-- The struct of a call, the declaration that its routines are taken from, and the routine. -/
structure Target where
  base : StructDecl
  decl : StructDecl
  routine : RoutineDecl

/-- The part of a static call that looks for the routine. -/
def dispatch (vars : Variables) (info : ExprInfo) (name methodName : String) : M S Target := do
  match ← staticReceiver vars info (.var {} name) with
  | some (base, typeArgs) => do
    let decl ← instantiate base typeArgs
    match decl.findRoutine methodName with
    | some routine => pure ⟨base, decl, routine⟩
    | none => unknownRoutine methodName decl.name
  | none => evaluationError ("Undefined variable: " ++ name)

/-- The rest of the call. -/
def runTarget (h : Handlers S) (vars : Variables) (args : M S (List RuntimeValue))
    (target : Target) : M S RuntimeValue := do
  let receiver ← constructReceiver h vars target.decl
  let callArgs ← args
  let outputs ← h.execStructRoutine receiver target.decl target.routine callArgs
  packResult outputs

/-! ## What the call should run -/

/-- The declaration is the struct or, where that is generic, its instance. -/
def IsInstance (base : StructDecl) (typeArgs : List TypeDescriptor) (decl : StructDecl) : Prop :=
  if base.isGeneric then instanceOf base typeArgs = .ok decl else decl = base

/-- The call runs the routine of the struct that its receiver stands for, and raises where there
is none. -/
structure Dispatched (vars : Variables) (info : ExprInfo) (name methodName : String)
    (w : World S) : Prop where
  runs : ∀ base routine, denoted w.types name = some base →
    base.findRoutine methodName = some routine →
    ∃ decl own w', (dispatch vars info name methodName w).outcome = .ok ⟨base, decl, own⟩ w' ∧
      IsInstance base (injectedReceiver info name).2 decl ∧
      decl.findRoutine methodName = some own
  raises : (∀ base, denoted w.types name = some base → base.findRoutine methodName = none) →
    ∃ e w', (dispatch vars info name methodName w).outcome = .throw e w'

/-- The declaration that the evaluator takes for a struct with type arguments. -/
def instantiated (types : TypeRegistry) (base : StructDecl) (typeArgs : List TypeDescriptor) :
    Except Exception StructDecl :=
  if base.isGeneric && !typeArgs.isEmpty then
    match types.structRegistry[instanceName base.name typeArgs]? with
    | some decl => .ok decl
    | none => instanceOf base typeArgs
  else .ok base

/-- The type declared around the call does not get in the way. -/
structure Undisturbed (types : TypeRegistry) (info : ExprInfo) (name methodName : String) :
    Prop where
  /-- A generic type declared around the call is one of the same struct. -/
  same : ∀ base routine, denoted types name = some base →
    base.findRoutine methodName = some routine →
    denoted types (injectedReceiver info name).1 = some base
  /-- A generic struct has its arguments from there, and its instance is not taken by another. -/
  applied : ∀ base routine, denoted types name = some base →
    base.findRoutine methodName = some routine → base.isGeneric = true →
    base.genericParams.length = (injectedReceiver info name).2.length ∧
      ∀ decl, types.structRegistry[instanceName base.name (injectedReceiver info name).2]? =
        some decl → instanceOf base (injectedReceiver info name).2 = .ok decl
  /-- Where the receiver has no such routine, a struct declared around the call has none either. -/
  absent : (∀ base, denoted types name = some base → base.findRoutine methodName = none) →
    ∀ base decl, denoted types (injectedReceiver info name).1 = some base →
      instantiated types base (injectedReceiver info name).2 = .ok decl →
      decl.findRoutine methodName = none

/-! ## Instances -/

section Instances

variable {base decl : StructDecl} {typeArgs : List TypeDescriptor}

theorem length_of_instanceOf (h : instanceOf base typeArgs = .ok decl) :
    base.genericParams.length = typeArgs.length := by
  unfold instanceOf monomorphize at h
  by_contra hl
  rw [if_neg hl] at h
  cases h

theorem instanceOf_of_length (h : base.genericParams.length = typeArgs.length) :
    ∃ decl, instanceOf base typeArgs = .ok decl := by
  unfold instanceOf monomorphize
  rw [if_pos h]
  exact ⟨_, rfl⟩

/-- As many arguments as a generic struct has parameters are some arguments. -/
theorem applies_of_length (hg : base.isGeneric = true)
    (h : base.genericParams.length = typeArgs.length) :
    (base.isGeneric && !typeArgs.isEmpty) = true := by
  rw [hg, Bool.true_and, Bool.not_eq_true', List.isEmpty_eq_false_iff]
  rintro rfl
  rw [StructDecl.isGeneric, List.length_eq_zero_iff.mp h] at hg
  cases hg

end Instances

/-! ## The lookup -/

theorem lookupReceiver_outcome (name : String) (w : World S) :
    (lookupReceiver name w).outcome = .ok (denoted w.types name) w := by
  unfold lookupReceiver denoted
  refine (Comp.bind_of_ok (lookupStruct_outcome name w)).trans ?_
  cases found w.types name with
  | some decl => rfl
  | none =>
    by_cases hq : isQualified name
    · rw [if_pos hq, if_pos hq]
      exact lookupStruct_outcome _ w
    · rw [if_neg hq, if_neg hq]
      rfl

theorem staticReceiver_outcome {vars : Variables} {w : World S} {name : String}
    (hu : Unbound vars w name) (info place : ExprInfo) :
    (staticReceiver vars info (.var place name) w).outcome =
      .ok ((denoted w.types (injectedReceiver info name).1).map fun base =>
        (base, (injectedReceiver info name).2)) w := by
  unfold staticReceiver
  dsimp only
  obtain ⟨lookupName, typeArgs⟩ := injectedReceiver info name
  refine (Comp.bind_of_ok (lookupReceiver_outcome lookupName w)).trans ?_
  rw [Comp.outcome_gets_bind]
  dsimp only
  cases denoted w.types lookupName with
  | none => rfl
  | some base =>
    dsimp only
    rw [hu.1, hu.2]
    rfl

/-- A name that is bound is no static receiver. -/
theorem staticReceiver_of_bound {vars : Variables} {w : World S} {name : String}
    {value : RuntimeValue} (hb : (vars.read w)[name]? = some value) (info place : ExprInfo) :
    (staticReceiver vars info (.var place name) w).outcome = .ok none w := by
  unfold staticReceiver
  dsimp only
  obtain ⟨lookupName, typeArgs⟩ := injectedReceiver info name
  refine (Comp.bind_of_ok (lookupReceiver_outcome lookupName w)).trans ?_
  rw [Comp.outcome_gets_bind]
  dsimp only
  cases denoted w.types lookupName with
  | none => rfl
  | some base =>
    dsimp only
    rw [hb]
    rfl

theorem instantiate_outcome (base : StructDecl) (typeArgs : List TypeDescriptor) (w : World S) :
    ∃ w', (instantiate base typeArgs w).outcome =
      match instantiated w.types base typeArgs with
      | .ok decl => .ok decl w'
      | .error e => .throw e w' := by
  unfold instantiate instantiated
  by_cases hg : base.isGeneric && !typeArgs.isEmpty
  · rw [if_pos hg, if_pos hg]
    change ∃ w', InstanceCache.call w base typeArgs = _
    cases hc : w.types.structRegistry[instanceName base.name typeArgs]? with
    | some decl => exact ⟨w, InstanceCache.call_of_some hc⟩
    | none =>
      cases hi : instanceOf base typeArgs with
      | ok decl => exact ⟨_, InstanceCache.call_of_ok hc hi⟩
      | error e => exact ⟨w, InstanceCache.call_of_error hc hi⟩
  · rw [if_neg hg, if_neg hg]
    exact ⟨w, rfl⟩

/-- What a dispatch finds. -/
def Selects (types : TypeRegistry) (info : ExprInfo) (name methodName : String)
    (target : Target) : Prop :=
  denoted types (injectedReceiver info name).1 = some target.base ∧
    instantiated types target.base (injectedReceiver info name).2 = .ok target.decl ∧
    target.decl.findRoutine methodName = some target.routine

section Lookup

variable {vars : Variables} {w : World S} {name : String} (hu : Unbound vars w name)
  (info : ExprInfo) (methodName : String)
include hu

/-- A dispatch returns what it selects, and raises where it selects nothing. -/
theorem dispatch_outcome :
    (∃ target w', (dispatch vars info name methodName w).outcome = .ok target w' ∧
      Selects w.types info name methodName target) ∨
    ((∃ e w', (dispatch vars info name methodName w).outcome = .throw e w') ∧
      ∀ target, ¬Selects w.types info name methodName target) := by
  unfold dispatch Selects
  rw [Comp.bind_of_ok (staticReceiver_outcome hu info {})]
  cases hbase : denoted w.types (injectedReceiver info name).1 with
  | none => exact .inr ⟨⟨_, w, rfl⟩, fun target hs => nomatch hs.1⟩
  | some base =>
    obtain ⟨w', ho⟩ := instantiate_outcome base (injectedReceiver info name).2 w
    dsimp only [Option.map_some]
    cases hi : instantiated w.types base (injectedReceiver info name).2 with
    | error e =>
      rw [hi] at ho
      refine .inr ⟨⟨e, w', Comp.bind_of_throw ho⟩, ?_⟩
      rintro ⟨base', decl, routine⟩ ⟨hb, hd, _⟩
      cases hb
      cases hi.symm.trans hd
    | ok decl =>
      rw [hi] at ho
      rw [Comp.bind_of_ok ho]
      cases hr : decl.findRoutine methodName with
      | some routine => exact .inl ⟨⟨base, decl, routine⟩, w', rfl, rfl, hi, hr⟩
      | none =>
        refine .inr ⟨⟨_, w', rfl⟩, ?_⟩
        rintro ⟨base', decl', routine⟩ ⟨hb, hd, hf⟩
        cases hb
        cases hi.symm.trans hd
        cases hr.symm.trans hf

theorem selects_of_dispatch {info : ExprInfo} {methodName : String} {target : Target}
    {w' : World S} (ho : (dispatch vars info name methodName w).outcome = .ok target w') :
    Selects w.types info name methodName target := by
  rcases dispatch_outcome hu info methodName with ⟨found, v, hfound, hs⟩ | ⟨⟨e, v, he⟩, -⟩
  · cases hfound.symm.trans ho
    exact hs
  · cases he.symm.trans ho

theorem dispatch_of_selects {info : ExprInfo} {methodName : String} {target : Target}
    (hs : Selects w.types info name methodName target) :
    ∃ w', (dispatch vars info name methodName w).outcome = .ok target w' := by
  rcases dispatch_outcome hu info methodName with ⟨found, v, hfound, hs'⟩ | ⟨-, hnone⟩
  · obtain ⟨base, decl, routine⟩ := target
    obtain ⟨base', decl', routine'⟩ := found
    obtain ⟨hb, hd, hr⟩ := hs
    obtain ⟨hb', hd', hr'⟩ := hs'
    cases hb.symm.trans hb'
    cases hd.symm.trans hd'
    cases hr.symm.trans hr'
    exact ⟨v, hfound⟩
  · exact absurd hs (hnone target)

/-- A call looks for its routine and runs what it finds. -/
theorem evaluate_eq_dispatch (ctx : Context S) (h : Handlers S) (place : ExprInfo)
    (args : List Expr) :
    (evaluate ctx h vars (.methodCall info (.var place name) methodName args) w).outcome =
      ((dispatch vars info name methodName >>= runTarget h vars (evaluateList ctx h vars args))
        w).outcome := by
  unfold dispatch
  rw [Comp.bind_assoc, Comp.bind_of_ok (staticReceiver_outcome hu info {})]
  refine (Comp.bind_of_ok (staticReceiver_outcome hu info place)).trans ?_
  cases denoted w.types (injectedReceiver info name).1 with
  | none =>
    have hvariable : (evaluate ctx h vars (.var place name) w).outcome =
        .throw (.evaluation ("Undefined variable: " ++ name)) w := by
      change (evalVariable vars name w).outcome = _
      unfold evalVariable
      rw [Comp.outcome_gets_bind, hu.1]
      dsimp only
      split
      · rw [hu.2]
        rfl
      · rfl
    exact Comp.bind_of_throw hvariable
  | some base =>
    dsimp only [Option.map_some]
    unfold callStatic
    rw [Comp.bind_assoc, Comp.outcome_bind, Comp.outcome_bind]
    cases (instantiate base (injectedReceiver info name).2 w).outcome with
    | ok decl w' =>
      dsimp only
      cases decl.findRoutine methodName <;> rfl
    | throw e w' => rfl
    | halt r => rfl

/-! ## When the call runs what it should -/

theorem undisturbed_of_dispatched {info : ExprInfo} {methodName : String}
    (hd : Dispatched vars info name methodName w) :
    Undisturbed w.types info name methodName := by
  refine ⟨fun base routine hb hr => ?_, fun base routine hb hr hg => ?_, fun ha base decl hb hi => ?_⟩
  · obtain ⟨decl, own, w', ho, -, -⟩ := hd.runs base routine hb hr
    exact (selects_of_dispatch hu ho).1
  · obtain ⟨decl, own, w', ho, hinstance, -⟩ := hd.runs base routine hb hr
    obtain ⟨-, hi, -⟩ := selects_of_dispatch hu ho
    unfold IsInstance at hinstance
    rw [if_pos hg] at hinstance
    have hlength := length_of_instanceOf hinstance
    refine ⟨hlength, fun entry he => ?_⟩
    unfold instantiated at hi
    rw [if_pos (applies_of_length hg hlength), he] at hi
    cases hi
    exact hinstance
  · by_contra hr
    obtain ⟨routine, hr⟩ := Option.ne_none_iff_exists'.mp hr
    have hs : Selects w.types info name methodName ⟨base, decl, routine⟩ := ⟨hb, hi, hr⟩
    obtain ⟨w', ho⟩ := dispatch_of_selects hu hs
    obtain ⟨e, v, he⟩ := hd.raises ha
    cases ho.symm.trans he

theorem dispatched_of_undisturbed {info : ExprInfo} {methodName : String}
    (hn : Undisturbed w.types info name methodName) :
    Dispatched vars info name methodName w := by
  refine ⟨fun base routine hb hr => ?_, fun ha => ?_⟩
  · obtain ⟨decl, own, hi, hinstance, hown⟩ : ∃ decl own,
        instantiated w.types base (injectedReceiver info name).2 = .ok decl ∧
        IsInstance base (injectedReceiver info name).2 decl ∧
        decl.findRoutine methodName = some own := by
      unfold instantiated IsInstance
      by_cases hg : base.isGeneric = true
      · obtain ⟨hlength, hentry⟩ := hn.applied base routine hb hr hg
        obtain ⟨decl, hdecl⟩ := instanceOf_of_length hlength
        have hown := DefaultArguments.findRoutine_instance hdecl methodName
        rw [hr] at hown
        refine ⟨decl, _, ?_, ?_, hown⟩
        · rw [if_pos (applies_of_length hg hlength)]
          cases hc : w.types.structRegistry[instanceName base.name (injectedReceiver info name).2]? with
          | none => exact hdecl
          | some entry => exact (hentry entry hc).symm.trans hdecl
        · rw [if_pos hg]
          exact hdecl
      · rw [if_neg (fun hand => hg (Bool.and_eq_true_iff.mp hand).1)]
        exact ⟨base, routine, rfl, if_neg hg ▸ rfl, hr⟩
    have hs : Selects w.types info name methodName ⟨base, decl, own⟩ :=
      ⟨hn.same base routine hb hr, hi, hown⟩
    obtain ⟨w', ho⟩ := dispatch_of_selects hu hs
    exact ⟨decl, own, w', ho, hinstance, hown⟩
  · rcases dispatch_outcome hu info methodName with ⟨target, w', -, hb, hi, hr⟩ | ⟨he, -⟩
    · cases (hn.absent ha _ _ hb hi).symm.trans hr
    · exact he

/-- The call goes through the dispatch, and that finds the routine of the receiver exactly when
the type declared around the call does not get in the way. -/
theorem dispatched_iff (ctx : Context S) (h : Handlers S) (info place : ExprInfo)
    (methodName : String) (args : List Expr) :
    (evaluate ctx h vars (.methodCall info (.var place name) methodName args) w).outcome =
        ((dispatch vars info name methodName >>= runTarget h vars (evaluateList ctx h vars args))
          w).outcome ∧
      (Dispatched vars info name methodName w ↔ Undisturbed w.types info name methodName) :=
  ⟨evaluate_eq_dispatch hu info methodName ctx h place args, undisturbed_of_dispatched hu,
    dispatched_of_undisturbed hu⟩

end Lookup

/-- A declaration evaluates its initialiser with its own type as the mark, if that is generic. -/
theorem initialValue_eq (ctx : Context S) (h : Handlers S) (vars : Variables) {stmt : VarDeclStmt}
    {info place : ExprInfo} {name methodName : String} {args : List Expr}
    (hi : stmt.initializer = some (.methodCall info (.var place name) methodName args)) :
    StmtExecutor.initialValue ctx h vars stmt =
      evaluate ctx h vars (.methodCall
        (if stmt.type.isGenericStruct then { info with inferredType := some stmt.type } else info)
        (.var place name) methodName args) := by
  unfold StmtExecutor.initialValue StmtExecutor.markedInitializer
  rw [hi]
  dsimp only
  split <;> rfl

/-! ## A factory -/

def box : StructDecl where
  name := "Box"
  genericParams := ["T"]
  fields := []
  routines := [{
    name := "New"
    inputParams := []
    outputParams := [{ type := .makeGenericStruct "Box" [.makeStruct "T"], name := "b" }] }]

def boxOfInt : TypeDescriptor := .makeGenericStruct "Box" [.ofParamType .int]

/-- Its routine makes a box of integers. -/
def factory : StructDecl where
  name := "Factory"
  fields := []
  routines := [{
    name := "Make"
    inputParams := []
    outputParams := [{ type := boxOfInt, name := "b" }] }]

def shop : World Unit where
  types := (TypeRegistry.registerStruct {} box).registerStruct factory
  store := ()

theorem unbound_shop (name : String) : Unbound (.own ∅) shop name :=
  ⟨Std.ExtTreeMap.getElem?_empty, Std.ExtTreeMap.getElem?_empty⟩

/-- `Box<int> b = Box.New();`. -/
theorem dispatched_box :
    Dispatched (.own ∅) { inferredType := some boxOfInt } "Box" "New" shop := by
  have hbox : denoted shop.types "Box" = some box := rfl
  have hinjected : injectedReceiver { inferredType := some boxOfInt } "Box" =
      ("Box", [.ofParamType .int]) := rfl
  have hnone : shop.types.structRegistry[instanceName "Box" [.ofParamType .int]]? = none := rfl
  refine (dispatched_iff (unbound_shop "Box") { host := Host.unlinked }
    (Interpreter.handlers { host := Host.unlinked } 1) _ {} "New" []).2.mpr ⟨?_, ?_, ?_⟩
  · intro base routine hb _
    exact hb
  · intro base routine hb _ _
    cases hbox.symm.trans hb
    refine ⟨rfl, fun decl hd => ?_⟩
    cases hnone.symm.trans hd
  · intro ha
    cases ha box hbox

/-- `Box<int> b = Factory.Make();` looks for `Make` among the routines of `Box`. -/
theorem not_dispatched_factory :
    ¬∀ (vars : Variables) (info : ExprInfo) (name methodName : String) (w : World Unit),
      Unbound vars w name → Dispatched vars info name methodName w := by
  intro hall
  have hfactory : denoted shop.types "Factory" = some factory := rfl
  have hbox : denoted shop.types
      (injectedReceiver { inferredType := some boxOfInt } "Factory").1 = some box := rfl
  have hu := unbound_shop "Factory"
  have hsame := (undisturbed_of_dispatched hu (hall (.own ∅) { inferredType := some boxOfInt }
    "Factory" "Make" shop hu)).same factory _ hfactory rfl
  have hname := congrArg (Option.map StructDecl.name) (hbox.symm.trans hsame)
  exact absurd hname (by decide)

end FalconLib.Dsl.StaticDispatch
