import FalconLib.Base.Fuel
import FalconLib.Dsl.CallOrder

/-!
# Expressions in two programs

An `Allowance` says what may be called, and what is known of the structs that are registered. If two
programs have in common what may be called, and the handlers of the second outlast those of the
first, then an expression whose callees are allowed outlasts itself.
-/

namespace FalconLib.Dsl.FuelRuns

open FalconLib.Base
open CallOrder

variable {S : Type} {α β : Type}

/-- How a name is looked up: as it is written, or without its module. -/
def Spells (name spelling : String) : Prop :=
  spelling = name ∨ spelling = stripModulePrefix name

/-- `Initializer` is for the expressions that a static call hands to the handlers. -/
structure Allowance where
  Callee : CallOrder.Callee → Prop
  /-- The names under which functions are looked up. -/
  Name : String → Prop
  Initializer : Expr → Prop
  Struct : StructDecl → Prop
  MayStop : Prop
  names : ∀ {name spelling}, Callee (.function name) → Spells name spelling → Name spelling
  initializers : ∀ {decl routine field e}, Struct decl → routine ∈ decl.routines →
    Callee (.method routine.name) → field ∈ decl.fields → field.initializer = some e →
      Initializer e
  instance_ : ∀ {base decl monoName typeArgs}, Struct base →
    monomorphize base monoName typeArgs = .ok decl → Struct decl

namespace Allowance

/-- The questions that concern the functions are for names that may be looked up. -/
def Asks (A : Allowance) : Query → Prop
  | .function name => A.Name name
  | _ => True

def regime (A : Allowance) : Regime Query (World S) where
  Valid w := ∀ (name : String) (decl : StructDecl),
    w.types.structRegistry[name]? = some decl → A.Struct decl
  Asks := A.Asks
  MayStop := A.MayStop

abbrev Outlasts (A : Allowance) (m m' : M S α) (p : α → Prop := fun _ => True) : Prop :=
  A.regime.Outlasts m m' p

/-- The computation needs no fuel. -/
abbrev Steady (A : Allowance) (m : M S α) (p : α → Prop := fun _ => True) : Prop :=
  A.regime.Outlasts m m p

end Allowance

open Regime (Outlasts)

variable {A : Allowance}

/-! ## Access to the world -/

theorem getHeap_steady : A.Steady (getHeap : M S Heap) := Outlasts.gets fun _ _ => trivial

theorem modifyHeap_steady (f : Heap → Heap) : A.Steady (modifyHeap f : M S Unit) :=
  Outlasts.modify fun _ h => h

theorem structAt_steady (id : Nat) : A.Steady (structAt id : M S _) :=
  Outlasts.gets fun _ _ => trivial

theorem setField_steady (id : Nat) (name : String) (value : RuntimeValue) :
    A.Steady (setField id name value : M S Unit) := modifyHeap_steady _

theorem makeStruct_steady (typeName : String) : A.Steady (makeStruct typeName : M S Nat) :=
  getHeap_steady.bind fun _ _ => (modifyHeap_steady _).bind fun _ _ => Outlasts.pure trivial

theorem evaluationError_steady (message : String) {p : α → Prop} :
    A.Steady (evaluationError message : M S α) p := Outlasts.throw _

theorem packResult_steady (result : FunctionResult) : A.Steady (packResult result : M S _) := by
  unfold packResult
  split
  · exact Outlasts.pure trivial
  · exact Outlasts.pure trivial
  · exact getHeap_steady.bind fun _ _ => (modifyHeap_steady _).bind fun _ _ =>
      Outlasts.pure trivial

theorem runHost_steady (f : Heap → S → Except Exception FunctionResult × Heap × S) :
    A.Steady (runHost f : M S _) := by
  refine Outlasts.gets_bind fun w => ?_
  rcases f w.heap w.store with ⟨result, heap, store⟩
  refine Outlasts.bind (p := fun _ => True) (Outlasts.modify fun _ h => h) fun _ _ => ?_
  cases result with
  | ok values => exact Outlasts.pure trivial
  | error e => exact Outlasts.throw e

/-! ## Lookups -/

/-- What is found is known. -/
abbrev Known (A : Allowance) (found : Option StructDecl) : Prop :=
  ∀ decl, found = some decl → A.Struct decl

theorem registeredStruct_steady (name : String) :
    A.Steady (registeredStruct name : M S _) (Known A) :=
  (Outlasts.ask trivial).bind fun _ _ => Outlasts.gets fun _ hw decl hfound => hw name decl hfound

theorem lookupStruct_steady (name : String) : A.Steady (lookupStruct name : M S _) (Known A) := by
  refine (registeredStruct_steady name).bind fun found hfound => ?_
  cases found with
  | some decl => exact Outlasts.pure hfound
  | none =>
    refine (Outlasts.ask trivial).bind fun _ _ => ?_
    cases genericBase name with
    | some base => exact registeredStruct_steady base
    | none => exact Outlasts.pure fun _ h => nomatch h

theorem registeredFfiMethod_steady (typeName methodName : String) :
    A.Steady (registeredFfiMethod typeName methodName : M S _) :=
  (Outlasts.ask trivial).bind fun _ _ => Outlasts.gets fun _ _ => trivial

theorem lookupFfiMethod_steady (typeName methodName : String) :
    A.Steady (lookupFfiMethod typeName methodName : M S _) := by
  refine (registeredFfiMethod_steady _ _).bind fun found _ => ?_
  cases found with
  | some method => exact Outlasts.pure trivial
  | none =>
    cases genericBase typeName with
    | some base => exact registeredFfiMethod_steady _ _
    | none => exact Outlasts.pure trivial

theorem registeredMethod_steady (typeName methodName : String) :
    A.Steady (registeredMethod typeName methodName : M S _) :=
  (Outlasts.ask trivial).bind fun _ _ => Outlasts.gets fun _ _ => trivial

theorem lookupMethod_steady (typeName methodName : String) :
    A.Steady (lookupMethod typeName methodName : M S _) := by
  refine (registeredMethod_steady _ _).bind fun found _ => ?_
  cases found with
  | some method => exact Outlasts.pure trivial
  | none =>
    dsimp only
    split
    · exact registeredMethod_steady _ _
    · exact Outlasts.pure trivial

/-! ## Operators -/

theorem value_ne (v : RuntimeValue) : OpResult.value v ≠ .halt .outOfFuel := nofun

theorem int64_ne (i : Int) : OpResult.int64 i ≠ .halt .outOfFuel := by
  unfold OpResult.int64
  split
  · exact nofun
  · exact nofun

theorem numeric_ne {onInts : Int → Int → OpResult} {onDoubles : Binary64 → Binary64 → OpResult}
    {other : OpResult} (hints : ∀ a b, onInts a b ≠ .halt .outOfFuel)
    (hdoubles : ∀ a b, onDoubles a b ≠ .halt .outOfFuel) (hother : other ≠ .halt .outOfFuel)
    (left right : RuntimeValue) : numeric onInts onDoubles other left right ≠ .halt .outOfFuel := by
  unfold numeric
  split
  · exact hints _ _
  · split
    · exact hdoubles _ _
    · exact nofun
  · split
    · exact hdoubles _ _
    · exact nofun
  · exact hother

theorem compared_ne (onInts : Int → Int → Bool) (onDoubles : Binary64 → Binary64 → Bool)
    {other : OpResult} (hother : other ≠ .halt .outOfFuel) (left right : RuntimeValue) :
    compared onInts onDoubles other left right ≠ .halt .outOfFuel :=
  numeric_ne (fun _ _ => value_ne _) (fun _ _ => value_ne _) hother left right

theorem logical_ne (dominant : Bool) (left right : RuntimeValue) :
    logical dominant left right ≠ .halt .outOfFuel := by
  unfold logical
  repeat' split
  all_goals exact nofun

theorem applyBinaryOp_ne (heap : Heap) (op : String) (left right : RuntimeValue) :
    applyBinaryOp heap op left right ≠ .halt .outOfFuel := by
  have hother : OpResult.error ("Unknown or incompatible binary operator: " ++ op) ≠
      .halt .outOfFuel := nofun
  unfold applyBinaryOp
  dsimp only
  split
  · split
    · exact value_ne _
    · exact numeric_ne (fun _ _ => int64_ne _) (fun _ _ => value_ne _) hother _ _
  · exact numeric_ne (fun _ _ => int64_ne _) (fun _ _ => value_ne _) hother _ _
  · exact numeric_ne (fun _ _ => int64_ne _) (fun _ _ => value_ne _) hother _ _
  · refine numeric_ne (fun a b => ?_) (fun a b => ?_) hother _ _
    · split
      · exact nofun
      · exact int64_ne _
    · split
      · exact nofun
      · exact value_ne _
  · exact value_ne _
  · exact value_ne _
  · exact compared_ne _ _ hother _ _
  · exact compared_ne _ _ hother _ _
  · exact compared_ne _ _ hother _ _
  · exact compared_ne _ _ hother _ _
  · exact logical_ne _ _ _
  · exact logical_ne _ _ _
  · exact hother

theorem applyUnaryOp_ne (op : String) (operand : RuntimeValue) :
    applyUnaryOp op operand ≠ .halt .outOfFuel := by
  unfold applyUnaryOp
  split
  · split
    · exact nofun
    · exact nofun
  · split
    · exact int64_ne _
    · exact nofun
    · exact nofun
  · exact nofun

/-! ## Expressions without calls -/

section Expressions

open ExprEvaluator

theorem evalVariable_steady (vars : Variables) (name : String) :
    A.Steady (evalVariable vars name : M S _) := by
  refine Outlasts.gets_bind fun map => ?_
  split
  · exact Outlasts.pure trivial
  · split
    · split
      · exact Outlasts.pure trivial
      · exact evaluationError_steady _
    · exact evaluationError_steady _

theorem getField_steady (id : Nat) (name : String) : A.Steady (getField id name : M S _) := by
  refine Outlasts.gets_bind fun heap => ?_
  split
  · exact Outlasts.pure trivial
  · exact (setField_steady _ _ _).bind fun _ _ => Outlasts.pure trivial

theorem evalMember_steady (object : RuntimeValue) (member : String) :
    A.Steady (evalMember object member : M S _) := by
  unfold evalMember
  split
  · refine (structAt_steady _).bind fun found _ => ?_
    split
    · exact getField_steady _ _
    · exact evaluationError_steady _
  · exact getHeap_steady.bind fun _ _ => evaluationError_steady _

/-- A new instance is known as its generic struct is. -/
theorem monomorphizeStruct_steady {base : StructDecl} (hbase : A.Struct base)
    (typeArgs : List TypeDescriptor) :
    A.Steady (monomorphizeStruct base typeArgs : M S _) A.Struct := by
  refine (registeredStruct_steady _).bind fun found hfound => ?_
  split
  · exact Outlasts.pure (hfound _ rfl)
  · refine (Outlasts.ask trivial).bind fun _ _ => ?_
    split
    · rename_i decl hm
      have hdecl := A.instance_ hbase hm
      refine (Outlasts.modify fun w hw name decl' hfound => ?_).bind fun _ _ =>
        Outlasts.pure hdecl
      change (w.types.structRegistry.assign _ decl)[name]? = some decl' at hfound
      rw [StdMap.getElem?_assign] at hfound
      split at hfound
      · cases hfound
        exact hdecl
      · exact hw name decl' hfound
    · exact Outlasts.throw _

theorem lookupReceiver_steady (lookupName : String) :
    A.Steady (lookupReceiver lookupName : M S _) (Known A) := by
  refine (lookupStruct_steady _).bind fun found hfound => ?_
  split
  · exact Outlasts.pure hfound
  · split
    · exact lookupStruct_steady _
    · exact Outlasts.pure fun _ h => nomatch h

theorem staticReceiver_steady (vars : Variables) (info : ExprInfo) (receiver : Expr) :
    A.Steady (staticReceiver vars info receiver : M S _) fun found =>
      ∀ decl typeArgs, found = some (decl, typeArgs) → A.Struct decl := by
  have hnone : ∀ decl typeArgs, (none : Option (StructDecl × List TypeDescriptor)) =
      some (decl, typeArgs) → A.Struct decl := fun _ _ h => nomatch h
  unfold staticReceiver
  split
  · refine (lookupReceiver_steady _).bind fun found hfound => ?_
    refine Outlasts.gets_bind fun map => ?_
    split
    · split
      · refine Outlasts.pure fun decl typeArgs heq => ?_
        cases heq
        exact hfound _ rfl
      · exact Outlasts.pure hnone
    · exact Outlasts.pure hnone
  · exact Outlasts.pure hnone

theorem instantiate_steady {decl : StructDecl} (hdecl : A.Struct decl)
    (typeArgs : List TypeDescriptor) : A.Steady (instantiate decl typeArgs : M S _) A.Struct := by
  unfold instantiate
  split
  · exact monomorphizeStruct_steady hdecl _
  · exact Outlasts.pure hdecl

theorem indexArray_steady (array : ArrayValue) (index : RuntimeValue) :
    A.Steady (indexArray array index : M S _) := by
  unfold indexArray
  split
  · split
    · exact evaluationError_steady _
    · split
      · exact Outlasts.pure trivial
      · exact evaluationError_steady _
  · exact getHeap_steady.bind fun _ _ => evaluationError_steady _

theorem ffiMethodOrBase_steady (typeName methodName : String) :
    A.Steady (ffiMethodOrBase typeName methodName : M S _) := by
  refine (lookupFfiMethod_steady _ _).bind fun found _ => ?_
  split
  · exact Outlasts.pure trivial
  · split
    · exact lookupFfiMethod_steady _ _
    · exact Outlasts.pure trivial

end Expressions

/-! ## Two programs -/

/-- The programs have in common the functions that may be called, by name, and the libraries and
texts of the outside world. -/
structure Common (reach : Callee → Prop) (ctx ctx' : Context S) : Prop where
  lookup : ∀ name spelling, reach (.function name) → Spells name spelling →
    ctx'.functions.lookup spelling = ctx.functions.lookup spelling
  getSignature : ∀ name spelling, reach (.function name) → Spells name spelling →
    ctx'.functions.getSignature spelling = ctx.functions.getSignature spelling
  host : ctx'.host = ctx.host
  sources : ctx'.sources = ctx.sources

theorem Common.refl {reach : Callee → Prop} (ctx : Context S) : Common reach ctx ctx :=
  ⟨fun _ _ _ _ => rfl, fun _ _ _ _ => rfl, rfl, rfl⟩

/-- For the calls that are allowed, the second handlers outlast the first. -/
structure HandlersOutlast (A : Allowance) (ctx ctx' : Context S) (h h' : Handlers S) : Prop
    extends Common A.Callee ctx ctx' where
  evaluate : ∀ vars e, A.Initializer e → A.Outlasts (h.evaluate vars e) (h'.evaluate vars e)
  execStructRoutine : ∀ receiver decl routine callArgs, A.Struct decl →
    routine ∈ decl.routines → A.Callee (.method routine.name) →
      A.Outlasts (h.execStructRoutine receiver decl routine callArgs)
        (h'.execStructRoutine receiver decl routine callArgs)
  callFunction : ∀ name function params, A.Callee (.function name) →
    Resolves ctx name function →
      A.Outlasts (h.callFunction function params) (h'.callFunction function params)

section Lookups

open ExprEvaluator

variable {ctx ctx' : Context S} (hcommon : Common A.Callee ctx ctx')
include hcommon

theorem indexForeign_outlasts (id : Nat) (typeName : String) (index : RuntimeValue) :
    A.Outlasts (indexForeign ctx id typeName index) (indexForeign ctx' id typeName index) := by
  unfold indexForeign
  rw [hcommon.host]
  refine (ffiMethodOrBase_steady _ _).bind fun found _ => ?_
  split
  · exact (runHost_steady _).bind fun result _ => packResult_steady result
  · exact evaluationError_steady _

theorem resolveFunction_outlasts {name : String} (hname : A.Callee (.function name)) :
    A.Outlasts (resolveFunction ctx name) (resolveFunction ctx' name) fun found =>
      Spells name found.1 ∧ Resolves ctx name found.2 := by
  unfold resolveFunction
  rw [hcommon.lookup name name hname (.inl rfl), hcommon.lookup name _ hname (.inr rfl)]
  refine (Outlasts.ask (A.names hname (.inl rfl))).bind fun _ _ => ?_
  split
  · rename_i hfound
    exact Outlasts.pure ⟨.inl rfl, .inl hfound⟩
  · split
    · refine (Outlasts.ask (A.names hname (.inr rfl))).bind fun _ _ => ?_
      split
      · rename_i hfound
        exact Outlasts.pure ⟨.inr rfl, .inr hfound⟩
      · exact evaluationError_steady _
    · exact evaluationError_steady _

theorem signatureOf_outlasts {resolvedName name : String} (hname : A.Callee (.function name))
    (hspells : Spells name resolvedName) :
    A.Outlasts (signatureOf ctx resolvedName name) (signatureOf ctx' resolvedName name) := by
  unfold signatureOf
  rw [hcommon.getSignature name resolvedName hname hspells]
  refine (Outlasts.ask (A.names hname hspells)).bind fun _ _ => ?_
  split
  · exact Outlasts.pure trivial
  · exact evaluationError_steady _

end Lookups

/-! ## Calls -/

section Calls

open ExprEvaluator

theorem findRoutine_mem {decl : StructDecl} {methodName : String} {routine : RoutineDecl}
    (h : decl.findRoutine methodName = some routine) :
    routine ∈ decl.routines ∧ routine.name = methodName := by
  refine ⟨List.mem_of_find?_eq_some h, ?_⟩
  have hname := List.find?_some h
  exact beq_iff_eq.mp hname

variable {ctx ctx' : Context S} {h h' : Handlers S} (hh : HandlersOutlast A ctx ctx' h h')
include hh

theorem receiverField_outlasts (vars : Variables) {field : VarDeclStmt}
    (hfield : ∀ e, field.initializer = some e → A.Initializer e) :
    A.Outlasts (receiverField h vars field) (receiverField h' vars field) := by
  unfold receiverField
  split
  · rename_i e he
    exact hh.evaluate _ _ (hfield e he)
  · split
    · exact (makeStruct_steady _).bind fun _ _ => Outlasts.pure trivial
    · exact Outlasts.pure trivial

theorem fillReceiver_outlasts (vars : Variables) (receiver : Nat) {fields : List VarDeclStmt}
    (hfields : ∀ field ∈ fields, ∀ e, field.initializer = some e → A.Initializer e) :
    A.Outlasts (fillReceiver h vars receiver fields) (fillReceiver h' vars receiver fields) := by
  induction fields with
  | nil => exact Outlasts.pure trivial
  | cons field fields ih =>
    obtain ⟨hfirst, hrest⟩ := List.forall_mem_cons.mp hfields
    exact (receiverField_outlasts hh vars hfirst).bind fun value _ =>
      (setField_steady _ _ _).bind fun _ _ => ih hrest

/-- A routine of a known struct, found by a name that may be called. -/
theorem call_outlasts {decl : StructDecl} (hdecl : A.Struct decl) {methodName : String}
    (hmethod : A.Callee (.method methodName)) {routine : RoutineDecl}
    (hroutine : decl.findRoutine methodName = some routine) (receiver : Nat)
    (callArgs : List RuntimeValue) :
    A.Outlasts (h.execStructRoutine receiver decl routine callArgs >>= packResult)
      (h'.execStructRoutine receiver decl routine callArgs >>= packResult) := by
  obtain ⟨hmem, hname⟩ := findRoutine_mem hroutine
  rw [← hname] at hmethod
  exact (hh.execStructRoutine _ _ _ _ hdecl hmem hmethod).bind fun result _ =>
    packResult_steady result

theorem callStatic_outlasts (vars : Variables) {decl : StructDecl} (hdecl : A.Struct decl)
    (typeArgs : List TypeDescriptor) {methodName : String}
    (hmethod : A.Callee (.method methodName)) {args args' : M S (List RuntimeValue)}
    (hargs : A.Outlasts args args') :
    A.Outlasts (callStatic h vars decl typeArgs methodName args)
      (callStatic h' vars decl typeArgs methodName args') := by
  refine (instantiate_steady hdecl typeArgs).bind fun decl hdecl => ?_
  split
  · exact evaluationError_steady _
  · rename_i routine hroutine
    obtain ⟨hmem, hname⟩ := findRoutine_mem hroutine
    have hfields : ∀ field ∈ decl.fields, ∀ e, field.initializer = some e → A.Initializer e :=
      fun field hfield e he => A.initializers hdecl hmem (by rwa [hname]) hfield he
    have hreceiver : A.Outlasts (constructReceiver h vars decl) (constructReceiver h' vars decl) :=
      (makeStruct_steady _).bind fun receiver _ =>
        (fillReceiver_outlasts hh vars receiver hfields).bind fun _ _ => Outlasts.pure trivial
    exact hreceiver.bind fun receiver _ => hargs.bind fun callArgs _ =>
      call_outlasts hh hdecl hmethod hroutine receiver callArgs

theorem callOnValue_outlasts (object : RuntimeValue) {methodName : String}
    (hmethod : A.Callee (.method methodName)) {args args' : M S (List RuntimeValue)}
    (hargs : A.Outlasts args args') :
    A.Outlasts (callOnValue ctx h object methodName args)
      (callOnValue ctx' h' object methodName args') := by
  unfold callOnValue
  rw [hh.host]
  split
  · refine (structAt_steady _).bind fun found _ => ?_
    split
    · exact evaluationError_steady _
    · refine (lookupStruct_steady _).bind fun found hfound => ?_
      split
      · exact evaluationError_steady _
      · split
        · exact evaluationError_steady _
        · rename_i decl _ routine hroutine
          exact hargs.bind fun callArgs _ =>
            call_outlasts hh (hfound _ rfl) hmethod hroutine _ callArgs
  · refine Outlasts.gets_bind fun heap => ?_
    refine (lookupMethod_steady _ _).bind fun found _ => ?_
    split
    · exact evaluationError_steady _
    · exact hargs.bind fun values _ => (runHost_steady _).bind fun result _ =>
        packResult_steady result

theorem evalMethodCall_outlasts (vars : Variables) (info : ExprInfo) (receiver : Expr)
    {methodName : String} (hmethod : A.Callee (.method methodName))
    {object object' : M S RuntimeValue} (hobject : A.Outlasts object object')
    {args args' : M S (List RuntimeValue)} (hargs : A.Outlasts args args') :
    A.Outlasts (evalMethodCall ctx h vars info receiver methodName object args)
      (evalMethodCall ctx' h' vars info receiver methodName object' args') := by
  refine (staticReceiver_steady vars info receiver).bind fun found hfound => ?_
  split
  · exact callStatic_outlasts hh vars (hfound _ _ rfl) _ hmethod hargs
  · exact hobject.bind fun value _ => callOnValue_outlasts hh value hmethod hargs

theorem evalIndex_outlasts (hmethod : A.Callee (.method "GetIndex")) (object index : RuntimeValue) :
    A.Outlasts (evalIndex ctx h object index) (evalIndex ctx' h' object index) := by
  unfold evalIndex
  split
  · refine (structAt_steady _).bind fun found _ => ?_
    split
    · refine (lookupStruct_steady _).bind fun found hfound => ?_
      split
      · split
        · rename_i routine hroutine
          exact call_outlasts hh (hfound _ rfl) hmethod hroutine _ _
        · exact indexForeign_outlasts hh.toCommon _ _ _
      · exact indexForeign_outlasts hh.toCommon _ _ _
    · exact evaluationError_steady _
  · refine Outlasts.gets_bind fun heap => ?_
    split
    · exact indexArray_steady _ _
    · exact evaluationError_steady _
  · exact getHeap_steady.bind fun _ _ => evaluationError_steady _

/-- Arguments with the same names, each outlasted. -/
abbrev ArgumentsOutlast (A : Allowance) :
    List (Option String × M S RuntimeValue) → List (Option String × M S RuntimeValue) → Prop :=
  List.Forall₂ fun a b => a.1 = b.1 ∧ A.Outlasts a.2 b.2

omit hh in
theorem bindParameters_outlasts {args args' : List (Option String × M S RuntimeValue)}
    (hargs : ArgumentsOutlast A args args') (required : Bool) (specs : List ParamSpec)
    (params : ParameterMap) (assigned : List Nat) :
    A.Outlasts (bindParameters args required specs params assigned)
      (bindParameters args' required specs params assigned) := by
  induction specs generalizing params assigned with
  | nil => exact Outlasts.pure trivial
  | cons spec specs ih =>
    unfold bindParameters
    split
    · exact ih params assigned
    · rcases Coupling.findArgument_cases (R := fun m m' => A.Outlasts m m') hargs assigned
          spec.name with
        ⟨hfirst, hsecond⟩ | ⟨name, argument, argument', i, hvalue, hfirst, hsecond⟩
      · rw [hfirst, hsecond]
        dsimp only
        split
        · exact evaluationError_steady _
        · exact ih _ _
      · rw [hfirst, hsecond]
        exact hvalue.bind fun _ _ => ih _ _

omit hh in
theorem bindArguments_outlasts (sig : BuiltinSignature)
    {args args' : List (Option String × M S RuntimeValue)} (hargs : ArgumentsOutlast A args args') :
    A.Outlasts (bindArguments sig args) (bindArguments sig args') :=
  (bindParameters_outlasts hargs true _ _ _).bind fun _ _ =>
    (bindParameters_outlasts hargs false _ _ _).bind fun _ _ => Outlasts.pure trivial

theorem evalCall_outlasts {name : String} (hname : A.Callee (.function name))
    {args args' : List (Option String × M S RuntimeValue)} (hargs : ArgumentsOutlast A args args') :
    A.Outlasts (evalCall ctx h name args) (evalCall ctx' h' name args') :=
  (resolveFunction_outlasts hh.toCommon hname).bind fun found hfound =>
    (signatureOf_outlasts hh.toCommon hname hfound.1).bind fun sig _ =>
      (bindArguments_outlasts sig hargs).bind fun params _ =>
        (hh.callFunction name found.2 params hname hfound.2).bind fun result _ =>
          packResult_steady result

set_option linter.unusedSectionVars false in
mutual

theorem evaluate_outlasts (vars : Variables) : ∀ e : Expr, (∀ c ∈ callees e, A.Callee c) →
    A.Outlasts (evaluate ctx h vars e) (evaluate ctx' h' vars e)
  | .literal _ _, _ => Outlasts.pure trivial
  | .nilLiteral _, _ => Outlasts.pure trivial
  | .var _ name, _ => evalVariable_steady vars name
  | .binary _ _ left right, hc => by
    obtain ⟨hleft, hright⟩ := List.forall_mem_append.mp hc
    exact (evaluate_outlasts vars left hleft).bind fun _ _ =>
      (evaluate_outlasts vars right hright).bind fun _ _ =>
        getHeap_steady.bind fun _ _ => Outlasts.ofOutcome (applyBinaryOp_ne _ _ _ _)
  | .unary _ _ operand, hc =>
    (evaluate_outlasts vars operand hc).bind fun _ _ => Outlasts.ofOutcome (applyUnaryOp_ne _ _)
  | .member _ object member, hc =>
    (evaluate_outlasts vars object hc).bind fun value _ => evalMember_steady value member
  | .methodCall info object methodName args, hc => by
    obtain ⟨hmethod, hrest⟩ := List.forall_mem_cons.mp hc
    obtain ⟨hobject, hargs⟩ := List.forall_mem_append.mp hrest
    exact evalMethodCall_outlasts hh vars info object hmethod
      (evaluate_outlasts vars object hobject) (evaluateList_outlasts vars args hargs)
  | .index _ object index, hc => by
    obtain ⟨hmethod, hrest⟩ := List.forall_mem_cons.mp hc
    obtain ⟨hobject, hindex⟩ := List.forall_mem_append.mp hrest
    exact (evaluate_outlasts vars object hobject).bind fun value _ =>
      (evaluate_outlasts vars index hindex).bind fun position _ =>
        evalIndex_outlasts hh hmethod value position
  | .call _ name arguments, hc => by
    obtain ⟨hname, hargs⟩ := List.forall_mem_cons.mp hc
    exact evalCall_outlasts hh hname (argumentThunks_outlast vars arguments hargs)

theorem evaluateList_outlasts (vars : Variables) : ∀ es : List Expr,
    (∀ c ∈ listCallees es, A.Callee c) →
    A.Outlasts (evaluateList ctx h vars es) (evaluateList ctx' h' vars es)
  | [], _ => Outlasts.pure trivial
  | e :: es, hc => by
    obtain ⟨hfirst, hrest⟩ := List.forall_mem_append.mp hc
    exact (evaluate_outlasts vars e hfirst).bind fun _ _ =>
      (evaluateList_outlasts vars es hrest).bind fun _ _ => Outlasts.pure trivial

theorem argumentThunks_outlast (vars : Variables) : ∀ args : List (Option String × Expr),
    (∀ c ∈ argumentCallees args, A.Callee c) →
    ArgumentsOutlast A (argumentThunks ctx h vars args) (argumentThunks ctx' h' vars args)
  | [], _ => .nil
  | (_, value) :: args, hc => by
    obtain ⟨hfirst, hrest⟩ := List.forall_mem_append.mp hc
    exact .cons ⟨rfl, evaluate_outlasts vars value hfirst⟩ (argumentThunks_outlast vars args hrest)

end

end Calls

end FalconLib.Dsl.FuelRuns
