import FalconLib.Dsl.Resolution
import FalconLib.Dsl.Restoration

/-!
# What further modules change

Two engines, the second with further modules loaded at any point of the history. They
give the same answer to every lookup of a name that no further module registers, and so
a run that looks up only such names is the same on both.
-/

namespace FalconLib.Dsl.Isolation

open FalconLib.Base
open FalconLib.Base.StdMap (lastWrite)
open AutotunerEngine LoadHistory Resolution Coupling Restoration

/-! ## Lookups -/

inductive Answer where
  | function (function : Option ExternalFunction) (signature : Option BuiltinSignature)
  | struct (decl : Option StructDecl)
  | method (symbol : Option ForeignSymbol)
  | autotuner (decl : Option AutotunerDecl)
  | routine (decl : Option RoutineDecl)

def answer (engine : AutotunerEngine) : Query → Answer
  | .function name =>
    .function (engine.functionRegistry.lookup name) (engine.functionRegistry.getSignature name)
  | .structType name => .struct engine.typeRegistry.structRegistry[name]?
  | .typeMethod typeName methodName =>
    .method (engine.typeRegistry.typeMethods[typeName]?.bind fun methods => methods[methodName]?)
  | .ffiMethod typeName methodName =>
    .method (engine.typeRegistry.ffiMethods[typeName]?.bind fun methods => methods[methodName]?)
  | .autotuner qname => .autotuner engine.loadedAutotuners[qname]?
  | .routine qname => .routine engine.routineDeclarations[qname]?
  | .fallback _ | .instantiation _ _ => .struct none

/-- The engines answer every allowed lookup alike. -/
structure EnginesAgree (allowed : Query → Prop) (e₁ e₂ : AutotunerEngine) : Prop where
  builtins : e₁.functionRegistry.builtinRegistry = e₂.functionRegistry.builtinRegistry
  answers : ∀ q, allowed q → answer e₁ q = answer e₂ q

section Writes

theorem ffiMethod_register (types : TypeRegistry) (t m typeName methodName : String)
    (symbol : ForeignSymbol) :
    ((types.registerFfiMethod t m symbol).ffiMethods[typeName]?.bind
        fun methods => methods[methodName]?) =
      if t = typeName ∧ m = methodName then some symbol
      else types.ffiMethods[typeName]?.bind fun methods => methods[methodName]? := by
  unfold TypeRegistry.registerFfiMethod
  dsimp only
  rw [StdMap.getElem?_assign]
  by_cases ht : t = typeName
  · subst ht
    rw [if_pos rfl, Option.bind_some, StdMap.getElem?_assign]
    by_cases hm : m = methodName
    · rw [if_pos hm, if_pos ⟨rfl, hm⟩]
    · rw [if_neg hm, if_neg fun h => hm h.2]
      cases types.ffiMethods[t]? with
      | none => exact Std.ExtTreeMap.getElem?_empty
      | some methods => rfl
  · rw [if_neg ht, if_neg fun h => ht h.1]

/-- A write of another name leaves an answer as it is. -/
theorem answer_apply_of_ne (engine : AutotunerEngine) {w : Write} {q : Query}
    (h : w.query ≠ q) : answer (w.apply engine) q = answer engine q := by
  cases w with
  | function r =>
    cases q with
    | function name =>
      have hname : r.name ≠ name := fun he => h (congrArg Query.function he)
      obtain ⟨hl, hs⟩ := FunctionRegistry.lookup_apply engine.functionRegistry r name
      rw [if_neg hname] at hl hs
      exact congrArg₂ Answer.function hl hs
    | _ => rfl
  | autotuner qname decl =>
    cases q with
    | autotuner n =>
      exact congrArg _ (StdMap.getElem?_assign_ne _ _ fun he => h (congrArg Query.autotuner he))
    | _ => rfl
  | routine qname decl =>
    cases q with
    | routine n =>
      exact congrArg _ (StdMap.getElem?_assign_ne _ _ fun he => h (congrArg Query.routine he))
    | _ => rfl
  | struct name decl =>
    cases q with
    | structType n =>
      exact congrArg _ (StdMap.getElem?_assign_ne _ _ fun he => h (congrArg Query.structType he))
    | _ => rfl
  | ffiMethod t m symbol =>
    cases q with
    | ffiMethod typeName methodName =>
      refine congrArg _ ((ffiMethod_register _ _ _ _ _ _).trans (if_neg ?_))
      rintro ⟨rfl, rfl⟩
      exact h rfl
    | _ => rfl

/-- The same write on both sides keeps two equal answers equal. -/
theorem answer_apply_congr {e₁ e₂ : AutotunerEngine} (w : Write) {q : Query}
    (hb : e₁.functionRegistry.builtinRegistry = e₂.functionRegistry.builtinRegistry)
    (h : answer e₁ q = answer e₂ q) : answer (w.apply e₁) q = answer (w.apply e₂) q := by
  by_cases hq : w.query = q
  · subst hq
    cases w with
    | function r =>
      injection h with hl hs
      obtain ⟨hl₁, hs₁⟩ := FunctionRegistry.lookup_apply e₁.functionRegistry r r.name
      obtain ⟨hl₂, hs₂⟩ := FunctionRegistry.lookup_apply e₂.functionRegistry r r.name
      rw [hb, hl] at hl₁
      rw [hb, hs] at hs₁
      exact congrArg₂ Answer.function (hl₁.trans hl₂.symm) (hs₁.trans hs₂.symm)
    | autotuner qname decl =>
      exact congrArg _ ((StdMap.getElem?_assign_self _ _ _).trans
        (StdMap.getElem?_assign_self _ _ _).symm)
    | routine qname decl =>
      exact congrArg _ ((StdMap.getElem?_assign_self _ _ _).trans
        (StdMap.getElem?_assign_self _ _ _).symm)
    | struct name decl =>
      exact congrArg _ ((StdMap.getElem?_assign_self _ _ _).trans
        (StdMap.getElem?_assign_self _ _ _).symm)
    | ffiMethod t m symbol =>
      exact congrArg _ (((ffiMethod_register _ _ _ _ _ _).trans (if_pos ⟨rfl, rfl⟩)).trans
        ((ffiMethod_register _ _ _ _ _ _).trans (if_pos ⟨rfl, rfl⟩)).symm)
  · rw [answer_apply_of_ne e₁ hq, answer_apply_of_ne e₂ hq, h]

end Writes

/-! ## Histories with further loads -/

/-- A sequence of loads in which some are marked as further ones. -/
abbrev History : Type := List (Bool × Load)

namespace History

def own (history : History) : List Load := (history.filter fun entry => !entry.1).map (·.2)

def further (history : History) : List Load := (history.filter fun entry => entry.1).map (·.2)

def all (history : History) : List Load := history.map (·.2)

end History

theorem builtinRegistry_write (engine : AutotunerEngine) (w : Write) :
    (w.apply engine).functionRegistry.builtinRegistry =
      engine.functionRegistry.builtinRegistry := by
  cases w with
  | function r => exact FunctionRegistry.builtinRegistry_apply _ r
  | _ => rfl

section Agree

variable {allowed : Query → Prop} {e₁ e₂ : AutotunerEngine}

theorem EnginesAgree.refl (engine : AutotunerEngine) : EnginesAgree allowed engine engine :=
  ⟨rfl, fun _ _ => rfl⟩

/-- The writes of one load on both sides. -/
theorem EnginesAgree.both (h : EnginesAgree allowed e₁ e₂) (ws : List Write) :
    EnginesAgree allowed (applyAll e₁ ws) (applyAll e₂ ws) := by
  induction ws generalizing e₁ e₂ with
  | nil => exact h
  | cons w ws ih =>
    refine ih ⟨?_, fun q hq => answer_apply_congr w h.builtins (h.answers q hq)⟩
    rw [builtinRegistry_write, builtinRegistry_write, h.builtins]

/-- The writes of a further load, on the right side only. -/
theorem EnginesAgree.right (h : EnginesAgree allowed e₁ e₂) (ws : List Write)
    (hw : ∀ w ∈ ws, ¬ allowed w.query) : EnginesAgree allowed e₁ (applyAll e₂ ws) := by
  induction ws generalizing e₂ with
  | nil => exact h
  | cons w ws ih =>
    obtain ⟨hfirst, hrest⟩ := List.forall_mem_cons.mp hw
    refine ih ⟨?_, fun q hq => ?_⟩ hrest
    · rw [builtinRegistry_write, h.builtins]
    · have hne : w.query ≠ q := fun he => hfirst (he ▸ hq)
      rw [answer_apply_of_ne e₂ hne, h.answers q hq]

/-- Whatever order the further loads come in. -/
theorem EnginesAgree.history (history : History)
    (hf : ∀ load ∈ history.further, ∀ w ∈ writes load, ¬ allowed w.query)
    (h : EnginesAgree allowed e₁ e₂) :
    EnginesAgree allowed (e₁.loadAll history.own) (e₂.loadAll history.all) := by
  induction history generalizing e₁ e₂ with
  | nil => exact h
  | cons entry history ih =>
    obtain ⟨isFurther, load⟩ := entry
    cases isFurther with
    | false =>
      refine ih hf ?_
      dsimp only
      rw [loadProgram_eq, loadProgram_eq]
      exact h.both (writes load)
    | true =>
      obtain ⟨hload, hrest⟩ := List.forall_mem_cons.mp hf
      refine ih hrest ?_
      dsimp only
      rw [loadProgram_eq]
      exact h.right (writes load) hload

theorem EnginesAgree.contexts {S : Type} (h : EnginesAgree allowed e₁ e₂) (host : Host S)
    (sources : String → List String) :
    ContextsAgree allowed (e₁.context host sources) (e₂.context host sources) := by
  refine ⟨fun name ha => ?_, fun name ha => ?_, fun qname ha => ?_, fun qname ha => ?_, rfl, rfl⟩
  · exact (Answer.function.inj (h.answers (.function name) ha)).1
  · exact (Answer.function.inj (h.answers (.function name) ha)).2
  · exact Answer.autotuner.inj (h.answers (.autotuner qname) ha)
  · exact Answer.routine.inj (h.answers (.routine qname) ha)

theorem EnginesAgree.worlds {S : Type} (h : EnginesAgree allowed e₁ e₂) (heap : Heap)
    (store : S) : Linked allowed Reach.none Eq (e₁.world heap store) (e₂.world heap store) := by
  refine ⟨rfl, rfl, rfl, fun name ha => ?_, fun t m ha => ?_, fun t m ha => ?_,
    fun name decl _ => Reach.none_admits name decl, trivial⟩
  · exact .inl (Answer.struct.inj (h.answers (.structType name) ha))
  · exact Answer.method.inj (h.answers (.ffiMethod t m) ha)
  · exact Answer.method.inj (h.answers (.typeMethod t m) ha)

end Agree

/-! ## Runs -/

variable {S : Type}

/-- What the host starts, by name. -/
inductive Start where
  | autotuner (name : String) (inputs : ParameterMap)
  | routine (name : String) (inputs : ParameterMap)

def Start.run (ctx : Context S) (fuel : Nat) : Start → M S FunctionResult
  | .autotuner name inputs => runAutotuner ctx fuel name inputs
  | .routine name inputs => runRoutine ctx fuel name inputs

/-- The start of an autotuner or routine that the module declares; a library routine has
no name but the bare one. -/
inductive StartOf (loads : List Load) (M : String) : Start → Prop
  | autotuner {f : String} {inputs : ParameterMap}
      (hd : DeclaredIn loads M f (.autotuner (qualifiedName M f))) :
      StartOf loads M (.autotuner (qualifiedName M f) inputs)
  | routine {f name : String} {function : ExternalFunction} {inputs : ParameterMap}
      (hd : DeclaredIn loads M f function)
      (hn : IsForeign function ∧ name = f ∨
        ¬ IsForeign function ∧ name = qualifiedName M f) :
      StartOf loads M (.routine name inputs)

/-- A start in the engine after the loads. -/
def launch (loads : List Load) (host : Host S) (sources : String → List String) (fuel : Nat)
    (heap : Heap) (store : S) (start : Start) :
    FalconLib.Base.Run Query Exception (World S) FunctionResult :=
  start.run ((create.loadAll loads).context host sources) fuel
    ((create.loadAll loads).world heap store)

theorem loaded_of_declaredIn {loads : List Load} {M f : String}
    (h : DeclaredIn loads M f (.autotuner (qualifiedName M f))) :
    ∃ decl, (create.loadAll loads).loadedAutotuners[qualifiedName M f]? = some decl := by
  obtain ⟨load, hload, rfl, hd⟩ := h
  cases hd with
  | @autotuner decl hc hd hn =>
    have hmem := mem_autotunerEntries.mpr ⟨load, hload, hc, hd, rfl⟩
    rw [hn] at hmem
    obtain ⟨u, hu⟩ := StdMap.exists_lastWrite hmem
    exact ⟨u, (loadedAutotuners_loadAll loads _).trans hu⟩

theorem runAutotuner_agree {allowed : Query → Prop} {ctx₁ ctx₂ : Context S}
    (hc : ContextsAgree allowed ctx₁ ctx₂) (fuel : Nat) {name : String} (inputs : ParameterMap)
    {decl : AutotunerDecl} (hd : ctx₁.loadedAutotuners[name]? = some decl) :
    Alike allowed Reach.none Eq (runAutotuner ctx₁ fuel name inputs)
      (runAutotuner ctx₂ fuel name inputs) := by
  refine Agree.ask_bind fun ha => ?_
  have hd₂ := (hc.autotuners name ha).symm.trans hd
  have hf₁ : findAutotuner ctx₁.loadedAutotuners name = some decl := by
    unfold findAutotuner
    rw [hd]
  have hf₂ : findAutotuner ctx₂.loadedAutotuners name = some decl := by
    unfold findAutotuner
    rw [hd₂]
  rw [hf₁, hf₂]
  exact run_agree hc (handlers_agree hc fuel) fuel decl inputs

theorem runRoutine_agree {allowed : Query → Prop} {ctx₁ ctx₂ : Context S}
    (hc : ContextsAgree allowed ctx₁ ctx₂) (fuel : Nat) (name : String) (inputs : ParameterMap) :
    Alike allowed Reach.none Eq (runRoutine ctx₁ fuel name inputs)
      (runRoutine ctx₂ fuel name inputs) := by
  refine Agree.ask_bind fun ha => ?_
  rw [hc.functions name ha]
  split
  · exact callFunction_agree hc (handlers_agree hc fuel) fuel _ inputs
  · exact Agree.throw _

/-- No further module registers a name that the run looked up. -/
def Untouched (history : History) (asked : List Query) : Prop :=
  ∀ load ∈ history.further, ∀ w ∈ writes load, w.query ∉ asked

theorem sameResult_of_untouched (history : History) {M : String} (host : Host S)
    (sources : String → List String) (fuel : Nat) (heap : Heap) (store : S) {start : Start}
    (hs : StartOf history.own M start)
    (hu : Untouched history (launch history.own host sources fuel heap store start).asked) :
    SameResult (launch history.own host sources fuel heap store start).outcome
      (launch history.all host sources fuel heap store start).outcome := by
  let allowed : Query → Prop := fun q =>
    q ∈ (launch history.own host sources fuel heap store start).asked
  have hagree : EnginesAgree allowed (create.loadAll history.own) (create.loadAll history.all) :=
    EnginesAgree.history history hu (EnginesAgree.refl create)
  have hc := hagree.contexts host sources
  have hrun : Alike allowed Reach.none Eq
      (start.run ((create.loadAll history.own).context host sources) fuel)
      (start.run ((create.loadAll history.all).context host sources) fuel) := by
    cases hs with
    | autotuner hd =>
      obtain ⟨decl, hdecl⟩ := loaded_of_declaredIn hd
      exact runAutotuner_agree hc fuel _ hdecl
    | routine hd hn => exact runRoutine_agree hc fuel _ _
  exact SameResult.of_related (hrun _ _ (hagree.worlds heap store) fun _ hq => hq)

/-- A bare call executes the module's own callable. -/
def CallsOwn (ctx : Context S) (loads : List Load) (M f : String) (w : World S) : Prop :=
  ∃ spelling function, (ExprEvaluator.resolveFunction ctx f w).outcome =
    .ok (spelling, function) w ∧ DeclaredIn loads M f function

theorem callsOwn_iff (loads : List Load) (M : String) {f : String} (hf : IsIdentifier f)
    (host : Host S) (sources : String → List String) (w : World S) :
    CallsOwn ((create.loadAll loads).context host sources) loads M f w ↔
      LastIsOwn loads M f := by
  unfold CallsOwn LastIsOwn
  have hlookup := lookup_loadAll loads f
  cases hl : lastWrite f (registered loads) with
  | some entry =>
    rw [hl, Option.map_some] at hlookup
    have hr := resolveFunction_of_some
      ((create.loadAll loads).context host sources) hlookup w
    constructor
    · rintro ⟨spelling, function, hr', hd⟩
      cases hr.symm.trans hr'
      exact ⟨entry, rfl, hd⟩
    · rintro ⟨entry', he, hd⟩
      cases he
      exact ⟨f, entry.function, hr, hd⟩
  | none =>
    rw [hl, Option.map_none] at hlookup
    refine iff_of_false ?_ fun ⟨_, he, _⟩ => nomatch he
    rintro ⟨spelling, function, hr, _⟩
    have hthrow := resolveFunction_of_none
      ((create.loadAll loads).context host sources) hlookup hf.isQualified w
    cases hthrow.symm.trans hr

/-- A routine that sets its output `r` to the value of an expression. -/
def returning (name : String) (value : Expr) : RoutineDecl where
  name := name
  inputParams := []
  outputParams := [{ type := .ofParamType .int, name := "r" }]
  body := [.assign {} [{ variableName := "r" }] value]

def namedModule (moduleName : String) (routines : List RoutineDecl) : Load where
  program := { moduleName := moduleName, routines := routines }
  linker := fun _ => none

/-- `read` returns what `level`, of its own module, returns. -/
def gauge : Load :=
  namedModule "A" [returning "level" (.literal {} (.int 1)), returning "read" (.call {} "level" [])]

/-- The gauge with one further module, which has a routine `name`. -/
def gaugeAnd (name : String) : History :=
  [(false, gauge), (true, namedModule "B" [returning name (.literal {} (.int 2))])]

def readGauge : Start := .routine "A::read" ∅

theorem startOf_readGauge : StartOf [gauge] "A" readGauge := by
  have hd : Declares gauge "read" (.inlineRoutine (qualifiedName gauge.moduleName "read")) :=
    .routine rfl (List.mem_cons_of_mem _ List.mem_cons_self) rfl rfl
  exact .routine ⟨gauge, List.mem_cons_self, rfl, hd⟩ (.inr ⟨id, rfl⟩)

end FalconLib.Dsl.Isolation
