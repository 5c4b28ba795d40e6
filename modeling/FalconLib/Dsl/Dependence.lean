import FalconLib.Dsl.Termination

/-!
# What a run depends on

Calls lead from the text of what is started to functions and struct routines, by their names, and
transitions from the entry state of an autotuner to others. Two programs that agree on what is
reached in this way cannot be told apart by running it, whatever else they have.
-/

namespace FalconLib.Dsl.Dependence

open FalconLib.Base
open AutotunerEngine Interpreter
open CallOrder FuelRuns
open Isolation (Start)
open Regime (Outlasts)

variable {S : Type} {reach : Callee → Prop} {ctx ctx' : Context S}

/-! ## What is reached -/

/-- Initialisers and the routines that are reached call only what is reached. -/
structure StructWithin (reach : Callee → Prop) (decl : StructDecl) : Prop where
  initializers : ∀ c ∈ fieldCallees decl.fields, reach c
  routines : ∀ routine ∈ decl.routines, reach (.method routine.name) →
    ∀ c ∈ routineCallees routine, reach c

structure AutotunerWithin (reach : Callee → Prop) (autotuner : AutotunerDecl) : Prop where
  prepare : ∀ c ∈ prepareCallees autotuner, reach c
  states : ∀ name state, Entered autotuner name → findState autotuner name = some state →
    ∀ c ∈ stateCallees state, reach c

def FunctionWithin (reach : Callee → Prop) (ctx : Context S) : ExternalFunction → Prop
  | .autotuner qname => ∀ autotuner, ctx.loadedAutotuners[qname]? = some autotuner →
    AutotunerWithin reach autotuner
  | .inlineRoutine qname => ∀ decl, ctx.routineDeclarations[qname]? = some decl →
    ∀ c ∈ blockCallees decl.body, reach c
  | .errorMsg | .fatalErrorMsg | .foreign _ => True

/-- Functions that are reached call only what is reached. -/
def Closed (reach : Callee → Prop) (ctx : Context S) : Prop :=
  ∀ name function, reach (.function name) → Resolves ctx name function →
    FunctionWithin reach ctx function

def TypesWithin (reach : Callee → Prop) (types : TypeRegistry) : Prop :=
  ∀ (name : String) (decl : StructDecl), types.structRegistry[name]? = some decl →
    StructWithin reach decl

theorem StructWithin.instance_ {base decl : StructDecl} {monoName : String}
    {typeArgs : List TypeDescriptor} (h : StructWithin reach base)
    (hm : monomorphize base monoName typeArgs = .ok decl) : StructWithin reach decl := by
  unfold monomorphize at hm
  split at hm
  · cases hm
    refine ⟨?_, fun routine hroutine hreach c hc => ?_⟩
    · change ∀ c ∈ fieldCallees (base.fields.map _), reach c
      rw [fieldCallees_monomorphizeField]
      exact h.initializers
    · obtain ⟨generic, hgeneric, rfl⟩ := List.mem_map.mp hroutine
      exact h.routines generic hgeneric hreach c (routineCallees_monomorphizeRoutine _ _ _ _ hc)
  · cases hm

/-- What is reached may be called, and looked up under any of some names. -/
def within (reach : Callee → Prop) (Name : String → Prop)
    (names : ∀ {name spelling}, reach (.function name) → Spells name spelling → Name spelling) :
    Allowance where
  Callee := reach
  Name := Name
  Initializer e := ∀ c ∈ callees e, reach c
  Struct := StructWithin reach
  MayStop := True
  names := names
  initializers hdecl _ _ hfield he c hc := by
    refine hdecl.initializers c (List.mem_flatMap.mpr ⟨_, hfield, ?_⟩)
    rw [he]
    exact hc
  instance_ := StructWithin.instance_

section Permitted

variable {Name : String → Prop}
  (names : ∀ {name spelling}, reach (.function name) → Spells name spelling → Name spelling)

theorem AutotunerWithin.permitted {autotuner : AutotunerDecl} (h : AutotunerWithin reach autotuner)
    (rounds : Nat) : RunPermitted (within reach Name names) rounds autotuner :=
  ⟨h.prepare, h.states, .inl trivial⟩

end Permitted

theorem AutotunerWithin.of_callees {autotuner : AutotunerDecl}
    (h : ∀ c ∈ autotunerCallees autotuner, reach c) : AutotunerWithin reach autotuner := by
  have hpermitted : RunPermitted (within reach (fun _ => True) fun _ _ => trivial) 0 autotuner :=
    .of_callees h (.inl trivial)
  exact ⟨hpermitted.prepare, hpermitted.states⟩

theorem AutotunerWithin.same {autotuner autotuner' : AutotunerDecl}
    (h : AutotunerWithin reach autotuner) (hsame : SameMachine autotuner autotuner') :
    AutotunerWithin reach autotuner' := by
  constructor
  · unfold prepareCallees
    rw [hsame.inputParams, hsame.outputParams, hsame.autotunerVariables, hsame.entryParameters]
    exact h.prepare
  · intro name state hentered hfound
    have hfirst := hsame.entered hentered
    exact h.states name state hfirst ((hsame.states name hfirst).symm.trans hfound)

/-! ## Programs that agree -/

def SameFunction (ctx ctx' : Context S) : ExternalFunction → Prop
  | .autotuner qname =>
    Option.Rel SameMachine ctx.loadedAutotuners[qname]? ctx'.loadedAutotuners[qname]?
  | .inlineRoutine qname => ctx'.routineDeclarations[qname]? = ctx.routineDeclarations[qname]?
  | .errorMsg | .fatalErrorMsg | .foreign _ => True

/-- The programs agree on what is reached. -/
structure Agree (reach : Callee → Prop) (ctx ctx' : Context S) : Prop
    extends Common reach ctx ctx' where
  functions : ∀ name function, reach (.function name) → Resolves ctx name function →
    SameFunction ctx ctx' function

theorem rel_symm {α : Type} {R R' : α → α → Prop} (hR : ∀ a b, R a b → R' b a) {o o' : Option α}
    (h : Option.Rel R o o') : Option.Rel R' o' o := by
  cases h with
  | none => exact .none
  | some h => exact .some (hR _ _ h)

theorem rel_imp {α : Type} {R R' : α → α → Prop} (hR : ∀ a b, R a b → R' a b) {o o' : Option α}
    (h : Option.Rel R o o') : Option.Rel R' o o' := by
  cases h with
  | none => exact .none
  | some h => exact .some (hR _ _ h)

theorem rel_and {α : Type} {R : α → α → Prop} {p : α → Prop} {o o' : Option α}
    (hp : ∀ a, o = some a → p a) (h : Option.Rel R o o') :
    Option.Rel (fun a b => p a ∧ R a b) o o' := by
  cases h with
  | none => exact .none
  | some h => exact .some ⟨hp _ rfl, h⟩

theorem exists_of_rel {α : Type} {R : α → α → Prop} {o o' : Option α} {b : α}
    (h : Option.Rel R o o') (hb : o' = some b) : ∃ a, o = some a ∧ R a b := by
  cases h with
  | none => cases hb
  | some h =>
    cases hb
    exact ⟨_, rfl, h⟩

theorem SameFunction.symm {function : ExternalFunction} (h : SameFunction ctx ctx' function) :
    SameFunction ctx' ctx function := by
  cases function with
  | autotuner qname => exact rel_symm (fun _ _ hsame => hsame.symm) h
  | inlineRoutine qname => exact Eq.symm h
  | _ => trivial

theorem FunctionWithin.same {function : ExternalFunction} (h : FunctionWithin reach ctx function)
    (hsame : SameFunction ctx ctx' function) : FunctionWithin reach ctx' function := by
  cases function with
  | autotuner qname =>
    intro autotuner' hfound
    obtain ⟨autotuner, hfirst, hmachine⟩ := exists_of_rel hsame hfound
    exact (h autotuner hfirst).same hmachine
  | inlineRoutine qname => exact fun decl hfound => h decl (Eq.trans (Eq.symm hsame) hfound)
  | _ => trivial

theorem Agree.resolves (h : Agree reach ctx ctx') {name : String} (hreach : reach (.function name))
    {function : ExternalFunction} (hresolves : Resolves ctx' name function) :
    Resolves ctx name function :=
  hresolves.imp (fun hfound => (h.lookup name name hreach (.inl rfl)).symm.trans hfound)
    fun hfound => (h.lookup name _ hreach (.inr rfl)).symm.trans hfound

theorem Agree.symm (h : Agree reach ctx ctx') : Agree reach ctx' ctx where
  lookup name spelling hreach hspells := (h.lookup name spelling hreach hspells).symm
  getSignature name spelling hreach hspells := (h.getSignature name spelling hreach hspells).symm
  host := h.host.symm
  sources := h.sources.symm
  functions name function hreach hresolves :=
    (h.functions name function hreach (h.resolves hreach hresolves)).symm

theorem Closed.agree (hclosed : Closed reach ctx) (h : Agree reach ctx ctx') : Closed reach ctx' :=
  fun name function hreach hresolves =>
    (hclosed name function hreach (h.resolves hreach hresolves)).same
      (h.functions name function hreach (h.resolves hreach hresolves))

section Handlers

variable {Name : String → Prop}
  (names : ∀ {name spelling}, reach (.function name) → Spells name spelling → Name spelling)

theorem permits_within {function : ExternalFunction} (h : FunctionWithin reach ctx function)
    (hsame : SameFunction ctx ctx' function) (rounds : Nat) :
    Permits (within reach Name names) ctx ctx' rounds function := by
  cases function with
  | autotuner qname =>
    exact rel_and (fun autotuner hfound => (h autotuner hfound).permitted names rounds) hsame
  | inlineRoutine qname => exact ⟨hsame, h⟩
  | _ => trivial

theorem handlers_within (hclosed : Closed reach ctx) (h : Agree reach ctx ctx') (fuel : Nat) :
    HandlersOutlast (within reach Name names) ctx ctx' (handlers ctx fuel) (handlers ctx' fuel) := by
  induction fuel with
  | zero =>
    exact ⟨h.toCommon, fun _ _ _ => Outlasts.stop trivial _,
      fun _ _ _ _ _ _ _ => Outlasts.stop trivial _, fun _ _ _ _ _ => Outlasts.stop trivial _⟩
  | succ fuel ih =>
    refine ⟨h.toCommon, fun vars e he => ?_, fun receiver decl routine callArgs hdecl hroutine hr => ?_,
      fun name function params hreach hresolves => ?_⟩
    · exact evaluate_outlasts ih vars e he
    · exact execStructRoutine_outlasts ih receiver (hdecl.routines routine hroutine hr)
        hdecl.initializers (fun _ _ hdecl => hdecl.initializers) callArgs
    · exact callFunction_outlasts ih (permits_within names (hclosed name function hreach hresolves)
        (h.functions name function hreach hresolves) fuel) (Nat.le_refl fuel) params

end Handlers

/-! ## Starts -/

/-- What is started is the same in both programs, and calls only what is reached. -/
def StartWithin (reach : Callee → Prop) (ctx ctx' : Context S) : Start → Prop
  | .autotuner name _ => Option.Rel
      (fun autotuner autotuner' => AutotunerWithin reach autotuner ∧ SameMachine autotuner autotuner')
      (findAutotuner ctx.loadedAutotuners name) (findAutotuner ctx'.loadedAutotuners name)
  | .routine name _ => Option.Rel
      (fun function function' => (FunctionWithin reach ctx function ∧ SameFunction ctx ctx' function) ∧
        function' = function)
      (ctx.functions.lookup name) (ctx'.functions.lookup name)

theorem StartWithin.symm {start : Start} (h : StartWithin reach ctx ctx' start) :
    StartWithin reach ctx' ctx start := by
  cases start with
  | autotuner name inputs =>
    exact rel_symm (fun _ _ hpair => ⟨hpair.1.same hpair.2, hpair.2.symm⟩) h
  | routine name inputs =>
    refine rel_symm (fun _ _ hpair => ?_) h
    obtain ⟨⟨hwithin, hsame⟩, rfl⟩ := hpair
    exact ⟨⟨hwithin.same hsame, hsame.symm⟩, rfl⟩

/-- The name of a routine that is started is looked up as well. -/
def NamedIn (Name : String → Prop) : Start → Prop
  | .autotuner _ _ => True
  | .routine name _ => Name name

section Runs

variable {Name : String → Prop}
  (names : ∀ {name spelling}, reach (.function name) → Spells name spelling → Name spelling)

theorem StartWithin.admits {start : Start} (h : StartWithin reach ctx ctx' start)
    (hnamed : NamedIn Name start) (rounds : Nat) :
    Admits (within reach Name names) ctx ctx' rounds start := by
  cases start with
  | autotuner name inputs =>
    exact rel_imp (fun _ _ hpair => ⟨hpair.1.permitted names rounds, hpair.2⟩) h
  | routine name inputs =>
    exact ⟨hnamed, rel_imp (fun _ _ hpair => ⟨permits_within names hpair.1.1 hpair.1.2 rounds, hpair.2⟩) h⟩

theorem runs_outlast (hclosed : Closed reach ctx) (h : Agree reach ctx ctx') {start : Start}
    (hstart : StartWithin reach ctx ctx' start) (hnamed : NamedIn Name start) (fuel : Nat) :
    (within reach Name names).Outlasts (start.run ctx fuel) (start.run ctx' fuel) :=
  start_outlasts (handlers_within names hclosed h fuel) (Nat.le_refl fuel)
    (hstart.admits names hnamed fuel)

end Runs

theorem namedIn_any (start : Start) : NamedIn (fun _ => True) start := by
  cases start <;> trivial

/-- What is started behaves the same in both programs, and what it registers calls only what is
reached. -/
theorem run_eq (hclosed : Closed reach ctx) (h : Agree reach ctx ctx') {start : Start}
    (hstart : StartWithin reach ctx ctx' start) (fuel : Nat) {w : World S}
    (hw : TypesWithin reach w.types) :
    (start.run ctx' fuel w).outcome = (start.run ctx fuel w).outcome ∧
      ∀ w', (start.run ctx fuel w).outcome.state? = some w' → TypesWithin reach w'.types := by
  obtain ⟨-, hthere⟩ := runs_outlast (fun _ _ => trivial) hclosed h hstart (namedIn_any start) fuel w hw
  obtain ⟨-, hback⟩ := runs_outlast (fun _ _ => trivial) (hclosed.agree h) h.symm hstart.symm
    (namedIn_any start) fuel w hw
  refine ⟨?_, fun w' hleft => hthere.state hleft⟩
  by_cases hends : (start.run ctx fuel w).outcome = .halt .outOfFuel
  · by_cases hends' : (start.run ctx' fuel w).outcome = .halt .outOfFuel
    · rw [hends, hends']
    · exact (hback.eq hends').symm
  · exact hthere.eq hends

/-! ## Sessions -/

/-- The outcomes of one start after the other, each with its fuel and in the world that the one
before has left. -/
def outcomes (ctx : Context S) :
    List (Start × Nat) → World S → List (Outcome Exception (World S) FunctionResult)
  | [], _ => []
  | (start, fuel) :: rest, w =>
    let outcome := (start.run ctx fuel w).outcome
    outcome :: match outcome.state? with
      | some left => outcomes ctx rest left
      | none => []

/-- Two programs that agree on what is reached from all that is started have the same outcomes. -/
theorem outcomes_eq (hclosed : Closed reach ctx) (h : Agree reach ctx ctx')
    {starts : List (Start × Nat)} (hstarts : ∀ start ∈ starts, StartWithin reach ctx ctx' start.1)
    {w : World S} (hw : TypesWithin reach w.types) :
    outcomes ctx' starts w = outcomes ctx starts w := by
  induction starts generalizing w with
  | nil => rfl
  | cons first rest ih =>
    obtain ⟨start, fuel⟩ := first
    obtain ⟨hfirst, hrest⟩ := List.forall_mem_cons.mp hstarts
    obtain ⟨heq, htypes⟩ := run_eq hclosed h hfirst fuel hw
    unfold outcomes
    rw [heq]
    dsimp only
    split
    · rename_i left hleft
      rw [ih hrest (htypes left hleft)]
    · rfl

open Termination (measureDecl measureContext)

/-- The same autotuner with a state that no transition leads to. -/
def measureSpare : AutotunerDecl :=
  { measureDecl with
    states := measureDecl.states ++
      [{ name := "spare", body := [.expr {} (.call {} "noise" []), .terminal {}] }] }

/-- The same program with that autotuner and with another function. -/
def measureSpareContext : Context Unit :=
  { measureContext with
    functions := {
      functions := measureContext.functions.functions.assign "noise" (.inlineRoutine "noise") }
    loadedAutotuners := StdMap.assign ∅ "measure" measureSpare }

def answerOnly (c : Callee) : Prop := c = .function "answer"

theorem entered_measure {name : String} (h : Entered measureDecl name) :
    name = "first" ∨ name = "second" := by
  induction h with
  | entry => exact .inl rfl
  | transition _ found leads ih =>
    obtain rfl | rfl := ih
    · cases found
      exact .inr (List.mem_singleton.mp leads)
    · cases found
      exact absurd leads List.not_mem_nil

theorem sameMachine_measureSpare : SameMachine measureDecl measureSpare := by
  refine ⟨rfl, rfl, rfl, rfl, rfl, fun name hentered => ?_⟩
  obtain rfl | rfl := entered_measure hentered
  · rfl
  · rfl

theorem closed_answerOnly : Closed answerOnly measureContext := by
  intro name function hreach hresolves
  cases hreach
  have hfunction : function = .inlineRoutine "answer" := by
    obtain hfound | hfound := hresolves <;> cases hfound <;> rfl
  subst hfunction
  intro decl hdecl
  cases hdecl
  exact fun c hc => absurd hc List.not_mem_nil

theorem agree_measureSpare : Agree answerOnly measureContext measureSpareContext := by
  refine ⟨⟨fun name spelling hreach hspells => ?_, fun name spelling hreach hspells => ?_, rfl, rfl⟩,
    fun name function hreach hresolves => ?_⟩
  · cases hreach
    obtain rfl | rfl := hspells <;> rfl
  · cases hreach
    obtain rfl | rfl := hspells <;> rfl
  · cases hreach
    obtain hfound | hfound := hresolves <;> cases hfound <;> rfl

theorem outcomes_eq_measure :
    outcomes measureSpareContext [(.autotuner "measure" ∅, 5), (.autotuner "measure" ∅, 5)]
        { store := () } =
      outcomes measureContext [(.autotuner "measure" ∅, 5), (.autotuner "measure" ∅, 5)]
        { store := () } := by
  have hstart : StartWithin answerOnly measureContext measureSpareContext
      (.autotuner "measure" ∅) := by
    refine Option.Rel.some ⟨.of_callees fun c hc => ?_, sameMachine_measureSpare⟩
    exact List.mem_singleton.mp (show c ∈ [Callee.function "answer"] from hc)
  have htypes : TypesWithin answerOnly ({ store := () } : World Unit).types := by
    intro name decl hdecl
    cases hdecl
  refine outcomes_eq closed_answerOnly agree_measureSpare (fun start hmem => ?_) htypes
  obtain rfl | hmem := List.mem_cons.mp hmem
  · exact hstart
  · rw [List.mem_singleton.mp hmem]
    exact hstart

end FalconLib.Dsl.Dependence
