import FalconLib.Dsl.Isolation

/-!
# What earlier runs change

A run leaves the variables as they were and adds instances of generic structs to the type
registry. A later run is the same as in an engine that has just been loaded, as long as it
does not notice these instances.
-/

namespace FalconLib.Dsl.RunHistory

open FalconLib.Base
open AutotunerEngine Coupling Isolation Restoration
open TypeDescriptor (instanceName)

/-- A run that the host started before, on a heap of its own. -/
structure EarlierRun where
  start : Start
  fuel : Nat
  heap : Heap

/-- The world after a run that returned or threw, at any point. -/
def after (ctx : Context Unit) (w : World Unit) (run : EarlierRun) : World Unit :=
  match (run.start.run ctx run.fuel { w with heap := run.heap }).outcome with
  | .ok _ w' | .throw _ w' => w'
  | .halt _ => w

def afterAll (ctx : Context Unit) (w : World Unit) (runs : List EarlierRun) : World Unit :=
  runs.foldl (after ctx) w

/-- A lookup that does not notice what `cached` has: it does not pass over an instance that is
there, and makes none that is there with other contents. -/
def Unaffected (cached : TypeRegistry) : Query → Prop
  | .fallback name => cached.structRegistry[name]? = none
  | .instantiation base typeArgs =>
    ∀ decl, cached.structRegistry[instanceName base.name typeArgs]? = some decl →
      monomorphize base (instanceName base.name typeArgs) typeArgs = .ok decl
  | _ => True

/-! ## What a run keeps of the registry -/

/-- A registry with more instances. -/
structure Extends (loaded types : TypeRegistry) : Prop where
  structs : ∀ (name : String) (decl : StructDecl), loaded.structRegistry[name]? = some decl →
    types.structRegistry[name]? = some decl
  generic : ∀ name : String, loaded.structRegistry[name]? = none → '<' ∉ name.toList →
    types.structRegistry[name]? = none
  ffiMethods : types.ffiMethods = loaded.ffiMethods
  typeMethods : types.typeMethods = loaded.typeMethods

theorem Extends.refl (loaded : TypeRegistry) : Extends loaded loaded :=
  ⟨fun _ _ h => h, fun _ h _ => h, rfl, rfl⟩

theorem Extends.register {loaded types : TypeRegistry} {name : String} (decl : StructDecl)
    (hname : '<' ∈ name.toList) (hnone : types.structRegistry[name]? = none)
    (h : Extends loaded types) :
    Extends loaded (types.registerMonomorphizedStruct name decl) := by
  refine ⟨fun n d hd => ?_, fun n hn hgeneric => ?_, h.ffiMethods, h.typeMethods⟩
  · have hsome := h.structs n d hd
    have hne : name ≠ n := by
      rintro rfl
      exact absurd (hnone.symm.trans hsome) nofun
    exact (StdMap.getElem?_assign_ne _ _ hne).trans hsome
  · have hne : name ≠ n := by
      rintro rfl
      exact hgeneric hname
    exact (StdMap.getElem?_assign_ne _ _ hne).trans (h.generic n hn hgeneric)

/-- Nothing about the variables, and a registry that extends the loaded one. -/
def extending (loaded : TypeRegistry) : Reach where
  names _ := False
  structs _ := False
  kept := Extends loaded
  closed _ _ decl hname hnone h := h.register decl hname hnone

section Start

variable {S : Type} {allowed : Query → Prop} {reach : Reach}
  {r : ParameterMap → ParameterMap → Prop}

theorem contexts_refl (ctx : Context S) : ContextsAgree allowed ctx ctx :=
  ⟨fun _ _ => rfl, fun _ _ => rfl, fun _ _ => rfl, fun _ _ => rfl, rfl, rfl⟩

theorem start_agree (ctx : Context S) (fuel : Nat) (start : Start) :
    Alike allowed reach r (start.run ctx fuel) (start.run ctx fuel) := by
  have hc : ContextsAgree allowed ctx ctx := contexts_refl ctx
  cases start with
  | autotuner name inputs =>
    refine Agree.ask_bind fun _ => ?_
    cases findAutotuner ctx.loadedAutotuners name with
    | some decl => exact run_agree hc (handlers_agree hc fuel) fuel decl inputs
    | none => exact Agree.throw _
  | routine name inputs =>
    refine Agree.ask_bind fun _ => ?_
    cases ctx.functions.lookup name with
    | some function => exact callFunction_agree hc (handlers_agree hc fuel) fuel function inputs
    | none => exact Agree.throw _

/-- Whether it returns or throws, a run restores the variables and only adds instances. -/
structure Keeps (loaded : TypeRegistry) (m : M S FunctionResult) : Prop where
  ok : ∀ w a w', Extends loaded w.types → (m w).outcome = .ok a w' →
    Extends loaded w'.types ∧ w'.memberVariables = w.memberVariables
  throw : ∀ w e w', Extends loaded w.types → (m w).outcome = .throw e w' →
    Extends loaded w'.types ∧ w'.memberVariables = w.memberVariables

theorem start_keeps (ctx : Context S) (fuel : Nat) (start : Start) (loaded : TypeRegistry) :
    Keeps loaded (start.run ctx fuel) := by
  have hrun : ∀ w : World S, Extends loaded w.types →
      Outcome.Related (fun a b s t => (a = b ∧ True) ∧
          Linked Anything (extending loaded)
            (fun a b => a = w.memberVariables ∧ b = w.memberVariables) s t)
        (fun _ => Linked Anything (extending loaded)
          fun a b => a = w.memberVariables ∧ b = w.memberVariables)
        (start.run ctx fuel w).outcome (start.run ctx fuel w).outcome := by
    intro w h
    refine start_agree ctx fuel start w w ⟨⟨rfl, rfl⟩, rfl, rfl, ?_⟩ fun _ _ => trivial
    exact ⟨fun _ _ => .inl rfl, fun _ _ _ => rfl, fun _ _ _ => rfl,
      fun _ _ _ hreach => (or_self_iff.mp hreach).elim, h⟩
  constructor
  · intro w a w' h houtcome
    have hlinked := hrun w h
    rw [houtcome] at hlinked
    exact ⟨hlinked.2.types.kept, hlinked.2.maps.1⟩
  · intro w e w' h houtcome
    have hlinked := hrun w h
    rw [houtcome] at hlinked
    exact ⟨hlinked.2.types.kept, hlinked.2.maps.1⟩

end Start

theorem after_keeps (ctx : Context Unit) {w : World Unit} (run : EarlierRun)
    {loaded : TypeRegistry} (h : Extends loaded w.types) :
    Extends loaded (after ctx w run).types ∧
      (after ctx w run).memberVariables = w.memberVariables := by
  have hkeeps := start_keeps ctx run.fuel run.start loaded
  unfold after
  cases houtcome : (run.start.run ctx run.fuel { w with heap := run.heap }).outcome with
  | ok a w' => exact hkeeps.ok { w with heap := run.heap } a w' h houtcome
  | throw e w' => exact hkeeps.throw { w with heap := run.heap } e w' h houtcome
  | halt r => exact ⟨h, rfl⟩

theorem afterAll_keeps (ctx : Context Unit) {w : World Unit} (runs : List EarlierRun)
    {loaded : TypeRegistry} (h : Extends loaded w.types) :
    Extends loaded (afterAll ctx w runs).types ∧
      (afterAll ctx w runs).memberVariables = w.memberVariables := by
  induction runs generalizing w with
  | nil => exact ⟨h, rfl⟩
  | cons run runs ih =>
    obtain ⟨hextends, hvariables⟩ := after_keeps ctx run h
    obtain ⟨hlast, hsame⟩ := ih hextends
    exact ⟨hlast, hsame.trans hvariables⟩

/-! ## A later run -/

/-- What the registry has more than the loaded one is not noticed. -/
theorem ahead_of_extends {loaded cached : TypeRegistry} {allowed : Query → Prop}
    (h : Extends loaded cached) (hallowed : ∀ q, allowed q → Unaffected cached q) (name : String) :
    loaded.structRegistry[name]? = cached.structRegistry[name]? ∨
      Ahead allowed loaded cached name := by
  cases hloaded : loaded.structRegistry[name]? with
  | some decl => exact .inl (h.structs name decl hloaded).symm
  | none =>
    cases hcached : cached.structRegistry[name]? with
    | none => exact .inl rfl
    | some decl =>
      refine .inr ⟨?_, hloaded, ?_, decl, hcached, ?_⟩
      · by_contra hgeneric
        exact absurd (hcached.symm.trans (h.generic name hloaded hgeneric)) nofun
      · intro hfallback
        have hnone : cached.structRegistry[name]? = none := hallowed _ hfallback
        exact absurd (hcached.symm.trans hnone) nofun
      · rintro base typeArgs rfl hinstantiation
        exact hallowed _ hinstantiation decl hcached

/-- The world in which the host starts a run, after earlier ones. -/
def afterRuns (engine : AutotunerEngine) (host : Host Unit) (sources : String → List String)
    (runs : List EarlierRun) : World Unit :=
  afterAll (engine.context host sources) (engine.world {} ()) runs

/-- After any earlier runs a run ends as in a fresh engine, if it does not notice the
instances that they have made. -/
theorem sameResult_of_unaffected (engine : AutotunerEngine) (host : Host Unit)
    (sources : String → List String) (runs : List EarlierRun) (fuel : Nat) (heap : Heap)
    (name : String) (inputs : ParameterMap)
    (h : ∀ q ∈ (runAutotuner (engine.context host sources) fuel name inputs
      (engine.world heap ())).asked, Unaffected (afterRuns engine host sources runs).types q) :
    SameResult
      (runAutotuner (engine.context host sources) fuel name inputs (engine.world heap ())).outcome
      (runAutotuner (engine.context host sources) fuel name inputs
        { afterRuns engine host sources runs with heap := heap }).outcome := by
  let asked := (runAutotuner (engine.context host sources) fuel name inputs
    (engine.world heap ())).asked
  obtain ⟨hextends, hvariables⟩ := afterAll_keeps (engine.context host sources) runs
    (Extends.refl (engine.world {} ()).types)
  have hlinked : Linked (fun q => q ∈ asked) Reach.none Eq (engine.world heap ())
      { afterRuns engine host sources runs with heap := heap } := by
    refine ⟨hvariables.symm, rfl, rfl, fun n _ => ahead_of_extends hextends h n, ?_, ?_,
      fun name decl _ => Reach.none_admits name decl, trivial⟩
    · intro typeName methodName _
      exact congrArg (fun methods : MethodTable =>
        methods[typeName]?.bind fun methods => methods[methodName]?) hextends.ffiMethods.symm
    · intro typeName methodName _
      exact congrArg (fun methods : MethodTable =>
        methods[typeName]?.bind fun methods => methods[methodName]?) hextends.typeMethods.symm
  have hrun := start_agree (engine.context host sources) fuel (.autotuner name inputs)
    (engine.world heap ()) { afterRuns engine host sources runs with heap := heap } hlinked
    fun _ hq => hq
  exact SameResult.of_related hrun

/-! ## A box that is declared without a value -/

def intType : TypeDescriptor := .ofParamType .int

/-- `struct Box<T> { T value; ... }` with a routine that makes a box and one that reads it. -/
def box : StructDecl where
  name := "Box"
  genericParams := ["T"]
  fields := [{ type := .makeStruct "T", name := "value" }]
  routines := [
    { name := "New"
      inputParams := []
      outputParams := [{ type := .makeGenericStruct "Box" [.makeStruct "T"], name := "b" }]
      body := [.structFieldAssign {} (.var {} "b") "value" (.var {} "value")] },
    { name := "Get"
      inputParams := []
      outputParams := [{ type := .makeStruct "T", name := "v" }]
      body := [.assign {} [{ variableName := "v" }] (.var {} "value")] }]

/-- An autotuner that declares a `Box<int>` and returns what is in it. -/
def boxUser (name : String) (initializer : Option Expr) : AutotunerDecl where
  name := name
  inputParams := []
  outputParams := [{ type := intType, name := "out" }]
  autotunerVariables := []
  entryState := "s"
  entryParameters := []
  states := [{
    name := "s"
    body := [
      .varDecl {
        type := .makeGenericStruct "Box" [intType], name := "b", initializer := initializer },
      .assign {} [{ variableName := "out" }] (.methodCall {} (.var {} "b") "Get" []),
      .terminal {}] }]

/-- `makes` has `Box<int> b = Box.New();`, and `declares` has `Box<int> b;`. -/
def boxModule : Load where
  program := {
    moduleName := "M"
    structs := [box]
    autotuners := [boxUser "makes" (some (.methodCall {} (.var {} "Box") "New" [])),
      boxUser "declares" none] }
  linker := fun _ => none

def boxEngine : AutotunerEngine := create.loadAll [boxModule]

def makesRun : EarlierRun := { start := .autotuner "M::makes" ∅, fuel := 5, heap := {} }

theorem sameResult_of_unaffected_makes :
    SameResult
      (runAutotuner (boxEngine.context Host.unlinked fun _ => []) 5 "M::makes" ∅
        (boxEngine.world {} ())).outcome
      (runAutotuner (boxEngine.context Host.unlinked fun _ => []) 5 "M::makes" ∅
        { afterRuns boxEngine Host.unlinked (fun _ => []) [makesRun] with heap := {} }).outcome := by
  apply sameResult_of_unaffected boxEngine Host.unlinked (fun _ => []) [makesRun] 5 {} "M::makes" ∅
  have hasked : (runAutotuner (boxEngine.context Host.unlinked fun _ => []) 5 "M::makes" ∅
      (boxEngine.world {} ())).asked =
        [.autotuner "M::makes", .structType "Box", .structType "Box<int>",
          .instantiation { box with moduleName := "M" } [intType], .structType "Box<int>",
          .structType "b", .fallback "b", .structType "Box<int>"] := by with_unfolding_all rfl
  have hcached : (afterRuns boxEngine Host.unlinked (fun _ => []) [makesRun]).types.structRegistry[
      instanceName "Box" [intType]]? =
        (monomorphize { box with moduleName := "M" } (instanceName "Box" [intType])
          [intType]).toOption := by with_unfolding_all rfl
  have hunbound : (afterRuns boxEngine Host.unlinked (fun _ => []) [makesRun]).types.structRegistry[
      "b"]? = none := by with_unfolding_all rfl
  rw [hasked]
  simp only [List.forall_mem_cons]
  refine ⟨trivial, trivial, trivial, ?_, trivial, trivial, hunbound, trivial,
    fun _ h => absurd h List.not_mem_nil⟩
  intro decl hdecl
  exact congrArg Except.ok (Option.some.inj (hcached.symm.trans hdecl))

/-- Without the earlier run the declared box holds nil, after it it holds 0. -/
theorem not_sameResult_declares :
    ¬ ∀ (loads : List Load) (host : Host Unit) (sources : String → List String)
        (runs : List EarlierRun) (fuel : Nat) (heap : Heap) (name : String)
        (inputs : ParameterMap),
        ((loads.flatMap Load.structs).map StructDecl.name).Nodup →
        SameResult
          (runAutotuner ((create.loadAll loads).context host sources) fuel name inputs
            ((create.loadAll loads).world heap ())).outcome
          (runAutotuner ((create.loadAll loads).context host sources) fuel name inputs
            { afterRuns (create.loadAll loads) host sources runs with heap := heap }).outcome := by
  intro h
  have hsame := (h [boxModule] Host.unlinked (fun _ => []) [makesRun] 5 {} "M::declares" ∅
    (by decide)).value?_eq
  exact absurd hsame (by decide +kernel)

end FalconLib.Dsl.RunHistory
