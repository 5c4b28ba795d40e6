import FalconLib.Dsl.FuelRuns
import FalconLib.Dsl.PolicyRuns

/-!
# Runs that end

More fuel never changes how a run ended. A program without a cycle of calls and without a cycle of
states always ends, and its calls nest no deeper than its rank says.
-/

namespace FalconLib.Dsl.Termination

open FalconLib.Base
open AutotunerEngine Interpreter
open CallOrder FuelRuns
open Isolation (Start)
open Regime (Outlasts)

variable {S : Type} {ctx : Context S}

/-! ## Any program -/

section Unlimited

variable (Struct : StructDecl → Prop)
  (hinstance : ∀ {base decl monoName typeArgs}, Struct base →
    monomorphize base monoName typeArgs = .ok decl → Struct decl)

/-- Everything may be called, and the fuel may not be enough. -/
def unlimited : Allowance where
  Callee _ := True
  Name _ := True
  Initializer _ := True
  Struct := Struct
  MayStop := True
  names _ _ := trivial
  initializers _ _ _ _ _ := trivial
  instance_ := hinstance

theorem permits_unlimited (ctx : Context S) (rounds : Nat) (function : ExternalFunction) :
    Permits (unlimited Struct hinstance) ctx ctx rounds function := by
  cases function with
  | autotuner qname => exact rel_self fun _ _ => ⟨.of_callees (fun _ _ => trivial) (.inl trivial), .refl _⟩
  | inlineRoutine qname => exact ⟨rfl, fun _ _ _ _ => trivial⟩
  | _ => trivial

theorem handlers_unlimited (ctx : Context S) (fuel : Nat) :
    HandlersOutlast (unlimited Struct hinstance) ctx ctx (handlers ctx fuel)
      (handlers ctx (fuel + 1)) := by
  induction fuel with
  | zero =>
    exact ⟨.refl ctx, fun _ _ _ => Outlasts.stop trivial _, fun _ _ _ _ _ _ _ => Outlasts.stop trivial _,
      fun _ _ _ _ _ => Outlasts.stop trivial _⟩
  | succ fuel ih =>
    refine ⟨.refl ctx, fun vars e _ => ?_, fun receiver decl routine callArgs _ _ _ => ?_,
      fun name function params _ _ => ?_⟩
    · exact evaluate_outlasts ih vars e fun _ _ => trivial
    · exact execStructRoutine_outlasts ih receiver (fun _ _ => trivial) (fun _ _ => trivial)
        (fun _ _ _ _ _ => trivial) callArgs
    · exact callFunction_outlasts ih (permits_unlimited Struct hinstance ctx fuel function)
        (Nat.le_succ fuel) params

end Unlimited

/-! ## Ranked programs -/

section Ranked

variable (rank : Callee → Nat) (floor : Nat)

/-- What ranks below `bound` may be called, and the fuel must be enough. -/
def below (bound : Nat) : Allowance where
  Callee c := rank c < bound
  Name _ := True
  Initializer e := ∃ bound' < bound, Below rank bound' (callees e)
  Struct := RankedStruct rank floor
  MayStop := False
  names _ _ := trivial
  initializers {decl routine field e} hdecl hroutine hrank hfield he := by
    refine ⟨_, hrank, (hdecl.routines routine hroutine).fields.mono fun c hc => ?_⟩
    refine List.mem_flatMap.mpr ⟨field, hfield, ?_⟩
    rw [he]
    exact hc
  instance_ h hm := h.instance_ hm

variable {rank floor}

theorem Descends.mono {rounds rounds' : Nat} {autotuner : AutotunerDecl}
    (h : Descends rounds autotuner) (hle : rounds ≤ rounds') : Descends rounds' autotuner := by
  obtain ⟨order, hentry, hdown⟩ := h
  exact ⟨order, Nat.lt_of_lt_of_le hentry hle, hdown⟩

theorem permits_below {rounds rounds' bound : Nat} {function : ExternalFunction}
    (h : RankedFunction rank ctx rounds bound function) (hle : rounds ≤ rounds') :
    Permits (below rank floor bound) ctx ctx rounds' function := by
  cases function with
  | autotuner qname =>
    refine rel_self fun autotuner hfound => ⟨?_, .refl autotuner⟩
    obtain ⟨hcalls, hdescends⟩ := h autotuner hfound
    exact .of_callees hcalls (.inr (Descends.mono hdescends hle))
  | inlineRoutine qname => exact ⟨rfl, h⟩
  | _ => trivial

/-- Each call takes one of fuel and leads below the rank of the caller, so what is left is enough
for what the callee calls. -/
theorem handlers_below {rounds : Nat} (hctx : Ranked rank ctx rounds) (fuel bound : Nat)
    (hle : bound + rounds ≤ fuel) :
    HandlersOutlast (below rank floor bound) ctx ctx (handlers ctx fuel)
      (handlers ctx (fuel + 1)) := by
  induction fuel generalizing bound with
  | zero =>
    obtain rfl : bound = 0 := by omega
    refine ⟨.refl ctx, fun vars e hinitializer => ?_,
      fun _ _ _ _ _ _ hrank => absurd hrank (Nat.not_lt_zero _),
      fun _ _ _ hrank _ => absurd hrank (Nat.not_lt_zero _)⟩
    obtain ⟨_, hlt, -⟩ := hinitializer
    exact absurd hlt (Nat.not_lt_zero _)
  | succ fuel ih =>
    refine ⟨.refl ctx, fun vars e hinitializer => ?_,
      fun receiver decl routine callArgs hdecl hroutine hrank => ?_,
      fun name function params hrank hresolves => ?_⟩
    · obtain ⟨bound', hlt, hbelow⟩ := hinitializer
      exact evaluate_outlasts (ih bound' (by omega)) vars e hbelow
    · have hlt : rank (.method routine.name) < bound := hrank
      obtain ⟨hcalls, hfields, hfloor⟩ := hdecl.routines routine hroutine
      refine execStructRoutine_outlasts (ih (rank (.method routine.name)) (by omega)) receiver
        hcalls hfields (fun hbody decl hdecl => ?_) callArgs
      exact hdecl.initializers.weaken (hfloor hbody)
    · have hlt : rank (.function name) < bound := hrank
      exact callFunction_outlasts (ih (rank (.function name)) (by omega))
        (permits_below (hctx name function hresolves) (by omega)) (Nat.le_succ fuel) params

end Ranked

/-! ## Runs of the host -/

theorem start_unlimited (Struct : StructDecl → Prop)
    (hinstance : ∀ {base decl monoName typeArgs}, Struct base →
      monomorphize base monoName typeArgs = .ok decl → Struct decl) (start : Start) (n : Nat) :
    (unlimited Struct hinstance).Outlasts (start.run ctx n) (start.run ctx (n + 1)) := by
  refine start_outlasts (handlers_unlimited Struct hinstance ctx n) (Nat.le_succ n) ?_
  cases start with
  | autotuner name inputs =>
    exact rel_self fun _ _ => ⟨.of_callees (fun _ _ => trivial) (.inl trivial), .refl _⟩
  | routine name inputs =>
    exact ⟨trivial, rel_self fun function _ => ⟨permits_unlimited Struct hinstance ctx n function, rfl⟩⟩

/-- A run that has ended with some fuel ends in the same way with more. -/
theorem run_of_le (start : Start) {w : World S} {fuel fuel' : Nat}
    {o : Outcome Exception (World S) FunctionResult} (hrun : (start.run ctx fuel w).outcome = o)
    (hends : o ≠ .halt .outOfFuel) (hle : fuel ≤ fuel') : (start.run ctx fuel' w).outcome = o :=
  Regime.outcome_of_le (start_unlimited (fun _ => True) (fun _ _ => trivial) start)
    (fun _ _ _ => trivial) hrun hends hle

/-- A run registers only instances of what is registered. -/
theorem session_types {rank : Callee → Nat} {floor : Nat} {w w' : World S}
    (hw : RankedTypes rank floor w.types) (h : Session ctx (fun _ _ => True) w w') :
    RankedTypes rank floor w'.types := by
  induction h with
  | start => exact hw
  | run _ start fuel _ left ih =>
    exact (start_unlimited (RankedStruct rank floor) RankedStruct.instance_ start fuel _ ih).2.state left

/-- The autotuner or routine that is started calls what ranks below `bound`. -/
def RankedStart (rank : Callee → Nat) (ctx : Context S) (rounds bound : Nat) : Start → Prop
  | .autotuner name _ => ∀ autotuner, findAutotuner ctx.loadedAutotuners name = some autotuner →
    RankedAutotuner rank rounds bound autotuner
  | .routine name _ => ∀ function, ctx.functions.lookup name = some function →
    RankedFunction rank ctx rounds bound function

/-- A ranked program ends, in one way for every fuel that its rank asks for. -/
theorem exists_outcome_of_ranked {rank : Callee → Nat} {floor rounds bound : Nat}
    (hctx : Ranked rank ctx rounds) {start : Start} (hstart : RankedStart rank ctx rounds bound start)
    {w : World S} (hw : RankedTypes rank floor w.types) :
    ∃ o, o ≠ .halt .outOfFuel ∧
      ∀ fuel, bound + rounds ≤ fuel → (start.run ctx fuel w).outcome = o := by
  have hstep : ∀ n, bound + rounds ≤ n →
      (below rank floor bound).Outlasts (start.run ctx n) (start.run ctx (n + 1)) := by
    refine fun n hn => start_outlasts (handlers_below hctx n bound hn) (Nat.le_succ n) ?_
    cases start with
    | autotuner name inputs =>
      refine rel_self fun autotuner hfound => ⟨?_, .refl autotuner⟩
      obtain ⟨hcalls, hdescends⟩ := hstart autotuner hfound
      exact .of_callees hcalls (.inr (Descends.mono hdescends (by omega)))
    | routine name inputs =>
      exact ⟨trivial, rel_self fun function hfound =>
        ⟨permits_below (hstart function hfound) (by omega), rfl⟩⟩
  obtain ⟨o, hends, -, hall⟩ :=
    Regime.exists_outcome (R := (below rank floor bound).regime) (fun h => h) hstep hw
  exact ⟨o, hends, hall⟩

/-- A routine without inputs. -/
def answer : RoutineDecl where
  name := "answer"
  inputParams := []
  outputParams := [{ type := .ofParamType .int, name := "out" }]
  body := [.assign {} [{ variableName := "out" }] (.literal {} (.int 42))]

/-- An autotuner with one transition and one call. -/
def measureDecl : AutotunerDecl where
  name := "measure"
  inputParams := []
  outputParams := [{ type := .ofParamType .int, name := "level" }]
  autotunerVariables := []
  entryState := "first"
  entryParameters := []
  states := [
    { name := "first"
      body := [.assign {} [{ variableName := "level" }] (.call {} "answer" []),
        .transition {} "second" []] },
    { name := "second", body := [.terminal {}] }]

def measureContext : Context Unit where
  functions := {
    functions := (StdMap.assign ∅ "answer" (.inlineRoutine "answer")).assign "measure"
      (.autotuner "measure") }
  loadedAutotuners := StdMap.assign ∅ "measure" measureDecl
  routineDeclarations := StdMap.assign ∅ "answer" answer
  host := Host.unlinked

def measureRank : Callee → Nat
  | .function name => if name = "measure" ∨ stripModulePrefix name = "measure" then 1 else 0
  | .method _ => 0

theorem ranked_measure : RankedAutotuner measureRank 2 1 measureDecl := by
  refine ⟨fun c hc => ?_, fun name => if name = "first" then 1 else 0, by decide, by decide⟩
  rw [List.mem_singleton.mp (show c ∈ [Callee.function "answer"] from hc)]
  decide

theorem ranked_measureContext : Ranked measureRank measureContext 2 := by
  intro name function hresolves
  have hfound : ∀ name' : String, measureContext.functions.lookup name' = some function →
      (name' = "measure" ∧ function = .autotuner "measure") ∨ function = .inlineRoutine "answer" := by
    intro name' hlookup
    change ((StdMap.assign ∅ "answer" (ExternalFunction.inlineRoutine "answer")).assign "measure"
      (.autotuner "measure"))[name']? = some function at hlookup
    rw [StdMap.getElem?_assign, StdMap.getElem?_assign] at hlookup
    split at hlookup
    · rename_i heq
      cases hlookup
      exact .inl ⟨heq.symm, rfl⟩
    · split at hlookup
      · cases hlookup
        exact .inr rfl
      · cases hlookup
  have hcases : ((name = "measure" ∨ stripModulePrefix name = "measure") ∧
      function = .autotuner "measure") ∨ function = .inlineRoutine "answer" := by
    obtain h | h := hresolves
    · exact (hfound _ h).imp_left fun ⟨hname, hfunction⟩ => ⟨.inl hname, hfunction⟩
    · exact (hfound _ h).imp_left fun ⟨hname, hfunction⟩ => ⟨.inr hname, hfunction⟩
  obtain ⟨hname, rfl⟩ | rfl := hcases
  · have hrank : measureRank (.function name) = 1 := if_pos hname
    intro autotuner hautotuner
    rw [hrank]
    cases hautotuner
    exact ranked_measure
  · intro decl hdecl
    cases hdecl
    exact fun c hc => absurd hc List.not_mem_nil

end FalconLib.Dsl.Termination
