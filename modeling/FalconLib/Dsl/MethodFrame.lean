import FalconLib.Dsl.GuardedCalls
import FalconLib.Dsl.StateMachine

/-!
# The frame of a method call

Fields, parameters, outputs and locals of a routine share one map, and at the end the map is
written to the receiver by name. Where the receiver has a field its own value comes first; where it
does not, whatever the name stands for becomes the field.
-/

namespace FalconLib.Dsl.MethodFrame

open FalconLib.Base
open VariableFrame OwnFrame GuardedRuns StateMachine StructRoutine

variable {S : Type} {id : Nat} {field : String}

/-! ## The map has the field -/

section Bound

variable {n : String} (ctx : Context S) (h : Handlers S)

theorem flattenFields_bound (receiver : Nat) {fields : List VarDeclStmt} {env : ParameterMap}
    (hn : Bound env n ∨ n ∈ fields.map VarDeclStmt.name) :
    Keeps Anything (flattenFields ctx h receiver fields env) (Bound · n) := by
  induction fields generalizing env with
  | nil => exact Keeps.pure (hn.resolve_right List.not_mem_nil)
  | cons decl fields ih =>
    refine bind_anything fun value => ih ?_
    by_cases hname : decl.name = n
    · left
      unfold Bound
      rw [hname, StdMap.getElem?_assign_self]
      rfl
    · refine hn.imp (fun hb => bound_assign hb _ _) fun hmem => ?_
      exact (List.mem_cons.mp hmem).resolve_left (Ne.symm hname)

theorem bindInputs_bound (name : String) {params : List ParamDecl} {args : List RuntimeValue}
    {env : ParameterMap} (hn : Bound env n) :
    Keeps Anything (bindInputs ctx h name params args env) (Bound · n) := by
  induction params generalizing args env with
  | nil => exact Keeps.pure hn
  | cons param params ih =>
    cases args with
    | cons value args => exact ih (bound_assign hn _ _)
    | nil =>
      unfold bindInputs
      split
      · exact bind_anything fun value => ih (bound_assign hn _ _)
      · exact Keeps.throw _

theorem initialiseOutputs_bound {outs : List ParamDecl} {env : ParameterMap} (hn : Bound env n) :
    Keeps Anything (initialiseOutputs ctx h outs env) (Bound · n) := by
  induction outs generalizing env with
  | nil => exact Keeps.pure hn
  | cons out outs ih =>
    unfold initialiseOutputs
    split
    · exact bind_anything fun value => ih (bound_assign hn _ _)
    · split
      · exact bind_anything fun value => ih (bound_assign hn _ _)
      · exact ih hn

/-- The body starts on a map with all fields, and never loses one. -/
theorem routineEnvironment_bound (receiver : Nat) {decl : StructDecl} (routine : RoutineDecl)
    (args : List RuntimeValue) (hn : n ∈ decl.fields.map VarDeclStmt.name) :
    Keeps Anything (routineEnvironment ctx h receiver decl routine args) (Bound · n) :=
  Keeps.bind (flattenFields_bound ctx h receiver (Or.inr hn)) fun _ hflat =>
    Keeps.bind (bindInputs_bound ctx h _ hflat) fun _ hbound =>
      initialiseOutputs_bound ctx h hbound

end Bound

theorem syncFromReceiver_bound {n : String} (receiver : Nat) (fields : List VarDeclStmt)
    {env : ParameterMap} (hn : Bound env n) (w : World S) :
    ∃ env', (syncFromReceiver receiver fields env w).outcome = .ok env' w ∧ Bound env' n := by
  induction fields generalizing env with
  | nil => exact ⟨env, rfl, hn⟩
  | cons decl fields ih =>
    unfold syncFromReceiver fieldOf
    rw [Comp.outcome_gets_bind]
    cases w.heap.field? receiver decl.name with
    | none => exact ih hn
    | some value => exact ih (bound_assign hn _ _)

/-- Whatever the name stands for in the map becomes the field. -/
theorem writeBack_present {receiver : Nat} {env : ParameterMap} {fields : List VarDeclStmt}
    {w w' : World S} {u : Unit} (hlive : receiver < w.heap.structs.length) (hn : Bound env field)
    (hpresent : (w.heap.field? receiver field).isSome ∨ field ∈ fields.map VarDeclStmt.name)
    (ho : (writeBack receiver env fields w).outcome = .ok u w') :
    (w'.heap.field? receiver field).isSome := by
  induction fields generalizing w with
  | nil =>
    cases ho
    exact hpresent.resolve_right List.not_mem_nil
  | cons decl fields ih =>
    unfold writeBack at ho
    cases hvalue : env[decl.name]? with
    | none =>
      rw [hvalue] at ho
      refine ih hlive (hpresent.imp_right fun hmem => ?_) ho
      refine (List.mem_cons.mp hmem).resolve_left fun hname => ?_
      unfold Bound at hn
      rw [hname, hvalue] at hn
      cases hn
    | some value =>
      rw [hvalue] at ho
      have hlive' : receiver < (w.heap.setField receiver decl.name value).structs.length := by
        change receiver < (w.heap.structs.modify receiver _).length
        rwa [List.length_modify]
      refine ih (w := { w with heap := w.heap.setField receiver decl.name value }) hlive' ?_ ho
      rw [Heap.field?_setField _ _ _ _ _ _ hlive]
      by_cases hname : decl.name = field
      · left
        rw [if_pos ⟨rfl, hname⟩]
        rfl
      · rw [if_neg fun h => hname h.2]
        exact hpresent.imp_right fun hmem => (List.mem_cons.mp hmem).resolve_left (Ne.symm hname)

/-! ## The frame -/

/-- Neither the routine nor a routine that it calls assigns the field: the call returns under the
guard too. -/
def Spares (ctx : Context S) (fuel receiver : Nat) (decl : StructDecl) (routine : RoutineDecl)
    (args : List RuntimeValue) (field : String) (w : World S) : Prop :=
  ∃ outputs w', ((guarded ctx receiver [field] fuel).execStructRoutine receiver decl routine args
    w).outcome = .ok outputs w'

theorem field?_eq_of_slot {heap heap' : Heap} (h : slot id [field] heap' = slot id [field] heap) :
    heap'.field? id field = heap.field? id field := by
  have hread : ∀ heap : Heap,
      heap.field? id field = (slot id [field] heap).bind fun values => values.head?.join := by
    intro heap
    unfold Heap.field? slot
    cases heap.structs[id]? <;> rfl
  rw [hread, hread, h]

/-- A foreign routine that spares the field has no map to write back. -/
theorem execForeign_frame {ctx : Context S} {decl : StructDecl} {routine : RoutineDecl}
    {args : List RuntimeValue} {w w' : World S} {outputs : FunctionResult}
    (ho : (execForeign (guardedContext ctx id [field]) id decl routine args w).outcome =
      .ok outputs w') : w'.heap.field? id field = w.heap.field? id field := by
  have hfollows : Follows (fun heap => slot id [field] heap = slot id [field] w.heap)
      (execForeign (guardedContext ctx id [field]) id decl routine args)
      (execForeign ctx id decl routine args) := by
    refine Follows.bind (ffiMethodOrBase_follows _ _) fun found _ => ?_
    split
    · exact Follows.bind (Follows.gets _) fun object _ =>
        runHost_follows (fun _ _ h hslot => hslot.trans h) _
    · exact Follows.throw _ _
  exact field?_eq_of_slot (hfollows w outputs w' rfl ho).2.1

/-- After a routine with a body the receiver has every field of its struct. -/
theorem returned_present {ctx : Context S} {g h : Handlers S} {before : String → Option RuntimeValue}
    (hg : HandlersTrack id [field] before g h) {decl : StructDecl} {routine : RoutineDecl}
    {args : List RuntimeValue} {w w' : World S} {outputs : FunctionResult}
    (hw : Held id [field] before w.heap) (hfield : field ∈ decl.fields.map VarDeclStmt.name)
    (hassigns : bodyAssigns [field] routine.body = false) (hbody : routine.body.isEmpty = false)
    (ho : (execStructRoutine (guardedContext ctx id [field]) g id decl routine args w).outcome =
      .ok outputs w') : (w'.heap.field? id field).isSome := by
  unfold execStructRoutine at ho
  rw [hbody] at ho
  obtain ⟨env, w₁, henv, ho⟩ := Comp.bind_eq_ok ho
  obtain ⟨⟨flow, vars⟩, w₂, hblock, ho⟩ := Comp.bind_eq_ok ho
  have hbound := ((routineEnvironment_bound (guardedContext ctx id [field]) g id routine args
    hfield).returns w env w₁ trivial henv).2
  have hw₁ := (routineEnvironment_tracks hg id decl routine args w env w₁ hw henv).2.1
  have hw₂ := (executeBlock_tracks hg (.own env) _ (not_assigns hassigns) w₁ _ w₂ hw₁ hblock).2.1
  obtain ⟨left, rfl, hleft⟩ := ((executeBlock_own (stable_bound field (fun _ => True) fun _ => True)
    (guardedContext ctx id [field]) g routine.body ⟨env, rfl, hbound⟩ fun s _ =>
      writesWithin_all s).returns w₁ _ w₂ trivial hblock).2
  obtain ⟨synced, hsync, hsynced⟩ := syncFromReceiver_bound id decl.fields hleft w₂
  change ((syncFromReceiver id decl.fields left >>= fun env => _) w₂).outcome = _ at ho
  rw [Comp.bind_of_ok hsync] at ho
  obtain ⟨u, w₃, hwrite, ho⟩ := Comp.bind_eq_ok ho
  have hpresent := writeBack_present hw₂.live hsynced (Or.inr hfield) hwrite
  exact (collectOutputs_follows (P := fun heap => (heap.field? id field).isSome) _ _ _ w₃ outputs w'
    hpresent ho).2.1

/-- A call that spares a field leaves it as it was exactly where the receiver had it, or the routine
has no body. -/
theorem methodFrame_iff (ctx : Context S) (fuel receiver : Nat) (decl : StructDecl)
    (routine : RoutineDecl) (args : List RuntimeValue) (field : String) (w w' : World S)
    (outputs : FunctionResult) (hlive : receiver < w.heap.structs.length)
    (hfield : field ∈ decl.fields.map VarDeclStmt.name)
    (hspares : Spares ctx fuel receiver decl routine args field w)
    (hcall : ((Interpreter.handlers ctx fuel).execStructRoutine receiver decl routine args
      w).outcome = .ok outputs w') :
    w'.heap.field? receiver field = w.heap.field? receiver field ↔
      routine.body.isEmpty = true ∨ (w.heap.field? receiver field).isSome = true := by
  obtain ⟨result, w'', hguarded⟩ := hspares
  have hw : Held receiver [field] (w.heap.field? receiver) w.heap := ⟨hlive, fun _ _ _ h => h⟩
  have htrack := guarded_track ctx receiver [field] (w.heap.field? receiver) fuel
  obtain ⟨hplain, hkept, -⟩ :=
    htrack.execStructRoutine receiver decl routine args w result w'' hw hguarded
  obtain rfl : w'' = w' := by
    rw [hplain] at hcall
    cases hcall
    rfl
  cases fuel with
  | zero => cases hcall
  | succ fuel =>
    have hinner := guarded_track ctx receiver [field] (w.heap.field? receiver) fuel
    change ((if bodyAssigns [field] routine.body then Comp.halt .undefinedBehaviour
      else execStructRoutine _ _ _ _ _ _ : M S _) w).outcome = _ at hguarded
    split at hguarded
    · cases hguarded
    · rename_i hassigns
      constructor
      · intro hsame
        by_cases hbody : routine.body.isEmpty = true
        · exact Or.inl hbody
        · right
          rw [← hsame]
          exact returned_present hinner hw hfield (Bool.eq_false_iff.mpr hassigns)
            (Bool.eq_false_iff.mpr hbody) hguarded
      · rintro (hbody | hpresent)
        · unfold execStructRoutine at hguarded
          rw [hbody] at hguarded
          exact execForeign_frame hguarded
        · obtain ⟨value, hvalue⟩ := Option.isSome_iff_exists.mp hpresent
          rw [hkept.value field (List.mem_singleton_self field) value hvalue, hvalue]

/-! ## A counter -/

def counter : StructDecl where
  name := "Counter"
  fields := [{ type := .ofParamType .int, name := "n" }]
  routines := []

/-- `routine Shadow(int n) -> () { int x = n; }` -/
def shadow : RoutineDecl where
  name := "Shadow"
  inputParams := [{ type := .ofParamType .int, name := "n" }]
  outputParams := []
  body := [.varDecl { type := .ofParamType .int, name := "x", initializer := some (.var {} "n") }]

/-- One object with these fields. -/
def single (fields : ParameterMap) : World Unit where
  heap := { structs := [{ typeName := "Counter", fields := fields }] }
  store := ()

def unlinked : Context Unit := { host := Host.unlinked }

def constructed : World Unit := single (StdMap.assign ∅ "n" (.int 1))

/-- As `Counter c;` leaves it. -/
def declared : World Unit := single ∅

theorem methodFrame_iff_constructed : ∃ w',
    ((Interpreter.handlers unlinked 1).execStructRoutine 0 counter shadow [.int 7]
      constructed).outcome = .ok [] w' ∧
    (w'.heap.field? 0 "n" = constructed.heap.field? 0 "n" ↔
      shadow.body.isEmpty = true ∨ (constructed.heap.field? 0 "n").isSome = true) :=
  ⟨_, rfl, methodFrame_iff unlinked 1 0 counter shadow [.int 7] "n" constructed _ [] (by decide)
    (by decide) ⟨[], _, rfl⟩ rfl⟩

/-- The argument of the call becomes the field of the same name. -/
theorem not_methodFrame_declared : Spares unlinked 1 0 counter shadow [.int 7] "n" declared ∧
    ∃ w', ((Interpreter.handlers unlinked 1).execStructRoutine 0 counter shadow [.int 7]
      declared).outcome = .ok [] w' ∧
    declared.heap.field? 0 "n" = none ∧ w'.heap.field? 0 "n" = some (.int 7) :=
  ⟨⟨[], _, rfl⟩, _, rfl, rfl, rfl⟩

end FalconLib.Dsl.MethodFrame
