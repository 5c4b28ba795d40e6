import FalconLib.Dsl.OwnFrame
import FalconLib.Dsl.StateScope

/-!
# Input parameters keep the values they are called with

Where no statement of a body assigns or declares an input parameter, and nothing else shares
its name, the parameter has its value after every statement of every run.
-/

namespace FalconLib.Dsl.ReadOnlyInputs

open FalconLib.Base
open Interpreter VariableFrame StateMachine StateScope OwnFrame

variable {S : Type}

def names (params : List ParamDecl) : List String := params.map (·.name)

def declaredName : Stmt → Option String
  | .varDecl stmt => some stmt.name
  | _ => none

/-- The variables that a body declares, at any depth and in the order of the text. -/
def declaredNames (stmts : List Stmt) : List String := (blockStmts stmts).filterMap declaredName

/-! ## What the scope checks promise -/

/-- No statement assigns a read-only name or declares a name that is in scope. -/
structure CleanBody (readOnly scope : List String) (stmts : List Stmt) : Prop where
  assigned : ∀ s ∈ blockStmts stmts, ∀ n, Assigns n s → n ∉ readOnly
  fresh : ∀ n ∈ declaredNames stmts, n ∉ scope
  once : (declaredNames stmts).Nodup

structure CleanAutotuner (autotuner : AutotunerDecl) : Prop where
  varDecls : CleanBody (names autotuner.inputParams)
    (names autotuner.inputParams ++ names autotuner.outputParams) autotuner.autotunerVariables
  states : ∀ state ∈ autotuner.states,
    CleanBody (names autotuner.inputParams ++ names state.inputParameters)
      (names autotuner.inputParams ++ names autotuner.outputParams ++
        declaredNames autotuner.autotunerVariables ++ names state.inputParameters) state.body

def CleanRoutine (routine : RoutineDecl) : Prop :=
  CleanBody (names routine.inputParams) (names routine.inputParams ++ names routine.outputParams)
    routine.body

structure CleanProgram (program : Program) : Prop where
  autotuners : ∀ autotuner ∈ program.autotuners, CleanAutotuner autotuner
  routines : ∀ routine ∈ program.routines, CleanRoutine routine
  structRoutines : ∀ decl ∈ program.structs, ∀ routine ∈ decl.routines, CleanRoutine routine

/-! ## What they do not see -/

/-- The parameters of a state have names of their own, and no field is assigned that is called
like an input parameter. -/
structure ApartAutotuner (autotuner : AutotunerDecl) : Prop where
  distinct : ∀ state ∈ autotuner.states, (names state.inputParameters).Nodup
  apart : ∀ state ∈ autotuner.states,
    List.Disjoint (names state.inputParameters) (names autotuner.inputParams)
  fields : ∀ state ∈ autotuner.states, ∀ s ∈ blockStmts state.body, ∀ n, AssignsField n s →
    n ∉ names autotuner.inputParams ++ names state.inputParameters

structure ApartRoutine (routine : RoutineDecl) : Prop where
  distinct : (names routine.inputParams ++ names routine.outputParams).Nodup
  fields : ∀ s ∈ blockStmts routine.body, ∀ n, AssignsField n s → n ∉ names routine.inputParams

structure ApartProgram (program : Program) : Prop where
  autotuners : ∀ autotuner ∈ program.autotuners, ApartAutotuner autotuner
  routines : ∀ routine ∈ program.routines, ApartRoutine routine
  structRoutines : ∀ decl ∈ program.structs, ∀ routine ∈ decl.routines, ApartRoutine routine

/-! ## Runs -/

/-- The values of the inputs of the autotuner and of the parameters of the state are those
passed, in every state of every run, after any number of statements. -/
def AutotunerKeeps (ctx : Context S) (fuel : Nat) (autotuner : AutotunerDecl) : Prop :=
  ∀ inputs w₀ name args w, Enters ctx fuel autotuner inputs w₀ name args w →
    ∀ state bound, findState autotuner name = some state →
      (bindStateParameters ctx (handlers ctx fuel) state.name state.inputParameters args 0
        w).outcome = .ok () bound →
    ∀ done flow left, done <+: state.body →
      (StmtExecutor.executeBlock ctx (handlers ctx fuel) .member done bound).outcome =
        .ok (flow, .member) left →
      (∀ param ∈ autotuner.inputParams, ∀ value, inputs[param.name]? = some value →
        left.memberVariables[param.name]? = some value) ∧
      ∀ (i : Nat) param value, state.inputParameters[i]? = some param → args[i]? = some value →
        left.memberVariables[param.name]? = some value

/-- The same for the map of a call of an inline routine. -/
def RoutineKeeps (ctx : Context S) (fuel : Nat) (routine : RoutineDecl) : Prop :=
  ∀ inputs env, env = routineOutputs routine.outputParams
      (routineInputs inputs routine.inputParams ∅) →
    ∀ done flow vars w w', done <+: routine.body →
      (StmtExecutor.executeBlock ctx (handlers ctx fuel) (.own env) done w).outcome =
        .ok (flow, vars) w' →
      ∀ param ∈ routine.inputParams, ∀ value, inputs[param.name]? = some value →
        (StructRoutine.ownMap vars env)[param.name]? = some value

/-- The same for the map of a call of a struct routine. -/
def StructRoutineKeeps (ctx : Context S) (fuel : Nat) (decl : StructDecl)
    (routine : RoutineDecl) : Prop :=
  ∀ receiver callArgs w env w₁,
    (StructRoutine.routineEnvironment ctx (handlers ctx fuel) receiver decl routine callArgs
      w).outcome = .ok env w₁ →
    ∀ done flow vars w', done <+: routine.body →
      (StmtExecutor.executeBlock ctx (handlers ctx fuel) (.own env) done w₁).outcome =
        .ok (flow, vars) w' →
      ∀ (i : Nat) param value, routine.inputParams[i]? = some param → callArgs[i]? = some value →
        (StructRoutine.ownMap vars env)[param.name]? = some value

structure ProgramKeeps (ctx : Context S) (fuel : Nat) (program : Program) : Prop where
  autotuners : ∀ autotuner ∈ program.autotuners, AutotunerKeeps ctx fuel autotuner
  routines : ∀ routine ∈ program.routines, RoutineKeeps ctx fuel routine
  structRoutines : ∀ decl ∈ program.structs, ∀ routine ∈ decl.routines,
    StructRoutineKeeps ctx fuel decl routine

/-! ## Bodies -/

theorem mem_names {params : List ParamDecl} {n : String} :
    n ∈ names params ↔ ∃ param ∈ params, param.name = n := List.mem_map

theorem mem_declaredNames {stmts : List Stmt} {n : String} :
    n ∈ declaredNames stmts ↔ ∃ s ∈ blockStmts stmts, Declares n s := by
  unfold declaredNames
  rw [List.mem_filterMap]
  refine exists_congr fun s => and_congr_right fun _ => ?_
  cases s with
  | varDecl stmt => exact Option.some_inj
  | _ => exact iff_of_false (Option.some_ne_none n).symm id

theorem blockStmts_append (first second : List Stmt) :
    blockStmts (first ++ second) = blockStmts first ++ blockStmts second := by
  induction first with
  | nil => rfl
  | cons stmt first ih =>
      rw [List.cons_append, blockStmts, blockStmts, ih, List.append_assoc]

theorem blockStmts_subset {done body : List Stmt} (h : done <+: body) :
    blockStmts done ⊆ blockStmts body := by
  obtain ⟨rest, rfl⟩ := h
  rw [blockStmts_append]
  exact List.subset_append_left _ _

/-- A clean body writes no read-only name, as long as it assigns no field called like it. -/
theorem CleanBody.writesWithin {readOnly scope : List String} {body : List Stmt}
    (h : CleanBody readOnly scope body) {n : String} (hr : n ∈ readOnly) (hs : n ∈ scope)
    (hf : ∀ s ∈ blockStmts body, ¬AssignsField n s) {s : Stmt} (hm : s ∈ blockStmts body) :
    WritesWithin (· ≠ n) (· ≠ n) s := by
  refine ⟨?_, ?_, ?_⟩
  · rintro m hd rfl
    exact h.fresh m (mem_declaredNames.mpr ⟨s, hm, hd⟩) hs
  · rintro m ha rfl
    exact h.assigned s hm m ha hr
  · rintro m hd rfl
    exact hf s hm hd

/-! ## Autotuners -/

section Autotuners

variable (ctx : Context S) (fuel : Nat)

theorem setInputParameters_value (inputs : ParameterMap) (params : List ParamDecl)
    {w w' : World S} {u : Unit} {n : String} {value : RuntimeValue}
    (ho : (setInputParameters ctx (handlers ctx fuel) inputs params w).outcome = .ok u w')
    (hn : n ∈ names params) (hv : inputs[n]? = some value) :
    w'.memberVariables[n]? = some value := by
  induction params generalizing w with
  | nil => exact absurd hn List.not_mem_nil
  | cons first params ih =>
      obtain ⟨found, t, hfound, ho⟩ := Comp.bind_eq_ok ho
      obtain ⟨_, t', hset, hrest⟩ := Comp.bind_eq_ok ho
      by_cases hlater : n ∈ names params
      · exact ih hrest hlater
      · obtain rfl : n = first.name := (List.mem_cons.mp hn).resolve_right hlater
        have hvalue : t'.memberVariables[first.name]? = some value := by
          unfold inputValue at hfound
          rw [hv] at hfound
          cases hfound
          rw [setVariable_ok hset, StdMap.getElem?_assign_self]
        have hkeeps := setInputParameters_keeps (P := fun map => map[first.name]? = some value)
          ctx fuel inputs params fun param hp map _ hm => by
            have hne : param.name ≠ first.name := fun he =>
              hlater (mem_names.mpr ⟨param, hp, he⟩)
            rw [StdMap.getElem?_assign_ne _ _ hne]
            exact hm
        exact (hkeeps.returns t' u w' hvalue hrest).1

theorem initialiseOutputs_value (outs : List ParamDecl) (n : String) (value : RuntimeValue) :
    Keeps (fun map => map[n]? = some value)
      (Interpreter.initialiseOutputs ctx (handlers ctx fuel) outs) := by
  induction outs with
  | nil => exact Keeps.pure trivial
  | cons out outs ih =>
      refine Keeps.bind (q := fun _ => True) ?_ fun _ _ => ih
      refine Keeps.gets_bind fun map hm => ?_
      cases hout : map[out.name]? with
      | some _ => exact Keeps.pure trivial
      | none =>
          have hne : out.name ≠ n := by
            rintro rfl
            rw [hm] at hout
            cases hout
          refine Keeps.bind (initialOutput_keeps ctx fuel out) fun found _ => ?_
          refine setVariable_keeps fun map hm => ?_
          exact (StdMap.getElem?_assign_ne map found hne).trans hm

/-- Before the first state every input has its value. -/
theorem prepare_value {autotuner : AutotunerDecl} {inputs : ParameterMap} {w w' : World S}
    {args : List RuntimeValue} {n : String} {value : RuntimeValue}
    (ho : (prepare ctx (handlers ctx fuel) autotuner inputs w).outcome = .ok args w')
    (hn : n ∈ names autotuner.inputParams) (hv : inputs[n]? = some value) :
    w'.memberVariables[n]? = some value := by
  obtain ⟨_, t₁, _, ho⟩ := Comp.bind_eq_ok ho
  obtain ⟨_, t₂, hinputs, ho⟩ := Comp.bind_eq_ok ho
  obtain ⟨_, t₃, houts, hargs⟩ := Comp.bind_eq_ok ho
  have h₂ := setInputParameters_value ctx fuel inputs _ hinputs hn hv
  have h₃ := ((initialiseOutputs_value ctx fuel _ n value).returns t₂ _ t₃ h₂ houts).1
  have hentry := evaluateList_keeps (P := fun map => map[n]? = some value) ctx fuel
    autotuner.entryParameters
  exact (hentry.returns t₃ args w' h₃ hargs).1

variable {ctx fuel} {autotuner : AutotunerDecl} {inputs : ParameterMap} {w₀ : World S}

theorem not_assignsField (ha : ApartAutotuner autotuner) {state : StateDecl}
    (hs : state ∈ autotuner.states) {n : String}
    (hn : n ∈ names autotuner.inputParams ++ names state.inputParameters) :
    ∀ s ∈ blockStmts state.body, ¬AssignsField n s :=
  fun s hm hf => ha.fields state hs s hm n hf hn

/-- No state changes an input. -/
theorem input_of_enters (hc : CleanAutotuner autotuner) (ha : ApartAutotuner autotuner)
    {name : String} {args : List RuntimeValue} {w : World S}
    (h : Enters ctx fuel autotuner inputs w₀ name args w) {n : String} {value : RuntimeValue}
    (hn : n ∈ names autotuner.inputParams) (hv : inputs[n]? = some value) :
    w.memberVariables[n]? = some value := by
  induction h with
  | start hp => exact prepare_value ctx fuel hp hn hv
  | transition _ hs he ih =>
      have hstate := List.mem_of_find?_eq_some hs
      have hbody := hc.states _ hstate
      have hbound := Option.isSome_of_mem ih
      rw [executeState_frame ctx fuel he hbound, ih]
      · rintro (⟨param, hp, rfl⟩ | ⟨s, hm, hd⟩)
        · exact ha.apart _ hstate (mem_names.mpr ⟨param, hp, rfl⟩) hn
        · exact hbody.fresh n (mem_declaredNames.mpr ⟨s, hm, hd⟩) (by simp [hn])
      · intro s hm hassign
        exact hbody.assigned s hm n hassign (List.mem_append_left _ hn)
      · exact not_assignsField ha hstate (List.mem_append_left _ hn)

theorem autotunerKeeps (hc : CleanAutotuner autotuner) (ha : ApartAutotuner autotuner) :
    AutotunerKeeps ctx fuel autotuner := by
  intro inputs w₀ name args w h state bound hs hbind done flow left hdone ho
  have hstate := List.mem_of_find?_eq_some hs
  have hbody := hc.states state hstate
  have hkept {n : String} {value : RuntimeValue}
      (hn : n ∈ names autotuner.inputParams ++ names state.inputParameters)
      (hvalue : bound.memberVariables[n]? = some value) :
      left.memberVariables[n]? = some value := by
    refine ((executeBlock_keeps (stable_value n (some value)) ctx fuel done fun s hm => ?_).returns
      bound _ left hvalue ho).1
    refine hbody.writesWithin hn ?_ (not_assignsField ha hstate hn) (blockStmts_subset hdone hm)
    rcases List.mem_append.mp hn with hinput | hparam
    · simp [hinput]
    · simp [hparam]
  constructor
  · intro param hp value hv
    have hn : param.name ∈ names autotuner.inputParams := mem_names.mpr ⟨param, hp, rfl⟩
    refine hkept (List.mem_append_left _ hn) ?_
    have hparams := bindStateParameters_keeps (P := fun map => map[param.name]? = some value)
      ctx fuel state.name state.inputParameters args 0 fun other ho map found hm => by
        have hne : other.name ≠ param.name := fun he =>
          ha.apart state hstate (mem_names.mpr ⟨other, ho, he⟩) hn
        exact (StdMap.getElem?_assign_ne map found hne).trans hm
    exact (hparams.returns w () bound (input_of_enters hc ha h hn hv) hbind).1
  · intro i param value hp hv
    have hn := mem_names.mpr ⟨param, List.mem_of_getElem? hp, rfl⟩
    refine hkept (List.mem_append_right _ hn) ?_
    exact bindStateParameters_value ctx fuel state.name state.inputParameters args 0
      (ha.distinct state hstate) hbind hp hv

end Autotuners

/-! ## Routines -/

theorem ApartRoutine.not_mem_outputs {routine : RoutineDecl} (ha : ApartRoutine routine)
    {n : String} (hn : n ∈ names routine.inputParams) : n ∉ names routine.outputParams :=
  fun ho => (List.nodup_append.mp ha.distinct).2.2 n hn n ho rfl

section Routines

variable {ctx : Context S} {fuel : Nat} {routine : RoutineDecl}

/-- A clean body leaves the inputs in the map of the call. -/
theorem own_kept (hc : CleanRoutine routine) (ha : ApartRoutine routine) {env : ParameterMap}
    {done : List Stmt} (hdone : done <+: routine.body) {n : String} {value : RuntimeValue}
    (hn : n ∈ names routine.inputParams) (hvalue : env[n]? = some value)
    {flow : ControlFlow} {vars : Variables} {w w' : World S}
    (ho : (StmtExecutor.executeBlock ctx (handlers ctx fuel) (.own env) done w).outcome =
      .ok (flow, vars) w') : (StructRoutine.ownMap vars env)[n]? = some value := by
  have hbody := executeBlock_own (stable_value n (some value)) ctx (handlers ctx fuel) done
    ⟨env, rfl, hvalue⟩ fun s hm => hc.writesWithin hn (List.mem_append_left _ hn)
      (fun s hm hf => ha.fields s hm n hf hn) (blockStmts_subset hdone hm)
  obtain ⟨left, hvars, hleft⟩ := (hbody.returns w _ w' trivial ho).2
  cases hvars
  exact hleft

theorem routineInputs_value (inputs : ParameterMap) (params : List ParamDecl) (env : ParameterMap)
    {n : String} {value : RuntimeValue} (hv : inputs[n]? = some value)
    (hn : n ∈ names params ∨ env[n]? = some value) :
    (routineInputs inputs params env)[n]? = some value := by
  induction params generalizing env with
  | nil => exact hn.resolve_left List.not_mem_nil
  | cons param params ih =>
      unfold routineInputs
      by_cases hname : param.name = n
      · rw [hname, hv]
        exact ih _ (.inr (StdMap.getElem?_assign_self _ _ _))
      · have hn := hn.imp_left fun h => (List.mem_cons.mp h).resolve_left (Ne.symm hname)
        cases inputs[param.name]? with
        | none => exact ih env hn
        | some other =>
            refine ih _ (hn.imp_right fun h => ?_)
            exact (StdMap.getElem?_assign_ne env other hname).trans h

theorem routineKeeps (hc : CleanRoutine routine) (ha : ApartRoutine routine) :
    RoutineKeeps ctx fuel routine := by
  rintro inputs env rfl done flow vars w w' hdone ho param hp value hv
  have hn := mem_names.mpr ⟨param, hp, rfl⟩
  refine own_kept hc ha hdone hn ?_ ho
  unfold routineOutputs
  rw [StdMap.getElem?_assignAll, routineInputs_value inputs _ ∅ hv (.inl hn)]
  cases hlast : StdMap.lastWrite param.name (routine.outputParams.map fun out =>
      (out.name, primitiveDefault out.type.baseType)) with
  | none => rfl
  | some other =>
      obtain ⟨out, hout, he⟩ := List.mem_map.mp (StdMap.mem_of_lastWrite hlast)
      have hname : out.name = param.name := congrArg Prod.fst he
      exact absurd (mem_names.mpr ⟨out, hout, hname⟩) (ha.not_mem_outputs hn)

/-- Binding parameters touches no other variable. -/
theorem bindInputs_other {name n : String} {params : List ParamDecl} {args : List RuntimeValue}
    {env env' : ParameterMap} {w w' : World S} (hn : n ∉ names params)
    (ho : (StructRoutine.bindInputs ctx (handlers ctx fuel) name params args env w).outcome =
      .ok env' w') : env'[n]? = env[n]? := by
  induction params generalizing args env w with
  | nil =>
      cases args <;> cases ho <;> rfl
  | cons param params ih =>
      obtain ⟨hfirst, hrest⟩ := not_or.mp (mt List.mem_cons.mpr hn)
      have hassign (value : RuntimeValue) : (env.assign param.name value)[n]? = env[n]? :=
        StdMap.getElem?_assign_ne env value (Ne.symm hfirst)
      cases args with
      | cons value args => exact (ih hrest ho).trans (hassign value)
      | nil =>
          cases hdefault : param.defaultValue with
          | none =>
              simp only [StructRoutine.bindInputs, hdefault] at ho
              cases ho
          | some default =>
              simp only [StructRoutine.bindInputs, hdefault] at ho
              obtain ⟨value, t, _, ho⟩ := Comp.bind_eq_ok ho
              exact (ih hrest ho).trans (hassign value)

/-- Parameters with different names take the arguments in order. -/
theorem bindInputs_value {name : String} {params : List ParamDecl} {args : List RuntimeValue}
    {env env' : ParameterMap} {w w' : World S} (hd : (names params).Nodup)
    (ho : (StructRoutine.bindInputs ctx (handlers ctx fuel) name params args env w).outcome =
      .ok env' w') {i : Nat} {param : ParamDecl} {value : RuntimeValue}
    (hp : params[i]? = some param) (hv : args[i]? = some value) :
    env'[param.name]? = some value := by
  induction params generalizing args env w i with
  | nil => cases hp
  | cons first params ih =>
      obtain ⟨hfirst, hrest⟩ := List.nodup_cons.mp hd
      cases args with
      | nil => cases hv
      | cons arg args =>
          cases i with
          | succ i => exact ih hrest ho hp hv
          | zero =>
              obtain rfl : first = param := Option.some.inj hp
              obtain rfl : arg = value := Option.some.inj hv
              rw [bindInputs_other hfirst ho, StdMap.getElem?_assign_self]

theorem initialiseOutputs_other {n : String} {outs : List ParamDecl} {env env' : ParameterMap}
    {w w' : World S} (hn : n ∉ names outs)
    (ho : (StructRoutine.initialiseOutputs ctx (handlers ctx fuel) outs env w).outcome =
      .ok env' w') : env'[n]? = env[n]? := by
  induction outs generalizing env w with
  | nil =>
      cases ho
      rfl
  | cons out outs ih =>
      obtain ⟨hfirst, hrest⟩ := not_or.mp (mt List.mem_cons.mpr hn)
      have hassign (value : RuntimeValue) : (env.assign out.name value)[n]? = env[n]? :=
        StdMap.getElem?_assign_ne env value (Ne.symm hfirst)
      by_cases hstruct : out.type.isStruct
      · simp only [StructRoutine.initialiseOutputs, hstruct, if_true] at ho
        obtain ⟨value, t, _, ho⟩ := Comp.bind_eq_ok ho
        exact (ih hrest ho).trans (hassign value)
      · cases hdefault : out.defaultValue with
        | none =>
            simp only [StructRoutine.initialiseOutputs, hstruct, hdefault] at ho
            exact ih hrest ho
        | some default =>
            simp only [StructRoutine.initialiseOutputs, hstruct, hdefault] at ho
            obtain ⟨value, t, _, ho⟩ := Comp.bind_eq_ok ho
            exact (ih hrest ho).trans (hassign value)

theorem structRoutineKeeps {decl : StructDecl} (hc : CleanRoutine routine)
    (ha : ApartRoutine routine) : StructRoutineKeeps ctx fuel decl routine := by
  intro receiver callArgs w env w₁ henv done flow vars w' hdone ho i param value hp hv
  have hn := mem_names.mpr ⟨param, List.mem_of_getElem? hp, rfl⟩
  refine own_kept hc ha hdone hn ?_ ho
  obtain ⟨fields, t, _, henv⟩ := Comp.bind_eq_ok henv
  obtain ⟨bound, t', hbound, houts⟩ := Comp.bind_eq_ok henv
  rw [initialiseOutputs_other (ha.not_mem_outputs hn) houts]
  exact bindInputs_value (List.nodup_append.mp ha.distinct).1 hbound hp hv

end Routines

/-- In every run of a program that the scope checks find clean, and in which names are apart, the
input parameters keep their values. -/
theorem programKeeps {program : Program} (hc : CleanProgram program) (ha : ApartProgram program)
    (ctx : Context S) (fuel : Nat) : ProgramKeeps ctx fuel program where
  autotuners _ hm := autotunerKeeps (hc.autotuners _ hm) (ha.autotuners _ hm)
  routines _ hm := routineKeeps (hc.routines _ hm) (ha.routines _ hm)
  structRoutines _ hd _ hm :=
    structRoutineKeeps (hc.structRoutines _ hd _ hm) (ha.structRoutines _ hd _ hm)

end FalconLib.Dsl.ReadOnlyInputs
