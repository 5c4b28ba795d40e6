import FalconLib.Dsl.FuelCalls
import FalconLib.Dsl.Isolation
import FalconLib.Dsl.StateMachine

/-!
# Bodies in two programs

Statements, routines of structs and of modules, and autotuners. The second program may have other
states where the first never gets, and more fuel; a state machine stops for lack of fuel only if its
states do not descend.
-/

namespace FalconLib.Dsl.FuelRuns

open FalconLib.Base
open CallOrder
open Regime (Outlasts)
open VariableFrame (blockStmts)

variable {S : Type} {α β : Type} {A : Allowance}

/-! ## Statements -/

section Statements

open StmtExecutor

theorem write_steady (vars : Variables) (map : ParameterMap) :
    A.Steady (vars.write map : M S Variables) := by
  cases vars with
  | member =>
    exact Outlasts.bind (p := fun _ => True) (Outlasts.modify fun _ h => h) fun _ _ =>
      Outlasts.pure trivial
  | own old => exact Outlasts.pure trivial

theorem assignVariable_steady (vars : Variables) (name : String) (value : RuntimeValue) :
    A.Steady (assignVariable vars name value : M S Variables) :=
  Outlasts.gets_bind fun _ => write_steady vars _

theorem defaultInitial_steady (stmt : VarDeclStmt) : A.Steady (defaultInitial stmt : M S _) := by
  unfold defaultInitial
  split
  iterate 5 exact Outlasts.pure trivial
  · exact (makeStruct_steady _).bind fun _ _ => Outlasts.pure trivial
  · exact (makeStruct_steady _).bind fun _ _ => Outlasts.pure trivial
  · exact evaluationError_steady _

theorem structVariable_steady (vars : Variables) (name undefinedMessage : String)
    (notStruct : Exception) :
    A.Steady (structVariable vars name undefinedMessage notStruct : M S Nat) := by
  refine Outlasts.gets_bind fun map => ?_
  split
  · exact evaluationError_steady _
  · refine (structAt_steady _).bind fun found _ => ?_
    split
    · exact Outlasts.pure trivial
    · exact evaluationError_steady _
  · exact Outlasts.throw _

theorem tupleValue_steady (id i : Nat) : A.Steady (tupleValue id i : M S _) := by
  refine Outlasts.gets_bind fun heap => ?_
  split
  · exact Outlasts.pure trivial
  · exact Outlasts.undefined

theorem assignSingle_steady (vars : Variables) (target : AssignTarget) (value : RuntimeValue) :
    A.Steady (assignSingle vars target value : M S Variables) := by
  unfold assignSingle
  split
  · split
    · exact (structVariable_steady _ _ _ _).bind fun _ _ =>
        (setField_steady _ _ _).bind fun _ _ => Outlasts.pure trivial
    · exact evaluationError_steady _
  · exact assignVariable_steady _ _ _

theorem syncFlatCopy_steady (vars : Variables) (name : String) (value : RuntimeValue) :
    A.Steady (syncFlatCopy vars name value : M S Variables) := by
  refine Outlasts.gets_bind fun map => ?_
  split
  · exact write_steady vars _
  · exact Outlasts.pure trivial

variable {ctx ctx' : Context S}

theorem executeWithContext_outlasts (hsources : ctx'.sources = ctx.sources) (location : Location)
    {m m' : M S α} {p : α → Prop} (hm : A.Outlasts m m' p) :
    A.Outlasts (executeWithContext ctx location m) (executeWithContext ctx' location m') p := by
  unfold executeWithContext
  rw [hsources]
  exact hm.tryCatch fun _ => Outlasts.throw _

theorem goOn_outlasts {m m' : M S Variables} (hm : A.Outlasts m m') :
    A.Outlasts (goOn m) (goOn m') := hm.bind fun _ _ => Outlasts.pure trivial

variable {h h' : Handlers S} (hh : HandlersOutlast A ctx ctx' h h')
include hh

/-- An expression that need not be there. -/
theorem option_outlasts {vars : Variables} {e? : Option Expr}
    (hc : ∀ c ∈ optionCallees e?, A.Callee c) {e : Expr} (he : e? = some e) :
    A.Outlasts (ExprEvaluator.evaluate ctx h vars e) (ExprEvaluator.evaluate ctx' h' vars e) := by
  subst he
  exact evaluate_outlasts hh vars e hc

theorem execVarDecl_outlasts (vars : Variables) {stmt : VarDeclStmt}
    (hc : ∀ c ∈ optionCallees stmt.initializer, A.Callee c) :
    A.Outlasts (execVarDecl ctx h vars stmt) (execVarDecl ctx' h' vars stmt) := by
  refine Outlasts.bind (p := fun _ => True) ?_ fun value _ => assignVariable_steady vars _ value
  unfold initialValue
  split
  · rename_i e he
    rw [he] at hc
    unfold markedInitializer
    split
    · exact evaluate_outlasts hh vars _ ((callees_setInferredType _ e).symm ▸ hc)
    · exact evaluate_outlasts hh vars e hc
  · exact defaultInitial_steady stmt

theorem assignTupleTarget_outlasts (id i : Nat) {target : AssignTarget}
    (hc : ∀ c ∈ optionCallees target.object, A.Callee c) (vars : Variables) :
    A.Outlasts (assignTupleTarget ctx h id i target vars)
      (assignTupleTarget ctx' h' id i target vars) := by
  unfold assignTupleTarget
  split
  · split
    · rename_i object hobject
      refine Outlasts.bind (p := fun _ => True) ?_ fun _ _ => Outlasts.pure trivial
      refine (option_outlasts hh hc hobject).bind fun value _ => ?_
      split
      · split
        · exact (structVariable_steady _ _ _ _).bind fun _ _ =>
            (tupleValue_steady id i).bind fun _ _ => setField_steady _ _ _
        · exact evaluationError_steady _
      · exact evaluationError_steady _
    · exact Outlasts.undefined
  · exact (tupleValue_steady id i).bind fun value _ => assignVariable_steady vars _ value

theorem assignTupleTargets_outlasts (id : Nat) {targets : List AssignTarget}
    (hc : ∀ c ∈ targetCallees targets, A.Callee c) (i : Nat) (vars : Variables) :
    A.Outlasts (assignTupleTargets ctx h id targets i vars)
      (assignTupleTargets ctx' h' id targets i vars) := by
  induction targets generalizing i vars with
  | nil => exact Outlasts.pure trivial
  | cons target targets ih =>
    obtain ⟨hfirst, hrest⟩ := List.forall_mem_append.mp hc
    exact (assignTupleTarget_outlasts hh id i hfirst vars).bind fun vars _ => ih hrest _ vars

theorem execAssign_outlasts (vars : Variables) {targets : List AssignTarget} {value : Expr}
    (hvalue : ∀ c ∈ callees value, A.Callee c)
    (htargets : ∀ c ∈ targetCallees targets, A.Callee c) :
    A.Outlasts (execAssign ctx h vars targets value) (execAssign ctx' h' vars targets value) := by
  refine (evaluate_outlasts hh vars value hvalue).bind fun value _ => ?_
  split
  · exact Outlasts.undefined
  · exact assignSingle_steady _ _ _
  · refine Outlasts.gets_bind fun heap => ?_
    split
    · split
      · exact evaluationError_steady _
      · split
        · exact assignTupleTargets_outlasts hh _ htargets 0 vars
        · exact evaluationError_steady _
    · exact evaluationError_steady _

theorem execStructFieldAssign_outlasts (vars : Variables) (object : Expr) (name : String)
    {value : Expr} (hvalue : ∀ c ∈ callees value, A.Callee c) :
    A.Outlasts (execStructFieldAssign ctx h vars object name value)
      (execStructFieldAssign ctx' h' vars object name value) := by
  refine (evaluate_outlasts hh vars value hvalue).bind fun value _ => ?_
  split
  · exact (structVariable_steady _ _ _ _).bind fun _ _ =>
      (setField_steady _ _ _).bind fun _ _ => syncFlatCopy_steady vars _ _
  · exact evaluationError_steady _

set_option linter.unusedSectionVars false in
mutual

theorem execute_outlasts (vars : Variables) : ∀ stmt : Stmt,
    (∀ c ∈ stmtCallees stmt, A.Callee c) →
    A.Outlasts (execute ctx h vars stmt) (execute ctx' h' vars stmt)
  | .varDecl _, hc => executeWithContext_outlasts hh.sources _ (goOn_outlasts (execVarDecl_outlasts hh vars hc))
  | .assign _ targets value, hc => by
    obtain ⟨hvalue, htargets⟩ := List.forall_mem_append.mp hc
    exact executeWithContext_outlasts hh.sources _
      (goOn_outlasts (execAssign_outlasts hh vars hvalue htargets))
  | .structFieldAssign _ object name _, hc =>
    executeWithContext_outlasts hh.sources _
      (goOn_outlasts (execStructFieldAssign_outlasts hh vars object name hc))
  | .expr _ expression, hc =>
    executeWithContext_outlasts hh.sources _ <|
      (evaluate_outlasts hh vars expression hc).bind fun _ _ => Outlasts.pure trivial
  | .ifStmt _ condition thenBody elseBody, hc => by
    obtain ⟨hcondition, hbodies⟩ := List.forall_mem_append.mp hc
    obtain ⟨hthen, helse⟩ := List.forall_mem_append.mp hbodies
    refine executeWithContext_outlasts hh.sources _ ?_
    refine (evaluate_outlasts hh vars condition hcondition).bind fun value _ => ?_
    split
    · exact executeBlock_outlasts vars thenBody hthen
    · exact executeBlock_outlasts vars elseBody helse
    · exact evaluationError_steady _
  | .transition _ _ parameters, hc =>
    executeWithContext_outlasts hh.sources _ <|
      (evaluateList_outlasts hh vars parameters hc).bind fun _ _ => Outlasts.pure trivial
  | .terminal _, _ => executeWithContext_outlasts hh.sources _ (Outlasts.pure trivial)

theorem executeBlock_outlasts (vars : Variables) : ∀ stmts : List Stmt,
    (∀ c ∈ blockCallees stmts, A.Callee c) →
    A.Outlasts (executeBlock ctx h vars stmts) (executeBlock ctx' h' vars stmts)
  | [], _ => Outlasts.pure trivial
  | stmt :: stmts, hc => by
    obtain ⟨hfirst, hrest⟩ := List.forall_mem_append.mp hc
    refine (execute_outlasts vars stmt hfirst).bind fun result _ => ?_
    obtain ⟨flow, vars⟩ := result
    cases flow with
    | none => exact executeBlock_outlasts vars stmts hrest
    | transition targetState parameters => exact Outlasts.pure trivial
    | terminal => exact Outlasts.pure trivial

end

end Statements

/-! ## Routines of structs -/

section StructRoutines

open StructRoutine

theorem syncFromReceiver_steady (receiver : Nat) (fields : List VarDeclStmt) (env : ParameterMap) :
    A.Steady (syncFromReceiver receiver fields env : M S _) := by
  induction fields generalizing env with
  | nil => exact Outlasts.pure trivial
  | cons field fields ih =>
    refine Outlasts.gets_bind fun found => ?_
    split
    · exact ih _
    · exact ih _

theorem writeBack_steady (receiver : Nat) (env : ParameterMap) (fields : List VarDeclStmt) :
    A.Steady (writeBack receiver env fields : M S Unit) := by
  induction fields with
  | nil => exact Outlasts.pure trivial
  | cons field fields ih =>
    unfold writeBack
    split
    · exact (setField_steady _ _ _).bind fun _ _ => ih
    · exact ih

theorem collectOutputs_steady (routineName : String) (env : ParameterMap) (outs : List ParamDecl) :
    A.Steady (collectOutputs routineName env outs : M S _) := by
  induction outs with
  | nil => exact Outlasts.pure trivial
  | cons out outs ih =>
    unfold collectOutputs
    split
    · exact ih.bind fun _ _ => Outlasts.pure trivial
    · exact evaluationError_steady _

theorem finish_steady (receiver : Nat) (decl : StructDecl) (routine : RoutineDecl)
    (env : ParameterMap) : A.Steady (finish receiver decl routine env : M S _) :=
  (syncFromReceiver_steady receiver _ env).bind fun env _ =>
    (writeBack_steady receiver env _).bind fun _ _ => collectOutputs_steady _ env _

variable {ctx ctx' : Context S}

theorem execForeign_outlasts (hhost : ctx'.host = ctx.host) (receiver : Nat) (decl : StructDecl)
    (routine : RoutineDecl) (callArgs : List RuntimeValue) :
    A.Outlasts (execForeign ctx receiver decl routine callArgs)
      (execForeign ctx' receiver decl routine callArgs) := by
  unfold execForeign
  rw [hhost]
  refine (ffiMethodOrBase_steady _ _).bind fun found _ => ?_
  split
  · exact (structAt_steady _).bind fun object _ => runHost_steady _
  · exact evaluationError_steady _

variable {h h' : Handlers S} (hh : HandlersOutlast A ctx ctx' h h')
include hh

theorem declaredValue_outlasts (env : ParameterMap) {field : VarDeclStmt}
    (hc : ∀ c ∈ optionCallees field.initializer, A.Callee c) :
    A.Outlasts (declaredValue ctx h env field) (declaredValue ctx' h' env field) := by
  unfold declaredValue
  split
  · rename_i e he
    exact option_outlasts hh hc he
  · exact Outlasts.pure trivial

theorem flattenFields_outlasts (receiver : Nat) {fields : List VarDeclStmt}
    (hc : ∀ c ∈ fieldCallees fields, A.Callee c) (env : ParameterMap) :
    A.Outlasts (flattenFields ctx h receiver fields env)
      (flattenFields ctx' h' receiver fields env) := by
  induction fields generalizing env with
  | nil => exact Outlasts.pure trivial
  | cons field fields ih =>
    obtain ⟨hfirst, hrest⟩ := List.forall_mem_append.mp hc
    refine Outlasts.bind (p := fun _ => True) ?_ fun value _ => ih hrest _
    refine Outlasts.gets_bind fun found => ?_
    split
    · exact Outlasts.pure trivial
    · exact declaredValue_outlasts hh env hfirst

theorem bindInputs_outlasts (routineName : String) {params : List ParamDecl}
    (hc : ∀ c ∈ paramCallees params, A.Callee c) (values : List RuntimeValue) (env : ParameterMap) :
    A.Outlasts (bindInputs ctx h routineName params values env)
      (bindInputs ctx' h' routineName params values env) := by
  induction params generalizing values env with
  | nil => exact Outlasts.pure trivial
  | cons param params ih =>
    obtain ⟨hfirst, hrest⟩ := List.forall_mem_append.mp hc
    cases values with
    | cons value values => exact ih hrest values _
    | nil =>
      unfold bindInputs
      split
      · rename_i e he
        exact (option_outlasts hh hfirst he).bind fun _ _ => ih hrest [] _
      · exact evaluationError_steady _

theorem initialiseFields_outlasts (env : ParameterMap) (fresh : Nat) {fields : List VarDeclStmt}
    (hc : ∀ c ∈ fieldCallees fields, A.Callee c) :
    A.Outlasts (initialiseFields ctx h env fresh fields)
      (initialiseFields ctx' h' env fresh fields) := by
  induction fields with
  | nil => exact Outlasts.pure trivial
  | cons field fields ih =>
    obtain ⟨hfirst, hrest⟩ := List.forall_mem_append.mp hc
    exact (declaredValue_outlasts hh env hfirst).bind fun value _ =>
      (setField_steady _ _ _).bind fun _ _ => ih hrest

/-- An output may be of any struct. -/
theorem freshOutput_outlasts (hfresh : ∀ decl, A.Struct decl →
      ∀ c ∈ fieldCallees decl.fields, A.Callee c) (env : ParameterMap) (structName : String) :
    A.Outlasts (freshOutput ctx h env structName) (freshOutput ctx' h' env structName) := by
  refine (makeStruct_steady _).bind fun fresh _ => ?_
  refine (lookupStruct_steady _).bind fun found hfound => ?_
  split
  · exact (initialiseFields_outlasts hh env fresh (hfresh _ (hfound _ rfl))).bind fun _ _ =>
      Outlasts.pure trivial
  · exact Outlasts.pure trivial

theorem routineOutputs_outlasts (hfresh : ∀ decl, A.Struct decl →
      ∀ c ∈ fieldCallees decl.fields, A.Callee c) {outs : List ParamDecl}
    (hc : ∀ c ∈ paramCallees outs, A.Callee c) (env : ParameterMap) :
    A.Outlasts (initialiseOutputs ctx h outs env) (initialiseOutputs ctx' h' outs env) := by
  induction outs generalizing env with
  | nil => exact Outlasts.pure trivial
  | cons out outs ih =>
    obtain ⟨hfirst, hrest⟩ := List.forall_mem_append.mp hc
    unfold initialiseOutputs
    split
    · exact (freshOutput_outlasts hh hfresh env _).bind fun _ _ => ih hrest _
    · split
      · rename_i e he
        exact (option_outlasts hh hfirst he).bind fun _ _ => ih hrest _
      · exact ih hrest env

theorem execStructRoutine_outlasts (receiver : Nat) {decl : StructDecl} {routine : RoutineDecl}
    (hcalls : ∀ c ∈ routineCallees routine, A.Callee c)
    (hfields : ∀ c ∈ fieldCallees decl.fields, A.Callee c)
    (hfresh : routine.body ≠ [] → ∀ decl, A.Struct decl →
      ∀ c ∈ fieldCallees decl.fields, A.Callee c) (callArgs : List RuntimeValue) :
    A.Outlasts (execStructRoutine ctx h receiver decl routine callArgs)
      (execStructRoutine ctx' h' receiver decl routine callArgs) := by
  obtain ⟨hparams, hbody⟩ := List.forall_mem_append.mp hcalls
  obtain ⟨hinputs, houtputs⟩ := List.forall_mem_append.mp hparams
  unfold execStructRoutine
  split
  · exact execForeign_outlasts hh.host receiver decl routine callArgs
  · rename_i hempty
    have hne : routine.body ≠ [] := fun heq => hempty (by rw [heq]; rfl)
    have henv : A.Outlasts (routineEnvironment ctx h receiver decl routine callArgs)
        (routineEnvironment ctx' h' receiver decl routine callArgs) :=
      (flattenFields_outlasts hh receiver hfields _).bind fun env _ =>
        (bindInputs_outlasts hh _ hinputs callArgs env).bind fun env _ =>
          routineOutputs_outlasts hh (hfresh hne) houtputs env
    exact henv.bind fun env _ => (executeBlock_outlasts hh (.own env) _ hbody).bind
      fun result _ => finish_steady receiver decl routine _

end StructRoutines

/-! ## Autotuners -/

section Autotuners

open Interpreter

theorem getVariables_steady : A.Steady (getVariables : M S ParameterMap) :=
  Outlasts.gets fun _ _ => trivial

theorem setVariables_steady (map : ParameterMap) : A.Steady (setVariables map : M S Unit) :=
  Outlasts.modify fun _ h => h

theorem setVariable_steady (name : String) (value : RuntimeValue) :
    A.Steady (setVariable name value : M S Unit) :=
  getVariables_steady.bind fun _ _ => setVariables_steady _

theorem checkArity_steady (state : StateDecl) (inputParams : List RuntimeValue) :
    A.Steady (checkArity state inputParams : M S Unit) := by
  unfold checkArity
  split
  · exact evaluationError_steady _
  · split
    · exact evaluationError_steady _
    · exact Outlasts.pure trivial

theorem extractOutputs_steady (outs : List ParamDecl) :
    A.Steady (extractOutputs outs : M S _) := by
  induction outs with
  | nil => exact Outlasts.pure trivial
  | cons out outs ih =>
    refine getVariables_steady.bind fun map _ => ?_
    split
    · exact ih.bind fun _ _ => Outlasts.pure trivial
    · exact evaluationError_steady _

variable {ctx ctx' : Context S}

/-- A state hands over to one of the targets of its body. -/
theorem executeState_targets {h : Handlers S} {state : StateDecl} {args values : List RuntimeValue}
    {w w' : World S} {target : String}
    (ho : (executeState ctx h state args w).outcome = .ok (.transition target values) w') :
    target ∈ targets state.body := by
  obtain ⟨entered, _, _, ho⟩ := Comp.bind_eq_ok ho
  obtain ⟨_, _, _, ho⟩ := Comp.bind_eq_ok ho
  obtain ⟨_, _, _, ho⟩ := Comp.bind_eq_ok ho
  obtain ⟨⟨flow, vars⟩, t, hblock, ho⟩ := Comp.bind_eq_ok ho
  obtain ⟨left, _, _, ho⟩ := Comp.bind_eq_ok ho
  obtain ⟨_, _, _, ho⟩ := Comp.bind_eq_ok ho
  cases ho
  obtain ⟨location, exprs, _, hmem, -⟩ := StateMachine.executeBlock_transition ctx h state.body hblock
  exact List.mem_filterMap.mpr ⟨_, hmem, rfl⟩

variable {h h' : Handlers S} (hh : HandlersOutlast A ctx ctx' h h')
include hh

theorem initializeVariables_outlasts {stmts : List Stmt}
    (hc : ∀ c ∈ blockCallees stmts, A.Callee c) :
    A.Outlasts (initializeVariables ctx h stmts) (initializeVariables ctx' h' stmts) := by
  induction stmts with
  | nil => exact Outlasts.pure trivial
  | cons stmt stmts ih =>
    obtain ⟨hfirst, hrest⟩ := List.forall_mem_append.mp hc
    exact (execute_outlasts hh .member stmt hfirst).bind fun _ _ => ih hrest

theorem setInputParameters_outlasts (inputs : ParameterMap) {params : List ParamDecl}
    (hc : ∀ c ∈ paramCallees params, A.Callee c) :
    A.Outlasts (setInputParameters ctx h inputs params)
      (setInputParameters ctx' h' inputs params) := by
  induction params with
  | nil => exact Outlasts.pure trivial
  | cons param params ih =>
    obtain ⟨hfirst, hrest⟩ := List.forall_mem_append.mp hc
    refine Outlasts.bind (p := fun _ => True) ?_ fun value _ =>
      (setVariable_steady _ value).bind fun _ _ => ih hrest
    unfold inputValue
    split
    · exact Outlasts.pure trivial
    · split
      · rename_i e he
        exact option_outlasts hh hfirst he
      · exact evaluationError_steady _

theorem initialiseOutput_outlasts {out : ParamDecl}
    (hc : ∀ c ∈ optionCallees out.defaultValue, A.Callee c) :
    A.Outlasts (initialiseOutput ctx h out) (initialiseOutput ctx' h' out) := by
  refine getVariables_steady.bind fun map _ => ?_
  split
  · exact Outlasts.pure trivial
  · refine Outlasts.bind (p := fun _ => True) ?_ fun value _ => setVariable_steady _ value
    unfold initialOutput
    split
    · rename_i e he
      exact option_outlasts hh hc he
    · exact Outlasts.pure trivial

theorem autotunerOutputs_outlasts {outs : List ParamDecl}
    (hc : ∀ c ∈ paramCallees outs, A.Callee c) :
    A.Outlasts (initialiseOutputs ctx h outs) (initialiseOutputs ctx' h' outs) := by
  induction outs with
  | nil => exact Outlasts.pure trivial
  | cons out outs ih =>
    obtain ⟨hfirst, hrest⟩ := List.forall_mem_append.mp hc
    exact (initialiseOutput_outlasts hh hfirst).bind fun _ _ => ih hrest

theorem bindStateParameters_outlasts (stateName : String) {params : List ParamDecl}
    (hc : ∀ c ∈ paramCallees params, A.Callee c) (arguments : List RuntimeValue) (position : Nat) :
    A.Outlasts (bindStateParameters ctx h stateName params arguments position)
      (bindStateParameters ctx' h' stateName params arguments position) := by
  induction params generalizing arguments position with
  | nil => exact Outlasts.pure trivial
  | cons param params ih =>
    obtain ⟨hfirst, hrest⟩ := List.forall_mem_append.mp hc
    refine Outlasts.bind (p := fun _ => True) ?_ fun value _ =>
      (setVariable_steady _ value).bind fun _ _ => ih hrest _ _
    unfold stateParameter
    split
    · exact Outlasts.pure trivial
    · split
      · rename_i e he
        exact option_outlasts hh hfirst he
      · exact evaluationError_steady _

theorem executeState_outlasts {state : StateDecl} (hc : ∀ c ∈ stateCallees state, A.Callee c)
    (inputParams : List RuntimeValue) :
    A.Outlasts (executeState ctx h state inputParams) (executeState ctx' h' state inputParams)
      fun flow => ∀ target values, flow = .transition target values →
        target ∈ targets state.body := by
  obtain ⟨hparams, hbody⟩ := List.forall_mem_append.mp hc
  refine Outlasts.of_ok (p := fun _ => True) ?_ fun w flow w' ho target values heq => ?_
  · exact getVariables_steady.bind fun _ _ => (checkArity_steady state inputParams).bind fun _ _ =>
      (bindStateParameters_outlasts hh _ hparams _ _).bind fun _ _ =>
        (executeBlock_outlasts hh .member _ hbody).bind fun _ _ =>
          getVariables_steady.bind fun _ _ =>
            (setVariables_steady _).bind fun _ _ => Outlasts.pure trivial
  · subst heq
    exact executeState_targets ho

/-- With states that descend from less than `rounds` there are enough rounds. -/
theorem stateLoop_outlasts {autotuner autotuner' : AutotunerDecl}
    (hsame : SameMachine autotuner autotuner')
    (hc : ∀ name state, Entered autotuner name → findState autotuner name = some state →
      ∀ c ∈ stateCallees state, A.Callee c)
    {order : String → Nat} (horder : A.MayStop ∨ ∀ state ∈ autotuner.states,
      ∀ target ∈ targets state.body, order target < order state.name)
    {rounds rounds' : Nat} (hle : rounds ≤ rounds') {currentState : String}
    (hentered : Entered autotuner currentState)
    (hrounds : A.MayStop ∨ order currentState < rounds) (stateParams : List RuntimeValue) :
    A.Outlasts (stateLoop ctx h autotuner rounds currentState stateParams)
      (stateLoop ctx' h' autotuner' rounds' currentState stateParams) := by
  induction rounds generalizing rounds' currentState stateParams with
  | zero => exact Outlasts.stop (hrounds.resolve_right (Nat.not_lt_zero _)) _
  | succ rounds ih =>
    obtain ⟨rounds', rfl⟩ : ∃ n, rounds' = n + 1 := ⟨rounds' - 1, by omega⟩
    unfold stateLoop
    rw [hsame.states _ hentered]
    split
    · exact evaluationError_steady _
    · rename_i state hstate
      have hmem := List.mem_of_find?_eq_some hstate
      have hname : state.name = currentState := by
        have hfound := List.find?_some hstate
        exact beq_iff_eq.mp hfound
      refine (executeState_outlasts hh (hc _ state hentered hstate) _).bind fun flow hflow => ?_
      split
      · exact Outlasts.pure trivial
      · rename_i target values
        have hleads := hflow target values rfl
        refine ih (by omega) (.transition hentered hstate hleads) ?_ values
        obtain hstop | hdescends := horder
        · exact .inl hstop
        · refine hrounds.imp_right fun hlt => ?_
          have hdown := hdescends state hmem target hleads
          rw [hname] at hdown
          omega
      · exact evaluationError_steady _

/-- What a run of the autotuner may call, and how it may end. -/
structure RunPermitted (A : Allowance) (rounds : Nat) (autotuner : AutotunerDecl) : Prop where
  prepare : ∀ c ∈ prepareCallees autotuner, A.Callee c
  states : ∀ name state, Entered autotuner name → findState autotuner name = some state →
    ∀ c ∈ stateCallees state, A.Callee c
  rounds : A.MayStop ∨ Descends rounds autotuner

omit hh in
theorem RunPermitted.of_callees {autotuner : AutotunerDecl} {rounds : Nat}
    (hc : ∀ c ∈ autotunerCallees autotuner, A.Callee c)
    (hrounds : A.MayStop ∨ Descends rounds autotuner) : RunPermitted A rounds autotuner := by
  obtain ⟨hprepare, hstates⟩ := List.forall_mem_append.mp hc
  refine ⟨hprepare, fun name state _ hfound c hcallee => hstates c ?_, hrounds⟩
  exact List.mem_flatMap.mpr ⟨state, List.mem_of_find?_eq_some hfound, hcallee⟩

theorem run_outlasts {autotuner autotuner' : AutotunerDecl} {rounds rounds' : Nat}
    (hpermitted : RunPermitted A rounds autotuner) (hsame : SameMachine autotuner autotuner')
    (hle : rounds ≤ rounds') (inputs : ParameterMap) :
    A.Outlasts (run ctx h rounds autotuner inputs) (run ctx' h' rounds' autotuner' inputs) := by
  obtain ⟨hprepare, hstates, hrounds⟩ := hpermitted
  obtain ⟨hprepare, hentry⟩ := List.forall_mem_append.mp hprepare
  obtain ⟨hprepare, houtputs⟩ := List.forall_mem_append.mp hprepare
  obtain ⟨hvariables, hinputs⟩ := List.forall_mem_append.mp hprepare
  have hloop : ∀ args, A.Outlasts (stateLoop ctx h autotuner rounds autotuner.entryState args)
      (stateLoop ctx' h' autotuner' rounds' autotuner.entryState args) := by
    intro args
    obtain ⟨order, horder, hentry⟩ : ∃ order : String → Nat,
        (A.MayStop ∨ ∀ state ∈ autotuner.states, ∀ target ∈ targets state.body,
          order target < order state.name) ∧ (A.MayStop ∨ order autotuner.entryState < rounds) := by
      obtain hstop | ⟨order, hentry, hdescends⟩ := hrounds
      · exact ⟨fun _ => 0, .inl hstop, .inl hstop⟩
      · exact ⟨order, .inr hdescends, .inr hentry⟩
    exact stateLoop_outlasts hh hsame hstates horder hle .entry hentry args
  unfold run runFresh prepare
  rw [hsame.inputParams, hsame.outputParams, hsame.autotunerVariables, hsame.entryState,
    hsame.entryParameters]
  refine getVariables_steady.bind fun saved _ => (setVariables_steady _).bind fun _ _ => ?_
  refine Outlasts.tryCatch ?_ fun _ => (setVariables_steady _).bind fun _ _ => Outlasts.throw _
  refine Outlasts.bind (p := fun _ => True) ?_ fun result _ =>
    (setVariables_steady _).bind fun _ _ => Outlasts.pure trivial
  refine Outlasts.bind (p := fun _ => True) ?_ fun args _ =>
    (hloop args).bind fun _ _ => extractOutputs_steady _
  exact (initializeVariables_outlasts hh hvariables).bind fun _ _ =>
    (setInputParameters_outlasts hh inputs hinputs).bind fun _ _ =>
      (autotunerOutputs_outlasts hh houtputs).bind fun _ _ =>
        evaluateList_outlasts hh .member _ hentry

/-! ## Registered functions -/

omit hh in
theorem collectRoutineOutputs_steady (qname : String) (env : ParameterMap) (outs : List ParamDecl) :
    A.Steady (collectRoutineOutputs qname env outs : M S _) := by
  induction outs with
  | nil => exact Outlasts.pure trivial
  | cons out outs ih =>
    unfold collectRoutineOutputs
    split
    · exact ih.bind fun _ _ => Outlasts.pure trivial
    · exact Outlasts.throw _

omit hh in
theorem errorBuiltin_steady (isFatal : Bool) (params : ParameterMap) :
    A.Steady (errorBuiltin isFatal params : M S _) := by
  unfold errorBuiltin
  split
  · exact Outlasts.throw _
  · exact Outlasts.pure trivial
  · exact Outlasts.throw _

/-- What the body of a function may do with so many rounds, and that the second program has it too. -/
def Permits (A : Allowance) (ctx ctx' : Context S) (rounds : Nat) : ExternalFunction → Prop
  | .autotuner qname => Option.Rel
      (fun autotuner autotuner' => RunPermitted A rounds autotuner ∧ SameMachine autotuner autotuner')
      ctx.loadedAutotuners[qname]? ctx'.loadedAutotuners[qname]?
  | .inlineRoutine qname => ctx'.routineDeclarations[qname]? = ctx.routineDeclarations[qname]? ∧
    ∀ decl, ctx.routineDeclarations[qname]? = some decl → ∀ c ∈ blockCallees decl.body, A.Callee c
  | .errorMsg | .fatalErrorMsg | .foreign _ => True

theorem callFunction_outlasts {rounds rounds' : Nat} {function : ExternalFunction}
    (hf : Permits A ctx ctx' rounds function) (hle : rounds ≤ rounds') (params : ParameterMap) :
    A.Outlasts (callFunction ctx h rounds function params)
      (callFunction ctx' h' rounds' function params) := by
  cases function with
  | errorMsg => exact errorBuiltin_steady false params
  | fatalErrorMsg => exact errorBuiltin_steady true params
  | autotuner qname =>
    refine (Outlasts.ask trivial).bind fun _ _ => ?_
    have hfound : Option.Rel (fun a a' => RunPermitted A rounds a ∧ SameMachine a a')
        ctx.loadedAutotuners[qname]? ctx'.loadedAutotuners[qname]? := hf
    generalize ctx.loadedAutotuners[qname]? = found, ctx'.loadedAutotuners[qname]? = found'
      at hfound ⊢
    cases hfound with
    | none => exact Outlasts.throw _
    | some h => exact run_outlasts hh h.1 h.2 hle params
  | inlineRoutine qname =>
    refine (Outlasts.ask trivial).bind fun _ _ => ?_
    obtain ⟨hsame, hc⟩ := hf
    rw [hsame]
    cases hfound : ctx.routineDeclarations[qname]? with
    | none => exact Outlasts.throw _
    | some decl =>
      exact (executeBlock_outlasts hh _ _ (hc decl hfound)).bind fun _ _ =>
        collectRoutineOutputs_steady qname _ _
  | foreign symbol =>
    change A.Outlasts (runHost (ctx.host.call symbol params)) (runHost (ctx'.host.call symbol params))
    rw [hh.host]
    exact runHost_steady _

end Autotuners

/-! ## Runs of the host -/

section Starts

open AutotunerEngine Interpreter
open Isolation (Start)

variable {ctx ctx' : Context S}

/-- What a start runs may be run, and the second program has it too. -/
def Admits (A : Allowance) (ctx ctx' : Context S) (rounds : Nat) : Start → Prop
  | .autotuner name _ => Option.Rel
      (fun autotuner autotuner' => RunPermitted A rounds autotuner ∧ SameMachine autotuner autotuner')
      (findAutotuner ctx.loadedAutotuners name) (findAutotuner ctx'.loadedAutotuners name)
  | .routine name _ => A.Name name ∧ Option.Rel
      (fun function function' => Permits A ctx ctx' rounds function ∧ function' = function)
      (ctx.functions.lookup name) (ctx'.functions.lookup name)

theorem rel_self {R : α → α → Prop} {o : Option α} (h : ∀ a, o = some a → R a a) :
    Option.Rel R o o := by
  cases o with
  | none => exact .none
  | some a => exact .some (h a rfl)

theorem start_outlasts {fuel fuel' : Nat}
    (hh : HandlersOutlast A ctx ctx' (handlers ctx fuel) (handlers ctx' fuel')) (hle : fuel ≤ fuel')
    {start : Start} (hstart : Admits A ctx ctx' fuel start) :
    A.Outlasts (start.run ctx fuel) (start.run ctx' fuel') := by
  cases start with
  | autotuner name inputs =>
    refine (Outlasts.ask trivial).bind fun _ _ => ?_
    have hfound : Option.Rel (fun a a' => RunPermitted A fuel a ∧ SameMachine a a')
        (findAutotuner ctx.loadedAutotuners name) (findAutotuner ctx'.loadedAutotuners name) := hstart
    generalize findAutotuner ctx.loadedAutotuners name = found,
      findAutotuner ctx'.loadedAutotuners name = found' at hfound ⊢
    cases hfound with
    | none => exact Outlasts.throw _
    | some h => exact run_outlasts hh h.1 h.2 hle inputs
  | routine name inputs =>
    refine (Outlasts.ask hstart.1).bind fun _ _ => ?_
    have hfound : Option.Rel (fun f f' => Permits A ctx ctx' fuel f ∧ f' = f)
        (ctx.functions.lookup name) (ctx'.functions.lookup name) := hstart.2
    generalize ctx.functions.lookup name = found, ctx'.functions.lookup name = found' at hfound ⊢
    cases hfound with
    | none => exact Outlasts.throw _
    | some h =>
      obtain ⟨hpermits, rfl⟩ := h
      exact callFunction_outlasts hh hpermits hle inputs

end Starts

end FalconLib.Dsl.FuelRuns
