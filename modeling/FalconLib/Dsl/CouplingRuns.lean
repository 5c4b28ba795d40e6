import FalconLib.Dsl.Coupling

/-!
# Two runs side by side

The relation of `Coupling` carried through statements, struct routines, states and
whole runs. Statements need one map for both sides: an own map, or equal member maps.
-/

namespace FalconLib.Dsl.Coupling

open FalconLib.Base

variable {S : Type} {allowed : Query → Prop} {reach : Reach}
  {r : ParameterMap → ParameterMap → Prop}

/-- Both sides see the same map: one of their own, or equal member maps. -/
def OneMap (r : ParameterMap → ParameterMap → Prop) : Variables → Prop
  | .own _ => True
  | .member => r = Eq

theorem OneMap.own {map : ParameterMap} : OneMap r (.own map) := trivial

theorem OneMap.member : OneMap Eq .member := rfl

theorem OneMap.readAlike {vars : Variables} (h : OneMap r vars) :
    ReadAlike (S := S) r (fun _ => True) vars vars := by
  intro w₁ w₂ hr n _
  cases vars with
  | own map => rfl
  | member =>
    obtain rfl := h
    exact congrArg (fun map : ParameterMap => map[n]?) hr

theorem read_agree {vars : Variables} (h : OneMap r vars) :
    Alike (S := S) allowed reach r (Comp.gets vars.read) (Comp.gets vars.read) := by
  refine Agree.gets fun w₁ w₂ hl => ?_
  cases vars with
  | own map => rfl
  | member =>
    obtain rfl := h
    exact hl.maps

theorem write_agree {vars : Variables} (h : OneMap r vars) (map : ParameterMap) :
    Alike (S := S) allowed reach r (vars.write map) (vars.write map) (OneMap r) := by
  cases vars with
  | own _ => exact Agree.pure trivial
  | member =>
    obtain rfl := h
    exact Agree.bind (Agree.modify fun _ _ hl => ⟨rfl, hl.heap, hl.store, hl.types⟩) fun _ _ =>
      Agree.pure rfl

section Statements

open StmtExecutor

variable {ctx₁ ctx₂ : Context S} {h₁ h₂ : Handlers S}

theorem assignVariable_agree {vars : Variables} (hw : OneMap r vars) (name : String)
    (value : RuntimeValue) :
    Alike (S := S) allowed reach r (assignVariable vars name value)
      (assignVariable vars name value) (OneMap r) :=
  Agree.bind (read_agree hw) fun _ _ => write_agree hw _

theorem syncFlatCopy_agree {vars : Variables} (hw : OneMap r vars) (field : String)
    (value : RuntimeValue) :
    Alike (S := S) allowed reach r (syncFlatCopy vars field value)
      (syncFlatCopy vars field value) (OneMap r) := by
  refine Agree.bind (read_agree hw) fun map _ => ?_
  split
  · exact write_agree hw _
  · exact Agree.pure hw

theorem defaultInitial_agree (stmt : VarDeclStmt) :
    Alike (S := S) allowed reach r (defaultInitial stmt) (defaultInitial stmt) := by
  unfold defaultInitial
  split
  iterate 5 exact Agree.pure trivial
  · exact Agree.bind (makeStruct_agree _) fun _ _ => Agree.pure trivial
  · exact Agree.bind (makeStruct_agree _) fun _ _ => Agree.pure trivial
  · exact evaluationError_agree _

theorem structVariable_agree {vars : Variables} (hf : OneMap r vars)
    (name undefinedMessage : String) (notStruct : Exception) :
    Alike (S := S) allowed reach r (structVariable vars name undefinedMessage notStruct)
      (structVariable vars name undefinedMessage notStruct) := by
  refine Agree.bind (read_agree hf) fun map _ => ?_
  split
  · exact evaluationError_agree _
  · refine Agree.bind (structAt_agree _) fun found _ => ?_
    split
    · exact Agree.pure trivial
    · exact evaluationError_agree _
  · exact Agree.throw _

theorem tupleValue_agree (id i : Nat) :
    Alike (S := S) allowed reach r (tupleValue id i) (tupleValue id i) := by
  refine Agree.bind getHeap_agree fun heap _ => ?_
  split
  · exact Agree.pure trivial
  · exact Agree.halt _

theorem assignSingle_agree {vars : Variables} (hw : OneMap r vars) (target : AssignTarget)
    (value : RuntimeValue) :
    Alike (S := S) allowed reach r (assignSingle vars target value)
      (assignSingle vars target value) (OneMap r) := by
  unfold assignSingle
  split
  · split
    · exact Agree.bind (structVariable_agree hw _ _ _) fun _ _ =>
        Agree.bind (setField_agree _ _ _) fun _ _ => Agree.pure hw
    · exact evaluationError_agree _
  · exact assignVariable_agree hw _ _

variable (hh : HandlersAgree allowed reach h₁ h₂) (hc : ContextsAgree allowed ctx₁ ctx₂)
include hh hc

/-- An expression on one map. -/
theorem evaluate_framed {vars : Variables} (hf : OneMap r vars) (e : Expr) :
    Alike allowed reach r (ExprEvaluator.evaluate ctx₁ h₁ vars e)
      (ExprEvaluator.evaluate ctx₂ h₂ vars e) :=
  evaluate_agree hh (fun _ _ => trivial) hf.readAlike hc e fun _ _ =>
    Covers.of_all (fun _ => trivial) _

theorem evaluateList_framed {vars : Variables} (hf : OneMap r vars) (es : List Expr) :
    Alike allowed reach r (ExprEvaluator.evaluateList ctx₁ h₁ vars es)
      (ExprEvaluator.evaluateList ctx₂ h₂ vars es) :=
  evaluateList_agree hh (fun _ _ => trivial) hf.readAlike hc es fun _ _ =>
    Covers.of_all (fun _ => trivial) _

theorem initialValue_agree {vars : Variables} (hf : OneMap r vars) (stmt : VarDeclStmt) :
    Alike allowed reach r (initialValue ctx₁ h₁ vars stmt) (initialValue ctx₂ h₂ vars stmt) := by
  unfold initialValue
  split
  · exact evaluate_framed hh hc hf _
  · exact defaultInitial_agree _

theorem execVarDecl_agree {vars : Variables} (hw : OneMap r vars) (stmt : VarDeclStmt) :
    Alike allowed reach r (execVarDecl ctx₁ h₁ vars stmt) (execVarDecl ctx₂ h₂ vars stmt)
      (OneMap r) :=
  Agree.bind (initialValue_agree hh hc hw _) fun _ _ => assignVariable_agree hw _ _

theorem assignFieldTarget_agree {vars : Variables} (hf : OneMap r vars) (object : Expr)
    (fieldName : String) {value : M S RuntimeValue} (hv : Alike allowed reach r value value) :
    Alike allowed reach r (assignFieldTarget ctx₁ h₁ vars object fieldName value)
      (assignFieldTarget ctx₂ h₂ vars object fieldName value) := by
  refine Agree.bind (evaluate_framed hh hc hf _) fun v _ => ?_
  split
  · split
    · exact Agree.bind (structVariable_agree hf _ _ _) fun _ _ =>
        Agree.bind hv fun _ _ => setField_agree _ _ _
    · exact evaluationError_agree _
  · exact evaluationError_agree _

theorem assignTupleTarget_agree {vars : Variables} (hw : OneMap r vars) (id i : Nat)
    (target : AssignTarget) :
    Alike allowed reach r (assignTupleTarget ctx₁ h₁ id i target vars)
      (assignTupleTarget ctx₂ h₂ id i target vars) (OneMap r) := by
  unfold assignTupleTarget
  split
  · split
    · exact Agree.bind (assignFieldTarget_agree hh hc hw _ _ (tupleValue_agree _ _))
        fun _ _ => Agree.pure hw
    · exact Agree.halt _
  · exact Agree.bind (tupleValue_agree _ _) fun _ _ => assignVariable_agree hw _ _

theorem assignTupleTargets_agree (id : Nat) : ∀ (targets : List AssignTarget) (i : Nat)
    (vars : Variables), OneMap r vars →
    Alike allowed reach r (assignTupleTargets ctx₁ h₁ id targets i vars)
      (assignTupleTargets ctx₂ h₂ id targets i vars) (OneMap r)
  | [], _, _, hw => Agree.pure hw
  | target :: targets, i, _, hw =>
    Agree.bind (assignTupleTarget_agree hh hc hw id i target) fun vars hw =>
      assignTupleTargets_agree id targets (i + 1) vars hw

theorem assignTuple_agree {vars : Variables} (hw : OneMap r vars)
    (targets : List AssignTarget) (value : RuntimeValue) :
    Alike allowed reach r (assignTuple ctx₁ h₁ vars targets value)
      (assignTuple ctx₂ h₂ vars targets value) (OneMap r) := by
  refine Agree.bind getHeap_agree fun heap _ => ?_
  split
  · split
    · exact evaluationError_agree _
    · split
      · exact assignTupleTargets_agree hh hc _ _ _ _ hw
      · exact evaluationError_agree _
  · exact evaluationError_agree _

theorem execAssign_agree {vars : Variables} (hw : OneMap r vars)
    (targets : List AssignTarget) (value : Expr) :
    Alike allowed reach r (execAssign ctx₁ h₁ vars targets value)
      (execAssign ctx₂ h₂ vars targets value) (OneMap r) := by
  refine Agree.bind (evaluate_framed hh hc hw _) fun v _ => ?_
  split
  · exact Agree.halt _
  · exact assignSingle_agree hw _ _
  · exact assignTuple_agree hh hc hw _ _

theorem execStructFieldAssign_agree {vars : Variables} (hw : OneMap r vars) (object : Expr)
    (field : String) (value : Expr) :
    Alike allowed reach r (execStructFieldAssign ctx₁ h₁ vars object field value)
      (execStructFieldAssign ctx₂ h₂ vars object field value) (OneMap r) := by
  refine Agree.bind (evaluate_framed hh hc hw _) fun v _ => ?_
  split
  · exact Agree.bind (structVariable_agree hw _ _ _) fun _ _ =>
      Agree.bind (setField_agree _ _ _) fun _ _ => syncFlatCopy_agree hw _ _
  · exact evaluationError_agree _

omit hh in
theorem executeWithContext_agree {α : Type} {p : α → Prop} (location : Location)
    {m₁ m₂ : M S α} (h : Alike allowed reach r m₁ m₂ p) :
    Alike allowed reach r (executeWithContext ctx₁ location m₁)
      (executeWithContext ctx₂ location m₂) p := by
  unfold executeWithContext
  rw [hc.sources]
  exact Agree.tryCatch h fun _ => Agree.throw _

/-- What the statement leaves is again a map that both sides share. -/
abbrev Leaves (r : ParameterMap → ParameterMap → Prop) (result : ControlFlow × Variables) : Prop :=
  OneMap r result.2

omit hh hc in
theorem goOn_agree {m₁ m₂ : M S Variables} (h : Alike allowed reach r m₁ m₂ (OneMap r)) :
    Alike allowed reach r (goOn m₁) (goOn m₂) (Leaves r) :=
  Agree.bind h fun _ hw => Agree.pure hw

set_option linter.unusedSectionVars false in
mutual

theorem execute_agree : ∀ (stmt : Stmt) (vars : Variables), OneMap r vars →
    Alike allowed reach r (execute ctx₁ h₁ vars stmt) (execute ctx₂ h₂ vars stmt) (Leaves r)
  | .varDecl _, _, hw =>
    executeWithContext_agree hc _ (goOn_agree (execVarDecl_agree hh hc hw _))
  | .assign _ _ _, _, hw =>
    executeWithContext_agree hc _ (goOn_agree (execAssign_agree hh hc hw _ _))
  | .structFieldAssign _ _ _ _, _, hw =>
    executeWithContext_agree hc _ (goOn_agree (execStructFieldAssign_agree hh hc hw _ _ _))
  | .expr _ _, _, hw =>
    executeWithContext_agree hc _ <|
      Agree.bind (evaluate_framed hh hc hw _) fun _ _ => Agree.pure hw
  | .ifStmt _ _ thenBody elseBody, vars, hw => by
    refine executeWithContext_agree hc _ ?_
    refine Agree.bind (evaluate_framed hh hc hw _) fun v _ => ?_
    split
    · exact executeBlock_agree thenBody vars hw
    · exact executeBlock_agree elseBody vars hw
    · exact evaluationError_agree _
  | .transition _ _ _, _, hw =>
    executeWithContext_agree hc _ <|
      Agree.bind (evaluateList_framed hh hc hw _) fun _ _ => Agree.pure hw
  | .terminal _, _, hw => executeWithContext_agree hc _ (Agree.pure hw)

theorem executeBlock_agree : ∀ (stmts : List Stmt) (vars : Variables), OneMap r vars →
    Alike allowed reach r (executeBlock ctx₁ h₁ vars stmts) (executeBlock ctx₂ h₂ vars stmts)
      (Leaves r)
  | [], _, hw => Agree.pure hw
  | stmt :: stmts, vars, hw => by
    refine Agree.bind (execute_agree stmt vars hw) fun result hw => ?_
    obtain ⟨flow, vars⟩ := result
    cases flow with
    | none => exact executeBlock_agree stmts vars hw
    | transition targetState parameters => exact Agree.pure hw
    | terminal => exact Agree.pure hw

end

end Statements

/-! ## Struct routines -/

section Routines

open StructRoutine

variable {ctx₁ ctx₂ : Context S} {h₁ h₂ : Handlers S}

theorem fieldOf_agree (id : Nat) (name : String) :
    Alike (S := S) allowed reach r (fieldOf id name) (fieldOf id name) :=
  Agree.gets fun _ _ hl => by rw [hl.heap]

theorem syncFromReceiver_agree (receiver : Nat) : ∀ (fields : List VarDeclStmt)
    (env : ParameterMap),
    Alike (S := S) allowed reach r (syncFromReceiver receiver fields env)
      (syncFromReceiver receiver fields env)
  | [], _ => Agree.pure trivial
  | field :: fields, env => by
    refine Agree.bind (fieldOf_agree _ _) fun found _ => ?_
    split
    · exact syncFromReceiver_agree receiver fields _
    · exact syncFromReceiver_agree receiver fields env

theorem writeBack_agree (receiver : Nat) (env : ParameterMap) : ∀ fields : List VarDeclStmt,
    Alike (S := S) allowed reach r (writeBack receiver env fields)
      (writeBack receiver env fields)
  | [] => Agree.pure trivial
  | field :: fields => by
    unfold writeBack
    split
    · exact Agree.bind (setField_agree _ _ _) fun _ _ => writeBack_agree receiver env fields
    · exact writeBack_agree receiver env fields

theorem collectOutputs_agree (routineName : String) (env : ParameterMap) :
    ∀ outs : List ParamDecl,
    Alike (S := S) allowed reach r (collectOutputs routineName env outs)
      (collectOutputs routineName env outs)
  | [] => Agree.pure trivial
  | out :: outs => by
    unfold collectOutputs
    split
    · exact Agree.bind (collectOutputs_agree routineName env outs) fun _ _ => Agree.pure trivial
    · exact evaluationError_agree _

theorem finish_agree (receiver : Nat) (decl : StructDecl) (routine : RoutineDecl)
    (env : ParameterMap) :
    Alike (S := S) allowed reach r (finish receiver decl routine env)
      (finish receiver decl routine env) :=
  Agree.bind (syncFromReceiver_agree _ _ _) fun _ _ =>
    Agree.bind (writeBack_agree _ _ _) fun _ _ => collectOutputs_agree _ _ _

variable (hc : ContextsAgree allowed ctx₁ ctx₂)
include hc

theorem execForeign_agree (receiver : Nat) (decl : StructDecl) (routine : RoutineDecl)
    (callArgs : List RuntimeValue) :
    Alike allowed reach r (execForeign ctx₁ receiver decl routine callArgs)
      (execForeign ctx₂ receiver decl routine callArgs) := by
  refine Agree.bind (ffiMethodOrBase_agree _ _) fun found _ => ?_
  split
  · rw [hc.host]
    exact Agree.bind (structAt_agree _) fun _ _ => runHost_agree _
  · exact evaluationError_agree _

variable (hh : HandlersAgree allowed reach h₁ h₂)
include hh

theorem declaredValue_agree (env : ParameterMap) (field : VarDeclStmt) :
    Alike allowed reach r (declaredValue ctx₁ h₁ env field)
      (declaredValue ctx₂ h₂ env field) := by
  unfold declaredValue
  split
  · exact evaluate_framed hh hc OneMap.own _
  · exact Agree.pure trivial

theorem flattenedField_agree (receiver : Nat) (env : ParameterMap) (field : VarDeclStmt) :
    Alike allowed reach r (flattenedField ctx₁ h₁ receiver env field)
      (flattenedField ctx₂ h₂ receiver env field) := by
  refine Agree.bind (fieldOf_agree _ _) fun found _ => ?_
  split
  · exact Agree.pure trivial
  · exact declaredValue_agree hc hh _ _

theorem flattenFields_agree (receiver : Nat) : ∀ (fields : List VarDeclStmt)
    (env : ParameterMap),
    Alike allowed reach r (flattenFields ctx₁ h₁ receiver fields env)
      (flattenFields ctx₂ h₂ receiver fields env)
  | [], _ => Agree.pure trivial
  | field :: fields, env =>
    Agree.bind (flattenedField_agree hc hh receiver env field) fun _ _ =>
      flattenFields_agree receiver fields _

theorem bindInputs_agree (routineName : String) : ∀ (params : List ParamDecl)
    (values : List RuntimeValue) (env : ParameterMap),
    Alike allowed reach r (bindInputs ctx₁ h₁ routineName params values env)
      (bindInputs ctx₂ h₂ routineName params values env)
  | [], _, _ => by
    unfold bindInputs
    exact Agree.pure trivial
  | param :: params, value :: values, env => bindInputs_agree routineName params values _
  | param :: params, [], env => by
    unfold bindInputs
    split
    · exact Agree.bind (evaluate_framed hh hc OneMap.own _) fun _ _ =>
        bindInputs_agree routineName params [] _
    · exact evaluationError_agree _

theorem initialiseFields_agree (env : ParameterMap) (id : Nat) : ∀ fields : List VarDeclStmt,
    Alike allowed reach r (initialiseFields ctx₁ h₁ env id fields)
      (initialiseFields ctx₂ h₂ env id fields)
  | [] => Agree.pure trivial
  | field :: fields =>
    Agree.bind (declaredValue_agree hc hh env field) fun _ _ =>
      Agree.bind (setField_agree _ _ _) fun _ _ => initialiseFields_agree env id fields

theorem freshOutput_agree (env : ParameterMap) (structName : String) :
    Alike allowed reach r (freshOutput ctx₁ h₁ env structName)
      (freshOutput ctx₂ h₂ env structName) := by
  refine Agree.bind (makeStruct_agree _) fun fresh _ => ?_
  refine Agree.bind (lookupStruct_agree _) fun found _ => ?_
  split
  · exact Agree.bind (initialiseFields_agree hc hh _ _ _) fun _ _ => Agree.pure trivial
  · exact Agree.pure trivial

theorem routineInitialiseOutputs_agree : ∀ (outs : List ParamDecl) (env : ParameterMap),
    Alike allowed reach r (initialiseOutputs ctx₁ h₁ outs env)
      (initialiseOutputs ctx₂ h₂ outs env)
  | [], _ => Agree.pure trivial
  | out :: outs, env => by
    unfold initialiseOutputs
    split
    · exact Agree.bind (freshOutput_agree hc hh _ _) fun _ _ =>
        routineInitialiseOutputs_agree outs _
    · split
      · exact Agree.bind (evaluate_framed hh hc OneMap.own _) fun _ _ =>
          routineInitialiseOutputs_agree outs _
      · exact routineInitialiseOutputs_agree outs env

theorem routineEnvironment_agree (receiver : Nat) (decl : StructDecl) (routine : RoutineDecl)
    (callArgs : List RuntimeValue) :
    Alike allowed reach r (routineEnvironment ctx₁ h₁ receiver decl routine callArgs)
      (routineEnvironment ctx₂ h₂ receiver decl routine callArgs) :=
  Agree.bind (flattenFields_agree hc hh _ _ _) fun _ _ =>
    Agree.bind (bindInputs_agree hc hh _ _ _ _) fun _ _ =>
      routineInitialiseOutputs_agree hc hh _ _

theorem execStructRoutine_agree (receiver : Nat) (decl : StructDecl) (routine : RoutineDecl)
    (callArgs : List RuntimeValue) :
    Alike allowed reach r (execStructRoutine ctx₁ h₁ receiver decl routine callArgs)
      (execStructRoutine ctx₂ h₂ receiver decl routine callArgs) := by
  unfold execStructRoutine
  split
  · exact execForeign_agree hc _ _ _ _
  · exact Agree.bind (routineEnvironment_agree hc hh _ _ _ _) fun env _ =>
      Agree.bind (executeBlock_agree hh hc _ (.own env) OneMap.own) fun _ _ => finish_agree _ _ _ _

end Routines

/-! ## States and runs -/

section Runs

open Interpreter

variable {ctx₁ ctx₂ : Context S} {h₁ h₂ : Handlers S}

theorem getVariables_agree : Alike (S := S) allowed reach Eq getVariables getVariables :=
  Agree.gets fun _ _ hl => hl.maps

theorem setVariables_agree (map : ParameterMap) :
    Alike (S := S) allowed reach Eq (setVariables map) (setVariables map) :=
  Agree.modify fun _ _ hl => ⟨rfl, hl.heap, hl.store, hl.types⟩

theorem setVariable_agree (name : String) (value : RuntimeValue) :
    Alike (S := S) allowed reach Eq (setVariable name value) (setVariable name value) :=
  Agree.bind getVariables_agree fun _ _ => setVariables_agree _

theorem checkArity_agree (state : StateDecl) (inputParams : List RuntimeValue) :
    Alike (S := S) allowed reach r (checkArity state inputParams)
      (checkArity state inputParams) := by
  unfold checkArity
  split
  · exact evaluationError_agree _
  · split
    · exact evaluationError_agree _
    · exact Agree.pure trivial

theorem extractOutputs_agree : ∀ outs : List ParamDecl,
    Alike (S := S) allowed reach Eq (extractOutputs outs) (extractOutputs outs)
  | [] => Agree.pure trivial
  | out :: outs => by
    refine Agree.bind getVariables_agree fun map _ => ?_
    split
    · exact Agree.bind (extractOutputs_agree outs) fun _ _ => Agree.pure trivial
    · exact evaluationError_agree _

variable (hc : ContextsAgree allowed ctx₁ ctx₂) (hh : HandlersAgree allowed reach h₁ h₂)
include hc hh

theorem initializeVariables_agree (stmts : List Stmt) :
    Alike allowed reach Eq (initializeVariables ctx₁ h₁ stmts)
      (initializeVariables ctx₂ h₂ stmts) := by
  induction stmts with
  | nil => exact Agree.pure trivial
  | cons stmt stmts ih =>
    exact Agree.bind (execute_agree hh hc stmt .member OneMap.member) fun _ _ => ih

theorem inputValue_agree (inputs : ParameterMap) (param : ParamDecl) :
    Alike allowed reach Eq (inputValue ctx₁ h₁ inputs param)
      (inputValue ctx₂ h₂ inputs param) := by
  unfold inputValue
  split
  · exact Agree.pure trivial
  · split
    · exact evaluate_framed hh hc OneMap.member _
    · exact evaluationError_agree _

theorem setInputParameters_agree (inputs : ParameterMap) : ∀ params : List ParamDecl,
    Alike allowed reach Eq (setInputParameters ctx₁ h₁ inputs params)
      (setInputParameters ctx₂ h₂ inputs params)
  | [] => Agree.pure trivial
  | param :: params =>
    Agree.bind (inputValue_agree hc hh inputs param) fun _ _ =>
      Agree.bind (setVariable_agree _ _) fun _ _ => setInputParameters_agree inputs params

theorem initialOutput_agree (out : ParamDecl) :
    Alike allowed reach Eq (initialOutput ctx₁ h₁ out) (initialOutput ctx₂ h₂ out) := by
  unfold initialOutput
  split
  · exact evaluate_framed hh hc OneMap.member _
  · exact Agree.pure trivial

theorem initialiseOutput_agree (out : ParamDecl) :
    Alike allowed reach Eq (initialiseOutput ctx₁ h₁ out) (initialiseOutput ctx₂ h₂ out) := by
  refine Agree.bind getVariables_agree fun map _ => ?_
  split
  · exact Agree.pure trivial
  · exact Agree.bind (initialOutput_agree hc hh out) fun _ _ => setVariable_agree _ _

theorem initialiseOutputs_agree : ∀ outs : List ParamDecl,
    Alike allowed reach Eq (initialiseOutputs ctx₁ h₁ outs) (initialiseOutputs ctx₂ h₂ outs)
  | [] => Agree.pure trivial
  | out :: outs =>
    Agree.bind (initialiseOutput_agree hc hh out) fun _ _ => initialiseOutputs_agree outs

theorem prepare_agree (autotuner : AutotunerDecl) (inputs : ParameterMap) :
    Alike allowed reach Eq (prepare ctx₁ h₁ autotuner inputs)
      (prepare ctx₂ h₂ autotuner inputs) :=
  Agree.bind (initializeVariables_agree hc hh _) fun _ _ =>
    Agree.bind (setInputParameters_agree hc hh _ _) fun _ _ =>
      Agree.bind (initialiseOutputs_agree hc hh _) fun _ _ => evaluateList_framed hh hc OneMap.member _

theorem stateParameter_agree (stateName : String) (position : Nat) (param : ParamDecl)
    (argument : Option RuntimeValue) :
    Alike allowed reach Eq (stateParameter ctx₁ h₁ stateName position param argument)
      (stateParameter ctx₂ h₂ stateName position param argument) := by
  unfold stateParameter
  split
  · exact Agree.pure trivial
  · split
    · exact evaluate_framed hh hc OneMap.member _
    · exact evaluationError_agree _

theorem bindStateParameters_agree (stateName : String) : ∀ (params : List ParamDecl)
    (arguments : List RuntimeValue) (position : Nat),
    Alike allowed reach Eq (bindStateParameters ctx₁ h₁ stateName params arguments position)
      (bindStateParameters ctx₂ h₂ stateName params arguments position)
  | [], _, _ => Agree.pure trivial
  | param :: params, _, position =>
    Agree.bind (stateParameter_agree hc hh stateName position param _) fun _ _ =>
      Agree.bind (setVariable_agree _ _) fun _ _ =>
        bindStateParameters_agree stateName params _ _

theorem executeState_agree (state : StateDecl) (inputParams : List RuntimeValue) :
    Alike allowed reach Eq (executeState ctx₁ h₁ state inputParams)
      (executeState ctx₂ h₂ state inputParams) :=
  Agree.bind getVariables_agree fun _ _ =>
    Agree.bind (checkArity_agree _ _) fun _ _ =>
      Agree.bind (bindStateParameters_agree hc hh _ _ _ _) fun _ _ =>
        Agree.bind (executeBlock_agree hh hc _ .member OneMap.member) fun _ _ =>
          Agree.bind getVariables_agree fun _ _ =>
            Agree.bind (setVariables_agree _) fun _ _ => Agree.pure trivial

theorem stateLoop_agree (autotuner : AutotunerDecl) : ∀ (fuel : Nat) (currentState : String)
    (stateParams : List RuntimeValue),
    Alike allowed reach Eq (stateLoop ctx₁ h₁ autotuner fuel currentState stateParams)
      (stateLoop ctx₂ h₂ autotuner fuel currentState stateParams)
  | 0, _, _ => Agree.halt _
  | fuel + 1, currentState, stateParams => by
    unfold stateLoop
    split
    · exact evaluationError_agree _
    · refine Agree.bind (executeState_agree hc hh _ _) fun flow _ => ?_
      split
      · exact Agree.pure trivial
      · exact stateLoop_agree autotuner fuel _ _
      · exact evaluationError_agree _

theorem runFresh_agree (fuel : Nat) (autotuner : AutotunerDecl) (inputs : ParameterMap) :
    Alike allowed reach Eq (runFresh ctx₁ h₁ fuel autotuner inputs)
      (runFresh ctx₂ h₂ fuel autotuner inputs) :=
  Agree.bind (prepare_agree hc hh _ _) fun _ _ =>
    Agree.bind (stateLoop_agree hc hh _ _ _ _) fun _ _ => extractOutputs_agree _

/-- A run starts from the empty map on both sides and puts back what it found, so it
relates worlds whose member maps have nothing in common. -/
theorem run_agree (fuel : Nat) (autotuner : AutotunerDecl) (inputs : ParameterMap) :
    Alike allowed reach r (run ctx₁ h₁ fuel autotuner inputs)
      (run ctx₂ h₂ fuel autotuner inputs) := by
  refine Coupled.bind Coupled.gets fun saved₁ saved₂ => ?_
  intro s t hs
  obtain ⟨⟨hs₁, hs₂⟩, hl⟩ := hs
  have hr : r saved₁ saved₂ := hs₁ ▸ hs₂ ▸ hl.maps
  have hrestore : ∀ {α : Type} (m₁ m₂ : M S α) {Q : α → α → World S → World S → Prop}
      {E : Exception → World S → World S → Prop},
      Coupled allowed (Linked allowed reach r) m₁ m₂ Q E →
      Coupled allowed (Linked allowed reach Eq) (setVariables saved₁ >>= fun _ => m₁)
        (setVariables saved₂ >>= fun _ => m₂) Q E := fun m₁ m₂ Q E hm =>
    Coupled.bind (Q := fun _ _ => Linked allowed reach r)
      (Coupled.modify fun _ _ hl => ⟨hr, hl.heap, hl.store, hl.types⟩) fun _ _ => hm
  have hclear : Coupled allowed (Linked allowed reach r) (setVariables ∅ : M S Unit)
      (setVariables ∅) (fun _ _ => Linked allowed reach Eq) (fun _ => Linked allowed reach r) :=
    Coupled.modify fun _ _ hl => ⟨rfl, hl.heap, hl.store, hl.types⟩
  refine Coupled.bind hclear (fun _ _ => ?_) s t hl
  refine Coupled.tryCatch (E := fun _ => Linked allowed reach Eq) ?_ fun e =>
    hrestore _ _ (Coupled.throw fun _ _ => id)
  refine Coupled.bind (runFresh_agree hc hh fuel autotuner inputs) fun result₁ result₂ => ?_
  exact Coupled.assume fun heq =>
    hrestore _ _ (heq.1 ▸ Coupled.pure fun _ _ hl => ⟨⟨rfl, trivial⟩, hl⟩)

omit hc hh in
theorem collectRoutineOutputs_agree (qname : String) (env : ParameterMap) :
    ∀ outs : List ParamDecl,
    Alike (S := S) allowed reach r (collectRoutineOutputs qname env outs)
      (collectRoutineOutputs qname env outs)
  | [] => Agree.pure trivial
  | out :: outs => by
    unfold collectRoutineOutputs
    split
    · exact Agree.bind (collectRoutineOutputs_agree qname env outs) fun _ _ =>
        Agree.pure trivial
    · exact Agree.throw _

theorem runInlineRoutine_agree (qname : String) (decl : RoutineDecl) (inputs : ParameterMap) :
    Alike allowed reach r (runInlineRoutine ctx₁ h₁ qname decl inputs)
      (runInlineRoutine ctx₂ h₂ qname decl inputs) :=
  Agree.bind (executeBlock_agree hh hc _ (.own _) OneMap.own) fun _ _ =>
    collectRoutineOutputs_agree _ _ _

omit hc hh in
theorem errorBuiltin_agree (isFatal : Bool) (params : ParameterMap) :
    Alike (S := S) allowed reach r (errorBuiltin isFatal params)
      (errorBuiltin isFatal params) := by
  unfold errorBuiltin
  split
  · exact Agree.throw _
  · exact Agree.pure trivial
  · exact Agree.throw _

theorem callFunction_agree (fuel : Nat) (function : ExternalFunction) (params : ParameterMap) :
    Alike allowed reach r (callFunction ctx₁ h₁ fuel function params)
      (callFunction ctx₂ h₂ fuel function params) := by
  unfold callFunction
  split
  · exact errorBuiltin_agree _ _
  · exact errorBuiltin_agree _ _
  · refine Agree.ask_bind fun ha => ?_
    rw [hc.autotuners _ ha]
    split
    · exact run_agree hc hh _ _ _
    · exact Agree.throw _
  · refine Agree.ask_bind fun ha => ?_
    rw [hc.routines _ ha]
    split
    · exact runInlineRoutine_agree hc hh _ _ _
    · exact Agree.throw _
  · rw [hc.host]
    exact runHost_agree _

omit hh in
/-- At every depth of calls the handlers agree. -/
theorem handlers_agree : ∀ fuel : Nat,
    HandlersAgree allowed reach (handlers ctx₁ fuel) (handlers ctx₂ fuel)
  | 0 => ⟨fun _ _ _ _ _ _ _ _ => Agree.halt _, fun _ _ _ _ _ => Agree.halt _,
      fun _ _ _ => Agree.halt _⟩
  | fuel + 1 => by
    have hh := handlers_agree fuel
    refine ⟨fun r known vars₁ vars₂ e hv hreach hn => ?_, fun r id decl routine args => ?_,
      fun r function params => ?_⟩
    · exact evaluate_agree hh hreach hv hc e hn
    · exact execStructRoutine_agree hc hh id decl routine args
    · exact callFunction_agree hc hh fuel function params

end Runs

end FalconLib.Dsl.Coupling
