import FalconLib.Dsl.CapturedCalls

/-!
# Runs without tuples

The disciplined interpreter stops, or it does what the interpreter does and its watch finds no
tuple in a variable.
-/

namespace FalconLib.Dsl.OutputCapture

open FalconLib.Base
open FalconLib.Base.Comp (Guarded)
open ExprEvaluator

variable {S : Type} {α : Type} {host : Host S}

/-! ## Variables -/

theorem read_kept {vars : Variables} (hv : PlainVars vars) :
    Kept host PlainMap (fun _ => Comp.gets vars.read) (Comp.gets vars.read) :=
  Guarded.gets fun _ hw => hv.read hw

theorem write_kept (vars : Variables) {map : ParameterMap} (hm : PlainMap map) :
    Kept host PlainVars (fun _ => vars.write map) (vars.write map) := by
  cases vars with
  | own _ => exact Guarded.pure hm
  | member =>
    refine (Guarded.modify fun w hw => ?_).bind fun _ _ => Guarded.pure trivial
    exact ⟨hm, hw.heap, hw.builtin, hw.index⟩

/-- The watch finds nothing. -/
theorem observe_kept {vars : Variables} (hv : PlainVars vars) :
    Kept host (fun _ => True) (fun watch => observe watch vars) (pure ()) := by
  have hpass : ∀ (watch : Bool) (w : World S), PlainWorld host w →
      (observe watch vars w).outcome = .ok () w := by
    intro watch w hw
    unfold observe
    rw [Comp.outcome_gets_bind, holdsTuple_eq_false (hv.read hw), Bool.and_false]
    rfl
  intro w hw
  refine .inr ⟨(hpass false w hw).symm, (hpass true w hw).trans (hpass false w hw).symm, ?_⟩
  intro _ _ ho
  rw [hpass false w hw] at ho
  cases ho
  exact ⟨hw, trivial⟩

theorem observed {vars : Variables} (hv : PlainVars vars) {p : α → Prop} {c : Bool → M S α}
    {m : M S α} (h : Kept host p c m) :
    Kept host p (fun watch => observe watch vars >>= fun _ => c watch) m := by
  change Kept host p _ (pure () >>= fun _ => m)
  exact (observe_kept hv).bind fun _ _ => h

/-! ## Statements -/

section Statements

open StmtExecutor

theorem assignVariable_kept {vars : Variables} (hv : PlainVars vars) (name : String)
    {value : RuntimeValue} (h : Plain value) :
    Kept host PlainVars (fun _ => assignVariable vars name value)
      (assignVariable vars name value) :=
  (read_kept hv).bind fun _ hmap => write_kept vars (hmap.assign name h)

theorem syncFlatCopy_kept {vars : Variables} (hv : PlainVars vars) (field : String)
    {value : RuntimeValue} (h : Plain value) :
    Kept host PlainVars (fun _ => syncFlatCopy vars field value)
      (syncFlatCopy vars field value) := by
  refine (read_kept hv).bind fun map hmap => ?_
  split
  · exact write_kept vars (hmap.assign field h)
  · exact Guarded.pure hv

theorem defaultInitial_kept (stmt : VarDeclStmt) :
    Kept host Plain (fun _ => defaultInitial stmt) (defaultInitial stmt) := by
  unfold defaultInitial
  split
  iterate 5 exact Guarded.pure (plain_primitiveDefault _)
  · exact (makeStruct_kept _).bind fun id _ => Guarded.pure (plain_struct id)
  · exact (makeStruct_kept _).bind fun id _ => Guarded.pure (plain_struct id)
  · exact evaluationError_kept _

theorem structVariable_kept {vars : Variables} (hv : PlainVars vars)
    (name undefinedMessage : String) (notStruct : Exception) :
    Kept host (fun _ => True) (fun _ => structVariable vars name undefinedMessage notStruct)
      (structVariable vars name undefinedMessage notStruct) := by
  refine (read_kept hv).bind fun map _ => ?_
  split
  · exact evaluationError_kept _
  · refine (structAt_kept _).bind fun found _ => ?_
    split
    · exact Guarded.pure trivial
    · exact evaluationError_kept _
  · exact Guarded.throw _

theorem tupleValue_kept (id i : Nat) :
    Kept host Plain (fun _ => tupleValue id i) (tupleValue id i) := by
  refine getHeap_kept.bind fun heap hheap => ?_
  split
  · rename_i value hvalue
    obtain ⟨values, hvalues, hi⟩ := Option.bind_eq_some_iff.mp hvalue
    exact Guarded.pure (hheap.tuples values (List.mem_of_getElem? hvalues) value
      (List.mem_of_getElem? hi))
  · exact Guarded.halt _

theorem assignSingle_kept {vars : Variables} (hv : PlainVars vars) (target : AssignTarget)
    {value : RuntimeValue} (h : Plain value) :
    Kept host PlainVars (fun _ => assignSingle vars target value)
      (assignSingle vars target value) := by
  unfold assignSingle
  split
  · split
    · exact (structVariable_kept hv _ _ _).bind fun id _ =>
        (setField_kept id _ h).bind fun _ _ => Guarded.pure hv
    · exact evaluationError_kept _
  · exact assignVariable_kept hv _ h

theorem assignField_kept {vars : Variables} (hv : PlainVars vars) (object : Expr)
    (field : String) {value : RuntimeValue} (h : Plain value) :
    Kept host PlainVars (fun _ => FieldAssign.assignField vars object field value)
      (FieldAssign.assignField vars object field value) := by
  unfold FieldAssign.assignField
  split
  · exact (structVariable_kept hv _ _ _).bind fun id _ =>
      (setField_kept id field h).bind fun _ _ => syncFlatCopy_kept hv field h
  · exact evaluationError_kept _

/-- A statement that fails does not go on. -/
theorem executeWithContext_kept (ctx : Context S) (location : Location) {p : α → Prop}
    {c : Bool → M S α} {m : M S α} (h : Kept host p c m) :
    Kept host p (fun watch => executeWithContext ctx location (c watch))
      (executeWithContext ctx location m) :=
  h.tryCatch fun _ _ _ _ ho => nomatch ho

/-- The parameters of a transition are no tuples. -/
def PlainFlow : ControlFlow → Prop
  | .transition _ parameters => PlainAll parameters
  | _ => True

def PlainStep (result : ControlFlow × Variables) : Prop := PlainFlow result.1 ∧ PlainVars result.2

theorem goOn_kept {c : Bool → M S Variables} {m : M S Variables} (h : Kept host PlainVars c m) :
    Kept host PlainStep (fun watch => goOn (c watch)) (goOn m) :=
  h.bind fun _ hv => Guarded.pure ⟨trivial, hv⟩

variable {ctx : Context S} {g : Bool → Handlers S} {h : Handlers S} {vars : Variables}

section Parts

variable (hhost : PlainHost ctx.host) (hh : HandlersKept true ctx.host g h)
include hhost hh

theorem initialValue_kept (hv : PlainVars vars) (stmt : VarDeclStmt) :
    Kept ctx.host Plain (fun watch => initialValue ctx (g watch) vars stmt)
      (initialValue ctx h vars stmt) := by
  unfold initialValue
  split
  · exact evaluate_kept hhost hv hh _
  · exact defaultInitial_kept stmt

theorem execVarDecl_kept (hv : PlainVars vars) (stmt : VarDeclStmt) :
    Kept ctx.host PlainVars (fun watch => execVarDecl ctx (g watch) vars stmt)
      (execVarDecl ctx h vars stmt) :=
  (initialValue_kept hhost hh hv stmt).bind fun _ hvalue => assignVariable_kept hv stmt.name hvalue

theorem assignFieldTarget_kept (hv : PlainVars vars) (object : Expr) (fieldName : String)
    (id i : Nat) :
    Kept ctx.host (fun _ => True)
      (fun watch => assignFieldTarget ctx (g watch) vars object fieldName (tupleValue id i))
      (assignFieldTarget ctx h vars object fieldName (tupleValue id i)) := by
  refine (evaluate_kept hhost hv hh object).bind fun value _ => ?_
  split
  · split
    · exact (structVariable_kept hv _ _ _).bind fun receiver _ =>
        (tupleValue_kept id i).bind fun _ hvalue => setField_kept receiver fieldName hvalue
    · exact evaluationError_kept _
  · exact evaluationError_kept _

theorem assignTupleTarget_kept (hv : PlainVars vars) (id i : Nat) (target : AssignTarget) :
    Kept ctx.host PlainVars (fun watch => assignTupleTarget ctx (g watch) id i target vars)
      (assignTupleTarget ctx h id i target vars) := by
  unfold assignTupleTarget
  split
  · split
    · exact (assignFieldTarget_kept hhost hh hv _ _ id i).bind fun _ _ => Guarded.pure hv
    · exact Guarded.halt _
  · exact (tupleValue_kept id i).bind fun _ hvalue => assignVariable_kept hv _ hvalue

theorem assignTupleTargets_kept (id : Nat) : ∀ (targets : List AssignTarget) (i : Nat)
    (vars : Variables), PlainVars vars →
    Kept ctx.host PlainVars (fun watch => assignTupleTargets ctx (g watch) id targets i vars)
      (assignTupleTargets ctx h id targets i vars)
  | [], _, _, hv => Guarded.pure hv
  | target :: targets, i, _, hv =>
    (assignTupleTarget_kept hhost hh hv id i target).bind fun vars hv =>
      assignTupleTargets_kept id targets (i + 1) vars hv

theorem assignTuple_kept (hv : PlainVars vars) (targets : List AssignTarget)
    (value : RuntimeValue) :
    Kept ctx.host PlainVars (fun watch => assignTuple ctx (g watch) vars targets value)
      (assignTuple ctx h vars targets value) := by
  refine getHeap_kept.bind fun heap _ => ?_
  split
  · split
    · exact evaluationError_kept _
    · split
      · exact assignTupleTargets_kept hhost hh _ targets 0 vars hv
      · exact evaluationError_kept _
  · exact evaluationError_kept _

/-- One target takes a value that is no tuple. -/
theorem assignTargets_kept (hv : PlainVars vars) (targets : List AssignTarget)
    {value : RuntimeValue} (hvalue : targets.length ≤ 1 → Plain value) :
    Kept ctx.host PlainVars
      (fun watch => FieldAssign.assignTargets ctx (g watch) vars targets value)
      (FieldAssign.assignTargets ctx h vars targets value) :=
  match targets with
  | [] => Guarded.halt _
  | [target] => assignSingle_kept hv target (hvalue (Nat.le_refl 1))
  | first :: second :: rest => assignTuple_kept hhost hh hv (first :: second :: rest) value

/-- The statements that the disciplined interpreter runs on handlers for one value. -/
theorem execute_kept (hv : PlainVars vars) : ∀ stmt : Stmt,
    (∀ location targets value, stmt ≠ .assign location targets value) →
    (∀ location condition thenBody elseBody,
      stmt ≠ .ifStmt location condition thenBody elseBody) →
    Kept ctx.host PlainStep (fun watch => execute ctx (g watch) vars stmt)
      (execute ctx h vars stmt)
  | .varDecl stmt, _, _ =>
    executeWithContext_kept ctx _ (goOn_kept (execVarDecl_kept hhost hh hv stmt))
  | .assign location targets value, hassign, _ => absurd rfl (hassign location targets value)
  | .structFieldAssign location object field value, _, _ => by
    unfold execute
    simp only [FieldAssign.execStructFieldAssign_eq]
    exact executeWithContext_kept ctx location <| goOn_kept <|
      (evaluate_kept hhost hv hh value).bind fun _ hvalue => assignField_kept hv object field hvalue
  | .expr location expression, _, _ =>
    executeWithContext_kept ctx location <|
      (evaluate_kept hhost hv hh expression).bind fun _ _ => Guarded.pure ⟨trivial, hv⟩
  | .ifStmt location condition thenBody elseBody, _, hif =>
    absurd rfl (hif location condition thenBody elseBody)
  | .transition location _ parameters, _, _ =>
    executeWithContext_kept ctx location <|
      (evaluateList_kept hhost hv hh parameters).bind fun _ hvalues => Guarded.pure ⟨hvalues, hv⟩
  | .terminal location, _, _ =>
    executeWithContext_kept ctx location (Guarded.pure ⟨trivial, hv⟩)

end Parts

variable (hhost : PlainHost ctx.host) (hh : HandlersKept false ctx.host g h)
include hhost hh

theorem checkedAssign_kept (hv : PlainVars vars) (targets : List AssignTarget) (value : Expr) :
    Kept ctx.host PlainVars (fun watch => checkedAssign ctx (g watch) vars targets value)
      (execAssign ctx h vars targets value) := by
  rw [FieldAssign.execAssign_eq]
  unfold checkedAssign
  by_cases hone : targets.length ≤ 1
  · simp only [if_pos hone]
    exact (evaluate_kept hhost hv hh.narrow value).bind fun _ hvalue =>
      assignTargets_kept hhost hh.narrow hv targets fun _ => hvalue
  · simp only [if_neg hone]
    exact (whole_kept hhost hv hh value).bind fun _ _ =>
      assignTargets_kept hhost hh.narrow hv targets fun h => absurd h hone

set_option linter.unusedSectionVars false in
mutual

theorem checkedStmt_kept : ∀ (stmt : Stmt) (vars : Variables), PlainVars vars →
    Kept ctx.host PlainStep (fun watch => checkedStmt ctx (g watch) watch vars stmt)
      (execute ctx h vars stmt)
  | .assign location targets value, _, hv =>
    executeWithContext_kept ctx location (goOn_kept (checkedAssign_kept hhost hh hv targets value))
  | .expr location expression, _, hv =>
    executeWithContext_kept ctx location <|
      (whole_kept hhost hv hh expression).bind fun _ _ => Guarded.pure ⟨trivial, hv⟩
  | .ifStmt location condition thenBody elseBody, vars, hv => by
    refine executeWithContext_kept ctx location ?_
    refine (evaluate_kept hhost hv hh.narrow condition).bind fun value _ => ?_
    cases value with
    | bool b =>
      cases b with
      | true => exact checkedBlock_kept thenBody vars hv
      | false => exact checkedBlock_kept elseBody vars hv
    | _ => exact evaluationError_kept _
  | .varDecl stmt, _, hv => execute_kept hhost hh.narrow hv (.varDecl stmt) nofun nofun
  | .structFieldAssign location object field value, _, hv =>
    execute_kept hhost hh.narrow hv (.structFieldAssign location object field value) nofun nofun
  | .transition location targetState parameters, _, hv =>
    execute_kept hhost hh.narrow hv (.transition location targetState parameters) nofun nofun
  | .terminal location, _, hv => execute_kept hhost hh.narrow hv (.terminal location) nofun nofun

theorem checkedBlock_kept : ∀ (stmts : List Stmt) (vars : Variables), PlainVars vars →
    Kept ctx.host PlainStep (fun watch => checkedBlock ctx (g watch) watch vars stmts)
      (executeBlock ctx h vars stmts)
  | [], _, hv => observed hv (Guarded.pure ⟨trivial, hv⟩)
  | stmt :: stmts, vars, hv => by
    refine observed hv ((checkedStmt_kept stmt vars hv).bind fun result hresult => ?_)
    obtain ⟨flow, vars⟩ := result
    obtain ⟨hflow, hv⟩ := hresult
    cases flow with
    | none => exact checkedBlock_kept stmts vars hv
    | transition targetState parameters => exact observed hv (Guarded.pure ⟨hflow, hv⟩)
    | terminal => exact observed hv (Guarded.pure ⟨hflow, hv⟩)

end

end Statements

/-! ## Struct routines -/

section Routines

open StructRoutine

theorem fieldOf_kept (id : Nat) (name : String) :
    Kept host (fun found => ∀ value, found = some value → Plain value)
      (fun _ => fieldOf id name) (fieldOf id name) :=
  Guarded.gets fun _ hw _ hvalue => hw.heap.field hvalue

theorem syncFromReceiver_kept (receiver : Nat) : ∀ (fields : List VarDeclStmt)
    (env : ParameterMap), PlainMap env →
    Kept host PlainMap (fun _ => syncFromReceiver receiver fields env)
      (syncFromReceiver receiver fields env)
  | [], _, henv => Guarded.pure henv
  | field :: fields, env, henv => by
    refine (fieldOf_kept receiver field.name).bind fun found hfound => ?_
    cases found with
    | some value =>
      exact syncFromReceiver_kept receiver fields _ (henv.assign field.name (hfound value rfl))
    | none => exact syncFromReceiver_kept receiver fields env henv

theorem writeBack_kept (receiver : Nat) {env : ParameterMap} (henv : PlainMap env) :
    ∀ fields : List VarDeclStmt,
    Kept host (fun _ => True) (fun _ => writeBack receiver env fields)
      (writeBack receiver env fields)
  | [] => Guarded.pure trivial
  | field :: fields => by
    unfold writeBack
    split
    · rename_i value hvalue
      exact (setField_kept receiver field.name (henv field.name value hvalue)).bind fun _ _ =>
        writeBack_kept receiver henv fields
    · exact writeBack_kept receiver henv fields

theorem collectOutputs_kept (routineName : String) {env : ParameterMap} (henv : PlainMap env) :
    ∀ outs : List ParamDecl,
    Kept host PlainAll (fun _ => collectOutputs routineName env outs)
      (collectOutputs routineName env outs)
  | [] => Guarded.pure nofun
  | out :: outs => by
    unfold collectOutputs
    split
    · rename_i value hvalue
      exact (collectOutputs_kept routineName henv outs).bind fun _ hvalues =>
        Guarded.pure (PlainAll.cons (henv out.name value hvalue) hvalues)
    · exact evaluationError_kept _

theorem finish_kept (receiver : Nat) (decl : StructDecl) (routine : RoutineDecl)
    {env : ParameterMap} (henv : PlainMap env) :
    Kept host PlainAll (fun _ => finish receiver decl routine env)
      (finish receiver decl routine env) :=
  (syncFromReceiver_kept receiver decl.fields env henv).bind fun _ henv =>
    (writeBack_kept receiver henv decl.fields).bind fun _ _ =>
      collectOutputs_kept routine.name henv routine.outputParams

theorem PlainVars.ownMap {vars : Variables} (hv : PlainVars vars) {env : ParameterMap}
    (henv : PlainMap env) : PlainMap (StructRoutine.ownMap vars env) := by
  cases vars with
  | own map => exact hv
  | member => exact henv

theorem plainMap_foreignParams (native : Bool) (receiver : Nat) (routine : RoutineDecl)
    {callArgs : List RuntimeValue} (hargs : PlainAll callArgs) :
    PlainMap (foreignParams native receiver routine callArgs) := by
  have hthis : PlainMap (if native then StdMap.assign ∅ "this" (RuntimeValue.struct receiver)
      else ∅) := by
    split
    · exact plainMap_empty.assign "this" (plain_struct receiver)
    · exact plainMap_empty
  exact hthis.assignAll fun write hwrite => hargs write.2 (List.of_mem_zip hwrite).2

variable {ctx : Context S} {g : Bool → Handlers S} {h : Handlers S} (hhost : PlainHost ctx.host)
include hhost

theorem execForeign_kept (receiver : Nat) (decl : StructDecl) (routine : RoutineDecl)
    {callArgs : List RuntimeValue} (hargs : PlainAll callArgs) :
    Kept ctx.host PlainAll (fun _ => execForeign ctx receiver decl routine callArgs)
      (execForeign ctx receiver decl routine callArgs) := by
  refine (ffiMethodOrBase_kept decl.name routine.name).bind fun found _ => ?_
  split
  · refine (structAt_kept receiver).bind fun object _ => ?_
    exact runHost_kept (fun heap store hheap => hhost.callMethod _ _ _ heap store
      (plain_struct receiver) (plainMap_foreignParams _ receiver routine hargs) hheap)
      fun _ _ _ hvalues _ => hvalues
  · exact evaluationError_kept _

section Environment

variable (hh : HandlersKept true ctx.host g h)
include hh

theorem declaredValue_kept {env : ParameterMap} (henv : PlainMap env) (field : VarDeclStmt) :
    Kept ctx.host Plain (fun watch => declaredValue ctx (g watch) env field)
      (declaredValue ctx h env field) := by
  unfold declaredValue
  split
  · exact evaluate_kept hhost henv.own hh _
  · exact Guarded.pure (plain_primitiveDefault _)

theorem flattenFields_kept (receiver : Nat) : ∀ (fields : List VarDeclStmt) (env : ParameterMap),
    PlainMap env →
    Kept ctx.host PlainMap (fun watch => flattenFields ctx (g watch) receiver fields env)
      (flattenFields ctx h receiver fields env)
  | [], _, henv => Guarded.pure henv
  | field :: fields, env, henv => by
    have hvalue : Kept ctx.host Plain
        (fun watch => flattenedField ctx (g watch) receiver env field)
        (flattenedField ctx h receiver env field) := by
      refine (fieldOf_kept receiver field.name).bind fun found hfound => ?_
      cases found with
      | some value => exact Guarded.pure (hfound value rfl)
      | none => exact declaredValue_kept hhost hh henv field
    exact hvalue.bind fun _ hplain =>
      flattenFields_kept receiver fields _ (henv.assign field.name hplain)

theorem bindInputs_kept (routineName : String) : ∀ (params : List ParamDecl)
    (values : List RuntimeValue) (env : ParameterMap), PlainAll values → PlainMap env →
    Kept ctx.host PlainMap (fun watch => bindInputs ctx (g watch) routineName params values env)
      (bindInputs ctx h routineName params values env)
  | [], _, _, _, henv => by
    unfold bindInputs
    exact Guarded.pure henv
  | param :: params, value :: values, env, hvalues, henv =>
    bindInputs_kept routineName params values _ (List.forall_mem_cons.mp hvalues).2
      (henv.assign param.name (List.forall_mem_cons.mp hvalues).1)
  | param :: params, [], env, hvalues, henv => by
    unfold bindInputs
    split
    · exact (evaluate_kept hhost henv.own hh _).bind fun _ hvalue =>
        bindInputs_kept routineName params [] _ hvalues (henv.assign param.name hvalue)
    · exact evaluationError_kept _

theorem initialiseFields_kept {env : ParameterMap} (henv : PlainMap env) (id : Nat) :
    ∀ fields : List VarDeclStmt,
    Kept ctx.host (fun _ => True) (fun watch => initialiseFields ctx (g watch) env id fields)
      (initialiseFields ctx h env id fields)
  | [] => Guarded.pure trivial
  | field :: fields =>
    (declaredValue_kept hhost hh henv field).bind fun _ hvalue =>
      (setField_kept id field.name hvalue).bind fun _ _ => initialiseFields_kept henv id fields

theorem freshOutput_kept {env : ParameterMap} (henv : PlainMap env) (structName : String) :
    Kept ctx.host Plain (fun watch => freshOutput ctx (g watch) env structName)
      (freshOutput ctx h env structName) := by
  refine (makeStruct_kept structName).bind fun fresh _ => ?_
  refine (lookupStruct_kept structName).bind fun found _ => ?_
  split
  · exact (initialiseFields_kept hhost hh henv fresh _).bind fun _ _ =>
      Guarded.pure (plain_struct fresh)
  · exact Guarded.pure (plain_struct fresh)

theorem routineOutputs_kept : ∀ (outs : List ParamDecl) (env : ParameterMap), PlainMap env →
    Kept ctx.host PlainMap (fun watch => initialiseOutputs ctx (g watch) outs env)
      (initialiseOutputs ctx h outs env)
  | [], _, henv => Guarded.pure henv
  | out :: outs, env, henv => by
    unfold initialiseOutputs
    split
    · exact (freshOutput_kept hhost hh henv _).bind fun _ hvalue =>
        routineOutputs_kept outs _ (henv.assign out.name hvalue)
    · split
      · exact (evaluate_kept hhost henv.own hh _).bind fun _ hvalue =>
          routineOutputs_kept outs _ (henv.assign out.name hvalue)
      · exact routineOutputs_kept outs env henv

theorem routineEnvironment_kept (receiver : Nat) (decl : StructDecl) (routine : RoutineDecl)
    {callArgs : List RuntimeValue} (hargs : PlainAll callArgs) :
    Kept ctx.host PlainMap
      (fun watch => routineEnvironment ctx (g watch) receiver decl routine callArgs)
      (routineEnvironment ctx h receiver decl routine callArgs) :=
  (flattenFields_kept hhost hh receiver decl.fields _
    (plainMap_empty.assign "this" (plain_struct receiver))).bind fun env henv =>
      (bindInputs_kept hhost hh routine.name routine.inputParams callArgs env hargs henv).bind
        fun env henv => routineOutputs_kept hhost hh routine.outputParams env henv

end Environment

theorem checkedRoutine_kept (hh : HandlersKept false ctx.host g h) (receiver : Nat)
    (decl : StructDecl) (routine : RoutineDecl) {callArgs : List RuntimeValue}
    (hargs : PlainAll callArgs) :
    Kept ctx.host PlainAll
      (fun watch => checkedRoutine ctx (g watch) watch receiver decl routine callArgs)
      (execStructRoutine ctx h receiver decl routine callArgs) := by
  unfold checkedRoutine execStructRoutine
  split
  · exact execForeign_kept hhost receiver decl routine hargs
  · exact (routineEnvironment_kept hhost hh.narrow receiver decl routine hargs).bind
      fun env henv => (checkedBlock_kept hhost hh routine.body (.own env) henv).bind
        fun result hresult => finish_kept receiver decl routine (hresult.2.ownMap henv)

end Routines

/-! ## States and runs -/

section Runs

open Interpreter

theorem getVariables_kept : Kept host PlainMap (fun _ => getVariables) getVariables :=
  Guarded.gets fun _ hw => hw.member

theorem setVariables_kept {map : ParameterMap} (hm : PlainMap map) :
    Kept host (fun _ => True) (fun _ => setVariables map) (setVariables map) :=
  Guarded.modify fun _ hw => ⟨hm, hw.heap, hw.builtin, hw.index⟩

theorem setVariable_kept (name : String) {value : RuntimeValue} (h : Plain value) :
    Kept host (fun _ => True) (fun _ => setVariable name value) (setVariable name value) :=
  getVariables_kept.bind fun _ hmap => setVariables_kept (hmap.assign name h)

theorem checkArity_kept (state : StateDecl) (inputParams : List RuntimeValue) :
    Kept host (fun _ => True) (fun _ => checkArity state inputParams)
      (checkArity state inputParams) := by
  unfold checkArity
  split
  · exact evaluationError_kept _
  · split
    · exact evaluationError_kept _
    · exact Guarded.pure trivial

theorem extractOutputs_kept : ∀ outs : List ParamDecl,
    Kept host PlainAll (fun _ => extractOutputs outs) (extractOutputs outs)
  | [] => Guarded.pure nofun
  | out :: outs => by
    refine getVariables_kept.bind fun map hmap => ?_
    split
    · rename_i value hvalue
      exact (extractOutputs_kept outs).bind fun _ hvalues =>
        Guarded.pure (PlainAll.cons (hmap out.name value hvalue) hvalues)
    · exact evaluationError_kept _

variable {ctx : Context S} {g : Bool → Handlers S} {h : Handlers S} (hhost : PlainHost ctx.host)
include hhost

section Parts

variable (hh : HandlersKept true ctx.host g h)
include hh

theorem evaluateMember_kept (e : Expr) :
    Kept ctx.host Plain (fun watch => evaluate ctx (g watch) .member e)
      (evaluate ctx h .member e) := evaluate_kept hhost plainVars_member hh e

theorem setInputParameters_kept {inputs : ParameterMap} (hi : PlainMap inputs) :
    ∀ params : List ParamDecl,
    Kept ctx.host (fun _ => True) (fun watch => setInputParameters ctx (g watch) inputs params)
      (setInputParameters ctx h inputs params)
  | [] => Guarded.pure trivial
  | param :: params => by
    have hvalue : Kept ctx.host Plain (fun watch => inputValue ctx (g watch) inputs param)
        (inputValue ctx h inputs param) := by
      unfold inputValue
      split
      · rename_i value hvalue
        exact Guarded.pure (hi param.name value hvalue)
      · split
        · exact evaluateMember_kept hhost hh _
        · exact evaluationError_kept _
    exact hvalue.bind fun _ hplain => (setVariable_kept param.name hplain).bind fun _ _ =>
      setInputParameters_kept hi params

theorem initialiseOutput_kept (out : ParamDecl) :
    Kept ctx.host (fun _ => True) (fun watch => initialiseOutput ctx (g watch) out)
      (initialiseOutput ctx h out) := by
  have hvalue : Kept ctx.host Plain (fun watch => initialOutput ctx (g watch) out)
      (initialOutput ctx h out) := by
    unfold initialOutput
    split
    · exact evaluateMember_kept hhost hh _
    · exact Guarded.pure rfl
  refine getVariables_kept.bind fun map _ => ?_
  split
  · exact Guarded.pure trivial
  · exact hvalue.bind fun _ hplain => setVariable_kept out.name hplain

theorem initialiseOutputs_kept : ∀ outs : List ParamDecl,
    Kept ctx.host (fun _ => True)
      (fun watch => Interpreter.initialiseOutputs ctx (g watch) outs)
      (Interpreter.initialiseOutputs ctx h outs)
  | [] => Guarded.pure trivial
  | out :: outs =>
    (initialiseOutput_kept hhost hh out).bind fun _ _ => initialiseOutputs_kept outs

theorem bindStateParameters_kept (stateName : String) : ∀ (params : List ParamDecl)
    (arguments : List RuntimeValue) (position : Nat), PlainAll arguments →
    Kept ctx.host (fun _ => True)
      (fun watch => bindStateParameters ctx (g watch) stateName params arguments position)
      (bindStateParameters ctx h stateName params arguments position)
  | [], _, _, _ => Guarded.pure trivial
  | param :: params, arguments, position, ha => by
    have hvalue : Kept ctx.host Plain
        (fun watch => stateParameter ctx (g watch) stateName position param arguments.head?)
        (stateParameter ctx h stateName position param arguments.head?) := by
      unfold stateParameter
      split
      · rename_i value hvalue
        exact Guarded.pure (ha value (List.mem_of_head? hvalue))
      · split
        · exact evaluateMember_kept hhost hh _
        · exact evaluationError_kept _
    exact hvalue.bind fun _ hplain => (setVariable_kept param.name hplain).bind fun _ _ =>
      bindStateParameters_kept stateName params _ _ fun value hmem =>
        ha value (List.mem_of_mem_tail hmem)

end Parts

variable (hh : HandlersKept false ctx.host g h)
include hh

theorem checkedInitialize_kept (stmts : List Stmt) :
    Kept ctx.host (fun _ => True) (fun watch => checkedInitialize ctx (g watch) watch stmts)
      (initializeVariables ctx h stmts) := by
  induction stmts with
  | nil => exact observe_kept plainVars_member
  | cons stmt stmts ih =>
    exact observed plainVars_member <|
      (checkedStmt_kept hhost hh stmt .member plainVars_member).bind fun _ _ => ih

theorem checkedPrepare_kept (autotuner : AutotunerDecl) {inputs : ParameterMap}
    (hi : PlainMap inputs) :
    Kept ctx.host PlainAll (fun watch => checkedPrepare ctx (g watch) watch autotuner inputs)
      (prepare ctx h autotuner inputs) :=
  (checkedInitialize_kept hhost hh _).bind fun _ _ =>
    (setInputParameters_kept hhost hh.narrow hi _).bind fun _ _ =>
      (initialiseOutputs_kept hhost hh.narrow _).bind fun _ _ =>
        observed plainVars_member
          (evaluateList_kept hhost plainVars_member hh.narrow _)

theorem checkedState_kept (state : StateDecl) {inputParams : List RuntimeValue}
    (hi : PlainAll inputParams) :
    Kept ctx.host PlainFlow (fun watch => checkedState ctx (g watch) watch state inputParams)
      (executeState ctx h state inputParams) :=
  getVariables_kept.bind fun _ _ =>
    (checkArity_kept state inputParams).bind fun _ _ =>
      (bindStateParameters_kept hhost hh.narrow state.name _ inputParams 0 hi).bind fun _ _ =>
        (checkedBlock_kept hhost hh state.body .member trivial).bind fun _ hresult =>
          getVariables_kept.bind fun _ hleft =>
            (setVariables_kept (hleft.restrict _)).bind fun _ _ => Guarded.pure hresult.1

theorem checkedLoop_kept (autotuner : AutotunerDecl) : ∀ (fuel : Nat) (currentState : String)
    (stateParams : List RuntimeValue), PlainAll stateParams →
    Kept ctx.host (fun _ => True)
      (fun watch => checkedLoop ctx (g watch) watch autotuner fuel currentState stateParams)
      (stateLoop ctx h autotuner fuel currentState stateParams)
  | 0, _, _, _ => Guarded.halt _
  | fuel + 1, currentState, stateParams, hs => by
    unfold checkedLoop stateLoop
    cases findState autotuner currentState with
    | none => exact evaluationError_kept _
    | some state =>
      refine (checkedState_kept hhost hh state hs).bind fun flow hflow => ?_
      cases flow with
      | terminal => exact Guarded.pure trivial
      | transition targetState parameters =>
        exact checkedLoop_kept autotuner fuel targetState parameters hflow
      | none => exact evaluationError_kept _

theorem checkedFresh_kept (fuel : Nat) (autotuner : AutotunerDecl) {inputs : ParameterMap}
    (hi : PlainMap inputs) :
    Kept ctx.host PlainAll (fun watch => checkedFresh ctx (g watch) watch fuel autotuner inputs)
      (runFresh ctx h fuel autotuner inputs) :=
  (checkedPrepare_kept hhost hh autotuner hi).bind fun stateParams hs =>
    (checkedLoop_kept hhost hh autotuner fuel _ stateParams hs).bind fun _ _ =>
      extractOutputs_kept autotuner.outputParams

theorem checkedRun_kept (fuel : Nat) (autotuner : AutotunerDecl) {inputs : ParameterMap}
    (hi : PlainMap inputs) :
    Kept ctx.host PlainAll (fun watch => checkedRun ctx (g watch) watch fuel autotuner inputs)
      (run ctx h fuel autotuner inputs) := by
  refine getVariables_kept.bind fun saved hsaved => ?_
  refine (setVariables_kept plainMap_empty).bind fun _ _ => ?_
  refine Guarded.tryCatch ?_ fun e s a t ho => nomatch ho
  exact (checkedFresh_kept hhost hh fuel autotuner hi).bind fun _ hresult =>
    (setVariables_kept hsaved).bind fun _ _ => Guarded.pure hresult

omit hhost hh in
theorem plainMap_routineInputs {inputs : ParameterMap} (hi : PlainMap inputs) :
    ∀ (params : List ParamDecl) {env : ParameterMap}, PlainMap env →
    PlainMap (routineInputs inputs params env)
  | [], _, henv => henv
  | param :: params, env, henv => by
    unfold routineInputs
    split
    · rename_i value hvalue
      exact plainMap_routineInputs hi params (henv.assign param.name (hi param.name value hvalue))
    · exact plainMap_routineInputs hi params henv

omit hhost hh in
theorem plainMap_routineOutputs (outs : List ParamDecl) {env : ParameterMap}
    (henv : PlainMap env) : PlainMap (Interpreter.routineOutputs outs env) := by
  refine henv.assignAll fun write hwrite => ?_
  obtain ⟨out, -, rfl⟩ := List.mem_map.mp hwrite
  exact plain_primitiveDefault out.type.baseType

omit hhost hh in
theorem collectRoutineOutputs_kept (qname : String) {env : ParameterMap} (henv : PlainMap env) :
    ∀ outs : List ParamDecl,
    Kept host PlainAll (fun _ => collectRoutineOutputs qname env outs)
      (collectRoutineOutputs qname env outs)
  | [] => Guarded.pure nofun
  | out :: outs => by
    unfold collectRoutineOutputs
    split
    · rename_i value hvalue
      exact (collectRoutineOutputs_kept qname henv outs).bind fun _ hvalues =>
        Guarded.pure (PlainAll.cons (henv out.name value hvalue) hvalues)
    · exact Guarded.throw _

theorem checkedInline_kept (qname : String) (decl : RoutineDecl) {inputs : ParameterMap}
    (hi : PlainMap inputs) :
    Kept ctx.host PlainAll (fun watch => checkedInline ctx (g watch) watch qname decl inputs)
      (runInlineRoutine ctx h qname decl inputs) := by
  have henv := plainMap_routineOutputs decl.outputParams
    (plainMap_routineInputs hi decl.inputParams plainMap_empty)
  exact (checkedBlock_kept hhost hh decl.body (.own _) henv).bind fun _ hresult =>
    collectRoutineOutputs_kept qname (hresult.2.ownMap henv) decl.outputParams

omit hhost hh in
theorem errorBuiltin_kept (isFatal : Bool) (params : ParameterMap) :
    Kept host PlainAll (fun _ => errorBuiltin isFatal params) (errorBuiltin isFatal params) := by
  unfold errorBuiltin
  split
  · exact Guarded.throw _
  · exact Guarded.pure (List.forall_mem_singleton.mpr rfl)
  · exact Guarded.throw _

theorem checkedFunction_kept (fuel : Nat) (function : ExternalFunction) {params : ParameterMap}
    (hp : PlainMap params) :
    Kept ctx.host PlainAll
      (fun watch => checkedFunction ctx (g watch) watch fuel function params)
      (callFunction ctx h fuel function params) := by
  cases function with
  | errorMsg => exact errorBuiltin_kept false params
  | fatalErrorMsg => exact errorBuiltin_kept true params
  | autotuner qname =>
    refine (Guarded.ask _).bind fun _ _ => ?_
    cases ctx.loadedAutotuners[qname]? with
    | some autotuner => exact checkedRun_kept hhost hh fuel autotuner hp
    | none => exact Guarded.throw _
  | inlineRoutine qname =>
    refine (Guarded.ask _).bind fun _ _ => ?_
    cases ctx.routineDeclarations[qname]? with
    | some decl => exact checkedInline_kept hhost hh qname decl hp
    | none => exact Guarded.throw _
  | foreign symbol =>
    exact runHost_kept (fun heap store hheap => hhost.call symbol params heap store hp hheap)
      fun _ _ _ hvalues _ => hvalues

omit hh in
/-- At every depth of calls. -/
theorem disciplined_kept : ∀ fuel : Nat,
    HandlersKept false ctx.host (fun watch => disciplined ctx watch fuel) (handlers ctx fuel)
  | 0 => ⟨fun _ _ _ => Guarded.halt _, fun _ _ _ _ _ => Guarded.halt _,
      fun _ _ _ => Guarded.halt _⟩
  | fuel + 1 => by
    have hh := disciplined_kept fuel
    refine ⟨fun vars e hv => evaluate_kept hhost hv hh.narrow e, ?_, ?_⟩
    · intro receiver decl routine callArgs hargs
      exact (checkedRoutine_kept hhost hh receiver decl routine hargs).mono
        fun _ houtputs => ⟨houtputs, nofun⟩
    · intro function params hparams
      exact (checkedFunction_kept hhost hh fuel function hparams).mono
        fun _ houtputs => ⟨houtputs, nofun⟩

end Runs

end FalconLib.Dsl.OutputCapture
