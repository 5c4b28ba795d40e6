import FalconLib.Base.Checked
import FalconLib.Dsl.FieldAssign
import FalconLib.Dsl.Interpreter

/-!
# Calls with several outputs

The outputs of a call are one value, a tuple if there are two or more. The disciplined interpreter
is the interpreter, except that it goes no further where such a tuple would be anything but the
whole value of an assignment to several targets, or of a statement of its own. Its watch stops it
where a variable holds a tuple as a statement begins or as a block ends.
-/

namespace FalconLib.Dsl.OutputCapture

open FalconLib.Base
open ExprEvaluator
open FieldAssign (assignTargets)

variable {S : Type}

/-! ## Where one value is meant -/

def atMostOne (outputs : FunctionResult) : M S FunctionResult :=
  if outputs.length ≤ 1 then pure outputs else Comp.halt .undefinedBehaviour

/-- No call through these handlers has several outputs. -/
def narrow (h : Handlers S) : Handlers S where
  evaluate := h.evaluate
  execStructRoutine receiver decl routine callArgs :=
    h.execStructRoutine receiver decl routine callArgs >>= atMostOne
  callFunction function params := h.callFunction function params >>= atMostOne

/-- The outermost call may have several outputs. -/
def whole (ctx : Context S) (h : Handlers S) (vars : Variables) : Expr → M S RuntimeValue
  | .methodCall info object methodName args =>
    evalMethodCall ctx h vars info object methodName (evaluate ctx (narrow h) vars object)
      (evaluateList ctx (narrow h) vars args)
  | .index _ object index => do
    let object ← evaluate ctx (narrow h) vars object
    let index ← evaluate ctx (narrow h) vars index
    evalIndex ctx h object index
  | .call _ name arguments => evalCall ctx h name (argumentThunks ctx (narrow h) vars arguments)
  | expr => evaluate ctx (narrow h) vars expr

/-! ## The watch -/

def isTuple : RuntimeValue → Bool
  | .tuple _ => true
  | _ => false

def holdsTuple (map : ParameterMap) : Bool :=
  map.keyList.any fun name => map[name]?.any isTuple

def observe (watch : Bool) (vars : Variables) : M S Unit := do
  let map ← Comp.gets vars.read
  if watch && holdsTuple map then Comp.halt .undefinedBehaviour else pure ()

/-! ## Statements -/

section Checked

variable (ctx : Context S) (h : Handlers S) (watch : Bool)

def checkedAssign (vars : Variables) (targets : List AssignTarget) (value : Expr) :
    M S Variables := do
  let value ← if targets.length ≤ 1 then evaluate ctx (narrow h) vars value
    else whole ctx h vars value
  assignTargets ctx (narrow h) vars targets value

mutual

def checkedStmt (vars : Variables) : Stmt → M S (ControlFlow × Variables)
  | .assign location targets value =>
    StmtExecutor.executeWithContext ctx location <| StmtExecutor.goOn <|
      checkedAssign ctx h vars targets value
  | .expr location expression =>
    StmtExecutor.executeWithContext ctx location do
      let _ ← whole ctx h vars expression
      pure (.none, vars)
  | .ifStmt location condition thenBody elseBody =>
    StmtExecutor.executeWithContext ctx location do
      match ← evaluate ctx (narrow h) vars condition with
      | .bool true => checkedBlock vars thenBody
      | .bool false => checkedBlock vars elseBody
      | _ => evaluationError "If condition must evaluate to boolean"
  | stmt => StmtExecutor.execute ctx (narrow h) vars stmt

def checkedBlock (vars : Variables) : List Stmt → M S (ControlFlow × Variables)
  | [] => do
    observe watch vars
    pure (.none, vars)
  | stmt :: stmts => do
    observe watch vars
    let (flow, vars) ← checkedStmt vars stmt
    match flow with
    | .none => checkedBlock vars stmts
    | flow => do
      observe watch vars
      pure (flow, vars)

end

/-! ## Calls -/

def checkedRoutine (receiver : Nat) (decl : StructDecl) (routine : RoutineDecl)
    (callArgs : List RuntimeValue) : M S FunctionResult := do
  if routine.body.isEmpty then StructRoutine.execForeign ctx receiver decl routine callArgs
  else do
    let env ← StructRoutine.routineEnvironment ctx (narrow h) receiver decl routine callArgs
    let (_, vars) ← checkedBlock ctx h watch (.own env) routine.body
    StructRoutine.finish receiver decl routine (StructRoutine.ownMap vars env)

def checkedInitialize : List Stmt → M S Unit
  | [] => observe watch .member
  | stmt :: stmts => do
    observe watch .member
    let _ ← checkedStmt ctx h watch .member stmt
    checkedInitialize stmts

def checkedPrepare (autotuner : AutotunerDecl) (inputs : ParameterMap) :
    M S (List RuntimeValue) := do
  checkedInitialize ctx h watch autotuner.autotunerVariables
  Interpreter.setInputParameters ctx (narrow h) inputs autotuner.inputParams
  Interpreter.initialiseOutputs ctx (narrow h) autotuner.outputParams
  observe watch .member
  evaluateList ctx (narrow h) .member autotuner.entryParameters

def checkedState (state : StateDecl) (inputParams : List RuntimeValue) : M S ControlFlow := do
  let entered ← Interpreter.getVariables
  let globals := entered.keyList
  Interpreter.checkArity state inputParams
  Interpreter.bindStateParameters ctx (narrow h) state.name state.inputParameters inputParams 0
  let (flow, _) ← checkedBlock ctx h watch .member state.body
  let left ← Interpreter.getVariables
  Interpreter.setVariables (left.restrict globals)
  pure flow

def checkedLoop (autotuner : AutotunerDecl) : Nat → String → List RuntimeValue → M S Unit
  | 0, _, _ => Comp.halt .outOfFuel
  | fuel + 1, currentState, stateParams =>
    match Interpreter.findState autotuner currentState with
    | none => evaluationError ("Unknown state: " ++ currentState)
    | some state => do
      match ← checkedState ctx h watch state stateParams with
      | .terminal => pure ()
      | .transition targetState parameters => checkedLoop autotuner fuel targetState parameters
      | .none =>
        evaluationError ("State must end with transition or terminal: " ++ state.name)

def checkedFresh (fuel : Nat) (autotuner : AutotunerDecl) (inputs : ParameterMap) :
    M S FunctionResult := do
  let stateParams ← checkedPrepare ctx h watch autotuner inputs
  checkedLoop ctx h watch autotuner fuel autotuner.entryState stateParams
  Interpreter.extractOutputs autotuner.outputParams

def checkedRun (fuel : Nat) (autotuner : AutotunerDecl) (inputs : ParameterMap) :
    M S FunctionResult := do
  let saved ← Interpreter.getVariables
  Interpreter.setVariables ∅
  Comp.tryCatch
    (do
      let result ← checkedFresh ctx h watch fuel autotuner inputs
      Interpreter.setVariables saved
      pure result)
    fun e => do
      Interpreter.setVariables saved
      Comp.throw e

def checkedInline (qname : String) (decl : RoutineDecl) (inputs : ParameterMap) :
    M S FunctionResult := do
  let env := Interpreter.routineOutputs decl.outputParams
    (Interpreter.routineInputs inputs decl.inputParams ∅)
  let (_, vars) ← checkedBlock ctx h watch (.own env) decl.body
  Interpreter.collectRoutineOutputs qname (StructRoutine.ownMap vars env) decl.outputParams

def checkedFunction (fuel : Nat) (function : ExternalFunction) (params : ParameterMap) :
    M S FunctionResult :=
  match function with
  | .autotuner qname => do
    Comp.ask (.autotuner qname)
    match ctx.loadedAutotuners[qname]? with
    | some autotuner => checkedRun ctx h watch fuel autotuner params
    | none => Comp.throw (.other ("Autotuner not found for execution: " ++ qname))
  | .inlineRoutine qname => do
    Comp.ask (.routine qname)
    match ctx.routineDeclarations[qname]? with
    | some decl => checkedInline ctx h watch qname decl params
    | none => Comp.throw (.other ("Inline routine not found in declarations: " ++ qname))
  | function => Interpreter.callFunction ctx h fuel function params

end Checked

/-- The disciplined interpreter, with or without its watch. -/
def disciplined (ctx : Context S) (watch : Bool) : Nat → Handlers S
  | 0 => Interpreter.handlers ctx 0
  | fuel + 1 => {
      evaluate := evaluate ctx (narrow (disciplined ctx watch fuel))
      execStructRoutine := checkedRoutine ctx (disciplined ctx watch fuel) watch
      callFunction := checkedFunction ctx (disciplined ctx watch fuel) watch fuel }

end FalconLib.Dsl.OutputCapture
