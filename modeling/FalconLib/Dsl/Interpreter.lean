import FalconLib.Dsl.StructRoutine

/-!
# The interpreter

`run` executes an autotuner on the member map of the interpreter, which it saves and
restores around the run. `handlers` ties the knot: with fuel `n` calls nest at most
`n` deep, and an autotuner goes through at most `n` states.
-/

namespace FalconLib.Dsl

open FalconLib.Base (Comp StdMap)
open ExprEvaluator (evaluate evaluateList)

namespace Interpreter

variable {S : Type}

def getVariables : M S ParameterMap := Comp.gets World.memberVariables

def setVariables (map : ParameterMap) : M S Unit :=
  Comp.modify fun w => { w with memberVariables := map }

def setVariable (name : String) (value : RuntimeValue) : M S Unit := do
  let map ← getVariables
  setVariables (map.assign name value)

/-! ## Before the first state -/

/-- The autotuner-level statements run one by one; their control flow is ignored. -/
def initializeVariables (ctx : Context S) (h : Handlers S) : List Stmt → M S Unit
  | [] => pure ()
  | stmt :: stmts => do
    let _ ← StmtExecutor.execute ctx h .member stmt
    initializeVariables ctx h stmts

def inputValue (ctx : Context S) (h : Handlers S) (inputs : ParameterMap) (param : ParamDecl) :
    M S RuntimeValue :=
  match inputs[param.name]? with
  | some value => pure value
  | none =>
    match param.defaultValue with
    | some default => evaluate ctx h .member default
    | none => evaluationError ("Missing required input parameter: " ++ param.name)

def setInputParameters (ctx : Context S) (h : Handlers S) (inputs : ParameterMap) :
    List ParamDecl → M S Unit
  | [] => pure ()
  | param :: params => do
    let value ← inputValue ctx h inputs param
    setVariable param.name value
    setInputParameters ctx h inputs params

def initialOutput (ctx : Context S) (h : Handlers S) (out : ParamDecl) : M S RuntimeValue :=
  match out.defaultValue with
  | some default => evaluate ctx h .member default
  | none => pure RuntimeValue.unset

/-- An output that a statement has bound already keeps its value. -/
def initialiseOutput (ctx : Context S) (h : Handlers S) (out : ParamDecl) : M S Unit := do
  let map ← getVariables
  match map[out.name]? with
  | some _ => pure ()
  | none => do
    let value ← initialOutput ctx h out
    setVariable out.name value

def initialiseOutputs (ctx : Context S) (h : Handlers S) : List ParamDecl → M S Unit
  | [] => pure ()
  | out :: outs => do
    initialiseOutput ctx h out
    initialiseOutputs ctx h outs

/-- Everything that happens before the first state, up to the entry parameters. -/
def prepare (ctx : Context S) (h : Handlers S) (autotuner : AutotunerDecl)
    (inputs : ParameterMap) : M S (List RuntimeValue) := do
  initializeVariables ctx h autotuner.autotunerVariables
  setInputParameters ctx h inputs autotuner.inputParams
  initialiseOutputs ctx h autotuner.outputParams
  evaluateList ctx h .member autotuner.entryParameters

/-! ## States -/

def stateParameter (ctx : Context S) (h : Handlers S) (stateName : String) (position : Nat)
    (param : ParamDecl) (argument : Option RuntimeValue) : M S RuntimeValue :=
  match argument with
  | some value => pure value
  | none =>
    match param.defaultValue with
    | some default => evaluate ctx h .member default
    | none =>
      evaluationError ("State '" ++ stateName ++ "' requires parameter at position " ++
        toString position ++ ": " ++ param.name)

def bindStateParameters (ctx : Context S) (h : Handlers S) (stateName : String) :
    List ParamDecl → List RuntimeValue → Nat → M S Unit
  | [], _, _ => pure ()
  | param :: params, arguments, position => do
    let value ← stateParameter ctx h stateName position param arguments.head?
    setVariable param.name value
    bindStateParameters ctx h stateName params arguments.tail (position + 1)

/-- The checks on the number of arguments. -/
def checkArity (state : StateDecl) (inputParams : List RuntimeValue) : M S Unit :=
  if state.inputParameters.isEmpty && !inputParams.isEmpty then
    evaluationError ("State '" ++ state.name ++ "' does not accept parameters but " ++
      toString inputParams.length ++ " were provided")
  else if state.inputParameters.length < inputParams.length then
    evaluationError ("State '" ++ state.name ++ "' expects " ++
      toString state.inputParameters.length ++ " parameters but got " ++
      toString inputParams.length)
  else pure ()

/-- The names bound on entry are the globals; all others are erased on the way out. -/
def executeState (ctx : Context S) (h : Handlers S) (state : StateDecl)
    (inputParams : List RuntimeValue) : M S ControlFlow := do
  let entered ← getVariables
  let globals := entered.keyList
  checkArity state inputParams
  bindStateParameters ctx h state.name state.inputParameters inputParams 0
  let (flow, _) ← StmtExecutor.executeBlock ctx h .member state.body
  let left ← getVariables
  setVariables (left.restrict globals)
  pure flow

def findState (autotuner : AutotunerDecl) (name : String) : Option StateDecl :=
  autotuner.states.find? fun state => state.name == name

/-- The state machine, for at most `fuel` states. -/
def stateLoop (ctx : Context S) (h : Handlers S) (autotuner : AutotunerDecl) :
    Nat → String → List RuntimeValue → M S Unit
  | 0, _, _ => Comp.halt .outOfFuel
  | fuel + 1, currentState, stateParams =>
    match findState autotuner currentState with
    | none => evaluationError ("Unknown state: " ++ currentState)
    | some state => do
      match ← executeState ctx h state stateParams with
      | .terminal => pure ()
      | .transition targetState parameters =>
        stateLoop ctx h autotuner fuel targetState parameters
      | .none =>
        evaluationError ("State must end with transition or terminal: " ++ state.name)

/-! ## Runs -/

def extractOutputs : List ParamDecl → M S FunctionResult
  | [] => pure []
  | out :: outs => do
    let map ← getVariables
    match map[out.name]? with
    | some value => do
      let values ← extractOutputs outs
      pure (value :: values)
    | none => evaluationError ("Output parameter not set: " ++ out.name)

/-- The part of a run between saving and restoring the variables. -/
def runFresh (ctx : Context S) (h : Handlers S) (fuel : Nat) (autotuner : AutotunerDecl)
    (inputs : ParameterMap) : M S FunctionResult := do
  let stateParams ← prepare ctx h autotuner inputs
  stateLoop ctx h autotuner fuel autotuner.entryState stateParams
  extractOutputs autotuner.outputParams

def run (ctx : Context S) (h : Handlers S) (fuel : Nat) (autotuner : AutotunerDecl)
    (inputs : ParameterMap) : M S FunctionResult := do
  let saved ← getVariables
  setVariables ∅
  Comp.tryCatch
    (do
      let result ← runFresh ctx h fuel autotuner inputs
      setVariables saved
      pure result)
    fun e => do
      setVariables saved
      Comp.throw e

/-! ## Registered functions -/

/-- The map of an inline routine: the arguments it was called with. A default is not
evaluated; the parameter stays unbound. -/
def routineInputs (inputs : ParameterMap) : List ParamDecl → ParameterMap → ParameterMap
  | [], env => env
  | param :: params, env =>
    match inputs[param.name]? with
    | some value => routineInputs inputs params (env.assign param.name value)
    | none => routineInputs inputs params env

def routineOutputs (outs : List ParamDecl) (env : ParameterMap) : ParameterMap :=
  env.assignAll (outs.map fun out => (out.name, primitiveDefault out.type.baseType))

def collectRoutineOutputs (qname : String) (env : ParameterMap) :
    List ParamDecl → M S FunctionResult
  | [] => pure []
  | out :: outs =>
    match env[out.name]? with
    | some value => do
      let values ← collectRoutineOutputs qname env outs
      pure (value :: values)
    | none =>
      Comp.throw <| .other <|
        "Inline routine '" ++ qname ++ "' did not set output: " ++ out.name

def runInlineRoutine (ctx : Context S) (h : Handlers S) (qname : String) (decl : RoutineDecl)
    (inputs : ParameterMap) : M S FunctionResult := do
  let env := routineOutputs decl.outputParams (routineInputs inputs decl.inputParams ∅)
  let (_, vars) ← StmtExecutor.executeBlock ctx h (.own env) decl.body
  collectRoutineOutputs qname (StructRoutine.ownMap vars env) decl.outputParams

/-- The two builtins make an error value of their message. -/
def errorBuiltin (isFatal : Bool) (params : ParameterMap) : M S FunctionResult :=
  match params["message"]? with
  | none => Comp.throw Exception.outOfRange
  | some (.string message) => pure [.error ⟨message, isFatal⟩]
  | some _ => Comp.throw Exception.badVariantAccess

/-- The body of a registered function. -/
def callFunction (ctx : Context S) (h : Handlers S) (fuel : Nat) (function : ExternalFunction)
    (params : ParameterMap) : M S FunctionResult :=
  match function with
  | .errorMsg => errorBuiltin false params
  | .fatalErrorMsg => errorBuiltin true params
  | .autotuner qname => do
    Comp.ask (.autotuner qname)
    match ctx.loadedAutotuners[qname]? with
    | some autotuner => run ctx h fuel autotuner params
    | none => Comp.throw (.other ("Autotuner not found for execution: " ++ qname))
  | .inlineRoutine qname => do
    Comp.ask (.routine qname)
    match ctx.routineDeclarations[qname]? with
    | some decl => runInlineRoutine ctx h qname decl params
    | none => Comp.throw (.other ("Inline routine not found in declarations: " ++ qname))
  | .foreign symbol => runHost (ctx.host.call symbol params)

def handlers (ctx : Context S) : Nat → Handlers S
  | 0 => {
      evaluate := fun _ _ => Comp.halt .outOfFuel
      execStructRoutine := fun _ _ _ _ => Comp.halt .outOfFuel
      callFunction := fun _ _ => Comp.halt .outOfFuel }
  | fuel + 1 => {
      evaluate := evaluate ctx (handlers ctx fuel)
      execStructRoutine := StructRoutine.execStructRoutine ctx (handlers ctx fuel)
      callFunction := callFunction ctx (handlers ctx fuel) fuel }

end Interpreter

end FalconLib.Dsl
