import FalconLib.Dsl.StmtExecutor

/-!
# Struct routines

`exec_struct_routine`: the fields of the receiver are copied into a map of their own,
the body runs on the map, and the map and the receiver are brought together again.
-/

namespace FalconLib.Dsl

open FalconLib.Base (Comp StdMap)
open ExprEvaluator (evaluate)

namespace StructRoutine

variable {S : Type}

def fieldOf (id : Nat) (name : String) : M S (Option RuntimeValue) :=
  Comp.gets fun w => w.heap.field? id name

/-! ## Routines of a shared library -/

/-- The parameters of a library routine by name; the receiver only if it is native. -/
def foreignParams (native : Bool) (receiver : Nat) (routine : RoutineDecl)
    (callArgs : List RuntimeValue) : ParameterMap :=
  let params := if native then StdMap.assign ∅ "this" (RuntimeValue.struct receiver) else ∅
  StdMap.assignAll params ((routine.inputParams.map (·.name)).zip callArgs)

def execForeign (ctx : Context S) (receiver : Nat) (decl : StructDecl) (routine : RoutineDecl)
    (callArgs : List RuntimeValue) : M S FunctionResult := do
  match ← ExprEvaluator.ffiMethodOrBase decl.name routine.name with
  | some method => do
    let object ← structAt receiver
    let native := (object.bind (·.nativeHandle)).isSome
    runHost (ctx.host.callMethod method (.struct receiver)
      (foreignParams native receiver routine callArgs))
  | none =>
    evaluationError ("Struct routine '" ++ routine.name ++ "' on type '" ++ decl.name ++
      "' has an empty body and no FFI implementation")

/-! ## The environment of the body -/

/-- The value a field is declared with. -/
def declaredValue (ctx : Context S) (h : Handlers S) (env : ParameterMap)
    (field : VarDeclStmt) : M S RuntimeValue :=
  match field.initializer with
  | some initializer => evaluate ctx h (.own env) initializer
  | none => pure (primitiveDefault field.type.baseType)

/-- The value the receiver has for a field, else the declared one. -/
def flattenedField (ctx : Context S) (h : Handlers S) (receiver : Nat) (env : ParameterMap)
    (field : VarDeclStmt) : M S RuntimeValue := do
  match ← fieldOf receiver field.name with
  | some value => pure value
  | none => declaredValue ctx h env field

def flattenFields (ctx : Context S) (h : Handlers S) (receiver : Nat) :
    List VarDeclStmt → ParameterMap → M S ParameterMap
  | [], env => pure env
  | field :: fields, env => do
    let value ← flattenedField ctx h receiver env field
    flattenFields ctx h receiver fields (env.assign field.name value)

/-- Parameters take the arguments by position, then their defaults. -/
def bindInputs (ctx : Context S) (h : Handlers S) (routineName : String) :
    List ParamDecl → List RuntimeValue → ParameterMap → M S ParameterMap
  | [], _, env => pure env
  | param :: params, value :: values, env =>
    bindInputs ctx h routineName params values (env.assign param.name value)
  | param :: params, [], env =>
    match param.defaultValue with
    | some default => do
      let value ← evaluate ctx h (.own env) default
      bindInputs ctx h routineName params [] (env.assign param.name value)
    | none =>
      evaluationError ("Missing argument for struct routine '" ++ routineName ++
        "' parameter: " ++ param.name)

def initialiseFields (ctx : Context S) (h : Handlers S) (env : ParameterMap) (id : Nat) :
    List VarDeclStmt → M S Unit
  | [] => pure ()
  | field :: fields => do
    let value ← declaredValue ctx h env field
    setField id field.name value
    initialiseFields ctx h env id fields

/-- A fresh instance for an output of a struct type. -/
def freshOutput (ctx : Context S) (h : Handlers S) (env : ParameterMap) (structName : String) :
    M S RuntimeValue := do
  let fresh ← makeStruct structName
  match ← lookupStruct structName with
  | some decl => do
    initialiseFields ctx h env fresh decl.fields
    pure (.struct fresh)
  | none => pure (.struct fresh)

/-- Outputs that are no structs stay unbound unless they have a default. -/
def initialiseOutputs (ctx : Context S) (h : Handlers S) :
    List ParamDecl → ParameterMap → M S ParameterMap
  | [], env => pure env
  | out :: outs, env =>
    if out.type.isStruct then do
      let value ← freshOutput ctx h env out.type.structName
      initialiseOutputs ctx h outs (env.assign out.name value)
    else
      match out.defaultValue with
      | some default => do
        let value ← evaluate ctx h (.own env) default
        initialiseOutputs ctx h outs (env.assign out.name value)
      | none => initialiseOutputs ctx h outs env

/-! ## After the body -/

/-- The fields that the receiver has are copied into the environment. -/
def syncFromReceiver (receiver : Nat) : List VarDeclStmt → ParameterMap → M S ParameterMap
  | [], env => pure env
  | field :: fields, env => do
    match ← fieldOf receiver field.name with
    | some value => syncFromReceiver receiver fields (env.assign field.name value)
    | none => syncFromReceiver receiver fields env

/-- The fields that the environment has are written to the receiver. -/
def writeBack (receiver : Nat) (env : ParameterMap) : List VarDeclStmt → M S Unit
  | [] => pure ()
  | field :: fields => do
    match env[field.name]? with
    | some value => do
      setField receiver field.name value
      writeBack receiver env fields
    | none => writeBack receiver env fields

def collectOutputs (routineName : String) (env : ParameterMap) :
    List ParamDecl → M S FunctionResult
  | [] => pure []
  | out :: outs =>
    match env[out.name]? with
    | some value => do
      let values ← collectOutputs routineName env outs
      pure (value :: values)
    | none =>
      evaluationError ("Struct routine '" ++ routineName ++ "' did not set output: " ++ out.name)

/-- The map that the body runs on. -/
def routineEnvironment (ctx : Context S) (h : Handlers S) (receiver : Nat) (decl : StructDecl)
    (routine : RoutineDecl) (callArgs : List RuntimeValue) : M S ParameterMap := do
  let env ← flattenFields ctx h receiver decl.fields (StdMap.assign ∅ "this" (.struct receiver))
  let env ← bindInputs ctx h routine.name routine.inputParams callArgs env
  initialiseOutputs ctx h routine.outputParams env

/-- What happens once the body has left `env`. -/
def finish (receiver : Nat) (decl : StructDecl) (routine : RoutineDecl) (env : ParameterMap) :
    M S FunctionResult := do
  let env ← syncFromReceiver receiver decl.fields env
  writeBack receiver env decl.fields
  collectOutputs routine.name env routine.outputParams

/-- The map of the routine after `executeBlock`. -/
def ownMap (vars : Variables) (env : ParameterMap) : ParameterMap :=
  match vars with
  | .own map => map
  | .member => env

def execStructRoutine (ctx : Context S) (h : Handlers S) (receiver : Nat) (decl : StructDecl)
    (routine : RoutineDecl) (callArgs : List RuntimeValue) : M S FunctionResult := do
  if routine.body.isEmpty then execForeign ctx receiver decl routine callArgs
  else do
    let env ← routineEnvironment ctx h receiver decl routine callArgs
    let (_, vars) ← StmtExecutor.executeBlock ctx h (.own env) routine.body
    finish receiver decl routine (ownMap vars env)

end StructRoutine

end FalconLib.Dsl
