import FalconLib.Dsl.ExprEvaluator

/-!
# Execution of statements

A statement returns the control flow and the variables it leaves. An exception of a
statement is wrapped with the place it came from.
-/

namespace FalconLib.Dsl

open FalconLib.Base (Comp StdMap)
open ExprEvaluator (evaluate evaluateList)

namespace StmtExecutor

variable {S : Type}

/-- `execute_with_context`. -/
def executeWithContext {α : Type} (ctx : Context S) (location : Location) (m : M S α) : M S α :=
  m.tryCatch fun e => Comp.throw (SourceContext.wrap ctx.sources location e)

/-- `variables_[name] = value`. -/
def assignVariable (vars : Variables) (name : String) (value : RuntimeValue) :
    M S Variables := do
  let map ← Comp.gets vars.read
  vars.write (map.assign name value)

/-! ## Declarations -/

/-- The value of a variable declared without initialiser. -/
def defaultInitial (stmt : VarDeclStmt) : M S RuntimeValue := do
  match stmt.type.baseType with
  | .int | .float | .bool | .string | .error => pure (primitiveDefault stmt.type.baseType)
  | .array => do
    let id ← makeStruct <|
      match stmt.type.elementType with
      | some element => "Array<" ++ element.toString ++ ">"
      | none => "Array"
    pure (.struct id)
  | .struct => do
    let id ← makeStruct stmt.type.structName
    pure (.struct id)
  | _ =>
    evaluationError ("Type '" ++ stmt.type.toString ++
      "' requires explicit initialization for variable: " ++ stmt.name)

/-- A declaration with a generic type marks its initialiser with that type. -/
def markedInitializer (type : TypeDescriptor) (initializer : Expr) : Expr :=
  if type.isGenericStruct then initializer.setInferredType type else initializer

def initialValue (ctx : Context S) (h : Handlers S) (vars : Variables) (stmt : VarDeclStmt) :
    M S RuntimeValue :=
  match stmt.initializer with
  | some initializer => evaluate ctx h vars (markedInitializer stmt.type initializer)
  | none => defaultInitial stmt

def execVarDecl (ctx : Context S) (h : Handlers S) (vars : Variables) (stmt : VarDeclStmt) :
    M S Variables := do
  let value ← initialValue ctx h vars stmt
  assignVariable vars stmt.name value

/-! ## Assignments -/

/-- The instance behind a variable that a field assignment goes through. -/
def structVariable (vars : Variables) (name undefinedMessage : String)
    (notStruct : Exception) : M S Nat := do
  let map ← Comp.gets vars.read
  match map[name]? with
  | none => evaluationError (undefinedMessage ++ name)
  | some (.struct id) =>
    match ← structAt id with
    | some _ => pure id
    | none => evaluationError ("Struct variable '" ++ name ++ "' is nullptr")
  | some _ => Comp.throw notStruct

def undefinedStruct : String := "Undefined struct variable: "

/-- A field target inside a tuple assignment. -/
def assignFieldTarget (ctx : Context S) (h : Handlers S) (vars : Variables) (object : Expr)
    (fieldName : String) (value : M S RuntimeValue) : M S Unit := do
  match ← evaluate ctx h vars object with
  | .struct _ =>
    match object with
    | .var _ name => do
      let id ← structVariable vars name undefinedStruct Exception.badVariantAccess
      let value ← value
      setField id fieldName value
    | _ =>
      evaluationError "Complex struct field assignment targets not yet supported in tuple context"
  | _ => evaluationError "Field assignment target is not a struct"

/-- `tuplePtr->values[i]`. -/
def tupleValue (id i : Nat) : M S RuntimeValue := do
  let heap ← getHeap
  match heap.tuples[id]?.bind fun values => values[i]? with
  | some value => pure value
  | none => Comp.halt .undefinedBehaviour

def assignTupleTarget (ctx : Context S) (h : Handlers S) (id i : Nat) (target : AssignTarget)
    (vars : Variables) : M S Variables := do
  if target.isFieldTarget then
    match target.object with
    | some object => do
      assignFieldTarget ctx h vars object target.fieldName (tupleValue id i)
      pure vars
    | none => Comp.halt .undefinedBehaviour
  else do
    let value ← tupleValue id i
    assignVariable vars target.variableName value

def assignTupleTargets (ctx : Context S) (h : Handlers S) (id : Nat) :
    List AssignTarget → Nat → Variables → M S Variables
  | [], _, vars => pure vars
  | target :: targets, i, vars => do
    let vars ← assignTupleTarget ctx h id i target vars
    assignTupleTargets ctx h id targets (i + 1) vars

def assignTuple (ctx : Context S) (h : Handlers S) (vars : Variables)
    (targets : List AssignTarget) (value : RuntimeValue) : M S Variables := do
  let heap ← getHeap
  match value with
  | .tuple id =>
    match heap.tuples[id]? with
    | none => evaluationError "Tuple assignment returned nullptr"
    | some values =>
      if values.length = targets.length then assignTupleTargets ctx h id targets 0 vars
      else
        evaluationError ("Tuple assignment size mismatch: expected " ++
          toString targets.length ++ " values, got " ++ toString values.length)
  | value =>
    evaluationError ("Tuple assignment requires function to return tuple, got " ++
      getRuntimeTypeName heap value)

def assignSingle (vars : Variables) (target : AssignTarget) (value : RuntimeValue) :
    M S Variables := do
  if target.isFieldTarget then
    match target.object with
    | some (.var _ name) => do
      let id ← structVariable vars name undefinedStruct Exception.badVariantAccess
      setField id target.fieldName value
      pure vars
    | _ => evaluationError "Complex struct field assignment not supported"
  else assignVariable vars target.variableName value

/-- The parser never leaves the targets empty. -/
def execAssign (ctx : Context S) (h : Handlers S) (vars : Variables)
    (targets : List AssignTarget) (value : Expr) : M S Variables := do
  let value ← evaluate ctx h vars value
  match targets with
  | [] => Comp.halt .undefinedBehaviour
  | [target] => assignSingle vars target value
  | targets => assignTuple ctx h vars targets value

/-- The variable named like the field, if there is one, is overwritten as well: inside
a struct routine it is the flat copy of the field. -/
def syncFlatCopy (vars : Variables) (field : String) (value : RuntimeValue) :
    M S Variables := do
  let map ← Comp.gets vars.read
  match map[field]? with
  | some _ => vars.write (map.assign field value)
  | none => pure vars

def execStructFieldAssign (ctx : Context S) (h : Handlers S) (vars : Variables) (object : Expr)
    (field : String) (value : Expr) : M S Variables := do
  let value ← evaluate ctx h vars value
  match object with
  | .var _ name => do
    let id ← structVariable vars name "Undefined variable in struct field assignment: "
      (.evaluation ("Variable '" ++ name ++ "' is not a struct instance"))
    setField id field value
    syncFlatCopy vars field value
  | _ => evaluationError "Struct field assignment requires a variable as the object"

/-! ## The executor -/

/-- A statement that goes on to the next one. -/
def goOn (m : M S Variables) : M S (ControlFlow × Variables) := do
  let vars ← m
  pure (.none, vars)

mutual

def execute (ctx : Context S) (h : Handlers S) (vars : Variables) :
    Stmt → M S (ControlFlow × Variables)
  | .varDecl stmt =>
    executeWithContext ctx stmt.location (goOn (execVarDecl ctx h vars stmt))
  | .assign location targets value =>
    executeWithContext ctx location (goOn (execAssign ctx h vars targets value))
  | .structFieldAssign location object field value =>
    executeWithContext ctx location
      (goOn (execStructFieldAssign ctx h vars object field value))
  | .expr location expression =>
    executeWithContext ctx location do
      let _ ← evaluate ctx h vars expression
      pure (.none, vars)
  | .ifStmt location condition thenBody elseBody =>
    executeWithContext ctx location do
      match ← evaluate ctx h vars condition with
      | .bool true => executeBlock ctx h vars thenBody
      | .bool false => executeBlock ctx h vars elseBody
      | _ => evaluationError "If condition must evaluate to boolean"
  | .transition location targetState parameters =>
    executeWithContext ctx location do
      let values ← evaluateList ctx h vars parameters
      pure (.transition targetState values, vars)
  | .terminal location => executeWithContext ctx location (pure (.terminal, vars))

/-- Statements run until one changes the control flow. -/
def executeBlock (ctx : Context S) (h : Handlers S) (vars : Variables) :
    List Stmt → M S (ControlFlow × Variables)
  | [] => pure (.none, vars)
  | stmt :: stmts => do
    let (flow, vars) ← execute ctx h vars stmt
    match flow with
    | .none => executeBlock ctx h vars stmts
    | flow => pure (flow, vars)

end

end StmtExecutor

end FalconLib.Dsl
