import FalconLib.Dsl.Generics
import FalconLib.Dsl.Operators
import FalconLib.Dsl.World

/-!
# Evaluation of expressions

`evaluate` follows the syntax tree. What leaves the tree (a registered function, a
struct routine, the initialiser of a field) goes through the handlers.
-/

namespace FalconLib.Dsl

open FalconLib.Base (Comp StdMap)

namespace ExprEvaluator

variable {S : Type}

/-! ## Variables and members -/

/-- A qualified name that is not bound is tried again without its module. -/
def evalVariable (vars : Variables) (name : String) : M S RuntimeValue := do
  let map ← Comp.gets vars.read
  match map[name]? with
  | some value => pure value
  | none =>
    if isQualified name then
      match map[stripModulePrefix name]? with
      | some value => pure value
      | none => evaluationError ("Undefined variable: " ++ name)
    else evaluationError ("Undefined variable: " ++ name)

/-- `get_field` on a mutable instance: a missing field springs into being. -/
def getField (id : Nat) (name : String) : M S RuntimeValue := do
  let heap ← getHeap
  match heap.field? id name with
  | some value => pure value
  | none => do
    setField id name RuntimeValue.unset
    pure RuntimeValue.unset

def evalMember (object : RuntimeValue) (member : String) : M S RuntimeValue := do
  match object with
  | .struct id =>
    match ← structAt id with
    | some _ => getField id member
    | none => evaluationError "StructInstance is nullptr"
  | object => do
    let heap ← getHeap
    evaluationError ("Member access not yet implemented for type '" ++
      getRuntimeTypeName heap object ++ "': " ++ member)

/-! ## Struct receivers -/

/-- The instance of a generic struct, from the cache under its name if it is there. -/
def monomorphizeStruct (base : StructDecl) (typeArgs : List TypeDescriptor) :
    M S StructDecl := do
  let monoName := TypeDescriptor.instanceName base.name typeArgs
  match ← registeredStruct monoName with
  | some decl => pure decl
  | none => do
    Comp.ask (.instantiation base typeArgs)
    match monomorphize base monoName typeArgs with
    | .ok decl => do
      Comp.modify fun w => { w with types := w.types.registerMonomorphizedStruct monoName decl }
      pure decl
    | .error e => Comp.throw e

/-- The name to look up for a receiver `name`, and the type arguments injected by a
declaration `Box<int> b = ...` through the annotation of the call. -/
def injectedReceiver (info : ExprInfo) (name : String) : String × List TypeDescriptor :=
  match info.inferredType with
  | some type =>
    if type.isGenericStruct then ((genericBase type.structName).getD name, type.typeArgs)
    else (name, [])
  | none => (name, [])

/-- A qualified name that is no struct is tried again without its module. -/
def lookupReceiver (lookupName : String) : M S (Option StructDecl) := do
  match ← lookupStruct lookupName with
  | some decl => pure (some decl)
  | none =>
    if isQualified lookupName then lookupStruct (stripModulePrefix lookupName) else pure none

/-- The struct that a receiver stands for when it is a name, and no variable has it. -/
def staticReceiver (vars : Variables) (info : ExprInfo) (receiver : Expr) :
    M S (Option (StructDecl × List TypeDescriptor)) := do
  match receiver with
  | .var _ name =>
    let (lookupName, typeArgs) := injectedReceiver info name
    let found ← lookupReceiver lookupName
    let map ← Comp.gets vars.read
    match found with
    | some decl =>
      if map[name]?.isNone && map[stripModulePrefix name]?.isNone then
        pure (some (decl, typeArgs))
      else pure none
    | none => pure none
  | _ => pure none

/-- A generic struct is instantiated with the injected arguments, if there are any. -/
def instantiate (decl : StructDecl) (typeArgs : List TypeDescriptor) : M S StructDecl :=
  if decl.isGeneric && !typeArgs.isEmpty then monomorphizeStruct decl typeArgs else pure decl

/-- The value of a field of a static receiver; its initialiser sees the variables of
the caller. -/
def receiverField (h : Handlers S) (vars : Variables) (field : VarDeclStmt) :
    M S RuntimeValue :=
  match field.initializer with
  | some initializer => h.evaluate vars initializer
  | none =>
    match field.type.baseType with
    | .struct => do
      let id ← makeStruct field.type.structName
      pure (.struct id)
    | baseType => pure (primitiveDefault baseType)

def fillReceiver (h : Handlers S) (vars : Variables) (receiver : Nat) :
    List VarDeclStmt → M S Unit
  | [] => pure ()
  | field :: fields => do
    let value ← receiverField h vars field
    setField receiver field.name value
    fillReceiver h vars receiver fields

/-- A fresh receiver for a static call. -/
def constructReceiver (h : Handlers S) (vars : Variables) (decl : StructDecl) : M S Nat := do
  let receiver ← makeStruct decl.name
  fillReceiver h vars receiver decl.fields
  pure receiver

def unknownRoutine {α : Type} (methodName typeName : String) : M S α :=
  evaluationError ("Unknown struct routine '" ++ methodName ++ "' on type '" ++ typeName ++ "'")

def callStatic (h : Handlers S) (vars : Variables) (decl : StructDecl)
    (typeArgs : List TypeDescriptor) (methodName : String) (args : M S (List RuntimeValue)) :
    M S RuntimeValue := do
  let decl ← instantiate decl typeArgs
  match decl.findRoutine methodName with
  | none => unknownRoutine methodName decl.name
  | some routine => do
    let receiver ← constructReceiver h vars decl
    let callArgs ← args
    let outputs ← h.execStructRoutine receiver decl routine callArgs
    packResult outputs

/-- `arg0`, `arg1` and so on, for the methods of built-in types. -/
def positionalParams (args : List RuntimeValue) : ParameterMap :=
  StdMap.assignAll ∅ (args.zipIdx.map fun arg => ("arg" ++ toString arg.2, arg.1))

def callOnValue (ctx : Context S) (h : Handlers S) (object : RuntimeValue) (methodName : String)
    (args : M S (List RuntimeValue)) : M S RuntimeValue := do
  match object with
  | .struct id =>
    match ← structAt id with
    | none => evaluationError "StructInstance is nullptr"
    | some object =>
      match ← lookupStruct object.typeName with
      | none => evaluationError ("No struct declaration found for type: " ++ object.typeName)
      | some decl =>
        match decl.findRoutine methodName with
        | none => unknownRoutine methodName object.typeName
        | some routine => do
          let callArgs ← args
          let outputs ← h.execStructRoutine id decl routine callArgs
          packResult outputs
  | object => do
    let heap ← getHeap
    let typeName := getRuntimeTypeName heap object
    match ← lookupMethod typeName methodName with
    | none =>
      evaluationError ("Unknown method '" ++ methodName ++ "' for type '" ++ typeName ++ "'")
    | some method => do
      let argValues ← args
      let result ← runHost (ctx.host.callMethod method object (positionalParams argValues))
      packResult result

/-- A call on a receiver that is a name is static if the name is that of a struct. -/
def evalMethodCall (ctx : Context S) (h : Handlers S) (vars : Variables) (info : ExprInfo)
    (receiver : Expr) (methodName : String) (object : M S RuntimeValue)
    (args : M S (List RuntimeValue)) : M S RuntimeValue := do
  match ← staticReceiver vars info receiver with
  | some (decl, typeArgs) => callStatic h vars decl typeArgs methodName args
  | none => do
    let object ← object
    callOnValue ctx h object methodName args

/-! ## Indexing -/

/-- The library method of a struct or, failing that, of the generic struct it instantiates. -/
def ffiMethodOrBase (typeName methodName : String) : M S (Option ForeignSymbol) := do
  match ← lookupFfiMethod typeName methodName with
  | some method => pure (some method)
  | none =>
    match genericBase typeName with
    | some base => lookupFfiMethod base methodName
    | none => pure none

def indexForeign (ctx : Context S) (id : Nat) (typeName : String) (index : RuntimeValue) :
    M S RuntimeValue := do
  match ← ffiMethodOrBase typeName "GetIndex" with
  | some method => do
    let params := (StdMap.assign ∅ "this" (RuntimeValue.struct id)).assign "index" index
    let result ← runHost (ctx.host.callMethod method (.struct id) params)
    packResult result
  | none =>
    evaluationError ("Type '" ++ typeName ++ "' does not support indexing (no GetIndex routine)")

def indexStruct (ctx : Context S) (h : Handlers S) (id : Nat) (typeName : String)
    (index : RuntimeValue) : M S RuntimeValue := do
  match ← lookupStruct typeName with
  | some decl =>
    match decl.findRoutine "GetIndex" with
    | some routine => do
      let outputs ← h.execStructRoutine id decl routine [index]
      packResult outputs
    | none => indexForeign ctx id typeName index
  | none => indexForeign ctx id typeName index

def indexArray (array : ArrayValue) (index : RuntimeValue) : M S RuntimeValue := do
  match index with
  | .int i =>
    if i.toInt < 0 then
      evaluationError ("Array index must be non-negative, got: " ++ toString i.toInt)
    else
      match array.elements[i.toInt.toNat]? with
      | some value => pure value
      | none =>
        evaluationError ("Array index out of bounds: " ++ toString i.toInt ++
          " (size=" ++ toString array.elements.length ++ ")")
  | index => do
    let heap ← getHeap
    evaluationError ("Array index must be an integer, got: " ++ getRuntimeTypeName heap index)

def evalIndex (ctx : Context S) (h : Handlers S) (object index : RuntimeValue) :
    M S RuntimeValue := do
  match object with
  | .struct id =>
    match ← structAt id with
    | some object => indexStruct ctx h id object.typeName index
    | none => evaluationError "Cannot index into a nil struct"
  | .array id => do
    let heap ← getHeap
    match heap.arrays[id]? with
    | some array => indexArray array index
    | none => evaluationError "Cannot index into a nil Array"
  | object => do
    let heap ← getHeap
    evaluationError ("Indexing not supported for type: " ++ getRuntimeTypeName heap object)

/-! ## Calls of registered functions -/

/-- The function a name stands for, with the spelling it was found under: the name as
written, or without its module. -/
def resolveFunction (ctx : Context S) (name : String) :
    M S (String × ExternalFunction) := do
  Comp.ask (.function name)
  match ctx.functions.lookup name with
  | some function => pure (name, function)
  | none =>
    if isQualified name then do
      Comp.ask (.function (stripModulePrefix name))
      match ctx.functions.lookup (stripModulePrefix name) with
      | some function => pure (stripModulePrefix name, function)
      | none => evaluationError ("Unknown function: " ++ name)
    else evaluationError ("Unknown function: " ++ name)

def signatureOf (ctx : Context S) (resolvedName name : String) : M S BuiltinSignature := do
  Comp.ask (.function resolvedName)
  match ctx.functions.getSignature resolvedName with
  | some sig => pure sig
  | none => evaluationError ("No signature found for function: " ++ name)

/-- The argument of a parameter: the first with its name, else the first positional
one that is not taken yet. -/
def findArgument {α : Type} (args : List (Option String × α)) (assigned : List Nat)
    (paramName : String) : Option ((Option String × α) × Nat) :=
  match args.zipIdx.find? fun arg => arg.1.1 == some paramName with
  | some arg => some arg
  | none => args.zipIdx.find? fun arg => arg.1.1.isNone && !assigned.contains arg.2

/-- One of the two loops over the parameters: over the required ones, where a missing
argument is an error, or over the others, where it counts as nil. -/
def bindParameters (args : List (Option String × M S RuntimeValue)) (required : Bool) :
    List ParamSpec → ParameterMap → List Nat → M S (ParameterMap × List Nat)
  | [], params, assigned => pure (params, assigned)
  | spec :: specs, params, assigned =>
    if spec.required != required then bindParameters args required specs params assigned
    else
      match findArgument args assigned spec.name with
      | some ((_, argument), i) => do
        let value ← argument
        bindParameters args required specs (params.assign spec.name value) (i :: assigned)
      | none =>
        if required then evaluationError ("Missing required argument: " ++ spec.name)
        else bindParameters args required specs (params.assign spec.name .nil) assigned

def bindArguments (sig : BuiltinSignature) (args : List (Option String × M S RuntimeValue)) :
    M S ParameterMap := do
  let (params, assigned) ← bindParameters args true sig.parameters ∅ []
  let (params, _) ← bindParameters args false sig.parameters params assigned
  pure params

def evalCall (ctx : Context S) (h : Handlers S) (name : String)
    (args : List (Option String × M S RuntimeValue)) : M S RuntimeValue := do
  let (resolvedName, function) ← resolveFunction ctx name
  let sig ← signatureOf ctx resolvedName name
  let params ← bindArguments sig args
  let result ← h.callFunction function params
  packResult result

/-! ## The evaluator -/

mutual

def evaluate (ctx : Context S) (h : Handlers S) (vars : Variables) : Expr → M S RuntimeValue
  | .literal _ value => pure (RuntimeValue.ofLiteral value)
  | .nilLiteral _ => pure .nil
  | .var _ name => evalVariable vars name
  | .binary _ op left right => do
    let left ← evaluate ctx h vars left
    let right ← evaluate ctx h vars right
    let heap ← getHeap
    Comp.ofOutcome (applyBinaryOp heap op left right)
  | .unary _ op operand => do
    let operand ← evaluate ctx h vars operand
    Comp.ofOutcome (applyUnaryOp op operand)
  | .member _ object member => do
    let object ← evaluate ctx h vars object
    evalMember object member
  | .methodCall info object methodName args =>
    evalMethodCall ctx h vars info object methodName (evaluate ctx h vars object)
      (evaluateList ctx h vars args)
  | .index _ object index => do
    let object ← evaluate ctx h vars object
    let index ← evaluate ctx h vars index
    evalIndex ctx h object index
  | .call _ name arguments => evalCall ctx h name (argumentThunks ctx h vars arguments)

def evaluateList (ctx : Context S) (h : Handlers S) (vars : Variables) :
    List Expr → M S (List RuntimeValue)
  | [] => pure []
  | expr :: exprs => do
    let value ← evaluate ctx h vars expr
    let values ← evaluateList ctx h vars exprs
    pure (value :: values)

/-- The arguments of a call, not evaluated yet. -/
def argumentThunks (ctx : Context S) (h : Handlers S) (vars : Variables) :
    List (Option String × Expr) → List (Option String × M S RuntimeValue)
  | [] => []
  | (name, value) :: arguments =>
    (name, evaluate ctx h vars value) :: argumentThunks ctx h vars arguments

end

end ExprEvaluator

end FalconLib.Dsl
