import FalconLib.Base.Binary64

/-!
# Syntax trees

The trees the compiler hands to the interpreter. A list node owns its children,
as the source's unique pointers do. `ExprInfo` and `Location` are what the parser
writes next to a node; the interpreter reads both.
-/

namespace FalconLib.Dsl

open FalconLib.Base (Binary64)

inductive ParamType where
  | int | float | bool | string | error | nil | tuple | void | union | struct | array
deriving DecidableEq, Repr

def ParamType.toString : ParamType → String
  | .int => "int"
  | .float => "float"
  | .bool => "bool"
  | .string => "string"
  | .error => "Error"
  | .nil => "nil"
  | .tuple => "tuple"
  | .void => "void"
  | .struct => "struct"
  | .array => "Array"
  | .union => "<unknown>"

/-- A type as written. `structName` of a generic instance is its canonical name,
such as `Box<int>`. -/
structure TypeDescriptor where
  baseType : ParamType
  tupleElements : List TypeDescriptor := []
  errorVariant : String := ""
  unionTypes : List TypeDescriptor := []
  structName : String := ""
  typeArgs : List TypeDescriptor := []
  elementType : Option TypeDescriptor := none

namespace TypeDescriptor

mutual

def toString : TypeDescriptor → String
  | ⟨baseType, tupleElements, errorVariant, unionTypes, structName, _, elementType⟩ =>
    match baseType with
    | .union => "(" ++ " | ".intercalate (toStrings unionTypes) ++ ")"
    | .tuple => "(" ++ ", ".intercalate (toStrings tupleElements) ++ ")"
    | .error => if errorVariant ≠ "" then errorVariant else ParamType.toString .error
    | .struct => structName
    | .array =>
      match elementType with
      | some element => "Array<" ++ toString element ++ ">"
      | none => "Array<?>"
    | base => base.toString

def toStrings : List TypeDescriptor → List String
  | [] => []
  | type :: types => toString type :: toStrings types

end

mutual

/-- `operator==`. -/
def equals : TypeDescriptor → TypeDescriptor → Bool
  | ⟨baseType, tupleElements, _, unionTypes, structName, _, elementType⟩, other =>
    baseType == other.baseType &&
      match baseType with
      | .struct => structName == other.structName
      | .union => equalsAll unionTypes other.unionTypes
      | .tuple => equalsAll tupleElements other.tupleElements
      | .array =>
        match elementType, other.elementType with
        | some element, some otherElement => equals element otherElement
        | none, none => true
        | _, _ => false
      | _ => true

def equalsAll : List TypeDescriptor → List TypeDescriptor → Bool
  | [], [] => true
  | type :: types, other :: others => equals type other && equalsAll types others
  | _, _ => false

end

def ofParamType (type : ParamType) : TypeDescriptor := { baseType := type }

def isStruct (type : TypeDescriptor) : Bool := type.baseType == .struct

def isGenericStruct (type : TypeDescriptor) : Bool := type.isStruct && !type.typeArgs.isEmpty

/-- A struct without type arguments. -/
def makeStruct (name : String) : TypeDescriptor := { baseType := .struct, structName := name }

/-- The name of a generic struct applied to arguments, such as `Box<int,float>`. -/
def instanceName (baseName : String) (args : List TypeDescriptor) : String :=
  baseName ++ "<" ++ ",".intercalate (toStrings args) ++ ">"

def makeGenericStruct (baseName : String) (args : List TypeDescriptor) : TypeDescriptor :=
  { baseType := .struct, typeArgs := args, structName := instanceName baseName args }

end TypeDescriptor

structure Location where
  filename : String := ""
  line : Int := 0
  column : Int := 0
deriving DecidableEq, Repr

structure ExprInfo where
  inferredType : Option TypeDescriptor := none
  location : Location := {}

/-- What `copy_location_to` copies: the location, not the type annotation. -/
def ExprInfo.clone (info : ExprInfo) : ExprInfo := { location := info.location }

inductive Literal where
  | int (value : Int64)
  | float (value : Binary64)
  | bool (value : Bool)
  | string (value : String)
deriving DecidableEq

/-- A call argument is a pair of an optional name and its expression. -/
inductive Expr where
  | literal (info : ExprInfo) (value : Literal)
  | nilLiteral (info : ExprInfo)
  | var (info : ExprInfo) (name : String)
  | binary (info : ExprInfo) (op : String) (left right : Expr)
  | unary (info : ExprInfo) (op : String) (operand : Expr)
  | member (info : ExprInfo) (object : Expr) (member : String)
  | methodCall (info : ExprInfo) (object : Expr) (methodName : String) (args : List Expr)
  | index (info : ExprInfo) (object index : Expr)
  | call (info : ExprInfo) (name : String) (arguments : List (Option String × Expr))

abbrev CallArg := Option String × Expr

namespace Expr

def info : Expr → ExprInfo
  | literal info _ | nilLiteral info | var info _ | binary info _ _ _ | unary info _ _
  | member info _ _ | methodCall info _ _ _ | index info _ _ | call info _ _ => info

/-- The tree with its root's annotations replaced. -/
def withInfo (new : ExprInfo) : Expr → Expr
  | literal _ value => literal new value
  | nilLiteral _ => nilLiteral new
  | var _ name => var new name
  | binary _ op left right => binary new op left right
  | unary _ op operand => unary new op operand
  | member _ object name => member new object name
  | methodCall _ object methodName args => methodCall new object methodName args
  | index _ object i => index new object i
  | call _ name arguments => call new name arguments

/-- The assignment `expr->inferred_type = type`. -/
def setInferredType (type : TypeDescriptor) (expr : Expr) : Expr :=
  expr.withInfo { expr.info with inferredType := some type }

mutual

def clone : Expr → Expr
  | literal info value => literal info.clone value
  | nilLiteral info => nilLiteral info.clone
  | var info name => var info.clone name
  | binary info op left right => binary info.clone op left.clone right.clone
  | unary info op operand => unary info.clone op operand.clone
  | member info object name => member info.clone object.clone name
  | methodCall info object methodName args =>
    methodCall info.clone object.clone methodName (cloneList args)
  | index info object i => index info.clone object.clone i.clone
  | call info name arguments => call info.clone name (cloneArgs arguments)

def cloneList : List Expr → List Expr
  | [] => []
  | expr :: exprs => expr.clone :: cloneList exprs

def cloneArgs : List (Option String × Expr) → List (Option String × Expr)
  | [] => []
  | (name, value) :: arguments => (name, value.clone) :: cloneArgs arguments

end

end Expr

/-- A declaration, also used for the fields of a struct. -/
structure VarDeclStmt where
  location : Location := {}
  type : TypeDescriptor
  name : String
  initializer : Option Expr := none

/-- A statement of this kind is cloned without its location. -/
def VarDeclStmt.clone (stmt : VarDeclStmt) : VarDeclStmt :=
  { type := stmt.type, name := stmt.name, initializer := stmt.initializer.map Expr.clone }

/-- A plain variable, or with `fieldName` set a field of `object`. -/
structure AssignTarget where
  variableName : String := ""
  object : Option Expr := none
  fieldName : String := ""

namespace AssignTarget

def isFieldTarget (target : AssignTarget) : Bool := target.fieldName != ""

def clone (target : AssignTarget) : AssignTarget :=
  if target.isFieldTarget then
    { object := target.object.map Expr.clone, fieldName := target.fieldName }
  else { variableName := target.variableName }

end AssignTarget

inductive Stmt where
  | varDecl (stmt : VarDeclStmt)
  | assign (location : Location) (targets : List AssignTarget) (value : Expr)
  | structFieldAssign (location : Location) (object : Expr) (field : String) (value : Expr)
  | expr (location : Location) (expression : Expr)
  | ifStmt (location : Location) (condition : Expr) (thenBody elseBody : List Stmt)
  | transition (location : Location) (targetState : String) (parameters : List Expr)
  | terminal (location : Location)

namespace Stmt

def location : Stmt → Location
  | varDecl stmt => stmt.location
  | assign location _ _ | structFieldAssign location _ _ _ | expr location _
  | ifStmt location _ _ _ | transition location _ _ | terminal location => location

mutual

/-- No statement copies its own location. -/
def clone : Stmt → Stmt
  | varDecl stmt => varDecl stmt.clone
  | assign _ targets value => assign {} (targets.map AssignTarget.clone) value.clone
  | structFieldAssign _ object field value =>
    structFieldAssign {} object.clone field value.clone
  | expr _ expression => expr {} expression.clone
  | ifStmt _ condition thenBody elseBody =>
    ifStmt {} condition.clone (cloneList thenBody) (cloneList elseBody)
  | transition _ targetState parameters =>
    transition {} targetState (Expr.cloneList parameters)
  | terminal _ => terminal {}

def cloneList : List Stmt → List Stmt
  | [] => []
  | stmt :: stmts => stmt.clone :: cloneList stmts

end

end Stmt

structure ParamDecl where
  type : TypeDescriptor
  name : String
  defaultValue : Option Expr := none

structure StateDecl where
  name : String
  inputParameters : List ParamDecl := []
  body : List Stmt := []

structure AutotunerDecl where
  name : String
  moduleName : String := ""
  inputParams : List ParamDecl
  outputParams : List ParamDecl
  autotunerVariables : List Stmt
  entryState : String
  entryParameters : List Expr
  states : List StateDecl

structure RoutineDecl where
  name : String
  moduleName : String := ""
  inputParams : List ParamDecl
  outputParams : List ParamDecl
  body : List Stmt := []

structure StructDecl where
  name : String
  moduleName : String := ""
  genericParams : List String := []
  fields : List VarDeclStmt
  routines : List RoutineDecl

namespace StructDecl

def isGeneric (decl : StructDecl) : Bool := !decl.genericParams.isEmpty

def findRoutine (decl : StructDecl) (name : String) : Option RoutineDecl :=
  decl.routines.find? fun routine => routine.name == name

end StructDecl

structure FFImportDecl where
  wrapperFile : String
  imports : List String := []
  buildLibs : List String := []

structure Program where
  moduleName : String := ""
  structs : List StructDecl := []
  autotuners : List AutotunerDecl := []
  routines : List RoutineDecl := []
  imports : List String := []
  ffImports : List FFImportDecl := []

structure ParamSpec where
  name : String
  type : TypeDescriptor
  required : Bool := true

structure BuiltinSignature where
  qualifiedName : String
  parameters : List ParamSpec
  returnParams : List ParamSpec

end FalconLib.Dsl
