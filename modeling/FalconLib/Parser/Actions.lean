import FalconLib.Base.Computation
import FalconLib.Parser.Scope

/-!
# The actions of the grammar

The actions run from left to right, each once its symbols are read. A text that leaves
the grammar runs those before the place where it does. `YYABORT` and the end of such a
text are exceptions; a report after which the action goes on is asked as a question.
-/

namespace FalconLib.Parser

open FalconLib.Base (Comp)
open FalconLib.Dsl

structure ParseError where
  span : Span
  message : String
deriving DecidableEq

inductive Rejection where
  | aborted
  | stopped
deriving DecidableEq

/-- `stop` is the number of actions left to a text that leaves the grammar. -/
structure Session where
  tables : Tables
  filename : String
  errors : List ParseError := []
  stop : Option Nat := none

abbrev Parse : Type → Type := Comp ParseError Rejection Session

/-! ## Steps -/

def getTables : Parse Tables := Comp.gets Session.tables

def modifyTables (f : Tables → Tables) : Parse Unit :=
  Comp.modify fun s => { s with tables := f s.tables }

/-- What precedes every action that deals with the tables. -/
def action : Parse Unit := do
  match ← Comp.gets Session.stop with
  | none => pure ()
  | some 0 => Comp.throw .stopped
  | some (n + 1) => Comp.modify fun s => { s with stop := some n }

def update (f : Tables → Tables) : Parse Unit := do
  action
  modifyTables f

/-- `Parser::error`. -/
def error (span : Span) (message : String) : Parse Unit :=
  Comp.modify fun s => { s with errors := s.errors ++ [⟨span, message⟩] }

/-- `error` in an action that goes on. -/
def report (span : Span) (message : String) : Parse Unit := do
  Comp.ask ⟨span, message⟩
  error span message

/-- `error` followed by `YYABORT`. -/
def abort {α : Type} (span : Span) (message : String) : Parse α := do
  error span message
  Comp.throw .aborted

/-- `set_stmt_location`. -/
def locate (span : Span) : Parse Location :=
  Comp.gets fun s =>
    { filename := s.filename, line := span.firstLine, column := span.firstColumn }

/-! ## Types and parameters -/

/-- The base name must be known; the number of arguments is checked against a
declaration that this process has parsed. -/
def genericStruct (span : Span) (name : String) (args : List TypeDescriptor) :
    Parse TypeDescriptor := do
  action
  let tables ← getTables
  if name ∈ tables.structKnownTypes then
    match tables.structGenericParamsMap[name]? with
    | none => pure (TypeDescriptor.makeGenericStruct name args)
    | some params =>
      if args.length = params.length then pure (TypeDescriptor.makeGenericStruct name args)
      else
        abort span ("Struct '" ++ name ++ "' expects " ++ toString params.length ++
          " type argument(s) but got " ++ toString args.length)
  else abort span ("Unknown struct type '" ++ name ++ "'")

def namedType (span : Span) (name : String) : Parse TypeDescriptor := do
  action
  let tables ← getTables
  if name ∈ tables.currentGenericParams ∨ name ∈ tables.structKnownTypes then
    pure (TypeDescriptor.makeStruct name)
  else
    abort span ("Unknown type '" ++ name ++
      "' — did you forget to declare a struct with this name before use?")

mutual

def typeSpec : TypeSpec → Parse TypeDescriptor
  | .primitive type => pure (TypeDescriptor.ofParamType type)
  | .error => pure { baseType := .error, errorVariant := "Error" }
  | .generic span name args => do
    let args ← typeArgList args
    genericStruct span name args
  | .named span name => namedType span name

def typeArgList : List TypeSpec → Parse (List TypeDescriptor)
  | [] => pure []
  | type :: types => do
    let type ← typeSpec type
    let types ← typeArgList types
    pure (type :: types)

end

def paramDecl (param : ParamSyntax) : Parse ParamDecl := do
  let type ← typeSpec param.type
  pure { type := type, name := param.name, defaultValue := param.defaultValue }

def paramList : List ParamSyntax → Parse (List ParamDecl)
  | [] => pure []
  | param :: params => do
    let param ← paramDecl param
    let params ← paramList params
    pure (param :: params)

/-- A parenthesised list of parameters, with the table that takes their names. -/
def declareParams (add : Tables → List String → Tables) (params : List ParamSyntax) :
    Parse (List ParamDecl) := do
  let params ← paramList params
  update fun tables => add tables (params.map (·.name))
  pure params

def inputParams : List ParamSyntax → Parse (List ParamDecl) := declareParams Tables.addInputs

def outputParams : List ParamSyntax → Parse (List ParamDecl) := declareParams Tables.addOutputs

def stateParams : List ParamSyntax → Parse (List ParamDecl) :=
  declareParams Tables.addStateParams

/-! ## Declarations and assignments of variables -/

def checkRedeclaration (span : Span) (name : String) (tables : Tables) : Parse Unit :=
  if tables.isRedeclaration name tables.inStateBody then
    report span ("Redeclaration of variable: " ++ name)
  else pure ()

def checkReadOnly (span : Span) (name : String) (tables : Tables) : Parse Unit :=
  if tables.isReadOnly name then
    report span ("Cannot assign to read-only parameter: " ++ name)
  else pure ()

/-- The location is that of the whole statement. -/
def varDeclStmt (span : Span) (decl : VarDeclSyntax) : Parse Stmt := do
  let type ← typeSpec decl.type
  action
  let tables ← getTables
  checkRedeclaration decl.nameSpan decl.name tables
  modifyTables (·.declare decl.name)
  let location ← locate span
  pure (.varDecl
    { location := location, type := type, name := decl.name, initializer := decl.initializer })

def assignTarget (span : Span) (name : String) : Parse AssignTarget := do
  action
  let tables ← getTables
  if tables.isVariableDeclared name then do
    checkReadOnly span name tables
    pure { variableName := name }
  else abort span ("Undefined variable: " ++ name)

def assignTargetList : List (Span × String) → Parse (List AssignTarget)
  | [] => pure []
  | (span, name) :: targets => do
    let target ← assignTarget span name
    let targets ← assignTargetList targets
    pure (target :: targets)

/-- `IDENTIFIER = expr;` in a routine body: a field of the struct, else a variable. -/
def bareAssign (span : Span) (name : String) (value : Expr) : Parse Stmt := do
  action
  let tables ← getTables
  let location ← locate span
  if name ∈ tables.structFieldScope then
    pure (.structFieldAssign location (.var {} "this") name value)
  else if tables.isVariableDeclared name then do
    checkReadOnly span name tables
    pure (.assign location [{ variableName := name }] value)
  else abort span ("Undefined variable: " ++ name)

/-! ## Statements -/

mutual

def stmt : Statement → Parse Stmt
  | .varDecl span decl => varDeclStmt span decl
  | .assign span targets value => do
    let targets ← assignTargetList targets
    let location ← locate span
    pure (.assign location targets value)
  | .fieldAssign span object field value => do
    let location ← locate span
    pure (.structFieldAssign location (.var {} object) field value)
  | .expr span expression => do
    let location ← locate span
    pure (.expr location expression)
  | .transition span target args => do
    let location ← locate span
    pure (.transition location target args)
  | .terminal span => do
    let location ← locate span
    pure (.terminal location)
  | .ifThen span condition thenBody rest => do
    let thenBody ← stmtList thenBody
    let elseBody ← elifChain rest
    let location ← locate span
    pure (.ifStmt location condition thenBody elseBody)

def stmtList : List Statement → Parse (List Stmt)
  | [] => pure []
  | statement :: statements => do
    let first ← stmt statement
    let rest ← stmtList statements
    pure (first :: rest)

/-- The `if` of an `elif` has no location. -/
def elifChain : ElifChain → Parse (List Stmt)
  | .done => pure []
  | .otherwise body => stmtList body
  | .elif condition thenBody rest => do
    let thenBody ← stmtList thenBody
    let elseBody ← elifChain rest
    pure [.ifStmt {} condition thenBody elseBody]

end

mutual

def structRoutineStmt : RoutineStatement → Parse Stmt
  | .varDecl span decl => varDeclStmt span decl
  | .assign span name value => bareAssign span name value
  | .fieldAssign span object field value => do
    let location ← locate span
    pure (.structFieldAssign location (.var {} object) field value)
  | .expr span expression => do
    let location ← locate span
    pure (.expr location expression)
  | .ifThen span condition thenBody rest => do
    let thenBody ← routineBody thenBody
    let elseBody ← elifChain rest
    let location ← locate span
    pure (.ifStmt location condition thenBody elseBody)

def routineBody : List RoutineStatement → Parse (List Stmt)
  | [] => pure []
  | statement :: statements => do
    let first ← structRoutineStmt statement
    let rest ← routineBody statements
    pure (first :: rest)

end

/-! ## Declarations -/

def routineDecl (decl : RoutineSyntax) : Parse RoutineDecl := do
  let inputs ← inputParams decl.inputs
  let outputs ← outputParams decl.outputs
  let body ← routineBody decl.body
  pure { name := decl.name, inputParams := inputs, outputParams := outputs, body := body }

def structFieldDecl (field : ParamSyntax) : Parse VarDeclStmt := do
  let type ← typeSpec field.type
  update (·.addField field.name)
  pure { type := type, name := field.name, initializer := field.defaultValue }

def structFieldList : List ParamSyntax → Parse (List VarDeclStmt)
  | [] => pure []
  | field :: fields => do
    let field ← structFieldDecl field
    let fields ← structFieldList fields
    pure (field :: fields)

def structRoutine (decl : RoutineSyntax) : Parse RoutineDecl := do
  update Tables.enterStructRoutine
  let routine ← routineDecl decl
  update Tables.leaveStructRoutine
  pure routine

def structRoutineList : List RoutineSyntax → Parse (List RoutineDecl)
  | [] => pure []
  | decl :: decls => do
    let routine ← structRoutine decl
    let routines ← structRoutineList decls
    pure (routine :: routines)

def structDecl (decl : StructSyntax) : Parse StructDecl := do
  update (·.enterStruct decl.name decl.genericParams)
  let fields ← structFieldList decl.fields
  let routines ← structRoutineList decl.routines
  update Tables.leaveStruct
  pure { name := decl.name, genericParams := decl.genericParams, fields := fields
         routines := routines }

def stateDecl (decl : StateSyntax) : Parse StateDecl := do
  update Tables.enterState
  let params ← stateParams decl.params
  let body ← stmtList decl.body
  update Tables.leaveState
  pure { name := decl.name, inputParameters := params, body := body }

def stateList : List StateSyntax → Parse (List StateDecl)
  | [] => pure []
  | decl :: decls => do
    let state ← stateDecl decl
    let states ← stateList decls
    pure (state :: states)

def autotunerDecl (decl : AutotunerSyntax) : Parse AutotunerDecl := do
  update Tables.clearAutotunerScope
  let inputs ← inputParams decl.inputs
  let outputs ← outputParams decl.outputs
  let varDecls ← stmtList decl.varDecls
  let states ← stateList decl.states
  pure { name := decl.name, inputParams := inputs, outputParams := outputs
         autotunerVariables := varDecls, entryState := decl.entryState
         entryParameters := decl.entryParameters, states := states }

/-! ## Programs -/

/-- The program with one more item. -/
def programItem (program : Program) : ItemSyntax → Parse Program
  | .struct decl => do
    let decl ← structDecl decl
    pure { program with structs := program.structs ++ [decl] }
  | .routine decl => do
    let decl ← routineDecl decl
    pure { program with routines := program.routines ++ [decl] }
  | .autotuner decl => do
    let decl ← autotunerDecl decl
    pure { program with autotuners := program.autotuners ++ [decl] }
  | .ffImport decl => pure { program with ffImports := program.ffImports ++ [decl] }

def programItems : List ItemSyntax → Program → Parse Program
  | [], program => pure program
  | item :: items, program => do
    let program ← programItem program item
    programItems items program

/-- A text that leaves the grammar is not accepted, whatever it has derived so far. -/
def program (derivation : ProgramSyntax) : Parse Program := do
  let result ← programItems derivation.items { imports := derivation.imports }
  match ← Comp.gets Session.stop with
  | none => pure result
  | some _ => Comp.throw .stopped

end FalconLib.Parser
