import FalconLib.Lsp.FalconDocument

/-!
# `DiagnosticsProvider`

Parse errors, and for a text without any the calls that do not fit. A function of the
document alone.
-/

namespace FalconLib.Lsp

open FalconLib.Base (StdMap)
open FalconLib.Dsl
open FalconLib.Parser (ParseError)

inductive Severity where
  | error | warning
deriving DecidableEq

structure Range where
  startLine : Nat
  startColumn : Nat
  endLine : Nat
  endColumn : Nat
deriving DecidableEq

structure Diagnostic where
  range : Range
  message : String
  severity : Severity
deriving DecidableEq

/-- What stands before the first occurrence of a text in a line. -/
def before (needle : List Char) : List Char → Option (List Char)
  | [] => if needle.isEmpty then some [] else none
  | c :: line =>
    if needle.isPrefixOf (c :: line) then some [] else (before needle line).map (c :: ·)

namespace DiagnosticsProvider

/-- From counting from 1 to counting from 0. -/
def zeroIndexed (position : Int) : Nat := if position > 0 then (position - 1).toNat else 0

def makeRange (location : Location) (length : Nat) : Range :=
  ⟨zeroIndexed location.line, zeroIndexed location.column,
    zeroIndexed location.line, zeroIndexed location.column + max length 1⟩

def parseDiagnostic (err : ParseError) : Diagnostic :=
  let startLine := zeroIndexed err.span.firstLine
  let startColumn := zeroIndexed err.span.firstColumn
  { range :=
      ⟨startLine, startColumn,
        if err.span.lastLine > 0 then (err.span.lastLine - 1).toNat else startLine,
        if err.span.lastColumn > 0 then err.span.lastColumn.toNat else startColumn + 1⟩
    message := err.message
    severity := .error }

section Walker

variable (builtins : StdMap BuiltinSignature) (doc : FalconDocument) (program : Program)

/-- The later of two declarations of one name is in the index. -/
def autotunerIndex (name : String) : Option AutotunerDecl :=
  program.autotuners.reverse.find? (·.name == name)

def routineIndex (name : String) : Option RoutineDecl :=
  program.routines.reverse.find? (·.name == name)

def expects (subject : String) (expected : String) (given : Nat) : String :=
  subject ++ " expects " ++ expected ++ " argument(s), got " ++ toString given

def checkArity (subject name : String) (expected given : Nat) (location : Location) :
    List Diagnostic :=
  if given = expected then []
  else
    [⟨makeRange location name.utf8ByteSize, expects subject (toString expected) given, .error⟩]

def checkBuiltin (sig : BuiltinSignature) (name : String) (given : Nat) (location : Location) :
    List Diagnostic :=
  let required := (sig.parameters.filter (·.required)).length
  let maximum := sig.parameters.length
  if given < required || given > maximum then
    let expected :=
      if required = maximum then toString required
      else toString required ++ ".." ++ toString maximum
    [⟨makeRange location name.utf8ByteSize, expects ("'" ++ name ++ "'") expected given, .error⟩]
  else []

/-- A name that is neither imported nor qualified nor listed as a symbol. -/
def checkUnknown (name : String) (location : Location) : List Diagnostic :=
  if name ∈ doc.importedNames then []
  else if (before [':', ':'] name.toList).isSome then []
  else if doc.symbols.any (·.name == name) then []
  else if location.line > 0 then
    [⟨makeRange location name.utf8ByteSize,
      "Unknown function or autotuner '" ++ name ++
        "' (not declared in this file or its imports)", .warning⟩]
  else []

def checkCall (name : String) (given : Nat) (location : Location) : List Diagnostic :=
  match builtins[name]? with
  | some sig => checkBuiltin sig name given location
  | none =>
    match autotunerIndex program name with
    | some decl =>
      checkArity ("Autotuner '" ++ name ++ "'") name decl.inputParams.length given location
    | none =>
      match routineIndex program name with
      | some decl =>
        checkArity ("Routine '" ++ name ++ "'") name decl.inputParams.length given location
      | none => checkUnknown doc name location

mutual

def walkExpr : Expr → List Diagnostic
  | .call info name arguments =>
    checkCall builtins doc program name arguments.length info.location ++ walkArguments arguments
  | .methodCall _ object _ args => walkExpr object ++ walkExprs args
  | .binary _ _ left right => walkExpr left ++ walkExpr right
  | .unary _ _ operand => walkExpr operand
  | .member _ object _ => walkExpr object
  | .index _ object index => walkExpr object ++ walkExpr index
  | .literal .. | .nilLiteral .. | .var .. => []

def walkExprs : List Expr → List Diagnostic
  | [] => []
  | expr :: exprs => walkExpr expr ++ walkExprs exprs

def walkArguments : List (Option String × Expr) → List Diagnostic
  | [] => []
  | (_, value) :: arguments => walkExpr value ++ walkArguments arguments

end

def walkInitializer : Option Expr → List Diagnostic
  | none => []
  | some value => walkExpr builtins doc program value

mutual

def walkStmt : Stmt → List Diagnostic
  | .assign _ _ value => walkExpr builtins doc program value
  | .varDecl decl => walkInitializer builtins doc program decl.initializer
  | .expr _ expression => walkExpr builtins doc program expression
  | .ifStmt _ condition thenBody elseBody =>
    walkExpr builtins doc program condition ++ walkStmts thenBody ++ walkStmts elseBody
  | .transition _ _ parameters => walkExprs builtins doc program parameters
  | .structFieldAssign _ object _ value =>
    walkExpr builtins doc program object ++ walkExpr builtins doc program value
  | .terminal _ => []

def walkStmts : List Stmt → List Diagnostic
  | [] => []
  | stmt :: stmts => walkStmt stmt ++ walkStmts stmts

end

def walkRoutine (routine : RoutineDecl) : List Diagnostic :=
  walkStmts builtins doc program routine.body

def walkAutotuner (autotuner : AutotunerDecl) : List Diagnostic :=
  walkStmts builtins doc program autotuner.autotunerVariables ++
    autotuner.states.flatMap fun state => walkStmts builtins doc program state.body

def walkProgram : List Diagnostic :=
  program.autotuners.flatMap (walkAutotuner builtins doc program) ++
    program.routines.flatMap (walkRoutine builtins doc program) ++
    program.structs.flatMap fun decl => decl.routines.flatMap (walkRoutine builtins doc program)

end Walker

def semantic (builtins : StdMap BuiltinSignature) (doc : FalconDocument) : List Diagnostic :=
  match doc.program with
  | none => []
  | some program => walkProgram builtins doc program

def diagnostics (builtins : StdMap BuiltinSignature) (doc : FalconDocument) : List Diagnostic :=
  doc.parseErrors.map parseDiagnostic ++
    if doc.parseErrors.isEmpty then semantic builtins doc else []

end DiagnosticsProvider

end FalconLib.Lsp
