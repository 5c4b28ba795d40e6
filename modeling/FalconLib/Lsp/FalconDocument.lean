import FalconLib.Parser.Compiler

/-!
# Documents of the language server

A text that is open in an editor, or a file that it imports, is parsed and its symbols
are listed. The parser's tables are those of the process, whatever it has parsed before.
-/

namespace FalconLib.Lsp

open FalconLib.Dsl
open FalconLib.Parser (ParseError SourceText Span Tables parseFile)

inductive SymbolKind where
  | inputParam | outputParam | var | state | autotuner | routine | struct | structField
  | structRoutine | importFile | ffimportFile
deriving DecidableEq

/-- Types, positions and owners of symbols are only shown to the user. -/
structure Symbol where
  name : String
  kind : SymbolKind
  fromImport : Bool := false
deriving DecidableEq

/-! ## `TypeChecker` -/

namespace TypeChecker

mutual

/-- Neither loops nor other statements declare anything. -/
def analyzeStmt : Stmt → List Symbol
  | .varDecl decl => [⟨decl.name, .var, false⟩]
  | .ifStmt _ _ thenBody elseBody => analyzeStmts thenBody ++ analyzeStmts elseBody
  | .assign .. | .structFieldAssign .. | .expr .. | .transition .. | .terminal .. => []

def analyzeStmts : List Stmt → List Symbol
  | [] => []
  | stmt :: stmts => analyzeStmt stmt ++ analyzeStmts stmts

end

def params (kind : SymbolKind) (decls : List ParamDecl) : List Symbol :=
  decls.map fun decl => ⟨decl.name, kind, false⟩

def analyzeRoutineBody (routine : RoutineDecl) : List Symbol :=
  params .inputParam routine.inputParams ++ params .outputParam routine.outputParams ++
    analyzeStmts routine.body

def analyzeRoutine (kind : SymbolKind) (routine : RoutineDecl) : List Symbol :=
  ⟨routine.name, kind, false⟩ :: analyzeRoutineBody routine

def analyzeStruct (decl : StructDecl) : List Symbol :=
  ⟨decl.name, .struct, false⟩ ::
    (decl.fields.map (fun field => ⟨field.name, .structField, false⟩) ++
      decl.routines.flatMap (analyzeRoutine .structRoutine))

def analyzeState (state : StateDecl) : List Symbol :=
  ⟨state.name, .state, false⟩ ::
    (params .inputParam state.inputParameters ++ analyzeStmts state.body)

def analyzeAutotuner (autotuner : AutotunerDecl) : List Symbol :=
  ⟨autotuner.name, .autotuner, false⟩ ::
    (params .inputParam autotuner.inputParams ++ params .outputParam autotuner.outputParams ++
      analyzeStmts autotuner.autotunerVariables ++ autotuner.states.flatMap analyzeState)

def importPaths (program : Program) : List String := program.imports

def ffimportPaths (program : Program) : List String := program.ffImports.map (·.wrapperFile)

def analyze (program : Program) : List Symbol :=
  program.structs.flatMap analyzeStruct ++ program.autotuners.flatMap analyzeAutotuner ++
    program.routines.flatMap (analyzeRoutine .routine) ++
    (importPaths program).map (fun path => ⟨path, .importFile, false⟩) ++
    (ffimportPaths program).map (fun path => ⟨path, .ffimportFile, false⟩)

end TypeChecker

/-! ## `FalconDocumentParser` -/

structure FalconDocument where
  uri : String
  text : String
  program : Option Program := none
  parseErrors : List ParseError := []
  symbols : List Symbol := []
  importPaths : List String := []
  ffimportPaths : List String := []
  importedNames : Finset String := ∅

namespace FalconDocumentParser

/-- What stands for the errors of a parse that failed without one. -/
def parseFailed : ParseError := ⟨⟨1, 1, 1, 1⟩, "Parse failed"⟩

/-- No names of imported structs are handed to the parser. `derive` is the lexer and the
grammar: what a text derives, under the name of a temporary file. -/
def parse (derive : String → SourceText) (uri text : String) (t : Tables) :
    FalconDocument × Tables :=
  let parsed := parseFile t ∅ (derive text)
  match parsed.1.program with
  | none =>
    ({ uri := uri
       text := text
       parseErrors := if parsed.1.errors.isEmpty then [parseFailed] else parsed.1.errors },
      parsed.2)
  | some program =>
    ({ uri := uri
       text := text
       program := some program
       parseErrors := parsed.1.errors
       symbols := TypeChecker.analyze program
       importPaths := TypeChecker.importPaths program
       ffimportPaths := TypeChecker.ffimportPaths program },
      parsed.2)

end FalconDocumentParser

end FalconLib.Lsp
