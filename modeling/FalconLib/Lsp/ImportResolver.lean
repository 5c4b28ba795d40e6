import FalconLib.Dsl.ImportScanner
import FalconLib.Lsp.Diagnostics
import FalconLib.PackageManager.PackageResolver

/-!
# `ImportResolver` and the analysis of a document

The resolver follows the imports of a document from file to file and merges what the
files declare. The set of the paths it has resolved belongs to the server: it outlives
the analysis, and its members are paths as they are written, whichever file wrote them.
-/

namespace FalconLib.Lsp

open FalconLib.Base (StdMap)
open FalconLib.Dsl (BuiltinSignature)
open FalconLib.Dsl.ImportScanner (lines)
open FalconLib.PackageManager (joinPath parentPath)
open FalconLib.Parser (SourceText Tables)

/-- The files at the time of an analysis. `weaklyCanonical` may throw; a path at which
`fileExists` throws does not exist. What can be opened has contents. -/
structure Files where
  weaklyCanonical : String → Option String
  fileExists : String → Bool
  contents : StdMap String

/-- Without a `file://` at its beginning. -/
def stripScheme (uri : String) : String :=
  if "file://".toList.isPrefixOf uri.toList then String.ofList (uri.toList.drop 7) else uri

def resolvePath (fs : Files) (importingUri importPath : String) : Option String :=
  match fs.weaklyCanonical (joinPath (parentPath (stripScheme importingUri)) importPath) with
  | none => none
  | some candidate => if fs.fileExists candidate then some candidate else none

namespace FalconDocument

def isExported (symbol : Symbol) : Bool :=
  match symbol.kind with
  | .autotuner | .routine | .struct | .structField | .structRoutine => true
  | .inputParam | .outputParam | .var | .state | .importFile | .ffimportFile => false

def exported (doc : FalconDocument) : List Symbol :=
  (doc.symbols.filter isExported).map fun symbol => { symbol with fromImport := true }

/-- The declarations of an imported file, and those that it has imported itself. -/
def merge (doc child : FalconDocument) : FalconDocument :=
  { doc with
    symbols := doc.symbols ++ child.exported
    importedNames := doc.importedNames ∪ (child.exported.map (·.name)).toFinset }

end FalconDocument

namespace ImportResolver

/-- The paths resolved so far, the files visited in this analysis, and the parser. -/
structure Progress (σ : Type) where
  resolvedPaths : Finset String
  visited : Finset String
  parser : σ

section Resolve

variable {σ : Type} (fs : Files) (parse : String → String → σ → FalconDocument × σ)

def Progress.resolve (s : Progress σ) (path : String) : Progress σ :=
  { s with resolvedPaths := insert path s.resolvedPaths }

def Progress.visit (s : Progress σ) (file : String) : Progress σ :=
  { s with visited := insert file s.visited }

/-- A document in the making. -/
abbrev Resolution (σ : Type) : Type := Option (FalconDocument × Progress σ)

/-- One turn of the loop over the imports. A path that is resolved is not looked at again. -/
def resolveImport (recurse : String → FalconDocument → Progress σ → Resolution σ)
    (importingUri importPath : String) (doc : FalconDocument) (s : Progress σ) : Resolution σ :=
  if importPath ∈ s.resolvedPaths then some (doc, s)
  else
    match resolvePath fs importingUri importPath with
    | none => some (doc, s)
    | some absPath =>
      if absPath ∈ s.visited then some (doc, s.resolve importPath)
      else
        match fs.contents[absPath]? with
        | none => some (doc, s.visit absPath)
        | some src =>
          let childUri := "file://" ++ absPath
          let parsed := parse childUri src s.parser
          match recurse childUri parsed.1 { s.visit absPath with parser := parsed.2 } with
          | none => none
          | some (child, s) => some (doc.merge child, s.resolve importPath)

def resolveImports (recurse : String → FalconDocument → Progress σ → Resolution σ)
    (importingUri : String) : List String → FalconDocument → Progress σ → Resolution σ
  | [], doc, s => some (doc, s)
  | importPath :: importPaths, doc, s =>
    match resolveImport fs parse recurse importingUri importPath doc s with
    | none => none
    | some (doc, s) => resolveImports recurse importingUri importPaths doc s

/-- Wrappers are not parsed. -/
def resolveFFImports (importingUri : String) : List String → Progress σ → Progress σ
  | [], s => s
  | path :: paths, s =>
    if path ∉ s.resolvedPaths ∧ (resolvePath fs importingUri path).isSome then
      resolveFFImports importingUri paths (s.resolve path)
    else resolveFFImports importingUri paths s

/-- At most as many files deep as there is fuel. -/
def resolveDocumentImpl : Nat → String → FalconDocument → Progress σ → Resolution σ
  | 0, _, _, _ => none
  | n + 1, importingUri, doc, s =>
    match resolveImports fs parse (resolveDocumentImpl n) importingUri doc.importPaths doc s with
    | none => none
    | some (doc, s) => some (doc, resolveFFImports fs importingUri doc.ffimportPaths s)

/-- Every file on the way down is another one. -/
def depth (fs : Files) : Nat := fs.contents.keyList.length + 1

def resolveDocument (importingUri : String) (doc : FalconDocument) (resolvedPaths : Finset String)
    (parser : σ) : Resolution σ :=
  resolveDocumentImpl fs parse (depth fs) importingUri doc
    ⟨resolvedPaths, {stripScheme importingUri}, parser⟩

end Resolve

/-! ## Warnings -/

def makeImportDiag (path : String) (startLine startColumn endColumn : Nat) : Diagnostic :=
  ⟨⟨startLine, startColumn, startLine, endColumn⟩, "Import not yet loaded: " ++ path, .warning⟩

/-- The first of the lines from number `n` on that has the text, and what it has before. -/
def findLine (needle : List Char) : Nat → List (List Char) → Option (Nat × List Char)
  | _, [] => none
  | n, line :: rest =>
    match before needle line with
    | some start => some (n, start)
    | none => findLine needle (n + 1) rest

def emitForPath (text path : String) : Diagnostic :=
  let needle := "\"" ++ path ++ "\""
  match findLine needle.toList 0 (lines text.toList) with
  | some (line, start) =>
    let column := (String.ofList start).utf8ByteSize
    makeImportDiag path line column (column + needle.utf8ByteSize)
  | none => makeImportDiag path 0 0 1

def checkImports (resolvedPaths : Finset String) (doc : FalconDocument) : List Diagnostic :=
  ((doc.importPaths ++ doc.ffimportPaths).filter (· ∉ resolvedPaths)).map (emitForPath doc.text)

end ImportResolver

/-! ## `FalconServer` -/

/-- The parser's tables are those of the process. -/
structure FalconServer where
  docs : StdMap FalconDocument := ∅
  resolvedPaths : Finset String := ∅
  tables : Tables := {}

namespace FalconServer

variable (derive : String → SourceText)

def analyze (fs : Files) (uri text : String) (s : FalconServer) : FalconServer :=
  let parsed := FalconDocumentParser.parse derive uri text s.tables
  let resolution := ImportResolver.resolveDocument fs (FalconDocumentParser.parse derive) uri
    parsed.1 s.resolvedPaths parsed.2
  match resolution with
  | none => s
  | some (doc, progress) =>
    { docs := s.docs.assign uri doc
      resolvedPaths := progress.resolvedPaths
      tables := progress.parser }

/-- What `publish_diagnostics` sends. -/
def published (builtins : StdMap BuiltinSignature) (s : FalconServer) (doc : FalconDocument) :
    List Diagnostic :=
  DiagnosticsProvider.diagnostics builtins doc ++ ImportResolver.checkImports s.resolvedPaths doc

end FalconServer

end FalconLib.Lsp
