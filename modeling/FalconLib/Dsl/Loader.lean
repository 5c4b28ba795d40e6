import FalconLib.Dsl.AutotunerEngine
import FalconLib.Dsl.ImportScanner
import FalconLib.PackageManager.PackageResolver
import FalconLib.Parser.Compiler
import Mathlib.Data.Finset.SDiff

/-!
# `load_fal_file`

A file is loaded after the files it imports: those are found by a scan of its text and
loaded recursively, then the file itself is parsed and registered. Only at the end of all
that is its path recorded as loaded.
-/

namespace FalconLib.Dsl

open FalconLib.Base (StdMap)
open FalconLib.PackageManager (FileSystem ResolvedImport PackageResolver.resolveAll stem)

/-- A readable file: its text, and what the parser derives from it. -/
structure FalFile where
  text : String
  derivation : Parser.ProgramSyntax
  stop : Option Parser.Stop := none

/-- The files by their canonical paths, and what the `ffimport`s of a file find. -/
structure Sources extends FileSystem where
  files : StdMap FalFile
  linker : String → Linker

/-- An engine with everything that a load reads or writes. The tables of the parser are
globals of the process. -/
structure Loader where
  engine : AutotunerEngine := AutotunerEngine.create
  tables : Parser.Tables := {}
  importStructHints : Finset String := ∅
  loadedPaths : Finset String := ∅
  loadedProgramsByPath : StdMap Program := ∅
  /-- The loads that succeeded, in order, with their paths: their programs are kept alive. -/
  loadedPrograms : List (String × AutotunerEngine.Load) := []
  /-- The names whose entry in the type registry points into a program that is gone. -/
  danglingStructs : Finset String := ∅

namespace Loader

/-- The structs of a loaded import, under their bare and their qualified names. -/
def structHints (moduleName : String) (program : Program) : Finset String :=
  (program.structs.flatMap fun decl => [decl.name, moduleName ++ "::" ++ decl.name]).toFinset

def injectHints (absolutePath moduleName : String) (s : Loader) : Loader :=
  match s.loadedProgramsByPath[absolutePath]? with
  | some program =>
    { s with importStructHints := s.importStructHints ∪ structHints moduleName program }
  | none => s

variable (src : Sources)

/-- The imports of a file, unless one of them cannot be resolved. -/
def resolvedImports (absPath : String) (file : FalFile) :
    Except Exception (List ResolvedImport) := do
  let projectRoot ← src.projectRoot absPath
  PackageResolver.resolveAll src.toFileQueries projectRoot absPath
    (ImportScanner.extractImportsFromFile file.text)

def sourceText (absPath : String) (file : FalFile) : Parser.SourceText where
  filename := absPath
  stem := stem absPath
  derivation := file.derivation
  stop := file.stop

/-- The names under which a load registers its structs. -/
def structNames (load : AutotunerEngine.Load) : Finset String :=
  (load.structs.flatMap fun decl =>
    if decl.moduleName.isEmpty then [decl.name]
    else [decl.name, decl.moduleName ++ "::" ++ decl.name]).toFinset

/-- What follows once the imports of a file are loaded. A program whose load fails is
destroyed, and the entries of the type registry are mere pointers. -/
def loadOwn (absPath : String) (file : FalFile) (s : Loader) : Loader × Bool :=
  let (result, tables) := Parser.parseFile s.tables s.importStructHints (sourceText absPath file)
  match result.program with
  | none => ({ s with tables := tables }, false)
  | some program =>
    let load : AutotunerEngine.Load := ⟨program, src.linker absPath⟩
    let (engine, complete) := s.engine.loadProgram load
    if complete then
      ({ s with
          tables := tables
          engine := engine
          loadedPaths := insert absPath s.loadedPaths
          loadedProgramsByPath := s.loadedProgramsByPath.assign absPath program
          loadedPrograms := s.loadedPrograms ++ [(absPath, load)]
          danglingStructs := s.danglingStructs \ structNames load }, true)
    else
      ({ s with
          tables := tables
          engine := engine
          danglingStructs := s.danglingStructs ∪ structNames load }, false)

/-- The imports that are not loaded yet, one after the other. -/
def loadImports (loadFalFile : Loader → String → Option (Loader × Bool)) :
    List ResolvedImport → Loader → Option (Loader × Bool)
  | [], s => some (s, true)
  | imported :: imports, s =>
    if imported.absolutePath ∈ s.loadedPaths then
      loadImports loadFalFile imports (injectHints imported.absolutePath imported.moduleName s)
    else
      match loadFalFile s imported.absolutePath with
      | some (s, true) =>
        loadImports loadFalFile imports (injectHints imported.absolutePath imported.moduleName s)
      | stopped => stopped

/-- Files may be nested `fuel` deep; deeper, there is no result. -/
def loadFalFile : Nat → Loader → String → Option (Loader × Bool)
  | 0, _, _ => none
  | fuel + 1, s, falFilePath =>
    if src.fileExists falFilePath then
      let absPath := src.weaklyCanonical falFilePath
      match src.files[absPath]? with
      | none => some (s, false)
      | some file =>
        match resolvedImports src absPath file with
        | .error _ => some (s, false)
        | .ok imports =>
          match loadImports (loadFalFile fuel) imports s with
          | some (s, true) => some (loadOwn src absPath file s)
          | stopped => stopped
    else some (s, false)

/-- The call comes back with this result; a call that never does exhausts the stack. -/
def Returns (s : Loader) (falFilePath : String) (s' : Loader) (ok : Bool) : Prop :=
  ∃ fuel, loadFalFile src fuel s falFilePath = some (s', ok)

/-- The states of an engine between calls of `load_fal_file`. Runs, and other engines that
parse, change the registries and the tables of the parser. -/
inductive Reached : Loader → Prop
  | create (tables : Parser.Tables) : Reached { tables := tables }
  | other {s : Loader} (engine : AutotunerEngine) (tables : Parser.Tables) (h : Reached s) :
      Reached { s with engine := engine, tables := tables }
  | load {s s' : Loader} {falFilePath : String} {ok : Bool} (h : Reached s)
      (hr : Returns src s falFilePath s' ok) : Reached s'

end Loader

end FalconLib.Dsl
