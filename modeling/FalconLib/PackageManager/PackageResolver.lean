import FalconLib.Dsl.Value

/-!
# Import paths

`PackageResolver` turns the string of an import into the canonical path of a file and
the name of its module. What the file system says is a parameter.
-/

namespace FalconLib.PackageManager

open FalconLib.Dsl (Exception)

/-! ## Paths with `/` between their parts -/

/-- `path.parent_path()`. -/
def parentPath (path : String) : String :=
  let dir := path.toList.reverse.dropWhile (· ≠ '/')
  match dir.dropWhile (· = '/') with
  | [] => if dir.isEmpty then "" else "/"
  | parent => String.ofList parent.reverse

/-- `base / path`. -/
def joinPath (base path : String) : String :=
  if path.toList.head? = some '/' then path
  else if base.isEmpty || base.toList.getLast? = some '/' then base ++ path
  else base ++ "/" ++ path

/-- `path.stem()`. -/
def stem (path : String) : String :=
  let filename := (path.toList.reverse.takeWhile (· ≠ '/')).reverse
  let base := (filename.reverse.dropWhile (· ≠ '.')).drop 1
  if base.isEmpty || filename = ['.', '.'] then String.ofList filename
  else String.ofList base.reverse

/-! ## The file system -/

/-- What is asked of the file system. -/
structure FileQueries where
  fileExists : String → Bool
  weaklyCanonical : String → String
  /-- Copying a file to the cache, and its hash. -/
  store : String → Except Exception Unit

/-- Nothing here changes while files are loaded. The canonical path of a path is its own
canonical path, and names the same file: no path goes through a directory that is missing. -/
structure FileSystem extends FileQueries where
  /-- The root that the constructor of `PackageManager` finds for a file. It throws when the
  manifest or the cache cannot be read. -/
  projectRoot : String → Except Exception String
  canonical_canonical : ∀ path, weaklyCanonical (weaklyCanonical path) = weaklyCanonical path
  exists_canonical : ∀ path, fileExists (weaklyCanonical path) = fileExists path

structure ResolvedImport where
  absolutePath : String
  moduleName : String

namespace PackageResolver

variable (fs : FileQueries)

def resolveLocal (raw baseDir : String) : Except Exception ResolvedImport :=
  let abs := fs.weaklyCanonical (joinPath baseDir raw)
  if fs.fileExists abs then
    match fs.store abs with
    | .ok () => .ok ⟨abs, stem abs⟩
    | .error e => .error e
  else .error (.other ("Import not found: " ++ abs))

def resolveGithub (projectRoot importPath : String) : Except Exception ResolvedImport :=
  let vendorPath := joinPath (joinPath projectRoot "vendor") importPath
  if fs.fileExists vendorPath then resolveLocal fs vendorPath projectRoot
  else .error (.other ("GitHub import not yet supported (no vendor copy found): " ++ importPath))

def startsWith (text start : String) : Bool := start.toList.isPrefixOf text.toList

/-- A bare name is looked for next to the importing file, then in the project root. -/
def resolve (projectRoot importPath importingFile : String) : Except Exception ResolvedImport :=
  let baseDir := parentPath importingFile
  if startsWith importPath "./" || startsWith importPath "../" then
    resolveLocal fs importPath baseDir
  else if startsWith importPath "github.com/" then resolveGithub fs projectRoot importPath
  else if fs.fileExists (joinPath baseDir importPath) then
    resolveLocal fs ("./" ++ importPath) baseDir
  else if fs.fileExists (joinPath projectRoot importPath) then
    resolveLocal fs importPath projectRoot
  else .error <| .other <|
    "Cannot resolve import '" ++ importPath ++ "': not found relative to '" ++ baseDir ++
      "' or project root '" ++ projectRoot ++ "'"

def resolveAll (projectRoot importingFile : String) :
    List String → Except Exception (List ResolvedImport)
  | [] => .ok []
  | importPath :: importPaths => do
    let first ← resolve fs projectRoot importPath importingFile
    let rest ← resolveAll projectRoot importingFile importPaths
    pure (first :: rest)

/-- The import of a file that exists, under its canonical path. -/
structure Resolved (resolved : ResolvedImport) : Prop where
  canonical : fs.weaklyCanonical resolved.absolutePath = resolved.absolutePath
  moduleName : resolved.moduleName = stem resolved.absolutePath
  present : fs.fileExists resolved.absolutePath = true

section Resolved

variable {fs : FileSystem}

theorem resolveLocal_ok {raw baseDir : String} {resolved : ResolvedImport}
    (h : resolveLocal fs.toFileQueries raw baseDir = .ok resolved) : Resolved fs.toFileQueries resolved := by
  unfold resolveLocal at h
  dsimp only at h
  split at h
  · rename_i hexists
    split at h
    · cases h
      exact ⟨fs.canonical_canonical _, rfl, hexists⟩
    · cases h
  · cases h

theorem resolve_ok {projectRoot importPath importingFile : String} {resolved : ResolvedImport}
    (h : resolve fs.toFileQueries projectRoot importPath importingFile = .ok resolved) :
    Resolved fs.toFileQueries resolved := by
  unfold resolve resolveGithub at h
  dsimp only at h
  split at h
  · exact resolveLocal_ok h
  · split at h
    · split at h
      · exact resolveLocal_ok h
      · cases h
    · split at h
      · exact resolveLocal_ok h
      · split at h
        · exact resolveLocal_ok h
        · cases h

theorem resolveAll_ok {projectRoot importingFile : String} {importPaths : List String}
    {resolved : List ResolvedImport}
    (h : resolveAll fs.toFileQueries projectRoot importingFile importPaths = .ok resolved) :
    ∀ r ∈ resolved, Resolved fs.toFileQueries r := by
  induction importPaths generalizing resolved with
  | nil =>
    cases h
    exact fun r hr => absurd hr List.not_mem_nil
  | cons importPath importPaths ih =>
    rw [resolveAll] at h
    cases hf : resolve fs.toFileQueries projectRoot importPath importingFile with
    | error e =>
      rw [hf] at h
      cases h
    | ok first =>
      cases hr : resolveAll fs.toFileQueries projectRoot importingFile importPaths with
      | error e =>
        rw [hf, hr] at h
        cases h
      | ok rest =>
        rw [hf, hr] at h
        cases h
        intro r hmem
        rcases List.mem_cons.mp hmem with rfl | hmem
        · exact resolve_ok hf
        · exact ih hr r hmem

end Resolved

end PackageResolver

end FalconLib.PackageManager
