import FalconLib.Lsp.ImportResolver
import FalconLib.PackageManager.ImportResolution

/-!
# Two resolvers

Where the editor and the engine look for an import of the same file. The editor knows the
directory of the importing file only.
-/

namespace FalconLib.Lsp.ResolverAgreement

open FalconLib.Base (FileTree StdMap)
open FalconLib.Base.FileTree
open FalconLib.Dsl (Exception)
open FalconLib.PackageManager
open FalconLib.PackageManager.ImportResolution
open FalconLib.PackageManager.PackageResolver

/-- The editor in the same tree. -/
def files (tree : FileTree) (contents : StdMap String) : Files where
  weaklyCanonical path := some (tree.weaklyCanonical path)
  fileExists := tree.fileExists
  contents := contents

section Agreement

variable {tree : FileTree} (cache : Cache tree) (contents : StdMap String)

/-- Both find the same file, or both find none. -/
def Agree (found : Option String) (resolved : Except Exception ResolvedImport) : Prop :=
  ∀ file, found = some file ↔ ∃ result, resolved = .ok result ∧ result.absolutePath = file

def ResolveAlike (projectRoot importPath importingUri : String) : Prop :=
  Agree (resolvePath (files tree contents) importingUri importPath)
    (resolve (queries cache) projectRoot importPath (stripScheme importingUri))

/-- The editor has the file that the engine resolves, and none where the cache takes none. -/
def Meets (edited resolved : String) : Prop :=
  (Takes cache resolved → tree.weaklyCanonical edited = tree.weaklyCanonical resolved) ∧
    (tree.fileExists (tree.weaklyCanonical edited) → Takes cache resolved)

/-- What the editor finds next to the importing file is what the engine takes. -/
def SameFile (projectRoot importPath importingUri : String) : Prop :=
  let baseDir := parentPath (stripScheme importingUri)
  let direct := joinPath baseDir importPath
  let rooted := joinPath projectRoot importPath
  let vendored := vendorPath projectRoot importPath
  if isDotted importPath then Meets cache direct direct
  else if startsWith importPath "github.com/" then
    if tree.fileExists vendored then Meets cache direct (joinPath projectRoot vendored)
    else ¬tree.fileExists (tree.weaklyCanonical direct)
  else if tree.fileExists direct then Meets cache direct (joinPath baseDir ("./" ++ importPath))
  else if tree.fileExists rooted then Meets cache direct rooted
  else ¬tree.fileExists (tree.weaklyCanonical direct)

variable {cache contents}

theorem resolvePath_eq {importingUri importPath : String} :
    resolvePath (files tree contents) importingUri importPath =
      let candidate := tree.weaklyCanonical
        (joinPath (parentPath (stripScheme importingUri)) importPath)
      if tree.fileExists candidate then some candidate else none := rfl

theorem agree_error {found : Option String} {e : Exception} :
    Agree found (.error e) ↔ found = none := by
  constructor
  · intro h
    cases found with
    | none => rfl
    | some file =>
      obtain ⟨result, hresult, _⟩ := (h file).mp rfl
      cases hresult
  · rintro rfl file
    constructor
    · intro h
      cases h
    · rintro ⟨result, hresult, _⟩
      cases hresult

theorem agree_ok {found : Option String} {result : ResolvedImport} :
    Agree found (.ok result) ↔ found = some result.absolutePath := by
  constructor
  · intro h
    exact (h _).mpr ⟨result, rfl, rfl⟩
  · rintro rfl file
    constructor
    · intro h
      exact ⟨result, rfl, Option.some.inj h⟩
    · rintro ⟨other, hother, rfl⟩
      cases hother
      rfl

theorem edited_eq_none {path : String} :
    (if tree.fileExists path then some path else none) = none ↔ ¬tree.fileExists path = true := by
  split_ifs with h <;> simp [h]

theorem edited_eq_some {path target : String} (h : tree.fileExists target = true) :
    (if tree.fileExists path then some path else none) = some target ↔ path = target := by
  constructor
  · intro hedited
    split_ifs at hedited
    exact Option.some.inj hedited
  · rintro rfl
    rw [if_pos h]

theorem agree_local {edited raw baseDir : String} :
    Agree (if tree.fileExists (tree.weaklyCanonical edited) then
        some (tree.weaklyCanonical edited) else none)
      (resolveLocal (queries cache) raw baseDir) ↔ Meets cache edited (joinPath baseDir raw) := by
  unfold Meets
  by_cases htakes : Takes cache (joinPath baseDir raw)
  · rw [resolveLocal_eq_ok.mpr ⟨rfl, htakes⟩, agree_ok,
      edited_eq_some (fileExists_of_isFile (exists_of_takes htakes))]
    exact ⟨fun h => ⟨fun _ => h, fun _ => htakes⟩, fun h => h.1 htakes⟩
  · obtain ⟨e, he⟩ := resolveLocal_eq_error.mpr htakes
    rw [he, agree_error, edited_eq_none]
    exact ⟨fun h => ⟨fun ht => absurd ht htakes, fun hx => absurd hx h⟩,
      fun h hx => htakes (h.2 hx)⟩

variable (cache contents)

end Agreement

/-! ## A library in the project root -/

/-- A library in `/p` and a program in a directory of its own. -/
def nested : FileTree :=
  ofEntries [[], ["p"], ["p", "src"]] [["p", "lib.fal"], ["p", "src", "main.fal"]] (by decide)
    (by decide) (by decide +kernel)

end FalconLib.Lsp.ResolverAgreement
