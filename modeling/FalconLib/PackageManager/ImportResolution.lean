import FalconLib.Base.FileTree
import FalconLib.PackageManager.PackageResolver

/-!
# The first file among the candidates

What `resolve` should find in a file tree, and when it does. The test whether a candidate
exists and the resolution that follows build their paths apart.
-/

namespace FalconLib.PackageManager.ImportResolution

open FalconLib.Base (FileTree)
open FalconLib.Base.FileTree
open FalconLib.Dsl (Exception)
open PackageResolver

/-- What is not a file cannot be copied to the cache. -/
structure Cache (tree : FileTree) where
  store : String → Except Exception Unit
  files_only : ∀ path, store path = .ok () → tree.isFile path = true

section Resolution

variable {tree : FileTree} (cache : Cache tree)

def queries : FileQueries where
  fileExists := tree.fileExists
  weaklyCanonical := tree.weaklyCanonical
  store := cache.store

/-- Relative to the importing file, whatever else is there. -/
def isDotted (importPath : String) : Bool :=
  startsWith importPath "./" || startsWith importPath "../"

def vendorPath (projectRoot importPath : String) : String :=
  joinPath (joinPath projectRoot "vendor") importPath

def candidates (projectRoot importPath importingFile : String) : List String :=
  let baseDir := parentPath importingFile
  if isDotted importPath then [joinPath baseDir importPath]
  else if startsWith importPath "github.com/" then [vendorPath projectRoot importPath]
  else [joinPath baseDir importPath, joinPath projectRoot importPath]

variable (tree) in
/-- The canonical path of a file that should be found, or an error. -/
def Answers (expected : Option String) (result : Except Exception ResolvedImport) : Prop :=
  match expected with
  | some path => result = .ok ⟨tree.weaklyCanonical path, stem (tree.weaklyCanonical path)⟩
  | none => ∃ e, result = .error e

/-- The first file among the candidates is found, and an error means that there is none. -/
def FindsFirst (projectRoot importPath importingFile : String) : Prop :=
  Answers tree ((candidates projectRoot importPath importingFile).find? tree.isFile)
    (resolve (queries cache) projectRoot importPath importingFile)

/-- The cache takes the file that the path names. -/
def Takes (path : String) : Prop := cache.store (tree.weaklyCanonical path) = .ok ()

/-- What is found at one path is resolved at another. -/
def Leads (tested resolved : String) : Prop :=
  if tree.isFile tested then
    tree.weaklyCanonical resolved = tree.weaklyCanonical tested ∧ Takes cache tested
  else tree.fileExists tested → ¬Takes cache resolved

/-- Where a bare name is not absolute, `./` before it changes nothing. -/
def Coincides (projectRoot importPath importingFile : String) : Prop :=
  let baseDir := parentPath importingFile
  let direct := joinPath baseDir importPath
  let rooted := joinPath projectRoot importPath
  if isDotted importPath then tree.isFile direct ↔ Takes cache direct
  else if startsWith importPath "github.com/" then
    Leads cache (vendorPath projectRoot importPath)
      (joinPath projectRoot (vendorPath projectRoot importPath))
  else if isAbsolute importPath then Leads cache importPath (joinPath baseDir ("./" ++ importPath))
  else if tree.fileExists direct then
    if tree.isFile direct then Takes cache direct else ¬tree.isFile rooted
  else tree.isFile rooted → Takes cache rooted

variable {cache}

/-! ## One resolution -/

theorem exists_of_takes {path : String} (h : Takes cache path) :
    tree.isFile (tree.weaklyCanonical path) = true := cache.files_only _ h

theorem resolveLocal_eq_ok {raw baseDir target : String} :
    resolveLocal (queries cache) raw baseDir = .ok ⟨target, stem target⟩ ↔
      tree.weaklyCanonical (joinPath baseDir raw) = target ∧
        Takes cache (joinPath baseDir raw) := by
  unfold resolveLocal queries Takes
  dsimp only
  constructor
  · intro h
    split at h
    · split at h
      · rename_i hstore
        cases h
        exact ⟨rfl, hstore⟩
      · cases h
    · cases h
  · rintro ⟨rfl, hstore⟩
    have hexists := fileExists_of_isFile (cache.files_only _ hstore)
    rw [if_pos hexists, hstore]

theorem resolveLocal_eq_error {raw baseDir : String} :
    (∃ e, resolveLocal (queries cache) raw baseDir = .error e) ↔
      ¬Takes cache (joinPath baseDir raw) := by
  constructor
  · rintro ⟨e, he⟩ htakes
    rw [resolveLocal_eq_ok.mpr ⟨rfl, htakes⟩] at he
    cases he
  · intro h
    unfold Takes at h
    unfold resolveLocal queries
    dsimp only
    split
    · split
      · rename_i hstore
        exact absurd hstore h
      · exact ⟨_, rfl⟩
    · exact ⟨_, rfl⟩

theorem answers_local {expected : Option String} {raw baseDir : String} :
    Answers tree expected (resolveLocal (queries cache) raw baseDir) ↔
      match expected with
      | some path => tree.weaklyCanonical (joinPath baseDir raw) = tree.weaklyCanonical path ∧
          Takes cache (joinPath baseDir raw)
      | none => ¬Takes cache (joinPath baseDir raw) := by
  cases expected with
  | none => exact resolveLocal_eq_error
  | some path => exact resolveLocal_eq_ok

theorem takes_congr {path other : String}
    (h : tree.weaklyCanonical path = tree.weaklyCanonical other) :
    Takes cache path ↔ Takes cache other := by
  unfold Takes
  rw [h]

/-- A test and the resolution that follows it. -/
theorem answers_tested {tested raw baseDir : String} {e : Exception} :
    Answers tree ([tested].find? tree.isFile)
        (if tree.fileExists tested then resolveLocal (queries cache) raw baseDir else .error e) ↔
      Leads cache tested (joinPath baseDir raw) := by
  unfold Leads
  by_cases hfile : tree.isFile tested = true
  · rw [List.find?_cons_of_pos hfile, if_pos hfile, if_pos (fileExists_of_isFile hfile),
      answers_local]
    exact and_congr_right fun h => takes_congr h
  · rw [List.find?_cons_of_neg hfile, if_neg hfile, List.find?_nil]
    by_cases hexists : tree.fileExists tested = true
    · rw [if_pos hexists, answers_local]
      exact ⟨fun h _ => h, fun h => h hexists⟩
    · rw [if_neg hexists]
      exact ⟨fun _ h => absurd h hexists, fun _ => ⟨e, rfl⟩⟩

theorem answers_untested {raw baseDir : String} :
    Answers tree ([joinPath baseDir raw].find? tree.isFile)
        (resolveLocal (queries cache) raw baseDir) ↔
      (tree.isFile (joinPath baseDir raw) ↔ Takes cache (joinPath baseDir raw)) := by
  by_cases hfile : tree.isFile (joinPath baseDir raw) = true
  · rw [List.find?_cons_of_pos hfile, answers_local]
    exact ⟨fun h => iff_of_true hfile h.2, fun h => ⟨rfl, h.mp hfile⟩⟩
  · rw [List.find?_cons_of_neg hfile, List.find?_nil, answers_local]
    exact ⟨fun h => iff_of_false hfile h, fun h => mt h.mpr hfile⟩

/-! ## Joined paths -/

theorem joinPath_absolute {baseDir path : String} (h : isAbsolute path = true) :
    joinPath baseDir path = path := if_pos (beq_iff_eq.mp h)

/-- What stands before a relative path does not depend on it. -/
theorem exists_joinPath (baseDir : String) :
    ∃ text, IsStem text ∧ ∀ path, isAbsolute path = false → joinPath baseDir path = text ++ path := by
  by_cases hbase : (baseDir.isEmpty || baseDir.toList.getLast? = some '/') = true
  · refine ⟨baseDir, ?_, fun path h => ?_⟩
    · rcases Bool.or_eq_true_iff.mp hbase with hempty | hlast
      · exact .inl (String.isEmpty_iff.mp hempty)
      · exact .inr (List.getLast?_eq_some_iff.mp (of_decide_eq_true hlast))
    · unfold joinPath
      rw [if_neg (beq_eq_false_iff_ne.mp h), if_pos hbase]
  · refine ⟨baseDir ++ "/", .inr ⟨baseDir.toList, String.toList_append⟩, fun path h => ?_⟩
    unfold joinPath
    rw [if_neg (beq_eq_false_iff_ne.mp h), if_neg hbase]

theorem isAbsolute_dotted (path : String) : isAbsolute ("./" ++ path) = false := by
  unfold isAbsolute
  rw [String.toList_append]
  rfl

theorem locate_joinPath {baseDir path : String} (hp : isAbsolute path = false)
    (he : tree.fileExists (joinPath baseDir path) = true) :
    tree.locate (joinPath baseDir ("./" ++ path)) = tree.locate (joinPath baseDir path) := by
  obtain ⟨text, htext, hjoin⟩ := exists_joinPath baseDir
  rw [hjoin path hp] at he ⊢
  rw [hjoin _ (isAbsolute_dotted path)]
  exact locate_dot htext hp he

/-- Next to the importing file, then in the project root. -/
theorem answers_relative {baseDir projectRoot path : String} {e : Exception}
    (hp : isAbsolute path = false) :
    Answers tree
        ([joinPath baseDir path, joinPath projectRoot path].find? tree.isFile)
        (if tree.fileExists (joinPath baseDir path) then
          resolveLocal (queries cache) ("./" ++ path) baseDir
        else if tree.fileExists (joinPath projectRoot path) then
          resolveLocal (queries cache) path projectRoot
        else .error e) ↔
      if tree.fileExists (joinPath baseDir path) then
        if tree.isFile (joinPath baseDir path) then Takes cache (joinPath baseDir path)
        else ¬tree.isFile (joinPath projectRoot path)
      else tree.isFile (joinPath projectRoot path) → Takes cache (joinPath projectRoot path) := by
  by_cases hexists : tree.fileExists (joinPath baseDir path) = true
  · have hsame := weaklyCanonical_congr (locate_joinPath hp hexists).symm hexists
    have htakes : Takes cache (joinPath baseDir path) ↔
        Takes cache (joinPath baseDir ("./" ++ path)) := takes_congr hsame
    rw [if_pos hexists, if_pos hexists, answers_local]
    by_cases hfile : tree.isFile (joinPath baseDir path) = true
    · rw [List.find?_cons_of_pos hfile, if_pos hfile]
      exact ⟨fun h => htakes.mpr h.2, fun h => ⟨hsame.symm, htakes.mp h⟩⟩
    · have hnot : ¬Takes cache (joinPath baseDir path) := by
        intro h
        exact hfile (isFile_weaklyCanonical hexists ▸ exists_of_takes h)
      rw [List.find?_cons_of_neg hfile, if_neg hfile]
      by_cases hroot : tree.isFile (joinPath projectRoot path) = true
      · rw [List.find?_cons_of_pos hroot]
        exact iff_of_false (fun h => hnot (htakes.mpr h.2)) (not_not.mpr hroot)
      · rw [List.find?_cons_of_neg hroot]
        exact iff_of_true (mt htakes.mpr hnot) hroot
  · have hfile : ¬tree.isFile (joinPath baseDir path) = true := mt fileExists_of_isFile hexists
    rw [if_neg hexists, if_neg hexists, List.find?_cons_of_neg hfile, answers_tested]
    unfold Leads
    by_cases hroot : tree.isFile (joinPath projectRoot path) = true
    · rw [if_pos hroot]
      exact ⟨fun h _ => h.2, fun h => ⟨rfl, h hroot⟩⟩
    · rw [if_neg hroot]
      refine iff_of_true (fun h htakes => ?_) (fun h => absurd h hroot)
      exact hroot (isFile_weaklyCanonical h ▸ exists_of_takes htakes)

/-- Both candidates are the path itself. -/
theorem answers_absolute {baseDir projectRoot path : String} {e : Exception}
    (hp : isAbsolute path = true) :
    Answers tree
        ([joinPath baseDir path, joinPath projectRoot path].find? tree.isFile)
        (if tree.fileExists (joinPath baseDir path) then
          resolveLocal (queries cache) ("./" ++ path) baseDir
        else if tree.fileExists (joinPath projectRoot path) then
          resolveLocal (queries cache) path projectRoot
        else .error e) ↔
      Leads cache path (joinPath baseDir ("./" ++ path)) := by
  have hfind : [path, path].find? tree.isFile = [path].find? tree.isFile := by
    by_cases hfile : tree.isFile path = true
    · rw [List.find?_cons_of_pos hfile, List.find?_cons_of_pos hfile]
    · rw [List.find?_cons_of_neg hfile]
  rw [joinPath_absolute hp, joinPath_absolute hp, hfind, ← answers_tested (e := e)]
  by_cases hexists : tree.fileExists path = true
  · rw [if_pos hexists, if_pos hexists]
  · rw [if_neg hexists, if_neg hexists, if_neg hexists]

variable (cache)

/-- The right file is found exactly when the path that is resolved leads where the path that
was tested does, and the cache takes what is there. -/
theorem findsFirst_iff (projectRoot importPath importingFile : String) :
    FindsFirst cache projectRoot importPath importingFile ↔
      Coincides cache projectRoot importPath importingFile := by
  unfold FindsFirst candidates resolve Coincides
  by_cases hdotted : isDotted importPath = true
  · have hstart : (startsWith importPath "./" || startsWith importPath "../") = true := hdotted
    rw [if_pos hdotted, if_pos hstart, if_pos hdotted]
    exact answers_untested
  have hstart : ¬(startsWith importPath "./" || startsWith importPath "../") = true := hdotted
  rw [if_neg hdotted, if_neg hstart, if_neg hdotted]
  by_cases hgithub : startsWith importPath "github.com/" = true
  · rw [if_pos hgithub, if_pos hgithub, if_pos hgithub]
    exact answers_tested
  rw [if_neg hgithub, if_neg hgithub, if_neg hgithub]
  by_cases habsolute : isAbsolute importPath = true
  · rw [if_pos habsolute]
    exact answers_absolute habsolute
  · rw [if_neg habsolute]
    exact answers_relative (Bool.eq_false_of_not_eq_true habsolute)

end Resolution

/-! ## A library outside the project -/

/-- A project in `/p` and a library in `/opt`. -/
def installed : FileTree :=
  ofEntries [[], ["p"], ["opt"]] [["p", "main.fal"], ["opt", "lib.fal"]] (by decide)
    (by decide) (by decide +kernel)

/-- It takes every file. -/
def takingAll (tree : FileTree) : Cache tree where
  store path := if tree.isFile path then .ok () else .error (.other ("no file: " ++ path))
  files_only path h := by
    split at h
    · assumption
    · cases h

/-- The library is there, but `./` before its path leads into the project. -/
theorem not_findsFirst_installed :
    ¬∀ (tree : FileTree) (cache : Cache tree) (projectRoot importPath importingFile : String),
      FindsFirst cache projectRoot importPath importingFile := by
  intro h
  have hfound := h installed (takingAll installed) "/p" "/opt/lib.fal" "/p/main.fal"
  have hfind : (candidates "/p" "/opt/lib.fal" "/p/main.fal").find? installed.isFile =
      some "/opt/lib.fal" := by decide +kernel
  have hfails : (resolve (queries (takingAll installed)) "/p" "/opt/lib.fal"
      "/p/main.fal").isOk = false := by decide +kernel
  unfold FindsFirst at hfound
  rw [hfind] at hfound
  rw [hfound] at hfails
  cases hfails

end FalconLib.PackageManager.ImportResolution
