import FalconLib.Base.Json
import FalconLib.Base.StdMap
import FalconLib.PackageManager.PackageResolver

/-!
# The package cache

An index maps the canonical path of a source to the hash of its content and to the path of a
copy that is named after the hash. A `PackageCache` reads the index file when it is opened and
rewrites the whole of it on every change.
-/

namespace FalconLib.PackageManager

open FalconLib.Base (StdMap Json)

/-- What the cache is built on. Neither the working directory nor a link changes. -/
structure Platform where
  /-- `weakly_canonical(path).string()`. -/
  canonical : String → String
  /-- `sha256_string`. -/
  sha256 : String → String

structure CacheEntry where
  sha256 : String
  cachedPath : String
deriving DecidableEq

/-- The files by canonical path, and the JSON document in the index file of the cache. -/
structure Disk where
  files : StdMap String
  index : Option Json

structure PackageCache where
  cacheDir : String
  index : StdMap CacheEntry

namespace PackageCache

/-! ## The index file -/

def entryJson (e : CacheEntry) : Json :=
  .object [("cached_path", .string e.cachedPath), ("sha256", .string e.sha256)]

def indexMembers (index : StdMap CacheEntry) : List (String × Json) :=
  index.toList.map fun p => (p.1, entryJson p.2)

/-- `save_index`. Without an entry the document stays null. -/
def saveIndex (index : StdMap CacheEntry) : Json :=
  if (indexMembers index).isEmpty then .null else .object (indexMembers index)

def readEntry (j : Json) : Option CacheEntry :=
  match j.find? "sha256", j.find? "cached_path" with
  | some (.string sha256), some (.string cachedPath) => some ⟨sha256, cachedPath⟩
  | _, _ => none

def readMembers (members : List (String × Json)) : Option (List (String × CacheEntry)) :=
  members.mapM fun m => (readEntry m.2).map fun e => (m.1, e)

/-- What the loop over the document fills in, unless it throws. -/
def readIndex : Json → Option (List (String × CacheEntry))
  | .null => some []
  | .array [] => some []
  | .object members => readMembers members
  | _ => none

/-- `load_index`. An index that cannot be read counts as empty. -/
def loadIndex : Option Json → StdMap CacheEntry
  | none => ∅
  | some j => ((readIndex j).map (StdMap.assignAll ∅)).getD ∅

theorem readMembers_entryJson (entries : List (String × CacheEntry)) :
    readMembers (entries.map fun p => (p.1, entryJson p.2)) = some entries := by
  induction entries with
  | nil => rfl
  | cons entry entries ih =>
    unfold readMembers at ih ⊢
    rw [List.map_cons, List.mapM_cons, ih]
    rfl

/-- A new object reads the index that the last one wrote. -/
theorem loadIndex_saveIndex (index : StdMap CacheEntry) :
    loadIndex (some (saveIndex index)) = index := by
  have hmembers : readMembers (indexMembers index) = some index.toList :=
    readMembers_entryJson index.toList
  have hread : readIndex (saveIndex index) = some index.toList := by
    unfold saveIndex
    by_cases h : (indexMembers index).isEmpty
    · rw [if_pos h]
      rw [List.isEmpty_iff.mp h] at hmembers
      exact hmembers
    · rw [if_neg h]
      exact hmembers
  unfold loadIndex
  simp only [hread, Option.map_some, Option.getD_some]
  exact StdMap.assignAll_toList index

/-! ## The operations -/

variable (p : Platform)

/-- `std::filesystem::exists(path)`, and the content. -/
def Disk.read (d : Disk) (path : String) : Option String := d.files[p.canonical path]?

def key (source : String) : String := p.canonical source

def lookup (c : PackageCache) (d : Disk) (source : String) : Option String :=
  match c.index[key p source]? with
  | none => none
  | some e =>
    if (Disk.read p d e.cachedPath).isNone then none
    else
      match Disk.read p d source with
      | none => none
      | some content => if p.sha256 content = e.sha256 then some e.cachedPath else none

def cachedName (sha : String) : String := sha ++ ".fal"

def cachedPath (c : PackageCache) (sha : String) : String := joinPath c.cacheDir (cachedName sha)

def storedEntry (c : PackageCache) (content : String) : CacheEntry :=
  ⟨p.sha256 content, cachedPath c (p.sha256 content)⟩

def storedIndex (c : PackageCache) (source content : String) : StdMap CacheEntry :=
  c.index.assign (key p source) (storedEntry p c content)

/-- The copy overwrites a file of the same name. -/
def storedFiles (c : PackageCache) (d : Disk) (content : String) : StdMap String :=
  d.files.assign (p.canonical (storedEntry p c content).cachedPath) content

/-- Throws when the source cannot be opened, before anything has changed. -/
def store (c : PackageCache) (d : Disk) (source : String) :
    Except String (String × PackageCache × Disk) :=
  match Disk.read p d source with
  | none => .error ("Cannot open for hashing: " ++ source)
  | some content =>
    .ok ((storedEntry p c content).cachedPath, ⟨c.cacheDir, storedIndex p c source content⟩,
      ⟨storedFiles p c d content, some (saveIndex (storedIndex p c source content))⟩)

/-- Whether some entry names the cached file by this path. -/
def referenced (index : StdMap CacheEntry) (path : String) : Bool :=
  index.toList.any fun entry => entry.2.cachedPath == path

/-- The files when the entry has been removed from the index. -/
def releasedFiles (index : StdMap CacheEntry) (d : Disk) (e : CacheEntry) : StdMap String :=
  if referenced index e.cachedPath then d.files else d.files.erase (p.canonical e.cachedPath)

def invalidate (c : PackageCache) (d : Disk) (source : String) : PackageCache × Disk :=
  match c.index[key p source]? with
  | none => (c, d)
  | some e =>
    let index := c.index.erase (key p source)
    (⟨c.cacheDir, index⟩, ⟨releasedFiles p index d e, some (saveIndex index)⟩)

def removeAll (files : StdMap String) (entries : List (String × CacheEntry)) : StdMap String :=
  entries.foldl (fun files entry => files.erase (p.canonical entry.2.cachedPath)) files

def clear (c : PackageCache) (d : Disk) : PackageCache × Disk :=
  (⟨c.cacheDir, ∅⟩, ⟨removeAll p d.files c.index.toList, none⟩)

/-- The constructor. -/
def openAt (cacheDir : String) (d : Disk) : PackageCache := ⟨cacheDir, loadIndex d.index⟩

theorem invalidate_none {c : PackageCache} {source : String}
    (h : c.index[key p source]? = none) (d : Disk) : invalidate p c d source = (c, d) := by
  unfold invalidate
  simp only [h]

theorem invalidate_some {c : PackageCache} {source : String} {e : CacheEntry}
    (h : c.index[key p source]? = some e) (d : Disk) :
    invalidate p c d source = (⟨c.cacheDir, c.index.erase (key p source)⟩,
      ⟨releasedFiles p (c.index.erase (key p source)) d e,
        some (saveIndex (c.index.erase (key p source)))⟩) := by
  unfold invalidate
  simp only [h]

theorem referenced_iff {index : StdMap CacheEntry} {path : String} :
    referenced index path = true ↔ ∃ (k : String) (e : CacheEntry), index[k]? = some e ∧
      e.cachedPath = path := by
  unfold referenced
  rw [List.any_eq_true]
  constructor
  · rintro ⟨⟨k, e⟩, hmem, heq⟩
    exact ⟨k, e, Std.ExtTreeMap.mem_toList_iff_getElem?_eq_some.mp hmem, beq_iff_eq.mp heq⟩
  · rintro ⟨k, e, hk, heq⟩
    exact ⟨(k, e), Std.ExtTreeMap.mem_toList_iff_getElem?_eq_some.mpr hk, beq_iff_eq.mpr heq⟩

/-- A copy that another entry names by the same path stays. -/
theorem getElem?_releasedFiles {index : StdMap CacheEntry} {d : Disk} {e e' : CacheEntry}
    {k : String} (hk : index[k]? = some e')
    (hspelled : p.canonical e'.cachedPath = p.canonical e.cachedPath → e'.cachedPath = e.cachedPath) :
    (releasedFiles p index d e)[p.canonical e'.cachedPath]? =
      d.files[p.canonical e'.cachedPath]? := by
  unfold releasedFiles
  by_cases href : referenced index e.cachedPath
  · rw [if_pos href]
  · rw [if_neg href, StdMap.getElem?_erase, if_neg]
    exact fun heq => href (referenced_iff.mpr ⟨k, e', hk, hspelled heq.symm⟩)

/-- Only the copy of the entry can go. -/
theorem getElem?_releasedFiles_of_ne (index : StdMap CacheEntry) (d : Disk) {e : CacheEntry}
    {path : String} (h : path ≠ p.canonical e.cachedPath) :
    (releasedFiles p index d e)[path]? = d.files[path]? := by
  unfold releasedFiles
  by_cases href : referenced index e.cachedPath
  · rw [if_pos href]
  · rw [if_neg href, StdMap.getElem?_erase, if_neg (Ne.symm h)]

theorem removeAll_sub {files : StdMap String} {entries : List (String × CacheEntry)}
    {path content : String} (h : (removeAll p files entries)[path]? = some content) :
    files[path]? = some content := by
  induction entries generalizing files with
  | nil => exact h
  | cons entry entries ih =>
    have hrest : (files.erase (p.canonical entry.2.cachedPath))[path]? = some content := ih h
    rw [StdMap.getElem?_erase] at hrest
    by_cases heq : p.canonical entry.2.cachedPath = path
    · rw [if_pos heq] at hrest
      cases hrest
    · rwa [if_neg heq] at hrest

theorem releasedFiles_sub {index : StdMap CacheEntry} {d : Disk} {e : CacheEntry}
    {path content : String} (h : (releasedFiles p index d e)[path]? = some content) :
    d.files[path]? = some content := by
  by_cases heq : path = p.canonical e.cachedPath
  · unfold releasedFiles at h
    by_cases href : referenced index e.cachedPath
    · rwa [if_pos href] at h
    · rw [if_neg href, StdMap.getElem?_erase, if_pos heq.symm] at h
      cases h
  · rwa [getElem?_releasedFiles_of_ne p index d heq] at h

end PackageCache

end FalconLib.PackageManager
