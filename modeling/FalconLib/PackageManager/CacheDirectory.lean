import FalconLib.PackageManager.CacheSoundness

/-!
# The files of the cache directory

Which copies remain in the directory when sources are stored, removed from the index and
edited. A copy that no entry names can neither be found nor cleared any more, but it is listed.
-/

namespace FalconLib.PackageManager

open FalconLib.Base (StdMap)

open PackageCache

/-! ## The list of packages -/

/-- The path up to its last slash. -/
def directoryOf (path : String) : String :=
  String.ofList (path.toList.reverse.dropWhile (· ≠ '/')).reverse

/-- `path.extension()`. -/
def extension (path : String) : String :=
  let filename := (path.toList.reverse.takeWhile (· ≠ '/')).reverse
  let base := (filename.reverse.dropWhile (· ≠ '.')).drop 1
  if base.isEmpty || filename = ['.', '.'] then ""
  else String.ofList ('.' :: (filename.reverse.takeWhile (· ≠ '.')).reverse)

/-- A file that stands in the directory itself and has the extension of a source. -/
def isCachedFile (root path : String) : Bool :=
  directoryOf path == joinPath root "" && extension path == ".fal"

structure InstalledPackage where
  name : String
  version : String
  github : String
  cachedSha256 : String
  cachedPath : String

def installedPackage (path : String) : InstalledPackage where
  name := String.ofList ((stem path).toList.take 12) ++ "..."
  version := "cached"
  github := ""
  cachedSha256 := stem path
  cachedPath := path

/-- `PackageManager::list`. -/
def list (root : String) (files : StdMap String) : List InstalledPackage :=
  (files.toList.filter fun entry => isCachedFile root entry.1).map fun entry =>
    installedPackage entry.1

theorem list_eq_nil {root : String} {files : StdMap String}
    (h : ∀ path content : String, files[path]? = some content → isCachedFile root path = false) :
    list root files = [] := by
  have hnone : files.toList.filter (fun entry => isCachedFile root entry.1) = [] := by
    rw [List.filter_eq_nil_iff]
    rintro ⟨path, content⟩ hmem
    rw [h path content (Std.ExtTreeMap.mem_toList_iff_getElem?_eq_some.mp hmem)]
    exact Bool.false_ne_true
  unfold list
  rw [hnone]
  rfl

/-! ## Runs -/

variable (p : Platform) (root : String)

/-- The sources stand outside the directory, and every object is opened on it. -/
def CacheEvent.Apart : CacheEvent → Prop
  | store source | invalidate source => isCachedFile root (p.canonical source) = false
  | clear => True
  | restart cacheDir => p.canonical cacheDir = root
  | edit path _ => isCachedFile root (p.canonical path) = false

instance (event : CacheEvent) : Decidable (event.Apart p root) :=
  match event with
  | .store source | .invalidate source | .edit source _ =>
    inferInstanceAs (Decidable (isCachedFile root (p.canonical source) = false))
  | .clear => .isTrue trivial
  | .restart cacheDir => inferInstanceAs (Decidable (p.canonical cacheDir = root))

/-- The runs of a cache from a directory without cached files, with steps of a certain kind. -/
inductive DirectoryRun (condition : CacheState → CacheEvent → Prop) : CacheState → Prop where
  | start (files : StdMap String) (cacheDir : String) (hdir : p.canonical cacheDir = root)
      (hfiles : ∀ path content : String, files[path]? = some content →
        isCachedFile root path = false) :
      DirectoryRun condition ⟨⟨files, none⟩, openAt cacheDir ⟨files, none⟩, ∅⟩
  | step {s : CacheState} (event : CacheEvent) : DirectoryRun condition s →
      event.Apart p root → condition s event → DirectoryRun condition (s.next p event)

/-- Some entry names the file. -/
def Referenced (index : StdMap CacheEntry) (path : String) : Prop :=
  ∃ (k : String) (e : CacheEntry), index[k]? = some e ∧ p.canonical e.cachedPath = path

def NoOrphans (s : CacheState) : Prop :=
  ∀ path content : String, s.disk.files[path]? = some content → isCachedFile root path = true →
    Referenced p s.cache.index path

/-- Where a source is stored again, the copy that its old entry names is the one that is
written now, or is gone, or another entry names it as well. -/
def ReplacesNoLast (s : CacheState) : CacheEvent → Prop
  | .store source => ∀ content e, Disk.read p s.disk source = some content →
      s.cache.index[key p source]? = some e →
        p.canonical e.cachedPath = p.canonical (cachedPath s.cache (p.sha256 content)) ∨
          s.disk.files[p.canonical e.cachedPath]? = none ∨
            ∃ (k : String) (e' : CacheEntry), k ≠ key p source ∧ s.cache.index[k]? = some e' ∧
              p.canonical e'.cachedPath = p.canonical e.cachedPath
  | _ => True

/-! ## The invariant -/

variable {p root}

/-- The file on disk holds the index of the object, and every copy is named in it. -/
structure DirectoryInv (p : Platform) (root : String) (s : CacheState) : Prop where
  disk : loadIndex s.disk.index = s.cache.index
  noOrphans : NoOrphans p root s

theorem removeAll_of_mem {files : StdMap String} {entries : List (String × CacheEntry)}
    {entry : String × CacheEntry} (h : entry ∈ entries) :
    (removeAll p files entries)[p.canonical entry.2.cachedPath]? = none := by
  rw [Option.eq_none_iff_forall_ne_some]
  intro content hcontent
  induction entries generalizing files with
  | nil => exact absurd h List.not_mem_nil
  | cons first entries ih =>
    rcases List.mem_cons.mp h with rfl | hrest
    · have hfirst : (files.erase (p.canonical entry.2.cachedPath))[
          p.canonical entry.2.cachedPath]? = some content := removeAll_sub p hcontent
      rw [StdMap.getElem?_erase, if_pos rfl] at hfirst
      cases hfirst
    · exact ih hrest hcontent

/-- Clearing removes every copy that is named. -/
theorem DirectoryInv.cleared {s : CacheState} (h : DirectoryInv p root s) (path content : String)
    (hpath : (s.next p .clear).disk.files[path]? = some content) :
    isCachedFile root path = false := by
  by_contra hcached
  obtain ⟨k, e, he, rfl⟩ := h.noOrphans path content (removeAll_sub p hpath)
    (Bool.eq_true_of_not_eq_false hcached)
  have hmem := Std.ExtTreeMap.mem_toList_iff_getElem?_eq_some.mpr he
  exact absurd (hpath.symm.trans (removeAll_of_mem hmem)) (Option.some_ne_none content)

theorem DirectoryInv.store {s : CacheState} (h : DirectoryInv p root s) {source : String}
    (hreplaces : ReplacesNoLast p s (.store source)) :
    DirectoryInv p root (s.next p (.store source)) := by
  cases hread : Disk.read p s.disk source with
  | none =>
    rw [next_store_none hread]
    exact h
  | some content =>
    rw [next_store_some hread]
    refine ⟨loadIndex_saveIndex _, fun path old hpath hcached => ?_⟩
    change (s.disk.files.assign _ _)[path]? = some old at hpath
    change Referenced p (s.cache.index.assign _ _) path
    by_cases hdest : p.canonical (storedEntry p s.cache content).cachedPath = path
    · exact ⟨key p source, storedEntry p s.cache content, StdMap.getElem?_assign_self _ _ _, hdest⟩
    rw [StdMap.getElem?_assign_ne _ _ hdest] at hpath
    obtain ⟨k, e, he, rfl⟩ := h.noOrphans path old hpath hcached
    by_cases hk : key p source = k
    · -- the entry that named the file is the one that is replaced
      subst hk
      rcases hreplaces content e hread he with hsame | hgone | ⟨k', e', hne, he', hpath'⟩
      · exact absurd hsame.symm hdest
      · exact absurd (hpath.symm.trans hgone) (Option.some_ne_none old)
      · exact ⟨k', e', (StdMap.getElem?_assign_ne _ _ (Ne.symm hne)).trans he', hpath'⟩
    · exact ⟨k, e, (StdMap.getElem?_assign_ne _ _ hk).trans he, rfl⟩

theorem DirectoryInv.invalidate {s : CacheState} (h : DirectoryInv p root s) (source : String) :
    DirectoryInv p root (s.next p (.invalidate source)) := by
  cases he : s.cache.index[key p source]? with
  | none =>
    change DirectoryInv p root ⟨_, _, _⟩
    rw [invalidate_none p he]
    exact ⟨h.disk, h.noOrphans⟩
  | some e =>
    change DirectoryInv p root ⟨_, _, _⟩
    rw [invalidate_some p he]
    refine ⟨loadIndex_saveIndex _, fun path old hpath hcached => ?_⟩
    change (releasedFiles p (s.cache.index.erase (key p source)) s.disk e)[path]? = some old at hpath
    change Referenced p (s.cache.index.erase (key p source)) path
    obtain ⟨k, found, hfound, rfl⟩ := h.noOrphans path old (releasedFiles_sub p hpath) hcached
    by_cases hk : key p source = k
    · -- the copy of the removed entry stays only where another entry names it
      subst hk
      obtain rfl := Option.some.inj (hfound.symm.trans he)
      unfold releasedFiles at hpath
      by_cases href : referenced (s.cache.index.erase (key p source)) found.cachedPath
      · obtain ⟨k', e', he', hpath'⟩ := referenced_iff.mp href
        exact ⟨k', e', he', congrArg p.canonical hpath'⟩
      · rw [if_neg href, StdMap.getElem?_erase, if_pos rfl] at hpath
        cases hpath
    · refine ⟨k, found, ?_, rfl⟩
      rw [StdMap.getElem?_erase, if_neg hk, hfound]

theorem DirectoryInv.edit {s : CacheState} (h : DirectoryInv p root s) {path : String}
    (hpath : isCachedFile root (p.canonical path) = false) (content : Option String) :
    DirectoryInv p root (s.next p (.edit path content)) := by
  refine ⟨?_, fun path' old hold hcached => ?_⟩
  · change loadIndex (Disk.write p s.disk path content).index = _
    rw [index_write]
    exact h.disk
  · replace hold := (getElem?_write s.disk path path' content).symm.trans hold
    by_cases heq : p.canonical path = path'
    · subst heq
      rw [hpath] at hcached
      cases hcached
    · rw [if_neg heq] at hold
      exact h.noOrphans path' old hold hcached

theorem DirectoryInv.next {s : CacheState} (h : DirectoryInv p root s) {event : CacheEvent}
    (hapart : event.Apart p root) (hreplaces : ReplacesNoLast p s event) :
    DirectoryInv p root (s.next p event) := by
  cases event with
  | store source => exact h.store hreplaces
  | invalidate source => exact h.invalidate source
  | clear =>
    refine ⟨rfl, fun path content hpath hcached => ?_⟩
    rw [h.cleared path content hpath] at hcached
    cases hcached
  | restart cacheDir =>
    refine ⟨rfl, fun path content hpath hcached => ?_⟩
    change Referenced p (loadIndex s.disk.index) path
    rw [h.disk]
    exact h.noOrphans path content hpath hcached
  | edit path content => exact h.edit hapart content

theorem directoryInv_run {s : CacheState} (h : DirectoryRun p root (ReplacesNoLast p) s) :
    DirectoryInv p root s := by
  induction h with
  | start files cacheDir _ hfiles =>
    refine ⟨rfl, fun path content hpath hcached => ?_⟩
    rw [hfiles path content hpath] at hcached
    cases hcached
  | step event _ hapart hreplaces ih => exact ih.next hapart hreplaces

theorem isCachedFile_twoSources (path content : String)
    (h : twoSources[path]? = some content) : isCachedFile "/w/cache" path = false := by
  unfold twoSources at h
  rw [StdMap.getElem?_assign, StdMap.getElem?_assign] at h
  split_ifs at h with hb ha
  · rw [← hb]
    decide +kernel
  · rw [← ha]
    decide +kernel
  · cases h

def opened : CacheState := ⟨⟨twoSources, none⟩, openAt "cache" ⟨twoSources, none⟩, ∅⟩

/-- A source is edited after it was stored. -/
def edited (s : CacheState) : CacheState :=
  (s.next inW (.store "a.fal")).next inW (.edit "a.fal" (some "y"))

theorem run_edited {condition : CacheState → CacheEvent → Prop} {s : CacheState}
    (h : DirectoryRun inW "/w/cache" condition s) (hstore : condition s (.store "a.fal"))
    (hedit : condition (s.next inW (.store "a.fal")) (.edit "a.fal" (some "y"))) :
    DirectoryRun inW "/w/cache" condition (edited s) :=
  (h.step (.store "a.fal") (by decide +kernel) hstore).step (.edit "a.fal" (some "y"))
    (by decide +kernel) hedit

theorem run_opened (condition : CacheState → CacheEvent → Prop) :
    DirectoryRun inW "/w/cache" condition opened :=
  .start twoSources "cache" (by decide +kernel) isCachedFile_twoSources

theorem replacesNoLast_of_absent {s : CacheState} {source : String}
    (h : s.cache.index[key p source]? = none) : ReplacesNoLast p s (.store source) :=
  fun _ e _ he => absurd (h.symm.trans he) (Option.some_ne_none e).symm

end FalconLib.PackageManager
