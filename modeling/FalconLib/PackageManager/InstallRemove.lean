import FalconLib.Base.Computation
import FalconLib.PackageManager.CacheDirectory

/-!
# Installing and removing packages

`install` names the dependency after the path and caches every file of the source. `remove` takes
the first dependency of the name, and the one cache entry of its path.
-/

namespace FalconLib.PackageManager

open FalconLib.Base (Comp StdMap)
open PackageCache (Disk.read key storedEntry)

structure Dependency where
  name : String
  version : String
  github : Option String
  localPath : Option String
deriving DecidableEq

structure Project where
  dependencies : List Dependency
  /-- The dependencies in `falcon.yml`, if there is such a file. -/
  manifest : Option (List Dependency)
  cache : PackageCache
  disk : Disk

abbrev Pm (α : Type) : Type := Comp Empty String Project α

/-- The directories: the paths below each, in the order of the iterator. -/
abbrev Walk : Type := String → Option (List String)

namespace Project

variable (p : Platform) (walk : Walk)

def storeFile (source : String) : Pm Unit := fun s =>
  match PackageCache.store p s.cache s.disk source with
  | .ok (_, cache, disk) => ⟨[], .ok () { s with cache := cache, disk := disk }⟩
  | .error what => ⟨[], .throw what s⟩

def storeFiles : List String → Pm Unit
  | [] => pure ()
  | file :: files => do
    storeFile p file
    storeFiles files

def isFal (path : String) : Bool := extension path == ".fal"

def saveManifest : Pm Unit :=
  Comp.modify fun s => { s with manifest := s.manifest.map fun _ => s.dependencies }

def addDependency (source version : String) : Pm Unit := do
  Comp.modify fun s => { s with
    dependencies := s.dependencies ++ [⟨stem source, version, none, some (p.canonical source)⟩] }
  saveManifest

def storeSource (source : String) : Pm Unit :=
  match walk source with
  | some entries => storeFiles p (entries.filter isFal)
  | none => storeFile p source

def install (source version : String) : Pm Unit := do
  let d ← Comp.gets disk
  if (walk source).isNone && (Disk.read p d source).isNone then
    Comp.throw ("install: source not found: " ++ source)
  else
    storeSource p walk source
    let deps ← Comp.gets dependencies
    if deps.any (·.name == stem source) then pure () else addDependency p source version

/-- The cache when a dependency goes. -/
def invalidateLocal (dep : Dependency) (s : Project) : Project :=
  match dep.localPath with
  | some path =>
    let (cache, disk) := PackageCache.invalidate p s.cache s.disk path
    { s with cache := cache, disk := disk }
  | none => s

def remove (packageName : String) : Pm Unit := do
  let deps ← Comp.gets dependencies
  match deps.find? (·.name == packageName) with
  | some dep =>
    Comp.modify (invalidateLocal p dep)
    Comp.modify fun s => { s with dependencies := s.dependencies.eraseP (·.name == packageName) }
    saveManifest
  | none => Comp.throw ("remove: package '" ++ packageName ++ "' not found in manifest")

/-! ## Storing files -/

/-- No copy is written over the file. -/
def ApartFrom (c : PackageCache) (file : String) : Prop :=
  ∀ content, p.canonical (storedEntry p c content).cachedPath ≠ p.canonical file

theorem storeFile_eq_ok {source : String} {s u : Project}
    (h : (storeFile p source s).outcome = .ok () u) : ∃ content,
      Disk.read p s.disk source = some content ∧ u.dependencies = s.dependencies ∧
      u.manifest = s.manifest ∧ u.cache.cacheDir = s.cache.cacheDir ∧
      u.cache.index = s.cache.index.assign (key p source) (storedEntry p s.cache content) ∧
      u.disk.files = PackageCache.storedFiles p s.cache s.disk content := by
  unfold storeFile PackageCache.store at h
  cases hread : Disk.read p s.disk source with
  | none =>
    rw [hread] at h
    cases h
  | some content =>
    rw [hread] at h
    cases h
    exact ⟨content, rfl, rfl, rfl, rfl, rfl, rfl⟩

theorem read_of_apartFrom {c : PackageCache} {d d' : Disk} {content file : String}
    (hd : d'.files = PackageCache.storedFiles p c d content) (h : ApartFrom p c file) :
    Disk.read p d' file = Disk.read p d file := by
  change d'.files[p.canonical file]? = d.files[p.canonical file]?
  rw [hd]
  exact StdMap.getElem?_assign_ne _ _ (h _)

theorem ApartFrom.of_cacheDir {c c' : PackageCache} {file : String}
    (hdir : c'.cacheDir = c.cacheDir) (h : ApartFrom p c file) : ApartFrom p c' file := by
  unfold ApartFrom storedEntry PackageCache.cachedPath at *
  rw [hdir]
  exact h

theorem storedEntry_congr {c c' : PackageCache} (hdir : c'.cacheDir = c.cacheDir)
    (content : String) : storedEntry p c' content = storedEntry p c content := by
  unfold storedEntry PackageCache.cachedPath
  rw [hdir]

/-- The entry for a file, if the file can be read. -/
def entryOf (c : PackageCache) (d : Disk) (file : String) : Option CacheEntry :=
  (Disk.read p d file).map (storedEntry p c)

/-- What storing files one after the other leaves. -/
structure Stored (files : List String) (s u : Project) : Prop where
  dependencies : u.dependencies = s.dependencies
  manifest : u.manifest = s.manifest
  /-- A file has its entry afterwards. -/
  entry : ∀ file ∈ files, (entryOf p s.cache s.disk file).isSome ∧
    u.cache.index[key p file]? = entryOf p s.cache s.disk file
  other : ∀ k, (∀ file ∈ files, key p file ≠ k) → u.cache.index[k]? = s.cache.index[k]?

theorem storeFiles_eq_ok {files : List String} {s u : Project}
    (hapart : ∀ file ∈ files.tail, ApartFrom p s.cache file)
    (h : (storeFiles p files s).outcome = .ok () u) : Stored p files s u := by
  induction files generalizing s with
  | nil =>
    cases h
    exact ⟨rfl, rfl, nofun, fun _ _ => rfl⟩
  | cons file files ih =>
    obtain ⟨_, t, hfile, hfiles⟩ := Comp.bind_eq_ok h
    obtain ⟨content, hread, hdeps, hmanifest, hdir, hindex, hdisk⟩ := storeFile_eq_ok p hfile
    have hrest : ∀ file' ∈ files, ApartFrom p s.cache file' := hapart
    have hstored := ih (fun file' hm =>
      (hrest file' (List.mem_of_mem_tail hm)).of_cacheDir p hdir) hfiles
    have hsame : ∀ file', ApartFrom p s.cache file' →
        entryOf p t.cache t.disk file' = entryOf p s.cache s.disk file' := by
      intro file' hfile'
      unfold entryOf
      rw [read_of_apartFrom p hdisk hfile', funext (storedEntry_congr p hdir)]
    have hentry : entryOf p s.cache s.disk file = some (storedEntry p s.cache content) := by
      unfold entryOf
      rw [hread]
      rfl
    refine ⟨hstored.dependencies.trans hdeps, hstored.manifest.trans hmanifest, ?_, ?_⟩
    · intro file' hm
      by_cases hin : ∃ other ∈ files, key p other = key p file'
      · obtain ⟨other, hother, hkey⟩ := hin
        obtain ⟨hsome, hother'⟩ := hstored.entry other hother
        have hread' : Disk.read p s.disk other = Disk.read p s.disk file' := by
          change s.disk.files[key p other]? = s.disk.files[key p file']?
          rw [hkey]
        have hequal : entryOf p t.cache t.disk other = entryOf p s.cache s.disk file' := by
          rw [hsame other (hrest other hother)]
          unfold entryOf
          rw [hread']
        rw [hequal] at hsome hother'
        exact ⟨hsome, hkey ▸ hother'⟩
      · have hnot : ∀ other ∈ files, key p other ≠ key p file' :=
          fun other hother hkey => hin ⟨other, hother, hkey⟩
        rcases List.mem_cons.mp hm with rfl | hm
        · rw [hstored.other _ hnot, hindex, hentry]
          exact ⟨rfl, StdMap.getElem?_assign_self _ _ _⟩
        · exact absurd rfl (hnot file' hm)
    · intro k hk
      obtain ⟨hne, hnes⟩ := List.forall_mem_cons.mp hk
      rw [hstored.other k hnes, hindex]
      exact StdMap.getElem?_assign_ne _ _ hne

/-! ## Installing -/

/-- The files that are stored for a source. -/
def filesOf (source : String) : List String :=
  match walk source with
  | some entries => entries.filter isFal
  | none => [source]

theorem storeSource_outcome (source : String) (s : Project) :
    (storeSource p walk source s).outcome = (storeFiles p (filesOf walk source) s).outcome := by
  unfold storeSource filesOf
  cases walk source with
  | some entries => rfl
  | none =>
    dsimp only
    unfold storeFiles
    cases h : (storeFile p source s).outcome with
    | ok value t =>
      rw [Comp.bind_of_ok h]
      rfl
    | throw e t => rw [Comp.bind_of_throw h]
    | halt reason =>
      unfold storeFile at h
      cases hstore : PackageCache.store p s.cache s.disk source with
      | ok stored =>
        rw [hstore] at h
        cases h
      | error what =>
        rw [hstore] at h
        cases h

/-- The dependency that is added for a source. -/
def dependencyOf (source version : String) : Dependency :=
  ⟨stem source, version, none, some (p.canonical source)⟩

theorem install_eq_ok {source version : String} {s u : Project}
    (h : (install p walk source version s).outcome = .ok () u) :
    ∃ t, (storeFiles p (filesOf walk source) s).outcome = .ok () t ∧
      ((∃ dep ∈ t.dependencies, dep.name = stem source) ∧ u = t ∨
        (∀ dep ∈ t.dependencies, dep.name ≠ stem source) ∧
          u.dependencies = t.dependencies ++ [dependencyOf p source version] ∧
          u.manifest = t.manifest.map (fun _ => u.dependencies) ∧ u.cache = t.cache ∧
          u.disk = t.disk) := by
  unfold install at h
  rw [Comp.outcome_gets_bind] at h
  split at h
  · cases h
  obtain ⟨_, t, hstore, h⟩ := Comp.bind_eq_ok h
  rw [storeSource_outcome] at hstore
  refine ⟨t, hstore, ?_⟩
  rw [Comp.outcome_gets_bind] at h
  by_cases hany : t.dependencies.any (·.name == stem source) = true
  · rw [if_pos hany] at h
    cases h
    obtain ⟨dep, hm, hname⟩ := List.any_eq_true.mp hany
    exact .inl ⟨⟨dep, hm, beq_iff_eq.mp hname⟩, rfl⟩
  · rw [if_neg hany] at h
    cases h
    refine .inr ⟨fun dep hm hname => hany ?_, rfl, rfl, rfl, rfl⟩
    exact List.any_eq_true.mpr ⟨dep, hm, beq_iff_eq.mpr hname⟩

/-! ## Removing -/

theorem getElem?_invalidate (c : PackageCache) (d : Disk) (source k : String) :
    (PackageCache.invalidate p c d source).1.index[k]? =
      if key p source = k then none else c.index[k]? := by
  cases hentry : c.index[key p source]? with
  | none =>
    rw [PackageCache.invalidate_none p hentry]
    by_cases hk : key p source = k
    · rw [if_pos hk, ← hk]
      exact hentry
    · rw [if_neg hk]
  | some e =>
    rw [PackageCache.invalidate_some p hentry]
    exact StdMap.getElem?_erase _ _ _

theorem remove_outcome {packageName : String} {s : Project} {dep : Dependency}
    (h : s.dependencies.find? (·.name == packageName) = some dep) :
    ∃ r, (remove p packageName s).outcome = .ok () r ∧
      r.dependencies = s.dependencies.eraseP (·.name == packageName) ∧
      r.manifest = s.manifest.map (fun _ => r.dependencies) ∧
      r.cache = (invalidateLocal p dep s).cache := by
  have hsame : ∀ t, (invalidateLocal p dep t).dependencies = t.dependencies ∧
      (invalidateLocal p dep t).manifest = t.manifest := by
    intro t
    unfold invalidateLocal
    cases dep.localPath <;> exact ⟨rfl, rfl⟩
  unfold remove
  rw [Comp.outcome_gets_bind, h]
  refine ⟨_, rfl, ?_, ?_, rfl⟩
  · exact congrArg (List.eraseP _) (hsame s).1
  · exact congrArg (Option.map _) (hsame s).2

/-- A removal takes one dependency away. -/
theorem length_of_remove {packageName : String} {s r : Project}
    (h : (remove p packageName s).outcome = .ok () r) :
    r.dependencies.length + 1 = s.dependencies.length := by
  cases hfind : s.dependencies.find? (·.name == packageName) with
  | none =>
    unfold remove at h
    rw [Comp.outcome_gets_bind, hfind] at h
    cases h
  | some dep =>
    obtain ⟨r', hremove, hdeps, _⟩ := remove_outcome p hfind
    rw [h] at hremove
    obtain rfl := (Base.Outcome.ok.inj hremove).2
    rw [hdeps]
    have hm := List.mem_of_find?_eq_some hfind
    have hlength := List.length_eraseP_of_mem hm (List.find?_some hfind)
    have hpos := List.length_pos_of_mem hm
    omega

/-- The dependency that was added last, and its entry, go. -/
theorem remove_added {source version : String} {s : Project} {deps : List Dependency}
    (hcanonical : p.canonical (p.canonical source) = p.canonical source)
    (hdeps : s.dependencies = deps ++ [dependencyOf p source version])
    (hnew : ∀ dep ∈ deps, dep.name ≠ stem source) :
    ∃ r, (remove p (stem source) s).outcome = .ok () r ∧ r.dependencies = deps ∧
      r.manifest = s.manifest.map (fun _ => deps) ∧ ∀ k, r.cache.index[k]? =
        if p.canonical source = k then none else s.cache.index[k]? := by
  have hnone : deps.find? (·.name == stem source) = none :=
    List.find?_eq_none.mpr fun dep hm hname => hnew dep hm (beq_iff_eq.mp hname)
  have hself : ((dependencyOf p source version).name == stem source) = true := beq_self_eq_true _
  have hfind : s.dependencies.find? (·.name == stem source) =
      some (dependencyOf p source version) := by
    rw [hdeps, List.find?_append, hnone, Option.none_or]
    exact List.find?_cons_of_pos hself
  have herase : s.dependencies.eraseP (·.name == stem source) = deps := by
    have hlast : [dependencyOf p source version].eraseP (·.name == stem source) = [] :=
      List.eraseP_cons_of_pos hself
    rw [hdeps, List.eraseP_append_right _ fun dep hm hname => hnew dep hm (beq_iff_eq.mp hname),
      hlast, List.append_nil]
  obtain ⟨r, hremove, hr, hmanifest, hcache⟩ := remove_outcome p hfind
  rw [herase] at hr
  rw [hr] at hmanifest
  refine ⟨r, hremove, hr, hmanifest, fun k => ?_⟩
  rw [hcache]
  refine (getElem?_invalidate p s.cache s.disk (p.canonical source) k).trans ?_
  unfold key
  rw [hcanonical]

/-- What a removal must undo. -/
structure Restored (s r : Project) : Prop where
  dependencies : r.dependencies = s.dependencies
  index : r.cache.index = s.cache.index
  manifest : s.manifest = none ∨ s.manifest = some s.dependencies → r.manifest = s.manifest

theorem forall_filesOf {source : String} {s : Project} :
    (∀ file ∈ filesOf walk source, p.canonical file = p.canonical source ∨
      s.cache.index[p.canonical file]? = entryOf p s.cache s.disk file) ↔
    ∀ entries, walk source = some entries → ∀ file ∈ entries, extension file = ".fal" →
      p.canonical file = p.canonical source ∨
        s.cache.index[p.canonical file]? = entryOf p s.cache s.disk file := by
  unfold filesOf
  cases walk source with
  | none => exact iff_of_true (List.forall_mem_singleton.mpr (.inl rfl)) nofun
  | some entries =>
    constructor
    · intro h _ hentries file hm hfal
      cases hentries
      exact h file (List.mem_filter.mpr ⟨hm, beq_iff_eq.mpr hfal⟩)
    · intro h file hm
      obtain ⟨hm, hfal⟩ := List.mem_filter.mp hm
      exact h entries rfl file hm (beq_iff_eq.mp hfal)

/-- The removal takes away what the installation of a file or of cached files has added. -/
theorem restored_iff {source version : String} {s u : Project}
    (hcanonical : p.canonical (p.canonical source) = p.canonical source)
    (hapart : ∀ entries, walk source = some entries → ∀ file ∈ entries, extension file = ".fal" →
      ApartFrom p s.cache file)
    (h : (install p walk source version s).outcome = .ok () u) :
    (∃ r, (remove p (stem source) u).outcome = .ok () r ∧ Restored s r) ↔
      (∀ dep ∈ s.dependencies, dep.name ≠ stem source) ∧
      s.cache.index[p.canonical source]? = none ∧
      ∀ entries, walk source = some entries → ∀ file ∈ entries, extension file = ".fal" →
        p.canonical file = p.canonical source ∨
          s.cache.index[p.canonical file]? = entryOf p s.cache s.disk file := by
  obtain ⟨t, hstore, hadded⟩ := install_eq_ok p walk h
  have hstored : Stored p (filesOf walk source) s t := by
    refine storeFiles_eq_ok p (fun file hm => ?_) hstore
    unfold filesOf at hm
    cases hwalk : walk source with
    | none =>
      rw [hwalk] at hm
      cases hm
    | some entries =>
      rw [hwalk] at hm
      obtain ⟨hm, hfal⟩ := List.mem_filter.mp (List.mem_of_mem_tail hm)
      exact hapart entries hwalk file hm (beq_iff_eq.mp hfal)
  rcases hadded with ⟨⟨dep, hdep, hname⟩, rfl⟩ | ⟨hnew, hdeps, hmanifest, hcache, _⟩
  · rw [hstored.dependencies] at hdep
    refine iff_of_false ?_ fun hcond => hcond.1 dep hdep hname
    rintro ⟨r, hremove, hrestored⟩
    have hlength := length_of_remove p hremove
    rw [hrestored.dependencies, hstored.dependencies] at hlength
    omega
  · obtain ⟨r, hremove, hr, hrmanifest, hrindex⟩ := remove_added p hcanonical hdeps hnew
    rw [hcache] at hrindex
    rw [hstored.dependencies] at hnew hr hrmanifest
    rw [and_iff_right hnew, ← forall_filesOf p walk]
    constructor
    · rintro ⟨r', hremove', hrestored⟩
      rw [hremove] at hremove'
      obtain rfl := (Base.Outcome.ok.inj hremove').2
      rw [hrestored.index] at hrindex
      refine ⟨(hrindex _).trans (if_pos rfl), fun file hm => ?_⟩
      by_cases hkey : p.canonical source = p.canonical file
      · exact .inl hkey.symm
      · refine .inr (((hrindex _).trans (if_neg hkey)).trans ?_)
        exact (hstored.entry file hm).2
    · rintro ⟨habsent, hcached⟩
      refine ⟨r, hremove, hr, StdMap.ext fun k => ?_, fun hsaved => ?_⟩
      · rw [hrindex]
        by_cases hk : p.canonical source = k
        · rw [if_pos hk, ← hk]
          exact habsent.symm
        · rw [if_neg hk]
          by_cases hin : ∃ file ∈ filesOf walk source, key p file = k
          · obtain ⟨file, hm, rfl⟩ := hin
            rw [(hstored.entry file hm).2]
            exact ((hcached file hm).resolve_left (Ne.symm hk)).symm
          · exact hstored.other k fun file hm hkey => hin ⟨file, hm, hkey⟩
      · rw [hrmanifest, hmanifest, hstored.manifest]
        rcases hsaved with hsaved | hsaved <;> rw [hsaved] <;> rfl

/-! A project without packages, a file `/w/a.fal` and a directory `/w/lib` with one file. -/

def walkLib : Walk := fun path => if path = "/w/lib" then some ["/w/lib/b.fal"] else none

def bareProject : Project where
  dependencies := []
  manifest := some []
  cache := ⟨"/w/cache", ∅⟩
  disk := ⟨(StdMap.assign ∅ "/w/a.fal" "x").assign "/w/lib/b.fal" "x", none⟩

theorem restored_iff_file : ∃ u r,
    (install inW walkLib "/w/a.fal" "*" bareProject).outcome = .ok () u ∧
    (remove inW "a" u).outcome = .ok () r ∧ Restored bareProject r := by
  have hinstall : ∃ u, (install inW walkLib "/w/a.fal" "*" bareProject).outcome = .ok () u :=
    ⟨_, rfl⟩
  obtain ⟨u, hu⟩ := hinstall
  have hcanonical : inW.canonical (inW.canonical "/w/a.fal") = inW.canonical "/w/a.fal" := by
    decide +kernel
  have hfile : walkLib "/w/a.fal" = none := by decide
  have hcond : (∀ dep ∈ bareProject.dependencies, dep.name ≠ stem "/w/a.fal") ∧
      bareProject.cache.index[inW.canonical "/w/a.fal"]? = none ∧
      ∀ entries, walkLib "/w/a.fal" = some entries → ∀ file ∈ entries, extension file = ".fal" →
        inW.canonical file = inW.canonical "/w/a.fal" ∨
          bareProject.cache.index[inW.canonical file]? =
            entryOf inW bareProject.cache bareProject.disk file := by
    refine ⟨nofun, Std.ExtTreeMap.getElem?_empty, fun entries hentries => ?_⟩
    rw [hfile] at hentries
    cases hentries
  obtain ⟨r, hremove, hrestored⟩ := (restored_iff inW walkLib hcanonical (by
    intro entries hentries
    rw [hfile] at hentries
    cases hentries) hu).mpr hcond
  have hstem : stem "/w/a.fal" = "a" := by decide +kernel
  rw [hstem] at hremove
  exact ⟨u, r, hu, hremove, hrestored⟩

/-- The entries of the files of a directory stay. -/
theorem not_restored_directory : ∃ u r,
    (install inW walkLib "/w/lib" "*" bareProject).outcome = .ok () u ∧
    (remove inW "lib" u).outcome = .ok () r ∧ r.dependencies = [] ∧
    r.cache.index["/w/lib/b.fal"]?.isSome = true ∧ ¬Restored bareProject r := by
  have hruns : ∃ u r, (install inW walkLib "/w/lib" "*" bareProject).outcome = .ok () u ∧
      (remove inW "lib" u).outcome = .ok () r ∧ r.dependencies = [] ∧
      r.cache.index["/w/lib/b.fal"]?.isSome = true :=
    ⟨_, _, rfl, rfl, rfl, by decide +kernel⟩
  obtain ⟨u, r, hinstall, hremove, hdeps, hkept⟩ := hruns
  refine ⟨u, r, hinstall, hremove, hdeps, hkept, fun h => ?_⟩
  rw [h.index] at hkept
  cases hkept

end Project

end FalconLib.PackageManager
