import FalconLib.PackageManager.CacheSoundness

/-!
# Several cache objects on one directory

Every object works on its own copy of the index and writes the whole of it back. What an object
that is opened later finds is what the last writer had in its copy: an entry survives a write
through an object whose copy has the same about it as the index file.
-/

namespace FalconLib.PackageManager

open FalconLib.Base (StdMap)

open PackageCache

structure SharedState where
  disk : Disk
  /-- The objects in the order in which they were opened. -/
  caches : List PackageCache
  /-- The content of each source, by key, when it was last stored through any object. -/
  stored : StdMap String

inductive SharedEvent where
  | openCache (cacheDir : String)
  | store (object : Nat) (source : String)
  | invalidate (object : Nat) (source : String)
  | lookup (object : Nat) (source : String)

variable (p : Platform) (root : String)

def SharedState.storeThrough (s : SharedState) (object : Nat) (c : PackageCache)
    (source : String) : SharedState :=
  match PackageCache.store p c s.disk source, Disk.read p s.disk source with
  | .ok (_, cache, disk), some content =>
    ⟨disk, s.caches.set object cache, s.stored.assign (key p source) content⟩
  | _, _ => s

def SharedState.invalidateThrough (s : SharedState) (object : Nat) (c : PackageCache)
    (source : String) : SharedState :=
  ⟨(PackageCache.invalidate p c s.disk source).2,
    s.caches.set object (PackageCache.invalidate p c s.disk source).1,
    s.stored.erase (key p source)⟩

/-- A call through an object that was never opened does not happen. -/
def SharedState.next (s : SharedState) : SharedEvent → SharedState
  | .openCache cacheDir => { s with caches := s.caches ++ [openAt cacheDir s.disk] }
  | .store object source => (s.caches[object]?).elim s fun c => s.storeThrough p object c source
  | .invalidate object source =>
    (s.caches[object]?).elim s fun c => s.invalidateThrough p object c source
  | .lookup _ _ => s

def SharedEvent.Allowed : SharedEvent → Prop
  | openCache cacheDir => p.canonical cacheDir = root
  | _ => True

/-- The copy of the object has about a source what the index file has, and does not spell the
cached file of the source in two ways. -/
structure Current (s : SharedState) (k : String) (c : PackageCache) (source : String) : Prop where
  same : c.index[k]? = (loadIndex s.disk.index)[k]?
  spelled : ∀ e e', c.index[key p source]? = some e → c.index[k]? = some e' →
    p.canonical e'.cachedPath = p.canonical e.cachedPath → e'.cachedPath = e.cachedPath

/-- Apart from storing the source itself, the index is changed only through such objects. -/
def CurrentAbout (k : String) (s : SharedState) : SharedEvent → Prop
  | .store object source =>
    key p source ≠ k → ∀ c, s.caches[object]? = some c → c.index[k]? = (loadIndex s.disk.index)[k]?
  | .invalidate object source => ∀ c, s.caches[object]? = some c → Current p s k c source
  | _ => True

/-- The runs of several objects from an empty directory. -/
inductive SharedRun (condition : SharedState → SharedEvent → Prop) : SharedState → Prop where
  | start (files : StdMap String) : SharedRun condition ⟨⟨files, none⟩, [], ∅⟩
  | step {s : SharedState} (event : SharedEvent) : SharedRun condition s →
      event.Allowed p root → condition s event → SharedRun condition (s.next p event)

/-- An object that is opened now finds the source if and only if it is stored. -/
def FoundLater (s : SharedState) (source : String) : Prop :=
  ∀ cacheDir, p.canonical cacheDir = root →
    ((lookup p (openAt cacheDir s.disk) s.disk source).isSome ↔
      (s.stored[key p source]?).isSome)

/-! ## The invariant about one source -/

/-- The entry names a file of the cache directory. -/
def Named (e : CacheEntry) : Prop :=
  ∃ content, p.canonical e.cachedPath = joinPath root (cachedName (p.sha256 content))

structure SharedInv (k : String) (s : SharedState) : Prop where
  dirs : ∀ c ∈ s.caches, p.canonical c.cacheDir = root
  named : ∀ c ∈ s.caches, ∀ (k' : String) (e : CacheEntry), c.index[k']? = some e → Named p root e
  namedFile : ∀ (k' : String) (e : CacheEntry), (loadIndex s.disk.index)[k']? = some e →
    Named p root e
  entry : ∀ content, s.stored[k]? = some content → s.disk.files[k]? = some content ∧
    ∃ e, (loadIndex s.disk.index)[k]? = some e ∧ e.sha256 = p.sha256 content ∧
      (s.disk.files[p.canonical e.cachedPath]?).isSome
  absent : s.stored[k]? = none → (loadIndex s.disk.index)[k]? = none

variable {p root}

theorem SharedInv.foundLater {s : SharedState} {source : String}
    (h : SharedInv p root (key p source) s) : FoundLater p root s source := by
  intro cacheDir _
  unfold lookup openAt
  cases hstored : s.stored[key p source]? with
  | none =>
    rw [h.absent hstored]
  | some content =>
    obtain ⟨hsource, e, he, hsha, hcopy⟩ := h.entry content hstored
    have hread : Disk.read p s.disk source = some content := hsource
    have hexists : (Disk.read p s.disk e.cachedPath).isNone = false := by
      rw [← Option.not_isSome, Bool.not_eq_false']
      exact hcopy
    simp only [he, hexists, hread, hsha, Bool.false_eq_true, if_false, if_true, Option.isSome_some]

theorem Named.ne_of_outside {e : CacheEntry} (h : Named p root e) {source : String}
    (houtside : Outside p root source) : key p source ≠ p.canonical e.cachedPath := by
  obtain ⟨content, hpath⟩ := h
  rw [hpath]
  exact houtside content

/-- The conditions about the objects survive a change of one of them. -/
theorem forall_mem_set {motive : PackageCache → Prop} {caches : List PackageCache} {object : Nat}
    {cache : PackageCache} (h : ∀ c ∈ caches, motive c) (hcache : motive cache) :
    ∀ c ∈ caches.set object cache, motive c := by
  intro c hc
  obtain hc | rfl := List.mem_or_eq_of_mem_set hc
  · exact h c hc
  · exact hcache

theorem SharedInv.openCache {k : String} {s : SharedState} (h : SharedInv p root k s)
    {cacheDir : String} (hdir : p.canonical cacheDir = root) :
    SharedInv p root k (s.next p (.openCache cacheDir)) := by
  refine ⟨fun c hc => ?_, fun c hc => ?_, h.namedFile, h.entry, h.absent⟩
  · obtain hc | hc := List.mem_append.mp hc
    · exact h.dirs c hc
    · rw [List.mem_singleton.mp hc]
      exact hdir
  · obtain hc | hc := List.mem_append.mp hc
    · exact h.named c hc
    · rw [List.mem_singleton.mp hc]
      exact h.namedFile

theorem SharedInv.storeThrough (hroot : Rooted p root) {source : String}
    (houtside : Outside p root source) {s : SharedState}
    (h : SharedInv p root (key p source) s) {object : Nat} {c : PackageCache} (hc : c ∈ s.caches)
    {target : String} (hcurrent : key p target ≠ key p source →
      c.index[key p source]? = (loadIndex s.disk.index)[key p source]?) :
    SharedInv p root (key p source) (s.storeThrough p object c target) := by
  unfold SharedState.storeThrough PackageCache.store
  cases hread : Disk.read p s.disk target with
  | none => exact h
  | some content =>
    have hdest : p.canonical (storedEntry p c content).cachedPath =
        joinPath root (cachedName (p.sha256 content)) := hroot.join _ _ (h.dirs c hc)
    have hnamed : ∀ (k' : String) (e : CacheEntry), (storedIndex p c target content)[k']? = some e →
        Named p root e := by
      intro k' e he
      unfold storedIndex at he
      rw [StdMap.getElem?_assign] at he
      by_cases hkey : key p target = k'
      · rw [if_pos hkey] at he
        cases he
        exact ⟨content, hdest⟩
      · rw [if_neg hkey] at he
        exact h.named c hc k' e he
    have hsource : (storedFiles p c s.disk content)[key p source]? =
        s.disk.files[key p source]? := by
      unfold storedFiles
      rw [hdest]
      exact StdMap.getElem?_assign_ne _ _ (Ne.symm (houtside content))
    refine ⟨forall_mem_set h.dirs (h.dirs c hc), forall_mem_set h.named hnamed, ?_, ?_, ?_⟩
    · change ∀ (k' : String) (e : CacheEntry),
        (loadIndex (some (saveIndex (storedIndex p c target content))))[k']? = some e → _
      rw [loadIndex_saveIndex]
      exact hnamed
    · intro content' hstored
      change (s.stored.assign _ _)[key p source]? = some content' at hstored
      change (storedFiles p c s.disk content)[key p source]? = _ ∧ ∃ e : CacheEntry,
        (loadIndex (some (saveIndex (storedIndex p c target content))))[key p source]? = _ ∧ _ ∧
        ((storedFiles p c s.disk content)[p.canonical e.cachedPath]?).isSome
      rw [hsource, loadIndex_saveIndex]
      unfold storedIndex storedFiles
      rw [StdMap.getElem?_assign] at hstored ⊢
      by_cases hkey : key p target = key p source
      · rw [if_pos hkey] at hstored ⊢
        cases hstored
        refine ⟨?_, _, rfl, rfl, ?_⟩
        · rw [← hkey]
          exact hread
        · rw [StdMap.getElem?_assign_self, Option.isSome_some]
      · rw [if_neg hkey] at hstored ⊢
        obtain ⟨hfile, e, he, hsha, hcopy⟩ := h.entry content' hstored
        refine ⟨hfile, e, (hcurrent hkey).trans he, hsha, ?_⟩
        rw [StdMap.getElem?_assign]
        by_cases hpath : p.canonical (storedEntry p c content).cachedPath = p.canonical e.cachedPath
        · rw [if_pos hpath, Option.isSome_some]
        · rw [if_neg hpath]
          exact hcopy
    · intro hstored
      change (s.stored.assign _ _)[key p source]? = none at hstored
      change (loadIndex (some (saveIndex (storedIndex p c target content))))[key p source]? = none
      rw [loadIndex_saveIndex]
      unfold storedIndex
      rw [StdMap.getElem?_assign] at hstored ⊢
      by_cases hkey : key p target = key p source
      · rw [if_pos hkey] at hstored
        cases hstored
      · rw [if_neg hkey] at hstored ⊢
        exact (hcurrent hkey).trans (h.absent hstored)

theorem SharedInv.invalidateThrough {source : String} (houtside : Outside p root source)
    {s : SharedState} (h : SharedInv p root (key p source) s) {object : Nat} {c : PackageCache}
    (hc : c ∈ s.caches) {target : String} (hcurrent : Current p s (key p source) c target) :
    SharedInv p root (key p source) (s.invalidateThrough p object c target) := by
  have hstored {content : String}
      (hs : (s.stored.erase (key p target))[key p source]? = some content) :
      key p target ≠ key p source ∧ s.stored[key p source]? = some content := by
    rw [StdMap.getElem?_erase] at hs
    by_cases hkey : key p target = key p source
    · rw [if_pos hkey] at hs
      cases hs
    · rw [if_neg hkey] at hs
      exact ⟨hkey, hs⟩
  have hunstored (hs : (s.stored.erase (key p target))[key p source]? = none) :
      key p target = key p source ∨ s.stored[key p source]? = none := by
    rw [StdMap.getElem?_erase] at hs
    by_cases hkey : key p target = key p source
    · exact .inl hkey
    · rw [if_neg hkey] at hs
      exact .inr hs
  unfold SharedState.invalidateThrough
  cases he : c.index[key p target]? with
  | none =>
    rw [invalidate_none p he]
    refine ⟨forall_mem_set h.dirs (h.dirs c hc), forall_mem_set h.named (h.named c hc),
      h.namedFile, fun content hs => h.entry content (hstored hs).2, fun hs => ?_⟩
    obtain hkey | hs := hunstored hs
    · exact hcurrent.same.symm.trans (hkey ▸ he)
    · exact h.absent hs
  | some e =>
    rw [invalidate_some p he]
    have herase {k' : String} {e' : CacheEntry}
        (hk : (c.index.erase (key p target))[k']? = some e') : c.index[k']? = some e' := by
      rw [StdMap.getElem?_erase] at hk
      by_cases hkey : key p target = k'
      · rw [if_pos hkey] at hk
        cases hk
      · rwa [if_neg hkey] at hk
    have hnamed : ∀ (k' : String) (e' : CacheEntry),
        (c.index.erase (key p target))[k']? = some e' → Named p root e' :=
      fun k' e' hk => h.named c hc k' e' (herase hk)
    have hne := (h.named c hc _ e he).ne_of_outside houtside
    refine ⟨forall_mem_set h.dirs (h.dirs c hc), forall_mem_set h.named hnamed, ?_, ?_, ?_⟩
    · change ∀ (k' : String) (e' : CacheEntry),
        (loadIndex (some (saveIndex (c.index.erase (key p target)))))[k']? = some e' → _
      rw [loadIndex_saveIndex]
      exact hnamed
    · intro content hs
      obtain ⟨hkey, hs⟩ := hstored hs
      obtain ⟨hfile, e', he', hsha, hcopy⟩ := h.entry content hs
      have hown : c.index[key p source]? = some e' := hcurrent.same.trans he'
      have hkept : (c.index.erase (key p target))[key p source]? = some e' := by
        rw [StdMap.getElem?_erase, if_neg hkey]
        exact hown
      change (releasedFiles p _ s.disk e)[key p source]? = _ ∧ ∃ e' : CacheEntry,
        (loadIndex (some (saveIndex (c.index.erase (key p target)))))[key p source]? = _ ∧ _ ∧
        ((releasedFiles p _ s.disk e)[p.canonical e'.cachedPath]?).isSome
      rw [getElem?_releasedFiles_of_ne p _ _ hne, loadIndex_saveIndex]
      refine ⟨hfile, e', hkept, hsha, ?_⟩
      rw [getElem?_releasedFiles p hkept (hcurrent.spelled e e' he hown)]
      exact hcopy
    · intro hs
      change (loadIndex (some (saveIndex (c.index.erase (key p target)))))[key p source]? = none
      rw [loadIndex_saveIndex, StdMap.getElem?_erase]
      obtain hkey | hs := hunstored hs
      · rw [if_pos hkey]
      · rw [hcurrent.same, h.absent hs, ite_self]

theorem SharedInv.next (hroot : Rooted p root) {source : String}
    (houtside : Outside p root source) {s : SharedState} {event : SharedEvent}
    (h : SharedInv p root (key p source) s) (hallowed : event.Allowed p root)
    (hcurrent : CurrentAbout p (key p source) s event) :
    SharedInv p root (key p source) (s.next p event) := by
  cases event with
  | openCache cacheDir => exact h.openCache hallowed
  | store object target =>
    change SharedInv p root _ ((s.caches[object]?).elim s _)
    cases hc : s.caches[object]? with
    | none => exact h
    | some c =>
      exact h.storeThrough hroot houtside (List.mem_of_getElem? hc) fun hkey => hcurrent hkey c hc
  | invalidate object target =>
    change SharedInv p root _ ((s.caches[object]?).elim s _)
    cases hc : s.caches[object]? with
    | none => exact h
    | some c => exact h.invalidateThrough houtside (List.mem_of_getElem? hc) (hcurrent c hc)
  | lookup object target => exact h

theorem sharedInv_run (hroot : Rooted p root) {source : String}
    (houtside : Outside p root source) {s : SharedState}
    (h : SharedRun p root (CurrentAbout p (key p source)) s) :
    SharedInv p root (key p source) s := by
  induction h with
  | start files =>
    exact ⟨nofun, nofun, fun _ _ he => (nomatch he), fun _ hs => (nomatch hs), fun _ => rfl⟩
  | step event _ hallowed hcurrent ih => exact ih.next hroot houtside hallowed hcurrent

/-- A source is found later exactly when it was stored last through some object and not
invalidated since, in every run in which the index is changed through objects whose copy has
about the source what the index file has. -/
theorem foundLater_of_run (hroot : Rooted p root) {source : String}
    (houtside : Outside p root source) {s : SharedState}
    (h : SharedRun p root (CurrentAbout p (key p source)) s) : FoundLater p root s source :=
  (sharedInv_run hroot houtside h).foundLater

/-! Two objects are opened on an empty directory, and each stores one source. -/

def bothStored : SharedState :=
  ((((SharedState.mk ⟨twoSources, none⟩ [] ∅).next inW (.openCache "cache")).next inW
    (.openCache "cache")).next inW (.store 0 "a.fal")).next inW (.store 1 "b.fal")

theorem allowed_cache : (SharedEvent.openCache "cache").Allowed inW "/w/cache" := by
  change inW.canonical "cache" = "/w/cache"
  decide +kernel

theorem allowed_dotCache : (SharedEvent.openCache "./cache").Allowed inW "/w/cache" := by
  change inW.canonical "./cache" = "/w/cache"
  decide +kernel

theorem lookup_bothStored :
    lookup inW (openAt "cache" bothStored.disk) bothStored.disk "a.fal" = none ∧
      bothStored.stored[key inW "a.fal"]? = some "x" := by
  decide +kernel

theorem not_foundLater_of_run :
    ¬ ∀ (p : Platform) (root : String), Rooted p root →
      ∀ s, SharedRun p root (fun _ _ => True) s →
      ∀ source, Outside p root source → FoundLater p root s source := by
  intro h
  have hrun : SharedRun inW "/w/cache" (fun _ _ => True) bothStored :=
    ((((SharedRun.start twoSources).step (.openCache "cache") allowed_cache trivial).step
      (.openCache "cache") allowed_cache trivial).step
      (.store 0 "a.fal") trivial trivial).step (.store 1 "b.fal") trivial trivial
  have hfound := h inW "/w/cache" rooted_inW _ hrun "a.fal" (outside_inW (by decide +kernel)) "cache"
    (by decide +kernel)
  obtain ⟨hlookup, hstored⟩ := lookup_bothStored
  rw [hlookup, hstored] at hfound
  exact absurd (hfound.mpr rfl) (by decide)

/-- The second object is opened after the first has stored its source. -/
def oneAfterTheOther : SharedState :=
  ((((SharedState.mk ⟨twoSources, none⟩ [] ∅).next inW (.openCache "cache")).next inW
    (.store 0 "a.fal")).next inW (.openCache "./cache")).next inW (.store 1 "b.fal")

theorem foundLater_oneAfterTheOther : FoundLater inW "/w/cache" oneAfterTheOther "a.fal" := by
  refine foundLater_of_run rooted_inW (outside_inW (by decide +kernel)) ?_
  refine ((((SharedRun.start twoSources).step (.openCache "cache") allowed_cache trivial).step
    (.store 0 "a.fal") trivial fun hkey => absurd rfl hkey).step
    (.openCache "./cache") allowed_dotCache trivial).step (.store 1 "b.fal") trivial ?_
  intro _ c hc
  cases hc
  rfl

end FalconLib.PackageManager
