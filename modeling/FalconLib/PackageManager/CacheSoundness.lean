import FalconLib.PackageManager.PackageCache

/-!
# What a lookup finds

One cache object at a time works on the directory; the sources are edited meanwhile. Beside the
program's state runs a ledger of the contents that were stored. A lookup hits exactly the
sources whose content is the one in the ledger, as long as no cached file is removed that
another entry names by another spelling.
-/

namespace FalconLib.PackageManager

open FalconLib.Base (StdMap)

open PackageCache

/-- The paths into one cache directory, and the file names in it. -/
structure Rooted (p : Platform) (root : String) : Prop where
  join : ∀ dir content, p.canonical dir = root →
    p.canonical (joinPath dir (cachedName (p.sha256 content))) =
      joinPath root (cachedName (p.sha256 content))
  plain : ∀ content, (cachedName (p.sha256 content)).toList.head? ≠ some '/'

/-- The path is no cached file. -/
def Outside (p : Platform) (root path : String) : Prop :=
  ∀ content, p.canonical path ≠ joinPath root (cachedName (p.sha256 content))

structure CacheState where
  disk : Disk
  cache : PackageCache
  /-- The content of each source, by key, when it was last stored. -/
  stored : StdMap String

inductive CacheEvent where
  | store (source : String)
  | invalidate (source : String)
  | clear
  /-- A new object opens the directory in place of the old one. -/
  | restart (cacheDir : String)
  /-- A source is written or removed. -/
  | edit (path : String) (content : Option String)

variable (p : Platform) (root : String)

def Disk.write (d : Disk) (path : String) : Option String → Disk
  | some content => ⟨d.files.assign (p.canonical path) content, d.index⟩
  | none => ⟨d.files.erase (p.canonical path), d.index⟩

def CacheState.next (s : CacheState) : CacheEvent → CacheState
  | .store source =>
    match store p s.cache s.disk source, Disk.read p s.disk source with
    | .ok (_, cache, disk), some content => ⟨disk, cache, s.stored.assign (key p source) content⟩
    | _, _ => s
  | .invalidate source =>
    ⟨(invalidate p s.cache s.disk source).2, (invalidate p s.cache s.disk source).1,
      s.stored.erase (key p source)⟩
  | .clear => ⟨(clear p s.cache s.disk).2, (clear p s.cache s.disk).1, ∅⟩
  | .restart cacheDir => ⟨s.disk, openAt cacheDir s.disk, s.stored⟩
  | .edit path content => ⟨Disk.write p s.disk path content, s.cache, s.stored⟩

/-- The sources are no cached files, and every object is opened on the directory, by a path of
a certain kind. -/
def CacheEvent.Allowed (involved opened : String → Prop) : CacheEvent → Prop
  | store source => Outside p root source
  | invalidate source => Outside p root source
  | clear => True
  | restart cacheDir => p.canonical cacheDir = root ∧ opened cacheDir
  | edit path content => Outside p root path ∧ ∀ c, content = some c → involved c

/-- Where an entry is invalidated, the entries that name its cached file spell it alike. -/
def SpelledAlike (s : CacheState) : CacheEvent → Prop
  | .invalidate source => ∀ e, s.cache.index[key p source]? = some e →
      ∀ (k : String) (e' : CacheEntry), s.cache.index[k]? = some e' →
        p.canonical e'.cachedPath = p.canonical e.cachedPath → e'.cachedPath = e.cachedPath
  | _ => True

/-- The runs of a cache from an empty directory, with steps of a certain kind. -/
inductive CacheRun (involved opened : String → Prop)
    (condition : CacheState → CacheEvent → Prop) : CacheState → Prop where
  | start (files : StdMap String) (cacheDir : String) (hdir : p.canonical cacheDir = root)
      (hopened : opened cacheDir)
      (hfiles : ∀ path c, Outside p root path → files[p.canonical path]? = some c → involved c) :
      CacheRun involved opened condition ⟨⟨files, none⟩, openAt cacheDir ⟨files, none⟩, ∅⟩
  | step {s : CacheState} (event : CacheEvent) : CacheRun involved opened condition s →
      event.Allowed p root involved opened → condition s event →
      CacheRun involved opened condition (s.next p event)

/-- A lookup hits exactly what is in the ledger and unchanged, and then gives its content. -/
def Sound (s : CacheState) : Prop :=
  ∀ source, Outside p root source →
    ((lookup p s.cache s.disk source).isSome ↔ ∃ c, s.stored[key p source]? = some c ∧
      Disk.read p s.disk source = some c) ∧
    ∀ path, lookup p s.cache s.disk source = some path →
      Disk.read p s.disk path = Disk.read p s.disk source

/-! ## The invariant -/

/-- The entry of a stored content: its hash, and a copy in the directory. -/
structure Holds (files : StdMap String) (e : CacheEntry) (content : String) : Prop where
  sha256 : e.sha256 = p.sha256 content
  path : p.canonical e.cachedPath = joinPath root (cachedName (p.sha256 content))
  copy : files[p.canonical e.cachedPath]? = some content

structure CacheInv (involved : String → Prop) (s : CacheState) : Prop where
  dir : p.canonical s.cache.cacheDir = root
  disk : loadIndex s.disk.index = s.cache.index
  entry : ∀ (k : String) (e : CacheEntry), s.cache.index[k]? = some e →
    ∃ c, s.stored[k]? = some c ∧ involved c ∧ Holds p root s.disk.files e c
  absent : ∀ k : String, s.cache.index[k]? = none → s.stored[k]? = none
  sources : ∀ path c, Outside p root path → Disk.read p s.disk path = some c → involved c

theorem joinPath_inj {base a b : String} (ha : a.toList.head? ≠ some '/')
    (hb : b.toList.head? ≠ some '/') (h : joinPath base a = joinPath base b) : a = b := by
  unfold joinPath at h
  rw [if_neg ha, if_neg hb] at h
  split at h
  · exact (String.append_right_inj _).mp h
  · exact (String.append_right_inj _).mp h

theorem cachedName_inj {a b : String} (h : cachedName a = cachedName b) : a = b :=
  (String.append_left_inj _).mp h

variable {p root}

theorem Rooted.sha256_eq (hroot : Rooted p root) {c c' : String}
    (h : joinPath root (cachedName (p.sha256 c)) = joinPath root (cachedName (p.sha256 c'))) :
    p.sha256 c = p.sha256 c' :=
  cachedName_inj (joinPath_inj (hroot.plain c) (hroot.plain c') h)

/-- The invariant says what a lookup does. -/
theorem CacheInv.sound {involved : String → Prop} {s : CacheState}
    (h : CacheInv p root involved s)
    (hinj : ∀ c c', involved c → involved c' → p.sha256 c = p.sha256 c' → c = c') :
    Sound p root s := by
  intro source houtside
  unfold lookup
  cases he : s.cache.index[key p source]? with
  | none =>
    have habsent := h.absent _ he
    simp [habsent]
  | some e =>
    obtain ⟨c, hstored, hc, hholds⟩ := h.entry _ e he
    have hcopy : Disk.read p s.disk e.cachedPath = some c := hholds.copy
    simp only [hcopy, hstored, Option.isNone_some, Bool.false_eq_true, if_false]
    cases hread : Disk.read p s.disk source with
    | none => simp
    | some c' =>
      have hc' := h.sources source c' houtside hread
      by_cases hsha : p.sha256 c' = e.sha256
      · have heq : c' = c := hinj c' c hc' hc (hsha.trans hholds.sha256)
        subst heq
        simp only [hsha, if_true, Option.isSome_some, Option.some.injEq, true_iff]
        exact ⟨⟨c', rfl, rfl⟩, fun path hpath => hpath ▸ hcopy⟩
      · have hne : c' ≠ c := fun heq => hsha (heq ▸ hholds.sha256.symm)
        simp [hsha, hne]

/-! ## What each event does to it -/

theorem next_store_none {s : CacheState} {source : String}
    (h : Disk.read p s.disk source = none) : s.next p (.store source) = s := by
  unfold CacheState.next store
  simp only [h]

theorem next_store_some {s : CacheState} {source content : String}
    (h : Disk.read p s.disk source = some content) :
    s.next p (.store source) =
      ⟨⟨storedFiles p s.cache s.disk content,
          some (saveIndex (storedIndex p s.cache source content))⟩,
        ⟨s.cache.cacheDir, storedIndex p s.cache source content⟩,
        s.stored.assign (key p source) content⟩ := by
  unfold CacheState.next store
  simp only [h]

/-- A copy named after its hash overwrites only a copy of the same content. -/
theorem Holds.assign {files : StdMap String} {e : CacheEntry} {c c' : String}
    (h : Holds p root files e c) (hroot : Rooted p root)
    (hinj : p.sha256 c = p.sha256 c' → c = c') :
    Holds p root (files.assign (joinPath root (cachedName (p.sha256 c'))) c') e c := by
  refine ⟨h.sha256, h.path, ?_⟩
  rw [StdMap.getElem?_assign]
  by_cases heq : joinPath root (cachedName (p.sha256 c')) = p.canonical e.cachedPath
  · rw [if_pos heq, hinj (hroot.sha256_eq (h.path.symm.trans heq.symm))]
  · rw [if_neg heq]
    exact h.copy

theorem CacheInv.store {involved : String → Prop} {s : CacheState}
    (h : CacheInv p root involved s) (hroot : Rooted p root)
    (hinj : ∀ c c', involved c → involved c' → p.sha256 c = p.sha256 c' → c = c')
    {source : String} (houtside : Outside p root source) :
    CacheInv p root involved (s.next p (.store source)) := by
  cases hread : Disk.read p s.disk source with
  | none =>
    rw [next_store_none hread]
    exact h
  | some content =>
    rw [next_store_some hread]
    have hcontent := h.sources source content houtside hread
    have hdest : p.canonical (storedEntry p s.cache content).cachedPath =
        joinPath root (cachedName (p.sha256 content)) := hroot.join _ _ h.dir
    refine ⟨h.dir, loadIndex_saveIndex _, fun k e he => ?_, fun k hk => ?_, fun path c hp hc => ?_⟩
    · change (s.cache.index.assign _ _)[k]? = some e at he
      change ∃ c, (s.stored.assign _ _)[k]? = _ ∧ _
      rw [StdMap.getElem?_assign] at he ⊢
      by_cases hk : key p source = k
      · rw [if_pos hk] at he ⊢
        cases he
        refine ⟨content, rfl, hcontent, rfl, hdest, ?_⟩
        exact StdMap.getElem?_assign_self _ _ _
      · rw [if_neg hk] at he ⊢
        obtain ⟨c, hstored, hc, hholds⟩ := h.entry k e he
        refine ⟨c, hstored, hc, ?_⟩
        change Holds p root (s.disk.files.assign _ _) e c
        rw [hdest]
        exact hholds.assign hroot (hinj c content hc hcontent)
    · change (s.cache.index.assign _ _)[k]? = none at hk
      change (s.stored.assign _ _)[k]? = none
      rw [StdMap.getElem?_assign] at hk ⊢
      by_cases hkey : key p source = k
      · rw [if_pos hkey] at hk
        cases hk
      · rw [if_neg hkey] at hk ⊢
        exact h.absent k hk
    · change (s.disk.files.assign _ _)[p.canonical path]? = some c at hc
      rw [hdest, StdMap.getElem?_assign_ne _ _ (Ne.symm (hp content))] at hc
      exact h.sources path c hp hc

/-- Without its key both the index and the ledger stay as they are otherwise. -/
theorem CacheInv.erase {involved : String → Prop} {s t : CacheState}
    (h : CacheInv p root involved s) (source : String)
    (hcache : t.cache = ⟨s.cache.cacheDir, s.cache.index.erase (key p source)⟩)
    (hstored : t.stored = s.stored.erase (key p source))
    (hdisk : loadIndex t.disk.index = t.cache.index)
    (hcopies : ∀ (k : String) (e : CacheEntry), (s.cache.index.erase (key p source))[k]? = some e →
      t.disk.files[p.canonical e.cachedPath]? = s.disk.files[p.canonical e.cachedPath]?)
    (hsources : ∀ path c, t.disk.files[p.canonical path]? = some c →
      s.disk.files[p.canonical path]? = some c) :
    CacheInv p root involved t := by
  refine ⟨by rw [hcache]; exact h.dir, hdisk, fun k e he => ?_, fun k hk => ?_, fun path c hp hc =>
    h.sources path c hp (hsources path c hc)⟩
  · rw [hcache] at he
    have hcopy := hcopies k e he
    rw [hstored, StdMap.getElem?_erase]
    change (s.cache.index.erase (key p source))[k]? = some e at he
    rw [StdMap.getElem?_erase] at he
    by_cases hkey : key p source = k
    · rw [if_pos hkey] at he
      cases he
    · rw [if_neg hkey] at he ⊢
      obtain ⟨c, hc, hinvolved, hholds⟩ := h.entry k e he
      exact ⟨c, hc, hinvolved, hholds.sha256, hholds.path, hcopy.trans hholds.copy⟩
  · rw [hcache] at hk
    change (s.cache.index.erase (key p source))[k]? = none at hk
    rw [hstored, StdMap.getElem?_erase]
    rw [StdMap.getElem?_erase] at hk
    by_cases hkey : key p source = k
    · rw [if_pos hkey]
    · rw [if_neg hkey] at hk ⊢
      exact h.absent k hk

theorem CacheInv.invalidate {involved : String → Prop} {s : CacheState}
    (h : CacheInv p root involved s) {source : String}
    (hspelled : SpelledAlike p s (.invalidate source)) :
    CacheInv p root involved (s.next p (.invalidate source)) := by
  cases he : s.cache.index[key p source]? with
  | none =>
    have hsame : s.cache.index.erase (key p source) = s.cache.index := by
      refine StdMap.ext fun k => ?_
      rw [StdMap.getElem?_erase]
      by_cases hkey : key p source = k
      · rw [if_pos hkey, ← hkey, he]
      · rw [if_neg hkey]
    refine h.erase (t := ⟨_, _, _⟩) source ?_ rfl ?_ ?_ ?_ <;>
      simp only [invalidate_none p he]
    · rw [hsame]
    · exact h.disk
    · exact fun _ _ _ => trivial
    · exact fun _ _ hc => hc
  | some e =>
    refine h.erase (t := ⟨_, _, _⟩) source ?_ rfl ?_ ?_ ?_ <;>
      simp only [invalidate_some p he]
    · exact loadIndex_saveIndex _
    · intro k e' hk
      refine getElem?_releasedFiles p hk fun hpath => hspelled e he k e' ?_ hpath
      rw [StdMap.getElem?_erase] at hk
      by_cases hkey : key p source = k
      · rw [if_pos hkey] at hk
        cases hk
      · rwa [if_neg hkey] at hk
    · exact fun path c hc => releasedFiles_sub p hc

theorem CacheInv.clear {involved : String → Prop} {s : CacheState}
    (h : CacheInv p root involved s) : CacheInv p root involved (s.next p .clear) := by
  refine ⟨h.dir, rfl, fun k e he => ?_, fun _ _ => rfl, fun path c hp hc => ?_⟩
  · cases he
  · exact h.sources path c hp (removeAll_sub p hc)

theorem CacheInv.restart {involved : String → Prop} {s : CacheState}
    (h : CacheInv p root involved s) {cacheDir : String} (hdir : p.canonical cacheDir = root) :
    CacheInv p root involved (s.next p (.restart cacheDir)) := by
  have hindex : (openAt cacheDir s.disk).index = s.cache.index := h.disk
  refine ⟨hdir, rfl, fun k e he => h.entry k e ?_, fun k hk => h.absent k ?_, h.sources⟩
  · rwa [← hindex]
  · rwa [← hindex]

theorem getElem?_write (d : Disk) (path path' : String) (content : Option String) :
    (Disk.write p d path content).files[path']? =
      if p.canonical path = path' then content else d.files[path']? := by
  cases content with
  | none => exact StdMap.getElem?_erase _ _ _
  | some c => exact StdMap.getElem?_assign _ _ _ _

theorem index_write (d : Disk) (path : String) (content : Option String) :
    (Disk.write p d path content).index = d.index := by
  cases content <;> rfl

theorem CacheInv.edit {involved : String → Prop} {s : CacheState}
    (h : CacheInv p root involved s) {path : String} {content : Option String}
    (houtside : Outside p root path) (hcontent : ∀ c, content = some c → involved c) :
    CacheInv p root involved (s.next p (.edit path content)) := by
  refine ⟨h.dir, ?_, fun k e he => ?_, h.absent, fun path' c hp hc => ?_⟩
  · change loadIndex (Disk.write p s.disk path content).index = _
    rw [index_write]
    exact h.disk
  · obtain ⟨c, hstored, hc, hholds⟩ := h.entry k e he
    refine ⟨c, hstored, hc, hholds.sha256, hholds.path, ?_⟩
    refine (getElem?_write s.disk path _ content).trans ?_
    rw [if_neg, hholds.copy]
    rw [hholds.path]
    exact houtside c
  · replace hc := (getElem?_write s.disk path _ content).symm.trans hc
    by_cases heq : p.canonical path = p.canonical path'
    · rw [if_pos heq] at hc
      exact hcontent c hc
    · rw [if_neg heq] at hc
      exact h.sources path' c hp hc

theorem CacheInv.next (hroot : Rooted p root) {involved opened : String → Prop}
    (hinj : ∀ c c', involved c → involved c' → p.sha256 c = p.sha256 c' → c = c')
    {s : CacheState} {event : CacheEvent} (h : CacheInv p root involved s)
    (hallowed : event.Allowed p root involved opened) (hspelled : SpelledAlike p s event) :
    CacheInv p root involved (s.next p event) := by
  cases event with
  | store source => exact h.store hroot hinj hallowed
  | invalidate source => exact h.invalidate hspelled
  | clear => exact h.clear
  | restart cacheDir => exact h.restart hallowed.1
  | edit path content => exact h.edit hallowed.1 hallowed.2

theorem cacheInv_run (hroot : Rooted p root) {involved opened : String → Prop}
    (hinj : ∀ c c', involved c → involved c' → p.sha256 c = p.sha256 c' → c = c')
    {s : CacheState} (h : CacheRun p root involved opened (SpelledAlike p) s) :
    CacheInv p root involved s := by
  induction h with
  | start files cacheDir hdir _ hfiles =>
    exact ⟨hdir, rfl, fun _ _ he => (nomatch he), fun _ _ => rfl, hfiles⟩
  | step event _ hallowed hspelled ih => exact ih.next hroot hinj hallowed hspelled

/-! ## One spelling

The package manager opens the cache under the canonical path of the project. -/

/-- All entries were stored under this path of the directory. -/
structure OneSpelling (cacheDir : String) (s : CacheState) : Prop where
  dir : s.cache.cacheDir = cacheDir
  path : ∀ (k : String) (e : CacheEntry), s.cache.index[k]? = some e →
    e.cachedPath = joinPath cacheDir (cachedName e.sha256)

theorem OneSpelling.spelledAlike {involved : String → Prop} {cacheDir : String} {s : CacheState}
    (h : OneSpelling cacheDir s) (hroot : Rooted p root) (hinv : CacheInv p root involved s)
    (event : CacheEvent) : SpelledAlike p s event := by
  cases event with
  | invalidate source =>
    intro e he k e' he' hpath
    obtain ⟨c, _, _, hholds⟩ := hinv.entry _ e he
    obtain ⟨c', _, _, hholds'⟩ := hinv.entry k e' he'
    have hsha := hroot.sha256_eq (hholds'.path.symm.trans (hpath.trans hholds.path))
    rw [h.path k e' he', h.path _ e he, hholds.sha256, hholds'.sha256, hsha]
  | _ => trivial

theorem OneSpelling.next {involved : String → Prop} {cacheDir : String} {s : CacheState}
    (h : OneSpelling cacheDir s) (hinv : CacheInv p root involved s) {event : CacheEvent}
    (hallowed : event.Allowed p root involved (· = cacheDir)) :
    OneSpelling cacheDir (s.next p event) := by
  cases event with
  | store source =>
    cases hread : Disk.read p s.disk source with
    | none =>
      rw [next_store_none hread]
      exact h
    | some content =>
      rw [next_store_some hread]
      refine ⟨h.dir, fun k e he => ?_⟩
      change (s.cache.index.assign _ _)[k]? = some e at he
      rw [StdMap.getElem?_assign] at he
      by_cases hkey : key p source = k
      · rw [if_pos hkey] at he
        cases he
        exact congrArg (joinPath · _) h.dir
      · rw [if_neg hkey] at he
        exact h.path k e he
  | invalidate source =>
    cases he : s.cache.index[key p source]? with
    | none =>
      change OneSpelling cacheDir ⟨_, _, _⟩
      rw [invalidate_none p he]
      exact ⟨h.dir, h.path⟩
    | some e =>
      change OneSpelling cacheDir ⟨_, _, _⟩
      rw [invalidate_some p he]
      refine ⟨h.dir, fun k e' he' => ?_⟩
      change (s.cache.index.erase (key p source))[k]? = some e' at he'
      rw [StdMap.getElem?_erase] at he'
      by_cases hkey : key p source = k
      · rw [if_pos hkey] at he'
        cases he'
      · rw [if_neg hkey] at he'
        exact h.path k e' he'
  | clear => exact ⟨h.dir, fun _ _ he => nomatch he⟩
  | restart dir =>
    refine ⟨hallowed.2, fun k e he => h.path k e ?_⟩
    rw [← hinv.disk]
    exact he
  | edit path content => exact ⟨h.dir, h.path⟩

/-- Objects that are all opened under one path never spell a cached file in two ways. -/
theorem cacheRun_of_oneSpelling (hroot : Rooted p root) {involved : String → Prop}
    {cacheDir : String}
    (hinj : ∀ c c', involved c → involved c' → p.sha256 c = p.sha256 c' → c = c')
    {s : CacheState} (h : CacheRun p root involved (· = cacheDir) (fun _ _ => True) s) :
    CacheRun p root involved (· = cacheDir) (SpelledAlike p) s ∧ OneSpelling cacheDir s := by
  induction h with
  | start files dir hdir hopened hfiles =>
    exact ⟨.start files dir hdir hopened hfiles, hopened, fun _ _ he => nomatch he⟩
  | step event _ hallowed _ ih =>
    have hinv := cacheInv_run hroot hinj ih.1
    exact ⟨.step event ih.1 hallowed (ih.2.spelledAlike hroot hinv event), ih.2.next hinv hallowed⟩

theorem sound_of_oneSpelling (hroot : Rooted p root) {involved : String → Prop}
    {cacheDir : String}
    (hinj : ∀ c c', involved c → involved c' → p.sha256 c = p.sha256 c' → c = c')
    {s : CacheState} (h : CacheRun p root involved (· = cacheDir) (fun _ _ => True) s) :
    Sound p root s :=
  (cacheInv_run hroot hinj (cacheRun_of_oneSpelling hroot hinj h).1).sound hinj

def canonicalInW (path : String) : String :=
  match path.toList with
  | '/' :: _ => path
  | '.' :: '/' :: rest => String.ofList ("/w/".toList ++ rest)
  | _ => "/w/" ++ path

def shaOfX (content : String) : String :=
  if content = "x" then "2d711642b726b04401627ca9fbac32f5c8530fb1903cc4db02258717921a4881" else "0"

def inW : Platform := ⟨canonicalInW, shaOfX⟩

theorem eq_of_canonicalInW {dir : String} (h : canonicalInW dir = "/w/cache") :
    dir = "/w/cache" ∨ dir = "./cache" ∨ dir = "cache" := by
  unfold canonicalInW at h
  split at h
  · exact .inl h
  · rename_i rest hdir
    have hlist := congrArg String.toList h
    rw [String.toList_ofList] at hlist
    have hrest : rest = "cache".toList := List.append_cancel_left hlist
    exact .inr (.inl (String.toList_inj.mp (by rw [hdir, hrest]; rfl)))
  · exact .inr (.inr ((String.append_right_inj "/w/").mp h))

theorem shaOfX_cases (content : String) :
    inW.sha256 content = "2d711642b726b04401627ca9fbac32f5c8530fb1903cc4db02258717921a4881" ∨
      inW.sha256 content = "0" := by
  change shaOfX content = _ ∨ shaOfX content = _
  unfold shaOfX
  by_cases h : content = "x"
  · exact .inl (if_pos h)
  · exact .inr (if_neg h)

theorem rooted_inW : Rooted inW "/w/cache" := by
  refine ⟨fun dir content hdir => ?_, fun content => ?_⟩
  · obtain rfl | rfl | rfl := eq_of_canonicalInW hdir <;>
      obtain h | h := shaOfX_cases content <;> rw [h] <;> decide +kernel
  · obtain h | h := shaOfX_cases content <;> rw [h] <;> decide +kernel

def twoSources : StdMap String := (StdMap.assign ∅ "/w/a.fal" "x").assign "/w/b.fal" "x"

def respelled : CacheState :=
  (((CacheState.mk ⟨twoSources, none⟩ (openAt "cache" ⟨twoSources, none⟩) ∅).next inW
    (.store "a.fal")).next inW (.restart "./cache")).next inW (.store "b.fal")

theorem involved_twoSources (path c : String) (_ : Outside inW "/w/cache" path)
    (h : twoSources[inW.canonical path]? = some c) : c = "x" := by
  unfold twoSources at h
  rw [StdMap.getElem?_assign, StdMap.getElem?_assign] at h
  split_ifs at h
  · exact (Option.some.inj h).symm
  · exact (Option.some.inj h).symm
  · cases h

theorem outside_inW {path : String}
    (h : inW.canonical path ∉ ["2d711642b726b04401627ca9fbac32f5c8530fb1903cc4db02258717921a4881",
      "0"].map fun sha => joinPath "/w/cache" (cachedName sha)) : Outside inW "/w/cache" path := by
  intro content heq
  obtain hsha | hsha := shaOfX_cases content <;> rw [hsha] at heq <;> exact h (by simp [heq])

theorem run_respelled {condition : CacheState → CacheEvent → Prop}
    (hcondition : ∀ s event, (∀ source, event ≠ .invalidate source) → condition s event) :
    CacheRun inW "/w/cache" (· = "x") (fun _ => True) condition respelled :=
  (((CacheRun.start twoSources "cache" (by decide +kernel) trivial involved_twoSources).step
    (.store "a.fal") (outside_inW (by decide +kernel)) (hcondition _ _ nofun)).step
    (.restart "./cache") ⟨by decide +kernel, trivial⟩ (hcondition _ _ nofun)).step
    (.store "b.fal") (outside_inW (by decide +kernel)) (hcondition _ _ nofun)

theorem lookup_respelled :
    lookup inW (respelled.next inW (.invalidate "b.fal")).cache
        (respelled.next inW (.invalidate "b.fal")).disk "a.fal" = none ∧
      (respelled.next inW (.invalidate "b.fal")).stored[key inW "a.fal"]? = some "x" ∧
      Disk.read inW (respelled.next inW (.invalidate "b.fal")).disk "a.fal" = some "x" := by
  decide +kernel

end FalconLib.PackageManager
