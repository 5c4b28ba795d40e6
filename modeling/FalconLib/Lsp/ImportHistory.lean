import FalconLib.Lsp.Exports
import FalconLib.Lsp.ImportTurns

/-!
# What earlier analyses leave to an analysis

The paths that an analysis has resolved stay resolved, and the next one skips them: the
same text analysed twice has its imports once. An analysis that comes upon none of them
sees just the files that its imports reach.
-/

namespace FalconLib.Lsp

open FalconLib.Base (StdMap)
open FalconLib.Dsl
open FalconLib.Parser (SourceText Tables parseFile)
open ImportResolver

/-! ## What is reached -/

section Reach

variable (derive : String → SourceText) (fs : Files) (uri text : String)

/-- The document, and the files that can be opened among those its imports lead to. -/
inductive Site : String → FalconDocument → Prop where
  | own : Site uri (freshDocument derive uri text)
  | imported {importingUri path file src : String} {doc : FalconDocument} :
    Site importingUri doc → path ∈ doc.importPaths →
    resolvePath fs importingUri path = some file → fs.contents[file]? = some src →
    Site (fileUri file) (freshDocument derive (fileUri file) src)

/-- Some chain of imports leads from the document to the file. -/
def Reached (file : String) : Prop :=
  ∃ importingUri doc path, Site derive fs uri text importingUri doc ∧ path ∈ doc.importPaths ∧
    resolvePath fs importingUri path = some file

def FileDeclares (file name : String) : Prop :=
  ∃ src program, fs.contents[file]? = some src ∧
    (freshDocument derive (fileUri file) src).program = some program ∧ Declares program name

/-! ## An analysis without a past -/

/-- The parser of a process that is fresh for every text, and the texts it has parsed. -/
def memoryless (uri text : String) (texts : List String) : FalconDocument × List String :=
  (freshDocument derive uri text, texts ++ [text])

/-- What the first analysis gives when every text is parsed in a fresh process. -/
def alone : Resolution (List String) :=
  resolveDocument fs (memoryless derive) uri (freshDocument derive uri text) ∅ [text]

def tablesAfter (t : Tables) (texts : List String) : Tables :=
  texts.foldl (fun t text => (parseFile t ∅ (derive text)).2) t

/-- Every one of the texts, parsed after those before it, gives what it gives alone. -/
def ParsesAlike (t : Tables) (texts : List String) : Prop :=
  ∀ earlier text, earlier ++ [text] <+: texts →
    (parseFile (tablesAfter derive t earlier) ∅ (derive text)).1 =
      (parseFile {} ∅ (derive text)).1

end Reach

section Condition

variable (derive : String → SourceText) (fs : Files) (uri text : String)

/-- Within one analysis, a path as it is written stands for one file. -/
structure Spelled : Prop where
  imports : ∀ {uri₁ uri₂ path file₁ file₂ : String} {doc₁ doc₂ : FalconDocument},
    Site derive fs uri text uri₁ doc₁ → Site derive fs uri text uri₂ doc₂ →
    path ∈ doc₁.importPaths → path ∈ doc₂.importPaths →
    resolvePath fs uri₁ path = some file₁ → resolvePath fs uri₂ path = some file₂ →
    file₁ = file₂
  ffimports : ∀ {uri₁ uri₂ path file₁ file₂ : String} {doc₁ doc₂ : FalconDocument},
    Site derive fs uri text uri₁ doc₁ → Site derive fs uri text uri₂ doc₂ →
    path ∈ doc₁.importPaths → path ∈ doc₂.ffimportPaths →
    resolvePath fs uri₁ path = some file₁ → resolvePath fs uri₂ path ≠ some file₂

/-- Earlier analyses have resolved none of the paths that are written in the document and
in the files it reaches, and have left the parser so that it reads these texts as a fresh
one; a written path stands for one file; and the document is not reached by its imports. -/
structure Unaffected (s : FalconServer) : Prop where
  unresolved : ∀ {importingUri doc path}, Site derive fs uri text importingUri doc →
    path ∈ doc.importPaths ∨ path ∈ doc.ffimportPaths → path ∉ s.resolvedPaths
  parsed : ∀ {doc progress}, alone derive fs uri text = some (doc, progress) →
    ParsesAlike derive s.tables progress.parser
  spelled : Spelled derive fs uri text
  apart : ¬ Reached derive fs uri text (stripScheme uri)

/-- The imported names are those that the reached files declare, and what is published is
what an analysis without a past publishes. -/
def Settled (builtins : StdMap BuiltinSignature) (s : FalconServer) : Prop :=
  ∃ doc progress, alone derive fs uri text = some (doc, progress) ∧ s.docs[uri]? = some doc ∧
    (∀ name, name ∈ doc.importedNames ↔
      ∃ file, Reached derive fs uri text file ∧ FileDeclares derive fs file name) ∧
    s.published builtins doc =
      DiagnosticsProvider.diagnostics builtins doc ++ checkImports progress.resolvedPaths doc

end Condition

/-! ## What an analysis without a past gathers -/

section Gather

variable {derive : String → SourceText} {fs : Files} {uri text : String}

/-- Resolved paths lead to visited files. -/
def Accounted (derive : String → SourceText) (fs : Files) (uri text : String)
    (r : Progress (List String)) : Prop :=
  ∀ importingUri doc path file, Site derive fs uri text importingUri doc →
    path ∈ r.resolvedPaths → path ∈ doc.importPaths →
    resolvePath fs importingUri path = some file → file ∈ r.visited

/-- Visited between two moments. -/
def Entered (r r' : Progress (List String)) (file : String) : Prop :=
  file ∈ r'.visited ∧ file ∉ r.visited

/-- From one moment to another, the files that `paths` lead to have been visited, each new
one with those that its imports lead to, and the document has their declarations. -/
structure Gathered (derive : String → SourceText) (fs : Files) (uri text importingUri : String)
    (paths : List String) (doc : FalconDocument) (r : Progress (List String))
    (doc' : FalconDocument) (r' : Progress (List String)) : Prop where
  grows : r.visited ⊆ r'.visited
  accounted : Accounted derive fs uri text r'
  visited : ∀ path ∈ paths, ∀ file, resolvePath fs importingUri path = some file →
    file ∈ r'.visited
  reached : ∀ file, Entered r r' file → Reached derive fs uri text file
  closed : ∀ file, Entered r r' file → ∀ src, fs.contents[file]? = some src →
    ∀ path ∈ (freshDocument derive (fileUri file) src).importPaths, ∀ next,
      resolvePath fs (fileUri file) path = some next → next ∈ r'.visited
  exported : ∀ name, name ∈ exportedNames doc'.symbols ↔
    name ∈ exportedNames doc.symbols ∨
      ∃ file, Entered r r' file ∧ FileDeclares derive fs file name
  importedNames : ∀ name, name ∈ doc'.importedNames ↔
    name ∈ doc.importedNames ∨ ∃ file, Entered r r' file ∧ FileDeclares derive fs file name
  kept : doc'.importPaths = doc.importPaths ∧ doc'.ffimportPaths = doc.ffimportPaths

theorem not_entered_self (r : Progress (List String)) (file : String) : ¬ Entered r r file :=
  fun h => h.2 h.1

theorem Gathered.refl {importingUri : String} {doc : FalconDocument}
    {r r' : Progress (List String)} {paths : List String} (hv : r'.visited = r.visited)
    (ha : Accounted derive fs uri text r')
    (hp : ∀ path ∈ paths, ∀ file, resolvePath fs importingUri path = some file →
      file ∈ r'.visited) :
    Gathered derive fs uri text importingUri paths doc r doc r' := by
  have hno : ∀ file, ¬ Entered r r' file := by
    intro file h
    rw [Entered, hv] at h
    exact h.2 h.1
  exact {
    grows := hv ▸ Finset.Subset.refl _
    accounted := ha
    visited := hp
    reached := fun file h => absurd h (hno file)
    closed := fun file h => absurd h (hno file)
    exported := fun name =>
      ⟨.inl, fun h => h.elim id fun ⟨file, he, _⟩ => absurd he (hno file)⟩
    importedNames := fun name =>
      ⟨.inl, fun h => h.elim id fun ⟨file, he, _⟩ => absurd he (hno file)⟩
    kept := ⟨rfl, rfl⟩ }

theorem entered_trans {r₀ r₁ r₂ : Progress (List String)} (h₁ : r₀.visited ⊆ r₁.visited)
    (h₂ : r₁.visited ⊆ r₂.visited) (file : String) :
    Entered r₀ r₂ file ↔ Entered r₀ r₁ file ∨ Entered r₁ r₂ file := by
  constructor
  · rintro ⟨hin, hout⟩
    by_cases h : file ∈ r₁.visited
    · exact .inl ⟨h, hout⟩
    · exact .inr ⟨hin, h⟩
  · rintro (⟨hin, hout⟩ | ⟨hin, hout⟩)
    · exact ⟨h₂ hin, hout⟩
    · exact ⟨hin, fun h => hout (h₁ h)⟩

theorem exists_entered_trans {P : String → Prop} {r₀ r₁ r₂ : Progress (List String)}
    (h₁ : r₀.visited ⊆ r₁.visited) (h₂ : r₁.visited ⊆ r₂.visited) :
    (∃ file, Entered r₀ r₂ file ∧ P file) ↔
      (∃ file, Entered r₀ r₁ file ∧ P file) ∨ ∃ file, Entered r₁ r₂ file ∧ P file := by
  simp only [entered_trans h₁ h₂, or_and_right, exists_or]

theorem Gathered.trans {importingUri : String} {doc₀ doc₁ doc₂ : FalconDocument}
    {r₀ r₁ r₂ : Progress (List String)} {path : String} {paths : List String}
    (h₁ : Gathered derive fs uri text importingUri [path] doc₀ r₀ doc₁ r₁)
    (h₂ : Gathered derive fs uri text importingUri paths doc₁ r₁ doc₂ r₂) :
    Gathered derive fs uri text importingUri (path :: paths) doc₀ r₀ doc₂ r₂ where
  grows := h₁.grows.trans h₂.grows
  accounted := h₂.accounted
  visited := by
    intro p hp file hr
    rcases List.mem_cons.mp hp with rfl | hp
    · exact h₂.grows (h₁.visited p (List.mem_singleton_self p) file hr)
    · exact h₂.visited p hp file hr
  reached := by
    intro file he
    rcases (entered_trans h₁.grows h₂.grows file).mp he with he | he
    · exact h₁.reached file he
    · exact h₂.reached file he
  closed := by
    intro file he src hs p hp next hr
    rcases (entered_trans h₁.grows h₂.grows file).mp he with he | he
    · exact h₂.grows (h₁.closed file he src hs p hp next hr)
    · exact h₂.closed file he src hs p hp next hr
  exported := by
    intro name
    rw [h₂.exported, h₁.exported, exists_entered_trans h₁.grows h₂.grows, or_assoc]
  importedNames := by
    intro name
    rw [h₂.importedNames, h₁.importedNames, exists_entered_trans h₁.grows h₂.grows, or_assoc]
  kept := ⟨h₂.kept.1.trans h₁.kept.1, h₂.kept.2.trans h₁.kept.2⟩

/-- What the recursion does for a child is what the loop does for its imports. -/
def Gathers (derive : String → SourceText) (fs : Files) (uri text : String)
    (recurse : String → FalconDocument → Progress (List String) → Resolution (List String)) :
    Prop :=
  ∀ importingUri doc r doc' r', Site derive fs uri text importingUri doc →
    Accounted derive fs uri text r → recurse importingUri doc r = some (doc', r') →
    Gathered derive fs uri text importingUri doc.importPaths doc r doc' r'

/-- A path that leads to visited files, whoever writes it, may be marked. -/
theorem Accounted.resolve {r : Progress (List String)} {path : String}
    (h : Accounted derive fs uri text r)
    (hp : ∀ {importingUri doc file}, Site derive fs uri text importingUri doc →
      path ∈ doc.importPaths → resolvePath fs importingUri path = some file →
      file ∈ r.visited) :
    Accounted derive fs uri text (r.resolve path) := by
  intro importingUri doc p file hsite hres hmem hr
  rcases Finset.mem_insert.mp hres with rfl | hres
  · exact hp hsite hmem hr
  · exact h _ _ _ _ hsite hres hmem hr

theorem Accounted.mono {r r' : Progress (List String)} (h : Accounted derive fs uri text r)
    (hr : r'.resolvedPaths = r.resolvedPaths) (hv : r.visited ⊆ r'.visited) :
    Accounted derive fs uri text r' := by
  intro importingUri doc p file hsite hres hmem hp
  exact hv (h _ _ _ _ hsite (hr ▸ hres) hmem hp)

theorem fileDeclares_iff {file src : String} (hc : fs.contents[file]? = some src)
    (name : String) :
    FileDeclares derive fs file name ↔
      name ∈ exportedNames (freshDocument derive (fileUri file) src).symbols := by
  rw [mem_exportedNames_fresh]
  constructor
  · rintro ⟨src', program, hc', hp, hd⟩
    rw [hc] at hc'
    cases hc'
    exact ⟨program, hp, hd⟩
  · rintro ⟨program, hp, hd⟩
    exact ⟨src, program, hc, hp, hd⟩

/-- No import is written like a wrapper that exists. -/
theorem Gathered.wrappers {importingUri : String} {site doc' : FalconDocument}
    {r r' : Progress (List String)} (hspell : Spelled derive fs uri text)
    (hsite : Site derive fs uri text importingUri site)
    (h : Gathered derive fs uri text importingUri site.importPaths site r doc' r') :
    Gathered derive fs uri text importingUri site.importPaths site r doc'
      (resolveFFImports fs importingUri doc'.ffimportPaths r') := by
  have hv : (resolveFFImports fs importingUri doc'.ffimportPaths r').visited = r'.visited :=
    visited_resolveFFImports _ _
  have he : ∀ file, Entered r (resolveFFImports fs importingUri doc'.ffimportPaths r') file ↔
      Entered r r' file := by
    intro file
    rw [Entered, Entered, hv]
  exact {
    grows := hv ▸ h.grows
    accounted := by
      intro u doc path file hs hres hmem hp
      rw [hv]
      rcases (mem_resolveFFImports _ _).mp hres with hres | ⟨hff, hsome⟩
      · exact h.accounted u doc path file hs hres hmem hp
      · obtain ⟨wrapper, hw⟩ := Option.isSome_iff_exists.mp hsome
        rw [h.kept.2] at hff
        exact absurd hw (hspell.ffimports hs hsite hmem hff hp)
    visited := hv ▸ h.visited
    reached := fun file hn => h.reached file ((he file).mp hn)
    closed := by
      intro file hn
      rw [hv]
      exact h.closed file ((he file).mp hn)
    exported := by
      intro name
      simp only [he]
      exact h.exported name
    importedNames := by
      intro name
      simp only [he]
      exact h.importedNames name
    kept := h.kept }

theorem entered_visit {r r₁ r' : Progress (List String)} {file : String}
    (hv : file ∉ r.visited) (h₁ : r₁.visited = (r.visit file).visited)
    (hsub : r₁.visited ⊆ r'.visited) (next : String) :
    Entered r r' next ↔ next = file ∨ Entered r₁ r' next := by
  have hmem : next ∈ r₁.visited ↔ next = file ∨ next ∈ r.visited := by
    rw [h₁]
    exact Finset.mem_insert
  constructor
  · rintro ⟨hin, hout⟩
    by_cases he : next = file
    · exact .inl he
    · exact .inr ⟨hin, fun h => (hmem.mp h).elim he hout⟩
  · rintro (rfl | ⟨hin, hout⟩)
    · exact ⟨hsub (hmem.mpr (.inl rfl)), hv⟩
    · exact ⟨hin, fun h => hout (hmem.mpr (.inr h))⟩

/-- A file that cannot be opened has been visited and declares nothing. -/
theorem gathered_of_unreadable {importingUri path file : String} {site doc : FalconDocument}
    {r : Progress (List String)} (hsite : Site derive fs uri text importingUri site)
    (hpath : path ∈ site.importPaths) (ha : Accounted derive fs uri text r)
    (hp : resolvePath fs importingUri path = some file) (hv : file ∉ r.visited)
    (hc : fs.contents[file]? = none) :
    Gathered derive fs uri text importingUri [path] doc r doc (r.visit file) := by
  have he : ∀ next, Entered r (r.visit file) next ↔ next = file := by
    intro next
    rw [entered_visit hv rfl (Finset.Subset.refl _)]
    exact ⟨fun h => h.elim id fun h => absurd h (not_entered_self _ _), .inl⟩
  have hnone : ∀ name, ¬ ∃ next, Entered r (r.visit file) next ∧
      FileDeclares derive fs next name := by
    rintro name ⟨next, hn, src, program, hs, _⟩
    rw [(he next).mp hn, hc] at hs
    cases hs
  exact {
    grows := Finset.subset_insert _ _
    accounted := ha.mono rfl (Finset.subset_insert _ _)
    visited := by
      intro p hmem next hres
      rw [List.mem_singleton.mp hmem, hp] at hres
      cases hres
      exact Finset.mem_insert_self _ _
    reached := by
      intro next hn
      rw [(he next).mp hn]
      exact ⟨importingUri, site, path, hsite, hpath, hp⟩
    closed := by
      intro next hn src hs
      rw [(he next).mp hn, hc] at hs
      cases hs
    exported := fun name => ⟨.inl, fun h => h.elim id fun h => absurd h (hnone name)⟩
    importedNames := fun name => ⟨.inl, fun h => h.elim id fun h => absurd h (hnone name)⟩
    kept := ⟨rfl, rfl⟩ }

/-- What a parsed child has gathered becomes the parent's. -/
theorem gathered_of_child {importingUri path file src : String}
    {site doc child : FalconDocument} {r r₁ s₁ : Progress (List String)}
    (hspell : Spelled derive fs uri text) (hsite : Site derive fs uri text importingUri site)
    (hpath : path ∈ site.importPaths) (hp : resolvePath fs importingUri path = some file)
    (hv : file ∉ r.visited) (hc : fs.contents[file]? = some src)
    (h₁ : r₁.visited = (r.visit file).visited)
    (hg : Gathered derive fs uri text (fileUri file)
      (freshDocument derive (fileUri file) src).importPaths
      (freshDocument derive (fileUri file) src) r₁ child s₁) :
    Gathered derive fs uri text importingUri [path] doc r (doc.merge child)
      (s₁.resolve path) := by
  have he := entered_visit hv h₁ hg.grows
  have hin : file ∈ s₁.visited := hg.grows (h₁ ▸ Finset.mem_insert_self _ _)
  have hnames : ∀ name, name ∈ exportedNames child.symbols ↔
      ∃ next, Entered r (s₁.resolve path) next ∧ FileDeclares derive fs next name := by
    intro name
    rw [hg.exported, ← fileDeclares_iff hc]
    constructor
    · rintro (hd | ⟨next, hn, hd⟩)
      · exact ⟨file, (he file).mpr (.inl rfl), hd⟩
      · exact ⟨next, (he next).mpr (.inr hn), hd⟩
    · rintro ⟨next, hn, hd⟩
      rcases (he next).mp hn with rfl | hn
      · exact .inl hd
      · exact .inr ⟨next, hn, hd⟩
  exact {
    grows := fun next hn => hg.grows (h₁ ▸ Finset.mem_insert_of_mem hn)
    accounted := by
      refine hg.accounted.resolve fun hs hmem hres => ?_
      rw [hspell.imports hs hsite hmem hpath hres hp]
      exact hin
    visited := by
      intro p hmem next hres
      rw [List.mem_singleton.mp hmem, hp] at hres
      cases hres
      exact hin
    reached := by
      intro next hn
      rcases (he next).mp hn with rfl | hn
      · exact ⟨importingUri, site, path, hsite, hpath, hp⟩
      · exact hg.reached next hn
    closed := by
      intro next hn src' hs
      rcases (he next).mp hn with rfl | hn
      · rw [hc] at hs
        cases hs
        exact hg.visited
      · exact hg.closed next hn src' hs
    exported := by
      intro name
      have hm : exportedNames (doc.merge child).symbols =
          exportedNames doc.symbols ++ exportedNames child.symbols := by
        rw [← exportedNames_exported child]
        exact exportedNames_append _ _
      rw [hm, List.mem_append, hnames]
    importedNames := by
      intro name
      have hm : name ∈ (doc.merge child).importedNames ↔
          name ∈ doc.importedNames ∨ name ∈ exportedNames child.symbols := by
        rw [← names_exported, ← List.mem_toFinset]
        exact Finset.mem_union
      rw [hm, hnames]
    kept := ⟨rfl, rfl⟩ }

theorem gathered_of_turn
    {recurse : String → FalconDocument → Progress (List String) → Resolution (List String)}
    (hrec : Gathers derive fs uri text recurse) (hspell : Spelled derive fs uri text)
    {importingUri path : String} {site doc doc' : FalconDocument}
    {r r' : Progress (List String)} (hsite : Site derive fs uri text importingUri site)
    (hpath : path ∈ site.importPaths) (ha : Accounted derive fs uri text r)
    (h : Turn fs (memoryless derive) recurse importingUri path doc r doc' r') :
    Gathered derive fs uri text importingUri [path] doc r doc' r' := by
  cases h with
  | skipped hr =>
    refine .refl rfl ha fun p hp file hres => ?_
    rw [List.mem_singleton.mp hp] at hres
    exact ha _ _ _ _ hsite hr hpath hres
  | missing hr hp =>
    refine .refl rfl ha fun p hmem file hres => ?_
    rw [List.mem_singleton.mp hmem, hp] at hres
    cases hres
  | @visited file hr hp hv =>
    refine .refl rfl (ha.resolve fun hs hmem hres => ?_) fun p hmem file' hres => ?_
    · rw [hspell.imports hs hsite hmem hpath hres hp]
      exact hv
    · rw [List.mem_singleton.mp hmem, hp] at hres
      cases hres
      exact hv
  | unreadable hr hp hv hc => exact gathered_of_unreadable hsite hpath ha hp hv hc
  | parsed hr hp hv hc hchild =>
    refine gathered_of_child hspell hsite hpath hp hv hc ?_
      (hrec _ _ _ _ _ (.imported hsite hpath hp hc) ?_ hchild)
    · rfl
    · exact ha.mono rfl (Finset.subset_insert _ _)

theorem gathered_of_resolveImports
    {recurse : String → FalconDocument → Progress (List String) → Resolution (List String)}
    (hrec : Gathers derive fs uri text recurse) (hspell : Spelled derive fs uri text)
    {importingUri : String} {site : FalconDocument}
    (hsite : Site derive fs uri text importingUri site) {paths : List String}
    (hpaths : ∀ path ∈ paths, path ∈ site.importPaths) {doc doc' : FalconDocument}
    {r r' : Progress (List String)} (ha : Accounted derive fs uri text r)
    (h : resolveImports fs (memoryless derive) recurse importingUri paths doc r =
      some (doc', r')) :
    Gathered derive fs uri text importingUri paths doc r doc' r' := by
  induction paths generalizing doc r with
  | nil =>
    cases h
    exact .refl rfl ha fun _ hp => absurd hp List.not_mem_nil
  | cons path paths ih =>
    obtain ⟨doc₁, r₁, hi, hrest⟩ := resolveImports_cons h
    have h₁ := gathered_of_turn hrec hspell hsite (hpaths path List.mem_cons_self) ha
      (turn_of_resolveImport hi)
    exact h₁.trans (ih (fun p hp => hpaths p (List.mem_cons_of_mem _ hp)) h₁.accounted hrest)

theorem resolveDocumentImpl_gathers (hspell : Spelled derive fs uri text) (n : Nat) :
    Gathers derive fs uri text (resolveDocumentImpl fs (memoryless derive) n) := by
  induction n with
  | zero =>
    intro _ _ _ _ _ _ _ h
    cases h
  | succ n ih =>
    intro importingUri doc r doc' r' hsite ha h
    obtain ⟨r₁, hi, rfl⟩ := resolveDocumentImpl_succ h
    exact (gathered_of_resolveImports ih hspell hsite (fun _ hp => hp) ha hi).wrappers hspell hsite

/-- Only what the imports reach is visited, and all of it. -/
theorem visited_iff_reached {doc : FalconDocument} {r : Progress (List String)}
    (hspell : Spelled derive fs uri text)
    (hapart : ¬ Reached derive fs uri text (stripScheme uri))
    (h : alone derive fs uri text = some (doc, r)) (file : String) :
    Entered ⟨∅, {stripScheme uri}, [text]⟩ r file ↔ Reached derive fs uri text file := by
  have hg := resolveDocumentImpl_gathers hspell _ _ _ _ _ _ .own
    (fun _ _ _ _ _ hres => absurd hres (Finset.notMem_empty _)) h
  have hentered : ∀ next, Reached derive fs uri text next → next ∈ r.visited →
      Entered ⟨∅, {stripScheme uri}, [text]⟩ r next := by
    intro next hreach hin
    refine ⟨hin, fun hc => hapart ?_⟩
    rw [← Finset.mem_singleton.mp hc]
    exact hreach
  have hall : ∀ u d, Site derive fs uri text u d → ∀ path ∈ d.importPaths, ∀ next,
      resolvePath fs u path = some next → next ∈ r.visited := by
    intro u d hsite
    induction hsite with
    | own => exact hg.visited
    | imported hsite hpath hp hc ih =>
      exact hg.closed _ (hentered _ ⟨_, _, _, hsite, hpath, hp⟩ (ih _ hpath _ hp)) _ hc
  constructor
  · exact hg.reached file
  · rintro ⟨u, d, path, hsite, hpath, hp⟩
    exact hentered _ ⟨u, d, path, hsite, hpath, hp⟩ (hall u d hsite path hpath file hp)

theorem importedNames_alone {doc : FalconDocument} {r : Progress (List String)}
    (hspell : Spelled derive fs uri text)
    (hapart : ¬ Reached derive fs uri text (stripScheme uri))
    (h : alone derive fs uri text = some (doc, r)) (name : String) :
    name ∈ doc.importedNames ↔
      ∃ file, Reached derive fs uri text file ∧ FileDeclares derive fs file name := by
  have hg := resolveDocumentImpl_gathers hspell _ _ _ _ _ _ .own
    (fun _ _ _ _ _ hres => absurd hres (Finset.notMem_empty _)) h
  have hnone : name ∉ (freshDocument derive uri text).importedNames := by
    unfold freshDocument FalconDocumentParser.parse
    dsimp only
    split
    · exact Finset.notMem_empty _
    · exact Finset.notMem_empty _
  rw [hg.importedNames]
  constructor
  · rintro (hn | ⟨file, he, hd⟩)
    · exact absurd hn hnone
    · exact ⟨file, (visited_iff_reached hspell hapart h file).mp he, hd⟩
  · rintro ⟨file, hr, hd⟩
    exact .inr ⟨file, (visited_iff_reached hspell hapart h file).mpr hr, hd⟩

end Gather

/-! ## An analysis with a past -/

section Simulation

variable {derive : String → SourceText} {fs : Files} {uri text : String} {t : Tables}
  {known : Finset String}

/-- The tables `t` have been met with by the texts parsed so far, and `known` has been
resolved before. -/
structure Sim (derive : String → SourceText) (t : Tables) (known : Finset String)
    (s : Progress Tables) (r : Progress (List String)) : Prop where
  resolvedPaths : ∀ path, path ∈ s.resolvedPaths ↔ path ∈ known ∨ path ∈ r.resolvedPaths
  visited : s.visited = r.visited
  parser : s.parser = tablesAfter derive t r.parser

theorem tablesAfter_concat (t : Tables) (texts : List String) (text : String) :
    tablesAfter derive t (texts ++ [text]) =
      (parseFile (tablesAfter derive t texts) ∅ (derive text)).2 := by
  unfold tablesAfter
  rw [List.foldl_append]
  rfl

theorem parse_tables (uri text : String) (t : Tables) :
    (FalconDocumentParser.parse derive uri text t).2 = (parseFile t ∅ (derive text)).2 := by
  unfold FalconDocumentParser.parse
  dsimp only
  split
  · rfl
  · rfl

theorem parse_eq_fresh {text : String} {t : Tables} (uri : String)
    (h : (parseFile t ∅ (derive text)).1 = (parseFile {} ∅ (derive text)).1) :
    (FalconDocumentParser.parse derive uri text t).1 = freshDocument derive uri text := by
  unfold freshDocument FalconDocumentParser.parse
  dsimp only
  rw [h]
  cases (parseFile {} ∅ (derive text)).1.program with
  | none => rfl
  | some program => rfl

theorem ParsesAlike.of_prefix {texts earlier : List String} (h : ParsesAlike derive t texts)
    (hp : earlier <+: texts) : ParsesAlike derive t earlier :=
  fun before text hb => h before text (hb.trans hp)

/-- Nothing that is written in the document and its files has been resolved before. -/
def Clear (derive : String → SourceText) (fs : Files) (uri text : String)
    (known : Finset String) : Prop :=
  ∀ importingUri doc path, Site derive fs uri text importingUri doc →
    path ∈ doc.importPaths ∨ path ∈ doc.ffimportPaths → path ∉ known

/-- From related states the two analyses go the same way. -/
def Simulated (derive : String → SourceText) (t : Tables) (known : Finset String)
    (r r' : Progress (List String)) (real : Progress Tables → Resolution Tables)
    (doc' : FalconDocument) : Prop :=
  r.parser <+: r'.parser ∧ (ParsesAlike derive t r'.parser → ∀ s, Sim derive t known s r →
    ∃ s', real s = some (doc', s') ∧ Sim derive t known s' r')

def Simulates (derive : String → SourceText) (fs : Files) (uri text : String) (t : Tables)
    (known : Finset String)
    (recurse : String → FalconDocument → Progress (List String) → Resolution (List String))
    (real : String → FalconDocument → Progress Tables → Resolution Tables) : Prop :=
  ∀ importingUri doc r doc' r', Site derive fs uri text importingUri doc →
    recurse importingUri doc r = some (doc', r') →
    Simulated derive t known r r' (real importingUri doc) doc'

theorem Sim.notMem {s : Progress Tables} {r : Progress (List String)} {path : String}
    (h : Sim derive t known s r) (hk : path ∉ known) (hr : path ∉ r.resolvedPaths) :
    path ∉ s.resolvedPaths :=
  fun hc => ((h.resolvedPaths path).mp hc).elim hk hr

theorem Sim.resolve {s : Progress Tables} {r : Progress (List String)}
    (h : Sim derive t known s r) (path : String) :
    Sim derive t known (s.resolve path) (r.resolve path) where
  resolvedPaths := by
    intro p
    have hs : p ∈ (s.resolve path).resolvedPaths ↔ p = path ∨ p ∈ s.resolvedPaths :=
      Finset.mem_insert
    have hr : p ∈ (r.resolve path).resolvedPaths ↔ p = path ∨ p ∈ r.resolvedPaths :=
      Finset.mem_insert
    rw [hs, hr, h.resolvedPaths, or_left_comm]
  visited := h.visited
  parser := h.parser

theorem simulated_turn
    {recurse : String → FalconDocument → Progress (List String) → Resolution (List String)}
    {real : String → FalconDocument → Progress Tables → Resolution Tables}
    (hrec : Simulates derive fs uri text t known recurse real)
    (hclear : Clear derive fs uri text known) {importingUri path : String}
    {site doc doc' : FalconDocument} {r r' : Progress (List String)}
    (hsite : Site derive fs uri text importingUri site) (hpath : path ∈ site.importPaths)
    (h : Turn fs (memoryless derive) recurse importingUri path doc r doc' r') :
    Simulated derive t known r r'
      (resolveImport fs (FalconDocumentParser.parse derive) real importingUri path doc) doc' := by
  have hk : path ∉ known := hclear _ _ _ hsite (.inl hpath)
  cases h with
  | skipped hr =>
    refine ⟨List.prefix_rfl, fun _ s hs => ⟨s, resolveImport_of_turn (.skipped ?_), hs⟩⟩
    exact (hs.resolvedPaths path).mpr (.inr hr)
  | missing hr hp =>
    refine ⟨List.prefix_rfl, fun _ s hs => ⟨s, resolveImport_of_turn (.missing ?_ hp), hs⟩⟩
    exact hs.notMem hk hr
  | visited hr hp hv =>
    refine ⟨List.prefix_rfl, fun _ s hs => ⟨s.resolve path, ?_, hs.resolve path⟩⟩
    exact resolveImport_of_turn (.visited (hs.notMem hk hr) hp (hs.visited ▸ hv))
  | @unreadable file hr hp hv hc =>
    refine ⟨List.prefix_rfl, fun _ s hs => ⟨s.visit file, ?_, ?_⟩⟩
    · exact resolveImport_of_turn (.unreadable (hs.notMem hk hr) hp (hs.visited ▸ hv) hc)
    · exact ⟨hs.resolvedPaths, congrArg (insert file) hs.visited, hs.parser⟩
  | @parsed file src child r₁ hr hp hv hc hchild =>
    obtain ⟨hlog, hsim⟩ := hrec _ _ _ _ _ (.imported hsite hpath hp hc) hchild
    refine ⟨(List.prefix_append _ _).trans hlog, fun halike s hs => ?_⟩
    have hparse := halike r.parser src hlog
    rw [← hs.parser] at hparse
    have hstart : Sim derive t known
        { s.visit file with
          parser := (FalconDocumentParser.parse derive (fileUri file) src s.parser).2 }
        { r.visit file with parser := r.parser ++ [src] } :=
      ⟨hs.resolvedPaths, congrArg (insert file) hs.visited, by
        rw [tablesAfter_concat, parse_tables, hs.parser]⟩
    obtain ⟨s₁, hreal, hs₁⟩ := hsim halike _ hstart
    refine ⟨s₁.resolve path, resolveImport_of_turn ?_, hs₁.resolve path⟩
    refine .parsed (hs.notMem hk hr) hp (hs.visited ▸ hv) hc ?_
    rw [parse_eq_fresh (fileUri file) hparse]
    exact hreal

theorem simulated_resolveImports
    {recurse : String → FalconDocument → Progress (List String) → Resolution (List String)}
    {real : String → FalconDocument → Progress Tables → Resolution Tables}
    (hrec : Simulates derive fs uri text t known recurse real)
    (hclear : Clear derive fs uri text known) {importingUri : String} {site : FalconDocument}
    (hsite : Site derive fs uri text importingUri site) {paths : List String}
    (hpaths : ∀ path ∈ paths, path ∈ site.importPaths) {doc doc' : FalconDocument}
    {r r' : Progress (List String)}
    (h : resolveImports fs (memoryless derive) recurse importingUri paths doc r =
      some (doc', r')) :
    Simulated derive t known r r'
      (resolveImports fs (FalconDocumentParser.parse derive) real importingUri paths doc)
      doc' := by
  induction paths generalizing doc r with
  | nil =>
    cases h
    exact ⟨List.prefix_rfl, fun _ s hs => ⟨s, rfl, hs⟩⟩
  | cons path paths ih =>
    obtain ⟨doc₁, r₁, hi, hrest⟩ := resolveImports_cons h
    obtain ⟨hp₁, hs₁⟩ := simulated_turn hrec hclear hsite (hpaths path List.mem_cons_self)
      (turn_of_resolveImport hi)
    obtain ⟨hp₂, hs₂⟩ := ih (fun p hp => hpaths p (List.mem_cons_of_mem _ hp)) hrest
    refine ⟨hp₁.trans hp₂, fun halike s hs => ?_⟩
    obtain ⟨s₁, hreal, hsim⟩ := hs₁ (halike.of_prefix hp₂) s hs
    obtain ⟨s₂, hreal₂, hsim₂⟩ := hs₂ halike s₁ hsim
    refine ⟨s₂, ?_, hsim₂⟩
    rw [resolveImports, hreal]
    exact hreal₂

theorem Sim.wrappers {s : Progress Tables} {r : Progress (List String)}
    (h : Sim derive t known s r) (importingUri : String) (paths : List String) :
    Sim derive t known (resolveFFImports fs importingUri paths s)
      (resolveFFImports fs importingUri paths r) where
  resolvedPaths := by
    intro path
    rw [mem_resolveFFImports, mem_resolveFFImports, h.resolvedPaths, or_assoc]
  visited := by rw [visited_resolveFFImports, visited_resolveFFImports, h.visited]
  parser := by rw [parser_resolveFFImports, parser_resolveFFImports, h.parser]

theorem simulated_resolveDocumentImpl (hclear : Clear derive fs uri text known) (n : Nat) :
    Simulates derive fs uri text t known (resolveDocumentImpl fs (memoryless derive) n)
      (resolveDocumentImpl fs (FalconDocumentParser.parse derive) n) := by
  induction n with
  | zero =>
    intro _ _ _ _ _ _ h
    cases h
  | succ n ih =>
    intro importingUri doc r doc' r' hsite h
    obtain ⟨r₁, hi, rfl⟩ := resolveDocumentImpl_succ h
    obtain ⟨hlog, hsim⟩ := simulated_resolveImports ih hclear hsite (fun _ hp => hp) hi
    rw [Simulated, parser_resolveFFImports]
    refine ⟨hlog, fun halike s hs => ?_⟩
    obtain ⟨s₁, hreal, hs₁⟩ := hsim halike s hs
    refine ⟨resolveFFImports fs importingUri doc'.ffimportPaths s₁, ?_, hs₁.wrappers _ _⟩
    rw [resolveDocumentImpl, hreal]

end Simulation

/-! ## Runs -/

/-- One analysis, and the files as they are then. -/
structure Call where
  fs : Files
  uri : String
  text : String

def FalconServer.run (derive : String → SourceText) (calls : List Call) : FalconServer :=
  calls.foldl (fun s call => s.analyze derive call.fs call.uri call.text) {}

section Runs

variable {derive : String → SourceText} {fs : Files} {uri text : String}

/-- An analysis begins with the text itself. -/
theorem starts_with_text {doc : FalconDocument} {r : Progress (List String)} {known : Finset String}
    (hclear : Clear derive fs uri text known) (h : alone derive fs uri text = some (doc, r)) :
    [] ++ [text] <+: r.parser :=
  (simulated_resolveDocumentImpl (t := {}) hclear _ _ _ _ _ _ .own h).1

theorem imports_alone {doc : FalconDocument} {r : Progress (List String)}
    (hspell : Spelled derive fs uri text) (h : alone derive fs uri text = some (doc, r)) :
    doc.importPaths = (freshDocument derive uri text).importPaths ∧
      doc.ffimportPaths = (freshDocument derive uri text).ffimportPaths :=
  (resolveDocumentImpl_gathers hspell _ _ _ _ _ _ .own
    (fun _ _ _ _ _ hres => absurd hres (Finset.notMem_empty _)) h).kept

theorem analyze_eq_alone {s : FalconServer} (h : Unaffected derive fs uri text s) :
    ∃ doc r progress, alone derive fs uri text = some (doc, r) ∧
      s.analyze derive fs uri text =
        { docs := s.docs.assign uri doc
          resolvedPaths := progress.resolvedPaths
          tables := progress.parser } ∧
      Sim derive s.tables s.resolvedPaths progress r := by
  have hclear : Clear derive fs uri text s.resolvedPaths := fun _ _ _ => h.unresolved
  obtain ⟨doc, r, hr⟩ : ∃ doc r, alone derive fs uri text = some (doc, r) :=
    resolveDocument_total _ _ _ _
  have halike := h.parsed hr
  have hparse : (FalconDocumentParser.parse derive uri text s.tables).1 =
      freshDocument derive uri text :=
    parse_eq_fresh uri (halike [] text (starts_with_text hclear hr))
  have hstart : Sim derive s.tables s.resolvedPaths
      ⟨s.resolvedPaths, {stripScheme uri},
        (FalconDocumentParser.parse derive uri text s.tables).2⟩
      ⟨∅, {stripScheme uri}, [text]⟩ := by
    refine ⟨fun path => ?_, rfl, parse_tables uri text s.tables⟩
    exact ⟨.inl, fun hp => hp.elim id fun hp => absurd hp (Finset.notMem_empty _)⟩
  obtain ⟨progress, hreal, hsim⟩ :=
    (simulated_resolveDocumentImpl hclear _ _ _ _ _ _ .own hr).2 halike _ hstart
  refine ⟨doc, r, progress, hr, ?_, hsim⟩
  unfold FalconServer.analyze
  dsimp only
  have hres : resolveDocument fs (FalconDocumentParser.parse derive) uri
      (FalconDocumentParser.parse derive uri text s.tables).1 s.resolvedPaths
      (FalconDocumentParser.parse derive uri text s.tables).2 = some (doc, progress) := by
    rw [hparse]
    exact hreal
  rw [hres]

/-- Whatever was analysed before: an analysis that does not come upon a path resolved
then has the names its imports give it, and publishes what it would publish alone. -/
theorem settled_of_unaffected (builtins : StdMap BuiltinSignature) (earlier : List Call)
    (call : Call)
    (h : Unaffected derive call.fs call.uri call.text (FalconServer.run derive earlier)) :
    Settled derive call.fs call.uri call.text builtins
      (FalconServer.run derive (earlier ++ [call])) := by
  obtain ⟨doc, r, progress, hr, hrun, hsim⟩ := analyze_eq_alone h
  have hlast : FalconServer.run derive (earlier ++ [call]) =
      (FalconServer.run derive earlier).analyze derive call.fs call.uri call.text := by
    unfold FalconServer.run
    rw [List.foldl_append]
    rfl
  rw [hlast, hrun]
  refine ⟨doc, r, hr, StdMap.getElem?_assign_self _ _ _,
    importedNames_alone h.spelled h.apart hr, ?_⟩
  obtain ⟨himports, hff⟩ := imports_alone h.spelled hr
  unfold FalconServer.published checkImports
  congr 2
  refine List.filter_congr fun path hp => ?_
  rw [himports, hff, List.mem_append] at hp
  have hiff : path ∈ progress.resolvedPaths ↔ path ∈ r.resolvedPaths := by
    rw [hsim.resolvedPaths]
    exact ⟨fun hm => hm.elim (fun hk => absurd hk (h.unresolved .own hp)) id, .inr⟩
  exact decide_eq_decide.mpr (not_congr hiff)

end Runs

/-! ## A document with one import -/

namespace Sample

def mainText : String := "import \"lib.fal\";"

def libText : String := "routine f () -> () \x7b \x7d"

def derive (text : String) : SourceText :=
  if text = libText then
    ⟨"lib.fal", "lib", { items := [.routine { name := "f" }] }, none⟩
  else ⟨"main.fal", "main", { imports := ["lib.fal"] }, none⟩

def fs : Files where
  weaklyCanonical := some
  fileExists path := path = "/p/lib.fal"
  contents := (∅ : StdMap String).assign "/p/lib.fal" libText

def call : Call := ⟨fs, "/p/main.fal", mainText⟩

/-- The same text where there is no such file. -/
def elsewhere : Call := ⟨fs, "/q/main.fal", mainText⟩

theorem contents_lib : fs.contents["/p/lib.fal"]? = some libText :=
  StdMap.getElem?_assign_self _ _ _

theorem resolvePath_lib : resolvePath fs call.uri "lib.fal" = some "/p/lib.fal" := by
  decide +kernel

theorem imports_main : (freshDocument derive call.uri mainText).importPaths = ["lib.fal"] ∧
    (freshDocument derive call.uri mainText).ffimportPaths = [] := by
  decide +kernel

theorem imports_lib :
    (freshDocument derive (fileUri "/p/lib.fal") libText).importPaths = [] ∧
      (freshDocument derive (fileUri "/p/lib.fal") libText).ffimportPaths = [] := by
  decide +kernel

theorem lib_declares : FileDeclares derive fs "/p/lib.fal" "f" := by
  rw [fileDeclares_iff contents_lib]
  decide +kernel

theorem lib_reached : Reached derive fs call.uri mainText "/p/lib.fal" := by
  refine ⟨call.uri, _, "lib.fal", .own, ?_, resolvePath_lib⟩
  rw [imports_main.1]
  exact List.mem_singleton_self _

theorem site {importingUri : String} {doc : FalconDocument}
    (h : Site derive fs call.uri mainText importingUri doc) :
    (importingUri = call.uri ∧ doc = freshDocument derive call.uri mainText) ∨
      (doc.importPaths = [] ∧ doc.ffimportPaths = []) := by
  induction h with
  | own => exact .inl ⟨rfl, rfl⟩
  | imported _ hpath hp hc ih =>
    rcases ih with ⟨rfl, rfl⟩ | ⟨hnil, _⟩
    · rw [imports_main.1] at hpath
      rw [List.mem_singleton.mp hpath, resolvePath_lib] at hp
      cases hp
      rw [contents_lib] at hc
      cases hc
      exact .inr imports_lib
    · rw [hnil] at hpath
      exact absurd hpath List.not_mem_nil

theorem import_site {importingUri path file : String} {doc : FalconDocument}
    (h : Site derive fs call.uri mainText importingUri doc) (hpath : path ∈ doc.importPaths)
    (hp : resolvePath fs importingUri path = some file) : file = "/p/lib.fal" := by
  rcases site h with ⟨rfl, rfl⟩ | ⟨hnil, _⟩
  · rw [imports_main.1] at hpath
    rw [List.mem_singleton.mp hpath, resolvePath_lib] at hp
    cases hp
    rfl
  · rw [hnil] at hpath
    exact absurd hpath List.not_mem_nil

theorem no_wrappers {importingUri : String} {doc : FalconDocument}
    (h : Site derive fs call.uri mainText importingUri doc) : doc.ffimportPaths = [] := by
  rcases site h with ⟨rfl, rfl⟩ | ⟨_, hnil⟩
  · exact imports_main.2
  · exact hnil

theorem spelled : Spelled derive fs call.uri mainText where
  imports h₁ h₂ hm₁ hm₂ hp₁ hp₂ :=
    (import_site h₁ hm₁ hp₁).trans (import_site h₂ hm₂ hp₂).symm
  ffimports _ h₂ _ hm₂ := by
    rw [no_wrappers h₂] at hm₂
    exact absurd hm₂ List.not_mem_nil

theorem parsesAlike {doc : FalconDocument} {r : Progress (List String)}
    (h : alone derive fs call.uri mainText = some (doc, r)) : ParsesAlike derive {} r.parser := by
  have htexts : (alone derive fs call.uri mainText).map (·.2.parser) =
      some [mainText, libText] := by
    decide +kernel
  rw [h] at htexts
  have hr : r.parser = [mainText, libText] := Option.some.inj htexts
  intro earlier text hlog
  rw [hr] at hlog
  have hmain : (parseFile {} ∅ (derive mainText)).2 = {} := rfl
  rcases earlier with _ | ⟨first, _ | ⟨second, rest⟩⟩
  · rfl
  · have hfirst : first = mainText := (List.cons_prefix_cons.mp hlog).1
    have htables : tablesAfter derive {} [first] = {} := by
      rw [hfirst]
      exact hmain
    rw [htables]
  · have hlength := hlog.length_le
    simp only [List.cons_append, List.length_cons, List.length_append, List.length_nil] at hlength
    omega

end Sample

/-- An analysis of a document after another one whose import was missing. -/
theorem settled_after_elsewhere :
    Settled Sample.derive Sample.call.fs Sample.call.uri Sample.call.text ∅
      (FalconServer.run Sample.derive ([Sample.elsewhere] ++ [Sample.call])) := by
  refine settled_of_unaffected ∅ [Sample.elsewhere] Sample.call ?_
  have hresolved : (FalconServer.run Sample.derive [Sample.elsewhere]).resolvedPaths = ∅ := by
    decide +kernel
  have htables : (FalconServer.run Sample.derive [Sample.elsewhere]).tables = {} := rfl
  constructor
  · intro _ _ _ _ _
    rw [hresolved]
    exact Finset.notMem_empty _
  · intro doc progress h
    rw [htables]
    exact Sample.parsesAlike h
  · exact Sample.spelled
  · rintro ⟨importingUri, doc, path, h, hpath, hp⟩
    have hne : stripScheme Sample.call.uri ≠ "/p/lib.fal" := by decide +kernel
    exact hne (Sample.import_site h hpath hp)

/-- The second analysis of a text skips the import that the first one has resolved. -/
theorem not_settled_again :
    ¬ ∀ (derive : String → SourceText) (builtins : StdMap BuiltinSignature)
      (earlier : List Call) (call : Call),
      Settled derive call.fs call.uri call.text builtins
        (FalconServer.run derive (earlier ++ [call])) := by
  intro h
  obtain ⟨doc, progress, _, hdoc, hnames, _⟩ := h Sample.derive ∅ [Sample.call] Sample.call
  have hempty : ((FalconServer.run Sample.derive ([Sample.call] ++ [Sample.call])).docs[
      Sample.call.uri]?).map (·.importedNames) = some ∅ := by
    decide +kernel
  rw [hdoc] at hempty
  have hnone : doc.importedNames = ∅ := Option.some.inj hempty
  have hf := (hnames "f").mpr ⟨"/p/lib.fal", Sample.lib_reached, Sample.lib_declares⟩
  rw [hnone] at hf
  exact Finset.notMem_empty _ hf

end FalconLib.Lsp
