import Mathlib.Data.Finset.Card
import FalconLib.Lsp.ImportResolver

/-!
# The loop over the imports

What a turn of the loop comes upon, and that the recursion ends: it goes down only into
files that it has not visited.
-/

namespace FalconLib.Lsp

open FalconLib.Base (StdMap)
open ImportResolver

def fileUri (file : String) : String := "file://" ++ file

/-! ## One turn of the loop -/

section Turns

variable {σ : Type} {fs : Files} {parse : String → String → σ → FalconDocument × σ}
  {recurse : String → FalconDocument → Progress σ → Resolution σ}
  {importingUri importPath : String} {doc doc' : FalconDocument} {s s' : Progress σ}

/-- What a turn that looks at the path comes upon. -/
inductive Turn (fs : Files) (parse : String → String → σ → FalconDocument × σ)
    (recurse : String → FalconDocument → Progress σ → Resolution σ)
    (importingUri importPath : String) (doc : FalconDocument) (s : Progress σ) :
    FalconDocument → Progress σ → Prop where
  | skipped : importPath ∈ s.resolvedPaths → Turn fs parse recurse importingUri importPath doc s doc s
  | missing : importPath ∉ s.resolvedPaths → resolvePath fs importingUri importPath = none →
    Turn fs parse recurse importingUri importPath doc s doc s
  | visited {file : String} : importPath ∉ s.resolvedPaths →
    resolvePath fs importingUri importPath = some file → file ∈ s.visited →
    Turn fs parse recurse importingUri importPath doc s doc (s.resolve importPath)
  | unreadable {file : String} : importPath ∉ s.resolvedPaths →
    resolvePath fs importingUri importPath = some file → file ∉ s.visited →
    fs.contents[file]? = none →
    Turn fs parse recurse importingUri importPath doc s doc (s.visit file)
  | parsed {file src : String} {child : FalconDocument} {s₁ : Progress σ} :
    importPath ∉ s.resolvedPaths → resolvePath fs importingUri importPath = some file →
    file ∉ s.visited → fs.contents[file]? = some src →
    recurse (fileUri file) (parse (fileUri file) src s.parser).1
      { s.visit file with parser := (parse (fileUri file) src s.parser).2 } = some (child, s₁) →
    Turn fs parse recurse importingUri importPath doc s (doc.merge child) (s₁.resolve importPath)

theorem turn_of_resolveImport
    (h : resolveImport fs parse recurse importingUri importPath doc s = some (doc', s')) :
    Turn fs parse recurse importingUri importPath doc s doc' s' := by
  unfold resolveImport at h
  by_cases hr : importPath ∈ s.resolvedPaths
  · rw [if_pos hr] at h
    cases h
    exact .skipped hr
  · rw [if_neg hr] at h
    cases hp : resolvePath fs importingUri importPath with
    | none =>
      simp only [hp] at h
      cases h
      exact .missing hr hp
    | some file =>
      simp only [hp] at h
      by_cases hv : file ∈ s.visited
      · rw [if_pos hv] at h
        cases h
        exact .visited hr hp hv
      · rw [if_neg hv] at h
        cases hc : fs.contents[file]? with
        | none =>
          simp only [hc] at h
          cases h
          exact .unreadable hr hp hv hc
        | some src =>
          simp only [hc] at h
          cases hrec : recurse (fileUri file) (parse (fileUri file) src s.parser).1
            { s.visit file with parser := (parse (fileUri file) src s.parser).2 } with
          | none =>
            simp only [fileUri] at hrec
            simp only [hrec] at h
            cases h
          | some result =>
            obtain ⟨child, s₁⟩ := result
            have hrec' := hrec
            simp only [fileUri] at hrec'
            simp only [hrec'] at h
            cases h
            exact .parsed hr hp hv hc hrec

theorem resolveImport_of_turn
    (h : Turn fs parse recurse importingUri importPath doc s doc' s') :
    resolveImport fs parse recurse importingUri importPath doc s = some (doc', s') := by
  unfold resolveImport
  cases h with
  | skipped hr => rw [if_pos hr]
  | missing hr hp => rw [if_neg hr, hp]
  | visited hr hp hv =>
    rw [if_neg hr, hp]
    simp only [if_pos hv]
  | unreadable hr hp hv hc =>
    rw [if_neg hr, hp]
    simp only [if_neg hv, hc]
  | parsed hr hp hv hc hrec =>
    rw [if_neg hr, hp]
    simp only [if_neg hv, hc]
    unfold fileUri at hrec
    simp only [hrec]

theorem resolveImports_cons {importPaths : List String}
    (h : resolveImports fs parse recurse importingUri (importPath :: importPaths) doc s =
      some (doc', s')) :
    ∃ doc₁ s₁, resolveImport fs parse recurse importingUri importPath doc s = some (doc₁, s₁) ∧
      resolveImports fs parse recurse importingUri importPaths doc₁ s₁ = some (doc', s') := by
  rw [resolveImports] at h
  cases hi : resolveImport fs parse recurse importingUri importPath doc s with
  | none =>
    simp only [hi] at h
    cases h
  | some result =>
    obtain ⟨doc₁, s₁⟩ := result
    simp only [hi] at h
    exact ⟨doc₁, s₁, rfl, h⟩

theorem resolveDocumentImpl_succ {n : Nat}
    (h : resolveDocumentImpl fs parse (n + 1) importingUri doc s = some (doc', s')) :
    ∃ s₁, resolveImports fs parse (resolveDocumentImpl fs parse n) importingUri doc.importPaths
        doc s = some (doc', s₁) ∧
      s' = resolveFFImports fs importingUri doc'.ffimportPaths s₁ := by
  rw [resolveDocumentImpl] at h
  cases hi : resolveImports fs parse (resolveDocumentImpl fs parse n) importingUri
    doc.importPaths doc s with
  | none =>
    simp only [hi] at h
    cases h
  | some result =>
    obtain ⟨doc₁, s₁⟩ := result
    simp only [hi] at h
    cases h
    exact ⟨s₁, rfl, rfl⟩

/-! ## Wrappers -/

@[simp] theorem visited_resolveFFImports (paths : List String) (s : Progress σ) :
    (resolveFFImports fs importingUri paths s).visited = s.visited := by
  induction paths generalizing s with
  | nil => rfl
  | cons path paths ih =>
    rw [resolveFFImports]
    split
    · exact ih _
    · exact ih _

@[simp] theorem parser_resolveFFImports (paths : List String) (s : Progress σ) :
    (resolveFFImports fs importingUri paths s).parser = s.parser := by
  induction paths generalizing s with
  | nil => rfl
  | cons path paths ih =>
    rw [resolveFFImports]
    split
    · exact ih _
    · exact ih _

/-- A wrapper counts as resolved when it exists. -/
theorem mem_resolveFFImports {path : String} (paths : List String) (s : Progress σ) :
    path ∈ (resolveFFImports fs importingUri paths s).resolvedPaths ↔
      path ∈ s.resolvedPaths ∨
        (path ∈ paths ∧ (resolvePath fs importingUri path).isSome = true) := by
  induction paths generalizing s with
  | nil => simp [resolveFFImports]
  | cons p paths ih =>
    rw [resolveFFImports]
    by_cases h : p ∉ s.resolvedPaths ∧ (resolvePath fs importingUri p).isSome = true
    · rw [if_pos h, ih]
      have hp : path ∈ (s.resolve p).resolvedPaths ↔ path = p ∨ path ∈ s.resolvedPaths :=
        Finset.mem_insert
      rw [hp, List.mem_cons]
      constructor
      · rintro ((rfl | hs) | hm)
        · exact .inr ⟨.inl rfl, h.2⟩
        · exact .inl hs
        · exact .inr ⟨.inr hm.1, hm.2⟩
      · rintro (hs | ⟨rfl | hm, hi⟩)
        · exact .inl (.inr hs)
        · exact .inl (.inl rfl)
        · exact .inr ⟨hm, hi⟩
    · rw [if_neg h, ih, List.mem_cons]
      constructor
      · rintro (hs | hm)
        · exact .inl hs
        · exact .inr ⟨.inr hm.1, hm.2⟩
      · rintro (hs | ⟨rfl | hm, hi⟩)
        · exact .inl hs
        · by_cases hc : path ∈ s.resolvedPaths
          · exact .inl hc
          · exact absurd ⟨hc, hi⟩ h
        · exact .inr ⟨hm, hi⟩

end Turns

/-! ## The loop ends -/

section Growth

variable {σ : Type} {fs : Files} {parse : String → String → σ → FalconDocument × σ}

/-- Visits are never taken back. -/
def Grows (recurse : String → FalconDocument → Progress σ → Resolution σ) : Prop :=
  ∀ {importingUri doc s doc' s'}, recurse importingUri doc s = some (doc', s') →
    s.visited ⊆ s'.visited

variable {recurse : String → FalconDocument → Progress σ → Resolution σ}
  {importingUri : String} {doc doc' : FalconDocument} {s s' : Progress σ}

theorem Turn.visited_subset (hg : Grows recurse) {importPath : String}
    (h : Turn fs parse recurse importingUri importPath doc s doc' s') :
    s.visited ⊆ s'.visited := by
  cases h with
  | skipped | missing => exact Finset.Subset.refl _
  | visited => exact Finset.Subset.refl _
  | unreadable => exact Finset.subset_insert _ _
  | parsed _ _ _ _ hrec => exact (Finset.subset_insert _ _).trans (hg hrec)

theorem resolveImports_grows (hg : Grows recurse) {importPaths : List String}
    (h : resolveImports fs parse recurse importingUri importPaths doc s = some (doc', s')) :
    s.visited ⊆ s'.visited := by
  induction importPaths generalizing doc s with
  | nil =>
    cases h
    exact Finset.Subset.refl _
  | cons importPath importPaths ih =>
    obtain ⟨doc₁, s₁, hi, hrest⟩ := resolveImports_cons h
    exact (Turn.visited_subset hg (turn_of_resolveImport hi)).trans (ih hrest)

theorem resolveDocumentImpl_grows (n : Nat) : Grows (resolveDocumentImpl fs parse n) := by
  induction n with
  | zero =>
    intro _ _ _ _ _ h
    cases h
  | succ n ih =>
    intro _ _ _ _ _ h
    obtain ⟨s₁, hi, rfl⟩ := resolveDocumentImpl_succ h
    rw [visited_resolveFFImports]
    exact resolveImports_grows ih hi

/-- The files that can be opened and have not been visited. -/
def unvisited (fs : Files) (s : Progress σ) : Finset String :=
  fs.contents.keyList.toFinset.filter (· ∉ s.visited)

theorem unvisited_subset (fs : Files) (h : s.visited ⊆ s'.visited) : unvisited fs s' ⊆ unvisited fs s :=
  Finset.monotone_filter_right _ fun _ _ hn hc => hn (h hc)

theorem unvisited_visit_lt {file src : String} (hv : file ∉ s.visited)
    (hc : fs.contents[file]? = some src) :
    (unvisited fs (s.visit file)).card < (unvisited fs s).card := by
  refine Finset.card_lt_card (Finset.ssubset_iff_subset_ne.mpr ⟨?_, ?_⟩)
  · exact unvisited_subset fs (Finset.subset_insert _ _)
  · intro he
    have hkey : file ∈ fs.contents.keyList := by
      rw [StdMap.mem_keyList, hc]
      rfl
    have hmem : file ∈ unvisited fs s :=
      Finset.mem_filter.mpr ⟨List.mem_toFinset.mpr hkey, hv⟩
    rw [← he] at hmem
    exact (Finset.mem_filter.mp hmem).2 (Finset.mem_insert_self _ _)

theorem resolveImports_total {k : Nat} (hg : Grows recurse)
    (hrec : ∀ importingUri doc s, (unvisited fs s).card < k →
      ∃ doc' s', recurse importingUri doc s = some (doc', s'))
    (importPaths : List String) (hs : (unvisited fs s).card ≤ k) :
    ∃ doc' s', resolveImports fs parse recurse importingUri importPaths doc s =
      some (doc', s') := by
  induction importPaths generalizing doc s with
  | nil => exact ⟨doc, s, rfl⟩
  | cons importPath importPaths ih =>
    have hi : ∃ doc₁ s₁, Turn fs parse recurse importingUri importPath doc s doc₁ s₁ := by
      by_cases hr : importPath ∈ s.resolvedPaths
      · exact ⟨_, _, .skipped hr⟩
      · cases hp : resolvePath fs importingUri importPath with
        | none => exact ⟨_, _, .missing hr hp⟩
        | some file =>
          by_cases hv : file ∈ s.visited
          · exact ⟨_, _, .visited hr hp hv⟩
          · cases hc : fs.contents[file]? with
            | none => exact ⟨_, _, .unreadable hr hp hv hc⟩
            | some src =>
              have hlt := unvisited_visit_lt hv hc
              obtain ⟨child, s₁, hchild⟩ := hrec (fileUri file)
                (parse (fileUri file) src s.parser).1
                { s.visit file with parser := (parse (fileUri file) src s.parser).2 }
                (hlt.trans_le hs)
              exact ⟨_, _, .parsed hr hp hv hc hchild⟩
    obtain ⟨doc₁, s₁, hturn⟩ := hi
    have hsub := Turn.visited_subset hg hturn
    obtain ⟨doc', s', hrest⟩ :=
      ih ((Finset.card_le_card (unvisited_subset fs hsub)).trans hs)
    refine ⟨doc', s', ?_⟩
    rw [resolveImports, resolveImport_of_turn hturn]
    exact hrest

/-- Enough fuel for the files that are left gives a result. -/
theorem resolveDocumentImpl_total (n : Nat) :
    ∀ importingUri doc (s : Progress σ), (unvisited fs s).card < n →
      ∃ doc' s', resolveDocumentImpl fs parse n importingUri doc s = some (doc', s') := by
  induction n with
  | zero => exact fun _ _ _ h => absurd h (Nat.not_lt_zero _)
  | succ n ih =>
    intro importingUri doc s hs
    obtain ⟨doc', s', h⟩ : ∃ doc' s', resolveImports fs parse (resolveDocumentImpl fs parse n)
        importingUri doc.importPaths doc s = some (doc', s') :=
      resolveImports_total (resolveDocumentImpl_grows n) ih doc.importPaths
        (Nat.lt_succ_iff.mp hs)
    refine ⟨doc', resolveFFImports fs importingUri doc'.ffimportPaths s', ?_⟩
    rw [resolveDocumentImpl, h]

theorem resolveDocument_total (importingUri : String) (doc : FalconDocument)
    (resolvedPaths : Finset String) (parser : σ) :
    ∃ doc' s', resolveDocument fs parse importingUri doc resolvedPaths parser =
      some (doc', s') := by
  refine resolveDocumentImpl_total (depth fs) _ _ _ (Nat.lt_succ_of_le ?_)
  refine (Finset.card_filter_le _ _).trans ?_
  exact List.toFinset_card_le _

end Growth

end FalconLib.Lsp
