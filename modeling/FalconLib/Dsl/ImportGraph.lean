import FalconLib.Base.DepthFirst
import FalconLib.Dsl.Loader

/-!
# Loading over the import graph

A load is a depth-first visit of the import graph that marks a file when it leaves it.
It comes back, with every file loaded once and after its imports, exactly when it does
not come to a file that it is still inside.
-/

namespace FalconLib.Dsl.ImportGraph

open FalconLib.Base
open FalconLib.Base.DepthFirst
open FalconLib.PackageManager (FileSystem ResolvedImport PackageResolver.Resolved stem)
open Loader

/-- The paths that a file imports, if it is there and all of its imports are. -/
def importedPaths (src : Sources) (path : String) : Option (List String) :=
  if src.fileExists path then
    match src.files[path]? with
    | none => none
    | some file =>
      match resolvedImports src path file with
      | .error _ => none
      | .ok imports => some (imports.map ResolvedImport.absolutePath)
  else none

def importGraph (src : Sources) : Graph String where
  next := importedPaths src
  nodes := src.files.keyList.toFinset
  mem_nodes := by
    intro path imports h
    rw [List.mem_toFinset, StdMap.mem_keyList]
    unfold importedPaths at h
    split at h
    · split at h
      · cases h
      · rename_i hfile
        rw [hfile]
        rfl
    · cases h

theorem loadedPaths_injectHints (absolutePath moduleName : String) (s : Loader) :
    (injectHints absolutePath moduleName s).loadedPaths = s.loadedPaths := by
  unfold injectHints
  split <;> rfl

theorem loadedPaths_loadOwn {src : Sources} {absPath : String} {file : FalFile} {s s' : Loader}
    (h : loadOwn src absPath file s = (s', true)) :
    s'.loadedPaths = insert absPath s.loadedPaths := by
  unfold loadOwn at h
  dsimp only at h
  split at h
  · cases h
  · split at h
    · cases h
      rfl
    · cases h

theorem loadedPaths_loadOwn_failed {src : Sources} {absPath : String} {file : FalFile}
    {s s' : Loader} (h : loadOwn src absPath file s = (s', false)) :
    s'.loadedPaths = s.loadedPaths := by
  unfold loadOwn at h
  dsimp only at h
  split at h
  · cases h
    rfl
  · split at h
    · cases h
    · cases h
      rfl

/-- A load as a visitor of the files. -/
def loading (src : Sources) : Visitor String Loader where
  leave path s :=
    match src.files[path]? with
    | some file => loadOwn src path file s
    | none => (s, false)
  back path s := injectHints path (stem path) s
  marks := Loader.loadedPaths
  marks_back := fun path s => loadedPaths_injectHints path (stem path) s
  marks_leave := by
    intro path s s' h
    split at h
    · exact loadedPaths_loadOwn h
    · cases h
  marks_failed := by
    intro path s s' h
    split at h
    · exact loadedPaths_loadOwn_failed h
    · cases h
      rfl

section Visits

variable {src : Sources}

theorem loadImports_eq (load : Loader → String → Option (Loader × Bool))
    (visit : String → Loader → Option (Loader × Bool)) {imports : List ResolvedImport}
    (hr : ∀ r ∈ imports, PackageResolver.Resolved src.toFileQueries r)
    (h : ∀ r ∈ imports, ∀ s, load s r.absolutePath = visit r.absolutePath s) (s : Loader) :
    loadImports load imports s =
      (loading src).visitAll visit (imports.map ResolvedImport.absolutePath) s := by
  induction imports generalizing s with
  | nil => rfl
  | cons imported imports ih =>
    have hname := (hr imported List.mem_cons_self).moduleName
    have hrest := ih (fun r hm => hr r (List.mem_cons_of_mem _ hm))
      fun r hm => h r (List.mem_cons_of_mem _ hm)
    rw [loadImports, List.map_cons, Visitor.visitAll, hname,
      h imported List.mem_cons_self]
    by_cases hm : imported.absolutePath ∈ s.loadedPaths
    · rw [if_pos hm, if_pos (show imported.absolutePath ∈ (loading src).marks s from hm)]
      exact hrest _
    · rw [if_neg hm, if_neg (show imported.absolutePath ∉ (loading src).marks s from hm)]
      cases visit imported.absolutePath s with
      | none => rfl
      | some result =>
        obtain ⟨s', ok⟩ := result
        cases ok with
        | true => exact hrest _
        | false => rfl

theorem leave_eq {path : String} {file : FalFile} (h : src.files[path]? = some file)
    (s : Loader) : (loading src).leave path s = loadOwn src path file s := by
  unfold loading
  dsimp only
  rw [h]

/-- Different spellings of a path are one node of the graph. -/
theorem loadFalFile_eq (fuel : Nat) (s : Loader) (falFilePath : String) :
    loadFalFile src fuel s falFilePath =
      (loading src).visit (importGraph src) fuel (src.weaklyCanonical falFilePath) s := by
  induction fuel generalizing s falFilePath with
  | zero => rfl
  | succ fuel ih =>
    have hnext : (importGraph src).next = importedPaths src := rfl
    rw [loadFalFile, Visitor.visit, hnext]
    unfold importedPaths
    rw [src.exists_canonical]
    by_cases hexists : src.fileExists falFilePath = true
    · rw [if_pos hexists, if_pos hexists]
      dsimp only
      cases hfile : src.files[src.weaklyCanonical falFilePath]? with
      | none => rfl
      | some file =>
        dsimp only
        cases hres : resolvedImports src (src.weaklyCanonical falFilePath) file with
        | error e => rfl
        | ok imports =>
          have hr : ∀ r ∈ imports, PackageResolver.Resolved src.toFileQueries r := by
            unfold resolvedImports at hres
            cases hroot : src.projectRoot (src.weaklyCanonical falFilePath) with
            | error e =>
              rw [hroot] at hres
              cases hres
            | ok root =>
              rw [hroot] at hres
              exact FalconLib.PackageManager.PackageResolver.resolveAll_ok hres
          have himports := loadImports_eq (loadFalFile src fuel)
            ((loading src).visit (importGraph src) fuel) hr (fun r hm s => by
              rw [ih, (hr r hm).canonical]) s
          dsimp only
          rw [himports]
          cases (loading src).visitAll ((loading src).visit (importGraph src) fuel)
              (imports.map ResolvedImport.absolutePath) s with
          | none => rfl
          | some result =>
            obtain ⟨s', ok⟩ := result
            cases ok with
            | false => rfl
            | true => exact congrArg some (leave_eq hfile s').symm
    · rw [if_neg hexists, if_neg hexists]

/-- The walk of a load. -/
def walk (src : Sources) (s : Loader) (falFilePath : String) : Walk String :=
  explore (importGraph src) [] (src.weaklyCanonical falFilePath) s.loadedPaths

/-- A call comes back with what its walk leads to, or not at all. -/
theorem returns_iff {s s' : Loader} {falFilePath : String} {ok : Bool} :
    Returns src s falFilePath s' ok ↔
      (loading src).result (walk src s falFilePath) s = some (s', ok) := by
  have hvisit := visit_computes (v := loading src) (G := importGraph src) []
    (src.weaklyCanonical falFilePath) s fun a ha => absurd ha List.not_mem_nil
  unfold Returns
  simp only [loadFalFile_eq]
  constructor
  · rintro ⟨fuel, h⟩
    exact hvisit.sound fuel _ h
  · intro h
    obtain ⟨fuel, hfuel⟩ := hvisit.complete _ h
    exact ⟨fuel, hfuel fuel le_rfl⟩

/-- Between calls, a loaded file has all its imports loaded. -/
theorem closed_of_reached {s : Loader} (h : Reached src s) :
    Closed (importGraph src) s.loadedPaths := by
  induction h with
  | create tables => exact fun x hx => absurd hx (Finset.notMem_empty x)
  | other engine tables _ ih => exact ih
  | @load s s' falFilePath ok _ hr ih =>
    have hrun : Closed (importGraph src)
        ((loading src).run (walk src s falFilePath).steps s).1.loadedPaths :=
      closed_run (v := loading src) ih (ready_explore [] _ s.loadedPaths)
    rwa [run_of_result (returns_iff.mp hr)] at hrun

theorem loadedPrograms_loadOwn {absPath : String} {file : FalFile} {s s' : Loader}
    (h : loadOwn src absPath file s = (s', true)) :
    ∃ load, s'.loadedPrograms = s.loadedPrograms ++ [(absPath, load)] := by
  unfold loadOwn at h
  dsimp only at h
  split at h
  · cases h
  · split at h
    · cases h
      exact ⟨_, rfl⟩
    · cases h

/-- The paths of the loads that succeeded. -/
def loadOrder (s : Loader) : List String := s.loadedPrograms.map Prod.fst

theorem loadOrder_run {steps : List (Step String)} {s s' : Loader}
    (h : (loading src).run steps s = (s', true)) :
    loadOrder s' = loadOrder s ++ left steps := by
  induction steps generalizing s with
  | nil =>
    cases h
    exact (List.append_nil _).symm
  | cons step steps ih =>
    cases step with
    | back path =>
      have hback : loadOrder (injectHints path (stem path) s) = loadOrder s := by
        unfold injectHints
        split <;> rfl
      rw [ih h]
      exact congrArg (· ++ left steps) hback
    | leave path =>
      rw [Visitor.run] at h
      rcases hl : (loading src).leave path s with ⟨t, ok⟩
      rw [hl] at h
      cases ok with
      | false => cases h
      | true =>
        cases hfile : src.files[path]? with
        | none =>
          unfold loading at hl
          dsimp only at hl
          rw [hfile] at hl
          cases hl
        | some file =>
          rw [leave_eq hfile] at hl
          obtain ⟨load, hload⟩ := loadedPrograms_loadOwn hl
          rw [ih h]
          unfold loadOrder
          rw [hload, List.map_append, List.append_assoc]
          rfl

end Visits

/-! ## What a load should do -/

def Imports (src : Sources) (path imported : String) : Prop :=
  Edge (importGraph src) path imported

/-- A call loaded its file and everything it imports, directly or not, that was not loaded
before: each once, and each after its imports. -/
def LoadedInOrder (src : Sources) (s s' : Loader) (path : String) : Prop :=
  ∃ order, loadOrder s' = loadOrder s ++ order ∧ order.Nodup ∧
    (∀ p, p ∈ order ↔ p = path ∨ Relation.ReflTransGen (Imports src) path p ∧ p ∉ s.loadedPaths) ∧
    ∀ before p after, order = before ++ p :: after →
      ∀ imported, Imports src p imported → imported ∈ s.loadedPaths ∨ imported ∈ before

def Loads (src : Sources) (s : Loader) (falFilePath : String) : Prop :=
  ∃ s' ok, Returns src s falFilePath s' ok ∧
    (ok = true → LoadedInOrder src s s' (src.weaklyCanonical falFilePath))

/-- The walk over the imports comes to a file that it is still inside, and each file that
it leaves before is loaded. -/
def MeetsCycle (src : Sources) (s : Loader) (falFilePath : String) : Prop :=
  (walk src s falFilePath).ending = .cycle ∧
    ((loading src).run (walk src s falFilePath).steps s).2 = true

section Loads

variable {src : Sources} {s : Loader} {falFilePath : String}

theorem loadedInOrder {s' : Loader} (h : Reached src s)
    (hr : Returns src s falFilePath s' true) :
    LoadedInOrder src s s' (src.weaklyCanonical falFilePath) := by
  obtain ⟨hcomplete, hrun⟩ := result_eq_true (returns_iff.mp hr)
  obtain ⟨imports, order, hn, hleft, hself, horder⟩ := order_explore [] _ _ hcomplete
  have hready := ready_explore (G := importGraph src) [] (src.weaklyCanonical falFilePath)
    s.loadedPaths
  rw [hleft] at hready
  refine ⟨order ++ [src.weaklyCanonical falFilePath], ?_, ?_, fun p => ?_, ?_⟩
  · rw [loadOrder_run hrun, ← hleft]
    rfl
  · refine List.nodup_append.mpr ⟨horder.nodup, List.nodup_singleton _, ?_⟩
    intro x hx y hy he
    exact hself (List.mem_singleton.mp hy ▸ he ▸ hx)
  · rw [List.mem_append, List.mem_singleton]
    constructor
    · rintro (hp | hp)
      · obtain ⟨q, hq, hqp⟩ := horder.reached p hp
        exact .inr ⟨.head ⟨imports, hn, hq⟩ hqp, horder.fresh p hp⟩
      · exact .inl hp
    · rintro (hp | ⟨hp, hloaded⟩)
      · exact .inr hp
      · rcases horder.mem_of_reaches hn (closed_of_reached h) hp with hp | hp | hp
        · exact .inr hp
        · exact absurd hp hloaded
        · exact .inl hp
  · intro before p after he imported hi
    rw [he] at hready
    exact hready.before hi

end Loads

/-! ## A file that imports itself -/

/-- The directory `/` with a single file. -/
def directory (file : FalFile) : Sources where
  fileExists path := path = "/main.fal" || path = "/./main.fal"
  weaklyCanonical path := if path = "/./main.fal" then "/main.fal" else path
  projectRoot _ := .ok "/"
  store _ := .ok ()
  files := StdMap.assign ∅ "/main.fal" file
  linker _ _ := none
  canonical_canonical := by
    intro path
    by_cases h : path = "/./main.fal"
    · rw [if_pos h]
      rfl
    · rw [if_neg h, if_neg h]
  exists_canonical := by
    intro path
    by_cases h : path = "/./main.fal"
    · rw [if_pos h, h]
      rfl
    · rw [if_neg h]

def empty : FalFile where
  text := ""
  derivation := {}

/-- It imports itself. -/
def selfImporting : FalFile where
  text := "import \"./main.fal\";\n"
  derivation := { imports := ["./main.fal"] }

end FalconLib.Dsl.ImportGraph
