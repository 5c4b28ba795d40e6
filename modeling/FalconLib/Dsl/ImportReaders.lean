import FalconLib.Dsl.ImportScanner
import FalconLib.Parser.Imports

/-!
# The scanner and the parser, line by line

The scanner of `extract_imports_from_file` returns the paths of the parsed program as long as
the parser reads on every line what the scanner takes from it.
-/

namespace FalconLib.Dsl.ImportReaders

open ImportScanner Parser.Imports

/-! ## One line -/

/-- The line has at most one path, and no quotes but those of its path; without a path it can
have one quote. -/
def onePath (line : List Char) (paths : List (List Char)) : Bool :=
  paths.length = 0 && line.count '"' ≤ 1 || paths.length = 1 && line.count '"' = 2

theorem quoted_cases (line : List Char) :
    (quoted line = [] ∧ line.count '"' ≤ 1) ∨
    ∃ before value after, line = before ++ '"' :: (value ++ '"' :: after) ∧ '"' ∉ before ∧
      '"' ∉ after ∧ quoted line = [value] := by
  by_cases hfirst : '"' ∈ line
  · obtain ⟨before, rest, rfl, hbefore⟩ := List.eq_append_cons_of_mem hfirst
    have hrest : ((before ++ '"' :: rest).dropWhile (· ≠ '"')).drop 1 = rest := by
      rw [dropWhile_ne hbefore]
      rfl
    by_cases hlast : '"' ∈ rest
    · right
      obtain ⟨after, value, hreverse, hafter⟩ :=
        List.eq_append_cons_of_mem (List.mem_reverse.mpr hlast)
      have hsplit : rest = value.reverse ++ '"' :: after.reverse := by
        rw [← List.reverse_reverse rest, hreverse]
        simp
      refine ⟨before, value.reverse, after.reverse, by rw [hsplit], hbefore, ?_, ?_⟩
      · rwa [List.mem_reverse]
      · simp only [quoted, hrest, hlast, if_true, hreverse, dropWhile_ne hafter]
        rfl
    · left
      constructor
      · simp only [quoted, hrest, hlast, if_false]
      · simp [List.count_eq_zero_of_not_mem hbefore, List.count_eq_zero_of_not_mem hlast]
  · left
    constructor
    · have hnone : '"' ∉ (line.dropWhile (· ≠ '"')).drop 1 := by
        intro hmem
        exact hfirst ((List.dropWhile_sublist _).mem (List.mem_of_mem_drop hmem))
      simp only [quoted, hnone, if_false]
    · rw [List.count_eq_zero_of_not_mem hfirst]
      exact Nat.zero_le 1

theorem append_quote_inj {before before' after after' : List Char} (hbefore : '"' ∉ before)
    (hbefore' : '"' ∉ before') (h : before ++ '"' :: after = before' ++ '"' :: after') :
    before = before' ∧ after = after' := by
  have htake := congrArg (List.takeWhile (· ≠ '"')) h
  rw [takeWhile_ne hbefore, takeWhile_ne hbefore'] at htake
  have hdrop := congrArg (List.dropWhile (· ≠ '"')) h
  rw [dropWhile_ne hbefore, dropWhile_ne hbefore'] at hdrop
  exact ⟨htake, List.tail_eq_of_cons_eq hdrop⟩

/-- The scanner takes from a line what the lexer finds in it exactly if the line has one path. -/
theorem quoted_eq_iff {line : List Char} {paths : List (List Char)}
    (hpaths : ∀ path ∈ paths, .string path ∈ lex line) :
    quoted line = paths ↔ onePath line paths := by
  have hone : onePath line paths ↔ (paths.length = 0 ∧ line.count '"' ≤ 1) ∨
      (paths.length = 1 ∧ line.count '"' = 2) := by
    simp [onePath]
  rw [hone]
  rcases quoted_cases line with ⟨hquoted, hcount⟩ | ⟨before, value, after, hline, hbefore, hafter, hquoted⟩
  · rw [hquoted]
    constructor
    · rintro rfl
      exact .inl ⟨rfl, hcount⟩
    · rintro (⟨hlength, -⟩ | ⟨-, htwo⟩)
      · exact (List.eq_nil_of_length_eq_zero hlength).symm
      · omega
  · have hcount : line.count '"' = value.count '"' + 2 := by
      rw [hline]
      simp [List.count_eq_zero_of_not_mem hbefore, List.count_eq_zero_of_not_mem hafter]
    rw [hquoted]
    constructor
    · rintro rfl
      obtain ⟨hvalue, -⟩ := string_mem_lex (hpaths value List.mem_cons_self)
      right
      rw [hcount, List.count_eq_zero_of_not_mem hvalue]
      exact ⟨rfl, rfl⟩
    · rintro (⟨-, hfew⟩ | ⟨hlength, htwo⟩)
      · omega
      · obtain ⟨path, rfl⟩ := List.length_eq_one_iff.mp hlength
        obtain ⟨hpath, first, last, hfound⟩ := string_mem_lex (hpaths path List.mem_cons_self)
        have hvalue : '"' ∉ value := by
          rw [← List.count_eq_zero]
          omega
        have hfirst : '"' ∉ first := by
          rw [← List.count_eq_zero]
          rw [hfound] at htwo
          simp at htwo
          omega
        rw [hfound] at hline
        obtain ⟨-, hrest⟩ := append_quote_inj hfirst hbefore hline
        obtain ⟨rfl, -⟩ := append_quote_inj hpath hvalue hrest
        rfl

theorem lex_trimmed (line : List Char) : lex (line.dropWhile isBlank) = lex line := by
  induction line with
  | nil => rfl
  | cons c line ih =>
      cases hblank : isBlank c with
      | false => rw [List.dropWhile_cons_of_neg (by simp [hblank])]
      | true =>
          rw [List.dropWhile_cons_of_pos hblank, ih]
          have hnext : next (c :: line) = some (none, line) := by
            simp only [isBlank, Bool.or_eq_true, beq_iff_eq] at hblank
            obtain (rfl | rfl) | rfl := hblank <;> rfl
          rw [lex_of_next hnext]
          rfl

/-! ## Whole texts -/

/-- A text whose paths have no line break is read line by line. -/
theorem run_lines {lines : List (List Char)} {state last : State} {paths : List (List Char)}
    (hrun : run state (lex (['\n'].intercalate lines)) = some (last, paths))
    (hpaths : ∀ path ∈ paths, '\n' ∉ path) :
    run state (lines.flatMap lex) = some (last, paths) := by
  induction lines generalizing state paths with
  | nil => exact hrun
  | cons line lines ih =>
      cases lines with
      | nil =>
          rw [List.intercalate_singleton] at hrun
          rw [List.flatMap_singleton]
          exact hrun
      | cons second lines =>
          rw [List.intercalate_cons_cons, List.append_assoc, List.singleton_append] at hrun
          rw [List.flatMap_cons]
          rcases lex_line line (['\n'].intercalate (second :: lines)) with
            hlex | ⟨before, value, after, rest, hbefore, hvalue, hlex⟩
          · rw [hlex] at hrun
            obtain ⟨middle, first, later, hline, htail, rfl⟩ := run_append.mp hrun
            have hlater := ih htail fun path hpath => hpaths path (List.mem_append_right _ hpath)
            exact run_append.mpr ⟨middle, first, later, hline, hlater, rfl⟩
          · rw [hlex] at hrun
            obtain ⟨middle, first, later, hfirst, htail, rfl⟩ := run_append.mp hrun
            obtain ⟨next, found, more, hstep, hmore, rfl⟩ := run_cons.mp htail
            rcases step_cases hstep with ⟨rfl, rfl, rfl⟩ | ⟨path, hpath, rfl⟩ | ⟨-, hpath⟩
            · rw [run_items] at hmore
              cases hmore
              rw [hbefore, List.append_assoc]
              exact run_append.mpr ⟨.items, first, [], hfirst, run_items _, rfl⟩
            · cases hpath
              exact absurd hvalue (hpaths value (by simp))
            · exact absurd rfl (hpath value)

/-- On every line up to the one that ends the scan, the parser reads from the line what the
scanner takes; the flag is that of the scanner, and no path follows the line that ends it. -/
def inStep : Bool → State → List (List Char) → Bool
  | _, _, [] => true
  | inImportBlock, state, line :: lines =>
    match run state (lex line) with
    | none => false
    | some (next, paths) =>
      let trimmed := line.dropWhile isBlank
      if trimmed.isEmpty then inStep inImportBlock next lines
      else if importWord.isPrefixOf trimmed then
        onePath trimmed paths && inStep (inImportBlock || '(' ∈ trimmed) next lines
      else if inImportBlock then
        if ')' ∈ trimmed then paths.isEmpty && inStep false next lines
        else onePath trimmed paths && inStep true next lines
      else if trimmed.head? = some '/' || trimmed.head? = some '#' then
        paths.isEmpty && inStep false next lines
      else (run state ((line :: lines).flatMap lex)).all (·.2.isEmpty)

theorem scan_of_inStep {inImportBlock : Bool} {lines : List (List Char)} {state last : State}
    {paths : List (List Char)} (hrun : run state (lines.flatMap lex) = some (last, paths))
    (h : inStep inImportBlock state lines) : scan inImportBlock lines = paths := by
  induction lines generalizing inImportBlock state paths with
  | nil =>
      cases hrun
      rfl
  | cons line lines ih =>
      have hwhole := hrun
      rw [List.flatMap_cons] at hrun
      obtain ⟨next, before, after, hline, hlines, rfl⟩ := run_append.mp hrun
      have hfound : ∀ path ∈ before, .string path ∈ lex (line.dropWhile isBlank) := by
        intro path hpath
        rw [lex_trimmed]
        exact string_mem_of_run hline hpath
      unfold inStep at h
      rw [hline] at h
      unfold scan
      simp only at h ⊢
      split_ifs at h ⊢ with hblank himport hblock hclose hcomment
      · have hnone : run state (lex line) = some (state, []) := by
          rw [← lex_trimmed, List.isEmpty_iff.mp hblank]
          rfl
        cases hnone.symm.trans hline
        exact ih hlines h
      · obtain ⟨hone, h⟩ := Bool.and_eq_true_iff.mp h
        rw [(quoted_eq_iff hfound).mpr hone, ih hlines h]
      · obtain ⟨hnone, h⟩ := Bool.and_eq_true_iff.mp h
        rw [List.isEmpty_iff.mp hnone, ih hlines h]
        rfl
      · obtain ⟨hone, h⟩ := Bool.and_eq_true_iff.mp h
        rw [(quoted_eq_iff hfound).mpr hone, ih hlines h]
      · obtain ⟨hnone, h⟩ := Bool.and_eq_true_iff.mp h
        rw [List.isEmpty_iff.mp hnone, ih hlines h]
        rfl
      · rw [hwhole] at h
        exact (List.isEmpty_iff.mp h).symm

theorem not_mem_of_mem_lines {text line : List Char} (h : line ∈ lines text) : '\n' ∉ line := by
  unfold lines at h
  induction text generalizing line with
  | nil =>
      rw [List.splitOn_nil, List.mem_singleton] at h
      rw [h]
      exact List.not_mem_nil
  | cons c text ih =>
      rw [List.splitOn_cons_eq_if_modifyHead] at h
      split_ifs at h with hbreak
      · rcases List.mem_cons.mp h with rfl | hrest
        · exact List.not_mem_nil
        · exact ih hrest
      · obtain ⟨first, rest, hsplit⟩ := List.exists_cons_of_ne_nil (List.splitOn_ne_nil '\n' text)
        rw [hsplit, List.modifyHead_cons] at h
        rcases List.mem_cons.mp h with rfl | hrest
        · have hfirst : '\n' ∉ first := ih (by simp [hsplit])
          have hc : '\n' ≠ c := fun hc => hbreak (beq_iff_eq.mpr hc.symm)
          simp [hc, hfirst]
        · exact ih (by simp [hsplit, hrest])

theorem subset_of_mem_quoted {line value : List Char} (h : value ∈ quoted (line.dropWhile isBlank)) :
    value ⊆ line := by
  rcases quoted_cases (line.dropWhile isBlank) with
    ⟨hquoted, -⟩ | ⟨before, found, after, hline, -, -, hquoted⟩
  · rw [hquoted] at h
    exact absurd h List.not_mem_nil
  · rw [hquoted, List.mem_singleton] at h
    intro c hc
    refine (List.dropWhile_sublist isBlank).mem ?_
    rw [hline, ← h]
    simp [hc]

/-- What the scanner returns stands on one line. -/
theorem subset_of_mem_scan {inImportBlock : Bool} {lines : List (List Char)} {value : List Char}
    (h : value ∈ scan inImportBlock lines) : ∃ line ∈ lines, value ⊆ line := by
  induction lines generalizing inImportBlock with
  | nil => exact absurd h List.not_mem_nil
  | cons line lines ih =>
      have hlater {flag : Bool} (h : value ∈ scan flag lines) :
          ∃ found ∈ line :: lines, value ⊆ found := by
        obtain ⟨found, hfound, hvalue⟩ := ih h
        exact ⟨found, List.mem_cons_of_mem _ hfound, hvalue⟩
      have hhere (h : value ∈ quoted (line.dropWhile isBlank)) :
          ∃ found ∈ line :: lines, value ⊆ found :=
        ⟨line, List.mem_cons_self, subset_of_mem_quoted h⟩
      unfold scan at h
      simp only at h
      split_ifs at h with hblank himport hblock hclose hcomment
      · exact hlater h
      · exact (List.mem_append.mp h).elim hhere hlater
      · exact hlater h
      · exact (List.mem_append.mp h).elim hhere hlater
      · exact hlater h
      · exact absurd h List.not_mem_nil

/-- The two readers of the imports agree on every accepted text that is in step; they disagree on
every text with a path that has a line break. -/
theorem extractImportsFromFile_eq (text : String) (paths : List (List Char))
    (haccepted : importPaths text.toList = some paths) :
    ((∀ path ∈ paths, '\n' ∉ path) ∧ inStep false .top (lines text.toList) →
      extractImportsFromFile text = paths.map String.ofList) ∧
    (extractImportsFromFile text = paths.map String.ofList → ∀ path ∈ paths, '\n' ∉ path) := by
  constructor
  · rintro ⟨hpaths, hstep⟩
    obtain ⟨last, hrun⟩ : ∃ last, run .top (lex text.toList) = some (last, paths) := by
      unfold importPaths pathsFrom at haccepted
      split at haccepted
      · split_ifs at haccepted
        cases haccepted
        exact ⟨_, ‹_›⟩
      · cases haccepted
    have hlines : run .top ((lines text.toList).flatMap lex) = some (last, paths) := by
      refine run_lines ?_ hpaths
      rwa [lines, List.intercalate_splitOn]
    rw [extractImportsFromFile, scan_of_inStep hlines hstep]
  · intro hagree path hpath hbreak
    have hscan := List.map_injective_iff.mpr (fun _ _ => String.ofList_injective) hagree
    rw [← hscan] at hpath
    obtain ⟨line, hline, hsubset⟩ := subset_of_mem_scan hpath
    exact not_mem_of_mem_lines hline (hsubset hbreak)

/-- A text with a comment, a single import and a group over several lines. -/
theorem extractImportsFromFile_eq_group :
    let text := "// setup\nimport \"a\";\n\nimport (\n  \"b\" // base\n  \"c\"\n)\nstruct S"
    extractImportsFromFile text = ["a", "b", "c"] :=
  (extractImportsFromFile_eq _ [['a'], ['b'], ['c']] (by decide)).1 (by decide)

/-- Of two imports on one line the scanner makes a path that neither has. -/
theorem not_extractImportsFromFile_eq_line :
    ∃ text paths, importPaths text.toList = some paths ∧
      extractImportsFromFile text ≠ paths.map String.ofList :=
  ⟨"import \"a\"; import \"b\";", [['a'], ['b']], by decide, by decide⟩

end FalconLib.Dsl.ImportReaders
