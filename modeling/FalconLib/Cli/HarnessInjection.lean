import Mathlib.Data.List.Sort
import FalconLib.Cli.SuiteBlocks

/-!
# The text after injection

The blocks are taken from the last one to the first, so that no offset shifts.
-/

namespace FalconLib.Cli.HarnessInjection

open FalconLib.Parser.Lexer
open FalconLib.Parser.Spelling
open Discovery (analyseSuiteBody)
open Injection
open SuiteBlocks
open TestMain (SuiteInfo)

/-! ## What the text is to be -/

def suite (a : AutotunerText) : SuiteInfo := analyseSuiteBody a.name (render a.inner)

/-- The generated text of a suite that has a registered test. -/
def harness (a : AutotunerText) : List Char :=
  if a.IsSuite ∧ (suite a).testNames ≠ [] then (generateHarnessStates (suite a)).toList else []

/-- The harness stands before the closing brace, and the rest is as it was. -/
def injected : Item → List Char
  | .other xs => render xs
  | .autotuner a =>
    render a.opening ++ '{' :: (render a.inner ++ (harness a ++ ['}']))

def Injects (sort : BlockSort) (items : List Item) (src : List Char) : Prop :=
  (transformSource sort src).1 = items.flatMap injected

/-! ## The order of the blocks -/

theorem render_lexemes (a : AutotunerText) : render a.lexemes =
    render a.opening ++ '{' :: (render a.inner ++ ['}']) := by
  simp [AutotunerText.lexemes, AutotunerText.rest, Lexeme.text]

theorem closeBrace_lt (a : AutotunerText) (start : Nat) :
    (a.block start).closeBrace < start + (render a.lexemes).length := by
  rw [render_lexemes]
  simp [AutotunerText.block]
  omega

theorem mem_blocks {item : Item} {start : Nat} {block : AutotunerBlock}
    (h : block ∈ item.blocks start) : ∃ a, item = .autotuner a ∧ block = a.block start := by
  cases item with
  | other xs => cases h
  | autotuner a =>
    change block ∈ (if a.IsSuite then [a.block start] else []) at h
    split_ifs at h with hsuite
    · exact ⟨a, rfl, List.mem_singleton.mp h⟩
    · cases h

theorem start_lt_closeBrace {items : List Item} {start : Nat} {block : AutotunerBlock}
    (h : block ∈ blocksOf start items) : start < block.closeBrace := by
  induction items generalizing start with
  | nil => cases h
  | cons item items ih =>
    rcases List.mem_append.mp h with h | h
    · obtain ⟨a, -, rfl⟩ := mem_blocks h
      change start < start + (render a.opening).length + 1 + (render a.inner).length
      omega
    · exact Nat.lt_of_le_of_lt (Nat.le_add_right _ _) (ih h)

theorem blocksOf_sorted (start : Nat) (items : List Item) :
    (blocksOf start items).Pairwise fun a b => a.closeBrace < b.closeBrace := by
  induction items generalizing start with
  | nil => exact List.Pairwise.nil
  | cons item items ih =>
    refine List.pairwise_append.mpr ⟨?_, ih _, ?_⟩
    · cases item with
      | other xs => exact List.Pairwise.nil
      | autotuner a =>
        change (if a.IsSuite then [a.block start] else []).Pairwise _
        split_ifs
        · exact List.pairwise_singleton _ _
        · exact List.Pairwise.nil
    · intro first hfirst second hsecond
      obtain ⟨a, rfl, rfl⟩ := mem_blocks hfirst
      exact Nat.lt_trans (closeBrace_lt a start) (start_lt_closeBrace hsecond)

/-- Sorting turns the order around. -/
theorem run_eq_reverse (sort : BlockSort) {blocks : List AutotunerBlock}
    (h : blocks.Pairwise fun a b => a.closeBrace < b.closeBrace) :
    sort.run blocks = blocks.reverse := by
  have hnodup : (blocks.map AutotunerBlock.closeBrace).Nodup :=
    List.pairwise_map.mpr (h.imp fun hlt => Nat.ne_of_lt hlt)
  have hperm : (sort.run blocks).Perm blocks := sort.perm blocks
  have hanti : ∀ a b, a ∈ sort.run blocks → b ∈ blocks.reverse →
      b.closeBrace ≤ a.closeBrace → a.closeBrace ≤ b.closeBrace → a = b := by
    intro a b ha hb hba hab
    exact List.inj_on_of_nodup_map hnodup (hperm.mem_iff.mp ha) (List.mem_reverse.mp hb)
      (Nat.le_antisymm hab hba)
  exact List.Perm.eq_of_pairwise hanti (sort.sorted blocks)
    (List.pairwise_reverse.mpr (h.imp Nat.le_of_lt)) (hperm.trans blocks.reverse_perm.symm)

/-! ## One insertion -/

/-- The generated text, if a test is registered. -/
def generated (suite : SuiteInfo) : List Char :=
  if suite.testNames = [] then [] else (generateHarnessStates suite).toList

theorem inject_at (name : String) (before body after : List Char) (suites : List SuiteInfo) :
    (inject (before ++ '{' :: (body ++ '}' :: after), suites)
      ⟨name, before.length, before.length + 1 + body.length⟩).1 =
      before ++ '{' :: (body ++ (generated (analyseSuiteBody name body) ++ '}' :: after)) := by
  have hsplit : before ++ '{' :: (body ++ '}' :: after) =
      (before ++ '{' :: body) ++ '}' :: after := by simp
  have hlength : before.length + 1 + body.length = (before ++ '{' :: body).length := by
    simp
    omega
  have hopen : before ++ '{' :: (body ++ '}' :: after) =
      (before ++ ['{']) ++ (body ++ '}' :: after) := by simp
  have hstart : before.length + 1 = (before ++ ['{']).length := by simp
  have hbody : ((before ++ '{' :: (body ++ '}' :: after)).drop (before.length + 1)).take
      (before.length + 1 + body.length - before.length - 1) = body := by
    have hcount : before.length + 1 + body.length - before.length - 1 = body.length := by omega
    rw [hcount, hopen, hstart, List.drop_left, List.take_left]
  unfold inject generated
  dsimp only
  rw [hbody]
  by_cases hnone : (analyseSuiteBody name body).testNames = []
  · rw [if_pos hnone, if_pos hnone, List.nil_append]
  · rw [if_neg hnone, if_neg hnone]
    dsimp only
    rw [hsplit, hlength, List.take_left, List.drop_left]
    simp

theorem injected_of_not_isSuite {a : AutotunerText} (h : ¬a.IsSuite) :
    injected (.autotuner a) = render a.lexemes := by
  have hnone : harness a = [] := if_neg fun hboth => h hboth.1
  rw [render_lexemes]
  unfold injected
  dsimp only
  rw [hnone, List.nil_append]

theorem harness_of_isSuite {a : AutotunerText} (h : a.IsSuite) :
    harness a = generated (suite a) := by
  unfold harness generated
  by_cases hnone : (suite a).testNames = []
  · rw [if_pos hnone, if_neg fun h => h.2 hnone]
  · rw [if_neg hnone, if_pos ⟨h, hnone⟩]

/-- The harness of one suite, in a text that may have others behind it. -/
theorem inject_block {a : AutotunerText} (hsuite : a.IsSuite) (left after : List Char)
    (suites : List SuiteInfo) :
    (inject (left ++ (render a.lexemes ++ after), suites) (a.block left.length)).1 =
      left ++ (injected (.autotuner a) ++ after) := by
  have hinject := inject_at a.name (left ++ render a.opening) (render a.inner) after suites
  have hblock : a.block left.length = ⟨a.name, (left ++ render a.opening).length,
      (left ++ render a.opening).length + 1 + (render a.inner).length⟩ := by
    rw [List.length_append]
    rfl
  rw [hblock, render_lexemes]
  simp only [injected, harness_of_isSuite hsuite, List.append_assoc, List.cons_append,
    List.nil_append] at hinject ⊢
  exact hinject

theorem inject_autotuner (a : AutotunerText) (left after : List Char) (suites : List SuiteInfo) :
    (((Item.autotuner a).blocks left.length).foldr (fun block state => inject state block)
      (left ++ (render a.lexemes ++ after), suites)).1 =
        left ++ (injected (.autotuner a) ++ after) := by
  have hblocks : (Item.autotuner a).blocks left.length =
      if a.IsSuite then [a.block left.length] else [] := rfl
  rw [hblocks]
  by_cases hsuite : a.IsSuite
  · rw [if_pos hsuite]
    exact inject_block hsuite left after suites
  · rw [if_neg hsuite, injected_of_not_isSuite hsuite]
    rfl

/-! ## All insertions -/

/-- From the last block to the first, each insertion leaves what stands before it. -/
theorem inject_items (items : List Item) (left : List Char) (suites : List SuiteInfo) :
    ((blocksOf left.length items).foldr (fun block state => inject state block)
      (left ++ render (lexemes items), suites)).1 = left ++ items.flatMap injected := by
  induction items generalizing left with
  | nil => rfl
  | cons item items ih =>
    have hlength : left.length + (render item.lexemes).length =
        (left ++ render item.lexemes).length := List.length_append.symm
    have htext : left ++ render (lexemes (item :: items)) =
        (left ++ render item.lexemes) ++ render (lexemes items) := by
      unfold lexemes
      rw [List.flatMap_cons, render_append, List.append_assoc]
    have hlater := ih (left ++ render item.lexemes)
    unfold blocksOf
    rw [List.foldr_append, hlength, htext, List.flatMap_cons]
    cases hstate : (blocksOf (left ++ render item.lexemes).length items).foldr
      (fun block state => inject state block)
      (left ++ render item.lexemes ++ render (lexemes items), suites) with
    | mk text more =>
      rw [hstate] at hlater
      obtain rfl : text = _ := hlater
      rw [List.append_assoc]
      cases item with
      | other xs => rfl
      | autotuner a => exact inject_autotuner a left _ more

theorem transformSource_eq (sort : BlockSort) (src : List Char) :
    transformSource sort src = (sort.run (findSuiteBlocks src)).foldl inject (src, []) := by
  unfold transformSource
  split_ifs with hnone
  · have hperm := sort.perm (findSuiteBlocks src)
    rw [hnone] at hperm ⊢
    rw [hperm.eq_nil]
    rfl
  · rfl

/-- In a program that misleads neither the search nor the scan every harness stands where it is
to stand. -/
theorem injects_of_plain {items : List Item} {src : List Char} (sort : BlockSort)
    (hprogram : IsProgram items src) (hplain : Plain items src) : Injects sort items src := by
  have hblocks := findSuiteBlocks_eq hprogram hplain
  have hsorted := blocksOf_sorted 0 items
  have hsrc : src = [] ++ render (lexemes items) := by
    rw [← hprogram.source, render_lex]
    rfl
  unfold Injects
  rw [transformSource_eq, hblocks, run_eq_reverse sort hsorted, List.foldl_reverse, hsrc]
  exact inject_items items [] []


/-! ## A suite with a literal and one without -/

theorem harness_of_injected {a : AutotunerText}
    (h : render a.lexemes = injected (.autotuner a)) : harness a = [] := by
  rw [render_lexemes] at h
  have hbody := List.append_cancel_left (List.cons.inj (List.append_cancel_left h)).2
  exact (List.append_cancel_right (hbody.symm.trans (List.nil_append _).symm))

theorem harness_ne_nil {a : AutotunerText} (hsuite : a.IsSuite)
    (htests : (suite a).testNames ≠ []) : harness a ≠ [] := by
  unfold harness
  rw [if_pos ⟨hsuite, htests⟩]
  unfold generateHarnessStates
  rw [String.toList_append]
  exact List.append_ne_nil_of_right_ne_nil _ (by decide)

/-- One test, with a statement in it. -/
def oneTest (statement : String) : AutotunerText where
  name := "S"
  head := lex " S -> (int passed, int failed".toList
  gap := [.blank [' ']]
  inner := lex (" start -> __init; state test_a (int n) \x7b " ++ statement ++
    "terminal; \x7d ").toList

def oneTestText (statement : String) : String :=
  "autotuner S -> (int passed, int failed) \x7b start -> __init; state test_a (int n) \x7b " ++
    statement ++ "terminal; \x7d \x7d"

theorem autotuner_not_mem_head :
    .autotuner ∉ tokensOf (lex " S -> (int passed, int failed".toList) := by decide +kernel

theorem grammatical_oneTest {statement : String}
    (hinner : .autotuner ∉ tokensOf (oneTest statement).inner)
    (hpaired : depthAfter 0 (oneTest statement).inner = some 0) :
    (oneTest statement).Grammatical where
  named := ⟨_, rfl⟩
  head := autotuner_not_mem_head
  inner := hinner
  whole := fun _ => rfl
  gap := rfl
  paired := hpaired

theorem isProgram_oneTest {statement : String} (h : (oneTest statement).Grammatical)
    (hsource : lex (oneTestText statement).toList = (oneTest statement).lexemes)
    (hdivision : .div ∉ tokens (oneTestText statement).toList) :
    IsProgram [.autotuner (oneTest statement)] (oneTestText statement).toList where
  source := hsource.trans (List.append_nil _).symm
  items := fun item hitem => List.mem_singleton.mp hitem ▸ h
  division := fun hmem => hdivision (hmem.mem List.mem_cons_self)
  previous := by
    intro before after previous hsplit hlast
    have htokens : tokens (oneTestText statement).toList =
        .autotuner :: (tokensOf (oneTest statement).head ++ .rparen ::
          .lbrace :: (tokensOf (oneTest statement).inner ++ [.rbrace])) := by
      have hall : tokensOf ((oneTest statement).lexemes ++ []) = _ := tokensOf_lexemes h
      rw [List.append_nil, ← hsource] at hall
      refine Eq.trans hall ?_
      simp [AutotunerText.declaration]
    rw [htokens] at hsplit
    cases before with
    | nil => cases hlast
    | cons token before =>
      have hmem : .autotuner ∈ before ++ .autotuner :: after :=
        List.mem_append_right before List.mem_cons_self
      have htail : _ = before ++ .autotuner :: after := (List.cons.inj hsplit).2
      rw [← htail] at hmem
      simp [h.head, h.inner] at hmem

theorem grammatical_plain : (oneTest "").Grammatical :=
  grammatical_oneTest (by decide +kernel) (by decide +kernel)

theorem visible_plain : ∀ x ∈ lex (oneTestText "").toList, ¬IsHidden x := by decide +kernel

theorem plain_suite : (oneTest "").Plain where
  spelled := by
    intro x hx hnone
    have hall : ∀ x ∈ (oneTest "").head, x.token? = none → x.text.all isSpace = true := by
      decide +kernel
    exact List.all_eq_true.mp (hall x hx hnone)
  opened := by decide +kernel
  clean := by
    refine ⟨fun value text hmem => ?_, by decide +kernel⟩
    have hall : ∀ x ∈ (oneTest "").inner, ¬IsHidden x := by decide +kernel
    exact absurd trivial (hall _ hmem)

/-- The last block first, by a sort that is stable. -/
def byCloseBrace : BlockSort where
  run blocks := blocks.mergeSort fun a b => decide (b.closeBrace ≤ a.closeBrace)
  perm blocks := List.mergeSort_perm blocks _
  sorted blocks := by
    have hsorted : (blocks.mergeSort fun a b => decide (b.closeBrace ≤ a.closeBrace)).Pairwise
        fun a b => decide (b.closeBrace ≤ a.closeBrace) = true := by
      refine List.pairwise_mergeSort ?_ ?_ blocks
      · intro a b c hab hbc
        exact decide_eq_true (Nat.le_trans (of_decide_eq_true hbc) (of_decide_eq_true hab))
      · intro a b
        simp only [Bool.or_eq_true, decide_eq_true_eq]
        exact Nat.le_total _ _
    exact hsorted.imp of_decide_eq_true

theorem injects_plain :
    Injects byCloseBrace [.autotuner (oneTest "")] (oneTestText "").toList := by
  refine injects_of_plain byCloseBrace
    (isProgram_oneTest grammatical_plain (by decide +kernel) (by decide +kernel)) ⟨?_, ?_⟩
  · intro item hitem
    rw [List.mem_singleton.mp hitem]
    exact fun _ => plain_suite
  · rintro name ⟨before, x, after, a, b, rest, hsrc, hhidden, -⟩
    exact visible_plain x (hsrc ▸ List.mem_append_right before List.mem_cons_self) hhidden

/-- A literal that ends with a backslash does not end for the scan. -/
def backslash : String := "string s = \"\\\"; "

theorem not_injects_backslash :
    IsProgram [.autotuner (oneTest backslash)] (oneTestText backslash).toList ∧
      (oneTest backslash).IsSuite ∧ (suite (oneTest backslash)).testNames = ["test_a"] ∧
        ¬Injects byCloseBrace [.autotuner (oneTest backslash)] (oneTestText backslash).toList := by
  have hgrammatical : (oneTest backslash).Grammatical :=
    grammatical_oneTest (by decide +kernel) (by decide +kernel)
  have hsource : lex (oneTestText backslash).toList = (oneTest backslash).lexemes := by
    decide +kernel
  have hprogram := isProgram_oneTest hgrammatical hsource (by decide +kernel)
  have htests : (suite (oneTest backslash)).testNames = ["test_a"] := by decide +kernel
  have hsuite : (oneTest backslash).IsSuite := rfl
  refine ⟨hprogram, hsuite, htests, fun hinjects => ?_⟩
  have hnone : findSuiteBlocks (oneTestText backslash).toList = [] := by decide +kernel
  have htext : (oneTestText backslash).toList = render (oneTest backslash).lexemes := by
    rw [← hsource, render_lex]
  unfold Injects transformSource at hinjects
  rw [if_pos hnone, List.flatMap_cons, List.flatMap_nil, List.append_nil, htext] at hinjects
  have hsome : (suite (oneTest backslash)).testNames ≠ [] := by
    rw [htests]
    exact List.cons_ne_nil "test_a" []
  exact harness_ne_nil hsuite hsome (harness_of_injected hinjects)

end FalconLib.Cli.HarnessInjection
