import Mathlib.Data.List.Basic
import Mathlib.Data.List.Infix
import Mathlib.Tactic.Common

/-!
# Substrings

The first occurrence of a pattern in a text, at or after a position, and the replacement of all
occurrences from left to right. Texts and patterns are lists over any type.
-/

namespace FalconLib.Base.Substrings

section

variable {α : Type*}

/-! ## Occurrences -/

/-- An empty pattern also occurs at the end of the text, but not behind it. -/
def OccursAt (pat text : List α) (i : Nat) : Prop :=
  i ≤ text.length ∧ pat <+: text.drop i

theorem occursAt_iff {pat text : List α} {i : Nat} :
    OccursAt pat text i ↔ ∃ pre post, text = pre ++ pat ++ post ∧ pre.length = i := by
  constructor
  · rintro ⟨hi, post, hpost⟩
    refine ⟨text.take i, post, ?_, List.length_take_of_le hi⟩
    rw [List.append_assoc, hpost, List.take_append_drop]
  · rintro ⟨pre, post, rfl, rfl⟩
    constructor
    · simp only [List.length_append]
      omega
    · rw [List.append_assoc, List.drop_left]
      exact List.prefix_append pat post

theorem OccursAt.length_le {pat text : List α} {i : Nat} (h : OccursAt pat text i) :
    i + pat.length ≤ text.length := by
  obtain ⟨pre, post, rfl, rfl⟩ := occursAt_iff.mp h
  simp only [List.length_append]
  omega

theorem occursAt_zero {pat text : List α} : OccursAt pat text 0 ↔ pat <+: text :=
  and_iff_right (Nat.zero_le _)

theorem occursAt_succ {pat text : List α} {c : α} {i : Nat} :
    OccursAt pat (c :: text) (i + 1) ↔ OccursAt pat text i :=
  and_congr_left fun _ => Nat.succ_le_succ_iff

/-- An occurrence is what one reads between its ends. -/
theorem occursAt_iff_take {pat text : List α} {i : Nat} (hi : i ≤ text.length) :
    OccursAt pat text i ↔ (text.drop i).take pat.length = pat := by
  rw [OccursAt, and_iff_right hi, List.prefix_iff_eq_take, eq_comm]

/-! ## Intervals -/

/-- The elements at the positions of an interval that lie in the text. -/
def slice (text : List α) (lo hi : Int) : List α :=
  (text.zipIdx.filter fun entry => lo ≤ entry.2 ∧ entry.2 < hi).map Prod.fst

private theorem map_filter_zipIdx (text : List α) (lo hi k : Nat) :
    ((text.zipIdx k).filter fun entry => (lo : Int) ≤ entry.2 ∧ entry.2 < (hi : Int)).map Prod.fst =
      (text.drop (lo - k)).take (hi - max lo k) := by
  induction text generalizing k with
  | nil => rw [List.zipIdx_nil, List.drop_nil, List.take_nil]; rfl
  | cons c text ih =>
    rw [List.zipIdx_cons]
    by_cases hlo : lo ≤ k
    · have hdrop : lo - k = 0 := Nat.sub_eq_zero_of_le hlo
      have hdrop' : lo - (k + 1) = 0 := by omega
      rw [hdrop, List.drop_zero]
      by_cases hhi : k < hi
      · have htake : hi - max lo k = (hi - max lo (k + 1)) + 1 := by omega
        rw [List.filter_cons_of_pos (by simpa using ⟨hlo, hhi⟩), List.map_cons, ih, hdrop', htake,
          List.drop_zero, List.take_succ_cons]
      · have htake : hi - max lo k = 0 := by omega
        have htake' : hi - max lo (k + 1) = 0 := by omega
        rw [List.filter_cons_of_neg (by simp; omega), ih, htake, htake', List.take_zero,
          List.take_zero]
    · have hdrop : lo - k = (lo - (k + 1)) + 1 := by omega
      have htake : hi - max lo k = hi - max lo (k + 1) := by omega
      rw [List.filter_cons_of_neg (by simp; omega), ih, hdrop, htake, List.drop_succ_cons]

theorem slice_eq (text : List α) (lo n : Nat) :
    slice text lo (lo + n) = (text.drop lo).take n := by
  have h := map_filter_zipIdx text lo (lo + n) 0
  rw [Nat.max_zero, Nat.sub_zero, Nat.add_sub_cancel_left] at h
  rw [← h]
  unfold slice
  push_cast
  rfl

/-! ## Replacing -/

/-- The text with its occurrences replaced from left to right: what stands after an occurrence is
searched on from its end, and the inserted text is not searched. -/
inductive Replaces (pat new : List α) : List α → List α → Prop where
  | nil : Replaces pat new [] []
  | hit {rest out : List α} : Replaces pat new rest out → Replaces pat new (pat ++ rest) (new ++ out)
  | skip {c : α} {rest out : List α} : ¬ pat <+: c :: rest → Replaces pat new rest out →
      Replaces pat new (c :: rest) (c :: out)

variable {pat new : List α}

/-- With a pattern that is not empty there is one result. -/
theorem Replaces.unique (hpat : pat ≠ []) {text out out' : List α} (h : Replaces pat new text out)
    (h' : Replaces pat new text out') : out = out' := by
  induction h generalizing out' with
  | nil =>
    generalize htext : ([] : List α) = text at h'
    cases h' with
    | nil => rfl
    | hit => exact absurd (List.append_eq_nil_iff.mp htext.symm).1 hpat
    | skip => cases htext
  | @hit rest out _ ih =>
    generalize htext : pat ++ rest = text at h'
    cases h' with
    | nil => exact absurd (List.append_eq_nil_iff.mp htext).1 hpat
    | hit hrest =>
      cases List.append_cancel_left htext
      rw [ih hrest]
    | skip hnot => exact absurd ⟨rest, htext⟩ hnot
  | @skip c rest out hnot _ ih =>
    generalize htext : c :: rest = text at h'
    cases h' with
    | nil => cases htext
    | @hit rest' => exact absurd ⟨rest', htext.symm⟩ hnot
    | skip _ hrest =>
      cases htext
      rw [ih hrest]

/-- What stands before the first occurrence stays. -/
theorem Replaces.before {pre rest out : List α}
    (hpre : ∀ j < pre.length, ¬ OccursAt pat (pre ++ rest) j) (h : Replaces pat new rest out) :
    Replaces pat new (pre ++ rest) (pre ++ out) := by
  induction pre with
  | nil => exact h
  | cons c pre ih =>
    refine .skip (fun hzero => ?_) (ih fun j hj hat => ?_)
    · exact hpre 0 (Nat.zero_lt_succ _) (occursAt_zero.mpr hzero)
    · exact hpre (j + 1) (Nat.succ_lt_succ hj) (occursAt_succ.mpr hat)

end

section

variable {α : Type*} [DecidableEq α]

/-! ## Searching -/

/-- The first position at which the pattern occurs. -/
def search (pat : List α) : List α → Option Nat
  | [] => if pat = [] then some 0 else none
  | c :: text => if pat <+: c :: text then some 0 else (search pat text).map (· + 1)

theorem search_eq_some_iff {pat text : List α} {i : Nat} :
    search pat text = some i ↔ OccursAt pat text i ∧ ∀ j < i, ¬ OccursAt pat text j := by
  induction text generalizing i with
  | nil =>
    have hat : ∀ j, OccursAt pat [] j ↔ j = 0 ∧ pat = [] := by
      intro j
      rw [OccursAt, List.drop_nil, List.prefix_nil, List.length_nil, Nat.le_zero]
    unfold search
    by_cases hpat : pat = []
    · rw [if_pos hpat, Option.some_inj, hat]
      constructor
      · rintro rfl
        exact ⟨⟨rfl, hpat⟩, fun j hj => absurd hj (Nat.not_lt_zero j)⟩
      · exact fun h => h.1.1.symm
    · rw [if_neg hpat, hat]
      constructor
      · exact nofun
      · exact fun h => absurd h.1.2 hpat
  | cons c text ih =>
    unfold search
    by_cases hzero : pat <+: c :: text
    · rw [if_pos hzero, Option.some_inj]
      constructor
      · rintro rfl
        exact ⟨occursAt_zero.mpr hzero, fun j hj => absurd hj (Nat.not_lt_zero j)⟩
      · rintro ⟨-, hfirst⟩
        by_contra hi
        exact hfirst 0 (Nat.pos_of_ne_zero fun h => hi h.symm) (occursAt_zero.mpr hzero)
    · rw [if_neg hzero, Option.map_eq_some_iff]
      constructor
      · rintro ⟨j, hj, rfl⟩
        obtain ⟨hat, hfirst⟩ := ih.mp hj
        refine ⟨occursAt_succ.mpr hat, fun k hk => ?_⟩
        cases k with
        | zero => exact fun h => hzero (occursAt_zero.mp h)
        | succ k => exact fun h => hfirst k (Nat.lt_of_succ_lt_succ hk) (occursAt_succ.mp h)
      · rintro ⟨hat, hfirst⟩
        cases i with
        | zero => exact absurd (occursAt_zero.mp hat) hzero
        | succ i =>
          refine ⟨i, ih.mpr ⟨occursAt_succ.mp hat, fun k hk h => ?_⟩, rfl⟩
          exact hfirst (k + 1) (Nat.succ_lt_succ hk) (occursAt_succ.mpr h)

/-- The search misses nothing. -/
theorem search_eq_none_iff {pat text : List α} :
    search pat text = none ↔ ∀ i, ¬ OccursAt pat text i := by
  constructor
  · intro h i
    -- the least occurrence would have been found
    induction i using Nat.strong_induction_on with
    | h i ih =>
      intro hat
      rw [search_eq_some_iff.mpr ⟨hat, ih⟩] at h
      cases h
  · intro h
    cases hsearch : search pat text with
    | none => rfl
    | some i => exact absurd (search_eq_some_iff.mp hsearch).1 (h i)

/-- The search that starts at a position of the text. -/
def find (text pat : List α) (pos : Nat) : Option Nat :=
  if pos ≤ text.length then (search pat (text.drop pos)).map (pos + ·) else none

theorem find_zero (text pat : List α) : find text pat 0 = search pat text := by
  unfold find
  rw [if_pos (Nat.zero_le _), List.drop_zero]
  cases search pat text with
  | none => rfl
  | some i => exact congrArg some (Nat.zero_add i)

/-- The search behind a part of the text. -/
theorem find_append (done rest pat : List α) :
    find (done ++ rest) pat done.length = (search pat rest).map (done.length + ·) := by
  unfold find
  rw [List.drop_left, if_pos]
  rw [List.length_append]
  exact Nat.le_add_right _ _

/-- A text without an occurrence is its own result. -/
theorem Replaces.self {pat new text : List α} (h : search pat text = none) :
    Replaces pat new text text := by
  have hbefore : Replaces pat new (text ++ []) (text ++ []) := by
    refine Replaces.before (fun j _ => ?_) .nil
    rw [List.append_nil]
    exact search_eq_none_iff.mp h j
  rwa [List.append_nil] at hbefore

end

end FalconLib.Base.Substrings
