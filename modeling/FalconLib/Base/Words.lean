import Mathlib.Data.List.TakeWhile
import Mathlib.Tactic.Common

/-!
# The word around a position

A word is a longest stretch of a list whose members have a property.
-/

namespace FalconLib.Base.Words

variable {α : Type} (p : α → Bool)

/-- The stretch with the property around a position, as two scans from there find it. -/
def around (l : List α) (i : Nat) : List α :=
  ((l.take i).reverse.takeWhile p).reverse ++ (l.drop i).takeWhile p

/-- The stretch is somewhere in the list, and the position in the stretch. -/
def At (l : List α) (i : Nat) (word : List α) : Prop :=
  ∃ pre post, l = pre ++ word ++ post ∧ pre.length ≤ i ∧ i < pre.length + word.length

variable {p}

theorem At.lt_length {l word : List α} {i : Nat} (h : At l i word) : i < l.length := by
  obtain ⟨pre, post, rfl, -, hi⟩ := h
  rw [List.length_append, List.length_append]
  omega

theorem takeWhile_append_stop {xs ys : List α} (h : ∀ a, ys.head? = some a → p a = false) :
    (xs ++ ys).takeWhile p = xs.takeWhile p := by
  induction xs with
  | nil =>
    cases ys with
    | nil => rfl
    | cons y ys =>
      rw [List.nil_append, List.takeWhile_cons_of_neg (Bool.eq_false_iff.mp (h y rfl))]
      rfl
  | cons x xs ih =>
    by_cases hx : p x = true
    · rw [List.cons_append, List.takeWhile_cons_of_pos hx, List.takeWhile_cons_of_pos hx, ih]
    · rw [List.cons_append, List.takeWhile_cons_of_neg hx, List.takeWhile_cons_of_neg hx]

/-- What has no such members next to it may be looked at alone. -/
theorem around_append {before l after : List α} {i : Nat} (hi : i < l.length)
    (hb : ∀ a, before.getLast? = some a → p a = false)
    (ha : ∀ a, after.head? = some a → p a = false) :
    around p (before ++ l ++ after) (before.length + i) = around p l i := by
  have htake : (before ++ l ++ after).take (before.length + i) = before ++ l.take i := by
    rw [List.append_assoc, List.take_length_add_append, List.take_append_of_le_length (Nat.le_of_lt hi)]
  have hdrop : (before ++ l ++ after).drop (before.length + i) = l.drop i ++ after := by
    rw [List.append_assoc, List.drop_length_add_append, List.drop_append_of_le_length (Nat.le_of_lt hi)]
  unfold around
  rw [htake, hdrop, List.reverse_append, takeWhile_append_stop ha,
    takeWhile_append_stop (by rwa [List.head?_reverse])]

theorem all_around (l : List α) (i : Nat) : ∀ a ∈ around p l i, p a = true := by
  intro a ha
  rcases List.mem_append.mp ha with ha | ha
  · exact List.mem_takeWhile_imp (List.mem_reverse.mp ha)
  · exact List.mem_takeWhile_imp ha

/-- The word stands between members without the property. -/
theorem around_at {l : List α} {i : Nat} {a : α} (hl : l[i]? = some a) (hp : p a = true) :
    ∃ pre post, l = pre ++ around p l i ++ post ∧ pre.length ≤ i ∧
      i < pre.length + (around p l i).length ∧ (∀ b, pre.getLast? = some b → p b = false) := by
  obtain ⟨hi, ha⟩ := List.getElem?_eq_some_iff.mp hl
  refine ⟨((l.take i).reverse.dropWhile p).reverse, (l.drop i).dropWhile p, ?_, ?_, ?_, ?_⟩
  · unfold around
    rw [← List.append_assoc, ← List.reverse_append, List.takeWhile_append_dropWhile,
      List.reverse_reverse, List.append_assoc, List.takeWhile_append_dropWhile,
      List.take_append_drop]
  · have hlength := (List.dropWhile_suffix p (l := (l.take i).reverse)).length_le
    rw [List.length_reverse, List.length_take] at hlength
    rw [List.length_reverse]
    omega
  · have hsum := congrArg List.length (List.takeWhile_append_dropWhile (p := p)
      (l := (l.take i).reverse))
    have hhead : (l.drop i).takeWhile p ≠ [] := by
      rw [List.drop_eq_getElem_cons hi, ha, List.takeWhile_cons_of_pos hp]
      exact List.cons_ne_nil _ _
    have hpos := List.length_pos_iff.mpr hhead
    rw [List.length_append, List.length_reverse, List.length_take] at hsum
    unfold around
    rw [List.length_append, List.length_reverse, List.length_reverse]
    omega
  · intro b hb
    rw [List.getLast?_reverse] at hb
    have hnot := List.head?_dropWhile_not p (l.take i).reverse
    rw [hb] at hnot
    exact hnot

/-- A stretch around the position is part of the word, which goes on to both sides of it. -/
theorem around_of_split {pre word post : List α} {i : Nat} (hpre : pre.length ≤ i)
    (hi : i < pre.length + word.length) (hp : ∀ a ∈ word, p a = true) :
    around p (pre ++ word ++ post) i =
      (pre.reverse.takeWhile p).reverse ++ word ++ post.takeWhile p := by
  obtain ⟨k, rfl⟩ := Nat.exists_eq_add_of_le hpre
  have hk : k ≤ word.length := by omega
  have htake : (pre ++ word ++ post).take (pre.length + k) = pre ++ word.take k := by
    rw [List.append_assoc, List.take_length_add_append, List.take_append_of_le_length hk]
  have hdrop : (pre ++ word ++ post).drop (pre.length + k) = word.drop k ++ post := by
    rw [List.append_assoc, List.drop_length_add_append, List.drop_append_of_le_length hk]
  have hleft : ∀ a ∈ (word.take k).reverse, p a = true := fun a ha =>
    hp a (List.mem_of_mem_take (List.mem_reverse.mp ha))
  have hright : ∀ a ∈ word.drop k, p a = true := fun a ha => hp a (List.mem_of_mem_drop ha)
  unfold around
  rw [htake, hdrop, List.reverse_append, List.takeWhile_append_of_pos hleft,
    List.takeWhile_append_of_pos hright, List.reverse_append, List.reverse_reverse,
    List.append_assoc, ← List.append_assoc (word.take k), List.take_append_drop,
    ← List.append_assoc]

end FalconLib.Base.Words
