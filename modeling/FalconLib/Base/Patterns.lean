import Mathlib.Data.List.Basic
import Mathlib.Data.List.TakeWhile
import Mathlib.Tactic.Common

/-!
# Patterns without choices

Regular expressions that are sequences of words and of runs of characters, each run followed by
something outside of it, so that the longest run is the only one to try. A search goes from left to
right and goes on after each match.
-/

namespace FalconLib.Base.Patterns

inductive Part where
  | word (word : List Char)
  | one (p : Char → Bool)
  /-- As many as there are. -/
  | run (p : Char → Bool)

/-- What follows the part, if the text begins with it. -/
def Part.take : Part → List Char → Option (List Char)
  | .word w, text => w.isPrefixOf? text
  | .one _, [] => none
  | .one p, c :: rest => if p c then some rest else none
  | .run p, text => some (text.dropWhile p)

def takeAll : List Part → List Char → Option (List Char)
  | [], text => some text
  | part :: parts, text => (part.take text).bind (takeAll parts)

@[simp] theorem takeAll_nil (text rest : List Char) : takeAll [] text = some rest ↔ text = rest :=
  Option.some_inj

theorem takeAll_word {word : List Char} {parts : List Part} {text rest : List Char} :
    takeAll (.word word :: parts) text = some rest ↔
      ∃ after, text = word ++ after ∧ takeAll parts after = some rest := by
  change (word.isPrefixOf? text).bind (takeAll parts) = some rest ↔ _
  rw [Option.bind_eq_some_iff]
  refine exists_congr fun after => and_congr_left fun _ => ?_
  rw [List.isPrefixOf?_eq_some_iff_append_eq, eq_comm]

theorem takeAll_one {p : Char → Bool} {parts : List Part} {text rest : List Char} :
    takeAll (.one p :: parts) text = some rest ↔
      ∃ c after, text = c :: after ∧ p c = true ∧ takeAll parts after = some rest := by
  cases text with
  | nil => exact ⟨nofun, nofun⟩
  | cons c after =>
    change (if p c then some after else none).bind (takeAll parts) = some rest ↔ _
    by_cases hc : p c = true
    · rw [if_pos hc, Option.bind_some]
      constructor
      · exact fun h => ⟨c, after, rfl, hc, h⟩
      · rintro ⟨c', after', heq, -, h⟩
        cases heq
        exact h
    · rw [if_neg hc]
      constructor
      · exact nofun
      · rintro ⟨c', after', heq, hc', -⟩
        cases heq
        exact absurd hc' hc

theorem dropWhile_eq_iff {p : Char → Bool} {text after : List Char} :
    text.dropWhile p = after ↔
      ∃ run, text = run ++ after ∧ (∀ c ∈ run, p c = true) ∧ after.head?.any p = false := by
  constructor
  · rintro rfl
    refine ⟨text.takeWhile p, List.takeWhile_append_dropWhile.symm,
      fun c hc => List.mem_takeWhile_imp hc, ?_⟩
    cases hdrop : text.dropWhile p with
    | nil => rfl
    | cons c cs =>
      have hne : text.dropWhile p ≠ [] := by
        rw [hdrop]
        exact List.cons_ne_nil c cs
      have hhead := List.head_dropWhile_not p hne
      simpa [hdrop] using hhead
  · rintro ⟨run, rfl, hrun, hafter⟩
    rw [List.dropWhile_append_of_pos hrun]
    cases after with
    | nil => rfl
    | cons c cs => exact List.dropWhile_cons_of_neg (Bool.eq_false_iff.mp hafter)

theorem takeAll_run {p : Char → Bool} {parts : List Part} {text rest : List Char} :
    takeAll (.run p :: parts) text = some rest ↔
      ∃ run after, text = run ++ after ∧ (∀ c ∈ run, p c = true) ∧ after.head?.any p = false ∧
        takeAll parts after = some rest := by
  change takeAll parts (text.dropWhile p) = some rest ↔ _
  constructor
  · intro h
    obtain ⟨run, htext, hrun, hafter⟩ := dropWhile_eq_iff.mp (rfl : text.dropWhile p = _)
    exact ⟨run, _, htext, hrun, hafter, h⟩
  · rintro ⟨run, after, htext, hrun, hafter, h⟩
    rw [dropWhile_eq_iff.mpr ⟨run, htext, hrun, hafter⟩]
    exact h

/-- A group between two other sequences. -/
structure Pattern where
  before : List Part
  group : List Part
  after : List Part

/-- The text of the group, and what follows the match. -/
def Pattern.take (pattern : Pattern) (text : List Char) : Option (List Char × List Char) :=
  (takeAll pattern.before text).bind fun fromGroup =>
    (takeAll pattern.group fromGroup).bind fun fromAfter =>
      (takeAll pattern.after fromAfter).map fun rest =>
        (fromGroup.take (fromGroup.length - fromAfter.length), rest)

theorem Pattern.take_eq_some {pattern : Pattern} {text group rest : List Char} :
    pattern.take text = some (group, rest) ↔ ∃ fromGroup fromAfter,
      takeAll pattern.before text = some fromGroup ∧
        takeAll pattern.group fromGroup = some fromAfter ∧
          takeAll pattern.after fromAfter = some rest ∧
            fromGroup.take (fromGroup.length - fromAfter.length) = group := by
  unfold Pattern.take
  simp only [Option.bind_eq_some_iff, Option.map_eq_some_iff, Prod.mk.injEq]
  constructor
  · rintro ⟨fromGroup, hbefore, fromAfter, hgroup, rest, hafter, htake, rfl⟩
    exact ⟨fromGroup, fromAfter, hbefore, hgroup, hafter, htake⟩
  · rintro ⟨fromGroup, fromAfter, hbefore, hgroup, hafter, htake⟩
    exact ⟨fromGroup, hbefore, fromAfter, hgroup, rest, hafter, htake, rfl⟩

theorem take_length_sub (group after : List Char) :
    (group ++ after).take ((group ++ after).length - after.length) = group := by
  rw [List.length_append, Nat.add_sub_cancel_right, List.take_left]

/-- `\b`: one of two neighbours is a character of words. -/
def boundary (isWord : Char → Bool) (previous : Option Char) (text : List Char) : Bool :=
  previous.any isWord != text.head?.any isWord

/-! ## Searching -/

variable {α : Type}

/-- What is left to skip belongs to the last match. -/
def findAll (attempt : Option Char → List Char → Option (α × List Char)) :
    Nat → Option Char → List Char → List (α × List Char)
  | _, _, [] => []
  | skip + 1, _, c :: rest => findAll attempt skip (some c) rest
  | 0, previous, c :: rest =>
    match attempt previous (c :: rest) with
    | some (a, after) => (a, after) :: findAll attempt (rest.length - after.length) (some c) rest
    | none => findAll attempt 0 (some c) rest

/-- The character before a place, if there is one. -/
def lastOf (previous : Option Char) (text : List Char) : Option Char := text.getLast?.or previous

@[simp] theorem lastOf_nil (previous : Option Char) : lastOf previous [] = previous := rfl

@[simp] theorem lastOf_cons (previous : Option Char) (c : Char) (text : List Char) :
    lastOf previous (c :: text) = lastOf (some c) text := by
  unfold lastOf
  rw [List.getLast?_cons]
  cases text.getLast? <;> rfl

/-- No match begins inside another. -/
def Disjoint (attempt : Option Char → List Char → Option (α × List Char)) : Prop :=
  ∀ previous text a after, attempt previous text = some (a, after) →
    ∃ matched, text = matched ++ after ∧ matched ≠ [] ∧
      ∀ left right, matched = left ++ right → left ≠ [] → right ≠ [] →
        attempt (lastOf previous left) (right ++ after) = none

section

variable {attempt : Option Char → List Char → Option (α × List Char)} {previous : Option Char}
  {c : Char} {rest : List Char}

theorem findAll_of_none (h : attempt previous (c :: rest) = none) :
    findAll attempt 0 previous (c :: rest) = findAll attempt 0 (some c) rest := by
  rw [findAll, h]

theorem findAll_of_some {a : α} {matched after : List Char}
    (h : attempt previous (c :: (matched ++ after)) = some (a, after)) :
    findAll attempt 0 previous (c :: (matched ++ after)) =
      (a, after) :: findAll attempt matched.length (some c) (matched ++ after) := by
  rw [findAll, h]
  dsimp only
  rw [List.length_append, Nat.add_sub_cancel_right]

end

section

variable {attempt : Option Char → List Char → Option (α × List Char)}

theorem findAll_skip (skipped rest : List Char) (previous : Option Char) :
    findAll attempt skipped.length previous (skipped ++ rest) =
      findAll attempt 0 (lastOf previous skipped) rest := by
  induction skipped generalizing previous with
  | nil => rfl
  | cons c skipped ih =>
    rw [lastOf_cons]
    exact ih (some c)

/-- After a match the search goes on behind it. -/
theorem findAll_of_match {matched after : List Char} {a : α} {previous : Option Char}
    (hne : matched ≠ []) (h : attempt previous (matched ++ after) = some (a, after)) :
    findAll attempt 0 previous (matched ++ after) =
      (a, after) :: findAll attempt 0 (lastOf previous matched) after := by
  obtain ⟨c, matched, rfl⟩ := List.exists_cons_of_ne_nil hne
  rw [List.cons_append] at h ⊢
  rw [findAll_of_some h, findAll_skip, lastOf_cons]

/-- A text in which no match begins is passed over. -/
theorem findAll_of_no_match {passed after : List Char} {previous : Option Char}
    (h : ∀ left right, passed = left ++ right → right ≠ [] →
      attempt (lastOf previous left) (right ++ after) = none) :
    findAll attempt 0 previous (passed ++ after) =
      findAll attempt 0 (lastOf previous passed) after := by
  induction passed generalizing previous with
  | nil => rfl
  | cons c passed ih =>
    have hhere := h [] (c :: passed) rfl (List.cons_ne_nil c passed)
    rw [List.cons_append] at hhere ⊢
    rw [lastOf_nil] at hhere
    rw [findAll_of_none hhere, lastOf_cons]
    refine ih fun left right heq hright => ?_
    have hlater := h (c :: left) right (by rw [heq, List.cons_append]) hright
    rw [lastOf_cons] at hlater
    exact hlater

end

/-- A search finds the match at every place. -/
theorem mem_findAll {attempt : Option Char → List Char → Option (α × List Char)}
    (hdisjoint : Disjoint attempt) (hnil : ∀ previous, attempt previous [] = none)
    {skip : Nat} {previous : Option Char} {text : List Char} {found : α × List Char} :
    found ∈ findAll attempt skip previous text ↔ ∃ left right, text = left ++ right ∧
      skip ≤ left.length ∧ attempt (lastOf previous left) right = some found := by
  induction text generalizing skip previous with
  | nil =>
    constructor
    · intro h
      cases skip <;> cases h
    · rintro ⟨left, right, heq, -, hfound⟩
      obtain ⟨rfl, rfl⟩ := List.append_eq_nil_iff.mp heq.symm
      rw [hnil] at hfound
      cases hfound
  | cons c rest ih =>
    have hlater : ∀ k, found ∈ findAll attempt k (some c) rest ↔ ∃ left right,
        c :: rest = c :: (left ++ right) ∧ k ≤ left.length ∧
          attempt (lastOf previous (c :: left)) right = some found := by
      intro k
      rw [ih]
      simp only [lastOf_cons, List.cons.injEq, true_and]
    cases skip with
    | succ skip =>
      change found ∈ findAll attempt skip (some c) rest ↔ _
      rw [hlater]
      constructor
      · rintro ⟨left, right, heq, hlen, hfound⟩
        exact ⟨c :: left, right, heq, Nat.succ_le_succ hlen, hfound⟩
      · rintro ⟨left, right, heq, hlen, hfound⟩
        cases left with
        | nil => exact absurd hlen (Nat.not_succ_le_zero skip)
        | cons d left =>
          cases (List.cons.inj heq).1
          exact ⟨left, right, heq, Nat.le_of_succ_le_succ hlen, hfound⟩
    | zero =>
      cases hhere : attempt previous (c :: rest) with
      | none =>
        rw [findAll_of_none hhere, hlater]
        constructor
        · rintro ⟨left, right, heq, -, hfound⟩
          exact ⟨c :: left, right, heq, Nat.zero_le _, hfound⟩
        · rintro ⟨left, right, heq, -, hfound⟩
          cases left with
          | nil =>
            rw [List.nil_append] at heq
            rw [← heq, lastOf_nil, hhere] at hfound
            cases hfound
          | cons d left =>
            cases (List.cons.inj heq).1
            exact ⟨left, right, heq, Nat.zero_le _, hfound⟩
      | some first =>
        obtain ⟨a, after⟩ := first
        obtain ⟨matched, htext, hne, hinside⟩ := hdisjoint _ _ _ _ hhere
        obtain ⟨d, matched, rfl⟩ := List.exists_cons_of_ne_nil hne
        rw [List.cons_append] at htext
        obtain ⟨rfl, rfl⟩ := List.cons.inj htext
        rw [findAll_of_some hhere, List.mem_cons, hlater]
        constructor
        · rintro (rfl | ⟨left, right, heq, -, hfound⟩)
          · exact ⟨[], _, rfl, Nat.zero_le _, hhere⟩
          · exact ⟨c :: left, right, heq, Nat.zero_le _, hfound⟩
        · rintro ⟨left, right, heq, -, hfound⟩
          cases left with
          | nil =>
            rw [List.nil_append] at heq
            rw [← heq, lastOf_nil, hhere] at hfound
            exact .inl (Option.some.inj hfound).symm
          | cons d left =>
            cases (List.cons.inj heq).1
            refine .inr ⟨left, right, heq, Nat.le_of_not_lt fun hlt => ?_, hfound⟩
            rcases List.append_eq_append_iff.mp (List.cons.inj heq).2 with
              ⟨between, rfl, -⟩ | ⟨between, hmatched, hright⟩
            · rw [List.length_append] at hlt
              omega
            · have hbetween : between ≠ [] := by
                rintro rfl
                rw [hmatched, List.append_nil] at hlt
                exact Nat.lt_irrefl _ hlt
              have hnone := hinside (c :: left) between (by rw [hmatched]; rfl)
                (List.cons_ne_nil c left) hbetween
              rw [hright, hnone] at hfound
              cases hfound


/-! ## Matches that do not overlap -/

theorem lastOf_append (previous : Option Char) (a b : List Char) :
    lastOf previous (a ++ b) = lastOf (lastOf previous a) b := by
  unfold lastOf
  rw [List.getLast?_append, Option.or_assoc]

/-- Where `first` stands in the text, a match cannot begin. -/
def Guarded (clear : Option Char → Prop) (first : Char) (previous : Option Char)
    (text : List Char) : Prop :=
  ∀ left right, text = left ++ first :: right → ¬clear (lastOf previous left)

section

variable {clear : Option Char → Prop} {first : Char} {previous : Option Char} {a b : List Char}

theorem guarded_of_not_mem (h : first ∉ a) : Guarded clear first previous a := by
  rintro left right rfl
  exact absurd (List.mem_append_right left List.mem_cons_self) h

theorem Guarded.append (ha : Guarded clear first previous a)
    (hb : Guarded clear first (lastOf previous a) b) : Guarded clear first previous (a ++ b) := by
  intro left right heq
  rcases List.append_eq_append_iff.mp heq with ⟨between, rfl, hb'⟩ | ⟨between, rfl, hright⟩
  · rw [lastOf_append]
    exact hb between right hb'
  · cases between with
    | nil =>
      rw [List.append_nil] at hb
      exact hb [] right hright.symm
    | cons c between =>
      cases (List.cons.inj hright).1
      exact ha left between rfl

theorem guarded_of_words {isWord : Char → Bool}
    (hclear : ∀ c, clear c → c.any isWord = false) (hprevious : previous.any isWord = true)
    (hwords : ∀ c ∈ a, isWord c = true) : Guarded clear first previous a := by
  rintro left right rfl hc
  have hlast := hclear _ hc
  unfold lastOf at hlast
  cases hleft : left.getLast? with
  | none =>
    rw [hleft, Option.none_or, hprevious] at hlast
    cases hlast
  | some c =>
    have hmem := List.mem_of_getLast? hleft
    rw [hleft, Option.some_or, Option.any_some, hwords c (List.mem_append_left _ hmem)] at hlast
    cases hlast

end

/-- Matches begin with one character, at places that are clear, and the rest of a match has no
such place. -/
theorem disjoint_of_guarded {attempt : Option Char → List Char → Option (α × List Char)}
    (clear : Option Char → Prop) (first : Char)
    (hstart : ∀ previous text found, attempt previous text = some found →
      text.head? = some first ∧ clear previous)
    (hinner : ∀ previous text a after, attempt previous text = some (a, after) →
      ∃ inner, text = first :: (inner ++ after) ∧ Guarded clear first (some first) inner) :
    Disjoint attempt := by
  intro previous text a after hmatch
  obtain ⟨inner, rfl, hguarded⟩ := hinner _ _ _ _ hmatch
  refine ⟨first :: inner, rfl, List.cons_ne_nil _ _, ?_⟩
  intro left right heq hleft hright
  obtain ⟨d, left, rfl⟩ := List.exists_cons_of_ne_nil hleft
  obtain ⟨c, right, rfl⟩ := List.exists_cons_of_ne_nil hright
  obtain ⟨rfl, rfl⟩ := List.cons.inj heq
  cases hnext : attempt (lastOf previous (first :: left)) (c :: right ++ after) with
  | none => rfl
  | some found =>
    obtain ⟨hhead, hclear⟩ := hstart _ _ _ hnext
    cases hhead
    rw [lastOf_cons] at hclear
    exact absurd hclear (hguarded left right rfl)

/-! ## Removing -/

/-- The text without the matches; what is left to skip belongs to the last match. -/
def removeAll (parts : List Part) : Nat → List Char → List Char
  | _, [] => []
  | skip + 1, _ :: rest => removeAll parts skip rest
  | 0, c :: rest =>
    match takeAll parts (c :: rest) with
    | some after => removeAll parts (rest.length - after.length) rest
    | none => c :: removeAll parts 0 rest

/-- A match is not empty. -/
def Consumes (parts : List Part) : Prop :=
  ∀ text after, takeAll parts text = some after → ∃ matched, text = matched ++ after ∧ matched ≠ []

section

variable {parts : List Part}

theorem removeAll_skip (skipped rest : List Char) :
    removeAll parts skipped.length (skipped ++ rest) = removeAll parts 0 rest := by
  induction skipped with
  | nil => rfl
  | cons c skipped ih => exact ih

theorem removeAll_of_match {matched after : List Char} (hne : matched ≠ [])
    (h : takeAll parts (matched ++ after) = some after) :
    removeAll parts 0 (matched ++ after) = removeAll parts 0 after := by
  obtain ⟨c, matched, rfl⟩ := List.exists_cons_of_ne_nil hne
  rw [List.cons_append] at h ⊢
  rw [removeAll, h]
  dsimp only
  rw [List.length_append, Nat.add_sub_cancel_right, removeAll_skip]

theorem removeAll_of_none {c : Char} {rest : List Char} (h : takeAll parts (c :: rest) = none) :
    removeAll parts 0 (c :: rest) = c :: removeAll parts 0 rest := by
  rw [removeAll, h]

/-- A text is read by matches and by characters at which there is none. -/
theorem scan_induction {motive : List Char → Prop} (hparts : Consumes parts) (nil : motive [])
    (hit : ∀ matched after, matched ≠ [] → takeAll parts (matched ++ after) = some after →
      motive after → motive (matched ++ after))
    (keep : ∀ c rest, takeAll parts (c :: rest) = none → motive rest → motive (c :: rest))
    (text : List Char) : motive text := by
  induction hlen : text.length using Nat.strong_induction_on generalizing text with
  | h len ih =>
    cases htake : takeAll parts text with
    | some after =>
      obtain ⟨matched, rfl, hne⟩ := hparts text after htake
      have hpos := List.length_pos_of_ne_nil hne
      rw [List.length_append] at hlen
      exact hit matched after hne htake (ih after.length (by omega) after rfl)
    | none =>
      cases text with
      | nil => exact nil
      | cons c rest =>
        rw [List.length_cons] at hlen
        exact keep c rest htake (ih rest.length (by omega) rest rfl)

end

end FalconLib.Base.Patterns
