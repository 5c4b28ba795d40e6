import Mathlib.Data.List.TakeWhile
import Mathlib.Tactic.Common

/-!
# Nested names with brackets

A name is a word, or a word with arguments in brackets, which are names again. Where no bracket and
no separator is in a word, the notation is unambiguous.
-/

namespace FalconLib.Base.Brackets

/-- A word, possibly with arguments. -/
inductive Name (α : Type) where
  | word (letters : List α)
  | applied (letters : List α) (args : List (Name α))

/-- The marks of the notation, and the letters that are none of them. -/
structure Notation (α : Type) where
  opening : α
  separator : α
  closing : α
  isLetter : α → Bool
  opening_mark : isLetter opening = false
  separator_mark : isLetter separator = false
  closing_mark : isLetter closing = false
  opening_ne_separator : opening ≠ separator
  opening_ne_closing : opening ≠ closing
  separator_ne_closing : separator ≠ closing

section

variable {α : Type} (n : Notation α)

mutual

def render : Name α → List α
  | .word letters => letters
  | .applied letters args => letters ++ n.opening :: (renderArgs args ++ [n.closing])

def renderArgs : List (Name α) → List α
  | [] => []
  | arg :: args => render arg ++ renderMore args

/-- What follows the first argument. -/
def renderMore : List (Name α) → List α
  | [] => []
  | arg :: args => n.separator :: (render arg ++ renderMore args)

end

/-- A word of letters. -/
structure IsWord (letters : List α) : Prop where
  nonempty : letters ≠ []
  letter : ∀ a ∈ letters, n.isLetter a = true

mutual

/-- All its words are words. -/
def WellNamed : Name α → Prop
  | .word letters => IsWord n letters
  | .applied letters args => IsWord n letters ∧ AllWellNamed args

def AllWellNamed : List (Name α) → Prop
  | [] => True
  | arg :: args => WellNamed arg ∧ AllWellNamed args

end

/-- Nothing follows, or a separator or a closing bracket. -/
def Ended (rest : List α) : Prop := ∀ a, rest.head? = some a → a = n.separator ∨ a = n.closing

variable {n}

theorem intercalate_render (args : List (Name α)) :
    [n.separator].intercalate (args.map (render n)) = renderArgs n args := by
  have hmore : ∀ (arg : Name α) (args : List (Name α)),
      [n.separator].intercalate ((arg :: args).map (render n)) =
        render n arg ++ renderMore n args := by
    intro arg args
    induction args generalizing arg with
    | nil =>
      rw [List.map_singleton, List.intercalate_singleton, renderMore, List.append_nil]
    | cons next args ih =>
      rw [List.map_cons, List.map_cons, List.intercalate_cons_cons, ← List.map_cons, ih, renderMore,
        List.append_assoc, List.singleton_append]
  cases args with
  | nil => rfl
  | cons arg args => rw [hmore, renderArgs]

/-! ## Reading -/

theorem word_cancel {letters letters' rest rest' : List α}
    (hl : ∀ a ∈ letters, n.isLetter a = true) (hl' : ∀ a ∈ letters', n.isLetter a = true)
    (hr : ∀ a, rest.head? = some a → n.isLetter a = false)
    (hr' : ∀ a, rest'.head? = some a → n.isLetter a = false)
    (h : letters ++ rest = letters' ++ rest') : letters = letters' ∧ rest = rest' := by
  have hstop : ∀ {xs : List α}, (∀ a, xs.head? = some a → n.isLetter a = false) →
      xs.takeWhile n.isLetter = [] := by
    intro xs hxs
    cases xs with
    | nil => rfl
    | cons x xs => exact List.takeWhile_cons_of_neg (Bool.eq_false_iff.mp (hxs x rfl))
  have hword : letters = letters' := by
    have htake := congrArg (List.takeWhile n.isLetter) h
    rwa [List.takeWhile_append_of_pos hl, List.takeWhile_append_of_pos hl', hstop hr, hstop hr',
      List.append_nil, List.append_nil] at htake
  rw [hword] at h
  exact ⟨hword, List.append_cancel_left h⟩

theorem Ended.mark {rest : List α} (h : Ended n rest) :
    ∀ a, rest.head? = some a → n.isLetter a = false := by
  intro a ha
  rcases h a ha with rfl | rfl
  · exact n.separator_mark
  · exact n.closing_mark

theorem ended_closing (rest : List α) : Ended n (n.closing :: rest) := by
  intro a ha
  cases ha
  exact .inr rfl

theorem ended_more (args : List (Name α)) (rest : List α) :
    Ended n (renderMore n args ++ n.closing :: rest) := by
  cases args with
  | nil => exact ended_closing rest
  | cons arg args =>
    intro a ha
    cases ha
    exact .inl rfl

/-- An opening bracket does not end a name. -/
theorem not_ended_opening (rest : List α) : ¬Ended n (n.opening :: rest) := fun h =>
  (h n.opening rfl).elim n.opening_ne_separator n.opening_ne_closing

theorem opening_mark_cons (rest : List α) :
    ∀ a, (n.opening :: rest).head? = some a → n.isLetter a = false := by
  intro a ha
  cases ha
  exact n.opening_mark

theorem render_head {name : Name α} (hn : WellNamed n name) (rest : List α) :
    ∃ a, (render n name ++ rest).head? = some a ∧ n.isLetter a = true := by
  have hword : ∀ {letters : List α} (xs : List α), IsWord n letters →
      ∃ a, (letters ++ xs).head? = some a ∧ n.isLetter a = true := by
    intro letters xs h
    cases letters with
    | nil => exact absurd rfl h.nonempty
    | cons a letters => exact ⟨a, rfl, h.letter a List.mem_cons_self⟩
  cases name with
  | word letters => exact hword rest hn
  | applied letters args =>
    rw [render, List.append_assoc]
    exact hword _ hn.1

mutual

/-- A name can be read off from the beginning of a text in one way. -/
theorem render_cancel : ∀ (name other : Name α), WellNamed n name → WellNamed n other →
    ∀ rest rest', Ended n rest → Ended n rest' →
      render n name ++ rest = render n other ++ rest' → name = other ∧ rest = rest'
  | .word letters, other, hn, ho, rest, rest', hr, hr', h => by
    cases other with
    | word letters' =>
      obtain ⟨rfl, hrest⟩ := word_cancel hn.letter ho.letter hr.mark hr'.mark h
      exact ⟨rfl, hrest⟩
    | applied letters' args' =>
      rw [render, render, List.append_assoc] at h
      obtain ⟨-, hrest⟩ :=
        word_cancel hn.letter ho.1.letter hr.mark (opening_mark_cons _) h
      rw [hrest] at hr
      exact absurd hr (not_ended_opening _)
  | .applied letters args, other, hn, ho, rest, rest', hr, hr', h => by
    cases other with
    | word letters' =>
      rw [render, render, List.append_assoc] at h
      obtain ⟨-, hrest⟩ :=
        word_cancel hn.1.letter ho.letter (opening_mark_cons _) hr'.mark h
      rw [← hrest] at hr'
      exact absurd hr' (not_ended_opening _)
    | applied letters' args' =>
      rw [render, render, List.append_assoc, List.append_assoc] at h
      obtain ⟨rfl, hrest⟩ :=
        word_cancel hn.1.letter ho.1.letter (opening_mark_cons _) (opening_mark_cons _) h
      have hargs := List.tail_eq_of_cons_eq hrest
      change renderArgs n args ++ [n.closing] ++ rest =
        renderArgs n args' ++ [n.closing] ++ rest' at hargs
      rw [List.append_assoc, List.append_assoc] at hargs
      obtain ⟨rfl, hend⟩ := renderArgs_cancel args args' hn.2 ho.2 rest rest' hargs
      exact ⟨rfl, hend⟩

theorem renderArgs_cancel : ∀ (args others : List (Name α)), AllWellNamed n args →
    AllWellNamed n others → ∀ rest rest',
      renderArgs n args ++ n.closing :: rest = renderArgs n others ++ n.closing :: rest' →
        args = others ∧ rest = rest'
  | [], [], _, _, rest, rest', h => ⟨rfl, List.tail_eq_of_cons_eq h⟩
  | [], other :: others, _, ho, rest, rest', h => by
    obtain ⟨a, ha, hletter⟩ := render_head ho.1 (renderMore n others ++ n.closing :: rest')
    rw [← List.append_assoc, ← renderArgs, ← h] at ha
    cases ha
    exact absurd hletter (Bool.eq_false_iff.mp n.closing_mark)
  | arg :: args, [], hn, _, rest, rest', h => by
    obtain ⟨a, ha, hletter⟩ := render_head hn.1 (renderMore n args ++ n.closing :: rest)
    rw [← List.append_assoc, ← renderArgs, h] at ha
    cases ha
    exact absurd hletter (Bool.eq_false_iff.mp n.closing_mark)
  | arg :: args, other :: others, hn, ho, rest, rest', h => by
    rw [renderArgs, renderArgs, List.append_assoc, List.append_assoc] at h
    obtain ⟨rfl, hmore⟩ := render_cancel arg other hn.1 ho.1 _ _ (ended_more args rest)
      (ended_more others rest') h
    obtain ⟨rfl, hrest⟩ := renderMore_cancel args others hn.2 ho.2 rest rest' hmore
    exact ⟨rfl, hrest⟩

theorem renderMore_cancel : ∀ (args others : List (Name α)), AllWellNamed n args →
    AllWellNamed n others → ∀ rest rest',
      renderMore n args ++ n.closing :: rest = renderMore n others ++ n.closing :: rest' →
        args = others ∧ rest = rest'
  | [], [], _, _, rest, rest', h => ⟨rfl, List.tail_eq_of_cons_eq h⟩
  | [], other :: others, _, _, rest, rest', h =>
    absurd (List.head_eq_of_cons_eq h).symm n.separator_ne_closing
  | arg :: args, [], _, _, rest, rest', h =>
    absurd (List.head_eq_of_cons_eq h) n.separator_ne_closing
  | arg :: args, other :: others, hn, ho, rest, rest', h => by
    rw [renderMore, renderMore, List.cons_append, List.cons_append, List.append_assoc,
      List.append_assoc] at h
    obtain ⟨rfl, hmore⟩ := render_cancel arg other hn.1 ho.1 _ _ (ended_more args rest)
      (ended_more others rest') (List.tail_eq_of_cons_eq h)
    obtain ⟨rfl, hrest⟩ := renderMore_cancel args others hn.2 ho.2 rest rest' hmore
    exact ⟨rfl, hrest⟩

end

/-- Two names are written alike only if they are the same. -/
theorem render_inj {name other : Name α} (hn : WellNamed n name) (ho : WellNamed n other)
    (h : render n name = render n other) : name = other := by
  refine (render_cancel name other hn ho [] [] nofun nofun ?_).1
  rw [List.append_nil, List.append_nil, h]

end

end FalconLib.Base.Brackets
