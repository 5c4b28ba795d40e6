import FalconLib.Parser.Spelling
import FalconLib.Parser.Syntax

/-!
# Locations of tokens

What the lexer's counters give each token for a location. The scanner counts the lines of a match
before the user action looks at the counter, and only the rule for a newline starts a new column.
Columns are counted in bytes, from one.
-/

namespace FalconLib.Parser.Lexer

open Spelling

/-! ## The counters -/

structure Counters where
  yylineno : Nat := 1
  yycolumn : Nat := 1
deriving DecidableEq

/-- The scanner has added the newlines of the match to `yylineno` by then. -/
def Counters.lineAfter (s : Counters) (x : Lexeme) : Nat := s.yylineno + x.text.count '\n'

/-- `YY_USER_ACTION` sets the location. -/
def Counters.span (s : Counters) (x : Lexeme) : Span where
  firstLine := s.lineAfter x
  firstColumn := s.yycolumn
  lastLine := s.lineAfter x
  lastColumn := s.yycolumn + x.text.length - 1

/-- What `YY_USER_ACTION` and the action of the rule leave. -/
def Counters.next (s : Counters) (x : Lexeme) : Counters where
  yylineno := s.lineAfter x
  yycolumn := if x = .newline then 1 else s.yycolumn + x.text.length

/-- The lexemes with their locations. -/
def locate : Counters → List Lexeme → List (Lexeme × Span)
  | _, [] => []
  | s, x :: xs => (x, s.span x) :: locate (s.next x) xs

/-! ## Places in a text -/

/-- The counters as they should be behind a text. -/
def place (before : List Char) : Counters where
  yylineno := 1 + before.count '\n'
  yycolumn := 1 + (before.reverse.takeWhile (· ≠ '\n')).length

/-- The location begins behind the text. -/
def BeginsAt (span : Span) (before : List Char) : Prop :=
  span.firstLine = (place before).yylineno ∧ span.firstColumn = (place before).yycolumn

/-- Each token among the lexemes begins where its location says; `before` stands in front of all. -/
def LocatedFrom (s : Counters) (before : List Char) (xs : List Lexeme) : Prop :=
  ∀ i x span, (locate s xs)[i]? = some (x, span) → x.token?.isSome = true →
    BeginsAt span (before ++ render (xs.take i))

/-- The locations of a text's tokens. -/
def Located (text : List Char) : Prop := LocatedFrom {} [] (lex text)

/-- The newlines of a lexeme are the rule for newlines' own. -/
def Whole (x : Lexeme) : Prop := x = .newline ∨ '\n' ∉ x.text

theorem place_newline (before : List Char) : place (before ++ ['\n']) =
    ⟨1 + before.count '\n' + 1, 1⟩ := by
  unfold place
  rw [List.reverse_append, List.count_append]
  rfl

theorem place_append {text : List Char} (h : '\n' ∉ text) (before : List Char) :
    place (before ++ text) = ⟨(place before).yylineno, (place before).yycolumn + text.length⟩ := by
  have hall : ∀ c ∈ text.reverse, decide (c ≠ '\n') = true := fun c hc =>
    decide_eq_true fun heq => h (heq ▸ List.mem_reverse.mp hc)
  unfold place
  rw [List.count_append, List.count_eq_zero.mpr h, List.reverse_append,
    List.takeWhile_append_of_pos hall, List.length_append, List.length_reverse]
  rw [Counters.mk.injEq]
  dsimp only
  omega

/-- A lexeme that is whole moves the counters on as they should be. -/
theorem next_place {x : Lexeme} (h : Whole x) (before : List Char) :
    (place before).next x = place (before ++ x.text) := by
  unfold Counters.next Counters.lineAfter
  obtain rfl | hnone := h
  · rw [if_pos rfl]
    change _ = place (before ++ ['\n'])
    rw [place_newline]
    rfl
  · have hne : x ≠ .newline := by
      rintro rfl
      exact hnone List.mem_cons_self
    rw [if_neg hne, List.count_eq_zero.mpr hnone, place_append hnone]
    rfl

theorem beginsAt_iff (x : Lexeme) (before : List Char) :
    BeginsAt ((place before).span x) before ↔ '\n' ∉ x.text := by
  unfold BeginsAt Counters.span Counters.lineAfter
  rw [and_iff_left rfl, ← List.count_eq_zero]
  dsimp only
  omega

theorem locatedFrom_nil (s : Counters) (before : List Char) : LocatedFrom s before [] := by
  intro i x span h
  cases h

/-- The first lexeme, and those behind it. -/
theorem locatedFrom_cons (s : Counters) (before : List Char) (x : Lexeme) (xs : List Lexeme) :
    LocatedFrom s before (x :: xs) ↔
      (x.token?.isSome = true → BeginsAt (s.span x) before) ∧
        LocatedFrom (s.next x) (before ++ x.text) xs := by
  constructor
  · intro h
    refine ⟨fun htoken => ?_, fun i y span hy htoken => ?_⟩
    · have hfirst := h 0 x (s.span x) rfl htoken
      rwa [List.take_zero, render_nil, List.append_nil] at hfirst
    · have hlater := h (i + 1) y span hy htoken
      rwa [List.take_succ_cons, render_cons, ← List.append_assoc] at hlater
  · rintro ⟨hfirst, hlater⟩ i y span hy htoken
    cases i with
    | zero =>
      cases hy
      rw [List.take_zero, render_nil, List.append_nil]
      exact hfirst htoken
    | succ i =>
      rw [List.take_succ_cons, render_cons, ← List.append_assoc]
      exact hlater i y span hy htoken

/-- From a right start, the locations are right as long as every token is whole. -/
theorem locatedFrom_iff {xs : List Lexeme} (hxs : ∀ x ∈ xs, x.token? = none → Whole x)
    (before : List Char) : LocatedFrom (place before) before xs ↔
      ∀ x ∈ xs, x.token?.isSome = true → '\n' ∉ x.text := by
  induction xs generalizing before with
  | nil => exact ⟨fun _ => nofun, fun _ => locatedFrom_nil _ _⟩
  | cons x xs ih =>
    have hrest : ∀ y ∈ xs, y.token? = none → Whole y := fun y hy =>
      hxs y (List.mem_cons_of_mem x hy)
    rw [locatedFrom_cons, List.forall_mem_cons, beginsAt_iff]
    refine and_congr_right fun hfirst => ?_
    have hwhole : Whole x := by
      cases htoken : x.token? with
      | none => exact hxs x List.mem_cons_self htoken
      | some token => exact .inr (hfirst (by rw [htoken]; rfl))
    rw [next_place hwhole]
    exact ih hrest _

/-! ## Newlines in tokens -/

theorem whole_of_not_token {c : Char} {rest : List Char} (h : (next c rest).token? = none) :
    Whole (next c rest) := by
  obtain ⟨token, text, hnext⟩ | ⟨text, hnext, hblank⟩ | ⟨hnext, -⟩ | ⟨text, hnext, htext⟩ |
    ⟨hnext, -⟩ := next_cases c rest
  · rw [hnext] at h
    cases h
  · rw [hnext]
    exact .inr fun hmem => absurd (hblank '\n' hmem) (by decide)
  · rw [hnext]
    exact .inl rfl
  · rw [hnext]
    refine .inr fun hmem => ?_
    change '\n' ∈ '/' :: '/' :: text at hmem
    rw [htext] at hmem
    exact absurd (List.mem_takeWhile_imp hmem) (by decide)
  · rw [hnext]
    refine .inr fun hmem => ?_
    obtain rfl := List.mem_singleton.mp hmem
    have hnewline : next '\n' rest = .newline := rfl
    rw [hnewline] at hnext
    cases hnext

theorem newline_not_word : isWord '\n' = false := by decide

theorem operators_no_newline : ∀ operator ∈ operators, '\n' ∉ operator.1 := by decide

/-- Only a string literal goes over the end of a line. -/
theorem newline_mem_iff {token : Token} {text : List Char} (h : TokenText token text) :
    '\n' ∈ text ↔ ∃ value, token = .string value ∧ '\n' ∈ value.toList := by
  constructor
  · intro hmem
    cases h with
    | @word c cs first others =>
      have hword : isWord '\n' = true := by
        obtain heq | htail := List.mem_cons.mp hmem
        · rw [heq]
          exact isWord_of_isLetter first
        · exact others _ htail
      rw [newline_not_word] at hword
      cases hword
    | number _ chars =>
      obtain hdigit | hmark := chars.chars _ hmem
      · exact absurd hdigit (by decide)
      · exact absurd hmark (by decide)
    | @string value inside =>
      refine ⟨_, rfl, ?_⟩
      rw [String.toList_ofList]
      simpa using hmem
    | operator listed => exact absurd hmem (operators_no_newline _ listed)
  · rintro ⟨value, rfl, hmem⟩
    generalize htoken : Token.string value = token at h
    cases h with
    | @word c cs first others =>
      have hword := wordToken_isWordToken (c :: cs)
      rw [← htoken] at hword
      cases hword
    | number kind _ =>
      subst htoken
      obtain hkind | hkind := kind <;> cases hkind
    | string inside =>
      cases htoken
      rw [String.toList_ofList] at hmem
      exact List.mem_cons_of_mem _ (List.mem_append_left _ hmem)
    | operator listed =>
      have htext := operators_not_hasText _ listed
      rw [← htoken] at htext
      cases htext

/-- The locations of a text are right exactly when no string literal goes over the end of a line. -/
theorem located_iff (text : List Char) :
    Located text ↔ ∀ value, .string value ∈ tokens text → '\n' ∉ value.toList := by
  have hnext : ∀ x ∈ lex text, ∃ c rest, next c rest = x := by
    intro x hx
    obtain ⟨before, after, hsplit⟩ := List.append_of_mem hx
    obtain ⟨c, rest, hx, -⟩ := exists_next_of_mem hsplit
    exact ⟨c, rest, hx⟩
  have hwhole : ∀ x ∈ lex text, x.token? = none → Whole x := by
    intro x hx htoken
    obtain ⟨c, rest, rfl⟩ := hnext x hx
    exact whole_of_not_token htoken
  have htext : ∀ token text', .token token text' ∈ lex text → TokenText token text' := by
    intro token text' hx
    obtain ⟨c, rest, hx⟩ := hnext _ hx
    exact tokenText_next hx
  have hlocated : Located text ↔ ∀ x ∈ lex text, x.token?.isSome = true → '\n' ∉ x.text :=
    locatedFrom_iff hwhole []
  rw [hlocated]
  constructor
  · intro h value hvalue hmem
    obtain ⟨x, hx, htoken⟩ := List.mem_filterMap.mp hvalue
    cases x with
    | token token text' =>
      cases htoken
      exact h _ hx rfl ((newline_mem_iff (htext _ _ hx)).mpr ⟨value, rfl, hmem⟩)
    | blank _ | newline | comment _ | unknown _ => cases htoken
  · intro h x hx htoken hmem
    cases x with
    | token token text' =>
      obtain ⟨value, rfl, hvalue⟩ := (newline_mem_iff (htext _ _ hx)).mp hmem
      exact h value (List.mem_filterMap.mpr ⟨_, hx, rfl⟩) hvalue
    | blank _ | newline | comment _ | unknown _ => cases htoken

/-- A string of two lines, which begins on the first. -/
theorem not_located_twoLines : ¬ Located "\"a\nb\" x".toList := by
  rw [located_iff]
  intro h
  exact h "a\nb" (by decide) (by decide)

end FalconLib.Parser.Lexer
