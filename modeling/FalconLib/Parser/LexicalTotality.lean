import FalconLib.Parser.Compiler
import FalconLib.Parser.TokenLocations

/-!
# Characters that start no token

The last rule of the lexer prints a character that no other rule takes, and goes on behind it. The
parser gets neither a token nor an error, so such a character does not keep a file from being
accepted.
-/

namespace FalconLib.Parser

open Lexer Spelling

/-! ## The rules for tokens -/

/-- Digits, with or without a point. -/
inductive Mantissa : List Char → Prop where
  | whole {digits : List Char} : digits ≠ [] → (∀ c ∈ digits, isDigit c = true) → Mantissa digits
  | point {digits fraction : List Char} : digits ≠ [] ∨ fraction ≠ [] →
      (∀ c ∈ digits, isDigit c = true) → (∀ c ∈ fraction, isDigit c = true) →
      Mantissa (digits ++ '.' :: fraction)

/-- `[eE][+-]?[0-9]+` -/
def IsExponent (text : List Char) : Prop :=
  ∃ e sign digits, text = e :: (sign ++ digits) ∧ e ∈ ['e', 'E'] ∧ sign ∈ [[], ['+'], ['-']] ∧
    digits ≠ [] ∧ ∀ c ∈ digits, isDigit c = true

/-- A rule that makes a token matches the text. -/
inductive TokenRule : List Char → Prop where
  | word {c : Char} {cs : List Char} : isLetter c = true → (∀ x ∈ cs, isWord x = true) →
      TokenRule (c :: cs)
  | number {mantissa : List Char} : Mantissa mantissa → TokenRule mantissa
  | scientific {mantissa exponent : List Char} : Mantissa mantissa → IsExponent exponent →
      TokenRule (mantissa ++ exponent)
  | string {value : List Char} : '"' ∉ value → TokenRule ('"' :: (value ++ ['"']))
  | operator {text : List Char} {token : Token} : (text, token) ∈ operators → TokenRule text

/-- No rule for a token matches at the front of the text. -/
def StartsNoToken (text : List Char) : Prop := ∀ matched, TokenRule matched → ¬ matched <+: text

/-- The lexer comes to a character that starts no token and is no white space. A comment begins
with a slash, which is a token. -/
def Stray (text : List Char) : Prop :=
  ∃ before after c rest, lex text = before ++ after ∧ render after = c :: rest ∧
    isBlank c = false ∧ c ≠ '\n' ∧ StartsNoToken (c :: rest)

/-! ## Where no token starts -/

theorem Mantissa.front {mantissa : List Char} (h : Mantissa mantissa) {c : Char}
    {rest : List Char} (hstarts : mantissa <+: c :: rest) :
    (isDigit c || (c == '.' && rest.head?.any isDigit)) = true := by
  rw [Bool.or_eq_true]
  cases h with
  | whole hne hdigits =>
    obtain ⟨d, ds, rfl⟩ := List.exists_cons_of_ne_nil hne
    obtain ⟨rfl, -⟩ := List.cons_prefix_cons.mp hstarts
    exact .inl (hdigits d List.mem_cons_self)
  | @point digits fraction hne hdigits hfraction =>
    cases digits with
    | cons d ds =>
      obtain ⟨rfl, -⟩ := List.cons_prefix_cons.mp hstarts
      exact .inl (hdigits d List.mem_cons_self)
    | nil =>
      obtain ⟨f, fs, rfl⟩ := List.exists_cons_of_ne_nil (hne.resolve_left fun h => h rfl)
      obtain ⟨rfl, hrest⟩ := List.cons_prefix_cons.mp hstarts
      obtain ⟨after, rfl⟩ := hrest
      exact .inr (hfraction f List.mem_cons_self)

theorem operators_not_quote : ∀ operator ∈ operators, operator.1.head? ≠ some '"' := by decide

theorem startsNoToken_iff {c : Char} {rest : List Char} : StartsNoToken (c :: rest) ↔
    isLetter c = false ∧ (isDigit c || (c == '.' && rest.head?.any isDigit)) = false ∧
      (c = '"' → '"' ∉ rest) ∧ ∀ operator ∈ operators, ¬ operator.1 <+: c :: rest := by
  constructor
  · intro h
    refine ⟨Bool.eq_false_iff.mpr fun hletter => ?_, Bool.eq_false_iff.mpr fun hdigit => ?_, ?_, ?_⟩
    · exact h [c] (.word hletter nofun) ⟨rest, rfl⟩
    · obtain hdigit | hpoint := Bool.or_eq_true_iff.mp hdigit
      · refine h [c] (.number (.whole (List.cons_ne_nil c []) ?_)) ⟨rest, rfl⟩
        exact List.forall_mem_singleton.mpr hdigit
      · obtain ⟨hc, hhead⟩ := Bool.and_eq_true_iff.mp hpoint
        obtain rfl := beq_iff_eq.mp hc
        obtain ⟨d, hd, hdigit⟩ := (Option.any_eq_true _ _).mp hhead
        obtain ⟨after, rfl⟩ := List.head?_eq_some_iff.mp hd
        have hmantissa : Mantissa ([] ++ '.' :: [d]) :=
          .point (.inr (List.cons_ne_nil d [])) nofun (List.forall_mem_singleton.mpr hdigit)
        exact h _ (.number hmantissa) ⟨after, rfl⟩
    · rintro rfl hquote
      obtain ⟨value, after, rfl, hvalue⟩ := List.eq_append_cons_of_mem hquote
      exact h _ (.string hvalue) ⟨after, by simp⟩
    · exact fun operator hmem => h operator.1 (.operator hmem)
  · rintro ⟨hletter, hdigit, hquote, hoperator⟩ matched hrule hstarts
    cases hrule with
    | word hc _ =>
      obtain ⟨rfl, -⟩ := List.cons_prefix_cons.mp hstarts
      rw [hletter] at hc
      cases hc
    | number hmantissa =>
      rw [hmantissa.front hstarts] at hdigit
      cases hdigit
    | scientific hmantissa _ =>
      rw [hmantissa.front ((List.prefix_append _ _).trans hstarts)] at hdigit
      cases hdigit
    | string hvalue =>
      obtain ⟨rfl, hrest⟩ := List.cons_prefix_cons.mp hstarts
      obtain ⟨after, rfl⟩ := hrest
      exact hquote rfl (by simp)
    | operator hmem => exact hoperator _ hmem hstarts

/-- The last rule takes what starts no token and is no white space. -/
theorem next_unknown_iff {c : Char} {rest : List Char} : next c rest = .unknown c ↔
    isBlank c = false ∧ c ≠ '\n' ∧ StartsNoToken (c :: rest) := by
  rw [startsNoToken_iff]
  constructor
  · intro h
    unfold next at h
    dsimp only at h
    split_ifs at h with hletter hdigit hquote hblank hnewline hcomment
    · obtain ⟨token, hnumber, -⟩ := number_token (c :: rest)
      rw [hnumber] at h
      cases h
    · subst hquote
      have hnone : '"' ∉ rest := by
        intro hmem
        unfold stringLiteral at h
        rw [if_pos hmem] at h
        cases h
      refine ⟨rfl, by decide, rfl, rfl, fun _ => hnone, fun operator hmem hstarts => ?_⟩
      have hhead := operators_not_quote operator hmem
      have hne := operators_ne_nil operator hmem
      obtain ⟨d, ds, heq⟩ := List.exists_cons_of_ne_nil hne
      rw [heq] at hstarts hhead
      obtain ⟨rfl, -⟩ := List.cons_prefix_cons.mp hstarts
      exact hhead rfl
    · refine ⟨Bool.eq_false_iff.mpr hblank, hnewline, Bool.eq_false_iff.mpr hletter,
        Bool.eq_false_iff.mpr hdigit, fun hc => absurd hc hquote, fun operator hmem hstarts => ?_⟩
      unfold Lexer.operator at h
      split at h
      · cases h
      · next hfind =>
        exact absurd (List.isPrefixOf_iff_prefix.mpr hstarts) (List.find?_eq_none.mp hfind _ hmem)
  · rintro ⟨hblank, hnewline, hletter, hdigit, hquote, hoperator⟩
    unfold next
    dsimp only
    rw [hletter, hdigit, if_neg Bool.false_ne_true, if_neg Bool.false_ne_true]
    by_cases hc : c = '"'
    · subst hc
      unfold stringLiteral
      rw [if_pos rfl, if_neg (hquote rfl)]
    · have hcomment : ¬ (c = '/' ∧ rest.head? = some '/') := by
        rintro ⟨rfl, -⟩
        exact hoperator (['/'], .div) (by decide) ⟨rest, rfl⟩
      rw [if_neg hc, hblank, if_neg Bool.false_ne_true, if_neg hnewline, if_neg hcomment]
      unfold Lexer.operator
      split
      · next hfind =>
        have hfound := List.find?_some hfind
        exact absurd (List.isPrefixOf_iff_prefix.mp hfound)
          (hoperator _ (List.mem_of_find?_eq_some hfind))
      · rfl

theorem stray_iff (text : List Char) : Stray text ↔ ∃ c, .unknown c ∈ lex text := by
  constructor
  · rintro ⟨before, after, c, rest, hlex, hrender, hstray⟩
    have hafter : lex (c :: rest) = after := by
      rw [← hrender]
      exact lex_render_of_append hlex
    rw [lex_cons, next_unknown_iff.mpr hstray] at hafter
    refine ⟨c, ?_⟩
    rw [hlex, ← hafter]
    exact List.mem_append_right before List.mem_cons_self
  · rintro ⟨c, hmem⟩
    obtain ⟨before, after, hlex⟩ := List.append_of_mem hmem
    obtain ⟨d, rest, hnext, htext⟩ := exists_next_of_mem hlex
    obtain rfl : d = c := (List.cons.inj htext).1
    exact ⟨before, .unknown d :: after, d, rest, hlex, htext.symm, next_unknown_iff.mp hnext⟩

/-! ## Acceptance -/

/-- What the generated parser derives from the tokens, and where it leaves the grammar. -/
abbrev Grammar := List (Token × Span) → ProgramSyntax × Option Stop

/-- The tokens that the parser gets, with their locations. -/
def locatedTokens (text : List Char) : List (Token × Span) :=
  (Lexer.locate {} (lex text)).filterMap fun entry => entry.1.token?.map (·, entry.2)

/-- A file as `parse_file` finds it: its name, and the tables and hints of the process. -/
structure Setting where
  grammar : Grammar
  tables : Tables
  hints : Finset String
  filename : String
  stem : String

/-- The parse of a sequence of tokens ends without an exception. -/
def Setting.Parses (setting : Setting) (tokens : List (Token × Span)) : Prop :=
  (parseFile setting.tables setting.hints
    { filename := setting.filename
      stem := setting.stem
      derivation := (setting.grammar tokens).1
      stop := (setting.grammar tokens).2 }).1.program.isSome = true

def Setting.Accepts (setting : Setting) (text : List Char) : Prop :=
  setting.Parses (locatedTokens text)

/-- Each character is part of a token, of white space or of a comment. -/
def Covered (text : List Char) : Prop :=
  ∀ left c right, text = left ++ c :: right → ∃ before x after a b,
    lex text = before ++ x :: after ∧ x.text = a ++ c :: b ∧ left = render before ++ a ∧
      ∀ d, x ≠ .unknown d

structure LexicallyTotal (setting : Setting) (text : List Char) : Prop where
  covered : setting.Accepts text → Covered text
  rejected : Stray text → ¬ setting.Accepts text

/-- A place lies in one lexeme only. -/
theorem lexeme_unique {before before' after after' : List Lexeme} {x y : Lexeme} {a b : List Char}
    {c : Char} (h : before ++ x :: after = before' ++ y :: after') (hx : x.text = a ++ c :: b)
    (hy : y.text ≠ []) (hplace : render before ++ a = render before') : x = y := by
  obtain ⟨between, rfl, htail⟩ | ⟨between, rfl, htail⟩ := List.append_eq_append_iff.mp h
  · cases between with
    | nil =>
      rw [List.nil_append] at htail
      exact (List.cons.inj htail).1
    | cons z between =>
      obtain ⟨rfl, -⟩ := List.cons.inj htail
      rw [render_append, render_cons, hx] at hplace
      have hlength := congrArg List.length hplace
      simp only [List.length_append, List.length_cons] at hlength
      omega
  · cases between with
    | nil =>
      rw [List.nil_append] at htail
      exact (List.cons.inj htail).1.symm
    | cons z between =>
      obtain ⟨rfl, -⟩ := List.cons.inj htail
      rw [render_append, render_cons] at hplace
      have hlength := congrArg List.length hplace
      have hpos := List.length_pos_of_ne_nil hy
      simp only [List.length_append] at hlength
      omega

theorem covered_iff (text : List Char) : Covered text ↔ ¬ Stray text := by
  rw [stray_iff]
  constructor
  · rintro h ⟨c, hmem⟩
    obtain ⟨before, after, hlex⟩ := List.append_of_mem hmem
    have htext : text = render before ++ c :: render after := by
      rw [← render_lex text, hlex, render_append, render_cons]
      rfl
    obtain ⟨before', x, after', a, b, hlex', hx, hplace, hnot⟩ := h _ _ _ htext
    rw [hlex] at hlex'
    exact hnot c (lexeme_unique hlex'.symm hx (List.cons_ne_nil c []) hplace.symm)
  · intro hnone left c right htext
    have hrender : render (lex text) = left ++ c :: right := by rw [render_lex, htext]
    obtain ⟨before, x, after, a, b, hlex, hx, hb, hleft, hright⟩ :=
      exists_lexeme_at hrender (List.cons_ne_nil c right)
    obtain ⟨d, b, rfl⟩ := List.exists_cons_of_ne_nil hb
    obtain ⟨rfl, -⟩ := List.cons.inj hright
    refine ⟨before, x, after, a, b, hlex, hx, hleft, fun e he => hnone ⟨e, ?_⟩⟩
    rw [hlex, he]
    exact List.mem_append_right before List.mem_cons_self

end FalconLib.Parser
