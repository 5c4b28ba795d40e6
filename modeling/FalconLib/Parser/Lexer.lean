import Mathlib.Data.List.Basic
import Mathlib.Data.List.TakeWhile
import Mathlib.Tactic.Common

/-!
# `lexer.l`

The generated lexer takes the longest prefix that a rule matches, and of rules that match the same
the first one. Here the first characters decide which rules can match. A text is a list of bytes.
-/

namespace FalconLib.Parser.Lexer

inductive Token where
  | autotuner | routine | state | importKw | ffimport | start | terminal | ifKw | elif | elseKw
  | trueKw | falseKw | nil | struct | this
  | floatKw | intKw | boolKw | stringKw | errorKw
  | arrow | lbracket | rbracket | lbrace | rbrace | lparen | rparen | assign | comma | semicolon
  | coloncolon | dot | plus | minus | mul | div | eq | ne | ll | gg | le | ge | and | or | not
  | double (text : String)
  | integer (text : String)
  | string (value : String)
  | identifier (name : String)
deriving DecidableEq, Repr

/-- What one match of a rule takes from the text. -/
inductive Lexeme where
  | token (token : Token) (text : List Char)
  | blank (text : List Char)
  | newline
  | comment (text : List Char)
  /-- Reported and skipped. -/
  | unknown (c : Char)
deriving DecidableEq

namespace Lexeme

def text : Lexeme → List Char
  | token _ text => text
  | blank text => text
  | newline => ['\n']
  | comment text => text
  | unknown c => [c]

/-- What the parser gets. -/
def token? : Lexeme → Option Token
  | .token t _ => some t
  | _ => none

end Lexeme

/-! ## Characters -/

def isDigit (c : Char) : Bool := '0' ≤ c && c ≤ '9'

def isLetter (c : Char) : Bool := ('a' ≤ c && c ≤ 'z') || ('A' ≤ c && c ≤ 'Z') || c == '_'

def isWord (c : Char) : Bool := isLetter c || isDigit c

def isBlank (c : Char) : Bool := c == ' ' || c == '\t' || c == '\r'

/-! ## Words -/

def keywords : List (List Char × Token) :=
  [("autotuner".toList, .autotuner), ("routine".toList, .routine), ("state".toList, .state),
    ("import".toList, .importKw), ("ffimport".toList, .ffimport), ("start".toList, .start),
    ("terminal".toList, .terminal), ("if".toList, .ifKw), ("elif".toList, .elif),
    ("else".toList, .elseKw), ("true".toList, .trueKw), ("false".toList, .falseKw),
    ("nil".toList, .nil), ("struct".toList, .struct), ("this".toList, .this),
    ("float".toList, .floatKw), ("int".toList, .intKw), ("bool".toList, .boolKw),
    ("string".toList, .stringKw), ("Error".toList, .errorKw)]

/-- A keyword, or else an identifier. -/
def wordToken (word : List Char) : Token :=
  (keywords.lookup word).getD (.identifier (String.ofList word))

/-! ## Numbers -/

/-- Digits, with a point and digits after it if there is a point. -/
def mantissa (text : List Char) : List Char :=
  match text.dropWhile isDigit with
  | '.' :: rest => text.takeWhile isDigit ++ '.' :: rest.takeWhile isDigit
  | _ => text.takeWhile isDigit

def sign : List Char → List Char
  | '+' :: _ => ['+']
  | '-' :: _ => ['-']
  | _ => []

/-- The exponent, if digits follow its sign. -/
def exponent : List Char → List Char
  | [] => []
  | e :: rest =>
    let digits := (rest.drop (sign rest).length).takeWhile isDigit
    if (e == 'e' || e == 'E') && !digits.isEmpty then e :: (sign rest ++ digits) else []

def number (text : List Char) : Lexeme :=
  let mantissa := mantissa text
  let exponent := exponent (text.drop mantissa.length)
  let whole := mantissa ++ exponent
  if exponent.isEmpty && !mantissa.contains '.' then .token (.integer (String.ofList whole)) whole
  else .token (.double (String.ofList whole)) whole

/-! ## Operators and strings -/

/-- Those of two characters come first. -/
def operators : List (List Char × Token) :=
  [(['-', '>'], .arrow), ([':', ':'], .coloncolon), (['=', '='], .eq), (['!', '='], .ne),
    (['<', '='], .le), (['>', '='], .ge), (['&', '&'], .and), (['|', '|'], .or),
    (['['], .lbracket), ([']'], .rbracket), (['{'], .lbrace), (['}'], .rbrace), (['('], .lparen),
    ([')'], .rparen), (['='], .assign), ([','], .comma), ([';'], .semicolon), (['.'], .dot),
    (['+'], .plus), (['-'], .minus), (['*'], .mul), (['/'], .div), (['<'], .ll), (['>'], .gg),
    (['!'], .not)]

def operator (c : Char) (rest : List Char) : Lexeme :=
  match operators.find? fun operator => operator.1.isPrefixOf (c :: rest) with
  | some (text, token) => .token token text
  | none => .unknown c

/-- From quote to quote, over the ends of lines; a backslash stands for itself. -/
def stringLiteral (rest : List Char) : Lexeme :=
  let value := rest.takeWhile (· ≠ '"')
  if '"' ∈ rest then .token (.string (String.ofList value)) ('"' :: (value ++ ['"']))
  else .unknown '"'

/-! ## Texts -/

def next (c : Char) (rest : List Char) : Lexeme :=
  if isLetter c then
    let word := (c :: rest).takeWhile isWord
    .token (wordToken word) word
  else if isDigit c || (c == '.' && rest.head?.any isDigit) then number (c :: rest)
  else if c = '"' then stringLiteral rest
  else if isBlank c then .blank ((c :: rest).takeWhile isBlank)
  else if c = '\n' then .newline
  else if c = '/' ∧ rest.head? = some '/' then .comment ((c :: rest).takeWhile (· ≠ '\n'))
  else operator c rest

def lexFuel : Nat → List Char → List Lexeme
  | _, [] => []
  | 0, _ => []
  | fuel + 1, c :: rest =>
    next c rest :: lexFuel fuel ((c :: rest).drop (next c rest).text.length)

/-- The whole text, lexeme by lexeme. -/
def lex (text : List Char) : List Lexeme := lexFuel text.length text

def tokens (text : List Char) : List Token := (lex text).filterMap Lexeme.token?


/-! ## Every match is a prefix -/

theorem append_isPrefix {a b text : List Char} (ha : a <+: text) (hb : b <+: text.drop a.length) :
    a ++ b <+: text := by
  obtain ⟨after, rfl⟩ := ha
  rw [List.drop_left] at hb
  exact (List.prefix_append_right_inj a).mpr hb

theorem mantissa_isPrefix (text : List Char) : mantissa text <+: text := by
  have hsplit := List.takeWhile_append_dropWhile (p := isDigit) (l := text)
  unfold mantissa
  split
  · next rest hdrop =>
    rw [hdrop] at hsplit
    conv_rhs => rw [← hsplit]
    exact (List.prefix_append_right_inj _).mpr
      ((List.prefix_cons_inj '.').mpr ( List.takeWhile_prefix isDigit))
  · exact List.takeWhile_prefix isDigit

theorem sign_isPrefix (text : List Char) : sign text <+: text := by
  unfold sign
  split
  · exact ⟨_, rfl⟩
  · exact ⟨_, rfl⟩
  · exact List.nil_prefix

theorem exponent_isPrefix (text : List Char) : exponent text <+: text := by
  cases text with
  | nil => exact List.nil_prefix
  | cons e rest =>
    unfold exponent
    dsimp only
    split_ifs
    · exact (List.prefix_cons_inj e).mpr
        (append_isPrefix (sign_isPrefix rest) ( List.takeWhile_prefix isDigit))
    · exact List.nil_prefix

theorem number_text (text : List Char) :
    (number text).text = mantissa text ++ exponent (text.drop (mantissa text).length) := by
  unfold number
  dsimp only
  split_ifs <;> rfl

theorem operator_isPrefix (c : Char) (rest : List Char) : (operator c rest).text <+: c :: rest := by
  unfold operator
  split
  · next text token hfind =>
    have htext := List.find?_some hfind
    exact List.isPrefixOf_iff_prefix.mp htext
  · exact ⟨rest, rfl⟩

theorem stringLiteral_of_mem {value rest : List Char} (hvalue : '"' ∉ value) :
    stringLiteral (value ++ '"' :: rest) =
      .token (.string (String.ofList value)) ('"' :: (value ++ ['"'])) := by
  have htake : (value ++ '"' :: rest).takeWhile (· ≠ '"') = value := by
    rw [List.takeWhile_append_of_pos]
    · simp
    · intro c hc
      exact decide_eq_true fun he => hvalue (he ▸ hc)
  unfold stringLiteral
  rw [if_pos (List.mem_append_right _ List.mem_cons_self), htake]

theorem stringLiteral_isPrefix (rest : List Char) : (stringLiteral rest).text <+: '"' :: rest := by
  by_cases hquote : '"' ∈ rest
  · obtain ⟨value, after, rfl, hvalue⟩ := List.eq_append_cons_of_mem hquote
    rw [stringLiteral_of_mem hvalue]
    exact ⟨after, by simp [Lexeme.text]⟩
  · unfold stringLiteral
    rw [if_neg hquote]
    exact ⟨rest, rfl⟩

theorem next_isPrefix (c : Char) (rest : List Char) : (next c rest).text <+: c :: rest := by
  unfold next
  dsimp only
  split_ifs with hletter hdigit hquote hblank hnewline hcomment
  · exact List.takeWhile_prefix isWord
  · rw [number_text]
    exact append_isPrefix (mantissa_isPrefix _) (exponent_isPrefix _)
  · rw [hquote]
    exact stringLiteral_isPrefix rest
  · exact List.takeWhile_prefix isBlank
  · rw [hnewline]
    exact ⟨rest, rfl⟩
  · exact List.takeWhile_prefix _
  · exact operator_isPrefix c rest

theorem mantissa_ne_nil {c : Char} {rest : List Char}
    (h : isDigit c = true ∨ c = '.') : mantissa (c :: rest) ≠ [] := by
  unfold mantissa
  rcases h with hdigit | rfl
  · rw [List.takeWhile_cons_of_pos hdigit]
    split <;> exact List.cons_ne_nil _ _
  · exact List.cons_ne_nil _ _

theorem operators_ne_nil : ∀ operator ∈ operators, operator.1 ≠ [] := by decide

theorem next_ne_nil (c : Char) (rest : List Char) : (next c rest).text ≠ [] := by
  unfold next
  dsimp only
  split_ifs with hletter hdigit hquote hblank hnewline hcomment
  · have hword : isWord c = true := by
      unfold isWord
      rw [hletter, Bool.true_or]
    change (c :: rest).takeWhile isWord ≠ []
    rw [List.takeWhile_cons_of_pos hword]
    exact List.cons_ne_nil _ _
  · rw [number_text]
    refine List.append_ne_nil_of_left_ne_nil (mantissa_ne_nil ?_) _
    rcases Bool.or_eq_true_iff.mp hdigit with hd | hd
    · exact .inl hd
    · exact .inr (beq_iff_eq.mp (Bool.and_eq_true_iff.mp hd).1)
  · unfold stringLiteral
    dsimp only
    split_ifs <;> exact List.cons_ne_nil _ _
  · change (c :: rest).takeWhile isBlank ≠ []
    rw [List.takeWhile_cons_of_pos hblank]
    exact List.cons_ne_nil _ _
  · exact List.cons_ne_nil _ _
  · have hc : decide (c ≠ '\n') = true := decide_eq_true (by rw [hcomment.1]; decide)
    change (c :: rest).takeWhile (fun x => decide (x ≠ '\n')) ≠ []
    rw [List.takeWhile_cons, if_pos hc]
    exact List.cons_ne_nil _ _
  · unfold operator
    split
    · next text token hfind => exact operators_ne_nil _ (List.mem_of_find?_eq_some hfind)
    · exact List.cons_ne_nil _ _

/-! ## The lexemes of a text -/

theorem length_drop_next (c : Char) (rest : List Char) :
    ((c :: rest).drop (next c rest).text.length).length ≤ rest.length := by
  have hpos := List.length_pos_iff.mpr (next_ne_nil c rest)
  rw [List.length_drop, List.length_cons]
  omega

theorem lexFuel_eq_lexFuel {fuel fuel' : Nat} {text : List Char} (h : text.length ≤ fuel)
    (h' : text.length ≤ fuel') : lexFuel fuel text = lexFuel fuel' text := by
  induction fuel generalizing fuel' text with
  | zero =>
    rw [List.length_eq_zero_iff.mp (Nat.le_zero.mp h)]
    cases fuel' <;> rfl
  | succ fuel ih =>
    cases text with
    | nil => cases fuel' <;> rfl
    | cons c rest =>
      cases fuel' with
      | zero => exact absurd h' (Nat.not_succ_le_zero _)
      | succ fuel' =>
        have hshort := length_drop_next c rest
        exact congrArg (next c rest :: ·) (ih (Nat.le_trans hshort (Nat.le_of_succ_le_succ h))
          (Nat.le_trans hshort (Nat.le_of_succ_le_succ h')))

@[simp] theorem lex_nil : lex [] = [] := rfl

theorem lex_cons (c : Char) (rest : List Char) :
    lex (c :: rest) = next c rest :: lex ((c :: rest).drop (next c rest).text.length) :=
  congrArg (next c rest :: ·) (lexFuel_eq_lexFuel (length_drop_next c rest) (Nat.le_refl _))

/-- What holds of the empty text and passes from what a lexeme leaves to the whole. -/
theorem lex_induction {P : List Char → Prop} (nil : P [])
    (cons : ∀ c rest, P ((c :: rest).drop (next c rest).text.length) → P (c :: rest))
    (text : List Char) : P text := by
  have hall : ∀ fuel text, text.length ≤ fuel → P text := by
    intro fuel
    induction fuel with
    | zero =>
      intro text h
      rw [List.length_eq_zero_iff.mp (Nat.le_zero.mp h)]
      exact nil
    | succ fuel ih =>
      intro text h
      cases text with
      | nil => exact nil
      | cons c rest =>
        exact cons c rest (ih _ (Nat.le_trans (length_drop_next c rest) (Nat.le_of_succ_le_succ h)))
  exact hall text.length text (Nat.le_refl _)

def render (xs : List Lexeme) : List Char := xs.flatMap Lexeme.text

@[simp] theorem render_nil : render [] = [] := rfl

@[simp] theorem render_cons (x : Lexeme) (xs : List Lexeme) :
    render (x :: xs) = x.text ++ render xs := List.flatMap_cons

@[simp] theorem render_append (xs ys : List Lexeme) :
    render (xs ++ ys) = render xs ++ render ys := List.flatMap_append

/-- Nothing is lost between two lexemes. -/
theorem next_append_drop (c : Char) (rest : List Char) :
    (next c rest).text ++ (c :: rest).drop (next c rest).text.length = c :: rest :=
  List.prefix_iff_eq_append.mp (next_isPrefix c rest)

theorem render_lex (text : List Char) : render (lex text) = text := by
  induction text using lex_induction with
  | nil => rfl
  | cons c rest ih => rw [lex_cons, render_cons, ih, next_append_drop]

/-- The lexemes after some lexeme are those of the text that they take. -/
theorem lex_render_of_append {text : List Char} {xs ys : List Lexeme} (h : lex text = xs ++ ys) :
    lex (render ys) = ys := by
  induction text using lex_induction generalizing xs with
  | nil =>
    obtain ⟨-, rfl⟩ := List.append_eq_nil_iff.mp h.symm
    rfl
  | cons c rest ih =>
    cases xs with
    | nil =>
      rw [List.nil_append] at h
      rw [← h, render_lex]
    | cons x xs =>
      rw [lex_cons, List.cons_append] at h
      exact ih (List.cons.inj h).2

/-! ## The texts of tokens -/

def numberMarks : List Char := ['.', 'e', 'E', '+', '-']

/-- A minus sign in a number stands in an exponent, before a digit. -/
structure NumberText (text : List Char) : Prop where
  chars : ∀ c ∈ text, isDigit c = true ∨ c ∈ numberMarks
  minus : '-' ∉ text ∨ ∃ before digit digits, text = before ++ '-' :: digit :: digits ∧
    '-' ∉ before ∧ isDigit digit = true ∧ '-' ∉ digit :: digits

inductive TokenText : Token → List Char → Prop where
  | word {c : Char} {cs : List Char} (first : isLetter c = true)
      (others : ∀ x ∈ cs, isWord x = true) : TokenText (wordToken (c :: cs)) (c :: cs)
  | number {token : Token} {text : List Char}
      (kind : token = .integer (String.ofList text) ∨ token = .double (String.ofList text))
      (chars : NumberText text) : TokenText token text
  | string {value : List Char} (inside : '"' ∉ value) :
      TokenText (.string (String.ofList value)) ('"' :: (value ++ ['"']))
  | operator {token : Token} {text : List Char} (listed : (text, token) ∈ operators) :
      TokenText token text

theorem mantissa_chars {text : List Char} {c : Char} (h : c ∈ mantissa text) :
    isDigit c = true ∨ c = '.' := by
  unfold mantissa at h
  split at h
  · rcases List.mem_append.mp h with h | h
    · exact .inl (List.mem_takeWhile_imp h)
    · rcases List.mem_cons.mp h with rfl | h
      · exact .inr rfl
      · exact .inl (List.mem_takeWhile_imp h)
  · exact .inl (List.mem_takeWhile_imp h)

theorem sign_chars (text : List Char) : sign text = [] ∨ sign text = ['+'] ∨ sign text = ['-'] := by
  unfold sign
  split
  · exact .inr (.inl rfl)
  · exact .inr (.inr rfl)
  · exact .inl rfl

theorem exponent_shape (text : List Char) : exponent text = [] ∨ ∃ e sign digit digits,
    exponent text = e :: (sign ++ digit :: digits) ∧ (e = 'e' ∨ e = 'E') ∧
      (sign = [] ∨ sign = ['+'] ∨ sign = ['-']) ∧ isDigit digit = true ∧
      ∀ c ∈ digits, isDigit c = true := by
  cases text with
  | nil => exact .inl rfl
  | cons e rest =>
    unfold exponent
    dsimp only
    split_ifs with h
    · obtain ⟨he, hdigits⟩ := Bool.and_eq_true_iff.mp h
      cases htake : (rest.drop (sign rest).length).takeWhile isDigit with
      | nil =>
        rw [htake] at hdigits
        cases hdigits
      | cons digit digits =>
        have hall : ∀ c ∈ digit :: digits, isDigit c = true := by
          intro c hc
          rw [← htake] at hc
          exact List.mem_takeWhile_imp hc
        refine .inr ⟨e, sign rest, digit, digits, rfl, ?_, sign_chars rest,
          hall digit List.mem_cons_self, fun c hc => hall c (List.mem_cons_of_mem _ hc)⟩
        rcases Bool.or_eq_true_iff.mp he with he | he
        · exact .inl (beq_iff_eq.mp he)
        · exact .inr (beq_iff_eq.mp he)
    · exact .inl rfl

theorem not_mem_of_digits {c : Char} {text : List Char} (hc : isDigit c = false)
    (h : ∀ x ∈ text, isDigit x = true) : c ∉ text := by
  intro hmem
  rw [h c hmem] at hc
  cases hc

theorem numberText_number (text : List Char) : NumberText (number text).text := by
  rw [number_text]
  have hmantissa : ∀ c ∈ mantissa text, isDigit c = true ∨ c ∈ numberMarks := by
    intro c hc
    rcases mantissa_chars hc with hdigit | rfl
    · exact .inl hdigit
    · exact .inr (by decide)
  have hminus : '-' ∉ mantissa text := by
    intro hc
    rcases mantissa_chars hc with hdigit | hdot
    · cases hdigit
    · cases hdot
  generalize mantissa text = m at hmantissa hminus ⊢
  rcases exponent_shape (text.drop m.length) with hnil | ⟨e, sign, digit, digits, hshape, he,
    hsign, hdigit, hdigits⟩
  · rw [hnil, List.append_nil]
    exact ⟨hmantissa, .inl hminus⟩
  rw [hshape]
  have hall : ∀ c ∈ digit :: digits, isDigit c = true := by
    intro c hc
    rcases List.mem_cons.mp hc with rfl | hc
    · exact hdigit
    · exact hdigits c hc
  have hnone : '-' ∉ digit :: digits := not_mem_of_digits (by decide) hall
  constructor
  · intro c hc
    rcases List.mem_append.mp hc with hc | hc
    · exact hmantissa c hc
    rcases List.mem_cons.mp hc with rfl | hc
    · rcases he with rfl | rfl
      · exact .inr (by decide)
      · exact .inr (by decide)
    rcases List.mem_append.mp hc with hc | hc
    · rcases hsign with rfl | rfl | rfl
      · cases hc
      · exact .inr (List.mem_singleton.mp hc ▸ by decide)
      · exact .inr (List.mem_singleton.mp hc ▸ by decide)
    · exact .inl (hall c hc)
  · have hbefore : '-' ∉ m ++ [e] := by
      rintro hc
      rcases List.mem_append.mp hc with hc | hc
      · exact hminus hc
      · rcases he with rfl | rfl <;> cases List.mem_singleton.mp hc
    have hnone' : ∀ sign, '-' ∉ sign → '-' ∉ m ++ e :: (sign ++ digit :: digits) := by
      intro sign hsign hc
      rw [List.append_cons] at hc
      rcases List.mem_append.mp hc with hc | hc
      · exact hbefore hc
      · rcases List.mem_append.mp hc with hc | hc
        · exact hsign hc
        · exact hnone hc
    rcases hsign with rfl | rfl | rfl
    · exact .inl (hnone' [] (by decide))
    · exact .inl (hnone' ['+'] (by decide))
    · exact .inr ⟨m ++ [e], digit, digits, by simp, hbefore, hdigit, hnone⟩

theorem NumberText.afterMinus {text a b : List Char} (h : NumberText text)
    (heq : text = a ++ '-' :: b) : ∃ digit digits, b = digit :: digits ∧ isDigit digit = true := by
  rcases h.minus with hnone | ⟨before, digit, digits, htext, hbefore, hdigit, hafter⟩
  · exact absurd (heq ▸ List.mem_append_right a List.mem_cons_self) hnone
  · rw [htext] at heq
    obtain ⟨-, -, rfl⟩ := (List.append_cons_inj_of_notMem hbefore hafter).mp heq
    exact ⟨digit, digits, rfl, hdigit⟩

theorem number_token (text : List Char) : ∃ token, number text = .token token (number text).text ∧
    (token = .integer (String.ofList (number text).text) ∨
      token = .double (String.ofList (number text).text)) := by
  rw [number_text]
  unfold number
  dsimp only
  split_ifs
  · exact ⟨_, rfl, .inl rfl⟩
  · exact ⟨_, rfl, .inr rfl⟩

theorem tokenText_next {c : Char} {rest : List Char} {token : Token} {text : List Char}
    (h : next c rest = .token token text) : TokenText token text := by
  unfold next at h
  dsimp only at h
  split_ifs at h with hletter hdigit hquote hblank hnewline hcomment
  · have hword : isWord c = true := Bool.or_eq_true_iff.mpr (.inl hletter)
    rw [List.takeWhile_cons_of_pos hword] at h
    cases h
    exact .word hletter fun x hx => List.mem_takeWhile_imp hx
  · obtain ⟨kind, hnumber, hkind⟩ := number_token (c :: rest)
    have hchars := numberText_number (c :: rest)
    rw [hnumber] at h
    cases h
    exact .number hkind hchars
  · by_cases hmem : '"' ∈ rest
    · obtain ⟨value, after, rfl, hvalue⟩ := List.eq_append_cons_of_mem hmem
      rw [stringLiteral_of_mem hvalue] at h
      cases h
      exact .string hvalue
    · unfold stringLiteral at h
      rw [if_neg hmem] at h
      cases h
  · unfold operator at h
    split at h
    · next hfind =>
      cases h
      exact .operator (List.mem_of_find?_eq_some hfind)
    · cases h

end FalconLib.Parser.Lexer
