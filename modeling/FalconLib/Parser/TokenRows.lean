import FalconLib.Parser.Spelling
import Mathlib.Tactic.FinCases

/-!
# Rows of tokens

Which rows the lexer makes of a text. Each token can be written so that it is read back in front of
a blank, so a row is one of the lexer's if and only if each of its tokens is.
-/

namespace FalconLib.Parser.TokenRows

open Lexer
open Spelling

/-- The text is a number of this kind in front of a blank. -/
def IsNumber (kind : String → Token) (text : String) : Prop :=
  ∀ rest, ReadAs (kind text) text.toList (' ' :: rest)

/-- The tokens of the lexer. -/
def Lexical : Token → Prop
  | .identifier name => IsIdentifier name.toList
  | .integer text => IsNumber .integer text
  | .double text => IsNumber .double text
  | .string value => '"' ∉ value.toList
  | _ => True

/-- How a token is written. -/
def spell : Token → List Char
  | .identifier name => name.toList
  | .integer text => text.toList
  | .double text => text.toList
  | .string value => '"' :: (value.toList ++ ['"'])
  | token => (((keywords ++ operators).find? fun entry => entry.2 == token).map Prod.fst).getD []

/-- The tokens with a blank behind each. -/
def write (row : List Token) : List Char := row.flatMap fun token => spell token ++ [' ']

/-! ## What is written is read back -/

theorem readAs_keywords {word : List Char} {token : Token} (h : (word, token) ∈ keywords)
    (rest : List Char) : ReadAs token word (' ' :: rest) := by
  have hwords : ∀ keyword ∈ keywords, wordToken keyword.1 = keyword.2 := by decide
  obtain ⟨c, hhead, hletter⟩ := keywords_letters _ h
  obtain ⟨cs, rfl⟩ := List.head?_eq_some_iff.mp hhead
  rw [readAs_word (keywords_isWordToken _ h)]
  exact ⟨c, cs, rfl, hletter, fun x hx => keywords_words _ h x (List.mem_cons_of_mem c hx),
    hwords _ h, rfl⟩

theorem next_operators : ∀ operator ∈ operators, ∀ rest, ∃ c cs, operator.1 = c :: cs ∧
    next c (cs ++ ' ' :: rest) = .token operator.2 operator.1 := by
  intro operator h
  fin_cases h <;> exact fun rest => ⟨_, _, rfl, rfl⟩

theorem readAs_operators {word : List Char} {token : Token} (h : (word, token) ∈ operators)
    (rest : List Char) : ReadAs token word (' ' :: rest) := by
  obtain ⟨c, cs, hword, hnext⟩ := next_operators _ h rest
  dsimp only at hword hnext
  subst hword
  unfold ReadAs
  rw [lex_append (by rw [hnext]; rfl), hnext]

theorem readAs_string {value : String} (h : '"' ∉ value.toList) (rest : List Char) :
    ReadAs (.string value) ('"' :: (value.toList ++ ['"'])) rest := by
  have hnext : next '"' ((value.toList ++ ['"']) ++ rest) =
      .token (.string value) ('"' :: (value.toList ++ ['"'])) := by
    change stringLiteral _ = _
    rw [List.append_assoc, List.cons_append, List.nil_append, stringLiteral_of_mem h,
      String.ofList_toList]
  unfold ReadAs
  rw [lex_append (by rw [hnext]; rfl), hnext]

theorem readAs_spell {token : Token} (h : Lexical token) (rest : List Char) :
    ReadAs token (spell token) (' ' :: rest) := by
  cases token with
  | identifier name =>
    rw [readAs_identifier]
    exact ⟨(String.ofList_toList).symm, h, rfl⟩
  | integer text => exact h rest
  | double text => exact h rest
  | string value => exact readAs_string h _
  | autotuner | routine | state | importKw | ffimport | start | terminal | ifKw | elif | elseKw
  | trueKw | falseKw | nil | struct | this | floatKw | intKw | boolKw | stringKw | errorKw =>
    exact readAs_keywords (by decide) rest
  | _ => exact readAs_operators (by decide) rest

theorem tokens_write {row : List Token} (h : ∀ token ∈ row, Lexical token) :
    tokens (write row) = row := by
  induction row with
  | nil => rfl
  | cons token row ih =>
    have hrow := ih fun t ht => h t (List.mem_cons_of_mem _ ht)
    have hread := readAs_spell (h token List.mem_cons_self) (write row)
    have hends : Ends isSpace (write row) := by
      cases row with
      | nil => rfl
      | cons t row =>
        have hnext := (readAs_spell (h t (by simp)) (write row)).ends_isSpace
        change Ends isSpace ((spell t ++ [' ']) ++ write row)
        rw [List.append_assoc]
        exact hnext
    have hspaces : IsSpaces [' '] := by simp [IsSpaces, isSpace]
    have hblank : tokens (' ' :: write row) = tokens (write row) := tokens_spaces hspaces hends
    change tokens ((spell token ++ [' ']) ++ write row) = _
    rw [List.append_assoc, List.cons_append, List.nil_append, hread.tokens, hblank, hrow]

/-! ## Numbers -/

theorem takeWhile_append_head {p : Char → Bool} {run rest : List Char}
    (hrun : ∀ c ∈ run, p c = true) (hrest : ∀ c ∈ rest.head?, p c = false) :
    (run ++ rest).takeWhile p = run ∧ (run ++ rest).dropWhile p = rest := by
  have hends : Ends p rest := by
    cases rest with
    | nil => rfl
    | cons c rest => exact hrest c rfl
  have htake := takeWhile_run hrun hends
  refine ⟨htake, ?_⟩
  have hsplit := List.takeWhile_append_dropWhile (p := p) (l := run ++ rest)
  rw [htake] at hsplit
  exact List.append_cancel_left hsplit

/-- Digits, or digits with a point in or before them. -/
def IsMantissa (m : List Char) : Prop :=
  ∃ digits, (∀ c ∈ digits, isDigit c = true) ∧ (m = digits ∨
    ∃ decimals, (∀ c ∈ decimals, isDigit c = true) ∧ m = digits ++ '.' :: decimals)

theorem isMantissa_mantissa (text : List Char) : IsMantissa (mantissa text) := by
  have hdigits : ∀ (text : List Char), ∀ c ∈ text.takeWhile isDigit, isDigit c = true :=
    fun _ _ hc => List.mem_takeWhile_imp hc
  refine ⟨text.takeWhile isDigit, hdigits text, ?_⟩
  unfold mantissa
  split
  · rename_i rest _
    exact .inr ⟨rest.takeWhile isDigit, hdigits rest, rfl⟩
  · exact .inl rfl

/-- A mantissa is read up to what is neither a digit nor a point. -/
theorem mantissa_append {m rest : List Char} (hm : IsMantissa m)
    (hrest : ∀ c ∈ rest.head?, isDigit c = false ∧ c ≠ '.') : mantissa (m ++ rest) = m := by
  obtain ⟨digits, hdigits, rfl | ⟨decimals, hdecimals, rfl⟩⟩ := hm
  · obtain ⟨htake, hdrop⟩ := takeWhile_append_head hdigits fun c hc => (hrest c hc).1
    unfold mantissa
    rw [htake, hdrop]
    split
    · exact absurd rfl (hrest '.' rfl).2
    · rfl
  · have hpoint : ∀ c ∈ ('.' :: (decimals ++ rest)).head?, isDigit c = false := by
      rintro c hc
      cases hc
      rfl
    obtain ⟨htake, hdrop⟩ := takeWhile_append_head hdigits hpoint
    obtain ⟨htake', -⟩ := takeWhile_append_head hdecimals fun c hc => (hrest c hc).1
    rw [List.append_assoc, List.cons_append]
    unfold mantissa
    simp only [htake, hdrop, htake']

theorem exponent_blank (rest : List Char) : exponent (' ' :: rest) = [] := by
  simp [exponent]

/-- An exponent is read up to a blank. -/
theorem exponent_append (text rest : List Char) :
    exponent (exponent text ++ ' ' :: rest) = exponent text := by
  obtain hnil | ⟨e, sgn, digit, digits, hshape, he, hsgn, hdigit, hdigits⟩ := exponent_shape text
  · rw [hnil]
    exact exponent_blank rest
  · rw [hshape]
    have hsign : sign (sgn ++ digit :: digits ++ ' ' :: rest) = sgn := by
      obtain rfl | rfl | rfl := hsgn
      · unfold sign
        split
        · rename_i heq
          cases heq
          exact absurd hdigit (by decide)
        · rename_i heq
          cases heq
          exact absurd hdigit (by decide)
        · rfl
      · rfl
      · rfl
    have hall : ∀ c ∈ digit :: digits, isDigit c = true := List.forall_mem_cons.mpr ⟨hdigit, hdigits⟩
    have hblank : ∀ c ∈ (' ' :: rest).head?, isDigit c = false := by
      rintro c hc
      cases hc
      rfl
    obtain ⟨htake, -⟩ := takeWhile_append_head hall hblank
    have hdrop : (sgn ++ digit :: digits ++ ' ' :: rest).drop sgn.length =
        digit :: digits ++ ' ' :: rest := by
      rw [List.append_assoc, List.drop_left]
    change exponent (e :: (sgn ++ digit :: digits ++ ' ' :: rest)) = _
    unfold exponent
    dsimp only
    rw [hsign, hdrop, htake]
    obtain rfl | rfl := he <;> rfl

/-- A number is the same in front of a blank. -/
theorem number_append_blank (text rest : List Char) :
    number ((number text).text ++ ' ' :: rest) = number text := by
  have hm := isMantissa_mantissa text
  have he := exponent_append (text.drop (mantissa text).length) rest
  have hhead : ∀ c ∈ (exponent (text.drop (mantissa text).length) ++ ' ' :: rest).head?,
      isDigit c = false ∧ c ≠ '.' := by
    obtain hnil | ⟨e, sgn, digit, digits, hshape, hletter, -⟩ :=
      exponent_shape (text.drop (mantissa text).length)
    · rw [hnil]
      rintro c hc
      cases hc
      decide
    · rw [hshape]
      rintro c hc
      cases hc
      obtain rfl | rfl := hletter <;> decide
  rw [number_text, List.append_assoc]
  have hmantissa := mantissa_append hm hhead
  unfold number
  dsimp only
  rw [hmantissa, List.drop_left, he]

/-! ## What is read can be written -/

/-- The condition under which a number begins. -/
def startsNumber (c : Char) (rest : List Char) : Bool :=
  isDigit c || (c == '.' && rest.head?.any isDigit)

theorem startsNumber_append_blank {c : Char} {cs cs' rest : List Char}
    (h : startsNumber c cs = true) (hword : (number (c :: cs)).text = c :: cs') :
    startsNumber c (cs' ++ ' ' :: rest) = true := by
  unfold startsNumber at h ⊢
  cases hdigit : isDigit c with
  | true => rfl
  | false =>
    rw [hdigit, Bool.false_or] at h
    rw [Bool.false_or]
    obtain ⟨hdot, hhead⟩ := Bool.and_eq_true_iff.mp h
    obtain rfl := beq_iff_eq.mp hdot
    cases cs with
    | nil => cases hhead
    | cons d ds =>
      have hd : isDigit d = true := hhead
      have hmantissa : mantissa ('.' :: d :: ds) = '.' :: (d :: ds).takeWhile isDigit := rfl
      rw [number_text, hmantissa, List.takeWhile_cons_of_pos hd] at hword
      simp only [List.cons_append, List.cons.injEq, true_and] at hword
      subst hword
      simp [hd]

theorem not_isLetter_of_startsNumber {c : Char} {rest : List Char}
    (h : startsNumber c rest = true) : isLetter c = false := by
  unfold startsNumber at h
  refine Bool.eq_false_iff.mpr fun hletter => ?_
  obtain hdigit | hdot := Bool.or_eq_true_iff.mp h
  · unfold isLetter at hletter
    unfold isDigit at hdigit
    simp only [Bool.or_eq_true, Bool.and_eq_true, decide_eq_true_eq, beq_iff_eq] at hletter hdigit
    obtain ⟨hlow, hhigh⟩ := hdigit
    obtain (⟨ha, -⟩ | ⟨ha, -⟩) | rfl := hletter
    · exact absurd (Char.le_trans ha hhigh) (by decide)
    · exact absurd (Char.le_trans ha hhigh) (by decide)
    · exact absurd hhigh (by decide)
  · obtain rfl := beq_iff_eq.mp (Bool.and_eq_true_iff.mp hdot).1
    cases hletter

theorem next_of_startsNumber {c : Char} {rest : List Char} (h : startsNumber c rest = true) :
    next c rest = number (c :: rest) := by
  have hletter := not_isLetter_of_startsNumber h
  unfold startsNumber at h
  unfold next
  simp [hletter, h]

theorem isNumber_of_number {c : Char} {cs : List Char} (hstarts : startsNumber c cs = true)
    {token : Token} {word : List Char} (h : number (c :: cs) = .token token word)
    (rest : List Char) : ReadAs token word (' ' :: rest) := by
  have htext : (number (c :: cs)).text = word := by
    rw [h]
    rfl
  have hne : word ≠ [] := by
    rw [← htext, number_text]
    refine List.append_ne_nil_of_left_ne_nil (mantissa_ne_nil ?_) _
    unfold startsNumber at hstarts
    simp only [Bool.or_eq_true, Bool.and_eq_true, beq_iff_eq] at hstarts
    exact hstarts.imp_right And.left
  obtain ⟨c', cs', rfl⟩ := List.exists_cons_of_ne_nil hne
  have hpre := next_isPrefix c cs
  rw [next_of_startsNumber hstarts, htext] at hpre
  obtain ⟨rfl, -⟩ := List.cons_prefix_cons.mp hpre
  have hnumber := number_append_blank (c' :: cs) rest
  rw [htext, h] at hnumber
  have hnext : next c' (cs' ++ ' ' :: rest) = .token token (c' :: cs') := by
    rw [next_of_startsNumber (startsNumber_append_blank hstarts htext), ← List.cons_append]
    exact hnumber
  unfold ReadAs
  rw [lex_append (by rw [hnext]; rfl), hnext]

theorem lexical_of_not_hasText {token : Token} (h : hasText token = false) : Lexical token := by
  cases token with
  | identifier name => cases h
  | integer text => cases h
  | double text => cases h
  | string value => cases h
  | _ => trivial

theorem lexical_wordToken {c : Char} {cs : List Char} (hc : isLetter c = true)
    (hcs : ∀ x ∈ cs, isWord x = true) : Lexical (wordToken (c :: cs)) := by
  obtain hlisted | ⟨-, hname⟩ := wordToken_cases (c :: cs)
  · exact lexical_of_not_hasText (keywords_not_hasText _ hlisted)
  · have hread : ReadAs (.identifier (String.ofList (c :: cs))) (c :: cs) [] :=
      (readAs_word rfl).mpr ⟨c, cs, rfl, hc, hcs, hname, rfl⟩
    obtain ⟨-, hidentifier, -⟩ := readAs_identifier.mp hread
    rw [hname]
    change IsIdentifier _
    rw [String.toList_ofList]
    exact hidentifier

theorem lexical_of_number {c : Char} {cs : List Char} (hstarts : startsNumber c cs = true)
    {token : Token} {word : List Char} (h : number (c :: cs) = .token token word) :
    Lexical token := by
  have hread := isNumber_of_number hstarts h
  have hword : (String.ofList word).toList = word := String.toList_ofList
  obtain ⟨kind, hnumber, hkind⟩ := number_token (c :: cs)
  rw [h, Lexeme.text] at hnumber hkind
  cases hnumber
  obtain rfl | rfl := hkind
  · show IsNumber _ _
    rw [IsNumber, hword]
    exact hread
  · show IsNumber _ _
    rw [IsNumber, hword]
    exact hread

/-- What the lexer reads somewhere is one of its tokens. -/
theorem lexical_of_next {c : Char} {cs : List Char} {token : Token} {word : List Char}
    (h : next c cs = .token token word) : Lexical token := by
  unfold next at h
  dsimp only at h
  split_ifs at h with hletter hstarts hquote hblank hnewline hcomment
  · cases h
    rw [List.takeWhile_cons_of_pos (isWord_of_isLetter hletter)]
    exact lexical_wordToken hletter fun x hx => List.mem_takeWhile_imp hx
  · exact lexical_of_number hstarts h
  · by_cases hmem : '"' ∈ cs
    · obtain ⟨value, after, rfl, hvalue⟩ := List.eq_append_cons_of_mem hmem
      rw [stringLiteral_of_mem hvalue] at h
      cases h
      show '"' ∉ _
      rw [String.toList_ofList]
      exact hvalue
    · unfold stringLiteral at h
      rw [if_neg hmem] at h
      cases h
  · unfold operator at h
    split at h
    · rename_i hfind
      cases h
      exact lexical_of_not_hasText (operators_not_hasText _ (List.mem_of_find?_eq_some hfind))
    · cases h

theorem lexical_of_mem_tokens {text : List Char} {token : Token} (h : token ∈ tokens text) :
    Lexical token := by
  induction text using lex_induction with
  | nil => cases h
  | cons c rest ih =>
    unfold tokens at h ih
    rw [lex_cons, List.filterMap_cons] at h
    split at h
    · exact ih h
    · rename_i found hfound
      obtain rfl | h := List.mem_cons.mp h
      · cases hnext : next c rest with
        | token found word =>
          rw [hnext] at hfound
          cases hfound
          exact lexical_of_next hnext
        | _ =>
          rw [hnext] at hfound
          cases hfound
      · exact ih h

/-- The rows of tokens that texts have are those of the lexer's tokens. -/
theorem exists_tokens_iff (row : List Token) :
    (∃ text, tokens text = row) ↔ ∀ token ∈ row, Lexical token := by
  constructor
  · rintro ⟨text, rfl⟩ token h
    exact lexical_of_mem_tokens h
  · intro h
    exact ⟨write row, tokens_write h⟩

end FalconLib.Parser.TokenRows
