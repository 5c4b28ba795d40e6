import FalconLib.Base.Words
import FalconLib.Parser.Lexer

/-!
# Tokens with white space between them

What a search of the raw text can see of the tokens: those that stand in a row with only white
space between them, where no comment hides them.
-/

namespace FalconLib.Parser.Spelling

open FalconLib.Base.Words (takeWhile_append_stop)
open Lexer

/-- `\s`: more than the lexer's own blanks. -/
def isSpace (c : Char) : Bool :=
  c == ' ' || c == '\t' || c == '\n' || c == '\x0b' || c == '\x0c' || c == '\r'

def IsSpaces (text : List Char) : Prop := ∀ c ∈ text, isSpace c = true

/-- The text does not go on with a character for which `p` holds. -/
def Ends (p : Char → Bool) (rest : List Char) : Prop := rest.head?.any p = false

/-- The lexemes begin with these tokens, in this order, but for white space. -/
def Row : List Token → List Lexeme → Prop
  | [], _ => True
  | token :: tokens, xs => ∃ blanks text rest, xs = blanks ++ .token token text :: rest ∧
      (∀ x ∈ blanks, IsSpaces x.text) ∧ Row tokens rest

/-! ## Words -/

theorem takeWhile_append_of_ends {p : Char → Bool} {rest : List Char} (hrest : Ends p rest)
    (text : List Char) : (text ++ rest).takeWhile p = text.takeWhile p := by
  refine takeWhile_append_stop fun c hc => ?_
  unfold Ends at hrest
  rw [hc] at hrest
  exact hrest

theorem takeWhile_run {p : Char → Bool} {run rest : List Char} (hrun : ∀ c ∈ run, p c = true)
    (hrest : Ends p rest) : (run ++ rest).takeWhile p = run := by
  rw [takeWhile_append_of_ends hrest]
  exact List.takeWhile_eq_self_iff.mpr hrun

theorem ends_of_takeWhile {p : Char → Bool} {run rest : List Char}
    (h : (run ++ rest).takeWhile p = run) : Ends p rest := by
  have hrun : ∀ c ∈ run, p c = true := by
    intro c hc
    rw [← h] at hc
    exact List.mem_takeWhile_imp hc
  rw [List.takeWhile_append_of_pos hrun] at h
  have hnil := List.append_right_eq_self.mp h
  cases rest with
  | nil => rfl
  | cons c rest =>
    refine Bool.eq_false_iff.mpr fun (hc : p c = true) => ?_
    rw [List.takeWhile_cons_of_pos hc] at hnil
    cases hnil

theorem lex_append {c : Char} {cs rest : List Char} (h : (next c (cs ++ rest)).text = c :: cs) :
    lex (c :: cs ++ rest) = next c (cs ++ rest) :: lex rest := by
  rw [List.cons_append, lex_cons, h]
  exact congrArg (fun text => next c (cs ++ rest) :: lex text) List.drop_left

theorem isWord_of_isLetter {c : Char} (h : isLetter c = true) : isWord c = true :=
  Bool.or_eq_true_iff.mpr (.inl h)

theorem next_of_isLetter {c : Char} (h : isLetter c = true) (rest : List Char) :
    next c rest = .token (wordToken ((c :: rest).takeWhile isWord)) ((c :: rest).takeWhile isWord) :=
  if_pos h

theorem lex_word {c : Char} {cs rest : List Char} (hc : isLetter c = true)
    (hcs : ∀ x ∈ cs, isWord x = true) (hrest : Ends isWord rest) :
    lex (c :: cs ++ rest) = .token (wordToken (c :: cs)) (c :: cs) :: lex rest := by
  have hall : ∀ x ∈ c :: cs, isWord x = true := by
    intro x hx
    rcases List.mem_cons.mp hx with rfl | hx
    · exact isWord_of_isLetter hc
    · exact hcs x hx
  have hnext : next c (cs ++ rest) = .token (wordToken (c :: cs)) (c :: cs) := by
    rw [next_of_isLetter hc, ← List.cons_append, takeWhile_run hall hrest]
  rw [lex_append (by rw [hnext]; rfl), hnext]

/-! ## White space -/

theorem isSpace_cases {c : Char} (h : isSpace c = true) :
    isBlank c = true ∨ c = '\n' ∨ c = '\x0b' ∨ c = '\x0c' := by
  unfold isSpace at h
  unfold isBlank
  simp only [Bool.or_eq_true, beq_iff_eq] at h ⊢
  tauto

theorem isSpace_of_isBlank {c : Char} (h : isBlank c = true) : isSpace c = true := by
  unfold isBlank at h
  unfold isSpace
  simp only [Bool.or_eq_true, beq_iff_eq] at h ⊢
  tauto

theorem next_of_isBlank {c : Char} (h : isBlank c = true) (rest : List Char) :
    next c rest = .blank ((c :: rest).takeWhile isBlank) := by
  unfold isBlank at h
  simp only [Bool.or_eq_true, beq_iff_eq] at h
  rcases h with (rfl | rfl) | rfl <;> rfl

theorem Ends.mono {p q : Char → Bool} {rest : List Char} (h : Ends q rest)
    (hpq : ∀ c, p c = true → q c = true) : Ends p rest := by
  cases rest with
  | nil => rfl
  | cons c rest => exact Bool.eq_false_iff.mpr fun hc => Bool.eq_false_iff.mp h (hpq c hc)

theorem next_of_isSpace {c : Char} {rest : List Char} (cs : List Char) (hc : isSpace c = true)
    (hrest : Ends isSpace rest) :
    ∃ left, c :: cs = (next c (cs ++ rest)).text ++ left := by
  rcases isSpace_cases hc with hblank | rfl | rfl | rfl
  · refine ⟨(c :: cs).dropWhile isBlank, ?_⟩
    rw [next_of_isBlank hblank, ← List.cons_append,
      takeWhile_append_of_ends (hrest.mono fun _ => isSpace_of_isBlank)]
    exact List.takeWhile_append_dropWhile.symm
  · exact ⟨cs, rfl⟩
  · exact ⟨cs, rfl⟩
  · exact ⟨cs, rfl⟩

theorem not_isWord_of_isSpace {c : Char} (h : isSpace c = true) : isWord c = false := by
  unfold isSpace at h
  simp only [Bool.or_eq_true, beq_iff_eq] at h
  rcases h with ((((rfl | rfl) | rfl) | rfl) | rfl) | rfl <;> decide

theorem next_token?_of_isSpace {c : Char} (hc : isSpace c = true) (rest : List Char) :
    (next c rest).token? = none := by
  rcases isSpace_cases hc with hblank | rfl | rfl | rfl
  · rw [next_of_isBlank hblank]
    rfl
  · rfl
  · rfl
  · rfl

theorem lex_spaces {spaces rest : List Char} (hspaces : IsSpaces spaces)
    (hrest : Ends isSpace rest) :
    ∃ blanks, (∀ x ∈ blanks, x.token? = none ∧ IsSpaces x.text) ∧
      lex (spaces ++ rest) = blanks ++ lex rest := by
  induction hlen : spaces.length using Nat.strongRec generalizing spaces with
  | ind n ih =>
    subst hlen
    cases spaces with
    | nil => exact ⟨[], nofun, rfl⟩
    | cons c cs =>
      obtain ⟨left, hleft⟩ := next_of_isSpace cs (hspaces c List.mem_cons_self) hrest
      have hused := next_ne_nil c (cs ++ rest)
      have hdrop : (c :: (cs ++ rest)).drop (next c (cs ++ rest)).text.length = left ++ rest := by
        rw [← List.cons_append]
        conv_lhs => rw [hleft, List.append_assoc, List.drop_left]
      have hlt : left.length < (c :: cs).length := by
        rw [hleft, List.length_append]
        exact Nat.lt_add_of_pos_left (List.length_pos_iff.mpr hused)
      have hin : IsSpaces left := fun x hx => hspaces x (hleft ▸ List.mem_append_right _ hx)
      obtain ⟨blanks, hblanks, hlex⟩ := ih left.length hlt hin rfl
      refine ⟨next c (cs ++ rest) :: blanks, ?_, ?_⟩
      · intro x hx
        rcases List.mem_cons.mp hx with rfl | hx
        · exact ⟨next_token?_of_isSpace (hspaces c List.mem_cons_self) _,
            fun y hy => hspaces y (hleft ▸ List.mem_append_left _ hy)⟩
        · exact hblanks x hx
      · rw [List.cons_append, lex_cons, hdrop, hlex]
        rfl

/-! ## Rows -/

/-- The token is read here from this text. -/
def ReadAs (token : Token) (word rest : List Char) : Prop :=
  lex (word ++ rest) = .token token word :: lex rest

theorem ReadAs.next {token : Token} {word rest : List Char} (h : ReadAs token word rest) :
    ∃ c cs, word ++ rest = c :: cs ∧ Lexer.next c cs = .token token word := by
  unfold ReadAs at h
  cases htext : word ++ rest with
  | nil =>
    rw [htext] at h
    cases h
  | cons c cs =>
    rw [htext, lex_cons] at h
    exact ⟨c, cs, rfl, (List.cons.inj h).1⟩

theorem ReadAs.tokenText {token : Token} {word rest : List Char} (h : ReadAs token word rest) :
    TokenText token word := by
  obtain ⟨c, cs, -, hnext⟩ := h.next
  exact tokenText_next hnext

theorem ReadAs.ends_isSpace {token : Token} {word rest : List Char} (h : ReadAs token word rest) :
    Ends isSpace (word ++ rest) := by
  obtain ⟨c, cs, htext, hnext⟩ := h.next
  rw [htext]
  refine Bool.eq_false_iff.mpr fun (hc : isSpace c = true) => ?_
  have hnone := next_token?_of_isSpace hc cs
  rw [hnext] at hnone
  cases hnone

theorem ReadAs.tokens {token : Token} {word rest : List Char} (h : ReadAs token word rest) :
    Lexer.tokens (word ++ rest) = token :: Lexer.tokens rest := by
  unfold Lexer.tokens
  rw [h]
  rfl

theorem tokens_spaces {spaces rest : List Char} (hspaces : IsSpaces spaces)
    (hrest : Ends isSpace rest) : tokens (spaces ++ rest) = tokens rest := by
  obtain ⟨blanks, hblanks, hlex⟩ := lex_spaces hspaces hrest
  unfold tokens
  rw [hlex, List.filterMap_append, List.filterMap_eq_nil_iff.mpr fun x hx => (hblanks x hx).1,
    List.nil_append]

theorem row_cons {token : Token} {tokens : List Token} {text : List Char} :
    Row (token :: tokens) (lex text) ↔ ∃ spaces word rest, text = spaces ++ (word ++ rest) ∧
      IsSpaces spaces ∧ ReadAs token word rest ∧ Row tokens (lex rest) := by
  constructor
  · rintro ⟨blanks, word, after, hlex, hblanks, hrow⟩
    have hsplit : lex text = (blanks ++ [.token token word]) ++ after := by
      rw [hlex, List.append_assoc]
      rfl
    have hafter := lex_render_of_append hsplit
    have htoken := lex_render_of_append hlex
    refine ⟨render blanks, word, render after, ?_, ?_, ?_, ?_⟩
    · rw [← render_lex text, hlex, render_append, render_cons]
      rfl
    · intro c hc
      obtain ⟨x, hx, hcx⟩ := List.mem_flatMap.mp hc
      exact hblanks x hx c hcx
    · unfold ReadAs
      rw [hafter]
      exact htoken
    · rw [hafter]
      exact hrow
  · rintro ⟨spaces, word, rest, rfl, hspaces, hword, hrow⟩
    obtain ⟨blanks, hblanks, hlex⟩ := lex_spaces hspaces hword.ends_isSpace
    exact ⟨blanks, word, lex rest, by rw [hlex, hword], fun x hx => (hblanks x hx).2, hrow⟩

/-- The text of a row begins with its tokens. -/
theorem Row.isPrefix_tokens {row : List Token} {text : List Char} (h : Row row (lex text)) :
    row <+: tokens text := by
  induction row generalizing text with
  | nil => exact List.nil_prefix
  | cons token row ih =>
    obtain ⟨spaces, word, rest, rfl, hspaces, hword, hrow⟩ := row_cons.mp h
    rw [tokens_spaces hspaces hword.ends_isSpace, hword.tokens]
    exact (List.prefix_cons_inj token).mpr (ih hrow)

/-! ## The spelling of each token -/

def isWordToken : Token → Bool
  | .identifier _ => true
  | token => (keywords.map Prod.snd).contains token

theorem lookup_mem {word : List Char} {token : Token} (h : keywords.lookup word = some token) :
    (word, token) ∈ keywords := by
  obtain ⟨before, after, heq, -⟩ := List.lookup_eq_some_iff.mp h
  rw [heq]
  exact List.mem_append_right _ List.mem_cons_self

theorem wordToken_cases (word : List Char) :
    (word, wordToken word) ∈ keywords ∨
      keywords.lookup word = none ∧ wordToken word = .identifier (String.ofList word) := by
  unfold wordToken
  cases hlookup : keywords.lookup word with
  | some token => exact .inl (lookup_mem hlookup)
  | none => exact .inr ⟨rfl, rfl⟩

theorem keywords_isWordToken : ∀ keyword ∈ keywords, isWordToken keyword.2 = true := by decide

theorem operators_not_isWordToken : ∀ operator ∈ operators, isWordToken operator.2 = false := by
  decide

theorem wordToken_isWordToken (word : List Char) : isWordToken (wordToken word) = true := by
  rcases wordToken_cases word with hkeyword | ⟨-, hidentifier⟩
  · exact keywords_isWordToken _ hkeyword
  · rw [hidentifier]
    rfl

theorem word_of_tokenText {token : Token} {text : List Char} (h : TokenText token text)
    (hword : isWordToken token = true) :
    ∃ c cs, text = c :: cs ∧ isLetter c = true ∧ (∀ x ∈ cs, isWord x = true) ∧
      wordToken (c :: cs) = token := by
  cases h with
  | word first others => exact ⟨_, _, rfl, first, others, rfl⟩
  | number kind _ => rcases kind with rfl | rfl <;> cases hword
  | string _ => cases hword
  | operator listed =>
    rw [operators_not_isWordToken _ listed] at hword
    cases hword

/-- The token carries a text of its own. -/
def hasText : Token → Bool
  | .double _ | .integer _ | .string _ | .identifier _ => true
  | _ => false

theorem keywords_not_hasText : ∀ keyword ∈ keywords, hasText keyword.2 = false := by decide

theorem operators_not_hasText : ∀ operator ∈ operators, hasText operator.2 = false := by decide

theorem operator_of_tokenText {token : Token} {text word : List Char} (h : TokenText token text)
    (hlisted : (word, token) ∈ operators) : (text, token) ∈ operators := by
  have hfixed := operators_not_hasText _ hlisted
  cases h with
  | word first others =>
    have hword := operators_not_isWordToken _ hlisted
    rw [wordToken_isWordToken] at hword
    cases hword
  | number kind _ => rcases kind with rfl | rfl <;> cases hfixed
  | string _ => cases hfixed
  | operator listed => exact listed

theorem readAs_word {token : Token} {word rest : List Char} (htoken : isWordToken token = true) :
    ReadAs token word rest ↔ ∃ c cs, word = c :: cs ∧ isLetter c = true ∧
      (∀ x ∈ cs, isWord x = true) ∧ wordToken (c :: cs) = token ∧ Ends isWord rest := by
  constructor
  · intro h
    obtain ⟨c, cs, rfl, hc, hcs, hword⟩ := word_of_tokenText h.tokenText htoken
    refine ⟨c, cs, rfl, hc, hcs, hword, ?_⟩
    obtain ⟨d, ds, htext, hnext⟩ := h.next
    obtain ⟨rfl, rfl⟩ := List.cons.inj htext
    rw [next_of_isLetter hc] at hnext
    have htake : (c :: cs ++ rest).takeWhile isWord = c :: cs := (Lexeme.token.inj hnext).2
    exact ends_of_takeWhile htake
  · rintro ⟨c, cs, rfl, hc, hcs, rfl, hrest⟩
    exact lex_word hc hcs hrest

theorem keywords_letters : ∀ keyword ∈ keywords, ∃ c ∈ keyword.1.head?, isLetter c = true := by
  have hall : ∀ keyword ∈ keywords, keyword.1.head?.any isLetter = true := by decide
  intro keyword hkeyword
  obtain ⟨c, hc, hletter⟩ := (Option.any_eq_true _ _).mp (hall keyword hkeyword)
  exact ⟨c, hc, hletter⟩

theorem keywords_words : ∀ keyword ∈ keywords, ∀ x ∈ keyword.1, isWord x = true := by
  have hall : ∀ keyword ∈ keywords, keyword.1.all isWord = true := by decide
  exact fun keyword hkeyword => List.all_eq_true.mp (hall keyword hkeyword)

theorem readAs_keyword {token : Token} {keyword word rest : List Char}
    (hlisted : (keyword, token) ∈ keywords) (hread : wordToken keyword = token)
    (hunique : ∀ listed ∈ keywords, listed.2 = token → listed.1 = keyword) :
    ReadAs token word rest ↔ word = keyword ∧ Ends isWord rest := by
  rw [readAs_word (keywords_isWordToken _ hlisted)]
  constructor
  · rintro ⟨c, cs, rfl, -, -, htoken, hrest⟩
    refine ⟨?_, hrest⟩
    rcases wordToken_cases (c :: cs) with hmem | ⟨-, hidentifier⟩
    · exact hunique _ hmem htoken
    · have htext := keywords_not_hasText _ hlisted
      rw [← htoken, hidentifier] at htext
      cases htext
  · rintro ⟨rfl, hrest⟩
    obtain ⟨c, hhead, hletter⟩ := keywords_letters _ hlisted
    obtain ⟨cs, rfl⟩ := List.head?_eq_some_iff.mp hhead
    refine ⟨c, cs, rfl, hletter, fun x hx => ?_, hread, hrest⟩
    exact keywords_words _ hlisted x (List.mem_cons_of_mem c hx)

/-- What the lexer reads as an identifier, where no character of a word follows. -/
structure IsIdentifier (word : List Char) : Prop where
  first : ∃ c ∈ word.head?, isLetter c = true
  chars : ∀ x ∈ word, isWord x = true
  free : keywords.lookup word = none

theorem readAs_identifier {name : String} {word rest : List Char} :
    ReadAs (.identifier name) word rest ↔
      name = String.ofList word ∧ IsIdentifier word ∧ Ends isWord rest := by
  rw [readAs_word rfl]
  constructor
  · rintro ⟨c, cs, rfl, hc, hcs, htoken, hrest⟩
    rcases wordToken_cases (c :: cs) with hmem | ⟨hfree, hidentifier⟩
    · have htext := keywords_not_hasText _ hmem
      rw [htoken] at htext
      cases htext
    · rw [hidentifier] at htoken
      refine ⟨(Token.identifier.inj htoken).symm, ⟨⟨c, rfl, hc⟩, ?_, hfree⟩, hrest⟩
      exact List.forall_mem_cons.mpr ⟨isWord_of_isLetter hc, hcs⟩
  · rintro ⟨rfl, ⟨⟨c, hhead, hletter⟩, hchars, hfree⟩, hrest⟩
    obtain ⟨cs, rfl⟩ := List.head?_eq_some_iff.mp hhead
    refine ⟨c, cs, rfl, hletter, fun x hx => hchars x (List.mem_cons_of_mem c hx), ?_, hrest⟩
    unfold wordToken
    rw [hfree]
    rfl

theorem readAs_operator {token : Token} {c : Char} {word rest : List Char} (cs : List Char)
    (hlisted : (c :: cs, token) ∈ operators)
    (hunique : ∀ operator ∈ operators, operator.2 = token → operator.1 = c :: cs)
    (hnext : Lexer.next c (cs ++ rest) = .token token (c :: cs)) :
    ReadAs token word rest ↔ word = c :: cs := by
  constructor
  · intro h
    exact hunique _ (operator_of_tokenText h.tokenText hlisted) rfl
  · rintro rfl
    unfold ReadAs
    rw [lex_append (by rw [hnext]; rfl), hnext]

theorem readAs_lparen {word rest : List Char} : ReadAs .lparen word rest ↔ word = ['('] :=
  readAs_operator [] (by decide) (by decide) rfl

theorem readAs_arrow {word rest : List Char} : ReadAs .arrow word rest ↔ word = ['-', '>'] :=
  readAs_operator ['>'] (by decide) (by decide) rfl

/-! ## Places in a text -/

/-- A comment or a string literal. -/
def IsHidden : Lexeme → Prop
  | .comment _ => True
  | .token (.string _) _ => True
  | _ => False

def hides : Lexeme → Bool
  | .comment _ => true
  | .token (.string _) _ => true
  | _ => false

theorem hides_iff (x : Lexeme) : hides x = true ↔ IsHidden x := by
  unfold hides IsHidden
  split <;> simp

instance : DecidablePred IsHidden := fun x => decidable_of_iff _ (hides_iff x)

/-- What the text of a lexeme that hides nothing looks like. -/
inductive Shape : List Char → Prop where
  | word {text : List Char} (chars : ∀ c ∈ text, isWord c = true) : Shape text
  | number {text : List Char} (chars : NumberText text) : Shape text
  | operator {text : List Char} {token : Token} (listed : (text, token) ∈ operators) : Shape text
  | spaces {text : List Char} (chars : IsSpaces text) : Shape text
  | unknown {c : Char} (outside : isWord c = false) : Shape [c]

theorem shape_of_tokenText {token : Token} {text : List Char} (h : TokenText token text)
    (hhidden : ¬IsHidden (.token token text)) : Shape text := by
  cases h with
  | word first others =>
    exact .word (List.forall_mem_cons.mpr ⟨isWord_of_isLetter first, others⟩)
  | number _ chars => exact .number chars
  | string _ => exact absurd trivial hhidden
  | operator listed => exact .operator listed

/-- Every match but that of a token. -/
theorem next_cases (c : Char) (rest : List Char) : (∃ token text, next c rest = .token token text) ∨
    (∃ text, next c rest = .blank text ∧ ∀ x ∈ text, isBlank x = true) ∨
    (next c rest = .newline ∧ c = '\n') ∨
    (∃ text, next c rest = .comment ('/' :: '/' :: text) ∧
      '/' :: '/' :: text = (c :: rest).takeWhile (· ≠ '\n')) ∨
    (next c rest = .unknown c ∧ isWord c = false) := by
  unfold next
  dsimp only
  split_ifs with hletter hdigit hquote hblank hnewline hcomment
  · exact .inl ⟨_, _, rfl⟩
  · obtain ⟨token, hnumber, -⟩ := number_token (c :: rest)
    exact .inl ⟨token, _, hnumber⟩
  · subst hquote
    unfold stringLiteral
    dsimp only
    split_ifs
    · exact .inl ⟨_, _, rfl⟩
    · exact .inr (.inr (.inr (.inr ⟨rfl, rfl⟩)))
  · exact .inr (.inl ⟨_, rfl, fun x hx => List.mem_takeWhile_imp hx⟩)
  · exact .inr (.inr (.inl ⟨rfl, hnewline⟩))
  · obtain ⟨rfl, hhead⟩ := hcomment
    obtain ⟨rest, rfl⟩ := List.head?_eq_some_iff.mp hhead
    exact .inr (.inr (.inr (.inl ⟨_, rfl, rfl⟩)))
  · have hword : isWord c = false := by
      refine Bool.eq_false_iff.mpr fun hc => ?_
      rcases Bool.or_eq_true_iff.mp hc with hc | hc
      · exact hletter hc
      · exact hdigit (Bool.or_eq_true_iff.mpr (.inl hc))
    unfold operator
    split
    · exact .inl ⟨_, _, rfl⟩
    · exact .inr (.inr (.inr (.inr ⟨rfl, hword⟩)))

theorem shape_next {c : Char} {rest : List Char} (hhidden : ¬IsHidden (next c rest)) :
    Shape (next c rest).text := by
  rcases next_cases c rest with ⟨token, text, hnext⟩ | ⟨text, hnext, hblank⟩ | ⟨hnext, -⟩ |
    ⟨text, hnext, -⟩ | ⟨hnext, hword⟩ <;> rw [hnext] at hhidden ⊢
  · exact shape_of_tokenText (tokenText_next hnext) hhidden
  · exact .spaces fun x hx => isSpace_of_isBlank (hblank x hx)
  · exact .spaces fun x hx => List.mem_singleton.mp hx ▸ rfl
  · exact absurd trivial hhidden
  · exact .unknown hword

/-- The place lies in some lexeme. -/
theorem exists_lexeme_at {xs : List Lexeme} {left right : List Char} (h : render xs = left ++ right)
    (hright : right ≠ []) : ∃ before x after a b, xs = before ++ x :: after ∧ x.text = a ++ b ∧
      b ≠ [] ∧ left = render before ++ a ∧ right = b ++ render after := by
  induction xs generalizing left with
  | nil => exact absurd (List.append_eq_nil_iff.mp h.symm).2 hright
  | cons x xs ih =>
    have hlater : ∀ rest, left = x.text ++ rest → render xs = rest ++ right →
        ∃ before y after a b, x :: xs = before ++ y :: after ∧ y.text = a ++ b ∧ b ≠ [] ∧
          left = render before ++ a ∧ right = b ++ render after := by
      rintro rest rfl hrest
      obtain ⟨before, y, after, a, b, rfl, htext, hb, rfl, rfl⟩ := ih hrest
      exact ⟨x :: before, y, after, a, b, rfl, htext, hb, by simp, rfl⟩
    rw [render_cons] at h
    rcases List.append_eq_append_iff.mp h with ⟨between, hleft, hrest⟩ | ⟨between, htext, hr⟩
    · exact hlater between hleft hrest
    · cases between with
      | nil =>
        rw [List.append_nil] at htext
        exact hlater [] (by rw [htext, List.append_nil]) hr.symm
      | cons c cs => exact ⟨[], x, xs, left, c :: cs, rfl, htext, List.cons_ne_nil c cs, rfl, hr⟩

theorem exists_next_of_mem {text : List Char} {before after : List Lexeme} {x : Lexeme}
    (h : lex text = before ++ x :: after) : ∃ c rest, next c rest = x ∧
      c :: rest = x.text ++ render after := by
  have hx := lex_render_of_append h
  rw [render_cons] at hx
  cases htext : x.text ++ render after with
  | nil =>
    rw [htext] at hx
    cases hx
  | cons c rest =>
    rw [htext, lex_cons] at hx
    exact ⟨c, rest, (List.cons.inj hx).1, rfl⟩

theorem operators_tail : ∀ operator ∈ operators, '-' ∉ operator.1.tail := by decide

theorem operators_not_isWord : ∀ operator ∈ operators, ∀ c ∈ operator.1, isWord c = false := by
  have hany : ∀ operator ∈ operators, operator.1.any isWord = false := by decide
  intro operator hoperator c hc
  exact Bool.eq_false_iff.mpr (List.any_eq_false.mp (hany operator hoperator) c hc)

theorem eq_nil_of_singleton {a b : List Char} {c d : Char} (h : [d] = a ++ c :: b) : a = [] := by
  cases a with
  | nil => rfl
  | cons x xs =>
    have hnil := (List.cons.inj h).2
    exact absurd hnil.symm (List.append_ne_nil_of_right_ne_nil xs (List.cons_ne_nil c b))

/-- A word begins where its lexeme does. -/
theorem Shape.start_of_word {text a b : List Char} {c : Char} (h : Shape text)
    (htext : text = a ++ c :: b) (hword : isWord c = true)
    (hnumber : isDigit c = false ∧ c ∉ numberMarks) (hclear : a.getLast?.any isWord = false) :
    a = [] := by
  have hmem : c ∈ text := htext ▸ List.mem_append_right a List.mem_cons_self
  cases h with
  | word chars =>
    cases hlast : a.getLast? with
    | none => exact List.getLast?_eq_none_iff.mp hlast
    | some d =>
      have hd := chars d (htext ▸ List.mem_append_left _ (List.mem_of_getLast? hlast))
      rw [hlast, Option.any_some, hd] at hclear
      cases hclear
  | number chars =>
    rcases chars.chars c hmem with hdigit | hmark
    · rw [hnumber.1] at hdigit
      cases hdigit
    · exact absurd hmark hnumber.2
  | operator listed =>
    rw [operators_not_isWord _ listed c hmem] at hword
    cases hword
  | spaces chars =>
    rw [not_isWord_of_isSpace (chars c hmem)] at hword
    cases hword
  | unknown outside => exact eq_nil_of_singleton htext

/-- An arrow begins where its lexeme does. -/
theorem Shape.start_of_arrow {text a b after rest : List Char} (h : Shape text)
    (htext : text = a ++ '-' :: b) (harrow : b ++ after = '>' :: rest) : a = [] := by
  have hmem : '-' ∈ text := htext ▸ List.mem_append_right a List.mem_cons_self
  cases h with
  | word chars => cases chars '-' hmem
  | number chars =>
    obtain ⟨digit, digits, rfl, hdigit⟩ := chars.afterMinus htext
    cases (List.cons.inj harrow).1
    cases hdigit
  | operator listed =>
    cases a with
    | nil => rfl
    | cons x xs =>
      have htail := operators_tail _ listed
      rw [htext] at htail
      exact absurd (List.mem_append_right xs List.mem_cons_self) htail
  | spaces chars => cases chars '-' hmem
  | unknown outside => exact eq_nil_of_singleton htext

/-! ## What stands before a token -/

theorem any_getLast_of_forall {p : Char → Bool} {text : List Char}
    (h : ∀ c ∈ text, p c = false) : text.getLast?.any p = false := by
  cases hlast : text.getLast? with
  | none => rfl
  | some c => exact h c (List.mem_of_getLast? hlast)

theorem skipped_getLast {text : List Char} {before after : List Lexeme} {x : Lexeme}
    {token : Token} {word : List Char} (h : lex text = before ++ x :: .token token word :: after)
    (hx : x.token? = none) : x.text.getLast?.any isWord = false := by
  obtain ⟨c, rest, hnext, htext⟩ := exists_next_of_mem h
  rcases next_cases c rest with ⟨token', word', hcase⟩ | ⟨blanks, hcase, hblank⟩ | ⟨hcase, -⟩ |
    ⟨comment, hcase, htake⟩ | ⟨hcase, hword⟩ <;> obtain rfl := hnext.symm.trans hcase
  · cases hx
  · exact any_getLast_of_forall fun y hy => not_isWord_of_isSpace (isSpace_of_isBlank (hblank y hy))
  · rfl
  · have hsplit : lex text = (before ++ [.comment ('/' :: '/' :: comment)]) ++
        .token token word :: after := by
      rw [h, List.append_assoc]
      rfl
    obtain ⟨d, ds, hnext', htext'⟩ := exists_next_of_mem hsplit
    rw [htext] at htake
    have hends := ends_of_takeWhile htake.symm
    rw [render_cons, ← htext'] at hends
    have hd : d = '\n' := not_not.mp (of_decide_eq_false hends)
    subst hd
    cases hnext'
  · exact hword

/-- After an operator no word goes on. -/
theorem getLast_before {text : List Char} {before after : List Lexeme} {token : Token}
    {word : List Char} (h : lex text = before ++ .token token word :: after)
    (hprevious : ∀ previous, (before.filterMap Lexeme.token?).getLast? = some previous →
      ∃ listed ∈ operators, listed.2 = previous) :
    (render before).getLast?.any isWord = false := by
  rcases List.eq_nil_or_concat before with rfl | ⟨before, x, rfl⟩
  · rfl
  · rw [List.concat_eq_append] at h hprevious ⊢
    rw [List.append_assoc] at h
    obtain ⟨c, rest, hnext, -⟩ := exists_next_of_mem h
    have hlast : (render (before ++ [x])).getLast? = x.text.getLast? := by
      rw [render_append, render_cons, render_nil, List.append_nil, List.getLast?_append_of_ne_nil]
      rw [← hnext]
      exact next_ne_nil c rest
    rw [hlast]
    cases hx : x.token? with
    | none => exact skipped_getLast h hx
    | some previous =>
      have hfilter : (before ++ [x]).filterMap Lexeme.token? =
          before.filterMap Lexeme.token? ++ [previous] := by
        rw [List.filterMap_append, List.filterMap_cons_some hx, List.filterMap_nil]
      rw [hfilter, List.getLast?_concat] at hprevious
      obtain ⟨listed, hmem, hlisted⟩ := hprevious previous rfl
      cases x with
      | token t w =>
        cases hx
        subst hlisted
        have hoperator := operator_of_tokenText (tokenText_next hnext) hmem
        exact any_getLast_of_forall (operators_not_isWord _ hoperator)
      | _ => cases hx

/-! ## Rows that end in the text -/

/-- The text is these tokens with white space before each of them, and then the rest. -/
def Spans : List Token → List Char → List Char → Prop
  | [], text, rest => text = rest
  | token :: tokens, text, rest => ∃ spaces word after, text = spaces ++ (word ++ after) ∧
      IsSpaces spaces ∧ ReadAs token word after ∧ Spans tokens after rest

theorem Spans.tokens {row : List Token} {text rest : List Char} (h : Spans row text rest) :
    Lexer.tokens text = row ++ Lexer.tokens rest := by
  induction row generalizing text with
  | nil =>
    obtain rfl : text = rest := h
    rfl
  | cons token row ih =>
    obtain ⟨spaces, word, after, rfl, hspaces, hword, hrow⟩ := h
    rw [tokens_spaces hspaces hword.ends_isSpace, hword.tokens, ih hrow]
    rfl

theorem Spans.after_spaces {token : Token} {row : List Token} {spaces text rest : List Char}
    (hspaces : IsSpaces spaces) (h : Spans (token :: row) text rest) :
    Spans (token :: row) (spaces ++ text) rest := by
  obtain ⟨spaces', word, after, rfl, hspaces', hword, hrow⟩ := h
  refine ⟨spaces ++ spaces', word, after, (List.append_assoc _ _ _).symm, ?_, hword, hrow⟩
  intro c hc
  exact (List.mem_append.mp hc).elim (hspaces c) (hspaces' c)

/-- Tokens with white space between them, up to one of them. -/
theorem spans_of_lexemes {src : List Char} {before xs ys : List Lexeme} {token : Token}
    {word : List Char} (hsrc : lex src = before ++ (xs ++ .token token word :: ys))
    (hspaces : ∀ x ∈ xs, x.token? = none → IsSpaces x.text) :
    Spans ((xs ++ [Lexeme.token token word]).filterMap Lexeme.token?)
      (render (xs ++ .token token word :: ys)) (render ys) := by
  have hread : ∀ {before token word ys}, lex src = before ++ .token token word :: ys →
      ReadAs token word (render ys) := by
    intro before token word ys h
    have hsplit : lex src = (before ++ [.token token word]) ++ ys := by
      rw [h, List.append_assoc]
      rfl
    unfold ReadAs
    rw [lex_render_of_append hsplit]
    exact lex_render_of_append h
  induction xs generalizing before with
  | nil => exact ⟨[], word, render ys, rfl, nofun, hread hsrc, rfl⟩
  | cons x xs ih =>
    have hsplit : lex src = (before ++ [x]) ++ (xs ++ .token token word :: ys) := by
      rw [hsrc, List.append_assoc]
      rfl
    have hrest := ih hsplit fun y hy => hspaces y (List.mem_cons_of_mem x hy)
    rw [List.cons_append, List.cons_append, render_cons]
    cases hx : x.token? with
    | none =>
      rw [List.filterMap_cons_none hx]
      cases hrow : (xs ++ [Lexeme.token token word]).filterMap Lexeme.token? with
      | nil =>
        rw [List.filterMap_append] at hrow
        cases (List.append_eq_nil_iff.mp hrow).2
      | cons first row =>
        rw [hrow] at hrest
        exact hrest.after_spaces (hspaces x List.mem_cons_self hx)
    | some first =>
      rw [List.filterMap_cons_some hx]
      cases x with
      | token t w =>
        cases hx
        exact ⟨[], w, _, rfl, nofun, hread hsrc, hrest⟩
      | _ => cases hx

theorem readAs_named {name : String} (hname : IsIdentifier name.toList) {word rest : List Char} :
    ReadAs (.identifier name) word rest ↔ word = name.toList ∧ Ends isWord rest := by
  rw [readAs_identifier]
  constructor
  · rintro ⟨rfl, -, hrest⟩
    exact ⟨String.toList_ofList.symm, hrest⟩
  · rintro ⟨rfl, hrest⟩
    exact ⟨String.ofList_toList.symm, hname, hrest⟩

end FalconLib.Parser.Spelling
