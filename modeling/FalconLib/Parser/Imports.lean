import FalconLib.Base.Words

/-!
# The import declarations, as the parser reads them

The rules of the lexer that matter up to the first token that is not part of an import, and
the productions `import_list`, `import_stmt` and `import_string_list`.
-/

namespace FalconLib.Parser.Imports

open FalconLib.Base.Words (takeWhile_append_stop)

/-! ## The lexer -/

/-- All tokens that no import declaration has are `other`. -/
inductive Token where
  | importKeyword
  | leftParen
  | rightParen
  | semicolon
  | string (value : List Char)
  | other
deriving DecidableEq

def isLetter (c : Char) : Bool := c.isAlpha || c == '_'

def isWordChar (c : Char) : Bool := isLetter c || c.isDigit

/-- What a word is the token of: `import`, another keyword or an identifier. -/
def wordToken (word : List Char) : Token :=
  if word = ['i', 'm', 'p', 'o', 'r', 't'] then .importKeyword else .other

/-- The characters that are a token by themselves. -/
def singleTokens : List Char :=
  ['[', ']', '{', '}', '=', ',', '.', '+', '-', '*', '/', '<', '>', '!']

/-- The characters that are a token only when they are doubled. -/
def doubleTokens : List Char := [':', '&', '|']

/-- A token that is neither a word nor a string nor a comment. -/
def symbolToken (c : Char) (rest : List Char) : Option Token :=
  if c = '(' then some .leftParen
  else if c = ')' then some .rightParen
  else if c = ';' then some .semicolon
  else if c.isDigit || singleTokens.contains c then some .other
  else if doubleTokens.contains c && rest.head? == some c then some .other
  else none

/-- What the first rule that applies makes of the text, and the rest; where an `other` token
ends makes no difference to the imports. Blanks, comments and unknown characters are no
token, and a quote that is never closed is an unknown character. -/
def next : List Char → Option (Option Token × List Char)
  | [] => none
  | c :: rest =>
    if c = '"' then
      if '"' ∈ rest then
        some (some (.string (rest.takeWhile (· ≠ '"'))), (rest.dropWhile (· ≠ '"')).drop 1)
      else some (none, rest)
    else if c = '/' ∧ rest.head? = some '/' then some (none, rest.dropWhile (· ≠ '\n'))
    else if isLetter c then
      some (some (wordToken (c :: rest.takeWhile isWordChar)), rest.dropWhile isWordChar)
    else some (symbolToken c rest, rest)

/-- The tokens of a text, with one step for every character at most. -/
def lexFrom : Nat → List Char → List Token
  | 0, _ => []
  | fuel + 1, text =>
    match next text with
    | none => []
    | some (token, rest) => token.toList ++ lexFrom fuel rest

def lex (text : List Char) : List Token := lexFrom text.length text

theorem takeWhile_ne {q : Char} {before : List Char} (h : q ∉ before) (after : List Char) :
    (before ++ q :: after).takeWhile (· ≠ q) = before := by
  rw [List.takeWhile_append_of_pos]
  · simp
  · intro c hc
    exact decide_eq_true (ne_of_mem_of_not_mem hc h)

theorem dropWhile_ne {q : Char} {before : List Char} (h : q ∉ before) (after : List Char) :
    (before ++ q :: after).dropWhile (· ≠ q) = q :: after := by
  rw [List.dropWhile_append_of_pos]
  · simp
  · intro c hc
    exact decide_eq_true (ne_of_mem_of_not_mem hc h)

/-! One equation for each rule of the lexer. -/

theorem next_string {value : List Char} (h : '"' ∉ value) (rest : List Char) :
    next ('"' :: (value ++ '"' :: rest)) = some (some (.string value), rest) := by
  have hclosed : '"' ∈ value ++ '"' :: rest := List.mem_append_right _ List.mem_cons_self
  simp only [next, hclosed, takeWhile_ne h, dropWhile_ne h]
  rfl

theorem next_unclosed {text : List Char} (h : '"' ∉ text) : next ('"' :: text) = some (none, text) := by
  simp only [next, h]
  rfl

theorem next_comment {text : List Char} (h : text.head? = some '/') :
    next ('/' :: text) = some (none, text.dropWhile (· ≠ '\n')) := by
  simp only [next, h]
  rfl

theorem next_word {c : Char} (h : isLetter c) (text : List Char) :
    next (c :: text) =
      some (some (wordToken (c :: text.takeWhile isWordChar)), text.dropWhile isWordChar) := by
  have hquote : c ≠ '"' := by
    rintro rfl
    exact absurd h (by decide)
  have hslash : c ≠ '/' := by
    rintro rfl
    exact absurd h (by decide)
  simp only [next, hquote, hslash, h, false_and, if_false, if_true]

theorem next_symbol {c : Char} {text : List Char} (hquote : c ≠ '"')
    (hcomment : ¬(c = '/' ∧ text.head? = some '/')) (hletter : ¬isLetter c) :
    next (c :: text) = some (symbolToken c text, text) := by
  simp only [next, hquote, hcomment, hletter, Bool.false_eq_true, if_false]

/-- The rules have no other cases. -/
theorem next_cases (c : Char) (text : List Char) :
    (∃ value rest, c = '"' ∧ '"' ∉ value ∧ text = value ++ '"' :: rest) ∨
    (c = '"' ∧ '"' ∉ text) ∨
    (c = '/' ∧ text.head? = some '/') ∨
    isLetter c ∨
    (c ≠ '"' ∧ ¬(c = '/' ∧ text.head? = some '/') ∧ ¬isLetter c) := by
  by_cases hquote : c = '"'
  · by_cases hclosed : '"' ∈ text
    · obtain ⟨value, rest, rfl, hvalue⟩ := List.eq_append_cons_of_mem hclosed
      exact .inl ⟨value, rest, hquote, hvalue, rfl⟩
    · exact .inr (.inl ⟨hquote, hclosed⟩)
  · by_cases hcomment : c = '/' ∧ text.head? = some '/'
    · exact .inr (.inr (.inl hcomment))
    · by_cases hletter : isLetter c
      · exact .inr (.inr (.inr (.inl hletter)))
      · exact .inr (.inr (.inr (.inr ⟨hquote, hcomment, hletter⟩)))

theorem next_ne_none (c : Char) (text : List Char) : next (c :: text) ≠ none := by
  unfold next
  simp only
  split_ifs <;> exact Option.some_ne_none _

theorem next_shorter {text rest : List Char} {token : Option Token}
    (h : next text = some (token, rest)) : rest.length < text.length := by
  cases text with
  | nil => cases h
  | cons c text =>
      have hdropped (p : Char → Bool) : (text.dropWhile p).length ≤ text.length :=
        (List.dropWhile_suffix p).length_le
      rw [List.length_cons]
      rcases next_cases c text with
        ⟨value, after, rfl, hvalue, rfl⟩ | ⟨rfl, hopen⟩ | ⟨rfl, hslash⟩ | hletter |
        ⟨hquote, hcomment, hletter⟩
      · cases (next_string hvalue after).symm.trans h
        simp only [List.length_append, List.length_cons]
        omega
      · cases (next_unclosed hopen).symm.trans h
        omega
      · cases (next_comment hslash).symm.trans h
        exact Nat.lt_succ_of_le (hdropped _)
      · cases (next_word hletter text).symm.trans h
        exact Nat.lt_succ_of_le (hdropped _)
      · cases (next_symbol hquote hcomment hletter).symm.trans h
        omega

/-- More steps than characters change nothing. -/
theorem lexFrom_eq_lex {fuel : Nat} {text : List Char} (h : text.length ≤ fuel) :
    lexFrom fuel text = lex text := by
  induction fuel using Nat.strongRecOn generalizing text with
  | ind fuel ih =>
      cases text with
      | nil => cases fuel <;> rfl
      | cons c text =>
          cases fuel with
          | zero => cases h
          | succ fuel =>
              unfold lex
              rw [List.length_cons] at h ⊢
              unfold lexFrom
              cases hnext : next (c :: text) with
              | none => rfl
              | some result =>
                  have hshorter := next_shorter hnext
                  rw [List.length_cons] at hshorter
                  have hfuel : lexFrom fuel result.2 = lex result.2 :=
                    ih fuel (by omega) (by omega)
                  have hlength : lexFrom text.length result.2 = lex result.2 :=
                    ih text.length (by omega) (by omega)
                  simp only [hfuel, hlength]

/-- The tokens of a text, from those of what the first rule leaves. -/
theorem lex_of_next {text rest : List Char} {token : Option Token}
    (h : next text = some (token, rest)) : lex text = token.toList ++ lex rest := by
  have hshorter := next_shorter h
  obtain ⟨fuel, hfuel⟩ : ∃ fuel, text.length = fuel + 1 := ⟨text.length - 1, by omega⟩
  have hrest : lexFrom fuel rest = lex rest := lexFrom_eq_lex (by omega)
  unfold lex
  rw [hfuel, lexFrom, h]
  simp only [hrest]
  rfl

theorem lex_nil : lex [] = [] := rfl

theorem takeWhile_stop {p : Char → Bool} {c : Char} (h : p c = false) (line tail : List Char) :
    (line ++ c :: tail).takeWhile p = line.takeWhile p := by
  refine takeWhile_append_stop fun d hd => ?_
  cases hd
  exact h

theorem dropWhile_stop {p : Char → Bool} {c : Char} (h : p c = false) (line tail : List Char) :
    (line ++ c :: tail).dropWhile p = line.dropWhile p ++ c :: tail := by
  induction line with
  | nil => simp [h]
  | cons d line ih =>
      cases hd : p d with
      | false => simp [hd]
      | true => simp only [List.cons_append, List.dropWhile_cons_of_pos hd, ih]

theorem head?_line {c d : Char} (h : d ≠ c) (line tail : List Char) :
    (line ++ c :: tail).head? = some d ↔ line.head? = some d := by
  cases line with
  | nil => simp [h.symm]
  | cons e line => rfl

theorem symbolToken_line (c : Char) (line tail : List Char) :
    symbolToken c (line ++ '\n' :: tail) = symbolToken c line := by
  unfold symbolToken
  by_cases hdouble : doubleTokens.contains c = true
  · have hc : c ≠ '\n' := by
      rintro rfl
      exact absurd hdouble (by decide)
    have hhead : ((line ++ '\n' :: tail).head? == some c) = (line.head? == some c) := by
      rw [Bool.eq_iff_iff, beq_iff_eq, beq_iff_eq]
      exact head?_line hc line tail
    rw [hhead]
  · rw [Bool.not_eq_true] at hdouble
    simp only [hdouble, Bool.false_and]

/-- The rule that applies in a line, with more text after the line: only a string can go on
beyond the end. -/
theorem next_line {line rest : List Char} {token : Option Token}
    (h : next line = some (token, rest)) (tail : List Char) :
    next (line ++ '\n' :: tail) = some (token, rest ++ '\n' :: tail) ∨
      ∃ value after, '\n' ∈ value ∧
        next (line ++ '\n' :: tail) = some (some (.string value), after) := by
  cases line with
  | nil => cases h
  | cons c text =>
      rw [List.cons_append]
      rcases next_cases c text with
        ⟨value, after, rfl, hvalue, rfl⟩ | ⟨rfl, hopen⟩ | ⟨rfl, hslash⟩ | hletter |
        ⟨hquote, hcomment, hletter⟩
      · cases (next_string hvalue after).symm.trans h
        left
        rw [List.append_assoc, List.cons_append]
        exact next_string hvalue _
      · cases (next_unclosed hopen).symm.trans h
        by_cases hclosed : '"' ∈ tail
        · right
          obtain ⟨before, after, rfl, hbefore⟩ := List.eq_append_cons_of_mem hclosed
          refine ⟨rest ++ '\n' :: before, after, List.mem_append_right _ List.mem_cons_self, ?_⟩
          have hvalue : '"' ∉ rest ++ '\n' :: before := by
            simp [hopen, hbefore]
          have hstring := next_string hvalue after
          rw [List.append_assoc, List.cons_append] at hstring
          exact hstring
        · left
          refine next_unclosed ?_
          simp [hopen, hclosed]
      · cases (next_comment hslash).symm.trans h
        left
        have hhead := (head?_line (c := '\n') (by decide) text tail).mpr hslash
        rw [next_comment hhead, dropWhile_stop (by decide)]
      · cases (next_word hletter text).symm.trans h
        left
        rw [next_word hletter, takeWhile_stop (by decide), dropWhile_stop (by decide)]
      · cases (next_symbol hquote hcomment hletter).symm.trans h
        left
        have hhead : ¬(c = '/' ∧ (rest ++ '\n' :: tail).head? = some '/') := by
          rwa [head?_line (by decide)]
        rw [next_symbol hquote hhead hletter, symbolToken_line]

/-- The string tokens of a text stand in it between their quotes. -/
theorem string_mem_lex {text value : List Char} (h : .string value ∈ lex text) :
    '"' ∉ value ∧ ∃ before after, text = before ++ '"' :: (value ++ '"' :: after) := by
  induction hlength : text.length using Nat.strongRecOn generalizing text with
  | ind length ih =>
      cases text with
      | nil => exact absurd h List.not_mem_nil
      | cons c text =>
          have hlater {token : Option Token} {rest : List Char}
              (hnext : next (c :: text) = some (token, rest)) (hsuffix : rest <:+ text)
              (hrest : .string value ∈ lex rest) :
              '"' ∉ value ∧
                ∃ before after, c :: text = before ++ '"' :: (value ++ '"' :: after) := by
            obtain ⟨skipped, rfl⟩ := hsuffix
            obtain ⟨hvalue, before, after, rfl⟩ :=
              ih rest.length (hlength ▸ next_shorter hnext) hrest rfl
            exact ⟨hvalue, c :: skipped ++ before, after, by simp⟩
          rcases next_cases c text with
            ⟨first, rest, rfl, hfirst, rfl⟩ | ⟨rfl, hopen⟩ | ⟨rfl, hslash⟩ | hletter |
            ⟨hquote, hcomment, hletter⟩
          · have hnext := next_string hfirst rest
            rw [lex_of_next hnext] at h
            rcases List.mem_cons.mp h with hvalue | hrest
            · cases hvalue
              exact ⟨hfirst, [], rest, rfl⟩
            · exact hlater hnext ⟨first ++ ['"'], by simp⟩ hrest
          · have hnext := next_unclosed hopen
            rw [lex_of_next hnext] at h
            exact hlater hnext (List.suffix_refl _) h
          · have hnext := next_comment hslash
            rw [lex_of_next hnext] at h
            exact hlater hnext (List.dropWhile_suffix _) h
          · have hnext := next_word hletter text
            rw [lex_of_next hnext] at h
            rcases List.mem_cons.mp h with hword | hrest
            · unfold wordToken at hword
              split_ifs at hword
            · exact hlater hnext (List.dropWhile_suffix _) hrest
          · have hnext := next_symbol hquote hcomment hletter
            rw [lex_of_next hnext] at h
            rcases List.mem_append.mp h with hsymbol | hrest
            · unfold symbolToken at hsymbol
              split_ifs at hsymbol <;> simp at hsymbol
            · exact hlater hnext (List.suffix_refl _) hrest

/-- The tokens of a line and of what follows it are those of the whole text, unless a string
goes on beyond the end of the line. -/
theorem lex_line (line tail : List Char) :
    lex (line ++ '\n' :: tail) = lex line ++ lex tail ∨
      ∃ before value after rest, lex line = before ++ rest ∧ '\n' ∈ value ∧
        lex (line ++ '\n' :: tail) = before ++ .string value :: after := by
  induction hlength : line.length using Nat.strongRecOn generalizing line with
  | ind length ih =>
      cases hnext : next line with
      | none =>
          cases line with
          | nil =>
              left
              have hbreak : next ('\n' :: tail) = some (none, tail) := rfl
              exact lex_of_next hbreak
          | cons c line => exact absurd hnext (next_ne_none c line)
      | some result =>
          obtain ⟨token, rest⟩ := result
          have hline := lex_of_next hnext
          have hshorter := next_shorter hnext
          rcases next_line hnext tail with hwhole | ⟨value, after, hvalue, hwhole⟩
          · have hwhole := lex_of_next hwhole
            rw [hline, hwhole]
            rcases ih rest.length (hlength ▸ hshorter) rest rfl with
              hrest | ⟨before, value, after, more, hrest, hvalue, htail⟩
            · left
              rw [hrest, List.append_assoc]
            · right
              refine ⟨token.toList ++ before, value, after, more, ?_, hvalue, ?_⟩
              · rw [hrest, List.append_assoc]
              · rw [htail, List.append_assoc]
          · right
            refine ⟨[], value, lex after, lex line, rfl, hvalue, ?_⟩
            exact lex_of_next hwhole

/-! ## The productions -/

/-- How far the parser is with `import_list`. -/
inductive State where
  /-- Before an import statement, or an item. -/
  | top
  /-- After `import`. -/
  | imported
  /-- After `import "path"`. -/
  | single
  /-- After `import (`. -/
  | opened
  /-- After `import ( "path"`, with any number of paths. -/
  | listed
  /-- In the items of the program. -/
  | items
deriving DecidableEq

/-- The parser at the next token, and the path that the token adds; none is a syntax error. -/
def step : State → Token → Option (State × List (List Char))
  | .top, .importKeyword => some (.imported, [])
  | .top, .other => some (.items, [])
  | .imported, .string path => some (.single, [path])
  | .imported, .leftParen => some (.opened, [])
  | .single, .semicolon => some (.top, [])
  | .opened, .string path => some (.listed, [path])
  | .listed, .string path => some (.listed, [path])
  | .listed, .rightParen => some (.top, [])
  | .items, _ => some (.items, [])
  | _, _ => none

def run : State → List Token → Option (State × List (List Char))
  | state, [] => some (state, [])
  | state, token :: tokens => do
    let (state, paths) ← step state token
    let (state, more) ← run state tokens
    pure (state, paths ++ more)

theorem step_cases {state next : State} {token : Token} {paths : List (List Char)}
    (h : step state token = some (next, paths)) :
    (state = .items ∧ next = .items ∧ paths = []) ∨
    (∃ path, token = .string path ∧ paths = [path]) ∨
    (paths = [] ∧ ∀ path, token ≠ .string path) := by
  cases state <;> cases token <;> simp_all [step]

theorem run_cons {state last : State} {token : Token} {tokens : List Token}
    {paths : List (List Char)} :
    run state (token :: tokens) = some (last, paths) ↔
      ∃ next before after, step state token = some (next, before) ∧
        run next tokens = some (last, after) ∧ paths = before ++ after := by
  have hrun : run state (token :: tokens) =
      (step state token).bind fun first =>
        (run first.1 tokens).bind fun later => some (later.1, first.2 ++ later.2) := rfl
  rw [hrun]
  constructor
  · intro h
    obtain ⟨⟨next, before⟩, hstep, h⟩ := Option.bind_eq_some_iff.mp h
    obtain ⟨⟨final, after⟩, hlater, h⟩ := Option.bind_eq_some_iff.mp h
    cases h
    exact ⟨next, before, after, hstep, hlater, rfl⟩
  · rintro ⟨next, before, after, hstep, hlater, rfl⟩
    rw [hstep, Option.bind_some, hlater, Option.bind_some]

theorem run_append {state last : State} {tokens more : List Token} {paths : List (List Char)} :
    run state (tokens ++ more) = some (last, paths) ↔
      ∃ middle before after, run state tokens = some (middle, before) ∧
        run middle more = some (last, after) ∧ paths = before ++ after := by
  induction tokens generalizing state paths with
  | nil => simp [run]
  | cons token tokens ih =>
      rw [List.cons_append, run_cons]
      constructor
      · rintro ⟨next, first, later, hstep, hrun, rfl⟩
        obtain ⟨middle, before, after, htokens, hmore, rfl⟩ := ih.mp hrun
        refine ⟨middle, first ++ before, after, ?_, hmore, (List.append_assoc _ _ _).symm⟩
        exact run_cons.mpr ⟨next, first, before, hstep, htokens, rfl⟩
      · rintro ⟨middle, before, after, hrun, hmore, rfl⟩
        obtain ⟨next, first, later, hstep, htokens, rfl⟩ := run_cons.mp hrun
        refine ⟨next, first, later ++ after, hstep, ?_, List.append_assoc _ _ _⟩
        exact ih.mpr ⟨middle, later, after, htokens, hmore, rfl⟩

/-- In the items nothing is an import. -/
theorem run_items (tokens : List Token) : run .items tokens = some (.items, []) := by
  induction tokens with
  | nil => rfl
  | cons token tokens ih => exact run_cons.mpr ⟨.items, [], [], rfl, ih, rfl⟩

/-- Paths are strings of the text. -/
theorem string_mem_of_run {state last : State} {tokens : List Token} {paths : List (List Char)}
    (h : run state tokens = some (last, paths)) {path : List Char} (hpath : path ∈ paths) :
    .string path ∈ tokens := by
  induction tokens generalizing state paths with
  | nil =>
      cases h
      exact absurd hpath List.not_mem_nil
  | cons token tokens ih =>
      obtain ⟨next, before, after, hstep, hrun, rfl⟩ := run_cons.mp h
      rcases List.mem_append.mp hpath with hbefore | hafter
      · rcases step_cases hstep with ⟨-, -, rfl⟩ | ⟨value, rfl, rfl⟩ | ⟨rfl, -⟩
        · exact absurd hbefore List.not_mem_nil
        · rw [List.mem_singleton.mp hbefore]
          exact List.mem_cons_self
        · exact absurd hbefore List.not_mem_nil
      · exact List.mem_cons_of_mem _ (ih hrun hafter)

/-- The imports end with the text or with the first item. -/
def final : State → Bool
  | .top | .items => true
  | _ => false

/-- The paths of the imports in a text that the parser is at in some state. -/
def pathsFrom (state : State) (text : List Char) : Option (List (List Char)) :=
  match run state (lex text) with
  | some (last, paths) => if final last then some paths else none
  | none => none

/-- The `imports` of the program that a text is parsed to; the parser accepts no text that has
none. -/
def importPaths (text : List Char) : Option (List (List Char)) := pathsFrom .top text

example : importPaths "import \"a\"; import (\"b\" \"c\") // \"d\"".toList =
    some [['a'], ['b'], ['c']] := by decide

end FalconLib.Parser.Imports
