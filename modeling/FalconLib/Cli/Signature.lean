import FalconLib.Cli.Injection

/-!
# The signature of a suite

The pattern for the signature and the tokens of the signature, with white space between them, are
the same texts.
-/

namespace FalconLib.Cli.Signature

open FalconLib.Base.Patterns
open FalconLib.Parser.Lexer
open FalconLib.Parser.Spelling
open Injection (outputs signaturePattern)

/-- `-> (int passed, int failed)`. -/
def outputTokens : List Token :=
  [.arrow, .lparen, .intKw, .identifier "passed", .comma, .intKw, .identifier "failed", .rparen]

/-- `autotuner Name -> (int passed, int failed)`. -/
def signature (name : String) : List Token := .autotuner :: .identifier name :: outputTokens

/-! ## One part of the pattern -/

section

variable {token token' : Token} {row : List Token} {word word' : List Char} {parts : List Part}

theorem ends_append {p : Char → Bool} {text rest : List Char} (h : text.head?.any p = false)
    (hne : text ≠ []) : Ends p (text ++ rest) := by
  obtain ⟨c, text, rfl⟩ := List.exists_cons_of_ne_nil hne
  exact h

theorem takeAll_operator (hread : ∀ text rest, ReadAs token text rest ↔ text = word)
    (hhead : word.head?.any isSpace = false) (hne : word ≠ []) {rest : List Char}
    (hparts : ∀ after, takeAll parts after = some rest ↔ Spans row after rest) (text : List Char) :
    takeAll (.run isSpace :: .word word :: parts) text = some rest ↔
      Spans (token :: row) text rest := by
  unfold Spans
  simp only [takeAll_run, takeAll_word, hread, hparts]
  constructor
  · rintro ⟨spaces, _, rfl, hspaces, -, after, rfl, h⟩
    exact ⟨spaces, word, after, rfl, hspaces, rfl, h⟩
  · rintro ⟨spaces, read, after, rfl, hspaces, rfl, h⟩
    exact ⟨spaces, read ++ after, rfl, hspaces, ends_append hhead hne, after, rfl, h⟩

/-- Two words need white space between them. -/
theorem takeAll_words
    (hread : ∀ text rest, ReadAs token text rest ↔ text = word ∧ Ends isWord rest)
    (hread' : ∀ text rest, ReadAs token' text rest ↔ text = word' ∧ Ends isWord rest)
    (hhead : word.head?.any isSpace = false) (hne : word ≠ [])
    (hhead' : word'.head?.any isSpace = false) (hword' : word'.head?.any isWord = true)
    {rest : List Char} (hparts : ∀ after, takeAll parts after = some rest ↔ Spans row after rest)
    (hends : ∀ after, takeAll parts after = some rest → Ends isWord after) (text : List Char) :
    takeAll (.run isSpace :: .word word :: .one isSpace :: .run isSpace :: .word word' :: parts)
      text = some rest ↔ Spans (token :: token' :: row) text rest := by
  have hne' : word' ≠ [] := by
    rintro rfl
    cases hword'
  unfold Spans Spans
  simp only [takeAll_run, takeAll_word, takeAll_one, hread, hread', ← hparts]
  constructor
  · rintro ⟨spaces, _, rfl, hspaces, -, _, rfl, c, _, rfl, hc, cs, _, rfl, hcs, -, after, rfl, h⟩
    exact ⟨spaces, word, _, rfl, hspaces, ⟨rfl, not_isWord_of_isSpace hc⟩, c :: cs, word', after,
      rfl, List.forall_mem_cons.mpr ⟨hc, hcs⟩, ⟨rfl, hends after h⟩, h⟩
  · rintro ⟨spaces, _, _, rfl, hspaces, ⟨rfl, hgap⟩, spaces', _, after, rfl, hspaces', ⟨rfl, -⟩, h⟩
    cases spaces' with
    | nil =>
      obtain ⟨d, ds, rfl⟩ := List.exists_cons_of_ne_nil hne'
      exact absurd hword' (Bool.eq_false_iff.mp hgap)
    | cons c cs =>
      obtain ⟨hc, hcs⟩ := List.forall_mem_cons.mp hspaces'
      exact ⟨spaces, _, rfl, hspaces, ends_append hhead hne, _, rfl, c, _, rfl, hc, cs, _, rfl, hcs,
        ends_append hhead' hne', after, rfl, h⟩

theorem ends_of_operator (hhead : word.head?.any isWord = false) (hne : word ≠ [])
    {text rest : List Char} (h : takeAll (.run isSpace :: .word word :: parts) text = some rest) :
    Ends isWord text := by
  simp only [takeAll_run, takeAll_word] at h
  obtain ⟨spaces, _, rfl, hspaces, -, after, rfl, -⟩ := h
  exact Discovery.ends_spaces hspaces (ends_append hhead hne)

end

/-! ## The tokens of the signature -/

theorem isIdentifier_passed : IsIdentifier "passed".toList :=
  ⟨⟨'p', rfl, rfl⟩, List.all_eq_true.mp (by decide), by decide⟩

theorem isIdentifier_failed : IsIdentifier "failed".toList :=
  ⟨⟨'f', rfl, rfl⟩, List.all_eq_true.mp (by decide), by decide⟩

theorem readAs_int {word rest : List Char} :
    ReadAs .intKw word rest ↔ word = "int".toList ∧ Ends isWord rest :=
  readAs_keyword (by decide) rfl (by decide)

theorem readAs_autotuner {word rest : List Char} :
    ReadAs .autotuner word rest ↔ word = "autotuner".toList ∧ Ends isWord rest :=
  readAs_keyword (by decide) rfl (by decide)

theorem readAs_comma {word rest : List Char} : ReadAs .comma word rest ↔ word = [','] :=
  readAs_operator [] (by decide) (by decide) rfl

theorem readAs_rparen {word rest : List Char} : ReadAs .rparen word rest ↔ word = [')'] :=
  readAs_operator [] (by decide) (by decide) rfl

theorem takeAll_outputs {text rest : List Char} :
    takeAll outputs text = some rest ↔ Spans outputTokens text rest := by
  refine takeAll_operator (fun _ _ => readAs_arrow) rfl (by decide) ?_ text
  refine takeAll_operator (fun _ _ => readAs_lparen) rfl (by decide) ?_
  refine takeAll_words (fun _ _ => readAs_int) (fun _ _ => readAs_named isIdentifier_passed) rfl
    (by decide) rfl rfl ?_ fun _ h => ends_of_operator rfl (by decide) h
  refine takeAll_operator (fun _ _ => readAs_comma) rfl (by decide) ?_
  refine takeAll_words (fun _ _ => readAs_int) (fun _ _ => readAs_named isIdentifier_failed) rfl
    (by decide) rfl rfl ?_ fun _ h => ends_of_operator rfl (by decide) h
  refine takeAll_operator (fun _ _ => readAs_rparen) rfl (by decide) ?_
  exact fun after => takeAll_nil after rest


/-! ## The whole pattern -/

/-- What `[A-Za-z_][A-Za-z0-9_]*` matches. -/
def IsName (name : List Char) : Prop :=
  ∃ c cs, name = c :: cs ∧ isLetter c = true ∧ ∀ x ∈ cs, isWord x = true

theorem IsName.ends_isSpace {name rest : List Char} (h : IsName name) :
    Ends isSpace (name ++ rest) := by
  obtain ⟨c, cs, rfl, hc, -⟩ := h
  refine Bool.eq_false_iff.mpr fun (hspace : isSpace c = true) => ?_
  have hword := isWord_of_isLetter hc
  rw [not_isWord_of_isSpace hspace] at hword
  cases hword

theorem take_signaturePattern {text group rest : List Char} :
    signaturePattern.take text = some (group, rest) ↔ ∃ c cs after,
      text = "autotuner".toList ++ (c :: cs ++ (group ++ after)) ∧ IsSpaces (c :: cs) ∧
        IsName group ∧ Ends isWord after ∧ Spans outputTokens after rest := by
  rw [Pattern.take_eq_some]
  change (∃ fromGroup fromAfter,
    takeAll [.word "autotuner".toList, .one isSpace, .run isSpace] text = some fromGroup ∧
      takeAll [.one isLetter, .run isWord] fromGroup = some fromAfter ∧
        takeAll outputs fromAfter = some rest ∧
          fromGroup.take (fromGroup.length - fromAfter.length) = group) ↔ _
  simp only [takeAll_word, takeAll_one, takeAll_run, takeAll_nil, takeAll_outputs]
  constructor
  · rintro ⟨_, _, ⟨_, rfl, c, _, rfl, hc, cs, _, rfl, hcs, -, rfl⟩,
      ⟨d, _, rfl, hd, ds, after, rfl, hds, hends, rfl⟩, hspans, rfl⟩
    have htake : (d :: (ds ++ after)).take ((d :: (ds ++ after)).length - after.length) = d :: ds :=
      take_length_sub (d :: ds) after
    rw [htake]
    exact ⟨c, cs, after, rfl, List.forall_mem_cons.mpr ⟨hc, hcs⟩, ⟨d, ds, rfl, hd, hds⟩, hends, hspans⟩
  · rintro ⟨c, cs, after, rfl, hall, hname, hends, hspans⟩
    obtain ⟨hc, hcs⟩ := List.forall_mem_cons.mp hall
    have hstart : Ends isSpace (group ++ after) := hname.ends_isSpace
    obtain ⟨d, ds, rfl, hd, hds⟩ := hname
    exact ⟨_, after, ⟨_, rfl, c, _, rfl, hc, cs, _, rfl, hcs, hstart, rfl⟩,
      ⟨d, _, rfl, hd, ds, _, rfl, hds, hends, rfl⟩, hspans, take_length_sub _ _⟩

/-- The signature is matched where its tokens stand with nothing but white space between them. -/
theorem take_of_spans {name : String} {text rest : List Char} (hends : Ends isSpace text)
    (h : Spans (signature name) text rest) :
    signaturePattern.take text = some (name.toList, rest) := by
  obtain ⟨spaces, _, _, rfl, hspaces, hkeyword, gap, word, after, rfl, hgap, hname, hspans⟩ := h
  obtain ⟨rfl, hword⟩ := readAs_autotuner.mp hkeyword
  obtain ⟨rfl, hidentifier, hafter⟩ := readAs_identifier.mp hname
  obtain ⟨c, hhead, hc⟩ := hidentifier.first
  obtain ⟨cs, rfl⟩ := List.head?_eq_some_iff.mp hhead
  have hcs : ∀ x ∈ cs, isWord x = true := fun x hx =>
    hidentifier.chars x (List.mem_cons_of_mem c hx)
  rw [take_signaturePattern]
  cases spaces with
  | cons d ds => exact absurd (hspaces d List.mem_cons_self) (Bool.eq_false_iff.mp hends)
  | nil =>
    cases gap with
    | nil => exact absurd (isWord_of_isLetter hc) (Bool.eq_false_iff.mp hword)
    | cons d ds =>
      rw [String.toList_ofList (l := c :: cs)]
      exact ⟨d, ds, after, rfl, hgap, ⟨c, cs, rfl, hc, hcs⟩, hafter, hspans⟩

section

variable {text group rest : List Char}

/-- A match begins with the keyword. -/
theorem lex_of_take (h : signaturePattern.take text = some (group, rest)) :
    ∃ after, text = "autotuner".toList ++ after ∧ ReadAs .autotuner "autotuner".toList after := by
  obtain ⟨c, cs, after, rfl, hspaces, -⟩ := take_signaturePattern.mp h
  have hends := not_isWord_of_isSpace (hspaces c List.mem_cons_self)
  exact ⟨_, rfl, readAs_autotuner.mpr ⟨rfl, hends⟩⟩

/-- What is matched is a signature, of a name that can be a keyword. -/
theorem tokens_of_take (h : signaturePattern.take text = some (group, rest)) :
    tokens text = .autotuner :: wordToken group :: (outputTokens ++ tokens rest) := by
  obtain ⟨c, cs, after, rfl, hspaces, hname, hends, hspans⟩ := take_signaturePattern.mp h
  have hgap : Ends isWord (c :: cs ++ (group ++ after)) :=
    not_isWord_of_isSpace (hspaces c List.mem_cons_self)
  have hstart : Ends isSpace (group ++ after) := hname.ends_isSpace
  obtain ⟨d, ds, rfl, hd, hds⟩ := hname
  have hgroup : ReadAs (wordToken (d :: ds)) (d :: ds) after := lex_word hd hds hends
  rw [(readAs_autotuner.mpr ⟨rfl, hgap⟩).tokens, tokens_spaces hspaces hstart, hgroup.tokens,
    hspans.tokens]

end

end FalconLib.Cli.Signature
