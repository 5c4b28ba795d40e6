import FalconLib.Cli.Signature

/-!
# Suites of a program

A program is a row of declarations. The search and the scan find the suites among them, if no
comment and no literal misleads them.
-/

namespace FalconLib.Cli.SuiteBlocks

open FalconLib.Base.Patterns
open FalconLib.Parser.Lexer
open FalconLib.Parser.Spelling
open Discovery (Clear Hidden analyseSuiteBody attemptState_eq_some)
open Injection
open Signature
open TestMain (SuiteInfo)

/-! ## Programs -/

def tokensOf (xs : List Lexeme) : List Token := xs.filterMap Lexeme.token?

@[simp] theorem tokensOf_append (xs ys : List Lexeme) :
    tokensOf (xs ++ ys) = tokensOf xs ++ tokensOf ys := List.filterMap_append

@[simp] theorem tokensOf_token (token : Token) (text : List Char) (xs : List Lexeme) :
    tokensOf (.token token text :: xs) = token :: tokensOf xs := rfl

@[simp] theorem tokensOf_nil : tokensOf [] = [] := rfl

theorem mem_tokensOf {left right : List Lexeme} {x : Lexeme} {token : Token}
    (h : x.token? = some token) : token ∈ tokensOf (left ++ x :: right) := by
  unfold tokensOf
  rw [List.filterMap_append, List.filterMap_cons_some h]
  exact List.mem_append_right _ List.mem_cons_self

/-- An `autotuner_decl`, with what is skipped between its tokens. -/
structure AutotunerText where
  name : String
  /-- Between the keyword and the parenthesis that closes the outputs. -/
  head : List Lexeme
  gap : List Lexeme
  /-- Between the braces. -/
  inner : List Lexeme

namespace AutotunerText

variable (a : AutotunerText)

def declaration : List Lexeme :=
  .token .autotuner "autotuner".toList :: (a.head ++ [.token .rparen [')']])

def opening : List Lexeme := a.declaration ++ a.gap

def rest : List Lexeme := .token .lbrace ['{'] :: (a.inner ++ [.token .rbrace ['}']])

def lexemes : List Lexeme := a.opening ++ a.rest

/-- It has the signature of a suite. -/
def IsSuite : Prop := tokensOf a.declaration = signature a.name

instance : Decidable a.IsSuite := inferInstanceAs (Decidable (_ = _))

/-- The parser accepts no other. -/
structure Grammatical : Prop where
  named : ∃ more, tokensOf a.head = .identifier a.name :: more
  head : .autotuner ∉ tokensOf a.head
  inner : .autotuner ∉ tokensOf a.inner
  /-- The outputs end with their parenthesis. -/
  whole : signature a.name <+: tokensOf a.declaration → a.IsSuite
  gap : tokensOf a.gap = []
  paired : depthAfter 0 a.inner = some 0

end AutotunerText

inductive Item where
  /-- An import, a struct, a routine or a foreign import, or what is skipped between them. -/
  | other (xs : List Lexeme)
  | autotuner (a : AutotunerText)

def Item.lexemes : Item → List Lexeme
  | other xs => xs
  | autotuner a => a.lexemes

def Item.Grammatical : Item → Prop
  | other xs => .autotuner ∉ tokensOf xs
  | autotuner a => a.Grammatical

def lexemes (items : List Item) : List Lexeme := items.flatMap Item.lexemes

/-- What the grammar asks of the lexemes. -/
structure IsProgram (items : List Item) (src : List Char) : Prop where
  source : lex src = lexemes items
  items : ∀ item ∈ items, item.Grammatical
  /-- No operand begins with a star. -/
  division : ¬[.div, .mul] <:+: tokens src
  /-- A declaration ends with a semicolon, a parenthesis or a brace. -/
  previous : ∀ before after previous, tokens src = before ++ .autotuner :: after →
    before.getLast? = some previous → ∃ listed ∈ operators, listed.2 = previous

/-! ## Where no match begins -/

section

variable {src : List Char} {before after : List Lexeme} {x : Lexeme}

theorem attemptSignature_eq_some {previous : Option Char} {text : List Char}
    {found : List Char × List Char} :
    attemptSignature previous text = some found ↔
      Clear previous ∧ signaturePattern.take text = some found := by
  refine attemptState_eq_some fun h => ?_
  obtain ⟨after, rfl, -⟩ := lex_of_take h
  rfl

/-- A match begins with the keyword. -/
theorem start_of_match (hsrc : lex src = before ++ x :: after) (hhidden : ¬IsHidden x)
    {a b : List Char} (htext : x.text = a ++ b) (hb : b ≠ []) {found : List Char × List Char}
    (hmatch : attemptSignature (lastOf none (render before ++ a)) (b ++ render after) =
      some found) : a = [] ∧ x.token? = some .autotuner := by
  obtain ⟨hclear, htake⟩ := attemptSignature_eq_some.mp hmatch
  obtain ⟨more, hmore, hread⟩ := lex_of_take htake
  obtain ⟨c, b, rfl⟩ := List.exists_cons_of_ne_nil hb
  obtain rfl : c = 'a' := (List.cons.inj hmore).1
  obtain ⟨d, rest, hnext, -⟩ := exists_next_of_mem hsrc
  have hshape : Shape x.text := hnext ▸ shape_next (hnext ▸ hhidden)
  have ha : a = [] := by
    by_contra hne
    unfold lastOf at hclear
    rw [List.getLast?_append_of_ne_nil _ hne, Option.or_none] at hclear
    exact hne (hshape.start_of_word htext rfl ⟨rfl, by decide⟩ hclear)
  subst ha
  have hlex := lex_render_of_append hsrc
  rw [render_cons, htext, List.nil_append, hmore, hread] at hlex
  exact ⟨rfl, congrArg Lexeme.token? (List.cons.inj hlex).1.symm⟩

/-- Lexemes in which no signature begins are passed over. -/
theorem passed {xs : List Lexeme} (hsrc : lex src = before ++ (xs ++ after))
    (hhidden : ∀ name, ¬Hidden attemptSignature name src)
    (hnone : ∀ left x right found, xs = left ++ x :: right → x.token? = some .autotuner →
      signaturePattern.take (render (x :: (right ++ after))) ≠ some found) :
    findAll attemptSignature 0 (lastOf none (render before)) (render (xs ++ after)) =
      findAll attemptSignature 0 (lastOf none (render (before ++ xs))) (render after) := by
  rw [render_append, render_append, lastOf_append]
  refine findAll_of_no_match fun left right hsplit hright => ?_
  cases hmatch : attemptSignature (lastOf (lastOf none (render before)) left)
    (right ++ render after) with
  | none => rfl
  | some found =>
    obtain ⟨left', x, right', a, b, rfl, htext, hb, rfl, rfl⟩ := exists_lexeme_at hsplit hright
    have hlex : lex src = (before ++ left') ++ x :: (right' ++ after) := by
      rw [hsrc]
      simp
    have hplace : attemptSignature (lastOf none (render (before ++ left') ++ a))
        (b ++ render (right' ++ after)) = some found := by
      rw [← hmatch, ← lastOf_append]
      simp
    by_cases hx : IsHidden x
    · refine absurd ?_ (hhidden (String.ofList found.1))
      refine ⟨_, x, _, a, b, found.2, hlex, hx, htext, hb, ?_⟩
      rw [String.toList_ofList]
      exact hplace
    · obtain ⟨rfl, htoken⟩ := start_of_match hlex hx htext hb hplace
      rw [List.nil_append] at htext
      refine absurd ?_ (hnone left' x right' found rfl htoken)
      rw [render_cons, htext]
      exact (attemptSignature_eq_some.mp hplace).2

theorem passed_of_not_mem {xs : List Lexeme} (hsrc : lex src = before ++ (xs ++ after))
    (hhidden : ∀ name, ¬Hidden attemptSignature name src) (hxs : .autotuner ∉ tokensOf xs) :
    findAll attemptSignature 0 (lastOf none (render before)) (render (xs ++ after)) =
      findAll attemptSignature 0 (lastOf none (render (before ++ xs))) (render after) := by
  refine passed hsrc hhidden ?_
  rintro left x right found rfl htoken
  exact absurd (mem_tokensOf htoken) hxs

end


/-! ## The declaration of an autotuner -/

/-- Nothing misleads the search or the scan. -/
structure AutotunerText.Plain (a : AutotunerText) : Prop where
  /-- Only white space stands between the tokens of the signature. -/
  spelled : ∀ x ∈ a.head, x.token? = none → IsSpaces x.text
  /-- The first brace after it is that of the suite. -/
  opened : '{' ∉ render a.gap
  clean : Clean a.inner

theorem isPrefix_of_not_mem {α : Type} {a b c : List α} {x : α} (h : a <+: b ++ x :: c)
    (hx : x ∉ a) : a <+: b := by
  obtain ⟨more, hmore⟩ := h
  rcases List.append_eq_append_iff.mp hmore with ⟨between, rfl, -⟩ | ⟨between, rfl, hbetween⟩
  · exact List.prefix_append a between
  · cases between with
    | nil => exact ⟨[], by simp⟩
    | cons y between =>
      obtain rfl := (List.cons.inj hbetween).1
      exact absurd (List.mem_append_right b List.mem_cons_self) hx

theorem lbrace_not_mem_signature (name : String) : .lbrace ∉ signature name := by
  unfold signature outputTokens
  simp

section

variable {src : List Char} {before after : List Lexeme} {a : AutotunerText}

theorem tokensOf_lexemes (ha : a.Grammatical) : tokensOf (a.lexemes ++ after) =
    tokensOf a.declaration ++ .lbrace :: (tokensOf a.inner ++ .rbrace :: tokensOf after) := by
  unfold AutotunerText.lexemes AutotunerText.opening AutotunerText.rest
  simp [ha.gap]

/-- Only suites are matched. -/
theorem isSuite_of_take (ha : a.Grammatical) (hsrc : lex src = before ++ (a.lexemes ++ after))
    {found : List Char × List Char}
    (htake : signaturePattern.take (render (a.lexemes ++ after)) = some found) : a.IsSuite := by
  have htokens := tokens_of_take htake
  have hlex : tokens (render (a.lexemes ++ after)) = tokensOf (a.lexemes ++ after) :=
    congrArg tokensOf (lex_render_of_append hsrc)
  rw [hlex, tokensOf_lexemes ha] at htokens
  obtain ⟨more, hnamed⟩ := ha.named
  have hname : wordToken found.1 = .identifier a.name := by
    unfold AutotunerText.declaration at htokens
    rw [tokensOf_token, tokensOf_append, hnamed] at htokens
    exact (List.cons.inj (List.cons.inj htokens).2).1.symm
  rw [hname] at htokens
  have hprefix : signature a.name <+: tokensOf a.declaration ++ .lbrace ::
      (tokensOf a.inner ++ .rbrace :: tokensOf after) := ⟨tokens found.2, htokens.symm⟩
  exact ha.whole (isPrefix_of_not_mem hprefix (lbrace_not_mem_signature a.name))

/-- No other autotuner is seen. -/
theorem passed_autotuner (ha : a.Grammatical) (hsrc : lex src = before ++ (a.lexemes ++ after))
    (hhidden : ∀ name, ¬Hidden attemptSignature name src) (hsuite : ¬a.IsSuite) :
    findAll attemptSignature 0 (lastOf none (render before)) (render (a.lexemes ++ after)) =
      findAll attemptSignature 0 (lastOf none (render (before ++ a.lexemes))) (render after) := by
  refine passed hsrc hhidden fun left x right found hsplit htoken htake => ?_
  cases left with
  | nil =>
    rw [← List.cons_append, ← List.nil_append (x :: right), ← hsplit] at htake
    exact hsuite (isSuite_of_take ha hsrc htake)
  | cons y left =>
    have htail : a.head ++ .token .rparen [')'] :: (a.gap ++ a.rest) = left ++ x :: right := by
      refine Eq.trans ?_ (List.cons.inj hsplit).2
      simp
    have hmem : .autotuner ∈ tokensOf (left ++ x :: right) := mem_tokensOf htoken
    rw [← htail] at hmem
    unfold AutotunerText.rest at hmem
    simp [ha.gap, ha.head, ha.inner] at hmem

end


/-! ## The block of a suite -/

def AutotunerText.block (a : AutotunerText) (start : Nat) : AutotunerBlock where
  name := a.name
  openBrace := start + (render a.opening).length
  closeBrace := start + (render a.opening).length + 1 + (render a.inner).length

section

variable {src : List Char} {before after : List Lexeme} {a : AutotunerText}

theorem spans_declaration (hsuite : a.IsSuite) (hplain : a.Plain)
    (hsrc : lex src = before ++ (a.declaration ++ after)) :
    Spans (signature a.name) (render (a.declaration ++ after)) (render after) := by
  have hsplit : lex src = before ++ ((.token .autotuner "autotuner".toList :: a.head) ++
      .token .rparen [')'] :: after) := by
    rw [hsrc]
    simp [AutotunerText.declaration]
  have hspans := spans_of_lexemes hsplit fun x hx hnone => by
    rcases List.mem_cons.mp hx with rfl | hx
    · cases hnone
    · exact hplain.spelled x hx hnone
  have htext : a.declaration ++ after =
      (.token .autotuner "autotuner".toList :: a.head) ++ .token .rparen [')'] :: after := by
    simp [AutotunerText.declaration]
  rw [htext, ← hsuite]
  exact hspans

theorem exists_declaration (a : AutotunerText) :
    ∃ text, render a.declaration = 'a' :: text := ⟨_, rfl⟩

/-- A suite is matched, and the search goes on in its body. -/
theorem matched (hsuite : a.IsSuite) (hplain : a.Plain)
    (hsrc : lex src = before ++ (a.declaration ++ after))
    (hclear : Clear (lastOf none (render before))) :
    findAll attemptSignature 0 (lastOf none (render before)) (render (a.declaration ++ after)) =
      (a.name.toList, render after) ::
        findAll attemptSignature 0 (lastOf none (render (before ++ a.declaration)))
          (render after) := by
  obtain ⟨text, htext⟩ := exists_declaration a
  have hends : Ends isSpace (render (a.declaration ++ after)) := by
    rw [render_append, htext]
    rfl
  have hne : render a.declaration ≠ [] := by
    rw [htext]
    exact List.cons_ne_nil 'a' text
  have htake := take_of_spans hends (spans_declaration hsuite hplain hsrc)
  have hmatch := attemptSignature_eq_some.mpr ⟨hclear, htake⟩
  rw [render_append] at hmatch ⊢
  rw [findAll_of_match hne hmatch, render_append, lastOf_append]

theorem findIdx?_append_cons {text rest : List Char} {c : Char} (h : c ∉ text) :
    (text ++ c :: rest).findIdx? (· = c) = some text.length := by
  rw [List.findIdx?_eq_some_iff_getElem]
  refine ⟨by simp, by simp, fun j hj => ?_⟩
  rw [List.getElem_append_left hj]
  intro heq
  exact h (of_decide_eq_true heq ▸ List.getElem_mem hj)

/-- The scan ends at the brace that closes the autotuner. -/
theorem findMatchingBrace_rest (ha : a.Grammatical) (hclean : Clean a.inner)
    (hdiv : ¬[.div, .mul] <:+: tokens src) (hsrc : lex src = before ++ (a.rest ++ after)) :
    findMatchingBrace src (render before).length =
      some ((render before).length + 1 + (render a.inner).length) := by
  have htext : src = render before ++ render (a.rest ++ after) := by
    rw [← render_append, ← hsrc, render_lex]
  have hsplit : lex src = (before ++ [.token .lbrace ['{']]) ++
      (a.inner ++ .token .rbrace ['}'] :: after) := by
    rw [hsrc]
    simp [AutotunerText.rest]
  have hcode : Ready .code (render (a.inner ++ .token .rbrace ['}'] :: after)) := trivial
  obtain ⟨mode, hready, hscan⟩ :=
    scan_lexemes hdiv hclean hsplit ha.paired hcode ((render before).length + 1)
  have hdrop : src.drop (render before).length =
      '{' :: render (a.inner ++ .token .rbrace ['}'] :: after) := by
    conv_lhs => rw [htext]
    rw [List.drop_left]
    simp [AutotunerText.rest, Lexeme.text]
  unfold findMatchingBrace
  rw [hdrop]
  refine Eq.trans hscan ?_
  cases mode with
  | code => rfl
  | lineComment => cases hready
  | string => exact hready.elim
  | blockComment => exact hready.elim

theorem block_declaration (ha : a.Grammatical) (hplain : a.Plain)
    (hdiv : ¬[.div, .mul] <:+: tokens src) (hsrc : lex src = before ++ (a.lexemes ++ after)) :
    block src (a.name.toList, render (a.gap ++ (a.rest ++ after))) =
      some (a.block (render before).length) := by
  have hsplit : lex src = (before ++ a.opening) ++ (a.rest ++ after) := by
    rw [hsrc]
    simp [AutotunerText.lexemes]
  have hclose := findMatchingBrace_rest ha hplain.clean hdiv hsplit
  have htext : src = render (before ++ a.declaration) ++ render (a.gap ++ (a.rest ++ after)) := by
    rw [← render_append, ← render_lex src, hsplit]
    simp [AutotunerText.opening]
  have hend : src.length - (render (a.gap ++ (a.rest ++ after))).length =
      (render (before ++ a.declaration)).length := by
    conv_lhs => rw [htext, List.length_append, Nat.add_sub_cancel_right]
  have hdrop : src.drop (render (before ++ a.declaration)).length =
      render a.gap ++ '{' :: render (a.inner ++ .token .rbrace ['}'] :: after) := by
    conv_lhs => rw [htext]
    rw [List.drop_left]
    simp [AutotunerText.rest, Lexeme.text]
  have hopen : (render (before ++ a.declaration)).length + (render a.gap).length =
      (render (before ++ a.opening)).length := by
    simp [AutotunerText.opening, Nat.add_assoc]
  unfold block
  dsimp only
  rw [hend, hdrop, findIdx?_append_cons hplain.opened]
  dsimp only
  rw [hopen, hclose, String.ofList_toList]
  unfold AutotunerText.block
  rw [render_append, List.length_append]
  rfl

end


/-! ## The blocks of a program -/

/-- The blocks of the item, if it starts here. -/
def Item.blocks (start : Nat) : Item → List AutotunerBlock
  | other _ => []
  | autotuner a => if a.IsSuite then [a.block start] else []

def blocksOf : Nat → List Item → List AutotunerBlock
  | _, [] => []
  | start, item :: items =>
    item.blocks start ++ blocksOf (start + (render item.lexemes).length) items

def Item.Plain : Item → Prop
  | other _ => True
  | autotuner a => a.IsSuite → a.Plain

/-- No text is taken for another than it is. -/
structure Plain (items : List Item) (src : List Char) : Prop where
  items : ∀ item ∈ items, item.Plain
  /-- No signature begins in a comment or a string literal. -/
  hidden : ∀ name, ¬Hidden attemptSignature name src

/-- The blocks of the matches from here on. -/
def blocksFrom (src : List Char) (before after : List Lexeme) : List AutotunerBlock :=
  (findAll attemptSignature 0 (lastOf none (render before)) (render after)).filterMap (block src)

theorem clear_before {items : List Item} {src : List Char} (hprogram : IsProgram items src)
    {before after : List Lexeme} {text : List Char}
    (hsrc : lex src = before ++ .token .autotuner text :: after) :
    Clear (lastOf none (render before)) := by
  unfold Clear lastOf
  rw [Option.or_none]
  refine getLast_before hsrc fun previous hprevious => ?_
  refine hprogram.previous _ (tokensOf after) previous ?_ hprevious
  unfold tokens
  rw [hsrc, List.filterMap_append]
  rfl

section

variable {src : List Char} {items : List Item}

/-- A suite: its block is found, and no other. -/
theorem blocksFrom_suite (hprogram : IsProgram items src)
    (hhidden : ∀ name, ¬Hidden attemptSignature name src) {a : AutotunerText}
    (ha : a.Grammatical) (hsuite : a.IsSuite) (hplain : a.Plain) {before after : List Lexeme}
    (hsrc : lex src = before ++ (a.lexemes ++ after)) :
    blocksFrom src before (a.lexemes ++ after) =
      a.block (render before).length :: blocksFrom src (before ++ a.lexemes) after := by
  have hdeclared : lex src = before ++ (a.declaration ++ (a.gap ++ (a.rest ++ after))) := by
    rw [hsrc]
    simp [AutotunerText.lexemes, AutotunerText.opening]
  have hbody : lex src = (before ++ a.declaration) ++ ((a.gap ++ a.rest) ++ after) := by
    rw [hdeclared]
    simp
  have hnone : .autotuner ∉ tokensOf (a.gap ++ a.rest) := by
    unfold AutotunerText.rest
    simp [ha.gap, ha.inner]
  have htext : a.lexemes ++ after = a.declaration ++ (a.gap ++ (a.rest ++ after)) := by
    simp [AutotunerText.lexemes, AutotunerText.opening]
  have hplace : before ++ a.lexemes = before ++ a.declaration ++ (a.gap ++ a.rest) := by
    simp [AutotunerText.lexemes, AutotunerText.opening]
  have hrest := passed_of_not_mem hbody hhidden hnone
  rw [List.append_assoc a.gap] at hrest
  unfold blocksFrom
  rw [htext, matched hsuite hplain hdeclared (clear_before hprogram hdeclared),
    List.filterMap_cons_some (block_declaration ha hplain hprogram.division hsrc), hrest, hplace]

/-- One item: its blocks are found, and nothing else. -/
theorem blocksFrom_item (hprogram : IsProgram items src)
    (hhidden : ∀ name, ¬Hidden attemptSignature name src) {item : Item}
    (hitem : item.Grammatical) (hplain : item.Plain) {before after : List Lexeme}
    (hsrc : lex src = before ++ (item.lexemes ++ after)) :
    blocksFrom src before (item.lexemes ++ after) =
      item.blocks (render before).length ++ blocksFrom src (before ++ item.lexemes) after := by
  cases item with
  | other xs => exact congrArg (List.filterMap (block src)) (passed_of_not_mem hsrc hhidden hitem)
  | autotuner a =>
    change _ = (if a.IsSuite then [a.block (render before).length] else []) ++ _
    by_cases hsuite : a.IsSuite
    · rw [if_pos hsuite]
      exact blocksFrom_suite hprogram hhidden hitem hsuite (hplain hsuite) hsrc
    · rw [if_neg hsuite]
      exact congrArg (List.filterMap (block src)) (passed_autotuner hitem hsrc hhidden hsuite)

theorem blocksFrom_items (hprogram : IsProgram items src) (hplain : Plain items src)
    {before : List Lexeme} {later : List Item} (hlater : later ⊆ items)
    (hsrc : lex src = before ++ lexemes later) :
    blocksFrom src before (lexemes later) = blocksOf (render before).length later := by
  induction later generalizing before with
  | nil => rfl
  | cons item later ih =>
    obtain ⟨hitem, hrest⟩ := List.cons_subset.mp hlater
    unfold lexemes at *
    rw [List.flatMap_cons] at hsrc ⊢
    have hsplit : lex src = (before ++ item.lexemes) ++ later.flatMap Item.lexemes := by
      rw [hsrc, List.append_assoc]
    rw [blocksFrom_item hprogram hplain.hidden (hprogram.items item hitem)
      (hplain.items item hitem) hsrc, ih hrest hsplit, render_append, List.length_append]
    rfl

/-- The search and the scan find the suites of the program. -/
theorem findSuiteBlocks_eq (hprogram : IsProgram items src) (hplain : Plain items src) :
    findSuiteBlocks src = blocksOf 0 items := by
  have hsrc : lex src = [] ++ lexemes items := hprogram.source
  have hblocks := blocksFrom_items hprogram hplain (List.Subset.refl items) hsrc
  unfold blocksFrom at hblocks
  rw [← hprogram.source, render_lex] at hblocks
  exact hblocks

end

end FalconLib.Cli.SuiteBlocks
