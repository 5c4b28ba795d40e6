import FalconLib.Base.Patterns
import FalconLib.Cli.TestMain
import FalconLib.Parser.Spelling

/-!
# Test discovery

`analyse_suite_body` searches the raw text of a suite. What it finds is compared with the tokens of
the text: the states that are declared and the transitions in their bodies.
-/

namespace FalconLib.Cli.Discovery

open FalconLib.Base.Patterns
open FalconLib.Parser.Lexer
open FalconLib.Parser.Spelling
open TestMain (SuiteInfo)

/-! ## The search -/

/-- `test_[A-Za-z0-9_]+`. -/
def testName : List Part := [.word "test_".toList, .one isWord, .run isWord]

/-- `\s*\(`. -/
def opening : List Part := [.run isSpace, .word "(".toList]

/-- `state\s+`. -/
def stateKeyword : List Part := [.word "state".toList, .one isSpace, .run isSpace]

def statePattern : Pattern := ⟨stateKeyword, testName, opening⟩

def transitionPattern : Pattern := ⟨[.word "->".toList, .run isSpace], testName, opening⟩

/-- `\bstate\s+…`. -/
def attemptState (pattern : Pattern) (previous : Option Char) (text : List Char) :
    Option (List Char × List Char) :=
  if boundary isWord previous text then pattern.take text else none

def attemptTransition (_ : Option Char) (text : List Char) : Option (List Char × List Char) :=
  transitionPattern.take text

def names (found : List (List Char × List Char)) : List String :=
  found.map fun found => String.ofList found.1

def allTestStates (body : List Char) : List String :=
  names (findAll (attemptState statePattern) 0 none body)

def targets (body : List Char) : List String := names (findAll attemptTransition 0 none body)

/-- `std::regex_search` for `\bstate\s+name\s*\(`. -/
def declares (name : String) (body : List Char) : Bool :=
  !(findAll (attemptState ⟨stateKeyword, [.word name.toList], opening⟩) 0 none body).isEmpty

def analyseSuiteBody (name : String) (body : List Char) : SuiteInfo where
  name := name
  testNames := (allTestStates body).filter fun state => state ∉ targets body
  hasSetup := declares "setup" body
  hasTeardown := declares "teardown" body

/-! ## The names of tests -/

def testPrefix : List Char := ['t', 'e', 's', 't', '_']

/-- What `test_[A-Za-z0-9_]+` matches. -/
def IsTestName (name : List Char) : Prop :=
  ∃ c cs, name = testPrefix ++ c :: cs ∧ ∀ x ∈ c :: cs, isWord x = true

theorem IsTestName.ends {name rest : List Char} (h : IsTestName name) :
    Ends isSpace (name ++ rest) := by
  obtain ⟨c, cs, rfl, -⟩ := h
  rfl

theorem IsTestName.not_ends {name rest : List Char} (h : IsTestName name) :
    ¬Ends isWord (name ++ rest) := by
  obtain ⟨c, cs, rfl, -⟩ := h
  exact nofun

theorem ends_spaces {spaces rest : List Char} (h : IsSpaces spaces) (hrest : Ends isWord rest) :
    Ends isWord (spaces ++ rest) := by
  cases spaces with
  | nil => exact hrest
  | cons c cs => exact not_isWord_of_isSpace (h c List.mem_cons_self)

theorem takeAll_testName {text after : List Char} :
    takeAll testName text = some after ↔
      ∃ name, text = name ++ after ∧ IsTestName name ∧ Ends isWord after := by
  unfold testName
  simp only [takeAll_word, takeAll_one, takeAll_run, takeAll_nil]
  constructor
  · rintro ⟨_, rfl, c, _, rfl, hc, cs, _, rfl, hcs, hends, rfl⟩
    refine ⟨testPrefix ++ c :: cs, by simp [testPrefix], ⟨c, cs, rfl, ?_⟩, hends⟩
    intro x hx
    rcases List.mem_cons.mp hx with rfl | hx
    · exact hc
    · exact hcs x hx
  · rintro ⟨_, rfl, ⟨c, cs, rfl, hall⟩, hends⟩
    exact ⟨_, by simp [testPrefix], c, cs ++ after, rfl, hall c List.mem_cons_self, cs, after, rfl,
      fun x hx => hall x (List.mem_cons_of_mem c hx), hends, rfl⟩

theorem takeAll_opening {text rest : List Char} :
    takeAll opening text = some rest ↔
      ∃ spaces, text = spaces ++ '(' :: rest ∧ IsSpaces spaces := by
  unfold opening
  simp only [takeAll_word, takeAll_run, takeAll_nil]
  constructor
  · rintro ⟨spaces, _, rfl, hspaces, -, _, rfl, rfl⟩
    exact ⟨spaces, rfl, hspaces⟩
  · rintro ⟨spaces, rfl, hspaces⟩
    exact ⟨spaces, '(' :: rest, rfl, hspaces, rfl, rest, rfl, rfl⟩

/-- What the group of both patterns and the rest of them match. -/
theorem takeAll_testName_opening {text group rest : List Char} :
    (∃ fromAfter, takeAll testName text = some fromAfter ∧ takeAll opening fromAfter = some rest ∧
      text.take (text.length - fromAfter.length) = group) ↔
    ∃ spaces, text = group ++ (spaces ++ '(' :: rest) ∧ IsTestName group ∧ IsSpaces spaces := by
  simp only [takeAll_testName, takeAll_opening]
  constructor
  · rintro ⟨_, ⟨name, rfl, hname, -⟩, ⟨spaces, rfl, hspaces⟩, rfl⟩
    rw [take_length_sub]
    exact ⟨spaces, rfl, hname, hspaces⟩
  · rintro ⟨spaces, rfl, hname, hspaces⟩
    refine ⟨_, ⟨group, rfl, hname, ?_⟩, ⟨spaces, rfl, hspaces⟩, take_length_sub _ _⟩
    exact ends_spaces hspaces rfl

theorem takeAll_stateKeyword {text after : List Char} :
    takeAll stateKeyword text = some after ↔ ∃ c cs, text = "state".toList ++ (c :: cs ++ after) ∧
      IsSpaces (c :: cs) ∧ Ends isSpace after := by
  unfold stateKeyword
  simp only [takeAll_word, takeAll_one, takeAll_run, takeAll_nil]
  constructor
  · rintro ⟨_, rfl, c, _, rfl, hc, cs, _, rfl, hcs, hends, rfl⟩
    exact ⟨c, cs, rfl, List.forall_mem_cons.mpr ⟨hc, hcs⟩, hends⟩
  · rintro ⟨c, cs, rfl, hall, hends⟩
    obtain ⟨hc, hcs⟩ := List.forall_mem_cons.mp hall
    exact ⟨_, rfl, c, cs ++ after, rfl, hc, cs, after, rfl, hcs, hends, rfl⟩

theorem take_statePattern {text group rest : List Char} :
    statePattern.take text = some (group, rest) ↔ ∃ c cs spaces,
      text = "state".toList ++ (c :: cs ++ (group ++ (spaces ++ '(' :: rest))) ∧
        IsSpaces (c :: cs) ∧ IsTestName group ∧ IsSpaces spaces := by
  rw [Pattern.take_eq_some]
  change (∃ fromGroup fromAfter, takeAll stateKeyword text = some fromGroup ∧
    takeAll testName fromGroup = some fromAfter ∧ takeAll opening fromAfter = some rest ∧
      fromGroup.take (fromGroup.length - fromAfter.length) = group) ↔ _
  simp only [exists_and_left, takeAll_testName_opening, takeAll_stateKeyword]
  constructor
  · rintro ⟨_, ⟨c, cs, rfl, hspace, -⟩, spaces, rfl, hname, hspaces⟩
    exact ⟨c, cs, spaces, rfl, hspace, hname, hspaces⟩
  · rintro ⟨c, cs, spaces, rfl, hspace, hname, hspaces⟩
    exact ⟨_, ⟨c, cs, rfl, hspace, hname.ends⟩, spaces, rfl, hname, hspaces⟩

theorem take_transitionPattern {text group rest : List Char} :
    transitionPattern.take text = some (group, rest) ↔ ∃ gap spaces,
      text = "->".toList ++ (gap ++ (group ++ (spaces ++ '(' :: rest))) ∧
        IsSpaces gap ∧ IsTestName group ∧ IsSpaces spaces := by
  rw [Pattern.take_eq_some]
  change (∃ fromGroup fromAfter, takeAll [.word "->".toList, .run isSpace] text = some fromGroup ∧
    takeAll testName fromGroup = some fromAfter ∧ takeAll opening fromAfter = some rest ∧
      fromGroup.take (fromGroup.length - fromAfter.length) = group) ↔ _
  simp only [exists_and_left, takeAll_testName_opening, takeAll_word, takeAll_run, takeAll_nil]
  constructor
  · rintro ⟨_, ⟨_, rfl, gap, _, rfl, hgap, -, rfl⟩, spaces, rfl, hname, hspaces⟩
    exact ⟨gap, spaces, rfl, hgap, hname, hspaces⟩
  · rintro ⟨gap, spaces, rfl, hgap, hname, hspaces⟩
    exact ⟨_, ⟨_, rfl, gap, _, rfl, hgap, hname.ends, rfl⟩, spaces, rfl, hname, hspaces⟩

/-! ## Searched rows of tokens -/

theorem not_testPrefix_keywords : ∀ keyword ∈ keywords, ¬testPrefix <+: keyword.1 := by decide

theorem testPrefix_words : ∀ x ∈ testPrefix, isWord x = true :=
  List.all_eq_true.mp (by decide)

theorem IsTestName.isIdentifier {name : List Char} (h : IsTestName name) : IsIdentifier name := by
  obtain ⟨c, cs, rfl, hall⟩ := h
  constructor
  · exact ⟨'t', rfl, rfl⟩
  · intro x hx
    rcases List.mem_append.mp hx with hx | hx
    · exact testPrefix_words x hx
    · exact hall x hx
  · rw [List.lookup_eq_none_iff]
    intro keyword hmem
    refine bne_iff_ne.mpr fun heq => not_testPrefix_keywords keyword hmem ?_
    rw [← heq]
    exact List.prefix_append testPrefix (c :: cs)

theorem readAs_state {word rest : List Char} :
    ReadAs .state word rest ↔ word = "state".toList ∧ Ends isWord rest :=
  readAs_keyword (by decide) rfl (by decide)

theorem readAs_testName {name : String} (hname : IsTestName name.toList) {word rest : List Char} :
    ReadAs (.identifier name) word rest ↔ word = name.toList ∧ Ends isWord rest :=
  readAs_named hname.isIdentifier

/-- The name of a test and the parenthesis after it. -/
theorem row_testName {name : String} (hname : IsTestName name.toList) {text : List Char} :
    Row [.identifier name, .lparen] (lex text) ↔ ∃ gap spaces rest,
      text = gap ++ (name.toList ++ (spaces ++ '(' :: rest)) ∧ IsSpaces gap ∧ IsSpaces spaces := by
  simp only [row_cons, readAs_testName hname, readAs_lparen]
  constructor
  · rintro ⟨gap, _, _, rfl, hgap, ⟨rfl, -⟩, spaces, _, rest, rfl, hspaces, rfl, -⟩
    exact ⟨gap, spaces, rest, rfl, hgap, hspaces⟩
  · rintro ⟨gap, spaces, rest, rfl, hgap, hspaces⟩
    exact ⟨gap, _, _, rfl, hgap, ⟨rfl, ends_spaces hspaces rfl⟩, spaces, _, rest, rfl, hspaces, rfl,
      trivial⟩

theorem row_state {name : String} (hname : IsTestName name.toList) {text : List Char} :
    Row [.state, .identifier name, .lparen] (lex text) ↔ ∃ spaces right rest,
      text = spaces ++ right ∧ IsSpaces spaces ∧
        statePattern.take right = some (name.toList, rest) := by
  rw [row_cons]
  simp only [readAs_state, row_testName hname, take_statePattern]
  constructor
  · rintro ⟨before, _, _, rfl, hbefore, ⟨rfl, hends⟩, gap, spaces, rest, rfl, hgap, hspaces⟩
    cases gap with
    | nil => exact absurd hends hname.not_ends
    | cons c cs => exact ⟨before, _, rest, rfl, hbefore, c, cs, spaces, rfl, hgap, hname, hspaces⟩
  · rintro ⟨before, _, rest, rfl, hbefore, c, cs, spaces, rfl, hgap, -, hspaces⟩
    exact ⟨before, _, _, rfl, hbefore,
      ⟨rfl, not_isWord_of_isSpace (hgap c List.mem_cons_self)⟩, c :: cs, spaces, rest, rfl, hgap,
      hspaces⟩

theorem row_transition {name : String} (hname : IsTestName name.toList) {text : List Char} :
    Row [.arrow, .identifier name, .lparen] (lex text) ↔ ∃ spaces right rest,
      text = spaces ++ right ∧ IsSpaces spaces ∧
        transitionPattern.take right = some (name.toList, rest) := by
  rw [row_cons]
  simp only [readAs_arrow, row_testName hname, take_transitionPattern]
  constructor
  · rintro ⟨before, _, _, rfl, hbefore, rfl, gap, spaces, rest, rfl, hgap, hspaces⟩
    exact ⟨before, _, rest, rfl, hbefore, gap, spaces, rfl, hgap, hname, hspaces⟩
  · rintro ⟨before, _, rest, rfl, hbefore, gap, spaces, rfl, hgap, -, hspaces⟩
    exact ⟨before, _, _, rfl, hbefore, rfl, gap, spaces, rest, rfl, hgap, hspaces⟩

/-! ## Every match is found -/

/-- No word ends here. -/
def Clear (previous : Option Char) : Prop := previous.any isWord = false

theorem attemptState_eq_some {pattern : Pattern} {previous : Option Char} {text : List Char}
    {found : List Char × List Char} (hstart : pattern.take text = some found →
      text.head?.any isWord = true) :
    attemptState pattern previous text = some found ↔
      Clear previous ∧ pattern.take text = some found := by
  unfold attemptState boundary Clear
  constructor
  · intro h
    split_ifs at h with hboundary
    rw [hstart h] at hboundary
    exact ⟨by simpa using hboundary, h⟩
  · rintro ⟨hclear, h⟩
    rw [if_pos, h]
    rw [hstart h, hclear]
    rfl

theorem attemptState_statePattern {previous : Option Char} {text : List Char}
    {found : List Char × List Char} :
    attemptState statePattern previous text = some found ↔
      Clear previous ∧ statePattern.take text = some found := by
  refine attemptState_eq_some fun h => ?_
  obtain ⟨c, cs, spaces, rfl, -⟩ := take_statePattern.mp h
  rfl

theorem not_mem_spaces {c : Char} (hc : isSpace c = false) {spaces : List Char}
    (h : IsSpaces spaces) : c ∉ spaces := by
  intro hmem
  rw [h c hmem] at hc
  cases hc

theorem disjoint_state : Disjoint (attemptState statePattern) := by
  refine disjoint_of_guarded Clear 's' ?_ ?_
  · intro previous text found h
    obtain ⟨hclear, htake⟩ := attemptState_statePattern.mp h
    obtain ⟨c, cs, spaces, rfl, -⟩ := take_statePattern.mp htake
    exact ⟨rfl, hclear⟩
  · intro previous text name after h
    obtain ⟨-, htake⟩ := attemptState_statePattern.mp h
    obtain ⟨c, cs, spaces, rfl, hgap, ⟨x, xs, rfl, hall⟩, hspaces⟩ := take_statePattern.mp htake
    have hword : Guarded Clear 's' (some 'e') ("st_".toList ++ x :: xs) := by
      refine guarded_of_words (fun c hc => hc) rfl fun c hc => ?_
      rcases List.mem_append.mp hc with hc | hc
      · exact testPrefix_words c (List.mem_append_right ['t', 'e'] hc)
      · exact hall c hc
    have htail : Guarded Clear 's' (lastOf (some 'e') ("st_".toList ++ x :: xs))
        (spaces ++ ['(']) :=
      guarded_of_not_mem fun hmem => by
        rcases List.mem_append.mp hmem with hmem | hmem
        · exact not_mem_spaces rfl hspaces hmem
        · cases List.mem_singleton.mp hmem
    have hhead : Guarded Clear 's' (some 's') ("tate".toList ++ (c :: cs ++ "te".toList)) :=
      guarded_of_not_mem fun hmem => by
        rcases List.mem_append.mp hmem with hmem | hmem
        · revert hmem
          decide
        · rcases List.mem_append.mp hmem with hmem | hmem
          · exact not_mem_spaces rfl hgap hmem
          · revert hmem
            decide
    have hlast : lastOf (some 's') ("tate".toList ++ (c :: cs ++ "te".toList)) = some 'e' := by
      rw [← List.append_assoc, lastOf_append]
      rfl
    refine ⟨"tate".toList ++ (c :: cs ++ "te".toList) ++ (("st_".toList ++ x :: xs) ++
      (spaces ++ ['('])), by simp [testPrefix], hhead.append ?_⟩
    rw [hlast]
    exact hword.append htail

theorem disjoint_transition : Disjoint attemptTransition := by
  refine disjoint_of_guarded (fun _ => True) '-' ?_ ?_
  · intro previous text found h
    obtain ⟨gap, spaces, rfl, -⟩ := take_transitionPattern.mp h
    exact ⟨rfl, trivial⟩
  · intro previous text name after h
    obtain ⟨gap, spaces, rfl, hgap, hname, hspaces⟩ := take_transitionPattern.mp h
    refine ⟨'>' :: (gap ++ (name ++ (spaces ++ ['(']))), by simp, guarded_of_not_mem fun hmem => ?_⟩
    simp only [List.mem_cons, List.mem_append] at hmem
    rcases hmem with hmem | hmem | hmem | hmem | hmem
    · cases hmem
    · exact not_mem_spaces rfl hgap hmem
    · cases hname.isIdentifier.chars _ hmem
    · exact not_mem_spaces rfl hspaces hmem
    · rcases hmem with hmem | hmem <;> cases hmem

/-! ## Suites -/

/-- The tokens of a `state_decl`. -/
structure StateText where
  name : String
  params : Option (List Token) := none
  body : List Token

namespace StateText

def paramTokens (state : StateText) : List Token :=
  match state.params with
  | none => []
  | some params => .lparen :: (params ++ [.rparen])

/-- What follows the keyword. -/
def rest (state : StateText) : List Token :=
  .identifier state.name :: (state.paramTokens ++ .lbrace :: (state.body ++ [.rbrace]))

/-- A transition to the state stands in the body. -/
def Targets (state : StateText) (name : String) : Prop :=
  [.arrow, .identifier name] <:+: state.body

def IsTest (state : StateText) : Prop := testPrefix <+: state.name.toList

end StateText

/-- What stands between the braces of an autotuner: declarations and the entry, then states. -/
structure SuiteText where
  entry : List Token
  states : List StateText

namespace SuiteText

def stateTokens (states : List StateText) : List Token := states.flatMap fun s => .state :: s.rest

def tokens (suite : SuiteText) : List Token :=
  suite.entry ++ .semicolon :: stateTokens suite.states

/-- The grammar has the keyword at the head of a state only. -/
structure Grammatical (suite : SuiteText) : Prop where
  entry : .state ∉ suite.entry
  states : ∀ state ∈ suite.states, .state ∉ state.rest

/-- A state with a parameter list that is a test by its name. -/
def Declares (suite : SuiteText) (name : String) : Prop :=
  ∃ state ∈ suite.states, state.name = name ∧ state.params.isSome ∧ state.IsTest

/-- Another test goes on with it. -/
def Continues (suite : SuiteText) (name : String) : Prop :=
  ∃ state ∈ suite.states, state.name ≠ name ∧ state.IsTest ∧ state.Targets name

/-- The tests that are to be registered. -/
def Registers (suite : SuiteText) (name : String) : Prop :=
  suite.Declares name ∧ ¬suite.Continues name

end SuiteText

theorem stateTokens_split {states : List StateText} {before after : List Token}
    (hstates : ∀ state ∈ states, .state ∉ state.rest)
    (h : SuiteText.stateTokens states = before ++ .state :: after) :
    ∃ earlier state later, states = earlier ++ state :: later ∧
      before = SuiteText.stateTokens earlier ∧
        after = state.rest ++ SuiteText.stateTokens later := by
  induction states generalizing before with
  | nil => cases before <;> cases h
  | cons first states ih =>
    have hfirst := hstates first List.mem_cons_self
    unfold SuiteText.stateTokens at h
    rw [List.flatMap_cons] at h
    cases before with
    | nil =>
      rw [List.nil_append, List.cons_append] at h
      exact ⟨[], first, states, rfl, rfl, (List.cons.inj h).2.symm⟩
    | cons t before =>
      rw [List.cons_append, List.cons_append] at h
      have htail := (List.cons.inj h).2
      cases (List.cons.inj h).1
      have hlater : ∀ rest, before = first.rest ++ rest →
          SuiteText.stateTokens states = rest ++ .state :: after →
          ∃ earlier state later, first :: states = earlier ++ state :: later ∧
            .state :: before = SuiteText.stateTokens earlier ∧
              after = state.rest ++ SuiteText.stateTokens later := by
        rintro rest rfl hrest
        obtain ⟨earlier, state, later, rfl, rfl, rfl⟩ :=
          ih (fun s hs => hstates s (List.mem_cons_of_mem _ hs)) hrest
        exact ⟨first :: earlier, state, later, rfl, rfl, rfl⟩
      rcases List.append_eq_append_iff.mp htail with ⟨between, hbefore, hrest⟩ |
        ⟨between, hfirst', hrest⟩
      · exact hlater between hbefore hrest
      · cases between with
        | nil =>
          rw [List.append_nil] at hfirst'
          exact hlater [] (by rw [hfirst', List.append_nil]) hrest.symm
        | cons t between =>
          cases (List.cons.inj hrest).1
          rw [hfirst'] at hfirst
          exact absurd (List.mem_append_right before List.mem_cons_self) hfirst

theorem stateTokens_getLast (states : List StateText) :
    SuiteText.stateTokens states = [] ∨
      (SuiteText.stateTokens states).getLast? = some .rbrace := by
  rcases List.eq_nil_or_concat states with rfl | ⟨states, state, rfl⟩
  · exact .inl rfl
  · right
    have hrest : .state :: state.rest = (.state :: .identifier state.name ::
        (state.paramTokens ++ .lbrace :: state.body)) ++ [.rbrace] := by
      simp [StateText.rest]
    unfold SuiteText.stateTokens
    rw [List.concat_eq_append, List.flatMap_append, List.flatMap_singleton, hrest,
      ← List.append_assoc, List.getLast?_concat]

/-- Every keyword of a suite heads one of its states. -/
theorem SuiteText.split {suite : SuiteText} (hsuite : suite.Grammatical)
    {before after : List Token} (h : suite.tokens = before ++ .state :: after) :
    ∃ earlier state later, suite.states = earlier ++ state :: later ∧
      before = suite.entry ++ .semicolon :: stateTokens earlier ∧
        after = state.rest ++ stateTokens later := by
  unfold SuiteText.tokens at h
  rcases List.append_eq_append_iff.mp h with ⟨between, hbefore, hrest⟩ | ⟨between, hentry, hrest⟩
  · cases between with
    | nil => cases hrest
    | cons t between =>
      have hstates := (List.cons.inj hrest).2
      cases (List.cons.inj hrest).1
      obtain ⟨earlier, state, later, hsplit, rfl, hafter⟩ :=
        stateTokens_split hsuite.states hstates
      exact ⟨earlier, state, later, hsplit, hbefore, hafter⟩
  · cases between with
    | nil => cases hrest
    | cons t between =>
      cases (List.cons.inj hrest).1
      exact absurd (hentry ▸ List.mem_append_right _ List.mem_cons_self) hsuite.entry

/-! ## What the search sees -/

/-- These tokens stand somewhere with nothing but white space between them. -/
def Written (row : List Token) (body : List Char) : Prop :=
  ∃ before after, lex body = before ++ after ∧ Row row after

/-- A match begins inside a comment or a string literal. -/
def Hidden (attempt : Option Char → List Char → Option (List Char × List Char)) (name : String)
    (body : List Char) : Prop :=
  ∃ before x after a b rest, lex body = before ++ x :: after ∧ IsHidden x ∧ x.text = a ++ b ∧
    b ≠ [] ∧ attempt (lastOf none (render before ++ a)) (b ++ render after) = some (name.toList, rest)

def HiddenState (name : String) (body : List Char) : Prop :=
  Hidden (attemptState statePattern) name body

def SeesState (name : String) (body : List Char) : Prop :=
  IsTestName name.toList ∧ Written [.state, .identifier name, .lparen] body ∨ HiddenState name body

def SeesTransition (name : String) (body : List Char) : Prop :=
  IsTestName name.toList ∧ Written [.arrow, .identifier name, .lparen] body ∨
    Hidden attemptTransition name body

theorem mem_names {attempt : Option Char → List Char → Option (List Char × List Char)}
    (hdisjoint : Disjoint attempt) (hnil : ∀ previous, attempt previous [] = none) {name : String}
    {body : List Char} : name ∈ names (findAll attempt 0 none body) ↔ ∃ left right rest,
      body = left ++ right ∧ attempt (lastOf none left) right = some (name.toList, rest) := by
  unfold names
  rw [List.mem_map]
  constructor
  · rintro ⟨⟨group, rest⟩, hfound, rfl⟩
    obtain ⟨left, right, hbody, -, hmatch⟩ := (mem_findAll hdisjoint hnil).mp hfound
    rw [String.toList_ofList]
    exact ⟨left, right, rest, hbody, hmatch⟩
  · rintro ⟨left, right, rest, hbody, hmatch⟩
    refine ⟨(name.toList, rest), ?_, String.ofList_toList⟩
    exact (mem_findAll hdisjoint hnil).mpr ⟨left, right, hbody, Nat.zero_le _, hmatch⟩

/-- A match begins with a lexeme or hidden in one, if what it begins with does. -/
theorem match_cases {attempt : Option Char → List Char → Option (List Char × List Char)}
    {name : String} {left right rest : List Char}
    (hmatch : attempt (lastOf none left) right = some (name.toList, rest)) (hright : right ≠ [])
    (hstart : ∀ text a b after, Shape text → text = a ++ b → b ≠ [] → right = b ++ after →
      (a ≠ [] → lastOf none left = a.getLast?) → a = []) :
    (∃ before, lex (left ++ right) = before ++ lex right ∧ left = render before) ∨
      Hidden attempt name (left ++ right) := by
  obtain ⟨before, x, after, a, b, hlex, htext, hb, rfl, rfl⟩ :=
    exists_lexeme_at (render_lex (left ++ right)) hright
  by_cases hhidden : IsHidden x
  · exact .inr ⟨before, x, after, a, b, rest, hlex, hhidden, htext, hb, hmatch⟩
  · left
    obtain ⟨c, cs, hnext, -⟩ := exists_next_of_mem hlex
    have hshape : Shape x.text := hnext ▸ shape_next (hnext ▸ hhidden)
    have ha : a = [] := hstart x.text a b (render after) hshape htext hb rfl fun hne => by
      unfold lastOf
      rw [List.getLast?_append_of_ne_nil _ hne, Option.or_none]
    subst ha
    rw [List.nil_append] at htext
    have hlexeme := lex_render_of_append hlex
    rw [render_cons, htext] at hlexeme
    refine ⟨before, ?_, List.append_nil _⟩
    rw [hlexeme]
    exact hlex

theorem Hidden.place {attempt : Option Char → List Char → Option (List Char × List Char)}
    {name : String} {body : List Char} (h : Hidden attempt name body) : ∃ left right rest,
      body = left ++ right ∧ attempt (lastOf none left) right = some (name.toList, rest) := by
  obtain ⟨before, x, after, a, b, rest, hlex, -, htext, -, hmatch⟩ := h
  refine ⟨render before ++ a, b ++ render after, rest, ?_, hmatch⟩
  rw [← render_lex body, hlex, render_append, render_cons, htext]
  simp

theorem written_of_lex {row : List Token} {body : List Char} {before : List Lexeme}
    {right : List Char} (hlex : lex body = before ++ lex right) (hrow : Row row (lex right)) :
    Written row body :=
  ⟨before, lex right, hlex, hrow⟩

theorem mem_targets {name : String} {body : List Char} :
    name ∈ targets body ↔ SeesTransition name body := by
  unfold targets
  rw [mem_names disjoint_transition fun _ => rfl]
  constructor
  · rintro ⟨left, right, rest, rfl, hmatch⟩
    have htake : transitionPattern.take right = some (name.toList, rest) := hmatch
    obtain ⟨gap, spaces, hright, -, hname, -⟩ := take_transitionPattern.mp htake
    have hne : right ≠ [] := by
      rw [hright]
      exact List.cons_ne_nil _ _
    refine (match_cases hmatch hne ?_).imp_left fun ⟨before, hlex, _⟩ => ⟨hname, ?_⟩
    · intro text a b after hshape htext hb hr _
      obtain ⟨c, b, rfl⟩ := List.exists_cons_of_ne_nil hb
      obtain ⟨rfl, harrow⟩ := List.cons.inj (hright.symm.trans hr)
      exact hshape.start_of_arrow htext harrow.symm
    · exact written_of_lex hlex ((row_transition hname).mpr ⟨[], right, rest, rfl, nofun, htake⟩)
  · rintro (⟨hname, before, after, hlex, hrow⟩ | hhidden)
    · rw [← lex_render_of_append hlex] at hrow
      obtain ⟨spaces, right, rest, hafter, -, htake⟩ := (row_transition hname).mp hrow
      refine ⟨render before ++ spaces, right, rest, ?_, htake⟩
      rw [← render_lex body, hlex, render_append, hafter, List.append_assoc]
    · exact hhidden.place

theorem listed_before_state {suite : SuiteText} {earlier : List StateText} {previous : Token}
    (h : (suite.entry ++ .semicolon :: SuiteText.stateTokens earlier).getLast? = some previous) :
    ∃ listed ∈ operators, listed.2 = previous := by
  rw [List.getLast?_append_of_ne_nil _ (List.cons_ne_nil _ _), List.getLast?_cons] at h
  rcases stateTokens_getLast earlier with hnil | hlast
  · rw [hnil] at h
    cases h
    exact ⟨([';'], .semicolon), by decide, rfl⟩
  · rw [hlast] at h
    cases h
    exact ⟨(['}'], .rbrace), by decide, rfl⟩

section

variable {suite : SuiteText} {body : List Char} {name : String}

/-- In a suite a state comes after a semicolon or a brace. -/
theorem clear_before_state (hsuite : suite.Grammatical) (hbody : tokens body = suite.tokens)
    {before after : List Lexeme} {word : List Char}
    (hlex : lex body = before ++ .token .state word :: after) :
    Clear (lastOf none (render before)) := by
  have htokens : suite.tokens = before.filterMap Lexeme.token? ++
      .state :: after.filterMap Lexeme.token? := by
    rw [← hbody]
    unfold tokens
    rw [hlex, List.filterMap_append]
    rfl
  obtain ⟨earlier, state, later, -, hbefore, -⟩ := suite.split hsuite htokens
  have hlast := getLast_before hlex fun previous hprevious => by
    rw [hbefore] at hprevious
    exact listed_before_state hprevious
  unfold Clear lastOf
  rw [Option.or_none]
  exact hlast

theorem attemptState_nil (previous : Option Char) :
    attemptState statePattern previous [] = none := by
  unfold attemptState
  split_ifs <;> rfl

theorem lex_state {c : Char} {cs rest : List Char} (hgap : IsSpaces (c :: cs)) :
    lex ("state".toList ++ (c :: cs ++ rest)) =
      .token .state "state".toList :: lex (c :: cs ++ rest) :=
  readAs_state.mpr ⟨rfl, not_isWord_of_isSpace (hgap c List.mem_cons_self)⟩

theorem mem_allTestStates (hsuite : suite.Grammatical) (hbody : tokens body = suite.tokens) :
    name ∈ allTestStates body ↔ SeesState name body := by
  unfold allTestStates
  rw [mem_names disjoint_state attemptState_nil]
  constructor
  · rintro ⟨left, right, rest, rfl, hmatch⟩
    obtain ⟨hclear, htake⟩ := attemptState_statePattern.mp hmatch
    obtain ⟨c, cs, spaces, hright, -, hname, -⟩ := take_statePattern.mp htake
    have hne : right ≠ [] := by
      rw [hright]
      exact List.cons_ne_nil _ _
    refine (match_cases hmatch hne ?_).imp_left fun ⟨before, hlex, _⟩ => ⟨hname, ?_⟩
    · intro text a b after hshape htext hb hr hlast
      obtain ⟨d, b, rfl⟩ := List.exists_cons_of_ne_nil hb
      obtain ⟨rfl, -⟩ := List.cons.inj (hright.symm.trans hr)
      by_contra ha
      rw [hlast ha] at hclear
      exact ha (hshape.start_of_word htext rfl ⟨rfl, by decide⟩ hclear)
    · exact written_of_lex hlex ((row_state hname).mpr ⟨[], right, rest, rfl, nofun, htake⟩)
  · rintro (⟨hname, before, after, hlex, hrow⟩ | hhidden)
    · have hafter := lex_render_of_append hlex
      rw [← hafter] at hrow hlex
      obtain ⟨spaces, right, rest, hsplit, hspaces, htake⟩ := (row_state hname).mp hrow
      have hclear : Clear (lastOf none (render before ++ spaces)) := by
        cases spaces with
        | nil =>
          obtain ⟨c, cs, spaces, rfl, hgap, -⟩ := take_statePattern.mp htake
          rw [hsplit, List.nil_append, lex_state hgap] at hlex
          rw [List.append_nil]
          exact clear_before_state hsuite hbody hlex
        | cons c cs =>
          unfold Clear lastOf
          rw [List.getLast?_append_of_ne_nil _ (List.cons_ne_nil c cs), Option.or_none]
          exact any_getLast_of_forall fun x hx => not_isWord_of_isSpace (hspaces x hx)
      refine ⟨render before ++ spaces, right, rest, ?_,
        attemptState_statePattern.mpr ⟨hclear, htake⟩⟩
      rw [← render_lex body, hlex, render_append, render_lex, hsplit, List.append_assoc]
    · exact hhidden.place

theorem declares_of_written (hsuite : suite.Grammatical) (hbody : tokens body = suite.tokens)
    (hname : IsTestName name.toList) (h : Written [.state, .identifier name, .lparen] body) :
    suite.Declares name := by
  obtain ⟨before, after, hlex, hrow⟩ := h
  have hafter := lex_render_of_append hlex
  rw [← hafter] at hrow
  obtain ⟨more, hmore⟩ := hrow.isPrefix_tokens
  have hsplit : suite.tokens = before.filterMap Lexeme.token? ++
      .state :: .identifier name :: .lparen :: more := by
    unfold tokens at hbody hmore
    rw [hafter] at hmore
    rw [← hbody, hlex, List.filterMap_append, ← hmore]
    rfl
  obtain ⟨earlier, state, later, hstates, -, hrest⟩ := suite.split hsuite hsplit
  unfold StateText.rest at hrest
  rw [List.cons_append] at hrest
  obtain ⟨hhead, htail⟩ := List.cons.inj hrest
  obtain rfl := Token.identifier.inj hhead
  refine ⟨state, hstates ▸ List.mem_append_right _ List.mem_cons_self, rfl, ?_, ?_⟩
  · cases hparams : state.params with
    | none =>
      unfold StateText.paramTokens at htail
      rw [hparams] at htail
      cases (List.cons.inj htail).1
    | some params => rfl
  · obtain ⟨c, cs, heq, -⟩ := hname
    unfold StateText.IsTest
    rw [heq]
    exact List.prefix_append testPrefix (c :: cs)

/-- The set of registered tests is the one that is promised. -/
def Discovers (suite : SuiteText) (name : String) (body : List Char) : Prop :=
  ∀ test, test ∈ (analyseSuiteBody name body).testNames ↔ suite.Registers test

/-- Nothing misleads the search. -/
structure Plain (suite : SuiteText) (body : List Char) : Prop where
  /-- A test is declared with only white space before its parenthesis. -/
  spelled : ∀ test, suite.Registers test → SeesState test body
  /-- No transition to it stands anywhere, even in a comment. -/
  untouched : ∀ test, suite.Registers test → ¬SeesTransition test body
  /-- A continuation is reached by a transition with only white space before its parenthesis. -/
  continued : ∀ test, suite.Declares test → suite.Continues test → SeesState test body →
    SeesTransition test body
  /-- So is a state that only a comment or a string declares. -/
  hidden : ∀ test, ¬suite.Declares test → HiddenState test body → SeesTransition test body

theorem mem_testNames (hsuite : suite.Grammatical) (hbody : tokens body = suite.tokens)
    {suiteName : String} : name ∈ (analyseSuiteBody suiteName body).testNames ↔
      SeesState name body ∧ ¬SeesTransition name body := by
  change name ∈ (allTestStates body).filter (fun state => state ∉ targets body) ↔ _
  rw [List.mem_filter, mem_allTestStates hsuite hbody, decide_eq_true_iff, mem_targets]

/-- Discovery registers what it is to register exactly in suites that do not mislead it. -/
theorem discovers_iff (hsuite : suite.Grammatical) (hbody : tokens body = suite.tokens)
    (suiteName : String) : Discovers suite suiteName body ↔ Plain suite body := by
  unfold Discovers
  simp only [mem_testNames hsuite hbody]
  constructor
  · intro hall
    constructor
    · intro test hregisters
      exact ((hall test).mpr hregisters).1
    · intro test hregisters
      exact ((hall test).mpr hregisters).2
    · intro test hdeclares hcontinues hsees
      by_contra hno
      exact ((hall test).mp ⟨hsees, hno⟩).2 hcontinues
    · intro test hdeclares hhidden
      by_contra hno
      exact hdeclares ((hall test).mp ⟨.inr hhidden, hno⟩).1
  · intro hplain test
    constructor
    · rintro ⟨hsees, hno⟩
      by_cases hdeclares : suite.Declares test
      · exact ⟨hdeclares, fun hcontinues => hno (hplain.continued test hdeclares hcontinues hsees)⟩
      · rcases hsees with ⟨hname, hwritten⟩ | hhidden
        · exact absurd (declares_of_written hsuite hbody hname hwritten) hdeclares
        · exact absurd (hplain.hidden test hdeclares hhidden) hno
    · intro hregisters
      exact ⟨hplain.spelled test hregisters, hplain.untouched test hregisters⟩

end

/-! ## A test that ends and one that loops -/

/-- One test, which goes to a state. -/
def oneTest (target : String) : SuiteText where
  entry := [.start, .arrow, .identifier "__init"]
  states := [{
    name := "test_a"
    params := some [.identifier "TestRunner", .identifier "runner"]
    body := [.arrow, .identifier target, .lparen, .identifier "runner", .rparen, .semicolon] }]

def oneTestBody (target : String) : String :=
  "start -> __init; state test_a (TestRunner runner) \x7b -> " ++ target ++ "(runner); \x7d"

theorem grammatical_oneTest (target : String) : (oneTest target).Grammatical := by
  constructor
  · simp [oneTest]
  · simp [oneTest, StateText.rest, StateText.paramTokens]

theorem testPrefix_test_a : testPrefix <+: "test_a".toList := by decide

theorem registers_oneTest {target test : String} :
    (oneTest target).Registers test ↔ test = "test_a" := by
  constructor
  · rintro ⟨⟨state, hstate, rfl, -⟩, -⟩
    rw [List.mem_singleton.mp hstate]
  · rintro rfl
    refine ⟨⟨_, List.mem_singleton_self _, rfl, rfl, testPrefix_test_a⟩, ?_⟩
    rintro ⟨state, hstate, hother, -⟩
    rw [List.mem_singleton.mp hstate] at hother
    exact hother rfl

theorem plain_oneTest : Plain (oneTest "__end") (oneTestBody "__end").toList := by
  refine (discovers_iff (grammatical_oneTest "__end") (by decide +kernel) "Unit").mp fun test => ?_
  have hnames : (analyseSuiteBody "Unit" (oneTestBody "__end").toList).testNames = ["test_a"] := by
    decide +kernel
  rw [hnames, registers_oneTest, List.mem_singleton]

/-- A test that goes back to itself is not registered. -/
theorem not_discovers_loop :
    (oneTest "test_a").Grammatical ∧
      tokens (oneTestBody "test_a").toList = (oneTest "test_a").tokens ∧
      ¬Discovers (oneTest "test_a") "Unit" (oneTestBody "test_a").toList := by
  refine ⟨grammatical_oneTest "test_a", by decide +kernel, fun hall => ?_⟩
  have hmem := (hall "test_a").mpr (registers_oneTest.mpr rfl)
  have hnone : (analyseSuiteBody "Unit" (oneTestBody "test_a").toList).testNames = [] := by
    decide +kernel
  rw [hnone] at hmem
  cases hmem

end FalconLib.Cli.Discovery
