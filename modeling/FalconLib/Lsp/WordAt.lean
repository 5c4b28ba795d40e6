import FalconLib.Base.Words

/-!
# The identifier under the cursor

Hover and definition look up the word at a position. The position is turned into an offset of the
text by counting the line breaks before it. A text is what its `std::string` holds: bytes.
-/

namespace FalconLib.Lsp

open FalconLib.Base

namespace WordAt

def lineBreak : UInt8 := 10

def isDigit (c : UInt8) : Bool := 48 ≤ c && c ≤ 57

/-- `std::isalnum` or an underscore. -/
def isIdent (c : UInt8) : Bool := isDigit c || 65 ≤ c && c ≤ 90 || 97 ≤ c && c ≤ 122 || c == 95

/-- The loop that looks for the line; `i` is its counter. A line that it does not come to begins
at `0`. -/
def lineStart (line : Nat) : List UInt8 → (i curLine : Nat) → Nat
  | [], _, _ => 0
  | c :: text, i, curLine =>
    if curLine = line then i
    else lineStart line text (i + 1) (if c = lineBreak then curLine + 1 else curLine)

def offset (text : List UInt8) (line character : Nat) : Nat :=
  lineStart line text 0 0 + character

/-- What both providers do. -/
def wordAt (text : List UInt8) (line character : Nat) : List UInt8 :=
  match text[offset text line character]? with
  | some c => if isIdent c then Words.around isIdent text (offset text line character) else []
  | none => []

end WordAt

def HoverProvider.wordAt (text : List UInt8) (line character : Nat) : List UInt8 :=
  WordAt.wordAt text line character

def DefinitionProvider.wordAt (text : List UInt8) (line character : Nat) : List UInt8 :=
  WordAt.wordAt text line character

namespace WordAt

/-! ## Lines -/

def lines (text : List UInt8) : List (List UInt8) := text.splitOn lineBreak

theorem lines_cons (c : UInt8) (text : List UInt8) :
    lines (c :: text) =
      if c = lineBreak then [] :: lines text else (lines text).modifyHead (List.cons c) := by
  unfold lines
  rw [List.splitOn_eq_splitOnP, List.splitOn_eq_splitOnP, List.splitOnP_cons_eq_if_modifyHead]
  by_cases hc : c = lineBreak
  · rw [if_pos hc, if_pos (beq_iff_eq.mpr hc)]
  · rw [if_neg hc, if_neg (mt beq_iff_eq.mp hc)]

/-- The line stands between line breaks. -/
structure Stands (text before line after : List UInt8) : Prop where
  text_eq : text = before ++ line ++ after
  before_break : ∀ c, before.getLast? = some c → isIdent c = false
  after_break : ∀ c, after.head? = some c → isIdent c = false

theorem exists_firstLine (text : List UInt8) :
    ∃ line after, (lines text)[0]? = some line ∧ Stands text [] line after := by
  induction text with
  | nil => exact ⟨[], [], rfl, rfl, nofun, nofun⟩
  | cons c text ih =>
    rw [lines_cons]
    by_cases hc : c = lineBreak
    · rw [if_pos hc]
      refine ⟨[], c :: text, rfl, rfl, nofun, fun b hb => ?_⟩
      cases hb
      rw [hc]
      rfl
    · obtain ⟨line, after, hline, hstands⟩ := ih
      rw [if_neg hc]
      refine ⟨c :: line, after, ?_, congrArg (List.cons c) hstands.text_eq, nofun,
        hstands.after_break⟩
      cases hlines : lines text with
      | nil =>
        rw [hlines] at hline
        cases hline
      | cons first rest =>
        rw [hlines] at hline
        cases hline
        rfl

/-- The loop comes to the lines of the text, unless a line is the last and empty. -/
theorem lineStart_of_line {text line : List UInt8} {n : Nat} (hn : (lines text)[n]? = some line)
    (i curLine : Nat) : ∃ before after, Stands text before line after ∧ (0 < n → before ≠ []) ∧
      lineStart (curLine + n) text i curLine =
        if before.length < text.length then i + before.length else 0 := by
  induction text generalizing n i curLine with
  | nil =>
    obtain ⟨hlt, rfl⟩ := List.getElem?_eq_some_iff.mp hn
    obtain rfl : n = 0 := Nat.lt_one_iff.mp hlt
    exact ⟨[], [], ⟨rfl, nofun, nofun⟩, nofun, rfl⟩
  | cons c text ih =>
    cases n with
    | zero =>
      obtain ⟨first, after, hfirst, hstands⟩ := exists_firstLine (c :: text)
      obtain rfl : first = line := Option.some.inj (hfirst.symm.trans hn)
      exact ⟨[], after, hstands, nofun, if_pos rfl⟩
    | succ n =>
      have hne : curLine ≠ curLine + (n + 1) := by omega
      rw [lines_cons] at hn
      unfold lineStart
      rw [if_neg hne]
      by_cases hc : c = lineBreak
      · rw [if_pos hc] at hn ⊢
        obtain ⟨before, after, hstands, -, hstart⟩ := ih hn (i + 1) (curLine + 1)
        rw [show curLine + (n + 1) = curLine + 1 + n by omega, hstart]
        refine ⟨c :: before, after, ⟨congrArg (List.cons c) hstands.text_eq, ?_,
          hstands.after_break⟩, fun _ => List.cons_ne_nil _ _, ?_⟩
        · intro b hb
          cases before with
          | nil =>
            cases hb
            rw [hc]
            rfl
          | cons a before => exact hstands.before_break b hb
        · simp only [List.length_cons, Nat.add_lt_add_iff_right]
          split
          · omega
          · rfl
      · rw [if_neg hc] at hn ⊢
        have hnext : (lines text)[n + 1]? = some line := by
          rw [← hn]
          cases lines text with
          | nil => rfl
          | cons first rest => rfl
        obtain ⟨before, after, hstands, hne, hstart⟩ := ih hnext (i + 1) curLine
        have hbefore := hne (Nat.succ_pos n)
        refine ⟨c :: before, after, ⟨congrArg (List.cons c) hstands.text_eq, ?_,
          hstands.after_break⟩, fun _ => List.cons_ne_nil _ _, ?_⟩
        · intro b hb
          rw [List.getLast?_cons_of_ne_nil hbefore] at hb
          exact hstands.before_break b hb
        · rw [hstart]
          simp only [List.length_cons, Nat.add_lt_add_iff_right]
          split
          · omega
          · rfl

theorem lineStart_of_none {text : List UInt8} {n : Nat} (hn : (lines text)[n]? = none)
    (i curLine : Nat) : lineStart (curLine + n) text i curLine = 0 := by
  induction text generalizing n i curLine with
  | nil => rfl
  | cons c text ih =>
    cases n with
    | zero =>
      obtain ⟨first, after, hfirst, -⟩ := exists_firstLine (c :: text)
      cases hfirst.symm.trans hn
    | succ n =>
      have hne : curLine ≠ curLine + (n + 1) := by omega
      rw [lines_cons] at hn
      unfold lineStart
      rw [if_neg hne]
      by_cases hc : c = lineBreak
      · rw [if_pos hc] at hn ⊢
        rw [show curLine + (n + 1) = curLine + 1 + n by omega]
        exact ih hn (i + 1) (curLine + 1)
      · rw [if_neg hc] at hn ⊢
        refine ih ?_ (i + 1) curLine
        rw [← hn]
        cases lines text with
        | nil => rfl
        | cons first rest => rfl

/-! ## Identifiers -/

/-- Letters, digits and underscores, of which the first is no digit. -/
structure IsIdentifier (word : List UInt8) : Prop where
  all_ident : ∀ c ∈ word, isIdent c = true
  head_not_digit : ∀ c, word.head? = some c → isDigit c = false

/-- An identifier stands around the character of the line. -/
def Covers (line : List UInt8) (character : Nat) (word : List UInt8) : Prop :=
  Words.At line character word ∧ IsIdentifier word

/-- The longest identifier around the character, or nothing if there is none. -/
def Answers (line : List UInt8) (character : Nat) (word : List UInt8) : Prop :=
  (Covers line character word ∧ ∀ other, Covers line character other → other.length ≤ word.length) ∨
    (word = [] ∧ ∀ other, ¬Covers line character other)

/-- What a lookup should find. -/
def Finds (text : List UInt8) (line character : Nat) (word : List UInt8) : Prop :=
  match (lines text)[line]? with
  | some content => Answers content character word
  | none => word = []

/-- The word around the character begins with a digit. -/
def BeginsWithDigit (line : List UInt8) (character : Nat) : Prop :=
  ∃ pre word post, line = pre ++ word ++ post ∧ pre.length ≤ character ∧
    character < pre.length + word.length ∧ (∀ c ∈ word, isIdent c = true) ∧
    (∀ c, pre.getLast? = some c → isIdent c = false) ∧
    ∃ digit, word.head? = some digit ∧ isDigit digit = true

/-- The position is in its line and the word there begins with no digit, or the offset that it is
turned into is not that of a letter, digit or underscore. -/
def Placed (text : List UInt8) (line character : Nat) : Prop :=
  match (lines text)[line]? with
  | some content =>
    if character < content.length then ¬BeginsWithDigit content character
    else ∀ c, text[offset text line character]? = some c → isIdent c = false
  | none => ∀ c, text[character]? = some c → isIdent c = false

theorem wordAt_eq_nil_iff (text : List UInt8) (line character : Nat) :
    wordAt text line character = [] ↔
      ∀ c, text[offset text line character]? = some c → isIdent c = false := by
  unfold wordAt
  cases hc : text[offset text line character]? with
  | none => exact iff_of_true rfl nofun
  | some c =>
    dsimp only
    cases hi : isIdent c with
    | false =>
      refine iff_of_true (if_neg Bool.false_ne_true) fun b hb => ?_
      cases hb
      exact hi
    | true =>
      obtain ⟨pre, post, -, hpre, hlt, -⟩ := Words.around_at hc hi
      rw [if_pos rfl]
      refine iff_of_false (fun hnil => ?_) fun h => Bool.noConfusion (hi.symm.trans (h c rfl))
      rw [hnil] at hlt
      exact absurd hlt (Nat.not_lt.mpr hpre)

/-- Outside of the line nothing is to be found. -/
theorem answers_outside {content : List UInt8} {character : Nat}
    (h : ¬character < content.length) (word : List UInt8) :
    Answers content character word ↔ word = [] := by
  have hnone : ∀ other, ¬Covers content character other := fun _ hc => h hc.1.lt_length
  exact ⟨fun ha => ha.elim (fun hc => absurd hc.1 (hnone _)) And.left, fun hw => .inr ⟨hw, hnone⟩⟩

/-- On its line, the lookup finds the word around the character. -/
theorem wordAt_of_lt {text content : List UInt8} {line character : Nat}
    (hl : (lines text)[line]? = some content) (hc : character < content.length) :
    wordAt text line character =
      if isIdent content[character] then Words.around isIdent content character else [] := by
  obtain ⟨before, after, ⟨rfl, hbefore, hafter⟩, -, hstart⟩ := lineStart_of_line hl 0 0
  have hlt : before.length < (before ++ content ++ after).length := by
    rw [List.length_append, List.length_append]
    omega
  rw [if_pos hlt, Nat.zero_add, Nat.zero_add] at hstart
  have hoffset : offset (before ++ content ++ after) line character =
      before.length + character := congrArg (· + character) hstart
  unfold wordAt
  have hat : (before ++ content ++ after)[before.length + character]? = some content[character] := by
    rw [List.append_assoc, List.getElem?_append_right (Nat.le_add_right _ _),
      Nat.add_sub_cancel_left, List.getElem?_append_left hc, List.getElem?_eq_getElem hc]
  rw [hoffset, hat]
  dsimp only
  rw [Words.around_append hc hbefore hafter]

theorem around_head_of_digit {content : List UInt8} {character : Nat}
    (h : BeginsWithDigit content character) :
    ∃ digit, (Words.around isIdent content character).head? = some digit ∧
      isDigit digit = true := by
  obtain ⟨pre, word, post, rfl, hpre, hlt, hall, hbefore, digit, hhead, hdigit⟩ := h
  refine ⟨digit, ?_, hdigit⟩
  have hnil : pre.reverse.takeWhile isIdent = [] := by
    cases hp : pre.reverse with
    | nil => rfl
    | cons b rest =>
      have hb := hbefore b (by rw [← List.head?_reverse, hp]; rfl)
      rw [List.takeWhile_cons_of_neg (Bool.eq_false_iff.mp hb)]
  rw [Words.around_of_split hpre hlt hall, hnil]
  cases word with
  | nil => cases hhead
  | cons c word =>
    cases hhead
    rfl

theorem answers_around_iff {content : List UInt8} {character : Nat} {c : UInt8}
    (hc : content[character]? = some c) (hi : isIdent c = true) :
    Answers content character (Words.around isIdent content character) ↔
      ¬BeginsWithDigit content character := by
  obtain ⟨pre, post, hsplit, hpre, hlt, hbefore⟩ := Words.around_at hc hi
  have hall := Words.all_around (p := isIdent) content character
  constructor
  · intro ha hdigit
    obtain ⟨digit, hhead, hd⟩ := around_head_of_digit hdigit
    rcases ha with ⟨hcovers, -⟩ | ⟨hnil, -⟩
    · exact Bool.noConfusion (hd.symm.trans (hcovers.2.head_not_digit digit hhead))
    · rw [hnil] at hhead
      cases hhead
  · intro hno
    refine .inl ⟨⟨⟨pre, post, hsplit, hpre, hlt⟩, hall, fun d hd => ?_⟩, ?_⟩
    · refine Bool.eq_false_iff.mpr fun hdigit => hno ?_
      exact ⟨pre, _, post, hsplit, hpre, hlt, hall, hbefore, d, hd, hdigit⟩
    · rintro other ⟨⟨pre', post', hsplit', hpre', hlt'⟩, hident⟩
      conv_rhs => rw [hsplit', Words.around_of_split hpre' hlt' hident.all_ident]
      rw [List.length_append, List.length_append]
      omega

theorem answers_iff {content : List UInt8} {character : Nat} (hc : character < content.length) :
    Answers content character
        (if isIdent content[character] then Words.around isIdent content character else []) ↔
      ¬BeginsWithDigit content character := by
  have hget := List.getElem?_eq_getElem hc
  by_cases hi : isIdent content[character] = true
  · rw [if_pos hi]
    exact answers_around_iff hget hi
  · rw [if_neg hi]
    have hno : ∀ pre word post, content = pre ++ word ++ post → pre.length ≤ character →
        character < pre.length + word.length → ¬∀ c ∈ word, isIdent c = true := by
      intro pre word post hsplit hpre hlt hall
      refine hi (hall _ ?_)
      have hword : content[character]? = word[character - pre.length]? := by
        rw [hsplit, List.append_assoc, List.getElem?_append_right hpre,
          List.getElem?_append_left (by omega)]
      exact List.mem_of_getElem? (hword.symm.trans hget)
    refine iff_of_true (.inr ⟨rfl, ?_⟩) ?_
    · rintro other ⟨⟨pre, post, hsplit, hpre, hlt⟩, hident⟩
      exact hno pre other post hsplit hpre hlt hident.all_ident
    · rintro ⟨pre, word, post, hsplit, hpre, hlt, hall, -⟩
      exact hno pre word post hsplit hpre hlt hall

theorem finds_wordAt_iff (text : List UInt8) (line character : Nat) :
    Finds text line character (wordAt text line character) ↔ Placed text line character := by
  unfold Finds Placed
  cases hl : (lines text)[line]? with
  | none =>
    have hoffset : offset text line character = character := by
      unfold offset
      have hstart := lineStart_of_none hl 0 0
      rw [Nat.zero_add] at hstart
      rw [hstart, Nat.zero_add]
    dsimp only
    rw [wordAt_eq_nil_iff, hoffset]
  | some content =>
    dsimp only
    by_cases hc : character < content.length
    · rw [if_pos hc, wordAt_of_lt hl hc]
      exact answers_iff hc
    · rw [if_neg hc, answers_outside hc, wordAt_eq_nil_iff]

/-- Both lookups find the longest identifier around the position, and nothing where there is none,
exactly when the position is in its line and no word that begins with a digit is there, or when
the offset that the position is turned into is in no word. -/
theorem providers_find_iff (text : List UInt8) (line character : Nat) :
    (Finds text line character (HoverProvider.wordAt text line character) ∧
        Finds text line character (DefinitionProvider.wordAt text line character)) ↔
      Placed text line character :=
  (and_self_iff).trans (finds_wordAt_iff text line character)

/-- `a` and `b` on two lines; the position is behind the first. -/
theorem not_providers_find :
    ¬∀ (text : List UInt8) (line character : Nat),
      Finds text line character (HoverProvider.wordAt text line character) := by
  intro h
  have hplaced := (finds_wordAt_iff [97, 10, 98] 0 2).mp (h [97, 10, 98] 0 2)
  cases hplaced 98 rfl

end WordAt

end FalconLib.Lsp
