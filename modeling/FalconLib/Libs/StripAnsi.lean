import FalconLib.Base.Patterns
import Mathlib.Data.List.Infix

/-!
# Escape sequences

`StripAnsi` takes out the sequences that begin with the four characters of the escape `\033`, and
then every backslash. An escape byte is no part of what it looks for.
-/

namespace FalconLib.Libs.Strings

open FalconLib.Base.Patterns

/-! ## The routine -/

/-- A digit, a semicolon or a question mark. -/
def isParameter (c : Char) : Bool := c.isDigit || c == ';' || c == '?'

/-- The bytes from the blank to the slash. -/
def isIntermediate (c : Char) : Bool := ' ' ≤ c && c ≤ '/'

/-- The bytes from the at sign to the tilde. -/
def isFinal (c : Char) : Bool := '@' ≤ c && c ≤ '~'

def ansiRe : List Part :=
  [.word ['\\', '0', '3', '3', '['], .run isParameter, .run isIntermediate, .one isFinal]

def stripAnsi (s : List Char) : List Char := (removeAll ansiRe 0 s).filter (· != '\\')

/-! ## What the routine is for -/

def esc : Char := '\x1b'

/-- The escape as a literal of the language spells it. -/
def escText : List Char := ['\\', '0', '3', '3']

/-- A sequence from the bracket behind its escape to its final byte. -/
def IsSequence (seq : List Char) : Prop :=
  ∃ parameters intermediates final, seq = '[' :: (parameters ++ (intermediates ++ [final])) ∧
    (∀ c ∈ parameters, isParameter c = true) ∧ (∀ c ∈ intermediates, isIntermediate c = true) ∧
      isFinal final = true

def HasSequence (spelling s : List Char) : Prop :=
  ∃ pre seq post, s = pre ++ (spelling ++ (seq ++ post)) ∧ IsSequence seq

structure StripsExactly (s : List Char) : Prop where
  unchanged : esc ∉ s → ¬ escText <:+: s → stripAnsi s = s
  removed : ¬ HasSequence [esc] (stripAnsi s) ∧ ¬ HasSequence escText (stripAnsi s)
  idempotent : stripAnsi (stripAnsi s) = stripAnsi s

/-- The characters of the word stand in front of the text, with backslashes and sequences in the
spelling of the language between them. -/
inductive Spells : List Char → List Char → Prop where
  | nil (text : List Char) : Spells text []
  | keep {c : Char} {rest word : List Char} : c ≠ '\\' → Spells rest word →
      Spells (c :: rest) (c :: word)
  | backslash {rest word : List Char} : takeAll ansiRe ('\\' :: rest) = none → Spells rest word →
      Spells ('\\' :: rest) word
  | sequence {text after word : List Char} : takeAll ansiRe text = some after →
      Spells after word → Spells text word

/-- An escape byte begins a sequence once what stands between its bytes is taken out. -/
def Exposed (s : List Char) : Prop :=
  ∃ pre rest seq, s = pre ++ esc :: rest ∧ IsSequence seq ∧ Spells rest seq

/-! ## Matches -/

theorem take_ansiRe {text after : List Char} (h : takeAll ansiRe text = some after) :
    ∃ inner, text = '\\' :: (inner ++ after) ∧ esc ∉ inner := by
  unfold ansiRe at h
  obtain ⟨afterWord, rfl, h⟩ := takeAll_word.mp h
  obtain ⟨parameters, afterParameters, rfl, hparameters, -, h⟩ := takeAll_run.mp h
  obtain ⟨intermediates, afterIntermediates, rfl, hintermediates, -, h⟩ := takeAll_run.mp h
  obtain ⟨final, rest, rfl, hfinal, h⟩ := takeAll_one.mp h
  obtain rfl := (takeAll_nil _ _).mp h
  refine ⟨['0', '3', '3', '['] ++ (parameters ++ (intermediates ++ [final])), ?_, ?_⟩
  · simp only [List.cons_append, List.append_assoc, List.nil_append]
  · intro hmem
    simp only [List.mem_append, List.mem_singleton] at hmem
    obtain hword | hparameter | hintermediate | rfl := hmem
    · exact absurd hword (by decide)
    · exact absurd (hparameters esc hparameter) (by decide)
    · exact absurd (hintermediates esc hintermediate) (by decide)
    · exact absurd hfinal (by decide)

theorem consumes_ansiRe : Consumes ansiRe := by
  intro text after h
  obtain ⟨inner, rfl, -⟩ := take_ansiRe h
  exact ⟨'\\' :: inner, rfl, List.cons_ne_nil _ _⟩

theorem take_of_ne {c : Char} (hc : c ≠ '\\') (rest : List Char) :
    takeAll ansiRe (c :: rest) = none := by
  cases h : takeAll ansiRe (c :: rest) with
  | none => rfl
  | some after =>
    obtain ⟨inner, htext, -⟩ := take_ansiRe h
    exact absurd (List.cons.inj htext).1 hc

/-! ## The kept characters -/

theorem stripAnsi_of_match {matched after : List Char} (hne : matched ≠ [])
    (h : takeAll ansiRe (matched ++ after) = some after) :
    stripAnsi (matched ++ after) = stripAnsi after := by
  unfold stripAnsi
  rw [removeAll_of_match hne h]

theorem stripAnsi_keep {c : Char} (hc : c ≠ '\\') (rest : List Char) :
    stripAnsi (c :: rest) = c :: stripAnsi rest := by
  have hkeep : (c != '\\') = true := bne_iff_ne.mpr hc
  unfold stripAnsi
  rw [removeAll_of_none (take_of_ne hc rest)]
  exact List.filter_cons_of_pos hkeep

theorem stripAnsi_backslash {rest : List Char} (h : takeAll ansiRe ('\\' :: rest) = none) :
    stripAnsi ('\\' :: rest) = stripAnsi rest := by
  unfold stripAnsi
  rw [removeAll_of_none h]
  exact List.filter_cons_of_neg (by decide)

theorem backslash_notMem (s : List Char) : '\\' ∉ stripAnsi s := by
  unfold stripAnsi
  intro h
  exact absurd (List.mem_filter.mp h).2 (by decide)

theorem stripAnsi_eq_self_iff (s : List Char) : stripAnsi s = s ↔ '\\' ∉ s := by
  constructor
  · intro h
    rw [← h]
    exact backslash_notMem s
  · intro h
    induction s with
    | nil => rfl
    | cons c rest ih =>
      rw [List.mem_cons, not_or] at h
      rw [stripAnsi_keep (Ne.symm h.1), ih h.2]

theorem spells_iff {text word : List Char} : Spells text word ↔ word <+: stripAnsi text := by
  constructor
  · intro h
    induction h with
    | nil => exact List.nil_prefix
    | keep hc _ ih =>
      rw [stripAnsi_keep hc]
      exact (List.prefix_cons_inj _).mpr ih
    | backslash hnone _ ih =>
      rw [stripAnsi_backslash hnone]
      exact ih
    | sequence htake _ ih =>
      obtain ⟨matched, rfl, hne⟩ := consumes_ansiRe _ _ htake
      rw [stripAnsi_of_match hne htake]
      exact ih
  · induction text using scan_induction consumes_ansiRe generalizing word with
    | nil =>
      intro h
      rw [List.prefix_nil.mp h]
      exact .nil []
    | hit matched after hne htake ih =>
      intro h
      rw [stripAnsi_of_match hne htake] at h
      exact .sequence htake (ih h)
    | keep c rest hnone ih =>
      intro h
      by_cases hc : c = '\\'
      · subst hc
        rw [stripAnsi_backslash hnone] at h
        exact .backslash hnone (ih h)
      · rw [stripAnsi_keep hc] at h
        obtain rfl | ⟨word, rfl, hword⟩ := List.prefix_cons_iff.mp h
        · exact .nil _
        · exact .keep hc (ih hword)

/-! ## Escape bytes -/

/-- An escape byte stays, with what is kept of the text behind it. -/
theorem exists_stripAnsi_append (pre rest : List Char) :
    ∃ kept, stripAnsi (pre ++ esc :: rest) = kept ++ esc :: stripAnsi rest := by
  generalize htext : pre ++ esc :: rest = text
  induction text using scan_induction consumes_ansiRe generalizing pre with
  | nil => simp at htext
  | hit matched after hne htake ih =>
    have hesc : esc ∉ matched := by
      obtain ⟨inner, hsplit, hinner⟩ := take_ansiRe htake
      rw [← List.cons_append, List.append_cancel_right_eq] at hsplit
      rw [hsplit]
      exact List.not_mem_cons_of_ne_of_not_mem (by decide) hinner
    rw [stripAnsi_of_match hne htake]
    obtain ⟨between, rfl, hafter⟩ | ⟨between, rfl, hrest⟩ := List.append_eq_append_iff.mp htext
    · cases between with
      | nil => exact ih [] (by simpa using hafter)
      | cons c between =>
        obtain ⟨rfl, -⟩ := List.cons.inj hafter
        exact absurd (List.mem_append_right pre List.mem_cons_self) hesc
    · exact ih between hrest.symm
  | keep c text hnone ih =>
    cases pre with
    | nil =>
      obtain ⟨rfl, rfl⟩ := List.cons.inj htext
      exact ⟨[], stripAnsi_keep (by decide) rest⟩
    | cons d pre =>
      obtain ⟨rfl, hrest⟩ := List.cons.inj htext
      obtain ⟨kept, hkept⟩ := ih pre hrest
      by_cases hd : d = '\\'
      · subst hd
        exact ⟨kept, by rw [stripAnsi_backslash hnone, hkept]⟩
      · exact ⟨d :: kept, by rw [stripAnsi_keep hd, hkept, List.cons_append]⟩

/-- Each kept escape byte is one of the text. -/
theorem exists_of_stripAnsi_eq {s kept tail : List Char} (h : stripAnsi s = kept ++ esc :: tail) :
    ∃ pre rest, s = pre ++ esc :: rest ∧ stripAnsi rest = tail := by
  induction s using scan_induction consumes_ansiRe generalizing kept with
  | nil => simp [stripAnsi, removeAll] at h
  | hit matched after hne htake ih =>
    rw [stripAnsi_of_match hne htake] at h
    obtain ⟨pre, rest, rfl, hrest⟩ := ih h
    exact ⟨matched ++ pre, rest, by rw [List.append_assoc], hrest⟩
  | keep c text hnone ih =>
    by_cases hc : c = '\\'
    · subst hc
      rw [stripAnsi_backslash hnone] at h
      obtain ⟨pre, rest, rfl, hrest⟩ := ih h
      exact ⟨'\\' :: pre, rest, rfl, hrest⟩
    · rw [stripAnsi_keep hc] at h
      cases kept with
      | nil =>
        obtain ⟨rfl, htail⟩ := List.cons.inj h
        exact ⟨[], text, rfl, htail⟩
      | cons d kept =>
        obtain ⟨pre, rest, rfl, hrest⟩ := ih (List.cons.inj h).2
        exact ⟨c :: pre, rest, rfl, hrest⟩

theorem hasSequence_stripAnsi_iff (s : List Char) :
    HasSequence [esc] (stripAnsi s) ↔ Exposed s := by
  constructor
  · rintro ⟨kept, seq, post, hkept, hseq⟩
    obtain ⟨pre, rest, rfl, hrest⟩ := exists_of_stripAnsi_eq hkept
    refine ⟨pre, rest, seq, rfl, hseq, spells_iff.mpr ?_⟩
    rw [hrest]
    exact List.prefix_append seq post
  · rintro ⟨pre, rest, seq, rfl, hseq, hspells⟩
    obtain ⟨post, hpost⟩ := spells_iff.mp hspells
    obtain ⟨kept, hkept⟩ := exists_stripAnsi_append pre rest
    refine ⟨kept, seq, post, ?_, hseq⟩
    rw [hkept, ← hpost]
    rfl

/-! ## When the routine does what it is for -/

/-- Without a backslash there is nothing left to remove. -/
theorem stripAnsi_idempotent (s : List Char) : stripAnsi (stripAnsi s) = stripAnsi s :=
  (stripAnsi_eq_self_iff _).mpr (backslash_notMem s)

theorem not_hasSequence_escText (s : List Char) : ¬ HasSequence escText (stripAnsi s) := by
  rintro ⟨pre, seq, post, heq, -⟩
  refine backslash_notMem s ?_
  rw [heq]
  exact List.mem_append_right pre List.mem_cons_self

end FalconLib.Libs.Strings
