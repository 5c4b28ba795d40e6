import FalconLib.Base.Patterns
import FalconLib.Base.Words
import FalconLib.Dsl.Value
import Mathlib.Tactic.Common

/-!
# Numbers in strings

The conversion routines of the string library, with the results that their wrappers pack. A number
is read from the front of a string, as the C library reads it.
-/

namespace FalconLib.Libs.Strings

open FalconLib.Base (Binary64)
open FalconLib.Base.Patterns (dropWhile_eq_iff)
open FalconLib.Base.Words (takeWhile_append_stop)
open FalconLib.Dsl

/-! ## The C library -/

def isspace (c : Char) : Bool :=
  c == ' ' || c == '\t' || c == '\n' || c == '\x0b' || c == '\x0c' || c == '\r'

/-- Whether the text has a minus sign, and what follows the sign. -/
def splitSign : List Char → Bool × List Char
  | '-' :: text => (true, text)
  | '+' :: text => (false, text)
  | text => (false, text)

/-- The value as a `long long`, unless `ERANGE` is set. -/
def inRange (value : Int) : Option Int64 :=
  if -2 ^ 63 ≤ value ∧ value < 2 ^ 63 then some (Int64.ofInt value) else none

/-- `std::stoll`, with `none` where it throws. -/
def stoll (s : List Char) : Option Int64 :=
  let (negative, text) := splitSign (s.dropWhile isspace)
  let digits := text.takeWhile Char.isDigit
  let magnitude : Int := Nat.ofDigitChars 10 digits 0
  if digits.isEmpty then none
  else inRange (if negative then -magnitude else magnitude)

/-- `std::to_string` -/
def toDecimal (i : Int64) : String :=
  (if i < 0 then "-" else "") ++ Nat.repr i.toInt.natAbs

/-! ## The routines -/

def cannotParse (type s : String) : FunctionResult :=
  [.nil, .error { message := "Cannot parse " ++ type ++ ": " ++ s, isFatal := false }]

def fromInt (i : Int64) : FunctionResult := [.string (toDecimal i)]

def toInt (s : String) : FunctionResult :=
  match stoll s.toList with
  | some i => [.int i]
  | none => cannotParse "int" s

/-- `stod` is `std::stod`, with `none` where it throws. -/
def toDouble (stod : List Char → Option Binary64) (s : String) : FunctionResult :=
  match stod s.toList with
  | some x => [.float x]
  | none => cannotParse "double" s

def toBool (s : String) : FunctionResult :=
  if s = "true" ∨ s = "1" then [.bool true]
  else if s = "false" ∨ s = "0" then [.bool false]
  else cannotParse "bool" s

/-- A conversion as the library declares it. -/
def conversionDecl (name : String) (type : ParamType) : RoutineDecl where
  name := name
  inputParams := [{ type := .ofParamType .string, name := "s" }]
  outputParams := [{ type := .ofParamType type, name := "result" }]

def toIntDecl : RoutineDecl := conversionDecl "ToInt" .int

def toDoubleDecl : RoutineDecl := conversionDecl "ToDouble" .float

def toBoolDecl : RoutineDecl := conversionDecl "ToBool" .bool

/-! ## Decimal integers -/

/-- The whole text is a decimal integer, with this value. -/
def IsDecimal (text : List Char) (i : Int64) : Prop :=
  ∃ sign digits, sign ∈ [[], ['+'], ['-']] ∧ text = sign ++ digits ∧ digits ≠ [] ∧
    (∀ c ∈ digits, c.isDigit = true) ∧
    i.toInt = if sign = ['-'] then -(Nat.ofDigitChars 10 digits 0 : Int)
      else Nat.ofDigitChars 10 digits 0

/-- The text has a decimal integer behind white space, which no further digit follows. -/
structure Reads (text : List Char) (i : Int64) (spaces number rest : List Char) : Prop where
  split : text = spaces ++ (number ++ rest)
  spaces : ∀ c ∈ spaces, isspace c = true
  number : IsDecimal number i
  rest : rest.head?.any Char.isDigit = false

theorem isspace_of_isDigit {c : Char} (h : c.isDigit = true) : isspace c = false := by
  unfold isspace
  simp only [Bool.or_eq_false_iff, beq_eq_false_iff_ne]
  refine ⟨⟨⟨⟨⟨?_, ?_⟩, ?_⟩, ?_⟩, ?_⟩, ?_⟩ <;> rintro rfl <;> exact absurd h (by decide)

/-- A decimal integer begins with a sign or a digit and goes on with digits. -/
theorem IsDecimal.cons {text : List Char} {i : Int64} (h : IsDecimal text i) :
    ∃ c tail, text = c :: tail ∧ isspace c = false ∧ ∀ d ∈ tail, d.isDigit = true := by
  obtain ⟨sign, digits, hsign, rfl, hne, hdigits, -⟩ := h
  obtain ⟨c, tail, rfl⟩ := List.exists_cons_of_ne_nil hne
  simp only [List.mem_cons, List.not_mem_nil, or_false] at hsign
  obtain rfl | rfl | rfl := hsign
  · refine ⟨c, tail, rfl, ?_, fun d hd => hdigits d (List.mem_cons_of_mem c hd)⟩
    exact isspace_of_isDigit (hdigits c List.mem_cons_self)
  · exact ⟨'+', c :: tail, rfl, rfl, hdigits⟩
  · exact ⟨'-', c :: tail, rfl, rfl, hdigits⟩

/-! ## Reading -/

theorem splitSign_digit {c : Char} (h : c.isDigit = true) (text : List Char) :
    splitSign (c :: text) = (false, c :: text) := by
  unfold splitSign
  split
  · next heq =>
    cases heq
    exact absurd h (by decide)
  · next heq =>
    cases heq
    exact absurd h (by decide)
  · rfl

/-- The sign that was split off. -/
theorem exists_sign (text : List Char) : ∃ sign ∈ [[], ['+'], ['-']],
    text = sign ++ (splitSign text).2 ∧ (splitSign text).1 = decide (sign = ['-']) := by
  unfold splitSign
  split
  · next rest => exact ⟨['-'], by simp, rfl, rfl⟩
  · next rest => exact ⟨['+'], by simp, rfl, rfl⟩
  · exact ⟨[], by simp, rfl, rfl⟩

theorem splitSign_append {sign digits rest : List Char} (hsign : sign ∈ [[], ['+'], ['-']])
    (hne : digits ≠ []) (hdigits : ∀ c ∈ digits, c.isDigit = true) :
    splitSign (sign ++ (digits ++ rest)) = (decide (sign = ['-']), digits ++ rest) := by
  simp only [List.mem_cons, List.not_mem_nil, or_false] at hsign
  obtain rfl | rfl | rfl := hsign
  · obtain ⟨c, tail, rfl⟩ := List.exists_cons_of_ne_nil hne
    exact splitSign_digit (hdigits c List.mem_cons_self) (tail ++ rest)
  · rfl
  · rfl

theorem inRange_eq_some_iff {value : Int} {i : Int64} :
    inRange value = some i ↔ i.toInt = value := by
  unfold inRange
  constructor
  · intro h
    split at h
    · next hrange =>
      cases h
      exact Int64.toInt_ofInt_of_le hrange.1 hrange.2
    · cases h
  · rintro rfl
    rw [if_pos ⟨Int64.le_toInt i, Int64.toInt_lt i⟩, Int64.ofInt_toInt]

theorem takeWhile_append_of_any {p : Char → Bool} {run rest : List Char}
    (hrun : ∀ c ∈ run, p c = true) (hrest : rest.head?.any p = false) :
    (run ++ rest).takeWhile p = run := by
  rw [takeWhile_append_stop, List.takeWhile_eq_self_iff.mpr hrun]
  intro c hc
  rw [hc] at hrest
  exact hrest

/-- What `stoll` reads is in front of the string, behind white space. -/
theorem stoll_eq_some_iff {s : List Char} {i : Int64} :
    stoll s = some i ↔ ∃ spaces number rest, Reads s i spaces number rest := by
  constructor
  · intro h
    obtain ⟨spaces, hs, hspaces, hhead⟩ := dropWhile_eq_iff.mp (rfl : s.dropWhile isspace = _)
    obtain ⟨sign, hsign, htext, hnegative⟩ := exists_sign (s.dropWhile isspace)
    unfold stoll at h
    simp only at h
    rw [hnegative] at h
    generalize (splitSign (s.dropWhile isspace)).2 = text at h htext
    split at h
    · cases h
    · next hdigits =>
      have hi := inRange_eq_some_iff.mp h
      obtain ⟨-, -, -, hrest⟩ := dropWhile_eq_iff.mp (rfl : text.dropWhile Char.isDigit = _)
      refine ⟨spaces, sign ++ text.takeWhile Char.isDigit, text.dropWhile Char.isDigit, ?_,
        hspaces, ?_, hrest⟩
      · rw [List.append_assoc, List.takeWhile_append_dropWhile, ← htext]
        exact hs
      · refine ⟨sign, _, hsign, rfl, fun h => hdigits (List.isEmpty_iff.mpr h), ?_, ?_⟩
        · exact fun c hc => List.mem_takeWhile_imp hc
        · simpa only [decide_eq_true_eq] using hi
  · rintro ⟨spaces, number, rest, rfl, hspaces, hnumber, hrest⟩
    have hhead : (number ++ rest).head?.any isspace = false := by
      obtain ⟨c, tail, rfl, hc, -⟩ := hnumber.cons
      exact hc
    obtain ⟨sign, digits, hsign, rfl, hne, hdigits, hi⟩ := hnumber
    have hdrop : (spaces ++ (sign ++ digits ++ rest)).dropWhile isspace =
        sign ++ (digits ++ rest) := by
      rw [← List.append_assoc sign]
      exact dropWhile_eq_iff.mpr ⟨spaces, rfl, hspaces, hhead⟩
    unfold stoll
    rw [hdrop, splitSign_append hsign hne hdigits]
    simp only
    rw [takeWhile_append_of_any hdigits hrest, if_neg (fun h => hne (List.isEmpty_iff.mp h)),
      inRange_eq_some_iff]
    simpa only [decide_eq_true_eq] using hi

/-! ## The laws of the conversions -/

/-- `ToInt` gives the value of a string that is a decimal integer as a whole, and an error
otherwise. -/
def Exact (s : String) : Prop :=
  (∀ i, toInt s = [.int i] ↔ IsDecimal s.toList i) ∧
    ((∀ i, ¬ IsDecimal s.toList i) → ∃ e, toInt s = [.nil, .error e])

/-- White space stands before the integer, or more text behind it. -/
def Padded (text : List Char) : Prop :=
  ∃ i spaces number rest, Reads text i spaces number rest ∧ (spaces ≠ [] ∨ rest ≠ [])

/-- As many results as the declaration has outputs. -/
def Meets (decl : RoutineDecl) (result : FunctionResult) : Prop :=
  result.length = decl.outputParams.length

theorem IsDecimal.reads {text : List Char} {i : Int64} (h : IsDecimal text i) :
    Reads text i [] text [] where
  split := (List.append_nil text).symm
  spaces := nofun
  number := h
  rest := rfl

/-- Nothing stands around an integer that is the whole text. -/
theorem IsDecimal.not_padded {text : List Char} {i : Int64} (h : IsDecimal text i) :
    ¬ Padded text := by
  rintro ⟨i', spaces, number, rest, ⟨hsplit, hspaces, hnumber, hrest⟩, hne⟩
  obtain ⟨c, tail, rfl, hc, htail⟩ := h.cons
  obtain ⟨d, digits, rfl, -, -⟩ := hnumber.cons
  cases spaces with
  | cons space spaces =>
    obtain ⟨rfl, -⟩ := List.cons.inj hsplit
    rw [hspaces c List.mem_cons_self] at hc
    cases hc
  | nil =>
    obtain ⟨-, rfl⟩ := List.cons.inj hsplit
    cases rest with
    | nil => simp at hne
    | cons e rest =>
      have he : e.isDigit = true :=
        htail e (List.mem_append_right digits List.mem_cons_self)
      have hnot : e.isDigit = false := hrest
      rw [he] at hnot
      cases hnot

theorem toInt_eq_iff {s : String} {i : Int64} :
    toInt s = [.int i] ↔ ∃ spaces number rest, Reads s.toList i spaces number rest := by
  rw [← stoll_eq_some_iff]
  unfold toInt
  cases stoll s.toList with
  | none => exact ⟨nofun, nofun⟩
  | some j => simp

theorem toInt_error {s : String} (h : ∀ i, toInt s ≠ [.int i]) :
    ∃ e, toInt s = [.nil, .error e] := by
  unfold toInt at h ⊢
  cases hread : stoll s.toList with
  | none => exact ⟨_, rfl⟩
  | some i =>
    rw [hread] at h
    exact absurd rfl (h i)

theorem exact_iff (s : String) : Exact s ↔ ¬ Padded s.toList := by
  constructor
  · rintro ⟨hvalue, -⟩ hpadded
    obtain ⟨i, spaces, number, rest, hreads, -⟩ := id hpadded
    have hdecimal := (hvalue i).mp (toInt_eq_iff.mpr ⟨spaces, number, rest, hreads⟩)
    exact hdecimal.not_padded hpadded
  · intro hpadded
    have hvalue : ∀ i, toInt s = [.int i] ↔ IsDecimal s.toList i := by
      intro i
      rw [toInt_eq_iff]
      constructor
      · rintro ⟨spaces, number, rest, hreads⟩
        have hnone : spaces = [] ∧ rest = [] := by
          by_contra hne
          exact hpadded ⟨i, spaces, number, rest, hreads, by tauto⟩
        obtain ⟨rfl, rfl⟩ := hnone
        have htext : s.toList = number := by
          rw [hreads.split, List.nil_append, List.append_nil]
        rw [htext]
        exact hreads.number
      · exact fun h => ⟨[], s.toList, [], h.reads⟩
    exact ⟨hvalue, fun hnone => toInt_error fun i h => hnone i ((hvalue i).mp h)⟩

theorem not_meets_cannotParse (name type s : String) (output : ParamType) :
    ¬ Meets (conversionDecl name output) (cannotParse type s) := by
  change ¬ 2 = 1
  decide

theorem meets_toInt_iff (s : String) : Meets toIntDecl (toInt s) ↔
    ∃ i spaces number rest, Reads s.toList i spaces number rest := by
  constructor
  · intro h
    by_contra hnone
    obtain ⟨e, he⟩ := toInt_error fun i hi => hnone ⟨i, toInt_eq_iff.mp hi⟩
    rw [he] at h
    have hcount : 2 = 1 := h
    cases hcount
  · rintro ⟨i, h⟩
    rw [toInt_eq_iff.mpr h]
    rfl

theorem meets_toDouble_iff (stod : List Char → Option Binary64) (s : String) :
    Meets toDoubleDecl (toDouble stod s) ↔ ∃ x, stod s.toList = some x := by
  unfold toDouble
  cases stod s.toList with
  | none => exact ⟨fun h => absurd h (not_meets_cannotParse _ _ _ _), nofun⟩
  | some x => exact ⟨fun _ => ⟨x, rfl⟩, fun _ => rfl⟩

theorem meets_toBool_iff (s : String) :
    Meets toBoolDecl (toBool s) ↔ s ∈ ["true", "1", "false", "0"] := by
  unfold toBool
  by_cases htrue : s = "true" ∨ s = "1"
  · rw [if_pos htrue]
    refine ⟨fun _ => ?_, fun _ => rfl⟩
    simp only [List.mem_cons]
    tauto
  · rw [if_neg htrue]
    by_cases hfalse : s = "false" ∨ s = "0"
    · rw [if_pos hfalse]
      refine ⟨fun _ => ?_, fun _ => rfl⟩
      simp only [List.mem_cons]
      tauto
    · rw [if_neg hfalse]
      refine ⟨fun h => absurd h (not_meets_cannotParse _ _ _ _), fun h => ?_⟩
      simp only [List.mem_cons, List.not_mem_nil, or_false] at h
      tauto

theorem isDecimal_toDecimal (i : Int64) : IsDecimal (toDecimal i).toList i := by
  have hdigits : ∀ c ∈ Nat.toDigits 10 i.toInt.natAbs, c.isDigit = true :=
    fun c hc => Nat.isDigit_of_mem_toDigits (by decide) (by decide) hc
  unfold toDecimal
  rw [String.toList_append, Nat.toList_repr]
  by_cases hi : i < 0
  · have hneg : i.toInt < 0 := Int64.lt_iff_toInt_lt.mp hi
    refine ⟨['-'], _, by simp, ?_, Nat.toDigits_ne_nil, hdigits, ?_⟩
    · rw [if_pos hi]
      rfl
    · rw [if_pos rfl, Nat.ofDigitChars_ten_toDigits]
      omega
  · have hpos : 0 ≤ i.toInt := Int64.le_iff_toInt_le.mp (Int64.not_lt.mp hi)
    refine ⟨[], _, by simp, ?_, Nat.toDigits_ne_nil, hdigits, ?_⟩
    · rw [if_neg hi]
      rfl
    · rw [if_neg (by simp), Nat.ofDigitChars_ten_toDigits]
      omega

theorem toInt_toDecimal (i : Int64) : toInt (toDecimal i) = [.int i] :=
  toInt_eq_iff.mpr ⟨[], _, [], (isDecimal_toDecimal i).reads⟩

/-- Where each law of the conversions holds. -/
theorem conversions_iff (stod : List Char → Option Binary64) (s : String) :
    (Exact s ↔ ¬ Padded s.toList) ∧
    (∀ i, ∃ text, fromInt i = [.string text] ∧ toInt text = [.int i]) ∧
    (Meets toIntDecl (toInt s) ↔
      ∃ i spaces number rest, Reads s.toList i spaces number rest) ∧
    (Meets toDoubleDecl (toDouble stod s) ↔ ∃ x, stod s.toList = some x) ∧
    (Meets toBoolDecl (toBool s) ↔ s ∈ ["true", "1", "false", "0"]) :=
  ⟨exact_iff s, fun i => ⟨_, rfl, toInt_toDecimal i⟩, meets_toInt_iff s, meets_toDouble_iff stod s,
    meets_toBool_iff s⟩

/-- Text behind the digits is not looked at, and an error is one result too many. -/
theorem not_exact_trailing : ¬ Exact "12abc" ∧ ¬ Meets toIntDecl (toInt "abc") := by
  constructor
  · rw [exact_iff, not_not]
    refine ⟨12, [], "12".toList, "abc".toList, ⟨by decide, nofun, ?_, by decide⟩, .inr (by decide)⟩
    exact ⟨[], "12".toList, by decide, by decide, by decide, List.all_eq_true.mp (by decide),
      by decide⟩
  · unfold Meets
    decide

end FalconLib.Libs.Strings
