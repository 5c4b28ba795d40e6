import FalconLib.Base.Binary64Order
import FalconLib.Dsl.Operators

/-!
# Comparison of numbers

The orderings convert an int to a double when the other operand is one. `==` compares a number
with a number of the same kind only.
-/

namespace FalconLib.Dsl

open FalconLib.Base

/-! ## Numbers -/

def Numeric : RuntimeValue → Prop
  | .int _ => True
  | .float x => x.IsFinite
  | _ => False

/-- The number that a value stands for. -/
def exactValue : RuntimeValue → ℚ
  | .int i => i.toInt
  | .float x => x.toRat
  | _ => 0

/-- The operator gives `true`. -/
def Holds (heap : Heap) (op : String) (left right : RuntimeValue) : Prop :=
  applyBinaryOp heap op left right = .value (.bool true)

/-- The comparisons are those of the numbers. -/
structure Trichotomy (heap : Heap) (left right : RuntimeValue) : Prop where
  one : ∃! op, op ∈ ["<", "==", ">"] ∧ Holds heap op left right
  less : Holds heap "<" left right ↔ exactValue left < exactValue right
  equal : Holds heap "==" left right ↔ exactValue left = exactValue right
  greater : Holds heap ">" left right ↔ exactValue right < exactValue left
  atMost : Holds heap "<=" left right ↔ Holds heap "<" left right ∨ Holds heap "==" left right
  atLeast : Holds heap ">=" left right ↔ Holds heap ">" left right ∨ Holds heap "==" left right
  different : Holds heap "!=" left right ↔ ¬Holds heap "==" left right

/-- An int and a double that it is converted to. -/
def ConvertsTo : RuntimeValue → RuntimeValue → Prop
  | .int i, .float x => (Binary64.ofInt i.toInt).eq x = true
  | .float x, .int i => x.eq (Binary64.ofInt i.toInt) = true
  | _, _ => False

/-! ## Each comparison -/

section Comparisons

variable {heap : Heap} {left right : RuntimeValue}

theorem value_bool_iff {b : Bool} : OpResult.value (.bool b) = .value (.bool true) ↔ b = true := by
  cases b with
  | true => exact iff_of_true rfl rfl
  | false => exact iff_of_false nofun nofun

theorem value_decide_iff {p : Prop} [Decidable p] :
    OpResult.value (.bool (decide p)) = .value (.bool true) ↔ p :=
  value_bool_iff.trans decide_eq_true_iff

theorem holds_ne_iff : Holds heap "!=" left right ↔ ¬Holds heap "==" left right := by
  change OpResult.value (.bool (!valuesEqual heap left right)) = _ ↔
    ¬OpResult.value (.bool (valuesEqual heap left right)) = _
  cases valuesEqual heap left right with
  | true => exact iff_of_false nofun fun h => h rfl
  | false => exact iff_of_true rfl nofun

theorem trichotomy_of_exact
    (less : Holds heap "<" left right ↔ exactValue left < exactValue right)
    (equal : Holds heap "==" left right ↔ exactValue left = exactValue right)
    (greater : Holds heap ">" left right ↔ exactValue right < exactValue left)
    (atMost : Holds heap "<=" left right ↔ exactValue left ≤ exactValue right)
    (atLeast : Holds heap ">=" left right ↔ exactValue right ≤ exactValue left) :
    Trichotomy heap left right := by
  refine ⟨?_, less, equal, greater, ?_, ?_, holds_ne_iff⟩
  · have hone : ∀ {op}, op ∈ ["<", "==", ">"] → (op = "<" ∨ op = "==" ∨ op = ">") := by
      intro op hm
      simpa using hm
    rcases lt_trichotomy (exactValue left) (exactValue right) with h | h | h
    · refine ⟨"<", ⟨by simp, less.mpr h⟩, ?_⟩
      rintro op ⟨hm, hop⟩
      rcases hone hm with rfl | rfl | rfl
      · rfl
      · exact absurd (equal.mp hop) h.ne
      · exact absurd (greater.mp hop) h.asymm
    · refine ⟨"==", ⟨by simp, equal.mpr h⟩, ?_⟩
      rintro op ⟨hm, hop⟩
      rcases hone hm with rfl | rfl | rfl
      · exact absurd h (less.mp hop).ne
      · rfl
      · exact absurd h (greater.mp hop).ne'
    · refine ⟨">", ⟨by simp, greater.mpr h⟩, ?_⟩
      rintro op ⟨hm, hop⟩
      rcases hone hm with rfl | rfl | rfl
      · exact absurd (less.mp hop) h.asymm
      · exact absurd (equal.mp hop) h.ne'
      · rfl
  · rw [atMost, less, equal]
    exact le_iff_lt_or_eq
  · rw [atLeast, greater, equal]
    exact le_iff_lt_or_eq.trans (or_congr_right eq_comm)

end Comparisons

/-! ## The kinds of operands -/

variable (heap : Heap)

theorem trichotomy_int (a b : Int64) : Trichotomy heap (.int a) (.int b) := by
  have hequal : Holds heap "==" (.int a) (.int b) ↔ a.toInt = b.toInt :=
    value_bool_iff.trans (beq_iff_eq.trans Int64.toInt_inj.symm)
  refine trichotomy_of_exact ?_ (hequal.trans Int.cast_inj.symm) ?_ ?_ ?_
  · exact value_decide_iff.trans Int.cast_lt.symm
  · exact value_decide_iff.trans Int.cast_lt.symm
  · exact value_decide_iff.trans Int.cast_le.symm
  · exact value_decide_iff.trans Int.cast_le.symm

section Doubles

variable {x y : Binary64} (hx : x.isNaN = false) (hy : y.isNaN = false)
include hx hy

theorem lt_iff_key : x.lt y = true ↔ x.orderKey < y.orderKey := by
  unfold Binary64.lt
  rw [hx, hy]
  exact decide_eq_true_iff

theorem le_iff_key : x.le y = true ↔ x.orderKey ≤ y.orderKey := by
  unfold Binary64.le
  rw [hx, hy]
  exact decide_eq_true_iff

theorem eq_iff_key : x.eq y = true ↔ x.orderKey = y.orderKey := by
  unfold Binary64.eq
  rw [hx, hy]
  exact beq_iff_eq

end Doubles

theorem trichotomy_float {x y : Binary64} (hx : x.IsFinite) (hy : y.IsFinite) :
    Trichotomy heap (.float x) (.float y) := by
  have hlt : x.toRat < y.toRat ↔ x.orderKey < y.orderKey := Binary64.toRat_lt_iff
  have hgt : y.toRat < x.toRat ↔ y.orderKey < x.orderKey := Binary64.toRat_lt_iff
  have hle : x.toRat ≤ y.toRat ↔ x.orderKey ≤ y.orderKey := by
    rw [← not_lt, hgt, not_lt]
  have hge : y.toRat ≤ x.toRat ↔ y.orderKey ≤ x.orderKey := by
    rw [← not_lt, hlt, not_lt]
  have heq : x.toRat = y.toRat ↔ x.orderKey = y.orderKey := by
    rw [le_antisymm_iff, hle, hge, ← le_antisymm_iff]
  refine trichotomy_of_exact ?_ ?_ ?_ ?_ ?_
  · exact value_bool_iff.trans ((lt_iff_key hx.1 hy.1).trans hlt.symm)
  · exact value_bool_iff.trans ((eq_iff_key hx.1 hy.1).trans heq.symm)
  · exact value_bool_iff.trans ((lt_iff_key hy.1 hx.1).trans hgt.symm)
  · exact value_bool_iff.trans ((le_iff_key hx.1 hy.1).trans hle.symm)
  · exact value_bool_iff.trans ((le_iff_key hy.1 hx.1).trans hge.symm)

/-! ## An int and a double -/

section Mixed

variable {i : Int64} {x : Binary64} (hx : x.IsFinite)
include hx

theorem ofInt_lt_iff (hne : (Binary64.ofInt i.toInt).orderKey ≠ x.orderKey) :
    (Binary64.ofInt i.toInt).orderKey < x.orderKey ↔ (i.toInt : ℚ) < x.toRat := by
  constructor
  · intro h
    by_contra hle
    exact absurd (Binary64.le_orderKey_ofRat hx (not_lt.mp hle) false) (not_le.mpr h)
  · intro h
    exact lt_of_le_of_ne (Binary64.orderKey_ofRat_le hx h.le false) hne

theorem lt_ofInt_iff (hne : (Binary64.ofInt i.toInt).orderKey ≠ x.orderKey) :
    x.orderKey < (Binary64.ofInt i.toInt).orderKey ↔ x.toRat < i.toInt := by
  constructor
  · intro h
    by_contra hle
    exact absurd (Binary64.orderKey_ofRat_le hx (not_lt.mp hle) false) (not_le.mpr h)
  · intro h
    exact lt_of_le_of_ne (Binary64.le_orderKey_ofRat hx h.le false) hne.symm

theorem ofInt_ne (hne : (Binary64.ofInt i.toInt).orderKey ≠ x.orderKey) :
    (i.toInt : ℚ) ≠ x.toRat := by
  intro heq
  refine hne (le_antisymm ?_ ?_)
  · exact Binary64.orderKey_ofRat_le hx heq.le false
  · exact Binary64.le_orderKey_ofRat hx heq.ge false

theorem trichotomy_mixed (hne : (Binary64.ofInt i.toInt).orderKey ≠ x.orderKey) :
    Trichotomy heap (.int i) (.float x) ∧ Trichotomy heap (.float x) (.int i) := by
  have hi : (Binary64.ofInt i.toInt).isNaN = false := Binary64.isNaN_ofRat _ _
  have hlt := ofInt_lt_iff hx hne
  have hgt := lt_ofInt_iff hx hne
  have hle : (Binary64.ofInt i.toInt).orderKey ≤ x.orderKey ↔ (i.toInt : ℚ) ≤ x.toRat := by
    rw [← not_lt, hgt, not_lt]
  have hge : x.orderKey ≤ (Binary64.ofInt i.toInt).orderKey ↔ x.toRat ≤ i.toInt := by
    rw [← not_lt, hlt, not_lt]
  constructor
  · refine trichotomy_of_exact ?_ (iff_of_false nofun (ofInt_ne hx hne)) ?_ ?_ ?_
    · exact value_bool_iff.trans ((lt_iff_key hi hx.1).trans hlt)
    · exact value_bool_iff.trans ((lt_iff_key hx.1 hi).trans hgt)
    · exact value_bool_iff.trans ((le_iff_key hi hx.1).trans hle)
    · exact value_bool_iff.trans ((le_iff_key hx.1 hi).trans hge)
  · refine trichotomy_of_exact ?_ (iff_of_false nofun (ofInt_ne hx hne).symm) ?_ ?_ ?_
    · exact value_bool_iff.trans ((lt_iff_key hx.1 hi).trans hgt)
    · exact value_bool_iff.trans ((lt_iff_key hi hx.1).trans hlt)
    · exact value_bool_iff.trans ((le_iff_key hx.1 hi).trans hge)
    · exact value_bool_iff.trans ((le_iff_key hi hx.1).trans hle)

/-- No comparison holds between an int and the double that it is converted to. -/
theorem not_trichotomy_mixed (heq : (Binary64.ofInt i.toInt).orderKey = x.orderKey) :
    ¬Trichotomy heap (.int i) (.float x) ∧ ¬Trichotomy heap (.float x) (.int i) := by
  have hi : (Binary64.ofInt i.toInt).isNaN = false := Binary64.isNaN_ofRat _ _
  have hone : ∀ {op}, op ∈ ["<", "==", ">"] → (op = "<" ∨ op = "==" ∨ op = ">") := by
    intro op hm
    simpa using hm
  constructor
  · rintro ⟨⟨op, ⟨hm, hop⟩, _⟩, _⟩
    rcases hone hm with rfl | rfl | rfl
    · exact absurd ((lt_iff_key hi hx.1).mp (value_bool_iff.mp hop)) (by omega)
    · cases hop
    · exact absurd ((lt_iff_key hx.1 hi).mp (value_bool_iff.mp hop)) (by omega)
  · rintro ⟨⟨op, ⟨hm, hop⟩, _⟩, _⟩
    rcases hone hm with rfl | rfl | rfl
    · exact absurd ((lt_iff_key hx.1 hi).mp (value_bool_iff.mp hop)) (by omega)
    · cases hop
    · exact absurd ((lt_iff_key hi hx.1).mp (value_bool_iff.mp hop)) (by omega)

end Mixed

/-- The comparisons are those of the numbers, except between an int and the double that it is
converted to. -/
theorem trichotomy_iff {left right : RuntimeValue} (hl : Numeric left) (hr : Numeric right) :
    Trichotomy heap left right ↔ ¬ConvertsTo left right := by
  cases left with
  | int a =>
    cases right with
    | int b => exact iff_of_true (trichotomy_int heap a b) id
    | float x =>
      have hkey : ConvertsTo (.int a) (.float x) ↔
          (Binary64.ofInt a.toInt).orderKey = x.orderKey := eq_iff_key (Binary64.isNaN_ofRat _ _) hr.1
      rw [hkey]
      constructor
      · exact fun h heq => (not_trichotomy_mixed heap hr heq).1 h
      · exact fun hne => (trichotomy_mixed heap hr hne).1
    | _ => exact hr.elim
  | float x =>
    cases right with
    | int b =>
      have hkey : ConvertsTo (.float x) (.int b) ↔
          x.orderKey = (Binary64.ofInt b.toInt).orderKey := eq_iff_key hl.1 (Binary64.isNaN_ofRat _ _)
      rw [hkey]
      constructor
      · exact fun h heq => (not_trichotomy_mixed heap hl heq.symm).2 h
      · exact fun hne => (trichotomy_mixed heap hl (Ne.symm hne)).2
    | float y => exact iff_of_true (trichotomy_float heap hl hr) id
    | _ => exact hr.elim
  | _ => exact hl.elim

/-- The double `1.5`. -/
def oneAndHalf : Binary64 := ⟨0x3FF8000000000000⟩

theorem trichotomy_iff_oneAndHalf : Trichotomy {} (.int 1) (.float oneAndHalf) := by
  have hint : Numeric (.int 1) := trivial
  have hfinite : Numeric (.float oneAndHalf) := ⟨by decide, by decide⟩
  have hne : (Binary64.ofInt (1 : Int64).toInt).eq oneAndHalf = false := by decide +kernel
  exact (trichotomy_iff {} hint hfinite).mpr (Bool.not_eq_true _ ▸ hne)

/-- `1 == 1.0`, `1 < 1.0` and `1 > 1.0` are all false. -/
theorem not_trichotomy_one :
    applyBinaryOp {} "<" (.int 1) (.float ⟨0x3FF0000000000000⟩) = .value (.bool false) ∧
    applyBinaryOp {} "==" (.int 1) (.float ⟨0x3FF0000000000000⟩) = .value (.bool false) ∧
    applyBinaryOp {} ">" (.int 1) (.float ⟨0x3FF0000000000000⟩) = .value (.bool false) ∧
    ¬Trichotomy {} (.int 1) (.float ⟨0x3FF0000000000000⟩) := by
  have hlt : (Binary64.ofInt (1 : Int64).toInt).lt ⟨0x3FF0000000000000⟩ = false := by decide +kernel
  have hgt : Binary64.lt ⟨0x3FF0000000000000⟩ (Binary64.ofInt (1 : Int64).toInt) = false := by
    decide +kernel
  have hless : applyBinaryOp {} "<" (.int 1) (.float ⟨0x3FF0000000000000⟩) = .value (.bool false) :=
    congrArg (fun b => OpResult.value (.bool b)) hlt
  have hgreater : applyBinaryOp {} ">" (.int 1) (.float ⟨0x3FF0000000000000⟩) =
      .value (.bool false) := congrArg (fun b => OpResult.value (.bool b)) hgt
  refine ⟨hless, rfl, hgreater, ?_⟩
  rintro ⟨⟨op, ⟨hm, hop⟩, _⟩, _⟩
  unfold Holds at hop
  simp only [List.mem_cons, List.not_mem_nil, or_false] at hm
  rcases hm with rfl | rfl | rfl
  · rw [hless] at hop
    cases hop
  · cases hop
  · rw [hgreater] at hop
    cases hop

end FalconLib.Dsl
