import FalconLib.Base.Binary64
import Mathlib.Algebra.Order.Field.Power
import Mathlib.Data.Int.ConditionallyCompleteOrder
import Mathlib.Order.Monotone.Basic
import Mathlib.Order.Monotone.Odd
import Mathlib.Tactic.Linarith
import Mathlib.Tactic.Positivity

/-!
# The order of binary64 numbers

The order of the patterns is the order of the values, and rounding keeps it: a rational that lies
on one side of a number is not rounded across it.
-/

namespace FalconLib.Base.Binary64

/-! ## Values of magnitudes -/

/-- The value of a magnitude in units of `2 ^ -1074`. -/
def scaled (m : Nat) : Nat :=
  if m / 2 ^ 52 = 0 then m % 2 ^ 52 else (2 ^ 52 + m % 2 ^ 52) * 2 ^ (m / 2 ^ 52 - 1)

/-- A significand of 53 bits, which may be carried over by one. -/
theorem scaled_encode {k n : Nat} (hn : n ≤ 2 ^ 53) (h : k = 0 ∨ 2 ^ 52 ≤ n) :
    scaled (k * 2 ^ 52 + n) = n * 2 ^ k := by
  unfold scaled
  by_cases hsmall : n < 2 ^ 52
  · obtain rfl : k = 0 := by omega
    rw [if_pos (by omega), Nat.pow_zero, Nat.mul_one]
    omega
  · by_cases hcarry : n = 2 ^ 53
    · obtain rfl := hcarry
      have hdiv : (k * 2 ^ 52 + 2 ^ 53) / 2 ^ 52 = k + 2 := by omega
      have hmod : (k * 2 ^ 52 + 2 ^ 53) % 2 ^ 52 = 0 := by omega
      have hpow : 2 ^ 52 * 2 ^ (k + 1) = 2 ^ 53 * 2 ^ k := by
        rw [Nat.pow_succ 2 k, Nat.pow_succ 2 52, Nat.mul_comm (2 ^ k) 2, Nat.mul_assoc]
      have hexp : k + 2 - 1 = k + 1 := by omega
      rw [hdiv, hmod, if_neg (by omega), Nat.add_zero, hexp, hpow]
    · have hdiv : (k * 2 ^ 52 + n) / 2 ^ 52 = k + 1 := by omega
      have hmod : (k * 2 ^ 52 + n) % 2 ^ 52 = n - 2 ^ 52 := by omega
      rw [hdiv, hmod, if_neg (by omega), Nat.add_sub_cancel, Nat.add_sub_cancel' (by omega)]

theorem exists_encode (m : Nat) :
    ∃ k n, m = k * 2 ^ 52 + n ∧ n < 2 ^ 53 ∧ (k = 0 ∨ 2 ^ 52 ≤ n) := by
  by_cases h : m < 2 ^ 52
  · exact ⟨0, m, by omega, by omega, .inl rfl⟩
  · exact ⟨m / 2 ^ 52 - 1, 2 ^ 52 + m % 2 ^ 52, by omega, by omega, .inr (by omega)⟩

theorem scaled_strictMono : StrictMono scaled := by
  refine strictMono_nat_of_lt_succ fun m => ?_
  obtain ⟨k, n, rfl, hn, h⟩ := exists_encode m
  rw [Nat.add_assoc, scaled_encode (by omega) h, scaled_encode (by omega) (by omega)]
  exact Nat.mul_lt_mul_of_pos_right (Nat.lt_succ_self n) (Nat.two_pow_pos k)

/-! ## Rounding -/

theorem roundHalfEven_le {q : ℚ} {n : Nat} (h : q ≤ n) : roundHalfEven q ≤ n := by
  have hfloor : ⌊q⌋.toNat ≤ n := by
    have : ⌊q⌋ ≤ (n : ℤ) := Int.floor_le_iff.mpr (by push_cast; linarith)
    omega
  unfold roundHalfEven
  dsimp only
  by_cases heq : ⌊q⌋.toNat = n
  · rw [heq, if_pos (by linarith)]
  · split_ifs <;> omega

theorem le_roundHalfEven {q : ℚ} {n : Nat} (h : (n : ℚ) ≤ q) : n ≤ roundHalfEven q := by
  have hfloor : n ≤ ⌊q⌋.toNat := by
    have : (n : ℤ) ≤ ⌊q⌋ := Int.le_floor.mpr (by exact_mod_cast h)
    omega
  unfold roundHalfEven
  dsimp only
  split_ifs <;> omega

theorem num_eq_mul_den (q : ℚ) : (q.num : ℚ) = q * q.den :=
  (div_eq_iff (Nat.cast_ne_zero.mpr q.den_ne_zero)).mp (Rat.num_div_den q)

/-- The lengths of numerator and denominator give the exponent up to one. -/
theorem log2_bounds {q : ℚ} (hq : 0 < q) :
    let k := (Nat.log2 q.num.natAbs : Int) - Nat.log2 q.den
    (2 : ℚ) ^ (k - 1) ≤ q ∧ q < (2 : ℚ) ^ (k + 1) := by
  intro k
  have hnum : ((q.num.natAbs : ℕ) : ℚ) = q * q.den := by
    rw [← num_eq_mul_den, Nat.cast_natAbs, abs_of_pos (Rat.num_pos.mpr hq)]
  have hnumLe : (2 : ℚ) ^ (Nat.log2 q.num.natAbs : Int) ≤ q * q.den := by
    rw [← hnum, zpow_natCast]
    exact_mod_cast Nat.log2_self_le (Int.natAbs_ne_zero.mpr (Rat.num_pos.mpr hq).ne')
  have hnumLt : q * q.den < (2 : ℚ) ^ ((Nat.log2 q.num.natAbs : Int) + 1) := by
    rw [← hnum, ← Nat.cast_succ, zpow_natCast]
    exact_mod_cast Nat.lt_log2_self
  have hdenLe : (2 : ℚ) ^ (Nat.log2 q.den : Int) ≤ q.den := by
    rw [zpow_natCast]
    exact_mod_cast Nat.log2_self_le q.den_ne_zero
  have hdenLt : (q.den : ℚ) < (2 : ℚ) ^ ((Nat.log2 q.den : Int) + 1) := by
    rw [← Nat.cast_succ, zpow_natCast]
    exact_mod_cast Nat.lt_log2_self
  have hden : (0 : ℚ) < q.den := Nat.cast_pos.mpr q.den_pos
  constructor
  · refine le_of_mul_le_mul_right ?_ hden
    calc (2 : ℚ) ^ (k - 1) * q.den ≤ 2 ^ (k - 1) * 2 ^ ((Nat.log2 q.den : Int) + 1) :=
          mul_le_mul_of_nonneg_left hdenLt.le (by positivity)
      _ = 2 ^ (Nat.log2 q.num.natAbs : Int) := by
          rw [← zpow_add₀ two_ne_zero]
          congr 1
          omega
      _ ≤ q * q.den := hnumLe
  · refine lt_of_mul_lt_mul_right ?_ hden.le
    calc q * q.den < 2 ^ ((Nat.log2 q.num.natAbs : Int) + 1) := hnumLt
      _ = 2 ^ (k + 1) * 2 ^ (Nat.log2 q.den : Int) := by
          rw [← zpow_add₀ two_ne_zero]
          congr 1
          omega
      _ ≤ 2 ^ (k + 1) * q.den := mul_le_mul_of_nonneg_left hdenLe (by positivity)

theorem floorLog2_spec {q : ℚ} (hq : 0 < q) :
    (2 : ℚ) ^ floorLog2 q ≤ q ∧ q < (2 : ℚ) ^ (floorLog2 q + 1) := by
  obtain ⟨hlower, hupper⟩ := log2_bounds hq
  unfold floorLog2
  dsimp only at hlower hupper ⊢
  split_ifs with h
  · exact ⟨h, hupper⟩
  · rw [sub_add_cancel]
    exact ⟨hlower, not_le.mp h⟩

/-- A rounded magnitude: the significand, and the exponent of its unit. -/
theorem exists_roundMagnitude {q : ℚ} (hq : 0 < q) : ∃ (k : Nat) (s : ℚ),
    roundMagnitude q = min (k * 2 ^ 52 + roundHalfEven s) (2047 * 2 ^ 52) ∧
      s * 2 ^ k = q * 2 ^ 1074 ∧ s < 2 ^ 53 ∧ (k = 0 ∨ 2 ^ 52 ≤ s) := by
  obtain ⟨hlower, hupper⟩ := floorLog2_spec hq
  let unit : Int := max (floorLog2 q - 52) (-1074)
  have hround : roundMagnitude q =
      min ((unit + 1074).toNat * 2 ^ 52 + roundHalfEven (q / 2 ^ unit)) (2047 * 2 ^ 52) := by
    unfold roundMagnitude
    rw [if_neg hq.ne']
  have hunit : (2 : ℚ) ^ ((unit + 1074).toNat) = 2 ^ unit * 2 ^ 1074 := by
    rw [← zpow_natCast, ← zpow_natCast (2 : ℚ) 1074, ← zpow_add₀ two_ne_zero]
    congr 1
    omega
  have hpos : (0 : ℚ) < 2 ^ unit := by positivity
  refine ⟨(unit + 1074).toNat, q / 2 ^ unit, hround, ?_, ?_, ?_⟩
  · rw [hunit, ← mul_assoc, div_mul_cancel₀ _ hpos.ne']
  · rw [div_lt_iff₀ hpos]
    refine hupper.trans_le ?_
    rw [← zpow_natCast (2 : ℚ) 53, ← zpow_add₀ two_ne_zero]
    exact zpow_le_zpow_right₀ one_le_two (by omega)
  · by_cases h : floorLog2 q - 52 ≤ -1074
    · exact .inl (by omega)
    · right
      rw [le_div_iff₀ hpos]
      refine le_trans ?_ hlower
      rw [← zpow_natCast (2 : ℚ) 52, ← zpow_add₀ two_ne_zero]
      exact zpow_le_zpow_right₀ one_le_two (by omega)

theorem roundMagnitude_zero : roundMagnitude 0 = 0 := if_pos rfl

/-- A unit divides a number, or is larger than the number's own unit. -/
theorem unit_dvd_or_lt (m k : Nat) :
    (∃ n, scaled m = n * 2 ^ k) ∨ k ≠ 0 ∧ scaled m < 2 ^ 52 * 2 ^ k := by
  obtain ⟨k', n, rfl, hn, h⟩ := exists_encode m
  rw [scaled_encode hn.le h]
  by_cases hle : k ≤ k'
  · refine .inl ⟨n * 2 ^ (k' - k), ?_⟩
    rw [Nat.mul_assoc, ← Nat.pow_add, Nat.sub_add_cancel hle]
  · refine .inr ⟨by omega, ?_⟩
    calc n * 2 ^ k' < 2 ^ 53 * 2 ^ k' := Nat.mul_lt_mul_of_pos_right hn (Nat.two_pow_pos k')
      _ = 2 ^ 52 * 2 ^ (k' + 1) := by
        rw [Nat.pow_succ 2 k', Nat.pow_succ 2 52, Nat.mul_comm (2 ^ k') 2, Nat.mul_assoc]
      _ ≤ 2 ^ 52 * 2 ^ k := Nat.mul_le_mul_left _ (Nat.pow_le_pow_right two_pos (by omega))

/-- Rounding up does not pass a number. -/
theorem roundMagnitude_le {q : ℚ} {m : Nat} (hq : 0 ≤ q) (h : q * 2 ^ 1074 ≤ scaled m) :
    roundMagnitude q ≤ m := by
  rcases hq.eq_or_lt with rfl | hq
  · rw [roundMagnitude_zero]
    exact Nat.zero_le m
  obtain ⟨k, s, hround, hs, hlt, hk⟩ := exists_roundMagnitude hq
  have hsig : roundHalfEven s ≤ 2 ^ 53 := roundHalfEven_le (by exact_mod_cast hlt.le)
  have hnormal : k = 0 ∨ 2 ^ 52 ≤ roundHalfEven s :=
    hk.imp_right fun hk => le_roundHalfEven (by exact_mod_cast hk)
  have hpos : (0 : ℚ) < 2 ^ k := by positivity
  rw [hround]
  refine (min_le_left _ _).trans ?_
  rw [← scaled_strictMono.le_iff_le, scaled_encode hsig hnormal]
  rw [← hs] at h
  rcases unit_dvd_or_lt m k with ⟨n, hn⟩ | ⟨hne, hsmall⟩
  · rw [hn] at h ⊢
    push_cast at h
    exact Nat.mul_le_mul_right _ (roundHalfEven_le (le_of_mul_le_mul_right h hpos))
  · have hlarge := mul_le_mul_of_nonneg_right (hk.resolve_left hne) hpos.le
    have hsmall' : (scaled m : ℚ) < 2 ^ 52 * 2 ^ k := by exact_mod_cast hsmall
    linarith

/-- Nor does rounding down. -/
theorem le_roundMagnitude {q : ℚ} {m : Nat} (hm : m ≤ 2047 * 2 ^ 52)
    (h : (scaled m : ℚ) ≤ q * 2 ^ 1074) : m ≤ roundMagnitude q := by
  by_cases hzero : m = 0
  · rw [hzero]
    exact Nat.zero_le _
  have hscaled : 0 < scaled m := (Nat.zero_le _).trans_lt (scaled_strictMono (Nat.pos_of_ne_zero hzero))
  have hq : 0 < q := by
    have : (0 : ℚ) < scaled m := by exact_mod_cast hscaled
    exact pos_of_mul_pos_left (this.trans_le h) (by positivity)
  obtain ⟨k, s, hround, hs, hlt, hk⟩ := exists_roundMagnitude hq
  have hsig : roundHalfEven s ≤ 2 ^ 53 := roundHalfEven_le (by exact_mod_cast hlt.le)
  have hnormal : k = 0 ∨ 2 ^ 52 ≤ roundHalfEven s :=
    hk.imp_right fun hk => le_roundHalfEven (by exact_mod_cast hk)
  have hpos : (0 : ℚ) < 2 ^ k := by positivity
  rw [hround]
  refine le_min ?_ hm
  rw [← scaled_strictMono.le_iff_le, scaled_encode hsig hnormal]
  rw [← hs] at h
  rcases unit_dvd_or_lt m k with ⟨n, hn⟩ | ⟨hne, hsmall⟩
  · rw [hn] at h ⊢
    push_cast at h
    exact Nat.mul_le_mul_right _ (le_roundHalfEven (le_of_mul_le_mul_right h hpos))
  · exact hsmall.le.trans (Nat.mul_le_mul_right _ (hnormal.resolve_left hne))

/-! ## Keys -/

/-- The value of a key in units of `2 ^ -1074`. -/
def scaledKey (n : Int) : Int := if n < 0 then -(scaled n.natAbs : Int) else scaled n.natAbs

theorem scaledKey_neg (n : Int) : scaledKey (-n) = -scaledKey n := by
  unfold scaledKey
  rw [Int.natAbs_neg]
  rcases lt_trichotomy n 0 with h | rfl | h
  · rw [if_neg (by omega), if_pos h, neg_neg]
  · rfl
  · rw [if_pos (by omega), if_neg (by omega)]

theorem scaledKey_strictMono : StrictMono scaledKey := by
  refine strictMono_of_odd_strictMonoOn_nonneg scaledKey_neg fun a ha b hb hab => ?_
  unfold scaledKey
  rw [if_neg (not_lt.mpr ha), if_neg (not_lt.mpr hb)]
  exact_mod_cast scaled_strictMono (Int.natAbs_lt_natAbs_of_nonneg_of_lt ha hab)

def IsFinite (x : Binary64) : Prop := x.isNaN = false ∧ x.isInfinite = false

theorem IsFinite.exponent_ne {x : Binary64} (h : x.IsFinite) : x.exponentField ≠ 2047 := by
  intro he
  obtain ⟨hnan, hinf⟩ := h
  unfold isNaN at hnan
  unfold isInfinite at hinf
  rw [he] at hnan hinf
  by_cases hf : x.fractionField = 0
  · rw [hf] at hinf
    cases hinf
  · rw [bne_iff_ne.mpr hf] at hnan
    cases hnan

theorem magnitudeBits_div (x : Binary64) : x.magnitudeBits / 2 ^ 52 = x.exponentField := by
  unfold magnitudeBits exponentField
  omega

theorem magnitudeBits_mod (x : Binary64) : x.magnitudeBits % 2 ^ 52 = x.fractionField := by
  unfold magnitudeBits fractionField
  omega

theorem IsFinite.magnitudeBits_lt {x : Binary64} (h : x.IsFinite) :
    x.magnitudeBits < 2047 * 2 ^ 52 := by
  have hlt : x.magnitudeBits < 2 ^ 63 := Nat.mod_lt _ (by decide)
  have hne := h.exponent_ne
  rw [← magnitudeBits_div] at hne
  omega

/-- The value of a pattern without its sign. -/
theorem significand_eq (x : Binary64) :
    ((if x.exponentField = 0 then x.fractionField else 2 ^ 52 + x.fractionField : Nat) : ℚ) *
      2 ^ ((max x.exponentField 1 : Int) - 1075) * 2 ^ 1074 = scaled x.magnitudeBits := by
  have hpow : (2 : ℚ) ^ ((max x.exponentField 1 : Int) - 1075) * 2 ^ 1074 =
      2 ^ (x.exponentField - 1) := by
    rw [← zpow_natCast, ← zpow_natCast (2 : ℚ) (x.exponentField - 1), ← zpow_add₀ two_ne_zero]
    congr 1
    omega
  unfold scaled
  rw [magnitudeBits_div, magnitudeBits_mod, mul_assoc, hpow]
  by_cases he : x.exponentField = 0
  · rw [if_pos he, if_pos he, he, Nat.zero_sub, pow_zero, mul_one]
  · rw [if_neg he, if_neg he]
    push_cast
    rfl

/-- The value of a pattern is the value of its key. -/
theorem toRat_eq (x : Binary64) : x.toRat * 2 ^ 1074 = scaledKey x.orderKey := by
  have hvalue := significand_eq x
  unfold toRat orderKey scaledKey
  dsimp only
  cases hs : x.isNegative with
  | true =>
    rw [if_pos rfl, if_pos rfl, neg_mul, hvalue, Int.natAbs_neg, Int.natAbs_natCast]
    by_cases hzero : x.magnitudeBits = 0
    · rw [hzero]
      rfl
    · rw [if_pos (by omega)]
      push_cast
      rfl
  | false =>
    rw [if_neg Bool.false_ne_true, if_neg Bool.false_ne_true, hvalue, if_neg (by omega),
      Int.natAbs_natCast]
    push_cast
    rfl

theorem toRat_lt_iff {x y : Binary64} : x.toRat < y.toRat ↔ x.orderKey < y.orderKey := by
  have hpos : (0 : ℚ) < 2 ^ 1074 := by positivity
  rw [← scaledKey_strictMono.lt_iff_lt, ← mul_lt_mul_iff_left₀ hpos, toRat_eq, toRat_eq]
  exact_mod_cast Iff.rfl

/-! ## Rounded numbers -/

theorem roundMagnitude_le_infinity (q : ℚ) : roundMagnitude q ≤ 2047 * 2 ^ 52 := by
  unfold roundMagnitude
  split_ifs
  · exact Nat.zero_le _
  · exact min_le_right _ _

theorem toNat_ofFields (negative : Bool) {m : Nat} (hm : m < 2 ^ 63) :
    (ofFields negative m).bits.toNat = (if negative then 2 ^ 63 else 0) + m := by
  unfold ofFields
  rw [BitVec.toNat_ofNat, Nat.mod_eq_of_lt]
  split_ifs <;> omega

theorem orderKey_ofFields (negative : Bool) {m : Nat} (hm : m < 2 ^ 63) :
    (ofFields negative m).orderKey = if negative then -(m : Int) else m := by
  have hbits := toNat_ofFields negative hm
  have hsign : (ofFields negative m).isNegative = negative := by
    unfold isNegative
    rw [BitVec.msb_eq_decide, hbits]
    cases negative with
    | true => exact decide_eq_true (by simp)
    | false => exact decide_eq_false (by simp; omega)
  have hmagnitude : (ofFields negative m).magnitudeBits = m := by
    unfold magnitudeBits
    rw [hbits]
    split_ifs <;> omega
  unfold orderKey
  rw [hsign, hmagnitude]

theorem isNaN_ofFields (negative : Bool) {m : Nat} (hm : m ≤ 2047 * 2 ^ 52) :
    (ofFields negative m).isNaN = false := by
  have hbits := toNat_ofFields negative (m := m) (by omega)
  have hmod : (ofFields negative m).bits.toNat % 2 ^ 63 = m := by
    rw [hbits]
    split_ifs <;> omega
  unfold isNaN exponentField fractionField
  rw [Bool.and_eq_false_iff, beq_eq_false_iff_ne, bne_eq_false_iff_eq]
  omega

theorem isNaN_ofRat (q : ℚ) (negativeZero : Bool) : (ofRat q negativeZero).isNaN = false :=
  isNaN_ofFields _ (roundMagnitude_le_infinity _)

theorem orderKey_ofRat (q : ℚ) (negativeZero : Bool) :
    (ofRat q negativeZero).orderKey =
      if q < 0 then -(roundMagnitude |q| : Int) else roundMagnitude |q| := by
  have hlt : roundMagnitude |q| < 2 ^ 63 := (roundMagnitude_le_infinity _).trans_lt (by decide)
  unfold ofRat
  rw [orderKey_ofFields _ hlt]
  by_cases hzero : q = 0
  · rw [hzero, abs_zero, roundMagnitude_zero]
    split_ifs <;> rfl
  · simp only [if_neg hzero, decide_eq_true_eq]

theorem orderKey_ofRat_neg (q : ℚ) (negativeZero : Bool) :
    (ofRat (-q) negativeZero).orderKey = -(ofRat q negativeZero).orderKey := by
  rw [orderKey_ofRat, orderKey_ofRat, abs_neg]
  rcases lt_trichotomy q 0 with h | rfl | h
  · rw [if_pos h, if_neg (by linarith), neg_neg]
  · rw [neg_zero, abs_zero, roundMagnitude_zero]
    rfl
  · rw [if_pos (by linarith), if_neg (by linarith)]

theorem orderKey_ofRat_le_key {q : ℚ} {n : Int} (hn : -(2047 * 2 ^ 52) ≤ n)
    (h : q * 2 ^ 1074 ≤ scaledKey n) (negativeZero : Bool) :
    (ofRat q negativeZero).orderKey ≤ n := by
  rw [orderKey_ofRat]
  by_cases hneg : n < 0
  · have hscaled : scaledKey n = -(scaled n.natAbs : Int) := if_pos hneg
    rw [hscaled] at h
    push_cast at h
    have hnonneg : (0 : ℚ) < scaled n.natAbs := by
      exact_mod_cast (Nat.zero_le _).trans_lt (scaled_strictMono (Int.natAbs_pos.mpr hneg.ne))
    have hq : q < 0 := by
      by_contra hq
      have hproduct := mul_nonneg (not_lt.mp hq) (show (0 : ℚ) ≤ 2 ^ 1074 by positivity)
      exact absurd (hproduct.trans h) (not_le.mpr (neg_neg_of_pos hnonneg))
    have hround : n.natAbs ≤ roundMagnitude |q| := by
      refine le_roundMagnitude (by omega) ?_
      rw [abs_of_neg hq, neg_mul]
      exact le_neg_of_le_neg h
    rw [if_pos hq]
    omega
  · have hscaled : scaledKey n = scaled n.natAbs := if_neg hneg
    rw [hscaled] at h
    push_cast at h
    by_cases hq : q < 0
    · rw [if_pos hq]
      omega
    · have hround : roundMagnitude |q| ≤ n.natAbs := by
        refine roundMagnitude_le (abs_nonneg q) ?_
        rwa [abs_of_nonneg (not_lt.mp hq)]
      rw [if_neg hq]
      omega

/-- Rounding does not pass a number on the way up. -/
theorem orderKey_ofRat_le {q : ℚ} {x : Binary64} (hx : x.IsFinite) (h : q ≤ x.toRat)
    (negativeZero : Bool) : (ofRat q negativeZero).orderKey ≤ x.orderKey := by
  refine orderKey_ofRat_le_key ?_ ?_ negativeZero
  · have := hx.magnitudeBits_lt
    unfold orderKey
    split_ifs <;> omega
  · rw [← toRat_eq]
    exact mul_le_mul_of_nonneg_right h (by positivity)

/-- Nor on the way down. -/
theorem le_orderKey_ofRat {q : ℚ} {x : Binary64} (hx : x.IsFinite) (h : x.toRat ≤ q)
    (negativeZero : Bool) : x.orderKey ≤ (ofRat q negativeZero).orderKey := by
  have hkey : (ofRat (-q) negativeZero).orderKey ≤ -x.orderKey := by
    refine orderKey_ofRat_le_key ?_ ?_ negativeZero
    · have := hx.magnitudeBits_lt
      unfold orderKey
      split_ifs <;> omega
    · rw [scaledKey_neg, Int.cast_neg, ← toRat_eq, neg_mul]
      exact neg_le_neg (mul_le_mul_of_nonneg_right h (by positivity))
  rw [orderKey_ofRat_neg] at hkey
  omega

end FalconLib.Base.Binary64
