import FalconLib.Typing.FFIHelpers

/-!
# Parameters that come back as results

`echo` is a library function that unpacks its parameters and packs them again as results, in
the order of their keys and with the capacity it finds in `*out_count`.
-/

namespace FalconLib.Typing.FFI

open FalconLib.Base (Comp Halt StdMap)
open FalconLib.Dsl

def values (params : ParameterMap) : List RuntimeValue := params.toList.map Prod.snd

def echo : FalconFFIFunc := fun entries slots capacity => do
  let params ← unpackParams entries ∅
  packResults (values params) slots capacity

/-- A value and the one that came back for it: an instance may be a new one, with the same
contents. -/
def Same (heap heap' : Heap) : RuntimeValue → RuntimeValue → Prop
  | .struct id, .struct id' => heap'.structs[id']? = heap.structs[id]?
  | .tuple id, .tuple id' => heap'.tuples[id']? = heap.tuples[id]?
  | .array id, .array id' => heap'.arrays[id']? = heap.arrays[id]?
  | value, value' => value = value'

def RoundTrips (heap : Heap) (params : ParameterMap) : Prop :=
  ∃ results heap', (callForeign echo params heap).outcome = .ok results heap' ∧
    List.Forall₂ (Same heap heap') (values params) results

/-- Without room nothing is written. -/
theorem packResults_zero (result : FunctionResult) (slots : List FalconResultSlot) (heap : Heap) :
    ∃ n : Int32, n.toInt ≤ 0 ∧ (packResults result slots 0 heap).outcome = .ok (slots, n) heap := by
  have hmin : (min (Int32.ofNat result.length) 0).toInt ≤ 0 := by
    change Int32.toInt (if Int32.ofNat result.length ≤ 0 then _ else 0) ≤ Int32.toInt 0
    by_cases h : Int32.ofNat result.length ≤ 0
    · rw [if_pos h]
      exact Int32.le_iff_toInt_le.mp h
    · rw [if_neg h]
  refine ⟨min (Int32.ofNat result.length) 0, hmin, ?_⟩
  have hcount : (min (Int32.ofNat result.length) 0).toInt.toNat = 0 := Int.toNat_of_nonpos hmin
  unfold packResults
  rw [Comp.outcome_gets_bind, hcount, if_neg (Nat.not_lt_zero _)]
  rfl

theorem unpackResults_nonpos {n : Int32} (h : n.toInt ≤ 0) {slots : List FalconResultSlot}
    {heap heap' : Heap} {results : FunctionResult}
    (hok : (unpackResults slots n heap).outcome = .ok results heap') : results = [] := by
  unfold unpackResults at hok
  by_cases hn : n.toInt < 0
  · rw [if_pos hn] at hok
    cases hok
  · rw [if_neg hn, Int.toNat_of_nonpos h, if_neg (Nat.not_lt_zero _)] at hok
    cases hok
    rfl

/-- The engine leaves no room for results, so that the values come back exactly when there
are none. -/
theorem roundTrips_iff_isEmpty (heap : Heap) (params : ParameterMap) :
    RoundTrips heap params ↔ params.isEmpty := by
  constructor
  · rintro ⟨results, heap', hok, hsame⟩
    unfold callForeign at hok
    rw [Comp.outcome_gets_bind] at hok
    obtain ⟨⟨slots, n⟩, t, hecho, hunpack⟩ := Comp.bind_eq_ok hok
    obtain ⟨received, u, _, hpack⟩ := Comp.bind_eq_ok hecho
    obtain ⟨m, hm, hzero⟩ := packResults_zero (values received) (List.replicate maxOutputs .nil) u
    rw [hzero] at hpack
    cases hpack
    rw [unpackResults_nonpos hm hunpack] at hsame
    have hnil : params.toList = [] := List.map_eq_nil_iff.mp (List.forall₂_nil_right_iff.mp hsame)
    rwa [← Std.ExtTreeMap.isEmpty_toList, List.isEmpty_iff]
  · intro hempty
    have hnil : params.toList = [] := by
      rwa [← Std.ExtTreeMap.isEmpty_toList, List.isEmpty_iff] at hempty
    refine ⟨[], heap, ?_, ?_⟩
    · unfold callForeign packParams
      rw [hnil]
      rfl
    · unfold values
      rw [hnil]
      exact .nil

/-- One integer is lost. -/
theorem not_roundTrips_int : ¬ RoundTrips {} (StdMap.assign ∅ "x" (.int 1)) := by
  rintro ⟨results, heap', hok, hsame⟩
  have hlength := hsame.length_eq
  have hvalues : (values (StdMap.assign ∅ "x" (.int 1))).length = 1 := by decide +kernel
  have hcall : (callForeign echo (StdMap.assign ∅ "x" (.int 1)) {}).outcome.value? = some [] := by
    decide +kernel
  rw [hok] at hcall
  rw [hvalues, Option.some.inj hcall] at hlength
  exact absurd hlength (by decide)

end FalconLib.Typing.FFI
