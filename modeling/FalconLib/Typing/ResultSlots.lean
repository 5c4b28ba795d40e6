import FalconLib.Typing.FFIHelpers

/-!
# Slots of the result buffer

A slot of the ABI is a tag beside a union. The engine decodes the slots one by one; which member
of the union it reads is up to the tag.
-/

namespace FalconLib.Typing.FFI

open FalconLib.Base (Binary64 Comp)
open FalconLib.Dsl

/-! ## The ABI -/

/-- An enumeration over `uint8_t`: a byte beyond the declared tags is possible. -/
inductive FalconTypeTag where
  | nil
  | int
  | float
  | bool
  | string
  | opaqueVal
  | error
  | undeclared (byte : { byte : UInt8 // 6 < byte })

/-- The union, with the member that was written last. -/
inductive SlotValue where
  | unset
  | int (intVal : Int64)
  | float (floatVal : Binary64)
  | bool (boolVal : Int32)
  | str (ptr : String) (len : Int32)
  | opaqueVal (typeName : Option String) (ptr : SharedPointer)
  | error (message : String) (isFatal : Int32)

structure ResultSlot where
  tag : FalconTypeTag
  value : SlotValue

/-- One turn of the loop of `unpack_results`. -/
def ResultSlot.unpack (slot : ResultSlot) : Marshal RuntimeValue :=
  match slot.tag, slot.value with
  | .nil, _ => pure .nil
  | .int, .int value => pure (.int value)
  | .float, .float value => pure (.float value)
  | .bool, .bool value => pure (.bool (value != 0))
  | .string, .str ptr len => readStr ptr len
  | .opaqueVal, .opaqueVal typeName ptr => unpackOpaque (typeName.getD "") ptr
  | .error, _ | .undeclared _, _ => pure .nil
  | _, _ => Comp.halt .undefinedBehaviour

def unpackAll : List ResultSlot → Marshal FunctionResult
  | [] => pure []
  | slot :: slots => do
    let value ← slot.unpack
    let values ← unpackAll slots
    pure (value :: values)

/-- `unpack_results`. -/
def unpackBuffer (slots : List ResultSlot) (count : Int32) : Marshal FunctionResult :=
  if count.toInt < 0 then Comp.throw (.other "vector::reserve")
  else if slots.length < count.toInt.toNat then Comp.halt .undefinedBehaviour
  else unpackAll (slots.take count.toInt.toNat)

/-- The slot of a value that a library packs. -/
def ResultSlot.ofTagged : Tagged → ResultSlot
  | .nil => ⟨.nil, .unset⟩
  | .int value => ⟨.int, .int value⟩
  | .float value => ⟨.float, .float value⟩
  | .bool value => ⟨.bool, .bool value⟩
  | .str ptr len => ⟨.string, .str ptr len⟩
  | .opaqueVal typeName ptr => ⟨.opaqueVal, .opaqueVal (some typeName) ptr⟩

theorem unpackAll_ofTagged (slots : List FalconResultSlot) :
    unpackAll (slots.map ResultSlot.ofTagged) = unpackSlots slots := by
  induction slots with
  | nil => rfl
  | cons slot slots ih =>
    have hslot : (ResultSlot.ofTagged slot).unpack = unpackValue slot := by
      cases slot <;> rfl
    change ((ResultSlot.ofTagged slot).unpack >>= fun value =>
      unpackAll (slots.map ResultSlot.ofTagged) >>= fun values => pure (value :: values)) = _
    rw [hslot, ih]
    rfl

/-- What libraries pack is decoded by the one loop as by the other. -/
theorem unpackBuffer_ofTagged (slots : List FalconResultSlot) (count : Int32) :
    unpackBuffer (slots.map ResultSlot.ofTagged) count = unpackResults slots count := by
  unfold unpackBuffer unpackResults
  rw [List.length_map, ← List.map_take, unpackAll_ofTagged]

/-! ## What a slot stands for -/

/-- The value that a filled slot stands for, in a heap with the instances made for it. -/
inductive Decoded (heap : Heap) : ResultSlot → RuntimeValue → Prop where
  | nil (value : SlotValue) : Decoded heap ⟨.nil, value⟩ .nil
  | int (value : Int64) : Decoded heap ⟨.int, .int value⟩ (.int value)
  | float (value : Binary64) : Decoded heap ⟨.float, .float value⟩ (.float value)
  | bool (value : Int32) : Decoded heap ⟨.bool, .bool value⟩ (.bool (value != 0))
  | string (ptr : String) (len : Int32) (h : 0 ≤ len.toInt) :
      Decoded heap ⟨.string, .str ptr len⟩
        (.string (String.ofList (takeBytes len.toInt.toNat ptr.toList)))
  | tuple (id : Nat) : Decoded heap ⟨.opaqueVal, .opaqueVal (some "TupleValue") (.tuple id)⟩ (.tuple id)
  | array (id : Nat) : Decoded heap ⟨.opaqueVal, .opaqueVal (some "ArrayValue") (.array id)⟩ (.array id)
  | struct (id : Nat) :
      Decoded heap ⟨.opaqueVal, .opaqueVal (some "StructInstance") (.struct id)⟩ (.struct id)
  | errorObject (value : ErrorObject) :
      Decoded heap ⟨.opaqueVal, .opaqueVal (some "ErrorObject") (.error value)⟩ (.error value)
  | native (typeName : Option String) (handle id : Nat) (hn : typeName.getD "" ∉ reservedNames)
      (ho : heap.structs[id]? =
        some { typeName := typeName.getD "", nativeHandle := some handle }) :
      Decoded heap ⟨.opaqueVal, .opaqueVal typeName (.void handle)⟩ (.struct id)
  | error (message : String) (isFatal : Int32) :
      Decoded heap ⟨.error, .error message isFatal⟩
        (.error { message := message, isFatal := isFatal != 0 })
  | undeclared (byte : { byte : UInt8 // 6 < byte }) (union : SlotValue) (value : RuntimeValue)
      (h : value ≠ .nil) : Decoded heap ⟨.undeclared byte, union⟩ value

/-- Decoding gives one value for each of the first `count` slots, in their order. -/
def DecodesAll (slots : List ResultSlot) (count : Int32) (heap : Heap) : Prop :=
  ∃ values heap', (unpackBuffer slots count heap).outcome = .ok values heap' ∧
    values.length = count.toInt ∧
      List.Forall₂ (Decoded heap') (slots.take count.toInt.toNat) values

/-- The library wrote the member of the union that the tag selects. -/
def ResultSlot.Filled (slot : ResultSlot) : Prop :=
  match slot.tag, slot.value with
  | .nil, _ | .undeclared _, _ => True
  | .int, .int _ | .float, .float _ | .bool, .bool _ | .error, .error _ _ => True
  | .string, .str _ len => 0 ≤ len.toInt
  | .opaqueVal, .opaqueVal typeName ptr =>
    match ptr with
    | .tuple _ => typeName = some "TupleValue"
    | .array _ => typeName = some "ArrayValue"
    | .struct _ => typeName = some "StructInstance"
    | .error _ => typeName = some "ErrorObject"
    | .void _ => typeName.getD "" ∉ reservedNames
  | _, _ => False

/-- The decoder has a branch for the tag. -/
def FalconTypeTag.Handled : FalconTypeTag → Prop
  | error | undeclared _ => False
  | _ => True

/-! ## The loop -/

/-- Instances stay where they are. -/
theorem Decoded.mono {heap heap' : Heap} (hsub : heap.structs <+: heap'.structs)
    {slot : ResultSlot} {value : RuntimeValue} (h : Decoded heap slot value) :
    Decoded heap' slot value := by
  cases h with
  | native typeName handle id hn ho =>
    refine .native typeName handle id hn ?_
    obtain ⟨rest, hrest⟩ := hsub
    rw [← hrest, List.getElem?_append_left (List.getElem?_eq_some_iff.mp ho).1, ho]
  | nil value => exact .nil value
  | int value => exact .int value
  | float value => exact .float value
  | bool value => exact .bool value
  | string ptr len h => exact .string ptr len h
  | tuple id => exact .tuple id
  | array id => exact .array id
  | struct id => exact .struct id
  | errorObject value => exact .errorObject value
  | error message isFatal => exact .error message isFatal
  | undeclared byte union value h => exact .undeclared byte union value h

theorem unpackOpaque_native {typeName : String} (hn : typeName ∉ reservedNames) (handle : Nat)
    (heap : Heap) :
    (unpackOpaque typeName (.void handle) heap).outcome =
      .ok (.struct heap.structs.length)
        (heap.allocStruct { typeName := typeName, nativeHandle := some handle }).2 := by
  simp only [reservedNames, List.mem_cons, List.not_mem_nil, or_false, not_or] at hn
  obtain ⟨htuple, harray, hstruct, herror⟩ := hn
  unfold unpackOpaque
  rw [if_neg htuple, if_neg harray, if_neg hstruct, if_neg herror]
  rfl

/-- A filled slot with a tag of the decoder. -/
theorem unpack_of_handled {slot : ResultSlot} (hfilled : slot.Filled)
    (hhandled : slot.tag.Handled) (heap : Heap) :
    ∃ value heap', (slot.unpack heap).outcome = .ok value heap' ∧
      heap.structs <+: heap'.structs ∧ Decoded heap' slot value := by
  obtain ⟨tag, union⟩ := slot
  have hsub := List.prefix_refl heap.structs
  cases tag with
  | nil => exact ⟨_, heap, rfl, hsub, .nil union⟩
  | int =>
    cases union with
    | int value => exact ⟨_, heap, rfl, hsub, .int value⟩
    | _ => exact hfilled.elim
  | float =>
    cases union with
    | float value => exact ⟨_, heap, rfl, hsub, .float value⟩
    | _ => exact hfilled.elim
  | bool =>
    cases union with
    | bool value => exact ⟨_, heap, rfl, hsub, .bool value⟩
    | _ => exact hfilled.elim
  | string =>
    cases union with
    | str ptr len =>
      have hlen : ¬len.toInt < 0 := Int.not_lt.mpr hfilled
      refine ⟨_, heap, ?_, hsub, .string ptr len hfilled⟩
      change (readStr ptr len heap).outcome = _
      unfold readStr
      rw [if_neg hlen]
      rfl
    | _ => exact hfilled.elim
  | opaqueVal =>
    cases union with
    | opaqueVal typeName ptr =>
      cases ptr with
      | tuple id =>
        cases (show typeName = some "TupleValue" from hfilled)
        exact ⟨_, heap, rfl, hsub, .tuple id⟩
      | array id =>
        cases (show typeName = some "ArrayValue" from hfilled)
        exact ⟨_, heap, rfl, hsub, .array id⟩
      | struct id =>
        cases (show typeName = some "StructInstance" from hfilled)
        exact ⟨_, heap, rfl, hsub, .struct id⟩
      | error value =>
        cases (show typeName = some "ErrorObject" from hfilled)
        exact ⟨_, heap, rfl, hsub, .errorObject value⟩
      | void handle =>
        refine ⟨_, _, unpackOpaque_native hfilled handle heap, List.prefix_append _ _, ?_⟩
        exact .native typeName handle _ hfilled (List.getElem?_concat_length ..)
    | _ => exact hfilled.elim
  | error => exact hhandled.elim
  | undeclared byte => exact hhandled.elim

theorem unpackAll_of_handled {slots : List ResultSlot}
    (h : ∀ slot ∈ slots, slot.Filled ∧ slot.tag.Handled) (heap : Heap) :
    ∃ values heap', (unpackAll slots heap).outcome = .ok values heap' ∧
      heap.structs <+: heap'.structs ∧ List.Forall₂ (Decoded heap') slots values := by
  induction slots generalizing heap with
  | nil => exact ⟨[], heap, rfl, List.prefix_refl _, .nil⟩
  | cons slot slots ih =>
    obtain ⟨hfilled, hhandled⟩ := h slot List.mem_cons_self
    obtain ⟨value, heap₁, hslot, hsub₁, hdecoded⟩ := unpack_of_handled hfilled hhandled heap
    obtain ⟨values, heap₂, hslots, hsub₂, hrest⟩ :=
      ih (fun s hs => h s (List.mem_cons_of_mem _ hs)) heap₁
    refine ⟨value :: values, heap₂, ?_, hsub₁.trans hsub₂, .cons (hdecoded.mono hsub₂) hrest⟩
    exact (Comp.bind_of_ok hslot).trans (Comp.bind_of_ok hslots)

theorem Decoded.filled {heap : Heap} {slot : ResultSlot} {value : RuntimeValue}
    (h : Decoded heap slot value) : slot.Filled := by
  cases h with
  | string ptr len h => exact h
  | native typeName handle id hn ho => exact hn
  | _ => trivial

/-- The branch for every other tag gives `nil`, which stands for no slot of such a tag. -/
theorem handled_of_unpack {slot : ResultSlot} {value : RuntimeValue} {heap heap' current : Heap}
    (h : (slot.unpack heap).outcome = .ok value heap') (hdecoded : Decoded current slot value) :
    slot.tag.Handled := by
  cases hdecoded with
  | error message isFatal => cases h
  | undeclared byte union value hn =>
    cases h
    exact absurd rfl hn
  | _ => trivial

theorem handled_of_unpackAll {slots : List ResultSlot} {values : FunctionResult}
    {heap heap' current : Heap} (h : (unpackAll slots heap).outcome = .ok values heap')
    (hdecoded : List.Forall₂ (Decoded current) slots values) :
    ∀ slot ∈ slots, slot.Filled ∧ slot.tag.Handled := by
  induction hdecoded generalizing heap with
  | nil => exact fun slot hs => absurd hs List.not_mem_nil
  | @cons slot value slots values hslot hslots ih =>
    obtain ⟨first, heap₁, hfirst, htail⟩ := Comp.bind_eq_ok h
    obtain ⟨rest, heap₂, hrest, hvalues⟩ := Comp.bind_eq_ok htail
    cases hvalues
    intro s hs
    rcases List.mem_cons.mp hs with rfl | hs
    · exact ⟨hslot.filled, handled_of_unpack hfirst hslot⟩
    · exact ih hrest s hs

/-! ## The buffer -/

theorem unpackBuffer_of_le {slots : List ResultSlot} {count : Int32} (hcount : 0 ≤ count.toInt)
    (hlen : count.toInt ≤ slots.length) :
    unpackBuffer slots count = unpackAll (slots.take count.toInt.toNat) := by
  unfold unpackBuffer
  rw [if_neg (by omega), if_neg (by omega)]

theorem le_of_unpackBuffer {slots : List ResultSlot} {count : Int32} {values : FunctionResult}
    {heap heap' : Heap} (h : (unpackBuffer slots count heap).outcome = .ok values heap') :
    0 ≤ count.toInt ∧ count.toInt ≤ slots.length := by
  unfold unpackBuffer at h
  by_cases hcount : count.toInt < 0
  · rw [if_pos hcount] at h
    cases h
  · rw [if_neg hcount] at h
    by_cases hlen : slots.length < count.toInt.toNat
    · rw [if_pos hlen] at h
      cases h
    · omega

/-- Decoding keeps every slot where the count is one of the buffer and no slot in use has the tag
of an error or a tag that is not declared. -/
theorem decodesAll_iff (slots : List ResultSlot) (count : Int32) (heap : Heap) :
    DecodesAll slots count heap ↔
      0 ≤ count.toInt ∧ count.toInt ≤ slots.length ∧
        ∀ slot ∈ slots.take count.toInt.toNat, slot.Filled ∧ slot.tag.Handled := by
  constructor
  · rintro ⟨values, heap', hrun, hlen, hdecoded⟩
    obtain ⟨hcount, hle⟩ := le_of_unpackBuffer hrun
    rw [unpackBuffer_of_le hcount hle] at hrun
    exact ⟨hcount, hle, handled_of_unpackAll hrun hdecoded⟩
  · rintro ⟨hcount, hle, hslots⟩
    obtain ⟨values, heap', hrun, hsub, hdecoded⟩ := unpackAll_of_handled hslots heap
    refine ⟨values, heap', ?_, ?_, hdecoded⟩
    · rw [unpackBuffer_of_le hcount hle]
      exact hrun
    · have hlen := hdecoded.length_eq
      rw [List.length_take] at hlen
      omega

/-- The message of an error in the second slot is lost. -/
theorem not_decodesAll_error :
    ¬∀ (slots : List ResultSlot) (count : Int32) (heap : Heap), count.toInt = slots.length →
      (∀ slot ∈ slots, slot.Filled) → DecodesAll slots count heap := by
  intro h
  have hfilled : ∀ slot ∈ [(⟨.int, .int 7⟩ : ResultSlot), ⟨.error, .error "compliance limit" 1⟩],
      slot.Filled := by
    intro slot hs
    simp only [List.mem_cons, List.not_mem_nil, or_false] at hs
    rcases hs with rfl | rfl <;> trivial
  obtain ⟨values, heap', hrun, _, hdecoded⟩ := h _ 2 {} (by decide) hfilled
  rw [unpackBuffer_of_le (by decide) (by decide)] at hrun
  exact (handled_of_unpackAll hrun hdecoded _ (.tail _ (.head _))).2

end FalconLib.Typing.FFI
