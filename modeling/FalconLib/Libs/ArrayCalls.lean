import FalconLib.Base.ListHeap
import FalconLib.Libs.Array

/-!
# Calls of the array functions

Each function, called through both conversions, does to the elements of its array what the
operation of its name does to a list. Unpacking the parameters leaves one instance behind
that nothing refers to.
-/

namespace FalconLib.Libs.Array

open FalconLib.Base (Comp StdMap)
open FalconLib.Base.ListHeap (Operation Reply)
open FalconLib.Dsl
open FalconLib.Typing.FFI

/-! ## Elements -/

/-- A value that an array may hold: of a simple type, or an instance that is not native. -/
def Element (heap : Heap) : RuntimeValue → Prop
  | .int _ | .float _ | .bool _ | .string _ => True
  | .struct id => ∃ object, heap.structs[id]? = some object ∧ object.nativeHandle = none
  | _ => False

/-- The length of a string fits into the `int32_t` it crosses the boundary with. -/
def Short : RuntimeValue → Prop
  | .string value => byteCount value.toList < 2 ^ 31
  | _ => True

theorem plain_of_element {heap : Heap} {value : RuntimeValue} (h : Element heap value)
    (hs : Short value) : Plain heap value := by
  cases value with
  | string value => exact hs
  | struct id =>
    obtain ⟨object, hobject, hnative⟩ := h
    change heap.structs[id]?.bind StructInstance.nativeHandle = none
    rw [hobject]
    exact hnative
  | int _ => trivial
  | float _ => trivial
  | bool _ => trivial
  | nil => exact h.elim
  | error _ => exact h.elim
  | tuple _ => exact h.elim
  | array _ => exact h.elim

theorem Element.mono {heap heap' : Heap} (hsub : heap.structs <+: heap'.structs)
    {value : RuntimeValue} (h : Element heap value) : Element heap' value := by
  cases value with
  | struct id =>
    obtain ⟨object, hobject, hnative⟩ := h
    obtain ⟨rest, hrest⟩ := hsub
    refine ⟨object, ?_, hnative⟩
    rw [← hrest, List.getElem?_append_left (List.getElem?_eq_some_iff.mp hobject).1, hobject]
  | _ => exact h

/-! ## The receiver and its parameters -/

/-- `id` is an array: an instance with the handle `handle`, behind which there are elements. -/
structure IsArray (heap : Heap) (id handle : Nat) (elements : List RuntimeValue) : Prop where
  instance_ : ∃ object, heap.structs[id]? = some object ∧ object.typeName = "Array" ∧
    object.nativeHandle = some handle
  elements : ∃ array, heap.arrays[handle]? = some array ∧ array.elements = elements

def paramsOf (id : Nat) (index : Option Int64) (value : Option RuntimeValue) : ParameterMap :=
  let params := StdMap.assign ∅ "this" (.struct id)
  let params := match index with
    | some index => params.assign "index" (.int index)
    | none => params
  match value with
  | some value => params.assign "value" value
  | none => params

/-- The entries in the order of their keys. -/
def entriesOf (heap : Heap) (handle : Nat) (index : Option Int64) (value : Option RuntimeValue) :
    List FalconParamEntry :=
  index.toList.map (fun index => ⟨"index", .int index⟩) ++
    ⟨"this", .opaqueVal "Array" (.void handle)⟩ ::
      value.toList.map (fun value => ⟨"value", packValue heap value⟩)

theorem toList_paramsOf (id : Nat) (index : Option Int64) (value : Option RuntimeValue) :
    (paramsOf id index value).toList =
      index.toList.map (fun index => ("index", .int index)) ++
        ("this", .struct id) :: value.toList.map (fun value => ("value", value)) := by
  cases index <;> cases value <;> rfl

theorem packParams_paramsOf {heap : Heap} {id handle : Nat} {elements : List RuntimeValue}
    (h : IsArray heap id handle elements) (index : Option Int64) (value : Option RuntimeValue) :
    packParams heap (paramsOf id index value) = entriesOf heap handle index value := by
  obtain ⟨object, hobject, hname, hhandle⟩ := h.instance_
  have hindex : cStr "index" = "index" := cStr_of_not_mem (by decide)
  have hthis : cStr "this" = "this" := cStr_of_not_mem (by decide)
  have hvalue : cStr "value" = "value" := cStr_of_not_mem (by decide)
  have hpack : packValue heap (.struct id) = .opaqueVal "Array" (.void handle) := by
    unfold packValue
    dsimp only
    rw [hobject]
    dsimp only
    rw [hhandle, hname, cStr_of_not_mem (by decide)]
  unfold packParams entriesOf
  rw [toList_paramsOf, List.map_append, List.map_map, List.map_cons, List.map_map, hthis, hpack]
  simp only [Function.comp_def, hindex, hvalue]
  rfl

/-- The heap once the parameters are unpacked. -/
def received (heap : Heap) (handle : Nat) : Heap :=
  (heap.allocStruct { typeName := "Array", nativeHandle := some handle }).2

/-- What the function finds in its parameters. -/
def receivedParams (fresh : Nat) (index : Option Int64) (value : Option RuntimeValue) :
    ParameterMap :=
  let params := match index with
    | some index => StdMap.assign ∅ "index" (RuntimeValue.int index)
    | none => ∅
  let params := params.assign "this" (.struct fresh)
  match value with
  | some value => params.assign "value" value
  | none => params

theorem receivedParams_index (fresh : Nat) (index : Option Int64) (value : Option RuntimeValue) :
    (receivedParams fresh index value)["index"]? = index.map RuntimeValue.int := by
  cases index <;> cases value <;>
    simp [receivedParams, StdMap.getElem?_assign]

theorem receivedParams_value (fresh : Nat) (index : Option Int64) (value : Option RuntimeValue) :
    (receivedParams fresh index value)["value"]? = value := by
  cases index <;> cases value <;>
    simp [receivedParams, StdMap.getElem?_assign]

theorem unpackParams_entriesOf {heap : Heap} (handle : Nat) (index : Option Int64)
    {value : Option RuntimeValue} (hv : ∀ v ∈ value, Plain heap v) :
    (unpackParams (entriesOf heap handle index value) ∅ heap).outcome =
      .ok (receivedParams heap.structs.length index value) (received heap handle) := by
  cases value with
  | none => cases index <;> rfl
  | some value =>
    have hlast : ∀ params, unpackParams [⟨"value", packValue heap value⟩] params =
        pure (params.assign "value" value) := by
      intro params
      unfold unpackParams
      rw [unpackValue_packValue (hv value rfl)]
      rfl
    cases index with
    | none =>
      change ((unpackValue _ >>= fun this => unpackParams [⟨"value", packValue heap value⟩]
        (StdMap.assign ∅ "this" this)) heap).outcome = _
      simp only [hlast]
      rfl
    | some index =>
      change ((unpackValue _ >>= fun this => unpackParams [⟨"value", packValue heap value⟩]
        ((StdMap.assign ∅ "index" (.int index)).assign "this" this)) heap).outcome = _
      simp only [hlast]
      rfl

theorem getArray_entriesOf {heap heap' : Heap} {handle : Nat} {array : ArrayValue}
    (h : heap'.arrays[handle]? = some array) (index : Option Int64)
    (value : Option RuntimeValue) :
    (getArray (entriesOf heap handle index value) heap').outcome =
      .ok (handle, array.elements) heap' := by
  have hget : (getOpaque (entriesOf heap handle index value) "this" heap').outcome =
      .ok handle heap' := by
    cases index <;> rfl
  unfold getArray
  rw [Comp.bind_of_ok hget, Comp.outcome_gets_bind]
  dsimp only [id]
  rw [h]
  rfl

/-! ## The driver around a function -/

def slots : List FalconResultSlot := List.replicate maxOutputs .nil

section Driver

variable {function : FalconFFIFunc} {params : ParameterMap} {heap heap' : Heap}

theorem callForeign_of_throw {e : Exception}
    (h : (function (packParams heap params) slots 0 heap).outcome = .throw e heap') :
    (callForeign function params heap).outcome = .throw e heap' := by
  unfold callForeign
  rw [Comp.outcome_gets_bind]
  exact Comp.bind_of_throw h

theorem callForeign_nilResult
    (h : (function (packParams heap params) slots 0 heap).outcome = (nilResult slots heap').outcome) :
    (callForeign function params heap).outcome = .ok [.nil] heap' := by
  unfold callForeign
  rw [Comp.outcome_gets_bind]
  refine (Comp.bind_of_ok h).trans ?_
  rfl

theorem callForeign_packOne {value : RuntimeValue} (hv : Plain heap' value)
    (h : (function (packParams heap params) slots 0 heap).outcome = (packOne value slots heap').outcome) :
    (callForeign function params heap).outcome = .ok [value] heap' := by
  have hpack : (packOne value slots heap').outcome =
      .ok (packValue heap' value :: List.replicate 15 .nil, 1) heap' := rfl
  unfold callForeign
  rw [Comp.outcome_gets_bind]
  refine (Comp.bind_of_ok (h.trans hpack)).trans ?_
  have hone : unpackResults (packValue heap' value :: List.replicate 15 .nil) 1 =
      unpackSlots [packValue heap' value] := rfl
  dsimp only
  rw [hone]
  unfold unpackSlots
  rw [unpackValue_packValue hv]
  rfl

end Driver

/-! ## The functions as operations on lists -/

namespace Method

def operation : Method → Operation RuntimeValue
  | pushBack value => .pushBack value
  | popBack => .popBack
  | getIndex index => .getIndex index.toInt
  | setIndex index value => .setIndex index.toInt value
  | insert index value => .insert index.toInt value
  | erase index => .erase index.toInt
  | clear => .clear
  | size => .size
  | isEmpty => .isEmpty

def index : Method → Option Int64
  | getIndex index | setIndex index _ | insert index _ | erase index => some index
  | _ => none

def value : Method → Option RuntimeValue
  | pushBack value | setIndex _ value | insert _ value => some value
  | _ => none

end Method

/-- The value of the language that an answer is. -/
def replyValue : Reply RuntimeValue → RuntimeValue
  | .done => .nil
  | .value value => value
  | .count n => .int (Int64.ofNat n)
  | .flag b => .bool b

def wrote (heap : Heap) (handle : Nat) (elements : List RuntimeValue) : Heap :=
  { heap with arrays := heap.arrays.modify handle fun array => { array with elements := elements } }

/-- The heap after a call that leaves `elements` behind the handle. -/
structure Leaves (heap heap' : Heap) (handle : Nat) (elements : List RuntimeValue) : Prop where
  structs : heap.structs <+: heap'.structs
  arrays : heap'.arrays = (wrote heap handle elements).arrays

theorem modify_elements {arrays : List ArrayValue} {handle : Nat} {array : ArrayValue}
    (h : arrays[handle]? = some array) :
    (arrays.modify handle fun a => { a with elements := array.elements }) = arrays := by
  apply List.ext_getElem?
  intro i
  by_cases hi : handle = i
  · subst hi
    rw [List.getElem?_modify_eq, h]
    rfl
  · rw [List.getElem?_modify_ne _ _ hi]

theorem Leaves.refl {heap : Heap} {id handle : Nat} {elements : List RuntimeValue}
    (h : IsArray heap id handle elements) : Leaves heap heap handle elements := by
  obtain ⟨array, harray, rfl⟩ := h.elements
  exact ⟨List.prefix_refl _, (modify_elements harray).symm⟩

theorem Leaves.received {heap : Heap} {id handle : Nat} {elements : List RuntimeValue}
    (h : IsArray heap id handle elements) : Leaves heap (received heap handle) handle elements := by
  obtain ⟨array, harray, rfl⟩ := h.elements
  exact ⟨List.prefix_append _ _, (modify_elements harray).symm⟩

/-- What a method does to the heap and answers, through both conversions. -/
def Performs (method : Method) (heap : Heap) (id handle : Nat) (elements : List RuntimeValue) :
    Prop :=
  match method.operation.run elements with
  | some (reply, left) => ∃ heap',
    (callForeign method.function (paramsOf id method.index method.value) heap).outcome =
      .ok [replyValue reply] heap' ∧ Leaves heap heap' handle left
  | none => ∃ e heap',
    (callForeign method.function (paramsOf id method.index method.value) heap).outcome =
      .throw e heap' ∧ Leaves heap heap' handle elements

theorem plain_none (heap : Heap) : ∀ v ∈ (none : Option RuntimeValue), Plain heap v :=
  fun v hv => absurd hv (Option.not_mem_none v)

theorem plain_some {heap : Heap} {value : RuntimeValue} (h : Plain heap value) :
    ∀ v ∈ some value, Plain heap v := fun _ hv => Option.some.inj hv ▸ h

section Functions

variable {heap : Heap} {id handle : Nat} {elements : List RuntimeValue}

theorem getArray_bind {α : Type} (h : IsArray heap id handle elements) {heap' : Heap}
    (harrays : heap'.arrays = heap.arrays) (index : Option Int64) (value : Option RuntimeValue)
    (f : Nat × List RuntimeValue → Marshal α) :
    ((getArray (entriesOf heap handle index value) >>= f) heap').outcome =
      (f (handle, elements) heap').outcome := by
  obtain ⟨array, harray, rfl⟩ := h.elements
  exact Comp.bind_of_ok (getArray_entriesOf (harrays ▸ harray) index value)

theorem unpack_bind {α : Type} (h : IsArray heap id handle elements) (index : Option Int64)
    {value : Option RuntimeValue} (hv : ∀ v ∈ value, Plain heap v)
    (f : ParameterMap → Nat × List RuntimeValue → Marshal α) :
    ((unpackParams (entriesOf heap handle index value) ∅ >>= fun params =>
        getArray (entriesOf heap handle index value) >>= f params) heap).outcome =
      (f (receivedParams heap.structs.length index value) (handle, elements)
        (received heap handle)).outcome := by
  refine (Comp.bind_of_ok (unpackParams_entriesOf handle index hv)).trans ?_
  have harrays : (received heap handle).arrays = heap.arrays := rfl
  exact getArray_bind h harrays index value _

theorem indexAt_received (fresh : Nat) (index : Int64) (value : Option RuntimeValue) :
    indexAt (receivedParams fresh (some index) value) = pure index := by
  unfold indexAt paramAt
  rw [receivedParams_index]
  rfl

theorem paramAt_received (fresh : Nat) (index : Option Int64) (value : RuntimeValue) :
    paramAt (receivedParams fresh index (some value)) "value" = pure value := by
  unfold paramAt
  rw [receivedParams_value]

theorem performs_size (h : IsArray heap id handle elements) :
    Performs .size heap id handle elements := by
  refine ⟨heap, callForeign_packOne trivial ?_, Leaves.refl h⟩
  rw [packParams_paramsOf h]
  exact getArray_bind h rfl none none _

theorem performs_isEmpty (h : IsArray heap id handle elements) :
    Performs .isEmpty heap id handle elements := by
  refine ⟨heap, callForeign_packOne trivial ?_, Leaves.refl h⟩
  rw [packParams_paramsOf h]
  exact getArray_bind h rfl none none _

theorem performs_clear (h : IsArray heap id handle elements) :
    Performs .clear heap id handle elements := by
  refine ⟨wrote heap handle [], callForeign_nilResult ?_, ⟨List.prefix_refl _, rfl⟩⟩
  rw [packParams_paramsOf h]
  exact getArray_bind h rfl none none _

theorem performs_pushBack (h : IsArray heap id handle elements) {value : RuntimeValue}
    (hv : Plain heap value) : Performs (.pushBack value) heap id handle elements := by
  refine ⟨wrote (received heap handle) handle (elements ++ [value]), callForeign_nilResult ?_,
    ⟨List.prefix_append _ _, rfl⟩⟩
  rw [packParams_paramsOf h]
  refine (unpack_bind h none (plain_some hv) _).trans ?_
  dsimp only [Method.value]
  rw [paramAt_received]
  rfl

theorem performs_popBack (h : IsArray heap id handle elements)
    (hel : ∀ v ∈ elements, Plain heap v) : Performs .popBack heap id handle elements := by
  unfold Performs Method.operation Operation.run
  cases hlast : elements.getLast? with
  | none =>
    refine ⟨emptyArray, heap, callForeign_of_throw ?_, Leaves.refl h⟩
    rw [packParams_paramsOf h]
    refine (getArray_bind h rfl none none _).trans ?_
    dsimp only
    rw [hlast]
    rfl
  | some last =>
    refine ⟨wrote heap handle elements.dropLast, callForeign_packOne ?_ ?_,
      ⟨List.prefix_refl _, rfl⟩⟩
    · exact hel last (List.mem_of_getLast? hlast)
    · rw [packParams_paramsOf h]
      refine (getArray_bind h rfl none none _).trans ?_
      dsimp only
      rw [hlast]
      rfl

theorem performs_getIndex (h : IsArray heap id handle elements)
    (hel : ∀ v ∈ elements, Plain (received heap handle) v) (index : Int64) :
    Performs (.getIndex index) heap id handle elements := by
  have hcall : (getIndex (packParams heap (paramsOf id (some index) none)) slots 0 heap).outcome =
      ((if index.toInt < 0 then Comp.throw (outOfBounds "GetIndex" index elements.length)
      else
        match elements[index.toInt.toNat]? with
        | some value => packOne value slots
        | none => Comp.throw (outOfBounds "GetIndex" index elements.length) : Marshal _)
        (received heap handle)).outcome := by
    rw [packParams_paramsOf h]
    refine (unpack_bind h (some index) (plain_none heap) _).trans ?_
    dsimp only
    rw [indexAt_received]
    exact Comp.outcome_pure_bind _ _ _
  unfold Performs Method.operation Operation.run
  dsimp only
  by_cases hi : 0 ≤ index.toInt
  · rw [if_neg (by omega)] at hcall
    rw [if_pos hi]
    cases hget : elements[index.toInt.toNat]? with
    | some value =>
      rw [hget] at hcall
      exact ⟨received heap handle, callForeign_packOne (hel value (List.mem_of_getElem? hget)) hcall,
        Leaves.received h⟩
    | none =>
      rw [hget] at hcall
      exact ⟨_, received heap handle, callForeign_of_throw hcall, Leaves.received h⟩
  · rw [if_pos (by omega)] at hcall
    rw [if_neg hi]
    exact ⟨_, received heap handle, callForeign_of_throw hcall, Leaves.received h⟩

/-- A change is made at a position that exists; at any other it is an error. -/
theorem performs_changeAt (h : IsArray heap id handle elements) {method : Method} {name : String}
    {past : Nat} {change : ParameterMap → Nat → List RuntimeValue → Marshal (List RuntimeValue)}
    {index : Int64} {left : List RuntimeValue} (hfunction : method.function = changeAt name past change)
    (hindex : method.index = some index) (hv : ∀ v ∈ method.value, Plain heap v)
    (hchange : change (receivedParams heap.structs.length (some index) method.value)
      index.toInt.toNat elements = pure left)
    (hrun : method.operation.run elements =
      if 0 ≤ index.toInt ∧ index.toInt < ((elements.length + past : Nat) : Int) then some (.done, left)
      else none) :
    Performs method heap id handle elements := by
  unfold Performs
  rw [hrun, hfunction, hindex]
  by_cases hi : 0 ≤ index.toInt ∧ index.toInt < ((elements.length + past : Nat) : Int)
  · rw [if_pos hi]
    refine ⟨wrote (received heap handle) handle left, callForeign_nilResult ?_,
      ⟨List.prefix_append _ _, rfl⟩⟩
    rw [packParams_paramsOf h]
    refine (unpack_bind h (some index) hv _).trans ?_
    dsimp only
    rw [indexAt_received, Comp.outcome_pure_bind, if_neg (by omega), hchange]
    rfl
  · rw [if_neg hi]
    refine ⟨outOfBounds name index elements.length, received heap handle, callForeign_of_throw ?_,
      Leaves.received h⟩
    rw [packParams_paramsOf h]
    refine (unpack_bind h (some index) hv _).trans ?_
    dsimp only
    rw [indexAt_received, Comp.outcome_pure_bind, if_pos (by omega)]
    rfl

theorem performs_setIndex (h : IsArray heap id handle elements) (index : Int64)
    {value : RuntimeValue} (hv : Plain heap value) :
    Performs (.setIndex index value) heap id handle elements := by
  have hfunction : (Method.setIndex index value).function = changeAt "SetIndex" 0 setValue := rfl
  have hchange : setValue (receivedParams heap.structs.length (some index) (some value))
      index.toInt.toNat elements = pure (elements.set index.toInt.toNat value) := by
    unfold setValue
    rw [paramAt_received]
    rfl
  exact performs_changeAt h hfunction rfl (plain_some hv) hchange rfl

theorem performs_insert (h : IsArray heap id handle elements) (index : Int64)
    {value : RuntimeValue} (hv : Plain heap value) :
    Performs (.insert index value) heap id handle elements := by
  have hfunction : (Method.insert index value).function = changeAt "Insert" 1 insertValue := rfl
  have hchange : insertValue (receivedParams heap.structs.length (some index) (some value))
      index.toInt.toNat elements = pure (elements.insertIdx index.toInt.toNat value) := by
    unfold insertValue
    rw [paramAt_received]
    rfl
  apply performs_changeAt h hfunction rfl (plain_some hv) hchange
  unfold Method.operation Operation.run
  dsimp only
  simp only [Nat.cast_add, Nat.cast_one, Int.lt_add_one_iff]

theorem performs_erase (h : IsArray heap id handle elements) (index : Int64) :
    Performs (.erase index) heap id handle elements := by
  have hfunction : (Method.erase index).function = changeAt "Erase" 0 eraseValue := rfl
  exact performs_changeAt h hfunction rfl (plain_none heap) rfl rfl

/-- Every method of an array does to its elements what its operation does to a list, if the
values that cross the boundary do so as they are. -/
theorem performs_of_plain (h : IsArray heap id handle elements) (method : Method)
    (hv : ∀ v ∈ method.operation.operands, Plain heap v)
    (hel : ∀ heap' : Heap, heap.structs <+: heap'.structs → ∀ v ∈ elements, Plain heap' v) :
    Performs method heap id handle elements := by
  cases method with
  | pushBack value => exact performs_pushBack h (hv value List.mem_cons_self)
  | popBack => exact performs_popBack h (hel heap (List.prefix_refl _))
  | getIndex index => exact performs_getIndex h (hel _ (List.prefix_append _ _)) index
  | setIndex index value => exact performs_setIndex h index (hv value List.mem_cons_self)
  | insert index value => exact performs_insert h index (hv value List.mem_cons_self)
  | erase index => exact performs_erase h index
  | clear => exact performs_clear h
  | size => exact performs_size h
  | isEmpty => exact performs_isEmpty h

theorem performs (h : IsArray heap id handle elements) (method : Method)
    (hv : ∀ v ∈ method.operation.operands, Element heap v ∧ Short v)
    (hel : ∀ v ∈ elements, Element heap v ∧ Short v) : Performs method heap id handle elements := by
  apply performs_of_plain h method
  · exact fun v hmem => plain_of_element (hv v hmem).1 (hv v hmem).2
  · exact fun heap' hsub v hmem => plain_of_element ((hel v hmem).1.mono hsub) (hel v hmem).2

end Functions

end FalconLib.Libs.Array
