import FalconLib.Libs.ArraySearch
import Mathlib.Order.Bounds.Basic

/-!
# Laws of the searches

What `Contains` and `IndexOf` say about each other, about `==` and about `PushBack`. The value that
is looked for arrives in the library as a value of its own.
-/

namespace FalconLib.Libs.Array

open FalconLib.Base (Binary64 Comp StdMap)
open FalconLib.Dsl
open FalconLib.Typing.FFI

/-! ## Values without null pointers -/

def Live (heap : Heap) : RuntimeValue → Prop
  | .tuple i => i < heap.tuples.length
  | .struct i => i < heap.structs.length
  | .array i => i < heap.arrays.length
  | _ => True

/-- No field holds a null pointer. -/
def Linked (heap : Heap) : Prop :=
  ∀ object ∈ heap.structs, ∀ entry ∈ object.fields.toList, Live heap entry.2

/-- A heap with more objects. -/
structure Grows (heap heap' : Heap) : Prop where
  structs : heap.structs <+: heap'.structs
  tuples : heap'.tuples = heap.tuples
  arrays : heap.arrays.length = heap'.arrays.length

theorem samePointer_of_lt {bound i : Nat} (h : i < bound) (j : Nat) :
    samePointer bound i j = (i == j) := by
  unfold samePointer
  rw [decide_eq_false (by omega), Bool.false_and, Bool.or_false]

theorem samePointer_self (bound i : Nat) : samePointer bound i i = true := by
  unfold samePointer
  rw [beq_self_eq_true, Bool.true_or]

theorem valuesEqual_self {heap : Heap} {value : RuntimeValue} (h : ∀ x, value ≠ .float x) :
    valuesEqual heap value value = true := by
  cases value with
  | int a => exact beq_self_eq_true a
  | float x => exact absurd rfl (h x)
  | bool a => exact beq_self_eq_true a
  | string a => exact beq_self_eq_true a
  | nil => rfl
  | error a => exact beq_self_eq_true a
  | tuple i | struct i | array i => exact samePointer_self _ i

theorem elementMatches_of_ne_struct {heap : Heap} {needle : RuntimeValue}
    (h : ∀ j, needle ≠ .struct j) (element : RuntimeValue) :
    elementMatches heap element needle = valuesEqual heap element needle := by
  cases needle with
  | struct j => exact absurd rfl (h j)
  | _ => cases element <;> rfl

section Grows

variable {heap heap' : Heap} (hgrows : Grows heap heap')
include hgrows

theorem Grows.live {value : RuntimeValue} (h : Live heap value) : Live heap' value := by
  cases value with
  | struct i => exact Nat.lt_of_lt_of_le h hgrows.structs.length_le
  | tuple i =>
    change i < heap'.tuples.length
    rw [hgrows.tuples]
    exact h
  | array i =>
    change i < heap'.arrays.length
    rw [← hgrows.arrays]
    exact h
  | _ => trivial

theorem Grows.valuesEqual {a : RuntimeValue} (ha : Live heap a) (b : RuntimeValue) :
    Dsl.valuesEqual heap' a b = Dsl.valuesEqual heap a b := by
  have hlive := hgrows.live ha
  cases a with
  | tuple i =>
    cases b with
    | tuple j => exact (samePointer_of_lt hlive j).trans (samePointer_of_lt ha j).symm
    | _ => rfl
  | struct i =>
    cases b with
    | struct j => exact (samePointer_of_lt hlive j).trans (samePointer_of_lt ha j).symm
    | _ => rfl
  | array i =>
    cases b with
    | array j => exact (samePointer_of_lt hlive j).trans (samePointer_of_lt ha j).symm
    | _ => rfl
  | _ => cases b <;> rfl

theorem Grows.entriesEqual {lhs : List (String × RuntimeValue)}
    (hl : ∀ entry ∈ lhs, Live heap entry.2) (rhs : List (String × RuntimeValue)) :
    Array.entriesEqual heap' lhs rhs = Array.entriesEqual heap lhs rhs := by
  induction lhs generalizing rhs with
  | nil => cases rhs <;> rfl
  | cons entry lhs ih =>
    obtain ⟨hfirst, hrest⟩ := List.forall_mem_cons.mp hl
    cases rhs with
    | nil => rfl
    | cons other rhs =>
      unfold Array.entriesEqual
      rw [hgrows.valuesEqual hfirst, ih hrest]

theorem Grows.elementMatches (hlinked : Linked heap) {element needle : RuntimeValue}
    (he : Live heap element) (hn : Live heap needle) :
    Array.elementMatches heap' element needle = Array.elementMatches heap element needle := by
  cases element with
  | struct i =>
    cases needle with
    | struct j =>
      have hi := List.getElem?_eq_getElem (show i < heap.structs.length from he)
      have hj := List.getElem?_eq_getElem (show j < heap.structs.length from hn)
      have hi' := getElem?_of_isPrefix hgrows.structs hi
      have hj' := getElem?_of_isPrefix hgrows.structs hj
      unfold Array.elementMatches
      simp only [hi, hj, hi', hj']
      unfold instancesEqual
      rw [hgrows.entriesEqual (hlinked _ (List.getElem_mem _))]
    | _ => rfl
  | _ => exact hgrows.valuesEqual he _

end Grows

theorem Grows.received (heap : Heap) (handle : Nat) : Grows heap (received heap handle) :=
  ⟨List.prefix_append _ _, rfl, rfl⟩

theorem Grows.trans {heap heap' heap'' : Heap} (h : Grows heap heap') (h' : Grows heap' heap'') :
    Grows heap heap'' :=
  ⟨h.structs.trans h'.structs, h'.tuples.trans h.tuples, h.arrays.trans h'.arrays⟩

theorem Grows.wrote (heap : Heap) (handle : Nat) (elements : List RuntimeValue) :
    Grows heap (wrote heap handle elements) :=
  ⟨List.prefix_refl _, rfl, (List.length_modify ..).symm⟩

/-! ## The laws -/

/-- The value of the interpreter that an element is equal to, in the sense of `==`. -/
def SameAs (heap : Heap) (value element : RuntimeValue) : Prop :=
  applyBinaryOp heap "==" element value = .value (.bool true)

theorem sameAs_iff {heap : Heap} {value element : RuntimeValue} :
    SameAs heap value element ↔ valuesEqual heap element value = true := by
  change OpResult.value (.bool (valuesEqual heap element value)) = .value (.bool true) ↔ _
  cases valuesEqual heap element value with
  | true => exact iff_of_true rfl rfl
  | false => exact iff_of_false nofun nofun

/-- The object of a library that a value stands for. -/
def nativeOf (heap : Heap) : RuntimeValue → Option Nat
  | .struct i => heap.structs[i]?.bind StructInstance.nativeHandle
  | _ => none

/-- What the host gets of a call with one value. -/
def answerOf (function : FalconFFIFunc) (id : Nat) (value : RuntimeValue) (heap : Heap) :
    Option FunctionResult := (callForeign function (paramsOf id none (some value)) heap).outcome.value?

/-- The laws for the array at `id` and one value; `contents` tells native objects apart. -/
structure SearchLaws {β : Type} (contents : Nat → β) (heap : Heap) (id : Nat)
    (elements : List RuntimeValue) (value : RuntimeValue) : Prop where
  search : ∃ (found : Bool) (index : Int64), answerOf contains id value heap = some [.bool found] ∧
    answerOf indexOf id value heap = some [.int index] ∧ (found = true ↔ index ≠ -1) ∧
    (index ≠ -1 → 0 ≤ index.toInt ∧
      IsLeast {i | ∃ element, elements[i]? = some element ∧ SameAs heap value element}
        index.toInt.toNat ∧
      ∀ element object other, elements[index.toInt.toNat]? = some element →
        nativeOf heap value = some object → nativeOf heap element = some other →
          contents object = contents other)
  pushed : ∃ heap', (callForeign pushBack (paramsOf id none (some value)) heap).outcome =
    .ok [.nil] heap' ∧ answerOf contains id value heap' = some [.bool true]

/-- How a string arrives: its length is an `int32_t`. -/
def arrivedString (s : String) : Option String :=
  let len := Int32.ofNat (byteCount s.toList)
  if len.toInt < 0 then none else some (String.ofList (takeBytes len.toInt.toNat s.toList))

/-- The values for which the laws hold. -/
def Searched (heap : Heap) (elements : List RuntimeValue) : RuntimeValue → Prop
  | .float x => x.isNaN = false
  | .string s => ∃ s', arrivedString s = some s' ∧ (s' = s ∨ .string s' ∉ elements)
  | .struct id =>
    nativeOf heap (.struct id) = none ∧
    (.struct id ∈ elements → elementMatches heap (.struct id) (.struct id) = true) ∧
    ∀ (i : Nat) (j : Nat), elements[i]? = some (.struct j) →
      elementMatches heap (.struct j) (.struct id) = true →
        ∃ k ≤ i, elements[k]? = some (.struct id)
  | _ => True

/-! ## Calls with the value -/

section Arrival

variable {heap heap' : Heap} {id handle : Nat} {elements : List RuntimeValue}
  {value arrived : RuntimeValue}

theorem unpackParams_value (heap : Heap) (handle : Nat) (value : RuntimeValue) :
    (unpackParams (entriesOf heap handle none (some value)) ∅ heap).outcome =
      ((unpackValue (packValue heap value) >>= fun arrived =>
        pure (receivedParams heap.structs.length none (some arrived)))
          (received heap handle)).outcome := rfl

section Arrived

variable (h : IsArray heap id handle elements)
  (ha : (unpackValue (packValue heap value) (received heap handle)).outcome = .ok arrived heap')
  (harrays : heap'.arrays = heap.arrays)
include h ha harrays

theorem unpack_arrived {α : Type} (f : ParameterMap → Nat × List RuntimeValue → Marshal α) :
    ((unpackParams (entriesOf heap handle none (some value)) ∅ >>= fun params =>
        getArray (entriesOf heap handle none (some value)) >>= f params) heap).outcome =
      (f (receivedParams heap.structs.length none (some arrived)) (handle, elements)
        heap').outcome := by
  have hparams : (unpackParams (entriesOf heap handle none (some value)) ∅ heap).outcome =
      .ok (receivedParams heap.structs.length none (some arrived)) heap' :=
    (unpackParams_value heap handle value).trans (Comp.bind_of_ok ha)
  refine (Comp.bind_of_ok hparams).trans ?_
  exact getArray_bind h harrays none (some value) _

theorem searching_arrived {answer : Heap → List RuntimeValue → RuntimeValue → RuntimeValue}
    (hp : Plain heap' (answer heap' elements arrived)) :
    answerOf (searching answer) id value heap = some [answer heap' elements arrived] := by
  have hcall : (callForeign (searching answer) (paramsOf id none (some value)) heap).outcome =
      .ok [answer heap' elements arrived] heap' := by
    apply callForeign_packOne hp
    rw [packParams_paramsOf h]
    refine (unpack_arrived h ha harrays _).trans ?_
    dsimp only
    rw [paramAt_received]
    rfl
  unfold answerOf
  rw [hcall]
  rfl

theorem pushBack_arrived :
    (callForeign pushBack (paramsOf id none (some value)) heap).outcome =
      .ok [.nil] (wrote heap' handle (elements ++ [arrived])) := by
  apply callForeign_nilResult
  rw [packParams_paramsOf h]
  refine (unpack_arrived h ha harrays _).trans ?_
  dsimp only
  rw [paramAt_received]
  rfl

end Arrived

/-- A call that returns got its value. -/
theorem exists_arrived (h : IsArray heap id handle elements) {values : FunctionResult} {last : Heap}
    (hc : (callForeign pushBack (paramsOf id none (some value)) heap).outcome = .ok values last) :
    ∃ arrived heap', (unpackValue (packValue heap value) (received heap handle)).outcome =
      .ok arrived heap' := by
  unfold callForeign at hc
  rw [Comp.outcome_gets_bind] at hc
  obtain ⟨result, t, hcall, _⟩ := Comp.bind_eq_ok hc
  change (pushBack (packParams heap (paramsOf id none (some value))) slots 0 heap).outcome =
    .ok result t at hcall
  rw [packParams_paramsOf h] at hcall
  obtain ⟨_, _, hunpack, _⟩ := Comp.bind_eq_ok hcall
  rw [unpackParams_value] at hunpack
  obtain ⟨arrived, heap', ha, _⟩ := Comp.bind_eq_ok hunpack
  exact ⟨arrived, heap', ha⟩

/-- The array after the push. -/
theorem isArray_wrote (h : IsArray heap id handle elements) (hgrows : heap.structs <+: heap'.structs)
    (harrays : heap'.arrays = heap.arrays) (left : List RuntimeValue) :
    IsArray (wrote heap' handle left) id handle left := by
  obtain ⟨object, hobject, hname⟩ := h.instance_
  obtain ⟨array, harray, _⟩ := h.elements
  refine ⟨⟨object, getElem?_of_isPrefix hgrows hobject, hname⟩, { array with elements := left }, ?_, rfl⟩
  change (heap'.arrays.modify handle _)[handle]? = _
  rw [List.getElem?_modify_eq, harrays, harray]
  rfl

/-! ## Native values -/

theorem packValue_native {i object : Nat} {inst : StructInstance}
    (hinst : heap.structs[i]? = some inst) (hhandle : inst.nativeHandle = some object) :
    packValue heap (.struct i) = .opaqueVal (cStr inst.typeName) (.void object) := by
  unfold packValue
  dsimp only
  rw [hinst]
  dsimp only
  rw [hhandle]

/-- A handle under the name of a kind of pointer is taken for such a pointer. -/
theorem unpackValue_reserved {typeName : String} (hn : typeName ∈ reservedNames) (object : Nat)
    (current : Heap) : (unpackValue (.opaqueVal typeName (.void object)) current).outcome =
      .halt .undefinedBehaviour := by
  simp only [reservedNames, List.mem_cons, List.not_mem_nil, or_false] at hn
  rcases hn with rfl | rfl | rfl | rfl <;> rfl

/-- The heap after a native value has arrived. -/
def arrivedHeap (heap : Heap) (handle : Nat) (typeName : String) (object : Nat) : Heap :=
  ((received heap handle).allocStruct
    { typeName := cStr typeName, nativeHandle := some object }).2

theorem unpackValue_arrives {i object : Nat} {inst : StructInstance}
    (hinst : heap.structs[i]? = some inst) (hhandle : inst.nativeHandle = some object)
    (hn : cStr inst.typeName ∉ reservedNames) (handle : Nat) :
    (unpackValue (packValue heap (.struct i)) (received heap handle)).outcome =
      .ok (.struct (heap.structs.length + 1)) (arrivedHeap heap handle inst.typeName object) := by
  rw [unpackValue_native hinst hhandle hn]
  have hlength : (received heap handle).structs.length = heap.structs.length + 1 :=
    List.length_append
  rw [hlength]
  rfl

/-- A new instance is none of the elements. -/
theorem not_contains_fresh (hel : ∀ element ∈ elements, Live heap element) {typeName : String}
    {object : Nat} :
    let left := elements ++ [RuntimeValue.struct (heap.structs.length + 1)]
    let pushed := wrote (arrivedHeap heap handle typeName object) handle left
    answerContains (arrivedHeap pushed handle typeName object) left
      (.struct (pushed.structs.length + 1)) ≠ .bool true := by
  intro left pushed hanswer
  obtain ⟨element, hm, heq⟩ := List.any_eq_true.mp (RuntimeValue.bool.inj hanswer)
  have hpushed : pushed.structs.length = heap.structs.length + 2 := by
    change ((heap.structs ++ [_]) ++ [_]).length = _
    simp only [List.length_append, List.length_singleton]
  have hlength : (arrivedHeap pushed handle typeName object).structs.length =
      heap.structs.length + 4 := by
    change ((pushed.structs ++ [_]) ++ [_]).length = _
    simp only [List.length_append, List.length_singleton, hpushed]
  have hsmall : ∀ j, element = .struct j → j < heap.structs.length + 2 := by
    rintro j rfl
    rcases List.mem_append.mp hm with hm | hm
    · have hlive : j < heap.structs.length := hel _ hm
      omega
    · cases List.mem_singleton.mp hm
      omega
  cases element with
  | struct j =>
    have hj := hsmall j rfl
    change samePointer _ j _ = true at heq
    rw [hlength, hpushed, samePointer_of_lt (by omega), beq_iff_eq] at heq
    omega
  | _ => cases heq

/-- A native value does not arrive as itself: it is not found where it was pushed. -/
theorem not_searchLaws_native {β : Type} (contents : Nat → β) (h : IsArray heap id handle elements)
    (hel : ∀ element ∈ elements, Live heap element) {object : Nat}
    (hn : nativeOf heap value = some object) : ¬SearchLaws contents heap id elements value := by
  rintro ⟨_, heap₂, hpush, hfound⟩
  cases value with
  | struct i =>
    obtain ⟨inst, hinst, hhandle⟩ := Option.bind_eq_some_iff.mp hn
    by_cases hreserved : cStr inst.typeName ∈ reservedNames
    · obtain ⟨arrived, heap', ha⟩ := exists_arrived h hpush
      rw [packValue_native hinst hhandle, unpackValue_reserved hreserved] at ha
      cases ha
    · have ha := unpackValue_arrives hinst hhandle hreserved handle
      have hpushed := pushBack_arrived h ha rfl
      rw [hpush] at hpushed
      obtain rfl : heap₂ = _ := (Base.Outcome.ok.inj hpushed).2
      have hsub : heap.structs <+: (arrivedHeap heap handle inst.typeName object).structs :=
        (List.prefix_append _ _).trans (List.prefix_append _ _)
      let left := elements ++ [RuntimeValue.struct (heap.structs.length + 1)]
      let pushed := wrote (arrivedHeap heap handle inst.typeName object) handle left
      have harray : IsArray pushed id handle left := isArray_wrote h hsub rfl left
      have hinst' : pushed.structs[i]? = some inst := getElem?_of_isPrefix hsub hinst
      have hagain : (unpackValue (packValue pushed (.struct i)) (received pushed handle)).outcome =
          .ok (.struct (pushed.structs.length + 1)) (arrivedHeap pushed handle inst.typeName object) :=
        unpackValue_arrives hinst' hhandle hreserved handle
      have hsearch : answerOf contains id (.struct i) pushed = some [answerContains
          (arrivedHeap pushed handle inst.typeName object) left
            (.struct (pushed.structs.length + 1))] := searching_arrived harray hagain rfl trivial
      have hanswer := List.singleton_injective (Option.some.inj (hsearch.symm.trans hfound))
      exact not_contains_fresh hel hanswer
  | _ => cases hn

/-! ## Other values -/

/-- A value that arrives without a new instance. -/
def ArrivesAs (heap : Heap) (value arrived : RuntimeValue) : Prop :=
  ∀ heap', heap.structs <+: heap'.structs → unpackValue (packValue heap' value) = pure arrived

theorem arrivesAs_of_plain (hp : ∀ heap', Plain heap' value) : ArrivesAs heap value value :=
  fun heap' _ => unpackValue_packValue (hp heap')

theorem unpackValue_string_some {s s' : String} (hs : arrivedString s = some s') (heap : Heap) :
    unpackValue (packValue heap (.string s)) = pure (.string s') := by
  change readStr s _ = _
  unfold readStr
  obtain ⟨hlen, hs'⟩ := Option.ite_none_left_eq_some.mp hs
  rw [if_neg hlen, Option.some.inj hs']

theorem unpackValue_string_none {s : String} (hs : arrivedString s = none) (heap : Heap) :
    unpackValue (packValue heap (.string s)) = Comp.throw (.other "basic_string::_M_create") := by
  change readStr s _ = _
  unfold readStr
  by_cases hlen : (Int32.ofNat (byteCount s.toList)).toInt < 0
  · rw [if_pos hlen]
  · exact absurd ((if_neg hlen).symm.trans hs) nofun

/-- The answer of `IndexOf` for a position. -/
def indexValue : Option Nat → Int64
  | some i => Int64.ofNat i
  | none => -1

theorem indexValue_some {i : Nat} (hi : i < 2 ^ 63) :
    indexValue (some i) ≠ -1 ∧ (indexValue (some i)).toInt = i := by
  have htoInt : (indexValue (some i)).toInt = i := Int64.toInt_ofNat_of_lt hi
  refine ⟨fun he => ?_, htoInt⟩
  rw [he] at htoInt
  have hminus : (-1 : Int64).toInt = -1 := rfl
  omega

theorem answerIndexOf_eq (heap : Heap) (elements : List RuntimeValue) (needle : RuntimeValue) :
    answerIndexOf heap elements needle =
      .int (indexValue (elements.findIdx? fun element => elementMatches heap element needle)) := by
  unfold answerIndexOf
  cases elements.findIdx? fun element => elementMatches heap element needle <;> rfl

theorem Grows.answerContains (hgrows : Grows heap heap')
    (hel : ∀ element ∈ elements, Live heap element) (needle : RuntimeValue) :
    Array.answerContains heap' elements needle = Array.answerContains heap elements needle := by
  unfold Array.answerContains
  congr 1
  rw [Bool.eq_iff_iff, List.any_eq_true, List.any_eq_true]
  refine exists_congr fun element => and_congr_right fun hm => ?_
  rw [hgrows.valuesEqual (hel element hm)]

theorem Grows.answerIndexOf (hgrows : Grows heap heap') (hlinked : Linked heap)
    (hel : ∀ element ∈ elements, Live heap element) {needle : RuntimeValue}
    (hn : Live heap needle) :
    Array.answerIndexOf heap' elements needle = Array.answerIndexOf heap elements needle := by
  have hcongr : (elements.findIdx? fun element => Array.elementMatches heap' element needle) =
      elements.findIdx? fun element => Array.elementMatches heap element needle := by
    induction elements with
    | nil => rfl
    | cons element elements ih =>
      obtain ⟨hfirst, hrest⟩ := List.forall_mem_cons.mp hel
      rw [List.findIdx?_cons, List.findIdx?_cons, ih hrest]
      rw [Grows.elementMatches hgrows hlinked hfirst hn]
  rw [answerIndexOf_eq, answerIndexOf_eq, hcongr]

section Arrives

variable (h : IsArray heap id handle elements) (hlinked : Linked heap)
  (hel : ∀ element ∈ elements, Live heap element) (hlive : Live heap arrived)
  (ha : ArrivesAs heap value arrived)
include h hel ha

theorem answerOf_contains : answerOf contains id value heap =
    some [answerContains heap elements arrived] := by
  have harrives : (unpackValue (packValue heap value) (received heap handle)).outcome =
      .ok arrived (received heap handle) := by
    rw [ha heap (List.prefix_refl _)]
    rfl
  rw [← (Grows.received heap handle).answerContains hel]
  exact searching_arrived h harrives rfl trivial

include hlinked hlive in
theorem answerOf_indexOf : answerOf indexOf id value heap =
    some [answerIndexOf heap elements arrived] := by
  have harrives : (unpackValue (packValue heap value) (received heap handle)).outcome =
      .ok arrived (received heap handle) := by
    rw [ha heap (List.prefix_refl _)]
    rfl
  have hplain : Plain (received heap handle)
      (answerIndexOf (received heap handle) elements arrived) := by
    rw [answerIndexOf_eq]
    trivial
  rw [← (Grows.received heap handle).answerIndexOf hlinked hel hlive]
  exact searching_arrived h harrives rfl hplain

include hlive in
/-- After the push, the array has the value that arrived. -/
theorem pushBack_then_contains : ∃ heap',
    (callForeign pushBack (paramsOf id none (some value)) heap).outcome = .ok [.nil] heap' ∧
      answerOf contains id value heap' = some [answerContains heap (elements ++ [arrived]) arrived] := by
  have harrives : (unpackValue (packValue heap value) (received heap handle)).outcome =
      .ok arrived (received heap handle) := by
    rw [ha heap (List.prefix_refl _)]
    rfl
  refine ⟨_, pushBack_arrived h harrives rfl, ?_⟩
  have hgrows : Grows heap (wrote (received heap handle) handle (elements ++ [arrived])) :=
    (Grows.received heap handle).trans (Grows.wrote _ _ _)
  have harray := isArray_wrote h (Grows.received heap handle).structs rfl (elements ++ [arrived])
  have hleft : ∀ element ∈ elements ++ [arrived], Live heap element :=
    List.forall_mem_append.mpr ⟨hel, List.forall_mem_singleton.mpr hlive⟩
  rw [← hgrows.answerContains hleft]
  exact answerOf_contains harray (fun element hm => hgrows.live (hleft element hm)) fun heap' hsub => ha heap' (hgrows.structs.trans hsub)

include hlinked hlive in
/-- The laws, for a value that arrives without a new instance, say this of the elements. -/
theorem searchLaws_iff_of_arrivesAs {β : Type} (contents : Nat → β)
    (hmax : elements.length < 2 ^ 63) (hn : nativeOf heap value = none) :
    SearchLaws contents heap id elements value ↔
      ((∃ element ∈ elements, valuesEqual heap element arrived = true) ↔
        ∃ element ∈ elements, elementMatches heap element arrived = true) ∧
      (∀ i, (elements.findIdx? fun element => elementMatches heap element arrived) = some i →
        IsLeast {i | ∃ element, elements[i]? = some element ∧ SameAs heap value element} i) ∧
      ∃ element ∈ elements ++ [arrived], valuesEqual heap element arrived = true := by
  have hcontains := answerOf_contains h hel ha
  have hindexOf := answerOf_indexOf h hlinked hel hlive ha
  rw [answerIndexOf_eq] at hindexOf
  obtain ⟨pushed, hpush, hthen⟩ := pushBack_then_contains h hel hlive ha
  have hbound : ∀ i, (elements.findIdx? fun element => elementMatches heap element arrived) =
      some i → i < 2 ^ 63 := fun i hi =>
    ((List.findIdx?_eq_some_iff_findIdx_eq.mp hi).1).trans hmax
  have hsome : (∃ element ∈ elements, elementMatches heap element arrived = true) ↔
      indexValue (elements.findIdx? fun element => elementMatches heap element arrived) ≠ -1 := by
    cases hk : elements.findIdx? fun element => elementMatches heap element arrived with
    | none =>
      refine iff_of_false ?_ fun hne => hne rfl
      rintro ⟨element, hm, hmatch⟩
      rw [List.findIdx?_eq_none_iff.mp hk element hm] at hmatch
      cases hmatch
    | some i =>
      refine iff_of_true ?_ (indexValue_some (hbound i hk)).1
      rw [← List.any_eq_true, ← List.findIdx?_isSome, hk]
      rfl
  constructor
  · rintro ⟨⟨found, index, hfound, hindex, hagree, hleast⟩, last, hlast, hfoundAfter⟩
    rw [hcontains] at hfound
    rw [hindexOf] at hindex
    rw [hpush] at hlast
    obtain rfl := (Base.Outcome.ok.inj hlast).2
    rw [hthen] at hfoundAfter
    have hfound := RuntimeValue.bool.inj (List.singleton_injective (Option.some.inj hfound))
    have hindex := RuntimeValue.int.inj (List.singleton_injective (Option.some.inj hindex))
    have hafter := RuntimeValue.bool.inj (List.singleton_injective (Option.some.inj hfoundAfter))
    refine ⟨?_, fun i hi => ?_, List.any_eq_true.mp hafter⟩
    · rw [hsome, hindex, ← hagree, ← hfound, List.any_eq_true]
    · rw [hi] at hindex
      obtain ⟨hne, htoInt⟩ := indexValue_some (hbound i hi)
      rw [hindex] at hne htoInt
      have hleast := (hleast hne).2.1
      rw [htoInt, Int.toNat_natCast] at hleast
      exact hleast
  · rintro ⟨hagree, hleast, hafter⟩
    refine ⟨⟨_, _, hcontains, hindexOf, ?_, fun hne => ?_⟩, pushed, hpush, ?_⟩
    · rw [List.any_eq_true, ← hsome]
      exact hagree
    · cases hk : elements.findIdx? fun element => elementMatches heap element arrived with
      | none =>
        rw [hk] at hne
        exact absurd rfl hne
      | some i =>
        have htoInt := (indexValue_some (hbound i hk)).2
        rw [htoInt, Int.toNat_natCast]
        refine ⟨Int.natCast_nonneg i, hleast i hk, fun _ _ _ _ hobject => ?_⟩
        rw [hn] at hobject
        cases hobject
    · rw [hthen]
      exact congrArg (fun b => some [RuntimeValue.bool b]) (List.any_eq_true.mpr hafter)

end Arrives

/-! ## The values for which the laws hold -/

theorem findIdx?_eq_some_iff_isLeast {p : RuntimeValue → Bool} {i : Nat} :
    elements.findIdx? p = some i ↔
      IsLeast {i | ∃ element, elements[i]? = some element ∧ p element = true} i := by
  rw [List.findIdx?_eq_some_iff_getElem]
  constructor
  · rintro ⟨hi, hp, hbefore⟩
    refine ⟨⟨_, List.getElem?_eq_getElem hi, hp⟩, ?_⟩
    rintro j ⟨element, hj, hpj⟩
    obtain ⟨hjl, rfl⟩ := List.getElem?_eq_some_iff.mp hj
    by_contra hlt
    exact hbefore j (by omega) hpj
  · rintro ⟨⟨element, hi, hp⟩, hleast⟩
    obtain ⟨hil, rfl⟩ := List.getElem?_eq_some_iff.mp hi
    refine ⟨hil, hp, fun j hji hpj => ?_⟩
    have hle := hleast ⟨_, List.getElem?_eq_getElem (hji.trans hil), hpj⟩
    omega

section Kinds

variable {β : Type} (contents : Nat → β) (h : IsArray heap id handle elements)
  (hlinked : Linked heap) (hel : ∀ element ∈ elements, Live heap element)
  (hmax : elements.length < 2 ^ 63)
include h hlinked hel hmax

/-- A value that arrives as itself and that both searches compare with `==`. -/
theorem searchLaws_iff_of_valuesEqual (hlive : Live heap value) (hn : nativeOf heap value = none)
    (ha : ArrivesAs heap value value)
    (hsame : ∀ element, elementMatches heap element value = valuesEqual heap element value) :
    SearchLaws contents heap id elements value ↔
      ∃ element ∈ elements ++ [value], valuesEqual heap element value = true := by
  rw [searchLaws_iff_of_arrivesAs h hlinked hel hlive ha contents hmax hn]
  simp only [hsame, sameAs_iff]
  constructor
  · rintro ⟨_, _, hafter⟩
    exact hafter
  · intro hafter
    exact ⟨trivial, fun i hi => findIdx?_eq_some_iff_isLeast.mp hi, hafter⟩

theorem searchLaws_of_valuesEqual_self (hlive : Live heap value) (hn : nativeOf heap value = none)
    (ha : ArrivesAs heap value value)
    (hsame : ∀ element, elementMatches heap element value = valuesEqual heap element value)
    (hself : valuesEqual heap value value = true) :
    SearchLaws contents heap id elements value := by
  rw [searchLaws_iff_of_valuesEqual contents h hlinked hel hmax hlive hn ha hsame]
  exact ⟨value, List.mem_append_right _ (List.mem_singleton_self _), hself⟩

theorem searchLaws_iff_float {x : Binary64} :
    SearchLaws contents heap id elements (.float x) ↔ x.isNaN = false := by
  have hlive : Live heap (.float x) := trivial
  rw [searchLaws_iff_of_valuesEqual contents h hlinked hel hmax hlive rfl
    (arrivesAs_of_plain fun _ => trivial) (elementMatches_of_ne_struct nofun)]
  constructor
  · rintro ⟨element, _, heq⟩
    cases element with
    | float y =>
      change (!y.isNaN && !x.isNaN && _) = true at heq
      simp only [Bool.and_eq_true, Bool.not_eq_true'] at heq
      exact heq.1.2
    | _ => cases heq
  · intro hx
    refine ⟨_, List.mem_append_right _ (List.mem_singleton_self _), ?_⟩
    change (!x.isNaN && !x.isNaN && _) = true
    rw [hx, beq_self_eq_true]
    rfl

theorem searchLaws_iff_string {s : String} : SearchLaws contents heap id elements (.string s) ↔
    ∃ s', arrivedString s = some s' ∧ (s' = s ∨ .string s' ∉ elements) := by
  cases hs : arrivedString s with
  | none =>
    refine iff_of_false ?_ nofun
    rintro ⟨_, last, hpush, _⟩
    obtain ⟨arrived, heap', ha⟩ := exists_arrived h hpush
    rw [unpackValue_string_none hs] at ha
    cases ha
  | some s' =>
    have ha : ArrivesAs heap (.string s) (.string s') :=
      fun heap' _ => unpackValue_string_some hs heap'
    have hlive : Live heap (.string s') := trivial
    rw [searchLaws_iff_of_arrivesAs h hlinked hel hlive ha contents hmax rfl]
    have hself : ∀ element text, valuesEqual heap element (.string text) = true ↔
        element = .string text := by
      intro element text
      have htext : Scalar (.string text) := trivial
      rw [valuesEqual_scalar heap element htext, beq_iff_eq]
    have hmatch : ∀ element, elementMatches heap element (.string s') =
        valuesEqual heap element (.string s') := elementMatches_of_ne_struct nofun
    simp only [hmatch, sameAs_iff]
    constructor
    · rintro ⟨_, hleast, _⟩
      refine ⟨s', rfl, or_iff_not_imp_right.mpr fun hmem => ?_⟩
      have hm := not_not.mp hmem
      have hany : elements.any (fun element => valuesEqual heap element (.string s')) = true :=
        List.any_eq_true.mpr ⟨_, hm, (hself _ s').mpr rfl⟩
      obtain ⟨i, hi⟩ := Option.isSome_iff_exists.mp (List.findIdx?_isSome.trans hany)
      obtain ⟨_, hget, hequal⟩ := (hleast i hi).1
      obtain ⟨_, hget', hequal'⟩ := (findIdx?_eq_some_iff_isLeast.mp hi).1
      rw [hself] at hequal hequal'
      rw [hget, hequal, hequal'] at hget'
      exact (RuntimeValue.string.inj (Option.some.inj hget')).symm
    · rintro ⟨s'', hs'', hcase⟩
      obtain rfl := Option.some.inj hs''
      refine ⟨trivial, fun i hi => ?_,
        _, List.mem_append_right _ (List.mem_singleton_self _), (hself _ s').mpr rfl⟩
      have hleast := findIdx?_eq_some_iff_isLeast.mp hi
      rcases hcase with rfl | hmem
      · exact hleast
      · obtain ⟨element, hget, hequal⟩ := hleast.1
        rw [hself] at hequal
        rw [hequal] at hget
        exact absurd (List.mem_of_getElem? hget) hmem

theorem searchLaws_iff_struct {i : Nat} (hlive : Live heap (.struct i))
    (hn : nativeOf heap (.struct i) = none) :
    SearchLaws contents heap id elements (.struct i) ↔
      (.struct i ∈ elements → elementMatches heap (.struct i) (.struct i) = true) ∧
      ∀ (k : Nat) (j : Nat), elements[k]? = some (.struct j) →
        elementMatches heap (.struct j) (.struct i) = true →
          ∃ k' ≤ k, elements[k']? = some (.struct i) := by
  have ha : ArrivesAs heap (.struct i) (.struct i) := by
    intro heap' hsub
    apply unpackValue_packValue
    change heap'.structs[i]?.bind StructInstance.nativeHandle = none
    rw [getElem?_of_isPrefix hsub (List.getElem?_eq_getElem (show i < heap.structs.length from hlive)),
      ← List.getElem?_eq_getElem (show i < heap.structs.length from hlive)]
    exact hn
  rw [searchLaws_iff_of_arrivesAs h hlinked hel hlive ha contents hmax hn]
  have hself : ∀ element, valuesEqual heap element (.struct i) = true ↔ element = .struct i := by
    intro element
    cases element with
    | struct j =>
      change samePointer _ j i = true ↔ _
      unfold samePointer
      have hi : ¬heap.structs.length ≤ i := Nat.not_le.mpr hlive
      rw [decide_eq_false hi, Bool.and_false, Bool.or_false, beq_iff_eq]
      exact ⟨congrArg _, RuntimeValue.struct.inj⟩
    | _ => exact iff_of_false nofun nofun
  have hstruct : ∀ element, elementMatches heap element (.struct i) = true →
      ∃ j, element = .struct j := by
    intro element hmatch
    cases element with
    | struct j => exact ⟨j, rfl⟩
    | _ => cases hmatch
  simp only [sameAs_iff, hself, exists_eq_right]
  constructor
  · rintro ⟨hagree, hleast, _⟩
    have hfound : ∀ {k : Nat} {j : Nat}, elements[k]? = some (.struct j) →
        elementMatches heap (.struct j) (.struct i) = true → ∃ k' ≤ k,
          elements[k']? = some (.struct i) ∧ elementMatches heap (.struct i) (.struct i) = true := by
      intro k j hk hmatch
      have hany : elements.any (fun element => elementMatches heap element (.struct i)) = true :=
        List.any_eq_true.mpr ⟨_, List.mem_of_getElem? hk, hmatch⟩
      obtain ⟨k', hk'⟩ := Option.isSome_iff_exists.mp (List.findIdx?_isSome.trans hany)
      have hfirst := findIdx?_eq_some_iff_isLeast.mp hk'
      have hget := (hleast k' hk').1
      obtain ⟨element, hget', hself'⟩ := hfirst.1
      obtain rfl := Option.some.inj (hget'.symm.trans hget)
      exact ⟨k', hfirst.2 ⟨_, hk, hmatch⟩, hget, hself'⟩
    refine ⟨fun hm => ?_, fun k j hk hmatch => ?_⟩
    · obtain ⟨element, hm', hmatch⟩ := hagree.mp hm
      obtain ⟨j, rfl⟩ := hstruct element hmatch
      obtain ⟨k, hk⟩ := List.getElem?_of_mem hm'
      obtain ⟨_, _, _, hresult⟩ := hfound hk hmatch
      exact hresult
    · obtain ⟨k', hle, hget, _⟩ := hfound hk hmatch
      exact ⟨k', hle, hget⟩
  · rintro ⟨hmatches, hbefore⟩
    refine ⟨⟨fun hm => ⟨_, hm, hmatches hm⟩, ?_⟩, fun k hk => ?_,
      List.mem_append_right _ (List.mem_singleton_self _)⟩
    · rintro ⟨element, hm, hmatch⟩
      obtain ⟨j, rfl⟩ := hstruct element hmatch
      obtain ⟨k, hk⟩ := List.getElem?_of_mem hm
      obtain ⟨k', _, hget⟩ := hbefore k j hk hmatch
      exact List.mem_of_getElem? hget
    · obtain ⟨⟨element, hget, hmatch⟩, hleast⟩ := findIdx?_eq_some_iff_isLeast.mp hk
      obtain ⟨j, rfl⟩ := hstruct element hmatch
      obtain ⟨k', hle, hget'⟩ := hbefore k j hget hmatch
      have hmatch' := hmatches (List.mem_of_getElem? hget')
      obtain rfl : k' = k := le_antisymm hle (hleast ⟨_, hget', hmatch'⟩)
      exact ⟨hget', fun m hm => hleast ⟨_, hm, hmatch'⟩⟩

/-- The laws hold for the values that arrive as they are and that the two searches tell apart
alike. -/
theorem searchLaws_iff (hlive : Live heap value) :
    SearchLaws contents heap id elements value ↔ Searched heap elements value := by
  cases hn : nativeOf heap value with
  | some object =>
    refine iff_of_false (not_searchLaws_native contents h hel hn) fun hsearched => ?_
    cases value with
    | struct i =>
      rw [hsearched.1] at hn
      cases hn
    | _ => cases hn
  | none =>
    cases value with
    | float x => exact searchLaws_iff_float contents h hlinked hel hmax
    | string s => exact searchLaws_iff_string contents h hlinked hel hmax
    | struct i =>
      rw [searchLaws_iff_struct contents h hlinked hel hmax hlive hn]
      exact (and_iff_right hn).symm
    | _ =>
      exact iff_of_true (searchLaws_of_valuesEqual_self contents h hlinked hel hmax hlive hn
        (arrivesAs_of_plain fun _ => trivial) (elementMatches_of_ne_struct nofun)
        (valuesEqual_self nofun)) trivial

end Kinds

end Arrival

/-! ## Arrays of arrays -/

/-- `[[1]]` and, apart, `[2]`. -/
def nestedHeap : Heap where
  structs := [{ typeName := "Array", nativeHandle := some 0 },
    { typeName := "Array", nativeHandle := some 1 },
    { typeName := "Array", nativeHandle := some 2 }]
  arrays := [{ elementTypeName := "Array", elements := [.struct 1] },
    { elementTypeName := "int", elements := [.int 1] },
    { elementTypeName := "int", elements := [.int 2] }]

def nestedContents (object : Nat) : Option (List RuntimeValue) :=
  nestedHeap.arrays[object]?.map (·.elements)

theorem searchLaws_iff_nested : SearchLaws nestedContents nestedHeap 1 [.int 1] (.int 2) := by
  have hlinked : Linked nestedHeap := by
    intro object hm entry hentry
    simp only [nestedHeap, List.mem_cons, List.not_mem_nil, or_false] at hm
    rcases hm with rfl | rfl | rfl <;> cases hentry
  have harray : IsArray nestedHeap 1 1 [.int 1] := ⟨⟨_, rfl, rfl, rfl⟩, _, rfl, rfl⟩
  have hel : ∀ element ∈ [RuntimeValue.int 1], Live nestedHeap element :=
    List.forall_mem_singleton.mpr trivial
  have hlive : Live nestedHeap (.int 2) := trivial
  exact (searchLaws_iff nestedContents harray hlinked hel (by decide) hlive).mpr trivial

/-- `[2]` is taken for `[1]` by `IndexOf`, not by `Contains`, and is not found after it was
pushed. -/
theorem not_searchLaws_nested :
    answerOf contains 0 (.struct 2) nestedHeap = some [.bool false] ∧
    answerOf indexOf 0 (.struct 2) nestedHeap = some [.int 0] ∧
    nestedContents 2 ≠ nestedContents 1 ∧
    (∃ heap', (callForeign pushBack (paramsOf 0 none (some (.struct 2))) nestedHeap).outcome =
      .ok [.nil] heap' ∧ answerOf contains 0 (.struct 2) heap' = some [.bool false]) ∧
    ¬SearchLaws nestedContents nestedHeap 0 [.struct 1] (.struct 2) := by
  have hcontains : answerOf contains 0 (.struct 2) nestedHeap = some [.bool false] := by
    decide +kernel
  have hindexOf : answerOf indexOf 0 (.struct 2) nestedHeap = some [.int 0] := by decide +kernel
  refine ⟨hcontains, hindexOf, by decide, ⟨_, rfl, by decide +kernel⟩, ?_⟩
  rintro ⟨⟨found, index, hfound, hindex, hagree, _⟩, _⟩
  obtain rfl := RuntimeValue.bool.inj
    (List.singleton_injective (Option.some.inj (hcontains.symm.trans hfound)))
  obtain rfl := RuntimeValue.int.inj
    (List.singleton_injective (Option.some.inj (hindexOf.symm.trans hindex)))
  exact absurd (hagree.mpr (by decide)) (by decide)

end FalconLib.Libs.Array
