import FalconLib.Base.Computation
import FalconLib.Dsl.Value
import Mathlib.Data.List.TakeWhile

/-!
# Values across the C boundary

The engine packs a parameter map into entries and a library unpacks them; the library
packs its results into the slots of a buffer of the engine, which unpacks them. Both sides
convert a value in the same way. A shared pointer is copied, so that both sides see one
object, but of a native struct only its handle and its name pass.
-/

namespace FalconLib.Typing.FFI

open FalconLib.Base (Binary64 Comp StdMap)
open FalconLib.Dsl

/-- Conversions may put new instances on the heap. -/
abbrev Marshal := Comp Empty Exception Heap

/-- What the `void*` of an opaque entry or slot points to. -/
inductive SharedPointer where
  | tuple (id : Nat)
  | array (id : Nat)
  | struct (id : Nat)
  | error (value : ErrorObject)
  | void (handle : Nat)

/-- A tag with the member of the union that it selects. -/
inductive Tagged where
  | nil
  | int (intVal : Int64)
  | float (floatVal : Binary64)
  | bool (boolVal : Int32)
  | str (ptr : String) (len : Int32)
  | opaqueVal (typeName : String) (ptr : SharedPointer)

structure FalconParamEntry where
  key : String
  value : Tagged

abbrev FalconResultSlot := Tagged

/-- The C-ABI function of a library: it gets the entries, the buffer of slots and the value of
`*out_count`, and leaves the buffer and `*out_count`. -/
abbrev FalconFFIFunc := List FalconParamEntry → List FalconResultSlot → Int32 →
  Marshal (List FalconResultSlot × Int32)

/-! ## Strings -/

/-- `c_str()` as the other side reads it: up to the first NUL. -/
def cStr (s : String) : String := String.ofList (s.toList.takeWhile fun c => c != Char.ofNat 0)

theorem cStr_of_not_mem {s : String} (h : Char.ofNat 0 ∉ s.toList) : cStr s = s := by
  unfold cStr
  rw [List.takeWhile_eq_self_iff.mpr]
  · exact String.ofList_toList
  · intro c hc
    exact bne_iff_ne.mpr fun he => h (he ▸ hc)

def byteCount (cs : List Char) : Nat := (cs.map Char.utf8Size).sum

/-- The characters that fit into the first `n` bytes. -/
def takeBytes : Nat → List Char → List Char
  | _, [] => []
  | n, c :: cs => if c.utf8Size ≤ n then c :: takeBytes (n - c.utf8Size) cs else []

/-- `std::string(ptr, (size_t)len)`: a negative length becomes one that is too large. -/
def readStr (ptr : String) (len : Int32) : Marshal RuntimeValue :=
  if len.toInt < 0 then Comp.throw (.other "basic_string::_M_create")
  else pure (.string (String.ofList (takeBytes len.toInt.toNat ptr.toList)))

/-! ## Single values -/

def packValue (heap : Heap) : RuntimeValue → Tagged
  | .int value => .int value
  | .float value => .float value
  | .bool value => .bool (if value then 1 else 0)
  | .string value => .str value (Int32.ofNat (byteCount value.toList))
  | .nil => .nil
  | .error value => .opaqueVal "ErrorObject" (.error value)
  | .tuple id => .opaqueVal "TupleValue" (.tuple id)
  | .array id => .opaqueVal "ArrayValue" (.array id)
  | .struct id =>
    match heap.structs[id]? with
    | some object =>
      match object.nativeHandle with
      | some handle => .opaqueVal (cStr object.typeName) (.void handle)
      | none => .opaqueVal "StructInstance" (.struct id)
    | none => .opaqueVal "StructInstance" (.struct id)

/-- A pointer is read as what the type name says it is. -/
def unpackOpaque (typeName : String) (ptr : SharedPointer) : Marshal RuntimeValue :=
  if typeName = "TupleValue" then
    match ptr with
    | .tuple id => pure (.tuple id)
    | _ => Comp.halt .undefinedBehaviour
  else if typeName = "ArrayValue" then
    match ptr with
    | .array id => pure (.array id)
    | _ => Comp.halt .undefinedBehaviour
  else if typeName = "StructInstance" then
    match ptr with
    | .struct id => pure (.struct id)
    | _ => Comp.halt .undefinedBehaviour
  else if typeName = "ErrorObject" then
    match ptr with
    | .error value => pure (.error value)
    | _ => Comp.halt .undefinedBehaviour
  else
    match ptr with
    | .void handle => do
      let heap ← Comp.gets id
      Comp.modify fun heap =>
        (heap.allocStruct { typeName := typeName, nativeHandle := some handle }).2
      pure (.struct heap.structs.length)
    | _ => Comp.halt .undefinedBehaviour

def unpackValue : Tagged → Marshal RuntimeValue
  | .nil => pure .nil
  | .int value => pure (.int value)
  | .float value => pure (.float value)
  | .bool value => pure (.bool (value != 0))
  | .str ptr len => readStr ptr len
  | .opaqueVal typeName ptr => unpackOpaque typeName ptr

/-! ## Parameters and results -/

def packParams (heap : Heap) (params : ParameterMap) : List FalconParamEntry :=
  params.toList.map fun param => ⟨cStr param.1, packValue heap param.2⟩

def unpackParams : List FalconParamEntry → ParameterMap → Marshal ParameterMap
  | [], result => pure result
  | entry :: entries, result => do
    let value ← unpackValue entry.value
    unpackParams entries (result.assign entry.key value)

/-- The native object of a parameter. -/
def getOpaque (entries : List FalconParamEntry) (key : String) : Marshal Nat :=
  let found : Option SharedPointer := entries.findSome? fun entry =>
    match entry.value with
    | .opaqueVal _ ptr => if entry.key = key then some ptr else none
    | _ => none
  match found with
  | some (.void handle) => pure handle
  | some _ => Comp.halt .undefinedBehaviour
  | none => Comp.throw (.other ("FFI: opaque param not found: " ++ key))

/-- At most `capacity` results are written, over the first slots. -/
def packResults (result : FunctionResult) (slots : List FalconResultSlot) (capacity : Int32) :
    Marshal (List FalconResultSlot × Int32) := do
  let n := min (Int32.ofNat result.length) capacity
  let count := n.toInt.toNat
  let heap ← Comp.gets id
  if slots.length < count then Comp.halt .undefinedBehaviour
  else pure ((result.take count).map (packValue heap) ++ slots.drop count, n)

def unpackSlots : List FalconResultSlot → Marshal FunctionResult
  | [] => pure []
  | slot :: slots => do
    let value ← unpackValue slot
    let values ← unpackSlots slots
    pure (value :: values)

/-- A negative count fails in `reserve`. -/
def unpackResults (slots : List FalconResultSlot) (count : Int32) : Marshal FunctionResult :=
  if count.toInt < 0 then Comp.throw (.other "vector::reserve")
  else if slots.length < count.toInt.toNat then Comp.halt .undefinedBehaviour
  else unpackSlots (slots.take count.toInt.toNat)

def maxOutputs : Nat := 16

/-- How the engine calls a function of a library: `out_count` starts at zero. -/
def callForeign (function : FalconFFIFunc) (params : ParameterMap) : Marshal FunctionResult := do
  let heap ← Comp.gets id
  let (slots, count) ← function (packParams heap params) (List.replicate maxOutputs .nil) 0
  unpackResults slots count

/-! ## Plain values -/

theorem takeBytes_of_le {cs : List Char} {n : Nat} (h : byteCount cs ≤ n) : takeBytes n cs = cs := by
  induction cs generalizing n with
  | nil => rfl
  | cons c cs ih =>
    have hsum : c.utf8Size + byteCount cs ≤ n := h
    rw [takeBytes, if_pos (by omega), ih (by omega)]

/-- What crosses the boundary as it is: a text whose length is an `int32_t`, or a value that
is not native. -/
def Plain (heap : Heap) : RuntimeValue → Prop
  | .string value => byteCount value.toList < 2 ^ 31
  | .struct id => (heap.structs[id]?.bind StructInstance.nativeHandle) = none
  | _ => True

theorem unpackValue_packValue {heap : Heap} {value : RuntimeValue} (h : Plain heap value) :
    unpackValue (packValue heap value) = pure value := by
  cases value with
  | int value => rfl
  | float value => rfl
  | bool value => cases value <;> rfl
  | nil => rfl
  | error value => rfl
  | tuple id => rfl
  | array id => rfl
  | string value =>
    have hlen := Int32.toInt_ofNat_of_lt h
    unfold packValue unpackValue readStr
    dsimp only
    rw [hlen, if_neg (by omega), Int.toNat_natCast, takeBytes_of_le (Nat.le_refl _),
      String.ofList_toList]
  | struct id =>
    change (heap.structs[id]?.bind StructInstance.nativeHandle) = none at h
    unfold packValue
    dsimp only
    cases hobject : heap.structs[id]? with
    | none => rfl
    | some object =>
      rw [hobject, Option.bind_some] at h
      dsimp only
      rw [h]
      rfl

/-- The type names that stand for a kind of shared pointer. -/
def reservedNames : List String := ["TupleValue", "ArrayValue", "StructInstance", "ErrorObject"]

/-- A native struct arrives as a new instance with its name and its handle alone. -/
theorem unpackValue_native {heap : Heap} {id handle : Nat} {object : StructInstance}
    (ho : heap.structs[id]? = some object) (hh : object.nativeHandle = some handle)
    (hn : cStr object.typeName ∉ reservedNames) (current : Heap) :
    unpackValue (packValue heap (.struct id)) current =
      ⟨[], .ok (.struct current.structs.length)
        (current.allocStruct { typeName := cStr object.typeName, nativeHandle := some handle }).2⟩ := by
  simp only [reservedNames, List.mem_cons, List.not_mem_nil, or_false, not_or] at hn
  obtain ⟨htuple, harray, hstruct, herror⟩ := hn
  unfold packValue
  dsimp only
  rw [ho]
  dsimp only
  rw [hh]
  unfold unpackValue unpackOpaque
  dsimp only
  rw [if_neg htuple, if_neg harray, if_neg hstruct, if_neg herror]
  rfl

end FalconLib.Typing.FFI
