import FalconLib.Dsl.AutotunerEngine
import FalconLib.Typing.FFIHelpers

/-!
# The array library

The declaration of `Array<T>` and the functions of its wrapper. The handle of an array is
the position of an `ArrayValue` on the heap.
-/

namespace FalconLib.Libs.Array

open FalconLib.Base (Comp StdMap)
open FalconLib.Dsl
open FalconLib.Typing.FFI

/-! ## The declaration -/

def typeT : TypeDescriptor := .makeStruct "T"

def param (type : TypeDescriptor) (name : String) : ParamDecl := { type := type, name := name }

def intParam (name : String) : ParamDecl := param (.ofParamType .int) name

def routine (name : String) (inputs outputs : List ParamDecl) : RoutineDecl :=
  { name := name, inputParams := inputs, outputParams := outputs }

/-- `struct Array <T>`. -/
def arrayDecl (moduleName : String) : StructDecl where
  name := "Array"
  moduleName := moduleName
  genericParams := ["T"]
  fields := []
  routines :=
    [routine "New" [] [param (.makeGenericStruct "Array" [typeT]) "arr"],
      routine "Size" [] [intParam "size"],
      routine "IsEmpty" [] [param (.ofParamType .bool) "empty"],
      routine "GetIndex" [intParam "index"] [param typeT "value"],
      routine "SetIndex" [intParam "index", param typeT "value"] [],
      routine "PushBack" [param typeT "value"] [],
      routine "PopBack" [] [param typeT "value"],
      routine "Insert" [intParam "index", param typeT "value"] [],
      routine "Erase" [intParam "index"] [],
      routine "Clear" [] [],
      routine "Contains" [param typeT "value"] [param (.ofParamType .bool) "found"],
      routine "IndexOf" [param typeT "value"] [intParam "index"]]

/-! ## Helpers of the wrapper -/

/-- The handle of `this` and the elements behind it. -/
def getArray (entries : List FalconParamEntry) : Marshal (Nat × List RuntimeValue) := do
  let handle ← getOpaque entries "this"
  let heap ← Comp.gets id
  match heap.arrays[handle]? with
  | some array => pure (handle, array.elements)
  | none => Comp.halt .undefinedBehaviour

def setElements (handle : Nat) (elements : List RuntimeValue) : Marshal Unit :=
  Comp.modify fun heap =>
    { heap with arrays := heap.arrays.modify handle fun array =>
        { array with elements := elements } }

/-- `pm.at(key)`. -/
def paramAt (params : ParameterMap) (key : String) : Marshal RuntimeValue :=
  match params[key]? with
  | some value => pure value
  | none => Comp.throw Exception.outOfRange

/-- `std::get<int64_t>(pm.at("index"))`. -/
def indexAt (params : ParameterMap) : Marshal Int64 := do
  match ← paramAt params "index" with
  | .int index => pure index
  | _ => Comp.throw Exception.badVariantAccess

def outOfBounds (method : String) (index : Int64) (size : Nat) : Exception :=
  .other <|
    "Array." ++ method ++ ": index out of bounds: " ++ toString index.toInt ++
      " (size=" ++ toString size ++ ")"

/-- A slot with the tag of nil. -/
def nilResult (slots : List FalconResultSlot) : Marshal (List FalconResultSlot × Int32) :=
  pure (slots.set 0 .nil, 1)

def packArray (handle : Nat) (slots : List FalconResultSlot) :
    Marshal (List FalconResultSlot × Int32) :=
  pure (slots.set 0 (.opaqueVal "Array" (.void handle)), 1)

/-- The wrapper takes the room of sixteen slots for granted. -/
def packOne (value : RuntimeValue) (slots : List FalconResultSlot) :
    Marshal (List FalconResultSlot × Int32) := packResults [value] slots 16

/-! ## The functions -/

def new : FalconFFIFunc := fun _ slots _ => do
  let heap ← Comp.gets id
  Comp.modify fun heap =>
    { heap with arrays := heap.arrays ++ [{ elementTypeName := "", elements := [] }] }
  packArray heap.arrays.length slots

def size : FalconFFIFunc := fun entries slots _ => do
  let (_, elements) ← getArray entries
  packOne (.int (Int64.ofNat elements.length)) slots

def isEmpty : FalconFFIFunc := fun entries slots _ => do
  let (_, elements) ← getArray entries
  packOne (.bool elements.isEmpty) slots

def getIndex : FalconFFIFunc := fun entries slots _ => do
  let params ← unpackParams entries ∅
  let (_, elements) ← getArray entries
  let index ← indexAt params
  if index.toInt < 0 then Comp.throw (outOfBounds "GetIndex" index elements.length)
  else
    match elements[index.toInt.toNat]? with
    | some value => packOne value slots
    | none => Comp.throw (outOfBounds "GetIndex" index elements.length)

/-- A change at one of the first `elements.length + past` positions. -/
def changeAt (method : String) (past : Nat)
    (change : ParameterMap → Nat → List RuntimeValue → Marshal (List RuntimeValue)) :
    FalconFFIFunc := fun entries slots _ => do
  let params ← unpackParams entries ∅
  let (handle, elements) ← getArray entries
  let index ← indexAt params
  if index.toInt < 0 ∨ elements.length + past ≤ index.toInt.toNat then
    Comp.throw (outOfBounds method index elements.length)
  else do
    let left ← change params index.toInt.toNat elements
    setElements handle left
    nilResult slots

def setValue (params : ParameterMap) (index : Nat) (elements : List RuntimeValue) :
    Marshal (List RuntimeValue) := do
  let value ← paramAt params "value"
  pure (elements.set index value)

def insertValue (params : ParameterMap) (index : Nat) (elements : List RuntimeValue) :
    Marshal (List RuntimeValue) := do
  let value ← paramAt params "value"
  pure (elements.insertIdx index value)

def eraseValue (_ : ParameterMap) (index : Nat) (elements : List RuntimeValue) :
    Marshal (List RuntimeValue) := pure (elements.eraseIdx index)

def setIndex : FalconFFIFunc := changeAt "SetIndex" 0 setValue

/-- Here the end of the array is a position as well. -/
def insert : FalconFFIFunc := changeAt "Insert" 1 insertValue

def erase : FalconFFIFunc := changeAt "Erase" 0 eraseValue

def pushBack : FalconFFIFunc := fun entries slots _ => do
  let params ← unpackParams entries ∅
  let (handle, elements) ← getArray entries
  let value ← paramAt params "value"
  setElements handle (elements ++ [value])
  nilResult slots

def emptyArray : Exception := .other "Array.PopBack: array is empty"

def popBack : FalconFFIFunc := fun entries slots _ => do
  let (handle, elements) ← getArray entries
  match elements.getLast? with
  | none => Comp.throw emptyArray
  | some value => do
    setElements handle elements.dropLast
    packOne value slots

def clear : FalconFFIFunc := fun entries slots _ => do
  let (handle, _) ← getArray entries
  setElements handle []
  nilResult slots

/-! ## Calls through the library -/

/-- The operations on one array, as methods of the declaration. -/
inductive Method where
  | pushBack (value : RuntimeValue)
  | popBack
  | getIndex (index : Int64)
  | setIndex (index : Int64) (value : RuntimeValue)
  | insert (index : Int64) (value : RuntimeValue)
  | erase (index : Int64)
  | clear
  | size
  | isEmpty

namespace Method

def name : Method → String
  | pushBack _ => "PushBack"
  | popBack => "PopBack"
  | getIndex _ => "GetIndex"
  | setIndex _ _ => "SetIndex"
  | insert _ _ => "Insert"
  | erase _ => "Erase"
  | clear => "Clear"
  | size => "Size"
  | isEmpty => "IsEmpty"

def args : Method → List RuntimeValue
  | pushBack value => [value]
  | getIndex index | erase index => [.int index]
  | setIndex index value | insert index value => [.int index, value]
  | popBack | clear | size | isEmpty => []

def function : Method → FalconFFIFunc
  | pushBack _ => Array.pushBack
  | popBack => Array.popBack
  | getIndex _ => Array.getIndex
  | setIndex _ _ => Array.setIndex
  | insert _ _ => Array.insert
  | erase _ => Array.erase
  | clear => Array.clear
  | size => Array.size
  | isEmpty => Array.isEmpty

end Method

def symbol (path name : String) : ForeignSymbol := ⟨path, "STRUCTArray" ++ name⟩

/-- A method of the host is the driver of the engine around a function of a library. -/
def Implements {S : Type} (host : Host S) (symbol : ForeignSymbol) (function : FalconFFIFunc) :
    Prop :=
  ∀ receiver params heap store,
    match (callForeign function params heap).outcome with
    | .ok values heap' =>
      host.callMethod symbol receiver params heap store = (.ok values, heap', store)
    | .throw e heap' =>
      host.callMethod symbol receiver params heap store = (.error e, heap', store)
    | .halt _ => True

/-- The shared library at `path` is the compiled wrapper. -/
structure Opened {S : Type} (host : Host S) (path : String) : Prop where
  new : Implements host (symbol path "New") new
  method : ∀ method : Method, Implements host (symbol path method.name) method.function

/-- What a registry with the array library answers about arrays. -/
structure Registered (types : TypeRegistry) (path : String) : Prop where
  declared : ∃ moduleName, types.structRegistry["Array"]? = some (arrayDecl moduleName)
  new : types.ffiMethods["Array"]?.bind (fun methods => methods["New"]?) = some (symbol path "New")
  method : ∀ method : Method,
    types.ffiMethods["Array"]?.bind (fun methods => methods[method.name]?) =
      some (symbol path method.name)
  instances : ∀ typeArgs, types.ffiMethods[TypeDescriptor.instanceName "Array" typeArgs]? = none
  cached : ∀ type decl,
    types.structRegistry[TypeDescriptor.instanceName "Array" [type]]? = some decl →
      ∃ arg, monomorphize (arrayDecl "") (TypeDescriptor.instanceName "Array" [type]) [arg] =
        .ok decl

end FalconLib.Libs.Array
