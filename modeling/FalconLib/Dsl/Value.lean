import FalconLib.Base.Binary64
import FalconLib.Base.StdMap
import FalconLib.Dsl.Ast

/-!
# Runtime values and the objects they point to

A value that the source holds through a shared pointer is an index into one of the
heap's arenas. Objects are never freed; an index outside its arena stands for a
null pointer.
-/

namespace FalconLib.Dsl

open FalconLib.Base (Binary64 StdMap)

structure ErrorObject where
  message : String
  isFatal : Bool := false
deriving DecidableEq

inductive RuntimeValue where
  | int (value : Int64)
  | float (value : Binary64)
  | bool (value : Bool)
  | string (value : String)
  | nil
  | error (value : ErrorObject)
  | tuple (id : Nat)
  | struct (id : Nat)
  | array (id : Nat)
deriving DecidableEq

abbrev ParameterMap := StdMap RuntimeValue

abbrev FunctionResult := List RuntimeValue

/-- The value-initialised variant, `RuntimeValue()`. -/
def RuntimeValue.unset : RuntimeValue := .int 0

/-- The value a field or output of the type starts with where the source's switch
lists the primitive types and gives `nullptr` to every other. -/
def primitiveDefault : ParamType → RuntimeValue
  | .int => .int 0
  | .float => .float ⟨0⟩
  | .bool => .bool false
  | .string => .string ""
  | _ => .nil

def RuntimeValue.ofLiteral : Literal → RuntimeValue
  | .int value => .int value
  | .float value => .float value
  | .bool value => .bool value
  | .string value => .string value

/-- `nativeHandle` names the object behind an instance that a foreign library made. -/
structure StructInstance where
  typeName : String
  fields : ParameterMap := ∅
  nativeHandle : Option Nat := none

structure ArrayValue where
  elementTypeName : String
  elements : List RuntimeValue

structure Heap where
  tuples : List (List RuntimeValue) := []
  structs : List StructInstance := []
  arrays : List ArrayValue := []

theorem getElem?_of_isPrefix {α : Type} {l l' : List α} (hsub : l <+: l') {i : Nat} {a : α}
    (h : l[i]? = some a) : l'[i]? = some a := by
  obtain ⟨rest, rfl⟩ := hsub
  rw [List.getElem?_append_left (List.getElem?_eq_some_iff.mp h).1, h]

namespace Heap

def allocTuple (heap : Heap) (values : List RuntimeValue) : RuntimeValue × Heap :=
  (.tuple heap.tuples.length, { heap with tuples := heap.tuples ++ [values] })

def allocStruct (heap : Heap) (object : StructInstance) : Nat × Heap :=
  (heap.structs.length, { heap with structs := heap.structs ++ [object] })

/-- The value of a field, if the object exists and has it. -/
def field? (heap : Heap) (id : Nat) (name : String) : Option RuntimeValue :=
  heap.structs[id]?.bind fun object => object.fields[name]?

/-- `set_field`. -/
def setField (heap : Heap) (id : Nat) (name : String) (value : RuntimeValue) : Heap :=
  { heap with structs := heap.structs.modify id fun object =>
      { object with fields := object.fields.assign name value } }

theorem field?_setField (heap : Heap) (id i : Nat) (name n : String) (value : RuntimeValue)
    (h : id < heap.structs.length) :
    (heap.setField id name value).field? i n =
      if id = i ∧ name = n then some value else heap.field? i n := by
  unfold setField field?
  by_cases hi : id = i
  · subst hi
    rw [List.getElem?_modify_eq, List.getElem?_eq_getElem h]
    simp only [true_and, Option.map_eq_map, Option.map_some, Option.bind_some]
    exact StdMap.getElem?_assign _ _ _ _
  · rw [List.getElem?_modify_ne _ _ hi, if_neg fun hc => hi hc.1]

theorem setField_typeName (heap : Heap) (id i : Nat) (name : String) (value : RuntimeValue) :
    (heap.setField id name value).structs[i]?.map (·.typeName) =
      heap.structs[i]?.map (·.typeName) := by
  unfold setField
  by_cases hi : id = i
  · subst hi
    rw [List.getElem?_modify_eq, Option.map_eq_map, Option.map_map]
    rfl
  · rw [List.getElem?_modify_ne _ _ hi]

end Heap

/-- `get_runtime_type_name`. -/
def getRuntimeTypeName (heap : Heap) : RuntimeValue → String
  | .int _ => "int"
  | .float _ => "float"
  | .bool _ => "bool"
  | .string _ => "string"
  | .error _ => "Error"
  | .tuple _ => "tuple"
  | .struct _ => "StructInstance"
  | .array id =>
    match heap.arrays[id]? with
    | some array => "Array[" ++ array.elementTypeName ++ "]"
    | none => "Array"
  | .nil => "nil"

/-- An exception in flight: `EvaluationError`, or any other `std::exception`. -/
inductive Exception where
  | evaluation (what : String)
  | other (what : String)
deriving DecidableEq

namespace Exception

def what : Exception → String
  | evaluation message | other message => message

/-- What `std::get` throws on the wrong alternative. -/
def badVariantAccess : Exception := other "std::get: wrong index for variant"

/-- What `std::map::at` throws on a missing key. -/
def outOfRange : Exception := other "map::at"

end Exception

end FalconLib.Dsl
