import FalconLib.Libs.MapCalls

/-!
# The axes library

The declaration of `Axes<T>`, whose routines hand their arguments on to an array in the field
`arr_`, and what a registry with the library answers about axes.
-/

namespace FalconLib.Libs.Axes

open FalconLib.Base (Comp StdMap)
open FalconLib.Dsl
open FalconLib.Libs.Array (callOn param intParam routine typeT)
open FalconLib.Libs.Map (arrayOf assign bodied boolParam perform var)

/-! ## The declaration -/

def axesOf (type : TypeDescriptor) : TypeDescriptor := .makeGenericStruct "Axes" [type]

/-- In a routine an assignment to a bare field is one to the field of the receiver. -/
def newRoutine : RoutineDecl :=
  bodied "New" [] [param (axesOf typeT) "axes"]
    [.structFieldAssign {} (var "this") "arr_" (callOn "Array" "New" [])]

/-- `arr_.name(inputs)`. -/
def callArray (name : String) (inputs : List ParamDecl) : Expr :=
  callOn "arr_" name (inputs.map fun input => var input.name)

/-- `out = arr_.name(inputs);`, or the call alone where there is no output. -/
def delegated (name : String) (inputs outputs : List ParamDecl) : RoutineDecl :=
  bodied name inputs outputs <|
    match outputs with
    | [] => [perform (callArray name inputs)]
    | out :: _ => [assign out.name (callArray name inputs)]

def sizeRoutine : RoutineDecl := delegated "Size" [] [intParam "size"]

def isEmptyRoutine : RoutineDecl := delegated "IsEmpty" [] [boolParam "empty"]

def getIndexRoutine : RoutineDecl := delegated "GetIndex" [intParam "index"] [param typeT "value"]

def setIndexRoutine : RoutineDecl :=
  delegated "SetIndex" [intParam "index", param typeT "value"] []

def pushBackRoutine : RoutineDecl := delegated "PushBack" [param typeT "value"] []

def popBackRoutine : RoutineDecl := delegated "PopBack" [] [param typeT "value"]

def insertRoutine : RoutineDecl := delegated "Insert" [intParam "index", param typeT "value"] []

def eraseRoutine : RoutineDecl := delegated "Erase" [intParam "index"] []

def clearRoutine : RoutineDecl := delegated "Clear" [] []

def containsRoutine : RoutineDecl := delegated "Contains" [param typeT "value"] [boolParam "found"]

def indexOfRoutine : RoutineDecl := delegated "IndexOf" [param typeT "value"] [intParam "index"]

def stringParam (name : String) : ParamDecl := param (.ofParamType .string) name

/-- `struct Axes <T>`. -/
def axesDecl (moduleName : String) : StructDecl where
  name := "Axes"
  moduleName := moduleName
  genericParams := ["T"]
  fields := [{ type := arrayOf typeT, name := "arr_" }]
  routines :=
    [newRoutine, sizeRoutine, isEmptyRoutine, getIndexRoutine, setIndexRoutine, pushBackRoutine,
      popBackRoutine, insertRoutine, eraseRoutine, clearRoutine, containsRoutine, indexOfRoutine,
      routine "Equal" [param (axesOf typeT) "other"] [boolParam "equal"],
      routine "NotEqual" [param (axesOf typeT) "other"] [boolParam "notequal"],
      routine "FromJSON" [stringParam "json"] [param (axesOf typeT) "axes"],
      routine "ToJSON" [] [stringParam "json"]]

/-! ## Instances -/

def instanceName (type : TypeDescriptor) : String := TypeDescriptor.instanceName "Axes" [type]

def substitution (type : TypeDescriptor) : Substitution := StdMap.emplaceAll ∅ [("T", type)]

/-- A routine of `Axes<type>`. -/
def instanceRoutine (type : TypeDescriptor) (routine : RoutineDecl) : RoutineDecl :=
  monomorphizeRoutine (axesDecl "") (instanceName type) (substitution type) routine

/-- The declaration of `Axes<type>`. -/
def instanceDecl (type : TypeDescriptor) : StructDecl where
  name := instanceName type
  fields := (axesDecl "").fields.map (monomorphizeField (substitution type))
  routines := (axesDecl "").routines.map (instanceRoutine type)

theorem monomorphize_axesDecl (moduleName : String) (type : TypeDescriptor) :
    monomorphize (axesDecl moduleName) (instanceName type) [type] = .ok (instanceDecl type) := rfl

theorem genericBase_instanceName (type : TypeDescriptor) :
    genericBase (instanceName type) = some "Axes" := by
  have hbase := baseName_instanceName "Axes" [type]
  unfold baseName at hbase
  unfold genericBase at hbase ⊢
  unfold instanceName
  rw [if_pos (mem_instanceName "Axes" [type])] at hbase ⊢
  exact congrArg some hbase

theorem substitution_eq (type : TypeDescriptor) (name : String) :
    (substitution type)[name]? = if "T" = name then some type else none := by
  unfold substitution
  rw [StdMap.getElem?_emplaceAll, StdMap.firstWrite_cons]
  rfl

/-- A type of the declaration that is no type parameter stays. -/
theorem substituteType_other {type other : TypeDescriptor} (hs : other.baseType = .struct)
    (ht : "T" ≠ other.structName) : substituteType (substitution type) other = other := by
  obtain ⟨baseType, tupleElements, errorVariant, unionTypes, structName, typeArgs, elementType⟩ :=
    other
  cases hs
  unfold substituteType
  dsimp only at ht ⊢
  rw [substitution_eq, if_neg ht]
  rfl

theorem fields_instanceDecl (type : TypeDescriptor) :
    (instanceDecl type).fields = [{ type := arrayOf typeT, name := "arr_" }] := by
  have harray : substituteType (substitution type) (arrayOf typeT) = arrayOf typeT :=
    substituteType_other rfl (by decide)
  change ([{ type := substituteType (substitution type) (arrayOf typeT), name := "arr_" }] :
    List VarDeclStmt) = _
  rw [harray]

/-- The output of `New` is the instance itself. -/
theorem structName_newOutput (type : TypeDescriptor) :
    (substituteOutputType (axesDecl "") (instanceName type) (substitution type)
      (axesOf typeT)).structName = instanceName type := by
  have htype : substituteType (substitution type) (axesOf typeT) = axesOf typeT :=
    substituteType_other rfl (by decide)
  have hname : (axesOf typeT).structName = "Axes<T>" := by decide
  have htokens : (betweenAngles "Axes<T>").splitOn ',' = [['T']] := by decide
  unfold substituteOutputType
  rw [htype]
  dsimp only
  rw [if_pos (by rfl), hname, if_neg (by decide), if_pos (by decide)]
  dsimp only
  unfold rebuildSelfReference
  have ht : String.ofList (trimBlanks ['T']) = "T" := by decide
  rw [htokens]
  simp only [List.map_cons, List.map_nil, ht, substitution_eq]
  rfl

/-! ## The registry -/

/-- What a registry with the array library and the axes library answers about both: an instance
of the axes is registered under its own name, and nil has no methods. -/
structure Registered (types : TypeRegistry) (path : String) : Prop where
  arrays : Array.Registered types path
  declared : ∃ moduleName, types.structRegistry["Axes"]? = some (axesDecl moduleName)
  cached : ∀ type decl, types.structRegistry[instanceName type]? = some decl →
    ∃ type', instanceName type' = instanceName type ∧ decl = instanceDecl type'
  nil : types.typeMethods["nil"]? = none

/-- Once an instance is registered the registry still answers the same. -/
theorem Registered.registerInstance {types : TypeRegistry} {path : String}
    (h : Registered types path) (type : TypeDescriptor) :
    Registered (types.registerMonomorphizedStruct (instanceName type) (instanceDecl type)) path := by
  have hother : ∀ name, genericBase name ≠ some "Axes" →
      (types.registerMonomorphizedStruct (instanceName type) (instanceDecl type)).structRegistry[
        name]? = types.structRegistry[name]? := by
    intro name hname
    refine StdMap.getElem?_assign_ne _ _ fun he => hname ?_
    rw [← he, genericBase_instanceName]
  refine ⟨⟨?_, h.arrays.new, h.arrays.method, h.arrays.instances, ?_⟩, ?_, ?_, h.nil⟩
  · obtain ⟨moduleName, hdecl⟩ := h.arrays.declared
    exact ⟨moduleName, (hother "Array" (by decide)).trans hdecl⟩
  · intro other decl hdecl
    rw [hother _ (by rw [Array.genericBase_instanceName]; decide)] at hdecl
    exact h.arrays.cached other decl hdecl
  · obtain ⟨moduleName, hdecl⟩ := h.declared
    exact ⟨moduleName, (hother "Axes" (by decide)).trans hdecl⟩
  · intro other decl hdecl
    change (types.structRegistry.assign (instanceName type) (instanceDecl type))[
      instanceName other]? = some decl at hdecl
    by_cases hsame : instanceName type = instanceName other
    · rw [← hsame, StdMap.getElem?_assign_self] at hdecl
      cases hdecl
      exact ⟨type, hsame, rfl⟩
    · rw [StdMap.getElem?_assign_ne _ _ hsame] at hdecl
      exact h.cached other decl hdecl

end FalconLib.Libs.Axes
