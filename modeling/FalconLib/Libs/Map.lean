import FalconLib.Base.Table
import FalconLib.Libs.ArraySearch

/-!
# The map library

The declaration of `Map<K, V>`, whose routines are written in the language over two arrays,
and what a registry with the library answers about maps.
-/

namespace FalconLib.Libs.Map

open FalconLib.Base (StdMap)
open FalconLib.Dsl
open FalconLib.Libs.Array (callOn param intParam routine)

/-! ## The declaration -/

def typeK : TypeDescriptor := .makeStruct "K"

def typeV : TypeDescriptor := .makeStruct "V"

def arrayOf (type : TypeDescriptor) : TypeDescriptor := .makeGenericStruct "Array" [type]

def mapOf (k v : TypeDescriptor) : TypeDescriptor := .makeGenericStruct "Map" [k, v]

def var (name : String) : Expr := .var {} name

def declare (type : TypeDescriptor) (name : String) (initializer : Expr) : Stmt :=
  .varDecl { type := type, name := name, initializer := some initializer }

def assign (name : String) (value : Expr) : Stmt := .assign {} [{ variableName := name }] value

def perform (expression : Expr) : Stmt := .expr {} expression

def boolParam (name : String) : ParamDecl := param (.ofParamType .bool) name

def bodied (name : String) (inputs outputs : List ParamDecl) (body : List Stmt) : RoutineDecl :=
  { name := name, inputParams := inputs, outputParams := outputs, body := body }

/-- `keys_.IndexOf(key)`. -/
def indexOfKey : Expr := callOn "keys_" "IndexOf" [var "key"]

/-- `index != -1`. -/
def indexFound : Expr := .binary {} "!=" (var "index") (.unary {} "-" (.literal {} (.int 1)))

def intType : TypeDescriptor := .ofParamType .int

def newRoutine : RoutineDecl :=
  bodied "New" [] [param (mapOf typeK typeV) "m"]
    [declare (arrayOf typeK) "keys" (callOn "Array" "New" []),
      declare (arrayOf typeV) "values" (callOn "Array" "New" []),
      .structFieldAssign {} (var "m") "keys_" (var "keys"),
      .structFieldAssign {} (var "m") "values_" (var "values")]

def sizeRoutine : RoutineDecl :=
  bodied "Size" [] [intParam "size"] [assign "size" (callOn "keys_" "Size" [])]

def isEmptyRoutine : RoutineDecl :=
  bodied "IsEmpty" [] [boolParam "empty"]
    [declare intType "size" (callOn "keys_" "Size" []),
      assign "empty" (.binary {} "==" (var "size") (.literal {} (.int 0)))]

def getRoutine : RoutineDecl :=
  bodied "Get" [param typeK "key"] [param typeV "value"]
    [declare intType "index" indexOfKey,
      assign "value" (callOn "values_" "GetIndex" [var "index"])]

def getOrRoutine : RoutineDecl :=
  bodied "GetOr" [param typeK "key", param typeV "default_value"] [param typeV "value"]
    [declare intType "index" indexOfKey,
      .ifStmt {} indexFound [assign "value" (callOn "values_" "GetIndex" [var "index"])]
        [assign "value" (var "default_value")]]

def setRoutine : RoutineDecl :=
  bodied "Set" [param typeK "key", param typeV "value"] []
    [.ifStmt {} (callOn "keys_" "Contains" [var "key"])
      [declare intType "index" indexOfKey,
        perform (callOn "values_" "SetIndex" [var "index", var "value"])]
      [perform (callOn "keys_" "PushBack" [var "key"]),
        perform (callOn "values_" "PushBack" [var "value"])]]

def removeRoutine : RoutineDecl :=
  bodied "Remove" [param typeK "key"] [boolParam "removed"]
    [declare intType "index" indexOfKey,
      assign "removed" indexFound,
      .ifStmt {} (var "removed")
        [perform (callOn "keys_" "Erase" [var "index"]),
          perform (callOn "values_" "Erase" [var "index"])] []]

def clearRoutine : RoutineDecl :=
  bodied "Clear" [] [] [perform (callOn "keys_" "Clear" []), perform (callOn "values_" "Clear" [])]

def containsRoutine : RoutineDecl :=
  bodied "Contains" [param typeK "key"] [boolParam "found"]
    [assign "found" (callOn "keys_" "Contains" [var "key"])]

def keysRoutine : RoutineDecl :=
  bodied "Keys" [] [param (arrayOf typeK) "keys"] [assign "keys" (var "keys_")]

def valuesRoutine : RoutineDecl :=
  bodied "Values" [] [param (arrayOf typeV) "values"] [assign "values" (var "values_")]

/-- `struct Map <K, V>`. -/
def mapDecl (moduleName : String) : StructDecl where
  name := "Map"
  moduleName := moduleName
  genericParams := ["K", "V"]
  fields :=
    [{ type := arrayOf typeK, name := "keys_" }, { type := arrayOf typeV, name := "values_" }]
  routines :=
    [newRoutine, sizeRoutine, isEmptyRoutine, getRoutine, getOrRoutine, setRoutine, removeRoutine,
      clearRoutine, containsRoutine, keysRoutine, valuesRoutine]

/-! ## Instances -/

def instanceName (k v : TypeDescriptor) : String := TypeDescriptor.instanceName "Map" [k, v]

def substitution (k v : TypeDescriptor) : Substitution :=
  StdMap.emplaceAll ∅ [("K", k), ("V", v)]

/-- A routine of `Map<k, v>`. -/
def instanceRoutine (k v : TypeDescriptor) (routine : RoutineDecl) : RoutineDecl :=
  monomorphizeRoutine (mapDecl "") (instanceName k v) (substitution k v) routine

/-- The declaration of `Map<k, v>`. -/
def instanceDecl (k v : TypeDescriptor) : StructDecl where
  name := instanceName k v
  fields := (mapDecl "").fields.map (monomorphizeField (substitution k v))
  routines := (mapDecl "").routines.map (instanceRoutine k v)

theorem monomorphize_mapDecl (moduleName : String) (k v : TypeDescriptor) :
    monomorphize (mapDecl moduleName) (instanceName k v) [k, v] = .ok (instanceDecl k v) := rfl

theorem genericBase_instanceName (k v : TypeDescriptor) :
    genericBase (instanceName k v) = some "Map" := by
  have hbase := baseName_instanceName "Map" [k, v]
  unfold baseName at hbase
  unfold genericBase at hbase ⊢
  unfold instanceName
  rw [if_pos (mem_instanceName "Map" [k, v])] at hbase ⊢
  exact congrArg some hbase

/-- What a registry with the array library and the map library answers about both: an
instance of the map is registered under its own name. -/
structure Registered (types : TypeRegistry) (path : String) : Prop where
  arrays : Array.Registered types path
  declared : ∃ moduleName, types.structRegistry["Map"]? = some (mapDecl moduleName)
  cached : ∀ k v decl, types.structRegistry[instanceName k v]? = some decl →
    ∃ k' v', instanceName k' v' = instanceName k v ∧ decl = instanceDecl k' v'

theorem Registered.arraysAdded {types types' : TypeRegistry} {path : String}
    (h : Registered types path) (ha : Array.Registered types' path)
    (hadded : Array.ArraysAdded types types') : Registered types' path := by
  refine ⟨ha, ?_, ?_⟩
  · obtain ⟨moduleName, hdecl⟩ := h.declared
    refine ⟨moduleName, (hadded.structs "Map" ?_).trans hdecl⟩
    decide
  · intro k v decl hdecl
    rw [hadded.structs _ (by rw [genericBase_instanceName]; decide)] at hdecl
    exact h.cached k v decl hdecl

/-- Once an instance is registered the registry still answers the same. -/
theorem Registered.registerInstance {types : TypeRegistry} {path : String}
    (h : Registered types path) (k v : TypeDescriptor) :
    Registered (types.registerMonomorphizedStruct (instanceName k v) (instanceDecl k v)) path := by
  have hother : ∀ name, genericBase name ≠ some "Map" →
      (types.registerMonomorphizedStruct (instanceName k v) (instanceDecl k v)).structRegistry[
        name]? = types.structRegistry[name]? := by
    intro name hname
    refine StdMap.getElem?_assign_ne _ _ fun he => hname ?_
    rw [← he, genericBase_instanceName]
  refine ⟨⟨?_, h.arrays.new, h.arrays.method, h.arrays.instances, ?_⟩, ?_, ?_⟩
  · obtain ⟨moduleName, hdecl⟩ := h.arrays.declared
    exact ⟨moduleName, (hother "Array" (by decide)).trans hdecl⟩
  · intro type decl hdecl
    rw [hother _ (by rw [Array.genericBase_instanceName]; decide)] at hdecl
    exact h.arrays.cached type decl hdecl
  · obtain ⟨moduleName, hdecl⟩ := h.declared
    exact ⟨moduleName, (hother "Map" (by decide)).trans hdecl⟩
  · intro k' v' decl hdecl
    change (types.structRegistry.assign (instanceName k v) (instanceDecl k v))[
      instanceName k' v']? = some decl at hdecl
    by_cases hsame : instanceName k v = instanceName k' v'
    · rw [← hsame, StdMap.getElem?_assign_self] at hdecl
      cases hdecl
      exact ⟨k, v, hsame, rfl⟩
    · rw [StdMap.getElem?_assign_ne _ _ hsame] at hdecl
      exact h.cached k' v' decl hdecl

/-! ## Types of an instance -/

theorem substitution_eq (k v : TypeDescriptor) (name : String) :
    (substitution k v)[name]? =
      if "K" = name then some k else if "V" = name then some v else none := by
  unfold substitution
  rw [StdMap.getElem?_emplaceAll, StdMap.firstWrite_cons, StdMap.firstWrite_cons]
  rfl

/-- A type of the declaration that is no type parameter stays. -/
theorem substituteType_other {k v type : TypeDescriptor} (hs : type.baseType = .struct)
    (hk : "K" ≠ type.structName) (hv : "V" ≠ type.structName) :
    substituteType (substitution k v) type = type := by
  obtain ⟨baseType, tupleElements, errorVariant, unionTypes, structName, typeArgs, elementType⟩ :=
    type
  cases hs
  unfold substituteType
  dsimp only at hk hv ⊢
  rw [substitution_eq, if_neg hk, if_neg hv]
  rfl

/-- The output of `New` is the instance itself. -/
theorem structName_newOutput (k v : TypeDescriptor) :
    (substituteOutputType (mapDecl "") (instanceName k v) (substitution k v)
      (mapOf typeK typeV)).structName = instanceName k v := by
  have htype : substituteType (substitution k v) (mapOf typeK typeV) = mapOf typeK typeV :=
    substituteType_other rfl (by decide) (by decide)
  have hname : (mapOf typeK typeV).structName = "Map<K,V>" := by decide
  have htokens : (betweenAngles "Map<K,V>").splitOn ',' = [['K'], ['V']] := by decide
  unfold substituteOutputType
  rw [htype]
  dsimp only
  rw [if_pos (by rfl), hname, if_neg (by decide), if_pos (by decide)]
  dsimp only
  unfold rebuildSelfReference
  have hk : String.ofList (trimBlanks ['K']) = "K" := by decide
  have hv : String.ofList (trimBlanks ['V']) = "V" := by decide
  rw [htokens]
  simp only [List.map_cons, List.map_nil, hk, hv, substitution_eq]
  rfl

end FalconLib.Libs.Map
