import FalconLib.Libs.ArrayRefinement
import FalconLib.Libs.MapMachine

/-!
# The map library, loaded

What the registry holds once the loader has been through the array and the map, and a test on
the states of a run that is enough for its steps to be admissible.
-/

namespace FalconLib.Libs.Map

open FalconLib.Base (Comp StdMap Table)
open FalconLib.Base.Table (Operation)
open FalconLib.Dsl
open FalconLib.Libs.Array (IsArray Machine Method Search Implements arrayDecl arrayModule symbol)
open FalconLib.Typing.FFI

/-! ## The registry -/

/-- The module of the declaration. -/
def mapModule : Program where
  moduleName := "map"
  structs := [mapDecl ""]

/-- The functions of the array wrapper under their symbols, searches included. -/
def functions : List (String × FalconFFIFunc) :=
  Array.functions ++
    [("STRUCTArrayContains", Array.contains), ("STRUCTArrayIndexOf", Array.indexOf)]

/-- A linker that compiles the wrapper to `path`. -/
def linker (path : String) : Linker := fun _ =>
  some { path := path, symbols := functions.map Prod.fst }

/-- A process that has the compiled wrapper open and nothing else. -/
def host : Host Unit where
  call symbol _ heap store := (.error (.other ("no symbol " ++ symbol.symbol)), heap, store)
  callMethod symbol _ params heap store :=
    match functions.lookup symbol.symbol with
    | some function =>
      match (callForeign function params heap).outcome with
      | .ok values heap => (.ok values, heap, store)
      | .throw e heap => (.error e, heap, store)
      | .halt _ => (.error (.other "undefined behaviour"), heap, store)
    | none => (.error (.other ("no symbol " ++ symbol.symbol)), heap, store)

theorem implements_host {path name : String} {function : FalconFFIFunc}
    (h : functions.lookup (symbol path name).symbol = some function) :
    Implements host (symbol path name) function := by
  intro receiver params heap store
  have hcall : host.callMethod (symbol path name) receiver params heap store =
      match (callForeign function params heap).outcome with
      | .ok values heap => (.ok values, heap, store)
      | .throw e heap => (.error e, heap, store)
      | .halt _ => (.error (.other "undefined behaviour"), heap, store) := by
    unfold host
    dsimp only
    rw [h]
  rw [hcall]
  cases (callForeign function params heap).outcome with
  | ok values heap' => rfl
  | throw e heap' => rfl
  | halt _ => trivial

/-- The registry once both modules are loaded. -/
def loadedTypes (path : String) : TypeRegistry :=
  ((AutotunerEngine.create.loadProgram ⟨arrayModule, linker path⟩).1.loadProgram
    ⟨mapModule, linker path⟩).1.typeRegistry

/-- The array module brings the wrapper along, the map module nothing but its declaration. -/
theorem loadedTypes_eq (path : String) :
    loadedTypes path = TypeRegistry.registerStruct (AutotunerEngine.registerForeignMethods
      { path := path, symbols := functions.map Prod.fst }
      (TypeRegistry.registerStruct {} (arrayDecl "array")) (arrayDecl "")) (mapDecl "map") := by
  have himports : ∀ engine, AutotunerEngine.processFfImports (linker path) arrayModule
      arrayModule.ffImports engine = (AutotunerEngine.processFfImport arrayModule engine
        { path := path, symbols := functions.map Prod.fst }, true) := fun _ => rfl
  have harray : (AutotunerEngine.create.loadProgram ⟨arrayModule, linker path⟩).1.typeRegistry =
      AutotunerEngine.registerForeignMethods
        { path := path, symbols := functions.map Prod.fst }
        (TypeRegistry.registerStruct {} (arrayDecl "array")) (arrayDecl "") := by
    unfold AutotunerEngine.loadProgram
    dsimp only
    rw [himports]
    rfl
  have hmap : ∀ engine : AutotunerEngine, (engine.loadProgram ⟨mapModule, linker path⟩).1.typeRegistry =
      TypeRegistry.registerStruct engine.typeRegistry (mapDecl "map") := fun _ => rfl
  unfold loadedTypes
  rw [hmap, harray]

theorem structRegistry_registerForeignMethods (library : SharedLibrary) (types : TypeRegistry)
    (decl : StructDecl) :
    (AutotunerEngine.registerForeignMethods library types decl).structRegistry =
      types.structRegistry := by
  unfold AutotunerEngine.registerForeignMethods
  induction decl.routines generalizing types with
  | nil => rfl
  | cons routine routines ih =>
    refine (ih _).trans ?_
    unfold AutotunerEngine.registerForeignMethod
    dsimp only
    split <;> rfl

theorem structRegistry_loadedTypes (path : String) :
    (loadedTypes path).structRegistry =
      (((StdMap.assign ∅ "Array" (arrayDecl "array")).assign "array::Array"
        (arrayDecl "array")).assign "Map" (mapDecl "map")).assign "map::Map" (mapDecl "map") := by
  rw [loadedTypes_eq]
  change ((AutotunerEngine.registerForeignMethods _ _ _).structRegistry.assign "Map" _).assign
    "map::Map" _ = _
  rw [structRegistry_registerForeignMethods]
  rfl

theorem ffiMethods_registerStruct (types : TypeRegistry) (decl : StructDecl) :
    (types.registerStruct decl).ffiMethods = types.ffiMethods := rfl

theorem ffiMethods_loadedTypes (path : String) :
    (loadedTypes path).ffiMethods = (AutotunerEngine.registerForeignMethods
      { path := path, symbols := functions.map Prod.fst }
      (TypeRegistry.registerStruct {} (arrayDecl "array")) (arrayDecl "")).ffiMethods := by
  rw [loadedTypes_eq, ffiMethods_registerStruct]

/-- An instance of a struct is under none of the names that the modules declare. -/
theorem getElem?_loadedTypes (path base : String) (args : List TypeDescriptor) :
    (loadedTypes path).structRegistry[TypeDescriptor.instanceName base args]? = none := by
  have hne : ∀ name ∈ ["Array", "array::Array", "Map", "map::Map"],
      name ≠ TypeDescriptor.instanceName base args := by
    intro name hname he
    have hlast : ∀ name ∈ ["Array", "array::Array", "Map", "map::Map"],
        name.toList.getLast? ≠ some '>' := by decide
    refine hlast name hname ?_
    rw [he, InstanceCache.getLast?_instanceName]
  rw [structRegistry_loadedTypes, StdMap.getElem?_assign_ne _ _ (hne _ (by decide)),
    StdMap.getElem?_assign_ne _ _ (hne _ (by decide)),
    StdMap.getElem?_assign_ne _ _ (hne _ (by decide)),
    StdMap.getElem?_assign_ne _ _ (hne _ (by decide))]
  exact Std.ExtTreeMap.getElem?_empty

theorem symbol_loadedTypes (path : String) {name : String}
    (h : (arrayDecl "").routines.any
      (Array.offers (functions.map Prod.fst) (arrayDecl "") name) = true) :
    (loadedTypes path).ffiMethods["Array"]?.bind (fun methods => methods[name]?) =
      some (symbol path name) := by
  rw [ffiMethods_loadedTypes]
  exact Array.registerForeignMethods_self
    { path := path, symbols := functions.map Prod.fst } _ h

theorem registered_load (path : String) : Registered (loadedTypes path) path := by
  have hoffers : ∀ name ∈ ["New", "PushBack", "PopBack", "GetIndex", "SetIndex", "Insert", "Erase",
      "Clear", "Size", "IsEmpty"], (arrayDecl "").routines.any
        (Array.offers (functions.map Prod.fst) (arrayDecl "") name) = true := by
    decide
  refine ⟨⟨⟨"array", ?_⟩, ?_, ?_, ?_, ?_⟩, ⟨"map", ?_⟩, ?_⟩
  · rw [structRegistry_loadedTypes, StdMap.getElem?_assign_ne _ _ (by decide),
      StdMap.getElem?_assign_ne _ _ (by decide), StdMap.getElem?_assign_ne _ _ (by decide),
      StdMap.getElem?_assign_self]
  · exact symbol_loadedTypes path (hoffers "New" (by decide))
  · intro method
    refine symbol_loadedTypes path (hoffers method.name ?_)
    cases method <;> simp [Method.name]
  · intro args
    rw [ffiMethods_loadedTypes]
    refine (Array.getElem?_registerForeignMethods _ _ ?_).trans Std.ExtTreeMap.getElem?_empty
    intro he
    have hlast : "Array".toList.getLast? ≠ some '>' := by decide
    refine hlast ?_
    rw [← InstanceCache.getLast?_instanceName "Array" args, ← he]
    rfl
  · intro type decl hdecl
    rw [getElem?_loadedTypes] at hdecl
    cases hdecl
  · rw [structRegistry_loadedTypes, StdMap.getElem?_assign_ne _ _ (by decide),
      StdMap.getElem?_assign_self]
  · intro k v decl hdecl
    have hnone := getElem?_loadedTypes path "Map" [k, v]
    unfold instanceName at hdecl
    rw [hnone] at hdecl
    cases hdecl

/-- A process that runs with the modules loaded. -/
def loadedWorld : World Unit where
  types := loadedTypes "libarray.so"
  store := ()

def loadedContext : Context Unit := { host := host }

theorem linked_load : Linked loadedContext loadedWorld.types "libarray.so" := by
  refine ⟨⟨implements_host rfl, ?_⟩, registered_load _, ?_, ?_⟩
  · intro method
    cases method <;> exact implements_host rfl
  · intro search
    cases search <;> exact implements_host rfl
  · have hoffers : ∀ name ∈ ["Contains", "IndexOf"], (arrayDecl "").routines.any
        (Array.offers (functions.map Prod.fst) (arrayDecl "") name) = true := by
      decide
    intro search
    refine symbol_loadedTypes _ (hoffers search.name ?_)
    cases search <;> simp [Search.name]

/-! ## A test for admissible runs -/

instance (value : RuntimeValue) : Decidable (Array.Scalar value) := by
  cases value <;> unfold Array.Scalar <;> infer_instance

instance (value : RuntimeValue) : Decidable (Array.Short value) := by
  cases value <;> unfold Array.Short <;> infer_instance

instance (value : RuntimeValue) : Decidable (Key value) :=
  inferInstanceAs (Decidable (Array.Scalar value ∧ Array.Short value))

theorem keepable_struct_iff (heap : Heap) (id : Nat) :
    Keepable heap (.struct id) ↔ heap.structs[id]?.map StructInstance.nativeHandle = some none := by
  rw [Option.map_eq_some_iff]
  rfl

instance (heap : Heap) (value : RuntimeValue) : Decidable (Keepable heap value) :=
  match value with
  | .struct id => decidable_of_iff _ (keepable_struct_iff heap id).symm
  | .string text => inferInstanceAs (Decidable (byteCount text.toList < 2 ^ 31))
  | .int _ | .float _ | .bool _ | .nil | .error _ | .tuple _ | .array _ => .isTrue trivial

section Test

variable {S : Type}

/-- The routine that a call on a variable runs has no output of a struct type. -/
def plainOutputs (m : Machine S) (x name : String) : Bool :=
  match m.env[x]? with
  | some (.struct id) =>
    ((m.world.heap.structs[id]?.bind fun object =>
      m.world.types.structRegistry[object.typeName]?).bind fun decl =>
        decl.findRoutine name).all fun routine => routine.outputParams.all (!·.type.isStruct)
  | _ => true

/-- The elements behind a variable. -/
def elementsOf (m : Machine S) (y : String) : Option (List RuntimeValue) :=
  match m.env[y]? with
  | some (.struct id) =>
    ((m.world.heap.structs[id]?.bind StructInstance.nativeHandle).bind fun handle =>
      m.world.heap.arrays[handle]?).map ArrayValue.elements
  | _ => none

def keepsElements (m : Machine S) (y : String) (method : Method) : Bool :=
  match elementsOf m y with
  | some elements => (method.operation.run elements).all fun result => result.2 == elements
  | none => true

def fits (m : Machine S) : Command → Bool
  | .call x operation =>
    operation.newKeys.all (fun key => decide (Key key)) &&
      operation.newValues.all (fun value => decide (Keepable m.world.heap value)) &&
        m.world.heap.arrays.all (fun array => decide (array.elements.length < 2 ^ 63)) &&
          plainOutputs m x (routineOf operation).name
  | .array y method =>
    method.operation.operands.all (fun value => decide (Keepable m.world.heap value)) &&
      keepsElements m y method
  | .search _ _ value => decide (Keepable m.world.heap value)
  | _ => true

def admissible (ctx : Context S) (fuel : Nat) (m : Machine S) : List Command → Bool
  | [] => true
  | command :: program => fits m command && admissible ctx fuel (step ctx fuel m command).2 program

variable {m : Machine S}

theorem elementsOf_of_isArray {y : String} {id handle : Nat} {elements : List RuntimeValue}
    (henv : m.env[y]? = some (.struct id)) (hid : IsArray m.world.heap id handle elements) :
    elementsOf m y = some elements := by
  obtain ⟨object, hobject, _, hhandle⟩ := hid.instance_
  obtain ⟨array, harray, helements⟩ := hid.elements
  unfold elementsOf
  rw [henv]
  dsimp only
  rw [hobject, Option.bind_some, hhandle, Option.bind_some, harray, Option.map_some, helements]

theorem plainOutputs_of_isMap {x : String} {p : Place} (henv : m.env[x]? = some (.struct p.id))
    (hm : IsMap m.world p) (operation : MapOperation) :
    plainOutputs m x (routineOf operation).name =
      (instanceRoutine p.keyType p.valueType (routineOf operation)).outputParams.all
        (!·.type.isStruct) := by
  obtain ⟨object, hobject, htype⟩ := hm.object
  unfold plainOutputs
  rw [henv]
  dsimp only
  rw [hobject, Option.bind_some, htype, hm.declared, Option.bind_some, findRoutine_routineOf,
    Option.all_some]

theorem fits_sound (ctx : Context S) (fuel : Nat) (path : String) {command : Command}
    (h : fits m command = true) : Fits ctx fuel path m command := by
  cases command with
  | call x operation =>
    unfold fits at h
    simp only [Bool.and_eq_true, List.all_eq_true, decide_eq_true_eq] at h
    obtain ⟨⟨⟨hkeys, hvalues⟩, hlengths⟩, hplain⟩ := h
    refine ⟨hkeys, hvalues, fun p henv hm => ⟨?_, ?_⟩⟩
    · intro keys hkeys
      obtain ⟨array, harray, rfl⟩ := hkeys.elements
      exact hlengths array (List.mem_of_getElem? harray)
    · rw [plainOutputs_of_isMap henv hm, List.all_eq_true] at hplain
      intro out hout hstruct
      have hfalse := hplain out hout
      rw [hstruct] at hfalse
      cases hfalse
  | array y method =>
    unfold fits at h
    simp only [Bool.and_eq_true, List.all_eq_true, decide_eq_true_eq] at h
    obtain ⟨hoperands, hkeeps⟩ := h
    refine ⟨hoperands, fun id handle elements henv hid reply left hrun => ?_⟩
    unfold keepsElements at hkeeps
    rw [elementsOf_of_isArray henv hid] at hkeeps
    dsimp only at hkeeps
    rw [hrun, Option.all_some] at hkeeps
    exact beq_iff_eq.mp hkeeps
  | search y search value =>
    change Keepable m.world.heap value
    exact of_decide_eq_true h
  | _ => trivial

theorem admissible_sound (ctx : Context S) (fuel : Nat) (path : String) {program : List Command}
    (h : admissible ctx fuel m program = true) : Admissible ctx fuel path m program := by
  induction program generalizing m with
  | nil => trivial
  | cons command program ih =>
    obtain ⟨hfits, hrest⟩ := Bool.and_eq_true_iff.mp h
    exact ⟨fits_sound ctx fuel path hfits, ih hrest⟩

end Test

end FalconLib.Libs.Map
