import FalconLib.Libs.AxesRefinement
import FalconLib.Libs.MapLoaded

/-!
# Runs over axes

What the registry holds once the loader has been through the array and the axes, a test that is
enough for the steps of a run to be admissible, and what programs over axes observe.
-/

namespace FalconLib.Libs.Axes

open FalconLib.Base (Comp StdMap)
open FalconLib.Dsl
open FalconLib.Dsl.RoutineRuns
open FalconLib.Libs.Array (IsArray Lists Machine Method Observed Search arrayDecl arrayModule symbol)
open FalconLib.Libs.Map (Keepable functions loadedContext plainOutputs)

/-! ## The library, loaded -/

/-- The module of the declaration. -/
def axesModule : Program where
  moduleName := "axes"
  structs := [axesDecl ""]
  ffImports := [{
    wrapperFile := "axes-wrapper.cpp"
    imports := ["/opt/falcon/include/falcon_core/"]
    buildLibs := ["/opt/falcon/lib/libfalcon_core_cpp.so"] }]

/-- The compiled wrapper of the axes. -/
def wrapper : SharedLibrary where
  path := "libaxes.so"
  symbols := ["STRUCTAxesEqual", "STRUCTAxesNotEqual", "STRUCTAxesToJSON", "STRUCTAxesFromJSON"]

/-- The registry once both modules are loaded. -/
def loadedTypes (path : String) : TypeRegistry :=
  ((AutotunerEngine.create.loadProgram ⟨arrayModule, Map.linker path⟩).1.loadProgram
    ⟨axesModule, fun _ => some wrapper⟩).1.typeRegistry

/-- The registry before the axes. -/
def arrayTypes (path : String) : TypeRegistry :=
  (AutotunerEngine.create.loadProgram ⟨arrayModule, Map.linker path⟩).1.typeRegistry

theorem arrayTypes_eq (path : String) :
    arrayTypes path = AutotunerEngine.registerForeignMethods
      { path := path, symbols := functions.map Prod.fst }
      (TypeRegistry.registerStruct {} (arrayDecl "array")) (arrayDecl "") := by
  have himports : ∀ engine, AutotunerEngine.processFfImports (Map.linker path) arrayModule
      arrayModule.ffImports engine = (AutotunerEngine.processFfImport arrayModule engine
        { path := path, symbols := functions.map Prod.fst }, true) := fun _ => rfl
  unfold arrayTypes AutotunerEngine.loadProgram
  dsimp only
  rw [himports]
  rfl

theorem loadedTypes_eq (path : String) :
    loadedTypes path = AutotunerEngine.registerForeignMethods wrapper
      ((arrayTypes path).registerStruct (axesDecl "axes")) (axesDecl "") := by
  have himports : ∀ engine, AutotunerEngine.processFfImports (fun _ => some wrapper) axesModule
      axesModule.ffImports engine =
        (AutotunerEngine.processFfImport axesModule engine wrapper, true) := fun _ => rfl
  have haxes : ∀ engine : AutotunerEngine,
      (engine.loadProgram ⟨axesModule, fun _ => some wrapper⟩).1.typeRegistry =
        AutotunerEngine.registerForeignMethods wrapper
          (engine.typeRegistry.registerStruct (axesDecl "axes")) (axesDecl "") := by
    intro engine
    unfold AutotunerEngine.loadProgram
    dsimp only
    rw [himports]
    rfl
  unfold loadedTypes arrayTypes
  rw [haxes]

theorem structRegistry_loadedTypes (path : String) :
    (loadedTypes path).structRegistry =
      (((StdMap.assign ∅ "Array" (arrayDecl "array")).assign "array::Array"
        (arrayDecl "array")).assign "Axes" (axesDecl "axes")).assign "axes::Axes"
          (axesDecl "axes") := by
  rw [loadedTypes_eq, Map.structRegistry_registerForeignMethods]
  change ((arrayTypes path).structRegistry.assign "Axes" _).assign "axes::Axes" _ = _
  rw [arrayTypes_eq, Map.structRegistry_registerForeignMethods]
  rfl

/-- The wrapper of the axes has nothing for arrays. -/
theorem ffiMethods_loadedTypes (path : String) {name : String} (hname : "Axes" ≠ name) :
    (loadedTypes path).ffiMethods[name]? = (arrayTypes path).ffiMethods[name]? := by
  rw [loadedTypes_eq]
  exact Array.getElem?_registerForeignMethods _ _ hname

/-- An instance of a struct is under none of the names that the modules declare. -/
theorem getElem?_loadedTypes (path base : String) (args : List TypeDescriptor) :
    (loadedTypes path).structRegistry[TypeDescriptor.instanceName base args]? = none := by
  have hne : ∀ name ∈ ["Array", "array::Array", "Axes", "axes::Axes"],
      name ≠ TypeDescriptor.instanceName base args := by
    intro name hname he
    have hlast : ∀ name ∈ ["Array", "array::Array", "Axes", "axes::Axes"],
        name.toList.getLast? ≠ some '>' := by decide
    refine hlast name hname ?_
    rw [he, InstanceCache.getLast?_instanceName]
  rw [structRegistry_loadedTypes, StdMap.getElem?_assign_ne _ _ (hne _ (by decide)),
    StdMap.getElem?_assign_ne _ _ (hne _ (by decide)),
    StdMap.getElem?_assign_ne _ _ (hne _ (by decide)),
    StdMap.getElem?_assign_ne _ _ (hne _ (by decide))]
  exact Std.ExtTreeMap.getElem?_empty

theorem symbol_loadedTypes (path : String) {name : String}
    (h : (arrayDecl "").routines.any
      (Array.offers (functions.map Prod.fst) (arrayDecl "") name) = true) :
    (loadedTypes path).ffiMethods["Array"]?.bind (fun methods => methods[name]?) =
      some (symbol path name) := by
  rw [ffiMethods_loadedTypes path (by decide), arrayTypes_eq]
  exact Array.registerForeignMethods_self
    { path := path, symbols := functions.map Prod.fst } _ h

theorem typeMethods_registerForeignMethods (library : SharedLibrary) (types : TypeRegistry)
    (decl : StructDecl) :
    (AutotunerEngine.registerForeignMethods library types decl).typeMethods =
      types.typeMethods := by
  unfold AutotunerEngine.registerForeignMethods
  induction decl.routines generalizing types with
  | nil => rfl
  | cons routine routines ih =>
    refine (ih _).trans ?_
    unfold AutotunerEngine.registerForeignMethod
    dsimp only
    split <;> rfl

theorem registered_load (path : String) : Registered (loadedTypes path) path := by
  have hoffers : ∀ name ∈ ["New", "PushBack", "PopBack", "GetIndex", "SetIndex", "Insert", "Erase",
      "Clear", "Size", "IsEmpty"], (arrayDecl "").routines.any
        (Array.offers (functions.map Prod.fst) (arrayDecl "") name) = true := by
    decide
  have hlast : ∀ name, name.toList.getLast? ≠ some '>' → ∀ args,
      name ≠ TypeDescriptor.instanceName "Array" args := by
    intro name hname args he
    refine hname ?_
    rw [he, InstanceCache.getLast?_instanceName]
  refine ⟨⟨⟨"array", ?_⟩, ?_, ?_, ?_, ?_⟩, ⟨"axes", ?_⟩, ?_, ?_⟩
  · rw [structRegistry_loadedTypes, StdMap.getElem?_assign_ne _ _ (by decide),
      StdMap.getElem?_assign_ne _ _ (by decide), StdMap.getElem?_assign_ne _ _ (by decide),
      StdMap.getElem?_assign_self]
  · exact symbol_loadedTypes path (hoffers "New" (by decide))
  · intro method
    refine symbol_loadedTypes path (hoffers method.name ?_)
    cases method <;> simp [Method.name]
  · intro args
    rw [ffiMethods_loadedTypes path (hlast "Axes" (by decide) args), arrayTypes_eq]
    refine (Array.getElem?_registerForeignMethods _ _ ?_).trans Std.ExtTreeMap.getElem?_empty
    exact hlast "Array" (by decide) args
  · intro type decl hdecl
    rw [getElem?_loadedTypes] at hdecl
    cases hdecl
  · rw [structRegistry_loadedTypes, StdMap.getElem?_assign_ne _ _ (by decide),
      StdMap.getElem?_assign_self]
  · intro type decl hdecl
    have hnone := getElem?_loadedTypes path "Axes" [type]
    unfold instanceName at hdecl
    rw [hnone] at hdecl
    cases hdecl
  · have hstruct : ∀ (types : TypeRegistry) (decl : StructDecl),
        (types.registerStruct decl).typeMethods = types.typeMethods := fun _ _ => rfl
    have htypes : (loadedTypes path).typeMethods = ∅ := by
      rw [loadedTypes_eq, typeMethods_registerForeignMethods, hstruct, arrayTypes_eq,
        typeMethods_registerForeignMethods, hstruct]
    rw [htypes]
    exact Std.ExtTreeMap.getElem?_empty

/-- A process that runs with the modules loaded. -/
def loadedWorld : World Unit where
  types := loadedTypes "libarray.so"
  store := ()

theorem linked_load : Linked loadedContext loadedWorld.types "libarray.so" := by
  have hoffers : ∀ name ∈ ["Contains", "IndexOf"], (arrayDecl "").routines.any
      (Array.offers (functions.map Prod.fst) (arrayDecl "") name) = true := by
    decide
  refine ⟨Map.linked_load.opened, registered_load _, Map.linked_load.searchable.opened, ?_⟩
  intro search
  refine symbol_loadedTypes _ (hoffers search.name ?_)
  cases search <;> simp [Search.name]

/-! ## A test for admissible runs -/

instance (search : Search) (value : RuntimeValue) : Decidable (Call.Sought search value) :=
  match search, value with
  | _, .tuple _ | _, .array _ => .isFalse id
  | .contains, .struct _ => .isTrue rfl
  | .indexOf, .struct _ => .isFalse nofun
  | _, .int _ | _, .float _ | _, .bool _ | _, .string _ | _, .nil | _, .error _ => .isTrue trivial

instance (heap : Heap) (call : Call) : Decidable (call.Sent heap) :=
  match call with
  | .of method =>
    inferInstanceAs (Decidable (∀ value ∈ method.operation.operands, Keepable heap value))
  | .find search value =>
    inferInstanceAs (Decidable (Call.Sought search value ∧ Keepable heap value))

section Test

variable {S : Type}

/-- The variable holds an object whose field is nil. -/
def blank (m : Machine S) (x : String) : Bool :=
  match m.env[x]? with
  | some (.struct id) => m.world.heap.field? id "arr_" == some .nil
  | _ => false

def fits (m : Machine S) : Command → Bool
  | .new _ _ => m.env["Axes"]?.isNone
  | .renew _ x _ => blank m x
  | .share _ _ _ => true
  | .call x call =>
    decide (call.Sent m.world.heap) && plainOutputs m x call.name &&
      (!blank m x || (call.run []).isNone)

def admissible (ctx : Context S) (fuel : Nat) (m : Machine S) : List Command → Bool
  | [] => true
  | command :: program => fits m command && admissible ctx fuel (step ctx fuel m command).2 program

variable {m : Machine S}

theorem blank_iff {x : String} {p : Place} (henv : m.env[x]? = some (.struct p.id))
    (hm : IsAxes m.world p) : blank m x = true ↔ p.array = none := by
  unfold blank
  rw [henv]
  dsimp only
  rw [hm.field, beq_iff_eq, Option.some_inj]
  unfold Place.field
  cases p.array with
  | none => exact iff_of_true rfl rfl
  | some array => exact iff_of_false nofun nofun

theorem plainOutputs_of_isAxes {x : String} {p : Place} (henv : m.env[x]? = some (.struct p.id))
    (hm : IsAxes m.world p) (call : Call) :
    plainOutputs m x call.name =
      (instanceRoutine p.type call.routine).outputParams.all (!·.type.isStruct) := by
  obtain ⟨object, hobject, htype⟩ := hm.object
  unfold plainOutputs
  rw [henv]
  dsimp only
  rw [hobject, Option.bind_some, htype, hm.declared, Option.bind_some, findRoutine_call,
    Option.all_some]

theorem fits_sound (ctx : Context S) (fuel : Nat) (path : String) {command : Command}
    (h : fits m command = true) : Fits ctx fuel path m command := by
  cases command with
  | new x type =>
    intro p elements henv
    unfold fits at h
    rw [henv] at h
    cases h
  | renew y x type =>
    intro p elements henv hm hstored
    unfold Stored at hstored
    rw [(blank_iff henv hm).mp h] at hstored
    exact hstored
  | share y x type => trivial
  | call x call =>
    unfold fits at h
    obtain ⟨hleft, hready⟩ := Bool.and_eq_true_iff.mp h
    obtain ⟨hsent, hplain⟩ := Bool.and_eq_true_iff.mp hleft
    refine ⟨of_decide_eq_true hsent, fun p henv hm => ⟨?_, ?_⟩⟩
    · rw [plainOutputs_of_isAxes henv hm, List.all_eq_true] at hplain
      intro out hout hstruct
      have hfalse := hplain out hout
      rw [hstruct] at hfalse
      cases hfalse
    · intro hnone
      rw [(blank_iff henv hm).mpr hnone, Bool.not_true, Bool.false_or] at hready
      exact Option.isNone_iff_eq_none.mp hready

theorem admissible_sound (ctx : Context S) (fuel : Nat) (path : String) {program : List Command}
    (h : admissible ctx fuel m program = true) : Admissible ctx fuel path m program := by
  induction program generalizing m with
  | nil => trivial
  | cons command program ih =>
    obtain ⟨hfits, hrest⟩ := Bool.and_eq_true_iff.mp h
    exact ⟨fits_sound ctx fuel path hfits, ih hrest⟩

end Test

/-! ## Programs -/

section Programs

variable {S : Type} {ctx : Context S} {path : String} {w : World S} {program : List Command}

/-- Programs whose axes are given arrays before they are called observe what they observe on
lists, and the axes hold the lists afterwards. -/
theorem axes_refine_lists (hl : Linked ctx w.types path) (fuel : Nat) (hscoped : Scoped [] program)
    (hfits : Admissible ctx fuel path { world := w } program) :
    (run ctx fuel { world := w } program).1 = (Lists.run {} program).1 ∧
      Represents ctx path (run ctx fuel { world := w } program).2 (Lists.run {} program).2 :=
  (represents_start hl).run fuel (fun _ hx => absurd hx List.not_mem_nil) hscoped hfits

end Programs

def intType : TypeDescriptor := .ofParamType .int

/-- New axes are given an array through a second call of `New`. -/
def filling : List Command :=
  [.new "a" intType, .renew "b" "a" intType, .share "c" "a" intType,
    .call "a" (.of (.pushBack (.int 5))), .call "c" (.of .size),
    .call "c" (.find .contains (.int 5)), .call "a" (.of (.getIndex 0)),
    .call "b" (.of .popBack)]

theorem axes_refine_lists_filling :
    (run loadedContext 0 { world := loadedWorld } filling).1 =
      [.returned .nil, .returned .nil, .returned .nil, .returned .nil, .returned (.int 1),
        .returned (.bool true), .returned (.int 5), .raised] := by
  have hscoped : Scoped [] filling := by
    simp [Scoped, filling, Command.receiver, Command.declared]
  have hfits : admissible loadedContext 0 { world := loadedWorld } filling = true := by
    decide +kernel
  rw [(axes_refine_lists linked_load 0 hscoped
    (admissible_sound loadedContext 0 "libarray.so" hfits)).1]
  rfl

/-- An element is appended to new axes. -/
def appending : List Command :=
  [.new "axes" intType, .call "axes" (.of (.pushBack (.int 10)))]

/-- A list takes the element, the field of new axes is nil. -/
theorem not_axes_refine_lists_appending :
    (run loadedContext 0 { world := loadedWorld } appending).1 ≠ (Lists.run {} appending).1 := by
  have hmachine : (run loadedContext 0 { world := loadedWorld } appending).1 =
      [.returned .nil, .raised] := by
    decide +kernel
  have hlists : (Lists.run {} appending).1 = [.returned .nil, .returned .nil] := rfl
  rw [hmachine, hlists]
  decide

end FalconLib.Libs.Axes
