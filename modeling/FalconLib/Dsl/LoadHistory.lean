import FalconLib.Dsl.AutotunerEngine

/-!
# What a load writes

A load touches the tables of the engine by a list of writes that depends on the load
alone: each registers one name in one table. The tables after any sequence of loads
are the writes of all of them, one after the other.
-/

namespace FalconLib.Dsl.LoadHistory

open FalconLib.Base
open AutotunerEngine

/-- One write to one table of the engine. -/
inductive Write where
  | function (registration : Registration ExternalFunction)
  | autotuner (qname : String) (decl : AutotunerDecl)
  | routine (qname : String) (decl : RoutineDecl)
  | struct (name : String) (decl : StructDecl)
  | ffiMethod (typeName methodName : String) (symbol : ForeignSymbol)

namespace Write

def apply (engine : AutotunerEngine) : Write → AutotunerEngine
  | function registration =>
    { engine with functionRegistry := registration.apply engine.functionRegistry }
  | autotuner qname decl =>
    { engine with loadedAutotuners := engine.loadedAutotuners.assign qname decl }
  | routine qname decl =>
    { engine with routineDeclarations := engine.routineDeclarations.assign qname decl }
  | struct name decl =>
    { engine with typeRegistry := engine.typeRegistry.registerMonomorphizedStruct name decl }
  | ffiMethod typeName methodName symbol =>
    { engine with
      typeRegistry := engine.typeRegistry.registerFfiMethod typeName methodName symbol }

/-- The lookup whose answer the write can change. -/
def query : Write → Query
  | function registration => .function registration.name
  | autotuner qname _ => .autotuner qname
  | routine qname _ => .routine qname
  | struct name _ => .structType name
  | ffiMethod typeName methodName _ => .ffiMethod typeName methodName

end Write

def applyAll (engine : AutotunerEngine) (writes : List Write) : AutotunerEngine :=
  writes.foldl Write.apply engine

theorem applyAll_append (engine : AutotunerEngine) (ws₁ ws₂ : List Write) :
    applyAll engine (ws₁ ++ ws₂) = applyAll (applyAll engine ws₁) ws₂ :=
  List.foldl_append

/-! ## The writes of a load -/

/-- The names a declaration is registered under: the bare one, then the qualified one. -/
def names (moduleName name : String) : List String :=
  if moduleName.isEmpty then [name] else [name, moduleName ++ "::" ++ name]

def structWrites (decl : StructDecl) : List Write :=
  (names decl.moduleName decl.name).map fun name => .struct name decl

def autotunerWrites (autotuner : AutotunerDecl) : List Write :=
  let qname := qualifiedName autotuner.moduleName autotuner.name
  .autotuner qname autotuner ::
    (names autotuner.moduleName autotuner.name).map fun name =>
      .function (.autotuner (signature name autotuner.inputParams autotuner.outputParams)
        (.autotuner qname))

/-- The info an inline routine is registered with under one of its names. -/
def inlineInfo (routine : RoutineDecl) (name : String) : RoutineInfo ExternalFunction :=
  ⟨name, "<inline>", .inlineRoutine (qualifiedName routine.moduleName routine.name),
    signature name routine.inputParams routine.outputParams⟩

def inlineWrites (routine : RoutineDecl) : List Write :=
  if routine.body.isEmpty then []
  else (names routine.moduleName routine.name).map fun name =>
    .function (.routine (inlineInfo routine name))

def routineWrites (routine : RoutineDecl) : List Write :=
  inlineWrites routine ++ [.routine (qualifiedName routine.moduleName routine.name) routine]

/-- A routine without body whose symbol the library offers. -/
def offers (library : SharedLibrary) (routine : RoutineDecl) : Bool :=
  routine.body.isEmpty && library.symbols.contains routine.name

/-- The info a library routine is registered with. -/
def foreignInfo (library : SharedLibrary) (routine : RoutineDecl) : RoutineInfo ExternalFunction :=
  ⟨routine.name, library.path, .foreign ⟨library.path, routine.name⟩,
    ⟨routine.name, paramSpecs routine.inputParams true, paramSpecs routine.outputParams false⟩⟩

def foreignWrites (library : SharedLibrary) (routine : RoutineDecl) : List Write :=
  if offers library routine then [.function (.routine (foreignInfo library routine))] else []

def methodWrites (library : SharedLibrary) (decl : StructDecl) (routine : RoutineDecl) :
    List Write :=
  let symbol := methodSymbol decl routine
  if routine.body.isEmpty && library.symbols.contains symbol then
    [.ffiMethod decl.name routine.name ⟨library.path, symbol⟩]
  else []

def libraryWrites (program : Program) (library : SharedLibrary) : List Write :=
  (program.structs.flatMap fun decl => decl.routines.flatMap (methodWrites library decl)) ++
    program.routines.flatMap (foreignWrites library)

/-- The libraries up to the first that cannot be opened, and whether there is none. -/
def openLibraries (linker : Linker) : List FFImportDecl → List SharedLibrary × Bool
  | [] => ([], true)
  | ffi :: ffis =>
    match linker ffi with
    | some library =>
      let (libraries, complete) := openLibraries linker ffis
      (library :: libraries, complete)
    | none => ([], false)

def libraries (load : Load) : List SharedLibrary :=
  (openLibraries load.linker load.program.ffImports).1

/-- All its libraries could be opened, so that the load succeeds. -/
def complete (load : Load) : Bool := (openLibraries load.linker load.program.ffImports).2

def declarationWrites (load : Load) : List Write :=
  if complete load then
    load.autotuners.flatMap autotunerWrites ++ load.routines.flatMap routineWrites
  else []

def writes (load : Load) : List Write :=
  load.structs.flatMap structWrites ++
    (libraries load).flatMap (libraryWrites load.program) ++ declarationWrites load

theorem mem_names {moduleName name n : String} :
    n ∈ names moduleName name ↔
      n = name ∨ moduleName ≠ "" ∧ n = moduleName ++ "::" ++ name := by
  unfold names
  by_cases h : moduleName.isEmpty
  · rw [if_pos h, List.mem_singleton]
    have he := String.isEmpty_iff.mp h
    exact ⟨.inl, fun hn => hn.resolve_right fun hc => hc.1 he⟩
  · rw [if_neg h, List.mem_cons, List.mem_singleton]
    have hne : moduleName ≠ "" := fun he => h (String.isEmpty_iff.mpr he)
    exact ⟨fun hn => hn.imp_right fun hq => ⟨hne, hq⟩, fun hn => hn.imp_right And.right⟩

/-- The writes of a load, by what they come from. -/
inductive Writes (load : Load) : Write → Prop
  | struct {decl : StructDecl} {name : String} (hd : decl ∈ load.structs)
      (hn : name ∈ names decl.moduleName decl.name) : Writes load (.struct name decl)
  | ffiMethod {library : SharedLibrary} {decl : StructDecl} {routine : RoutineDecl}
      (hl : library ∈ libraries load) (hd : decl ∈ load.program.structs)
      (hr : routine ∈ decl.routines) (hb : routine.body.isEmpty)
      (hs : library.symbols.contains (methodSymbol decl routine)) :
      Writes load (.ffiMethod decl.name routine.name ⟨library.path, methodSymbol decl routine⟩)
  | foreign {library : SharedLibrary} {decl : RoutineDecl} (hl : library ∈ libraries load)
      (hd : decl ∈ load.program.routines) (ho : offers library decl) :
      Writes load (.function (.routine (foreignInfo library decl)))
  | autotuner {decl : AutotunerDecl} (hc : complete load) (hd : decl ∈ load.autotuners) :
      Writes load (.autotuner (qualifiedName decl.moduleName decl.name) decl)
  | autotunerFunction {decl : AutotunerDecl} {name : String} (hc : complete load)
      (hd : decl ∈ load.autotuners) (hn : name ∈ names decl.moduleName decl.name) :
      Writes load (.function (.autotuner (signature name decl.inputParams decl.outputParams)
        (.autotuner (qualifiedName decl.moduleName decl.name))))
  | inlineRoutine {decl : RoutineDecl} {name : String} (hc : complete load)
      (hd : decl ∈ load.routines) (hb : decl.body.isEmpty = false)
      (hn : name ∈ names decl.moduleName decl.name) :
      Writes load (.function (.routine (inlineInfo decl name)))
  | routine {decl : RoutineDecl} (hc : complete load) (hd : decl ∈ load.routines) :
      Writes load (.routine (qualifiedName decl.moduleName decl.name) decl)

section Members

variable {load : Load} {w : Write}

theorem writes_of_libraryWrites {library : SharedLibrary} (hl : library ∈ libraries load)
    (hw : w ∈ libraryWrites load.program library) : Writes load w := by
  rcases List.mem_append.mp hw with hw | hw
  · obtain ⟨decl, hd, hw⟩ := List.mem_flatMap.mp hw
    obtain ⟨routine, hr, hw⟩ := List.mem_flatMap.mp hw
    unfold methodWrites at hw
    dsimp only at hw
    split at hw
    · rename_i h
      rw [Bool.and_eq_true] at h
      rw [List.mem_singleton.mp hw]
      exact .ffiMethod hl hd hr h.1 h.2
    · exact absurd hw List.not_mem_nil
  · obtain ⟨routine, hr, hw⟩ := List.mem_flatMap.mp hw
    unfold foreignWrites at hw
    split at hw
    · rename_i ho
      rw [List.mem_singleton.mp hw]
      exact .foreign hl hr ho
    · exact absurd hw List.not_mem_nil

theorem writes_of_routineWrites {decl : RoutineDecl} (hc : complete load)
    (hd : decl ∈ load.routines) (hw : w ∈ routineWrites decl) : Writes load w := by
  rcases List.mem_append.mp hw with hw | hw
  · unfold inlineWrites at hw
    split at hw
    · exact absurd hw List.not_mem_nil
    · rename_i hb
      obtain ⟨name, hn, rfl⟩ := List.mem_map.mp hw
      exact .inlineRoutine hc hd (Bool.not_eq_true _ ▸ hb) hn
  · rw [List.mem_singleton.mp hw]
    exact .routine hc hd

theorem writes_of_mem (hw : w ∈ writes load) : Writes load w := by
  rcases List.mem_append.mp hw with hw | hw
  · rcases List.mem_append.mp hw with hw | hw
    · obtain ⟨decl, hd, hw⟩ := List.mem_flatMap.mp hw
      obtain ⟨name, hn, rfl⟩ := List.mem_map.mp hw
      exact .struct hd hn
    · obtain ⟨library, hl, hw⟩ := List.mem_flatMap.mp hw
      exact writes_of_libraryWrites hl hw
  · unfold declarationWrites at hw
    split at hw
    · rename_i hc
      rcases List.mem_append.mp hw with hw | hw
      · obtain ⟨decl, hd, hw⟩ := List.mem_flatMap.mp hw
        rcases List.mem_cons.mp hw with rfl | hw
        · exact .autotuner hc hd
        · obtain ⟨name, hn, rfl⟩ := List.mem_map.mp hw
          exact .autotunerFunction hc hd hn
      · obtain ⟨decl, hd, hw⟩ := List.mem_flatMap.mp hw
        exact writes_of_routineWrites hc hd hw
    · exact absurd hw List.not_mem_nil

theorem mem_of_autotunerWrites {decl : AutotunerDecl} (hc : complete load)
    (hd : decl ∈ load.autotuners) (hw : w ∈ autotunerWrites decl) : w ∈ writes load := by
  refine List.mem_append_right _ ?_
  unfold declarationWrites
  rw [if_pos hc]
  exact List.mem_append_left _ (List.mem_flatMap.mpr ⟨decl, hd, hw⟩)

theorem mem_of_routineWrites {decl : RoutineDecl} (hc : complete load)
    (hd : decl ∈ load.routines) (hw : w ∈ routineWrites decl) : w ∈ writes load := by
  refine List.mem_append_right _ ?_
  unfold declarationWrites
  rw [if_pos hc]
  exact List.mem_append_right _ (List.mem_flatMap.mpr ⟨decl, hd, hw⟩)

theorem mem_of_libraryWrites {library : SharedLibrary} (hl : library ∈ libraries load)
    (hw : w ∈ libraryWrites load.program library) : w ∈ writes load :=
  List.mem_append_left _ (List.mem_append_right _ (List.mem_flatMap.mpr ⟨library, hl, hw⟩))

theorem mem_of_writes (h : Writes load w) : w ∈ writes load := by
  cases h with
  | struct hd hn =>
    exact List.mem_append_left _ <| List.mem_append_left _ <|
      List.mem_flatMap.mpr ⟨_, hd, List.mem_map_of_mem hn⟩
  | ffiMethod hl hd hr hb hs =>
    refine mem_of_libraryWrites hl (List.mem_append_left _ (List.mem_flatMap.mpr ⟨_, hd,
      List.mem_flatMap.mpr ⟨_, hr, ?_⟩⟩))
    unfold methodWrites
    dsimp only
    rw [hb, hs, Bool.and_self, if_pos rfl]
    exact List.mem_singleton_self _
  | foreign hl hd ho =>
    refine mem_of_libraryWrites hl (List.mem_append_right _ (List.mem_flatMap.mpr ⟨_, hd, ?_⟩))
    unfold foreignWrites
    rw [if_pos ho]
    exact List.mem_singleton_self _
  | autotuner hc hd => exact mem_of_autotunerWrites hc hd List.mem_cons_self
  | autotunerFunction hc hd hn =>
    exact mem_of_autotunerWrites hc hd
      (List.mem_cons_of_mem _ (List.mem_map.mpr ⟨_, hn, rfl⟩))
  | inlineRoutine hc hd hb hn =>
    refine mem_of_routineWrites hc hd (List.mem_append_left _ ?_)
    unfold inlineWrites
    rw [hb, if_neg Bool.false_ne_true]
    exact List.mem_map.mpr ⟨_, hn, rfl⟩
  | routine hc hd =>
    exact mem_of_routineWrites hc hd (List.mem_append_right _ (List.mem_singleton_self _))

end Members

/-! ## A load is the sum of its writes -/

/-- A fold of operations each of which is a list of writes. -/
theorem foldl_eq_applyAll {α : Type} {f : AutotunerEngine → α → AutotunerEngine}
    {ws : α → List Write} (h : ∀ engine a, f engine a = applyAll engine (ws a)) (as : List α)
    (engine : AutotunerEngine) : as.foldl f engine = applyAll engine (as.flatMap ws) := by
  induction as generalizing engine with
  | nil => rfl
  | cons a as ih =>
    rw [List.foldl_cons, List.flatMap_cons, applyAll_append, ← h, ih]

theorem registerStruct_eq (engine : AutotunerEngine) (decl : StructDecl) :
    { engine with typeRegistry := engine.typeRegistry.registerStruct decl } =
      applyAll engine (structWrites decl) := by
  unfold TypeRegistry.registerStruct structWrites names
  by_cases h : decl.moduleName.isEmpty
  · simp only [h, if_true]
    rfl
  · simp only [h, Bool.false_eq_true, if_false]
    rfl

theorem registerAutotuner_eq (engine : AutotunerEngine) (autotuner : AutotunerDecl) :
    registerAutotuner engine autotuner = applyAll engine (autotunerWrites autotuner) := by
  unfold registerAutotuner registerAutotunerAsFunction autotunerWrites names
  by_cases h : autotuner.moduleName.isEmpty
  · simp only [h, if_true, qualifiedName]
    rfl
  · simp only [h, Bool.false_eq_true, if_false, qualifiedName]
    rfl

theorem registerInlineRoutine_eq (engine : AutotunerEngine) (routine : RoutineDecl) :
    { engine with functionRegistry :=
        if routine.body.isEmpty then engine.functionRegistry
        else registerInlineRoutine engine.functionRegistry routine } =
      applyAll engine (inlineWrites routine) := by
  unfold registerInlineRoutine inlineWrites names inlineInfo
  by_cases hb : routine.body.isEmpty
  · rw [if_pos hb, if_pos hb]
    rfl
  · rw [if_neg hb, if_neg hb]
    by_cases h : routine.moduleName.isEmpty
    · simp only [h, if_true, qualifiedName]
      rfl
    · simp only [h, Bool.false_eq_true, if_false, qualifiedName]
      rfl

theorem registerRoutine_eq (engine : AutotunerEngine) (routine : RoutineDecl) :
    registerRoutine engine routine = applyAll engine (routineWrites routine) := by
  unfold routineWrites
  rw [applyAll_append, ← registerInlineRoutine_eq]
  rfl

theorem registerForeignRoutine_eq (library : SharedLibrary) (engine : AutotunerEngine)
    (routine : RoutineDecl) :
    { engine with functionRegistry :=
        registerForeignRoutine library engine.functionRegistry routine } =
      applyAll engine (foreignWrites library routine) := by
  unfold registerForeignRoutine foreignWrites foreignInfo offers
  split <;> rfl

theorem registerForeignMethod_eq (library : SharedLibrary) (decl : StructDecl)
    (engine : AutotunerEngine) (routine : RoutineDecl) :
    { engine with typeRegistry :=
        registerForeignMethod library decl engine.typeRegistry routine } =
      applyAll engine (methodWrites library decl routine) := by
  unfold registerForeignMethod methodWrites
  dsimp only
  split <;> rfl

/-- A fold over one table of the engine, as a fold over the engine. -/
theorem foldl_typeRegistry {α : Type} (f : TypeRegistry → α → TypeRegistry) (as : List α)
    (engine : AutotunerEngine) :
    { engine with typeRegistry := as.foldl f engine.typeRegistry } =
      as.foldl (fun engine a => { engine with typeRegistry := f engine.typeRegistry a })
        engine := by
  induction as generalizing engine with
  | nil => rfl
  | cons a as ih =>
    rw [List.foldl_cons, List.foldl_cons, ← ih]

theorem foldl_functionRegistry {α : Type}
    (f : FunctionRegistry ExternalFunction → α → FunctionRegistry ExternalFunction)
    (as : List α) (engine : AutotunerEngine) :
    { engine with functionRegistry := as.foldl f engine.functionRegistry } =
      as.foldl (fun engine a => { engine with functionRegistry := f engine.functionRegistry a })
        engine := by
  induction as generalizing engine with
  | nil => rfl
  | cons a as ih =>
    rw [List.foldl_cons, List.foldl_cons, ← ih]

theorem registerForeignMethods_eq (library : SharedLibrary) (engine : AutotunerEngine)
    (decl : StructDecl) :
    { engine with typeRegistry :=
        registerForeignMethods library engine.typeRegistry decl } =
      applyAll engine (decl.routines.flatMap (methodWrites library decl)) := by
  unfold registerForeignMethods
  rw [foldl_typeRegistry]
  exact foldl_eq_applyAll (registerForeignMethod_eq library decl) _ _

theorem processFfImport_eq (program : Program) (engine : AutotunerEngine)
    (library : SharedLibrary) :
    processFfImport program engine library = applyAll engine (libraryWrites program library) := by
  unfold libraryWrites
  rw [applyAll_append, ← foldl_eq_applyAll (registerForeignMethods_eq library),
    ← foldl_typeRegistry, ← foldl_eq_applyAll (registerForeignRoutine_eq library),
    ← foldl_functionRegistry]
  rfl

theorem processFfImports_eq (linker : Linker) (program : Program) (ffis : List FFImportDecl)
    (engine : AutotunerEngine) :
    processFfImports linker program ffis engine =
      (applyAll engine ((openLibraries linker ffis).1.flatMap (libraryWrites program)),
        (openLibraries linker ffis).2) := by
  induction ffis generalizing engine with
  | nil => rfl
  | cons ffi ffis ih =>
    unfold processFfImports openLibraries
    cases linker ffi with
    | none => rfl
    | some library =>
      dsimp only
      rw [ih, List.flatMap_cons, applyAll_append, processFfImport_eq]

/-- A load succeeds or fails, and in both cases it has made its writes. -/
theorem loadProgram_eq (engine : AutotunerEngine) (load : Load) :
    engine.loadProgram load = (applyAll engine (writes load), complete load) := by
  unfold loadProgram writes declarationWrites
  rw [foldl_typeRegistry, foldl_eq_applyAll registerStruct_eq]
  dsimp only
  rw [processFfImports_eq]
  change (if complete load then _ else _) = _
  cases hc : complete load with
  | false =>
    rw [if_neg Bool.false_ne_true, if_neg Bool.false_ne_true, List.append_nil, applyAll_append]
    rfl
  | true =>
    rw [if_pos rfl, if_pos rfl, applyAll_append, applyAll_append, applyAll_append,
      foldl_eq_applyAll registerAutotuner_eq, foldl_eq_applyAll registerRoutine_eq]
    rfl

theorem loadAll_eq (engine : AutotunerEngine) (loads : List Load) :
    engine.loadAll loads = applyAll engine (loads.flatMap writes) :=
  foldl_eq_applyAll (fun engine load => by rw [loadProgram_eq]) loads engine

/-! ## The tables after a list of writes -/

def registrationOf : Write → Option (Registration ExternalFunction)
  | .function registration => some registration
  | _ => none

def autotunerOf : Write → Option (String × AutotunerDecl)
  | .autotuner qname decl => some (qname, decl)
  | _ => none

def routineOf : Write → Option (String × RoutineDecl)
  | .routine qname decl => some (qname, decl)
  | _ => none

theorem functionRegistry_applyAll (engine : AutotunerEngine) (ws : List Write) :
    (applyAll engine ws).functionRegistry =
      engine.functionRegistry.registerAll (ws.filterMap registrationOf) := by
  induction ws generalizing engine with
  | nil => rfl
  | cons w ws ih =>
    change (applyAll (w.apply engine) ws).functionRegistry = _
    rw [ih]
    cases w <;> rfl

theorem loadedAutotuners_applyAll (engine : AutotunerEngine) (ws : List Write) :
    (applyAll engine ws).loadedAutotuners =
      engine.loadedAutotuners.assignAll (ws.filterMap autotunerOf) := by
  induction ws generalizing engine with
  | nil => rfl
  | cons w ws ih =>
    change (applyAll (w.apply engine) ws).loadedAutotuners = _
    rw [ih]
    cases w <;> rfl

theorem routineDeclarations_applyAll (engine : AutotunerEngine) (ws : List Write) :
    (applyAll engine ws).routineDeclarations =
      engine.routineDeclarations.assignAll (ws.filterMap routineOf) := by
  induction ws generalizing engine with
  | nil => rfl
  | cons w ws ih =>
    change (applyAll (w.apply engine) ws).routineDeclarations = _
    rw [ih]
    cases w <;> rfl

end FalconLib.Dsl.LoadHistory
