import FalconLib.Dsl.Interpreter

/-!
# The engine

What `load_fal_file` registers once a file is parsed, and how the host starts an
autotuner or routine. Compiling and opening a shared library is the outside world:
`Linker` says which symbols it offers, if it can be opened at all.
-/

namespace FalconLib.Dsl

open FalconLib.Base (Comp StdMap)

structure SharedLibrary where
  path : String
  symbols : List String

abbrev Linker := FFImportDecl → Option SharedLibrary

structure AutotunerEngine where
  functionRegistry : FunctionRegistry ExternalFunction
  typeRegistry : TypeRegistry := {}
  loadedAutotuners : StdMap AutotunerDecl := ∅
  routineDeclarations : StdMap RoutineDecl := ∅

namespace AutotunerEngine

/-- The registrations of `register_all_builtins`. -/
def builtins : List (Registration ExternalFunction) :=
  [.builtin "errorMsg" .errorMsg, .builtin "fatalErrorMsg" .fatalErrorMsg]

def create : AutotunerEngine where
  functionRegistry := FunctionRegistry.registerAll {} builtins

def paramSpecs (params : List ParamDecl) (required : Bool) : List ParamSpec :=
  params.map fun param => { name := param.name, type := param.type, required := required }

/-! ## Registration of the declarations of a module -/

/-- The signature of a declaration under one of its names. -/
def signature (name : String) (inputs outputs : List ParamDecl) : BuiltinSignature :=
  ⟨name, paramSpecs inputs true, paramSpecs outputs true⟩

/-- Under the bare name, then under the qualified one. -/
def registerAutotunerAsFunction (registry : FunctionRegistry ExternalFunction)
    (autotuner : AutotunerDecl) : FunctionRegistry ExternalFunction :=
  let qname := qualifiedName autotuner.moduleName autotuner.name
  let sig name := signature name autotuner.inputParams autotuner.outputParams
  let bare := registry.registerAutotuner (sig autotuner.name) (.autotuner qname)
  if autotuner.moduleName.isEmpty then bare
  else bare.registerAutotuner (sig qname) (.autotuner qname)

def registerInlineRoutine (registry : FunctionRegistry ExternalFunction)
    (routine : RoutineDecl) : FunctionRegistry ExternalFunction :=
  let qname := qualifiedName routine.moduleName routine.name
  let info name : RoutineInfo ExternalFunction :=
    ⟨name, "<inline>", .inlineRoutine qname,
      signature name routine.inputParams routine.outputParams⟩
  let bare := registry.registerRoutine (info routine.name)
  if routine.moduleName.isEmpty then bare else bare.registerRoutine (info qname)

/-- A routine without body is bound to the symbol of its name, under the bare name only. -/
def registerForeignRoutine (library : SharedLibrary) (registry : FunctionRegistry ExternalFunction)
    (routine : RoutineDecl) : FunctionRegistry ExternalFunction :=
  if routine.body.isEmpty && library.symbols.contains routine.name then
    registry.registerRoutine
      ⟨routine.name, library.path, .foreign ⟨library.path, routine.name⟩,
        ⟨routine.name, paramSpecs routine.inputParams true,
          paramSpecs routine.outputParams false⟩⟩
  else registry

/-- The symbol of a struct routine without body. -/
def methodSymbol (decl : StructDecl) (routine : RoutineDecl) : String :=
  "STRUCT" ++ decl.name ++ routine.name

def registerForeignMethod (library : SharedLibrary) (decl : StructDecl) (types : TypeRegistry)
    (routine : RoutineDecl) : TypeRegistry :=
  let symbol := methodSymbol decl routine
  if routine.body.isEmpty && library.symbols.contains symbol then
    types.registerFfiMethod decl.name routine.name ⟨library.path, symbol⟩
  else types

def registerForeignMethods (library : SharedLibrary) (types : TypeRegistry)
    (decl : StructDecl) : TypeRegistry :=
  decl.routines.foldl (registerForeignMethod library decl) types

/-- `process_ff_import`, for a library that was opened. -/
def processFfImport (program : Program) (engine : AutotunerEngine) (library : SharedLibrary) :
    AutotunerEngine :=
  { engine with
    typeRegistry := program.structs.foldl (registerForeignMethods library) engine.typeRegistry
    functionRegistry :=
      program.routines.foldl (registerForeignRoutine library) engine.functionRegistry }

/-- The first library that cannot be opened ends the load. -/
def processFfImports (linker : Linker) (program : Program) :
    List FFImportDecl → AutotunerEngine → AutotunerEngine × Bool
  | [], engine => (engine, true)
  | ffi :: ffis, engine =>
    match linker ffi with
    | some library => processFfImports linker program ffis (processFfImport program engine library)
    | none => (engine, false)

def registerAutotuner (engine : AutotunerEngine) (autotuner : AutotunerDecl) : AutotunerEngine :=
  { engine with
    loadedAutotuners := engine.loadedAutotuners.assign
      (qualifiedName autotuner.moduleName autotuner.name) autotuner
    functionRegistry := registerAutotunerAsFunction engine.functionRegistry autotuner }

def registerRoutine (engine : AutotunerEngine) (routine : RoutineDecl) : AutotunerEngine :=
  { engine with
    functionRegistry :=
      if routine.body.isEmpty then engine.functionRegistry
      else registerInlineRoutine engine.functionRegistry routine
    routineDeclarations := engine.routineDeclarations.assign
      (qualifiedName routine.moduleName routine.name) routine }

/-- A parsed file and the libraries its imports find. -/
structure Load where
  program : Program
  linker : Linker

namespace Load

def moduleName (load : Load) : String := load.program.moduleName

def structs (load : Load) : List StructDecl :=
  load.program.structs.map fun decl => { decl with moduleName := load.moduleName }

def autotuners (load : Load) : List AutotunerDecl :=
  load.program.autotuners.map fun autotuner => { autotuner with moduleName := load.moduleName }

def routines (load : Load) : List RoutineDecl :=
  load.program.routines.map fun routine => { routine with moduleName := load.moduleName }

end Load

/-- `load_fal_file` after the parse. Structs and the imports before a failing one stay
registered when it fails. -/
def loadProgram (engine : AutotunerEngine) (load : Load) : AutotunerEngine × Bool :=
  let engine := { engine with
    typeRegistry := load.structs.foldl TypeRegistry.registerStruct engine.typeRegistry }
  let (engine, opened) :=
    processFfImports load.linker load.program load.program.ffImports engine
  if opened then
    let engine := load.autotuners.foldl registerAutotuner engine
    (load.routines.foldl registerRoutine engine, true)
  else (engine, false)

def loadAll (engine : AutotunerEngine) (loads : List Load) : AutotunerEngine :=
  loads.foldl (fun engine load => (engine.loadProgram load).1) engine

/-! ## Runs started by the host -/

variable {S : Type}

def context (engine : AutotunerEngine) (host : Host S) (sources : String → List String) :
    Context S where
  functions := engine.functionRegistry
  loadedAutotuners := engine.loadedAutotuners
  routineDeclarations := engine.routineDeclarations
  host := host
  sources := sources

/-- The world in which the host starts a run. -/
def world (engine : AutotunerEngine) (heap : Heap) (store : S) : World S where
  heap := heap
  types := engine.typeRegistry
  store := store

/-- An autotuner by its name in the table, or the first whose symbol has that name. -/
def findAutotuner (autotuners : StdMap AutotunerDecl) (name : String) : Option AutotunerDecl :=
  match autotuners[name]? with
  | some autotuner => some autotuner
  | none => (autotuners.toList.find? fun entry => stripModulePrefix entry.1 == name).map (·.2)

def runAutotuner (ctx : Context S) (fuel : Nat) (name : String) (inputs : ParameterMap) :
    M S FunctionResult := do
  Comp.ask (.autotuner name)
  match findAutotuner ctx.loadedAutotuners name with
  | some autotuner => Interpreter.run ctx (Interpreter.handlers ctx fuel) fuel autotuner inputs
  | none => Comp.throw (.other ("Autotuner not loaded: " ++ name))

def runRoutine (ctx : Context S) (fuel : Nat) (name : String) (inputs : ParameterMap) :
    M S FunctionResult := do
  Comp.ask (.function name)
  match ctx.functions.lookup name with
  | some function =>
    Interpreter.callFunction ctx (Interpreter.handlers ctx fuel) fuel function inputs
  | none => Comp.throw (.other ("Routine not found: " ++ name))

end AutotunerEngine

end FalconLib.Dsl
