import FalconLib.Base.Computation
import FalconLib.Dsl.FunctionRegistry
import FalconLib.Dsl.SourceContext
import FalconLib.Dsl.TypeRegistry

/-!
# The state that evaluation works on

One `World` holds the heap, the type registry, the variables of the interpreter and
whatever foreign code keeps. The functions, autotuners and routines are loaded
before a run and fixed during it. Every lookup in a table that modules share is
recorded as a `Query`.
-/

namespace FalconLib.Dsl

open FalconLib.Base (Comp StdMap)

/-- A callable of the registry. An autotuner or inline routine is a closure over its
qualified name, which it looks up when it is called. -/
inductive ExternalFunction where
  | errorMsg
  | fatalErrorMsg
  | autotuner (qname : String)
  | inlineRoutine (qname : String)
  | foreign (symbol : ForeignSymbol)
deriving DecidableEq

inductive Query where
  | function (name : String)
  | structType (name : String)
  | typeMethod (typeName methodName : String)
  | ffiMethod (typeName methodName : String)
  | autotuner (qname : String)
  | routine (qname : String)
  /-- A struct that is not registered, before its generic struct is looked up. -/
  | fallback (name : String)
  /-- An instance that is not registered, before it is made. -/
  | instantiation (base : StructDecl) (typeArgs : List TypeDescriptor)

/-- Foreign code, with a store `S` of its own. It gets the packed parameters and may
read and write every object it can reach. -/
structure Host (S : Type) where
  call : ForeignSymbol → ParameterMap → Heap → S → Except Exception FunctionResult × Heap × S
  callMethod : ForeignSymbol → RuntimeValue → ParameterMap → Heap → S →
    Except Exception FunctionResult × Heap × S

/-- A process that has opened no library. -/
def Host.unlinked : Host Unit where
  call symbol _ heap store := (.error (.other ("no symbol " ++ symbol.symbol)), heap, store)
  callMethod symbol _ _ heap store :=
    (.error (.other ("no symbol " ++ symbol.symbol)), heap, store)

/-- What is loaded: fixed while an autotuner or routine runs. -/
structure Context (S : Type) where
  functions : FunctionRegistry ExternalFunction := {}
  loadedAutotuners : StdMap AutotunerDecl := ∅
  routineDeclarations : StdMap RoutineDecl := ∅
  host : Host S
  sources : String → List String := fun _ => []

/-- `memberVariables` is the member `variables_` of the interpreter. -/
structure World (S : Type) where
  heap : Heap := {}
  types : TypeRegistry := {}
  memberVariables : ParameterMap := ∅
  store : S

abbrev M (S : Type) : Type → Type := Comp Query Exception (World S)

/-- What the reference `variables_` of an evaluator or executor denotes: the map of
the interpreter, or the map of a routine call, which nothing else can reach. -/
inductive Variables where
  | member
  | own (map : ParameterMap)

variable {S : Type}

namespace Variables

def read (vars : Variables) (w : World S) : ParameterMap :=
  match vars with
  | member => w.memberVariables
  | own map => map

theorem read_congr (vars : Variables) {w w' : World S}
    (h : w'.memberVariables = w.memberVariables) : vars.read w' = vars.read w := by
  cases vars with
  | member => exact h
  | own map => rfl

/-- The whole map is replaced by `map`. -/
def write (vars : Variables) (map : ParameterMap) : M S Variables :=
  match vars with
  | member => do
    Comp.modify fun w => { w with memberVariables := map }
    pure member
  | own _ => pure (own map)

end Variables

inductive ControlFlow where
  | none
  | transition (targetState : String) (parameters : List RuntimeValue)
  | terminal
deriving DecidableEq

/-- The calls that leave the syntax tree at hand, and so need a bound on their depth:
an expression of a declaration, the body of a struct routine, a registered function. -/
structure Handlers (S : Type) where
  evaluate : Variables → Expr → M S RuntimeValue
  execStructRoutine : Nat → StructDecl → RoutineDecl → List RuntimeValue → M S FunctionResult
  callFunction : ExternalFunction → ParameterMap → M S FunctionResult

/-! ## Access to the world -/

def evaluationError {α : Type} (message : String) : M S α := Comp.throw (.evaluation message)

def getHeap : M S Heap := Comp.gets World.heap

def modifyHeap (f : Heap → Heap) : M S Unit := Comp.modify fun w => { w with heap := f w.heap }

def structAt (id : Nat) : M S (Option StructInstance) := Comp.gets fun w => w.heap.structs[id]?

def setField (id : Nat) (name : String) (value : RuntimeValue) : M S Unit :=
  modifyHeap fun heap => heap.setField id name value

/-- `std::make_shared<StructInstance>(name)`. -/
def makeStruct (typeName : String) : M S Nat := do
  let heap ← getHeap
  modifyHeap fun heap => (heap.allocStruct { typeName := typeName }).2
  pure heap.structs.length

/-- How a list of outputs becomes one value. -/
def packResult : FunctionResult → M S RuntimeValue
  | [] => pure .nil
  | [value] => pure value
  | values => do
    let heap ← getHeap
    modifyHeap fun heap => (heap.allocTuple values).2
    pure (.tuple heap.tuples.length)

def runHost (f : Heap → S → Except Exception FunctionResult × Heap × S) : M S FunctionResult := do
  let w ← Comp.gets id
  let (result, heap, store) := f w.heap w.store
  Comp.modify fun w => { w with heap := heap, store := store }
  match result with
  | .ok values => pure values
  | .error e => Comp.throw e

theorem runHost_outcome {w : World S} {f : Heap → S → Except Exception FunctionResult × Heap × S}
    {result : Except Exception FunctionResult} {heap : Heap} {store : S}
    (h : f w.heap w.store = (result, heap, store)) :
    (runHost f w).outcome =
      match result with
      | .ok values => .ok values { w with heap := heap, store := store }
      | .error e => .throw e { w with heap := heap, store := store } := by
  unfold runHost
  rw [Comp.outcome_gets_bind]
  simp only [id, h]
  cases result <;> rfl

/-! ## Lookups in the type registry -/

def registeredStruct (name : String) : M S (Option StructDecl) := do
  Comp.ask (.structType name)
  Comp.gets fun w => w.types.structRegistry[name]?

theorem registeredStruct_outcome (name : String) (w : World S) :
    (registeredStruct name w).outcome = .ok w.types.structRegistry[name]? w := rfl

/-- A name that is not registered falls back to the name before its `<`. -/
def lookupStruct (name : String) : M S (Option StructDecl) := do
  match ← registeredStruct name with
  | some decl => pure (some decl)
  | none => do
    Comp.ask (.fallback name)
    match genericBase name with
    | some base => registeredStruct base
    | none => pure none

def registeredFfiMethod (typeName methodName : String) : M S (Option ForeignSymbol) := do
  Comp.ask (.ffiMethod typeName methodName)
  Comp.gets fun w => w.types.ffiMethods[typeName]?.bind fun methods => methods[methodName]?

theorem registeredFfiMethod_outcome (typeName methodName : String) (w : World S) :
    (registeredFfiMethod typeName methodName w).outcome =
      .ok (w.types.ffiMethods[typeName]?.bind fun methods => methods[methodName]?) w := rfl

def lookupFfiMethod (typeName methodName : String) : M S (Option ForeignSymbol) := do
  match ← registeredFfiMethod typeName methodName with
  | some method => pure (some method)
  | none =>
    match genericBase typeName with
    | some base => registeredFfiMethod base methodName
    | none => pure none

def registeredMethod (typeName methodName : String) : M S (Option ForeignSymbol) := do
  Comp.ask (.typeMethod typeName methodName)
  Comp.gets fun w => w.types.typeMethods[typeName]?.bind fun methods => methods[methodName]?

/-- Here the base of a generic type ends at `[`. -/
def lookupMethod (typeName methodName : String) : M S (Option ForeignSymbol) := do
  match ← registeredMethod typeName methodName with
  | some method => pure (some method)
  | none =>
    if '[' ∈ typeName.toList then
      registeredMethod (String.ofList (typeName.toList.takeWhile (· ≠ '['))) methodName
    else pure none

end FalconLib.Dsl
