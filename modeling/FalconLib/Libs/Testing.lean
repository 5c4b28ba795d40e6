import FalconLib.Dsl.AutotunerEngine
import FalconLib.Typing.FFIHelpers

/-!
# The testing library

The declarations of `TestContext` and `TestRunner` and the functions of their wrapper. The library
keeps its objects outside of the heap; a handle is the position of one. What it prints is left out.
-/

namespace FalconLib.Libs.Testing

open FalconLib.Base (Comp StdMap)
open FalconLib.Dsl
open FalconLib.Typing.FFI

/-! ## Objects -/

structure TestContext where
  name : String
  failures : List String := []

namespace TestContext

def passed (ctx : TestContext) : Bool := ctx.failures.isEmpty

def fail (ctx : TestContext) (msg : String) : TestContext :=
  { ctx with failures := ctx.failures ++ [msg] }

def expect (ctx : TestContext) (ok : Bool) (msg : String) : TestContext :=
  if ok then ctx else ctx.fail msg

end TestContext

/-- The counters are `int`s. -/
structure TestRunner where
  suiteName : String
  testNames : List String := []
  results : List Bool := []
  failureMsgs : List (List String) := []
  currentIdx : Int32 := 0

namespace TestRunner

/-- `static_cast<int>(test_names.size())`. -/
def total (runner : TestRunner) : Int32 := Int32.ofNat runner.testNames.length

def hasNext (runner : TestRunner) : Bool := runner.currentIdx < runner.total

def passed (runner : TestRunner) : Int32 := Int32.ofNat (runner.results.count true)

def failed (runner : TestRunner) : Int32 := runner.total - runner.passed

def currentName (runner : TestRunner) : String :=
  if runner.currentIdx < runner.total then
    runner.testNames[runner.currentIdx.toInt.toNat]?.getD ""
  else ""

def registerTest (runner : TestRunner) (name : String) : TestRunner :=
  { runner with testNames := runner.testNames ++ [name] }

def endCurrent (runner : TestRunner) (ctx : TestContext) : TestRunner :=
  { runner with
    results := runner.results ++ [ctx.passed]
    failureMsgs := runner.failureMsgs ++ [ctx.failures]
    currentIdx := runner.currentIdx + 1 }

end TestRunner

inductive NativeObject where
  | context (ctx : TestContext)
  | runner (runner : TestRunner)

/-- A function of the library may look at the heap and at the objects of the library. -/
abbrev Native := Comp Empty Exception (Heap × List NativeObject)

abbrev NativeFunction := List FalconParamEntry → List FalconResultSlot → Int32 →
  Native (List FalconResultSlot × Int32)

/-! ## Helpers of the wrapper -/

/-- A conversion leaves the objects alone. -/
def marshal {α : Type} (m : Marshal α) : Native α := fun s =>
  match (m s.1).outcome with
  | .ok a heap => ⟨[], .ok a (heap, s.2)⟩
  | .throw e heap => ⟨[], .throw e (heap, s.2)⟩
  | .halt r => ⟨[], .halt r⟩

def contextAt (entries : List FalconParamEntry) (key : String) : Native (Nat × TestContext) := do
  let handle ← marshal (getOpaque entries key)
  let objects ← Comp.gets Prod.snd
  match objects[handle]? with
  | some (.context ctx) => pure (handle, ctx)
  | _ => Comp.halt .undefinedBehaviour

def runnerAt (entries : List FalconParamEntry) (key : String) : Native (Nat × TestRunner) := do
  let handle ← marshal (getOpaque entries key)
  let objects ← Comp.gets Prod.snd
  match objects[handle]? with
  | some (.runner runner) => pure (handle, runner)
  | _ => Comp.halt .undefinedBehaviour

def setObject (handle : Nat) (object : NativeObject) : Native Unit :=
  Comp.modify fun s => (s.1, s.2.set handle object)

/-- `std::make_shared`. -/
def makeObject (object : NativeObject) : Native Nat := do
  let objects ← Comp.gets Prod.snd
  Comp.modify fun s => (s.1, s.2 ++ [object])
  pure objects.length

/-- `std::get` on `pm.at(key)`. -/
def parameterAt {α : Type} (params : ParameterMap) (key : String)
    (read : RuntimeValue → Option α) : Native α :=
  match params[key]? with
  | none => Comp.throw Exception.outOfRange
  | some value =>
    match read value with
    | some a => pure a
    | none => Comp.throw Exception.badVariantAccess

def asString : RuntimeValue → Option String
  | .string value => some value
  | _ => none

def asBool : RuntimeValue → Option Bool
  | .bool value => some value
  | _ => none

def asInt : RuntimeValue → Option Int64
  | .int value => some value
  | _ => none

def packNil (slots : List FalconResultSlot) : Native (List FalconResultSlot × Int32) :=
  pure (slots.set 0 .nil, 1)

/-- `pack_ctx` and `pack_runner`. -/
def packObject (typeName : String) (handle : Nat) (slots : List FalconResultSlot) :
    Native (List FalconResultSlot × Int32) :=
  pure (slots.set 0 (.opaqueVal typeName (.void handle)), 1)

/-- The wrapper takes the room of sixteen slots for granted. -/
def packOne (value : RuntimeValue) (slots : List FalconResultSlot) :
    Native (List FalconResultSlot × Int32) := marshal (packResults [value] slots 16)

/-! ## `TestContext` -/

def contextNew : NativeFunction := fun entries slots _ => do
  let params ← marshal (unpackParams entries ∅)
  let name ← parameterAt params "name" asString
  let handle ← makeObject (.context { name := name })
  packObject "TestContext" handle slots

/-- A property of a context. -/
def contextGet (value : TestContext → RuntimeValue) : NativeFunction := fun entries slots _ => do
  let (_, ctx) ← contextAt entries "this"
  packOne (value ctx) slots

/-- The functions that may record a failure: a message if the check fails. -/
def contextCheck (check : ParameterMap → Native (Option String)) : NativeFunction :=
  fun entries slots _ => do
    let params ← marshal (unpackParams entries ∅)
    let (handle, ctx) ← contextAt entries "this"
    match ← check params with
    | some msg => setObject handle (.context (ctx.fail msg))
    | none => pure ()
    packNil slots

def contextName : NativeFunction := contextGet fun ctx => .string ctx.name

def contextPassed : NativeFunction := contextGet fun ctx => .bool ctx.passed

def contextFailureCount : NativeFunction :=
  contextGet fun ctx => .int (Int32.ofNat ctx.failures.length).toInt64

def expectCondition : NativeFunction := contextCheck fun params => do
  let condition ← parameterAt params "condition" asBool
  let msg ← parameterAt params "msg" asString
  pure (if condition then none else some msg)

def contextExpectTrue : NativeFunction := expectCondition

/-- The wrapper does not negate the condition. -/
def contextExpectFalse : NativeFunction := expectCondition

/-- A comparison of two parameters; a failure is described after the message. -/
def expectCompared {α : Type} (read : RuntimeValue → Option α) (left right : String)
    (holds : α → α → Bool) (describe : α → α → String) : NativeFunction :=
  contextCheck fun params => do
    let a ← parameterAt params left read
    let b ← parameterAt params right read
    let msg ← parameterAt params "msg" asString
    pure (if holds a b then none else some (msg ++ describe a b))

def contextExpectIntEq : NativeFunction :=
  expectCompared asInt "expected" "actual" (fun e a => e == a) fun e a =>
    " (expected=" ++ toString e.toInt ++ " actual=" ++ toString a.toInt ++ ")"

def contextExpectIntNe : NativeFunction :=
  expectCompared asInt "expected" "actual" (fun e a => e != a) fun e _ =>
    " (both=" ++ toString e.toInt ++ ", expected to differ)"

def contextExpectIntLt : NativeFunction :=
  expectCompared asInt "a" "b" (fun a b => a < b) fun a b =>
    " (expected " ++ toString a.toInt ++ " < " ++ toString b.toInt ++ ")"

def contextExpectIntGt : NativeFunction :=
  expectCompared asInt "a" "b" (fun a b => b < a) fun a b =>
    " (expected " ++ toString a.toInt ++ " > " ++ toString b.toInt ++ ")"

def contextExpectStrEq : NativeFunction :=
  expectCompared asString "expected" "actual" (fun e a => e == a) fun e a =>
    " (expected=\"" ++ e ++ "\" actual=\"" ++ a ++ "\")"

def contextExpectStrNe : NativeFunction :=
  expectCompared asString "expected" "actual" (fun e a => e != a) fun e _ =>
    " (both=\"" ++ e ++ "\", expected to differ)"

def contextFail : NativeFunction := contextCheck fun params => do
  let msg ← parameterAt params "msg" asString
  pure (some msg)

def contextLog : NativeFunction := contextCheck fun params => do
  let _ ← parameterAt params "msg" asString
  pure none

/-! ## `TestRunner` -/

def runnerNew : NativeFunction := fun entries slots _ => do
  let params ← marshal (unpackParams entries ∅)
  let suiteName ← parameterAt params "suite_name" asString
  let handle ← makeObject (.runner { suiteName := suiteName })
  packObject "TestRunner" handle slots

/-- A property of a runner. -/
def runnerGet (value : TestRunner → RuntimeValue) : NativeFunction := fun entries slots _ => do
  let (_, runner) ← runnerAt entries "this"
  packOne (value runner) slots

def runnerRegister : NativeFunction := fun entries slots _ => do
  let params ← marshal (unpackParams entries ∅)
  let (handle, runner) ← runnerAt entries "this"
  let name ← parameterAt params "test_name" asString
  setObject handle (.runner (runner.registerTest name))
  packNil slots

def runnerPrintHeader : NativeFunction := fun entries slots _ => do
  let _ ← runnerAt entries "this"
  packNil slots

def runnerBeginCurrent : NativeFunction := fun entries slots _ => do
  let (_, runner) ← runnerAt entries "this"
  let handle ← makeObject (.context { name := runner.currentName })
  packObject "TestContext" handle slots

/-- The index overflows after the last `int`. -/
def runnerEndCurrent : NativeFunction := fun entries slots _ => do
  let (handle, runner) ← runnerAt entries "this"
  let (_, ctx) ← contextAt entries "ctx"
  if runner.currentIdx.toInt + 1 < 2 ^ 31 then do
    setObject handle (.runner (runner.endCurrent ctx))
    packNil slots
  else Comp.halt .undefinedBehaviour

def runnerHasNext : NativeFunction := runnerGet fun runner => .bool runner.hasNext

def runnerCurrentName : NativeFunction := runnerGet fun runner => .string runner.currentName

/-- The result of each test, and its messages if it failed. -/
def printResults : List String → List Bool → List (List String) → Native Unit
  | [], _, _ => pure ()
  | _ :: names, true :: results, messages => printResults names results messages.tail
  | _ :: names, false :: results, _ :: messages => printResults names results messages
  | _, _, _ => Comp.halt .undefinedBehaviour

def runnerPrintSummary : NativeFunction := fun entries slots _ => do
  let (_, runner) ← runnerAt entries "this"
  printResults (runner.testNames.take runner.total.toInt.toNat) runner.results runner.failureMsgs
  packNil slots

def runnerPassedCount : NativeFunction := runnerGet fun runner => .int runner.passed.toInt64

def runnerFailedCount : NativeFunction := runnerGet fun runner => .int runner.failed.toInt64

/-! ## The declarations -/

def param (type : TypeDescriptor) (name : String) : ParamDecl := { type := type, name := name }

def intParam (name : String) : ParamDecl := param (.ofParamType .int) name

def boolParam (name : String) : ParamDecl := param (.ofParamType .bool) name

def stringParam (name : String) : ParamDecl := param (.ofParamType .string) name

def floatParam (name : String) : ParamDecl := param (.ofParamType .float) name

def contextParam (name : String) : ParamDecl := param (.makeStruct "TestContext") name

def runnerParam (name : String) : ParamDecl := param (.makeStruct "TestRunner") name

def errorType : TypeDescriptor := { baseType := .error, errorVariant := "Error" }

def routine (name : String) (inputs : List ParamDecl) (output : ParamDecl) : RoutineDecl :=
  { name := name, inputParams := inputs, outputParams := [output] }

/-- A routine that returns an error. -/
def action (name : String) (inputs : List ParamDecl) : RoutineDecl :=
  routine name inputs (param errorType "err")

def contextDecl (moduleName : String) : StructDecl where
  name := "TestContext"
  moduleName := moduleName
  fields := []
  routines :=
    [routine "New" [stringParam "name"] (contextParam "ctx"),
      routine "Name" [] (stringParam "name"),
      routine "Passed" [] (boolParam "passed"),
      routine "FailureCount" [] (intParam "count"),
      action "ExpectTrue" [boolParam "condition", stringParam "msg"],
      action "ExpectFalse" [boolParam "condition", stringParam "msg"],
      action "ExpectIntEq" [intParam "expected", intParam "actual", stringParam "msg"],
      action "ExpectIntNe" [intParam "expected", intParam "actual", stringParam "msg"],
      action "ExpectIntLt" [intParam "a", intParam "b", stringParam "msg"],
      action "ExpectIntGt" [intParam "a", intParam "b", stringParam "msg"],
      action "ExpectFloatEq"
        [floatParam "expected", floatParam "actual", floatParam "tol", stringParam "msg"],
      action "ExpectStrEq" [stringParam "expected", stringParam "actual", stringParam "msg"],
      action "ExpectStrNe" [stringParam "expected", stringParam "actual", stringParam "msg"],
      action "Fail" [stringParam "msg"],
      action "Log" [stringParam "msg"]]

def runnerDecl (moduleName : String) : StructDecl where
  name := "TestRunner"
  moduleName := moduleName
  fields := []
  routines :=
    [routine "New" [stringParam "suite_name"] (runnerParam "runner"),
      action "Register" [stringParam "test_name"],
      action "PrintHeader" [],
      routine "BeginCurrent" [] (contextParam "ctx"),
      action "EndCurrent" [contextParam "ctx"],
      routine "HasNext" [] (boolParam "has_next"),
      routine "CurrentName" [] (stringParam "name"),
      action "PrintSummary" [],
      routine "PassedCount" [] (intParam "count"),
      routine "FailedCount" [] (intParam "count")]

/-! ## The library in a process -/

/-- The exported functions, but for the comparison of floats. -/
def functions : List (String × NativeFunction) :=
  [("STRUCTTestContextNew", contextNew),
    ("STRUCTTestContextName", contextName),
    ("STRUCTTestContextPassed", contextPassed),
    ("STRUCTTestContextFailureCount", contextFailureCount),
    ("STRUCTTestContextExpectTrue", contextExpectTrue),
    ("STRUCTTestContextExpectFalse", contextExpectFalse),
    ("STRUCTTestContextExpectIntEq", contextExpectIntEq),
    ("STRUCTTestContextExpectIntNe", contextExpectIntNe),
    ("STRUCTTestContextExpectIntLt", contextExpectIntLt),
    ("STRUCTTestContextExpectIntGt", contextExpectIntGt),
    ("STRUCTTestContextExpectStrEq", contextExpectStrEq),
    ("STRUCTTestContextExpectStrNe", contextExpectStrNe),
    ("STRUCTTestContextFail", contextFail),
    ("STRUCTTestContextLog", contextLog),
    ("STRUCTTestRunnerNew", runnerNew),
    ("STRUCTTestRunnerRegister", runnerRegister),
    ("STRUCTTestRunnerPrintHeader", runnerPrintHeader),
    ("STRUCTTestRunnerBeginCurrent", runnerBeginCurrent),
    ("STRUCTTestRunnerEndCurrent", runnerEndCurrent),
    ("STRUCTTestRunnerHasNext", runnerHasNext),
    ("STRUCTTestRunnerCurrentName", runnerCurrentName),
    ("STRUCTTestRunnerPrintSummary", runnerPrintSummary),
    ("STRUCTTestRunnerPassedCount", runnerPassedCount),
    ("STRUCTTestRunnerFailedCount", runnerFailedCount)]

def symbol (path typeName name : String) : ForeignSymbol := ⟨path, "STRUCT" ++ typeName ++ name⟩

/-- How the engine calls a function of the library. -/
def callNative (function : NativeFunction) (params : ParameterMap) : Native FunctionResult := do
  let heap ← Comp.gets Prod.fst
  let (slots, count) ← function (packParams heap params) (List.replicate maxOutputs .nil) 0
  marshal (unpackResults slots count)

section Library

variable {S : Type} (host : Host S) (view : S → List NativeObject) (path : String)

/-- A method of the host is the driver of the engine around a function of the library, whose
objects `view` finds in the store. -/
def Implements (symbol : ForeignSymbol) (function : NativeFunction) : Prop :=
  ∀ receiver params heap store,
    match (callNative function params (heap, view store)).outcome with
    | .ok values (heap', objects) => ∃ store', view store' = objects ∧
        host.callMethod symbol receiver params heap store = (.ok values, heap', store')
    | .throw e (heap', objects) => ∃ store', view store' = objects ∧
        host.callMethod symbol receiver params heap store = (.error e, heap', store')
    | .halt _ => True

/-- The shared library at `path` is the compiled wrapper. -/
def Opened : Prop :=
  ∀ name function, functions.lookup name = some function →
    Implements host view ⟨path, name⟩ function

/-- What a registry with the testing library answers. -/
structure Registered (types : TypeRegistry) : Prop where
  context : ∃ moduleName, types.structRegistry["TestContext"]? = some (contextDecl moduleName)
  runner : ∃ moduleName, types.structRegistry["TestRunner"]? = some (runnerDecl moduleName)
  methods : ∀ decl ∈ [contextDecl "", runnerDecl ""], ∀ routine ∈ decl.routines,
    types.ffiMethods[decl.name]?.bind (fun methods => methods[routine.name]?) =
      some (symbol path decl.name routine.name)

end Library

end FalconLib.Libs.Testing
