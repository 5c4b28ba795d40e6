import FalconLib.Dsl.StaticDispatch
import FalconLib.Libs.Testing

/-!
# Calls of the testing library

What each function of the harness does to the runner and to the contexts, called through the
conversions and through the interpreter.
-/

namespace FalconLib.Libs.Testing

open FalconLib.Base (Comp StdMap)
open FalconLib.Dsl
open FalconLib.Typing.FFI

/-! ## Objects of the library -/

abbrev NativeState := Heap × List NativeObject

/-- The instance `id` stands for the object behind `handle`. -/
structure Denotes (s : NativeState) (id : Nat) (typeName : String) (handle : Nat)
    (object : NativeObject) : Prop where
  instance_ : ∃ inst, s.1.structs[id]? = some inst ∧ inst.typeName = typeName ∧
    inst.nativeHandle = some handle
  object : s.2[handle]? = some object

def IsRunner (s : NativeState) (id handle : Nat) (runner : TestRunner) : Prop :=
  Denotes s id "TestRunner" handle (.runner runner)

def IsContext (s : NativeState) (id handle : Nat) (ctx : TestContext) : Prop :=
  Denotes s id "TestContext" handle (.context ctx)

section Denoted

variable {s s' : NativeState} {id handle : Nat} {typeName : String} {object : NativeObject}

/-- More instances and more objects change nothing. -/
theorem Denotes.mono (h : Denotes s id typeName handle object)
    (hstructs : s.1.structs <+: s'.1.structs) (hobjects : s.2 <+: s'.2) :
    Denotes s' id typeName handle object := by
  obtain ⟨inst, hinst, hname⟩ := h.instance_
  refine ⟨⟨inst, ?_, hname⟩, ?_⟩
  · exact getElem?_of_isPrefix hstructs hinst
  · exact getElem?_of_isPrefix hobjects h.object

theorem Denotes.set (h : Denotes s id typeName handle object) (object' : NativeObject) :
    Denotes (s.1, s.2.set handle object') id typeName handle object' := by
  refine ⟨h.instance_, ?_⟩
  have hlt := (List.getElem?_eq_some_iff.mp h.object).1
  exact List.getElem?_set_self hlt

/-- The handle of an instance is its own. -/
theorem Denotes.packValue (h : Denotes s id typeName handle object)
    (hc : cStr typeName = typeName) :
    packValue s.1 (.struct id) = .opaqueVal typeName (.void handle) := by
  obtain ⟨inst, hinst, hname, hhandle⟩ := h.instance_
  unfold FalconLib.Typing.FFI.packValue
  dsimp only
  rw [hinst]
  dsimp only
  rw [hhandle, hname, hc]

end Denoted

/-! ## Through the conversions -/

section Conversions

variable {s s' : NativeState} {function : NativeFunction} {params : ParameterMap}

def slots : List FalconResultSlot := List.replicate maxOutputs .nil

theorem marshal_outcome {α : Type} {m : Marshal α} {a : α} {heap : Heap}
    (h : (m s.1).outcome = .ok a heap) : (marshal m s).outcome = .ok a (heap, s.2) := by
  unfold marshal
  rw [h]

theorem callNative_packNil
    (h : (function (packParams s.1 params) slots 0 s).outcome = (packNil slots s').outcome) :
    (callNative function params s).outcome = .ok [.nil] s' := by
  unfold callNative
  rw [Comp.outcome_gets_bind]
  exact (Comp.bind_of_ok h).trans rfl

theorem callNative_packOne {value : RuntimeValue} (hv : Plain s'.1 value)
    (h : (function (packParams s.1 params) slots 0 s).outcome = (packOne value slots s').outcome) :
    (callNative function params s).outcome = .ok [value] s' := by
  have hpack : (packOne value slots s').outcome =
      .ok (packValue s'.1 value :: List.replicate 15 .nil, 1) s' := rfl
  have hone : unpackResults (packValue s'.1 value :: List.replicate 15 .nil) 1 =
      unpackSlots [packValue s'.1 value] := rfl
  unfold callNative
  rw [Comp.outcome_gets_bind]
  refine (Comp.bind_of_ok (h.trans hpack)).trans ?_
  dsimp only
  rw [hone]
  refine marshal_outcome ?_
  unfold unpackSlots
  rw [unpackValue_packValue hv]
  rfl

/-- A new object arrives behind a new instance. -/
theorem callNative_packObject {typeName : String} (hn : typeName ∉ reservedNames) {handle : Nat}
    {heap : Heap} {objects : List NativeObject}
    (h : (function (packParams s.1 params) slots 0 s).outcome =
      (packObject typeName handle slots (heap, objects)).outcome) :
    (callNative function params s).outcome = .ok [.struct heap.structs.length]
      ((heap.allocStruct { typeName := typeName, nativeHandle := some handle }).2, objects) := by
  have hpack : (packObject typeName handle slots (heap, objects)).outcome =
      .ok (.opaqueVal typeName (.void handle) :: List.replicate 15 .nil, 1) (heap, objects) := rfl
  have hone : unpackResults (.opaqueVal typeName (.void handle) :: List.replicate 15 .nil) 1 =
      unpackSlots [.opaqueVal typeName (.void handle)] := rfl
  simp only [reservedNames, List.mem_cons, List.not_mem_nil, or_false, not_or] at hn
  obtain ⟨htuple, harray, hstruct, herror⟩ := hn
  unfold callNative
  rw [Comp.outcome_gets_bind]
  refine (Comp.bind_of_ok (h.trans hpack)).trans ?_
  dsimp only
  rw [hone]
  refine marshal_outcome ?_
  unfold unpackSlots unpackValue unpackOpaque
  dsimp only
  rw [if_neg htuple, if_neg harray, if_neg hstruct, if_neg herror]
  rfl

theorem runnerAt_bind {α : Type} {entries : List FalconParamEntry} {key : String} {id handle : Nat}
    {runner : TestRunner} (h : IsRunner s id handle runner)
    (hkey : getOpaque entries key = pure handle) (f : Nat × TestRunner → Native α) :
    ((runnerAt entries key >>= f) s).outcome = (f (handle, runner) s).outcome := by
  refine Comp.bind_of_ok ?_
  unfold runnerAt
  rw [hkey]
  refine (Comp.bind_of_ok (marshal_outcome rfl)).trans ?_
  rw [Comp.outcome_gets_bind]
  dsimp only
  rw [h.object]
  rfl

theorem contextAt_bind {α : Type} {entries : List FalconParamEntry} {key : String}
    {id handle : Nat} {ctx : TestContext} (h : IsContext s id handle ctx)
    (hkey : getOpaque entries key = pure handle) (f : Nat × TestContext → Native α) :
    ((contextAt entries key >>= f) s).outcome = (f (handle, ctx) s).outcome := by
  refine Comp.bind_of_ok ?_
  unfold contextAt
  rw [hkey]
  refine (Comp.bind_of_ok (marshal_outcome rfl)).trans ?_
  rw [Comp.outcome_gets_bind]
  dsimp only
  rw [h.object]
  rfl

end Conversions

/-! ## The functions that the harness calls -/

section Functions

variable {s : NativeState} {id handle : Nat} {runner : TestRunner}

/-- The parameters of a call without arguments. -/
def receiverParams (id : Nat) : ParameterMap := StdMap.assign ∅ "this" (.struct id)

theorem packParams_receiver (h : IsRunner s id handle runner) :
    packParams s.1 (receiverParams id) = [⟨"this", .opaqueVal "TestRunner" (.void handle)⟩] := by
  have hlist : (receiverParams id).toList = [("this", .struct id)] := rfl
  have hthis : cStr "this" = "this" := cStr_of_not_mem (by decide)
  unfold packParams
  rw [hlist, List.map_singleton, h.packValue (cStr_of_not_mem (by decide)), hthis]

theorem call_runnerGet (h : IsRunner s id handle runner) {value : TestRunner → RuntimeValue}
    (hv : Plain s.1 (value runner)) :
    (callNative (runnerGet value) (receiverParams id) s).outcome = .ok [value runner] s := by
  refine callNative_packOne hv ?_
  rw [packParams_receiver h]
  exact runnerAt_bind h rfl _

theorem call_printHeader (h : IsRunner s id handle runner) :
    (callNative runnerPrintHeader (receiverParams id) s).outcome = .ok [.nil] s := by
  refine callNative_packNil ?_
  rw [packParams_receiver h]
  exact runnerAt_bind h rfl _

/-- The summary finds a result for each test. -/
theorem printResults_outcome {names : List String} {results : List Bool}
    {messages : List (List String)} (hr : names.length ≤ results.length)
    (hm : names.length ≤ messages.length) (s : NativeState) :
    (printResults names results messages s).outcome = .ok () s := by
  induction names generalizing results messages with
  | nil => rfl
  | cons name names ih =>
    cases results with
    | nil => cases hr
    | cons result results =>
      cases messages with
      | nil => cases hm
      | cons message messages =>
        have hresults : names.length ≤ results.length := Nat.le_of_succ_le_succ hr
        have hmessages : names.length ≤ messages.length := Nat.le_of_succ_le_succ hm
        cases result with
        | true => exact ih hresults hmessages
        | false => exact ih hresults hmessages

theorem call_printSummary (h : IsRunner s id handle runner)
    (hr : runner.testNames.length ≤ runner.results.length)
    (hm : runner.testNames.length ≤ runner.failureMsgs.length) :
    (callNative runnerPrintSummary (receiverParams id) s).outcome = .ok [.nil] s := by
  have htake (n : Nat) : (runner.testNames.take n).length ≤ runner.testNames.length :=
    List.length_take_le' n _
  refine callNative_packNil ?_
  rw [packParams_receiver h]
  refine (runnerAt_bind h rfl _).trans ?_
  dsimp only
  exact Comp.bind_of_ok (printResults_outcome ((htake _).trans hr) ((htake _).trans hm) s)

theorem call_beginCurrent (h : IsRunner s id handle runner) :
    ∃ s' fresh, (callNative runnerBeginCurrent (receiverParams id) s).outcome =
      .ok [.struct fresh] s' ∧ IsRunner s' id handle runner ∧
        ∃ handle', IsContext s' fresh handle' { name := runner.currentName } := by
  let object : NativeObject := .context { name := runner.currentName }
  have hfunction : (runnerBeginCurrent (packParams s.1 (receiverParams id)) slots 0 s).outcome =
      (packObject "TestContext" s.2.length slots (s.1, s.2 ++ [object])).outcome := by
    rw [packParams_receiver h]
    exact runnerAt_bind h rfl _
  have hcall := callNative_packObject (by decide) hfunction
  refine ⟨_, _, hcall, h.mono (List.prefix_append _ _) (List.prefix_append _ _), s.2.length, ?_⟩
  exact ⟨⟨_, List.getElem?_concat_length, rfl, rfl⟩, List.getElem?_concat_length⟩

/-- The parameters of `EndCurrent`. -/
def endParams (id ctxId : Nat) : ParameterMap := (receiverParams id).assign "ctx" (.struct ctxId)

theorem call_endCurrent (h : IsRunner s id handle runner) {ctxId ctxHandle : Nat}
    {ctx : TestContext} (hc : IsContext s ctxId ctxHandle ctx)
    (hidx : runner.currentIdx.toInt + 1 < 2 ^ 31) :
    ∃ s', (callNative runnerEndCurrent (endParams id ctxId) s).outcome = .ok [.nil] s' ∧
      s'.1 = s.1 ∧ IsRunner s' id handle (runner.endCurrent ctx) := by
  have hlist : (endParams id ctxId).toList = [("ctx", .struct ctxId), ("this", .struct id)] := rfl
  have hthis : cStr "this" = "this" := cStr_of_not_mem (by decide)
  have hctx : cStr "ctx" = "ctx" := cStr_of_not_mem (by decide)
  have hpack : packParams s.1 (endParams id ctxId) =
      [⟨"ctx", .opaqueVal "TestContext" (.void ctxHandle)⟩,
        ⟨"this", .opaqueVal "TestRunner" (.void handle)⟩] := by
    unfold packParams
    rw [hlist, List.map_cons, List.map_singleton, h.packValue (cStr_of_not_mem (by decide)), hthis,
      hc.packValue (cStr_of_not_mem (by decide)), hctx]
  refine ⟨(s.1, s.2.set handle (.runner (runner.endCurrent ctx))), callNative_packNil ?_, rfl,
    h.set _⟩
  rw [hpack]
  refine (runnerAt_bind h rfl _).trans ((contextAt_bind hc rfl _).trans ?_)
  dsimp only
  rw [if_pos hidx]
  rfl

theorem unpackValue_str {value : String} (h : byteCount value.toList < 2 ^ 31) (heap : Heap) :
    unpackValue (.str value (Int32.ofNat (byteCount value.toList))) heap =
      ⟨[], .ok (.string value) heap⟩ := by
  have hplain : Plain heap (.string value) := h
  exact congrFun (unpackValue_packValue hplain) heap

/-- The parameters of `Register`. -/
def registerParams (id : Nat) (name : String) : ParameterMap :=
  (receiverParams id).assign "test_name" (.string name)

theorem call_register (h : IsRunner s id handle runner) {name : String}
    (hn : byteCount name.toList < 2 ^ 31) :
    ∃ s', (callNative runnerRegister (registerParams id name) s).outcome = .ok [.nil] s' ∧
      IsRunner s' id handle (runner.registerTest name) := by
  have hlist : (registerParams id name).toList =
      [("test_name", .string name), ("this", .struct id)] := rfl
  have hthis : cStr "this" = "this" := cStr_of_not_mem (by decide)
  have hkey : cStr "test_name" = "test_name" := cStr_of_not_mem (by decide)
  let entries : List FalconParamEntry :=
    [⟨"test_name", .str name (Int32.ofNat (byteCount name.toList))⟩,
      ⟨"this", .opaqueVal "TestRunner" (.void handle)⟩]
  have hpack : packParams s.1 (registerParams id name) = entries := by
    unfold packParams
    rw [hlist, List.map_cons, List.map_singleton, h.packValue (cStr_of_not_mem (by decide)), hthis,
      hkey]
    rfl
  let heap : Heap := (s.1.allocStruct { typeName := "TestRunner", nativeHandle := some handle }).2
  let params : ParameterMap :=
    (StdMap.assign ∅ "test_name" (.string name)).assign "this" (.struct s.1.structs.length)
  have hunpack : (unpackParams entries ∅ s.1).outcome = .ok params heap :=
    (Comp.bind_of_ok (congrArg Base.Run.outcome (unpackValue_str hn s.1))).trans rfl
  have hreceived : IsRunner (heap, s.2) id handle runner :=
    h.mono (List.prefix_append _ _) (List.prefix_refl _)
  refine ⟨(heap, s.2.set handle (.runner (runner.registerTest name))), callNative_packNil ?_,
    hreceived.set _⟩
  rw [hpack]
  refine (Comp.bind_of_ok (marshal_outcome hunpack)).trans ?_
  exact (runnerAt_bind hreceived rfl _).trans rfl

/-- The parameters of `New`: a receiver that is not native is not passed on. -/
def newParams (suiteName : String) : ParameterMap :=
  StdMap.assign ∅ "suite_name" (.string suiteName)

theorem call_new {suiteName : String} (hn : byteCount suiteName.toList < 2 ^ 31)
    (s : NativeState) :
    ∃ s' fresh, (callNative runnerNew (newParams suiteName) s).outcome =
      .ok [.struct fresh] s' ∧ ∃ handle, IsRunner s' fresh handle { suiteName := suiteName } := by
  have hlist : (newParams suiteName).toList = [("suite_name", .string suiteName)] := rfl
  have hkey : cStr "suite_name" = "suite_name" := cStr_of_not_mem (by decide)
  let entries : List FalconParamEntry :=
    [⟨"suite_name", .str suiteName (Int32.ofNat (byteCount suiteName.toList))⟩]
  have hpack : packParams s.1 (newParams suiteName) = entries := by
    unfold packParams
    rw [hlist, List.map_singleton, hkey]
    rfl
  have hunpack : (unpackParams entries ∅ s.1).outcome = .ok (newParams suiteName) s.1 :=
    (Comp.bind_of_ok (congrArg Base.Run.outcome (unpackValue_str hn s.1))).trans rfl
  have hfunction : (runnerNew (packParams s.1 (newParams suiteName)) slots 0 s).outcome =
      (packObject "TestRunner" s.2.length slots
        (s.1, s.2 ++ [.runner { suiteName := suiteName }])).outcome := by
    rw [hpack]
    exact (Comp.bind_of_ok (marshal_outcome hunpack)).trans rfl
  have hcall := callNative_packObject (by decide) hfunction
  refine ⟨_, _, hcall, s.2.length, ?_⟩
  exact ⟨⟨_, List.getElem?_concat_length, rfl, rfl⟩, List.getElem?_concat_length⟩

end Functions

/-! ## Through the interpreter -/

section Interpreted

variable {S : Type} {ctx : Context S} {view : S → List NativeObject} {path : String} {w : World S}

def stateOf (view : S → List NativeObject) (w : World S) : NativeState := (w.heap, view w.store)

/-- The world after a call of the library. -/
structure After (view : S → List NativeObject) (w : World S) (s : NativeState) (w' : World S) :
    Prop where
  state : stateOf view w' = s
  types : w'.types = w.types
  memberVariables : w'.memberVariables = w.memberVariables

theorem runHost_implemented {symbol : ForeignSymbol} {function : NativeFunction}
    (h : Implements ctx.host view symbol function) {params : ParameterMap} {values : FunctionResult}
    {s : NativeState} (hc : (callNative function params (stateOf view w)).outcome = .ok values s)
    (receiver : RuntimeValue) :
    ∃ w', (runHost (ctx.host.callMethod symbol receiver params) w).outcome = .ok values w' ∧
      After view w s w' := by
  have hcall := h receiver params w.heap w.store
  unfold stateOf at hc
  rw [hc] at hcall
  obtain ⟨store, hview, hcall⟩ := hcall
  refine ⟨{ w with
    heap := s.1
    store := store }, ?_, ?_, rfl, rfl⟩
  · exact runHost_outcome hcall
  · unfold stateOf
    dsimp only
    rw [hview]

/-- A routine of the runner is a call of the library. -/
theorem execRunner_outcome (hopen : Opened ctx.host view path) (hreg : Registered path w.types)
    {moduleName : String} {routine : RoutineDecl} (hr : routine ∈ (runnerDecl moduleName).routines)
    {function : NativeFunction}
    (hf : functions.lookup (symbol path "TestRunner" routine.name).symbol = some function)
    {receiver : Nat} {args : List RuntimeValue} {values : FunctionResult} {s : NativeState}
    (hc : (callNative function (StructRoutine.foreignParams
      ((w.heap.structs[receiver]?.bind StructInstance.nativeHandle).isSome) receiver routine args)
        (stateOf view w)).outcome = .ok values s) (depth : Nat) :
    ∃ w', ((Interpreter.handlers ctx (depth + 1)).execStructRoutine receiver (runnerDecl moduleName)
      routine args w).outcome = .ok values w' ∧ After view w s w' := by
  have hbody : routine.body = [] := by
    simp only [runnerDecl, List.mem_cons, List.not_mem_nil, or_false] at hr
    rcases hr with rfl | rfl | rfl | rfl | rfl | rfl | rfl | rfl | rfl | rfl <;> rfl
  have hmethod := hreg.methods (runnerDecl "") (List.mem_cons_of_mem _ List.mem_cons_self) routine hr
  have hlookup : (ExprEvaluator.ffiMethodOrBase "TestRunner" routine.name w).outcome =
      .ok (some (symbol path "TestRunner" routine.name)) w := by
    have hffi : (registeredFfiMethod "TestRunner" routine.name w).outcome =
        .ok (some (symbol path "TestRunner" routine.name)) w := congrArg (Base.Outcome.ok · w) hmethod
    have hregistered : (lookupFfiMethod "TestRunner" routine.name w).outcome =
        .ok (some (symbol path "TestRunner" routine.name)) w := Comp.bind_of_ok hffi
    exact Comp.bind_of_ok hregistered
  obtain ⟨w', hrun, hafter⟩ := runHost_implemented (hopen _ _ hf) hc (.struct receiver)
  refine ⟨w', ?_, hafter⟩
  change (StructRoutine.execStructRoutine _ _ _ _ _ _ w).outcome = _
  unfold StructRoutine.execStructRoutine
  rw [hbody, if_pos List.isEmpty_nil]
  unfold StructRoutine.execForeign
  exact (Comp.bind_of_ok hlookup).trans hrun

/-- A call on a variable that holds the runner. -/
theorem evaluate_runnerCall (hopen : Opened ctx.host view path) (hreg : Registered path w.types)
    {x : String} {id handle : Nat} {runner : TestRunner}
    (hx : w.memberVariables[x]? = some (.struct id)) (h : IsRunner (stateOf view w) id handle runner)
    {name : String} {routine : RoutineDecl} (hfind : (runnerDecl "").findRoutine name = some routine)
    {function : NativeFunction}
    (hf : functions.lookup (symbol path "TestRunner" routine.name).symbol = some function)
    {depth : Nat} {args : List Expr} {argValues : List RuntimeValue}
    (hargs : (ExprEvaluator.evaluateList ctx (Interpreter.handlers ctx (depth + 1)) .member args
      w).outcome = .ok argValues w) {value : RuntimeValue} {s : NativeState}
    (hc : (callNative function (StructRoutine.foreignParams true id routine argValues)
      (stateOf view w)).outcome = .ok [value] s) :
    ∃ w', (ExprEvaluator.evaluate ctx (Interpreter.handlers ctx (depth + 1)) .member
      (.methodCall {} (.var {} x) name args) w).outcome = .ok value w' ∧ After view w s w' := by
  obtain ⟨moduleName, hdecl⟩ := hreg.runner
  obtain ⟨inst, hinst, hname, hhandle⟩ := h.instance_
  have hinst : w.heap.structs[id]? = some inst := hinst
  have hnative : (w.heap.structs[id]?.bind StructInstance.nativeHandle).isSome = true := by
    rw [hinst, Option.bind_some, hhandle]
    rfl
  have hfound : RoutineRuns.found w.types inst.typeName = some (runnerDecl moduleName) := by
    unfold RoutineRuns.found
    rw [hname, hdecl]
    rfl
  rw [← hnative] at hc
  have hmem : routine ∈ (runnerDecl moduleName).routines := List.mem_of_find?_eq_some hfind
  obtain ⟨w', hexec, hafter⟩ := execRunner_outcome hopen hreg hmem hf hc depth
  refine ⟨w', ?_, hafter⟩
  have hstatic : (ExprEvaluator.staticReceiver .member {} (.var {} x) w).outcome = .ok none w :=
    StaticDispatch.staticReceiver_of_bound hx {} {}
  refine (Comp.bind_of_ok hstatic).trans ?_
  have hvariable : (ExprEvaluator.evaluate ctx (Interpreter.handlers ctx (depth + 1)) .member
      (.var {} x) w).outcome = .ok (.struct id) w := by
    change (ExprEvaluator.evalVariable .member x w).outcome = _
    unfold ExprEvaluator.evalVariable
    rw [Comp.outcome_gets_bind]
    dsimp only [Variables.read]
    rw [hx]
    rfl
  refine (Comp.bind_of_ok hvariable).trans ?_
  refine (RoutineRuns.callOnValue_outcome hinst hfound hfind hargs).trans ?_
  exact Comp.bind_of_ok hexec

/-- `TestRunner.New` makes a runner without tests. -/
theorem evaluate_new (hopen : Opened ctx.host view path) (hreg : Registered path w.types)
    (hu : StaticDispatch.Unbound .member w "TestRunner") {suiteName : String}
    (hn : byteCount suiteName.toList < 2 ^ 31) (depth : Nat) :
    ∃ w' id handle, (ExprEvaluator.evaluate ctx (Interpreter.handlers ctx (depth + 1)) .member
      (.methodCall {} (.var {} "TestRunner") "New" [.literal {} (.string suiteName)]) w).outcome =
        .ok (.struct id) w' ∧ w'.types = w.types ∧ w'.memberVariables = w.memberVariables ∧
      IsRunner (stateOf view w') id handle { suiteName := suiteName } := by
  obtain ⟨moduleName, hdecl⟩ := hreg.runner
  have hdenoted : StaticDispatch.denoted w.types "TestRunner" = some (runnerDecl moduleName) := by
    unfold StaticDispatch.denoted RoutineRuns.found
    rw [hdecl]
    rfl
  have hstatic := StaticDispatch.staticReceiver_outcome hu {} {}
  change _ = Base.Outcome.ok ((StaticDispatch.denoted w.types "TestRunner").map _) w at hstatic
  rw [hdenoted] at hstatic
  let received : World S :=
    { w with heap := (w.heap.allocStruct { typeName := "TestRunner" }).2 }
  have hnative : (received.heap.structs[w.heap.structs.length]?.bind
      StructInstance.nativeHandle).isSome = false := by
    have hinst : received.heap.structs[w.heap.structs.length]? =
        some { typeName := "TestRunner" } := List.getElem?_concat_length
    rw [hinst]
    rfl
  obtain ⟨s', fresh, hcall, handle, hrunner⟩ := call_new hn (stateOf view received)
  have hreceived : Registered path received.types := hreg
  obtain ⟨routine, hfind, hname, hparams⟩ : ∃ routine,
      (runnerDecl moduleName).findRoutine "New" = some routine ∧ routine.name = "New" ∧
        StructRoutine.foreignParams false w.heap.structs.length routine [.string suiteName] =
          newParams suiteName := ⟨_, rfl, rfl, rfl⟩
  rw [← hparams, ← hnative] at hcall
  obtain ⟨w', hexec, hafter⟩ := execRunner_outcome (w := received) hopen hreceived
    (List.mem_of_find?_eq_some hfind) (by rw [hname]; rfl) hcall depth
  refine ⟨w', fresh, handle, ?_, hafter.types, hafter.memberVariables, hafter.state ▸ hrunner⟩
  refine (Comp.bind_of_ok hstatic).trans ?_
  have hreceiver : (ExprEvaluator.constructReceiver (Interpreter.handlers ctx (depth + 1)) .member
      (runnerDecl moduleName) w).outcome = .ok w.heap.structs.length received := rfl
  dsimp only [Option.map_some]
  unfold ExprEvaluator.callStatic
  have hinst : (ExprEvaluator.instantiate (runnerDecl moduleName) [] w).outcome =
      .ok (runnerDecl moduleName) w := rfl
  refine (Comp.bind_of_ok hinst).trans ?_
  rw [hfind]
  refine (Comp.bind_of_ok hreceiver).trans ?_
  exact (Comp.bind_of_ok (m := ExprEvaluator.evaluateList ctx _ .member _) rfl).trans
    (Comp.bind_of_ok hexec)

end Interpreted

/-! ## The library, loaded -/

/-- The module of the declarations. -/
def testingModule : Program where
  moduleName := "testing"
  structs := [contextDecl "", runnerDecl ""]
  ffImports := [{
    wrapperFile := "testing-wrapper.cpp"
    imports := ["/opt/falcon/include/"]
    buildLibs := ["/opt/falcon/lib/libgtest.so"] }]

/-- A linker that compiles the wrapper to `path`. -/
def linker (path : String) : Linker := fun _ =>
  some { path := path, symbols := "STRUCTTestContextExpectFloatEq" :: functions.map Prod.fst }

/-- The registry once the module is loaded. -/
def loadedTypes (path : String) : TypeRegistry :=
  (AutotunerEngine.create.loadProgram ⟨testingModule, linker path⟩).1.typeRegistry

/-- A process that has the compiled wrapper open and nothing else. -/
def host : Host (List NativeObject) where
  call symbol _ heap objects := (.error (.other ("no symbol " ++ symbol.symbol)), heap, objects)
  callMethod symbol _ params heap objects :=
    match functions.lookup symbol.symbol with
    | some function =>
      match (callNative function params (heap, objects)).outcome with
      | .ok values (heap, objects) => (.ok values, heap, objects)
      | .throw e (heap, objects) => (.error e, heap, objects)
      | .halt _ => (.error (.other "undefined behaviour"), heap, objects)
    | none => (.error (.other ("no symbol " ++ symbol.symbol)), heap, objects)

theorem opened_host (path : String) : Opened host id path := by
  intro name function hf receiver params heap objects
  have hcall : host.callMethod ⟨path, name⟩ receiver params heap objects =
      match (callNative function params (heap, objects)).outcome with
      | .ok values (heap, objects) => (.ok values, heap, objects)
      | .throw e (heap, objects) => (.error e, heap, objects)
      | .halt _ => (.error (.other "undefined behaviour"), heap, objects) := by
    unfold host
    dsimp only
    rw [hf]
  rw [hcall]
  dsimp only [id]
  cases (callNative function params (heap, objects)).outcome with
  | ok values s => exact ⟨s.2, rfl, rfl⟩
  | throw e s => exact ⟨s.2, rfl, rfl⟩
  | halt r => trivial

theorem registered_load : Registered "testing-wrapper.so" (loadedTypes "testing-wrapper.so") where
  context := ⟨"testing", rfl⟩
  runner := ⟨"testing", rfl⟩
  methods := by decide +kernel
end FalconLib.Libs.Testing
