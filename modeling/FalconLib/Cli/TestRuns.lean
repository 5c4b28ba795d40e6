import FalconLib.Cli.TestMain
import FalconLib.Dsl.StatePaths
import FalconLib.Libs.TestingCalls

/-!
# Runs of a test suite

The injected states run the tests of a suite one after the other. A round of the loop goes through
one test; the runner counts the rounds and keeps a result for each.
-/

namespace FalconLib.Cli.TestRuns

open FalconLib.Base (Comp StdMap)
open FalconLib.Dsl
open FalconLib.Libs.Testing
open FalconLib.Typing.FFI (byteCount)
open ExprEvaluator (evaluate evaluateList)
open Interpreter (executeState findState prepare)
open StateMachine StatePaths VariableFrame
open TestMain

variable {S : Type}

/-- A suite, and where it is run. -/
structure SuiteRun (S : Type) where
  ctx : Context S
  depth : Nat
  view : S → List NativeObject
  path : String
  suite : SuiteInfo
  autotuner : AutotunerDecl
  start : World S

def harnessNames : List String :=
  ["__init", "__loop", "__begin", "__dispatch", "__end", "__finish"]

namespace SuiteRun

variable (run : SuiteRun S)

def loaded : AutotunerDecl := run.suite.transform run.autotuner

def handlers : Handlers S := Interpreter.handlers run.ctx (run.depth + 1)

/-- The run enters the state. -/
def Entered (entry : Entry S) : Prop :=
  Enters run.ctx (run.depth + 1) run.loaded ∅ run.start entry.name entry.args entry.world

def Goes (entry : Entry S) (visited : List String) (last : Entry S) : Prop :=
  StatePaths.Goes run.ctx (run.depth + 1) run.loaded entry visited last

def state (w : World S) : NativeState := stateOf run.view w

/-- The name is that of a state of the user that the harness does not dispatch to. -/
def Inner (name : String) : Prop := name ∉ harnessNames ∧ name ∉ run.suite.testNames

/-- A suite that is loaded, up to its first state. -/
structure Ready (w₁ : World S) : Prop where
  opened : Opened run.ctx.host run.view run.path
  registered : Registered run.path run.start.types
  outputs : run.autotuner.outputParams.map (·.name) = ["passed", "failed"]
  entry : run.autotuner.entryState = "__init"
  own : ∀ state ∈ run.autotuner.states, state.name ∉ harnessNames
  names : ∀ name ∈ run.suite.testNames, ['t', 'e', 's', 't', '_'] <+: name.toList
  untargeted : ∀ state ∈ run.autotuner.states, ∀ location target args,
    .transition location target args ∈ blockStmts state.body → target ∉ run.suite.testNames
  prepared : (prepare run.ctx run.handlers run.loaded ∅ (cleared run.start)).outcome = .ok [] w₁

/-! ## Calls of the runner in the states -/

section Calls

variable {run : SuiteRun S} {w₁ w : World S} {id handle : Nat} {runner : TestRunner}

/-- What is true of the variable `runner` where a state calls it. -/
structure Calls (run : SuiteRun S) (w : World S) (id handle : Nat) (runner : TestRunner) : Prop where
  registered : Registered run.path w.types
  variable_ : w.memberVariables["runner"]? = some (.struct id)
  runner : IsRunner (run.state w) id handle runner

/-- After a call, the next variable but `runner` is declared. -/
theorem Calls.after (h : Calls run w id handle runner) {w' : World S} {s : NativeState}
    (hafter : After run.view w s w') {runner' : TestRunner} (hrunner : IsRunner s id handle runner')
    {x : String} (hx : x ≠ "runner") (value : RuntimeValue) :
    Calls run (declared w' x value) id handle runner' := by
  refine ⟨?_, ?_, ?_⟩
  · change Registered run.path w'.types
    rw [hafter.types]
    exact h.registered
  · change (w'.memberVariables.assign x value)["runner"]? = _
    rw [StdMap.getElem?_assign_ne _ _ hx, hafter.memberVariables]
    exact h.variable_
  · change IsRunner (stateOf run.view w') id handle runner'
    rw [hafter.state]
    exact hrunner

theorem Calls.args (h : Calls run w id handle runner) :
    (evaluateList run.ctx run.handlers .member (vars ["runner"]) w).outcome =
      .ok [.struct id] w := StatePaths.evaluateList_vars (.cons h.variable_ .nil)

/-- The value of a call, and the state of the library after it. -/
def Yields (run : SuiteRun S) (w : World S) (method : String) (args : List Expr)
    (value : RuntimeValue) (s : NativeState) : Prop :=
  ∃ w', (evaluate run.ctx run.handlers .member (call "runner" method args) w).outcome =
    .ok value w' ∧ After run.view w s w'

theorem yields_of_call (hready : run.Ready w₁) (h : Calls run w id handle runner) {method : String}
    (routine : RoutineDecl) (hfind : (runnerDecl "").findRoutine method = some routine)
    {function : NativeFunction}
    (hf : functions.lookup (symbol run.path "TestRunner" routine.name).symbol = some function)
    {args : List Expr} {values : List RuntimeValue}
    (hargs : (evaluateList run.ctx run.handlers .member args w).outcome = .ok values w)
    {params : ParameterMap} (hp : StructRoutine.foreignParams true id routine values = params)
    {value : RuntimeValue} {s : NativeState}
    (hc : (callNative function params (run.state w)).outcome = .ok [value] s) :
    Yields run w method args value s := by
  subst hp
  exact evaluate_runnerCall hready.opened h.registered h.variable_ h.runner hfind hf hargs hc

variable (hready : run.Ready w₁) (h : Calls run w id handle runner)
include hready h

theorem yields_hasNext : Yields run w "HasNext" [] (.bool runner.hasNext) (run.state w) :=
  yields_of_call hready h (routine "HasNext" [] (boolParam "has_next")) rfl rfl rfl rfl
    (call_runnerGet h.runner trivial)

theorem yields_currentName (hs : byteCount runner.currentName.toList < 2 ^ 31) :
    Yields run w "CurrentName" [] (.string runner.currentName) (run.state w) := by
  have hplain : Typing.FFI.Plain (run.state w).1 (.string runner.currentName) := hs
  have hcall : (callNative runnerCurrentName (receiverParams id) (run.state w)).outcome =
      .ok [.string runner.currentName] (run.state w) := by
    unfold runnerCurrentName
    exact call_runnerGet h.runner hplain
  exact yields_of_call hready h (routine "CurrentName" [] (stringParam "name")) rfl rfl rfl rfl hcall

theorem yields_passedCount :
    Yields run w "PassedCount" [] (.int runner.passed.toInt64) (run.state w) :=
  yields_of_call hready h (routine "PassedCount" [] (intParam "count")) rfl rfl rfl rfl
    (call_runnerGet h.runner trivial)

theorem yields_failedCount :
    Yields run w "FailedCount" [] (.int runner.failed.toInt64) (run.state w) :=
  yields_of_call hready h (routine "FailedCount" [] (intParam "count")) rfl rfl rfl rfl
    (call_runnerGet h.runner trivial)

theorem yields_printHeader : Yields run w "PrintHeader" [] .nil (run.state w) :=
  yields_of_call hready h (action "PrintHeader" []) rfl rfl rfl rfl (call_printHeader h.runner)

theorem yields_printSummary (hr : runner.testNames.length ≤ runner.results.length)
    (hm : runner.testNames.length ≤ runner.failureMsgs.length) :
    Yields run w "PrintSummary" [] .nil (run.state w) :=
  yields_of_call hready h (action "PrintSummary" []) rfl rfl rfl rfl
    (call_printSummary h.runner hr hm)

theorem yields_beginCurrent : ∃ s' fresh, Yields run w "BeginCurrent" [] (.struct fresh) s' ∧
    IsRunner s' id handle runner ∧
      ∃ handle', IsContext s' fresh handle' { name := runner.currentName } := by
  obtain ⟨s', fresh, hcall, hleft⟩ := call_beginCurrent h.runner
  exact ⟨s', fresh, yields_of_call hready h (routine "BeginCurrent" [] (contextParam "ctx")) rfl rfl
    rfl rfl hcall, hleft⟩

theorem yields_endCurrent {ctxId ctxHandle : Nat} {ctx : TestContext}
    (ht : w.memberVariables["t"]? = some (.struct ctxId))
    (hc : IsContext (run.state w) ctxId ctxHandle ctx)
    (hidx : runner.currentIdx.toInt + 1 < 2 ^ 31) :
    ∃ s', Yields run w "EndCurrent" [.var {} "t"] .nil s' ∧
      IsRunner s' id handle (runner.endCurrent ctx) := by
  obtain ⟨s', hcall, _, hleft⟩ := call_endCurrent h.runner hc hidx
  have hargs : (evaluateList run.ctx run.handlers .member [.var {} "t"] w).outcome =
      .ok [.struct ctxId] w := StatePaths.evaluateList_vars (.cons ht .nil)
  exact ⟨s', yields_of_call hready h (action "EndCurrent" [contextParam "ctx"]) rfl rfl hargs rfl
    hcall, hleft⟩

theorem yields_register {name : String} (hn : byteCount name.toList < 2 ^ 31) :
    ∃ s', Yields run w "Register" [text name] .nil s' ∧
      IsRunner s' id handle (runner.registerTest name) := by
  obtain ⟨s', hcall, hleft⟩ := call_register h.runner hn
  have hargs : (evaluateList run.ctx run.handlers .member [text name] w).outcome =
      .ok [.string name] w := rfl
  have hparams : StructRoutine.foreignParams true id (action "Register" [stringParam "test_name"])
      [.string name] = registerParams id name := rfl
  exact ⟨s', yields_of_call hready h (action "Register" [stringParam "test_name"]) rfl rfl hargs
    hparams hcall, hleft⟩

end Calls

/-! ## The injected states -/

section States

variable {run : SuiteRun S} {w₁ : World S}

theorem findState_harness (hready : run.Ready w₁) {name : String} {state : StateDecl}
    (hn : name ∈ harnessNames)
    (h : run.suite.generateHarnessStates.find? (fun state => state.name == name) = some state) :
    findState run.loaded name = some state := by
  unfold findState SuiteRun.loaded SuiteInfo.transform
  dsimp only
  have hnone : run.autotuner.states.find? (fun state => state.name == name) = none := by
    rw [List.find?_eq_none]
    intro state hm he
    have he : state.name = name := eq_of_beq he
    exact hready.own state hm (he ▸ hn)
  rw [List.find?_append, hnone, Option.none_or, h]

/-- What an injected state leaves: the state of the library, and the registry. -/
structure Left (run : SuiteRun S) (w : World S) (s : NativeState) (w' : World S) : Prop where
  state : run.state w' = s
  types : w'.types = w.types

theorem goes_of_ends {name target : String} {state : StateDecl} {args values : List RuntimeValue}
    {w entered left : World S} {s : NativeState} (hs : findState run.loaded name = some state)
    (hl : state.inputParameters.length = args.length)
    (hentered : { w with
      memberVariables := bound w.memberVariables state.inputParameters args } = entered)
    (hb : Ends run.ctx run.handlers state.body entered (.transition target values) left)
    (hleft : Left run w s left) :
    ∃ w', run.Goes ⟨name, args, w⟩ [name] ⟨target, values, w'⟩ ∧ Left run w s w' := by
  subst hentered
  exact ⟨_, .single hs (executeState_outcome hl hb), hleft.state, hleft.types⟩

/-- The loop goes on to the next test, or to the end. -/
theorem loop_goes (hready : run.Ready w₁) {id handle : Nat} {runner : TestRunner} {w : World S}
    (hreg : Registered run.path w.types) (h : IsRunner (run.state w) id handle runner) :
    ∃ w', run.Goes ⟨"__loop", [.struct id], w⟩ ["__loop"]
      ⟨if runner.hasNext then run.suite.setupState else "__finish", [.struct id], w'⟩ ∧
        Left run w (run.state w) w' := by
  have hcalls : Calls run (declared w "runner" (.struct id)) id handle runner :=
    ⟨hreg, StdMap.getElem?_assign_self _ _ _, h⟩
  obtain ⟨w₂, hmore, hafter⟩ := yields_hasNext hready hcalls
  have hdecided : Calls run (declared w₂ "more" (.bool runner.hasNext)) id handle runner :=
    hcalls.after hafter h (by decide) _
  have hbody : Ends run.ctx run.handlers run.suite.loopState.body
      (declared w "runner" (.struct id))
      (.transition (if runner.hasNext then run.suite.setupState else "__finish") [.struct id])
      (declared w₂ "more" (.bool runner.hasNext)) := by
    refine .varDecl rfl hmore (.ifStmt (evaluate_var (StdMap.getElem?_assign_self _ _ _)) ?_ nofun)
    by_cases hnext : runner.hasNext = true
    · rw [if_pos hnext, if_pos hnext]
      exact .transition hdecided.args
    · rw [if_neg hnext, if_neg hnext]
      exact .transition hdecided.args
  have hleft : Left run w (run.state w) (declared w₂ "more" (.bool runner.hasNext)) :=
    ⟨hafter.state, hafter.types⟩
  exact goes_of_ends (findState_harness hready (by decide) rfl) rfl rfl hbody hleft

/-- `BeginCurrent` makes the context that the test gets. -/
theorem begin_goes (hready : run.Ready w₁) {id handle : Nat} {runner : TestRunner} {w : World S}
    (hreg : Registered run.path w.types) (h : IsRunner (run.state w) id handle runner) :
    ∃ w' fresh, run.Goes ⟨"__begin", [.struct id], w⟩ ["__begin"]
      ⟨"__dispatch", [.struct id, .struct fresh], w'⟩ ∧ w'.types = w.types ∧
        IsRunner (run.state w') id handle runner ∧
          ∃ handle', IsContext (run.state w') fresh handle' { name := runner.currentName } := by
  have hcalls : Calls run (declared w "runner" (.struct id)) id handle runner :=
    ⟨hreg, StdMap.getElem?_assign_self _ _ _, h⟩
  obtain ⟨s', fresh, ⟨w₂, hbegin, hafter⟩, hrunner, hcontext⟩ := yields_beginCurrent hready hcalls
  have hbegun : Calls run (declared w₂ "t" (.struct fresh)) id handle runner :=
    hcalls.after hafter hrunner (by decide) _
  have hargs : (evaluateList run.ctx run.handlers .member (vars ["runner", "t"])
      (declared w₂ "t" (.struct fresh))).outcome =
        .ok [.struct id, .struct fresh] (declared w₂ "t" (.struct fresh)) :=
    StatePaths.evaluateList_vars
      (.cons hbegun.variable_ (.cons (StdMap.getElem?_assign_self _ _ _) .nil))
  have hbody : Ends run.ctx run.handlers SuiteInfo.beginState.body (declared w "runner" (.struct id))
      (.transition "__dispatch" [.struct id, .struct fresh]) (declared w₂ "t" (.struct fresh)) :=
    .varDecl rfl hbegin (.transition hargs)
  have hleft : Left run w s' (declared w₂ "t" (.struct fresh)) := ⟨hafter.state, hafter.types⟩
  have hstate : findState run.loaded "__begin" = some SuiteInfo.beginState :=
    findState_harness hready (by decide) rfl
  have hlength : SuiteInfo.beginState.inputParameters.length = [RuntimeValue.struct id].length := rfl
  have hentered : { w with
      memberVariables := bound w.memberVariables SuiteInfo.beginState.inputParameters [.struct id] } =
        declared w "runner" (.struct id) := rfl
  obtain ⟨w', hgoes, hleft⟩ := goes_of_ends hstate hlength hentered hbody hleft
  refine ⟨w', fresh, hgoes, hleft.types, ?_⟩
  rw [hleft.state]
  exact ⟨hrunner, hcontext⟩

theorem evaluate_sameName (ctx : Context S) (h : Handlers S) {w : World S} {name : String}
    (hn : w.memberVariables["name"]? = some (.string name)) (test : String) :
    (evaluate ctx h .member (.binary {} "==" (.var {} "name") (text test)) w).outcome =
      .ok (.bool (name == test)) w :=
  (Comp.bind_of_ok (evaluate_var hn)).trans rfl

/-- The first test with the name is dispatched to. -/
theorem ends_dispatchTests {ctx : Context S} {h : Handlers S} {w : World S} {name : String}
    (hn : w.memberVariables["name"]? = some (.string name)) {values : List RuntimeValue}
    (hargs : (evaluateList ctx h .member (vars ["runner", "t"]) w).outcome = .ok values w)
    {names : List String} (hm : name ∈ names) (rest : List Stmt) :
    Ends ctx h (names.map SuiteInfo.dispatchTest ++ rest) w (.transition name values) w := by
  induction names with
  | nil => exact absurd hm List.not_mem_nil
  | cons test names ih =>
    by_cases he : name = test
    · subst he
      have htaken := evaluate_sameName ctx h hn name
      rw [beq_self_eq_true] at htaken
      exact .ifStmt htaken (.transition hargs) nofun
    · have hother := evaluate_sameName ctx h hn test
      rw [beq_false_of_ne he] at hother
      exact .skip hother (ih ((List.mem_cons.mp hm).resolve_left he))

theorem dispatch_goes (hready : run.Ready w₁) {id handle : Nat} (ctxId : Nat) {runner : TestRunner}
    {w : World S} (hreg : Registered run.path w.types)
    (h : IsRunner (run.state w) id handle runner) (hm : runner.currentName ∈ run.suite.testNames)
    (hs : byteCount runner.currentName.toList < 2 ^ 31) :
    ∃ w', run.Goes ⟨"__dispatch", [.struct id, .struct ctxId], w⟩ ["__dispatch"]
      ⟨runner.currentName, [.struct id, .struct ctxId], w'⟩ ∧ Left run w (run.state w) w' := by
  let entered : World S := declared (declared w "runner" (.struct id)) "t" (.struct ctxId)
  have hrunner : entered.memberVariables["runner"]? = some (.struct id) := by
    change ((w.memberVariables.assign "runner" _).assign "t" _)["runner"]? = _
    rw [StdMap.getElem?_assign_ne _ _ (by decide), StdMap.getElem?_assign_self]
  have hcalls : Calls run entered id handle runner := ⟨hreg, hrunner, h⟩
  obtain ⟨w₂, hname, hafter⟩ := yields_currentName hready hcalls hs
  let named : World S := declared w₂ "name" (.string runner.currentName)
  have hnamed : Calls run named id handle runner := hcalls.after hafter h (by decide) _
  have ht : named.memberVariables["t"]? = some (.struct ctxId) := by
    change (w₂.memberVariables.assign "name" _)["t"]? = _
    rw [StdMap.getElem?_assign_ne _ _ (by decide), hafter.memberVariables]
    exact StdMap.getElem?_assign_self _ _ _
  have hargs : (evaluateList run.ctx run.handlers .member (vars ["runner", "t"]) named).outcome =
      .ok [.struct id, .struct ctxId] named :=
    StatePaths.evaluateList_vars (.cons hnamed.variable_ (.cons ht .nil))
  have hbody : Ends run.ctx run.handlers run.suite.dispatchState.body entered
      (.transition runner.currentName [.struct id, .struct ctxId]) named :=
    .varDecl rfl hname (ends_dispatchTests (StdMap.getElem?_assign_self _ _ _) hargs hm _)
  have hleft : Left run w (run.state w) named := ⟨hafter.state, hafter.types⟩
  exact goes_of_ends (findState_harness hready (by decide) rfl) rfl rfl hbody hleft

/-- `EndCurrent` records the result of the context. -/
theorem end_goes (hready : run.Ready w₁) {id handle ctxId ctxHandle : Nat} {runner : TestRunner}
    {ctx : TestContext} {w : World S} (hreg : Registered run.path w.types)
    (h : IsRunner (run.state w) id handle runner)
    (hc : IsContext (run.state w) ctxId ctxHandle ctx)
    (hidx : runner.currentIdx.toInt + 1 < 2 ^ 31) :
    ∃ w', run.Goes ⟨"__end", [.struct id, .struct ctxId], w⟩ ["__end"]
      ⟨"__loop", [.struct id], w'⟩ ∧ IsRunner (run.state w') id handle (runner.endCurrent ctx) := by
  let entered : World S := declared (declared w "runner" (.struct id)) "t" (.struct ctxId)
  have hrunner : entered.memberVariables["runner"]? = some (.struct id) := by
    change ((w.memberVariables.assign "runner" _).assign "t" _)["runner"]? = _
    rw [StdMap.getElem?_assign_ne _ _ (by decide), StdMap.getElem?_assign_self]
  have hcalls : Calls run entered id handle runner := ⟨hreg, hrunner, h⟩
  have ht : entered.memberVariables["t"]? = some (.struct ctxId) :=
    StdMap.getElem?_assign_self _ _ _
  obtain ⟨s', ⟨w₂, hend, hafter⟩, hended⟩ := yields_endCurrent hready hcalls ht hc hidx
  have hdone : Calls run (declared w₂ "err" .nil) id handle (runner.endCurrent ctx) :=
    hcalls.after hafter hended (by decide) _
  have hbody : Ends run.ctx run.handlers SuiteInfo.endState.body entered
      (.transition "__loop" [.struct id]) (declared w₂ "err" .nil) :=
    .varDecl rfl hend (.transition hdone.args)
  have hleft : Left run w s' (declared w₂ "err" .nil) := ⟨hafter.state, hafter.types⟩
  have hstate : findState run.loaded "__end" = some SuiteInfo.endState :=
    findState_harness hready (by decide) rfl
  have hlength : SuiteInfo.endState.inputParameters.length = [RuntimeValue.struct id, .struct ctxId].length := rfl
  have hentered : { w with
      memberVariables := bound w.memberVariables SuiteInfo.endState.inputParameters [.struct id, .struct ctxId] } =
        entered := rfl
  obtain ⟨w', hgoes, hleft⟩ := goes_of_ends hstate hlength hentered hbody hleft
  refine ⟨w', hgoes, ?_⟩
  rw [hleft.state]
  exact hended

/-- Statements that lead from one world to another, whatever follows them. -/
def Through (run : SuiteRun S) (stmts : List Stmt) (w w' : World S) : Prop :=
  ∀ (rest : List Stmt) (flow : ControlFlow) (last : World S),
    Ends run.ctx run.handlers rest w' flow last →
      Ends run.ctx run.handlers (stmts ++ rest) w flow last

/-- The runner gets the names in order. -/
theorem register_through (hready : run.Ready w₁) {id handle : Nat} {names : List String}
    (hn : ∀ name ∈ names, byteCount name.toList < 2 ^ 31) {runner : TestRunner} {w : World S}
    (h : Calls run w id handle runner) :
    ∃ w', Calls run w' id handle { runner with testNames := runner.testNames ++ names } ∧
      w'.types = w.types ∧
      Through run (names.map fun name => assign "err" (call "runner" "Register" [text name]))
        w w' := by
  induction names generalizing runner w with
  | nil =>
    refine ⟨w, ?_, rfl, fun _ _ _ hr => hr⟩
    rw [List.append_nil]
    exact h
  | cons name names ih =>
    obtain ⟨hname, hnames⟩ := List.forall_mem_cons.mp hn
    obtain ⟨s', ⟨w₂, hregister, hafter⟩, hrunner⟩ := yields_register hready h hname
    have hcalls : Calls run (declared w₂ "err" .nil) id handle (runner.registerTest name) :=
      h.after hafter hrunner (by decide) _
    obtain ⟨w', hcalls', htypes, hrest⟩ := ih hnames hcalls
    refine ⟨w', ?_, htypes.trans hafter.types, fun rest flow last hr => ?_⟩
    · have happend : runner.testNames ++ name :: names = runner.testNames ++ [name] ++ names :=
        (List.append_assoc _ [name] names).symm
      rw [happend]
      exact hcalls'
    · exact .assign hregister (hrest rest flow last hr)

/-- The runner starts with the tests of the suite. -/
theorem init_goes (hready : run.Ready w₁) (hne : run.suite.testNames ≠ [])
    (hclass : w₁.memberVariables["TestRunner"]? = none)
    (hsuite : byteCount run.suite.name.toList < 2 ^ 31)
    (hnames : ∀ name ∈ run.suite.testNames, byteCount name.toList < 2 ^ 31)
    (hreg : Registered run.path w₁.types) :
    ∃ w' id handle, run.Goes ⟨"__init", [], w₁⟩ ["__init"] ⟨"__loop", [.struct id], w'⟩ ∧
      IsRunner (run.state w') id handle
        { suiteName := run.suite.name, testNames := run.suite.testNames } := by
  have hunbound : StaticDispatch.Unbound .member w₁ "TestRunner" := ⟨hclass, hclass⟩
  obtain ⟨w₂, id, handle, hnew, htypes, _, hrunner⟩ :=
    evaluate_new hready.opened hreg hunbound hsuite run.depth
  have hcalls : Calls run (declared w₂ "runner" (.struct id)) id handle
      { suiteName := run.suite.name } := by
    refine ⟨?_, StdMap.getElem?_assign_self _ _ _, hrunner⟩
    change Registered run.path w₂.types
    rw [htypes]
    exact hreg
  obtain ⟨w₃, hregistered, htypes₃, hthrough⟩ : ∃ w', Calls run w' id handle
      { suiteName := run.suite.name, testNames := run.suite.testNames } ∧ w'.types = w₂.types ∧
        Through run run.suite.registrations (declared w₂ "runner" (.struct id)) w' := by
    obtain ⟨w', hcalls', htypes', hthrough⟩ := register_through hready hnames hcalls
    refine ⟨w', hcalls', htypes', fun rest flow last hr => ?_⟩
    have hends := hthrough rest flow last hr
    unfold SuiteInfo.registrations
    cases hcase : run.suite.testNames with
    | nil => exact absurd hcase hne
    | cons name names =>
      rw [hcase] at hends
      exact hends
  obtain ⟨w₄, hheader, hafter⟩ := yields_printHeader hready hregistered
  have hready₄ : Calls run (declared w₄ "err" .nil) id handle
      { suiteName := run.suite.name, testNames := run.suite.testNames } :=
    hregistered.after hafter hregistered.runner (by decide) _
  have hbody : Ends run.ctx run.handlers run.suite.initState.body w₁
      (.transition "__loop" [.struct id]) (declared w₄ "err" .nil) :=
    .varDecl rfl hnew (hthrough _ _ _ (.assign hheader (.transition hready₄.args)))
  have hleft : Left run w₁ (run.state w₃) (declared w₄ "err" .nil) :=
    ⟨hafter.state, hafter.types.trans (htypes₃.trans htypes)⟩
  have hstate : findState run.loaded "__init" = some run.suite.initState :=
    findState_harness hready (by decide) rfl
  have hlength : run.suite.initState.inputParameters.length = [].length := rfl
  have hentered : { w₁ with
      memberVariables := bound w₁.memberVariables run.suite.initState.inputParameters [] } =
        w₁ := rfl
  obtain ⟨w', hgoes, hleft⟩ := goes_of_ends hstate hlength hentered hbody hleft
  refine ⟨w', id, handle, hgoes, ?_⟩
  rw [hleft.state]
  exact hregistered.runner

/-- What the last state leaves in the outputs. -/
theorem finish_outcome (hready : run.Ready w₁) {id handle : Nat} {runner : TestRunner} {w : World S}
    (hreg : Registered run.path w.types) (h : IsRunner (run.state w) id handle runner)
    (hr : runner.testNames.length ≤ runner.results.length)
    (hm : runner.testNames.length ≤ runner.failureMsgs.length)
    (hpassed : Bound w.memberVariables "passed") (hfailed : Bound w.memberVariables "failed") :
    ∃ w', (executeState run.ctx run.handlers SuiteInfo.finishState [.struct id] w).outcome =
        .ok .terminal w' ∧
      w'.memberVariables["passed"]? = some (.int runner.passed.toInt64) ∧
      w'.memberVariables["failed"]? = some (.int runner.failed.toInt64) := by
  have hcalls : Calls run (declared w "runner" (.struct id)) id handle runner :=
    ⟨hreg, StdMap.getElem?_assign_self _ _ _, h⟩
  obtain ⟨w₂, hsummary, hafter₂⟩ := yields_printSummary hready hcalls hr hm
  have hcalls₂ : Calls run (declared w₂ "err" .nil) id handle runner :=
    hcalls.after hafter₂ h (by decide) _
  obtain ⟨w₃, hpass, hafter₃⟩ := yields_passedCount hready hcalls₂
  have hcalls₃ : Calls run (declared w₃ "passed" (.int runner.passed.toInt64)) id handle runner :=
    hcalls₂.after hafter₃ hcalls₂.runner (by decide) _
  obtain ⟨w₄, hfail, hafter₄⟩ := yields_failedCount hready hcalls₃
  have hbody : Ends run.ctx run.handlers SuiteInfo.finishState.body
      (declared w "runner" (.struct id)) .terminal
        (declared w₄ "failed" (.int runner.failed.toInt64)) :=
    .varDecl rfl hsummary (.assign hpass (.assign hfail .terminal))
  have hlength : SuiteInfo.finishState.inputParameters.length = [RuntimeValue.struct id].length :=
    rfl
  refine ⟨_, executeState_outcome hlength hbody, ?_, ?_⟩
  · dsimp only
    rw [StdMap.getElem?_restrict, if_pos (StdMap.mem_keyList.mpr hpassed)]
    change (w₄.memberVariables.assign "failed" _)["passed"]? = _
    rw [StdMap.getElem?_assign_ne _ _ (by decide), hafter₄.memberVariables]
    exact StdMap.getElem?_assign_self _ _ _
  · dsimp only
    rw [StdMap.getElem?_restrict, if_pos (StdMap.mem_keyList.mpr hfailed)]
    exact StdMap.getElem?_assign_self _ _ _

end States

end SuiteRun

end FalconLib.Cli.TestRuns
