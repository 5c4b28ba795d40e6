import FalconLib.Cli.TestRuns

/-!
# Whole suites

The tests of a suite are run in order, each in a round of the loop. A round leaves the runner with
one more result and with the index of the next test.
-/

namespace FalconLib.Libs.Testing.TestRunner

/-! ## The counters -/

/-- The tests are registered, and the first `n` of them have a result. -/
structure Counted (names : List String) (n : Nat) (runner : TestRunner) : Prop where
  testNames : runner.testNames = names
  results : runner.results.length = n
  failureMsgs : runner.failureMsgs.length = n
  currentIdx : runner.currentIdx.toInt = n

namespace Counted

variable {names : List String} {n : Nat} {runner : TestRunner} (h : Counted names n runner)
  (hl : names.length < 2 ^ 31)
include h hl

theorem total : runner.total.toInt = names.length := by
  unfold TestRunner.total
  rw [h.testNames]
  exact Int32.toInt_ofNat_of_lt hl

theorem index_lt_total : runner.currentIdx < runner.total ↔ n < names.length := by
  rw [Int32.lt_iff_toInt_lt, h.total hl, h.currentIdx]
  exact Int.ofNat_lt

theorem hasNext : runner.hasNext = decide (n < names.length) :=
  decide_eq_decide.mpr (h.index_lt_total hl)

theorem currentName {name : String} (hn : names[n]? = some name) : runner.currentName = name := by
  have hlt : n < names.length := (List.getElem?_eq_some_iff.mp hn).1
  unfold TestRunner.currentName
  rw [if_pos ((h.index_lt_total hl).mpr hlt), h.currentIdx, h.testNames, Int.toNat_natCast, hn]
  rfl

theorem endCurrent (hn : n < names.length) (ctx : TestContext) :
    Counted names (n + 1) (runner.endCurrent ctx) := by
  refine ⟨h.testNames, ?_, ?_, ?_⟩
  · exact (List.length_append ..).trans (congrArg (· + 1) h.results)
  · exact (List.length_append ..).trans (congrArg (· + 1) h.failureMsgs)
  · have hone : (1 : Int32).toInt = 1 := rfl
    change (runner.currentIdx + 1).toInt = _
    rw [Int32.toInt_add, h.currentIdx, hone]
    exact Int.bmod_eq_of_le (by omega) (by omega)

/-- Every test has passed or failed. -/
theorem passed_add_failed (hn : n = names.length) :
    runner.passed.toInt + runner.failed.toInt = names.length := by
  have hcount : runner.results.count true ≤ names.length :=
    (List.count_le_length ..).trans (h.results.trans hn).le
  have hpassed : runner.passed.toInt = runner.results.count true :=
    Int32.toInt_ofNat_of_lt (hcount.trans_lt hl)
  unfold TestRunner.failed
  rw [Int32.toInt_sub, hpassed, h.total hl, Int.bmod_eq_of_le (by omega) (by omega)]
  omega

end Counted

end FalconLib.Libs.Testing.TestRunner

namespace FalconLib.Cli.TestRuns.SuiteRun

open FalconLib.Dsl
open FalconLib.Libs.Testing
open FalconLib.Typing.FFI (byteCount)
open Interpreter (findState)
open StateMachine StatePaths
open RunHistory (Extends)
open TestMain

variable {S : Type} {run : SuiteRun S} {w₁ : World S}

/-! ## The states of the suite -/

/-- States of the user lead from one entry to the other. -/
def Leads (run : SuiteRun S) (entry target : Entry S) : Prop :=
  ∃ visited, run.Goes entry (entry.name :: visited) target ∧ ∀ name ∈ visited, name ∉ harnessNames

/-- The runner is as it was, and a context is still one. -/
structure Kept (run : SuiteRun S) (ids : List Nat) (w w' : World S) : Prop where
  runner : ∀ id ∈ ids, ∀ handle runner, IsRunner (run.state w) id handle runner →
    IsRunner (run.state w') id handle runner
  context : ∀ id ∈ ids, ∀ handle ctx, IsContext (run.state w) id handle ctx →
    ∃ ctx', IsContext (run.state w') id handle ctx'

theorem Kept.refl (ids : List Nat) (w : World S) : run.Kept ids w w :=
  ⟨fun _ _ _ _ h => h, fun _ _ _ ctx h => ⟨ctx, h⟩⟩

theorem Kept.trans {ids : List Nat} {w w' w'' : World S} (h : run.Kept ids w w')
    (h' : run.Kept ids w' w'') : run.Kept ids w w'' := by
  refine ⟨fun id hid handle runner hr => ?_, fun id hid handle ctx hc => ?_⟩
  · exact h'.runner id hid handle runner (h.runner id hid handle runner hr)
  · obtain ⟨ctx', hc'⟩ := h.context id hid handle ctx hc
    exact h'.context id hid handle ctx' hc'

/-- Where the run enters the state with `n` instances, the state hands the same ones on to one of
the targets. -/
def Passes (run : SuiteRun S) (name : String) (n : Nat) (targets : List String) : Prop :=
  ∀ (ids : List Nat) (w : World S), ids.length = n →
    run.Entered ⟨name, ids.map .struct, w⟩ → ∃ target ∈ targets, ∃ w',
      run.Leads ⟨name, ids.map .struct, w⟩ ⟨target, ids.map .struct, w'⟩ ∧ run.Kept ids w w'

/-- What the harness asks of the states of a suite. -/
structure Behaved (run : SuiteRun S) : Prop where
  setup : run.suite.hasSetup = true → run.Passes "setup" 1 ["__begin"]
  tests : ∀ name ∈ run.suite.testNames, run.Passes name 2 [run.suite.teardownState, "__end"]
  teardown : run.suite.hasTeardown = true → run.Passes "teardown" 2 ["__end"]

theorem Entered.goes {entry last : Entry S} {visited : List String} (h : run.Entered entry)
    (hgoes : run.Goes entry visited last) : run.Entered last := StatePaths.Goes.enters hgoes h

theorem Entered.registered (hready : run.Ready w₁) {entry : Entry S} (h : run.Entered entry) :
    Registered run.path entry.world.types := by
  have hextends : Extends run.start.types entry.world.types := StatePaths.Enters.extends h
  obtain ⟨⟨contextModule, hcontext⟩, ⟨runnerModule, hrunner⟩, hmethods⟩ := hready.registered
  refine ⟨⟨contextModule, hextends.structs _ _ hcontext⟩,
    ⟨runnerModule, hextends.structs _ _ hrunner⟩, ?_⟩
  rw [hextends.ffiMethods]
  exact hmethods

theorem not_mem_testNames (hready : run.Ready w₁) {name : String}
    (hname : ¬['t', 'e', 's', 't', '_'] <+: name.toList) : name ∉ run.suite.testNames :=
  fun hm => hname (hready.names name hm)

/-- No state of the harness is a test. -/
theorem harness_not_mem (hready : run.Ready w₁) {name : String} (hn : name ∈ harnessNames) :
    name ∉ run.suite.testNames := by
  refine not_mem_testNames hready ?_
  revert name
  decide

/-- The states after the first one are no tests: nothing but the harness goes to a test. -/
theorem inner_of_goes (hready : run.Ready w₁) {entry last : Entry S} {visited : List String}
    (h : run.Goes entry (entry.name :: visited) last) (hentry : entry.name ∉ harnessNames)
    (hvisited : ∀ name ∈ visited, name ∉ harnessNames) : ∀ name ∈ visited, run.Inner name := by
  intro name hn
  refine ⟨hvisited name hn, ?_⟩
  obtain ⟨prior, hprior, state, location, args, hs, hm⟩ := StatePaths.Goes.targeted h hn
  have hout : prior ∉ harnessNames := by
    rcases List.mem_cons.mp hprior with rfl | hprior
    · exact hentry
    · exact hvisited prior hprior
  have hbeq := List.find?_some hs
  have hname : state.name = prior := eq_of_beq hbeq
  have hstate : state ∈ run.autotuner.states := by
    refine (List.mem_append.mp (List.mem_of_find?_eq_some hs)).resolve_right fun hgen => ?_
    have hharness : state.name ∈ harnessNames := by
      have hnames : run.suite.generateHarnessStates.map (·.name) = harnessNames := rfl
      rw [← hnames]
      exact List.mem_map_of_mem hgen
    exact hout (hname ▸ hharness)
  exact hready.untargeted state hstate location name args hm

/-- A part of a round: the states of the user up to the one that the harness goes on with. -/
structure Part (run : SuiteRun S) (ids : List Nat) (entry target : Entry S)
    (visited : List String) : Prop where
  goes : run.Goes entry visited target
  inner : ∀ name ∈ visited, run.Inner name
  kept : run.Kept ids entry.world target.world

theorem part_of_passes (hready : run.Ready w₁) {name : String} {targets : List String}
    (ids : List Nat) {w : World S} (hpasses : run.Passes name ids.length targets)
    (hentered : run.Entered ⟨name, ids.map .struct, w⟩) (hname : run.Inner name) :
    ∃ target ∈ targets, ∃ visited w',
      run.Part ids ⟨name, ids.map .struct, w⟩ ⟨target, ids.map .struct, w'⟩ visited := by
  obtain ⟨target, hm, w', ⟨visited, hgoes, hout⟩, hkept⟩ := hpasses ids w rfl hentered
  refine ⟨target, hm, name :: visited, w', hgoes, ?_, hkept⟩
  exact List.forall_mem_cons.mpr ⟨hname, inner_of_goes hready hgoes hname.1 hout⟩

/-- The loop goes to `__begin`, through `setup` if there is one. -/
theorem setup_part (hready : run.Ready w₁) (hb : run.Behaved) {id : Nat} {w : World S}
    (h : run.Entered ⟨run.suite.setupState, [.struct id], w⟩) :
    ∃ visited w', run.Part [id] ⟨run.suite.setupState, [.struct id], w⟩
      ⟨"__begin", [.struct id], w'⟩ visited := by
  unfold SuiteInfo.setupState at h ⊢
  by_cases hs : run.suite.hasSetup = true
  · rw [if_pos hs] at h ⊢
    have hinner : run.Inner "setup" := ⟨by decide, not_mem_testNames hready (by decide)⟩
    obtain ⟨target, hm, visited, w', hpart⟩ :=
      part_of_passes hready [id] (hb.setup hs) h hinner
    obtain rfl := List.mem_singleton.mp hm
    exact ⟨visited, w', hpart⟩
  · rw [if_neg hs] at h ⊢
    exact ⟨[], w, .refl _, fun _ hn => absurd hn List.not_mem_nil, .refl _ _⟩

/-- What follows the test: the way to `__end`, through `teardown` if there is one. -/
theorem teardown_part (hready : run.Ready w₁) (hb : run.Behaved) {id ctxId : Nat}
    {target : String} (hm : target ∈ [run.suite.teardownState, "__end"]) {w : World S}
    (h : run.Entered ⟨target, [.struct id, .struct ctxId], w⟩) :
    ∃ visited w', run.Part [id, ctxId] ⟨target, [.struct id, .struct ctxId], w⟩
      ⟨"__end", [.struct id, .struct ctxId], w'⟩ visited := by
  by_cases he : target = "__end"
  · subst he
    exact ⟨[], w, .refl _, fun _ hn => absurd hn List.not_mem_nil, .refl _ _⟩
  · have hteardown : target = run.suite.teardownState := by
      rcases List.mem_cons.mp hm with htarget | hend
      · exact htarget
      · exact absurd (List.mem_singleton.mp hend) he
    unfold SuiteInfo.teardownState at hteardown
    by_cases ht : run.suite.hasTeardown = true
    · rw [if_pos ht] at hteardown
      subst hteardown
      have hinner : run.Inner "teardown" := ⟨by decide, not_mem_testNames hready (by decide)⟩
      obtain ⟨target, hm, visited, w', hpart⟩ :=
        part_of_passes hready [id, ctxId] (hb.teardown ht) h hinner
      obtain rfl := List.mem_singleton.mp hm
      exact ⟨visited, w', hpart⟩
    · rw [if_neg ht] at hteardown
      exact absurd hteardown he

/-- From the dispatched test to `__end`. -/
theorem test_part (hready : run.Ready w₁) (hb : run.Behaved) {name : String}
    (hname : name ∈ run.suite.testNames) {id ctxId : Nat} {w : World S}
    (h : run.Entered ⟨name, [.struct id, .struct ctxId], w⟩) :
    ∃ visited w', run.Goes ⟨name, [.struct id, .struct ctxId], w⟩ (name :: visited)
      ⟨"__end", [.struct id, .struct ctxId], w'⟩ ∧ (∀ x ∈ visited, run.Inner x) ∧
        run.Kept [id, ctxId] w w' := by
  obtain ⟨target, hm, w₂, ⟨body, hgoes, hout⟩, hkept⟩ := hb.tests name hname [id, ctxId] w rfl h
  have hentry : name ∉ harnessNames := fun hn => harness_not_mem hready hn hname
  obtain ⟨after, w', hpart⟩ := teardown_part hready hb hm (h.goes hgoes)
  refine ⟨body ++ after, w', StatePaths.Goes.trans hgoes hpart.goes, ?_, ?_⟩
  · exact List.forall_mem_append.mpr ⟨inner_of_goes hready hgoes hentry hout, hpart.inner⟩
  · exact hkept.trans hpart.kept

/-! ## Rounds -/

/-- The states of a round: all but those of the harness and the test itself are no tests. -/
def Round (run : SuiteRun S) (name : String) (visited : List String) : Prop :=
  ∃ before after, visited =
      "__loop" :: (before ++ "__begin" :: "__dispatch" :: name :: (after ++ ["__end"])) ∧
    ∀ x ∈ before ++ after, run.Inner x

/-- A round leaves one more result. -/
theorem round_goes (hready : run.Ready w₁) (hb : run.Behaved)
    (hl : run.suite.testNames.length < 2 ^ 31) {n id handle : Nat} {runner : TestRunner}
    (hcount : TestRunner.Counted run.suite.testNames n runner) {name : String}
    (hn : run.suite.testNames[n]? = some name) (hbytes : byteCount name.toList < 2 ^ 31)
    {w : World S} (h : run.Entered ⟨"__loop", [.struct id], w⟩)
    (hrunner : IsRunner (run.state w) id handle runner) :
    ∃ visited w' runner', run.Round name visited ∧
      run.Goes ⟨"__loop", [.struct id], w⟩ visited ⟨"__loop", [.struct id], w'⟩ ∧
      TestRunner.Counted run.suite.testNames (n + 1) runner' ∧
      IsRunner (run.state w') id handle runner' := by
  have hmem : name ∈ run.suite.testNames := List.mem_of_getElem? hn
  have hlt : n < run.suite.testNames.length := (List.getElem?_eq_some_iff.mp hn).1
  have hname : runner.currentName = name := hcount.currentName hl hn
  obtain ⟨w₂, hloop, hleft⟩ := loop_goes hready (h.registered hready) hrunner
  rw [hcount.hasNext hl, decide_eq_true hlt, if_pos rfl] at hloop
  have hentered₂ := h.goes hloop
  obtain ⟨before, w₃, hsetup⟩ := setup_part hready hb hentered₂
  have hentered₃ := hentered₂.goes hsetup.goes
  have hrunner₃ : IsRunner (run.state w₃) id handle runner := by
    refine hsetup.kept.runner id List.mem_cons_self handle runner ?_
    rw [hleft.state]
    exact hrunner
  obtain ⟨w₄, ctxId, hbegin, -, hrunner₄, ctxHandle, hcontext⟩ :=
    begin_goes hready (hentered₃.registered hready) hrunner₃
  have hentered₄ := hentered₃.goes hbegin
  obtain ⟨w₅, hdispatch, hleft₅⟩ := dispatch_goes hready ctxId (hentered₄.registered hready)
    hrunner₄ (hname ▸ hmem) (hname ▸ hbytes)
  rw [hname] at hdispatch
  have hentered₅ := hentered₄.goes hdispatch
  obtain ⟨after, w₆, htest, hinner, hkept⟩ := test_part hready hb hmem hentered₅
  have hentered₆ := hentered₅.goes htest
  have hrunner₆ : IsRunner (run.state w₆) id handle runner := by
    refine hkept.runner id List.mem_cons_self handle runner ?_
    rw [hleft₅.state]
    exact hrunner₄
  obtain ⟨ctx, hctx⟩ : ∃ ctx, IsContext (run.state w₆) ctxId ctxHandle ctx := by
    refine hkept.context ctxId (by simp) ctxHandle { name := runner.currentName } ?_
    rw [hleft₅.state]
    exact hcontext
  have hidx : runner.currentIdx.toInt + 1 < 2 ^ 31 := by
    rw [hcount.currentIdx]
    omega
  obtain ⟨w₇, hend, hrunner₇⟩ :=
    end_goes hready (hentered₆.registered hready) hrunner₆ hctx hidx
  refine ⟨_, w₇, runner.endCurrent ctx, ⟨before, after, rfl, ?_⟩, ?_, hcount.endCurrent hl hlt ctx,
    hrunner₇⟩
  · exact List.forall_mem_append.mpr ⟨hsetup.inner, hinner⟩
  · have htail := StatePaths.Goes.trans hdispatch (StatePaths.Goes.trans htest hend)
    exact StatePaths.Goes.trans hloop
      (StatePaths.Goes.trans hsetup.goes (StatePaths.Goes.trans hbegin htail))

/-- From the test at an index on, there is a round for each test. -/
theorem rounds_go (hready : run.Ready w₁) (hb : run.Behaved)
    (hl : run.suite.testNames.length < 2 ^ 31)
    (hbytes : ∀ name ∈ run.suite.testNames, byteCount name.toList < 2 ^ 31) {id handle : Nat}
    {names done : List String} (hnames : run.suite.testNames = done ++ names)
    {runner : TestRunner} (hcount : TestRunner.Counted run.suite.testNames done.length runner)
    {w : World S} (h : run.Entered ⟨"__loop", [.struct id], w⟩)
    (hrunner : IsRunner (run.state w) id handle runner) :
    ∃ rounds w' runner', List.Forall₂ run.Round names rounds ∧
      run.Goes ⟨"__loop", [.struct id], w⟩ rounds.flatten ⟨"__loop", [.struct id], w'⟩ ∧
      TestRunner.Counted run.suite.testNames run.suite.testNames.length runner' ∧
      IsRunner (run.state w') id handle runner' := by
  induction names generalizing done runner w with
  | nil =>
    refine ⟨[], w, runner, .nil, .refl _, ?_, hrunner⟩
    have hlength : run.suite.testNames.length = done.length := by rw [hnames, List.append_nil]
    rw [hlength]
    exact hcount
  | cons name names ih =>
    have hn : run.suite.testNames[done.length]? = some name := by
      rw [hnames, List.getElem?_append_right (Nat.le_refl _), Nat.sub_self]
      rfl
    have hname : byteCount name.toList < 2 ^ 31 := hbytes name (List.mem_of_getElem? hn)
    obtain ⟨visited, w₂, runner₂, hround, hgoes, hcount₂, hrunner₂⟩ :=
      round_goes hready hb hl hcount hn hname h hrunner
    have hnext : run.suite.testNames = (done ++ [name]) ++ names := by
      rw [hnames, List.append_assoc]
      rfl
    have hlength : done.length + 1 = (done ++ [name]).length := by
      rw [List.length_append, List.length_singleton]
    rw [hlength] at hcount₂
    obtain ⟨rounds, w', runner', hrounds, hrest, hlast⟩ :=
      ih hnext hcount₂ (h.goes hgoes) hrunner₂
    exact ⟨visited :: rounds, w', runner', .cons hround hrounds, StatePaths.Goes.trans hgoes hrest,
      hlast⟩

/-! ## The whole run -/

/-- The tests among the states of the rounds. -/
theorem filter_round (hready : run.Ready w₁) {name : String} (hname : name ∈ run.suite.testNames)
    {visited : List String} (h : run.Round name visited) :
    visited.filter (· ∈ run.suite.testNames) = [name] := by
  obtain ⟨before, after, rfl, hinner⟩ := h
  obtain ⟨hbefore, hafter⟩ := List.forall_mem_append.mp hinner
  have hharness (x : String) (hx : x ∈ harnessNames) :
      decide (x ∈ run.suite.testNames) = false := decide_eq_false (harness_not_mem hready hx)
  have hnone (names : List String) (hn : ∀ x ∈ names, run.Inner x) :
      names.filter (· ∈ run.suite.testNames) = [] :=
    List.filter_eq_nil_iff.mpr fun x hx => by
      rw [decide_eq_true_iff]
      exact (hn x hx).2
  simp only [List.filter_cons, List.filter_append, hnone before hbefore, hnone after hafter,
    hharness "__loop" (by decide), hharness "__begin" (by decide),
    hharness "__dispatch" (by decide), hharness "__end" (by decide), decide_eq_true hname,
    List.filter_nil, List.nil_append, Bool.false_eq_true, if_false, if_true]

theorem filter_rounds (hready : run.Ready w₁) {names : List String}
    (hnames : ∀ name ∈ names, name ∈ run.suite.testNames) {rounds : List (List String)}
    (h : List.Forall₂ run.Round names rounds) :
    rounds.flatten.filter (· ∈ run.suite.testNames) = names := by
  induction h with
  | nil => rfl
  | cons hround _ ih =>
    obtain ⟨hname, hnames⟩ := List.forall_mem_cons.mp hnames
    rw [List.flatten_cons, List.filter_append, filter_round hready hname hround, ih hnames,
      List.singleton_append]

/-- The run of the suite returns what its last state leaves in the outputs. -/
theorem run_outcome (hready : run.Ready w₁) {visited : List String} {id : Nat} {w : World S}
    (hgoes : run.Goes ⟨"__init", [], w₁⟩ visited ⟨"__finish", [.struct id], w⟩) {left : World S}
    (hfinish : (Interpreter.executeState run.ctx run.handlers SuiteInfo.finishState [.struct id]
      w).outcome = .ok .terminal left) {passed failed : RuntimeValue}
    (hpassed : left.memberVariables["passed"]? = some passed)
    (hfailed : left.memberVariables["failed"]? = some failed) (extra : Nat) :
    ∃ w', (Interpreter.run run.ctx run.handlers (visited.length + (extra + 1)) run.loaded ∅
      run.start).outcome = .ok [passed, failed] w' := by
  have hstate : findState run.loaded "__finish" = some SuiteInfo.finishState :=
    findState_harness hready (by decide) rfl
  have hlast : (Interpreter.stateLoop run.ctx run.handlers run.loaded (extra + 1) "__finish"
      [.struct id] w).outcome = .ok () left := by
    simp only [Interpreter.stateLoop, hstate]
    exact Base.Comp.bind_of_ok hfinish
  have hloop := (stateLoop_of_goes hgoes (extra + 1)).trans hlast
  have houtputs : (Interpreter.extractOutputs run.loaded.outputParams left).outcome =
      .ok [passed, failed] left := by
    have hnames : run.loaded.outputParams.map (·.name) = ["passed", "failed"] := hready.outputs
    refine extractOutputs_outcome ?_
    rw [hnames]
    exact .cons hpassed (.cons hfailed .nil)
  have hfresh : (Interpreter.runFresh run.ctx run.handlers (visited.length + (extra + 1)) run.loaded
      ∅ (cleared run.start)).outcome = .ok [passed, failed] left := by
    unfold Interpreter.runFresh
    refine (Base.Comp.bind_of_ok hready.prepared).trans ?_
    have hentry : run.loaded.entryState = "__init" := hready.entry
    rw [hentry]
    exact (Base.Comp.bind_of_ok hloop).trans houtputs
  refine ⟨{ left with memberVariables := run.start.memberVariables }, ?_⟩
  unfold Interpreter.run
  refine (Base.Comp.outcome_gets_bind _ _ _).trans ?_
  exact Base.Comp.tryCatch_of_ok ((Base.Comp.bind_of_ok hfresh).trans rfl)

/-- The states of a run before `__finish`. -/
def statesOf (rounds : List (List String)) : List String :=
  "__init" :: (rounds.flatten ++ ["__loop"])

/-- What a run of a suite does. -/
structure Completed (run : SuiteRun S) (w₁ : World S) (rounds : List (List String)) (id : Nat)
    (runner : TestRunner) (last : World S) : Prop where
  each : List.Forall₂ run.Round run.suite.testNames rounds
  goes : run.Goes ⟨"__init", [], w₁⟩ (statesOf rounds) ⟨"__finish", [.struct id], last⟩
  tests : (statesOf rounds).filter (· ∈ run.suite.testNames) = run.suite.testNames
  holds : ∃ handle, IsRunner (run.state last) id handle runner
  counted : TestRunner.Counted run.suite.testNames run.suite.testNames.length runner
  total : runner.passed.toInt64.toInt + runner.failed.toInt64.toInt = run.suite.testNames.length
  outcome : ∀ extra, ∃ w', (Interpreter.run run.ctx run.handlers
    ((statesOf rounds).length + (extra + 1)) run.loaded ∅ run.start).outcome =
      .ok [.int runner.passed.toInt64, .int runner.failed.toInt64] w'

/-- A suite file, loaded with the testing library. -/
def suiteRun (suite : SuiteInfo) (declarations : List Stmt) (states : List StateDecl) :
    SuiteRun (List NativeObject) where
  ctx := { host := host }
  depth := 0
  view := id
  path := "testing-wrapper.so"
  suite := suite
  autotuner := {
    name := suite.name
    inputParams := []
    outputParams := [intParam "passed", intParam "failed"]
    autotunerVariables := declarations
    entryState := "__init"
    entryParameters := []
    states := states }
  start := { types := loadedTypes "testing-wrapper.so", store := [] }

theorem ready_suiteRun {suite : SuiteInfo} {declarations : List Stmt} {states : List StateDecl}
    {w₁ : World (List NativeObject)} (hown : ∀ state ∈ states, state.name ∉ harnessNames)
    (hnames : ∀ name ∈ suite.testNames, ['t', 'e', 's', 't', '_'] <+: name.toList)
    (htargets : ∀ state ∈ states, ∀ location target args,
      .transition location target args ∈ VariableFrame.blockStmts state.body →
        target ∉ suite.testNames)
    (hprepared : (Interpreter.prepare (suiteRun suite declarations states).ctx
      (suiteRun suite declarations states).handlers (suiteRun suite declarations states).loaded ∅
        (cleared (suiteRun suite declarations states).start)).outcome = .ok [] w₁) :
    (suiteRun suite declarations states).Ready w₁ :=
  ⟨opened_host _, registered_load, rfl, rfl, hown, hnames, htargets, hprepared⟩

/-- The world before the first state, with the outputs of a suite and more variables. -/
def startedWith (writes : List (String × RuntimeValue)) : World (List NativeObject) where
  types := loadedTypes "testing-wrapper.so"
  memberVariables := Base.StdMap.assignAll ∅
    (writes ++ [("passed", RuntimeValue.unset), ("failed", RuntimeValue.unset)])
  store := []

/-- A state that hands its parameters on. -/
def passingState (name target : String) (params : List ParamDecl) : StateDecl where
  name := name
  inputParameters := params
  body := [goTo target (params.map (·.name))]

theorem passes_passingState {name target : String} (params : List ParamDecl)
    (hs : findState run.loaded name = some (passingState name target params))
    (hd : (params.map (·.name)).Nodup) : run.Passes name params.length [target] := by
  intro ids w hl _
  have hmapped : params.length = (ids.map RuntimeValue.struct).length := by
    rw [List.length_map, hl]
  have hlength : (passingState name target params).inputParameters.length =
      (ids.map RuntimeValue.struct).length := hmapped
  let entered : World S :=
    { w with memberVariables := bound w.memberVariables params (ids.map .struct) }
  have hargs : (ExprEvaluator.evaluateList run.ctx run.handlers .member
      (vars (params.map (·.name))) entered).outcome = .ok (ids.map .struct) entered :=
    StatePaths.evaluateList_vars (bound_values hd hmapped)
  have hbody : Ends run.ctx run.handlers (passingState name target params).body entered
      (.transition target (ids.map .struct)) entered := .transition hargs
  have hleft : Left run w (run.state w) entered := ⟨rfl, rfl⟩
  obtain ⟨w', hgoes, hleft⟩ := goes_of_ends hs hlength rfl hbody hleft
  refine ⟨target, List.mem_singleton_self _, w', ⟨[], hgoes, nofun⟩, ?_, ?_⟩
  · intro id _ handle runner hr
    rw [hleft.state]
    exact hr
  · intro id _ handle ctx hc
    rw [hleft.state]
    exact ⟨ctx, hc⟩

theorem target_of_passingState {name target target' : String} {params : List ParamDecl}
    {location : Location} {args : List Expr}
    (hm : .transition location target' args ∈
      VariableFrame.blockStmts (passingState name target params).body) : target' = target := by
  cases List.mem_singleton.mp hm
  rfl

def testParams : List ParamDecl := [runnerParam "runner", contextParam "t"]

/-- A suite with two tests, one of which goes past `teardown`. -/
def twoTests : SuiteRun (List NativeObject) :=
  suiteRun { name := "Suite", testNames := ["test_a", "test_b"], hasSetup := true,
             hasTeardown := true } []
    [passingState "setup" "__begin" [runnerParam "runner"],
      passingState "test_a" "teardown" testParams, passingState "test_b" "__end" testParams,
      passingState "teardown" "__end" testParams]

theorem Passes.mono {name : String} {n : Nat} {targets targets' : List String}
    (h : run.Passes name n targets) (hsub : targets ⊆ targets') : run.Passes name n targets' := by
  intro ids w hl hentered
  obtain ⟨target, hm, hleads⟩ := h ids w hl hentered
  exact ⟨target, hsub hm, hleads⟩

theorem behaved_twoTests : twoTests.Behaved where
  setup _ := passes_passingState [runnerParam "runner"] rfl (by decide)
  tests := by
    have htest (name target : String) (hs : findState twoTests.loaded name =
        some (passingState name target testParams)) : twoTests.Passes name 2 [target] :=
      passes_passingState testParams hs (by decide)
    intro name hn
    rcases List.mem_cons.mp hn with rfl | hn
    · exact (htest "test_a" "teardown" rfl).mono (by decide)
    · obtain rfl := List.mem_singleton.mp hn
      exact (htest "test_b" "__end" rfl).mono (by decide)
  teardown _ := passes_passingState testParams rfl (by decide)

theorem ready_twoTests : twoTests.Ready (startedWith []) := by
  refine ready_suiteRun (by decide) (by decide) ?_ rfl
  intro state hs location target args hm
  simp only [List.mem_cons, List.not_mem_nil, or_false] at hs
  rcases hs with rfl | rfl | rfl | rfl
  all_goals
    obtain rfl := target_of_passingState hm
    decide

/-- The test goes to `__end` once, with the context that it was given. -/
def EndsWithContext (run : SuiteRun S) (name : String) : Prop :=
  ∀ id ctxId w, run.Entered ⟨name, [.struct id, .struct ctxId], w⟩ → ∃ value w',
    run.Leads ⟨name, [.struct id, .struct ctxId], w⟩ ⟨"__end", [value, .struct ctxId], w'⟩

def loneSuite : SuiteInfo := { name := "Suite", testNames := ["test_a"] }

/-- The runner is lost. -/
def losingState : StateDecl where
  name := "test_a"
  inputParameters := testParams
  body := [.transition {} "__end" [.nilLiteral {}, .var {} "t"]]

def losing : SuiteRun (List NativeObject) := suiteRun loneSuite [] [losingState]

/-- The test registers a test that there is not. -/
def registering : SuiteRun (List NativeObject) :=
  suiteRun loneSuite [] [{
    name := "test_a"
    inputParameters := testParams
    body := [declare errorType "err" (call "runner" "Register" [text "test_b"]),
      goTo "__end" ["runner", "t"]] }]

/-- A variable of the autotuner has the name of the struct. -/
def shadowing : SuiteRun (List NativeObject) :=
  suiteRun loneSuite [declare (.ofParamType .int) "TestRunner" (.literal {} (.int 1))]
    [passingState "test_a" "__end" testParams]

def finalOutcome (run : SuiteRun S) (rounds : Nat) : Base.Outcome Exception (World S) FunctionResult :=
  (Interpreter.run run.ctx run.handlers rounds run.loaded ∅ run.start).outcome

def raises {α : Type} : Base.Outcome Exception (World S) α → Bool
  | .throw _ _ => true
  | _ => false

/-- The rounds that a run takes beyond those it needs change nothing. -/
theorem Completed.finalOutcome_eq {rounds : List (List String)} {id : Nat} {runner : TestRunner}
    {last : World S} (h : run.Completed w₁ rounds id runner last) {n : Nat}
    (hn : ∀ r, run.finalOutcome n ≠ .halt r) :
    ∃ w', run.finalOutcome n = .ok [.int runner.passed.toInt64, .int runner.failed.toInt64] w' := by
  obtain ⟨w', hw'⟩ := h.outcome n
  refine ⟨w', ?_⟩
  have hrounds : (statesOf rounds).length + (n + 1) = n + ((statesOf rounds).length + 1) := by omega
  rw [hrounds] at hw'
  rcases settles_run run.ctx run.handlers run.loaded ((statesOf rounds).length + 1) n ∅ run.start
    with ⟨r, hr⟩ | heq
  · exact absurd hr (hn r)
  · exact heq.symm.trans hw'

theorem not_completed_of_raises {n : Nat} (h : raises (run.finalOutcome n) = true) :
    ¬∃ rounds id runner last, run.Completed w₁ rounds id runner last := by
  rintro ⟨rounds, id, runner, last, hc⟩
  have hn : ∀ r, run.finalOutcome n ≠ .halt r := fun r hr => by
    rw [hr] at h
    cases h
  obtain ⟨w', hok⟩ := hc.finalOutcome_eq hn
  rw [hok] at h
  cases h

/-- The counters are `int`s. -/
theorem Completed.length_lt {rounds : List (List String)} {id : Nat} {runner : TestRunner}
    {last : World S} (h : run.Completed w₁ rounds id runner last) :
    run.suite.testNames.length < 2 ^ 31 := by
  have hlt := Int32.toInt_lt runner.currentIdx
  rw [h.counted.currentIdx] at hlt
  omega

theorem endsWithContext_losing : losing.EndsWithContext "test_a" := by
  intro id ctxId w _
  let entered : World (List NativeObject) :=
    declared (declared w "runner" (.struct id)) "t" (.struct ctxId)
  have ht : entered.memberVariables["t"]? = some (.struct ctxId) :=
    Base.StdMap.getElem?_assign_self _ _ _
  have hargs : (ExprEvaluator.evaluateList losing.ctx losing.handlers .member
      [.nilLiteral {}, .var {} "t"] entered).outcome = .ok [.nil, .struct ctxId] entered :=
    (Base.Comp.bind_of_ok rfl).trans
      (Base.Comp.bind_of_ok (StatePaths.evaluateList_vars (.cons ht .nil)))
  have hbody : Ends losing.ctx losing.handlers losingState.body entered
      (.transition "__end" [.nil, .struct ctxId]) entered := .transition hargs
  have hleft : Left losing w (losing.state w) entered := ⟨rfl, rfl⟩
  have hstate : findState losing.loaded "test_a" = some losingState := rfl
  have hlength : losingState.inputParameters.length =
      [RuntimeValue.struct id, .struct ctxId].length := rfl
  obtain ⟨w', hgoes, _⟩ := goes_of_ends hstate hlength rfl hbody hleft
  exact ⟨.nil, w', [], hgoes, nofun⟩

theorem not_completed_registering :
    ¬∃ rounds id runner last, registering.Completed (startedWith []) rounds id runner last := by
  rintro ⟨rounds, id, runner, last, hc⟩
  have hvalue : (registering.finalOutcome 20).value? = some [.int 1, .int 1] := by decide +kernel
  have hn : ∀ r, registering.finalOutcome 20 ≠ .halt r := fun r hr => by
    rw [hr] at hvalue
    cases hvalue
  obtain ⟨w', hok⟩ := hc.finalOutcome_eq hn
  rw [hok] at hvalue
  have htotal := hc.total
  have hvalues : [RuntimeValue.int runner.passed.toInt64, .int runner.failed.toInt64] =
      [.int 1, .int 1] := Option.some.inj hvalue
  simp only [List.cons.injEq, RuntimeValue.int.injEq, and_true] at hvalues
  rw [hvalues.1, hvalues.2] at htotal
  exact absurd htotal (by decide)

theorem behaved_shadowing : shadowing.Behaved where
  setup h := nomatch h
  tests name hn := by
    obtain rfl := List.mem_singleton.mp hn
    have hpasses : shadowing.Passes "test_a" 2 ["__end"] :=
      passes_passingState testParams rfl (by decide)
    exact hpasses.mono (by decide)
  teardown h := nomatch h

end FalconLib.Cli.TestRuns.SuiteRun
