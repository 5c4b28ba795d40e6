import FalconLib.Dsl.StateMachine

/-!
# What a state leaves of the autotuner's variables

Parameters, locals and autotuner variables of one name share one entry of the map. A
state whose own names are not bound on entry leaves every variable that it does not
assign as it found it.
-/

namespace FalconLib.Dsl.StateScope

open FalconLib.Base
open Interpreter VariableFrame StateMachine

variable {S : Type}

/-- A parameter of the state, or declared in its body. -/
def Local (state : StateDecl) (n : String) : Prop :=
  (∃ param ∈ state.inputParameters, param.name = n) ∨ ∃ s ∈ blockStmts state.body, Declares n s

/-- The body assigns the name, and not as one of the state's own. -/
def AssignsOuter (state : StateDecl) (n : String) : Prop :=
  (∃ s ∈ blockStmts state.body, Assigns n s) ∧ ¬ Local state n

/-- Every variable bound on entry that the state does not assign has its value on exit. -/
def LeavesOuter (state : StateDecl) (entry exit : ParameterMap) : Prop :=
  ∀ n, Bound entry n → ¬ AssignsOuter state n → exit[n]? = entry[n]?

/-- No parameter, no declaration and no assigned struct field of the state is called like
a variable bound on entry. -/
def Disjoint (state : StateDecl) (entry : ParameterMap) : Prop :=
  ∀ n, Bound entry n → ¬ Local state n ∧ ∀ s ∈ blockStmts state.body, ¬ AssignsField n s

/-- A variable that the state has no write for keeps its value. -/
theorem executeState_frame (ctx : Context S) (fuel : Nat) {state : StateDecl}
    {args : List RuntimeValue} {w w' : World S} {flow : ControlFlow}
    (ho : (executeState ctx (handlers ctx fuel) state args w).outcome = .ok flow w')
    {n : String} (hb : Bound w.memberVariables n) (hl : ¬ Local state n)
    (ha : ∀ s ∈ blockStmts state.body, ¬ Assigns n s)
    (hf : ∀ s ∈ blockStmts state.body, ¬ AssignsField n s) :
    w'.memberVariables[n]? = w.memberVariables[n]? := by
  obtain ⟨bound, left, hbind, hbody, rfl⟩ := executeState_ok ctx fuel ho
  obtain ⟨hparams, hdecls⟩ := not_or.mp hl
  have hs := stable_value n w.memberVariables[n]?
  have hbound := ((bindStateParameters_keeps ctx fuel state.name state.inputParameters args 0
    fun param hp map value => hs.plain map param.name value
      fun he => hparams ⟨param, hp, he⟩).returns w _ bound rfl hbind).1
  have hleft := ((executeBlock_keeps hs ctx fuel state.body fun s hm =>
    ⟨fun m hd he => hdecls ⟨s, hm, he ▸ hd⟩, fun m hd he => ha s hm (he ▸ hd),
      fun m hd he => hf s hm (he ▸ hd)⟩).returns bound _ left hbound hbody).1
  change (left.memberVariables.restrict w.memberVariables.keyList)[n]? = _
  rw [StdMap.getElem?_restrict, if_pos (StdMap.mem_keyList.mpr hb)]
  exact hleft

theorem leavesOuter_of_disjoint_step (ctx : Context S) (fuel : Nat) {state : StateDecl}
    {args : List RuntimeValue} {w w' : World S} {flow : ControlFlow}
    (ho : (executeState ctx (handlers ctx fuel) state args w).outcome = .ok flow w')
    (hd : Disjoint state w.memberVariables) :
    LeavesOuter state w.memberVariables w'.memberVariables := by
  intro n hb hn
  obtain ⟨hl, hf⟩ := hd n hb
  refine executeState_frame ctx fuel ho hb hl (fun s hm ha => ?_) hf
  exact hn ⟨⟨s, hm, ha⟩, hl⟩

/-- In every run, a state whose own names are not those of the autotuner's variables
leaves these variables alone. -/
theorem leavesOuter_of_disjoint {ctx : Context S} {fuel : Nat} {autotuner : AutotunerDecl}
    {inputs : ParameterMap} {w₀ w₁ : World S} {args₀ : List RuntimeValue}
    (hp : (prepare ctx (handlers ctx fuel) autotuner inputs (cleared w₀)).outcome =
      .ok args₀ w₁)
    (hd : ∀ state ∈ autotuner.states, Disjoint state w₁.memberVariables) :
    ∀ name args w state flow w', Enters ctx fuel autotuner inputs w₀ name args w →
      findState autotuner name = some state →
      (executeState ctx (handlers ctx fuel) state args w).outcome = .ok flow w' →
      LeavesOuter state w.memberVariables w'.memberVariables := by
  intro name args w state flow w' h hs ho
  refine leavesOuter_of_disjoint_step ctx fuel ho fun n hb => ?_
  exact hd state (List.mem_of_find?_eq_some hs) n ((h.names hp n).mp hb)

/-- An autotuner whose output is `total`, and whose state has a parameter. -/
def counter (param : String) : AutotunerDecl where
  name := "Counter"
  inputParams := []
  outputParams := [{ type := .ofParamType .int, name := "total" }]
  autotunerVariables := []
  entryState := "run"
  entryParameters := [.literal {} (.int 5)]
  states := [{
    name := "run"
    inputParameters := [{ type := .ofParamType .int, name := param }]
    body := [.terminal {}] }]

/-- The variables before the first state. -/
def counterEntry : World Unit where
  memberVariables := StdMap.assign ∅ "total" RuntimeValue.unset
  store := ()

theorem prepare_counter (param : String) :
    (prepare { host := Host.unlinked } (handlers { host := Host.unlinked } 1) (counter param) ∅
      (cleared { store := () })).outcome = .ok [.int 5] counterEntry := by
  rfl

theorem disjoint_counter :
    ∀ state ∈ (counter "amount").states, Disjoint state counterEntry.memberVariables := by
  unfold counter
  refine List.forall_mem_singleton.mpr fun n hb => ?_
  have hn : n = "total" := by
    by_contra hne
    have habsent : counterEntry.memberVariables[n]? = none := by
      unfold counterEntry
      rw [StdMap.getElem?_assign_ne _ _ (Ne.symm hne)]
      exact Std.ExtTreeMap.getElem?_empty
    rw [Bound, habsent] at hb
    cases hb
  subst hn
  constructor
  · rintro (⟨param, hp, he⟩ | ⟨s, hs, hd⟩)
    · rw [List.mem_singleton] at hp
      subst hp
      exact absurd he (by decide)
    · rw [List.mem_singleton.mp hs] at hd
      cases hd
  · intro s hs ha
    rw [List.mem_singleton.mp hs] at ha
    cases ha

theorem leavesOuter_of_disjoint_counter :
    ∃ state flow w', findState (counter "amount") "run" = some state ∧
      (executeState { host := Host.unlinked } (handlers { host := Host.unlinked } 1)
        state [.int 5] counterEntry).outcome = .ok flow w' ∧
      LeavesOuter state counterEntry.memberVariables w'.memberVariables :=
  ⟨_, _, _, rfl, rfl, leavesOuter_of_disjoint (prepare_counter "amount") disjoint_counter
    "run" _ _ _ _ _ (.start (prepare_counter "amount")) rfl rfl⟩

theorem not_leavesOuter_counter :
    ¬ ∀ (ctx : Context Unit) (fuel : Nat) (autotuner : AutotunerDecl) (inputs : ParameterMap)
        (w₀ : World Unit) name args w state flow w',
        Enters ctx fuel autotuner inputs w₀ name args w →
        findState autotuner name = some state →
        (executeState ctx (handlers ctx fuel) state args w).outcome = .ok flow w' →
        LeavesOuter state w.memberVariables w'.memberVariables := by
  intro h
  have hleaves := h { host := Host.unlinked } 1 (counter "total") ∅ { store := () }
    "run" _ _ _ _ _ (.start (prepare_counter "total")) rfl rfl
  have hkept := hleaves "total" rfl fun ho => by
    obtain ⟨⟨s, hs, ha⟩, _⟩ := ho
    rw [List.mem_singleton.mp hs] at ha
    cases ha
  exact absurd hkept (by decide +kernel)

end FalconLib.Dsl.StateScope
