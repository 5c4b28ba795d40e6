import FalconLib.Dsl.RunHistory
import FalconLib.Dsl.StateMachine

/-!
# Paths through the states of an autotuner

A path goes from one entry into a state to a later one. The state machine follows it, and only
adds instances to the type registry. The rules for the statements of a state work on the variables
of the interpreter.
-/

namespace FalconLib.Dsl.StatePaths

open FalconLib.Base (Comp StdMap)
open ExprEvaluator (evaluate evaluateList)
open Interpreter Restoration RunHistory StateMachine VariableFrame
open StmtExecutor (execute executeBlock)

variable {S : Type}

/-- The world when a state is entered, before its parameters are bound. -/
structure Entry (S : Type) where
  name : String
  args : List RuntimeValue
  world : World S

section Paths

variable (ctx : Context S) (fuel : Nat) (autotuner : AutotunerDecl)

/-- The state machine gets from one entry to another through the states that are listed. -/
inductive Goes : Entry S → List String → Entry S → Prop
  | refl (entry : Entry S) : Goes entry [] entry
  | step {entry last : Entry S} {state : StateDecl} {target : String}
      {values : List RuntimeValue} {w : World S} {visited : List String}
      (hs : findState autotuner entry.name = some state)
      (he : (executeState ctx (handlers ctx fuel) state entry.args entry.world).outcome =
        .ok (.transition target values) w) (h : Goes ⟨target, values, w⟩ visited last) :
      Goes entry (entry.name :: visited) last

variable {ctx fuel autotuner} {entry middle last : Entry S} {visited visited' : List String}

theorem Goes.trans (h : Goes ctx fuel autotuner entry visited middle)
    (h' : Goes ctx fuel autotuner middle visited' last) :
    Goes ctx fuel autotuner entry (visited ++ visited') last := by
  induction h with
  | refl _ => exact h'
  | step hs he _ ih => exact .step hs he (ih h')

theorem Goes.single {state : StateDecl} (hs : findState autotuner entry.name = some state)
    (he : (executeState ctx (handlers ctx fuel) state entry.args entry.world).outcome =
      .ok (.transition last.name last.args) last.world) :
    Goes ctx fuel autotuner entry [entry.name] last := .step hs he (.refl _)

theorem Goes.enters {inputs : ParameterMap} {w₀ : World S}
    (h : Goes ctx fuel autotuner entry visited last)
    (he : Enters ctx fuel autotuner inputs w₀ entry.name entry.args entry.world) :
    Enters ctx fuel autotuner inputs w₀ last.name last.args last.world := by
  induction h with
  | refl _ => exact he
  | step hs hstep _ ih => exact ih (.transition he hs hstep)

/-- A state after the first of a path is the target of a transition of one before it. -/
theorem Goes.targeted (h : Goes ctx fuel autotuner entry visited last) {name : String}
    (hn : name ∈ visited.tail) :
    ∃ prior ∈ visited, ∃ state location args, findState autotuner prior = some state ∧
      .transition location name args ∈ blockStmts state.body := by
  induction h with
  | refl _ => exact absurd hn List.not_mem_nil
  | @step entry last state target values w visited hs he h ih =>
    rw [List.tail_cons] at hn
    cases h with
    | refl _ => exact absurd hn List.not_mem_nil
    | step hs' he' h' =>
      rcases List.mem_cons.mp hn with rfl | hn
      · obtain ⟨_, _, _, location, args, hm, _⟩ := handsOver_of_executeState he
        exact ⟨entry.name, List.mem_cons_self, state, location, args, hs, hm⟩
      · obtain ⟨prior, hprior, hfound⟩ := ih hn
        exact ⟨prior, List.mem_cons_of_mem _ hprior, hfound⟩

/-- The loop needs one round for each state on the path. -/
theorem stateLoop_of_goes (h : Goes ctx fuel autotuner entry visited last) (rounds : Nat) :
    (stateLoop ctx (handlers ctx fuel) autotuner (visited.length + rounds) entry.name entry.args
      entry.world).outcome =
      (stateLoop ctx (handlers ctx fuel) autotuner rounds last.name last.args last.world).outcome := by
  induction h with
  | refl _ => rw [List.length_nil, Nat.zero_add]
  | step hs he _ ih =>
    rw [List.length_cons, Nat.add_right_comm]
    simp only [stateLoop, hs]
    exact (Comp.bind_of_ok he).trans ih

theorem extends_of_alike {α : Type} {m : M S α} {loaded : TypeRegistry}
    (hm : Coupling.Alike Anything (extending loaded) Eq m m) {w w' : World S} {a : α}
    (h : Extends loaded w.types) (ho : (m w).outcome = .ok a w') : Extends loaded w'.types := by
  have hagree := hm w w ⟨rfl, rfl, rfl, fun _ _ => .inl rfl, fun _ _ _ => rfl, fun _ _ _ => rfl,
    fun _ _ _ hreach => (or_self_iff.mp hreach).elim, h⟩ fun _ _ => trivial
  rw [ho] at hagree
  exact hagree.2.types.kept

theorem executeState_extends {state : StateDecl} {args : List RuntimeValue} {w w' : World S}
    {flow : ControlFlow} {loaded : TypeRegistry} (h : Extends loaded w.types)
    (he : (executeState ctx (handlers ctx fuel) state args w).outcome = .ok flow w') :
    Extends loaded w'.types := by
  have hc : Coupling.ContextsAgree Anything ctx ctx := contexts_refl ctx
  exact extends_of_alike
    (Coupling.executeState_agree hc (Coupling.handlers_agree hc fuel) state args) h he

theorem prepare_extends {inputs : ParameterMap} {args : List RuntimeValue} {w w' : World S}
    {loaded : TypeRegistry} (h : Extends loaded w.types)
    (hp : (prepare ctx (handlers ctx fuel) autotuner inputs w).outcome = .ok args w') :
    Extends loaded w'.types := by
  have hc : Coupling.ContextsAgree Anything ctx ctx := contexts_refl ctx
  exact extends_of_alike
    (Coupling.prepare_agree hc (Coupling.handlers_agree hc fuel) autotuner inputs) h hp

/-- A run only adds instances to the registry. -/
theorem Enters.extends {inputs : ParameterMap} {w₀ : World S} {name : String}
    {args : List RuntimeValue} {w : World S}
    (h : Enters ctx fuel autotuner inputs w₀ name args w) : Extends w₀.types w.types := by
  induction h with
  | start hp =>
    have hstart : Extends w₀.types (cleared w₀).types := .refl _
    exact prepare_extends hstart hp
  | transition _ _ he ih => exact executeState_extends ih he

end Paths

/-! ## More rounds -/

/-- The second computation ends as the first one does, unless that halts. -/
def Settles {α : Type} (m m' : M S α) : Prop :=
  ∀ w, (∃ r, (m w).outcome = .halt r) ∨ (m' w).outcome = (m w).outcome

section Settles

variable {α β : Type} {m m' : M S α}

theorem Settles.refl (m : M S α) : Settles m m := fun _ => .inr rfl

theorem Settles.bind_left (h : Settles m m') (f : α → M S β) : Settles (m >>= f) (m' >>= f) := by
  intro w
  rw [Comp.outcome_bind, Comp.outcome_bind]
  rcases h w with ⟨r, hr⟩ | heq
  · exact .inl ⟨r, by rw [hr]⟩
  · exact .inr (by rw [heq])

theorem Settles.bind {f f' : α → M S β} (h : ∀ a, Settles (f a) (f' a)) (m : M S α) :
    Settles (m >>= f) (m >>= f') := by
  intro w
  rw [Comp.outcome_bind, Comp.outcome_bind]
  cases (m w).outcome with
  | ok a w' => exact h a w'
  | throw e w' => exact .inr rfl
  | halt r => exact .inl ⟨r, rfl⟩

theorem Settles.tryCatch (h : Settles m m') (handler : Exception → M S α) :
    Settles (Comp.tryCatch m handler) (Comp.tryCatch m' handler) := by
  intro w
  have hw := h w
  unfold Comp.tryCatch
  generalize m w = first, m' w = second at hw ⊢
  obtain ⟨_, outcome⟩ := first
  obtain ⟨_, outcome'⟩ := second
  rcases hw with ⟨r, hr⟩ | heq
  · cases hr
    exact .inl ⟨r, rfl⟩
  · cases heq
    right
    cases outcome with
    | ok a w' => rfl
    | throw e w' => rfl
    | halt r => rfl

variable (ctx : Context S) (h : Handlers S) (autotuner : AutotunerDecl)

theorem settles_stateLoop (extra rounds : Nat) (name : String) (args : List RuntimeValue) :
    Settles (stateLoop ctx h autotuner rounds name args)
      (stateLoop ctx h autotuner (rounds + extra) name args) := by
  induction rounds generalizing name args with
  | zero => exact fun _ => .inl ⟨_, rfl⟩
  | succ rounds ih =>
    rw [Nat.add_right_comm]
    simp only [stateLoop]
    cases findState autotuner name with
    | none => exact .refl _
    | some state =>
      refine Settles.bind (fun flow => ?_) _
      cases flow with
      | transition target values => exact ih target values
      | _ => exact .refl _

/-- A run that does not need more rounds ends the same way with more. -/
theorem settles_run (extra rounds : Nat) (inputs : ParameterMap) :
    Settles (run ctx h rounds autotuner inputs) (run ctx h (rounds + extra) autotuner inputs) := by
  refine Settles.bind (fun saved => Settles.bind (fun _ => Settles.tryCatch ?_ _) _) _
  refine Settles.bind_left ?_ _
  refine Settles.bind (fun args => ?_) _
  exact (settles_stateLoop ctx h autotuner extra rounds autotuner.entryState args).bind_left _

end Settles

/-! ## The body of a state -/

variable {ctx : Context S} {h : Handlers S} {w w' : World S} {value : RuntimeValue}
  {flow : ControlFlow} {stmts : List Stmt}

theorem evaluate_var {name : String} (hn : w.memberVariables[name]? = some value) :
    (evaluate ctx h .member (.var {} name) w).outcome = .ok value w := by
  change (ExprEvaluator.evalVariable .member name w).outcome = _
  unfold ExprEvaluator.evalVariable
  rw [Comp.outcome_gets_bind]
  dsimp only [Variables.read]
  rw [hn]
  rfl

theorem evaluateList_vars {names : List String} {values : List RuntimeValue}
    (hv : List.Forall₂ (fun name value => w.memberVariables[name]? = some value) names values) :
    (evaluateList ctx h .member (names.map (Expr.var {})) w).outcome = .ok values w := by
  induction hv with
  | nil => rfl
  | cons hhead _ ih =>
    refine (Comp.bind_of_ok (evaluate_var hhead)).trans ?_
    exact Comp.bind_of_ok ih

/-- The statements end with the flow. -/
def Ends (ctx : Context S) (h : Handlers S) (stmts : List Stmt) (w : World S) (flow : ControlFlow)
    (w' : World S) : Prop :=
  (executeBlock ctx h .member stmts w).outcome = .ok (flow, .member) w'

/-- The world with one more variable. -/
def declared (w : World S) (name : String) (value : RuntimeValue) : World S :=
  { w with memberVariables := w.memberVariables.assign name value }

theorem Ends.varDecl {type : TypeDescriptor} {name : String} {e : Expr} {w₁ : World S}
    (ht : type.isGenericStruct = false) (he : (evaluate ctx h .member e w).outcome = .ok value w₁)
    (hr : Ends ctx h stmts (declared w₁ name value) flow w') :
    Ends ctx h (.varDecl ⟨{}, type, name, some e⟩ :: stmts) w flow w' := by
  have hinitial : (StmtExecutor.initialValue ctx h .member ⟨{}, type, name, some e⟩ w).outcome =
      .ok value w₁ := by
    unfold StmtExecutor.initialValue StmtExecutor.markedInitializer
    dsimp only
    rw [if_neg (by rw [ht]; exact Bool.false_ne_true)]
    exact he
  have hexec : (StmtExecutor.execVarDecl ctx h .member ⟨{}, type, name, some e⟩ w).outcome =
      .ok .member (declared w₁ name value) := Comp.bind_of_ok hinitial
  have hstep : (execute ctx h .member (.varDecl ⟨{}, type, name, some e⟩) w).outcome =
      .ok (.none, .member) (declared w₁ name value) := Comp.tryCatch_of_ok (Comp.bind_of_ok hexec)
  exact (Comp.bind_of_ok hstep).trans hr

theorem Ends.assign {name : String} {e : Expr} {w₁ : World S}
    (he : (evaluate ctx h .member e w).outcome = .ok value w₁)
    (hr : Ends ctx h stmts (declared w₁ name value) flow w') :
    Ends ctx h (.assign {} [{ variableName := name }] e :: stmts) w flow w' := by
  have hexec : (StmtExecutor.execAssign ctx h .member [{ variableName := name }] e w).outcome =
      .ok .member (declared w₁ name value) := Comp.bind_of_ok he
  have hstep : (execute ctx h .member (.assign {} [{ variableName := name }] e) w).outcome =
      .ok (.none, .member) (declared w₁ name value) := Comp.tryCatch_of_ok (Comp.bind_of_ok hexec)
  exact (Comp.bind_of_ok hstep).trans hr

/-- A branch that leaves the state ends the block. -/
theorem Ends.ifStmt {condition : Expr} {thenBody elseBody : List Stmt} {taken : Bool}
    {w₁ : World S} (he : (evaluate ctx h .member condition w).outcome = .ok (.bool taken) w₁)
    (hb : Ends ctx h (if taken then thenBody else elseBody) w₁ flow w') (hflow : flow ≠ .none) :
    Ends ctx h (.ifStmt {} condition thenBody elseBody :: stmts) w flow w' := by
  have hstep : (execute ctx h .member (.ifStmt {} condition thenBody elseBody) w).outcome =
      .ok (flow, .member) w' := by
    refine Comp.tryCatch_of_ok ((Comp.bind_of_ok he).trans ?_)
    cases taken <;> exact hb
  refine (Comp.bind_of_ok hstep).trans ?_
  cases flow with
  | none => exact absurd rfl hflow
  | _ => rfl

/-- An `if` without `else` whose condition fails is passed over. -/
theorem Ends.skip {condition : Expr} {thenBody : List Stmt} {w₁ : World S}
    (he : (evaluate ctx h .member condition w).outcome = .ok (.bool false) w₁)
    (hr : Ends ctx h stmts w₁ flow w') :
    Ends ctx h (.ifStmt {} condition thenBody [] :: stmts) w flow w' := by
  have hstep : (execute ctx h .member (.ifStmt {} condition thenBody []) w).outcome =
      .ok (.none, .member) w₁ := Comp.tryCatch_of_ok (Comp.bind_of_ok he)
  exact (Comp.bind_of_ok hstep).trans hr

theorem Ends.transition {target : String} {exprs : List Expr} {values : List RuntimeValue}
    (he : (evaluateList ctx h .member exprs w).outcome = .ok values w') :
    Ends ctx h (.transition {} target exprs :: stmts) w (.transition target values) w' := by
  have hstep : (execute ctx h .member (.transition {} target exprs) w).outcome =
      .ok (.transition target values, .member) w' := Comp.tryCatch_of_ok (Comp.bind_of_ok he)
  exact (Comp.bind_of_ok hstep).trans rfl

theorem Ends.terminal : Ends ctx h (.terminal {} :: stmts) w .terminal w := rfl

/-! ## Entering and leaving a state -/

/-- The variables of the interpreter once the parameters are bound. -/
def bound (map : ParameterMap) (params : List ParamDecl) (args : List RuntimeValue) :
    ParameterMap :=
  map.assignAll ((params.map (·.name)).zip args)

/-- Parameters with different names take the values in order. -/
theorem bound_values {map : ParameterMap} {params : List ParamDecl} {args : List RuntimeValue}
    (hd : (params.map (·.name)).Nodup) (hl : params.length = args.length) :
    List.Forall₂ (fun name value => (bound map params args)[name]? = some value)
      (params.map (·.name)) args := by
  have hlength : (params.map (·.name)).length = args.length := (List.length_map _).trans hl
  refine List.forall₂_iff_zip.mpr ⟨hlength, fun {name value} hm => ?_⟩
  have hnames : ((params.map (·.name)).zip args).map Prod.fst = params.map (·.name) :=
    List.map_fst_zip hlength.le
  refine StdMap.getElem?_assignAll_of_mem ?_ hm
  rw [hnames]
  exact hd

theorem bindStateParameters_outcome {params : List ParamDecl} {args : List RuntimeValue}
    (hl : params.length = args.length) (stateName : String) (position : Nat) (w : World S) :
    (bindStateParameters ctx h stateName params args position w).outcome =
      .ok () { w with memberVariables := bound w.memberVariables params args } := by
  induction params generalizing args position w with
  | nil =>
    cases args with
    | nil => rfl
    | cons _ _ => cases hl
  | cons param params ih =>
    cases args with
    | nil => cases hl
    | cons value args =>
      have hl : params.length = args.length := Nat.succ.inj hl
      exact ih hl (position + 1) (declared w param.name value)

/-- A state whose body ends on the bound variables is left with the names it was entered with. -/
theorem executeState_outcome {state : StateDecl} {args : List RuntimeValue}
    (hl : state.inputParameters.length = args.length)
    (hb : Ends ctx h state.body
      { w with memberVariables := bound w.memberVariables state.inputParameters args } flow w') :
    (executeState ctx h state args w).outcome = .ok flow { w' with
      memberVariables := w'.memberVariables.restrict w.memberVariables.keyList } := by
  have harity : (checkArity state args w).outcome = .ok () w := by
    unfold checkArity
    rw [if_neg, if_neg (by omega)]
    · rfl
    · intro h
      rw [Bool.and_eq_true, Bool.not_eq_true', List.isEmpty_iff, List.isEmpty_eq_false_iff] at h
      rw [h.1] at hl
      exact h.2 (List.length_eq_zero_iff.mp hl.symm)
  unfold executeState
  refine (Comp.outcome_gets_bind _ _ _).trans ?_
  refine (Comp.bind_of_ok harity).trans ?_
  refine (Comp.bind_of_ok (bindStateParameters_outcome hl _ _ _)).trans ?_
  exact (Comp.bind_of_ok hb).trans rfl

theorem extractOutputs_outcome {outs : List ParamDecl} {values : List RuntimeValue}
    (hv : List.Forall₂ (fun name value => w.memberVariables[name]? = some value)
      (outs.map (·.name)) values) : (extractOutputs outs w).outcome = .ok values w := by
  induction outs generalizing values with
  | nil =>
    cases hv
    rfl
  | cons out outs ih =>
    obtain ⟨value, values, hvalue, hvalues, rfl⟩ := List.forall₂_cons_left_iff.mp hv
    unfold extractOutputs getVariables
    rw [Comp.outcome_gets_bind, hvalue]
    exact Comp.bind_of_ok (ih hvalues)

end FalconLib.Dsl.StatePaths
