import FalconLib.Dsl.VariableFrame

/-!
# The variables on entry to a state

The states of a run are entered with the same variables bound, those that the autotuner
had before its first state. The parameters of a state take the values of the arguments
of the transition that led to it.
-/

namespace FalconLib.Dsl.StateMachine

open FalconLib.Base
open Interpreter Restoration VariableFrame

variable {S : Type}

/-! ## Three properties that writes keep -/

def Bound (map : ParameterMap) (n : String) : Prop := map[n]?.isSome = true

theorem bound_assign {map : ParameterMap} {n : String} (h : Bound map n) (name : String)
    (value : RuntimeValue) : Bound (map.assign name value) n := by
  unfold Bound
  rw [StdMap.getElem?_assign]
  by_cases hn : name = n
  · rw [if_pos hn]
    rfl
  · rw [if_neg hn]
    exact h

/-- No write unbinds a variable. -/
theorem stable_bound (n : String) (plain flat : String → Prop) :
    Stable (Bound · n) plain flat :=
  ⟨fun _ name value _ h => bound_assign h name value,
    fun _ name value _ _ h => bound_assign h name value⟩

/-- A write to other names leaves the value of a variable. -/
theorem stable_value (x : String) (value : Option RuntimeValue) :
    Stable (fun map => map[x]? = value) (· ≠ x) (· ≠ x) :=
  ⟨fun _ _ _ hn h => (StdMap.getElem?_assign_ne _ _ hn).trans h,
    fun _ _ _ hn _ h => (StdMap.getElem?_assign_ne _ _ hn).trans h⟩

/-- Only plain writes can bind a variable. -/
theorem stable_within (known : String → Prop) :
    Stable (fun map => ∀ n, Bound map n → known n) known fun _ => True := by
  have hassign : ∀ (map : ParameterMap) (name : String) (value : RuntimeValue), known name →
      (∀ n, Bound map n → known n) → ∀ n, Bound (map.assign name value) n → known n := by
    intro map name value hn h n hb
    unfold Bound at hb
    rw [StdMap.getElem?_assign] at hb
    by_cases he : name = n
    · exact he ▸ hn
    · rw [if_neg he] at hb
      exact h n hb
  exact ⟨hassign, fun map name value _ hb h => hassign map name value (h name hb) h⟩

/-! ## Before the first state -/

section Prepare

variable (ctx : Context S) (fuel : Nat) {P : ParameterMap → Prop}

theorem setVariable_keeps {name : String} {value : RuntimeValue}
    (h : ∀ map, P map → P (map.assign name value)) :
    Keeps P (setVariable name value : M S Unit) :=
  Keeps.gets_bind fun map hm => Keeps.setVariables (h map hm)

theorem setVariable_ok {name : String} {value : RuntimeValue} {w w' : World S} {u : Unit}
    (h : (setVariable name value w).outcome = .ok u w') :
    w'.memberVariables = w.memberVariables.assign name value := by
  cases h
  rfl

theorem inputValue_keeps (inputs : ParameterMap) (param : ParamDecl) :
    Keeps P (inputValue ctx (handlers ctx fuel) inputs param) := by
  unfold inputValue
  split
  · exact Keeps.pure trivial
  · split
    · exact evaluate_keeps ctx fuel _
    · exact Keeps.throw _

theorem setInputParameters_keeps (inputs : ParameterMap) (params : List ParamDecl)
    (h : ∀ param ∈ params, ∀ map value, P map → P (map.assign param.name value)) :
    Keeps P (setInputParameters ctx (handlers ctx fuel) inputs params) := by
  induction params with
  | nil => exact Keeps.pure trivial
  | cons param params ih =>
    obtain ⟨hfirst, hrest⟩ := List.forall_mem_cons.mp h
    exact Keeps.bind (inputValue_keeps ctx fuel inputs param) fun value _ =>
      Keeps.bind (setVariable_keeps fun map => hfirst map value) fun _ _ => ih hrest

theorem initialOutput_keeps (out : ParamDecl) :
    Keeps P (initialOutput ctx (handlers ctx fuel) out) := by
  unfold initialOutput
  split
  · exact evaluate_keeps ctx fuel _
  · exact Keeps.pure trivial

theorem initialiseOutput_keeps {out : ParamDecl}
    (h : ∀ map value, P map → P (map.assign out.name value)) :
    Keeps P (initialiseOutput ctx (handlers ctx fuel) out) := by
  refine Keeps.gets_bind fun map _ => ?_
  split
  · exact Keeps.pure trivial
  · exact Keeps.bind (initialOutput_keeps ctx fuel out) fun value _ =>
      setVariable_keeps fun map => h map value

theorem initialiseOutputs_keeps (outs : List ParamDecl)
    (h : ∀ out ∈ outs, ∀ map value, P map → P (map.assign out.name value)) :
    Keeps P (initialiseOutputs ctx (handlers ctx fuel) outs) := by
  induction outs with
  | nil => exact Keeps.pure trivial
  | cons out outs ih =>
    obtain ⟨hfirst, hrest⟩ := List.forall_mem_cons.mp h
    exact Keeps.bind (initialiseOutput_keeps ctx fuel hfirst) fun _ _ => ih hrest

theorem initializeVariables_keeps {plain flat : String → Prop} (hs : Stable P plain flat)
    (stmts : List Stmt) (h : ∀ s ∈ blockStmts stmts, WritesWithin plain flat s) :
    Keeps P (initializeVariables ctx (handlers ctx fuel) stmts) := by
  induction stmts with
  | nil => exact Keeps.pure trivial
  | cons stmt stmts ih =>
    exact Keeps.bind (execute_keeps hs ctx fuel stmt fun s hm => h s (List.mem_append_left _ hm))
      fun _ _ => ih fun s hm => h s (List.mem_append_right _ hm)

theorem declared_bound {stmt : VarDeclStmt} {w w' : World S} {result : ControlFlow × Variables}
    (ho : (StmtExecutor.execute ctx (handlers ctx fuel) .member (.varDecl stmt) w).outcome =
      .ok result w') : Bound w'.memberVariables stmt.name := by
  rcases Comp.tryCatch_eq_ok ho with ho | ⟨e, t, _, ho⟩
  · obtain ⟨vars, t, ho, hr⟩ := Comp.bind_eq_ok ho
    cases hr
    obtain ⟨value, t, _, ho⟩ := Comp.bind_eq_ok ho
    cases ho
    unfold Bound
    dsimp only
    rw [StdMap.getElem?_assign_self]
    rfl
  · cases ho

theorem initializeVariables_bound (stmts : List Stmt) {w w' : World S} {u : Unit}
    (ho : (initializeVariables ctx (handlers ctx fuel) stmts w).outcome = .ok u w')
    {stmt : VarDeclStmt} (hm : .varDecl stmt ∈ stmts) : Bound w'.memberVariables stmt.name := by
  induction stmts generalizing w with
  | nil => exact absurd hm List.not_mem_nil
  | cons first stmts ih =>
    obtain ⟨result, t, hfirst, hrest⟩ := Comp.bind_eq_ok ho
    rcases List.mem_cons.mp hm with rfl | hm
    · have hkeeps := initializeVariables_keeps ctx fuel
        (stable_bound stmt.name (fun _ => True) fun _ => True) stmts fun s _ =>
          writesWithin_all s
      exact (hkeeps.returns t u w' (declared_bound ctx fuel hfirst) hrest).1
    · exact ih hrest hm

theorem setInputParameters_bound (inputs : ParameterMap) (params : List ParamDecl)
    {w w' : World S} {u : Unit}
    (ho : (setInputParameters ctx (handlers ctx fuel) inputs params w).outcome = .ok u w')
    {param : ParamDecl} (hp : param ∈ params) : Bound w'.memberVariables param.name := by
  induction params generalizing w with
  | nil => exact absurd hp List.not_mem_nil
  | cons first params ih =>
    obtain ⟨value, t, _, ho⟩ := Comp.bind_eq_ok ho
    obtain ⟨_, t', hset, hrest⟩ := Comp.bind_eq_ok ho
    rcases List.mem_cons.mp hp with rfl | hp
    · have hbound : Bound t'.memberVariables param.name := by
        rw [setVariable_ok hset]
        unfold Bound
        rw [StdMap.getElem?_assign_self]
        rfl
      have hkeeps := setInputParameters_keeps (P := (Bound · param.name)) ctx fuel inputs params
        fun p _ map v hm => bound_assign hm p.name v
      exact (hkeeps.returns t' u w' hbound hrest).1
    · exact ih hrest hp

theorem initialiseOutput_bound {out : ParamDecl} {w w' : World S} {u : Unit}
    (ho : (initialiseOutput ctx (handlers ctx fuel) out w).outcome = .ok u w') :
    Bound w'.memberVariables out.name := by
  unfold initialiseOutput at ho
  rw [getVariables, Comp.outcome_gets_bind] at ho
  cases hb : w.memberVariables[out.name]? with
  | some value =>
    rw [hb] at ho
    cases ho
    unfold Bound
    rw [hb]
    rfl
  | none =>
    rw [hb] at ho
    obtain ⟨value, t, _, hset⟩ := Comp.bind_eq_ok ho
    rw [setVariable_ok hset]
    unfold Bound
    rw [StdMap.getElem?_assign_self]
    rfl

theorem initialiseOutputs_bound (outs : List ParamDecl) {w w' : World S} {u : Unit}
    (ho : (initialiseOutputs ctx (handlers ctx fuel) outs w).outcome = .ok u w')
    {out : ParamDecl} (hm : out ∈ outs) : Bound w'.memberVariables out.name := by
  induction outs generalizing w with
  | nil => exact absurd hm List.not_mem_nil
  | cons first outs ih =>
    obtain ⟨_, t, hfirst, hrest⟩ := Comp.bind_eq_ok ho
    rcases List.mem_cons.mp hm with rfl | hm
    · have hkeeps := initialiseOutputs_keeps (P := (Bound · out.name)) ctx fuel outs
        fun p _ map v hm => bound_assign hm p.name v
      exact (hkeeps.returns t u w' (initialiseOutput_bound ctx fuel hfirst) hrest).1
    · exact ih hrest hm

/-- What is bound before the first state. -/
structure Established (autotuner : AutotunerDecl) (map : ParameterMap) : Prop where
  inputs : ∀ param ∈ autotuner.inputParams, Bound map param.name
  outputs : ∀ out ∈ autotuner.outputParams, Bound map out.name
  declared : ∀ stmt, .varDecl stmt ∈ autotuner.autotunerVariables → Bound map stmt.name
  only : ∀ n, Bound map n → (∃ param ∈ autotuner.inputParams, param.name = n) ∨
    (∃ out ∈ autotuner.outputParams, out.name = n) ∨
    ∃ s ∈ blockStmts autotuner.autotunerVariables, Declares n s ∨ Assigns n s

/-- The world in which a run starts. -/
def cleared (w : World S) : World S := { w with memberVariables := ∅ }

theorem prepare_established {autotuner : AutotunerDecl} {inputs : ParameterMap}
    {w w' : World S} {args : List RuntimeValue}
    (ho : (prepare ctx (handlers ctx fuel) autotuner inputs (cleared w)).outcome = .ok args w') :
    Established autotuner w'.memberVariables := by
  obtain ⟨_, t₁, hvars, ho⟩ := Comp.bind_eq_ok ho
  obtain ⟨_, t₂, hinputs, ho⟩ := Comp.bind_eq_ok ho
  obtain ⟨_, t₃, houts, hargs⟩ := Comp.bind_eq_ok ho
  have hlast : ∀ {P : ParameterMap → Prop}, P t₃.memberVariables → P w'.memberVariables :=
    fun hP => ((evaluateList_keeps ctx fuel autotuner.entryParameters).returns t₃ args w' hP
      hargs).1
  have houtsKeep : ∀ n, Bound t₂.memberVariables n → Bound t₃.memberVariables n := fun n hn =>
    ((initialiseOutputs_keeps (P := (Bound · n)) ctx fuel autotuner.outputParams
      fun p _ map v hm => bound_assign hm p.name v).returns t₂ _ t₃ hn houts).1
  have hinputsKeep : ∀ n, Bound t₁.memberVariables n → Bound t₂.memberVariables n := fun n hn =>
    ((setInputParameters_keeps (P := (Bound · n)) ctx fuel inputs autotuner.inputParams
      fun p _ map v hm => bound_assign hm p.name v).returns t₁ _ t₂ hn hinputs).1
  refine ⟨fun param hp => ?_, fun out hm => ?_, fun stmt hm => ?_, ?_⟩
  · exact hlast (P := (Bound · _))
      (houtsKeep _ (setInputParameters_bound ctx fuel inputs _ hinputs hp))
  · exact hlast (P := (Bound · _)) (initialiseOutputs_bound ctx fuel _ houts hm)
  · exact hlast (P := (Bound · _))
      (houtsKeep _ (hinputsKeep _ (initializeVariables_bound ctx fuel _ hvars hm)))
  · -- Every write before the first state is to a name of one of the three kinds.
    let known : String → Prop := fun n => (∃ param ∈ autotuner.inputParams, param.name = n) ∨
      (∃ out ∈ autotuner.outputParams, out.name = n) ∨
      ∃ s ∈ blockStmts autotuner.autotunerVariables, Declares n s ∨ Assigns n s
    have hs := stable_within known
    have h₀ : ∀ n, Bound (cleared w).memberVariables n → known n := fun n hn => by
      have hnone : (∅ : ParameterMap)[n]? = none := Std.ExtTreeMap.getElem?_empty
      unfold Bound cleared at hn
      rw [hnone] at hn
      cases hn
    have h₁ := ((initializeVariables_keeps ctx fuel hs autotuner.autotunerVariables
      fun s hm => ⟨fun n hn => .inr (.inr ⟨s, hm, .inl hn⟩),
        fun n hn => .inr (.inr ⟨s, hm, .inr hn⟩), fun _ _ => trivial⟩).returns _ _ t₁ h₀ hvars).1
    have h₂ := ((setInputParameters_keeps ctx fuel inputs autotuner.inputParams
      fun param hp map value => hs.plain map param.name value (.inl ⟨param, hp, rfl⟩)).returns
        t₁ _ t₂ h₁ hinputs).1
    have h₃ := ((initialiseOutputs_keeps ctx fuel autotuner.outputParams
      fun out hm map value => hs.plain map out.name value (.inr (.inl ⟨out, hm, rfl⟩))).returns
        t₂ _ t₃ h₂ houts).1
    exact hlast (P := fun map => ∀ n, Bound map n → known n) h₃

end Prepare

/-! ## One state -/

section State

variable (ctx : Context S) (fuel : Nat) {P : ParameterMap → Prop}

theorem stateParameter_keeps (stateName : String) (position : Nat) (param : ParamDecl)
    (argument : Option RuntimeValue) :
    Keeps P (stateParameter ctx (handlers ctx fuel) stateName position param argument) := by
  unfold stateParameter
  split
  · exact Keeps.pure trivial
  · split
    · exact evaluate_keeps ctx fuel _
    · exact Keeps.throw _

theorem bindStateParameters_keeps (stateName : String) (params : List ParamDecl)
    (arguments : List RuntimeValue) (position : Nat)
    (h : ∀ param ∈ params, ∀ map value, P map → P (map.assign param.name value)) :
    Keeps P (bindStateParameters ctx (handlers ctx fuel) stateName params arguments position) := by
  induction params generalizing arguments position with
  | nil => exact Keeps.pure trivial
  | cons param params ih =>
    obtain ⟨hfirst, hrest⟩ := List.forall_mem_cons.mp h
    exact Keeps.bind (stateParameter_keeps ctx fuel stateName position param _) fun value _ =>
      Keeps.bind (setVariable_keeps fun map => hfirst map value) fun _ _ =>
        ih arguments.tail (position + 1) hrest

/-- Parameters with different names take the arguments in order. -/
theorem bindStateParameters_value (stateName : String) (params : List ParamDecl)
    (arguments : List RuntimeValue) (position : Nat)
    (hd : (params.map (·.name)).Nodup) {w w' : World S} {u : Unit}
    (ho : (bindStateParameters ctx (handlers ctx fuel) stateName params arguments position
      w).outcome = .ok u w') {i : Nat} {param : ParamDecl} {value : RuntimeValue}
    (hp : params[i]? = some param) (ha : arguments[i]? = some value) :
    w'.memberVariables[param.name]? = some value := by
  induction params generalizing arguments position w i with
  | nil => cases hp
  | cons first params ih =>
    obtain ⟨hfirst, hrest⟩ := List.nodup_cons.mp hd
    obtain ⟨v, t, hv, hcont⟩ := Comp.bind_eq_ok ho
    obtain ⟨_, t', hset, htail⟩ := Comp.bind_eq_ok hcont
    cases i with
    | zero =>
      obtain rfl : first = param := Option.some.inj hp
      cases arguments with
      | nil => cases ha
      | cons a arguments =>
        obtain rfl : a = value := Option.some.inj ha
        cases hv
        have hvalue : t'.memberVariables[first.name]? = some v := by
          rw [setVariable_ok hset, StdMap.getElem?_assign_self]
        have hkeeps := bindStateParameters_keeps (P := fun map => map[first.name]? = some v)
          ctx fuel stateName params arguments (position + 1) fun p hp map _ hm => by
            have hne : p.name ≠ first.name := fun he =>
              hfirst (List.mem_map.mpr ⟨p, hp, he⟩)
            rw [StdMap.getElem?_assign_ne _ _ hne]
            exact hm
        exact (hkeeps.returns t' u w' hvalue htail).1
    | succ i =>
      refine ih arguments.tail (position + 1) hrest htail hp ?_
      rw [List.getElem?_tail]
      exact ha

/-- What a state that was left did. -/
theorem executeState_ok {state : StateDecl} {args : List RuntimeValue} {w w' : World S}
    {flow : ControlFlow}
    (ho : (executeState ctx (handlers ctx fuel) state args w).outcome = .ok flow w') :
    ∃ bound left,
      (bindStateParameters ctx (handlers ctx fuel) state.name state.inputParameters args 0
        w).outcome = .ok () bound ∧
      (StmtExecutor.executeBlock ctx (handlers ctx fuel) .member state.body bound).outcome =
        .ok (flow, .member) left ∧
      w' = { left with
        memberVariables := left.memberVariables.restrict w.memberVariables.keyList } := by
  obtain ⟨entered, t₀, hentered, ho⟩ := Comp.bind_eq_ok ho
  cases hentered
  obtain ⟨_, t₁, harity, ho⟩ := Comp.bind_eq_ok ho
  obtain ⟨_, t₂, hbind, ho⟩ := Comp.bind_eq_ok ho
  obtain ⟨result, t₃, hbody, ho⟩ := Comp.bind_eq_ok ho
  have hsame : t₁ = w := by
    unfold checkArity at harity
    split at harity
    · cases harity
    · split at harity <;> cases harity
      rfl
  subst hsame
  obtain ⟨flow', vars⟩ := result
  obtain rfl := executeBlock_member ctx fuel hbody
  cases ho
  exact ⟨t₂, t₃, hbind, hbody, rfl⟩

/-- A state is left with the names bound on entry bound, and no others. -/
theorem executeState_names {state : StateDecl} {args : List RuntimeValue} {w w' : World S}
    {flow : ControlFlow}
    (ho : (executeState ctx (handlers ctx fuel) state args w).outcome = .ok flow w')
    (n : String) : Bound w'.memberVariables n ↔ Bound w.memberVariables n := by
  obtain ⟨bound, left, hbind, hbody, rfl⟩ := executeState_ok ctx fuel ho
  change ((left.memberVariables.restrict w.memberVariables.keyList)[n]?).isSome = true ↔ _
  rw [StdMap.getElem?_restrict]
  by_cases hn : n ∈ w.memberVariables.keyList
  · have hentry : Bound w.memberVariables n := StdMap.mem_keyList.mp hn
    have hbound := ((bindStateParameters_keeps (P := (Bound · n)) ctx fuel state.name
      state.inputParameters args 0 fun p _ map v hm => bound_assign hm p.name v).returns
        w _ bound hentry hbind).1
    have hleft := ((executeBlock_keeps (stable_bound n (fun _ => True) fun _ => True) ctx fuel
      state.body fun s _ => writesWithin_all s).returns bound _ left hbound hbody).1
    rw [if_pos hn]
    exact iff_of_true hleft hentry
  · rw [if_neg hn]
    exact iff_of_false Bool.false_ne_true fun hentry => hn (StdMap.mem_keyList.mpr hentry)

/-! ## Transitions -/

theorem executeWithContext_ok {α : Type} {m : M S α} {location : Location} {w w' : World S}
    {a : α} (ho : (StmtExecutor.executeWithContext ctx location m w).outcome = .ok a w') :
    (m w).outcome = .ok a w' := by
  rcases Comp.tryCatch_eq_ok ho with ho | ⟨_, _, _, ho⟩
  · exact ho
  · cases ho

theorem goOn_ok {m : M S Variables} {w w' : World S} {result : ControlFlow × Variables}
    (ho : (StmtExecutor.goOn m w).outcome = .ok result w') : result.1 = .none := by
  obtain ⟨vars, t, _, hr⟩ := Comp.bind_eq_ok ho
  cases hr
  rfl

/-- Some transition statement of the list evaluated its arguments to the values. -/
def Transitions (h : Handlers S) (stmts : List Stmt) (vars : Variables) (target : String)
    (values : List RuntimeValue) (w' : World S) : Prop :=
  ∃ location exprs w, .transition location target exprs ∈ stmts ∧
    (ExprEvaluator.evaluateList ctx h vars exprs w).outcome = .ok values w'

variable {ctx} in
theorem Transitions.mono {h : Handlers S} {stmts stmts' : List Stmt} {vars : Variables}
    {target : String} {values : List RuntimeValue} {w' : World S}
    (ht : Transitions ctx h stmts vars target values w') (hsub : stmts ⊆ stmts') :
    Transitions ctx h stmts' vars target values w' := by
  obtain ⟨location, exprs, w, hm, he⟩ := ht
  exact ⟨location, exprs, w, hsub hm, he⟩

mutual

theorem execute_transition (h : Handlers S) : ∀ (stmt : Stmt) {vars vars' : Variables}
    {w w' : World S} {target : String} {values : List RuntimeValue},
    (StmtExecutor.execute ctx h vars stmt w).outcome =
      .ok (.transition target values, vars') w' →
    Transitions ctx h (simpleStmts stmt) vars' target values w'
  | .varDecl _, _, _, _, _, _, _, ho => nomatch goOn_ok (executeWithContext_ok ctx ho)
  | .assign _ _ _, _, _, _, _, _, _, ho => nomatch goOn_ok (executeWithContext_ok ctx ho)
  | .structFieldAssign _ _ _ _, _, _, _, _, _, _, ho =>
    nomatch goOn_ok (executeWithContext_ok ctx ho)
  | .expr _ _, _, _, _, _, _, _, ho => by
    obtain ⟨_, _, _, hr⟩ := Comp.bind_eq_ok (executeWithContext_ok ctx ho)
    cases hr
  | .ifStmt _ _ thenBody elseBody, _, _, _, _, _, _, ho => by
    obtain ⟨value, t, _, hbranch⟩ := Comp.bind_eq_ok (executeWithContext_ok ctx ho)
    split at hbranch
    · exact (executeBlock_transition h thenBody hbranch).mono (List.subset_append_left _ _)
    · exact (executeBlock_transition h elseBody hbranch).mono (List.subset_append_right _ _)
    · cases hbranch
  | .transition location target exprs, _, _, w, _, _, _, ho => by
    obtain ⟨values, t, he, hr⟩ := Comp.bind_eq_ok (executeWithContext_ok ctx ho)
    cases hr
    exact ⟨location, exprs, w, List.mem_cons_self, he⟩
  | .terminal _, _, _, _, _, _, _, ho => nomatch executeWithContext_ok ctx ho

theorem executeBlock_transition (h : Handlers S) : ∀ (stmts : List Stmt)
    {vars vars' : Variables} {w w' : World S} {target : String} {values : List RuntimeValue},
    (StmtExecutor.executeBlock ctx h vars stmts w).outcome =
      .ok (.transition target values, vars') w' →
    Transitions ctx h (blockStmts stmts) vars' target values w'
  | [], _, _, _, _, _, _, ho => nomatch ho
  | stmt :: stmts, _, _, _, _, _, _, ho => by
    obtain ⟨⟨flow, vars⟩, t, hfirst, hrest⟩ := Comp.bind_eq_ok ho
    cases flow with
    | none =>
      exact (executeBlock_transition h stmts hrest).mono (List.subset_append_right _ _)
    | transition target values =>
      cases hrest
      exact (execute_transition h stmt hfirst).mono (List.subset_append_left _ _)
    | terminal => cases hrest

end

/-- The arguments of a list are evaluated one after the other on the same variables. -/
theorem evaluateList_values (es : List Expr) {w w' : World S} {values : List RuntimeValue}
    (ho : (ExprEvaluator.evaluateList ctx (handlers ctx fuel) .member es w).outcome =
      .ok values w') :
    w'.memberVariables = w.memberVariables ∧ values.length = es.length ∧
      ∀ (i : Nat) e value, es[i]? = some e → values[i]? = some value →
        ∃ v v', (ExprEvaluator.evaluate ctx (handlers ctx fuel) .member e v).outcome =
          .ok value v' ∧ v.memberVariables = w.memberVariables := by
  induction es generalizing w values with
  | nil =>
    cases ho
    exact ⟨rfl, rfl, fun i e value he _ => nomatch he⟩
  | cons e es ih =>
    obtain ⟨value, t, hfirst, ho⟩ := Comp.bind_eq_ok ho
    obtain ⟨rest, t', hrest, hr⟩ := Comp.bind_eq_ok ho
    cases hr
    have hsame := (evaluate_restores ctx fuel .member e).ok w value t hfirst
    obtain ⟨hvars, hlength, hvalues⟩ := ih hrest
    refine ⟨hvars.trans hsame, congrArg (· + 1) hlength, fun i e' v he hv => ?_⟩
    cases i with
    | zero =>
      obtain rfl := Option.some.inj he
      obtain rfl := Option.some.inj hv
      exact ⟨w, t, hfirst, rfl⟩
    | succ i =>
      obtain ⟨u, u', hu, huv⟩ := hvalues i e' v he hv
      exact ⟨u, u', hu, huv.trans hsame⟩

end State

/-! ## Runs -/

section Runs

variable (ctx : Context S) (fuel : Nat) (autotuner : AutotunerDecl) (inputs : ParameterMap)
  (w₀ : World S)

/-- The entries into states of a run: the name of the state, the values for its
parameters, and the world before they are bound. -/
inductive Enters : String → List RuntimeValue → World S → Prop
  | start {args : List RuntimeValue} {w : World S}
      (hp : (prepare ctx (handlers ctx fuel) autotuner inputs (cleared w₀)).outcome =
        .ok args w) : Enters autotuner.entryState args w
  | transition {name target : String} {args values : List RuntimeValue} {w w' : World S}
      {state : StateDecl} (h : Enters name args w) (hs : findState autotuner name = some state)
      (he : (executeState ctx (handlers ctx fuel) state args w).outcome =
        .ok (.transition target values) w') : Enters target values w'

/-- The values are those that the arguments of a transition statement of the state have
in the variables that the state ends with. -/
def HandsOver (state : StateDecl) (map : ParameterMap) (target : String)
    (values : List RuntimeValue) : Prop :=
  ∃ location exprs, .transition location target exprs ∈ blockStmts state.body ∧
    values.length = exprs.length ∧
    ∀ (i : Nat) e value, exprs[i]? = some e → values[i]? = some value →
      ∃ v v', (ExprEvaluator.evaluate ctx (handlers ctx fuel) .member e v).outcome =
        .ok value v' ∧ v.memberVariables = map

/-- What holds of every entry into a state. -/
structure EntryLaw (established : ParameterMap) (name : String) (args : List RuntimeValue)
    (w : World S) : Prop where
  names : ∀ n, Bound w.memberVariables n ↔ Bound established n
  parameters : ∀ state w', findState autotuner name = some state →
    (bindStateParameters ctx (handlers ctx fuel) state.name state.inputParameters args 0
      w).outcome = .ok () w' →
    ∀ (i : Nat) param value, state.inputParameters[i]? = some param → args[i]? = some value →
      w'.memberVariables[param.name]? = some value
  handsOver : ∀ state target values w', findState autotuner name = some state →
    (executeState ctx (handlers ctx fuel) state args w).outcome =
      .ok (.transition target values) w' →
    ∃ bound left,
      (StmtExecutor.executeBlock ctx (handlers ctx fuel) .member state.body bound).outcome =
        .ok (.transition target values, .member) left ∧
      HandsOver ctx fuel state left.memberVariables target values
  outputs : ∀ state w', findState autotuner name = some state →
    (executeState ctx (handlers ctx fuel) state args w).outcome = .ok .terminal w' →
    ∀ out ∈ autotuner.outputParams, Bound w'.memberVariables out.name

variable {ctx fuel autotuner inputs w₀}

/-- The names bound on entry are those bound before the first state. -/
theorem Enters.names {args₀ : List RuntimeValue} {w₁ : World S}
    (hp : (prepare ctx (handlers ctx fuel) autotuner inputs (cleared w₀)).outcome =
      .ok args₀ w₁) {name : String} {args : List RuntimeValue} {w : World S}
    (h : Enters ctx fuel autotuner inputs w₀ name args w) (n : String) :
    Bound w.memberVariables n ↔ Bound w₁.memberVariables n := by
  induction h with
  | start hp' =>
    cases hp.symm.trans hp'
    exact Iff.rfl
  | transition _ _ he ih => exact (executeState_names ctx fuel he n).trans ih

theorem handsOver_of_executeState {state : StateDecl} {args values : List RuntimeValue}
    {target : String} {w w' : World S}
    (he : (executeState ctx (handlers ctx fuel) state args w).outcome =
      .ok (.transition target values) w') :
    ∃ bound left,
      (StmtExecutor.executeBlock ctx (handlers ctx fuel) .member state.body bound).outcome =
        .ok (.transition target values, .member) left ∧
      HandsOver ctx fuel state left.memberVariables target values := by
  obtain ⟨bound, left, _, hbody, _⟩ := executeState_ok ctx fuel he
  obtain ⟨location, exprs, w, hm, hev⟩ := executeBlock_transition ctx _ state.body hbody
  obtain ⟨hvars, hlength, hvalues⟩ := evaluateList_values ctx fuel exprs hev
  refine ⟨bound, left, hbody, location, exprs, hm, hlength, fun i e value hi hv => ?_⟩
  obtain ⟨v, v', hev', hmap⟩ := hvalues i e value hi hv
  exact ⟨v, v', hev', hmap.trans hvars.symm⟩

/-- A loop that returns does so from a state that it entered. -/
theorem stateLoop_ok {rounds : Nat} {name : String} {args : List RuntimeValue}
    {w w' : World S} (h : Enters ctx fuel autotuner inputs w₀ name args w)
    (ho : (stateLoop ctx (handlers ctx fuel) autotuner rounds name args w).outcome =
      .ok () w') :
    ∃ name' args' v state, Enters ctx fuel autotuner inputs w₀ name' args' v ∧
      findState autotuner name' = some state ∧
      (executeState ctx (handlers ctx fuel) state args' v).outcome = .ok .terminal w' := by
  induction rounds generalizing name args w with
  | zero => cases ho
  | succ rounds ih =>
    cases hs : findState autotuner name with
    | none =>
      simp only [stateLoop, hs] at ho
      cases ho
    | some state =>
      simp only [stateLoop, hs] at ho
      obtain ⟨flow, t, he, hnext⟩ := Comp.bind_eq_ok ho
      cases flow with
      | terminal =>
        cases hnext
        exact ⟨name, args, w, state, h, hs, he⟩
      | transition target values => exact ih (.transition h hs he) hnext
      | none => cases hnext

theorem extractOutputs_ok (outs : List ParamDecl) {w : World S}
    (h : ∀ out ∈ outs, Bound w.memberVariables out.name) :
    ∃ values, (extractOutputs outs w).outcome = .ok values w := by
  induction outs with
  | nil => exact ⟨[], rfl⟩
  | cons out outs ih =>
    obtain ⟨hfirst, hrest⟩ := List.forall_mem_cons.mp h
    obtain ⟨value, hv⟩ := Option.isSome_iff_exists.mp hfirst
    obtain ⟨values, hvalues⟩ := ih hrest
    refine ⟨value :: values, ?_⟩
    unfold extractOutputs getVariables
    rw [Comp.outcome_gets_bind, hv]
    exact Comp.bind_of_ok hvalues

end Runs

/-- An autotuner with one state, started with the values 1 and 2. -/
def pair (first second : String) : AutotunerDecl where
  name := "Pair"
  inputParams := []
  outputParams := []
  autotunerVariables := []
  entryState := "s"
  entryParameters := [.literal {} (.int 1), .literal {} (.int 2)]
  states := [{
    name := "s"
    inputParameters := [{ type := .ofParamType .int, name := first },
      { type := .ofParamType .int, name := second }]
    body := [.terminal {}] }]

end FalconLib.Dsl.StateMachine
