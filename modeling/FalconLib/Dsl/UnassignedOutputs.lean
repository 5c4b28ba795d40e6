import FalconLib.Dsl.OwnFrame
import FalconLib.Dsl.ReadOnlyInputs

/-!
# Outputs that an execution never assigns

An autotuner, a routine and a routine of a struct each have their own way to begin and to collect
their outputs, and the three ways differ on an output that the body leaves alone.
-/

namespace FalconLib.Dsl.UnassignedOutputs

open FalconLib.Base
open VariableFrame StateMachine OwnFrame
open StmtExecutor (execute executeBlock)
open ExprEvaluator (evaluate)

variable {S : Type}

/-! ## What an execution writes -/

/-- The statement declares or assigns the variable, or a field of its name. -/
def Writes (n : String) (s : Stmt) : Prop := Declares n s ∨ Assigns n s ∨ AssignsField n s

mutual

/-- The execution of a statement goes through the simple statement `s`. -/
inductive Passes (ctx : Context S) (h : Handlers S) (s : Stmt) : Variables → World S → Stmt → Prop
  | here (vars : Variables) (w : World S) (hs : simpleStmts s = [s]) : Passes ctx h s vars w s
  | thenBranch {vars : Variables} {w u : World S} {location : Location} {condition : Expr}
      {thenBody elseBody : List Stmt}
      (hc : (evaluate ctx h vars condition w).outcome = .ok (.bool true) u)
      (hb : PassesBlock ctx h s vars u thenBody) :
      Passes ctx h s vars w (.ifStmt location condition thenBody elseBody)
  | elseBranch {vars : Variables} {w u : World S} {location : Location} {condition : Expr}
      {thenBody elseBody : List Stmt}
      (hc : (evaluate ctx h vars condition w).outcome = .ok (.bool false) u)
      (hb : PassesBlock ctx h s vars u elseBody) :
      Passes ctx h s vars w (.ifStmt location condition thenBody elseBody)

inductive PassesBlock (ctx : Context S) (h : Handlers S) (s : Stmt) :
    Variables → World S → List Stmt → Prop
  | head {vars : Variables} {w : World S} {stmt : Stmt} {stmts : List Stmt}
      (hp : Passes ctx h s vars w stmt) : PassesBlock ctx h s vars w (stmt :: stmts)
  | tail {vars vars' : Variables} {w u : World S} {stmt : Stmt} {stmts : List Stmt}
      (ho : (execute ctx h vars stmt w).outcome = .ok (.none, vars') u)
      (hp : PassesBlock ctx h s vars' u stmts) : PassesBlock ctx h s vars w (stmt :: stmts)

end

/-- No statement that the block goes through writes the variable. -/
def Leaves (ctx : Context S) (h : Handlers S) (n : String) (vars : Variables) (w : World S)
    (stmts : List Stmt) : Prop :=
  ∀ s, PassesBlock ctx h s vars w stmts → ¬Writes n s

/-- The statements before the first state run whatever their control flow is. -/
inductive PassesEach (ctx : Context S) (h : Handlers S) (s : Stmt) : World S → List Stmt → Prop
  | head {w : World S} {stmt : Stmt} {stmts : List Stmt} (hp : Passes ctx h s .member w stmt) :
      PassesEach ctx h s w (stmt :: stmts)
  | tail {w u : World S} {stmt : Stmt} {stmts : List Stmt} {result : ControlFlow × Variables}
      (ho : (execute ctx h .member stmt w).outcome = .ok result u)
      (hp : PassesEach ctx h s u stmts) : PassesEach ctx h s w (stmt :: stmts)

def LeavesEach (ctx : Context S) (h : Handlers S) (n : String) (w : World S) (stmts : List Stmt) :
    Prop :=
  ∀ s, PassesEach ctx h s w stmts → ¬Writes n s

section Static

variable {ctx : Context S} {h : Handlers S} {s : Stmt}

mutual

/-- An execution goes through statements of the text. -/
theorem mem_of_passes : ∀ (stmt : Stmt) {vars : Variables} {w : World S},
    Passes ctx h s vars w stmt → s ∈ simpleStmts stmt
  | .ifStmt location condition thenBody elseBody, _, _, hp => by
    cases hp with
    | here _ _ hs => exact hs ▸ List.mem_cons_self
    | thenBranch _ hb => exact List.mem_append_left _ (mem_of_passesBlock thenBody hb)
    | elseBranch _ hb => exact List.mem_append_right _ (mem_of_passesBlock elseBody hb)
  | .varDecl _, _, _, hp => by
    cases hp
    exact List.mem_cons_self
  | .assign _ _ _, _, _, hp => by
    cases hp
    exact List.mem_cons_self
  | .structFieldAssign _ _ _ _, _, _, hp => by
    cases hp
    exact List.mem_cons_self
  | .expr _ _, _, _, hp => by
    cases hp
    exact List.mem_cons_self
  | .transition _ _ _, _, _, hp => by
    cases hp
    exact List.mem_cons_self
  | .terminal _, _, _, hp => by
    cases hp
    exact List.mem_cons_self

theorem mem_of_passesBlock : ∀ (stmts : List Stmt) {vars : Variables} {w : World S},
    PassesBlock ctx h s vars w stmts → s ∈ blockStmts stmts
  | stmt :: stmts, _, _, hp => by
    cases hp with
    | head hp => exact List.mem_append_left _ (mem_of_passes stmt hp)
    | tail _ hp => exact List.mem_append_right _ (mem_of_passesBlock stmts hp)

end

/-- A block whose text does not write the variable leaves it. -/
theorem leaves_of_text {n : String} {stmts : List Stmt} (hn : ∀ s ∈ blockStmts stmts, ¬Writes n s)
    (vars : Variables) (w : World S) : Leaves ctx h n vars w stmts :=
  fun s hp => hn s (mem_of_passesBlock stmts hp)

end Static

section Frame

variable (ctx : Context S) (fuel : Nat) {n : String}

theorem writesWithin_of_not {s : Stmt} (h : ¬Writes n s) : WritesWithin (· ≠ n) (· ≠ n) s :=
  ⟨fun _ hd he => h (.inl (he ▸ hd)), fun _ ha he => h (.inr (.inl (he ▸ ha))),
    fun _ hf he => h (.inr (.inr (he ▸ hf)))⟩

theorem simple_frame {stmt : Stmt} (hs : simpleStmts stmt = [stmt]) (hn : ¬Writes n stmt)
    {vars vars' : Variables} {flow : ControlFlow} {w w' : World S}
    (ho : (execute ctx (Interpreter.handlers ctx fuel) vars stmt w).outcome =
      .ok (flow, vars') w') : (vars'.read w')[n]? = (vars.read w)[n]? := by
  have hwrites : ∀ s ∈ simpleStmts stmt, WritesWithin (· ≠ n) (· ≠ n) s := by
    rw [hs]
    exact List.forall_mem_singleton.mpr (writesWithin_of_not hn)
  cases vars with
  | member =>
    obtain ⟨hvalue, hmember⟩ := (execute_keeps (stable_value n w.memberVariables[n]?) ctx fuel stmt
      hwrites).returns w _ w' rfl ho
    cases hmember
    exact hvalue
  | own env =>
    obtain ⟨_, env', hown, hvalue⟩ := (execute_own (stable_value n env[n]?) ctx
      (Interpreter.handlers ctx fuel) stmt ⟨env, rfl, rfl⟩ hwrites).returns w _ w' trivial ho
    cases hown
    exact hvalue

theorem read_of_evaluate {vars : Variables} {e : Expr} {value : RuntimeValue} {w u : World S}
    (h : (evaluate ctx (Interpreter.handlers ctx fuel) vars e w).outcome = .ok value u) :
    vars.read u = vars.read w :=
  vars.read_congr ((Restoration.evaluate_restores ctx fuel vars e).ok w value u h)

mutual

theorem execute_frame : ∀ (stmt : Stmt) {vars vars' : Variables} {flow : ControlFlow}
    {w w' : World S},
    (∀ s, Passes ctx (Interpreter.handlers ctx fuel) s vars w stmt → ¬Writes n s) →
    (execute ctx (Interpreter.handlers ctx fuel) vars stmt w).outcome = .ok (flow, vars') w' →
    (vars'.read w')[n]? = (vars.read w)[n]?
  | .varDecl stmt, _, _, _, _, _, hn, ho => simple_frame ctx fuel rfl (hn _ (.here _ _ rfl)) ho
  | .assign location targets value, _, _, _, _, _, hn, ho =>
    simple_frame ctx fuel rfl (hn _ (.here _ _ rfl)) ho
  | .structFieldAssign location object field value, _, _, _, _, _, hn, ho =>
    simple_frame ctx fuel rfl (hn _ (.here _ _ rfl)) ho
  | .expr location expression, _, _, _, _, _, hn, ho =>
    simple_frame ctx fuel rfl (hn _ (.here _ _ rfl)) ho
  | .ifStmt location condition thenBody elseBody, vars, _, _, w, _, hn, ho => by
    obtain ⟨value, u, hcondition, hbody⟩ := Comp.bind_eq_ok (executeWithContext_ok ctx ho)
    rw [← read_of_evaluate ctx fuel hcondition]
    split at hbody
    · exact executeBlock_frame thenBody (fun s hp => hn s (.thenBranch hcondition hp)) hbody
    · exact executeBlock_frame elseBody (fun s hp => hn s (.elseBranch hcondition hp)) hbody
    · cases hbody
  | .transition location target parameters, _, _, _, _, _, hn, ho =>
    simple_frame ctx fuel rfl (hn _ (.here _ _ rfl)) ho
  | .terminal location, _, _, _, _, _, hn, ho => simple_frame ctx fuel rfl (hn _ (.here _ _ rfl)) ho

/-- A variable that no executed statement writes keeps its value. -/
theorem executeBlock_frame : ∀ (stmts : List Stmt) {vars vars' : Variables} {flow : ControlFlow}
    {w w' : World S},
    (∀ s, PassesBlock ctx (Interpreter.handlers ctx fuel) s vars w stmts → ¬Writes n s) →
    (executeBlock ctx (Interpreter.handlers ctx fuel) vars stmts w).outcome =
      .ok (flow, vars') w' → (vars'.read w')[n]? = (vars.read w)[n]?
  | [], _, _, _, _, _, _, ho => by
    cases ho
    rfl
  | stmt :: stmts, _, _, _, _, _, hn, ho => by
    obtain ⟨⟨flow, middle⟩, u, hfirst, hrest⟩ := Comp.bind_eq_ok ho
    have hframe := execute_frame stmt (fun s hp => hn s (.head hp)) hfirst
    cases flow with
    | none => exact (executeBlock_frame stmts (fun s hp => hn s (.tail hfirst hp)) hrest).trans hframe
    | transition target values =>
      cases hrest
      exact hframe
    | terminal =>
      cases hrest
      exact hframe

end

end Frame

/-! ## Calls -/

/-- The call of a body: an autotuner with a bound on its states, a routine of a module under its
qualified name, or a routine with a body of a struct. -/
inductive Body where
  | autotuner (rounds : Nat) (decl : AutotunerDecl) (inputs : ParameterMap)
  | routine (qname : String) (decl : RoutineDecl) (inputs : ParameterMap)
  | structRoutine (receiver : Nat) (owner : StructDecl)
      (decl : { decl : RoutineDecl // decl.body.isEmpty = false }) (args : List RuntimeValue)

namespace Body

def outputs : Body → List ParamDecl
  | autotuner _ decl _ => decl.outputParams
  | routine _ decl _ => decl.outputParams
  | structRoutine _ _ decl _ => decl.val.outputParams

/-- The names that may have a value which is not one of an output. The outputs of a routine of a
module win over its parameters. -/
def taken : Body → List String
  | autotuner _ decl _ => decl.inputParams.map ParamDecl.name
  | routine _ _ _ => []
  | structRoutine _ owner decl _ =>
    "this" :: (owner.fields.map VarDeclStmt.name ++ decl.val.inputParams.map ParamDecl.name)

def call (ctx : Context S) (fuel : Nat) : Body → M S FunctionResult
  | autotuner rounds decl inputs =>
    Interpreter.run ctx (Interpreter.handlers ctx fuel) rounds decl inputs
  | routine qname decl inputs =>
    Interpreter.runInlineRoutine ctx (Interpreter.handlers ctx fuel) qname decl inputs
  | structRoutine receiver owner decl args =>
    StructRoutine.execStructRoutine ctx (Interpreter.handlers ctx fuel) receiver owner decl.val args

/-- The map on which the body of a routine starts. -/
def routineStart (decl : RoutineDecl) (inputs : ParameterMap) : ParameterMap :=
  Interpreter.routineOutputs decl.outputParams (Interpreter.routineInputs inputs decl.inputParams ∅)

/-- The execution of the body comes to its end. -/
def Completes (ctx : Context S) (fuel : Nat) (w : World S) : Body → Prop
  | autotuner rounds decl inputs => ∃ args v v',
      (Interpreter.prepare ctx (Interpreter.handlers ctx fuel) decl inputs (cleared w)).outcome =
        .ok args v ∧
      (Interpreter.stateLoop ctx (Interpreter.handlers ctx fuel) decl rounds decl.entryState args
        v).outcome = .ok () v'
  | routine _ decl inputs => ∃ left v,
      (executeBlock ctx (Interpreter.handlers ctx fuel) (.own (routineStart decl inputs)) decl.body
        w).outcome = .ok left v
  | structRoutine receiver owner decl args => ∃ env v left v',
      (StructRoutine.routineEnvironment ctx (Interpreter.handlers ctx fuel) receiver owner decl.val
        args w).outcome = .ok env v ∧
      (executeBlock ctx (Interpreter.handlers ctx fuel) (.own env) decl.val.body v).outcome =
        .ok left v'

/-- The execution of the body assigns the variable nowhere. -/
def NeverAssigns (ctx : Context S) (fuel : Nat) (n : String) (w : World S) : Body → Prop
  | autotuner _ decl inputs =>
    LeavesEach ctx (Interpreter.handlers ctx fuel) n (cleared w) decl.autotunerVariables ∧
    ∀ name args v state bound, Enters ctx fuel decl inputs w name args v →
      Interpreter.findState decl name = some state →
      (Interpreter.bindStateParameters ctx (Interpreter.handlers ctx fuel) state.name
        state.inputParameters args 0 v).outcome = .ok () bound →
      n ∉ state.inputParameters.map ParamDecl.name ∧
        Leaves ctx (Interpreter.handlers ctx fuel) n .member bound state.body
  | routine _ decl inputs =>
    Leaves ctx (Interpreter.handlers ctx fuel) n (.own (routineStart decl inputs)) w decl.body
  | structRoutine receiver owner decl args => ∀ env v,
      (StructRoutine.routineEnvironment ctx (Interpreter.handlers ctx fuel) receiver owner decl.val
        args w).outcome = .ok env v →
      Leaves ctx (Interpreter.handlers ctx fuel) n (.own env) v decl.val.body

/-- An output of a primitive type, without a default, whose name is its own. -/
structure Plain (body : Body) (i : Nat) (out : ParamDecl) : Prop where
  position : body.outputs[i]? = some out
  alone : ∀ (j : Nat) (other : ParamDecl), body.outputs[j]? = some other →
    other.name = out.name → j = i
  primitive : out.type.baseType ∈ [ParamType.int, .float, .bool, .string]
  noDefault : out.defaultValue = none
  untaken : out.name ∉ body.taken

theorem Plain.not_isStruct {body : Body} {i : Nat} {out : ParamDecl} (h : body.Plain i out) :
    out.type.isStruct = false := by
  have hp := h.primitive
  unfold TypeDescriptor.isStruct
  revert hp
  cases out.type.baseType <;> decide

end Body

theorem unset_eq_primitiveDefault_iff {t : ParamType}
    (h : t ∈ [ParamType.int, .float, .bool, .string]) :
    RuntimeValue.unset = primitiveDefault t ↔ t = .int := by
  revert h
  cases t <;> decide

/-! ## Routines of a module -/

theorem getElem?_routineOutputs {outs : List ParamDecl} {i : Nat} {out : ParamDecl}
    (hi : outs[i]? = some out)
    (ha : ∀ (j : Nat) (other : ParamDecl), outs[j]? = some other → other.name = out.name → j = i)
    (env : ParameterMap) :
    (Interpreter.routineOutputs outs env)[out.name]? =
      some (primitiveDefault out.type.baseType) := by
  obtain ⟨value, hlast⟩ := StdMap.exists_lastWrite (List.mem_map_of_mem
    (f := fun out => (out.name, primitiveDefault out.type.baseType)) (List.mem_of_getElem? hi))
  obtain ⟨other, hother, he⟩ := List.mem_map.mp (StdMap.mem_of_lastWrite hlast)
  obtain ⟨hname, hvalue⟩ := Prod.mk.inj he
  obtain ⟨j, hj⟩ := List.getElem?_of_mem hother
  obtain rfl := ha j other hj hname
  obtain rfl := Option.some.inj (hj.symm.trans hi)
  unfold Interpreter.routineOutputs
  rw [StdMap.getElem?_assignAll, hlast, hvalue]
  rfl

theorem collectRoutineOutputs_ok (qname : String) {env : ParameterMap} (outs : List ParamDecl)
    (h : ∀ out ∈ outs, Bound env out.name) (w : World S) :
    ∃ values, (Interpreter.collectRoutineOutputs qname env outs w).outcome = .ok values w ∧
      ∀ (i : Nat) (out : ParamDecl), outs[i]? = some out → values[i]? = env[out.name]? := by
  induction outs with
  | nil => exact ⟨[], rfl, fun i out hi => nomatch hi⟩
  | cons first outs ih =>
    obtain ⟨hfirst, hrest⟩ := List.forall_mem_cons.mp h
    obtain ⟨value, hvalue⟩ := Option.isSome_iff_exists.mp hfirst
    obtain ⟨values, hvalues, hall⟩ := ih hrest
    refine ⟨value :: values, ?_, fun i out hi => ?_⟩
    · unfold Interpreter.collectRoutineOutputs
      rw [hvalue]
      exact Comp.bind_of_ok hvalues
    · cases i with
      | zero =>
        cases hi
        exact hvalue.symm
      | succ i => exact hall i out hi

theorem extractOutputs_values (outs : List ParamDecl) {w : World S}
    (h : ∀ out ∈ outs, Bound w.memberVariables out.name) :
    ∃ values, (Interpreter.extractOutputs outs w).outcome = .ok values w ∧
      ∀ (i : Nat) (out : ParamDecl), outs[i]? = some out →
        values[i]? = w.memberVariables[out.name]? := by
  induction outs with
  | nil => exact ⟨[], rfl, fun i out hi => nomatch hi⟩
  | cons first outs ih =>
    obtain ⟨hfirst, hrest⟩ := List.forall_mem_cons.mp h
    obtain ⟨value, hvalue⟩ := Option.isSome_iff_exists.mp hfirst
    obtain ⟨values, hvalues, hall⟩ := ih hrest
    refine ⟨value :: values, ?_, fun i out hi => ?_⟩
    · unfold Interpreter.extractOutputs Interpreter.getVariables
      rw [Comp.outcome_gets_bind, hvalue]
      exact Comp.bind_of_ok hvalues
    · cases i with
      | zero =>
        cases hi
        exact hvalue.symm
      | succ i => exact hall i out hi

section Calls

variable (ctx : Context S) (fuel : Nat) {w : World S} {i : Nat} {out : ParamDecl}

theorem executeBlock_ownMap {stmts : List Stmt} {env : ParameterMap} {flow : ControlFlow}
    {vars : Variables} {w' : World S} {n : String}
    (ho : (executeBlock ctx (Interpreter.handlers ctx fuel) (.own env) stmts w).outcome =
      .ok (flow, vars) w')
    (hn : Leaves ctx (Interpreter.handlers ctx fuel) n (.own env) w stmts) :
    (StructRoutine.ownMap vars env)[n]? = env[n]? ∧
      ∀ m, Bound env m → Bound (StructRoutine.ownMap vars env) m := by
  have hframe := executeBlock_frame ctx fuel stmts hn ho
  have hbound (m : String) (hm : Bound env m) : Own (Bound · m) vars :=
    ((executeBlock_own (stable_bound m (fun _ => True) fun _ => True) ctx
      (Interpreter.handlers ctx fuel) stmts ⟨env, rfl, hm⟩ fun s _ => writesWithin_all s).returns
        w _ w' trivial ho).2
  obtain ⟨_, left, rfl, -⟩ := (executeBlock_own (stable_within fun _ => True) ctx
    (Interpreter.handlers ctx fuel) stmts ⟨env, rfl, fun _ _ => trivial⟩ fun s _ =>
      writesWithin_all s).returns w _ w' trivial ho
  refine ⟨hframe, fun m hm => ?_⟩
  obtain ⟨_, hleft, hkept⟩ := hbound m hm
  cases hleft
  exact hkept

/-- A routine of a module yields the default of the type. -/
theorem routine_unassigned {qname : String} {decl : RoutineDecl} {inputs : ParameterMap}
    (hp : (Body.routine qname decl inputs).Plain i out)
    (hc : (Body.routine qname decl inputs).Completes ctx fuel w)
    (hn : (Body.routine qname decl inputs).NeverAssigns ctx fuel out.name w) :
    ∃ values w', ((Body.routine qname decl inputs).call ctx fuel w).outcome = .ok values w' ∧
      values[i]? = some (primitiveDefault out.type.baseType) := by
  obtain ⟨⟨flow, vars⟩, v, ho⟩ := hc
  obtain ⟨hsame, hkept⟩ := executeBlock_ownMap ctx fuel ho hn
  have hstart : ∀ other ∈ decl.outputParams, Bound (Body.routineStart decl inputs) other.name := by
    intro other hother
    obtain ⟨value, hlast⟩ := StdMap.exists_lastWrite (List.mem_map_of_mem
      (f := fun out => (out.name, primitiveDefault out.type.baseType)) hother)
    unfold Bound Body.routineStart Interpreter.routineOutputs
    rw [StdMap.getElem?_assignAll, hlast]
    rfl
  obtain ⟨values, hvalues, hall⟩ := collectRoutineOutputs_ok qname decl.outputParams
    (fun other hother => hkept _ (hstart other hother)) v
  refine ⟨values, v, (Comp.bind_of_ok ho).trans hvalues, ?_⟩
  rw [hall i out hp.position, hsame]
  exact getElem?_routineOutputs hp.position hp.alone _

/-! ## Autotuners -/

theorem execute_member {stmt : Stmt} {flow : ControlFlow} {vars : Variables} {w' : World S}
    (ho : (execute ctx (Interpreter.handlers ctx fuel) .member stmt w).outcome =
      .ok (flow, vars) w') : vars = .member :=
  ((execute_keeps (stable_within fun _ => True) ctx fuel stmt fun s _ => writesWithin_all s).returns
    w _ w' (fun _ _ => trivial) ho).2

theorem initializeVariables_frame {n : String} (stmts : List Stmt) {w w' : World S} {u : Unit}
    (hn : LeavesEach ctx (Interpreter.handlers ctx fuel) n w stmts)
    (ho : (Interpreter.initializeVariables ctx (Interpreter.handlers ctx fuel) stmts w).outcome =
      .ok u w') : w'.memberVariables[n]? = w.memberVariables[n]? := by
  induction stmts generalizing w with
  | nil =>
    cases ho
    rfl
  | cons stmt stmts ih =>
    obtain ⟨⟨flow, vars⟩, t, hfirst, hrest⟩ := Comp.bind_eq_ok ho
    have hframe := execute_frame ctx fuel stmt (fun s hp => hn s (.head hp)) hfirst
    obtain rfl := execute_member ctx fuel hfirst
    exact (ih (fun s hp => hn s (.tail hfirst hp)) hrest).trans hframe

/-- An output that is not bound yet, and has no default, starts as the value of an empty
variant. -/
theorem initialiseOutputs_unset (outs : List ParamDecl) {w w' : World S} {u : Unit}
    (hm : out ∈ outs) (ha : ∀ other ∈ outs, other.name = out.name → other = out)
    (hd : out.defaultValue = none) (hw : w.memberVariables[out.name]? = none)
    (ho : (Interpreter.initialiseOutputs ctx (Interpreter.handlers ctx fuel) outs w).outcome =
      .ok u w') : w'.memberVariables[out.name]? = some RuntimeValue.unset := by
  induction outs generalizing w with
  | nil => exact absurd hm List.not_mem_nil
  | cons first outs ih =>
    obtain ⟨_, t, hfirst, hrest⟩ := Comp.bind_eq_ok ho
    obtain ⟨hsame, hothers⟩ := List.forall_mem_cons.mp ha
    by_cases hname : first.name = out.name
    · obtain rfl := hsame hname
      have hset : t.memberVariables[first.name]? = some RuntimeValue.unset := by
        unfold Interpreter.initialiseOutput at hfirst
        rw [Interpreter.getVariables, Comp.outcome_gets_bind, hw] at hfirst
        unfold Interpreter.initialOutput at hfirst
        rw [hd] at hfirst
        obtain ⟨value, t', hvalue, hset⟩ := Comp.bind_eq_ok hfirst
        cases hvalue
        rw [setVariable_ok hset, StdMap.getElem?_assign_self]
      exact ((ReadOnlyInputs.initialiseOutputs_value ctx fuel outs first.name _).returns t u w' hset
        hrest).1
    · have hkept := (initialiseOutput_keeps (P := fun map => map[out.name]? = none) ctx fuel
        fun map value hm => (StdMap.getElem?_assign_ne map value hname).trans hm).returns
          w _ t hw hfirst
      exact ih ((List.mem_cons.mp hm).resolve_left fun he => hname (congrArg _ he.symm)) hothers
        hkept.1 hrest

section Autotuner

variable {ctx fuel} {rounds : Nat} {decl : AutotunerDecl} {inputs : ParameterMap}
  (hp : (Body.autotuner rounds decl inputs).Plain i out)
  (hn : (Body.autotuner rounds decl inputs).NeverAssigns ctx fuel out.name w)
include hp hn

theorem prepare_unset {args : List RuntimeValue} {v : World S}
    (ho : (Interpreter.prepare ctx (Interpreter.handlers ctx fuel) decl inputs (cleared w)).outcome =
      .ok args v) : v.memberVariables[out.name]? = some RuntimeValue.unset := by
  obtain ⟨_, t₁, hvars, ho⟩ := Comp.bind_eq_ok ho
  obtain ⟨_, t₂, hinputs, ho⟩ := Comp.bind_eq_ok ho
  obtain ⟨_, t₃, houts, hargs⟩ := Comp.bind_eq_ok ho
  have h₁ : t₁.memberVariables[out.name]? = none :=
    (initializeVariables_frame ctx fuel _ hn.1 hvars).trans Std.ExtTreeMap.getElem?_empty
  have h₂ := (setInputParameters_keeps (P := fun map => map[out.name]? = none) ctx fuel inputs
    decl.inputParams fun param hparam map value hm =>
      (StdMap.getElem?_assign_ne map value fun he =>
        hp.untaken (List.mem_map.mpr ⟨param, hparam, he⟩)).trans hm).returns t₁ _ t₂ h₁ hinputs
  have halone : ∀ other ∈ decl.outputParams, other.name = out.name → other = out := by
    intro other hother hname
    obtain ⟨j, hj⟩ := List.getElem?_of_mem hother
    obtain rfl := hp.alone j other hj hname
    exact Option.some.inj (hj.symm.trans hp.position)
  have h₃ := initialiseOutputs_unset ctx fuel decl.outputParams
    (List.mem_of_getElem? hp.position) halone hp.noDefault h₂.1 houts
  exact ((evaluateList_keeps (P := fun map => map[out.name]? = some RuntimeValue.unset) ctx fuel
    decl.entryParameters).returns t₃ args v h₃ hargs).1

omit hp in
theorem executeState_leaves {name : String} {args : List RuntimeValue} {v v' : World S}
    {state : StateDecl} {flow : ControlFlow}
    (he : Enters ctx fuel decl inputs w name args v)
    (hs : Interpreter.findState decl name = some state)
    (hv : v.memberVariables[out.name]? = some RuntimeValue.unset)
    (ho : (Interpreter.executeState ctx (Interpreter.handlers ctx fuel) state args v).outcome =
      .ok flow v') : v'.memberVariables[out.name]? = some RuntimeValue.unset := by
  obtain ⟨bound, left, hbind, hbody, rfl⟩ := executeState_ok ctx fuel ho
  obtain ⟨hparams, hleaves⟩ := hn.2 name args v state bound he hs hbind
  have hbound := (bindStateParameters_keeps
    (P := fun map => map[out.name]? = some RuntimeValue.unset) ctx fuel state.name
    state.inputParameters args 0 fun param hparam map value hm =>
      (StdMap.getElem?_assign_ne map value fun heq =>
        hparams (List.mem_map.mpr ⟨param, hparam, heq⟩)).trans hm).returns v _ bound hv hbind
  have hmem : out.name ∈ v.memberVariables.keyList := by
    rw [StdMap.mem_keyList, hv]
    rfl
  change (left.memberVariables.restrict v.memberVariables.keyList)[out.name]? = _
  rw [StdMap.getElem?_restrict, if_pos hmem]
  exact (executeBlock_frame ctx fuel state.body hleaves hbody).trans hbound.1

theorem unset_of_enters {name : String} {args : List RuntimeValue} {v : World S}
    (he : Enters ctx fuel decl inputs w name args v) :
    v.memberVariables[out.name]? = some RuntimeValue.unset := by
  induction he with
  | start ho => exact prepare_unset hp hn ho
  | transition he hs ho ih => exact executeState_leaves hn he hs ih ho

/-- An autotuner yields the integer zero, whatever the type is. -/
theorem autotuner_unassigned (hc : (Body.autotuner rounds decl inputs).Completes ctx fuel w) :
    ∃ values w', ((Body.autotuner rounds decl inputs).call ctx fuel w).outcome = .ok values w' ∧
      values[i]? = some RuntimeValue.unset := by
  obtain ⟨args, v, v', hprepare, hloop⟩ := hc
  obtain ⟨name, args', u, state, he, hs, hlast⟩ := stateLoop_ok (.start hprepare) hloop
  have hunset := executeState_leaves hn he hs (unset_of_enters hp hn he) hlast
  have hbound : ∀ other ∈ decl.outputParams, Bound v'.memberVariables other.name := fun other ho =>
    (executeState_names ctx fuel hlast other.name).mpr ((he.names hprepare other.name).mpr
      ((prepare_established ctx fuel hprepare).outputs other ho))
  obtain ⟨values, hvalues, hall⟩ := extractOutputs_values decl.outputParams hbound
  refine ⟨values, _, Comp.tryCatch_of_ok (Comp.bind_of_ok
    ((Comp.bind_of_ok hprepare).trans ((Comp.bind_of_ok hloop).trans hvalues))), ?_⟩
  rw [hall i out hp.position, hunset]

end Autotuner

/-! ## Routines of a struct -/

theorem flattenFields_other {receiver : Nat} {n : String} {fields : List VarDeclStmt}
    {env env' : ParameterMap} {w w' : World S} (hn : n ∉ fields.map VarDeclStmt.name)
    (ho : (StructRoutine.flattenFields ctx (Interpreter.handlers ctx fuel) receiver fields env
      w).outcome = .ok env' w') : env'[n]? = env[n]? := by
  induction fields generalizing env w with
  | nil =>
    cases ho
    rfl
  | cons field fields ih =>
    obtain ⟨hfirst, hrest⟩ := not_or.mp (mt List.mem_cons.mpr hn)
    obtain ⟨value, t, _, ho⟩ := Comp.bind_eq_ok ho
    exact (ih hrest ho).trans (StdMap.getElem?_assign_ne env value (Ne.symm hfirst))

/-- An output that is no struct and has no default is not bound before the body. -/
theorem initialiseOutputs_skips {outs : List ParamDecl} {n : String} {env env' : ParameterMap}
    {w w' : World S} (hs : ∀ other ∈ outs, other.name = n →
      other.type.isStruct = false ∧ other.defaultValue = none)
    (ho : (StructRoutine.initialiseOutputs ctx (Interpreter.handlers ctx fuel) outs env w).outcome =
      .ok env' w') : env'[n]? = env[n]? := by
  induction outs generalizing env w with
  | nil =>
    cases ho
    rfl
  | cons first outs ih =>
    obtain ⟨hfirst, hrest⟩ := List.forall_mem_cons.mp hs
    by_cases hname : first.name = n
    · obtain ⟨hstruct, hdefault⟩ := hfirst hname
      simp only [StructRoutine.initialiseOutputs, hstruct, hdefault] at ho
      exact ih hrest ho
    · have hassign (value : RuntimeValue) : (env.assign first.name value)[n]? = env[n]? :=
        StdMap.getElem?_assign_ne env value hname
      by_cases hstruct : first.type.isStruct
      · simp only [StructRoutine.initialiseOutputs, hstruct, if_true] at ho
        obtain ⟨value, t, _, ho⟩ := Comp.bind_eq_ok ho
        exact (ih hrest ho).trans (hassign value)
      · cases hdefault : first.defaultValue with
        | none =>
          simp only [StructRoutine.initialiseOutputs, hstruct, hdefault] at ho
          exact ih hrest ho
        | some default =>
          simp only [StructRoutine.initialiseOutputs, hstruct, hdefault] at ho
          obtain ⟨value, t, _, ho⟩ := Comp.bind_eq_ok ho
          exact (ih hrest ho).trans (hassign value)

omit ctx fuel in
theorem syncFromReceiver_other (receiver : Nat) {n : String} {fields : List VarDeclStmt}
    (hn : n ∉ fields.map VarDeclStmt.name) (env : ParameterMap) (w : World S) :
    ∃ env', (StructRoutine.syncFromReceiver receiver fields env w).outcome = .ok env' w ∧
      env'[n]? = env[n]? := by
  induction fields generalizing env with
  | nil => exact ⟨env, rfl, rfl⟩
  | cons field fields ih =>
    obtain ⟨hfirst, hrest⟩ := not_or.mp (mt List.mem_cons.mpr hn)
    unfold StructRoutine.syncFromReceiver StructRoutine.fieldOf
    rw [Comp.outcome_gets_bind]
    cases w.heap.field? receiver field.name with
    | none => exact ih hrest env
    | some value =>
      obtain ⟨env', ho, hvalue⟩ := ih hrest (env.assign field.name value)
      exact ⟨env', ho, hvalue.trans (StdMap.getElem?_assign_ne env value (Ne.symm hfirst))⟩

omit ctx fuel in
theorem writeBack_ok (receiver : Nat) (env : ParameterMap) (fields : List VarDeclStmt)
    (w : World S) :
    ∃ w', (StructRoutine.writeBack receiver env fields w).outcome = .ok () w' := by
  induction fields generalizing w with
  | nil => exact ⟨w, rfl⟩
  | cons field fields ih =>
    unfold StructRoutine.writeBack
    cases env[field.name]? with
    | none => exact ih w
    | some value => exact ih _

omit ctx fuel in
theorem collectOutputs_throws (name : String) {env : ParameterMap} {outs : List ParamDecl}
    (hm : out ∈ outs) (hn : env[out.name]? = none) (w : World S) :
    ∃ missing ∈ outs, (StructRoutine.collectOutputs name env outs w).outcome =
      .throw (.evaluation ("Struct routine '" ++ name ++ "' did not set output: " ++
        missing.name)) w := by
  induction outs with
  | nil => exact absurd hm List.not_mem_nil
  | cons first outs ih =>
    unfold StructRoutine.collectOutputs
    cases hfirst : env[first.name]? with
    | none => exact ⟨first, List.mem_cons_self, rfl⟩
    | some value =>
      have hrest : out ∈ outs := by
        refine (List.mem_cons.mp hm).resolve_left fun he => ?_
        rw [he, hfirst] at hn
        cases hn
      obtain ⟨missing, hmissing, ho⟩ := ih hrest
      exact ⟨missing, List.mem_cons_of_mem _ hmissing, Comp.bind_of_throw ho⟩

/-- A routine of a struct raises. -/
theorem structRoutine_unassigned {receiver : Nat} {owner : StructDecl}
    {decl : { decl : RoutineDecl // decl.body.isEmpty = false }} {args : List RuntimeValue}
    (hp : (Body.structRoutine receiver owner decl args).Plain i out)
    (hc : (Body.structRoutine receiver owner decl args).Completes ctx fuel w)
    (hn : (Body.structRoutine receiver owner decl args).NeverAssigns ctx fuel out.name w) :
    ∃ missing ∈ decl.val.outputParams, ∃ w',
      ((Body.structRoutine receiver owner decl args).call ctx fuel w).outcome =
        .throw (.evaluation ("Struct routine '" ++ decl.val.name ++ "' did not set output: " ++
          missing.name)) w' := by
  obtain ⟨env, v, ⟨flow, vars⟩, v', henv, hbody⟩ := hc
  obtain ⟨hthis, hnames⟩ := not_or.mp (mt List.mem_cons.mpr hp.untaken)
  obtain ⟨hfields, hinputs⟩ := not_or.mp (mt List.mem_append.mpr hnames)
  have hunset : env[out.name]? = none := by
    obtain ⟨fields, t, hflat, henv⟩ := Comp.bind_eq_ok henv
    obtain ⟨bound, t', hbound, houts⟩ := Comp.bind_eq_ok henv
    rw [initialiseOutputs_skips ctx fuel ?_ houts, ReadOnlyInputs.bindInputs_other hinputs hbound,
      flattenFields_other ctx fuel hfields hflat, StdMap.getElem?_assign_ne _ _ (Ne.symm hthis)]
    · exact Std.ExtTreeMap.getElem?_empty
    · intro other hother hname
      obtain ⟨j, hj⟩ := List.getElem?_of_mem hother
      obtain rfl := hp.alone j other hj hname
      obtain rfl := Option.some.inj (hj.symm.trans hp.position)
      exact ⟨hp.not_isStruct, hp.noDefault⟩
  obtain ⟨hsame, -⟩ := executeBlock_ownMap ctx fuel hbody (hn env v henv)
  obtain ⟨synced, hsync, hkept⟩ := syncFromReceiver_other receiver hfields
    (StructRoutine.ownMap vars env) v'
  obtain ⟨v'', hback⟩ := writeBack_ok receiver synced owner.fields v'
  obtain ⟨missing, hmissing, hthrow⟩ := collectOutputs_throws decl.val.name
    (List.mem_of_getElem? hp.position) (hkept.trans (hsame.trans hunset)) v''
  refine ⟨missing, hmissing, v'', ?_⟩
  change (StructRoutine.execStructRoutine _ _ _ _ _ _ w).outcome = _
  unfold StructRoutine.execStructRoutine
  rw [decl.property, if_neg Bool.false_ne_true]
  refine (Comp.bind_of_ok henv).trans ((Comp.bind_of_ok hbody).trans ?_)
  exact (Comp.bind_of_ok hsync).trans ((Comp.bind_of_ok hback).trans hthrow)

end Calls

/-! ## The three ways together -/

/-- How a call ends on an output that its body left alone. -/
def Body.EndsUnassigned (body : Body) (i : Nat) (out : ParamDecl)
    (o : Outcome Exception (World S) FunctionResult) : Prop :=
  match body with
  | autotuner _ _ _ => (∃ values w', o = .ok values w' ∧ values[i]? = some RuntimeValue.unset) ∧
      (RuntimeValue.unset = primitiveDefault out.type.baseType ↔ out.type.baseType = .int)
  | routine _ _ _ => ∃ values w', o = .ok values w' ∧
      values[i]? = some (primitiveDefault out.type.baseType)
  | structRoutine _ _ decl _ => ∃ missing ∈ decl.val.outputParams, ∃ w',
      o = .throw (.evaluation ("Struct routine '" ++ decl.val.name ++ "' did not set output: " ++
        missing.name)) w'

theorem endsUnassigned (body : Body) (ctx : Context S) (fuel : Nat) (w : World S) (i : Nat)
    (out : ParamDecl) (hp : body.Plain i out) (hc : body.Completes ctx fuel w)
    (hn : body.NeverAssigns ctx fuel out.name w) :
    body.EndsUnassigned i out (body.call ctx fuel w).outcome := by
  cases body with
  | autotuner rounds decl inputs =>
    exact ⟨autotuner_unassigned hp hn hc, unset_eq_primitiveDefault_iff hp.primitive⟩
  | routine qname decl inputs => exact routine_unassigned ctx fuel hp hc hn
  | structRoutine receiver owner decl args => exact structRoutine_unassigned ctx fuel hp hc hn

/-- A flag that the body sets on a path which it does not take. -/
def flag : ParamDecl := { type := .ofParamType .bool, name := "flag" }

def untaken : Stmt :=
  .ifStmt {} (.literal {} (.bool false)) [.assign {} [{ variableName := "flag" }] (.literal {} (.bool true))] []

theorem leaves_untaken (ctx : Context Unit) (h : Handlers Unit) (vars : Variables)
    (w : World Unit) : Leaves ctx h "flag" vars w [untaken] := by
  intro s hp
  cases hp with
  | head hp =>
    cases hp with
    | here _ _ hs => cases hs
    | thenBranch hc _ => cases hc
    | elseBranch _ hb => cases hb
  | tail _ hp => cases hp

def flagRoutine : RoutineDecl where
  name := "Check"
  inputParams := []
  outputParams := [flag]
  body := [untaken]

def flagAutotuner : AutotunerDecl where
  name := "Check"
  inputParams := []
  outputParams := [flag]
  autotunerVariables := []
  entryState := "s"
  entryParameters := []
  states := [{
    name := "s"
    inputParameters := []
    body := [.terminal {}] }]

def checker : StructDecl where
  name := "Checker"
  fields := []
  routines := [flagRoutine]

/-- A world with one instance of the struct. -/
def oneChecker : World Unit where
  heap := { structs := [{ typeName := "Checker" }] }
  store := ()

/-- The call yields the default of the type for an output that its body leaves alone. -/
def Body.YieldsDefault (body : Body) (ctx : Context S) (fuel : Nat) (w : World S) (i : Nat)
    (out : ParamDecl) : Prop :=
  body.Plain i out → body.Completes ctx fuel w → body.NeverAssigns ctx fuel out.name w →
    ∃ values w', (body.call ctx fuel w).outcome = .ok values w' ∧
      values[i]? = some (primitiveDefault out.type.baseType)

theorem plain_flag {body : Body} (ho : body.outputs = [flag]) (hn : "flag" ∉ body.taken) :
    body.Plain 0 flag := by
  refine ⟨ho ▸ rfl, fun j other hj _ => ?_, by decide, rfl, hn⟩
  rw [ho] at hj
  cases j with
  | zero => rfl
  | succ j => cases hj

theorem neverAssigns_flagAutotuner (ctx : Context Unit) (fuel rounds : Nat) (w : World Unit) :
    (Body.autotuner rounds flagAutotuner ∅).NeverAssigns ctx fuel "flag" w := by
  refine ⟨fun s hp => (nomatch hp), fun name args v state bound _ hs _ => ?_⟩
  obtain rfl := List.mem_singleton.mp (List.mem_of_find?_eq_some hs)
  refine ⟨List.not_mem_nil, leaves_of_text ?_ _ _⟩
  exact List.forall_mem_singleton.mpr (Or.rec id (Or.rec id id))

theorem endsUnassigned_flag :
    (Body.routine "Check" flagRoutine ∅).EndsUnassigned 0 flag
      ((Body.routine "Check" flagRoutine ∅).call { host := Host.unlinked } 1
        ({ store := () } : World Unit)).outcome :=
  endsUnassigned _ _ _ _ _ _ (plain_flag rfl List.not_mem_nil) ⟨_, _, rfl⟩
    (leaves_untaken _ _ _ _)

theorem not_yieldsDefault_flag :
    ¬(Body.structRoutine 0 checker ⟨flagRoutine, rfl⟩ []).YieldsDefault
        { host := Host.unlinked } 1 oneChecker 0 flag ∧
      ¬(Body.autotuner 1 flagAutotuner ∅).YieldsDefault { host := Host.unlinked } 1
        ({ store := () } : World Unit) 0 flag := by
  constructor
  · intro h
    obtain ⟨values, w', ho, -⟩ := h (plain_flag rfl (by decide)) ⟨_, _, _, _, rfl, rfl⟩
      fun _ _ _ => leaves_untaken _ _ _ _
    cases ho
  · intro h
    obtain ⟨values, w', ho, hv⟩ := h (plain_flag rfl List.not_mem_nil) ⟨_, _, _, rfl, rfl⟩
      (neverAssigns_flagAutotuner _ _ _ _)
    have hrun : ((Body.autotuner 1 flagAutotuner ∅).call { host := Host.unlinked } 1
        ({ store := () } : World Unit)).outcome.value? = some [.int 0] := by decide +kernel
    rw [ho] at hrun
    cases hrun
    cases hv

end FalconLib.Dsl.UnassignedOutputs
