import FalconLib.Dsl.Interpreter
import FalconLib.Dsl.VariableFrame

/-!
# Bodies that run to their end

A block stops at the first statement that changes the control flow, and the callers of a routine
body do not look at the control flow. A body without such statements runs through: whatever stands
outside of the branches not taken is executed.
-/

namespace FalconLib.Dsl.CompleteRuns

open FalconLib.Base (Comp)
open ExprEvaluator (evaluate)
open Interpreter (collectRoutineOutputs routineInputs routineOutputs runInlineRoutine)
open StmtExecutor (execute executeBlock)
open StructRoutine (execStructRoutine finish ownMap routineEnvironment)
open VariableFrame (blockStmts simpleStmts)

variable {S : Type}

/-! ## Statements that change the control flow -/

def isJump : Stmt → Bool
  | .transition _ _ _ | .terminal _ => true
  | _ => false

/-- One of the statements, at any depth, is a transition or `terminal`. -/
def jumps (body : List Stmt) : Bool := (blockStmts body).any isJump

theorem jumps_cons (stmt : Stmt) (stmts : List Stmt) :
    jumps (stmt :: stmts) = ((simpleStmts stmt).any isJump || jumps stmts) := List.any_append

theorem any_simpleStmts_ifStmt (location : Location) (condition : Expr)
    (thenBody elseBody : List Stmt) :
    (simpleStmts (.ifStmt location condition thenBody elseBody)).any isJump =
      (jumps thenBody || jumps elseBody) := List.any_append

mutual

theorem any_simpleStmts_clone : ∀ stmt : Stmt,
    (simpleStmts stmt.clone).any isJump = (simpleStmts stmt).any isJump
  | .varDecl _ => rfl
  | .assign _ _ _ => rfl
  | .structFieldAssign _ _ _ _ => rfl
  | .expr _ _ => rfl
  | .ifStmt _ _ thenBody elseBody => by
    unfold Stmt.clone
    rw [any_simpleStmts_ifStmt, any_simpleStmts_ifStmt, jumps_cloneList thenBody,
      jumps_cloneList elseBody]
  | .transition _ _ _ => rfl
  | .terminal _ => rfl

theorem jumps_cloneList : ∀ body : List Stmt, jumps (Stmt.cloneList body) = jumps body
  | [] => rfl
  | stmt :: stmts => by
    unfold Stmt.cloneList
    rw [jumps_cons, jumps_cons, any_simpleStmts_clone stmt, jumps_cloneList stmts]

end

/-! ## Running through -/

mutual

/-- The statement is executed, and with an `if` the branch that is taken. -/
inductive Performed (ctx : Context S) (h : Handlers S) :
    Stmt → Variables → World S → Variables → World S → Prop
  | simple {stmt : Stmt} {vars vars' : Variables} {w w' : World S} {flow : ControlFlow}
      (hs : ∀ location condition thenBody elseBody,
        stmt ≠ .ifStmt location condition thenBody elseBody)
      (ho : (execute ctx h vars stmt w).outcome = .ok (flow, vars') w') :
      Performed ctx h stmt vars w vars' w'
  | branch {location : Location} {condition : Expr} {thenBody elseBody : List Stmt}
      {vars vars' : Variables} {w w₁ w' : World S} {taken : Bool}
      (hc : (evaluate ctx h vars condition w).outcome = .ok (.bool taken) w₁)
      (hb : RunsThrough ctx h (if taken then thenBody else elseBody) vars w₁ vars' w') :
      Performed ctx h (.ifStmt location condition thenBody elseBody) vars w vars' w'

/-- The statements are executed one after the other, up to the last. -/
inductive RunsThrough (ctx : Context S) (h : Handlers S) :
    List Stmt → Variables → World S → Variables → World S → Prop
  | nil {vars : Variables} {w : World S} : RunsThrough ctx h [] vars w vars w
  | cons {stmt : Stmt} {stmts : List Stmt} {vars vars₁ vars' : Variables} {w w₁ w' : World S}
      (hs : Performed ctx h stmt vars w vars₁ w₁)
      (hr : RunsThrough ctx h stmts vars₁ w₁ vars' w') :
      RunsThrough ctx h (stmt :: stmts) vars w vars' w'

end

section Blocks

variable {ctx : Context S} {h : Handlers S}

/-- A statement that goes on to the next one changes no control flow. -/
theorem goOn_flow {m : M S Variables} {location : Location} {w w' : World S} {flow : ControlFlow}
    {vars' : Variables}
    (ho : (StmtExecutor.executeWithContext ctx location (StmtExecutor.goOn m) w).outcome =
      .ok (flow, vars') w') : flow = .none := by
  rcases Comp.tryCatch_eq_ok ho with ho | ⟨e, t, -, ho⟩
  · obtain ⟨_, _, _, hpure⟩ := Comp.bind_eq_ok ho
    cases hpure
    rfl
  · cases ho

mutual

theorem performed_of_ok : ∀ (stmt : Stmt) {vars vars' : Variables} {w w' : World S}
    {flow : ControlFlow}, (simpleStmts stmt).any isJump = false →
    (execute ctx h vars stmt w).outcome = .ok (flow, vars') w' →
    flow = .none ∧ Performed ctx h stmt vars w vars' w'
  | .varDecl _, _, _, _, _, _, _, ho => ⟨goOn_flow ho, .simple nofun ho⟩
  | .assign _ _ _, _, _, _, _, _, _, ho => ⟨goOn_flow ho, .simple nofun ho⟩
  | .structFieldAssign _ _ _ _, _, _, _, _, _, _, ho => ⟨goOn_flow ho, .simple nofun ho⟩
  | .expr _ _, _, _, _, _, _, _, ho => by
    refine ⟨?_, .simple nofun ho⟩
    rcases Comp.tryCatch_eq_ok ho with hv | ⟨e, t, -, hv⟩
    · obtain ⟨_, _, _, hpure⟩ := Comp.bind_eq_ok hv
      cases hpure
      rfl
    · cases hv
  | .ifStmt location condition thenBody elseBody, vars, vars', w, w', flow, hj, ho => by
    rw [any_simpleStmts_ifStmt, Bool.or_eq_false_iff] at hj
    rcases Comp.tryCatch_eq_ok ho with hv | ⟨e, t, -, hv⟩
    · obtain ⟨value, w₁, hc, hbranch⟩ := Comp.bind_eq_ok hv
      cases value with
      | bool taken =>
        cases taken with
        | true =>
          obtain ⟨hflow, hb⟩ := runsThrough_of_ok thenBody hj.1 hbranch
          exact ⟨hflow, .branch hc hb⟩
        | false =>
          obtain ⟨hflow, hb⟩ := runsThrough_of_ok elseBody hj.2 hbranch
          exact ⟨hflow, .branch hc hb⟩
      | _ => cases hbranch
    · cases hv
  | .transition _ _ _, _, _, _, _, _, hj, _ => nomatch hj
  | .terminal _, _, _, _, _, _, hj, _ => nomatch hj

/-- A block without jumps that returns has run through. -/
theorem runsThrough_of_ok : ∀ (stmts : List Stmt) {vars vars' : Variables} {w w' : World S}
    {flow : ControlFlow}, jumps stmts = false →
    (executeBlock ctx h vars stmts w).outcome = .ok (flow, vars') w' →
    flow = .none ∧ RunsThrough ctx h stmts vars w vars' w'
  | [], _, _, _, _, _, _, ho => by
    cases ho
    exact ⟨rfl, .nil⟩
  | stmt :: stmts, vars, vars', w, w', flow, hj, ho => by
    rw [jumps_cons, Bool.or_eq_false_iff] at hj
    obtain ⟨⟨first, vars₁⟩, w₁, hfirst, hrest⟩ := Comp.bind_eq_ok ho
    obtain ⟨rfl, hs⟩ := performed_of_ok stmt hj.1 hfirst
    obtain ⟨hflow, hr⟩ := runsThrough_of_ok stmts hj.2 hrest
    exact ⟨hflow, .cons hs hr⟩

end

end Blocks

/-! ## Routines -/

/-- A call of a routine of a struct that returns has run its body through. -/
def StructCallsComplete (routine : RoutineDecl) : Prop :=
  ∀ (S : Type) (ctx : Context S) (h : Handlers S) (receiver : Nat) (decl : StructDecl)
    (callArgs : List RuntimeValue) (w w' : World S) (outputs : FunctionResult),
    routine.body.isEmpty = false →
    (execStructRoutine ctx h receiver decl routine callArgs w).outcome = .ok outputs w' →
    ∃ env w₁ vars w₂,
      (routineEnvironment ctx h receiver decl routine callArgs w).outcome = .ok env w₁ ∧
      RunsThrough ctx h routine.body (.own env) w₁ vars w₂ ∧
      (finish receiver decl routine (ownMap vars env) w₂).outcome = .ok outputs w'

/-- A call of a routine of a module that returns has run its body through. -/
def InlineCallsComplete (routine : RoutineDecl) : Prop :=
  ∀ (S : Type) (ctx : Context S) (h : Handlers S) (qname : String) (inputs : ParameterMap)
    (w w' : World S) (outputs : FunctionResult),
    (runInlineRoutine ctx h qname routine inputs w).outcome = .ok outputs w' →
    ∃ env vars w₁,
      env = routineOutputs routine.outputParams (routineInputs inputs routine.inputParams ∅) ∧
      RunsThrough ctx h routine.body (.own env) w vars w₁ ∧
      (collectRoutineOutputs qname (ownMap vars env) routine.outputParams w₁).outcome =
        .ok outputs w'

/-- Nothing in the body changes the control flow, and no call, of an instance of the struct either,
leaves out a statement. -/
structure RunsToCompletion (routine : RoutineDecl) : Prop where
  noJump : jumps routine.body = false
  inStruct : StructCallsComplete routine
  inInstances : ∀ base monoName subst,
    StructCallsComplete (monomorphizeRoutine base monoName subst routine)
  inModule : InlineCallsComplete routine

theorem structCallsComplete {routine : RoutineDecl} (hj : jumps routine.body = false) :
    StructCallsComplete routine := by
  intro S ctx h receiver decl callArgs w w' outputs hbody ho
  unfold execStructRoutine at ho
  rw [if_neg (Bool.eq_false_iff.mp hbody)] at ho
  obtain ⟨env, w₁, henv, ho⟩ := Comp.bind_eq_ok ho
  obtain ⟨⟨flow, vars⟩, w₂, hblock, hfinish⟩ := Comp.bind_eq_ok ho
  exact ⟨env, w₁, vars, w₂, henv, (runsThrough_of_ok _ hj hblock).2, hfinish⟩

theorem inlineCallsComplete {routine : RoutineDecl} (hj : jumps routine.body = false) :
    InlineCallsComplete routine := by
  intro S ctx h qname inputs w w' outputs ho
  obtain ⟨⟨flow, vars⟩, w₁, hblock, hcollect⟩ := Comp.bind_eq_ok ho
  exact ⟨_, vars, w₁, rfl, (runsThrough_of_ok _ hj hblock).2, hcollect⟩

/-- A routine runs to completion as soon as no statement in it changes the control flow. -/
theorem runsToCompletion_iff (routine : RoutineDecl) :
    RunsToCompletion routine ↔ jumps routine.body = false := by
  refine ⟨RunsToCompletion.noJump, fun hj => ⟨hj, structCallsComplete hj, ?_,
    inlineCallsComplete hj⟩⟩
  intro base monoName subst
  exact structCallsComplete ((jumps_cloneList routine.body).trans hj)

end FalconLib.Dsl.CompleteRuns
