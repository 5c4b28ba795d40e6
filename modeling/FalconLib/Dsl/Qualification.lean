import Mathlib.Data.Finset.Lattice.Lemmas
import Mathlib.Data.Finset.SDiff
import FalconLib.Base.Checked
import FalconLib.Dsl.Coupling
import FalconLib.Dsl.RoutineRuns
import FalconLib.Dsl.StaticDispatch

/-!
# Bare names of fields

In a routine of a struct the bare name of a field is a variable, and `this.field` is the field.
The checked run of a body is its run with a stop where the two differ: at a bare read of a name
whose variable is not what the field is, and at a bare assignment that would have changed the field.
-/

namespace FalconLib.Dsl.Qualification

open FalconLib.Base (Comp StdMap)
open FalconLib.Base.Comp (Stopped Vouches)
open ExprEvaluator
open FieldAssign (assignTargets assignField)

variable {S : Type}

/-! ## The text -/

def throughThis (info : ExprInfo) (name : String) : Expr := .member info (.var {} "this") name

mutual

/-- Bare names of the fields become `this.name`. -/
def qualify (fields : Finset String) : Expr → Expr
  | .literal info value => .literal info value
  | .nilLiteral info => .nilLiteral info
  | .var info name => if name ∈ fields then throughThis info name else .var info name
  | .binary info op left right => .binary info op (qualify fields left) (qualify fields right)
  | .unary info op operand => .unary info op (qualify fields operand)
  | .member info object member => .member info (qualify fields object) member
  | .methodCall info object methodName args =>
    .methodCall info (qualify fields object) methodName (qualifyList fields args)
  | .index info object index => .index info (qualify fields object) (qualify fields index)
  | .call info name arguments => .call info name (qualifyArguments fields arguments)

def qualifyList (fields : Finset String) : List Expr → List Expr
  | [] => []
  | expr :: exprs => qualify fields expr :: qualifyList fields exprs

def qualifyArguments (fields : Finset String) :
    List (Option String × Expr) → List (Option String × Expr)
  | [] => []
  | (name, value) :: arguments => (name, qualify fields value) :: qualifyArguments fields arguments

end

mutual

/-- The variables that a statement declares, in its blocks as well: a routine has one scope. -/
def declared : Stmt → Finset String
  | .varDecl stmt => {stmt.name}
  | .ifStmt _ _ thenBody elseBody => declaredIn thenBody ∪ declaredIn elseBody
  | _ => ∅

def declaredIn : List Stmt → Finset String
  | [] => ∅
  | stmt :: stmts => declared stmt ∪ declaredIn stmts

end

/-- The field that a bare assignment is meant for. -/
def assignedField (fields : Finset String) : List AssignTarget → Option String
  | [target] =>
    if !target.isFieldTarget && target.variableName ∈ fields then some target.variableName
    else none
  | _ => none

mutual

def qualifyStmt (fields : Finset String) : Stmt → Stmt
  | .varDecl stmt => .varDecl { stmt with initializer := stmt.initializer.map (qualify fields) }
  | .assign location targets value =>
    match assignedField fields targets with
    | some name => .structFieldAssign location (.var {} "this") name (qualify fields value)
    | none => .assign location targets (qualify fields value)
  | .structFieldAssign location object field value =>
    .structFieldAssign location object field (qualify fields value)
  | .expr location expression => .expr location (qualify fields expression)
  | .ifStmt location condition thenBody elseBody =>
    .ifStmt location (qualify fields condition) (qualifyBlock fields thenBody)
      (qualifyBlock fields elseBody)
  | .transition location targetState parameters =>
    .transition location targetState (qualifyList fields parameters)
  | .terminal location => .terminal location

/-- A declaration shadows the field of its name in what follows it. -/
def qualifyBlock (fields : Finset String) : List Stmt → List Stmt
  | [] => []
  | stmt :: stmts => qualifyStmt fields stmt :: qualifyBlock (fields \ declared stmt) stmts

end

/-! ## The checked run -/

/-- What `this` has for a field. -/
def current (map : ParameterMap) (heap : Heap) (name : String) : Option RuntimeValue :=
  match map["this"]? with
  | some (.struct id) => heap.field? id name
  | _ => none

/-- A read of the variable, where it is what the field is. -/
def readCopy (vars : Variables) (name : String) : M S RuntimeValue := do
  let map ← Comp.gets vars.read
  let heap ← getHeap
  match map[name]? with
  | some value =>
    if current map heap name = some value then pure value else Comp.halt .undefinedBehaviour
  | none => Comp.halt .undefinedBehaviour

/-- An assignment to the variable, where the field has the value already. -/
def writeCopy (vars : Variables) (name : String) (value : RuntimeValue) : M S Variables := do
  let map ← Comp.gets vars.read
  let heap ← getHeap
  if current map heap name = some value ∧ map[name]?.isSome then
    StmtExecutor.assignVariable vars name value
  else Comp.halt .undefinedBehaviour

section Checked

variable (ctx : Context S) (h : Handlers S)

mutual

def checked (fields : Finset String) (vars : Variables) : Expr → M S RuntimeValue
  | .literal _ value => pure (RuntimeValue.ofLiteral value)
  | .nilLiteral _ => pure .nil
  | .var _ name => if name ∈ fields then readCopy vars name else evalVariable vars name
  | .binary _ op left right => do
    let left ← checked fields vars left
    let right ← checked fields vars right
    let heap ← getHeap
    Comp.ofOutcome (applyBinaryOp heap op left right)
  | .unary _ op operand => do
    let operand ← checked fields vars operand
    Comp.ofOutcome (applyUnaryOp op operand)
  | .member _ object member => do
    let object ← checked fields vars object
    evalMember object member
  | .methodCall info object methodName args =>
    evalMethodCall ctx h vars info (qualify fields object) methodName
      (checked fields vars object) (checkedList fields vars args)
  | .index _ object index => do
    let object ← checked fields vars object
    let index ← checked fields vars index
    evalIndex ctx h object index
  | .call _ name arguments => evalCall ctx h name (checkedArguments fields vars arguments)

def checkedList (fields : Finset String) (vars : Variables) :
    List Expr → M S (List RuntimeValue)
  | [] => pure []
  | expr :: exprs => do
    let value ← checked fields vars expr
    let values ← checkedList fields vars exprs
    pure (value :: values)

def checkedArguments (fields : Finset String) (vars : Variables) :
    List (Option String × Expr) → List (Option String × M S RuntimeValue)
  | [] => []
  | (name, value) :: arguments =>
    (name, checked fields vars value) :: checkedArguments fields vars arguments

end

end Checked

/-! ## Expressions -/

section Expressions

mutual

theorem qualify_empty : ∀ e : Expr, qualify ∅ e = e
  | .literal _ _ => rfl
  | .nilLiteral _ => rfl
  | .var _ _ => rfl
  | .binary info op left right => by
    unfold qualify
    rw [qualify_empty left, qualify_empty right]
  | .unary info op operand => by
    unfold qualify
    rw [qualify_empty operand]
  | .member info object member => by
    unfold qualify
    rw [qualify_empty object]
  | .methodCall info object methodName args => by
    unfold qualify
    rw [qualify_empty object, qualifyList_empty args]
  | .index info object index => by
    unfold qualify
    rw [qualify_empty object, qualify_empty index]
  | .call info name arguments => by
    unfold qualify
    rw [qualifyArguments_empty arguments]

theorem qualifyList_empty : ∀ es : List Expr, qualifyList ∅ es = es
  | [] => rfl
  | e :: es => by
    unfold qualifyList
    rw [qualify_empty e, qualifyList_empty es]

theorem qualifyArguments_empty :
    ∀ arguments : List (Option String × Expr), qualifyArguments ∅ arguments = arguments
  | [] => rfl
  | (name, value) :: arguments => by
    unfold qualifyArguments
    rw [qualify_empty value, qualifyArguments_empty arguments]

end

end Expressions

/-! ## Single accesses -/

section Accesses

variable {ctx : Context S} {h : Handlers S} {vars : Variables} {name : String} {w : World S}

theorem evalVariable_outcome {value : RuntimeValue} (hb : (vars.read w)[name]? = some value) :
    (evalVariable vars name w).outcome = .ok value w := by
  unfold evalVariable
  rw [Comp.outcome_gets_bind, hb]
  rfl

/-- What `this` has is what an access through `this` reads. -/
theorem evaluate_throughThis {value : RuntimeValue}
    (hc : current (vars.read w) w.heap name = some value) (info : ExprInfo) :
    (evaluate ctx h vars (throughThis info name) w).outcome = .ok value w := by
  unfold current at hc
  split at hc
  · rename_i id hthis
    obtain ⟨object, hobject, _⟩ := Option.bind_eq_some_iff.mp hc
    refine (Comp.bind_of_ok (evalVariable_outcome hthis)).trans ?_
    change ((structAt id >>= _) w).outcome = _
    unfold structAt
    rw [Comp.outcome_gets_bind, hobject]
    change ((getHeap >>= _) w).outcome = _
    unfold getHeap
    rw [Comp.outcome_gets_bind, hc]
    rfl
  · cases hc

/-- A read returns the variable, which is what the field is, or it is stopped. -/
theorem readCopy_cases (vars : Variables) (name : String) (w : World S) :
    (∃ value, (vars.read w)[name]? = some value ∧ current (vars.read w) w.heap name = some value ∧
      (readCopy vars name w).outcome = .ok value w) ∨ (readCopy vars name).Stopped w := by
  unfold Stopped readCopy getHeap
  rw [Comp.outcome_gets_bind, Comp.outcome_gets_bind]
  cases hmap : (vars.read w)[name]? with
  | none => exact .inr rfl
  | some value =>
    dsimp only
    by_cases hc : current (vars.read w) w.heap name = some value
    · rw [if_pos hc]
      exact .inl ⟨value, rfl, hc, rfl⟩
    · rw [if_neg hc]
      exact .inr rfl

theorem readCopy_vouches : Vouches (readCopy vars name : M S RuntimeValue) (evalVariable vars name) := by
  intro w
  rcases readCopy_cases vars name w with ⟨value, hmap, _, hread⟩ | hstopped
  · exact .inl ((evalVariable_outcome hmap).trans hread.symm)
  · exact .inr hstopped

theorem readCopy_vouches_this (info : ExprInfo) :
    Vouches (readCopy vars name) (evaluate ctx h vars (throughThis info name)) := by
  intro w
  rcases readCopy_cases vars name w with ⟨value, _, hc, hread⟩ | hstopped
  · exact .inl ((evaluate_throughThis hc info).trans hread.symm)
  · exact .inr hstopped

/-- The two forms of a read agree exactly where the checked one is not stopped, as long as `this`
is an object with the field and the variable is bound. -/
theorem evaluate_throughThis_iff {value copy : RuntimeValue}
    (hc : current (vars.read w) w.heap name = some value) (hb : (vars.read w)[name]? = some copy)
    (info info' : ExprInfo) :
    (evaluate ctx h vars (throughThis info name) w).outcome =
        (evaluate ctx h vars (.var info' name) w).outcome ↔ ¬ (readCopy vars name).Stopped w := by
  rw [evaluate_throughThis hc]
  change _ = (evalVariable vars name w).outcome ↔ _
  rw [evalVariable_outcome hb]
  unfold Stopped readCopy getHeap
  rw [Comp.outcome_gets_bind, Comp.outcome_gets_bind, hb, hc]
  dsimp only
  by_cases hsame : value = copy
  · rw [if_pos (congrArg some hsame), hsame]
    exact iff_of_true rfl nofun
  · rw [if_neg fun he => hsame (Option.some.inj he)]
    refine iff_of_false (fun he => ?_) fun hn => hn rfl
    cases he
    exact hsame rfl

end Accesses

/-! ## Calls -/

section Calls

variable {ctx : Context S} {h : Handlers S} {vars : Variables}

theorem callOnValue_vouched {cargs args : M S (List RuntimeValue)} (hargs : Vouches cargs args)
    (object : RuntimeValue) (methodName : String) :
    Vouches (callOnValue ctx h object methodName cargs) (callOnValue ctx h object methodName args) := by
  unfold callOnValue
  cases object with
  | struct id =>
    refine Vouches.bind (Vouches.refl _) fun found => ?_
    cases found with
    | none => exact Vouches.refl _
    | some object =>
      refine Vouches.bind (Vouches.refl _) fun decl => ?_
      cases decl with
      | none => exact Vouches.refl _
      | some decl =>
        dsimp only
        cases decl.findRoutine methodName with
        | none => exact Vouches.refl _
        | some routine => exact Vouches.bind hargs fun _ => Vouches.refl _
  | _ =>
    refine Vouches.bind (Vouches.refl _) fun heap => ?_
    refine Vouches.bind (Vouches.refl _) fun method => ?_
    cases method with
    | none => exact Vouches.refl _
    | some method => exact Vouches.bind hargs fun _ => Vouches.refl _

theorem callStatic_vouched {cargs args : M S (List RuntimeValue)} (hargs : Vouches cargs args)
    (decl : StructDecl) (typeArgs : List TypeDescriptor) (methodName : String) :
    Vouches (callStatic h vars decl typeArgs methodName cargs)
      (callStatic h vars decl typeArgs methodName args) := by
  refine Vouches.bind (Vouches.refl _) fun decl => ?_
  cases decl.findRoutine methodName with
  | none => exact Vouches.refl _
  | some routine =>
    exact Vouches.bind (Vouches.refl _) fun _ => Vouches.bind hargs fun _ => Vouches.refl _

theorem evalMethodCall_vouched {c m : M S RuntimeValue} {cargs args : M S (List RuntimeValue)}
    (hm : Vouches c m) (hargs : Vouches cargs args) (info : ExprInfo) (receiver : Expr)
    (methodName : String) :
    Vouches (evalMethodCall ctx h vars info receiver methodName c cargs)
      (evalMethodCall ctx h vars info receiver methodName m args) := by
  refine Vouches.bind (Vouches.refl _) fun found => ?_
  cases found with
  | none => exact Vouches.bind hm fun value => callOnValue_vouched hargs value methodName
  | some target => exact callStatic_vouched hargs target.1 target.2 methodName

/-- Only a name can be a static receiver. -/
theorem evalMethodCall_of_not_var {receiver : Expr} (hr : ∀ info name, receiver ≠ .var info name)
    (info : ExprInfo) (methodName : String) (object : M S RuntimeValue)
    (args : M S (List RuntimeValue)) :
    evalMethodCall ctx h vars info receiver methodName object args =
      object >>= fun value => callOnValue ctx h value methodName args := by
  cases receiver with
  | var info name => exact absurd rfl (hr info name)
  | _ => rfl

theorem qualify_not_var {e : Expr} (he : ∀ info name, e ≠ .var info name) (fields : Finset String)
    (info : ExprInfo) (name : String) : qualify fields e ≠ .var info name := by
  cases e with
  | var info name => exact absurd rfl (he info name)
  | _ => exact nofun

theorem throughThis_not_var (place : ExprInfo) (field : String) (info : ExprInfo) (name : String) :
    throughThis place field ≠ .var info name := nofun

/-- A call on the bare name of a field is no static call while the name is bound. -/
theorem evalMethodCall_bare {cargs args : M S (List RuntimeValue)} (hargs : Vouches cargs args)
    (info place : ExprInfo) (name methodName : String) :
    Vouches (readCopy vars name >>= fun value => callOnValue ctx h value methodName cargs)
      (evalMethodCall ctx h vars info (.var place name) methodName (evalVariable vars name)
        args) := by
  intro w
  rcases readCopy_cases vars name w with ⟨value, hmap, _, hread⟩ | hstopped
  · have hcall : (evalMethodCall ctx h vars info (.var place name) methodName
        (evalVariable vars name) args w).outcome =
        (callOnValue ctx h value methodName args w).outcome := by
      unfold evalMethodCall
      refine (Comp.bind_of_ok (StaticDispatch.staticReceiver_of_bound hmap info place)).trans ?_
      exact Comp.bind_of_ok (evalVariable_outcome hmap)
    unfold Stopped
    rw [hcall, Comp.bind_of_ok hread]
    exact callOnValue_vouched hargs value methodName w
  · exact .inr (Comp.bind_of_halt hstopped)

/-- Arguments with the same names, each vouched for. -/
abbrev ArgumentsVouched (cargs args : List (Option String × M S RuntimeValue)) : Prop :=
  List.Forall₂ (fun a b => a.1 = b.1 ∧ Vouches a.2 b.2) cargs args

theorem bindParameters_vouched {cargs args : List (Option String × M S RuntimeValue)}
    (hargs : ArgumentsVouched cargs args) (required : Bool) (specs : List ParamSpec)
    (params : ParameterMap) (assigned : List Nat) :
    Vouches (bindParameters cargs required specs params assigned)
      (bindParameters args required specs params assigned) := by
  induction specs generalizing params assigned with
  | nil => exact Vouches.refl _
  | cons spec specs ih =>
    unfold bindParameters
    split
    · exact ih params assigned
    · rcases Coupling.findArgument_cases (R := Vouches) hargs assigned spec.name with
        ⟨hcarg, harg⟩ | ⟨name, cargument, argument, i, hvalue, hcarg, harg⟩
      · rw [hcarg, harg]
        dsimp only
        split
        · exact Vouches.refl _
        · exact ih _ _
      · rw [hcarg, harg]
        exact Vouches.bind hvalue fun _ => ih _ _

theorem evalCall_vouched {cargs args : List (Option String × M S RuntimeValue)}
    (hargs : ArgumentsVouched cargs args) (name : String) :
    Vouches (evalCall ctx h name cargs) (evalCall ctx h name args) := by
  refine Vouches.bind (Vouches.refl _) fun _ => Vouches.bind (Vouches.refl _) fun sig => ?_
  refine Vouches.bind ?_ fun _ => Vouches.refl _
  exact Vouches.bind (bindParameters_vouched hargs true _ _ _) fun _ =>
    Vouches.bind (bindParameters_vouched hargs false _ _ _) fun _ => Vouches.refl _

end Calls

/-! ## The evaluator -/

section Evaluator

variable {ctx : Context S} {h : Handlers S} {fields names : Finset String} (hsub : names ⊆ fields)
include hsub

theorem var_vouched (vars : Variables) (info : ExprInfo) (name : String) :
    Vouches (checked ctx h fields vars (.var info name))
      (evaluate ctx h vars (qualify names (.var info name))) := by
  unfold checked qualify
  by_cases hname : name ∈ names
  · rw [if_pos (hsub hname), if_pos hname]
    exact readCopy_vouches_this info
  · rw [if_neg hname]
    by_cases hfield : name ∈ fields
    · rw [if_pos hfield]
      exact readCopy_vouches
    · rw [if_neg hfield]
      exact Vouches.refl _

theorem methodCall_vouched (vars : Variables) (info : ExprInfo) (object : Expr)
    (methodName : String) {cargs args : M S (List RuntimeValue)}
    (hobject : Vouches (checked ctx h fields vars object) (evaluate ctx h vars (qualify names object)))
    (hargs : Vouches cargs args) :
    Vouches (evalMethodCall ctx h vars info (qualify fields object) methodName
        (checked ctx h fields vars object) cargs)
      (evalMethodCall ctx h vars info (qualify names object) methodName
        (evaluate ctx h vars (qualify names object)) args) := by
  by_cases hvar : ∃ place name, object = .var place name
  · obtain ⟨place, name, rfl⟩ := hvar
    by_cases hboth : name ∈ fields ∧ name ∉ names
    · have hchecked : checked ctx h fields vars (.var place name) = readCopy vars name :=
        if_pos hboth.1
      have hthis : qualify fields (.var place name) = throughThis place name := if_pos hboth.1
      have hbare : qualify names (.var place name) = .var place name := if_neg hboth.2
      rw [hchecked, hthis, hbare, evalMethodCall_of_not_var (throughThis_not_var place name)]
      exact evalMethodCall_bare hargs info place name methodName
    · have hsame : qualify fields (.var place name) = qualify names (.var place name) := by
        unfold qualify
        by_cases hname : name ∈ names
        · rw [if_pos (hsub hname), if_pos hname]
        · rw [if_neg hname, if_neg fun hf => hboth ⟨hf, hname⟩]
      rw [hsame]
      exact evalMethodCall_vouched hobject hargs info _ methodName
  · have hnot : ∀ place name, object ≠ .var place name :=
      fun place name he => hvar ⟨place, name, he⟩
    rw [evalMethodCall_of_not_var (qualify_not_var hnot fields),
      evalMethodCall_of_not_var (qualify_not_var hnot names)]
    exact Vouches.bind hobject fun value => callOnValue_vouched hargs value methodName

set_option linter.unusedSectionVars false in
mutual

/-- The checked evaluation vouches for that of the text, whichever of the names are qualified. -/
theorem evaluate_vouched (vars : Variables) : ∀ e : Expr,
    Vouches (checked ctx h fields vars e) (evaluate ctx h vars (qualify names e))
  | .literal _ _ => Vouches.refl _
  | .nilLiteral _ => Vouches.refl _
  | .var info name => var_vouched hsub vars info name
  | .binary _ _ left right =>
    Vouches.bind (evaluate_vouched vars left) fun _ =>
      Vouches.bind (evaluate_vouched vars right) fun _ => Vouches.refl _
  | .unary _ _ operand => Vouches.bind (evaluate_vouched vars operand) fun _ => Vouches.refl _
  | .member _ object _ => Vouches.bind (evaluate_vouched vars object) fun _ => Vouches.refl _
  | .methodCall info object methodName args =>
    methodCall_vouched hsub vars info object methodName (evaluate_vouched vars object)
      (evaluateList_vouched vars args)
  | .index _ object index =>
    Vouches.bind (evaluate_vouched vars object) fun _ =>
      Vouches.bind (evaluate_vouched vars index) fun _ => Vouches.refl _
  | .call _ name arguments => evalCall_vouched (arguments_vouched vars arguments) name

theorem evaluateList_vouched (vars : Variables) : ∀ es : List Expr,
    Vouches (checkedList ctx h fields vars es) (evaluateList ctx h vars (qualifyList names es))
  | [] => Vouches.refl _
  | e :: es =>
    Vouches.bind (evaluate_vouched vars e) fun _ =>
      Vouches.bind (evaluateList_vouched vars es) fun _ => Vouches.refl _

theorem arguments_vouched (vars : Variables) : ∀ arguments : List (Option String × Expr),
    ArgumentsVouched (checkedArguments ctx h fields vars arguments)
      (argumentThunks ctx h vars (qualifyArguments names arguments))
  | [] => .nil
  | (_, value) :: arguments =>
    .cons ⟨rfl, evaluate_vouched vars value⟩ (arguments_vouched vars arguments)

end

end Evaluator


/-! ## Statements -/

section Executor

variable (ctx : Context S) (h : Handlers S)

def checkedInitial (fields : Finset String) (vars : Variables) (stmt : VarDeclStmt) :
    M S RuntimeValue :=
  match stmt.initializer with
  | some initializer =>
    checked ctx h fields vars (StmtExecutor.markedInitializer stmt.type initializer)
  | none => StmtExecutor.defaultInitial stmt

def checkedAssign (fields : Finset String) (vars : Variables) (targets : List AssignTarget)
    (value : M S RuntimeValue) : M S Variables := do
  let value ← value
  match assignedField fields targets with
  | some name => writeCopy vars name value
  | none => assignTargets ctx h vars targets value

mutual

def checkedStmt (fields : Finset String) (vars : Variables) :
    Stmt → M S (ControlFlow × Variables)
  | .varDecl stmt =>
    StmtExecutor.executeWithContext ctx stmt.location <| StmtExecutor.goOn do
      let value ← checkedInitial ctx h fields vars stmt
      StmtExecutor.assignVariable vars stmt.name value
  | .assign location targets value =>
    StmtExecutor.executeWithContext ctx location <| StmtExecutor.goOn <|
      checkedAssign ctx h fields vars targets (checked ctx h fields vars value)
  | .structFieldAssign location object field value =>
    StmtExecutor.executeWithContext ctx location <| StmtExecutor.goOn do
      let value ← checked ctx h fields vars value
      assignField vars object field value
  | .expr location expression =>
    StmtExecutor.executeWithContext ctx location do
      let _ ← checked ctx h fields vars expression
      pure (.none, vars)
  | .ifStmt location condition thenBody elseBody =>
    StmtExecutor.executeWithContext ctx location do
      match ← checked ctx h fields vars condition with
      | .bool true => checkedBlock fields vars thenBody
      | .bool false => checkedBlock fields vars elseBody
      | _ => evaluationError "If condition must evaluate to boolean"
  | .transition location targetState parameters =>
    StmtExecutor.executeWithContext ctx location do
      let values ← checkedList ctx h fields vars parameters
      pure (.transition targetState values, vars)
  | .terminal location => StmtExecutor.executeWithContext ctx location (pure (.terminal, vars))

def checkedBlock (fields : Finset String) (vars : Variables) :
    List Stmt → M S (ControlFlow × Variables)
  | [] => pure (.none, vars)
  | stmt :: stmts => do
    let (flow, vars) ← checkedStmt fields vars stmt
    match flow with
    | .none => checkedBlock (fields \ declared stmt) vars stmts
    | flow => pure (flow, vars)

end

end Executor

/-! ## Assignments -/

section Assignments

variable {ctx : Context S} {h : Handlers S} {vars : Variables} {name : String}

/-- What a checked assignment of a field needs and does. -/
theorem writeCopy_cases (vars : Variables) (name : String) (value : RuntimeValue) (w : World S) :
    (current (vars.read w) w.heap name = some value ∧ ((vars.read w)[name]?).isSome ∧
      (writeCopy vars name value w).outcome =
        (StmtExecutor.assignVariable vars name value w).outcome) ∨
      (writeCopy vars name value).Stopped w := by
  unfold Stopped writeCopy getHeap
  rw [Comp.outcome_gets_bind, Comp.outcome_gets_bind]
  by_cases hc : current (vars.read w) w.heap name = some value ∧ ((vars.read w)[name]?).isSome
  · rw [if_pos hc]
    exact .inl ⟨hc.1, hc.2, rfl⟩
  · rw [if_neg hc]
    exact .inr rfl

theorem writeCopy_vouches (value : RuntimeValue) :
    Vouches (writeCopy vars name value : M S Variables)
      (StmtExecutor.assignVariable vars name value) := by
  intro w
  rcases writeCopy_cases vars name value w with ⟨-, -, hwrite⟩ | hstopped
  · exact .inl hwrite.symm
  · exact .inr hstopped

/-- An assignment of the value that the field has leaves it and overwrites the variable. -/
theorem assignField_this {value : RuntimeValue} {w : World S}
    (hc : current (vars.read w) w.heap name = some value)
    (hb : ((vars.read w)[name]?).isSome) :
    (assignField vars (.var {} "this") name value w).outcome =
      (StmtExecutor.assignVariable vars name value w).outcome := by
  unfold current at hc
  split at hc
  · rename_i id hthis
    obtain ⟨object, hobject, _⟩ := Option.bind_eq_some_iff.mp hc
    have hreceiver : FieldAssign.receiver vars "this" w = some id := by
      unfold FieldAssign.receiver
      rw [hthis]
      exact if_pos (List.getElem?_eq_some_iff.mp hobject).1
    refine (Comp.bind_of_ok (FieldAssign.structVariable_of_receiver hreceiver _ _)).trans ?_
    have hset : (setField id name value w).outcome = .ok () w := by
      change Base.Outcome.ok () { w with heap := w.heap.setField id name value } = _
      rw [RoutineRuns.setField_self hc]
    refine (Comp.bind_of_ok hset).trans ?_
    unfold StmtExecutor.syncFlatCopy StmtExecutor.assignVariable
    rw [Comp.outcome_gets_bind, Comp.outcome_gets_bind]
    obtain ⟨old, hold⟩ := Option.isSome_iff_exists.mp hb
    rw [hold]
  · cases hc

theorem writeCopy_vouches_this (value : RuntimeValue) :
    Vouches (writeCopy vars name value : M S Variables)
      (assignField vars (.var {} "this") name value) := by
  intro w
  rcases writeCopy_cases vars name value w with ⟨hc, hb, hwrite⟩ | hstopped
  · exact .inl ((assignField_this hc hb).trans hwrite.symm)
  · exact .inr hstopped

end Assignments

/-! ## Statements as they are written -/

theorem qualify_withInfo (fields : Finset String) (info : ExprInfo) (e : Expr) :
    qualify fields (e.withInfo info) = (qualify fields e).withInfo info := by
  cases e with
  | var old name =>
    unfold Expr.withInfo
    dsimp only
    unfold qualify
    split <;> rfl
  | _ => rfl

theorem info_qualify (fields : Finset String) (e : Expr) : (qualify fields e).info = e.info := by
  cases e with
  | var info name =>
    unfold qualify
    split <;> rfl
  | _ => rfl

theorem qualify_markedInitializer (fields : Finset String) (type : TypeDescriptor) (e : Expr) :
    qualify fields (StmtExecutor.markedInitializer type e) =
      StmtExecutor.markedInitializer type (qualify fields e) := by
  unfold StmtExecutor.markedInitializer Expr.setInferredType
  split
  · rw [qualify_withInfo, info_qualify]
  · rfl

section Statements

variable {ctx : Context S} {h : Handlers S} {fields names : Finset String}

theorem assignedField_sub (hsub : names ⊆ fields) {targets : List AssignTarget} {name : String}
    (ha : assignedField names targets = some name) : assignedField fields targets = some name := by
  unfold assignedField at ha ⊢
  split at ha
  · rename_i target
    split at ha
    · rename_i hc
      have hmem := (Bool.and_eq_true_iff.mp hc).2
      cases ha
      rw [if_pos]
      exact Bool.and_eq_true_iff.mpr ⟨(Bool.and_eq_true_iff.mp hc).1,
        decide_eq_true (hsub (of_decide_eq_true hmem))⟩
    · cases ha
  · cases ha

theorem assignTargets_of_assignedField {targets : List AssignTarget} {name : String}
    (ha : assignedField fields targets = some name) (vars : Variables) (value : RuntimeValue) :
    assignTargets ctx h vars targets value = StmtExecutor.assignVariable vars name value := by
  unfold assignedField at ha
  split at ha
  · rename_i target
    split at ha
    · rename_i hc
      cases ha
      unfold assignTargets StmtExecutor.assignSingle
      dsimp only
      rw [if_neg]
      intro hfield
      rw [hfield] at hc
      cases hc
    · cases ha
  · cases ha

theorem initialValue_vouched (hsub : names ⊆ fields) (vars : Variables) (stmt : VarDeclStmt) :
    Vouches (checkedInitial ctx h fields vars stmt)
      (StmtExecutor.initialValue ctx h vars
        { stmt with initializer := stmt.initializer.map (qualify names) }) := by
  obtain ⟨place, type, name, initializer⟩ := stmt
  unfold checkedInitial StmtExecutor.initialValue
  cases initializer with
  | none => exact Vouches.refl _
  | some initializer =>
    dsimp only [Option.map_some]
    rw [← qualify_markedInitializer]
    exact evaluate_vouched hsub vars _

theorem assign_vouched (hsub : names ⊆ fields) (vars : Variables) (location : Location)
    (targets : List AssignTarget) (value : Expr) :
    Vouches (StmtExecutor.executeWithContext ctx location <| StmtExecutor.goOn <|
        checkedAssign ctx h fields vars targets (checked ctx h fields vars value))
      (StmtExecutor.execute ctx h vars (qualifyStmt names (.assign location targets value))) := by
  unfold qualifyStmt checkedAssign
  cases hname : assignedField names targets with
  | some name =>
    rw [assignedField_sub hsub hname]
    refine Vouches.tryCatch (Vouches.bind ?_ fun _ => Vouches.refl _) _
    exact Vouches.bind (evaluate_vouched hsub vars value) fun v => writeCopy_vouches_this v
  | none =>
    refine Vouches.tryCatch (Vouches.bind ?_ fun _ => Vouches.refl _) _
    refine Vouches.bind (evaluate_vouched hsub vars value) fun v => ?_
    change Vouches _ (assignTargets ctx h vars targets v)
    cases hfield : assignedField fields targets with
    | some name =>
      rw [assignTargets_of_assignedField hfield]
      exact writeCopy_vouches v
    | none => exact Vouches.refl _

end Statements

/-! ## The executor -/

section Blocks

variable {ctx : Context S} {h : Handlers S}

mutual

theorem execute_vouched : ∀ (stmt : Stmt) {fields names : Finset String} (_ : names ⊆ fields)
    (vars : Variables),
    Vouches (checkedStmt ctx h fields vars stmt)
      (StmtExecutor.execute ctx h vars (qualifyStmt names stmt))
  | .varDecl stmt, _, _, hsub, vars =>
    Vouches.tryCatch (Vouches.bind (Vouches.bind (initialValue_vouched hsub vars stmt)
      fun _ => Vouches.refl _) fun _ => Vouches.refl _) _
  | .assign location targets value, _, _, hsub, vars =>
    assign_vouched hsub vars location targets value
  | .structFieldAssign _ object field value, _, _, hsub, vars =>
    Vouches.tryCatch (Vouches.bind (Vouches.bind (evaluate_vouched hsub vars value)
      fun _ => Vouches.refl _) fun _ => Vouches.refl _) _
  | .expr _ expression, _, _, hsub, vars =>
    Vouches.tryCatch (Vouches.bind (evaluate_vouched hsub vars expression)
      fun _ => Vouches.refl _) _
  | .ifStmt _ condition thenBody elseBody, _, _, hsub, vars => by
    refine Vouches.tryCatch (Vouches.bind (evaluate_vouched hsub vars condition) fun v => ?_) _
    cases v with
    | bool b =>
      cases b with
      | true => exact executeBlock_vouched thenBody hsub vars
      | false => exact executeBlock_vouched elseBody hsub vars
    | _ => exact Vouches.refl _
  | .transition _ _ parameters, _, _, hsub, vars =>
    Vouches.tryCatch (Vouches.bind (evaluateList_vouched hsub vars parameters)
      fun _ => Vouches.refl _) _
  | .terminal _, _, _, _, _ => Vouches.refl _

theorem executeBlock_vouched : ∀ (stmts : List Stmt) {fields names : Finset String}
    (_ : names ⊆ fields) (vars : Variables),
    Vouches (checkedBlock ctx h fields vars stmts)
      (StmtExecutor.executeBlock ctx h vars (qualifyBlock names stmts))
  | [], _, _, _, _ => Vouches.refl _
  | stmt :: stmts, _, _, hsub, vars => by
    refine Vouches.bind (execute_vouched stmt hsub vars) fun result => ?_
    obtain ⟨flow, vars⟩ := result
    cases flow with
    | none => exact executeBlock_vouched stmts (Finset.sdiff_subset_sdiff hsub subset_rfl) vars
    | _ => exact Vouches.refl _

end

mutual

theorem qualifyStmt_empty : ∀ stmt : Stmt, qualifyStmt ∅ stmt = stmt
  | .varDecl ⟨_, _, _, initializer⟩ => by
    unfold qualifyStmt
    cases initializer with
    | none => rfl
    | some e =>
      dsimp only [Option.map_some]
      rw [qualify_empty]
  | .assign location targets value => by
    have hnone : assignedField ∅ targets = none := by
      unfold assignedField
      split
      · rw [if_neg]
        intro hc
        exact Finset.notMem_empty _ (of_decide_eq_true (Bool.and_eq_true_iff.mp hc).2)
      · rfl
    unfold qualifyStmt
    rw [hnone, qualify_empty]
  | .structFieldAssign _ _ _ value => by
    unfold qualifyStmt
    rw [qualify_empty]
  | .expr _ expression => by
    unfold qualifyStmt
    rw [qualify_empty]
  | .ifStmt _ condition thenBody elseBody => by
    unfold qualifyStmt
    rw [qualify_empty, qualifyBlock_empty thenBody, qualifyBlock_empty elseBody]
  | .transition _ _ parameters => by
    unfold qualifyStmt
    rw [qualifyList_empty]
  | .terminal _ => rfl

theorem qualifyBlock_empty : ∀ stmts : List Stmt, qualifyBlock ∅ stmts = stmts
  | [] => rfl
  | stmt :: stmts => by
    unfold qualifyBlock
    rw [qualifyStmt_empty stmt, Finset.empty_sdiff, qualifyBlock_empty stmts]

end

end Blocks

/-! ## Routines -/

section Routines

variable (ctx : Context S) (h : Handlers S)

/-- The routine with this body. -/
def withBody (routine : RoutineDecl) (body : List Stmt) : RoutineDecl := { routine with body := body }

def checkedRoutine (fields : Finset String) (receiver : Nat) (decl : StructDecl)
    (routine : RoutineDecl) (callArgs : List RuntimeValue) : M S FunctionResult := do
  if routine.body.isEmpty then StructRoutine.execForeign ctx receiver decl routine callArgs
  else do
    let env ← StructRoutine.routineEnvironment ctx h receiver decl routine callArgs
    let (_, vars) ← checkedBlock ctx h fields (.own env) routine.body
    StructRoutine.finish receiver decl routine (StructRoutine.ownMap vars env)

variable {ctx h}

theorem execStructRoutine_vouched {fields names : Finset String} (hsub : names ⊆ fields)
    (receiver : Nat) (decl : StructDecl) (routine : RoutineDecl) (callArgs : List RuntimeValue) :
    Vouches (checkedRoutine ctx h fields receiver decl routine callArgs)
      (StructRoutine.execStructRoutine ctx h receiver decl
        (withBody routine (qualifyBlock names routine.body)) callArgs) := by
  obtain ⟨name, moduleName, inputs, outputs, body⟩ := routine
  unfold checkedRoutine StructRoutine.execStructRoutine
  cases body with
  | nil => exact Vouches.refl _
  | cons stmt stmts =>
    refine Vouches.bind (Vouches.refl _) fun env => ?_
    exact Vouches.bind (executeBlock_vouched (stmt :: stmts) hsub _) fun _ => Vouches.refl _

/-- A run of a body in which no access is stopped is a run of the body with `this.` before the
names. -/
theorem execStructRoutine_qualified {fields : Finset String} {receiver : Nat} {decl : StructDecl}
    {routine : RoutineDecl} {callArgs : List RuntimeValue} {w : World S}
    (hgo : ¬(checkedRoutine ctx h fields receiver decl routine callArgs).Stopped w) :
    (StructRoutine.execStructRoutine ctx h receiver decl
        (withBody routine (qualifyBlock fields routine.body)) callArgs w).outcome =
      (StructRoutine.execStructRoutine ctx h receiver decl routine callArgs w).outcome := by
  have hplain := @execStructRoutine_vouched S ctx h fields ∅ (Finset.empty_subset fields) receiver
    decl routine callArgs
  rw [qualifyBlock_empty] at hplain
  exact (execStructRoutine_vouched (subset_refl fields) receiver decl routine callArgs).agree
    hplain hgo

end Routines

end FalconLib.Dsl.Qualification
