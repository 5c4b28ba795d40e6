import FalconLib.Dsl.CompleteRuns

/-!
# The order of calls

Which functions and struct routines a text may call, by their names. A program is ranked if every
body calls only what has a lower rank than the body, and no state of an autotuner can be entered
again by transitions.
-/

namespace FalconLib.Dsl.CallOrder

open FalconLib.Base
open VariableFrame (simpleStmts blockStmts)

variable {S : Type}

/-! ## Callees -/

/-- A registered function by the name in the text, or a struct routine by its own name, whatever
the struct. -/
inductive Callee where
  | function (name : String)
  | method (name : String)
deriving DecidableEq

mutual

def callees : Expr → List Callee
  | .literal _ _ | .nilLiteral _ | .var _ _ => []
  | .binary _ _ left right => callees left ++ callees right
  | .unary _ _ operand => callees operand
  | .member _ object _ => callees object
  | .methodCall _ object methodName args =>
    .method methodName :: (callees object ++ listCallees args)
  | .index _ object index => .method "GetIndex" :: (callees object ++ callees index)
  | .call _ name arguments => .function name :: argumentCallees arguments

def listCallees : List Expr → List Callee
  | [] => []
  | expr :: exprs => callees expr ++ listCallees exprs

def argumentCallees : List (Option String × Expr) → List Callee
  | [] => []
  | (_, value) :: arguments => callees value ++ argumentCallees arguments

end

def optionCallees : Option Expr → List Callee
  | none => []
  | some expr => callees expr

def targetCallees (targets : List AssignTarget) : List Callee :=
  targets.flatMap fun target => optionCallees target.object

mutual

def stmtCallees : Stmt → List Callee
  | .varDecl stmt => optionCallees stmt.initializer
  | .assign _ targets value => callees value ++ targetCallees targets
  | .structFieldAssign _ _ _ value => callees value
  | .expr _ expression => callees expression
  | .ifStmt _ condition thenBody elseBody =>
    callees condition ++ (blockCallees thenBody ++ blockCallees elseBody)
  | .transition _ _ parameters => listCallees parameters
  | .terminal _ => []

def blockCallees : List Stmt → List Callee
  | [] => []
  | stmt :: stmts => stmtCallees stmt ++ blockCallees stmts

end

def paramCallees (params : List ParamDecl) : List Callee :=
  params.flatMap fun param => optionCallees param.defaultValue

def fieldCallees (fields : List VarDeclStmt) : List Callee :=
  fields.flatMap fun field => optionCallees field.initializer

def routineCallees (routine : RoutineDecl) : List Callee :=
  paramCallees routine.inputParams ++ paramCallees routine.outputParams ++
    blockCallees routine.body

def stateCallees (state : StateDecl) : List Callee :=
  paramCallees state.inputParameters ++ blockCallees state.body

/-- What is called before the entry state. -/
def prepareCallees (autotuner : AutotunerDecl) : List Callee :=
  blockCallees autotuner.autotunerVariables ++ paramCallees autotuner.inputParams ++
    paramCallees autotuner.outputParams ++ listCallees autotuner.entryParameters

def autotunerCallees (autotuner : AutotunerDecl) : List Callee :=
  prepareCallees autotuner ++ autotuner.states.flatMap stateCallees

/-! ## Transitions -/

/-- Where the transitions of a body lead. -/
def targets (body : List Stmt) : List String :=
  (blockStmts body).filterMap fun
    | .transition _ target _ => some target
    | _ => none

/-- The states that transitions lead to from the entry state. -/
inductive Entered (autotuner : AutotunerDecl) : String → Prop
  | entry : Entered autotuner autotuner.entryState
  | transition {name target : String} {state : StateDecl} (before : Entered autotuner name)
      (found : Interpreter.findState autotuner name = some state)
      (leads : target ∈ targets state.body) : Entered autotuner target

/-- The autotuners differ at most in states that are never entered. -/
structure SameMachine (autotuner autotuner' : AutotunerDecl) : Prop where
  inputParams : autotuner'.inputParams = autotuner.inputParams
  outputParams : autotuner'.outputParams = autotuner.outputParams
  autotunerVariables : autotuner'.autotunerVariables = autotuner.autotunerVariables
  entryState : autotuner'.entryState = autotuner.entryState
  entryParameters : autotuner'.entryParameters = autotuner.entryParameters
  states : ∀ name, Entered autotuner name →
    Interpreter.findState autotuner' name = Interpreter.findState autotuner name

theorem SameMachine.refl (autotuner : AutotunerDecl) : SameMachine autotuner autotuner :=
  ⟨rfl, rfl, rfl, rfl, rfl, fun _ _ => rfl⟩

theorem SameMachine.entered {autotuner autotuner' : AutotunerDecl} {name : String}
    (h : SameMachine autotuner autotuner') (hentered : Entered autotuner' name) :
    Entered autotuner name := by
  induction hentered with
  | entry => exact h.entryState ▸ .entry
  | transition _ found leads ih => exact .transition ih ((h.states _ ih).symm.trans found) leads

theorem SameMachine.symm {autotuner autotuner' : AutotunerDecl} (h : SameMachine autotuner autotuner') :
    SameMachine autotuner' autotuner :=
  ⟨h.inputParams.symm, h.outputParams.symm, h.autotunerVariables.symm, h.entryState.symm,
    h.entryParameters.symm, fun name hentered => (h.states name (h.entered hentered)).symm⟩

/-! ## Clones and instances -/

mutual

@[simp] theorem callees_clone : ∀ e : Expr, callees e.clone = callees e
  | .literal _ _ | .nilLiteral _ | .var _ _ => rfl
  | .binary _ _ left right => by
    simp only [Expr.clone, callees, callees_clone left, callees_clone right]
  | .unary _ _ operand => by simp only [Expr.clone, callees, callees_clone operand]
  | .member _ object _ => by simp only [Expr.clone, callees, callees_clone object]
  | .methodCall _ object _ args => by
    simp only [Expr.clone, callees, callees_clone object, listCallees_clone args]
  | .index _ object index => by
    simp only [Expr.clone, callees, callees_clone object, callees_clone index]
  | .call _ _ arguments => by simp only [Expr.clone, callees, argumentCallees_clone arguments]

@[simp] theorem listCallees_clone : ∀ es : List Expr,
    listCallees (Expr.cloneList es) = listCallees es
  | [] => rfl
  | e :: es => by simp only [Expr.cloneList, listCallees, callees_clone e, listCallees_clone es]

@[simp] theorem argumentCallees_clone : ∀ args : List (Option String × Expr),
    argumentCallees (Expr.cloneArgs args) = argumentCallees args
  | [] => rfl
  | (_, value) :: args => by
    simp only [Expr.cloneArgs, argumentCallees, callees_clone value, argumentCallees_clone args]

end

@[simp] theorem optionCallees_clone (e : Option Expr) :
    optionCallees (e.map Expr.clone) = optionCallees e := by
  cases e with
  | none => rfl
  | some e => exact callees_clone e

@[simp] theorem callees_setInferredType (type : TypeDescriptor) (e : Expr) :
    callees (e.setInferredType type) = callees e := by
  cases e <;> rfl

theorem subset_of_eq {cs cs' : List Callee} (h : cs = cs') : cs ⊆ cs' := h ▸ List.Subset.refl cs

/-- A plain target loses the object it does not use. -/
theorem targetCallees_clone (targets : List AssignTarget) :
    targetCallees (targets.map AssignTarget.clone) ⊆ targetCallees targets := by
  intro c hc
  obtain ⟨target', htarget', hobject⟩ := List.mem_flatMap.mp hc
  obtain ⟨target, htarget, rfl⟩ := List.mem_map.mp htarget'
  refine List.mem_flatMap.mpr ⟨target, htarget, ?_⟩
  unfold AssignTarget.clone at hobject
  split at hobject
  · rwa [optionCallees_clone] at hobject
  · exact absurd hobject List.not_mem_nil

mutual

theorem stmtCallees_clone : ∀ stmt : Stmt, stmtCallees stmt.clone ⊆ stmtCallees stmt
  | .varDecl stmt => subset_of_eq (optionCallees_clone stmt.initializer)
  | .assign _ targets value =>
    Coupling.append_subset_append (subset_of_eq (callees_clone value)) (targetCallees_clone targets)
  | .structFieldAssign _ _ _ value => subset_of_eq (callees_clone value)
  | .expr _ expression => subset_of_eq (callees_clone expression)
  | .ifStmt _ condition thenBody elseBody =>
    Coupling.append_subset_append (subset_of_eq (callees_clone condition))
      (Coupling.append_subset_append (blockCallees_clone thenBody) (blockCallees_clone elseBody))
  | .transition _ _ parameters => subset_of_eq (listCallees_clone parameters)
  | .terminal _ => List.Subset.refl _

theorem blockCallees_clone : ∀ body : List Stmt,
    blockCallees (Stmt.cloneList body) ⊆ blockCallees body
  | [] => List.Subset.refl _
  | stmt :: stmts =>
    Coupling.append_subset_append (stmtCallees_clone stmt) (blockCallees_clone stmts)

end

theorem fieldCallees_monomorphizeField (subst : Substitution) (fields : List VarDeclStmt) :
    fieldCallees (fields.map (monomorphizeField subst)) = fieldCallees fields := by
  induction fields with
  | nil => rfl
  | cons field fields ih =>
    simp only [fieldCallees, List.map_cons, List.flatMap_cons, monomorphizeField,
      optionCallees_clone] at ih ⊢
    rw [ih]

/-- The routines of an instance have no defaults. -/
theorem routineCallees_monomorphizeRoutine (base : StructDecl) (monoName : String)
    (subst : Substitution) (routine : RoutineDecl) :
    routineCallees (monomorphizeRoutine base monoName subst routine) ⊆ routineCallees routine := by
  have hparams : ∀ params : List ParamDecl, (∀ param ∈ params, param.defaultValue = none) →
      paramCallees params = [] := by
    intro params hnone
    refine List.flatMap_eq_nil_iff.mpr fun param hparam => ?_
    rw [hnone param hparam]
    rfl
  have hinputs := hparams (monomorphizeRoutine base monoName subst routine).inputParams
    (by simp [monomorphizeRoutine])
  have houtputs := hparams (monomorphizeRoutine base monoName subst routine).outputParams
    (by simp [monomorphizeRoutine])
  unfold routineCallees
  rw [hinputs, houtputs]
  exact List.subset_append_of_subset_right _ (blockCallees_clone routine.body)

/-! ## Ranked programs -/

variable (rank : Callee → Nat)

def Below (bound : Nat) (cs : List Callee) : Prop := ∀ c ∈ cs, rank c < bound

variable {rank} in
theorem Below.mono {bound : Nat} {cs cs' : List Callee} (h : Below rank bound cs)
    (hsub : cs' ⊆ cs) : Below rank bound cs' := fun c hc => h c (hsub hc)

variable {rank} in
theorem Below.weaken {bound bound' : Nat} {cs : List Callee} (h : Below rank bound cs)
    (hle : bound ≤ bound') : Below rank bound' cs :=
  fun c hc => Nat.lt_of_lt_of_le (h c hc) hle

/-- A routine calls what ranks below it, and so do the initialisers that a call of it evaluates:
those of its own struct, and with a body those of any struct, for its outputs. -/
structure RankedRoutine (floor : Nat) (decl : StructDecl) (routine : RoutineDecl) : Prop where
  calls : Below rank (rank (.method routine.name)) (routineCallees routine)
  fields : Below rank (rank (.method routine.name)) (fieldCallees decl.fields)
  floor : routine.body ≠ [] → floor ≤ rank (.method routine.name)

/-- Initialisers call what ranks below `floor`. -/
structure RankedStruct (floor : Nat) (decl : StructDecl) : Prop where
  initializers : Below rank floor (fieldCallees decl.fields)
  routines : ∀ routine ∈ decl.routines, RankedRoutine rank floor decl routine

/-- Transitions lead down an order of the states, from less than `rounds`. -/
def Descends (rounds : Nat) (autotuner : AutotunerDecl) : Prop :=
  ∃ order : String → Nat, order autotuner.entryState < rounds ∧
    ∀ state ∈ autotuner.states, ∀ target ∈ targets state.body, order target < order state.name

structure RankedAutotuner (rounds bound : Nat) (autotuner : AutotunerDecl) : Prop where
  calls : Below rank bound (autotunerCallees autotuner)
  descends : Descends rounds autotuner

/-- The function that a name in the text may stand for. -/
def Resolves (ctx : Context S) (name : String) (function : ExternalFunction) : Prop :=
  ctx.functions.lookup name = some function ∨
    ctx.functions.lookup (stripModulePrefix name) = some function

def RankedFunction (ctx : Context S) (rounds bound : Nat) : ExternalFunction → Prop
  | .autotuner qname => ∀ autotuner, ctx.loadedAutotuners[qname]? = some autotuner →
    RankedAutotuner rank rounds bound autotuner
  | .inlineRoutine qname => ∀ decl, ctx.routineDeclarations[qname]? = some decl →
    Below rank bound (blockCallees decl.body)
  | .errorMsg | .fatalErrorMsg | .foreign _ => True

/-- No function calls itself, directly or through others. -/
def Ranked (ctx : Context S) (rounds : Nat) : Prop :=
  ∀ name function, Resolves ctx name function →
    RankedFunction rank ctx rounds (rank (.function name)) function

/-- The same of the struct routines. -/
def RankedTypes (floor : Nat) (types : TypeRegistry) : Prop :=
  ∀ (name : String) (decl : StructDecl), types.structRegistry[name]? = some decl →
    RankedStruct rank floor decl

variable {rank} in
/-- An instance of a generic struct is ranked as that is. -/
theorem RankedStruct.instance_ {floor : Nat} {base decl : StructDecl} {monoName : String}
    {typeArgs : List TypeDescriptor} (h : RankedStruct rank floor base)
    (hm : monomorphize base monoName typeArgs = .ok decl) : RankedStruct rank floor decl := by
  unfold monomorphize at hm
  split at hm
  · cases hm
    refine ⟨?_, fun routine hroutine => ?_⟩
    · change Below rank floor (fieldCallees (base.fields.map _))
      rw [fieldCallees_monomorphizeField]
      exact h.initializers
    · obtain ⟨generic, hgeneric, rfl⟩ := List.mem_map.mp hroutine
      obtain ⟨hcalls, hfields, hfloor⟩ := h.routines generic hgeneric
      refine ⟨hcalls.mono (routineCallees_monomorphizeRoutine _ _ _ _), ?_, fun hbody => ?_⟩
      · change Below rank _ (fieldCallees (base.fields.map _))
        rw [fieldCallees_monomorphizeField]
        exact hfields
      · refine hfloor fun hempty => hbody ?_
        change Stmt.cloneList generic.body = []
        rw [hempty]
        rfl
  · cases hm

end FalconLib.Dsl.CallOrder
