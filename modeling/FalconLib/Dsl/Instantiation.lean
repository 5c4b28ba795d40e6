import FalconLib.Dsl.SelfReference

/-!
# Instances of a generic struct

What the instance of a generic struct should be: the declaration with every occurrence
of a parameter replaced, in fields, parameters and the declarations of local variables.
Declarations are compared without the annotations that belong to a place in a file.
-/

namespace FalconLib.Dsl

open FalconLib.Base (StdMap)

/-! ## Without annotations -/

namespace Expr

mutual

def erase : Expr → Expr
  | literal _ value => literal {} value
  | nilLiteral _ => nilLiteral {}
  | var _ name => var {} name
  | binary _ op left right => binary {} op left.erase right.erase
  | unary _ op operand => unary {} op operand.erase
  | member _ object name => member {} object.erase name
  | methodCall _ object methodName args => methodCall {} object.erase methodName (eraseList args)
  | index _ object i => index {} object.erase i.erase
  | call _ name arguments => call {} name (eraseArgs arguments)

def eraseList : List Expr → List Expr
  | [] => []
  | expr :: exprs => expr.erase :: eraseList exprs

def eraseArgs : List (Option String × Expr) → List (Option String × Expr)
  | [] => []
  | (name, value) :: arguments => (name, value.erase) :: eraseArgs arguments

end

mutual

theorem erase_clone : ∀ expr : Expr, expr.clone.erase = expr.erase
  | literal _ _ | nilLiteral _ | var _ _ => rfl
  | binary _ _ left right => by
    rw [clone, erase, erase, erase_clone left, erase_clone right]
  | unary _ _ operand => by rw [clone, erase, erase, erase_clone operand]
  | member _ object _ => by rw [clone, erase, erase, erase_clone object]
  | methodCall _ object _ args => by
    rw [clone, erase, erase, erase_clone object, eraseList_clone args]
  | index _ object i => by rw [clone, erase, erase, erase_clone object, erase_clone i]
  | call _ _ arguments => by rw [clone, erase, erase, eraseArgs_clone arguments]

theorem eraseList_clone : ∀ exprs : List Expr, eraseList (cloneList exprs) = eraseList exprs
  | [] => rfl
  | expr :: exprs => by
    rw [cloneList, eraseList, eraseList, erase_clone expr, eraseList_clone exprs]

theorem eraseArgs_clone : ∀ arguments : List (Option String × Expr),
    eraseArgs (cloneArgs arguments) = eraseArgs arguments
  | [] => rfl
  | (_, value) :: arguments => by
    rw [cloneArgs, eraseArgs, eraseArgs, erase_clone value, eraseArgs_clone arguments]

end

theorem erase_map_clone (expr : Option Expr) :
    (expr.map clone).map erase = expr.map erase := by
  rw [Option.map_map]
  exact congrArg (Option.map · expr) (funext erase_clone)

end Expr

def VarDeclStmt.erase (stmt : VarDeclStmt) : VarDeclStmt :=
  { type := stmt.type, name := stmt.name, initializer := stmt.initializer.map Expr.erase }

/-- Only one half of a target counts. -/
def AssignTarget.erase (target : AssignTarget) : AssignTarget :=
  if target.isFieldTarget then
    { object := target.object.map Expr.erase, fieldName := target.fieldName }
  else { variableName := target.variableName }

theorem AssignTarget.erase_clone (target : AssignTarget) : target.clone.erase = target.erase := by
  unfold clone
  by_cases h : target.isFieldTarget = true
  · rw [if_pos h]
    have hfield : isFieldTarget
        { object := target.object.map Expr.clone, fieldName := target.fieldName } = true := h
    unfold erase
    rw [if_pos hfield, if_pos h, Expr.erase_map_clone]
  · rw [if_neg h]
    unfold erase
    rw [if_neg h]
    rfl

namespace Stmt

mutual

def erase : Stmt → Stmt
  | varDecl stmt => varDecl stmt.erase
  | assign _ targets value => assign {} (targets.map AssignTarget.erase) value.erase
  | structFieldAssign _ object field value =>
    structFieldAssign {} object.erase field value.erase
  | expr _ expression => expr {} expression.erase
  | ifStmt _ condition thenBody elseBody =>
    ifStmt {} condition.erase (eraseList thenBody) (eraseList elseBody)
  | transition _ targetState parameters => transition {} targetState (Expr.eraseList parameters)
  | terminal _ => terminal {}

def eraseList : List Stmt → List Stmt
  | [] => []
  | stmt :: stmts => stmt.erase :: eraseList stmts

end

mutual

/-- The declared types of local variables, with every parameter replaced. -/
def subst (σ : Substitution) : Stmt → Stmt
  | varDecl stmt => varDecl { stmt with type := stmt.type.subst σ }
  | ifStmt location condition thenBody elseBody =>
    ifStmt location condition (substList σ thenBody) (substList σ elseBody)
  | stmt => stmt

def substList (σ : Substitution) : List Stmt → List Stmt
  | [] => []
  | stmt :: stmts => subst σ stmt :: substList σ stmts

end

mutual

/-- The declared types of the local variables, at any depth. -/
def localTypes : Stmt → List TypeDescriptor
  | varDecl stmt => [stmt.type]
  | ifStmt _ _ thenBody elseBody => localTypesList thenBody ++ localTypesList elseBody
  | _ => []

def localTypesList : List Stmt → List TypeDescriptor
  | [] => []
  | stmt :: stmts => localTypes stmt ++ localTypesList stmts

end

variable {σ : Substitution}

/-- A statement without local variables. -/
theorem erase_clone_iff_of_plain {stmt : Stmt} (hs : subst σ stmt = stmt)
    (hl : stmt.localTypes = []) (hc : stmt.clone.erase = stmt.erase) :
    stmt.clone.erase = (subst σ stmt).erase ↔ ∀ type ∈ stmt.localTypes, type.subst σ = type := by
  rw [hs, hl, hc]
  exact ⟨fun _ type h => absurd h List.not_mem_nil, fun _ => rfl⟩

mutual

/-- A clone is the statement after substitution when no local variable has a type that
the substitution changes. -/
theorem erase_clone_iff : ∀ stmt : Stmt,
    stmt.clone.erase = (subst σ stmt).erase ↔ ∀ type ∈ stmt.localTypes, type.subst σ = type
  | varDecl stmt => by
    rw [clone, subst, erase, erase, localTypes, List.forall_mem_singleton, varDecl.injEq]
    unfold VarDeclStmt.clone VarDeclStmt.erase
    dsimp only
    rw [Expr.erase_map_clone, VarDeclStmt.mk.injEq]
    exact ⟨fun h => h.2.1.symm, fun h => ⟨rfl, h.symm, rfl, rfl⟩⟩
  | assign location targets value => by
    refine erase_clone_iff_of_plain rfl rfl ?_
    rw [clone, erase, erase, Expr.erase_clone, List.map_map]
    exact congrArg (assign {} · value.erase)
      (List.map_congr_left fun target _ => AssignTarget.erase_clone target)
  | structFieldAssign _ object field value => by
    refine erase_clone_iff_of_plain rfl rfl ?_
    rw [clone, erase, erase, Expr.erase_clone, Expr.erase_clone]
  | expr _ expression => by
    refine erase_clone_iff_of_plain rfl rfl ?_
    rw [clone, erase, erase, Expr.erase_clone]
  | ifStmt _ condition thenBody elseBody => by
    rw [clone, subst, erase, erase, localTypes, Expr.erase_clone, List.forall_mem_append,
      ← eraseList_clone_iff thenBody, ← eraseList_clone_iff elseBody, ifStmt.injEq]
    exact ⟨fun h => h.2.2, fun h => ⟨rfl, rfl, h⟩⟩
  | transition _ targetState parameters => by
    refine erase_clone_iff_of_plain rfl rfl ?_
    rw [clone, erase, erase, Expr.eraseList_clone]
  | terminal _ => erase_clone_iff_of_plain rfl rfl rfl

theorem eraseList_clone_iff : ∀ stmts : List Stmt,
    eraseList (cloneList stmts) = eraseList (substList σ stmts) ↔
      ∀ type ∈ localTypesList stmts, type.subst σ = type
  | [] => by
    rw [localTypesList]
    exact ⟨fun _ type h => absurd h List.not_mem_nil, fun _ => rfl⟩
  | stmt :: stmts => by
    rw [cloneList, substList, eraseList, eraseList, localTypesList, List.cons.injEq,
      erase_clone_iff stmt, eraseList_clone_iff stmts, List.forall_mem_append]

end

end Stmt

/-! ## Declarations -/

def ParamDecl.erase (param : ParamDecl) : ParamDecl :=
  { param with defaultValue := param.defaultValue.map Expr.erase }

def RoutineDecl.erase (routine : RoutineDecl) : RoutineDecl :=
  { routine with
    inputParams := routine.inputParams.map ParamDecl.erase
    outputParams := routine.outputParams.map ParamDecl.erase
    body := Stmt.eraseList routine.body }

def StructDecl.erase (decl : StructDecl) : StructDecl :=
  { decl with
    fields := decl.fields.map VarDeclStmt.erase
    routines := decl.routines.map RoutineDecl.erase }

def VarDeclStmt.subst (σ : Substitution) (field : VarDeclStmt) : VarDeclStmt :=
  { field with type := field.type.subst σ }

def ParamDecl.subst (σ : Substitution) (param : ParamDecl) : ParamDecl :=
  { param with type := param.type.subst σ }

def RoutineDecl.subst (σ : Substitution) (routine : RoutineDecl) : RoutineDecl :=
  { routine with
    inputParams := routine.inputParams.map (ParamDecl.subst σ)
    outputParams := routine.outputParams.map (ParamDecl.subst σ)
    body := Stmt.substList σ routine.body }

namespace StructDecl

/-- The argument of each parameter. -/
def substitution (base : StructDecl) (typeArgs : List TypeDescriptor) : Substitution :=
  StdMap.emplaceAll ∅ (base.genericParams.zip typeArgs)

/-- The instance of a generic struct: a struct of its own, without parameters. -/
def instantiate (base : StructDecl) (typeArgs : List TypeDescriptor) : StructDecl where
  name := TypeDescriptor.instanceName base.name typeArgs
  fields := base.fields.map (VarDeclStmt.subst (base.substitution typeArgs))
  routines := base.routines.map (RoutineDecl.subst (base.substitution typeArgs))

/-- What `monomorphize_struct` builds is the instance. -/
def InstantiatedBy (base : StructDecl) (typeArgs : List TypeDescriptor) : Prop :=
  ∃ decl, monomorphize base (TypeDescriptor.instanceName base.name typeArgs) typeArgs =
    .ok decl ∧ decl.erase = (base.instantiate typeArgs).erase

/-- The types of a declaration are as the parser builds them, and so are its names. -/
structure WellWritten (base : StructDecl) : Prop where
  name : IsTypeName base.name
  genericParams : ∀ param ∈ base.genericParams, IsTypeName param
  fields : ∀ field ∈ base.fields, Written field.type
  inputs : ∀ routine ∈ base.routines, ∀ param ∈ routine.inputParams, Written param.type
  outputs : ∀ routine ∈ base.routines, ∀ param ∈ routine.outputParams, Written param.type
  locals : ∀ routine ∈ base.routines, ∀ type ∈ Stmt.localTypesList routine.body, Written type
  modules : ∀ routine ∈ base.routines, routine.moduleName = ""

/-- No parameter stands where it is not replaced, unless it is replaced by itself: in the
type arguments of a field or parameter, or anywhere in the type of a local variable. No
parameter has a default, and no output type is taken for the struct itself. -/
structure Substitutable (base : StructDecl) (σ : Substitution) : Prop where
  fields : ∀ field ∈ base.fields, ∀ n ∈ field.type.nestedLeaves, Leaves σ n
  inputs : ∀ routine ∈ base.routines, ∀ param ∈ routine.inputParams,
    param.defaultValue = none ∧ ∀ n ∈ param.type.nestedLeaves, Leaves σ n
  outputs : ∀ routine ∈ base.routines, ∀ param ∈ routine.outputParams,
    param.defaultValue = none ∧ (∀ n ∈ param.type.nestedLeaves, Leaves σ n) ∧
      SelfReference.Unaffected base σ (param.type.subst σ)
  locals : ∀ routine ∈ base.routines, ∀ type ∈ Stmt.localTypesList routine.body,
    ∀ n ∈ type.leaves, Leaves σ n

theorem mem_of_substitution {base : StructDecl} {typeArgs : List TypeDescriptor} {name : String}
    {type : TypeDescriptor} (h : (base.substitution typeArgs)[name]? = some type) :
    name ∈ base.genericParams ∧ type ∈ typeArgs := by
  unfold substitution at h
  rw [StdMap.getElem?_emplaceAll] at h
  exact List.of_mem_zip (StdMap.mem_of_firstWrite h)

section Instances

variable {base : StructDecl} {typeArgs : List TypeDescriptor}

theorem paramNames (h : base.WellWritten) : ParamNames (base.substitution typeArgs) := by
  intro name hname
  obtain ⟨type, ht⟩ := Option.ne_none_iff_exists'.mp hname
  exact h.genericParams name (mem_of_substitution ht).1

theorem field_erase_iff {σ : Substitution} (field : VarDeclStmt) :
    (monomorphizeField σ field).erase = (field.subst σ).erase ↔
      substituteType σ field.type = field.type.subst σ := by
  unfold monomorphizeField VarDeclStmt.subst VarDeclStmt.erase
  dsimp only
  rw [Expr.erase_map_clone, VarDeclStmt.mk.injEq]
  exact ⟨fun h => h.2.1, fun h => ⟨rfl, h, rfl, rfl⟩⟩

theorem param_erase_iff {σ : Substitution} (param : ParamDecl) (type : TypeDescriptor) :
    ParamDecl.erase { type := type, name := param.name } = (param.subst σ).erase ↔
      param.defaultValue = none ∧ type = param.type.subst σ := by
  unfold ParamDecl.subst ParamDecl.erase
  dsimp only
  rw [Option.map_none, ParamDecl.mk.injEq]
  constructor
  · exact fun h => ⟨Option.map_eq_none_iff.mp h.2.2.symm, h.1⟩
  · exact fun h => ⟨h.2, rfl, (Option.map_eq_none_iff.mpr h.1).symm⟩

theorem map_map_inj {α β γ : Type} {f g : α → β} {e : β → γ} {l : List α} :
    (l.map f).map e = (l.map g).map e ↔ ∀ a ∈ l, e (f a) = e (g a) := by
  rw [List.map_map, List.map_map]
  exact List.map_inj_left

theorem routine_erase_iff {σ : Substitution} (monoName : String) {routine : RoutineDecl}
    (hm : routine.moduleName = "") :
    (monomorphizeRoutine base monoName σ routine).erase = (routine.subst σ).erase ↔
      (∀ param ∈ routine.inputParams,
        param.defaultValue = none ∧ substituteType σ param.type = param.type.subst σ) ∧
      (∀ param ∈ routine.outputParams, param.defaultValue = none ∧
        substituteOutputType base monoName σ param.type = param.type.subst σ) ∧
      ∀ type ∈ Stmt.localTypesList routine.body, type.subst σ = type := by
  unfold monomorphizeRoutine RoutineDecl.subst RoutineDecl.erase
  dsimp only
  rw [RoutineDecl.mk.injEq, hm, map_map_inj, map_map_inj, Stmt.eraseList_clone_iff]
  simp only [param_erase_iff, true_and]

/-- The code builds the instance exactly when no parameter stands where it does not look. -/
theorem instantiatedBy_iff_substitutable (h : base.WellWritten)
    (ha : ∀ arg ∈ typeArgs, Written arg) (hl : base.genericParams.length = typeArgs.length) :
    base.InstantiatedBy typeArgs ↔ base.Substitutable (base.substitution typeArgs) := by
  have hσ : ParamNames (base.substitution typeArgs) := paramNames h
  have hv : ∀ (name : String) (type : TypeDescriptor),
      (base.substitution typeArgs)[name]? = some type → Written type :=
    fun name type ht => ha type (mem_of_substitution ht).2
  unfold InstantiatedBy monomorphize
  rw [if_pos hl]
  simp only [Except.ok.injEq, exists_eq_left']
  unfold instantiate StructDecl.erase
  dsimp only
  rw [StructDecl.mk.injEq, map_map_inj, map_map_inj]
  simp only [true_and]
  constructor
  · rintro ⟨hfields, hroutines⟩
    have hroutine := fun routine hr =>
      (routine_erase_iff _ (h.modules routine hr)).mp (hroutines routine hr)
    refine ⟨fun field hf => ?_, fun routine hr param hp => ?_, fun routine hr param hp => ?_,
      fun routine hr type ht => ?_⟩
    · exact (substituteType_eq_subst_iff hσ (h.fields field hf)).mp
        ((field_erase_iff field).mp (hfields field hf))
    · obtain ⟨hdefault, htype⟩ := (hroutine routine hr).1 param hp
      exact ⟨hdefault, (substituteType_eq_subst_iff hσ (h.inputs routine hr param hp)).mp htype⟩
    · obtain ⟨hdefault, htype⟩ := (hroutine routine hr).2.1 param hp
      exact ⟨hdefault, (SelfReference.substituteOutputType_eq_subst_iff hσ hv h.name typeArgs
        (h.outputs routine hr param hp)).mp htype⟩
    · exact (subst_eq_self_iff (h.locals routine hr type ht)).mp
        ((hroutine routine hr).2.2 type ht)
  · intro hs
    refine ⟨fun field hf => ?_, fun routine hr => ?_⟩
    · exact (field_erase_iff field).mpr
        ((substituteType_eq_subst_iff hσ (h.fields field hf)).mpr (hs.fields field hf))
    · refine (routine_erase_iff _ (h.modules routine hr)).mpr ⟨fun param hp => ?_,
        fun param hp => ?_, fun type ht => ?_⟩
      · obtain ⟨hdefault, hkeeps⟩ := hs.inputs routine hr param hp
        exact ⟨hdefault, (substituteType_eq_subst_iff hσ (h.inputs routine hr param hp)).mpr hkeeps⟩
      · obtain ⟨hdefault, hout⟩ := hs.outputs routine hr param hp
        exact ⟨hdefault, (SelfReference.substituteOutputType_eq_subst_iff hσ hv h.name typeArgs
          (h.outputs routine hr param hp)).mpr hout⟩
      · exact (subst_eq_self_iff (h.locals routine hr type ht)).mpr (hs.locals routine hr type ht)

end Instances

/-! ## A box and a wrapper of a box -/

theorem isTypeName_T : IsTypeName "T" := by decide

theorem written_int : Written (.ofParamType .int) := .primitive .int (by decide)

/-- A struct `name` with a parameter `T` and one field. -/
def holding (name : String) (type : TypeDescriptor) : StructDecl where
  name := name
  genericParams := ["T"]
  fields := [{ type := type, name := "value" }]
  routines := []

theorem wellWritten_holding {name : String} {type : TypeDescriptor} (hn : IsTypeName name)
    (ht : Written type) : (holding name type).WellWritten where
  name := hn
  genericParams := List.forall_mem_singleton.mpr isTypeName_T
  fields := List.forall_mem_singleton.mpr ht
  inputs := fun _ h => absurd h List.not_mem_nil
  outputs := fun _ h => absurd h List.not_mem_nil
  locals := fun _ h => absurd h List.not_mem_nil
  modules := fun _ h => absurd h List.not_mem_nil

theorem instantiatedBy_box :
    (holding "Box" (.makeStruct "T")).InstantiatedBy [.ofParamType .int] := by
  refine (instantiatedBy_iff_substitutable
    (wellWritten_holding (by decide) (.named "T" isTypeName_T))
    (List.forall_mem_singleton.mpr written_int) rfl).mpr ⟨?_, ?_, ?_, ?_⟩
  · exact List.forall_mem_singleton.mpr fun n hn => absurd hn List.not_mem_nil
  · exact fun _ h => absurd h List.not_mem_nil
  · exact fun _ h => absurd h List.not_mem_nil
  · exact fun _ h => absurd h List.not_mem_nil

/-- The parameter is an argument of the type of a field. -/
theorem not_instantiatedBy_wrapper :
    ¬ ∀ (base : StructDecl) (typeArgs : List TypeDescriptor), base.WellWritten →
      (∀ arg ∈ typeArgs, Written arg) → base.genericParams.length = typeArgs.length →
      base.InstantiatedBy typeArgs := by
  intro h
  have hboxed : Written (.makeGenericStruct "Box" [.makeStruct "T"]) :=
    .generic "Box" _ (by decide) (List.cons_ne_nil _ _)
      (List.forall_mem_singleton.mpr (.named "T" isTypeName_T))
  obtain ⟨decl, hdecl, herase⟩ := h _ [.ofParamType .int]
    (wellWritten_holding (show IsTypeName "Wrapper" by decide) hboxed)
    (List.forall_mem_singleton.mpr written_int) rfl
  injection hdecl with hdecl
  subst hdecl
  have hfields := congrArg (fun decl => decl.fields.map (·.type.structName)) herase
  exact absurd hfields (by decide +kernel)

end StructDecl

end FalconLib.Dsl
