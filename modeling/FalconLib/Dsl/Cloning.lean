import FalconLib.Dsl.TypeSubstitution
import Mathlib.Data.List.Basic
import Mathlib.Tactic.Common

/-!
# Clones of syntax trees

What a clone keeps of a tree. A node for an expression hands its location on but not its type
annotation, and a node for a statement hands on neither; so a clone is the original just where
there was nothing to lose.
-/

namespace FalconLib.Dsl

/-! ## Expressions -/

theorem ExprInfo.clone_eq_iff (info : ExprInfo) :
    info.clone = info ↔ info.inferredType = none := by
  obtain ⟨inferredType, location⟩ := info
  unfold clone
  rw [ExprInfo.mk.injEq, and_iff_left rfl, eq_comm]

namespace Expr

mutual

/-- The annotations of all nodes. -/
def infos : Expr → List ExprInfo
  | literal info _ | nilLiteral info | var info _ => [info]
  | binary info _ left right => info :: (left.infos ++ right.infos)
  | unary info _ operand => info :: operand.infos
  | member info object _ => info :: object.infos
  | methodCall info object _ args => info :: (object.infos ++ infosList args)
  | index info object i => info :: (object.infos ++ i.infos)
  | call info _ arguments => info :: infosArgs arguments

def infosList : List Expr → List ExprInfo
  | [] => []
  | expr :: exprs => expr.infos ++ infosList exprs

def infosArgs : List (Option String × Expr) → List ExprInfo
  | [] => []
  | (_, value) :: arguments => value.infos ++ infosArgs arguments

end

mutual

theorem infos_clone : ∀ expr : Expr, expr.clone.infos = expr.infos.map ExprInfo.clone
  | literal _ _ | nilLiteral _ | var _ _ => rfl
  | binary _ _ left right => by
    rw [clone, infos, infos, infos_clone left, infos_clone right, List.map_cons, List.map_append]
  | unary _ _ operand => by rw [clone, infos, infos, infos_clone operand, List.map_cons]
  | member _ object _ => by rw [clone, infos, infos, infos_clone object, List.map_cons]
  | methodCall _ object _ args => by
    rw [clone, infos, infos, infos_clone object, infosList_clone args, List.map_cons,
      List.map_append]
  | index _ object i => by
    rw [clone, infos, infos, infos_clone object, infos_clone i, List.map_cons, List.map_append]
  | call _ _ arguments => by rw [clone, infos, infos, infosArgs_clone arguments, List.map_cons]

theorem infosList_clone : ∀ exprs : List Expr,
    infosList (cloneList exprs) = (infosList exprs).map ExprInfo.clone
  | [] => rfl
  | expr :: exprs => by
    rw [cloneList, infosList, infosList, infos_clone expr, infosList_clone exprs, List.map_append]

theorem infosArgs_clone : ∀ arguments : List (Option String × Expr),
    infosArgs (cloneArgs arguments) = (infosArgs arguments).map ExprInfo.clone
  | [] => rfl
  | (_, value) :: arguments => by
    rw [cloneArgs, infosArgs, infosArgs, infos_clone value, infosArgs_clone arguments,
      List.map_append]

end

/-- Nothing is annotated with a type. -/
def Unannotated (infos : List ExprInfo) : Prop := ∀ info ∈ infos, info.inferredType = none

theorem unannotated_cons {info : ExprInfo} {infos : List ExprInfo} :
    Unannotated (info :: infos) ↔ info.clone = info ∧ Unannotated infos := by
  rw [ExprInfo.clone_eq_iff]
  exact List.forall_mem_cons

theorem unannotated_append {a b : List ExprInfo} :
    Unannotated (a ++ b) ↔ Unannotated a ∧ Unannotated b := List.forall_mem_append

/-- What comes out of a clone is not annotated. -/
theorem unannotated_of_map_eq {infos : List ExprInfo} (h : infos.map ExprInfo.clone = infos) :
    Unannotated infos := by
  intro info hinfo
  rw [← h] at hinfo
  obtain ⟨original, -, rfl⟩ := List.mem_map.mp hinfo
  rfl

mutual

theorem clone_of_unannotated : ∀ expr : Expr, Unannotated expr.infos → expr.clone = expr
  | literal _ _, h | nilLiteral _, h | var _ _, h => by
    rw [infos, unannotated_cons] at h
    rw [clone, h.1]
  | binary _ _ left right, h => by
    rw [infos, unannotated_cons, unannotated_append] at h
    rw [clone, h.1, clone_of_unannotated left h.2.1, clone_of_unannotated right h.2.2]
  | unary _ _ operand, h => by
    rw [infos, unannotated_cons] at h
    rw [clone, h.1, clone_of_unannotated operand h.2]
  | member _ object _, h => by
    rw [infos, unannotated_cons] at h
    rw [clone, h.1, clone_of_unannotated object h.2]
  | methodCall _ object _ args, h => by
    rw [infos, unannotated_cons, unannotated_append] at h
    rw [clone, h.1, clone_of_unannotated object h.2.1, cloneList_of_unannotated args h.2.2]
  | index _ object i, h => by
    rw [infos, unannotated_cons, unannotated_append] at h
    rw [clone, h.1, clone_of_unannotated object h.2.1, clone_of_unannotated i h.2.2]
  | call _ _ arguments, h => by
    rw [infos, unannotated_cons] at h
    rw [clone, h.1, cloneArgs_of_unannotated arguments h.2]

theorem cloneList_of_unannotated : ∀ exprs : List Expr,
    Unannotated (infosList exprs) → cloneList exprs = exprs
  | [], _ => rfl
  | expr :: exprs, h => by
    rw [infosList, unannotated_append] at h
    rw [cloneList, clone_of_unannotated expr h.1, cloneList_of_unannotated exprs h.2]

theorem cloneArgs_of_unannotated : ∀ arguments : List (Option String × Expr),
    Unannotated (infosArgs arguments) → cloneArgs arguments = arguments
  | [], _ => rfl
  | (_, value) :: arguments, h => by
    rw [infosArgs, unannotated_append] at h
    rw [cloneArgs, clone_of_unannotated value h.1, cloneArgs_of_unannotated arguments h.2]

end

theorem clone_eq_iff (expr : Expr) : expr.clone = expr ↔ Unannotated expr.infos := by
  constructor
  · intro h
    apply unannotated_of_map_eq
    rw [← infos_clone, h]
  · exact clone_of_unannotated expr

theorem cloneList_eq_iff (exprs : List Expr) :
    cloneList exprs = exprs ↔ Unannotated (infosList exprs) := by
  constructor
  · intro h
    apply unannotated_of_map_eq
    rw [← infosList_clone, h]
  · exact cloneList_of_unannotated exprs

/-- The annotations of an expression that may be missing. -/
def infosOption : Option Expr → List ExprInfo
  | none => []
  | some expr => expr.infos

theorem infosOption_clone (expr : Option Expr) :
    infosOption (expr.map clone) = (infosOption expr).map ExprInfo.clone := by
  cases expr with
  | none => rfl
  | some expr => exact infos_clone expr

theorem map_clone_eq_iff (expr : Option Expr) :
    expr.map clone = expr ↔ Unannotated (infosOption expr) := by
  cases expr with
  | none => exact ⟨nofun, fun _ => rfl⟩
  | some expr =>
    rw [Option.map_some, Option.some_inj]
    exact clone_eq_iff expr

end Expr

/-! ## Targets -/

namespace AssignTarget

def infos (target : AssignTarget) : List ExprInfo := Expr.infosOption target.object

/-- One of the two constructors has made it. -/
def Built (target : AssignTarget) : Prop :=
  if target.isFieldTarget then target.variableName = "" else target.object = none

theorem built_clone (target : AssignTarget) : target.clone.Built := by
  unfold clone
  by_cases h : target.isFieldTarget = true
  · rw [if_pos h]
    have hfield : isFieldTarget
        { object := target.object.map Expr.clone, fieldName := target.fieldName } = true := h
    unfold Built
    rw [if_pos hfield]
  · rw [if_neg h]
    rfl

theorem clone_of_built {target : AssignTarget} (h : target.Built) :
    target.clone = { target with object := target.object.map Expr.clone } := by
  unfold Built at h
  unfold clone
  by_cases hfield : target.isFieldTarget = true
  · rw [if_pos hfield] at h ⊢
    rw [h]
  · rw [if_neg hfield] at h ⊢
    have hname : target.fieldName = "" := by simpa [isFieldTarget] using hfield
    rw [h, hname]
    rfl

theorem infos_clone {target : AssignTarget} (h : target.Built) :
    target.clone.infos = target.infos.map ExprInfo.clone := by
  rw [clone_of_built h]
  exact Expr.infosOption_clone target.object

theorem clone_eq_iff (target : AssignTarget) :
    target.clone = target ↔ target.Built ∧ Expr.Unannotated target.infos := by
  constructor
  · intro h
    have hbuilt : target.Built := by
      rw [← h]
      exact built_clone target
    refine ⟨hbuilt, Expr.unannotated_of_map_eq ?_⟩
    rw [← infos_clone hbuilt, h]
  · rintro ⟨hbuilt, hinfos⟩
    rw [clone_of_built hbuilt, (Expr.map_clone_eq_iff _).mpr hinfos]

theorem map_clone_eq_iff (targets : List AssignTarget) : targets.map clone = targets ↔
    (∀ target ∈ targets, target.Built) ∧ Expr.Unannotated (targets.flatMap infos) := by
  rw [map_eq_self_iff]
  constructor
  · intro h
    refine ⟨fun target ht => ((clone_eq_iff target).mp (h target ht)).1, fun info hinfo => ?_⟩
    obtain ⟨target, ht, hmem⟩ := List.mem_flatMap.mp hinfo
    exact ((clone_eq_iff target).mp (h target ht)).2 info hmem
  · rintro ⟨hbuilt, hinfos⟩ target ht
    refine (clone_eq_iff target).mpr ⟨hbuilt target ht, fun info hinfo => ?_⟩
    exact hinfos info (List.mem_flatMap.mpr ⟨target, ht, hinfo⟩)

end AssignTarget

/-! ## Statements -/

def VarDeclStmt.infos (stmt : VarDeclStmt) : List ExprInfo := Expr.infosOption stmt.initializer

namespace Stmt

mutual

/-- The locations of all statements, the one itself among them. -/
def locations : Stmt → List Location
  | varDecl stmt => [stmt.location]
  | assign location _ _ | structFieldAssign location _ _ _ | expr location _ => [location]
  | ifStmt location _ thenBody elseBody =>
    location :: (locationsList thenBody ++ locationsList elseBody)
  | transition location _ _ | terminal location => [location]

def locationsList : List Stmt → List Location
  | [] => []
  | stmt :: stmts => stmt.locations ++ locationsList stmts

end

mutual

/-- The annotations of all expressions. -/
def infos : Stmt → List ExprInfo
  | varDecl stmt => stmt.infos
  | assign _ targets value => targets.flatMap AssignTarget.infos ++ value.infos
  | structFieldAssign _ object _ value => object.infos ++ value.infos
  | expr _ expression => expression.infos
  | ifStmt _ condition thenBody elseBody =>
    condition.infos ++ (infosList thenBody ++ infosList elseBody)
  | transition _ _ parameters => Expr.infosList parameters
  | terminal _ => []

def infosList : List Stmt → List ExprInfo
  | [] => []
  | stmt :: stmts => stmt.infos ++ infosList stmts

end

mutual

/-- The targets of all assignments. -/
def targets : Stmt → List AssignTarget
  | assign _ targets _ => targets
  | ifStmt _ _ thenBody elseBody => targetsList thenBody ++ targetsList elseBody
  | varDecl _ | structFieldAssign _ _ _ _ | expr _ _ | transition _ _ _ | terminal _ => []

def targetsList : List Stmt → List AssignTarget
  | [] => []
  | stmt :: stmts => stmt.targets ++ targetsList stmts

end

/-- Nothing is lost: no location to forget, no annotation, and no half of a target beside the other. -/
structure Lossless (locations : List Location) (infos : List ExprInfo)
    (targets : List AssignTarget) : Prop where
  locations : ∀ location ∈ locations, location = {}
  infos : Expr.Unannotated infos
  targets : ∀ target ∈ targets, target.Built

theorem lossless_append {l l' : List Location} {i i' : List ExprInfo} {t t' : List AssignTarget} :
    Lossless (l ++ l') (i ++ i') (t ++ t') ↔ Lossless l i t ∧ Lossless l' i' t' := by
  constructor
  · rintro ⟨hl, hi, ht⟩
    obtain ⟨hl, hl'⟩ := List.forall_mem_append.mp hl
    obtain ⟨hi, hi'⟩ := Expr.unannotated_append.mp hi
    obtain ⟨ht, ht'⟩ := List.forall_mem_append.mp ht
    exact ⟨⟨hl, hi, ht⟩, hl', hi', ht'⟩
  · rintro ⟨⟨hl, hi, ht⟩, hl', hi', ht'⟩
    exact ⟨List.forall_mem_append.mpr ⟨hl, hl'⟩, Expr.unannotated_append.mpr ⟨hi, hi'⟩,
      List.forall_mem_append.mpr ⟨ht, ht'⟩⟩

/-- A statement with expressions and without a body. -/
theorem lossless_singleton {location : Location} {infos : List ExprInfo}
    {targets : List AssignTarget} : Lossless [location] infos targets ↔
      ({} : Location) = location ∧ Expr.Unannotated infos ∧ ∀ target ∈ targets, target.Built := by
  rw [eq_comm]
  constructor
  · rintro ⟨hl, hi, ht⟩
    exact ⟨hl location List.mem_cons_self, hi, ht⟩
  · rintro ⟨hl, hi, ht⟩
    exact ⟨List.forall_mem_singleton.mpr hl, hi, ht⟩

theorem cloneList_cons_iff (stmt : Stmt) (stmts : List Stmt) :
    cloneList (stmt :: stmts) = stmt :: stmts ↔ stmt.clone = stmt ∧ cloneList stmts = stmts := by
  rw [cloneList, List.cons.injEq]

mutual

theorem clone_eq_iff : ∀ stmt : Stmt,
    stmt.clone = stmt ↔ Lossless stmt.locations stmt.infos stmt.targets
  | varDecl ⟨location, type, name, initializer⟩ => by
    rw [locations, infos, targets, lossless_singleton, clone, varDecl.injEq]
    unfold VarDeclStmt.clone VarDeclStmt.infos
    rw [VarDeclStmt.mk.injEq, Expr.map_clone_eq_iff]
    simp
  | assign location targets value => by
    rw [locations, infos, Stmt.targets, lossless_singleton, clone, assign.injEq,
      AssignTarget.map_clone_eq_iff, Expr.clone_eq_iff, Expr.unannotated_append]
    tauto
  | structFieldAssign location object field value => by
    rw [locations, infos, targets, lossless_singleton, clone, structFieldAssign.injEq,
      Expr.clone_eq_iff, Expr.clone_eq_iff, Expr.unannotated_append]
    simp
  | expr location expression => by
    rw [locations, infos, targets, lossless_singleton, clone, expr.injEq, Expr.clone_eq_iff]
    simp
  | ifStmt location condition thenBody elseBody => by
    have hsplit : Lossless (ifStmt location condition thenBody elseBody).locations
        (ifStmt location condition thenBody elseBody).infos
        (ifStmt location condition thenBody elseBody).targets ↔
        Lossless [location] condition.infos [] ∧
          Lossless (locationsList thenBody) (infosList thenBody) (targetsList thenBody) ∧
          Lossless (locationsList elseBody) (infosList elseBody) (targetsList elseBody) := by
      rw [← lossless_append, ← lossless_append]
      rfl
    rw [hsplit, lossless_singleton, clone, ifStmt.injEq, Expr.clone_eq_iff,
      cloneList_eq_iff thenBody, cloneList_eq_iff elseBody]
    simp [and_assoc]
  | transition location targetState parameters => by
    rw [locations, infos, targets, lossless_singleton, clone, transition.injEq,
      Expr.cloneList_eq_iff]
    simp
  | terminal location => by
    rw [locations, infos, targets, lossless_singleton, clone, terminal.injEq]
    simp [Expr.Unannotated]

theorem cloneList_eq_iff : ∀ stmts : List Stmt, cloneList stmts = stmts ↔
    Lossless (locationsList stmts) (infosList stmts) (targetsList stmts)
  | [] => ⟨fun _ => ⟨nofun, nofun, nofun⟩, fun _ => rfl⟩
  | stmt :: stmts => by
    rw [cloneList_cons_iff, locationsList, infosList, targetsList, lossless_append,
      clone_eq_iff stmt, cloneList_eq_iff stmts]

end

end Stmt

/-- A clone is the tree itself exactly when no expression is annotated with a type and no statement
has a location. -/
theorem clone_faithful_iff (expr : Expr) (stmt : Stmt) :
    (expr.clone = expr ↔ Expr.Unannotated expr.infos) ∧
      (stmt.clone = stmt ↔ Stmt.Lossless stmt.locations stmt.infos stmt.targets) :=
  ⟨Expr.clone_eq_iff expr, Stmt.clone_eq_iff stmt⟩

/-- The third line of a file is forgotten. -/
theorem not_clone_faithful :
    ¬ ((∀ expr : Expr, expr.clone = expr) ∧ ∀ stmt : Stmt, stmt.clone = stmt) := by
  rintro ⟨-, h⟩
  have hlost := h (.terminal { filename := "main.fal", line := 3, column := 5 })
  rw [Stmt.clone, Stmt.terminal.injEq] at hlost
  exact absurd hlost (by decide)

end FalconLib.Dsl
