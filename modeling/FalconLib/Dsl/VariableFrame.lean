import FalconLib.Dsl.Restoration

/-!
# What statements do to the variables of the interpreter

A property of the member map that every write of a block keeps is kept by the block,
on return and on an exception. Expressions and calls write no variable of the map.
-/

namespace FalconLib.Dsl.VariableFrame

open FalconLib.Base
open Coupling Restoration StmtExecutor

variable {S : Type} {α β : Type}

/-- The property survives, and a returned value has `q`. -/
structure Keeps (P : ParameterMap → Prop) (m : M S α) (q : α → Prop := fun _ => True) :
    Prop where
  returns : ∀ w a w', P w.memberVariables → (m w).outcome = .ok a w' →
    P w'.memberVariables ∧ q a
  throws : ∀ w e w', P w.memberVariables → (m w).outcome = .throw e w' → P w'.memberVariables

namespace Keeps

variable {P : ParameterMap → Prop} {q : α → Prop} {q' : β → Prop}

theorem of_restores {m : M S α} (h : Restores m) : Keeps P m := by
  refine ⟨fun w a w' hw ho => ⟨?_, trivial⟩, fun w e w' hw ho => ?_⟩
  · rw [h.ok w a w' ho]
    exact hw
  · rw [h.throw w e w' ho]
    exact hw

theorem pure {a : α} (h : q a) : Keeps P (Pure.pure a : M S α) q := by
  refine ⟨fun w b w' hw ho => ?_, fun w e w' _ ho => nomatch ho⟩
  cases ho
  exact ⟨hw, h⟩

theorem throw (e : Exception) : Keeps P (Comp.throw e : M S α) q := by
  refine ⟨fun w a w' _ ho => (nomatch ho), fun w e w' hw ho => ?_⟩
  cases ho
  exact hw

theorem halt (r : Halt) : Keeps P (Comp.halt r : M S α) q :=
  ⟨fun _ _ _ _ ho => (nomatch ho), fun _ _ _ _ ho => nomatch ho⟩

theorem bind {m : M S α} {f : α → M S β} (hm : Keeps P m q)
    (hf : ∀ a, q a → Keeps P (f a) q') : Keeps P (m >>= f) q' := by
  refine ⟨fun w b w' hw ho => ?_, fun w e w' hw ho => ?_⟩
  · obtain ⟨a, t, ha, hb⟩ := Comp.bind_eq_ok ho
    obtain ⟨ht, hq⟩ := hm.returns w a t hw ha
    exact (hf a hq).returns t b w' ht hb
  · rcases Comp.bind_eq_throw ho with ha | ⟨a, t, ha, hb⟩
    · exact hm.throws w e w' hw ha
    · obtain ⟨ht, hq⟩ := hm.returns w a t hw ha
      exact (hf a hq).throws t e w' ht hb

theorem tryCatch {m : M S α} {f : Exception → M S α} (hm : Keeps P m q)
    (hf : ∀ e, Keeps P (f e) q) : Keeps P (m.tryCatch f) q := by
  refine ⟨fun w a w' hw ho => ?_, fun w e w' hw ho => ?_⟩
  · rcases Comp.tryCatch_eq_ok ho with ha | ⟨e, t, he, ha⟩
    · exact hm.returns w a w' hw ha
    · exact (hf e).returns t a w' (hm.throws w e t hw he) ha
  · obtain ⟨e', t, he, ha⟩ := Comp.tryCatch_eq_throw ho
    exact (hf e').throws t e w' (hm.throws w e' t hw he) ha

/-- What follows a read of the variables may use that they have the property. -/
theorem gets_bind {f : ParameterMap → M S α}
    (hf : ∀ map, P map → Keeps P (f map) q) :
    Keeps P (Comp.gets World.memberVariables >>= f) q := by
  refine ⟨fun w a w' hw ho => ?_, fun w e w' hw ho => ?_⟩
  · exact (hf w.memberVariables hw).returns w a w' hw ho
  · exact (hf w.memberVariables hw).throws w e w' hw ho

theorem setVariables {map : ParameterMap} (h : P map) :
    Keeps P (Interpreter.setVariables map : M S Unit) := by
  refine ⟨fun w a w' _ ho => ?_, fun w e w' _ ho => nomatch ho⟩
  cases ho
  exact ⟨h, trivial⟩

end Keeps

/-! ## The writes of a block -/

mutual

/-- The statements other than `if` at any depth. -/
def simpleStmts : Stmt → List Stmt
  | .ifStmt _ _ thenBody elseBody => blockStmts thenBody ++ blockStmts elseBody
  | stmt => [stmt]

def blockStmts : List Stmt → List Stmt
  | [] => []
  | stmt :: stmts => simpleStmts stmt ++ blockStmts stmts

end

/-- A statement declares the variable. -/
def Declares (n : String) : Stmt → Prop
  | .varDecl stmt => stmt.name = n
  | _ => False

/-- A statement assigns the variable. -/
def Assigns (n : String) : Stmt → Prop
  | .assign _ targets _ =>
    ∃ target ∈ targets, target.isFieldTarget = false ∧ target.variableName = n
  | _ => False

/-- A statement assigns a field of the name to some struct. -/
def AssignsField (n : String) : Stmt → Prop
  | .structFieldAssign _ _ field _ => field = n
  | _ => False

/-- A statement declares or assigns only `plain` variables, and assigns only fields
called by a name in `flat`. -/
structure WritesWithin (plain flat : String → Prop) (s : Stmt) : Prop where
  declared : ∀ n, Declares n s → plain n
  assigned : ∀ n, Assigns n s → plain n
  fields : ∀ n, AssignsField n s → flat n

/-- Writing a plain variable keeps `P`; so does writing one called like a flat field, if
it is bound already. -/
structure Stable (P : ParameterMap → Prop) (plain flat : String → Prop) : Prop where
  plain : ∀ map name value, plain name → P map → P (map.assign name value)
  flat : ∀ map name value, flat name → map[name]?.isSome → P map → P (map.assign name value)

section Statements

variable {P : ParameterMap → Prop} {plain flat : String → Prop} (hs : Stable P plain flat)

theorem setField_keeps (id : Nat) (name : String) (value : RuntimeValue) :
    Keeps P (setField id name value : M S Unit) :=
  .of_restores (restores_of_alike fun _ => setField_agree id name value)

theorem structVariable_keeps (name undefinedMessage : String) (notStruct : Exception) :
    Keeps P (structVariable .member name undefinedMessage notStruct : M S Nat) := by
  refine Keeps.gets_bind fun map _ => ?_
  split
  · exact Keeps.throw _
  · refine Keeps.bind (Keeps.of_restores (restores_of_alike fun _ => structAt_agree _))
      fun found _ => ?_
    split
    · exact Keeps.pure trivial
    · exact Keeps.throw _
  · exact Keeps.throw _

include hs

theorem assignVariable_keeps {name : String} (hn : plain name) (value : RuntimeValue) :
    Keeps P (assignVariable .member name value : M S Variables) (· = .member) :=
  Keeps.gets_bind fun map hm =>
    Keeps.bind (Keeps.setVariables (hs.plain map name value hn hm)) fun _ _ => Keeps.pure rfl

theorem syncFlatCopy_keeps {field : String} (hf : flat field) (value : RuntimeValue) :
    Keeps P (syncFlatCopy .member field value : M S Variables) (· = .member) := by
  refine Keeps.gets_bind fun map hm => ?_
  split
  · rename_i v hv
    have hsome : map[field]?.isSome := by
      rw [hv]
      rfl
    exact Keeps.bind (Keeps.setVariables (hs.flat map field value hf hsome hm)) fun _ _ =>
      Keeps.pure rfl
  · exact Keeps.pure rfl

variable (ctx : Context S) (fuel : Nat)

omit hs in
theorem evaluate_keeps (e : Expr) :
    Keeps P (ExprEvaluator.evaluate ctx (Interpreter.handlers ctx fuel) .member e) :=
  .of_restores (evaluate_restores ctx fuel .member e)

omit hs in
theorem evaluateList_keeps (es : List Expr) :
    Keeps P (ExprEvaluator.evaluateList ctx (Interpreter.handlers ctx fuel) .member es) := by
  induction es with
  | nil => exact Keeps.pure trivial
  | cons e es ih =>
    exact Keeps.bind (evaluate_keeps ctx fuel e) fun _ _ =>
      Keeps.bind ih fun _ _ => Keeps.pure trivial

theorem execVarDecl_keeps {stmt : VarDeclStmt} (hn : plain stmt.name) :
    Keeps P (execVarDecl ctx (Interpreter.handlers ctx fuel) .member stmt) (· = .member) := by
  refine Keeps.bind (q := fun _ => True) ?_ fun value _ => assignVariable_keeps hs hn value
  unfold initialValue
  split
  · exact evaluate_keeps ctx fuel _
  · exact .of_restores (restores_of_alike fun _ => defaultInitial_agree stmt)

omit hs in
theorem tupleValue_keeps (id i : Nat) : Keeps P (tupleValue id i : M S RuntimeValue) :=
  .of_restores (restores_of_alike fun _ => tupleValue_agree id i)

omit hs in
theorem assignFieldTarget_keeps (object : Expr) (fieldName : String) (id i : Nat) :
    Keeps P (assignFieldTarget ctx (Interpreter.handlers ctx fuel) .member object fieldName
      (tupleValue id i)) := by
  refine Keeps.bind (evaluate_keeps ctx fuel object) fun value _ => ?_
  split
  · split
    · exact Keeps.bind (structVariable_keeps _ _ _) fun _ _ =>
        Keeps.bind (tupleValue_keeps id i) fun _ _ => setField_keeps _ _ _
    · exact Keeps.throw _
  · exact Keeps.throw _

theorem assignTupleTargets_keeps (id : Nat) (targets : List AssignTarget) (i : Nat)
    (ht : ∀ target ∈ targets, target.isFieldTarget = false → plain target.variableName) :
    Keeps P (assignTupleTargets ctx (Interpreter.handlers ctx fuel) id targets i .member)
      (· = .member) := by
  induction targets generalizing i with
  | nil => exact Keeps.pure rfl
  | cons target targets ih =>
    obtain ⟨hfirst, hrest⟩ := List.forall_mem_cons.mp ht
    refine Keeps.bind (q := (· = .member)) ?_ fun vars hv => hv ▸ ih (i + 1) hrest
    unfold assignTupleTarget
    by_cases hf : target.isFieldTarget
    · rw [if_pos hf]
      split
      · exact Keeps.bind (assignFieldTarget_keeps ctx fuel _ _ id i) fun _ _ => Keeps.pure rfl
      · exact Keeps.halt _
    · rw [if_neg hf]
      exact Keeps.bind (tupleValue_keeps id i) fun value _ =>
        assignVariable_keeps hs (hfirst (Bool.not_eq_true _ ▸ hf)) value

theorem execAssign_keeps (targets : List AssignTarget) (value : Expr)
    (ht : ∀ target ∈ targets, target.isFieldTarget = false → plain target.variableName) :
    Keeps P (execAssign ctx (Interpreter.handlers ctx fuel) .member targets value)
      (· = .member) := by
  refine Keeps.bind (evaluate_keeps ctx fuel value) fun value _ => ?_
  split
  · exact Keeps.halt _
  · rename_i target
    have hfirst := ht target List.mem_cons_self
    unfold assignSingle
    by_cases hf : target.isFieldTarget
    · rw [if_pos hf]
      split
      · exact Keeps.bind (structVariable_keeps _ _ _) fun _ _ =>
          Keeps.bind (setField_keeps _ _ _) fun _ _ => Keeps.pure rfl
      · exact Keeps.throw _
    · rw [if_neg hf]
      exact assignVariable_keeps hs (hfirst (Bool.not_eq_true _ ▸ hf)) value
  · refine Keeps.bind (Keeps.of_restores (restores_of_alike fun _ => getHeap_agree))
      fun heap _ => ?_
    split
    · split
      · exact Keeps.throw _
      · split
        · exact assignTupleTargets_keeps hs ctx fuel _ _ 0 ht
        · exact Keeps.throw _
    · exact Keeps.throw _

theorem execStructFieldAssign_keeps (object : Expr) {field : String} (hf : flat field)
    (value : Expr) :
    Keeps P (execStructFieldAssign ctx (Interpreter.handlers ctx fuel) .member object field value)
      (· = .member) := by
  refine Keeps.bind (evaluate_keeps ctx fuel value) fun value _ => ?_
  split
  · exact Keeps.bind (structVariable_keeps _ _ _) fun _ _ =>
      Keeps.bind (setField_keeps _ _ _) fun _ _ => syncFlatCopy_keeps hs hf value
  · exact Keeps.throw _

omit hs in
theorem goOn_keeps {m : M S Variables} (h : Keeps P m (· = .member)) :
    Keeps P (goOn m) fun result => result.2 = .member :=
  Keeps.bind h fun _ hv => Keeps.pure hv

omit hs in
theorem executeWithContext_keeps {m : M S α} {q : α → Prop} (location : Location)
    (h : Keeps P m q) : Keeps P (executeWithContext ctx location m) q :=
  Keeps.tryCatch h fun _ => Keeps.throw _

set_option linter.unusedSectionVars false in
mutual

theorem execute_keeps : ∀ stmt : Stmt, (∀ s ∈ simpleStmts stmt, WritesWithin plain flat s) →
    Keeps P (execute ctx (Interpreter.handlers ctx fuel) .member stmt)
      fun result => result.2 = .member
  | .varDecl stmt, h =>
    executeWithContext_keeps ctx _ <| goOn_keeps <|
      execVarDecl_keeps hs ctx fuel ((h (.varDecl stmt) List.mem_cons_self).declared _ rfl)
  | .assign location targets value, h =>
    executeWithContext_keeps ctx _ <| goOn_keeps <|
      execAssign_keeps hs ctx fuel targets value fun target ht hf =>
        (h (.assign location targets value) List.mem_cons_self).assigned _ ⟨target, ht, hf, rfl⟩
  | .structFieldAssign location object field value, h =>
    executeWithContext_keeps ctx _ <| goOn_keeps <|
      execStructFieldAssign_keeps hs ctx fuel object
        ((h (.structFieldAssign location object field value) List.mem_cons_self).fields _ rfl)
        value
  | .expr _ expression, _ =>
    executeWithContext_keeps ctx _ <|
      Keeps.bind (evaluate_keeps ctx fuel expression) fun _ _ => Keeps.pure rfl
  | .ifStmt _ condition thenBody elseBody, h => by
    refine executeWithContext_keeps ctx _ ?_
    refine Keeps.bind (evaluate_keeps ctx fuel condition) fun value _ => ?_
    split
    · exact executeBlock_keeps thenBody fun s hm => h s (List.mem_append_left _ hm)
    · exact executeBlock_keeps elseBody fun s hm => h s (List.mem_append_right _ hm)
    · exact Keeps.throw _
  | .transition _ _ parameters, _ =>
    executeWithContext_keeps ctx _ <|
      Keeps.bind (evaluateList_keeps ctx fuel parameters) fun _ _ => Keeps.pure rfl
  | .terminal _, _ => executeWithContext_keeps ctx _ (Keeps.pure rfl)

theorem executeBlock_keeps : ∀ stmts : List Stmt,
    (∀ s ∈ blockStmts stmts, WritesWithin plain flat s) →
    Keeps P (executeBlock ctx (Interpreter.handlers ctx fuel) .member stmts)
      fun result => result.2 = .member
  | [], _ => Keeps.pure rfl
  | stmt :: stmts, h => by
    refine Keeps.bind (execute_keeps stmt fun s hm => h s (List.mem_append_left _ hm))
      fun result hv => ?_
    obtain ⟨flow, vars⟩ := result
    obtain rfl : vars = .member := hv
    cases flow with
    | none => exact executeBlock_keeps stmts fun s hm => h s (List.mem_append_right _ hm)
    | transition targetState parameters => exact Keeps.pure rfl
    | terminal => exact Keeps.pure rfl

end

end Statements

/-- Every statement keeps to these. -/
theorem writesWithin_all (s : Stmt) : WritesWithin (fun _ => True) (fun _ => True) s :=
  ⟨fun _ _ => trivial, fun _ _ => trivial, fun _ _ => trivial⟩

/-- A block on the map of the interpreter leaves that map. -/
theorem executeBlock_member (ctx : Context S) (fuel : Nat) {stmts : List Stmt}
    {w w' : World S} {flow : ControlFlow} {vars : Variables}
    (ho : (executeBlock ctx (Interpreter.handlers ctx fuel) .member stmts w).outcome =
      .ok (flow, vars) w') : vars = .member := by
  have hs : Stable (fun _ => True) (fun _ => True) fun _ => True :=
    ⟨fun _ _ _ _ _ => trivial, fun _ _ _ _ _ _ => trivial⟩
  exact ((executeBlock_keeps hs ctx fuel stmts fun s _ => writesWithin_all s).returns
    w _ w' trivial ho).2

end FalconLib.Dsl.VariableFrame
