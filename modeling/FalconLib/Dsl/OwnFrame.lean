import FalconLib.Dsl.VariableFrame

/-!
# What statements do to the map of a routine call

The body of a routine runs on a map that nothing else can reach. A property that every write
of a block keeps is kept by the block, whatever its expressions and calls do.
-/

namespace FalconLib.Dsl.OwnFrame

open FalconLib.Base
open VariableFrame StmtExecutor

variable {S : Type} {α : Type}

/-- The variables are those of a routine call, and have the property. -/
def Own (P : ParameterMap → Prop) (vars : Variables) : Prop := ∃ env, vars = .own env ∧ P env

abbrev Anything (_ : ParameterMap) : Prop := True

theorem keeps_anything (m : M S α) : Keeps Anything m :=
  ⟨fun _ _ _ _ _ => ⟨trivial, trivial⟩, fun _ _ _ _ _ => trivial⟩

/-- Only what follows matters. -/
theorem bind_anything {β : Type} {m : M S α} {f : α → M S β} {q : β → Prop}
    (hf : ∀ a, Keeps Anything (f a) q) : Keeps Anything (m >>= f) q :=
  Keeps.bind (keeps_anything m) fun a _ => hf a

theorem read_own {env : ParameterMap} {f : ParameterMap → M S α} {q : α → Prop}
    (h : Keeps Anything (f env) q) :
    Keeps Anything (Comp.gets (Variables.own env).read >>= f) q := h

section Statements

variable {P : ParameterMap → Prop} {plain flat : String → Prop} (hs : Stable P plain flat)
include hs

theorem assignVariable_own {vars : Variables} (hv : Own P vars) {name : String} (hn : plain name)
    (value : RuntimeValue) :
    Keeps Anything (assignVariable vars name value : M S Variables) (Own P) := by
  obtain ⟨env, rfl, henv⟩ := hv
  have hwrite : (assignVariable (.own env) name value : M S Variables) =
      pure (.own (env.assign name value)) := rfl
  rw [hwrite]
  exact Keeps.pure ⟨_, rfl, hs.plain env name value hn henv⟩

theorem syncFlatCopy_own {vars : Variables} (hv : Own P vars) {field : String} (hf : flat field)
    (value : RuntimeValue) :
    Keeps Anything (syncFlatCopy vars field value : M S Variables) (Own P) := by
  obtain ⟨env, rfl, henv⟩ := hv
  refine read_own ?_
  split
  · rename_i v hbound
    have hsome : env[field]?.isSome := by
      rw [hbound]
      rfl
    exact Keeps.pure ⟨_, rfl, hs.flat env field value hf hsome henv⟩
  · exact Keeps.pure ⟨env, rfl, henv⟩

variable (ctx : Context S) (h : Handlers S)

theorem execVarDecl_own {vars : Variables} (hv : Own P vars) {stmt : VarDeclStmt}
    (hn : plain stmt.name) : Keeps Anything (execVarDecl ctx h vars stmt) (Own P) :=
  bind_anything fun value => assignVariable_own hs hv hn value

theorem assignTupleTargets_own (id : Nat) (targets : List AssignTarget) (i : Nat)
    {vars : Variables} (hv : Own P vars)
    (ht : ∀ target ∈ targets, target.isFieldTarget = false → plain target.variableName) :
    Keeps Anything (assignTupleTargets ctx h id targets i vars) (Own P) := by
  induction targets generalizing i vars with
  | nil => exact Keeps.pure hv
  | cons target targets ih =>
    obtain ⟨hfirst, hrest⟩ := List.forall_mem_cons.mp ht
    refine Keeps.bind (q := Own P) ?_ fun vars hv => ih (i + 1) hv hrest
    unfold assignTupleTarget
    by_cases hf : target.isFieldTarget
    · rw [if_pos hf]
      split
      · exact bind_anything fun _ => Keeps.pure hv
      · exact Keeps.halt _
    · rw [if_neg hf]
      exact bind_anything fun value =>
        assignVariable_own hs hv (hfirst (Bool.not_eq_true _ ▸ hf)) value

theorem execAssign_own {vars : Variables} (hv : Own P vars) (targets : List AssignTarget)
    (value : Expr)
    (ht : ∀ target ∈ targets, target.isFieldTarget = false → plain target.variableName) :
    Keeps Anything (execAssign ctx h vars targets value) (Own P) := by
  refine bind_anything fun value => ?_
  split
  · exact Keeps.halt _
  · rename_i target
    have hfirst := ht target List.mem_cons_self
    unfold assignSingle
    by_cases hf : target.isFieldTarget
    · rw [if_pos hf]
      split
      · exact bind_anything fun _ => bind_anything fun _ => Keeps.pure hv
      · exact Keeps.throw _
    · rw [if_neg hf]
      exact assignVariable_own hs hv (hfirst (Bool.not_eq_true _ ▸ hf)) value
  · refine bind_anything fun heap => ?_
    split
    · split
      · exact Keeps.throw _
      · split
        · exact assignTupleTargets_own hs ctx h _ _ 0 hv ht
        · exact Keeps.throw _
    · exact Keeps.throw _

theorem execStructFieldAssign_own {vars : Variables} (hv : Own P vars) (object : Expr)
    {field : String} (hf : flat field) (value : Expr) :
    Keeps Anything (execStructFieldAssign ctx h vars object field value) (Own P) := by
  refine bind_anything fun value => ?_
  split
  · exact bind_anything fun _ => bind_anything fun _ => syncFlatCopy_own hs hv hf value
  · exact Keeps.throw _

omit hs in
theorem goOn_own {m : M S Variables} (hm : Keeps Anything m (Own P)) :
    Keeps Anything (goOn m) fun result => Own P result.2 :=
  Keeps.bind hm fun _ hv => Keeps.pure hv

set_option linter.unusedSectionVars false in
mutual

theorem execute_own : ∀ (stmt : Stmt) {vars : Variables}, Own P vars →
    (∀ s ∈ simpleStmts stmt, WritesWithin plain flat s) →
    Keeps Anything (execute ctx h vars stmt) fun result => Own P result.2
  | .varDecl stmt, _, hv, hw =>
    executeWithContext_keeps ctx _ <| goOn_own <|
      execVarDecl_own hs ctx h hv ((hw (.varDecl stmt) List.mem_cons_self).declared _ rfl)
  | .assign location targets value, _, hv, hw =>
    executeWithContext_keeps ctx _ <| goOn_own <|
      execAssign_own hs ctx h hv targets value fun target ht hf =>
        (hw (.assign location targets value) List.mem_cons_self).assigned _ ⟨target, ht, hf, rfl⟩
  | .structFieldAssign location object field value, _, hv, hw =>
    executeWithContext_keeps ctx _ <| goOn_own <|
      execStructFieldAssign_own hs ctx h hv object
        ((hw (.structFieldAssign location object field value) List.mem_cons_self).fields _ rfl)
        value
  | .expr _ _, _, hv, _ =>
    executeWithContext_keeps ctx _ <| bind_anything fun _ => Keeps.pure hv
  | .ifStmt _ _ thenBody elseBody, _, hv, hw => by
    refine executeWithContext_keeps ctx _ (bind_anything fun value => ?_)
    split
    · exact executeBlock_own thenBody hv fun s hm => hw s (List.mem_append_left _ hm)
    · exact executeBlock_own elseBody hv fun s hm => hw s (List.mem_append_right _ hm)
    · exact Keeps.throw _
  | .transition _ _ _, _, hv, _ =>
    executeWithContext_keeps ctx _ <| bind_anything fun _ => Keeps.pure hv
  | .terminal _, _, hv, _ => executeWithContext_keeps ctx _ (Keeps.pure hv)

theorem executeBlock_own : ∀ (stmts : List Stmt) {vars : Variables}, Own P vars →
    (∀ s ∈ blockStmts stmts, WritesWithin plain flat s) →
    Keeps Anything (executeBlock ctx h vars stmts) fun result => Own P result.2
  | [], _, hv, _ => Keeps.pure hv
  | stmt :: stmts, _, hv, hw => by
    refine Keeps.bind (execute_own stmt hv fun s hm => hw s (List.mem_append_left _ hm))
      fun result hv => ?_
    obtain ⟨flow, vars⟩ := result
    cases flow with
    | none => exact executeBlock_own stmts hv fun s hm => hw s (List.mem_append_right _ hm)
    | transition targetState parameters => exact Keeps.pure hv
    | terminal => exact Keeps.pure hv

end

end Statements

end FalconLib.Dsl.OwnFrame
