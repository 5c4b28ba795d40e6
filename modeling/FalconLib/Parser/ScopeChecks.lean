import FalconLib.Parser.Compiler
import FalconLib.Dsl.ReadOnlyInputs

/-!
# What the scope checks see

`Parser::error` only records, and the actions go on after it. A program whose parse takes none
of the branches that call it breaks no rule that the tables know of.
-/

namespace FalconLib.Parser.ScopeChecks

open FalconLib.Base (Comp)
open FalconLib.Dsl
open VariableFrame ReadOnlyInputs

/-- An action that returned without a report. -/
def Silent {α : Type} (m : Parse α) (s : Session) (a : α) (s' : Session) : Prop :=
  m s = ⟨[], .ok a s'⟩

theorem Silent.bind {α β : Type} {m : Parse α} {f : α → Parse β} {s u : Session} {b : β}
    (h : Silent (m >>= f) s b u) : ∃ a t, Silent m s a t ∧ Silent (f a) t b u :=
  Comp.bind_eq_silent h

/-! ## Actions that only read the tables -/

theorem Silent.action {s s' : Session} {u : Unit} (h : Silent Parser.action s u s') :
    s'.tables = s.tables := by
  obtain ⟨stop, t, hstop, h⟩ := h.bind
  cases hstop
  cases hs : s.stop with
  | none =>
      rw [hs] at h
      cases h
      rfl
  | some n =>
      rw [hs] at h
      cases n with
      | zero => cases h
      | succ n =>
          cases h
          rfl

theorem Silent.update {f : Tables → Tables} {s s' : Session} {u : Unit}
    (h : Silent (Parser.update f) s u s') : s'.tables = f s.tables := by
  obtain ⟨_, t, haction, h⟩ := h.bind
  cases h
  exact congrArg f haction.action

theorem Silent.getTables {s s' : Session} {t : Tables} (h : Silent Parser.getTables s t s') :
    s.tables = t ∧ s = s' := by
  cases h
  exact ⟨rfl, rfl⟩

theorem Silent.abort {α : Type} {span : Span} {message : String} {s s' : Session} {a : α} :
    ¬Silent (Parser.abort span message : Parse α) s a s' := fun h => nomatch h

theorem Silent.report {span : Span} {message : String} {s s' : Session} {u : Unit} :
    ¬Silent (Parser.report span message) s u s' := fun h => nomatch h

theorem Silent.locate {span : Span} {s s' : Session} {location : Location}
    (h : Silent (Parser.locate span) s location s') : s' = s := by
  cases h
  rfl

theorem genericStruct_tables {span : Span} {name : String} {args : List TypeDescriptor}
    {s s' : Session} {type : TypeDescriptor} (h : Silent (genericStruct span name args) s type s') :
    s'.tables = s.tables := by
  obtain ⟨_, t, haction, h⟩ := h.bind
  obtain ⟨tables, t', htables, h⟩ := h.bind
  obtain ⟨rfl, rfl⟩ := htables.getTables
  rw [← haction.action]
  split_ifs at h
  · cases hparams : t.tables.structGenericParamsMap[name]? with
    | none =>
        rw [hparams] at h
        cases h
        rfl
    | some params =>
        rw [hparams] at h
        simp only at h
        split_ifs at h
        · cases h
          rfl
        · exact absurd h Silent.abort
  · exact absurd h Silent.abort

theorem namedType_tables {span : Span} {name : String} {s s' : Session} {type : TypeDescriptor}
    (h : Silent (namedType span name) s type s') : s'.tables = s.tables := by
  obtain ⟨_, t, haction, h⟩ := h.bind
  obtain ⟨tables, t', htables, h⟩ := h.bind
  obtain ⟨rfl, rfl⟩ := htables.getTables
  rw [← haction.action]
  split_ifs at h
  · cases h
    rfl
  · exact absurd h Silent.abort

mutual

theorem typeSpec_tables : ∀ (type : TypeSpec) {s s' : Session} {d : TypeDescriptor},
    Silent (typeSpec type) s d s' → s'.tables = s.tables
  | .primitive _, _, _, _, h => by
      cases h
      rfl
  | .error, _, _, _, h => by
      cases h
      rfl
  | .generic _ _ args, _, _, _, h => by
      obtain ⟨_, t, hargs, h⟩ := h.bind
      rw [genericStruct_tables h, typeArgList_tables args hargs]
  | .named _ _, _, _, _, h => namedType_tables h

theorem typeArgList_tables : ∀ (types : List TypeSpec) {s s' : Session} {ds : List TypeDescriptor},
    Silent (typeArgList types) s ds s' → s'.tables = s.tables
  | [], _, _, _, h => by
      cases h
      rfl
  | type :: types, _, _, _, h => by
      obtain ⟨_, t, htype, h⟩ := h.bind
      obtain ⟨_, t', htypes, h⟩ := h.bind
      cases h
      rw [typeArgList_tables types htypes, typeSpec_tables type htype]

end

theorem paramList_tables (params : List ParamSyntax) {s s' : Session} {ps : List ParamDecl}
    (h : Silent (paramList params) s ps s') : s'.tables = s.tables := by
  induction params generalizing s ps with
  | nil =>
      cases h
      rfl
  | cons param params ih =>
      obtain ⟨_, t, hparam, h⟩ := h.bind
      obtain ⟨_, t', hparams, h⟩ := h.bind
      obtain ⟨_, t'', htype, hparam⟩ := hparam.bind
      cases h
      cases hparam
      rw [ih hparams, typeSpec_tables _ htype]

theorem declareParams_tables {add : Tables → List String → Tables} {params : List ParamSyntax}
    {s s' : Session} {ps : List ParamDecl} (h : Silent (declareParams add params) s ps s') :
    s'.tables = add s.tables (names ps) := by
  obtain ⟨_, t, hparams, h⟩ := h.bind
  obtain ⟨_, t', hupdate, h⟩ := h.bind
  cases h
  rw [hupdate.update, paramList_tables params hparams]
  rfl

/-! ## Statements -/

/-- The tables after a statement. -/
def afterStmt (t : Tables) (s : Stmt) : Tables :=
  match declaredName s with
  | some name => t.declare name
  | none => t

/-- Each statement passes the checks, on the tables that those before it leave. -/
inductive Checked : Tables → List Stmt → Tables → Prop
  | nil {t : Tables} : Checked t [] t
  | cons {t t' : Tables} {s : Stmt} {stmts : List Stmt}
      (declared : ∀ n, Declares n s → ¬t.isRedeclaration n t.inStateBody)
      (assigned : ∀ n, Assigns n s → ¬t.isReadOnly n)
      (rest : Checked (afterStmt t s) stmts t') : Checked t (s :: stmts) t'

theorem Checked.append {t t' t'' : Tables} {first second : List Stmt} (h : Checked t first t')
    (h' : Checked t' second t'') : Checked t (first ++ second) t'' := by
  induction h with
  | nil => exact h'
  | cons declared assigned _ ih => exact .cons declared assigned (ih h')

/-- A statement that declares and assigns nothing. -/
theorem Checked.idle {t : Tables} {s : Stmt} (hd : ∀ n, ¬Declares n s) (ha : ∀ n, ¬Assigns n s)
    (hs : declaredName s = none) : Checked t [s] t := by
  refine .cons (fun n h => absurd h (hd n)) (fun n h => absurd h (ha n)) ?_
  unfold afterStmt
  rw [hs]
  exact .nil

theorem varDeclStmt_checked {span : Span} {decl : VarDeclSyntax} {s s' : Session} {stmt : Stmt}
    (h : Silent (varDeclStmt span decl) s stmt s') :
    Checked s.tables (simpleStmts stmt) s'.tables := by
  obtain ⟨_, t₁, htype, h⟩ := h.bind
  obtain ⟨_, t₂, haction, h⟩ := h.bind
  obtain ⟨tables, t₃, htables, h⟩ := h.bind
  obtain ⟨rfl, rfl⟩ := htables.getTables
  obtain ⟨_, t₄, hcheck, h⟩ := h.bind
  obtain ⟨_, t₅, hmodify, h⟩ := h.bind
  obtain ⟨_, t₆, hlocate, h⟩ := h.bind
  cases h
  have hsame : t₂.tables = s.tables := haction.action.trans (typeSpec_tables _ htype)
  unfold checkRedeclaration at hcheck
  split_ifs at hcheck with hredeclared
  · exact absurd hcheck Silent.report
  · cases hcheck
    cases hmodify
    cases hlocate
    refine .cons ?_ (fun n ha => ha.elim) ?_
    · rintro n rfl
      rw [← hsame]
      exact hredeclared
    · rw [← hsame]
      exact .nil

theorem checkReadOnly_silent {span : Span} {name : String} {tables : Tables} {s s' : Session}
    {u : Unit} (h : Silent (checkReadOnly span name tables) s u s') :
    s = s' ∧ ¬tables.isReadOnly name := by
  unfold checkReadOnly at h
  split_ifs at h with hreadOnly
  · exact absurd h Silent.report
  · cases h
    exact ⟨rfl, hreadOnly⟩

theorem assignTarget_silent {span : Span} {name : String} {s s' : Session} {target : AssignTarget}
    (h : Silent (assignTarget span name) s target s') :
    s'.tables = s.tables ∧ ¬s.tables.isReadOnly target.variableName := by
  obtain ⟨_, t, haction, h⟩ := h.bind
  obtain ⟨tables, t', htables, h⟩ := h.bind
  obtain ⟨rfl, rfl⟩ := htables.getTables
  split_ifs at h
  · obtain ⟨_, t₁, hcheck, h⟩ := h.bind
    obtain ⟨rfl, hreadOnly⟩ := checkReadOnly_silent hcheck
    cases h
    rw [haction.action] at hreadOnly ⊢
    exact ⟨rfl, hreadOnly⟩
  · exact absurd h Silent.abort

theorem assignTargetList_silent (targets : List (Span × String)) {s s' : Session}
    {found : List AssignTarget} (h : Silent (assignTargetList targets) s found s') :
    s'.tables = s.tables ∧ ∀ target ∈ found, ¬s.tables.isReadOnly target.variableName := by
  induction targets generalizing s found with
  | nil =>
      cases h
      exact ⟨rfl, fun _ hm => absurd hm List.not_mem_nil⟩
  | cons target targets ih =>
      obtain ⟨first, t, hfirst, h⟩ := h.bind
      obtain ⟨rest, t', hrest, h⟩ := h.bind
      cases h
      obtain ⟨hsame, hreadOnly⟩ := assignTarget_silent hfirst
      obtain ⟨htables, hothers⟩ := ih hrest
      rw [hsame] at htables hothers
      exact ⟨htables, List.forall_mem_cons.mpr ⟨hreadOnly, hothers⟩⟩

/-- An assignment to variables that are not read-only. -/
theorem Checked.assign {t : Tables} {location : Location} {targets : List AssignTarget}
    {value : Expr} (h : ∀ target ∈ targets, ¬t.isReadOnly target.variableName) :
    Checked t [.assign location targets value] t := by
  refine .cons (fun n hd => hd.elim) ?_ .nil
  rintro n ⟨target, hm, -, rfl⟩
  exact h target hm

/-- A field assignment, whatever the object is. -/
theorem Checked.fieldAssign {t : Tables} {location : Location} {object : Expr} {field : String}
    {value : Expr} : Checked t [.structFieldAssign location object field value] t :=
  .idle (fun _ hd => hd.elim) (fun _ ha => ha.elim) rfl

theorem bareAssign_checked {span : Span} {name : String} {value : Expr} {s s' : Session}
    {stmt : Stmt} (h : Silent (bareAssign span name value) s stmt s') :
    Checked s.tables (simpleStmts stmt) s'.tables := by
  obtain ⟨_, t, haction, h⟩ := h.bind
  obtain ⟨tables, t', htables, h⟩ := h.bind
  obtain ⟨rfl, rfl⟩ := htables.getTables
  obtain ⟨location, t₁, hlocate, h⟩ := h.bind
  obtain rfl := hlocate.locate
  rw [← haction.action]
  split_ifs at h
  · cases h
    exact .fieldAssign
  · obtain ⟨_, t₂, hcheck, h⟩ := h.bind
    obtain ⟨rfl, hreadOnly⟩ := checkReadOnly_silent hcheck
    cases h
    exact .assign (List.forall_mem_singleton.mpr hreadOnly)
  · exact absurd h Silent.abort

mutual

theorem stmt_checked : ∀ (statement : Statement) {s s' : Session} {a : Stmt},
    Silent (stmt statement) s a s' → Checked s.tables (simpleStmts a) s'.tables
  | .varDecl _ _, _, _, _, h => varDeclStmt_checked h
  | .assign _ targets _, _, _, _, h => by
      obtain ⟨found, t, hfound, h⟩ := h.bind
      obtain ⟨location, t', hlocate, h⟩ := h.bind
      obtain rfl := hlocate.locate
      cases h
      obtain ⟨hsame, hreadOnly⟩ := assignTargetList_silent targets hfound
      rw [hsame]
      exact .assign hreadOnly
  | .fieldAssign _ _ _ _, _, _, _, h => by
      obtain ⟨location, t, hlocate, h⟩ := h.bind
      obtain rfl := hlocate.locate
      cases h
      exact .fieldAssign
  | .expr _ _, _, _, _, h => by
      obtain ⟨location, t, hlocate, h⟩ := h.bind
      obtain rfl := hlocate.locate
      cases h
      exact .idle (fun _ hd => hd.elim) (fun _ ha => ha.elim) rfl
  | .transition _ _ _, _, _, _, h => by
      obtain ⟨location, t, hlocate, h⟩ := h.bind
      obtain rfl := hlocate.locate
      cases h
      exact .idle (fun _ hd => hd.elim) (fun _ ha => ha.elim) rfl
  | .terminal _, _, _, _, h => by
      obtain ⟨location, t, hlocate, h⟩ := h.bind
      obtain rfl := hlocate.locate
      cases h
      exact .idle (fun _ hd => hd.elim) (fun _ ha => ha.elim) rfl
  | .ifThen _ _ thenBody rest, _, _, _, h => by
      obtain ⟨thenStmts, t, hthen, h⟩ := h.bind
      obtain ⟨elseStmts, t', helse, h⟩ := h.bind
      obtain ⟨location, t'', hlocate, h⟩ := h.bind
      obtain rfl := hlocate.locate
      cases h
      exact (stmtList_checked thenBody hthen).append (elifChain_checked rest helse)

theorem stmtList_checked : ∀ (statements : List Statement) {s s' : Session} {as : List Stmt},
    Silent (stmtList statements) s as s' → Checked s.tables (blockStmts as) s'.tables
  | [], _, _, _, h => by
      cases h
      exact .nil
  | statement :: statements, _, _, _, h => by
      obtain ⟨first, t, hfirst, h⟩ := h.bind
      obtain ⟨rest, t', hrest, h⟩ := h.bind
      cases h
      exact (stmt_checked statement hfirst).append (stmtList_checked statements hrest)

theorem elifChain_checked : ∀ (chain : ElifChain) {s s' : Session} {as : List Stmt},
    Silent (elifChain chain) s as s' → Checked s.tables (blockStmts as) s'.tables
  | .done, _, _, _, h => by
      cases h
      exact .nil
  | .otherwise body, _, _, _, h => stmtList_checked body h
  | .elif _ thenBody rest, _, _, _, h => by
      obtain ⟨thenStmts, t, hthen, h⟩ := h.bind
      obtain ⟨elseStmts, t', helse, h⟩ := h.bind
      cases h
      unfold blockStmts simpleStmts
      rw [blockStmts, List.append_nil]
      exact (stmtList_checked thenBody hthen).append (elifChain_checked rest helse)

end

mutual

theorem structRoutineStmt_checked : ∀ (statement : RoutineStatement) {s s' : Session} {a : Stmt},
    Silent (structRoutineStmt statement) s a s' → Checked s.tables (simpleStmts a) s'.tables
  | .varDecl _ _, _, _, _, h => varDeclStmt_checked h
  | .assign _ _ _, _, _, _, h => bareAssign_checked h
  | .fieldAssign _ _ _ _, _, _, _, h => by
      obtain ⟨location, t, hlocate, h⟩ := h.bind
      obtain rfl := hlocate.locate
      cases h
      exact .fieldAssign
  | .expr _ _, _, _, _, h => by
      obtain ⟨location, t, hlocate, h⟩ := h.bind
      obtain rfl := hlocate.locate
      cases h
      exact .idle (fun _ hd => hd.elim) (fun _ ha => ha.elim) rfl
  | .ifThen _ _ thenBody rest, _, _, _, h => by
      obtain ⟨thenStmts, t, hthen, h⟩ := h.bind
      obtain ⟨elseStmts, t', helse, h⟩ := h.bind
      obtain ⟨location, t'', hlocate, h⟩ := h.bind
      obtain rfl := hlocate.locate
      cases h
      exact (routineBody_checked thenBody hthen).append (elifChain_checked rest helse)

theorem routineBody_checked : ∀ (statements : List RoutineStatement) {s s' : Session}
    {as : List Stmt}, Silent (routineBody statements) s as s' →
      Checked s.tables (blockStmts as) s'.tables
  | [], _, _, _, h => by
      cases h
      exact .nil
  | statement :: statements, _, _, _, h => by
      obtain ⟨first, t, hfirst, h⟩ := h.bind
      obtain ⟨rest, t', hrest, h⟩ := h.bind
      cases h
      exact (structRoutineStmt_checked statement hfirst).append
        (routineBody_checked statements hrest)

end

/-! ## Bodies that pass -/

/-- What declarations can do to the tables. -/
structure Extends (t t' : Tables) : Prop where
  inStateBody : t'.inStateBody = t.inStateBody
  inStructRoutine : t'.inStructRoutine = t.inStructRoutine
  inputs : t'.autotunerInputParams = t.autotunerInputParams
  outputs : t'.autotunerOutputParams = t.autotunerOutputParams
  stateParams : t'.stateInputParams = t.stateInputParams
  scope : t.autotunerScope ⊆ t'.autotunerScope
  locals : t.stateLocalScope ⊆ t'.stateLocalScope

theorem Extends.refl (t : Tables) : Extends t t :=
  ⟨rfl, rfl, rfl, rfl, rfl, Finset.Subset.refl _, Finset.Subset.refl _⟩

theorem Extends.trans {t t' t'' : Tables} (h : Extends t t') (h' : Extends t' t'') :
    Extends t t'' :=
  ⟨h'.inStateBody.trans h.inStateBody, h'.inStructRoutine.trans h.inStructRoutine,
    h'.inputs.trans h.inputs, h'.outputs.trans h.outputs, h'.stateParams.trans h.stateParams,
    h.scope.trans h'.scope, h.locals.trans h'.locals⟩

theorem extends_declare (t : Tables) (name : String) : Extends t (t.declare name) := by
  unfold Tables.declare
  split_ifs
  · exact .refl t
  · exact ⟨rfl, rfl, rfl, rfl, rfl, Finset.Subset.refl _, Finset.subset_insert _ _⟩
  · exact ⟨rfl, rfl, rfl, rfl, rfl, Finset.subset_insert _ _, Finset.Subset.refl _⟩

theorem extends_afterStmt (t : Tables) (s : Stmt) : Extends t (afterStmt t s) := by
  unfold afterStmt
  split
  · exact extends_declare t _
  · exact .refl t

theorem Extends.isReadOnly {t t' : Tables} (h : Extends t t') (name : String) :
    t'.isReadOnly name = t.isReadOnly name := by
  unfold Tables.isReadOnly
  rw [h.inputs, h.stateParams]

theorem isRedeclaration_iff {t : Tables} {name : String} :
    t.isRedeclaration name t.inStateBody ↔
      name ∈ t.autotunerScope ∨ name ∈ t.autotunerInputParams ∨ name ∈ t.autotunerOutputParams ∨
        t.inStateBody = true ∧ (name ∈ t.stateInputParams ∨ name ∈ t.stateLocalScope) := by
  simp only [Tables.isRedeclaration, Bool.or_eq_true, Bool.and_eq_true, decide_eq_true_eq, or_assoc]

theorem Extends.isRedeclaration {t t' : Tables} (h : Extends t t') {name : String}
    (hn : t.isRedeclaration name t.inStateBody) : t'.isRedeclaration name t'.inStateBody := by
  rw [isRedeclaration_iff] at hn ⊢
  rw [h.inputs, h.outputs, h.stateParams, h.inStateBody]
  exact hn.imp (@h.scope _) (Or.imp id (Or.imp id (And.imp id (Or.imp id (@h.locals _)))))

theorem Checked.extends {t t' : Tables} {stmts : List Stmt} (h : Checked t stmts t') :
    Extends t t' := by
  induction h with
  | nil => exact .refl _
  | cons _ _ _ ih => exact (extends_afterStmt _ _).trans ih

theorem Checked.assigned {t t' : Tables} {stmts : List Stmt} (h : Checked t stmts t') {s : Stmt}
    (hm : s ∈ stmts) {n : String} (ha : Assigns n s) : ¬t.isReadOnly n := by
  induction h with
  | nil => exact absurd hm List.not_mem_nil
  | cons _ assigned _ ih =>
      rcases List.mem_cons.mp hm with rfl | hm
      · exact assigned n ha
      · rw [← (extends_afterStmt _ _).isReadOnly n]
        exact ih hm

theorem declares_of_declaredName {s : Stmt} {n : String} (h : declaredName s = some n) :
    Declares n s := by
  cases s with
  | varDecl stmt => exact Option.some.inj h
  | _ => cases h

theorem Checked.fresh {t t' : Tables} {stmts : List Stmt} (h : Checked t stmts t') {n : String}
    (hn : n ∈ stmts.filterMap declaredName) : ¬t.isRedeclaration n t.inStateBody := by
  induction h with
  | nil => exact absurd hn List.not_mem_nil
  | @cons t t' s stmts declared _ _ ih =>
      rw [List.mem_filterMap] at hn
      obtain ⟨s', hm, hname⟩ := hn
      rcases List.mem_cons.mp hm with rfl | hm
      · exact declared n (declares_of_declaredName hname)
      · intro hredeclared
        exact ih (List.mem_filterMap.mpr ⟨s', hm, hname⟩)
          ((extends_afterStmt _ _).isRedeclaration hredeclared)

/-- Outside of structs a declared name is one that the next declaration of it finds. -/
theorem isRedeclaration_declare {t : Tables} (h : t.inStructRoutine = false) (name : String) :
    (t.declare name).isRedeclaration name (t.declare name).inStateBody := by
  rw [isRedeclaration_iff]
  unfold Tables.declare
  rw [h]
  by_cases hbody : t.inStateBody
  · rw [if_neg Bool.false_ne_true, if_pos hbody]
    exact .inr (.inr (.inr ⟨hbody, .inr (Finset.mem_insert_self _ _)⟩))
  · rw [if_neg Bool.false_ne_true, if_neg hbody]
    exact .inl (Finset.mem_insert_self _ _)

theorem afterStmt_of_some {t : Tables} {s : Stmt} {n : String} (h : declaredName s = some n) :
    afterStmt t s = t.declare n := by
  unfold afterStmt
  rw [h]

theorem Checked.once {t t' : Tables} {stmts : List Stmt} (h : Checked t stmts t')
    (hs : t.inStructRoutine = false) : (stmts.filterMap declaredName).Nodup := by
  induction h with
  | nil => exact List.nodup_nil
  | @cons t t' s stmts _ _ rest ih =>
      have hrest := ih ((extends_afterStmt t s).inStructRoutine.trans hs)
      cases hname : declaredName s with
      | none => rwa [List.filterMap_cons_none hname]
      | some n =>
          rw [List.filterMap_cons_some hname]
          refine List.nodup_cons.mpr ⟨fun hmem => rest.fresh hmem ?_, hrest⟩
          rw [afterStmt_of_some hname]
          exact isRedeclaration_declare hs n

/-- Outside of states and structs the declared names are on record afterwards. -/
theorem Checked.recorded {t t' : Tables} {stmts : List Stmt} (h : Checked t stmts t')
    (hb : t.inStateBody = false) (hs : t.inStructRoutine = false) {n : String}
    (hn : n ∈ stmts.filterMap declaredName) : n ∈ t'.autotunerScope := by
  induction h with
  | nil => exact absurd hn List.not_mem_nil
  | @cons t t' s stmts _ _ rest ih =>
      rw [List.mem_filterMap] at hn
      obtain ⟨s', hm, hname⟩ := hn
      rcases List.mem_cons.mp hm with rfl | hm
      · refine rest.extends.scope ?_
        rw [afterStmt_of_some hname, Tables.declare, hs, hb]
        exact Finset.mem_insert_self _ _
      · exact ih ((extends_afterStmt t s).inStateBody.trans hb)
          ((extends_afterStmt t s).inStructRoutine.trans hs) (List.mem_filterMap.mpr ⟨s', hm, hname⟩)

/-- The tables have these names as read-only and as names in scope. -/
structure Knows (t : Tables) (readOnly scope : List String) : Prop where
  readOnly : ∀ n ∈ readOnly, t.isReadOnly n
  scope : ∀ n ∈ scope, t.isRedeclaration n t.inStateBody

theorem Checked.cleanBody {t t' : Tables} {body : List Stmt} (h : Checked t (blockStmts body) t')
    {readOnly scope : List String} (hk : Knows t readOnly scope)
    (honce : (declaredNames body).Nodup) : CleanBody readOnly scope body where
  assigned _ hm n ha hn := h.assigned hm ha (hk.readOnly n hn)
  fresh n hd hn := h.fresh hd (hk.scope n hn)
  once := honce

/-! ## Declarations -/

/-- The parser is in neither a state nor a routine of a struct. -/
structure Down (t : Tables) : Prop where
  inStateBody : t.inStateBody = false
  inStructRoutine : t.inStructRoutine = false

theorem knows_params (t : Tables) (inputs outputs : List String) :
    Knows ((t.addInputs inputs).addOutputs outputs) inputs (inputs ++ outputs) := by
  constructor
  · intro n hn
    simp [Tables.isReadOnly, Tables.addInputs, Tables.addOutputs, hn]
  · intro n hn
    rw [isRedeclaration_iff]
    rcases List.mem_append.mp hn with hinput | houtput
    · simp [Tables.addInputs, Tables.addOutputs, hinput]
    · simp [Tables.addInputs, Tables.addOutputs, houtput]

theorem routineDecl_checked {decl : RoutineSyntax} {s s' : Session} {routine : RoutineDecl}
    (h : Silent (routineDecl decl) s routine s') :
    Checked ((s.tables.addInputs (names routine.inputParams)).addOutputs
      (names routine.outputParams)) (blockStmts routine.body) s'.tables := by
  obtain ⟨inputs, t, hinputs, h⟩ := h.bind
  obtain ⟨outputs, t', houtputs, h⟩ := h.bind
  obtain ⟨body, t'', hbody, h⟩ := h.bind
  cases h
  have hchecked := routineBody_checked decl.body hbody
  rwa [declareParams_tables houtputs, declareParams_tables hinputs] at hchecked

theorem routineDecl_clean {decl : RoutineSyntax} {s s' : Session} {routine : RoutineDecl}
    (h : Silent (routineDecl decl) s routine s') (honce : (declaredNames routine.body).Nodup) :
    CleanRoutine routine :=
  (routineDecl_checked h).cleanBody (knows_params _ _ _) honce

/-- Outside of structs no variable is declared twice. -/
theorem routineDecl_once {decl : RoutineSyntax} {s s' : Session} {routine : RoutineDecl}
    (h : Silent (routineDecl decl) s routine s') (hs : s.tables.inStructRoutine = false) :
    (declaredNames routine.body).Nodup :=
  (routineDecl_checked h).once hs

theorem routineDecl_down {decl : RoutineSyntax} {s s' : Session} {routine : RoutineDecl}
    (h : Silent (routineDecl decl) s routine s') (hd : Down s.tables) : Down s'.tables :=
  have hextends := (routineDecl_checked h).extends
  ⟨hextends.inStateBody.trans hd.inStateBody, hextends.inStructRoutine.trans hd.inStructRoutine⟩

/-- What the tables know of the autotuner that is parsed. -/
structure InScope (t : Tables) (inputs outputs varDecls : List String) : Prop extends Down t where
  inputs : ∀ n ∈ inputs, n ∈ t.autotunerInputParams
  outputs : ∀ n ∈ outputs, n ∈ t.autotunerOutputParams
  varDecls : ∀ n ∈ varDecls, n ∈ t.autotunerScope

theorem stateDecl_silent {decl : StateSyntax} {s s' : Session} {state : StateDecl}
    (h : Silent (stateDecl decl) s state s') {inputs outputs varDecls : List String}
    (hk : InScope s.tables inputs outputs varDecls) :
    CleanBody (inputs ++ names state.inputParameters)
      (inputs ++ outputs ++ varDecls ++ names state.inputParameters) state.body ∧
    InScope s'.tables inputs outputs varDecls := by
  obtain ⟨_, t₁, henter, h⟩ := h.bind
  obtain ⟨params, t₂, hparams, h⟩ := h.bind
  obtain ⟨body, t₃, hbody, h⟩ := h.bind
  obtain ⟨_, t₄, hleave, h⟩ := h.bind
  cases h
  have hchecked := stmtList_checked decl.body hbody
  rw [declareParams_tables hparams, henter.update] at hchecked
  constructor
  · refine hchecked.cleanBody ⟨?_, ?_⟩ (hchecked.once hk.inStructRoutine)
    · intro n hn
      rcases List.mem_append.mp hn with hinput | hparam
      · simp [Tables.isReadOnly, Tables.addStateParams, Tables.enterState, Tables.clearStateScope,
          hk.inputs n hinput]
      · simp [Tables.isReadOnly, Tables.addStateParams, Tables.enterState, Tables.clearStateScope,
          hparam]
    · intro n hn
      rw [isRedeclaration_iff]
      simp only [List.mem_append] at hn
      rcases hn with ((hinput | houtput) | hvar) | hparam
      · exact .inr (.inl (hk.inputs n hinput))
      · exact .inr (.inr (.inl (hk.outputs n houtput)))
      · exact .inl (hk.varDecls n hvar)
      · refine .inr (.inr (.inr ⟨rfl, .inl ?_⟩))
        simp [Tables.addStateParams, hparam]
  · have hextends := hchecked.extends
    rw [hleave.update]
    refine ⟨⟨rfl, hextends.inStructRoutine.trans hk.inStructRoutine⟩, ?_, ?_, ?_⟩
    · intro n hn
      exact hextends.inputs.symm ▸ hk.inputs n hn
    · intro n hn
      exact hextends.outputs.symm ▸ hk.outputs n hn
    · intro n hn
      exact hextends.scope (hk.varDecls n hn)

theorem stateList_silent (decls : List StateSyntax) {s s' : Session} {states : List StateDecl}
    (h : Silent (stateList decls) s states s') {inputs outputs varDecls : List String}
    (hk : InScope s.tables inputs outputs varDecls) :
    (∀ state ∈ states, CleanBody (inputs ++ names state.inputParameters)
      (inputs ++ outputs ++ varDecls ++ names state.inputParameters) state.body) ∧
    InScope s'.tables inputs outputs varDecls := by
  induction decls generalizing s states with
  | nil =>
      cases h
      exact ⟨fun _ hm => absurd hm List.not_mem_nil, hk⟩
  | cons decl decls ih =>
      obtain ⟨first, t, hfirst, h⟩ := h.bind
      obtain ⟨rest, t', hrest, h⟩ := h.bind
      cases h
      obtain ⟨hclean, hk⟩ := stateDecl_silent hfirst hk
      obtain ⟨hothers, hk⟩ := ih hrest hk
      exact ⟨List.forall_mem_cons.mpr ⟨hclean, hothers⟩, hk⟩

theorem autotunerDecl_silent {decl : AutotunerSyntax} {s s' : Session} {autotuner : AutotunerDecl}
    (h : Silent (autotunerDecl decl) s autotuner s') (hd : Down s.tables) :
    CleanAutotuner autotuner ∧ Down s'.tables := by
  obtain ⟨_, t₁, hclear, h⟩ := h.bind
  obtain ⟨inputs, t₂, hinputs, h⟩ := h.bind
  obtain ⟨outputs, t₃, houtputs, h⟩ := h.bind
  obtain ⟨varDecls, t₄, hvars, h⟩ := h.bind
  obtain ⟨states, t₅, hstates, h⟩ := h.bind
  cases h
  have hchecked := stmtList_checked decl.varDecls hvars
  rw [declareParams_tables houtputs, declareParams_tables hinputs, hclear.update] at hchecked
  have hextends := hchecked.extends
  have hknows : InScope t₄.tables (names inputs) (names outputs) (declaredNames varDecls) := by
    refine ⟨⟨hextends.inStateBody.trans hd.inStateBody,
      hextends.inStructRoutine.trans hd.inStructRoutine⟩, ?_, ?_, ?_⟩
    · intro n hn
      rw [hextends.inputs]
      simp [Tables.addInputs, Tables.addOutputs, hn]
    · intro n hn
      rw [hextends.outputs]
      simp [Tables.addInputs, Tables.addOutputs, hn]
    · intro n hn
      exact hchecked.recorded hd.inStateBody hd.inStructRoutine hn
  obtain ⟨hclean, hk⟩ := stateList_silent decl.states hstates hknows
  exact ⟨⟨hchecked.cleanBody (knows_params _ _ _) (hchecked.once hd.inStructRoutine), hclean⟩,
    hk.toDown⟩

theorem structFieldList_down (fields : List ParamSyntax) {s s' : Session}
    {decls : List VarDeclStmt} (h : Silent (structFieldList fields) s decls s')
    (hd : Down s.tables) : Down s'.tables := by
  induction fields generalizing s decls with
  | nil =>
      cases h
      exact hd
  | cons field fields ih =>
      obtain ⟨first, t, hfirst, h⟩ := h.bind
      obtain ⟨rest, t', hrest, h⟩ := h.bind
      cases h
      obtain ⟨type, t₁, htype, hfirst⟩ := hfirst.bind
      obtain ⟨_, t₂, hadd, hfirst⟩ := hfirst.bind
      cases hfirst
      refine ih hrest ?_
      rw [hadd.update, typeSpec_tables _ htype]
      exact ⟨hd.inStateBody, hd.inStructRoutine⟩

theorem structRoutineList_silent (decls : List RoutineSyntax) {s s' : Session}
    {routines : List RoutineDecl} (h : Silent (structRoutineList decls) s routines s')
    (hd : Down s.tables) :
    (∀ routine ∈ routines, (declaredNames routine.body).Nodup → CleanRoutine routine) ∧
      Down s'.tables := by
  induction decls generalizing s routines with
  | nil =>
      cases h
      exact ⟨fun _ hm => absurd hm List.not_mem_nil, hd⟩
  | cons decl decls ih =>
      obtain ⟨first, t, hfirst, h⟩ := h.bind
      obtain ⟨rest, t', hrest, h⟩ := h.bind
      cases h
      obtain ⟨_, t₁, henter, hfirst⟩ := hfirst.bind
      obtain ⟨routine, t₂, hroutine, hfirst⟩ := hfirst.bind
      obtain ⟨_, t₃, hleave, hfirst⟩ := hfirst.bind
      cases hfirst
      have hextends := (routineDecl_checked hroutine).extends
      rw [henter.update] at hextends
      have hdown : Down t.tables := by
        rw [hleave.update]
        exact ⟨hextends.inStateBody.trans hd.inStateBody, rfl⟩
      obtain ⟨hothers, hdown⟩ := ih hrest hdown
      exact ⟨List.forall_mem_cons.mpr ⟨routineDecl_clean hroutine, hothers⟩, hdown⟩

theorem structDecl_silent {decl : StructSyntax} {s s' : Session} {struct : StructDecl}
    (h : Silent (structDecl decl) s struct s') (hd : Down s.tables) :
    (∀ routine ∈ struct.routines, (declaredNames routine.body).Nodup → CleanRoutine routine) ∧
      Down s'.tables := by
  obtain ⟨_, t₁, henter, h⟩ := h.bind
  obtain ⟨fields, t₂, hfields, h⟩ := h.bind
  obtain ⟨routines, t₃, hroutines, h⟩ := h.bind
  obtain ⟨_, t₄, hleave, h⟩ := h.bind
  cases h
  have hdown : Down t₁.tables := by
    rw [henter.update]
    exact ⟨hd.inStateBody, hd.inStructRoutine⟩
  obtain ⟨hclean, hdown⟩ :=
    structRoutineList_silent decl.routines hroutines (structFieldList_down _ hfields hdown)
  refine ⟨hclean, ?_⟩
  rw [hleave.update]
  exact ⟨hdown.inStateBody, hdown.inStructRoutine⟩

/-! ## Programs -/

/-- What the checks have seen of a program. -/
structure Seen (program : Program) : Prop where
  autotuners : ∀ autotuner ∈ program.autotuners, CleanAutotuner autotuner
  routines : ∀ routine ∈ program.routines, CleanRoutine routine
  structRoutines : ∀ decl ∈ program.structs, ∀ routine ∈ decl.routines,
    (declaredNames routine.body).Nodup → CleanRoutine routine

theorem programItem_silent {program p : Program} {item : ItemSyntax} {s s' : Session}
    (h : Silent (programItem program item) s p s') (hp : Seen program) (hd : Down s.tables) :
    Seen p ∧ Down s'.tables := by
  cases item with
  | struct decl =>
      obtain ⟨struct, t, hstruct, h⟩ := h.bind
      cases h
      obtain ⟨hclean, hdown⟩ := structDecl_silent hstruct hd
      refine ⟨⟨hp.autotuners, hp.routines, ?_⟩, hdown⟩
      exact List.forall_mem_append.mpr
        ⟨hp.structRoutines, List.forall_mem_singleton.mpr hclean⟩
  | routine decl =>
      obtain ⟨routine, t, hroutine, h⟩ := h.bind
      cases h
      have hclean := routineDecl_clean hroutine (routineDecl_once hroutine hd.inStructRoutine)
      refine ⟨⟨hp.autotuners, ?_, hp.structRoutines⟩, routineDecl_down hroutine hd⟩
      exact List.forall_mem_append.mpr ⟨hp.routines, List.forall_mem_singleton.mpr hclean⟩
  | autotuner decl =>
      obtain ⟨autotuner, t, hautotuner, h⟩ := h.bind
      cases h
      obtain ⟨hclean, hdown⟩ := autotunerDecl_silent hautotuner hd
      refine ⟨⟨?_, hp.routines, hp.structRoutines⟩, hdown⟩
      exact List.forall_mem_append.mpr ⟨hp.autotuners, List.forall_mem_singleton.mpr hclean⟩
  | ffImport decl =>
      cases h
      exact ⟨⟨hp.autotuners, hp.routines, hp.structRoutines⟩, hd⟩

theorem programItems_silent (items : List ItemSyntax) {program p : Program} {s s' : Session}
    (h : Silent (programItems items program) s p s') (hp : Seen program) (hd : Down s.tables) :
    Seen p ∧ Down s'.tables := by
  induction items generalizing program s with
  | nil =>
      cases h
      exact ⟨hp, hd⟩
  | cons item items ih =>
      obtain ⟨next, t, hitem, h⟩ := h.bind
      obtain ⟨hnext, hdown⟩ := programItem_silent hitem hp hd
      exact ih h hnext hdown

/-- The parse takes none of the branches that report and go on. -/
def Unreported (t : Tables) (hints : Finset String) (text : SourceText) : Prop :=
  (program text.derivation (start t hints text)).asked = []

theorem seen_of_unreported {t : Tables} {hints : Finset String} {text : SourceText} {p : Program}
    (hd : Down t) (haccepted : (parseFile t hints text).1.program = some p)
    (hu : Unreported t hints text) : Seen p := by
  obtain ⟨q, s, ho, rfl⟩ := parseFile_accepted haccepted
  have hrun : program text.derivation (start t hints text) = ⟨[], .ok q s⟩ := by
    unfold Unreported at hu
    rcases hresult : program text.derivation (start t hints text) with ⟨asked, o⟩
    rw [hresult] at hu ho
    cases hu
    cases ho
    rfl
  obtain ⟨q', t', hitems, h⟩ := Silent.bind hrun
  obtain ⟨stop, t'', hstop, h⟩ := h.bind
  have hseen : Seen q' := by
    refine (programItems_silent _ hitems ⟨?_, ?_, ?_⟩ ⟨hd.inStateBody, hd.inStructRoutine⟩).1
    · exact fun _ hm => absurd hm List.not_mem_nil
    · exact fun _ hm => absurd hm List.not_mem_nil
    · exact fun _ hm => absurd hm List.not_mem_nil
  cases stop with
  | none =>
    cases h
    exact ⟨hseen.autotuners, hseen.routines, hseen.structRoutines⟩
  | some n => cases h

/-- No statement of an accepted program assigns an input parameter or declares a name twice, and
input parameters keep their values in every run, where the parse reports nothing, the routines
of structs declare no variable twice, and parameters share no names. -/
theorem cleanProgram_of_unreported (t : Tables) (hints : Finset String) (text : SourceText)
    (p : Program) (hd : Down t) (haccepted : (parseFile t hints text).1.program = some p)
    (hu : Unreported t hints text)
    (honce : ∀ decl ∈ p.structs, ∀ routine ∈ decl.routines, (declaredNames routine.body).Nodup) :
    CleanProgram p ∧
      (ApartProgram p → ∀ (S : Type) (ctx : Context S) (fuel : Nat), ProgramKeeps ctx fuel p) := by
  have hseen := seen_of_unreported hd haccepted hu
  have hclean : CleanProgram p := ⟨hseen.autotuners, hseen.routines, fun decl hm routine hr =>
    hseen.structRoutines decl hm routine hr (honce decl hm routine hr)⟩
  exact ⟨hclean, fun ha S ctx fuel => programKeeps hclean ha ctx fuel⟩

/-- An autotuner with one state that assigns a variable. -/
def copying (target : String) : SourceText where
  filename := "copy.fal"
  stem := "copy"
  derivation := { items := [.autotuner {
    name := "Copy"
    inputs := [{ type := .primitive .int, name := "input" }]
    outputs := [{ type := .primitive .int, name := "out" }]
    entryState := "run"
    states := [{
      name := "run"
      body := [.assign {} [({}, target)] (.literal {} (.int 5)), .terminal {}] }] }] }

/-- The program that it is parsed to. -/
def copyingProgram (target : String) : Program where
  moduleName := "copy"
  autotuners := [{
    name := "Copy"
    inputParams := [{ type := .ofParamType .int, name := "input" }]
    outputParams := [{ type := .ofParamType .int, name := "out" }]
    autotunerVariables := []
    entryState := "run"
    entryParameters := []
    states := [{
      name := "run"
      inputParameters := []
      body := [.assign { filename := "copy.fal" } [{ variableName := target }]
        (.literal {} (.int 5)), .terminal { filename := "copy.fal" }] }] }]

theorem accepted_copying_out :
    (parseFile {} ∅ (copying "out")).1.program = some (copyingProgram "out") := by rfl

theorem accepted_copying_input :
    (parseFile {} ∅ (copying "input")).1.program = some (copyingProgram "input") := by rfl

theorem apart_copying : ApartProgram (copyingProgram "out") where
  autotuners := by
    refine List.forall_mem_singleton.mpr ⟨?_, ?_, ?_⟩
    · exact List.forall_mem_singleton.mpr List.nodup_nil
    · exact List.forall_mem_singleton.mpr (List.disjoint_nil_left _)
    · refine List.forall_mem_singleton.mpr fun s hm n hf => ?_
      rcases List.mem_cons.mp hm with rfl | hm
      · exact hf.elim
      · rw [List.mem_singleton.mp hm] at hf
        exact hf.elim
  routines _ hm := absurd hm List.not_mem_nil
  structRoutines _ hm := absurd hm List.not_mem_nil

theorem cleanProgram_of_unreported_copying :
    CleanProgram (copyingProgram "out") ∧
      ProgramKeeps { host := Host.unlinked } 1 (copyingProgram "out") := by
  have h := cleanProgram_of_unreported {} ∅ (copying "out") _ ⟨rfl, rfl⟩ accepted_copying_out rfl
    fun _ hm => absurd hm List.not_mem_nil
  exact ⟨h.1, h.2 apart_copying Unit { host := Host.unlinked } 1⟩

theorem not_cleanProgram_copying :
    ¬∀ (t : Tables) (hints : Finset String) (text : SourceText) (p : Program),
      (parseFile t hints text).1.program = some p → CleanProgram p := by
  intro h
  have hclean := h {} ∅ (copying "input") _ accepted_copying_input
  have hstate := (hclean.autotuners _ List.mem_cons_self).states _ List.mem_cons_self
  exact hstate.assigned _ List.mem_cons_self "input" ⟨_, List.mem_cons_self, rfl, rfl⟩
    List.mem_cons_self

end FalconLib.Parser.ScopeChecks
