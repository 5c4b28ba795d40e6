import FalconLib.Parser.Compiler

/-!
# The trees of a declaration

What a declaration is parsed to, when it is, depends on the name of the file and on the fields of
the struct around it. Nothing else of the tables is in the tree.
-/

namespace FalconLib.Parser.Trees

open FalconLib.Base (Comp)
open FalconLib.Dsl

variable {α β : Type}

/-- Sessions in one file and one struct. -/
structure Alike (s s' : Session) : Prop where
  filename : s'.filename = s.filename
  fields : s'.tables.structFieldScope = s.tables.structFieldScope

/-- Where the action returns, it returns the tree of these, and keeps them. -/
def Reads (m : Parse α) (g : String → Finset String → α) : Prop :=
  ∀ s a u, (m s).outcome = .ok a u → a = g s.filename s.tables.structFieldScope ∧ Alike s u

/-- Two runs that return, return the same tree. -/
def SameTree (m : Parse α) : Prop :=
  ∀ s s' a a' u u', Alike s s' → (m s).outcome = .ok a u → (m s').outcome = .ok a' u' →
    a' = a ∧ Alike u u'

theorem Alike.refl (s : Session) : Alike s s := ⟨rfl, rfl⟩

theorem Alike.trans {s t u : Session} (h : Alike s t) (h' : Alike t u) : Alike s u :=
  ⟨h'.filename.trans h.filename, h'.fields.trans h.fields⟩

theorem Alike.symm {s t : Session} (h : Alike s t) : Alike t s :=
  ⟨h.filename.symm, h.fields.symm⟩

namespace SameTree

theorem of_reads {m : Parse α} {g : String → Finset String → α} (h : Reads m g) : SameTree m := by
  intro s s' a a' u u' hs ho ho'
  obtain ⟨rfl, hu⟩ := h s a u ho
  obtain ⟨rfl, hu'⟩ := h s' a' u' ho'
  rw [hs.filename, hs.fields]
  exact ⟨rfl, (hu.symm.trans hs).trans hu'⟩

theorem pure (a : α) : SameTree (Pure.pure a : Parse α) := by
  intro s s' b b' u u' hs ho ho'
  cases ho
  cases ho'
  exact ⟨rfl, hs⟩

theorem bind {m : Parse α} {f : α → Parse β} (hm : SameTree m) (hf : ∀ a, SameTree (f a)) :
    SameTree (m >>= f) := by
  intro s s' b b' u u' hs ho ho'
  obtain ⟨a, t, ha, hb⟩ := Comp.bind_eq_ok ho
  obtain ⟨a', t', ha', hb'⟩ := Comp.bind_eq_ok ho'
  obtain ⟨rfl, ht⟩ := hm s s' a a' t t' hs ha ha'
  exact hf a' t t' b b' u u' ht hb hb'

theorem map {m : Parse α} (hm : SameTree m) (g : α → β) :
    SameTree (m >>= fun a => Pure.pure (g a)) :=
  hm.bind fun _ => pure _

end SameTree

/-! ## Properties of the results -/

/-- Where the action returns, the result has the property. -/
def Yields (m : Parse α) (p : α → Prop) : Prop :=
  ∀ s a u, (m s).outcome = .ok a u → p a

namespace Yields

variable {m : Parse α} {f : α → Parse β} {p : α → Prop} {q : β → Prop}

theorem pure {a : α} (h : p a) : Yields (Pure.pure a) p := by
  intro s b u ho
  cases ho
  exact h

theorem trivial (m : Parse α) : Yields m fun _ => True := fun _ _ _ _ => True.intro

theorem bind (hm : Yields m p) (hf : ∀ a, p a → Yields (f a) q) : Yields (m >>= f) q := by
  intro s b u ho
  obtain ⟨a, t, ha, hb⟩ := Comp.bind_eq_ok ho
  exact hf a (hm s a t ha) t b u hb

/-- Whatever comes first. -/
theorem after (hf : ∀ a, Yields (f a) q) : Yields (m >>= f) q := bind (trivial m) fun a _ => hf a

end Yields

/-! ## Single actions -/

theorem action_ok {s u : Session} {a : Unit} (ho : (action s).outcome = .ok a u) :
    u.tables = s.tables ∧ u.filename = s.filename := by
  unfold action at ho
  rw [Comp.outcome_gets_bind] at ho
  cases hs : s.stop with
  | none =>
    rw [hs] at ho
    cases ho
    exact ⟨rfl, rfl⟩
  | some n =>
    rw [hs] at ho
    cases n with
    | zero => cases ho
    | succ n =>
      cases ho
      exact ⟨rfl, rfl⟩

/-- What follows `action` and a look at the tables. -/
theorem Reads.of_action {f : Tables → Parse α} {g : String → Finset String → α}
    (h : ∀ s, ∀ a u, (f s.tables s).outcome = .ok a u →
      a = g s.filename s.tables.structFieldScope ∧ Alike s u) :
    Reads (action >>= fun _ => getTables >>= f) g := by
  intro s a u ho
  obtain ⟨_, t, haction, ho⟩ := Comp.bind_eq_ok ho
  obtain ⟨htables, hfilename⟩ := action_ok haction
  obtain ⟨ha, hu⟩ := h t a u ho
  rw [htables, hfilename] at ha
  exact ⟨ha, hu.filename.trans hfilename, hu.fields.trans (congrArg _ htables)⟩

theorem genericStruct_sameTree (span : Span) (name : String) (args : List TypeDescriptor) :
    SameTree (genericStruct span name args) := by
  refine .of_reads (g := fun _ _ => TypeDescriptor.makeGenericStruct name args)
    (.of_action fun s a u ho => ?_)
  split_ifs at ho
  · cases hp : s.tables.structGenericParamsMap[name]? with
    | none =>
      rw [hp] at ho
      cases ho
      exact ⟨rfl, .refl _⟩
    | some params =>
      rw [hp] at ho
      dsimp only at ho
      split_ifs at ho
      · cases ho
        exact ⟨rfl, .refl _⟩
      · cases ho
  · cases ho

theorem namedType_sameTree (span : Span) (name : String) : SameTree (namedType span name) := by
  refine .of_reads (g := fun _ _ => TypeDescriptor.makeStruct name) (.of_action fun s a u ho => ?_)
  split_ifs at ho
  · cases ho
    exact ⟨rfl, .refl _⟩
  · cases ho

theorem checkReadOnly_alike {span : Span} {name : String} {t : Tables} {s u : Session} {a : Unit}
    (ho : (checkReadOnly span name t s).outcome = .ok a u) : Alike s u := by
  unfold checkReadOnly at ho
  split_ifs at ho <;> cases ho <;> exact ⟨rfl, rfl⟩

theorem checkRedeclaration_alike {span : Span} {name : String} {t : Tables} {s u : Session}
    {a : Unit} (ho : (checkRedeclaration span name t s).outcome = .ok a u) : Alike s u := by
  unfold checkRedeclaration at ho
  split_ifs at ho <;> cases ho <;> exact ⟨rfl, rfl⟩

theorem fields_declare (t : Tables) (name : String) :
    (t.declare name).structFieldScope = t.structFieldScope := by
  unfold Tables.declare
  split_ifs <;> rfl

theorem assignTarget_sameTree (span : Span) (name : String) :
    SameTree (assignTarget span name) := by
  refine .of_reads (g := fun _ _ => { variableName := name }) (.of_action fun s a u ho => ?_)
  split_ifs at ho
  · obtain ⟨_, t, hcheck, ho⟩ := Comp.bind_eq_ok ho
    cases ho
    exact ⟨rfl, checkReadOnly_alike hcheck⟩
  · cases ho

/-- The one tree that the fields take part in. -/
theorem bareAssign_sameTree (span : Span) (name : String) (value : Expr) :
    SameTree (bareAssign span name value) := by
  refine .of_reads (g := fun filename fields =>
    if name ∈ fields then
      .structFieldAssign ⟨filename, span.firstLine, span.firstColumn⟩ (.var {} "this") name value
    else .assign ⟨filename, span.firstLine, span.firstColumn⟩ [{ variableName := name }] value)
    (.of_action fun s a u ho => ?_)
  obtain ⟨location, t, hlocate, ho⟩ := Comp.bind_eq_ok ho
  cases hlocate
  by_cases hf : name ∈ s.tables.structFieldScope
  · rw [if_pos hf] at ho
    rw [if_pos hf]
    cases ho
    exact ⟨rfl, .refl _⟩
  · rw [if_neg hf] at ho
    rw [if_neg hf]
    split_ifs at ho
    · obtain ⟨_, t, hcheck, ho⟩ := Comp.bind_eq_ok ho
      cases ho
      exact ⟨rfl, checkReadOnly_alike hcheck⟩
    · cases ho

theorem locate_sameTree (span : Span) : SameTree (locate span) := by
  refine .of_reads (g := fun filename _ => ⟨filename, span.firstLine, span.firstColumn⟩) ?_
  intro s a u ho
  cases ho
  exact ⟨rfl, .refl _⟩

theorem update_sameTree {f : Tables → Tables} (hf : ∀ t t', t'.structFieldScope = t.structFieldScope →
    (f t').structFieldScope = (f t).structFieldScope) : SameTree (update f) := by
  intro s s' a a' u u' hs ho ho'
  obtain ⟨_, t, haction, ho⟩ := Comp.bind_eq_ok ho
  obtain ⟨_, t', haction', ho'⟩ := Comp.bind_eq_ok ho'
  obtain ⟨htables, hfilename⟩ := action_ok haction
  obtain ⟨htables', hfilename'⟩ := action_ok haction'
  cases ho
  cases ho'
  refine ⟨rfl, (hfilename'.trans hs.filename).trans hfilename.symm, hf _ _ ?_⟩
  rw [htables, htables', hs.fields]

/-! ## Every declaration -/

mutual

theorem typeSpec_sameTree : ∀ type : TypeSpec, SameTree (typeSpec type)
  | .primitive _ => .pure _
  | .error => .pure _
  | .generic span name args =>
    (typeArgList_sameTree args).bind fun ds => genericStruct_sameTree span name ds
  | .named span name => namedType_sameTree span name

theorem typeArgList_sameTree : ∀ types : List TypeSpec, SameTree (typeArgList types)
  | [] => .pure _
  | type :: types =>
    (typeSpec_sameTree type).bind fun _ => (typeArgList_sameTree types).map _

end

theorem paramList_sameTree (params : List ParamSyntax) : SameTree (paramList params) := by
  induction params with
  | nil => exact .pure _
  | cons param params ih =>
    exact ((typeSpec_sameTree param.type).map _).bind fun _ => ih.map _

theorem declareParams_sameTree (add : Tables → List String → Tables)
    (hadd : ∀ t names, (add t names).structFieldScope = t.structFieldScope)
    (params : List ParamSyntax) : SameTree (declareParams add params) :=
  (paramList_sameTree params).bind fun ps => (update_sameTree fun t t' h => by
    rw [hadd, hadd, h]).bind fun _ => .pure _

theorem varDeclStmt_sameTree (span : Span) (decl : VarDeclSyntax) :
    SameTree (varDeclStmt span decl) := by
  refine (typeSpec_sameTree decl.type).bind fun type => .of_reads (g := fun filename _ =>
    .varDecl
      { location := ⟨filename, span.firstLine, span.firstColumn⟩
        type := type
        name := decl.name
        initializer := decl.initializer }) (.of_action fun s a u ho => ?_)
  obtain ⟨_, t, hcheck, ho⟩ := Comp.bind_eq_ok ho
  obtain ⟨hfilename, hfields⟩ := checkRedeclaration_alike hcheck
  obtain ⟨_, t', hmodify, ho⟩ := Comp.bind_eq_ok ho
  cases hmodify
  obtain ⟨location, t'', hlocate, ho⟩ := Comp.bind_eq_ok ho
  cases hlocate
  cases ho
  refine ⟨?_, hfilename, (fields_declare _ _).trans hfields⟩
  rw [← hfilename]

theorem assignTargetList_sameTree (targets : List (Span × String)) :
    SameTree (assignTargetList targets) := by
  induction targets with
  | nil => exact .pure _
  | cons target targets ih => exact (assignTarget_sameTree _ _).bind fun _ => ih.map _

mutual

theorem stmt_sameTree : ∀ statement : Statement, SameTree (stmt statement)
  | .varDecl span decl => varDeclStmt_sameTree span decl
  | .assign span targets _ =>
    (assignTargetList_sameTree targets).bind fun _ => (locate_sameTree span).map _
  | .fieldAssign span _ _ _ => (locate_sameTree span).map _
  | .expr span _ => (locate_sameTree span).map _
  | .transition span _ _ => (locate_sameTree span).map _
  | .terminal span => (locate_sameTree span).map _
  | .ifThen span _ thenBody rest =>
    (stmtList_sameTree thenBody).bind fun _ => (elifChain_sameTree rest).bind fun _ =>
      (locate_sameTree span).map _

theorem stmtList_sameTree : ∀ statements : List Statement, SameTree (stmtList statements)
  | [] => .pure _
  | statement :: statements =>
    (stmt_sameTree statement).bind fun _ => (stmtList_sameTree statements).map _

theorem elifChain_sameTree : ∀ chain : ElifChain, SameTree (elifChain chain)
  | .done => .pure _
  | .otherwise body => stmtList_sameTree body
  | .elif _ thenBody rest =>
    (stmtList_sameTree thenBody).bind fun _ => (elifChain_sameTree rest).map _

end

mutual

theorem structRoutineStmt_sameTree : ∀ statement : RoutineStatement,
    SameTree (structRoutineStmt statement)
  | .varDecl span decl => varDeclStmt_sameTree span decl
  | .assign span name value => bareAssign_sameTree span name value
  | .fieldAssign span _ _ _ => (locate_sameTree span).map _
  | .expr span _ => (locate_sameTree span).map _
  | .ifThen span _ thenBody rest =>
    (routineBody_sameTree thenBody).bind fun _ => (elifChain_sameTree rest).bind fun _ =>
      (locate_sameTree span).map _

theorem routineBody_sameTree : ∀ statements : List RoutineStatement,
    SameTree (routineBody statements)
  | [] => .pure _
  | statement :: statements =>
    (structRoutineStmt_sameTree statement).bind fun _ => (routineBody_sameTree statements).map _

end

theorem inputParams_sameTree (params : List ParamSyntax) : SameTree (inputParams params) :=
  declareParams_sameTree Tables.addInputs (fun _ _ => rfl) params

theorem outputParams_sameTree (params : List ParamSyntax) : SameTree (outputParams params) :=
  declareParams_sameTree Tables.addOutputs (fun _ _ => rfl) params

theorem stateParams_sameTree (params : List ParamSyntax) : SameTree (stateParams params) :=
  declareParams_sameTree Tables.addStateParams (fun _ _ => rfl) params

theorem routineDecl_sameTree (decl : RoutineSyntax) : SameTree (routineDecl decl) :=
  (inputParams_sameTree decl.inputs).bind fun _ =>
    (outputParams_sameTree decl.outputs).bind fun _ =>
      (routineBody_sameTree decl.body).map _

theorem structFieldList_sameTree (fields : List ParamSyntax) :
    SameTree (structFieldList fields) := by
  induction fields with
  | nil => exact .pure _
  | cons field fields ih =>
    have hadd : SameTree (update (·.addField field.name)) :=
      update_sameTree fun t t' h => congrArg (insert field.name) h
    have hfirst : SameTree (structFieldDecl field) :=
      (typeSpec_sameTree field.type).bind fun _ => hadd.map _
    exact hfirst.bind fun _ => ih.map _

theorem structRoutineList_sameTree (decls : List RoutineSyntax) :
    SameTree (structRoutineList decls) := by
  induction decls with
  | nil => exact .pure _
  | cons decl decls ih =>
    have henter : SameTree (update Tables.enterStructRoutine) := update_sameTree fun _ _ h => h
    have hleave : SameTree (update Tables.leaveStructRoutine) := update_sameTree fun _ _ h => h
    have hfirst : SameTree (structRoutine decl) :=
      henter.bind fun _ => (routineDecl_sameTree decl).bind fun _ => hleave.map _
    exact hfirst.bind fun _ => ih.map _

theorem structDecl_sameTree (decl : StructSyntax) : SameTree (structDecl decl) := by
  have henter : SameTree (update (·.enterStruct decl.name decl.genericParams)) :=
    update_sameTree fun _ _ _ => rfl
  have hleave : SameTree (update Tables.leaveStruct) := update_sameTree fun _ _ _ => rfl
  exact henter.bind fun _ => (structFieldList_sameTree decl.fields).bind fun _ =>
    (structRoutineList_sameTree decl.routines).bind fun _ => hleave.map _

theorem stateList_sameTree (decls : List StateSyntax) : SameTree (stateList decls) := by
  induction decls with
  | nil => exact .pure _
  | cons decl decls ih =>
    have henter : SameTree (update Tables.enterState) := update_sameTree fun _ _ h => h
    have hleave : SameTree (update Tables.leaveState) := update_sameTree fun _ _ h => h
    have hfirst : SameTree (stateDecl decl) :=
      henter.bind fun _ => (stateParams_sameTree decl.params).bind fun _ =>
        (stmtList_sameTree decl.body).bind fun _ => hleave.map _
    exact hfirst.bind fun _ => ih.map _

theorem autotunerDecl_sameTree (decl : AutotunerSyntax) : SameTree (autotunerDecl decl) := by
  have hclear : SameTree (update Tables.clearAutotunerScope) := update_sameTree fun _ _ h => h
  exact hclear.bind fun _ => (inputParams_sameTree decl.inputs).bind fun _ =>
    (outputParams_sameTree decl.outputs).bind fun _ =>
      (stmtList_sameTree decl.varDecls).bind fun _ => (stateList_sameTree decl.states).map _

theorem programItem_sameTree (program : Program) (item : ItemSyntax) :
    SameTree (programItem program item) := by
  cases item with
  | struct decl => exact (structDecl_sameTree decl).map _
  | routine decl => exact (routineDecl_sameTree decl).map _
  | autotuner decl => exact (autotunerDecl_sameTree decl).map _
  | ffImport decl => exact .pure _

end FalconLib.Parser.Trees
