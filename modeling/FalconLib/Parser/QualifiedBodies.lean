import FalconLib.Dsl.Qualification
import FalconLib.Parser.LocalAssignments

/-!
# `this.` in the text of a routine

The text of a struct routine with `this.` before the bare names of fields, and what it is parsed
to. The parser itself puts `this.` before the target of an assignment, but not in `elif` and
`else` branches, which are parsed as statements of a state are.
-/

namespace FalconLib.Parser.QualifiedBodies

open FalconLib.Base (Comp StdMap)
open FalconLib.Dsl
open Qualification
open Events LocalAssignments

/-! ## The text -/

def qualifyDecl (fields : Finset String) (decl : VarDeclSyntax) : VarDeclSyntax :=
  { decl with initializer := decl.initializer.map (qualify fields) }

mutual

def declaredByStatement : Statement → Finset String
  | .varDecl _ decl => {decl.name}
  | .ifThen _ _ thenBody rest => declaredByStatements thenBody ∪ declaredByChain rest
  | _ => ∅

def declaredByStatements : List Statement → Finset String
  | [] => ∅
  | statement :: statements => declaredByStatement statement ∪ declaredByStatements statements

def declaredByChain : ElifChain → Finset String
  | .done => ∅
  | .otherwise body => declaredByStatements body
  | .elif _ thenBody rest => declaredByStatements thenBody ∪ declaredByChain rest

end

mutual

def declaredByRoutineStatement : RoutineStatement → Finset String
  | .varDecl _ decl => {decl.name}
  | .ifThen _ _ thenBody rest => declaredByBody thenBody ∪ declaredByChain rest
  | _ => ∅

def declaredByBody : List RoutineStatement → Finset String
  | [] => ∅
  | statement :: statements => declaredByRoutineStatement statement ∪ declaredByBody statements

end

mutual

/-- A list of several targets cannot have `this.` in it. -/
def qualifyStatement (fields : Finset String) : Statement → Statement
  | .varDecl span decl => .varDecl span (qualifyDecl fields decl)
  | .assign span [(place, name)] value =>
    if name ∈ fields then .fieldAssign span "this" name (qualify fields value)
    else .assign span [(place, name)] (qualify fields value)
  | .assign span targets value => .assign span targets (qualify fields value)
  | .fieldAssign span object field value => .fieldAssign span object field (qualify fields value)
  | .expr span expression => .expr span (qualify fields expression)
  | .transition span target args => .transition span target (qualifyList fields args)
  | .terminal span => .terminal span
  | .ifThen span condition thenBody rest =>
    .ifThen span (qualify fields condition) (qualifyStatements fields thenBody)
      (qualifyChain fields rest)

def qualifyStatements (fields : Finset String) : List Statement → List Statement
  | [] => []
  | statement :: statements =>
    qualifyStatement fields statement ::
      qualifyStatements (fields \ declaredByStatement statement) statements

def qualifyChain (fields : Finset String) : ElifChain → ElifChain
  | .done => .done
  | .otherwise body => .otherwise (qualifyStatements fields body)
  | .elif condition thenBody rest =>
    .elif (qualify fields condition) (qualifyStatements fields thenBody) (qualifyChain fields rest)

end

mutual

def qualifyRoutineStatement (fields : Finset String) : RoutineStatement → RoutineStatement
  | .varDecl span decl => .varDecl span (qualifyDecl fields decl)
  | .assign span name value =>
    if name ∈ fields then .fieldAssign span "this" name (qualify fields value)
    else .assign span name (qualify fields value)
  | .fieldAssign span object field value => .fieldAssign span object field (qualify fields value)
  | .expr span expression => .expr span (qualify fields expression)
  | .ifThen span condition thenBody rest =>
    .ifThen span (qualify fields condition) (qualifyBody fields thenBody) (qualifyChain fields rest)

def qualifyBody (fields : Finset String) : List RoutineStatement → List RoutineStatement
  | [] => []
  | statement :: statements =>
    qualifyRoutineStatement fields statement ::
      qualifyBody (fields \ declaredByRoutineStatement statement) statements

end

def qualifyRoutine (fields : Finset String) (decl : RoutineSyntax) : RoutineSyntax :=
  { decl with body := qualifyBody fields decl.body }

/-- The fields that no parameter of the routine shadows. -/
def unshadowed (t : Tables) (decl : RoutineSyntax) : Finset String :=
  t.structFieldScope \ ((decl.inputs ++ decl.outputs).map (·.name)).toFinset

/-! ## The session in a body -/

/-- In the body of a routine of a struct, with fields that can be assigned. -/
structure Ready (fields : Finset String) (s : Session) : Prop where
  stop : s.stop = none
  inStructRoutine : s.tables.inStructRoutine = true
  scope : fields ⊆ s.tables.structFieldScope
  writable : ∀ name ∈ fields, s.tables.isReadOnly name = false

theorem Ready.mono {fields fields' : Finset String} {s : Session} (h : Ready fields s)
    (hsub : fields' ⊆ fields) : Ready fields' s :=
  ⟨h.stop, h.inStructRoutine, hsub.trans h.scope, fun name hname => h.writable name (hsub hname)⟩

/-- The statements of a body leave the tables as they are. -/
theorem Ready.after_ok {α : Type} {m : Parse α} {events : List Event} {fields : Finset String}
    {s u : Session} {a : α} (h : Ready fields s) (hm : Does m events)
    (hc : ∀ event ∈ events, Checks event) (ho : (m s).outcome = .ok a u) : Ready fields u := by
  have hrun : (runAll events s).outcome = .ok () u := by
    rw [← hm]
    exact Comp.bind_of_ok ho
  obtain ⟨htables, hstop⟩ := tables_of_runAll h.stop hrun
  rw [foldl_eq_of_inStructRoutine h.inStructRoutine hc] at htables
  exact ⟨hstop, htables ▸ h.inStructRoutine, htables ▸ h.scope, htables ▸ h.writable⟩

theorem Ready.declared {fields : Finset String} {s : Session} (h : Ready fields s) {name : String}
    (hname : name ∈ fields) : s.tables.isVariableDeclared name = true := by
  rw [isVariableDeclared_iff]
  exact .inl ⟨h.inStructRoutine, h.scope hname⟩

/-! ## Single statements -/

section Single

variable {fields : Finset String} {s u : Session} {a : Stmt}

theorem varDeclStmt_qualified {span : Span} {decl : VarDeclSyntax}
    (ho : (varDeclStmt span decl s).outcome = .ok a u) :
    (varDeclStmt span (qualifyDecl fields decl) s).outcome = .ok (qualifyStmt fields a) u ∧
      declared a = {decl.name} := by
  obtain ⟨type, t, htype, ho⟩ := Comp.bind_eq_ok ho
  obtain ⟨_, t', haction, ho⟩ := Comp.bind_eq_ok ho
  obtain ⟨tables, t'', htables, ho⟩ := Comp.bind_eq_ok ho
  obtain ⟨_, v, hcheck, ho⟩ := Comp.bind_eq_ok ho
  obtain ⟨_, v', hmodify, ho⟩ := Comp.bind_eq_ok ho
  cases htables
  cases hmodify
  cases ho
  refine ⟨?_, rfl⟩
  refine (Comp.bind_of_ok htype).trans ((Comp.bind_of_ok haction).trans ?_)
  exact Comp.bind_of_ok hcheck

theorem qualifyStmt_assign {location : Location} {name : String} {value : Expr} :
    qualifyStmt fields (.assign location [{ variableName := name }] value) =
      if name ∈ fields then
        .structFieldAssign location (.var {} "this") name (qualify fields value)
      else .assign location [{ variableName := name }] (qualify fields value) := by
  have hfield : assignedField fields [{ variableName := name }] =
      if name ∈ fields then some name else none := by
    by_cases hname : name ∈ fields
    · rw [if_pos hname]
      exact if_pos (Bool.and_eq_true_iff.mpr ⟨rfl, decide_eq_true hname⟩)
    · rw [if_neg hname]
      exact if_neg fun hc => hname (of_decide_eq_true (Bool.and_eq_true_iff.mp hc).2)
  unfold qualifyStmt
  rw [hfield]
  by_cases hname : name ∈ fields
  · rw [if_pos hname, if_pos hname]
  · rw [if_neg hname, if_neg hname]

/-- The parser puts `this.` before the name, or leaves it where it is no such field. -/
theorem bareAssign_qualified (h : Ready fields s) {span : Span} {name : String} {value : Expr}
    (ho : (bareAssign span name value s).outcome = .ok a u) :
    (structRoutineStmt (qualifyRoutineStatement fields (.assign span name value)) s).outcome =
        .ok (qualifyStmt fields a) u ∧ declared a = ∅ := by
  rw [bareAssign, action_bind h.stop] at ho
  change ((if name ∈ s.tables.structFieldScope then _ else _ : Parse Stmt) s).outcome = _ at ho
  by_cases hname : name ∈ fields
  · rw [if_pos (h.scope hname)] at ho
    cases ho
    unfold qualifyRoutineStatement
    rw [if_pos hname]
    exact ⟨rfl, rfl⟩
  · unfold qualifyRoutineStatement
    rw [if_neg hname]
    unfold structRoutineStmt
    rw [bareAssign, action_bind h.stop]
    change ((if name ∈ s.tables.structFieldScope then _ else _ : Parse Stmt) s).outcome = _ ∧ _
    by_cases hscope : name ∈ s.tables.structFieldScope
    · rw [if_pos hscope] at ho ⊢
      cases ho
      exact ⟨rfl, rfl⟩
    · rw [if_neg hscope] at ho ⊢
      split_ifs at ho ⊢ with hdeclared
      · obtain ⟨_, t, hcheck, ho⟩ := Comp.bind_eq_ok ho
        cases ho
        rw [qualifyStmt_assign, if_neg hname]
        exact ⟨Comp.bind_of_ok hcheck, rfl⟩
      · cases ho

/-- In the other branches it is left to the text. -/
theorem assign_qualified (h : Ready fields s) {span place : Span} {name : String} {value : Expr}
    (ho : (stmt (.assign span [(place, name)] value) s).outcome = .ok a u) :
    (stmt (qualifyStatement fields (.assign span [(place, name)] value)) s).outcome =
        .ok (qualifyStmt fields a) u ∧ declared a = ∅ := by
  obtain ⟨targets, t, htargets, hrest⟩ := Comp.bind_eq_ok ho
  cases hrest
  obtain ⟨target, t', htarget, hnil⟩ := Comp.bind_eq_ok htargets
  cases hnil
  have htaken := htarget
  rw [assignTarget, action_bind h.stop] at htarget
  change ((if s.tables.isVariableDeclared name then _ else _ : Parse AssignTarget) s).outcome = _
    at htarget
  split_ifs at htarget with hdeclared
  · obtain ⟨_, v, hcheck, hmade⟩ := Comp.bind_eq_ok htarget
    cases hmade
    rw [qualifyStmt_assign]
    unfold qualifyStatement
    by_cases hname : name ∈ fields
    · rw [if_pos hname, if_pos hname]
      have hclean : (checkReadOnly place name s.tables s).outcome = .ok () s := by
        unfold checkReadOnly
        rw [if_neg (Bool.eq_false_iff.mp (h.writable name hname))]
        rfl
      cases hclean.symm.trans hcheck
      exact ⟨rfl, rfl⟩
    · rw [if_neg hname, if_neg hname]
      refine ⟨?_, rfl⟩
      exact Comp.bind_of_ok ((Comp.bind_of_ok htaken).trans rfl)
  · cases htarget

theorem assignTargetList_length {targets : List (Span × String)} {v : Session}
    {ts : List AssignTarget} (ho : (assignTargetList targets s).outcome = .ok ts v) :
    ts.length = targets.length := by
  induction targets generalizing s ts with
  | nil =>
    cases ho
    rfl
  | cons target targets ih =>
    obtain ⟨first, t, _, ho⟩ := Comp.bind_eq_ok ho
    obtain ⟨rest, t', hrest, ho⟩ := Comp.bind_eq_ok ho
    cases ho
    exact congrArg (· + 1) (ih hrest)

theorem assignAll_qualified {span : Span} {targets : List (Span × String)} {value : Expr}
    (hn : targets.length ≠ 1) (ho : (stmt (.assign span targets value) s).outcome = .ok a u) :
    (stmt (.assign span targets (qualify fields value)) s).outcome =
        .ok (qualifyStmt fields a) u ∧ declared a = ∅ := by
  obtain ⟨ts, t, htargets, hrest⟩ := Comp.bind_eq_ok ho
  cases hrest
  have hnone : assignedField fields ts = none := by
    unfold assignedField
    split
    · exact absurd (assignTargetList_length htargets).symm hn
    · rfl
  unfold qualifyStmt
  rw [hnone]
  exact ⟨Comp.bind_of_ok htargets, rfl⟩

end Single

/-! ## Bodies -/

mutual

theorem stmt_qualified : ∀ (statement : Statement) {fields : Finset String} {s u : Session}
    {a : Stmt}, Ready fields s → (stmt statement s).outcome = .ok a u →
    (stmt (qualifyStatement fields statement) s).outcome = .ok (qualifyStmt fields a) u ∧
      declared a = declaredByStatement statement
  | .varDecl _ _, _, _, _, _, _, ho => varDeclStmt_qualified ho
  | .assign _ [(_, _)] _, _, _, _, _, h, ho => assign_qualified h ho
  | .assign _ [] _, _, _, _, _, _, ho => assignAll_qualified (by decide) ho
  | .assign _ (_ :: _ :: _) _, _, _, _, _, _, ho => assignAll_qualified (by simp) ho
  | .fieldAssign _ _ _ _, _, _, _, _, _, ho => by
    cases ho
    exact ⟨rfl, rfl⟩
  | .expr _ _, _, _, _, _, _, ho => by
    cases ho
    exact ⟨rfl, rfl⟩
  | .transition _ _ _, _, _, _, _, _, ho => by
    cases ho
    exact ⟨rfl, rfl⟩
  | .terminal _, _, _, _, _, _, ho => by
    cases ho
    exact ⟨rfl, rfl⟩
  | .ifThen _ _ thenBody rest, _, _, _, _, h, ho => by
    obtain ⟨first, t, hfirst, ho⟩ := Comp.bind_eq_ok ho
    obtain ⟨second, t', hsecond, ho⟩ := Comp.bind_eq_ok ho
    cases ho
    have h' := h.after_ok (stmtList_does thenBody) (checks_ofStmts thenBody) hfirst
    obtain ⟨hthen, hthenNames⟩ := stmtList_qualified thenBody h hfirst
    obtain ⟨helse, helseNames⟩ := elifChain_qualified rest h' hsecond
    refine ⟨(Comp.bind_of_ok hthen).trans (Comp.bind_of_ok helse), ?_⟩
    exact congrArg₂ (· ∪ ·) hthenNames helseNames

theorem stmtList_qualified : ∀ (statements : List Statement) {fields : Finset String}
    {s u : Session} {as : List Stmt}, Ready fields s → (stmtList statements s).outcome = .ok as u →
    (stmtList (qualifyStatements fields statements) s).outcome = .ok (qualifyBlock fields as) u ∧
      declaredIn as = declaredByStatements statements
  | [], _, _, _, _, _, ho => by
    cases ho
    exact ⟨rfl, rfl⟩
  | statement :: statements, fields, _, _, _, h, ho => by
    obtain ⟨first, t, hfirst, ho⟩ := Comp.bind_eq_ok ho
    obtain ⟨rest, t', hrest, ho⟩ := Comp.bind_eq_ok ho
    cases ho
    have h' := h.after_ok (stmt_does statement) (checks_ofStmt statement) hfirst
    obtain ⟨hstmt, hnames⟩ := stmt_qualified statement h hfirst
    obtain ⟨hstmts, hrestNames⟩ := stmtList_qualified statements
      (h'.mono Finset.sdiff_subset) hrest
    refine ⟨(Comp.bind_of_ok hstmt).trans ((Comp.bind_of_ok hstmts).trans ?_), ?_⟩
    · rw [← hnames]
      rfl
    · exact congrArg₂ (· ∪ ·) hnames hrestNames

theorem elifChain_qualified : ∀ (chain : ElifChain) {fields : Finset String}
    {s u : Session} {as : List Stmt}, Ready fields s → (elifChain chain s).outcome = .ok as u →
    (elifChain (qualifyChain fields chain) s).outcome = .ok (qualifyBlock fields as) u ∧
      declaredIn as = declaredByChain chain
  | .done, _, _, _, _, _, ho => by
    cases ho
    exact ⟨rfl, rfl⟩
  | .otherwise body, _, _, _, _, h, ho => stmtList_qualified body h ho
  | .elif _ thenBody rest, _, _, _, _, h, ho => by
    obtain ⟨first, t, hfirst, ho⟩ := Comp.bind_eq_ok ho
    obtain ⟨second, t', hsecond, ho⟩ := Comp.bind_eq_ok ho
    cases ho
    have h' := h.after_ok (stmtList_does thenBody) (checks_ofStmts thenBody) hfirst
    obtain ⟨hthen, hthenNames⟩ := stmtList_qualified thenBody h hfirst
    obtain ⟨helse, helseNames⟩ := elifChain_qualified rest h' hsecond
    refine ⟨(Comp.bind_of_ok hthen).trans (Comp.bind_of_ok helse), ?_⟩
    exact (Finset.union_empty _).trans (congrArg₂ (· ∪ ·) hthenNames helseNames)

end

mutual

theorem structRoutineStmt_qualified : ∀ (statement : RoutineStatement) {fields : Finset String}
    {s u : Session} {a : Stmt}, Ready fields s →
    (structRoutineStmt statement s).outcome = .ok a u →
    (structRoutineStmt (qualifyRoutineStatement fields statement) s).outcome =
        .ok (qualifyStmt fields a) u ∧ declared a = declaredByRoutineStatement statement
  | .varDecl _ _, _, _, _, _, _, ho => varDeclStmt_qualified ho
  | .assign _ _ _, _, _, _, _, h, ho => bareAssign_qualified h ho
  | .fieldAssign _ _ _ _, _, _, _, _, _, ho => by
    cases ho
    exact ⟨rfl, rfl⟩
  | .expr _ _, _, _, _, _, _, ho => by
    cases ho
    exact ⟨rfl, rfl⟩
  | .ifThen _ _ thenBody rest, _, _, _, _, h, ho => by
    obtain ⟨first, t, hfirst, ho⟩ := Comp.bind_eq_ok ho
    obtain ⟨second, t', hsecond, ho⟩ := Comp.bind_eq_ok ho
    cases ho
    have h' := h.after_ok (routineBody_does thenBody) (checks_ofBody thenBody) hfirst
    obtain ⟨hthen, hthenNames⟩ := routineBody_qualified thenBody h hfirst
    obtain ⟨helse, helseNames⟩ := elifChain_qualified rest h' hsecond
    refine ⟨(Comp.bind_of_ok hthen).trans (Comp.bind_of_ok helse), ?_⟩
    exact congrArg₂ (· ∪ ·) hthenNames helseNames

theorem routineBody_qualified : ∀ (statements : List RoutineStatement) {fields : Finset String}
    {s u : Session} {as : List Stmt}, Ready fields s →
    (routineBody statements s).outcome = .ok as u →
    (routineBody (qualifyBody fields statements) s).outcome = .ok (qualifyBlock fields as) u ∧
      declaredIn as = declaredByBody statements
  | [], _, _, _, _, _, ho => by
    cases ho
    exact ⟨rfl, rfl⟩
  | statement :: statements, fields, _, _, _, h, ho => by
    obtain ⟨first, t, hfirst, ho⟩ := Comp.bind_eq_ok ho
    obtain ⟨rest, t', hrest, ho⟩ := Comp.bind_eq_ok ho
    cases ho
    have h' := h.after_ok (structRoutineStmt_does statement) (checks_ofRoutineStmt statement) hfirst
    obtain ⟨hstmt, hnames⟩ := structRoutineStmt_qualified statement h hfirst
    obtain ⟨hstmts, hrestNames⟩ := routineBody_qualified statements (h'.mono Finset.sdiff_subset)
      hrest
    refine ⟨(Comp.bind_of_ok hstmt).trans ((Comp.bind_of_ok hstmts).trans ?_), ?_⟩
    · rw [← hnames]
      rfl
    · exact congrArg₂ (· ∪ ·) hnames hrestNames

end

/-! ## Routines -/

theorem signature_does (decl : RoutineSyntax) :
    Does (inputParams decl.inputs >>= fun _ => outputParams decl.outputs) (ofSignature decl) := by
  have hdoes := (inputParams_does decl.inputs).bind fun _ => outputParams_does decl.outputs
  rw [List.append_assoc] at hdoes
  exact hdoes

/-- Where the body of a routine begins, the fields that no parameter shadows can be assigned. -/
theorem ready_unshadowed {t : Tables} {s : Session} (decl : RoutineSyntax) (hs : s.stop = none)
    (ht : s.tables = (t.enterStructRoutine.addInputs (decl.inputs.map (·.name))).addOutputs
      (decl.outputs.map (·.name))) : Ready (unshadowed t decl) s where
  stop := hs
  inStructRoutine := congrArg Tables.inStructRoutine ht
  scope := by
    rw [ht]
    exact Finset.sdiff_subset
  writable := by
    intro name hname
    refine Bool.eq_false_iff.mpr fun hread => ?_
    have hparam := List.mem_toFinset.not.mp (Finset.mem_sdiff.mp hname).2
    rw [List.map_append] at hparam
    rcases isReadOnly_iff.mp hread with hinput | hstate
    · have hinputs : s.tables.autotunerInputParams = ∅ ∪ (decl.inputs.map (·.name)).toFinset :=
        congrArg Tables.autotunerInputParams ht
      rw [hinputs, Finset.empty_union, List.mem_toFinset] at hinput
      exact hparam (List.mem_append_left _ hinput)
    · have hparams : s.tables.stateInputParams = ∅ := congrArg Tables.stateInputParams ht
      rw [hparams] at hstate
      exact Finset.notMem_empty _ hstate

/-- The text with `this.` is parsed to the body with `this.`. -/
theorem structRoutine_qualified {decl : RoutineSyntax} {s u : Session} {routine : RoutineDecl}
    (hs : s.stop = none) (ho : (structRoutine decl s).outcome = .ok routine u) :
    (structRoutine (qualifyRoutine (unshadowed s.tables decl) decl) s).outcome =
      .ok (withBody routine (qualifyBlock (unshadowed s.tables decl) routine.body)) u := by
  obtain ⟨_, entered, henter, ho⟩ := Comp.bind_eq_ok ho
  obtain ⟨parsed, left, hdecl, ho⟩ := Comp.bind_eq_ok ho
  obtain ⟨_, u', hleave, ho⟩ := Comp.bind_eq_ok ho
  cases ho
  obtain ⟨inputs, t, hinputs, hdecl⟩ := Comp.bind_eq_ok hdecl
  obtain ⟨outputs, t', houtputs, hdecl⟩ := Comp.bind_eq_ok hdecl
  obtain ⟨body, v, hbody, hdecl⟩ := Comp.bind_eq_ok hdecl
  cases hdecl
  have hentered := henter
  rw [update, action_bind hs] at henter
  cases henter
  let start : Session := { s with tables := s.tables.enterStructRoutine }
  have hrun : (runAll (ofSignature decl) start).outcome = .ok () t' := by
    rw [← signature_does decl]
    exact Comp.bind_of_ok ((Comp.bind_of_ok hinputs).trans houtputs)
  obtain ⟨htables, hstop⟩ := tables_of_runAll (show start.stop = none from hs) hrun
  rw [foldl_ofSignature] at htables
  have hready := ready_unshadowed decl hstop htables
  obtain ⟨hqualified, -⟩ := routineBody_qualified decl.body hready hbody
  refine (Comp.bind_of_ok hentered).trans ?_
  refine (Comp.bind_of_ok (t := left) ?_).trans (Comp.bind_of_ok hleave)
  exact (Comp.bind_of_ok hinputs).trans ((Comp.bind_of_ok houtputs).trans
    (Comp.bind_of_ok hqualified))

/-! ## What the two texts do -/

/-- The outputs of a call, and the receiver after it. -/
def effect {S : Type} (receiver : Nat) :
    Base.Outcome Exception (World S) FunctionResult → Option (FunctionResult × Option StructInstance)
  | .ok outputs w => some (outputs, w.heap.structs[receiver]?)
  | _ => none

/-- `routine Set(int v) -> () { … }` with one statement for its body. -/
def setter (body : RoutineStatement) : RoutineSyntax where
  name := "Set"
  inputs := [{ type := .primitive .int, name := "v" }]
  body := [body]

/-- In a struct with a field `n`. -/
def inCounter : Session := ⟨{ structFieldScope := {"n"} }, "counter.fal", [], none⟩

def counter : StructDecl where
  name := "Counter"
  fields := [{ type := .ofParamType .int, name := "n" }]
  routines := []

/-- A counter that is `0`. -/
def oneCounter : World Unit where
  heap := { structs := [{ typeName := "Counter", fields := StdMap.assign ∅ "n" (.int 0) }] }
  store := ()

def unlinked : Context Unit := { host := Host.unlinked }

/-- `if (v == 0) {} else { n = v; }`. -/
def assignInElse : RoutineStatement :=
  .ifThen {} (.binary {} "==" (.var {} "v") (.literal {} (.int 0))) []
    (.otherwise [.assign {} [({}, "n")] (.var {} "v")])

end FalconLib.Parser.QualifiedBodies
