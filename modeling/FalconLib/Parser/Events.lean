import FalconLib.Parser.Compiler

/-!
# The actions of a declaration in a row

The errors of a declaration, and the tables that it leaves, come from a list of actions that can
be read off its text. The trees that the actions build play no part in that.
-/

namespace FalconLib.Parser.Events

open FalconLib.Base (Comp)
open FalconLib.Dsl

/-- The actions that only change the tables. -/
inductive Change where
  | addInputs (names : List String)
  | addOutputs (names : List String)
  | addStateParams (names : List String)
  | enterState
  | leaveState
  | clearAutotunerScope
  | enterStruct (name : String) (genericParams : List String)
  | addField (name : String)
  | leaveStruct
  | enterStructRoutine
  | leaveStructRoutine

def Change.apply (t : Tables) : Change → Tables
  | addInputs names => t.addInputs names
  | addOutputs names => t.addOutputs names
  | addStateParams names => t.addStateParams names
  | enterState => t.enterState
  | leaveState => t.leaveState
  | clearAutotunerScope => t.clearAutotunerScope
  | enterStruct name genericParams => t.enterStruct name genericParams
  | addField name => t.addField name
  | leaveStruct => t.leaveStruct
  | enterStructRoutine => t.enterStructRoutine
  | leaveStructRoutine => t.leaveStructRoutine

/-- The actions that deal with the tables. A type argument list counts by its length. -/
inductive Event where
  | generic (span : Span) (name : String) (arity : Nat)
  | named (span : Span) (name : String)
  | declare (span : Span) (name : String)
  | target (span : Span) (name : String)
  | bare (span : Span) (name : String)
  | change (change : Change)

/-! ## Reading the actions off the text -/

mutual

def ofType : TypeSpec → List Event
  | .primitive _ | .error => []
  | .generic span name args => ofTypes args ++ [.generic span name args.length]
  | .named span name => [.named span name]

def ofTypes : List TypeSpec → List Event
  | [] => []
  | type :: types => ofType type ++ ofTypes types

end

def ofParams (params : List ParamSyntax) : List Event := params.flatMap fun param => ofType param.type

def ofVarDecl (decl : VarDeclSyntax) : List Event :=
  ofType decl.type ++ [.declare decl.nameSpan decl.name]

mutual

def ofStmt : Statement → List Event
  | .varDecl _ decl => ofVarDecl decl
  | .assign _ targets _ => targets.map fun target => .target target.1 target.2
  | .fieldAssign _ _ _ _ | .expr _ _ | .transition _ _ _ | .terminal _ => []
  | .ifThen _ _ thenBody rest => ofStmts thenBody ++ ofElif rest

def ofStmts : List Statement → List Event
  | [] => []
  | statement :: statements => ofStmt statement ++ ofStmts statements

def ofElif : ElifChain → List Event
  | .done => []
  | .otherwise body => ofStmts body
  | .elif _ thenBody rest => ofStmts thenBody ++ ofElif rest

end

mutual

def ofRoutineStmt : RoutineStatement → List Event
  | .varDecl _ decl => ofVarDecl decl
  | .assign span name _ => [.bare span name]
  | .fieldAssign _ _ _ _ | .expr _ _ => []
  | .ifThen _ _ thenBody rest => ofBody thenBody ++ ofElif rest

def ofBody : List RoutineStatement → List Event
  | [] => []
  | statement :: statements => ofRoutineStmt statement ++ ofBody statements

end

/-- The actions of a routine before its body. -/
def ofSignature (decl : RoutineSyntax) : List Event :=
  ofParams decl.inputs ++ .change (.addInputs (decl.inputs.map (·.name))) ::
    (ofParams decl.outputs ++ [.change (.addOutputs (decl.outputs.map (·.name)))])

def ofRoutine (decl : RoutineSyntax) : List Event := ofSignature decl ++ ofBody decl.body

def ofField (field : ParamSyntax) : List Event :=
  ofType field.type ++ [.change (.addField field.name)]

def ofStructRoutine (decl : RoutineSyntax) : List Event :=
  .change .enterStructRoutine :: (ofRoutine decl ++ [.change .leaveStructRoutine])

def ofStruct (decl : StructSyntax) : List Event :=
  .change (.enterStruct decl.name decl.genericParams) ::
    (decl.fields.flatMap ofField ++
      (decl.routines.flatMap ofStructRoutine ++ [.change .leaveStruct]))

def ofState (decl : StateSyntax) : List Event :=
  .change .enterState ::
    (ofParams decl.params ++ .change (.addStateParams (decl.params.map (·.name))) ::
      (ofStmts decl.body ++ [.change .leaveState]))

def ofAutotuner (decl : AutotunerSyntax) : List Event :=
  .change .clearAutotunerScope ::
    (ofParams decl.inputs ++ .change (.addInputs (decl.inputs.map (·.name))) ::
      (ofParams decl.outputs ++ .change (.addOutputs (decl.outputs.map (·.name))) ::
        (ofStmts decl.varDecls ++ decl.states.flatMap ofState)))

def ofItem : ItemSyntax → List Event
  | .struct decl => ofStruct decl
  | .routine decl => ofRoutine decl
  | .autotuner decl => ofAutotuner decl
  | .ffImport _ => []

/-! ## Running them -/

/-- The action without its tree. -/
def run : Event → Parse Unit
  | .generic span name arity => do
    let _ ← genericStruct span name (List.replicate arity (.ofParamType .int))
    pure ()
  | .named span name => do
    let _ ← namedType span name
    pure ()
  | .declare span name => do
    action
    let tables ← getTables
    checkRedeclaration span name tables
    modifyTables (·.declare name)
  | .target span name => do
    let _ ← assignTarget span name
    pure ()
  | .bare span name => do
    let _ ← bareAssign span name (.nilLiteral {})
    pure ()
  | .change change => update change.apply

def runAll : List Event → Parse Unit
  | [] => pure ()
  | event :: events => do
    run event
    runAll events

theorem runAll_append (first second : List Event) :
    runAll (first ++ second) = runAll first >>= fun _ => runAll second := by
  induction first with
  | nil => rfl
  | cons event first ih =>
    change (run event >>= fun _ => runAll (first ++ second)) = _
    rw [ih]
    exact (Comp.bind_assoc _ _ _).symm

theorem bind_unit (m : Parse Unit) : (m >>= fun _ => pure ()) = m := by
  funext s
  change Comp.bind m (fun _ => Comp.pure ()) s = m s
  unfold Comp.bind
  rcases m s with ⟨asked, o⟩
  cases o with
  | ok a t => exact congrArg (Base.Run.mk · _) (List.append_nil asked)
  | throw e t => rfl
  | halt r => rfl

theorem runAll_singleton (event : Event) : runAll [event] = run event := bind_unit (run event)

/-- Without its result, the action runs the list. -/
def Does {α : Type} (m : Parse α) (events : List Event) : Prop :=
  (m >>= fun _ => pure ()) = runAll events

namespace Does

variable {α β : Type} {m : Parse α} {f : α → Parse β} {first second : List Event}

theorem pure (a : α) : Does (Pure.pure a : Parse α) [] := rfl

/-- What follows may use what is known of the results. -/
theorem bind_of {q : α → Prop} (hm : Does m first)
    (hq : ∀ s a t, (m s).outcome = .ok a t → q a) (hf : ∀ a, q a → Does (f a) second) :
    Does (m >>= f) (first ++ second) := by
  have hrest : (m >>= fun a => f a >>= fun _ => (Pure.pure () : Parse Unit)) =
      m >>= fun _ => runAll second :=
    funext fun s => Comp.bind_congr fun a t ho => congrFun (hf a (hq s a t ho)) t
  have hfirst : (m >>= fun _ => runAll second) =
      (m >>= fun _ => (Pure.pure () : Parse Unit)) >>= fun _ => runAll second :=
    (Comp.bind_assoc m (fun _ => Pure.pure ()) fun _ => runAll second).symm
  unfold Does
  rw [Comp.bind_assoc, hrest, hfirst, runAll_append]
  exact congrArg (fun n : Parse Unit => n >>= fun _ => runAll second) hm

theorem bind (hm : Does m first) (hf : ∀ a, Does (f a) second) :
    Does (m >>= f) (first ++ second) :=
  hm.bind_of (fun _ _ _ _ => trivial) fun a _ => hf a

theorem last (hm : Does m first) (hf : ∀ a, Does (f a) []) : Does (m >>= f) first := by
  have hdoes := hm.bind hf
  rwa [List.append_nil] at hdoes

/-- A last step that builds a tree. -/
theorem map (hm : Does m first) (g : α → β) : Does (m >>= fun a => Pure.pure (g a)) first :=
  hm.last fun a => pure (g a)

theorem locate (span : Span) : Does (Parser.locate span) [] := rfl

theorem of_locate {span : Span} {f : Location → Parse β} (hf : ∀ location, Does (f location) first) :
    Does (Parser.locate span >>= f) first :=
  (locate span).bind hf

theorem of_run {event : Event} (h : (m >>= fun _ => Pure.pure ()) = run event) : Does m [event] :=
  h.trans (runAll_singleton event).symm

theorem update (c : Change) : Does (Parser.update c.apply) [.change c] := of_run (bind_unit _)

end Does

/-! ## Every declaration runs its list -/

theorem typeArgList_length (types : List TypeSpec) {s s' : Session} {args : List TypeDescriptor}
    (ho : (typeArgList types s).outcome = .ok args s') : args.length = types.length := by
  induction types generalizing s args with
  | nil =>
    cases ho
    rfl
  | cons type types ih =>
    obtain ⟨first, t, _, ho⟩ := Comp.bind_eq_ok ho
    obtain ⟨rest, t', hrest, ho⟩ := Comp.bind_eq_ok ho
    cases ho
    exact congrArg (· + 1) (ih hrest)

/-- Only the number of the arguments counts. -/
theorem genericStruct_does (span : Span) (name : String) {args : List TypeDescriptor} {arity : Nat}
    (h : args.length = arity) : Does (genericStruct span name args) [.generic span name arity] := by
  refine .of_run ?_
  change (genericStruct span name args >>= fun _ => pure ()) =
    genericStruct span name (List.replicate arity (.ofParamType .int)) >>= fun _ => pure ()
  unfold genericStruct
  simp only [Comp.bind_assoc]
  refine congrArg (action >>= ·) (funext fun _ => congrArg (getTables >>= ·) (funext fun tables => ?_))
  by_cases hk : name ∈ tables.structKnownTypes
  · rw [if_pos hk, if_pos hk]
    cases tables.structGenericParamsMap[name]? with
    | none => rfl
    | some params =>
      dsimp only
      rw [List.length_replicate, h]
      by_cases hl : arity = params.length
      · rw [if_pos hl, if_pos hl]
        rfl
      · rw [if_neg hl, if_neg hl]
  · rw [if_neg hk, if_neg hk]

mutual

theorem typeSpec_does : ∀ type : TypeSpec, Does (typeSpec type) (ofType type)
  | .primitive _ => .pure _
  | .error => .pure _
  | .generic span name args =>
    (typeArgList_does args).bind_of (q := fun ds => ds.length = args.length)
      (fun _ _ _ ho => typeArgList_length args ho) fun _ hl => genericStruct_does span name hl
  | .named _ _ => .of_run rfl

theorem typeArgList_does : ∀ types : List TypeSpec, Does (typeArgList types) (ofTypes types)
  | [] => .pure _
  | type :: types =>
    (typeSpec_does type).bind fun _ => (typeArgList_does types).map _

end

theorem paramList_names (params : List ParamSyntax) {s s' : Session} {ps : List ParamDecl}
    (ho : (paramList params s).outcome = .ok ps s') : ps.map (·.name) = params.map (·.name) := by
  induction params generalizing s ps with
  | nil =>
    cases ho
    rfl
  | cons param params ih =>
    obtain ⟨first, t, hfirst, ho⟩ := Comp.bind_eq_ok ho
    obtain ⟨rest, t', hrest, ho⟩ := Comp.bind_eq_ok ho
    obtain ⟨type, t'', _, hfirst⟩ := Comp.bind_eq_ok hfirst
    cases ho
    cases hfirst
    exact congrArg (param.name :: ·) (ih hrest)

theorem paramList_does (params : List ParamSyntax) : Does (paramList params) (ofParams params) := by
  induction params with
  | nil => exact .pure _
  | cons param params ih =>
    have hfirst : Does (paramDecl param) (ofType param.type) := (typeSpec_does param.type).map _
    exact hfirst.bind fun _ => ih.map _

theorem declareParams_does {add : Tables → List String → Tables} (c : List String → Change)
    (hc : ∀ names, (c names).apply = (add · names)) (params : List ParamSyntax) :
    Does (declareParams add params) (ofParams params ++ [.change (c (params.map (·.name)))]) := by
  refine (paramList_does params).bind_of (fun _ _ _ ho => paramList_names params ho) fun ps hp => ?_
  rw [hp, ← hc]
  exact (Does.update _).map _

theorem varDeclStmt_does (span : Span) (decl : VarDeclSyntax) :
    Does (varDeclStmt span decl) (ofVarDecl decl) := by
  refine (typeSpec_does decl.type).bind fun type => .of_run ?_
  change _ = action >>= fun _ => getTables >>= fun tables =>
    checkRedeclaration decl.nameSpan decl.name tables >>= fun _ => modifyTables (·.declare decl.name)
  simp only [Comp.bind_assoc]
  rfl

theorem assignTargetList_does (targets : List (Span × String)) :
    Does (assignTargetList targets) (targets.map fun target => .target target.1 target.2) := by
  induction targets with
  | nil => exact .pure _
  | cons target targets ih =>
    have hfirst : Does (assignTarget target.1 target.2) [.target target.1 target.2] := .of_run rfl
    exact hfirst.bind fun _ => ih.map _

/-- The tree of the value is not looked at. -/
theorem bareAssign_does (span : Span) (name : String) (value : Expr) :
    Does (bareAssign span name value) [.bare span name] := by
  refine .of_run ?_
  change (bareAssign span name value >>= fun _ => pure ()) =
    bareAssign span name (.nilLiteral {}) >>= fun _ => pure ()
  unfold bareAssign
  simp only [Comp.bind_assoc]
  refine congrArg (action >>= ·) (funext fun _ => congrArg (getTables >>= ·) (funext fun tables =>
    congrArg (Parser.locate span >>= ·) (funext fun location => ?_)))
  split_ifs
  · rfl
  · simp only [Comp.bind_assoc]
    rfl
  · rfl

mutual

theorem stmt_does : ∀ statement : Statement, Does (stmt statement) (ofStmt statement)
  | .varDecl span decl => varDeclStmt_does span decl
  | .assign _ targets _ => (assignTargetList_does targets).last fun _ => .of_locate fun _ => .pure _
  | .fieldAssign _ _ _ _ => .of_locate fun _ => .pure _
  | .expr _ _ => .of_locate fun _ => .pure _
  | .transition _ _ _ => .of_locate fun _ => .pure _
  | .terminal _ => .of_locate fun _ => .pure _
  | .ifThen _ _ thenBody rest =>
    (stmtList_does thenBody).bind fun _ =>
      (elifChain_does rest).last fun _ => .of_locate fun _ => .pure _

theorem stmtList_does : ∀ statements : List Statement,
    Does (stmtList statements) (ofStmts statements)
  | [] => .pure _
  | statement :: statements =>
    (stmt_does statement).bind fun _ => (stmtList_does statements).map _

theorem elifChain_does : ∀ chain : ElifChain, Does (elifChain chain) (ofElif chain)
  | .done => .pure _
  | .otherwise body => stmtList_does body
  | .elif _ thenBody rest => (stmtList_does thenBody).bind fun _ => (elifChain_does rest).map _

end

mutual

theorem structRoutineStmt_does : ∀ statement : RoutineStatement,
    Does (structRoutineStmt statement) (ofRoutineStmt statement)
  | .varDecl span decl => varDeclStmt_does span decl
  | .assign span name value => bareAssign_does span name value
  | .fieldAssign _ _ _ _ => .of_locate fun _ => .pure _
  | .expr _ _ => .of_locate fun _ => .pure _
  | .ifThen _ _ thenBody rest =>
    (routineBody_does thenBody).bind fun _ =>
      (elifChain_does rest).last fun _ => .of_locate fun _ => .pure _

theorem routineBody_does : ∀ statements : List RoutineStatement,
    Does (routineBody statements) (ofBody statements)
  | [] => .pure _
  | statement :: statements =>
    (structRoutineStmt_does statement).bind fun _ => (routineBody_does statements).map _

end

theorem inputParams_does (params : List ParamSyntax) :
    Does (inputParams params)
      (ofParams params ++ [.change (.addInputs (params.map (·.name)))]) :=
  declareParams_does .addInputs (fun _ => rfl) params

theorem outputParams_does (params : List ParamSyntax) :
    Does (outputParams params)
      (ofParams params ++ [.change (.addOutputs (params.map (·.name)))]) :=
  declareParams_does .addOutputs (fun _ => rfl) params

theorem stateParams_does (params : List ParamSyntax) :
    Does (stateParams params)
      (ofParams params ++ [.change (.addStateParams (params.map (·.name)))]) :=
  declareParams_does .addStateParams (fun _ => rfl) params

theorem routineDecl_does (decl : RoutineSyntax) : Does (routineDecl decl) (ofRoutine decl) := by
  have hdoes := (inputParams_does decl.inputs).bind fun inputs =>
    (outputParams_does decl.outputs).bind fun outputs => (routineBody_does decl.body).map fun body =>
      ({ name := decl.name
         inputParams := inputs
         outputParams := outputs
         body := body } : RoutineDecl)
  simp only [List.append_assoc, List.singleton_append] at hdoes
  unfold ofRoutine ofSignature
  simp only [List.append_assoc, List.cons_append, List.nil_append]
  exact hdoes

theorem structFieldList_does (fields : List ParamSyntax) :
    Does (structFieldList fields) (fields.flatMap ofField) := by
  induction fields with
  | nil => exact .pure _
  | cons field fields ih =>
    have hfirst : Does (structFieldDecl field) (ofField field) :=
      (typeSpec_does field.type).bind fun _ => (Does.update (.addField field.name)).map _
    exact hfirst.bind fun _ => ih.map _

theorem structRoutineList_does (decls : List RoutineSyntax) :
    Does (structRoutineList decls) (decls.flatMap ofStructRoutine) := by
  induction decls with
  | nil => exact .pure _
  | cons decl decls ih =>
    have hfirst : Does (structRoutine decl) (ofStructRoutine decl) :=
      (Does.update .enterStructRoutine).bind fun _ => (routineDecl_does decl).bind fun _ =>
        (Does.update .leaveStructRoutine).map _
    exact hfirst.bind fun _ => ih.map _

theorem structDecl_does (decl : StructSyntax) : Does (structDecl decl) (ofStruct decl) :=
  (Does.update (.enterStruct decl.name decl.genericParams)).bind fun _ =>
    (structFieldList_does decl.fields).bind fun _ =>
      (structRoutineList_does decl.routines).bind fun _ => (Does.update .leaveStruct).map _

theorem stateDecl_does (decl : StateSyntax) : Does (stateDecl decl) (ofState decl) := by
  have hdoes := (Does.update .enterState).bind fun _ => (stateParams_does decl.params).bind
    fun params => (stmtList_does decl.body).bind fun body => (Does.update .leaveState).map fun _ =>
      ({ name := decl.name
         inputParameters := params
         body := body } : StateDecl)
  simp only [List.append_assoc, List.singleton_append] at hdoes
  exact hdoes

theorem stateList_does (decls : List StateSyntax) :
    Does (stateList decls) (decls.flatMap ofState) := by
  induction decls with
  | nil => exact .pure _
  | cons decl decls ih => exact (stateDecl_does decl).bind fun _ => ih.map _

theorem autotunerDecl_does (decl : AutotunerSyntax) :
    Does (autotunerDecl decl) (ofAutotuner decl) := by
  have hdoes := (Does.update .clearAutotunerScope).bind fun _ => (inputParams_does decl.inputs).bind
    fun inputs => (outputParams_does decl.outputs).bind fun outputs =>
      (stmtList_does decl.varDecls).bind fun varDecls => (stateList_does decl.states).map fun states =>
        ({ name := decl.name
           inputParams := inputs
           outputParams := outputs
           autotunerVariables := varDecls
           entryState := decl.entryState
           entryParameters := decl.entryParameters
           states := states } : AutotunerDecl)
  simp only [List.append_assoc, List.singleton_append] at hdoes
  exact hdoes

theorem programItem_does (program : Program) (item : ItemSyntax) :
    Does (programItem program item) (ofItem item) := by
  cases item with
  | struct decl => exact (structDecl_does decl).map _
  | routine decl => exact (routineDecl_does decl).map _
  | autotuner decl => exact (autotunerDecl_does decl).map _
  | ffImport decl => exact .pure _

/-! ## What an action does to a session -/

def redeclared (t : Tables) (span : Span) (name : String) : List ParseError :=
  if t.isRedeclaration name t.inStateBody then [⟨span, "Redeclaration of variable: " ++ name⟩]
  else []

def writtenReadOnly (t : Tables) (span : Span) (name : String) : List ParseError :=
  if t.isReadOnly name then [⟨span, "Cannot assign to read-only parameter: " ++ name⟩] else []

/-- An assignment to a variable. -/
def judgeTarget (t : Tables) (span : Span) (name : String) : List ParseError × Option Tables :=
  if t.isVariableDeclared name then (writtenReadOnly t span name, some t)
  else ([⟨span, "Undefined variable: " ++ name⟩], none)

/-- A type with arguments. -/
def judgeGeneric (t : Tables) (span : Span) (name : String) (arity : Nat) :
    List ParseError × Option Tables :=
  if name ∈ t.structKnownTypes then
    match t.structGenericParamsMap[name]? with
    | none => ([], some t)
    | some params =>
      if arity = params.length then ([], some t)
      else
        ([⟨span, "Struct '" ++ name ++ "' expects " ++ toString params.length ++
          " type argument(s) but got " ++ toString arity⟩], none)
  else ([⟨span, "Unknown struct type '" ++ name ++ "'"⟩], none)

def judgeNamed (t : Tables) (span : Span) (name : String) : List ParseError × Option Tables :=
  if name ∈ t.currentGenericParams ∨ name ∈ t.structKnownTypes then ([], some t)
  else
    ([⟨span, "Unknown type '" ++ name ++
      "' — did you forget to declare a struct with this name before use?"⟩], none)

/-- The errors that an action records, and the tables that it leaves if it does not abort. -/
def judge (t : Tables) : Event → List ParseError × Option Tables
  | .generic span name arity => judgeGeneric t span name arity
  | .named span name => judgeNamed t span name
  | .declare span name => (redeclared t span name, some (t.declare name))
  | .target span name => judgeTarget t span name
  | .bare span name => if name ∈ t.structFieldScope then ([], some t) else judgeTarget t span name
  | .change c => ([], some (c.apply t))

def judgeAll (t : Tables) : List Event → List ParseError × Option Tables
  | [] => ([], some t)
  | event :: events =>
    match judge t event with
    | (errors, some t') => (errors ++ (judgeAll t' events).1, (judgeAll t' events).2)
    | (errors, none) => (errors, none)

/-- The session records the errors and goes on with the tables, or aborts. -/
def Ends (s : Session) (verdict : List ParseError × Option Tables)
    (o : Base.Outcome Rejection Session Unit) : Prop :=
  match verdict.2 with
  | some t => o = .ok () { s with
      tables := t
      errors := s.errors ++ verdict.1 }
  | none => ∃ t, o = .throw .aborted { s with
      tables := t
      errors := s.errors ++ verdict.1 }

theorem checkRedeclaration_outcome (span : Span) (name : String) (s : Session) :
    (checkRedeclaration span name s.tables s).outcome =
      .ok () { s with errors := s.errors ++ redeclared s.tables span name } := by
  unfold checkRedeclaration redeclared
  by_cases hr : s.tables.isRedeclaration name s.tables.inStateBody
  · rw [if_pos hr, if_pos hr]
    rfl
  · rw [if_neg hr, if_neg hr, List.append_nil]
    rfl

theorem checkReadOnly_outcome (span : Span) (name : String) (s : Session) :
    (checkReadOnly span name s.tables s).outcome =
      .ok () { s with errors := s.errors ++ writtenReadOnly s.tables span name } := by
  unfold checkReadOnly writtenReadOnly
  by_cases hr : s.tables.isReadOnly name
  · rw [if_pos hr, if_pos hr]
    rfl
  · rw [if_neg hr, if_neg hr, List.append_nil]
    rfl

section Sessions

variable {s : Session}

theorem ends_clean : Ends s ([], some s.tables) (.ok () s) := by
  change _ = _
  rw [List.append_nil]

variable (hs : s.stop = none)
include hs

theorem action_bind {α : Type} (f : Unit → Parse α) :
    ((action >>= f) s).outcome = (f () s).outcome := by
  have haction : (action s).outcome = .ok () s := by
    unfold action
    rw [Comp.outcome_gets_bind, hs]
    rfl
  exact Comp.bind_of_ok haction

theorem assignTarget_ends (span : Span) (name : String) :
    Ends s (judgeTarget s.tables span name) (run (.target span name) s).outcome := by
  change Ends s _ ((assignTarget span name >>= fun _ => pure ()) s).outcome
  unfold assignTarget judgeTarget
  rw [Comp.bind_assoc, action_bind hs, Comp.bind_assoc, getTables, Comp.outcome_gets_bind]
  by_cases hd : s.tables.isVariableDeclared name
  · rw [if_pos hd, if_pos hd, Comp.bind_assoc]
    exact Comp.bind_of_ok (checkReadOnly_outcome span name s)
  · rw [if_neg hd, if_neg hd]
    exact ⟨_, rfl⟩

theorem bareAssign_ends (span : Span) (name : String) :
    Ends s (judge s.tables (.bare span name)) (run (.bare span name) s).outcome := by
  change Ends s (if _ then _ else judgeTarget s.tables span name)
    ((bareAssign span name (.nilLiteral {}) >>= fun _ => pure ()) s).outcome
  unfold bareAssign judgeTarget
  rw [Comp.bind_assoc, action_bind hs, Comp.bind_assoc, getTables, Comp.outcome_gets_bind,
    Comp.bind_assoc, locate, Comp.outcome_gets_bind]
  by_cases hf : name ∈ s.tables.structFieldScope
  · rw [if_pos hf, if_pos hf]
    exact ends_clean
  · rw [if_neg hf, if_neg hf]
    by_cases hd : s.tables.isVariableDeclared name
    · rw [if_pos hd, if_pos hd, Comp.bind_assoc]
      exact Comp.bind_of_ok (checkReadOnly_outcome span name s)
    · rw [if_neg hd, if_neg hd]
      exact ⟨_, rfl⟩

theorem generic_ends (span : Span) (name : String) (arity : Nat) :
    Ends s (judge s.tables (.generic span name arity)) (run (.generic span name arity) s).outcome := by
  change Ends s (judgeGeneric _ _ _ _) ((genericStruct span name _ >>= fun _ => pure ()) s).outcome
  unfold genericStruct judgeGeneric
  rw [Comp.bind_assoc, action_bind hs, Comp.bind_assoc, getTables, Comp.outcome_gets_bind]
  by_cases hk : name ∈ s.tables.structKnownTypes
  · rw [if_pos hk, if_pos hk]
    cases s.tables.structGenericParamsMap[name]? with
    | none => exact ends_clean
    | some params =>
      dsimp only
      rw [List.length_replicate]
      by_cases hl : arity = params.length
      · rw [if_pos hl, if_pos hl]
        exact ends_clean
      · rw [if_neg hl, if_neg hl]
        exact ⟨_, rfl⟩
  · rw [if_neg hk, if_neg hk]
    exact ⟨_, rfl⟩

theorem named_ends (span : Span) (name : String) :
    Ends s (judge s.tables (.named span name)) (run (.named span name) s).outcome := by
  change Ends s (judgeNamed _ _ _) ((namedType span name >>= fun _ => pure ()) s).outcome
  unfold namedType judgeNamed
  rw [Comp.bind_assoc, action_bind hs, Comp.bind_assoc, getTables, Comp.outcome_gets_bind]
  by_cases hk : name ∈ s.tables.currentGenericParams ∨ name ∈ s.tables.structKnownTypes
  · rw [if_pos hk, if_pos hk]
    exact ends_clean
  · rw [if_neg hk, if_neg hk]
    exact ⟨_, rfl⟩

/-- An action does what its judgement says. -/
theorem run_ends (event : Event) : Ends s (judge s.tables event) (run event s).outcome := by
  cases event with
  | generic span name arity => exact generic_ends hs span name arity
  | named span name => exact named_ends hs span name
  | declare span name =>
    change (run (.declare span name) s).outcome = _
    refine (action_bind hs _).trans ?_
    rw [getTables, Comp.outcome_gets_bind]
    exact Comp.bind_of_ok (checkRedeclaration_outcome span name s)
  | target span name => exact assignTarget_ends hs span name
  | bare span name => exact bareAssign_ends hs span name
  | change c =>
    change (update (Change.apply · c) s).outcome = .ok () { s with
      tables := c.apply s.tables
      errors := s.errors ++ [] }
    rw [List.append_nil]
    exact action_bind hs _

theorem runAll_ends (events : List Event) :
    Ends s (judgeAll s.tables events) (runAll events s).outcome := by
  induction events generalizing s with
  | nil => exact ends_clean
  | cons event events ih =>
    have hfirst := run_ends hs event
    unfold judgeAll
    change Ends s _ ((run event >>= fun _ => runAll events) s).outcome
    rcases hj : judge s.tables event with ⟨errors, _ | t⟩
    · rw [hj] at hfirst
      obtain ⟨t, ho⟩ := hfirst
      exact ⟨t, Comp.bind_of_throw ho⟩
    · rw [hj] at hfirst
      have hfirst : (run event s).outcome = .ok () { s with
          tables := t
          errors := s.errors ++ errors } := hfirst
      rw [Comp.bind_of_ok hfirst]
      have hrest := ih (s := { s with
        tables := t
        errors := s.errors ++ errors }) hs
      unfold Ends at hrest ⊢
      dsimp only at hrest ⊢
      rw [← List.append_assoc]
      exact hrest

end Sessions

/-! ## The tables on the way -/

/-- The tables that an action leaves when it does not abort. -/
def after (t : Tables) : Event → Tables
  | .declare _ name => t.declare name
  | .change c => c.apply t
  | _ => t

theorem judgeTarget_tables {t t' : Tables} {span : Span} {name : String}
    (h : (judgeTarget t span name).2 = some t') : t' = t := by
  unfold judgeTarget at h
  split_ifs at h
  cases h
  rfl

theorem judge_tables {t t' : Tables} {event : Event} (h : (judge t event).2 = some t') :
    t' = after t event := by
  cases event with
  | generic span name arity =>
    change (judgeGeneric t span name arity).2 = some t' at h
    unfold judgeGeneric at h
    split_ifs at h
    cases hp : t.structGenericParamsMap[name]? with
    | none =>
      rw [hp] at h
      cases h
      rfl
    | some params =>
      rw [hp] at h
      dsimp only at h
      split_ifs at h
      cases h
      rfl
  | named span name =>
    change (judgeNamed t span name).2 = some t' at h
    unfold judgeNamed at h
    split_ifs at h
    cases h
    rfl
  | declare span name =>
    cases h
    rfl
  | target span name => exact judgeTarget_tables h
  | bare span name =>
    change (if _ then _ else _ : List ParseError × Option Tables).2 = some t' at h
    split_ifs at h
    · cases h
      rfl
    · exact judgeTarget_tables h
  | change c =>
    cases h
    rfl

theorem judgeAll_tables {t t' : Tables} {events : List Event}
    (h : (judgeAll t events).2 = some t') : t' = events.foldl after t := by
  induction events generalizing t with
  | nil =>
    cases h
    rfl
  | cons event events ih =>
    unfold judgeAll at h
    rcases hj : judge t event with ⟨errors, _ | u⟩
    · rw [hj] at h
      cases h
    · rw [hj] at h
      have hu : u = after t event := judge_tables (by rw [hj])
      rw [List.foldl_cons, ← hu]
      exact ih h

/-- A parse that came through the actions. -/
theorem tables_of_runAll {s s' : Session} (hs : s.stop = none) {events : List Event}
    (ho : (runAll events s).outcome = .ok () s') :
    s'.tables = events.foldl after s.tables ∧ s'.stop = none := by
  have hends := runAll_ends hs events
  rw [ho] at hends
  unfold Ends at hends
  cases hv : (judgeAll s.tables events).2 with
  | none =>
    rw [hv] at hends
    obtain ⟨t, he⟩ := hends
    cases he
  | some t =>
    rw [hv] at hends
    cases hends
    exact ⟨judgeAll_tables hv, hs⟩

theorem isVariableDeclared_iff {t : Tables} {name : String} :
    t.isVariableDeclared name ↔
      (t.inStructRoutine = true ∧ name ∈ t.structFieldScope) ∨ name ∈ t.autotunerScope ∨
        name ∈ t.autotunerInputParams ∨ name ∈ t.autotunerOutputParams ∨
        name ∈ t.stateLocalScope ∨ name ∈ t.stateInputParams := by
  simp only [Tables.isVariableDeclared, Bool.or_eq_true, Bool.and_eq_true, decide_eq_true_eq,
    or_assoc]

theorem isReadOnly_iff {t : Tables} {name : String} :
    t.isReadOnly name ↔ name ∈ t.autotunerInputParams ∨ name ∈ t.stateInputParams := by
  simp only [Tables.isReadOnly, Bool.or_eq_true, decide_eq_true_eq]

/-! ## Actions of types and of bodies -/

mutual

theorem foldl_ofType (t : Tables) : ∀ type : TypeSpec, (ofType type).foldl after t = t
  | .primitive _ => rfl
  | .error => rfl
  | .generic _ _ args => by
    unfold ofType
    rw [List.foldl_append, foldl_ofTypes t args]
    rfl
  | .named _ _ => rfl

theorem foldl_ofTypes (t : Tables) : ∀ types : List TypeSpec, (ofTypes types).foldl after t = t
  | [] => rfl
  | type :: types => by
    unfold ofTypes
    rw [List.foldl_append, foldl_ofType t type, foldl_ofTypes t types]

end

theorem foldl_ofParams (t : Tables) (params : List ParamSyntax) :
    (ofParams params).foldl after t = t := by
  induction params with
  | nil => rfl
  | cons param params ih =>
    unfold ofParams at ih ⊢
    rw [List.flatMap_cons, List.foldl_append, foldl_ofType t param.type, ih]

theorem foldl_ofSignature (t : Tables) (decl : RoutineSyntax) :
    (ofSignature decl).foldl after t =
      (t.addInputs (decl.inputs.map (·.name))).addOutputs (decl.outputs.map (·.name)) := by
  unfold ofSignature
  rw [List.foldl_append, foldl_ofParams, List.foldl_cons, List.foldl_append, foldl_ofParams]
  rfl

def LooksUpType : Event → Prop
  | .generic _ _ _ | .named _ _ => True
  | _ => False

mutual

theorem looksUpType_ofType : ∀ type : TypeSpec, ∀ event ∈ ofType type, LooksUpType event
  | .primitive _, _, hm => absurd hm List.not_mem_nil
  | .error, _, hm => absurd hm List.not_mem_nil
  | .generic _ _ args, event, hm => by
    rcases List.mem_append.mp hm with hm | hm
    · exact looksUpType_ofTypes args event hm
    · rw [List.mem_singleton.mp hm]
      trivial
  | .named _ _, event, hm => by
    rw [List.mem_singleton.mp hm]
    trivial

theorem looksUpType_ofTypes : ∀ types : List TypeSpec, ∀ event ∈ ofTypes types, LooksUpType event
  | [], _, hm => absurd hm List.not_mem_nil
  | type :: types, event, hm =>
    (List.mem_append.mp hm).elim (looksUpType_ofType type event) (looksUpType_ofTypes types event)

end

theorem looksUpType_ofParams (params : List ParamSyntax) :
    ∀ event ∈ ofParams params, LooksUpType event := by
  intro event hm
  obtain ⟨param, _, hm⟩ := List.mem_flatMap.mp hm
  exact looksUpType_ofType param.type event hm

/-- Bodies check and declare. -/
def Checks : Event → Prop
  | .change _ => False
  | _ => True

theorem LooksUpType.checks {event : Event} (h : LooksUpType event) : Checks event := by
  cases event with
  | change c => exact h
  | _ => trivial

theorem checks_ofVarDecl (decl : VarDeclSyntax) : ∀ event ∈ ofVarDecl decl, Checks event := by
  intro event hm
  rcases List.mem_append.mp hm with hm | hm
  · exact (looksUpType_ofType decl.type event hm).checks
  · rw [List.mem_singleton.mp hm]
    trivial

mutual

theorem checks_ofStmt : ∀ statement : Statement, ∀ event ∈ ofStmt statement, Checks event
  | .varDecl _ decl, event, hm => checks_ofVarDecl decl event hm
  | .assign _ _ _, event, hm => by
    obtain ⟨target, _, rfl⟩ := List.mem_map.mp hm
    trivial
  | .fieldAssign _ _ _ _, _, hm => absurd hm List.not_mem_nil
  | .expr _ _, _, hm => absurd hm List.not_mem_nil
  | .transition _ _ _, _, hm => absurd hm List.not_mem_nil
  | .terminal _, _, hm => absurd hm List.not_mem_nil
  | .ifThen _ _ thenBody rest, event, hm =>
    (List.mem_append.mp hm).elim (checks_ofStmts thenBody event) (checks_ofElif rest event)

theorem checks_ofStmts : ∀ statements : List Statement, ∀ event ∈ ofStmts statements, Checks event
  | [], _, hm => absurd hm List.not_mem_nil
  | statement :: statements, event, hm =>
    (List.mem_append.mp hm).elim (checks_ofStmt statement event) (checks_ofStmts statements event)

theorem checks_ofElif : ∀ chain : ElifChain, ∀ event ∈ ofElif chain, Checks event
  | .done, _, hm => absurd hm List.not_mem_nil
  | .otherwise body, event, hm => checks_ofStmts body event hm
  | .elif _ thenBody rest, event, hm =>
    (List.mem_append.mp hm).elim (checks_ofStmts thenBody event) (checks_ofElif rest event)

end

mutual

theorem checks_ofRoutineStmt : ∀ statement : RoutineStatement,
    ∀ event ∈ ofRoutineStmt statement, Checks event
  | .varDecl _ decl, event, hm => checks_ofVarDecl decl event hm
  | .assign _ _ _, event, hm => by
    rw [List.mem_singleton.mp hm]
    trivial
  | .fieldAssign _ _ _ _, _, hm => absurd hm List.not_mem_nil
  | .expr _ _, _, hm => absurd hm List.not_mem_nil
  | .ifThen _ _ thenBody rest, event, hm =>
    (List.mem_append.mp hm).elim (checks_ofBody thenBody event) (checks_ofElif rest event)

theorem checks_ofBody : ∀ statements : List RoutineStatement,
    ∀ event ∈ ofBody statements, Checks event
  | [], _, hm => absurd hm List.not_mem_nil
  | statement :: statements, event, hm =>
    (List.mem_append.mp hm).elim (checks_ofRoutineStmt statement event)
      (checks_ofBody statements event)

end

end FalconLib.Parser.Events
