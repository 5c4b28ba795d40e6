import FalconLib.Parser.Compiler

/-!
# What earlier files leave to a parse

The tables outlive a parse, and the hints that imports have given an engine outlive a
load. A parse is independent of what came before exactly when nothing was left.
-/

namespace FalconLib.Parser.History

open FalconLib.Base (Comp StdMap)
open FalconLib.Dsl

/-- The globals of the parser, and `import_struct_hints_` of the engine. -/
structure Process where
  tables : Tables := {}
  importStructHints : Finset String := ∅

/-- Loading a file parses its imports before it, each of which first adds its hints. -/
inductive Event where
  | hint (names : Finset String)
  | load (text : SourceText)
  | parse (hints : Finset String) (text : SourceText)

def Process.step (p : Process) : Event → Process
  | .hint names => { p with importStructHints := p.importStructHints ∪ names }
  | .load text => { p with tables := (parseFile p.tables p.importStructHints text).2 }
  | .parse hints text => { p with tables := (parseFile p.tables hints text).2 }

/-- A process after a history. -/
def after (events : List Event) : Process := events.foldl Process.step {}

/-- Whatever is parsed or loaded next gives what it gives in a fresh process, where a
load knows the structs `own` of the imports of its file. -/
structure Independent (p : Process) : Prop where
  parse : ∀ hints text, (parseFile p.tables hints text).1 = (parseFile {} hints text).1
  load : ∀ own text, (parseFile p.tables (p.importStructHints ∪ own) text).1 =
    (parseFile {} own text).1

/-- No scope has a name, both flags are down, and no generic parameters and no hints are
on record. -/
structure Fresh (p : Process) : Prop where
  tables : p.tables.seed ∅ = {}
  hints : p.importStructHints = ∅

/-! ## Files that tell -/

theorem action_of_none {s : Session} (hs : s.stop = none) : (action s).outcome = .ok () s := by
  unfold action
  rw [Comp.outcome_gets_bind, hs]
  rfl

/-- A report changes neither the tables nor the course of the parse. -/
theorem report_ok (span : Span) (message : String) (s : Session) :
    ∃ errors, (report span message s).outcome = .ok () { s with errors := errors } :=
  ⟨_, rfl⟩

theorem checkReadOnly_ok (span : Span) (name : String) (tables : Tables) (s : Session) :
    ∃ errors, (checkReadOnly span name tables s).outcome = .ok () { s with errors := errors } := by
  unfold checkReadOnly
  split
  · exact report_ok span _ s
  · exact ⟨s.errors, rfl⟩

theorem checkRedeclaration_ok (span : Span) (name : String) (tables : Tables) (s : Session) :
    ∃ errors,
      (checkRedeclaration span name tables s).outcome = .ok () { s with errors := errors } := by
  unfold checkRedeclaration
  split
  · exact report_ok span _ s
  · exact ⟨s.errors, rfl⟩

/-- Declared, or a field: what a bare assignment needs. -/
def Assignable (t : Tables) (name : String) : Prop :=
  name ∈ t.structFieldScope ∨ t.isVariableDeclared name

theorem bareAssign_ok {t : Tables} {name : String} (h : Assignable t name) (filename : String)
    (errors : List ParseError) (span : Span) (value : Expr) :
    ∃ stmt errors', (bareAssign span name value ⟨t, filename, errors, none⟩).outcome =
      .ok stmt ⟨t, filename, errors', none⟩ := by
  unfold bareAssign
  rw [Comp.bind_of_ok (action_of_none rfl), getTables, Comp.outcome_gets_bind, locate,
    Comp.outcome_gets_bind]
  dsimp only
  by_cases hf : name ∈ t.structFieldScope
  · rw [if_pos hf]
    exact ⟨_, errors, rfl⟩
  · rw [if_neg hf, if_pos (h.resolve_left hf)]
    obtain ⟨errors', hc⟩ := checkReadOnly_ok span name t ⟨t, filename, errors, none⟩
    exact ⟨_, errors', Comp.bind_of_ok hc⟩

theorem bareAssign_abort {t : Tables} {name : String} (h : ¬ Assignable t name)
    (filename : String) (errors : List ParseError) (span : Span) (value : Expr) :
    ∃ s, (bareAssign span name value ⟨t, filename, errors, none⟩).outcome =
      .throw .aborted s := by
  obtain ⟨hf, hd⟩ := not_or.mp h
  unfold bareAssign
  rw [Comp.bind_of_ok (action_of_none rfl), getTables, Comp.outcome_gets_bind, locate,
    Comp.outcome_gets_bind]
  dsimp only
  rw [if_neg hf, if_neg hd]
  exact ⟨_, rfl⟩

theorem namedType_ok {s : Session} (hs : s.stop = none) {name : String}
    (h : name ∈ s.tables.currentGenericParams ∨ name ∈ s.tables.structKnownTypes)
    (span : Span) : (namedType span name s).outcome = .ok (TypeDescriptor.makeStruct name) s := by
  unfold namedType
  rw [Comp.bind_of_ok (action_of_none hs), getTables, Comp.outcome_gets_bind, if_pos h]
  rfl

theorem namedType_abort {s : Session} (hs : s.stop = none) {name : String}
    (h : ¬ (name ∈ s.tables.currentGenericParams ∨ name ∈ s.tables.structKnownTypes))
    (span : Span) : ∃ s', (namedType span name s).outcome = .throw .aborted s' := by
  unfold namedType
  rw [Comp.bind_of_ok (action_of_none hs), getTables, Comp.outcome_gets_bind, if_neg h]
  exact ⟨_, rfl⟩

theorem genericStruct_ok {s : Session} (hs : s.stop = none) {name : String}
    (hk : name ∈ s.tables.structKnownTypes) (h : s.tables.structGenericParamsMap[name]? = none)
    (span : Span) (args : List TypeDescriptor) :
    (genericStruct span name args s).outcome =
      .ok (TypeDescriptor.makeGenericStruct name args) s := by
  unfold genericStruct
  rw [Comp.bind_of_ok (action_of_none hs), getTables, Comp.outcome_gets_bind, if_pos hk, h]
  rfl

theorem genericStruct_abort {s : Session} (hs : s.stop = none) {name : String}
    (hk : name ∈ s.tables.structKnownTypes) {params : List String}
    (h : s.tables.structGenericParamsMap[name]? = some params) {args : List TypeDescriptor}
    (hn : args.length ≠ params.length) (span : Span) :
    ∃ s', (genericStruct span name args s).outcome = .throw .aborted s' := by
  unfold genericStruct
  rw [Comp.bind_of_ok (action_of_none hs), getTables, Comp.outcome_gets_bind, if_pos hk, h]
  dsimp only
  rw [if_neg hn]
  exact ⟨_, rfl⟩

theorem typeArgList_replicate (n : Nat) (s : Session) :
    (typeArgList (List.replicate n (.primitive .int)) s).outcome =
      .ok (List.replicate n (TypeDescriptor.ofParamType .int)) s := by
  induction n with
  | zero => rfl
  | succ n ih =>
    refine (Comp.bind_of_ok (a := TypeDescriptor.ofParamType .int) (t := s) rfl).trans ?_
    exact Comp.bind_of_ok ih

theorem addParams_nil (t : Tables) : (t.addInputs []).addOutputs [] = t := by
  simp only [Tables.addInputs, Tables.addOutputs, List.toFinset_nil, Finset.union_empty]

/-- The routine assigns a name that the file does not declare. -/
def assigning (name : String) : RoutineSyntax where
  name := "r"
  body := [.assign {} name (.nilLiteral {})]

theorem routineDecl_assigning_ok {t : Tables} {name : String} (h : Assignable t name)
    (filename : String) (errors : List ParseError) :
    ∃ r errors', (routineDecl (assigning name) ⟨t, filename, errors, none⟩).outcome =
      .ok r ⟨t, filename, errors', none⟩ := by
  obtain ⟨stmt, errors', hstmt⟩ := bareAssign_ok h filename errors {} (.nilLiteral {})
  have hbody : (routineBody (assigning name).body
      ⟨(t.addInputs []).addOutputs [], filename, errors, none⟩).outcome =
        .ok [stmt] ⟨t, filename, errors', none⟩ := by
    rw [addParams_nil]
    exact Comp.bind_of_ok hstmt
  exact ⟨⟨"r", "", [], [], [stmt]⟩, errors', Comp.bind_of_ok hbody⟩

theorem routineDecl_assigning_abort {t : Tables} {name : String} (h : ¬ Assignable t name)
    (filename : String) (errors : List ParseError) :
    ∃ s, (routineDecl (assigning name) ⟨t, filename, errors, none⟩).outcome =
      .throw .aborted s := by
  obtain ⟨s, hstmt⟩ := bareAssign_abort h filename errors {} (.nilLiteral {})
  have hbody : (routineBody (assigning name).body
      ⟨(t.addInputs []).addOutputs [], filename, errors, none⟩).outcome = .throw .aborted s := by
    rw [addParams_nil]
    exact Comp.bind_of_throw hstmt
  have hinputs : (inputParams (assigning name).inputs ⟨t, filename, errors, none⟩).outcome =
      .ok [] ⟨t.addInputs [], filename, errors, none⟩ := rfl
  have houtputs : (outputParams (assigning name).outputs
      ⟨t.addInputs [], filename, errors, none⟩).outcome =
        .ok [] ⟨(t.addInputs []).addOutputs [], filename, errors, none⟩ := rfl
  refine ⟨s, (Comp.bind_of_ok hinputs).trans ?_⟩
  exact (Comp.bind_of_ok houtputs).trans (Comp.bind_of_throw hbody)

/-- A file with one routine. -/
def routineText (decl : RoutineSyntax) : SourceText where
  filename := "probe.fal"
  stem := "probe"
  derivation := { items := [.routine decl] }

/-- The routine has a parameter of the type. -/
def taking (type : TypeSpec) : RoutineSyntax where
  name := "r"
  inputs := [{ type := type, name := "p" }]

section Accepted

variable {t : Tables} {hints : Finset String}

theorem accepted_of_ok {text : SourceText} {p : Program} {s : Session}
    (h : (program text.derivation (start t hints text)).outcome = .ok p s) :
    (parseFile t hints text).1.program.isSome = true := by
  unfold parseFile
  rw [h]
  rfl

theorem rejected_of_abort {text : SourceText} {s : Session}
    (h : (program text.derivation (start t hints text)).outcome = .throw .aborted s) :
    (parseFile t hints text).1.program.isSome = false := by
  unfold parseFile
  rw [h]
  rfl

theorem accepted_routineText {decl : RoutineSyntax} {r : RoutineDecl} {s : Session}
    (h : (routineDecl decl (start t hints (routineText decl))).outcome = .ok r s)
    (hs : s.stop = none) : (parseFile t hints (routineText decl)).1.program.isSome = true := by
  have hitem : (programItem { imports := [] } (.routine decl)
      (start t hints (routineText decl))).outcome = .ok { routines := [r] } s :=
    Comp.bind_of_ok h
  have hitems : (programItems [.routine decl] { imports := [] }
      (start t hints (routineText decl))).outcome = .ok { routines := [r] } s :=
    Comp.bind_of_ok hitem
  refine accepted_of_ok (p := { routines := [r] }) (s := s) ?_
  refine (Comp.bind_of_ok hitems).trans ?_
  rw [Comp.outcome_gets_bind, hs]
  rfl

theorem rejected_routineText {decl : RoutineSyntax} {s : Session}
    (h : (routineDecl decl (start t hints (routineText decl))).outcome = .throw .aborted s) :
    (parseFile t hints (routineText decl)).1.program.isSome = false :=
  rejected_of_abort (Comp.bind_of_throw (Comp.bind_of_throw (Comp.bind_of_throw h)))

theorem accepted_assigning {name : String} (h : Assignable t name) :
    (parseFile t hints (routineText (assigning name))).1.program.isSome = true := by
  obtain ⟨r, errors, hr⟩ := routineDecl_assigning_ok (t := t.seed hints) h "probe.fal" []
  exact accepted_routineText hr rfl

theorem rejected_assigning {name : String} (h : ¬ Assignable t name) :
    (parseFile t hints (routineText (assigning name))).1.program.isSome = false := by
  obtain ⟨s, hs⟩ := routineDecl_assigning_abort (t := t.seed hints) h "probe.fal" []
  exact rejected_routineText hs

theorem accepted_taking {type : TypeSpec} {d : TypeDescriptor}
    (h : (typeSpec type (start t hints (routineText (taking type)))).outcome =
      .ok d (start t hints (routineText (taking type)))) :
    (parseFile t hints (routineText (taking type))).1.program.isSome = true := by
  have hparam : (paramList (taking type).inputs
      (start t hints (routineText (taking type)))).outcome =
        .ok [⟨d, "p", none⟩] (start t hints (routineText (taking type))) :=
    Comp.bind_of_ok (Comp.bind_of_ok h)
  have hinputs : (inputParams (taking type).inputs
      (start t hints (routineText (taking type)))).outcome =
        .ok [⟨d, "p", none⟩] ⟨(t.seed hints).addInputs ["p"], "probe.fal", [], none⟩ :=
    Comp.bind_of_ok hparam
  exact accepted_routineText (r := ⟨"r", "", [⟨d, "p", none⟩], [], []⟩)
    (s := ⟨((t.seed hints).addInputs ["p"]).addOutputs [], "probe.fal", [], none⟩)
    (Comp.bind_of_ok hinputs) rfl

theorem rejected_taking {type : TypeSpec} {s : Session}
    (h : (typeSpec type (start t hints (routineText (taking type)))).outcome =
      .throw .aborted s) :
    (parseFile t hints (routineText (taking type))).1.program.isSome = false :=
  rejected_routineText <| Comp.bind_of_throw <| Comp.bind_of_throw <| Comp.bind_of_throw <|
    Comp.bind_of_throw h

theorem accepted_named {name : String} (h : name ∈ t.currentGenericParams ∨ name ∈ hints) :
    (parseFile t hints (routineText (taking (.named {} name)))).1.program.isSome = true :=
  accepted_taking (namedType_ok rfl h {})

theorem rejected_named {name : String} (h : ¬ (name ∈ t.currentGenericParams ∨ name ∈ hints)) :
    (parseFile t hints (routineText (taking (.named {} name)))).1.program.isSome = false := by
  obtain ⟨s, hs⟩ := namedType_abort
    (s := start t hints (routineText (taking (.named {} name)))) rfl h {}
  exact rejected_taking hs

/-- A struct applied to `n` types. -/
def applied (name : String) (n : Nat) : TypeSpec :=
  .generic {} name (List.replicate n (.primitive .int))

theorem accepted_applied {name : String} (h : t.structGenericParamsMap[name]? = none)
    (n : Nat) :
    (parseFile t {name} (routineText (taking (applied name n)))).1.program.isSome = true := by
  have hstruct := genericStruct_ok (s := start t {name} (routineText (taking (applied name n))))
    rfl (Finset.mem_singleton_self name) h {} (List.replicate n (.ofParamType .int))
  exact accepted_taking ((Comp.bind_of_ok (typeArgList_replicate n _)).trans hstruct)

theorem rejected_applied {name : String} {params : List String}
    (h : t.structGenericParamsMap[name]? = some params) {n : Nat} (hn : n ≠ params.length) :
    (parseFile t {name} (routineText (taking (applied name n)))).1.program.isSome = false := by
  have hlength : (List.replicate n (TypeDescriptor.ofParamType .int)).length ≠ params.length := by
    rw [List.length_replicate]
    exact hn
  obtain ⟨s, hs⟩ := genericStruct_abort
    (s := start t {name} (routineText (taking (applied name n)))) rfl
    (Finset.mem_singleton_self name) h hlength {}
  exact rejected_taking ((Comp.bind_of_ok (typeArgList_replicate n _)).trans hs)

/-- The routine declares a variable. -/
def declaring : RoutineSyntax where
  name := "r"
  body := [.varDecl {} { type := .primitive .int, name := "x" }]

/-- A variable declared in a routine, and assigned in a routine of a struct. -/
def relaying : SourceText where
  filename := "probe.fal"
  stem := "probe"
  derivation := { items := [.routine declaring,
    .struct { name := "S", routines := [assigning "x"] }] }

/-- The tables in the routine of the struct. -/
def relayed (t : Tables) (hints : Finset String) : Tables :=
  (((t.seed hints).declare "x").enterStruct "S" []).enterStructRoutine

theorem assignable_relayed :
    Assignable (relayed t hints) "x" ↔ "x" ∈ ((t.seed hints).declare "x").autotunerScope := by
  have hdeclared : (relayed t hints).isVariableDeclared "x" =
      decide ("x" ∈ ((t.seed hints).declare "x").autotunerScope) := by
    simp only [relayed, Tables.isVariableDeclared, Tables.enterStructRoutine,
      Tables.enterStruct, Tables.clearStateScope, Finset.notMem_empty, decide_false,
      Bool.and_false, Bool.or_false, Bool.false_or]
    rfl
  rw [Assignable, hdeclared, decide_eq_true_iff]
  exact or_iff_right (Finset.notMem_empty _)

theorem varDeclStmt_ok (decl : VarDeclSyntax) {type : TypeDescriptor} {s : Session}
    (hs : s.stop = none) (h : (typeSpec decl.type s).outcome = .ok type s) (span : Span) :
    ∃ stmt errors, (varDeclStmt span decl s).outcome =
      .ok stmt ⟨s.tables.declare decl.name, s.filename, errors, none⟩ := by
  obtain ⟨errors, hc⟩ := checkRedeclaration_ok decl.nameSpan decl.name s.tables s
  unfold varDeclStmt
  rw [Comp.bind_of_ok h, Comp.bind_of_ok (action_of_none hs), getTables, Comp.outcome_gets_bind,
    Comp.bind_of_ok hc, ← hs]
  exact ⟨_, _, rfl⟩

theorem routineDecl_declaring (t : Tables) (filename : String) (errors : List ParseError) :
    ∃ r errors', (routineDecl declaring ⟨t, filename, errors, none⟩).outcome =
      .ok r ⟨t.declare "x", filename, errors', none⟩ := by
  obtain ⟨stmt, errors', hstmt⟩ := varDeclStmt_ok { type := .primitive .int, name := "x" }
    (s := ⟨t, filename, errors, none⟩) rfl rfl {}
  have hbody : (routineBody declaring.body
      ⟨(t.addInputs []).addOutputs [], filename, errors, none⟩).outcome =
        .ok [stmt] ⟨t.declare "x", filename, errors', none⟩ := by
    rw [addParams_nil]
    exact Comp.bind_of_ok hstmt
  exact ⟨⟨"r", "", [], [], [stmt]⟩, errors', Comp.bind_of_ok hbody⟩

theorem structDecl_ok {t : Tables} (h : Assignable (t.enterStruct "S" []).enterStructRoutine "x")
    (filename : String) (errors : List ParseError) :
    ∃ d t' errors', (structDecl { name := "S", routines := [assigning "x"] }
      ⟨t, filename, errors, none⟩).outcome = .ok d ⟨t', filename, errors', none⟩ := by
  obtain ⟨r, errors', hr⟩ := routineDecl_assigning_ok h filename errors
  have hroutine : (structRoutine (assigning "x")
      ⟨t.enterStruct "S" [], filename, errors, none⟩).outcome =
        .ok r ⟨(t.enterStruct "S" []).enterStructRoutine.leaveStructRoutine, filename, errors',
          none⟩ := Comp.bind_of_ok hr
  have hroutines : (structRoutineList [assigning "x"]
      ⟨t.enterStruct "S" [], filename, errors, none⟩).outcome =
        .ok [r] ⟨(t.enterStruct "S" []).enterStructRoutine.leaveStructRoutine, filename, errors',
          none⟩ := Comp.bind_of_ok hroutine
  exact ⟨⟨"S", "", [], [], [r]⟩, _, errors', Comp.bind_of_ok hroutines⟩

theorem structDecl_abort {t : Tables}
    (h : ¬ Assignable (t.enterStruct "S" []).enterStructRoutine "x")
    (filename : String) (errors : List ParseError) :
    ∃ s, (structDecl { name := "S", routines := [assigning "x"] }
      ⟨t, filename, errors, none⟩).outcome = .throw .aborted s := by
  obtain ⟨s, hs⟩ := routineDecl_assigning_abort h filename errors
  have henter : (update Tables.enterStructRoutine
      ⟨t.enterStruct "S" [], filename, errors, none⟩).outcome =
        .ok () ⟨(t.enterStruct "S" []).enterStructRoutine, filename, errors, none⟩ := rfl
  have hroutines : (structRoutineList [assigning "x"]
      ⟨t.enterStruct "S" [], filename, errors, none⟩).outcome = .throw .aborted s :=
    Comp.bind_of_throw ((Comp.bind_of_ok henter).trans (Comp.bind_of_throw hs))
  have hfields : (structFieldList [] ⟨t.enterStruct "S" [], filename, errors, none⟩).outcome =
    .ok [] ⟨t.enterStruct "S" [], filename, errors, none⟩ := rfl
  have hstart : (update (·.enterStruct "S" []) ⟨t, filename, errors, none⟩).outcome =
    .ok () ⟨t.enterStruct "S" [], filename, errors, none⟩ := rfl
  refine ⟨s, (Comp.bind_of_ok hstart).trans ?_⟩
  exact (Comp.bind_of_ok hfields).trans (Comp.bind_of_throw hroutines)

theorem accepted_relaying (h : Assignable (relayed t hints) "x") :
    (parseFile t hints relaying).1.program.isSome = true := by
  obtain ⟨r, errors, hr⟩ := routineDecl_declaring (t.seed hints) "probe.fal" []
  obtain ⟨d, t', errors', hd⟩ := structDecl_ok h "probe.fal" errors
  have hfirst : (programItem { imports := [] } (.routine declaring)
      (start t hints relaying)).outcome =
        .ok { routines := [r] } ⟨(t.seed hints).declare "x", "probe.fal", errors, none⟩ :=
    Comp.bind_of_ok hr
  have hsecond : (programItems [.struct { name := "S", routines := [assigning "x"] }]
      { routines := [r] } ⟨(t.seed hints).declare "x", "probe.fal", errors, none⟩).outcome =
        .ok { structs := [d], routines := [r] } ⟨t', "probe.fal", errors', none⟩ :=
    Comp.bind_of_ok (Comp.bind_of_ok hd)
  exact accepted_of_ok (p := { structs := [d], routines := [r] })
    (s := ⟨t', "probe.fal", errors', none⟩)
    (Comp.bind_of_ok ((Comp.bind_of_ok hfirst).trans hsecond))

theorem rejected_relaying (h : ¬ Assignable (relayed t hints) "x") :
    (parseFile t hints relaying).1.program.isSome = false := by
  obtain ⟨r, errors, hr⟩ := routineDecl_declaring (t.seed hints) "probe.fal" []
  obtain ⟨s, hs⟩ := structDecl_abort h "probe.fal" errors
  have hfirst : (programItem { imports := [] } (.routine declaring)
      (start t hints relaying)).outcome =
        .ok { routines := [r] } ⟨(t.seed hints).declare "x", "probe.fal", errors, none⟩ :=
    Comp.bind_of_ok hr
  have hsecond : (programItems [.struct { name := "S", routines := [assigning "x"] }]
      { routines := [r] } ⟨(t.seed hints).declare "x", "probe.fal", errors, none⟩).outcome =
        .throw .aborted s :=
    Comp.bind_of_throw (Comp.bind_of_throw hs)
  exact rejected_of_abort (Comp.bind_of_throw ((Comp.bind_of_ok hfirst).trans hsecond))

end Accepted

/-! ## Independence -/

/-- A parse sees the tables only as they are apart from the known types. -/
theorem parseFile_congr {t t' : Tables} (h : t.seed ∅ = t'.seed ∅) (hints : Finset String)
    (text : SourceText) : (parseFile t hints text).1 = (parseFile t' hints text).1 := by
  have hstart : start t hints text = start t' hints text := by
    have hseed : (t.seed ∅).seed hints = (t'.seed ∅).seed hints := congrArg (·.seed hints) h
    unfold start
    rw [show t.seed hints = t'.seed hints from hseed]
  unfold parseFile
  rw [hstart]
  cases (program text.derivation (start t' hints text)).outcome with
  | ok _ _ => rfl
  | throw e s =>
    cases e with
    | aborted => rfl
    | stopped => cases text.stop.bind (·.error) <;> rfl
  | halt _ => rfl

section Observed

variable {t : Tables} (h : ∀ hints text, (parseFile t hints text).1 = (parseFile {} hints text).1)

include h

theorem not_assignable (name : String) : ¬ Assignable t name := by
  intro ha
  have hfresh : ¬ Assignable {} name := by
    simp [Assignable, Tables.isVariableDeclared]
  have haccepted : (parseFile t ∅ (routineText (assigning name))).1.program.isSome = true :=
    accepted_assigning ha
  rw [h, rejected_assigning hfresh] at haccepted
  cases haccepted

theorem scopes_eq_empty : t.autotunerScope = ∅ ∧ t.autotunerInputParams = ∅ ∧
    t.autotunerOutputParams = ∅ ∧ t.stateLocalScope = ∅ ∧ t.stateInputParams = ∅ ∧
    t.structFieldScope = ∅ := by
  have hnone : ∀ name, ¬ Assignable t name := not_assignable h
  simp only [Finset.eq_empty_iff_forall_notMem]
  refine ⟨?_, ?_, ?_, ?_, ?_, ?_⟩ <;> intro name hm <;> refine hnone name ?_ <;>
    simp [Assignable, Tables.isVariableDeclared, hm]

theorem currentGenericParams_eq_empty : t.currentGenericParams = ∅ := by
  refine Finset.eq_empty_iff_forall_notMem.mpr fun name hm => ?_
  have haccepted : (parseFile t ∅ (routineText (taking (.named {} name)))).1.program.isSome =
      true := accepted_named (.inl hm)
  rw [h, rejected_named (by simp)] at haccepted
  cases haccepted

theorem structGenericParamsMap_eq_empty : t.structGenericParamsMap = ∅ := by
  refine StdMap.ext fun name => ?_
  have hnone : (∅ : StdMap (List String))[name]? = none := Std.ExtTreeMap.getElem?_empty
  rw [hnone]
  cases hm : t.structGenericParamsMap[name]? with
  | none => rfl
  | some params =>
    have hrejected := rejected_applied hm (Nat.succ_ne_self params.length)
    rw [h, accepted_applied hnone] at hrejected
    cases hrejected

theorem flags_down : t.inStateBody = false ∧ t.inStructRoutine = false := by
  have hfresh : Assignable (relayed {} ∅) "x" :=
    assignable_relayed.mpr (Finset.mem_insert_self _ _)
  have haccepted := accepted_relaying hfresh
  rw [← h] at haccepted
  have hassignable : Assignable (relayed t ∅) "x" := by
    by_contra hn
    rw [rejected_relaying hn] at haccepted
    cases haccepted
  have hmem := assignable_relayed.mp hassignable
  have hscope : (t.seed ∅).autotunerScope = ∅ := (scopes_eq_empty h).1
  unfold Tables.declare at hmem
  by_cases hr : (t.seed ∅).inStructRoutine = true
  · rw [if_pos hr, hscope] at hmem
    exact absurd hmem (Finset.notMem_empty _)
  · rw [if_neg hr] at hmem
    by_cases hs : (t.seed ∅).inStateBody = true
    · rw [if_pos hs] at hmem
      exact absurd (hscope ▸ hmem) (Finset.notMem_empty _)
    · exact ⟨Bool.not_eq_true _ ▸ hs, Bool.not_eq_true _ ▸ hr⟩

end Observed

theorem tables_fresh {t : Tables}
    (h : ∀ hints text, (parseFile t hints text).1 = (parseFile {} hints text).1) :
    t.seed ∅ = {} := by
  obtain ⟨h₁, h₂, h₃, h₄, h₅, h₆⟩ := scopes_eq_empty h
  obtain ⟨hs, hr⟩ := flags_down h
  unfold Tables.seed
  rw [h₁, h₂, h₃, h₄, h₅, h₆, hs, hr, currentGenericParams_eq_empty h,
    structGenericParamsMap_eq_empty h]

/-- A history is harmless exactly when it leaves the tables and the hints as a fresh
process has them. -/
theorem independent_iff_fresh (events : List Event) :
    Independent (after events) ↔ Fresh (after events) := by
  constructor
  · intro h
    refine ⟨tables_fresh h.parse, Finset.eq_empty_iff_forall_notMem.mpr fun name hm => ?_⟩
    have haccepted : (parseFile (after events).tables ((after events).importStructHints ∪ ∅)
        (routineText (taking (.named {} name)))).1.program.isSome = true :=
      accepted_named (.inr (Finset.mem_union_left _ hm))
    rw [h.load, rejected_named (by simp)] at haccepted
    cases haccepted
  · intro h
    have hseed : (after events).tables.seed ∅ = ({} : Tables).seed ∅ := h.tables
    have hcongr := parseFile_congr hseed
    refine ⟨hcongr, fun own text => ?_⟩
    rw [h.hints, Finset.empty_union]
    exact hcongr own text

/-- An autotuner with a state that declares `x`. -/
def tuning : SourceText where
  filename := "tuner.fal"
  stem := "tuner"
  derivation := { items := [.autotuner {
    name := "Tuner"
    entryState := "run"
    states := [{
      name := "run"
      body := [.varDecl {} { type := .primitive .int, name := "x" }, .terminal {}] }] }] }

theorem not_independent_tuning : ¬ ∀ events : List Event, Independent (after events) := by
  intro h
  have hsame := congrArg (fun r : ParseResult => r.program.isSome)
    ((h [.parse ∅ tuning]).parse ∅ (routineText (assigning "x")))
  exact absurd hsame (by decide +kernel)

end FalconLib.Parser.History
