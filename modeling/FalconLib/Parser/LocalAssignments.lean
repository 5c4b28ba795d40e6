import FalconLib.Parser.Events

/-!
# Assignments in routine bodies

A routine assigns its outputs and its own variables. The checks of an assignment go by the tables,
and a routine of a struct does not enter its variables there.
-/

namespace FalconLib.Parser.LocalAssignments

open FalconLib.Base (Comp)
open FalconLib.Dsl
open Events

/-! ## What declarations leave alone -/

/-- The parts of the tables that a body does not change. -/
structure Same (t t' : Tables) : Prop where
  inStructRoutine : t'.inStructRoutine = t.inStructRoutine
  fields : t'.structFieldScope = t.structFieldScope
  inputs : t'.autotunerInputParams = t.autotunerInputParams
  outputs : t'.autotunerOutputParams = t.autotunerOutputParams
  stateParams : t'.stateInputParams = t.stateInputParams

theorem same_after (t : Tables) {event : Event} (hc : Checks event) : Same t (after t event) := by
  cases event with
  | declare span name =>
    unfold after Tables.declare
    dsimp only
    split_ifs <;> exact ⟨rfl, rfl, rfl, rfl, rfl⟩
  | change c => exact hc.elim
  | _ => exact ⟨rfl, rfl, rfl, rfl, rfl⟩

theorem same_foldl (t : Tables) {events : List Event} (hc : ∀ event ∈ events, Checks event) :
    Same t (events.foldl after t) := by
  induction events generalizing t with
  | nil => exact ⟨rfl, rfl, rfl, rfl, rfl⟩
  | cons event events ih =>
    obtain ⟨hfirst, hrest⟩ := List.forall_mem_cons.mp hc
    have h := same_after t hfirst
    have h' := ih (after t event) hrest
    exact ⟨h'.inStructRoutine.trans h.inStructRoutine, h'.fields.trans h.fields,
      h'.inputs.trans h.inputs, h'.outputs.trans h.outputs, h'.stateParams.trans h.stateParams⟩

/-- In a routine of a struct a body changes nothing at all. -/
theorem foldl_eq_of_inStructRoutine {t : Tables} (h : t.inStructRoutine = true)
    {events : List Event} (hc : ∀ event ∈ events, Checks event) : events.foldl after t = t := by
  induction events with
  | nil => rfl
  | cons event events ih =>
    obtain ⟨hfirst, hrest⟩ := List.forall_mem_cons.mp hc
    have hsame : after t event = t := by
      cases event with
      | declare span name =>
        unfold after Tables.declare
        exact if_pos h
      | change c => exact hfirst.elim
      | _ => rfl
    rw [List.foldl_cons, hsame]
    exact ih hrest

/-- Names that are entered stay entered. -/
theorem entered_foldl {t : Tables} {name : String} {events : List Event}
    (hc : ∀ event ∈ events, Checks event)
    (h : name ∈ t.autotunerScope ∨ name ∈ t.stateLocalScope) :
    name ∈ (events.foldl after t).autotunerScope ∨ name ∈ (events.foldl after t).stateLocalScope := by
  induction events generalizing t with
  | nil => exact h
  | cons event events ih =>
    obtain ⟨hfirst, hrest⟩ := List.forall_mem_cons.mp hc
    refine ih hrest ?_
    cases event with
    | declare span other =>
      unfold after Tables.declare
      dsimp only
      split_ifs
      · exact h
      · exact h.imp_right (Finset.mem_insert_of_mem ·)
      · exact h.imp_left (Finset.mem_insert_of_mem ·)
    | change c => exact hfirst.elim
    | _ => exact h

/-- Outside of structs a body enters what it declares. -/
theorem entered_of_declare {t : Tables} (h : t.inStructRoutine = false) {name : String} {span : Span}
    {events : List Event} (hc : ∀ event ∈ events, Checks event)
    (hm : .declare span name ∈ events) :
    name ∈ (events.foldl after t).autotunerScope ∨ name ∈ (events.foldl after t).stateLocalScope := by
  induction events generalizing t with
  | nil => exact absurd hm List.not_mem_nil
  | cons event events ih =>
    obtain ⟨hfirst, hrest⟩ := List.forall_mem_cons.mp hc
    rcases List.mem_cons.mp hm with rfl | hm
    · refine entered_foldl (t := after t (.declare span name)) hrest ?_
      unfold after Tables.declare
      dsimp only
      rw [if_neg (by rw [h]; exact Bool.false_ne_true)]
      split_ifs
      · exact .inr (Finset.mem_insert_self _ _)
      · exact .inl (Finset.mem_insert_self _ _)
    · exact ih ((same_after t hfirst).inStructRoutine.trans h) hrest hm

/-! ## Assignments -/

/-- The action assigns the variable. -/
def Assigns (name : String) : Event → Prop
  | .target _ other | .bare _ other => other = name
  | _ => False

/-- Statements of a routine body, and of its `then` branches, look for a field first. -/
def isBare : Event → Bool
  | .bare _ _ => true
  | _ => false

/-- The name is that of a local variable declared before, or of an output. -/
def Owned (decl : RoutineSyntax) (before : List Event) (name : String) : Prop :=
  (∃ span, .declare span name ∈ before) ∨ name ∈ decl.outputs.map (·.name)

/-- The parser goes on, and records nothing. -/
def Accepted (event : Event) (s : Session) : Prop := (run event s).outcome = .ok () s

/-- The name is no parameter, of the routine or of an earlier declaration that is still in the
tables; and in a struct it is an output, a field or in a scope that the struct did not open. -/
def Assignable (t : Tables) (decl : RoutineSyntax) (event : Event) (name : String) : Prop :=
  (isBare event = true ∧ name ∈ t.structFieldScope) ∨
    (name ∉ decl.inputs.map (·.name) ∧ name ∉ t.autotunerInputParams ∧
      name ∉ t.stateInputParams ∧
      (t.inStructRoutine = true → name ∈ decl.outputs.map (·.name) ∨ name ∈ t.structFieldScope ∨
        name ∈ t.autotunerScope ∨ name ∈ t.autotunerOutputParams ∨ name ∈ t.stateLocalScope))

/-- A routine of a struct finds all scopes empty but that of the autotuner. -/
theorem assignable_struct (t : Tables) (decl : RoutineSyntax) (event : Event) (name : String) :
    Assignable t.enterStructRoutine decl event name ↔
      (isBare event = true ∧ name ∈ t.structFieldScope) ∨
        (name ∉ decl.inputs.map (·.name) ∧ (name ∈ decl.outputs.map (·.name) ∨
          name ∈ t.structFieldScope ∨ name ∈ t.autotunerScope)) := by
  unfold Assignable Tables.enterStructRoutine Tables.clearStateScope
  simp only [Finset.notMem_empty, not_false_eq_true, true_and, or_false, forall_const]

theorem accepted_iff_judge {s : Session} (hs : s.stop = none) {event : Event}
    (ha : after s.tables event = s.tables) :
    Accepted event s ↔ judge s.tables event = ([], some s.tables) := by
  have hends := run_ends hs event
  unfold Accepted
  unfold Ends at hends
  rcases hj : judge s.tables event with ⟨errors, _ | t⟩
  · rw [hj] at hends
    obtain ⟨t, ho⟩ := hends
    rw [ho]
    exact ⟨nofun, nofun⟩
  · have ht : t = s.tables := (judge_tables (by rw [hj])).trans ha
    rw [hj] at hends
    have ho : (run event s).outcome = .ok () { s with
        tables := t
        errors := s.errors ++ errors } := hends
    rw [ho, ht]
    constructor
    · intro h
      have herrors := congrArg Session.errors (Base.Outcome.ok.inj h).2
      rw [List.append_right_eq_self.mp herrors]
    · intro h
      rw [(Prod.mk.inj h).1, List.append_nil]

theorem judgeTarget_eq_iff (t : Tables) (span : Span) (name : String) :
    judgeTarget t span name = ([], some t) ↔ t.isVariableDeclared name ∧ ¬t.isReadOnly name := by
  unfold judgeTarget writtenReadOnly
  by_cases hd : t.isVariableDeclared name
  · rw [if_pos hd]
    by_cases hr : t.isReadOnly name
    · rw [if_pos hr]
      exact iff_of_false (fun h => nomatch (Prod.mk.inj h).1) fun h => h.2 hr
    · rw [if_neg hr]
      exact iff_of_true rfl ⟨hd, hr⟩
  · rw [if_neg hd]
    exact iff_of_false (fun h => nomatch (Prod.mk.inj h).1) fun h => hd h.1

theorem judge_eq_iff {t : Tables} {event : Event} {name : String} (ha : Assigns name event) :
    judge t event = ([], some t) ↔ (isBare event = true ∧ name ∈ t.structFieldScope) ∨
      (t.isVariableDeclared name ∧ ¬t.isReadOnly name) := by
  cases event with
  | target span other =>
    obtain rfl : other = name := ha
    rw [or_iff_right fun h => Bool.false_ne_true h.1]
    exact judgeTarget_eq_iff t span other
  | bare span other =>
    obtain rfl : other = name := ha
    change (if _ then _ else _ : List ParseError × Option Tables) = _ ↔ _
    by_cases hf : other ∈ t.structFieldScope
    · rw [if_pos hf]
      exact iff_of_true rfl (.inl ⟨rfl, hf⟩)
    · rw [if_neg hf, or_iff_right fun h => hf h.2]
      exact judgeTarget_eq_iff t span other
  | _ => exact ha.elim

theorem after_eq_of_assigns {t : Tables} {event : Event} {name : String}
    (ha : Assigns name event) : after t event = t := by
  cases event with
  | target span other => rfl
  | bare span other => rfl
  | _ => exact ha.elim

/-- What the tables say of a name that the routine owns, where the parser comes to its
assignment. -/
theorem owned_iff {t : Tables} {decl : RoutineSyntax} {before : List Event} {name : String}
    (hc : ∀ event ∈ before, Checks event) (ho : Owned decl before name) :
    let found := before.foldl after
      ((t.addInputs (decl.inputs.map (·.name))).addOutputs (decl.outputs.map (·.name)))
    (found.isVariableDeclared name ∧ ¬found.isReadOnly name) ↔
      (name ∉ decl.inputs.map (·.name) ∧ name ∉ t.autotunerInputParams ∧
        name ∉ t.stateInputParams ∧
        (t.inStructRoutine = true → name ∈ decl.outputs.map (·.name) ∨
          name ∈ t.structFieldScope ∨ name ∈ t.autotunerScope ∨
          name ∈ t.autotunerOutputParams ∨ name ∈ t.stateLocalScope)) := by
  intro found
  let entered := (t.addInputs (decl.inputs.map (·.name))).addOutputs (decl.outputs.map (·.name))
  have hsame : Same entered found := same_foldl entered hc
  have hinputs : found.autotunerInputParams =
      t.autotunerInputParams ∪ (decl.inputs.map (·.name)).toFinset := hsame.inputs
  have houtputs : found.autotunerOutputParams =
      t.autotunerOutputParams ∪ (decl.outputs.map (·.name)).toFinset := hsame.outputs
  have hparams : found.stateInputParams = t.stateInputParams := hsame.stateParams
  rw [isReadOnly_iff, hinputs, hparams, Finset.mem_union, List.mem_toFinset]
  cases hk : t.inStructRoutine with
  | false =>
    have hdeclared : found.isVariableDeclared name := by
      rw [isVariableDeclared_iff]
      rcases ho with ⟨span, hm⟩ | hm
      · have hentered := entered_of_declare (t := entered) hk hc hm
        rcases hentered with h | h
        · exact .inr (.inl h)
        · exact .inr (.inr (.inr (.inr (.inl h))))
      · refine .inr (.inr (.inr (.inl ?_)))
        rw [houtputs]
        exact Finset.mem_union_right _ (List.mem_toFinset.mpr hm)
    simp only [hdeclared, true_and]
    tauto
  | true =>
    have hfound : found = entered := foldl_eq_of_inStructRoutine (t := entered) hk hc
    rw [isVariableDeclared_iff, hinputs, houtputs, hparams, hsame.fields, hsame.inStructRoutine,
      Finset.mem_union, Finset.mem_union, List.mem_toFinset, List.mem_toFinset, hfound]
    change ((t.inStructRoutine = true ∧ name ∈ t.structFieldScope) ∨ name ∈ t.autotunerScope ∨
      _ ∨ _ ∨ name ∈ t.stateLocalScope ∨ _) ∧ _ ↔ _
    rw [hk]
    tauto

/-- The parser accepts an assignment to a name that the routine owns exactly when the name is
assignable. For a routine of a struct `s` is the session after `enter_struct_routine`. -/
theorem accepted_iff_assignable (s : Session) (hs : s.stop = none) (decl : RoutineSyntax) :
    Does (routineDecl decl) (ofSignature decl ++ ofBody decl.body) ∧
      ∀ (before : List Event) (event : Event) (rest : List Event) (name : String) (s' : Session),
        ofBody decl.body = before ++ event :: rest → Assigns name event → Owned decl before name →
        (runAll (ofSignature decl ++ before) s).outcome = .ok () s' →
        (Accepted event s' ↔ Assignable s.tables decl event name) := by
  refine ⟨routineDecl_does decl, fun before event rest name s' hsplit ha hown ho => ?_⟩
  obtain ⟨htables, hstop⟩ := tables_of_runAll hs ho
  rw [List.foldl_append, foldl_ofSignature] at htables
  have hc : ∀ event ∈ before, Checks event := fun event hm =>
    checks_ofBody decl.body event (hsplit ▸ List.mem_append_left _ hm)
  have hfields : s'.tables.structFieldScope = s.tables.structFieldScope := by
    rw [htables]
    exact (same_foldl _ hc).fields
  rw [accepted_iff_judge hstop (after_eq_of_assigns ha), judge_eq_iff ha, hfields, htables]
  exact or_congr_right (owned_iff hc hown)

/-- `routine Count () -> () { int x; x = 1; }`. -/
def counting : RoutineSyntax where
  name := "Count"
  body := [.varDecl {} { type := .primitive .int, name := "x" },
    .assign {} "x" (.literal {} (.int 1))]

theorem accepted_counting :
    Accepted (.bare {} "x") ⟨{ autotunerScope := {"x"} }, "count.fal", [], none⟩ := by
  refine ((accepted_iff_assignable ⟨{}, "count.fal", [], none⟩ rfl counting).2
    [.declare {} "x"] (.bare {} "x") [] "x" _ rfl rfl (.inl ⟨{}, List.mem_cons_self⟩) rfl).mpr ?_
  exact .inr ⟨List.not_mem_nil, Finset.notMem_empty _, Finset.notMem_empty _, nofun⟩

/-- The same routine in a struct. -/
def countingStruct : SourceText where
  filename := "count.fal"
  stem := "count"
  derivation := { items := [.struct {
    name := "Counter"
    routines := [counting] }] }

theorem not_accepted_counting :
    (parseFile {} ∅ countingStruct).1 = ⟨none, [⟨{}, "Undefined variable: x"⟩]⟩ ∧
      ¬∀ (s : Session) (decl : RoutineSyntax) (before : List Event) (event : Event)
        (rest : List Event) (name : String) (s' : Session), s.stop = none →
        ofBody decl.body = before ++ event :: rest → Assigns name event → Owned decl before name →
        (runAll (ofSignature decl ++ before) s).outcome = .ok () s' → Accepted event s' := by
  refine ⟨rfl, fun h => ?_⟩
  have haccepted := h
    ⟨(Tables.enterStruct {} "Counter" []).enterStructRoutine, "count.fal", [], none⟩ counting
    [.declare {} "x"] (.bare {} "x") [] "x" _ rfl rfl rfl (.inl ⟨{}, List.mem_cons_self⟩) rfl
  cases haccepted

end FalconLib.Parser.LocalAssignments
