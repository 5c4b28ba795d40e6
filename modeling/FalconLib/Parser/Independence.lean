import FalconLib.Parser.Events
import FalconLib.Parser.Trees

/-!
# What a declaration inherits from those before it

A declaration is parsed on the tables that the declarations before it leave. The errors recorded
for it, and its tree, are its own as long as no name that it declares or assigns is left over.
-/

namespace FalconLib.Parser.Independence

open FalconLib.Base (Comp)
open FalconLib.Dsl
open Events

/-! ## Names left over -/

/-- The names that earlier declarations have left in the scopes. -/
structure Leftover where
  scope : Finset String := ∅
  inputs : Finset String := ∅
  outputs : Finset String := ∅
  locals : Finset String := ∅
  params : Finset String := ∅

def leftover (t : Tables) : Leftover where
  scope := t.autotunerScope
  inputs := t.autotunerInputParams
  outputs := t.autotunerOutputParams
  locals := t.stateLocalScope
  params := t.stateInputParams

namespace Leftover

def Declares (l : Leftover) (name : String) : Prop :=
  name ∈ l.scope ∨ name ∈ l.inputs ∨ name ∈ l.outputs ∨ name ∈ l.locals ∨ name ∈ l.params

def ReadOnly (l : Leftover) (name : String) : Prop := name ∈ l.inputs ∨ name ∈ l.params

def Redeclares (l : Leftover) (inState : Bool) (name : String) : Prop :=
  name ∈ l.scope ∨ name ∈ l.inputs ∨ name ∈ l.outputs ∨
    (inState = true ∧ (name ∈ l.params ∨ name ∈ l.locals))

/-- An action that clears a scope clears what is left over in it. -/
def after (l : Leftover) : Event → Leftover
  | .change .clearAutotunerScope => {}
  | .change .enterStructRoutine | .change .leaveStructRoutine => { scope := l.scope }
  | .change .enterState =>
    { l with
      locals := ∅
      params := ∅ }
  | _ => l

end Leftover

/-- An assignment to a variable finds nothing that is left over. -/
def QuietTarget (l : Leftover) (u : Tables) (name : String) : Prop :=
  (l.Declares name → u.isVariableDeclared name) ∧ (l.ReadOnly name → u.isReadOnly name)

/-- No name left over changes what the action finds in the tables of the declaration itself. -/
def Quiet (l : Leftover) (u : Tables) : Event → Prop
  | .declare _ name => l.Redeclares u.inStateBody name → u.isRedeclaration name u.inStateBody
  | .target _ name => QuietTarget l u name
  | .bare _ name => name ∉ u.structFieldScope → QuietTarget l u name
  | _ => True

/-- The declaration, parsed on its own from the tables `u`, comes to no action that is not quiet. -/
def Undisturbed (l : Leftover) (u : Tables) : List Event → Prop
  | [] => True
  | event :: events =>
    Quiet l u event ∧ ∀ u', (judge u event).2 = some u' → Undisturbed (l.after event) u' events

/-! ## Tables with and without them -/

/-- The action looks up a type of the name. -/
def Mentions (name : String) : Event → Prop
  | .generic _ other _ | .named _ other => other = name
  | _ => False

/-- The tables `t` are `u` with the names left over, as far as the types in `known` go. -/
structure Rel (known : String → Prop) (l : Leftover) (t u : Tables) : Prop where
  inStateBody : t.inStateBody = u.inStateBody
  inStructRoutine : t.inStructRoutine = u.inStructRoutine
  fields : t.structFieldScope = u.structFieldScope
  generics : t.currentGenericParams = u.currentGenericParams
  types : ∀ name, known name → (name ∈ t.structKnownTypes ↔ name ∈ u.structKnownTypes)
  arities : ∀ name, known name → t.structGenericParamsMap[name]? = u.structGenericParamsMap[name]?
  scope : t.autotunerScope = u.autotunerScope ∪ l.scope
  inputs : t.autotunerInputParams = u.autotunerInputParams ∪ l.inputs
  outputs : t.autotunerOutputParams = u.autotunerOutputParams ∪ l.outputs
  locals : t.stateLocalScope = u.stateLocalScope ∪ l.locals
  params : t.stateInputParams = u.stateInputParams ∪ l.params

section Related

variable {known : String → Prop} {l : Leftover} {t u : Tables} (h : Rel known l t u)
include h

theorem Rel.isVariableDeclared (name : String) :
    t.isVariableDeclared name ↔ u.isVariableDeclared name ∨ l.Declares name := by
  rw [isVariableDeclared_iff, isVariableDeclared_iff, h.inStructRoutine, h.fields, h.scope,
    h.inputs, h.outputs, h.locals, h.params]
  simp only [Finset.mem_union, Leftover.Declares]
  tauto

theorem Rel.isReadOnly (name : String) :
    t.isReadOnly name ↔ u.isReadOnly name ∨ l.ReadOnly name := by
  rw [isReadOnly_iff, isReadOnly_iff, h.inputs, h.params]
  simp only [Finset.mem_union, Leftover.ReadOnly]
  tauto

theorem Rel.isRedeclaration (name : String) :
    t.isRedeclaration name t.inStateBody ↔
      u.isRedeclaration name u.inStateBody ∨ l.Redeclares u.inStateBody name := by
  unfold Tables.isRedeclaration Leftover.Redeclares
  rw [h.inStateBody, h.scope, h.inputs, h.outputs, h.locals, h.params]
  simp only [Bool.or_eq_true, Bool.and_eq_true, decide_eq_true_eq, Finset.mem_union]
  tauto

theorem Rel.declare (name : String) : Rel known l (t.declare name) (u.declare name) := by
  unfold Tables.declare
  by_cases hs : u.inStructRoutine = true
  · rw [if_pos hs, if_pos (h.inStructRoutine.trans hs)]
    exact h
  · rw [if_neg hs, if_neg fun ht => hs (h.inStructRoutine.symm.trans ht)]
    by_cases hb : u.inStateBody = true
    · rw [if_pos hb, if_pos (h.inStateBody.trans hb)]
      exact { h with locals := by rw [h.locals, Finset.insert_union] }
    · rw [if_neg hb, if_neg fun ht => hb (h.inStateBody.symm.trans ht)]
      exact { h with scope := by rw [h.scope, Finset.insert_union] }

theorem Rel.change (c : Change) :
    Rel known (l.after (.change c)) (c.apply t) (c.apply u) := by
  have hnone : (∅ : Finset String) = ∅ ∪ ∅ := (Finset.union_empty ∅).symm
  cases c with
  | addInputs names =>
    refine { h with inputs := ?_ }
    change _ ∪ _ = _ ∪ _ ∪ l.inputs
    rw [h.inputs, Finset.union_right_comm]
  | addOutputs names =>
    refine { h with outputs := ?_ }
    change _ ∪ _ = _ ∪ _ ∪ l.outputs
    rw [h.outputs, Finset.union_right_comm]
  | addStateParams names =>
    refine { h with params := ?_ }
    change _ ∪ _ = _ ∪ _ ∪ l.params
    rw [h.params, Finset.union_right_comm]
  | enterState =>
    exact { h with
      inStateBody := rfl
      locals := hnone
      params := hnone }
  | leaveState => exact { h with inStateBody := rfl }
  | clearAutotunerScope =>
    exact { h with
      scope := hnone
      inputs := hnone
      outputs := hnone
      locals := hnone
      params := hnone }
  | enterStruct name genericParams =>
    refine { h with
      fields := rfl
      generics := rfl
      types := fun other ho => ?_
      arities := fun other ho => ?_ }
    · exact (Finset.mem_insert.trans (or_congr_right (h.types other ho))).trans
        Finset.mem_insert.symm
    · change (t.structGenericParamsMap.assign name genericParams)[other]? =
        (u.structGenericParamsMap.assign name genericParams)[other]?
      rw [Base.StdMap.getElem?_assign, Base.StdMap.getElem?_assign, h.arities other ho]
  | addField name => exact { h with fields := congrArg (insert name) h.fields }
  | leaveStruct =>
    exact { h with
      fields := rfl
      generics := rfl }
  | enterStructRoutine =>
    exact { h with
      inStructRoutine := rfl
      inputs := hnone
      outputs := hnone
      locals := hnone
      params := hnone }
  | leaveStructRoutine =>
    exact { h with
      inStructRoutine := rfl
      inputs := hnone
      outputs := hnone
      locals := hnone
      params := hnone }

/-- Every action keeps the tables apart by what is left over. -/
theorem Rel.after (event : Event) :
    Rel known (l.after event) (Events.after t event) (Events.after u event) := by
  cases event with
  | declare span name => exact h.declare name
  | change c => exact h.change c
  | _ => exact h

end Related

/-! ## The judgement of one action -/

/-- The same errors, and both go on or both abort. -/
def SameVerdict (v v' : List ParseError × Option Tables) : Prop :=
  v.1 = v'.1 ∧ v.2.isSome = v'.2.isSome

theorem judgeTarget_same {t u : Tables} {span : Span} {name : String}
    (hd : t.isVariableDeclared name ↔ u.isVariableDeclared name)
    (hr : t.isReadOnly name ↔ u.isReadOnly name) :
    SameVerdict (judgeTarget t span name) (judgeTarget u span name) := by
  unfold judgeTarget writtenReadOnly
  simp only [hd, hr]
  split_ifs <;> exact ⟨rfl, rfl⟩

theorem judge_same {known : String → Prop} {l : Leftover} {t u : Tables} (h : Rel known l t u)
    {event : Event} (hk : ∀ name, Mentions name event → known name) (hq : Quiet l u event) :
    SameVerdict (judge t event) (judge u event) := by
  have htarget (span : Span) {name : String} (hn : QuietTarget l u name) :
      SameVerdict (judgeTarget t span name) (judgeTarget u span name) :=
    judgeTarget_same ((h.isVariableDeclared name).trans (or_iff_left_of_imp hn.1))
      ((h.isReadOnly name).trans (or_iff_left_of_imp hn.2))
  cases event with
  | generic span name arity =>
    have hknown := hk name rfl
    change SameVerdict (judgeGeneric t span name arity) (judgeGeneric u span name arity)
    unfold judgeGeneric
    rw [h.arities name hknown]
    simp only [h.types name hknown]
    split_ifs
    · cases u.structGenericParamsMap[name]? with
      | none => exact ⟨rfl, rfl⟩
      | some params =>
        dsimp only
        split_ifs <;> exact ⟨rfl, rfl⟩
    · exact ⟨rfl, rfl⟩
  | named span name =>
    change SameVerdict (judgeNamed t span name) (judgeNamed u span name)
    unfold judgeNamed
    rw [h.generics]
    simp only [h.types name (hk name rfl)]
    split_ifs <;> exact ⟨rfl, rfl⟩
  | declare span name =>
    refine ⟨?_, rfl⟩
    change redeclared t span name = redeclared u span name
    unfold redeclared
    simp only [(h.isRedeclaration name).trans (or_iff_left_of_imp hq)]
  | target span name => exact htarget span hq
  | bare span name =>
    change SameVerdict (if _ then _ else _) (if _ then _ else _)
    rw [h.fields]
    by_cases hf : name ∈ u.structFieldScope
    · rw [if_pos hf, if_pos hf]
      exact ⟨rfl, rfl⟩
    · rw [if_neg hf, if_neg hf]
      exact htarget span (hq hf)
  | change c => exact ⟨rfl, rfl⟩

/-- What follows when a name left over makes a difference: an error that the declaration does not
have on its own, or none where it has one. -/
def Disturbed (l : Leftover) (v v' : List ParseError × Option Tables) : Prop :=
  v.2.isSome = true ∧
    ((v'.2.isSome = true ∧ v'.1.length < v.1.length) ∨
      ∃ span name, v' = ([⟨span, "Undefined variable: " ++ name⟩], none) ∧ l.Declares name)

theorem Leftover.ReadOnly.declares {l : Leftover} {name : String} (h : l.ReadOnly name) :
    l.Declares name :=
  h.elim (fun hm => .inr (.inl hm)) fun hm => .inr (.inr (.inr (.inr hm)))

theorem judgeTarget_disturbed {known : String → Prop} {l : Leftover} {t u : Tables}
    (h : Rel known l t u) (span : Span) {name : String} (hq : ¬QuietTarget l u name) :
    Disturbed l (judgeTarget t span name) (judgeTarget u span name) := by
  have hl : l.Declares name := by
    by_contra hl
    exact hq ⟨fun hd => absurd hd hl, fun hr => absurd hr.declares hl⟩
  have ht : t.isVariableDeclared name := (h.isVariableDeclared name).mpr (.inr hl)
  unfold judgeTarget
  rw [if_pos ht]
  refine ⟨rfl, ?_⟩
  by_cases hu : u.isVariableDeclared name
  · obtain ⟨hro, hnot⟩ : l.ReadOnly name ∧ ¬u.isReadOnly name :=
      Classical.not_imp.mp fun hr => hq ⟨fun _ => hu, hr⟩
    rw [if_pos hu]
    refine .inl ⟨rfl, ?_⟩
    unfold writtenReadOnly
    rw [if_pos ((h.isReadOnly name).mpr (.inr hro)), if_neg hnot]
    exact Nat.zero_lt_one
  · rw [if_neg hu]
    exact .inr ⟨span, name, rfl, hl⟩

theorem judge_disturbed {known : String → Prop} {l : Leftover} {t u : Tables} (h : Rel known l t u)
    {event : Event} (hq : ¬Quiet l u event) : Disturbed l (judge t event) (judge u event) := by
  cases event with
  | declare span name =>
    obtain ⟨hl, hu⟩ := Classical.not_imp.mp hq
    refine ⟨rfl, .inl ⟨rfl, ?_⟩⟩
    change (redeclared u span name).length < (redeclared t span name).length
    unfold redeclared
    rw [if_neg hu, if_pos ((h.isRedeclaration name).mpr (.inr hl))]
    exact Nat.zero_lt_one
  | target span name => exact judgeTarget_disturbed h span hq
  | bare span name =>
    obtain ⟨hf, hq⟩ := Classical.not_imp.mp hq
    change Disturbed l (if _ then _ else _) (if _ then _ else _)
    rw [h.fields, if_neg hf, if_neg hf]
    exact judgeTarget_disturbed h span hq
  | _ => exact absurd trivial hq

/-! ## The judgement of all of them -/

theorem judgeAll_of_none {t : Tables} {event : Event} (events : List Event)
    (h : (judge t event).2 = none) : judgeAll t (event :: events) = judge t event := by
  unfold judgeAll
  rcases hj : judge t event with ⟨errors, _ | t'⟩
  · rfl
  · rw [hj] at h
    cases h

theorem judgeAll_of_some {t t' : Tables} {event : Event} (events : List Event)
    (h : (judge t event).2 = some t') :
    judgeAll t (event :: events) =
      ((judge t event).1 ++ (judgeAll t' events).1, (judgeAll t' events).2) := by
  rcases hj : judge t event with ⟨errors, o⟩
  rw [hj] at h
  cases h
  conv_lhs => unfold judgeAll
  rw [hj]

theorem judge_of_isSome {t : Tables} {event : Event} (h : (judge t event).2.isSome = true) :
    (judge t event).2 = some (Events.after t event) := by
  obtain ⟨t', ht⟩ := Option.isSome_iff_exists.mp h
  rw [ht, judge_tables ht]

/-- An action that aborts has recorded why. -/
theorem judge_errors_of_none {t : Tables} {event : Event} (h : (judge t event).2 = none) :
    0 < (judge t event).1.length := by
  have htarget {span : Span} {name : String} (h : (judgeTarget t span name).2 = none) :
      0 < (judgeTarget t span name).1.length := by
    unfold judgeTarget at h ⊢
    split_ifs at h ⊢
    exact Nat.zero_lt_one
  cases event with
  | generic span name arity =>
    change (judgeGeneric t span name arity).2 = none at h
    change 0 < (judgeGeneric t span name arity).1.length
    unfold judgeGeneric at h ⊢
    split_ifs at h ⊢
    · cases hp : t.structGenericParamsMap[name]? with
      | none =>
        rw [hp] at h
        cases h
      | some params =>
        rw [hp] at h
        dsimp only at h ⊢
        split_ifs at h ⊢
        exact Nat.zero_lt_one
    · exact Nat.zero_lt_one
  | named span name =>
    change (judgeNamed t span name).2 = none at h
    change 0 < (judgeNamed t span name).1.length
    unfold judgeNamed at h ⊢
    split_ifs at h ⊢
    exact Nat.zero_lt_one
  | target span name => exact htarget h
  | bare span name =>
    change (if _ then _ else _ : List ParseError × Option Tables).2 = none at h
    change 0 < (if _ then _ else _ : List ParseError × Option Tables).1.length
    split_ifs at h ⊢
    exact htarget h
  | declare span name => cases h
  | change c => cases h

theorem judgeAll_errors_of_none {t : Tables} {events : List Event}
    (h : (judgeAll t events).2 = none) : 0 < (judgeAll t events).1.length := by
  induction events generalizing t with
  | nil => cases h
  | cons event events ih =>
    cases hj : (judge t event).2 with
    | none =>
      rw [judgeAll_of_none events hj]
      exact judge_errors_of_none hj
    | some t' =>
      rw [judgeAll_of_some events hj] at h ⊢
      rw [List.length_append]
      exact Nat.add_pos_right _ (ih h)

section Lists

variable {known : String → Prop} {l : Leftover} {t u : Tables}

theorem eq_none_of_isSome {o o' : Option Tables} (h : o.isSome = o'.isSome) (hn : o' = none) :
    o = none := by
  cases o with
  | none => rfl
  | some t =>
    rw [hn] at h
    cases h

/-- A declaration that fares as on its own has at least the errors it has on its own. -/
theorem errors_le (h : Rel known l t u) {events : List Event}
    (hk : ∀ event ∈ events, ∀ name, Mentions name event → known name)
    (hsome : (judgeAll t events).2.isSome = (judgeAll u events).2.isSome) :
    (judgeAll u events).1.length ≤ (judgeAll t events).1.length := by
  induction events generalizing l t u with
  | nil => exact le_rfl
  | cons event events ih =>
    obtain ⟨hfirst, hrest⟩ := List.forall_mem_cons.mp hk
    have hlater (ht : (judge t event).2.isSome = true) (hu : (judge u event).2.isSome = true)
        (hlength : (judge u event).1.length ≤ (judge t event).1.length) :
        (judgeAll u (event :: events)).1.length ≤ (judgeAll t (event :: events)).1.length := by
      rw [judgeAll_of_some events (judge_of_isSome ht),
        judgeAll_of_some events (judge_of_isSome hu)] at hsome ⊢
      rw [List.length_append, List.length_append]
      exact Nat.add_le_add hlength (ih (h.after event) hrest hsome)
    by_cases hq : Quiet l u event
    · obtain ⟨herrors, hboth⟩ := judge_same h hfirst hq
      cases hj : (judge u event).2 with
      | none =>
        rw [judgeAll_of_none events hj, judgeAll_of_none events (eq_none_of_isSome hboth hj), herrors]
      | some u' =>
        rw [hj] at hboth
        exact hlater hboth (by rw [hj]; rfl) (le_of_eq (congrArg List.length herrors.symm))
    · obtain ⟨ht, ⟨hu, hlength⟩ | ⟨span, name, hu, _⟩⟩ := judge_disturbed h hq
      · exact hlater ht hu hlength.le
      · have hnone : (judge u event).2 = none := by rw [hu]
        rw [judgeAll_of_none events hnone, hu] at hsome ⊢
        exact judgeAll_errors_of_none (eq_none_of_isSome hsome rfl)

/-- No event clears what is left over. -/
def Keeps (l : Leftover) (events : List Event) : Prop := ∀ event ∈ events, l.after event = l

/-- The action assigns a variable. -/
def IsAssignment : Event → Prop
  | .target _ _ | .bare _ _ => True
  | _ => False

/-- What is left over where a variable is assigned is left over from there on. -/
def Steady (l : Leftover) : List Event → Prop
  | [] => True
  | event :: events => (IsAssignment event → Keeps l events) ∧ Steady (l.after event) events

/-- Messages that begin differently. -/
theorem message_ne {first second : String} (name other : String) (hf : 3 ≤ first.toList.length)
    (hs : 3 ≤ second.toList.length) (h : first.toList.take 3 ≠ second.toList.take 3) :
    first ++ name ≠ second ++ other := by
  intro he
  have htake : (first ++ name).toList.take 3 = (second ++ other).toList.take 3 := by rw [he]
  rw [String.toList_append, String.toList_append, List.take_append_of_le_length hf,
    List.take_append_of_le_length hs] at htake
  exact h htake

theorem writtenReadOnly_message {t : Tables} {span : Span} {name other : String} :
    ∀ error ∈ writtenReadOnly t span other, error.message ≠ "Undefined variable: " ++ name := by
  unfold writtenReadOnly
  split_ifs
  · intro error hm
    rw [List.mem_singleton.mp hm]
    exact message_ne other name (by decide) (by decide) (by decide)
  · exact nofun

theorem judgeTarget_message {t : Tables} {name : String} (hn : t.isVariableDeclared name)
    (span : Span) (other : String) :
    ∀ error ∈ (judgeTarget t span other).1, error.message ≠ "Undefined variable: " ++ name := by
  unfold judgeTarget
  split_ifs with hd
  · exact writtenReadOnly_message
  · intro error hm he
    rw [List.mem_singleton.mp hm] at he
    obtain rfl : other = name := (String.append_right_inj _).mp he
    exact hd hn

/-- A declared name is not reported as undefined. -/
theorem judge_message {t : Tables} {name : String} (hn : t.isVariableDeclared name) (event : Event) :
    ∀ error ∈ (judge t event).1, error.message ≠ "Undefined variable: " ++ name := by
  cases event with
  | generic span other arity =>
    change ∀ error ∈ (judgeGeneric t span other arity).1, _
    unfold judgeGeneric
    split_ifs
    · cases t.structGenericParamsMap[other]? with
      | none => exact nofun
      | some params =>
        dsimp only
        split_ifs
        · exact nofun
        · intro error hm
          rw [List.mem_singleton.mp hm]
          simp only [String.append_assoc]
          exact message_ne _ name (by decide) (by decide) (by decide)
    · intro error hm
      rw [List.mem_singleton.mp hm]
      simp only [String.append_assoc]
      exact message_ne _ name (by decide) (by decide) (by decide)
  | named span other =>
    change ∀ error ∈ (judgeNamed t span other).1, _
    unfold judgeNamed
    split_ifs
    · exact nofun
    · intro error hm
      rw [List.mem_singleton.mp hm]
      simp only [String.append_assoc]
      exact message_ne _ name (by decide) (by decide) (by decide)
  | declare span other =>
    change ∀ error ∈ redeclared t span other, _
    unfold redeclared
    split_ifs
    · intro error hm
      rw [List.mem_singleton.mp hm]
      exact message_ne other name (by decide) (by decide) (by decide)
    · exact nofun
  | target span other => exact judgeTarget_message hn span other
  | bare span other =>
    change ∀ error ∈ (if other ∈ t.structFieldScope then ([], some t)
      else judgeTarget t span other).1, _
    split_ifs
    · exact nofun
    · exact judgeTarget_message hn span other
  | change c => exact nofun

theorem judgeAll_message (h : Rel known l t u) {name : String} (hn : l.Declares name)
    {events : List Event} (hl : Keeps l events) :
    ∀ error ∈ (judgeAll t events).1, error.message ≠ "Undefined variable: " ++ name := by
  induction events generalizing t u with
  | nil => exact nofun
  | cons event events ih =>
    obtain ⟨hevent, hevents⟩ := List.forall_mem_cons.mp hl
    have hfirst := judge_message ((h.isVariableDeclared name).mpr (.inr hn)) event
    cases hj : (judge t event).2 with
    | none =>
      rw [judgeAll_of_none events hj]
      exact hfirst
    | some t' =>
      rw [judgeAll_of_some events hj, judge_tables hj]
      have hafter := h.after event
      rw [hevent] at hafter
      exact List.forall_mem_append.mpr ⟨hfirst, ih hafter hevents⟩

theorem isAssignment_of_not_quiet {event : Event} (hq : ¬Quiet l u event)
    (hu : (judge u event).2 = none) : IsAssignment event := by
  cases event with
  | declare span name => cases hu
  | target span name => trivial
  | bare span name => trivial
  | _ => exact absurd trivial hq

theorem Leftover.after_of_isAssignment (l : Leftover) {event : Event} (h : IsAssignment event) :
    l.after event = l := by
  cases event with
  | target span name => rfl
  | bare span name => rfl
  | _ => exact h.elim

/-- A declaration has the same errors as on its own, and gets as far, exactly when it comes to
nothing that a name left over disturbs. -/
theorem sameVerdict_iff (h : Rel known l t u) {events : List Event}
    (hk : ∀ event ∈ events, ∀ name, Mentions name event → known name) (hl : Steady l events) :
    SameVerdict (judgeAll t events) (judgeAll u events) ↔ Undisturbed l u events := by
  induction events generalizing l t u with
  | nil => exact iff_of_true ⟨rfl, rfl⟩ trivial
  | cons event events ih =>
    obtain ⟨hfirst, hrest⟩ := List.forall_mem_cons.mp hk
    obtain ⟨hkeeps, hsteady⟩ := hl
    have hafter := h.after event
    by_cases hq : Quiet l u event
    · obtain ⟨herrors, hboth⟩ := judge_same h hfirst hq
      cases hj : (judge u event).2 with
      | none =>
        rw [judgeAll_of_none events hj, judgeAll_of_none events (eq_none_of_isSome hboth hj)]
        refine iff_of_true ⟨herrors, hboth⟩ ⟨hq, fun u' hu => ?_⟩
        rw [hj] at hu
        cases hu
      | some u' =>
        rw [hj] at hboth
        rw [judgeAll_of_some events hj, judgeAll_of_some events (judge_of_isSome hboth)]
        have hu : u' = Events.after u event := judge_tables hj
        have hrestIff := ih hafter hrest hsteady
        rw [← hu] at hrestIff
        constructor
        · rintro ⟨hall, hsome⟩
          change _ ++ _ = _ ++ _ at hall
          rw [herrors] at hall
          refine ⟨hq, fun u'' hu'' => ?_⟩
          rw [hj] at hu''
          cases hu''
          exact hrestIff.mp ⟨List.append_cancel_left hall, hsome⟩
        · rintro ⟨_, hall⟩
          obtain ⟨hlater, hsome⟩ := hrestIff.mpr (hall u' hj)
          refine ⟨?_, hsome⟩
          change _ ++ _ = _ ++ _
          rw [herrors, hlater]
    · refine iff_of_false (fun hsame => ?_) fun hu => hq hu.1
      obtain ⟨ht, ⟨hu, hlength⟩ | ⟨span, name, hu, hd⟩⟩ := judge_disturbed h hq
      · rw [judgeAll_of_some events (judge_of_isSome ht),
          judgeAll_of_some events (judge_of_isSome hu)] at hsame
        have hle := errors_le hafter hrest hsame.2
        have heq := congrArg List.length hsame.1
        rw [List.length_append, List.length_append] at heq
        omega
      · have hnone : (judge u event).2 = none := by rw [hu]
        rw [judgeAll_of_some events (judge_of_isSome ht), judgeAll_of_none events hnone, hu] at hsame
        obtain ⟨hall, hsome⟩ := hsame
        change _ ++ _ = [_] at hall
        have hassign := isAssignment_of_not_quiet hq hnone
        rw [l.after_of_isAssignment hassign] at hafter
        have hlater := judgeAll_message hafter hd (hkeeps hassign)
        have hlength := judgeAll_errors_of_none (eq_none_of_isSome hsome rfl)
        obtain ⟨error, hm⟩ := List.exists_mem_of_length_pos hlength
        refine hlater error hm ?_
        have herror := List.mem_append_right (judge t event).1 hm
        rw [hall] at herror
        rw [List.mem_singleton.mp herror]

end Lists

/-! ## What the declarations clear -/

theorem Leftover.after_of_checks (l : Leftover) {event : Event} (h : Checks event) :
    l.after event = l := by
  cases event with
  | change c => exact h.elim
  | _ => rfl

theorem Leftover.after_empty (event : Event) : ({} : Leftover).after event = {} := by
  cases event with
  | change c => cases c <;> rfl
  | _ => rfl

theorem not_isAssignment_of_looksUpType {event : Event} (h : LooksUpType event) :
    ¬IsAssignment event := by
  cases event with
  | target span name => exact h.elim
  | bare span name => exact h.elim
  | _ => exact id

namespace Keeps

variable {l : Leftover} {first second : List Event}

theorem nil : Keeps l [] := nofun

theorem append (h : Keeps l first) (h' : Keeps l second) : Keeps l (first ++ second) :=
  List.forall_mem_append.mpr ⟨h, h'⟩

theorem cons {event : Event} (h : l.after event = l) (h' : Keeps l second) :
    Keeps l (event :: second) :=
  List.forall_mem_cons.mpr ⟨h, h'⟩

theorem of_checks (h : ∀ event ∈ first, Checks event) : Keeps l first := fun event hm =>
  l.after_of_checks (h event hm)

theorem ofParams (params : List ParamSyntax) : Keeps l (Events.ofParams params) :=
  of_checks fun event hm => (looksUpType_ofParams params event hm).checks

theorem ofRoutine (decl : RoutineSyntax) : Keeps l (Events.ofRoutine decl) :=
  ((ofParams _).append (cons rfl ((ofParams _).append (cons rfl nil)))).append
    (of_checks (checks_ofBody decl.body))

/-- The routines of a struct share the scope of the autotuner before it. -/
theorem ofStructRoutines (scope : Finset String) (decls : List RoutineSyntax) :
    Keeps { scope := scope } (decls.flatMap ofStructRoutine) := by
  intro event hm
  obtain ⟨decl, _, hm⟩ := List.mem_flatMap.mp hm
  have hroutine : Keeps { scope := scope } (ofStructRoutine decl) :=
    cons rfl ((ofRoutine decl).append (cons rfl nil))
  exact hroutine event hm

theorem steady (h : Keeps l first) : Steady l first := by
  induction first with
  | nil => trivial
  | cons event events ih =>
    obtain ⟨hevent, hevents⟩ := List.forall_mem_cons.mp h
    refine ⟨fun _ => hevents, ?_⟩
    rw [hevent]
    exact ih hevents

end Keeps

/-- What comes before the first assignment. -/
theorem steady_append {l : Leftover} {first second : List Event}
    (h : ∀ event ∈ first, l.after event = l ∧ ¬IsAssignment event) (h' : Steady l second) :
    Steady l (first ++ second) := by
  induction first with
  | nil => exact h'
  | cons event events ih =>
    obtain ⟨⟨hevent, hnot⟩, hevents⟩ := List.forall_mem_cons.mp h
    refine ⟨fun ha => absurd ha hnot, ?_⟩
    rw [hevent]
    exact ih hevents

theorem steady_ofStruct (l : Leftover) (decl : StructSyntax) : Steady l (ofStruct decl) := by
  refine ⟨False.elim, steady_append ?_ ?_⟩
  · intro event hm
    obtain ⟨field, _, hm⟩ := List.mem_flatMap.mp hm
    rcases List.mem_append.mp hm with hm | hm
    · have hlooks := looksUpType_ofType field.type event hm
      exact ⟨Leftover.after_of_checks _ hlooks.checks, not_isAssignment_of_looksUpType hlooks⟩
    · rw [List.mem_singleton.mp hm]
      exact ⟨rfl, id⟩
  · cases decl.routines with
    | nil => exact Keeps.steady (Keeps.cons rfl Keeps.nil)
    | cons routine routines =>
      refine ⟨False.elim, Keeps.steady ?_⟩
      have hfirst : Keeps { scope := l.scope } (ofRoutine routine ++ [.change .leaveStructRoutine]) :=
        (Keeps.ofRoutine routine).append (Keeps.cons rfl Keeps.nil)
      exact (hfirst.append (Keeps.ofStructRoutines l.scope routines)).append
        (Keeps.cons rfl Keeps.nil)

theorem steady_ofItem (l : Leftover) (item : ItemSyntax) : Steady l (ofItem item) := by
  cases item with
  | struct decl => exact steady_ofStruct l decl
  | routine decl => exact (Keeps.ofRoutine decl).steady
  | autotuner decl =>
    refine ⟨False.elim, Keeps.steady fun event _ => ?_⟩
    exact Leftover.after_empty event
  | ffImport decl => trivial

/-! ## A declaration in a file -/

/-- The program with the declarations of another after its own. -/
def joined (program tree : Program) : Program :=
  { program with
    structs := program.structs ++ tree.structs
    autotuners := program.autotuners ++ tree.autotuners
    routines := program.routines ++ tree.routines
    ffImports := program.ffImports ++ tree.ffImports }

/-- The errors that are recorded for a declaration, and what is built for it. -/
def result (t : Tables) (filename : String) (item : ItemSyntax) :
    List ParseError × Option Program :=
  match (programItem {} item ⟨t, filename, [], none⟩).outcome with
  | .ok program s => (s.errors, some program)
  | .throw _ s => (s.errors, none)
  | .halt _ => ([], none)

/-- A run that ends returns a result exactly when its judgement goes on. -/
theorem ends_cases {α : Type} {m : Parse α} {s : Session} {v : List ParseError × Option Tables}
    (h : Ends s v ((m >>= fun _ => pure ()) s).outcome) :
    (∃ a s', (m s).outcome = .ok a s' ∧ s'.errors = s.errors ++ v.1 ∧ v.2.isSome = true) ∨
      ∃ s', (m s).outcome = .throw .aborted s' ∧ s'.errors = s.errors ++ v.1 ∧
        v.2.isSome = false := by
  rw [Comp.outcome_bind] at h
  unfold Ends at h
  cases hv : v.2 with
  | some t =>
    rw [hv] at h
    cases ho : (m s).outcome with
    | ok a s' =>
      rw [ho] at h
      cases h
      exact .inl ⟨a, _, rfl, rfl, rfl⟩
    | throw e s' =>
      rw [ho] at h
      cases h
    | halt r =>
      rw [ho] at h
      cases h
  | none =>
    rw [hv] at h
    obtain ⟨t, h⟩ := h
    cases ho : (m s).outcome with
    | throw e s' =>
      rw [ho] at h
      cases h
      exact .inr ⟨_, rfl, rfl, rfl⟩
    | ok a s' =>
      rw [ho] at h
      cases h
    | halt r =>
      rw [ho] at h
      cases h

theorem programItem_ends {s : Session} (hs : s.stop = none) (item : ItemSyntax) :
    Ends s (judgeAll s.tables (ofItem item))
      ((programItem {} item >>= fun _ => pure ()) s).outcome := by
  rw [programItem_does {} item]
  exact runAll_ends hs (ofItem item)

theorem result_verdict (t : Tables) (filename : String) (item : ItemSyntax) :
    (result t filename item).1 = (judgeAll t (ofItem item)).1 ∧
      (result t filename item).2.isSome = (judgeAll t (ofItem item)).2.isSome := by
  have hends := programItem_ends (s := ⟨t, filename, [], none⟩) rfl item
  unfold result
  obtain ⟨program, s, ho, herrors, hsome⟩ | ⟨s, ho, herrors, hsome⟩ := ends_cases hends
  · rw [ho, hsome]
    exact ⟨herrors, rfl⟩
  · rw [ho, hsome]
    exact ⟨herrors, rfl⟩

theorem programItem_of_result {t : Tables} {filename : String} {item : ItemSyntax}
    {program : Program} (h : (result t filename item).2 = some program) :
    ∃ s, (programItem {} item ⟨t, filename, [], none⟩).outcome = .ok program s := by
  unfold result at h
  cases ho : (programItem {} item ⟨t, filename, [], none⟩).outcome with
  | ok program' s =>
    rw [ho] at h
    cases h
    exact ⟨s, rfl⟩
  | throw e s =>
    rw [ho] at h
    cases h
  | halt r =>
    rw [ho] at h
    cases h

theorem result_tree {t u : Tables} {filename : String} {item : ItemSyntax}
    (hf : t.structFieldScope = u.structFieldScope)
    (h : (result t filename item).2.isSome = (result u filename item).2.isSome) :
    (result t filename item).2 = (result u filename item).2 := by
  cases hu : (result u filename item).2 with
  | none =>
    rw [hu] at h
    exact Option.not_isSome_iff_eq_none.mp fun ht => Bool.false_ne_true (h.symm.trans ht)
  | some program =>
    rw [hu] at h
    obtain ⟨program', ht⟩ := Option.isSome_iff_exists.mp h
    obtain ⟨s, ho⟩ := programItem_of_result ht
    obtain ⟨s', ho'⟩ := programItem_of_result hu
    have halike : Trees.Alike ⟨u, filename, [], none⟩ ⟨t, filename, [], none⟩ := ⟨rfl, hf⟩
    have hsame := Trees.programItem_sameTree {} item _ _ _ _ _ _ halike ho' ho
    rw [ht, hsame.1]

theorem bind_joined {α : Type} (program : Program) (m : Parse α) {f g : α → Program}
    (h : ∀ a, f a = joined program (g a)) :
    (m >>= fun a => pure (f a)) =
      (m >>= fun a => pure (g a)) >>= fun tree => pure (joined program tree) := by
  rw [Comp.bind_assoc]
  exact congrArg (m >>= ·) (funext fun a => congrArg pure (h a))

theorem programItem_joined (program : Program) (item : ItemSyntax) :
    programItem program item =
      programItem {} item >>= fun tree => pure (joined program tree) := by
  cases item with
  | struct decl =>
    refine bind_joined program (structDecl decl) fun decl => ?_
    simp only [joined, List.append_nil, List.nil_append]
  | routine decl =>
    refine bind_joined program (routineDecl decl) fun decl => ?_
    simp only [joined, List.append_nil, List.nil_append]
  | autotuner decl =>
    refine bind_joined program (autotunerDecl decl) fun decl => ?_
    simp only [joined, List.append_nil, List.nil_append]
  | ffImport decl =>
    refine (congrArg pure ?_).trans (Comp.pure_bind _ _).symm
    simp only [joined, List.append_nil, List.nil_append]

/-- In a file, the errors of a declaration follow those before it, and its tree is added. -/
theorem programItem_outcome {s : Session} (hs : s.stop = none) (program : Program)
    (item : ItemSyntax) :
    (∀ tree, (result s.tables s.filename item).2 = some tree →
      ∃ s', (programItem program item s).outcome = .ok (joined program tree) s' ∧
        s'.errors = s.errors ++ (result s.tables s.filename item).1) ∧
    ((result s.tables s.filename item).2 = none →
      ∃ s', (programItem program item s).outcome = .throw .aborted s' ∧
        s'.errors = s.errors ++ (result s.tables s.filename item).1) := by
  obtain ⟨herrors, hboth⟩ := result_verdict s.tables s.filename item
  rw [programItem_joined, herrors]
  obtain ⟨tree, s', ho, hs', hsome⟩ | ⟨s', ho, hs', hsome⟩ := ends_cases (programItem_ends hs item)
  · rw [hsome] at hboth
    constructor
    · intro tree' ht
      obtain ⟨u, hu⟩ := programItem_of_result ht
      have halike : Trees.Alike ⟨s.tables, s.filename, [], none⟩ s := ⟨rfl, rfl⟩
      obtain ⟨rfl, _⟩ := Trees.programItem_sameTree {} item _ _ _ _ _ _ halike hu ho
      exact ⟨s', Comp.bind_of_ok ho, hs'⟩
    · intro hn
      rw [hn] at hboth
      cases hboth
  · rw [hsome] at hboth
    constructor
    · intro tree' ht
      rw [ht] at hboth
      cases hboth
    · intro _
      exact ⟨s', Comp.bind_of_throw ho, hs'⟩

/-- The tables `u` know the types that the item mentions as `t` does, and no variable. -/
structure Alone (item : ItemSyntax) (t u : Tables) : Prop where
  inStateBody : t.inStateBody = u.inStateBody
  inStructRoutine : t.inStructRoutine = u.inStructRoutine
  fields : t.structFieldScope = u.structFieldScope
  generics : t.currentGenericParams = u.currentGenericParams
  types : ∀ event ∈ ofItem item, ∀ name, Mentions name event →
    (name ∈ t.structKnownTypes ↔ name ∈ u.structKnownTypes) ∧
      t.structGenericParamsMap[name]? = u.structGenericParamsMap[name]?
  empty : leftover u = {}

theorem alone_clear (item : ItemSyntax) (t : Tables) : Alone item t t.clearAutotunerScope :=
  ⟨rfl, rfl, rfl, rfl, fun _ _ _ _ => ⟨Iff.rfl, rfl⟩, rfl⟩

theorem Alone.rel {item : ItemSyntax} {t u : Tables} (h : Alone item t u) :
    Rel (fun name => ∃ event ∈ ofItem item, Mentions name event) (leftover t) t u := by
  have hscope : u.autotunerScope = ∅ := congrArg Leftover.scope h.empty
  have hinputs : u.autotunerInputParams = ∅ := congrArg Leftover.inputs h.empty
  have houtputs : u.autotunerOutputParams = ∅ := congrArg Leftover.outputs h.empty
  have hlocals : u.stateLocalScope = ∅ := congrArg Leftover.locals h.empty
  have hparams : u.stateInputParams = ∅ := congrArg Leftover.params h.empty
  exact {
    inStateBody := h.inStateBody
    inStructRoutine := h.inStructRoutine
    fields := h.fields
    generics := h.generics
    types := fun name ⟨event, hm, hn⟩ => (h.types event hm name hn).1
    arities := fun name ⟨event, hm, hn⟩ => (h.types event hm name hn).2
    scope := by rw [hscope, Finset.empty_union]; rfl
    inputs := by rw [hinputs, Finset.empty_union]; rfl
    outputs := by rw [houtputs, Finset.empty_union]; rfl
    locals := by rw [hlocals, Finset.empty_union]; rfl
    params := by rw [hparams, Finset.empty_union]; rfl }

/-! ## What disturbs a declaration -/

theorem undisturbed_empty (u : Tables) (events : List Event) : Undisturbed {} u events := by
  have hnone {name : String} : ¬({} : Leftover).Declares name := by
    rintro (h | h | h | h | h) <;> exact Finset.notMem_empty name h
  have htarget (u : Tables) (name : String) : QuietTarget {} u name :=
    ⟨fun h => absurd h hnone, fun h => absurd h.declares hnone⟩
  induction events generalizing u with
  | nil => trivial
  | cons event events ih =>
    refine ⟨?_, fun u' _ => ?_⟩
    · cases event with
      | declare span name =>
        rintro (h | h | h | ⟨_, h | h⟩) <;> exact absurd h (Finset.notMem_empty name)
      | target span name => exact htarget u name
      | bare span name => exact fun _ => htarget u name
      | _ => trivial
    · rw [Leftover.after_empty]
      exact ih u'

/-- An autotuner clears everything before it begins. -/
theorem undisturbed_ofAutotuner (l : Leftover) (u : Tables) (decl : AutotunerSyntax) :
    Undisturbed l u (ofAutotuner decl) :=
  ⟨trivial, fun u' _ => undisturbed_empty u' _⟩

/-- The action declares or assigns the variable. -/
def Touches (name : String) : Event → Prop
  | .declare _ other | .target _ other | .bare _ other => other = name
  | _ => False

theorem Leftover.Redeclares.declares {l : Leftover} {inState : Bool} {name : String}
    (h : l.Redeclares inState name) : l.Declares name := by
  rcases h with h | h | h | ⟨_, h | h⟩
  · exact .inl h
  · exact .inr (.inl h)
  · exact .inr (.inr (.inl h))
  · exact .inr (.inr (.inr (.inr h)))
  · exact .inr (.inr (.inr (.inl h)))

theorem Leftover.declares_of_after {l : Leftover} {event : Event} {name : String}
    (h : (l.after event).Declares name) : l.Declares name := by
  have hnone : name ∉ (∅ : Finset String) := Finset.notMem_empty name
  unfold Leftover.after at h
  split at h
  · exact absurd h fun h => by rcases h with h | h | h | h | h <;> exact hnone h
  · exact h.elim .inl fun h => by rcases h with h | h | h | h <;> exact absurd h hnone
  · exact h.elim .inl fun h => by rcases h with h | h | h | h <;> exact absurd h hnone
  · rcases h with h | h | h | h | h
    · exact .inl h
    · exact .inr (.inl h)
    · exact .inr (.inr (.inl h))
    · exact absurd h hnone
    · exact absurd h hnone
  · exact h

/-- A declaration is on its own when it declares and assigns no name that is left over. -/
theorem undisturbed_of_apart {l : Leftover} (u : Tables) {events : List Event}
    (h : ∀ event ∈ events, ∀ name, Touches name event → ¬l.Declares name) :
    Undisturbed l u events := by
  induction events generalizing l u with
  | nil => trivial
  | cons event events ih =>
    obtain ⟨hfirst, hrest⟩ := List.forall_mem_cons.mp h
    refine ⟨?_, fun u' _ => ih u' fun event hm name hn hd => ?_⟩
    · have htarget {name : String} (hn : ¬l.Declares name) : QuietTarget l u name :=
        ⟨fun hd => absurd hd hn, fun hr => absurd hr.declares hn⟩
      cases event with
      | declare span name => exact fun hd => absurd hd.declares (hfirst name rfl)
      | target span name => exact htarget (hfirst name rfl)
      | bare span name => exact fun _ => htarget (hfirst name rfl)
      | _ => trivial
    · exact hrest event hm name hn (Leftover.declares_of_after hd)

/-- Whatever precedes a declaration, it leaves some tables `t`. The declaration fares in them as on
its own exactly when, on its own, it comes to nothing that a name left over disturbs. -/
theorem independent_iff (t u : Tables) (filename : String) (item : ItemSyntax)
    (h : Alone item t u) :
    result t filename item = result u filename item ↔
      Undisturbed (leftover t) u (ofItem item) := by
  rw [← sameVerdict_iff h.rel (fun event hm name hn => ⟨event, hm, hn⟩)
    (steady_ofItem (leftover t) item)]
  obtain ⟨herrors, hsome⟩ := result_verdict t filename item
  obtain ⟨herrors', hsome'⟩ := result_verdict u filename item
  unfold SameVerdict
  rw [← herrors, ← herrors', ← hsome, ← hsome']
  constructor
  · intro he
    rw [he]
    exact ⟨rfl, rfl⟩
  · rintro ⟨hfirst, hboth⟩
    exact Prod.ext hfirst (result_tree h.fields hboth)

/-- `routine Read(int x) -> () {}`. -/
def reading : RoutineSyntax where
  name := "Read"
  inputs := [{ type := .primitive .int, name := "x" }]

/-- `routine Keep() -> () { int y; }`. -/
def keeping : RoutineSyntax where
  name := "Keep"
  body := [.varDecl {} { type := .primitive .int, name := "y" }]

/-- `routine Write() -> (int x) { x = 1; }`. -/
def writing (name : String) : RoutineSyntax where
  name := "Write"
  outputs := [{ type := .primitive .int, name := "x" }]
  body := [.assign {} name (.literal {} (.int 1))]

theorem independent_writing :
    result { autotunerScope := {"y"} } "write.fal" (.routine (writing "x")) =
      result {} "write.fal" (.routine (writing "x")) := by
  refine (independent_iff { autotunerScope := {"y"} } {} "write.fal" (.routine (writing "x"))
    ⟨rfl, rfl, rfl, rfl, fun _ _ _ _ => ⟨Iff.rfl, rfl⟩, rfl⟩).mpr ?_
  refine undisturbed_of_apart {} fun event hm name hn => ?_
  have hm : event ∈ [.change (.addInputs []), .change (.addOutputs ["x"]), .bare {} "x"] := hm
  have hx : ¬(leftover { autotunerScope := {"y"} }).Declares "x" := by
    unfold Leftover.Declares leftover
    decide
  simp only [List.mem_cons, List.not_mem_nil, or_false] at hm
  rcases hm with rfl | rfl | rfl
  · exact hn.elim
  · exact hn.elim
  · obtain rfl : "x" = name := hn
    exact hx

def file (items : List ItemSyntax) : SourceText where
  filename := "write.fal"
  stem := "write"
  derivation := { items := items }

/-- A routine is blamed for a parameter of the routine before it, and allowed its variables. -/
theorem not_independent_writing :
    (parseFile {} ∅ (file [.routine reading, .routine (writing "x")])).1.errors =
        [⟨{}, "Cannot assign to read-only parameter: x"⟩] ∧
      (parseFile {} ∅ (file [.routine (writing "x")])).1.errors = [] ∧
      (parseFile {} ∅ (file [.routine keeping, .routine (writing "y")])).1.errors = [] ∧
      (parseFile {} ∅ (file [.routine (writing "y")])).1.errors = [⟨{}, "Undefined variable: y"⟩] ∧
      ¬∀ (t u : Tables) (filename : String) (item : ItemSyntax), Alone item t u →
        result t filename item = result u filename item := by
  refine ⟨rfl, rfl, rfl, rfl, fun h => ?_⟩
  have hsame := h { autotunerScope := {"y"} } {} "write.fal" (.routine (writing "y"))
    ⟨rfl, rfl, rfl, rfl, fun _ _ _ _ => ⟨Iff.rfl, rfl⟩, rfl⟩
  cases congrArg (fun r => r.1.length) hsame

end FalconLib.Parser.Independence
