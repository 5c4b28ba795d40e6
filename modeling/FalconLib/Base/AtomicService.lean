import Mathlib.Tactic.Common

/-!
# Services with atomic operations

A service holds a state; an operation has an effect on it and an answer from it. An attempt at an
operation that fails has no effect, unless its success was already decided when it failed. The
state after a history is then the effect of the operations that were answered, and of some of
those whose success was in doubt, each once and in their order.
-/

namespace FalconLib.Base

/-! ## Labelled runs -/

section Runs

variable {L S T : Type}

/-- A run of a relation with labels, one after the other. -/
inductive Labelled (step : S → L → S → Prop) : S → List L → S → Prop where
  | nil (s : S) : Labelled step s [] s
  | cons {s t u : S} {l : L} {ls : List L} (first : step s l t) (rest : Labelled step t ls u) :
      Labelled step s (l :: ls) u

variable {step : S → L → S → Prop} {step' : T → L → T → Prop} {R : S → T → Prop}

/-- Forward simulation: what holds of each step holds of each run. -/
theorem Labelled.simulate (hstep : ∀ s l s' t, R s t → step s l s' → ∃ t', step' t l t' ∧ R s' t')
    {s s' : S} {ls : List L} (h : Labelled step s ls s') {t : T} (hR : R s t) :
    ∃ t', Labelled step' t ls t' ∧ R s' t' := by
  induction h generalizing t with
  | nil s => exact ⟨t, .nil t, hR⟩
  | cons first _ ih =>
    obtain ⟨t₁, hfirst, hR₁⟩ := hstep _ _ _ _ hR first
    obtain ⟨t₂, hrest, hR₂⟩ := ih hR₁
    exact ⟨t₂, .cons hfirst hrest, hR₂⟩

end Runs

/-! ## Services -/

/-- How an attempt can be disturbed. -/
inductive Trouble where
  | none
  /-- It fails before anything is decided. -/
  | lost
  /-- It fails, and its effect stays. -/
  | inDoubt
deriving DecidableEq, Repr

structure Attempt (Op ε Reply : Type) where
  op : Op
  trouble : Trouble
  result : Except ε Reply

variable {Op ε Reply State : Type}

/-- What the operations are there for. -/
structure Service (Op Reply State : Type) where
  effect : Op → State → State
  answers : Op → State → Reply → Prop
  /-- Whether the operation fails in this state although nothing disturbs it. -/
  rejects : Op → State → Prop

namespace Service

variable (service : Service Op Reply State)

inductive Step : State → Attempt Op ε Reply → State → Prop where
  | answered {s : State} {op : Op} {trouble : Trouble} {reply : Reply}
      (h : service.answers op s reply) : Step s ⟨op, trouble, .ok reply⟩ (service.effect op s)
  | refused {s : State} {op : Op} {trouble : Trouble} {e : ε}
      (h : trouble ≠ .none ∨ service.rejects op s) : Step s ⟨op, trouble, .error e⟩ s
  | inDoubt {s : State} {op : Op} {e : ε} :
      Step s ⟨op, .inDoubt, .error e⟩ (service.effect op s)

abbrev History : State → List (Attempt Op ε Reply) → State → Prop := Labelled service.Step

/-- The operations of these attempts that took effect: all that were answered, and of the others
only such as were in doubt. -/
inductive Took : List (Attempt Op ε Reply) → List Op → Prop where
  | nil : Took [] []
  | answered {attempts : List (Attempt Op ε Reply)} {ops : List Op} {op : Op} {trouble : Trouble}
      {reply : Reply} (rest : Took attempts ops) :
      Took (⟨op, trouble, .ok reply⟩ :: attempts) (op :: ops)
  | refused {attempts : List (Attempt Op ε Reply)} {ops : List Op} {op : Op} {trouble : Trouble}
      {e : ε} (rest : Took attempts ops) : Took (⟨op, trouble, .error e⟩ :: attempts) ops
  | inDoubt {attempts : List (Attempt Op ε Reply)} {ops : List Op} {op : Op} {e : ε}
      (rest : Took attempts ops) : Took (⟨op, .inDoubt, .error e⟩ :: attempts) (op :: ops)

/-- The effects of these operations, in their order. -/
def effects (ops : List Op) (s : State) : State := ops.foldl (fun s op => service.effect op s) s

/-- No effect is lost and none happens twice. -/
theorem History.took {s t : State} {attempts : List (Attempt Op ε Reply)}
    (h : service.History s attempts t) : ∃ ops, Took attempts ops ∧ t = service.effects ops s := by
  induction h with
  | nil s => exact ⟨[], .nil, rfl⟩
  | cons first _ ih =>
    obtain ⟨ops, htook, rfl⟩ := ih
    cases first with
    | answered => exact ⟨_ :: ops, .answered htook, rfl⟩
    | refused => exact ⟨ops, .refused htook, rfl⟩
    | inDoubt => exact ⟨_ :: ops, .inDoubt htook, rfl⟩

end Service

end FalconLib.Base
