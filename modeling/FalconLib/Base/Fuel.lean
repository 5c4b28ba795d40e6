import FalconLib.Base.Growth
import Mathlib.Data.Nat.Init

/-!
# More fuel

A bound on the depth of calls is no part of what a computation means. Two computations run side by
side, the second with at least the fuel of the first: where the first does not stop for lack of it,
the second ends in the same way. A `Regime` says what holds of the states on the way, what the first
may ask, and whether it may stop at all; if it may not, the pair has ended whatever its fuel.
-/

namespace FalconLib.Base

structure Regime (κ σ : Type) where
  Valid : σ → Prop
  /-- What the first computation may ask. -/
  Asks : κ → Prop
  /-- The first computation may run out of fuel. -/
  MayStop : Prop

namespace Regime

variable {κ ε σ α β : Type} {R : Regime κ σ}

/-- How the first computation may end, beside the second. -/
def Ends (R : Regime κ σ) (p : α → Prop) (o o' : Outcome ε σ α) : Prop :=
  match o with
  | .ok a t => o' = .ok a t ∧ R.Valid t ∧ p a
  | .throw e t => o' = .throw e t ∧ R.Valid t
  | .halt .outOfFuel => R.MayStop
  | .halt .undefinedBehaviour => o' = .halt .undefinedBehaviour

/-- From every valid state the first asks what it may, and the second ends as the first does, unless
that may stop and does. -/
def Outlasts (R : Regime κ σ) (m m' : Comp κ ε σ α) (p : α → Prop := fun _ => True) : Prop :=
  ∀ s, R.Valid s → (∀ k ∈ (m s).asked, R.Asks k) ∧ R.Ends p (m s).outcome (m' s).outcome

theorem Ends.eq {p : α → Prop} {o o' : Outcome ε σ α} (h : R.Ends p o o')
    (ho : o ≠ .halt .outOfFuel) : o' = o := by
  cases o with
  | ok a t => exact h.1
  | throw e t => exact h.1
  | halt r =>
    cases r with
    | outOfFuel => exact absurd rfl ho
    | undefinedBehaviour => exact h

theorem Ends.ne {p : α → Prop} {o o' : Outcome ε σ α} (h : R.Ends p o o') (hR : ¬ R.MayStop) :
    o ≠ .halt .outOfFuel := by
  intro ho
  subst ho
  exact hR h

theorem Ends.state {p : α → Prop} {o o' : Outcome ε σ α} {t : σ} (h : R.Ends p o o')
    (hleft : o.state? = some t) : R.Valid t := by
  cases o with
  | ok a u =>
    cases hleft
    exact h.2.1
  | throw e u =>
    cases hleft
    exact h.2
  | halt r => cases hleft

namespace Outlasts

variable {m m' : Comp κ ε σ α} {p : α → Prop} {q : β → Prop}

/-- A computation that asks nothing. -/
theorem of_ends {p : α → Prop} (hm : ∀ s, (m s).asked = [])
    (h : ∀ s, R.Valid s → R.Ends p (m s).outcome (m' s).outcome) : R.Outlasts m m' p := by
  intro s hs
  rw [hm s]
  exact ⟨List.forall_mem_nil _, h s hs⟩

/-- What is known of a value may depend on the run that returned it. -/
theorem of_ok {p' : α → Prop} (h : R.Outlasts m m' p)
    (hp : ∀ s a t, (m s).outcome = .ok a t → p' a) : R.Outlasts m m' p' := by
  intro s hs
  obtain ⟨hasked, hm⟩ := h s hs
  refine ⟨hasked, ?_⟩
  cases ho : (m s).outcome with
  | ok a t =>
    rw [ho] at hm
    exact ⟨hm.1, hm.2.1, hp s a t ho⟩
  | throw e t =>
    rw [ho] at hm
    exact hm
  | halt r =>
    rw [ho] at hm
    cases r <;> exact hm

theorem pure {a : α} (h : p a) :
    R.Outlasts (Pure.pure a : Comp κ ε σ α) (Pure.pure a) p :=
  of_ends (fun _ => rfl) fun _ hs => ⟨rfl, hs, h⟩

theorem throw (e : ε) : R.Outlasts (Comp.throw e : Comp κ ε σ α) (Comp.throw e) p :=
  of_ends (fun _ => rfl) fun _ hs => ⟨rfl, hs⟩

theorem undefined :
    R.Outlasts (Comp.halt .undefinedBehaviour : Comp κ ε σ α) (Comp.halt .undefinedBehaviour) p :=
  of_ends (fun _ => rfl) fun _ _ => rfl

/-- A computation that stops is outlasted by any other. -/
theorem stop (h : R.MayStop) (m : Comp κ ε σ α) : R.Outlasts (Comp.halt .outOfFuel) m p :=
  of_ends (fun _ => rfl) fun _ _ => h

theorem gets {g : σ → α} (h : ∀ s, R.Valid s → p (g s)) :
    R.Outlasts (Comp.gets g : Comp κ ε σ α) (Comp.gets g) p :=
  of_ends (fun _ => rfl) fun s hs => ⟨rfl, hs, h s hs⟩

theorem ask {k : κ} (h : R.Asks k) : R.Outlasts (Comp.ask k : Comp κ ε σ Unit) (Comp.ask k) :=
  fun _ hs => ⟨List.forall_mem_singleton.mpr h, rfl, hs, trivial⟩

theorem modify {g : σ → σ} (h : ∀ s, R.Valid s → R.Valid (g s)) :
    R.Outlasts (Comp.modify g : Comp κ ε σ Unit) (Comp.modify g) :=
  of_ends (fun _ => rfl) fun s hs => ⟨rfl, h s hs, trivial⟩

theorem ofOutcome {o : Outcome ε Unit α} (h : o ≠ .halt .outOfFuel) :
    R.Outlasts (Comp.ofOutcome o : Comp κ ε σ α) (Comp.ofOutcome o) := by
  cases o with
  | ok a u => exact pure trivial
  | throw e u => exact throw e
  | halt r =>
    cases r with
    | outOfFuel => exact absurd rfl h
    | undefinedBehaviour => exact undefined

theorem bind {f f' : α → Comp κ ε σ β} (h : R.Outlasts m m' p)
    (hf : ∀ a, p a → R.Outlasts (f a) (f' a) q) : R.Outlasts (m >>= f) (m' >>= f') q := by
  intro s hs
  obtain ⟨hasked, hm⟩ := h s hs
  rcases hrun : m s with ⟨asked, o⟩
  rw [hrun] at hasked hm
  cases o with
  | ok a t =>
    obtain ⟨hlater, hends⟩ := hf a hm.2.2 t hm.2.1
    rw [Comp.run_bind_of_ok hrun, Comp.bind_of_ok hm.1]
    exact ⟨List.forall_mem_append.mpr ⟨hasked, hlater⟩, hends⟩
  | throw e t =>
    have hleft : (m >>= f) s = ⟨asked, .throw e t⟩ := by
      change Comp.bind m f s = _
      rw [Comp.bind, hrun]
    rw [hleft, Comp.bind_of_throw hm.1]
    exact ⟨hasked, rfl, hm.2⟩
  | halt r =>
    have hleft : (m >>= f) s = ⟨asked, .halt r⟩ := by
      change Comp.bind m f s = _
      rw [Comp.bind, hrun]
    rw [hleft]
    refine ⟨hasked, ?_⟩
    cases r with
    | outOfFuel => exact hm
    | undefinedBehaviour => exact Comp.bind_of_halt hm

theorem gets_bind {g : σ → α} {f f' : α → Comp κ ε σ β} (hf : ∀ a, R.Outlasts (f a) (f' a) q) :
    R.Outlasts (Comp.gets g >>= f) (Comp.gets g >>= f') q :=
  (gets (p := fun _ => True) fun _ _ => trivial).bind fun a _ => hf a

/-- Both computations fall back on the same handler. -/
theorem tryCatch {handler : ε → Comp κ ε σ α} (h : R.Outlasts m m' p)
    (hf : ∀ e, R.Outlasts (handler e) (handler e) p) :
    R.Outlasts (m.tryCatch handler) (m'.tryCatch handler) p := by
  intro s hs
  have hm := h s hs
  unfold Comp.tryCatch
  generalize m s = first, m' s = second at hm ⊢
  obtain ⟨asked, o⟩ := first
  obtain ⟨asked', o'⟩ := second
  obtain ⟨hasked, hm⟩ := hm
  cases o with
  | ok a t =>
    obtain ⟨rfl, ht, ha⟩ := hm
    exact ⟨hasked, rfl, ht, ha⟩
  | throw e t =>
    obtain ⟨rfl, ht⟩ := hm
    obtain ⟨hlater, hends⟩ := hf e t ht
    exact ⟨List.forall_mem_append.mpr ⟨hasked, hlater⟩, hends⟩
  | halt r =>
    refine ⟨hasked, ?_⟩
    cases r with
    | outOfFuel => exact hm
    | undefinedBehaviour =>
      cases hm
      rfl

end Outlasts

/-! ## All fuels -/

section Families

variable {m : Nat → Comp κ ε σ α} {p : α → Prop} {s : σ}

/-- What has ended with some fuel ends so with more. -/
theorem outcome_of_le (h : ∀ n, R.Outlasts (m n) (m (n + 1)) p) (hs : R.Valid s) {n : Nat}
    {o : Outcome ε σ α} (hn : (m n s).outcome = o) (ho : o ≠ .halt .outOfFuel) {k : Nat}
    (hk : n ≤ k) : (m k s).outcome = o := by
  induction k, hk using Nat.le_induction with
  | base => exact hn
  | succ k _ ih =>
    have hnext := (h k s hs).2.eq (by rwa [ih])
    rw [hnext, ih]

/-- If none of a family may stop from some fuel on, they all end in one way, and well. -/
theorem exists_outcome (hR : ¬ R.MayStop) {bound : Nat}
    (h : ∀ n, bound ≤ n → R.Outlasts (m n) (m (n + 1)) p) (hs : R.Valid s) :
    ∃ o, o ≠ .halt .outOfFuel ∧ (∀ t, o.state? = some t → R.Valid t) ∧
      ∀ n, bound ≤ n → (m n s).outcome = o := by
  have hends : ∀ n, bound ≤ n → (m n s).outcome ≠ .halt .outOfFuel :=
    fun n hn => (h n hn s hs).2.ne hR
  refine ⟨(m bound s).outcome, hends bound (Nat.le_refl _),
    fun t ht => (h bound (Nat.le_refl _) s hs).2.state ht, fun n hn => ?_⟩
  induction n, hn using Nat.le_induction with
  | base => rfl
  | succ n hn ih => rw [(h n hn s hs).2.eq (hends n hn), ih]

end Families

end Regime

end FalconLib.Base
