import FalconLib.Base.Checked

/-!
# Invariants of a state that only grows

A value may be valid in one state and not in another: a reference is, once the object it names has
been made. If states only grow, what is valid stays so, and a computation can be followed state by
state. `Growth` is an invariant with such an order, and `Keeps` says of one computation from one
state that it leaves a valid and larger state, whether it returns or throws.
-/

namespace FalconLib.Base

/-- The state that is left, unless there is none. -/
def Outcome.state? {ε σ α : Type} : Outcome ε σ α → Option σ
  | .ok _ state | .throw _ state => some state
  | .halt _ => none

structure Growth (σ : Type) where
  Valid : σ → Prop
  Grows : σ → σ → Prop
  refl : ∀ s, Grows s s
  trans : ∀ {s t u}, Grows s t → Grows t u → Grows s u

namespace Growth

variable {κ ε σ α β : Type} {G : Growth σ}

/-- How a run from `s` may end. -/
def Ends (G : Growth σ) (s : σ) (p : α → σ → Prop) : Outcome ε σ α → Prop
  | .ok a t => (G.Valid t ∧ G.Grows s t) ∧ p a t
  | .throw _ t => G.Valid t ∧ G.Grows s t
  | .halt _ => True

/-- From `s`, if that is valid, the computation leaves a valid and larger state, and where it
returns the value has `p` in that state. -/
def Keeps (G : Growth σ) (m : Comp κ ε σ α) (s : σ) (p : α → σ → Prop) : Prop :=
  G.Valid s → G.Ends s p (m s).outcome

theorem Ends.mono {s : σ} {p q : α → σ → Prop} {o : Outcome ε σ α} (h : G.Ends s p o)
    (hpq : ∀ a t, G.Grows s t → p a t → q a t) : G.Ends s q o := by
  cases o with
  | ok a t => exact ⟨h.1, hpq a t h.1.2 h.2⟩
  | throw e t => exact h
  | halt r => trivial

theorem Ends.state {s t : σ} {p : α → σ → Prop} {o : Outcome ε σ α} (h : G.Ends s p o)
    (hleft : o.state? = some t) : G.Valid t ∧ G.Grows s t := by
  cases o with
  | ok a u =>
    cases hleft
    exact h.1
  | throw e u =>
    cases hleft
    exact h
  | halt r => cases hleft

/-- What ends well from a later state ends well from an earlier one. -/
theorem Ends.from_earlier {s t : σ} {p : α → σ → Prop} {o : Outcome ε σ α} (hst : G.Grows s t)
    (h : G.Ends t p o) : G.Ends s p o := by
  cases o with
  | ok a u => exact ⟨⟨h.1.1, G.trans hst h.1.2⟩, h.2⟩
  | throw e u => exact ⟨h.1, G.trans hst h.2⟩
  | halt r => trivial

namespace Keeps

variable {m : Comp κ ε σ α} {f : α → Comp κ ε σ β} {s : σ} {p : α → σ → Prop} {q : β → σ → Prop}

theorem mono {p' : α → σ → Prop} (h : G.Keeps m s p)
    (hpq : ∀ a t, G.Grows s t → p a t → p' a t) : G.Keeps m s p' :=
  fun hs => (h hs).mono hpq

theorem pure {a : α} (h : p a s) : G.Keeps (Pure.pure a : Comp κ ε σ α) s p :=
  fun hs => ⟨⟨hs, G.refl s⟩, h⟩

theorem throw (e : ε) : G.Keeps (Comp.throw e : Comp κ ε σ α) s p :=
  fun hs => ⟨hs, G.refl s⟩

theorem halt (r : Halt) : G.Keeps (Comp.halt r : Comp κ ε σ α) s p := fun _ => trivial

theorem gets {g : σ → α} (h : G.Valid s → p (g s) s) :
    G.Keeps (Comp.gets g : Comp κ ε σ α) s p :=
  fun hs => ⟨⟨hs, G.refl s⟩, h hs⟩

theorem ask (k : κ) {p : Unit → σ → Prop} (h : p () s) :
    G.Keeps (Comp.ask k : Comp κ ε σ Unit) s p :=
  fun hs => ⟨⟨hs, G.refl s⟩, h⟩

theorem modify {g : σ → σ} {p : Unit → σ → Prop}
    (h : G.Valid s → (G.Valid (g s) ∧ G.Grows s (g s)) ∧ p () (g s)) :
    G.Keeps (Comp.modify g : Comp κ ε σ Unit) s p := h

theorem ofOutcome {o : Outcome ε Unit α} (h : ∀ a, o.value? = some a → p a s) :
    G.Keeps (Comp.ofOutcome o : Comp κ ε σ α) s p := by
  cases o with
  | ok a _ => exact pure (h a rfl)
  | throw e _ => exact throw e
  | halt r => exact halt r

/-- What follows runs in a later state, with what the first part left there. -/
theorem bind (h : G.Keeps m s p)
    (hf : ∀ a t, G.Grows s t → p a t → G.Keeps (f a) t q) : G.Keeps (m >>= f) s q := by
  intro hs
  have hm := h hs
  rw [Comp.outcome_bind]
  cases ho : (m s).outcome with
  | ok a t =>
    rw [ho] at hm
    exact (hf a t hm.1.2 hm.2 hm.1.1).from_earlier hm.1.2
  | throw e t =>
    rw [ho] at hm
    exact hm
  | halt r => trivial

/-- What only reads the state need not be followed. -/
theorem read_bind {a : α} (h : (m s).outcome = .ok a s) (hf : G.Valid s → G.Keeps (f a) s q) :
    G.Keeps (m >>= f) s q := by
  intro hs
  rw [Comp.bind_of_ok h]
  exact hf hs hs

theorem gets_bind {g : σ → α} (h : G.Valid s → G.Keeps (f (g s)) s q) :
    G.Keeps (Comp.gets g >>= f) s q :=
  read_bind rfl h

theorem ask_bind {k : κ} {f : Unit → Comp κ ε σ β} (h : G.Keeps (f ()) s q) :
    G.Keeps (Comp.ask k >>= f) s q :=
  fun hs => h hs

theorem tryCatch {handler : ε → Comp κ ε σ α} (h : G.Keeps m s p)
    (hf : ∀ e t, G.Grows s t → G.Keeps (handler e) t p) : G.Keeps (m.tryCatch handler) s p := by
  intro hs
  have hm := h hs
  cases ho : (m s).outcome with
  | ok a t =>
    rw [Comp.tryCatch_of_ok ho]
    rw [ho] at hm
    exact hm
  | throw e t =>
    rw [Comp.tryCatch_of_throw ho]
    rw [ho] at hm
    exact (hf e t hm.2 hm.1).from_earlier hm.2
  | halt r =>
    rw [Comp.tryCatch_of_halt ho]
    trivial

end Keeps

end Growth

end FalconLib.Base
