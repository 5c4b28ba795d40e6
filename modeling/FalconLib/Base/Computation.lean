import Mathlib.Tactic.Common

/-!
# Computations with state, exceptions and a record of questions

`Comp κ ε σ α` is a state transformer that returns a value, throws an exception
that keeps the state reached, or halts without either. A run also lists the
questions of type `κ` it put to tables that outlive it. `Coupled` relates two
computations run side by side, as a relational Hoare triple does; a promise may
be limited to left runs that ask only allowed questions.
-/

namespace FalconLib.Base

/-- Why a run ends with neither a value nor an exception. -/
inductive Halt where
  /-- The bound on nested calls or loop rounds was reached. -/
  | outOfFuel
  /-- The modelled language gives the operation no meaning. -/
  | undefinedBehaviour
deriving DecidableEq, Repr

inductive Outcome (ε σ α : Type) where
  | ok (value : α) (state : σ)
  | throw (error : ε) (state : σ)
  | halt (reason : Halt)

/-- What was returned, if anything was. -/
def Outcome.value? {ε σ α : Type} : Outcome ε σ α → Option α
  | .ok value _ => some value
  | _ => none

/-- How a run ended, and what it asked on the way. -/
structure Run (κ ε σ α : Type) where
  asked : List κ
  outcome : Outcome ε σ α

def Comp (κ ε σ α : Type) : Type := σ → Run κ ε σ α

namespace Comp

variable {κ ε σ α β : Type}

protected def pure (a : α) : Comp κ ε σ α := fun s => ⟨[], .ok a s⟩

protected def bind (m : Comp κ ε σ α) (f : α → Comp κ ε σ β) : Comp κ ε σ β := fun s =>
  match m s with
  | ⟨asked, .ok a t⟩ => ⟨asked ++ (f a t).asked, (f a t).outcome⟩
  | ⟨asked, .throw e t⟩ => ⟨asked, .throw e t⟩
  | ⟨asked, .halt r⟩ => ⟨asked, .halt r⟩

instance : Monad (Comp κ ε σ) where
  pure := Comp.pure
  bind := Comp.bind

/-- Read a part of the state. -/
def gets (f : σ → α) : Comp κ ε σ α := fun s => ⟨[], .ok (f s) s⟩

def modify (f : σ → σ) : Comp κ ε σ Unit := fun s => ⟨[], .ok () (f s)⟩

def throw (e : ε) : Comp κ ε σ α := fun s => ⟨[], .throw e s⟩

def halt (r : Halt) : Comp κ ε σ α := fun _ => ⟨[], .halt r⟩

/-- Record a question; the answer is read from the state by the caller. -/
def ask (k : κ) : Comp κ ε σ Unit := fun s => ⟨[k], .ok () s⟩

/-- The handler starts from the state in which the exception was thrown. -/
def tryCatch (m : Comp κ ε σ α) (handler : ε → Comp κ ε σ α) : Comp κ ε σ α := fun s =>
  match m s with
  | ⟨asked, .ok a t⟩ => ⟨asked, .ok a t⟩
  | ⟨asked, .throw e t⟩ => ⟨asked ++ (handler e t).asked, (handler e t).outcome⟩
  | ⟨asked, .halt r⟩ => ⟨asked, .halt r⟩

/-- A computation without state of its own. -/
def ofOutcome : Outcome ε Unit α → Comp κ ε σ α
  | .ok a _ => Comp.pure a
  | .throw e _ => throw e
  | .halt r => halt r

@[simp] theorem pure_apply (a : α) (s : σ) :
    (pure a : Comp κ ε σ α) s = ⟨[], .ok a s⟩ := rfl

@[simp] theorem gets_apply (f : σ → α) (s : σ) :
    (gets f : Comp κ ε σ α) s = ⟨[], .ok (f s) s⟩ := rfl

@[simp] theorem modify_apply (f : σ → σ) (s : σ) :
    (modify f : Comp κ ε σ Unit) s = ⟨[], .ok () (f s)⟩ := rfl

@[simp] theorem throw_apply (e : ε) (s : σ) :
    (throw e : Comp κ ε σ α) s = ⟨[], .throw e s⟩ := rfl

@[simp] theorem halt_apply (r : Halt) (s : σ) :
    (halt r : Comp κ ε σ α) s = ⟨[], .halt r⟩ := rfl

@[simp] theorem ask_apply (k : κ) (s : σ) :
    (ask k : Comp κ ε σ Unit) s = ⟨[k], .ok () s⟩ := rfl

@[simp] theorem outcome_pure_bind (a : α) (f : α → Comp κ ε σ β) (s : σ) :
    ((pure a >>= f) s).outcome = (f a s).outcome := rfl

@[simp] theorem outcome_gets_bind (g : σ → α) (f : α → Comp κ ε σ β) (s : σ) :
    ((gets g >>= f) s).outcome = (f (g s) s).outcome := rfl

@[simp] theorem outcome_modify_bind (g : σ → σ) (f : Unit → Comp κ ε σ β) (s : σ) :
    ((modify g >>= f) s).outcome = (f () (g s)).outcome := rfl

@[simp] theorem outcome_throw_bind (e : ε) (f : α → Comp κ ε σ β) (s : σ) :
    ((throw e >>= f) s).outcome = .throw e s := rfl

@[simp] theorem outcome_ask_bind (k : κ) (f : Unit → Comp κ ε σ β) (s : σ) :
    ((ask k >>= f) s).outcome = (f () s).outcome := rfl

theorem pure_bind (a : α) (f : α → Comp κ ε σ β) : (pure a >>= f) = f a := rfl

theorem bind_assoc {γ : Type} (m : Comp κ ε σ α) (f : α → Comp κ ε σ β)
    (g : β → Comp κ ε σ γ) : ((m >>= f) >>= g) = m >>= fun a => f a >>= g := by
  funext s
  change Comp.bind (Comp.bind m f) g s = Comp.bind m (fun a => Comp.bind (f a) g) s
  unfold Comp.bind
  rcases m s with ⟨asked, o⟩
  cases o with
  | ok a t =>
    dsimp only
    rcases f a t with ⟨asked', o'⟩
    cases o' with
    | ok b u => exact congrArg (Run.mk · _) (List.append_assoc ..)
    | throw e u => rfl
    | halt r => rfl
  | throw e t => rfl
  | halt r => rfl

theorem run_bind_of_ok {m : Comp κ ε σ α} {f : α → Comp κ ε σ β} {s t : σ} {a : α}
    {asked : List κ} (h : m s = ⟨asked, .ok a t⟩) :
    (m >>= f) s = ⟨asked ++ (f a t).asked, (f a t).outcome⟩ := by
  change Comp.bind m f s = _
  unfold Comp.bind
  rw [h]

/-- What follows a computation matters where that returns. -/
theorem bind_congr {m : Comp κ ε σ α} {f g : α → Comp κ ε σ β} {s : σ}
    (h : ∀ a t, (m s).outcome = .ok a t → f a t = g a t) : (m >>= f) s = (m >>= g) s := by
  change Comp.bind m f s = Comp.bind m g s
  unfold Comp.bind
  rcases hm : m s with ⟨asked, o⟩
  rw [hm] at h
  cases o with
  | ok a t =>
    dsimp only
    rw [h a t rfl]
  | throw e t => rfl
  | halt r => rfl

theorem bind_of_ok {m : Comp κ ε σ α} {f : α → Comp κ ε σ β} {s t : σ} {a : α}
    (h : (m s).outcome = .ok a t) : ((m >>= f) s).outcome = (f a t).outcome := by
  change (Comp.bind m f s).outcome = _
  unfold Comp.bind
  rcases hm : m s with ⟨asked, o⟩
  rw [hm] at h
  cases h
  rfl

theorem bind_of_throw {m : Comp κ ε σ α} {f : α → Comp κ ε σ β} {s t : σ} {e : ε}
    (h : (m s).outcome = .throw e t) : ((m >>= f) s).outcome = .throw e t := by
  change (Comp.bind m f s).outcome = _
  unfold Comp.bind
  rcases hm : m s with ⟨asked, o⟩
  rw [hm] at h
  cases h
  rfl

theorem bind_of_halt {m : Comp κ ε σ α} {f : α → Comp κ ε σ β} {s : σ} {r : Halt}
    (h : (m s).outcome = .halt r) : ((m >>= f) s).outcome = .halt r := by
  change (Comp.bind m f s).outcome = _
  unfold Comp.bind
  rcases hm : m s with ⟨asked, o⟩
  rw [hm] at h
  cases h
  rfl

theorem tryCatch_of_ok {m : Comp κ ε σ α} {handler : ε → Comp κ ε σ α} {s t : σ} {a : α}
    (h : (m s).outcome = .ok a t) : ((m.tryCatch handler) s).outcome = .ok a t := by
  unfold tryCatch
  rcases hm : m s with ⟨asked, o⟩
  rw [hm] at h
  cases h
  rfl

theorem tryCatch_of_throw {m : Comp κ ε σ α} {handler : ε → Comp κ ε σ α} {s t : σ} {e : ε}
    (h : (m s).outcome = .throw e t) :
    ((m.tryCatch handler) s).outcome = (handler e t).outcome := by
  unfold tryCatch
  rcases hm : m s with ⟨asked, o⟩
  rw [hm] at h
  cases h
  rfl

theorem outcome_bind (m : Comp κ ε σ α) (f : α → Comp κ ε σ β) (s : σ) :
    ((m >>= f) s).outcome =
      match (m s).outcome with
      | .ok a t => (f a t).outcome
      | .throw e t => .throw e t
      | .halt r => .halt r := by
  change (Comp.bind m f s).outcome = _
  unfold Comp.bind
  rcases hm : m s with ⟨asked, o⟩
  cases o <;> rfl

/-- A bind that returned did so through a value of its first part. -/
theorem bind_eq_ok {m : Comp κ ε σ α} {f : α → Comp κ ε σ β} {s u : σ} {b : β}
    (h : ((m >>= f) s).outcome = .ok b u) :
    ∃ a t, (m s).outcome = .ok a t ∧ (f a t).outcome = .ok b u := by
  change (Comp.bind m f s).outcome = _ at h
  unfold Comp.bind at h
  rcases hm : m s with ⟨asked, o⟩
  cases o with
  | ok a t => exact ⟨a, t, rfl, by simpa only [hm] using h⟩
  | throw e t => simp only [hm] at h; cases h
  | halt r => simp only [hm] at h; cases h

/-- A bind that returned without a question did so through two parts that asked none. -/
theorem bind_eq_silent {m : Comp κ ε σ α} {f : α → Comp κ ε σ β} {s u : σ} {b : β}
    (h : (m >>= f) s = ⟨[], .ok b u⟩) :
    ∃ a t, m s = ⟨[], .ok a t⟩ ∧ f a t = ⟨[], .ok b u⟩ := by
  change Comp.bind m f s = _ at h
  unfold Comp.bind at h
  rcases hm : m s with ⟨asked, o⟩
  cases o with
  | ok a t =>
    simp only [hm, Run.mk.injEq, List.append_eq_nil_iff] at h
    obtain ⟨⟨rfl, hasked⟩, ho⟩ := h
    refine ⟨a, t, rfl, ?_⟩
    rcases hf : f a t with ⟨asked', o'⟩
    rw [hf] at hasked ho
    cases hasked
    cases ho
    rfl
  | throw e t => simp only [hm, Run.mk.injEq] at h; cases h.2
  | halt r => simp only [hm, Run.mk.injEq] at h; cases h.2

theorem bind_eq_throw {m : Comp κ ε σ α} {f : α → Comp κ ε σ β} {s u : σ} {e : ε}
    (h : ((m >>= f) s).outcome = .throw e u) :
    (m s).outcome = .throw e u ∨
      ∃ a t, (m s).outcome = .ok a t ∧ (f a t).outcome = .throw e u := by
  change (Comp.bind m f s).outcome = _ at h
  unfold Comp.bind at h
  rcases hm : m s with ⟨asked, o⟩
  cases o with
  | ok a t => exact .inr ⟨a, t, rfl, by simpa only [hm] using h⟩
  | throw e t =>
    simp only [hm] at h
    cases h
    exact .inl rfl
  | halt r => simp only [hm] at h; cases h

theorem tryCatch_eq_ok {m : Comp κ ε σ α} {handler : ε → Comp κ ε σ α} {s u : σ} {a : α}
    (h : ((m.tryCatch handler) s).outcome = .ok a u) :
    (m s).outcome = .ok a u ∨
      ∃ e t, (m s).outcome = .throw e t ∧ (handler e t).outcome = .ok a u := by
  unfold tryCatch at h
  rcases hm : m s with ⟨asked, o⟩
  cases o with
  | ok b t => exact .inl (by simpa only [hm] using h)
  | throw e t => exact .inr ⟨e, t, rfl, by simpa only [hm] using h⟩
  | halt r => simp only [hm] at h; cases h

theorem tryCatch_eq_throw {m : Comp κ ε σ α} {handler : ε → Comp κ ε σ α} {s u : σ} {e : ε}
    (h : ((m.tryCatch handler) s).outcome = .throw e u) :
    ∃ e' t, (m s).outcome = .throw e' t ∧ (handler e' t).outcome = .throw e u := by
  unfold tryCatch at h
  rcases hm : m s with ⟨asked, o⟩
  cases o with
  | ok b t => simp only [hm] at h; cases h
  | throw e' t => exact ⟨e', t, rfl, by simpa only [hm] using h⟩
  | halt r => simp only [hm] at h; cases h

end Comp

/-! ## Two runs side by side -/

section Coupled

variable {κ ε σ α β γ δ : Type}

/-- Outcomes of one kind with related contents. -/
def Outcome.Related (Q : α → β → σ → σ → Prop) (E : ε → σ → σ → Prop) :
    Outcome ε σ α → Outcome ε σ β → Prop
  | .ok a s, .ok b t => Q a b s t
  | .throw e s, .throw f t => e = f ∧ E e s t
  | .halt r, .halt r' => r = r'
  | _, _ => False

/-- From states related by `P`, a left run that asks only allowed questions and
the right run end alike, with `Q` on return and `E` on an exception. -/
def Coupled (allowed : κ → Prop) (P : σ → σ → Prop) (m₁ : Comp κ ε σ α) (m₂ : Comp κ ε σ β)
    (Q : α → β → σ → σ → Prop) (E : ε → σ → σ → Prop) : Prop :=
  ∀ s t, P s t → (∀ k ∈ (m₁ s).asked, allowed k) →
    Outcome.Related Q E (m₁ s).outcome (m₂ t).outcome

variable {allowed : κ → Prop} {P P' : σ → σ → Prop} {E E' : ε → σ → σ → Prop}

theorem Outcome.Related.mono {Q Q' : α → β → σ → σ → Prop} {o₁ : Outcome ε σ α}
    {o₂ : Outcome ε σ β} (h : Outcome.Related Q E o₁ o₂)
    (hq : ∀ a b s t, Q a b s t → Q' a b s t) (he : ∀ e s t, E e s t → E' e s t) :
    Outcome.Related Q' E' o₁ o₂ := by
  cases o₁ with
  | ok a s => cases o₂ <;> first | exact hq _ _ _ _ h | exact h.elim
  | throw e s => cases o₂ <;> first | exact ⟨h.1, he _ _ _ h.2⟩ | exact h.elim
  | halt r => cases r <;> cases o₂ <;> trivial

namespace Coupled

theorem conseq {m₁ : Comp κ ε σ α} {m₂ : Comp κ ε σ β} {Q Q' : α → β → σ → σ → Prop}
    (h : Coupled allowed P m₁ m₂ Q E) (hp : ∀ s t, P' s t → P s t)
    (hq : ∀ a b s t, Q a b s t → Q' a b s t) (he : ∀ e s t, E e s t → E' e s t) :
    Coupled allowed P' m₁ m₂ Q' E' :=
  fun s t hs ha => (h s t (hp s t hs) ha).mono hq he

theorem pure {a : α} {b : β} {Q : α → β → σ → σ → Prop} (h : ∀ s t, P s t → Q a b s t) :
    Coupled allowed P (Pure.pure a : Comp κ ε σ α) (Pure.pure b) Q E :=
  fun s t hs _ => h s t hs

theorem throw {e : ε} {Q : α → β → σ → σ → Prop} (h : ∀ s t, P s t → E e s t) :
    Coupled allowed P (Comp.throw e : Comp κ ε σ α) (Comp.throw e) Q E :=
  fun s t hs _ => ⟨rfl, h s t hs⟩

theorem halt {r : Halt} {Q : α → β → σ → σ → Prop} :
    Coupled allowed P (Comp.halt r : Comp κ ε σ α) (Comp.halt r) Q E :=
  fun _ _ _ _ => rfl

/-- The left question is allowed in what follows. -/
theorem ask {k₁ k₂ : κ} {Q : Unit → Unit → σ → σ → Prop}
    (h : allowed k₁ → ∀ s t, P s t → Q () () s t) :
    Coupled allowed P (Comp.ask k₁ : Comp κ ε σ Unit) (Comp.ask k₂) Q E :=
  fun s t hs ha => h (ha k₁ (List.mem_singleton.mpr rfl)) s t hs

theorem bind {m₁ : Comp κ ε σ α} {m₂ : Comp κ ε σ β} {f₁ : α → Comp κ ε σ γ}
    {f₂ : β → Comp κ ε σ δ} {Q : α → β → σ → σ → Prop} {R : γ → δ → σ → σ → Prop}
    (h : Coupled allowed P m₁ m₂ Q E)
    (hf : ∀ a b, Coupled allowed (Q a b) (f₁ a) (f₂ b) R E) :
    Coupled allowed P (m₁ >>= f₁) (m₂ >>= f₂) R E := by
  intro s t hs ha
  change ∀ k ∈ (Comp.bind m₁ f₁ s).asked, allowed k at ha
  change Outcome.Related R E (Comp.bind m₁ f₁ s).outcome (Comp.bind m₂ f₂ t).outcome
  have hm := h s t hs
  unfold Comp.bind at ha ⊢
  rcases h₁ : m₁ s with ⟨asked₁, o₁⟩
  rcases h₂ : m₂ t with ⟨asked₂, o₂⟩
  rw [h₁] at ha
  simp only [h₁, h₂] at hm
  cases o₁ with
  | ok a u =>
    have hr := hm fun k hk => ha k (List.mem_append_left _ hk)
    cases o₂ with
    | ok b v => exact hf a b u v hr fun k hk => ha k (List.mem_append_right _ hk)
    | throw e v => exact hr.elim
    | halt r => exact hr.elim
  | throw e u =>
    have hr := hm ha
    cases o₂ with
    | ok b v => exact hr.elim
    | throw f v => exact hr
    | halt r => exact hr.elim
  | halt r =>
    have hr := hm ha
    cases o₂ <;> first | exact hr.elim | exact hr

theorem tryCatch {m₁ : Comp κ ε σ α} {m₂ : Comp κ ε σ β} {f₁ : ε → Comp κ ε σ α}
    {f₂ : ε → Comp κ ε σ β} {Q : α → β → σ → σ → Prop}
    (h : Coupled allowed P m₁ m₂ Q E)
    (hf : ∀ e, Coupled allowed (E e) (f₁ e) (f₂ e) Q E') :
    Coupled allowed P (m₁.tryCatch f₁) (m₂.tryCatch f₂) Q E' := by
  intro s t hs ha
  have hm := h s t hs
  unfold Comp.tryCatch at ha ⊢
  rcases h₁ : m₁ s with ⟨asked₁, o₁⟩
  rcases h₂ : m₂ t with ⟨asked₂, o₂⟩
  rw [h₁] at ha
  simp only [h₁, h₂] at hm
  cases o₁ with
  | ok a u =>
    have hr := hm ha
    cases o₂ <;> first | exact hr.elim | exact hr
  | throw e u =>
    have hr := hm fun k hk => ha k (List.mem_append_left _ hk)
    cases o₂ with
    | ok b v => exact hr.elim
    | throw f v =>
      obtain ⟨rfl, he⟩ := hr
      exact hf e u v he fun k hk => ha k (List.mem_append_right _ hk)
    | halt r => exact hr.elim
  | halt r =>
    have hr := hm ha
    cases o₂ <;> first | exact hr.elim | exact hr

/-- A fact about no state may be used for the whole of the pair. -/
theorem assume {φ : Prop} {m₁ : Comp κ ε σ α} {m₂ : Comp κ ε σ β}
    {Q : α → β → σ → σ → Prop} (h : φ → Coupled allowed P m₁ m₂ Q E) :
    Coupled allowed (fun s t => φ ∧ P s t) m₁ m₂ Q E :=
  fun s t hs ha => h hs.1 s t hs.2 ha

theorem gets {f₁ : σ → α} {f₂ : σ → β} :
    Coupled allowed P (Comp.gets f₁ : Comp κ ε σ α) (Comp.gets f₂)
      (fun a b s t => (a = f₁ s ∧ b = f₂ t) ∧ P s t) E :=
  fun _ _ hs _ => ⟨⟨rfl, rfl⟩, hs⟩

theorem modify {f₁ f₂ : σ → σ} {Q : Unit → Unit → σ → σ → Prop}
    (h : ∀ s t, P s t → Q () () (f₁ s) (f₂ t)) :
    Coupled allowed P (Comp.modify f₁ : Comp κ ε σ Unit) (Comp.modify f₂) Q E :=
  fun s t hs _ => h s t hs

end Coupled

/-! ## One invariant on both states -/

/-- Equal results with `p`, and `I` relates the states before and after. -/
def Agree (allowed : κ → Prop) (I : σ → σ → Prop) (m₁ m₂ : Comp κ ε σ α)
    (p : α → Prop := fun _ => True) : Prop :=
  Coupled allowed I m₁ m₂ (fun a b s t => (a = b ∧ p a) ∧ I s t) (fun _ => I)

namespace Agree

variable {I : σ → σ → Prop} {m₁ m₂ : Comp κ ε σ α} {f₁ f₂ : α → Comp κ ε σ β}
  {p : α → Prop} {q : β → Prop}

theorem pure {a : α} (h : p a) : Agree allowed I (Pure.pure a : Comp κ ε σ α) (Pure.pure a) p :=
  Coupled.pure fun _ _ hs => ⟨⟨rfl, h⟩, hs⟩

theorem throw (e : ε) : Agree allowed I (Comp.throw e : Comp κ ε σ α) (Comp.throw e) p :=
  Coupled.throw fun _ _ h => h

theorem halt (r : Halt) : Agree allowed I (Comp.halt r : Comp κ ε σ α) (Comp.halt r) p :=
  Coupled.halt

theorem ofOutcome (o : Outcome ε Unit α) :
    Agree allowed I (Comp.ofOutcome o : Comp κ ε σ α) (Comp.ofOutcome o) := by
  cases o with
  | ok a _ => exact Agree.pure trivial
  | throw e _ => exact Agree.throw e
  | halt r => exact Agree.halt r

theorem gets {f₁ f₂ : σ → α} (h : ∀ s t, I s t → f₁ s = f₂ t) :
    Agree allowed I (Comp.gets f₁ : Comp κ ε σ α) (Comp.gets f₂) :=
  fun s t hs _ => ⟨⟨h s t hs, trivial⟩, hs⟩

theorem modify {f₁ f₂ : σ → σ} (h : ∀ s t, I s t → I (f₁ s) (f₂ t)) :
    Agree allowed I (Comp.modify f₁ : Comp κ ε σ Unit) (Comp.modify f₂) :=
  fun s t hs _ => ⟨⟨rfl, trivial⟩, h s t hs⟩

theorem bind (h : Agree allowed I m₁ m₂ p)
    (hf : ∀ a, p a → Agree allowed I (f₁ a) (f₂ a) q) :
    Agree allowed I (m₁ >>= f₁) (m₂ >>= f₂) q := by
  refine Coupled.bind h fun a b s t hab ha => ?_
  obtain ⟨⟨rfl, hp⟩, hs⟩ := hab
  exact hf a hp s t hs ha

/-- What follows an allowed question may use that it is allowed. -/
theorem ask_bind {k : κ} (h : allowed k → Agree allowed I m₁ m₂ p) :
    Agree allowed I (Comp.ask k >>= fun _ => m₁) (Comp.ask k >>= fun _ => m₂) p := by
  refine Coupled.bind (Q := fun _ _ s t => allowed k ∧ I s t)
    (Coupled.ask fun ha _ _ hs => ⟨ha, hs⟩) fun _ _ s t hs ha => ?_
  exact h hs.1 s t hs.2 ha

theorem tryCatch {f₁ f₂ : ε → Comp κ ε σ α} (h : Agree allowed I m₁ m₂ p)
    (hf : ∀ e, Agree allowed I (f₁ e) (f₂ e) p) :
    Agree allowed I (m₁.tryCatch f₁) (m₂.tryCatch f₂) p :=
  Coupled.tryCatch h hf

theorem mono {p' : α → Prop} (h : Agree allowed I m₁ m₂ p) (hp : ∀ a, p a → p' a) :
    Agree allowed I m₁ m₂ p' :=
  h.conseq (fun _ _ hs => hs) (fun _ _ _ _ hq => ⟨⟨hq.1.1, hp _ hq.1.2⟩, hq.2⟩)
    fun _ _ _ hs => hs

end Agree

end Coupled

end FalconLib.Base
