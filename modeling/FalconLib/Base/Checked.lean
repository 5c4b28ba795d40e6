import FalconLib.Base.Computation

/-!
# Checked computations

A checked computation does what another one does, except that it may stop where a check fails.
What vouches for parts vouches for what is put together of them.
-/

namespace FalconLib.Base.Comp

variable {κ ε σ α β : Type}

/-- A check that has failed ends the run without a meaning. -/
def Stopped (c : Comp κ ε σ α) (s : σ) : Prop := (c s).outcome = .halt .undefinedBehaviour

/-- Unless the checked computation is stopped, the other one ends as it does. -/
def Vouches (c m : Comp κ ε σ α) : Prop := ∀ s, (m s).outcome = (c s).outcome ∨ c.Stopped s

theorem tryCatch_of_halt {m : Comp κ ε σ α} {handler : ε → Comp κ ε σ α} {s : σ} {r : Halt}
    (h : (m s).outcome = .halt r) : ((m.tryCatch handler) s).outcome = .halt r := by
  unfold tryCatch
  rcases hm : m s with ⟨asked, o⟩
  rw [hm] at h
  cases h
  rfl

namespace Vouches

variable {c m : Comp κ ε σ α} {f g : α → Comp κ ε σ β}

theorem refl (m : Comp κ ε σ α) : Vouches m m := fun _ => .inl rfl

theorem bind (hm : Vouches c m) (hf : ∀ a, Vouches (g a) (f a)) : Vouches (c >>= g) (m >>= f) := by
  intro s
  rcases hm s with hsame | hstopped
  · cases hc : (c s).outcome with
    | ok a t =>
      have hrest := hf a t
      unfold Stopped at hrest ⊢
      rw [bind_of_ok hc, bind_of_ok (hsame.trans hc)]
      exact hrest
    | throw e t => exact .inl ((bind_of_throw (hsame.trans hc)).trans (bind_of_throw hc).symm)
    | halt r => exact .inl ((bind_of_halt (hsame.trans hc)).trans (bind_of_halt hc).symm)
  · exact .inr (bind_of_halt hstopped)

theorem tryCatch (hm : Vouches c m) (handler : ε → Comp κ ε σ α) :
    Vouches (c.tryCatch handler) (m.tryCatch handler) := by
  intro s
  rcases hm s with hsame | hstopped
  · cases hc : (c s).outcome with
    | ok a t => exact .inl ((tryCatch_of_ok (hsame.trans hc)).trans (tryCatch_of_ok hc).symm)
    | throw e t =>
      exact .inl ((tryCatch_of_throw (hsame.trans hc)).trans (tryCatch_of_throw hc).symm)
    | halt r => exact .inl ((tryCatch_of_halt (hsame.trans hc)).trans (tryCatch_of_halt hc).symm)
  · exact .inr (tryCatch_of_halt hstopped)

/-- Two computations that are vouched for end alike. -/
theorem agree {m' : Comp κ ε σ α} (h : Vouches c m) (h' : Vouches c m') {s : σ}
    (hgo : ¬c.Stopped s) : (m s).outcome = (m' s).outcome := by
  rcases h s with hsame | hstopped
  · rcases h' s with hsame' | hstopped
    · exact hsame.trans hsame'.symm
    · exact absurd hstopped hgo
  · exact absurd hstopped hgo

end Vouches

/-! ## Checks and a watch -/

/-- A checked computation without a watch and with one, where an invariant holds at first. Unless
a check fails it ends as the other one does, the watch changes nothing, and where it returns the
invariant holds again. -/
def Guarded (I : σ → Prop) (p : α → Prop) (c : Bool → Comp κ ε σ α) (m : Comp κ ε σ α) : Prop :=
  ∀ s, I s → (c false).Stopped s ∨
    ((m s).outcome = (c false s).outcome ∧ (c true s).outcome = (c false s).outcome ∧
      ∀ a t, (c false s).outcome = .ok a t → I t ∧ p a)

namespace Guarded

variable {I : σ → Prop} {p p' : α → Prop} {q : β → Prop} {c : Bool → Comp κ ε σ α}
  {m : Comp κ ε σ α}

/-- What is neither checked nor watched. -/
theorem const (h : ∀ s a t, I s → (m s).outcome = .ok a t → I t ∧ p a) :
    Guarded I p (fun _ => m) m :=
  fun s hs => .inr ⟨rfl, rfl, fun a t ho => h s a t hs ho⟩

theorem pure {a : α} (h : p a) : Guarded I p (fun _ => Pure.pure a) (Pure.pure a : Comp κ ε σ α) := by
  refine const fun s b t hs ho => ?_
  cases ho
  exact ⟨hs, h⟩

theorem throw (e : ε) : Guarded I p (fun _ => Comp.throw e) (Comp.throw e : Comp κ ε σ α) :=
  const fun _ _ _ _ ho => nomatch ho

theorem halt (r : Halt) : Guarded I p (fun _ => Comp.halt r) (Comp.halt r : Comp κ ε σ α) :=
  const fun _ _ _ _ ho => nomatch ho

theorem ask (k : κ) :
    Guarded I (fun _ => True) (fun _ => Comp.ask k) (Comp.ask k : Comp κ ε σ Unit) := by
  refine const fun s a t hs ho => ?_
  cases ho
  exact ⟨hs, trivial⟩

theorem gets {f : σ → α} (h : ∀ s, I s → p (f s)) :
    Guarded I p (fun _ => Comp.gets f) (Comp.gets f : Comp κ ε σ α) := by
  refine const fun s a t hs ho => ?_
  cases ho
  exact ⟨hs, h s hs⟩

theorem modify {f : σ → σ} (h : ∀ s, I s → I (f s)) :
    Guarded I (fun _ => True) (fun _ => Comp.modify f) (Comp.modify f : Comp κ ε σ Unit) := by
  refine const fun s a t hs ho => ?_
  cases ho
  exact ⟨h s hs, trivial⟩

/-- A check that fails. -/
theorem stopped (m : Comp κ ε σ α) :
    Guarded I p (fun _ => Comp.halt .undefinedBehaviour) m := fun _ _ => .inl rfl

theorem mono (h : Guarded I p c m) (hp : ∀ a, p a → p' a) : Guarded I p' c m := by
  intro s hs
  rcases h s hs with hstopped | ⟨hm, hc, hk⟩
  · exact .inl hstopped
  · exact .inr ⟨hm, hc, fun a t ho => ⟨(hk a t ho).1, hp a (hk a t ho).2⟩⟩

theorem bind {f : Bool → α → Comp κ ε σ β} {f' : α → Comp κ ε σ β} (h : Guarded I p c m)
    (hf : ∀ a, p a → Guarded I q (fun watch => f watch a) (f' a)) :
    Guarded I q (fun watch => c watch >>= f watch) (m >>= f') := by
  intro s hs
  rcases h s hs with hstopped | ⟨hm, hc, hk⟩
  · exact .inl (bind_of_halt hstopped)
  · unfold Stopped
    simp only [outcome_bind, hm, hc]
    cases ho : (c false s).outcome with
    | ok a t =>
      obtain ⟨ht, ha⟩ := hk a t ho
      exact hf a ha t ht
    | throw e t => exact .inr ⟨rfl, rfl, fun b t' hb => nomatch hb⟩
    | halt r => exact .inr ⟨rfl, rfl, fun b t' hb => nomatch hb⟩

/-- A check of the result. -/
theorem check {f : Bool → α → Comp κ ε σ α} (h : Guarded I p c m)
    (hf : ∀ a, p a → Guarded I p' (fun watch => f watch a) (Pure.pure a)) :
    Guarded I p' (fun watch => c watch >>= f watch) m := by
  intro s hs
  have hsame : ((m >>= Pure.pure) s).outcome = (m s).outcome := by
    rw [outcome_bind]
    cases (m s).outcome <;> rfl
  have hbind := h.bind hf s hs
  rwa [hsame] at hbind

/-- No exception is ever turned into a value. -/
theorem tryCatch {f : ε → Comp κ ε σ α} (h : Guarded I p c m)
    (hf : ∀ e s a t, (f e s).outcome ≠ .ok a t) :
    Guarded I p (fun watch => (c watch).tryCatch f) (m.tryCatch f) := by
  intro s hs
  rcases h s hs with hstopped | ⟨hm, hc, hk⟩
  · exact .inl (tryCatch_of_halt hstopped)
  · cases ho : (c false s).outcome with
    | ok a t =>
      rw [tryCatch_of_ok (hm.trans ho), tryCatch_of_ok (hc.trans ho), tryCatch_of_ok ho]
      refine .inr ⟨rfl, rfl, fun b t' hb => ?_⟩
      cases hb
      exact hk a t ho
    | throw e t =>
      rw [tryCatch_of_throw (hm.trans ho), tryCatch_of_throw (hc.trans ho), tryCatch_of_throw ho]
      exact .inr ⟨rfl, rfl, fun b t' hb => absurd hb (hf e t b t')⟩
    | halt r =>
      rw [tryCatch_of_halt (hm.trans ho), tryCatch_of_halt (hc.trans ho), tryCatch_of_halt ho]
      exact .inr ⟨rfl, rfl, fun b t' hb => nomatch hb⟩

theorem ofOutcome {o : Outcome ε Unit α} (h : ∀ a, o.value? = some a → p a) :
    Guarded I p (fun _ => Comp.ofOutcome o) (Comp.ofOutcome o : Comp κ ε σ α) := by
  cases o with
  | ok a _ => exact pure (h a rfl)
  | throw e _ => exact throw e
  | halt r => exact halt r

end Guarded

end FalconLib.Base.Comp
