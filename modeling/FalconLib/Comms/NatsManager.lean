import FalconLib.Base.Computation
import FalconLib.Comms.Commands
import Mathlib.Data.List.Basic

/-!
# Subscriptions, and one request call

The manager of a process lists its subscriptions in the order they were made. It removes them
by subject: the first entry that has the subject goes, whoever made it.
-/

namespace FalconLib.Comms

open FalconLib.Base

/-- `SubscriptionData`. The owner is the request call whose promise the callback fills. -/
structure Subscription where
  handle : Nat
  subject : String
  owner : Option Nat
deriving DecidableEq

def Subscription.on (subject : String) (s : Subscription) : Bool := s.subject = subject

theorem Subscription.on_iff {subject : String} {s : Subscription} :
    s.on subject = true ↔ s.subject = subject := decide_eq_true_iff

/-- `NatsManager`. A new subscription has a handle that no other one had before. -/
structure Manager where
  subscriptions : List Subscription
  next : Nat
  fresh : ∀ s ∈ subscriptions, s.handle < next
  distinct : subscriptions.Pairwise fun a b => a.handle ≠ b.handle

namespace Manager

def empty : Manager := ⟨[], 0, nofun, .nil⟩

def newEntry (m : Manager) (subject : String) (owner : Option Nat) : Subscription :=
  ⟨m.next, subject, owner⟩

def subscribe (m : Manager) (subject : String) (owner : Option Nat) : Manager where
  subscriptions := m.subscriptions ++ [m.newEntry subject owner]
  next := m.next + 1
  fresh s hs := by
    obtain hs | hs := List.mem_append.mp hs
    · exact Nat.lt_succ_of_lt (m.fresh s hs)
    · rw [List.mem_singleton.mp hs]
      exact Nat.lt_succ_self _
  distinct := by
    refine List.pairwise_append.mpr ⟨m.distinct, List.pairwise_singleton _ _, fun a ha b hb => ?_⟩
    rw [List.mem_singleton.mp hb]
    exact Nat.ne_of_lt (m.fresh a ha)

/-- The first entry with the subject goes; without one nothing happens. -/
def unsubscribe (m : Manager) (subject : String) : Manager where
  subscriptions := m.subscriptions.eraseP (Subscription.on subject)
  next := m.next
  fresh s hs := m.fresh s (List.mem_of_mem_eraseP hs)
  distinct := m.distinct.sublist List.eraseP_sublist

/-- Other callers subscribe to these subjects. -/
def subscribeAll (m : Manager) (subjects : List String) : Manager :=
  subjects.foldl (fun m subject => m.subscribe subject none) m

def Subscribed (m : Manager) (subject : String) : Prop :=
  ∃ s ∈ m.subscriptions, s.subject = subject

end Manager

namespace Manager

theorem exists_subscribeAll (m : Manager) (subjects : List String) :
    ∃ extra, (m.subscribeAll subjects).subscriptions = m.subscriptions ++ extra ∧
      extra.map Subscription.subject = subjects := by
  induction subjects generalizing m with
  | nil => exact ⟨[], (List.append_nil _).symm, rfl⟩
  | cons subject subjects ih =>
    obtain ⟨extra, hextra, hmap⟩ := ih (m.subscribe subject none)
    refine ⟨m.newEntry subject none :: extra, ?_, ?_⟩
    · change ((m.subscribe subject none).subscribeAll subjects).subscriptions = _
      rw [hextra]
      exact List.append_assoc ..
    · rw [List.map_cons, hmap]
      rfl

theorem filter_fresh (m : Manager) :
    m.subscriptions.filter (·.handle ≠ m.next) = m.subscriptions := by
  refine List.filter_eq_self.mpr fun s hs => ?_
  exact decide_eq_true (Nat.ne_of_lt (m.fresh s hs))

end Manager

/-! ## Removing by a predicate -/

section Remove

variable {α : Type} {p : α → Bool} {own : α} {before after : List α}

/-- The first match is the intended one when nothing before it matches. -/
theorem eraseP_eq_iff_left (hown : p own) (hne : own ∉ before ++ after) :
    (before ++ own :: after).eraseP p = before ++ after ↔ ∀ a ∈ before, ¬ p a := by
  constructor
  · intro h a ha hp
    rw [List.eraseP_append_left hp _ ha] at h
    refine hne (h ▸ List.mem_append_right _ List.mem_cons_self)
  · intro h
    rw [List.eraseP_append_right _ h, List.eraseP_cons_of_pos hown]

theorem length_eraseP_lt {l : List α} (h : 0 < l.countP p) : (l.eraseP p).length + 1 = l.length := by
  obtain ⟨a, ha, hp⟩ := List.countP_pos_iff.mp h
  rw [List.length_eraseP_of_mem ha hp]
  have := List.length_pos_of_mem ha
  omega

theorem countP_eraseP {l : List α} : l.countP p ≤ (l.eraseP p).countP p + 1 := by
  obtain h | ⟨a, l₁, l₂, _, hp, hl, he⟩ := List.exists_or_eq_self_of_eraseP p l
  · rw [h]
    omega
  · rw [he, hl, List.countP_append, List.countP_append, List.countP_cons_of_pos hp]
    omega

/-- Removing twice takes one entry when there is only one to take. -/
theorem eraseP_eraseP_eq_iff (hown : p own) (hne : own ∉ before ++ after) :
    ((before ++ own :: after).eraseP p).eraseP p = before ++ after ↔
      ∀ a ∈ before ++ after, ¬ p a := by
  constructor
  · intro h a ha hp
    have hcount : 2 ≤ (before ++ own :: after).countP p := by
      have hpos : 0 < (before ++ after).countP p := List.countP_pos_iff.mpr ⟨a, ha, hp⟩
      rw [List.countP_append] at hpos
      rw [List.countP_append, List.countP_cons_of_pos hown]
      omega
    have hfirst := length_eraseP_lt (p := p) (l := before ++ own :: after) (by omega)
    have hsecond := length_eraseP_lt (p := p) (l := (before ++ own :: after).eraseP p) (by
      have := countP_eraseP (p := p) (l := before ++ own :: after)
      omega)
    rw [h] at hsecond
    simp only [List.length_append, List.length_cons] at hfirst hsecond
    omega
  · intro h
    have hbefore := fun a ha => h a (List.mem_append_left _ ha)
    rw [(eraseP_eq_iff_left hown hne).mpr hbefore]
    exact List.eraseP_of_forall_not h

end Remove

/-! ## One call -/

/-- What a call meets: whether NATS takes its subscription and its message, which subjects
others subscribe to while it waits, and the first message its callback gets in time. -/
structure Surroundings where
  subscribeError : Option String
  publishError : Option String
  others : List String
  message : Option String

abbrev Hub (α : Type) : Type := Comp Empty String Manager α

namespace Request

variable (json : JsonLibrary) (q : Request) (caller : Nat) (env : Surroundings)

def failIf : Option String → Hub Unit
  | some what => Comp.throw what
  | none => pure ()

def unsubscribe : Hub Unit := Comp.modify fun m => m.unsubscribe q.responseSubject

/-- The body of the `try` block. -/
def awaitResponse : Hub Response :=
  match env.message with
  | some text =>
    match q.decode json text with
    | .ok result => do
      unsubscribe q
      pure result
    | .error (.exception what) => Comp.throw what
    | .error .undefined => Comp.halt .undefinedBehaviour
  | none => do
    unsubscribe q
    Comp.throw q.timeoutText

/-- `subscribe_state_response` and its three siblings. -/
def call : Hub Response := do
  failIf env.subscribeError
  Comp.modify fun m => m.subscribe q.responseSubject (some caller)
  failIf env.publishError
  Comp.modify fun m => m.subscribeAll env.others
  Comp.tryCatch (awaitResponse json q env) fun e => do
    unsubscribe q
    Comp.throw e

/-- The manager when the call is about to leave, with its subscription if it made one. -/
def atExit (m : Manager) : Manager :=
  if env.subscribeError.isSome then m
  else if env.publishError.isSome then m.subscribe q.responseSubject (some caller)
  else (m.subscribe q.responseSubject (some caller)).subscribeAll env.others

/-- However the call ends, its own subscription is gone and all the others are there. -/
def Balanced (m : Manager) : Prop :=
  ∀ u, ((∃ r, ((call json q caller env) m).outcome = .ok r u) ∨
      ∃ e, ((call json q caller env) m).outcome = .throw e u) →
    u.subscriptions = (atExit q caller env m).subscriptions.filter (·.handle ≠ m.next)

theorem call_of_subscribeError {what : String} (h : env.subscribeError = some what) (m : Manager) :
    ((call json q caller env) m).outcome = .throw what m := by
  unfold call
  rw [h]
  rfl

theorem call_of_publishError {what : String} (hs : env.subscribeError = none)
    (hp : env.publishError = some what) (m : Manager) :
    ((call json q caller env) m).outcome =
      .throw what (m.subscribe q.responseSubject (some caller)) := by
  unfold call
  rw [hs, hp]
  rfl

theorem call_of_published (hs : env.subscribeError = none) (hp : env.publishError = none)
    (m : Manager) :
    ((call json q caller env) m).outcome =
      ((Comp.tryCatch (awaitResponse json q env) fun e => do
        unsubscribe q
        Comp.throw e) (atExit q caller env m)).outcome := by
  unfold call atExit
  rw [hs, hp]
  rfl

/-- A reply and a malformed reply remove one entry, a timeout removes two. -/
theorem call_reply {text : String} {r : Response} (hs : env.subscribeError = none)
    (hp : env.publishError = none) (hm : env.message = some text) (hd : q.decode json text = .ok r)
    (m : Manager) :
    ((call json q caller env) m).outcome =
      .ok r ((atExit q caller env m).unsubscribe q.responseSubject) := by
  rw [call_of_published json q caller env hs hp]
  refine Comp.tryCatch_of_ok ?_
  unfold awaitResponse
  simp only [hm, hd]
  rfl

theorem call_malformed {text what : String} (hs : env.subscribeError = none)
    (hp : env.publishError = none) (hm : env.message = some text)
    (hd : q.decode json text = .error (.exception what)) (m : Manager) :
    ((call json q caller env) m).outcome =
      .throw what ((atExit q caller env m).unsubscribe q.responseSubject) := by
  rw [call_of_published json q caller env hs hp,
    Comp.tryCatch_of_throw (t := atExit q caller env m) (e := what)]
  · rfl
  · unfold awaitResponse
    simp only [hm, hd]
    rfl

theorem call_timeout (hs : env.subscribeError = none) (hp : env.publishError = none)
    (hm : env.message = none) (m : Manager) :
    ((call json q caller env) m).outcome =
      .throw q.timeoutText (((atExit q caller env m).unsubscribe
        q.responseSubject).unsubscribe q.responseSubject) := by
  rw [call_of_published json q caller env hs hp,
    Comp.tryCatch_of_throw (t := (atExit q caller env m).unsubscribe q.responseSubject)
      (e := q.timeoutText)]
  · rfl
  · unfold awaitResponse
    simp only [hm]
    rfl

theorem balanced_iff_of_exit {m v : Manager}
    (h : (∃ r, ((call json q caller env) m).outcome = .ok r v) ∨
      ∃ e, ((call json q caller env) m).outcome = .throw e v) :
    Balanced json q caller env m ↔
      v.subscriptions = (atExit q caller env m).subscriptions.filter (·.handle ≠ m.next) := by
  refine ⟨fun hb => hb v h, fun hv u hu => ?_⟩
  obtain ⟨r, h⟩ | ⟨e, h⟩ := h <;> obtain ⟨r', hu⟩ | ⟨e', hu⟩ := hu <;> rw [h] at hu <;> cases hu <;>
    exact hv

/-- While a call waits, its own entry stands behind those it found and before later ones. -/
theorem atExit_subscriptions (hs : env.subscribeError = none) (hp : env.publishError = none)
    (m : Manager) :
    ∃ extra, (atExit q caller env m).subscriptions =
        m.subscriptions ++ m.newEntry q.responseSubject (some caller) :: extra ∧
      (atExit q caller env m).subscriptions.filter (·.handle ≠ m.next) =
        m.subscriptions ++ extra ∧
      m.newEntry q.responseSubject (some caller) ∉ m.subscriptions ++ extra ∧
      extra.map Subscription.subject = env.others := by
  obtain ⟨extra, hextra, hmap⟩ :=
    Manager.exists_subscribeAll (m.subscribe q.responseSubject (some caller)) env.others
  have hexit : atExit q caller env m =
      (m.subscribe q.responseSubject (some caller)).subscribeAll env.others := by
    unfold atExit
    rw [hs, hp]
    rfl
  have hlist : (atExit q caller env m).subscriptions =
      m.subscriptions ++ m.newEntry q.responseSubject (some caller) :: extra := by
    rw [hexit, hextra]
    exact List.append_assoc ..
  have hlater : ∀ s ∈ extra, s.handle ≠ m.next := by
    have hdistinct := (atExit q caller env m).distinct
    rw [hlist] at hdistinct
    exact fun s hmem => Ne.symm
      ((List.pairwise_cons.mp (List.pairwise_append.mp hdistinct).2.1).1 s hmem)
  refine ⟨extra, hlist, ?_, fun hmem => ?_, hmap⟩
  · rw [hlist, List.filter_append, m.filter_fresh, List.filter_cons_of_neg (by
      simp [Manager.newEntry])]
    congr 1
    exact List.filter_eq_self.mpr fun s hmem => decide_eq_true (hlater s hmem)
  · obtain hmem | hmem := List.mem_append.mp hmem
    · exact Nat.lt_irrefl _ (m.fresh _ hmem)
    · exact hlater _ hmem rfl

def listening : Manager := Manager.empty.subscribe "FALCON.STATE_RESPONSE" none

def replyText : String := "\x7b\"response\":\"r\",\"timestamp\":1\x7d"

def replyJson : JsonLibrary where
  dump _ _ := "\x7b\"timestamp\":1\x7d"
  parse text :=
    if text = replyText then
      .ok (.object [("response", .string "r"), ("timestamp", timestampJson 1)])
    else .error "parse error"
  extract _ := .error "parse error"

theorem decode_replyText :
    (state ⟨1⟩).decode replyJson replyText = .ok (.state ⟨"r", some 1⟩) := by
  decide +kernel

end Request

end FalconLib.Comms
