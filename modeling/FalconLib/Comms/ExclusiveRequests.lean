import FalconLib.Comms.RequestProtocol

/-!
# One request of a kind at a time

When no process has two requests of one kind outstanding, and nobody else in it subscribes to the
response subjects, every call that waits has one subscription. Every message that the server
routes to it while it waits is handed to it once or still queued for it, and no subscription
outlives its call, unless the request could not be published.
-/

namespace FalconLib.Comms

open FalconLib.Base

def IsResponse (subject : String) : Prop := ∃ q : Request, q.responseSubject = subject

/-- The call that still has a subscription: it waits, or it could not publish its request. -/
def Call.holder? : Call → Option Waiting
  | waiting w => some w
  | threw w _ => if w.published then none else some w
  | idle | returned _ _ _ => none

variable (json : JsonLibrary)

/-- The states of runs with one request of a kind at a time. Any step of a call, a responder or
the network may be taken that leaves the managers alone or ends a call. -/
inductive Exclusive : Network → Prop where
  | initial : Exclusive .initial
  | subscribe {s : Network} {c process : Nat} {q : Request} (before : Exclusive s)
      (idle : s.calls c = .idle) (free : ¬(s.managers process).Subscribed q.responseSubject) :
      Exclusive ((s.setManager process
        ((s.managers process).subscribe q.responseSubject (some c))).setCall c
          (.waiting ⟨process, q, false, [], []⟩))
  | otherSubscribe {s : Network} {process : Nat} {subject : String} (before : Exclusive s)
      (other : ¬IsResponse subject) :
      Exclusive (s.setManager process ((s.managers process).subscribe subject none))
  | otherUnsubscribe {s : Network} {process : Nat} {subject : String} (before : Exclusive s)
      (other : ¬IsResponse subject) : Exclusive (s.unsubscribe process subject)
  | step {s t : Network} (before : Exclusive s) (taken : Step json s t)
      (calm : t.managers = s.managers ∨
        ∃ c w, s.calls c = .waiting w ∧ ∀ v, t.calls c ≠ .waiting v) : Exclusive t

theorem Exclusive.reachable {s : Network} (h : Exclusive json s) : Reachable json s := by
  induction h with
  | initial => exact .initial
  | subscribe _ idle _ ih => exact ih.step (.subscribe _ _ _ _ idle)
  | otherSubscribe _ _ ih => exact ih.step (.otherSubscribe _ _ _)
  | otherUnsubscribe _ _ ih => exact ih.step (.otherUnsubscribe _ _ _)
  | step _ taken _ ih => exact ih.step taken

/-- What the calls and the subscriptions know of each other. -/
structure Accounts (s : Network) : Prop where
  /-- A process has one subscription on a response subject at most. -/
  alone : ∀ process, ∀ a ∈ (s.managers process).subscriptions,
    ∀ b ∈ (s.managers process).subscriptions, IsResponse a.subject → a.subject = b.subject → a = b
  /-- No subscription outlives its call, unless the request could not be published. -/
  owned : ∀ process, ∀ sub ∈ (s.managers process).subscriptions, ∀ c, sub.owner = some c →
    ∃ w, (s.calls c).holder? = some w ∧ w.process = process ∧
      sub.subject = w.request.responseSubject
  /-- A call that waits is subscribed, and what was routed to it is handed to it or queued. -/
  served : ∀ c w, (s.calls c).holder? = some w →
    ∃ sub ∈ (s.managers w.process).subscriptions, sub.owner = some c ∧
      sub.subject = w.request.responseSubject ∧
      (s.calls c = .waiting w → w.heard.Perm (w.handed ++ s.queue w.process sub.handle))

theorem accounts_initial : Accounts .initial where
  alone _ _ ha := absurd ha List.not_mem_nil
  owned _ _ hsub := absurd hsub List.not_mem_nil
  served _ _ hw := by cases hw

variable {json} {s t : Network}

/-- The subscription of a call is the only one of its owner. -/
theorem Accounts.own (h : Accounts s) {process c : Nat} {w : Waiting} {a b : Subscription}
    (hw : (s.calls c).holder? = some w) (ha : a ∈ (s.managers w.process).subscriptions)
    (hsubject : a.subject = w.request.responseSubject)
    (hb : b ∈ (s.managers process).subscriptions) (howner : b.owner = some c) :
    process = w.process ∧ b = a := by
  obtain ⟨v, hv, hprocess, hb'⟩ := h.owned process b hb c howner
  obtain rfl := Option.some.inj (hw.symm.trans hv)
  subst hprocess
  refine ⟨rfl, (h.alone _ a ha b hb ⟨_, hsubject.symm⟩ ?_).symm⟩
  rw [hsubject, hb']

/-! ## Steps that leave the subscriptions of calls alone -/

/-- What a subscription of the call depends on. -/
def Call.held (call : Call) : Option (Nat × Request) :=
  call.holder?.map fun w => (w.process, w.request)

theorem Call.held_eq_some {call : Call} {process : Nat} {q : Request} :
    call.held = some (process, q) ↔
      ∃ w, call.holder? = some w ∧ w.process = process ∧ w.request = q := by
  unfold held
  simp only [Option.map_eq_some_iff, Prod.mk.injEq]

theorem Call.held_hear (call : Call) (message : Message) : (call.hear message).held = call.held := by
  cases call with
  | waiting w =>
    unfold hear
    dsimp only
    split <;> rfl
  | _ => rfl

/-- Everything a waiting call has heard is handed to it or in the queue of its subscription. -/
def Delivered (s : Network) (c : Nat) (sub : Subscription) : Prop :=
  ∀ w, s.calls c = .waiting w → w.heard.Perm (w.handed ++ s.queue w.process sub.handle)

theorem Accounts.frame (h : Accounts s)
    (hnew : ∀ process, ∀ sub ∈ (t.managers process).subscriptions,
      sub ∈ (s.managers process).subscriptions ∨ sub.owner = none ∧ ¬IsResponse sub.subject)
    (hkept : ∀ process, ∀ sub ∈ (s.managers process).subscriptions, IsResponse sub.subject →
      sub ∈ (t.managers process).subscriptions)
    (hheld : ∀ c, (t.calls c).held = (s.calls c).held)
    (hdelivered : ∀ c process, ∀ sub ∈ (s.managers process).subscriptions, sub.owner = some c →
      Delivered s c sub → Delivered t c sub) : Accounts t where
  alone process a ha b hb hresponse hsubject := by
    have hold {sub : Subscription} (hsub : sub ∈ (t.managers process).subscriptions)
        (hr : IsResponse sub.subject) : sub ∈ (s.managers process).subscriptions :=
      (hnew process sub hsub).resolve_right fun hother => hother.2 hr
    exact h.alone process a (hold ha hresponse) b (hold hb (hsubject ▸ hresponse)) hresponse hsubject
  owned process sub hsub c howner := by
    have hold := (hnew process sub hsub).resolve_right fun hother => by
      rw [howner] at hother
      cases hother.1
    obtain ⟨v, hv, hprocess, hsubject⟩ := h.owned process sub hold c howner
    have hheld' := hheld c
    rw [Call.held_eq_some.mpr ⟨v, hv, rfl, rfl⟩] at hheld'
    obtain ⟨w, hw, hprocess', hrequest⟩ := Call.held_eq_some.mp hheld'
    exact ⟨w, hw, hprocess'.trans hprocess, by rw [hsubject, hrequest]⟩
  served c w hw := by
    have hheld' := hheld c
    rw [Call.held_eq_some.mpr ⟨w, hw, rfl, rfl⟩] at hheld'
    obtain ⟨v, hv, hprocess, hrequest⟩ := Call.held_eq_some.mp hheld'.symm
    obtain ⟨sub, hsub, howner, hsubject, hperm⟩ := h.served c v hv
    have hdelivers : Delivered s c sub := fun u hu => by
      obtain rfl : u = v := Option.some.inj ((congrArg Call.holder? hu).symm.trans hv)
      exact hperm hu
    have hresponse : IsResponse sub.subject := ⟨_, hsubject.symm⟩
    rw [hprocess] at hsub
    refine ⟨sub, hkept _ sub hsub hresponse, howner, ?_, fun hwaiting => ?_⟩
    · rw [hsubject, hrequest]
    · exact hdelivered c _ sub hsub howner hdelivers w hwaiting

theorem Accounts.of_managers (h : Accounts s) (hm : t.managers = s.managers)
    (hheld : ∀ c, (t.calls c).held = (s.calls c).held)
    (hdelivered : ∀ c process, ∀ sub ∈ (s.managers process).subscriptions, sub.owner = some c →
      Delivered s c sub → Delivered t c sub) : Accounts t := by
  refine h.frame (fun process sub hsub => .inl ?_) (fun process sub hsub _ => ?_) hheld hdelivered
  · rwa [hm] at hsub
  · rwa [hm]

theorem held_setCall {c : Nat} {call : Call} (hheld : call.held = (s.calls c).held) (c' : Nat) :
    ((s.setCall c call).calls c').held = (s.calls c').held := by
  change (Function.update s.calls c call c').held = _
  by_cases hc : c' = c
  · subst hc
    rw [Function.update_self]
    exact hheld
  · rw [Function.update_of_ne hc]

theorem Delivered.of_setCall {c c' : Nat} {call : Call} {sub : Subscription}
    (h : Delivered s c' sub)
    (hcall : ∀ w, call = .waiting w → ∃ v, s.calls c = .waiting v ∧ v.process = w.process ∧
      v.heard = w.heard ∧ v.handed = w.handed) : Delivered (s.setCall c call) c' sub := by
  intro w hw
  change Function.update s.calls c call c' = _ at hw
  by_cases hc : c' = c
  · subst hc
    rw [Function.update_self] at hw
    obtain ⟨v, hv, hprocess, hheard, hhanded⟩ := hcall w hw
    have hperm := h v hv
    rw [hprocess, hheard, hhanded] at hperm
    exact hperm
  · rw [Function.update_of_ne hc] at hw
    exact h w hw

theorem accounts_publish (h : Accounts s) {c : Nat} {w : Waiting} {message : Message}
    (hw : s.calls c = .waiting w) :
    Accounts ((s.send message).setCall c (.waiting { w with published := true })) := by
  refine h.of_managers rfl (held_setCall (s := s.send message) ?_) fun c' process sub _ _ hd => ?_
  · change _ = (s.calls c).held
    rw [hw]
    rfl
  · refine Delivered.of_setCall (s := s.send message) hd fun v hv => ⟨w, hw, ?_⟩
    cases hv
    exact ⟨rfl, rfl, rfl⟩

theorem accounts_publishFails (h : Accounts s) {c : Nat} {w : Waiting} {what : String}
    (hw : s.calls c = .waiting w) (hp : w.published = false) :
    Accounts (s.setCall c (.threw w what)) := by
  refine h.of_managers rfl (held_setCall ?_) fun c' process sub _ _ hd => ?_
  · rw [hw]
    unfold Call.held Call.holder?
    simp [hp]
  · refine hd.of_setCall fun v hv => ?_
    cases hv

/-- The server knows the subscription of a call that waits. -/
theorem Accounts.sentTo_iff (h : Accounts s) {c process : Nat} {sub : Subscription}
    (hsub : sub ∈ (s.managers process).subscriptions) (howner : sub.owner = some c) {w : Waiting}
    (hw : s.calls c = .waiting w) (subject : String) :
    s.sentTo w.process sub.handle subject = true ↔ w.request.responseSubject = subject := by
  obtain ⟨v, hv, rfl, hsubject⟩ := h.owned process sub hsub c howner
  obtain rfl : w = v := Option.some.inj ((congrArg Call.holder? hw).symm.trans hv)
  rw [← hsubject]
  constructor
  · intro hsent
    obtain ⟨sub', hsub', hhandle, hsubject'⟩ := exists_of_sentTo hsent
    rw [← Manager.eq_of_handle hsub' hsub hhandle]
    exact hsubject'
  · intro heq
    refine List.any_eq_true.mpr ⟨sub, hsub, ?_⟩
    simp [heq]

theorem accounts_route (h : Accounts s) (message : Message) : Accounts (s.route message) := by
  refine h.of_managers rfl (fun c => Call.held_hear _ _) fun c process sub hsub howner hd w hw => ?_
  change (s.calls c).hear message = .waiting w at hw
  change w.heard.Perm (w.handed ++ if s.sentTo w.process sub.handle message.subject then _ else _)
  cases hc : s.calls c with
  | waiting v =>
    rw [hc] at hw
    have hperm := hd v hc
    have hsent := h.sentTo_iff hsub howner hc message.subject
    obtain rfl := Call.waiting.inj hw
    by_cases hsubject : v.request.responseSubject = message.subject
    · rw [if_pos hsubject, if_pos (hsent.mpr hsubject), ← List.append_assoc]
      exact hperm.append_right [message]
    · rw [if_neg hsubject, if_neg fun htrue => hsubject (hsent.mp htrue)]
      exact hperm
  | idle => rw [hc] at hw; cases hw
  | returned v m r => rw [hc] at hw; cases hw
  | threw v what => rw [hc] at hw; cases hw

/-- Taking a message from a queue changes no other queue. -/
theorem queue_dequeue_of_ne (s : Network) {process handle process' handle' : Nat}
    (message : Message) (h : process' = process → handle' ≠ handle) :
    (s.dequeue process handle message).queue process' handle' = s.queue process' handle' := by
  change Function.update s.queue process _ process' handle' = _
  by_cases hp : process' = process
  · subst hp
    rw [Function.update_self, Function.update_of_ne (h rfl)]
  · rw [Function.update_of_ne hp]

theorem queue_dequeue_self (s : Network) (process handle : Nat) (message : Message) :
    (s.dequeue process handle message).queue process handle =
      (s.queue process handle).erase message := by
  change Function.update s.queue process _ process handle = _
  rw [Function.update_self, Function.update_self]

/-- Taking a message from the queue of another subscription is nothing to a call. -/
theorem Accounts.delivered_dequeue (h : Accounts s) {c process process' : Nat}
    {sub taken : Subscription} (hsub : sub ∈ (s.managers process).subscriptions)
    (howner : sub.owner = some c) (htaken : taken ∈ (s.managers process').subscriptions)
    (hother : taken.owner ≠ some c) (message : Message) (hd : Delivered s c sub) :
    Delivered (s.dequeue process' taken.handle message) c sub := by
  intro w hw
  have hperm := hd w hw
  rw [queue_dequeue_of_ne s message fun hprocess hhandle => hother ?_]
  · exact hperm
  · obtain ⟨v, hv, rfl, _⟩ := h.owned process sub hsub c howner
    obtain rfl : w = v := Option.some.inj ((congrArg Call.holder? hw).symm.trans hv)
    subst hprocess
    rw [← Manager.eq_of_handle hsub htaken hhandle]
    exact howner

theorem accounts_listen (h : Accounts s) {process : Nat} {sub : Subscription}
    (hsub : sub ∈ (s.managers process).subscriptions) (howner : sub.owner = none)
    (message : Message) : Accounts (s.dequeue process sub.handle message) := by
  refine h.of_managers rfl (fun _ => rfl) fun c process' sub' hsub' howner' hd => ?_
  refine h.delivered_dequeue hsub' howner' hsub ?_ message hd
  rw [howner]
  exact nofun

theorem accounts_hand (h : Accounts s) {c process : Nat} {sub : Subscription} {message : Message}
    {w : Waiting} (hsub : sub ∈ (s.managers process).subscriptions) (howner : sub.owner = some c)
    (hqueue : message ∈ s.queue process sub.handle) (hw : s.calls c = .waiting w) :
    Accounts ((s.dequeue process sub.handle message).setCall c
      (.waiting { w with handed := w.handed ++ [message] })) := by
  refine h.of_managers rfl (held_setCall (s := s.dequeue process sub.handle message) ?_)
    fun c' process' sub' hsub' howner' hd => ?_
  · change _ = (s.calls c).held
    rw [hw]
    rfl
  · intro v hv
    change Function.update s.calls c _ c' = _ at hv
    by_cases hc : c' = c
    · subst hc
      rw [Function.update_self] at hv
      obtain rfl := Call.waiting.inj hv
      obtain ⟨v, hv, rfl, hsubject⟩ := h.owned process sub hsub c' howner
      obtain rfl : w = v := Option.some.inj ((congrArg Call.holder? hw).symm.trans hv)
      obtain ⟨rfl, rfl⟩ := h.own hv hsub hsubject hsub' howner'
      have hperm := hd w hw
      change w.heard.Perm ((w.handed ++ [message]) ++
        (s.dequeue w.process sub'.handle message).queue w.process sub'.handle)
      rw [queue_dequeue_self, List.append_assoc]
      exact hperm.trans ((List.perm_cons_erase hqueue).append_left w.handed)
    · rw [Function.update_of_ne hc] at hv
      refine h.delivered_dequeue hsub' howner' hsub (fun heq => hc ?_) message hd v hv
      exact Option.some.inj (heq.symm.trans howner)

/-! ## Steps that make or end a subscription -/

theorem mem_eraseP_iff {α : Type} {p : α → Bool} {l : List α} (hd : l.Nodup)
    (hu : ∀ a ∈ l, ∀ b ∈ l, p a = true → p b = true → a = b) {a : α} :
    a ∈ l.eraseP p ↔ a ∈ l ∧ ¬p a = true := by
  refine ⟨fun ha => ?_, fun ⟨ha, hp⟩ => (List.mem_eraseP_of_neg hp).mpr ha⟩
  obtain heq | ⟨b, l₁, l₂, _, hb, hl, he⟩ := List.exists_or_eq_self_of_eraseP p l
  · have hmem := heq ▸ ha
    refine ⟨hmem, fun hp => ?_⟩
    have hlength := List.length_eraseP_of_mem hmem hp
    have hpos := List.length_pos_of_mem hmem
    rw [heq] at hlength
    omega
  · rw [he] at ha
    rw [hl] at hd hu ⊢
    have hne : a ≠ b := by
      rintro rfl
      exact (List.nodup_cons.mp (List.nodup_middle.mp hd)).1 ha
    have hmem : a ∈ l₁ ++ b :: l₂ := by
      obtain hmem | hmem := List.mem_append.mp ha
      · exact List.mem_append_left _ hmem
      · exact List.mem_append_right _ (List.mem_cons_of_mem _ hmem)
    exact ⟨hmem, fun hp => hne (hu a hmem b (List.mem_append_right _ List.mem_cons_self) hp hb)⟩

theorem Manager.nodup (m : Manager) : m.subscriptions.Nodup :=
  m.distinct.imp fun hne heq => hne (congrArg _ heq)

/-- Removing by subject removes the only subscription on it. -/
theorem Manager.mem_unsubscribe {m : Manager} {subject : String}
    (halone : ∀ a ∈ m.subscriptions, ∀ b ∈ m.subscriptions, a.subject = subject →
      a.subject = b.subject → a = b) {sub : Subscription} :
    sub ∈ (m.unsubscribe subject).subscriptions ↔
      sub ∈ m.subscriptions ∧ sub.subject ≠ subject := by
  change sub ∈ m.subscriptions.eraseP (Subscription.on subject) ↔ _
  rw [mem_eraseP_iff m.nodup fun a ha b hb hp hp' => ?_, Subscription.on_iff]
  rw [Subscription.on_iff] at hp hp'
  exact halone a ha b hb hp (hp.trans hp'.symm)

/-- A call ends, and in its process nothing is left on its subject. -/
theorem Accounts.ends (h : Accounts s) {c : Nat} {w : Waiting} {call : Call}
    (hw : (s.calls c).holder? = some w) (hcalls : t.calls = Function.update s.calls c call)
    (hcall : call.holder? = none) (hqueue : t.queue = s.queue)
    (hsubs : ∀ process sub, sub ∈ (t.managers process).subscriptions ↔
      sub ∈ (s.managers process).subscriptions ∧
        (process = w.process → sub.subject ≠ w.request.responseSubject)) : Accounts t where
  alone process a ha b hb :=
    h.alone process a ((hsubs process a).mp ha).1 b ((hsubs process b).mp hb).1
  owned process sub hsub c' howner := by
    obtain ⟨hold, hother⟩ := (hsubs process sub).mp hsub
    obtain ⟨v, hv, hprocess, hsubject⟩ := h.owned process sub hold c' howner
    have hc : c' ≠ c := by
      rintro rfl
      obtain rfl := Option.some.inj (hw.symm.trans hv)
      exact hother hprocess.symm hsubject
    refine ⟨v, ?_, hprocess, hsubject⟩
    rw [hcalls, Function.update_of_ne hc]
    exact hv
  served c' v hv := by
    rw [hcalls] at hv ⊢
    have hc : c' ≠ c := by
      rintro rfl
      rw [Function.update_self, hcall] at hv
      cases hv
    rw [Function.update_of_ne hc] at hv ⊢
    obtain ⟨sub, hsub, howner, hsubject, hperm⟩ := h.served c' v hv
    rw [hqueue]
    refine ⟨sub, (hsubs _ sub).mpr ⟨hsub, fun hprocess heq => hc ?_⟩, howner, hsubject, hperm⟩
    obtain ⟨own, hown, howner', hsubject', _⟩ := h.served c w hw
    rw [hprocess] at hsub
    have hsame := h.alone w.process sub hsub own hown ⟨_, hsubject.symm⟩ (heq.trans hsubject'.symm)
    rw [hsame] at howner
    exact Option.some.inj (howner.symm.trans howner')

/-- What is left of the managers when a call has removed its subject. -/
theorem Accounts.mem_unsubscribe (h : Accounts s) (process : Nat) (q : Request) (process' : Nat)
    (sub : Subscription) :
    sub ∈ ((s.unsubscribe process q.responseSubject).managers process').subscriptions ↔
      sub ∈ (s.managers process').subscriptions ∧
        (process' = process → sub.subject ≠ q.responseSubject) := by
  change sub ∈ (Function.update s.managers process _ process').subscriptions ↔ _
  by_cases hp : process' = process
  · subst hp
    rw [Function.update_self, Manager.mem_unsubscribe fun a ha b hb heq => ?_]
    · simp
    · exact h.alone process' a ha b hb ⟨q, heq.symm⟩
  · rw [Function.update_of_ne hp]
    simp [hp]

theorem accounts_unsubscribed (h : Accounts s) {c : Nat} {w : Waiting} {call : Call}
    (hw : s.calls c = .waiting w) (hcall : call.holder? = none) :
    Accounts ((s.unsubscribe w.process w.request.responseSubject).setCall c call) :=
  h.ends (congrArg Call.holder? hw) rfl hcall rfl
    fun process sub => h.mem_unsubscribe w.process w.request process sub

theorem accounts_timeout (h : Accounts s) {c : Nat} {w : Waiting} {call : Call}
    (hw : s.calls c = .waiting w) (hcall : call.holder? = none) :
    Accounts (((s.unsubscribe w.process w.request.responseSubject).unsubscribe w.process
      w.request.responseSubject).setCall c call) := by
  refine h.ends (congrArg Call.holder? hw) rfl hcall rfl fun process sub => ?_
  change sub ∈ (Function.update (s.unsubscribe w.process w.request.responseSubject).managers
    w.process _ process).subscriptions ↔ _
  rw [← h.mem_unsubscribe w.process w.request process sub]
  by_cases hp : process = w.process
  · subst hp
    rw [Function.update_self, Manager.mem_unsubscribe fun a ha b hb heq => ?_,
      h.mem_unsubscribe]
    · simp
    · exact absurd heq (((h.mem_unsubscribe _ _ _ a).mp ha).2 rfl)
  · rw [Function.update_of_ne hp]

theorem mem_subscribe {process process' : Nat} {subject : String} {owner : Option Nat}
    {sub : Subscription} :
    sub ∈ ((s.setManager process
        ((s.managers process).subscribe subject owner)).managers process').subscriptions ↔
      sub ∈ (s.managers process').subscriptions ∨
        process' = process ∧ sub = (s.managers process).newEntry subject owner := by
  change sub ∈ (Function.update s.managers process _ process').subscriptions ↔ _
  by_cases hp : process' = process
  · subst hp
    rw [Function.update_self]
    change sub ∈ _ ++ [_] ↔ _
    simp
  · rw [Function.update_of_ne hp]
    simp [hp]

theorem accounts_otherSubscribe (h : Accounts s) {process : Nat} {subject : String}
    (hother : ¬IsResponse subject) :
    Accounts (s.setManager process ((s.managers process).subscribe subject none)) := by
  refine h.frame (fun process' sub hsub => ?_) (fun process' sub hsub _ => ?_) (fun _ => rfl)
    fun _ _ _ _ _ hd => hd
  · obtain hold | ⟨_, rfl⟩ := mem_subscribe.mp hsub
    · exact .inl hold
    · exact .inr ⟨rfl, hother⟩
  · exact mem_subscribe.mpr (.inl hsub)

theorem accounts_otherUnsubscribe (h : Accounts s) {process : Nat} {subject : String}
    (hother : ¬IsResponse subject) : Accounts (s.unsubscribe process subject) := by
  refine h.frame (fun process' sub hsub => .inl ?_) (fun process' sub hsub hr => ?_) (fun _ => rfl)
    fun _ _ _ _ _ hd => hd
  · change sub ∈ (Function.update s.managers process _ process').subscriptions at hsub
    by_cases hp : process' = process
    · subst hp
      rw [Function.update_self] at hsub
      exact List.mem_of_mem_eraseP hsub
    · rwa [Function.update_of_ne hp] at hsub
  · change sub ∈ (Function.update s.managers process _ process').subscriptions
    by_cases hp : process' = process
    · subst hp
      rw [Function.update_self]
      refine (List.mem_eraseP_of_neg fun hon => hother ?_).mpr hsub
      rw [← Subscription.on_iff.mp hon]
      exact hr
    · rwa [Function.update_of_ne hp]

theorem accounts_subscribe (h : Accounts s)
    (hunused : ∀ process handle, (s.managers process).next ≤ handle → s.queue process handle = [])
    {c process : Nat} {q : Request} (hidle : s.calls c = .idle)
    (hfree : ¬(s.managers process).Subscribed q.responseSubject) :
    Accounts ((s.setManager process
      ((s.managers process).subscribe q.responseSubject (some c))).setCall c
        (.waiting ⟨process, q, false, [], []⟩)) where
  alone process' a ha b hb hr hsubject := by
    have hnew {sub : Subscription} (hsub : sub ∈ (s.managers process).subscriptions) :
        sub.subject ≠ q.responseSubject := fun heq => hfree ⟨sub, hsub, heq⟩
    obtain hold | ⟨rfl, rfl⟩ := mem_subscribe.mp ha
    · obtain hold' | ⟨rfl, rfl⟩ := mem_subscribe.mp hb
      · exact h.alone process' a hold b hold' hr hsubject
      · exact absurd hsubject (hnew hold)
    · obtain hold' | ⟨_, rfl⟩ := mem_subscribe.mp hb
      · exact absurd hsubject.symm (hnew hold')
      · rfl
  owned process' sub hsub c' howner := by
    change ∃ w, (Function.update s.calls c _ c').holder? = some w ∧ _
    obtain hold | ⟨rfl, rfl⟩ := mem_subscribe.mp hsub
    · obtain ⟨w, hw, hrest⟩ := h.owned process' sub hold c' howner
      have hc : c' ≠ c := by
        rintro rfl
        rw [hidle] at hw
        cases hw
      rw [Function.update_of_ne hc]
      exact ⟨w, hw, hrest⟩
    · obtain rfl := Option.some.inj howner
      rw [Function.update_self]
      exact ⟨_, rfl, rfl, rfl⟩
  served c' w hw := by
    change (Function.update s.calls c _ c').holder? = some w at hw
    change ∃ sub ∈ _, _ ∧ _ ∧ (Function.update s.calls c _ c' = _ → _)
    by_cases hc : c' = c
    · subst hc
      rw [Function.update_self] at hw ⊢
      obtain rfl := Option.some.inj hw
      refine ⟨_, mem_subscribe.mpr (.inr ⟨rfl, rfl⟩), rfl, rfl, fun _ => ?_⟩
      change [].Perm ([] ++ s.queue process (s.managers process).next)
      rw [hunused process _ (Nat.le_refl _)]
      exact .nil
    · rw [Function.update_of_ne hc] at hw ⊢
      obtain ⟨sub, hsub, hrest⟩ := h.served c' w hw
      exact ⟨sub, mem_subscribe.mpr (.inl hsub), hrest⟩

/-! ## Every step -/

/-- A step that makes a subscription neither leaves the managers alone nor ends a call. -/
theorem not_calm_subscribe {process : Nat} {subject : String} {owner : Option Nat}
    {calls : Nat → Call} (hcalls : ∀ c w, s.calls c = .waiting w → ∃ v, calls c = .waiting v)
    (hm : t.managers = Function.update s.managers process
      ((s.managers process).subscribe subject owner)) (hc : t.calls = calls) :
    ¬(t.managers = s.managers ∨ ∃ c w, s.calls c = .waiting w ∧ ∀ v, t.calls c ≠ .waiting v) := by
  rintro (hsame | ⟨c, w, hw, hnot⟩)
  · have hnext := congrArg Manager.next (congrFun (hm.symm.trans hsame) process)
    rw [Function.update_self] at hnext
    exact absurd hnext (Nat.succ_ne_self _)
  · obtain ⟨v, hv⟩ := hcalls c w hw
    exact hnot v (by rw [hc, hv])

theorem accounts_step (h : Accounts s) (taken : Step json s t)
    (calm : t.managers = s.managers ∨
      ∃ c w, s.calls c = .waiting w ∧ ∀ v, t.calls c ≠ .waiting v) : Accounts t := by
  cases taken with
  | subscribe c process q hidle =>
    refine absurd calm (not_calm_subscribe (fun c' w hw => ⟨w, ?_⟩) rfl rfl)
    have hc : c' ≠ c := by
      rintro rfl
      rw [hidle] at hw
      cases hw
    change Function.update s.calls c _ c' = _
    rw [Function.update_of_ne hc]
    exact hw
  | publish c w hw hp => exact accounts_publish h hw
  | publishFails c w what hw hp => exact accounts_publishFails h hw hp
  | respond c q text hq => exact h.of_managers rfl (fun _ => rfl) fun _ _ _ _ _ hd => hd
  | announce subject text => exact h.of_managers rfl (fun _ => rfl) fun _ _ _ _ _ hd => hd
  | lose message hm => exact h.of_managers rfl (fun _ => rfl) fun _ _ _ _ _ hd => hd
  | route message hm => exact accounts_route h message
  | hand process c sub message w hsub howner hqueue hw => exact accounts_hand h hsub howner hqueue hw
  | listen process sub message hsub howner => exact accounts_listen h hsub howner message
  | answer c w message r hw hp hm hd => exact accounts_unsubscribed h hw rfl
  | malformed c w message what hw hp hm hd =>
    exact accounts_unsubscribed h hw (by unfold Call.holder?; simp [hp])
  | timeout c w hw hp => exact accounts_timeout h hw (by unfold Call.holder?; simp [hp])
  | otherSubscribe process subject =>
    exact absurd calm (not_calm_subscribe (fun _ w hw => ⟨w, hw⟩) rfl rfl)
  | otherUnsubscribe process subject =>
    obtain hsame | ⟨c, w, hw, hnot⟩ := calm
    · exact h.of_managers hsame (fun _ => rfl) fun _ _ _ _ _ hd => hd
    · exact absurd hw (hnot w)

end FalconLib.Comms
