import FalconLib.Comms.NatsManager
import Mathlib.Data.List.Nodup
import Mathlib.Logic.Function.Basic

/-!
# Requests and responses of many clients

Any number of calls in any number of processes publish requests and wait for responses. The
network delays, reorders and loses messages. A message carries no mark of its request; which
request it was produced for is kept here only to speak about it.
-/

namespace FalconLib.Comms

open FalconLib.Base

structure Message where
  subject : String
  text : String
  /-- The call whose request was answered with this message. -/
  producedFor : Option Nat
deriving DecidableEq

/-- A call between its subscription and its end. -/
structure Waiting where
  process : Nat
  request : Request
  published : Bool
  /-- What its callback was handed, in this order; the first one counts. -/
  handed : List Message
  /-- What the server routed on its response subject since it subscribed. -/
  heard : List Message

inductive Call where
  | idle
  | waiting (w : Waiting)
  | returned (w : Waiting) (message : Message) (response : Response)
  | threw (w : Waiting) (what : String)

/-- The call has published its request, so that it can be answered, also when it has ended. -/
def Call.asked? : Call → Option Request
  | idle => none
  | waiting w => if w.published then some w.request else none
  | returned w _ _ => some w.request
  | threw w _ => if w.published then some w.request else none

/-- A waiting call whose response subject this is hears of the message. -/
def Call.hear (message : Message) : Call → Call
  | .waiting w =>
    .waiting (if w.request.responseSubject = message.subject then
      { w with heard := w.heard ++ [message] } else w)
  | call => call

structure Network where
  calls : Nat → Call
  managers : Nat → Manager
  inFlight : List Message
  /-- What the server has sent to a subscription, by process and handle. -/
  queue : Nat → Nat → List Message

namespace Network

def initial : Network := ⟨fun _ => .idle, fun _ => .empty, [], fun _ _ => []⟩

def setCall (s : Network) (c : Nat) (call : Call) : Network :=
  { s with calls := Function.update s.calls c call }

def setManager (s : Network) (process : Nat) (m : Manager) : Network :=
  { s with managers := Function.update s.managers process m }

def send (s : Network) (message : Message) : Network :=
  { s with inFlight := message :: s.inFlight }

def lose (s : Network) (message : Message) : Network :=
  { s with inFlight := s.inFlight.erase message }

/-- The process has a subscription with this handle on the subject. -/
def sentTo (s : Network) (process handle : Nat) (subject : String) : Bool :=
  (s.managers process).subscriptions.any fun sub => sub.handle == handle && sub.subject == subject

/-- The server sends the message to every subscription on its subject. -/
def route (s : Network) (message : Message) : Network :=
  { s with
    calls := fun c => (s.calls c).hear message
    inFlight := s.inFlight.erase message
    queue := fun process handle =>
      if s.sentTo process handle message.subject then s.queue process handle ++ [message]
      else s.queue process handle }

def dequeue (s : Network) (process handle : Nat) (message : Message) : Network :=
  { s with
    queue := Function.update s.queue process
      (Function.update (s.queue process) handle ((s.queue process handle).erase message)) }

def unsubscribe (s : Network) (process : Nat) (subject : String) : Network :=
  s.setManager process ((s.managers process).unsubscribe subject)

end Network

open Network

variable (json : JsonLibrary)

/-- One step of a call, of a responder, of another program or of the network. -/
inductive Step : Network → Network → Prop where
  | subscribe (s : Network) (c process : Nat) (q : Request) (h : s.calls c = .idle) :
      Step s ((s.setManager process
        ((s.managers process).subscribe q.responseSubject (some c))).setCall c
          (.waiting ⟨process, q, false, [], []⟩))
  | publish (s : Network) (c : Nat) (w : Waiting) (h : s.calls c = .waiting w)
      (hp : w.published = false) :
      Step s ((s.send ⟨w.request.requestSubject, json.dump none w.request.toJson, none⟩).setCall c
        (.waiting { w with published := true }))
  | publishFails (s : Network) (c : Nat) (w : Waiting) (what : String)
      (h : s.calls c = .waiting w) (hp : w.published = false) :
      Step s (s.setCall c (.threw w what))
  /-- A responder answers a request that was published, now or long after. -/
  | respond (s : Network) (c : Nat) (q : Request) (text : String)
      (h : (s.calls c).asked? = some q) :
      Step s (s.send ⟨q.responseSubject, text, some c⟩)
  /-- Anybody publishes anything. -/
  | announce (s : Network) (subject text : String) : Step s (s.send ⟨subject, text, none⟩)
  | lose (s : Network) (message : Message) (h : message ∈ s.inFlight) : Step s (s.lose message)
  | route (s : Network) (message : Message) (h : message ∈ s.inFlight) : Step s (s.route message)
  /-- A message reaches the callback of a call that waits. A callback that outlived its call
  has no defined effect, so that no step hands it anything. -/
  | hand (s : Network) (process c : Nat) (sub : Subscription) (message : Message) (w : Waiting)
      (hsub : sub ∈ (s.managers process).subscriptions) (howner : sub.owner = some c)
      (hqueue : message ∈ s.queue process sub.handle) (h : s.calls c = .waiting w) :
      Step s ((s.dequeue process sub.handle message).setCall c
        (.waiting { w with handed := w.handed ++ [message] }))
  /-- A message reaches a callback of another program. -/
  | listen (s : Network) (process : Nat) (sub : Subscription) (message : Message)
      (hsub : sub ∈ (s.managers process).subscriptions) (howner : sub.owner = none) :
      Step s (s.dequeue process sub.handle message)
  | answer (s : Network) (c : Nat) (w : Waiting) (message : Message) (r : Response)
      (h : s.calls c = .waiting w) (hp : w.published) (hm : w.handed.head? = some message)
      (hd : w.request.decode json message.text = .ok r) :
      Step s ((s.unsubscribe w.process w.request.responseSubject).setCall c
        (.returned w message r))
  | malformed (s : Network) (c : Nat) (w : Waiting) (message : Message) (what : String)
      (h : s.calls c = .waiting w) (hp : w.published) (hm : w.handed.head? = some message)
      (hd : w.request.decode json message.text = .error (.exception what)) :
      Step s ((s.unsubscribe w.process w.request.responseSubject).setCall c (.threw w what))
  /-- The wait can run out although a message has come in the meantime. -/
  | timeout (s : Network) (c : Nat) (w : Waiting) (h : s.calls c = .waiting w)
      (hp : w.published) :
      Step s (((s.unsubscribe w.process w.request.responseSubject).unsubscribe w.process
        w.request.responseSubject).setCall c (.threw w w.request.timeoutText))
  | otherSubscribe (s : Network) (process : Nat) (subject : String) :
      Step s (s.setManager process ((s.managers process).subscribe subject none))
  | otherUnsubscribe (s : Network) (process : Nat) (subject : String) :
      Step s (s.unsubscribe process subject)

inductive Reachable : Network → Prop where
  | initial : Reachable .initial
  | step {s t : Network} : Reachable s → Step json s t → Reachable t

/-! ## What every call knows of the messages it takes -/

/-- A callback is handed only what was routed on the response subject since it subscribed. -/
structure Waiting.Ok (w : Waiting) : Prop where
  heard : ∀ m ∈ w.heard, m.subject = w.request.responseSubject
  handed : ∀ m ∈ w.handed, m ∈ w.heard

def Call.Ok : Call → Prop
  | idle => True
  | waiting w => w.Ok
  | returned w m r => w.Ok ∧ w.handed.head? = some m ∧ w.request.decode json m.text = .ok r
  | threw _ _ => True

/-- A subscription of a call that waits is on its response subject, and the messages sent to it
have been heard by the call. -/
def Tracked (s : Network) (process : Nat) (sub : Subscription) (c : Nat) : Prop :=
  s.calls c ≠ .idle ∧ ∀ w, s.calls c = .waiting w →
    sub.subject = w.request.responseSubject ∧ ∀ m ∈ s.queue process sub.handle, m ∈ w.heard

structure Invariant (s : Network) : Prop where
  call : ∀ c, (s.calls c).Ok json
  tracked : ∀ process, ∀ sub ∈ (s.managers process).subscriptions, ∀ c,
    sub.owner = some c → Tracked s process sub c
  unused : ∀ process handle, (s.managers process).next ≤ handle → s.queue process handle = []

/-- No subscription of a call is added, no message is sent to one, and no call forgets. -/
structure Follows (s t : Network) : Prop where
  owned : ∀ process, ∀ sub ∈ (t.managers process).subscriptions, ∀ c, sub.owner = some c →
    sub ∈ (s.managers process).subscriptions
  next : ∀ process, (s.managers process).next ≤ (t.managers process).next
  queue : ∀ process handle, ∀ m ∈ t.queue process handle, m ∈ s.queue process handle
  idle : ∀ c, t.calls c = .idle → s.calls c = .idle
  waiting : ∀ c w, t.calls c = .waiting w → ∃ v, s.calls c = .waiting v ∧
    w.request = v.request ∧ ∀ m ∈ v.heard, m ∈ w.heard

theorem Invariant.follows {s t : Network} (h : Invariant json s) (hf : Follows s t)
    (hcall : ∀ c, (t.calls c).Ok json) : Invariant json t where
  call := hcall
  tracked process sub hsub c howner := by
    obtain ⟨hidle, hwaiting⟩ := h.tracked process sub (hf.owned process sub hsub c howner) c howner
    refine ⟨fun ht => hidle (hf.idle c ht), fun w hw => ?_⟩
    obtain ⟨v, hv, hrequest, hheard⟩ := hf.waiting c w hw
    obtain ⟨hsubject, hqueue⟩ := hwaiting v hv
    rw [hrequest]
    exact ⟨hsubject, fun m hm => hheard m (hqueue m (hf.queue process sub.handle m hm))⟩
  unused process handle hnext := by
    refine List.eq_nil_iff_forall_not_mem.mpr fun m hm => ?_
    have hempty := h.unused process handle (le_trans (hf.next process) hnext)
    exact absurd (hempty ▸ hf.queue process handle m hm) List.not_mem_nil

theorem invariant_initial : Invariant json .initial where
  call _ := trivial
  tracked _ _ hsub := absurd hsub List.not_mem_nil
  unused _ _ _ := rfl

/-- A step of one waiting call, with what it does to the lists of the network. -/
theorem Follows.setCall {s t : Network} {c : Nat} {w : Waiting} {call : Call} (hf : Follows s t)
    (ht : t.calls = s.calls) (h : s.calls c = .waiting w) (hidle : call ≠ .idle)
    (hkeep : ∀ v, call = .waiting v → v.request = w.request ∧ ∀ m ∈ w.heard, m ∈ v.heard) :
    Follows s (t.setCall c call) where
  owned := hf.owned
  next := hf.next
  queue := hf.queue
  idle c' h' := by
    change Function.update t.calls c call c' = _ at h'
    by_cases hc : c' = c
    · subst hc
      rw [Function.update_self] at h'
      exact absurd h' hidle
    · rw [Function.update_of_ne hc, ht] at h'
      exact h'
  waiting c' v hv := by
    change Function.update t.calls c call c' = _ at hv
    by_cases hc : c' = c
    · subst hc
      rw [Function.update_self] at hv
      exact ⟨w, h, hkeep v hv⟩
    · rw [Function.update_of_ne hc, ht] at hv
      exact ⟨v, hv, rfl, fun _ hm => hm⟩

theorem ok_setCall {s t : Network} {c : Nat} {call : Call} (h : ∀ c, (s.calls c).Ok json)
    (ht : t.calls = s.calls) (hcall : call.Ok json) (c' : Nat) :
    ((t.setCall c call).calls c').Ok json := by
  change (Function.update t.calls c call c').Ok json
  by_cases hc : c' = c
  · subst hc
    rw [Function.update_self]
    exact hcall
  · rw [Function.update_of_ne hc, ht]
    exact h c'

/-- Only the messages in flight differ. -/
theorem follows_of_eq {s t : Network} (hc : t.calls = s.calls) (hm : t.managers = s.managers)
    (hq : t.queue = s.queue) : Follows s t := by
  refine ⟨fun p sub h _ _ => ?_, fun p => ?_, fun p handle m h => ?_, fun c h => ?_,
    fun c w h => ⟨w, ?_, rfl, fun _ hm => hm⟩⟩
  · rwa [hm] at h
  · rw [hm]
  · rwa [hq] at h
  · rwa [hc] at h
  · rwa [hc] at h

theorem follows_unsubscribe (s : Network) (process : Nat) (subject : String) :
    Follows s (s.unsubscribe process subject) := by
  refine ⟨fun p sub hsub c _ => ?_, fun p => ?_, fun _ _ _ h => h, fun _ h => h,
    fun _ w h => ⟨w, h, rfl, fun _ hm => hm⟩⟩
  · change sub ∈ (Function.update s.managers process _ p).subscriptions at hsub
    by_cases hp : p = process
    · subst hp
      rw [Function.update_self] at hsub
      exact List.mem_of_mem_eraseP hsub
    · rw [Function.update_of_ne hp] at hsub
      exact hsub
  · change _ ≤ (Function.update s.managers process _ p).next
    by_cases hp : p = process
    · subst hp
      rw [Function.update_self]
      exact le_rfl
    · rw [Function.update_of_ne hp]

theorem follows_dequeue (s : Network) (process handle : Nat) (message : Message) :
    Follows s (s.dequeue process handle message) := by
  refine ⟨fun _ _ h _ _ => h, fun _ => le_rfl, fun p h m hm => ?_, fun _ h => h,
    fun _ w h => ⟨w, h, rfl, fun _ hm => hm⟩⟩
  change m ∈ Function.update s.queue process _ p h at hm
  by_cases hp : p = process
  · subst hp
    rw [Function.update_self] at hm
    by_cases hh : h = handle
    · subst hh
      rw [Function.update_self] at hm
      exact List.mem_of_mem_erase hm
    · rw [Function.update_of_ne hh] at hm
      exact hm
  · rw [Function.update_of_ne hp] at hm
    exact hm

theorem follows_otherSubscribe (s : Network) (process : Nat) (subject : String) :
    Follows s (s.setManager process ((s.managers process).subscribe subject none)) := by
  refine ⟨fun p sub hsub c howner => ?_, fun p => ?_, fun _ _ _ h => h, fun _ h => h,
    fun _ w h => ⟨w, h, rfl, fun _ hm => hm⟩⟩
  · change sub ∈ (Function.update s.managers process _ p).subscriptions at hsub
    by_cases hp : p = process
    · subst hp
      rw [Function.update_self] at hsub
      obtain hsub | hsub := List.mem_append.mp hsub
      · exact hsub
      · rw [List.mem_singleton.mp hsub] at howner
        cases howner
    · rw [Function.update_of_ne hp] at hsub
      exact hsub
  · change _ ≤ (Function.update s.managers process _ p).next
    by_cases hp : p = process
    · subst hp
      rw [Function.update_self]
      exact Nat.le_succ _
    · rw [Function.update_of_ne hp]

theorem Follows.trans {s t u : Network} (h : Follows s t) (h' : Follows t u) : Follows s u where
  owned process sub hsub c hc := h.owned process sub (h'.owned process sub hsub c hc) c hc
  next process := le_trans (h.next process) (h'.next process)
  queue process handle m hm := h.queue process handle m (h'.queue process handle m hm)
  idle c hc := h.idle c (h'.idle c hc)
  waiting c w hw := by
    obtain ⟨v, hv, hrequest, hheard⟩ := h'.waiting c w hw
    obtain ⟨u, hu, hrequest', hheard'⟩ := h.waiting c v hv
    exact ⟨u, hu, hrequest.trans hrequest', fun m hm => hheard m (hheard' m hm)⟩

theorem invariant_subscribe {s : Network} (h : Invariant json s) {c process : Nat} {q : Request}
    (hidle : s.calls c = .idle) :
    Invariant json ((s.setManager process
      ((s.managers process).subscribe q.responseSubject (some c))).setCall c
        (.waiting ⟨process, q, false, [], []⟩)) where
  call := ok_setCall json h.call rfl ⟨nofun, nofun⟩
  tracked p sub hsub c' howner := by
    change sub ∈ (Function.update s.managers process _ p).subscriptions at hsub
    have hold (hmem : sub ∈ (s.managers p).subscriptions) :
        Tracked ((s.setManager process ((s.managers process).subscribe q.responseSubject
          (some c))).setCall c (.waiting ⟨process, q, false, [], []⟩)) p sub c' := by
      obtain ⟨hne, hwaiting⟩ := h.tracked p sub hmem c' howner
      have hc : c' ≠ c := fun heq => hne (heq ▸ hidle)
      unfold Tracked
      change Function.update s.calls c _ c' ≠ _ ∧ ∀ w, Function.update s.calls c _ c' = _ → _
      rw [Function.update_of_ne hc]
      exact ⟨hne, hwaiting⟩
    by_cases hp : p = process
    · subst hp
      rw [Function.update_self] at hsub
      obtain hsub | hsub := List.mem_append.mp hsub
      · exact hold hsub
      · rw [List.mem_singleton.mp hsub] at howner ⊢
        cases howner
        unfold Tracked
        change Function.update s.calls c _ c ≠ _ ∧ ∀ w, Function.update s.calls c _ c = _ → _
        rw [Function.update_self]
        refine ⟨nofun, fun w hw => ?_⟩
        cases hw
        refine ⟨rfl, fun m hm => ?_⟩
        change m ∈ s.queue p (s.managers p).next at hm
        rw [h.unused p _ le_rfl] at hm
        exact absurd hm List.not_mem_nil
    · rw [Function.update_of_ne hp] at hsub
      exact hold hsub
  unused p handle hnext := by
    change (Function.update s.managers process _ p).next ≤ handle at hnext
    refine h.unused p handle ?_
    by_cases hp : p = process
    · subst hp
      rw [Function.update_self] at hnext
      exact Nat.le_of_succ_le hnext
    · rw [Function.update_of_ne hp] at hnext
      exact hnext

theorem exists_of_sentTo {s : Network} {process handle : Nat} {subject : String}
    (h : s.sentTo process handle subject = true) :
    ∃ sub ∈ (s.managers process).subscriptions, sub.handle = handle ∧ sub.subject = subject := by
  obtain ⟨sub, hsub, hb⟩ := List.any_eq_true.mp h
  rw [Bool.and_eq_true, beq_iff_eq, beq_iff_eq] at hb
  exact ⟨sub, hsub, hb⟩

theorem Manager.eq_of_handle {m : Manager} {a b : Subscription} (ha : a ∈ m.subscriptions)
    (hb : b ∈ m.subscriptions) (h : a.handle = b.handle) : a = b :=
  List.inj_on_of_nodup_map (List.pairwise_map.mpr m.distinct) ha hb h

theorem Call.hear_waiting {call : Call} {message : Message} {w : Waiting}
    (h : call.hear message = .waiting w) :
    ∃ v, call = .waiting v ∧ w.request = v.request ∧ (∀ m ∈ v.heard, m ∈ w.heard) ∧
      (w.request.responseSubject = message.subject → message ∈ w.heard) := by
  cases call with
  | waiting v =>
    obtain rfl := Call.waiting.inj h
    by_cases hs : v.request.responseSubject = message.subject
    · rw [if_pos hs]
      exact ⟨v, rfl, rfl, fun m hm => List.mem_append_left _ hm,
        fun _ => List.mem_append_right _ (List.mem_singleton.mpr rfl)⟩
    · rw [if_neg hs]
      exact ⟨v, rfl, rfl, fun m hm => hm, fun h => absurd h hs⟩
  | idle => cases h
  | returned w m r => cases h
  | threw w what => cases h

theorem Call.Ok.hear {call : Call} (h : call.Ok json) (message : Message) :
    (call.hear message).Ok json := by
  cases call with
  | waiting v =>
    change Waiting.Ok (if _ then _ else _)
    by_cases hs : v.request.responseSubject = message.subject
    · rw [if_pos hs]
      refine ⟨fun m hm => ?_, fun m hm => List.mem_append_left _ (h.handed m hm)⟩
      obtain hm | hm := List.mem_append.mp hm
      · exact h.heard m hm
      · rw [List.mem_singleton.mp hm]
        exact hs.symm
    · rw [if_neg hs]
      exact h
  | idle => exact h
  | returned w m r => exact h
  | threw w what => exact h

theorem invariant_route {s : Network} (h : Invariant json s) (message : Message) :
    Invariant json (s.route message) where
  call c := (h.call c).hear json message
  tracked process sub hsub c howner := by
    obtain ⟨hidle, hwaiting⟩ := h.tracked process sub hsub c howner
    refine ⟨fun ht => hidle ?_, fun w hw => ?_⟩
    · change (s.calls c).hear message = .idle at ht
      cases hc : s.calls c with
      | idle => rfl
      | _ => rw [hc] at ht; cases ht
    · obtain ⟨v, hv, hrequest, hheard, hnew⟩ := Call.hear_waiting hw
      obtain ⟨hsubject, hqueue⟩ := hwaiting v hv
      rw [← hrequest] at hsubject
      refine ⟨hsubject, fun m hm => ?_⟩
      change m ∈ (if s.sentTo process sub.handle message.subject then _ else _) at hm
      by_cases hsent : s.sentTo process sub.handle message.subject
      · rw [if_pos hsent] at hm
        obtain hold | hlast := List.mem_append.mp hm
        · exact hheard m (hqueue m hold)
        · obtain ⟨sub', hsub', hhandle, hmsubject⟩ := exists_of_sentTo hsent
          obtain rfl := Manager.eq_of_handle hsub' hsub hhandle
          rw [List.mem_singleton.mp hlast]
          exact hnew (hsubject.symm.trans hmsubject)
      · rw [if_neg hsent] at hm
        exact hheard m (hqueue m hm)
  unused process handle hnext := by
    change (if s.sentTo process handle message.subject then _ else _) = []
    rw [if_neg, h.unused process handle hnext]
    intro hsent
    obtain ⟨sub, hsub, hhandle, _⟩ := exists_of_sentTo hsent
    have hfresh := (s.managers process).fresh sub hsub
    change (s.managers process).next ≤ handle at hnext
    omega

/-- A step of one waiting call that adds nothing to the lists of the network. -/
theorem Invariant.setCall {s t : Network} {c : Nat} {w : Waiting} {call : Call}
    (h : Invariant json s) (hf : Follows s t) (ht : t.calls = s.calls) (hw : s.calls c = .waiting w)
    (hidle : call ≠ .idle)
    (hkeep : ∀ v, call = .waiting v → v.request = w.request ∧ ∀ m ∈ w.heard, m ∈ v.heard)
    (hcall : call.Ok json) : Invariant json (t.setCall c call) :=
  h.follows json (hf.setCall ht hw hidle hkeep) (ok_setCall json h.call ht hcall)

theorem invariant_step {s t : Network} (h : Invariant json s) (hstep : Step json s t) :
    Invariant json t := by
  cases hstep with
  | subscribe c process q hidle => exact invariant_subscribe json h hidle
  | publish c w hw hp =>
    have hok : w.Ok := by simpa only [hw, Call.Ok] using h.call c
    exact h.setCall json (t := s.send _) (follows_of_eq rfl rfl rfl) rfl hw nofun
      (fun v hv => by cases hv; exact ⟨rfl, fun _ hm => hm⟩) ⟨hok.heard, hok.handed⟩
  | publishFails c w what hw hp =>
    exact h.setCall json (follows_of_eq rfl rfl rfl) rfl hw nofun nofun trivial
  | respond c q text hq => exact h.follows json (follows_of_eq rfl rfl rfl) h.call
  | announce subject text => exact h.follows json (follows_of_eq rfl rfl rfl) h.call
  | lose message hm => exact h.follows json (follows_of_eq rfl rfl rfl) h.call
  | route message hm => exact invariant_route json h message
  | hand process c sub message w hsub howner hqueue hw =>
    have hok : w.Ok := by simpa only [hw, Call.Ok] using h.call c
    have hheard := ((h.tracked process sub hsub c howner).2 w hw).2 message hqueue
    refine h.setCall json (follows_dequeue s process sub.handle message) rfl hw nofun
      (fun v hv => by cases hv; exact ⟨rfl, fun _ hm => hm⟩) ⟨hok.heard, fun m hm => ?_⟩
    obtain hm | hm := List.mem_append.mp hm
    · exact hok.handed m hm
    · rw [List.mem_singleton.mp hm]
      exact hheard
  | listen process sub message hsub howner =>
    exact h.follows json (follows_dequeue s process sub.handle message) h.call
  | answer c w message r hw hp hm hd =>
    have hok : w.Ok := by simpa only [hw, Call.Ok] using h.call c
    exact h.setCall json (follows_unsubscribe s _ _) rfl hw nofun nofun ⟨hok, hm, hd⟩
  | malformed c w message what hw hp hm hd =>
    exact h.setCall json (follows_unsubscribe s _ _) rfl hw nofun nofun trivial
  | timeout c w hw hp =>
    exact h.setCall json ((follows_unsubscribe s _ _).trans (follows_unsubscribe _ _ _)) rfl hw
      nofun nofun trivial
  | otherSubscribe process subject =>
    exact h.follows json (follows_otherSubscribe s process subject) h.call
  | otherUnsubscribe process subject =>
    exact h.follows json (follows_unsubscribe s process subject) h.call

theorem invariant_reachable {s : Network} (h : Reachable json s) : Invariant json s := by
  induction h with
  | initial => exact invariant_initial json
  | step _ hstep ih => exact invariant_step json ih hstep

/-- What a call returns is decoded from the first message that its callback was handed, which
was routed on its response subject between its subscription and its return. So it is the
response to its own request if no other message was routed there in that time. -/
theorem returned_heard {s : Network} (h : Reachable json s) {c : Nat} {w : Waiting}
    {message : Message} {r : Response} (hc : s.calls c = .returned w message r) :
    w.handed.head? = some message ∧ w.request.decode json message.text = .ok r ∧
      message.subject = w.request.responseSubject ∧ message ∈ w.heard ∧
      ((∀ m ∈ w.heard, m.producedFor = some c) → message.producedFor = some c) := by
  have hcall := (invariant_reachable json h).call c
  rw [hc] at hcall
  obtain ⟨hok, hhead, hdecode⟩ := hcall
  have hheard := hok.handed message (List.mem_of_mem_head? hhead)
  exact ⟨hhead, hdecode, hok.heard message hheard, hheard, fun hall => hall message hheard⟩

/-! Call 0 times out, call 1 subscribes, and the late reply to call 0 arrives. -/

def stateRequest : Request := .state ⟨1⟩

def lateReply : Message := ⟨stateRequest.responseSubject, Request.replyText, some 0⟩

theorem reachable_lateReply :
    ∃ s w v what, Reachable Request.replyJson s ∧ s.calls 0 = .threw v what ∧
      s.calls 1 = .returned w lateReply (.state ⟨"r", some 1⟩) := by
  have h₁ : Reachable Request.replyJson _ := .step .initial (.subscribe _ 0 0 stateRequest rfl)
  have h₂ := h₁.step (Step.publish _ 0 _ rfl rfl)
  have h₃ := h₂.step (Step.timeout _ 0 _ rfl rfl)
  have h₄ := h₃.step (Step.subscribe _ 1 1 stateRequest rfl)
  have h₅ := h₄.step (Step.publish _ 1 _ rfl rfl)
  have h₆ := h₅.step (Step.respond _ 0 stateRequest Request.replyText rfl)
  have h₇ := h₆.step (Step.route _ lateReply List.mem_cons_self)
  have h₈ := h₇.step (Step.hand _ 1 1 ⟨0, stateRequest.responseSubject, some 1⟩ lateReply _
    List.mem_cons_self rfl List.mem_cons_self rfl)
  have h₉ := h₈.step (Step.answer _ 1 _ lateReply (.state ⟨"r", some 1⟩) rfl rfl rfl
    Request.decode_replyText)
  exact ⟨_, _, _, _, h₉, rfl, rfl⟩

theorem not_producedFor_of_returned :
    ¬ ∀ (json : JsonLibrary) (s : Network), Reachable json s →
      ∀ c w message r, s.calls c = .returned w message r → message.producedFor = some c := by
  intro h
  obtain ⟨s, w, _, _, hs, _, hreturned⟩ := reachable_lateReply
  exact absurd (h _ s hs 1 w lateReply _ hreturned) (by decide)

theorem returned_heard_lateReply :
    ∃ s w, Reachable Request.replyJson s ∧
      s.calls 1 = .returned w lateReply (.state ⟨"r", some 1⟩) ∧ lateReply ∈ w.heard := by
  obtain ⟨s, w, _, _, hs, _, hreturned⟩ := reachable_lateReply
  obtain ⟨_, _, _, hheard, _⟩ := returned_heard Request.replyJson hs hreturned
  exact ⟨s, w, hs, hreturned, hheard⟩

end FalconLib.Comms
