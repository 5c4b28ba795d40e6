import Mathlib.Data.Finset.Card
import Mathlib.Logic.Relation
import Mathlib.Tactic.Common

/-!
# Depth-first visits that mark a node when they leave it

`visit` goes through the successors of a node in order, skips those that are marked, and
then leaves the node, which marks it or fails. Nothing marks a node on the way in, so a
visit that meets a node it is still inside goes down again. `explore` is the walk of such
a visit on the graph alone.
-/

namespace FalconLib.Base.DepthFirst

variable {α σ β : Type} [DecidableEq α]

/-- A node without successor list cannot be entered. -/
structure Graph (α : Type) where
  next : α → Option (List α)
  nodes : Finset α
  mem_nodes : ∀ p qs, next p = some qs → p ∈ nodes

/-- What a visit does to a state on the way out of a node, and when it is back from a
successor or has skipped it. -/
structure Visitor (α σ : Type) [DecidableEq α] where
  leave : α → σ → σ × Bool
  back : α → σ → σ
  marks : σ → Finset α
  marks_back : ∀ q s, marks (back q s) = marks s
  marks_leave : ∀ p s s', leave p s = (s', true) → marks s' = insert p (marks s)
  marks_failed : ∀ p s s', leave p s = (s', false) → marks s' = marks s

/-- Go on unless the visit has failed or did not end. -/
def andThen (r : Option (σ × Bool)) (k : σ → Option (σ × Bool)) : Option (σ × Bool) :=
  match r with
  | some (s, true) => k s
  | stopped => stopped

namespace Visitor

def visitAll (v : Visitor α σ) (visit : α → σ → Option (σ × Bool)) :
    List α → σ → Option (σ × Bool)
  | [], s => some (s, true)
  | q :: qs, s =>
    andThen (if q ∈ v.marks s then some (s, true) else visit q s) fun s =>
      visitAll v visit qs (v.back q s)

/-- At most `n` nodes deep. -/
def visit (G : Graph α) (v : Visitor α σ) : Nat → α → σ → Option (σ × Bool)
  | 0, _, _ => none
  | n + 1, p, s =>
    match G.next p with
    | none => some (s, false)
    | some qs => andThen (v.visitAll (visit G v n) qs s) fun s => some (v.leave p s)

end Visitor

/-! ## Walks -/

inductive Step (α : Type) where
  | back (node : α)
  | leave (node : α)

/-- The walk met the end, a node it cannot enter, or one it is still inside. -/
inductive Ending where
  | complete | blocked | cycle
deriving DecidableEq

structure Walk (α : Type) where
  steps : List (Step α)
  ending : Ending

/-- The nodes that the steps leave, in order. -/
def left (steps : List (Step α)) : List α :=
  steps.filterMap fun
    | .leave p => some p
    | .back _ => none

namespace Walk

def seq (first second : Walk α) : Walk α :=
  match first.ending with
  | .complete => ⟨first.steps ++ second.steps, second.ending⟩
  | _ => first

end Walk

def exploreAll (explore : α → Finset α → Walk α) : List α → Finset α → Walk α
  | [], _ => ⟨[], .complete⟩
  | q :: qs, done =>
    let first := if q ∈ done then ⟨[], .complete⟩ else explore q done
    let rest := exploreAll explore qs (done ∪ (left first.steps).toFinset)
    first.seq ⟨.back q :: rest.steps, rest.ending⟩

theorem card_unvisited_lt {G : Graph α} {active : List α} {p : α} {qs : List α}
    (hn : G.next p = some qs) (hp : p ∉ active) :
    (G.nodes.filter (· ∉ p :: active)).card < (G.nodes.filter (· ∉ active)).card := by
  refine Finset.card_lt_card (Finset.ssubset_iff_subset_ne.mpr ⟨?_, ?_⟩)
  · refine Finset.monotone_filter_right _ fun x _ hx => ?_
    exact fun hc => hx (List.mem_cons_of_mem _ hc)
  · intro he
    have hmem : p ∈ G.nodes.filter (· ∉ active) :=
      Finset.mem_filter.mpr ⟨G.mem_nodes p qs hn, hp⟩
    rw [← he] at hmem
    exact (Finset.mem_filter.mp hmem).2 List.mem_cons_self

/-- The walk from a node, inside the nodes `active`, when the nodes `done` are marked. -/
def explore (G : Graph α) (active : List α) (p : α) (done : Finset α) : Walk α :=
  if _hp : p ∈ active then ⟨[], .cycle⟩
  else
    match _hn : G.next p with
    | none => ⟨[], .blocked⟩
    | some qs =>
      (exploreAll (fun q done => explore G (p :: active) q done) qs done).seq
        ⟨[.leave p], .complete⟩
termination_by (G.nodes.filter (· ∉ active)).card
decreasing_by exact card_unvisited_lt _hn _hp

section Equations

variable {G : Graph α} {active : List α} {p : α} {done : Finset α}

theorem explore_of_mem (h : p ∈ active) : explore G active p done = ⟨[], .cycle⟩ := by
  rw [explore, dif_pos h]

theorem explore_of_none (h : p ∉ active) (hn : G.next p = none) :
    explore G active p done = ⟨[], .blocked⟩ := by
  rw [explore, dif_neg h]
  split
  · rfl
  · rename_i hs
    rw [hn] at hs
    cases hs

theorem explore_of_some (h : p ∉ active) {qs : List α} (hn : G.next p = some qs) :
    explore G active p done =
      (exploreAll (explore G (p :: active)) qs done).seq ⟨[.leave p], .complete⟩ := by
  rw [explore, dif_neg h]
  split
  · rename_i hs
    rw [hn] at hs
    cases hs
  · rename_i hs
    rw [hn] at hs
    cases hs
    rfl

end Equations

/-- Induction along a walk: a property of every node that cannot be entered or is being
visited, and of a node whose successors have it one level further in. -/
theorem explore_induction (G : Graph α) {P : List α → α → Prop}
    (cycle : ∀ active p, p ∈ active → P active p)
    (blocked : ∀ active p, p ∉ active → G.next p = none → P active p)
    (step : ∀ active p qs, p ∉ active → G.next p = some qs →
      (∀ q, P (p :: active) q) → P active p) (active : List α) (p : α) : P active p := by
  induction hk : (G.nodes.filter (· ∉ active)).card using Nat.strong_induction_on
    generalizing active p with
  | _ k ih =>
    by_cases hp : p ∈ active
    · exact cycle active p hp
    · cases hn : G.next p with
      | none => exact blocked active p hp hn
      | some qs =>
        refine step active p qs hp hn fun q => ?_
        exact ih _ (hk ▸ card_unvisited_lt hn hp) _ _ rfl

/-! ## What a walk does to a state -/

namespace Visitor

variable (v : Visitor α σ)

/-- The steps up to the first node whose leaving fails. -/
def run : List (Step α) → σ → σ × Bool
  | [], s => (s, true)
  | .back q :: steps, s => run steps (v.back q s)
  | .leave p :: steps, s =>
    match v.leave p s with
    | (s, true) => run steps s
    | (s, false) => (s, false)

/-- A walk that fails on the way ends there; one that meets a cycle does not end. -/
def result (walk : Walk α) (s : σ) : Option (σ × Bool) :=
  andThen (some (v.run walk.steps s)) fun s =>
    match walk.ending with
    | .complete => some (s, true)
    | .blocked => some (s, false)
    | .cycle => none

end Visitor

section Run

variable {v : Visitor α σ}

theorem run_append (first second : List (Step α)) (s : σ) :
    some (v.run (first ++ second) s) =
      andThen (some (v.run first s)) fun s => some (v.run second s) := by
  induction first generalizing s with
  | nil => rfl
  | cons step first ih =>
    cases step with
    | back q => exact ih (v.back q s)
    | leave p =>
      rw [List.cons_append, Visitor.run, Visitor.run]
      rcases v.leave p s with ⟨s', ok⟩
      cases ok with
      | true => exact ih s'
      | false => rfl

theorem result_leave (p : α) (s : σ) :
    v.result ⟨[.leave p], .complete⟩ s = some (v.leave p s) := by
  unfold Visitor.result Visitor.run
  rcases v.leave p s with ⟨s', ok⟩
  cases ok <;> rfl

theorem result_seq (first second : Walk α) (s : σ) :
    v.result (first.seq second) s = andThen (v.result first s) (v.result second) := by
  rcases first with ⟨steps, ending⟩
  cases ending with
  | complete =>
    unfold Walk.seq Visitor.result
    dsimp only
    rw [run_append]
    rcases v.run steps s with ⟨s', ok⟩
    cases ok <;> rfl
  | blocked =>
    unfold Walk.seq Visitor.result
    rcases v.run steps s with ⟨s', ok⟩
    cases ok <;> rfl
  | cycle =>
    unfold Walk.seq Visitor.result
    rcases v.run steps s with ⟨s', ok⟩
    cases ok <;> rfl

omit [DecidableEq α] in
theorem left_append (first second : List (Step α)) :
    left (first ++ second) = left first ++ left second :=
  List.filterMap_append

/-- A run fails at the first node that it cannot leave. -/
theorem run_eq_false {steps : List (Step α)} {s s' : σ} (h : v.run steps s = (s', false)) :
    ∃ before p after t, steps = before ++ .leave p :: after ∧ v.run before s = (t, true) ∧
      v.leave p t = (s', false) := by
  induction steps generalizing s with
  | nil => cases h
  | cons step steps ih =>
    cases step with
    | back q =>
      obtain ⟨before, p, after, t, rfl, hb, hl⟩ := ih h
      exact ⟨.back q :: before, p, after, t, rfl, hb, hl⟩
    | leave q =>
      rw [Visitor.run] at h
      rcases hq : v.leave q s with ⟨t, ok⟩
      rw [hq] at h
      cases ok with
      | false =>
        cases h
        exact ⟨[], q, steps, s, rfl, rfl, hq⟩
      | true =>
        obtain ⟨before, p, after, u, rfl, hb, hl⟩ := ih h
        refine ⟨.leave q :: before, p, after, u, rfl, ?_, hl⟩
        rw [Visitor.run, hq]
        exact hb

theorem run_of_failed {before after : List (Step α)} {p : α} {s t s' : σ}
    (hb : v.run before s = (t, true)) (hl : v.leave p t = (s', false)) :
    v.run (before ++ .leave p :: after) s = (s', false) := by
  have hrun := run_append (v := v) before (.leave p :: after) s
  rw [hb] at hrun
  refine Option.some.inj (hrun.trans ?_)
  change some (v.run (.leave p :: after) t) = _
  rw [Visitor.run, hl]

/-- A run marks the nodes it leaves. -/
theorem marks_run {steps : List (Step α)} {s s' : σ} (h : v.run steps s = (s', true)) :
    v.marks s' = v.marks s ∪ (left steps).toFinset := by
  induction steps generalizing s with
  | nil =>
    cases h
    exact (Finset.union_empty _).symm
  | cons step steps ih =>
    cases step with
    | back q =>
      have hmarks := ih h
      rwa [v.marks_back] at hmarks
    | leave p =>
      rw [Visitor.run] at h
      rcases hl : v.leave p s with ⟨t, ok⟩
      rw [hl] at h
      cases ok with
      | false => cases h
      | true =>
        have hmarks := ih h
        rw [v.marks_leave p s t hl] at hmarks
        change v.marks s' = v.marks s ∪ (p :: left steps).toFinset
        rw [hmarks, List.toFinset_cons, Finset.insert_union, Finset.union_insert]

theorem result_eq_true {walk : Walk α} {s s' : σ} (h : v.result walk s = some (s', true)) :
    walk.ending = .complete ∧ v.run walk.steps s = (s', true) := by
  unfold Visitor.result at h
  rcases hr : v.run walk.steps s with ⟨t, ok⟩
  rw [hr] at h
  cases ok with
  | false => cases h
  | true =>
    rcases walk with ⟨steps, ending⟩
    cases ending <;> cases h
    exact ⟨rfl, rfl⟩

theorem run_of_result {walk : Walk α} {s s' : σ} {ok : Bool}
    (h : v.result walk s = some (s', ok)) : (v.run walk.steps s).1 = s' := by
  rcases walk with ⟨steps, ending⟩
  unfold Visitor.result at h
  dsimp only at h ⊢
  generalize v.run steps s = r at h ⊢
  rcases r with ⟨t, done⟩
  cases done with
  | false =>
    cases h
    rfl
  | true =>
    cases ending with
    | complete | blocked =>
      cases h
      rfl
    | cycle => cases h

/-- Only a cycle that the run comes to keeps a visit from ending. -/
theorem result_eq_none {walk : Walk α} {s : σ} :
    v.result walk s = none ↔ walk.ending = .cycle ∧ (v.run walk.steps s).2 = true := by
  rcases walk with ⟨steps, ending⟩
  unfold Visitor.result
  dsimp only
  generalize v.run steps s = r
  rcases r with ⟨t, done⟩
  cases done with
  | false => exact ⟨nofun, fun h => nomatch h.2⟩
  | true =>
    cases ending with
    | complete | blocked => exact ⟨nofun, fun h => nomatch h.1⟩
    | cycle => exact ⟨fun _ => ⟨rfl, rfl⟩, fun _ => rfl⟩

end Run

/-! ## Nodes that a walk leaves -/

section Left

variable {G : Graph α}

omit [DecidableEq α] in
theorem left_seq {first second : Walk α} {x : α} (h : x ∈ left (first.seq second).steps) :
    x ∈ left first.steps ∨ first.ending = .complete ∧ x ∈ left second.steps := by
  rcases first with ⟨steps, ending⟩
  cases ending with
  | complete =>
    change x ∈ left (steps ++ second.steps) at h
    rw [left_append, List.mem_append] at h
    exact h.imp_right fun hx => ⟨rfl, hx⟩
  | blocked => exact .inl h
  | cycle => exact .inl h

theorem left_exploreAll (explore : α → Finset α → Walk α) {P : α → Prop} (qs : List α)
    (h : ∀ q done, ∀ x ∈ left (explore q done).steps, P x) (done : Finset α) :
    ∀ x ∈ left (exploreAll explore qs done).steps, P x := by
  induction qs generalizing done with
  | nil => exact fun x hx => absurd hx List.not_mem_nil
  | cons q qs ih =>
    intro x hx
    rcases left_seq hx with hx | ⟨_, hx⟩
    · by_cases hq : q ∈ done
      · rw [if_pos hq] at hx
        exact absurd hx List.not_mem_nil
      · rw [if_neg hq] at hx
        exact h q done x hx
    · exact ih _ x hx

/-- A walk leaves none of the nodes it is inside. -/
theorem left_notMem_active (active : List α) (p : α) :
    ∀ done, ∀ x ∈ left (explore G active p done).steps, x ∉ active := by
  induction active, p using explore_induction G with
  | cycle active p hp =>
    intro done x hx
    rw [explore_of_mem hp] at hx
    exact absurd hx List.not_mem_nil
  | blocked active p hp hn =>
    intro done x hx
    rw [explore_of_none hp hn] at hx
    exact absurd hx List.not_mem_nil
  | step active p qs hp hn ih =>
    intro done x hx
    rw [explore_of_some hp hn] at hx
    rcases left_seq hx with hx | ⟨_, hx⟩
    · have hcons := left_exploreAll _ qs ih done x hx
      exact fun hc => hcons (List.mem_cons_of_mem _ hc)
    · rw [List.mem_singleton.mp hx]
      exact hp

end Left

/-! ## A visit computes the result of its walk -/

/-- What a bounded computation comes to as the bound grows; nothing if it never ends. -/
structure Computes (f : Nat → Option β) (r : Option β) : Prop where
  sound : ∀ n b, f n = some b → r = some b
  complete : ∀ b, r = some b → ∃ n, ∀ m, n ≤ m → f m = some b

namespace Computes

theorem const (r : Option β) : Computes (fun _ => r) r :=
  ⟨fun _ _ h => h, fun _ h => ⟨0, fun _ _ => h⟩⟩

theorem of_none {f : Nat → Option β} (h : ∀ n, f n = none) : Computes f none := by
  refine ⟨fun n b hb => ?_, fun b hb => by cases hb⟩
  rw [h] at hb
  cases hb

/-- A computation that needs one more level. -/
theorem succ {f g : Nat → Option β} {r : Option β} (hf : Computes f r) (h0 : g 0 = none)
    (hg : ∀ n, g (n + 1) = f n) : Computes g r := by
  constructor
  · intro n b hb
    cases n with
    | zero =>
      rw [h0] at hb
      cases hb
    | succ n => exact hf.sound n b (hg n ▸ hb)
  · intro b hb
    obtain ⟨n, hn⟩ := hf.complete b hb
    refine ⟨n + 1, fun m hm => ?_⟩
    obtain ⟨k, rfl⟩ : ∃ k, m = k + 1 := ⟨m - 1, by omega⟩
    rw [hg]
    exact hn k (by omega)

theorem andThen {f : Nat → Option (σ × Bool)} {k : Nat → σ → Option (σ × Bool)}
    {r : Option (σ × Bool)} {l : σ → Option (σ × Bool)} (hf : Computes f r)
    (hk : ∀ s, r = some (s, true) → Computes (fun n => k n s) (l s)) :
    Computes (fun n => DepthFirst.andThen (f n) (k n)) (DepthFirst.andThen r l) := by
  constructor
  · intro n b hb
    cases hn : f n with
    | none =>
      rw [hn] at hb
      cases hb
    | some sb =>
      obtain ⟨s, ok⟩ := sb
      have hr := hf.sound n _ hn
      rw [hn] at hb
      rw [hr]
      cases ok with
      | true => exact (hk s hr).sound n b hb
      | false => exact hb
  · intro b hb
    cases hr : r with
    | none =>
      rw [hr] at hb
      cases hb
    | some sb =>
      obtain ⟨s, ok⟩ := sb
      obtain ⟨n, hn⟩ := hf.complete _ hr
      rw [hr] at hb
      cases ok with
      | false => exact ⟨n, fun m hm => by rw [hn m hm]; exact hb⟩
      | true =>
        obtain ⟨n', hn'⟩ := (hk s hr).complete b hb
        refine ⟨max n n', fun m hm => ?_⟩
        rw [hn m (by omega)]
        exact hn' m (by omega)

end Computes

/-- Every successor of `x` before `y` is marked, and `y` is a node being visited. -/
structure Inner (G : Graph α) (done : Finset α) (active : List α) (x y : α) : Prop where
  next : ∃ before after, G.next x = some (before ++ y :: after) ∧ ∀ q ∈ before, q ∈ done
  notMem : y ∉ done
  active : y ∈ active

/-- A walk inside `active` has come to `p` by way of each of them. -/
def Inside (G : Graph α) (done : Finset α) (active : List α) (p : α) : Prop :=
  ∀ a ∈ active, Relation.TransGen (Inner G done (p :: active)) a p

section Visits

variable {G : Graph α} {v : Visitor α σ}

/-- Marked successors are skipped. -/
theorem visitAll_skip (visit : α → σ → Option (σ × Bool)) {before : List α} {y : α}
    {after : List α} {s : σ} (hb : ∀ q ∈ before, q ∈ v.marks s) (hy : y ∉ v.marks s) {b : σ × Bool}
    (h : v.visitAll visit (before ++ y :: after) s = some b) :
    ∃ s' b', v.marks s' = v.marks s ∧ visit y s' = some b' := by
  induction before generalizing s with
  | nil =>
    rw [List.nil_append, Visitor.visitAll, if_neg hy] at h
    cases hv : visit y s with
    | none =>
      rw [hv] at h
      cases h
    | some b' => exact ⟨s, b', rfl, hv⟩
  | cons q before ih =>
    rw [List.cons_append, Visitor.visitAll, if_pos (hb q List.mem_cons_self)] at h
    have hback := v.marks_back q s
    obtain ⟨s', b', hs', hv⟩ := ih (s := v.back q s)
      (fun r hr => hback.symm ▸ hb r (List.mem_cons_of_mem _ hr)) (hback.symm ▸ hy) h
    exact ⟨s', b', hs'.trans hback, hv⟩

theorem visit_inner {done : Finset α} {active : List α} {x y : α}
    (hi : Inner G done active x y) {n : Nat} {s : σ} (hs : v.marks s = done) {b : σ × Bool}
    (h : v.visit G (n + 1) x s = some b) :
    ∃ s' b', v.marks s' = done ∧ v.visit G n y s' = some b' := by
  obtain ⟨before, after, hnext, hbefore⟩ := hi.next
  rw [Visitor.visit, hnext] at h
  cases hv : v.visitAll (v.visit G n) (before ++ y :: after) s with
  | none =>
    dsimp only at h
    rw [hv] at h
    cases h
  | some b' =>
    have hmem : ∀ q ∈ before, q ∈ v.marks s := fun q hq => hs.symm ▸ hbefore q hq
    obtain ⟨s', b'', hs', hy⟩ := visitAll_skip _ hmem (hs.symm ▸ hi.notMem) hv
    exact ⟨s', b'', hs'.trans hs, hy⟩

/-- A visit that would come back to its own node does not end. -/
theorem visit_eq_none_of_cycle {done : Finset α} {active : List α} {p : α}
    (hp : Relation.TransGen (Inner G done active) p p) (n : Nat) (s : σ)
    (hs : v.marks s = done) : v.visit G n p s = none := by
  induction n generalizing p s with
  | zero => rfl
  | succ n ih =>
    obtain ⟨x, hpx, hxp⟩ := Relation.TransGen.head'_iff.mp hp
    cases hv : v.visit G (n + 1) p s with
    | none => rfl
    | some b =>
      obtain ⟨s', b', hs', hx⟩ := visit_inner hpx hs hv
      have hcycle : Relation.TransGen (Inner G done active) x x := .tail' hxp hpx
      rw [ih hcycle s' hs'] at hx
      cases hx

omit [DecidableEq α] in
theorem Inner.mono {done done' : Finset α} {active active' : List α} {x y : α}
    (h : Inner G done active x y) (hd : done ⊆ done') (ha : active ⊆ active')
    (hnew : ∀ z ∈ active, z ∈ done' → z ∈ done) : Inner G done' active' x y := by
  obtain ⟨before, after, hnext, hbefore⟩ := h.next
  refine ⟨⟨before, after, hnext, fun q hq => hd (hbefore q hq)⟩, ?_, ha h.active⟩
  exact fun hy => h.notMem (hnew y h.active hy)

omit [DecidableEq α] in
theorem Inside.step {done done' : Finset α} {active : List α} {p q : α}
    (h : Inside G done active p) (hd : done ⊆ done')
    (hnew : ∀ z ∈ p :: active, z ∈ done' → z ∈ done) {before after : List α}
    (hn : G.next p = some (before ++ q :: after)) (hb : ∀ r ∈ before, r ∈ done')
    (hq : q ∉ done') : Inside G done' (p :: active) q := by
  have hlast : Inner G done' (q :: p :: active) p q :=
    ⟨⟨before, after, hn, hb⟩, hq, List.mem_cons_self⟩
  intro a ha
  rcases List.mem_cons.mp ha with rfl | ha
  · exact .single hlast
  · have hmono : Inner G done (p :: active) ≤ Inner G done' (q :: p :: active) :=
      fun x y hxy => hxy.mono hd (fun z hz => List.mem_cons_of_mem _ hz) hnew
    exact .tail (Relation.TransGen.mono hmono a p (h a ha)) hlast

/-- The successors of a node, once each of them is known to compute its walk. -/
theorem visitAll_computes (explore : α → Finset α → Walk α) (active : List α) (qs : List α)
    (hleft : ∀ q done, ∀ x ∈ left (explore q done).steps, x ∉ active)
    (hself : ∀ q done, (explore q done).ending = .complete → q ∈ left (explore q done).steps)
    {done : Finset α} (before : List α) (s : σ) (hd : done ⊆ v.marks s)
    (hb : ∀ r ∈ before, r ∈ v.marks s) (hnew : ∀ z ∈ active, z ∈ v.marks s → z ∈ done)
    (hq : ∀ before q after, ∀ t : σ, qs = before ++ q :: after → done ⊆ v.marks t →
      (∀ r ∈ before, r ∈ v.marks t) → (∀ z ∈ active, z ∈ v.marks t → z ∈ done) →
      q ∉ v.marks t →
      Computes (fun n => v.visit G n q t) (v.result (explore q (v.marks t)) t))
    (rest : List α) (hqs : qs = before ++ rest) :
    Computes (fun n => v.visitAll (v.visit G n) rest s)
      (v.result (exploreAll explore rest (v.marks s)) s) := by
  induction rest generalizing before s with
  | nil => exact .const _
  | cons q rest ih =>
    rw [exploreAll, result_seq]
    refine Computes.andThen ?_ fun s' hr => ?_
    · by_cases hmark : q ∈ v.marks s
      · simp only [if_pos hmark]
        exact .const _
      · simp only [if_neg hmark]
        exact hq before q rest s hqs hd hb hnew hmark
    · obtain ⟨hcomplete, hrun⟩ := result_eq_true hr
      have hmarks := marks_run hrun
      rw [← hmarks, ← v.marks_back q s']
      have hmono : v.marks s ⊆ v.marks (v.back q s') := by
        rw [v.marks_back, hmarks]
        exact Finset.subset_union_left
      refine ih (before ++ [q]) (v.back q s') (hd.trans hmono) ?_ ?_ ?_
      · intro r hr
        rcases List.mem_append.mp hr with hr | hr
        · exact hmono (hb r hr)
        · rw [List.mem_singleton.mp hr, v.marks_back, hmarks]
          by_cases hmark : q ∈ v.marks s
          · exact Finset.mem_union_left _ hmark
          · rw [if_neg hmark] at hcomplete ⊢
            exact Finset.mem_union_right _ (List.mem_toFinset.mpr (hself q _ hcomplete))
      · intro z hz hm
        rw [v.marks_back, hmarks] at hm
        rcases Finset.mem_union.mp hm with hm | hm
        · exact hnew z hz hm
        · by_cases hmark : q ∈ v.marks s
          · rw [if_pos hmark] at hm
            exact absurd hm (Finset.notMem_empty _)
          · rw [if_neg hmark] at hm
            exact absurd hz (hleft q _ z (List.mem_toFinset.mp hm))
      · rw [hqs, List.append_assoc]
        rfl

theorem mem_left_of_complete {active : List α} {p : α} {done : Finset α}
    (h : (explore G active p done).ending = .complete) :
    p ∈ left (explore G active p done).steps := by
  by_cases hp : p ∈ active
  · rw [explore_of_mem hp] at h
    cases h
  · cases hn : G.next p with
    | none =>
      rw [explore_of_none hp hn] at h
      cases h
    | some qs =>
      rw [explore_of_some hp hn] at h ⊢
      generalize exploreAll (explore G (p :: active)) qs done = walk at h ⊢
      rcases walk with ⟨steps, ending⟩
      cases ending with
      | complete =>
        change p ∈ left (steps ++ [.leave p])
        rw [left_append]
        exact List.mem_append_right _ List.mem_cons_self
      | blocked => cases h
      | cycle => cases h

/-- A visit inside the nodes `active` ends exactly when its walk says so, and then in the
state that the walk leads to. -/
theorem visit_computes (active : List α) (p : α) :
    ∀ s, Inside G (v.marks s) active p →
      Computes (fun n => v.visit G n p s) (v.result (explore G active p (v.marks s)) s) := by
  induction active, p using explore_induction G with
  | cycle active p hp =>
    intro s hi
    rw [explore_of_mem hp]
    exact .of_none fun n => visit_eq_none_of_cycle (hi p hp) n s rfl
  | blocked active p hp hn =>
    intro s hi
    rw [explore_of_none hp hn]
    refine Computes.succ (.const _) rfl fun n => ?_
    rw [Visitor.visit, hn]
    rfl
  | step active p qs hp hn ih =>
    intro s hi
    rw [explore_of_some hp hn, result_seq]
    have hvisitAll := visitAll_computes (v := v) (G := G) (explore G (p :: active)) (p :: active) qs
      (fun q done => left_notMem_active (p :: active) q done)
      (fun q done => mem_left_of_complete) [] s (Finset.Subset.refl _)
      (fun r hr => absurd hr List.not_mem_nil) (fun z _ hz => hz)
      (fun before q after t hqs hd hb hnew hq =>
        ih q t (hi.step hd hnew (hqs ▸ hn) hb hq)) qs rfl
    have hleave := hvisitAll.andThen (k := fun _ s' => some (v.leave p s'))
      (l := v.result ⟨[.leave p], .complete⟩) fun s' _ => by
        rw [result_leave]
        exact .const _
    refine hleave.succ rfl fun n => ?_
    rw [Visitor.visit, hn]

end Visits

/-! ## The order in which a complete walk leaves the nodes -/

def Edge (G : Graph α) (x y : α) : Prop := ∃ qs, G.next x = some qs ∧ y ∈ qs

def Reaches (G : Graph α) : α → α → Prop := Relation.ReflTransGen (Edge G)

/-- Every node of the list comes after its successors, apart from those in `done`. -/
def Ready (G : Graph α) : Finset α → List α → Prop
  | _, [] => True
  | done, x :: order => (∀ y, Edge G x y → y ∈ done) ∧ Ready G (insert x done) order

/-- The nodes that are left on the way through the successors `qs` of a node. -/
structure Order (G : Graph α) (done : Finset α) (qs order : List α) : Prop where
  nodup : order.Nodup
  fresh : ∀ x ∈ order, x ∉ done
  reached : ∀ x ∈ order, ∃ q ∈ qs, Reaches G q x
  ready : Ready G done order
  covers : ∀ q ∈ qs, q ∈ done ∨ q ∈ order

section Orders

variable {G : Graph α}

theorem ready_append {done : Finset α} {first second : List α} :
    Ready G done (first ++ second) ↔
      Ready G done first ∧ Ready G (done ∪ first.toFinset) second := by
  induction first generalizing done with
  | nil =>
    rw [List.nil_append, List.toFinset_nil, Finset.union_empty]
    exact ⟨fun h => ⟨trivial, h⟩, And.right⟩
  | cons x first ih =>
    rw [List.cons_append, Ready, Ready, ih, List.toFinset_cons, Finset.insert_union,
      Finset.union_insert, and_assoc]

/-- Where a node stands in the list, its successors are done or stand before it. -/
theorem Ready.before {done : Finset α} {before after : List α} {x y : α}
    (h : Ready G done (before ++ x :: after)) (hy : Edge G x y) : y ∈ done ∨ y ∈ before := by
  have hx := (ready_append.mp h).2.1 y hy
  rw [Finset.mem_union, List.mem_toFinset] at hx
  exact hx

theorem order_append {done : Finset α} {q : α} {qs first second : List α}
    (hf : Order G done [q] first) (hs : Order G (done ∪ first.toFinset) qs second) :
    Order G done (q :: qs) (first ++ second) := by
  have hfresh : ∀ x ∈ second, x ∉ done ∧ x ∉ first := by
    intro x hx
    have hn := hs.fresh x hx
    rw [Finset.mem_union, List.mem_toFinset] at hn
    exact not_or.mp hn
  refine ⟨?_, ?_, ?_, ready_append.mpr ⟨hf.ready, hs.ready⟩, ?_⟩
  · refine List.nodup_append.mpr ⟨hf.nodup, hs.nodup, fun x hx y hy he => ?_⟩
    exact (hfresh y hy).2 (he ▸ hx)
  · intro x hx
    rcases List.mem_append.mp hx with hx | hx
    · exact hf.fresh x hx
    · exact (hfresh x hx).1
  · intro x hx
    rcases List.mem_append.mp hx with hx | hx
    · obtain ⟨r, hr, hrx⟩ := hf.reached x hx
      exact ⟨r, List.mem_cons.mpr (.inl (List.mem_singleton.mp hr)), hrx⟩
    · obtain ⟨r, hr, hrx⟩ := hs.reached x hx
      exact ⟨r, List.mem_cons_of_mem _ hr, hrx⟩
  · intro r hr
    rcases List.mem_cons.mp hr with rfl | hr
    · exact (hf.covers r (List.mem_singleton_self r)).imp_right (List.mem_append_left _)
    · have hr := hs.covers r hr
      rw [Finset.mem_union, List.mem_toFinset, or_assoc] at hr
      exact hr.imp_right List.mem_append.mpr

theorem order_skip {done : Finset α} {q : α} (h : q ∈ done) : Order G done [q] [] where
  nodup := List.nodup_nil
  fresh := fun _ hx => absurd hx List.not_mem_nil
  reached := fun _ hx => absurd hx List.not_mem_nil
  ready := trivial
  covers := fun _ hr => .inl (List.mem_singleton.mp hr ▸ h)

/-- A node after everything that was left on the way through its successors. -/
theorem Order.leave {done : Finset α} {p : α} {qs order : List α} (h : Order G done qs order)
    (hn : G.next p = some qs) (hd : p ∉ done) (hp : p ∉ order) :
    Order G done [p] (order ++ [p]) := by
  refine ⟨?_, ?_, ?_, ready_append.mpr ⟨h.ready, fun y hy => ?_, trivial⟩, ?_⟩
  · exact List.nodup_append.mpr ⟨h.nodup, List.nodup_singleton p,
      fun x hx y hy he => hp (List.mem_singleton.mp hy ▸ he ▸ hx)⟩
  · intro x hx
    rcases List.mem_append.mp hx with hx | hx
    · exact h.fresh x hx
    · exact List.mem_singleton.mp hx ▸ hd
  · intro x hx
    refine ⟨p, List.mem_singleton_self p, ?_⟩
    rcases List.mem_append.mp hx with hx | hx
    · obtain ⟨q, hq, hqx⟩ := h.reached x hx
      exact .head ⟨qs, hn, hq⟩ hqx
    · exact List.mem_singleton.mp hx ▸ .refl
  · obtain ⟨rs, hrs, hy⟩ := hy
    obtain rfl : qs = rs := Option.some.inj (hn.symm.trans hrs)
    rw [Finset.mem_union, List.mem_toFinset]
    exact h.covers y hy
  · exact fun q hq => .inr (List.mem_append_right _ hq)

theorem order_exploreAll (explore : α → Finset α → Walk α)
    (h : ∀ q done, q ∉ done → (explore q done).ending = .complete →
      Order G done [q] (left (explore q done).steps)) (qs : List α) (done : Finset α)
    (hc : (exploreAll explore qs done).ending = .complete) :
    Order G done qs (left (exploreAll explore qs done).steps) := by
  induction qs generalizing done with
  | nil =>
    exact ⟨List.nodup_nil, fun _ hx => absurd hx List.not_mem_nil,
      fun _ hx => absurd hx List.not_mem_nil, trivial, fun _ hq => absurd hq List.not_mem_nil⟩
  | cons q qs ih =>
    rw [exploreAll] at hc ⊢
    have hfirst : ∀ first : Walk α,
        first = (if q ∈ done then ⟨[], .complete⟩ else explore q done) →
        first.ending = .complete → Order G done [q] (left first.steps) := by
      rintro first rfl hfirst
      by_cases hq : q ∈ done
      · rw [if_pos hq]
        exact order_skip hq
      · rw [if_neg hq] at hfirst ⊢
        exact h q done hq hfirst
    generalize hf : (if q ∈ done then ⟨[], .complete⟩ else explore q done) = first at hc ⊢
    have hfirst := hfirst first hf.symm
    rcases first with ⟨steps, ending⟩
    cases ending with
    | complete =>
      change Order G done (q :: qs) (left (steps ++ _))
      rw [left_append]
      exact order_append (hfirst rfl) (ih _ hc)
    | blocked => cases hc
    | cycle => cases hc

/-- A complete walk leaves its own node last, and nothing twice. -/
theorem order_explore (active : List α) (p : α) :
    ∀ done, (explore G active p done).ending = .complete →
      ∃ qs order, G.next p = some qs ∧ left (explore G active p done).steps = order ++ [p] ∧
        p ∉ order ∧ Order G done qs order := by
  induction active, p using explore_induction G with
  | cycle active p hp =>
    intro done hc
    rw [explore_of_mem hp] at hc
    cases hc
  | blocked active p hp hn =>
    intro done hc
    rw [explore_of_none hp hn] at hc
    cases hc
  | step active p qs hp hn ih =>
    intro done hc
    have hall := order_exploreAll (G := G) (explore G (p :: active))
      (fun q done hq hcq => by
        obtain ⟨rs, order, hrs, hleft, hself, horder⟩ := ih q done hcq
        rw [hleft]
        exact horder.leave hrs hq hself) qs done
    have hself := left_exploreAll (explore G (p :: active)) qs
      (fun q done => left_notMem_active (p :: active) q done) done
    rw [explore_of_some hp hn] at hc ⊢
    generalize exploreAll (explore G (p :: active)) qs done = walk at hc hall hself ⊢
    rcases walk with ⟨steps, ending⟩
    cases ending with
    | complete =>
      refine ⟨qs, left steps, hn, left_append _ _, fun hm => ?_, hall rfl⟩
      exact hself p hm List.mem_cons_self
    | blocked => cases hc
    | cycle => cases hc

theorem ready_exploreAll (explore : α → Finset α → Walk α)
    (h : ∀ q done, Ready G done (left (explore q done).steps)) (qs : List α) (done : Finset α) :
    Ready G done (left (exploreAll explore qs done).steps) := by
  induction qs generalizing done with
  | nil => trivial
  | cons q qs ih =>
    rw [exploreAll]
    have hfirst : Ready G done
        (left (if q ∈ done then ⟨[], .complete⟩ else explore q done : Walk α).steps) := by
      by_cases hq : q ∈ done
      · rw [if_pos hq]
        trivial
      · rw [if_neg hq]
        exact h q done
    generalize (if q ∈ done then ⟨[], .complete⟩ else explore q done : Walk α) = first
      at hfirst ⊢
    rcases first with ⟨steps, ending⟩
    cases ending with
    | complete =>
      change Ready G done (left (steps ++ _))
      rw [left_append]
      exact ready_append.mpr ⟨hfirst, ih _⟩
    | blocked => exact hfirst
    | cycle => exact hfirst

/-- Also a walk that ends early leaves every node after its successors. -/
theorem ready_explore (active : List α) (p : α) :
    ∀ done, Ready G done (left (explore G active p done).steps) := by
  induction active, p using explore_induction G with
  | cycle active p hp =>
    intro done
    rw [explore_of_mem hp]
    trivial
  | blocked active p hp hn =>
    intro done
    rw [explore_of_none hp hn]
    trivial
  | step active p qs hp hn ih =>
    intro done
    by_cases hc : (explore G active p done).ending = .complete
    · obtain ⟨rs, order, hrs, hleft, hself, horder⟩ := order_explore active p done hc
      rw [hleft]
      refine ready_append.mpr ⟨horder.ready, fun y hy => ?_, trivial⟩
      obtain ⟨ts, hts, hy⟩ := hy
      obtain rfl : rs = ts := Option.some.inj (hrs.symm.trans hts)
      rw [Finset.mem_union, List.mem_toFinset]
      exact horder.covers y hy
    · have hall := ready_exploreAll (G := G) (explore G (p :: active)) ih qs done
      rw [explore_of_some hp hn] at hc ⊢
      generalize exploreAll (explore G (p :: active)) qs done = walk at hc hall ⊢
      rcases walk with ⟨steps, ending⟩
      cases ending with
      | complete => exact absurd rfl hc
      | blocked => exact hall
      | cycle => exact hall

/-- The marked nodes have only marked successors. -/
def Closed (G : Graph α) (done : Finset α) : Prop := ∀ x ∈ done, ∀ y, Edge G x y → y ∈ done

theorem closed_run {v : Visitor α σ} {steps : List (Step α)} {s : σ} (h : Closed G (v.marks s))
    (hr : Ready G (v.marks s) (left steps)) : Closed G (v.marks (v.run steps s).1) := by
  induction steps generalizing s with
  | nil => exact h
  | cons step steps ih =>
    cases step with
    | back q => exact ih ((v.marks_back q s).symm ▸ h) ((v.marks_back q s).symm ▸ hr)
    | leave p =>
      obtain ⟨hp, hr⟩ := hr
      rw [Visitor.run]
      rcases hl : v.leave p s with ⟨t, ok⟩
      cases ok with
      | false => exact (v.marks_failed p s t hl).symm ▸ h
      | true =>
        have hmarks := v.marks_leave p s t hl
        refine ih ?_ (hmarks.symm ▸ hr)
        rw [hmarks]
        intro x hx y hxy
        rcases Finset.mem_insert.mp hx with rfl | hx
        · exact Finset.mem_insert_of_mem (hp y hxy)
        · exact Finset.mem_insert_of_mem (h x hx y hxy)

/-- When the marked nodes have only marked successors, a complete walk leaves everything
its node reaches, apart from what is marked. -/
theorem Order.mem_of_reaches {done : Finset α} {p : α} {qs order : List α}
    (h : Order G done qs order) (hn : G.next p = some qs)
    (hclosed : Closed G done) {x : α} (hx : Reaches G p x) :
    x = p ∨ x ∈ done ∨ x ∈ order := by
  induction hx with
  | refl => exact .inl rfl
  | tail _ hyz ih =>
    right
    rcases ih with rfl | hy | hy
    · obtain ⟨rs, hrs, hz⟩ := hyz
      obtain rfl : qs = rs := Option.some.inj (hn.symm.trans hrs)
      exact h.covers _ hz
    · exact .inl (hclosed _ hy _ hyz)
    · obtain ⟨before, after, rfl⟩ := List.append_of_mem hy
      exact (h.ready.before hyz).imp_right (List.mem_append_left _)

end Orders

end FalconLib.Base.DepthFirst
