import FalconLib.Libs.AxesMachine
import FalconLib.Libs.MapRefinement

/-!
# Axes refine lists

As long as axes are given an array before they are called, the interpreter and the lists answer
every command alike, and the axes hold the lists.
-/

namespace FalconLib.Libs.Axes

open FalconLib.Base (Comp StdMap)
open FalconLib.Base.ListHeap (perform_of_some perform_of_none)
open FalconLib.Dsl
open FalconLib.Dsl.RoutineRuns
open FalconLib.Libs.Array (IsArray Lists Machine Observed Search callOn)
open FalconLib.Libs.Map (Keepable Touches declare_of_ok methodCall methodCall_outcome
  observe_of_ok observe_of_raises var)

variable {S : Type} {ctx : Context S} {fuel : Nat} {path : String}

/-- Axes of the machine: where they live, and their elements. -/
abbrev Entry := Place × List RuntimeValue

/-- No axes share the instance or the array of others. -/
def Apart (entries : List Entry) : Prop :=
  ∀ (i j : Nat) (a b : Entry), entries[i]? = some a → entries[j]? = some b → i ≠ j →
    a.1.id ≠ b.1.id ∧ ∀ handle ∈ a.1.handles, handle ∉ b.1.handles

/-- The machine holds the entries, and variables refer to them. -/
structure Holds (m : Machine S) (refs : StdMap Nat) (entries : List Entry) : Prop where
  isAxes : ∀ entry ∈ entries, IsAxes m.world entry.1
  stored : ∀ entry ∈ entries, Stored m.world.heap entry.1 entry.2
  apart : Apart entries
  bound : ∀ (x : String) (ref : Nat), refs[x]? = some ref → ∃ entry : Entry,
    entries[ref]? = some entry ∧ m.env[x]? = some (.struct entry.1.id)
  unbound : ∀ x : String, refs[x]? = none → m.env[x]? = none

/-- The axes of the machine stand for the lists. -/
structure Represents (ctx : Context S) (path : String) (m : Machine S) (s : Lists) : Prop where
  linked : Linked ctx m.world.types path
  entries : ∃ entries : List Entry, Holds m s.refs entries ∧ entries.map Prod.snd = s.lists

/-! ## Steps of the world -/

section Frames

variable {m : Machine S} {refs : StdMap Nat} {entries : List Entry} {w' : World S}

theorem Holds.lt_arrays (h : Holds m refs entries) {entry : Entry} (he : entry ∈ entries) :
    ∀ handle ∈ entry.1.handles, handle < m.world.heap.arrays.length := by
  have hs := h.stored entry he
  obtain ⟨⟨type, id, array⟩, elements⟩ := entry
  cases array with
  | none => exact fun handle hhandle => absurd hhandle List.not_mem_nil
  | some array =>
    obtain ⟨object, hobject, _⟩ := hs.1.elements
    intro handle hhandle
    rw [List.mem_singleton.mp hhandle]
    exact (List.getElem?_eq_some_iff.mp hobject).1

theorem Holds.lt_structs (h : Holds m refs entries) {entry : Entry} (he : entry ∈ entries) :
    entry.1.id < m.world.heap.structs.length := by
  obtain ⟨object, hobject, _⟩ := (h.isAxes entry he).object
  exact (List.getElem?_eq_some_iff.mp hobject).1

/-- One of the axes changes, and the others are as they were. -/
theorem Holds.set (h : Holds m refs entries) {ref : Nat} {old new : Entry}
    (hold : entries[ref]? = some old) (hid : new.1.id = old.1.id) (hnew : IsAxes w' new.1)
    (hstored : Stored w'.heap new.1 new.2)
    (hothers : ∀ (i : Nat) (entry : Entry), i ≠ ref → entries[i]? = some entry →
      IsAxes w' entry.1 ∧ Stored w'.heap entry.1 entry.2 ∧
        ∀ handle ∈ new.1.handles, handle ∉ entry.1.handles) :
    Holds { m with world := w' } refs (entries.set ref new) := by
  have hlt := (List.getElem?_eq_some_iff.mp hold).1
  have hcases : ∀ (i : Nat) (entry : Entry), (entries.set ref new)[i]? = some entry →
      i = ref ∧ entry = new ∨ i ≠ ref ∧ entries[i]? = some entry := by
    intro i entry hi
    by_cases hir : i = ref
    · subst hir
      rw [List.getElem?_set_self hlt] at hi
      exact .inl ⟨rfl, (Option.some.inj hi).symm⟩
    · rw [List.getElem?_set_ne (Ne.symm hir)] at hi
      exact .inr ⟨hir, hi⟩
  have hmem : ∀ entry ∈ entries.set ref new,
      IsAxes w' entry.1 ∧ Stored w'.heap entry.1 entry.2 := by
    intro entry hentry
    obtain ⟨i, hi⟩ := List.mem_iff_getElem?.mp hentry
    rcases hcases i entry hi with ⟨_, rfl⟩ | ⟨hir, hentry⟩
    · exact ⟨hnew, hstored⟩
    · obtain ⟨haxes, hs, _⟩ := hothers i entry hir hentry
      exact ⟨haxes, hs⟩
  refine ⟨fun entry he => (hmem entry he).1, fun entry he => (hmem entry he).2, ?_, ?_, h.unbound⟩
  · intro i j a b hi hj hne
    rcases hcases i a hi with ⟨rfl, rfl⟩ | ⟨hir, ha⟩ <;>
      rcases hcases j b hj with ⟨rfl, rfl⟩ | ⟨hjr, hb⟩
    · exact absurd rfl hne
    · rw [hid]
      exact ⟨(h.apart i j old b hold hb hne).1, (hothers j b hjr hb).2.2⟩
    · rw [hid]
      exact ⟨(h.apart i j a old ha hold hne).1,
        fun handle hmem hnew => (hothers i a hir ha).2.2 handle hnew hmem⟩
    · exact h.apart i j a b ha hb hne
  · intro x i hx
    obtain ⟨entry, hentry, henv⟩ := h.bound x i hx
    by_cases hir : ref = i
    · subst hir
      obtain rfl := Option.some.inj (hold.symm.trans hentry)
      exact ⟨new, List.getElem?_set_self hlt, hid ▸ henv⟩
    · exact ⟨entry, (List.getElem?_set_ne hir).trans hentry, henv⟩

/-- A call on axes changes their elements. -/
theorem Holds.after (h : Holds m refs entries) {ref : Nat} {p : Place}
    {elements left : List RuntimeValue} (he : entries[ref]? = some (p, elements))
    (ha : After ctx path m.world w' p left) :
    Holds { m with world := w' } refs (entries.set ref (p, left)) := by
  have hframe : ∀ entry ∈ entries, IsAxes w' entry.1 := fun entry hentry =>
    (h.isAxes entry hentry).of_touches ha.touches ha.instances
  have hp : IsAxes w' p := hframe (p, elements) (List.mem_of_getElem? he)
  refine h.set he rfl hp ha.stored fun i entry hi hentry => ?_
  have hmem := List.mem_of_getElem? hentry
  exact ⟨hframe entry hmem,
    (h.stored entry hmem).frame ha.touches (h.apart i ref _ _ hentry he hi).2,
    (h.apart ref i _ _ he hentry (Ne.symm hi)).2⟩

/-- New axes, whose field is nil, stand for a list without elements. -/
theorem Holds.grow (h : Holds m refs entries) {made : Place}
    (hm : Makes ctx path m.world w' made) :
    Holds { m with world := w' } refs (entries ++ [(made, [])]) := by
  have hhandles : made.handles = [] := by
    unfold Place.handles
    rw [hm.nil]
    rfl
  have hstored : Stored w'.heap made [] := by
    unfold Stored
    rw [hm.nil]
  have hcases : ∀ (i : Nat) (entry : Entry), (entries ++ [(made, [])])[i]? = some entry →
      entries[i]? = some entry ∨ i = entries.length ∧ entry = (made, []) := by
    intro i entry hi
    rcases Nat.lt_trichotomy i entries.length with hlt | rfl | hgt
    · rw [List.getElem?_append_left hlt] at hi
      exact .inl hi
    · rw [List.getElem?_concat_length] at hi
      exact .inr ⟨rfl, (Option.some.inj hi).symm⟩
    · rw [List.getElem?_eq_none (by rw [List.length_append]; exact hgt)] at hi
      cases hi
  have hfresh : ∀ (i : Nat) (entry : Entry), entries[i]? = some entry → entry.1.id ≠ made.id := by
    intro i entry hentry
    have hlt := h.lt_structs (List.mem_of_getElem? hentry)
    have hle := hm.fresh
    omega
  refine ⟨?_, ?_, ?_, ?_, h.unbound⟩
  · intro entry hentry
    rcases List.mem_append.mp hentry with hold | hone
    · exact (h.isAxes entry hold).of_touches hm.touches hm.instances
    · rw [List.mem_singleton.mp hone]
      exact hm.isAxes
  · intro entry hentry
    rcases List.mem_append.mp hentry with hold | hone
    · exact (h.stored entry hold).frame hm.touches fun _ _ => List.not_mem_nil
    · rw [List.mem_singleton.mp hone]
      exact hstored
  · intro i j a b hi hj hne
    rcases hcases i a hi with ha | ⟨rfl, rfl⟩ <;> rcases hcases j b hj with hb | ⟨rfl, rfl⟩
    · exact h.apart i j a b ha hb hne
    · refine ⟨hfresh i a ha, fun handle _ => ?_⟩
      rw [hhandles]
      exact List.not_mem_nil
    · refine ⟨(hfresh j b hb).symm, fun handle hmem => ?_⟩
      rw [hhandles] at hmem
      exact absurd hmem List.not_mem_nil
    · exact absurd rfl hne
  · intro x ref hx
    obtain ⟨entry, hentry, henv⟩ := h.bound x ref hx
    refine ⟨entry, ?_, henv⟩
    rw [List.getElem?_append_left (List.getElem?_eq_some_iff.mp hentry).1, hentry]

theorem keepable_filled {w : World S} {value : RuntimeValue} (h : Keepable w.heap value)
    (receiver id : Nat) : Keepable (filled w receiver id).heap value := by
  cases value with
  | struct i =>
    obtain ⟨object, hobject, hnative⟩ := h
    by_cases hi : receiver = i
    · subst hi
      refine ⟨{ object with fields := object.fields.assign "arr_" (.struct id) }, ?_, hnative⟩
      change (w.heap.structs.modify receiver _)[receiver]? = _
      rw [List.getElem?_modify_eq, hobject]
      rfl
    · exact ⟨object, (getElem?_filled hi w id).trans hobject, hnative⟩
  | _ => exact h

theorem Stored.filled {w : World S} {p : Place} {elements : List RuntimeValue}
    (h : Stored w.heap p elements) (receiver id : Nat) :
    Stored (Axes.filled w receiver id).heap p elements := by
  obtain ⟨type, axes, array⟩ := p
  cases array with
  | none => exact h
  | some array =>
    obtain ⟨harray, hkept⟩ := h
    exact ⟨Map.isArray_setField harray _ _ _, fun value hv => keepable_filled (hkept value hv) _ _⟩

/-- Axes without elements are given a new array. -/
theorem Holds.fill (h : Holds m refs entries) {ref : Nat} {p : Place}
    (he : entries[ref]? = some (p, [])) {id handle : Nat}
    (harray : IsArray m.world.heap id handle [])
    (hfresh : ∀ entry ∈ entries, handle ∉ entry.1.handles) :
    Holds { m with world := filled m.world p.id id } refs
      (entries.set ref ({ p with array := some (id, handle) }, [])) := by
  have hp := h.isAxes _ (List.mem_of_getElem? he)
  have hstored : Stored (filled m.world p.id id).heap { p with array := some (id, handle) } [] :=
    ⟨Map.isArray_setField harray _ _ _, nofun⟩
  refine h.set he rfl (hp.fill id handle) hstored fun i entry hi hentry => ?_
  have hmem := List.mem_of_getElem? hentry
  refine ⟨(h.isAxes entry hmem).filled (h.apart ref i _ _ he hentry (Ne.symm hi)).1 id,
    (h.stored entry hmem).filled _ _, fun other hother => ?_⟩
  rw [List.mem_singleton.mp hother]
  exact hfresh entry hmem

/-- A declaration. -/
theorem Holds.assign (h : Holds m refs entries) (x : String) {ref : Nat} {entry : Entry}
    (he : entries[ref]? = some entry) :
    Holds { m with env := m.env.assign x (.struct entry.1.id) } (refs.assign x ref) entries := by
  refine ⟨h.isAxes, h.stored, h.apart, ?_, ?_⟩
  · intro y i hy
    change ∃ entry', entries[i]? = some entry' ∧
      (m.env.assign x (.struct entry.1.id))[y]? = some (.struct entry'.1.id)
    by_cases hxy : x = y
    · subst hxy
      rw [StdMap.getElem?_assign_self] at hy
      cases hy
      exact ⟨entry, he, StdMap.getElem?_assign_self _ _ _⟩
    · rw [StdMap.getElem?_assign_ne _ _ hxy] at hy ⊢
      exact h.bound y i hy
  · intro y hy
    change (m.env.assign x (.struct entry.1.id))[y]? = none
    by_cases hxy : x = y
    · subst hxy
      rw [StdMap.getElem?_assign_self] at hy
      cases hy
    · rw [StdMap.getElem?_assign_ne _ _ hxy] at hy ⊢
      exact h.unbound y hy

end Frames

/-! ## Steps of the machine -/

section Steps

variable {m : Machine S} {s : Lists}

/-- The axes behind a variable. -/
theorem Represents.entry (h : Represents ctx path m s) {x : String} {ref : Nat}
    (hx : s.refs[x]? = some ref) :
    ∃ (entries : List Entry) (p : Place) (elements : List RuntimeValue),
      Holds m s.refs entries ∧ entries.map Prod.snd = s.lists ∧
        entries[ref]? = some (p, elements) ∧ s.lists[ref]? = some elements ∧
          m.env[x]? = some (.struct p.id) := by
  obtain ⟨entries, hholds, hlists⟩ := h.entries
  obtain ⟨⟨p, elements⟩, hentry, henv⟩ := hholds.bound x ref hx
  refine ⟨entries, p, elements, hholds, hlists, hentry, ?_, henv⟩
  rw [← hlists, List.getElem?_map, hentry]
  rfl

/-- A new list, and a variable for it. -/
theorem Represents.declare {entries : List Entry} (hl : Linked ctx m.world.types path)
    (hholds : Holds m s.refs entries) (hlists : entries.map Prod.snd = s.lists ++ [[]])
    {made : Place} (hlast : entries[s.lists.length]? = some (made, [])) (x : String) :
    Represents ctx path { m with env := m.env.assign x (.struct made.id) }
      { lists := s.lists ++ [[]], refs := s.refs.assign x s.lists.length } :=
  ⟨hl, entries, hholds.assign x hlast, hlists⟩

theorem set_self {α : Type} {list : List α} {i : Nat} {a : α} (h : list[i]? = some a) :
    list.set i a = list := by
  obtain ⟨hlt, hget⟩ := List.getElem?_eq_some_iff.mp h
  rw [← hget, List.set_getElem_self]

theorem getElem?_grown {entries : List Entry} {lists : List (List RuntimeValue)}
    (hlists : entries.map Prod.snd = lists) (made : Place) :
    (entries ++ [(made, [])])[lists.length]? = some (made, []) := by
  rw [← hlists, List.length_map, List.getElem?_concat_length]

theorem map_grown {entries : List Entry} {lists : List (List RuntimeValue)}
    (hlists : entries.map Prod.snd = lists) (made : Place) :
    (entries ++ [(made, [])]).map Prod.snd = lists ++ [[]] := by
  rw [List.map_append, hlists]
  rfl

/-- `Axes<T> x = Axes.New();` where no variable is called `Axes`. -/
theorem Represents.new (fuel : Nat) (h : Represents ctx path m s) (x : String)
    (type : TypeDescriptor) (hnone : s.refs["Axes"]? = none) :
    (step ctx fuel m (.new x type)).1 = (Lists.step s (.new x type)).1 ∧
      Represents ctx path (step ctx fuel m (.new x type)).2 (Lists.step s (.new x type)).2 := by
  obtain ⟨entries, hholds, hlists⟩ := h.entries
  obtain ⟨made, w', hnew, hmakes⟩ :=
    evaluate_newCall fuel h.linked (hholds.unbound _ hnone) type
  have hstep : step ctx fuel m (.new x type) = _ := declare_of_ok (fuel + 1) hnew
  rw [hstep]
  exact ⟨rfl, Represents.declare (m := { m with world := w' }) hmakes.linked
    (hholds.grow hmakes) (map_grown hlists made) (getElem?_grown hlists made) x⟩

/-- `Axes<T> y = x.New();` for axes `x` without elements. -/
theorem Represents.renew (fuel : Nat) (h : Represents ctx path m s) {x : String} {ref : Nat}
    (hx : s.refs[x]? = some ref) (y : String) (type : TypeDescriptor)
    (hfits : Renewable m x) :
    ∃ w value, m.declare ctx (fuel + 1) (declaration y type (callOn x "New" [])) =
        (.returned .nil, { world := w, env := m.env.assign y value }) ∧
      Represents ctx path { world := w, env := m.env.assign y value }
        { lists := s.lists ++ [[]], refs := s.refs.assign y s.lists.length } := by
  obtain ⟨entries, p, elements, hholds, hlists, hentry, _, henv⟩ := h.entry hx
  have hmem := List.mem_of_getElem? hentry
  have hp : IsAxes m.world p := hholds.isAxes _ hmem
  have hempty : elements = [] := hfits p elements henv hp (hholds.stored _ hmem)
  subst hempty
  obtain ⟨made, w', id, hrenew, hmakes, harray⟩ := evaluate_renew fuel h.linked henv hp type
  refine ⟨filled w' p.id id, .struct made.id, declare_of_ok (fuel + 1) hrenew, ?_⟩
  have hgrown := hholds.grow hmakes
  have hlt := (List.getElem?_eq_some_iff.mp hentry).1
  have hstays : (entries ++ [(made, [])])[ref]? = some (p, []) :=
    (List.getElem?_append_left hlt).trans hentry
  have hfresh : ∀ entry ∈ entries ++ [(made, [])],
      m.world.heap.arrays.length ∉ entry.1.handles := by
    intro entry he hhandle
    rcases List.mem_append.mp he with hold | hone
    · exact absurd (hholds.lt_arrays hold _ hhandle) (Nat.lt_irrefl _)
    · rw [List.mem_singleton.mp hone] at hhandle
      unfold Place.handles at hhandle
      rw [hmakes.nil] at hhandle
      exact absurd hhandle List.not_mem_nil
  have hfilled := hgrown.fill hstays harray hfresh
  have hsame : ((entries ++ [(made, [])]).set ref
      ({ p with array := some (id, m.world.heap.arrays.length) }, [])).map Prod.snd =
      s.lists ++ [[]] := by
    rw [List.map_set, map_grown hlists]
    refine set_self ?_
    rw [← map_grown hlists made, List.getElem?_map, hstays]
    rfl
  have hlast : ((entries ++ [(made, [])]).set ref
      ({ p with array := some (id, m.world.heap.arrays.length) }, []))[s.lists.length]? =
      some (made, []) := by
    rw [List.getElem?_set_ne, getElem?_grown hlists]
    rw [← hlists, List.length_map]
    exact Nat.ne_of_lt hlt
  exact Represents.declare (m := { m with world := filled w' p.id id }) hmakes.linked hfilled
    hsame hlast y

theorem Represents.share (fuel : Nat) (h : Represents ctx path m s) {x : String} {ref : Nat}
    (hx : s.refs[x]? = some ref) (y : String) (type : TypeDescriptor) :
    (step ctx fuel m (.share y x type)).1 = (Lists.step s (.share y x type)).1 ∧
      Represents ctx path (step ctx fuel m (.share y x type)).2
        (Lists.step s (.share y x type)).2 := by
  obtain ⟨entries, p, elements, hholds, hlists, hentry, _, henv⟩ := h.entry hx
  have hstep : step ctx fuel m (.share y x type) = _ :=
    declare_of_ok (fuel + 1) (Array.evalVariable_of_bound henv m.world)
  have hlist : Lists.step s (.share y x type) =
      (.returned .nil, { s with refs := s.refs.assign y ref }) := by
    unfold Lists.step Array.Lists.step
    dsimp only
    rw [hx]
  rw [hstep, hlist]
  exact ⟨rfl, h.linked, entries, hholds.assign y hentry, hlists⟩

/-- A call on lists is a run of the operation on the list behind the variable. -/
theorem step_call {x : String} {ref : Nat} {elements : List RuntimeValue}
    (hx : s.refs[x]? = some ref) (hlist : s.lists[ref]? = some elements) (call : Call) :
    Lists.step s (.call x call) =
      match call.run elements with
      | some (value, left) => (.returned value, { s with lists := s.lists.set ref left })
      | none => (.raised, s) := by
  cases call with
  | of method =>
    change s.call x method.operation = _
    unfold Array.Lists.call
    rw [hx, Call.run_of]
    dsimp only
    cases hrun : method.operation.run elements with
    | some result => rw [perform_of_some hlist hrun]; rfl
    | none => rw [perform_of_none hlist hrun]; rfl
  | find search value =>
    have hsame : s.lists.set ref elements = s.lists := set_self hlist
    change Lists.search s x search value = _
    unfold Lists.search
    rw [hx, Option.bind_some, hlist]
    change _ = (Observed.returned _, { s with lists := s.lists.set ref elements })
    rw [hsame]

theorem Represents.call (fuel : Nat) (h : Represents ctx path m s) {x : String} {ref : Nat}
    (hx : s.refs[x]? = some ref) {call : Call} (hfits : Answerable ctx fuel path m x call) :
    (step ctx fuel m (.call x call)).1 = (Lists.step s (.call x call)).1 ∧
      Represents ctx path (step ctx fuel m (.call x call)).2 (Lists.step s (.call x call)).2 := by
  obtain ⟨entries, p, elements, hholds, hlists, hentry, hlist, henv⟩ := h.entry hx
  have hmem := List.mem_of_getElem? hentry
  have hp : IsAxes m.world p := hholds.isAxes _ hmem
  obtain ⟨hsent, hrest⟩ := hfits
  obtain ⟨hquiet, hready⟩ := hrest p henv hp
  have hcall := call_outcome fuel h.linked hp (hholds.stored _ hmem) hsent hquiet hready
  have hmethod := methodCall_outcome ctx fuel henv call.name call.args
  have hset : ∀ left, (entries.set ref (p, left)).map Prod.snd = s.lists.set ref left := by
    intro left
    rw [List.map_set, hlists]
  rw [step_call hx hlist]
  change (m.observe (methodCall ctx fuel m x call.name call.args)).1 = _ ∧
    Represents ctx path (m.observe (methodCall ctx fuel m x call.name call.args)).2 _
  cases hrun : call.run elements with
  | some result =>
    obtain ⟨value, left⟩ := result
    rw [hrun] at hcall
    obtain ⟨w', houtcome, hafter⟩ := hcall
    rw [observe_of_ok (hmethod.trans houtcome)]
    exact ⟨rfl, hafter.linked, _, hholds.after hentry hafter, hset left⟩
  | none =>
    rw [hrun] at hcall
    obtain ⟨w', ⟨e, houtcome⟩, hafter⟩ := hcall
    rw [observe_of_raises ⟨e, hmethod.trans houtcome⟩]
    refine ⟨rfl, hafter.linked, _, hholds.after hentry hafter, (hset elements).trans ?_⟩
    exact set_self hlist

/-- A command that meets the condition is observed on the interpreter as on the lists. -/
theorem Represents.step (fuel : Nat) (h : Represents ctx path m s) (command : Command)
    (hreceiver : ∀ x ∈ command.receiver, ∃ ref, s.refs[x]? = some ref)
    (hfits : Fits ctx fuel path m command) :
    (step ctx fuel m command).1 = (Lists.step s command).1 ∧
      Represents ctx path (step ctx fuel m command).2 (Lists.step s command).2 := by
  cases command with
  | new x type =>
    cases hnone : s.refs["Axes"]? with
    | none => exact h.new fuel x type hnone
    | some ref =>
      obtain ⟨w, value, hdeclare, hnext⟩ := h.renew fuel hnone x type hfits
      change (m.declare ctx (fuel + 1) (declaration x type newCall)).1 = _ ∧
        Represents ctx path (m.declare ctx (fuel + 1) (declaration x type newCall)).2 _
      unfold newCall
      rw [hdeclare]
      exact ⟨rfl, hnext⟩
  | renew y x type =>
    obtain ⟨ref, href⟩ := hreceiver x rfl
    obtain ⟨w, value, hdeclare, hnext⟩ := h.renew fuel href y type hfits
    change (m.declare ctx (fuel + 1) (declaration y type (callOn x "New" []))).1 = _ ∧
      Represents ctx path (m.declare ctx (fuel + 1) (declaration y type (callOn x "New" []))).2 _
    rw [hdeclare]
    exact ⟨rfl, hnext⟩
  | share y x type =>
    obtain ⟨ref, href⟩ := hreceiver x rfl
    exact h.share fuel href y type
  | call x call =>
    obtain ⟨ref, href⟩ := hreceiver x rfl
    exact h.call fuel href hfits

end Steps

/-! ## Runs -/

/-- What lists do with a call is nothing to the variables. -/
theorem refs_call (s : Lists) (x : String) (call : Call) :
    (Lists.step s (.call x call)).2.refs = s.refs := by
  cases call with
  | of method =>
    change (s.call x method.operation).2.refs = s.refs
    unfold Array.Lists.call
    cases s.refs[x]? with
    | none => rfl
    | some ref =>
      dsimp only
      rcases FalconLib.Base.ListHeap.perform s.lists ref method.operation with ⟨reply, lists⟩
      cases reply <;> rfl
  | find search value =>
    change (Lists.search s x search value).2.refs = s.refs
    unfold Lists.search
    cases s.refs[x]?.bind fun ref => s.lists[ref]? <;> rfl

/-- Variables that are declared refer to lists. -/
theorem exists_refs_step {s : Lists} {declared : List String} {command : Command}
    (hdeclared : ∀ x ∈ declared, ∃ ref, s.refs[x]? = some ref)
    (hreceiver : ∀ x ∈ command.receiver, x ∈ declared) :
    ∀ x ∈ command.declared.toList ++ declared,
      ∃ ref, (Lists.step s command).2.refs[x]? = some ref := by
  cases command with
  | new x type | renew x _ type =>
    have hnew : ∀ y ∈ (Array.Command.new x type).declared.toList ++ declared,
        ∃ ref, (s.step (.new x type)).2.refs[y]? = some ref :=
      Array.exists_refs_step hdeclared nofun
    exact hnew
  | share y x type =>
    have hshare : ∀ z ∈ (Array.Command.share y x type).declared.toList ++ declared,
        ∃ ref, (s.step (.share y x type)).2.refs[z]? = some ref :=
      Array.exists_refs_step hdeclared hreceiver
    exact hshare
  | call x call =>
    rw [refs_call]
    exact hdeclared

theorem Represents.run (fuel : Nat) {m : Machine S} {s : Lists} {program : List Command}
    {declared : List String} (h : Represents ctx path m s)
    (hdeclared : ∀ x ∈ declared, ∃ ref, s.refs[x]? = some ref) (hscoped : Scoped declared program)
    (hfits : Admissible ctx fuel path m program) :
    (run ctx fuel m program).1 = (Lists.run s program).1 ∧
      Represents ctx path (run ctx fuel m program).2 (Lists.run s program).2 := by
  induction program generalizing m s declared with
  | nil => exact ⟨rfl, h⟩
  | cons command program ih =>
    obtain ⟨hreceiver, hrest⟩ := hscoped
    obtain ⟨hfit, hfits⟩ := hfits
    obtain ⟨hobserved, hnext⟩ :=
      h.step fuel command (fun x hx => hdeclared x (hreceiver x hx)) hfit
    obtain ⟨hobservations, hlast⟩ := ih hnext (exists_refs_step hdeclared hreceiver) hrest hfits
    exact ⟨congrArg₂ List.cons hobserved hobservations, hlast⟩

theorem represents_start {w : World S} (hl : Linked ctx w.types path) :
    Represents ctx path ({ world := w } : Machine S) {} := by
  refine ⟨hl, [], ⟨nofun, nofun, nofun, ?_, ?_⟩, rfl⟩
  · intro x ref hx
    exact absurd hx (by simp)
  · intro x _
    exact Std.ExtTreeMap.getElem?_empty

end FalconLib.Libs.Axes
