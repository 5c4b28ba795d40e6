import FalconLib.Libs.ArrayRefinement
import FalconLib.Libs.MapMachine

/-!
# Maps refine finite maps

The interpreter and the finite maps answer every command of a map alike, and the two arrays of
the map hold the keys, each of them once, and the values at the same positions.
-/

namespace FalconLib.Libs.Map

open FalconLib.Base (Comp StdMap Table)
open FalconLib.Base.Table (Operation Reply)
open FalconLib.Dsl
open FalconLib.Dsl.RoutineRuns
open FalconLib.Libs.Array (IsArray Leaves Machine Method Observed Search callOn)
open ExprEvaluator (evaluate evalMethodCall evalVariable)

variable {S : Type} {ctx : Context S} {fuel : Nat} {path : String} {kinds : StdMap Kind}

/-- A map of the machine: where it lives, and its table. -/
abbrev Entry := Place × MapTable

/-- The maps live apart from each other. -/
def Apart (entries : List Entry) : Prop :=
  ∀ (i j : Nat) (a b : Entry), entries[i]? = some a → entries[j]? = some b → i ≠ j →
    ∀ handle ∈ a.1.handles, handle ∉ b.1.handles

/-- What a variable of each kind refers to. -/
def Denotes (entries : List Entry) (refs : StdMap Nat) (x : String) (value : RuntimeValue) :
    Kind → Prop
  | .map => ∃ (ref : Nat) (entry : Entry), refs[x]? = some ref ∧ entries[ref]? = some entry ∧
    value = .struct entry.1.id
  | .array => ∃ entry ∈ entries, ∃ side : Side, value = .struct (side.id entry.1)

/-- The machine holds the entries, and variables refer to them. -/
structure Holds (kinds : StdMap Kind) (m : Machine S) (refs : StdMap Nat)
    (entries : List Entry) : Prop where
  isMap : ∀ entry ∈ entries, IsMap m.world entry.1
  tabled : ∀ entry ∈ entries, Tabled m.world.heap entry.1 entry.2
  apart : Apart entries
  bound : ∀ (x : String) (kind : Kind), kinds[x]? = some kind →
    ∃ value, m.env[x]? = some value ∧ Denotes entries refs x value kind
  unbound : ∀ x : String, kinds[x]? = none → m.env[x]? = none

/-- The tables of the machine stand for the finite maps. -/
structure Represents (ctx : Context S) (path : String) (kinds : StdMap Kind) (m : Machine S)
    (s : Maps) : Prop where
  linked : Linked ctx m.world.types path
  entries : ∃ entries : List Entry,
    Holds kinds m s.refs entries ∧ entries.map (·.2.toFinmap) = s.maps

/-! ## Steps of the world -/

section Frames

variable {m : Machine S} {refs : StdMap Nat} {entries : List Entry} {w' : World S}

theorem Holds.lt_arrays (h : Holds kinds m refs entries) {entry : Entry} (he : entry ∈ entries) :
    ∀ handle ∈ entry.1.handles, handle < m.world.heap.arrays.length := by
  have hs := h.tabled entry he
  obtain ⟨keys, hkeys, _⟩ := hs.keys.elements
  obtain ⟨values, hvalues, _⟩ := hs.values.elements
  have hk := (List.getElem?_eq_some_iff.mp hkeys).1
  have hv := (List.getElem?_eq_some_iff.mp hvalues).1
  intro handle hhandle
  rcases List.mem_cons.mp hhandle with rfl | hrest
  · exact hk
  · rw [List.mem_singleton.mp hrest]
    exact hv

/-- A step that touches no array keeps everything. -/
theorem Holds.frame (h : Holds kinds m refs entries) (ht : Touches m.world.heap w'.heap [])
    (hi : ∀ (name : String) (decl : StructDecl),
      m.world.types.structRegistry[name]? = some decl → w'.types.structRegistry[name]? = some decl) :
    Holds kinds { m with world := w' } refs entries :=
  ⟨fun entry he => (h.isMap entry he).of_touches ht hi,
    fun entry he => (h.tabled entry he).frame ht List.not_mem_nil List.not_mem_nil, h.apart,
    h.bound, h.unbound⟩

/-- A call on one map changes its table. -/
theorem Holds.after (h : Holds kinds m refs entries) {ref : Nat} {p : Place} {t left : MapTable}
    (he : entries[ref]? = some (p, t)) (ha : After ctx path m.world w' p left) :
    Holds kinds { m with world := w' } refs (entries.set ref (p, left)) := by
  have hlt := (List.getElem?_eq_some_iff.mp he).1
  have hplace : ∀ (i : Nat) (entry : Entry), (entries.set ref (p, left))[i]? = some entry →
      ∃ old, entries[i]? = some old ∧ old.1 = entry.1 := by
    intro i entry hentry
    by_cases hi : ref = i
    · subst hi
      rw [List.getElem?_set_self hlt] at hentry
      cases hentry
      exact ⟨_, he, rfl⟩
    · rw [List.getElem?_set_ne hi] at hentry
      exact ⟨entry, hentry, rfl⟩
  have hkept : ∀ (i : Nat) (old : Entry), entries[i]? = some old →
      ∃ entry, (entries.set ref (p, left))[i]? = some entry ∧ old.1 = entry.1 := by
    intro i old hold
    by_cases hi : ref = i
    · subst hi
      obtain rfl := Option.some.inj (hold.symm.trans he)
      exact ⟨_, List.getElem?_set_self hlt, rfl⟩
    · exact ⟨old, (List.getElem?_set_ne hi).trans hold, rfl⟩
  refine ⟨?_, ?_, ?_, ?_, h.unbound⟩
  · intro entry hentry
    obtain ⟨i, hi⟩ := List.mem_iff_getElem?.mp hentry
    obtain ⟨old, hold, hsame⟩ := hplace i entry hi
    rw [← hsame]
    exact (h.isMap old (List.mem_of_getElem? hold)).of_touches ha.touches ha.instances
  · intro entry hentry
    obtain ⟨i, hi⟩ := List.mem_iff_getElem?.mp hentry
    by_cases hri : ref = i
    · subst hri
      rw [List.getElem?_set_self hlt] at hi
      cases hi
      exact ha.tabled
    · rw [List.getElem?_set_ne hri] at hi
      have hapart := h.apart i ref entry (p, t) hi he (Ne.symm hri)
      exact (h.tabled entry (List.mem_of_getElem? hi)).frame ha.touches
        (hapart _ List.mem_cons_self) (hapart _ (List.mem_cons_of_mem _ List.mem_cons_self))
  · intro i j a b hi hj hne
    obtain ⟨a', ha', hsame⟩ := hplace i a hi
    obtain ⟨b', hb', hsame'⟩ := hplace j b hj
    rw [← hsame, ← hsame']
    exact h.apart i j a' b' ha' hb' hne
  · intro x kind hx
    obtain ⟨value, henv, hdenotes⟩ := h.bound x kind hx
    refine ⟨value, henv, ?_⟩
    cases kind with
    | map =>
      obtain ⟨i, old, href, hold, rfl⟩ := hdenotes
      obtain ⟨entry, hentry, hsame⟩ := hkept i old hold
      exact ⟨i, entry, href, hentry, by rw [hsame]⟩
    | array =>
      obtain ⟨old, hmem, side, rfl⟩ := hdenotes
      obtain ⟨i, hold⟩ := List.mem_iff_getElem?.mp hmem
      obtain ⟨entry, hentry, hsame⟩ := hkept i old hold
      exact ⟨entry, List.mem_of_getElem? hentry, side, by rw [hsame]⟩

/-- A new map comes with two new arrays. -/
theorem Holds.grow (h : Holds kinds m refs entries) {p : Place}
    (hm : Makes ctx path m.world w' p) :
    Holds kinds { m with world := w' } refs (entries ++ [(p, Table.empty)]) := by
  have hframe := h.frame hm.touches hm.instances
  have hnew : ∀ entry ∈ entries, ∀ handle ∈ entry.1.handles, handle ∉ p.handles := by
    intro entry he handle hhandle hmem
    have hlt := h.lt_arrays he handle hhandle
    rw [hm.arrays, List.mem_cons, List.mem_singleton] at hmem
    omega
  have hlast : ∀ (i : Nat) (entry : Entry), (entries ++ [(p, Table.empty)])[i]? = some entry →
      entries[i]? = some entry ∨ i = entries.length ∧ entry = (p, Table.empty) := by
    intro i entry hi
    rcases Nat.lt_trichotomy i entries.length with hlt | rfl | hgt
    · rw [List.getElem?_append_left hlt] at hi
      exact .inl hi
    · rw [List.getElem?_concat_length] at hi
      exact .inr ⟨rfl, (Option.some.inj hi).symm⟩
    · rw [List.getElem?_eq_none (by rw [List.length_append]; exact hgt)] at hi
      cases hi
  refine ⟨?_, ?_, ?_, ?_, h.unbound⟩
  · intro entry hentry
    rcases List.mem_append.mp hentry with hold | hone
    · exact hframe.isMap entry hold
    · rw [List.mem_singleton.mp hone]
      exact hm.isMap
  · intro entry hentry
    rcases List.mem_append.mp hentry with hold | hone
    · exact hframe.tabled entry hold
    · rw [List.mem_singleton.mp hone]
      exact hm.tabled
  · intro i j a b hi hj hne
    rcases hlast i a hi with ha | ⟨rfl, rfl⟩ <;> rcases hlast j b hj with hb | ⟨rfl, rfl⟩
    · exact h.apart i j a b ha hb hne
    · exact hnew a (List.mem_of_getElem? ha)
    · exact fun handle hmem hb' => hnew b (List.mem_of_getElem? hb) handle hb' hmem
    · exact absurd rfl hne
  · intro x kind hx
    obtain ⟨value, henv, hdenotes⟩ := h.bound x kind hx
    refine ⟨value, henv, ?_⟩
    cases kind with
    | map =>
      obtain ⟨i, entry, href, hentry, hvalue⟩ := hdenotes
      refine ⟨i, entry, href, ?_, hvalue⟩
      rw [List.getElem?_append_left (List.getElem?_eq_some_iff.mp hentry).1, hentry]
    | array =>
      obtain ⟨entry, hmem, side, hvalue⟩ := hdenotes
      exact ⟨entry, List.mem_append_left _ hmem, side, hvalue⟩

/-- A declaration. -/
theorem Holds.assign (h : Holds kinds m refs entries) (x : String) {kind : Kind}
    {value : RuntimeValue} {refs' : StdMap Nat}
    (hrefs : ∀ y : String, x ≠ y → refs'[y]? = refs[y]?)
    (hd : Denotes entries refs' x value kind) :
    Holds (kinds.assign x kind) { m with env := m.env.assign x value } refs' entries := by
  refine ⟨h.isMap, h.tabled, h.apart, ?_, ?_⟩
  · intro y other hy
    change ∃ value', (m.env.assign x value)[y]? = some value' ∧ Denotes entries refs' y value' other
    by_cases hxy : x = y
    · subst hxy
      rw [StdMap.getElem?_assign_self] at hy
      cases hy
      exact ⟨value, StdMap.getElem?_assign_self _ _ _, hd⟩
    · rw [StdMap.getElem?_assign_ne _ _ hxy] at hy
      obtain ⟨value', henv, hdenotes⟩ := h.bound y other hy
      refine ⟨value', (StdMap.getElem?_assign_ne _ _ hxy).trans henv, ?_⟩
      cases other with
      | map =>
        obtain ⟨ref, entry, href, hrest⟩ := hdenotes
        exact ⟨ref, entry, (hrefs y hxy).trans href, hrest⟩
      | array => exact hdenotes
  · intro y hy
    change (m.env.assign x value)[y]? = none
    by_cases hxy : x = y
    · subst hxy
      rw [StdMap.getElem?_assign_self] at hy
      cases hy
    · rw [StdMap.getElem?_assign_ne _ _ hxy] at hy ⊢
      exact h.unbound y hy

end Frames

/-! ## Steps of the machine -/

section Steps

variable {m : Machine S} {s : Maps}

theorem declare_of_ok (fuel : Nat) {type : TypeDescriptor} {x : String} {initializer : Expr}
    {value : RuntimeValue} {w : World S}
    (h : (evaluate ctx (Machine.handlers ctx fuel) (.own m.env)
      (StmtExecutor.markedInitializer type initializer) m.world).outcome = .ok value w) :
    m.declare ctx fuel { type := type, name := x, initializer := some initializer } =
      (.returned .nil, { world := w, env := m.env.assign x value }) := by
  have hexec : (StmtExecutor.execVarDecl ctx (Machine.handlers ctx fuel) (.own m.env)
      { type := type, name := x, initializer := some initializer } m.world).outcome =
        .ok (.own (m.env.assign x value)) w := Comp.bind_of_ok h
  unfold Machine.declare
  rw [hexec]

theorem observe_of_ok {expression : M S RuntimeValue} {value : RuntimeValue} {w : World S}
    (h : (expression m.world).outcome = .ok value w) :
    m.observe expression = (.returned value, { m with world := w }) := by
  unfold Machine.observe
  rw [h]

theorem observe_of_raises {expression : M S RuntimeValue} {w : World S}
    (h : Raises expression m.world w) :
    m.observe expression = (.raised, { m with world := w }) := by
  obtain ⟨e, he⟩ := h
  unfold Machine.observe
  rw [he]

/-- A call on a variable that is bound is a call on its value. -/
theorem methodCall_outcome (ctx : Context S) (fuel : Nat) {x : String} {value : RuntimeValue}
    (henv : m.env[x]? = some value) (name : String) (args : List RuntimeValue) :
    (methodCall ctx fuel m x name args m.world).outcome =
      (ExprEvaluator.callOnValue ctx (Machine.handlers ctx (fuel + 1)) value name (pure args)
        m.world).outcome := by
  unfold methodCall evalMethodCall
  refine (Comp.bind_of_ok (Array.staticReceiver_of_bound henv _ m.world)).trans ?_
  exact Comp.bind_of_ok (Array.evalVariable_of_bound henv m.world)

theorem Represents.new (fuel : Nat) (h : Represents ctx path kinds m s) {x : String}
    {k v : TypeDescriptor} (hmap : kinds["Map"]? ≠ some .array) :
    (step ctx fuel m (.new x k v)).1 = (s.step (.new x k v)).1 ∧
      Represents ctx path (kinds.assign x .map) (step ctx fuel m (.new x k v)).2
        (s.step (.new x k v)).2 := by
  obtain ⟨entries, hholds, hmaps⟩ := h.entries
  have henv : ∀ value, m.env["Map"]? = some value →
      ∃ p, value = .struct p.id ∧ IsMap m.world p := by
    intro value hvalue
    cases hkind : kinds["Map"]? with
    | none => exact absurd (hvalue.symm.trans (hholds.unbound _ hkind)) nofun
    | some kind =>
      cases kind with
      | array => exact absurd hkind hmap
      | map =>
        obtain ⟨found, hfound, ref, entry, _, hentry, rfl⟩ := hholds.bound _ _ hkind
        exact ⟨entry.1, Option.some.inj (hvalue.symm.trans hfound),
          hholds.isMap entry (List.mem_of_getElem? hentry)⟩
  obtain ⟨p, w', hnew, hmakes⟩ := evaluate_newCall fuel h.linked henv k v
  have hstep : step ctx fuel m (.new x k v) = _ := declare_of_ok (fuel + 1) hnew
  rw [hstep]
  have hlength : entries.length = s.maps.length := by
    rw [← hmaps, List.length_map]
  refine ⟨rfl, hmakes.linked, entries ++ [(p, Table.empty)], ?_, ?_⟩
  · refine (hholds.grow hmakes).assign x ?_ ⟨s.maps.length, (p, Table.empty),
      StdMap.getElem?_assign_self _ _ _, ?_, rfl⟩
    · exact fun y hy => StdMap.getElem?_assign_ne _ _ hy
    · rw [← hlength, List.getElem?_concat_length]
  · rw [List.map_append, hmaps]
    rfl

theorem Represents.call (fuel : Nat) (h : Represents ctx path kinds m s) {x : String}
    {operation : MapOperation} (hx : kinds[x]? = some .map)
    (hfits : CallFits ctx fuel path m x operation) :
    (step ctx fuel m (.call x operation)).1 = (s.step (.call x operation)).1 ∧
      Represents ctx path kinds (step ctx fuel m (.call x operation)).2
        (s.step (.call x operation)).2 := by
  obtain ⟨entries, hholds, hmaps⟩ := h.entries
  obtain ⟨value, henv, ref, ⟨p, t⟩, href, hentry, rfl⟩ := hholds.bound x .map hx
  obtain ⟨hkeys, hvalues, hroom⟩ := hfits
  have hm := hholds.isMap _ (List.mem_of_getElem? hentry)
  have hs := hholds.tabled _ (List.mem_of_getElem? hentry)
  obtain ⟨hlength, hquiet⟩ := hroom p henv hm
  have hcall := call_outcome fuel h.linked hm hs hkeys hvalues (hlength _ hs.keys) hquiet
  have hmethod := methodCall_outcome ctx fuel henv (routineOf operation).name (argsOf operation)
  have hmap : s.maps[ref]? = some t.toFinmap := by
    rw [← hmaps, List.getElem?_map, hentry]
    rfl
  have hanswer : s.maps[ref]?.bind operation.onMap =
      (operation.run t).map fun result => (result.1, result.2.toFinmap) := by
    rw [hmap, ← Table.onMap_toFinmap]
    rfl
  have hset : ∀ left : MapTable, (entries.set ref (p, left)).map (·.2.toFinmap) =
      s.maps.set ref left.toFinmap := by
    intro left
    rw [List.map_set, hmaps]
  change (m.observe (methodCall ctx fuel m x _ _)).1 = (s.call x operation).1 ∧
    Represents ctx path kinds (m.observe (methodCall ctx fuel m x _ _)).2 (s.call x operation).2
  unfold Maps.call
  rw [href]
  dsimp only
  rw [hanswer]
  cases hrun : operation.run t with
  | some result =>
    obtain ⟨reply, left⟩ := result
    rw [hrun] at hcall
    obtain ⟨w', houtcome, hafter⟩ := hcall
    rw [observe_of_ok (hmethod.trans houtcome)]
    exact ⟨rfl, hafter.linked, entries.set ref (p, left), hholds.after hentry hafter, hset left⟩
  | none =>
    rw [hrun] at hcall
    obtain ⟨w', ⟨e, houtcome⟩, hafter⟩ := hcall
    rw [observe_of_raises ⟨e, hmethod.trans houtcome⟩]
    refine ⟨rfl, hafter.linked, entries.set ref (p, t), hholds.after hentry hafter, ?_⟩
    rw [hset]
    obtain ⟨hlt, hget⟩ := List.getElem?_eq_some_iff.mp hmap
    rw [← hget, List.set_getElem_self]
    rfl

/-- A step of a client that touches no elements changes no map. -/
theorem Represents.frame (h : Represents ctx path kinds m s) {w' : World S}
    (hu : Undisturbed path m.world w') :
    Represents ctx path kinds { m with world := w' } s := by
  obtain ⟨entries, hholds, hmaps⟩ := h.entries
  exact ⟨hu.linked h.linked, entries, hholds.frame hu.heap hu.instances, hmaps⟩

/-- The array behind a variable. -/
theorem Represents.isArray (h : Represents ctx path kinds m s) {y : String}
    (hy : kinds[y]? = some .array) :
    ∃ p t side, m.env[y]? = some (.struct (Side.id p side)) ∧ Tabled m.world.heap p t := by
  obtain ⟨entries, hholds, _⟩ := h.entries
  obtain ⟨value, henv, entry, hmem, side, rfl⟩ := hholds.bound y .array hy
  exact ⟨entry.1, entry.2, side, henv, hholds.tabled entry hmem⟩

theorem Undisturbed.of_heap {w : World S} (hreg : Registered w.types path) {heap : Heap}
    (ht : Touches w.heap heap []) : Undisturbed path w { w with heap := heap } :=
  ⟨ht, hreg, rfl, fun _ _ hd => hd⟩

/-- A call that leaves the elements behind a handle as they were touches nothing. -/
theorem Touches.of_same {heap heap' : Heap} {id handle : Nat} {elements : List RuntimeValue}
    (ha : IsArray heap id handle elements) (h : Leaves heap heap' handle elements) :
    Touches heap heap' [] := by
  have ht : Touches heap heap' [handle] := Touches.of_leaves h List.mem_cons_self
  refine ⟨ht.structs, ht.grows, fun i hi _ => ?_⟩
  by_cases hhandle : i = handle
  · obtain ⟨array, harray, helements⟩ := ha.elements
    rw [h.arrays, hhandle, harray]
    change (heap.arrays.modify handle _)[handle]? = _
    rw [List.getElem?_modify_eq, harray, ← helements]
    rfl
  · exact ht.others i hi (by rw [List.mem_singleton]; exact hhandle)

/-- An operation on an array of the machine that leaves the elements as they are. -/
theorem Represents.answers (h : Represents ctx path kinds m s) {id handle : Nat}
    {elements : List RuntimeValue} (hid : IsArray m.world.heap id handle elements)
    {expression : M S RuntimeValue} {operation : Base.ListHeap.Operation RuntimeValue}
    (ha : Array.Answers expression m.world handle elements operation)
    (hsame : ∀ reply left, operation.run elements = some (reply, left) → left = elements) :
    Represents ctx path kinds (m.observe expression).2 s := by
  unfold Array.Answers at ha
  cases hrun : operation.run elements with
  | some result =>
    obtain ⟨reply, left⟩ := result
    obtain rfl := hsame reply left hrun
    rw [hrun] at ha
    obtain ⟨heap, houtcome, hleaves⟩ := ha
    rw [observe_of_ok houtcome]
    exact h.frame (Undisturbed.of_heap h.linked.registered (Touches.of_same hid hleaves))
  | none =>
    rw [hrun] at ha
    obtain ⟨e, heap, houtcome, hleaves⟩ := ha
    rw [observe_of_raises ⟨e, houtcome⟩]
    exact h.frame (Undisturbed.of_heap h.linked.registered (Touches.of_same hid hleaves))

theorem Side.performs {heap : Heap} {p : Place} {t : MapTable} (hs : Tabled heap p t)
    (side : Side) (method : Method)
    (hop : ∀ value ∈ method.operation.operands, Keepable heap value) :
    Array.Performs method heap (side.id p) (side.handle p) (side.elements t) := by
  have hplain : ∀ heap', heap.structs <+: heap'.structs → ∀ value ∈ side.elements t,
      Typing.FFI.Plain heap' value := by
    intro heap' hsub value hvalue
    cases side with
    | keys => exact (hs.keyed value hvalue).plain heap'
    | values => exact ((hs.kept value hvalue).mono hsub).plain
  exact Array.performs_of_plain (side.isArray hs) method (fun value hv => (hop value hv).plain)
    hplain

theorem Represents.view (fuel : Nat) (h : Represents ctx path kinds m s) (y : String)
    {x : String} (hx : kinds[x]? = some .map) (side : Side) (type : TypeDescriptor) :
    Represents ctx path (kinds.assign y .array) (step ctx fuel m (.view y x side type)).2 s := by
  obtain ⟨entries, hholds, hmaps⟩ := h.entries
  obtain ⟨value, henv, ref, entry, _, hentry, rfl⟩ := hholds.bound x .map hx
  have hmem := List.mem_of_getElem? hentry
  obtain ⟨w', hcall, hundisturbed⟩ :=
    call_view ctx fuel h.linked.registered (hholds.isMap entry hmem) side
  have hview : (evaluate ctx (Machine.handlers ctx (fuel + 1)) (.own m.env)
      (StmtExecutor.markedInitializer (Machine.arrayType type) (callOn x side.routine.name []))
      m.world).outcome = .ok (.struct (side.id entry.1)) w' := by
    change (evalMethodCall ctx (Machine.handlers ctx (fuel + 1)) (.own m.env)
      { inferredType := some (Machine.arrayType type) } (.var {} x) side.routine.name
      (evalVariable (.own m.env) x) (pure []) m.world).outcome = _
    unfold evalMethodCall
    refine (Comp.bind_of_ok (Array.staticReceiver_of_bound henv _ m.world)).trans ?_
    exact (Comp.bind_of_ok (Array.evalVariable_of_bound henv m.world)).trans hcall
  have hstep : step ctx fuel m (.view y x side type) = _ := declare_of_ok (fuel + 1) hview
  rw [hstep]
  refine ⟨hundisturbed.linked h.linked, entries, ?_, hmaps⟩
  exact (hholds.frame hundisturbed.heap hundisturbed.instances).assign y (fun _ _ => rfl)
    ⟨entry, hmem, side, rfl⟩

theorem Represents.share (fuel : Nat) (h : Represents ctx path kinds m s) (z : String)
    {y : String} (hy : kinds[y]? = some .array) (type : TypeDescriptor) :
    Represents ctx path (kinds.assign z .array) (step ctx fuel m (.share z y type)).2 s := by
  obtain ⟨entries, hholds, hmaps⟩ := h.entries
  obtain ⟨value, henv, hdenotes⟩ := hholds.bound y .array hy
  have hstep : step ctx fuel m (.share z y type) = _ :=
    declare_of_ok (fuel + 1) (Array.evalVariable_of_bound henv m.world)
  rw [hstep]
  exact ⟨h.linked, entries, hholds.assign z (fun _ _ => rfl) hdenotes, hmaps⟩

/-- A command of a client that leaves the elements of the arrays as they are. -/
theorem Represents.client (fuel : Nat) (h : Represents ctx path kinds m s) {command : Command}
    (hown : command.own = false) (huses : command.Uses kinds)
    (hfits : Fits ctx fuel path m command) :
    Represents ctx path (command.kindsAfter kinds) (step ctx fuel m command).2 s := by
  cases command with
  | new x k v => cases hown
  | call x operation => cases hown
  | view y x side type => exact h.view fuel y huses side type
  | share z y type => exact h.share fuel z huses type
  | array y method =>
    obtain ⟨p, t, side, henv, hs⟩ := h.isArray huses
    obtain ⟨hoperands, hharmless⟩ := hfits
    have hid := side.isArray hs
    have hanswers := (Array.answers_hostCall h.linked.opened
      (side.performs hs method hoperands)).congr
        (Array.methodCall_outcome ctx (fuel + 1) h.linked.registered.arrays henv hid method)
    exact h.answers hid hanswers (hharmless _ _ _ henv hid)
  | search y search value =>
    obtain ⟨p, t, side, henv, hs⟩ := h.isArray huses
    have hid := side.isArray hs
    have houtcome : (methodCall ctx fuel m y search.name [value] m.world).outcome = _ :=
      Array.evalMethodCall_search h.linked.searchable h.linked.registered.arrays henv hid search
        (Keepable.plain hfits) (fuel + 1) rfl
    change Represents ctx path kinds (m.observe (methodCall ctx fuel m y search.name [value])).2 s
    rw [observe_of_ok houtcome]
    exact h.frame (Undisturbed.of_heap h.linked.registered
      (Touches.of_same hid (Leaves.received hid)))
  | index y index =>
    obtain ⟨p, t, side, henv, hs⟩ := h.isArray huses
    have hid := side.isArray hs
    have hanswers := (Array.answers_hostCall h.linked.opened
      (side.performs hs (.getIndex index) nofun)).congr
        (Array.index_outcome ctx (fuel + 1) h.linked.registered.arrays henv hid index)
    refine h.answers hid hanswers fun reply left hrun => ?_
    change (if 0 ≤ index.toInt then _ else none) = _ at hrun
    split at hrun
    · obtain ⟨_, _, hresult⟩ := Option.map_eq_some_iff.mp hrun
      exact (congrArg Prod.snd hresult).symm
    · cases hrun

/-- A command of a map is observed on the machine as on the finite maps. -/
theorem Represents.own (fuel : Nat) (h : Represents ctx path kinds m s) {command : Command}
    (hown : command.own = true) (huses : command.Uses kinds)
    (hfits : Fits ctx fuel path m command) :
    (step ctx fuel m command).1 = (s.step command).1 ∧
      Represents ctx path (command.kindsAfter kinds) (step ctx fuel m command).2
        (s.step command).2 := by
  cases command with
  | new x k v => exact h.new fuel huses
  | call x operation => exact h.call fuel huses hfits
  | view y x side type => cases hown
  | share z y type => cases hown
  | array y method => cases hown
  | search y search value => cases hown
  | index y index => cases hown

/-- The kinds of the variables after a program. -/
def kindsOf (kinds : StdMap Kind) (program : List Command) : StdMap Kind :=
  program.foldl Command.kindsAfter kinds

/-- Commands of maps and harmless commands of clients, in any order. -/
theorem Represents.run (fuel : Nat) {program : List Command} (h : Represents ctx path kinds m s)
    (hscoped : Scoped kinds program) (hfits : Admissible ctx fuel path m program) :
    Map.answers program (run ctx fuel m program).1 = (s.run (program.filter Command.own)).1 ∧
      Represents ctx path (kindsOf kinds program) (run ctx fuel m program).2
        (s.run (program.filter Command.own)).2 := by
  induction program generalizing m s kinds with
  | nil => exact ⟨rfl, h⟩
  | cons command program ih =>
    obtain ⟨huses, hrest⟩ := hscoped
    obtain ⟨hfit, hfits⟩ := hfits
    cases hown : command.own with
    | true =>
      obtain ⟨hobserved, hnext⟩ := h.own fuel hown huses hfit
      obtain ⟨hobservations, hlast⟩ := ih hnext hrest hfits
      rw [List.filter_cons_of_pos hown]
      refine ⟨?_, hlast⟩
      change (if command.own then (step ctx fuel m command).1 ::
        Map.answers program (run ctx fuel (step ctx fuel m command).2 program).1 else _) = _
      rw [if_pos hown, hobserved, hobservations]
      rfl
    | false =>
      have hnext := h.client fuel hown huses hfit
      obtain ⟨hobservations, hlast⟩ := ih hnext hrest hfits
      have hnot : ¬ command.own = true := by
        rw [hown]
        exact Bool.false_ne_true
      rw [List.filter_cons_of_neg hnot]
      refine ⟨?_, hlast⟩
      change (if command.own then _ else
        Map.answers program (run ctx fuel (step ctx fuel m command).2 program).1) = _
      rw [if_neg hnot, hobservations]

end Steps

end FalconLib.Libs.Map
