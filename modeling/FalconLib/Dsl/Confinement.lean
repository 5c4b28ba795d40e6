import FalconLib.Base.Arena
import FalconLib.Dsl.HeapPolicy

/-!
# What a run cannot reach

A region of the heap that nothing in it points out of. Runs whose inputs are in the region leave the
rest of the heap as it is, if foreign code does; and what can be reached from the inputs and the
variables is such a region.
-/

namespace FalconLib.Dsl.Confinement

open FalconLib.Base
open Isolation (Start)

/-- Objects of the heap and of its later stages, all new ones among them, and the native objects
that its structs may stand for. -/
structure Region (base : Heap) where
  tuples : Nat → Prop
  structs : Nat → Prop
  arrays : Nat → Prop
  handles : Nat → Prop
  newTuples : ∀ id, base.tuples.length ≤ id → tuples id
  newStructs : ∀ id, base.structs.length ≤ id → structs id
  newArrays : ∀ id, base.arrays.length ≤ id → arrays id

namespace Region

variable {base : Heap} (R : Region base)

def Inside : RuntimeValue → Prop
  | .tuple id => R.tuples id
  | .struct id => R.structs id
  | .array id => R.arrays id
  | _ => True

def InsideAll (values : List RuntimeValue) : Prop := ∀ v ∈ values, R.Inside v

def InsideMap (map : ParameterMap) : Prop :=
  ∀ (name : String) v, map[name]? = some v → R.Inside v

structure InsideObject (object : StructInstance) : Prop where
  fields : R.InsideMap object.fields
  handle : ∀ n, object.nativeHandle = some n → R.handles n

/-- Nothing points out of the region, and the rest of the heap is as it was. -/
structure Confined (heap : Heap) : Prop where
  tuples : Arena base.tuples R.tuples R.InsideAll heap.tuples
  structs : Arena base.structs R.structs R.InsideObject heap.structs
  arrays : Arena base.arrays R.arrays (fun array => R.InsideAll array.elements) heap.arrays

variable {R}

theorem inside_of_isScalar {v : RuntimeValue} (h : v.IsScalar) : R.Inside v := by
  cases v <;> trivial

theorem InsideObject.assign {object : StructInstance} (h : R.InsideObject object) (name : String)
    {v : RuntimeValue} (hv : R.Inside v) :
    R.InsideObject { object with fields := object.fields.assign name v } := by
  refine ⟨fun other found hother => ?_, h.handle⟩
  dsimp only at hother
  rw [StdMap.getElem?_assign] at hother
  split at hother
  · cases hother
    exact hv
  · exact h.fields other found hother

theorem Confined.setField {heap : Heap} (h : R.Confined heap) {id : Nat} (hid : R.structs id)
    (name : String) {v : RuntimeValue} (hv : R.Inside v) : R.Confined (heap.setField id name v) :=
  ⟨h.tuples, h.structs.modify hid fun object hobject =>
    (h.structs.closed id object hid hobject).assign name hv, h.arrays⟩

end Region

/-- Only what is in the region is held. -/
def confined {base : Heap} (R : Region base) : HeapPolicy where
  Valid := R.Confined
  Grows _ _ := True
  refl _ := trivial
  trans _ _ := trivial
  Allowed v _ := R.Inside v
  Handle n _ := R.handles n
  allowed_mono _ h := h
  handle_mono _ h := h
  scalar := Region.inside_of_isScalar
  field h hid hfield := by
    obtain ⟨object, hobject, hvalue⟩ := Option.bind_eq_some_iff.mp hfield
    exact (h.structs.closed _ object hid hobject).fields _ _ hvalue
  component h hid hvalues hv := h.tuples.closed _ _ hid hvalues _ hv
  element h hid harray hv := h.arrays.closed _ _ hid harray _ hv
  handle h hid hobject := (h.structs.closed _ _ hid hobject).handle _
  fieldSet h hid hv := ⟨h.setField hid _ hv, trivial⟩
  structMade object h hempty hhandle heq := by
    subst heq
    have hobject : R.InsideObject object := by
      refine ⟨fun name v hname => ?_, hhandle⟩
      rw [hempty] at hname
      cases hname
    exact ⟨⟨⟨h.tuples, h.structs.add R.newStructs hobject, h.arrays⟩, trivial⟩,
      h.structs.inside_length R.newStructs⟩
  tupleMade h hv heq := by
    subst heq
    exact ⟨⟨⟨h.tuples.add R.newTuples hv, h.structs, h.arrays⟩, trivial⟩,
      h.tuples.inside_length R.newTuples⟩

/-! ## What can be reached -/

/-- From the roots, through tuples, fields and elements. A native handle leads to the array of that
position, as the array library has it. -/
inductive Reachable (heap : Heap) (roots : RuntimeValue → Prop) : RuntimeValue → Prop where
  | root {v : RuntimeValue} (h : roots v) : Reachable heap roots v
  | component {id : Nat} {values : List RuntimeValue} {v : RuntimeValue}
      (before : Reachable heap roots (.tuple id)) (found : heap.tuples[id]? = some values)
      (mem : v ∈ values) : Reachable heap roots v
  | field {id : Nat} {object : StructInstance} {name : String} {v : RuntimeValue}
      (before : Reachable heap roots (.struct id)) (found : heap.structs[id]? = some object)
      (value : object.fields[name]? = some v) : Reachable heap roots v
  | element {id : Nat} {array : ArrayValue} {v : RuntimeValue}
      (before : Reachable heap roots (.array id)) (found : heap.arrays[id]? = some array)
      (mem : v ∈ array.elements) : Reachable heap roots v
  | handle {id n : Nat} {object : StructInstance} (before : Reachable heap roots (.struct id))
      (found : heap.structs[id]? = some object) (native : object.nativeHandle = some n) :
      Reachable heap roots (.array n)

section Reachable

variable (heap : Heap) (roots : RuntimeValue → Prop)

/-- What can be reached, and what there will be. -/
def reachable : Region heap where
  tuples id := Reachable heap roots (.tuple id) ∨ heap.tuples.length ≤ id
  structs id := Reachable heap roots (.struct id) ∨ heap.structs.length ≤ id
  arrays id := Reachable heap roots (.array id) ∨ heap.arrays.length ≤ id
  handles n := Reachable heap roots (.array n) ∨ heap.arrays.length ≤ n
  newTuples _ := .inr
  newStructs _ := .inr
  newArrays _ := .inr

variable {heap roots}

theorem Reachable.inside {v : RuntimeValue} (h : Reachable heap roots v) :
    (reachable heap roots).Inside v := by
  cases v with
  | tuple id => exact .inl h
  | struct id => exact .inl h
  | array id => exact .inl h
  | _ => trivial

/-- What is found in the heap is not new. -/
theorem reachable_of_inside {α : Type} {l : List α} {id : Nat} {v : RuntimeValue} {a : α}
    (h : Reachable heap roots v ∨ l.length ≤ id) (hid : l[id]? = some a) :
    Reachable heap roots v :=
  h.resolve_right (Nat.not_le_of_lt (List.getElem?_eq_some_iff.mp hid).1)

theorem confined_reachable : (reachable heap roots).Confined heap where
  tuples := .start fun _ _ hid hvalues _ hv =>
    ((reachable_of_inside hid hvalues).component hvalues hv).inside
  structs := .start fun _ _ hid hobject =>
    { fields := fun _ _ hvalue => ((reachable_of_inside hid hobject).field hobject hvalue).inside
      handle := fun _ hnative => .inl ((reachable_of_inside hid hobject).handle hobject hnative) }
  arrays := .start fun _ _ hid harray _ hv =>
    ((reachable_of_inside hid harray).element harray hv).inside

end Reachable

/-- In a session that starts from the roots, an object that cannot be reached from them stays as it
is, and runs return nothing but what could be reached and what is new. -/
theorem unreachable_unchanged {S : Type} {ctx : Context S} {StoreOk : Heap → S → Prop}
    {w w' : World S} {roots : RuntimeValue → Prop}
    (hhost : (confined (reachable w.heap roots)).Respects ctx.host StoreOk)
    (hvariables : ∀ (name : String) v, w.memberVariables[name]? = some v → roots v)
    (hstore : StoreOk w.heap w.store)
    (h : Session ctx (fun inputs _ => (reachable w.heap roots).InsideMap inputs) w w') :
    (∀ id < w.heap.structs.length, ¬ Reachable w.heap roots (.struct id) →
        w'.heap.structs[id]? = w.heap.structs[id]?) ∧
      (∀ id < w.heap.arrays.length, ¬ Reachable w.heap roots (.array id) →
        w'.heap.arrays[id]? = w.heap.arrays[id]?) ∧
      ∀ (start : Start) fuel values u, (reachable w.heap roots).InsideMap (startInputs start) →
        (start.run ctx fuel w').outcome = .ok values u →
          (reachable w.heap roots).InsideAll values := by
  have hvalid : (confined (reachable w.heap roots)).ValidWorld StoreOk w :=
    ⟨confined_reachable, fun name v hname => (Reachable.root (hvariables name v hname)).inside,
      hstore⟩
  obtain ⟨⟨hw', -⟩, hvalues⟩ := HeapPolicy.session_keeps hhost hvalid h
  refine ⟨fun id hid hnot => hw'.heap.structs.kept id fun hinside => ?_,
    fun id hid hnot => hw'.heap.arrays.kept id fun hinside => ?_, hvalues⟩
  · exact hinside.elim hnot (Nat.not_le_of_lt hid)
  · exact hinside.elim hnot (Nat.not_le_of_lt hid)

theorem not_reachable_second :
    ¬ Reachable twoCells.heap (· = .struct 0) (.struct 1) := by
  have hfirst : ∀ v, Reachable twoCells.heap (· = .struct 0) v → v = .struct 0 := by
    intro v h
    induction h with
    | root h => exact h
    | component _ found => cases found
    | field _ found value ih =>
      cases ih
      cases found
      cases value
    | element _ found => cases found
    | handle _ found native ih =>
      cases ih
      cases found
      cases native
  intro h
  cases hfirst _ h

/-- The second cell cannot be reached from the first. -/
theorem unreachable_unchanged_second :
    ∃ w', (pokeFirst.run pokeContext 5 twoCells).outcome.state? = some w' ∧
      w'.heap.structs[1]? = twoCells.heap.structs[1]? := by
  refine ⟨_, rfl, ?_⟩
  have hsession : Session pokeContext
      (fun inputs _ => (reachable twoCells.heap (· = .struct 0)).InsideMap inputs) twoCells _ :=
    .run .start pokeFirst 5 (of_pokeFirst (.inl (.root rfl))) rfl
  have h := unreachable_unchanged HeapPolicy.respects_unlinked (fun _ _ hname => nomatch hname)
    trivial hsession
  exact h.1 1 (by decide) not_reachable_second

end FalconLib.Dsl.Confinement
