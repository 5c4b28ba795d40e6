import FalconLib.Dsl.HeapPolicy

/-!
# References stay live

A reference is live if its object is there. No run makes one that is not, if foreign code does not,
and no object that was there is lost, changes its type or loses a field.
-/

namespace FalconLib.Dsl.LiveReferences

open FalconLib.Base
open Isolation (Start)

/-! ## Live values -/

def Live (heap : Heap) : RuntimeValue → Prop
  | .tuple id => id < heap.tuples.length
  | .struct id => id < heap.structs.length
  | .array id => id < heap.arrays.length
  | _ => True

def LiveAll (heap : Heap) (values : List RuntimeValue) : Prop := ∀ v ∈ values, Live heap v

def LiveMap (heap : Heap) (map : ParameterMap) : Prop :=
  ∀ (name : String) v, map[name]? = some v → Live heap v

/-- Whatever an object holds is live. -/
structure LiveHeap (heap : Heap) : Prop where
  tuples : ∀ values ∈ heap.tuples, LiveAll heap values
  structs : ∀ object ∈ heap.structs, LiveMap heap object.fields
  arrays : ∀ array ∈ heap.arrays, LiveAll heap array.elements

/-- The same struct later: of the same type, with the fields it had and maybe others. -/
structure Continues (object object' : StructInstance) : Prop where
  typeName : object'.typeName = object.typeName
  fields : ∀ name : String, object.fields[name]?.isSome → object'.fields[name]?.isSome

/-- Objects are never lost, and tuples never change. -/
structure HeapGrows (heap heap' : Heap) : Prop where
  tuples : heap.tuples <+: heap'.tuples
  structs : ∀ (id : Nat) object, heap.structs[id]? = some object →
    ∃ object', heap'.structs[id]? = some object' ∧ Continues object object'
  arrays : ∀ (id : Nat) array, heap.arrays[id]? = some array →
    ∃ array', heap'.arrays[id]? = some array' ∧ array'.elementTypeName = array.elementTypeName

theorem length_le_of_getElem? {α β : Type} {l : List α} {l' : List β}
    (h : ∀ (i : Nat) a, l[i]? = some a → ∃ b, l'[i]? = some b) : l.length ≤ l'.length := by
  refine Nat.le_of_not_lt fun hlt => ?_
  obtain ⟨b, hb⟩ := h l'.length _ (List.getElem?_eq_getElem hlt)
  exact absurd (List.getElem?_eq_some_iff.mp hb).1 (Nat.lt_irrefl _)

theorem Continues.refl (object : StructInstance) : Continues object object := ⟨rfl, fun _ h => h⟩

theorem HeapGrows.refl (heap : Heap) : HeapGrows heap heap :=
  ⟨List.prefix_rfl, fun _ object h => ⟨object, h, .refl object⟩, fun _ array h => ⟨array, h, rfl⟩⟩

section Growth

variable {heap heap' : Heap}

theorem HeapGrows.trans {heap'' : Heap} (h : HeapGrows heap heap') (h' : HeapGrows heap' heap'') :
    HeapGrows heap heap'' := by
  refine ⟨h.tuples.trans h'.tuples, fun id object hid => ?_, fun id array hid => ?_⟩
  · obtain ⟨object', hid', hcontinues⟩ := h.structs id object hid
    obtain ⟨object'', hid'', hcontinues'⟩ := h'.structs id object' hid'
    exact ⟨object'', hid'', hcontinues'.typeName.trans hcontinues.typeName,
      fun name hname => hcontinues'.fields name (hcontinues.fields name hname)⟩
  · obtain ⟨array', hid', htype⟩ := h.arrays id array hid
    obtain ⟨array'', hid'', htype'⟩ := h'.arrays id array' hid'
    exact ⟨array'', hid'', htype'.trans htype⟩

theorem HeapGrows.structs_length (h : HeapGrows heap heap') :
    heap.structs.length ≤ heap'.structs.length :=
  length_le_of_getElem? fun i a hi =>
    let ⟨object', hobject', _⟩ := h.structs i a hi
    ⟨object', hobject'⟩

theorem HeapGrows.arrays_length (h : HeapGrows heap heap') :
    heap.arrays.length ≤ heap'.arrays.length :=
  length_le_of_getElem? fun i a hi =>
    let ⟨array', harray', _⟩ := h.arrays i a hi
    ⟨array', harray'⟩

theorem Live.mono {v : RuntimeValue} (hv : Live heap v) (h : HeapGrows heap heap') :
    Live heap' v := by
  cases v with
  | tuple id => exact Nat.lt_of_lt_of_le hv h.tuples.length_le
  | struct id => exact Nat.lt_of_lt_of_le hv h.structs_length
  | array id => exact Nat.lt_of_lt_of_le hv h.arrays_length
  | _ => trivial

theorem LiveAll.mono {values : List RuntimeValue} (hv : LiveAll heap values)
    (h : HeapGrows heap heap') : LiveAll heap' values := fun v hmem => (hv v hmem).mono h

theorem LiveMap.mono {map : ParameterMap} (hmap : LiveMap heap map) (h : HeapGrows heap heap') :
    LiveMap heap' map := fun name v hname => (hmap name v hname).mono h

theorem live_of_isScalar {v : RuntimeValue} (h : v.IsScalar) : Live heap v := by
  cases v <;> trivial

theorem liveMap_empty : LiveMap heap ∅ := fun _ _ h => nomatch h

/-! ## The writes of the interpreter -/

theorem heapGrows_allocStruct (object : StructInstance) :
    HeapGrows heap (heap.allocStruct object).2 := by
  refine ⟨List.prefix_rfl, fun id old hid => ?_, fun _ array h => ⟨array, h, rfl⟩⟩
  exact ⟨old, getElem?_of_isPrefix (List.prefix_append _ _) hid, .refl old⟩

theorem heapGrows_allocTuple (values : List RuntimeValue) :
    HeapGrows heap (heap.allocTuple values).2 :=
  ⟨List.prefix_append _ _, fun _ object h => ⟨object, h, .refl object⟩,
    fun _ array h => ⟨array, h, rfl⟩⟩

theorem heapGrows_setField (id : Nat) (name : String) (value : RuntimeValue) :
    HeapGrows heap (heap.setField id name value) := by
  refine ⟨List.prefix_rfl, fun i object hi => ?_, fun _ array h => ⟨array, h, rfl⟩⟩
  by_cases hid : id = i
  · subst hid
    refine ⟨{ object with fields := object.fields.assign name value }, ?_, rfl, fun n hn => ?_⟩
    · show (heap.structs.modify id _)[id]? = _
      rw [List.getElem?_modify_eq, hi]
      rfl
    · rw [StdMap.getElem?_assign]
      split
      · rfl
      · exact hn
  · refine ⟨object, ?_, .refl object⟩
    show (heap.structs.modify id _)[i]? = _
    rw [List.getElem?_modify_ne _ _ hid, hi]

theorem LiveHeap.mono_append (h : LiveHeap heap) (hgrows : HeapGrows heap heap')
    {tuples : List (List RuntimeValue)} {structs : List StructInstance}
    (htuples : heap'.tuples = heap.tuples ++ tuples) (hstructs : heap'.structs = heap.structs ++ structs)
    (harrays : heap'.arrays = heap.arrays) (hnewTuples : ∀ values ∈ tuples, LiveAll heap' values)
    (hnewStructs : ∀ object ∈ structs, LiveMap heap' object.fields) : LiveHeap heap' := by
  constructor
  · rw [htuples]
    refine fun values hvalues => (List.mem_append.mp hvalues).elim (fun hold => ?_) (hnewTuples values)
    exact (h.tuples values hold).mono hgrows
  · rw [hstructs]
    refine fun object hobject => (List.mem_append.mp hobject).elim (fun hold => ?_)
      (hnewStructs object)
    exact (h.structs object hold).mono hgrows
  · rw [harrays]
    exact fun array harray => (h.arrays array harray).mono hgrows

theorem LiveHeap.allocStruct (h : LiveHeap heap) {object : StructInstance}
    (hempty : object.fields = ∅) : LiveHeap (heap.allocStruct object).2 := by
  refine h.mono_append (heapGrows_allocStruct _) (List.append_nil _).symm rfl rfl
    (fun _ hv => nomatch hv) fun made hmade => ?_
  rw [List.mem_singleton.mp hmade, hempty]
  exact liveMap_empty

theorem LiveHeap.allocTuple (h : LiveHeap heap) {values : List RuntimeValue}
    (hv : LiveAll heap values) : LiveHeap (heap.allocTuple values).2 := by
  refine h.mono_append (heapGrows_allocTuple _) rfl (List.append_nil _).symm rfl
    (fun tuple htuple => ?_) (fun _ hobject => nomatch hobject)
  rw [List.mem_singleton.mp htuple]
  exact hv.mono (heapGrows_allocTuple _)

theorem LiveHeap.setField (h : LiveHeap heap) (id : Nat) (name : String) {value : RuntimeValue}
    (hv : Live heap value) : LiveHeap (heap.setField id name value) := by
  have hgrows : HeapGrows heap (heap.setField id name value) := heapGrows_setField id name value
  refine ⟨fun values hvalues => (h.tuples values hvalues).mono hgrows, fun object hobject => ?_,
    fun array harray => (h.arrays array harray).mono hgrows⟩
  obtain ⟨i, hi⟩ := List.mem_iff_getElem?.mp hobject
  change (heap.structs.modify id _)[i]? = _ at hi
  by_cases hid : id = i
  · subst hid
    rw [List.getElem?_modify_eq] at hi
    obtain ⟨old, hold, rfl⟩ := Option.map_eq_some_iff.mp hi
    intro n v hn
    dsimp only at hn
    rw [StdMap.getElem?_assign] at hn
    split at hn
    · cases hn
      exact hv.mono hgrows
    · exact (h.structs old (List.mem_of_getElem? hold) n v hn).mono hgrows
  · rw [List.getElem?_modify_ne _ _ hid] at hi
    exact (h.structs object (List.mem_of_getElem? hi)).mono hgrows

end Growth

/-! ## The policy -/

/-- Only live values are held. -/
def live : HeapPolicy where
  Valid := LiveHeap
  Grows := HeapGrows
  refl := .refl
  trans := .trans
  Allowed v heap := Live heap v
  Handle _ _ := True
  allowed_mono h hv := hv.mono h
  handle_mono _ h := h
  scalar := live_of_isScalar
  field h _ hfield := by
    obtain ⟨object, hobject, hvalue⟩ := Option.bind_eq_some_iff.mp hfield
    exact h.structs object (List.mem_of_getElem? hobject) _ _ hvalue
  component h _ hvalues hv := h.tuples _ (List.mem_of_getElem? hvalues) _ hv
  element h _ harray hv := h.arrays _ (List.mem_of_getElem? harray) _ hv
  handle _ _ _ _ := trivial
  fieldSet h _ hv := ⟨h.setField _ _ hv, heapGrows_setField _ _ _⟩
  structMade object h hempty _ heq := by
    subst heq
    refine ⟨⟨h.allocStruct hempty, heapGrows_allocStruct _⟩, ?_⟩
    show _ < (_ ++ [_]).length
    simp
  tupleMade h hv heq := by
    subst heq
    refine ⟨⟨h.allocTuple hv, heapGrows_allocTuple _⟩, ?_⟩
    show _ < (_ ++ [_]).length
    simp

/-- In every session with live inputs all references stay live, no object is lost or changes its
type, and what a run returns is live. -/
theorem session_live {S : Type} {ctx : Context S} {StoreOk : Heap → S → Prop}
    (hhost : live.Respects ctx.host StoreOk) {w w' : World S} (hheap : LiveHeap w.heap)
    (hvariables : LiveMap w.heap w.memberVariables) (hstore : StoreOk w.heap w.store)
    (h : Session ctx (fun inputs w => LiveMap w.heap inputs) w w') :
    LiveHeap w'.heap ∧ LiveMap w'.heap w'.memberVariables ∧ HeapGrows w.heap w'.heap ∧
      ∀ (start : Start) fuel values u, LiveMap w'.heap (startInputs start) →
        (start.run ctx fuel w').outcome = .ok values u → LiveAll u.heap values := by
  have hvalid : live.ValidWorld StoreOk w := ⟨hheap, hvariables, hstore⟩
  obtain ⟨⟨hw', hgrows⟩, hvalues⟩ := live.session_keeps hhost hvalid h
  exact ⟨hw'.heap, hw'.memberVariables, hgrows, hvalues⟩

theorem liveHeap_twoCells : LiveHeap twoCells.heap := by
  have hfields : ∀ object ∈ twoCells.heap.structs, object.fields = ∅ := by
    simp [twoCells]
  constructor
  · intro _ h
    cases h
  · intro object hobject
    rw [hfields object hobject]
    exact liveMap_empty
  · intro _ h
    cases h

theorem live_first : Live twoCells.heap (.struct 0) := Nat.zero_lt_succ _

theorem session_live_poke :
    ∃ w', (pokeFirst.run pokeContext 5 twoCells).outcome.state? = some w' ∧
      HeapGrows twoCells.heap w'.heap := by
  refine ⟨_, rfl, ?_⟩
  have hsession : Session pokeContext (fun inputs w => LiveMap w.heap inputs) twoCells _ :=
    .run .start pokeFirst 5 (of_pokeFirst live_first) rfl
  have h := session_live live.respects_unlinked liveHeap_twoCells (fun _ _ hname => nomatch hname)
    trivial hsession
  exact h.2.2.1

end FalconLib.Dsl.LiveReferences
