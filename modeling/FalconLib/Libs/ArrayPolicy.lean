import FalconLib.Dsl.Confinement
import FalconLib.Dsl.LiveReferences
import FalconLib.Libs.ArrayRefinement
import FalconLib.Typing.BoundaryPolicy

/-!
# The array library keeps policies

If a policy lets the wrapper at the elements behind a handle, every function of the wrapper keeps
it. References stay live through the library.
-/

namespace FalconLib.Libs.Array

open FalconLib.Base
open FalconLib.Dsl
open FalconLib.Typing.FFI

/-- A policy under which a handle may be an array of the wrapper. -/
structure ArrayPolicy extends HeapPolicy where
  stored : ∀ {heap handle array v}, Valid heap → Handle handle heap →
    heap.arrays[handle]? = some array → v ∈ array.elements → Allowed v heap
  elementsSet : ∀ {heap heap' handle elements}, Valid heap → Handle handle heap →
    (∀ v ∈ elements, Allowed v heap) →
    heap' = { heap with arrays := heap.arrays.modify handle fun array =>
      { array with elements := elements } } → Valid heap' ∧ Grows heap heap'
  arrayMade : ∀ {heap heap'}, Valid heap →
    heap' = { heap with arrays := heap.arrays ++ [{ elementTypeName := "", elements := [] }] } →
    (Valid heap' ∧ Grows heap heap') ∧ Handle heap.arrays.length heap'

variable {A : ArrayPolicy} {heap : Heap} {entries : List FalconParamEntry}
  {slots : List FalconResultSlot}

/-- Nothing is said of the value. -/
abbrev anything {α : Type} : α → Heap → Prop := fun _ _ => True

/-! ## Helpers of the wrapper -/

theorem handle_of_getOpaque {key : String} (h : AllowedEntries A.toHeapPolicy entries heap) :
    Marshals A.toHeapPolicy (getOpaque entries key) heap A.Handle := by
  unfold getOpaque
  dsimp only
  split
  · rename_i handle hfound
    obtain ⟨entry, hentry, hptr⟩ := List.exists_of_findSome?_eq_some hfound
    refine Growth.Keeps.pure ?_
    have hallowed := h entry hentry
    split at hptr
    · rename_i typeName ptr hvalue
      split at hptr
      · cases hptr
        rw [hvalue] at hallowed
        exact hallowed
      · cases hptr
    · cases hptr
  · exact Growth.Keeps.halt _
  · exact Growth.Keeps.throw _

/-- The array behind the handle, and its elements. -/
def Found (A : ArrayPolicy) (found : Nat × List RuntimeValue) (heap : Heap) : Prop :=
  A.Handle found.1 heap ∧ A.AllowedAll found.2 heap

theorem Found.mono {found : Nat × List RuntimeValue} {heap' : Heap} (h : Found A found heap)
    (hgrows : A.Grows heap heap') : Found A found heap' :=
  ⟨A.handle_mono hgrows h.1, fun v hv => A.allowed_mono hgrows (h.2 v hv)⟩

theorem marshals_getArray (h : AllowedEntries A.toHeapPolicy entries heap) :
    Marshals A.toHeapPolicy (getArray entries) heap (Found A) := by
  refine (handle_of_getOpaque h).bind fun handle heap' _ hhandle => ?_
  refine Growth.Keeps.gets_bind fun hvalid => ?_
  split
  · rename_i array harray
    exact Growth.Keeps.pure ⟨hhandle, fun v hv => A.stored hvalid hhandle harray hv⟩
  · exact Growth.Keeps.halt _

theorem marshals_setElements {handle : Nat} {elements : List RuntimeValue}
    (hhandle : A.Handle handle heap) (helements : A.AllowedAll elements heap) :
    Marshals A.toHeapPolicy (setElements handle elements) heap anything :=
  Growth.Keeps.modify fun hvalid => ⟨A.elementsSet hvalid hhandle helements rfl, trivial⟩

theorem marshals_paramAt {params : ParameterMap} (h : A.AllowedMap params heap) (key : String) :
    Marshals A.toHeapPolicy (paramAt params key) heap A.Allowed := by
  unfold paramAt
  split
  · rename_i value hvalue
    exact Growth.Keeps.pure (h key value hvalue)
  · exact Growth.Keeps.throw _

theorem marshals_indexAt (params : ParameterMap) :
    Marshals A.toHeapPolicy (indexAt params) heap anything := by
  have hparam : Marshals A.toHeapPolicy (paramAt params "index") heap anything := by
    unfold paramAt
    split
    · exact Growth.Keeps.pure trivial
    · exact Growth.Keeps.throw _
  refine hparam.bind fun value heap' _ _ => ?_
  split
  · exact Growth.Keeps.pure trivial
  · exact Growth.Keeps.throw _

theorem marshals_unpack (h : AllowedEntries A.toHeapPolicy entries heap) :
    Marshals A.toHeapPolicy (unpackParams entries ∅) heap A.AllowedMap :=
  marshals_unpackParams entries h fun _ _ hname => nomatch hname

theorem allowedSlots_set (h : AllowedSlots A.toHeapPolicy slots heap) {value : Tagged}
    (hvalue : AllowedTagged A.toHeapPolicy value heap) (i : Nat) :
    AllowedSlots A.toHeapPolicy (slots.set i value) heap := by
  intro slot hslot
  obtain hold | rfl := List.mem_or_eq_of_mem_set hslot
  · exact h slot hold
  · exact hvalue

theorem marshals_nilResult (h : AllowedSlots A.toHeapPolicy slots heap) :
    Marshals A.toHeapPolicy (nilResult slots) heap (AllowedBuffer A.toHeapPolicy) := by
  have hnil : AllowedTagged A.toHeapPolicy .nil heap := trivial
  exact Growth.Keeps.pure (allowedSlots_set h hnil 0)

theorem marshals_packOne {value : RuntimeValue} (hvalue : A.Allowed value heap)
    (h : AllowedSlots A.toHeapPolicy slots heap) :
    Marshals A.toHeapPolicy (packOne value slots) heap (AllowedBuffer A.toHeapPolicy) :=
  marshals_packResults (List.forall_mem_singleton.mpr hvalue) h 16

/-! ## The functions -/

theorem new_keeps : KeepsPolicy A.toHeapPolicy new := by
  intro entries slots count heap _ hslots
  refine Growth.Keeps.gets_bind fun hvalid => ?_
  refine Growth.Keeps.bind (p := fun _ heap' => A.Handle heap.arrays.length heap')
    (Growth.Keeps.modify fun _ => A.arrayMade hvalid rfl) fun _ heap' hgrows hhandle => ?_
  have hslot : AllowedTagged A.toHeapPolicy
      (.opaqueVal "Array" (.void heap.arrays.length)) heap' := hhandle
  exact Growth.Keeps.pure (allowedSlots_set (hslots.mono hgrows) hslot 0)

theorem size_keeps : KeepsPolicy A.toHeapPolicy size := by
  intro entries slots count heap hentries hslots
  refine (marshals_getArray hentries).bind fun found heap' hgrows _ => ?_
  exact marshals_packOne (A.scalar trivial) (hslots.mono hgrows)

theorem isEmpty_keeps : KeepsPolicy A.toHeapPolicy isEmpty := by
  intro entries slots count heap hentries hslots
  refine (marshals_getArray hentries).bind fun found heap' hgrows _ => ?_
  exact marshals_packOne (A.scalar trivial) (hslots.mono hgrows)

theorem getIndex_keeps : KeepsPolicy A.toHeapPolicy getIndex := by
  intro entries slots count heap hentries hslots
  refine (marshals_unpack hentries).bind fun params t ht _ => ?_
  refine (marshals_getArray (hentries.mono ht)).bind fun found u hu hfound => ?_
  refine (marshals_indexAt params).bind fun index x hx _ => ?_
  split
  · exact Growth.Keeps.throw _
  · split
    · rename_i value hvalue
      have helement := (hfound.mono hx).2 value (List.mem_of_getElem? hvalue)
      exact marshals_packOne helement (hslots.mono (A.trans ht (A.trans hu hx)))
    · exact Growth.Keeps.throw _

theorem changeAt_keeps (method : String) (past : Nat)
    {change : ParameterMap → Nat → List RuntimeValue → Marshal (List RuntimeValue)}
    (hchange : ∀ {params i elements heap}, A.AllowedMap params heap → A.AllowedAll elements heap →
      Marshals A.toHeapPolicy (change params i elements) heap A.AllowedAll) :
    KeepsPolicy A.toHeapPolicy (changeAt method past change) := by
  intro entries slots count heap hentries hslots
  refine (marshals_unpack hentries).bind fun params t ht hparams => ?_
  refine (marshals_getArray (hentries.mono ht)).bind fun found u hu hfound => ?_
  refine (marshals_indexAt params).bind fun index x hx _ => ?_
  split
  · exact Growth.Keeps.throw _
  · have hfound' := hfound.mono hx
    refine (hchange (hparams.mono (A.trans hu hx)) hfound'.2).bind fun left y hy hleft => ?_
    refine (marshals_setElements (A.handle_mono hy hfound'.1) hleft).bind fun _ z hz _ => ?_
    exact marshals_nilResult (hslots.mono (A.trans ht (A.trans hu (A.trans hx (A.trans hy hz)))))

theorem setIndex_keeps : KeepsPolicy A.toHeapPolicy setIndex := by
  refine changeAt_keeps _ _ fun hparams helements => ?_
  refine (marshals_paramAt hparams "value").bind fun value t ht hvalue => Growth.Keeps.pure ?_
  intro v hv
  obtain hold | rfl := List.mem_or_eq_of_mem_set hv
  · exact A.allowed_mono ht (helements v hold)
  · exact hvalue

theorem insert_keeps : KeepsPolicy A.toHeapPolicy insert := by
  refine changeAt_keeps _ _ fun hparams helements => ?_
  refine (marshals_paramAt hparams "value").bind fun value t ht hvalue => Growth.Keeps.pure ?_
  intro v hv
  obtain rfl | hold := List.eq_or_mem_of_mem_insertIdx hv
  · exact hvalue
  · exact A.allowed_mono ht (helements v hold)

theorem erase_keeps : KeepsPolicy A.toHeapPolicy erase :=
  changeAt_keeps _ _ fun _ helements =>
    Growth.Keeps.pure fun v hv => helements v (List.mem_of_mem_eraseIdx hv)

theorem pushBack_keeps : KeepsPolicy A.toHeapPolicy pushBack := by
  intro entries slots count heap hentries hslots
  refine (marshals_unpack hentries).bind fun params t ht hparams => ?_
  refine (marshals_getArray (hentries.mono ht)).bind fun found u hu hfound => ?_
  refine (marshals_paramAt (hparams.mono hu) "value").bind fun value x hx hvalue => ?_
  have hfound' := hfound.mono hx
  have hall : A.AllowedAll (found.2 ++ [value]) x := fun v hv =>
    (List.mem_append.mp hv).elim (hfound'.2 v) fun hnew => List.mem_singleton.mp hnew ▸ hvalue
  refine (marshals_setElements hfound'.1 hall).bind fun _ y hy _ => ?_
  exact marshals_nilResult (hslots.mono (A.trans ht (A.trans hu (A.trans hx hy))))

theorem popBack_keeps : KeepsPolicy A.toHeapPolicy popBack := by
  intro entries slots count heap hentries hslots
  refine (marshals_getArray hentries).bind fun found t ht hfound => ?_
  dsimp only
  split
  · exact Growth.Keeps.throw _
  · rename_i value hvalue
    have hleft : A.AllowedAll found.2.dropLast t :=
      fun v hv => hfound.2 v (List.dropLast_subset _ hv)
    refine (marshals_setElements hfound.1 hleft).bind fun _ u hu _ => ?_
    have hlast := A.allowed_mono hu (hfound.2 value (List.mem_of_getLast? hvalue))
    exact marshals_packOne hlast (hslots.mono (A.trans ht hu))

theorem clear_keeps : KeepsPolicy A.toHeapPolicy clear := by
  intro entries slots count heap hentries hslots
  refine (marshals_getArray hentries).bind fun found t ht hfound => ?_
  have hnone : A.AllowedAll [] t := List.forall_mem_nil _
  refine (marshals_setElements hfound.1 hnone).bind fun _ u hu _ => ?_
  exact marshals_nilResult (hslots.mono (A.trans ht hu))

theorem functions_keep : ∀ entry ∈ functions, KeepsPolicy A.toHeapPolicy entry.2 := by
  simp only [functions, List.forall_mem_cons]
  exact ⟨new_keeps, size_keeps, isEmpty_keeps, getIndex_keeps, setIndex_keeps, pushBack_keeps,
    popBack_keeps, insert_keeps, erase_keeps, clear_keeps, List.forall_mem_nil _⟩

/-! ## The library in the engine -/

/-- Nothing is kept beside the heap. -/
abbrev noStore : Heap → Unit → Prop := fun _ _ => True

theorem answers_callForeign {function : FalconFFIFunc} (h : KeepsPolicy A.toHeapPolicy function)
    {params : ParameterMap} (hvalid : A.Valid heap) (hparams : A.AllowedMap params heap) :
    A.Answers noStore heap
      (match (callForeign function params heap).outcome with
      | .ok values heap => (.ok values, heap, ())
      | .throw e heap => (.error e, heap, ())
      | .halt _ => (.error (.other "undefined behaviour"), heap, ())) := by
  have hends := marshals_callForeign h hparams hvalid
  split
  · rename_i values heap' ho
    rw [ho] at hends
    refine ⟨hends.1.1, hends.1.2, trivial, fun values' heq => ?_⟩
    cases heq
    exact hends.2
  · rename_i e heap' ho
    rw [ho] at hends
    exact .thrown hends.1 hends.2 trivial e
  · exact .thrown hvalid (A.refl heap) trivial _

theorem respects_host : A.Respects host noStore where
  mono _ _ := trivial
  call hvalid _ _ := .thrown hvalid (A.refl _) trivial _
  callMethod {symbol object params heap store} hvalid _ _ hparams := by
    unfold host
    dsimp only
    split
    · rename_i function hfound
      obtain ⟨before, after, heq, -⟩ := List.lookup_eq_some_iff.mp hfound
      have hmem : (symbol.symbol, function) ∈ functions := by
        rw [heq]
        exact List.mem_append_right _ List.mem_cons_self
      exact answers_callForeign (functions_keep _ hmem) hvalid hparams
    · exact .thrown hvalid (A.refl _) trivial _

/-! ## References -/

open LiveReferences

theorem heapGrows_arrays {heap heap' : Heap} (htuples : heap'.tuples = heap.tuples)
    (hstructs : heap'.structs = heap.structs)
    (harrays : ∀ (id : Nat) array, heap.arrays[id]? = some array →
      ∃ array', heap'.arrays[id]? = some array' ∧
        array'.elementTypeName = array.elementTypeName) : HeapGrows heap heap' := by
  refine ⟨htuples ▸ List.prefix_rfl, fun id object hid => ?_, harrays⟩
  exact ⟨object, hstructs ▸ hid, .refl object⟩

theorem liveHeap_arrays {heap heap' : Heap} (h : LiveHeap heap) (hgrows : HeapGrows heap heap')
    (htuples : heap'.tuples = heap.tuples) (hstructs : heap'.structs = heap.structs)
    (harrays : ∀ array ∈ heap'.arrays, LiveAll heap array.elements) : LiveHeap heap' := by
  refine ⟨fun values hvalues => ?_, fun object hobject => ?_, fun array harray => ?_⟩
  · exact (h.tuples values (htuples ▸ hvalues)).mono hgrows
  · exact (h.structs object (hstructs ▸ hobject)).mono hgrows
  · exact (harrays array harray).mono hgrows

/-- Any array may be behind a handle. -/
def liveArrays : ArrayPolicy where
  toHeapPolicy := live
  stored h _ harray hv := h.arrays _ (List.mem_of_getElem? harray) _ hv
  elementsSet {heap heap' handle elements} h _ helements heq := by
    subst heq
    have hgrows : HeapGrows heap { heap with arrays := heap.arrays.modify handle fun array =>
        { array with elements := elements } } := by
      refine heapGrows_arrays rfl rfl fun id array hid => ?_
      by_cases heq : handle = id
      · subst heq
        exact ⟨{ array with elements := elements }, by rw [List.getElem?_modify_eq, hid]; rfl, rfl⟩
      · exact ⟨array, by rw [List.getElem?_modify_ne _ _ heq, hid], rfl⟩
    refine ⟨liveHeap_arrays h hgrows rfl rfl fun array harray => ?_, hgrows⟩
    obtain ⟨i, hi⟩ := List.mem_iff_getElem?.mp harray
    by_cases heq : handle = i
    · subst heq
      rw [List.getElem?_modify_eq] at hi
      obtain ⟨old, -, rfl⟩ := Option.map_eq_some_iff.mp hi
      exact helements
    · rw [List.getElem?_modify_ne _ _ heq] at hi
      exact h.arrays array (List.mem_of_getElem? hi)
  arrayMade {heap heap'} h heq := by
    subst heq
    have hgrows : HeapGrows heap
        { heap with arrays := heap.arrays ++ [{ elementTypeName := "", elements := [] }] } :=
      heapGrows_arrays rfl rfl fun id array hid =>
        ⟨array, getElem?_of_isPrefix (List.prefix_append _ _) hid, rfl⟩
    refine ⟨⟨liveHeap_arrays h hgrows rfl rfl fun array harray => ?_, hgrows⟩, trivial⟩
    obtain hold | hnew := List.mem_append.mp harray
    · exact h.arrays array hold
    · rw [List.mem_singleton.mp hnew]
      exact List.forall_mem_nil _

/-- The library is foreign code that makes no dangling reference. -/
theorem respects_live : live.Respects host noStore := respects_host (A := liveArrays)

/-! ## Confinement -/

open Confinement

/-- Handles are positions of arrays. -/
def confinedArrays {base : Heap} (R : Region base) (h : ∀ n, R.handles n ↔ R.arrays n) :
    ArrayPolicy where
  toHeapPolicy := confined R
  stored hvalid hhandle harray hv := hvalid.arrays.closed _ _ ((h _).mp hhandle) harray _ hv
  elementsSet hvalid hhandle helements heq := by
    subst heq
    exact ⟨⟨hvalid.tuples, hvalid.structs,
      hvalid.arrays.modify ((h _).mp hhandle) fun _ _ => helements⟩, trivial⟩
  arrayMade hvalid heq := by
    subst heq
    have hnone : R.InsideAll [] := List.forall_mem_nil _
    exact ⟨⟨⟨hvalid.tuples, hvalid.structs, hvalid.arrays.add R.newArrays hnone⟩, trivial⟩,
      (h _).mpr (hvalid.arrays.inside_length R.newArrays)⟩

/-- The library changes no array but those it gets. -/
theorem respects_confined (heap : Heap) (roots : RuntimeValue → Prop) :
    (confined (reachable heap roots)).Respects host noStore :=
  respects_host (A := confinedArrays (reachable heap roots) fun _ => .rfl)

/-! ## Sessions with the library -/

end FalconLib.Libs.Array
