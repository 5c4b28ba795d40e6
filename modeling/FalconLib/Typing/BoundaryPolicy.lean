import FalconLib.Dsl.HeapPolicy
import FalconLib.Typing.FFIHelpers

/-!
# Policies across the C boundary

A packed value is allowed if what it points to is, and then unpacking keeps the policy. So a call of
a foreign function does, if the function itself does.
-/

namespace FalconLib.Typing.FFI

open FalconLib.Base
open FalconLib.Dsl

variable {H : HeapPolicy} {heap heap' : Heap}

/-! ## Packed values -/

def AllowedPointer (H : HeapPolicy) : SharedPointer → Heap → Prop
  | .tuple id, heap => H.Allowed (.tuple id) heap
  | .array id, heap => H.Allowed (.array id) heap
  | .struct id, heap => H.Allowed (.struct id) heap
  | .error _, _ => True
  | .void handle, heap => H.Handle handle heap

def AllowedTagged (H : HeapPolicy) : Tagged → Heap → Prop
  | .opaqueVal _ ptr, heap => AllowedPointer H ptr heap
  | _, _ => True

def AllowedSlots (H : HeapPolicy) (slots : List FalconResultSlot) (heap : Heap) : Prop :=
  ∀ slot ∈ slots, AllowedTagged H slot heap

def AllowedEntries (H : HeapPolicy) (entries : List FalconParamEntry) (heap : Heap) : Prop :=
  ∀ entry ∈ entries, AllowedTagged H entry.value heap

theorem AllowedTagged.mono {value : Tagged} (h : AllowedTagged H value heap)
    (hgrows : H.Grows heap heap') : AllowedTagged H value heap' := by
  cases value with
  | opaqueVal typeName ptr =>
    cases ptr with
    | error _ => trivial
    | void handle => exact H.handle_mono hgrows h
    | _ => exact H.allowed_mono hgrows h
  | _ => trivial

theorem AllowedSlots.mono {slots : List FalconResultSlot} (h : AllowedSlots H slots heap)
    (hgrows : H.Grows heap heap') : AllowedSlots H slots heap' :=
  fun slot hslot => (h slot hslot).mono hgrows

theorem AllowedEntries.mono {entries : List FalconParamEntry} (h : AllowedEntries H entries heap)
    (hgrows : H.Grows heap heap') : AllowedEntries H entries heap' :=
  fun entry hentry => (h entry hentry).mono hgrows

/-- Of a native struct only the handle passes. -/
theorem allowed_packValue (hvalid : H.Valid heap) {v : RuntimeValue} (hv : H.Allowed v heap) :
    AllowedTagged H (packValue heap v) heap := by
  cases v with
  | struct id =>
    unfold packValue
    dsimp only
    split
    · rename_i object hobject
      split
      · rename_i handle hhandle
        exact H.handle hvalid hv hobject hhandle
      · exact hv
    · exact hv
  | tuple id => exact hv
  | array id => exact hv
  | _ => trivial

theorem allowed_packParams (hvalid : H.Valid heap) {params : ParameterMap}
    (h : H.AllowedMap params heap) : AllowedEntries H (packParams heap params) heap := by
  intro entry hentry
  obtain ⟨param, hparam, rfl⟩ := List.mem_map.mp hentry
  exact allowed_packValue hvalid (h param.1 _ (Std.ExtTreeMap.mem_toList_iff_getElem?_eq_some.mp hparam))

/-! ## Marshalling -/

/-- The conversion keeps the policy from the heap on. -/
abbrev Marshals (H : HeapPolicy) {α : Type} (m : Marshal α) (heap : Heap)
    (p : α → Heap → Prop) : Prop := H.toGrowth.Keeps m heap p

theorem marshals_unpackOpaque {typeName : String} {ptr : SharedPointer}
    (h : AllowedPointer H ptr heap) : Marshals H (unpackOpaque typeName ptr) heap H.Allowed := by
  unfold unpackOpaque
  split_ifs
  · cases ptr <;> first | exact Growth.Keeps.pure h | exact Growth.Keeps.halt _
  · cases ptr <;> first | exact Growth.Keeps.pure h | exact Growth.Keeps.halt _
  · cases ptr <;> first | exact Growth.Keeps.pure h | exact Growth.Keeps.halt _
  · cases ptr <;> first | exact Growth.Keeps.pure (H.scalar trivial) | exact Growth.Keeps.halt _
  · cases ptr with
    | void handle =>
      refine Growth.Keeps.gets_bind fun hvalid => ?_
      have hmade := H.structMade { typeName := typeName, nativeHandle := some handle } hvalid rfl
        (fun n hn => by cases hn; exact h) rfl
      refine Growth.Keeps.bind (p := fun _ heap' => H.Allowed (.struct heap.structs.length) heap')
        (Growth.Keeps.modify fun _ => hmade) fun _ _ _ hid => ?_
      exact Growth.Keeps.pure hid
    | _ => exact Growth.Keeps.halt _

theorem marshals_unpackValue {value : Tagged} (h : AllowedTagged H value heap) :
    Marshals H (unpackValue value) heap H.Allowed := by
  cases value with
  | opaqueVal typeName ptr => exact marshals_unpackOpaque h
  | str ptr len =>
    show Marshals H (readStr ptr len) heap H.Allowed
    unfold readStr
    split
    · exact Growth.Keeps.throw _
    · exact Growth.Keeps.pure (H.scalar trivial)
  | _ => exact Growth.Keeps.pure (H.scalar trivial)

theorem marshals_unpackParams (entries : List FalconParamEntry) :
    ∀ {result : ParameterMap} {heap : Heap}, AllowedEntries H entries heap →
      H.AllowedMap result heap → Marshals H (unpackParams entries result) heap H.AllowedMap := by
  induction entries with
  | nil => exact fun _ hresult => Growth.Keeps.pure hresult
  | cons entry entries ih =>
    intro result heap hentries hresult
    obtain ⟨hfirst, hrest⟩ := List.forall_mem_cons.mp hentries
    refine (marshals_unpackValue hfirst).bind fun value heap' hgrows hvalue => ?_
    refine ih (AllowedEntries.mono hrest hgrows) fun name v hname => ?_
    rw [StdMap.getElem?_assign] at hname
    split at hname
    · cases hname
      exact hvalue
    · exact hresult.mono hgrows name v hname

theorem marshals_unpackSlots (slots : List FalconResultSlot) :
    ∀ {heap : Heap}, AllowedSlots H slots heap →
      Marshals H (unpackSlots slots) heap H.AllowedAll := by
  induction slots with
  | nil => exact fun _ => Growth.Keeps.pure (List.forall_mem_nil _)
  | cons slot slots ih =>
    intro heap hslots
    obtain ⟨hfirst, hrest⟩ := List.forall_mem_cons.mp hslots
    refine (marshals_unpackValue hfirst).bind fun value heap' hgrows hvalue => ?_
    refine (ih (AllowedSlots.mono hrest hgrows)).bind fun values heap'' hgrows' hvalues => ?_
    exact Growth.Keeps.pure (List.forall_mem_cons.mpr ⟨H.allowed_mono hgrows' hvalue, hvalues⟩)

theorem marshals_unpackResults {slots : List FalconResultSlot} (h : AllowedSlots H slots heap)
    (count : Int32) : Marshals H (unpackResults slots count) heap H.AllowedAll := by
  unfold unpackResults
  split_ifs
  · exact Growth.Keeps.throw _
  · exact Growth.Keeps.halt _
  · exact marshals_unpackSlots _ fun slot hslot => h slot (List.mem_of_mem_take hslot)

/-! ## Foreign functions -/

/-- The buffer that a function leaves. -/
def AllowedBuffer (H : HeapPolicy) (left : List FalconResultSlot × Int32) (heap : Heap) : Prop :=
  AllowedSlots H left.1 heap

theorem marshals_packResults {result : FunctionResult} (hresult : H.AllowedAll result heap)
    {slots : List FalconResultSlot} (hslots : AllowedSlots H slots heap) (capacity : Int32) :
    Marshals H (packResults result slots capacity) heap (AllowedBuffer H) := by
  refine Growth.Keeps.gets_bind fun hvalid => ?_
  split
  · exact Growth.Keeps.halt _
  · refine Growth.Keeps.pure fun slot hslot => ?_
    obtain hnew | hold := List.mem_append.mp hslot
    · obtain ⟨v, hv, rfl⟩ := List.mem_map.mp hnew
      exact allowed_packValue hvalid (hresult v (List.mem_of_mem_take hv))
    · exact hslots slot (List.mem_of_mem_drop hold)

/-- The function of a library keeps the policy, whatever buffer it gets. -/
def KeepsPolicy (H : HeapPolicy) (function : FalconFFIFunc) : Prop :=
  ∀ entries slots count heap, AllowedEntries H entries heap → AllowedSlots H slots heap →
    Marshals H (function entries slots count) heap (AllowedBuffer H)

theorem marshals_callForeign {function : FalconFFIFunc} (h : KeepsPolicy H function)
    {params : ParameterMap} (hparams : H.AllowedMap params heap) :
    Marshals H (callForeign function params) heap H.AllowedAll := by
  refine Growth.Keeps.gets_bind fun hvalid => ?_
  have hslots : AllowedSlots H (List.replicate maxOutputs .nil) heap := by
    intro slot hslot
    rw [List.eq_of_mem_replicate hslot]
    trivial
  refine (h _ _ _ _ (allowed_packParams hvalid hparams) hslots).bind fun left heap' _ hleft => ?_
  exact marshals_unpackResults hleft left.2

end FalconLib.Typing.FFI
