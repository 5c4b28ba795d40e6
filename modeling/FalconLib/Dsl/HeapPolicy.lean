import FalconLib.Dsl.PolicyRuns

/-!
# Policies about the heap

What a policy says of the world is mostly about its heap. With foreign code that respects it, a
policy of the heap is one of the world, which whole sessions then keep.
-/

namespace FalconLib.Dsl

open FalconLib.Base
open Isolation (Start)

variable {S : Type}

/-- `Handle` says which native objects may stand behind a struct. -/
structure HeapPolicy extends Growth Heap where
  Allowed : RuntimeValue → Heap → Prop
  Handle : Nat → Heap → Prop
  allowed_mono : ∀ {v heap heap'}, Grows heap heap' → Allowed v heap → Allowed v heap'
  handle_mono : ∀ {n heap heap'}, Grows heap heap' → Handle n heap → Handle n heap'
  scalar : ∀ {v heap}, v.IsScalar → Allowed v heap
  field : ∀ {heap id name v}, Valid heap → Allowed (.struct id) heap →
    heap.field? id name = some v → Allowed v heap
  component : ∀ {heap id values v}, Valid heap → Allowed (.tuple id) heap →
    heap.tuples[id]? = some values → v ∈ values → Allowed v heap
  element : ∀ {heap id array v}, Valid heap → Allowed (.array id) heap →
    heap.arrays[id]? = some array → v ∈ array.elements → Allowed v heap
  handle : ∀ {heap id object n}, Valid heap → Allowed (.struct id) heap →
    heap.structs[id]? = some object → object.nativeHandle = some n → Handle n heap
  fieldSet : ∀ {heap id name v}, Valid heap → Allowed (.struct id) heap → Allowed v heap →
    Valid (heap.setField id name v) ∧ Grows heap (heap.setField id name v)
  structMade : ∀ {heap heap'} object, Valid heap → object.fields = ∅ →
    (∀ n, object.nativeHandle = some n → Handle n heap) → heap' = (heap.allocStruct object).2 →
    (Valid heap' ∧ Grows heap heap') ∧ Allowed (.struct heap.structs.length) heap'
  tupleMade : ∀ {heap heap' values}, Valid heap → (∀ v ∈ values, Allowed v heap) →
    heap' = (heap.allocTuple values).2 →
    (Valid heap' ∧ Grows heap heap') ∧ Allowed (.tuple heap.tuples.length) heap'

namespace HeapPolicy

def AllowedAll (H : HeapPolicy) (values : List RuntimeValue) (heap : Heap) : Prop :=
  ∀ v ∈ values, H.Allowed v heap

def AllowedMap (H : HeapPolicy) (map : ParameterMap) (heap : Heap) : Prop :=
  ∀ (name : String) v, map[name]? = some v → H.Allowed v heap

variable {H : HeapPolicy}

theorem AllowedMap.mono {map : ParameterMap} {heap heap' : Heap} (h : H.AllowedMap map heap)
    (hgrows : H.Grows heap heap') : H.AllowedMap map heap' :=
  fun name v hname => H.allowed_mono hgrows (h name v hname)

/-! ## Foreign code -/

/-- What foreign code leaves and returns. -/
structure Answers (H : HeapPolicy) (StoreOk : Heap → S → Prop) (heap : Heap)
    (answer : Except Exception FunctionResult × Heap × S) : Prop where
  valid : H.Valid answer.2.1
  grows : H.Grows heap answer.2.1
  store : StoreOk answer.2.1 answer.2.2
  values : ∀ values, answer.1 = .ok values → H.AllowedAll values answer.2.1

/-- Foreign code keeps the policy if it gets what is allowed; `StoreOk` is what it keeps of its own
store for that. -/
structure Respects (H : HeapPolicy) (host : Host S) (StoreOk : Heap → S → Prop) : Prop where
  mono : ∀ {heap heap' store}, H.Grows heap heap' → StoreOk heap store → StoreOk heap' store
  call : ∀ {symbol params heap store}, H.Valid heap → StoreOk heap store →
    H.AllowedMap params heap → H.Answers StoreOk heap (host.call symbol params heap store)
  callMethod : ∀ {symbol object params heap store}, H.Valid heap → StoreOk heap store →
    H.Allowed object heap → H.AllowedMap params heap →
    H.Answers StoreOk heap (host.callMethod symbol object params heap store)

structure ValidWorld (H : HeapPolicy) (StoreOk : Heap → S → Prop) (w : World S) : Prop where
  heap : H.Valid w.heap
  memberVariables : H.AllowedMap w.memberVariables w.heap
  store : StoreOk w.heap w.store

theorem Answers.thrown {StoreOk : Heap → S → Prop} {heap heap' : Heap} {store : S}
    (hvalid : H.Valid heap') (hgrows : H.Grows heap heap') (hstore : StoreOk heap' store)
    (e : Exception) : H.Answers StoreOk heap (.error e, heap', store) :=
  ⟨hvalid, hgrows, hstore, fun _ h => nomatch h⟩

/-- Without a library there is no foreign code. -/
theorem respects_unlinked : H.Respects Host.unlinked fun _ _ => True where
  mono _ _ := trivial
  call hvalid _ _ := .thrown hvalid (H.refl _) trivial _
  callMethod hvalid _ _ _ := .thrown hvalid (H.refl _) trivial _

section Policy

variable {host : Host S} {StoreOk : Heap → S → Prop} {w : World S}

theorem ValidWorld.withHeap (hhost : H.Respects host StoreOk) (hw : H.ValidWorld StoreOk w)
    {heap : Heap} (h : H.Valid heap ∧ H.Grows w.heap heap) :
    H.ValidWorld StoreOk (w.withHeap heap) ∧ H.Grows w.heap (w.withHeap heap).heap :=
  ⟨⟨h.1, hw.memberVariables.mono h.2, hhost.mono h.2 hw.store⟩, h.2⟩

theorem ValidWorld.afterHost (hw : H.ValidWorld StoreOk w)
    {answer : Except Exception FunctionResult × Heap × S} (h : H.Answers StoreOk w.heap answer) :
    (H.ValidWorld StoreOk (w.afterHost answer) ∧ H.Grows w.heap (w.afterHost answer).heap) ∧
      ∀ values, answer.1 = .ok values → H.AllowedAll values (w.afterHost answer).heap :=
  ⟨⟨⟨h.valid, hw.memberVariables.mono h.grows, h.store⟩, h.grows⟩, h.values⟩

def policy (H : HeapPolicy) (hhost : H.Respects host StoreOk) : Policy host where
  Valid := H.ValidWorld StoreOk
  Grows w w' := H.Grows w.heap w'.heap
  refl w := H.refl w.heap
  trans := H.trans
  Allowed v w := H.Allowed v w.heap
  allowed_mono := H.allowed_mono
  scalar := H.scalar
  memberVariable hw hname := hw.memberVariables _ _ hname
  field hw := H.field hw.heap
  component hw := H.component hw.heap
  element hw := H.element hw.heap
  variablesSet hw hmap := ⟨⟨hw.heap, hmap, hw.store⟩, H.refl _⟩
  fieldSet hw hid hv := hw.withHeap hhost (H.fieldSet hw.heap hid hv)
  structMade typeName hw heq := by
    subst heq
    obtain ⟨hheap, hid⟩ := H.structMade { typeName := typeName } hw.heap rfl
      (fun _ hn => nomatch hn) rfl
    exact ⟨hw.withHeap hhost hheap, hid⟩
  tupleMade hw hv heq := by
    subst heq
    obtain ⟨hheap, hid⟩ := H.tupleMade hw.heap hv rfl
    exact ⟨hw.withHeap hhost hheap, hid⟩
  registered _ hw _ := ⟨⟨hw.heap, hw.memberVariables, hw.store⟩, H.refl _⟩
  called hw hparams heq := by
    subst heq
    exact hw.afterHost (hhost.call hw.heap hw.store hparams)
  methodCalled hw hobject hparams heq := by
    subst heq
    exact hw.afterHost (hhost.callMethod hw.heap hw.store hobject hparams)

end Policy

/-- A session with allowed inputs keeps the policy, and so does what runs after it. -/
theorem session_keeps {ctx : Context S} {StoreOk : Heap → S → Prop}
    (hhost : H.Respects ctx.host StoreOk) {w w' : World S} (hw : H.ValidWorld StoreOk w)
    (h : Session ctx (fun inputs w => H.AllowedMap inputs w.heap) w w') :
    (H.ValidWorld StoreOk w' ∧ H.Grows w.heap w'.heap) ∧
      ∀ (start : Start) fuel values u, H.AllowedMap (startInputs start) w'.heap →
        (start.run ctx fuel w').outcome = .ok values u → H.AllowedAll values u.heap := by
  have hkept := (H.policy hhost).session_keeps hw h
  refine ⟨hkept, fun start fuel values u hi hrun => ?_⟩
  have hends := Policy.holds_start (P := H.policy hhost) fuel hi hkept.1
  rw [hrun] at hends
  exact hends.2

end HeapPolicy

/-! ## A session of one run -/

/-- A routine that writes a field of its input. -/
def poke : RoutineDecl where
  name := "poke"
  inputParams := [{ type := .makeStruct "Cell", name := "cell" }]
  outputParams := []
  body := [.structFieldAssign {} (.var {} "cell") "value" (.literal {} (.int 1))]

def pokeContext : Context Unit where
  functions := { functions := StdMap.assign ∅ "poke" (.inlineRoutine "poke") }
  routineDeclarations := StdMap.assign ∅ "poke" poke
  host := Host.unlinked

def twoCells : World Unit where
  heap := { structs := [{ typeName := "Cell" }, { typeName := "Cell" }] }
  store := ()

def pokeFirst : Start := .routine "poke" (StdMap.assign ∅ "cell" (.struct 0))

theorem of_pokeFirst {p : RuntimeValue → Prop} (h : p (.struct 0)) :
    ∀ (name : String) v, (startInputs pokeFirst)[name]? = some v → p v := by
  intro name v hname
  change (StdMap.assign ∅ "cell" (RuntimeValue.struct 0))[name]? = some v at hname
  rw [StdMap.getElem?_assign] at hname
  split at hname
  · cases hname
    exact h
  · cases hname

end FalconLib.Dsl
