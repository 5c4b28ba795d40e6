import FalconLib.Base.Growth
import FalconLib.Dsl.ArgumentBinding

/-!
# Policies

A policy says which values a run may hold in a world, so that each access to the world can be
judged alone: what is read from where the run may read is allowed, and a write of what is allowed
leaves a valid and larger world. Here expressions keep every policy, if their calls do.
-/

namespace FalconLib.Dsl

open FalconLib.Base
open ExprEvaluator

variable {S : Type}

/-- Nothing is behind the value. -/
def RuntimeValue.IsScalar : RuntimeValue → Prop
  | .tuple _ | .struct _ | .array _ => False
  | _ => True

namespace World

variable (w : World S)

def withVariables (map : ParameterMap) : World S := { w with memberVariables := map }

def withHeap (heap : Heap) : World S := { w with heap := heap }

def withStruct (name : String) (decl : StructDecl) : World S :=
  { w with types := w.types.registerMonomorphizedStruct name decl }

/-- After a foreign call. -/
def afterHost (answer : Except Exception FunctionResult × Heap × S) : World S :=
  { w with heap := answer.2.1, store := answer.2.2 }

end World

structure Policy (host : Host S) extends Growth (World S) where
  Allowed : RuntimeValue → World S → Prop
  allowed_mono : ∀ {v w w'}, Grows w w' → Allowed v w → Allowed v w'
  scalar : ∀ {v w}, v.IsScalar → Allowed v w
  memberVariable : ∀ {w} {name : String} {v}, Valid w → w.memberVariables[name]? = some v → Allowed v w
  field : ∀ {w id name v}, Valid w → Allowed (.struct id) w → w.heap.field? id name = some v →
    Allowed v w
  component : ∀ {w id values v}, Valid w → Allowed (.tuple id) w → w.heap.tuples[id]? = some values →
    v ∈ values → Allowed v w
  element : ∀ {w id array v}, Valid w → Allowed (.array id) w → w.heap.arrays[id]? = some array →
    v ∈ array.elements → Allowed v w
  variablesSet : ∀ {w map}, Valid w → (∀ (name : String) v, map[name]? = some v → Allowed v w) →
    Valid (w.withVariables map) ∧ Grows w (w.withVariables map)
  fieldSet : ∀ {w id name v}, Valid w → Allowed (.struct id) w → Allowed v w →
    Valid (w.withHeap (w.heap.setField id name v)) ∧ Grows w (w.withHeap (w.heap.setField id name v))
  structMade : ∀ {w w'} typeName, Valid w →
    w' = w.withHeap (w.heap.allocStruct { typeName := typeName }).2 →
    (Valid w' ∧ Grows w w') ∧ Allowed (.struct w.heap.structs.length) w'
  tupleMade : ∀ {w values w'}, Valid w → (∀ v ∈ values, Allowed v w) →
    w' = w.withHeap (w.heap.allocTuple values).2 →
    (Valid w' ∧ Grows w w') ∧ Allowed (.tuple w.heap.tuples.length) w'
  /-- An instance of a generic struct is registered where its name is free. -/
  registered : ∀ {w name} decl, Valid w → w.types.structRegistry[name]? = none →
    Valid (w.withStruct name decl) ∧ Grows w (w.withStruct name decl)
  called : ∀ {w params symbol answer}, Valid w →
    (∀ (name : String) v, params[name]? = some v → Allowed v w) →
    host.call symbol params w.heap w.store = answer →
    (Valid (w.afterHost answer) ∧ Grows w (w.afterHost answer)) ∧
      ∀ values, answer.1 = .ok values → ∀ v ∈ values, Allowed v (w.afterHost answer)
  methodCalled : ∀ {w params symbol object answer}, Valid w → Allowed object w →
    (∀ (name : String) v, params[name]? = some v → Allowed v w) →
    host.callMethod symbol object params w.heap w.store = answer →
    (Valid (w.afterHost answer) ∧ Grows w (w.afterHost answer)) ∧
      ∀ values, answer.1 = .ok values → ∀ v ∈ values, Allowed v (w.afterHost answer)

namespace Policy

variable {host : Host S} {P : Policy host} {α β : Type}

/-! ## Lists, maps and variables of allowed values -/

def AllowedAll (P : Policy host) (values : List RuntimeValue) (w : World S) : Prop :=
  ∀ v ∈ values, P.Allowed v w

def AllowedMap (P : Policy host) (map : ParameterMap) (w : World S) : Prop :=
  ∀ (name : String) v, map[name]? = some v → P.Allowed v w

def AllowedVars (P : Policy host) : Variables → World S → Prop
  | .member, _ => True
  | .own map, w => P.AllowedMap map w

section Values

variable {w w' : World S} {v : RuntimeValue} {values : List RuntimeValue} {map : ParameterMap}
  {vars : Variables}

theorem AllowedAll.mono (h : P.AllowedAll values w) (hw : P.Grows w w') : P.AllowedAll values w' :=
  fun v hv => P.allowed_mono hw (h v hv)

theorem AllowedMap.mono (h : P.AllowedMap map w) (hw : P.Grows w w') : P.AllowedMap map w' :=
  fun name v hv => P.allowed_mono hw (h name v hv)

theorem allowedVars_member : P.AllowedVars .member w := trivial

theorem AllowedMap.own (h : P.AllowedMap map w) : P.AllowedVars (.own map) w := h

theorem AllowedVars.mono (h : P.AllowedVars vars w) (hw : P.Grows w w') : P.AllowedVars vars w' := by
  cases vars with
  | member => trivial
  | own map =>
    have hmap : P.AllowedMap map w := h
    exact hmap.mono hw

theorem AllowedVars.read (h : P.AllowedVars vars w) (hw : P.Valid w) :
    P.AllowedMap (vars.read w) w := by
  cases vars with
  | member => exact fun _ _ hname => P.memberVariable hw hname
  | own map => exact h

theorem allowedAll_nil : P.AllowedAll [] w := fun _ h => nomatch h

theorem AllowedAll.cons (hv : P.Allowed v w) (h : P.AllowedAll values w) :
    P.AllowedAll (v :: values) w := List.forall_mem_cons.mpr ⟨hv, h⟩

theorem allowedMap_empty : P.AllowedMap ∅ w := fun _ _ h => nomatch h

theorem AllowedMap.assign (h : P.AllowedMap map w) (name : String) (hv : P.Allowed v w) :
    P.AllowedMap (map.assign name v) w := by
  intro other found hother
  rw [StdMap.getElem?_assign] at hother
  split at hother
  · cases hother
    exact hv
  · exact h other found hother

theorem AllowedMap.assignAll {writes : List (String × RuntimeValue)} (h : P.AllowedMap map w)
    (hw : ∀ write ∈ writes, P.Allowed write.2 w) : P.AllowedMap (map.assignAll writes) w := by
  induction writes generalizing map with
  | nil => exact h
  | cons write writes ih =>
    obtain ⟨hfirst, hrest⟩ := List.forall_mem_cons.mp hw
    exact ih (h.assign write.1 hfirst) hrest

theorem AllowedMap.restrict (h : P.AllowedMap map w) (keys : List String) :
    P.AllowedMap (map.restrict keys) w := by
  intro name value hname
  rw [StdMap.getElem?_restrict] at hname
  split at hname
  · exact h name value hname
  · cases hname

theorem allowed_ofLiteral (value : Literal) : P.Allowed (RuntimeValue.ofLiteral value) w := by
  cases value <;> exact P.scalar trivial

theorem allowed_primitiveDefault (type : ParamType) : P.Allowed (primitiveDefault type) w := by
  cases type <;> exact P.scalar trivial

end Values

/-! ## Access to the world -/

/-- The computation keeps the policy from `w` on. -/
abbrev Holds (P : Policy host) (m : M S α) (w : World S) (p : α → World S → Prop) : Prop :=
  P.toGrowth.Keeps m w p

/-- The computation keeps the policy from every later world. -/
def HoldsLater (P : Policy host) (m : M S α) (w : World S) (p : α → World S → Prop) : Prop :=
  ∀ w', P.Grows w w' → P.Holds m w' p

theorem HoldsLater.mono {m : M S α} {w w' : World S} {p : α → World S → Prop}
    (h : P.HoldsLater m w p) (hw : P.Grows w w') : P.HoldsLater m w' p :=
  fun _ hw' => h _ (P.trans hw hw')

/-- Nothing is said of the value. -/
abbrev anything : α → World S → Prop := fun _ _ => True

section Access

variable {w : World S}

theorem holds_error {p : α → World S → Prop} (message : String) :
    P.Holds (evaluationError message) w p := Growth.Keeps.throw _

/-- What follows reads the heap of a valid world. -/
theorem holds_getHeap_bind {f : Heap → M S β} {p : β → World S → Prop}
    (h : P.Valid w → P.Holds (f w.heap) w p) : P.Holds (getHeap >>= f) w p :=
  Growth.Keeps.gets_bind h

theorem holds_structAt (id : Nat) : P.Holds (structAt id) w anything :=
  Growth.Keeps.gets fun _ => trivial

theorem holds_setField {id : Nat} {name : String} {v : RuntimeValue}
    (hid : P.Allowed (.struct id) w) (hv : P.Allowed v w) :
    P.Holds (setField id name v) w anything :=
  Growth.Keeps.modify fun hw => ⟨P.fieldSet hw hid hv, trivial⟩

theorem holds_makeStruct (typeName : String) :
    P.Holds (makeStruct typeName) w fun id w' => P.Allowed (.struct id) w' := by
  refine holds_getHeap_bind fun hw => ?_
  have hmade := P.structMade typeName hw rfl
  refine Growth.Keeps.bind (p := fun _ w' => P.Allowed (.struct w.heap.structs.length) w')
    (Growth.Keeps.modify fun _ => hmade) fun _ _ _ hid => ?_
  exact Growth.Keeps.pure hid

theorem holds_packResult {result : FunctionResult} (h : P.AllowedAll result w) :
    P.Holds (packResult result) w P.Allowed := by
  match result with
  | [] => exact Growth.Keeps.pure (P.scalar trivial)
  | [value] => exact Growth.Keeps.pure (h value List.mem_cons_self)
  | first :: second :: rest =>
    refine holds_getHeap_bind fun hw => ?_
    have hmade := P.tupleMade hw h rfl
    refine Growth.Keeps.bind (p := fun _ w' => P.Allowed (.tuple w.heap.tuples.length) w')
      (Growth.Keeps.modify fun _ => hmade) fun _ _ _ hid => ?_
    exact Growth.Keeps.pure hid

theorem holds_runHost {f : Heap → S → Except Exception FunctionResult × Heap × S}
    (h : P.Valid w → (P.Valid (w.afterHost (f w.heap w.store)) ∧
        P.Grows w (w.afterHost (f w.heap w.store))) ∧
      ∀ values, (f w.heap w.store).1 = .ok values →
        ∀ v ∈ values, P.Allowed v (w.afterHost (f w.heap w.store))) :
    P.Holds (runHost f) w P.AllowedAll := by
  intro hw
  obtain ⟨hkept, hvalues⟩ := h hw
  rcases hanswer : f w.heap w.store with ⟨result, heap, store⟩
  rw [hanswer] at hkept hvalues
  rw [runHost_outcome hanswer]
  cases result with
  | ok values => exact ⟨hkept, hvalues values rfl⟩
  | error e => exact hkept

theorem holds_call (symbol : ForeignSymbol) {params : ParameterMap} (h : P.AllowedMap params w) :
    P.Holds (runHost (host.call symbol params)) w P.AllowedAll :=
  holds_runHost fun hw => P.called hw h rfl

theorem holds_callMethod (symbol : ForeignSymbol) {object : RuntimeValue} {params : ParameterMap}
    (hobject : P.Allowed object w) (h : P.AllowedMap params w) :
    P.Holds (runHost (host.callMethod symbol object params)) w P.AllowedAll :=
  holds_runHost fun hw => P.methodCalled hw hobject h rfl

/-! ## Lookups in the type registry -/

theorem holds_registeredStruct (name : String) : P.Holds (registeredStruct name) w anything :=
  Growth.Keeps.ask_bind (Growth.Keeps.gets fun _ => trivial)

theorem holds_lookupStruct (name : String) : P.Holds (lookupStruct name) w anything := by
  refine (holds_registeredStruct name).bind fun found _ _ _ => ?_
  cases found with
  | some decl => exact Growth.Keeps.pure trivial
  | none =>
    refine Growth.Keeps.ask_bind ?_
    cases genericBase name with
    | some base => exact holds_registeredStruct base
    | none => exact Growth.Keeps.pure trivial

theorem holds_registeredFfiMethod (typeName methodName : String) :
    P.Holds (registeredFfiMethod typeName methodName) w anything :=
  Growth.Keeps.ask_bind (Growth.Keeps.gets fun _ => trivial)

theorem holds_lookupFfiMethod (typeName methodName : String) :
    P.Holds (lookupFfiMethod typeName methodName) w anything := by
  refine (holds_registeredFfiMethod typeName methodName).bind fun found _ _ _ => ?_
  cases found with
  | some method => exact Growth.Keeps.pure trivial
  | none =>
    cases genericBase typeName with
    | some base => exact holds_registeredFfiMethod base methodName
    | none => exact Growth.Keeps.pure trivial

theorem holds_ffiMethodOrBase (typeName methodName : String) :
    P.Holds (ffiMethodOrBase typeName methodName) w anything := by
  refine (holds_lookupFfiMethod typeName methodName).bind fun found _ _ _ => ?_
  cases found with
  | some method => exact Growth.Keeps.pure trivial
  | none =>
    cases genericBase typeName with
    | some base => exact holds_lookupFfiMethod base methodName
    | none => exact Growth.Keeps.pure trivial

theorem holds_registeredMethod (typeName methodName : String) :
    P.Holds (registeredMethod typeName methodName) w anything :=
  Growth.Keeps.ask_bind (Growth.Keeps.gets fun _ => trivial)

theorem holds_lookupMethod (typeName methodName : String) :
    P.Holds (lookupMethod typeName methodName) w anything := by
  refine (holds_registeredMethod typeName methodName).bind fun found _ _ _ => ?_
  cases found with
  | some method => exact Growth.Keeps.pure trivial
  | none =>
    dsimp only
    split
    · exact holds_registeredMethod _ _
    · exact Growth.Keeps.pure trivial

end Access

end Policy

end FalconLib.Dsl
