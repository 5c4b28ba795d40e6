import FalconLib.Libs.Map

/-!
# Calls of the map routines

The body of each routine, over the two arrays of a map, does to its keys and values what the
operation of its name does to a table. Every array that is not behind one of the two handles
stays as it is.
-/

namespace FalconLib.Libs.Map

open FalconLib.Base (Comp Table)
open FalconLib.Base.ListHeap (Reply)
open FalconLib.Base.Table (Operation)
open FalconLib.Dsl
open FalconLib.Dsl.RoutineRuns
open FalconLib.Libs.Array (IsArray Leaves Machine Method Opened Search Searchable Scalar Short
  callOn replyValue)
open FalconLib.Typing.FFI (Plain)
open ExprEvaluator (evaluate evaluateList)

/-! ## Values -/

/-- A key that is compared by its contents and crosses the boundary as it is. -/
def Key (value : RuntimeValue) : Prop := Scalar value ∧ Short value

/-- A value that comes back from the library as it went in, as long as objects stay. -/
def Keepable (heap : Heap) : RuntimeValue → Prop
  | .string value => Typing.FFI.byteCount value.toList < 2 ^ 31
  | .struct id => ∃ object, heap.structs[id]? = some object ∧ object.nativeHandle = none
  | _ => True

theorem Key.plain {value : RuntimeValue} (h : Key value) (heap : Heap) : Plain heap value := by
  obtain ⟨hscalar, hshort⟩ := h
  cases value with
  | string value => exact hshort
  | struct id => exact hscalar.elim
  | _ => trivial

theorem Keepable.plain {heap : Heap} {value : RuntimeValue} (h : Keepable heap value) :
    Plain heap value := by
  cases value with
  | string value => exact h
  | struct id =>
    obtain ⟨object, hobject, hnative⟩ := h
    change heap.structs[id]?.bind StructInstance.nativeHandle = none
    rw [hobject]
    exact hnative
  | _ => trivial

theorem Keepable.mono {heap heap' : Heap} (hsub : heap.structs <+: heap'.structs)
    {value : RuntimeValue} (h : Keepable heap value) : Keepable heap' value := by
  cases value with
  | struct id =>
    obtain ⟨object, hobject, hnative⟩ := h
    exact ⟨object, getElem?_of_isPrefix hsub hobject, hnative⟩
  | _ => exact h

/-! ## Frames -/

/-- Objects stay, and of the arrays only those behind the handles may have changed. -/
structure Touches (heap heap' : Heap) (handles : List Nat) : Prop where
  structs : heap.structs <+: heap'.structs
  grows : heap.arrays.length ≤ heap'.arrays.length
  others : ∀ i < heap.arrays.length, i ∉ handles → heap'.arrays[i]? = heap.arrays[i]?

namespace Touches

variable {heap heap' heap'' : Heap} {handles : List Nat}

theorem refl (heap : Heap) (handles : List Nat) : Touches heap heap handles :=
  ⟨List.prefix_refl _, Nat.le_refl _, fun _ _ _ => rfl⟩

theorem trans (h₁ : Touches heap heap' handles) (h₂ : Touches heap' heap'' handles) :
    Touches heap heap'' handles := by
  refine ⟨h₁.structs.trans h₂.structs, h₁.grows.trans h₂.grows, fun i hi hn => ?_⟩
  exact (h₂.others i (Nat.lt_of_lt_of_le hi h₁.grows) hn).trans (h₁.others i hi hn)

theorem mono {handles' : List Nat} (h : Touches heap heap' handles) (hsub : handles ⊆ handles') :
    Touches heap heap' handles' :=
  ⟨h.structs, h.grows, fun i hi hn => h.others i hi fun hmem => hn (hsub hmem)⟩

theorem of_leaves {handle : Nat} {left : List RuntimeValue} (h : Leaves heap heap' handle left)
    (hmem : handle ∈ handles) : Touches heap heap' handles := by
  refine ⟨h.structs, ?_, fun i _ hn => ?_⟩
  · rw [h.arrays]
    change heap.arrays.length ≤ (heap.arrays.modify handle _).length
    rw [List.length_modify]
  · rw [h.arrays]
    refine List.getElem?_modify_ne _ _ fun he => hn ?_
    rw [← he]
    exact hmem

theorem isArray (h : Touches heap heap' handles) {id handle : Nat} {elements : List RuntimeValue}
    (ha : IsArray heap id handle elements) (hn : handle ∉ handles) :
    IsArray heap' id handle elements := by
  obtain ⟨object, hobject, hkind⟩ := ha.instance_
  obtain ⟨array, harray, helements⟩ := ha.elements
  refine ⟨⟨object, getElem?_of_isPrefix h.structs hobject, hkind⟩, array, ?_, helements⟩
  rw [h.others handle (List.getElem?_eq_some_iff.mp harray).1 hn, harray]

theorem field? (h : Touches heap heap' handles) {id : Nat} {name : String} {value : RuntimeValue}
    (hf : heap.field? id name = some value) : heap'.field? id name = some value := by
  obtain ⟨object, hobject, hvalue⟩ := Option.bind_eq_some_iff.mp hf
  exact Option.bind_eq_some_iff.mpr ⟨object, getElem?_of_isPrefix h.structs hobject, hvalue⟩

end Touches

/-- Behind its handle the call has left the new elements. -/
theorem isArray_of_leaves {heap heap' : Heap} {id handle : Nat} {elements left : List RuntimeValue}
    (ha : IsArray heap id handle elements) (h : Leaves heap heap' handle left) :
    IsArray heap' id handle left := by
  obtain ⟨object, hobject, hkind⟩ := ha.instance_
  obtain ⟨array, harray, _⟩ := ha.elements
  refine ⟨⟨object, getElem?_of_isPrefix h.structs hobject, hkind⟩, { array with elements := left },
    ?_, rfl⟩
  rw [h.arrays]
  change (heap.arrays.modify handle _)[handle]? = _
  rw [List.getElem?_modify_eq, harray]
  rfl

/-! ## The two arrays of a map -/

/-- Where a `Map<keyType, valueType>` lives: the instance, the instances in its fields, and what
these stand for. -/
structure Place where
  keyType : TypeDescriptor
  valueType : TypeDescriptor
  id : Nat
  keysId : Nat
  valuesId : Nat
  keysHandle : Nat
  valuesHandle : Nat

def Place.handles (p : Place) : List Nat := [p.keysHandle, p.valuesHandle]

/-- The arrays of the map hold the two lists. -/
structure Stored (heap : Heap) (p : Place) (ks vs : List RuntimeValue) : Prop where
  keys : IsArray heap p.keysId p.keysHandle ks
  values : IsArray heap p.valuesId p.valuesHandle vs
  apart : p.keysHandle ≠ p.valuesHandle
  keyed : ∀ key ∈ ks, Key key
  kept : ∀ value ∈ vs, Keepable heap value

namespace Stored

variable {heap heap' : Heap} {p : Place} {ks vs left : List RuntimeValue}

theorem leaveKeys (h : Stored heap p ks vs) (hl : Leaves heap heap' p.keysHandle left)
    (hleft : ∀ key ∈ left, Key key) : Stored heap' p left vs ∧ Touches heap heap' p.handles := by
  have hkeys : Touches heap heap' [p.keysHandle] := Touches.of_leaves hl List.mem_cons_self
  refine ⟨⟨isArray_of_leaves h.keys hl, hkeys.isArray h.values ?_, h.apart, hleft,
    fun value hv => (h.kept value hv).mono hl.structs⟩, Touches.of_leaves hl List.mem_cons_self⟩
  rw [List.mem_singleton]
  exact h.apart.symm

theorem leaveValues (h : Stored heap p ks vs) (hl : Leaves heap heap' p.valuesHandle left)
    (hleft : ∀ value ∈ left, Keepable heap value) :
    Stored heap' p ks left ∧ Touches heap heap' p.handles := by
  have hvalues : Touches heap heap' [p.valuesHandle] := Touches.of_leaves hl List.mem_cons_self
  refine ⟨⟨hvalues.isArray h.keys ?_, isArray_of_leaves h.values hl, h.apart, h.keyed,
    fun value hv => (hleft value hv).mono hl.structs⟩,
    Touches.of_leaves hl (List.mem_cons_of_mem _ List.mem_cons_self)⟩
  rw [List.mem_singleton]
  exact h.apart

/-- A call that touches neither array keeps both. -/
theorem frame (h : Stored heap p ks vs) {handles : List Nat} (ht : Touches heap heap' handles)
    (hk : p.keysHandle ∉ handles) (hv : p.valuesHandle ∉ handles) : Stored heap' p ks vs :=
  ⟨ht.isArray h.keys hk, ht.isArray h.values hv, h.apart, h.keyed,
    fun value hmem => (h.kept value hmem).mono ht.structs⟩

end Stored

/-! ## Array calls on the fields -/

/-- The library is opened, searches included, and the registry knows it. -/
structure Linked {S : Type} (ctx : Context S) (types : TypeRegistry) (path : String) : Prop where
  opened : Opened ctx.host path
  registered : Registered types path
  searchable : Searchable ctx.host types path

/-- A body finds the two arrays under the names of the fields. -/
structure Bound (env : ParameterMap) (p : Place) : Prop where
  keys : env["keys_"]? = some (.struct p.keysId)
  values : env["values_"]? = some (.struct p.valuesId)

theorem Bound.assign {env : ParameterMap} {p : Place} (h : Bound env p) (name : String)
    (hk : name ≠ "keys_") (hv : name ≠ "values_") (value : RuntimeValue) :
    Bound (env.assign name value) p :=
  ⟨(Base.StdMap.getElem?_assign_ne _ _ hk).trans h.keys,
    (Base.StdMap.getElem?_assign_ne _ _ hv).trans h.values⟩

section Calls

variable {S : Type} {ctx : Context S} {w : World S} {path : String} {env : ParameterMap}
  {p : Place} {ks vs left : List RuntimeValue} {args : List Expr} {reply : Reply RuntimeValue}
  {fuel : Nat}

theorem keys_performs (hs : Stored w.heap p ks vs) (method : Method)
    (hop : ∀ value ∈ method.operation.operands, Key value) :
    Array.Performs method w.heap p.keysId p.keysHandle ks :=
  Array.performs_of_plain hs.keys method (fun value hv => (hop value hv).plain _)
    fun heap' _ value hv => (hs.keyed value hv).plain heap'

theorem values_performs (hs : Stored w.heap p ks vs) (method : Method)
    (hop : ∀ value ∈ method.operation.operands, Keepable w.heap value) :
    Array.Performs method w.heap p.valuesId p.valuesHandle vs :=
  Array.performs_of_plain hs.values method (fun value hv => (hop value hv).plain)
    fun _ hsub value hv => ((hs.kept value hv).mono hsub).plain

/-- A method of the keys, with keys among its operands. -/
theorem call_keys (hl : Linked ctx w.types path) (hb : Bound env p) (hs : Stored w.heap p ks vs)
    (method : Method) (hop : ∀ value ∈ method.operation.operands, Key value)
    (hargs : (evaluateList ctx (Machine.handlers ctx fuel) (.own env) args w).outcome =
      .ok method.args w) (hrun : method.operation.run ks = some (reply, left)) :
    ∃ heap', (evaluate ctx (Machine.handlers ctx fuel) (.own env)
        (callOn "keys_" method.name args) w).outcome =
        .ok (replyValue reply) { w with heap := heap' } ∧
      Stored heap' p left vs ∧ Touches w.heap heap' p.handles := by
  have hanswers := Array.evaluate_method hl.opened hl.registered.arrays hb.keys hs.keys
    (keys_performs hs method hop) fuel hargs
  unfold Array.Answers at hanswers
  rw [hrun] at hanswers
  obtain ⟨heap', houtcome, hleaves⟩ := hanswers
  refine ⟨heap', houtcome, hs.leaveKeys hleaves fun key hkey => ?_⟩
  rcases Base.ListHeap.Operation.mem_of_run hrun hkey with hold | hnew
  · exact hs.keyed key hold
  · exact hop key hnew

/-- A method of the values, with values among its operands. -/
theorem call_values (hl : Linked ctx w.types path) (hb : Bound env p)
    (hs : Stored w.heap p ks vs) (method : Method)
    (hop : ∀ value ∈ method.operation.operands, Keepable w.heap value)
    (hargs : (evaluateList ctx (Machine.handlers ctx fuel) (.own env) args w).outcome =
      .ok method.args w) (hrun : method.operation.run vs = some (reply, left)) :
    ∃ heap', (evaluate ctx (Machine.handlers ctx fuel) (.own env)
        (callOn "values_" method.name args) w).outcome =
        .ok (replyValue reply) { w with heap := heap' } ∧
      Stored heap' p ks left ∧ Touches w.heap heap' p.handles := by
  have hanswers := Array.evaluate_method hl.opened hl.registered.arrays hb.values hs.values
    (values_performs hs method hop) fuel hargs
  unfold Array.Answers at hanswers
  rw [hrun] at hanswers
  obtain ⟨heap', houtcome, hleaves⟩ := hanswers
  refine ⟨heap', houtcome, hs.leaveValues hleaves fun value hvalue => ?_⟩
  rcases Base.ListHeap.Operation.mem_of_run hrun hvalue with hold | hnew
  · exact hs.kept value hold
  · exact hop value hnew

/-- A method of the values that has no answer raises. -/
theorem call_values_raises (hl : Linked ctx w.types path) (hb : Bound env p)
    (hs : Stored w.heap p ks vs) (method : Method)
    (hop : ∀ value ∈ method.operation.operands, Keepable w.heap value)
    (hargs : (evaluateList ctx (Machine.handlers ctx fuel) (.own env) args w).outcome =
      .ok method.args w) (hrun : method.operation.run vs = none) :
    ∃ heap', Raises (evaluate ctx (Machine.handlers ctx fuel) (.own env)
        (callOn "values_" method.name args)) w { w with heap := heap' } ∧
      Stored heap' p ks vs ∧ Touches w.heap heap' p.handles := by
  have hanswers := Array.evaluate_method hl.opened hl.registered.arrays hb.values hs.values
    (values_performs hs method hop) fuel hargs
  unfold Array.Answers at hanswers
  rw [hrun] at hanswers
  obtain ⟨e, heap', houtcome, hleaves⟩ := hanswers
  exact ⟨heap', ⟨e, houtcome⟩, hs.leaveValues hleaves hs.kept⟩

theorem search_keys (hl : Linked ctx w.types path) (hb : Bound env p)
    (hs : Stored w.heap p ks vs) (search : Search) {key : RuntimeValue} (hkey : Key key)
    (henv : env["key"]? = some key) :
    ∃ heap', (evaluate ctx (Machine.handlers ctx fuel) (.own env)
        (callOn "keys_" search.name [var "key"]) w).outcome =
        .ok (search.answer heap' ks key) { w with heap := heap' } ∧
      Stored heap' p ks vs ∧ Touches w.heap heap' p.handles := by
  have hargs : (evaluateList ctx (Machine.handlers ctx fuel) (.own env) [var "key"] w).outcome =
      .ok [key] w := evaluateList_vars (.cons henv .nil) w
  refine ⟨_, Array.evaluate_search hl.searchable hl.registered.arrays hb.keys hs.keys search
    (hkey.plain _) fuel hargs, ?_⟩
  have hleaves := Leaves.received hs.keys
  exact hs.leaveKeys hleaves hs.keyed

end Calls

end FalconLib.Libs.Map
