import FalconLib.Dsl.InstanceCache
import FalconLib.Libs.ArrayMachine

/-!
# Arrays refine lists with reference semantics

As long as the strings among the operands are short, the interpreter and the lists answer
every command alike, and hold the same elements after it.
-/

namespace FalconLib.Libs.Array

open FalconLib.Base (Comp Outcome StdMap)
open FalconLib.Base.ListHeap (Operation Reply perform perform_of_some perform_of_none)
open FalconLib.Dsl
open FalconLib.Typing.FFI
open ExprEvaluator (evaluate evalMethodCall evalVariable)

variable {S : Type} {ctx : Context S} {fuel : Nat} {base : Heap} {path : String}

/-- What an array may hold, in a heap that started as `base`. -/
def Storable (base : Heap) (value : RuntimeValue) : Prop := Element base value ∧ Short value

/-- The machine holds the arrays of `base`, then the lists. -/
structure Represents (base : Heap) (path : String) (m : Machine S) (s : Lists) : Prop where
  registered : Registered m.world.types path
  structs : base.structs <+: m.world.heap.structs
  arrays : m.world.heap.arrays.map ArrayValue.elements =
    base.arrays.map ArrayValue.elements ++ s.lists
  bound : ∀ (x : String) (ref : Nat), s.refs[x]? = some ref →
    ∃ (id : Nat) (object : StructInstance), m.env[x]? = some (RuntimeValue.struct id) ∧
    m.world.heap.structs[id]? = some object ∧ object.typeName = "Array" ∧
    object.nativeHandle = some (base.arrays.length + ref) ∧ ref < s.lists.length
  unbound : ∀ x : String, s.refs[x]? = none → m.env[x]? = none
  elements : ∀ list ∈ s.lists, ∀ value ∈ list, Storable base value

namespace Represents

variable {m : Machine S} {s : Lists}

/-- The array behind a variable. -/
theorem isArray (h : Represents base path m s) {x : String} {ref : Nat}
    (hx : s.refs[x]? = some ref) :
    ∃ id list, m.env[x]? = some (RuntimeValue.struct id) ∧ s.lists[ref]? = some list ∧
      IsArray m.world.heap id (base.arrays.length + ref) list := by
  obtain ⟨id, object, henv, hobject, htype, hhandle, href⟩ := h.bound x ref hx
  refine ⟨id, s.lists[ref], henv, List.getElem?_eq_getElem href,
    ⟨object, hobject, htype, hhandle⟩, ?_⟩
  have harrays := congrArg (fun lists => lists[base.arrays.length + ref]?) h.arrays
  rw [List.getElem?_append_right (by simp), List.length_map, Nat.add_sub_cancel_left,
    List.getElem?_eq_getElem href, List.getElem?_map] at harrays
  exact Option.map_eq_some_iff.mp harrays

theorem map_elements_modify (arrays : List ArrayValue) (handle : Nat) (left : List RuntimeValue) :
    (arrays.modify handle fun array => { array with elements := left }).map ArrayValue.elements =
      (arrays.map ArrayValue.elements).set handle left := by
  apply List.ext_getElem?
  intro i
  rw [List.getElem?_map, List.getElem?_set]
  by_cases hi : handle = i
  · subst hi
    rw [List.getElem?_modify_eq, if_pos rfl, List.length_map, Option.map_eq_map, Option.map_map]
    by_cases hlt : handle < arrays.length
    · rw [if_pos hlt, List.getElem?_eq_getElem hlt]
      rfl
    · rw [if_neg hlt, List.getElem?_eq_none (by omega)]
      rfl
  · rw [List.getElem?_modify_ne _ _ hi, if_neg hi, List.getElem?_map]

/-- A call that leaves `left` behind one handle changes one list. -/
theorem leaves (h : Represents base path m s) {ref : Nat} {left : List RuntimeValue} {heap : Heap}
    (hleaves : Leaves m.world.heap heap (base.arrays.length + ref) left)
    (hleft : ∀ value ∈ left, Storable base value) :
    Represents base path { m with world := { m.world with heap := heap } }
      { s with lists := s.lists.set ref left } := by
  refine ⟨h.registered, h.structs.trans hleaves.structs, ?_, ?_, h.unbound, ?_⟩
  · have hset : (base.arrays.map ArrayValue.elements ++ s.lists).set (base.arrays.length + ref) left =
        base.arrays.map ArrayValue.elements ++ s.lists.set ref left := by
      rw [List.set_append_right _ _ (by simp), List.length_map, Nat.add_sub_cancel_left]
    change heap.arrays.map ArrayValue.elements = _
    rw [hleaves.arrays, ← hset, ← h.arrays]
    exact map_elements_modify _ _ _
  · intro x i hx
    obtain ⟨id, object, henv, hobject, htype, hhandle, hi⟩ := h.bound x i hx
    refine ⟨id, object, henv, ?_, htype, hhandle, by rw [List.length_set]; exact hi⟩
    obtain ⟨rest, hrest⟩ := hleaves.structs
    rw [← hrest, List.getElem?_append_left (List.getElem?_eq_some_iff.mp hobject).1, hobject]
  · intro list hlist value hvalue
    rcases List.mem_or_eq_of_mem_set hlist with hold | rfl
    · exact h.elements list hold value hvalue
    · exact hleft value hvalue

/-- An expression that answers like an operation is observed like it. -/
theorem observe (h : Represents base path m s) {x : String} {ref : Nat} {list : List RuntimeValue}
    (hx : s.refs[x]? = some ref) (hlist : s.lists[ref]? = some list)
    {expression : M S RuntimeValue} {operation : Operation RuntimeValue}
    (hstore : ∀ value ∈ operation.operands, Storable base value)
    (ha : Answers expression m.world (base.arrays.length + ref) list operation) :
    (m.observe expression).1 = (s.call x operation).1 ∧
      Represents base path (m.observe expression).2 (s.call x operation).2 := by
  have hmem := List.mem_of_getElem? hlist
  unfold Answers at ha
  unfold Lists.call
  rw [hx]
  dsimp only
  cases hrun : operation.run list with
  | some result =>
    obtain ⟨reply, left⟩ := result
    rw [hrun] at ha
    obtain ⟨heap, houtcome, hleaves⟩ := ha
    rw [perform_of_some hlist hrun]
    unfold Machine.observe
    rw [houtcome]
    refine ⟨rfl, h.leaves hleaves ?_⟩
    intro value hvalue
    rcases Operation.mem_of_run hrun hvalue with hold | hnew
    · exact h.elements list hmem value hold
    · exact hstore value hnew
  | none =>
    rw [hrun] at ha
    obtain ⟨e, heap, houtcome, hleaves⟩ := ha
    rw [perform_of_none hlist hrun]
    unfold Machine.observe
    rw [houtcome]
    have hsame : s.lists.set ref list = s.lists := by
      obtain ⟨hlt, hget⟩ := List.getElem?_eq_some_iff.mp hlist
      rw [← hget, List.set_getElem_self]
    have hrepresents := h.leaves hleaves (h.elements list hmem)
    rw [hsame] at hrepresents
    exact ⟨rfl, hrepresents⟩

/-- One more list, and the array for it. -/
theorem grow (h : Represents base path m s) {w : World S} {id : Nat}
    (hcreates : Creates path m.world w id) :
    Represents base path { m with world := w } { s with lists := s.lists ++ [[]] } := by
  refine ⟨hcreates.registered, h.structs.trans hcreates.structs, ?_, ?_, h.unbound, ?_⟩
  · change w.heap.arrays.map ArrayValue.elements = _
    rw [hcreates.arrays, List.map_append, h.arrays, List.append_assoc]
    rfl
  · intro x ref hx
    obtain ⟨receiver, object, henv, hobject, htype, hhandle, href⟩ := h.bound x ref hx
    refine ⟨receiver, object, henv, ?_, htype, hhandle, ?_⟩
    · obtain ⟨rest, hrest⟩ := hcreates.structs
      rw [← hrest, List.getElem?_append_left (List.getElem?_eq_some_iff.mp hobject).1, hobject]
    · rw [List.length_append]
      omega
  · intro list hlist value hvalue
    rcases List.mem_append.mp hlist with hold | hnew
    · exact h.elements list hold value hvalue
    · rw [List.mem_singleton.mp hnew] at hvalue
      exact absurd hvalue List.not_mem_nil

/-- A variable of an array refers to its list. -/
theorem assign (h : Represents base path m s) (x : String) {id ref : Nat} {object : StructInstance}
    (hobject : m.world.heap.structs[id]? = some object) (htype : object.typeName = "Array")
    (hhandle : object.nativeHandle = some (base.arrays.length + ref))
    (href : ref < s.lists.length) :
    Represents base path { m with env := m.env.assign x (.struct id) }
      { s with refs := s.refs.assign x ref } := by
  refine ⟨h.registered, h.structs, h.arrays, ?_, ?_, h.elements⟩
  · intro y i hy
    change (s.refs.assign x ref)[y]? = some i at hy
    change ∃ (id' : Nat) (object : StructInstance),
      (m.env.assign x (.struct id))[y]? = some (.struct id') ∧ _
    by_cases hxy : x = y
    · subst hxy
      rw [StdMap.getElem?_assign_self] at hy ⊢
      cases hy
      exact ⟨id, object, rfl, hobject, htype, hhandle, href⟩
    · rw [StdMap.getElem?_assign_ne _ _ hxy] at hy ⊢
      exact h.bound y i hy
  · intro y hy
    change (s.refs.assign x ref)[y]? = none at hy
    change (m.env.assign x (.struct id))[y]? = none
    by_cases hxy : x = y
    · subst hxy
      rw [StdMap.getElem?_assign_self] at hy
      cases hy
    · rw [StdMap.getElem?_assign_ne _ _ hxy] at hy ⊢
      exact h.unbound y hy

theorem length_arrays (h : Represents base path m s) :
    m.world.heap.arrays.length = base.arrays.length + s.lists.length := by
  have hlength := congrArg List.length h.arrays
  rw [List.length_append, List.length_map, List.length_map] at hlength
  exact hlength

end Represents

/-! ## Steps -/

section Steps

variable {m : Machine S} {s : Lists}

theorem declare_of_ok {x : String} {type : TypeDescriptor} {initializer : Expr}
    {value : RuntimeValue} {w : World S}
    (h : (evaluate ctx (Machine.handlers ctx fuel) (.own m.env)
      (initializer.setInferredType (Machine.arrayType type)) m.world).outcome = .ok value w) :
    m.declare ctx fuel (Machine.declaration x type initializer) =
      (.returned .nil, { world := w, env := m.env.assign x value }) := by
  have hexec : (StmtExecutor.execVarDecl ctx (Machine.handlers ctx fuel) (.own m.env)
      (Machine.declaration x type initializer) m.world).outcome =
        .ok (.own (m.env.assign x value)) w := Comp.bind_of_ok h
  unfold Machine.declare
  rw [hexec]

/-- An operation with operands that may be stored, through the boundary. -/
theorem Represents.performs (h : Represents base path m s) {id handle : Nat}
    {list : List RuntimeValue} (hid : IsArray m.world.heap id handle list) (hlist : list ∈ s.lists)
    (method : Method) (hstore : ∀ value ∈ method.operation.operands, Storable base value) :
    Performs method m.world.heap id handle list := by
  apply Array.performs hid method
  · intro value hvalue
    exact ⟨(hstore value hvalue).1.mono h.structs, (hstore value hvalue).2⟩
  · intro value hvalue
    have hold := h.elements list hlist value hvalue
    exact ⟨hold.1.mono h.structs, hold.2⟩

theorem methodCall_outcome (ctx : Context S) (fuel : Nat) (hreg : Registered m.world.types path)
    {x : String} {id handle : Nat} {list : List RuntimeValue}
    (henv : m.env[x]? = some (.struct id)) (hid : IsArray m.world.heap id handle list)
    (method : Method) :
    (m.methodCall ctx fuel x method m.world).outcome =
      (hostCall ctx path id method m.world).outcome := by
  obtain ⟨moduleName, hdecl⟩ := hreg.declared
  obtain ⟨routine, hfind, hname, hbody, hparams⟩ := findRoutine_name moduleName method
  obtain ⟨object, hobject, htype, _⟩ := hid.instance_
  unfold Machine.methodCall ExprEvaluator.evalMethodCall
  refine (Comp.bind_of_ok (staticReceiver_of_bound henv _ m.world)).trans ?_
  refine (Comp.bind_of_ok (evalVariable_of_bound henv m.world)).trans ?_
  refine (callOnValue_outcome hobject htype hdecl hfind _ rfl).trans ?_
  exact routine_outcome ctx hreg hid moduleName hname hbody (hparams id) fuel

/-- Indexing is a call of `GetIndex`. -/
theorem index_outcome (ctx : Context S) (fuel : Nat) (hreg : Registered m.world.types path)
    {x : String} {id handle : Nat} {list : List RuntimeValue}
    (henv : m.env[x]? = some (.struct id)) (hid : IsArray m.world.heap id handle list)
    (index : Int64) :
    (evaluate ctx (Machine.handlers ctx fuel) (.own m.env)
      (.index {} (.var {} x) (.literal {} (.int index))) m.world).outcome =
      (hostCall ctx path id (.getIndex index) m.world).outcome := by
  obtain ⟨moduleName, hdecl⟩ := hreg.declared
  obtain ⟨routine, hfind, hname, hbody, hparams⟩ := findRoutine_name moduleName (.getIndex index)
  obtain ⟨object, hobject, htype, _⟩ := hid.instance_
  change ((evalVariable (.own m.env) x >>= fun object =>
    pure (RuntimeValue.ofLiteral (.int index)) >>= fun index =>
      ExprEvaluator.evalIndex ctx (Machine.handlers ctx fuel) object index) m.world).outcome = _
  refine (Comp.bind_of_ok (evalVariable_of_bound henv m.world)).trans ?_
  rw [Comp.outcome_pure_bind]
  unfold ExprEvaluator.evalIndex structAt
  dsimp only
  rw [Comp.outcome_gets_bind, hobject]
  dsimp only
  rw [htype]
  refine (indexStruct_outcome hdecl hfind _ _).trans ?_
  exact routine_outcome ctx hreg hid moduleName hname hbody (hparams id) fuel

/-- A command that uses declared variables and storable operands is observed on the machine
as on the lists. -/
theorem Represents.step (fuel : Nat) (hopen : Opened ctx.host path) (h : Represents base path m s)
    (command : Command) (hreceiver : ∀ x ∈ command.receiver, ∃ ref, s.refs[x]? = some ref)
    (hstore : ∀ value ∈ command.operands, Storable base value) :
    (m.step ctx fuel command).1 = (s.step command).1 ∧
      Represents base path (m.step ctx fuel command).2 (s.step command).2 := by
  cases command with
  | new x type =>
    have henv : ∀ value, m.env["Array"]? = some value → ∃ id object, value = .struct id ∧
        m.world.heap.structs[id]? = some object ∧ object.typeName = "Array" := by
      intro value hvalue
      cases href : s.refs["Array"]? with
      | none => exact absurd (hvalue.symm.trans (h.unbound _ href)) nofun
      | some ref =>
        obtain ⟨id, object, hid, hobject, htype, _⟩ := h.bound _ _ href
        exact ⟨id, object, Option.some.inj (hvalue.symm.trans hid), hobject, htype⟩
    obtain ⟨id, w, hnew, hcreates, _⟩ := evaluate_newCall hopen h.registered henv type fuel
    have hdeclare : m.step ctx fuel (.new x type) = _ := declare_of_ok hnew
    rw [hdeclare]
    refine ⟨rfl, (h.grow hcreates).assign x hcreates.instance_ rfl ?_ ?_⟩
    · rw [h.length_arrays]
    · rw [List.length_append]
      exact Nat.lt_succ_self _
  | share x y type =>
    obtain ⟨ref, href⟩ := hreceiver y rfl
    obtain ⟨id, object, henv, hobject, htype, hhandle, hlt⟩ := h.bound y ref href
    have hdeclare : m.step ctx fuel (.share x y type) = _ :=
      declare_of_ok (evalVariable_of_bound henv m.world)
    have hlists : s.step (.share x y type) =
        (.returned .nil, { s with refs := s.refs.assign x ref }) := by
      unfold Lists.step
      dsimp only
      rw [href]
    rw [hdeclare, hlists]
    exact ⟨rfl, h.assign x hobject htype hhandle hlt⟩
  | call x method =>
    obtain ⟨ref, href⟩ := hreceiver x rfl
    obtain ⟨id, list, henv, hlist, hid⟩ := h.isArray href
    have hperforms := h.performs hid (List.mem_of_getElem? hlist) method hstore
    have hanswers := (answers_hostCall hopen hperforms).congr
      (methodCall_outcome ctx fuel h.registered henv hid method)
    exact h.observe href hlist hstore hanswers
  | index x index =>
    obtain ⟨ref, href⟩ := hreceiver x rfl
    obtain ⟨id, list, henv, hlist, hid⟩ := h.isArray href
    have hoperands : ∀ value ∈ (Method.getIndex index).operation.operands, Storable base value :=
      fun _ hvalue => absurd hvalue List.not_mem_nil
    have hperforms := h.performs hid (List.mem_of_getElem? hlist) (.getIndex index) hoperands
    have hanswers := (answers_hostCall hopen hperforms).congr
      (index_outcome ctx fuel h.registered henv hid index)
    exact h.observe href hlist hoperands hanswers

/-- Variables that are declared refer to lists. -/
theorem exists_refs_step {declared : List String} {command : Command}
    (hdeclared : ∀ x ∈ declared, ∃ ref, s.refs[x]? = some ref)
    (hreceiver : ∀ x ∈ command.receiver, x ∈ declared) :
    ∀ x ∈ command.declared.toList ++ declared, ∃ ref, (s.step command).2.refs[x]? = some ref := by
  have hassign : ∀ (refs : StdMap Nat) (x y : String) (ref : Nat),
      (∃ i, refs[x]? = some i) → ∃ i, (refs.assign y ref)[x]? = some i := by
    intro refs x y ref hx
    by_cases hyx : y = x
    · exact ⟨ref, by rw [hyx, StdMap.getElem?_assign_self]⟩
    · rw [StdMap.getElem?_assign_ne _ _ hyx]
      exact hx
  have hcall : ∀ x operation, (s.call x operation).2.refs = s.refs := by
    intro x operation
    unfold Lists.call
    cases s.refs[x]? with
    | none => rfl
    | some ref =>
      dsimp only
      rcases perform s.lists ref operation with ⟨reply, lists⟩
      cases reply <;> rfl
  intro x hx
  cases command with
  | new y type =>
    rcases List.mem_cons.mp hx with rfl | hold
    · exact ⟨s.lists.length, StdMap.getElem?_assign_self _ _ _⟩
    · exact hassign s.refs x y _ (hdeclared x hold)
  | share y z type =>
    obtain ⟨ref, href⟩ := hdeclared z (hreceiver z rfl)
    unfold Lists.step
    dsimp only
    rw [href]
    rcases List.mem_cons.mp hx with rfl | hold
    · exact ⟨ref, StdMap.getElem?_assign_self _ _ _⟩
    · exact hassign s.refs x y ref (hdeclared x hold)
  | call y method =>
    change ∃ ref, (s.call y method.operation).2.refs[x]? = some ref
    rw [hcall]
    exact hdeclared x hx
  | index y index =>
    change ∃ ref, (s.call y (.getIndex index.toInt)).2.refs[x]? = some ref
    rw [hcall]
    exact hdeclared x hx

theorem Represents.run (fuel : Nat) (hopen : Opened ctx.host path) {program : List Command}
    {declared : List String} (h : Represents base path m s)
    (hdeclared : ∀ x ∈ declared, ∃ ref, s.refs[x]? = some ref) (hscoped : Scoped declared program)
    (hstore : ∀ command ∈ program, ∀ value ∈ command.operands, Storable base value) :
    (m.run ctx fuel program).1 = (s.run program).1 ∧
      Represents base path (m.run ctx fuel program).2 (s.run program).2 := by
  induction program generalizing m s declared with
  | nil => exact ⟨rfl, h⟩
  | cons command program ih =>
    obtain ⟨hreceiver, hrest⟩ := hscoped
    obtain ⟨hobserved, hnext⟩ := h.step fuel hopen command
      (fun x hx => hdeclared x (hreceiver x hx)) (hstore command List.mem_cons_self)
    obtain ⟨hobservations, hlast⟩ := ih hnext (exists_refs_step hdeclared hreceiver) hrest
      (fun c hc => hstore c (List.mem_cons_of_mem _ hc))
    exact ⟨congrArg₂ List.cons hobserved hobservations, hlast⟩

theorem represents_start {w : World S} (h : Registered w.types path) :
    Represents w.heap path { world := w } {} := by
  refine ⟨h, List.prefix_refl _, (List.append_nil _).symm, ?_, ?_, nofun⟩
  · intro x ref hx
    exact absurd hx (by simp)
  · intro x _
    exact Std.ExtTreeMap.getElem?_empty

/-- A program whose operands are elements and whose strings are short observes on the
interpreter what it observes on lists, and the arrays hold the lists afterwards. -/
theorem run_refines_lists (hopen : Opened ctx.host path) {w : World S}
    (hreg : Registered w.types path) (fuel : Nat) {program : List Command}
    (hscoped : Scoped [] program)
    (helement : ∀ command ∈ program, ∀ value ∈ command.operands, Element w.heap value)
    (hshort : ∀ command ∈ program, ∀ value ∈ command.operands, Short value) :
    (Machine.run ctx fuel { world := w } program).1 = (Lists.run {} program).1 ∧
      Represents w.heap path (Machine.run ctx fuel { world := w } program).2
        (Lists.run {} program).2 := by
  have hstart := represents_start hreg
  refine hstart.run fuel hopen (fun x hx => absurd hx List.not_mem_nil) hscoped ?_
  intro command hcommand value hvalue
  exact ⟨helement command hcommand value hvalue, hshort command hcommand value hvalue⟩

end Steps

/-! ## Long strings -/

section Long

variable {m : Machine S} {s : Lists} {text : String}

theorem unpackParams_long {heap : Heap} (handle : Nat)
    (h : (Int32.ofNat (byteCount text.toList)).toInt < 0) :
    (unpackParams (entriesOf heap handle none (some (.string text))) ∅ heap).outcome =
      .throw (.other "basic_string::_M_create") (received heap handle) := by
  have hlast : ∀ params, unpackParams [⟨"value", packValue heap (.string text)⟩] params =
      Comp.throw (.other "basic_string::_M_create") := by
    intro params
    unfold unpackParams packValue unpackValue readStr
    dsimp only
    rw [if_pos h]
    rfl
  change ((unpackValue _ >>= fun this => unpackParams [⟨"value", packValue heap (.string text)⟩]
    (StdMap.assign ∅ "this" this)) heap).outcome = _
  simp only [hlast]
  rfl

/-- A string whose length wraps to a negative `int32_t` does not arrive. -/
theorem callForeign_long {heap : Heap} {id handle : Nat} {list : List RuntimeValue}
    (hid : IsArray heap id handle list) (hlong : (Int32.ofNat (byteCount text.toList)).toInt < 0) :
    (callForeign pushBack (paramsOf id none (some (.string text))) heap).outcome =
      .throw (.other "basic_string::_M_create") (received heap handle) := by
  apply callForeign_of_throw
  rw [packParams_paramsOf hid]
  exact Comp.bind_of_throw (unpackParams_long _ hlong)

/-- Such a string cannot be appended. -/
theorem Represents.pushBack_raises (fuel : Nat) (hopen : Opened ctx.host path)
    (h : Represents base path m s) {x : String} {ref : Nat} (hx : s.refs[x]? = some ref)
    (hlong : (Int32.ofNat (byteCount text.toList)).toInt < 0) :
    (m.step ctx fuel (.call x (.pushBack (.string text)))).1 = .raised := by
  obtain ⟨id, list, henv, _, hid⟩ := h.isArray hx
  have hcall := callForeign_long hid hlong
  have hmethod := hopen.method (.pushBack (.string text))
  have houtcome := methodCall_outcome ctx fuel h.registered henv hid (.pushBack (.string text))
  have hraise := houtcome.trans (Comp.bind_of_throw (runHost_of_throw hmethod hcall))
  change (m.observe (m.methodCall ctx fuel x (.pushBack (.string text)))).1 = .raised
  unfold Machine.observe
  rw [hraise]

end Long

/-! ## The library, loaded -/

/-- The module of the declaration. -/
def arrayModule : Program where
  moduleName := "array"
  structs := [arrayDecl ""]
  ffImports := [{
    wrapperFile := "array-wrapper.cpp"
    imports := ["-I/opt/falcon/include/"]
    buildLibs := ["-L/opt/falcon/lib/"] }]

/-- The functions of the wrapper under their symbols. -/
def functions : List (String × FalconFFIFunc) :=
  [("STRUCTArrayNew", new), ("STRUCTArraySize", size), ("STRUCTArrayIsEmpty", isEmpty),
    ("STRUCTArrayGetIndex", getIndex), ("STRUCTArraySetIndex", setIndex),
    ("STRUCTArrayPushBack", pushBack), ("STRUCTArrayPopBack", popBack),
    ("STRUCTArrayInsert", insert), ("STRUCTArrayErase", erase), ("STRUCTArrayClear", clear)]

/-- A linker that compiles the wrapper to `path`. -/
def linker (path : String) : Linker := fun _ =>
  some { path := path, symbols := functions.map Prod.fst }

/-- A process that has the compiled wrapper open and nothing else. -/
def host : Host Unit where
  call symbol _ heap store := (.error (.other ("no symbol " ++ symbol.symbol)), heap, store)
  callMethod symbol _ params heap store :=
    match functions.lookup symbol.symbol with
    | some function =>
      match (callForeign function params heap).outcome with
      | .ok values heap => (.ok values, heap, store)
      | .throw e heap => (.error e, heap, store)
      | .halt _ => (.error (.other "undefined behaviour"), heap, store)
    | none => (.error (.other ("no symbol " ++ symbol.symbol)), heap, store)

theorem implements_host {path name : String} {function : FalconFFIFunc}
    (h : functions.lookup (symbol path name).symbol = some function) :
    Implements host (symbol path name) function := by
  intro receiver params heap store
  have hcall : host.callMethod (symbol path name) receiver params heap store =
      match (callForeign function params heap).outcome with
      | .ok values heap => (.ok values, heap, store)
      | .throw e heap => (.error e, heap, store)
      | .halt _ => (.error (.other "undefined behaviour"), heap, store) := by
    unfold host
    dsimp only
    rw [h]
  rw [hcall]
  cases (callForeign function params heap).outcome with
  | ok values heap' => rfl
  | throw e heap' => rfl
  | halt _ => trivial

theorem opened_host (path : String) : Opened host path where
  new := implements_host rfl
  method := by
    intro method
    cases method <;> exact implements_host rfl

/-- The registry once the module is loaded. -/
def loadedTypes (path : String) : TypeRegistry :=
  (AutotunerEngine.create.loadProgram ⟨arrayModule, linker path⟩).1.typeRegistry

/-- The routines of a struct are registered under its name alone. -/
theorem getElem?_registerForeignMethods (library : SharedLibrary) (types : TypeRegistry)
    {decl : StructDecl} {name : String} (h : decl.name ≠ name) :
    (AutotunerEngine.registerForeignMethods library types decl).ffiMethods[name]? =
      types.ffiMethods[name]? := by
  unfold AutotunerEngine.registerForeignMethods
  induction decl.routines generalizing types with
  | nil => rfl
  | cons routine routines ih =>
    refine (ih _).trans ?_
    unfold AutotunerEngine.registerForeignMethod
    dsimp only
    split
    · exact StdMap.getElem?_assign_ne _ _ h
    · rfl

theorem loadedTypes_eq (path : String) :
    loadedTypes path = AutotunerEngine.registerForeignMethods
      { path := path, symbols := functions.map Prod.fst }
      (TypeRegistry.registerStruct {} (arrayDecl "array")) (arrayDecl "") := by
  unfold loadedTypes AutotunerEngine.loadProgram
  dsimp only
  have himports : ∀ engine, AutotunerEngine.processFfImports (linker path) arrayModule
      arrayModule.ffImports engine = (AutotunerEngine.processFfImport arrayModule engine
        { path := path, symbols := functions.map Prod.fst }, true) := fun _ => rfl
  rw [himports]
  rfl

/-- A routine of this name has no body, and the library has its symbol. -/
def offers (symbols : List String) (decl : StructDecl) (name : String)
    (routine : RoutineDecl) : Bool :=
  routine.name == name && (routine.body.isEmpty &&
    symbols.contains (AutotunerEngine.methodSymbol decl routine))

theorem registerForeignMethod_self (library : SharedLibrary) (decl : StructDecl)
    (types : TypeRegistry) (routine : RoutineDecl) (name : String) :
    (AutotunerEngine.registerForeignMethod library decl types routine).ffiMethods[decl.name]?.bind
      (fun methods => methods[name]?) =
      if offers library.symbols decl name routine then some ⟨library.path, "STRUCT" ++ decl.name ++ name⟩
      else types.ffiMethods[decl.name]?.bind fun methods => methods[name]? := by
  unfold AutotunerEngine.registerForeignMethod offers
  dsimp only
  by_cases hc : (routine.body.isEmpty &&
      library.symbols.contains (AutotunerEngine.methodSymbol decl routine)) = true
  · rw [if_pos hc, hc, Bool.and_true]
    unfold TypeRegistry.registerFfiMethod
    dsimp only
    rw [StdMap.getElem?_assign_self, Option.bind_some, StdMap.getElem?_assign]
    by_cases hn : routine.name = name
    · subst hn
      rw [if_pos rfl, if_pos (beq_self_eq_true _)]
      rfl
    · rw [if_neg hn, if_neg (by simpa using hn)]
      cases types.ffiMethods[decl.name]? with
      | none => exact Std.ExtTreeMap.getElem?_empty
      | some methods => rfl
  · rw [if_neg hc, if_neg fun h => hc (Bool.and_eq_true_iff.mp h).2]

theorem registerForeignMethods_self (library : SharedLibrary) (types : TypeRegistry)
    {decl : StructDecl} {name : String} (h : decl.routines.any (offers library.symbols decl name) = true) :
    (AutotunerEngine.registerForeignMethods library types decl).ffiMethods[decl.name]?.bind
      (fun methods => methods[name]?) =
      some ⟨library.path, "STRUCT" ++ decl.name ++ name⟩ := by
  have hfold : ∀ (routines : List RoutineDecl) (types : TypeRegistry),
      ((routines.foldl (AutotunerEngine.registerForeignMethod library decl) types).ffiMethods[
        decl.name]?.bind fun methods => methods[name]?) =
        if routines.any (offers library.symbols decl name) then
          some ⟨library.path, "STRUCT" ++ decl.name ++ name⟩
        else types.ffiMethods[decl.name]?.bind fun methods => methods[name]? := by
    intro routines
    induction routines with
    | nil => exact fun _ => rfl
    | cons routine routines ih =>
      intro types
      refine (ih _).trans ?_
      rw [registerForeignMethod_self]
      cases hone : offers library.symbols decl name routine <;>
        cases hrest : routines.any (offers library.symbols decl name) <;>
          simp [List.any_cons, hone, hrest]
  exact (hfold decl.routines types).trans (if_pos h)

theorem registered_load (path : String) : Registered (loadedTypes path) path := by
  have hstructs : (loadedTypes path).structRegistry =
      (StdMap.assign ∅ "Array" (arrayDecl "array")).assign "array::Array" (arrayDecl "array") := rfl
  have hlast : ∀ args, (TypeDescriptor.instanceName "Array" args).toList.getLast? = some '>' :=
    InstanceCache.getLast?_instanceName "Array"
  have hne : ∀ args, "Array" ≠ TypeDescriptor.instanceName "Array" args := by
    intro args he
    have hchar := hlast args
    rw [← he] at hchar
    exact absurd hchar (by decide)
  have hqualified : ∀ args, "array::Array" ≠ TypeDescriptor.instanceName "Array" args := by
    intro args he
    have hchar := hlast args
    rw [← he] at hchar
    exact absurd hchar (by decide)
  have hoffers : ∀ name ∈ ["New", "PushBack", "PopBack", "GetIndex", "SetIndex", "Insert", "Erase",
      "Clear", "Size", "IsEmpty"],
      (arrayDecl "").routines.any (offers (functions.map Prod.fst) (arrayDecl "") name) = true := by
    decide
  refine ⟨⟨"array", ?_⟩, ?_, ?_, ?_, ?_⟩
  · rw [hstructs, StdMap.getElem?_assign_ne _ _ (by decide), StdMap.getElem?_assign_self]
  · rw [loadedTypes_eq]
    exact registerForeignMethods_self _ _ (hoffers "New" (by decide))
  · intro method
    rw [loadedTypes_eq]
    refine registerForeignMethods_self _ _ (hoffers method.name ?_)
    cases method <;> simp [Method.name]
  · intro args
    rw [loadedTypes_eq]
    exact (getElem?_registerForeignMethods _ _ (hne args)).trans Std.ExtTreeMap.getElem?_empty
  · intro type decl hdecl
    rw [hstructs, StdMap.getElem?_assign_ne _ _ (hqualified _), StdMap.getElem?_assign_ne _ _ (hne _)]
      at hdecl
    exact absurd hdecl (by simp)

/-! ## Two programs -/

/-- A process that runs with the module loaded, and a struct on its heap. -/
def loadedWorld : World Unit where
  heap := { structs := [{ typeName := "Point" }] }
  types := loadedTypes "libarray.so"
  store := ()

def loadedContext : Context Unit := { host := host }

def intType : TypeDescriptor := .ofParamType .int

/-- An array and an alias of it. -/
def sharing : List Command :=
  [.new "a" intType, .share "b" "a" intType, .call "a" (.pushBack (.struct 0)), .index "b" 0,
    .call "b" .popBack, .call "a" .popBack, .call "b" .isEmpty]

theorem run_refines_lists_sharing :
    (Machine.run loadedContext 0 { world := loadedWorld } sharing).1 =
      [.returned .nil, .returned .nil, .returned .nil, .returned (.struct 0),
        .returned (.struct 0), .raised, .returned (.bool true)] := by
  have hscoped : Scoped [] sharing := by
    simp [Scoped, sharing, Command.receiver, Command.declared]
  have helement : ∀ command ∈ sharing, ∀ value ∈ command.operands,
      Element loadedWorld.heap value := by
    simp [sharing, Command.operands, Method.operation, Operation.operands, Element, loadedWorld]
  have hshort : ∀ command ∈ sharing, ∀ value ∈ command.operands, Short value := by
    simp [sharing, Command.operands, Method.operation, Operation.operands, Short]
  have hopen : Opened loadedContext.host "libarray.so" := opened_host "libarray.so"
  have hreg : Registered loadedWorld.types "libarray.so" := registered_load "libarray.so"
  rw [(run_refines_lists hopen hreg 0 hscoped helement hshort).1]
  rfl

/-- A text is stored. -/
def storing (text : String) : List Command :=
  [.new "a" intType, .call "a" (.pushBack (.string text))]

theorem storing_raises {text : String} (hlong : (Int32.ofNat (byteCount text.toList)).toInt < 0) :
    (Machine.run loadedContext 0 { world := loadedWorld } (storing text)).1 ≠
      (Lists.run {} (storing text)).1 := by
  have hopen : Opened loadedContext.host "libarray.so" := opened_host "libarray.so"
  have hreg : Registered loadedWorld.types "libarray.so" := registered_load "libarray.so"
  have hstart := represents_start hreg
  obtain ⟨_, hnew⟩ := hstart.step 0 hopen (.new "a" intType) nofun nofun
  have hraise := hnew.pushBack_raises 0 hopen (StdMap.getElem?_assign_self _ _ _) hlong
  have hlists : (Lists.run {} (storing text)).1 = [.returned .nil, .returned .nil] := rfl
  rw [hlists]
  unfold storing Machine.run Machine.run
  dsimp only
  rw [hraise]
  intro h
  injection h with _ hrest
  injection hrest with hsecond _
  cases hsecond

theorem byteCount_replicate (n : Nat) :
    byteCount (String.ofList (List.replicate n 'a')).toList = n := by
  rw [String.toList_ofList]
  unfold byteCount
  rw [List.map_replicate, List.sum_replicate]
  exact Nat.mul_one n

/-- Lists take a string of `2 ^ 31` bytes, the interpreter raises an error. -/
theorem not_run_refines_lists_storing :
    (Machine.run loadedContext 0 { world := loadedWorld }
      (storing (String.ofList (List.replicate (2 ^ 31) 'a')))).1 ≠
      (Lists.run {} (storing (String.ofList (List.replicate (2 ^ 31) 'a')))).1 := by
  apply storing_raises
  rw [byteCount_replicate]
  decide

end FalconLib.Libs.Array
