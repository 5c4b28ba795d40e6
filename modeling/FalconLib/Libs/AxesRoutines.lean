import FalconLib.Libs.Axes

/-!
# Routines of an axes instance

A call of a routine on axes whose field holds an array answers like the operation of its name on
the elements. Where the field is nil the call raises an error.
-/

namespace FalconLib.Libs.Axes

open FalconLib.Base (Comp StdMap)
open FalconLib.Dsl
open FalconLib.Dsl.RoutineRuns
open FalconLib.Libs.Array (IsArray Leaves Machine Method Opened Search Searchable callOn replyValue)
open FalconLib.Libs.Map (Keepable Touches isArray_of_leaves var)
open FalconLib.Typing.FFI (Plain)
open ExprEvaluator (evaluate evaluateList)

/-! ## Operations -/

/-- The operations that axes share with arrays. -/
inductive Call where
  | of (method : Method)
  | find (search : Search) (value : RuntimeValue)

namespace Call

def name : Call → String
  | of method => method.name
  | find search _ => search.name

def args : Call → List RuntimeValue
  | of method => method.args
  | find _ value => [value]

def routine : Call → RoutineDecl
  | of (.pushBack _) => pushBackRoutine
  | of .popBack => popBackRoutine
  | of (.getIndex _) => getIndexRoutine
  | of (.setIndex _ _) => setIndexRoutine
  | of (.insert _ _) => insertRoutine
  | of (.erase _) => eraseRoutine
  | of .clear => clearRoutine
  | of .size => sizeRoutine
  | of .isEmpty => isEmptyRoutine
  | find .contains _ => containsRoutine
  | find .indexOf _ => indexOfRoutine

/-- Equality of elements; objects are the same where they are one object. -/
def sameElement : RuntimeValue → RuntimeValue → Bool
  | .struct i, .struct j => i == j
  | element, value => valuesEqual {} element value

/-- What a search of a list answers. -/
def answer : Search → List RuntimeValue → RuntimeValue → RuntimeValue
  | .contains, elements, value => .bool (elements.any (sameElement · value))
  | .indexOf, elements, value =>
    match elements.findIdx? (sameElement · value) with
    | some i => .int (Int64.ofNat i)
    | none => .int (-1)

/-- What the operation does to a list. -/
def run : Call → List RuntimeValue → Option (RuntimeValue × List RuntimeValue)
  | of method, elements =>
    (method.operation.run elements).map fun result => (replyValue result.1, result.2)
  | find search value, elements => some (answer search elements value, elements)

theorem run_of (method : Method) (elements : List RuntimeValue) :
    (of method).run elements =
      (method.operation.run elements).map fun result => (replyValue result.1, result.2) := rfl

/-- No element is a tuple, and `IndexOf` compares instances by what they hold. -/
def Sought (search : Search) : RuntimeValue → Prop
  | .tuple _ | .array _ => False
  | .struct _ => search = .contains
  | _ => True

/-- Values arrive in the library as they are, and one that is looked for can be told apart. -/
def Sent (heap : Heap) : Call → Prop
  | of method => ∀ value ∈ method.operation.operands, Keepable heap value
  | find search value => Sought search value ∧ Keepable heap value

theorem Sent.mono {heap heap' : Heap} (hsub : heap.structs <+: heap'.structs) {call : Call}
    (h : call.Sent heap) : call.Sent heap' := by
  cases call with
  | of method => exact fun value hv => (h value hv).mono hsub
  | find search value => exact ⟨h.1, h.2.mono hsub⟩

theorem length_args (call : Call) : call.routine.inputParams.length = call.args.length := by
  cases call with
  | of method => cases method <;> rfl
  | find search value => cases search <;> rfl

theorem mem_routines (call : Call) : call.routine ∈ (axesDecl "").routines := by
  cases call with
  | of method => cases method <;> simp [axesDecl, routine]
  | find search value => cases search <;> simp [axesDecl, routine]

/-- Every routine hands its inputs on to the routine of its name. -/
theorem routine_eq_delegated (call : Call) :
    call.routine =
      delegated call.name call.routine.inputParams call.routine.outputParams := by
  cases call with
  | of method => cases method <;> rfl
  | find search value => cases search <;> rfl

theorem valuesEqual_sought {search : Search} {heap : Heap} {value : RuntimeValue}
    (h : Sought search value) (hk : Keepable heap value) (element : RuntimeValue) :
    valuesEqual heap element value = sameElement element value := by
  cases value with
  | tuple id => exact h.elim
  | array id => exact h.elim
  | struct id =>
    obtain ⟨object, hobject, _⟩ := hk
    have hlt := (List.getElem?_eq_some_iff.mp hobject).1
    cases element with
    | struct i =>
      change samePointer heap.structs.length i id = (i == id)
      unfold samePointer
      rw [decide_eq_false (Nat.not_le_of_lt hlt), Bool.and_false, Bool.or_false]
    | _ => rfl
  | _ => cases element <;> rfl

/-- The searches of the library answer those of the list. -/
theorem answer_sought {search : Search} {heap : Heap} {value : RuntimeValue}
    (h : Sought search value) (hk : Keepable heap value) (elements : List RuntimeValue) :
    search.answer heap elements value = answer search elements value := by
  cases search with
  | contains =>
    change Array.answerContains heap elements value = _
    unfold Array.answerContains answer
    simp only [valuesEqual_sought h hk]
  | indexOf =>
    have hmatches : ∀ element, Array.elementMatches heap element value =
        sameElement element value := by
      intro element
      rw [← valuesEqual_sought h hk]
      cases value with
      | struct id => cases h
      | _ => cases element <;> rfl
    have hfirst : elements.findIdx? (Array.elementMatches heap · value) =
        elements.findIdx? (sameElement · value) := congrArg elements.findIdx? (funext hmatches)
    change Array.answerIndexOf heap elements value = _
    exact congrArg (fun found : Option Nat => match found with
      | some i => RuntimeValue.int (Int64.ofNat i)
      | none => .int (-1)) hfirst

end Call


/-! ## Axes in the heap -/

/-- Where an `Axes<type>` lives: the instance, and the array in its field, if there is one, with
what that stands for. -/
structure Place where
  type : TypeDescriptor
  id : Nat
  array : Option (Nat × Nat) := none

namespace Place

def field (p : Place) : RuntimeValue :=
  match p.array with
  | some (id, _) => .struct id
  | none => .nil

def handles (p : Place) : List Nat := (p.array.map Prod.snd).toList

end Place

/-- Axes without an array count as empty. -/
def Stored (heap : Heap) (p : Place) (elements : List RuntimeValue) : Prop :=
  match p.array with
  | some (id, handle) => IsArray heap id handle elements ∧ ∀ value ∈ elements, Keepable heap value
  | none => elements = []

theorem Stored.frame {heap heap' : Heap} {p : Place} {elements : List RuntimeValue}
    (h : Stored heap p elements) {handles : List Nat} (ht : Touches heap heap' handles)
    (hapart : ∀ handle ∈ p.handles, handle ∉ handles) : Stored heap' p elements := by
  obtain ⟨type, axes, array⟩ := p
  cases array with
  | none => exact h
  | some array =>
    obtain ⟨harray, hkept⟩ := h
    exact ⟨ht.isArray harray (hapart _ List.mem_cons_self),
      fun value hv => (hkept value hv).mono ht.structs⟩

/-- The libraries are opened, and the registry knows both modules. -/
structure Linked {S : Type} (ctx : Context S) (types : TypeRegistry) (path : String) : Prop where
  opened : Opened ctx.host path
  registered : Registered types path
  searchable : Searchable ctx.host types path

theorem Linked.registerInstance {S : Type} {ctx : Context S} {types : TypeRegistry} {path : String}
    (hl : Linked ctx types path) (type : TypeDescriptor) :
    Linked ctx (types.registerMonomorphizedStruct (instanceName type) (instanceDecl type)) path :=
  ⟨hl.opened, hl.registered.registerInstance type, hl.searchable.opened, hl.searchable.registered⟩

/-- What there was is still there: objects, arrays and declarations. -/
structure Undisturbed {S : Type} (ctx : Context S) (path : String) (w w' : World S) : Prop where
  heap : Touches w.heap w'.heap []
  linked : Linked ctx w'.types path
  instances : ∀ (name : String) (decl : StructDecl), w.types.structRegistry[name]? = some decl →
    w'.types.structRegistry[name]? = some decl

theorem Undisturbed.refl {S : Type} {ctx : Context S} {path : String} {w : World S}
    (hl : Linked ctx w.types path) : Undisturbed ctx path w w :=
  ⟨Touches.refl _ _, hl, fun _ _ hd => hd⟩

/-! ## The call in the body -/

section Body

variable {S : Type} {ctx : Context S} {w w' : World S} {path : String} {env : ParameterMap}
  {p : Place} {elements : List RuntimeValue} {call : Call}

/-- The arguments stand under the names of the parameters. -/
def Passed (env : ParameterMap) (call : Call) : Prop :=
  ∀ entry ∈ (call.routine.inputParams.map (·.name)).zip call.args, env[entry.1]? = some entry.2

/-- The call of the array answers like the operation on its elements. -/
theorem callArray_outcome (fuel : Nat) (hl : Linked ctx w.types path) {id handle : Nat}
    (henv : env["arr_"]? = some (.struct id)) (ha : IsArray w.heap id handle elements)
    (hkept : ∀ value ∈ elements, Keepable w.heap value) (hpassed : Passed env call)
    (hsent : call.Sent w.heap) :
    match call.run elements with
    | some (value, left) => ∃ heap',
      (evaluate ctx (Machine.handlers ctx fuel) (.own env)
        (callArray call.name call.routine.inputParams) w).outcome =
        .ok value { w with heap := heap' } ∧ Leaves w.heap heap' handle left ∧
          ∀ value ∈ left, Keepable w.heap value
    | none => ∃ heap',
      Raises (evaluate ctx (Machine.handlers ctx fuel) (.own env)
        (callArray call.name call.routine.inputParams)) w { w with heap := heap' } ∧
          Leaves w.heap heap' handle elements := by
  have hargs : (evaluateList ctx (Machine.handlers ctx fuel) (.own env)
      (call.routine.inputParams.map fun input => var input.name) w).outcome = .ok call.args w := by
    have hlength : (call.routine.inputParams.map (·.name)).length = call.args.length :=
      (List.length_map _).trans call.length_args
    have hvars : List.Forall₂ (fun name value => env[name]? = some value)
        (call.routine.inputParams.map (·.name)) call.args :=
      List.forall₂_iff_zip.mpr ⟨hlength, fun hentry => hpassed _ hentry⟩
    have hlist : (evaluateList ctx (Machine.handlers ctx fuel) (.own env)
        ((call.routine.inputParams.map (·.name)).map var) w).outcome = .ok call.args w :=
      evaluateList_vars hvars w
    rw [List.map_map] at hlist
    exact hlist
  cases call with
  | of method =>
    have hperforms := Array.performs_of_plain ha method (fun value hv => (hsent value hv).plain)
      fun heap' hsub value hv => ((hkept value hv).mono hsub).plain
    have hanswers := Array.evaluate_method hl.opened hl.registered.arrays henv ha hperforms fuel
      hargs
    unfold Array.Answers at hanswers
    rw [Call.run_of]
    cases hrun : method.operation.run elements with
    | some result =>
      obtain ⟨reply, left⟩ := result
      rw [hrun] at hanswers
      obtain ⟨heap', houtcome, hleaves⟩ := hanswers
      rw [Option.map_some]
      refine ⟨heap', houtcome, hleaves, fun value hv => ?_⟩
      rcases Base.ListHeap.Operation.mem_of_run hrun hv with hold | hnew
      · exact hkept value hold
      · exact hsent value hnew
    | none =>
      rw [hrun] at hanswers
      obtain ⟨e, heap', houtcome, hleaves⟩ := hanswers
      rw [Option.map_none]
      exact ⟨heap', ⟨e, houtcome⟩, hleaves⟩
  | find search value =>
    have houtcome := Array.evaluate_search hl.searchable hl.registered.arrays henv ha search
      hsent.2.plain fuel hargs
    have hreceived := Leaves.received ha
    rw [Call.answer_sought hsent.1 (hsent.2.mono hreceived.structs)] at houtcome
    exact ⟨_, houtcome, hreceived, hkept⟩

/-- Nil has no methods. -/
theorem callArray_nil (ctx : Context S) (h : Handlers S) (hreg : Registered w.types path)
    (henv : env["arr_"]? = some .nil) (name : String) (inputs : List ParamDecl) :
    Raises (evaluate ctx h (.own env) (callArray name inputs)) w w := by
  have hmethod : (registeredMethod "nil" name w).outcome = .ok none w := by
    change Base.Outcome.ok (w.types.typeMethods["nil"]?.bind fun methods => methods[name]?) w = _
    rw [hreg.nil]
    rfl
  have hlookup : (lookupMethod "nil" name w).outcome = .ok none w := by
    refine (Comp.bind_of_ok hmethod).trans ?_
    dsimp only
    rw [if_neg (by decide)]
    rfl
  refine Raises.of_ok (Array.staticReceiver_of_bound henv _ w)
    (Raises.of_ok (Array.evalVariable_of_bound henv w) ?_)
  unfold ExprEvaluator.callOnValue
  dsimp only
  exact ⟨_, (Comp.outcome_gets_bind _ _ w).trans ((Comp.bind_of_ok hlookup).trans rfl)⟩

end Body


/-! ## Before the body -/

/-- The map of variables before the outputs are made. -/
def inputsOf (p : Place) (call : Call) : ParameterMap :=
  ((StdMap.assign ∅ "this" (RuntimeValue.struct p.id)).assign "arr_" p.field).assignAll
    ((call.routine.inputParams.map (·.name)).zip call.args)

theorem findRoutine_call (type : TypeDescriptor) (call : Call) :
    (instanceDecl type).findRoutine call.name = some (instanceRoutine type call.routine) := by
  cases call with
  | of method => cases method <;> rfl
  | find search value => cases search <;> rfl

theorem body_instanceRoutine (type : TypeDescriptor) (call : Call) :
    (instanceRoutine type call.routine).body = call.routine.body := by
  cases call with
  | of method => cases method <;> rfl
  | find search value => cases search <;> rfl

/-- Inputs and outputs are named apart from each other and from the field. -/
theorem names_apart {call : Call} :
    (call.routine.inputParams.map (·.name)).Nodup ∧
      "arr_" ∉ call.routine.inputParams.map (·.name) ∧
        ∀ out ∈ call.routine.outputParams, "arr_" ≠ out.name ∧
          ∀ name ∈ call.routine.inputParams.map (·.name), out.name ≠ name := by
  have hroutines : ∀ routine ∈ (axesDecl "").routines,
      (routine.inputParams.map (·.name)).Nodup ∧ "arr_" ∉ routine.inputParams.map (·.name) ∧
        ∀ out ∈ routine.outputParams, "arr_" ≠ out.name ∧
          ∀ name ∈ routine.inputParams.map (·.name), out.name ≠ name := by decide
  exact hroutines _ call.mem_routines

theorem field_inputsOf (p : Place) (call : Call) : (inputsOf p call)["arr_"]? = some p.field := by
  unfold inputsOf
  rw [StdMap.getElem?_assignAll, StdMap.getElem?_assign_self]
  cases hwrite : StdMap.lastWrite "arr_" _ with
  | none => exact Option.none_or
  | some value =>
    have hname := (List.of_mem_zip (StdMap.mem_of_lastWrite hwrite)).1
    exact absurd hname names_apart.2.1

theorem passed_inputsOf (p : Place) (call : Call) : Passed (inputsOf p call) call := by
  intro entry hentry
  refine StdMap.getElem?_assignAll_of_mem ?_ hentry
  rw [List.map_fst_zip (by rw [List.length_map]; exact call.length_args.le)]
  exact names_apart.1

/-- A routine has no output, or one under the name that the declaration gives it. -/
theorem outputParams_instanceRoutine (type : TypeDescriptor) (call : Call) :
    ((instanceRoutine type call.routine).outputParams = [] ∧ call.routine.outputParams = []) ∨
      ∃ out base, (instanceRoutine type call.routine).outputParams = [out] ∧
        call.routine.outputParams = [base] ∧ out.defaultValue = none ∧ out.name = base.name := by
  cases call with
  | of method =>
    cases method <;>
      first
      | exact .inl ⟨rfl, rfl⟩
      | exact .inr ⟨_, _, rfl, rfl, rfl, rfl⟩
  | find search value => cases search <;> exact .inr ⟨_, _, rfl, rfl, rfl, rfl⟩

section Outputs

variable {S : Type} {ctx : Context S} {w : World S} {path : String} {p : Place} {call : Call}

/-- Making a fresh instance for an output whose type is a struct raises no error and changes
nothing that is there. -/
def Quiet (ctx : Context S) (fuel : Nat) (path : String) (w : World S) (p : Place) (call : Call) :
    Prop :=
  ∀ out ∈ (instanceRoutine p.type call.routine).outputParams, out.type.isStruct = true →
    ∃ value w', (StructRoutine.freshOutput ctx (Machine.handlers ctx fuel) (inputsOf p call)
      out.type.structName w).outcome = .ok value w' ∧ Undisturbed ctx path w w'

theorem outputs_outcome {fuel : Nat} (hl : Linked ctx w.types path)
    (hq : Quiet ctx fuel path w p call) :
    ∃ env w', (StructRoutine.initialiseOutputs ctx (Machine.handlers ctx fuel)
        (instanceRoutine p.type call.routine).outputParams (inputsOf p call) w).outcome =
        .ok env w' ∧ env["arr_"]? = some p.field ∧ Passed env call ∧ Undisturbed ctx path w w' := by
  have hfield := field_inputsOf p call
  have hpassed := passed_inputsOf p call
  rcases outputParams_instanceRoutine p.type call with
    ⟨hnone, _⟩ | ⟨out, base, hone, hbase, hdefault, hname⟩
  · rw [hnone]
    exact ⟨_, w, rfl, hfield, hpassed, Undisturbed.refl hl⟩
  · rw [hone]
    cases htype : out.type.isStruct with
    | false =>
      refine ⟨_, w, initialiseOutputs_outcome ?_ _ w, hfield, hpassed, Undisturbed.refl hl⟩
      intro o ho
      rw [List.mem_singleton.mp ho]
      exact ⟨htype, hdefault⟩
    | true =>
      obtain ⟨value, w', hfresh, hundisturbed⟩ :=
        hq out (by rw [hone]; exact List.mem_cons_self) htype
      obtain ⟨harr, hinputs⟩ := names_apart.2.2 base (hbase ▸ List.mem_cons_self)
      refine ⟨_, w', initialiseOutputs_struct htype hfresh, ?_, ?_, hundisturbed⟩
      · rw [hname, StdMap.getElem?_assign_ne _ _ harr.symm, hfield]
      · intro entry hentry
        rw [hname, StdMap.getElem?_assign_ne _ _ (hinputs _ (List.of_mem_zip hentry).1)]
        exact hpassed entry hentry

end Outputs


/-! ## Calls -/

section Calls

variable {S : Type} {ctx : Context S} {w w' : World S} {path : String} {p : Place}
  {elements : List RuntimeValue} {call : Call}

/-- The instance of the place is of its type, with the array in its field. -/
structure IsAxes (w : World S) (p : Place) : Prop where
  object : ∃ object, w.heap.structs[p.id]? = some object ∧ object.typeName = instanceName p.type
  declared : w.types.structRegistry[instanceName p.type]? = some (instanceDecl p.type)
  field : w.heap.field? p.id "arr_" = some p.field

theorem IsAxes.of_touches (h : IsAxes w p) {handles : List Nat}
    (ht : Touches w.heap w'.heap handles)
    (hi : ∀ (name : String) (decl : StructDecl), w.types.structRegistry[name]? = some decl →
      w'.types.structRegistry[name]? = some decl) : IsAxes w' p := by
  obtain ⟨object, hobject, htype⟩ := h.object
  exact ⟨⟨object, getElem?_of_isPrefix ht.structs hobject, htype⟩, hi _ _ h.declared,
    ht.field? h.field⟩

theorem IsAxes.found (h : IsAxes w p) :
    found w.types (instanceName p.type) = some (instanceDecl p.type) := by
  unfold RoutineRuns.found
  rw [h.declared, Option.some_or]

theorem IsAxes.hasFields (h : IsAxes w p) :
    HasFields w.heap p.id (instanceDecl p.type).fields [p.field] := by
  rw [fields_instanceDecl]
  exact .cons h.field .nil

/-- A call on the axes has left the elements `left`. -/
structure After (ctx : Context S) (path : String) (w w' : World S) (p : Place)
    (left : List RuntimeValue) : Prop where
  stored : Stored w'.heap p left
  touches : Touches w.heap w'.heap p.handles
  linked : Linked ctx w'.types path
  instances : ∀ (name : String) (decl : StructDecl), w.types.structRegistry[name]? = some decl →
    w'.types.structRegistry[name]? = some decl

/-- The map of variables on which the body of a routine runs. -/
theorem environment_outcome (fuel : Nat) (hm : IsAxes w p) (hl : Linked ctx w.types path)
    (hq : Quiet ctx fuel path w p call) :
    ∃ env w', (StructRoutine.routineEnvironment ctx (Machine.handlers ctx fuel) p.id
        (instanceDecl p.type) (instanceRoutine p.type call.routine) call.args w).outcome =
        .ok env w' ∧
      env["arr_"]? = some p.field ∧ Passed env call ∧ Undisturbed ctx path w w' := by
  obtain ⟨env, w', houtputs, hfield, hpassed, hundisturbed⟩ := outputs_outcome hl hq
  refine ⟨env, w', ?_, hfield, hpassed, hundisturbed⟩
  have hlength : (instanceRoutine p.type call.routine).inputParams.length = call.args.length :=
    (List.length_map _).trans call.length_args
  have hfields : flat (instanceDecl p.type).fields [p.field] = [("arr_", p.field)] := by
    rw [fields_instanceDecl]
    rfl
  refine (routineEnvironment_outcome hm.hasFields hlength).trans ?_
  rw [← houtputs, hfields]
  unfold instanceRoutine monomorphizeRoutine
  dsimp only
  rw [List.map_map]
  rfl

/-- The answer of the array is the answer of the routine. -/
theorem delegated_ends {h : Handlers S} {env : ParameterMap} {value : RuntimeValue}
    (hcall : (evaluate ctx h (.own env) (callArray call.name call.routine.inputParams) w).outcome =
      .ok value w')
    (hnil : call.routine.outputParams = [] → value = .nil) :
    ∃ env', Runs ctx h env call.routine.body w env' w' ∧
      match call.routine.outputParams with
      | [] => value = .nil
      | out :: _ => env'[out.name]? = some value := by
  have hbody : call.routine.body = (delegated call.name call.routine.inputParams
      call.routine.outputParams).body := congrArg RoutineDecl.body call.routine_eq_delegated
  rw [hbody]
  unfold delegated Map.bodied
  cases houts : call.routine.outputParams with
  | nil => exact ⟨env, Runs.cons (Steps.expr hcall) Runs.nil, hnil houts⟩
  | cons out outs =>
    exact ⟨_, Runs.cons (Steps.assign hcall) Runs.nil, StdMap.getElem?_assign_self _ _ _⟩

theorem delegated_raises {h : Handlers S} {env : ParameterMap}
    (hcall : Raises (evaluate ctx h (.own env) (callArray call.name call.routine.inputParams)) w
      w') :
    Raises (StmtExecutor.executeBlock ctx h (.own env) call.routine.body) w w' := by
  have hbody : call.routine.body = (delegated call.name call.routine.inputParams
      call.routine.outputParams).body := congrArg RoutineDecl.body call.routine_eq_delegated
  rw [hbody]
  unfold delegated Map.bodied
  cases call.routine.outputParams with
  | nil => exact executeBlock_of_raises (Raises.withContext (Raises.bind hcall) _)
  | cons out outs =>
    exact executeBlock_of_raises (Raises.withContext (Raises.bind (Raises.bind hcall)) _)

/-- The answer is collected from the variables that the body has left. -/
theorem collect_outcome {env : ParameterMap} {value : RuntimeValue}
    (ha : match call.routine.outputParams with
      | [] => value = .nil
      | out :: _ => env[out.name]? = some value) (name : String) (w : World S) :
    ((StructRoutine.collectOutputs name
        (env.assignAll (flat (instanceDecl p.type).fields [p.field]))
        (instanceRoutine p.type call.routine).outputParams >>= packResult) w).outcome =
      .ok value w := by
  rcases outputParams_instanceRoutine p.type call with
    ⟨hnone, hbase⟩ | ⟨out, base, hone, hbase, _, hname⟩
  · rw [hbase] at ha
    rw [hnone, ha]
    rfl
  · rw [hbase] at ha
    dsimp only at ha
    obtain ⟨harr, _⟩ := names_apart.2.2 base (hbase ▸ List.mem_cons_self)
    have hget : (env.assignAll (flat (instanceDecl p.type).fields [p.field]))[out.name]? =
        some value := by
      rw [hname, ← ha, fields_instanceDecl]
      exact StdMap.getElem?_assign_ne _ _ harr
    have hcollect : (StructRoutine.collectOutputs name
        (env.assignAll (flat (instanceDecl p.type).fields [p.field])) [out] w).outcome =
        .ok [value] w := by
      unfold StructRoutine.collectOutputs
      rw [hget]
      rfl
    rw [hone]
    exact Comp.bind_of_ok hcollect

theorem Call.nil_of_run {value : RuntimeValue} {left : List RuntimeValue}
    (h : call.run elements = some (value, left)) (hnone : call.routine.outputParams = []) :
    value = .nil := by
  cases call with
  | of method =>
    rw [Call.run_of] at h
    obtain ⟨⟨reply, list⟩, hrun, hresult⟩ := Option.map_eq_some_iff.mp h
    cases hresult
    cases method with
    | pushBack v =>
      cases hrun
      rfl
    | setIndex i v =>
      obtain ⟨_, hset⟩ := Option.ite_none_right_eq_some.mp hrun
      cases hset
      rfl
    | insert i v =>
      obtain ⟨_, hinsert⟩ := Option.ite_none_right_eq_some.mp hrun
      cases hinsert
      rfl
    | erase i =>
      obtain ⟨_, herase⟩ := Option.ite_none_right_eq_some.mp hrun
      cases herase
      rfl
    | clear =>
      cases hrun
      rfl
    | popBack => cases hnone
    | getIndex i => cases hnone
    | size => cases hnone
    | isEmpty => cases hnone
  | find search v => cases search <;> cases hnone

/-- A call on axes answers like its operation on the elements. Where the field is nil, only what
fails on no elements is like it. -/
theorem call_outcome (fuel : Nat) (hl : Linked ctx w.types path) (hm : IsAxes w p)
    (hs : Stored w.heap p elements) (hsent : call.Sent w.heap) (hq : Quiet ctx fuel path w p call)
    (hready : p.array = none → call.run [] = none) :
    match call.run elements with
    | some (value, left) => ∃ w',
      (ExprEvaluator.callOnValue ctx (Machine.handlers ctx (fuel + 1)) (.struct p.id) call.name
        (pure call.args) w).outcome = .ok value w' ∧ After ctx path w w' p left
    | none => ∃ w',
      Raises (ExprEvaluator.callOnValue ctx (Machine.handlers ctx (fuel + 1)) (.struct p.id)
        call.name (pure call.args)) w w' ∧ After ctx path w w' p elements := by
  obtain ⟨object, hobject, htype⟩ := hm.object
  have hfound : found w.types object.typeName = some (instanceDecl p.type) := htype ▸ hm.found
  have hcall : (ExprEvaluator.callOnValue ctx (Machine.handlers ctx (fuel + 1)) (.struct p.id)
      call.name (pure call.args) w).outcome =
      ((StructRoutine.execStructRoutine ctx (Machine.handlers ctx fuel) p.id
        (instanceDecl p.type) (instanceRoutine p.type call.routine) call.args >>= packResult)
        w).outcome :=
    callOnValue_outcome hobject hfound (findRoutine_call p.type call) rfl
  obtain ⟨env, w₁, henv, hfield, hpassed, hundisturbed⟩ := environment_outcome fuel hm hl hq
  have hl₁ := hundisturbed.linked
  have hs₁ : Stored w₁.heap p elements :=
    hs.frame hundisturbed.heap fun _ _ => List.not_mem_nil
  have hafter : ∀ heap' left, Stored heap' p left → Touches w₁.heap heap' p.handles →
      After ctx path w { w₁ with heap := heap' } p left := by
    intro heap' left hstored htouches
    exact ⟨hstored, (hundisturbed.heap.mono (List.nil_subset _)).trans htouches, hl₁,
      hundisturbed.instances⟩
  have hnonempty : (instanceRoutine p.type call.routine).body.isEmpty = false := by
    rw [body_instanceRoutine, call.routine_eq_delegated]
    unfold delegated Map.bodied
    cases call.routine.outputParams <;> rfl
  have hraises : ∀ w', Raises (evaluate ctx (Machine.handlers ctx fuel) (.own env)
      (callArray call.name call.routine.inputParams)) w₁ w' →
      Raises (ExprEvaluator.callOnValue ctx (Machine.handlers ctx (fuel + 1)) (.struct p.id)
        call.name (pure call.args)) w w' := by
    intro w' hraise
    have hbody := delegated_raises hraise
    rw [← body_instanceRoutine p.type] at hbody
    obtain ⟨e, he⟩ := execStructRoutine_of_raises hnonempty henv hbody
    exact ⟨e, hcall.trans (Comp.bind_of_throw he)⟩
  cases harray : p.array with
  | none =>
    have hempty : elements = [] := by
      unfold Stored at hs
      rw [harray] at hs
      exact hs
    have hnil : env["arr_"]? = some .nil := by
      unfold Place.field at hfield
      rw [harray] at hfield
      exact hfield
    subst hempty
    rw [hready harray]
    exact ⟨w₁, hraises w₁ (callArray_nil ctx _ hl₁.registered hnil _ _),
      hafter w₁.heap [] hs₁ (Touches.refl _ _)⟩
  | some array =>
    obtain ⟨id, handle⟩ := array
    have hinstance : env["arr_"]? = some (.struct id) := by
      unfold Place.field at hfield
      rw [harray] at hfield
      exact hfield
    have hhandles : p.handles = [handle] := by
      unfold Place.handles
      rw [harray]
      rfl
    unfold Stored at hs₁
    rw [harray] at hs₁
    obtain ⟨ha, hkept⟩ := hs₁
    have hstored : ∀ heap' left, Leaves w₁.heap heap' handle left →
        (∀ value ∈ left, Keepable w₁.heap value) → Stored heap' p left := by
      intro heap' left hleaves hleft
      unfold Stored
      rw [harray]
      exact ⟨isArray_of_leaves ha hleaves, fun value hv => (hleft value hv).mono hleaves.structs⟩
    have htouches : ∀ heap' left, Leaves w₁.heap heap' handle left →
        Touches w₁.heap heap' p.handles := by
      intro heap' left hleaves
      exact Touches.of_leaves hleaves (hhandles ▸ List.mem_cons_self)
    have hanswer := callArray_outcome fuel hl₁ hinstance ha hkept hpassed
      (hsent.mono hundisturbed.heap.structs)
    cases hrun : call.run elements with
    | some result =>
      obtain ⟨value, left⟩ := result
      rw [hrun] at hanswer
      obtain ⟨heap', houtcome, hleaves, hleft⟩ := hanswer
      obtain ⟨env', hruns, hanswered⟩ := delegated_ends houtcome (Call.nil_of_run hrun)
      have hdone := hafter heap' left (hstored heap' left hleaves hleft)
        (htouches heap' left hleaves)
      rw [← body_instanceRoutine p.type] at hruns
      have hm' : IsAxes { w₁ with heap := heap' } p :=
        hm.of_touches hdone.touches hundisturbed.instances
      have hexec := execStructRoutine_of_runs hnonempty henv hruns hm'.hasFields
      refine ⟨{ w₁ with heap := heap' }, ?_, hdone⟩
      rw [hcall, Comp.outcome_bind, hexec, ← Comp.outcome_bind]
      exact collect_outcome hanswered _ _
    | none =>
      rw [hrun] at hanswer
      obtain ⟨heap', hraise, hleaves⟩ := hanswer
      exact ⟨{ w₁ with heap := heap' }, hraises _ hraise,
        hafter heap' elements (hstored heap' elements hleaves hkept)
          (htouches heap' elements hleaves)⟩

end Calls

end FalconLib.Libs.Axes
