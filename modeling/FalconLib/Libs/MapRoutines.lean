import FalconLib.Libs.MapBodies

/-!
# Routines of a map instance

A call of a routine on a map answers like the operation of its name on the table in its
arrays, and leaves the table of the operation there.
-/

namespace FalconLib.Libs.Map

open FalconLib.Base (Comp StdMap Table)
open FalconLib.Base.Table (Operation Reply)
open FalconLib.Dsl
open FalconLib.Dsl.RoutineRuns
open FalconLib.Libs.Array (Machine callOn)
open ExprEvaluator (evaluate evaluateList)

/-! ## Operations as routines -/

abbrev MapTable := Table RuntimeValue RuntimeValue

abbrev MapOperation := Operation RuntimeValue RuntimeValue

def routineOf : MapOperation → RoutineDecl
  | .set _ _ => setRoutine
  | .get _ => getRoutine
  | .getOr _ _ => getOrRoutine
  | .remove _ => removeRoutine
  | .contains _ => containsRoutine
  | .clear => clearRoutine
  | .size => sizeRoutine
  | .isEmpty => isEmptyRoutine

def argsOf : MapOperation → List RuntimeValue
  | .set key value | .getOr key value => [key, value]
  | .get key | .remove key | .contains key => [key]
  | .clear | .size | .isEmpty => []

/-- The value of the language that an answer is. -/
def answerValue : Reply RuntimeValue → RuntimeValue
  | .done => .nil
  | .value value => value
  | .flag b => .bool b
  | .count n => .int (Int64.ofNat n)

/-- The map of variables before the outputs are made. -/
def inputsOf (p : Place) (routine : RoutineDecl) (args : List RuntimeValue) : ParameterMap :=
  (((StdMap.assign ∅ "this" (RuntimeValue.struct p.id)).assign "keys_"
    (.struct p.keysId)).assign "values_" (.struct p.valuesId)).assignAll
      ((routine.inputParams.map (·.name)).zip args)

section Bodies

variable {S : Type} {ctx : Context S} {w : World S} {path : String} {env : ParameterMap}
  {p : Place} {t : MapTable}

/-- The arguments stand under the names of the parameters. -/
def Passed (env : ParameterMap) (operation : MapOperation) : Prop :=
  ∀ entry ∈ ((routineOf operation).inputParams.map (·.name)).zip (argsOf operation),
    env[entry.1]? = some entry.2

/-- The answer stands under the name of the output. -/
def Answered (env : ParameterMap) (operation : MapOperation) (reply : Reply RuntimeValue) : Prop :=
  match (routineOf operation).outputParams with
  | [] => answerValue reply = .nil
  | out :: _ => env[out.name]? = some (answerValue reply)

/-- The body of a routine does what the operation does to the table. -/
theorem body_outcome (fuel : Nat) (hl : Linked ctx w.types path) (hb : Bound env p)
    (hs : Tabled w.heap p t) {operation : MapOperation} (hpassed : Passed env operation)
    (hkeys : ∀ key ∈ operation.newKeys, Key key)
    (hvalues : ∀ value ∈ operation.newValues, Keepable w.heap value)
    (hlen : t.keys.length < 2 ^ 63) :
    match operation.run t with
    | some (reply, left) =>
      Ends ctx fuel env (routineOf operation).body w p left fun env' =>
        Answered env' operation reply
    | none => Fails ctx fuel env (routineOf operation).body w p t := by
  cases operation with
  | set key value =>
    have hkey := hpassed ("key", key) List.mem_cons_self
    have hvalue := hpassed ("value", value) (List.mem_cons_of_mem _ List.mem_cons_self)
    exact (ends_set hl hb hs (hkeys key List.mem_cons_self) hkey
      (hvalues value List.mem_cons_self) hvalue hlen).mono fun _ _ => rfl
  | get key =>
    have hkey := hpassed ("key", key) List.mem_cons_self
    have hrun : (Operation.get key).run t =
        (t.get? key).map fun value => (Reply.value value, t) := rfl
    rw [hrun]
    cases hget : t.get? key with
    | some value => exact ends_get hl hb hs (hkeys key List.mem_cons_self) hkey hlen hget
    | none => exact fails_get hl hb hs (hkeys key List.mem_cons_self) hkey hget
  | getOr key value =>
    have hkey := hpassed ("key", key) List.mem_cons_self
    have hvalue := hpassed ("default_value", value) (List.mem_cons_of_mem _ List.mem_cons_self)
    exact ends_getOr hl hb hs (hkeys key List.mem_cons_self) hkey hvalue hlen
  | remove key =>
    have hkey := hpassed ("key", key) List.mem_cons_self
    exact ends_remove hl hb hs (hkeys key List.mem_cons_self) hkey hlen
  | contains key =>
    have hkey := hpassed ("key", key) List.mem_cons_self
    exact ends_contains hl hb hs (hkeys key List.mem_cons_self) hkey
  | clear => exact (ends_clear hl hb hs).mono fun _ _ => rfl
  | size => exact ends_size hl hb hs
  | isEmpty => exact ends_isEmpty hl hb hs hlen

end Bodies

/-! ## Before the body -/

theorem findRoutine_routineOf (k v : TypeDescriptor) (operation : MapOperation) :
    (instanceDecl k v).findRoutine (routineOf operation).name =
      some (instanceRoutine k v (routineOf operation)) := by
  cases operation <;> rfl

theorem body_instanceRoutine (k v : TypeDescriptor) (operation : MapOperation) :
    (instanceRoutine k v (routineOf operation)).body = (routineOf operation).body := by
  cases operation <;> rfl

theorem bound_inputsOf (p : Place) (operation : MapOperation) :
    Bound (inputsOf p (routineOf operation) (argsOf operation)) p := by
  unfold inputsOf
  constructor
  · rw [StdMap.getElem?_assignAll, StdMap.getElem?_assign_ne _ _ (by decide),
      StdMap.getElem?_assign_self]
    cases operation <;> rfl
  · rw [StdMap.getElem?_assignAll, StdMap.getElem?_assign_self]
    cases operation <;> rfl

theorem mem_routines (operation : MapOperation) :
    routineOf operation ∈ (mapDecl "").routines := by
  cases operation <;> simp [mapDecl, routineOf]

theorem length_argsOf (operation : MapOperation) :
    (routineOf operation).inputParams.length = (argsOf operation).length := by
  cases operation <;> rfl

theorem passed_inputsOf (p : Place) (operation : MapOperation) :
    Passed (inputsOf p (routineOf operation) (argsOf operation)) operation := by
  intro entry hentry
  have hnodup : ∀ routine ∈ (mapDecl "").routines,
      (routine.inputParams.map (·.name)).Nodup := by decide
  refine StdMap.getElem?_assignAll_of_mem ?_ hentry
  rw [List.map_fst_zip (by rw [List.length_map]; exact (length_argsOf operation).le)]
  exact hnodup _ (mem_routines operation)

/-- The outputs are named apart from the inputs and the fields. -/
theorem name_outputParams {operation : MapOperation} {out : ParamDecl}
    (ho : out ∈ (routineOf operation).outputParams) :
    out.name ≠ "keys_" ∧ out.name ≠ "values_" ∧
      ∀ entry ∈ ((routineOf operation).inputParams.map (·.name)).zip (argsOf operation),
        out.name ≠ entry.1 := by
  have hapart : ∀ routine ∈ (mapDecl "").routines, ∀ out ∈ routine.outputParams,
      out.name ≠ "keys_" ∧ out.name ≠ "values_" ∧
        ∀ name ∈ routine.inputParams.map (·.name), out.name ≠ name := by decide
  obtain ⟨hkeys, hvalues, hinputs⟩ := hapart _ (mem_routines operation) out ho
  exact ⟨hkeys, hvalues, fun entry hentry => hinputs _ (List.of_mem_zip hentry).1⟩

/-- What there was is still there: objects, arrays and declarations. -/
structure Undisturbed {S : Type} (path : String) (w w' : World S) : Prop where
  heap : Touches w.heap w'.heap []
  registered : Registered w'.types path
  methods : w'.types.ffiMethods = w.types.ffiMethods
  instances : ∀ (name : String) (decl : StructDecl), w.types.structRegistry[name]? = some decl →
    w'.types.structRegistry[name]? = some decl

theorem Undisturbed.refl {S : Type} {path : String} {w : World S} (h : Registered w.types path) :
    Undisturbed path w w := ⟨Touches.refl _ _, h, rfl, fun _ _ hd => hd⟩

theorem Undisturbed.linked {S : Type} {ctx : Context S} {path : String} {w w' : World S}
    (h : Undisturbed path w w') (hl : Linked ctx w.types path) : Linked ctx w'.types path :=
  ⟨hl.opened, h.registered, hl.searchable.opened, fun search => by
    rw [h.methods]
    exact hl.searchable.registered search⟩

section Outputs

variable {S : Type} {ctx : Context S} {w : World S} {path : String} {p : Place}

/-- Making a fresh instance for an output whose type is a struct raises no error and changes
nothing that is there. -/
def Quiet (ctx : Context S) (fuel : Nat) (path : String) (w : World S) (env : ParameterMap)
    (routine : RoutineDecl) : Prop :=
  ∀ out ∈ routine.outputParams, out.type.isStruct = true → ∃ value w',
    (StructRoutine.freshOutput ctx (Machine.handlers ctx fuel) env out.type.structName w).outcome =
      .ok value w' ∧ Undisturbed path w w'

/-- A routine has no output, or one under the name that the declaration gives it. -/
theorem outputParams_instanceRoutine (k v : TypeDescriptor) (operation : MapOperation) :
    ((instanceRoutine k v (routineOf operation)).outputParams = [] ∧
        (routineOf operation).outputParams = []) ∨
      ∃ out base, (instanceRoutine k v (routineOf operation)).outputParams = [out] ∧
        (routineOf operation).outputParams = [base] ∧ out.defaultValue = none ∧
          out.name = base.name := by
  cases operation <;>
    first
    | exact .inl ⟨rfl, rfl⟩
    | exact .inr ⟨_, _, rfl, rfl, rfl, rfl⟩

theorem outputs_outcome {fuel : Nat} {operation : MapOperation} (hreg : Registered w.types path)
    {env : ParameterMap} (hb : Bound env p) (hpassed : Passed env operation)
    (hq : Quiet ctx fuel path w env (instanceRoutine p.keyType p.valueType (routineOf operation))) :
    ∃ env' w', (StructRoutine.initialiseOutputs ctx (Machine.handlers ctx fuel)
        (instanceRoutine p.keyType p.valueType (routineOf operation)).outputParams env w).outcome =
        .ok env' w' ∧ Bound env' p ∧ Passed env' operation ∧ Undisturbed path w w' := by
  rcases outputParams_instanceRoutine p.keyType p.valueType operation with
    ⟨hnone, _⟩ | ⟨out, base, hone, hbase, hdefault, hname⟩
  · rw [hnone]
    exact ⟨env, w, rfl, hb, hpassed, Undisturbed.refl hreg⟩
  · rw [hone]
    cases htype : out.type.isStruct with
    | false =>
      refine ⟨env, w, initialiseOutputs_outcome ?_ env w, hb, hpassed, Undisturbed.refl hreg⟩
      intro o ho
      rw [List.mem_singleton.mp ho]
      exact ⟨htype, hdefault⟩
    | true =>
      obtain ⟨value, w', hfresh, hundisturbed⟩ :=
        hq out (by rw [hone]; exact List.mem_cons_self) htype
      obtain ⟨hk, hv, hinputs⟩ := name_outputParams (hbase ▸ List.mem_cons_self)
      refine ⟨env.assign out.name value, w', initialiseOutputs_struct htype hfresh, ?_, ?_,
        hundisturbed⟩
      · rw [hname]
        exact hb.assign base.name hk hv value
      · intro entry hentry
        rw [hname, StdMap.getElem?_assign_ne _ _ (hinputs entry hentry)]
        exact hpassed entry hentry

end Outputs

/-! ## Calls -/

section Calls

variable {S : Type} {ctx : Context S} {w w' : World S} {path : String} {p : Place}
  {t left : MapTable}

/-- The instance of the place is a map of its types, with the arrays in its fields. -/
structure IsMap (w : World S) (p : Place) : Prop where
  object : ∃ object, w.heap.structs[p.id]? = some object ∧
    object.typeName = instanceName p.keyType p.valueType
  declared : w.types.structRegistry[instanceName p.keyType p.valueType]? =
    some (instanceDecl p.keyType p.valueType)
  keysField : w.heap.field? p.id "keys_" = some (.struct p.keysId)
  valuesField : w.heap.field? p.id "values_" = some (.struct p.valuesId)

/-- A call on the map has left the table `t`. -/
structure After (ctx : Context S) (path : String) (w w' : World S) (p : Place) (t : MapTable) :
    Prop where
  tabled : Tabled w'.heap p t
  touches : Touches w.heap w'.heap p.handles
  linked : Linked ctx w'.types path
  instances : ∀ (name : String) (decl : StructDecl), w.types.structRegistry[name]? = some decl →
    w'.types.structRegistry[name]? = some decl

theorem IsMap.of_touches (h : IsMap w p) {handles : List Nat}
    (ht : Touches w.heap w'.heap handles)
    (hi : ∀ (name : String) (decl : StructDecl), w.types.structRegistry[name]? = some decl →
      w'.types.structRegistry[name]? = some decl) : IsMap w' p := by
  obtain ⟨object, hobject, htype⟩ := h.object
  exact ⟨⟨object, getElem?_of_isPrefix ht.structs hobject, htype⟩, hi _ _ h.declared,
    ht.field? h.keysField, ht.field? h.valuesField⟩

theorem IsMap.found (h : IsMap w p) :
    found w.types (instanceName p.keyType p.valueType) =
      some (instanceDecl p.keyType p.valueType) := by
  unfold RoutineRuns.found
  rw [h.declared, Option.some_or]

theorem IsMap.hasFields (h : IsMap w p) :
    HasFields w.heap p.id (instanceDecl p.keyType p.valueType).fields
      [.struct p.keysId, .struct p.valuesId] :=
  .cons h.keysField (.cons h.valuesField .nil)

/-- The answer is collected from the variables that the body has left. -/
theorem collect_outcome {env : ParameterMap} {operation : MapOperation}
    {reply : Reply RuntimeValue} (ha : Answered env operation reply) (name : String)
    (w : World S) :
    ((StructRoutine.collectOutputs name
        (env.assignAll (flat (instanceDecl p.keyType p.valueType).fields
          [.struct p.keysId, .struct p.valuesId]))
        (instanceRoutine p.keyType p.valueType (routineOf operation)).outputParams >>= packResult)
      w).outcome = .ok (answerValue reply) w := by
  unfold Answered at ha
  rcases outputParams_instanceRoutine p.keyType p.valueType operation with
    ⟨hnone, hbase⟩ | ⟨out, base, hone, hbase, _, hname⟩
  · rw [hbase] at ha
    rw [hnone, ha]
    rfl
  · rw [hbase] at ha
    dsimp only at ha
    obtain ⟨hk, hv, _⟩ := name_outputParams (hbase ▸ List.mem_cons_self)
    have hget : (env.assignAll (flat (instanceDecl p.keyType p.valueType).fields
        [.struct p.keysId, .struct p.valuesId]))[out.name]? = some (answerValue reply) := by
      rw [hname, ← ha]
      change ((env.assign "keys_" _).assign "values_" _)[base.name]? = _
      rw [StdMap.getElem?_assign_ne _ _ hv.symm, StdMap.getElem?_assign_ne _ _ hk.symm]
    have hcollect : (StructRoutine.collectOutputs name
        (env.assignAll (flat (instanceDecl p.keyType p.valueType).fields
          [.struct p.keysId, .struct p.valuesId])) [out] w).outcome =
        .ok [answerValue reply] w := by
      unfold StructRoutine.collectOutputs
      rw [hget]
      rfl
    rw [hone]
    exact Comp.bind_of_ok hcollect

/-- The map of variables on which the body of a routine runs. -/
theorem environment_outcome (fuel : Nat) (hm : IsMap w p) (hreg : Registered w.types path)
    {operation : MapOperation}
    (hq : Quiet ctx fuel path w (inputsOf p (routineOf operation) (argsOf operation))
      (instanceRoutine p.keyType p.valueType (routineOf operation))) :
    ∃ env w', (StructRoutine.routineEnvironment ctx (Machine.handlers ctx fuel) p.id
        (instanceDecl p.keyType p.valueType)
        (instanceRoutine p.keyType p.valueType (routineOf operation)) (argsOf operation)
        w).outcome = .ok env w' ∧
      Bound env p ∧ Passed env operation ∧ Undisturbed path w w' := by
  obtain ⟨env, w', houtputs, hb, hpassed, hundisturbed⟩ :=
    outputs_outcome hreg (bound_inputsOf p operation) (passed_inputsOf p operation) hq
  refine ⟨env, w', ?_, hb, hpassed, hundisturbed⟩
  have hlength : (instanceRoutine p.keyType p.valueType (routineOf operation)).inputParams.length =
      (argsOf operation).length := by
    rw [← length_argsOf operation]
    exact List.length_map _
  refine (routineEnvironment_outcome hm.hasFields hlength).trans ?_
  rw [← houtputs]
  unfold instanceRoutine monomorphizeRoutine
  dsimp only
  rw [List.map_map]
  rfl

/-- A call on a map answers like its operation on the table. -/
theorem call_outcome (fuel : Nat) (hl : Linked ctx w.types path) (hm : IsMap w p)
    (hs : Tabled w.heap p t) {operation : MapOperation}
    (hkeys : ∀ key ∈ operation.newKeys, Key key)
    (hvalues : ∀ value ∈ operation.newValues, Keepable w.heap value)
    (hlen : t.keys.length < 2 ^ 63)
    (hq : Quiet ctx fuel path w (inputsOf p (routineOf operation) (argsOf operation))
      (instanceRoutine p.keyType p.valueType (routineOf operation))) :
    match operation.run t with
    | some (reply, left) => ∃ w',
      (ExprEvaluator.callOnValue ctx (Machine.handlers ctx (fuel + 1)) (.struct p.id)
        (routineOf operation).name (pure (argsOf operation)) w).outcome =
        .ok (answerValue reply) w' ∧ After ctx path w w' p left
    | none => ∃ w',
      Raises (ExprEvaluator.callOnValue ctx (Machine.handlers ctx (fuel + 1)) (.struct p.id)
        (routineOf operation).name (pure (argsOf operation))) w w' ∧ After ctx path w w' p t := by
  obtain ⟨object, hobject, htype⟩ := hm.object
  have hfound : found w.types object.typeName = some (instanceDecl p.keyType p.valueType) :=
    htype ▸ hm.found
  have hcall : (ExprEvaluator.callOnValue ctx (Machine.handlers ctx (fuel + 1)) (.struct p.id)
      (routineOf operation).name (pure (argsOf operation)) w).outcome =
      ((StructRoutine.execStructRoutine ctx (Machine.handlers ctx fuel) p.id
        (instanceDecl p.keyType p.valueType)
        (instanceRoutine p.keyType p.valueType (routineOf operation)) (argsOf operation) >>=
          packResult) w).outcome :=
    callOnValue_outcome hobject hfound (findRoutine_routineOf p.keyType p.valueType operation) rfl
  obtain ⟨env, w₁, henv, hb, hpassed, hundisturbed⟩ := environment_outcome fuel hm hl.registered hq
  have hl₁ := hundisturbed.linked hl
  have hs₁ : Tabled w₁.heap p t :=
    hs.frame hundisturbed.heap List.not_mem_nil List.not_mem_nil
  have hbody := body_outcome fuel hl₁ hb hs₁ hpassed hkeys
    (fun value hv => (hvalues value hv).mono hundisturbed.heap.structs) hlen
  have hafter : ∀ heap' left, Tabled heap' p left → Touches w₁.heap heap' p.handles →
      After ctx path w { w₁ with heap := heap' } p left := by
    intro heap' left htabled htouches
    exact ⟨htabled, (hundisturbed.heap.mono (List.nil_subset _)).trans htouches, hl₁,
      hundisturbed.instances⟩
  have hnonempty : (instanceRoutine p.keyType p.valueType (routineOf operation)).body.isEmpty =
      false := by
    cases operation <;> rfl
  cases hrun : operation.run t with
  | some result =>
    obtain ⟨reply, left⟩ := result
    rw [hrun] at hbody
    obtain ⟨env', heap', hruns, hanswered, htabled, htouches⟩ := hbody
    rw [← body_instanceRoutine p.keyType p.valueType] at hruns
    have hm' : IsMap { w₁ with heap := heap' } p :=
      hm.of_touches (hafter heap' left htabled htouches).touches hundisturbed.instances
    refine ⟨{ w₁ with heap := heap' }, ?_, hafter heap' left htabled htouches⟩
    have hexec := execStructRoutine_of_runs hnonempty henv hruns hm'.hasFields
    rw [hcall, Comp.outcome_bind, hexec, ← Comp.outcome_bind]
    exact collect_outcome hanswered _ _
  | none =>
    rw [hrun] at hbody
    obtain ⟨heap', hraises, htabled, htouches⟩ := hbody
    rw [← body_instanceRoutine p.keyType p.valueType] at hraises
    refine ⟨{ w₁ with heap := heap' }, ?_, hafter heap' t htabled htouches⟩
    obtain ⟨e, he⟩ := execStructRoutine_of_raises hnonempty henv hraises
    exact ⟨e, hcall.trans (Comp.bind_of_throw he)⟩

end Calls

end FalconLib.Libs.Map
