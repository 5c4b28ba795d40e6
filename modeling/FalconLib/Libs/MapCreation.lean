import FalconLib.Libs.MapRoutines

/-!
# New maps, and the arrays that a map hands out

`New` fills the fields of its output with two new arrays. `Keys` and `Values` answer the very
instances in the fields.
-/

namespace FalconLib.Libs.Map

open FalconLib.Base (Comp StdMap Table)
open FalconLib.Dsl
open FalconLib.Dsl.FieldAssign (flatCopied getElem?_flatCopied)
open FalconLib.Dsl.RoutineRuns
open FalconLib.Libs.Array (IsArray Machine ArraysAdded Creates callOn)
open ExprEvaluator (evaluate evaluateList)

/-! ## Heaps with a new object -/

theorem isArray_setField {heap : Heap} {id handle : Nat} {elements : List RuntimeValue}
    (h : IsArray heap id handle elements) (i : Nat) (name : String) (value : RuntimeValue) :
    IsArray (heap.setField i name value) id handle elements := by
  obtain ⟨object, hobject, htype, hhandle⟩ := h.instance_
  refine ⟨?_, h.elements⟩
  unfold Heap.setField
  dsimp only
  by_cases hi : i = id
  · subst hi
    rw [List.getElem?_modify_eq, hobject]
    exact ⟨_, rfl, htype, hhandle⟩
  · rw [List.getElem?_modify_ne _ _ hi]
    exact ⟨object, hobject, htype, hhandle⟩

/-- The object at `id` has the type `typeName` and the two values in its fields. -/
theorem setField_setField {heap : Heap} {id : Nat} {object : StructInstance}
    (ho : heap.structs[id]? = some object) (a b : RuntimeValue) :
    let heap' := (heap.setField id "keys_" a).setField id "values_" b
    (∃ object', heap'.structs[id]? = some object' ∧ object'.typeName = object.typeName) ∧
      heap'.field? id "keys_" = some a ∧ heap'.field? id "values_" = some b := by
  have hid := (List.getElem?_eq_some_iff.mp ho).1
  have hid' : id < (heap.setField id "keys_" a).structs.length := by
    rw [length_setField]
    exact hid
  refine ⟨?_, ?_, ?_⟩
  · refine Option.map_eq_some_iff.mp ?_
    rw [Heap.setField_typeName, Heap.setField_typeName, ho]
    rfl
  · rw [Heap.field?_setField _ _ _ _ _ _ hid', if_neg fun h => absurd h.2 (by decide),
      Heap.field?_setField _ _ _ _ _ _ hid, if_pos ⟨rfl, rfl⟩]
  · rw [Heap.field?_setField _ _ _ _ _ _ hid', if_pos ⟨rfl, rfl⟩]

/-! ## The body of `New` -/

section New

variable {S : Type} {ctx : Context S} {w w' : World S} {path : String} {env : ParameterMap}

theorem Linked.arraysAdded (hl : Linked ctx w.types path) (ha : Array.Registered w'.types path)
    (hadded : ArraysAdded w.types w'.types) : Linked ctx w'.types path :=
  ⟨hl.opened, hl.registered.arraysAdded ha hadded, hl.searchable.opened, fun search => by
    rw [hadded.methods]
    exact hl.searchable.registered search⟩

/-- `Array<T> x = Array.New();` in a body. -/
theorem steps_newArray (fuel : Nat) (hl : Linked ctx w.types path) (henv : env["Array"]? = none)
    (type : TypeDescriptor) (x : String) :
    ∃ id w', Steps ctx (Machine.handlers ctx fuel) env
        (declare (arrayOf type) x (callOn "Array" "New" [])) w (env.assign x (.struct id)) w' ∧
      Creates path w w' id ∧ ArraysAdded w.types w'.types ∧ Linked ctx w'.types path := by
  obtain ⟨id, w', hnew, hcreates, hadded⟩ := Array.evaluate_newCall hl.opened hl.registered.arrays
    (fun value hv => absurd (henv.symm.trans hv) (Option.some_ne_none value).symm) type fuel
  exact ⟨id, w', Steps.varDecl hnew, hcreates, hadded,
    hl.arraysAdded hcreates.registered hadded⟩

def blank : ArrayValue := { elementTypeName := "", elements := [] }

/-- Two new arrays are in the fields of the object at `fresh`. -/
structure Filled (w w' : World S) (fresh keysId valuesId : Nat) : Prop where
  structs : ∀ objects, objects <+: w.heap.structs → objects.length ≤ fresh →
    objects <+: w'.heap.structs
  arrays : w'.heap.arrays = w.heap.arrays ++ [blank, blank]
  object : ∀ object, w.heap.structs[fresh]? = some object →
    (∃ object', w'.heap.structs[fresh]? = some object' ∧ object'.typeName = object.typeName) ∧
      w'.heap.field? fresh "keys_" = some (.struct keysId) ∧
        w'.heap.field? fresh "values_" = some (.struct valuesId)
  keys : IsArray w'.heap keysId w.heap.arrays.length []
  values : IsArray w'.heap valuesId (w.heap.arrays.length + 1) []
  added : ArraysAdded w.types w'.types

/-- The last two statements write the fields of the output. -/
theorem runs_fields (ctx : Context S) (h : Handlers S) {fresh keysId valuesId : Nat}
    (hm : env["m"]? = some (.struct fresh)) (hk : env["keys"]? = some (.struct keysId))
    (hv : env["values"]? = some (.struct valuesId)) (hfresh : fresh < w.heap.structs.length) :
    ∃ env', Runs ctx h env
        [.structFieldAssign {} (var "m") "keys_" (var "keys"),
          .structFieldAssign {} (var "m") "values_" (var "values")] w env'
        { w with
          heap := (w.heap.setField fresh "keys_" (.struct keysId)).setField fresh "values_"
            (.struct valuesId) } ∧
      env'["m"]? = some (.struct fresh) := by
  have hcopied : ∀ (map : ParameterMap) (field x : String) (value : RuntimeValue), field ≠ x →
      (flatCopied map field value)[x]? = map[x]? := by
    intro map field x value hx
    rw [getElem?_flatCopied, if_neg fun h => hx h.1]
  refine ⟨_, Runs.cons (Steps.structFieldAssign (evaluate_var hk w) hm hfresh)
    (Runs.cons (Steps.structFieldAssign (evaluate_var ?_ _) ?_ ?_) Runs.nil), ?_⟩
  · rw [hcopied _ _ _ _ (by decide), hv]
  · rw [hcopied _ _ _ _ (by decide), hm]
  · change fresh < (w.heap.setField fresh "keys_" _).structs.length
    rw [length_setField]
    exact hfresh
  · rw [hcopied _ _ _ _ (by decide), hcopied _ _ _ _ (by decide), hm]

theorem runs_new (fuel : Nat) (hl : Linked ctx w.types path) (harray : env["Array"]? = none)
    {fresh : Nat} (hm : env["m"]? = some (.struct fresh))
    (hfresh : fresh < w.heap.structs.length) :
    ∃ env' w' keysId valuesId,
      Runs ctx (Machine.handlers ctx fuel) env newRoutine.body w env' w' ∧
        env'["m"]? = some (.struct fresh) ∧ Filled w w' fresh keysId valuesId ∧
        Linked ctx w'.types path := by
  obtain ⟨keysId, w₁, hkeys, hc₁, ha₁, hl₁⟩ := steps_newArray fuel hl harray typeK "keys"
  have harray₁ : (env.assign "keys" (.struct keysId))["Array"]? = none :=
    (StdMap.getElem?_assign_ne _ _ (by decide)).trans harray
  obtain ⟨valuesId, w₂, hvalues, hc₂, ha₂, hl₂⟩ :=
    steps_newArray fuel hl₁ harray₁ typeV "values"
  have hm₂ : ((env.assign "keys" (.struct keysId)).assign "values" (.struct valuesId))["m"]? =
      some (.struct fresh) := by
    rw [StdMap.getElem?_assign_ne _ _ (by decide), StdMap.getElem?_assign_ne _ _ (by decide), hm]
  have hk₂ : ((env.assign "keys" (.struct keysId)).assign "values" (.struct valuesId))["keys"]? =
      some (.struct keysId) := by
    rw [StdMap.getElem?_assign_ne _ _ (by decide), StdMap.getElem?_assign_self]
  have hstructs := hc₁.structs.trans hc₂.structs
  obtain ⟨env', hfields, hm'⟩ := runs_fields ctx (Machine.handlers ctx fuel) hm₂ hk₂
    (StdMap.getElem?_assign_self _ _ _) (Nat.lt_of_lt_of_le hfresh hstructs.length_le)
  have harrays : w₂.heap.arrays = w.heap.arrays ++ [blank, blank] := by
    rw [hc₂.arrays, hc₁.arrays, List.append_assoc]
    rfl
  have hlength : w₁.heap.arrays.length = w.heap.arrays.length + 1 := by
    rw [hc₁.arrays, List.length_append, List.length_singleton]
  refine ⟨env', _, keysId, valuesId, Runs.cons hkeys (Runs.cons hvalues hfields), hm', ?_, hl₂⟩
  refine ⟨?_, ?_, ?_, ?_, ?_, ha₁.trans ha₂⟩
  · intro objects hobjects hlen
    exact prefix_setField (prefix_setField (hobjects.trans hstructs) hlen _ _) hlen _ _
  · exact harrays
  · intro object hobject
    exact setField_setField (getElem?_of_isPrefix hstructs hobject) _ _
  · refine isArray_setField (isArray_setField ⟨?_, blank, ?_, rfl⟩ _ _ _) _ _ _
    · exact ⟨_, getElem?_of_isPrefix hc₂.structs hc₁.instance_, rfl, rfl⟩
    · rw [harrays, List.getElem?_append_right (Nat.le_refl _), Nat.sub_self]
      rfl
  · refine isArray_setField (isArray_setField ⟨?_, blank, ?_, rfl⟩ _ _ _) _ _ _
    · exact ⟨_, hc₂.instance_, rfl, by rw [hlength]⟩
    · have hone : w.heap.arrays.length + 1 - w.heap.arrays.length = 1 := by omega
      rw [harrays, List.getElem?_append_right (Nat.le_succ _), hone]
      rfl

/-! ## The routine `New` -/

theorem fields_instanceDecl (k v : TypeDescriptor) :
    (instanceDecl k v).fields =
      [{ type := arrayOf typeK, name := "keys_" }, { type := arrayOf typeV, name := "values_" }] := by
  have hkeys : substituteType (substitution k v) (arrayOf typeK) = arrayOf typeK :=
    substituteType_other rfl (by decide) (by decide)
  have hvalues : substituteType (substitution k v) (arrayOf typeV) = arrayOf typeV :=
    substituteType_other rfl (by decide) (by decide)
  change ([{ type := substituteType (substitution k v) (arrayOf typeK), name := "keys_" },
    { type := substituteType (substitution k v) (arrayOf typeV), name := "values_" }] :
      List VarDeclStmt) = _
  rw [hkeys, hvalues]

/-- A call has made the empty map `p`. -/
structure Makes (ctx : Context S) (path : String) (w w' : World S) (p : Place) : Prop where
  isMap : IsMap w' p
  tabled : Tabled w'.heap p Table.empty
  touches : Touches w.heap w'.heap []
  arrays : p.handles = [w.heap.arrays.length, w.heap.arrays.length + 1]
  linked : Linked ctx w'.types path
  instances : ∀ (name : String) (decl : StructDecl), w.types.structRegistry[name]? = some decl →
    w'.types.structRegistry[name]? = some decl

/-- The heap once the output of `New` is made. -/
def withOutput (heap : Heap) (k v : TypeDescriptor) : Heap :=
  (((heap.allocStruct { typeName := instanceName k v }).2.setField heap.structs.length "keys_"
    .nil).setField heap.structs.length "values_" .nil)

theorem structs_withOutput (heap : Heap) (k v : TypeDescriptor) :
    heap.structs <+: (withOutput heap k v).structs ∧
      ∃ object, (withOutput heap k v).structs[heap.structs.length]? = some object ∧
        object.typeName = instanceName k v := by
  refine ⟨prefix_setField (prefix_setField (List.prefix_append _ _) (Nat.le_refl _) _ _)
    (Nat.le_refl _) _ _, ?_⟩
  refine Option.map_eq_some_iff.mp ?_
  unfold withOutput
  rw [Heap.setField_typeName, Heap.setField_typeName]
  unfold Heap.allocStruct
  dsimp only
  rw [List.getElem?_concat_length]
  rfl

theorem isStruct_substituteOutputType (base : StructDecl) (name : String) (subst : Substitution)
    (type : TypeDescriptor) :
    (substituteOutputType base name subst type).isStruct = (substituteType subst type).isStruct := by
  unfold substituteOutputType
  dsimp only
  split
  · split
    · rfl
    · split <;> rfl
  · rfl

theorem environment_new (ctx : Context S) (h : Handlers S) {k v : TypeDescriptor}
    (hd : found w.types (instanceName k v) = some (instanceDecl k v)) {receiver : Nat}
    {a b : RuntimeValue} (hf : HasFields w.heap receiver (instanceDecl k v).fields [a, b]) :
    ∃ env, (StructRoutine.routineEnvironment ctx h receiver (instanceDecl k v)
        (instanceRoutine k v newRoutine) [] w).outcome =
        .ok env { w with heap := withOutput w.heap k v } ∧
      env["Array"]? = none ∧ env["m"]? = some (.struct w.heap.structs.length) := by
  have htype : (substituteOutputType (mapDecl "") (instanceName k v) (substitution k v)
      (mapOf typeK typeV)).isStruct = true := by
    rw [isStruct_substituteOutputType, substituteType_other rfl (by decide) (by decide)]
    rfl
  have hnone : ∀ field ∈ (instanceDecl k v).fields, field.initializer = none := by
    rw [fields_instanceDecl]
    decide
  have hdefaulted : defaulted w.heap.structs.length (instanceDecl k v).fields
      (w.heap.allocStruct { typeName := instanceName k v }).2 = withOutput w.heap k v := by
    rw [fields_instanceDecl]
    rfl
  generalize hinputs : (StdMap.assign ∅ "this" (RuntimeValue.struct receiver)).assignAll
      (flat (instanceDecl k v).fields [a, b]) = inputs
  have hfresh : (StructRoutine.freshOutput ctx h inputs (instanceName k v) w).outcome = _ :=
    freshOutput_outcome hd hnone inputs
  rw [hdefaulted] at hfresh
  have hzip : ((instanceRoutine k v newRoutine).inputParams.map (·.name)).zip
      ([] : List RuntimeValue) = [] := List.zip_nil_right
  have henv : (StructRoutine.routineEnvironment ctx h receiver (instanceDecl k v)
      (instanceRoutine k v newRoutine) [] w).outcome = _ := routineEnvironment_outcome hf rfl
  rw [hzip, hinputs] at henv
  let out : ParamDecl :=
    { type := substituteOutputType (mapDecl "") (instanceName k v) (substitution k v)
        (mapOf typeK typeV)
      name := "m" }
  have houtcome : (StructRoutine.initialiseOutputs ctx h [out] inputs w).outcome =
      .ok (inputs.assign "m" (.struct w.heap.structs.length))
        { w with heap := withOutput w.heap k v } := by
    refine initialiseOutputs_struct htype ?_
    change (StructRoutine.freshOutput ctx h inputs (substituteOutputType (mapDecl "")
      (instanceName k v) (substitution k v) (mapOf typeK typeV)).structName w).outcome = _
    rw [structName_newOutput]
    exact hfresh
  refine ⟨_, henv.trans houtcome, ?_, StdMap.getElem?_assign_self _ _ _⟩
  rw [StdMap.getElem?_assign_ne _ _ (by decide), ← hinputs, fields_instanceDecl]
  change (((StdMap.assign ∅ "this" _).assign "keys_" _).assign "values_" _)["Array"]? = none
  rw [StdMap.getElem?_assign_ne _ _ (by decide), StdMap.getElem?_assign_ne _ _ (by decide),
    StdMap.getElem?_assign_ne _ _ (by decide)]
  exact Std.ExtTreeMap.getElem?_empty

/-- The output of `New` is what the body has left under its name. -/
theorem collect_new (k v : TypeDescriptor) (a b : RuntimeValue) {value : RuntimeValue}
    (hm : env["m"]? = some value) (w : World S) :
    ((StructRoutine.collectOutputs "New" (env.assignAll (flat (instanceDecl k v).fields [a, b]))
        (instanceRoutine k v newRoutine).outputParams >>= packResult) w).outcome = .ok value w := by
  have hget : (env.assignAll (flat (instanceDecl k v).fields [a, b]))["m"]? = some value := by
    rw [fields_instanceDecl]
    change ((env.assign "keys_" a).assign "values_" b)["m"]? = some value
    rw [StdMap.getElem?_assign_ne _ _ (by decide), StdMap.getElem?_assign_ne _ _ (by decide), hm]
  generalize env.assignAll (flat (instanceDecl k v).fields [a, b]) = map at hget ⊢
  have hcollect : (StructRoutine.collectOutputs "New" map
      (instanceRoutine k v newRoutine).outputParams w).outcome = .ok [value] w := by
    change (StructRoutine.collectOutputs "New" map [{ type := _, name := "m" }] w).outcome = _
    unfold StructRoutine.collectOutputs
    rw [hget]
    rfl
  exact Comp.bind_of_ok hcollect

/-- `New` makes an empty map, whatever its receiver is. -/
theorem exec_new (fuel : Nat) (hl : Linked ctx w.types path) {k v : TypeDescriptor}
    (hd : w.types.structRegistry[instanceName k v]? = some (instanceDecl k v)) {receiver : Nat}
    {a b : RuntimeValue} (hf : HasFields w.heap receiver (instanceDecl k v).fields [a, b]) :
    ∃ p w', (((Machine.handlers ctx (fuel + 1)).execStructRoutine receiver (instanceDecl k v)
        (instanceRoutine k v newRoutine) [] >>= packResult) w).outcome =
        .ok (.struct p.id) w' ∧ Makes ctx path w w' p := by
  have hfound : found w.types (instanceName k v) = some (instanceDecl k v) := by
    unfold found
    rw [hd, Option.some_or]
  obtain ⟨env, henv, harray, hm⟩ :=
    environment_new ctx (Machine.handlers ctx fuel) hfound hf
  obtain ⟨hsub, object, hobject, htype⟩ := structs_withOutput w.heap k v
  have hfresh : w.heap.structs.length < (withOutput w.heap k v).structs.length :=
    (List.getElem?_eq_some_iff.mp hobject).1
  obtain ⟨env', w', keysId, valuesId, hruns, hm', hfilled, hl'⟩ :=
    runs_new (w := { w with heap := withOutput w.heap k v }) fuel hl harray hm hfresh
  have hstructs : w.heap.structs <+: w'.heap.structs :=
    hfilled.structs w.heap.structs hsub (Nat.le_refl _)
  have harrays : w'.heap.arrays = w.heap.arrays ++ [blank, blank] := hfilled.arrays
  have htouches : Touches w.heap w'.heap [] := by
    refine ⟨hstructs, ?_, fun i hi _ => ?_⟩
    · rw [harrays, List.length_append]
      exact Nat.le_add_right _ _
    · rw [harrays, List.getElem?_append_left hi]
  have hf' : HasFields w'.heap receiver (instanceDecl k v).fields [a, b] :=
    hf.imp fun _ _ hfield => htouches.field? hfield
  have hexec : (StructRoutine.execStructRoutine ctx (Machine.handlers ctx fuel) receiver
      (instanceDecl k v) (instanceRoutine k v newRoutine) [] w).outcome = _ :=
    execStructRoutine_of_runs rfl henv hruns hf'
  refine ⟨⟨k, v, w.heap.structs.length, keysId, valuesId, w.heap.arrays.length,
    w.heap.arrays.length + 1⟩, w', ?_, ?_⟩
  · change ((StructRoutine.execStructRoutine ctx (Machine.handlers ctx fuel) receiver
      (instanceDecl k v) (instanceRoutine k v newRoutine) [] >>= packResult) w).outcome = _
    rw [Comp.outcome_bind, hexec, ← Comp.outcome_bind]
    exact collect_new k v a b hm' w'
  · obtain ⟨⟨object', hobject', htype'⟩, hkeys, hvalues⟩ := hfilled.object object hobject
    refine ⟨⟨⟨object', hobject', htype'.trans htype⟩, hfilled.added.instances _ _ hd, hkeys,
      hvalues⟩, ?_, htouches, rfl, hl', hfilled.added.instances⟩
    exact ⟨hfilled.keys, hfilled.values, (Nat.succ_ne_self _).symm,
        fun _ h => absurd h List.not_mem_nil, fun _ h => absurd h List.not_mem_nil⟩

/-! ## `Map.New()` -/

theorem Linked.registerInstance (hl : Linked ctx w.types path) (k v : TypeDescriptor) :
    Linked ctx (w.types.registerMonomorphizedStruct (instanceName k v) (instanceDecl k v)) path :=
  ⟨hl.opened, hl.registered.registerInstance k v, hl.searchable.opened,
    hl.searchable.registered⟩

/-- The instance for a declaration, from the cache or new. -/
theorem exists_instantiate (hl : Linked ctx w.types path) (moduleName : String)
    (k v : TypeDescriptor) :
    ∃ k' v' types, (ExprEvaluator.instantiate (mapDecl moduleName) [k, v] w).outcome =
        .ok (instanceDecl k' v') { w with types := types } ∧
      types.structRegistry[instanceName k' v']? = some (instanceDecl k' v') ∧
      Linked ctx types path ∧ ∀ (name : String) (decl : StructDecl),
        w.types.structRegistry[name]? = some decl → types.structRegistry[name]? = some decl := by
  change ∃ k' v' types, InstanceCache.call w (mapDecl moduleName) [k, v] = _ ∧ _
  cases hc : w.types.structRegistry[instanceName k v]? with
  | some decl =>
    obtain ⟨k', v', hsame, rfl⟩ := hl.registered.cached k v decl hc
    exact ⟨k', v', w.types, InstanceCache.call_of_some hc, hsame ▸ hc, hl, fun _ _ hd => hd⟩
  | none =>
    exact ⟨k, v, _, InstanceCache.call_of_ok hc rfl, StdMap.getElem?_assign_self _ _ _,
      hl.registerInstance k v, fun name decl hd => StdMap.getElem?_assign_of_new hc hd _⟩

theorem Touches.of_structs {heap heap' : Heap} (h : heap.structs <+: heap'.structs)
    (ha : heap'.arrays = heap.arrays) : Touches heap heap' [] :=
  ⟨h, (congrArg List.length ha).ge, fun _ _ _ => by rw [ha]⟩

/-- What happened before a map is made is part of its making. -/
theorem Makes.after {w₁ : World S} {p : Place} (h : Makes ctx path w₁ w' p)
    (hs : w.heap.structs <+: w₁.heap.structs) (ha : w₁.heap.arrays = w.heap.arrays)
    (hi : ∀ (name : String) (decl : StructDecl), w.types.structRegistry[name]? = some decl →
      w₁.types.structRegistry[name]? = some decl) : Makes ctx path w w' p :=
  ⟨h.isMap, h.tabled, (Touches.of_structs hs ha).trans h.touches, ha ▸ h.arrays, h.linked,
    fun name decl hd => h.instances name decl (hi name decl hd)⟩

theorem findRoutine_new (k v : TypeDescriptor) :
    (instanceDecl k v).findRoutine "New" = some (instanceRoutine k v newRoutine) := rfl

theorem callStatic_new (fuel : Nat) (hl : Linked ctx w.types path) (moduleName : String)
    (k v : TypeDescriptor) (vars : Variables) :
    ∃ p w', (ExprEvaluator.callStatic (Machine.handlers ctx (fuel + 1)) vars (mapDecl moduleName)
      [k, v] "New" (pure []) w).outcome = .ok (.struct p.id) w' ∧ Makes ctx path w w' p := by
  obtain ⟨k', v', types, hinst, hdecl, hl', hinstances⟩ := exists_instantiate hl moduleName k v
  have hfields : ∀ field ∈ (instanceDecl k' v').fields,
      field.initializer = none ∧ field.type.baseType = .struct := by
    rw [fields_instanceDecl]
    decide
  have hnodup : ((instanceDecl k' v').fields.map (·.name)).Nodup := by
    rw [fields_instanceDecl]
    decide
  obtain ⟨heap, values, hreceiver, hhas, hstructs, harrays⟩ :=
    constructReceiver_outcome (h := Machine.handlers ctx (fuel + 1)) hfields hnodup vars
      { w with types := types }
  obtain ⟨a, b, rfl⟩ : ∃ a b, values = [a, b] := by
    have hlength := hhas.length_eq
    rw [fields_instanceDecl] at hlength
    exact List.length_eq_two.mp hlength.symm
  obtain ⟨p, w', hexec, hmakes⟩ :=
    exec_new (w := { w with
      types := types
      heap := heap }) fuel hl' hdecl hhas
  refine ⟨p, w', ?_, hmakes.after hstructs harrays hinstances⟩
  unfold ExprEvaluator.callStatic
  refine (Comp.bind_of_ok hinst).trans ?_
  rw [findRoutine_new]
  exact (Comp.bind_of_ok hreceiver).trans hexec

/-- `Map.New()`. -/
def newCall : Expr := callOn "Map" "New" []

/-- `Map.New()` makes an empty map, also where a variable with a map is called `Map`. -/
theorem evaluate_newCall (fuel : Nat) (hl : Linked ctx w.types path)
    (henv : ∀ value, env["Map"]? = some value → ∃ p, value = .struct p.id ∧ IsMap w p)
    (k v : TypeDescriptor) :
    ∃ p w', (evaluate ctx (Machine.handlers ctx (fuel + 1)) (.own env)
      (newCall.setInferredType (mapOf k v)) w).outcome = .ok (.struct p.id) w' ∧
        Makes ctx path w w' p := by
  obtain ⟨moduleName, hdecl⟩ := hl.registered.declared
  change ∃ p w', (ExprEvaluator.evalMethodCall ctx (Machine.handlers ctx (fuel + 1)) (.own env)
    { inferredType := some (mapOf k v) } (.var {} "Map") "New"
    (ExprEvaluator.evalVariable (.own env) "Map") (pure []) w).outcome = _ ∧ _
  unfold ExprEvaluator.evalMethodCall
  cases hbound : env["Map"]? with
  | none =>
    obtain ⟨p, w', hcall, hmakes⟩ := callStatic_new fuel hl moduleName k v (.own env)
    have hstatic : (ExprEvaluator.staticReceiver (.own env) { inferredType := some (mapOf k v) }
        (.var {} "Map") w).outcome = .ok (some (mapDecl moduleName, [k, v])) w :=
      staticReceiver_outcome hdecl hbound (by decide) (genericBase_instanceName k v) rfl rfl
    exact ⟨p, w', (Comp.bind_of_ok hstatic).trans hcall, hmakes⟩
  | some value =>
    obtain ⟨p, rfl, hm⟩ := henv value hbound
    obtain ⟨object, hobject, htype⟩ := hm.object
    have hfound : found w.types object.typeName =
        some (instanceDecl p.keyType p.valueType) := htype ▸ hm.found
    obtain ⟨made, w', hexec, hmakes⟩ := exec_new fuel hl hm.declared hm.hasFields
    refine ⟨made, w', ?_, hmakes⟩
    refine (Comp.bind_of_ok (Array.staticReceiver_of_bound hbound _ w)).trans ?_
    refine (Comp.bind_of_ok (Array.evalVariable_of_bound hbound w)).trans ?_
    exact (callOnValue_outcome hobject hfound (findRoutine_new _ _) rfl).trans hexec

end New

/-! ## `Keys()` and `Values()` -/

/-- One of the two arrays of a map. -/
inductive Side where
  | keys
  | values

namespace Side

def routine : Side → RoutineDecl
  | keys => keysRoutine
  | values => valuesRoutine

def parameter : Side → TypeDescriptor
  | keys => typeK
  | values => typeV

def output : Side → String
  | keys => "keys"
  | values => "values"

def field : Side → String
  | keys => "keys_"
  | values => "values_"

def id (p : Place) : Side → Nat
  | keys => p.keysId
  | values => p.valuesId

def handle (p : Place) : Side → Nat
  | keys => p.keysHandle
  | values => p.valuesHandle

def elements (t : MapTable) : Side → List RuntimeValue
  | keys => t.keys
  | values => t.values

theorem isArray {heap : Heap} {p : Place} {t : MapTable} (hs : Tabled heap p t) (side : Side) :
    IsArray heap (side.id p) (side.handle p) (side.elements t) := by
  cases side with
  | keys => exact hs.keys
  | values => exact hs.values

end Side

section Views

variable {S : Type} {ctx : Context S} {w : World S} {path : String} {p : Place}

/-- The output of a view keeps its type, and is made as an instance without fields. -/
theorem outputParams_view (k v : TypeDescriptor) (side : Side) :
    (instanceRoutine k v side.routine).outputParams =
      [{ type := arrayOf side.parameter, name := side.output }] := by
  have hstays : ∀ type ∈ [typeK, typeV],
      substituteOutputType (mapDecl "") (instanceName k v) (substitution k v) (arrayOf type) =
        arrayOf type := by
    intro type htype
    have hother : "K" ≠ (arrayOf type).structName ∧ "V" ≠ (arrayOf type).structName ∧
        (arrayOf type).structName ≠ (mapDecl "").name ∧
        ¬ ((mapDecl "").name ++ "<").toList.isPrefixOf (arrayOf type).structName.toList := by
      revert type
      decide
    unfold substituteOutputType
    rw [substituteType_other rfl hother.1 hother.2.1]
    dsimp only
    rw [if_pos (by rfl), if_neg hother.2.2.1, if_neg hother.2.2.2]
  have hparameter : side.parameter ∈ [typeK, typeV] := by
    cases side with
    | keys => exact List.mem_cons_self
    | values => exact List.mem_cons_of_mem _ List.mem_cons_self
  have houtput : (instanceRoutine k v side.routine).outputParams =
      [{ type := substituteOutputType (mapDecl "") (instanceName k v) (substitution k v)
          (arrayOf side.parameter)
         name := side.output }] := by
    cases side <;> rfl
  rw [houtput, hstays _ hparameter]

/-- An instance of the array has no fields, whether it is registered or not. -/
theorem found_array {types : TypeRegistry} (h : Array.Registered types path)
    (type : TypeDescriptor) :
    ∃ decl, found types (TypeDescriptor.instanceName "Array" [type]) = some decl ∧
      decl.fields = [] := by
  unfold found
  cases hc : types.structRegistry[TypeDescriptor.instanceName "Array" [type]]? with
  | some decl =>
    obtain ⟨arg, hmono⟩ := h.cached type decl hc
    exact ⟨decl, Option.some_or, (Array.instance_new hmono).2.1⟩
  | none =>
    obtain ⟨moduleName, hdecl⟩ := h.declared
    refine ⟨Array.arrayDecl moduleName, ?_, rfl⟩
    rw [Option.none_or, Array.genericBase_instanceName]
    exact hdecl

theorem environment_view (ctx : Context S) (h : Handlers S) (hm : IsMap w p) (side : Side)
    {decl : StructDecl} (hd : found w.types (arrayOf side.parameter).structName = some decl)
    (hnone : decl.fields = []) :
    ∃ env, (StructRoutine.routineEnvironment ctx h p.id (instanceDecl p.keyType p.valueType)
        (instanceRoutine p.keyType p.valueType side.routine) [] w).outcome = .ok env { w with
          heap := (w.heap.allocStruct { typeName := (arrayOf side.parameter).structName }).2 } ∧
      env[side.field]? = some (.struct (side.id p)) := by
  generalize hinputs : (StdMap.assign ∅ "this" (RuntimeValue.struct p.id)).assignAll
      (flat (instanceDecl p.keyType p.valueType).fields
        [.struct p.keysId, .struct p.valuesId]) = inputs
  have hfresh : (StructRoutine.freshOutput ctx h inputs (arrayOf side.parameter).structName
      w).outcome = _ := freshOutput_outcome hd (by rw [hnone]; exact nofun) inputs
  rw [hnone] at hfresh
  have hparams : (instanceRoutine p.keyType p.valueType side.routine).inputParams = [] := by
    cases side <;> rfl
  have henv : (StructRoutine.routineEnvironment ctx h p.id (instanceDecl p.keyType p.valueType)
      (instanceRoutine p.keyType p.valueType side.routine) [] w).outcome = _ :=
    routineEnvironment_outcome hm.hasFields (congrArg List.length hparams)
  have hzip : ((instanceRoutine p.keyType p.valueType side.routine).inputParams.map (·.name)).zip
      ([] : List RuntimeValue) = [] := List.zip_nil_right
  rw [hzip, hinputs, outputParams_view] at henv
  refine ⟨_, henv.trans (initialiseOutputs_struct rfl hfresh), ?_⟩
  rw [StdMap.getElem?_assign_ne _ _ (by cases side <;> decide), ← hinputs, fields_instanceDecl]
  change (((StdMap.assign ∅ "this" _).assign "keys_" _).assign "values_" _)[side.field]? = _
  cases side with
  | keys =>
    exact (StdMap.getElem?_assign_ne _ _ (by decide)).trans (StdMap.getElem?_assign_self _ _ _)
  | values => exact StdMap.getElem?_assign_self _ _ _

theorem collect_view (p : Place) (env : ParameterMap) (side : Side) (w : World S) :
    ((StructRoutine.collectOutputs (instanceRoutine p.keyType p.valueType side.routine).name
        ((env.assign side.output (.struct (side.id p))).assignAll
          (flat (instanceDecl p.keyType p.valueType).fields
            [.struct p.keysId, .struct p.valuesId]))
        (instanceRoutine p.keyType p.valueType side.routine).outputParams >>= packResult)
      w).outcome = .ok (.struct (side.id p)) w := by
  generalize hmap : (env.assign side.output (.struct (side.id p))).assignAll
      (flat (instanceDecl p.keyType p.valueType).fields
        [.struct p.keysId, .struct p.valuesId]) = map
  have hget : map[side.output]? = some (.struct (side.id p)) := by
    rw [← hmap, fields_instanceDecl]
    change (((env.assign side.output _).assign "keys_" _).assign "values_" _)[side.output]? = _
    rw [StdMap.getElem?_assign_ne _ _ (by cases side <;> decide),
      StdMap.getElem?_assign_ne _ _ (by cases side <;> decide), StdMap.getElem?_assign_self]
  rw [outputParams_view]
  have hcollect : (StructRoutine.collectOutputs
      (instanceRoutine p.keyType p.valueType side.routine).name map
      [{ type := arrayOf side.parameter, name := side.output }] w).outcome =
      .ok [.struct (side.id p)] w := by
    unfold StructRoutine.collectOutputs
    dsimp only
    rw [hget]
    rfl
  exact Comp.bind_of_ok hcollect

/-- The answer of `Keys()` or `Values()` is the instance in the field of the map. -/
theorem call_view (ctx : Context S) (fuel : Nat) (hreg : Registered w.types path) (hm : IsMap w p) (side : Side) :
    ∃ w', (ExprEvaluator.callOnValue ctx (Machine.handlers ctx (fuel + 1)) (.struct p.id)
        side.routine.name (pure []) w).outcome = .ok (.struct (side.id p)) w' ∧
      Undisturbed path w w' := by
  obtain ⟨object, hobject, htype⟩ := hm.object
  have hfound : found w.types object.typeName =
      some (instanceDecl p.keyType p.valueType) := htype ▸ hm.found
  have hfind : (instanceDecl p.keyType p.valueType).findRoutine side.routine.name =
      some (instanceRoutine p.keyType p.valueType side.routine) := by
    cases side <;> rfl
  have hcall : (ExprEvaluator.callOnValue ctx (Machine.handlers ctx (fuel + 1)) (.struct p.id)
      side.routine.name (pure []) w).outcome =
      ((StructRoutine.execStructRoutine ctx (Machine.handlers ctx fuel) p.id
        (instanceDecl p.keyType p.valueType)
        (instanceRoutine p.keyType p.valueType side.routine) [] >>= packResult) w).outcome :=
    callOnValue_outcome hobject hfound hfind rfl
  obtain ⟨decl, hdecl, hnone⟩ := found_array hreg.arrays side.parameter
  obtain ⟨env, henv, hfield⟩ := environment_view ctx (Machine.handlers ctx fuel) hm side
    hdecl hnone
  have hundisturbed : Undisturbed path w { w with
      heap := (w.heap.allocStruct { typeName := (arrayOf side.parameter).structName }).2 } :=
    ⟨Touches.of_structs (List.prefix_append _ _) rfl, hreg, rfl, fun _ _ hd => hd⟩
  have hruns : Runs ctx (Machine.handlers ctx fuel) env
      (instanceRoutine p.keyType p.valueType side.routine).body { w with
        heap := (w.heap.allocStruct { typeName := (arrayOf side.parameter).structName }).2 }
      (env.assign side.output (.struct (side.id p))) { w with
        heap := (w.heap.allocStruct { typeName := (arrayOf side.parameter).structName }).2 } := by
    have hbody : (instanceRoutine p.keyType p.valueType side.routine).body =
        [assign side.output (var side.field)] := by
      cases side <;> rfl
    rw [hbody]
    exact Runs.cons (Steps.assign (evaluate_var hfield _)) Runs.nil
  have hexec := execStructRoutine_of_runs (by cases side <;> rfl) henv hruns
    (hm.of_touches hundisturbed.heap hundisturbed.instances).hasFields
  refine ⟨_, ?_, hundisturbed⟩
  rw [hcall, Comp.outcome_bind, hexec, ← Comp.outcome_bind]
  exact collect_view p env side _

end Views

end FalconLib.Libs.Map
