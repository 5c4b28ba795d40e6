import FalconLib.Dsl.StaticDispatch
import FalconLib.Libs.AxesRoutines
import FalconLib.Libs.MapCreation

/-!
# New axes

`New` makes an array for the receiver of the call and answers a fresh output, whose field stays
nil.
-/

namespace FalconLib.Libs.Axes

open FalconLib.Base (Comp StdMap)
open FalconLib.Dsl
open FalconLib.Dsl.FieldAssign (flatCopied getElem?_flatCopied)
open FalconLib.Dsl.RoutineRuns
open FalconLib.Libs.Array (Creates IsArray Machine callOn)
open FalconLib.Libs.Map (Touches var)
open ExprEvaluator (evaluate)

section New

variable {S : Type} {ctx : Context S} {w w' : World S} {path : String} {env : ParameterMap}

/-! ## The body of `New` -/

/-- `Array.New()` in a body, where the array has no type arguments. -/
theorem newArray_outcome (fuel : Nat) (hl : Linked ctx w.types path)
    (henv : env["Array"]? = none) :
    ∃ id w', (evaluate ctx (Machine.handlers ctx fuel) (.own env) (callOn "Array" "New" [])
        w).outcome = .ok (.struct id) w' ∧ Creates path w w' id ∧ w'.types = w.types := by
  obtain ⟨moduleName, hdecl⟩ := hl.registered.arrays.declared
  have hstrip : stripModulePrefix "Array" = "Array" := by decide
  have hunbound : StaticDispatch.Unbound (.own env) w "Array" :=
    ⟨henv, hstrip.symm ▸ henv⟩
  have hdenoted : StaticDispatch.denoted w.types "Array" = some (Array.arrayDecl moduleName) := by
    unfold StaticDispatch.denoted found
    rw [hdecl]
    rfl
  have hstatic := StaticDispatch.staticReceiver_outcome hunbound {} {}
  change _ = Base.Outcome.ok ((StaticDispatch.denoted w.types "Array").map _) w at hstatic
  rw [hdenoted] at hstatic
  obtain ⟨routine, hfind, hname, hbody⟩ : ∃ routine,
      (Array.arrayDecl moduleName).findRoutine "New" = some routine ∧ routine.name = "New" ∧
        routine.body = [] := ⟨_, rfl, rfl, rfl⟩
  let received : World S := { w with heap := (w.heap.allocStruct { typeName := "Array" }).2 }
  have hreceived : Array.Registered received.types path := hl.registered.arrays
  have hreceiver : (ExprEvaluator.constructReceiver (Machine.handlers ctx fuel) (.own env)
      (Array.arrayDecl moduleName) w).outcome = .ok w.heap.structs.length received := rfl
  have harray : Array.ArrayName (Array.arrayDecl moduleName).name := .inl rfl
  obtain ⟨id, w', hexec, hcreates, hsame⟩ := Array.exists_creates hl.opened hreceived harray
    hname hbody fuel w.heap.structs.length []
  refine ⟨id, w', ?_, ⟨hcreates.registered, ?_, hcreates.instance_, hcreates.arrays⟩, hsame⟩
  · change (ExprEvaluator.evalMethodCall ctx (Machine.handlers ctx fuel) (.own env) {}
      (.var {} "Array") "New" (ExprEvaluator.evalVariable (.own env) "Array") (pure []) w).outcome = _
    unfold ExprEvaluator.evalMethodCall
    refine (Comp.bind_of_ok hstatic).trans ?_
    change (ExprEvaluator.callStatic (Machine.handlers ctx fuel) (.own env)
      (Array.arrayDecl moduleName) [] "New" (pure []) w).outcome = _
    unfold ExprEvaluator.callStatic
    have hplain : (ExprEvaluator.instantiate (Array.arrayDecl moduleName) [] w).outcome =
        .ok (Array.arrayDecl moduleName) w := rfl
    refine (Comp.bind_of_ok hplain).trans ?_
    rw [hfind]
    exact (Comp.bind_of_ok hreceiver).trans hexec
  · exact (List.prefix_append _ _).trans hcreates.structs
/-! ## The routine `New` -/

/-- The axes `made` are new, and their field is nil. -/
structure Makes (ctx : Context S) (path : String) (w w' : World S) (made : Place) : Prop where
  isAxes : IsAxes w' made
  nil : made.array = none
  fresh : w.heap.structs.length ≤ made.id
  touches : Touches w.heap w'.heap []
  linked : Linked ctx w'.types path
  instances : ∀ (name : String) (decl : StructDecl), w.types.structRegistry[name]? = some decl →
    w'.types.structRegistry[name]? = some decl

/-- An array is written to the field of the receiver. -/
def filled (w : World S) (receiver array : Nat) : World S :=
  { w with heap := w.heap.setField receiver "arr_" (.struct array) }

/-- The heap once the output of `New` is made. -/
def withOutput (heap : Heap) (type : TypeDescriptor) : Heap :=
  (heap.allocStruct { typeName := instanceName type }).2.setField heap.structs.length "arr_" .nil

theorem structs_withOutput (heap : Heap) (type : TypeDescriptor) :
    heap.structs <+: (withOutput heap type).structs ∧
      (∃ object, (withOutput heap type).structs[heap.structs.length]? = some object ∧
        object.typeName = instanceName type) ∧
      (withOutput heap type).field? heap.structs.length "arr_" = some .nil := by
  have hlength : heap.structs.length <
      (heap.allocStruct { typeName := instanceName type }).2.structs.length := by
    change _ < (heap.structs ++ [_]).length
    rw [List.length_append]
    exact Nat.lt_succ_self _
  refine ⟨prefix_setField (List.prefix_append _ _) (Nat.le_refl _) _ _, ?_, ?_⟩
  · refine Option.map_eq_some_iff.mp ?_
    unfold withOutput
    rw [Heap.setField_typeName]
    unfold Heap.allocStruct
    dsimp only
    rw [List.getElem?_concat_length]
    rfl
  · exact (Heap.field?_setField _ _ _ _ _ _ hlength).trans (if_pos ⟨rfl, rfl⟩)

theorem environment_new (ctx : Context S) (h : Handlers S) {type : TypeDescriptor}
    (hd : found w.types (instanceName type) = some (instanceDecl type)) {receiver : Nat}
    {a : RuntimeValue} (hf : HasFields w.heap receiver (instanceDecl type).fields [a]) :
    ∃ env, (StructRoutine.routineEnvironment ctx h receiver (instanceDecl type)
        (instanceRoutine type newRoutine) [] w).outcome =
        .ok env { w with heap := withOutput w.heap type } ∧
      env["Array"]? = none ∧ env["this"]? = some (.struct receiver) ∧
        env["axes"]? = some (.struct w.heap.structs.length) := by
  have htype : (substituteOutputType (axesDecl "") (instanceName type) (substitution type)
      (axesOf Array.typeT)).isStruct = true := by
    rw [Map.isStruct_substituteOutputType, substituteType_other rfl (by decide)]
    rfl
  have hnone : ∀ field ∈ (instanceDecl type).fields, field.initializer = none := by
    rw [fields_instanceDecl]
    decide
  have hdefaulted : defaulted w.heap.structs.length (instanceDecl type).fields
      (w.heap.allocStruct { typeName := instanceName type }).2 = withOutput w.heap type := by
    rw [fields_instanceDecl]
    rfl
  generalize hinputs : (StdMap.assign ∅ "this" (RuntimeValue.struct receiver)).assignAll
      (flat (instanceDecl type).fields [a]) = inputs
  have hfresh : (StructRoutine.freshOutput ctx h inputs (instanceName type) w).outcome = _ :=
    freshOutput_outcome hd hnone inputs
  rw [hdefaulted] at hfresh
  have hzip : ((instanceRoutine type newRoutine).inputParams.map (·.name)).zip
      ([] : List RuntimeValue) = [] := List.zip_nil_right
  have henv : (StructRoutine.routineEnvironment ctx h receiver (instanceDecl type)
      (instanceRoutine type newRoutine) [] w).outcome = _ := routineEnvironment_outcome hf rfl
  rw [hzip, hinputs] at henv
  let out : ParamDecl :=
    { type := substituteOutputType (axesDecl "") (instanceName type) (substitution type)
        (axesOf Array.typeT)
      name := "axes" }
  have houtcome : (StructRoutine.initialiseOutputs ctx h [out] inputs w).outcome =
      .ok (inputs.assign "axes" (.struct w.heap.structs.length))
        { w with heap := withOutput w.heap type } := by
    refine initialiseOutputs_struct htype ?_
    change (StructRoutine.freshOutput ctx h inputs (substituteOutputType (axesDecl "")
      (instanceName type) (substitution type) (axesOf Array.typeT)).structName w).outcome = _
    rw [structName_newOutput]
    exact hfresh
  have hread : ∀ name, name ≠ "axes" → (inputs.assign "axes" (.struct w.heap.structs.length))[
      name]? = ((StdMap.assign ∅ "this" (RuntimeValue.struct receiver)).assign "arr_" a)[name]? := by
    intro name hname
    rw [StdMap.getElem?_assign_ne _ _ hname.symm, ← hinputs, fields_instanceDecl]
    rfl
  refine ⟨_, henv.trans houtcome, ?_, ?_, StdMap.getElem?_assign_self _ _ _⟩
  · rw [hread _ (by decide), StdMap.getElem?_assign_ne _ _ (by decide),
      StdMap.getElem?_assign_ne _ _ (by decide)]
    exact Std.ExtTreeMap.getElem?_empty
  · rw [hread _ (by decide), StdMap.getElem?_assign_ne _ _ (by decide),
      StdMap.getElem?_assign_self]

theorem lt_of_hasFields {heap : Heap} {receiver : Nat} {field : VarDeclStmt}
    {fields : List VarDeclStmt} {values : List RuntimeValue}
    (hf : HasFields heap receiver (field :: fields) values) : receiver < heap.structs.length := by
  obtain ⟨value, values', hvalue, _⟩ := List.forall₂_cons_left_iff.mp hf
  obtain ⟨object, hobject, _⟩ := Option.bind_eq_some_iff.mp hvalue
  exact (List.getElem?_eq_some_iff.mp hobject).1

/-- The body writes a new array to the field of the receiver. -/
theorem runs_new (fuel : Nat) (hl : Linked ctx w.types path) (harray : env["Array"]? = none)
    {receiver : Nat} (hthis : env["this"]? = some (.struct receiver))
    (hreceiver : receiver < w.heap.structs.length) :
    ∃ id w', Runs ctx (Machine.handlers ctx fuel) env newRoutine.body w
        (flatCopied env "arr_" (.struct id)) (filled w' receiver id) ∧
      Creates path w w' id ∧ w'.types = w.types := by
  obtain ⟨id, w', hnew, hcreates, hsame⟩ := newArray_outcome fuel hl harray
  have hlt := Nat.lt_of_lt_of_le hreceiver hcreates.structs.length_le
  exact ⟨id, w', Runs.cons (Steps.structFieldAssign hnew hthis hlt) Runs.nil, hcreates, hsame⟩

/-- The output of `New` is what was there before the body. -/
theorem collect_new (type : TypeDescriptor) (a : RuntimeValue) {value : RuntimeValue}
    (haxes : env["axes"]? = some value) (w : World S) :
    ((StructRoutine.collectOutputs "New" (env.assignAll (flat (instanceDecl type).fields [a]))
        (instanceRoutine type newRoutine).outputParams >>= packResult) w).outcome =
      .ok value w := by
  have hget : (env.assignAll (flat (instanceDecl type).fields [a]))["axes"]? = some value := by
    have hne : "arr_" ≠ "axes" := by decide
    rw [fields_instanceDecl]
    exact (StdMap.getElem?_assign_ne _ _ hne).trans haxes
  generalize env.assignAll (flat (instanceDecl type).fields [a]) = map at hget ⊢
  have hcollect : (StructRoutine.collectOutputs "New" map
      (instanceRoutine type newRoutine).outputParams w).outcome = .ok [value] w := by
    change (StructRoutine.collectOutputs "New" map [{ type := _, name := "axes" }] w).outcome = _
    unfold StructRoutine.collectOutputs
    rw [hget]
    rfl
  exact Comp.bind_of_ok hcollect

/-- `New` fills the receiver and answers axes whose field is nil. -/
theorem exec_new (fuel : Nat) (hl : Linked ctx w.types path) {type : TypeDescriptor}
    (hd : w.types.structRegistry[instanceName type]? = some (instanceDecl type)) {receiver : Nat}
    {a : RuntimeValue} (hf : HasFields w.heap receiver (instanceDecl type).fields [a]) :
    ∃ made w' id, (((Machine.handlers ctx (fuel + 1)).execStructRoutine receiver
        (instanceDecl type) (instanceRoutine type newRoutine) [] >>= packResult) w).outcome =
        .ok (.struct made.id) (filled w' receiver id) ∧
      Makes ctx path w w' made ∧ IsArray w'.heap id w.heap.arrays.length [] := by
  have hfound : found w.types (instanceName type) = some (instanceDecl type) := by
    unfold found
    rw [hd, Option.some_or]
  obtain ⟨env, henv, harray, hthis, haxes⟩ :=
    environment_new ctx (Machine.handlers ctx fuel) hfound hf
  obtain ⟨hsub, ⟨object, hobject, htype⟩, hfield⟩ := structs_withOutput w.heap type
  have hreceiver : receiver < w.heap.structs.length := by
    rw [fields_instanceDecl] at hf
    exact lt_of_hasFields hf
  obtain ⟨id, w', hruns, hcreates, hsame⟩ :=
    runs_new (w := { w with heap := withOutput w.heap type }) fuel hl harray hthis
      (Nat.lt_of_lt_of_le hreceiver hsub.length_le)
  have hstructs : w.heap.structs <+: w'.heap.structs := hsub.trans hcreates.structs
  have harrays : w'.heap.arrays = w.heap.arrays ++ [Map.blank] := hcreates.arrays
  have hfilled : HasFields (filled w' receiver id).heap receiver (instanceDecl type).fields
      [.struct id] := by
    rw [fields_instanceDecl]
    refine .cons ?_ .nil
    exact (Heap.field?_setField _ _ _ _ _ _
      (Nat.lt_of_lt_of_le hreceiver hstructs.length_le)).trans (if_pos ⟨rfl, rfl⟩)
  have hexec : (StructRoutine.execStructRoutine ctx (Machine.handlers ctx fuel) receiver
      (instanceDecl type) (instanceRoutine type newRoutine) [] w).outcome = _ :=
    execStructRoutine_of_runs rfl henv hruns hfilled
  have hcopied : (flatCopied env "arr_" (.struct id))["axes"]? =
      some (.struct w.heap.structs.length) := by
    rw [getElem?_flatCopied, if_neg fun h => absurd h.1 (by decide), haxes]
  refine ⟨⟨type, w.heap.structs.length, none⟩, w', id, ?_, ?_, ?_⟩
  · change ((StructRoutine.execStructRoutine ctx (Machine.handlers ctx fuel) receiver
      (instanceDecl type) (instanceRoutine type newRoutine) [] >>= packResult) w).outcome = _
    rw [Comp.outcome_bind, hexec, ← Comp.outcome_bind]
    exact collect_new type _ hcopied _
  · refine ⟨⟨?_, ?_, ?_⟩, rfl, Nat.le_refl _, ?_, ?_, ?_⟩
    · exact ⟨object, getElem?_of_isPrefix hcreates.structs hobject, htype⟩
    · rw [hsame]
      exact hd
    · have htouches : Touches (withOutput w.heap type) w'.heap [] := by
        refine ⟨hcreates.structs, ?_, fun i hi _ => ?_⟩
        · rw [hcreates.arrays, List.length_append]
          exact Nat.le_add_right _ _
        · rw [hcreates.arrays, List.getElem?_append_left hi]
      exact htouches.field? hfield
    · refine ⟨hstructs, ?_, fun i hi _ => ?_⟩
      · rw [harrays, List.length_append]
        exact Nat.le_add_right _ _
      · rw [harrays, List.getElem?_append_left hi]
    · rw [hsame]
      exact hl
    · intro name decl hdecl
      rw [hsame]
      exact hdecl
  · refine ⟨⟨_, hcreates.instance_, rfl, rfl⟩, Map.blank, ?_, rfl⟩
    rw [harrays, List.getElem?_concat_length]

/-! ## Calls of `New` -/

theorem getElem?_filled {receiver i : Nat} (hne : receiver ≠ i) (w : World S) (id : Nat) :
    (filled w receiver id).heap.structs[i]? = w.heap.structs[i]? :=
  List.getElem?_modify_ne _ _ hne

/-- Other axes are as they were. -/
theorem IsAxes.filled {p : Place} (h : IsAxes w p) {receiver : Nat} (hne : receiver ≠ p.id)
    (id : Nat) : IsAxes (filled w receiver id) p := by
  obtain ⟨object, hobject, htype⟩ := h.object
  refine ⟨⟨object, (getElem?_filled hne w id).trans hobject, htype⟩, h.declared, ?_⟩
  unfold Heap.field?
  rw [getElem?_filled hne]
  exact h.field

/-- The receiver has the array in its field. -/
theorem IsAxes.fill {p : Place} (h : IsAxes w p) (id handle : Nat) :
    IsAxes (Axes.filled w p.id id) { p with array := some (id, handle) } := by
  obtain ⟨object, hobject, htype⟩ := h.object
  refine ⟨?_, h.declared, ?_⟩
  · refine Option.map_eq_some_iff.mp ?_
    change ((w.heap.setField p.id "arr_" (.struct id)).structs[p.id]?).map _ = _
    rw [Heap.setField_typeName, hobject]
    exact congrArg some htype
  · exact (Heap.field?_setField _ _ _ _ _ _ (List.getElem?_eq_some_iff.mp hobject).1).trans
      (if_pos ⟨rfl, rfl⟩)

/-- The instance for a declaration, from the cache or new. -/
theorem exists_instantiate (hl : Linked ctx w.types path) (moduleName : String)
    (type : TypeDescriptor) :
    ∃ type' types, (ExprEvaluator.instantiate (axesDecl moduleName) [type] w).outcome =
        .ok (instanceDecl type') { w with types := types } ∧
      types.structRegistry[instanceName type']? = some (instanceDecl type') ∧
      Linked ctx types path ∧ ∀ (name : String) (decl : StructDecl),
        w.types.structRegistry[name]? = some decl → types.structRegistry[name]? = some decl := by
  change ∃ type' types, InstanceCache.call w (axesDecl moduleName) [type] = _ ∧ _
  cases hc : w.types.structRegistry[instanceName type]? with
  | some decl =>
    obtain ⟨type', hsame, rfl⟩ := hl.registered.cached type decl hc
    exact ⟨type', w.types, InstanceCache.call_of_some hc, hsame ▸ hc, hl, fun _ _ hd => hd⟩
  | none =>
    exact ⟨type, _, InstanceCache.call_of_ok hc rfl, StdMap.getElem?_assign_self _ _ _,
      hl.registerInstance type, fun name decl hd => StdMap.getElem?_assign_of_new hc hd _⟩

theorem findRoutine_new (type : TypeDescriptor) :
    (instanceDecl type).findRoutine "New" = some (instanceRoutine type newRoutine) := rfl

/-- The array of a static call goes to a receiver that nothing refers to. -/
theorem callStatic_new (fuel : Nat) (hl : Linked ctx w.types path) (moduleName : String)
    (type : TypeDescriptor) (vars : Variables) :
    ∃ made w', (ExprEvaluator.callStatic (Machine.handlers ctx (fuel + 1)) vars
      (axesDecl moduleName) [type] "New" (pure []) w).outcome = .ok (.struct made.id) w' ∧
        Makes ctx path w w' made := by
  obtain ⟨type', types, hinst, hdecl, hl', hinstances⟩ := exists_instantiate hl moduleName type
  have hfields : ∀ field ∈ (instanceDecl type').fields,
      field.initializer = none ∧ field.type.baseType = .struct := by
    rw [fields_instanceDecl]
    decide
  have hnodup : ((instanceDecl type').fields.map (·.name)).Nodup := by
    rw [fields_instanceDecl]
    decide
  obtain ⟨heap, values, hreceiver, hhas, hstructs, harrays⟩ :=
    constructReceiver_outcome (h := Machine.handlers ctx (fuel + 1)) hfields hnodup vars
      { w with types := types }
  obtain ⟨a, rfl⟩ : ∃ a, values = [a] := by
    have hlength := hhas.length_eq
    rw [fields_instanceDecl] at hlength
    exact List.length_eq_one_iff.mp hlength.symm
  have hlt : w.heap.structs.length < heap.structs.length := by
    rw [fields_instanceDecl] at hhas
    exact lt_of_hasFields hhas
  obtain ⟨made, w', id, hexec, hmakes, _⟩ :=
    exec_new (w := { w with
      types := types
      heap := heap }) fuel hl' hdecl hhas
  have hfresh : heap.structs.length ≤ made.id := hmakes.fresh
  have htouches : Touches w.heap w'.heap [] :=
    (Map.Touches.of_structs hstructs harrays).trans hmakes.touches
  refine ⟨made, filled w' w.heap.structs.length id, ?_, ?_, hmakes.nil, by omega, ?_,
    hmakes.linked, fun name decl hd => hmakes.instances name decl (hinstances name decl hd)⟩
  · unfold ExprEvaluator.callStatic
    refine (Comp.bind_of_ok hinst).trans ?_
    rw [findRoutine_new]
    exact (Comp.bind_of_ok hreceiver).trans hexec
  · exact hmakes.isAxes.filled (by omega) id
  · exact ⟨prefix_setField htouches.structs (Nat.le_refl _) _ _, htouches.grows, htouches.others⟩

/-- `Axes.New()`. -/
def newCall : Expr := callOn "Axes" "New" []

theorem evaluate_newCall (fuel : Nat) (hl : Linked ctx w.types path) (henv : env["Axes"]? = none)
    (type : TypeDescriptor) :
    ∃ made w', (evaluate ctx (Machine.handlers ctx (fuel + 1)) (.own env)
      (newCall.setInferredType (axesOf type)) w).outcome = .ok (.struct made.id) w' ∧
        Makes ctx path w w' made := by
  obtain ⟨moduleName, hdecl⟩ := hl.registered.declared
  obtain ⟨made, w', hcall, hmakes⟩ := callStatic_new fuel hl moduleName type (.own env)
  have hstatic : (ExprEvaluator.staticReceiver (.own env) { inferredType := some (axesOf type) }
      (.var {} "Axes") w).outcome = .ok (some (axesDecl moduleName, [type])) w :=
    staticReceiver_outcome hdecl henv (by decide) (genericBase_instanceName type) rfl rfl
  refine ⟨made, w', ?_, hmakes⟩
  change (ExprEvaluator.evalMethodCall ctx (Machine.handlers ctx (fuel + 1)) (.own env)
    { inferredType := some (axesOf type) } (.var {} "Axes") "New"
    (ExprEvaluator.evalVariable (.own env) "Axes") (pure []) w).outcome = _
  unfold ExprEvaluator.evalMethodCall
  exact (Comp.bind_of_ok hstatic).trans hcall

/-- `x.New()` for a variable with axes fills these. -/
theorem evaluate_renew (fuel : Nat) (hl : Linked ctx w.types path) {x : String} {p : Place}
    (henv : env[x]? = some (.struct p.id)) (hm : IsAxes w p) (type : TypeDescriptor) :
    ∃ made w' id, (evaluate ctx (Machine.handlers ctx (fuel + 1)) (.own env)
        ((callOn x "New" []).setInferredType (axesOf type)) w).outcome =
        .ok (.struct made.id) (filled w' p.id id) ∧
      Makes ctx path w w' made ∧ IsArray w'.heap id w.heap.arrays.length [] := by
  obtain ⟨object, hobject, htype⟩ := hm.object
  have hfound : found w.types object.typeName = some (instanceDecl p.type) := htype ▸ hm.found
  obtain ⟨made, w', id, hexec, hmakes, harray⟩ := exec_new fuel hl hm.declared hm.hasFields
  refine ⟨made, w', id, ?_, hmakes, harray⟩
  change (ExprEvaluator.evalMethodCall ctx (Machine.handlers ctx (fuel + 1)) (.own env)
    { inferredType := some (axesOf type) } (.var {} x) "New"
    (ExprEvaluator.evalVariable (.own env) x) (pure []) w).outcome = _
  unfold ExprEvaluator.evalMethodCall
  refine (Comp.bind_of_ok (Array.staticReceiver_of_bound henv _ w)).trans ?_
  refine (Comp.bind_of_ok (Array.evalVariable_of_bound henv w)).trans ?_
  exact (callOnValue_outcome hobject hfound (findRoutine_new _) rfl).trans hexec

end New

end FalconLib.Libs.Axes
