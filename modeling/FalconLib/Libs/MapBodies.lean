import FalconLib.Libs.MapCalls

/-!
# The bodies of the map routines

One lemma for each routine: on a map of variables that binds the two arrays and the inputs,
the body leaves the table of the operation of its name and its answer under the output.
-/

namespace FalconLib.Libs.Map

open FalconLib.Base (Comp StdMap Table)
open FalconLib.Dsl
open FalconLib.Dsl.RoutineRuns
open FalconLib.Libs.Array (Machine Method Search callOn)
open ExprEvaluator (evaluate evaluateList)

variable {S : Type} {ctx : Context S} {w : World S} {path : String} {env : ParameterMap}
  {p : Place} {t : Table RuntimeValue RuntimeValue} {key value : RuntimeValue} {fuel : Nat}

/-- The table is in the arrays of the map. -/
abbrev Tabled (heap : Heap) (p : Place) (t : Table RuntimeValue RuntimeValue) : Prop :=
  Stored heap p t.keys t.values

/-- The body ends with the table `t` in the arrays, and `left` of the variables. -/
def Ends (ctx : Context S) (fuel : Nat) (env : ParameterMap) (body : List Stmt) (w : World S)
    (p : Place) (t : Table RuntimeValue RuntimeValue) (left : ParameterMap → Prop) : Prop :=
  ∃ env' heap', Runs ctx (Machine.handlers ctx fuel) env body w env' { w with heap := heap' } ∧
    left env' ∧ Tabled heap' p t ∧ Touches w.heap heap' p.handles

/-- The body raises an error and leaves the table. -/
def Fails (ctx : Context S) (fuel : Nat) (env : ParameterMap) (body : List Stmt) (w : World S)
    (p : Place) (t : Table RuntimeValue RuntimeValue) : Prop :=
  ∃ heap', Raises (StmtExecutor.executeBlock ctx (Machine.handlers ctx fuel) (.own env) body) w
      { w with heap := heap' } ∧
    Tabled heap' p t ∧ Touches w.heap heap' p.handles

theorem Ends.nil {left : ParameterMap → Prop} (hleft : left env) (hs : Tabled w.heap p t) :
    Ends ctx fuel env [] w p t left := ⟨env, w.heap, Runs.nil, hleft, hs, Touches.refl _ _⟩

theorem Ends.mono {body : List Stmt} {left left' : ParameterMap → Prop}
    (h : Ends ctx fuel env body w p t left) (hleft : ∀ env', left env' → left' env') :
    Ends ctx fuel env body w p t left' := by
  obtain ⟨env', heap', hrun, hl, hstored, htouches⟩ := h
  exact ⟨env', heap', hrun, hleft env' hl, hstored, htouches⟩

theorem Ends.cons {stmt : Stmt} {stmts : List Stmt} {env₁ : ParameterMap} {heap : Heap}
    {left : ParameterMap → Prop}
    (hs : Steps ctx (Machine.handlers ctx fuel) env stmt w env₁ { w with heap := heap })
    (ht : Touches w.heap heap p.handles)
    (hr : Ends ctx fuel env₁ stmts { w with heap := heap } p t left) :
    Ends ctx fuel env (stmt :: stmts) w p t left := by
  obtain ⟨env', heap', hrun, hleft, hstored, htouches⟩ := hr
  exact ⟨env', heap', Runs.cons hs hrun, hleft, hstored, ht.trans htouches⟩

theorem Fails.cons {stmt : Stmt} {stmts : List Stmt} {env₁ : ParameterMap} {heap : Heap}
    (hs : Steps ctx (Machine.handlers ctx fuel) env stmt w env₁ { w with heap := heap })
    (ht : Touches w.heap heap p.handles) (hr : Fails ctx fuel env₁ stmts { w with heap := heap } p t) :
    Fails ctx fuel env (stmt :: stmts) w p t := by
  obtain ⟨heap', hraise, hstored, htouches⟩ := hr
  exact ⟨heap', Raises.step hs hraise, hstored, ht.trans htouches⟩

/-- A body that ends with a choice. -/
theorem Ends.ifStmt {condition : Expr} {thenBody elseBody : List Stmt} {b : Bool} {heap : Heap}
    {left : ParameterMap → Prop}
    (hc : (evaluate ctx (Machine.handlers ctx fuel) (.own env) condition w).outcome =
      .ok (.bool b) { w with heap := heap })
    (ht : Touches w.heap heap p.handles)
    (hb : Ends ctx fuel env (if b then thenBody else elseBody) { w with heap := heap } p t left) :
    Ends ctx fuel env [.ifStmt {} condition thenBody elseBody] w p t left := by
  obtain ⟨env', heap', hrun, hleft, hstored, htouches⟩ := hb
  exact ⟨env', heap', Runs.cons (Steps.ifStmt hc hrun) Runs.nil, hleft, hstored,
    ht.trans htouches⟩

theorem no_args (ctx : Context S) (h : Handlers S) (env : ParameterMap) (w : World S) :
    (evaluateList ctx h (.own env) [] w).outcome = .ok [] w := rfl

/-! ## Positions -/

/-- What `IndexOf` answers. -/
def indexValue (ks : List RuntimeValue) (key : RuntimeValue) : RuntimeValue :=
  if key ∈ ks then .int (Int64.ofNat (ks.idxOf key)) else .int (-1)

theorem toInt_position {n : Nat} (h : n < 2 ^ 63) : (Int64.ofNat n).toInt = n :=
  Int64.toInt_ofNat_of_lt h

theorem steps_index (fuel : Nat) (hl : Linked ctx w.types path) (hb : Bound env p) {ks vs : List RuntimeValue}
    (hs : Stored w.heap p ks vs) (hkey : Key key) (henv : env["key"]? = some key) :
    ∃ heap', Steps ctx (Machine.handlers ctx fuel) env (declare intType "index" indexOfKey) w
        (env.assign "index" (indexValue ks key)) { w with heap := heap' } ∧
      Stored heap' p ks vs ∧ Touches w.heap heap' p.handles := by
  obtain ⟨heap', hcall, hs', ht⟩ := search_keys hl hb hs .indexOf hkey henv
  rw [Array.indexOf_scalar heap' ks hkey.1] at hcall
  exact ⟨heap', Steps.varDecl hcall, hs', ht⟩

theorem evaluate_indexFound (ctx : Context S) (fuel : Nat) {ks : List RuntimeValue} (hlen : ks.length < 2 ^ 63)
    (henv : env["index"]? = some (indexValue ks key)) (w : World S) :
    (evaluate ctx (Machine.handlers ctx fuel) (.own env) indexFound w).outcome =
      .ok (.bool (decide (key ∈ ks))) w := by
  refine evaluate_binary (evaluate_var henv w) (b := .int (-1)) rfl ?_
  change OpResult.value (.bool (!valuesEqual w.heap (indexValue ks key) (.int (-1)))) = _
  unfold indexValue
  by_cases hmem : key ∈ ks
  · have hlt := List.idxOf_lt_length_iff.mpr hmem
    have hne : Int64.ofNat (ks.idxOf key) ≠ -1 := by
      intro he
      have hint := congrArg Int64.toInt he
      have hneg : (-1 : Int64).toInt = -1 := by decide
      rw [toInt_position (by omega), hneg] at hint
      omega
    rw [if_pos hmem, decide_eq_true hmem]
    change OpResult.value (.bool (!(Int64.ofNat (ks.idxOf key) == -1))) = _
    rw [beq_eq_false_iff_ne.mpr hne]
    rfl
  · rw [if_neg hmem, decide_eq_false hmem]
    rfl

/-! ## Routines without a key -/

theorem ends_size (hl : Linked ctx w.types path) (hb : Bound env p) (hs : Tabled w.heap p t) :
    Ends ctx fuel env sizeRoutine.body w p t fun env' =>
      env'["size"]? = some (.int (Int64.ofNat t.keys.length)) := by
  obtain ⟨heap', hcall, hs', ht⟩ :=
    call_keys hl hb hs .size (fun _ hv => absurd hv List.not_mem_nil) (no_args _ _ _ _) rfl
  exact Ends.cons (Steps.assign hcall) ht (Ends.nil (StdMap.getElem?_assign_self _ _ _) hs')

theorem ends_isEmpty (hl : Linked ctx w.types path) (hb : Bound env p) (hs : Tabled w.heap p t)
    (hlen : t.keys.length < 2 ^ 63) :
    Ends ctx fuel env isEmptyRoutine.body w p t fun env' =>
      env'["empty"]? = some (.bool (t.keys.length == 0)) := by
  obtain ⟨heap', hcall, hs', ht⟩ :=
    call_keys hl hb hs .size (fun _ hv => absurd hv List.not_mem_nil) (no_args _ _ _ _) rfl
  refine Ends.cons (Steps.varDecl hcall) ht ?_
  have hequal : (Int64.ofNat t.keys.length == 0) = (t.keys.length == 0) := by
    rw [Bool.eq_iff_iff, beq_iff_eq, beq_iff_eq, ← Int64.toInt_inj, toInt_position hlen]
    exact Int.ofNat_eq_zero
  have hsize : (env.assign "size" (.int (Int64.ofNat t.keys.length)))["size"]? =
      some (.int (Int64.ofNat t.keys.length)) := StdMap.getElem?_assign_self _ _ _
  have hempty : (evaluate ctx (Machine.handlers ctx fuel)
      (.own (env.assign "size" (.int (Int64.ofNat t.keys.length))))
      (.binary {} "==" (var "size") (.literal {} (.int 0))) { w with heap := heap' }).outcome =
        .ok (.bool (t.keys.length == 0)) { w with heap := heap' } := by
    refine evaluate_binary (evaluate_var hsize _) (b := .int 0) rfl ?_
    change OpResult.value (.bool (Int64.ofNat t.keys.length == 0)) = _
    rw [hequal]
  exact Ends.cons (Steps.assign hempty) (Touches.refl _ _)
    (Ends.nil (StdMap.getElem?_assign_self _ _ _) hs')

theorem ends_clear (hl : Linked ctx w.types path) (hb : Bound env p) (hs : Tabled w.heap p t) :
    Ends ctx fuel env clearRoutine.body w p Table.empty fun _ => True := by
  obtain ⟨heap₁, hkeys, hs₁, ht₁⟩ :=
    call_keys hl hb hs .clear (fun _ hv => absurd hv List.not_mem_nil) (no_args _ _ _ _) rfl
  obtain ⟨heap₂, hvalues, hs₂, ht₂⟩ := call_values (w := { w with heap := heap₁ }) hl hb hs₁ .clear
    (fun _ hv => absurd hv List.not_mem_nil) (no_args _ _ _ _) rfl
  exact Ends.cons (Steps.expr hkeys) ht₁
    (Ends.cons (Steps.expr hvalues) ht₂ (Ends.nil trivial hs₂))

/-! ## Routines with a key -/

theorem ends_contains (hl : Linked ctx w.types path) (hb : Bound env p) (hs : Tabled w.heap p t)
    (hkey : Key key) (henv : env["key"]? = some key) :
    Ends ctx fuel env containsRoutine.body w p t fun env' =>
      env'["found"]? = some (.bool (t.get? key).isSome) := by
  obtain ⟨heap', hcall, hs', ht⟩ := search_keys hl hb hs .contains hkey henv
  have hsome : decide (key ∈ t.keys) = (t.get? key).isSome := by
    rw [Bool.eq_iff_iff, decide_eq_true_iff, Table.mem_keys_iff, Option.isSome_iff_exists]
  rw [Array.contains_scalar heap' t.keys hkey.1, hsome] at hcall
  exact Ends.cons (Steps.assign hcall) ht (Ends.nil (StdMap.getElem?_assign_self _ _ _) hs')

/-- The position of a present key stands in the values as well. -/
theorem index_of_get? (h : t.get? key = some value) (hlen : t.keys.length < 2 ^ 63) :
    ∃ index : Int64, indexValue t.keys key = .int index ∧
      index.toInt = t.keys.idxOf key ∧ t.values[index.toInt.toNat]? = some value := by
  have hmem := Table.mem_keys_iff.mpr ⟨value, h⟩
  have hlt := List.idxOf_lt_length_iff.mpr hmem
  have hint := toInt_position (Nat.lt_trans hlt hlen)
  refine ⟨Int64.ofNat (t.keys.idxOf key), if_pos hmem, hint, ?_⟩
  rw [hint]
  exact h

theorem getIndex_run (h : t.get? key = some value) (hlen : t.keys.length < 2 ^ 63) :
    ∃ index : Int64, indexValue t.keys key = .int index ∧
      (Method.getIndex index).operation.run t.values = some (.value value, t.values) := by
  obtain ⟨index, hindex, hint, hget⟩ := index_of_get? h hlen
  refine ⟨index, hindex, ?_⟩
  change (if 0 ≤ index.toInt then _ else none) = _
  rw [if_pos (by omega), hget]
  rfl

/-- `value = values_.GetIndex(index)`. -/
theorem ends_getIndex (hl : Linked ctx w.types path) (hb : Bound env p) (hs : Tabled w.heap p t)
    {index : Int64} (henv : env["index"]? = some (.int index))
    (hrun : (Method.getIndex index).operation.run t.values = some (.value value, t.values)) :
    Ends ctx fuel env [assign "value" (callOn "values_" "GetIndex" [var "index"])] w p t
      fun env' => env'["value"]? = some value := by
  obtain ⟨heap', hcall, hs', ht⟩ := call_values hl hb hs (.getIndex index)
    (fun _ hv => absurd hv List.not_mem_nil) (evaluateList_vars (.cons henv .nil) w) hrun
  exact Ends.cons (Steps.assign hcall) ht (Ends.nil (StdMap.getElem?_assign_self _ _ _) hs')

theorem ends_get (hl : Linked ctx w.types path) (hb : Bound env p) (hs : Tabled w.heap p t)
    (hkey : Key key) (henv : env["key"]? = some key) (hlen : t.keys.length < 2 ^ 63)
    (h : t.get? key = some value) :
    Ends ctx fuel env getRoutine.body w p t fun env' => env'["value"]? = some value := by
  obtain ⟨heap', hindex, hs', ht⟩ := steps_index fuel hl hb hs hkey henv
  obtain ⟨index, hvalue, hrun⟩ := getIndex_run h hlen
  have hb' := hb.assign "index" (by decide) (by decide) (indexValue t.keys key)
  refine Ends.cons hindex ht (ends_getIndex hl hb' hs' ?_ hrun)
  rw [StdMap.getElem?_assign_self, hvalue]

theorem fails_get (hl : Linked ctx w.types path) (hb : Bound env p) (hs : Tabled w.heap p t)
    (hkey : Key key) (henv : env["key"]? = some key) (h : t.get? key = none) :
    Fails ctx fuel env getRoutine.body w p t := by
  obtain ⟨heap₁, hindex, hs₁, ht₁⟩ := steps_index fuel hl hb hs hkey henv
  have hvalue : indexValue t.keys key = .int (-1) := if_neg (Table.get?_eq_none_iff.mp h)
  have hb' := hb.assign "index" (by decide) (by decide) (indexValue t.keys key)
  have henv' : (env.assign "index" (indexValue t.keys key))["index"]? = some (.int (-1)) := by
    rw [StdMap.getElem?_assign_self, hvalue]
  have hrun : (Method.getIndex (-1)).operation.run t.values = none := by
    unfold Method.operation Base.ListHeap.Operation.run
    exact if_neg (by decide)
  obtain ⟨heap₂, hraise, hs₂, ht₂⟩ := call_values_raises (w := { w with heap := heap₁ }) hl hb' hs₁
    (.getIndex (-1)) (fun _ hv => absurd hv List.not_mem_nil)
    (evaluateList_vars (.cons henv' .nil) _) hrun
  refine Fails.cons hindex ht₁ ⟨heap₂, ?_, hs₂, ht₂⟩
  exact executeBlock_of_raises (hraise.bind.bind.withContext _)

theorem ends_getOr (hl : Linked ctx w.types path) (hb : Bound env p) (hs : Tabled w.heap p t)
    (hkey : Key key) (henv : env["key"]? = some key)
    (hdefault : env["default_value"]? = some value) (hlen : t.keys.length < 2 ^ 63) :
    Ends ctx fuel env getOrRoutine.body w p t fun env' =>
      env'["value"]? = some ((t.get? key).getD value) := by
  obtain ⟨heap', hindex, hs', ht⟩ := steps_index fuel hl hb hs hkey henv
  have hb' := hb.assign "index" (by decide) (by decide) (indexValue t.keys key)
  have hself := StdMap.getElem?_assign_self env "index" (indexValue t.keys key)
  have hcondition := evaluate_indexFound ctx fuel hlen hself { w with heap := heap' }
  refine Ends.cons hindex ht (Ends.ifStmt hcondition (Touches.refl _ _) ?_)
  cases hget : t.get? key with
  | some found =>
    obtain ⟨index, hvalue, hrun⟩ := getIndex_run hget hlen
    rw [decide_eq_true (Table.mem_keys_iff.mpr ⟨found, hget⟩), if_pos rfl]
    refine ends_getIndex hl hb' hs' ?_ hrun
    rw [StdMap.getElem?_assign_self, hvalue]
  | none =>
    rw [decide_eq_false (Table.get?_eq_none_iff.mp hget), if_neg Bool.false_ne_true]
    have hother : (env.assign "index" (indexValue t.keys key))["default_value"]? = some value :=
      (StdMap.getElem?_assign_ne _ _ (by decide)).trans hdefault
    exact Ends.cons (Steps.assign (evaluate_var hother _)) (Touches.refl _ _)
      (Ends.nil (StdMap.getElem?_assign_self _ _ _) hs')

/-! ## Changes -/

/-- A present key keeps its position, and the value there is replaced. -/
theorem ends_set_present (hl : Linked ctx w.types path) (hb : Bound env p)
    (hs : Tabled w.heap p t) (hkey : Key key) (henv : env["key"]? = some key)
    (hkeep : Keepable w.heap value) (hvalue : env["value"]? = some value)
    (hlen : t.keys.length < 2 ^ 63) (hmem : key ∈ t.keys) :
    Ends ctx fuel env [declare intType "index" indexOfKey,
      perform (callOn "values_" "SetIndex" [var "index", var "value"])] w p (t.set key value)
      fun _ => True := by
  obtain ⟨heap₁, hindex, hs₁, ht₁⟩ := steps_index fuel hl hb hs hkey henv
  have hb' := hb.assign "index" (by decide) (by decide) (indexValue t.keys key)
  obtain ⟨old, hold⟩ := Table.mem_keys_iff.mp hmem
  obtain ⟨index, hat, hint, hget⟩ := index_of_get? hold hlen
  have hlt := (List.getElem?_eq_some_iff.mp hget).1
  have hself : (env.assign "index" (indexValue t.keys key))["index"]? = some (.int index) := by
    rw [StdMap.getElem?_assign_self, hat]
  have hother : (env.assign "index" (indexValue t.keys key))["value"]? = some value :=
    (StdMap.getElem?_assign_ne _ _ (by decide)).trans hvalue
  have hrun : (Method.setIndex index value).operation.run t.values =
      some (.done, t.values.set (t.keys.idxOf key) value) := by
    unfold Method.operation Base.ListHeap.Operation.run
    dsimp only
    rw [if_pos (by omega), hint]
    rfl
  obtain ⟨heap₂, hset, hs₂, ht₂⟩ := call_values (w := { w with heap := heap₁ }) hl hb' hs₁
    (.setIndex index value)
    (fun v hv => List.mem_singleton.mp hv ▸ hkeep.mono ht₁.structs)
    (evaluateList_vars (.cons hself (.cons hother .nil)) _) hrun
  obtain ⟨hks, hvs⟩ := Table.set_of_mem hmem value
  have htable : Tabled heap₂ p (t.set key value) := by
    unfold Tabled
    rw [hks, hvs]
    exact hs₂
  exact Ends.cons hindex ht₁ (Ends.cons (Steps.expr hset) ht₂ (Ends.nil trivial htable))

/-- An absent key is appended with its value. -/
theorem ends_set_absent (hl : Linked ctx w.types path) (hb : Bound env p)
    (hs : Tabled w.heap p t) (hkey : Key key) (henv : env["key"]? = some key)
    (hkeep : Keepable w.heap value) (hvalue : env["value"]? = some value) (hmem : key ∉ t.keys) :
    Ends ctx fuel env [perform (callOn "keys_" "PushBack" [var "key"]),
      perform (callOn "values_" "PushBack" [var "value"])] w p (t.set key value)
      fun _ => True := by
  obtain ⟨heap₁, hkeys, hs₁, ht₁⟩ := call_keys hl hb hs (.pushBack key)
    (fun v hv => List.mem_singleton.mp hv ▸ hkey) (evaluateList_vars (.cons henv .nil) w) rfl
  obtain ⟨heap₂, hvalues, hs₂, ht₂⟩ := call_values (w := { w with heap := heap₁ }) hl hb hs₁
    (.pushBack value) (fun v hv => List.mem_singleton.mp hv ▸ hkeep.mono ht₁.structs)
    (evaluateList_vars (.cons hvalue .nil) _) rfl
  obtain ⟨hks, hvs⟩ := Table.set_of_notMem hmem value
  have htable : Tabled heap₂ p (t.set key value) := by
    unfold Tabled
    rw [hks, hvs]
    exact hs₂
  exact Ends.cons (Steps.expr hkeys) ht₁
    (Ends.cons (Steps.expr hvalues) ht₂ (Ends.nil trivial htable))

theorem ends_set (hl : Linked ctx w.types path) (hb : Bound env p) (hs : Tabled w.heap p t)
    (hkey : Key key) (henv : env["key"]? = some key) (hkeep : Keepable w.heap value)
    (hvalue : env["value"]? = some value) (hlen : t.keys.length < 2 ^ 63) :
    Ends ctx fuel env setRoutine.body w p (t.set key value) fun _ => True := by
  obtain ⟨heap', hcall, hs', ht⟩ := search_keys hl hb hs .contains hkey henv
  rw [Array.contains_scalar heap' t.keys hkey.1] at hcall
  have hkeep' := hkeep.mono ht.structs
  refine Ends.ifStmt hcall ht ?_
  by_cases hmem : key ∈ t.keys
  · rw [decide_eq_true hmem, if_pos rfl]
    exact ends_set_present hl hb hs' hkey henv hkeep' hvalue hlen hmem
  · rw [decide_eq_false hmem, if_neg Bool.false_ne_true]
    exact ends_set_absent hl hb hs' hkey henv hkeep' hvalue hmem

/-- Both entries at the position of the key go. -/
theorem ends_erase (hl : Linked ctx w.types path) (hb : Bound env p) (hs : Tabled w.heap p t)
    (hlen : t.keys.length < 2 ^ 63) (hget : t.get? key = some value)
    (henv : env["index"]? = some (indexValue t.keys key)) :
    Ends ctx fuel env [perform (callOn "keys_" "Erase" [var "index"]),
      perform (callOn "values_" "Erase" [var "index"])] w p (t.remove key)
      fun env' => env' = env := by
  obtain ⟨index, hat, hint, hlast⟩ := index_of_get? hget hlen
  have hlt := (List.getElem?_eq_some_iff.mp hlast).1
  rw [hat] at henv
  have hrun : ∀ list : List RuntimeValue, list.length = t.values.length →
      (Method.erase index).operation.run list =
        some (.done, list.eraseIdx (t.keys.idxOf key)) := by
    intro list hlist
    unfold Method.operation Base.ListHeap.Operation.run
    dsimp only
    rw [if_pos (by omega), hint]
    rfl
  obtain ⟨heap₁, hkeys, hs₁, ht₁⟩ := call_keys hl hb hs (.erase index)
    (fun _ hv => absurd hv List.not_mem_nil) (evaluateList_vars (.cons henv .nil) w)
    (hrun t.keys t.length_eq)
  obtain ⟨heap₂, hvalues, hs₂, ht₂⟩ := call_values (w := { w with heap := heap₁ }) hl hb hs₁
    (.erase index) (fun _ hv => absurd hv List.not_mem_nil)
    (evaluateList_vars (.cons henv .nil) _) (hrun t.values rfl)
  exact Ends.cons (Steps.expr hkeys) ht₁ (Ends.cons (Steps.expr hvalues) ht₂ (Ends.nil rfl hs₂))

theorem ends_remove (hl : Linked ctx w.types path) (hb : Bound env p) (hs : Tabled w.heap p t)
    (hkey : Key key) (henv : env["key"]? = some key) (hlen : t.keys.length < 2 ^ 63) :
    Ends ctx fuel env removeRoutine.body w p (t.remove key) fun env' =>
      env'["removed"]? = some (.bool (t.get? key).isSome) := by
  obtain ⟨heap', hindex, hs', ht⟩ := steps_index fuel hl hb hs hkey henv
  have hb₁ := hb.assign "index" (by decide) (by decide) (indexValue t.keys key)
  have hself := StdMap.getElem?_assign_self env "index" (indexValue t.keys key)
  have hfound := evaluate_indexFound ctx fuel hlen hself { w with heap := heap' }
  have hb₂ := hb₁.assign "removed" (by decide) (by decide) (.bool (decide (key ∈ t.keys)))
  have hremoved := StdMap.getElem?_assign_self (env.assign "index" (indexValue t.keys key))
    "removed" (.bool (decide (key ∈ t.keys)))
  have hat : ((env.assign "index" (indexValue t.keys key)).assign "removed"
      (.bool (decide (key ∈ t.keys))))["index"]? = some (indexValue t.keys key) :=
    (StdMap.getElem?_assign_ne _ _ (by decide)).trans hself
  refine Ends.cons hindex ht (Ends.cons (Steps.assign hfound) (Touches.refl _ _) ?_)
  refine Ends.ifStmt (evaluate_var hremoved _) (Touches.refl _ _) ?_
  cases hget : t.get? key with
  | some found =>
    have hmem := Table.mem_keys_iff.mpr ⟨found, hget⟩
    rw [if_pos (decide_eq_true hmem)]
    refine (ends_erase (w := { w with heap := heap' }) hl hb₂ hs' hlen hget hat).mono ?_
    rintro _ rfl
    rw [hremoved, decide_eq_true hmem]
    rfl
  | none =>
    have hmem := Table.get?_eq_none_iff.mp hget
    rw [decide_eq_false hmem, if_neg Bool.false_ne_true, Table.remove_of_notMem hmem]
    refine Ends.nil ?_ hs'
    rw [StdMap.getElem?_assign_self]
    rfl

end FalconLib.Libs.Map
