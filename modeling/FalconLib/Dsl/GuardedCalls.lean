import FalconLib.Dsl.GuardedRuns

/-!
# Guarded calls

Routines of structs, routines of modules and autotuners under the guard, and with them the guarded
interpreter as a whole.
-/

namespace FalconLib.Dsl.GuardedRuns

open FalconLib.Base
open VariableFrame (blockStmts)

variable {S : Type} {id : Nat} {frame : List String} {before : String → Option RuntimeValue} {ctx : Context S}

theorem not_assigns {body : List Stmt} (h : bodyAssigns frame body = false) :
    ∀ s ∈ blockStmts body, assignsField frame s = false := fun s hs =>
  Bool.eq_false_iff.mpr (List.any_eq_false.mp h s hs)

/-! ## Routines of structs -/

section StructRoutines

open StructRoutine

theorem fieldOf_tracks (receiver : Nat) (name : String) :
    Tracks id frame before (fieldOf receiver name : M S _) (fieldOf receiver name) :=
  Follows.gets _

/-- Where the receiver has the field, its value ends up in the map. -/
theorem syncFromReceiver_tracks (receiver : Nat) (fields : List VarDeclStmt) (env : ParameterMap) :
    Tracks id frame before (syncFromReceiver receiver fields env : M S _)
      (syncFromReceiver receiver fields env) fun env' => receiver = id →
        ∀ name ∈ frame, ∀ v, before name = some v →
          env[name]? = some v ∨ name ∈ fields.map VarDeclStmt.name → env'[name]? = some v := by
  induction fields generalizing env with
  | nil => exact Follows.pure fun _ _ _ _ _ h => h.resolve_right List.not_mem_nil
  | cons decl fields ih =>
    intro w env' w' hw ho
    unfold syncFromReceiver fieldOf at ho ⊢
    rw [Comp.outcome_gets_bind] at ho ⊢
    cases hfound : w.heap.field? receiver decl.name with
    | some value =>
      rw [hfound] at ho
      obtain ⟨hplain, hkept, hvalue⟩ := ih _ w env' w' hw ho
      refine ⟨hplain, hkept, fun hid name hframe v hv h => hvalue hid name hframe v hv ?_⟩
      by_cases hname : decl.name = name
      · left
        have hv' := hw.value name hframe v hv
        rw [← hid, ← hname, hfound] at hv'
        rw [hname, StdMap.getElem?_assign_self, hv']
      · rw [StdMap.getElem?_assign_ne _ _ hname]
        refine h.imp_right fun hmem => ?_
        exact (List.mem_cons.mp hmem).resolve_left (Ne.symm hname)
    | none =>
      rw [hfound] at ho
      obtain ⟨hplain, hkept, hvalue⟩ := ih _ w env' w' hw ho
      refine ⟨hplain, hkept, fun hid name hframe v hv h =>
        hvalue hid name hframe v hv (h.imp_right fun hmem => ?_)⟩
      refine (List.mem_cons.mp hmem).resolve_left fun hname => ?_
      have hv' := hw.value name hframe v hv
      rw [← hid, hname, hfound] at hv'
      cases hv'

/-- Nothing but the value it has is written to the field. -/
theorem writeBack_tracks (receiver : Nat) {env : ParameterMap} (fields : List VarDeclStmt)
    (henv : receiver = id → ∀ name ∈ frame, name ∈ fields.map VarDeclStmt.name →
      ∀ v, before name = some v → env[name]? = some v) :
    Tracks id frame before (writeBack receiver env fields : M S Unit)
      (writeBack receiver env fields) := by
  induction fields with
  | nil => exact Follows.pure trivial
  | cons decl fields ih =>
    have hrest := ih fun hid name hframe hmem => henv hid name hframe (List.mem_cons_of_mem _ hmem)
    unfold writeBack
    split
    · rename_i value hvalue
      refine Follows.bind (setField_tracks fun hid hname v hv => ?_) fun _ _ => hrest
      have hv' := henv hid decl.name hname List.mem_cons_self v hv
      rw [hvalue] at hv'
      exact (Option.some.inj hv').symm
    · exact hrest

theorem collectOutputs_follows {P : Heap → Prop} (routineName : String) (env : ParameterMap)
    (outs : List ParamDecl) :
    Follows P (collectOutputs routineName env outs : M S _)
      (collectOutputs routineName env outs) := by
  induction outs with
  | nil => exact Follows.pure trivial
  | cons out outs ih =>
    unfold collectOutputs
    split
    · exact Follows.bind ih fun _ _ => Follows.pure trivial
    · exact Follows.throw _ _

theorem finish_tracks (receiver : Nat) (decl : StructDecl) (routine : RoutineDecl)
    (env : ParameterMap) :
    Tracks id frame before (finish receiver decl routine env : M S _)
      (finish receiver decl routine env) :=
  Follows.bind (syncFromReceiver_tracks receiver decl.fields env) fun env' henv =>
    Follows.bind (writeBack_tracks receiver decl.fields fun hid name hframe hmem v hv =>
      henv hid name hframe v hv (Or.inr hmem)) fun _ _ => collectOutputs_follows _ env' _

theorem execForeign_tracks (receiver : Nat) (decl : StructDecl) (routine : RoutineDecl)
    (callArgs : List RuntimeValue) :
    Tracks id frame before (execForeign (guardedContext ctx id frame) receiver decl routine callArgs)
      (execForeign ctx receiver decl routine callArgs) := by
  refine Follows.bind (ffiMethodOrBase_follows _ _) fun found _ => ?_
  split
  · exact Follows.bind (structAt_tracks _) fun object _ => runHost_tracks _
  · exact evaluationError_tracks _ _

variable {g h : Handlers S} (hg : HandlersTrack id frame before g h)
include hg

theorem declaredValue_tracks (env : ParameterMap) (decl : VarDeclStmt) :
    Tracks id frame before (declaredValue (guardedContext ctx id frame) g env decl)
      (declaredValue ctx h env decl) := by
  unfold declaredValue
  split
  · exact evaluate_tracks hg _ _
  · exact Follows.pure trivial

theorem flattenFields_tracks (receiver : Nat) (fields : List VarDeclStmt) (env : ParameterMap) :
    Tracks id frame before (flattenFields (guardedContext ctx id frame) g receiver fields env)
      (flattenFields ctx h receiver fields env) := by
  induction fields generalizing env with
  | nil => exact Follows.pure trivial
  | cons decl fields ih =>
    refine Follows.bind (q := fun _ => True) ?_ fun value _ => ih _
    refine Follows.bind (fieldOf_tracks receiver decl.name) fun found _ => ?_
    split
    · exact Follows.pure trivial
    · exact declaredValue_tracks hg env decl

theorem bindInputs_tracks (routineName : String) (params : List ParamDecl)
    (values : List RuntimeValue) (env : ParameterMap) :
    Tracks id frame before
      (bindInputs (guardedContext ctx id frame) g routineName params values env)
      (bindInputs ctx h routineName params values env) := by
  induction params generalizing values env with
  | nil => exact Follows.pure trivial
  | cons param params ih =>
    cases values with
    | cons value values => exact ih values _
    | nil =>
      unfold bindInputs
      split
      · exact Follows.bind (evaluate_tracks hg _ _) fun _ _ => ih [] _
      · exact evaluationError_tracks _ _

theorem initialiseFields_tracks (env : ParameterMap) {fresh : Nat} (hne : fresh ≠ id)
    (fields : List VarDeclStmt) :
    Tracks id frame before (initialiseFields (guardedContext ctx id frame) g env fresh fields)
      (initialiseFields ctx h env fresh fields) := by
  induction fields with
  | nil => exact Follows.pure trivial
  | cons decl fields ih =>
    exact Follows.bind (declaredValue_tracks hg env decl) fun value _ =>
      Follows.bind (setField_tracks fun hid => absurd hid hne) fun _ _ => ih

theorem freshOutput_tracks (env : ParameterMap) (structName : String) :
    Tracks id frame before (freshOutput (guardedContext ctx id frame) g env structName)
      (freshOutput ctx h env structName) := by
  refine Follows.bind (makeStruct_tracks _) fun fresh hne => ?_
  refine Follows.bind (lookupStruct_follows _) fun found _ => ?_
  split
  · exact Follows.bind (initialiseFields_tracks hg env hne _) fun _ _ => Follows.pure trivial
  · exact Follows.pure trivial

theorem initialiseOutputs_tracks (outs : List ParamDecl) (env : ParameterMap) :
    Tracks id frame before (initialiseOutputs (guardedContext ctx id frame) g outs env)
      (initialiseOutputs ctx h outs env) := by
  induction outs generalizing env with
  | nil => exact Follows.pure trivial
  | cons out outs ih =>
    unfold initialiseOutputs
    split
    · exact Follows.bind (freshOutput_tracks hg env _) fun _ _ => ih _
    · split
      · exact Follows.bind (evaluate_tracks hg _ _) fun _ _ => ih _
      · exact ih env

theorem routineEnvironment_tracks (receiver : Nat) (decl : StructDecl) (routine : RoutineDecl)
    (callArgs : List RuntimeValue) :
    Tracks id frame before
      (routineEnvironment (guardedContext ctx id frame) g receiver decl routine callArgs)
      (routineEnvironment ctx h receiver decl routine callArgs) :=
  Follows.bind (flattenFields_tracks hg receiver _ _) fun _ _ =>
    Follows.bind (bindInputs_tracks hg _ _ _ _) fun env _ => initialiseOutputs_tracks hg _ env

theorem execStructRoutine_tracks (receiver : Nat) (decl : StructDecl) {routine : RoutineDecl}
    (hbody : bodyAssigns frame routine.body = false) (callArgs : List RuntimeValue) :
    Tracks id frame before
      (execStructRoutine (guardedContext ctx id frame) g receiver decl routine callArgs)
      (execStructRoutine ctx h receiver decl routine callArgs) := by
  unfold execStructRoutine
  split
  · exact execForeign_tracks receiver decl routine callArgs
  · exact Follows.bind (routineEnvironment_tracks hg receiver decl routine callArgs) fun env _ =>
      Follows.bind (executeBlock_tracks hg (.own env) _ (not_assigns hbody)) fun result _ =>
        finish_tracks receiver decl routine _

end StructRoutines

/-! ## Autotuners -/

section Autotuners

open Interpreter

theorem getVariables_tracks :
    Tracks id frame before (getVariables : M S ParameterMap) getVariables := Follows.gets _

theorem setVariables_tracks (map : ParameterMap) :
    Tracks id frame before (setVariables map : M S Unit) (setVariables map) :=
  Follows.modify fun _ h => h

theorem setVariable_tracks (name : String) (value : RuntimeValue) :
    Tracks id frame before (setVariable name value : M S Unit) (setVariable name value) :=
  Follows.bind getVariables_tracks fun _ _ => setVariables_tracks _

theorem checkArity_tracks (state : StateDecl) (inputParams : List RuntimeValue) :
    Tracks id frame before (checkArity state inputParams : M S Unit)
      (checkArity state inputParams) := by
  unfold checkArity
  split
  · exact evaluationError_tracks _ _
  · split
    · exact evaluationError_tracks _ _
    · exact Follows.pure trivial

theorem extractOutputs_tracks (outs : List ParamDecl) :
    Tracks id frame before (extractOutputs outs : M S _) (extractOutputs outs) := by
  induction outs with
  | nil => exact Follows.pure trivial
  | cons out outs ih =>
    refine Follows.bind getVariables_tracks fun map _ => ?_
    split
    · exact Follows.bind ih fun _ _ => Follows.pure trivial
    · exact evaluationError_tracks _ _

variable {g h : Handlers S} (hg : HandlersTrack id frame before g h)
include hg

theorem initializeVariables_tracks {stmts : List Stmt} (hs : bodyAssigns frame stmts = false) :
    Tracks id frame before (initializeVariables (guardedContext ctx id frame) g stmts)
      (initializeVariables ctx h stmts) := by
  have hall := not_assigns hs
  clear hs
  induction stmts with
  | nil => exact Follows.pure trivial
  | cons stmt stmts ih =>
    exact Follows.bind (execute_tracks hg .member stmt fun s hm =>
        hall s (List.mem_append_left _ hm)) fun _ _ =>
      ih fun s hm => hall s (List.mem_append_right _ hm)

theorem setInputParameters_tracks (inputs : ParameterMap) (params : List ParamDecl) :
    Tracks id frame before (setInputParameters (guardedContext ctx id frame) g inputs params)
      (setInputParameters ctx h inputs params) := by
  induction params with
  | nil => exact Follows.pure trivial
  | cons param params ih =>
    refine Follows.bind (q := fun _ => True) ?_ fun value _ =>
      Follows.bind (setVariable_tracks _ value) fun _ _ => ih
    unfold inputValue
    split
    · exact Follows.pure trivial
    · split
      · exact evaluate_tracks hg _ _
      · exact evaluationError_tracks _ _

theorem initialiseOutput_tracks (out : ParamDecl) :
    Tracks id frame before (initialiseOutput (guardedContext ctx id frame) g out)
      (initialiseOutput ctx h out) := by
  refine Follows.bind getVariables_tracks fun map _ => ?_
  split
  · exact Follows.pure trivial
  · refine Follows.bind (q := fun _ => True) ?_ fun value _ => setVariable_tracks _ value
    unfold initialOutput
    split
    · exact evaluate_tracks hg _ _
    · exact Follows.pure trivial

theorem autotunerOutputs_tracks (outs : List ParamDecl) :
    Tracks id frame before (initialiseOutputs (guardedContext ctx id frame) g outs)
      (initialiseOutputs ctx h outs) := by
  induction outs with
  | nil => exact Follows.pure trivial
  | cons out outs ih => exact Follows.bind (initialiseOutput_tracks hg out) fun _ _ => ih

theorem prepare_tracks {autotuner : AutotunerDecl}
    (hs : bodyAssigns frame autotuner.autotunerVariables = false) (inputs : ParameterMap) :
    Tracks id frame before (prepare (guardedContext ctx id frame) g autotuner inputs)
      (prepare ctx h autotuner inputs) :=
  Follows.bind (initializeVariables_tracks hg hs) fun _ _ =>
    Follows.bind (setInputParameters_tracks hg inputs _) fun _ _ =>
      Follows.bind (autotunerOutputs_tracks hg _) fun _ _ => evaluateList_tracks hg _ _

theorem stateParameter_tracks (stateName : String) (position : Nat) (param : ParamDecl)
    (argument : Option RuntimeValue) :
    Tracks id frame before
      (stateParameter (guardedContext ctx id frame) g stateName position param argument)
      (stateParameter ctx h stateName position param argument) := by
  unfold stateParameter
  split
  · exact Follows.pure trivial
  · split
    · exact evaluate_tracks hg _ _
    · exact evaluationError_tracks _ _

theorem bindStateParameters_tracks (stateName : String) (params : List ParamDecl)
    (arguments : List RuntimeValue) (position : Nat) :
    Tracks id frame before
      (bindStateParameters (guardedContext ctx id frame) g stateName params arguments position)
      (bindStateParameters ctx h stateName params arguments position) := by
  induction params generalizing arguments position with
  | nil => exact Follows.pure trivial
  | cons param params ih =>
    exact Follows.bind (stateParameter_tracks hg stateName position param _) fun value _ =>
      Follows.bind (setVariable_tracks _ value) fun _ _ => ih _ _

theorem executeState_tracks {state : StateDecl} (hs : bodyAssigns frame state.body = false)
    (inputParams : List RuntimeValue) :
    Tracks id frame before (executeState (guardedContext ctx id frame) g state inputParams)
      (executeState ctx h state inputParams) :=
  Follows.bind getVariables_tracks fun _ _ =>
    Follows.bind (checkArity_tracks state inputParams) fun _ _ =>
      Follows.bind (bindStateParameters_tracks hg _ _ _ _) fun _ _ =>
        Follows.bind (executeBlock_tracks hg .member _ (not_assigns hs)) fun _ _ =>
          Follows.bind getVariables_tracks fun _ _ =>
            Follows.bind (setVariables_tracks _) fun _ _ => Follows.pure trivial

theorem stateLoop_tracks {autotuner : AutotunerDecl}
    (hs : ∀ state ∈ autotuner.states, bodyAssigns frame state.body = false) (fuel : Nat)
    (currentState : String) (stateParams : List RuntimeValue) :
    Tracks id frame before
      (stateLoop (guardedContext ctx id frame) g autotuner fuel currentState stateParams)
      (stateLoop ctx h autotuner fuel currentState stateParams) := by
  induction fuel generalizing currentState stateParams with
  | zero => exact Follows.halt _ _
  | succ fuel ih =>
    unfold stateLoop
    split
    · exact evaluationError_tracks _ _
    · rename_i state hstate
      refine Follows.bind (executeState_tracks hg (hs state (List.mem_of_find?_eq_some hstate)) _)
        fun flow _ => ?_
      split
      · exact Follows.pure trivial
      · exact ih _ _
      · exact evaluationError_tracks _ _

theorem run_tracks (fuel : Nat) {autotuner : AutotunerDecl}
    (hs : autotunerAssigns frame autotuner = false) (inputs : ParameterMap) :
    Tracks id frame before (run (guardedContext ctx id frame) g fuel autotuner inputs)
      (run ctx h fuel autotuner inputs) := by
  obtain ⟨hvariables, hstates⟩ := Bool.or_eq_false_iff.mp hs
  have hall : ∀ state ∈ autotuner.states, bodyAssigns frame state.body = false := fun state hm =>
    Bool.eq_false_iff.mpr (List.any_eq_false.mp hstates state hm)
  refine Follows.bind getVariables_tracks fun saved _ => ?_
  refine Follows.bind (setVariables_tracks _) fun _ _ => ?_
  refine Follows.tryCatch ?_ fun _ _ _ _ ho => nomatch ho
  refine Follows.bind (q := fun _ => True) ?_ fun result _ =>
    Follows.bind (setVariables_tracks _) fun _ _ => Follows.pure trivial
  exact Follows.bind (prepare_tracks hg hvariables inputs) fun _ _ =>
    Follows.bind (stateLoop_tracks hg hall fuel _ _) fun _ _ => extractOutputs_tracks _

/-! ## Registered functions -/

omit hg in
theorem collectRoutineOutputs_tracks (qname : String) (env : ParameterMap)
    (outs : List ParamDecl) :
    Tracks id frame before (collectRoutineOutputs qname env outs : M S _)
      (collectRoutineOutputs qname env outs) := by
  induction outs with
  | nil => exact Follows.pure trivial
  | cons out outs ih =>
    unfold collectRoutineOutputs
    split
    · exact Follows.bind ih fun _ _ => Follows.pure trivial
    · exact Follows.throw _ _

theorem runInlineRoutine_tracks (qname : String) {decl : RoutineDecl}
    (hs : bodyAssigns frame decl.body = false) (inputs : ParameterMap) :
    Tracks id frame before (runInlineRoutine (guardedContext ctx id frame) g qname decl inputs)
      (runInlineRoutine ctx h qname decl inputs) :=
  Follows.bind (executeBlock_tracks hg _ _ (not_assigns hs)) fun _ _ =>
    collectRoutineOutputs_tracks qname _ _

omit hg in
theorem errorBuiltin_tracks (isFatal : Bool) (params : ParameterMap) :
    Tracks id frame before (errorBuiltin isFatal params : M S _) (errorBuiltin isFatal params) := by
  unfold errorBuiltin
  split
  · exact Follows.throw _ _
  · exact Follows.pure trivial
  · exact Follows.throw _ _

theorem callFunction_tracks (fuel : Nat) {function : ExternalFunction}
    (hs : functionAssigns ctx frame function = false) (params : ParameterMap) :
    Tracks id frame before (callFunction (guardedContext ctx id frame) g fuel function params)
      (callFunction ctx h fuel function params) := by
  cases function with
  | errorMsg => exact errorBuiltin_tracks false params
  | fatalErrorMsg => exact errorBuiltin_tracks true params
  | autotuner qname =>
    refine Follows.bind (Follows.ask _) fun _ _ => ?_
    change ctx.loadedAutotuners[qname]?.any (autotunerAssigns frame) = false at hs
    unfold guardedContext
    cases hfound : ctx.loadedAutotuners[qname]? with
    | none => exact Follows.throw _ _
    | some autotuner =>
      rw [hfound] at hs
      exact run_tracks hg fuel hs params
  | inlineRoutine qname =>
    refine Follows.bind (Follows.ask _) fun _ _ => ?_
    change ctx.routineDeclarations[qname]?.any (fun decl => bodyAssigns frame decl.body) = false at hs
    unfold guardedContext
    cases hfound : ctx.routineDeclarations[qname]? with
    | none => exact Follows.throw _ _
    | some decl =>
      rw [hfound] at hs
      exact runInlineRoutine_tracks hg qname hs params
  | foreign symbol => exact runHost_tracks _

end Autotuners

/-! ## The guarded interpreter -/

/-- At every depth of calls: where the guarded interpreter returns, the interpreter returns the
same, and a field that had a value has it still. -/
theorem guarded_track (ctx : Context S) (id : Nat) (frame : List String)
    (before : String → Option RuntimeValue) (fuel : Nat) :
    HandlersTrack id frame before (guarded ctx id frame fuel) (Interpreter.handlers ctx fuel) := by
  induction fuel with
  | zero => exact ⟨fun _ _ => Follows.halt _ _, fun _ _ _ _ => Follows.halt _ _,
      fun _ _ => Follows.halt _ _⟩
  | succ fuel ih =>
    refine ⟨fun vars e => evaluate_tracks ih vars e, fun receiver decl routine callArgs => ?_,
      fun function params => ?_⟩
    · change Tracks id frame before (if bodyAssigns frame routine.body then _ else _) _
      split
      · exact Follows.halt _ _
      · rename_i hbody
        exact execStructRoutine_tracks ih receiver decl (Bool.eq_false_iff.mpr hbody) callArgs
    · change Tracks id frame before (if functionAssigns ctx frame function then _ else _) _
      split
      · exact Follows.halt _ _
      · rename_i hfunction
        exact callFunction_tracks ih fuel (Bool.eq_false_iff.mpr hfunction) params

end FalconLib.Dsl.GuardedRuns
