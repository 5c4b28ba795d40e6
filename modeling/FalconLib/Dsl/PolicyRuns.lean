import FalconLib.Dsl.Isolation
import FalconLib.Dsl.PolicyCalls

/-!
# Runs keep every policy

Statements, routines, states and whole runs, whatever the bound on their depth.
-/

namespace FalconLib.Dsl

open FalconLib.Base
open ExprEvaluator (evaluate evaluateList)
open StmtExecutor
open Isolation (Start)

variable {S : Type}

def startInputs : Start → ParameterMap
  | .autotuner _ inputs | .routine _ inputs => inputs

/-- Runs that the host starts one after the other, whether they return or throw, each with inputs
that are good in the world it starts in. -/
inductive Session (ctx : Context S) (Good : ParameterMap → World S → Prop) (w : World S) :
    World S → Prop
  | start : Session ctx Good w w
  | run {u w' : World S} (before : Session ctx Good w u) (start : Start) (fuel : Nat)
      (inputs : Good (startInputs start) u)
      (left : (start.run ctx fuel u).outcome.state? = some w') : Session ctx Good w w'

theorem Session.weaken {ctx : Context S} {Good Good' : ParameterMap → World S → Prop}
    {w w' : World S} (h : Session ctx Good w w') (hgood : ∀ inputs u, Good inputs u → Good' inputs u) :
    Session ctx Good' w w' := by
  induction h with
  | start => exact .start
  | run _ start fuel inputs left ih => exact .run ih start fuel (hgood _ _ inputs) left

namespace Policy

/-! ## Statements -/

section Statements

variable {host : Host S} {P : Policy host} {w : World S} {vars : Variables}

theorem holds_write {map : ParameterMap} (h : P.AllowedMap map w) (vars : Variables) :
    P.Holds (vars.write map) w P.AllowedVars := by
  cases vars with
  | member =>
    refine Growth.Keeps.bind (p := anything) (Growth.Keeps.modify fun hw => ?_) fun _ _ _ _ =>
      Growth.Keeps.pure trivial
    exact ⟨P.variablesSet hw h, trivial⟩
  | own map => exact Growth.Keeps.pure h

theorem holds_assignVariable (hv : P.AllowedVars vars w) (name : String) {value : RuntimeValue}
    (hvalue : P.Allowed value w) : P.Holds (assignVariable vars name value) w P.AllowedVars :=
  (holds_read hv).bind fun _ _ ht hmap =>
    holds_write (hmap.assign name (P.allowed_mono ht hvalue)) vars

theorem holds_defaultInitial (stmt : VarDeclStmt) :
    P.Holds (defaultInitial stmt) w P.Allowed := by
  have hstruct : ∀ typeName, P.Holds (makeStruct typeName >>= fun id => pure (.struct id)) w
      P.Allowed :=
    fun _ => (holds_makeStruct _).bind fun _ _ _ hid => Growth.Keeps.pure hid
  unfold defaultInitial
  split
  · exact Growth.Keeps.pure (allowed_primitiveDefault _)
  · exact Growth.Keeps.pure (allowed_primitiveDefault _)
  · exact Growth.Keeps.pure (allowed_primitiveDefault _)
  · exact Growth.Keeps.pure (allowed_primitiveDefault _)
  · exact Growth.Keeps.pure (allowed_primitiveDefault _)
  · exact hstruct _
  · exact hstruct _
  · exact holds_error _

theorem holds_structVariable (hv : P.AllowedVars vars w) (name undefinedMessage : String)
    (notStruct : Exception) :
    P.Holds (structVariable vars name undefinedMessage notStruct) w
      fun id w' => P.Allowed (.struct id) w' := by
  refine (holds_read hv).bind fun map t _ hmap => ?_
  split
  · exact holds_error _
  · rename_i id hname
    refine (holds_structAt id).bind fun found u hu _ => ?_
    split
    · exact Growth.Keeps.pure (P.allowed_mono hu (hmap name _ hname))
    · exact holds_error _
  · exact Growth.Keeps.throw _

theorem holds_tupleValue {id : Nat} (hid : P.Allowed (.tuple id) w) (i : Nat) :
    P.Holds (tupleValue id i) w P.Allowed := by
  refine holds_getHeap_bind fun hw => ?_
  split
  · rename_i value hvalue
    obtain ⟨values, hvalues, hi⟩ := Option.bind_eq_some_iff.mp hvalue
    exact Growth.Keeps.pure (P.component hw hid hvalues (List.mem_of_getElem? hi))
  · exact Growth.Keeps.halt _

theorem holds_assignField (hv : P.AllowedVars vars w) (name field undefinedMessage : String)
    (notStruct : Exception) {value : RuntimeValue} (hvalue : P.Allowed value w) :
    P.Holds (structVariable vars name undefinedMessage notStruct >>= fun id =>
      setField id field value) w anything :=
  (holds_structVariable hv name undefinedMessage notStruct).bind fun _ _ ht hid =>
    holds_setField hid (P.allowed_mono ht hvalue)

theorem holds_assignSingle (hv : P.AllowedVars vars w) (target : AssignTarget)
    {value : RuntimeValue} (hvalue : P.Allowed value w) :
    P.Holds (assignSingle vars target value) w P.AllowedVars := by
  unfold assignSingle
  split
  · split
    · refine (holds_structVariable hv _ _ _).bind fun id t ht hid => ?_
      refine (holds_setField hid (P.allowed_mono ht hvalue)).bind fun _ u hu _ => ?_
      exact Growth.Keeps.pure (hv.mono (P.trans ht hu))
    · exact holds_error _
  · exact holds_assignVariable hv _ hvalue

theorem holds_syncFlatCopy (hv : P.AllowedVars vars w) (field : String) {value : RuntimeValue}
    (hvalue : P.Allowed value w) : P.Holds (syncFlatCopy vars field value) w P.AllowedVars := by
  refine (holds_read hv).bind fun map t ht hmap => ?_
  split
  · exact holds_write (hmap.assign field (P.allowed_mono ht hvalue)) vars
  · exact Growth.Keeps.pure (hv.mono ht)

/-- The values that a transition takes along are allowed. -/
def AllowedFlow (P : Policy host) : ControlFlow → World S → Prop
  | .transition _ parameters, w => P.AllowedAll parameters w
  | _, _ => True

def AllowedStep (P : Policy host) (step : ControlFlow × Variables) (w : World S) : Prop :=
  P.AllowedFlow step.1 w ∧ P.AllowedVars step.2 w

theorem AllowedFlow.mono {flow : ControlFlow} {w' : World S} (h : P.AllowedFlow flow w)
    (hw : P.Grows w w') : P.AllowedFlow flow w' := by
  cases flow with
  | transition targetState parameters =>
    have hall : P.AllowedAll parameters w := h
    exact hall.mono hw
  | none => trivial
  | terminal => trivial

theorem holds_goOn {m : M S Variables} (h : P.Holds m w P.AllowedVars) :
    P.Holds (goOn m) w P.AllowedStep :=
  h.bind fun _ _ _ hv => Growth.Keeps.pure ⟨trivial, hv⟩

end Statements

section Execution

variable {ctx : Context S} {P : Policy ctx.host} {h : Handlers S} {vars : Variables} {w : World S}

theorem holds_withContext {α : Type} {m : M S α} {p : α → World S → Prop} (location : Location)
    (hm : P.Holds m w p) : P.Holds (executeWithContext ctx location m) w p :=
  hm.tryCatch fun _ _ _ => Growth.Keeps.throw _

theorem holds_initialValue (hh : P.HandlersKeep h) (hv : P.AllowedVars vars w)
    (stmt : VarDeclStmt) : P.Holds (initialValue ctx h vars stmt) w P.Allowed := by
  unfold initialValue
  split
  · exact holds_evaluate hh _ hv
  · exact holds_defaultInitial stmt

theorem holds_execVarDecl (hh : P.HandlersKeep h) (hv : P.AllowedVars vars w)
    (stmt : VarDeclStmt) : P.Holds (execVarDecl ctx h vars stmt) w P.AllowedVars :=
  (holds_initialValue hh hv stmt).bind fun _ _ ht hvalue =>
    holds_assignVariable (hv.mono ht) _ hvalue

theorem holds_assignFieldTarget (hh : P.HandlersKeep h) (hv : P.AllowedVars vars w)
    (object : Expr) (fieldName : String) {value : M S RuntimeValue}
    (hvalue : P.HoldsLater value w P.Allowed) :
    P.Holds (assignFieldTarget ctx h vars object fieldName value) w anything := by
  refine (holds_evaluate hh object hv).bind fun found t ht _ => ?_
  split
  · split
    · refine (holds_structVariable (hv.mono ht) _ _ _).bind fun id u hu hid => ?_
      refine (hvalue u (P.trans ht hu)).bind fun v x hx hv' => ?_
      exact holds_setField (P.allowed_mono hx hid) hv'
    · exact holds_error _
  · exact holds_error _

theorem holds_assignTupleTarget (hh : P.HandlersKeep h) {id : Nat}
    (hid : P.Allowed (.tuple id) w) (i : Nat) (target : AssignTarget)
    (hv : P.AllowedVars vars w) :
    P.Holds (assignTupleTarget ctx h id i target vars) w P.AllowedVars := by
  unfold assignTupleTarget
  split
  · split
    · have hlater : P.HoldsLater (tupleValue id i) w P.Allowed :=
        fun _ ht => holds_tupleValue (P.allowed_mono ht hid) i
      refine (holds_assignFieldTarget hh hv _ _ hlater).bind fun _ t ht _ => ?_
      exact Growth.Keeps.pure (hv.mono ht)
    · exact Growth.Keeps.halt _
  · exact (holds_tupleValue hid i).bind fun _ _ ht hvalue =>
      holds_assignVariable (hv.mono ht) _ hvalue

theorem holds_assignTupleTargets (hh : P.HandlersKeep h) {id : Nat}
    (targets : List AssignTarget) : ∀ {i : Nat} {vars : Variables} {w : World S},
      P.Allowed (.tuple id) w → P.AllowedVars vars w →
        P.Holds (assignTupleTargets ctx h id targets i vars) w P.AllowedVars := by
  induction targets with
  | nil => exact fun _ hv => Growth.Keeps.pure hv
  | cons target targets ih =>
    intro i vars w hid hv
    refine (holds_assignTupleTarget hh hid i target hv).bind fun vars t ht hv' => ?_
    exact ih (P.allowed_mono ht hid) hv'

theorem holds_assignTuple (hh : P.HandlersKeep h) (hv : P.AllowedVars vars w)
    (targets : List AssignTarget) {value : RuntimeValue} (hvalue : P.Allowed value w) :
    P.Holds (assignTuple ctx h vars targets value) w P.AllowedVars := by
  refine holds_getHeap_bind fun _ => ?_
  split
  · split
    · exact holds_error _
    · split
      · exact holds_assignTupleTargets hh targets hvalue hv
      · exact holds_error _
  · exact holds_error _

theorem holds_execAssign (hh : P.HandlersKeep h) (hv : P.AllowedVars vars w)
    (targets : List AssignTarget) (value : Expr) :
    P.Holds (execAssign ctx h vars targets value) w P.AllowedVars := by
  refine (holds_evaluate hh value hv).bind fun v t ht hvalue => ?_
  split
  · exact Growth.Keeps.halt _
  · exact holds_assignSingle (hv.mono ht) _ hvalue
  · exact holds_assignTuple hh (hv.mono ht) _ hvalue

theorem holds_execStructFieldAssign (hh : P.HandlersKeep h) (hv : P.AllowedVars vars w)
    (object : Expr) (field : String) (value : Expr) :
    P.Holds (execStructFieldAssign ctx h vars object field value) w P.AllowedVars := by
  refine (holds_evaluate hh value hv).bind fun v t ht hvalue => ?_
  split
  · refine (holds_structVariable (hv.mono ht) _ _ _).bind fun id u hu hid => ?_
    have hvalue' := P.allowed_mono hu hvalue
    refine (holds_setField hid hvalue').bind fun _ x hx _ => ?_
    exact holds_syncFlatCopy (hv.mono (P.trans ht (P.trans hu hx))) _ (P.allowed_mono hx hvalue')
  · exact holds_error _

theorem holds_step {m : M S Variables} (hm : P.Holds m w P.AllowedVars) (location : Location) :
    P.Holds (executeWithContext ctx location (goOn m)) w P.AllowedStep :=
  holds_withContext location (holds_goOn hm)

mutual

theorem holds_execute (hh : P.HandlersKeep h) : ∀ (stmt : Stmt) {vars : Variables} {w : World S},
    P.AllowedVars vars w → P.Holds (execute ctx h vars stmt) w P.AllowedStep
  | .varDecl stmt, _, _, hv => holds_step (holds_execVarDecl hh hv stmt) _
  | .assign _ targets value, _, _, hv => holds_step (holds_execAssign hh hv targets value) _
  | .structFieldAssign _ object field value, _, _, hv =>
    holds_step (holds_execStructFieldAssign hh hv object field value) _
  | .expr _ expression, _, _, hv =>
    holds_withContext _ <| (holds_evaluate hh expression hv).bind fun _ _ ht _ =>
      Growth.Keeps.pure ⟨trivial, hv.mono ht⟩
  | .ifStmt _ condition thenBody elseBody, _, _, hv => by
    refine holds_withContext _ ((holds_evaluate hh condition hv).bind fun value t ht _ => ?_)
    split
    · exact holds_executeBlock hh thenBody (hv.mono ht)
    · exact holds_executeBlock hh elseBody (hv.mono ht)
    · exact holds_error _
  | .transition _ targetState parameters, _, _, hv =>
    holds_withContext _ <| (holds_evaluateList hh parameters hv).bind fun _ _ ht hvalues =>
      Growth.Keeps.pure ⟨hvalues, hv.mono ht⟩
  | .terminal _, _, _, hv => holds_withContext _ (Growth.Keeps.pure ⟨trivial, hv⟩)

theorem holds_executeBlock (hh : P.HandlersKeep h) : ∀ (stmts : List Stmt) {vars : Variables}
    {w : World S}, P.AllowedVars vars w → P.Holds (executeBlock ctx h vars stmts) w P.AllowedStep
  | [], _, _, hv => Growth.Keeps.pure ⟨trivial, hv⟩
  | stmt :: stmts, _, _, hv => by
    refine (holds_execute hh stmt hv).bind fun step t _ hstep => ?_
    obtain ⟨flow, vars⟩ := step
    cases flow with
    | none => exact holds_executeBlock hh stmts hstep.2
    | transition targetState parameters => exact Growth.Keeps.pure hstep
    | terminal => exact Growth.Keeps.pure hstep

end

end Execution

/-! ## Struct routines -/

section Routines

open StructRoutine

variable {ctx : Context S} {P : Policy ctx.host} {h : Handlers S} {w : World S}

theorem holds_fieldOf {id : Nat} (hid : P.Allowed (.struct id) w) (name : String) :
    P.Holds (fieldOf id name) w fun found w' => ∀ value, found = some value → P.Allowed value w' :=
  Growth.Keeps.gets fun hw _ hvalue => P.field hw hid hvalue

theorem allowedMap_foreignParams (native : Bool) {receiver : Nat} (routine : RoutineDecl)
    {callArgs : List RuntimeValue} (hid : P.Allowed (.struct receiver) w)
    (hargs : P.AllowedAll callArgs w) :
    P.AllowedMap (foreignParams native receiver routine callArgs) w := by
  have hself : P.AllowedMap
      (if native then StdMap.assign ∅ "this" (RuntimeValue.struct receiver) else ∅) w := by
    split
    · exact allowedMap_empty.assign "this" hid
    · exact allowedMap_empty
  refine hself.assignAll fun write hwrite => ?_
  exact hargs write.2 (List.of_mem_zip hwrite).2

theorem holds_execForeign {receiver : Nat} (decl : StructDecl) (routine : RoutineDecl)
    {callArgs : List RuntimeValue} (hid : P.Allowed (.struct receiver) w)
    (hargs : P.AllowedAll callArgs w) :
    P.Holds (execForeign ctx receiver decl routine callArgs) w P.AllowedAll := by
  refine (holds_ffiMethodOrBase _ _).bind fun found t ht _ => ?_
  split
  · refine (holds_structAt receiver).bind fun object u hu _ => ?_
    have hid' := P.allowed_mono (P.trans ht hu) hid
    exact holds_callMethod _ hid'
      (allowedMap_foreignParams _ routine hid' (hargs.mono (P.trans ht hu)))
  · exact holds_error _

theorem holds_declaredValue (hh : P.HandlersKeep h) {env : ParameterMap} (henv : P.AllowedMap env w)
    (field : VarDeclStmt) : P.Holds (declaredValue ctx h env field) w P.Allowed := by
  unfold declaredValue
  split
  · exact holds_evaluate hh _ henv.own
  · exact Growth.Keeps.pure (allowed_primitiveDefault _)

theorem holds_flattenFields (hh : P.HandlersKeep h) {receiver : Nat} (fields : List VarDeclStmt) :
    ∀ {env : ParameterMap} {w : World S}, P.Allowed (.struct receiver) w → P.AllowedMap env w →
      P.Holds (flattenFields ctx h receiver fields env) w P.AllowedMap := by
  induction fields with
  | nil => exact fun _ henv => Growth.Keeps.pure henv
  | cons field fields ih =>
    intro env w hid henv
    have hvalue : P.Holds (flattenedField ctx h receiver env field) w P.Allowed := by
      refine (holds_fieldOf hid _).bind fun found t ht hfound => ?_
      split
      · exact Growth.Keeps.pure (hfound _ rfl)
      · exact holds_declaredValue hh (henv.mono ht) field
    refine hvalue.bind fun value t ht hvalue => ?_
    exact ih (P.allowed_mono ht hid) ((henv.mono ht).assign _ hvalue)

theorem holds_bindInputs (hh : P.HandlersKeep h) (routineName : String)
    (params : List ParamDecl) : ∀ {values : List RuntimeValue} {env : ParameterMap} {w : World S},
      P.AllowedAll values w → P.AllowedMap env w →
        P.Holds (bindInputs ctx h routineName params values env) w P.AllowedMap := by
  induction params with
  | nil => exact fun _ henv => Growth.Keeps.pure henv
  | cons param params ih =>
    intro values env w hvalues henv
    cases values with
    | cons value values =>
      obtain ⟨hfirst, hrest⟩ := List.forall_mem_cons.mp hvalues
      exact ih hrest (henv.assign _ hfirst)
    | nil =>
      unfold bindInputs
      split
      · refine (holds_evaluate hh _ henv.own).bind fun value t ht hvalue => ?_
        exact ih allowedAll_nil ((henv.mono ht).assign _ hvalue)
      · exact holds_error _

theorem holds_initialiseFields (hh : P.HandlersKeep h) {env : ParameterMap} {id : Nat}
    (fields : List VarDeclStmt) : ∀ {w : World S}, P.Allowed (.struct id) w → P.AllowedMap env w →
      P.Holds (initialiseFields ctx h env id fields) w anything := by
  induction fields with
  | nil => exact fun _ _ => Growth.Keeps.pure trivial
  | cons field fields ih =>
    intro w hid henv
    refine (holds_declaredValue hh henv field).bind fun value t ht hvalue => ?_
    have hid' := P.allowed_mono ht hid
    refine (holds_setField hid' hvalue).bind fun _ u hu _ => ?_
    exact ih (P.allowed_mono hu hid') (henv.mono (P.trans ht hu))

theorem holds_freshOutput (hh : P.HandlersKeep h) {env : ParameterMap} (henv : P.AllowedMap env w)
    (structName : String) : P.Holds (freshOutput ctx h env structName) w P.Allowed := by
  refine (holds_makeStruct structName).bind fun fresh t ht hid => ?_
  refine (holds_lookupStruct structName).bind fun found u hu _ => ?_
  have hid' := P.allowed_mono hu hid
  split
  · refine (holds_initialiseFields hh _ hid' (henv.mono (P.trans ht hu))).bind fun _ x hx _ => ?_
    exact Growth.Keeps.pure (P.allowed_mono hx hid')
  · exact Growth.Keeps.pure hid'

theorem holds_routineOutputs (hh : P.HandlersKeep h) (outs : List ParamDecl) :
    ∀ {env : ParameterMap} {w : World S}, P.AllowedMap env w →
      P.Holds (StructRoutine.initialiseOutputs ctx h outs env) w P.AllowedMap := by
  induction outs with
  | nil => exact fun henv => Growth.Keeps.pure henv
  | cons out outs ih =>
    intro env w henv
    unfold StructRoutine.initialiseOutputs
    split
    · refine (holds_freshOutput hh henv _).bind fun value t ht hvalue => ?_
      exact ih ((henv.mono ht).assign _ hvalue)
    · split
      · refine (holds_evaluate hh _ henv.own).bind fun value t ht hvalue => ?_
        exact ih ((henv.mono ht).assign _ hvalue)
      · exact ih henv

theorem holds_routineEnvironment (hh : P.HandlersKeep h) {receiver : Nat} (decl : StructDecl)
    (routine : RoutineDecl) {callArgs : List RuntimeValue} (hid : P.Allowed (.struct receiver) w)
    (hargs : P.AllowedAll callArgs w) :
    P.Holds (routineEnvironment ctx h receiver decl routine callArgs) w P.AllowedMap := by
  have hself : P.AllowedMap (StdMap.assign ∅ "this" (.struct receiver)) w :=
    allowedMap_empty.assign "this" hid
  refine (holds_flattenFields hh decl.fields hid hself).bind fun env t ht henv => ?_
  refine (holds_bindInputs hh routine.name _ (hargs.mono ht) henv).bind fun env u _ henv => ?_
  exact holds_routineOutputs hh _ henv

/-! ## After the body -/

theorem holds_syncFromReceiver {receiver : Nat} (fields : List VarDeclStmt) :
    ∀ {env : ParameterMap} {w : World S}, P.Allowed (.struct receiver) w → P.AllowedMap env w →
      P.Holds (syncFromReceiver receiver fields env) w P.AllowedMap := by
  induction fields with
  | nil => exact fun _ henv => Growth.Keeps.pure henv
  | cons field fields ih =>
    intro env w hid henv
    refine (holds_fieldOf hid _).bind fun found t ht hfound => ?_
    split
    · exact ih (P.allowed_mono ht hid) ((henv.mono ht).assign _ (hfound _ rfl))
    · exact ih (P.allowed_mono ht hid) (henv.mono ht)

theorem holds_writeBack {receiver : Nat} {env : ParameterMap} (fields : List VarDeclStmt) :
    ∀ {w : World S}, P.Allowed (.struct receiver) w → P.AllowedMap env w →
      P.Holds (writeBack receiver env fields) w anything := by
  induction fields with
  | nil => exact fun _ _ => Growth.Keeps.pure trivial
  | cons field fields ih =>
    intro w hid henv
    unfold writeBack
    split
    · rename_i value hvalue
      refine (holds_setField hid (henv _ value hvalue)).bind fun _ t ht _ => ?_
      exact ih (P.allowed_mono ht hid) (henv.mono ht)
    · exact ih hid henv

theorem holds_collectOutputs (routineName : String) {env : ParameterMap}
    (henv : P.AllowedMap env w) (outs : List ParamDecl) :
    P.Holds (collectOutputs routineName env outs) w P.AllowedAll := by
  induction outs with
  | nil => exact Growth.Keeps.pure allowedAll_nil
  | cons out outs ih =>
    unfold collectOutputs
    split
    · rename_i value hvalue
      refine ih.bind fun values t ht hvalues => ?_
      exact Growth.Keeps.pure (hvalues.cons (P.allowed_mono ht (henv _ value hvalue)))
    · exact holds_error _

theorem holds_finish {receiver : Nat} (decl : StructDecl) (routine : RoutineDecl)
    {env : ParameterMap} (hid : P.Allowed (.struct receiver) w) (henv : P.AllowedMap env w) :
    P.Holds (finish receiver decl routine env) w P.AllowedAll := by
  refine (holds_syncFromReceiver decl.fields hid henv).bind fun env t ht henv => ?_
  refine (holds_writeBack decl.fields (P.allowed_mono ht hid) henv).bind fun _ u hu _ => ?_
  exact holds_collectOutputs _ (henv.mono hu) _

theorem AllowedVars.ownMap {vars : Variables} (hv : P.AllowedVars vars w) {env : ParameterMap}
    (henv : P.AllowedMap env w) : P.AllowedMap (ownMap vars env) w := by
  cases vars with
  | member => exact henv
  | own map => exact hv

theorem holds_execStructRoutine (hh : P.HandlersKeep h) {receiver : Nat} (decl : StructDecl)
    (routine : RoutineDecl) {callArgs : List RuntimeValue} (hid : P.Allowed (.struct receiver) w)
    (hargs : P.AllowedAll callArgs w) :
    P.Holds (execStructRoutine ctx h receiver decl routine callArgs) w P.AllowedAll := by
  unfold execStructRoutine
  split
  · exact holds_execForeign decl routine hid hargs
  · refine (holds_routineEnvironment hh decl routine hid hargs).bind fun env t ht henv => ?_
    refine (holds_executeBlock hh _ henv.own).bind fun step u hu hstep => ?_
    exact holds_finish decl routine (P.allowed_mono (P.trans ht hu) hid)
      (hstep.2.ownMap (henv.mono hu))

end Routines

/-! ## Autotuners -/

section Autotuners

open Interpreter

variable {ctx : Context S} {P : Policy ctx.host} {h : Handlers S} {w : World S}

theorem holds_getVariables : P.Holds getVariables w P.AllowedMap :=
  Growth.Keeps.gets fun hw _ _ hname => P.memberVariable hw hname

theorem holds_setVariables {map : ParameterMap} (hmap : P.AllowedMap map w) :
    P.Holds (setVariables map) w anything :=
  Growth.Keeps.modify fun hw => ⟨P.variablesSet hw hmap, trivial⟩

theorem holds_setVariable (name : String) {value : RuntimeValue} (hvalue : P.Allowed value w) :
    P.Holds (setVariable name value) w anything :=
  holds_getVariables.bind fun _ _ ht hmap =>
    holds_setVariables (hmap.assign name (P.allowed_mono ht hvalue))

/-- Every expression of a declaration is evaluated on the member map. -/
theorem holds_evaluateMember (hh : P.HandlersKeep h) (e : Expr) :
    P.Holds (evaluate ctx h .member e) w P.Allowed :=
  holds_evaluate hh e allowedVars_member

theorem holds_initializeVariables (hh : P.HandlersKeep h) (stmts : List Stmt) :
    ∀ {w : World S}, P.Holds (initializeVariables ctx h stmts) w anything := by
  induction stmts with
  | nil => exact Growth.Keeps.pure trivial
  | cons stmt stmts ih =>
    intro w
    exact (holds_execute hh stmt allowedVars_member).bind fun _ _ _ _ => ih

theorem holds_setInputParameters (hh : P.HandlersKeep h) {inputs : ParameterMap}
    (params : List ParamDecl) : ∀ {w : World S}, P.AllowedMap inputs w →
      P.Holds (setInputParameters ctx h inputs params) w anything := by
  induction params with
  | nil => exact fun _ => Growth.Keeps.pure trivial
  | cons param params ih =>
    intro w hi
    have hvalue : P.Holds (inputValue ctx h inputs param) w P.Allowed := by
      unfold inputValue
      split
      · rename_i value hname
        exact Growth.Keeps.pure (hi _ value hname)
      · split
        · exact holds_evaluateMember hh _
        · exact holds_error _
    refine hvalue.bind fun value t ht hvalue => ?_
    refine (holds_setVariable _ hvalue).bind fun _ u hu _ => ?_
    exact ih (hi.mono (P.trans ht hu))

theorem holds_initialiseOutputs (hh : P.HandlersKeep h) (outs : List ParamDecl) :
    ∀ {w : World S}, P.Holds (initialiseOutputs ctx h outs) w anything := by
  induction outs with
  | nil => exact Growth.Keeps.pure trivial
  | cons out outs ih =>
    intro w
    have hout : P.Holds (initialiseOutput ctx h out) w anything := by
      refine holds_getVariables.bind fun map t _ _ => ?_
      split
      · exact Growth.Keeps.pure trivial
      · have hvalue : P.Holds (initialOutput ctx h out) t P.Allowed := by
          unfold initialOutput
          split
          · exact holds_evaluateMember hh _
          · exact Growth.Keeps.pure (P.scalar trivial)
        exact hvalue.bind fun _ _ _ hvalue => holds_setVariable _ hvalue
    exact hout.bind fun _ _ _ _ => ih

theorem holds_prepare (hh : P.HandlersKeep h) (autotuner : AutotunerDecl) {inputs : ParameterMap}
    (hi : P.AllowedMap inputs w) :
    P.Holds (prepare ctx h autotuner inputs) w P.AllowedAll := by
  refine (holds_initializeVariables hh _).bind fun _ t ht _ => ?_
  refine (holds_setInputParameters hh _ (hi.mono ht)).bind fun _ u _ _ => ?_
  refine (holds_initialiseOutputs hh _).bind fun _ x _ _ => ?_
  exact holds_evaluateList hh _ allowedVars_member

theorem holds_bindStateParameters (hh : P.HandlersKeep h) (stateName : String)
    (params : List ParamDecl) : ∀ {arguments : List RuntimeValue} {position : Nat} {w : World S},
      P.AllowedAll arguments w →
        P.Holds (bindStateParameters ctx h stateName params arguments position) w anything := by
  induction params with
  | nil => exact fun _ => Growth.Keeps.pure trivial
  | cons param params ih =>
    intro arguments position w hargs
    have hvalue : P.Holds (stateParameter ctx h stateName position param arguments.head?) w
        P.Allowed := by
      unfold stateParameter
      split
      · rename_i value hhead
        exact Growth.Keeps.pure (hargs value (List.mem_of_mem_head? hhead))
      · split
        · exact holds_evaluateMember hh _
        · exact holds_error _
    refine hvalue.bind fun value t ht hvalue => ?_
    refine (holds_setVariable _ hvalue).bind fun _ u hu _ => ?_
    exact ih fun v hv => P.allowed_mono (P.trans ht hu) (hargs v (List.mem_of_mem_tail hv))

theorem holds_checkArity (state : StateDecl) (inputParams : List RuntimeValue) :
    P.Holds (checkArity state inputParams) w anything := by
  unfold checkArity
  split
  · exact holds_error _
  · split
    · exact holds_error _
    · exact Growth.Keeps.pure trivial

theorem holds_executeState (hh : P.HandlersKeep h) (state : StateDecl)
    {inputParams : List RuntimeValue} (hargs : P.AllowedAll inputParams w) :
    P.Holds (executeState ctx h state inputParams) w P.AllowedFlow := by
  refine holds_getVariables.bind fun entered t ht _ => ?_
  refine (holds_checkArity _ _).bind fun _ u hu _ => ?_
  refine (holds_bindStateParameters hh _ _ (hargs.mono (P.trans ht hu))).bind fun _ x _ _ => ?_
  refine (holds_executeBlock hh _ allowedVars_member).bind fun step y _ hstep => ?_
  refine holds_getVariables.bind fun left z hz hleft => ?_
  refine (holds_setVariables (hleft.restrict _)).bind fun _ z' hz' _ => ?_
  exact Growth.Keeps.pure (hstep.1.mono (P.trans hz hz'))

theorem holds_stateLoop (hh : P.HandlersKeep h) (autotuner : AutotunerDecl) (fuel : Nat) :
    ∀ {currentState : String} {stateParams : List RuntimeValue} {w : World S},
      P.AllowedAll stateParams w →
        P.Holds (stateLoop ctx h autotuner fuel currentState stateParams) w anything := by
  induction fuel with
  | zero => exact fun _ => Growth.Keeps.halt _
  | succ fuel ih =>
    intro currentState stateParams w hargs
    unfold stateLoop
    split
    · exact holds_error _
    · refine (holds_executeState hh _ hargs).bind fun flow t _ hflow => ?_
      split
      · exact Growth.Keeps.pure trivial
      · exact ih hflow
      · exact holds_error _

theorem holds_extractOutputs (outs : List ParamDecl) :
    ∀ {w : World S}, P.Holds (extractOutputs outs) w P.AllowedAll := by
  induction outs with
  | nil => exact Growth.Keeps.pure allowedAll_nil
  | cons out outs ih =>
    intro w
    refine holds_getVariables.bind fun map t _ hmap => ?_
    split
    · rename_i value hname
      refine ih.bind fun values u hu hvalues => ?_
      exact Growth.Keeps.pure (hvalues.cons (P.allowed_mono hu (hmap _ value hname)))
    · exact holds_error _

theorem holds_runFresh (hh : P.HandlersKeep h) (fuel : Nat) (autotuner : AutotunerDecl)
    {inputs : ParameterMap} (hi : P.AllowedMap inputs w) :
    P.Holds (runFresh ctx h fuel autotuner inputs) w P.AllowedAll := by
  refine (holds_prepare hh autotuner hi).bind fun stateParams t _ hparams => ?_
  exact (holds_stateLoop hh autotuner fuel hparams).bind fun _ _ _ _ => holds_extractOutputs _

/-- The variables that were saved are allowed in every later world. -/
theorem holds_run (hh : P.HandlersKeep h) (fuel : Nat) (autotuner : AutotunerDecl)
    {inputs : ParameterMap} (hi : P.AllowedMap inputs w) :
    P.Holds (run ctx h fuel autotuner inputs) w P.AllowedAll := by
  refine holds_getVariables.bind fun saved t ht hsaved => ?_
  refine (holds_setVariables allowedMap_empty).bind fun _ u hu _ => ?_
  have hi' := hi.mono (P.trans ht hu)
  refine Growth.Keeps.tryCatch (p := P.AllowedAll) ?_ fun e x hx => ?_
  · refine (holds_runFresh hh fuel autotuner hi').bind fun result x hx hresult => ?_
    refine (holds_setVariables (hsaved.mono (P.trans hu hx))).bind fun _ y hy _ => ?_
    exact Growth.Keeps.pure (hresult.mono hy)
  · exact (holds_setVariables (hsaved.mono (P.trans hu hx))).bind fun _ _ _ _ =>
      Growth.Keeps.throw e

/-! ## Registered functions -/

theorem allowedMap_routineInputs {inputs : ParameterMap} (hi : P.AllowedMap inputs w)
    (params : List ParamDecl) : ∀ {env : ParameterMap}, P.AllowedMap env w →
      P.AllowedMap (routineInputs inputs params env) w := by
  induction params with
  | nil => exact fun henv => henv
  | cons param params ih =>
    intro env henv
    unfold routineInputs
    split
    · rename_i value hname
      exact ih (henv.assign _ (hi _ value hname))
    · exact ih henv

theorem allowedMap_routineOutputs (outs : List ParamDecl) {env : ParameterMap}
    (henv : P.AllowedMap env w) : P.AllowedMap (routineOutputs outs env) w := by
  refine henv.assignAll fun write hwrite => ?_
  obtain ⟨out, -, rfl⟩ := List.mem_map.mp hwrite
  exact allowed_primitiveDefault _

theorem holds_collectRoutineOutputs (qname : String) {env : ParameterMap}
    (henv : P.AllowedMap env w) (outs : List ParamDecl) :
    P.Holds (collectRoutineOutputs qname env outs) w P.AllowedAll := by
  induction outs with
  | nil => exact Growth.Keeps.pure allowedAll_nil
  | cons out outs ih =>
    unfold collectRoutineOutputs
    split
    · rename_i value hvalue
      refine ih.bind fun values t ht hvalues => ?_
      exact Growth.Keeps.pure (hvalues.cons (P.allowed_mono ht (henv _ value hvalue)))
    · exact Growth.Keeps.throw _

theorem holds_runInlineRoutine (hh : P.HandlersKeep h) (qname : String) (decl : RoutineDecl)
    {inputs : ParameterMap} (hi : P.AllowedMap inputs w) :
    P.Holds (runInlineRoutine ctx h qname decl inputs) w P.AllowedAll := by
  have henv := allowedMap_routineOutputs decl.outputParams
    (allowedMap_routineInputs hi decl.inputParams allowedMap_empty)
  refine (holds_executeBlock hh _ henv.own).bind fun step t ht hstep => ?_
  exact holds_collectRoutineOutputs _ (hstep.2.ownMap (henv.mono ht)) _

theorem holds_errorBuiltin (isFatal : Bool) (params : ParameterMap) :
    P.Holds (errorBuiltin isFatal params) w P.AllowedAll := by
  unfold errorBuiltin
  split
  · exact Growth.Keeps.throw _
  · exact Growth.Keeps.pure (AllowedAll.cons (P.scalar trivial) allowedAll_nil)
  · exact Growth.Keeps.throw _

theorem holds_callFunction (hh : P.HandlersKeep h) (fuel : Nat) (function : ExternalFunction)
    {params : ParameterMap} (hparams : P.AllowedMap params w) :
    P.Holds (callFunction ctx h fuel function params) w P.AllowedAll := by
  cases function with
  | errorMsg => exact holds_errorBuiltin _ _
  | fatalErrorMsg => exact holds_errorBuiltin _ _
  | autotuner qname =>
    refine Growth.Keeps.ask_bind ?_
    split
    · exact holds_run hh fuel _ hparams
    · exact Growth.Keeps.throw _
  | inlineRoutine qname =>
    refine Growth.Keeps.ask_bind ?_
    split
    · exact holds_runInlineRoutine hh qname _ hparams
    · exact Growth.Keeps.throw _
  | foreign symbol => exact holds_call symbol hparams

end Autotuners

/-! ## The knot -/

section Knot

variable {ctx : Context S} {P : Policy ctx.host} {w : World S}

/-- By induction on the bound: what calls one level down keep, calls keep. -/
theorem handlers_keep : ∀ fuel : Nat, P.HandlersKeep (Interpreter.handlers ctx fuel)
  | 0 => {
      evaluate := fun _ => Growth.Keeps.halt _
      execStructRoutine := fun _ _ => Growth.Keeps.halt _
      callFunction := fun _ => Growth.Keeps.halt _ }
  | fuel + 1 => {
      evaluate := fun hv => holds_evaluate (handlers_keep fuel) _ hv
      execStructRoutine := fun hid hargs =>
        holds_execStructRoutine (handlers_keep fuel) _ _ hid hargs
      callFunction := fun hparams => holds_callFunction (handlers_keep fuel) fuel _ hparams }

theorem holds_runAutotuner (fuel : Nat) (name : String) {inputs : ParameterMap}
    (hi : P.AllowedMap inputs w) :
    P.Holds (AutotunerEngine.runAutotuner ctx fuel name inputs) w P.AllowedAll := by
  refine Growth.Keeps.ask_bind ?_
  split
  · exact holds_run (handlers_keep fuel) fuel _ hi
  · exact Growth.Keeps.throw _

theorem holds_runRoutine (fuel : Nat) (name : String) {inputs : ParameterMap}
    (hi : P.AllowedMap inputs w) :
    P.Holds (AutotunerEngine.runRoutine ctx fuel name inputs) w P.AllowedAll := by
  refine Growth.Keeps.ask_bind ?_
  split
  · exact holds_callFunction (handlers_keep fuel) fuel _ hi
  · exact Growth.Keeps.throw _

theorem holds_start (fuel : Nat) {start : Start} (hi : P.AllowedMap (startInputs start) w) :
    P.Holds (start.run ctx fuel) w P.AllowedAll := by
  cases start with
  | autotuner name inputs => exact holds_runAutotuner fuel name hi
  | routine name inputs => exact holds_runRoutine fuel name hi

/-- A session keeps every policy that its inputs keep. -/
theorem session_keeps {w' : World S} (hw : P.Valid w)
    (h : Session ctx (P.AllowedMap) w w') : P.Valid w' ∧ P.Grows w w' := by
  induction h with
  | start => exact ⟨hw, P.refl w⟩
  | run before start fuel inputs left ih =>
    obtain ⟨hvalid, hgrows⟩ := ih
    obtain ⟨hvalid', hgrows'⟩ := (holds_start fuel inputs hvalid).state left
    exact ⟨hvalid', P.trans hgrows hgrows'⟩

end Knot

end Policy

end FalconLib.Dsl
