import FalconLib.Dsl.AutotunerEngine
import FalconLib.Dsl.CapturedRuns

/-!
# What the targets of a call are bound to

A call with one output binds its target to that output, and one with several outputs binds a
single target to a tuple of them. Several targets take the outputs in order.
-/

namespace FalconLib.Dsl.OutputCapture

open FalconLib.Base
open ExprEvaluator StmtExecutor

variable {S : Type}

/-! ## The outputs of a call -/

section Calls

variable (ctx : Context S) (h : Handlers S)

def functionOutputs (name : String) (args : List (Option String × M S RuntimeValue)) :
    M S FunctionResult := do
  let (resolvedName, function) ← resolveFunction ctx name
  let sig ← signatureOf ctx resolvedName name
  let params ← bindArguments sig args
  h.callFunction function params

def staticOutputs (vars : Variables) (decl : StructDecl) (typeArgs : List TypeDescriptor)
    (methodName : String) (args : M S (List RuntimeValue)) : M S FunctionResult := do
  let decl ← instantiate decl typeArgs
  match decl.findRoutine methodName with
  | none => unknownRoutine methodName decl.name
  | some routine => do
    let receiver ← constructReceiver h vars decl
    let callArgs ← args
    h.execStructRoutine receiver decl routine callArgs

def valueOutputs (object : RuntimeValue) (methodName : String) (args : M S (List RuntimeValue)) :
    M S FunctionResult := do
  match object with
  | .struct id =>
    match ← structAt id with
    | none => evaluationError "StructInstance is nullptr"
    | some object =>
      match ← lookupStruct object.typeName with
      | none => evaluationError ("No struct declaration found for type: " ++ object.typeName)
      | some decl =>
        match decl.findRoutine methodName with
        | none => unknownRoutine methodName object.typeName
        | some routine => do
          let callArgs ← args
          h.execStructRoutine id decl routine callArgs
  | object => do
    let heap ← getHeap
    let typeName := getRuntimeTypeName heap object
    match ← lookupMethod typeName methodName with
    | none =>
      evaluationError ("Unknown method '" ++ methodName ++ "' for type '" ++ typeName ++ "'")
    | some method => do
      let argValues ← args
      runHost (ctx.host.callMethod method object (positionalParams argValues))

def methodOutputs (vars : Variables) (info : ExprInfo) (receiver : Expr) (methodName : String)
    (object : M S RuntimeValue) (args : M S (List RuntimeValue)) : M S FunctionResult := do
  match ← staticReceiver vars info receiver with
  | some (decl, typeArgs) => staticOutputs h vars decl typeArgs methodName args
  | none => do
    let object ← object
    valueOutputs ctx h object methodName args

/-- The expression is a call, and that is what its callee returned. -/
def Yields (vars : Variables) (e : Expr) (w : World S) (outputs : FunctionResult)
    (w' : World S) : Prop :=
  match e with
  | .call _ name arguments =>
    (functionOutputs ctx h name (argumentThunks ctx h vars arguments) w).outcome = .ok outputs w'
  | .methodCall info object methodName args =>
    (methodOutputs ctx h vars info object methodName (evaluate ctx h vars object)
      (evaluateList ctx h vars args) w).outcome = .ok outputs w'
  | _ => False

end Calls

section

variable {ctx : Context S} {h : Handlers S} {vars : Variables}

theorem evalCall_eq (name : String) (args : List (Option String × M S RuntimeValue)) :
    evalCall ctx h name args = functionOutputs ctx h name args >>= packResult := by
  simp only [evalCall, functionOutputs, Comp.bind_assoc]

theorem callStatic_eq (decl : StructDecl) (typeArgs : List TypeDescriptor) (methodName : String)
    (args : M S (List RuntimeValue)) :
    callStatic h vars decl typeArgs methodName args =
      staticOutputs h vars decl typeArgs methodName args >>= packResult := by
  unfold callStatic staticOutputs
  rw [Comp.bind_assoc]
  refine congrArg (_ >>= ·) (funext fun decl => ?_)
  cases decl.findRoutine methodName with
  | none => rfl
  | some routine => simp only [Comp.bind_assoc]

theorem callOnValue_eq (object : RuntimeValue) (methodName : String)
    (args : M S (List RuntimeValue)) :
    callOnValue ctx h object methodName args =
      valueOutputs ctx h object methodName args >>= packResult := by
  unfold callOnValue
  split
  · unfold valueOutputs
    rw [Comp.bind_assoc]
    refine congrArg (_ >>= ·) (funext fun found => ?_)
    cases found with
    | none => rfl
    | some object =>
      dsimp only
      rw [Comp.bind_assoc]
      refine congrArg (_ >>= ·) (funext fun found => ?_)
      cases found with
      | none => rfl
      | some decl =>
        dsimp only
        cases decl.findRoutine methodName with
        | none => rfl
        | some routine => simp only [Comp.bind_assoc]
  · rename_i hother
    unfold valueOutputs
    split
    · exact absurd rfl (hother _)
    · rw [Comp.bind_assoc]
      refine congrArg (_ >>= ·) (funext fun heap => ?_)
      dsimp only
      rw [Comp.bind_assoc]
      refine congrArg (_ >>= ·) (funext fun found => ?_)
      cases found with
      | none => rfl
      | some method => simp only [Comp.bind_assoc]

theorem evalMethodCall_eq (info : ExprInfo) (receiver : Expr) (methodName : String)
    (object : M S RuntimeValue) (args : M S (List RuntimeValue)) :
    evalMethodCall ctx h vars info receiver methodName object args =
      methodOutputs ctx h vars info receiver methodName object args >>= packResult := by
  unfold evalMethodCall methodOutputs
  rw [Comp.bind_assoc]
  refine congrArg (_ >>= ·) (funext fun found => ?_)
  cases found with
  | some d => exact callStatic_eq _ _ _ _
  | none =>
    dsimp only
    rw [Comp.bind_assoc]
    exact congrArg (_ >>= ·) (funext fun _ => callOnValue_eq _ _ _)

/-- The value of a call is that of its outputs. -/
theorem Yields.evaluate {e : Expr} {w w' : World S} {outputs : FunctionResult}
    (hy : Yields ctx h vars e w outputs w') :
    (ExprEvaluator.evaluate ctx h vars e w).outcome = (packResult outputs w').outcome := by
  cases e with
  | call info name arguments =>
    unfold ExprEvaluator.evaluate
    rw [evalCall_eq]
    exact Comp.bind_of_ok hy
  | methodCall info object methodName args =>
    unfold ExprEvaluator.evaluate
    rw [evalMethodCall_eq]
    exact Comp.bind_of_ok hy
  | _ => exact hy.elim

end

/-! ## Places -/

/-- What a target stands for. -/
inductive Place where
  | var (name : String)
  | field (id : Nat) (name : String)
deriving DecidableEq

def Place.read (place : Place) (vars : Variables) (w : World S) : Option RuntimeValue :=
  match place with
  | .var name => (vars.read w)[name]?
  | .field id name => w.heap.field? id name

/-- A field target has a place if its variable holds an object. -/
def placeOf (vars : Variables) (w : World S) (target : AssignTarget) : Option Place :=
  if target.isFieldTarget then
    match target.object with
    | some (.var _ q) => (FieldAssign.receiver vars q w).map (.field · target.fieldName)
    | _ => none
  else some (.var target.variableName)

/-- A declaration or assignment with a single target: its place, and the value assigned. -/
def singleTarget (vars : Variables) (w : World S) : Stmt → Option (Place × Expr)
  | .varDecl stmt =>
    stmt.initializer.map fun e => (.var stmt.name, markedInitializer stmt.type e)
  | .assign _ [target] value => (placeOf vars w target).map (·, value)
  | .structFieldAssign _ (.var _ q) field value =>
    (FieldAssign.receiver vars q w).map (.field · field, value)
  | _ => none

/-- One place has taken the value, and all others are as they were. -/
structure Assigned (place : Place) (value : RuntimeValue) (vars : Variables) (w : World S)
    (vars' : Variables) (w' : World S) : Prop where
  written : place.read vars' w' = some value
  others : ∀ other, other ≠ place → other.read vars' w' = other.read vars w
  tuples : w'.heap.tuples = w.heap.tuples

/-- One target after the other has taken its output. -/
inductive InTurn : List AssignTarget → List RuntimeValue → Variables → World S → Variables →
    World S → Prop
  | done {vars : Variables} {w : World S} : InTurn [] [] vars w vars w
  | next {target : AssignTarget} {place : Place} {output : RuntimeValue}
      {targets : List AssignTarget} {outputs : List RuntimeValue} {vars vars₁ vars' : Variables}
      {w w₁ w' : World S} (hplace : placeOf vars w target = some place)
      (hassigned : Assigned place output vars w vars₁ w₁)
      (hrest : InTurn targets outputs vars₁ w₁ vars' w') :
      InTurn (target :: targets) (output :: outputs) vars w vars' w'

section Places

variable {vars : Variables} {value : RuntimeValue}

theorem receiver_congr (vars : Variables) (q : String) {w w' : World S}
    (hm : w'.memberVariables = w.memberVariables) (hs : w'.heap.structs = w.heap.structs) :
    FieldAssign.receiver vars q w' = FieldAssign.receiver vars q w := by
  unfold FieldAssign.receiver
  rw [vars.read_congr hm, hs]

theorem singleTarget_congr (vars : Variables) {w w' : World S}
    (hm : w'.memberVariables = w.memberVariables) (hs : w'.heap.structs = w.heap.structs)
    (stmt : Stmt) : singleTarget vars w' stmt = singleTarget vars w stmt := by
  unfold singleTarget placeOf
  simp only [receiver_congr vars _ hm hs]

theorem assignVariable_assigned (vars : Variables) (name : String) (value : RuntimeValue)
    (w : World S) :
    ∃ vars' w', (assignVariable vars name value w).outcome = .ok vars' w' ∧
      Assigned (.var name) value vars w vars' w' := by
  obtain ⟨vars', w', hwrite, hread, hheap, -, -⟩ :=
    FieldAssign.write_outcome vars ((vars.read w).assign name value) w
  refine ⟨vars', w', hwrite, ?_, ?_, congrArg Heap.tuples hheap⟩
  · change (vars'.read w')[name]? = some value
    rw [hread, StdMap.getElem?_assign, if_pos rfl]
  · intro other hother
    cases other with
    | var x =>
      change (vars'.read w')[x]? = (vars.read w)[x]?
      rw [hread, StdMap.getElem?_assign, if_neg]
      rintro rfl
      exact hother rfl
    | field id x =>
      change w'.heap.field? id x = w.heap.field? id x
      rw [hheap]

theorem setField_assigned {q : String} {id : Nat} {w : World S}
    (hr : FieldAssign.receiver vars q w = some id) (name : String) (value : RuntimeValue) :
    Assigned (.field id name) value vars w vars (FieldAssign.written w id name value) := by
  obtain ⟨-, hid⟩ := FieldAssign.receiver_eq_some hr
  have hfield := fun i n => Heap.field?_setField w.heap id i name n value hid
  refine ⟨?_, ?_, rfl⟩
  · exact (hfield id name).trans (if_pos ⟨rfl, rfl⟩)
  · intro other hother
    cases other with
    | var x => exact congrArg (·[x]?) (vars.read_congr rfl)
    | field i n =>
      refine (hfield i n).trans (if_neg ?_)
      rintro ⟨rfl, rfl⟩
      exact hother rfl

theorem assignSingle_assigned {target : AssignTarget} {place : Place} {w : World S}
    (hplace : placeOf vars w target = some place) (value : RuntimeValue) :
    ∃ vars' w', (assignSingle vars target value w).outcome = .ok vars' w' ∧
      Assigned place value vars w vars' w' := by
  unfold placeOf at hplace
  unfold assignSingle
  by_cases hfield : target.isFieldTarget = true
  · rw [if_pos hfield] at hplace
    rw [if_pos hfield]
    split at hplace
    · rename_i info q hobject
      obtain ⟨id, hr, rfl⟩ := Option.map_eq_some_iff.mp hplace
      rw [hobject]
      refine ⟨vars, FieldAssign.written w id target.fieldName value, ?_,
        setField_assigned hr target.fieldName value⟩
      exact Comp.bind_of_ok (FieldAssign.structVariable_of_receiver hr undefinedStruct
        Exception.badVariantAccess)
    · cases hplace
  · rw [if_neg hfield] at hplace
    rw [if_neg hfield]
    cases hplace
    exact assignVariable_assigned vars target.variableName value w

/-- A statement with a single target writes the value to its place. -/
theorem singleTarget_written {ctx : Context S} {h : Handlers S} {stmt : Stmt} {place : Place}
    {e : Expr} {w wₑ : World S} (hs : singleTarget vars wₑ stmt = some (place, e))
    (he : (ExprEvaluator.evaluate ctx h vars e w).outcome = .ok value wₑ) :
    ∃ vars' w', (execute ctx h vars stmt w).outcome = .ok (.none, vars') w' ∧
      place.read vars' w' = some value := by
  unfold singleTarget at hs
  split at hs
  · rename_i stmt
    obtain ⟨init, hinit, hpair⟩ := Option.map_eq_some_iff.mp hs
    cases hpair
    obtain ⟨vars', w', hassign, hassigned⟩ := assignVariable_assigned vars stmt.name value wₑ
    refine ⟨vars', w', ?_, hassigned.written⟩
    refine Comp.tryCatch_of_ok (Comp.bind_of_ok (a := vars') ?_)
    unfold execVarDecl initialValue
    rw [hinit]
    exact (Comp.bind_of_ok he).trans hassign
  · rename_i location target call
    obtain ⟨found, hplace, hpair⟩ := Option.map_eq_some_iff.mp hs
    cases hpair
    obtain ⟨vars', w', hassign, hassigned⟩ := assignSingle_assigned hplace value
    refine ⟨vars', w', ?_, hassigned.written⟩
    exact Comp.tryCatch_of_ok (Comp.bind_of_ok ((Comp.bind_of_ok he).trans hassign))
  · rename_i location info q field call
    obtain ⟨id, hr, hpair⟩ := Option.map_eq_some_iff.mp hs
    cases hpair
    obtain ⟨vars', w', hsync, -, hheap, -, -⟩ := FieldAssign.syncFlatCopy_outcome vars field value
      (FieldAssign.written wₑ id field value)
    refine ⟨vars', w', ?_, ?_⟩
    · exact Comp.tryCatch_of_ok
        (Comp.bind_of_ok ((FieldAssign.exec_of_receiver he hr info field).trans hsync))
    · change w'.heap.field? id field = some value
      rw [hheap]
      exact (setField_assigned hr field value).written
  · cases hs

end Places

/-! ## Several outputs -/

/-- Two outputs or more leave a tuple of them behind. -/
def packedWorld (w : World S) (outputs : FunctionResult) : World S :=
  if outputs.length ≤ 1 then w else { w with heap := (w.heap.allocTuple outputs).2 }

def packedValue (w : World S) : FunctionResult → RuntimeValue
  | [] => .nil
  | [value] => value
  | _ => .tuple w.heap.tuples.length

theorem packResult_outcome (outputs : FunctionResult) (w : World S) :
    (packResult outputs w).outcome = .ok (packedValue w outputs) (packedWorld w outputs) := by
  match outputs with
  | [] => rfl
  | [value] => rfl
  | first :: second :: rest =>
    unfold packedWorld
    rw [if_neg (by simp only [List.length_cons]; omega)]
    rfl

theorem packedWorld_memberVariables (w : World S) (outputs : FunctionResult) :
    (packedWorld w outputs).memberVariables = w.memberVariables := by
  unfold packedWorld
  split <;> rfl

theorem packedWorld_structs (w : World S) (outputs : FunctionResult) :
    (packedWorld w outputs).heap.structs = w.heap.structs := by
  unfold packedWorld
  split <;> rfl

theorem read_packedWorld (place : Place) (vars : Variables) (w : World S)
    (outputs : FunctionResult) : place.read vars (packedWorld w outputs) = place.read vars w := by
  cases place with
  | var name => exact congrArg (·[name]?) (vars.read_congr (packedWorld_memberVariables w outputs))
  | field id name =>
    change Option.bind _ _ = Option.bind _ _
    rw [packedWorld_structs]

/-- A tuple of several outputs is not the first of them. -/
theorem packedValue_eq_head_iff {w : World S} {outputs : FunctionResult} (hne : outputs ≠ [])
    (hold : ∀ id, RuntimeValue.tuple id ∈ outputs → id < w.heap.tuples.length) :
    some (packedValue w outputs) = outputs.head? ↔ outputs.length = 1 := by
  match outputs with
  | [] => exact absurd rfl hne
  | [value] => exact ⟨fun _ => rfl, fun _ => rfl⟩
  | first :: second :: rest =>
    constructor
    · intro h
      have hfirst : RuntimeValue.tuple w.heap.tuples.length = first := Option.some.inj h
      have hmem : RuntimeValue.tuple w.heap.tuples.length ∈ first :: second :: rest := by
        rw [hfirst]
        exact List.mem_cons_self
      exact absurd (hold _ hmem) (Nat.lt_irrefl _)
    · intro h
      simp only [List.length_cons] at h
      omega

/-- The tuple of several outputs. -/
theorem packed_tuple {w : World S} {outputs : FunctionResult} (hmany : 2 ≤ outputs.length) :
    packedValue w outputs = .tuple w.heap.tuples.length ∧
      (packedWorld w outputs).heap.tuples[w.heap.tuples.length]? = some outputs := by
  constructor
  · match outputs with
    | first :: second :: rest => rfl
  · unfold packedWorld
    rw [if_neg (by omega)]
    exact List.getElem?_concat_length

/-! ## Several targets -/

section Several

variable {ctx : Context S} {h : Handlers S} {vars vars' : Variables} {w w' : World S}

theorem evalVariable_world {name : String} {value : RuntimeValue}
    (ho : (evalVariable vars name w).outcome = .ok value w') : w' = w := by
  unfold evalVariable at ho
  rw [Comp.outcome_gets_bind] at ho
  cases hname : (vars.read w)[name]? with
  | some found =>
    rw [hname] at ho
    cases ho
    rfl
  | none =>
    rw [hname] at ho
    dsimp only at ho
    split at ho
    · cases hstripped : (vars.read w)[stripModulePrefix name]? with
      | some found =>
        rw [hstripped] at ho
        cases ho
        rfl
      | none =>
        rw [hstripped] at ho
        cases ho
    · cases ho

theorem structVariable_receiver {name undefinedMessage : String} {notStruct : Exception}
    {id : Nat} (ho : (structVariable vars name undefinedMessage notStruct w).outcome = .ok id w') :
    FieldAssign.receiver vars name w = some id ∧ w' = w := by
  cases hr : FieldAssign.receiver vars name w with
  | none =>
    obtain ⟨x, hx⟩ := FieldAssign.structVariable_of_none hr undefinedMessage notStruct
    cases hx.symm.trans ho
  | some i =>
    cases (FieldAssign.structVariable_of_receiver hr undefinedMessage notStruct).symm.trans ho
    exact ⟨rfl, rfl⟩

variable {id i : Nat} {outputs : List RuntimeValue} {output : RuntimeValue}

theorem tupleValue_outcome (htuple : w.heap.tuples[id]? = some outputs)
    (houtput : outputs[i]? = some output) : (tupleValue id i w).outcome = .ok output w := by
  unfold tupleValue getHeap
  rw [Comp.outcome_gets_bind, htuple, Option.bind_some, houtput]
  rfl

theorem assignFieldTarget_assigned {object : Expr} {fieldName : String} {u : Unit}
    (htuple : w.heap.tuples[id]? = some outputs) (houtput : outputs[i]? = some output)
    (ho : (assignFieldTarget ctx h vars object fieldName (tupleValue id i) w).outcome =
      .ok u w') :
    ∃ info q receiver, object = .var info q ∧ FieldAssign.receiver vars q w = some receiver ∧
      w' = FieldAssign.written w receiver fieldName output := by
  obtain ⟨value, wₑ, hvalue, hrest⟩ := Comp.bind_eq_ok ho
  cases value with
  | struct s =>
    cases object with
    | var info q =>
      obtain rfl := evalVariable_world hvalue
      obtain ⟨receiver, w₁, hstruct, hwrite⟩ := Comp.bind_eq_ok hrest
      obtain ⟨hreceiver, rfl⟩ := structVariable_receiver hstruct
      rw [Comp.bind_of_ok (tupleValue_outcome htuple houtput)] at hwrite
      cases hwrite
      exact ⟨info, q, receiver, rfl, hreceiver, rfl⟩
    | _ => cases hrest
  | _ => cases hrest

theorem assignTupleTarget_assigned {target : AssignTarget}
    (htuple : w.heap.tuples[id]? = some outputs) (houtput : outputs[i]? = some output)
    (ho : (assignTupleTarget ctx h id i target vars w).outcome = .ok vars' w') :
    ∃ place, placeOf vars w target = some place ∧ Assigned place output vars w vars' w' := by
  unfold assignTupleTarget at ho
  unfold placeOf
  by_cases hfield : target.isFieldTarget = true
  · rw [if_pos hfield] at ho
    rw [if_pos hfield]
    cases hobject : target.object with
    | none =>
      rw [hobject] at ho
      cases ho
    | some object =>
      rw [hobject] at ho
      obtain ⟨u, w₁, hassign, ho⟩ := Comp.bind_eq_ok ho
      cases ho
      obtain ⟨info, q, receiver, rfl, hreceiver, rfl⟩ :=
        assignFieldTarget_assigned htuple houtput hassign
      dsimp only
      rw [hreceiver]
      exact ⟨_, rfl, setField_assigned hreceiver target.fieldName output⟩
  · rw [if_neg hfield] at ho
    rw [if_neg hfield]
    rw [Comp.bind_of_ok (tupleValue_outcome htuple houtput)] at ho
    obtain ⟨vars₁, w₁, hassign, hassigned⟩ :=
      assignVariable_assigned vars target.variableName output w
    cases hassign.symm.trans ho
    exact ⟨_, rfl, hassigned⟩

theorem assignTupleTargets_inTurn (targets : List AssignTarget)
    (htuple : w.heap.tuples[id]? = some outputs) (hlength : i + targets.length = outputs.length)
    (ho : (assignTupleTargets ctx h id targets i vars w).outcome = .ok vars' w') :
    InTurn targets (outputs.drop i) vars w vars' w' := by
  induction targets generalizing i vars w with
  | nil =>
    cases ho
    rw [List.length_nil] at hlength
    rw [List.drop_of_length_le (by omega)]
    exact .done
  | cons target targets ih =>
    rw [List.length_cons] at hlength
    have hi : i < outputs.length := by omega
    obtain ⟨vars₁, w₁, hassign, ho⟩ := Comp.bind_eq_ok ho
    obtain ⟨place, hplace, hassigned⟩ :=
      assignTupleTarget_assigned htuple (List.getElem?_eq_getElem hi) hassign
    rw [List.drop_eq_getElem_cons hi]
    exact .next hplace hassigned (ih (hassigned.tuples ▸ htuple) (by omega) ho)

/-- Variables can always be assigned. -/
theorem assignTupleTargets_returns (targets : List AssignTarget)
    (hvariables : ∀ target ∈ targets, target.isFieldTarget = false)
    (htuple : w.heap.tuples[id]? = some outputs) (hlength : i + targets.length = outputs.length) :
    ∃ vars' w', (assignTupleTargets ctx h id targets i vars w).outcome = .ok vars' w' := by
  induction targets generalizing i vars w with
  | nil => exact ⟨vars, w, rfl⟩
  | cons target targets ih =>
    obtain ⟨hvariable, hvariables⟩ := List.forall_mem_cons.mp hvariables
    rw [List.length_cons] at hlength
    have hi : i < outputs.length := by omega
    obtain ⟨vars₁, w₁, hassign, hassigned⟩ :=
      assignVariable_assigned vars target.variableName outputs[i] w
    have hfirst : (assignTupleTarget ctx h id i target vars w).outcome = .ok vars₁ w₁ := by
      unfold assignTupleTarget
      rw [hvariable, if_neg Bool.false_ne_true,
        Comp.bind_of_ok (tupleValue_outcome htuple (List.getElem?_eq_getElem hi))]
      exact hassign
    have hnext : i + 1 + targets.length = outputs.length := by omega
    obtain ⟨vars', w', hrest⟩ : ∃ vars' w',
        (assignTupleTargets ctx h id targets (i + 1) vars₁ w₁).outcome = .ok vars' w' :=
      ih hvariables (hassigned.tuples ▸ htuple) hnext
    exact ⟨vars', w', (Comp.bind_of_ok hfirst).trans hrest⟩

variable {targets : List AssignTarget} {e : Expr}

theorem execAssign_tuple (hmany : 2 ≤ targets.length) {value : RuntimeValue} {wₑ : World S}
    (he : (ExprEvaluator.evaluate ctx h vars e w).outcome = .ok value wₑ) :
    (execAssign ctx h vars targets e w).outcome =
      (assignTuple ctx h vars targets value wₑ).outcome := by
  match targets with
  | first :: second :: rest => exact Comp.bind_of_ok he

theorem assignTuple_fits (htuple : w.heap.tuples[id]? = some outputs)
    (hlength : outputs.length = targets.length) :
    (assignTuple ctx h vars targets (.tuple id) w).outcome =
      (assignTupleTargets ctx h id targets 0 vars w).outcome := by
  unfold assignTuple getHeap
  rw [Comp.outcome_gets_bind]
  dsimp only
  rw [htuple]
  dsimp only
  rw [if_pos hlength]

theorem assignTuple_mismatch (htuple : w.heap.tuples[id]? = some outputs)
    (hlength : outputs.length ≠ targets.length) :
    ∃ x, (assignTuple ctx h vars targets (.tuple id) w).outcome = .throw x w := by
  unfold assignTuple getHeap
  rw [Comp.outcome_gets_bind]
  dsimp only
  rw [htuple]
  dsimp only
  rw [if_neg hlength]
  exact ⟨_, rfl⟩

/-- A statement that returned did so through the assignment. -/
theorem execute_assign_ok {location : Location} {flow : ControlFlow}
    (ho : (execute ctx h vars (.assign location targets e) w).outcome = .ok (flow, vars') w') :
    (execAssign ctx h vars targets e w).outcome = .ok vars' w' := by
  rcases Comp.tryCatch_eq_ok ho with hgo | ⟨x, t, -, hthrow⟩
  · obtain ⟨vars₁, w₁, hassign, hdone⟩ := Comp.bind_eq_ok hgo
    cases hdone
    exact hassign
  · cases hthrow

/-- The value of a call with several outputs, and what is there to be assigned. -/
theorem Yields.tuple {w₁ : World S} (hy : Yields ctx h vars e w outputs w₁)
    (hmany : 2 ≤ outputs.length) :
    (ExprEvaluator.evaluate ctx h vars e w).outcome =
        .ok (.tuple w₁.heap.tuples.length) (packedWorld w₁ outputs) ∧
      (packedWorld w₁ outputs).heap.tuples[w₁.heap.tuples.length]? = some outputs := by
  obtain ⟨hvalue, htuple⟩ := packed_tuple hmany (w := w₁)
  refine ⟨hy.evaluate.trans ?_, htuple⟩
  rw [packResult_outcome, hvalue]

end Several

/-! ## What holds of every call -/

open Interpreter (handlers)

/-- Where the disciplined run `c` is not stopped, `m` does what it does under the watch, which no
tuple in a variable has stopped. -/
def NeverHeld (host : Host S) (m : M S FunctionResult) (c : Bool → M S FunctionResult) : Prop :=
  ∀ w, PlainWorld host w → ¬(c false).Stopped w →
    (m w).outcome = (c true w).outcome ∧ ¬(c true).Stopped w

theorem NeverHeld.of_kept {host : Host S} {p : FunctionResult → Prop} {m : M S FunctionResult}
    {c : Bool → M S FunctionResult} (h : Kept host p c m) : NeverHeld host m c := by
  intro w hw hgo
  rcases h w hw with hstopped | ⟨hrun, hwatched, -⟩
  · exact absurd hstopped hgo
  · exact ⟨hrun.trans hwatched.symm, fun hstopped => hgo (hwatched.symm.trans hstopped)⟩

/-- How far the targets of calls are bound as they should be. -/
structure Captures (ctx : Context S) (fuel : Nat) : Prop where
  /-- A single target is bound to the first output exactly when there is no other. -/
  single : ∀ (vars : Variables) (stmt : Stmt) (place : Place) (e : Expr) (w w₁ : World S)
      (outputs : FunctionResult),
    Yields ctx (handlers ctx fuel) vars e w outputs w₁ →
    singleTarget vars w₁ stmt = some (place, e) → outputs ≠ [] →
    (∀ id, RuntimeValue.tuple id ∈ outputs → id < w₁.heap.tuples.length) →
    ∃ vars' w', (execute ctx (handlers ctx fuel) vars stmt w).outcome = .ok (.none, vars') w' ∧
      (place.read vars' w' = outputs.head? ↔ outputs.length = 1)
  /-- As many targets as outputs take them in order; variables always do. -/
  several : ∀ (vars : Variables) (location : Location) (targets : List AssignTarget) (e : Expr)
      (w w₁ : World S) (outputs : FunctionResult),
    Yields ctx (handlers ctx fuel) vars e w outputs w₁ →
    2 ≤ outputs.length → outputs.length = targets.length →
    (∀ vars' w', (execute ctx (handlers ctx fuel) vars (.assign location targets e) w).outcome =
        .ok (.none, vars') w' →
      InTurn targets outputs vars (packedWorld w₁ outputs) vars' w') ∧
    ((∀ target ∈ targets, target.isFieldTarget = false) →
      ∃ vars' w', (execute ctx (handlers ctx fuel) vars (.assign location targets e) w).outcome =
        .ok (.none, vars') w')
  /-- Any other number of targets is an error, and none of them changes. -/
  mismatch : ∀ (vars : Variables) (location : Location) (targets : List AssignTarget) (e : Expr)
      (w w₁ : World S) (outputs : FunctionResult),
    Yields ctx (handlers ctx fuel) vars e w outputs w₁ →
    2 ≤ outputs.length → 2 ≤ targets.length → outputs.length ≠ targets.length →
    ∃ x w', (execute ctx (handlers ctx fuel) vars (.assign location targets e) w).outcome =
        .throw x w' ∧
      ∀ place : Place, place.read vars w' = place.read vars w₁
  /-- Where several outputs only go to several targets no variable ever holds a tuple. -/
  autotuners : ∀ (autotuner : AutotunerDecl) (inputs : ParameterMap), PlainMap inputs →
    NeverHeld ctx.host (Interpreter.run ctx (handlers ctx fuel) fuel autotuner inputs)
      fun watch => checkedRun ctx (disciplined ctx watch fuel) watch fuel autotuner inputs
  functions : ∀ (function : ExternalFunction) (params : ParameterMap), PlainMap params →
    NeverHeld ctx.host ((handlers ctx fuel).callFunction function params)
      fun watch => (disciplined ctx watch fuel).callFunction function params

theorem captures (ctx : Context S) (fuel : Nat) (hhost : PlainHost ctx.host) :
    Captures ctx fuel where
  single vars stmt place e w w₁ outputs hy hs hne hold := by
    have he := hy.evaluate.trans (packResult_outcome outputs w₁)
    rw [← singleTarget_congr vars (packedWorld_memberVariables w₁ outputs)
      (packedWorld_structs w₁ outputs)] at hs
    obtain ⟨vars', w', hexecute, hwritten⟩ := singleTarget_written hs he
    refine ⟨vars', w', hexecute, ?_⟩
    rw [hwritten]
    exact packedValue_eq_head_iff hne hold
  several vars location targets e w w₁ outputs hy hmany hlength := by
    obtain ⟨he, htuple⟩ := hy.tuple hmany
    have hassign := (execAssign_tuple (hlength ▸ hmany) he).trans
      (assignTuple_fits htuple hlength)
    have hfit : 0 + targets.length = outputs.length := by omega
    constructor
    · intro vars' w' ho
      exact assignTupleTargets_inTurn targets htuple hfit
        (hassign.symm.trans (execute_assign_ok ho))
    · intro hvariables
      obtain ⟨vars', w', hreturn⟩ := assignTupleTargets_returns targets hvariables htuple hfit
      exact ⟨vars', w', Comp.tryCatch_of_ok (Comp.bind_of_ok (hassign.trans hreturn))⟩
  mismatch vars location targets e w w₁ outputs hy hmany htargets hlength := by
    obtain ⟨he, htuple⟩ := hy.tuple hmany
    obtain ⟨x, hx⟩ := assignTuple_mismatch htuple hlength
    have hassign := (execAssign_tuple htargets he).trans hx
    refine ⟨_, packedWorld w₁ outputs,
      Comp.tryCatch_of_throw (Comp.bind_of_throw hassign), ?_⟩
    intro place
    exact read_packedWorld place vars w₁ outputs
  autotuners autotuner inputs hi :=
    .of_kept (checkedRun_kept hhost (disciplined_kept hhost fuel) fuel autotuner hi)
  functions function params hp :=
    .of_kept ((disciplined_kept hhost fuel).callFunction function params hp)

/-! ## A routine with two outputs -/

theorem plainHost_unlinked : PlainHost Host.unlinked where
  call _ _ _ _ _ hheap := ⟨hheap, nofun⟩
  callMethod _ _ _ _ _ _ _ hheap := ⟨hheap, nofun⟩

def intNamed (name : String) : ParamDecl := { type := .ofParamType .int, name := name }

def setInt (name : String) (value : Int64) : Stmt :=
  .assign {} [{ variableName := name }] (.literal {} (.int value))

def callPair : Expr := .call {} "pair" []

/-- `routine pair -> (int a, int b) { a = 1; b = 2; }` -/
def pair : RoutineDecl where
  name := "pair"
  inputParams := []
  outputParams := [intNamed "a", intNamed "b"]
  body := [setInt "a" 1, setInt "b" 2]

def bindPair (targets : List String) : Stmt :=
  .assign {} (targets.map fun name => { variableName := name }) callPair

/-- `routine user -> (int x, int y) { x, y = pair(); }` -/
def user : RoutineDecl where
  name := "user"
  inputParams := []
  outputParams := [intNamed "x", intNamed "y"]
  body := [bindPair ["x", "y"]]

def pairs : Context Unit :=
  ((AutotunerEngine.create.registerRoutine pair).registerRoutine user).context Host.unlinked
    fun _ => []

def emptyWorld : World Unit := { store := () }

theorem plainWorld_empty (host : Host Unit) : PlainWorld host emptyWorld where
  member := plainMap_empty
  heap := ⟨nofun, nofun, nofun⟩
  builtin := rfl
  index := nofun

theorem yields_pair : Yields pairs (handlers pairs 3) (.own ∅) callPair emptyWorld
    [.int 1, .int 2] emptyWorld := rfl

theorem captures_pairs :
    (∃ vars' w', (execute pairs (handlers pairs 3) (.own ∅) (bindPair ["x"]) emptyWorld).outcome =
        .ok (.none, vars') w' ∧
      ((Place.var "x").read vars' w' = some (.int 1) ↔ (2 : Nat) = 1)) ∧
    (∃ vars' w', (execute pairs (handlers pairs 3) (.own ∅) (bindPair ["x", "y"])
        emptyWorld).outcome = .ok (.none, vars') w') ∧
    (∃ x w', (execute pairs (handlers pairs 3) (.own ∅) (bindPair ["x", "y", "z"])
        emptyWorld).outcome = .throw x w' ∧
      ∀ place : Place, place.read (.own ∅) w' = place.read (.own ∅) emptyWorld) ∧
    ((handlers pairs 3).callFunction (.inlineRoutine "user") ∅ emptyWorld).outcome =
        ((disciplined pairs true 3).callFunction (.inlineRoutine "user") ∅ emptyWorld).outcome ∧
      ¬((disciplined pairs true 3).callFunction (.inlineRoutine "user") ∅).Stopped emptyWorld := by
  have h := captures pairs 3 plainHost_unlinked
  have hgoes : ((disciplined pairs false 3).callFunction (.inlineRoutine "user") ∅
      emptyWorld).outcome.value? = some [.int 1, .int 2] := rfl
  refine ⟨?_, ?_, ?_, ?_⟩
  · exact h.single (.own ∅) (bindPair ["x"]) (.var "x") callPair emptyWorld emptyWorld
      [.int 1, .int 2] yields_pair rfl nofun (by simp)
  · exact (h.several (.own ∅) {} _ callPair emptyWorld emptyWorld [.int 1, .int 2] yields_pair
      (by decide) rfl).2 (by decide)
  · exact h.mismatch (.own ∅) {} _ callPair emptyWorld emptyWorld [.int 1, .int 2] yields_pair
      (by decide) (by decide) (by decide)
  · refine h.functions (.inlineRoutine "user") ∅ plainMap_empty emptyWorld (plainWorld_empty _) ?_
    intro hstopped
    rw [hstopped] at hgoes
    cases hgoes

/-- After `x = pair()` the variable `x` holds a tuple. -/
theorem not_captures_first :
    ¬ ∀ (ctx : Context Unit) (fuel : Nat) (vars vars' : Variables) (stmt : Stmt) (place : Place)
        (e : Expr) (w w₁ w' : World Unit) (outputs : FunctionResult),
      Yields ctx (handlers ctx fuel) vars e w outputs w₁ →
      singleTarget vars w₁ stmt = some (place, e) → 2 ≤ outputs.length →
      (execute ctx (handlers ctx fuel) vars stmt w).outcome = .ok (.none, vars') w' →
      place.read vars' w' = outputs.head? := by
  intro h
  have hfirst := h pairs 3 (.own ∅) (.own (StdMap.assign ∅ "x" (.tuple 0))) (bindPair ["x"])
    (.var "x") callPair emptyWorld emptyWorld
    { store := (), heap := { tuples := [[.int 1, .int 2]] } } [.int 1, .int 2] yields_pair rfl
    (by decide) rfl
  cases hfirst

end FalconLib.Dsl.OutputCapture
