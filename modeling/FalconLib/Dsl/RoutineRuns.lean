import FalconLib.Dsl.FieldAssign
import FalconLib.Dsl.StructRoutine

/-!
# Runs of routine bodies

One rule for each kind of statement, for a block that runs on a map of its own, and what
surrounds the body: the fields, the inputs and the outputs of the routine.
-/

namespace FalconLib.Dsl.RoutineRuns

open FalconLib.Base (Comp StdMap)
open ExprEvaluator (evaluate evaluateList)
open FieldAssign (flatCopied receiver written exec_of_receiver)
open StmtExecutor
open StructRoutine

variable {S : Type} {ctx : Context S} {h : Handlers S} {env env' : ParameterMap}
  {w w' : World S} {value : RuntimeValue}

/-! ## Expressions -/

theorem evaluate_var {info : ExprInfo} {name : String} (hn : env[name]? = some value)
    (w : World S) : (evaluate ctx h (.own env) (.var info name) w).outcome = .ok value w := by
  change (ExprEvaluator.evalVariable (.own env) name w).outcome = _
  unfold ExprEvaluator.evalVariable
  rw [Comp.outcome_gets_bind]
  dsimp only [Variables.read]
  rw [hn]
  rfl

theorem evaluate_binary {info : ExprInfo} {op : String} {left right : Expr}
    {a b c : RuntimeValue} {w₁ w₂ : World S}
    (hl : (evaluate ctx h (.own env) left w).outcome = .ok a w₁)
    (hr : (evaluate ctx h (.own env) right w₁).outcome = .ok b w₂)
    (hop : applyBinaryOp w₂.heap op a b = .value c) :
    (evaluate ctx h (.own env) (.binary info op left right) w).outcome = .ok c w₂ := by
  refine (Comp.bind_of_ok hl).trans ?_
  refine (Comp.bind_of_ok hr).trans ?_
  change ((Comp.gets World.heap >>= fun heap => Comp.ofOutcome (applyBinaryOp heap op a b))
    w₂).outcome = _
  rw [Comp.outcome_gets_bind, hop]
  rfl

/-- Arguments that are variables. -/
theorem evaluateList_vars {names : List String} {values : List RuntimeValue}
    (hv : List.Forall₂ (fun name value => env[name]? = some value) names values) (w : World S) :
    (evaluateList ctx h (.own env) (names.map (Expr.var {})) w).outcome = .ok values w := by
  induction hv with
  | nil => rfl
  | cons hhead _ ih =>
    refine (Comp.bind_of_ok (evaluate_var hhead w)).trans ?_
    exact Comp.bind_of_ok ih

/-! ## Statements -/

/-- The statement goes on to the next one, which finds the map `env'`. -/
def Steps (ctx : Context S) (h : Handlers S) (env : ParameterMap) (stmt : Stmt) (w : World S)
    (env' : ParameterMap) (w' : World S) : Prop :=
  (execute ctx h (.own env) stmt w).outcome = .ok (.none, .own env') w'

/-- The computation raises an error and leaves the world `w'`. -/
def Raises {α : Type} (m : M S α) (w w' : World S) : Prop := ∃ e, (m w).outcome = .throw e w'

theorem Raises.bind {α β : Type} {m : M S α} {f : α → M S β} (hm : Raises m w w') :
    Raises (m >>= f) w w' := by
  obtain ⟨e, he⟩ := hm
  exact ⟨e, Comp.bind_of_throw he⟩

theorem Raises.of_ok {α β : Type} {m : M S α} {f : α → M S β} {a : α} {w₁ : World S}
    (hm : (m w).outcome = .ok a w₁) (hf : Raises (f a) w₁ w') : Raises (m >>= f) w w' := by
  obtain ⟨e, he⟩ := hf
  exact ⟨e, (Comp.bind_of_ok hm).trans he⟩

theorem Raises.withContext {α : Type} {m : M S α} (hm : Raises m w w') (location : Location) :
    Raises (executeWithContext ctx location m) w w' := by
  obtain ⟨e, he⟩ := hm
  exact ⟨_, Comp.tryCatch_of_throw he⟩

theorem Steps.varDecl {location : Location} {type : TypeDescriptor} {name : String}
    {initializer : Expr}
    (he : (evaluate ctx h (.own env) (markedInitializer type initializer) w).outcome =
      .ok value w') :
    Steps ctx h env (.varDecl ⟨location, type, name, some initializer⟩) w
      (env.assign name value) w' := by
  have hexec : (execVarDecl ctx h (.own env) ⟨location, type, name, some initializer⟩ w).outcome =
      .ok (.own (env.assign name value)) w' := Comp.bind_of_ok he
  exact Comp.tryCatch_of_ok (Comp.bind_of_ok hexec)

theorem Steps.assign {location : Location} {name : String} {e : Expr}
    (he : (evaluate ctx h (.own env) e w).outcome = .ok value w') :
    Steps ctx h env (.assign location [{ variableName := name }] e) w (env.assign name value) w' := by
  have hexec : (execAssign ctx h (.own env) [{ variableName := name }] e w).outcome =
      .ok (.own (env.assign name value)) w' := Comp.bind_of_ok he
  exact Comp.tryCatch_of_ok (Comp.bind_of_ok hexec)

theorem Steps.expr {location : Location} {e : Expr}
    (he : (evaluate ctx h (.own env) e w).outcome = .ok value w') :
    Steps ctx h env (.expr location e) w env w' :=
  Comp.tryCatch_of_ok (Comp.bind_of_ok he)

/-- A field of another object is written; a variable of its name is overwritten. -/
theorem Steps.structFieldAssign {location : Location} {info : ExprInfo} {object field : String}
    {e : Expr} {id : Nat} (he : (evaluate ctx h (.own env) e w).outcome = .ok value w')
    (ho : env[object]? = some (.struct id)) (hid : id < w'.heap.structs.length) :
    Steps ctx h env (.structFieldAssign location (.var info object) field e) w
      (flatCopied env field value) { w' with heap := w'.heap.setField id field value } := by
  have hreceiver : receiver (.own env) object w' = some id := by
    unfold receiver
    dsimp only [Variables.read]
    rw [ho]
    exact if_pos hid
  have hexec := exec_of_receiver he hreceiver info field
  have hsync : (syncFlatCopy (.own env) field value (written w' id field value)).outcome =
      .ok (.own (flatCopied env field value)) (written w' id field value) := by
    unfold syncFlatCopy flatCopied
    rw [Comp.outcome_gets_bind]
    dsimp only [Variables.read]
    cases env[field]? with
    | none => rfl
    | some old => rfl
  exact Comp.tryCatch_of_ok (Comp.bind_of_ok (hexec.trans hsync))

/-! ## Blocks -/

theorem executeBlock_of_steps {stmt : Stmt} {stmts : List Stmt}
    (hs : Steps ctx h env stmt w env' w') :
    (executeBlock ctx h (.own env) (stmt :: stmts) w).outcome =
      (executeBlock ctx h (.own env') stmts w').outcome :=
  Comp.bind_of_ok hs

theorem executeBlock_of_raises {stmt : Stmt} {stmts : List Stmt}
    (hs : Raises (execute ctx h (.own env) stmt) w w') :
    Raises (executeBlock ctx h (.own env) (stmt :: stmts)) w w' := hs.bind

theorem Raises.step {stmt : Stmt} {stmts : List Stmt} {w₁ : World S}
    (hs : Steps ctx h env stmt w env' w₁)
    (hr : Raises (executeBlock ctx h (.own env') stmts) w₁ w') :
    Raises (executeBlock ctx h (.own env) (stmt :: stmts)) w w' := Raises.of_ok hs hr

/-- The block runs to its end. -/
def Runs (ctx : Context S) (h : Handlers S) (env : ParameterMap) (stmts : List Stmt)
    (w : World S) (env' : ParameterMap) (w' : World S) : Prop :=
  (executeBlock ctx h (.own env) stmts w).outcome = .ok (.none, .own env') w'

theorem Runs.nil : Runs ctx h env [] w env w := rfl

theorem Runs.cons {stmt : Stmt} {stmts : List Stmt} {env₁ : ParameterMap} {w₁ : World S}
    (hs : Steps ctx h env stmt w env₁ w₁) (hr : Runs ctx h env₁ stmts w₁ env' w') :
    Runs ctx h env (stmt :: stmts) w env' w' := (executeBlock_of_steps hs).trans hr

theorem Steps.ifStmt {location : Location} {condition : Expr} {thenBody elseBody : List Stmt}
    {b : Bool} {w₁ : World S}
    (hc : (evaluate ctx h (.own env) condition w).outcome = .ok (.bool b) w₁)
    (hb : Runs ctx h env (if b then thenBody else elseBody) w₁ env' w') :
    Steps ctx h env (.ifStmt location condition thenBody elseBody) w env' w' := by
  cases b with
  | true => exact Comp.tryCatch_of_ok ((Comp.bind_of_ok hc).trans hb)
  | false => exact Comp.tryCatch_of_ok ((Comp.bind_of_ok hc).trans hb)

theorem Raises.ifStmt {location : Location} {condition : Expr} {thenBody elseBody : List Stmt}
    {b : Bool} {w₁ : World S}
    (hc : (evaluate ctx h (.own env) condition w).outcome = .ok (.bool b) w₁)
    (hb : Raises (executeBlock ctx h (.own env) (if b then thenBody else elseBody)) w₁ w') :
    Raises (execute ctx h (.own env) (.ifStmt location condition thenBody elseBody)) w w' := by
  refine Raises.withContext (Raises.of_ok hc ?_) location
  cases b with
  | true => exact hb
  | false => exact hb

/-! ## Around the body -/

/-- The object has the values for its fields. -/
def HasFields (heap : Heap) (id : Nat) (fields : List VarDeclStmt) (values : List RuntimeValue) :
    Prop :=
  List.Forall₂ (fun field value => heap.field? id field.name = some value) fields values

/-- The fields by name. -/
def flat (fields : List VarDeclStmt) (values : List RuntimeValue) : List (String × RuntimeValue) :=
  (fields.map (·.name)).zip values

theorem field?_of_mem_flat {heap : Heap} {id : Nat} {fields : List VarDeclStmt}
    {values : List RuntimeValue} (hf : HasFields heap id fields values) :
    ∀ entry ∈ flat fields values, heap.field? id entry.1 = some entry.2 := by
  induction hf with
  | nil => exact fun _ hentry => absurd hentry List.not_mem_nil
  | cons hhead _ ih =>
    intro entry hentry
    rcases List.mem_cons.mp hentry with rfl | hrest
    · exact hhead
    · exact ih entry hrest

theorem flattenFields_outcome {receiver : Nat} {fields : List VarDeclStmt}
    {values : List RuntimeValue} (hf : HasFields w.heap receiver fields values)
    (env : ParameterMap) :
    (flattenFields ctx h receiver fields env w).outcome =
      .ok (env.assignAll (flat fields values)) w := by
  induction hf generalizing env with
  | nil => rfl
  | @cons field value fields values hhead _ ih =>
    have hvalue : (flattenedField ctx h receiver env field w).outcome = .ok value w := by
      unfold flattenedField fieldOf
      rw [Comp.outcome_gets_bind, hhead]
      rfl
    exact (Comp.bind_of_ok hvalue).trans (ih _)

theorem bindInputs_outcome {params : List ParamDecl} {args : List RuntimeValue}
    (hl : params.length = args.length) (name : String) (env : ParameterMap) (w : World S) :
    (bindInputs ctx h name params args env w).outcome =
      .ok (env.assignAll ((params.map (·.name)).zip args)) w := by
  induction params generalizing args env with
  | nil =>
    rw [List.length_eq_zero_iff.mp hl.symm]
    rfl
  | cons param params ih =>
    cases args with
    | nil => cases hl
    | cons arg args => exact ih (Nat.succ.inj hl) _

theorem syncFromReceiver_outcome {receiver : Nat} {fields : List VarDeclStmt}
    {values : List RuntimeValue} (hf : HasFields w.heap receiver fields values)
    (env : ParameterMap) :
    (syncFromReceiver receiver fields env w).outcome =
      .ok (env.assignAll (flat fields values)) w := by
  induction hf generalizing env with
  | nil => rfl
  | @cons field value fields values hhead _ ih =>
    have hvalue : (fieldOf receiver field.name w).outcome = .ok (some value) w := by
      rw [← hhead]
      rfl
    exact (Comp.bind_of_ok hvalue).trans (ih _)

theorem setField_self {heap : Heap} {id : Nat} {name : String}
    (hf : heap.field? id name = some value) : heap.setField id name value = heap := by
  obtain ⟨object, hobject, hvalue⟩ := Option.bind_eq_some_iff.mp hf
  have hsame : object.fields.assign name value = object.fields := by
    refine StdMap.ext fun k => ?_
    rw [StdMap.getElem?_assign]
    by_cases hk : name = k
    · rw [if_pos hk, ← hk, hvalue]
    · rw [if_neg hk]
  have hstructs : (heap.structs.modify id fun object =>
      { object with fields := object.fields.assign name value }) = heap.structs := by
    apply List.ext_getElem?
    intro i
    by_cases hi : id = i
    · rw [← hi, List.getElem?_modify_eq, hobject, Option.map_eq_map, Option.map_some, hsame]
    · rw [List.getElem?_modify_ne _ _ hi]
  unfold Heap.setField
  rw [hstructs]

/-- Writing back what the receiver has changes nothing. -/
theorem writeBack_outcome {receiver : Nat} {fields : List VarDeclStmt}
    (hf : ∀ field ∈ fields, ∃ value, env[field.name]? = some value ∧
      w.heap.field? receiver field.name = some value) :
    (writeBack receiver env fields w).outcome = .ok () w := by
  induction fields with
  | nil => rfl
  | cons field fields ih =>
    obtain ⟨value, henv, hheap⟩ := hf field List.mem_cons_self
    have hset : (setField receiver field.name value w).outcome = .ok () w := by
      change Base.Outcome.ok () { w with heap := w.heap.setField receiver field.name value } = _
      rw [setField_self hheap]
    unfold writeBack
    rw [henv]
    exact (Comp.bind_of_ok hset).trans (ih fun f hmem => hf f (List.mem_cons_of_mem _ hmem))

/-- The fields of the receiver win over what the body left in the map. -/
theorem finish_outcome {receiver : Nat} {decl : StructDecl} {values : List RuntimeValue}
    (hf : HasFields w.heap receiver decl.fields values) (routine : RoutineDecl)
    (env : ParameterMap) :
    (finish receiver decl routine env w).outcome =
      (collectOutputs routine.name (env.assignAll (flat decl.fields values))
        routine.outputParams w).outcome := by
  refine (Comp.bind_of_ok (syncFromReceiver_outcome hf env)).trans ?_
  refine Comp.bind_of_ok (writeBack_outcome ?_)
  intro field hfield
  have hname : field.name ∈ (flat decl.fields values).map Prod.fst := by
    unfold flat
    rw [List.map_fst_zip (by rw [List.length_map]; exact hf.length_eq.le)]
    exact List.mem_map_of_mem hfield
  obtain ⟨⟨_, value⟩, hentry, rfl⟩ := List.mem_map.mp hname
  obtain ⟨last, hlast⟩ := StdMap.exists_lastWrite hentry
  refine ⟨last, ?_, field?_of_mem_flat hf _ (StdMap.mem_of_lastWrite hlast)⟩
  rw [StdMap.getElem?_assignAll, hlast, Option.some_or]

section Routine

variable {receiver : Nat} {decl : StructDecl} {routine : RoutineDecl} {args : List RuntimeValue}
  {values : List RuntimeValue} {w₁ : World S}

theorem execStructRoutine_of_runs (hbody : routine.body.isEmpty = false)
    (henv : (routineEnvironment ctx h receiver decl routine args w).outcome = .ok env w₁)
    (hrun : Runs ctx h env routine.body w₁ env' w')
    (hf : HasFields w'.heap receiver decl.fields values) :
    (execStructRoutine ctx h receiver decl routine args w).outcome =
      (collectOutputs routine.name (env'.assignAll (flat decl.fields values))
        routine.outputParams w').outcome := by
  unfold execStructRoutine
  rw [if_neg (by rw [hbody]; exact Bool.false_ne_true)]
  refine (Comp.bind_of_ok henv).trans ?_
  exact (Comp.bind_of_ok hrun).trans (finish_outcome hf routine env')

theorem execStructRoutine_of_raises (hbody : routine.body.isEmpty = false)
    (henv : (routineEnvironment ctx h receiver decl routine args w).outcome = .ok env w₁)
    (hrun : Raises (executeBlock ctx h (.own env) routine.body) w₁ w') :
    Raises (execStructRoutine ctx h receiver decl routine args) w w' := by
  unfold execStructRoutine
  rw [if_neg (by rw [hbody]; exact Bool.false_ne_true)]
  exact Raises.of_ok henv hrun.bind

/-- The map of the body, up to the outputs. -/
theorem routineEnvironment_outcome (hf : HasFields w.heap receiver decl.fields values)
    (hl : routine.inputParams.length = args.length) :
    (routineEnvironment ctx h receiver decl routine args w).outcome =
      (initialiseOutputs ctx h routine.outputParams
        (((StdMap.assign ∅ "this" (RuntimeValue.struct receiver)).assignAll
          (flat decl.fields values)).assignAll
            ((routine.inputParams.map (·.name)).zip args)) w).outcome := by
  refine (Comp.bind_of_ok (flattenFields_outcome hf _)).trans ?_
  exact Comp.bind_of_ok (bindInputs_outcome hl _ _ _)

end Routine

/-! ## Fresh instances -/

/-- Fields that are declared without a value start with the default of their type. -/
def defaulted (id : Nat) (fields : List VarDeclStmt) (heap : Heap) : Heap :=
  fields.foldl (fun heap field => heap.setField id field.name (primitiveDefault field.type.baseType))
    heap

theorem initialiseFields_outcome {fields : List VarDeclStmt}
    (hf : ∀ field ∈ fields, field.initializer = none) (env : ParameterMap) (id : Nat)
    (w : World S) :
    (initialiseFields ctx h env id fields w).outcome =
      .ok () { w with heap := defaulted id fields w.heap } := by
  induction fields generalizing w with
  | nil => rfl
  | cons field fields ih =>
    have hvalue : (declaredValue ctx h env field w).outcome =
        .ok (primitiveDefault field.type.baseType) w := by
      unfold declaredValue
      rw [hf field List.mem_cons_self]
      rfl
    refine (Comp.bind_of_ok hvalue).trans ?_
    exact ih (fun f hmem => hf f (List.mem_cons_of_mem _ hmem)) _

/-- The declaration that a name stands for. -/
def found (types : TypeRegistry) (name : String) : Option StructDecl :=
  types.structRegistry[name]?.or ((genericBase name).bind fun base => types.structRegistry[base]?)

theorem lookupStruct_outcome (name : String) (w : World S) :
    (lookupStruct name w).outcome = .ok (found w.types name) w := by
  unfold lookupStruct found
  refine (Comp.bind_of_ok (registeredStruct_outcome name w)).trans ?_
  cases w.types.structRegistry[name]? with
  | some decl => rfl
  | none =>
    rw [Option.none_or]
    dsimp only
    cases genericBase name <;> rfl

theorem freshOutput_outcome {structName : String} {decl : StructDecl}
    (hd : found w.types structName = some decl)
    (hf : ∀ field ∈ decl.fields, field.initializer = none) (env : ParameterMap) :
    (freshOutput ctx h env structName w).outcome =
      .ok (.struct w.heap.structs.length)
        { w with
          heap := defaulted w.heap.structs.length decl.fields
            (w.heap.allocStruct { typeName := structName }).2 } := by
  have hmake : (makeStruct structName w).outcome = .ok w.heap.structs.length
      { w with heap := (w.heap.allocStruct { typeName := structName }).2 } := rfl
  have hlookup := lookupStruct_outcome structName
    { w with heap := (w.heap.allocStruct { typeName := structName }).2 }
  dsimp only at hlookup
  rw [hd] at hlookup
  refine (Comp.bind_of_ok hmake).trans ?_
  refine (Comp.bind_of_ok hlookup).trans ?_
  exact Comp.bind_of_ok (initialiseFields_outcome hf _ _ _)

/-- A call on an instance runs the routine that its declaration has under the name. -/
theorem callOnValue_outcome {id : Nat} {object : StructInstance} {decl : StructDecl}
    {routine : RoutineDecl} {name : String} {args : M S (List RuntimeValue)}
    {values : List RuntimeValue} (hobject : w.heap.structs[id]? = some object)
    (hd : found w.types object.typeName = some decl) (hfind : decl.findRoutine name = some routine)
    (hargs : (args w).outcome = .ok values w) :
    (ExprEvaluator.callOnValue ctx h (.struct id) name args w).outcome =
      ((h.execStructRoutine id decl routine values >>= packResult) w).outcome := by
  have hlookup := lookupStruct_outcome object.typeName w
  rw [hd] at hlookup
  unfold ExprEvaluator.callOnValue structAt
  dsimp only
  rw [Comp.outcome_gets_bind, hobject]
  dsimp only
  rw [Comp.bind_of_ok hlookup]
  dsimp only
  rw [hfind]
  exact Comp.bind_of_ok hargs

/-- Outputs of types that are no structs are not bound before the body. -/
theorem initialiseOutputs_outcome {outs : List ParamDecl}
    (ho : ∀ out ∈ outs, out.type.isStruct = false ∧ out.defaultValue = none)
    (env : ParameterMap) (w : World S) :
    (initialiseOutputs ctx h outs env w).outcome = .ok env w := by
  induction outs with
  | nil => rfl
  | cons out outs ih =>
    obtain ⟨htype, hdefault⟩ := ho out List.mem_cons_self
    unfold initialiseOutputs
    rw [if_neg (by rw [htype]; exact Bool.false_ne_true), hdefault]
    exact ih fun o hmem => ho o (List.mem_cons_of_mem _ hmem)

/-- An output of a struct type starts as a fresh instance. -/
theorem initialiseOutputs_struct {out : ParamDecl} (htype : out.type.isStruct = true)
    (hfresh : (freshOutput ctx h env out.type.structName w).outcome = .ok value w') :
    (initialiseOutputs ctx h [out] env w).outcome = .ok (env.assign out.name value) w' := by
  unfold initialiseOutputs
  rw [if_pos htype]
  exact Comp.bind_of_ok hfresh

/-! ## Static calls -/

/-- While no variable has its name, a generic struct is the receiver of a call whose value is
declared as one of its instances. -/
theorem staticReceiver_outcome {base : String} {args : List TypeDescriptor} {decl : StructDecl}
    {info : ExprInfo} (hdecl : w.types.structRegistry[base]? = some decl)
    (henv : env[base]? = none) (hplain : stripModulePrefix base = base)
    (hbase : genericBase (TypeDescriptor.instanceName base args) = some base)
    (hargs : args.isEmpty = false)
    (hinfo : info.inferredType = some (.makeGenericStruct base args)) :
    (ExprEvaluator.staticReceiver (.own env) info (.var {} base) w).outcome =
      .ok (some (decl, args)) w := by
  have hgeneric : (TypeDescriptor.makeGenericStruct base args).isGenericStruct = true := by
    unfold TypeDescriptor.isGenericStruct TypeDescriptor.makeGenericStruct
    dsimp only
    rw [hargs]
    rfl
  have hinjected : ExprEvaluator.injectedReceiver info base = (base, args) := by
    unfold ExprEvaluator.injectedReceiver
    rw [hinfo]
    dsimp only
    rw [if_pos hgeneric]
    change ((genericBase (TypeDescriptor.instanceName base args)).getD base, args) = _
    rw [hbase, Option.getD_some]
  have hlookup : (ExprEvaluator.lookupReceiver base w).outcome = .ok (some decl) w := by
    have hfound := lookupStruct_outcome base w
    unfold found at hfound
    rw [hdecl, Option.some_or] at hfound
    exact Comp.bind_of_ok hfound
  have hunbound : (env[base]?.isNone && env[stripModulePrefix base]?.isNone) = true := by
    rw [hplain, henv]
    rfl
  unfold ExprEvaluator.staticReceiver
  dsimp only
  rw [hinjected]
  refine (Comp.bind_of_ok hlookup).trans ?_
  rw [Comp.outcome_gets_bind]
  change ((if (env[base]?.isNone && env[stripModulePrefix base]?.isNone) = true then _
    else _ : M S _) w).outcome = _
  rw [if_pos hunbound]
  rfl

/-- A write to an object behind the prefix leaves the prefix. -/
theorem prefix_setField {heap : Heap} {objects : List StructInstance}
    (h : objects <+: heap.structs) {id : Nat} (hid : objects.length ≤ id) (name : String)
    (value : RuntimeValue) : objects <+: (heap.setField id name value).structs := by
  refine List.prefix_iff_getElem?.mpr fun i hi => ?_
  unfold Heap.setField
  dsimp only
  rw [List.getElem?_modify_ne _ _ (by omega)]
  exact List.prefix_iff_getElem?.mp h i hi

theorem length_setField (heap : Heap) (id : Nat) (name : String) (value : RuntimeValue) :
    (heap.setField id name value).structs.length = heap.structs.length := List.length_modify _ _ _

/-- The receiver has got a fresh instance in each of the fields. -/
structure Fills (heap heap' : Heap) (receiver : Nat) (fields : List VarDeclStmt)
    (values : List RuntimeValue) : Prop where
  filled : HasFields heap' receiver fields values
  others : ∀ name, name ∉ fields.map (·.name) →
    heap'.field? receiver name = heap.field? receiver name
  structs : ∀ objects, objects <+: heap.structs → objects.length ≤ receiver →
    objects <+: heap'.structs
  arrays : heap'.arrays = heap.arrays

theorem fillReceiver_outcome {fields : List VarDeclStmt}
    (hf : ∀ field ∈ fields, field.initializer = none ∧ field.type.baseType = .struct)
    (hn : (fields.map (·.name)).Nodup) {receiver : Nat}
    (hr : receiver < w.heap.structs.length) (vars : Variables) :
    ∃ heap values, (ExprEvaluator.fillReceiver h vars receiver fields w).outcome =
        .ok () { w with heap := heap } ∧ Fills w.heap heap receiver fields values := by
  induction fields generalizing w with
  | nil => exact ⟨w.heap, [], rfl, .nil, fun _ _ => rfl, fun _ ho _ => ho, rfl⟩
  | cons field fields ih =>
    obtain ⟨hnone, hstruct⟩ := hf field List.mem_cons_self
    obtain ⟨hfresh, hrest⟩ := List.nodup_cons.mp hn
    let value : RuntimeValue := .struct w.heap.structs.length
    let made : Heap := (w.heap.allocStruct { typeName := field.type.structName }).2
    let written : World S := { w with heap := made.setField receiver field.name value }
    have hmade : receiver < made.structs.length := by
      change receiver < (w.heap.structs ++ [_]).length
      rw [List.length_append]
      exact Nat.lt_add_right _ hr
    have hvalue : (ExprEvaluator.receiverField h vars field w).outcome =
        .ok value { w with heap := made } := by
      unfold ExprEvaluator.receiverField
      rw [hnone, hstruct]
      rfl
    have hwritten : receiver < written.heap.structs.length :=
      (length_setField made receiver field.name value).symm ▸ hmade
    obtain ⟨heap, values, houtcome, hfills⟩ :=
      ih (fun f hmem => hf f (List.mem_cons_of_mem _ hmem)) hrest hwritten
    refine ⟨heap, value :: values, (Comp.bind_of_ok hvalue).trans houtcome,
      .cons ?_ hfills.filled, ?_, ?_, hfills.arrays⟩
    · rw [hfills.others field.name hfresh]
      exact (Heap.field?_setField _ _ _ _ _ _ hmade).trans (if_pos ⟨rfl, rfl⟩)
    · intro name hname
      obtain ⟨hne, hothers⟩ := not_or.mp (mt List.mem_cons.mpr hname)
      rw [hfills.others name hothers]
      refine (Heap.field?_setField _ _ _ _ _ _ hmade).trans ?_
      rw [if_neg fun h => hne h.2.symm]
      unfold Heap.field?
      change (w.heap.structs ++ [_])[receiver]?.bind _ = _
      rw [List.getElem?_append_left hr]
    · intro objects ho hlen
      refine hfills.structs objects ?_ hlen
      exact prefix_setField (ho.trans (List.prefix_append _ _)) hlen _ _

/-- A static call gets a receiver of its own. -/
theorem constructReceiver_outcome {decl : StructDecl}
    (hf : ∀ field ∈ decl.fields, field.initializer = none ∧ field.type.baseType = .struct)
    (hn : (decl.fields.map (·.name)).Nodup) (vars : Variables) (w : World S) :
    ∃ heap values, (ExprEvaluator.constructReceiver h vars decl w).outcome =
        .ok w.heap.structs.length { w with heap := heap } ∧
      HasFields heap w.heap.structs.length decl.fields values ∧
      w.heap.structs <+: heap.structs ∧ heap.arrays = w.heap.arrays := by
  let made : World S :=
    { w with heap := (w.heap.allocStruct { typeName := decl.name }).2 }
  have hmade : (makeStruct decl.name w).outcome = .ok w.heap.structs.length made := rfl
  have hlength : w.heap.structs.length < made.heap.structs.length := by
    change _ < (w.heap.structs ++ [_]).length
    rw [List.length_append]
    exact Nat.lt_succ_self _
  obtain ⟨heap, values, houtcome, hfills⟩ := fillReceiver_outcome (h := h) hf hn hlength vars
  refine ⟨heap, values, (Comp.bind_of_ok hmade).trans (Comp.bind_of_ok houtcome), hfills.filled,
    hfills.structs _ (List.prefix_append _ _) (Nat.le_refl _), hfills.arrays⟩

end FalconLib.Dsl.RoutineRuns
