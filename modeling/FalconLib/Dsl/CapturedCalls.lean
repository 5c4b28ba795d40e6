import FalconLib.Dsl.ArgumentBinding
import FalconLib.Dsl.OutputCapture

/-!
# Expressions without tuples

Where no variable, field or element is a tuple, the value of an expression is none unless its
outermost call has several outputs, and its calls leave the world as it should be.
-/

namespace FalconLib.Dsl.OutputCapture

open FalconLib.Base
open FalconLib.Base.Comp (Guarded)
open ExprEvaluator

variable {S : Type} {α : Type}

/-! ## Worlds without tuples in them -/

def Plain (value : RuntimeValue) : Prop := isTuple value = false

def PlainAll (values : List RuntimeValue) : Prop := ∀ value ∈ values, Plain value

def PlainMap (map : ParameterMap) : Prop :=
  ∀ (name : String) value, map[name]? = some value → Plain value

def PlainVars : Variables → Prop
  | .member => True
  | .own map => PlainMap map

/-- The tuples themselves are there, with no tuple in them. -/
structure PlainHeap (heap : Heap) : Prop where
  tuples : ∀ values ∈ heap.tuples, PlainAll values
  structs : ∀ object ∈ heap.structs, PlainMap object.fields
  arrays : ∀ array ∈ heap.arrays, PlainAll array.elements

/-- What a foreign call should return and leave. -/
def PlainAnswer (answer : Except Exception FunctionResult × Heap × S) : Prop :=
  PlainHeap answer.2.1 ∧ ∀ values, answer.1 = .ok values → PlainAll values

/-- Foreign code neither returns nor stores tuples. -/
structure PlainHost (host : Host S) : Prop where
  call : ∀ symbol params heap store, PlainMap params → PlainHeap heap →
    PlainAnswer (host.call symbol params heap store)
  callMethod : ∀ symbol object params heap store, Plain object → PlainMap params →
    PlainHeap heap → PlainAnswer (host.callMethod symbol object params heap store)

def OneOutput (host : Host S) (method : ForeignSymbol) : Prop :=
  ∀ object params heap store values,
    (host.callMethod method object params heap store).1 = .ok values → values.length ≤ 1

/-- Built-in types have no methods, and a foreign `GetIndex` has one output. -/
structure PlainWorld (host : Host S) (w : World S) : Prop where
  member : PlainMap w.memberVariables
  heap : PlainHeap w.heap
  builtin : w.types.typeMethods = ∅
  index : ∀ (typeName : String) methods method, w.types.ffiMethods[typeName]? = some methods →
    methods["GetIndex"]? = some method → OneOutput host method

theorem plain_struct (id : Nat) : Plain (.struct id) := rfl

theorem plain_nil : Plain .nil := rfl

theorem plain_bool (b : Bool) : Plain (.bool b) := rfl

theorem plain_float (x : Binary64) : Plain (.float x) := rfl

theorem plain_ofLiteral (value : Literal) : Plain (RuntimeValue.ofLiteral value) := by
  cases value <;> rfl

theorem plain_primitiveDefault (type : ParamType) : Plain (primitiveDefault type) := by
  cases type <;> rfl

theorem PlainAll.cons {value : RuntimeValue} {values : List RuntimeValue} (h : Plain value)
    (hs : PlainAll values) : PlainAll (value :: values) := List.forall_mem_cons.mpr ⟨h, hs⟩

theorem plainMap_empty : PlainMap ∅ := fun _ _ h => nomatch h

theorem PlainMap.assign {map : ParameterMap} (h : PlainMap map) (name : String)
    {value : RuntimeValue} (hv : Plain value) : PlainMap (map.assign name value) := by
  intro other v hother
  rw [StdMap.getElem?_assign] at hother
  split at hother
  · cases hother
    exact hv
  · exact h other v hother

theorem PlainMap.assignAll {map : ParameterMap} (h : PlainMap map)
    {writes : List (String × RuntimeValue)} (hw : ∀ write ∈ writes, Plain write.2) :
    PlainMap (map.assignAll writes) := by
  induction writes generalizing map with
  | nil => exact h
  | cons write writes ih =>
    obtain ⟨hfirst, hrest⟩ := List.forall_mem_cons.mp hw
    exact ih (h.assign write.1 hfirst) hrest

theorem PlainMap.restrict {map : ParameterMap} (h : PlainMap map) (keys : List String) :
    PlainMap (map.restrict keys) := by
  intro name value hname
  rw [StdMap.getElem?_restrict] at hname
  split at hname
  · exact h name value hname
  · cases hname

theorem plainVars_member : PlainVars .member := trivial

theorem PlainMap.own {map : ParameterMap} (h : PlainMap map) : PlainVars (.own map) := h

theorem PlainVars.read {host : Host S} {vars : Variables} (h : PlainVars vars) {w : World S}
    (hw : PlainWorld host w) : PlainMap (vars.read w) := by
  cases vars with
  | member => exact hw.member
  | own map => exact h

theorem holdsTuple_eq_false {map : ParameterMap} (h : PlainMap map) : holdsTuple map = false := by
  refine List.any_eq_false.mpr fun name _ => ?_
  cases hname : map[name]? with
  | none => exact Bool.false_ne_true
  | some value =>
    rw [Option.any_some, h name value hname]
    exact Bool.false_ne_true

/-! ## The heap -/

section Heap

variable {heap : Heap}

theorem PlainHeap.allocStruct (h : PlainHeap heap) (typeName : String) :
    PlainHeap (heap.allocStruct { typeName := typeName }).2 := by
  refine ⟨h.tuples, fun object hobject => ?_, h.arrays⟩
  rcases List.mem_append.mp hobject with hold | hnew
  · exact h.structs object hold
  · rw [List.mem_singleton.mp hnew]
    exact plainMap_empty

theorem PlainHeap.allocTuple (h : PlainHeap heap) {values : List RuntimeValue}
    (hv : PlainAll values) : PlainHeap (heap.allocTuple values).2 := by
  refine ⟨fun tuple htuple => ?_, h.structs, h.arrays⟩
  rcases List.mem_append.mp htuple with hold | hnew
  · exact h.tuples tuple hold
  · rw [List.mem_singleton.mp hnew]
    exact hv

theorem PlainHeap.setField (h : PlainHeap heap) (id : Nat) (name : String) {value : RuntimeValue}
    (hv : Plain value) : PlainHeap (heap.setField id name value) := by
  refine ⟨h.tuples, fun object hobject => ?_, h.arrays⟩
  obtain ⟨i, hi⟩ := List.mem_iff_getElem?.mp hobject
  change (heap.structs.modify id _)[i]? = _ at hi
  by_cases hid : id = i
  · subst hid
    rw [List.getElem?_modify_eq] at hi
    obtain ⟨old, hold, rfl⟩ := Option.map_eq_some_iff.mp hi
    exact (h.structs old (List.mem_of_getElem? hold)).assign name hv
  · rw [List.getElem?_modify_ne _ _ hid] at hi
    exact h.structs object (List.mem_of_getElem? hi)

theorem PlainHeap.field (h : PlainHeap heap) {id : Nat} {name : String} {value : RuntimeValue}
    (hf : heap.field? id name = some value) : Plain value := by
  obtain ⟨object, hobject, hfield⟩ := Option.bind_eq_some_iff.mp hf
  exact h.structs object (List.mem_of_getElem? hobject) name value hfield

end Heap

/-! ## Access to the world -/

/-- The disciplined computation, without and with its watch, and the plain one. -/
abbrev Kept (host : Host S) (p : α → Prop) (c : Bool → M S α) (m : M S α) : Prop :=
  Guarded (PlainWorld host) p c m

/-- Where at most one output is meant, the value is no tuple. -/
def Value (few : Bool) (value : RuntimeValue) : Prop := few = true → Plain value

def Outputs (few : Bool) (outputs : FunctionResult) : Prop :=
  PlainAll outputs ∧ (few = true → outputs.length ≤ 1)

section Access

variable {host : Host S}

theorem evaluationError_kept {p : α → Prop} (message : String) :
    Kept host p (fun _ => evaluationError message) (evaluationError message) := Guarded.throw _

theorem getHeap_kept : Kept host PlainHeap (fun _ => getHeap) getHeap :=
  Guarded.gets fun _ hw => hw.heap

theorem structAt_kept (id : Nat) :
    Kept host (fun _ => True) (fun _ => structAt id) (structAt id) :=
  Guarded.gets fun _ _ => trivial

theorem modifyHeap_kept {f : Heap → Heap} (hf : ∀ heap, PlainHeap heap → PlainHeap (f heap)) :
    Kept host (fun _ => True) (fun _ => modifyHeap f) (modifyHeap f) :=
  Guarded.modify fun _ hw => ⟨hw.member, hf _ hw.heap, hw.builtin, hw.index⟩

theorem setField_kept (id : Nat) (name : String) {value : RuntimeValue} (hv : Plain value) :
    Kept host (fun _ => True) (fun _ => setField id name value) (setField id name value) :=
  modifyHeap_kept fun _ h => h.setField id name hv

theorem makeStruct_kept (typeName : String) :
    Kept host (fun _ => True) (fun _ => makeStruct typeName) (makeStruct typeName) :=
  getHeap_kept.bind fun _ _ =>
    (modifyHeap_kept fun _ h => h.allocStruct typeName).bind fun _ _ => Guarded.pure trivial

theorem packResult_kept {few : Bool} {outputs : FunctionResult} (h : Outputs few outputs) :
    Kept host (Value few) (fun _ => packResult outputs) (packResult outputs) := by
  obtain ⟨hplain, hfew⟩ := h
  match outputs with
  | [] => exact Guarded.pure fun _ => plain_nil
  | [value] => exact Guarded.pure fun _ => hplain value List.mem_cons_self
  | first :: second :: rest =>
    refine getHeap_kept.bind fun heap _ => ?_
    refine (modifyHeap_kept fun _ h => h.allocTuple hplain).bind fun _ _ => Guarded.pure fun htrue => ?_
    have hlength := hfew htrue
    simp only [List.length_cons] at hlength
    omega

theorem runHost_kept {p : FunctionResult → Prop}
    {f : Heap → S → Except Exception FunctionResult × Heap × S}
    (hf : ∀ heap store, PlainHeap heap → PlainAnswer (f heap store))
    (hp : ∀ heap store values, PlainAll values → (f heap store).1 = .ok values → p values) :
    Kept host p (fun _ => runHost f) (runHost f) := by
  refine Guarded.const fun w values w' hw ho => ?_
  obtain ⟨hheap, hvalues⟩ := hf w.heap w.store hw.heap
  have hresult := hp w.heap w.store
  rcases hanswer : f w.heap w.store with ⟨result, heap, store⟩
  rw [runHost_outcome hanswer] at ho
  rw [hanswer] at hheap hvalues hresult
  cases result with
  | ok answer =>
    cases ho
    exact ⟨⟨hw.member, hheap, hw.builtin, hw.index⟩, hresult _ (hvalues _ rfl) rfl⟩
  | error e => cases ho

theorem registeredStruct_kept (name : String) :
    Kept host (fun _ => True) (fun _ => registeredStruct name) (registeredStruct name) :=
  (Guarded.ask _).bind fun _ _ => Guarded.gets fun _ _ => trivial

theorem lookupStruct_kept (name : String) :
    Kept host (fun _ => True) (fun _ => lookupStruct name) (lookupStruct name) := by
  refine (registeredStruct_kept name).bind fun found _ => ?_
  cases found with
  | some decl => exact Guarded.pure trivial
  | none =>
    refine (Guarded.ask _).bind fun _ _ => ?_
    cases genericBase name with
    | some base => exact registeredStruct_kept base
    | none => exact Guarded.pure trivial

/-- What is found under `GetIndex` has one output. -/
def Indexing (host : Host S) (methodName : String) (found : Option ForeignSymbol) : Prop :=
  methodName = "GetIndex" → ∀ method, found = some method → OneOutput host method

theorem registeredFfiMethod_kept (typeName methodName : String) :
    Kept host (Indexing host methodName) (fun _ => registeredFfiMethod typeName methodName)
      (registeredFfiMethod typeName methodName) := by
  refine (Guarded.ask _).bind fun _ _ => Guarded.gets fun w hw => ?_
  rintro rfl method hmethod
  obtain ⟨methods, hmethods, hfound⟩ := Option.bind_eq_some_iff.mp hmethod
  exact hw.index typeName methods method hmethods hfound

theorem lookupFfiMethod_kept (typeName methodName : String) :
    Kept host (Indexing host methodName) (fun _ => lookupFfiMethod typeName methodName)
      (lookupFfiMethod typeName methodName) := by
  refine (registeredFfiMethod_kept typeName methodName).bind fun found hfound => ?_
  cases found with
  | some method => exact Guarded.pure hfound
  | none =>
    cases genericBase typeName with
    | some base => exact registeredFfiMethod_kept base methodName
    | none => exact Guarded.pure fun _ _ h => nomatch h

theorem ffiMethodOrBase_kept (typeName methodName : String) :
    Kept host (Indexing host methodName) (fun _ => ffiMethodOrBase typeName methodName)
      (ffiMethodOrBase typeName methodName) := by
  refine (lookupFfiMethod_kept typeName methodName).bind fun found hfound => ?_
  cases found with
  | some method => exact Guarded.pure hfound
  | none =>
    cases genericBase typeName with
    | some base => exact lookupFfiMethod_kept base methodName
    | none => exact Guarded.pure fun _ _ h => nomatch h

theorem registeredMethod_kept (typeName methodName : String) :
    Kept host (· = none) (fun _ => registeredMethod typeName methodName)
      (registeredMethod typeName methodName) := by
  refine (Guarded.ask _).bind fun _ _ => Guarded.gets fun w hw => ?_
  rw [hw.builtin]
  rfl

theorem lookupMethod_kept (typeName methodName : String) :
    Kept host (· = none) (fun _ => lookupMethod typeName methodName)
      (lookupMethod typeName methodName) := by
  refine (registeredMethod_kept typeName methodName).bind fun found hfound => ?_
  subst hfound
  dsimp only
  split
  · exact registeredMethod_kept _ _
  · exact Guarded.pure rfl

end Access

/-! ## Variables, members and operators -/

section Accesses

variable {host : Host S} {vars : Variables}

theorem evalVariable_kept (hv : PlainVars vars) (name : String) :
    Kept host Plain (fun _ => evalVariable vars name) (evalVariable vars name) := by
  refine (Guarded.gets (p := PlainMap) fun _ hw => hv.read hw).bind fun map hmap => ?_
  split
  · rename_i value hname
    exact Guarded.pure (hmap name value hname)
  · split
    · split
      · rename_i value hname
        exact Guarded.pure (hmap _ value hname)
      · exact evaluationError_kept _
    · exact evaluationError_kept _

theorem getField_kept (id : Nat) (name : String) :
    Kept host Plain (fun _ => getField id name) (getField id name) := by
  refine getHeap_kept.bind fun heap hheap => ?_
  split
  · rename_i value hvalue
    exact Guarded.pure (hheap.field hvalue)
  · have hunset : Plain RuntimeValue.unset := rfl
    exact (setField_kept id name hunset).bind fun _ _ => Guarded.pure hunset

theorem evalMember_kept (object : RuntimeValue) (member : String) :
    Kept host Plain (fun _ => evalMember object member) (evalMember object member) := by
  unfold evalMember
  split
  · refine (structAt_kept _).bind fun found _ => ?_
    split
    · exact getField_kept _ _
    · exact evaluationError_kept _
  · exact getHeap_kept.bind fun _ _ => evaluationError_kept _

end Accesses

/-- The result of an operator is no tuple. -/
def PlainResult (result : OpResult) : Prop := ∀ value, result.value? = some value → Plain value

theorem plainResult_value {value : RuntimeValue} (h : Plain value) :
    PlainResult (OpResult.value value) := by
  intro v hv
  cases hv
  exact h

theorem plainResult_error (message : String) : PlainResult (OpResult.error message) :=
  fun _ h => nomatch h

theorem plainResult_badVariantAccess : PlainResult OpResult.badVariantAccess :=
  fun _ h => nomatch h

theorem plainResult_int64 (i : Int) : PlainResult (OpResult.int64 i) := by
  unfold OpResult.int64
  split
  · exact plainResult_value rfl
  · exact fun _ h => nomatch h

theorem plainResult_numeric {onInts : Int → Int → OpResult}
    {onDoubles : Binary64 → Binary64 → OpResult} {other : OpResult}
    (hints : ∀ a b, PlainResult (onInts a b)) (hdoubles : ∀ a b, PlainResult (onDoubles a b))
    (hother : PlainResult other) (left right : RuntimeValue) :
    PlainResult (numeric onInts onDoubles other left right) := by
  unfold numeric
  split
  · exact hints _ _
  · split
    · exact hdoubles _ _
    · exact plainResult_badVariantAccess
  · split
    · exact hdoubles _ _
    · exact plainResult_badVariantAccess
  · exact hother

theorem plainResult_compared {onInts : Int → Int → Bool} {onDoubles : Binary64 → Binary64 → Bool}
    {other : OpResult} (hother : PlainResult other) (left right : RuntimeValue) :
    PlainResult (compared onInts onDoubles other left right) :=
  plainResult_numeric (fun _ _ => plainResult_value (plain_bool _))
    (fun _ _ => plainResult_value (plain_bool _)) hother left right

theorem plainResult_logical (decisive : Bool) (left right : RuntimeValue) :
    PlainResult (logical decisive left right) := by
  unfold logical
  split
  · split
    · exact plainResult_value rfl
    · split
      · exact plainResult_value rfl
      · exact plainResult_badVariantAccess
  · exact plainResult_badVariantAccess

theorem plainResult_arithmetic {onInts : Int → Int → Int}
    {onDoubles : Binary64 → Binary64 → Binary64} (message : String) (left right : RuntimeValue) :
    PlainResult (numeric (fun a b => .int64 (onInts a b)) (fun a b => .value (.float (onDoubles a b)))
      (.error message) left right) :=
  plainResult_numeric (fun _ _ => plainResult_int64 _)
    (fun _ _ => plainResult_value (plain_float _)) (plainResult_error _) left right

theorem plainResult_division (message : String) (left right : RuntimeValue) :
    PlainResult (numeric
      (fun a b => if b = 0 then .error "Division by zero" else .int64 (a.tdiv b))
      (fun a b =>
        if b.eq ⟨0⟩ then .error "Division by zero" else .value (.float (a.div b)))
      (.error message) left right) := by
  refine plainResult_numeric (fun a b => ?_) (fun a b => ?_) (plainResult_error _) left right
  · split
    · exact plainResult_error _
    · exact plainResult_int64 _
  · split
    · exact plainResult_error _
    · exact plainResult_value rfl

theorem plainResult_applyBinaryOp (heap : Heap) (op : String) (left right : RuntimeValue) :
    PlainResult (applyBinaryOp heap op left right) := by
  unfold applyBinaryOp
  dsimp only
  split
  · split
    · exact plainResult_value rfl
    · exact plainResult_arithmetic _ _ _
  · exact plainResult_arithmetic _ _ _
  · exact plainResult_arithmetic _ _ _
  · exact plainResult_division _ _ _
  · exact plainResult_value rfl
  · exact plainResult_value rfl
  · exact plainResult_compared (plainResult_error _) _ _
  · exact plainResult_compared (plainResult_error _) _ _
  · exact plainResult_compared (plainResult_error _) _ _
  · exact plainResult_compared (plainResult_error _) _ _
  · exact plainResult_logical _ _ _
  · exact plainResult_logical _ _ _
  · exact plainResult_error _

theorem plainResult_applyUnaryOp (op : String) (operand : RuntimeValue) :
    PlainResult (applyUnaryOp op operand) := by
  unfold applyUnaryOp
  dsimp only
  split
  · split
    · exact plainResult_value rfl
    · exact plainResult_badVariantAccess
  · split
    · exact plainResult_int64 _
    · exact plainResult_value rfl
    · exact plainResult_error _
  · exact plainResult_error _

/-! ## Struct receivers -/

section Receivers

variable {host : Host S}

theorem monomorphizeStruct_kept (base : StructDecl) (typeArgs : List TypeDescriptor) :
    Kept host (fun _ => True) (fun _ => monomorphizeStruct base typeArgs)
      (monomorphizeStruct base typeArgs) := by
  refine (registeredStruct_kept _).bind fun found _ => ?_
  cases found with
  | some decl => exact Guarded.pure trivial
  | none =>
    refine (Guarded.ask _).bind fun _ _ => ?_
    split
    · refine (Guarded.modify fun w hw => ?_).bind fun _ _ => Guarded.pure trivial
      exact ⟨hw.member, hw.heap, hw.builtin, hw.index⟩
    · exact Guarded.throw _

theorem instantiate_kept (decl : StructDecl) (typeArgs : List TypeDescriptor) :
    Kept host (fun _ => True) (fun _ => instantiate decl typeArgs)
      (instantiate decl typeArgs) := by
  unfold instantiate
  split
  · exact monomorphizeStruct_kept decl typeArgs
  · exact Guarded.pure trivial

theorem lookupReceiver_kept (lookupName : String) :
    Kept host (fun _ => True) (fun _ => lookupReceiver lookupName)
      (lookupReceiver lookupName) := by
  refine (lookupStruct_kept _).bind fun found _ => ?_
  cases found with
  | some decl => exact Guarded.pure trivial
  | none =>
    dsimp only
    split
    · exact lookupStruct_kept _
    · exact Guarded.pure trivial

theorem staticReceiver_kept (vars : Variables) (info : ExprInfo) (receiver : Expr) :
    Kept host (fun _ => True) (fun _ => staticReceiver vars info receiver)
      (staticReceiver vars info receiver) := by
  unfold staticReceiver
  split
  · refine (lookupReceiver_kept _).bind fun found _ => ?_
    refine (Guarded.gets (p := fun _ => True) fun _ _ => trivial).bind fun map _ => ?_
    split
    · split
      · exact Guarded.pure trivial
      · exact Guarded.pure trivial
    · exact Guarded.pure trivial
  · exact Guarded.pure trivial

end Receivers

/-! ## Calls -/

/-- What calls through the handlers keep; where few is meant they have at most one output. -/
structure HandlersKept (few : Bool) (host : Host S) (g : Bool → Handlers S) (h : Handlers S) :
    Prop where
  evaluate : ∀ vars e, PlainVars vars →
    Kept host Plain (fun watch => (g watch).evaluate vars e) (h.evaluate vars e)
  execStructRoutine : ∀ receiver decl routine callArgs, PlainAll callArgs →
    Kept host (Outputs few)
      (fun watch => (g watch).execStructRoutine receiver decl routine callArgs)
      (h.execStructRoutine receiver decl routine callArgs)
  callFunction : ∀ function params, PlainMap params →
    Kept host (Outputs few) (fun watch => (g watch).callFunction function params)
      (h.callFunction function params)

theorem atMostOne_kept {host : Host S} {outputs : FunctionResult}
    (h : Outputs false outputs) :
    Kept host (Outputs true) (fun _ => atMostOne outputs) (pure outputs) := by
  unfold atMostOne
  split
  · rename_i hfew
    exact Guarded.pure ⟨h.1, fun _ => hfew⟩
  · exact Guarded.stopped _

theorem HandlersKept.narrow {host : Host S} {g : Bool → Handlers S} {h : Handlers S}
    (hh : HandlersKept false host g h) :
    HandlersKept true host (fun watch => OutputCapture.narrow (g watch)) h where
  evaluate := hh.evaluate
  execStructRoutine receiver decl routine callArgs hargs :=
    (hh.execStructRoutine receiver decl routine callArgs hargs).check fun _ => atMostOne_kept
  callFunction function params hparams :=
    (hh.callFunction function params hparams).check fun _ => atMostOne_kept

section Calls

variable {few : Bool} {ctx : Context S} {g : Bool → Handlers S} {h : Handlers S}
  {vars : Variables} (hh : HandlersKept few ctx.host g h)
include hh

theorem receiverField_kept (hv : PlainVars vars) (field : VarDeclStmt) :
    Kept ctx.host Plain (fun watch => receiverField (g watch) vars field)
      (receiverField h vars field) := by
  unfold receiverField
  split
  · exact hh.evaluate vars _ hv
  · split
    · exact (makeStruct_kept _).bind fun id _ => Guarded.pure (plain_struct id)
    · exact Guarded.pure (plain_primitiveDefault _)

theorem fillReceiver_kept (hv : PlainVars vars) (receiver : Nat) : ∀ fields : List VarDeclStmt,
    Kept ctx.host (fun _ => True) (fun watch => fillReceiver (g watch) vars receiver fields)
      (fillReceiver h vars receiver fields)
  | [] => Guarded.pure trivial
  | field :: fields =>
    (receiverField_kept hh hv field).bind fun _ hvalue =>
      (setField_kept receiver field.name hvalue).bind fun _ _ =>
        fillReceiver_kept hv receiver fields

theorem constructReceiver_kept (hv : PlainVars vars) (decl : StructDecl) :
    Kept ctx.host (fun _ => True) (fun watch => constructReceiver (g watch) vars decl)
      (constructReceiver h vars decl) :=
  (makeStruct_kept _).bind fun _ _ =>
    (fillReceiver_kept hh hv _ _).bind fun _ _ => Guarded.pure trivial

variable {object : M S RuntimeValue} {args : M S (List RuntimeValue)}
  {objects : Bool → M S RuntimeValue} {argLists : Bool → M S (List RuntimeValue)}

theorem callStatic_kept (hv : PlainVars vars) (decl : StructDecl)
    (typeArgs : List TypeDescriptor) (methodName : String)
    (ha : Kept ctx.host PlainAll argLists args) :
    Kept ctx.host (Value few)
      (fun watch => callStatic (g watch) vars decl typeArgs methodName (argLists watch))
      (callStatic h vars decl typeArgs methodName args) := by
  refine (instantiate_kept _ _).bind fun decl _ => ?_
  split
  · exact evaluationError_kept _
  · exact (constructReceiver_kept hh hv decl).bind fun receiver _ =>
      ha.bind fun callArgs hcallArgs =>
        (hh.execStructRoutine receiver decl _ callArgs hcallArgs).bind fun _ houtputs =>
          packResult_kept houtputs

theorem callOnValue_kept {value : RuntimeValue} (methodName : String)
    (ha : Kept ctx.host PlainAll argLists args) :
    Kept ctx.host (Value few)
      (fun watch => callOnValue ctx (g watch) value methodName (argLists watch))
      (callOnValue ctx h value methodName args) := by
  unfold callOnValue
  split
  · refine (structAt_kept _).bind fun found _ => ?_
    split
    · exact evaluationError_kept _
    · refine (lookupStruct_kept _).bind fun decl _ => ?_
      split
      · exact evaluationError_kept _
      · split
        · exact evaluationError_kept _
        · exact ha.bind fun callArgs hcallArgs =>
            (hh.execStructRoutine _ _ _ callArgs hcallArgs).bind fun _ houtputs =>
              packResult_kept houtputs
  · refine getHeap_kept.bind fun heap _ => (lookupMethod_kept _ _).bind fun found hfound => ?_
    subst hfound
    exact evaluationError_kept _

theorem evalMethodCall_kept (hv : PlainVars vars) (info : ExprInfo) (receiver : Expr)
    (methodName : String) (ho : Kept ctx.host Plain objects object)
    (ha : Kept ctx.host PlainAll argLists args) :
    Kept ctx.host (Value few)
      (fun watch => evalMethodCall ctx (g watch) vars info receiver methodName (objects watch)
        (argLists watch))
      (evalMethodCall ctx h vars info receiver methodName object args) := by
  refine (staticReceiver_kept vars info receiver).bind fun found _ => ?_
  cases found with
  | some d => exact callStatic_kept hh hv d.1 d.2 methodName ha
  | none => exact ho.bind fun _ _ => callOnValue_kept hh methodName ha

/-! ## Indexing and calls of functions -/

omit hh in
theorem indexForeign_kept (hhost : PlainHost ctx.host) (id : Nat) (typeName : String)
    {index : RuntimeValue} (hi : Plain index) :
    Kept ctx.host Plain (fun _ => indexForeign ctx id typeName index)
      (indexForeign ctx id typeName index) := by
  refine (ffiMethodOrBase_kept typeName "GetIndex").bind fun found hfound => ?_
  split
  · rename_i method
    have hparams := (plainMap_empty.assign "this" (plain_struct id)).assign "index" hi
    refine (runHost_kept (p := Outputs true)
      (fun heap store hheap => hhost.callMethod method _ _ heap store (plain_struct id) hparams hheap)
      fun heap store values hvalues hanswer => ⟨hvalues, fun _ => ?_⟩).bind fun _ houtputs => ?_
    · exact hfound rfl method rfl _ _ heap store values hanswer
    · exact (packResult_kept houtputs).mono fun _ hvalue => hvalue rfl
  · exact evaluationError_kept _

theorem indexStruct_kept (hhost : PlainHost ctx.host) (id : Nat) (typeName : String)
    {index : RuntimeValue} (hi : Plain index) :
    Kept ctx.host (Value few) (fun watch => indexStruct ctx (g watch) id typeName index)
      (indexStruct ctx h id typeName index) := by
  have hforeign : Kept ctx.host (Value few) (fun _ => indexForeign ctx id typeName index)
      (indexForeign ctx id typeName index) :=
    (indexForeign_kept hhost id typeName hi).mono fun _ hvalue _ => hvalue
  refine (lookupStruct_kept typeName).bind fun found _ => ?_
  split
  · split
    · refine (hh.execStructRoutine id _ _ [index] ?_).bind fun _ houtputs =>
        packResult_kept houtputs
      exact List.forall_mem_singleton.mpr hi
    · exact hforeign
  · exact hforeign

omit hh in
theorem indexArray_kept {array : ArrayValue} (harray : PlainAll array.elements)
    (index : RuntimeValue) :
    Kept ctx.host Plain (fun _ => indexArray array index) (indexArray array index) := by
  unfold indexArray
  split
  · split
    · exact evaluationError_kept _
    · split
      · rename_i value hvalue
        exact Guarded.pure (harray value (List.mem_of_getElem? hvalue))
      · exact evaluationError_kept _
  · exact getHeap_kept.bind fun _ _ => evaluationError_kept _

theorem evalIndex_kept (hhost : PlainHost ctx.host) (value : RuntimeValue)
    {index : RuntimeValue} (hi : Plain index) :
    Kept ctx.host (Value few) (fun watch => evalIndex ctx (g watch) value index)
      (evalIndex ctx h value index) := by
  unfold evalIndex
  split
  · refine (structAt_kept _).bind fun found _ => ?_
    split
    · exact indexStruct_kept hh hhost _ _ hi
    · exact evaluationError_kept _
  · refine getHeap_kept.bind fun heap hheap => ?_
    split
    · rename_i array harray
      have helements := hheap.arrays array (List.mem_of_getElem? harray)
      exact (indexArray_kept helements index).mono fun _ hvalue _ => hvalue
    · exact evaluationError_kept _
  · exact getHeap_kept.bind fun _ _ => evaluationError_kept _

omit hh in
theorem resolveFunction_kept (name : String) :
    Kept ctx.host (fun _ => True) (fun _ => resolveFunction ctx name)
      (resolveFunction ctx name) := by
  refine (Guarded.ask _).bind fun _ _ => ?_
  split
  · exact Guarded.pure trivial
  · split
    · refine (Guarded.ask _).bind fun _ _ => ?_
      split
      · exact Guarded.pure trivial
      · exact evaluationError_kept _
    · exact evaluationError_kept _

omit hh in
theorem signatureOf_kept (resolvedName name : String) :
    Kept ctx.host (fun _ => True) (fun _ => signatureOf ctx resolvedName name)
      (signatureOf ctx resolvedName name) := by
  refine (Guarded.ask _).bind fun _ _ => ?_
  split
  · exact Guarded.pure trivial
  · exact evaluationError_kept _

/-- The arguments of a call, each with the computation of its value. -/
abbrev thunks (f : Expr → M S RuntimeValue) (arguments : List (Option String × Expr)) :
    List (Option String × M S RuntimeValue) := arguments.map (Prod.map id f)

omit hh in
theorem argumentThunks_eq (h : Handlers S) (arguments : List (Option String × Expr)) :
    argumentThunks ctx h vars arguments = thunks (evaluate ctx h vars) arguments := by
  induction arguments with
  | nil => rfl
  | cons argument arguments ih =>
    exact congrArg ((argument.1, evaluate ctx h vars argument.2) :: ·) ih

variable {arguments : List (Option String × Expr)} {f : Bool → Expr → M S RuntimeValue}
  {f' : Expr → M S RuntimeValue}
  (hf : ∀ argument ∈ arguments,
    Kept ctx.host Plain (fun watch => f watch argument.2) (f' argument.2))
include hf

omit hh in
theorem bindParameters_kept (required : Bool) : ∀ (specs : List ParamSpec) (params : ParameterMap)
    (assigned : List Nat), PlainMap params →
    Kept ctx.host (fun bound => PlainMap bound.1)
      (fun watch => bindParameters (thunks (f watch) arguments) required specs params assigned)
      (bindParameters (thunks f' arguments) required specs params assigned)
  | [], _, _, hparams => Guarded.pure hparams
  | spec :: specs, params, assigned, hparams => by
    unfold bindParameters
    split
    · exact bindParameters_kept required specs params assigned hparams
    · simp only [thunks, ArgumentBinding.findArgument_map]
      cases hfound : findArgument arguments assigned spec.name with
      | none =>
        dsimp only [Option.map_none]
        split
        · exact evaluationError_kept _
        · exact bindParameters_kept required specs _ _ (hparams.assign _ plain_nil)
      | some found =>
        obtain ⟨argument, i⟩ := found
        have hmem := List.mem_of_getElem? (ArgumentBinding.getElem?_of_findArgument hfound)
        exact (hf argument hmem).bind fun value hvalue =>
          bindParameters_kept required specs _ _ (hparams.assign _ hvalue)

omit hh in
theorem bindArguments_kept (sig : BuiltinSignature) :
    Kept ctx.host PlainMap (fun watch => bindArguments sig (thunks (f watch) arguments))
      (bindArguments sig (thunks f' arguments)) :=
  (bindParameters_kept hf true _ _ _ plainMap_empty).bind fun bound hbound =>
    (bindParameters_kept hf false _ bound.1 bound.2 hbound).bind fun _ hparams =>
      Guarded.pure hparams

theorem evalCall_kept (name : String) :
    Kept ctx.host (Value few)
      (fun watch => evalCall ctx (g watch) name (thunks (f watch) arguments))
      (evalCall ctx h name (thunks f' arguments)) :=
  (resolveFunction_kept name).bind fun resolved _ =>
    (signatureOf_kept resolved.1 name).bind fun sig _ =>
      (bindArguments_kept hf sig).bind fun params hparams =>
        (hh.callFunction resolved.2 params hparams).bind fun _ houtputs =>
          packResult_kept houtputs

end Calls

/-! ## The evaluator -/

section Evaluator

variable {ctx : Context S} {g : Bool → Handlers S} {h : Handlers S}
  {vars : Variables} (hhost : PlainHost ctx.host) (hv : PlainVars vars)
  (hh : HandlersKept true ctx.host g h)
include hhost hv hh

set_option linter.unusedSectionVars false in
mutual

theorem evaluate_kept : ∀ e : Expr,
    Kept ctx.host Plain (fun watch => evaluate ctx (g watch) vars e) (evaluate ctx h vars e)
  | .literal _ value => Guarded.pure (plain_ofLiteral value)
  | .nilLiteral _ => Guarded.pure plain_nil
  | .var _ name => evalVariable_kept hv name
  | .binary _ op left right =>
    (evaluate_kept left).bind fun left _ => (evaluate_kept right).bind fun right _ =>
      getHeap_kept.bind fun heap _ =>
        Guarded.ofOutcome (plainResult_applyBinaryOp heap op left right)
  | .unary _ op operand =>
    (evaluate_kept operand).bind fun operand _ =>
      Guarded.ofOutcome (plainResult_applyUnaryOp op operand)
  | .member _ object member =>
    (evaluate_kept object).bind fun _ _ => evalMember_kept _ member
  | .methodCall info object methodName args =>
    (evalMethodCall_kept hh hv info object methodName (evaluate_kept object)
      (evaluateList_kept args)).mono fun _ hvalue => hvalue rfl
  | .index _ object index =>
    ((evaluate_kept object).bind fun _ _ => (evaluate_kept index).bind fun _ hi =>
      evalIndex_kept hh hhost _ hi).mono fun _ hvalue => hvalue rfl
  | .call _ name arguments => by
    have hf := evaluateArguments_kept arguments
    unfold evaluate
    simp only [argumentThunks_eq]
    exact (evalCall_kept hh hf name).mono fun _ hvalue => hvalue rfl

theorem evaluateList_kept : ∀ es : List Expr,
    Kept ctx.host PlainAll (fun watch => evaluateList ctx (g watch) vars es)
      (evaluateList ctx h vars es)
  | [] => Guarded.pure fun _ h => nomatch h
  | e :: es =>
    (evaluate_kept e).bind fun _ hvalue => (evaluateList_kept es).bind fun _ hvalues =>
      Guarded.pure (PlainAll.cons hvalue hvalues)

theorem evaluateArguments_kept : ∀ arguments : List (Option String × Expr),
    ∀ argument ∈ arguments, Kept ctx.host Plain
      (fun watch => evaluate ctx (g watch) vars argument.2) (evaluate ctx h vars argument.2)
  | [], _, hmem => nomatch hmem
  | (_, value) :: arguments, _, hmem => by
    rcases List.mem_cons.mp hmem with rfl | hmem
    · exact evaluate_kept value
    · exact evaluateArguments_kept arguments _ hmem

end

end Evaluator

/-- The outermost call may have several outputs; none of them is a tuple. -/
theorem whole_kept {ctx : Context S} {g : Bool → Handlers S} {h : Handlers S} {vars : Variables}
    (hhost : PlainHost ctx.host) (hv : PlainVars vars) (hh : HandlersKept false ctx.host g h)
    (e : Expr) :
    Kept ctx.host (fun _ => True) (fun watch => whole ctx (g watch) vars e)
      (evaluate ctx h vars e) := by
  have hparts := evaluate_kept hhost hv hh.narrow
  cases e with
  | methodCall info object methodName args =>
    exact (evalMethodCall_kept hh hv info object methodName (hparts object)
      (evaluateList_kept hhost hv hh.narrow args)).mono fun _ _ => trivial
  | index info object index =>
    exact ((hparts object).bind fun _ _ => (hparts index).bind fun _ hi =>
      evalIndex_kept hh hhost _ hi).mono fun _ _ => trivial
  | call info name arguments =>
    have hf := evaluateArguments_kept hhost hv hh.narrow arguments
    unfold evaluate
    simp only [whole, argumentThunks_eq]
    exact (evalCall_kept hh hf name).mono fun _ _ => trivial
  | _ => exact (hparts _).mono fun _ _ => trivial

end FalconLib.Dsl.OutputCapture
