import FalconLib.Dsl.OwnFrame

/-!
# Runs that leave fields alone

The guarded interpreter is the interpreter, except that it goes no further where a routine is
called whose text assigns a field of one of the given names, and that a foreign routine which
changes such a field of the given object counts as failed. Where it returns, no such routine was
called.
-/

namespace FalconLib.Dsl.GuardedRuns

open FalconLib.Base
open VariableFrame (blockStmts)

variable {S : Type} {α β : Type}

/-! ## The guard -/

/-- The statement assigns a field of such a name, of whatever object. -/
def assignsField (frame : List String) : Stmt → Bool
  | .structFieldAssign _ _ name _ => frame.contains name
  | .assign _ targets _ =>
    targets.any fun target => target.isFieldTarget && frame.contains target.fieldName
  | _ => false

def bodyAssigns (frame : List String) (body : List Stmt) : Bool :=
  (blockStmts body).any (assignsField frame)

def autotunerAssigns (frame : List String) (autotuner : AutotunerDecl) : Bool :=
  bodyAssigns frame autotuner.autotunerVariables ||
    autotuner.states.any fun state => bodyAssigns frame state.body

/-- The text behind a registered function assigns a field of such a name. -/
def functionAssigns (ctx : Context S) (frame : List String) : ExternalFunction → Bool
  | .autotuner qname => ctx.loadedAutotuners[qname]?.any (autotunerAssigns frame)
  | .inlineRoutine qname =>
    ctx.routineDeclarations[qname]?.any fun decl => bodyAssigns frame decl.body
  | _ => false

/-- Whether the object is there, and what it has for the fields. -/
def slot (id : Nat) (frame : List String) (heap : Heap) : Option (List (Option RuntimeValue)) :=
  heap.structs[id]?.map fun object => frame.map (object.fields[·]?)

def guardCall (id : Nat) (frame : List String) (heap : Heap) (store : S)
    (result : Except Exception FunctionResult × Heap × S) :
    Except Exception FunctionResult × Heap × S :=
  if slot id frame result.2.1 = slot id frame heap then result
  else (.error (.other "assignment to a guarded field"), heap, store)

def guardedHost (host : Host S) (id : Nat) (frame : List String) : Host S where
  call symbol params heap store :=
    guardCall id frame heap store (host.call symbol params heap store)
  callMethod symbol object params heap store :=
    guardCall id frame heap store (host.callMethod symbol object params heap store)

def guardedContext (ctx : Context S) (id : Nat) (frame : List String) : Context S :=
  { ctx with host := guardedHost ctx.host id frame }

def guarded (ctx : Context S) (id : Nat) (frame : List String) : Nat → Handlers S
  | 0 => Interpreter.handlers ctx 0
  | fuel + 1 => {
      evaluate := ExprEvaluator.evaluate (guardedContext ctx id frame) (guarded ctx id frame fuel)
      execStructRoutine := fun receiver decl routine callArgs =>
        if bodyAssigns frame routine.body then Comp.halt .undefinedBehaviour
        else
          StructRoutine.execStructRoutine (guardedContext ctx id frame) (guarded ctx id frame fuel)
            receiver decl routine callArgs
      callFunction := fun function params =>
        if functionAssigns ctx frame function then Comp.halt .undefinedBehaviour
        else
          Interpreter.callFunction (guardedContext ctx id frame) (guarded ctx id frame fuel) fuel
            function params }

/-! ## What a guarded run keeps -/

/-- The object is there, and a field that had a value at first has that value. -/
structure Held (id : Nat) (frame : List String) (before : String → Option RuntimeValue) (heap : Heap) :
    Prop where
  live : id < heap.structs.length
  value : ∀ name ∈ frame, ∀ v, before name = some v → heap.field? id name = some v

/-- Where the guarded computation returns, the plain one returns the same, and the property of the
heap is kept. -/
def Follows (P : Heap → Prop) (g m : M S α) (q : α → Prop := fun _ => True) : Prop :=
  ∀ w a w', P w.heap → (g w).outcome = .ok a w' → (m w).outcome = .ok a w' ∧ P w'.heap ∧ q a

namespace Follows

variable {P : Heap → Prop} {q : α → Prop} {q' : β → Prop}

theorem pure {a : α} (h : q a) : Follows P (Pure.pure a : M S α) (Pure.pure a) q := by
  intro w b w' hw ho
  cases ho
  exact ⟨rfl, hw, h⟩

theorem throw (e : Exception) (m : M S α) : Follows P (Comp.throw e) m q :=
  fun _ _ _ _ ho => nomatch ho

theorem halt (r : Halt) (m : M S α) : Follows P (Comp.halt r) m q :=
  fun _ _ _ _ ho => nomatch ho

theorem gets (f : World S → α) : Follows P (Comp.gets f) (Comp.gets f) := by
  intro w a w' hw ho
  cases ho
  exact ⟨rfl, hw, trivial⟩

theorem ask (k : Query) : Follows P (Comp.ask k : M S Unit) (Comp.ask k) := by
  intro w a w' hw ho
  cases ho
  exact ⟨rfl, hw, trivial⟩

theorem modify {f : World S → World S} (h : ∀ w : World S, P w.heap → P (f w).heap) :
    Follows P (Comp.modify f) (Comp.modify f) := by
  intro w a w' hw ho
  cases ho
  exact ⟨rfl, h w hw, trivial⟩

theorem bind {g m : M S α} {f f' : α → M S β} (h : Follows P g m q)
    (hf : ∀ a, q a → Follows P (f a) (f' a) q') : Follows P (g >>= f) (m >>= f') q' := by
  intro w b w' hw ho
  obtain ⟨a, t, ha, hb⟩ := Comp.bind_eq_ok ho
  obtain ⟨hm, ht, hq⟩ := h w a t hw ha
  rw [Comp.bind_of_ok hm]
  exact hf a hq t b w' ht hb

/-- What follows a read of the heap may use that the property holds of it. -/
theorem getHeap_bind {f f' : Heap → M S β}
    (h : ∀ w : World S, P w.heap → ∀ b w', (f w.heap w).outcome = .ok b w' →
      (f' w.heap w).outcome = .ok b w' ∧ P w'.heap ∧ q' b) :
    Follows P (getHeap >>= f) (getHeap >>= f') q' :=
  fun w b w' hw ho => h w hw b w' ho

/-- No exception is ever turned into a value. -/
theorem tryCatch {g m : M S α} {f f' : Exception → M S α} (h : Follows P g m q)
    (hf : ∀ e w a w', (f e w).outcome ≠ .ok a w') :
    Follows P (g.tryCatch f) (m.tryCatch f') q := by
  intro w a w' hw ho
  obtain ha | ⟨e, t, -, hcaught⟩ := Comp.tryCatch_eq_ok ho
  · obtain ⟨hm, hkept⟩ := h w a w' hw ha
    exact ⟨Comp.tryCatch_of_ok hm, hkept⟩
  · exact absurd hcaught (hf e t a w')

theorem ofOutcome (o : FalconLib.Base.Outcome Exception Unit α) :
    Follows P (Comp.ofOutcome o : M S α) (Comp.ofOutcome o) := by
  cases o with
  | ok a _ => exact pure trivial
  | throw e _ => exact throw e _
  | halt r => exact halt r _

end Follows

/-! ## The heap -/

section Heap

variable {id : Nat} {frame : List String} {before : String → Option RuntimeValue} {heap : Heap}

theorem Held.allocStruct (h : Held id frame before heap) (object : StructInstance) :
    Held id frame before (heap.allocStruct object).2 := by
  constructor
  · change id < (heap.structs ++ [object]).length
    rw [List.length_append]
    exact Nat.lt_add_right _ h.live
  · intro name hname v hv
    change (heap.structs ++ [object])[id]?.bind _ = _
    rw [List.getElem?_append_left h.live]
    exact h.value name hname v hv

theorem Held.allocTuple (h : Held id frame before heap) (values : List RuntimeValue) :
    Held id frame before (heap.allocTuple values).2 := ⟨h.live, h.value⟩

/-- A write to the field itself has to be one of the value it has. -/
theorem Held.setField (h : Held id frame before heap) {other : Nat} {name : String}
    {value : RuntimeValue} (hsame : other = id → name ∈ frame → ∀ v, before name = some v → v = value) :
    Held id frame before (heap.setField other name value) := by
  constructor
  · change id < (heap.structs.modify other _).length
    rw [List.length_modify]
    exact h.live
  · intro kept hkept v hv
    by_cases hlive : other < heap.structs.length
    · rw [Heap.field?_setField _ _ _ _ _ _ hlive]
      split
      · rename_i heq
        obtain ⟨hid, rfl⟩ := heq
        rw [hsame hid hkept v hv]
      · exact h.value kept hkept v hv
    · have hne : other ≠ id := fun heq => hlive (heq ▸ h.live)
      unfold Heap.setField Heap.field?
      rw [List.getElem?_modify_ne _ _ hne]
      exact h.value kept hkept v hv

theorem Held.of_slot (h : Held id frame before heap) {heap' : Heap}
    (hslot : slot id frame heap' = slot id frame heap) : Held id frame before heap' := by
  unfold slot at hslot
  rw [List.getElem?_eq_getElem h.live, Option.map_some] at hslot
  obtain ⟨object, hobject, hfields⟩ := Option.map_eq_some_iff.mp hslot
  refine ⟨(List.getElem?_eq_some_iff.mp hobject).1, fun name hname v hv => ?_⟩
  have hvalue := h.value name hname v hv
  have hfield := List.map_inj_left.mp hfields name hname
  unfold Heap.field? at hvalue ⊢
  rw [List.getElem?_eq_getElem h.live, Option.bind_some] at hvalue
  rw [hobject, Option.bind_some, hfield, hvalue]

end Heap

/-! ## Access to the world -/

section Access

variable {id : Nat} {frame : List String} {before : String → Option RuntimeValue}

/-- Whatever kept heap a guarded computation starts from, the plain one follows it. -/
abbrev Tracks (id : Nat) (frame : List String) (before : String → Option RuntimeValue) (g m : M S α)
    (q : α → Prop := fun _ => True) : Prop :=
  Follows (Held id frame before) g m q

theorem setField_tracks {other : Nat} {name : String} {value : RuntimeValue}
    (hsame : other = id → name ∈ frame → ∀ v, before name = some v → v = value) :
    Tracks id frame before (setField other name value : M S Unit) (setField other name value) :=
  Follows.modify fun _ h => h.setField hsame

/-- A fresh object is another one. -/
theorem makeStruct_tracks (typeName : String) :
    Tracks id frame before (makeStruct typeName : M S Nat) (makeStruct typeName) (· ≠ id) := by
  refine Follows.getHeap_bind fun w hw fresh w' ho => ?_
  cases ho
  exact ⟨rfl, hw.allocStruct _, Nat.ne_of_gt hw.live⟩

theorem structAt_tracks (other : Nat) :
    Tracks id frame before (structAt other : M S _) (structAt other) := Follows.gets _

theorem packResult_tracks (result : FunctionResult) :
    Tracks id frame before (packResult result : M S _) (packResult result) := by
  unfold packResult
  split
  · exact Follows.pure trivial
  · exact Follows.pure trivial
  · refine Follows.getHeap_bind fun w hw value w' ho => ?_
    cases ho
    exact ⟨rfl, hw.allocTuple _, trivial⟩

/-- A foreign call that returns under the guard has not changed the slot. -/
theorem runHost_follows {P : Heap → Prop} (hP : ∀ heap heap', P heap →
      slot id frame heap' = slot id frame heap → P heap')
    (f : Heap → S → Except Exception FunctionResult × Heap × S) :
    Follows P (runHost fun heap store => guardCall id frame heap store (f heap store))
      (runHost f) := by
  intro w values w' hw ho
  unfold runHost at ho ⊢
  rw [Comp.outcome_gets_bind] at ho ⊢
  rcases hresult : f w.heap w.store with ⟨result, heap, store⟩
  simp only [id_eq, guardCall, hresult] at ho ⊢
  by_cases hslot : slot id frame heap = slot id frame w.heap
  · rw [if_pos hslot] at ho
    refine ⟨ho, ?_, trivial⟩
    cases result with
    | ok values =>
      cases ho
      exact hP _ _ hw hslot
    | error e => cases ho
  · rw [if_neg hslot] at ho
    cases ho

theorem runHost_tracks (f : Heap → S → Except Exception FunctionResult × Heap × S) :
    Tracks id frame before (runHost fun heap store => guardCall id frame heap store (f heap store))
      (runHost f) :=
  runHost_follows (fun _ _ h hslot => h.of_slot hslot) f

end Access

/-! ## Lookups -/

section Lookups

variable {P : Heap → Prop}

theorem registeredStruct_follows (name : String) :
    Follows P (registeredStruct name : M S _) (registeredStruct name) :=
  Follows.bind (Follows.ask _) fun _ _ => Follows.gets _

theorem lookupStruct_follows (name : String) :
    Follows P (lookupStruct name : M S _) (lookupStruct name) := by
  refine Follows.bind (registeredStruct_follows name) fun found _ => ?_
  cases found with
  | some decl => exact Follows.pure trivial
  | none =>
    refine Follows.bind (Follows.ask _) fun _ _ => ?_
    cases genericBase name with
    | some base => exact registeredStruct_follows base
    | none => exact Follows.pure trivial

theorem registeredFfiMethod_follows (typeName methodName : String) :
    Follows P (registeredFfiMethod typeName methodName : M S _)
      (registeredFfiMethod typeName methodName) :=
  Follows.bind (Follows.ask _) fun _ _ => Follows.gets _

theorem lookupFfiMethod_follows (typeName methodName : String) :
    Follows P (lookupFfiMethod typeName methodName : M S _)
      (lookupFfiMethod typeName methodName) := by
  refine Follows.bind (registeredFfiMethod_follows _ _) fun found _ => ?_
  cases found with
  | some method => exact Follows.pure trivial
  | none =>
    cases genericBase typeName with
    | some base => exact registeredFfiMethod_follows _ _
    | none => exact Follows.pure trivial

theorem registeredMethod_follows (typeName methodName : String) :
    Follows P (registeredMethod typeName methodName : M S _)
      (registeredMethod typeName methodName) :=
  Follows.bind (Follows.ask _) fun _ _ => Follows.gets _

theorem lookupMethod_follows (typeName methodName : String) :
    Follows P (lookupMethod typeName methodName : M S _)
      (lookupMethod typeName methodName) := by
  refine Follows.bind (registeredMethod_follows _ _) fun found _ => ?_
  cases found with
  | some method => exact Follows.pure trivial
  | none =>
    dsimp only
    split
    · exact registeredMethod_follows _ _
    · exact Follows.pure trivial

end Lookups

/-! ## Expressions -/

section Expressions

open ExprEvaluator

variable {id : Nat} {frame : List String} {before : String → Option RuntimeValue}

/-- The guarded handlers are tracked by the plain ones. -/
structure HandlersTrack (id : Nat) (frame : List String) (before : String → Option RuntimeValue)
    (g h : Handlers S) : Prop where
  evaluate : ∀ vars e, Tracks id frame before (g.evaluate vars e) (h.evaluate vars e)
  execStructRoutine : ∀ receiver decl routine callArgs,
    Tracks id frame before (g.execStructRoutine receiver decl routine callArgs)
      (h.execStructRoutine receiver decl routine callArgs)
  callFunction : ∀ function params,
    Tracks id frame before (g.callFunction function params) (h.callFunction function params)

theorem evaluationError_tracks (message : String) (m : M S α) {q : α → Prop} :
    Tracks id frame before (evaluationError message) m q := Follows.throw _ m

theorem evalVariable_tracks (vars : Variables) (name : String) :
    Tracks id frame before (evalVariable vars name : M S _) (evalVariable vars name) := by
  refine Follows.bind (Follows.gets _) fun map _ => ?_
  split
  · exact Follows.pure trivial
  · split
    · split
      · exact Follows.pure trivial
      · exact evaluationError_tracks _ _
    · exact evaluationError_tracks _ _

/-- Only a field that the object does not have springs into being. -/
theorem getField_tracks (other : Nat) (name : String) :
    Tracks id frame before (getField other name : M S _) (getField other name) := by
  refine Follows.getHeap_bind fun w hw value w' ho => ?_
  cases hfound : w.heap.field? other name with
  | some found =>
    rw [hfound] at ho
    cases ho
    exact ⟨rfl, hw, trivial⟩
  | none =>
    rw [hfound] at ho
    cases ho
    refine ⟨rfl, hw.setField fun hid hname v hv => ?_, trivial⟩
    have hvalue := hw.value name hname v hv
    rw [← hid, hfound] at hvalue
    cases hvalue

theorem evalMember_tracks (object : RuntimeValue) (member : String) :
    Tracks id frame before (evalMember object member : M S _) (evalMember object member) := by
  unfold evalMember
  split
  · refine Follows.bind (structAt_tracks _) fun found _ => ?_
    split
    · exact getField_tracks _ _
    · exact evaluationError_tracks _ _
  · exact Follows.bind (Follows.gets _) fun _ _ => evaluationError_tracks _ _

theorem monomorphizeStruct_tracks (base : StructDecl) (typeArgs : List TypeDescriptor) :
    Tracks id frame before (monomorphizeStruct base typeArgs : M S _)
      (monomorphizeStruct base typeArgs) := by
  refine Follows.bind (registeredStruct_follows _) fun found _ => ?_
  split
  · exact Follows.pure trivial
  · refine Follows.bind (Follows.ask _) fun _ _ => ?_
    split
    · exact Follows.bind (Follows.modify fun _ h => h) fun _ _ => Follows.pure trivial
    · exact Follows.throw _ _

theorem lookupReceiver_tracks (lookupName : String) :
    Tracks id frame before (lookupReceiver lookupName : M S _) (lookupReceiver lookupName) := by
  refine Follows.bind (lookupStruct_follows _) fun found _ => ?_
  split
  · exact Follows.pure trivial
  · split
    · exact lookupStruct_follows _
    · exact Follows.pure trivial

theorem staticReceiver_tracks (vars : Variables) (info : ExprInfo) (receiver : Expr) :
    Tracks id frame before (staticReceiver vars info receiver : M S _)
      (staticReceiver vars info receiver) := by
  unfold staticReceiver
  split
  · refine Follows.bind (lookupReceiver_tracks _) fun found _ => ?_
    refine Follows.bind (Follows.gets _) fun map _ => ?_
    split
    · split
      · exact Follows.pure trivial
      · exact Follows.pure trivial
    · exact Follows.pure trivial
  · exact Follows.pure trivial

theorem instantiate_tracks (decl : StructDecl) (typeArgs : List TypeDescriptor) :
    Tracks id frame before (instantiate decl typeArgs : M S _) (instantiate decl typeArgs) := by
  unfold instantiate
  split
  · exact monomorphizeStruct_tracks _ _
  · exact Follows.pure trivial

theorem indexArray_tracks (array : ArrayValue) (index : RuntimeValue) :
    Tracks id frame before (indexArray array index : M S _) (indexArray array index) := by
  unfold indexArray
  split
  · split
    · exact evaluationError_tracks _ _
    · split
      · exact Follows.pure trivial
      · exact evaluationError_tracks _ _
  · exact Follows.bind (Follows.gets _) fun _ _ => evaluationError_tracks _ _

theorem ffiMethodOrBase_follows {P : Heap → Prop} (typeName methodName : String) :
    Follows P (ffiMethodOrBase typeName methodName : M S _)
      (ffiMethodOrBase typeName methodName) := by
  refine Follows.bind (lookupFfiMethod_follows _ _) fun found _ => ?_
  split
  · exact Follows.pure trivial
  · split
    · exact lookupFfiMethod_follows _ _
    · exact Follows.pure trivial

variable {ctx : Context S} {g h : Handlers S} (hg : HandlersTrack id frame before g h)
include hg

theorem receiverField_tracks (vars : Variables) (decl : VarDeclStmt) :
    Tracks id frame before (receiverField g vars decl) (receiverField h vars decl) := by
  unfold receiverField
  split
  · exact hg.evaluate _ _
  · split
    · exact Follows.bind (makeStruct_tracks _) fun _ _ => Follows.pure trivial
    · exact Follows.pure trivial

theorem fillReceiver_tracks (vars : Variables) {receiver : Nat} (hne : receiver ≠ id)
    (fields : List VarDeclStmt) :
    Tracks id frame before (fillReceiver g vars receiver fields)
      (fillReceiver h vars receiver fields) := by
  induction fields with
  | nil => exact Follows.pure trivial
  | cons decl fields ih =>
    exact Follows.bind (receiverField_tracks hg vars decl) fun value _ =>
      Follows.bind (setField_tracks fun hid => absurd hid hne) fun _ _ => ih

theorem constructReceiver_tracks (vars : Variables) (decl : StructDecl) :
    Tracks id frame before (constructReceiver g vars decl) (constructReceiver h vars decl) :=
  Follows.bind (makeStruct_tracks _) fun _ hne =>
    Follows.bind (fillReceiver_tracks hg vars hne _) fun _ _ => Follows.pure trivial

theorem callStatic_tracks (vars : Variables) (decl : StructDecl) (typeArgs : List TypeDescriptor)
    (methodName : String) {gargs args : M S (List RuntimeValue)}
    (hargs : Tracks id frame before gargs args) :
    Tracks id frame before (callStatic g vars decl typeArgs methodName gargs)
      (callStatic h vars decl typeArgs methodName args) := by
  refine Follows.bind (instantiate_tracks decl typeArgs) fun decl _ => ?_
  split
  · exact evaluationError_tracks _ _
  · exact Follows.bind (constructReceiver_tracks hg vars decl) fun receiver _ =>
      Follows.bind hargs fun callArgs _ =>
        Follows.bind (hg.execStructRoutine _ _ _ _) fun outputs _ => packResult_tracks outputs

theorem callOnValue_tracks (object : RuntimeValue) (methodName : String)
    {gargs args : M S (List RuntimeValue)} (hargs : Tracks id frame before gargs args) :
    Tracks id frame before (callOnValue (guardedContext ctx id frame) g object methodName gargs)
      (callOnValue ctx h object methodName args) := by
  unfold callOnValue
  split
  · refine Follows.bind (structAt_tracks _) fun found _ => ?_
    split
    · exact evaluationError_tracks _ _
    · refine Follows.bind (lookupStruct_follows _) fun found _ => ?_
      split
      · exact evaluationError_tracks _ _
      · split
        · exact evaluationError_tracks _ _
        · exact Follows.bind hargs fun callArgs _ =>
            Follows.bind (hg.execStructRoutine _ _ _ _) fun outputs _ => packResult_tracks outputs
  · refine Follows.bind (Follows.gets _) fun heap _ => ?_
    refine Follows.bind (lookupMethod_follows _ _) fun found _ => ?_
    split
    · exact evaluationError_tracks _ _
    · exact Follows.bind hargs fun values _ =>
        Follows.bind (runHost_tracks _) fun result _ => packResult_tracks result

theorem evalMethodCall_tracks (vars : Variables) (info : ExprInfo) (receiver : Expr)
    (methodName : String) {gobject object : M S RuntimeValue}
    (hobject : Tracks id frame before gobject object) {gargs args : M S (List RuntimeValue)}
    (hargs : Tracks id frame before gargs args) :
    Tracks id frame before
      (evalMethodCall (guardedContext ctx id frame) g vars info receiver methodName gobject gargs)
      (evalMethodCall ctx h vars info receiver methodName object args) := by
  refine Follows.bind (staticReceiver_tracks vars info receiver) fun found _ => ?_
  split
  · exact callStatic_tracks hg vars _ _ methodName hargs
  · exact Follows.bind hobject fun value _ => callOnValue_tracks hg value methodName hargs

omit hg in
theorem indexForeign_tracks (other : Nat) (typeName : String) (index : RuntimeValue) :
    Tracks id frame before (indexForeign (guardedContext ctx id frame) other typeName index)
      (indexForeign ctx other typeName index) := by
  refine Follows.bind (ffiMethodOrBase_follows _ _) fun found _ => ?_
  split
  · exact Follows.bind (runHost_tracks _) fun result _ => packResult_tracks result
  · exact evaluationError_tracks _ _

theorem evalIndex_tracks (object index : RuntimeValue) :
    Tracks id frame before (evalIndex (guardedContext ctx id frame) g object index)
      (evalIndex ctx h object index) := by
  unfold evalIndex
  split
  · refine Follows.bind (structAt_tracks _) fun found _ => ?_
    split
    · refine Follows.bind (lookupStruct_follows _) fun found _ => ?_
      split
      · split
        · exact Follows.bind (hg.execStructRoutine _ _ _ _) fun outputs _ =>
            packResult_tracks outputs
        · exact indexForeign_tracks _ _ _
      · exact indexForeign_tracks _ _ _
    · exact evaluationError_tracks _ _
  · refine Follows.bind (Follows.gets _) fun heap _ => ?_
    split
    · exact indexArray_tracks _ _
    · exact evaluationError_tracks _ _
  · exact Follows.bind (Follows.gets _) fun _ _ => evaluationError_tracks _ _

end Expressions

/-! ## Calls of functions -/

section Calls

open ExprEvaluator

variable {id : Nat} {frame : List String} {before : String → Option RuntimeValue} {ctx : Context S}

theorem functions_guardedContext : (guardedContext ctx id frame).functions = ctx.functions := rfl

theorem resolveFunction_tracks (name : String) :
    Tracks id frame before (resolveFunction (guardedContext ctx id frame) name)
      (resolveFunction ctx name) := by
  refine Follows.bind (Follows.ask _) fun _ _ => ?_
  rw [functions_guardedContext]
  split
  · exact Follows.pure trivial
  · split
    · refine Follows.bind (Follows.ask _) fun _ _ => ?_
      split
      · exact Follows.pure trivial
      · exact evaluationError_tracks _ _
    · exact evaluationError_tracks _ _

theorem signatureOf_tracks (resolvedName name : String) :
    Tracks id frame before (signatureOf (guardedContext ctx id frame) resolvedName name)
      (signatureOf ctx resolvedName name) := by
  refine Follows.bind (Follows.ask _) fun _ _ => ?_
  rw [functions_guardedContext]
  split
  · exact Follows.pure trivial
  · exact evaluationError_tracks _ _

/-- Arguments with the same names and with computations that track. -/
abbrev ArgumentsTrack (id : Nat) (frame : List String) (before : String → Option RuntimeValue) :
    List (Option String × M S RuntimeValue) → List (Option String × M S RuntimeValue) → Prop :=
  List.Forall₂ fun a b => a.1 = b.1 ∧ Tracks id frame before a.2 b.2

theorem bindParameters_tracks {gargs args : List (Option String × M S RuntimeValue)}
    (hargs : ArgumentsTrack id frame before gargs args) (required : Bool) (specs : List ParamSpec)
    (params : ParameterMap) (assigned : List Nat) :
    Tracks id frame before (bindParameters gargs required specs params assigned)
      (bindParameters args required specs params assigned) := by
  induction specs generalizing params assigned with
  | nil => exact Follows.pure trivial
  | cons spec specs ih =>
    unfold bindParameters
    split
    · exact ih params assigned
    · rcases Coupling.findArgument_cases (R := Tracks id frame before) hargs assigned spec.name with
        ⟨hgarg, harg⟩ | ⟨name, gargument, argument, i, hvalue, hgarg, harg⟩
      · rw [hgarg, harg]
        dsimp only
        split
        · exact evaluationError_tracks _ _
        · exact ih _ _
      · rw [hgarg, harg]
        exact Follows.bind hvalue fun _ _ => ih _ _

theorem bindArguments_tracks (sig : BuiltinSignature)
    {gargs args : List (Option String × M S RuntimeValue)}
    (hargs : ArgumentsTrack id frame before gargs args) :
    Tracks id frame before (bindArguments sig gargs) (bindArguments sig args) :=
  Follows.bind (bindParameters_tracks hargs true _ _ _) fun _ _ =>
    Follows.bind (bindParameters_tracks hargs false _ _ _) fun _ _ => Follows.pure trivial

variable {g h : Handlers S} (hg : HandlersTrack id frame before g h)
include hg

theorem evalCall_tracks (name : String) {gargs args : List (Option String × M S RuntimeValue)}
    (hargs : ArgumentsTrack id frame before gargs args) :
    Tracks id frame before (evalCall (guardedContext ctx id frame) g name gargs)
      (evalCall ctx h name args) :=
  Follows.bind (resolveFunction_tracks name) fun _ _ =>
    Follows.bind (signatureOf_tracks _ _) fun _ _ =>
      Follows.bind (bindArguments_tracks _ hargs) fun _ _ =>
        Follows.bind (hg.callFunction _ _) fun result _ => packResult_tracks result

set_option linter.unusedSectionVars false in
mutual

theorem evaluate_tracks (vars : Variables) : ∀ e : Expr,
    Tracks id frame before (evaluate (guardedContext ctx id frame) g vars e) (evaluate ctx h vars e)
  | .literal _ _ => Follows.pure trivial
  | .nilLiteral _ => Follows.pure trivial
  | .var _ name => evalVariable_tracks vars name
  | .binary _ _ left right =>
    Follows.bind (evaluate_tracks vars left) fun _ _ =>
      Follows.bind (evaluate_tracks vars right) fun _ _ =>
        Follows.bind (Follows.gets _) fun _ _ => Follows.ofOutcome _
  | .unary _ _ operand =>
    Follows.bind (evaluate_tracks vars operand) fun _ _ => Follows.ofOutcome _
  | .member _ object member =>
    Follows.bind (evaluate_tracks vars object) fun value _ => evalMember_tracks value member
  | .methodCall info object methodName args =>
    evalMethodCall_tracks hg vars info object methodName (evaluate_tracks vars object)
      (evaluateList_tracks vars args)
  | .index _ object index =>
    Follows.bind (evaluate_tracks vars object) fun value _ =>
      Follows.bind (evaluate_tracks vars index) fun position _ => evalIndex_tracks hg value position
  | .call _ name arguments => evalCall_tracks hg name (argumentThunks_track vars arguments)

theorem evaluateList_tracks (vars : Variables) : ∀ es : List Expr,
    Tracks id frame before (evaluateList (guardedContext ctx id frame) g vars es)
      (evaluateList ctx h vars es)
  | [] => Follows.pure trivial
  | e :: es =>
    Follows.bind (evaluate_tracks vars e) fun _ _ =>
      Follows.bind (evaluateList_tracks vars es) fun _ _ => Follows.pure trivial

theorem argumentThunks_track (vars : Variables) : ∀ args : List (Option String × Expr),
    ArgumentsTrack id frame before (argumentThunks (guardedContext ctx id frame) g vars args)
      (argumentThunks ctx h vars args)
  | [] => .nil
  | (_, value) :: args =>
    .cons ⟨rfl, evaluate_tracks vars value⟩ (argumentThunks_track vars args)

end

end Calls

/-! ## Statements -/

section Statements

open StmtExecutor

variable {id : Nat} {frame : List String} {before : String → Option RuntimeValue} {ctx : Context S}

theorem executeWithContext_tracks (location : Location) {gm m : M S α} {q : α → Prop}
    (hm : Tracks id frame before gm m q) :
    Tracks id frame before (executeWithContext (guardedContext ctx id frame) location gm)
      (executeWithContext ctx location m) q :=
  Follows.tryCatch hm fun _ _ _ _ ho => nomatch ho

theorem write_tracks (vars : Variables) (map : ParameterMap) :
    Tracks id frame before (vars.write map : M S Variables) (vars.write map) := by
  cases vars with
  | member => exact Follows.bind (Follows.modify fun _ h => h) fun _ _ => Follows.pure trivial
  | own old => exact Follows.pure trivial

theorem assignVariable_tracks (vars : Variables) (name : String) (value : RuntimeValue) :
    Tracks id frame before (assignVariable vars name value : M S Variables)
      (assignVariable vars name value) :=
  Follows.bind (Follows.gets _) fun _ _ => write_tracks vars _

theorem defaultInitial_tracks (stmt : VarDeclStmt) :
    Tracks id frame before (defaultInitial stmt : M S _) (defaultInitial stmt) := by
  unfold defaultInitial
  split
  iterate 5 exact Follows.pure trivial
  · exact Follows.bind (makeStruct_tracks _) fun _ _ => Follows.pure trivial
  · exact Follows.bind (makeStruct_tracks _) fun _ _ => Follows.pure trivial
  · exact evaluationError_tracks _ _

theorem structVariable_tracks (vars : Variables) (name undefinedMessage : String)
    (notStruct : Exception) :
    Tracks id frame before (structVariable vars name undefinedMessage notStruct : M S Nat)
      (structVariable vars name undefinedMessage notStruct) := by
  refine Follows.bind (Follows.gets _) fun map _ => ?_
  split
  · exact evaluationError_tracks _ _
  · refine Follows.bind (structAt_tracks _) fun found _ => ?_
    split
    · exact Follows.pure trivial
    · exact evaluationError_tracks _ _
  · exact Follows.throw _ _

/-- A write of some other field. -/
theorem setField_ne_tracks (other : Nat) {name : String} (hne : name ∉ frame)
    (value : RuntimeValue) :
    Tracks id frame before (setField other name value : M S Unit) (setField other name value) :=
  setField_tracks fun _ hname => absurd hname hne

theorem tupleValue_tracks (other i : Nat) :
    Tracks id frame before (tupleValue other i : M S _) (tupleValue other i) := by
  refine Follows.bind (Follows.gets _) fun heap _ => ?_
  split
  · exact Follows.pure trivial
  · exact Follows.halt _ _

theorem syncFlatCopy_tracks (vars : Variables) (name : String) (value : RuntimeValue) :
    Tracks id frame before (syncFlatCopy vars name value : M S Variables)
      (syncFlatCopy vars name value) := by
  refine Follows.bind (Follows.gets _) fun map _ => ?_
  split
  · exact write_tracks vars _
  · exact Follows.pure trivial

theorem assignSingle_tracks (vars : Variables) {target : AssignTarget}
    (htarget : target.isFieldTarget = true → target.fieldName ∉ frame) (value : RuntimeValue) :
    Tracks id frame before (assignSingle vars target value : M S Variables)
      (assignSingle vars target value) := by
  unfold assignSingle
  split
  · rename_i hfield
    split
    · exact Follows.bind (structVariable_tracks _ _ _ _) fun other _ =>
        Follows.bind (setField_ne_tracks other (htarget hfield) value) fun _ _ =>
          Follows.pure trivial
    · exact evaluationError_tracks _ _
  · exact assignVariable_tracks vars _ _

variable {g h : Handlers S} (hg : HandlersTrack id frame before g h)
include hg

theorem execVarDecl_tracks (vars : Variables) (stmt : VarDeclStmt) :
    Tracks id frame before (execVarDecl (guardedContext ctx id frame) g vars stmt)
      (execVarDecl ctx h vars stmt) := by
  refine Follows.bind (q := fun _ => True) ?_ fun value _ => assignVariable_tracks vars _ value
  unfold initialValue
  split
  · exact evaluate_tracks hg vars _
  · exact defaultInitial_tracks stmt

theorem assignTupleTarget_tracks (other i : Nat) {target : AssignTarget}
    (htarget : target.isFieldTarget = true → target.fieldName ∉ frame) (vars : Variables) :
    Tracks id frame before
      (assignTupleTarget (guardedContext ctx id frame) g other i target vars)
      (assignTupleTarget ctx h other i target vars) := by
  unfold assignTupleTarget
  split
  · rename_i hfield
    split
    · refine Follows.bind (q := fun _ => True) ?_ fun _ _ => Follows.pure trivial
      refine Follows.bind (evaluate_tracks hg vars _) fun value _ => ?_
      split
      · split
        · exact Follows.bind (structVariable_tracks _ _ _ _) fun object _ =>
            Follows.bind (tupleValue_tracks other i) fun value _ =>
              setField_ne_tracks object (htarget hfield) value
        · exact evaluationError_tracks _ _
      · exact evaluationError_tracks _ _
    · exact Follows.halt _ _
  · exact Follows.bind (tupleValue_tracks other i) fun value _ => assignVariable_tracks vars _ value

theorem assignTupleTargets_tracks (other : Nat) {targets : List AssignTarget}
    (htargets : ∀ target ∈ targets, target.isFieldTarget = true → target.fieldName ∉ frame)
    (i : Nat) (vars : Variables) :
    Tracks id frame before
      (assignTupleTargets (guardedContext ctx id frame) g other targets i vars)
      (assignTupleTargets ctx h other targets i vars) := by
  induction targets generalizing i vars with
  | nil => exact Follows.pure trivial
  | cons target targets ih =>
    obtain ⟨hfirst, hrest⟩ := List.forall_mem_cons.mp htargets
    exact Follows.bind (assignTupleTarget_tracks hg other i hfirst vars) fun vars _ =>
      ih hrest (i + 1) vars

theorem execAssign_tracks (vars : Variables) {targets : List AssignTarget}
    (htargets : ∀ target ∈ targets, target.isFieldTarget = true → target.fieldName ∉ frame)
    (value : Expr) :
    Tracks id frame before (execAssign (guardedContext ctx id frame) g vars targets value)
      (execAssign ctx h vars targets value) := by
  refine Follows.bind (evaluate_tracks hg vars value) fun value _ => ?_
  split
  · exact Follows.halt _ _
  · exact assignSingle_tracks vars (htargets _ List.mem_cons_self) value
  · refine Follows.bind (Follows.gets _) fun heap _ => ?_
    split
    · split
      · exact evaluationError_tracks _ _
      · split
        · exact assignTupleTargets_tracks hg _ htargets 0 vars
        · exact evaluationError_tracks _ _
    · exact evaluationError_tracks _ _

theorem execStructFieldAssign_tracks (vars : Variables) (object : Expr) {name : String}
    (hne : name ∉ frame) (value : Expr) :
    Tracks id frame before
      (execStructFieldAssign (guardedContext ctx id frame) g vars object name value)
      (execStructFieldAssign ctx h vars object name value) := by
  refine Follows.bind (evaluate_tracks hg vars value) fun value _ => ?_
  split
  · exact Follows.bind (structVariable_tracks _ _ _ _) fun other _ =>
      Follows.bind (setField_ne_tracks other hne value) fun _ _ => syncFlatCopy_tracks vars _ _
  · exact evaluationError_tracks _ _

omit hg in
theorem goOn_tracks {gm m : M S Variables} (hm : Tracks id frame before gm m) :
    Tracks id frame before (goOn gm) (goOn m) :=
  Follows.bind hm fun _ _ => Follows.pure trivial

omit hg in
theorem targets_of_not_assigns {location : Location} {targets : List AssignTarget} {value : Expr}
    (hs : assignsField frame (.assign location targets value) = false) :
    ∀ target ∈ targets, target.isFieldTarget = true → target.fieldName ∉ frame := by
  intro target htarget hfield hname
  have hall := List.any_eq_false.mp hs target htarget
  rw [hfield, List.contains_iff_mem.mpr hname] at hall
  exact hall rfl

omit hg in
theorem notMem_of_not_assigns {location : Location} {object value : Expr} {name : String}
    (hs : assignsField frame (.structFieldAssign location object name value) = false) :
    name ∉ frame := fun hname =>
  Bool.false_ne_true (hs.symm.trans (List.contains_iff_mem.mpr hname))

set_option linter.unusedSectionVars false in
mutual

theorem execute_tracks (vars : Variables) : ∀ stmt : Stmt,
    (∀ s ∈ VariableFrame.simpleStmts stmt, assignsField frame s = false) →
    Tracks id frame before (execute (guardedContext ctx id frame) g vars stmt)
      (execute ctx h vars stmt)
  | .varDecl stmt, _ => executeWithContext_tracks _ (goOn_tracks (execVarDecl_tracks hg vars stmt))
  | .assign location targets value, hs =>
    executeWithContext_tracks _ (goOn_tracks (execAssign_tracks hg vars
      (targets_of_not_assigns (hs (.assign location targets value) List.mem_cons_self)) value))
  | .structFieldAssign location object name value, hs =>
    executeWithContext_tracks _ (goOn_tracks (execStructFieldAssign_tracks hg vars object
      (notMem_of_not_assigns (hs (.structFieldAssign location object name value)
        List.mem_cons_self)) value))
  | .expr _ expression, _ =>
    executeWithContext_tracks _ <|
      Follows.bind (evaluate_tracks hg vars expression) fun _ _ => Follows.pure trivial
  | .ifStmt _ condition thenBody elseBody, hs => by
    refine executeWithContext_tracks _ ?_
    refine Follows.bind (evaluate_tracks hg vars condition) fun value _ => ?_
    split
    · exact executeBlock_tracks vars thenBody fun s hm => hs s (List.mem_append_left _ hm)
    · exact executeBlock_tracks vars elseBody fun s hm => hs s (List.mem_append_right _ hm)
    · exact evaluationError_tracks _ _
  | .transition _ _ parameters, _ =>
    executeWithContext_tracks _ <|
      Follows.bind (evaluateList_tracks hg vars parameters) fun _ _ => Follows.pure trivial
  | .terminal _, _ => executeWithContext_tracks _ (Follows.pure trivial)

theorem executeBlock_tracks (vars : Variables) : ∀ stmts : List Stmt,
    (∀ s ∈ blockStmts stmts, assignsField frame s = false) →
    Tracks id frame before (executeBlock (guardedContext ctx id frame) g vars stmts)
      (executeBlock ctx h vars stmts)
  | [], _ => Follows.pure trivial
  | stmt :: stmts, hs => by
    refine Follows.bind (execute_tracks vars stmt fun s hm => hs s (List.mem_append_left _ hm))
      fun result _ => ?_
    obtain ⟨flow, vars⟩ := result
    cases flow with
    | none => exact executeBlock_tracks vars stmts fun s hm => hs s (List.mem_append_right _ hm)
    | transition targetState parameters => exact Follows.pure trivial
    | terminal => exact Follows.pure trivial

end

end Statements

end FalconLib.Dsl.GuardedRuns
