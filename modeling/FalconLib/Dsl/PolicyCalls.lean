import FalconLib.Dsl.Policy

/-!
# Expressions keep every policy

If the calls do that leave the syntax tree. The arguments of a call are computations that run later,
so of them every later world counts.
-/

namespace FalconLib.Dsl.Policy

open FalconLib.Base
open ExprEvaluator

variable {S : Type}

/-! ## Results of operators -/

/-- An operator makes no object. -/
def ScalarResult (result : OpResult) : Prop := ∀ v, result.value? = some v → v.IsScalar

theorem scalarResult_value {v : RuntimeValue} (h : v.IsScalar) :
    ScalarResult (OpResult.value v) := by
  rintro _ ⟨⟩
  exact h

theorem scalarResult_error (message : String) : ScalarResult (OpResult.error message) := nofun

theorem scalarResult_badVariantAccess : ScalarResult OpResult.badVariantAccess := nofun

theorem scalarResult_int64 (i : Int) : ScalarResult (OpResult.int64 i) := by
  unfold OpResult.int64
  split
  · exact scalarResult_value trivial
  · nofun

theorem scalarResult_numeric {onInts : Int → Int → OpResult}
    {onDoubles : Binary64 → Binary64 → OpResult} {other : OpResult}
    (hints : ∀ a b, ScalarResult (onInts a b)) (hdoubles : ∀ a b, ScalarResult (onDoubles a b))
    (hother : ScalarResult other) (left right : RuntimeValue) :
    ScalarResult (numeric onInts onDoubles other left right) := by
  unfold numeric
  split
  · exact hints _ _
  · split
    · exact hdoubles _ _
    · exact scalarResult_badVariantAccess
  · split
    · exact hdoubles _ _
    · exact scalarResult_badVariantAccess
  · exact hother

theorem scalarResult_compared {onInts : Int → Int → Bool} {onDoubles : Binary64 → Binary64 → Bool}
    {other : OpResult} (hother : ScalarResult other) (left right : RuntimeValue) :
    ScalarResult (compared onInts onDoubles other left right) := by
  have hbool : ∀ b : Bool, ScalarResult (.value (.bool b)) := fun _ => scalarResult_value trivial
  exact scalarResult_numeric (fun _ _ => hbool _) (fun _ _ => hbool _) hother left right

theorem scalarResult_logical (decisive : Bool) (left right : RuntimeValue) :
    ScalarResult (logical decisive left right) := by
  unfold logical
  split
  · split
    · exact scalarResult_value trivial
    · split
      · exact scalarResult_value trivial
      · exact scalarResult_badVariantAccess
  · exact scalarResult_badVariantAccess

theorem scalarResult_applyBinaryOp (heap : Heap) (op : String) (left right : RuntimeValue) :
    ScalarResult (applyBinaryOp heap op left right) := by
  have hfloat : ∀ x : Binary64, ScalarResult (.value (.float x)) :=
    fun _ => scalarResult_value trivial
  unfold applyBinaryOp
  dsimp only
  split
  · split
    · exact scalarResult_value trivial
    · exact scalarResult_numeric (fun _ _ => scalarResult_int64 _) (fun _ _ => hfloat _)
        (scalarResult_error _) _ _
  · exact scalarResult_numeric (fun _ _ => scalarResult_int64 _) (fun _ _ => hfloat _)
      (scalarResult_error _) _ _
  · exact scalarResult_numeric (fun _ _ => scalarResult_int64 _) (fun _ _ => hfloat _)
      (scalarResult_error _) _ _
  · refine scalarResult_numeric (fun a b => ?_) (fun a b => ?_) (scalarResult_error _) _ _
    · split
      · exact scalarResult_error _
      · exact scalarResult_int64 _
    · split
      · exact scalarResult_error _
      · exact hfloat _
  · exact scalarResult_value trivial
  · exact scalarResult_value trivial
  · exact scalarResult_compared (scalarResult_error _) _ _
  · exact scalarResult_compared (scalarResult_error _) _ _
  · exact scalarResult_compared (scalarResult_error _) _ _
  · exact scalarResult_compared (scalarResult_error _) _ _
  · exact scalarResult_logical _ _ _
  · exact scalarResult_logical _ _ _
  · exact scalarResult_error _

theorem scalarResult_applyUnaryOp (op : String) (operand : RuntimeValue) :
    ScalarResult (applyUnaryOp op operand) := by
  unfold applyUnaryOp
  dsimp only
  split
  · split
    · exact scalarResult_value trivial
    · exact scalarResult_badVariantAccess
  · split
    · exact scalarResult_int64 _
    · exact scalarResult_value trivial
    · exact scalarResult_error _
  · exact scalarResult_error _

/-! ## Variables and members -/

section Accesses

variable {host : Host S} {P : Policy host} {w : World S}

theorem holds_read {vars : Variables} (h : P.AllowedVars vars w) :
    P.Holds (Comp.gets vars.read) w P.AllowedMap :=
  Growth.Keeps.gets fun hw => h.read hw

theorem holds_evalVariable {vars : Variables} (h : P.AllowedVars vars w) (name : String) :
    P.Holds (evalVariable vars name) w P.Allowed := by
  refine (holds_read h).bind fun map t _ hmap => ?_
  split
  · rename_i value hname
    exact Growth.Keeps.pure (hmap name value hname)
  · split
    · split
      · rename_i value hname
        exact Growth.Keeps.pure (hmap _ value hname)
      · exact holds_error _
    · exact holds_error _

theorem holds_getField {id : Nat} (hid : P.Allowed (.struct id) w) (name : String) :
    P.Holds (getField id name) w P.Allowed := by
  refine holds_getHeap_bind fun hw => ?_
  split
  · rename_i value hvalue
    exact Growth.Keeps.pure (P.field hw hid hvalue)
  · have hunset : ∀ w, P.Allowed RuntimeValue.unset w := fun _ => P.scalar trivial
    exact (holds_setField hid (hunset _)).bind fun _ _ _ _ => Growth.Keeps.pure (hunset _)

theorem holds_evalMember {object : RuntimeValue} (hobject : P.Allowed object w) (member : String) :
    P.Holds (evalMember object member) w P.Allowed := by
  unfold evalMember
  split
  · refine (holds_structAt _).bind fun found t ht _ => ?_
    split
    · exact holds_getField (P.allowed_mono ht hobject) _
    · exact holds_error _
  · exact holds_getHeap_bind fun _ => holds_error _

/-! ## Struct receivers -/

theorem holds_monomorphizeStruct (base : StructDecl) (typeArgs : List TypeDescriptor) :
    P.Holds (monomorphizeStruct base typeArgs) w anything := by
  refine Growth.Keeps.read_bind (registeredStruct_outcome _ w) fun hw => ?_
  split
  · exact Growth.Keeps.pure trivial
  · rename_i hfree
    refine Growth.Keeps.ask_bind ?_
    split
    · refine Growth.Keeps.bind (p := anything) (Growth.Keeps.modify fun _ => ?_) fun _ _ _ _ =>
        Growth.Keeps.pure trivial
      exact ⟨P.registered _ hw hfree, trivial⟩
    · exact Growth.Keeps.throw _

theorem holds_instantiate (decl : StructDecl) (typeArgs : List TypeDescriptor) :
    P.Holds (instantiate decl typeArgs) w anything := by
  unfold instantiate
  split
  · exact holds_monomorphizeStruct decl typeArgs
  · exact Growth.Keeps.pure trivial

theorem holds_lookupReceiver (lookupName : String) :
    P.Holds (lookupReceiver lookupName) w anything := by
  refine (holds_lookupStruct _).bind fun found _ _ _ => ?_
  cases found with
  | some decl => exact Growth.Keeps.pure trivial
  | none =>
    dsimp only
    split
    · exact holds_lookupStruct _
    · exact Growth.Keeps.pure trivial

theorem holds_staticReceiver (vars : Variables) (info : ExprInfo) (receiver : Expr) :
    P.Holds (staticReceiver vars info receiver) w anything := by
  unfold staticReceiver
  split
  · refine (holds_lookupReceiver _).bind fun found _ _ _ => ?_
    refine Growth.Keeps.bind (p := anything) (Growth.Keeps.gets fun _ => trivial) fun map _ _ _ => ?_
    split
    · split
      · exact Growth.Keeps.pure trivial
      · exact Growth.Keeps.pure trivial
    · exact Growth.Keeps.pure trivial
  · exact Growth.Keeps.pure trivial

end Accesses

/-! ## Calls -/

/-- The calls through the handlers keep the policy. -/
structure HandlersKeep {host : Host S} (P : Policy host) (h : Handlers S) : Prop where
  evaluate : ∀ {vars e w}, P.AllowedVars vars w → P.Holds (h.evaluate vars e) w P.Allowed
  execStructRoutine : ∀ {receiver decl routine callArgs w}, P.Allowed (.struct receiver) w →
    P.AllowedAll callArgs w →
    P.Holds (h.execStructRoutine receiver decl routine callArgs) w P.AllowedAll
  callFunction : ∀ {function params w}, P.AllowedMap params w →
    P.Holds (h.callFunction function params) w P.AllowedAll

section Calls

variable {ctx : Context S} {P : Policy ctx.host} {h : Handlers S} {vars : Variables} {w : World S}

theorem holds_receiverField (hh : P.HandlersKeep h) (hv : P.AllowedVars vars w)
    (field : VarDeclStmt) : P.Holds (receiverField h vars field) w P.Allowed := by
  unfold receiverField
  split
  · exact hh.evaluate hv
  · split
    · exact (holds_makeStruct _).bind fun _ _ _ hid => Growth.Keeps.pure hid
    · exact Growth.Keeps.pure (allowed_primitiveDefault _)

theorem holds_fillReceiver (hh : P.HandlersKeep h) {receiver : Nat} (fields : List VarDeclStmt) :
    ∀ {w}, P.AllowedVars vars w → P.Allowed (.struct receiver) w →
      P.Holds (fillReceiver h vars receiver fields) w anything := by
  induction fields with
  | nil => exact fun _ _ => Growth.Keeps.pure trivial
  | cons field fields ih =>
    intro w hv hid
    refine (holds_receiverField hh hv field).bind fun value t ht hvalue => ?_
    have hid' := P.allowed_mono ht hid
    refine (holds_setField hid' hvalue).bind fun _ u hu _ => ?_
    exact ih (hv.mono (P.trans ht hu)) (P.allowed_mono hu hid')

theorem holds_constructReceiver (hh : P.HandlersKeep h) (hv : P.AllowedVars vars w)
    (decl : StructDecl) :
    P.Holds (constructReceiver h vars decl) w fun id w' => P.Allowed (.struct id) w' := by
  refine (holds_makeStruct _).bind fun receiver t ht hid => ?_
  refine (holds_fillReceiver hh _ (hv.mono ht) hid).bind fun _ u hu _ => ?_
  exact Growth.Keeps.pure (P.allowed_mono hu hid)

theorem holds_callRoutine (hh : P.HandlersKeep h) {receiver : Nat} {decl : StructDecl}
    {routine : RoutineDecl} {callArgs : List RuntimeValue} (hid : P.Allowed (.struct receiver) w)
    (hargs : P.AllowedAll callArgs w) :
    P.Holds (h.execStructRoutine receiver decl routine callArgs >>= packResult) w P.Allowed :=
  (hh.execStructRoutine hid hargs).bind fun _ _ _ houtputs => holds_packResult houtputs

theorem holds_callStatic (hh : P.HandlersKeep h) (hv : P.AllowedVars vars w) (decl : StructDecl)
    (typeArgs : List TypeDescriptor) (methodName : String) {args : M S (List RuntimeValue)}
    (hargs : P.HoldsLater args w P.AllowedAll) :
    P.Holds (callStatic h vars decl typeArgs methodName args) w P.Allowed := by
  refine (holds_instantiate decl typeArgs).bind fun decl t ht _ => ?_
  split
  · exact holds_error _
  · refine (holds_constructReceiver hh (hv.mono ht) decl).bind fun receiver u hu hid => ?_
    refine (hargs u (P.trans ht hu)).bind fun callArgs x hx hcallArgs => ?_
    exact holds_callRoutine hh (P.allowed_mono hx hid) hcallArgs

theorem allowedMap_positionalParams {args : List RuntimeValue} (h : P.AllowedAll args w) :
    P.AllowedMap (positionalParams args) w := by
  refine allowedMap_empty.assignAll fun write hwrite => ?_
  obtain ⟨arg, harg, rfl⟩ := List.mem_map.mp hwrite
  exact h arg.1 (List.fst_mem_of_mem_zipIdx harg)

theorem holds_callOnValue (hh : P.HandlersKeep h) {object : RuntimeValue}
    (hobject : P.Allowed object w) (methodName : String) {args : M S (List RuntimeValue)}
    (hargs : P.HoldsLater args w P.AllowedAll) :
    P.Holds (callOnValue ctx h object methodName args) w P.Allowed := by
  unfold callOnValue
  split
  · rename_i id
    refine (holds_structAt id).bind fun found t ht _ => ?_
    split
    · exact holds_error _
    · refine (holds_lookupStruct _).bind fun decl u hu _ => ?_
      have htu := P.trans ht hu
      split
      · exact holds_error _
      · split
        · exact holds_error _
        · refine (hargs u htu).bind fun callArgs x hx hcallArgs => ?_
          exact holds_callRoutine hh (P.allowed_mono (P.trans htu hx) hobject) hcallArgs
  · refine holds_getHeap_bind fun _ => ?_
    dsimp only
    refine (holds_lookupMethod _ _).bind fun found t ht _ => ?_
    split
    · exact holds_error _
    · refine (hargs t ht).bind fun argValues u hu hvalues => ?_
      have hobject' := P.allowed_mono (P.trans ht hu) hobject
      refine (holds_callMethod _ hobject' (allowedMap_positionalParams hvalues)).bind ?_
      exact fun _ _ _ houtputs => holds_packResult houtputs

theorem holds_evalMethodCall (hh : P.HandlersKeep h) (hv : P.AllowedVars vars w) (info : ExprInfo)
    (receiver : Expr) (methodName : String) {object : M S RuntimeValue}
    {args : M S (List RuntimeValue)} (hobject : P.HoldsLater object w P.Allowed)
    (hargs : P.HoldsLater args w P.AllowedAll) :
    P.Holds (evalMethodCall ctx h vars info receiver methodName object args) w P.Allowed := by
  refine (holds_staticReceiver vars info receiver).bind fun found t ht _ => ?_
  split
  · exact holds_callStatic hh (hv.mono ht) _ _ _ (hargs.mono ht)
  · refine (hobject t ht).bind fun value u hu hvalue => ?_
    exact holds_callOnValue hh hvalue _ (hargs.mono (P.trans ht hu))

/-! ## Indexing -/

theorem holds_indexForeign {id : Nat} {index : RuntimeValue} (hid : P.Allowed (.struct id) w)
    (hindex : P.Allowed index w) (typeName : String) :
    P.Holds (indexForeign ctx id typeName index) w P.Allowed := by
  refine (holds_ffiMethodOrBase _ _).bind fun found t ht _ => ?_
  split
  · have hid' := P.allowed_mono ht hid
    have hparams : P.AllowedMap
        ((StdMap.assign ∅ "this" (RuntimeValue.struct id)).assign "index" index) t :=
      (allowedMap_empty.assign "this" hid').assign "index" (P.allowed_mono ht hindex)
    exact (holds_callMethod _ hid' hparams).bind fun _ _ _ houtputs => holds_packResult houtputs
  · exact holds_error _

theorem holds_indexStruct (hh : P.HandlersKeep h) {id : Nat} {index : RuntimeValue}
    (hid : P.Allowed (.struct id) w) (hindex : P.Allowed index w) (typeName : String) :
    P.Holds (indexStruct ctx h id typeName index) w P.Allowed := by
  refine (holds_lookupStruct _).bind fun found t ht _ => ?_
  have hid' := P.allowed_mono ht hid
  have hindex' := P.allowed_mono ht hindex
  split
  · split
    · exact holds_callRoutine hh hid' (AllowedAll.cons hindex' allowedAll_nil)
    · exact holds_indexForeign hid' hindex' _
  · exact holds_indexForeign hid' hindex' _

theorem holds_indexArray {array : ArrayValue} (helements : P.AllowedAll array.elements w)
    (index : RuntimeValue) : P.Holds (indexArray array index) w P.Allowed := by
  unfold indexArray
  split
  · split
    · exact holds_error _
    · split
      · rename_i value hvalue
        exact Growth.Keeps.pure (helements value (List.mem_of_getElem? hvalue))
      · exact holds_error _
  · exact holds_getHeap_bind fun _ => holds_error _

theorem holds_evalIndex (hh : P.HandlersKeep h) {object index : RuntimeValue}
    (hobject : P.Allowed object w) (hindex : P.Allowed index w) :
    P.Holds (evalIndex ctx h object index) w P.Allowed := by
  unfold evalIndex
  split
  · refine (holds_structAt _).bind fun found t ht _ => ?_
    split
    · exact holds_indexStruct hh (P.allowed_mono ht hobject) (P.allowed_mono ht hindex) _
    · exact holds_error _
  · refine holds_getHeap_bind fun hw => ?_
    split
    · rename_i array harray
      exact holds_indexArray (fun v hv => P.element hw hobject harray hv) _
    · exact holds_error _
  · exact holds_getHeap_bind fun _ => holds_error _

/-! ## Calls of registered functions -/

theorem holds_resolveFunction (name : String) : P.Holds (resolveFunction ctx name) w anything := by
  refine Growth.Keeps.ask_bind ?_
  split
  · exact Growth.Keeps.pure trivial
  · split
    · refine Growth.Keeps.ask_bind ?_
      split
      · exact Growth.Keeps.pure trivial
      · exact holds_error _
    · exact holds_error _

theorem holds_signatureOf (resolvedName name : String) :
    P.Holds (signatureOf ctx resolvedName name) w anything := by
  refine Growth.Keeps.ask_bind ?_
  split
  · exact Growth.Keeps.pure trivial
  · exact holds_error _

/-- Each of the arguments keeps the policy whenever it is evaluated. -/
def ArgumentsKeep (P : Policy ctx.host) (args : List (Option String × M S RuntimeValue))
    (w : World S) : Prop := ∀ arg ∈ args, P.HoldsLater arg.2 w P.Allowed

theorem ArgumentsKeep.mono {args : List (Option String × M S RuntimeValue)} {w' : World S}
    (h : ArgumentsKeep P args w) (hw : P.Grows w w') : ArgumentsKeep P args w' :=
  fun arg harg => (h arg harg).mono hw

theorem mem_of_findArgument {α : Type} {args : List (Option String × α)} {assigned : List Nat}
    {paramName : String} {arg : Option String × α} {i : Nat}
    (h : findArgument args assigned paramName = some (arg, i)) : arg ∈ args := by
  have hmem : ∀ {p : (Option String × α) × Nat → Bool}, args.zipIdx.find? p = some (arg, i) →
      arg ∈ args := fun hfind => List.fst_mem_of_mem_zipIdx (List.mem_of_find?_eq_some hfind)
  unfold findArgument at h
  split at h
  · rename_i found hfound
    cases h
    exact hmem hfound
  · exact hmem h

theorem holds_bindParameters {args : List (Option String × M S RuntimeValue)} (required : Bool)
    (specs : List ParamSpec) : ∀ {params : ParameterMap} {assigned : List Nat} {w : World S},
      ArgumentsKeep P args w → P.AllowedMap params w →
        P.Holds (bindParameters args required specs params assigned) w
          fun bound w' => P.AllowedMap bound.1 w' := by
  induction specs with
  | nil => exact fun _ hparams => Growth.Keeps.pure hparams
  | cons spec specs ih =>
    intro params assigned w hargs hparams
    unfold bindParameters
    split
    · exact ih hargs hparams
    · split
      · rename_i name argument i hfound
        have hargument := hargs _ (mem_of_findArgument hfound) w (P.refl w)
        refine hargument.bind fun value t ht hvalue => ?_
        exact ih (hargs.mono ht) ((hparams.mono ht).assign _ hvalue)
      · split
        · exact holds_error _
        · exact ih hargs (hparams.assign _ (P.scalar trivial))

theorem holds_bindArguments {args : List (Option String × M S RuntimeValue)}
    (hargs : ArgumentsKeep P args w) (sig : BuiltinSignature) :
    P.Holds (bindArguments sig args) w P.AllowedMap := by
  refine (holds_bindParameters true sig.parameters hargs allowedMap_empty).bind
    fun bound t ht hbound => ?_
  refine (holds_bindParameters false sig.parameters (hargs.mono ht) hbound).bind
    fun bound' u hu hbound' => ?_
  exact Growth.Keeps.pure hbound'

theorem holds_evalCall (hh : P.HandlersKeep h) (name : String)
    {args : List (Option String × M S RuntimeValue)} (hargs : ArgumentsKeep P args w) :
    P.Holds (evalCall ctx h name args) w P.Allowed := by
  refine (holds_resolveFunction name).bind fun resolved t ht _ => ?_
  refine (holds_signatureOf _ _).bind fun sig u hu _ => ?_
  refine (holds_bindArguments (hargs.mono (P.trans ht hu)) sig).bind fun params x hx hparams => ?_
  exact (hh.callFunction hparams).bind fun _ _ _ houtputs => holds_packResult houtputs

/-! ## The evaluator -/

mutual

theorem holds_evaluate (hh : P.HandlersKeep h) :
    ∀ (e : Expr) {w : World S}, P.AllowedVars vars w →
      P.Holds (evaluate ctx h vars e) w P.Allowed
  | .literal _ value, _, _ => Growth.Keeps.pure (allowed_ofLiteral value)
  | .nilLiteral _, _, _ => Growth.Keeps.pure (P.scalar trivial)
  | .var _ name, _, hv => holds_evalVariable hv name
  | .binary _ op left right, _, hv => by
    refine (holds_evaluate hh left hv).bind fun a t ht _ => ?_
    refine (holds_evaluate hh right (hv.mono ht)).bind fun b u _ _ => ?_
    refine holds_getHeap_bind fun _ => ?_
    exact Growth.Keeps.ofOutcome fun v hresult =>
      P.scalar (scalarResult_applyBinaryOp _ _ _ _ v hresult)
  | .unary _ op operand, _, hv => by
    refine (holds_evaluate hh operand hv).bind fun a t _ _ => ?_
    exact Growth.Keeps.ofOutcome fun v hresult => P.scalar (scalarResult_applyUnaryOp _ _ v hresult)
  | .member _ object member, _, hv =>
    (holds_evaluate hh object hv).bind fun _ _ _ hobject => holds_evalMember hobject member
  | .methodCall info object methodName args, _, hv =>
    holds_evalMethodCall hh hv info object methodName
      (fun _ ht => holds_evaluate hh object (hv.mono ht))
      (fun _ ht => holds_evaluateList hh args (hv.mono ht))
  | .index _ object index, _, hv => by
    refine (holds_evaluate hh object hv).bind fun a t ht hobject => ?_
    refine (holds_evaluate hh index (hv.mono ht)).bind fun b u hu hindex => ?_
    exact holds_evalIndex hh (P.allowed_mono hu hobject) hindex
  | .call _ name arguments, _, hv =>
    holds_evalCall hh name (argumentThunks_keep hh arguments hv)

theorem holds_evaluateList (hh : P.HandlersKeep h) :
    ∀ (es : List Expr) {w : World S}, P.AllowedVars vars w →
      P.Holds (evaluateList ctx h vars es) w P.AllowedAll
  | [], _, _ => Growth.Keeps.pure allowedAll_nil
  | e :: es, _, hv => by
    refine (holds_evaluate hh e hv).bind fun value t ht hvalue => ?_
    refine (holds_evaluateList hh es (hv.mono ht)).bind fun values u hu hvalues => ?_
    exact Growth.Keeps.pure (hvalues.cons (P.allowed_mono hu hvalue))

theorem argumentThunks_keep (hh : P.HandlersKeep h) :
    ∀ (arguments : List (Option String × Expr)) {w : World S}, P.AllowedVars vars w →
      ArgumentsKeep P (argumentThunks ctx h vars arguments) w
  | [], _, _ => fun _ harg => nomatch harg
  | (name, value) :: arguments, _, hv => by
    refine List.forall_mem_cons.mpr ⟨fun _ ht => ?_, argumentThunks_keep hh arguments hv⟩
    exact holds_evaluate hh value (hv.mono ht)

end

end Calls

end FalconLib.Dsl.Policy
