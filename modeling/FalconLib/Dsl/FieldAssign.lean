import FalconLib.Dsl.Restoration

/-!
# The frame of a field assignment

`q.f = e` writes field `f` of the object behind `q`, and then the variable named `f`
if there is one. Inside a struct routine that variable is the copy of the field.
Elsewhere it is any variable that happens to have the field's name.
-/

namespace FalconLib.Dsl.FieldAssign

open FalconLib.Base
open StmtExecutor

variable {S : Type}

/-! ## Assignments of a value -/

section Values

variable (ctx : Context S) (h : Handlers S)

/-- The assignment of a value to its targets. -/
def assignTargets (vars : Variables) (targets : List AssignTarget) (value : RuntimeValue) :
    M S Variables :=
  match targets with
  | [] => Comp.halt .undefinedBehaviour
  | [target] => assignSingle vars target value
  | targets => assignTuple ctx h vars targets value

/-- The assignment of a value to the field of an object. -/
def assignField (vars : Variables) (object : Expr) (field : String) (value : RuntimeValue) :
    M S Variables := do
  match object with
  | .var _ name => do
    let id ← structVariable vars name
      "Undefined variable in struct field assignment: "
      (.evaluation ("Variable '" ++ name ++ "' is not a struct instance"))
    setField id field value
    syncFlatCopy vars field value
  | _ => evaluationError "Struct field assignment requires a variable as the object"

variable {ctx h} {vars : Variables}

theorem execAssign_eq (targets : List AssignTarget) (value : Expr) :
    execAssign ctx h vars targets value =
      ExprEvaluator.evaluate ctx h vars value >>= assignTargets ctx h vars targets := rfl

theorem execStructFieldAssign_eq (object : Expr) (field : String) (value : Expr) :
    execStructFieldAssign ctx h vars object field value =
      ExprEvaluator.evaluate ctx h vars value >>= assignField vars object field := rfl

end Values

/-! ## The flat copy -/

/-- The map after the flat copy of a field was brought up to date. -/
def flatCopied (map : ParameterMap) (field : String) (value : RuntimeValue) : ParameterMap :=
  match map[field]? with
  | some _ => map.assign field value
  | none => map

theorem getElem?_flatCopied (map : ParameterMap) (field x : String) (value : RuntimeValue) :
    (flatCopied map field value)[x]? =
      if field = x ∧ map[field]?.isSome then some value else map[x]? := by
  unfold flatCopied
  cases hf : map[field]? with
  | none => rw [if_neg fun h => Bool.false_ne_true h.2]
  | some old =>
    change (map.assign field value)[x]? = _
    rw [StdMap.getElem?_assign]
    by_cases hx : field = x
    · rw [if_pos hx, if_pos ⟨hx, rfl⟩]
    · rw [if_neg hx, if_neg fun h => hx h.1]

/-- The copy changes no variable exactly when there is none of that name, or it has
the value already. -/
theorem flatCopied_eq_iff (map : ParameterMap) (field : String) (value : RuntimeValue) :
    (∀ x : String, (flatCopied map field value)[x]? = map[x]?) ↔
      map[field]? = none ∨ map[field]? = some value := by
  constructor
  · intro h
    have hf := h field
    rw [getElem?_flatCopied] at hf
    cases hm : map[field]? with
    | none => exact .inl rfl
    | some old =>
      rw [hm, if_pos ⟨rfl, rfl⟩] at hf
      exact .inr hf.symm
  · intro h x
    rw [getElem?_flatCopied]
    split
    · rename_i hx
      obtain ⟨rfl, hsome⟩ := hx
      rcases h with h | h
      · rw [h] at hsome
        cases hsome
      · exact h.symm
    · rfl

/-- The executed write of the map. -/
theorem write_outcome (vars : Variables) (map : ParameterMap) (w : World S) :
    ∃ vars' w', (vars.write map w).outcome = .ok vars' w' ∧ vars'.read w' = map ∧
      w'.heap = w.heap ∧ w'.types = w.types ∧ w'.store = w.store := by
  cases vars with
  | member => exact ⟨.member, { w with memberVariables := map }, rfl, rfl, rfl, rfl, rfl⟩
  | own old => exact ⟨.own map, w, rfl, rfl, rfl, rfl, rfl⟩

theorem syncFlatCopy_outcome (vars : Variables) (field : String) (value : RuntimeValue)
    (w : World S) :
    ∃ vars' w', (syncFlatCopy vars field value w).outcome = .ok vars' w' ∧
      vars'.read w' = flatCopied (vars.read w) field value ∧
      w'.heap = w.heap ∧ w'.types = w.types ∧ w'.store = w.store := by
  unfold syncFlatCopy flatCopied
  rw [Comp.outcome_gets_bind]
  cases (vars.read w)[field]? with
  | none => exact ⟨vars, w, rfl, rfl, rfl, rfl, rfl⟩
  | some old => exact write_outcome vars _ w

/-- The object that a variable refers to. -/
def receiver (vars : Variables) (q : String) (w : World S) : Option Nat :=
  match (vars.read w)[q]? with
  | some (.struct id) => if id < w.heap.structs.length then some id else none
  | _ => none

theorem receiver_eq_some {vars : Variables} {q : String} {w : World S} {id : Nat}
    (h : receiver vars q w = some id) :
    (vars.read w)[q]? = some (.struct id) ∧ id < w.heap.structs.length := by
  unfold receiver at h
  split at h
  · rename_i i hq
    split at h
    · rename_i hlt
      cases h
      exact ⟨hq, hlt⟩
    · cases h
  · cases h

theorem structVariable_of_receiver {vars : Variables} {q : String} {w : World S} {id : Nat}
    (h : receiver vars q w = some id) (undefinedMessage : String) (notStruct : Exception) :
    (structVariable vars q undefinedMessage notStruct w).outcome = .ok id w := by
  obtain ⟨hq, hlt⟩ := receiver_eq_some h
  simp only [structVariable, structAt, Comp.outcome_gets_bind, hq,
    List.getElem?_eq_getElem hlt, Comp.pure_apply]

/-- Without an object behind the variable the assignment raises. -/
theorem structVariable_of_none {vars : Variables} {q : String} {w : World S}
    (h : receiver vars q w = none) (undefinedMessage : String) (notStruct : Exception) :
    ∃ e, (structVariable vars q undefinedMessage notStruct w).outcome = .throw e w := by
  unfold receiver at h
  unfold structVariable
  rw [Comp.outcome_gets_bind]
  cases hq : (vars.read w)[q]? with
  | none => exact ⟨_, rfl⟩
  | some value =>
    cases value with
    | struct id =>
      rw [hq] at h
      dsimp only at h
      split at h
      · cases h
      · rename_i hlt
        simp only [structAt, Comp.outcome_gets_bind,
          List.getElem?_eq_none (Nat.le_of_not_lt hlt)]
        exact ⟨_, rfl⟩
    | _ => exact ⟨_, rfl⟩

/-! ## The frame -/

/-- The statement has changed field `field` of object `id`, and nothing else. -/
structure OnlyField (before after : ParameterMap) (w w' : World S) (id : Nat) (field : String)
    (value : RuntimeValue) : Prop where
  plainVariables : ∀ x : String, after[x]? = before[x]?
  written : w'.heap.field? id field = some value
  otherFields : ∀ i name, ¬(id = i ∧ field = name) → w'.heap.field? i name = w.heap.field? i name
  tuples : w'.heap.tuples = w.heap.tuples
  arrays : w'.heap.arrays = w.heap.arrays
  types : w'.types = w.types
  store : w'.store = w.store

/-- What the statement may do from `w`, where `wₑ` is the world in which its right side
has the value: write the field, or raise without any change. -/
def Framed (vars : Variables) (q field : String) (value : RuntimeValue) (w wₑ : World S)
    (outcome : FalconLib.Base.Outcome Exception (World S) (ControlFlow × Variables)) : Prop :=
  match outcome with
  | .ok (_, vars') w' => ∃ id, receiver vars q wₑ = some id ∧
      OnlyField (vars.read w) (vars'.read w') wₑ w' id field value
  | .throw _ w' => w' = wₑ ∧ vars.read w' = vars.read w
  | .halt _ => False

/-- The world after the write to the object. -/
def written (w : World S) (id : Nat) (field : String) (value : RuntimeValue) : World S :=
  { w with heap := w.heap.setField id field value }

section

variable {ctx : Context S} {h : Handlers S} {vars : Variables} {q : String} {e : Expr}
  {value : RuntimeValue} {w wₑ : World S}

theorem exec_of_receiver (he : (ExprEvaluator.evaluate ctx h vars e w).outcome = .ok value wₑ)
    {id : Nat} (hr : receiver vars q wₑ = some id) (info : ExprInfo) (field : String) :
    (execStructFieldAssign ctx h vars (.var info q) field e w).outcome =
      (syncFlatCopy vars field value (written wₑ id field value)).outcome := by
  unfold execStructFieldAssign
  rw [Comp.bind_of_ok he]
  dsimp only
  rw [Comp.bind_of_ok (structVariable_of_receiver hr _ _)]
  rfl

theorem exec_of_none (he : (ExprEvaluator.evaluate ctx h vars e w).outcome = .ok value wₑ)
    (hr : receiver vars q wₑ = none) (info : ExprInfo) (field : String) :
    ∃ x, (execStructFieldAssign ctx h vars (.var info q) field e w).outcome = .throw x wₑ := by
  obtain ⟨x, hx⟩ := structVariable_of_none hr
    "Undefined variable in struct field assignment: "
    (.evaluation ("Variable '" ++ q ++ "' is not a struct instance"))
  refine ⟨x, ?_⟩
  unfold execStructFieldAssign
  rw [Comp.bind_of_ok he]
  exact Comp.bind_of_throw hx

end

/-- A write of the field and of its copy is framed when the copy changes no variable. -/
theorem onlyField_iff {before after : ParameterMap} {w w' : World S} {id : Nat}
    {field : String} {value : RuntimeValue} (hid : id < w.heap.structs.length)
    (hafter : after = flatCopied before field value)
    (hheap : w'.heap = w.heap.setField id field value) (htypes : w'.types = w.types)
    (hstore : w'.store = w.store) :
    OnlyField before after w w' id field value ↔
      before[field]? = none ∨ before[field]? = some value := by
  rw [← flatCopied_eq_iff, ← hafter]
  refine ⟨OnlyField.plainVariables, fun hv => ⟨hv, ?_, fun i name hne => ?_, ?_, ?_, htypes, hstore⟩⟩
  · rw [hheap, Heap.field?_setField _ _ _ _ _ _ hid, if_pos ⟨rfl, rfl⟩]
  · rw [hheap, Heap.field?_setField _ _ _ _ _ _ hid, if_neg hne]
  · rw [hheap]
    rfl
  · rw [hheap]
    rfl

variable (ctx : Context S) (fuel : Nat) (vars : Variables) (location : Location)
  (info : ExprInfo) (q field : String) (e : Expr) (value : RuntimeValue) (w wₑ : World S)

/-- The assignment stays within its field exactly when `q` is no object, or no variable
has the field's name, or that variable has the value already. -/
theorem framed_iff
    (he : (ExprEvaluator.evaluate ctx (Interpreter.handlers ctx fuel) vars e w).outcome =
      .ok value wₑ) :
    Framed vars q field value w wₑ
        (execute ctx (Interpreter.handlers ctx fuel) vars
          (.structFieldAssign location (.var info q) field e) w).outcome ↔
      receiver vars q wₑ = none ∨ (vars.read w)[field]? = none ∨
        (vars.read w)[field]? = some value := by
  have hmap : wₑ.memberVariables = w.memberVariables :=
    (Restoration.evaluate_restores ctx fuel vars e).ok w value wₑ he
  have hread : vars.read wₑ = vars.read w := by
    cases vars with
    | own map => rfl
    | member => exact hmap
  unfold execute executeWithContext goOn
  cases hr : receiver vars q wₑ with
  | none =>
    obtain ⟨x, hx⟩ := exec_of_none he hr info field
    rw [Comp.tryCatch_of_throw (Comp.bind_of_throw hx)]
    exact ⟨fun _ => .inl rfl, fun _ => ⟨rfl, hread⟩⟩
  | some id =>
    have hexec := exec_of_receiver he hr info field
    obtain ⟨vars', w', hsync, hmap', hheap, htypes, hstore⟩ :=
      syncFlatCopy_outcome vars field value (written wₑ id field value)
    rw [hsync] at hexec
    have hafter : vars'.read w' = flatCopied (vars.read w) field value := by
      rw [hmap', ← hread]
      cases vars <;> rfl
    rw [Comp.tryCatch_of_ok (Comp.bind_of_ok hexec)]
    have hiff := onlyField_iff (receiver_eq_some hr).2 hafter hheap htypes hstore
    constructor
    · rintro ⟨id', hid, honly⟩
      obtain rfl := Option.some.inj (hr.symm.trans hid)
      exact .inr (hiff.mp honly)
    · rintro (h | h)
      · cases h
      · exact ⟨id, hr, hiff.mpr h⟩

/-- A variable `value` next to an object `q` with a field of that name. -/
def clashing : World Unit where
  heap := { structs := [{ typeName := "Q", fields := StdMap.assign ∅ "value" (.int 1) }] }
  memberVariables := (StdMap.assign ∅ "q" (RuntimeValue.struct 0)).assign "value" (.int 5)
  store := ()

theorem framed_iff_clashing :
    Framed .member "q" "value" (.int 10) clashing clashing
        (execute { host := Host.unlinked } (Interpreter.handlers { host := Host.unlinked } 1)
          .member (.structFieldAssign {} (.var {} "q") "value" (.literal {} (.int 10)))
          clashing).outcome ↔
      receiver .member "q" clashing = none ∨
        (Variables.member.read clashing)["value"]? = none ∨
        (Variables.member.read clashing)["value"]? = some (.int 10) :=
  framed_iff { host := Host.unlinked } 1 .member {} {} "q" "value" (.literal {} (.int 10))
    (.int 10) clashing clashing rfl

/-- `q.value = 10` overwrites the variable `value`. -/
theorem not_framed_clashing :
    ¬ ∀ (ctx : Context Unit) (fuel : Nat) (vars : Variables) (location : Location)
        (info : ExprInfo) (q field : String) (e : Expr) (value : RuntimeValue)
        (w wₑ : World Unit),
      (ExprEvaluator.evaluate ctx (Interpreter.handlers ctx fuel) vars e w).outcome =
          .ok value wₑ →
        Framed vars q field value w wₑ
          (execute ctx (Interpreter.handlers ctx fuel) vars
            (.structFieldAssign location (.var info q) field e) w).outcome := by
  intro h
  obtain ⟨id, _, honly⟩ := h { host := Host.unlinked } 1 .member {} {} "q" "value"
    (.literal {} (.int 10)) (.int 10) clashing clashing rfl
  exact absurd (honly.plainVariables "value") (by decide)

end FalconLib.Dsl.FieldAssign
