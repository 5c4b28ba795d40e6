import FalconLib.Dsl.IntArithmetic

/-!
# Pure expressions

Literals, variables, operators and member reads. They change nothing as long as every member that
is read exists: the accessor of a mutable instance makes the field that it misses.
-/

namespace FalconLib.Dsl.PureExpressions

open FalconLib.Base (Comp Outcome StdMap)
open ExprEvaluator (evaluate evalMember getField)
open IntArithmetic (bareContext bareHandlers)

inductive IsPure : Expr → Prop where
  | literal (info : ExprInfo) (value : Literal) : IsPure (.literal info value)
  | nilLiteral (info : ExprInfo) : IsPure (.nilLiteral info)
  | var (info : ExprInfo) (name : String) : IsPure (.var info name)
  | binary {info : ExprInfo} {op : String} {left right : Expr} (onLeft : IsPure left)
      (onRight : IsPure right) : IsPure (.binary info op left right)
  | unary {info : ExprInfo} {op : String} {operand : Expr} (inner : IsPure operand) :
      IsPure (.unary info op operand)
  | member {info : ExprInfo} {object : Expr} {name : String} (inner : IsPure object) :
      IsPure (.member info object name)

/-! ## What a pure expression means -/

def andThen (r : OpResult) (f : RuntimeValue → OpResult) : OpResult :=
  match r with
  | .ok value _ => f value
  | .throw e _ => .throw e ()
  | .halt reason => .halt reason

def readVariable (map : ParameterMap) (name : String) : OpResult :=
  match map[name]? with
  | some value => .value value
  | none =>
    if isQualified name then
      match map[stripModulePrefix name]? with
      | some value => .value value
      | none => .error ("Undefined variable: " ++ name)
    else .error ("Undefined variable: " ++ name)

/-- `get_field` on a constant instance: a missing field is an error. -/
def readField (object : StructInstance) (name : String) : OpResult :=
  match object.fields[name]? with
  | some value => .value value
  | none => .throw (.other ("Struct '" ++ object.typeName ++ "' has no field: " ++ name)) ()

def readMember (heap : Heap) (object : RuntimeValue) (name : String) : OpResult :=
  match object with
  | .struct id =>
    match heap.structs[id]? with
    | some object => readField object name
    | none => .error "StructInstance is nullptr"
  | object => .error ("Member access not yet implemented for type '" ++
      getRuntimeTypeName heap object ++ "': " ++ name)

/-- The value of a pure expression, where nothing is written. -/
def meaning (map : ParameterMap) (heap : Heap) : Expr → OpResult
  | .literal _ value => .value (RuntimeValue.ofLiteral value)
  | .nilLiteral _ => .value .nil
  | .var _ name => readVariable map name
  | .binary _ op left right => andThen (meaning map heap left) fun a =>
      andThen (meaning map heap right) fun b => applyBinaryOp heap op a b
  | .unary _ op operand => andThen (meaning map heap operand) fun a => applyUnaryOp op a
  | .member _ object name => andThen (meaning map heap object) fun a => readMember heap a name
  | _ => .error "Unknown expression type"

/-- No member read that is reached names a field which its object lacks. -/
def NoMissingField (map : ParameterMap) (heap : Heap) : Expr → Prop
  | .binary _ _ left right => NoMissingField map heap left ∧
      ∀ a, meaning map heap left = .value a → NoMissingField map heap right
  | .unary _ _ operand => NoMissingField map heap operand
  | .member _ object name => NoMissingField map heap object ∧
      ∀ id instance_, meaning map heap object = .value (.struct id) →
        heap.structs[id]? = some instance_ → instance_.fields[name]? ≠ none
  | _ => True

variable {S : Type}

/-- A computation ends in a state, with a value or with an exception. -/
def Ends {α : Type} (m : M S α) (w u : World S) : Prop :=
  (∃ a, (m w).outcome = .ok a u) ∨ ∃ e, (m w).outcome = .throw e u

/-- Variables and fields are as before. -/
structure Unchanged (w u : World S) : Prop where
  bound : u.memberVariables = w.memberVariables
  fields : ∀ id name, u.heap.field? id name = w.heap.field? id name

/-- What is expected of a pure expression. -/
structure PureEvaluation (ctx : Context S) (h : Handlers S) (vars : Variables) (e : Expr)
    (w : World S) : Prop where
  frame : ∀ u, Ends (evaluate ctx h vars e) w u → Unchanged w u
  missing : ∀ info object name, e = .member info object name → ∀ id u,
    (evaluate ctx h vars object w).outcome = .ok (.struct id) u → u.heap.field? id name = none →
      ∃ ex u', (evaluate ctx h vars e w).outcome = .throw ex u'

/-! ## Expressions whose members exist -/

/-- The computation has this result and leaves the world as it is. -/
def Agrees (m : M S RuntimeValue) (r : OpResult) (w : World S) : Prop :=
  (m w).outcome = ((Comp.ofOutcome r : M S RuntimeValue) w).outcome

theorem Agrees.bind {m : M S RuntimeValue} {f : RuntimeValue → M S RuntimeValue} {r : OpResult}
    {g : RuntimeValue → OpResult} {w : World S} (hm : Agrees m r w)
    (hf : ∀ a, r = .value a → Agrees (f a) (g a) w) : Agrees (m >>= f) (andThen r g) w := by
  cases r with
  | ok a _ => exact (Comp.bind_of_ok hm).trans (hf a rfl)
  | throw e _ => exact Comp.bind_of_throw hm
  | halt reason => exact Comp.bind_of_halt hm

theorem Agrees.unchanged {m : M S RuntimeValue} {r : OpResult} {w u : World S}
    (hm : Agrees m r w) (hu : Ends m w u) : u = w := by
  unfold Agrees at hm
  rcases hu with ⟨a, hu⟩ | ⟨e, hu⟩ <;> rw [hu] at hm <;> cases r <;> cases hm <;> rfl

theorem evalVariable_agrees (vars : Variables) (name : String) (w : World S) :
    Agrees (ExprEvaluator.evalVariable vars name) (readVariable (vars.read w) name) w := by
  unfold Agrees ExprEvaluator.evalVariable readVariable
  rw [Comp.outcome_gets_bind]
  cases (vars.read w)[name]? with
  | some value => rfl
  | none =>
    dsimp only
    by_cases hq : isQualified name
    · rw [if_pos hq, if_pos hq]
      cases (vars.read w)[stripModulePrefix name]? <;> rfl
    · rw [if_neg hq, if_neg hq]
      rfl

theorem field?_of_found {heap : Heap} {id : Nat} {name : String} {object : StructInstance}
    (hobject : heap.structs[id]? = some object) : heap.field? id name = object.fields[name]? := by
  unfold Heap.field?
  rw [hobject]
  rfl

theorem evalMember_agrees {w : World S} {object : RuntimeValue} {name : String}
    (h : ∀ id instance_, object = .struct id → w.heap.structs[id]? = some instance_ →
      instance_.fields[name]? ≠ none) :
    Agrees (evalMember object name) (readMember w.heap object name) w := by
  unfold Agrees evalMember readMember
  cases object with
  | struct id =>
    dsimp only
    unfold structAt
    rw [Comp.outcome_gets_bind]
    cases hobject : w.heap.structs[id]? with
    | none => rfl
    | some instance_ =>
      dsimp only
      unfold getField getHeap readField
      rw [Comp.outcome_gets_bind]
      rw [field?_of_found hobject]
      cases hfield : instance_.fields[name]? with
      | some value => rfl
      | none => exact absurd hfield (h id instance_ rfl hobject)
  | _ => rfl

variable {ctx : Context S} {h : Handlers S} {vars : Variables}

theorem evaluate_agrees {w : World S} {e : Expr} (hp : IsPure e)
    (hn : NoMissingField (vars.read w) w.heap e) :
    Agrees (evaluate ctx h vars e) (meaning (vars.read w) w.heap e) w := by
  induction hp with
  | literal info value =>
    unfold evaluate
    rfl
  | nilLiteral info =>
    unfold evaluate
    rfl
  | var info name =>
    unfold evaluate
    exact evalVariable_agrees vars name w
  | binary _ _ ihl ihr =>
    unfold evaluate
    refine (ihl hn.1).bind fun a ha => (ihr (hn.2 a ha)).bind fun b _ => ?_
    rfl
  | unary _ ih =>
    unfold evaluate
    exact (ih hn).bind fun a _ => rfl
  | member _ ih =>
    unfold evaluate
    refine (ih hn.1).bind fun a ha => evalMember_agrees fun id instance_ hid => ?_
    rw [hid] at ha
    exact hn.2 id instance_ ha

/-! ## A missing field is made -/

/-- Every field is still there. -/
def Keeps (w u : World S) : Prop :=
  ∀ id name, w.heap.field? id name ≠ none → u.heap.field? id name ≠ none

/-- Some object has a field that it lacked. -/
def Gains (w u : World S) : Prop :=
  ∃ id name, w.heap.field? id name = none ∧ u.heap.field? id name ≠ none

theorem Keeps.refl (w : World S) : Keeps w w := fun _ _ hfield => hfield

theorem Keeps.trans {w v u : World S} (hv : Keeps w v) (hu : Keeps v u) : Keeps w u :=
  fun id name hfield => hu id name (hv id name hfield)

theorem Gains.keeps {w v u : World S} (hv : Gains w v) (hu : Keeps v u) : Gains w u := by
  obtain ⟨id, name, hnone, hsome⟩ := hv
  exact ⟨id, name, hnone, hu id name hsome⟩

theorem Gains.not_unchanged {w u : World S} (hg : Gains w u) : ¬Unchanged w u := by
  obtain ⟨id, name, hnone, hsome⟩ := hg
  intro hu
  rw [hu.fields id name] at hsome
  exact hsome hnone

theorem ends_bind {α β : Type} {m : M S α} {f : α → M S β} {w u : World S}
    (hu : Ends (m >>= f) w u) : ∃ v, Ends m w v ∧ (u = v ∨ ∃ a, Ends (f a) v u) := by
  rcases hu with ⟨b, hok⟩ | ⟨e, hthrow⟩
  · obtain ⟨a, v, hm, hf⟩ := Comp.bind_eq_ok hok
    exact ⟨v, .inl ⟨a, hm⟩, .inr ⟨a, .inl ⟨b, hf⟩⟩⟩
  · rcases Comp.bind_eq_throw hthrow with hm | ⟨a, v, hm, hf⟩
    · exact ⟨u, .inr ⟨e, hm⟩, .inl rfl⟩
    · exact ⟨v, .inl ⟨a, hm⟩, .inr ⟨a, .inr ⟨e, hf⟩⟩⟩

theorem ends_bind_of_ok {α β : Type} {m : M S α} {f : α → M S β} {w v u : World S} {a : α}
    (hm : (m w).outcome = .ok a v) (hu : Ends (m >>= f) w u) : Ends (f a) v u := by
  unfold Ends at hu ⊢
  rw [Comp.bind_of_ok hm] at hu
  exact hu

theorem ends_ofOutcome {r : OpResult} {w u : World S}
    (hu : Ends (Comp.ofOutcome r : M S RuntimeValue) w u) : u = w :=
  Agrees.unchanged rfl hu

theorem ends_operator {op : String} {a b : RuntimeValue} {w u : World S}
    (hu : Ends (getHeap >>= fun heap =>
      (Comp.ofOutcome (applyBinaryOp heap op a b) : M S RuntimeValue)) w u) : u = w := by
  have hread : (getHeap w).outcome = Outcome.ok (ε := Exception) w.heap w := rfl
  have hop := ends_bind_of_ok hread hu
  exact ends_ofOutcome hop

theorem evalMember_gains {w u : World S} {id : Nat} {name : String} {instance_ : StructInstance}
    (hobject : w.heap.structs[id]? = some instance_) (hmissing : instance_.fields[name]? = none)
    (hu : Ends (evalMember (.struct id) name) w u) :
    u = { w with heap := w.heap.setField id name RuntimeValue.unset } := by
  have hread : w.heap.field? id name = none := (field?_of_found hobject).trans hmissing
  have houtcome : (evalMember (.struct id) name w).outcome =
      .ok RuntimeValue.unset { w with heap := w.heap.setField id name RuntimeValue.unset } := by
    unfold evalMember structAt
    dsimp only
    rw [Comp.outcome_gets_bind, hobject]
    dsimp only
    unfold getField getHeap
    rw [Comp.outcome_gets_bind, hread]
    rfl
  rcases hu with ⟨a, hu⟩ | ⟨e, hu⟩ <;> rw [houtcome] at hu <;> cases hu
  rfl

theorem gains_setField {w : World S} {id : Nat} {name : String} {instance_ : StructInstance}
    (hobject : w.heap.structs[id]? = some instance_) (hmissing : instance_.fields[name]? = none)
    (value : RuntimeValue) : Gains w { w with heap := w.heap.setField id name value } := by
  refine ⟨id, name, ?_, ?_⟩
  · exact (field?_of_found hobject).trans hmissing
  · have hlt : id < w.heap.structs.length := (List.getElem?_eq_some_iff.mp hobject).1
    change (w.heap.setField id name value).field? id name ≠ none
    rw [Heap.field?_setField _ _ _ _ _ _ hlt, if_pos ⟨rfl, rfl⟩]
    exact Option.some_ne_none value

theorem keeps_setField {w : World S} {id : Nat} {name : String} {instance_ : StructInstance}
    (hobject : w.heap.structs[id]? = some instance_) (value : RuntimeValue) :
    Keeps w { w with heap := w.heap.setField id name value } := by
  intro i n hfield
  have hlt : id < w.heap.structs.length := (List.getElem?_eq_some_iff.mp hobject).1
  change (w.heap.setField id name value).field? i n ≠ none
  rw [Heap.field?_setField _ _ _ _ _ _ hlt]
  by_cases hi : id = i ∧ name = n
  · rw [if_pos hi]
    exact Option.some_ne_none value
  · rw [if_neg hi]
    exact hfield

theorem evalMember_keeps {w u : World S} {object : RuntimeValue} {name : String}
    (hu : Ends (evalMember object name) w u) : Keeps w u := by
  by_cases hpresent : ∀ id instance_, object = .struct id →
      w.heap.structs[id]? = some instance_ → instance_.fields[name]? ≠ none
  · rw [(evalMember_agrees hpresent).unchanged hu]
    exact Keeps.refl w
  · push Not at hpresent
    obtain ⟨id, instance_, rfl, hobject, hmissing⟩ := hpresent
    rw [evalMember_gains hobject hmissing hu]
    exact keeps_setField hobject RuntimeValue.unset

theorem evaluate_keeps {e : Expr} (hp : IsPure e) :
    ∀ {w u : World S}, Ends (evaluate ctx h vars e) w u → Keeps w u := by
  induction hp with
  | literal info value =>
    intro w u hu
    rw [(evaluate_agrees (.literal info value) trivial).unchanged hu]
    exact Keeps.refl w
  | nilLiteral info =>
    intro w u hu
    rw [(evaluate_agrees (.nilLiteral info) trivial).unchanged hu]
    exact Keeps.refl w
  | var info name =>
    intro w u hu
    rw [(evaluate_agrees (.var info name) trivial).unchanged hu]
    exact Keeps.refl w
  | binary _ _ ihl ihr =>
    intro w u hu
    unfold evaluate at hu
    obtain ⟨v, hleft, rfl | ⟨a, hrest⟩⟩ := ends_bind hu
    · exact ihl hleft
    obtain ⟨v', hright, rfl | ⟨b, hop⟩⟩ := ends_bind hrest
    · exact (ihl hleft).trans (ihr hright)
    rw [ends_operator hop]
    exact (ihl hleft).trans (ihr hright)
  | unary _ ih =>
    intro w u hu
    unfold evaluate at hu
    obtain ⟨v, hoperand, rfl | ⟨a, hop⟩⟩ := ends_bind hu
    · exact ih hoperand
    rw [ends_ofOutcome hop]
    exact ih hoperand
  | member _ ih =>
    intro w u hu
    unfold evaluate at hu
    obtain ⟨v, hobject, rfl | ⟨a, hread⟩⟩ := ends_bind hu
    · exact ih hobject
    exact (ih hobject).trans (evalMember_keeps hread)

theorem evalMember_dangling {w : World S} {id : Nat} (name : String)
    (hobject : w.heap.structs[id]? = none) :
    (evalMember (.struct id) name w).outcome =
      .throw (.evaluation "StructInstance is nullptr") w := by
  unfold evalMember structAt
  dsimp only
  rw [Comp.outcome_gets_bind, hobject]
  rfl

theorem Agrees.value_of_ok {m : M S RuntimeValue} {r : OpResult} {w u : World S}
    {a : RuntimeValue} (hm : Agrees m r w) (ho : (m w).outcome = .ok a u) :
    r = .value a ∧ u = w := by
  unfold Agrees at hm
  rw [ho] at hm
  cases r <;> cases hm
  exact ⟨rfl, rfl⟩

theorem agrees_ok {m : M S RuntimeValue} {r : OpResult} {w : World S} {a : RuntimeValue}
    (hm : Agrees m r w) (hr : r = .value a) : (m w).outcome = .ok a w := by
  unfold Agrees at hm
  rw [hm, hr]
  rfl

theorem evaluate_gains {w u : World S} {e : Expr} (hp : IsPure e)
    (hn : ¬NoMissingField (vars.read w) w.heap e) (hu : Ends (evaluate ctx h vars e) w u) :
    Gains w u := by
  induction hp generalizing u with
  | literal info value => exact absurd trivial hn
  | nilLiteral info => exact absurd trivial hn
  | var info name => exact absurd trivial hn
  | @binary info op left right onLeft onRight ihl ihr =>
    unfold evaluate at hu
    by_cases hl : NoMissingField (vars.read w) w.heap left
    · have hr : ∃ a, meaning (vars.read w) w.heap left = .value a ∧
          ¬NoMissingField (vars.read w) w.heap right := by
        by_contra hnone
        push Not at hnone
        exact hn ⟨hl, hnone⟩
      obtain ⟨a, ha, hright⟩ := hr
      have hrest := ends_bind_of_ok (agrees_ok (evaluate_agrees onLeft hl) ha) hu
      obtain ⟨v, hv, rfl | ⟨b, hop⟩⟩ := ends_bind hrest
      · exact ihr hright hv
      · rw [ends_operator hop]
        exact ihr hright hv
    · obtain ⟨v, hleft, rfl | ⟨a, hrest⟩⟩ := ends_bind hu
      · exact ihl hl hleft
      obtain ⟨v', hright, rfl | ⟨b, hop⟩⟩ := ends_bind hrest
      · exact (ihl hl hleft).keeps (evaluate_keeps onRight hright)
      · rw [ends_operator hop]
        exact (ihl hl hleft).keeps (evaluate_keeps onRight hright)
  | unary _ ih =>
    unfold evaluate at hu
    obtain ⟨v, hoperand, rfl | ⟨a, hop⟩⟩ := ends_bind hu
    · exact ih hn hoperand
    · rw [ends_ofOutcome hop]
      exact ih hn hoperand
  | @member info object name inner ih =>
    unfold evaluate at hu
    by_cases hobject : NoMissingField (vars.read w) w.heap object
    · have hmissing : ∃ id instance_, meaning (vars.read w) w.heap object = .value (.struct id) ∧
          w.heap.structs[id]? = some instance_ ∧ instance_.fields[name]? = none := by
        by_contra hnone
        push Not at hnone
        exact hn ⟨hobject, hnone⟩
      obtain ⟨id, instance_, hid, hfound, hmissing⟩ := hmissing
      have hread := ends_bind_of_ok (agrees_ok (evaluate_agrees inner hobject) hid) hu
      rw [evalMember_gains hfound hmissing hread]
      exact gains_setField hfound hmissing RuntimeValue.unset
    · obtain ⟨v, hv, rfl | ⟨a, hread⟩⟩ := ends_bind hu
      · exact ih hobject hv
      · exact (ih hobject hv).keeps (evalMember_keeps hread)

/-! ## The whole promise -/

/-- A pure expression changes nothing, and reports a missing field, if and only if it reads none. -/
theorem pureEvaluation_iff {w : World S} {e : Expr} (hp : IsPure e)
    (hends : ∃ u, Ends (evaluate ctx h vars e) w u) :
    PureEvaluation ctx h vars e w ↔ NoMissingField (vars.read w) w.heap e := by
  constructor
  · intro hpure
    by_contra hn
    obtain ⟨u, hu⟩ := hends
    exact (evaluate_gains hp hn hu).not_unchanged (hpure.frame u hu)
  · intro hn
    constructor
    · intro u hu
      rw [(evaluate_agrees hp hn).unchanged hu]
      exact ⟨rfl, fun _ _ => rfl⟩
    · rintro info object name rfl id u hid hmissing
      cases hp with
      | member inner =>
        obtain ⟨hvalue, rfl⟩ := (evaluate_agrees inner hn.1).value_of_ok hid
        cases hobject : u.heap.structs[id]? with
        | some instance_ =>
          rw [field?_of_found hobject] at hmissing
          exact absurd hmissing (hn.2 id instance_ hvalue hobject)
        | none =>
          refine ⟨.evaluation "StructInstance is nullptr", u, ?_⟩
          unfold evaluate
          rw [Comp.bind_of_ok hid]
          exact evalMember_dangling name hobject

/-- One object with one field, in the variable `p`. -/
def onePoint : World Unit where
  heap := { structs := [{ typeName := "Point", fields := StdMap.assign ∅ "a" (.int 1) }] }
  store := ()

def holdingPoint : Variables := .own (StdMap.assign ∅ "p" (.struct 0))

def memberPlusOne (name : String) : Expr :=
  .binary {} "+" (.member {} (.var {} "p") name) (.literal {} (.int 1))

theorem isPure_memberPlusOne (name : String) : IsPure (memberPlusOne name) :=
  .binary (.member (.var {} "p")) (.literal {} (.int 1))

theorem pureEvaluation_present :
    PureEvaluation bareContext bareHandlers holdingPoint (memberPlusOne "a") onePoint := by
  have hends : ∃ u, Ends (evaluate bareContext bareHandlers holdingPoint (memberPlusOne "a"))
      onePoint u := ⟨onePoint, .inl ⟨.int 2, rfl⟩⟩
  refine (pureEvaluation_iff (isPure_memberPlusOne "a") hends).mpr ⟨⟨trivial, ?_⟩, ?_⟩
  · intro id instance_ hid hfound
    cases hid
    cases hfound
    exact Option.some_ne_none (RuntimeValue.int 1)
  · intro a ha
    trivial

/-- Reading `p.b` succeeds, and the object has a field `b` afterwards. -/
theorem not_pureEvaluation_missing :
    ∃ u, (evaluate bareContext bareHandlers holdingPoint (memberPlusOne "b") onePoint).outcome =
        .ok (.int 1) u ∧
      onePoint.heap.field? 0 "b" = none ∧ u.heap.field? 0 "b" = some (.int 0) ∧
      ¬PureEvaluation bareContext bareHandlers holdingPoint (memberPlusOne "b") onePoint := by
  have hrun : (evaluate bareContext bareHandlers holdingPoint (memberPlusOne "b")
      onePoint).outcome = .ok (.int 1)
        { onePoint with heap := onePoint.heap.setField 0 "b" RuntimeValue.unset } := rfl
  refine ⟨_, hrun, rfl, rfl, fun hpure => ?_⟩
  have hsame := (hpure.frame _ (.inl ⟨_, hrun⟩)).fields 0 "b"
  cases hsame

end FalconLib.Dsl.PureExpressions
