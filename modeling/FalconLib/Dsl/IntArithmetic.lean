import FalconLib.Dsl.ExprEvaluator

/-!
# Arithmetic of 64-bit integers

Expressions of any depth whose leaves are integers. The operators compute the exact result; a
result that does not fit is undefined in the source's language, and no exception.
-/

namespace FalconLib.Dsl.IntArithmetic

open FalconLib.Base (Comp Outcome)
open ExprEvaluator (evaluate)

/-! ## Expressions over integers -/

inductive ArithOp where
  | add
  | sub
  | mul
  | div

namespace ArithOp

def symbol : ArithOp → String
  | add => "+"
  | sub => "-"
  | mul => "*"
  | div => "/"

/-- The exact result, for a division the truncated one. Nothing is divided by zero. -/
def exact : ArithOp → Int → Int → Option Int
  | add, a, b => some (a + b)
  | sub, a, b => some (a - b)
  | mul, a, b => some (a * b)
  | div, a, b => if b = 0 then none else some (a.tdiv b)

end ArithOp

/-- A leaf is an expression with the integer that it stands for. -/
inductive Arith where
  | leaf (expr : Expr) (value : Int64)
  | neg (info : ExprInfo) (operand : Arith)
  | binary (info : ExprInfo) (op : ArithOp) (left right : Arith)

namespace Arith

def toExpr : Arith → Expr
  | leaf expr _ => expr
  | neg info operand => .unary info "-" operand.toExpr
  | binary info op left right => .binary info op.symbol left.toExpr right.toExpr

end Arith

/-- A 64-bit integer. -/
def InRange (i : Int) : Prop := -2 ^ 63 ≤ i ∧ i < 2 ^ 63

instance (i : Int) : Decidable (InRange i) := inferInstanceAs (Decidable (_ ∧ _))

/-- The integer, if it can be represented. -/
def representable (i : Int) : Option Int64 := if InRange i then some (Int64.ofInt i) else none

namespace Arith

/-- Checked arithmetic: the exact result of every operation, as long as each is representable. -/
def checked : Arith → Option Int64
  | leaf _ value => some value
  | neg _ operand => operand.checked.bind fun x => representable (-x.toInt)
  | binary _ op left right => left.checked.bind fun x => right.checked.bind fun y =>
      (op.exact x.toInt y.toInt).bind representable

/-- No operation that is reached has an exact result out of range. -/
def NoOverflow : Arith → Prop
  | leaf _ _ => True
  | neg _ operand => operand.NoOverflow ∧ ∀ x, operand.checked = some x → InRange (-x.toInt)
  | binary _ op left right => left.NoOverflow ∧ ∀ x, left.checked = some x → right.NoOverflow ∧
      ∀ y, right.checked = some y → ∀ r, op.exact x.toInt y.toInt = some r → InRange r

end Arith

variable {S : Type} (ctx : Context S) (h : Handlers S) (vars : Variables)

/-- The leaves have their integers, and evaluating them changes nothing. -/
def LeavesHold (w : World S) : Arith → Prop
  | .leaf expr value => (evaluate ctx h vars expr w).outcome = .ok (.int value) w
  | .neg _ operand => LeavesHold w operand
  | .binary _ _ left right => LeavesHold w left ∧ LeavesHold w right

/-- The result of checked arithmetic, or an `EvaluationError`. -/
def Safe (w : World S) (e : Arith) : Prop :=
  (∀ x, e.checked = some x → (evaluate ctx h vars e.toExpr w).outcome = .ok (.int x) w) ∧
  (e.checked = none → ∃ message,
    (evaluate ctx h vars e.toExpr w).outcome = .throw (.evaluation message) w)

/-! ## Leaves -/

theorem leavesHold_literal (info : ExprInfo) (value : Int64) (w : World S) :
    LeavesHold ctx h vars w (.leaf (.literal info (.int value)) value) := rfl

theorem leavesHold_var {w : World S} {name : String} {value : Int64}
    (hbound : (vars.read w)[name]? = some (.int value)) (info : ExprInfo) :
    LeavesHold ctx h vars w (.leaf (.var info name) value) := by
  change ((ExprEvaluator.evalVariable vars name) w).outcome = _
  unfold ExprEvaluator.evalVariable
  rw [Comp.outcome_gets_bind, hbound]
  rfl

/-! ## Operators on integers -/

theorem int64_of_inRange {i : Int} (hi : InRange i) :
    OpResult.int64 i = .value (.int (Int64.ofInt i)) := if_pos hi

theorem int64_of_not_inRange {i : Int} (hi : ¬InRange i) :
    OpResult.int64 i = .halt .undefinedBehaviour := if_neg hi

theorem applyBinaryOp_int (heap : Heap) (op : ArithOp) (x y : Int64) :
    applyBinaryOp heap op.symbol (.int x) (.int y) =
      (op.exact x.toInt y.toInt).elim (.error "Division by zero") OpResult.int64 := by
  cases op with
  | div =>
    change (if y.toInt = 0 then _ else _) = (if y.toInt = 0 then none else some _).elim _ _
    by_cases hy : y.toInt = 0
    · rw [if_pos hy, if_pos hy]
      rfl
    · rw [if_neg hy, if_neg hy]
      rfl
  | _ => rfl

theorem representable_eq_some {i : Int} {x : Int64} :
    representable i = some x ↔ InRange i ∧ Int64.ofInt i = x := by
  unfold representable
  by_cases hi : InRange i
  · rw [if_pos hi, and_iff_right hi, Option.some_inj]
  · rw [if_neg hi]
    exact iff_of_false nofun fun hx => hi hx.1

/-- An operator on two integers that have been evaluated. -/
theorem evaluate_binary (info : ExprInfo) (op : ArithOp) {left right : Expr} {w : World S}
    {x y : Int64} (hl : (evaluate ctx h vars left w).outcome = .ok (.int x) w)
    (hr : (evaluate ctx h vars right w).outcome = .ok (.int y) w) :
    (evaluate ctx h vars (.binary info op.symbol left right) w).outcome =
      ((Comp.ofOutcome ((op.exact x.toInt y.toInt).elim (OpResult.error "Division by zero")
        OpResult.int64) : M S RuntimeValue) w).outcome := by
  rw [← applyBinaryOp_int w.heap]
  unfold evaluate
  exact (Comp.bind_of_ok hl).trans (Comp.bind_of_ok hr)

theorem evaluate_neg {info : ExprInfo} {operand : Expr} {w : World S} {x : Int64}
    (ho : (evaluate ctx h vars operand w).outcome = .ok (.int x) w) :
    (evaluate ctx h vars (.unary info "-" operand) w).outcome =
      ((Comp.ofOutcome (OpResult.int64 (-x.toInt)) : M S RuntimeValue) w).outcome := by
  unfold evaluate
  exact Comp.bind_of_ok ho

/-! ## Whole expressions -/

variable {ctx h vars}

theorem Safe.neg {w : World S} {info : ExprInfo} {operand : Arith}
    (ho : Safe ctx h vars w operand)
    (hrange : ∀ x, operand.checked = some x → InRange (-x.toInt)) :
    Safe ctx h vars w (.neg info operand) := by
  cases hc : operand.checked with
  | none =>
    obtain ⟨message, hthrow⟩ := ho.2 hc
    have hnone : (Arith.neg info operand).checked = none := by
      change operand.checked.bind _ = none
      rw [hc, Option.bind_none]
    refine ⟨fun x hx => ?_, fun _ => ⟨message, ?_⟩⟩
    · rw [hnone] at hx
      cases hx
    · unfold Arith.toExpr evaluate
      exact Comp.bind_of_throw hthrow
  | some x =>
    have hsome : (Arith.neg info operand).checked = some (Int64.ofInt (-x.toInt)) := by
      change operand.checked.bind _ = _
      rw [hc, Option.bind_some]
      exact representable_eq_some.mpr ⟨hrange x hc, rfl⟩
    refine ⟨fun y hy => ?_, fun hnone => ?_⟩
    · obtain rfl := Option.some.inj (hsome.symm.trans hy)
      refine (evaluate_neg ctx h vars (ho.1 x hc)).trans ?_
      rw [int64_of_inRange (hrange x hc)]
      rfl
    · rw [hsome] at hnone
      cases hnone

theorem Safe.binary {w : World S} {info : ExprInfo} {op : ArithOp} {left right : Arith}
    (hl : Safe ctx h vars w left)
    (hr : ∀ x, left.checked = some x → Safe ctx h vars w right)
    (hrange : ∀ x, left.checked = some x → ∀ y, right.checked = some y →
      ∀ r, op.exact x.toInt y.toInt = some r → InRange r) :
    Safe ctx h vars w (.binary info op left right) := by
  have hchecked : (Arith.binary info op left right).checked = left.checked.bind fun x =>
      right.checked.bind fun y => (op.exact x.toInt y.toInt).bind representable := rfl
  cases hcl : left.checked with
  | none =>
    obtain ⟨message, hthrow⟩ := hl.2 hcl
    rw [hcl, Option.bind_none] at hchecked
    refine ⟨fun x hx => ?_, fun _ => ⟨message, ?_⟩⟩
    · rw [hchecked] at hx
      cases hx
    · unfold Arith.toExpr evaluate
      exact Comp.bind_of_throw hthrow
  | some x =>
    have hleft := hl.1 x hcl
    rw [hcl, Option.bind_some] at hchecked
    cases hcr : right.checked with
    | none =>
      obtain ⟨message, hthrow⟩ := (hr x hcl).2 hcr
      rw [hcr, Option.bind_none] at hchecked
      refine ⟨fun y hy => ?_, fun _ => ⟨message, ?_⟩⟩
      · rw [hchecked] at hy
        cases hy
      · unfold Arith.toExpr evaluate
        exact (Comp.bind_of_ok hleft).trans (Comp.bind_of_throw hthrow)
    | some y =>
      have hvalue := evaluate_binary ctx h vars info op hleft ((hr x hcl).1 y hcr)
      rw [hcr, Option.bind_some] at hchecked
      cases hexact : op.exact x.toInt y.toInt with
      | none =>
        rw [hexact] at hvalue hchecked
        refine ⟨fun z hz => ?_, fun _ => ⟨"Division by zero", hvalue⟩⟩
        rw [hchecked] at hz
        cases hz
      | some r =>
        have hin := hrange x hcl y hcr r hexact
        rw [hexact, Option.bind_some, representable_eq_some.mpr ⟨hin, rfl⟩] at hchecked
        rw [hexact, Option.elim_some, int64_of_inRange hin] at hvalue
        refine ⟨fun z hz => ?_, fun hnone => ?_⟩
        · obtain rfl := Option.some.inj (hchecked.symm.trans hz)
          exact hvalue
        · rw [hchecked] at hnone
          cases hnone

theorem safe_of_noOverflow {w : World S} {e : Arith} (hleaves : LeavesHold ctx h vars w e)
    (hno : e.NoOverflow) : Safe ctx h vars w e := by
  induction e with
  | leaf expr value =>
    refine ⟨fun x hx => ?_, nofun⟩
    obtain rfl := Option.some.inj hx
    exact hleaves
  | neg info operand ih => exact (ih hleaves hno.1).neg hno.2
  | binary info op left right ihl ihr =>
    exact (ihl hleaves.1 hno.1).binary (fun x hx => ihr hleaves.2 (hno.2 x hx).1)
      fun x hx => (hno.2 x hx).2

/-- The first operation that overflows ends the evaluation. -/
theorem halt_of_overflow {w : World S} {e : Arith} (hleaves : LeavesHold ctx h vars w e)
    (hover : ¬e.NoOverflow) :
    (evaluate ctx h vars e.toExpr w).outcome = .halt .undefinedBehaviour := by
  induction e with
  | leaf expr value => exact absurd trivial hover
  | neg info operand ih =>
    by_cases ho : operand.NoOverflow
    · obtain ⟨x, hx, hrange⟩ : ∃ x, operand.checked = some x ∧ ¬InRange (-x.toInt) := by
        by_contra hall
        exact hover ⟨ho, fun x hx => not_not.mp fun hrange => hall ⟨x, hx, hrange⟩⟩
      have hinner : LeavesHold ctx h vars w operand := hleaves
      refine (evaluate_neg ctx h vars ((safe_of_noOverflow hinner ho).1 x hx)).trans ?_
      rw [int64_of_not_inRange hrange]
      rfl
    · unfold Arith.toExpr evaluate
      exact Comp.bind_of_halt (ih hleaves ho)
  | binary info op left right ihl ihr =>
    by_cases hl : left.NoOverflow
    · have hsafe := safe_of_noOverflow hleaves.1 hl
      by_cases hr : ∀ x, left.checked = some x → right.NoOverflow
      · obtain ⟨x, hx, y, hy, r, hexact, hrange⟩ : ∃ x, left.checked = some x ∧
            ∃ y, right.checked = some y ∧ ∃ r, op.exact x.toInt y.toInt = some r ∧ ¬InRange r := by
          by_contra hall
          refine hover ⟨hl, fun x hx => ⟨hr x hx, fun y hy r hexact => ?_⟩⟩
          exact not_not.mp fun hrange => hall ⟨x, hx, y, hy, r, hexact, hrange⟩
        have hright := (safe_of_noOverflow hleaves.2 (hr x hx)).1 y hy
        refine (evaluate_binary ctx h vars _ _ (hsafe.1 x hx) hright).trans ?_
        rw [hexact, Option.elim_some, int64_of_not_inRange hrange]
        rfl
      · obtain ⟨x, hx, hright⟩ : ∃ x, left.checked = some x ∧ ¬right.NoOverflow := by
          by_contra hall
          exact hr fun x hx => not_not.mp fun hright => hall ⟨x, hx, hright⟩
        unfold Arith.toExpr evaluate
        exact (Comp.bind_of_ok (hsafe.1 x hx)).trans (Comp.bind_of_halt (ihr hleaves.2 hright))
    · unfold Arith.toExpr evaluate
      exact Comp.bind_of_halt (ihl hleaves.1 hl)

/-- Integer arithmetic is safe exactly where no result overflows. -/
theorem safe_iff {w : World S} {e : Arith} (hleaves : LeavesHold ctx h vars w e) :
    Safe ctx h vars w e ↔ e.NoOverflow := by
  refine ⟨fun hsafe => not_not.mp fun hover => ?_, safe_of_noOverflow hleaves⟩
  have hhalt := halt_of_overflow hleaves hover
  cases hc : e.checked with
  | none =>
    obtain ⟨message, hthrow⟩ := hsafe.2 hc
    rw [hhalt] at hthrow
    cases hthrow
  | some x =>
    have hok := hsafe.1 x hc
    rw [hhalt] at hok
    cases hok

/-! ## Two sums -/

/-- Nothing is loaded, and nothing outside the tree is called. -/
def bareContext : Context Unit where
  host := Host.unlinked

def bareHandlers : Handlers Unit where
  evaluate _ _ := Comp.throw (.other "not called")
  execStructRoutine _ _ _ _ := Comp.throw (.other "not called")
  callFunction _ _ := Comp.throw (.other "not called")

def sum (a b : Int64) : Arith :=
  .binary {} .add (.leaf (.literal {} (.int a)) a) (.leaf (.literal {} (.int b)) b)

theorem safe_iff_sum : Safe bareContext bareHandlers (.own ∅) { store := () } (sum 7 (-9)) := by
  have hleaves : LeavesHold bareContext bareHandlers (.own ∅) { store := () } (sum 7 (-9)) :=
    ⟨rfl, rfl⟩
  refine (safe_iff hleaves).mpr ⟨trivial, fun x hx => ⟨trivial, fun y hy r hr => ?_⟩⟩
  cases hx
  cases hy
  cases hr
  decide

/-- The largest integer plus one is neither exact nor an error. -/
theorem not_safe_overflow :
    (evaluate bareContext bareHandlers (.own ∅) (sum 9223372036854775807 1).toExpr
      { store := () }).outcome = .halt .undefinedBehaviour ∧
    ¬Safe bareContext bareHandlers (.own ∅) { store := () } (sum 9223372036854775807 1) := by
  have hhalt : (evaluate bareContext bareHandlers (.own ∅) (sum 9223372036854775807 1).toExpr
      { store := () }).outcome = .halt .undefinedBehaviour := rfl
  refine ⟨hhalt, fun hsafe => ?_⟩
  have hnone : (sum 9223372036854775807 1).checked = none := by decide
  obtain ⟨message, hthrow⟩ := hsafe.2 hnone
  rw [hhalt] at hthrow
  cases hthrow

end FalconLib.Dsl.IntArithmetic
