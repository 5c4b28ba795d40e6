import FalconLib.Base.Computation
import FalconLib.Dsl.Value

/-!
# Unary and binary operators

Signed overflow has no meaning in the source's language; the operators stop there.
-/

namespace FalconLib.Dsl

open FalconLib.Base (Binary64 Outcome)

abbrev OpResult := Outcome Exception Unit RuntimeValue

namespace OpResult

def value (v : RuntimeValue) : OpResult := .ok v ()

def error (message : String) : OpResult := .throw (.evaluation message) ()

def badVariantAccess : OpResult := .throw Exception.badVariantAccess ()

/-- A signed 64-bit result, if it can be represented. -/
def int64 (i : Int) : OpResult :=
  if -2 ^ 63 ≤ i ∧ i < 2 ^ 63 then value (.int (Int64.ofInt i)) else .halt .undefinedBehaviour

end OpResult

/-- The operand as a double; `std::get<int64_t>` fails on anything else. -/
def asDouble : RuntimeValue → Option Binary64
  | .float x => some x
  | .int i => some (Binary64.ofInt i.toInt)
  | _ => none

/-- Two ints, or a double and a number. Any other pair is left to `other`. -/
def numeric (onInts : Int → Int → OpResult) (onDoubles : Binary64 → Binary64 → OpResult)
    (other : OpResult) : RuntimeValue → RuntimeValue → OpResult
  | .int a, .int b => onInts a.toInt b.toInt
  | .float a, right =>
    match asDouble right with
    | some b => onDoubles a b
    | none => .badVariantAccess
  | left, .float b =>
    match asDouble left with
    | some a => onDoubles a b
    | none => .badVariantAccess
  | _, _ => other

def compared (onInts : Int → Int → Bool) (onDoubles : Binary64 → Binary64 → Bool)
    (other : OpResult) : RuntimeValue → RuntimeValue → OpResult :=
  numeric (fun a b => .value (.bool (onInts a b))) (fun a b => .value (.bool (onDoubles a b))) other

/-- Pointers into an arena of `bound` objects; all null pointers are equal. -/
def samePointer (bound i j : Nat) : Bool := i == j || (decide (bound ≤ i) && decide (bound ≤ j))

/-- `operator==` of the variant: shared pointers are compared, not what they point to. -/
def valuesEqual (heap : Heap) : RuntimeValue → RuntimeValue → Bool
  | .int a, .int b => a == b
  | .float a, .float b => a.eq b
  | .bool a, .bool b => a == b
  | .string a, .string b => a == b
  | .nil, .nil => true
  | .error a, .error b => a == b
  | .tuple i, .tuple j => samePointer heap.tuples.length i j
  | .struct i, .struct j => samePointer heap.structs.length i j
  | .array i, .array j => samePointer heap.arrays.length i j
  | _, _ => false

/-- The right operand is read only when the left one does not decide. -/
def logical (decisive : Bool) : RuntimeValue → RuntimeValue → OpResult
  | .bool a, right =>
    if a == decisive then .value (.bool decisive)
    else
      match right with
      | .bool b => .value (.bool b)
      | _ => .badVariantAccess
  | _, _ => .badVariantAccess

def applyBinaryOp (heap : Heap) (op : String) (left right : RuntimeValue) : OpResult :=
  let incompatible := OpResult.error ("Unknown or incompatible binary operator: " ++ op)
  match op with
  | "+" =>
    match left, right with
    | .string a, .string b => .value (.string (a ++ b))
    | left, right =>
      numeric (fun a b => .int64 (a + b)) (fun a b => .value (.float (a.add b))) incompatible
        left right
  | "-" =>
    numeric (fun a b => .int64 (a - b)) (fun a b => .value (.float (a.sub b))) incompatible
      left right
  | "*" =>
    numeric (fun a b => .int64 (a * b)) (fun a b => .value (.float (a.mul b))) incompatible
      left right
  | "/" =>
    numeric
      (fun a b => if b = 0 then .error "Division by zero" else .int64 (a.tdiv b))
      (fun a b =>
        if b.eq ⟨0⟩ then .error "Division by zero" else .value (.float (a.div b)))
      incompatible left right
  | "==" => .value (.bool (valuesEqual heap left right))
  | "!=" => .value (.bool (!valuesEqual heap left right))
  | "<" => compared (fun a b => decide (a < b)) Binary64.lt incompatible left right
  | ">" => compared (fun a b => decide (b < a)) (fun a b => b.lt a) incompatible left right
  | "<=" => compared (fun a b => decide (a ≤ b)) Binary64.le incompatible left right
  | ">=" => compared (fun a b => decide (b ≤ a)) (fun a b => b.le a) incompatible left right
  | "&&" => logical false left right
  | "||" => logical true left right
  | _ => incompatible

def applyUnaryOp (op : String) (operand : RuntimeValue) : OpResult :=
  let incompatible := OpResult.error ("Unknown or incompatible unary operator: " ++ op)
  match op with
  | "!" =>
    match operand with
    | .bool b => .value (.bool !b)
    | _ => .badVariantAccess
  | "-" =>
    match operand with
    | .int a => .int64 (-a.toInt)
    | .float a => .value (.float a.neg)
    | _ => incompatible
  | _ => incompatible

end FalconLib.Dsl
