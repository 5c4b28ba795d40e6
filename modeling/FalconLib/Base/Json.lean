import FalconLib.Base.Binary64
import Mathlib.Data.String.Basic

/-!
# JSON documents

`Json` is what a C++ JSON library holds in memory. An object is an ordered map: its members
are listed in ascending order of their keys. A `JsonLibrary` prints and parses documents.
-/

namespace FalconLib.Base

/-- A JSON number without fraction: what 64 bits hold with or without a sign. -/
structure JsonInteger where
  val : Int
  lower : -2 ^ 63 ≤ val
  upper : val < 2 ^ 64
deriving DecidableEq

def JsonInteger.ofInt64 (i : Int64) : JsonInteger where
  val := i.toInt
  lower := i.le_toInt
  upper := lt_trans i.toInt_lt (by decide)

inductive Json where
  | null
  | boolean (value : Bool)
  | integer (value : JsonInteger)
  | float (value : Binary64)
  | string (value : String)
  | array (elements : List Json)
  | object (members : List (String × Json))

/-- Why a value could not be read from a document. -/
inductive JsonFailure where
  | exception (what : String)
  /-- The language gives the access no meaning: an absent key of a constant document, or a
  number that does not fit. -/
  | undefined
deriving DecidableEq, Repr

/-- Printing with an optional indentation, and parsing. -/
structure JsonLibrary where
  dump : Option Nat → Json → String
  parse : String → Except String Json
  /-- `stream >> json`. What follows the first document stays in the stream. -/
  extract : String → Except String Json

/-! ## The members of an object -/

namespace Members

variable {V : Type}

/-- `object[key] = value`. -/
def assign (key : String) (value : V) : List (String × V) → List (String × V)
  | [] => [(key, value)]
  | member :: rest =>
    if key < member.1 then (key, value) :: member :: rest
    else if key = member.1 then (key, value) :: rest
    else member :: assign key value rest

def Ascending (members : List (String × V)) : Prop := members.Pairwise fun a b => a.1 < b.1

@[simp] theorem lookup_assign_self (key : String) (value : V) (members : List (String × V)) :
    (assign key value members).lookup key = some value := by
  induction members with
  | nil => exact List.lookup_cons_self
  | cons member rest ih =>
    unfold assign
    by_cases hlt : key < member.1
    · rw [if_pos hlt]
      exact List.lookup_cons_self
    · rw [if_neg hlt]
      by_cases heq : key = member.1
      · rw [if_pos heq]
        exact List.lookup_cons_self
      · rw [if_neg heq, List.lookup_cons, beq_eq_false_iff_ne.mpr heq]
        exact ih

theorem lookup_assign_ne {key k : String} (value : V) (members : List (String × V))
    (h : k ≠ key) : (assign key value members).lookup k = members.lookup k := by
  have hk : (k == key) = false := beq_eq_false_iff_ne.mpr h
  induction members with
  | nil => rw [assign, List.lookup_cons, hk]
  | cons member rest ih =>
    unfold assign
    by_cases hlt : key < member.1
    · rw [if_pos hlt, List.lookup_cons, hk]
    · rw [if_neg hlt]
      by_cases heq : key = member.1
      · rw [if_pos heq, List.lookup_cons, hk, List.lookup_cons, ← heq, hk]
      · rw [if_neg heq, List.lookup_cons, List.lookup_cons, ih]

theorem mem_assign {key : String} {value : V} {members : List (String × V)} {m : String × V}
    (h : m ∈ assign key value members) : m = (key, value) ∨ m ∈ members := by
  induction members with
  | nil => exact .inl (List.mem_singleton.mp h)
  | cons member rest ih =>
    unfold assign at h
    by_cases hlt : key < member.1
    · rw [if_pos hlt] at h
      exact List.mem_cons.mp h
    · rw [if_neg hlt] at h
      by_cases heq : key = member.1
      · rw [if_pos heq] at h
        exact (List.mem_cons.mp h).imp_right (List.mem_cons_of_mem _)
      · rw [if_neg heq] at h
        obtain rfl | h := List.mem_cons.mp h
        · exact .inr List.mem_cons_self
        · exact (ih h).imp_right (List.mem_cons_of_mem _)

theorem ascending_assign (key : String) (value : V) {members : List (String × V)}
    (h : Ascending members) : Ascending (assign key value members) := by
  induction members with
  | nil => exact List.pairwise_singleton _ _
  | cons member rest ih =>
    obtain ⟨hfirst, hrest⟩ := List.pairwise_cons.mp h
    unfold assign
    by_cases hlt : key < member.1
    · rw [if_pos hlt]
      refine List.pairwise_cons.mpr ⟨fun m hm => ?_, h⟩
      obtain rfl | hm := List.mem_cons.mp hm
      · exact hlt
      · exact lt_trans hlt (hfirst m hm)
    · rw [if_neg hlt]
      by_cases heq : key = member.1
      · rw [if_pos heq]
        exact List.pairwise_cons.mpr ⟨fun m hm => heq ▸ hfirst m hm, hrest⟩
      · rw [if_neg heq]
        refine List.pairwise_cons.mpr ⟨fun m hm => ?_, ih hrest⟩
        obtain rfl | hm := mem_assign hm
        · exact lt_of_le_of_ne (not_lt.mp hlt) (Ne.symm heq)
        · exact hfirst m hm

end Members

/-! ## Reading a document -/

namespace Json

/-- `type_name()`. -/
def typeName : Json → String
  | null => "null"
  | boolean _ => "boolean"
  | integer _ => "number"
  | float _ => "number"
  | string _ => "string"
  | array _ => "array"
  | object _ => "object"

/-- `contains(key)`, and the member if it does. -/
def find? (key : String) : Json → Option Json
  | object members => members.lookup key
  | _ => none

def typeError (expected : String) (j : Json) : JsonFailure :=
  .exception ("[json.exception.type_error.302] type must be " ++ expected ++ ", but is "
    ++ j.typeName)

/-- `get<std::string>()`. -/
def getString : Json → Except JsonFailure String
  | string s => .ok s
  | j => .error (typeError "string" j)

/-- `get<double>()`. -/
def getDouble : Json → Except JsonFailure Binary64
  | float x => .ok x
  | integer i => .ok (Binary64.ofInt i.val)
  | j => .error (typeError "number" j)

/-- The integer part of a double as a 64-bit integer. -/
def truncate (x : Binary64) : Except JsonFailure Int64 :=
  let i := x.toRat.num.tdiv x.toRat.den
  if x.isNaN || x.isInfinite then .error .undefined
  else if -2 ^ 63 ≤ i ∧ i < 2 ^ 63 then .ok (Int64.ofInt i)
  else .error .undefined

/-- `get<int64_t>()`. A number above the signed range wraps around. -/
def getInt64 : Json → Except JsonFailure Int64
  | integer i => .ok (Int64.ofInt i.val)
  | float x => truncate x
  | j => .error (typeError "number" j)

/-- `get<int>()`, which converts truth values too. -/
def getInt32 : Json → Except JsonFailure Int32
  | integer i => .ok (Int32.ofInt i.val)
  | boolean b => .ok (if b then 1 else 0)
  | float x => do
    let i ← truncate x
    if -2 ^ 31 ≤ i.toInt ∧ i.toInt < 2 ^ 31 then pure i.toInt32 else .error .undefined
  | j => .error (typeError "number" j)

/-- `value(key, "")`. -/
def valueString (key : String) : Json → Except JsonFailure String
  | object members =>
    match members.lookup key with
    | some j => j.getString
    | none => .ok ""
  | j => .error (.exception ("[json.exception.type_error.306] cannot use value() with "
      ++ j.typeName))

@[simp] theorem find?_object (key : String) (members : List (String × Json)) :
    find? key (object members) = members.lookup key := rfl

/-- What a library can print without loss: ordered objects and finite numbers. -/
inductive Document : Json → Prop where
  | null : Document null
  | boolean (b : Bool) : Document (boolean b)
  | integer (i : JsonInteger) : Document (integer i)
  | float (x : Binary64) (nan : x.isNaN = false) (infinite : x.isInfinite = false) :
      Document (float x)
  | string (s : String) : Document (string s)
  | array (elements : List Json) (each : ∀ j ∈ elements, Document j) : Document (array elements)
  | object (members : List (String × Json)) (ascending : Members.Ascending members)
      (each : ∀ m ∈ members, Document m.2) : Document (object members)

/-- The members of an object that can be printed. -/
def DocumentMembers (members : List (String × Json)) : Prop :=
  Members.Ascending members ∧ ∀ m ∈ members, m.2.Document

theorem documentMembers_nil : DocumentMembers [] := ⟨List.Pairwise.nil, nofun⟩

theorem DocumentMembers.assign {key : String} {j : Json} {members : List (String × Json)}
    (h : DocumentMembers members) (hj : j.Document) :
    DocumentMembers (Members.assign key j members) := by
  refine ⟨Members.ascending_assign key j h.1, fun m hm => ?_⟩
  obtain rfl | hm := Members.mem_assign hm
  · exact hj
  · exact h.2 m hm

end Json

/-- The library parses to documents, and reads these back from the text it prints. -/
structure JsonLibrary.Faithful (lib : JsonLibrary) (printed : Option Nat → Json → Prop) : Prop where
  document : ∀ text j, lib.parse text = .ok j → j.Document
  parse : ∀ indent j, printed indent j → j.Document → lib.parse (lib.dump indent j) = .ok j
  extract : ∀ indent j, printed indent j → j.Document → lib.extract (lib.dump indent j) = .ok j

end FalconLib.Base
