import Mathlib.Data.List.InsertIdx
import Mathlib.Tactic.Common

/-!
# Lists with reference semantics

A heap of lists: a reference is the position of a list, and an operation on a reference
changes that list alone. An operation that has no meaning (a position outside the list, the
last element of an empty list) fails and changes nothing.
-/

namespace FalconLib.Base.ListHeap

variable {V : Type}

inductive Operation (V : Type) where
  | pushBack (value : V)
  | popBack
  | getIndex (index : Int)
  | setIndex (index : Int) (value : V)
  | insert (index : Int) (value : V)
  | erase (index : Int)
  | clear
  | size
  | isEmpty

inductive Reply (V : Type) where
  | done
  | value (value : V)
  | count (n : Nat)
  | flag (b : Bool)

/-- What an operation answers and the list it leaves. -/
def Operation.run (list : List V) : Operation V → Option (Reply V × List V)
  | pushBack value => some (.done, list ++ [value])
  | popBack => list.getLast?.map fun last => (.value last, list.dropLast)
  | getIndex index =>
    if 0 ≤ index then list[index.toNat]?.map fun value => (.value value, list) else none
  | setIndex index value =>
    if 0 ≤ index ∧ index < list.length then some (.done, list.set index.toNat value) else none
  | insert index value =>
    if 0 ≤ index ∧ index ≤ list.length then some (.done, list.insertIdx index.toNat value)
    else none
  | erase index =>
    if 0 ≤ index ∧ index < list.length then some (.done, list.eraseIdx index.toNat) else none
  | clear => some (.done, [])
  | size => some (.count list.length, list)
  | isEmpty => some (.flag list.isEmpty, list)

/-- The values an operation brings along. -/
def Operation.operands : Operation V → List V
  | pushBack value | setIndex _ value | insert _ value => [value]
  | _ => []

/-- The answer, none on failure, and the lists afterwards. -/
def perform (lists : List (List V)) (ref : Nat) (operation : Operation V) :
    Option (Reply V) × List (List V) :=
  match lists[ref]?.bind operation.run with
  | some (reply, list) => (some reply, lists.set ref list)
  | none => (none, lists)

theorem perform_of_some {lists : List (List V)} {ref : Nat} {operation : Operation V}
    {list left : List V} {reply : Reply V} (hl : lists[ref]? = some list)
    (hr : operation.run list = some (reply, left)) :
    perform lists ref operation = (some reply, lists.set ref left) := by
  unfold perform
  rw [hl, Option.bind_some, hr]

theorem perform_of_none {lists : List (List V)} {ref : Nat} {operation : Operation V}
    {list : List V} (hl : lists[ref]? = some list) (hr : operation.run list = none) :
    perform lists ref operation = (none, lists) := by
  unfold perform
  rw [hl, Option.bind_some, hr]

/-- What a list holds afterwards was in it or was brought along. -/
theorem Operation.mem_of_run {operation : Operation V} {list left : List V} {reply : Reply V}
    (h : operation.run list = some (reply, left)) {value : V} (hv : value ∈ left) :
    value ∈ list ∨ value ∈ operation.operands := by
  cases operation with
  | pushBack new =>
    cases h
    exact (List.mem_append.mp hv).imp id id
  | popBack =>
    obtain ⟨last, _, hlast⟩ := Option.map_eq_some_iff.mp h
    cases hlast
    exact .inl (List.dropLast_subset _ hv)
  | getIndex index =>
    obtain ⟨_, hget⟩ := Option.ite_none_right_eq_some.mp h
    obtain ⟨found, _, hfound⟩ := Option.map_eq_some_iff.mp hget
    cases hfound
    exact .inl hv
  | setIndex index new =>
    obtain ⟨_, hset⟩ := Option.ite_none_right_eq_some.mp h
    cases hset
    rcases List.mem_or_eq_of_mem_set hv with hmem | rfl
    · exact .inl hmem
    · exact .inr List.mem_cons_self
  | insert index new =>
    obtain ⟨_, hinsert⟩ := Option.ite_none_right_eq_some.mp h
    cases hinsert
    rcases List.eq_or_mem_of_mem_insertIdx hv with rfl | hmem
    · exact .inr List.mem_cons_self
    · exact .inl hmem
  | erase index =>
    obtain ⟨_, herase⟩ := Option.ite_none_right_eq_some.mp h
    cases herase
    exact .inl (List.mem_of_mem_eraseIdx hv)
  | clear =>
    cases h
    exact absurd hv List.not_mem_nil
  | size =>
    cases h
    exact .inl hv
  | isEmpty =>
    cases h
    exact .inl hv

end FalconLib.Base.ListHeap
