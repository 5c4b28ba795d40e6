import Mathlib.Data.List.Basic
import Mathlib.Tactic.Common

/-!
# Flat buffers

Copying single elements from one buffer to another, with every access checked, and the places of a
row-major array in its buffer.
-/

namespace FalconLib.Base.Buffers

variable {α : Type*}

/-! ## Copying -/

/-- A place of the input and a place of the output. -/
abbrev Move := Nat × Nat

/-- `none` if one of the places lies outside its buffer. -/
def copyOne (input out : List α) (move : Move) : Option (List α) :=
  (input[move.1]?).bind fun a => if move.2 < out.length then some (out.set move.2 a) else none

def copyAll (input : List α) : List Move → List α → Option (List α)
  | [], out => some out
  | move :: moves, out => (copyOne input out move).bind (copyAll input moves)

theorem copyOne_eq_some_iff {input out out' : List α} {move : Move} :
    copyOne input out move = some out' ↔
      ∃ a, input[move.1]? = some a ∧ move.2 < out.length ∧ out' = out.set move.2 a := by
  unfold copyOne
  rw [Option.bind_eq_some_iff]
  refine exists_congr fun a => and_congr_right fun _ => ?_
  by_cases h : move.2 < out.length
  · rw [if_pos h, Option.some_inj, and_iff_right h, eq_comm]
  · rw [if_neg h]
    exact ⟨nofun, fun h' => absurd h'.1 h⟩

/-- A copy that comes to its end has kept to both buffers, and to the places of the moves. -/
theorem bounds_of_copyAll {input out out' : List α} {moves : List Move}
    (h : copyAll input moves out = some out') : out'.length = out.length ∧
      (∀ move ∈ moves, move.1 < input.length ∧ move.2 < out.length) ∧
      ∀ d, d ∉ moves.map Prod.snd → out'[d]? = out[d]? := by
  induction moves generalizing out with
  | nil =>
    cases h
    exact ⟨rfl, nofun, fun d _ => rfl⟩
  | cons move moves ih =>
    obtain ⟨next, hone, hrest⟩ := Option.bind_eq_some_iff.mp h
    obtain ⟨a, ha, hlt, rfl⟩ := copyOne_eq_some_iff.mp hone
    obtain ⟨hlength, hbounds, huntouched⟩ := ih hrest
    rw [List.length_set] at hlength hbounds
    refine ⟨hlength, ?_, fun d hd => ?_⟩
    · rw [List.forall_mem_cons]
      exact ⟨⟨(List.getElem?_eq_some_iff.mp ha).1, hlt⟩, hbounds⟩
    · rw [List.map_cons, List.mem_cons, not_or] at hd
      rw [huntouched d hd.2, List.getElem?_set_ne (Ne.symm hd.1)]

/-- Where the place to read from is a function of the place to write to, the order of the moves
does not matter. -/
theorem exists_copyAll {input out : List α} {moves : List Move} (source : Nat → Nat)
    (hmoves : ∀ move ∈ moves, move.1 = source move.2 ∧ move.1 < input.length ∧
      move.2 < out.length) :
    ∃ out', copyAll input moves out = some out' ∧
      ∀ d ∈ moves.map Prod.snd, out'[d]? = input[source d]? := by
  induction moves generalizing out with
  | nil => exact ⟨out, rfl, nofun⟩
  | cons move moves ih =>
    obtain ⟨⟨hsource, hin, hout⟩, hrest⟩ := List.forall_mem_cons.mp hmoves
    have hone : copyOne input out move = some (out.set move.2 input[move.1]) :=
      copyOne_eq_some_iff.mpr ⟨_, List.getElem?_eq_getElem hin, hout, rfl⟩
    have hrest' : ∀ m ∈ moves, m.1 = source m.2 ∧ m.1 < input.length ∧
        m.2 < (out.set move.2 input[move.1]).length := by
      rw [List.length_set]
      exact hrest
    obtain ⟨out', hcopy, hread⟩ := ih hrest'
    refine ⟨out', ?_, fun d hd => ?_⟩
    · rw [copyAll, hone, Option.bind_some, hcopy]
    · by_cases hlater : d ∈ moves.map Prod.snd
      · exact hread d hlater
      · have hd : d = move.2 := by
          rw [List.map_cons, List.mem_cons] at hd
          exact hd.resolve_right hlater
        obtain ⟨-, -, huntouched⟩ := bounds_of_copyAll hcopy
        rw [huntouched d hlater, hd, List.getElem?_set_self hout, ← hsource,
          List.getElem?_eq_getElem hin]

/-! ## Row-major places -/

theorem place_lt {rows columns i j : Nat} (hi : i < rows) (hj : j < columns) :
    i * columns + j < rows * columns := by
  have hrow : (i + 1) * columns ≤ rows * columns := Nat.mul_le_mul_right columns hi
  rw [Nat.add_mul, Nat.one_mul] at hrow
  omega

/-- A place that is counted from the other end. -/
theorem place_mirror {rows columns i j : Nat} (hi : i < rows) (hj : j < columns) :
    (rows - 1 - i) * columns + (columns - 1 - j) = rows * columns - 1 - (i * columns + j) := by
  obtain ⟨k, rfl⟩ : ∃ k, rows = i + 1 + k := ⟨rows - (i + 1), by omega⟩
  have hk : i + 1 + k - 1 - i = k := by omega
  rw [hk, Nat.add_mul, Nat.add_mul, Nat.one_mul]
  omega

/-! ## Rows -/

theorem getElem?_flatten {rows : List (List α)} {columns i k : Nat}
    (h : ∀ row ∈ rows, row.length = columns) (hk : k < columns) :
    rows.flatten[i * columns + k]? = rows[i]?.bind (·[k]?) := by
  induction rows generalizing i with
  | nil => rfl
  | cons row rows ih =>
    obtain ⟨hrow, hrows⟩ := List.forall_mem_cons.mp h
    rw [List.flatten_cons]
    cases i with
    | zero =>
      have hlt : 0 * columns + k < row.length := by omega
      rw [List.getElem?_append_left hlt, Nat.zero_mul, Nat.zero_add]
      rfl
    | succ i =>
      have hle : row.length ≤ (i + 1) * columns + k := by
        rw [hrow, Nat.add_mul]
        omega
      have hrest : (i + 1) * columns + k - row.length = i * columns + k := by
        rw [hrow, Nat.add_mul]
        omega
      rw [List.getElem?_append_right hle, hrest, ih hrows]
      rfl

theorem length_flatten_rows {rows : List (List α)} {columns : Nat}
    (h : ∀ row ∈ rows, row.length = columns) : rows.flatten.length = rows.length * columns := by
  rw [List.length_flatten, List.map_congr_left h, List.map_const', List.sum_replicate_nat]

/-- Backwards the rows come in opposite order, and so do the elements of each. -/
theorem getElem?_reverse_flatten {rows : List (List α)} {columns i k : Nat}
    (h : ∀ row ∈ rows, row.length = columns) (hi : i < rows.length) (hk : k < columns) :
    rows.flatten.reverse[i * columns + k]? =
      rows[rows.length - 1 - i]?.bind (·[columns - 1 - k]?) := by
  have hlt := place_lt hi hk
  rw [List.getElem?_reverse (by rwa [length_flatten_rows h]), length_flatten_rows h,
    ← place_mirror hi hk, getElem?_flatten h (by omega)]

end FalconLib.Base.Buffers
