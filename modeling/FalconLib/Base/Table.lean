import Mathlib.Data.Finmap
import Mathlib.Data.List.Nodup
import Mathlib.Tactic.Common

/-!
# Finite maps in two lists

The keys stand in one list, without repetition, and the value of a key stands at the same
position of the other list. The operations look for the position of a key first.
-/

namespace FalconLib.Base

structure Table (K V : Type) where
  keys : List K
  values : List V
  nodup : keys.Nodup
  length_eq : keys.length = values.length

namespace Table

variable {K V : Type} [DecidableEq K]

def empty : Table K V := ⟨[], [], List.nodup_nil, rfl⟩

/-- The entry at the position of the key; the position of an absent key has none. -/
def get? (t : Table K V) (key : K) : Option V := t.values[t.keys.idxOf key]?

/-- The value of a present key is replaced, an absent key is appended. -/
def set (t : Table K V) (key : K) (value : V) : Table K V :=
  if h : key ∈ t.keys then
    { t with
      values := t.values.set (t.keys.idxOf key) value
      length_eq := t.length_eq.trans List.length_set.symm }
  else
    { keys := t.keys ++ [key]
      values := t.values ++ [value]
      nodup := List.nodup_append.mpr ⟨t.nodup, List.nodup_singleton key, fun _ ha _ hb he =>
        h (List.mem_singleton.mp hb ▸ he ▸ ha)⟩
      length_eq := by
        rw [List.length_append, List.length_append, t.length_eq]
        rfl }

/-- Nothing stands at the position of an absent key. -/
def remove (t : Table K V) (key : K) : Table K V where
  keys := t.keys.eraseIdx (t.keys.idxOf key)
  values := t.values.eraseIdx (t.keys.idxOf key)
  nodup := t.nodup.sublist (List.eraseIdx_sublist _ _)
  length_eq := by rw [List.length_eraseIdx, List.length_eraseIdx, t.length_eq]

/-- The map that the two lists stand for. -/
def toFinmap (t : Table K V) : Finmap fun _ : K => V :=
  ((t.keys.zip t.values).map fun entry => (⟨entry.1, entry.2⟩ : Sigma fun _ : K => V)).toFinmap

/-! ## Lookups -/

variable {t : Table K V} {key k : K} {value v : V}

theorem dlookup_zip (keys : List K) (values : List V) (h : keys.length = values.length)
    (key : K) :
    ((keys.zip values).map fun entry => (⟨entry.1, entry.2⟩ : Sigma fun _ : K => V)).dlookup key =
      values[keys.idxOf key]? := by
  induction keys generalizing values with
  | nil =>
    rw [List.length_eq_zero_iff.mp h.symm]
    rfl
  | cons first keys ih =>
    cases values with
    | nil => cases h
    | cons value values =>
      rw [List.zip_cons_cons, List.map_cons]
      by_cases he : first = key
      · subst he
        rw [List.dlookup_cons_eq, List.idxOf_cons_self]
        rfl
      · rw [List.dlookup_cons_ne _ _ (Ne.symm he), List.idxOf_cons_ne _ he,
          List.getElem?_cons_succ]
        exact ih values (Nat.succ.inj h)

theorem lookup_toFinmap (t : Table K V) (key : K) : t.toFinmap.lookup key = t.get? key := by
  unfold toFinmap get?
  rw [Finmap.dlookup_list_toFinmap, dlookup_zip _ _ t.length_eq]

theorem get?_eq_some_iff :
    t.get? key = some value ↔ ∃ i : Nat, t.keys[i]? = some key ∧ t.values[i]? = some value := by
  constructor
  · intro h
    refine ⟨t.keys.idxOf key, ?_, h⟩
    refine List.getElem?_idxOf (List.idxOf_lt_length_iff.mp ?_)
    rw [t.length_eq]
    exact (List.getElem?_eq_some_iff.mp h).1
  · rintro ⟨i, hk, hv⟩
    obtain ⟨hi, rfl⟩ := List.getElem?_eq_some_iff.mp hk
    unfold get?
    rw [t.nodup.idxOf_getElem i hi]
    exact hv

theorem mem_keys_iff : key ∈ t.keys ↔ ∃ value, t.get? key = some value := by
  rw [← List.idxOf_lt_length_iff, t.length_eq]
  constructor
  · exact fun h => ⟨_, List.getElem?_eq_getElem h⟩
  · rintro ⟨value, h⟩
    exact (List.getElem?_eq_some_iff.mp h).1

theorem get?_eq_none_iff : t.get? key = none ↔ key ∉ t.keys := by
  rw [mem_keys_iff, Option.eq_none_iff_forall_ne_some, not_exists]

theorem mem_toFinmap : key ∈ t.toFinmap ↔ key ∈ t.keys := by
  rw [← Finmap.lookup_isSome, lookup_toFinmap, mem_keys_iff, Option.isSome_iff_exists]

theorem card_keys (t : Table K V) : t.toFinmap.keys.card = t.keys.length := by
  have hkeys : t.toFinmap.keys = t.keys.toFinset := by
    ext key
    rw [Finmap.mem_keys, mem_toFinmap, List.mem_toFinset]
  rw [hkeys, List.toFinset_card_of_nodup t.nodup]

/-! ## Operations -/

theorem get?_set (t : Table K V) (key k : K) (value : V) :
    (t.set key value).get? k = if k = key then some value else t.get? k := by
  apply Option.ext
  intro v
  rw [get?_eq_some_iff]
  unfold set
  by_cases h : key ∈ t.keys
  · have hlt : t.keys.idxOf key < t.values.length := by
      rw [← t.length_eq]
      exact List.idxOf_lt_length_iff.mpr h
    have hat : t.keys[t.keys.idxOf key]? = some key := List.getElem?_idxOf h
    rw [dif_pos h]
    dsimp only
    by_cases hk : k = key
    · subst hk
      rw [if_pos rfl]
      constructor
      · rintro ⟨i, hi, hv⟩
        have hidx : t.keys.idxOf k = i :=
          (List.getElem?_inj (List.idxOf_lt_length_iff.mpr h) t.nodup).mp (hat.trans hi.symm)
        rw [hidx, List.getElem?_set_self (hidx ▸ hlt)] at hv
        exact hv
      · intro hv
        exact ⟨_, hat, (List.getElem?_set_self hlt).trans hv⟩
    · rw [if_neg hk, get?_eq_some_iff]
      refine exists_congr fun i => and_congr_right fun hi => ?_
      rw [List.getElem?_set_ne]
      rintro rfl
      exact hk (Option.some.inj (hi.symm.trans hat))
  · rw [dif_neg h]
    dsimp only
    have hsplit : ∀ i : Nat, ((t.keys ++ [key])[i]? = some k ∧ (t.values ++ [value])[i]? = some v) ↔
        (t.keys[i]? = some k ∧ t.values[i]? = some v) ∨
          (i = t.keys.length ∧ key = k ∧ value = v) := by
      intro i
      rcases Nat.lt_trichotomy i t.keys.length with hi | rfl | hi
      · rw [List.getElem?_append_left hi, List.getElem?_append_left (t.length_eq ▸ hi)]
        exact ⟨.inl, fun h => h.elim id fun h => absurd h.1 (Nat.ne_of_lt hi)⟩
      · rw [List.getElem?_concat_length]
        have hv : (t.values ++ [value])[t.keys.length]? = some value := by
          rw [t.length_eq, List.getElem?_concat_length]
        rw [hv, List.getElem?_eq_none (Nat.le_refl _)]
        constructor
        · rintro ⟨hk, hv⟩
          exact .inr ⟨rfl, Option.some.inj hk, Option.some.inj hv⟩
        · rintro (⟨hk, _⟩ | ⟨_, rfl, rfl⟩)
          · cases hk
          · exact ⟨rfl, rfl⟩
      · have hlen : (t.keys ++ [key]).length ≤ i := by
          rw [List.length_append]
          exact hi
        rw [List.getElem?_eq_none hlen, List.getElem?_eq_none (Nat.le_of_lt hi)]
        constructor
        · rintro ⟨hk, _⟩
          cases hk
        · rintro (⟨hk, _⟩ | ⟨rfl, _⟩)
          · cases hk
          · exact absurd hi (Nat.lt_irrefl _)
    simp only [hsplit, exists_or, exists_eq_left, ← get?_eq_some_iff]
    by_cases hk : k = key
    · subst hk
      rw [if_pos rfl, get?_eq_none_iff.mpr h]
      simp
    · rw [if_neg hk]
      constructor
      · exact fun hv => hv.elim id fun hv => absurd hv.1.symm hk
      · exact .inl

theorem get?_remove (t : Table K V) (key k : K) :
    (t.remove key).get? k = if k = key then none else t.get? k := by
  apply Option.ext
  intro v
  rw [get?_eq_some_iff]
  have hshift : (∃ i : Nat, (t.remove key).keys[i]? = some k ∧ (t.remove key).values[i]? = some v) ↔
      ∃ i, i ≠ t.keys.idxOf key ∧ t.keys[i]? = some k ∧ t.values[i]? = some v := by
    unfold remove
    dsimp only
    simp only [List.getElem?_eraseIdx]
    constructor
    · rintro ⟨i, hk, hv⟩
      by_cases hi : i < t.keys.idxOf key
      · rw [if_pos hi] at hk hv
        exact ⟨i, Nat.ne_of_lt hi, hk, hv⟩
      · rw [if_neg hi] at hk hv
        exact ⟨i + 1, by omega, hk, hv⟩
    · rintro ⟨i, hne, hk, hv⟩
      by_cases hi : i < t.keys.idxOf key
      · exact ⟨i, by rw [if_pos hi]; exact hk, by rw [if_pos hi]; exact hv⟩
      · obtain ⟨j, rfl⟩ : ∃ j, i = j + 1 := ⟨i - 1, by omega⟩
        have hj : ¬ j < t.keys.idxOf key := by omega
        exact ⟨j, by rw [if_neg hj]; exact hk, by rw [if_neg hj]; exact hv⟩
  rw [hshift]
  by_cases hk : k = key
  · subst hk
    rw [if_pos rfl]
    constructor
    · rintro ⟨i, hne, hi, _⟩
      obtain ⟨hlt, he⟩ := List.getElem?_eq_some_iff.mp hi
      rw [← he, t.nodup.idxOf_getElem i hlt] at hne
      exact absurd rfl hne
    · intro h
      cases h
  · rw [if_neg hk, get?_eq_some_iff]
    refine exists_congr fun i => ⟨fun h => h.2, fun h => ⟨?_, h⟩⟩
    rintro rfl
    obtain ⟨hlt, he⟩ := List.getElem?_eq_some_iff.mp h.1
    exact hk (he.symm.trans (List.getElem_idxOf hlt))

theorem toFinmap_set (t : Table K V) (key : K) (value : V) :
    (t.set key value).toFinmap = t.toFinmap.insert key value := by
  refine Finmap.ext_lookup fun k => ?_
  rw [lookup_toFinmap, get?_set]
  by_cases hk : k = key
  · subst hk
    rw [if_pos rfl, Finmap.lookup_insert]
  · rw [if_neg hk, Finmap.lookup_insert_of_ne _ hk, lookup_toFinmap]

theorem toFinmap_remove (t : Table K V) (key : K) :
    (t.remove key).toFinmap = t.toFinmap.erase key := by
  refine Finmap.ext_lookup fun k => ?_
  rw [lookup_toFinmap, get?_remove]
  by_cases hk : k = key
  · subst hk
    rw [if_pos rfl, Finmap.lookup_erase]
  · rw [if_neg hk, Finmap.lookup_erase_ne hk, lookup_toFinmap]

/-- The two lists after an operation, as the code computes them. -/
theorem set_of_mem (h : key ∈ t.keys) (value : V) :
    (t.set key value).keys = t.keys ∧
      (t.set key value).values = t.values.set (t.keys.idxOf key) value := by
  unfold set
  rw [dif_pos h]
  exact ⟨rfl, rfl⟩

theorem set_of_notMem (h : key ∉ t.keys) (value : V) :
    (t.set key value).keys = t.keys ++ [key] ∧
      (t.set key value).values = t.values ++ [value] := by
  unfold set
  rw [dif_neg h]
  exact ⟨rfl, rfl⟩

theorem remove_of_notMem (h : key ∉ t.keys) : t.remove key = t := by
  have hidx := List.idxOf_eq_length h
  unfold remove
  simp only [hidx, List.eraseIdx_of_length_le (Nat.le_refl _),
    List.eraseIdx_of_length_le (Nat.le_of_eq t.length_eq.symm)]

/-! ## Operations as requests -/

inductive Operation (K V : Type) where
  | set (key : K) (value : V)
  | get (key : K)
  | getOr (key : K) (default : V)
  | remove (key : K)
  | contains (key : K)
  | clear
  | size
  | isEmpty

inductive Reply (V : Type) where
  | done
  | value (value : V)
  | flag (b : Bool)
  | count (n : Nat)

/-- What an operation answers and the map it leaves; an absent key has no value to get. -/
def Operation.onMap (m : Finmap fun _ : K => V) :
    Operation K V → Option (Reply V × Finmap fun _ : K => V)
  | set key value => some (.done, m.insert key value)
  | get key => (m.lookup key).map fun value => (.value value, m)
  | getOr key default => some (.value ((m.lookup key).getD default), m)
  | remove key => some (.flag (m.lookup key).isSome, m.erase key)
  | contains key => some (.flag (m.lookup key).isSome, m)
  | clear => some (.done, ∅)
  | size => some (.count m.keys.card, m)
  | isEmpty => some (.flag (m.keys.card == 0), m)

def Operation.run (t : Table K V) : Operation K V → Option (Reply V × Table K V)
  | set key value => some (.done, t.set key value)
  | get key => (t.get? key).map fun value => (.value value, t)
  | getOr key default => some (.value ((t.get? key).getD default), t)
  | remove key => some (.flag (t.get? key).isSome, t.remove key)
  | contains key => some (.flag (t.get? key).isSome, t)
  | clear => some (.done, empty)
  | size => some (.count t.keys.length, t)
  | isEmpty => some (.flag (t.keys.length == 0), t)

/-- The keys and the values that an operation brings along. -/
def Operation.newKeys : Operation K V → List K
  | set key _ | get key | getOr key _ | remove key | contains key => [key]
  | _ => []

def Operation.newValues : Operation K V → List V
  | set _ value | getOr _ value => [value]
  | _ => []

/-- The two lists answer like the map they stand for. -/
theorem onMap_toFinmap (t : Table K V) (operation : Operation K V) :
    operation.onMap t.toFinmap =
      (operation.run t).map fun result => (result.1, result.2.toFinmap) := by
  cases operation with
  | set key value => exact congrArg (fun m => some (Reply.done, m)) (toFinmap_set t key value).symm
  | get key =>
    change (t.toFinmap.lookup key).map _ = ((t.get? key).map _).map _
    rw [lookup_toFinmap, Option.map_map]
    rfl
  | getOr key default =>
    change some (Reply.value ((t.toFinmap.lookup key).getD default), t.toFinmap) = _
    rw [lookup_toFinmap]
    rfl
  | remove key =>
    change some (Reply.flag (t.toFinmap.lookup key).isSome, t.toFinmap.erase key) = _
    rw [lookup_toFinmap, ← toFinmap_remove]
    rfl
  | contains key =>
    change some (Reply.flag (t.toFinmap.lookup key).isSome, t.toFinmap) = _
    rw [lookup_toFinmap]
    rfl
  | clear => rfl
  | size => exact congrArg (fun n => some (Reply.count n, t.toFinmap)) (card_keys t)
  | isEmpty => exact congrArg (fun n => some (Reply.flag (n == 0), t.toFinmap)) (card_keys t)

/-- What the lists hold afterwards was in them or was brought along. -/
theorem mem_of_run {operation : Operation K V} {t left : Table K V} {reply : Reply V}
    (h : operation.run t = some (reply, left)) :
    (∀ key ∈ left.keys, key ∈ t.keys ∨ key ∈ operation.newKeys) ∧
      ∀ value ∈ left.values, value ∈ t.values ∨ value ∈ operation.newValues := by
  have hsame : ∀ u : Table K V, u = t → (∀ key ∈ u.keys, key ∈ t.keys ∨ key ∈ operation.newKeys) ∧
      ∀ value ∈ u.values, value ∈ t.values ∨ value ∈ operation.newValues := by
    rintro u rfl
    exact ⟨fun _ hk => .inl hk, fun _ hv => .inl hv⟩
  cases operation with
  | set key value =>
    cases h
    by_cases hmem : key ∈ t.keys
    · rw [(set_of_mem hmem value).1, (set_of_mem hmem value).2]
      refine ⟨fun _ hk => .inl hk, fun v hv => ?_⟩
      rcases List.mem_or_eq_of_mem_set hv with hold | rfl
      · exact .inl hold
      · exact .inr List.mem_cons_self
    · rw [(set_of_notMem hmem value).1, (set_of_notMem hmem value).2]
      exact ⟨fun _ hk => List.mem_append.mp hk, fun _ hv => List.mem_append.mp hv⟩
  | get key =>
    obtain ⟨_, _, hresult⟩ := Option.map_eq_some_iff.mp h
    cases hresult
    exact hsame _ rfl
  | remove key =>
    cases h
    exact ⟨fun _ hk => .inl (List.mem_of_mem_eraseIdx hk),
      fun _ hv => .inl (List.mem_of_mem_eraseIdx hv)⟩
  | clear =>
    cases h
    exact ⟨fun _ hk => absurd hk List.not_mem_nil, fun _ hv => absurd hv List.not_mem_nil⟩
  | getOr key default =>
    cases h
    exact hsame _ rfl
  | contains key =>
    cases h
    exact hsame _ rfl
  | size =>
    cases h
    exact hsame _ rfl
  | isEmpty =>
    cases h
    exact hsame _ rfl

end Table

end FalconLib.Base
