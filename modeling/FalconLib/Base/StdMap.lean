import Std.Data.ExtTreeMap
import Mathlib.Data.List.Nodup
import Mathlib.Tactic.Common

/-!
# Maps filled by a history of writes

`StdMap V` is a `std::map<std::string, V>`. A history of writes leaves the last
value of a key when every write overwrites (`operator[]`), and the first one when
every write yields to a present key (`emplace`, `insert`).
-/

namespace FalconLib.Base

abbrev StdMap (V : Type) : Type := Std.ExtTreeMap String V

namespace StdMap

variable {V : Type}

/-- `map[key] = value`. -/
def assign (m : StdMap V) (key : String) (value : V) : StdMap V := m.insert key value

/-- `map.emplace(key, value)`. -/
def emplace (m : StdMap V) (key : String) (value : V) : StdMap V := m.insertIfNew key value

theorem getElem?_assign (m : StdMap V) (key k : String) (value : V) :
    (m.assign key value)[k]? = if key = k then some value else m[k]? := by
  unfold assign
  rw [Std.ExtTreeMap.getElem?_insert]
  simp only [Std.LawfulEqOrd.compare_eq_iff_eq]

@[simp] theorem getElem?_assign_self (m : StdMap V) (key : String) (value : V) :
    (m.assign key value)[key]? = some value := by
  rw [getElem?_assign, if_pos rfl]

theorem getElem?_assign_ne (m : StdMap V) {key k : String} (value : V) (h : key ≠ k) :
    (m.assign key value)[k]? = m[k]? := by
  rw [getElem?_assign, if_neg h]

/-- A new key keeps what is there. -/
theorem getElem?_assign_of_new {m : StdMap V} {key k : String} {old : V} (h : m[key]? = none)
    (hk : m[k]? = some old) (value : V) : (m.assign key value)[k]? = some old := by
  refine (getElem?_assign_ne m value fun he => ?_).trans hk
  rw [← he, h] at hk
  cases hk

theorem getElem?_erase (m : StdMap V) (key k : String) :
    (m.erase key)[k]? = if key = k then none else m[k]? := by
  rw [Std.ExtTreeMap.getElem?_erase]
  simp only [Std.LawfulEqOrd.compare_eq_iff_eq]

theorem getElem?_emplace (m : StdMap V) (key k : String) (value : V) :
    (m.emplace key value)[k]? = if key = k then m[k]?.or (some value) else m[k]? := by
  unfold emplace
  rw [Std.ExtTreeMap.getElem?_insertIfNew]
  by_cases h : key = k
  · subst h
    rw [if_pos rfl]
    by_cases hm : key ∈ m
    · rw [if_neg (fun hc => hc.2 hm)]
      rw [Std.ExtTreeMap.getElem?_eq_some_getElem hm, Option.some_or]
    · rw [if_pos ⟨Std.ReflOrd.compare_self, hm⟩, Std.ExtTreeMap.getElem?_eq_none hm, Option.none_or]
  · rw [if_neg (fun hc => h (Std.LawfulEqOrd.compare_eq_iff_eq.mp hc.1)), if_neg h]

theorem ext {m₁ m₂ : StdMap V} (h : ∀ k : String, m₁[k]? = m₂[k]?) : m₁ = m₂ :=
  Std.ExtTreeMap.ext_getElem? h

/-- The keys in ascending order. -/
def keyList (m : StdMap V) : List String := m.keys

/-- Erase every key outside the list. -/
def restrict (m : StdMap V) (keys : List String) : StdMap V := m.filter fun k _ => keys.contains k

theorem mem_keyList {m : StdMap V} {k : String} : k ∈ m.keyList ↔ m[k]?.isSome := by
  unfold keyList
  rw [Std.ExtTreeMap.mem_keys, Std.ExtTreeMap.mem_iff_isSome_getElem?]

theorem getElem?_restrict (m : StdMap V) (keys : List String) (k : String) :
    (m.restrict keys)[k]? = if k ∈ keys then m[k]? else none := by
  unfold restrict
  rw [Std.ExtTreeMap.getElem?_filter']
  by_cases h : k ∈ keys
  · rw [if_pos h]
    cases m[k]? <;> simp [h]
  · simp [h]

/-! ## Histories -/

def assignAll (m : StdMap V) (writes : List (String × V)) : StdMap V :=
  writes.foldl (fun m w => m.assign w.1 w.2) m

def emplaceAll (m : StdMap V) (writes : List (String × V)) : StdMap V :=
  writes.foldl (fun m w => m.emplace w.1 w.2) m

/-- The value that the last write to `key` wrote. -/
def lastWrite (key : String) (writes : List (String × V)) : Option V := writes.reverse.lookup key

def firstWrite (key : String) (writes : List (String × V)) : Option V := writes.lookup key

theorem lastWrite_cons (key : String) (w : String × V) (writes : List (String × V)) :
    lastWrite key (w :: writes) =
      (lastWrite key writes).or (if w.1 = key then some w.2 else none) := by
  unfold lastWrite
  rw [List.reverse_cons, List.lookup_append]
  congr 1
  rw [List.lookup_cons, List.lookup_nil]
  by_cases h : w.1 = key
  · simp only [h, beq_self_eq_true, if_true]
  · simp only [beq_eq_false_iff_ne.mpr (Ne.symm h), if_neg h]

theorem lastWrite_append (key : String) (l₁ l₂ : List (String × V)) :
    lastWrite key (l₁ ++ l₂) = (lastWrite key l₂).or (lastWrite key l₁) := by
  unfold lastWrite
  rw [List.reverse_append, List.lookup_append]

theorem firstWrite_cons (key : String) (w : String × V) (writes : List (String × V)) :
    firstWrite key (w :: writes) = if w.1 = key then some w.2 else firstWrite key writes := by
  unfold firstWrite
  rw [List.lookup_cons]
  by_cases h : w.1 = key
  · simp only [h, beq_self_eq_true, if_true]
  · simp only [beq_eq_false_iff_ne.mpr (Ne.symm h), if_neg h]

/-- Overwriting keeps the last write. -/
theorem getElem?_assignAll (m : StdMap V) (writes : List (String × V)) (k : String) :
    (m.assignAll writes)[k]? = (lastWrite k writes).or m[k]? := by
  induction writes generalizing m with
  | nil => rfl
  | cons w writes ih =>
    change (assignAll (m.assign w.1 w.2) writes)[k]? = _
    rw [ih, lastWrite_cons, getElem?_assign, Option.or_assoc]
    congr 1
    by_cases h : w.1 = k <;> simp only [h, if_true, if_false, Option.some_or, Option.none_or]

/-- Emplacing keeps the first write. -/
theorem getElem?_emplaceAll (m : StdMap V) (writes : List (String × V)) (k : String) :
    (m.emplaceAll writes)[k]? = m[k]?.or (firstWrite k writes) := by
  induction writes generalizing m with
  | nil => exact (Option.or_none).symm
  | cons w writes ih =>
    change (emplaceAll (m.emplace w.1 w.2) writes)[k]? = _
    rw [ih, firstWrite_cons, getElem?_emplace]
    by_cases h : w.1 = k
    · rw [if_pos h, if_pos h, Option.or_assoc, Option.some_or]
    · rw [if_neg h, if_neg h]

theorem lastWrite_isSome (key : String) (writes : List (String × V)) :
    (lastWrite key writes).isSome = (firstWrite key writes).isSome := by
  induction writes with
  | nil => rfl
  | cons w writes ih =>
    rw [lastWrite_cons, firstWrite_cons, Option.isSome_or, ih]
    by_cases h : w.1 = key
    · rw [if_pos h, if_pos h]
      exact Bool.or_true _
    · rw [if_neg h, if_neg h]
      exact Bool.or_false _

theorem mem_of_lastWrite {key : String} {v : V} {writes : List (String × V)}
    (h : lastWrite key writes = some v) : (key, v) ∈ writes := by
  induction writes with
  | nil => cases h
  | cons w writes ih =>
    rw [lastWrite_cons] at h
    cases hl : lastWrite key writes with
    | some u =>
      rw [hl, Option.some_or] at h
      exact List.mem_cons_of_mem _ (ih (hl.trans h))
    | none =>
      rw [hl, Option.none_or] at h
      by_cases hk : w.1 = key
      · rw [if_pos hk] at h
        cases h
        exact hk ▸ List.mem_cons_self
      · rw [if_neg hk] at h
        cases h

theorem mem_of_firstWrite {key : String} {v : V} {writes : List (String × V)}
    (h : firstWrite key writes = some v) : (key, v) ∈ writes := by
  induction writes with
  | nil => cases h
  | cons w writes ih =>
    rw [firstWrite_cons] at h
    by_cases hk : w.1 = key
    · rw [if_pos hk] at h
      cases h
      exact hk ▸ List.mem_cons_self
    · rw [if_neg hk] at h
      exact List.mem_cons_of_mem _ (ih h)

theorem firstWrite_eq_none {key : String} {writes : List (String × V)} :
    firstWrite key writes = none ↔ ∀ w ∈ writes, w.1 ≠ key := by
  induction writes with
  | nil => exact ⟨fun _ w hw => absurd hw List.not_mem_nil, fun _ => rfl⟩
  | cons w writes ih =>
    rw [firstWrite_cons, List.forall_mem_cons]
    by_cases hk : w.1 = key
    · rw [if_pos hk]
      exact ⟨fun h => absurd h (Option.some_ne_none _), fun h => absurd hk h.1⟩
    · rw [if_neg hk, ih]
      exact ⟨fun h => ⟨hk, h⟩, fun h => h.2⟩

theorem exists_lastWrite {key : String} {v : V} {writes : List (String × V)}
    (h : (key, v) ∈ writes) : ∃ u, lastWrite key writes = some u := by
  cases hl : lastWrite key writes with
  | some u => exact ⟨u, rfl⟩
  | none =>
    have hsome := lastWrite_isSome key writes
    rw [hl, Option.isSome_none, eq_comm, Option.isSome_eq_false_iff, Option.isNone_iff_eq_none,
      firstWrite_eq_none] at hsome
    exact absurd rfl (hsome _ h)

/-- Where no key is written twice, every write lasts. -/
theorem getElem?_assignAll_of_mem {m : StdMap V} {writes : List (String × V)} {key : String}
    {v : V} (hn : (writes.map Prod.fst).Nodup) (h : (key, v) ∈ writes) :
    (m.assignAll writes)[key]? = some v := by
  obtain ⟨u, hu⟩ := exists_lastWrite h
  have heq : (key, u) = (key, v) := List.inj_on_of_nodup_map hn (mem_of_lastWrite hu) h rfl
  rw [getElem?_assignAll, hu, Option.some_or, (Prod.mk.inj heq).2]

theorem mem_of_getElem?_assignAll {m : StdMap V} {writes : List (String × V)} {key : String}
    {v : V} (h : (m.assignAll writes)[key]? = some v) : (key, v) ∈ writes ∨ m[key]? = some v := by
  rw [getElem?_assignAll] at h
  cases hl : lastWrite key writes with
  | some u =>
    rw [hl, Option.some_or] at h
    exact .inl (mem_of_lastWrite (hl.trans h))
  | none =>
    rw [hl, Option.none_or] at h
    exact .inr h

/-- A map is filled again from the list of its entries. -/
theorem assignAll_toList (m : StdMap V) : assignAll ∅ m.toList = m := by
  have hdistinct : (m.toList.map Prod.fst).Nodup := by
    rw [Std.ExtTreeMap.map_fst_toList_eq_keys]
    exact Std.ExtTreeMap.nodup_keys
  refine ext fun k => ?_
  cases hk : m[k]? with
  | some v =>
    exact getElem?_assignAll_of_mem hdistinct
      (Std.ExtTreeMap.mem_toList_iff_getElem?_eq_some.mpr hk)
  | none =>
    cases hl : (assignAll ∅ m.toList)[k]? with
    | none => rfl
    | some v =>
      obtain hmem | hempty := mem_of_getElem?_assignAll hl
      · rw [Std.ExtTreeMap.mem_toList_iff_getElem?_eq_some.mp hmem] at hk
        cases hk
      · cases hempty

end StdMap

end FalconLib.Base
