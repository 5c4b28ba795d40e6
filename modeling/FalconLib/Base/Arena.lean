import Mathlib.Data.List.Basic
import Mathlib.Data.List.Infix
import Mathlib.Tactic.Common

/-!
# Arenas

A list that objects are added to and that is never shortened. Of a region of positions, to which all
new ones belong, every object is good; outside of it every object is as it was.
-/

namespace FalconLib.Base

structure Arena {α : Type} (base : List α) (inside : Nat → Prop) (good : α → Prop)
    (arena : List α) : Prop where
  length : base.length ≤ arena.length
  kept : ∀ id, ¬ inside id → arena[id]? = base[id]?
  closed : ∀ (id : Nat) a, inside id → arena[id]? = some a → good a

namespace Arena

variable {α : Type} {base arena : List α} {inside : Nat → Prop} {good : α → Prop}

theorem start (h : ∀ (id : Nat) a, inside id → base[id]? = some a → good a) :
    Arena base inside good base := ⟨Nat.le_refl _, fun _ _ => rfl, h⟩

/-- A new object is inside. -/
theorem add (h : Arena base inside good arena) (hnew : ∀ id, base.length ≤ id → inside id) {a : α}
    (ha : good a) : Arena base inside good (arena ++ [a]) := by
  refine ⟨?_, fun id hid => ?_, fun id b hid hb => ?_⟩
  · rw [List.length_append]
    exact Nat.le_add_right_of_le h.length
  · have hlt : id < arena.length := by
      by_contra hge
      exact hid (hnew id (Nat.le_trans h.length (Nat.le_of_not_lt hge)))
    rw [List.getElem?_append_left hlt, h.kept id hid]
  · obtain hlt | hge := Nat.lt_or_ge id arena.length
    · rw [List.getElem?_append_left hlt] at hb
      exact h.closed id b hid hb
    · rw [List.getElem?_append_right hge] at hb
      rw [List.mem_singleton.mp (List.mem_of_getElem? hb)]
      exact ha

/-- An object of the region is replaced by a good one. -/
theorem modify (h : Arena base inside good arena) {id : Nat} (hid : inside id) {f : α → α}
    (hf : ∀ a, arena[id]? = some a → good (f a)) : Arena base inside good (arena.modify id f) := by
  refine ⟨by rw [List.length_modify]; exact h.length, fun other hother => ?_,
    fun other b hother hb => ?_⟩
  · have hne : id ≠ other := fun heq => hother (heq ▸ hid)
    rw [List.getElem?_modify_ne _ _ hne, h.kept other hother]
  · by_cases heq : id = other
    · subst heq
      rw [List.getElem?_modify_eq] at hb
      obtain ⟨a, ha, rfl⟩ := Option.map_eq_some_iff.mp hb
      exact hf a ha
    · rw [List.getElem?_modify_ne _ _ heq] at hb
      exact h.closed other b hother hb

theorem inside_length (h : Arena base inside good arena)
    (hnew : ∀ id, base.length ≤ id → inside id) : inside arena.length := hnew _ h.length

end Arena

end FalconLib.Base
