import Mathlib.Data.List.TakeWhile
import Mathlib.Tactic.Common

/-!
# Names with a module prefix or type arguments

`Module::symbol` and `Box<int>` are plain strings to the registries; the source
takes them apart by searching for `::` and for `<`.
-/

namespace FalconLib.Dsl

/-- The characters after the first `::`. -/
def afterColons : List Char → Option (List Char)
  | ':' :: ':' :: rest => some rest
  | _ :: rest => afterColons rest
  | [] => none

/-- `Adder::adder` becomes `adder`; a name without `::` stays. -/
def stripModulePrefix (name : String) : String :=
  match afterColons name.toList with
  | some rest => String.ofList rest
  | none => name

def isQualified (name : String) : Bool := (afterColons name.toList).isSome

/-- The name a declaration gets in the tables of the engine. -/
def qualifiedName (moduleName name : String) : String :=
  if moduleName.isEmpty then name else moduleName ++ "::" ++ name

/-- `Box<int>` without its arguments; none when there is no `<`. -/
def genericBase (name : String) : Option String :=
  if '<' ∈ name.toList then some (String.ofList (name.toList.takeWhile (· ≠ '<'))) else none

/-- The name without type arguments, if it has any. -/
def baseName (name : String) : String := (genericBase name).getD name

/-- What the lexer accepts as an identifier has no colon in it. -/
def IsIdentifier (name : String) : Prop := ':' ∉ name.toList

instance (name : String) : Decidable (IsIdentifier name) :=
  inferInstanceAs (Decidable (':' ∉ name.toList))

theorem afterColons_of_not_mem {cs : List Char} (h : ':' ∉ cs) : afterColons cs = none := by
  induction cs with
  | nil => rfl
  | cons c cs ih =>
    obtain ⟨hc, hcs⟩ := not_or.mp (mt List.mem_cons.mpr h)
    rw [afterColons]
    · exact ih hcs
    · rintro _ rfl
      exact absurd rfl hc

theorem afterColons_append {cs : List Char} (h : ':' ∉ cs) (rest : List Char) :
    afterColons (cs ++ ':' :: ':' :: rest) = some rest := by
  induction cs with
  | nil => rfl
  | cons c cs ih =>
    obtain ⟨hc, hcs⟩ := not_or.mp (mt List.mem_cons.mpr h)
    rw [List.cons_append, afterColons]
    · exact ih hcs
    · rintro _ rfl
      exact absurd rfl hc

theorem IsIdentifier.stripModulePrefix {name : String} (h : IsIdentifier name) :
    stripModulePrefix name = name := by
  unfold FalconLib.Dsl.stripModulePrefix
  rw [afterColons_of_not_mem h]

theorem IsIdentifier.isQualified {name : String} (h : IsIdentifier name) :
    isQualified name = false := by
  unfold FalconLib.Dsl.isQualified
  rw [afterColons_of_not_mem h]
  rfl

private theorem toList_qualified (moduleName name : String) :
    (moduleName ++ "::" ++ name).toList = moduleName.toList ++ ':' :: ':' :: name.toList := by
  rw [String.toList_append, String.toList_append]
  simp

theorem stripModulePrefix_append {moduleName : String} (h : IsIdentifier moduleName)
    (name : String) : stripModulePrefix (moduleName ++ "::" ++ name) = name := by
  unfold stripModulePrefix
  rw [toList_qualified, afterColons_append h]
  exact String.ofList_toList

theorem isQualified_append {moduleName : String} (h : IsIdentifier moduleName)
    (name : String) : isQualified (moduleName ++ "::" ++ name) = true := by
  unfold isQualified
  rw [toList_qualified, afterColons_append h]
  rfl

/-- A qualified name determines its parts when the symbols are identifiers. -/
theorem append_colons_inj {m₁ m₂ n₁ n₂ : String} (h₁ : IsIdentifier n₁) (h₂ : IsIdentifier n₂)
    (h : m₁ ++ "::" ++ n₁ = m₂ ++ "::" ++ n₂) : m₁ = m₂ ∧ n₁ = n₂ := by
  have hl := congrArg (fun name : String => name.toList.reverse) h
  simp only [toList_qualified, List.reverse_append, List.reverse_cons, List.append_assoc,
    List.cons_append, List.nil_append] at hl
  have hrev : m₁.toList.reverse = m₂.toList.reverse := by
    have h₁' : ':' ∉ n₁.toList.reverse := fun hc => h₁ (List.mem_reverse.mp hc)
    have h₂' : ':' ∉ n₂.toList.reverse := fun hc => h₂ (List.mem_reverse.mp hc)
    have hafter := afterColons_append h₁' m₁.toList.reverse
    rw [hl, afterColons_append h₂'] at hafter
    exact (Option.some.inj hafter).symm
  have hm : m₁ = m₂ := String.toList_inj.mp (List.reverse_inj.mp hrev)
  subst hm
  refine ⟨rfl, ?_⟩
  have hn := congrArg String.toList h
  rw [toList_qualified, toList_qualified] at hn
  have hcons := List.append_cancel_left hn
  injection hcons with _ hcons
  injection hcons with _ hcons
  exact String.toList_inj.mp hcons

theorem qualifiedName_of_ne {moduleName : String} (h : moduleName ≠ "") (name : String) :
    qualifiedName moduleName name = moduleName ++ "::" ++ name := by
  unfold qualifiedName
  rw [if_neg fun he => h (String.isEmpty_iff.mp he)]

/-- No identifier is qualified. -/
theorem IsIdentifier.ne_append {name : String} (h : IsIdentifier name) (m n : String) :
    name ≠ m ++ "::" ++ n := by
  rintro rfl
  apply h
  rw [toList_qualified]
  exact List.mem_append_right _ List.mem_cons_self

/-! ## Base names -/

theorem toList_baseName (name : String) :
    (baseName name).toList = name.toList.takeWhile (· ≠ '<') := by
  unfold baseName genericBase
  split
  · exact String.toList_ofList
  · rename_i h
    refine (List.takeWhile_eq_self_iff.mpr fun c hc => ?_).symm
    have hne : c ≠ '<' := fun he => h (he ▸ hc)
    exact decide_eq_true hne

theorem genericBase_eq_some {name base : String} (h : genericBase name = some base) :
    baseName name = base ∧ baseName base = base := by
  have hname : baseName name = base := by
    unfold baseName
    rw [h, Option.getD_some]
  refine ⟨hname, ?_⟩
  rw [← hname]
  apply String.toList_inj.mp
  rw [toList_baseName, toList_baseName, List.takeWhile_idem]

theorem not_mem_genericBase {name base : String} (h : genericBase name = some base) :
    '<' ∉ base.toList := by
  obtain ⟨hname, _⟩ := genericBase_eq_some h
  rw [← hname, toList_baseName]
  intro hmem
  have hne := List.all_eq_true.mp List.all_takeWhile _ hmem
  exact of_decide_eq_true hne rfl

/-- An instance has the base name of what it instantiates. -/
theorem baseName_append_angle (name rest : String) :
    baseName (name ++ "<" ++ rest) = baseName name := by
  apply String.toList_inj.mp
  rw [toList_baseName, toList_baseName, String.toList_append, String.toList_append,
    List.append_assoc]
  induction name.toList with
  | nil => simp
  | cons c cs ih =>
    rw [List.cons_append, List.takeWhile_cons, List.takeWhile_cons, ih]

end FalconLib.Dsl
