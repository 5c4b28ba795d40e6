import FalconLib.Dsl.Generics

/-!
# Substitution of type parameters

What it means to replace every occurrence of a type parameter in a type, at any depth,
and for which types `substituteType` does.
-/

namespace FalconLib.Dsl

open FalconLib.Base (StdMap)

namespace TypeDescriptor

mutual

/-- Every parameter, at any depth, is replaced by its argument. The name of a generic
struct is made anew from its arguments. -/
def subst (σ : Substitution) : TypeDescriptor → TypeDescriptor
  | ⟨baseType, tupleElements, errorVariant, unionTypes, structName, typeArgs, elementType⟩ =>
    match baseType, typeArgs with
    | .struct, [] =>
      σ[structName]?.getD
        ⟨.struct, tupleElements, errorVariant, unionTypes, structName, [], elementType⟩
    | .struct, arg :: args =>
      makeGenericStruct (baseName structName) (substList σ (arg :: args))
    | baseType, typeArgs =>
      ⟨baseType, substList σ tupleElements, errorVariant, substList σ unionTypes, structName,
        substList σ typeArgs, substOption σ elementType⟩

def substList (σ : Substitution) : List TypeDescriptor → List TypeDescriptor
  | [] => []
  | type :: types => subst σ type :: substList σ types

def substOption (σ : Substitution) : Option TypeDescriptor → Option TypeDescriptor
  | none => none
  | some type => some (subst σ type)

end

mutual

/-- The names that stand for a plain struct or a parameter, at any depth. -/
def leaves : TypeDescriptor → List String
  | ⟨baseType, tupleElements, _, unionTypes, structName, typeArgs, elementType⟩ =>
    match baseType, typeArgs with
    | .struct, [] => [structName]
    | .struct, arg :: args => leavesList (arg :: args)
    | _, typeArgs =>
      leavesList tupleElements ++ leavesList unionTypes ++ leavesList typeArgs ++
        leavesOption elementType

def leavesList : List TypeDescriptor → List String
  | [] => []
  | type :: types => leaves type ++ leavesList types

def leavesOption : Option TypeDescriptor → List String
  | none => []
  | some type => leaves type

end

/-- The leaves of its type arguments. -/
def nestedLeaves (type : TypeDescriptor) : List String :=
  if type.typeArgs.isEmpty then [] else type.leaves

end TypeDescriptor

open TypeDescriptor

/-! ## Types that can be written -/

def keywordTypes : List ParamType := [.int, .float, .bool, .string]

/-- An identifier, possibly qualified, that is no keyword. -/
structure IsTypeName (name : String) : Prop where
  notSpecial : ∀ c ∈ name.toList, c ∉ ['<', '>', ',', ' ']
  notKeyword : name ∉ ["int", "float", "bool", "string", "Error"]

instance (name : String) : Decidable (IsTypeName name) :=
  decidable_of_iff (name.toList.all (· ∉ ['<', '>', ',', ' ']) ∧
      name ∉ ["int", "float", "bool", "string", "Error"])
    ⟨fun h => ⟨fun c hc => of_decide_eq_true (List.all_eq_true.mp h.1 c hc), h.2⟩,
      fun h => ⟨List.all_eq_true.mpr fun c hc => decide_eq_true (h.notSpecial c hc),
        h.notKeyword⟩⟩

/-- The types that `type_spec` builds. -/
inductive Written : TypeDescriptor → Prop
  | primitive (type : ParamType) (h : type ∈ keywordTypes) : Written (.ofParamType type)
  | error : Written { baseType := .error, errorVariant := "Error" }
  | named (name : String) (h : IsTypeName name) : Written (makeStruct name)
  | generic (base : String) (args : List TypeDescriptor) (hb : IsTypeName base)
      (hne : args ≠ []) (ha : ∀ arg ∈ args, Written arg) : Written (makeGenericStruct base args)

/-- A parameter that is replaced by itself, or a name that is no parameter. -/
def Leaves (σ : Substitution) (name : String) : Prop :=
  σ[name]? = none ∨ σ[name]? = some (makeStruct name)

/-- The parameters are identifiers. -/
def ParamNames (σ : Substitution) : Prop := ∀ name, σ[name]? ≠ none → IsTypeName name

section Types

variable {σ : Substitution}

theorem mem_leavesList {types : List TypeDescriptor} {n : String} :
    n ∈ leavesList types ↔ ∃ type ∈ types, n ∈ type.leaves := by
  induction types with
  | nil =>
    rw [leavesList]
    exact ⟨fun h => absurd h List.not_mem_nil, fun ⟨_, h, _⟩ => absurd h List.not_mem_nil⟩
  | cons type types ih =>
    rw [leavesList, List.mem_append, ih]
    exact (List.exists_mem_cons_iff (fun type => n ∈ type.leaves) type types).symm

theorem substList_eq_map (types : List TypeDescriptor) :
    substList σ types = types.map (subst σ) := by
  induction types with
  | nil => rw [substList, List.map_nil]
  | cons type types ih => rw [substList, ih, List.map_cons]

theorem IsTypeName.baseName {name : String} (h : IsTypeName name) : baseName name = name := by
  unfold FalconLib.Dsl.baseName genericBase
  rw [if_neg fun hm => h.notSpecial _ hm List.mem_cons_self]
  rfl

theorem baseName_generic {base : String} (h : IsTypeName base) (args : List TypeDescriptor) :
    baseName (instanceName base args) = base := by
  rw [baseName_instanceName, h.baseName]

theorem subst_named (name : String) : (makeStruct name).subst σ = σ[name]?.getD (makeStruct name) := by
  rw [makeStruct, subst]

theorem subst_generic {base : String} (hb : IsTypeName base) {args : List TypeDescriptor}
    (hne : args ≠ []) :
    (makeGenericStruct base args).subst σ = makeGenericStruct base (args.map (subst σ)) := by
  cases args with
  | nil => exact absurd rfl hne
  | cons arg args =>
    rw [makeGenericStruct, subst, baseName_generic hb, substList_eq_map]

theorem leaves_named (name : String) : (makeStruct name).leaves = [name] := by
  rw [makeStruct, leaves]

theorem leaves_generic (base : String) {args : List TypeDescriptor} (hne : args ≠ []) :
    (makeGenericStruct base args).leaves = leavesList args := by
  cases args with
  | nil => exact absurd rfl hne
  | cons arg args => rw [makeGenericStruct, leaves]

theorem makeGenericStruct_inj {base : String} {args args' : List TypeDescriptor}
    (h : makeGenericStruct base args = makeGenericStruct base args') : args = args' := by
  unfold makeGenericStruct at h
  injection h

theorem getD_named_iff {name : String} :
    σ[name]?.getD (makeStruct name) = makeStruct name ↔ Leaves σ name := by
  unfold Leaves
  cases σ[name]? with
  | none => exact ⟨fun _ => .inl rfl, fun _ => rfl⟩
  | some type =>
    constructor
    · exact fun h => .inr (congrArg some h)
    · exact fun h => Option.some.inj (h.resolve_left (Option.some_ne_none _))

theorem map_eq_self_iff {α : Type} {f : α → α} {l : List α} :
    l.map f = l ↔ ∀ a ∈ l, f a = a := by
  have h := List.map_inj_left (l := l) (f := f) (g := id)
  rwa [List.map_id] at h

theorem leaves_keyword {type : ParamType} (h : type ∈ keywordTypes) :
    (ofParamType type).leaves = [] ∧ (ofParamType type).subst σ = ofParamType type := by
  simp only [keywordTypes, List.mem_cons, List.not_mem_nil, or_false] at h
  rcases h with rfl | rfl | rfl | rfl <;>
    exact ⟨by simp [ofParamType, leaves, leavesList, leavesOption],
      by simp [ofParamType, subst, substList, substOption]⟩

/-- A substitution leaves a type alone exactly when it keeps all its leaves. -/
theorem subst_eq_self_iff {type : TypeDescriptor} (h : Written type) :
    type.subst σ = type ↔ ∀ n ∈ type.leaves, Leaves σ n := by
  induction h with
  | primitive type ht =>
    obtain ⟨hl, hs⟩ := leaves_keyword (σ := σ) ht
    rw [hl, hs]
    exact ⟨fun _ n hn => absurd hn List.not_mem_nil, fun _ => rfl⟩
  | error =>
    have hl : leaves { baseType := .error, errorVariant := "Error" } = [] := by
      simp [leaves, leavesList, leavesOption]
    rw [hl]
    refine ⟨fun _ n hn => absurd hn List.not_mem_nil, fun _ => ?_⟩
    simp [subst, substList, substOption]
  | named name hn =>
    rw [subst_named, leaves_named, getD_named_iff, List.forall_mem_singleton]
  | generic base args hb hne ha ih =>
    rw [subst_generic hb hne, leaves_generic base hne]
    constructor
    · intro h n hn
      have hargs := makeGenericStruct_inj h
      obtain ⟨arg, harg, hn⟩ := mem_leavesList.mp hn
      refine (ih arg harg).mp ?_ n hn
      exact map_eq_self_iff.mp hargs arg harg
    · intro h
      refine congrArg (makeGenericStruct base) (map_eq_self_iff.mpr fun arg harg => ?_)
      exact (ih arg harg).mpr fun n hn => h n (mem_leavesList.mpr ⟨arg, harg, hn⟩)

/-- No parameter has the name of an instance. -/
theorem getElem?_instanceName (hσ : ParamNames σ) (base : String) (args : List TypeDescriptor) :
    σ[instanceName base args]? = none := by
  by_contra h
  refine (hσ _ h).notSpecial '<' ?_ List.mem_cons_self
  unfold instanceName
  rw [String.toList_append, String.toList_append, String.toList_append]
  simp

theorem substituteType_named (name : String) :
    substituteType σ (makeStruct name) = σ[name]?.getD (makeStruct name) := by
  rw [makeStruct, substituteType]

theorem substituteType_generic (hσ : ParamNames σ) (base : String) (args : List TypeDescriptor) :
    substituteType σ (makeGenericStruct base args) = makeGenericStruct base args := by
  rw [makeGenericStruct, substituteType]
  rw [getElem?_instanceName hσ, Option.getD_none]

/-- The code replaces a parameter that is the whole type, and none further down. -/
theorem substituteType_eq_subst_iff (hσ : ParamNames σ) {type : TypeDescriptor}
    (h : Written type) :
    substituteType σ type = type.subst σ ↔ ∀ n ∈ type.nestedLeaves, Leaves σ n := by
  cases h with
  | primitive type ht =>
    rw [(leaves_keyword ht).2]
    simp only [keywordTypes, List.mem_cons, List.not_mem_nil, or_false] at ht
    rcases ht with rfl | rfl | rfl | rfl <;>
      simp [ofParamType, substituteType, nestedLeaves]
  | error =>
    simp [substituteType, subst, substList, substOption, nestedLeaves]
  | named name hn =>
    rw [substituteType_named, subst_named]
    exact ⟨fun _ n hn => absurd hn List.not_mem_nil, fun _ => rfl⟩
  | generic base args hb hne ha =>
    have hempty : args.isEmpty = false := List.isEmpty_eq_false_iff.mpr hne
    have hnested : (makeGenericStruct base args).nestedLeaves =
        (makeGenericStruct base args).leaves := by
      unfold nestedLeaves
      rw [show (makeGenericStruct base args).typeArgs = args from rfl, hempty]
      rfl
    rw [substituteType_generic hσ, hnested, eq_comm,
      subst_eq_self_iff (.generic base args hb hne ha)]

end Types

end FalconLib.Dsl
