import FalconLib.Dsl.TypeSubstitution

/-!
# Outputs that name the struct itself

An output type that is an instance of the struct is rewritten through the text of its
name, which is cut at the commas. That leaves a name alone exactly when each piece of it
that is a parameter is replaced by itself.
-/

namespace FalconLib.Dsl.SelfReference

open FalconLib.Base (StdMap)
open TypeDescriptor

/-- What stands between the commas of the name of an instance. -/
def pieces (structName : String) : List String :=
  ((betweenAngles structName).splitOn ',').map fun token => String.ofList (trimBlanks token)

/-- The type is not rewritten: it is not the bare struct, and no parameter that is a piece
of its name is replaced by something else. -/
def Unaffected (base : StructDecl) (σ : Substitution) (type : TypeDescriptor) : Prop :=
  type.isStruct → type.structName ≠ base.name ∧
    ((base.name ++ "<").toList.isPrefixOf type.structName.toList →
      ∀ piece ∈ pieces type.structName, Leaves σ piece)

/-! ## Characters of the names of types -/

/-- The characters that end an identifier in the name of an instance. -/
def IsSpecial (c : Char) : Prop := c ∈ ['<', '>', ',', ' ']

instance (c : Char) : Decidable (IsSpecial c) :=
  inferInstanceAs (Decidable (c ∈ ['<', '>', ',', ' ']))

theorem not_special_of_all {cs : List Char} (h : cs.all (¬IsSpecial ·)) :
    ∀ c ∈ cs, ¬IsSpecial c :=
  fun c hc => of_decide_eq_true (List.all_eq_true.mp h c hc)

theorem toList_instanceName (base : String) (args : List TypeDescriptor) :
    (instanceName base args).toList =
      base.toList ++ '<' :: ([','].intercalate ((toStrings args).map String.toList) ++ ['>']) := by
  unfold instanceName
  rw [String.toList_append, String.toList_append, String.toList_append,
    String.toList_intercalate, List.append_assoc, List.append_assoc]
  rfl

theorem toStrings_eq_map (types : List TypeDescriptor) :
    toStrings types = types.map TypeDescriptor.toString := by
  induction types with
  | nil => rw [toStrings, List.map_nil]
  | cons type types ih => rw [toStrings, ih, List.map_cons]

theorem toString_named (name : String) : (makeStruct name).toString = name := by
  rw [makeStruct, TypeDescriptor.toString]

theorem toString_generic (base : String) (args : List TypeDescriptor) :
    (makeGenericStruct base args).toString = instanceName base args := by
  rw [makeGenericStruct, TypeDescriptor.toString]

theorem mem_intercalate_iff {α : Type} {s x : α} (hs : x ≠ s) (ls : List (List α)) :
    x ∈ [s].intercalate ls ↔ ∃ l ∈ ls, x ∈ l := by
  induction ls with
  | nil => exact ⟨fun h => absurd h List.not_mem_nil, fun ⟨_, h, _⟩ => absurd h List.not_mem_nil⟩
  | cons l ls ih =>
    cases ls with
    | nil =>
      rw [List.intercalate_singleton]
      exact ⟨fun h => ⟨l, List.mem_cons_self, h⟩,
        fun ⟨_, hl, hx⟩ => List.mem_singleton.mp hl ▸ hx⟩
    | cons l' ls =>
      rw [List.intercalate_cons_cons, List.mem_append, List.mem_append, ih, or_assoc,
        or_iff_right (fun h => hs (List.mem_singleton.mp h))]
      exact (List.exists_mem_cons_iff (fun l => x ∈ l) l (l' :: ls)).symm

/-- No name of a type has a blank in it. -/
theorem blank_notMem {type : TypeDescriptor} (h : Written type) : ' ' ∉ type.toString.toList := by
  induction h with
  | primitive type ht =>
    simp only [keywordTypes, List.mem_cons, List.not_mem_nil, or_false] at ht
    rcases ht with rfl | rfl | rfl | rfl <;> decide
  | error => decide
  | named name hn =>
    rw [toString_named]
    exact fun hm => hn.notSpecial _ hm (by decide)
  | generic base args hb hne ha ih =>
    rw [toString_generic, toList_instanceName, List.mem_append, List.mem_cons, List.mem_append,
      List.mem_singleton, mem_intercalate_iff (by decide)]
    rintro (hm | hm | ⟨l, hl, hm⟩ | hm)
    · exact hb.notSpecial _ hm (by decide)
    · exact absurd hm (by decide)
    · rw [toStrings_eq_map, List.map_map] at hl
      obtain ⟨arg, harg, rfl⟩ := List.mem_map.mp hl
      exact ih arg harg hm
    · exact absurd hm (by decide)

/-- The name of a type is an identifier, or one followed by arguments. -/
theorem toString_split {type : TypeDescriptor} (h : Written type) :
    ∃ name rest, type.toString.toList = name ++ rest ∧ (∀ c ∈ name, ¬ IsSpecial c) ∧
      (rest = [] ∨ ∃ rest', rest = '<' :: rest') := by
  cases h with
  | primitive type ht =>
    refine ⟨_, [], (List.append_nil _).symm, ?_, .inl rfl⟩
    simp only [keywordTypes, List.mem_cons, List.not_mem_nil, or_false] at ht
    refine not_special_of_all ?_
    rcases ht with rfl | rfl | rfl | rfl <;> decide
  | error => exact ⟨_, [], (List.append_nil _).symm, not_special_of_all (by decide), .inl rfl⟩
  | named name hn =>
    rw [toString_named]
    exact ⟨_, [], (List.append_nil _).symm, hn.notSpecial, .inl rfl⟩
  | generic base args hb hne ha =>
    rw [toString_generic, toList_instanceName]
    exact ⟨_, _, rfl, hb.notSpecial, .inr ⟨_, rfl⟩⟩

theorem toString_eq_iff {type : TypeDescriptor} (h : Written type) {name : String}
    (hn : IsTypeName name) : type.toString = name ↔ type = makeStruct name := by
  constructor
  · intro he
    cases h with
    | primitive type ht =>
      refine absurd ?_ hn.notKeyword
      rw [← he]
      simp only [keywordTypes, List.mem_cons, List.not_mem_nil, or_false] at ht
      rcases ht with rfl | rfl | rfl | rfl <;> decide
    | error =>
      refine absurd ?_ hn.notKeyword
      rw [← he]
      decide
    | named n h => rw [← he, toString_named]
    | generic base args hb hne ha =>
      refine absurd (show IsSpecial '<' by decide) (hn.notSpecial '<' ?_)
      rw [← he, toString_generic, toList_instanceName]
      exact List.mem_append_right _ List.mem_cons_self
  · rintro rfl
    exact toString_named name

/-! ## Names cut at their commas -/

theorem takeWhile_special {name rest : List Char} (hn : ∀ c ∈ name, ¬ IsSpecial c) {c : Char}
    (hc : IsSpecial c) :
    (name ++ c :: rest).takeWhile (fun c => ¬ IsSpecial c) = name := by
  rw [List.takeWhile_append_of_pos fun c hm => decide_eq_true (hn c hm), List.takeWhile_cons,
    if_neg (by simpa using hc), List.append_nil]

/-- Replacing some of the pieces changes the whole, unless it changes no piece. -/
theorem eq_of_intercalate_map {g : List Char → List Char} (tokens : List (List Char))
    (h : ∀ t ∈ tokens, g t = t ∨ (∀ c ∈ t, ¬ IsSpecial c) ∧
      ∃ name rest, g t = name ++ rest ∧ (∀ c ∈ name, ¬ IsSpecial c) ∧
        (rest = [] ∨ ∃ rest', rest = '<' :: rest'))
    (he : [','].intercalate (tokens.map g) = [','].intercalate tokens) :
    ∀ t ∈ tokens, g t = t := by
  induction tokens with
  | nil => exact fun t ht => absurd ht List.not_mem_nil
  | cons t tokens ih =>
    obtain ⟨ht, hrest⟩ := List.forall_mem_cons.mp h
    cases tokens with
    | nil =>
      rw [List.map_singleton, List.intercalate_singleton, List.intercalate_singleton] at he
      exact List.forall_mem_singleton.mpr he
    | cons t' tokens =>
      rw [List.map_cons, List.map_cons, List.intercalate_cons_cons, ← List.map_cons,
        List.intercalate_cons_cons, List.append_assoc, List.append_assoc] at he
      have hfirst : g t = t := by
        by_contra hne
        obtain ⟨hspecial, name, rest, hg, hname, hend⟩ := ht.resolve_left hne
        have htake := congrArg (List.takeWhile fun c => ¬ IsSpecial c) he
        rw [List.singleton_append, List.singleton_append,
          takeWhile_special hspecial (by decide)] at htake
        rcases hend with rfl | ⟨rest', rfl⟩
        · rw [hg, List.append_nil, takeWhile_special hname (by decide)] at htake
          exact hne (by rw [hg, List.append_nil, htake])
        · rw [hg, List.append_assoc, List.cons_append,
            takeWhile_special hname (by decide)] at htake
          rw [hg, htake, List.append_assoc] at he
          have hcons := List.append_cancel_left he
          rw [List.cons_append, List.singleton_append] at hcons
          injection hcons with hc
          exact absurd hc (by decide)
      rw [hfirst] at he
      exact List.forall_mem_cons.mpr ⟨hfirst, ih hrest
        (List.append_cancel_left (List.append_cancel_left he))⟩

theorem betweenAngles_instanceName {base : String} (hb : IsTypeName base)
    (args : List TypeDescriptor) :
    betweenAngles (instanceName base args) =
      [','].intercalate ((toStrings args).map String.toList) := by
  have hbase : ∀ c ∈ base.toList, (c != '<') = true := by
    intro c hc
    refine bne_iff_ne.mpr fun he => hb.notSpecial c hc ?_
    rw [he]
    decide
  unfold betweenAngles
  rw [toList_instanceName, List.dropWhile_append_of_pos hbase]
  generalize [','].intercalate ((toStrings args).map String.toList) = inner
  have hstop : ∀ (c : Char) (cs : List Char), (c :: cs).dropWhile (· != c) = c :: cs := by
    intro c cs
    rw [List.dropWhile_cons, bne_self_eq_false, if_neg Bool.false_ne_true]
  rw [hstop, List.drop_one, List.tail_cons]
  dsimp only
  rw [if_pos (List.mem_append_right _ List.mem_cons_self), List.reverse_append,
    List.reverse_singleton, List.singleton_append, hstop, List.drop_one, List.tail_cons,
    List.reverse_reverse]

theorem dropWhile_blank {cs : List Char} (h : ' ' ∉ cs) : cs.dropWhile (· == ' ') = cs := by
  cases cs with
  | nil => rfl
  | cons c cs =>
    rw [List.dropWhile_cons, if_neg]
    exact fun he => h (beq_iff_eq.mp he ▸ List.mem_cons_self)

theorem trimBlanks_of_notMem {cs : List Char} (h : ' ' ∉ cs) : trimBlanks cs = cs := by
  unfold trimBlanks
  rw [dropWhile_blank h, dropWhile_blank (fun hm => h (List.mem_reverse.mp hm)),
    List.reverse_reverse]

section Rebuild

variable {σ : Substitution}

/-- What a piece of the name becomes. -/
def replaced (σ : Substitution) (name : String) : String :=
  match σ[name]? with
  | some type => type.toString
  | none => name

theorem replaced_eq_iff (hσ : ParamNames σ)
    (hv : ∀ (name : String) (type : TypeDescriptor), σ[name]? = some type → Written type) (name : String) :
    replaced σ name = name ↔ Leaves σ name := by
  unfold replaced Leaves
  cases h : σ[name]? with
  | none => exact ⟨fun _ => .inl rfl, fun _ => rfl⟩
  | some type =>
    have hname : IsTypeName name := hσ name (by rw [h]; exact Option.some_ne_none _)
    dsimp only
    rw [toString_eq_iff (hv name type h) hname]
    constructor
    · exact fun he => .inr (congrArg some he)
    · exact fun hk => Option.some.inj (hk.resolve_left (Option.some_ne_none _))

/-- The pieces, put together as they are, are the arguments of the name. -/
theorem rebuild_eq_iff (hσ : ParamNames σ)
    (hv : ∀ (name : String) (type : TypeDescriptor), σ[name]? = some type → Written type)
    {base : String} (hb : IsTypeName base) {args : List TypeDescriptor} (ha : ∀ arg ∈ args, Written arg) :
    rebuildSelfReference base σ (instanceName base args) = instanceName base args ↔
      ∀ piece ∈ pieces (instanceName base args), Leaves σ piece := by
  let inner := [','].intercalate ((toStrings args).map String.toList)
  have hjoin : [','].intercalate (inner.splitOn ',') = inner := List.intercalate_splitOn ','
  have hblank : ∀ token ∈ inner.splitOn ',', ' ' ∉ token := by
    intro token ht hm
    have hinner : ' ' ∈ inner := by
      rw [← hjoin]
      exact (mem_intercalate_iff (by decide) _).mpr ⟨token, ht, hm⟩
    obtain ⟨l, hl, hm⟩ := (mem_intercalate_iff (by decide) _).mp hinner
    rw [toStrings_eq_map, List.map_map] at hl
    obtain ⟨arg, harg, rfl⟩ := List.mem_map.mp hl
    exact blank_notMem (ha arg harg) hm
  let g := fun token => (replaced σ (String.ofList token)).toList
  have hrebuild : rebuildSelfReference base σ (instanceName base args) = instanceName base args ↔
      [','].intercalate ((inner.splitOn ',').map g) = [','].intercalate (inner.splitOn ',') := by
    have htokens : rebuildSelfReference base σ (instanceName base args) = base ++ "<" ++
        ",".intercalate ((inner.splitOn ',').map fun token => replaced σ (String.ofList token)) ++
          ">" := by
      unfold rebuildSelfReference
      rw [betweenAngles_instanceName hb]
      dsimp only
      congr 3
      refine List.map_congr_left fun token ht => ?_
      rw [trimBlanks_of_notMem (hblank token ht)]
      rfl
    rw [htokens, ← String.toList_inj, toList_instanceName, String.toList_append,
      String.toList_append, String.toList_append, String.toList_intercalate, List.map_map,
      List.append_assoc, List.append_assoc, List.append_cancel_left_eq, hjoin]
    change '<' :: ([','].intercalate ((inner.splitOn ',').map g) ++ ['>']) = _ ↔ _
    rw [List.cons.injEq, List.append_cancel_right_eq]
    exact and_iff_right rfl
  have hpieces : pieces (instanceName base args) = (inner.splitOn ',').map String.ofList := by
    unfold pieces
    rw [betweenAngles_instanceName hb]
    exact List.map_congr_left fun token ht => congrArg _ (trimBlanks_of_notMem (hblank token ht))
  have hkeeps : ∀ token, g token = token ↔ Leaves σ (String.ofList token) := by
    intro token
    rw [← replaced_eq_iff hσ hv]
    exact ⟨fun h => String.toList_inj.mp (h.trans String.toList_ofList.symm),
      fun h => (congrArg String.toList h).trans String.toList_ofList⟩
  rw [hrebuild, hpieces, List.forall_mem_map]
  constructor
  · intro he token ht
    refine (hkeeps token).mp (eq_of_intercalate_map _ (fun token ht => ?_) he token ht)
    by_cases hk : Leaves σ (String.ofList token)
    · exact .inl ((hkeeps token).mpr hk)
    · cases hs : σ[String.ofList token]? with
      | none => exact absurd (.inl hs) hk
      | some type =>
        have hname := hσ _ (by rw [hs]; exact Option.some_ne_none _)
        have hg : g token = type.toString.toList := by
          change (replaced σ (String.ofList token)).toList = _
          unfold replaced
          rw [hs]
        rw [hg]
        refine .inr ⟨?_, toString_split (hv _ type hs)⟩
        have hspecial := hname.notSpecial
        rwa [String.toList_ofList] at hspecial
  · intro hk
    refine congrArg _ (map_eq_self_iff.mpr fun token ht => (hkeeps token).mpr (hk token ht))

/-! ## The types of outputs -/

/-- What an output type becomes after the substitution. -/
def rewriteSelf (base : StructDecl) (monoName : String) (σ : Substitution)
    (new : TypeDescriptor) : TypeDescriptor :=
  if new.isStruct then
    if new.structName = base.name then { new with structName := monoName }
    else if (base.name ++ "<").toList.isPrefixOf new.structName.toList then
      { new with structName := rebuildSelfReference base.name σ new.structName }
    else new
  else new

theorem substituteOutputType_eq (base : StructDecl) (monoName : String)
    (type : TypeDescriptor) : substituteOutputType base monoName σ type =
      rewriteSelf base monoName σ (substituteType σ type) := rfl

theorem typeArgs_rewriteSelf (base : StructDecl) (monoName : String) (new : TypeDescriptor) :
    (rewriteSelf base monoName σ new).typeArgs = new.typeArgs := by
  unfold rewriteSelf
  split
  · split
    · rfl
    · split <;> rfl
  · rfl

theorem prefix_named {base name : String} (hn : IsTypeName name) :
    (base ++ "<").toList.isPrefixOf name.toList = false := by
  rw [Bool.eq_false_iff]
  intro h
  obtain ⟨rest, hr⟩ := List.isPrefixOf_iff_prefix.mp h
  refine hn.notSpecial '<' ?_ (by decide)
  rw [← hr, String.toList_append]
  exact List.mem_append_left _ (List.mem_append_right _ List.mem_cons_self)

theorem prefix_generic_iff {base name : String} (hb : IsTypeName base) (hn : IsTypeName name)
    (args : List TypeDescriptor) :
    (base ++ "<").toList.isPrefixOf (instanceName name args).toList = true ↔ base = name := by
  rw [List.isPrefixOf_iff_prefix, toList_instanceName, String.toList_append]
  constructor
  · rintro ⟨rest, hr⟩
    have htake := congrArg (List.takeWhile fun c => ¬ IsSpecial c) hr
    rw [List.append_assoc] at htake
    change (base.toList ++ '<' :: rest).takeWhile _ = _ at htake
    rw [takeWhile_special hb.notSpecial (by decide),
      takeWhile_special hn.notSpecial (by decide)] at htake
    exact String.toList_inj.mp htake
  · rintro rfl
    exact ⟨_, List.append_assoc _ _ _⟩

theorem instanceName_ne {base name : String} (hn : IsTypeName name) (args : List TypeDescriptor) :
    instanceName base args ≠ name := by
  rintro rfl
  refine hn.notSpecial '<' ?_ (by decide)
  rw [toList_instanceName]
  exact List.mem_append_right _ List.mem_cons_self

theorem rewriteSelf_eq_self_iff (hσ : ParamNames σ)
    (hv : ∀ (name : String) (type : TypeDescriptor), σ[name]? = some type → Written type)
    {base : StructDecl} (hb : IsTypeName base.name) (typeArgs : List TypeDescriptor)
    {type : TypeDescriptor} (h : Written type) :
    rewriteSelf base (instanceName base.name typeArgs) σ type = type ↔
      Unaffected base σ type := by
  unfold rewriteSelf Unaffected
  cases h with
  | primitive type ht =>
    have hstruct : (ofParamType type).isStruct = false := by
      simp only [keywordTypes, List.mem_cons, List.not_mem_nil, or_false] at ht
      rcases ht with rfl | rfl | rfl | rfl <;> rfl
    rw [hstruct]
    exact ⟨fun _ h => absurd h Bool.false_ne_true, fun _ => rfl⟩
  | error => exact ⟨fun _ h => absurd h Bool.false_ne_true, fun _ => rfl⟩
  | named name hn =>
    rw [if_pos (show (makeStruct name).isStruct = true from rfl)]
    change (if name = base.name then _ else if (base.name ++ "<").toList.isPrefixOf name.toList
      then _ else _) = _ ↔ (_ → name ≠ base.name ∧
        ((base.name ++ "<").toList.isPrefixOf name.toList = true → _))
    rw [prefix_named hn]
    by_cases he : name = base.name
    · rw [if_pos he]
      constructor
      · intro h
        have hname := congrArg structName h
        exact absurd (hname.trans he) (instanceName_ne hb typeArgs)
      · exact fun h => absurd he (h rfl).1
    · rw [if_neg he]
      exact ⟨fun _ _ => ⟨he, fun hc => by cases hc⟩, fun _ => rfl⟩
  | generic name args hn hne ha =>
    rw [if_pos (show (makeGenericStruct name args).isStruct = true from rfl)]
    change (if instanceName name args = base.name then _ else
      if (base.name ++ "<").toList.isPrefixOf (instanceName name args).toList then _ else _) = _ ↔
        (_ → instanceName name args ≠ base.name ∧
          ((base.name ++ "<").toList.isPrefixOf (instanceName name args).toList = true →
            ∀ piece ∈ pieces (instanceName name args), _))
    rw [if_neg (instanceName_ne hb args)]
    by_cases hp : base.name = name
    · have hprefix := (prefix_generic_iff hb hn args).mpr hp
      have hrebuild := rebuild_eq_iff hσ hv hb ha
      rw [if_pos hprefix, hprefix]
      subst hp
      constructor
      · intro h _
        exact ⟨instanceName_ne hb args, fun _ => hrebuild.mp (congrArg structName h)⟩
      · intro h
        have hname := hrebuild.mpr ((h rfl).2 rfl)
        exact congrArg (fun n => { makeGenericStruct base.name args with structName := n }) hname
    · have hprefix : ¬ (base.name ++ "<").toList.isPrefixOf (instanceName name args).toList = true :=
        fun h => hp ((prefix_generic_iff hb hn args).mp h)
      rw [if_neg hprefix]
      exact ⟨fun _ _ => ⟨instanceName_ne hb args, fun hc => absurd hc hprefix⟩, fun _ => rfl⟩

theorem written_subst (hv : ∀ (name : String) (type : TypeDescriptor),
    σ[name]? = some type → Written type) {type : TypeDescriptor} (h : Written type) :
    Written (type.subst σ) := by
  induction h with
  | primitive type ht =>
    rw [(leaves_keyword ht).2]
    exact .primitive type ht
  | error =>
    have he : subst σ { baseType := .error, errorVariant := "Error" } =
        { baseType := .error, errorVariant := "Error" } := by
      simp [subst, substList, substOption]
    rw [he]
    exact .error
  | named name hn =>
    rw [subst_named]
    cases hs : σ[name]? with
    | none => exact .named name hn
    | some type => exact hv name type hs
  | generic base args hb hne ha ih =>
    rw [subst_generic hb hne]
    refine .generic base _ hb (fun h => hne (List.map_eq_nil_iff.mp h)) fun arg harg => ?_
    obtain ⟨a, ha, rfl⟩ := List.mem_map.mp harg
    exact ih a ha

/-- The type of an output is replaced as it should be exactly when no parameter occurs
further down, unless it is kept, and the outcome is not taken for the struct itself. -/
theorem substituteOutputType_eq_subst_iff (hσ : ParamNames σ)
    (hv : ∀ (name : String) (type : TypeDescriptor), σ[name]? = some type → Written type)
    {base : StructDecl} (hb : IsTypeName base.name) (typeArgs : List TypeDescriptor)
    {type : TypeDescriptor} (h : Written type) :
    substituteOutputType base (instanceName base.name typeArgs) σ type = type.subst σ ↔
      (∀ n ∈ type.nestedLeaves, Leaves σ n) ∧ Unaffected base σ (type.subst σ) := by
  rw [substituteOutputType_eq, ← substituteType_eq_subst_iff hσ h,
    ← rewriteSelf_eq_self_iff hσ hv hb typeArgs (written_subst hv h)]
  constructor
  · intro he
    have hsame : substituteType σ type = type.subst σ := by
      cases h with
      | generic name args hn hne ha =>
        have hargs := congrArg TypeDescriptor.typeArgs he
        rw [typeArgs_rewriteSelf, substituteType_generic hσ, subst_generic hn hne] at hargs
        rw [substituteType_generic hσ, subst_generic hn hne]
        exact congrArg (makeGenericStruct name) hargs
      | primitive type ht =>
        refine (substituteType_eq_subst_iff hσ (.primitive type ht)).mpr fun n hn => ?_
        exact absurd hn List.not_mem_nil
      | error =>
        refine (substituteType_eq_subst_iff hσ .error).mpr fun n hn => ?_
        exact absurd hn List.not_mem_nil
      | named name hn => rw [substituteType_named, subst_named]
    rw [hsame] at he
    exact ⟨hsame, he⟩
  · rintro ⟨hsame, he⟩
    rw [hsame, he]

end Rebuild

end FalconLib.Dsl.SelfReference
