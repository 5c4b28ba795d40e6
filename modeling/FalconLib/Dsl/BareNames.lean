import FalconLib.Dsl.Resolution

/-!
# The autotuner behind a bare name

The host looks a bare name up in the table of the loaded autotuners and, where it is not there,
takes the first qualified name that ends in it. A call in a program takes what was registered last
under the bare name.
-/

namespace FalconLib.Dsl.BareNames

open FalconLib.Base
open FalconLib.Base.StdMap (lastWrite mem_of_lastWrite exists_lastWrite)
open AutotunerEngine Resolution

variable {S : Type}

/-! ## The two selections -/

/-- `get_autotuner`. -/
def getAutotuner (ctx : Context S) (name : String) : Option AutotunerDecl :=
  findAutotuner ctx.loadedAutotuners name

/-- A bare call resolves to an autotuner, and this is its declaration. -/
def Executes (ctx : Context S) (w : World S) (name : String) (decl : AutotunerDecl) : Prop :=
  ∃ qname, (ExprEvaluator.resolveFunction ctx name w).outcome = .ok (name, .autotuner qname) w ∧
    ctx.loadedAutotuners[qname]? = some decl

/-- The host and a bare call mean one autotuner, or both none. -/
def Agree (ctx : Context S) (w : World S) (name : String) : Prop :=
  ∀ decl, getAutotuner ctx name = some decl ↔ Executes ctx w name decl

/-- `run_autotuner` runs what `get_autotuner` returns. -/
theorem runAutotuner_outcome {ctx : Context S} {name : String} {decl : AutotunerDecl}
    (h : getAutotuner ctx name = some decl) (fuel : Nat) (inputs : ParameterMap) (w : World S) :
    (runAutotuner ctx fuel name inputs w).outcome =
      (Interpreter.run ctx (Interpreter.handlers ctx fuel) fuel decl inputs w).outcome := by
  unfold runAutotuner
  rw [Comp.outcome_ask_bind]
  unfold getAutotuner at h
  rw [h]

/-- A bare call runs what it resolves to. -/
theorem Executes.callFunction_outcome {ctx : Context S} {w : World S} {name : String}
    {decl : AutotunerDecl} (h : Executes ctx w name decl) :
    ∃ function, (ExprEvaluator.resolveFunction ctx name w).outcome = .ok (name, function) w ∧
      ∀ handlers fuel params current,
        (Interpreter.callFunction ctx handlers fuel function params current).outcome =
          (Interpreter.run ctx handlers fuel decl params current).outcome := by
  obtain ⟨qname, hresolve, hdecl⟩ := h
  refine ⟨.autotuner qname, hresolve, fun handlers fuel params current => ?_⟩
  unfold Interpreter.callFunction
  rw [Comp.outcome_ask_bind, hdecl]

theorem executes_iff {ctx : Context S} {w : World S} {name : String} (hname : IsIdentifier name)
    {decl : AutotunerDecl} :
    Executes ctx w name decl ↔ ∃ qname, ctx.functions.lookup name = some (.autotuner qname) ∧
      ctx.loadedAutotuners[qname]? = some decl := by
  constructor
  · rintro ⟨qname, hresolve, hdecl⟩
    cases hlookup : ctx.functions.lookup name with
    | none =>
      rw [resolveFunction_of_none ctx hlookup hname.isQualified] at hresolve
      cases hresolve
    | some function =>
      rw [resolveFunction_of_some ctx hlookup] at hresolve
      cases hresolve
      exact ⟨qname, rfl, hdecl⟩
  · rintro ⟨qname, hlookup, hdecl⟩
    exact ⟨qname, resolveFunction_of_some ctx hlookup w, hdecl⟩

/-! ## The table -/

/-- The qualified name at which the host finds a bare name. -/
def Leads (loaded : String → Prop) (name qname : String) : Prop :=
  loaded qname ∧ (qname = name ∨ (¬loaded name ∧ stripModulePrefix qname = name ∧
    ∀ other, loaded other → stripModulePrefix other = name → qname ≤ other))

theorem Leads.unique {loaded : String → Prop} {name q₁ q₂ : String} (h₁ : Leads loaded name q₁)
    (h₂ : Leads loaded name q₂) : q₁ = q₂ := by
  obtain ⟨hloaded₁, rfl | ⟨hnot₁, hstrip₁, hfirst₁⟩⟩ := h₁
  · obtain ⟨_, heq | ⟨hnot₂, _⟩⟩ := h₂
    · exact heq.symm
    · exact absurd hloaded₁ hnot₂
  · obtain ⟨hloaded₂, rfl | ⟨_, hstrip₂, hfirst₂⟩⟩ := h₂
    · exact absurd hloaded₂ hnot₁
    · exact String.le_antisymm (hfirst₁ _ hloaded₂ hstrip₂) (hfirst₂ _ hloaded₁ hstrip₁)

/-- The table is searched in the order of its keys. -/
theorem find_le {autotuners : StdMap AutotunerDecl} {name : String}
    {found : String × AutotunerDecl}
    (h : autotuners.toList.find? (fun entry => stripModulePrefix entry.1 == name) = some found) :
    autotuners[found.1]? = some found.2 ∧ stripModulePrefix found.1 = name ∧
      ∀ other, autotuners[other]?.isSome → stripModulePrefix other = name → found.1 ≤ other := by
  obtain ⟨hstrip, before, after, hlist, hbefore⟩ := List.find?_eq_some_iff_append.mp h
  have hsorted := Std.ExtTreeMap.ordered_keys_toList (t := autotuners)
  refine ⟨Std.ExtTreeMap.mem_toList_iff_getElem?_eq_some.mp ?_, beq_iff_eq.mp hstrip,
    fun other hother hname => ?_⟩
  · rw [hlist]
    exact List.mem_append_right _ List.mem_cons_self
  · obtain ⟨decl, hdecl⟩ := Option.isSome_iff_exists.mp hother
    have hmem := Std.ExtTreeMap.mem_toList_iff_getElem?_eq_some.mpr hdecl
    rw [hlist] at hmem hsorted
    rcases List.mem_append.mp hmem with hmem | hmem
    · have hmiss := hbefore _ hmem
      rw [hname, beq_self_eq_true] at hmiss
      cases hmiss
    · rcases List.mem_cons.mp hmem with hmem | hmem
      · exact hmem ▸ String.le_refl _
      · have hlt := List.rel_of_pairwise_cons (List.pairwise_append.mp hsorted).2.1 hmem
        exact String.not_lt.mp (String.lt_asymm (compareOfLessAndEq_eq_lt.mp hlt))

theorem findAutotuner_eq_some {autotuners : StdMap AutotunerDecl} {name : String}
    {decl : AutotunerDecl} :
    findAutotuner autotuners name = some decl ↔
      ∃ qname, Leads (fun q => autotuners[q]?.isSome) name qname ∧
        autotuners[qname]? = some decl := by
  unfold findAutotuner
  cases hexact : autotuners[name]? with
  | some exact =>
    have hname : Leads (fun q => autotuners[q]?.isSome) name name :=
      ⟨Option.isSome_iff_exists.mpr ⟨exact, hexact⟩, .inl rfl⟩
    constructor
    · intro h
      exact ⟨name, hname, hexact.trans h⟩
    · rintro ⟨qname, hleads, hdecl⟩
      cases hleads.unique hname
      exact hexact.symm.trans hdecl
  | none =>
    have hnot : ¬autotuners[name]?.isSome := by
      rw [hexact]
      exact Bool.false_ne_true
    dsimp only
    constructor
    · intro h
      obtain ⟨found, hfound, hdecl⟩ := Option.map_eq_some_iff.mp h
      obtain ⟨hget, hstrip, hfirst⟩ := find_le hfound
      rw [hdecl] at hget
      exact ⟨found.1, ⟨Option.isSome_iff_exists.mpr ⟨decl, hget⟩, .inr ⟨hnot, hstrip, hfirst⟩⟩,
        hget⟩
    · rintro ⟨qname, hleads, hdecl⟩
      obtain ⟨hloaded, heq | ⟨_, hstrip, _⟩⟩ := id hleads
      · subst heq
        exact absurd hloaded hnot
      · have hmem := Std.ExtTreeMap.mem_toList_iff_getElem?_eq_some.mpr hdecl
        have hsome : (autotuners.toList.find?
            fun entry => stripModulePrefix entry.1 == name).isSome :=
          List.find?_isSome.mpr ⟨_, hmem, beq_iff_eq.mpr hstrip⟩
        obtain ⟨found, hfound⟩ := Option.isSome_iff_exists.mp hsome
        obtain ⟨hget, hfoundstrip, hfirst⟩ := find_le hfound
        have hfoundLeads : Leads (fun q => autotuners[q]?.isSome) name found.1 :=
          ⟨Option.isSome_iff_exists.mpr ⟨found.2, hget⟩, .inr ⟨hnot, hfoundstrip, hfirst⟩⟩
        rw [hfound]
        rw [hleads.unique hfoundLeads, hget] at hdecl
        exact hdecl

theorem exists_findAutotuner {autotuners : StdMap AutotunerDecl} {name qname : String}
    (hloaded : autotuners[qname]?.isSome) (hname : qname = name ∨ stripModulePrefix qname = name) :
    ∃ decl, findAutotuner autotuners name = some decl := by
  unfold findAutotuner
  cases hexact : autotuners[name]? with
  | some exact => exact ⟨exact, rfl⟩
  | none =>
    rcases hname with rfl | hstrip
    · rw [hexact] at hloaded
      cases hloaded
    · obtain ⟨decl, hdecl⟩ := Option.isSome_iff_exists.mp hloaded
      have hmem := Std.ExtTreeMap.mem_toList_iff_getElem?_eq_some.mpr hdecl
      have hsome : (autotuners.toList.find?
          fun entry => stripModulePrefix entry.1 == name).isSome :=
        List.find?_isSome.mpr ⟨_, hmem, beq_iff_eq.mpr hstrip⟩
      obtain ⟨found, hfound⟩ := Option.isSome_iff_exists.mp hsome
      exact ⟨found.2, by rw [hfound]; rfl⟩

/-! ## After any loads -/

/-- An autotuner is in the table under the name. -/
def Loaded (loads : List Load) (qname : String) : Prop :=
  ∃ load ∈ loads, LoadHistory.complete load ∧ ∃ decl ∈ load.autotuners,
    qname = qualifiedName load.moduleName decl.name

theorem loaded_iff (loads : List Load) (qname : String) :
    Loaded loads qname ↔ (create.loadAll loads).loadedAutotuners[qname]?.isSome := by
  rw [loadedAutotuners_loadAll]
  constructor
  · rintro ⟨load, hload, hcomplete, decl, hdecl, hqname⟩
    obtain ⟨last, hlast⟩ :=
      exists_lastWrite (mem_autotunerEntries.mpr ⟨load, hload, hcomplete, hdecl, hqname⟩)
    rw [hlast]
    rfl
  · intro h
    obtain ⟨decl, hdecl⟩ := Option.isSome_iff_exists.mp h
    obtain ⟨load, hload, hcomplete, hmem, hqname⟩ :=
      mem_autotunerEntries.mp (mem_of_lastWrite hdecl)
    exact ⟨load, hload, hcomplete, decl, hmem, hqname⟩

/-- A declaration in the table tells the name that it stands under. -/
theorem qualifiedName_of_loaded {loads : List Load} {qname : String} {decl : AutotunerDecl}
    (h : (create.loadAll loads).loadedAutotuners[qname]? = some decl) :
    qname = qualifiedName decl.moduleName decl.name := by
  rw [loadedAutotuners_loadAll] at h
  obtain ⟨load, _, _, hdecl, hqname⟩ := mem_autotunerEntries.mp (mem_of_lastWrite h)
  rw [hqname, (mem_autotuners hdecl).1]

/-- What was registered last under a bare name is an autotuner that the host finds first, or
nothing that the host finds has that name. -/
def LastLeads (loads : List Load) (name : String) : Prop :=
  match (lastWrite name (registered loads)).map Registered.function with
  | some (.autotuner qname) => Leads (Loaded loads) name qname
  | _ => ∀ qname, Loaded loads qname → qname ≠ name ∧ stripModulePrefix qname ≠ name

/-- An autotuner that was registered is in the table. -/
theorem loaded_of_registered {loads : List Load} {name qname : String}
    {entry : Registered ExternalFunction} (h : (name, entry) ∈ registered loads)
    (hentry : entry.function = .autotuner qname) : Loaded loads qname := by
  rcases List.mem_append.mp h with h | h
  · have hbuiltins : (builtins.filterMap
        (Registration.entry BuiltinFunctionRegistry.createDefault)).map (fun w => w.2.function) =
          [.errorMsg, .fatalErrorMsg] := by decide
    have hmem := List.mem_map_of_mem (f := fun w => w.2.function) h
    rw [hbuiltins, hentry] at hmem
    simp at hmem
  · obtain ⟨load, hload, he⟩ := List.mem_flatMap.mp h
    obtain ⟨f, hdeclares, _⟩ := declares_of_mem_entries he
    rw [hentry] at hdeclares
    cases hdeclares with
    | autotuner hcomplete hdecl hf => exact ⟨load, hload, hcomplete, _, hdecl, by rw [hf]⟩

section Registry

variable {ctx : Context S} {w : World S} {name : String} (hname : IsIdentifier name)
include hname

/-- The call finds an autotuner. -/
theorem agree_of_autotuner {qname : String}
    (hkeys : ∀ (q : String) (decl : AutotunerDecl), ctx.loadedAutotuners[q]? = some decl →
      q = qualifiedName decl.moduleName decl.name)
    (hlookup : ctx.functions.lookup name = some (.autotuner qname))
    (hloaded : ctx.loadedAutotuners[qname]?.isSome) :
    Agree ctx w name ↔ Leads (fun q => ctx.loadedAutotuners[q]?.isSome) name qname := by
  obtain ⟨own, hown⟩ := Option.isSome_iff_exists.mp hloaded
  constructor
  · intro h
    have hexecutes := (executes_iff (w := w) hname).mpr ⟨qname, hlookup, hown⟩
    obtain ⟨q, hleads, hq⟩ := findAutotuner_eq_some.mp ((h own).mpr hexecutes)
    rw [hkeys qname own hown, ← hkeys q own hq]
    exact hleads
  · intro hleads decl
    rw [executes_iff hname]
    constructor
    · intro h
      obtain ⟨q, hq, hdecl⟩ := findAutotuner_eq_some.mp h
      exact ⟨qname, hlookup, hleads.unique hq ▸ hdecl⟩
    · rintro ⟨q, hq, hdecl⟩
      cases hlookup.symm.trans hq
      exact findAutotuner_eq_some.mpr ⟨qname, hleads, hdecl⟩

/-- The call finds something else, or nothing. -/
theorem agree_of_other (hlookup : ∀ qname, ctx.functions.lookup name ≠ some (.autotuner qname)) :
    Agree ctx w name ↔ ∀ (qname : String), ctx.loadedAutotuners[qname]?.isSome →
      qname ≠ name ∧ stripModulePrefix qname ≠ name := by
  have hnever : ∀ decl, ¬Executes ctx w name decl := fun decl h => by
    obtain ⟨qname, hq, _⟩ := (executes_iff hname).mp h
    exact hlookup qname hq
  constructor
  · intro h qname hloaded
    by_contra hnamed
    rw [not_and_or, not_not, not_not] at hnamed
    obtain ⟨decl, hdecl⟩ := exists_findAutotuner hloaded hnamed
    exact hnever decl ((h decl).mp hdecl)
  · intro h decl
    refine iff_of_false (fun hdecl => ?_) (hnever decl)
    obtain ⟨q, ⟨hloaded, hnamed⟩, _⟩ := findAutotuner_eq_some.mp hdecl
    rcases hnamed with rfl | ⟨_, hstrip, _⟩
    · exact (h q hloaded).1 rfl
    · exact (h q hloaded).2 hstrip

end Registry

/-- The two agree on a name exactly when the last registration leads. -/
theorem agree_iff (loads : List Load) {name : String} (hname : IsIdentifier name)
    (host : Host S) (sources : String → List String) (w : World S) :
    Agree ((create.loadAll loads).context host sources) w name ↔ LastLeads loads name := by
  have hlookup := lookup_loadAll loads name
  have hloaded : Loaded loads =
      fun q : String => (create.loadAll loads).loadedAutotuners[q]?.isSome = true :=
    funext fun q => propext (loaded_iff loads q)
  unfold LastLeads
  rw [hloaded]
  cases hlast : (lastWrite name (registered loads)).map Registered.function with
  | none =>
    rw [hlast] at hlookup
    exact agree_of_other hname fun qname h => by cases hlookup.symm.trans h
  | some function =>
    rw [hlast] at hlookup
    obtain ⟨entry, hentry, hfunction⟩ := Option.map_eq_some_iff.mp hlast
    cases function with
    | autotuner qname =>
      have hown := loaded_of_registered (mem_of_lastWrite hentry) hfunction
      exact agree_of_autotuner hname (fun q decl => qualifiedName_of_loaded) hlookup
        ((loaded_iff loads qname).mp hown)
    | _ => exact agree_of_other hname fun qname h => by cases hlookup.symm.trans h

/-! ## Two modules with one name -/

/-- A module with an autotuner `tune` that ends at once. -/
def tuner (moduleName : String) : Load where
  program := {
    moduleName := moduleName
    autotuners := [{
      name := "tune"
      inputParams := []
      outputParams := []
      autotunerVariables := []
      entryState := "only"
      entryParameters := []
      states := [{ name := "only", body := [.terminal {}] }] }] }
  linker := fun _ => none

/-- In this order the last module is also the first by name. -/
theorem agree_tuner :
    Agree ((create.loadAll [tuner "B", tuner "A"]).context Host.unlinked fun _ => [])
      { store := () } "tune" := by
  refine (agree_iff [tuner "B", tuner "A"] (by decide) Host.unlinked (fun _ => [])
    { store := () }).mpr ?_
  have hlast : (lastWrite "tune" (registered [tuner "B", tuner "A"])).map Registered.function =
      some (.autotuner "A::tune") := by decide +kernel
  unfold LastLeads
  rw [hlast]
  have hloaded : ∀ qname, Loaded [tuner "B", tuner "A"] qname →
      qname = "B::tune" ∨ qname = "A::tune" := by
    rintro qname ⟨load, hload, _, decl, hdecl, rfl⟩
    simp only [List.mem_cons, List.not_mem_nil, or_false] at hload
    rcases hload with rfl | rfl <;> cases List.mem_singleton.mp hdecl
    · exact .inl rfl
    · exact .inr rfl
  refine ⟨⟨tuner "A", .tail _ (.head _), rfl, _, .head _, rfl⟩, .inr ⟨fun h => ?_, by decide, ?_⟩⟩
  · exact absurd (hloaded "tune" h) (by decide)
  · intro other hother _
    rcases hloaded other hother with rfl | rfl
    · decide
    · exact String.le_refl _

/-- In the other order the host runs `A::tune` and a call `B::tune`. -/
theorem not_agree_tuner :
    ¬∀ (loads : List Load) (name : String) (host : Host Unit) (sources : String → List String)
      (w : World Unit), IsIdentifier name →
      Agree ((create.loadAll loads).context host sources) w name := by
  intro h
  have hagree := h [tuner "A", tuner "B"] "tune" Host.unlinked (fun _ => []) { store := () }
    (by decide)
  have hhost : (getAutotuner ((create.loadAll [tuner "A", tuner "B"]).context
      (Host.unlinked : Host Unit) fun _ => []) "tune").map (·.moduleName) = some "A" := by
    decide +kernel
  have hcall : (create.loadAll [tuner "A", tuner "B"]).functionRegistry.lookup "tune" =
      some (.autotuner "B::tune") := by decide +kernel
  have htable : ((create.loadAll [tuner "A", tuner "B"]).loadedAutotuners["B::tune"]?).map
      (·.moduleName) = some "B" := by decide +kernel
  obtain ⟨decl, hdecl, hmodule⟩ := Option.map_eq_some_iff.mp hhost
  obtain ⟨qname, hlookup, hown⟩ := (executes_iff (by decide)).mp ((hagree decl).mp hdecl)
  cases hcall.symm.trans hlookup
  have hother : (create.loadAll [tuner "A", tuner "B"]).loadedAutotuners["B::tune"]? = some decl :=
    hown
  rw [hother, Option.map_some, hmodule] at htable
  exact absurd htable (by decide)

end FalconLib.Dsl.BareNames
