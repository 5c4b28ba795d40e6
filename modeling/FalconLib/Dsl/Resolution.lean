import FalconLib.Dsl.LoadHistory

/-!
# Which callable a qualified call executes

A load registers its autotuners and its routines with a body under two names, its
library routines under the bare one only. A call `M::f` finds what is registered under
`M::f`, or else under `f`, whichever module that came from.
-/

namespace FalconLib.Dsl.Resolution

open FalconLib.Base
open FalconLib.Base.StdMap (lastWrite exists_lastWrite mem_of_lastWrite)
open AutotunerEngine LoadHistory

/-! ## What a load declares -/

/-- The callables that a load makes available for the symbol `f`. -/
inductive Declares (load : Load) (f : String) : ExternalFunction → Prop
  | autotuner {decl : AutotunerDecl} (hc : complete load) (hd : decl ∈ load.autotuners)
      (hn : decl.name = f) : Declares load f (.autotuner (qualifiedName load.moduleName f))
  | routine {decl : RoutineDecl} (hc : complete load) (hd : decl ∈ load.routines)
      (hn : decl.name = f) (hb : decl.body.isEmpty = false) :
      Declares load f (.inlineRoutine (qualifiedName load.moduleName f))
  | foreign {library : SharedLibrary} {decl : RoutineDecl} (hl : library ∈ libraries load)
      (hd : decl ∈ load.program.routines) (hn : decl.name = f) (ho : offers library decl) :
      Declares load f (.foreign ⟨library.path, f⟩)

def DeclaredIn (loads : List Load) (M f : String) (function : ExternalFunction) : Prop :=
  ∃ load ∈ loads, load.moduleName = M ∧ Declares load f function

/-- The lexer makes the names of declarations. -/
structure WellNamed (load : Load) : Prop where
  autotuners : ∀ decl ∈ load.program.autotuners, IsIdentifier decl.name
  routines : ∀ decl ∈ load.program.routines, IsIdentifier decl.name

theorem mem_autotuners {load : Load} {decl : AutotunerDecl} (h : decl ∈ load.autotuners) :
    decl.moduleName = load.moduleName ∧
      ∃ source ∈ load.program.autotuners, decl.name = source.name := by
  obtain ⟨source, hs, rfl⟩ := List.mem_map.mp h
  exact ⟨rfl, source, hs, rfl⟩

theorem mem_routines {load : Load} {decl : RoutineDecl} (h : decl ∈ load.routines) :
    decl.moduleName = load.moduleName ∧
      ∃ source ∈ load.program.routines, decl.name = source.name := by
  obtain ⟨source, hs, rfl⟩ := List.mem_map.mp h
  exact ⟨rfl, source, hs, rfl⟩

theorem WellNamed.autotuner {load : Load} (h : WellNamed load) {decl : AutotunerDecl}
    (hd : decl ∈ load.autotuners) : IsIdentifier decl.name := by
  obtain ⟨_, source, hs, hn⟩ := mem_autotuners hd
  rw [hn]
  exact h.autotuners source hs

theorem WellNamed.routine {load : Load} (h : WellNamed load) {decl : RoutineDecl}
    (hd : decl ∈ load.routines) : IsIdentifier decl.name := by
  obtain ⟨_, source, hs, hn⟩ := mem_routines hd
  rw [hn]
  exact h.routines source hs

theorem WellNamed.declares {load : Load} (h : WellNamed load) {f : String}
    {function : ExternalFunction} (hd : Declares load f function) : IsIdentifier f := by
  cases hd with
  | autotuner _ hd hn => exact hn ▸ h.autotuner hd
  | routine _ hd hn _ => exact hn ▸ h.routine hd
  | foreign _ hd hn _ => exact hn ▸ h.routines _ hd

/-! ## The registrations of a load -/

def entryOf (w : Write) : Option (String × Registered ExternalFunction) :=
  (registrationOf w).bind (Registration.entry BuiltinFunctionRegistry.createDefault)

def entries (load : Load) : List (String × Registered ExternalFunction) :=
  (writes load).filterMap entryOf

/-- Bound to a symbol of a library. -/
def IsForeign : ExternalFunction → Prop
  | .foreign _ => True
  | _ => False

/-- A foreign callable is registered under its bare name, any other under both names. -/
def NamedBy (load : Load) (f : String) (function : ExternalFunction) (n : String) : Prop :=
  n = f ∨ ¬ IsForeign function ∧ n ∈ names load.moduleName f

/-- What a load registers under a name it declares. -/
theorem declares_of_mem_entries {load : Load} {n : String}
    {entry : Registered ExternalFunction} (h : (n, entry) ∈ entries load) :
    ∃ f, Declares load f entry.function ∧ NamedBy load f entry.function n := by
  obtain ⟨w, hw, he⟩ := List.mem_filterMap.mp h
  cases writes_of_mem hw with
  | struct hd hn => cases he
  | ffiMethod hl hd hr hb hs => cases he
  | @foreign library decl hl hd ho =>
    cases he
    exact ⟨decl.name, .foreign hl hd rfl ho, .inl rfl⟩
  | autotuner hc hd => cases he
  | @autotunerFunction decl name hc hd hn =>
    obtain ⟨hm, _⟩ := mem_autotuners hd
    cases he
    rw [hm] at hn ⊢
    exact ⟨decl.name, .autotuner hc hd rfl, .inr ⟨id, hn⟩⟩
  | @inlineRoutine decl name hc hd hb hn =>
    obtain ⟨hm, _⟩ := mem_routines hd
    cases he
    unfold inlineInfo
    rw [hm] at hn ⊢
    exact ⟨decl.name, .routine hc hd rfl hb, .inr ⟨id, hn⟩⟩
  | routine hc hd => cases he

/-- What a load declares it registers. -/
theorem mem_entries_of_declares {load : Load} {f n : String} {function : ExternalFunction}
    (h : Declares load f function) (hn : NamedBy load f function n) :
    ∃ entry, (n, entry) ∈ entries load ∧ entry.function = function := by
  have hnames : ¬ IsForeign function → n ∈ names load.moduleName f := fun hf =>
    hn.elim (fun he => mem_names.mpr (.inl he)) fun hq => hq.2
  cases h with
  | @autotuner decl hc hd hf =>
    obtain ⟨hm, _⟩ := mem_autotuners hd
    subst hf
    have hname := hnames id
    rw [← hm] at hname ⊢
    exact ⟨_, List.mem_filterMap.mpr ⟨_, mem_of_writes (.autotunerFunction hc hd hname), rfl⟩, rfl⟩
  | @routine decl hc hd hf hb =>
    obtain ⟨hm, _⟩ := mem_routines hd
    subst hf
    have hname := hnames id
    rw [← hm] at hname ⊢
    exact ⟨_, List.mem_filterMap.mpr ⟨_, mem_of_writes (.inlineRoutine hc hd hb hname), rfl⟩, rfl⟩
  | @foreign library decl hl hd hf ho =>
    subst hf
    obtain rfl : n = decl.name := hn.resolve_right fun hq => hq.1 trivial
    exact ⟨_, List.mem_filterMap.mpr ⟨_, mem_of_writes (.foreign hl hd ho), rfl⟩, rfl⟩

/-! ## The engine after any loads -/

/-- Everything registered as a function, the builtins first. -/
def registered (loads : List Load) : List (String × Registered ExternalFunction) :=
  builtins.filterMap (Registration.entry BuiltinFunctionRegistry.createDefault) ++
    loads.flatMap entries

theorem filterMap_entryOf (loads : List Load) :
    ((loads.flatMap writes).filterMap registrationOf).filterMap
      (Registration.entry BuiltinFunctionRegistry.createDefault) = loads.flatMap entries := by
  rw [List.filterMap_filterMap, List.filterMap_flatMap]
  rfl

theorem lookup_loadAll (loads : List Load) (name : String) :
    (create.loadAll loads).functionRegistry.lookup name =
      (lastWrite name (registered loads)).map Registered.function := by
  have hr := (FunctionRegistry.records builtins).registerAll
    ((loads.flatMap writes).filterMap registrationOf)
  rw [filterMap_entryOf] at hr
  rw [loadAll_eq, functionRegistry_applyAll]
  exact hr.functions name

theorem mem_registered {loads : List Load} {n : String} {entry : Registered ExternalFunction}
    (h : (n, entry) ∈ registered loads) :
    n ∈ ["errorMsg", "fatalErrorMsg"] ∨
      ∃ load ∈ loads, ∃ f, Declares load f entry.function ∧ NamedBy load f entry.function n := by
  rcases List.mem_append.mp h with h | h
  · left
    have hb : n ∈ (builtins.filterMap
        (Registration.entry BuiltinFunctionRegistry.createDefault)).map Prod.fst :=
      List.mem_map_of_mem h
    have hnames : (builtins.filterMap
        (Registration.entry BuiltinFunctionRegistry.createDefault)).map Prod.fst =
          ["errorMsg", "fatalErrorMsg"] := by decide
    rwa [hnames] at hb
  · right
    obtain ⟨load, hload, he⟩ := List.mem_flatMap.mp h
    exact ⟨load, hload, declares_of_mem_entries he⟩

theorem mem_registered_of_declares {loads : List Load} {load : Load} (hload : load ∈ loads)
    {f n : String} {function : ExternalFunction} (h : Declares load f function)
    (hn : NamedBy load f function n) :
    ∃ entry, (n, entry) ∈ registered loads ∧ entry.function = function := by
  obtain ⟨entry, he, hf⟩ := mem_entries_of_declares h hn
  exact ⟨entry, List.mem_append_right _ (List.mem_flatMap.mpr ⟨load, hload, he⟩), hf⟩

/-- The autotuners of the loads by qualified name, in order. -/
def autotunerEntries (loads : List Load) : List (String × AutotunerDecl) :=
  (loads.flatMap writes).filterMap autotunerOf

def routineEntries (loads : List Load) : List (String × RoutineDecl) :=
  (loads.flatMap writes).filterMap routineOf

theorem mem_autotunerEntries {loads : List Load} {qname : String} {decl : AutotunerDecl} :
    (qname, decl) ∈ autotunerEntries loads ↔
      ∃ load ∈ loads, complete load ∧ decl ∈ load.autotuners ∧
        qname = qualifiedName load.moduleName decl.name := by
  constructor
  · intro h
    obtain ⟨w, hw, he⟩ := List.mem_filterMap.mp h
    obtain ⟨load, hload, hw⟩ := List.mem_flatMap.mp hw
    cases writes_of_mem hw with
    | autotuner hc hd =>
      cases he
      exact ⟨load, hload, hc, hd, congrArg (qualifiedName · _) (mem_autotuners hd).1⟩
    | _ => cases he
  · rintro ⟨load, hload, hc, hd, rfl⟩
    rw [← (mem_autotuners hd).1]
    exact List.mem_filterMap.mpr ⟨.autotuner _ decl,
      List.mem_flatMap.mpr ⟨load, hload, mem_of_writes (.autotuner hc hd)⟩, rfl⟩

theorem mem_routineEntries {loads : List Load} {qname : String} {decl : RoutineDecl} :
    (qname, decl) ∈ routineEntries loads ↔
      ∃ load ∈ loads, complete load ∧ decl ∈ load.routines ∧
        qname = qualifiedName load.moduleName decl.name := by
  constructor
  · intro h
    obtain ⟨w, hw, he⟩ := List.mem_filterMap.mp h
    obtain ⟨load, hload, hw⟩ := List.mem_flatMap.mp hw
    cases writes_of_mem hw with
    | routine hc hd =>
      cases he
      exact ⟨load, hload, hc, hd, congrArg (qualifiedName · _) (mem_routines hd).1⟩
    | _ => cases he
  · rintro ⟨load, hload, hc, hd, rfl⟩
    rw [← (mem_routines hd).1]
    exact List.mem_filterMap.mpr ⟨.routine _ decl,
      List.mem_flatMap.mpr ⟨load, hload, mem_of_writes (.routine hc hd)⟩, rfl⟩

theorem loadedAutotuners_loadAll (loads : List Load) (qname : String) :
    (create.loadAll loads).loadedAutotuners[qname]? = lastWrite qname (autotunerEntries loads) := by
  rw [loadAll_eq, loadedAutotuners_applyAll, StdMap.getElem?_assignAll]
  have hnone : create.loadedAutotuners[qname]? = none := Std.ExtTreeMap.getElem?_empty
  rw [hnone, Option.or_none]
  rfl

theorem routineDeclarations_loadAll (loads : List Load) (qname : String) :
    (create.loadAll loads).routineDeclarations[qname]? = lastWrite qname (routineEntries loads) := by
  rw [loadAll_eq, routineDeclarations_applyAll, StdMap.getElem?_assignAll]
  have hnone : create.routineDeclarations[qname]? = none := Std.ExtTreeMap.getElem?_empty
  rw [hnone, Option.or_none]
  rfl

/-! ## Qualified calls -/

variable {S : Type}

/-- The declaration that a callable runs is one of the module's, with the name `f`. -/
def RunsDeclaration (ctx : Context S) (loads : List Load) (M f : String) :
    ExternalFunction → Prop
  | .autotuner qname => ∃ decl, ctx.loadedAutotuners[qname]? = some decl ∧ decl.name = f ∧
      ∃ load ∈ loads, load.moduleName = M ∧ decl ∈ load.autotuners
  | .inlineRoutine qname => ∃ decl, ctx.routineDeclarations[qname]? = some decl ∧
      decl.name = f ∧ ∃ load ∈ loads, load.moduleName = M ∧ decl ∈ load.routines
  | .foreign symbol => symbol.symbol = f
  | .errorMsg | .fatalErrorMsg => False

section Qualified

variable {loads : List Load} (hloads : ∀ load ∈ loads, WellNamed load) {M f : String}
  (hne : M ≠ "") (hf : IsIdentifier f)
include hf

theorem eq_of_mem_names {m g : String} (hg : IsIdentifier g)
    (h : M ++ "::" ++ f ∈ names m g) : m = M ∧ g = f := by
  rcases mem_names.mp h with h | ⟨_, h⟩
  · exact absurd h.symm (hg.ne_append M f)
  · obtain ⟨hm, hn⟩ := append_colons_inj hf hg h
    exact ⟨hm.symm, hn.symm⟩

theorem eq_of_qualifiedName {m g : String} (hg : IsIdentifier g)
    (h : qualifiedName m g = M ++ "::" ++ f) : m = M ∧ g = f := by
  refine eq_of_mem_names hf hg ?_
  rw [← h]
  by_cases hm : m = ""
  · exact mem_names.mpr (.inl (by unfold qualifiedName; rw [hm]; rfl))
  · exact mem_names.mpr (.inr ⟨hm, qualifiedName_of_ne hm g⟩)

include hloads

/-- Only the module itself registers under `M::f`, and nothing foreign. -/
theorem declaredIn_of_qualified {entry : Registered ExternalFunction}
    (h : (M ++ "::" ++ f, entry) ∈ registered loads) :
    DeclaredIn loads M f entry.function ∧ ¬ IsForeign entry.function := by
  rcases mem_registered h with hb | ⟨load, hload, g, hd, hn⟩
  · have hbuiltin : ∀ n ∈ ["errorMsg", "fatalErrorMsg"], IsIdentifier n := by decide
    exact absurd rfl ((hbuiltin _ hb).ne_append M f)
  · have hg := (hloads load hload).declares hd
    rcases hn with hn | ⟨hforeign, hn⟩
    · exact absurd hn.symm (hg.ne_append M f)
    · obtain ⟨hm, rfl⟩ := eq_of_mem_names hf hg hn
      exact ⟨⟨load, hload, hm, hd⟩, hforeign⟩

include hne

/-- A callable that the module declares runs a declaration of the module. -/
theorem runsDeclaration_of_declaredIn {function : ExternalFunction}
    (h : DeclaredIn loads M f function) (host : Host S) (sources : String → List String) :
    RunsDeclaration ((create.loadAll loads).context host sources) loads M f function := by
  obtain ⟨load, hload, rfl, hd⟩ := h
  cases hd with
  | @autotuner decl hc hd hn =>
    have hmem := mem_autotunerEntries.mpr ⟨load, hload, hc, hd, rfl⟩
    rw [hn] at hmem
    obtain ⟨u, hu⟩ := exists_lastWrite hmem
    refine ⟨u, (loadedAutotuners_loadAll loads _).trans hu, ?_⟩
    obtain ⟨load', hload', _, hd', hq⟩ := mem_autotunerEntries.mp (mem_of_lastWrite hu)
    rw [qualifiedName_of_ne hne] at hq
    obtain ⟨hm, hg⟩ := eq_of_qualifiedName hf ((hloads load' hload').autotuner hd') hq.symm
    exact ⟨hg, load', hload', hm, hd'⟩
  | @routine decl hc hd hn hb =>
    have hmem := mem_routineEntries.mpr ⟨load, hload, hc, hd, rfl⟩
    rw [hn] at hmem
    obtain ⟨u, hu⟩ := exists_lastWrite hmem
    refine ⟨u, (routineDeclarations_loadAll loads _).trans hu, ?_⟩
    obtain ⟨load', hload', _, hd', hq⟩ := mem_routineEntries.mp (mem_of_lastWrite hu)
    rw [qualifiedName_of_ne hne] at hq
    obtain ⟨hm, hg⟩ := eq_of_qualifiedName hf ((hloads load' hload').routine hd') hq.symm
    exact ⟨hg, load', hload', hm, hd'⟩
  | foreign _ _ _ _ => rfl

end Qualified

/-- The call `M::f` executes a callable of the module `M`; or `M` declares none and the
call raises an error. -/
def ResolvesWithin (ctx : Context S) (loads : List Load)
    (M f : String) (w : World S) : Prop :=
  (∃ spelling function,
      (ExprEvaluator.resolveFunction ctx (M ++ "::" ++ f) w).outcome =
        .ok (spelling, function) w ∧
      DeclaredIn loads M f function ∧ RunsDeclaration ctx loads M f function) ∨
  ((∀ function, ¬ DeclaredIn loads M f function) ∧
    (ExprEvaluator.resolveFunction ctx (M ++ "::" ++ f) w).outcome =
      .throw (.evaluation ("Unknown function: " ++ (M ++ "::" ++ f))) w ∧
    ∀ h args, (ExprEvaluator.evalCall ctx h (M ++ "::" ++ f) args w).outcome =
      .throw (.evaluation ("Unknown function: " ++ (M ++ "::" ++ f))) w)

/-- The callable registered last under the bare name is one that the module declares. -/
def LastIsOwn (loads : List Load) (M f : String) : Prop :=
  ∃ entry, lastWrite f (registered loads) = some entry ∧ DeclaredIn loads M f entry.function

/-- The module declares `f` as an autotuner or as a routine with a body; or no module,
and no builtin, has registered anything under `f`; or the last that did is the module. -/
def Unambiguous (loads : List Load) (M f : String) : Prop :=
  (∃ function, DeclaredIn loads M f function ∧ ¬ IsForeign function) ∨
  (∀ entry, (f, entry) ∉ registered loads) ∨ LastIsOwn loads M f

theorem resolveFunction_of_some (ctx : Context S) {name : String} {function : ExternalFunction}
    (h : ctx.functions.lookup name = some function) (w : World S) :
    (ExprEvaluator.resolveFunction ctx name w).outcome = .ok (name, function) w := by
  unfold ExprEvaluator.resolveFunction
  rw [Comp.outcome_ask_bind, h]
  rfl

theorem resolveFunction_of_none (ctx : Context S) {name : String}
    (h : ctx.functions.lookup name = none) (hq : isQualified name = false) (w : World S) :
    (ExprEvaluator.resolveFunction ctx name w).outcome =
      .throw (.evaluation ("Unknown function: " ++ name)) w := by
  unfold ExprEvaluator.resolveFunction
  rw [Comp.outcome_ask_bind, h]
  dsimp only
  rw [hq, if_neg Bool.false_ne_true]
  rfl

theorem resolveFunction_bare (ctx : Context S) {M f : String} (hM : IsIdentifier M)
    (hq : ctx.functions.lookup (M ++ "::" ++ f) = none) (w : World S) :
    (ExprEvaluator.resolveFunction ctx (M ++ "::" ++ f) w).outcome =
      match ctx.functions.lookup f with
      | some function => .ok (f, function) w
      | none => .throw (.evaluation ("Unknown function: " ++ (M ++ "::" ++ f))) w := by
  unfold ExprEvaluator.resolveFunction
  rw [Comp.outcome_ask_bind, hq]
  dsimp only
  rw [isQualified_append hM, if_pos rfl, stripModulePrefix_append hM, Comp.outcome_ask_bind]
  cases ctx.functions.lookup f <;> rfl

theorem evalCall_of_throw {ctx : Context S} {name : String} {e : Exception} {w : World S}
    (h : (ExprEvaluator.resolveFunction ctx name w).outcome = .throw e w) (handlers : Handlers S)
    (args : List (Option String × M S RuntimeValue)) :
    (ExprEvaluator.evalCall ctx handlers name args w).outcome = .throw e w :=
  Comp.bind_of_throw h

theorem lookup_eq_none {loads : List Load} {name : String} :
    (create.loadAll loads).functionRegistry.lookup name = none ↔
      ∀ entry, (name, entry) ∉ registered loads := by
  rw [lookup_loadAll, Option.map_eq_none_iff]
  constructor
  · intro h entry he
    obtain ⟨u, hu⟩ := exists_lastWrite he
    rw [h] at hu
    cases hu
  · intro h
    cases hl : lastWrite name (registered loads) with
    | none => rfl
    | some entry => exact absurd (mem_of_lastWrite hl) (h entry)

theorem lookup_eq_some {loads : List Load} {name : String} {entry : Registered ExternalFunction}
    (h : (name, entry) ∈ registered loads) :
    ∃ last, (name, last) ∈ registered loads ∧ lastWrite name (registered loads) = some last ∧
      (create.loadAll loads).functionRegistry.lookup name = some last.function := by
  obtain ⟨last, hl⟩ := exists_lastWrite h
  refine ⟨last, mem_of_lastWrite hl, hl, ?_⟩
  rw [lookup_loadAll, hl]
  rfl

/-- A qualified call stays within the module exactly when its name is unambiguous. -/
theorem resolvesWithin_iff_unambiguous (loads : List Load)
    (hloads : ∀ load ∈ loads, WellNamed load) {M f : String} (hM : IsIdentifier M)
    (hne : M ≠ "") (hf : IsIdentifier f) (host : Host S) (sources : String → List String)
    (w : World S) :
    ResolvesWithin ((create.loadAll loads).context host sources) loads M f w ↔
      Unambiguous loads M f := by
  have hruns : ∀ {function}, DeclaredIn loads M f function → RunsDeclaration
      ((create.loadAll loads).context host sources) loads M f function := fun hd =>
    runsDeclaration_of_declaredIn hloads hne hf hd host sources
  by_cases hq : ∃ entry, (M ++ "::" ++ f, entry) ∈ registered loads
  · -- The qualified name is registered, and only `M` can have done so.
    obtain ⟨entry, he⟩ := hq
    obtain ⟨last, hlast, _, hlookup⟩ := lookup_eq_some he
    obtain ⟨hdeclared, hforeign⟩ := declaredIn_of_qualified hloads hf hlast
    exact iff_of_true
      (.inl ⟨_, _, resolveFunction_of_some _ hlookup w, hdeclared, hruns hdeclared⟩)
      (.inl ⟨_, hdeclared, hforeign⟩)
  · have hnot : ∀ function, DeclaredIn loads M f function → IsForeign function := by
      rintro function ⟨load, hload, rfl, hd⟩
      by_contra hforeign
      obtain ⟨entry, he, _⟩ := mem_registered_of_declares hload hd
        (.inr ⟨hforeign, mem_names.mpr (.inr ⟨hne, rfl⟩)⟩)
      exact hq ⟨entry, he⟩
    have hnone := lookup_eq_none.mpr fun entry he => hq ⟨entry, he⟩
    have hresolve := resolveFunction_bare
      ((create.loadAll loads).context host sources) hM hnone w
    change _ = match (create.loadAll loads).functionRegistry.lookup f with
      | some function => _
      | none => _ at hresolve
    by_cases hb : ∃ entry, (f, entry) ∈ registered loads
    · obtain ⟨entry, he⟩ := hb
      obtain ⟨last, _, hl, hlookup⟩ := lookup_eq_some he
      rw [hlookup] at hresolve
      constructor
      · rintro (⟨spelling, function, hr, hd, _⟩ | ⟨_, hr, _⟩)
        · cases hresolve.symm.trans hr
          exact .inr (.inr ⟨last, hl, hd⟩)
        · cases hresolve.symm.trans hr
      · rintro (⟨function, hd, hforeign⟩ | hnever | ⟨entry', hl', hd⟩)
        · exact absurd (hnot function hd) hforeign
        · exact absurd he (hnever entry)
        · cases hl.symm.trans hl'
          exact .inl ⟨f, last.function, hresolve, hd, hruns hd⟩
    · have hbare := lookup_eq_none.mpr fun entry he => hb ⟨entry, he⟩
      rw [hbare] at hresolve
      refine iff_of_true (.inr ⟨fun function hd => ?_, hresolve,
        evalCall_of_throw hresolve⟩) (.inr (.inl fun entry he => hb ⟨entry, he⟩))
      obtain ⟨load, hload, _, hd⟩ := hd
      obtain ⟨entry, he, _⟩ := mem_registered_of_declares hload hd (.inl rfl)
      exact hb ⟨entry, he⟩

/-- Module `A` binds `measure` to a library. -/
def driver : Load where
  program := {
    moduleName := "A"
    routines := [{
      name := "measure"
      inputParams := []
      outputParams := [{ type := .ofParamType .int, name := "r" }] }]
    ffImports := [{ wrapperFile := "driver.cpp" }] }
  linker := fun _ => some ⟨"driver.so", ["measure"]⟩

/-- Module `B` has a routine `measure` of its own. -/
def simulator : Load where
  program := {
    moduleName := "B"
    routines := [{
      name := "measure"
      inputParams := []
      outputParams := [{ type := .ofParamType .int, name := "r" }]
      body := [.assign {} [{ variableName := "r" }] (.literal {} (.int 2))] }] }
  linker := fun _ => none

theorem wellNamed_driver_simulator : ∀ load ∈ [driver, simulator], WellNamed load := by
  intro load hload
  simp only [List.mem_cons, List.not_mem_nil, or_false] at hload
  rcases hload with rfl | rfl
  · exact ⟨fun _ h => absurd h List.not_mem_nil, List.forall_mem_singleton.mpr (by decide)⟩
  · exact ⟨fun _ h => absurd h List.not_mem_nil, List.forall_mem_singleton.mpr (by decide)⟩

theorem resolvesWithin_simulator :
    ResolvesWithin ((create.loadAll [driver, simulator]).context Host.unlinked fun _ => [])
      [driver, simulator] "B" "measure" { store := () } := by
  refine (resolvesWithin_iff_unambiguous [driver, simulator] wellNamed_driver_simulator
    (by decide) (by decide) (by decide) Host.unlinked (fun _ => []) { store := () }).mpr (.inl ?_)
  have hd : Declares simulator "measure"
      (.inlineRoutine (qualifiedName simulator.moduleName "measure")) :=
    .routine rfl List.mem_cons_self rfl rfl
  exact ⟨_, ⟨simulator, List.mem_cons_of_mem _ List.mem_cons_self, rfl, hd⟩, id⟩

/-- An inline routine is declared by the module in its name only. -/
theorem Declares.inlineRoutine_eq {load : Load} {f qname : String}
    (h : Declares load f (.inlineRoutine qname)) : qname = qualifiedName load.moduleName f := by
  cases h
  rfl

theorem not_resolvesWithin_driver :
    ¬ ∀ (loads : List Load) (M f : String) (host : Host Unit) (sources : String → List String)
        (w : World Unit), (∀ load ∈ loads, WellNamed load) → IsIdentifier M → M ≠ "" →
        IsIdentifier f →
        ResolvesWithin ((create.loadAll loads).context host sources) loads M f w := by
  intro h
  have hcall := h [driver, simulator] "A" "measure" Host.unlinked (fun _ => []) { store := () }
    wellNamed_driver_simulator (by decide) (by decide) (by decide)
  have hvalue : (ExprEvaluator.resolveFunction
      ((create.loadAll [driver, simulator]).context Host.unlinked fun _ => [])
      ("A" ++ "::" ++ "measure") { store := () }).outcome.value? =
        some ("measure", .inlineRoutine "B::measure") := by decide +kernel
  rcases hcall with ⟨spelling, function, hr, ⟨load, _, hm, hd⟩, _⟩ | ⟨_, hr, _⟩
  · rw [hr] at hvalue
    cases hvalue
    have hq := hd.inlineRoutine_eq
    rw [hm] at hq
    exact absurd hq (by decide)
  · rw [hr] at hvalue
    cases hvalue

end FalconLib.Dsl.Resolution
