import FalconLib.Dsl.ImportGraph
import FalconLib.Dsl.Isolation

/-!
# What a failed load leaves behind

A load that fails at an `ffimport` has registered the structs of its file and what the
imports before the failing one bind. Nothing takes these registrations back, and the
structs point into a program that the failure destroys.
-/

namespace FalconLib.Dsl.LoadAtomicity

open FalconLib.Base
open FalconLib.Base.DepthFirst
open FalconLib.PackageManager (stem)
open AutotunerEngine LoadHistory Isolation ImportGraph Loader

/-! ## What the registries answer -/

/-- The answer to a lookup, and the info of a routine. -/
inductive Observation where
  | dangling
  | answer (answer : Answer) (info : Option (RoutineInfo ExternalFunction))

def infoOf (engine : AutotunerEngine) : Query → Option (RoutineInfo ExternalFunction)
  | .function name => engine.functionRegistry.getRoutineInfo name
  | _ => none

/-- A lookup of a struct may come to a pointer into a program that is gone. -/
def observe (s : Loader) (q : Query) : Observation :=
  match q with
  | .structType name =>
    if name ∈ s.danglingStructs then .dangling else .answer (answer s.engine q) none
  | q => .answer (answer s.engine q) (infoOf s.engine q)

/-- The engine with one more load that succeeded. -/
def registered (s : Loader) (entry : String × Load) : Loader :=
  { s with
    engine := (s.engine.loadProgram entry.2).1
    danglingStructs := s.danglingStructs \ structNames entry.2 }

/-- When the call fails, every lookup is answered as before it, but for the files that
were loaded. -/
def Atomic (src : Sources) (s : Loader) (falFilePath : String) : Prop :=
  ∀ s', Returns src s falFilePath s' false →
    ∀ loads, s'.loadedPrograms = s.loadedPrograms ++ loads →
      ∀ q, observe s' q = observe (loads.foldl registered s) q

/-! ## Where a load fails -/

/-- What the parser makes of the file. -/
def parsed (src : Sources) (t : Loader) (path : String) (file : FalFile) : Option Load :=
  (Parser.parseFile t.tables t.importStructHints (sourceText path file)).1.program.map
    fun program => ⟨program, src.linker path⟩

/-- On its walk the call comes, in the state `t`, to the own part of a file that parses
but has an `ffimport` that fails. -/
def FailsAt (src : Sources) (s : Loader) (falFilePath : String) (t : Loader) (load : Load) :
    Prop :=
  ∃ before path after file, (walk src s falFilePath).steps = before ++ .leave path :: after ∧
    (loading src).run before s = (t, true) ∧ src.files[path]? = some file ∧
    parsed src t path file = some load ∧ complete load = false

/-- The last write to each name leaves what the engine answers there. -/
def Settled (engine : AutotunerEngine) (ws : List Write) : Prop :=
  ∀ before w after, ws = before ++ w :: after → (∀ w' ∈ after, w'.query ≠ w.query) →
    answer (w.apply engine) w.query = answer engine w.query ∧
      infoOf (w.apply engine) w.query = infoOf engine w.query

/-- What a load leaves behind when it fails is there already: its structs under names that
dangle anyway, and what its first libraries bind. -/
structure Covered (t : Loader) (load : Load) : Prop where
  structs : structNames load ⊆ t.danglingStructs
  libraries : Settled t.engine ((libraries load).flatMap (libraryWrites load.program))

/-! ## Writes of libraries -/

/-- A method or a routine of a library. -/
inductive Bound : Write → Prop
  | method (typeName methodName : String) (symbol : ForeignSymbol) :
      Bound (.ffiMethod typeName methodName symbol)
  | routine (info : RoutineInfo ExternalFunction) : Bound (.function (.routine info))

theorem bound_of_mem {program : Program} {library : SharedLibrary} {w : Write}
    (h : w ∈ libraryWrites program library) : Bound w := by
  rcases List.mem_append.mp h with h | h
  · obtain ⟨decl, _, h⟩ := List.mem_flatMap.mp h
    obtain ⟨routine, _, h⟩ := List.mem_flatMap.mp h
    unfold methodWrites at h
    dsimp only at h
    split at h
    · rw [List.mem_singleton.mp h]
      exact .method _ _ _
    · exact absurd h List.not_mem_nil
  · obtain ⟨routine, _, h⟩ := List.mem_flatMap.mp h
    unfold foreignWrites at h
    split at h
    · rw [List.mem_singleton.mp h]
      exact .routine _
    · exact absurd h List.not_mem_nil

/-- The answers of two engines to one lookup. -/
structure SameAt (e₁ e₂ : AutotunerEngine) (q : Query) : Prop where
  answers : answer e₁ q = answer e₂ q
  infos : infoOf e₁ q = infoOf e₂ q

theorem SameAt.trans {e₁ e₂ e₃ : AutotunerEngine} {q : Query} (h : SameAt e₁ e₂ q)
    (h' : SameAt e₂ e₃ q) : SameAt e₁ e₃ q :=
  ⟨h.answers.trans h'.answers, h.infos.trans h'.infos⟩

theorem SameAt.symm {e₁ e₂ : AutotunerEngine} {q : Query} (h : SameAt e₁ e₂ q) :
    SameAt e₂ e₁ q :=
  ⟨h.answers.symm, h.infos.symm⟩

theorem getRoutineInfo_register (registry : FunctionRegistry ExternalFunction)
    (info : RoutineInfo ExternalFunction) (name : String) :
    (registry.registerRoutine info).getRoutineInfo name =
      if info.name = name then (registry.getRoutineInfo name).or (some info)
      else registry.getRoutineInfo name :=
  StdMap.getElem?_emplace _ _ _ _

theorem sameAt_apply_of_ne (engine : AutotunerEngine) {w : Write} (hw : Bound w ∨ ∃ n d, w = .struct n d)
    {q : Query} (h : w.query ≠ q) : SameAt (w.apply engine) engine q := by
  refine ⟨answer_apply_of_ne engine h, ?_⟩
  rcases hw with hw | ⟨n, d, rfl⟩
  · cases hw with
    | method typeName methodName symbol => cases q <;> rfl
    | routine info =>
      cases q with
      | function name =>
        have hname : info.name ≠ name := fun he => h (congrArg Query.function he)
        exact (getRoutineInfo_register _ _ _).trans (if_neg hname)
      | _ => rfl
  · cases q <;> rfl

theorem sameAt_applyAll_of_ne (engine : AutotunerEngine) {ws : List Write} {q : Query}
    (hw : ∀ w ∈ ws, Bound w ∨ ∃ n d, w = .struct n d) (h : ∀ w ∈ ws, w.query ≠ q) :
    SameAt (applyAll engine ws) engine q := by
  induction ws generalizing engine with
  | nil => exact ⟨rfl, rfl⟩
  | cons w ws ih =>
    obtain ⟨hw, hws⟩ := List.forall_mem_cons.mp hw
    obtain ⟨hq, hqs⟩ := List.forall_mem_cons.mp h
    exact (ih (w.apply engine) hws hqs).trans (sameAt_apply_of_ne engine hw hq)

/-- A signature or an info that is there stays. -/
theorem kept_applyAll {ws : List Write} (hw : ∀ w ∈ ws, Bound w) (engine : AutotunerEngine)
    (name : String) :
    (∀ sig, engine.functionRegistry.getSignature name = some sig →
      (applyAll engine ws).functionRegistry.getSignature name = some sig) ∧
    ∀ info, engine.functionRegistry.getRoutineInfo name = some info →
      (applyAll engine ws).functionRegistry.getRoutineInfo name = some info := by
  induction ws generalizing engine with
  | nil => exact ⟨fun _ h => h, fun _ h => h⟩
  | cons w ws ih =>
    obtain ⟨hw, hws⟩ := List.forall_mem_cons.mp hw
    obtain ⟨hsig, hinfo⟩ := ih hws (w.apply engine)
    refine ⟨fun sig h => hsig sig ?_, fun info h => hinfo info ?_⟩
    · cases hw with
      | method typeName methodName symbol => exact h
      | routine r =>
        refine ((FunctionRegistry.lookup_apply engine.functionRegistry (.routine r) name).2).trans ?_
        rw [h]
        exact ite_self _
    · cases hw with
      | method typeName methodName symbol => exact h
      | routine r =>
        refine (getRoutineInfo_register _ _ _).trans ?_
        rw [h]
        exact ite_self _

theorem or_some_iff {V : Type} {a x : Option V} {b : V} (h : ∀ v, a = some v → x = some v) :
    x.or (some b) = a ↔ a.or (some b) = a := by
  cases a with
  | none => cases x <;> exact ⟨nofun, nofun⟩
  | some v => rw [h v rfl]

/-- Whether a write settles its name does not depend on the writes before it. -/
theorem sameAt_apply_iff {w : Write} (hw : Bound w) {before : List Write}
    (hb : ∀ w ∈ before, Bound w) (engine : AutotunerEngine) :
    SameAt (w.apply (applyAll engine before)) engine w.query ↔
      SameAt (w.apply engine) engine w.query := by
  cases hw with
  | method typeName methodName symbol =>
    have hset : ∀ e : AutotunerEngine,
        answer (Write.apply e (.ffiMethod typeName methodName symbol))
          (.ffiMethod typeName methodName) = .method (some symbol) := fun e =>
      congrArg _ ((ffiMethod_register _ _ _ _ _ _).trans (if_pos ⟨rfl, rfl⟩))
    constructor
    · exact fun h => ⟨(hset _).trans ((hset _).symm.trans h.answers), rfl⟩
    · exact fun h => ⟨(hset _).trans ((hset _).symm.trans h.answers), rfl⟩
  | routine info =>
    obtain ⟨hsig, hinfo⟩ := kept_applyAll hb engine info.name
    have hset : ∀ e : AutotunerEngine,
        SameAt (Write.apply e (.function (.routine info))) engine (.function info.name) ↔
          some info.function = engine.functionRegistry.lookup info.name ∧
          (e.functionRegistry.getSignature info.name).or (some info.signature) =
            engine.functionRegistry.getSignature info.name ∧
          (e.functionRegistry.getRoutineInfo info.name).or (some info) =
            engine.functionRegistry.getRoutineInfo info.name := by
      intro e
      have hr := (getRoutineInfo_register e.functionRegistry info info.name).trans (if_pos rfl)
      obtain ⟨hl, hs⟩ := FunctionRegistry.lookup_apply e.functionRegistry (.routine info) info.name
      have hl := hl.trans (if_pos rfl)
      have hs := hs.trans (if_pos rfl)
      constructor
      · rintro ⟨ha, hi⟩
        injection ha with ha₁ ha₂
        exact ⟨hl.symm.trans ha₁, hs.symm.trans ha₂, hr.symm.trans hi⟩
      · rintro ⟨h₁, h₂, h₃⟩
        exact ⟨congrArg₂ Answer.function (hl.trans h₁) (hs.trans h₂), hr.trans h₃⟩
    change SameAt _ engine (.function info.name) ↔ SameAt _ engine (.function info.name)
    rw [hset, hset, or_some_iff hsig, or_some_iff hinfo]

theorem exists_last (q : Query) (ws : List Write) :
    (∀ w ∈ ws, w.query ≠ q) ∨
      ∃ before w after, ws = before ++ w :: after ∧ w.query = q ∧ ∀ w' ∈ after, w'.query ≠ q := by
  induction ws with
  | nil => exact .inl fun w hw => absurd hw List.not_mem_nil
  | cons w ws ih =>
    rcases ih with hnone | ⟨before, w', after, rfl, hq, hafter⟩
    · by_cases hw : w.query = q
      · exact .inr ⟨[], w, ws, rfl, hw, hnone⟩
      · exact .inl (List.forall_mem_cons.mpr ⟨hw, hnone⟩)
    · exact .inr ⟨w :: before, w', after, rfl, hq, hafter⟩

/-- Writes of libraries go unnoticed exactly when the last one to each name does. -/
theorem sameAt_applyAll_iff {ws : List Write} (hw : ∀ w ∈ ws, Bound w)
    (engine : AutotunerEngine) :
    (∀ q, SameAt (applyAll engine ws) engine q) ↔ Settled engine ws := by
  have hsplit : ∀ before w after, ws = before ++ w :: after →
      (∀ w' ∈ after, w'.query ≠ w.query) →
      (SameAt (applyAll engine ws) engine w.query ↔ SameAt (w.apply engine) engine w.query) := by
    rintro before w after rfl hafter
    have hbefore : ∀ w' ∈ before, Bound w' := fun w' hm => hw w' (List.mem_append_left _ hm)
    have hself : Bound w := hw w (List.mem_append_right _ List.mem_cons_self)
    rw [← sameAt_apply_iff hself hbefore, applyAll_append]
    have hrest : SameAt (applyAll (w.apply (applyAll engine before)) after)
        (w.apply (applyAll engine before)) w.query := sameAt_applyAll_of_ne _
      (fun w' hm => .inl (hw w' (List.mem_append_right _ (List.mem_cons_of_mem _ hm)))) hafter
    exact ⟨fun h => hrest.symm.trans h, fun h => hrest.trans h⟩
  constructor
  · intro h before w after he hafter
    have hlast := (hsplit before w after he hafter).mp (h w.query)
    exact ⟨hlast.answers, hlast.infos⟩
  · intro h q
    rcases exists_last q ws with hnone | ⟨before, w, after, he, rfl, hafter⟩
    · exact sameAt_applyAll_of_ne engine (fun w hm => .inl (hw w hm)) hnone
    · obtain ⟨ha, hi⟩ := h before w after he hafter
      exact (hsplit before w after he hafter).mpr ⟨ha, hi⟩

theorem sameAt_apply_congr {w : Write} (hw : Bound w) {e₁ e₂ : AutotunerEngine}
    (hb : e₁.functionRegistry.builtinRegistry = e₂.functionRegistry.builtinRegistry)
    (h : SameAt e₁ e₂ w.query) : SameAt (w.apply e₁) (w.apply e₂) w.query := by
  refine ⟨answer_apply_congr w hb h.answers, ?_⟩
  cases hw with
  | method typeName methodName symbol => rfl
  | routine info =>
    have hi : e₁.functionRegistry.getRoutineInfo info.name =
      e₂.functionRegistry.getRoutineInfo info.name := h.infos
    have hr₁ := getRoutineInfo_register e₁.functionRegistry info info.name
    have hr₂ := getRoutineInfo_register e₂.functionRegistry info info.name
    rw [hi] at hr₁
    exact hr₁.trans hr₂.symm

/-- Only the answers at the names written matter. -/
theorem Settled.congr {ws : List Write} (hw : ∀ w ∈ ws, Bound w) {e₁ e₂ : AutotunerEngine}
    (hb : e₁.functionRegistry.builtinRegistry = e₂.functionRegistry.builtinRegistry)
    (h : ∀ w ∈ ws, SameAt e₁ e₂ w.query) (hs : Settled e₁ ws) : Settled e₂ ws := by
  intro before w after he hafter
  have hm : w ∈ ws := he ▸ List.mem_append_right _ List.mem_cons_self
  obtain ⟨ha, hi⟩ := hs before w after he hafter
  have hsame := (sameAt_apply_congr (hw w hm) hb (h w hm)).symm.trans
    (SameAt.trans ⟨ha, hi⟩ (h w hm))
  exact ⟨hsame.answers, hsame.infos⟩

/-! ## A load that fails at an import -/

theorem structWrites_struct {structs : List StructDecl} {w : Write}
    (h : w ∈ structs.flatMap structWrites) : ∃ n d, w = .struct n d := by
  obtain ⟨decl, _, h⟩ := List.mem_flatMap.mp h
  obtain ⟨name, _, rfl⟩ := List.mem_map.mp h
  exact ⟨name, decl, rfl⟩

theorem mem_structNames {load : Load} {name : String} :
    name ∈ structNames load ↔ ∃ decl ∈ load.structs, name ∈ names decl.moduleName decl.name := by
  unfold structNames names
  rw [List.mem_toFinset, List.mem_flatMap]

/-- The state after an `ffimport` of the load has failed. -/
def abandoned (t : Loader) (tables : Parser.Tables) (load : Load) : Loader :=
  { t with
    tables := tables
    engine := (t.engine.loadProgram load).1
    danglingStructs := t.danglingStructs ∪ structNames load }

theorem observe_structType (s : Loader) (name : String) :
    observe s (.structType name) =
      if name ∈ s.danglingStructs then .dangling
      else .answer (answer s.engine (.structType name)) none := rfl

theorem observe_of_ne {s : Loader} {q : Query} (h : ∀ name, q ≠ .structType name) :
    observe s q = .answer (answer s.engine q) (infoOf s.engine q) := by
  cases q with
  | structType name => exact absurd rfl (h name)
  | _ => rfl

section Abandoned

variable {t : Loader} {tables : Parser.Tables} {load : Load} (hc : complete load = false)

include hc

theorem engine_abandoned : (abandoned t tables load).engine =
    applyAll (applyAll t.engine (load.structs.flatMap structWrites))
      ((libraries load).flatMap (libraryWrites load.program)) := by
  unfold abandoned
  dsimp only
  rw [loadProgram_eq]
  unfold writes declarationWrites
  rw [hc, if_neg Bool.false_ne_true, List.append_nil, applyAll_append]

/-- The structs do not matter to what the libraries bind. -/
theorem observe_abandoned_iff :
    (∀ q, observe (abandoned t tables load) q = observe t q) ↔ Covered t load := by
  have hbound : ∀ w ∈ (libraries load).flatMap (libraryWrites load.program), Bound w := by
    intro w hw
    obtain ⟨library, _, hw⟩ := List.mem_flatMap.mp hw
    exact bound_of_mem hw
  have hne : ∀ w, Bound w → ∀ name, w.query ≠ .structType name := by
    intro w hw name he
    cases hw <;> cases he
  have hstructs : ∀ q, (∀ name, q ≠ .structType name) →
      SameAt (applyAll t.engine (load.structs.flatMap structWrites)) t.engine q := by
    intro q hq
    refine sameAt_applyAll_of_ne t.engine (fun w hw => .inr (structWrites_struct hw)) ?_
    intro w hw
    obtain ⟨n, d, rfl⟩ := structWrites_struct hw
    exact fun he => hq n he.symm
  have hbuiltins : (applyAll t.engine (load.structs.flatMap structWrites)).functionRegistry =
      t.engine.functionRegistry := by
    rw [functionRegistry_applyAll, List.filterMap_eq_nil_iff.mpr]
    · rfl
    · intro w hw
      obtain ⟨n, d, rfl⟩ := structWrites_struct hw
      rfl
  have hsettled := sameAt_applyAll_iff hbound
    (applyAll t.engine (load.structs.flatMap structWrites))
  have hstruct : ∀ name, SameAt (abandoned t tables load).engine
      (applyAll t.engine (load.structs.flatMap structWrites)) (.structType name) := by
    intro name
    rw [engine_abandoned hc]
    exact sameAt_applyAll_of_ne _ (fun w hw => .inl (hbound w hw))
      fun w hw => hne w (hbound w hw) name
  have hqueries : ∀ w ∈ (libraries load).flatMap (libraryWrites load.program),
      SameAt (applyAll t.engine (load.structs.flatMap structWrites)) t.engine w.query :=
    fun w hw => hstructs _ (hne w (hbound w hw))
  constructor
  · intro h
    refine ⟨fun name hname => ?_, ?_⟩
    · have hq := h (.structType name)
      rw [observe_structType, if_pos (show name ∈ (abandoned t tables load).danglingStructs from
        Finset.mem_union_right _ hname), observe_structType] at hq
      by_contra hn
      rw [if_neg hn] at hq
      cases hq
    · refine Settled.congr hbound (by rw [hbuiltins]) hqueries (hsettled.mp fun q => ?_)
      by_cases hq : ∃ name, q = .structType name
      · obtain ⟨name, rfl⟩ := hq
        have hs := hstruct name
        rwa [engine_abandoned hc] at hs
      · have hn : ∀ name, q ≠ .structType name := fun name he => hq ⟨name, he⟩
        have ho := h q
        rw [observe_of_ne hn, observe_of_ne hn, engine_abandoned hc] at ho
        injection ho with ha hi
        exact SameAt.trans ⟨ha, hi⟩ (hstructs q hn).symm
  · intro h q
    by_cases hq : ∃ name, q = .structType name
    · obtain ⟨name, rfl⟩ := hq
      rw [observe_structType, observe_structType]
      by_cases hd : name ∈ t.danglingStructs
      · rw [if_pos hd, if_pos (show name ∈ (abandoned t tables load).danglingStructs from
          Finset.mem_union_left _ hd)]
      · have hname : name ∉ structNames load := fun hn => hd (h.structs hn)
        have hkept : SameAt (applyAll t.engine (load.structs.flatMap structWrites)) t.engine
            (.structType name) := by
          refine sameAt_applyAll_of_ne t.engine (fun w hw => .inr (structWrites_struct hw)) ?_
          intro w hw he
          obtain ⟨decl, hdecl, hw⟩ := List.mem_flatMap.mp hw
          obtain ⟨n, hn, rfl⟩ := List.mem_map.mp hw
          cases he
          exact hname (mem_structNames.mpr ⟨decl, hdecl, hn⟩)
        have hnot : name ∉ (abandoned t tables load).danglingStructs := fun hm =>
          (Finset.mem_union.mp hm).elim hd hname
        rw [if_neg hd, if_neg hnot, ((hstruct name).trans hkept).answers]
    · have hn : ∀ name, q ≠ .structType name := fun name he => hq ⟨name, he⟩
      have hback := Settled.congr hbound (by rw [hbuiltins]) (fun w hw => (hqueries w hw).symm)
        h.libraries
      have hsame := (hsettled.mpr hback q).trans (hstructs q hn)
      rw [observe_of_ne hn, observe_of_ne hn, engine_abandoned hc, hsame.answers, hsame.infos]

end Abandoned

/-! ## The call -/

section Calls

variable {src : Sources} {s t : Loader} {falFilePath path : String} {file : FalFile}

theorem loadOwn_of_none (h : parsed src t path file = none) :
    ∃ tables, loadOwn src path file t = ({ t with tables := tables }, false) := by
  unfold parsed at h
  rw [Option.map_eq_none_iff] at h
  unfold loadOwn
  dsimp only
  rw [h]
  exact ⟨_, rfl⟩

theorem loadOwn_of_some {load : Load} (h : parsed src t path file = some load) :
    ∃ tables, (complete load = false →
        loadOwn src path file t = (abandoned t tables load, false)) ∧
      (complete load = true → ∃ s', loadOwn src path file t = (s', true) ∧
        s'.engine = (registered t (path, load)).engine ∧
        s'.danglingStructs = (registered t (path, load)).danglingStructs ∧
        s'.loadedPrograms = t.loadedPrograms ++ [(path, load)]) := by
  unfold parsed at h
  rw [Option.map_eq_some_iff] at h
  obtain ⟨program, hp, rfl⟩ := h
  refine ⟨(Parser.parseFile t.tables t.importStructHints (sourceText path file)).2,
    fun hc => ?_, fun hc => ?_⟩
  · unfold loadOwn abandoned
    dsimp only
    rw [hp]
    dsimp only
    rw [loadProgram_eq, hc, if_neg Bool.false_ne_true]
  · unfold loadOwn registered
    dsimp only
    rw [hp]
    dsimp only
    rw [loadProgram_eq, hc, if_pos rfl]
    exact ⟨_, rfl, rfl, rfl, rfl⟩

theorem observe_congr {s s' : Loader} (he : s.engine = s'.engine)
    (hd : s.danglingStructs = s'.danglingStructs) (q : Query) : observe s q = observe s' q := by
  unfold observe
  rw [he, hd]

theorem foldl_registered_congr {s s' : Loader} (he : s.engine = s'.engine)
    (hd : s.danglingStructs = s'.danglingStructs) (loads : List (String × Load)) :
    (loads.foldl registered s).engine = (loads.foldl registered s').engine ∧
      (loads.foldl registered s).danglingStructs =
        (loads.foldl registered s').danglingStructs := by
  induction loads generalizing s s' with
  | nil => exact ⟨he, hd⟩
  | cons load loads ih =>
    refine ih ?_ ?_
    · unfold registered
      rw [he]
    · unfold registered
      rw [hd]

/-- A run that has not failed has registered its loads, and nothing else. -/
theorem loads_run {steps : List (Step String)} (h : (loading src).run steps s = (t, true)) :
    ∃ loads, t.loadedPrograms = s.loadedPrograms ++ loads ∧
      ∀ q, observe t q = observe (loads.foldl registered s) q := by
  suffices hrun : ∃ loads, t.loadedPrograms = s.loadedPrograms ++ loads ∧
      t.engine = (loads.foldl registered s).engine ∧
      t.danglingStructs = (loads.foldl registered s).danglingStructs by
    obtain ⟨loads, hl, he, hd⟩ := hrun
    exact ⟨loads, hl, observe_congr he hd⟩
  induction steps generalizing s with
  | nil =>
    cases h
    exact ⟨[], (List.append_nil _).symm, rfl, rfl⟩
  | cons step steps ih =>
    cases step with
    | back p =>
      obtain ⟨loads, hl, he, hd⟩ := ih h
      have hback : (injectHints p (stem p) s).engine = s.engine ∧
          (injectHints p (stem p) s).danglingStructs = s.danglingStructs ∧
          (injectHints p (stem p) s).loadedPrograms = s.loadedPrograms := by
        unfold injectHints
        split <;> exact ⟨rfl, rfl, rfl⟩
      obtain ⟨hbe, hbd, hbl⟩ := hback
      obtain ⟨hce, hcd⟩ := foldl_registered_congr hbe hbd loads
      exact ⟨loads, hl.trans (congrArg (· ++ loads) hbl), he.trans hce, hd.trans hcd⟩
    | leave p =>
      rw [Visitor.run] at h
      cases hfile : src.files[p]? with
      | none =>
        unfold loading at h
        dsimp only at h
        rw [hfile] at h
        cases h
      | some file =>
        rw [leave_eq hfile] at h
        cases hp : parsed src s p file with
        | none =>
          obtain ⟨tables, hown⟩ := loadOwn_of_none hp
          rw [hown] at h
          cases h
        | some load =>
          obtain ⟨tables, hfailed, hloaded⟩ := loadOwn_of_some hp
          cases hc : complete load with
          | false =>
            rw [hfailed hc] at h
            cases h
          | true =>
            obtain ⟨s', hown, hse, hsd, hsl⟩ := hloaded hc
            rw [hown] at h
            obtain ⟨loads, hl, he, hd⟩ := ih h
            obtain ⟨hce, hcd⟩ := foldl_registered_congr hse hsd loads
            refine ⟨(p, load) :: loads, ?_, he.trans hce, hd.trans hcd⟩
            rw [hl, hsl, List.append_assoc]
            rfl

/-- Loading is atomic exactly when the file at which it fails registers nothing new before
it fails. -/
theorem atomic_iff_covered (src : Sources) (s : Loader) (falFilePath : String) :
    Atomic src s falFilePath ↔
      ∀ t load, FailsAt src s falFilePath t load → Covered t load := by
  constructor
  · rintro h t load ⟨before, p, after, file, hsteps, hrun, hfile, hp, hc⟩
    obtain ⟨tables, hfailed, _⟩ := loadOwn_of_some hp
    have hleave : (loading src).leave p t = (abandoned t tables load, false) :=
      (leave_eq hfile t).trans (hfailed hc)
    have hresult : (loading src).result (walk src s falFilePath) s =
        some (abandoned t tables load, false) := by
      unfold Visitor.result
      rw [hsteps, run_of_failed hrun hleave]
      rfl
    obtain ⟨loads, hl, ho⟩ := loads_run hrun
    have hsame : ∀ q, observe (abandoned t tables load) q = observe t q := by
      intro q
      rw [ho]
      exact h _ (returns_iff.mpr hresult) loads hl q
    exact (observe_abandoned_iff hc).mp hsame
  · intro h s' hr loads hloads q
    have hresult := returns_iff.mp hr
    have hstate := run_of_result hresult
    rcases hrun : (loading src).run (walk src s falFilePath).steps s with ⟨t, ok⟩
    rw [hrun] at hstate
    change t = s' at hstate
    subst hstate
    cases ok with
    | true =>
      obtain ⟨loads', hl, ho⟩ := loads_run hrun
      rw [ho, List.append_cancel_left (hloads.symm.trans hl)]
    | false =>
      obtain ⟨before, p, after, u, hsteps, hu, hleave⟩ := run_eq_false hrun
      obtain ⟨loads', hl, ho⟩ := loads_run hu
      have hkept : t.loadedPrograms = u.loadedPrograms ∧ ∀ q, observe t q = observe u q := by
        cases hfile : src.files[p]? with
        | none =>
          unfold loading at hleave
          dsimp only at hleave
          rw [hfile] at hleave
          cases hleave
          exact ⟨rfl, fun _ => rfl⟩
        | some file =>
          rw [leave_eq hfile] at hleave
          cases hp : parsed src u p file with
          | none =>
            obtain ⟨tables, hown⟩ := loadOwn_of_none hp
            rw [hown] at hleave
            cases hleave
            exact ⟨rfl, observe_congr rfl rfl⟩
          | some load =>
            obtain ⟨tables, hfailed, hloaded⟩ := loadOwn_of_some hp
            cases hc : complete load with
            | true =>
              obtain ⟨s', hown, _⟩ := hloaded hc
              rw [hown] at hleave
              cases hleave
            | false =>
              rw [hfailed hc] at hleave
              cases hleave
              refine ⟨rfl, (observe_abandoned_iff hc).mpr ?_⟩
              exact h u load ⟨before, p, after, file, hsteps, hu, hfile, hp, hc⟩
      rw [hkept.2, ho, List.append_cancel_left (hloads.symm.trans (hkept.1.trans hl))]

end Calls

/-- A struct, and an `ffimport` of a file that does not exist. -/
def unlinked : FalFile where
  text := "ffimport \"wrapper.cpp\" () ()\nstruct S {}\n"
  derivation := { items := [.ffImport { wrapperFile := "wrapper.cpp" }, .struct { name := "S" }] }

theorem not_atomic_unlinked :
    ¬ ∀ (src : Sources) (s : Loader) (falFilePath : String), Atomic src s falFilePath := by
  intro h
  have hload : (loadFalFile (directory unlinked) 1 {} "/main.fal").map (fun r =>
      (r.2, decide ("S" ∈ r.1.danglingStructs), r.1.loadedPrograms.length)) =
        some (false, true, 0) := by decide +kernel
  cases hr : loadFalFile (directory unlinked) 1 {} "/main.fal" with
  | none =>
    rw [hr] at hload
    cases hload
  | some result =>
    obtain ⟨s', ok⟩ := result
    rw [hr] at hload
    injection hload with hload
    injection hload with hok hload
    injection hload with hdangling hlength
    change ok = false at hok
    subst hok
    have hnil : s'.loadedPrograms = [] := List.length_eq_zero_iff.mp hlength
    have hatomic := h _ _ _ s' ⟨1, hr⟩ [] hnil (.structType "S")
    rw [observe_structType, if_pos (of_decide_eq_true hdangling)] at hatomic
    cases hatomic

end FalconLib.Dsl.LoadAtomicity
