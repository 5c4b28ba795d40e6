import FalconLib.Base.StdMap
import FalconLib.Dsl.Ast

/-!
# The registry of callable functions

Three maps under one name. `functions` overwrites on registration, `signatures`
and `routines` keep what came first. The functions themselves are left abstract.
-/

namespace FalconLib.Dsl

open FalconLib.Base (StdMap)
open FalconLib.Base.StdMap (lastWrite firstWrite)

/-- The builtins known to the parser and the registry. -/
def BuiltinFunctionRegistry.createDefault : StdMap BuiltinSignature :=
  let errorParams : List ParamSpec := [{ name := "message", type := .ofParamType .string }]
  let errorReturns : List ParamSpec := [{ name := "out", type := .ofParamType .error }]
  let registry := StdMap.emplace ∅ "errorMsg" ⟨"errorMsg", errorParams, errorReturns⟩
  registry.emplace "fatalErrorMsg" ⟨"fatalErrorMsg", errorParams, errorReturns⟩

structure RoutineInfo (F : Type) where
  name : String
  libraryPath : String
  function : F
  signature : BuiltinSignature

structure FunctionRegistry (F : Type) where
  functions : StdMap F := ∅
  signatures : StdMap BuiltinSignature := ∅
  routines : StdMap (RoutineInfo F) := ∅
  builtinRegistry : StdMap BuiltinSignature := BuiltinFunctionRegistry.createDefault

namespace FunctionRegistry

variable {F : Type}

def registerBuiltin (registry : FunctionRegistry F) (name : String) (func : F) :
    Except String (FunctionRegistry F) :=
  match registry.builtinRegistry[name]? with
  | none => .error <|
    "Cannot register builtin '" ++ name ++ "': signature not found in BuiltinFunctionRegistry. " ++
      "Did you forget to add it to BuiltinRegistry.cpp?"
  | some sig => .ok { registry with
      functions := registry.functions.assign name func
      signatures := registry.signatures.emplace name sig }

def registerAutotuner (registry : FunctionRegistry F) (sig : BuiltinSignature) (func : F) :
    FunctionRegistry F :=
  { registry with
    functions := registry.functions.assign sig.qualifiedName func
    signatures := registry.signatures.emplace sig.qualifiedName sig }

def registerRoutine (registry : FunctionRegistry F) (routine : RoutineInfo F) :
    FunctionRegistry F :=
  { registry with
    functions := registry.functions.assign routine.name routine.function
    signatures := registry.signatures.emplace routine.name routine.signature
    routines := registry.routines.emplace routine.name routine }

def lookup (registry : FunctionRegistry F) (name : String) : Option F := registry.functions[name]?

def getSignature (registry : FunctionRegistry F) (name : String) : Option BuiltinSignature :=
  registry.signatures[name]?

def getRoutineInfo (registry : FunctionRegistry F) (name : String) : Option (RoutineInfo F) :=
  registry.routines[name]?

def hasFunction (registry : FunctionRegistry F) (name : String) : Bool :=
  (registry.lookup name).isSome

end FunctionRegistry

/-! ## Histories of registrations -/

inductive Registration (F : Type) where
  | builtin (name : String) (func : F)
  | autotuner (sig : BuiltinSignature) (func : F)
  | routine (info : RoutineInfo F)

/-- What one registration brings along for a name. -/
structure Registered (F : Type) where
  function : F
  signature : BuiltinSignature
  routine : Option (RoutineInfo F)

namespace Registration

variable {F : Type}

/-- The name a registration is made under, also when it is refused. -/
def name : Registration F → String
  | builtin name _ => name
  | autotuner sig _ => sig.qualifiedName
  | routine info => info.name

/-- The name and contents of a registration; none for a builtin that is refused. -/
def entry (builtins : StdMap BuiltinSignature) : Registration F → Option (String × Registered F)
  | builtin name func => builtins[name]?.map fun sig => (name, ⟨func, sig, none⟩)
  | autotuner sig func => some (sig.qualifiedName, ⟨func, sig, none⟩)
  | routine info => some (info.name, ⟨info.function, info.signature, some info⟩)

/-- A refused builtin raises and leaves the registry as it was. -/
def apply (registry : FunctionRegistry F) : Registration F → FunctionRegistry F
  | builtin name func =>
    match registry.registerBuiltin name func with
    | .ok registry => registry
    | .error _ => registry
  | autotuner sig func => registry.registerAutotuner sig func
  | routine info => registry.registerRoutine info

end Registration

namespace FunctionRegistry

variable {F : Type}

def registerAll (registry : FunctionRegistry F) (history : List (Registration F)) :
    FunctionRegistry F :=
  history.foldl Registration.apply registry

theorem builtinRegistry_apply (registry : FunctionRegistry F) (r : Registration F) :
    (r.apply registry).builtinRegistry = registry.builtinRegistry := by
  cases r with
  | builtin name func =>
    cases hb : registry.builtinRegistry[name]? <;>
      simp only [Registration.apply, FunctionRegistry.registerBuiltin, hb]
  | autotuner sig func => rfl
  | routine info => rfl

/-- A registration changes the answer for its own name, by a rule that depends on what
was there and on the builtins. -/
theorem lookup_apply (registry : FunctionRegistry F) (r : Registration F) (name : String) :
    (r.apply registry).lookup name =
        (if r.name = name then
          ((r.entry registry.builtinRegistry).map fun entry => entry.2.function).or
            (registry.lookup name)
        else registry.lookup name) ∧
      (r.apply registry).getSignature name =
        if r.name = name then
          (registry.getSignature name).or
            ((r.entry registry.builtinRegistry).map fun entry => entry.2.signature)
        else registry.getSignature name := by
  unfold FunctionRegistry.lookup FunctionRegistry.getSignature
  cases r with
  | builtin n func =>
    cases hb : registry.builtinRegistry[n]? with
    | none =>
      simp only [Registration.apply, FunctionRegistry.registerBuiltin, Registration.entry, hb,
        Option.map_none, Option.none_or, Option.or_none, ite_self, and_self]
    | some sig =>
      simp only [Registration.apply, FunctionRegistry.registerBuiltin, Registration.entry, hb,
        Option.map_some, Option.some_or]
      exact ⟨StdMap.getElem?_assign _ _ _ _, StdMap.getElem?_emplace _ _ _ _⟩
  | autotuner sig func =>
    exact ⟨StdMap.getElem?_assign _ _ _ _, StdMap.getElem?_emplace _ _ _ _⟩
  | routine info => exact ⟨StdMap.getElem?_assign _ _ _ _, StdMap.getElem?_emplace _ _ _ _⟩

/-- A registry in which each map is the fold of one part of the same writes. -/
structure Records (builtins : StdMap BuiltinSignature) (writes : List (String × Registered F))
    (registry : FunctionRegistry F) : Prop where
  functions : ∀ name : String,
    registry.functions[name]? = (lastWrite name writes).map Registered.function
  signatures : ∀ name : String,
    registry.signatures[name]? = (firstWrite name writes).map Registered.signature
  routines : ∀ name : String,
    registry.routines[name]? =
      firstWrite name (writes.filterMap fun w => w.2.routine.map (w.1, ·))
  builtins : registry.builtinRegistry = builtins

theorem records_nil : Records BuiltinFunctionRegistry.createDefault [] ({} : FunctionRegistry F) :=
  ⟨fun _ => rfl, fun _ => rfl, fun _ => rfl, rfl⟩

variable {builtins : StdMap BuiltinSignature} {writes : List (String × Registered F)}
  {registry : FunctionRegistry F}

theorem firstWrite_append {V : Type} (key : String) (l₁ l₂ : List (String × V)) :
    firstWrite key (l₁ ++ l₂) = (firstWrite key l₁).or (firstWrite key l₂) :=
  List.lookup_append

/-- The three maps after one more write of a function and its signature. -/
theorem Records.write (h : Records builtins writes registry) (name : String)
    (entry : Registered F) (routines : StdMap (RoutineInfo F))
    (hr : ∀ n : String, routines[n]? =
      if name = n then registry.routines[n]?.or entry.routine else registry.routines[n]?) :
    Records builtins (writes ++ [(name, entry)])
      { registry with
        functions := registry.functions.assign name entry.function
        signatures := registry.signatures.emplace name entry.signature
        routines := routines } := by
  refine ⟨fun n => ?_, fun n => ?_, fun n => ?_, h.builtins⟩
  · change (registry.functions.assign name entry.function)[n]? = _
    rw [StdMap.getElem?_assign, StdMap.lastWrite_append, StdMap.lastWrite_cons, h.functions]
    by_cases hn : name = n
    · simp only [hn, if_true, lastWrite, List.reverse_nil, List.lookup_nil, Option.none_or,
        Option.some_or, Option.map_some]
    · simp only [hn, if_false, lastWrite, List.reverse_nil, List.lookup_nil, Option.none_or]
  · change (registry.signatures.emplace name entry.signature)[n]? = _
    rw [StdMap.getElem?_emplace, firstWrite_append, StdMap.firstWrite_cons, h.signatures]
    by_cases hn : name = n
    · simp only [hn, if_true]
      cases firstWrite n writes <;> rfl
    · simp only [hn, if_false]
      exact congrArg _ (Option.or_none).symm
  · change routines[n]? = _
    rw [hr, List.filterMap_append, firstWrite_append, h.routines]
    cases hi : entry.routine with
    | none =>
      simp only [List.filterMap_cons, hi, Option.map_none, List.filterMap_nil, Option.or_none,
        ite_self]
      exact (Option.or_none).symm
    | some info =>
      simp only [List.filterMap_cons, hi, Option.map_some, List.filterMap_nil]
      rw [StdMap.firstWrite_cons]
      by_cases hn : name = n
      · rw [if_pos hn, if_pos hn]
      · rw [if_neg hn, if_neg hn]
        exact (Option.or_none).symm

theorem Records.apply (h : Records builtins writes registry) (r : Registration F) :
    Records builtins (writes ++ (r.entry builtins).toList) (r.apply registry) := by
  cases r with
  | builtin name func =>
    cases hb : builtins[name]? with
    | none =>
      simp only [Registration.entry, Registration.apply, registerBuiltin, h.builtins, hb,
        Option.map_none, Option.toList_none, List.append_nil]
      exact h
    | some sig =>
      simp only [Registration.entry, Registration.apply, registerBuiltin, h.builtins, hb,
        Option.map_some, Option.toList_some]
      rw [← h.builtins]
      refine (h.builtins ▸ h).write name ⟨func, sig, none⟩ registry.routines fun n => ?_
      rw [Option.or_none, ite_self]
  | autotuner sig func =>
    refine h.write sig.qualifiedName ⟨func, sig, none⟩ registry.routines fun n => ?_
    rw [Option.or_none, ite_self]
  | routine info =>
    exact h.write info.name ⟨info.function, info.signature, some info⟩ _ fun n =>
      StdMap.getElem?_emplace _ _ _ _

theorem Records.registerAll (h : Records builtins writes registry)
    (history : List (Registration F)) :
    Records builtins (writes ++ history.filterMap (Registration.entry builtins))
      (registry.registerAll history) := by
  induction history generalizing registry writes with
  | nil =>
    rw [List.filterMap_nil, List.append_nil]
    exact h
  | cons r history ih =>
    have hs := ih (h.apply r)
    rw [List.append_assoc] at hs
    rw [List.filterMap_cons]
    cases he : r.entry builtins with
    | none => rwa [he] at hs
    | some e => rwa [he] at hs

/-- The registrations that were not refused, by name, in order. -/
def registrations (history : List (Registration F)) : List (String × Registered F) :=
  history.filterMap (Registration.entry BuiltinFunctionRegistry.createDefault)

theorem records (history : List (Registration F)) :
    Records BuiltinFunctionRegistry.createDefault (registrations history)
      (({} : FunctionRegistry F).registerAll history) :=
  records_nil.registerAll history

/-- What the registry answers for `name` is what one registration brought along, the
one whose function it returns. -/
def Coherent (history : List (Registration F)) (name : String) : Prop :=
  let registry := ({} : FunctionRegistry F).registerAll history
  ∀ func, registry.lookup name = some func →
    ∃ entry, lastWrite name (registrations history) = some entry ∧ entry.function = func ∧
      registry.getSignature name = some entry.signature ∧
      ∀ info, registry.getRoutineInfo name = some info → entry.routine = some info

/-- The last registration under `name` repeats the first signature and, if a routine
was ever registered under it, the first routine. -/
def Repeats (history : List (Registration F)) (name : String) : Prop :=
  ∀ last, lastWrite name (registrations history) = some last →
    (firstWrite name (registrations history)).map Registered.signature = some last.signature ∧
    ∀ info, firstWrite name
      ((registrations history).filterMap fun w => w.2.routine.map (w.1, ·)) = some info →
      last.routine = some info

theorem coherent_iff_repeats (history : List (Registration F)) (name : String) :
    Coherent history name ↔ Repeats history name := by
  have h := records history
  unfold Coherent Repeats lookup getSignature getRoutineInfo
  simp only [h.functions, h.signatures, h.routines, Option.map_eq_some_iff]
  constructor
  · intro hc last hl
    obtain ⟨entry, he, _, hs, hr⟩ := hc last.function ⟨last, hl, rfl⟩
    obtain rfl := Option.some.inj (hl.symm.trans he)
    exact ⟨hs, hr⟩
  · rintro hc func ⟨last, hl, rfl⟩
    exact ⟨last, hl, rfl, hc last hl⟩

/-- Two routines `scale` of different modules under their bare name, the second with
one parameter more. -/
def rescaled : List (Registration String) :=
  let param name : ParamSpec := { name := name, type := .ofParamType .float }
  let scale library params : RoutineInfo String :=
    ⟨"scale", "<inline>", library, ⟨"scale", params, [param "r"]⟩⟩
  [.routine (scale "A::scale" [param "x"]), .routine (scale "B::scale" [param "x", param "by"])]

theorem rescaled_not_coherent :
    ¬ ∀ (history : List (Registration String)) (name : String), Coherent history name := by
  intro h
  obtain ⟨entry, hl, _, hs, _⟩ := h rescaled "scale" "B::scale" (by decide)
  have hlast : (lastWrite "scale" (registrations rescaled)).map (·.signature.parameters.length) =
      some 2 := by decide
  have hfirst : ((({} : FunctionRegistry String).registerAll rescaled).getSignature "scale").map
      (·.parameters.length) = some 1 := by decide
  rw [hl] at hlast
  rw [hs] at hfirst
  cases hlast.symm.trans hfirst

end FunctionRegistry

end FalconLib.Dsl
