import FalconLib.Libs.MapLoaded
import FalconLib.Libs.MapRefinement

/-!
# Runs over maps

What programs observe that only call the routines of maps, and what remains of it when clients
work on the arrays that `Keys` and `Values` hand out.
-/

namespace FalconLib.Libs.Map

open FalconLib.Base (Comp StdMap Table)
open FalconLib.Base.Table (Operation Reply)
open FalconLib.Dsl
open FalconLib.Dsl.RoutineRuns
open FalconLib.Libs.Array (IsArray Leaves Machine Method Observed callOn)
open FalconLib.Typing.FFI
open ExprEvaluator (evaluate evaluateList)

variable {S : Type} {ctx : Context S} {path : String} {w : World S} {program : List Command}

theorem represents_start (hl : Linked ctx w.types path) :
    Represents ctx path ∅ ({ world := w } : Machine S) {} := by
  refine ⟨hl, [], ⟨nofun, nofun, ?_, ?_, ?_⟩, rfl⟩
  · intro i j a b ha
    cases ha
  · intro x kind hx
    exact absurd hx (by simp)
  · intro x _
    exact Std.ExtTreeMap.getElem?_empty

theorem length_run (fuel : Nat) (m : Machine S) (program : List Command) :
    (run ctx fuel m program).1.length = program.length := by
  induction program generalizing m with
  | nil => rfl
  | cons command program ih => exact congrArg Nat.succ (ih _)

theorem answers_of_own {observations : List Observed} (hown : ∀ command ∈ program, command.own = true)
    (hlength : observations.length = program.length) :
    answers program observations = observations := by
  induction program generalizing observations with
  | nil => exact (List.length_eq_zero_iff.mp hlength).symm
  | cons command program ih =>
    cases observations with
    | nil => cases hlength
    | cons observed observations =>
      have hrest := ih (fun c hc => hown c (List.mem_cons_of_mem _ hc)) (Nat.succ.inj hlength)
      unfold answers
      rw [if_pos (hown command List.mem_cons_self), hrest]

/-- Programs that only call the routines of maps observe what they observe on finite maps, and
every map holds its keys, without repetition, beside as many values. -/
theorem run_refines_maps (hl : Linked ctx w.types path) (fuel : Nat)
    (hown : ∀ command ∈ program, command.own = true) (hscoped : Scoped ∅ program)
    (hfits : Admissible ctx fuel path { world := w } program) :
    (run ctx fuel { world := w } program).1 = (Maps.run {} program).1 ∧
      Represents ctx path (kindsOf ∅ program) (run ctx fuel { world := w } program).2
        (Maps.run {} program).2 := by
  have hrun := (represents_start hl).run fuel hscoped hfits
  rw [answers_of_own hown (length_run fuel _ program), List.filter_eq_self.mpr hown] at hrun
  exact hrun

def stringType : TypeDescriptor := .ofParamType .string

/-- A key that is overwritten, one that is removed twice, and an absent one. -/
def counting : List Command :=
  [.new "m" stringType intType, .call "m" (.set (.string "a") (.int 1)),
    .call "m" (.set (.string "b") (.int 2)), .call "m" (.set (.string "a") (.int 3)),
    .call "m" (.get (.string "a")), .call "m" (.remove (.string "b")),
    .call "m" (.remove (.string "b")), .call "m" (.get (.string "b")),
    .call "m" (.getOr (.string "b") (.int 7)), .call "m" .size]

theorem run_refines_maps_counting :
    (run loadedContext 0 { world := loadedWorld } counting).1 =
      [.returned .nil, .returned .nil, .returned .nil, .returned .nil, .returned (.int 3),
        .returned (.bool true), .returned (.bool false), .raised, .returned (.int 7),
        .returned (.int 1)] := by
  have hown : ∀ command ∈ counting, command.own = true := by decide
  have hscoped : Scoped ∅ counting := by
    simp [Scoped, counting, Command.Uses, Command.kindsAfter]
  have hfits : admissible loadedContext 0 { world := loadedWorld } counting = true := by
    decide +kernel
  rw [(run_refines_maps linked_load 0 hown hscoped
    (admissible_sound loadedContext 0 "libarray.so" hfits)).1]
  rfl

/-! ## Long strings -/

section Long

variable {env : ParameterMap} {p : Place} {t : MapTable} {key : RuntimeValue} {text : String}

/-- A key is appended before the value that does not arrive. -/
theorem set_long_raises (fuel : Nat) (hl : Linked ctx w.types path) (hb : Bound env p)
    (hs : Tabled w.heap p t) (hkey : Key key) (henv : env["key"]? = some key)
    (hvalue : env["value"]? = some (.string text)) (hmem : key ∉ t.keys)
    (hlong : (Int32.ofNat (byteCount text.toList)).toInt < 0) :
    ∃ heap, Raises (StmtExecutor.executeBlock ctx (Machine.handlers ctx fuel) (.own env)
        setRoutine.body) w { w with heap := heap } ∧
      Stored heap p (t.keys ++ [key]) t.values := by
  obtain ⟨heap₁, hcontains, hs₁, _⟩ : ∃ heap', (evaluate ctx (Machine.handlers ctx fuel) (.own env)
      (callOn "keys_" "Contains" [var "key"]) w).outcome =
        .ok (Array.Search.contains.answer heap' t.keys key) { w with heap := heap' } ∧
      Stored heap' p t.keys t.values ∧ Touches w.heap heap' p.handles :=
    search_keys hl hb hs .contains hkey henv
  rw [Array.contains_scalar heap₁ t.keys hkey.1, decide_eq_false hmem] at hcontains
  obtain ⟨heap₂, hpush, hs₂, _⟩ := call_keys (w := { w with heap := heap₁ }) hl hb hs₁
    (.pushBack key) (fun v hv => List.mem_singleton.mp hv ▸ hkey)
    (evaluateList_vars (.cons henv .nil) _) rfl
  have hmethod : (evaluate ctx (Machine.handlers ctx fuel) (.own env)
      (callOn "values_" "PushBack" [var "value"]) { w with heap := heap₂ }).outcome = _ :=
    Array.evalMethodCall_outcome (w := { w with heap := heap₂ }) hl.registered.arrays hb.values
      hs₂.values (Array.findRoutine_method (.pushBack (.string text)) _)
      (hl.registered.arrays.method (.pushBack (.string text))) fuel
      (evaluateList_vars (.cons hvalue .nil) _)
  have hcall := Array.callForeign_long hs₂.values hlong
  have hraise := hmethod.trans (Comp.bind_of_throw
    (Array.runHost_of_throw (hl.opened.method (.pushBack (.string text))) hcall))
  have hleft := hs₂.leaveValues (Leaves.received hs₂.values) hs₂.kept
  refine ⟨Array.received heap₂ p.valuesHandle, executeBlock_of_raises
    (Raises.ifStmt hcontains (Raises.step (Steps.expr hpush) (executeBlock_of_raises ?_))), hleft.1⟩
  exact Raises.withContext (Raises.bind ⟨_, hraise⟩) _

theorem call_set_long_raises (fuel : Nat) (hl : Linked ctx w.types path) (hm : IsMap w p)
    (hs : Tabled w.heap p t) (hkey : Key key) (hmem : key ∉ t.keys)
    (hlong : (Int32.ofNat (byteCount text.toList)).toInt < 0) :
    ∃ w', Raises (ExprEvaluator.callOnValue ctx (Machine.handlers ctx (fuel + 1)) (.struct p.id)
      "Set" (pure [key, .string text])) w w' := by
  obtain ⟨object, hobject, htype⟩ := hm.object
  have hfound : found w.types object.typeName = some (instanceDecl p.keyType p.valueType) :=
    htype ▸ hm.found
  have hcall : (ExprEvaluator.callOnValue ctx (Machine.handlers ctx (fuel + 1)) (.struct p.id)
      "Set" (pure [key, .string text]) w).outcome =
      ((StructRoutine.execStructRoutine ctx (Machine.handlers ctx fuel) p.id
        (instanceDecl p.keyType p.valueType) (instanceRoutine p.keyType p.valueType setRoutine)
        [key, .string text] >>= packResult) w).outcome :=
    callOnValue_outcome hobject hfound
      (findRoutine_routineOf p.keyType p.valueType (.set key (.string text))) rfl
  have hquiet : Quiet ctx fuel path w
      (inputsOf p (routineOf (.set key (.string text))) (argsOf (.set key (.string text))))
      (instanceRoutine p.keyType p.valueType (routineOf (.set key (.string text)))) := nofun
  obtain ⟨env, w₁, henv, hb, hpassed, hundisturbed⟩ :=
    environment_outcome fuel hm hl.registered hquiet
  have hl₁ := hundisturbed.linked hl
  have hs₁ : Tabled w₁.heap p t :=
    hs.frame hundisturbed.heap List.not_mem_nil List.not_mem_nil
  obtain ⟨heap, hraises, _⟩ := set_long_raises fuel hl₁ hb hs₁ hkey
    (hpassed ("key", key) List.mem_cons_self)
    (hpassed ("value", .string text) (List.mem_cons_of_mem _ List.mem_cons_self)) hmem hlong
  obtain ⟨e, he⟩ := execStructRoutine_of_raises rfl henv hraises
  exact ⟨_, e, hcall.trans (Comp.bind_of_throw he)⟩

theorem Represents.set_long_raises (fuel : Nat) {kinds : StdMap Kind} {m : Machine S} {s : Maps}
    (h : Represents ctx path kinds m s) {x : String} (hx : kinds[x]? = some .map) (hkey : Key key)
    (habsent : ∀ map ∈ s.maps, key ∉ map)
    (hlong : (Int32.ofNat (byteCount text.toList)).toInt < 0) :
    (step ctx fuel m (.call x (.set key (.string text)))).1 = .raised := by
  obtain ⟨entries, hholds, hmaps⟩ := h.entries
  obtain ⟨value, henv, ref, ⟨p, t⟩, _, hentry, rfl⟩ := hholds.bound x .map hx
  have hmem := List.mem_of_getElem? hentry
  have hkeys : key ∉ t.keys := by
    rw [← Table.mem_toFinmap]
    refine habsent _ ?_
    rw [← hmaps]
    exact List.mem_map_of_mem (f := (·.2.toFinmap)) hmem
  obtain ⟨w', e, he⟩ := call_set_long_raises fuel h.linked (hholds.isMap _ hmem)
    (hholds.tabled _ hmem) hkey hkeys hlong
  have hmethod := methodCall_outcome ctx fuel henv "Set" [key, .string text]
  change (Machine.observe m (methodCall ctx fuel m x "Set" [key, .string text])).1 = _
  rw [observe_of_raises ⟨e, hmethod.trans he⟩]

/-- A text is stored under a short key. -/
def storing (text : String) : List Command :=
  [.new "m" stringType stringType, .call "m" (.set (.string "k") (.string text))]

theorem storing_raises (hlong : (Int32.ofNat (byteCount text.toList)).toInt < 0) :
    (run loadedContext 0 { world := loadedWorld } (storing text)).1 ≠
      (Maps.run {} (storing text)).1 := by
  have hkey : Key (.string "k") := by decide
  have hnew := ((represents_start linked_load).new 0 (x := "m") (k := stringType)
    (v := stringType) (by simp)).2
  have hraise := hnew.set_long_raises 0 (StdMap.getElem?_assign_self _ _ _) hkey
    (fun map hmap => List.mem_singleton.mp hmap ▸ Finmap.notMem_empty) hlong
  have hlists : (Maps.run {} (storing text)).1 = [.returned .nil, .returned .nil] := rfl
  rw [hlists]
  unfold storing run run
  dsimp only
  rw [hraise]
  intro h
  injection h with _ hrest
  injection hrest with hsecond _
  cases hsecond

/-- A finite map takes a value of `2 ^ 31` bytes, the interpreter raises an error. -/
theorem not_run_refines_maps_storing :
    (run loadedContext 0 { world := loadedWorld }
      (storing (String.ofList (List.replicate (2 ^ 31) 'a')))).1 ≠
      (Maps.run {} (storing (String.ofList (List.replicate (2 ^ 31) 'a')))).1 := by
  apply storing_raises
  rw [Array.byteCount_replicate]
  decide

end Long

/-! ## Clients of the arrays -/

/-- Whatever clients do on the arrays, as long as they leave the elements as they are, the map
answers its own commands like a finite map that knows of these alone. -/
theorem run_keeps_maps (hl : Linked ctx w.types path) (fuel : Nat) (hscoped : Scoped ∅ program)
    (hfits : Admissible ctx fuel path { world := w } program) :
    answers program (run ctx fuel { world := w } program).1 =
        (Maps.run {} (program.filter Command.own)).1 ∧
      Represents ctx path (kindsOf ∅ program) (run ctx fuel { world := w } program).2
        (Maps.run {} (program.filter Command.own)).2 :=
  (represents_start hl).run fuel hscoped hfits

/-- A client looks at the keys, through an alias too, and writes back a value it has read. -/
def browsing : List Command :=
  [.new "m" stringType intType, .call "m" (.set (.string "a") (.int 1)),
    .view "ks" "m" .keys stringType, .share "alias" "ks" stringType, .array "alias" .size,
    .search "ks" .contains (.string "a"), .call "m" (.set (.string "b") (.int 2)),
    .index "alias" 1, .view "vs" "m" .values intType, .array "vs" (.setIndex 0 (.int 1)),
    .array "vs" (.erase 7), .call "m" (.get (.string "b")), .call "m" .size]

theorem run_keeps_maps_browsing :
    answers browsing (run loadedContext 0 { world := loadedWorld } browsing).1 =
      [.returned .nil, .returned .nil, .returned .nil, .returned (.int 2), .returned (.int 2)] := by
  have hscoped : Scoped ∅ browsing := by
    simp [Scoped, browsing, Command.Uses, Command.kindsAfter, StdMap.getElem?_assign]
  have hfits : admissible loadedContext 0 { world := loadedWorld } browsing = true := by
    decide +kernel
  rw [(run_keeps_maps linked_load 0 hscoped
    (admissible_sound loadedContext 0 "libarray.so" hfits)).1]
  rfl

/-- A client empties the array of the keys. -/
def emptying : List Command :=
  [.new "m" stringType intType, .call "m" (.set (.string "a") (.int 1)),
    .view "ks" "m" .keys stringType, .array "ks" .clear, .call "m" .size]

/-- The map has lost its key, although no command of its own has removed it. -/
theorem not_run_keeps_maps_emptying :
    answers emptying (run loadedContext 0 { world := loadedWorld } emptying).1 ≠
      (Maps.run {} (emptying.filter Command.own)).1 := by
  have hmachine : answers emptying (run loadedContext 0 { world := loadedWorld } emptying).1 =
      [.returned .nil, .returned .nil, .returned (.int 0)] := by
    decide +kernel
  have hmaps : (Maps.run {} (emptying.filter Command.own)).1 =
      [.returned .nil, .returned .nil, .returned (.int 1)] := rfl
  rw [hmachine, hmaps]
  decide

end FalconLib.Libs.Map
