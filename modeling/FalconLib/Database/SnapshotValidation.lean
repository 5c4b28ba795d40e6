import FalconLib.Database.SnapshotRoundTrip

/-!
# Validation of snapshots

`validate_snapshot` looks for the members of an item, `from_json` reads them at their types. The
two agree on the items whose members have these types.
-/

namespace FalconLib.Database

open FalconLib.Base

namespace SnapshotManager

open DeviceCharacteristic (getOpt characteristicMember)

variable (env : Environment)

/-- The check of an item. -/
def validItem : Json → Bool
  | .object members => (members.lookup "name").isSome && (members.lookup "scope").isSome &&
      (members.lookup "characteristic").isSome
  | _ => false

def validateSnapshot (filename : String) (w : World) : Bool :=
  match w.files[filename]? with
  | none => false
  | some text =>
    match env.json.extract text with
    | .ok (.array items) => items.all validItem
    | _ => false

theorem validateSnapshot_iff {filename : String} {w : World} :
    validateSnapshot env filename w = true ↔
      ∃ items, readSnapshot env filename w = .ok items ∧ ∀ item ∈ items, validItem item = true := by
  unfold validateSnapshot readSnapshot
  cases w.files[filename]? with
  | none => exact iff_of_false nofun nofun
  | some text =>
    dsimp only
    cases env.json.extract text with
    | error what => exact iff_of_false nofun nofun
    | ok j =>
      cases j with
      | array items =>
        change items.all validItem = true ↔ _
        rw [List.all_eq_true]
        constructor
        · intro h
          exact ⟨items, rfl, h⟩
        · rintro ⟨_, hitems, h⟩
          cases hitems
          exact h
      | _ => exact iff_of_false nofun nofun

/-- A file that was validated is decoded, and imported unless the server fails. -/
def ValidationSound (filename : String) (w : World) : Prop :=
  validateSnapshot env filename w = true → ∀ items, readSnapshot env filename w = .ok items →
    (∀ item ∈ items, ∃ d, DeviceCharacteristic.fromJson item = .ok d) ∧
    ((∀ n, env.fault n = none) → ∀ clearExisting, ∃ u,
      ((importFromJson env filename clearExisting) w).outcome = .ok () u)

/-! ## The types of the members -/

def IsString (j : Json) : Prop := ∃ s, j = .string s

def IsNumber (j : Json) : Prop := (∃ i, j = .integer i) ∨ ∃ x, j = .float x

/-- A number whose integer part is a 64-bit integer. -/
def IsInt64 (j : Json) : Prop :=
  (∃ i, j = .integer i) ∨ ∃ x, j = .float x ∧ x.isNaN = false ∧ x.isInfinite = false ∧
    -2 ^ 63 ≤ x.toRat.num.tdiv x.toRat.den ∧ x.toRat.num.tdiv x.toRat.den < 2 ^ 63

/-- A member that may be absent or null. -/
def OptionalMember (typed : Json → Prop) (members : List (String × Json)) (key : String) : Prop :=
  ∀ j, members.lookup key = some j → j = .null ∨ typed j

def textKeys : List String :=
  ["barrier_gate", "plunger_gate", "reservoir_gate", "screening_gate", "extra", "hash",
    "device_state", "unit_name"]

structure WellTyped (members : List (String × Json)) : Prop where
  required : ∀ key ∈ ["scope", "name"], ∀ j, members.lookup key = some j → IsString j
  texts : ∀ key ∈ textKeys, OptionalMember IsString members key
  uncertainty : OptionalMember IsNumber members "uncertainty"
  recordtime : OptionalMember IsInt64 members "recordtime"

/-! ## What is decoded -/

theorem bind_ok_iff {α β ε : Type} {x : Except ε α} {f : α → Except ε β} {P : Prop}
    (h : ∀ a, (∃ b, f a = .ok b) ↔ P) : (∃ b, (x >>= f) = .ok b) ↔ (∃ a, x = .ok a) ∧ P := by
  cases x with
  | error e =>
    refine iff_of_false ?_ ?_
    · rintro ⟨b, hb⟩
      cases hb
    · rintro ⟨⟨a, ha⟩, _⟩
      cases ha
  | ok a =>
    rw [and_iff_right ⟨a, rfl⟩]
    exact h a

theorem getString_ok_iff {j : Json} : (∃ s, j.getString = .ok s) ↔ IsString j := by
  cases j with
  | string s => exact iff_of_true ⟨s, rfl⟩ ⟨s, rfl⟩
  | _ =>
    refine iff_of_false ?_ ?_
    · rintro ⟨_, h⟩
      cases h
    · rintro ⟨_, h⟩
      cases h

theorem getDouble_ok_iff {j : Json} : (∃ x, j.getDouble = .ok x) ↔ IsNumber j := by
  cases j with
  | integer i => exact iff_of_true ⟨_, rfl⟩ (.inl ⟨i, rfl⟩)
  | float x => exact iff_of_true ⟨x, rfl⟩ (.inr ⟨x, rfl⟩)
  | _ =>
    refine iff_of_false ?_ ?_
    · rintro ⟨_, h⟩
      cases h
    · rintro (⟨_, h⟩ | ⟨_, h⟩) <;> cases h

theorem truncate_ok_iff {x : Binary64} : (∃ i, Json.truncate x = .ok i) ↔
    x.isNaN = false ∧ x.isInfinite = false ∧
      -2 ^ 63 ≤ x.toRat.num.tdiv x.toRat.den ∧ x.toRat.num.tdiv x.toRat.den < 2 ^ 63 := by
  unfold Json.truncate
  by_cases hbad : (x.isNaN || x.isInfinite) = true
  · rw [if_pos hbad]
    refine iff_of_false nofun ?_
    rintro ⟨hnan, hinf, _⟩
    rw [hnan, hinf] at hbad
    cases hbad
  · rw [if_neg hbad]
    obtain ⟨hnan, hinf⟩ := Bool.or_eq_false_iff.mp (Bool.not_eq_true _ ▸ hbad)
    rw [and_iff_right hnan, and_iff_right hinf]
    by_cases hrange : -2 ^ 63 ≤ x.toRat.num.tdiv x.toRat.den ∧ x.toRat.num.tdiv x.toRat.den < 2 ^ 63
    · rw [if_pos hrange]
      exact iff_of_true ⟨_, rfl⟩ hrange
    · rw [if_neg hrange]
      exact iff_of_false nofun hrange

theorem getInt64_ok_iff {j : Json} : (∃ i, j.getInt64 = .ok i) ↔ IsInt64 j := by
  cases j with
  | integer i => exact iff_of_true ⟨_, rfl⟩ (.inl ⟨i, rfl⟩)
  | float x =>
    refine truncate_ok_iff.trans ⟨fun h => .inr ⟨x, rfl, h⟩, ?_⟩
    rintro (⟨_, h⟩ | ⟨_, hx, h⟩)
    · cases h
    · cases hx
      exact h
  | _ =>
    refine iff_of_false ?_ ?_
    · rintro ⟨_, h⟩
      cases h
    · rintro (⟨_, h⟩ | ⟨_, h, _⟩) <;> cases h

theorem valueString_ok_iff {members : List (String × Json)} {key : String} :
    (∃ s, (Json.object members).valueString key = .ok s) ↔
      ∀ j, members.lookup key = some j → IsString j := by
  unfold Json.valueString
  dsimp only
  cases hl : members.lookup key with
  | none => exact iff_of_true ⟨_, rfl⟩ nofun
  | some j =>
    refine getString_ok_iff.trans ⟨fun h j' hj => ?_, fun h => h j rfl⟩
    cases hj
    exact h

theorem getOpt_ok_iff {α : Type} {get : Json → Except JsonFailure α} {typed : Json → Prop}
    (hget : ∀ {j : Json}, (∃ a, get j = .ok a) ↔ typed j) {members : List (String × Json)}
    {key : String} :
    (∃ a, getOpt get key (.object members) = .ok a) ↔
      OptionalMember typed members key := by
  unfold getOpt OptionalMember
  rw [Json.find?_object]
  cases hl : members.lookup key with
  | none => exact iff_of_true ⟨_, rfl⟩ nofun
  | some j =>
    have hmember : (∃ a, (get j).map some = .ok a) ↔ typed j := by
      rw [← hget]
      cases get j with
      | ok a => exact iff_of_true ⟨_, rfl⟩ ⟨a, rfl⟩
      | error e => exact iff_of_false nofun nofun
    have hone : (∀ j', some j = some j' → j' = .null ∨ typed j') ↔ j = .null ∨ typed j := by
      refine ⟨fun h => h j rfl, fun h j' hj => ?_⟩
      cases hj
      exact h
    rw [hone]
    cases j with
    | null => exact iff_of_true ⟨_, rfl⟩ (.inl rfl)
    | _ =>
      refine hmember.trans ⟨.inr, ?_⟩
      rintro (h | h)
      · cases h
      · exact h

/-- An item with a characteristic is decoded when its members have the right types. -/
theorem fromJson_ok_iff {members : List (String × Json)} {characteristic : Json}
    (h : members.lookup "characteristic" = some characteristic) :
    (∃ d, DeviceCharacteristic.fromJson (.object members) = .ok d) ↔ WellTyped members := by
  have hlast : ∃ j, characteristicMember (.object members) = .ok j := by
    refine ⟨characteristic, ?_⟩
    unfold characteristicMember
    rw [Json.find?_object, h]
  have hsteps : (∃ d, DeviceCharacteristic.fromJson (.object members) = .ok d) ↔
      (∃ s, (Json.object members).valueString "scope" = .ok s) ∧
      (∃ s, (Json.object members).valueString "name" = .ok s) ∧
      (∃ s, getOpt Json.getString "barrier_gate" (.object members) = .ok s) ∧
      (∃ s, getOpt Json.getString "plunger_gate" (.object members) = .ok s) ∧
      (∃ s, getOpt Json.getString "reservoir_gate" (.object members) = .ok s) ∧
      (∃ s, getOpt Json.getString "screening_gate" (.object members) = .ok s) ∧
      (∃ s, getOpt Json.getString "extra" (.object members) = .ok s) ∧
      (∃ x, getOpt Json.getDouble "uncertainty" (.object members) = .ok x) ∧
      (∃ s, getOpt Json.getString "hash" (.object members) = .ok s) ∧
      (∃ i, getOpt Json.getInt64 "recordtime" (.object members) = .ok i) ∧
      (∃ s, getOpt Json.getString "device_state" (.object members) = .ok s) ∧
      (∃ s, getOpt Json.getString "unit_name" (.object members) = .ok s) ∧
      (∃ j, characteristicMember (.object members) = .ok j) ∧ True :=
    bind_ok_iff fun _ => bind_ok_iff fun _ => bind_ok_iff fun _ => bind_ok_iff fun _ =>
      bind_ok_iff fun _ => bind_ok_iff fun _ => bind_ok_iff fun _ => bind_ok_iff fun _ =>
        bind_ok_iff fun _ => bind_ok_iff fun _ => bind_ok_iff fun _ => bind_ok_iff fun _ =>
          bind_ok_iff fun _ => iff_of_true ⟨_, rfl⟩ trivial
  refine hsteps.trans ?_
  rw [and_iff_left trivial, and_iff_left hlast]
  simp only [valueString_ok_iff, getOpt_ok_iff getString_ok_iff, getOpt_ok_iff getDouble_ok_iff,
    getOpt_ok_iff getInt64_ok_iff]
  constructor
  · rintro ⟨hscope, hname, h₁, h₂, h₃, h₄, h₅, huncertainty, h₆, htime, h₇, h₈⟩
    refine ⟨?_, ?_, huncertainty, htime⟩
    · simp only [List.forall_mem_cons]
      exact ⟨hscope, hname, nofun⟩
    · unfold textKeys
      simp only [List.forall_mem_cons]
      exact ⟨h₁, h₂, h₃, h₄, h₅, h₆, h₇, h₈, nofun⟩
  · rintro ⟨hrequired, htexts, huncertainty, htime⟩
    unfold textKeys at htexts
    simp only [List.forall_mem_cons] at hrequired htexts
    obtain ⟨hscope, hname, _⟩ := hrequired
    obtain ⟨h₁, h₂, h₃, h₄, h₅, h₆, h₇, h₈, _⟩ := htexts
    exact ⟨hscope, hname, h₁, h₂, h₃, h₄, h₅, huncertainty, h₆, htime, h₇, h₈⟩

/-! ## What is imported -/

theorem exists_map_ok {α β ε : Type} {f : α → Except ε β} {xs : List α}
    (h : ∀ x ∈ xs, ∃ y, f x = .ok y) : ∃ ys : List β, ys.map .ok = xs.map f := by
  obtain ⟨ys, hys⟩ := exists_mapM_eq_ok h
  exact ⟨ys, (mapM_eq_ok hys).symm⟩

theorem importFromJson_decoded (hfault : ∀ n, env.fault n = none) {filename : String}
    (clearExisting : Bool) {items : List Json} {records : List DeviceCharacteristic} {w : World}
    (hread : readSnapshot env filename w = .ok items)
    (h : records.map .ok = items.map DeviceCharacteristic.fromJson) :
    ∃ u, ((importFromJson env filename clearExisting) w).outcome = .ok () u := by
  cases clearExisting with
  | true => exact importFromJson_ok env hfault hread h
  | false =>
    obtain ⟨u, hu⟩ := importItems_ok env hfault h w
    refine ⟨u, ?_⟩
    rw [importFromJson_of_read env hread]
    exact Comp.tryCatch_of_ok hu

theorem exists_characteristic {members : List (String × Json)}
    (h : validItem (.object members) = true) : ∃ j, members.lookup "characteristic" = some j := by
  change (_ && _ && (members.lookup "characteristic").isSome) = true at h
  rw [Bool.and_eq_true] at h
  exact Option.isSome_iff_exists.mp h.2

/-- Validation keeps its promise on the files whose accepted items are well typed. -/
theorem validationSound_iff {filename : String} {w : World} :
    ValidationSound env filename w ↔ ∀ items, readSnapshot env filename w = .ok items →
      (∀ item ∈ items, validItem item = true) →
        ∀ members, .object members ∈ items → WellTyped members := by
  constructor
  · intro hsound items hread hvalid members hm
    have hvalidated := (validateSnapshot_iff env).mpr ⟨items, hread, hvalid⟩
    obtain ⟨hdecodes, _⟩ := hsound hvalidated items hread
    obtain ⟨_, hcharacteristic⟩ := exists_characteristic (hvalid _ hm)
    exact (fromJson_ok_iff hcharacteristic).mp (hdecodes _ hm)
  · intro htyped hvalidated items hread
    obtain ⟨items', hread', hvalid⟩ := (validateSnapshot_iff env).mp hvalidated
    obtain rfl : items = items' := Except.ok.inj (hread.symm.trans hread')
    have hdecodes : ∀ item ∈ items, ∃ d, DeviceCharacteristic.fromJson item = .ok d := by
      intro item hm
      have hitem := hvalid item hm
      cases item with
      | object members =>
        obtain ⟨_, hcharacteristic⟩ := exists_characteristic hitem
        exact (fromJson_ok_iff hcharacteristic).mpr (htyped items hread hvalid members hm)
      | _ => cases hitem
    refine ⟨hdecodes, fun hfault clearExisting => ?_⟩
    obtain ⟨records, hrecords⟩ := exists_map_ok hdecodes
    exact importFromJson_decoded env hfault clearExisting hread hrecords

/-! A snapshot whose record has no name. -/

def namelessText : String :=
  "[\x7b\"characteristic\":1,\"name\":null,\"scope\":\"s\"\x7d]"

def namelessItem : Json :=
  .object [("characteristic", one), ("name", .null), ("scope", .string "s")]

def namelessEnv : Environment where
  json :=
    { dump := fun _ _ => "1"
      parse := fun _ => .ok one
      extract := fun text => if text = namelessText then .ok (.array [namelessItem]) else .error "parse error" }
  fault _ := none
  order rows := rows
  order_perm := List.Perm.refl
  writable _ := true

def namelessWorld : World := ⟨[], 0, StdMap.assign ∅ "snapshot.json" namelessText⟩

theorem readSnapshot_nameless :
    readSnapshot namelessEnv "snapshot.json" namelessWorld = .ok [namelessItem] := by
  simp [readSnapshot, namelessWorld, namelessEnv]

theorem not_validationSound_nameless :
    validateSnapshot namelessEnv "snapshot.json" namelessWorld = true ∧
    ((importFromJson namelessEnv "snapshot.json" false) namelessWorld).outcome = .throw
      "Import error: [json.exception.type_error.302] type must be string, but is null"
      namelessWorld ∧
    ¬ValidationSound namelessEnv "snapshot.json" namelessWorld := by
  have hvalid : validateSnapshot namelessEnv "snapshot.json" namelessWorld = true := by
    refine (validateSnapshot_iff namelessEnv).mpr ⟨_, readSnapshot_nameless, ?_⟩
    exact List.forall_mem_singleton.mpr rfl
  refine ⟨hvalid, ?_, fun hsound => ?_⟩
  · rw [importFromJson_of_read namelessEnv readSnapshot_nameless]
    rfl
  · obtain ⟨hdecodes, _⟩ := hsound hvalid _ readSnapshot_nameless
    obtain ⟨d, hd⟩ := hdecodes namelessItem (List.mem_singleton_self _)
    cases hd

end SnapshotManager

end FalconLib.Database
