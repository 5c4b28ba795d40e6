import FalconLib.Database.SnapshotManager

/-!
# Export, then import

The import of an exported snapshot restores the records of the table, whatever order the
server lists them in. Each optional field passes the encoder, the text, the decoder and the row.
-/

namespace FalconLib.Database

open FalconLib.Base

namespace SnapshotManager

variable (env : Environment)

/-- The documents that an export of the table and the import of the snapshot print. -/
def Printed (w : World) (indent : Option Nat) (j : Json) : Prop :=
  ∃ ds, (env.order w.rows).mapM (dcharFromRow env.json) = .ok ds ∧
    (indent = some 2 ∧ j = .array (ds.map DeviceCharacteristic.toJson) ∨
      indent = none ∧ ∃ d ∈ ds, j = d.characteristic)

theorem exportToJson_eq_ok {filename : String} {w u : World}
    (h : ((exportToJson env filename) w).outcome = .ok () u) :
    ∃ ds, (env.order w.rows).mapM (dcharFromRow env.json) = .ok ds ∧
      u.files[filename]? = some (snapshotText env ds) := by
  obtain ⟨ds, t, hall, h⟩ := Comp.bind_eq_ok (labelled_eq_ok h)
  obtain ⟨rfl, hds⟩ := getAll_eq_ok env hall
  unfold writeFile at h
  by_cases hw : env.writable filename
  · rw [if_pos hw] at h
    cases h
    exact ⟨ds, hds, StdMap.getElem?_assign_self _ _ _⟩
  · rw [if_neg hw] at h
    cases h

theorem exists_decoded {w : World} (hrows : ∀ row ∈ w.rows, row.Readable env.json) :
    ∃ ds, (env.order w.rows).mapM (dcharFromRow env.json) = .ok ds := by
  refine exists_mapM_eq_ok fun row hrow => ?_
  obtain ⟨j, hj⟩ := (hrows row ((env.order_perm w.rows).mem_iff.mp hrow)).parses
  refine ⟨row.record j, ?_⟩
  unfold dcharFromRow
  rw [hj]
  rfl

theorem exportToJson_ok {filename : String} {w : World} (hfault : env.fault w.served = none)
    (hwritable : env.writable filename) (hrows : ∀ row ∈ w.rows, row.Readable env.json) :
    ∃ u, ((exportToJson env filename) w).outcome = .ok () u := by
  obtain ⟨ds, hds⟩ := exists_decoded env hrows
  have hwrite : (writeFile env filename (snapshotText env ds) w.skip).outcome =
      .ok () { w.skip with files := w.files.assign filename (snapshotText env ds) } := by
    unfold writeFile
    rw [if_pos hwritable]
    rfl
  exact ⟨_, Comp.tryCatch_of_ok ((Comp.bind_of_ok (getAll_ok env hfault hds)).trans hwrite)⟩

theorem importFromJson_eq_ok {filename : String} {clearExisting : Bool} {items : List Json}
    {w u : World} (hread : readSnapshot env filename w = .ok items)
    (h : ((importFromJson env filename clearExisting) w).outcome = .ok () u) :
    ∃ records, records.map .ok = items.map DeviceCharacteristic.fromJson ∧
      u.rows = keptRows clearExisting w ++ insertedRows env records := by
  rw [importFromJson_of_read env hread] at h
  replace h := labelled_eq_ok h
  cases clearExisting with
  | false => exact importItems_eq_ok env (w := w) h
  | true =>
    obtain ⟨_, t, hclear, h⟩ := Comp.bind_eq_ok (m := clearAll env) h
    have hu := update_updated env "Clear all error: " (fun _ => []) w
    unfold clearAll at hclear
    rw [hclear] at hu
    cases hu with
    | done => exact importItems_eq_ok env h

theorem importItems_ok (hfault : ∀ n, env.fault n = none) {items : List Json}
    {records : List DeviceCharacteristic}
    (h : records.map .ok = items.map DeviceCharacteristic.fromJson) (w : World) :
    ∃ u, ((importItems env items) w).outcome = .ok () u := by
  induction items generalizing w records with
  | nil => exact ⟨w, rfl⟩
  | cons item rest ih =>
    cases records with
    | nil => cases h
    | cons d records =>
      obtain ⟨hd, hrest⟩ := List.cons.inj h
      obtain ⟨u, hu⟩ := ih hrest (w.commit (· ++ [insertedRow env.json d]))
      refine ⟨u, ?_⟩
      unfold importItems
      rw [Comp.bind_of_ok (decode_of_ok hd.symm w)]
      exact (Comp.bind_of_ok (update_ok env _ _ (hfault _))).trans hu

theorem importFromJson_ok (hfault : ∀ n, env.fault n = none) {filename : String}
    {items : List Json} {records : List DeviceCharacteristic} {w : World}
    (hread : readSnapshot env filename w = .ok items)
    (h : records.map .ok = items.map DeviceCharacteristic.fromJson) :
    ∃ u, ((importFromJson env filename true) w).outcome = .ok () u := by
  obtain ⟨u, hu⟩ := importItems_ok env hfault h (w.commit fun _ => [])
  refine ⟨u, ?_⟩
  rw [importFromJson_of_read env hread]
  refine Comp.tryCatch_of_ok ?_
  exact (Comp.bind_of_ok (m := clearAll env) (update_ok env _ _ (hfault _))).trans hu

theorem finite_of_decoded {w : World} {ds : List DeviceCharacteristic}
    (hjson : env.json.Faithful (Printed env w)) (hrows : ∀ row ∈ w.rows, row.Readable env.json)
    (hds : (env.order w.rows).mapM (dcharFromRow env.json) = .ok ds) {d : DeviceCharacteristic}
    (hd : d ∈ ds) : ∃ row ∈ w.rows, dcharFromRow env.json row = .ok d ∧ d.Finite := by
  have hmem : Except.ok d ∈ (env.order w.rows).map (dcharFromRow env.json) := by
    rw [mapM_eq_ok hds]
    exact List.mem_map_of_mem hd
  obtain ⟨row, hrow, hrecord⟩ := List.mem_map.mp hmem
  replace hrow := (env.order_perm w.rows).mem_iff.mp hrow
  exact ⟨row, hrow, hrecord, (hrows row hrow).finite_record hjson.document hrecord⟩

/-- A snapshot of readable rows is read back as the list of their records. -/
theorem readSnapshot_exported {filename : String} {w u : World} {ds : List DeviceCharacteristic}
    (hjson : env.json.Faithful (Printed env w)) (hrows : ∀ row ∈ w.rows, row.Readable env.json)
    (hds : (env.order w.rows).mapM (dcharFromRow env.json) = .ok ds)
    (hfile : u.files[filename]? = some (snapshotText env ds)) :
    readSnapshot env filename u = .ok (ds.map DeviceCharacteristic.toJson) := by
  have hdocument : (Json.array (ds.map DeviceCharacteristic.toJson)).Document := by
    refine .array _ fun j hj => ?_
    obtain ⟨d, hd, rfl⟩ := List.mem_map.mp hj
    obtain ⟨_, _, _, hfinite⟩ := finite_of_decoded env hjson hrows hds hd
    exact DeviceCharacteristic.document_toJson hfinite
  have htext := hjson.extract (some 2) _ ⟨ds, hds, .inl ⟨rfl, rfl⟩⟩ hdocument
  unfold readSnapshot
  rw [hfile]
  simp only [snapshotText, htext]

theorem fromJson_exported (ds : List DeviceCharacteristic) :
    (ds.map DeviceCharacteristic.toJson).map DeviceCharacteristic.fromJson = ds.map .ok := by
  rw [List.map_map]
  exact List.map_congr_left fun d _ => DeviceCharacteristic.fromJson_toJson d

/-- Every record that was exported is a row again, and no other row is left. -/
theorem perm_of_roundtrip {filename : String} {w u v : World}
    (hjson : env.json.Faithful (Printed env w)) (hrows : ∀ row ∈ w.rows, row.Readable env.json)
    (hexport : ((exportToJson env filename) w).outcome = .ok () u)
    (himport : ((importFromJson env filename true) u).outcome = .ok () v) :
    (v.rows.map (dcharFromRow env.json)).Perm (w.rows.map (dcharFromRow env.json)) := by
  obtain ⟨ds, hds, hfile⟩ := exportToJson_eq_ok env hexport
  obtain ⟨records, hrecords, hv⟩ :=
    importFromJson_eq_ok env (readSnapshot_exported env hjson hrows hds hfile) himport
  obtain rfl : records = ds := List.map_injective_iff.mpr (fun _ _ => Except.ok.inj)
    (hrecords.trans (fromJson_exported ds))
  have hreread : v.rows.map (dcharFromRow env.json) = records.map .ok := by
    rw [hv]
    change (records.map (insertedRow env.json)).map (dcharFromRow env.json) = _
    rw [List.map_map]
    refine List.map_congr_left fun d hd => ?_
    obtain ⟨row, _, hrow, hfinite⟩ := finite_of_decoded env hjson hrows hds hd
    exact dcharFromRow_insertedRow hrow
      (hjson.parse none _ ⟨records, hds, .inr ⟨rfl, d, hd, rfl⟩⟩ hfinite.characteristic)
  rw [hreread, ← mapM_eq_ok hds]
  exact (env.order_perm w.rows).map _

/-- Records survive the way through JSON, and tables the way through a snapshot. -/
theorem roundtrip :
    (∀ d : DeviceCharacteristic, DeviceCharacteristic.fromJson d.toJson = .ok d) ∧
    ∀ (env : Environment) (filename : String) (w : World), env.json.Faithful (Printed env w) →
      (∀ row ∈ w.rows, row.Readable env.json) →
      (∀ u v, ((exportToJson env filename) w).outcome = .ok () u →
        ((importFromJson env filename true) u).outcome = .ok () v →
        (v.rows.map (dcharFromRow env.json)).Perm (w.rows.map (dcharFromRow env.json))) ∧
      ((∀ n, env.fault n = none) → env.writable filename →
        ∃ u v, ((exportToJson env filename) w).outcome = .ok () u ∧
          ((importFromJson env filename true) u).outcome = .ok () v) := by
  refine ⟨DeviceCharacteristic.fromJson_toJson, fun env filename w hjson hrows =>
    ⟨fun u v => perm_of_roundtrip env hjson hrows, fun hfault hwritable => ?_⟩⟩
  obtain ⟨u, hu⟩ := exportToJson_ok env (hfault _) hwritable hrows
  obtain ⟨ds, hds, hfile⟩ := exportToJson_eq_ok env hu
  have hread := readSnapshot_exported env hjson hrows hds hfile
  obtain ⟨v, hv⟩ := importFromJson_ok env hfault hread (fromJson_exported ds).symm
  exact ⟨u, v, hu, hv⟩

/-! A table that holds one row twice. -/

def gainText : String :=
  "  \x7b\n    \"characteristic\": 1,\n    \"name\": \"gain\",\n    \"scope\": \"lab\"\n  \x7d"

def twiceText : String := "[\n" ++ gainText ++ ",\n" ++ gainText ++ "\n]"

def gain : DeviceCharacteristic := heldRow.record one

@[irreducible] def parseTwice (text : String) : Except String Json :=
  if text = twiceText then .ok (.array [gain.toJson, gain.toJson])
  else if text = "1" then .ok one
  else .error "parse error"

def twiceJson : JsonLibrary where
  dump indent _ := if indent = some 2 then twiceText else "1"
  parse := parseTwice
  extract := parseTwice

def twiceEnv : Environment where
  json := twiceJson
  fault _ := none
  order rows := rows
  order_perm := List.Perm.refl
  writable _ := true

def twiceWorld : World := ⟨[heldRow, heldRow], 0, ∅⟩

theorem document_one : one.Document := .integer _

theorem document_gain : gain.toJson.Document :=
  DeviceCharacteristic.document_toJson ⟨nofun, document_one⟩

theorem parseTwice_text : parseTwice twiceText = .ok (.array [gain.toJson, gain.toJson]) := by
  unfold parseTwice
  exact if_pos rfl

theorem parseTwice_one : parseTwice "1" = .ok one := by
  unfold parseTwice
  exact (if_neg (by decide +kernel)).trans (if_pos rfl)

theorem dcharFromRow_heldRow : dcharFromRow twiceEnv.json heldRow = .ok gain :=
  congrArg (Except.map heldRow.record) parseTwice_one

theorem printed_twice {indent : Option Nat} {j : Json} (h : Printed twiceEnv twiceWorld indent j) :
    indent = some 2 ∧ j = .array [gain.toJson, gain.toJson] ∨ indent = none ∧ j = one := by
  obtain ⟨ds, hds, h⟩ := h
  have hmap := mapM_eq_ok hds
  change [dcharFromRow twiceEnv.json heldRow, dcharFromRow twiceEnv.json heldRow] = _ at hmap
  rw [dcharFromRow_heldRow] at hmap
  obtain rfl : [gain, gain] = ds := List.map_injective_iff.mpr (fun _ _ => Except.ok.inj) hmap
  obtain h | ⟨hindent, d, hd, hj⟩ := h
  · exact .inl h
  · obtain rfl : d = gain := by simpa using hd
    exact .inr ⟨hindent, hj⟩

theorem faithful_twiceJson : twiceEnv.json.Faithful (Printed twiceEnv twiceWorld) := by
  refine ⟨fun text j h => ?_, fun indent j h _ => ?_, fun indent j h _ => ?_⟩
  · change parseTwice text = .ok j at h
    unfold parseTwice at h
    split_ifs at h
    · cases h
      exact .array _ (by simp [document_gain])
    · cases h
      exact document_one
  · obtain ⟨rfl, rfl⟩ | ⟨rfl, rfl⟩ := printed_twice h
    · exact parseTwice_text
    · exact parseTwice_one
  · obtain ⟨rfl, rfl⟩ | ⟨rfl, rfl⟩ := printed_twice h
    · exact parseTwice_text
    · exact parseTwice_one

theorem readable_heldRow : ∀ row ∈ twiceWorld.rows, row.Readable twiceEnv.json := by
  intro row hrow
  obtain rfl : row = heldRow := by simpa [twiceWorld] using hrow
  exact ⟨⟨one, parseTwice_one⟩, nofun⟩

theorem roundtrip_twice :
    ∃ u v, ((exportToJson twiceEnv "snapshot.json") twiceWorld).outcome = .ok () u ∧
      ((importFromJson twiceEnv "snapshot.json" true) u).outcome = .ok () v ∧
      (v.rows.map (dcharFromRow twiceEnv.json)).Perm
        (twiceWorld.rows.map (dcharFromRow twiceEnv.json)) := by
  obtain ⟨hperm, hreturns⟩ :=
    roundtrip.2 twiceEnv "snapshot.json" twiceWorld faithful_twiceJson readable_heldRow
  obtain ⟨u, v, hu, hv⟩ := hreturns (fun _ => rfl) rfl
  exact ⟨u, v, hu, hv, hperm u v hu hv⟩

end SnapshotManager

end FalconLib.Database
