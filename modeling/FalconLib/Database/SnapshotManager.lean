import FalconLib.Database.DatabaseConnection

/-!
# Snapshots of the table

An export writes the records of the table into a JSON file. An import clears the table if it
is asked to and inserts the records of a file one by one, each in a transaction of its own.
-/

namespace FalconLib.Database

open FalconLib.Base

variable (env : Environment)

/-- An exception keeps its text behind a label. -/
def labelled {α : Type} (label : String) (m : Db α) : Db α :=
  Comp.tryCatch m fun e => Comp.throw (label ++ e)

theorem labelled_eq_throw {α : Type} {label e : String} {m : Db α} {w u : World}
    (h : ((labelled label m) w).outcome = .throw e u) :
    ∃ what, (m w).outcome = .throw what u ∧ label ++ what = e := by
  obtain ⟨what, t, hm, hthrow⟩ := Comp.tryCatch_eq_throw h
  cases hthrow
  exact ⟨what, hm, rfl⟩

theorem labelled_congr {α : Type} {label : String} {m m' : Db α} {w : World} (h : m w = m' w) :
    (labelled label m) w = (labelled label m') w := by
  unfold labelled Comp.tryCatch
  rw [h]

theorem labelled_eq_ok {α : Type} {label : String} {a : α} {m : Db α} {w u : World}
    (h : ((labelled label m) w).outcome = .ok a u) : (m w).outcome = .ok a u := by
  obtain h | ⟨_, _, _, h⟩ := Comp.tryCatch_eq_ok h
  · exact h
  · cases h

namespace SnapshotManager

def writeFile (filename text : String) : Db Unit :=
  if env.writable filename then
    Comp.modify fun w => { w with files := w.files.assign filename text }
  else Comp.throw ("Failed to open file for writing: " ++ filename)

/-- The text of a snapshot. -/
def snapshotText (characteristics : List DeviceCharacteristic) : String :=
  env.json.dump (some 2) (.array (characteristics.map DeviceCharacteristic.toJson))

def exportToJson (filename : String) : Db Unit :=
  labelled "Export error: " do
    let characteristics ← getAll env
    writeFile env filename (snapshotText env characteristics)

/-- `from_json` in the middle of an import. -/
def decode (item : Json) : Db DeviceCharacteristic :=
  match DeviceCharacteristic.fromJson item with
  | .ok d => pure d
  | .error (.exception what) => Comp.throw what
  | .error .undefined => Comp.halt .undefinedBehaviour

def importItems : List Json → Db Unit
  | [] => pure ()
  | item :: rest => do
    let dchar ← decode item
    insert env dchar
    importItems rest

def importArray (clearExisting : Bool) (items : List Json) : Db Unit := do
  if clearExisting then clearAll env
  importItems env items

/-- What the file holds as JSON, checked to be an array. -/
def readSnapshot (filename : String) (w : World) : Except String (List Json) :=
  match w.files[filename]? with
  | none => .error ("Failed to open file for reading: " ++ filename)
  | some text =>
    match env.json.extract text with
    | .error what => .error what
    | .ok (.array items) => .ok items
    | .ok _ => .error "Invalid snapshot format: expected array"

def importSnapshot (clearExisting : Bool) : Except String (List Json) → Db Unit
  | .ok items => importArray env clearExisting items
  | .error what => Comp.throw what

def importFromJson (filename : String) (clearExisting : Bool) : Db Unit :=
  labelled "Import error: " do
    let snapshot ← Comp.gets (readSnapshot env filename)
    importSnapshot env clearExisting snapshot

/-! ## How far an import gets -/

/-- The rows an import starts from once it has cleared what it must. -/
def keptRows (clearExisting : Bool) (w : World) : List Row := if clearExisting then [] else w.rows

/-- The rows of records that were inserted. -/
def insertedRows (records : List DeviceCharacteristic) : List Row :=
  records.map (insertedRow env.json)

/-- These items at the front of a list decode to these records. -/
def Decoded (items : List Json) (records : List DeviceCharacteristic) : Prop :=
  records.map (Except.ok (ε := JsonFailure)) <+: items.map DeviceCharacteristic.fromJson

theorem decode_eq_ok {item : Json} {d : DeviceCharacteristic} {w u : World}
    (h : ((decode item) w).outcome = .ok d u) :
    w = u ∧ DeviceCharacteristic.fromJson item = .ok d := by
  unfold decode at h
  cases hj : DeviceCharacteristic.fromJson item with
  | ok d' =>
    rw [hj] at h
    cases h
    exact ⟨rfl, rfl⟩
  | error failure =>
    rw [hj] at h
    cases failure <;> cases h

theorem decode_eq_throw {item : Json} {e : String} {w u : World}
    (h : ((decode item) w).outcome = .throw e u) : w = u := by
  unfold decode at h
  cases hj : DeviceCharacteristic.fromJson item with
  | ok d' =>
    rw [hj] at h
    cases h
  | error failure =>
    rw [hj] at h
    cases failure with
    | exception what => cases h; rfl
    | undefined => cases h

theorem decode_of_ok {item : Json} {d : DeviceCharacteristic}
    (h : DeviceCharacteristic.fromJson item = .ok d) (w : World) :
    ((decode item) w).outcome = .ok d w := by
  unfold decode
  rw [h]
  rfl

theorem decoded_nil (items : List Json) : Decoded items [] := List.nil_prefix

theorem Decoded.cons {item : Json} {rest : List Json} {d : DeviceCharacteristic}
    {records : List DeviceCharacteristic} (h : Decoded rest records)
    (hd : DeviceCharacteristic.fromJson item = .ok d) : Decoded (item :: rest) (d :: records) := by
  unfold Decoded
  rw [List.map_cons, List.map_cons, hd]
  exact List.cons_prefix_cons.mpr ⟨rfl, h⟩

/-- A failed insertion leaves the rows alone or has added the whole record. -/
theorem insert_eq_throw {d : DeviceCharacteristic} {e : String} {w u : World}
    (h : ((insert env d) w).outcome = .throw e u) :
    u.files = w.files ∧ (u.rows = w.rows ∨ u.rows = w.rows ++ insertedRows env [d]) := by
  have hu := update_updated env "Insert error: " (· ++ [insertedRow env.json d]) w
  unfold insert at h
  rw [h] at hu
  cases hu with
  | failed => exact ⟨rfl, .inl rfl⟩
  | inDoubt => exact ⟨rfl, .inr rfl⟩

theorem insert_eq_ok {d : DeviceCharacteristic} {w u : World}
    (h : ((insert env d) w).outcome = .ok () u) :
    u.files = w.files ∧ u.rows = w.rows ++ insertedRows env [d] := by
  have hu := update_updated env "Insert error: " (· ++ [insertedRow env.json d]) w
  unfold insert at h
  rw [h] at hu
  cases hu with
  | done => exact ⟨rfl, rfl⟩

theorem insertedRows_cons (d : DeviceCharacteristic) (records : List DeviceCharacteristic)
    (rows : List Row) :
    rows ++ insertedRows env [d] ++ insertedRows env records =
      rows ++ insertedRows env (d :: records) := by
  rw [List.append_assoc]
  rfl

/-- Insertions that stop half-way have added the records before the one that failed. -/
theorem importItems_eq_throw {items : List Json} {e : String} {w u : World}
    (h : ((importItems env items) w).outcome = .throw e u) :
    u.files = w.files ∧
      ∃ records, Decoded items records ∧ u.rows = w.rows ++ insertedRows env records := by
  induction items generalizing w with
  | nil => cases h
  | cons item rest ih =>
    unfold importItems at h
    obtain h | ⟨d, t, hd, h⟩ := Comp.bind_eq_throw h
    · obtain rfl := decode_eq_throw h
      exact ⟨rfl, [], decoded_nil _, (List.append_nil _).symm⟩
    obtain ⟨rfl, hitem⟩ := decode_eq_ok hd
    obtain h | ⟨_, v, hinsert, h⟩ := Comp.bind_eq_throw h
    · obtain ⟨hfiles, hrows | hrows⟩ := insert_eq_throw env h
      · exact ⟨hfiles, [], decoded_nil _, hrows.trans (List.append_nil _).symm⟩
      · exact ⟨hfiles, [d], (decoded_nil rest).cons hitem, hrows⟩
    · obtain ⟨hfiles, hrows⟩ := insert_eq_ok env hinsert
      obtain ⟨hfiles', records, hrecords, hrows'⟩ := ih h
      refine ⟨hfiles'.trans hfiles, d :: records, hrecords.cons hitem, ?_⟩
      rw [hrows', hrows, insertedRows_cons]

theorem importItems_eq_ok {items : List Json} {w u : World}
    (h : ((importItems env items) w).outcome = .ok () u) :
    ∃ records, records.map .ok = items.map DeviceCharacteristic.fromJson ∧
      u.rows = w.rows ++ insertedRows env records := by
  induction items generalizing w with
  | nil =>
    cases h
    exact ⟨[], rfl, (List.append_nil _).symm⟩
  | cons item rest ih =>
    unfold importItems at h
    obtain ⟨d, t, hd, h⟩ := Comp.bind_eq_ok h
    obtain ⟨rfl, hitem⟩ := decode_eq_ok hd
    obtain ⟨_, v, hinsert, h⟩ := Comp.bind_eq_ok h
    obtain ⟨hfiles, hrows⟩ := insert_eq_ok env hinsert
    obtain ⟨records, hrecords, hrows'⟩ := ih h
    refine ⟨d :: records, ?_, ?_⟩
    · rw [List.map_cons, List.map_cons, hitem, hrecords]
    · rw [hrows', hrows, insertedRows_cons]

/-- The import found an array in the file, and stopped in the middle of it. -/
theorem importArray_eq_throw {clearExisting : Bool} {items : List Json} {e : String} {w u : World}
    (h : ((importArray env clearExisting items) w).outcome = .throw e u) :
    u.files = w.files ∧ (u.rows = w.rows ∨ ∃ records, Decoded items records ∧
      u.rows = keptRows clearExisting w ++ insertedRows env records) := by
  cases clearExisting with
  | false =>
    obtain ⟨hfiles, hrows⟩ := importItems_eq_throw env (w := w) h
    exact ⟨hfiles, .inr hrows⟩
  | true =>
    have hu := update_updated env "Clear all error: " (fun _ => []) w
    obtain h | ⟨_, t, hclear, h⟩ := Comp.bind_eq_throw (m := clearAll env) h
    · unfold clearAll at h
      rw [h] at hu
      cases hu with
      | failed => exact ⟨rfl, .inl rfl⟩
      | inDoubt => exact ⟨rfl, .inr ⟨[], decoded_nil _, rfl⟩⟩
    · unfold clearAll at hclear
      rw [hclear] at hu
      cases hu with
      | done =>
        obtain ⟨hfiles, hrows⟩ := importItems_eq_throw env h
        exact ⟨hfiles, .inr hrows⟩

theorem importFromJson_of_read {filename : String} {clearExisting : Bool} {items : List Json}
    {w : World} (h : readSnapshot env filename w = .ok items) :
    (importFromJson env filename clearExisting) w =
      (labelled "Import error: " (importArray env clearExisting items)) w := by
  refine labelled_congr ?_
  change importSnapshot env clearExisting (readSnapshot env filename w) w = _
  rw [h]
  rfl

/-- An import that throws has changed nothing, or has cleared the table if it was asked to and
inserted the first few records of the snapshot. -/
theorem importFromJson_eq_throw {filename e : String} {clearExisting : Bool} {w u : World}
    (h : ((importFromJson env filename clearExisting) w).outcome = .throw e u) :
    u.files = w.files ∧ (u.rows = w.rows ∨ ∃ items records,
      readSnapshot env filename w = .ok items ∧ Decoded items records ∧
      u.rows = keptRows clearExisting w ++ insertedRows env records) := by
  obtain ⟨what, h, _⟩ := labelled_eq_throw h
  rw [Comp.outcome_gets_bind] at h
  cases hread : readSnapshot env filename w with
  | error what' =>
    rw [hread] at h
    cases h
    exact ⟨rfl, .inl rfl⟩
  | ok items =>
    rw [hread] at h
    obtain ⟨hfiles, hrows⟩ := importArray_eq_throw env h
    exact ⟨hfiles, hrows.imp_right fun ⟨records, hd, hr⟩ => ⟨items, records, rfl, hd, hr⟩⟩

/-! A snapshot of one record and a number, imported into a table of one row. -/

theorem one_lower : -2 ^ 63 ≤ (1 : Int) := by decide

theorem one_upper : (1 : Int) < 2 ^ 64 := by decide

def one : Json := .integer ⟨1, one_lower, one_upper⟩

def oneMembers : List (String × Json) :=
  [("characteristic", one), ("name", .string "n"),
    ("scope", .string "s")]

def brokenText : String :=
  "[\x7b\"characteristic\":1,\"name\":\"n\",\"scope\":\"s\"\x7d,1]"

def brokenEnv : Environment where
  json :=
    { dump := fun _ _ => "1"
      parse := fun _ => .ok one
      extract := fun text =>
        if text = brokenText then
          .ok (.array [.object oneMembers, one])
        else .error "parse error" }
  fault _ := none
  order rows := rows
  order_perm := List.Perm.refl
  writable _ := true

def heldRow : Row :=
  ⟨cStr "lab", cStr "gain", none, none, none, none, none, none, none, none, none, none, some "1"⟩

def heldWorld : World := ⟨[heldRow], 0, StdMap.assign ∅ "snapshot.json" brokenText⟩

theorem readSnapshot_heldWorld :
    readSnapshot brokenEnv "snapshot.json" heldWorld =
      .ok [.object oneMembers, one] := by
  simp [readSnapshot, heldWorld, brokenEnv]

def brokenRecord : DeviceCharacteristic where
  scope := "s"
  name := "n"
  barrierGate := none
  plungerGate := none
  reservoirGate := none
  screeningGate := none
  extra := none
  uncertainty := none
  hash := none
  time := none
  state := none
  unitName := none
  characteristic := one

theorem importFromJson_heldWorld :
    ((importFromJson brokenEnv "snapshot.json" true) heldWorld).outcome =
      .throw "Import error: [json.exception.type_error.306] cannot use value() with number"
        ⟨insertedRows brokenEnv [brokenRecord], 2, heldWorld.files⟩ := by
  rw [importFromJson_of_read brokenEnv readSnapshot_heldWorld]
  rfl

theorem not_rows_eq_of_throw :
    ¬ ∀ (env : Environment) (filename : String) (clearExisting : Bool) (e : String) (w u : World),
      ((importFromJson env filename clearExisting) w).outcome = .throw e u → u.rows = w.rows := by
  intro h
  have hrows := h _ _ _ _ _ _ importFromJson_heldWorld
  have hnames := congrArg (List.map fun row => row.name.value) hrows
  exact absurd hnames (by decide)

theorem importFromJson_eq_throw_heldWorld :
    ∃ items records, readSnapshot brokenEnv "snapshot.json" heldWorld = .ok items ∧
      Decoded items records ∧
      insertedRows brokenEnv [brokenRecord] = keptRows true heldWorld ++ insertedRows brokenEnv records := by
  obtain ⟨_, hrows | h⟩ := importFromJson_eq_throw brokenEnv importFromJson_heldWorld
  · exact absurd (congrArg (List.map fun row => row.name.value) hrows) (by decide)
  · exact h

end SnapshotManager

end FalconLib.Database
