import FalconLib.Base.Computation
import FalconLib.Base.StdMap
import FalconLib.Database.DeviceCharacteristic
import Mathlib.Data.List.TakeWhile

/-!
# The table of device characteristics

Every operation connects if it must and runs one transaction of its own. An oracle says what
goes wrong in which operation; a connection can also be lost after the commit was sent.
-/

namespace FalconLib.Database

open FalconLib.Base

/-! ## Rows -/

def nul : Char := Char.ofNat 0

/-- A value of a TEXT column. -/
structure Text where
  value : String
  noNul : nul ∉ value.toList

/-- What a `const char *` keeps of a string. -/
def cStr (s : String) : Text where
  value := String.ofList (s.toList.takeWhile (· ≠ nul))
  noNul h := by
    rw [String.toList_ofList] at h
    have hne := List.mem_takeWhile_imp h
    exact absurd rfl (of_decide_eq_true hne)

@[simp] theorem cStr_value (t : Text) : cStr t.value = t := by
  obtain ⟨s, h⟩ := t
  have hkeep : s.toList.takeWhile (· ≠ nul) = s.toList :=
    List.takeWhile_eq_self_iff.mpr fun c hc => decide_eq_true fun heq => h (heq ▸ hc)
  unfold cStr
  simp only [hkeep, String.ofList_toList]

/-- The columns that the statements of this library write and read. -/
structure Row where
  scope : Text
  name : Text
  barrierGate : Option Text
  plungerGate : Option Text
  reservoirGate : Option Text
  screeningGate : Option Text
  extra : Option Text
  uncertainty : Option Binary64
  hash : Option Text
  recordtime : Option Int64
  deviceState : Option Text
  unitName : Option Text
  deviceCharacteristic : Option String

/-- The JSON value in a column that may be NULL. -/
def columnJson (json : JsonLibrary) : Option String → Except String Json
  | some text => json.parse text
  | none => .ok .null

/-- The record in a row whose characteristic has been parsed. -/
def Row.record (row : Row) (characteristic : Json) : DeviceCharacteristic where
  scope := row.scope.value
  name := row.name.value
  barrierGate := row.barrierGate.map Text.value
  plungerGate := row.plungerGate.map Text.value
  reservoirGate := row.reservoirGate.map Text.value
  screeningGate := row.screeningGate.map Text.value
  extra := row.extra.map Text.value
  uncertainty := row.uncertainty
  hash := row.hash.map Text.value
  time := row.recordtime
  state := row.deviceState.map Text.value
  unitName := row.unitName.map Text.value
  characteristic := characteristic

/-- `dchar_from_row`. -/
def dcharFromRow (json : JsonLibrary) (row : Row) : Except String DeviceCharacteristic :=
  (columnJson json row.deviceCharacteristic).map row.record

/-- The parameters of the INSERT statement. -/
def insertedRow (json : JsonLibrary) (d : DeviceCharacteristic) : Row where
  scope := cStr d.scope
  name := cStr d.name
  barrierGate := d.barrierGate.map cStr
  plungerGate := d.plungerGate.map cStr
  reservoirGate := d.reservoirGate.map cStr
  screeningGate := d.screeningGate.map cStr
  extra := d.extra.map cStr
  uncertainty := d.uncertainty
  hash := d.hash.map cStr
  recordtime := d.time
  deviceState := d.state.map cStr
  unitName := d.unitName.map cStr
  deviceCharacteristic := some (json.dump none d.characteristic)

@[simp] theorem map_cStr_map_value (t : Option Text) : (t.map Text.value).map cStr = t := by
  cases t with
  | none => rfl
  | some t => exact congrArg some (cStr_value t)

/-- A record that was read from a row is read again from the row it is inserted as. -/
theorem dcharFromRow_insertedRow {json : JsonLibrary} {row : Row} {d : DeviceCharacteristic}
    (h : dcharFromRow json row = .ok d)
    (hparse : json.parse (json.dump none d.characteristic) = .ok d.characteristic) :
    dcharFromRow json (insertedRow json d) = .ok d := by
  unfold dcharFromRow at h
  cases hc : columnJson json row.deviceCharacteristic with
  | error e =>
    rw [hc] at h
    cases h
  | ok j =>
    rw [hc] at h
    obtain rfl : row.record j = d := Except.ok.inj h
    change json.parse (json.dump none j) = .ok j at hparse
    unfold dcharFromRow
    change (json.parse (json.dump none j)).map _ = _
    rw [hparse]
    simp only [Except.map, insertedRow, Row.record, cStr_value, map_cStr_map_value]

/-- A row of a table with this schema: its JSON column holds JSON. -/
structure Row.Readable (json : JsonLibrary) (row : Row) : Prop where
  parses : ∃ j, columnJson json row.deviceCharacteristic = .ok j
  finite : ∀ x, row.uncertainty = some x → x.isNaN = false ∧ x.isInfinite = false

theorem Row.Readable.finite_record {json : JsonLibrary} {row : Row} {d : DeviceCharacteristic}
    (h : row.Readable json) (hdocument : ∀ text j, json.parse text = .ok j → j.Document)
    (hd : dcharFromRow json row = .ok d) : d.Finite := by
  unfold dcharFromRow at hd
  cases hc : columnJson json row.deviceCharacteristic with
  | error e =>
    rw [hc] at hd
    cases hd
  | ok j =>
    rw [hc] at hd
    obtain rfl : row.record j = d := Except.ok.inj hd
    refine ⟨h.finite, ?_⟩
    change j.Document
    cases hcolumn : row.deviceCharacteristic with
    | none =>
      rw [hcolumn] at hc
      cases hc
      exact .null
    | some text =>
      rw [hcolumn] at hc
      exact hdocument text j hc

/-- A list decodes to the values that its elements decode to. -/
theorem mapM_eq_ok {α β ε : Type} {f : α → Except ε β} {xs : List α} {ys : List β}
    (h : xs.mapM f = .ok ys) : xs.map f = ys.map .ok := by
  induction xs generalizing ys with
  | nil =>
    cases h
    rfl
  | cons x xs ih =>
    rw [List.mapM_cons] at h
    cases hx : f x with
    | error e =>
      rw [hx] at h
      cases h
    | ok y =>
      rw [hx] at h
      cases hxs : xs.mapM f with
      | error e =>
        rw [hxs] at h
        cases h
      | ok zs =>
        rw [hxs] at h
        cases h
        rw [List.map_cons, List.map_cons, hx, ih hxs]

theorem exists_mapM_eq_ok {α β ε : Type} {f : α → Except ε β} {xs : List α}
    (h : ∀ x ∈ xs, ∃ y, f x = .ok y) : ∃ ys, xs.mapM f = .ok ys := by
  induction xs with
  | nil => exact ⟨[], rfl⟩
  | cons x xs ih =>
    obtain ⟨⟨y, hy⟩, hxs⟩ := List.forall_mem_cons.mp h
    obtain ⟨ys, hys⟩ := ih hxs
    refine ⟨y :: ys, ?_⟩
    rw [List.mapM_cons, hy, hys]
    rfl

/-! ## The server -/

/-- What goes wrong in one operation. -/
inductive Fault where
  | connect (what : String)
  /-- The transaction is rolled back. -/
  | statement (what : String)
  /-- The connection is lost while the transaction is committed. -/
  | commit (applied : Bool) (what : String)

structure World where
  rows : List Row
  /-- How many operations the server was asked for. -/
  served : Nat
  files : StdMap String

/-- What the program runs on. -/
structure Environment where
  json : JsonLibrary
  fault : Nat → Option Fault
  /-- `ORDER BY name, recordtime DESC`; ties and the collation are the server's. -/
  order : List Row → List Row
  order_perm : ∀ rows, (order rows).Perm rows
  writable : String → Bool

abbrev Db (α : Type) : Type := Comp Empty String World α

def World.skip (w : World) : World := { w with served := w.served + 1 }

def World.commit (write : List Row → List Row) (w : World) : World :=
  { w with rows := write w.rows, served := w.served + 1 }

variable (env : Environment)

/-- `ensure_connected`. -/
def ensureConnected : Db Unit := fun w =>
  match env.fault w.served with
  | some (.connect what) => ⟨[], .throw ("Database connection error: " ++ what) w.skip⟩
  | _ => ⟨[], .ok () w⟩

/-- One transaction that executes a statement and commits. -/
def transaction (write : List Row → List Row) : Db Unit := fun w =>
  match env.fault w.served with
  | none => ⟨[], .ok () (w.commit write)⟩
  | some (.connect what) => ⟨[], .throw what w.skip⟩
  | some (.statement what) => ⟨[], .throw what w.skip⟩
  | some (.commit applied what) => ⟨[], .throw what (if applied then w.commit write else w.skip)⟩

/-- The rest of an operation that changes the table. -/
def update (label : String) (write : List Row → List Row) : Db Unit := do
  ensureConnected env
  Comp.tryCatch (transaction env write) fun e => Comp.throw (label ++ e)

def insert (d : DeviceCharacteristic) : Db Unit :=
  update env "Insert error: " (· ++ [insertedRow env.json d])

def clearAll : Db Unit := update env "Clear all error: " fun _ => []

/-- A transaction that only reads has nothing to commit. -/
def select : Db (List Row) := fun w =>
  match env.fault w.served with
  | none => ⟨[], .ok (env.order w.rows) w.skip⟩
  | some (.connect what) => ⟨[], .throw what w.skip⟩
  | some (.statement what) => ⟨[], .throw what w.skip⟩
  | some (.commit _ what) => ⟨[], .throw what w.skip⟩

def decodeRows (rows : List Row) : Db (List DeviceCharacteristic) :=
  match rows.mapM (dcharFromRow env.json) with
  | .ok ds => pure ds
  | .error what => Comp.throw what

def getAll : Db (List DeviceCharacteristic) := do
  ensureConnected env
  Comp.tryCatch (select env >>= decodeRows env) fun e => Comp.throw ("Get all error: " ++ e)

/-! ## What one operation does -/

/-- How an operation that changes the table can end. -/
inductive Updated (write : List Row → List Row) (w : World) : Outcome String World Unit → Prop where
  | done (h : env.fault w.served = none) : Updated write w (.ok () (w.commit write))
  | failed (e : String) : Updated write w (.throw e w.skip)
  | inDoubt (e what : String) (h : env.fault w.served = some (.commit true what)) :
      Updated write w (.throw e (w.commit write))

theorem ensureConnected_ok {w : World} (h : ∀ what, env.fault w.served ≠ some (.connect what)) :
    (ensureConnected env w).outcome = .ok () w := by
  unfold ensureConnected
  cases hf : env.fault w.served with
  | none => rfl
  | some fault =>
    cases fault with
    | connect what => exact absurd hf (h what)
    | statement what => rfl
    | commit applied what => rfl

theorem ensureConnected_throw {w : World} {what : String}
    (h : env.fault w.served = some (.connect what)) :
    (ensureConnected env w).outcome = .throw ("Database connection error: " ++ what) w.skip := by
  unfold ensureConnected
  rw [h]

/-- Without a fault an operation that changes the table does so. -/
theorem update_ok (label : String) (write : List Row → List Row) {w : World}
    (h : env.fault w.served = none) :
    ((update env label write) w).outcome = .ok () (w.commit write) := by
  unfold update
  rw [Comp.bind_of_ok (ensureConnected_ok env (by simp [h]))]
  exact Comp.tryCatch_of_ok (by simp only [transaction, h])

theorem update_updated (label : String) (write : List Row → List Row) (w : World) :
    Updated env write w ((update env label write) w).outcome := by
  cases hf : env.fault w.served with
  | none =>
    rw [update_ok env label write hf]
    exact .done hf
  | some fault =>
    unfold update
    cases fault with
    | connect what =>
      rw [Comp.bind_of_throw (ensureConnected_throw env hf)]
      exact .failed _
    | statement what =>
      rw [Comp.bind_of_ok (ensureConnected_ok env (by simp [hf])),
        Comp.tryCatch_of_throw (t := w.skip) (e := what) (by simp only [transaction, hf])]
      exact .failed _
    | commit applied what =>
      rw [Comp.bind_of_ok (ensureConnected_ok env (by simp [hf])),
        Comp.tryCatch_of_throw (e := what) (by simp only [transaction, hf]; rfl)]
      cases applied with
      | true => exact .inDoubt _ what hf
      | false => exact .failed _

theorem decodeRows_eq_ok {rows : List Row} {w u : World} {ds : List DeviceCharacteristic}
    (h : ((decodeRows env rows) w).outcome = .ok ds u) :
    w = u ∧ rows.mapM (dcharFromRow env.json) = .ok ds := by
  unfold decodeRows at h
  cases hm : rows.mapM (dcharFromRow env.json) with
  | error what =>
    rw [hm] at h
    cases h
  | ok ds' =>
    rw [hm] at h
    cases h
    exact ⟨rfl, rfl⟩

/-- Reading leaves the table alone, and gives a record for each row in the server's order. -/
theorem getAll_eq_ok {w u : World} {ds : List DeviceCharacteristic}
    (h : ((getAll env) w).outcome = .ok ds u) :
    w.skip = u ∧ (env.order w.rows).mapM (dcharFromRow env.json) = .ok ds := by
  unfold getAll at h
  obtain ⟨_, t, hc, h⟩ := Comp.bind_eq_ok h
  have ht : w = t := by
    unfold ensureConnected at hc
    split at hc <;> cases hc
    rfl
  subst ht
  obtain h | ⟨e, t, _, h⟩ := Comp.tryCatch_eq_ok h
  · obtain ⟨rows, t, hs, hd⟩ := Comp.bind_eq_ok h
    obtain ⟨rfl, hm⟩ := decodeRows_eq_ok env hd
    unfold select at hs
    split at hs <;> cases hs
    exact ⟨rfl, hm⟩
  · cases h

theorem getAll_ok {w : World} {ds : List DeviceCharacteristic} (h : env.fault w.served = none)
    (hm : (env.order w.rows).mapM (dcharFromRow env.json) = .ok ds) :
    ((getAll env) w).outcome = .ok ds w.skip := by
  have hselect : (select env w).outcome = .ok (env.order w.rows) w.skip := by
    unfold select
    rw [h]
  unfold getAll
  rw [Comp.bind_of_ok (ensureConnected_ok env (by simp [h]))]
  refine Comp.tryCatch_of_ok ((Comp.bind_of_ok hselect).trans ?_)
  unfold decodeRows
  rw [hm]
  rfl

end FalconLib.Database
