import FalconLib.Base.AtomicService
import FalconLib.Database.Queries
import Mathlib.Data.List.Forall2
import Mathlib.Data.List.Perm.Basic

/-!
# The table as a list of records

Every operation of a connection is one attempt at an operation of a list of records, whatever goes
wrong: what it returns is read off the list, what it changes it changes as a whole, and what throws
has changed nothing unless the commit was in doubt. The attempts of several connections may come in
any order; each is one transaction.
-/

namespace FalconLib.Database

open FalconLib.Base

/-! ## The other operations -/

structure DeviceCharacteristicQuery where
  scope : Option String
  name : Option String
  barrierGate : Option String
  plungerGate : Option String
  reservoirGate : Option String
  screeningGate : Option String
  extra : Option String
  uncertainty : Option Binary64
  hash : Option String
  time : Option Int64
  state : Option String
  unitName : Option String

/-- Equality of a TEXT column and a parameter. -/
def equalText (s : String) (t : Text) : Bool := (cStr s).value == t.value

/-- Equality of DOUBLE PRECISION: the two zeros are equal, and every NaN is equal to every NaN. -/
def equalDouble (x y : Binary64) : Bool := x.eq y || (x.isNaN && y.isNaN)

def equalBigint (i j : Int64) : Bool := i == j

/-- `add_condition`: a column that is NULL is equal to nothing. -/
def condition {α β : Type} (equal : α → β → Bool) (opt : Option α) (field : Row → Option β) :
    List (Row → Bool) :=
  match opt with
  | some value => [fun row => (field row).any (equal value)]
  | none => []

def conditions (q : DeviceCharacteristicQuery) : List (Row → Bool) :=
  condition equalText q.scope (fun row => some row.scope) ++
  condition equalText q.name (fun row => some row.name) ++
  condition equalText q.barrierGate Row.barrierGate ++
  condition equalText q.plungerGate Row.plungerGate ++
  condition equalText q.reservoirGate Row.reservoirGate ++
  condition equalText q.screeningGate Row.screeningGate ++
  condition equalText q.extra Row.extra ++
  condition equalDouble q.uncertainty Row.uncertainty ++
  condition equalText q.hash Row.hash ++
  condition equalBigint q.time Row.recordtime ++
  condition equalText q.state Row.deviceState ++
  condition equalText q.unitName Row.unitName

/-- What the client library says of a statement with that many parameters, if it refuses it. -/
abbrev ParameterLimit : Type := Nat → Option String

variable (env : Environment) (server : Server) (limit : ParameterLimit)

/-- `WHERE name IN ($1, …) ORDER BY recordtime DESC`. -/
def selectMany (names : List String) (rows : List Row) : Except String (List Row) :=
  match limit names.length with
  | some what => .error what
  | none => .ok (server.latest (rows.filter fun row => names.any (Named · row)))

def getMany (names : List String) : Db (List DeviceCharacteristic) := do
  ensureConnected env
  if names.isEmpty then pure []
  else
    Comp.tryCatch (query env (selectMany server limit names) >>= decodeRows env)
      fun e => Comp.throw ("Get many error: " ++ e)

def selectQuery (q : DeviceCharacteristicQuery) (rows : List Row) : Except String (List Row) :=
  .ok (server.latest (rows.filter fun row => (conditions q).all (· row)))

def getByQuery (q : DeviceCharacteristicQuery) : Db (List DeviceCharacteristic) := do
  ensureConnected env
  Comp.tryCatch (query env (selectQuery server q) >>= decodeRows env)
    fun e => Comp.throw ("Get by query error: " ++ e)

def count : Db Nat := do
  ensureConnected env
  Comp.tryCatch (query env Except.ok >>= fun rows => pure rows.length)
    fun e => Comp.throw ("Count error: " ++ e)

/-- The number of rows as an `int`. -/
def affectedRows (n : Nat) : Int32 := Int32.ofNat n

/-- A DELETE statement and what it reports. -/
def delete (label : String) (test : Row → Bool) : Db Int32 := fun w =>
  (do
    update env label (·.filter fun row => !test row)
    pure (affectedRows (w.rows.countP test))) w

def deleteByName (name : String) : Db Bool := do
  let affected ← delete env "Delete by name error: " (Named name ·)
  pure (0 < affected)

/-- `WHERE hash = $1`. -/
def hashIs (hash : String) (row : Row) : Bool := row.hash.any (equalText hash)

def deleteByHash (hash : String) : Db Int32 := delete env "Delete by hash error: " (hashIs hash)

/-- The table is dropped and made anew in one transaction. -/
def initializeSchema : Db Unit := update env "Schema initialization error: " fun _ => []

inductive Operation where
  | insert (d : DeviceCharacteristic)
  | getByName (name : String)
  | getMany (names : List String)
  | getByHashRange (hashStart hashEnd : String)
  | getByQuery (q : DeviceCharacteristicQuery)
  | getAll
  | count
  | deleteByName (name : String)
  | deleteByHash (hash : String)
  | clearAll
  | initializeSchema

inductive Reply where
  | done
  | found (d : Option DeviceCharacteristic)
  | records (ds : List DeviceCharacteristic)
  | number (n : Nat)
  | deleted (any : Bool)
  | affected (n : Int32)

def Operation.run : Operation → Db Reply
  | .insert d => do
    Database.insert env d
    pure .done
  | .getByName name => do
    let d ← Database.getByName env server name
    pure (.found d)
  | .getMany names => do
    let ds ← Database.getMany env server limit names
    pure (.records ds)
  | .getByHashRange hashStart hashEnd => do
    let ds ← Database.getByHashRange env server hashStart hashEnd
    pure (.records ds)
  | .getByQuery q => do
    let ds ← Database.getByQuery env server q
    pure (.records ds)
  | .getAll => do
    let ds ← Database.getAll env
    pure (.records ds)
  | .count => do
    let n ← Database.count env
    pure (.number n)
  | .deleteByName name => do
    let any ← Database.deleteByName env name
    pure (.deleted any)
  | .deleteByHash hash => do
    let n ← Database.deleteByHash env hash
    pure (.affected n)
  | .clearAll => do
    Database.clearAll env
    pure .done
  | .initializeSchema => do
    Database.initializeSchema env
    pure .done

/-! ## What the table is there for -/

namespace Records

/-- A record with what a table keeps of it: its texts up to a NUL, and the characteristic that is
parsed from the printed one. -/
def stored (json : JsonLibrary) (d : DeviceCharacteristic) : DeviceCharacteristic where
  scope := (cStr d.scope).value
  name := (cStr d.name).value
  barrierGate := d.barrierGate.map fun s => (cStr s).value
  plungerGate := d.plungerGate.map fun s => (cStr s).value
  reservoirGate := d.reservoirGate.map fun s => (cStr s).value
  screeningGate := d.screeningGate.map fun s => (cStr s).value
  extra := d.extra.map fun s => (cStr s).value
  uncertainty := d.uncertainty
  hash := d.hash.map fun s => (cStr s).value
  time := d.time
  state := d.state.map fun s => (cStr s).value
  unitName := d.unitName.map fun s => (cStr s).value
  characteristic :=
    match json.parse (json.dump none d.characteristic) with
    | .ok j => j
    | .error _ => d.characteristic

def named (name : String) (d : DeviceCharacteristic) : Bool := (cStr name).value == d.name

def hashed (hash : String) (d : DeviceCharacteristic) : Bool := d.hash.any ((cStr hash).value == ·)

/-- A field that is asked for is there and equal. -/
def agrees {α β : Type} (equal : α → β → Bool) (opt : Option α) (field : Option β) : Bool :=
  opt.all fun value => field.any (equal value)

def equalString (s t : String) : Bool := (cStr s).value == t

def satisfies (q : DeviceCharacteristicQuery) (d : DeviceCharacteristic) : Bool :=
  agrees equalString q.scope (some d.scope) && agrees equalString q.name (some d.name) &&
  agrees equalString q.barrierGate d.barrierGate &&
  agrees equalString q.plungerGate d.plungerGate &&
  agrees equalString q.reservoirGate d.reservoirGate &&
  agrees equalString q.screeningGate d.screeningGate &&
  agrees equalString q.extra d.extra && agrees equalDouble q.uncertainty d.uncertainty &&
  agrees equalString q.hash d.hash && agrees equalBigint q.time d.time &&
  agrees equalString q.state d.state && agrees equalString q.unitName d.unitName

/-- The hash is a list of integers between the two. -/
def between (lo hi : List Int) (d : DeviceCharacteristic) : Bool :=
  match d.hash.bind (dotted server) with
  | some ints => decide (lo ≤ ints) && decide (ints ≤ hi)
  | none => false

/-- The latest first, and those without a time before all others. -/
def Latest (ds : List DeviceCharacteristic) : Prop :=
  ds.Pairwise fun a b => DescNullsFirst a.time b.time

def effect (json : JsonLibrary) : Operation → List DeviceCharacteristic → List DeviceCharacteristic
  | .insert d, ds => ds ++ [stored json d]
  | .deleteByName name, ds => ds.filter fun d => !named name d
  | .deleteByHash hash, ds => ds.filter fun d => !hashed hash d
  | .clearAll, _ | .initializeSchema, _ => []
  | _, ds => ds

inductive Answers : Operation → List DeviceCharacteristic → Reply → Prop where
  | insert {d ds} : Answers (.insert d) ds .done
  | clearAll {ds} : Answers .clearAll ds .done
  | initializeSchema {ds} : Answers .initializeSchema ds .done
  | nothing {name ds} (h : ∀ d ∈ ds, named name d = false) :
      Answers (.getByName name) ds (.found none)
  | latest {name ds d} (mem : d ∈ ds) (h : named name d = true)
      (first : ∀ d' ∈ ds, named name d' = true → d' = d ∨ DescNullsFirst d.time d'.time) :
      Answers (.getByName name) ds (.found (some d))
  | many {names ds found} (perm : found.Perm (ds.filter fun d => names.any (named · d)))
      (sorted : Latest found) : Answers (.getMany names) ds (.records found)
  | range {hashStart hashEnd ds lo hi found}
      (hlo : castArray server (cStr hashStart).value = .ok lo)
      (hhi : castArray server (cStr hashEnd).value = .ok hi)
      (perm : found.Perm (ds.filter (between server lo hi))) :
      Answers (.getByHashRange hashStart hashEnd) ds (.records found)
  | query {q ds found} (perm : found.Perm (ds.filter (satisfies q))) (sorted : Latest found) :
      Answers (.getByQuery q) ds (.records found)
  | all {ds found} (perm : found.Perm ds) : Answers .getAll ds (.records found)
  | count {ds} : Answers .count ds (.number ds.length)
  | deleteByName {name ds} :
      Answers (.deleteByName name) ds (.deleted (0 < affectedRows (ds.countP (named name))))
  | deleteByHash {hash ds} :
      Answers (.deleteByHash hash) ds (.affected (affectedRows (ds.countP (hashed hash))))

/-- Whether a hash is a list of `int`s. -/
def Dotted (hash : String) : Prop := ∃ ints, castArray server hash = .ok ints

/-- Many names may be too many, and a hash that is no list of `int`s stops every query of a
range. -/
def Rejects : Operation → List DeviceCharacteristic → Prop
  | .getMany names, _ => (limit names.length).isSome
  | .getByHashRange hashStart hashEnd, ds =>
    ¬(Dotted server (cStr hashStart).value ∧ Dotted server (cStr hashEnd).value ∧
      ∀ d ∈ ds, ∀ hash, d.hash = some hash → Dotted server hash)
  | _, _ => False

def service : Service Operation Reply (List DeviceCharacteristic) where
  effect := effect env.json
  answers := Answers server
  rejects := Rejects server limit

/-! ## Rows and their records -/

/-- The records that the rows are read as. -/
abbrev Represents (rows : List Row) (ds : List DeviceCharacteristic) : Prop :=
  List.Forall₂ (fun row d => dcharFromRow env.json row = .ok d) rows ds

theorem exists_record {json : JsonLibrary} {row : Row} {d : DeviceCharacteristic}
    (h : dcharFromRow json row = .ok d) : ∃ j, d = row.record j := by
  unfold dcharFromRow at h
  cases hc : columnJson json row.deviceCharacteristic with
  | error e =>
    rw [hc] at h
    cases h
  | ok j =>
    rw [hc] at h
    cases h
    exact ⟨j, rfl⟩

/-- A test of the rows that is a test of their records. -/
def Reads (json : JsonLibrary) (test : Row → Bool) (p : DeviceCharacteristic → Bool) : Prop :=
  ∀ row d, dcharFromRow json row = .ok d → test row = p d

theorem reads_named (json : JsonLibrary) (name : String) :
    Reads json (Named name ·) (named name) := by
  intro row d h
  obtain ⟨j, rfl⟩ := exists_record h
  change decide (row.name.value = (cStr name).value) = ((cStr name).value == row.name.value)
  rw [beq_eq_decide]
  exact decide_eq_decide.mpr eq_comm

theorem reads_any (json : JsonLibrary) (names : List String) :
    Reads json (fun row => names.any (Named · row)) fun d => names.any (named · d) := by
  intro row d h
  exact List.any_congr rfl fun name => reads_named json name row d h

theorem any_equalText (s : String) (field : Option Text) :
    field.any (equalText s) = (field.map Text.value).any (equalString s) := by
  cases field <;> rfl

theorem reads_hashed (json : JsonLibrary) (hash : String) :
    Reads json (hashIs hash) (hashed hash) := by
  intro row d h
  obtain ⟨j, rfl⟩ := exists_record h
  exact any_equalText hash row.hash

theorem all_condition {α β : Type} (equal : α → β → Bool) (opt : Option α)
    (field : Row → Option β) (row : Row) :
    (condition equal opt field).all (· row) = agrees equal opt (field row) := by
  cases opt with
  | none => rfl
  | some value => exact Bool.and_true _

theorem agrees_equalText (opt : Option String) (field : Option Text) :
    agrees equalText opt field = agrees equalString opt (field.map Text.value) := by
  cases opt with
  | none => rfl
  | some s => exact any_equalText s field

theorem reads_satisfies (json : JsonLibrary) (q : DeviceCharacteristicQuery) :
    Reads json (fun row => (conditions q).all (· row)) (satisfies q) := by
  intro row d h
  obtain ⟨j, rfl⟩ := exists_record h
  simp only [conditions, List.all_append, all_condition, agrees_equalText]
  rfl

theorem reads_between (json : JsonLibrary) (lo hi : List Int) :
    Reads json (Database.between server lo hi) (between server lo hi) := by
  intro row d h
  obtain ⟨j, rfl⟩ := exists_record h
  unfold Database.between between
  have hhash : (row.record j).hash.bind (dotted server) =
      row.hash.bind fun hash => dotted server hash.value := by
    change (row.hash.map Text.value).bind _ = _
    cases row.hash <;> rfl
  generalize (row.record j).hash.bind (dotted server) = ints at hhash ⊢
  subst hhash
  rfl

theorem not_reads {json : JsonLibrary} {test : Row → Bool} {p : DeviceCharacteristic → Bool}
    (h : Reads json test p) : Reads json (fun row => !test row) fun d => !p d :=
  fun row d hd => congrArg (!·) (h row d hd)

variable {env server limit} {rows rows' : List Row} {ds : List DeviceCharacteristic}

theorem Represents.filter (h : Represents env rows ds) {test : Row → Bool}
    {p : DeviceCharacteristic → Bool} (htest : Reads env.json test p) :
    Represents env (rows.filter test) (ds.filter p) :=
  List.rel_filter (fun row d hd => Bool.eq_iff_iff.mp (htest row d hd)) h

theorem Represents.countP (h : Represents env rows ds) {test : Row → Bool}
    {p : DeviceCharacteristic → Bool} (htest : Reads env.json test p) :
    rows.countP test = ds.countP p := by
  rw [List.countP_eq_length_filter, List.countP_eq_length_filter]
  exact (h.filter htest).length_eq

theorem Represents.decode (h : Represents env rows ds) :
    rows.mapM (dcharFromRow env.json) = .ok ds := by
  induction h with
  | nil => rfl
  | cons hrow _ ih =>
    rw [List.mapM_cons, hrow, ih]
    rfl

/-- The records of the rows in another order. -/
theorem Represents.perm (h : Represents env rows ds) (hperm : rows'.Perm rows) :
    ∃ found, Represents env rows' found ∧ found.Perm ds :=
  List.perm_comp_forall₂ hperm h

theorem Represents.exists_row (h : Represents env rows ds) :
    ∀ d ∈ ds, ∃ row ∈ rows, dcharFromRow env.json row = .ok d := by
  induction h with
  | nil => exact List.forall_mem_nil _
  | cons hrow _ ih =>
    refine List.forall_mem_cons.mpr ⟨⟨_, List.mem_cons_self, hrow⟩, fun d hd => ?_⟩
    obtain ⟨row, hmem, hread⟩ := ih d hd
    exact ⟨row, List.mem_cons_of_mem _ hmem, hread⟩

theorem Represents.exists_record (h : Represents env rows ds) :
    ∀ row ∈ rows, ∃ d ∈ ds, dcharFromRow env.json row = .ok d := by
  induction h with
  | nil => exact List.forall_mem_nil _
  | cons hrow _ ih =>
    refine List.forall_mem_cons.mpr ⟨⟨_, List.mem_cons_self, hrow⟩, fun row hmem => ?_⟩
    obtain ⟨d, hd, hread⟩ := ih row hmem
    exact ⟨d, List.mem_cons_of_mem _ hd, hread⟩

theorem Represents.latest (h : Represents env rows ds)
    (hrows : rows.Pairwise fun a b => DescNullsFirst a.recordtime b.recordtime) : Latest ds := by
  induction h with
  | nil => exact .nil
  | @cons row d rows ds hd hrest ih =>
    obtain ⟨hfirst, hrows⟩ := List.pairwise_cons.mp hrows
    refine List.Pairwise.cons (fun d' hd' => ?_) (ih hrows)
    obtain ⟨row', hrow', hread⟩ := Represents.exists_row hrest d' hd'
    rw [time_of_dcharFromRow hd, time_of_dcharFromRow hread]
    exact hfirst row' hrow'

/-- What a query for the latest rows finds. -/
theorem Represents.select (server : Server) (h : Represents env rows ds) {test : Row → Bool}
    {p : DeviceCharacteristic → Bool} (htest : Reads env.json test p) :
    ∃ found, Represents env (server.latest (rows.filter test)) found ∧ found.Perm (ds.filter p) ∧
      Latest found := by
  obtain ⟨found, hfound, hperm⟩ := (h.filter htest).perm (server.latest_perm _)
  exact ⟨found, hfound, hperm, hfound.latest (server.latest_sorted _)⟩

/-- A record is read back as it is stored. -/
theorem dcharFromRow_stored (hjson : Parses env.json) (d : DeviceCharacteristic) :
    dcharFromRow env.json (insertedRow env.json d) = .ok (stored env.json d) := by
  obtain ⟨j, hj⟩ := hjson d.characteristic
  have hstored : stored env.json d = (insertedRow env.json d).record j := by
    unfold stored
    rw [hj]
    simp only [Row.record, insertedRow, Option.map_map]
    rfl
  rw [hstored]
  change (env.json.parse (env.json.dump none d.characteristic)).map _ = _
  rw [hj]
  rfl

/-! ## What an operation that reads does -/

variable (env server limit) {w : World}

/-- How an operation that reads can end, when it can fail by itself in the case `refuses`. -/
inductive Read {α : Type} (P : α → Prop) (refuses : Prop) (w : World) :
    Outcome String World α → Prop where
  | answered {a : α} (h : P a) : Read P refuses w (.ok a w.skip)
  | failed {e : String} (h : env.fault w.served ≠ none ∨ refuses) :
      Read P refuses w (.throw e w.skip)

/-- The shape that the operations that read have in common. -/
def reading {α : Type} (label : String) (evaluate : List Row → Except String (List Row))
    (decode : List Row → Db α) : Db α := do
  ensureConnected env
  Comp.tryCatch (query env evaluate >>= decode) fun e => Comp.throw (label ++ e)

theorem query_fault (evaluate : List Row → Except String (List Row)) {fault : Fault}
    (h : env.fault w.served = some fault) :
    ∃ what, (query env evaluate w).outcome = .throw what w.skip := by
  cases fault <;> exact ⟨_, by simp only [query, h]; rfl⟩

variable {env}

theorem read_of_fault {α : Type} {label : String}
    {evaluate : List Row → Except String (List Row)} {decode : List Row → Db α} {fault : Fault}
    {P : α → Prop} {refuses : Prop} (h : env.fault w.served = some fault) :
    Read env P refuses w (reading env label evaluate decode w).outcome := by
  have hfault : env.fault w.served ≠ none := by simp [h]
  unfold reading
  cases hc : (ensureConnected env w).outcome with
  | ok _ u =>
    have hu : w = u := by
      unfold ensureConnected at hc
      split at hc <;> cases hc
      rfl
    subst hu
    obtain ⟨what, hquery⟩ := query_fault env evaluate h
    rw [Comp.bind_of_ok hc, Comp.tryCatch_of_throw (Comp.bind_of_throw hquery)]
    exact .failed (.inl hfault)
  | throw e u =>
    have hu : w.skip = u := by
      unfold ensureConnected at hc
      split at hc <;> cases hc
      rfl
    subst hu
    rw [Comp.bind_of_throw hc]
    exact .failed (.inl hfault)
  | halt r =>
    unfold ensureConnected at hc
    split at hc <;> cases hc

theorem reading_ok {α : Type} {label : String} {evaluate : List Row → Except String (List Row)}
    {decode : List Row → Db α} {found : List Row} {a : α} {P : α → Prop} {refuses : Prop}
    (hquery : evaluate w.rows = .ok found) (hdecode : (decode found w.skip).outcome = .ok a w.skip)
    (ha : P a) : Read env P refuses w (reading env label evaluate decode w).outcome := by
  cases h : env.fault w.served with
  | some fault => exact read_of_fault h
  | none =>
    unfold reading
    rw [Comp.bind_of_ok (ensureConnected_of_fault env h),
      Comp.tryCatch_of_ok ((Comp.bind_of_ok (query_ok env h hquery)).trans hdecode)]
    exact .answered ha

theorem reading_throw {α : Type} {label : String} {evaluate : List Row → Except String (List Row)}
    {decode : List Row → Db α} {what : String} {P : α → Prop} {refuses : Prop}
    (hquery : evaluate w.rows = .error what) (hrefuses : refuses) :
    Read env P refuses w (reading env label evaluate decode w).outcome := by
  cases h : env.fault w.served with
  | some fault => exact read_of_fault h
  | none =>
    unfold reading
    rw [Comp.bind_of_ok (ensureConnected_of_fault env h),
      Comp.tryCatch_of_throw (Comp.bind_of_throw (query_throw env h hquery))]
    exact .failed (.inr hrefuses)

theorem Represents.decodeRows (h : Represents env rows ds) (u : World) :
    (Database.decodeRows env rows u).outcome = .ok ds u := by
  unfold Database.decodeRows
  rw [h.decode]
  rfl

/-! ## What an operation does -/

variable (env)

/-- What one operation may come to, from a table that represents a list of records. -/
inductive Settles (op : Operation) (ds : List DeviceCharacteristic) (w : World) :
    Outcome String World Reply → Prop where
  | answered {reply : Reply} {u : World} (h : Answers server op ds reply)
      (hu : Represents env u.rows (effect env.json op ds)) : Settles op ds w (.ok reply u)
  | refused {e : String} {u : World}
      (h : env.fault w.served ≠ none ∨ Rejects server limit op ds) (hu : Represents env u.rows ds) :
      Settles op ds w (.throw e u)
  | inDoubt {e what : String} {u : World} (h : env.fault w.served = some (.commit true what))
      (hu : Represents env u.rows (effect env.json op ds)) : Settles op ds w (.throw e u)

variable {env}

/-- An operation that reads changes nothing. -/
theorem Read.settles {α : Type} {P : α → Prop} {op : Operation} {m : Db α} {reply : α → Reply}
    (h : Represents env w.rows ds)
    (hread : Read env P (Rejects server limit op ds) w (m w).outcome)
    (hkeeps : effect env.json op ds = ds) (hP : ∀ a, P a → Answers server op ds (reply a)) :
    Settles env server limit op ds w
      ((do let a ← m; pure (reply a) : Db Reply) w).outcome := by
  rw [Comp.outcome_bind]
  generalize (m w).outcome = outcome at hread ⊢
  cases hread with
  | answered ha => exact .answered (hP _ ha) (hkeeps.symm ▸ h)
  | failed hwhy => exact .refused hwhy h

/-- An operation that changes the table changes it as its effect says. -/
theorem update_settles {op : Operation} {label : String} {write : List Row → List Row}
    {reply : Reply} {m : Db Reply}
    (hm : (m w).outcome = ((do update env label write; pure reply : Db Reply) w).outcome)
    (h : Represents env w.rows ds) (hwrite : Represents env (write w.rows) (effect env.json op ds))
    (hreply : Answers server op ds reply) :
    Settles env server limit op ds w (m w).outcome := by
  rw [hm, Comp.outcome_bind]
  cases hfault : env.fault w.served with
  | none =>
    rw [update_ok env label write hfault]
    exact .answered hreply hwrite
  | some fault =>
    have hwhy : env.fault w.served ≠ none := by simp [hfault]
    have hupdated := update_updated env label write w
    generalize (update env label write w).outcome = outcome at hupdated ⊢
    cases hupdated with
    | done hnone => exact absurd hnone hwhy
    | failed e => exact .refused (.inl hwhy) h
    | inDoubt e what hcommit => exact .inDoubt hcommit hwrite

/-! ## Each operation -/

theorem settles_insert (hjson : Parses env.json) (h : Represents env w.rows ds)
    (d : DeviceCharacteristic) :
    Settles env server limit (.insert d) ds w
      ((Operation.insert d).run env server limit w).outcome :=
  update_settles server limit rfl h
    (List.rel_append h (.cons (dcharFromRow_stored hjson d) .nil)) .insert

theorem settles_clearAll (h : Represents env w.rows ds) :
    Settles env server limit .clearAll ds w
      (Operation.clearAll.run env server limit w).outcome :=
  update_settles server limit rfl h .nil .clearAll

theorem settles_initializeSchema (h : Represents env w.rows ds) :
    Settles env server limit .initializeSchema ds w
      (Operation.initializeSchema.run env server limit w).outcome :=
  update_settles server limit rfl h .nil .initializeSchema

/-- What a deletion reports is counted before the rows go. -/
theorem outcome_delete {α : Type} (label : String) (test : Row → Bool) (f : Int32 → α) (w : World) :
    ((do let n ← delete env label test; pure (f n) : Db α) w).outcome =
      ((do
        update env label (·.filter fun row => !test row)
        pure (f (affectedRows (w.rows.countP test))) : Db α) w).outcome := by
  have hdelete : (delete env label test w).outcome =
      ((do
        update env label (·.filter fun row => !test row)
        pure (affectedRows (w.rows.countP test)) : Db Int32) w).outcome := rfl
  rw [Comp.outcome_bind, hdelete, Comp.outcome_bind, Comp.outcome_bind]
  cases (update env label (·.filter fun row => !test row) w).outcome <;> rfl

theorem settles_deleteByName (h : Represents env w.rows ds) (name : String) :
    Settles env server limit (.deleteByName name) ds w
      ((Operation.deleteByName name).run env server limit w).outcome := by
  have hread := reads_named env.json name
  have hrun : (Operation.deleteByName name).run env server limit = (do
      let n ← delete env "Delete by name error: " (Named name ·)
      pure (.deleted (0 < n))) := Comp.bind_assoc _ _ _
  have hreply : Answers server (.deleteByName name) ds
      (.deleted (0 < affectedRows (w.rows.countP (Named name ·)))) := by
    rw [h.countP hread]
    exact .deleteByName
  rw [hrun]
  exact update_settles server limit (outcome_delete _ _ (fun n => Reply.deleted (0 < n)) w) h
    (h.filter (not_reads hread)) hreply

theorem settles_deleteByHash (h : Represents env w.rows ds) (hash : String) :
    Settles env server limit (.deleteByHash hash) ds w
      ((Operation.deleteByHash hash).run env server limit w).outcome := by
  have hread := reads_hashed env.json hash
  have hreply : Answers server (.deleteByHash hash) ds
      (.affected (affectedRows (w.rows.countP (hashIs hash)))) := by
    rw [h.countP hread]
    exact .deleteByHash
  exact update_settles server limit (outcome_delete _ _ Reply.affected w) h
    (h.filter (not_reads hread)) hreply

theorem settles_count (h : Represents env w.rows ds) :
    Settles env server limit .count ds w
      (Operation.count.run env server limit w).outcome := by
  refine Read.settles server limit h (P := (· = ds.length)) (reading_ok rfl rfl h.length_eq) rfl ?_
  rintro _ rfl
  exact .count

theorem settles_getByQuery (h : Represents env w.rows ds) (q : DeviceCharacteristicQuery) :
    Settles env server limit (.getByQuery q) ds w
      ((Operation.getByQuery q).run env server limit w).outcome := by
  obtain ⟨found, hfound, hperm, hlatest⟩ :=
    h.select server (reads_satisfies env.json q)
  refine Read.settles server limit h (P := (· = found))
    (reading_ok rfl (hfound.decodeRows w.skip) rfl) rfl ?_
  rintro _ rfl
  exact .query hperm hlatest

theorem select_eq : select env = query env fun rows => .ok (env.order rows) := by
  funext w
  unfold select query
  cases env.fault w.served with
  | none => rfl
  | some fault => cases fault <;> rfl

theorem settles_getAll (h : Represents env w.rows ds) :
    Settles env server limit .getAll ds w
      (Operation.getAll.run env server limit w).outcome := by
  obtain ⟨found, hfound, hperm⟩ := h.perm (env.order_perm w.rows)
  have hread : Read env (· = found) (Rejects server limit .getAll ds) w (getAll env w).outcome := by
    unfold getAll
    rw [select_eq]
    exact reading_ok rfl (hfound.decodeRows w.skip) rfl
  refine Read.settles server limit h hread rfl ?_
  rintro _ rfl
  exact .all hperm

theorem settles_getMany (h : Represents env w.rows ds) (names : List String) :
    Settles env server limit (.getMany names) ds w
      ((Operation.getMany names).run env server limit w).outcome := by
  cases names with
  | nil =>
    have hmany : Answers server (.getMany []) ds (.records []) := by
      refine .many ?_ .nil
      rw [show ds.filter (fun d => [].any (named · d)) = [] from List.filter_false ds]
    have hrun : (Operation.getMany []).run env server limit = (do
        ensureConnected env
        pure (.records [])) := Comp.bind_assoc _ _ _
    rw [hrun]
    by_cases hconnect : ∃ what, env.fault w.served = some (.connect what)
    · obtain ⟨what, hfault⟩ := hconnect
      rw [Comp.bind_of_throw (ensureConnected_throw env hfault)]
      exact .refused (.inl (by simp [hfault])) h
    · rw [Comp.bind_of_ok (ensureConnected_ok env fun what hfault => hconnect ⟨what, hfault⟩)]
      exact .answered hmany h
  | cons name names =>
    have hread : Read env (fun found => Answers server (.getMany (name :: names)) ds (.records found))
        (Rejects server limit (.getMany (name :: names)) ds) w
        (getMany env server limit (name :: names) w).outcome := by
      cases hlimit : limit (name :: names).length with
      | some what =>
        have hrejects : (limit (name :: names).length).isSome := by rw [hlimit, Option.isSome_some]
        have hselect : selectMany server limit (name :: names) w.rows = .error what := by
          simp only [selectMany, hlimit]
        exact reading_throw hselect hrejects
      | none =>
        obtain ⟨found, hfound, hperm, hlatest⟩ :=
          h.select server (reads_any env.json (name :: names))
        refine reading_ok ?_ (hfound.decodeRows w.skip) (.many hperm hlatest)
        simp only [selectMany, hlimit]
    exact Read.settles server limit h hread rfl fun _ ha => ha

theorem settles_getByName (h : Represents env w.rows ds) (name : String) :
    Settles env server limit (.getByName name) ds w
      ((Operation.getByName name).run env server limit w).outcome := by
  obtain ⟨found, hfound, hperm, hlatest⟩ := h.select server (reads_named env.json name)
  have hread : Read env (fun d => Answers server (.getByName name) ds (.found d))
      (Rejects server limit (.getByName name) ds) w (getByName env server name w).outcome := by
    generalize hrows : server.latest (w.rows.filter (Named name ·)) = rows at hfound
    have hselect : Except.ok ((server.latest (w.rows.filter (Named name ·))).take 1) =
        (Except.ok (rows.take 1) : Except String (List Row)) := by rw [hrows]
    cases hfound with
    | nil =>
      refine reading_ok hselect rfl (.nothing fun d hd => ?_)
      have hempty := List.filter_eq_nil_iff.mp (List.nil_perm.mp hperm)
      exact Bool.eq_false_iff.mpr (hempty d hd)
    | @cons row d rows found hrow hrest =>
      have hdecode : (firstRecord env [row] w.skip).outcome = .ok (some d) w.skip := by
        have hone := Represents.decodeRows (.cons hrow .nil : Represents env [row] [d]) w.skip
        exact (Comp.bind_of_ok hone).trans rfl
      have hmem {d' : DeviceCharacteristic} :
          d' ∈ d :: found ↔ d' ∈ ds ∧ named name d' = true := by
        rw [hperm.mem_iff, List.mem_filter]
      obtain ⟨hd, hnamed⟩ := hmem.mp List.mem_cons_self
      refine reading_ok hselect hdecode (.latest hd hnamed fun d' hd' hnamed' => ?_)
      obtain rfl | hafter := List.mem_cons.mp (hmem.mpr ⟨hd', hnamed'⟩)
      · exact .inl rfl
      · exact .inr ((List.pairwise_cons.mp hlatest).1 d' hafter)
  exact Read.settles server limit h hread rfl fun _ ha => ha

theorem settles_getByHashRange (h : Represents env w.rows ds) (hashStart hashEnd : String) :
    Settles env server limit (.getByHashRange hashStart hashEnd) ds w
      ((Operation.getByHashRange hashStart hashEnd).run env server limit w).outcome := by
  have hread : Read env
      (fun found => Answers server (.getByHashRange hashStart hashEnd) ds (.records found))
      (Rejects server limit (.getByHashRange hashStart hashEnd) ds) w
      (getByHashRange env server hashStart hashEnd w).outcome := by
    by_cases hrejects : Rejects server limit (.getByHashRange hashStart hashEnd) ds
    · cases hrange : hashRange server hashStart hashEnd w.rows with
      | error what => exact reading_throw hrange hrejects
      | ok found =>
        obtain ⟨hlo, hhi, hrows⟩ := hashRange_eq_ok server hrange
        refine absurd ⟨hlo, hhi, fun d hd hash hhash => ?_⟩ hrejects
        obtain ⟨row, hrow, hread⟩ := h.exists_row d hd
        obtain ⟨j, rfl⟩ := exists_record hread
        obtain ⟨text, htext, rfl⟩ := Option.map_eq_some_iff.mp hhash
        exact hrows row hrow text htext
    · obtain ⟨⟨lo, hlo⟩, ⟨hi, hhi⟩, hhashes⟩ := not_not.mp hrejects
      have hrows : ∀ row ∈ w.rows, ∀ hash, row.hash = some hash →
          ∃ ints, castArray server hash.value = .ok ints := by
        intro row hrow hash hhash
        obtain ⟨d, hd, hread⟩ := h.exists_record row hrow
        obtain ⟨j, rfl⟩ := exists_record hread
        refine hhashes _ hd hash.value ?_
        change row.hash.map Text.value = _
        rw [hhash]
        rfl
      have hrange := hashRange_of_ok server hlo hhi hrows
      obtain ⟨found, hfound, hperm⟩ :=
        (h.filter (reads_between server env.json lo hi)).perm (server.byHash_perm _)
      exact reading_ok hrange (hfound.decodeRows w.skip) (.range hlo hhi hperm)
  exact Read.settles server limit h hread rfl fun _ ha => ha

theorem run_settles (hjson : Parses env.json) (h : Represents env w.rows ds) (op : Operation) :
    Settles env server limit op ds w (op.run env server limit w).outcome := by
  cases op with
  | insert d => exact settles_insert server limit hjson h d
  | getByName name => exact settles_getByName server limit h name
  | getMany names => exact settles_getMany server limit h names
  | getByHashRange hashStart hashEnd => exact settles_getByHashRange server limit h hashStart hashEnd
  | getByQuery q => exact settles_getByQuery server limit h q
  | getAll => exact settles_getAll server limit h
  | count => exact settles_count server limit h
  | deleteByName name => exact settles_deleteByName server limit h name
  | deleteByHash hash => exact settles_deleteByHash server limit h hash
  | clearAll => exact settles_clearAll server limit h
  | initializeSchema => exact settles_initializeSchema server limit h

/-! ## Sessions -/

variable (env)

def trouble (w : World) : Trouble :=
  match env.fault w.served with
  | none => .none
  | some (.commit true _) => .inDoubt
  | some _ => .lost

/-- One operation, and how it ended. -/
inductive Attempted (w : World) : Attempt Operation String Reply → World → Prop where
  | returned {op : Operation} {reply : Reply} {u : World}
      (h : (op.run env server limit w).outcome = .ok reply u) :
      Attempted w ⟨op, trouble env w, .ok reply⟩ u
  | threw {op : Operation} {e : String} {u : World}
      (h : (op.run env server limit w).outcome = .throw e u) :
      Attempted w ⟨op, trouble env w, .error e⟩ u

/-- The operations of any connections, in the order in which the server serves them. -/
abbrev Session : World → List (Attempt Operation String Reply) → World → Prop :=
  Labelled (Attempted env server limit)

variable {env}

theorem trouble_ne_none (h : env.fault w.served ≠ none) : trouble env w ≠ .none := by
  unfold trouble
  split
  · contradiction
  · exact nofun
  · exact nofun

theorem trouble_inDoubt {what : String} (h : env.fault w.served = some (.commit true what)) :
    trouble env w = .inDoubt := by
  unfold trouble
  rw [h]

/-- One attempt is one step of the service. -/
theorem attempted_step (hjson : Parses env.json) {u : World}
    {attempt : Attempt Operation String Reply} (hR : Represents env w.rows ds)
    (h : Attempted env server limit w attempt u) :
    ∃ ds', (service env server limit).Step ds attempt ds' ∧ Represents env u.rows ds' := by
  cases h with
  | @returned op reply u hrun =>
    have hsettles := run_settles server limit hjson hR op
    rw [hrun] at hsettles
    cases hsettles with
    | answered hanswers hu => exact ⟨_, .answered hanswers, hu⟩
  | @threw op e u hrun =>
    have hsettles := run_settles server limit hjson hR op
    rw [hrun] at hsettles
    cases hsettles with
    | refused hwhy hu => exact ⟨ds, .refused (hwhy.imp_left trouble_ne_none), hu⟩
    | inDoubt hfault hu =>
      rw [trouble_inDoubt hfault]
      exact ⟨_, .inDoubt, hu⟩

/-- Every session is a history of a list of records: nothing is lost, done twice or done by half. -/
theorem session_history (hjson : Parses env.json) {u : World}
    {attempts : List (Attempt Operation String Reply)} (h : Represents env w.rows ds)
    (hsession : Session env server limit w attempts u) :
    ∃ ds', (service env server limit).History ds attempts ds' ∧ Represents env u.rows ds' ∧
      ∃ ops, Service.Took attempts ops ∧ ds' = (service env server limit).effects ops ds := by
  have hsimulated : ∃ ds', (service env server limit).History ds attempts ds' ∧
      Represents env u.rows ds' :=
    Labelled.simulate (R := fun w ds => Represents env w.rows ds)
      (fun _ _ _ _ hR hstep => attempted_step server limit hjson hR hstep) hsession h
  obtain ⟨ds', hhistory, hu⟩ := hsimulated
  exact ⟨ds', hhistory, hu, Service.History.took _ hhistory⟩

/-- Operations can be attempted in any order. -/
theorem exists_session (hjson : Parses env.json) (h : Represents env w.rows ds)
    (ops : List Operation) :
    ∃ attempts u, attempts.map Attempt.op = ops ∧ Session env server limit w attempts u := by
  induction ops generalizing w ds with
  | nil => exact ⟨[], w, rfl, .nil w⟩
  | cons op ops ih =>
    have hattempted : ∃ attempt u, attempt.op = op ∧ Attempted env server limit w attempt u := by
      have hsettles := run_settles server limit hjson h op
      cases hrun : (op.run env server limit w).outcome with
      | ok reply u => exact ⟨_, u, rfl, .returned hrun⟩
      | throw e u => exact ⟨_, u, rfl, .threw hrun⟩
      | halt r =>
        rw [hrun] at hsettles
        cases hsettles
    obtain ⟨attempt, t, hop, hfirst⟩ := hattempted
    obtain ⟨ds', _, ht⟩ := attempted_step server limit hjson h hfirst
    obtain ⟨attempts, u, hops, hrest⟩ := ih ht
    exact ⟨attempt :: attempts, u, by rw [List.map_cons, hop, hops], .cons hfirst hrest⟩

/-- The connection is lost when the second transaction commits, and the commit stands. -/
def doubtfulEnv : Environment :=
  { plainEnv with
    fault := fun n => if n = 1 then some (.commit true "connection lost") else none }

/-- The record that could not be inserted is counted. -/
def doubtfulAttempts : List (Attempt Operation String Reply) :=
  [⟨.insert (plainRecord "n" none none), .none, .ok .done⟩,
   ⟨.insert (plainRecord "m" none none), .inDoubt, .error "Insert error: connection lost"⟩,
   ⟨.count, .none, .ok (.number 2)⟩]

theorem session_doubtful : ∃ u, Session doubtfulEnv plainServer (fun _ => none) ⟨[], 0, ∅⟩
    doubtfulAttempts u :=
  ⟨_, .cons (.returned rfl) (.cons (.threw rfl) (.cons (.returned rfl) (.nil _)))⟩

theorem session_history_doubtful : ∃ (u : World) (ds' : List DeviceCharacteristic),
    (service doubtfulEnv plainServer fun _ => none).History [] doubtfulAttempts ds' ∧
    Represents doubtfulEnv u.rows ds' ∧
    ∃ ops, Service.Took doubtfulAttempts ops ∧
      ds' = (service doubtfulEnv plainServer fun _ => none).effects ops [] := by
  obtain ⟨u, hsession⟩ := session_doubtful
  exact ⟨u, session_history plainServer (fun _ => none) (fun _ => ⟨_, rfl⟩) .nil hsession⟩

end Records

end FalconLib.Database
