import FalconLib.Database.DatabaseConnection
import Mathlib.Data.List.Induction
import Mathlib.Data.List.Sort

/-!
# Queries of the table

`get_by_name` asks for the latest record of a name, `get_by_hash_range` for the records whose hash
lies between two dotted lists of integers. The order of the answers and the reading of an integer
are the server's.
-/

namespace FalconLib.Database

open FalconLib.Base

/-! ## The server's part -/

/-- `recordtime DESC`, NULLs first. -/
def DescNullsFirst : Option Int64 → Option Int64 → Prop
  | none, _ => True
  | some a, some b => b ≤ a
  | some _, none => False

structure Server where
  /-- `ORDER BY recordtime DESC`. -/
  latest : List Row → List Row
  latest_perm : ∀ rows, (latest rows).Perm rows
  latest_sorted : ∀ rows, (latest rows).Pairwise fun a b => DescNullsFirst a.recordtime b.recordtime
  /-- `ORDER BY string_to_array(hash, '.')::int[], recordtime DESC`. -/
  byHash : List Row → List Row
  byHash_perm : ∀ rows, (byHash rows).Perm rows
  /-- The integer that a text is, of any size. -/
  integer : String → Option Int

variable (env : Environment) (server : Server)

/-- A transaction with one query, which may fail. -/
def query (evaluate : List Row → Except String (List Row)) : Db (List Row) := fun w =>
  match env.fault w.served with
  | none =>
    match evaluate w.rows with
    | .ok rows => ⟨[], .ok rows w.skip⟩
    | .error what => ⟨[], .throw what w.skip⟩
  | some (.connect what) => ⟨[], .throw what w.skip⟩
  | some (.statement what) => ⟨[], .throw what w.skip⟩
  | some (.commit _ what) => ⟨[], .throw what w.skip⟩

/-! ## The latest record of a name -/

/-- `WHERE name = $1`. -/
def Named (name : String) (row : Row) : Prop := row.name.value = (cStr name).value

instance (name : String) (row : Row) : Decidable (Named name row) :=
  inferInstanceAs (Decidable (_ = _))

def firstRecord (rows : List Row) : Db (Option DeviceCharacteristic) :=
  match rows with
  | [] => pure none
  | row :: _ => do
    let ds ← decodeRows env [row]
    pure ds.head?

def getByName (name : String) : Db (Option DeviceCharacteristic) := do
  ensureConnected env
  Comp.tryCatch
    (query env (fun rows => .ok ((server.latest (rows.filter (Named name ·))).take 1)) >>=
      firstRecord env)
    fun e => Comp.throw ("Get by name error: " ++ e)

/-! ## The records between two hashes -/

/-- `string_to_array(text, '.')`. -/
def stringToArray (text : String) : List String :=
  if text = "" then [] else (text.toList.splitOn '.').map String.ofList

/-- A value of type `int`. -/
def IsInt4 (i : Int) : Prop := -2 ^ 31 ≤ i ∧ i < 2 ^ 31

instance (i : Int) : Decidable (IsInt4 i) := inferInstanceAs (Decidable (_ ∧ _))

/-- `text::int`. -/
def castInt (text : String) : Except String Int :=
  match server.integer text with
  | none => .error ("invalid input syntax for type integer: \"" ++ text ++ "\"")
  | some i =>
    if IsInt4 i then .ok i
    else .error ("value \"" ++ text ++ "\" is out of range for type integer")

/-- `string_to_array(text, '.')::int[]`. -/
def castArray (text : String) : Except String (List Int) := (stringToArray text).mapM (castInt server)

/-- Whether a row is returned; it is not when its hash is NULL. -/
def betweenHashes (lo hi : List Int) (row : Row) : Except String Bool :=
  match row.hash with
  | none => .ok false
  | some hash => do
    let ints ← castArray server hash.value
    pure (decide (lo ≤ ints) && decide (ints ≤ hi))

/-- The rows that pass a test, unless the test fails on one of them. -/
def keepRows (test : Row → Except String Bool) : List Row → Except String (List Row)
  | [] => .ok []
  | row :: rows => do
    let keep ← test row
    let kept ← keepRows test rows
    pure (if keep then row :: kept else kept)

def hashRange (hashStart hashEnd : String) (rows : List Row) : Except String (List Row) := do
  let lo ← castArray server (cStr hashStart).value
  let hi ← castArray server (cStr hashEnd).value
  let kept ← keepRows (betweenHashes server lo hi) rows
  pure (server.byHash kept)

def getByHashRange (hashStart hashEnd : String) : Db (List DeviceCharacteristic) := do
  ensureConnected env
  Comp.tryCatch (query env (hashRange server hashStart hashEnd) >>= decodeRows env)
    fun e => Comp.throw ("Get by hash range error: " ++ e)

/-! ## Tables that insertions make -/

/-- A table into which records were inserted, one by one. An insertion may fail. -/
inductive Reachable : World → Prop where
  | start {w : World} (empty : w.rows = []) : Reachable w
  | inserted {w u : World} {d : DeviceCharacteristic} (before : Reachable w)
      (returned : ((insert env d) w).outcome = .ok () u) : Reachable u
  | refused {w u : World} {d : DeviceCharacteristic} {e : String} (before : Reachable w)
      (threw : ((insert env d) w).outcome = .throw e u) : Reachable u

/-- One insertion adds its row or nothing. -/
theorem rows_of_updated {write : List Row → List Row} {w u : World}
    {outcome : Outcome String World Unit} (h : Updated env write w outcome)
    (hu : outcome = .ok () u ∨ ∃ e, outcome = .throw e u) : u.rows = w.rows ∨ u.rows = write w.rows := by
  cases h with
  | done =>
    rcases hu with hu | ⟨_, hu⟩ <;> cases hu
    exact .inr rfl
  | failed =>
    rcases hu with hu | ⟨_, hu⟩ <;> cases hu
    exact .inl rfl
  | inDoubt =>
    rcases hu with hu | ⟨_, hu⟩ <;> cases hu
    exact .inr rfl

theorem insertedRow_of_step {w u : World} (d : DeviceCharacteristic)
    (hrows : ∀ row ∈ w.rows, ∃ d, row = insertedRow env.json d)
    (hu : ((insert env d) w).outcome = .ok () u ∨ ∃ e, ((insert env d) w).outcome = .throw e u) :
    ∀ row ∈ u.rows, ∃ d, row = insertedRow env.json d := by
  have hupdated := update_updated env "Insert error: " (· ++ [insertedRow env.json d]) w
  intro row hrow
  rcases rows_of_updated env hupdated hu with heq | heq
  · rw [heq] at hrow
    exact hrows row hrow
  · rw [heq] at hrow
    rcases List.mem_append.mp hrow with hrow | hrow
    · exact hrows row hrow
    · exact ⟨d, List.mem_singleton.mp hrow⟩

/-- Every row of such a table is the row of a record. -/
theorem Reachable.insertedRow {w : World} (h : Reachable env w) :
    ∀ row ∈ w.rows, ∃ d, row = insertedRow env.json d := by
  induction h with
  | start empty =>
    intro row hrow
    rw [empty] at hrow
    cases hrow
  | @inserted w u d _ returned ih => exact insertedRow_of_step env d ih (.inl returned)
  | @refused w u d e _ threw ih => exact insertedRow_of_step env d ih (.inr ⟨e, threw⟩)

/-- The library parses what it prints. -/
def Parses (json : JsonLibrary) : Prop := ∀ j, ∃ j', json.parse (json.dump none j) = .ok j'

theorem Reachable.decodes {w : World} (h : Reachable env w) (hjson : Parses env.json) :
    ∀ row ∈ w.rows, ∃ d, dcharFromRow env.json row = .ok d := by
  intro row hrow
  obtain ⟨d, rfl⟩ := h.insertedRow env row hrow
  obtain ⟨j, hj⟩ := hjson d.characteristic
  refine ⟨(Database.insertedRow env.json d).record j, ?_⟩
  unfold dcharFromRow
  change (env.json.parse (env.json.dump none d.characteristic)).map _ = _
  rw [hj]
  rfl

/-- The table of a list of records. -/
def tableOf (ds : List DeviceCharacteristic) : World :=
  ⟨ds.map (insertedRow env.json), ds.length, ∅⟩

theorem reachable_tableOf (hfault : ∀ n, env.fault n = none) (ds : List DeviceCharacteristic) :
    Reachable env (tableOf env ds) := by
  induction ds using List.reverseRecOn with
  | nil => exact .start rfl
  | append_singleton ds d ih =>
    have hinsert := update_ok env "Insert error: " (· ++ [insertedRow env.json d])
      (hfault (tableOf env ds).served)
    have hcommit : (tableOf env ds).commit (· ++ [insertedRow env.json d]) =
        tableOf env (ds ++ [d]) := by
      unfold tableOf World.commit
      rw [List.map_append, List.length_append]
      rfl
    rw [hcommit] at hinsert
    exact .inserted (d := d) ih hinsert

/-! ## A server -/

instance : DecidableRel DescNullsFirst
  | none, _ => isTrue trivial
  | some a, some b => inferInstanceAs (Decidable (b ≤ a))
  | some _, none => isFalse id

def NotEarlier (a b : Row) : Prop := DescNullsFirst a.recordtime b.recordtime

instance : DecidableRel NotEarlier := fun _ _ => inferInstanceAs (Decidable (DescNullsFirst _ _))

theorem descNullsFirst_total (a b : Option Int64) : DescNullsFirst a b ∨ DescNullsFirst b a := by
  cases a with
  | none => exact .inl trivial
  | some a =>
    cases b with
    | none => exact .inr trivial
    | some b => exact Int64.le_total b a

theorem descNullsFirst_trans {a b c : Option Int64} (hab : DescNullsFirst a b)
    (hbc : DescNullsFirst b c) : DescNullsFirst a c := by
  cases a with
  | none => trivial
  | some a =>
    cases b with
    | none => exact hab.elim
    | some b =>
      cases c with
      | none => exact hbc.elim
      | some c => exact Int64.le_trans hbc hab

instance : Std.Total NotEarlier := ⟨fun a b => descNullsFirst_total a.recordtime b.recordtime⟩

instance : IsTrans Row NotEarlier := ⟨fun _ _ _ => descNullsFirst_trans⟩

/-- Decimal digits. -/
def decimal (text : String) : Option Int :=
  if text ≠ "" ∧ text.toList.all Char.isDigit then
    some (text.toList.foldl (fun n c => 10 * n + (c.toNat - 48)) 0)
  else none

/-- A server that sorts by insertion. -/
def plainServer : Server where
  latest rows := rows.insertionSort NotEarlier
  latest_perm rows := List.perm_insertionSort NotEarlier rows
  latest_sorted rows := List.pairwise_insertionSort NotEarlier rows
  byHash rows := rows
  byHash_perm := List.Perm.refl
  integer := decimal

/-- An environment in which nothing fails and every characteristic is the number one. -/
def plainEnv : Environment where
  json :=
    { dump := fun _ _ => "1"
      parse := fun _ => .ok (.integer ⟨1, by decide, by decide⟩)
      extract := fun _ => .error "parse error" }
  fault _ := none
  order rows := rows
  order_perm := List.Perm.refl
  writable _ := true

def plainRecord (name : String) (hash : Option String) (time : Option Int64) :
    DeviceCharacteristic where
  scope := "lab"
  name := name
  barrierGate := none
  plungerGate := none
  reservoirGate := none
  screeningGate := none
  extra := none
  uncertainty := none
  hash := hash
  time := time
  state := none
  unitName := none
  characteristic := .integer ⟨1, by decide, by decide⟩

/-! ## Answers -/

theorem query_ok {evaluate : List Row → Except String (List Row)} {w : World} {rows : List Row}
    (hfault : env.fault w.served = none) (h : evaluate w.rows = .ok rows) :
    (query env evaluate w).outcome = .ok rows w.skip := by
  unfold query
  rw [hfault]
  dsimp only
  rw [h]

theorem query_throw {evaluate : List Row → Except String (List Row)} {w : World} {what : String}
    (hfault : env.fault w.served = none) (h : evaluate w.rows = .error what) :
    (query env evaluate w).outcome = .throw what w.skip := by
  unfold query
  rw [hfault]
  dsimp only
  rw [h]

theorem ensureConnected_of_fault {w : World} (hfault : env.fault w.served = none) :
    (ensureConnected env w).outcome = .ok () w := by
  refine ensureConnected_ok env fun what => ?_
  rw [hfault]
  exact nofun

theorem getByName_nil {name : String} {w : World} (hfault : env.fault w.served = none)
    (hnone : w.rows.filter (Named name ·) = []) :
    ((getByName env server name) w).outcome = .ok none w.skip := by
  have hlatest : server.latest (w.rows.filter (Named name ·)) = [] := by
    rw [hnone]
    exact List.perm_nil.mp (server.latest_perm [])
  have hquery : (query env (fun rows => .ok ((server.latest (rows.filter (Named name ·))).take 1))
      w).outcome = .ok [] w.skip := by
    refine query_ok env hfault ?_
    rw [hlatest]
    rfl
  unfold getByName
  rw [Comp.bind_of_ok (ensureConnected_of_fault env hfault)]
  exact Comp.tryCatch_of_ok ((Comp.bind_of_ok hquery).trans rfl)

theorem getByName_cons {name : String} {w : World} {row : Row} {rest : List Row}
    {d : DeviceCharacteristic} (hfault : env.fault w.served = none)
    (hlatest : server.latest (w.rows.filter (Named name ·)) = row :: rest)
    (hd : dcharFromRow env.json row = .ok d) :
    ((getByName env server name) w).outcome = .ok (some d) w.skip := by
  have hquery : (query env (fun rows => .ok ((server.latest (rows.filter (Named name ·))).take 1))
      w).outcome = .ok [row] w.skip := by
    refine query_ok env hfault ?_
    rw [hlatest]
    rfl
  have hdecode : (firstRecord env [row] w.skip).outcome = .ok (some d) w.skip := by
    unfold firstRecord decodeRows
    dsimp only
    rw [List.mapM_cons, hd]
    rfl
  unfold getByName
  rw [Comp.bind_of_ok (ensureConnected_of_fault env hfault)]
  exact Comp.tryCatch_of_ok ((Comp.bind_of_ok hquery).trans hdecode)

/-- What `get_by_name` is there for: nothing, or the record of a row of the name whose time is the
greatest of those that rows of the name have. -/
structure LatestByName (name : String) (w : World) : Prop where
  nothing : (∀ row ∈ w.rows, ¬Named name row) →
    ((getByName env server name) w).outcome = .ok none w.skip
  latest : (∃ row ∈ w.rows, Named name row) → ∃ row ∈ w.rows, Named name row ∧
    (∀ other ∈ w.rows, Named name other → ∀ t, other.recordtime = some t →
      ∃ t', row.recordtime = some t' ∧ t ≤ t') ∧
    ∃ d, dcharFromRow env.json row = .ok d ∧
      ((getByName env server name) w).outcome = .ok (some d) w.skip

theorem time_of_dcharFromRow {json : JsonLibrary} {row : Row} {d : DeviceCharacteristic}
    (h : dcharFromRow json row = .ok d) : d.time = row.recordtime := by
  unfold dcharFromRow at h
  cases hc : columnJson json row.deviceCharacteristic with
  | error e =>
    rw [hc] at h
    cases h
  | ok j =>
    rw [hc] at h
    cases h
    rfl

/-- The first row of the answer comes before every row of the name. -/
theorem head_of_latest {rows rest : List Row} {row : Row} (h : server.latest rows = row :: rest)
    {other : Row} (hm : other ∈ rows) :
    row = other ∨ DescNullsFirst row.recordtime other.recordtime := by
  have hsorted := server.latest_sorted rows
  rw [h] at hsorted
  have hm' : other ∈ row :: rest := h ▸ (server.latest_perm rows).mem_iff.mpr hm
  rcases List.mem_cons.mp hm' with rfl | hm'
  · exact .inl rfl
  · exact .inr ((List.pairwise_cons.mp hsorted).1 other hm')

/-- A row without a time comes first. -/
theorem latestByName_iff {name : String} {w : World} (hjson : Parses env.json)
    (hr : Reachable env w) (hfault : env.fault w.served = none) :
    LatestByName env server name w ↔
      (∀ row ∈ w.rows, Named name row → row.recordtime ≠ none) ∨
        ∀ row ∈ w.rows, Named name row → row.recordtime = none := by
  have hmem : ∀ {row : Row}, row ∈ w.rows.filter (Named name ·) ↔ row ∈ w.rows ∧ Named name row := by
    intro row
    rw [List.mem_filter, decide_eq_true_iff]
  cases hlatest : server.latest (w.rows.filter (Named name ·)) with
  | nil =>
    have hnone : w.rows.filter (Named name ·) = [] := by
      have hperm := server.latest_perm (w.rows.filter (Named name ·))
      rw [hlatest] at hperm
      exact List.nil_perm.mp hperm
    have hnot : ∀ row ∈ w.rows, ¬Named name row := by
      intro row hrow hnamed
      have hm := hmem.mpr ⟨hrow, hnamed⟩
      rw [hnone] at hm
      cases hm
    refine iff_of_true ⟨fun _ => getByName_nil env server hfault hnone, ?_⟩ ?_
    · rintro ⟨row, hrow, hnamed⟩
      exact absurd hnamed (hnot row hrow)
    · exact .inl fun row hrow hnamed => absurd hnamed (hnot row hrow)
  | cons first rest =>
    have hfirst : first ∈ w.rows ∧ Named name first := by
      refine hmem.mp ((server.latest_perm _).mem_iff.mp ?_)
      rw [hlatest]
      exact List.mem_cons_self
    obtain ⟨d, hd⟩ := hr.decodes env hjson first hfirst.1
    have houtcome := getByName_cons env server hfault hlatest hd
    have hbefore : ∀ {other : Row}, other ∈ w.rows → Named name other →
        first = other ∨ DescNullsFirst first.recordtime other.recordtime :=
      fun hother hnamed => head_of_latest server hlatest (hmem.mpr ⟨hother, hnamed⟩)
    constructor
    · rintro ⟨_, hgreatest⟩
      obtain ⟨row, _, _, hbest, d', hd', houtcome'⟩ := hgreatest ⟨first, hfirst⟩
      rw [houtcome] at houtcome'
      obtain rfl := Option.some.inj (Outcome.ok.inj houtcome').1
      have htime : row.recordtime = first.recordtime :=
        (time_of_dcharFromRow hd').symm.trans (time_of_dcharFromRow hd)
      by_cases hnull : first.recordtime = none
      · refine .inr fun other hother hnamed => ?_
        cases ht : other.recordtime with
        | none => rfl
        | some t =>
          obtain ⟨t', ht', _⟩ := hbest other hother hnamed t ht
          rw [htime, hnull] at ht'
          cases ht'
      · refine .inl fun other hother hnamed hother' => ?_
        rcases hbefore hother hnamed with heq | hdesc
        · exact hnull (heq ▸ hother')
        · rw [hother'] at hdesc
          cases ht : first.recordtime with
          | none => exact hnull ht
          | some t =>
            rw [ht] at hdesc
            exact hdesc
    · intro hcases
      refine ⟨fun hnot => absurd hfirst.2 (hnot first hfirst.1), fun _ => ?_⟩
      refine ⟨first, hfirst.1, hfirst.2, fun other hother hnamed t ht => ?_, d, hd, houtcome⟩
      have hsome : first.recordtime ≠ none := by
        rcases hcases with hall | hall
        · exact hall first hfirst.1 hfirst.2
        · rw [hall other hother hnamed] at ht
          cases ht
      obtain ⟨t', ht'⟩ := Option.ne_none_iff_exists'.mp hsome
      refine ⟨t', ht', ?_⟩
      rcases hbefore hother hnamed with rfl | hdesc
      · rw [ht'] at ht
        exact Int64.le_of_eq (Option.some.inj ht).symm
      · rw [ht', ht] at hdesc
        exact hdesc

/-- The table with these times under the name `n`. -/
def timesTable (times : List (Option Int64)) : World :=
  tableOf plainEnv (times.map (plainRecord "n" none))

theorem latestByName_iff_timed :
    LatestByName plainEnv plainServer "n" (timesTable [some 5, some 7]) := by
  have hreachable : Reachable plainEnv (timesTable [some 5, some 7]) :=
    reachable_tableOf plainEnv (fun _ => rfl) _
  refine (latestByName_iff plainEnv plainServer (fun _ => ⟨_, rfl⟩) hreachable rfl).mpr (.inl ?_)
  decide +kernel

/-- The record without a time hides the one that has a time. -/
theorem not_latestByName_untimed :
    Reachable plainEnv (timesTable [some 5, none]) ∧
    ((getByName plainEnv plainServer "n") (timesTable [some 5, none])).outcome =
      .ok (some (plainRecord "n" none none)) (timesTable [some 5, none]).skip ∧
    ¬LatestByName plainEnv plainServer "n" (timesTable [some 5, none]) := by
  have houtcome : ((getByName plainEnv plainServer "n") (timesTable [some 5, none])).outcome =
      .ok (some (plainRecord "n" none none)) (timesTable [some 5, none]).skip := by
    exact getByName_cons plainEnv plainServer rfl rfl rfl
  refine ⟨reachable_tableOf plainEnv (fun _ => rfl) _, houtcome, ?_⟩
  rintro ⟨_, hlatest⟩
  obtain ⟨row, _, _, hbest, d, hd, hreturned⟩ := hlatest (by decide +kernel)
  rw [houtcome] at hreturned
  obtain rfl := Option.some.inj (Outcome.ok.inj hreturned).1
  have htime : none = row.recordtime := time_of_dcharFromRow hd
  have htimed : insertedRow plainEnv.json (plainRecord "n" none (some 5)) ∈
      (timesTable [some 5, none]).rows := List.mem_cons_self
  obtain ⟨_, htime', _⟩ := hbest _ htimed rfl 5 rfl
  rw [← htime] at htime'
  cases htime'

/-! ## What the hash range is -/

/-- The list of integers that a text is, of any size. -/
def dotted (text : String) : Option (List Int) := (stringToArray text).mapM server.integer

/-- The hash of a row is a list of integers between the bounds. -/
def between (lo hi : List Int) (row : Row) : Bool :=
  match row.hash.bind fun hash => dotted server hash.value with
  | some ints => decide (lo ≤ ints) && decide (ints ≤ hi)
  | none => false

/-- What `get_by_hash_range` is there for: exactly the records of the rows between the bounds. -/
def HashRangeExact (hashStart hashEnd : String) (lo hi : List Int) (w : World) : Prop :=
  ∃ (rows : List Row) (ds : List DeviceCharacteristic),
    rows.Perm (w.rows.filter (between server lo hi)) ∧
    rows.mapM (dcharFromRow env.json) = .ok ds ∧
      ((getByHashRange env server hashStart hashEnd) w).outcome = .ok ds w.skip

theorem castInt_eq_ok {text : String} {i : Int} :
    castInt server text = .ok i ↔ server.integer text = some i ∧ IsInt4 i := by
  unfold castInt
  cases server.integer text with
  | none => exact iff_of_false nofun nofun
  | some j =>
    dsimp only
    by_cases hj : IsInt4 j
    · rw [if_pos hj]
      constructor
      · intro h
        cases h
        exact ⟨rfl, hj⟩
      · rintro ⟨h, _⟩
        cases h
        rfl
    · rw [if_neg hj]
      refine iff_of_false nofun ?_
      rintro ⟨h, hi⟩
      cases h
      exact hj hi

theorem mapM_castInt_eq_ok {parts : List String} {ints : List Int} :
    parts.mapM (castInt server) = .ok ints ↔
      parts.mapM server.integer = some ints ∧ ∀ i ∈ ints, IsInt4 i := by
  induction parts generalizing ints with
  | nil =>
    constructor
    · intro h
      cases h
      exact ⟨rfl, nofun⟩
    · rintro ⟨h, _⟩
      cases h
      rfl
  | cons part parts ih =>
    rw [List.mapM_cons, List.mapM_cons]
    constructor
    · intro h
      cases hpart : castInt server part with
      | error what =>
        rw [hpart] at h
        cases h
      | ok i =>
        rw [hpart] at h
        cases hrest : parts.mapM (castInt server) with
        | error what =>
          rw [hrest] at h
          cases h
        | ok rest =>
          rw [hrest] at h
          cases h
          obtain ⟨hi, hint⟩ := (castInt_eq_ok server).mp hpart
          obtain ⟨his, hints⟩ := ih.mp hrest
          rw [hi, his]
          exact ⟨rfl, List.forall_mem_cons.mpr ⟨hint, hints⟩⟩
    · rintro ⟨h, hints⟩
      obtain ⟨i, hi, h⟩ := Option.bind_eq_some_iff.mp h
      obtain ⟨rest, hrest, h⟩ := Option.bind_eq_some_iff.mp h
      cases h
      obtain ⟨hint, hints⟩ := List.forall_mem_cons.mp hints
      rw [(castInt_eq_ok server).mpr ⟨hi, hint⟩, ih.mpr ⟨hrest, hints⟩]
      rfl

theorem castArray_eq_ok {text : String} {ints : List Int} :
    castArray server text = .ok ints ↔ dotted server text = some ints ∧ ∀ i ∈ ints, IsInt4 i :=
  mapM_castInt_eq_ok server

theorem keepRows_of_ok {test : Row → Except String Bool} {p : Row → Bool} {rows : List Row}
    (h : ∀ row ∈ rows, test row = .ok (p row)) : keepRows test rows = .ok (rows.filter p) := by
  induction rows with
  | nil => rfl
  | cons row rows ih =>
    obtain ⟨hrow, hrows⟩ := List.forall_mem_cons.mp h
    unfold keepRows
    rw [hrow, ih hrows, List.filter_cons]
    rfl

theorem keepRows_eq_ok {test : Row → Except String Bool} {rows kept : List Row}
    (h : keepRows test rows = .ok kept) : ∀ row ∈ rows, ∃ keep, test row = .ok keep := by
  induction rows generalizing kept with
  | nil =>
    intro row hrow
    cases hrow
  | cons row rows ih =>
    unfold keepRows at h
    cases hrow : test row with
    | error what =>
      rw [hrow] at h
      cases h
    | ok keep =>
      rw [hrow] at h
      cases hrows : keepRows test rows with
      | error what =>
        rw [hrows] at h
        cases h
      | ok kept' => exact List.forall_mem_cons.mpr ⟨⟨keep, hrow⟩, ih hrows⟩

/-- A row on which the test does not fail is returned when its hash is between the bounds. -/
theorem betweenHashes_of_ok {lo hi : List Int} {row : Row}
    (h : ∀ hash, row.hash = some hash → ∃ ints, castArray server hash.value = .ok ints) :
    betweenHashes server lo hi row = .ok (between server lo hi row) := by
  unfold betweenHashes between
  cases hhash : row.hash with
  | none => rfl
  | some hash =>
    obtain ⟨ints, hints⟩ := h hash hhash
    dsimp only
    rw [hints, Option.bind_some, ((castArray_eq_ok server).mp hints).1]
    rfl

theorem castArray_of_betweenHashes {lo hi : List Int} {row : Row} {keep : Bool}
    (h : betweenHashes server lo hi row = .ok keep) {hash : Text} (hhash : row.hash = some hash) :
    ∃ ints, castArray server hash.value = .ok ints := by
  unfold betweenHashes at h
  rw [hhash] at h
  cases hc : castArray server hash.value with
  | error what =>
    dsimp only at h
    rw [hc] at h
    cases h
  | ok ints => exact ⟨ints, rfl⟩

/-- The query returns when every text in it is a list of `int`s. -/
theorem hashRange_eq_ok {hashStart hashEnd : String} {rows found : List Row}
    (h : hashRange server hashStart hashEnd rows = .ok found) :
    (∃ lo, castArray server (cStr hashStart).value = .ok lo) ∧
    (∃ hi, castArray server (cStr hashEnd).value = .ok hi) ∧
    ∀ row ∈ rows, ∀ hash, row.hash = some hash → ∃ ints, castArray server hash.value = .ok ints := by
  unfold hashRange at h
  cases hlo : castArray server (cStr hashStart).value with
  | error what =>
    rw [hlo] at h
    cases h
  | ok lo =>
    rw [hlo] at h
    cases hhi : castArray server (cStr hashEnd).value with
    | error what =>
      rw [hhi] at h
      cases h
    | ok hi =>
      rw [hhi] at h
      cases hkept : keepRows (betweenHashes server lo hi) rows with
      | error what =>
        change (keepRows (betweenHashes server lo hi) rows >>= _) = _ at h
        rw [hkept] at h
        cases h
      | ok kept =>
        refine ⟨⟨lo, rfl⟩, ⟨hi, rfl⟩, fun row hrow hash hhash => ?_⟩
        obtain ⟨keep, hkeep⟩ := keepRows_eq_ok hkept row hrow
        exact castArray_of_betweenHashes server hkeep hhash

theorem hashRange_of_ok {hashStart hashEnd : String} {lo hi : List Int} {rows : List Row}
    (hlo : castArray server (cStr hashStart).value = .ok lo)
    (hhi : castArray server (cStr hashEnd).value = .ok hi)
    (h : ∀ row ∈ rows, ∀ hash, row.hash = some hash →
      ∃ ints, castArray server hash.value = .ok ints) :
    hashRange server hashStart hashEnd rows =
      .ok (server.byHash (rows.filter (between server lo hi))) := by
  have htest : ∀ row ∈ rows, betweenHashes server lo hi row = .ok (between server lo hi row) :=
    fun row hrow => betweenHashes_of_ok server (h row hrow)
  have hkept := keepRows_of_ok htest
  unfold hashRange
  rw [hlo, hhi]
  change (keepRows (betweenHashes server lo hi) rows >>= _) = _
  rw [hkept]
  rfl

theorem getByHashRange_ok {hashStart hashEnd : String} {w : World} {rows : List Row}
    {ds : List DeviceCharacteristic} (hfault : env.fault w.served = none)
    (hrange : hashRange server hashStart hashEnd w.rows = .ok rows)
    (hds : rows.mapM (dcharFromRow env.json) = .ok ds) :
    ((getByHashRange env server hashStart hashEnd) w).outcome = .ok ds w.skip := by
  have hdecode : (decodeRows env rows w.skip).outcome = .ok ds w.skip := by
    unfold decodeRows
    rw [hds]
    rfl
  unfold getByHashRange
  rw [Comp.bind_of_ok (ensureConnected_of_fault env hfault)]
  exact Comp.tryCatch_of_ok ((Comp.bind_of_ok (query_ok env hfault hrange)).trans hdecode)

theorem getByHashRange_throw {hashStart hashEnd : String} {w : World} {what : String}
    (hfault : env.fault w.served = none)
    (hrange : hashRange server hashStart hashEnd w.rows = .error what) :
    ((getByHashRange env server hashStart hashEnd) w).outcome =
      .throw ("Get by hash range error: " ++ what) w.skip := by
  unfold getByHashRange
  rw [Comp.bind_of_ok (ensureConnected_of_fault env hfault)]
  exact Comp.tryCatch_of_throw (Comp.bind_of_throw (query_throw env hfault hrange))

/-- One hash that is no list of `int`s makes every query fail. -/
theorem hashRangeExact_iff {hashStart hashEnd : String} {lo hi : List Int} {w : World}
    (hjson : Parses env.json) (hr : Reachable env w) (hfault : env.fault w.served = none)
    (hlo : dotted server (cStr hashStart).value = some lo)
    (hhi : dotted server (cStr hashEnd).value = some hi) :
    HashRangeExact env server hashStart hashEnd lo hi w ↔
      (∀ i ∈ lo, IsInt4 i) ∧ (∀ i ∈ hi, IsInt4 i) ∧
      ∀ row ∈ w.rows, ∀ hash, row.hash = some hash →
        ∃ ints, dotted server hash.value = some ints ∧ ∀ i ∈ ints, IsInt4 i := by
  simp only [← castArray_eq_ok]
  constructor
  · rintro ⟨_, ds, _, _, houtcome⟩
    cases hrange : hashRange server hashStart hashEnd w.rows with
    | error what =>
      rw [getByHashRange_throw env server hfault hrange] at houtcome
      cases houtcome
    | ok found =>
      obtain ⟨⟨lo', hlo'⟩, ⟨hi', hhi'⟩, hrows⟩ := hashRange_eq_ok server hrange
      obtain ⟨hlo'', hlos⟩ := (castArray_eq_ok server).mp hlo'
      obtain ⟨hhi'', hhis⟩ := (castArray_eq_ok server).mp hhi'
      obtain rfl := Option.some.inj (hlo.symm.trans hlo'')
      obtain rfl := Option.some.inj (hhi.symm.trans hhi'')
      exact ⟨hlos, hhis, hrows⟩
  · rintro ⟨hlos, his, hrows⟩
    have hrange := hashRange_of_ok server ((castArray_eq_ok server).mpr ⟨hlo, hlos⟩)
      ((castArray_eq_ok server).mpr ⟨hhi, his⟩) hrows
    have hperm := server.byHash_perm (w.rows.filter (between server lo hi))
    obtain ⟨ds, hds⟩ := exists_mapM_eq_ok fun row hrow =>
      hr.decodes env hjson row (List.mem_filter.mp (hperm.mem_iff.mp hrow)).1
    exact ⟨_, ds, hperm, hds, getByHashRange_ok env server hfault hrange hds⟩

/-- The table with these hashes. -/
def hashTable (hashes : List (Option String)) : World :=
  tableOf plainEnv (hashes.map fun hash => plainRecord "n" hash none)

theorem hashRangeExact_iff_dotted : HashRangeExact plainEnv plainServer "2.0" "7.0" [2, 0] [7, 0]
    (hashTable [some "1.9", none, some "7.0.0"]) := by
  have hreachable : Reachable plainEnv (hashTable [some "1.9", none, some "7.0.0"]) :=
    reachable_tableOf plainEnv (fun _ => rfl) _
  have hlo : dotted plainServer (cStr "2.0").value = some [2, 0] := by decide +kernel
  have hhi : dotted plainServer (cStr "7.0").value = some [7, 0] := by decide +kernel
  refine (hashRangeExact_iff plainEnv plainServer (fun _ => ⟨_, rfl⟩) hreachable rfl hlo hhi).mpr
    ⟨by decide, by decide, fun row hrow hash hhash => ?_⟩
  have hvalue : hash.value = "1.9" ∨ hash.value = "7.0.0" := by
    simp only [hashTable, tableOf, List.map_cons, List.map_nil, List.mem_cons, List.not_mem_nil,
      or_false] at hrow
    rcases hrow with rfl | rfl | rfl <;> cases hhash
    · exact .inl rfl
    · exact .inr rfl
  rcases hvalue with hvalue | hvalue
  · exact ⟨[1, 9], by rw [hvalue]; decide +kernel, by decide⟩
  · exact ⟨[7, 0, 0], by rw [hvalue]; decide +kernel, by decide⟩

/-- A hash of another format makes the query of a range fail. -/
theorem not_hashRangeExact_text : Reachable plainEnv (hashTable [some "2.5", some "hash_0"]) ∧
    ((getByHashRange plainEnv plainServer "2.0" "7.0")
      (hashTable [some "2.5", some "hash_0"])).outcome =
        .throw "Get by hash range error: invalid input syntax for type integer: \"hash_0\""
          (hashTable [some "2.5", some "hash_0"]).skip ∧
    ¬HashRangeExact plainEnv plainServer "2.0" "7.0" [2, 0] [7, 0]
      (hashTable [some "2.5", some "hash_0"]) := by
  have hrange : hashRange plainServer "2.0" "7.0" (hashTable [some "2.5", some "hash_0"]).rows =
      .error "invalid input syntax for type integer: \"hash_0\"" := by
    rfl
  have hthrow := getByHashRange_throw plainEnv plainServer (w := hashTable [some "2.5", some "hash_0"]) rfl hrange
  refine ⟨reachable_tableOf plainEnv (fun _ => rfl) _, hthrow, ?_⟩
  rintro ⟨_, _, _, _, houtcome⟩
  rw [hthrow] at houtcome
  cases houtcome

end FalconLib.Database
