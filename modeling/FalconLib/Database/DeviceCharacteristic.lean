import FalconLib.Base.Json

/-!
# Device characteristics and their JSON form

`to_json` leaves absent fields out; `from_json` takes an absent member and a null for an
absent field. Each undoes the other.
-/

namespace FalconLib.Database

open FalconLib.Base

structure DeviceCharacteristic where
  scope : String
  name : String
  barrierGate : Option String
  plungerGate : Option String
  reservoirGate : Option String
  screeningGate : Option String
  extra : Option String
  uncertainty : Option Binary64
  hash : Option String
  time : Option Int64
  state : Option String
  unitName : Option String
  characteristic : Json

namespace DeviceCharacteristic

/-- `put_opt`, on the members of the object that is filled. -/
def putOpt {α : Type} (key : String) (toJson : α → Json) (opt : Option α)
    (members : List (String × Json)) : List (String × Json) :=
  match opt with
  | some value => Members.assign key (toJson value) members
  | none => members

def int64Json (i : Int64) : Json := .integer (JsonInteger.ofInt64 i)

def toMembers (d : DeviceCharacteristic) : List (String × Json) :=
  let members := Members.assign "scope" (.string d.scope) []
  let members := Members.assign "name" (.string d.name) members
  let members := putOpt "barrier_gate" .string d.barrierGate members
  let members := putOpt "plunger_gate" .string d.plungerGate members
  let members := putOpt "reservoir_gate" .string d.reservoirGate members
  let members := putOpt "screening_gate" .string d.screeningGate members
  let members := putOpt "extra" .string d.extra members
  let members := putOpt "uncertainty" .float d.uncertainty members
  let members := putOpt "hash" .string d.hash members
  let members := putOpt "recordtime" int64Json d.time members
  let members := putOpt "device_state" .string d.state members
  let members := putOpt "unit_name" .string d.unitName members
  Members.assign "characteristic" d.characteristic members

def toJson (d : DeviceCharacteristic) : Json := .object d.toMembers

/-- `get_opt_str`, `get_opt_double` and `get_opt_int64`. -/
def getOpt {α : Type} (get : Json → Except JsonFailure α) (key : String) (j : Json) :
    Except JsonFailure (Option α) :=
  match j.find? key with
  | none => .ok none
  | some .null => .ok none
  | some member => (get member).map some

/-- `json["characteristic"]` of a constant document. -/
def characteristicMember (j : Json) : Except JsonFailure Json :=
  match j.find? "characteristic" with
  | some member => .ok member
  | none => .error .undefined

def fromJson (j : Json) : Except JsonFailure DeviceCharacteristic := do
  let scope ← j.valueString "scope"
  let name ← j.valueString "name"
  let barrierGate ← getOpt Json.getString "barrier_gate" j
  let plungerGate ← getOpt Json.getString "plunger_gate" j
  let reservoirGate ← getOpt Json.getString "reservoir_gate" j
  let screeningGate ← getOpt Json.getString "screening_gate" j
  let extra ← getOpt Json.getString "extra" j
  let uncertainty ← getOpt Json.getDouble "uncertainty" j
  let hash ← getOpt Json.getString "hash" j
  let time ← getOpt Json.getInt64 "recordtime" j
  let state ← getOpt Json.getString "device_state" j
  let unitName ← getOpt Json.getString "unit_name" j
  let characteristic ← characteristicMember j
  pure ⟨scope, name, barrierGate, plungerGate, reservoirGate, screeningGate, extra, uncertainty,
    hash, time, state, unitName, characteristic⟩

/-! ## Reading back what was written -/

theorem lookup_putOpt_ne {α : Type} {key k : String} (toJson : α → Json) (opt : Option α)
    (members : List (String × Json)) (h : k ≠ key) :
    (putOpt key toJson opt members).lookup k = members.lookup k := by
  unfold putOpt
  cases opt with
  | none => rfl
  | some value => exact Members.lookup_assign_ne _ _ h

theorem lookup_putOpt_self {α : Type} {key : String} (toJson : α → Json) (opt : Option α)
    {members : List (String × Json)} (h : members.lookup key = none) :
    (putOpt key toJson opt members).lookup key = opt.map toJson := by
  unfold putOpt
  cases opt with
  | none => exact h
  | some value => exact Members.lookup_assign_self _ _ _

/-- An optional field is read back if its encoding is, and is never null. -/
theorem getOpt_of_lookup {α : Type} {get : Json → Except JsonFailure α} (toJson : α → Json)
    {key : String} {members : List (String × Json)} {opt : Option α}
    (hget : ∀ a, get (toJson a) = .ok a) (hnull : ∀ a, toJson a ≠ .null)
    (h : members.lookup key = opt.map toJson) :
    getOpt get key (.object members) = .ok opt := by
  unfold getOpt
  rw [Json.find?_object, h]
  cases opt with
  | none => rfl
  | some a =>
    rw [Option.map_some]
    cases hj : toJson a with
    | null => exact absurd hj (hnull a)
    | _ => simp only [← hj, hget, Except.map]

theorem getInt64_int64Json (i : Int64) : (int64Json i).getInt64 = .ok i :=
  congrArg Except.ok (Int64.ofInt_toInt i)

theorem int64Json_ne_null (i : Int64) : int64Json i ≠ .null := by
  unfold int64Json
  exact nofun

/-- Every optional field stands under its own key, and nothing else does. -/
theorem getOpt_toJson (d : DeviceCharacteristic) :
    getOpt Json.getString "barrier_gate" d.toJson = .ok d.barrierGate ∧
    getOpt Json.getString "plunger_gate" d.toJson = .ok d.plungerGate ∧
    getOpt Json.getString "reservoir_gate" d.toJson = .ok d.reservoirGate ∧
    getOpt Json.getString "screening_gate" d.toJson = .ok d.screeningGate ∧
    getOpt Json.getString "extra" d.toJson = .ok d.extra ∧
    getOpt Json.getDouble "uncertainty" d.toJson = .ok d.uncertainty ∧
    getOpt Json.getString "hash" d.toJson = .ok d.hash ∧
    getOpt Json.getInt64 "recordtime" d.toJson = .ok d.time ∧
    getOpt Json.getString "device_state" d.toJson = .ok d.state ∧
    getOpt Json.getString "unit_name" d.toJson = .ok d.unitName := by
  have hnumber {members : List (String × Json)} (h : members.lookup "recordtime" = _) :
      getOpt Json.getInt64 "recordtime" (.object members) = .ok d.time :=
    getOpt_of_lookup int64Json getInt64_int64Json int64Json_ne_null h
  have hstring {key : String} {opt : Option String}
      (h : d.toMembers.lookup key = opt.map Json.string) :
      getOpt Json.getString key d.toJson = .ok opt :=
    getOpt_of_lookup Json.string (fun _ => rfl) (fun _ => nofun) h
  refine ⟨hstring ?_, hstring ?_, hstring ?_, hstring ?_, hstring ?_,
    getOpt_of_lookup Json.float (fun _ => rfl) (fun _ => nofun) ?_, hstring ?_, hnumber ?_, hstring ?_, hstring ?_⟩
  all_goals
    simp [toMembers, Members.lookup_assign_ne, lookup_putOpt_ne, lookup_putOpt_self]

theorem fromJson_toJson (d : DeviceCharacteristic) : fromJson d.toJson = .ok d := by
  obtain ⟨hbarrier, hplunger, hreservoir, hscreening, hextra, huncertainty, hhash, htime, hstate,
    hunit⟩ := getOpt_toJson d
  have hscope : d.toJson.valueString "scope" = .ok d.scope := by
    simp [toJson, Json.valueString, toMembers, Members.lookup_assign_ne, lookup_putOpt_ne,
      Json.getString]
  have hname : d.toJson.valueString "name" = .ok d.name := by
    simp [toJson, Json.valueString, toMembers, Members.lookup_assign_ne, lookup_putOpt_ne,
      Json.getString]
  have hcharacteristic : characteristicMember d.toJson = .ok d.characteristic := by
    simp [toJson, characteristicMember, toMembers]
  unfold fromJson
  rw [hscope, hname, hbarrier, hplunger, hreservoir, hscreening, hextra, huncertainty, hhash, htime,
    hstate, hunit, hcharacteristic]
  rfl

/-! ## What can be printed -/

/-- A finite uncertainty and a printable characteristic. -/
structure Finite (d : DeviceCharacteristic) : Prop where
  uncertainty : ∀ x, d.uncertainty = some x → x.isNaN = false ∧ x.isInfinite = false
  characteristic : d.characteristic.Document

theorem documentMembers_putOpt {α : Type} {key : String} {toJson : α → Json} {opt : Option α}
    {members : List (String × Json)} (h : Json.DocumentMembers members)
    (hopt : ∀ a, opt = some a → (toJson a).Document) :
    Json.DocumentMembers (putOpt key toJson opt members) := by
  unfold putOpt
  cases opt with
  | none => exact h
  | some a => exact h.assign (hopt a rfl)

theorem document_toJson {d : DeviceCharacteristic} (h : d.Finite) : d.toJson.Document := by
  have hstring {key : String} {opt : Option String} {members : List (String × Json)}
      (hm : Json.DocumentMembers members) :
      Json.DocumentMembers (putOpt key Json.string opt members) :=
    documentMembers_putOpt hm fun s _ => .string s
  have hmembers : Json.DocumentMembers d.toMembers := by
    unfold toMembers
    refine Json.DocumentMembers.assign ?_ h.characteristic
    refine hstring (hstring (documentMembers_putOpt (hstring (documentMembers_putOpt ?_ ?_)) ?_))
    · refine hstring (hstring (hstring (hstring (hstring ?_))))
      exact (Json.documentMembers_nil.assign (.string d.scope)).assign (.string d.name)
    · exact fun x hx => .float x (h.uncertainty x hx).1 (h.uncertainty x hx).2
    · exact fun i _ => .integer _
  exact .object _ hmembers.1 hmembers.2

end DeviceCharacteristic

end FalconLib.Database
