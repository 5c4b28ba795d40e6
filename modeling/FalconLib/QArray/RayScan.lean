import FalconLib.QArray.Device
import Mathlib.Data.Rat.Defs
import Mathlib.Tactic.FieldSimp
import Mathlib.Tactic.Linarith
import Mathlib.Tactic.Ring

/-!
# Rays

`scan_ray` of `device.py`, with voltages as exact rationals, under the scan of the C++ class. What
the simulation and the gradients of numpy compute is left open.
-/

namespace FalconLib.QArray

open FalconLib.Base (StdMap)
open FalconLib.Base.Buffers

/-! ## The Python device -/

/-- `simulate` gives the charges of the dots at a point, `sense` what the sensors read there. -/
structure PyDevice where
  nDots : Nat
  gateNames : List String
  voltages : String → ℚ
  simulate : List ℚ → List ℚ
  length_simulate : ∀ point, (simulate point).length = nDots
  sense : Option (List ℚ → List ℚ)
  differentiate : List ℚ → List ℚ → List (List ℚ) → NumpyArray ℚ

/-- `np.linspace` along the first axis. -/
def linspace (start stop : List ℚ) (num : Nat) : List (List ℚ) :=
  (List.range num).map fun i : Nat =>
    List.zipWith (fun a b => a + (i : ℚ) * ((b - a) / (num - 1))) start stop

/-- A matrix with so many columns. -/
def ofRows (rows : List (List ℚ)) (columns : Nat) : NumpyArray ℚ where
  data := rows.flatten
  shape := [rows.length, columns]

namespace PyDevice

/-- `start.get(conn, self.voltages[conn])`, for the gates in their order. -/
def withContext (device : PyDevice) (map : StdMap ℚ) : List ℚ :=
  device.gateNames.map fun conn => map[conn]?.getD (device.voltages conn)

/-- The first gate of a dictionary that the device does not have. -/
def unknownGate (device : PyDevice) (map : StdMap ℚ) : Option String :=
  map.keyList.find? (· ∉ device.gateNames)

def scanRay (device : PyDevice) (start stop : StdMap ℚ) (resolution : Int32) :
    Except String (PyRay ℚ) :=
  match (device.unknownGate start).or (device.unknownGate stop) with
  | some gate => .error ("Gate '" ++ gate ++ "' not found in device configuration.")
  | none =>
    if resolution < 0 then
      .error ("Number of samples, " ++ toString resolution.toInt ++ ", must be non-negative.")
    else
      let startVolts := device.withContext start
      let endVolts := device.withContext stop
      let vgAll := linspace startVolts endVolts (turns resolution)
      .ok
        { chargeStates := ofRows (vgAll.map device.simulate) device.nDots
          sensor := device.sense.map fun sense =>
            (ofRows (vgAll.map sense) (sense startVolts).length,
              device.differentiate startVolts endVolts (vgAll.map sense))
          trajectory := ofRows vgAll device.gateNames.length }

end PyDevice

/-! ## What a ray should be -/

/-- A voltage of the user: that of the map, or the current one as `Device::voltages` reports it. -/
def userVoltage (device : PyDevice) (map : StdMap ℚ) (gate : String) : ℚ :=
  map[gate]?.getD (-device.voltages gate)

/-- Point `i` of the ray, gate by gate. -/
def userPoint (device : PyDevice) (start stop : StdMap ℚ) (resolution : Int32) (i : Nat) : List ℚ :=
  device.gateNames.map fun gate => userVoltage device start gate +
    i / (turns resolution - 1) * (userVoltage device stop gate - userVoltage device start gate)

/-- The device has every gate of the two maps. -/
def KnownGates (device : PyDevice) (start stop : StdMap ℚ) : Prop :=
  ∀ gate, gate ∈ start.keyList ∨ gate ∈ stop.keyList → gate ∈ device.gateNames

/-- The scan returns, and row `i` of the trajectory is point `i` of the ray. -/
def TrajectoryRight (device : PyDevice) (start stop : StdMap ℚ) (resolution : Int32) : Prop :=
  ∃ out, scanRay true device.scanRay start stop resolution = .ok out ∧
    ∀ i < turns resolution, ∀ k < device.gateNames.length,
      out.trajectory.data[i * device.gateNames.length + k]? =
        (userPoint device start stop resolution i)[k]?

/-- Row `i` of the charge states belongs to point `i`, at the device's own voltages. -/
def ChargesRight (device : PyDevice) (start stop : StdMap ℚ) (resolution : Int32) : Prop :=
  ∃ out, scanRay true device.scanRay start stop resolution = .ok out ∧
    ∀ i < turns resolution, ∀ k < device.nDots,
      out.chargeStates.data[i * device.nDots + k]? =
        (device.simulate ((userPoint device start stop resolution i).map (- ·)))[k]?

/-! ## The maps that the device gets -/

theorem lastWrite_map_neg (key : String) (writes : List (String × ℚ)) :
    StdMap.lastWrite key (writes.map fun entry => (entry.1, -entry.2)) =
      (StdMap.lastWrite key writes).map (- ·) := by
  induction writes with
  | nil => rfl
  | cons w writes ih =>
    rw [List.map_cons, StdMap.lastWrite_cons, StdMap.lastWrite_cons, ih]
    by_cases h : w.1 = key
    · rw [if_pos h, if_pos h]
      cases StdMap.lastWrite key writes <;> rfl
    · rw [if_neg h, if_neg h, Option.or_none, Option.or_none]

theorem getElem?_crossed (map other : StdMap ℚ) (gate : String) :
    (crossed map other)[gate]? = (other[gate]?.map (- ·)).or map[gate]? := by
  unfold crossed
  rw [StdMap.getElem?_assignAll, lastWrite_map_neg]
  have hself := StdMap.getElem?_assignAll ∅ other.toList gate
  rw [StdMap.assignAll_toList, Std.ExtTreeMap.getElem?_empty, Option.or_none] at hself
  rw [hself]

/-- The gates that both dictionaries of the device have. -/
theorem keys_crossed (map other : StdMap ℚ) (gate : String) :
    gate ∈ (crossed map other).keyList ↔ gate ∈ map.keyList ∨ gate ∈ other.keyList := by
  rw [StdMap.mem_keyList, StdMap.mem_keyList, StdMap.mem_keyList, getElem?_crossed,
    Option.isSome_or, Option.isSome_map, Bool.or_eq_true, or_comm]

/-- A voltage that the device gets for an end of the ray. -/
def crossedVoltage (device : PyDevice) (map other : StdMap ℚ) (gate : String) : ℚ :=
  (other[gate]?.map (- ·)).getD (map[gate]?.getD (device.voltages gate))

theorem withContext_crossed (device : PyDevice) (map other : StdMap ℚ) :
    device.withContext (crossed map other) =
      device.gateNames.map (crossedVoltage device map other) := by
  unfold PyDevice.withContext crossedVoltage
  refine List.map_congr_left fun gate _ => ?_
  rw [getElem?_crossed]
  cases other[gate]? <;> rfl

/-! ## The points of the device -/

theorem unknownGate_eq_none {device : PyDevice} {map : StdMap ℚ} :
    device.unknownGate map = none ↔ ∀ gate ∈ map.keyList, gate ∈ device.gateNames := by
  unfold PyDevice.unknownGate
  rw [List.find?_eq_none]
  refine forall₂_congr fun gate _ => ?_
  rw [decide_eq_true_iff, not_not]

/-- The points of the device, first to last. -/
def devicePoints (device : PyDevice) (start stop : StdMap ℚ) (resolution : Int32) : List (List ℚ) :=
  linspace (device.withContext (crossed start stop)) (device.withContext (crossed stop start))
    (turns resolution)

theorem getElem?_linspace {start stop : List ℚ} {num i : Nat} (h : i < num) :
    (linspace start stop num)[i]? =
      some (List.zipWith (fun a b => a + (i : ℚ) * ((b - a) / (num - 1))) start stop) := by
  unfold linspace
  rw [List.getElem?_map, List.getElem?_range h]
  rfl

/-- One point of the device. -/
def devicePoint (device : PyDevice) (start stop : StdMap ℚ) (resolution : Int32) (i : Nat) :
    List ℚ :=
  device.gateNames.map fun gate => crossedVoltage device start stop gate +
    i * ((crossedVoltage device stop start gate - crossedVoltage device start stop gate) /
      (turns resolution - 1))

theorem getElem?_devicePoints {device : PyDevice} {start stop : StdMap ℚ} {resolution : Int32}
    {i : Nat} (h : i < turns resolution) :
    (devicePoints device start stop resolution)[i]? =
      some (devicePoint device start stop resolution i) := by
  unfold devicePoints devicePoint
  rw [getElem?_linspace h, withContext_crossed, withContext_crossed, List.zipWith_map,
    List.zipWith_self]

theorem length_devicePoints (device : PyDevice) (start stop : StdMap ℚ) (resolution : Int32) :
    (devicePoints device start stop resolution).length = turns resolution := by
  unfold devicePoints linspace
  rw [List.length_map, List.length_range]

theorem length_point {device : PyDevice} {start stop : StdMap ℚ} {resolution : Int32}
    {point : List ℚ} (h : point ∈ devicePoints device start stop resolution) :
    point.length = device.gateNames.length := by
  obtain ⟨i, hi⟩ := List.mem_iff_getElem?.mp h
  obtain ⟨hlt, -⟩ := List.getElem?_eq_some_iff.mp hi
  rw [length_devicePoints] at hlt
  rw [getElem?_devicePoints hlt, Option.some_inj] at hi
  rw [← hi]
  exact List.length_map _

theorem exists_readings_reversed (result : PyScan ℚ) :
    ∃ out, readings (reverseArray true) result = .ok out ∧
      out.chargeStates.data = result.chargeStates.data.reverse := by
  cases hsensor : result.sensor with
  | none => exact ⟨_, readings_plain rfl hsensor, rfl⟩
  | some arrays =>
    obtain ⟨sensor, signal⟩ := arrays
    exact ⟨_, readings_sensed rfl hsensor rfl rfl, rfl⟩

/-- The scan returns if the device has all gates, with the points and their charges backwards. -/
theorem scanRay_outcome {device : PyDevice} {start stop : StdMap ℚ} {resolution : Int32}
    (hresolution : 1 < turns resolution) :
    KnownGates device start stop ∧
        (∃ out, scanRay true device.scanRay start stop resolution = .ok out ∧
          out.trajectory.data = (devicePoints device start stop resolution).flatten.reverse ∧
          out.chargeStates.data =
            ((devicePoints device start stop resolution).map device.simulate).flatten.reverse) ∨
      ¬ KnownGates device start stop ∧
        ∀ out, scanRay true device.scanRay start stop resolution ≠ .ok out := by
  have hnonneg : ¬ resolution < 0 := by
    intro hneg
    have h := Int32.lt_iff_toInt_lt.mp hneg
    change resolution.toInt < 0 at h
    unfold turns at hresolution
    omega
  cases hunknown : (device.unknownGate (crossed start stop)).or
      (device.unknownGate (crossed stop start)) with
  | none =>
    have hcall : ∃ result, device.scanRay (crossed start stop) (crossed stop start) resolution =
        .ok result ∧ result.trajectory.data = (devicePoints device start stop resolution).flatten ∧
        result.chargeStates.data =
          ((devicePoints device start stop resolution).map device.simulate).flatten := by
      unfold PyDevice.scanRay
      rw [hunknown]
      exact ⟨_, if_neg hnonneg, rfl, rfl⟩
    obtain ⟨result, hcall, htrajectory, hcharges⟩ := hcall
    left
    constructor
    · obtain ⟨hstart, -⟩ := Option.or_eq_none_iff.mp hunknown
      intro gate hgate
      exact unknownGate_eq_none.mp hstart gate ((keys_crossed start stop gate).mpr hgate)
    · rw [← htrajectory, ← hcharges]
      unfold scanRay
      rw [if_pos rfl, if_pos rfl]
      change ∃ out, ((device.scanRay _ _ _).mapError _ >>= _) = _ ∧ _
      rw [hcall]
      obtain ⟨arrays, hreadings, hreversed⟩ := exists_readings_reversed result.toPyScan
      change ∃ out, (readings _ _ >>= _) = _ ∧ _
      rw [hreadings]
      exact ⟨_, rfl, rfl, hreversed⟩
  | some gate =>
    right
    constructor
    · intro hknown
      have hnone : ∀ map other : StdMap ℚ, KnownGates device map other →
          device.unknownGate (crossed map other) = none := fun map other h => unknownGate_eq_none.mpr fun gate hgate =>
          h gate ((keys_crossed map other gate).mp hgate)
      rw [hnone start stop hknown, hnone stop start fun gate h => hknown gate h.symm] at hunknown
      cases hunknown
    · intro out hout
      have hraised : ∃ message, device.scanRay (crossed start stop) (crossed stop start)
          resolution = .error message := by
        unfold PyDevice.scanRay
        rw [hunknown]
        exact ⟨_, rfl⟩
      obtain ⟨message, hraised⟩ := hraised
      unfold scanRay at hout
      rw [if_pos rfl, if_pos rfl] at hout
      change ((device.scanRay _ _ _).mapError _ >>= _) = _ at hout
      rw [hraised] at hout
      cases hout

/-! ## Rows -/

/-- Two ways along a line agree in all points if they agree in the two ends. -/
theorem interpolation_iff {num : Nat} (hnum : 1 < num) (first last a b : ℚ) :
    (∀ i < num, first + (num - 1 - i : ℕ) * ((last - first) / (num - 1)) =
      a + i / (num - 1) * (b - a)) ↔ last = a ∧ first = b := by
  have hone : (1 : ℚ) < num := by exact_mod_cast hnum
  have hne : (num : ℚ) - 1 ≠ 0 := by linarith
  constructor
  · intro h
    have hstart := h 0 (by omega)
    have hend := h (num - 1) (by omega)
    rw [Nat.sub_zero, Nat.cast_sub hnum.le, Nat.cast_one, mul_div_cancel₀ _ hne, Nat.cast_zero,
      zero_div, zero_mul] at hstart
    rw [Nat.sub_self, Nat.cast_zero, zero_mul, Nat.cast_sub hnum.le, Nat.cast_one, div_self hne,
      one_mul] at hend
    constructor
    · linarith
    · linarith
  · rintro ⟨rfl, rfl⟩ i hi
    have hcast : ((num - 1 - i : ℕ) : ℚ) = num - 1 - i := by
      rw [Nat.cast_sub (by omega), Nat.cast_sub hnum.le, Nat.cast_one]
    rw [hcast]
    field_simp
    ring

theorem map_eq_reverse_iff {gates : List String} {f g : String → ℚ} :
    gates.map f = (gates.map g).reverse ↔ ∀ k, (hk : k < gates.length) →
      f gates[k] = g (gates.get ⟨gates.length - 1 - k, by omega⟩) := by
  rw [List.ext_getElem_iff]
  simp only [List.length_map, List.length_reverse, List.getElem_map, List.getElem_reverse, true_and,
    List.get_eq_getElem]
  exact ⟨fun h k hk => h k hk hk, fun h k hk _ => h k hk⟩

/-- What is asked of the result can be asked of the points of the device. -/
theorem returned_iff {device : PyDevice} {start stop : StdMap ℚ} {resolution : Int32}
    (hresolution : 1 < turns resolution) {p : ScanResultRay ℚ → Prop} {q : Prop}
    (hpq : ∀ out : ScanResultRay ℚ,
      out.trajectory.data = (devicePoints device start stop resolution).flatten.reverse →
      out.chargeStates.data =
        ((devicePoints device start stop resolution).map device.simulate).flatten.reverse →
      (p out ↔ q)) :
    (∃ out, scanRay true device.scanRay start stop resolution = .ok out ∧ p out) ↔
      KnownGates device start stop ∧ q := by
  obtain ⟨hknown, out, hout, htrajectory, hcharges⟩ | ⟨hunknown, hraised⟩ :=
    (scanRay_outcome hresolution : (KnownGates device start stop ∧ ∃ out, _ ∧ _ ∧ _) ∨ _)
  · have hout' := hpq out htrajectory hcharges
    constructor
    · rintro ⟨other, hother, hp⟩
      obtain rfl : out = other := Except.ok.inj (hout.symm.trans hother)
      exact ⟨hknown, hout'.mp hp⟩
    · rintro ⟨-, hq⟩
      exact ⟨out, hout, hout'.mpr hq⟩
  · constructor
    · rintro ⟨out, hout, -⟩
      exact absurd hout (hraised out)
    · rintro ⟨hknown, -⟩
      exact absurd hknown hunknown

theorem trajectoryRight_iff {device : PyDevice} {start stop : StdMap ℚ} {resolution : Int32}
    (hresolution : 1 < turns resolution) :
    TrajectoryRight device start stop resolution ↔ KnownGates device start stop ∧
      ∀ i < turns resolution, ∀ k < device.gateNames.length,
        (devicePoint device start stop resolution (turns resolution - 1 - i))[
            device.gateNames.length - 1 - k]? =
          (userPoint device start stop resolution i)[k]? := by
  refine returned_iff hresolution fun out htrajectory _ => ?_
  refine forall₂_congr fun i hi => forall₂_congr fun k hk => ?_
  rw [htrajectory, getElem?_reverse_flatten (fun _ => length_point)
    (by rwa [length_devicePoints]) hk, length_devicePoints, getElem?_devicePoints (by omega),
    Option.bind_some]

theorem chargesRight_iff {device : PyDevice} {start stop : StdMap ℚ} {resolution : Int32}
    (hresolution : 1 < turns resolution) :
    ChargesRight device start stop resolution ↔ KnownGates device start stop ∧
      ∀ i < turns resolution, ∀ k < device.nDots,
        (device.simulate (devicePoint device start stop resolution (turns resolution - 1 - i)))[
            device.nDots - 1 - k]? =
          (device.simulate ((userPoint device start stop resolution i).map (- ·)))[k]? := by
  have hlength : ∀ row ∈ (devicePoints device start stop resolution).map device.simulate,
      row.length = device.nDots := by
    intro row hrow
    obtain ⟨point, -, rfl⟩ := List.mem_map.mp hrow
    exact device.length_simulate point
  refine returned_iff hresolution fun out _ hcharges => ?_
  refine forall₂_congr fun i hi => forall₂_congr fun k hk => ?_
  rw [hcharges, getElem?_reverse_flatten hlength
    (by rwa [List.length_map, length_devicePoints]) hk, List.length_map, length_devicePoints,
    List.getElem?_map, getElem?_devicePoints (by omega)]
  rfl

/-! ## When the rows are right -/

/-- Gates and signs of the trajectory fit only where the voltages themselves do. -/
theorem trajectory_ends_iff {device : PyDevice} {start stop : StdMap ℚ} {resolution : Int32}
    (hresolution : 1 < turns resolution) :
    TrajectoryRight device start stop resolution ↔ KnownGates device start stop ∧
      device.gateNames.map (userVoltage device start) =
        (device.gateNames.map (crossedVoltage device stop start)).reverse ∧
      device.gateNames.map (userVoltage device stop) =
        (device.gateNames.map (crossedVoltage device start stop)).reverse := by
  rw [trajectoryRight_iff hresolution, map_eq_reverse_iff, map_eq_reverse_iff]
  refine and_congr_right fun _ => ?_
  have hgate : ∀ k, (hk : k < device.gateNames.length) → ((∀ i < turns resolution,
      (devicePoint device start stop resolution (turns resolution - 1 - i))[
        device.gateNames.length - 1 - k]? = (userPoint device start stop resolution i)[k]?) ↔
      userVoltage device start device.gateNames[k] = crossedVoltage device stop start
          (device.gateNames.get ⟨device.gateNames.length - 1 - k, by omega⟩) ∧
        userVoltage device stop device.gateNames[k] = crossedVoltage device start stop
          (device.gateNames.get ⟨device.gateNames.length - 1 - k, by omega⟩)) := by
    intro k hk
    have hmirror : device.gateNames.length - 1 - k < device.gateNames.length := by omega
    rw [eq_comm, @eq_comm _ (userVoltage device stop _), ← interpolation_iff hresolution]
    refine forall₂_congr fun i hi => ?_
    unfold devicePoint userPoint
    rw [List.getElem?_map, List.getElem?_map, List.getElem?_eq_getElem hk,
      List.getElem?_eq_getElem hmirror]
    exact Option.some_inj
  constructor
  · intro h
    exact ⟨fun k hk => ((hgate k hk).mp fun i hi => h i hi k hk).1,
      fun k hk => ((hgate k hk).mp fun i hi => h i hi k hk).2⟩
  · rintro ⟨hstart, hend⟩ i hi k hk
    exact (hgate k hk).mpr ⟨hstart k hk, hend k hk⟩ i hi

/-- The device simulates the points of the ray, last to first. -/
theorem devicePoint_iff {device : PyDevice} {start stop : StdMap ℚ} {resolution : Int32}
    (hresolution : 1 < turns resolution) :
    (∀ i < turns resolution, devicePoint device start stop resolution (turns resolution - 1 - i) =
      (userPoint device start stop resolution i).map (- ·)) ↔
      ∀ gate ∈ device.gateNames,
        crossedVoltage device stop start gate = -userVoltage device start gate ∧
        crossedVoltage device start stop gate = -userVoltage device stop gate := by
  have hgate : ∀ gate i, (-(userVoltage device start gate + i / (turns resolution - 1) *
      (userVoltage device stop gate - userVoltage device start gate)) : ℚ) =
        -userVoltage device start gate + i / (turns resolution - 1) *
          (-userVoltage device stop gate - -userVoltage device start gate) := by
    intro gate i
    ring
  unfold devicePoint userPoint
  simp only [List.map_map, List.map_inj_left, Function.comp_apply, hgate]
  constructor
  · intro h gate hmem
    exact (interpolation_iff hresolution _ _ _ _).mp fun i hi => h i hi gate hmem
  · intro h i hi gate hmem
    exact (interpolation_iff hresolution _ _ _ _).mpr (h gate hmem) i hi

/-- The same gates and voltages, with another simulation. -/
def PyDevice.withSimulation (device : PyDevice) (simulate : List ℚ → List ℚ)
    (h : ∀ point, (simulate point).length = device.nDots) : PyDevice where
  nDots := device.nDots
  gateNames := device.gateNames
  voltages := device.voltages
  simulate := simulate
  length_simulate := h
  sense := device.sense
  differentiate := device.differentiate

theorem last_ne_first {n : Nat} (h : 1 < n) :
    ((1 : ℚ) :: List.replicate (n - 1) 0)[n - 1 - 0]? ≠
      ((1 : ℚ) :: List.replicate (n - 1) 0)[0]? := by
  obtain ⟨k, rfl⟩ : ∃ k, n = k + 2 := ⟨n - 2, by omega⟩
  change (List.replicate (k + 1) (0 : ℚ))[k]? ≠ some 1
  rw [List.getElem?_replicate_of_lt (Nat.lt_succ_self k), ne_eq, Option.some_inj]
  exact zero_ne_one

/-- The charges fit only for a single dot, where there is no order of dots to lose. -/
theorem charges_ends_iff {device : PyDevice} {start stop : StdMap ℚ} {resolution : Int32}
    (hresolution : 1 < turns resolution) :
    (∀ simulate h, ChargesRight (device.withSimulation simulate h) start stop resolution) ↔
      KnownGates device start stop ∧ (device.nDots = 0 ∨ device.nDots = 1 ∧
        ∀ gate ∈ device.gateNames,
          crossedVoltage device stop start gate = -userVoltage device start gate ∧
          crossedVoltage device start stop gate = -userVoltage device stop gate) := by
  have hrows : ∀ simulate h, ChargesRight (device.withSimulation simulate h) start stop resolution ↔
      KnownGates device start stop ∧ ∀ i < turns resolution, ∀ k < device.nDots,
        (simulate (devicePoint device start stop resolution (turns resolution - 1 - i)))[
            device.nDots - 1 - k]? =
          (simulate ((userPoint device start stop resolution i).map (- ·)))[k]? :=
    fun _ _ => chargesRight_iff hresolution
  rw [forall₂_congr hrows]
  constructor
  · intro h
    have hknown : KnownGates device start stop :=
      (h (fun _ => List.replicate device.nDots 0) fun _ => List.length_replicate).1
    refine ⟨hknown, ?_⟩
    by_cases hnone : device.nDots = 0
    · exact Or.inl hnone
    · have hone : device.nDots = 1 := by
        by_contra hmany
        have hlength : ((1 : ℚ) :: List.replicate (device.nDots - 1) 0).length = device.nDots := by
          rw [List.length_cons, List.length_replicate]
          omega
        exact last_ne_first (by omega)
          ((h (fun _ => 1 :: List.replicate (device.nDots - 1) 0) fun _ => hlength).2
            0 (by omega) 0 (by omega))
      refine Or.inr ⟨hone, (devicePoint_iff hresolution).mp fun i hi => ?_⟩
      -- a simulation that knows one point from all others
      have hpoint := (h (fun point =>
          [if point = (userPoint device start stop resolution i).map (- ·) then 1 else 0])
        fun _ => hone.symm).2 i hi 0 (by omega)
      rw [hone, if_pos rfl] at hpoint
      by_contra hne
      rw [if_neg hne] at hpoint
      exact zero_ne_one (Option.some_inj.mp hpoint)
  · rintro ⟨hknown, hdots⟩ simulate hsimulate
    refine ⟨hknown, fun i hi k hk => ?_⟩
    obtain hnone | ⟨hone, hends⟩ := hdots
    · rw [hnone] at hk
      exact absurd hk (Nat.not_lt_zero k)
    · obtain rfl : k = 0 := by omega
      rw [(devicePoint_iff hresolution).mpr hends i hi, hone]

/-- A gate at zero and so many dots. -/
def oneGate (nDots : Nat) : PyDevice where
  nDots := nDots
  gateNames := ["P1"]
  voltages := fun _ => 0
  simulate := fun point => (List.range nDots).map fun (dot : Nat) => dot + point.headD 0
  length_simulate := fun _ => by rw [List.length_map, List.length_range]
  sense := none
  differentiate := fun _ _ _ => ⟨[], []⟩

def oneVolt (voltage : ℚ) : StdMap ℚ := StdMap.assign ∅ "P1" voltage

theorem getElem?_oneVolt (voltage : ℚ) : (oneVolt voltage)["P1"]? = some voltage :=
  StdMap.getElem?_assign_self ∅ "P1" voltage

theorem crossedVoltage_oneVolt (nDots : Nat) (a b : ℚ) :
    crossedVoltage (oneGate nDots) (oneVolt a) (oneVolt b) "P1" = -b := by
  unfold crossedVoltage
  rw [getElem?_oneVolt b]
  rfl

theorem userVoltage_oneVolt (nDots : Nat) (a : ℚ) :
    userVoltage (oneGate nDots) (oneVolt a) "P1" = a := by
  unfold userVoltage
  rw [getElem?_oneVolt a]
  rfl

theorem known_oneVolt (nDots : Nat) (a b : ℚ) :
    KnownGates (oneGate nDots) (oneVolt a) (oneVolt b) := by
  intro gate hgate
  have hkey : ∀ voltage : ℚ, gate ∈ (oneVolt voltage).keyList → gate ∈ ["P1"] := by
    intro voltage hmem
    by_contra hne
    rw [List.mem_singleton] at hne
    rw [StdMap.mem_keyList, oneVolt, StdMap.getElem?_assign_ne _ _ (Ne.symm hne),
      Std.ExtTreeMap.getElem?_empty] at hmem
    cases hmem
  exact hgate.elim (hkey a) (hkey b)

end FalconLib.QArray
