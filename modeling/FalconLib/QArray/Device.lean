import FalconLib.Base.Buffers
import FalconLib.Base.StdMap
import Mathlib.Algebra.Group.Nat.Defs
import Mathlib.Algebra.Notation.Defs

/-!
# `Device.cpp`

The scans of the virtual device. The device itself is a Python object, which answers a call with
numpy arrays or with an exception; here are the arguments it is called with and what becomes of its
arrays. In accumulation mode the voltages of the user have the opposite sign of the device's.
-/

namespace FalconLib.QArray

open FalconLib.Base (StdMap)
open FalconLib.Base.Buffers

variable {α : Type}

/-! ## Arrays and results -/

/-- What `numpy_to_vector` reads: the elements in row-major order, and the shape. -/
structure NumpyArray (α : Type) where
  data : List α
  shape : List Int

inductive Failure where
  /-- A Python exception. -/
  | raised (message : String)
  | undefinedBehaviour

/-- The dictionary that a scan returns; with a sensor there are its output and the differentiated
signal. -/
structure PyScan (α : Type) where
  chargeStates : NumpyArray α
  sensor : Option (NumpyArray α × NumpyArray α)

structure PyRay (α : Type) extends PyScan α where
  trajectory : NumpyArray α

/-- The members that the results of all scans have. -/
structure Readings (α : Type) where
  chargeStates : NumpyArray α
  sensorOutput : NumpyArray α := ⟨[], []⟩
  differentiatedSignal : NumpyArray α := ⟨[], []⟩
  hasSensor : Bool := false

structure ScanResult2D (α : Type) extends Readings α where
  xGate : String
  yGate : String
  xRange : α × α
  yRange : α × α
  resolution : Int32

structure ScanResult1D (α : Type) extends Readings α where
  gate : String
  vRange : α × α
  resolution : Int32

structure ScanResultRay (α : Type) extends Readings α where
  start : StdMap α
  stop : StdMap α
  resolution : Int32
  trajectory : NumpyArray α

/-- The arrays of a scan, each passed through the same function. -/
def readings (f : NumpyArray α → Except Failure (NumpyArray α)) (result : PyScan α) :
    Except Failure (Readings α) := do
  let chargeStates ← f result.chargeStates
  match result.sensor with
  | none => pure { chargeStates }
  | some (sensorOutput, differentiatedSignal) => do
    let sensorOutput ← f sensorOutput
    let differentiatedSignal ← f differentiatedSignal
    pure { chargeStates, sensorOutput, differentiatedSignal, hasSensor := true }

/-! ## Two dimensions -/

/-- The number of turns of a loop up to an `int`. -/
def turns (resolution : Int32) : Nat := resolution.toInt.toNat

/-- `input[i * resolution + j]`, and the place it is written to. -/
def rotationMoves (resolution : Nat) : List Move :=
  (List.range resolution).flatMap fun i => (List.range resolution).map fun j =>
    (i * resolution + j, (resolution - 1 - i) * resolution + (resolution - 1 - j))

/-- `none` for undefined behaviour: an index that is no `int`, or outside of the vector. -/
def rotate180 [Zero α] (resolution : Nat) (input : List α) : Option (List α) :=
  if ∀ move ∈ rotationMoves resolution, move.1 < 2 ^ 31 ∧ move.2 < 2 ^ 31 then
    copyAll input (rotationMoves resolution) (List.replicate input.length 0)
  else none

def rotateArray [Zero α] (accumulationMode : Bool) (resolution : Int32) (array : NumpyArray α) :
    Except Failure (NumpyArray α) :=
  if accumulationMode && array.shape.length == 3 then
    match rotate180 (turns resolution) array.data with
    | some data => .ok { array with data }
    | none => .error .undefinedBehaviour
  else .ok array

def negatedRange [Neg α] (accumulationMode : Bool) (range : α × α) : α × α :=
  if accumulationMode then (-range.2, -range.1) else range

def scan2d [Zero α] [Neg α] (accumulationMode : Bool)
    (pyDevice : String → String → α × α → α × α → Int32 → Except String (PyScan α))
    (xGate yGate : String) (xRange yRange : α × α) (resolution : Int32) :
    Except Failure (ScanResult2D α) := do
  let result ← (pyDevice xGate yGate (negatedRange accumulationMode xRange)
    (negatedRange accumulationMode yRange) resolution).mapError Failure.raised
  let arrays ← readings (rotateArray accumulationMode resolution) result
  pure { arrays with xGate, yGate, xRange, yRange, resolution }

/-! ## One dimension -/

/-- `std::reverse` over the whole vector. -/
def reverseArray (accumulationMode : Bool) (array : NumpyArray α) :
    Except Failure (NumpyArray α) :=
  .ok (if accumulationMode then { array with data := array.data.reverse } else array)

def scan1d [Neg α] (accumulationMode : Bool)
    (pyDevice : String → α × α → Int32 → Except String (PyScan α))
    (gate : String) (vRange : α × α) (resolution : Int32) : Except Failure (ScanResult1D α) := do
  let result ← (pyDevice gate (negatedRange accumulationMode vRange) resolution).mapError
    Failure.raised
  let arrays ← readings (reverseArray accumulationMode) result
  pure { arrays with gate, vRange, resolution }

/-! ## Rays -/

/-- The entries of the other map, negated, over those of the map. -/
def crossed [Neg α] (map other : StdMap α) : StdMap α :=
  map.assignAll (other.toList.map fun entry => (entry.1, -entry.2))

def scanRay [Neg α] (accumulationMode : Bool)
    (pyDevice : StdMap α → StdMap α → Int32 → Except String (PyRay α))
    (start stop : StdMap α) (resolution : Int32) : Except Failure (ScanResultRay α) := do
  let tempStart := if accumulationMode then crossed start stop else start
  let tempEnd := if accumulationMode then crossed stop start else stop
  let result ← (pyDevice tempStart tempEnd resolution).mapError Failure.raised
  let arrays ← readings (reverseArray accumulationMode) result.toPyScan
  let trajectory ← reverseArray accumulationMode result.trajectory
  pure { arrays with start, stop, resolution, trajectory }

/-! ## What happens to the arrays -/

section Readings

variable {f : NumpyArray α → Except Failure (NumpyArray α)} {result : PyScan α}

theorem readings_plain {chargeStates : NumpyArray α} (hcharge : f result.chargeStates =
    .ok chargeStates) (hsensor : result.sensor = none) :
    readings f result = .ok { chargeStates := chargeStates } := by
  unfold readings
  rw [hcharge, hsensor]
  rfl

theorem readings_sensed {chargeStates sensor signal sensor' signal' : NumpyArray α}
    (hcharge : f result.chargeStates = .ok chargeStates)
    (hsensor : result.sensor = some (sensor, signal)) (hs : f sensor = .ok sensor')
    (hd : f signal = .ok signal') :
    readings f result = .ok
      { chargeStates := chargeStates
        sensorOutput := sensor'
        differentiatedSignal := signal'
        hasSensor := true } := by
  unfold readings
  rw [hcharge, hsensor]
  change (f sensor >>= fun _ => _) = _
  rw [hs]
  change (f signal >>= fun _ => _) = _
  rw [hd]
  rfl

/-- Every array that is returned is what the function made of one. -/
theorem readings_eq_ok {out : Readings α} (h : readings f result = .ok out) :
    f result.chargeStates = .ok out.chargeStates ∧
      ∀ sensor signal, result.sensor = some (sensor, signal) →
        f sensor = .ok out.sensorOutput ∧ f signal = .ok out.differentiatedSignal := by
  cases hcharge : f result.chargeStates with
  | error e =>
    unfold readings at h
    rw [hcharge] at h
    cases h
  | ok chargeStates =>
    cases hsensor : result.sensor with
    | none =>
      rw [readings_plain hcharge hsensor] at h
      cases h
      exact ⟨rfl, nofun⟩
    | some arrays =>
      obtain ⟨sensor, signal⟩ := arrays
      unfold readings at h
      rw [hcharge, hsensor] at h
      change (f sensor >>= fun _ => _) = _ at h
      cases hs : f sensor with
      | error e =>
        rw [hs] at h
        cases h
      | ok sensor' =>
        rw [hs] at h
        change (f signal >>= fun _ => _) = _ at h
        cases hd : f signal with
        | error e =>
          rw [hd] at h
          cases h
        | ok signal' =>
          rw [hd] at h
          cases h
          refine ⟨rfl, fun _ _ heq => ?_⟩
          cases heq
          exact ⟨hs, hd⟩

end Readings

end FalconLib.QArray
