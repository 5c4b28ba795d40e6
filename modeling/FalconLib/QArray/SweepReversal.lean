import FalconLib.Base.Binary64
import FalconLib.QArray.Device

/-!
# Reversal of the sweep axes

An array of a scan has the sweep axes first and the components of a point last. Seen with the
voltages of the user it should run backwards along the sweep axes and keep the components as they
are; the device works on the flat data.
-/

namespace FalconLib.QArray

open FalconLib.Base (Binary64)
open FalconLib.Base.Buffers

instance : Zero Binary64 := ⟨⟨0⟩⟩

instance : Neg Binary64 := ⟨Binary64.neg⟩

/-! ## What a scan should return -/

section Arrays

variable {α : Type}

structure IsRaw2D (resolution components : Nat) (array : NumpyArray α) : Prop where
  shape : array.shape = [(resolution : Int), resolution, components]
  size : array.data.length = resolution * resolution * components

structure IsRaw1D (resolution components : Nat) (array : NumpyArray α) : Prop where
  shape : array.shape = [(resolution : Int), components]
  size : array.data.length = resolution * components

/-- `out[i][j][k] = raw[R-1-i][R-1-j][k]` -/
structure IsReversed2D (resolution components : Nat) (raw out : NumpyArray α) : Prop where
  size : out.data.length = raw.data.length
  elements : ∀ i < resolution, ∀ j < resolution, ∀ k < components,
    out.data[(i * resolution + j) * components + k]? =
      raw.data[((resolution - 1 - i) * resolution + (resolution - 1 - j)) * components + k]?

/-- `out[i][k] = raw[R-1-i][k]` -/
structure IsReversed1D (resolution components : Nat) (raw out : NumpyArray α) : Prop where
  size : out.data.length = raw.data.length
  elements : ∀ i < resolution, ∀ k < components,
    out.data[i * components + k]? = raw.data[(resolution - 1 - i) * components + k]?

/-- All arrays have so many components: one for each dot, or for each sensor. -/
def PyScan.IsRaw (isRaw : Nat → NumpyArray α → Prop) (dots : Nat) (sensors : Option Nat)
    (scan : PyScan α) : Prop :=
  isRaw dots scan.chargeStates ∧
    match scan.sensor, sensors with
    | none, none => True
    | some (output, signal), some n => isRaw n output ∧ isRaw n signal
    | _, _ => False

def Readings.IsReversed (isReversed : Nat → NumpyArray α → NumpyArray α → Prop) (dots : Nat)
    (sensors : Option Nat) (scan : PyScan α) (out : Readings α) : Prop :=
  isReversed dots scan.chargeStates out.chargeStates ∧
    match scan.sensor, sensors with
    | some (output, signal), some n =>
      isReversed n output out.sensorOutput ∧ isReversed n signal out.differentiatedSignal
    | _, _ => True

end Arrays

/-- Whatever arrays the Python device answers with, the scan returns them reversed. -/
def Reverses2D (resolution : Int32) (dots : Nat) (sensors : Option Nat) : Prop :=
  ∀ (pyDevice : String → String → Binary64 × Binary64 → Binary64 × Binary64 → Int32 →
      Except String (PyScan Binary64)) (xGate yGate : String)
    (xRange yRange : Binary64 × Binary64) (scan : PyScan Binary64),
    pyDevice xGate yGate (-xRange.2, -xRange.1) (-yRange.2, -yRange.1) resolution = .ok scan →
    scan.IsRaw (IsRaw2D (turns resolution)) dots sensors →
    ∃ out, scan2d true pyDevice xGate yGate xRange yRange resolution = .ok out ∧
      out.IsReversed (IsReversed2D (turns resolution)) dots sensors scan

def Reverses1D (resolution : Int32) (dots : Nat) (sensors : Option Nat) : Prop :=
  ∀ (pyDevice : String → Binary64 × Binary64 → Int32 → Except String (PyScan Binary64))
    (gate : String) (vRange : Binary64 × Binary64) (scan : PyScan Binary64),
    pyDevice gate (-vRange.2, -vRange.1) resolution = .ok scan →
    scan.IsRaw (IsRaw1D (turns resolution)) dots sensors →
    ∃ out, scan1d true pyDevice gate vRange resolution = .ok out ∧
      out.IsReversed (IsReversed1D (turns resolution)) dots sensors scan

/-! ## From one array to all -/

section Families

variable {α : Type} {f : NumpyArray α → Except Failure (NumpyArray α)}
  {isRaw : Nat → NumpyArray α → Prop} {isReversed : Nat → NumpyArray α → NumpyArray α → Prop}
  {good : Nat → Prop}

/-- The arrays of a scan are treated one by one. -/
theorem readings_reversed_iff (hraw : ∀ n, ∃ array, isRaw n array)
    (hgood : ∀ n array, good n → isRaw n array → ∃ out, f array = .ok out ∧ isReversed n array out)
    (hbad : ∀ n, ¬ good n → ∃ array, isRaw n array ∧
      ∀ out, f array = .ok out → ¬ isReversed n array out)
    (dots : Nat) (sensors : Option Nat) :
    (∀ scan : PyScan α, scan.IsRaw isRaw dots sensors →
      ∃ out, readings f scan = .ok out ∧ out.IsReversed isReversed dots sensors scan) ↔
      good dots ∧ ∀ n ∈ sensors, good n := by
  constructor
  · intro h
    constructor
    · by_contra hdots
      obtain ⟨charge, hcharge, hnot⟩ := hbad dots hdots
      cases sensors with
      | none =>
        obtain ⟨out, hout, hreversed⟩ := h ⟨charge, none⟩ ⟨hcharge, trivial⟩
        exact hnot _ (readings_eq_ok hout).1 hreversed.1
      | some n =>
        obtain ⟨array, harray⟩ := hraw n
        obtain ⟨out, hout, hreversed⟩ := h ⟨charge, some (array, array)⟩ ⟨hcharge, harray, harray⟩
        exact hnot _ (readings_eq_ok hout).1 hreversed.1
    · intro n hn
      by_contra hsensor
      obtain rfl : sensors = some n := hn
      obtain ⟨charge, hcharge⟩ := hraw dots
      obtain ⟨array, harray, hnot⟩ := hbad n hsensor
      obtain ⟨out, hout, hreversed⟩ := h ⟨charge, some (array, array)⟩ ⟨hcharge, harray, harray⟩
      obtain ⟨hs, -⟩ := (readings_eq_ok hout).2 array array rfl
      exact hnot _ hs hreversed.2.1
  · rintro ⟨hdots, hsensors⟩ ⟨charge, sensor⟩ ⟨hcharge, hsensor⟩
    obtain ⟨charge', hc, hchargeReversed⟩ := hgood dots charge hdots hcharge
    cases sensor with
    | none => exact ⟨_, readings_plain hc rfl, hchargeReversed, trivial⟩
    | some arrays =>
      obtain ⟨output, signal⟩ := arrays
      cases sensors with
      | none => exact hsensor.elim
      | some n =>
        obtain ⟨output', ho, houtput⟩ := hgood n output (hsensors n rfl) hsensor.1
        obtain ⟨signal', hs, hsignal⟩ := hgood n signal (hsensors n rfl) hsensor.2
        exact ⟨_, readings_sensed hc rfl ho hs, hchargeReversed, houtput, hsignal⟩

end Families

/-! ## The rotation -/

theorem mem_rotationMoves {resolution : Nat} {move : Move} : move ∈ rotationMoves resolution ↔
    ∃ i < resolution, ∃ j < resolution, move = (i * resolution + j,
      (resolution - 1 - i) * resolution + (resolution - 1 - j)) := by
  unfold rotationMoves
  simp only [List.mem_flatMap, List.mem_map, List.mem_range]
  constructor
  · rintro ⟨i, hi, j, hj, rfl⟩
    exact ⟨i, hi, j, hj, rfl⟩
  · rintro ⟨i, hi, j, hj, rfl⟩
    exact ⟨i, hi, j, hj, rfl⟩

/-- The places of a move are mirror images in the first `R * R` elements. -/
theorem rotationMoves_places {resolution : Nat} {move : Move} (h : move ∈ rotationMoves resolution) :
    move.1 = resolution * resolution - 1 - move.2 ∧ move.1 < resolution * resolution ∧
      move.2 < resolution * resolution := by
  obtain ⟨i, hi, j, hj, rfl⟩ := mem_rotationMoves.mp h
  have hlt := place_lt hi hj
  have hmirror := place_mirror hi hj
  dsimp only
  omega

/-- Every one of these elements is written. -/
theorem mem_rotationMoves_snd {resolution i j : Nat} (hi : i < resolution) (hj : j < resolution) :
    i * resolution + j ∈ (rotationMoves resolution).map Prod.snd := by
  have hi' : resolution - 1 - i < resolution := by omega
  have hj' : resolution - 1 - j < resolution := by omega
  refine List.mem_map.mpr ⟨_, mem_rotationMoves.mpr ⟨_, hi', _, hj', rfl⟩, ?_⟩
  have hi'' : resolution - 1 - (resolution - 1 - i) = i := by omega
  have hj'' : resolution - 1 - (resolution - 1 - j) = j := by omega
  dsimp only
  rw [hi'', hj'']

section Rotation

variable {α : Type} [Zero α]

theorem exists_rotate180 {resolution : Nat} {input : List α}
    (hint : resolution * resolution ≤ 2 ^ 31) (hsize : input.length = resolution * resolution) :
    ∃ out, rotate180 resolution input = some out ∧ out.length = input.length ∧
      ∀ i < resolution, ∀ j < resolution, out[i * resolution + j]? =
        input[(resolution - 1 - i) * resolution + (resolution - 1 - j)]? := by
  have hbounds : ∀ move ∈ rotationMoves resolution, move.1 < 2 ^ 31 ∧ move.2 < 2 ^ 31 := by
    intro move hmove
    obtain ⟨-, h1, h2⟩ := rotationMoves_places hmove
    exact ⟨Nat.lt_of_lt_of_le h1 hint, Nat.lt_of_lt_of_le h2 hint⟩
  have hplaces : ∀ move ∈ rotationMoves resolution,
      move.1 = resolution * resolution - 1 - move.2 ∧ move.1 < input.length ∧
        move.2 < (List.replicate input.length (0 : α)).length := by
    intro move hmove
    rw [List.length_replicate, hsize]
    exact rotationMoves_places hmove
  obtain ⟨out, hcopy, hread⟩ := exists_copyAll (fun d => resolution * resolution - 1 - d) hplaces
  refine ⟨out, ?_, ?_, fun i hi j hj => ?_⟩
  · unfold rotate180
    rw [if_pos hbounds, hcopy]
  · rw [(bounds_of_copyAll hcopy).1, List.length_replicate]
  · rw [hread _ (mem_rotationMoves_snd hi hj), place_mirror hi hj]

/-- A rotation that comes to its end has seen only the first `R * R` elements. -/
theorem of_rotate180 {resolution : Nat} {input out : List α}
    (h : rotate180 resolution input = some out) :
    (∀ move ∈ rotationMoves resolution, move.1 < 2 ^ 31 ∧ move.1 < input.length) ∧
      ∀ d, resolution * resolution ≤ d → d < input.length → out[d]? = some 0 := by
  unfold rotate180 at h
  split at h
  · next hint =>
    obtain ⟨-, hbounds, huntouched⟩ := bounds_of_copyAll h
    refine ⟨fun move hmove => ⟨(hint move hmove).1, (hbounds move hmove).1⟩, fun d hd hlt => ?_⟩
    have hnot : d ∉ (rotationMoves resolution).map Prod.snd := by
      rintro hmem
      obtain ⟨move, hmove, rfl⟩ := List.mem_map.mp hmem
      obtain ⟨-, -, h2⟩ := rotationMoves_places hmove
      omega
    rw [huntouched d hnot, List.getElem?_replicate, if_pos hlt]
  · cases h

end Rotation

/-! ## One array -/

theorem exists_raw2D (resolution n : Nat) :
    ∃ array : NumpyArray Binary64, IsRaw2D resolution n array :=
  ⟨⟨List.replicate (resolution * resolution * n) ⟨1⟩, _⟩, rfl, List.length_replicate⟩

theorem exists_raw1D (resolution n : Nat) :
    ∃ array : NumpyArray Binary64, IsRaw1D resolution n array :=
  ⟨⟨List.replicate (resolution * n) ⟨1⟩, _⟩, rfl, List.length_replicate⟩

theorem rotateArray_of_rotate180 {α : Type} [Zero α] {resolution : Int32} {n : Nat}
    {array : NumpyArray α} (h : IsRaw2D (turns resolution) n array) :
    rotateArray true resolution array =
      match rotate180 (turns resolution) array.data with
      | some data => .ok { array with data }
      | none => .error .undefinedBehaviour := by
  unfold rotateArray
  rw [h.shape]
  rfl

/-- Where the rotation is the reversal of the axes. -/
def Good2D (resolution n : Nat) : Prop :=
  resolution = 0 ∨ (n = 1 ∧ resolution * resolution ≤ 2 ^ 31)

def Good1D (resolution n : Nat) : Prop := resolution = 0 ∨ n ≤ 1

theorem rotateArray_good {resolution : Int32} (n : Nat) (array : NumpyArray Binary64)
    (hgood : Good2D (turns resolution) n) (hraw : IsRaw2D (turns resolution) n array) :
    ∃ out, rotateArray true resolution array = .ok out ∧
      IsReversed2D (turns resolution) n array out := by
  have hsize := hraw.size
  rw [rotateArray_of_rotate180 hraw]
  generalize turns resolution = count at hgood hsize ⊢
  have hint : count * count ≤ 2 ^ 31 := by
    obtain rfl | ⟨-, hint⟩ := hgood
    · exact Nat.zero_le _
    · exact hint
  have hone : count = 0 ∨ n = 1 := hgood.imp_right And.left
  have hflat : array.data.length = count * count := by
    obtain rfl | rfl := hone
    · rw [hsize, Nat.mul_zero, Nat.zero_mul]
    · rw [hsize, Nat.mul_one]
  obtain ⟨data, hdata, hlength, hread⟩ := exists_rotate180 hint hflat
  rw [hdata]
  refine ⟨_, rfl, hlength, fun i hi j hj k hk => ?_⟩
  obtain rfl | rfl := hone
  · exact absurd hi (Nat.not_lt_zero i)
  · obtain rfl := Nat.lt_one_iff.mp hk
    rw [Nat.mul_one, Nat.add_zero, Nat.mul_one, Nat.add_zero]
    exact hread i hi j hj

/-- With more components the last ones are never written. -/
theorem rotateArray_bad {resolution : Int32} (n : Nat) (hbad : ¬ Good2D (turns resolution) n) :
    ∃ array : NumpyArray Binary64, IsRaw2D (turns resolution) n array ∧
      ∀ out, rotateArray true resolution array = .ok out →
        ¬ IsReversed2D (turns resolution) n array out := by
  obtain ⟨array, hraw, hones⟩ : ∃ array : NumpyArray Binary64, IsRaw2D (turns resolution) n array ∧
      array.data = List.replicate (turns resolution * turns resolution * n) ⟨1⟩ :=
    ⟨⟨_, _⟩, ⟨rfl, List.length_replicate⟩, rfl⟩
  refine ⟨array, hraw, fun out hout hreversed => ?_⟩
  have hsize := hraw.size
  rw [rotateArray_of_rotate180 hraw] at hout
  generalize turns resolution = count at hbad hsize hones hout hreversed
  have hpos : 0 < count := Nat.pos_of_ne_zero fun h => hbad (.inl h)
  have hpred : count - 1 < count := Nat.sub_lt hpos Nat.one_pos
  cases hrotate : rotate180 count array.data with
  | none =>
    rw [hrotate] at hout
    cases hout
  | some data =>
    rw [hrotate] at hout
    cases hout
    obtain ⟨hbounds, hzero⟩ := of_rotate180 hrotate
    have hcorner := hbounds _ (mem_rotationMoves.mpr ⟨_, hpred, _, hpred, rfl⟩)
    have hlast : (count - 1) * count + (count - 1) = count * count - 1 := by
      have h := place_mirror hpos hpos
      simpa using h
    have hsquare : 0 < count * count := Nat.mul_pos hpos hpos
    dsimp only at hcorner
    rw [hlast, hsize] at hcorner
    have hn : 2 ≤ n := by
      by_contra hlt
      obtain rfl | rfl : n = 0 ∨ n = 1 := by omega
      · rw [Nat.mul_zero] at hcorner
        exact absurd hcorner.2 (Nat.not_lt_zero _)
      · exact hbad (.inr ⟨rfl, by omega⟩)
    have hplace : (count * count - 1) * n + (n - 1) < array.data.length := by
      rw [hsize]
      exact place_lt (Nat.sub_lt hsquare Nat.one_pos) (by omega)
    have hbeyond : count * count ≤ (count * count - 1) * n + (n - 1) := by
      have hmul : (count * count - 1) * 1 ≤ (count * count - 1) * n :=
        Nat.mul_le_mul_left _ (by omega)
      omega
    have hread := hreversed.elements _ hpred _ hpred (n - 1) (by omega)
    rw [hlast, hzero _ hbeyond hplace, hones, List.getElem?_replicate, if_pos] at hread
    · exact absurd hread (by decide)
    · have hsub : count - 1 - (count - 1) = 0 := Nat.sub_self _
      rw [hsub, Nat.zero_mul, Nat.zero_add, Nat.zero_mul, Nat.zero_add]
      have hle : n ≤ count * count * n := Nat.le_mul_of_pos_left n hsquare
      omega

theorem reverseArray_good {resolution : Nat} (n : Nat) (array : NumpyArray Binary64)
    (hgood : Good1D resolution n) (hraw : IsRaw1D resolution n array) :
    ∃ out, reverseArray true array = .ok out ∧ IsReversed1D resolution n array out := by
  refine ⟨_, rfl, List.length_reverse, fun i hi k hk => ?_⟩
  obtain rfl | hn := hgood
  · exact absurd hi (Nat.not_lt_zero i)
  · obtain rfl : n = 1 := by omega
    obtain rfl := Nat.lt_one_iff.mp hk
    have hsize := hraw.size
    rw [Nat.mul_one] at hsize
    rw [Nat.mul_one, Nat.add_zero, Nat.mul_one, Nat.add_zero, if_pos rfl]
    dsimp only
    rw [List.getElem?_reverse (by rw [hsize]; exact hi), hsize]

/-- With more components the first one of a point becomes the last. -/
theorem reverseArray_bad {resolution : Nat} (n : Nat) (hbad : ¬ Good1D resolution n) :
    ∃ array : NumpyArray Binary64, IsRaw1D resolution n array ∧
      ∀ out, reverseArray true array = .ok out → ¬ IsReversed1D resolution n array out := by
  have hpos : 0 < resolution := Nat.pos_of_ne_zero fun h => hbad (.inl h)
  have hn : 2 ≤ n := by
    by_contra hlt
    exact hbad (.inr (by omega))
  have hlast : (resolution - 1) * n + (n - 1) = resolution * n - 1 := by
    have h := place_mirror hpos (by omega : 0 < n)
    simpa using h
  have hpositive : 0 < resolution * n := Nat.mul_pos hpos (by omega)
  refine ⟨⟨List.replicate (resolution * n - 1) ⟨0⟩ ++ [⟨1⟩], [(resolution : Int), n]⟩, ⟨rfl, ?_⟩, ?_⟩
  · rw [List.length_append, List.length_replicate, List.length_singleton]
    omega
  · intro out hout hreversed
    cases hout
    have hread := hreversed.elements 0 hpos 0 (by omega)
    rw [if_pos rfl] at hread
    dsimp only at hread
    rw [List.reverse_append, Nat.zero_mul, Nat.add_zero, Nat.sub_zero] at hread
    change some (⟨1⟩ : Binary64) = _ at hread
    rw [List.getElem?_append_left, List.getElem?_replicate, if_pos] at hread
    · exact absurd hread (by decide)
    · omega
    · rw [List.length_replicate]
      omega

/-! ## The scans -/

theorem reverses2D_iff (resolution : Int32) (dots : Nat) (sensors : Option Nat) :
    Reverses2D resolution dots sensors ↔
      Good2D (turns resolution) dots ∧ ∀ n ∈ sensors, Good2D (turns resolution) n := by
  rw [← readings_reversed_iff (exists_raw2D (turns resolution)) rotateArray_good rotateArray_bad]
  constructor
  · intro h scan hscan
    obtain ⟨out, hout, hreversed⟩ := h (fun _ _ _ _ _ => .ok scan) "" "" (0, 0) (0, 0) scan rfl hscan
    unfold scan2d at hout
    change (readings (rotateArray true resolution) scan >>= fun _ => _) = _ at hout
    cases hreadings : readings (rotateArray true resolution) scan with
    | error e =>
      rw [hreadings] at hout
      cases hout
    | ok arrays =>
      rw [hreadings] at hout
      cases hout
      exact ⟨arrays, rfl, hreversed⟩
  · intro h pyDevice xGate yGate xRange yRange scan hpy hscan
    obtain ⟨arrays, harrays, hreversed⟩ := h scan hscan
    refine ⟨{ arrays with xGate, yGate, xRange, yRange, resolution }, ?_, hreversed⟩
    unfold scan2d negatedRange
    rw [if_pos rfl, if_pos rfl, hpy]
    change (readings (rotateArray true resolution) scan >>= fun _ => _) = _
    rw [harrays]
    rfl

theorem reverses1D_iff (resolution : Int32) (dots : Nat) (sensors : Option Nat) :
    Reverses1D resolution dots sensors ↔
      Good1D (turns resolution) dots ∧ ∀ n ∈ sensors, Good1D (turns resolution) n := by
  rw [← readings_reversed_iff (exists_raw1D (turns resolution)) reverseArray_good reverseArray_bad]
  constructor
  · intro h scan hscan
    obtain ⟨out, hout, hreversed⟩ := h (fun _ _ _ => .ok scan) "" (0, 0) scan rfl hscan
    unfold scan1d at hout
    change (readings (reverseArray true) scan >>= fun _ => _) = _ at hout
    cases hreadings : readings (reverseArray true) scan with
    | error e =>
      rw [hreadings] at hout
      cases hout
    | ok arrays =>
      rw [hreadings] at hout
      cases hout
      exact ⟨arrays, rfl, hreversed⟩
  · intro h pyDevice gate vRange scan hpy hscan
    obtain ⟨arrays, harrays, hreversed⟩ := h scan hscan
    refine ⟨{ arrays with gate, vRange, resolution }, ?_, hreversed⟩
    unfold scan1d negatedRange
    rw [if_pos rfl, hpy]
    change (readings (reverseArray true) scan >>= fun _ => _) = _
    rw [harrays]
    rfl

/-- The scans reverse the sweep axes, and nothing else, only where a point has one component. -/
theorem sweepReversal_iff (resolution : Int32) (dots : Nat) (sensors : Option Nat) :
    (Reverses2D resolution dots sensors ↔ ∀ n, n = dots ∨ n ∈ sensors →
      turns resolution = 0 ∨ (n = 1 ∧ turns resolution * turns resolution ≤ 2 ^ 31)) ∧
    (Reverses1D resolution dots sensors ↔ ∀ n, n = dots ∨ n ∈ sensors →
      turns resolution = 0 ∨ n ≤ 1) := by
  rw [reverses2D_iff, reverses1D_iff]
  unfold Good2D Good1D
  constructor <;> simp only [or_imp, forall_and, forall_eq]

/-- Two dots, two points for each axis. -/
theorem not_sweepReversal_twoDots : ¬ Reverses2D 2 2 none ∧ ¬ Reverses1D 2 2 none := by
  rw [reverses2D_iff, reverses1D_iff]
  unfold Good2D Good1D
  have hturns : turns 2 = 2 := by decide
  rw [hturns]
  constructor <;> rintro ⟨h, -⟩ <;> omega

end FalconLib.QArray
