import FalconLib.Base.StdMap
import FalconLib.Dsl.Ast
import FalconLib.PackageManager.PackageResolver
import Mathlib.Data.List.TakeWhile

/-!
# Compiled wrappers

An `ffimport` compiles a wrapper into a shared object whose path is made of the directory of the
importing file, the stem of the wrapper and a hash of its content. An object that is already at the
path is opened as it is.
-/

namespace FalconLib.Dsl.WrapperCache

open FalconLib.Base (StdMap)
open FalconLib.PackageManager (joinPath parentPath stem)

/-! ## Hexadecimal digits -/

def hexDigit (n : Nat) : Char := "0123456789abcdef".toList.getD n '0'

/-- The last `k` digits of a number. -/
def hexDigits : Nat → Nat → List Char
  | 0, _ => []
  | k + 1, n => hexDigits k (n / 16) ++ [hexDigit (n % 16)]

theorem length_hexDigits (k n : Nat) : (hexDigits k n).length = k := by
  induction k generalizing n with
  | zero => rfl
  | succ k ih =>
    unfold hexDigits
    rw [List.length_append, ih]
    rfl

theorem hexDigit_inj : ∀ n < 16, ∀ m < 16, hexDigit n = hexDigit m → n = m := by decide

theorem hexDigits_inj {k n m : Nat} (hn : n < 16 ^ k) (hm : m < 16 ^ k)
    (h : hexDigits k n = hexDigits k m) : n = m := by
  induction k generalizing n m with
  | zero => omega
  | succ k ih =>
    obtain ⟨hhigh, hlow⟩ := List.append_inj' h rfl
    have hdigit := hexDigit_inj (n % 16) (by omega) (m % 16) (by omega) (List.singleton_inj.mp hlow)
    have hrest : n / 16 = m / 16 := ih (by omega) (by omega) hhigh
    omega

theorem hexDigit_ne_slash : ∀ n < 16, hexDigit n ≠ '/' := by decide

theorem slash_not_mem_hexDigits (k n : Nat) : '/' ∉ hexDigits k n := by
  induction k generalizing n with
  | zero => exact List.not_mem_nil
  | succ k ih =>
    intro h
    rcases List.mem_append.mp h with h | h
    · exact ih _ h
    · exact hexDigit_ne_slash (n % 16) (by omega) (List.mem_singleton.mp h).symm

/-! ## The path of a shared object -/

/-- The file of a wrapper: its bytes, where it can be read. -/
inductive Wrapper where
  | missing
  | unreadable
  | readable (bytes : List UInt8)
deriving DecidableEq

def djb2Step (h : UInt64) (c : UInt8) : UInt64 := ((h <<< 5) + h) + c.toUInt64

def djb2 (bytes : List UInt8) : UInt64 := bytes.foldl djb2Step 5381

/-- The number that `compute_file_hash` prints; for a file it cannot read it prints zeros. -/
def Wrapper.digest : Wrapper → UInt64
  | .readable bytes => djb2 bytes
  | _ => 0

/-- `compute_file_hash`, cut off after 16 digits. -/
def computeFileHash (wrapper : Wrapper) : String :=
  String.ofList (hexDigits 16 wrapper.digest.toNat)

/-- One `ffimport` as the engine meets it: what the file system holds at that time, and how the
compiler and the loader answer where they are asked. -/
structure Visit where
  /-- The file with the import. -/
  falPath : String
  ffi : FFImportDecl
  wrapper : Wrapper
  /-- The symbols of the object, if the command returns 0. -/
  compiled : Option (List String)
  /-- Whether `dlopen` succeeds. -/
  opens : Bool

/-- What an object is compiled from. -/
structure Build where
  wrapper : Wrapper
  imports : List String
  buildLibs : List String
deriving DecidableEq

structure SharedObject where
  build : Build
  symbols : List String

namespace Visit

def build (v : Visit) : Build := ⟨v.wrapper, v.ffi.imports, v.ffi.buildLibs⟩

def wrapperSrc (v : Visit) : String := joinPath (parentPath v.falPath) v.ffi.wrapperFile

def cacheDir (v : Visit) : String :=
  joinPath (joinPath (parentPath v.falPath) ".falcon") "cache"

def fileName (v : Visit) : String :=
  stem v.wrapperSrc ++ "_" ++ computeFileHash v.wrapper ++ ".so"

/-- No path is computed for a wrapper that does not exist. -/
def soPath (v : Visit) : Option String :=
  if v.wrapper = .missing then none else some (joinPath v.cacheDir v.fileName)

/-- `process_ff_import` up to the handle of `dlopen`. -/
def processFfImport (v : Visit) (objects : StdMap SharedObject) :
    Option SharedObject × StdMap SharedObject :=
  match v.soPath with
  | none => (none, objects)
  | some path =>
    match objects[path]? with
    | some object => (if v.opens then some object else none, objects)
    | none =>
      match v.compiled with
      | none => (none, objects)
      | some symbols =>
        let object : SharedObject := ⟨v.build, symbols⟩
        (if v.opens then some object else none, objects.assign path object)

end Visit

/-- The objects in the caches after some imports, in any number of processes. -/
def cached : List Visit → StdMap SharedObject
  | [] => ∅
  | v :: earlier => (v.processFfImport (cached earlier)).2

/-! ## What the path tells -/

theorem slash_not_mem_stem (path : String) : '/' ∉ (stem path).toList := by
  have hname : '/' ∉ (path.toList.reverse.takeWhile (· ≠ '/')).reverse := by
    rw [List.mem_reverse]
    intro h
    have hne := List.mem_takeWhile_imp h
    exact absurd hne (by decide)
  unfold stem
  dsimp only
  split
  · rw [String.toList_ofList]
    exact hname
  · rw [String.toList_ofList, List.mem_reverse]
    intro h
    have hbase := (List.dropWhile_sublist _).subset (List.mem_of_mem_drop h)
    exact hname (List.mem_reverse.mp hbase)

namespace Visit

theorem toList_fileName (v : Visit) :
    v.fileName.toList = (stem v.wrapperSrc).toList ++
      ('_' :: (hexDigits 16 v.wrapper.digest.toNat ++ ['.', 's', 'o'])) := by
  unfold fileName computeFileHash
  have hline : "_".toList = ['_'] := rfl
  have hso : ".so".toList = ['.', 's', 'o'] := rfl
  simp only [String.toList_append, String.toList_ofList, List.append_assoc, hline, hso]
  rw [List.singleton_append]

theorem slash_not_mem_fileName (v : Visit) : '/' ∉ v.fileName.toList := by
  rw [toList_fileName]
  intro h
  rcases List.mem_append.mp h with h | h
  · exact slash_not_mem_stem _ h
  · rcases List.mem_cons.mp h with h | h
    · exact absurd h (by decide)
    · rcases List.mem_append.mp h with h | h
      · exact slash_not_mem_hexDigits _ _ h
      · exact absurd h (by decide)

/-- The name ends with a fixed number of digits. -/
theorem fileName_eq_iff (v w : Visit) :
    v.fileName = w.fileName ↔
      stem v.wrapperSrc = stem w.wrapperSrc ∧ v.wrapper.digest = w.wrapper.digest := by
  constructor
  · intro h
    have hlist := congrArg String.toList h
    rw [toList_fileName, toList_fileName] at hlist
    have hlen : ∀ u : Visit,
        ('_' :: (hexDigits 16 u.wrapper.digest.toNat ++ ['.', 's', 'o'])).length = 20 := by
      intro u
      rw [List.length_cons, List.length_append, length_hexDigits]
      rfl
    obtain ⟨hstem, hrest⟩ := List.append_inj' hlist ((hlen v).trans (hlen w).symm)
    have hdigits := (List.append_inj' (List.cons.inj hrest).2 rfl).1
    refine ⟨String.toList_inj.mp hstem, ?_⟩
    exact UInt64.toNat_inj.mp
      (hexDigits_inj (UInt64.toNat_lt _) (UInt64.toNat_lt _) hdigits)
  · rintro ⟨hstem, hdigest⟩
    unfold fileName computeFileHash
    rw [hstem, hdigest]

theorem toList_cacheDir (v : Visit) :
    ∃ parent, v.cacheDir.toList = parent ++ ['c', 'a', 'c', 'h', 'e'] := by
  unfold cacheDir
  generalize joinPath (parentPath v.falPath) ".falcon" = base
  unfold joinPath
  rw [if_neg (by decide)]
  split
  · exact ⟨base.toList, String.toList_append⟩
  · exact ⟨base.toList ++ ['/'], by simp⟩

theorem toList_joinPath_cacheDir (v : Visit) :
    (joinPath v.cacheDir v.fileName).toList = v.cacheDir.toList ++ '/' :: v.fileName.toList := by
  obtain ⟨parent, hparent⟩ := v.toList_cacheDir
  have hhead : v.fileName.toList.head? ≠ some '/' := fun h =>
    v.slash_not_mem_fileName (List.mem_of_head? h)
  have hlast : v.cacheDir.toList.getLast? = some 'e' := by
    rw [hparent]
    simp
  have hempty : v.cacheDir.isEmpty = false := by
    rw [String.isEmpty_eq_false_iff]
    intro h
    rw [h] at hlast
    cases hlast
  unfold joinPath
  rw [if_neg hhead, if_neg]
  · simp
  · rw [hempty, hlast]
    decide

theorem append_slash_inj {dir dir' name name' : List Char} (hname : '/' ∉ name)
    (hname' : '/' ∉ name') (h : dir ++ '/' :: name = dir' ++ '/' :: name') :
    dir = dir' ∧ name = name' := by
  rcases List.append_eq_append_iff.mp h with ⟨mid, hdir, hmid⟩ | ⟨mid, hdir, hmid⟩
  · cases mid with
    | nil => exact ⟨by rw [hdir, List.append_nil], (List.cons.inj hmid).2⟩
    | cons c mid =>
      have hmem : '/' ∈ mid ++ '/' :: name' := List.mem_append_right _ List.mem_cons_self
      have htail : name = mid ++ '/' :: name' := (List.cons.inj hmid).2
      rw [← htail] at hmem
      exact absurd hmem hname
  · cases mid with
    | nil => exact ⟨by rw [hdir, List.append_nil], (List.cons.inj hmid).2.symm⟩
    | cons c mid =>
      have hmem : '/' ∈ mid ++ '/' :: name := List.mem_append_right _ List.mem_cons_self
      have htail : name' = mid ++ '/' :: name := (List.cons.inj hmid).2
      rw [← htail] at hmem
      exact absurd hmem hname'

end Visit

/-- Two imports for which the engine computes one path. -/
structure Collide (v w : Visit) : Prop where
  left : v.wrapper ≠ .missing
  right : w.wrapper ≠ .missing
  cacheDir : v.cacheDir = w.cacheDir
  stem : stem v.wrapperSrc = stem w.wrapperSrc
  digest : v.wrapper.digest = w.wrapper.digest

theorem Collide.soPath {v w : Visit} (h : Collide v w) :
    ∃ path, v.soPath = some path ∧ w.soPath = some path := by
  refine ⟨joinPath v.cacheDir v.fileName, if_neg h.left, ?_⟩
  unfold Visit.soPath
  rw [if_neg h.right, h.cacheDir, (v.fileName_eq_iff w).mpr ⟨h.stem, h.digest⟩]

theorem collide_of_soPath {v w : Visit} {path : String} (hv : v.soPath = some path)
    (hw : w.soPath = some path) : Collide v w := by
  unfold Visit.soPath at hv hw
  by_cases hleft : v.wrapper = .missing
  · rw [if_pos hleft] at hv
    cases hv
  by_cases hright : w.wrapper = .missing
  · rw [if_pos hright] at hw
    cases hw
  rw [if_neg hleft] at hv
  rw [if_neg hright] at hw
  have hlist := congrArg String.toList (Option.some.inj (hv.trans hw.symm))
  rw [v.toList_joinPath_cacheDir, w.toList_joinPath_cacheDir] at hlist
  obtain ⟨hdir, hname⟩ := Visit.append_slash_inj v.slash_not_mem_fileName
    w.slash_not_mem_fileName hlist
  obtain ⟨hstem, hdigest⟩ := (v.fileName_eq_iff w).mp (String.toList_inj.mp hname)
  exact ⟨hleft, hright, String.toList_inj.mp hdir, hstem, hdigest⟩

/-! ## Runs -/

/-- The objects of a cache come from imports with these paths. -/
def Traced (objects : StdMap SharedObject) (visits : List Visit) : Prop :=
  ∀ (path : String) (object : SharedObject), objects[path]? = some object →
    ∃ v ∈ visits, v.soPath = some path ∧ object.build = v.build

theorem eq_of_opened {opens : Bool} {object found : SharedObject}
    (h : (if opens then some object else none) = some found) : object = found := by
  cases opens with
  | true => exact Option.some.inj h
  | false => cases h

/-- What an import opens and what it leaves in the cache. -/
theorem Traced.processFfImport {objects : StdMap SharedObject} {visits : List Visit}
    (h : Traced objects visits) (v : Visit) :
    Traced (v.processFfImport objects).2 (v :: visits) ∧
      ∀ object, (v.processFfImport objects).1 = some object →
        ∃ w ∈ v :: visits, ∃ path, v.soPath = some path ∧ w.soPath = some path ∧
          object.build = w.build := by
  have hkept : Traced objects (v :: visits) := fun path object ho => by
    obtain ⟨w, hw, hpath, hbuild⟩ := h path object ho
    exact ⟨w, List.mem_cons_of_mem _ hw, hpath, hbuild⟩
  unfold Visit.processFfImport
  cases hpath : v.soPath with
  | none => exact ⟨hkept, fun object ho => by cases ho⟩
  | some path =>
    dsimp only
    cases hobject : objects[path]? with
    | some object =>
      refine ⟨hkept, fun found ho => ?_⟩
      obtain ⟨w, hw, hwpath, hbuild⟩ := hkept path object hobject
      cases eq_of_opened ho
      exact ⟨w, hw, path, rfl, hwpath, hbuild⟩
    | none =>
      dsimp only
      cases hcompiled : v.compiled with
      | none => exact ⟨hkept, fun object ho => by cases ho⟩
      | some symbols =>
        constructor
        · intro other object ho
          rw [StdMap.getElem?_assign] at ho
          by_cases hother : path = other
          · rw [if_pos hother] at ho
            cases ho
            exact ⟨v, List.mem_cons_self, hother ▸ hpath, rfl⟩
          · rw [if_neg hother] at ho
            exact hkept other object ho
        · intro found ho
          cases eq_of_opened ho
          exact ⟨v, List.mem_cons_self, path, rfl, hpath, rfl⟩

theorem traced_cached (visits : List Visit) : Traced (cached visits) visits := by
  induction visits with
  | nil =>
    intro path object h
    cases (Std.ExtTreeMap.getElem?_empty (a := path)).symm.trans h
  | cons v earlier ih => exact (ih.processFfImport v).1

/-- A path tells wrappers and flags apart, and no import, whichever others came before, opens an
object that was made from another wrapper or with other flags. -/
structure Sound (visits : Set Visit) : Prop where
  path : ∀ v ∈ visits, ∀ w ∈ visits, ∀ (path : String), v.soPath = some path →
    w.soPath = some path → v.build = w.build
  opened : ∀ v ∈ visits, ∀ (earlier : List Visit), (∀ w ∈ earlier, w ∈ visits) →
    ∀ (object : SharedObject), (v.processFfImport (cached earlier)).1 = some object →
      object.build = v.build

/-- The cache is sound for imports among which no two wrappers of one directory, stem and hash
differ in their content or in their flags. -/
theorem sound_iff (visits : Set Visit) :
    Sound visits ↔ ∀ v ∈ visits, ∀ w ∈ visits, Collide v w → v.build = w.build := by
  constructor
  · intro h v hv w hw hcollide
    obtain ⟨path, hvpath, hwpath⟩ := hcollide.soPath
    exact h.path v hv w hw path hvpath hwpath
  · intro h
    have hpath : ∀ v ∈ visits, ∀ w ∈ visits, ∀ (path : String), v.soPath = some path →
        w.soPath = some path → v.build = w.build := fun v hv w hw path hvpath hwpath =>
      h v hv w hw (collide_of_soPath hvpath hwpath)
    refine ⟨hpath, fun v hv earlier hearlier object hobject => ?_⟩
    obtain ⟨w, hw, path, hvpath, hwpath, hbuild⟩ :=
      ((traced_cached earlier).processFfImport v).2 object hobject
    have hmem : w ∈ visits := by
      rcases List.mem_cons.mp hw with rfl | hw
      · exact hv
      · exact hearlier w hw
    exact hbuild.trans (hpath w hmem v hv path hwpath hvpath)

/-! ## Collisions -/

/-- One file imported with two sets of linker flags. -/
def flagged (buildLibs : List String) : Visit where
  falPath := "/lab/sweep.fal"
  ffi := { wrapperFile := "wrapper.cpp", buildLibs := buildLibs }
  wrapper := .readable [105, 110, 116]
  compiled := some ["measure"]
  opens := true

/-- The second import opens what the first one linked. -/
theorem not_sound_flagged : ¬Sound Set.univ := by
  intro h
  have hcollide : Collide (flagged ["-lmydevice"]) (flagged ["-lotherdevice"]) :=
    ⟨by decide, by decide, rfl, rfl, rfl⟩
  obtain ⟨path, hleft, hright⟩ := hcollide.soPath
  have hbuild := h.path _ (Set.mem_univ _) _ (Set.mem_univ _) path hleft hright
  exact absurd (congrArg Build.buildLibs hbuild) (by decide)

/-- A byte more and 33 less in the next one is the same hash. -/
theorem djb2_shift (before after : List UInt8) {a b : UInt8} (ha : a < 255) (hb : 33 ≤ b) :
    djb2 (before ++ a :: b :: after) = djb2 (before ++ (a + 1) :: (b - 33) :: after) := by
  have hsucc : (a + 1).toUInt64 = a.toUInt64 + 1 := by
    apply UInt64.toNat_inj.mp
    have hlt : a.toNat < 255 := UInt8.lt_iff_toNat_lt.mp ha
    simp only [UInt8.toNat_toUInt64, UInt8.toNat_add, UInt64.toNat_add, UInt8.reduceToNat,
      UInt64.reduceToNat]
    omega
  have hpred : (b - 33).toUInt64 = b.toUInt64 - 33 := by
    apply UInt64.toNat_inj.mp
    have hle : 33 ≤ b.toNat := UInt8.le_iff_toNat_le.mp hb
    have hlt := b.toNat_lt
    simp only [UInt8.toNat_toUInt64, UInt8.toNat_sub, UInt64.toNat_sub, UInt8.reduceToNat,
      UInt64.reduceToNat]
    omega
  have hshift : ∀ h : UInt64, h <<< 5 = h * 32 := by
    intro h
    apply UInt64.toNat_inj.mp
    simp [UInt64.toNat_shiftLeft, UInt64.toNat_mul, Nat.shiftLeft_eq]
  have hstep : ∀ h : UInt64, djb2Step (djb2Step h a) b =
      djb2Step (djb2Step h (a + 1)) (b - 33) := by
    intro h
    unfold djb2Step
    rw [hsucc, hpred, hshift, hshift, hshift]
    grind
  unfold djb2
  rw [List.foldl_append, List.foldl_append]
  simp only [List.foldl_cons]
  rw [hstep]

/-- Almost every text has a neighbour with its path. -/
theorem collide_shift {v : Visit} {before after : List UInt8} {a b : UInt8} (ha : a < 255)
    (hb : 33 ≤ b) (hv : v.wrapper = .readable (before ++ a :: b :: after)) :
    Collide v { v with
      wrapper := .readable (before ++ (a + 1) :: (b - 33) :: after) } := by
  refine ⟨fun h => ?_, fun h => ?_, rfl, rfl, ?_⟩
  · cases hv.symm.trans h
  · cases h
  · rw [hv]
    exact djb2_shift before after ha hb

end FalconLib.Dsl.WrapperCache
