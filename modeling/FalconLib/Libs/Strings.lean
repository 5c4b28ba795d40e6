import FalconLib.Base.Substrings
import Mathlib.Algebra.Group.Nat.Defs
import Mathlib.Tactic.Common

/-!
# Strings

The search, replacement and extraction routines of the string library, from the values that the
wrapper unpacks to the value that it packs. A `std::string` is the list of its bytes, each written
as a character.
-/

namespace FalconLib.Libs.Strings

open FalconLib.Base.Substrings

/-! ## Replacing -/

/-- `s.replace(pos, n, to)` -/
def replaceAt (s : List Char) (pos n : Nat) (to_ : List Char) : List Char :=
  s.take pos ++ to_ ++ s.drop (pos + n)

def replaceAllLoop (from_ to_ : List Char) : Nat → List Char → Nat → Option (List Char)
  | 0, _, _ => none
  | fuel + 1, s, pos =>
    match find s from_ pos with
    | none => some s
    | some pos =>
      replaceAllLoop from_ to_ fuel (replaceAt s pos from_.length to_) (pos + to_.length)

/-- `none` when the loop has not ended after so many turns. -/
def replaceAll (fuel : Nat) (s from_ to_ : List Char) : Option (List Char) :=
  if from_.isEmpty then some s else replaceAllLoop from_ to_ fuel s 0

theorem replaceAt_append (done pat post to_ : List Char) :
    replaceAt (done ++ (pat ++ post)) done.length pat.length to_ = done ++ to_ ++ post := by
  unfold replaceAt
  rw [List.take_left, ← List.drop_drop, List.drop_left, List.drop_left]

/-- A turn moves what stands before the occurrence, and the new text, to the part that is done. -/
theorem replaceAllLoop_succ {from_ to_ pre post : List Char} (fuel : Nat) (done : List Char)
    (h : search from_ (pre ++ from_ ++ post) = some pre.length) :
    replaceAllLoop from_ to_ (fuel + 1) (done ++ (pre ++ from_ ++ post)) done.length =
      replaceAllLoop from_ to_ fuel (done ++ pre ++ to_ ++ post)
        (done ++ pre ++ to_).length := by
  have hfind : find (done ++ (pre ++ from_ ++ post)) from_ done.length =
      some (done ++ pre).length := by
    rw [find_append, h, Option.map_some, List.length_append]
  have hsplit : done ++ (pre ++ from_ ++ post) = (done ++ pre) ++ (from_ ++ post) := by
    simp only [List.append_assoc]
  have hlength : (done ++ pre ++ to_).length = (done ++ pre).length + to_.length :=
    List.length_append
  rw [replaceAllLoop, hfind]
  change replaceAllLoop from_ to_ fuel (replaceAt _ (done ++ pre).length _ _) _ = _
  rw [hsplit, replaceAt_append, hlength]

/-- What is not searched yet gets shorter with each turn. -/
theorem replaceAllLoop_outcome {from_ : List Char} (hne : from_ ≠ []) (to_ : List Char)
    (rest : List Char) : ∀ done : List Char, ∃ n out, Replaces from_ to_ rest out ∧
      ∀ fuel ≥ n, replaceAllLoop from_ to_ fuel (done ++ rest) done.length = some (done ++ out) := by
  induction hlen : rest.length using Nat.strong_induction_on generalizing rest with
  | h len ih =>
    intro done
    cases hsearch : search from_ rest with
    | none =>
      refine ⟨1, rest, Replaces.self hsearch, fun fuel hfuel => ?_⟩
      obtain ⟨fuel, rfl⟩ := Nat.exists_eq_add_of_le' hfuel
      rw [replaceAllLoop, find_append, hsearch]
      rfl
    | some i =>
      obtain ⟨hat, hfirst⟩ := search_eq_some_iff.mp hsearch
      obtain ⟨pre, post, rfl, rfl⟩ := occursAt_iff.mp hat
      have hshort : post.length < len := by
        have hpos := List.length_pos_of_ne_nil hne
        rw [← hlen, List.length_append, List.length_append]
        omega
      obtain ⟨n, out, hout, hloop⟩ := ih post.length hshort post rfl (done ++ pre ++ to_)
      rw [List.append_assoc] at hfirst
      refine ⟨n + 1, pre ++ (to_ ++ out), ?_, fun fuel hfuel => ?_⟩
      · rw [List.append_assoc]
        exact Replaces.before hfirst (.hit hout)
      · obtain ⟨fuel, rfl⟩ : ∃ m, fuel = m + 1 := ⟨fuel - 1, by omega⟩
        rw [replaceAllLoop_succ fuel done hsearch, hloop fuel (Nat.le_of_succ_le_succ hfuel)]
        simp only [List.append_assoc]

/-- `ReplaceAll` ends, with the one text in which the occurrences are replaced from left to right;
an empty pattern leaves the text as it is. -/
theorem replaceAll_outcome (s from_ to_ : List Char) :
    ∃ n out, (∀ fuel ≥ n, replaceAll fuel s from_ to_ = some out) ∧ (from_ = [] → out = s) ∧
      (from_ ≠ [] → ∀ r, Replaces from_ to_ s r ↔ r = out) := by
  by_cases hne : from_ = []
  · refine ⟨0, s, fun fuel _ => ?_, fun _ => rfl, fun h => absurd hne h⟩
    unfold replaceAll
    rw [if_pos (List.isEmpty_iff.mpr hne)]
  · obtain ⟨n, out, hout, hloop⟩ := replaceAllLoop_outcome hne to_ s []
    refine ⟨n, out, fun fuel hfuel => ?_, fun h => absurd h hne, fun _ r => ?_⟩
    · unfold replaceAll
      rw [if_neg fun h => hne (List.isEmpty_iff.mp h)]
      exact hloop fuel hfuel
    · constructor
      · exact fun hr => Replaces.unique hne hr hout
      · rintro rfl
        exact hout

example : replaceAll 3 "aababc".toList "ab".toList "aab".toList = some "aaabaabc".toList := by
  decide

/-! ## Extracting and searching -/

/-- A `std::string` is at most `max_size()` long. -/
structure StdString where
  bytes : List Char
  fits : bytes.length < 2 ^ 63

def length (s : List Char) : Int64 := Int64.ofNat s.length

def contains (s sub : List Char) : Bool := (find s sub 0).isSome

/-- A negative length becomes one of more than `2 ^ 63` bytes. -/
def substring (s : List Char) (begin_ length : Int64) : List Char :=
  let start := if begin_ < 0 then 0 else begin_
  if Int64.ofNat s.length ≤ start then []
  else (s.drop start.toUInt64.toNat).take length.toUInt64.toNat

def indexOf (s sub : List Char) : Int64 :=
  match find s sub 0 with
  | none => -1
  | some pos => Int64.ofNat pos

theorem toNat_toUInt64 {i : Int64} (h : 0 ≤ i) : (i.toUInt64.toNat : Int) = i.toInt := by
  have hle : (0 : Int) ≤ i.toInt := Int64.le_iff_toInt_le.mp h
  rw [Int64.toNat_toUInt64_of_le h]
  exact Int.toNat_of_nonneg hle

/-- Within a string, `Substring` is an interval of positions. -/
theorem substring_of_nonneg (s : StdString) {begin_ length : Int64} (hbegin : 0 ≤ begin_)
    (hlength : 0 ≤ length) :
    substring s.bytes begin_ length =
      slice s.bytes begin_.toInt (begin_.toInt + length.toInt) := by
  have hstart : ¬ begin_ < 0 := Int64.not_lt.mpr hbegin
  rw [← toNat_toUInt64 hbegin, ← toNat_toUInt64 hlength, slice_eq]
  unfold substring
  dsimp only
  rw [if_neg hstart]
  by_cases hend : Int64.ofNat s.bytes.length ≤ begin_
  · have hle : s.bytes.length ≤ begin_.toUInt64.toNat := by
      have h := Int64.le_iff_toInt_le.mp hend
      rw [Int64.toInt_ofNat_of_lt s.fits, ← toNat_toUInt64 hbegin] at h
      omega
    rw [if_pos hend, List.drop_of_length_le hle, List.take_nil]
  · rw [if_neg hend]

/-- A negative position stands for the first one. -/
theorem substring_of_neg (s : List Char) {begin_ : Int64} (length : Int64) (h : begin_ < 0) :
    substring s begin_ length = substring s 0 length := by
  unfold substring
  dsimp only
  rw [if_pos h, if_neg Int64.lt_irrefl]

theorem substring_eq_slice (s : StdString) (begin_ : Int64) {length : Int64} (hlength : 0 ≤ length) :
    substring s.bytes begin_ length =
      slice s.bytes (max begin_.toInt 0) (max begin_.toInt 0 + length.toInt) := by
  by_cases h : begin_ < 0
  · have hmax : max begin_.toInt 0 = (0 : Int64).toInt :=
      Int.max_eq_right (Int.le_of_lt (Int64.lt_iff_toInt_lt.mp h))
    rw [substring_of_neg _ _ h, hmax]
    exact substring_of_nonneg s (Int64.le_refl 0) hlength
  · have hbegin : 0 ≤ begin_ := Int64.not_lt.mp h
    have hmax : max begin_.toInt 0 = begin_.toInt :=
      Int.max_eq_left (Int64.le_iff_toInt_le.mp hbegin)
    rw [hmax]
    exact substring_of_nonneg s hbegin hlength

theorem length_nonneg (t : StdString) : 0 ≤ length t.bytes :=
  Int64.zero_le_ofNat_of_lt t.fits

/-- What `Substring` gives at a position is the other string just where that occurs. -/
theorem substring_eq_iff (s t : StdString) {i : Int64} (hi : 0 ≤ i)
    (hlt : i.toUInt64.toNat ≤ s.bytes.length) :
    substring s.bytes i (length t.bytes) = t.bytes ↔
      OccursAt t.bytes s.bytes i.toUInt64.toNat := by
  have hlength : (length t.bytes).toInt = t.bytes.length := Int64.toInt_ofNat_of_lt t.fits
  rw [substring_of_nonneg s hi (length_nonneg t), ← toNat_toUInt64 hi, hlength, slice_eq,
    occursAt_iff_take hlt]

theorem contains_iff (s t : StdString) :
    contains s.bytes t.bytes = true ↔ 0 ≤ indexOf s.bytes t.bytes := by
  unfold contains indexOf
  rw [find_zero]
  cases hsearch : search t.bytes s.bytes with
  | none => exact ⟨nofun, fun h => absurd h (by decide)⟩
  | some i =>
    have hi := (search_eq_some_iff.mp hsearch).1.1
    exact ⟨fun _ => Int64.zero_le_ofNat_of_lt (Nat.lt_of_le_of_lt hi s.fits), fun _ => rfl⟩

/-- The index that is not negative is the first at which `Substring` gives the other string. -/
theorem substring_indexOf (s t : StdString) (h : 0 ≤ indexOf s.bytes t.bytes) :
    substring s.bytes (indexOf s.bytes t.bytes) (length t.bytes) = t.bytes ∧
      ∀ j : Int64, 0 ≤ j → j < indexOf s.bytes t.bytes →
        substring s.bytes j (length t.bytes) ≠ t.bytes := by
  obtain ⟨i, hsearch⟩ : ∃ i, search t.bytes s.bytes = some i := by
    have hfound := (contains_iff s t).mpr h
    unfold contains at hfound
    rw [find_zero] at hfound
    exact Option.isSome_iff_exists.mp hfound
  have hindex : indexOf s.bytes t.bytes = Int64.ofNat i := by
    unfold indexOf
    rw [find_zero, hsearch]
  obtain ⟨hat, hfirst⟩ := search_eq_some_iff.mp hsearch
  have hfits : i < 2 ^ 63 := Nat.lt_of_le_of_lt hat.1 s.fits
  rw [hindex] at h ⊢
  have hnat : (Int64.ofNat i).toUInt64.toNat = i := by
    have hto := toNat_toUInt64 h
    rw [Int64.toInt_ofNat_of_lt hfits] at hto
    exact Int.ofNat_inj.mp hto
  constructor
  · rw [substring_eq_iff s t h (by rw [hnat]; exact hat.1), hnat]
    exact hat
  · intro j hj hlt
    have hbefore : j.toUInt64.toNat < i := by
      have hto := Int64.lt_iff_toInt_lt.mp hlt
      rw [← toNat_toUInt64 hj, Int64.toInt_ofNat_of_lt hfits] at hto
      exact Int.ofNat_lt.mp hto
    have hle : j.toUInt64.toNat ≤ s.bytes.length := Nat.le_trans (Nat.le_of_lt hbefore) hat.1
    exact fun heq => hfirst _ hbefore ((substring_eq_iff s t hj hle).mp heq)

/-- The laws of `Substring`, `Contains` and `IndexOf`, for lengths that are not negative. -/
theorem substring_laws (s t : StdString) :
    (∀ begin_ length : Int64, 0 ≤ length →
      substring s.bytes begin_ length =
        slice s.bytes (max begin_.toInt 0) (max begin_.toInt 0 + length.toInt)) ∧
    (contains s.bytes t.bytes = true ↔ 0 ≤ indexOf s.bytes t.bytes) ∧
    (0 ≤ indexOf s.bytes t.bytes →
      substring s.bytes (indexOf s.bytes t.bytes) (length t.bytes) = t.bytes ∧
        ∀ j : Int64, 0 ≤ j → j < indexOf s.bytes t.bytes →
          substring s.bytes j (length t.bytes) ≠ t.bytes) :=
  ⟨fun begin_ _ h => substring_eq_slice s begin_ h, contains_iff s t, substring_indexOf s t⟩

/-- Two bytes from before the text are not left out of three: they are read at its start. -/
theorem not_substring_eq_slice : ¬ ∀ (s : StdString) (begin_ length : Int64),
    substring s.bytes begin_ length =
      slice s.bytes begin_.toInt (begin_.toInt + length.toInt) := by
  intro h
  exact absurd (h ⟨"hello".toList, by decide⟩ (-2) 3) (by decide)

end FalconLib.Libs.Strings
