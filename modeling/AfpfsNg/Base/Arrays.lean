import AfpfsNg.Base.Bytes
import Mathlib.Data.List.TakeWhile

/-!
# Arrays in a block of memory

The character arrays of a C structure lie one behind the other. `Block n` are `n` bytes of memory; an array is a range
of it. A write may run from one array into the next, but not behind the block. `padded` is what `memset` and `memcpy` leave
in an array, and `cString` what a function that looks for the terminator reads.
-/

namespace AfpfsNg.Base

structure Block (n : Nat) where
  bytes : Bytes
  size : bytes.length = n
  deriving DecidableEq, Repr

def Block.zeros (n : Nat) : Block n := ⟨List.replicate n 0, List.length_replicate⟩

def Block.array {n : Nat} (b : Block n) (off len : Nat) : Bytes := slice b.bytes off len

def Block.put {n : Nat} (b : Block n) (off : Nat) (bs : Bytes) : Option (Block n) :=
  if h : off + bs.length ≤ n then
    some ⟨patch b.bytes off bs, by rw [patch_length (by rwa [b.size]), b.size]⟩
  else none

def padded (size : Nat) (s : Bytes) : Bytes := s ++ List.replicate (size - s.length) 0

def cString (a : Bytes) : Bytes := a.takeWhile (· ≠ 0)

/-- The array holds a beginning of the string, and a terminator if the string leaves room for one or has one there. -/
structure Holds (a s : Bytes) : Prop where
  begins : cString a <+: s
  terminated : s.length < a.length ∨ 0 ∈ s.take a.length → 0 ∈ a

section
variable {n size off len i : Nat} {b b' : Block n} {a s bs : Bytes}

lemma length_padded (h : s.length ≤ size) : (padded size s).length = size := by
  rw [padded, List.length_append, List.length_replicate]
  omega

lemma padded_of_length (h : s.length = size) : padded size s = s := by
  rw [padded, h, Nat.sub_self, List.replicate_zero, List.append_nil]

lemma take_padded (hs : s.length ≤ len) (hlen : len ≤ size) : (padded size s).take len = padded len s := by
  rw [padded, padded, List.take_append, List.take_of_length_le hs, List.take_replicate]
  congr 2
  omega

lemma cString_padded (size : Nat) (s : Bytes) : cString (padded size s) = cString s := by
  rw [cString, padded, List.takeWhile_append]
  split
  case isTrue h =>
    rw [List.takeWhile_replicate, if_neg (by decide), List.append_nil]
    exact ((List.takeWhile_prefix _).eq_of_length h).symm
  case isFalse => rfl

lemma cString_take (s : Bytes) (k : Nat) : cString (s.take k) = (cString s).take k := List.take_takeWhile.symm

lemma cString_of_not_mem (h : 0 ∉ s) : cString s = s :=
  List.takeWhile_eq_self_iff.mpr fun _ hc => decide_eq_true fun h0 => h (h0 ▸ hc)

lemma holds_padded {u : Bytes} (hu : u <+: s) (hsize : u.length ≤ size) : Holds (padded size u) s := by
  constructor
  · rw [cString_padded]
    exact (List.takeWhile_prefix _).trans hu
  · rw [length_padded hsize, padded]
    intro hfits
    by_cases hlen : u.length = size
    · -- the whole array is the beginning of the string
      have htake : s.take size = u := hlen ▸ (List.prefix_iff_eq_take.mp hu).symm
      have hle := hu.length_le
      rw [htake] at hfits
      exact List.mem_append_left _ (hfits.resolve_left (by omega))
    · exact List.mem_append_right _ (List.mem_replicate.mpr ⟨by omega, rfl⟩)

lemma holds_nil (ha : a ≠ []) (h : cString a = []) : Holds a [] := by
  constructor
  · exact h ▸ List.nil_prefix
  · intro _
    cases a with
    | nil => exact absurd rfl ha
    | cons c a =>
      rw [cString, List.takeWhile_cons] at h
      split at h
      case isTrue => cases h
      case isFalse hc =>
        rw [Bool.not_eq_true, decide_eq_false_iff_not, Decidable.not_not] at hc
        exact hc ▸ List.mem_cons_self

lemma Block.put_of_le (b : Block n) (off : Nat) (bs : Bytes) (h : off + bs.length ≤ n) : ∃ b', b.put off bs = some b' :=
  ⟨_, dif_pos h⟩

lemma Block.bytes_put (h : b.put off bs = some b') : off + bs.length ≤ n ∧ b'.bytes = patch b.bytes off bs := by
  rw [Block.put] at h
  split at h
  case isTrue hle =>
    cases h
    exact ⟨hle, rfl⟩
  case isFalse => cases h

lemma Block.array_put (h : b.put off bs = some b') (hlen : len ≤ bs.length) : b'.array off len = bs.take len := by
  obtain ⟨hle, hbytes⟩ := Block.bytes_put h
  have hoff : (b.bytes.take off).length = off := by
    rw [List.length_take, b.size]
    omega
  rw [Block.array, hbytes, slice, patch, List.append_assoc]
  nth_rewrite 1 [← hoff]
  rw [List.drop_left, List.take_append_of_le_length hlen]

lemma Block.array_put_padded (h : b.put off (padded len s) = some b') (hs : s.length ≤ len) :
    b'.array off len = padded len s := by
  have hlen := length_padded hs
  rw [Block.array_put h (Nat.le_of_eq hlen.symm), List.take_of_length_le (Nat.le_of_eq hlen)]

lemma Block.array_put_of_disjoint (h : b.put off bs = some b') (hi : i + len ≤ off ∨ off + bs.length ≤ i) :
    b'.array i len = b.array i len := by
  obtain ⟨hle, hbytes⟩ := Block.bytes_put h
  have hoff : (b.bytes.take off).length = off := by
    rw [List.length_take, b.size]
    omega
  rw [Block.array, hbytes, Block.array]
  cases hi with
  | inl hi =>
    rw [← slice_take hi, patch_take_before (Nat.le_refl off) (by rw [b.size]; omega), slice_take hi]
  | inr hi =>
    have hlength : (b.bytes.take off ++ bs).length = off + bs.length := by rw [List.length_append, hoff]
    obtain ⟨k, rfl⟩ := Nat.exists_eq_add_of_le hi
    rw [slice, slice, patch]
    nth_rewrite 1 [← hlength]
    rw [List.drop_length_add_append, List.drop_drop]

lemma Block.array_put_zeros (h : b.put off bs = some b') (hlen : bs.length ≤ len)
    (hzeros : b.array off len = List.replicate len 0) : b'.array off len = padded len bs := by
  obtain ⟨m, rfl⟩ := Nat.exists_eq_add_of_le hlen
  have hbehind : b.array (off + bs.length) m = List.replicate m 0 := by
    rw [Block.array, ← slice_append, List.append_eq_replicate_iff] at hzeros
    obtain ⟨hlength, -, hrest⟩ := hzeros
    have hm : (slice b.bytes (off + bs.length) m).length = m := by
      have hsize := (Block.bytes_put h).1
      rw [slice_length (by rw [b.size]; omega)] at hlength
      omega
    rwa [hm] at hrest
  rw [Block.array, ← slice_append, padded, Nat.add_sub_cancel_left]
  congr 1
  · exact (Block.array_put h (Nat.le_refl _)).trans (List.take_length)
  · exact (Block.array_put_of_disjoint h (.inr (Nat.le_refl _))).trans hbehind

lemma padded_terminated (h : s.length < size) : padded size (s ++ [0]) = padded size s := by
  obtain ⟨m, rfl⟩ := Nat.exists_eq_add_of_le h
  have hm : s.length.succ + m - s.length = m + 1 := by omega
  rw [padded, padded, List.length_append, List.length_singleton, Nat.add_sub_cancel_left, hm, List.append_assoc,
    List.replicate_succ]
  rfl

end

/-- The contents of a file after a write. Zeros fill a gap. -/
def written (file : Bytes) (off : Nat) (data : Bytes) : Bytes :=
  if data = [] then file else patch (padded off file) off data

lemma patch_append {b : Bytes} {off : Nat} (h : off ≤ b.length) (as bs : Bytes) :
    patch (patch b off as) (off + as.length) bs = patch b off (as ++ bs) := by
  have hrest : (patch b off as).drop (off + as.length + bs.length) = b.drop (off + as.length + bs.length) := by
    have hfront : (b.take off ++ as).length = off + as.length := by
      rw [List.length_append, List.length_take_of_le h]
    rw [patch, ← List.drop_drop, ← hfront, List.drop_left, hfront, List.drop_drop]
  rw [patch, patch_take h, hrest, patch, List.length_append, List.append_assoc (b.take off), Nat.add_assoc]

/-- A write in two pieces is one write. -/
lemma written_append (file : Bytes) (off : Nat) (as bs : Bytes) :
    written (written file off as) (off + as.length) bs = written file off (as ++ bs) := by
  by_cases has : as = []
  · simp [written, has]
  by_cases hbs : bs = []
  · simp [written, hbs]
  have hpad : off ≤ (padded off file).length := by
    rw [padded, List.length_append, List.length_replicate]
    omega
  have hlen : off + as.length - (patch (padded off file) off as).length = 0 := by
    rw [patch, List.length_append, List.length_append, List.length_take_of_le hpad]
    omega
  rw [written, if_neg hbs, written, if_neg has, written, if_neg (by simp [has]), ← patch_append hpad]
  congr 1
  rw [padded, hlen, List.replicate_zero, List.append_nil]

lemma written_end {file : Bytes} {off : Nat} (h : file.length = off) (data : Bytes) : written file off data = file ++ data := by
  by_cases hdata : data = []
  · simp [written, hdata]
  · rw [written, if_neg hdata, padded_of_length h, patch, List.take_of_length_le (Nat.le_of_eq h),
      List.drop_eq_nil_of_le (by omega), List.append_nil]

end AfpfsNg.Base
