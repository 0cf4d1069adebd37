import Mathlib.Tactic.Common
import Mathlib.Data.List.Basic
import Mathlib.Data.List.Induction
import Mathlib.Algebra.GroupWithZero.Nat
import Mathlib.Algebra.Ring.Int.Defs

/-!
# Byte strings

What a C program does to a block of memory it owns, with a block modelled as the list of its bytes: reading a range
(`slice`), writing a range (`patch`), and reading and writing a big-endian number (`beNat`, `beBytes`). `fetch` and `put` are
reads and writes of a range that the block may not have. `patch` is total; the caller that models a `memcpy` or a `read`
compares the range with the length of the block first.
-/

namespace AfpfsNg.Base

/-- A block of memory or a byte string. -/
abbrev Bytes := List UInt8

/-- The `len` bytes from offset `off` on. -/
def slice (b : Bytes) (off len : Nat) : Bytes :=
  (b.drop off).take len

/-- The block `b` with the bytes from offset `off` on replaced by `bs`. -/
def patch (b : Bytes) (off : Nat) (bs : Bytes) : Bytes :=
  b.take off ++ bs ++ b.drop (off + bs.length)

/-- The value of a byte string read as a big-endian number (`ntohs`, `ntohl`). -/
def beNat (bs : Bytes) : Nat :=
  bs.foldl (fun a b => 256 * a + b.toNat) 0

/-- As much of `v` as fits `n` bytes, as a big-endian number (`htons`, `htonl`). -/
def beBytes : Nat → Nat → Bytes
  | 0, _ => []
  | n + 1, v => beBytes n (v / 256) ++ [UInt8.ofNat v]

/-- The `len` bytes from offset `off` on, if the block reaches that far. -/
def fetch (b : Bytes) (off len : Nat) : Option Bytes :=
  if off + len ≤ b.length then some (slice b off len) else none

/-- The block with `bs` written at `off`, if the block reaches that far. -/
def put (b : Bytes) (off : Nat) (bs : Bytes) : Option Bytes :=
  if off + bs.length ≤ b.length then some (patch b off bs) else none

/-- The two's complement reading of a 32-bit value (the C conversion to `int`). -/
def int32 (n : Nat) : Int :=
  if n < 2 ^ 31 then n else n - 2 ^ 32

/-- A C subtraction whose result is kept in an `unsigned int`, for operands below `2 ^ 33`. -/
def sub32 (a b : Nat) : Nat :=
  if b ≤ a then (a - b) % 2 ^ 32 else (2 ^ 33 - (b - a)) % 2 ^ 32

lemma forall_byte {P : UInt8 → Prop} (h : ∀ n < 256, P (.ofNat n)) (c : UInt8) : P c := by
  have hc := h c.toNat c.toNat_lt
  rwa [UInt8.ofNat_toNat] at hc

lemma sub32_of_le {a b} (h : b ≤ a) (ha : a < 2 ^ 32) : sub32 a b = a - b := by
  rw [sub32, if_pos h]
  omega

lemma slice_length {b off len} (h : off + len ≤ b.length) : (slice b off len).length = len := by
  simp only [slice, List.length_take, List.length_drop]
  omega

lemma slice_take {b off len n} (h : off + len ≤ n) : slice (b.take n) off len = slice b off len := by
  simp only [slice, List.drop_take, List.take_take]
  congr 1
  omega

lemma patch_length {b off bs} (h : off + bs.length ≤ b.length) :
    (patch b off bs).length = b.length := by
  simp only [patch, List.length_append, List.length_take, List.length_drop]
  omega

lemma patch_take {b off bs} (h : off ≤ b.length) :
    (patch b off bs).take (off + bs.length) = b.take off ++ bs := by
  have hl : (b.take off ++ bs).length = off + bs.length := by
    simp only [List.length_append, List.length_take]
    omega
  rw [patch, ← hl, List.take_left]

lemma patch_take_before {b off bs n} (h : n ≤ off) (hb : off ≤ b.length) :
    (patch b off bs).take n = b.take n := by
  have hn : n ≤ (b.take off).length := by
    simp only [List.length_take]
    omega
  rw [patch, List.append_assoc, List.take_append_of_le_length hn, List.take_take]
  congr 1
  omega

variable {b bs : Bytes} {off len : Nat}

lemma patch_patch {got : Bytes} : patch (patch b 0 got) got.length bs = patch b 0 (got ++ bs) := by
  simp only [patch, List.take_zero, List.nil_append, Nat.zero_add, List.take_left, List.length_append,
    List.append_assoc]
  rw [List.drop_append, List.drop_of_length_le (Nat.le_add_right ..), Nat.add_sub_cancel_left,
    List.drop_drop, List.nil_append]

lemma slice_append (b : Bytes) (off m n : Nat) :
    slice b off m ++ slice b (off + m) n = slice b off (m + n) := by
  rw [slice, slice, slice, List.take_add, List.drop_drop]

lemma slice_mid (a bs c : Bytes) (hoff : a.length = off) (hlen : bs.length = len) :
    slice (a ++ (bs ++ c)) off len = bs := by
  subst hoff hlen
  rw [slice, List.drop_left, List.take_left]

lemma slice_patch_self (h : off ≤ b.length) : slice (patch b off bs) off bs.length = bs := by
  rw [patch, List.append_assoc]
  exact slice_mid _ _ _ (List.length_take_of_le h) rfl

lemma patch_eq_patch_iff {a : Bytes} (ha : off ≤ a.length) (hb : off ≤ b.length) :
    patch a off bs = patch b off bs ↔
      a.take off = b.take off ∧ a.drop (off + bs.length) = b.drop (off + bs.length) := by
  have hlength : (a.take off).length = (b.take off).length := by
    rw [List.length_take_of_le ha, List.length_take_of_le hb]
  rw [patch, patch, List.append_assoc, List.append_assoc]
  constructor
  · intro h
    obtain ⟨hfront, hrest⟩ := List.append_inj h hlength
    exact ⟨hfront, List.append_cancel_left hrest⟩
  · rintro ⟨hfront, hrest⟩
    rw [hfront, hrest]

lemma length_slice (b : Bytes) (off len : Nat) : (slice b off len).length = min len (b.length - off) := by
  rw [slice, List.length_take, List.length_drop]

lemma beNat_lt (bs : Bytes) : beNat bs < 256 ^ bs.length := by
  induction bs using List.reverseRecOn with
  | nil => simp [beNat]
  | append_singleton bs b ih =>
    have hb : b.toNat < 256 := b.toNat_lt
    simp only [beNat, List.foldl_append, List.foldl_cons, List.foldl_nil, List.length_append,
      List.length_cons, List.length_nil] at ih ⊢
    rw [Nat.pow_succ]
    omega

@[simp] lemma length_beBytes (n v : Nat) : (beBytes n v).length = n := by
  induction n generalizing v with
  | zero => rfl
  | succ n ih => rw [beBytes, List.length_append, ih, List.length_singleton]

lemma beNat_append_singleton (bs : Bytes) (x : UInt8) : beNat (bs ++ [x]) = 256 * beNat bs + x.toNat :=
  List.foldl_append

lemma beNat_beBytes (n v : Nat) : beNat (beBytes n v) = v % 256 ^ n := by
  induction n generalizing v with
  | zero => rw [Nat.pow_zero, Nat.mod_one]; rfl
  | succ n ih =>
    have hlast : (UInt8.ofNat v).toNat = v % 256 := UInt8.toNat_ofNat'
    rw [beBytes, beNat_append_singleton, ih, hlast, Nat.pow_succ', Nat.mod_mul, Nat.add_comm]

lemma beNat_beBytes_of_lt {w n : Nat} (h : n < 256 ^ w) : beNat (beBytes w n) = n := by
  rw [beNat_beBytes, Nat.mod_eq_of_lt h]

lemma fetch_of_le (h : off + len ≤ b.length) :
    fetch b off len = some (slice b off len) := if_pos h

lemma fetch_eq_some (h : fetch b off len = some bs) : off + len ≤ b.length ∧ slice b off len = bs := by
  by_cases hle : off + len ≤ b.length
  · exact ⟨hle, Option.some.inj ((fetch_of_le hle).symm.trans h)⟩
  · rw [fetch, if_neg hle] at h
    cases h

lemma fetch_append_right (c : Bytes) (h : fetch b off len = some bs) : fetch (b ++ c) off len = some bs := by
  obtain ⟨hle, hs⟩ := fetch_eq_some h
  have htake : slice (b ++ c) off len = slice b off len := by
    rw [← slice_take hle, List.take_left]
  rw [fetch_of_le (by rw [List.length_append]; omega), htake, hs]

lemma fetch_mid (a bs c : Bytes) : fetch (a ++ (bs ++ c)) a.length bs.length = some bs := by
  rw [fetch_of_le (by simp only [List.length_append]; omega), slice_mid a bs c rfl rfl]

def Stands (b : Bytes) (off : Nat) (s : Bytes) : Prop := fetch b off s.length = some s

instance (b : Bytes) (off : Nat) (s : Bytes) : Decidable (Stands b off s) := inferInstanceAs (Decidable (_ = _))

section Stands
variable {a b s t : Bytes} {off : Nat}

lemma stands_mid (a s c : Bytes) : Stands (a ++ (s ++ c)) a.length s := fetch_mid a s c

lemma Stands.le (h : Stands b off s) : off + s.length ≤ b.length := (fetch_eq_some h).1

lemma Stands.not_lt (h : Stands b off s) : ¬ b.length < off :=
  Nat.not_lt.mpr (Nat.le_trans (Nat.le_add_right ..) h.le)

lemma Stands.shift (h : Stands b off s) (a : Bytes) : Stands (a ++ b) (a.length + off) s := by
  obtain ⟨hle, hs⟩ := fetch_eq_some h
  have hslice : slice (a ++ b) (a.length + off) s.length = slice b off s.length := by
    rw [slice, List.drop_length_add_append, slice]
  rw [Stands, fetch_of_le (by rw [List.length_append]; omega), hslice, hs]

lemma Stands.left (h : Stands b off (s ++ t)) : Stands b off s := by
  obtain ⟨hle, hs⟩ := fetch_eq_some h
  rw [List.length_append] at hle hs
  have hleft : slice b off s.length = s := by
    rw [← slice_append] at hs
    exact (List.append_inj hs (slice_length (by omega))).1
  rw [Stands, fetch_of_le (by omega), hleft]

lemma Stands.right (h : Stands b off (s ++ t)) : Stands b (off + s.length) t := by
  obtain ⟨hle, hs⟩ := fetch_eq_some h
  rw [List.length_append] at hle hs
  have hright : slice b (off + s.length) t.length = t := by
    rw [← slice_append] at hs
    exact (List.append_inj hs (slice_length (by omega))).2
  rw [Stands, fetch_of_le (by omega), hright]

lemma Stands.take (h : Stands b off s) (n : Nat) : fetch b off (min n s.length) = some (s.take n) := by
  rw [← List.take_append_drop n s] at h
  rw [← List.length_take]
  exact h.left

end Stands

lemma put_eq_some {b' : Bytes} (h : put b off bs = some b') : off + bs.length ≤ b.length ∧ patch b off bs = b' := by
  by_cases hle : off + bs.length ≤ b.length
  · rw [put, if_pos hle] at h
    exact ⟨hle, Option.some.inj h⟩
  · rw [put, if_neg hle] at h
    cases h

lemma put_append (pre : Bytes) (hoff : pre.length = off) (h : bs.length ≤ b.length) :
    put (pre ++ b) off bs = some (pre ++ (bs ++ b.drop bs.length)) := by
  subst hoff
  have hdrop : (pre ++ b).drop (pre.length + bs.length) = b.drop bs.length := by
    rw [List.drop_append, List.drop_of_length_le (Nat.le_add_right ..), Nat.add_sub_cancel_left,
      List.nil_append]
  rw [put, if_pos (by rw [List.length_append]; omega), patch, List.take_left, hdrop, List.append_assoc]

end AfpfsNg.Base
