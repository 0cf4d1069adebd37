import AfpfsNg.Base.Arrays
import Mathlib.Data.String.Basic

/-!
# Texts that are printed piece by piece

A program fills a buffer with a series of calls `pos += snprintf(buffer + pos, size - pos, ..)`. A call returns the length of
the whole text, also when it was cut, so the position can get behind the end of the buffer. What is left is an `int` then that
is negative, and as a `size_t` it is no limit at all. The pieces are given as they are formatted.
-/

namespace AfpfsNg.Base

def ascii (s : String) : Bytes := s.toList.map fun c => UInt8.ofNat c.toNat

def digits (base n : Nat) : Bytes := (base.toDigits n).map fun c => UInt8.ofNat c.toNat

/-- `%u` and `%llu` -/
def decimal (n : Nat) : Bytes := digits 10 n

/-- `%d` -/
def signed (i : Int) : Bytes := if i < 0 then ascii "-" ++ decimal i.natAbs else decimal i.natAbs

/-- `%x` -/
def hex (n : Nat) : Bytes := digits 16 n

/-- A string in an array of `size` bytes. -/
structure Text (size : Nat) where
  text : Bytes
  fits : text.length < size
  nul : 0 ∉ text

@[simp]
lemma length_ascii (s : String) : (ascii s).length = s.toList.length := List.length_map ..

lemma length_ascii_le (s : String) : (ascii s).length ≤ s.utf8ByteSize := by
  have hlen : ∀ cs : List Char, cs.length ≤ String.utf8Len cs := by
    intro cs
    induction cs with
    | nil => exact Nat.le_refl 0
    | cons c cs ih =>
      have hc := c.utf8Size_pos
      rw [String.utf8Len_cons, List.length_cons]
      omega
  have hs := String.utf8ByteSize_ofList s.toList
  rw [String.ofList_toList] at hs
  rw [ascii, List.length_map, hs]
  exact hlen s.toList

lemma length_decimal_le {n k : Nat} (hk : 0 < k) (h : n < 10 ^ k) : (decimal n).length ≤ k := by
  rw [decimal, digits, List.length_map]
  exact (Nat.length_toDigits_le_iff (by decide) hk).2 h

lemma length_hex_le {n k : Nat} (hk : 0 < k) (h : n < 16 ^ k) : (hex n).length ≤ k := by
  rw [hex, digits, List.length_map]
  exact (Nat.length_toDigits_le_iff (by decide) hk).2 h

lemma length_signed_le {i : Int} {k : Nat} (hk : 0 < k) (h : i.natAbs < 10 ^ k) : (signed i).length ≤ k + 1 := by
  have hdecimal := length_decimal_le hk h
  rw [signed]
  split
  · rw [List.length_append, Nat.add_comm]
    exact Nat.add_le_add_right hdecimal 1
  · exact Nat.le_succ_of_le hdecimal

lemma length_decimal_uint16 (x : UInt16) : (decimal x.toNat).length ≤ 5 :=
  length_decimal_le (by decide) (Nat.lt_trans x.toNat_lt (by decide))

lemma length_decimal_uint32 (x : UInt32) : (decimal x.toNat).length ≤ 10 :=
  length_decimal_le (by decide) (Nat.lt_trans x.toNat_lt (by decide))

lemma length_decimal_uint64 (x : UInt64) : (decimal x.toNat).length ≤ 20 :=
  length_decimal_le (by decide) (Nat.lt_trans x.toNat_lt (by decide))

variable {n : Nat}

/-- C `snprintf` to the place `off` of a block, with the text as it is formatted. -/
def snprintf (b : Block n) (off : Int) (size : Nat) (s : Bytes) : Option (Block n) :=
  if size = 0 then some b
  else if off < 0 then none
  else b.put off.toNat (s.take (size - 1) ++ [0])

def sizeT (i : Int) : Nat := (i % 2 ^ 64).toNat

/-- `pos += snprintf(b + pos, n - pos, ..)`, with an `int` for the position. -/
def printNext : Block n × Int → Bytes → Option (Block n × Int)
  | (b, pos), s => (snprintf b pos (sizeT ((n - pos).bmod (2 ^ 32))) s).map fun b => (b, (pos + s.length).bmod (2 ^ 32))

def prints (b : Block n) (pieces : List Bytes) : Option (Block n × Int) := pieces.foldlM printNext (b, 0)

section
variable {b : Block n} {s : Bytes} {pos : Nat}

lemma printNext_inside (b : Block n) (s : Bytes) (hn : n < 2 ^ 31) (hpos : pos ≤ n) :
    ∃ b', printNext (b, (pos : Int)) s = some (b', ((pos + s.length : Nat) : Int).bmod (2 ^ 32)) := by
  have hleft : sizeT (((n : Int) - pos).bmod (2 ^ 32)) = n - pos := by
    rw [sizeT, Int.bmod_eq_of_le (by omega) (by omega)]
    omega
  rw [printNext, hleft, snprintf, Int.natCast_add]
  by_cases hend : n - pos = 0
  · rw [if_pos hend]
    exact ⟨b, rfl⟩
  · have hfits : pos + (s.take (n - pos - 1) ++ [0]).length ≤ n := by
      rw [List.length_append, List.length_take, List.length_singleton]
      omega
    obtain ⟨b', hb'⟩ := b.put_of_le pos _ hfits
    rw [if_neg hend, if_neg (by omega), Int.toNat_natCast, hb']
    exact ⟨b', rfl⟩

lemma printNext_outside (b : Block n) (s : Bytes) (hn : n < 2 ^ 31) (hpos : n < pos) (hlast : pos < n + 2 ^ 31) :
    printNext (b, (pos : Int).bmod (2 ^ 32)) s = none := by
  have hleft : sizeT (((n : Int) - (pos : Int).bmod (2 ^ 32)).bmod (2 ^ 32)) ≠ 0 := by
    have hnegative : ((n : Int) - pos).bmod (2 ^ 32) = n - pos := Int.bmod_eq_of_le (by omega) (by omega)
    rw [Int.sub_bmod_bmod, hnegative, sizeT]
    omega
  rw [printNext, snprintf, if_neg hleft]
  split
  case isTrue => rfl
  case isFalse hnonneg =>
    have hoff : n < ((pos : Int).bmod (2 ^ 32)).toNat := by
      rw [Int.bmod_def] at hnonneg ⊢
      omega
    rw [Block.put, dif_neg (by omega), Option.map_none]

lemma foldlM_printNext_isSome_iff {pieces : List Bytes} (hn : n < 2 ^ 31) (hpieces : ∀ s ∈ pieces, s.length < 2 ^ 31)
    (hpos : pos ≤ n) (b : Block n) :
    (pieces.foldlM printNext (b, (pos : Int))).isSome ↔ pos + (pieces.dropLast.map List.length).sum ≤ n := by
  induction pieces generalizing pos b with
  | nil => exact iff_of_true rfl hpos
  | cons s pieces ih =>
    rw [List.forall_mem_cons] at hpieces
    obtain ⟨b', hb'⟩ := printNext_inside b s hn hpos
    rw [List.foldlM_cons, hb', Option.bind_eq_bind, Option.bind_some]
    cases pieces with
    | nil => exact iff_of_true rfl hpos
    | cons t pieces =>
      rw [List.dropLast_cons_cons, List.map_cons, List.sum_cons, ← Nat.add_assoc]
      by_cases hnext : pos + s.length ≤ n
      · rw [Int.bmod_eq_of_le (by omega) (by omega)]
        exact ih hpieces.2 hnext b'
      · have hs := hpieces.1
        rw [List.foldlM_cons, printNext_outside b' t hn (by omega) (by omega)]
        exact iff_of_false Bool.false_ne_true (by omega)

lemma prints_isSome_iff {pieces : List Bytes} (hn : n < 2 ^ 31) (hpieces : ∀ s ∈ pieces, s.length < 2 ^ 31) (b : Block n) :
    (prints b pieces).isSome ↔ (pieces.dropLast.map List.length).sum ≤ n := by
  rw [prints]
  have hiff := foldlM_printNext_isSome_iff hn hpieces (Nat.zero_le n) b
  rwa [Nat.zero_add] at hiff

end

section
variable {α : Type*} {off : α → Nat} {text : α → Bytes}

lemma foldlM_put_isSome_iff (l : List α) (b : Block n) :
    (l.foldlM (fun (b : Block n) x => b.put (off x) (text x)) b).isSome ↔ ∀ x ∈ l, off x + (text x).length ≤ n := by
  induction l generalizing b with
  | nil => exact iff_of_true rfl nofun
  | cons x l ih =>
    rw [List.foldlM_cons, List.forall_mem_cons]
    by_cases hx : off x + (text x).length ≤ n
    · obtain ⟨b', hb'⟩ := b.put_of_le _ _ hx
      rw [hb', Option.bind_eq_bind, Option.bind_some, ih, and_iff_right hx]
    · rw [Block.put, dif_neg hx]
      exact iff_of_false Bool.false_ne_true fun h => hx h.1

end

end AfpfsNg.Base
