import AfpfsNg.Base.Bytes

/-!
# UTF-8

The sequences of one, two and three bytes, once as a syntax (`Sequence`) and once as the spelling of a number below `2 ^ 16`
(`Spells`). Surrogates are numbers like others here. `Spelled` is a string of such sequences with the numbers it stands for.
`Characters` are strings that may have characters of four bytes, too.
-/

namespace AfpfsNg.Base

/-- A byte that continues a sequence. -/
def Tail (c : UInt8) : Prop := 0x80 ≤ c.toNat ∧ c.toNat ≤ 0xbf

/-- A sequence of up to three bytes, no longer than it has to be, and not the terminator. -/
inductive Sequence : Bytes → Prop
  | one {c : UInt8} (hpos : 0 < c.toNat) (hc : c.toNat ≤ 0x7f) : Sequence [c]
  | two {c d : UInt8} (hlow : 0xc2 ≤ c.toNat) (hhigh : c.toNat ≤ 0xdf) (hd : Tail d) : Sequence [c, d]
  | three {c d e : UInt8} (hlow : 0xe0 ≤ c.toNat) (hhigh : c.toNat ≤ 0xef) (hd : Tail d) (he : Tail e)
      (hshort : c.toNat = 0xe0 → 0xa0 ≤ d.toNat) : Sequence [c, d, e]

inductive Sequences : Bytes → Prop
  | nil : Sequences []
  | cons {c rest : Bytes} (hc : Sequence c) (hrest : Sequences rest) : Sequences (c ++ rest)

/-- A character: a sequence, four bytes, or the terminator. -/
inductive Character : Bytes → Prop
  | nul : Character [0]
  | sequence {c : Bytes} (hc : Sequence c) : Character c
  | four {c d e f : UInt8} (hlow : 0xf0 ≤ c.toNat) (hhigh : c.toNat ≤ 0xf4) (hd : Tail d) (he : Tail e) (hf : Tail f) :
      Character [c, d, e, f]

inductive Characters : Bytes → Prop
  | nil : Characters []
  | cons {c rest : Bytes} (hc : Character c) (hrest : Characters rest) : Characters (c ++ rest)

/-- The sequence that stands for a number. -/
inductive Spells : Nat → Bytes → Prop
  | one {n : Nat} (hpos : 0 < n) (hn : n < 0x80) : Spells n [.ofNat n]
  | two {n : Nat} (hlow : 0x80 ≤ n) (hhigh : n < 0x800) : Spells n [.ofNat (0xc0 + n / 64), .ofNat (0x80 + n % 64)]
  | three {n : Nat} (hlow : 0x800 ≤ n) (hhigh : n < 0x10000) :
      Spells n [.ofNat (0xe0 + n / 4096), .ofNat (0x80 + n / 64 % 64), .ofNat (0x80 + n % 64)]

/-- The string that stands for numbers. -/
inductive Spelled : List Nat → Bytes → Prop
  | nil : Spelled [] []
  | cons {n : Nat} {ns : List Nat} {c rest : Bytes} (hc : Spells n c) (hrest : Spelled ns rest) :
      Spelled (n :: ns) (c ++ rest)

lemma Character.tails {d : UInt8} {u : Bytes} (h : Character (d :: u)) : ∀ x ∈ u, Tail x := by
  cases h with
  | nul => nofun
  | sequence h =>
    cases h with
    | one => nofun
    | two _ _ hd => exact List.forall_mem_singleton.mpr hd
    | three _ _ hd he _ => exact List.forall_mem_cons.mpr ⟨hd, List.forall_mem_singleton.mpr he⟩
  | four _ _ hd he hf =>
    exact List.forall_mem_cons.mpr ⟨hd, List.forall_mem_cons.mpr ⟨he, List.forall_mem_singleton.mpr hf⟩⟩

lemma toNat_ofNat_of_lt {n : Nat} (h : n < 256) : (UInt8.ofNat n).toNat = n := by
  rw [UInt8.toNat_ofNat']
  exact Nat.mod_eq_of_lt h

lemma ofNat_eq_of_toNat_eq {n : Nat} {c : UInt8} (h : n = c.toNat) : UInt8.ofNat n = c := by
  rw [h, UInt8.ofNat_toNat]

lemma Sequence.spells {c : Bytes} (h : Sequence c) : ∃ n, Spells n c := by
  cases h with
  | @one c hpos hc =>
    refine ⟨c.toNat, ?_⟩
    have hs := Spells.one hpos (Nat.lt_succ_of_le hc)
    rwa [UInt8.ofNat_toNat] at hs
  | @two c d hlow hhigh hd =>
    obtain ⟨x, hx⟩ := Nat.exists_eq_add_of_le hlow
    obtain ⟨y, hy⟩ := Nat.exists_eq_add_of_le hd.1
    have hd' := hd.2
    have hc : UInt8.ofNat (0xc0 + ((2 + x) * 64 + y) / 64) = c := ofNat_eq_of_toNat_eq (by omega)
    have hd : UInt8.ofNat (0x80 + ((2 + x) * 64 + y) % 64) = d := ofNat_eq_of_toNat_eq (by omega)
    refine ⟨(2 + x) * 64 + y, ?_⟩
    rw [← hc, ← hd]
    exact .two (by omega) (by omega)
  | @three c d e hlow hhigh hd he hshort =>
    obtain ⟨x, hx⟩ := Nat.exists_eq_add_of_le hlow
    obtain ⟨y, hy⟩ := Nat.exists_eq_add_of_le hd.1
    obtain ⟨z, hz⟩ := Nat.exists_eq_add_of_le he.1
    have hd' := hd.2
    have he' := he.2
    have hfirst : 0x800 ≤ x * 4096 + y * 64 := by
      by_cases h : x = 0
      · have := hshort (by omega)
        omega
      · omega
    have hc : UInt8.ofNat (0xe0 + (x * 4096 + y * 64 + z) / 4096) = c := ofNat_eq_of_toNat_eq (by omega)
    have hd : UInt8.ofNat (0x80 + (x * 4096 + y * 64 + z) / 64 % 64) = d := ofNat_eq_of_toNat_eq (by omega)
    have he : UInt8.ofNat (0x80 + (x * 4096 + y * 64 + z) % 64) = e := ofNat_eq_of_toNat_eq (by omega)
    refine ⟨x * 4096 + y * 64 + z, ?_⟩
    rw [← hc, ← hd, ← he]
    exact .three (Nat.le_trans hfirst (Nat.le_add_right ..)) (by omega)

lemma exists_spelled {s : Bytes} (h : Sequences s) : ∃ ns, Spelled ns s := by
  induction h with
  | nil => exact ⟨[], .nil⟩
  | cons hc _ ih =>
    obtain ⟨n, hn⟩ := hc.spells
    obtain ⟨ns, hns⟩ := ih
    exact ⟨n :: ns, .cons hn hns⟩

lemma Spells.unique {n : Nat} {c d : Bytes} (hc : Spells n c) (hd : Spells n d) : c = d := by
  cases hc with
  | one hpos hn =>
    cases hd with
    | one => rfl
    | two hlow _ => omega
    | three hlow _ => omega
  | two hlow hhigh =>
    cases hd with
    | one _ hn => omega
    | two => rfl
    | three hlow' _ => omega
  | three hlow hhigh =>
    cases hd with
    | one _ hn => omega
    | two _ hhigh' => omega
    | three => rfl

lemma Spelled.unique {ns : List Nat} {s t : Bytes} (hs : Spelled ns s) (ht : Spelled ns t) : s = t := by
  induction hs generalizing t with
  | nil =>
    cases ht
    rfl
  | cons hc _ ih =>
    cases ht with
    | cons hd hrest => rw [hc.unique hd, ih hrest]

lemma Spelled.append {ms ns : List Nat} {s t : Bytes} (hs : Spelled ms s) (ht : Spelled ns t) :
    Spelled (ms ++ ns) (s ++ t) := by
  induction hs with
  | nil => exact ht
  | cons hc _ ih =>
    rw [List.append_assoc]
    exact .cons hc ih

lemma Spelled.bounds {ns : List Nat} {s : Bytes} (h : Spelled ns s) : ∀ n ∈ ns, 0 < n ∧ n < 0x10000 := by
  induction h with
  | nil => exact List.forall_mem_nil _
  | cons hc _ ih =>
    intro m hm
    cases hm with
    | head =>
      cases hc with
      | one hpos hn => omega
      | two hlow hhigh => omega
      | three hlow hhigh => omega
    | tail _ hm => exact ih m hm

end AfpfsNg.Base
