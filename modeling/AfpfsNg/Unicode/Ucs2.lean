import AfpfsNg.Base.Utf8

/-!
# UTF-8 and UCS-2

The conversions of `lib/unicode.c` between strings of UTF-8 and strings of 16-bit units. `p` moves through a string by
the length that the first byte of a character announces. There is no result for a read behind the terminator, and for a write
behind the memory that `UTF8toUCS2` allocates. A string is the list of its bytes or units, without the terminator. The last
loop of `UTF8toUCS2` never runs: it swaps bytes if the variable `testINTEL`, which is 0, is not 0.
-/

namespace AfpfsNg.Unicode
open AfpfsNg.Base

/-- The loop of `mbCharLen`: how many of the bits from `i - 1` down are set before one is not. -/
def countBits (c : Nat) : Nat → Nat
  | 0 => 0
  | i + 1 => if c &&& 2 ^ i ≠ 0 then countBits c i + 1 else 0

/-- The length of a character by its first byte, 0 for the terminator and for a byte inside a character
(C `mbCharLen`). -/
def mbCharLen (c : Nat) : Nat :=
  if c ≠ 0 then
    match countBits c 8 with
    | 0 => 1
    | 1 => 0
    | count => count
  else 0

/-- The loop of `mbStrLen`, with so many bytes to go to the next character. -/
def mbStrLenFrom : Nat → Bytes → Option Nat
  | 0, [] => some 0
  | _ + 1, [] => none
  | skip + 1, _ :: p => mbStrLenFrom skip p
  | 0, c :: p =>
    match mbCharLen c.toNat with
    | 0 => some 0
    | clen + 1 => (mbStrLenFrom clen p).map (· + 1)

def mbStrLen (str : Bytes) : Option Nat := mbStrLenFrom 0 str

def storedUnit (clen : Nat) (p : Bytes) : UInt16 :=
  let p (i : Nat) : Nat := (p.getD i 0).toNat
  match clen with
  | 1 => .ofNat (p 0)
  | 2 =>
    let c16 := (p 1 &&& 0x3f) + ((p 0 &&& 0x1f) <<< 6)
    -- `'*'` for what is not UTF-8
    if 0x7f < c16 ∧ p 1 &&& 0xC0 = 0x80 then .ofNat c16 else 42
  | 3 =>
    let c16 := (p 2 &&& 0x3f) + ((p 1 &&& 0x3f) <<< 6) + ((p 0 &&& 0xf) <<< 12)
    if 0x7ff < c16 ∧ p 1 &&& 0xC0 = 0x80 ∧ p 2 &&& 0xC0 = 0x80 then .ofNat c16 else 42
  -- `'~'` for what has more than 16 bits
  | _ => 126

/-- The loop of `UTF8toUCS2` with room for `room` units, of which `str16` are written. -/
def utf8toUcs2From (room : Nat) : Nat → List UInt16 → Bytes → Option (List UInt16)
  | 0, str16, [] => if str16.length < room then some str16 else none
  | _ + 1, _, [] => none
  | skip + 1, str16, _ :: p => utf8toUcs2From room skip str16 p
  | 0, str16, c :: p =>
    if str16.length < room then
      match mbCharLen c.toNat with
      | 0 => some str16
      | clen + 1 => utf8toUcs2From room clen (str16 ++ [storedUnit (clen + 1) (c :: p)]) p
    else none

def utf8toUcs2 (str : Bytes) : Option (List UInt16) := do
  let cInString ← mbStrLen str
  utf8toUcs2From (cInString + 1) 0 [] str

/-- What `UCS2toUTF8` writes for a unit, whose bytes in memory are `p 0` and `p 1`. -/
def writtenBytes (c : UInt16) : Bytes :=
  let p (i : Nat) : Nat := if i = 0 then c.toNat % 256 else c.toNat / 256
  if c < 0x0080 then [.ofNat (p 0)]
  else if c < 0x0800 then
    [.ofNat (0xc0 ||| ((p 1 &&& 0x7) <<< 2) ||| ((p 0 &&& 0xc0) >>> 6)), .ofNat (0x80 ||| (p 0 &&& 0x3f))]
  else
    [.ofNat (0xe0 ||| ((p 1 &&& 0xf0) >>> 4)),
      .ofNat (0x80 ||| ((p 1 &&& 0xf) <<< 2) ||| ((p 0 &&& 0xc0) >>> 6)),
      .ofNat (0x80 ||| (p 0 &&& 0x3f))]

def ucs2toUtf8 : List UInt16 → Bytes
  | [] => []
  | c :: str16 => if 0 < c then writtenBytes c ++ ucs2toUtf8 str16 else []

lemma and_shiftRight (n i j : Nat) : (n &&& (2 ^ j - 1) <<< i) >>> i = n / 2 ^ i % 2 ^ j := by
  rw [Nat.shiftRight_and_distrib, Nat.shiftLeft_shiftRight, Nat.and_two_pow_sub_one_eq_mod, Nat.shiftRight_eq_div_pow]

lemma or_low {b i : Nat} (a : Nat) (h : b < 2 ^ i) : 2 ^ i * a ||| b = 2 ^ i * a + b :=
  (Nat.two_pow_add_eq_or_of_lt h a).symm

lemma last_byte (n : Nat) : 0x80 ||| (n % 256 &&& 0x3f) = 0x80 + n % 64 := by
  have hlow : n % 256 &&& 0x3f = n % 256 % 64 := Nat.and_two_pow_sub_one_eq_mod _ 6
  have hor : 0x80 ||| n % 256 % 64 = 0x80 + n % 256 % 64 := or_low (i := 7) 1 (by omega)
  rw [hlow, hor]
  omega

lemma middle_byte (n m j : Nat) :
    2 ^ (j + 2) * m ||| (n / 256 &&& (2 ^ j - 1)) <<< 2 ||| (n % 256 &&& 0xc0) >>> 6 =
      2 ^ (j + 2) * m + n / 64 % 2 ^ (j + 2) := by
  have hlow : (n % 256 &&& 0xc0) >>> 6 = n % 256 / 64 % 4 := and_shiftRight _ 6 2
  have hsplit : n / 64 % 2 ^ (j + 2) = 2 ^ 2 * (n / 256 % 2 ^ j) + n % 256 / 64 % 4 := by
    have hdiv : n / 64 / 2 ^ 2 = n / 256 := Nat.div_div_eq_div_mul ..
    rw [Nat.add_comm j 2, Nat.pow_add, Nat.mod_mul, hdiv]
    omega
  have htwo : n % 256 / 64 % 4 < 2 ^ 2 := Nat.mod_lt _ (by decide)
  rw [hlow, Nat.and_two_pow_sub_one_eq_mod, Nat.shiftLeft_eq, Nat.mul_comm _ (2 ^ 2), Nat.or_assoc, or_low _ htwo, ← hsplit,
    or_low _ (Nat.mod_lt _ (Nat.two_pow_pos _))]

variable {n x : Nat} {s : Bytes} {ns : List Nat}

lemma first_byte (hn : n < 0x10000) : 0xe0 ||| (n / 256 &&& 0xf0) >>> 4 = 0xe0 + n / 4096 := by
  have hhigh : (n / 256 &&& 0xf0) >>> 4 = n / 256 / 16 % 16 := and_shiftRight _ 4 4
  have hor : 0xe0 ||| n / 256 / 16 % 16 = 0xe0 + n / 256 / 16 % 16 := or_low (i := 4) 14 (by omega)
  rw [hhigh, hor]
  omega

lemma writtenBytes_spells {c : UInt16} (hc : 0 < c) : Spells c.toNat (writtenBytes c) := by
  have hpos : 0 < c.toNat := UInt16.lt_iff_toNat_lt.mp hc
  have hlt : c.toNat < 0x10000 := c.toNat_lt
  by_cases h1 : c < 0x0080
  · have hn : c.toNat < 0x80 := UInt16.lt_iff_toNat_lt.mp h1
    have hwritten : writtenBytes c = [.ofNat (c.toNat % 256)] := if_pos h1
    rw [hwritten, Nat.mod_eq_of_lt (by omega)]
    exact .one hpos hn
  · have hlow : 0x80 ≤ c.toNat := Nat.not_lt.mp fun h => h1 (UInt16.lt_iff_toNat_lt.mpr h)
    by_cases h2 : c < 0x0800
    · have hhigh : c.toNat < 0x800 := UInt16.lt_iff_toNat_lt.mp h2
      have hwritten : writtenBytes c = [.ofNat (0xc0 ||| (c.toNat / 256 &&& 0x7) <<< 2 |||
          (c.toNat % 256 &&& 0xc0) >>> 6), .ofNat (0x80 ||| (c.toNat % 256 &&& 0x3f))] :=
        (if_neg h1).trans (if_pos h2)
      have hfirst : 0xc0 ||| (c.toNat / 256 &&& 0x7) <<< 2 ||| (c.toNat % 256 &&& 0xc0) >>> 6 =
          0xc0 + c.toNat / 64 % 32 := middle_byte c.toNat 6 3
      rw [hwritten, hfirst, last_byte, Nat.mod_eq_of_lt (by omega : c.toNat / 64 < 32)]
      exact .two hlow hhigh
    · have hlow' : 0x800 ≤ c.toNat := Nat.not_lt.mp fun h => h2 (UInt16.lt_iff_toNat_lt.mpr h)
      have hwritten : writtenBytes c = [.ofNat (0xe0 ||| (c.toNat / 256 &&& 0xf0) >>> 4),
          .ofNat (0x80 ||| (c.toNat / 256 &&& 0xf) <<< 2 ||| (c.toNat % 256 &&& 0xc0) >>> 6),
          .ofNat (0x80 ||| (c.toNat % 256 &&& 0x3f))] :=
        (if_neg h1).trans (if_neg h2)
      have hmiddle : 0x80 ||| (c.toNat / 256 &&& 0xf) <<< 2 ||| (c.toNat % 256 &&& 0xc0) >>> 6 =
          0x80 + c.toNat / 64 % 64 := middle_byte c.toNat 2 4
      rw [hwritten, first_byte hlt, hmiddle, last_byte]
      exact .three hlow' hlt

lemma mbCharLen_one : ∀ c < 0x80, 0 < c → mbCharLen c = 1 := by decide

lemma mbCharLen_two : ∀ x < 0x20, mbCharLen (0xc0 + x) = 2 := by decide

lemma mbCharLen_three : ∀ x < 0x10, mbCharLen (0xe0 + x) = 3 := by decide

lemma tail_mark : ∀ x < 64, 0x80 + x &&& 0xC0 = 0x80 := by decide

lemma bits_below {a : Nat} (i : Nat) (hx : x < 2 ^ i) : 2 ^ i * a + x &&& (2 ^ i - 1) = x := by
  rw [Nat.and_two_pow_sub_one_eq_mod, Nat.mul_add_mod, Nat.mod_eq_of_lt hx]

lemma storedUnit_two {y : Nat} (hx : x < 32) (hy : y < 64) (hlong : 0x7f < x * 64 + y) (rest : Bytes) :
    storedUnit 2 (.ofNat (0xc0 + x) :: .ofNat (0x80 + y) :: rest) = .ofNat (x * 64 + y) := by
  have hc : (UInt8.ofNat (0xc0 + x)).toNat = 0xc0 + x := toNat_ofNat_of_lt (by omega)
  have hd : (UInt8.ofNat (0x80 + y)).toNat = 0x80 + y := toNat_ofNat_of_lt (by omega)
  have hc' : 0xc0 + x &&& 0x1f = x := bits_below (a := 6) 5 hx
  have hd' : 0x80 + y &&& 0x3f = y := bits_below (a := 2) 6 hy
  have hsum : y + x <<< 6 = x * 64 + y := by
    rw [Nat.shiftLeft_eq, Nat.add_comm]
  simp only [storedUnit, List.getD_cons_zero, List.getD_cons_succ, hc, hd, hc', hd', hsum]
  exact if_pos ⟨hlong, tail_mark y hy⟩

lemma storedUnit_three {y z : Nat} (hx : x < 16) (hy : y < 64) (hz : z < 64) (hlong : 0x7ff < x * 4096 + y * 64 + z)
    (rest : Bytes) :
    storedUnit 3 (.ofNat (0xe0 + x) :: .ofNat (0x80 + y) :: .ofNat (0x80 + z) :: rest) =
      .ofNat (x * 4096 + y * 64 + z) := by
  have hc : (UInt8.ofNat (0xe0 + x)).toNat = 0xe0 + x := toNat_ofNat_of_lt (by omega)
  have hd : (UInt8.ofNat (0x80 + y)).toNat = 0x80 + y := toNat_ofNat_of_lt (by omega)
  have he : (UInt8.ofNat (0x80 + z)).toNat = 0x80 + z := toNat_ofNat_of_lt (by omega)
  have hc' : 0xe0 + x &&& 0xf = x := bits_below (a := 14) 4 hx
  have hd' : 0x80 + y &&& 0x3f = y := bits_below (a := 2) 6 hy
  have he' : 0x80 + z &&& 0x3f = z := bits_below (a := 2) 6 hz
  have hsum : z + y <<< 6 + x <<< 12 = x * 4096 + y * 64 + z := by
    rw [Nat.shiftLeft_eq, Nat.shiftLeft_eq]
    omega
  simp only [storedUnit, List.getD_cons_zero, List.getD_cons_succ, hc, hd, he, hc', hd', he', hsum]
  exact if_pos ⟨hlong, tail_mark y hy, tail_mark z hz⟩

lemma storedUnit_spells {c : Bytes} (h : Spells n c) (rest : Bytes) : storedUnit c.length (c ++ rest) = .ofNat n := by
  cases h with
  | one hpos hn =>
    show UInt16.ofNat (UInt8.ofNat n).toNat = _
    rw [toNat_ofNat_of_lt (Nat.lt_trans hn (by decide))]
  | two hlow hhigh =>
    have hsplit : n / 64 * 64 + n % 64 = n := Nat.div_add_mod' n 64
    have hstored := storedUnit_two (x := n / 64) (y := n % 64) (by omega) (by omega) (by omega) rest
    rwa [hsplit] at hstored
  | three hlow hhigh =>
    have hsplit : n / 4096 * 4096 + n / 64 % 64 * 64 + n % 64 = n := by omega
    have hstored := storedUnit_three (x := n / 4096) (y := n / 64 % 64) (z := n % 64) (by omega) (by omega) (by omega)
      (by omega) rest
    rwa [hsplit] at hstored

lemma mbCharLen_spells (h : Spells n s) : ∃ c t, s = c :: t ∧ mbCharLen c.toNat = t.length + 1 := by
  cases h with
  | one hpos hn =>
    refine ⟨_, _, rfl, ?_⟩
    rw [toNat_ofNat_of_lt (Nat.lt_trans hn (by decide)), mbCharLen_one n hn hpos]
    rfl
  | two hlow hhigh =>
    refine ⟨_, _, rfl, ?_⟩
    rw [toNat_ofNat_of_lt (by omega), mbCharLen_two _ (by omega)]
    rfl
  | three hlow hhigh =>
    refine ⟨_, _, rfl, ?_⟩
    rw [toNat_ofNat_of_lt (by omega), mbCharLen_three _ (by omega)]
    rfl

lemma mbStrLenFrom_append (t rest : Bytes) : mbStrLenFrom t.length (t ++ rest) = mbStrLenFrom 0 rest := by
  induction t with
  | nil => rfl
  | cons c t ih => exact ih

lemma utf8toUcs2From_append (room : Nat) (str16 : List UInt16) (t rest : Bytes) :
    utf8toUcs2From room t.length str16 (t ++ rest) = utf8toUcs2From room 0 str16 rest := by
  induction t with
  | nil => rfl
  | cons c t ih => exact ih

lemma mbStrLen_spelled (h : Spelled ns s) : mbStrLen s = some ns.length := by
  induction h with
  | nil => rfl
  | @cons n ns c rest hc hrest ih =>
    obtain ⟨d, t, rfl, hlen⟩ := mbCharLen_spells hc
    rw [mbStrLen, List.cons_append, mbStrLenFrom, hlen]
    show (mbStrLenFrom t.length (t ++ rest)).map (· + 1) = _
    rw [mbStrLenFrom_append]
    exact congrArg (Option.map (· + 1)) ih

lemma utf8toUcs2From_spelled (h : Spelled ns s) {room : Nat} (str16 : List UInt16)
    (hroom : str16.length + ns.length < room) : utf8toUcs2From room 0 str16 s = some (str16 ++ ns.map .ofNat) := by
  induction h generalizing str16 with
  | nil =>
    rw [List.map_nil, List.append_nil]
    exact if_pos hroom
  | @cons n ns c rest hc hrest ih =>
    have hunit := storedUnit_spells hc rest
    obtain ⟨d, t, rfl, hlen⟩ := mbCharLen_spells hc
    rw [List.length_cons] at hroom
    rw [List.cons_append, utf8toUcs2From, if_pos (by omega), hlen]
    show utf8toUcs2From room t.length (str16 ++ [storedUnit (t.length + 1) (d :: t ++ rest)]) (t ++ rest) = _
    rw [utf8toUcs2From_append, show storedUnit (t.length + 1) (d :: t ++ rest) = .ofNat n from hunit, ih]
    · rw [List.append_assoc]
      rfl
    · rw [List.length_append, List.length_singleton]
      omega

lemma utf8toUcs2_spelled (h : Spelled ns s) : utf8toUcs2 s = some (ns.map .ofNat) := by
  rw [utf8toUcs2, mbStrLen_spelled h]
  apply utf8toUcs2From_spelled h []
  rw [List.length_nil]
  omega

lemma ucs2toUtf8_spelled {str16 : List UInt16} (h : ∀ c ∈ str16, 0 < c) :
    Spelled (str16.map UInt16.toNat) (ucs2toUtf8 str16) := by
  induction str16 with
  | nil => exact .nil
  | cons c str16 ih =>
    have hc := h c (.head _)
    rw [ucs2toUtf8, if_pos hc]
    exact .cons (writtenBytes_spells hc) (ih fun d hd => h d (.tail _ hd))

lemma toNat_map_ofNat (h : ∀ n ∈ ns, 0 < n ∧ n < 0x10000) : (ns.map UInt16.ofNat).map UInt16.toNat = ns := by
  induction ns with
  | nil => rfl
  | cons n ns ih =>
    have hn : (UInt16.ofNat n).toNat = n := by
      rw [UInt16.toNat_ofNat']
      exact Nat.mod_eq_of_lt (h n (.head _)).2
    rw [List.map_cons, List.map_cons, hn, ih fun m hm => h m (.tail _ hm)]

lemma ofNat_map_toNat (str16 : List UInt16) : (str16.map UInt16.toNat).map UInt16.ofNat = str16 := by
  induction str16 with
  | nil => rfl
  | cons c str16 ih => rw [List.map_cons, List.map_cons, UInt16.ofNat_toNat, ih]

lemma pos_of_spelled (h : Spelled ns s) : ∀ c ∈ ns.map UInt16.ofNat, 0 < c := by
  intro c hc
  obtain ⟨n, hn, rfl⟩ := List.mem_map.mp hc
  obtain ⟨hpos, hlt⟩ := h.bounds n hn
  apply UInt16.lt_iff_toNat_lt.mpr
  rw [UInt16.toNat_ofNat', Nat.mod_eq_of_lt hlt]
  exact hpos

lemma ucs2toUtf8_of_spelled (h : Spelled ns s) : ucs2toUtf8 (ns.map .ofNat) = s := by
  have hspelled := ucs2toUtf8_spelled (pos_of_spelled h)
  rw [toNat_map_ofNat h.bounds] at hspelled
  exact hspelled.unique h

lemma utf8toUcs2_ucs2toUtf8 {str16 : List UInt16} (h : ∀ c ∈ str16, 0 < c) :
    utf8toUcs2 (ucs2toUtf8 str16) = some str16 := by
  rw [utf8toUcs2_spelled (ucs2toUtf8_spelled h), ofNat_map_toNat]

lemma writtenBytes_le_three (u : UInt16) : (writtenBytes u).length ≤ 3 := by
  rw [writtenBytes]
  split
  · exact (by decide : 1 ≤ 3)
  · split
    · exact (by decide : 2 ≤ 3)
    · exact Nat.le_refl 3

/-- The two conversions undo each other: on units that are not 0, surrogates included, and on strings of sequences of
up to three bytes. The units are as many as `mbStrLen` counts, which with a terminator is the memory there is for them. -/
theorem utf8_ucs2_inverse :
    (∀ str16 : List UInt16, (∀ c ∈ str16, c ≠ 0) → utf8toUcs2 (ucs2toUtf8 str16) = some str16) ∧
      ∀ str : Bytes, Sequences str →
        ∃ str16, utf8toUcs2 str = some str16 ∧ ucs2toUtf8 str16 = str ∧ mbStrLen str = some str16.length := by
  constructor
  · intro str16 h
    exact utf8toUcs2_ucs2toUtf8 fun c hc => UInt16.pos_iff_ne_zero.mpr (h c hc)
  · intro str h
    obtain ⟨ns, hns⟩ := exists_spelled h
    refine ⟨ns.map .ofNat, utf8toUcs2_spelled hns, ucs2toUtf8_of_spelled hns, ?_⟩
    rw [mbStrLen_spelled hns, List.length_map]

theorem utf8_ucs2_inverse_surrogate :
    utf8toUcs2 (ucs2toUtf8 [0xd800]) = some [0xd800] ∧
      ∃ str16, utf8toUcs2 [0xc3, 0xa4] = some str16 ∧ ucs2toUtf8 str16 = [0xc3, 0xa4] ∧
        mbStrLen [0xc3, 0xa4] = some str16.length :=
  ⟨utf8_ucs2_inverse.1 [0xd800] (List.forall_mem_singleton.mpr (by decide)), utf8_ucs2_inverse.2 [0xc3, 0xa4]
    (.cons (.two (by decide) (by decide) ⟨by decide, by decide⟩) .nil)⟩

end AfpfsNg.Unicode
