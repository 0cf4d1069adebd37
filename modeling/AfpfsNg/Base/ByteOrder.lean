import AfpfsNg.Base.Bytes

/-!
# Byte order

Numbers as a little-endian host keeps them in its memory (`leNat`, `leBytes`), beside the big-endian ones of a network
message (`beNat`, `beBytes`). A number that is stored by the host stands in the message as the host's bytes, so a program
converts it first: `htonl` gives the number whose bytes in the host's memory are those of the message.
-/

namespace AfpfsNg.Base

def leNat (bs : Bytes) : Nat := beNat bs.reverse

/-- As much of `v` as fits `n` bytes, as a little-endian number. -/
def leBytes (n v : Nat) : Bytes := (beBytes n v).reverse

/-- C `htons` of a little-endian host; the argument is a `uint16_t`. -/
def htons (x : Nat) : Nat := leNat (beBytes 2 x)

/-- C `htonl` of a little-endian host; the argument is a `uint32_t`. -/
def htonl (x : Nat) : Nat := leNat (beBytes 4 x)

lemma beNat_append (a b : Bytes) : beNat (a ++ b) = 256 ^ b.length * beNat a + beNat b := by
  induction b using List.reverseRecOn with
  | nil => rw [List.append_nil, List.length_nil, Nat.pow_zero, Nat.one_mul]; rfl
  | append_singleton b x ih =>
    rw [← List.append_assoc, beNat_append_singleton, ih, beNat_append_singleton, List.length_append, List.length_singleton,
      Nat.pow_succ, Nat.mul_add, Nat.mul_comm (256 ^ b.length) 256, Nat.mul_assoc, Nat.add_assoc]

lemma leNat_append (a b : Bytes) : leNat (a ++ b) = 256 ^ a.length * leNat b + leNat a := by
  rw [leNat, List.reverse_append, beNat_append, List.length_reverse]
  rfl

lemma beBytes_beNat (bs : Bytes) : beBytes bs.length (beNat bs) = bs := by
  induction bs using List.reverseRecOn with
  | nil => rfl
  | append_singleton bs x ih =>
    have hx : x.toNat < 256 := x.toNat_lt
    have hdiv : (256 * beNat bs + x.toNat) / 256 = beNat bs := by omega
    have hlast : UInt8.ofNat (256 * beNat bs + x.toNat) = x := by
      apply UInt8.toNat_inj.mp
      rw [UInt8.toNat_ofNat']
      omega
    rw [List.length_append, List.length_singleton, beNat_append_singleton, beBytes, hdiv, hlast, ih]

lemma beBytes_add (m n v : Nat) : beBytes (m + n) v = beBytes m (v / 256 ^ n) ++ beBytes n v := by
  induction n generalizing v with
  | zero => rw [Nat.pow_zero, Nat.div_one, beBytes, List.append_nil, Nat.add_zero]
  | succ n ih =>
    rw [← Nat.add_assoc, beBytes, ih, beBytes, Nat.div_div_eq_div_mul, Nat.pow_succ', List.append_assoc]

lemma beBytes_mod (n v : Nat) : beBytes n (v % 256 ^ n) = beBytes n v := by
  rw [← beNat_beBytes]
  nth_rewrite 1 [← length_beBytes n v]
  exact beBytes_beNat _

@[simp] lemma length_leBytes (n v : Nat) : (leBytes n v).length = n := by rw [leBytes, List.length_reverse, length_beBytes]

lemma leBytes_leNat (bs : Bytes) : leBytes bs.length (leNat bs) = bs := by
  have h := beBytes_beNat bs.reverse
  rw [List.length_reverse] at h
  rw [leBytes, leNat, h, List.reverse_reverse]

lemma leNat_lt (bs : Bytes) : leNat bs < 256 ^ bs.length := by
  have h := beNat_lt bs.reverse
  rwa [List.length_reverse] at h

lemma leNat_replicate_zero (n : Nat) : leNat (List.replicate n 0) = 0 := by
  rw [leNat, List.reverse_replicate]
  induction n with
  | zero => rfl
  | succ n ih => rw [List.replicate_succ', beNat_append_singleton, ih, UInt8.toNat_zero]

lemma leNat_take_leBytes {w v : Nat} (hv : v < 256 ^ w) (j : Nat) : leNat ((leBytes w v).take j) = v % 256 ^ j := by
  obtain hj | hj := Nat.le_total w j
  · rw [List.take_of_length_le (by rwa [length_leBytes]), leNat, leBytes, List.reverse_reverse, beNat_beBytes,
      Nat.mod_eq_of_lt hv, Nat.mod_eq_of_lt (Nat.lt_of_lt_of_le hv (Nat.pow_le_pow_right (by decide) hj))]
  · obtain ⟨m, rfl⟩ := Nat.exists_eq_add_of_le' hj
    rw [leBytes, beBytes_add, List.reverse_append, List.take_left' (by rw [List.length_reverse, length_beBytes]), leNat,
      List.reverse_reverse, beNat_beBytes]

lemma leBytes_htons (x : Nat) : leBytes 2 (htons x) = beBytes 2 x := by
  have h := leBytes_leNat (beBytes 2 x)
  rwa [length_beBytes] at h

def shiftByte (c d : UInt8) : UInt8 := c <<< 1 ||| d >>> 7

/-- The bytes shifted to the left by one bit, with the top bit of `next` behind them. -/
def shiftBytes (bs : Bytes) (next : UInt8) : Bytes := List.zipWith shiftByte bs (bs.tail ++ [next])

lemma two_mul_or {b : Nat} (hb : b < 2) (a : Nat) : 2 * a ||| b = 2 * a + b :=
  (Nat.two_pow_add_eq_or_of_lt (i := 1) hb a).symm

lemma toNat_shiftLeft_one (c : UInt8) : (c <<< 1).toNat = 2 * (c.toNat % 128) := by
  rw [UInt8.toNat_shiftLeft, Nat.shiftLeft_eq]
  show c.toNat * 2 % 256 = _
  omega

lemma toNat_shiftByte (c d : UInt8) : (shiftByte c d).toNat = 2 * (c.toNat % 128) + d.toNat / 128 := by
  have hd : d.toNat < 256 := d.toNat_lt
  have hright : (d >>> 7).toNat = d.toNat / 128 := by
    rw [UInt8.toNat_shiftRight, Nat.shiftRight_eq_div_pow]
    rfl
  rw [shiftByte, UInt8.toNat_or, toNat_shiftLeft_one, hright]
  exact two_mul_or (by omega) _

lemma shiftBytes_concat (bs : Bytes) (x next : UInt8) :
    shiftBytes (bs ++ [x]) next = shiftBytes bs x ++ [shiftByte x next] := by
  cases bs with
  | nil => rfl
  | cons b bs =>
    rw [shiftBytes, List.cons_append, List.tail_cons, ← List.cons_append]
    exact List.zipWith_append (by rw [List.length_append]; rfl)

lemma beNat_shiftBytes (bs : Bytes) (next : UInt8) :
    beNat (shiftBytes bs next) = (2 * beNat bs + next.toNat / 128) % 256 ^ bs.length := by
  induction bs using List.reverseRecOn generalizing next with
  | nil => rw [List.length_nil, Nat.pow_zero, Nat.mod_one]; rfl
  | append_singleton bs x ih =>
    have hx : x.toNat < 256 := x.toNat_lt
    have hlow : 2 * (x.toNat % 128) + next.toNat / 128 < 256 := toNat_shiftByte x next ▸ UInt8.toNat_lt _
    -- the top bit of `x` goes to the bytes in front of it
    have hsplit : 2 * (256 * beNat bs + x.toNat) + next.toNat / 128 =
        (2 * (x.toNat % 128) + next.toNat / 128) + 256 * (2 * beNat bs + x.toNat / 128) := by omega
    rw [shiftBytes_concat, beNat_append_singleton, beNat_append_singleton, ih, toNat_shiftByte, hsplit, List.length_append,
      List.length_singleton, Nat.pow_succ', Nat.mod_mul, Nat.add_mul_mod_self_left, Nat.add_mul_div_left _ _ (by decide),
      Nat.mod_eq_of_lt hlow, Nat.div_eq_of_lt hlow, Nat.zero_add, Nat.add_comm]

/-- The bytes as a big-endian number of `w` bits. -/
def beWord (w : Nat) (bs : Bytes) : BitVec w := .ofNat w (beNat bs)

lemma toNat_rotateLeft_one {v : Nat} (hv : 0 < v) (x : BitVec (v + 1)) :
    (x.rotateLeft 1).toNat = (2 * x.toNat + x.toNat / 2 ^ v) % 2 ^ (v + 1) := by
  have hx : x.toNat < 2 * 2 ^ v := Nat.pow_succ' ▸ x.isLt
  have htop : x.toNat / 2 ^ v < 2 := Nat.div_lt_of_lt_mul (Nat.mul_comm .. ▸ hx)
  have hsplit := Nat.div_add_mod x.toNat (2 ^ v)
  have hlow : x.toNat % 2 ^ v < 2 ^ v := Nat.mod_lt _ (Nat.two_pow_pos v)
  have hsum : 2 * x.toNat + x.toNat / 2 ^ v =
      (2 * (x.toNat % 2 ^ v) + x.toNat / 2 ^ v) + 2 * 2 ^ v * (x.toNat / 2 ^ v) := by
    rw [Nat.mul_assoc]
    omega
  rw [BitVec.toNat_rotateLeft, Nat.mod_eq_of_lt (Nat.succ_lt_succ hv), Nat.add_sub_cancel, Nat.shiftLeft_eq,
    Nat.shiftRight_eq_div_pow, Nat.pow_one, Nat.mul_comm, Nat.pow_succ', Nat.mul_mod_mul_left, two_mul_or htop, hsum,
    Nat.add_mul_mod_self_left]
  exact (Nat.mod_eq_of_lt (by omega)).symm

lemma beWord_shiftBytes (c : UInt8) (bs : Bytes) :
    beWord (8 * (c :: bs).length) (shiftBytes (c :: bs) c) = (beWord (8 * (c :: bs).length) (c :: bs)).rotateLeft 1 := by
  have hwidth : 8 * (c :: bs).length = 8 * bs.length + 7 + 1 := by rw [List.length_cons]; omega
  have hpow : 2 ^ (8 * bs.length + 7 + 1) = 256 ^ (c :: bs).length := by rw [← hwidth, Nat.pow_mul]
  have hfirst : beNat [c] = c.toNat := Nat.zero_add _
  have htop : beNat (c :: bs) / 2 ^ (8 * bs.length + 7) = c.toNat / 128 := by
    rw [Nat.pow_add, Nat.pow_mul, ← Nat.div_div_eq_div_mul, ← List.singleton_append, beNat_append,
      Nat.mul_add_div (Nat.pow_pos (by decide)), Nat.div_eq_of_lt (beNat_lt bs), hfirst]
    rfl
  rw [hwidth]
  apply BitVec.eq_of_toNat_eq
  rw [toNat_rotateLeft_one (Nat.succ_pos _), beWord, beWord, BitVec.toNat_ofNat, BitVec.toNat_ofNat, hpow, beNat_shiftBytes,
    Nat.mod_mod, Nat.mod_eq_of_lt (beNat_lt _), htop]

lemma beWord_inj {w : Nat} {a b : Bytes} (ha : 8 * a.length = w) (hb : 8 * b.length = w) : beWord w a = beWord w b ↔ a = b := by
  refine ⟨fun h => ?_, fun h => congrArg (beWord w) h⟩
  have hpow (bs : Bytes) (hbs : 8 * bs.length = w) : (beWord w bs).toNat = beNat bs := by
    rw [beWord, BitVec.toNat_ofNat, ← hbs, Nat.pow_mul]
    exact Nat.mod_eq_of_lt (beNat_lt bs)
  rw [← beBytes_beNat a, ← beBytes_beNat b, ← hpow a ha, ← hpow b hb, h, show a.length = b.length by omega]

end AfpfsNg.Base
