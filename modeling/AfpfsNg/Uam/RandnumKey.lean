import AfpfsNg.Base.ByteOrder
import AfpfsNg.Uam.Logins
import Mathlib.Data.List.Rotate

/-!
# The key of the two-way login

`randnum2_login` (`lib/uams.c`) rotates the first eight bytes of the password by one bit to the left, in place and byte by
byte, and passes them to `gcry_cipher_setkey`. A `char` is signed, so the shift of a byte to the right gives -1 when its top
bit is set, and the byte in front of it becomes 255.
-/

namespace AfpfsNg.Uam
open AfpfsNg.Base AfpfsNg.Afp

/-- A `char` as an `int`; a `char` is signed. -/
def ofChar (c : UInt8) : Int32 := c.toInt8.toInt32

/-- An `int` stored in a `char`. -/
def toChar (n : Int32) : UInt8 := n.toInt8.toUInt8

/-- A round of the loop, if it stays inside of the array. -/
def rotateRound (key : Bytes) (i : Nat) : Option Bytes := do
  let c ← key[i]?
  let next ← key[i + 1]?
  return key.set i (toChar (ofChar c <<< 1 ||| ofChar next >>> 7))

def rotateLast (carry : Int32) (i : Nat) (key : Bytes) : Option Bytes := do
  return key.set i (toChar (ofChar (← key[i]?) <<< 1 ||| carry))

/-- What `randnum2_login` does to `key_buffer`. -/
def rotateInPlace (key : Bytes) : Option Bytes := do
  let carry := ofChar (← key[0]?) >>> 7
  let i := key.length - 1
  rotateLast carry i (← (List.range i).foldlM rotateRound key)

lemma ofChar_shiftRight : ∀ c : UInt8, ofChar c >>> 7 = if c < 128 then 0 else -1 := forall_byte (by decide +kernel)

lemma toChar_shiftLeft : ∀ c : UInt8, toChar (ofChar c <<< 1) = c <<< 1 := forall_byte (by decide +kernel)

lemma toChar_or (c next : UInt8) : toChar (ofChar c <<< 1 ||| ofChar next >>> 7) = rotateByte c next := by
  rw [ofChar_shiftRight, rotateByte]
  split
  · rw [Int32.or_zero, toChar_shiftLeft]
  · rw [Int32.or_neg_one]
    rfl

lemma rotateRound_append (done : Bytes) (c next : UInt8) (rest : Bytes) :
    rotateRound (done ++ c :: next :: rest) done.length = some (done ++ rotateByte c next :: next :: rest) := by
  simp [rotateRound, toChar_or]

/-- The bytes `done` are rotated, and `first` is the byte that the carry comes from. -/
lemma rotate_rounds (done : Bytes) (c : UInt8) (rest : Bytes) (first : UInt8) :
    ((List.range' done.length rest.length).foldlM rotateRound (done ++ c :: rest)).bind
        (rotateLast (ofChar first >>> 7) (done.length + rest.length)) =
      some (done ++ List.zipWith rotateByte (c :: rest) (rest ++ [first])) := by
  induction rest generalizing done c with
  | nil => simp [rotateLast, toChar_or]
  | cons next rest ih =>
    have hnext := ih (done ++ [rotateByte c next]) next
    rw [List.length_append, List.append_assoc, List.append_assoc, Nat.add_assoc, Nat.add_comm [_].length] at hnext
    rw [List.length_cons, List.range'_succ, List.foldlM_cons, rotateRound_append]
    exact hnext

lemma rotateInPlace_cons (c : UInt8) (rest : Bytes) : rotateInPlace (c :: rest) = some (rotateKey (c :: rest)) := by
  have hrounds := rotate_rounds [] c rest c
  rw [List.length_nil, Nat.zero_add, ← List.range_eq_range'] at hrounds
  rw [rotateKey, List.rotate_cons_succ, List.rotate_zero]
  exact hrounds

section Key
variable {σ Γ M : Type} {G : Gcrypt Γ M} {passwd key : Bytes}

/-- The same library, but it takes no other key. -/
def Gcrypt.onlyKey (G : Gcrypt Γ M) (key : Bytes) : Gcrypt Γ M :=
  { G with cipherSetkey := fun ctx k => if k = key then G.cipherSetkey ctx k else none }

/-- `key` is what `randnum2_login` passes to `gcry_cipher_setkey`: it makes no difference if no other key is taken. -/
def PassesKey (passwd key : Bytes) : Prop :=
  ∀ {σ Γ M : Type} (G : Gcrypt Γ M) (P : Peer σ) (username : Bytes) (k : Session σ),
    randnum2Login (G.onlyKey key) P username passwd k = randnum2Login G P username passwd k

lemma randnum2Info_onlyKey (block : Bytes) : randnum2Info (G.onlyKey key) passwd block =
    if rotateKey (strncpy passwd 8) = key then randnum2Info G passwd block else none := by
  split
  case isTrue h =>
    subst h
    simp only [randnum2Info, Gcrypt.onlyKey, if_true]
  case isFalse h =>
    simp only [randnum2Info, Gcrypt.onlyKey, if_neg h]
    cases G.cipherOpen .des with
    | none => rfl
    | some ctx => rfl

lemma passesKey_iff : PassesKey passwd key ↔ key = rotateKey (strncpy passwd 8) := by
  constructor
  · intro h
    by_contra hne
    have hlogin := h plainGcrypt (zeroPeer 10 0) [] ⟨(), [], []⟩
    rw [randnum2Login, randnum2Login, funext randnum2Info_onlyKey] at hlogin
    simp only [if_neg (Ne.symm hne)] at hlogin
    cases hlogin
  · rintro rfl σ Γ M G P username k
    have hinfo : randnum2Info (G.onlyKey (rotateKey (strncpy passwd 8))) passwd = randnum2Info G passwd :=
      funext fun block => by rw [randnum2Info_onlyKey, if_pos rfl]
    rw [randnum2Login, hinfo, randnum2Login]

end Key

lemma rotateByte_eq_iff {c next : UInt8} : rotateByte c next = shiftByte c next ↔ next < 128 ∨ c % 128 = 127 := by
  rw [← UInt8.toNat_inj, ← UInt8.toNat_inj, toNat_shiftByte, rotateByte, UInt8.toNat_mod]
  split
  case isTrue h =>
    refine iff_of_true ?_ (.inl h)
    have htop : next.toNat / 128 = 0 := Nat.div_eq_of_lt (UInt8.lt_iff_toNat_lt.mp h)
    rw [toNat_shiftLeft_one, htop, Nat.add_zero]
  case isFalse h =>
    have hlow : 128 ≤ next.toNat := Nat.not_lt.mp fun hlt => h (UInt8.lt_iff_toNat_lt.mpr hlt)
    have hnext : next.toNat < 256 := next.toNat_lt
    rw [or_iff_right h]
    show 255 = 2 * (c.toNat % 128) + next.toNat / 128 ↔ c.toNat % 128 = 127
    omega

lemma rotateKey_eq_iff (c : UInt8) (rest : Bytes) : rotateKey (c :: rest) = shiftBytes (c :: rest) c ↔
    ∀ p ∈ (c :: rest).zip ((c :: rest).rotate 1), p.2 < 128 ∨ p.1 % 128 = 127 := by
  have hrotate : (c :: rest).rotate 1 = rest ++ [c] := by rw [List.rotate_cons_succ, List.rotate_zero]
  rw [rotateKey, shiftBytes, List.tail_cons, hrotate, ← List.map_uncurry_zip_eq_zipWith, ← List.map_uncurry_zip_eq_zipWith,
    List.map_inj_left]
  exact forall₂_congr fun p _ => rotateByte_eq_iff

/-- `randnum2_login` passes eight bytes to `gcry_cipher_setkey`, which are those of the password rotated by one bit if and
only if, going round, each byte with its top bit set is behind one with all the other bits set. Without bytes above 127
that is so. -/
theorem randnum2_key_iff (passwd : Bytes) :
    ∃ key, rotateInPlace (strncpy passwd 8) = some key ∧ PassesKey passwd key ∧ key.length = 8 ∧
      (beWord 64 key = (beWord 64 (strncpy passwd 8)).rotateLeft 1 ↔
        ∀ p ∈ (strncpy passwd 8).zip ((strncpy passwd 8).rotate 1), p.2 < 128 ∨ p.1 % 128 = 127) := by
  have hlen := length_strncpy passwd 8
  have hkey : PassesKey passwd (rotateKey (strncpy passwd 8)) := passesKey_iff.mpr rfl
  cases hbuf : strncpy passwd 8 with
  | nil =>
    rw [hbuf] at hlen
    cases hlen
  | cons c rest =>
    rw [hbuf] at hlen hkey
    have hwidth : 8 * (c :: rest).length = 64 := congrArg (8 * ·) hlen
    have hrotated := beWord_shiftBytes c rest
    rw [hwidth] at hrotated
    have hlen' : (rotateKey (c :: rest)).length = 8 := by
      rw [rotateKey, List.length_zipWith, List.length_rotate, Nat.min_self, hlen]
    have hshift : (shiftBytes (c :: rest) c).length = 8 := by
      rw [shiftBytes, List.length_zipWith, List.tail_cons, List.length_append]
      exact (Nat.min_self _).trans hlen
    refine ⟨_, rotateInPlace_cons c rest, hkey, hlen', ?_⟩
    rw [← hrotated, beWord_inj (congrArg (8 * ·) hlen') (congrArg (8 * ·) hshift), rotateKey_eq_iff]

/-- The password `é` in UTF-8. Rotated, the bytes are `87 52 00 00 00 00 00 01`. -/
theorem randnum2_key_accent :
    rotateInPlace (strncpy [0xc3, 0xa9] 8) = some [0xff, 0x52, 0, 0, 0, 0, 0, 0xff] ∧
      PassesKey [0xc3, 0xa9] [0xff, 0x52, 0, 0, 0, 0, 0, 0xff] ∧
      beWord 64 [0xff, 0x52, 0, 0, 0, 0, 0, 0xff] ≠ (beWord 64 (strncpy [0xc3, 0xa9] 8)).rotateLeft 1 :=
  ⟨by decide, passesKey_iff.mpr (by decide), by decide⟩

end AfpfsNg.Uam
