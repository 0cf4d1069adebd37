import AfpfsNg.Base.ByteOrder
import AfpfsNg.Fork.Tiling

/-!
# Numbers of 64 bits in requests

On a little-endian host the requests of AFP 3 store their offsets and counts through `hton64` (`include/afpfs-ng/utils.h`),
which is put together from two calls of `htonl`. `afp_setforkparms` (`lib/proto_fork.c`) has a field of 64 bits too but
stores `htonl` of the length in it: the length is cut to 32 bits and stands in the upper half.

`dsiHeader` is what `dsi_setup_header` writes. An `unsigned long` has 64 bits.
-/

namespace AfpfsNg.Fork.HostOrder
open AfpfsNg.Base AfpfsNg.Afp

def hton64 (x : Nat) : Nat :=
  htonl ((x >>> 32) &&& 0xffffffff) ||| ((htonl x &&& 0xffffffff) <<< 32) % 2 ^ 64

def ntoh64 (x : Nat) : Nat := hton64 x

def forkFields (dsiHeader : Block 16) (command flag : UInt8) (forkid : UInt16) : Bytes :=
  dsiHeader.bytes ++ ([command, flag] ++ leBytes 2 (htons forkid.toNat))

/-- C `afp_readext`: the message that `dsi_send` is given. -/
def afpReadext (dsiHeader : Block 16) (forkid : UInt16) (offset count : UInt64) : Bytes :=
  forkFields dsiHeader 60 0 forkid ++ (leBytes 8 (hton64 offset.toNat) ++ leBytes 8 (hton64 count.toNat))

def afpByterangelockext (dsiHeader : Block 16) (flag : UInt8) (forkid : UInt16) (offset len : UInt64) : Bytes :=
  forkFields dsiHeader 59 flag forkid ++ (leBytes 8 (hton64 offset.toNat) ++ leBytes 8 (hton64 len.toNat))

/-- C `afp_writeext`: the message that `dsi_send` is given; `data` is what the pointer points to. -/
def afpWriteext (dsiHeader : Block 16) (forkid : UInt16) (offset reqcount : UInt64) (data : Bytes) : Except Fault Bytes :=
  let len := (36 + reqcount.toNat) % 2 ^ 32
  if len < 36 + reqcount.toNat then .error .copyOverflow
  else if data.length < reqcount.toNat then .error .overread
  else .ok (forkFields dsiHeader 61 0 forkid ++ (leBytes 8 (hton64 offset.toNat) ++ (leBytes 8 (hton64 reqcount.toNat) ++
    data.take reqcount.toNat)))

/-- C `kFPExtDataForkLenBit | kFPExtRsrcForkLenBit` -/
def extendedLenBits : UInt16 := 0x0800 ||| 0x4000

def afpSetforkparms (dsiHeader : Block 16) (forkid bitmap : UInt16) (len : UInt64) : Bytes :=
  forkFields dsiHeader 31 0 forkid ++ (leBytes 2 (htons bitmap.toNat) ++
    if bitmap &&& extendedLenBits ≠ 0 then leBytes 8 (htonl len.toNat) else leBytes 4 (htonl len.toNat))

/-- The number of 64 bits at `off`, as the server reads it. -/
def field64 (m : Bytes) (off : Nat) : Nat := beNat (slice m off 8)

/-- `v` comes to the server in the requests that are made with `hton64`, and back from `ntoh64`. -/
structure SentWhole (v : UInt64) : Prop where
  readext : ∀ dsiHeader forkid w, field64 (afpReadext dsiHeader forkid v w) 20 = v.toNat ∧
    field64 (afpReadext dsiHeader forkid w v) 28 = v.toNat
  byterangelockext : ∀ dsiHeader flag forkid w, field64 (afpByterangelockext dsiHeader flag forkid v w) 20 = v.toNat ∧
    field64 (afpByterangelockext dsiHeader flag forkid w v) 28 = v.toNat
  writeextOffset : ∀ dsiHeader forkid w data m, afpWriteext dsiHeader forkid v w data = .ok m → field64 m 20 = v.toNat
  writeextCount : ∀ dsiHeader forkid w data m, afpWriteext dsiHeader forkid w v data = .ok m → field64 m 28 = v.toNat
  back : ntoh64 (hton64 v.toNat) = v.toNat

/-- `v` comes to the server as the length of a fork. -/
def LengthSentWhole (v : UInt64) : Prop :=
  ∀ dsiHeader forkid bitmap, bitmap &&& extendedLenBits ≠ 0 → field64 (afpSetforkparms dsiHeader forkid bitmap v) 22 = v.toNat

lemma hton64_eq (x : Nat) : hton64 x = leNat (beBytes 8 x) := by
  have hhigh : htonl ((x >>> 32) &&& 0xffffffff) = leNat (beBytes 4 (x / 256 ^ 4)) := by
    have hmask : (x >>> 32) &&& 0xffffffff = x / 256 ^ 4 % 256 ^ 4 := by
      rw [Nat.shiftRight_eq_div_pow]
      exact Nat.and_two_pow_sub_one_eq_mod _ 32
    rw [hmask, htonl, beBytes_mod]
  have hlow : htonl x < 2 ^ 32 := by
    have h := leNat_lt (beBytes 4 x)
    rwa [length_beBytes] at h
  have hshift : ((htonl x &&& 0xffffffff) <<< 32) % 2 ^ 64 = 2 ^ 32 * htonl x := by
    have hmask : htonl x &&& 0xffffffff = htonl x % 2 ^ 32 := Nat.and_two_pow_sub_one_eq_mod _ 32
    rw [hmask, Nat.shiftLeft_eq]
    omega
  have hhigh_lt : leNat (beBytes 4 (x / 256 ^ 4)) < 2 ^ 32 := by
    have h := leNat_lt (beBytes 4 (x / 256 ^ 4))
    rwa [length_beBytes] at h
  have hsplit : beBytes 8 x = beBytes 4 (x / 256 ^ 4) ++ beBytes 4 x := beBytes_add 4 4 x
  rw [hton64, hhigh, hshift, Nat.or_comm, ← Nat.two_pow_add_eq_or_of_lt hhigh_lt, hsplit, leNat_append, length_beBytes]
  rfl

lemma leBytes_hton64 (x : Nat) : leBytes 8 (hton64 x) = beBytes 8 x := by
  have h := leBytes_leNat (beBytes 8 x)
  rwa [length_beBytes, ← hton64_eq] at h

lemma ntoh64_hton64 {x : Nat} (hx : x < 2 ^ 64) : ntoh64 (hton64 x) = x := by
  have hback : beBytes 8 (hton64 x) = (beBytes 8 x).reverse := by
    rw [← leBytes_hton64 x, leBytes, List.reverse_reverse]
  rw [ntoh64, hton64_eq, hback, leNat, List.reverse_reverse]
  exact beNat_beBytes_of_lt hx

lemma length_forkFields (dsiHeader : Block 16) (command flag : UInt8) (forkid : UInt16) :
    (forkFields dsiHeader command flag forkid).length = 20 := by
  rw [forkFields, List.length_append, List.length_append, dsiHeader.size, length_leBytes]
  rfl

lemma field64_numbers {fields : Bytes} (hfields : fields.length = 20) (x y : UInt64) (rest : Bytes) :
    field64 (fields ++ (leBytes 8 (hton64 x.toNat) ++ (leBytes 8 (hton64 y.toNat) ++ rest))) 20 = x.toNat ∧
    field64 (fields ++ (leBytes 8 (hton64 x.toNat) ++ (leBytes 8 (hton64 y.toNat) ++ rest))) 28 = y.toNat := by
  have hnumber (z : UInt64) : beNat (beBytes 8 z.toNat) = z.toNat := beNat_beBytes_of_lt z.toNat_lt
  rw [leBytes_hton64, leBytes_hton64]
  constructor
  · rw [field64, slice_mid _ _ _ hfields (length_beBytes ..), hnumber]
  · have hlen : (fields ++ beBytes 8 x.toNat).length = 28 := by rw [List.length_append, hfields, length_beBytes]
    rw [field64, ← List.append_assoc, slice_mid _ _ _ hlen (length_beBytes ..), hnumber]

lemma field64_pair {fields : Bytes} (hfields : fields.length = 20) (v w : UInt64) :
    field64 (fields ++ (leBytes 8 (hton64 v.toNat) ++ leBytes 8 (hton64 w.toNat))) 20 = v.toNat ∧
    field64 (fields ++ (leBytes 8 (hton64 w.toNat) ++ leBytes 8 (hton64 v.toNat))) 28 = v.toNat := by
  have hfirst := (field64_numbers hfields v w []).1
  have hsecond := (field64_numbers hfields w v []).2
  rw [List.append_nil] at hfirst hsecond
  exact ⟨hfirst, hsecond⟩

lemma afpWriteext_eq (dsiHeader : Block 16) (forkid : UInt16) (offset reqcount : UInt64) (data : Bytes) :
    afpWriteext dsiHeader forkid offset reqcount data =
      Fork.afpWriteext dsiHeader forkid.toNat offset.toNat reqcount.toNat data := by
  have hcount : reqcount.toNat % 256 ^ 8 = reqcount.toNat := Nat.mod_eq_of_lt reqcount.toNat_lt
  rw [afpWriteext, Fork.afpWriteext, writeMessage, hcount, forkFields, leBytes_htons, leBytes_hton64, leBytes_hton64]
  simp only [List.append_assoc]

lemma afpWriteext_ok {dsiHeader : Block 16} {forkid : UInt16} {offset reqcount : UInt64} {data m : Bytes}
    (h : afpWriteext dsiHeader forkid offset reqcount data = .ok m) :
    m = forkFields dsiHeader 61 0 forkid ++ (leBytes 8 (hton64 offset.toNat) ++ (leBytes 8 (hton64 reqcount.toNat) ++
      data.take reqcount.toNat)) := by
  simp only [afpWriteext] at h
  split at h
  case isTrue => cases h
  case isFalse =>
    split at h
    case isTrue => cases h
    case isFalse =>
      cases h
      rfl

lemma sentWhole (v : UInt64) : SentWhole v where
  readext := fun _ _ w => field64_pair (length_forkFields ..) v w
  byterangelockext := fun _ _ _ w => field64_pair (length_forkFields ..) v w
  writeextOffset := by
    intro dsiHeader forkid w data m h
    rw [afpWriteext_ok h]
    exact (field64_numbers (length_forkFields ..) v w _).1
  writeextCount := by
    intro dsiHeader forkid w data m h
    rw [afpWriteext_ok h]
    exact (field64_numbers (length_forkFields ..) w v _).2
  back := ntoh64_hton64 v.toNat_lt

lemma setforkparms_field (dsiHeader : Block 16) (forkid : UInt16) {bitmap : UInt16} (hbitmap : bitmap &&& extendedLenBits ≠ 0)
    (v : UInt64) : field64 (afpSetforkparms dsiHeader forkid bitmap v) 22 = 2 ^ 32 * (v.toNat % 2 ^ 32) := by
  have hstored : leBytes 8 (htonl v.toNat) = beBytes 4 v.toNat ++ [0, 0, 0, 0] := by
    have h := leBytes_leNat (beBytes 4 v.toNat ++ [0, 0, 0, 0])
    have hzeros : leNat [0, 0, 0, 0] = 0 := rfl
    rwa [leNat_append, hzeros, Nat.mul_zero, Nat.zero_add, List.length_append, length_beBytes] at h
  have hlen : (forkFields dsiHeader 31 0 forkid ++ leBytes 2 (htons bitmap.toNat)).length = 22 := by
    rw [List.length_append, length_forkFields, length_leBytes]
  have hmessage : afpSetforkparms dsiHeader forkid bitmap v =
      (forkFields dsiHeader 31 0 forkid ++ leBytes 2 (htons bitmap.toNat)) ++ ((beBytes 4 v.toNat ++ [0, 0, 0, 0]) ++ []) := by
    rw [afpSetforkparms, if_pos hbitmap, hstored, List.append_nil, List.append_assoc]
  have hzeros : beNat [0, 0, 0, 0] = 0 := rfl
  rw [field64, hmessage, slice_mid _ _ _ hlen (by rw [List.length_append, length_beBytes]; rfl), beNat_append, hzeros,
    beNat_beBytes]
  rfl

/-- Every number comes to the server in the requests that use `hton64`, but as the length of a fork only 0 does. -/
theorem numbers_sent_iff (v : UInt64) : SentWhole v ∧ (LengthSentWhole v ↔ v = 0) := by
  refine ⟨sentWhole v, ?_, ?_⟩
  · intro h
    have hbitmap : (0x0800 : UInt16) &&& extendedLenBits ≠ 0 := by decide
    have hfield := h (.zeros 16) 0 0x0800 hbitmap
    rw [setforkparms_field _ _ hbitmap] at hfield
    have hv : v.toNat < 2 ^ 64 := v.toNat_lt
    exact UInt64.toNat_inj.mp (show v.toNat = 0 by omega)
  · rintro rfl dsiHeader forkid bitmap hbitmap
    exact setforkparms_field dsiHeader forkid hbitmap 0

/-- The length 1 becomes 2 ^ 32. -/
theorem numbers_sent_length_one : ¬ LengthSentWhole 1 := by
  intro h
  have hfield := h (.zeros 16) 0 0x0800 (by decide)
  exact absurd hfield (by decide +kernel)

end AfpfsNg.Fork.HostOrder
