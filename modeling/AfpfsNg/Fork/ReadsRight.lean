import AfpfsNg.Fork.Read

/-!
# What a read returns

`ValidReader` is a server that answers a read with some of the bytes at that place of the file, or with the rest of the file
and the code for its end. It may send short replies in any pattern. `ReadsRight` is what `fuse_read` has to do against all of
them: end, return the number of bytes that there are, and put exactly these into the buffer.
-/

namespace AfpfsNg.Fork
open AfpfsNg.Base AfpfsNg.Afp AfpfsNg.Did

/-- The server's answers about the fork whose contents are `b`. -/
def ValidReader {σ : Type} (P : Peer σ) (forkid : Nat) (b : Bytes) : Prop :=
  ∀ s e off cnt, 0 < cnt →
    (∃ n, 0 < n ∧ n ≤ cnt ∧ off + n ≤ b.length ∧
      (P.respond s (.read e forkid off cnt)).1.code = kFPNoErr ∧
      (P.respond s (.read e forkid off cnt)).1.data = slice b off n) ∨
    (b.length - off < cnt ∧
      (P.respond s (.read e forkid off cnt)).1.code = kFPEOFErr ∧
      (P.respond s (.read e forkid off cnt)).1.data = b.drop off)

/-- Whatever the file is and however its server splits it up, `fuse_read` ends within `size` rounds, returns
the number of bytes that there are and fills the buffer with them. -/
def ReadsRight (v : Volume) (path : Bytes) (size offset : Nat) (fp : FileHandle) : Prop :=
  ∀ (b : Bytes) (σ : Type) (P : Peer σ), ValidReader P fp.forkid b →
    ∀ (k : Client σ) (buf : Bytes), buf.length = size → ∀ rounds, size ≤ rounds →
      ∃ k', fuseRead P v rounds k path buf size offset (some fp) =
        .ok (((min size (b.length - offset) : Nat), patch buf 0 (slice b offset size)), k')

section Reading
variable {σ : Type} {P : Peer σ} {v : Volume} {path converted buf : Bytes} {fp : FileHandle}
  {pos size offset : Nat} {k : Client σ}

lemma returnSize_of_lt {n : Nat} (h : n < 2 ^ 31) : returnSize n = n := by
  rw [returnSize, Nat.mod_eq_of_lt (by omega), int32, if_pos h]

lemma llRead_reply {a : Reply} {k' : Client σ} (hlock : v.noLocking = true)
    (hreply : k.call P (.read (ext v) fp.forkid (field v offset) (field v size)) = (a, k'))
    (hcode : a.code = kFPNoErr ∨ a.code = kFPEOFErr) (hsize : a.data.length ≤ min v.rxQuantum size)
    (hint : a.data.length < 2 ^ 31) (hbuf : pos + a.data.length ≤ buf.length) :
    llRead P v k buf pos size offset fp =
      .ok (((a.data.length : Nat), a.code = kFPEOFErr, patch buf pos a.data), k') := by
  have htake : a.data.take (min v.rxQuantum size) = a.data := List.take_of_length_le hsize
  have hswitch : switch [(kFPAccessDenied, EACCES), (kFPLockErr, EBUSY), (kFPMiscErr, EIO),
      (kFPParamErr, EIO)] 0 a.code = 0 := by
    rcases hcode with h | h <;> rw [h] <;> rfl
  simp only [llRead, llHandleLocking, llHandleUnlocking, hlock, hreply, htake, store, hbuf, hswitch,
    returnSize_of_lt hint, Except.map, if_true, ne_eq, not_true, if_false]

lemma mlRead_data {n : Nat} {eof : Bool} {buf' : Bytes} {k' : Client σ}
    (hconv : convertPathToAfp v path = .ok (some converted)) (hfp : fp.resource = .none)
    (hread : llRead P v k buf pos size offset fp = .ok (((n : Nat), eof, buf'), k')) :
    mlRead P v k path buf pos size offset fp = .ok (((n : Nat), eof, buf', fp), k') := by
  simp [mlRead, hconv, appledoubleRead, hfp, hread, bind, Except.bind, pure, Except.pure]

/-- `ml_read` takes a single byte of a resource fork, the 1 of `appledouble_read`, for a code of its own. -/
lemma mlRead_resource {eof : Bool} {buf' : Bytes} {k' : Client σ}
    (hconv : convertPathToAfp v path = .ok (some converted)) (hfp : fp.resource = .resource)
    (hread : llRead P v k buf pos size offset fp = .ok (((1 : Nat), eof, buf'), k')) :
    mlRead P v k path buf pos size offset fp = .ok (((0 : Nat), eof, buf', fp), k') := by
  simp [mlRead, hconv, appledoubleRead, hfp, hread, returnSize, int32, bind, Except.bind, pure,
    Except.pure]

lemma fuseLoop_step {rounds n : Nat} {eof : Bool} {buf' : Bytes} {fp' : FileHandle} {k' : Client σ}
    (hread : mlRead P v k path buf pos size offset fp = .ok (((n : Nat), eof, buf', fp'), k')) :
    fuseLoop P v path (rounds + 1) k fp buf pos size offset =
      if eof ∨ size - n = 0 then .ok ((returnSize (pos + n), buf'), k')
      else fuseLoop P v path rounds k' fp' buf' (pos + n) (size - n) (offset + n) := by
  have hn : ¬ (n : Int) < 0 := by omega
  rw [fuseLoop]
  simp only [hread, hn, Int.toNat_natCast, bind, Except.bind, pure, Except.pure, if_false]
  cases eof
  · simp
  · simp

lemma field_eq {n : Nat} (h : 30 ≤ v.avNumber ∨ n < 2 ^ 32) : field v n = n := by
  rw [field]
  split
  case isTrue hv => exact Nat.mod_eq_of_lt (h.resolve_left (by omega))
  case isFalse => rfl

/-- From a round in which the bytes `got` are in the buffer. Induction on the rounds: each one gets at least
a byte, or the end of the file. -/
lemma fuseLoop_right {b : Bytes} (hvalid : ValidReader P fp.forkid b)
    (hconv : convertPathToAfp v path = .ok (some converted)) (hlock : v.noLocking = true)
    (hfp : fp.resource = .none) (hrx : size ≤ v.rxQuantum) (hint : size < 2 ^ 31)
    (haddr : 30 ≤ v.avNumber ∨ offset + size ≤ 2 ^ 32) (hbuf : buf.length = size)
    {rounds r : Nat} {got : Bytes} (hr : got.length + r = size) (hpos : 0 < r) (hrounds : r ≤ rounds)
    (hgot : got = slice b offset got.length) :
    ∃ k', fuseLoop P v path rounds k fp (patch buf 0 got) got.length r (offset + got.length) =
      .ok (((min size (b.length - offset) : Nat), patch buf 0 (slice b offset size)), k') := by
  induction rounds generalizing r got k with
  | zero => omega
  | succ rounds ih =>
    have hoff : field v (offset + got.length) = offset + got.length :=
      field_eq (haddr.imp_right fun h => by omega)
    have hcnt : field v r = r := field_eq (.inr (by omega))
    rcases hreply : k.call P (.read (ext v) fp.forkid (field v (offset + got.length)) (field v r))
      with ⟨a, k'⟩
    have ha : (P.respond k.peer (.read (ext v) fp.forkid (offset + got.length) r)).1 = a := by
      rw [hoff, hcnt] at hreply
      exact congrArg Prod.fst hreply
    have hlen : (patch buf 0 got).length = size := by rw [patch_length (by omega), hbuf]
    rcases hvalid k.peer (ext v) (offset + got.length) r hpos with
      ⟨n, hn, hnr, hend, hcode, hdata⟩ | ⟨hlt, hcode, hdata⟩
    · rw [ha] at hcode hdata
      have hl : a.data.length = n := by rw [hdata, slice_length hend]
      have hread : mlRead P v k path (patch buf 0 got) got.length r (offset + got.length) fp = _ :=
        mlRead_data hconv hfp (llRead_reply hlock hreply (.inl hcode) (by omega) (by omega) (by omega))
      rw [fuseLoop_step hread, patch_patch, hcode, hl]
      have hgot' : got ++ a.data = slice b offset (got.length + n) := by
        rw [← slice_append, ← hgot, hdata]
      by_cases hdone : r - n = 0
      · refine ⟨k', ?_⟩
        have hsize : got.length + n = size := by omega
        rw [if_pos (.inr hdone), hgot', hsize, returnSize_of_lt hint, Nat.min_eq_left (by omega)]
      · rw [if_neg (by simp [hdone, kFPNoErr, kFPEOFErr])]
        have hlen' : (got ++ a.data).length = got.length + n := by rw [List.length_append, hl]
        obtain ⟨k'', h⟩ := @ih k' (r - n) (got ++ a.data) (by omega) (by omega) (by omega)
          (by rw [hlen', hgot'])
        rw [hlen', ← Nat.add_assoc] at h
        exact ⟨k'', h⟩
    · rw [ha] at hcode hdata
      have hl : a.data.length = b.length - (offset + got.length) := by rw [hdata, List.length_drop]
      have hread : mlRead P v k path (patch buf 0 got) got.length r (offset + got.length) fp = _ :=
        mlRead_data hconv hfp (llRead_reply hlock hreply (.inr hcode) (by omega) (by omega) (by omega))
      rw [fuseLoop_step hread, patch_patch, hcode, hl, if_pos (.inl (by simp))]
      have hrest : a.data = slice b (offset + got.length) r := by
        rw [hdata, slice, List.take_of_length_le (by rw [List.length_drop]; omega)]
      have hall : got ++ a.data = slice b offset size := by
        rw [hrest, ← hr, ← slice_append, ← hgot]
      have hcount : got.length + (b.length - (offset + got.length)) = min size (b.length - offset) := by
        rw [← length_slice, ← hall, List.length_append, hl]
      refine ⟨k', ?_⟩
      rw [hall, hcount, returnSize_of_lt (by omega)]

def oneByte (b : Bytes) : Peer Unit where
  query _ _ _ := none
  respond _
    | .read _ _ off _ =>
      if off < b.length then (⟨kFPNoErr, 0, slice b off 1, 0⟩, ()) else (⟨kFPEOFErr, 0, [], 0⟩, ())
    | _ => (⟨kFPParamErr, 0, [], 0⟩, ())

lemma oneByte_valid (b : Bytes) (forkid : Nat) : ValidReader (oneByte b) forkid b := by
  intro s e off cnt hcnt
  simp only [oneByte]
  by_cases hoff : off < b.length
  · rw [if_pos hoff]
    exact .inl ⟨1, Nat.one_pos, hcnt, hoff, rfl, rfl⟩
  · rw [if_neg hoff]
    exact .inr ⟨by omega, rfl, (List.drop_eq_nil_of_le (by omega)).symm⟩

lemma oneByte_reply {b : Bytes} {k k' : Client Unit} {e off cnt a} (hoff : off < b.length)
    (hreply : k.call (oneByte b) (.read e fp.forkid off cnt) = (a, k')) :
    a.code = kFPNoErr ∧ a.data.length = 1 := by
  have ha : a = ⟨kFPNoErr, 0, slice b off 1, 0⟩ := by
    have h := congrArg Prod.fst hreply.symm
    simpa only [Client.call, oneByte, if_pos hoff] using h
  rw [ha]
  exact ⟨rfl, slice_length hoff⟩

lemma fuseLoop_wraps {b : Bytes} (hb : b.length = 2 ^ 32) (hav : v.avNumber < 30)
    (hconv : convertPathToAfp v path = .ok (some converted)) (hlock : v.noLocking = true)
    (hfp : fp.resource = .none) (hrx : size ≤ v.rxQuantum) (hint : size < 2 ^ 31)
    {k : Client Unit} {rounds r : Nat} (hbuf : buf.length = size) (hr : pos + r = size) (hpos : 0 < r)
    (hrounds : r ≤ rounds) :
    ∃ buf' k', fuseLoop (oneByte b) v path rounds k fp buf pos r offset =
      .ok (((size : Nat), buf'), k') := by
  induction rounds generalizing k buf pos r offset with
  | zero => omega
  | succ rounds ih =>
    have hoff : field v offset < b.length := by
      rw [field, if_pos hav, hb]
      exact Nat.mod_lt _ (by decide)
    rcases hreply : k.call (oneByte b) (.read (ext v) fp.forkid (field v offset) (field v r)) with ⟨a, k'⟩
    obtain ⟨hcode, hl⟩ := oneByte_reply hoff hreply
    have hread : mlRead (oneByte b) v k path buf pos r offset fp = _ :=
      mlRead_data hconv hfp (llRead_reply hlock hreply (.inl hcode) (by omega) (by omega) (by omega))
    rw [fuseLoop_step hread, hcode, hl]
    by_cases hdone : r - 1 = 0
    · have hsize : pos + 1 = size := by omega
      rw [if_pos (.inr hdone), hsize, returnSize_of_lt hint]
      exact ⟨_, _, rfl⟩
    · rw [if_neg (by simp [hdone, kFPNoErr, kFPEOFErr])]
      exact ih (by rw [patch_length (by omega), hbuf]) (by omega) (by omega) (by omega)

lemma fuseLoop_stuck {b : Bytes} (hb : offset < b.length)
    (hconv : convertPathToAfp v path = .ok (some converted)) (hlock : v.noLocking = true)
    (hfp : fp.resource = .resource) (hpos : 0 < size) (hrx : size ≤ v.rxQuantum) {k : Client Unit}
    {rounds : Nat} (hbuf : buf.length = size) :
    fuseLoop (oneByte b) v path rounds k fp buf 0 size offset = .error .outOfFuel := by
  induction rounds generalizing k buf with
  | zero => rfl
  | succ rounds ih =>
    have hoff : field v offset < b.length := by
      refine Nat.lt_of_le_of_lt ?_ hb
      rw [field]
      split
      · exact Nat.mod_le ..
      · exact Nat.le_refl _
    rcases hreply : k.call (oneByte b) (.read (ext v) fp.forkid (field v offset) (field v size)) with
      ⟨a, k'⟩
    obtain ⟨hcode, hl⟩ := oneByte_reply hoff hreply
    have hread := @llRead_reply Unit (oneByte b) v buf fp 0 size offset k a k' hlock hreply (.inl hcode)
      (by omega) (by omega) (by omega)
    rw [hl, hcode] at hread
    rw [fuseLoop_step (mlRead_resource hconv hfp hread), if_neg (by simp [kFPNoErr, kFPEOFErr]; omega)]
    exact ih (by rw [patch_length (by omega), hbuf])

end Reading

/-- Reads of at most `rx_quantum` bytes without locks are right exactly for data forks, when the path can be
converted and no byte of the range is beyond the reach of the requests. -/
theorem reads_right_iff (v : Volume) (path : Bytes) (size offset : Nat) (fp : FileHandle)
    (hpos : 0 < size) (hsize : size ≤ v.rxQuantum) (hrx : v.rxQuantum < 2 ^ 31)
    (hlock : v.noLocking = true) (hfp : fp.resource = .none ∨ fp.resource = .resource) :
    ReadsRight v path size offset fp ↔
      fp.resource = .none ∧ (∃ converted, convertPathToAfp v path = .ok (some converted)) ∧
        (30 ≤ v.avNumber ∨ offset + size ≤ 2 ^ 32) := by
  constructor
  · intro hright
    have hrun (b : Bytes) := hright b Unit (oneByte b) (oneByte_valid b _) (.start () .empty)
      (List.replicate size 0) List.length_replicate size (Nat.le_refl size)
    rcases hconv : convertPathToAfp v path with f | _ | converted
    · obtain ⟨rounds, rfl⟩ := Nat.exists_eq_succ_of_ne_zero (Nat.ne_of_gt hpos)
      obtain ⟨k', hread⟩ := hrun []
      simp [fuseRead, fuseLoop, mlRead, hconv, bind, Except.bind] at hread
    · obtain ⟨rounds, rfl⟩ := Nat.exists_eq_succ_of_ne_zero (Nat.ne_of_gt hpos)
      obtain ⟨k', hread⟩ := hrun []
      simp [fuseRead, fuseLoop, mlRead, hconv, bind, Except.bind, pure, Except.pure, EINVAL] at hread
    rcases hfp with hfp | hfp
    · refine ⟨hfp, ⟨converted, rfl⟩, or_iff_not_imp_left.mpr fun hav => ?_⟩
      obtain ⟨b, hb⟩ : ∃ b : Bytes, b.length = 2 ^ 32 := ⟨_, @List.length_replicate _ (2 ^ 32) 0⟩
      obtain ⟨k', hread⟩ := hrun b
      obtain ⟨buf', k'', hwrap⟩ := @fuseLoop_wraps v path converted (List.replicate size 0) fp 0 size offset
        b hb (by omega) hconv hlock hfp hsize (by omega) (.start () .empty) size size List.length_replicate
        (by omega) hpos (Nat.le_refl _)
      rw [fuseRead, hwrap] at hread
      injection hread with hread
      have hcount := congrArg (fun x : (Int × Bytes) × Client Unit => x.1.1) hread
      simp only [hb] at hcount
      omega
    · obtain ⟨k', hread⟩ := hrun (List.replicate (offset + 1) 0)
      rw [fuseRead, fuseLoop_stuck (by simp) hconv hlock hfp hpos hsize List.length_replicate] at hread
      cases hread
  · rintro ⟨hfp, ⟨converted, hconv⟩, haddr⟩ b σ P hvalid k buf hbuf rounds hrounds
    have h := @fuseLoop_right σ P v path converted buf fp size offset k b hvalid hconv hlock hfp hsize
      (by omega) haddr hbuf rounds size [] (by simp) hpos hrounds (by simp [slice])
    simpa [fuseRead, patch] using h

theorem reads_right_afp3 : ReadsRight plainVolume [47, 97] 3 1 dataFork :=
  (reads_right_iff plainVolume [47, 97] 3 1 dataFork (by decide) (by decide) (by decide) rfl (.inl rfl)).mpr
    ⟨rfl, ⟨_, rfl⟩, .inl (by decide)⟩

def afp2Volume : Volume := { plainVolume with avNumber := 22 }

/-- On a file of one byte, a read at 4 GB returns that byte. -/
theorem reads_wrong_beyond_4gb :
    (∃ k, fuseRead (oneByte [5]) afp2Volume 1 (.start () .empty) [47, 97] [0] 1 (2 ^ 32) (some dataFork) =
      .ok ((1, [5]), k)) ∧
    ¬ ReadsRight afp2Volume [47, 97] 1 (2 ^ 32) dataFork := by
  refine ⟨⟨_, rfl⟩, fun h => ?_⟩
  obtain ⟨k', hread⟩ := h [5] Unit (oneByte [5]) (oneByte_valid _ _) (.start () .empty) [0] rfl 1
    (Nat.le_refl 1)
  injection hread with hread
  have hcount : (1 : Int) = 0 := congrArg (fun x : (Int × Bytes) × Client Unit => x.1.1) hread
  exact absurd hcount (by decide)

end AfpfsNg.Fork
