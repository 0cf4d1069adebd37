import AfpfsNg.Fork.Entry

/-!
# The files of finder info

With AppleDouble files shown, `x.finderinfo` is a file with the 32 bytes of the finder info of `x`. `KeepsFinderInfo` is a server
that tells them when it is asked, and takes new ones.

`appledouble_read` puts the bytes to `buf+offset`, and they are always the first ones. Then it goes on to the case of a comment:
what is returned is the server's answer for a comment of a file in the directory 0, since the reply has cleared the record.
`appledouble_write` asks for the finder info, but then puts the new bytes into what the record of the open file has.
-/

namespace AfpfsNg.Fork
open AfpfsNg.Base AfpfsNg.Afp

structure KeepsFinderInfo {σ : Type} (P : Peer σ) (did : Nat) (name : Bytes) (finderinfo : σ → Bytes) : Prop where
  length (s : σ) : (finderinfo s).length = 32
  get_code (s : σ) : (P.respond s (.getfiledirparms did 0x20 0x20 name)).1.code = kFPNoErr
  get_data (s : σ) : (P.respond s (.getfiledirparms did 0x20 0x20 name)).1.data = finderinfo s
  get_keeps (s : σ) : finderinfo (P.respond s (.getfiledirparms did 0x20 0x20 name)).2 = finderinfo s
  set_code (s : σ) (bs : Bytes) : bs.length = 32 → (P.respond s (.setfiledirparms did name bs)).1.code = kFPNoErr
  set_keeps (s : σ) (bs : Bytes) : bs.length = 32 → finderinfo (P.respond s (.setfiledirparms did name bs)).2 = bs

section Statements
variable {σ : Type} (P : Peer σ) (v : Volume) (finderinfo : σ → Bytes) (k : Client σ) (fp : FileHandle) (offset : Nat)

/-- A read puts the bytes of the finder info from the offset on to the start of the buffer. -/
def ReadsFinderInfo (buf : Bytes) (pos size : Nat) : Prop :=
  ∃ eof buf' fp' k',
    appledoubleRead P v k buf pos size offset fp = .ok ((1, min size (32 - offset), eof, buf', fp'), k') ∧
      slice buf' pos (min size (32 - offset)) = slice (finderinfo k.peer) offset (min size (32 - offset))

/-- A write replaces the bytes from the offset on and keeps the others. -/
def WritesFinderInfo (d : Bytes) : Prop :=
  ∃ fp' k', appledoubleWrite P v k fp d offset = .ok ((1, min d.length (32 - offset), fp'), k') ∧
    finderinfo k'.peer = patch (finderinfo k.peer) offset (d.take (min d.length (32 - offset)))

def commentAnswer : Reply :=
  ((k.call P (.getfiledirparms fp.did 0x20 0x20 fp.basename)).2.call P (.getcomment 0 fp.basename)).1

end Statements

section Proofs
variable {σ : Type} {P : Peer σ} {v : Volume} {finderinfo : σ → Bytes} {k : Client σ} {fp : FileHandle} {offset pos size : Nat}
  {buf bs : Bytes}

lemma store_eq_ok {buf' : Bytes} : store buf pos bs = .ok buf' ↔ pos + bs.length ≤ buf.length ∧ patch buf pos bs = buf' := by
  rw [store]
  split
  case isTrue h => exact ⟨fun heq => ⟨h, Except.ok.inj heq⟩, fun heq => congrArg Except.ok heq.2⟩
  case isFalse h => exact ⟨nofun, fun heq => absurd heq.1 h⟩

lemma readComment_first (heof : fp.eof = false) (hcode : (k.call P (.getcomment fp.did fp.basename)).1.code = kFPNoErr)
    (amount : Nat) (eof : Bool) :
    readComment P k amount eof buf pos size fp =
      (store buf pos ((k.call P (.getcomment fp.did fp.basename)).1.data.take size)).map fun buf =>
        ((1, ((k.call P (.getcomment fp.did fp.basename)).1.data.take size).length, true, buf, { fp with eof := true }),
          (k.call P (.getcomment fp.did fp.basename)).2) := by
  rw [readComment, if_neg (by rw [heof]; decide)]
  simp only [if_pos hcode]

lemma readComment_one {amount amount' : Nat} {eof eof' : Bool} {buf' : Bytes} {fp' : FileHandle} {k' : Client σ}
    (heof : fp.eof = false) (h : readComment P k amount eof buf pos size fp = .ok ((1, amount', eof', buf', fp'), k')) :
    (k.call P (.getcomment fp.did fp.basename)).1.code = kFPNoErr ∧
      store buf pos ((k.call P (.getcomment fp.did fp.basename)).1.data.take size) = .ok buf' ∧
      ((k.call P (.getcomment fp.did fp.basename)).1.data.take size).length = amount' := by
  by_cases hcode : (k.call P (.getcomment fp.did fp.basename)).1.code = kFPNoErr
  · rw [readComment_first heof hcode] at h
    obtain ⟨stored, hstore, h⟩ := map_eq_ok h
    cases h
    exact ⟨hcode, hstore, rfl⟩
  · rw [readComment, if_neg (by rw [heof]; decide)] at h
    simp only [if_neg hcode] at h
    have hret := congrArg (fun r => r.1.1) (Except.ok.inj h)
    exact absurd hret (switch_spec (fun _ e => -e ≠ 1) (by decide) fun _ => by decide)

lemma readsFinderInfo_iff (hP : KeepsFinderInfo P fp.did fp.basename finderinfo) (hfork : fp.resource = .finderinfo)
    (hoffset : offset < 32) :
    ReadsFinderInfo P v finderinfo k fp offset buf pos size ↔
      pos + offset + min size (32 - offset) ≤ buf.length ∧ (commentAnswer P k fp).code = kFPNoErr ∧
        (commentAnswer P k fp).data.take size = slice (finderinfo k.peer) offset (min size (32 - offset)) := by
  have hF : (slice (finderinfo k.peer) offset (min size (32 - offset))).length = min size (32 - offset) := by
    apply slice_length
    rw [hP.length]
    omega
  have htake : ((k.call P (.getfiledirparms fp.did 0x20 0x20 fp.basename)).1.data.take (min size (32 - offset))).length =
      min size (32 - offset) := by
    apply List.length_take_of_le
    rw [show (k.call P _).1.data = finderinfo k.peer from hP.get_data k.peer, hP.length]
    omega
  rw [ReadsFinderInfo, appledoubleRead_finderinfo hfork (Nat.le_of_lt hoffset) (hP.get_code k.peer)]
  generalize (k.call P (.getfiledirparms fp.did 0x20 0x20 fp.basename)).1.data.take (min size (32 - offset)) = told at htake ⊢
  constructor
  · rintro ⟨eof, buf', fp', k', h, hslice⟩
    obtain ⟨buf₁, hstore₁, h⟩ := bind_eq_ok h
    obtain ⟨hcode, hstore, hlength⟩ := readComment_one rfl h
    obtain ⟨hfits, rfl⟩ := store_eq_ok.mp hstore
    rw [← hlength, slice_patch_self (Nat.le_of_add_right_le hfits), hlength] at hslice
    have hfits₁ := (store_eq_ok.mp hstore₁).1
    rw [htake] at hfits₁
    exact ⟨hfits₁, hcode, hslice⟩
  · rintro ⟨hfits, hcode, hdata⟩
    rw [← htake] at hfits
    have hlength : ((commentAnswer P k fp).data.take size).length = min size (32 - offset) := by rw [hdata, hF]
    have hfits₂ : pos + ((commentAnswer P k fp).data.take size).length ≤ (patch buf (pos + offset) told).length := by
      rw [patch_length hfits, hlength]
      omega
    rw [store_eq_ok.mpr ⟨hfits, rfl⟩]
    have hstore₂ := store_eq_ok.mpr ⟨hfits₂, rfl⟩
    rw [← hdata, ← hlength, Except.bind, readComment_first]
    · exact ⟨true, _, _, _, congrArg (Except.map _) hstore₂, slice_patch_self (Nat.le_of_add_right_le hfits₂)⟩
    · rfl
    · exact hcode

lemma towrite_eq_iff (hoffset : offset < 32) (n : Nat) :
    min (int32 (n % 2 ^ 32)) (32 - (offset : Int)) = (min n (32 - offset) : Nat) ↔
      ((min n (32 - offset) : Nat) : Int) ≤ int32 (n % 2 ^ 32) := by
  rw [int32]
  split <;> omega

lemma appledoubleWrite_overread {d : Bytes} (hfork : fp.resource = .finderinfo) (hoffset : offset < 32)
    (hcode : (k.call P (.getfiledirparms fp.did 0x20 0x20 fp.basename)).1.code = kFPNoErr)
    (hneg : min (int32 (d.length % 2 ^ 32)) (32 - (offset : Int)) < 0) :
    appledoubleWrite P v k fp d offset = .error .overread := by
  rw [appledoubleWrite, hfork]
  simp only [if_neg (Nat.not_le.mpr hoffset), hcode, if_neg (show ¬ kFPNoErr < 0 by decide), if_pos hneg]

lemma appledoubleWrite_sends {d : Bytes} {n : Nat} (hfork : fp.resource = .finderinfo) (hoffset : offset < 32)
    (hcode : (k.call P (.getfiledirparms fp.did 0x20 0x20 fp.basename)).1.code = kFPNoErr)
    (hn : min (int32 (d.length % 2 ^ 32)) (32 - (offset : Int)) = n)
    (hset : ((k.call P (.getfiledirparms fp.did 0x20 0x20 fp.basename)).2.call P
      (.setfiledirparms fp.did fp.basename (patch fp.finderinfo offset (d.take n)))).1.code = kFPNoErr) :
    appledoubleWrite P v k fp d offset =
      .ok ((1, n, { fp with finderinfo := patch fp.finderinfo offset (d.take n) }),
        ((k.call P (.getfiledirparms fp.did 0x20 0x20 fp.basename)).2.call P
          (.setfiledirparms fp.did fp.basename (patch fp.finderinfo offset (d.take n)))).2) := by
  rw [appledoubleWrite, hfork]
  simp only [if_neg (Nat.not_le.mpr hoffset), hcode, if_neg (show ¬ kFPNoErr < 0 by decide), hn,
    if_neg (Int.not_lt.mpr (Int.natCast_nonneg n)), Int.toNat_natCast, hset,
    if_neg (show ¬ kFPNoErr = kFPAccessDenied by decide), if_neg (show ¬ kFPNoErr = kFPObjectNotFound by decide)]

lemma writesFinderInfo_iff {d : Bytes} (hP : KeepsFinderInfo P fp.did fp.basename finderinfo)
    (hfork : fp.resource = .finderinfo) (hlength : fp.finderinfo.length = 32) (hoffset : offset < 32) :
    WritesFinderInfo P v finderinfo k fp offset d ↔
      ((min d.length (32 - offset) : Nat) : Int) ≤ int32 (d.length % 2 ^ 32) ∧
        fp.finderinfo.take offset = (finderinfo k.peer).take offset ∧
        fp.finderinfo.drop (offset + min d.length (32 - offset)) =
          (finderinfo k.peer).drop (offset + min d.length (32 - offset)) := by
  have hF := hP.length k.peer
  rw [← towrite_eq_iff hoffset, WritesFinderInfo]
  rcases Int.lt_or_le (min (int32 (d.length % 2 ^ 32)) (32 - (offset : Int))) 0 with hneg | hpos
  · rw [appledoubleWrite_overread hfork hoffset (hP.get_code k.peer) hneg]
    refine iff_of_false nofun fun h => ?_
    omega
  obtain ⟨n, hn⟩ := Int.eq_ofNat_of_zero_le hpos
  have hfits : offset + (d.take n).length ≤ fp.finderinfo.length := by
    rw [List.length_take, hlength]
    omega
  have hpatch : (patch fp.finderinfo offset (d.take n)).length = 32 := (patch_length hfits).trans hlength
  rw [appledoubleWrite_sends hfork hoffset (hP.get_code k.peer) hn (hP.set_code _ _ hpatch), hn, Int.natCast_inj]
  have hkept := hP.set_keeps (P.respond k.peer (.getfiledirparms fp.did 0x20 0x20 fp.basename)).2 _ hpatch
  have hrest_iff (hmin : n = min d.length (32 - offset)) := by
    have htake : (d.take n).length = n := List.length_take_of_le (by omega)
    have hsame : patch fp.finderinfo offset (d.take n) = patch (finderinfo k.peer) offset (d.take n) ↔ _ :=
      patch_eq_patch_iff (by omega) (by omega)
    rwa [htake] at hsame
  constructor
  · rintro ⟨fp', k', h, hset⟩
    cases h
    exact ⟨rfl, (hrest_iff rfl).mp (hkept.symm.trans hset)⟩
  · rintro ⟨rfl, hrest⟩
    exact ⟨_, _, rfl, hkept.trans ((hrest_iff rfl).mpr hrest)⟩

end Proofs

/-- A read is right if and only if the first bytes have room at `buf+offset` and the answer about a comment is just what
should be read; a write is right if and only if `int towrite` is not cut short and the record agrees with the server on the
bytes that are not written. -/
theorem finderinfo_file_iff {σ : Type} (P : Peer σ) (v : Volume) (finderinfo : σ → Bytes) (k : Client σ) (fp : FileHandle)
    (hP : KeepsFinderInfo P fp.did fp.basename finderinfo) (hfork : fp.resource = .finderinfo)
    (hlength : fp.finderinfo.length = 32) (offset : Nat) (hoffset : offset < 32) (buf : Bytes) (pos size : Nat) (d : Bytes) :
    (ReadsFinderInfo P v finderinfo k fp offset buf pos size ↔
      pos + offset + min size (32 - offset) ≤ buf.length ∧ (commentAnswer P k fp).code = kFPNoErr ∧
        (commentAnswer P k fp).data.take size = slice (finderinfo k.peer) offset (min size (32 - offset))) ∧
    (WritesFinderInfo P v finderinfo k fp offset d ↔
      ((min d.length (32 - offset) : Nat) : Int) ≤ int32 (d.length % 2 ^ 32) ∧
        fp.finderinfo.take offset = (finderinfo k.peer).take offset ∧
        fp.finderinfo.drop (offset + min d.length (32 - offset)) =
          (finderinfo k.peer).drop (offset + min d.length (32 - offset))) :=
  ⟨readsFinderInfo_iff hP hfork hoffset, writesFinderInfo_iff hP hfork hlength hoffset⟩

def finderinfoServer (comment : Option Bytes) : Peer { bs : Bytes // bs.length = 32 } where
  query _ _ _ := none
  respond s r :=
    match r with
    | .getfiledirparms .. => (⟨kFPNoErr, 0, s, 0⟩, s)
    | .setfiledirparms _ _ bs => (⟨kFPNoErr, 0, [], 0⟩, if h : bs.length = 32 then ⟨bs, h⟩ else s)
    | .getcomment .. =>
      match comment with
      | some c => (⟨kFPNoErr, 0, c, 0⟩, s)
      | none => (⟨kFPItemNotFound, 0, [], 0⟩, s)
    | _ => (⟨kFPNoErr, 0, [], 0⟩, s)

lemma finderinfoServer_keeps (comment : Option Bytes) (did : Nat) (name : Bytes) :
    KeepsFinderInfo (finderinfoServer comment) did name Subtype.val where
  length s := s.2
  get_code _ := rfl
  get_data _ := rfl
  get_keeps _ := rfl
  set_code _ _ _ := rfl
  set_keeps _ _ h := congrArg Subtype.val (dif_pos h)

def finderinfoClient : Client { bs : Bytes // bs.length = 32 } := .start ⟨List.replicate 32 7, rfl⟩ .empty

def finderinfoFile : FileHandle := ⟨0, 0, .finderinfo, 2, [97], List.replicate 32 0, false⟩

theorem finderinfo_file_whole :
    ReadsFinderInfo (finderinfoServer (some (List.replicate 32 7))) plainVolume Subtype.val finderinfoClient finderinfoFile 0
        (List.replicate 32 0) 0 32 ∧
      WritesFinderInfo (finderinfoServer none) plainVolume Subtype.val finderinfoClient finderinfoFile 0 (List.replicate 32 9) :=
  ⟨(finderinfo_file_iff (finderinfoServer (some (List.replicate 32 7))) plainVolume Subtype.val finderinfoClient finderinfoFile
      (finderinfoServer_keeps _ 2 [97]) rfl rfl 0 (by decide) (List.replicate 32 0) 0 32 []).1.mpr ⟨by decide, rfl, rfl⟩,
    (finderinfo_file_iff (finderinfoServer none) plainVolume Subtype.val finderinfoClient finderinfoFile
      (finderinfoServer_keeps _ 2 [97]) rfl rfl 0 (by decide) [] 0 0 (List.replicate 32 9)).2.mpr ⟨by decide, rfl, rfl⟩⟩

/-- Without a comment nothing can be read, and with one it is the comment that is read. A byte that is written clears the others. -/
theorem finderinfo_file_fails :
    (appledoubleRead (finderinfoServer none) plainVolume finderinfoClient (List.replicate 32 0) 0 32 0 finderinfoFile).map
        (·.1.1) = .ok (-ENOENT) ∧
      (appledoubleRead (finderinfoServer (some [104, 105])) plainVolume finderinfoClient (List.replicate 32 0) 0 32 0
        finderinfoFile).map (fun r => (r.1.1, r.1.2.1, r.1.2.2.2.1)) = .ok (1, 2, 104 :: 105 :: List.replicate 30 7) ∧
      (appledoubleWrite (finderinfoServer none) plainVolume finderinfoClient finderinfoFile [9] 4).map
        (fun r => (r.1.1, r.1.2.1, r.2.peer.1)) = .ok (1, 1, patch (List.replicate 32 0) 4 [9]) :=
  ⟨rfl, rfl, rfl⟩

end AfpfsNg.Fork
