import AfpfsNg.Base.Arrays
import AfpfsNg.Base.Except
import AfpfsNg.Fork.Read
import AfpfsNg.Proto.Replies

/-!
# Fetching an entry

`ll_get_directory_entry` (`lib/lowlevel.c`) asks for some parameters of a file or directory and puts them into a record of the
caller. That may be the record of an open file, which also says what was opened. `parse_reply_block` clears the whole record
before it stores what the reply has, and `ll_get_directory_entry` puts back the base name only.

`FileRecord` is the whole record, `unselected` what of it a request does not ask for. `FileRecord.handle` is what the
operations on open files use of a record.
-/

namespace AfpfsNg.Fork
open AfpfsNg.Base AfpfsNg.Afp AfpfsNg.Proto

/-- C `struct afp_file_info`; `info` are the fields that a reply can set. A pointer is a number. -/
structure FileRecord where
  info : AfpFileInfo
  sync : UInt8
  basename : Bytes
  translatedName : Bytes
  next : Nat
  largelistNext : Nat
  resource : Meta
  forkid : UInt16
  icon : Nat
  eof : Int
  deriving DecidableEq, Repr

/-- The record that is cleared and then has these parameters. -/
def FileRecord.cleared (info : AfpFileInfo) : FileRecord :=
  ⟨info, 0, zeroPadded afpMaxPath [], zeroPadded afpMaxPath [], 0, 0, .none, 0, 0, 0⟩

/-- What the handler of the reply does to the record (C `afp_getfiledirparms_reply`). With a result other than 0 it does not come
to `parse_reply_block`. -/
def FileRecord.reply (fp : FileRecord) (buf : Bytes) : Option (Int × FileRecord) :=
  (afpGetfiledirparmsReply fp.info buf).map fun (ret, info) =>
    (ret, if ret = 0 then .cleared info else { fp with info := info })

/-- C `ll_get_directory_entry`, when `buf` answers the request: the result of the handler, and the record. -/
def llGetDirectoryEntry (fp : FileRecord) (buf : Bytes) : Option (Int × FileRecord) :=
  (fp.reply buf).map fun (ret, fp') => (ret, { fp' with basename := fp.basename })

/-- The bitmap that counts: a request has 16 bits for each of the two. -/
def requested (filebitmap dirbitmap : Nat) (isdir : UInt8) : Nat :=
  (if isdir ≠ 0 then dirbitmap else filebitmap) % 65536

/-- The parameters that the bitmap does not select, and zeros for the others. Every reply says whether this is a directory. -/
def unselectedInfo (isdir : Bool) (bitmap : Nat) (r : AfpFileInfo) : AfpFileInfo where
  attributes := if bitmap &&& kFPAttributeBit = 0 then r.attributes else 0
  did := if bitmap &&& kFPParentDirIDBit = 0 then r.did else 0
  creationDate := if bitmap &&& kFPCreateDateBit = 0 then r.creationDate else 0
  modificationDate := if bitmap &&& kFPModDateBit = 0 then r.modificationDate else 0
  backupDate := if bitmap &&& kFPBackupDateBit = 0 then r.backupDate else 0
  fileid := if bitmap &&& kFPNodeIDBit = 0 then r.fileid else 0
  offspring := if isdir ∧ bitmap &&& kFPOffspringCountBit ≠ 0 then 0 else r.offspring
  finderinfo := if bitmap &&& kFPFinderInfoBit = 0 then r.finderinfo else zeroPadded 32 []
  name :=
    if bitmap &&& kFPLongNameBit = 0 ∧ bitmap &&& kFPUTF8NameBit = 0 then r.name else zeroPadded afpMaxPath []
  unixprivs :=
    if bitmap &&& kFPUnixPrivsBit = 0 then
      { uid := if isdir ∧ bitmap &&& kFPOwnerIDBit ≠ 0 then 0 else r.unixprivs.uid
        gid := if isdir ∧ bitmap &&& kFPGroupIDBit ≠ 0 then 0 else r.unixprivs.gid
        permissions := r.unixprivs.permissions
        uaPermissions := r.unixprivs.uaPermissions }
    else ⟨0, 0, 0, 0⟩
  accessrights := if isdir ∧ bitmap &&& kFPAccessRightsBit ≠ 0 then 0 else r.accessrights
  isdir := 0
  size :=
    if ¬ isdir ∧ (bitmap &&& kFPDataForkLenBit ≠ 0 ∨ bitmap &&& kFPExtDataForkLenBit ≠ 0) then 0 else r.size
  resourcesize :=
    if (¬ isdir ∧ bitmap &&& kFPRsrcForkLenBit ≠ 0) ∨ bitmap &&& kFPExtRsrcForkLenBit ≠ 0 then 0
    else r.resourcesize

/-- The part of a record that a request with this bitmap does not ask for. -/
def unselected (isdir : Bool) (bitmap : Nat) (fp : FileRecord) : FileRecord :=
  { fp with info := unselectedInfo isdir bitmap fp.info }

/-- Apart from the base name, that part is cleared. -/
def Blank (isdir : Bool) (bitmap : Nat) (fp : FileRecord) : Prop :=
  unselected isdir bitmap fp = { FileRecord.cleared .zero with basename := fp.basename }

instance (isdir : Bool) (bitmap : Nat) (fp : FileRecord) : Decidable (Blank isdir bitmap fp) :=
  inferInstanceAs (Decidable (_ = _))

lemma unselectedInfo_zero (isdir : Bool) (bitmap : Nat) (d : UInt8) :
    unselectedInfo isdir bitmap { AfpFileInfo.zero with isdir := d } = .zero := by
  simp [unselectedInfo, AfpFileInfo.zero]

/-- The blocks of a table store nothing but what their bits select. -/
def StoresSelected (isdir : Bool) (bitmap : Nat) (fields : List (Base.Field AfpFileInfo)) : Prop :=
  ∀ f ∈ fields, bitmap &&& f.bit ≠ 0 → ∀ bs r,
    unselectedInfo isdir bitmap (f.store bs r) = unselectedInfo isdir bitmap r

lemma commonFields_storesSelected (isdir : Bool) (bitmap : Nat) : StoresSelected isdir bitmap commonFields := by
  simp only [StoresSelected, commonFields, number, List.forall_mem_cons]
  refine ⟨?_, ?_, ?_, ?_, ?_, ?_, ?_, ?_, ?_, List.forall_mem_nil _⟩
  all_goals
    intro hbit bs r
    simp [unselectedInfo, hbit]

lemma dirFields_storesSelected (bitmap : Nat) : StoresSelected true bitmap dirFields := by
  simp only [StoresSelected, dirFields, number, List.forall_mem_cons]
  refine ⟨?_, ?_, ?_, ?_, List.forall_mem_nil _⟩
  all_goals
    intro hbit bs r
    simp [unselectedInfo, hbit]

lemma fileFields_storesSelected (bitmap : Nat) : StoresSelected false bitmap fileFields := by
  simp only [StoresSelected, fileFields, number, List.forall_mem_cons]
  refine ⟨?_, ?_, ?_, ?_, List.forall_mem_nil _⟩
  all_goals
    intro hbit bs r
    simp [unselectedInfo, hbit]

lemma trailingFields_storesSelected (isdir : Bool) (bitmap : Nat) : StoresSelected isdir bitmap trailingFields := by
  simp only [StoresSelected, trailingFields, number, List.forall_mem_cons]
  refine ⟨?_, ?_, ?_, List.forall_mem_nil _⟩
  · intro hbit bs r
    split
    · rfl
    · simp [unselectedInfo, hbit]
  all_goals
    intro hbit bs r
    simp [unselectedInfo, hbit]

lemma replyFields_storesSelected (isdir : Bool) (bitmap : Nat) :
    StoresSelected isdir bitmap (replyFields isdir) := by
  intro f hf
  rcases List.mem_append.mp hf with hf | hf
  · exact commonFields_storesSelected isdir bitmap f hf
  rcases List.mem_append.mp hf with hf | hf
  · cases isdir with
    | false => exact fileFields_storesSelected bitmap f hf
    | true => exact dirFields_storesSelected bitmap f hf
  · exact trailingFields_storesSelected isdir bitmap f hf

variable {fp fp' : FileRecord} {buf : Bytes}

lemma getfiledirparms_unselected {fi fi' : AfpFileInfo} {filebitmap dirbitmap : Nat}
    (h : afpGetfiledirparmsReply fi buf = some (0, fi')) (hfile : beNat (slice buf 16 2) = filebitmap % 65536)
    (hdir : beNat (slice buf 18 2) = dirbitmap % 65536) :
    unselectedInfo (fi'.isdir ≠ 0) (requested filebitmap dirbitmap fi'.isdir) fi' = .zero := by
  obtain ⟨code, -, h⟩ := Option.bind_eq_some_iff.mp h
  split at h
  case isTrue hcode =>
    cases h
    exact absurd rfl hcode
  case isFalse =>
    split at h
    case isTrue => cases h
    case isFalse =>
      obtain ⟨d, -, h⟩ := Option.bind_eq_some_iff.mp h
      obtain ⟨r, hr, h⟩ := Option.bind_eq_some_iff.mp h
      cases h
      have hbitmap : (if d ≠ 0 then beNat (slice buf 18 2) else beNat (slice buf 16 2)) % 65536 =
          requested filebitmap dirbitmap d := by
        rw [hfile, hdir, ← apply_ite (· % 65536), Nat.mod_mod]
        rfl
      rw [parseReplyBlock, hbitmap] at hr
      calc unselectedInfo (d ≠ 0) (requested filebitmap dirbitmap d) { r with isdir := d }
        _ = unselectedInfo (d ≠ 0) (requested filebitmap dirbitmap d) r := rfl
        _ = unselectedInfo (d ≠ 0) (requested filebitmap dirbitmap d) { AfpFileInfo.zero with isdir := d } :=
          readFields_keeps (replyFields_storesSelected (d ≠ 0) _) hr
        _ = .zero := unselectedInfo_zero ..

lemma llGetDirectoryEntry_ok (h : llGetDirectoryEntry fp buf = some (0, fp')) :
    afpGetfiledirparmsReply fp.info buf = some (0, fp'.info) ∧
      fp' = { FileRecord.cleared fp'.info with basename := fp.basename } := by
  obtain ⟨⟨ret, fp₁⟩, h₁, h⟩ := Option.map_eq_some_iff.mp h
  obtain ⟨⟨ret', info⟩, hinfo, h₂⟩ := Option.map_eq_some_iff.mp h₁
  cases h₂
  cases h
  exact ⟨hinfo, rfl⟩

lemma unselected_fetched {filebitmap dirbitmap : Nat} (h : llGetDirectoryEntry fp buf = some (0, fp'))
    (hfile : beNat (slice buf 16 2) = filebitmap % 65536) (hdir : beNat (slice buf 18 2) = dirbitmap % 65536) :
    unselected (fp'.info.isdir ≠ 0) (requested filebitmap dirbitmap fp'.info.isdir) fp' =
      { FileRecord.cleared .zero with basename := fp.basename } := by
  obtain ⟨hinfo, hfp⟩ := llGetDirectoryEntry_ok h
  rw [unselected, getfiledirparms_unselected hinfo hfile hdir, hfp]
  rfl

/-- A successful reply to a request leaves the part of a record that was not asked for unchanged, if and only if there was
nothing in that part but the base name. -/
theorem directory_entry_frame_iff (fp fp' : FileRecord) (filebitmap dirbitmap : Nat) (buf : Bytes)
    (h : llGetDirectoryEntry fp buf = some (0, fp')) (hfile : beNat (slice buf 16 2) = filebitmap % 65536)
    (hdir : beNat (slice buf 18 2) = dirbitmap % 65536) :
    unselected (fp'.info.isdir ≠ 0) (requested filebitmap dirbitmap fp'.info.isdir) fp' =
        unselected (fp'.info.isdir ≠ 0) (requested filebitmap dirbitmap fp'.info.isdir) fp ↔
      Blank (fp'.info.isdir ≠ 0) (requested filebitmap dirbitmap fp'.info.isdir) fp := by
  rw [unselected_fetched h hfile hdir, Blank, eq_comm]

def freshRecord : FileRecord := { FileRecord.cleared .zero with basename := zeroPadded afpMaxPath [97] }

def finderinfoReply : Bytes := List.replicate 16 0 ++ ([0, 0x20, 0, 0x20, 0, 0] ++ List.replicate 32 7)

theorem directory_entry_frame_fresh :
    unselected false 0x20 { freshRecord with info.finderinfo := List.replicate 32 7 } =
      unselected false 0x20 freshRecord :=
  (directory_entry_frame_iff freshRecord { freshRecord with info.finderinfo := List.replicate 32 7 } 0x20 0x20
    finderinfoReply rfl (by decide) (by decide)).mpr rfl

/-- What the operations use of the record of an open file. -/
def FileRecord.handle (addr : Nat) (fp : FileRecord) : FileHandle :=
  ⟨addr, fp.forkid.toNat, fp.resource, fp.info.did.toNat, cString fp.basename, fp.info.finderinfo, fp.eof ≠ 0⟩

/-- On an open file a successful reply has the effect of `FileHandle.fetched`. -/
lemma handle_fetched (h : llGetDirectoryEntry fp buf = some (0, fp')) (addr : Nat) :
    fp'.handle addr = (fp.handle addr).fetched fp'.info.did.toNat fp'.info.finderinfo := by
  obtain ⟨-, hfp⟩ := llGetDirectoryEntry_ok h
  rw [hfp]
  rfl

section Runs
variable {σ : Type} {P : Peer σ} {v : Volume} {k : Client σ} {fp : FileHandle}

/-- The request of `ll_open` for the length of a resource fork. -/
def lengthRequest (fp : FileHandle) : Request := .getfiledirparms fp.did (0x2 ||| 0x100 ||| 0x400) 0 fp.basename

lemma checkSize_forgets {flags : OpenFlags} (hflags : flags.largefile = true) (hv : v.avNumber < 30)
    (hfork : fp.resource = .resource) (hcode : (k.call P (lengthRequest fp)).1.code = kFPNoErr) :
    checkSize P v k flags fp =
      ((0, fp.fetched (k.call P (lengthRequest fp)).1.refnum (List.replicate 32 0)), (k.call P (lengthRequest fp)).2) := by
  have hne : fp.resource ≠ .none := by
    rw [hfork]
    nofun
  rw [checkSize, if_pos ⟨hflags, hv⟩]
  simp only [if_neg hne]
  rw [← lengthRequest, hcode, if_neg (by decide), if_neg (by decide)]

/-- On a server with AFP 2 the length is asked for first, and then the data fork is opened though the resource fork was meant. -/
lemma llOpen_data_fork {flags : OpenFlags} (hflags : flags.largefile = true) (hv : v.avNumber < 30)
    (hfork : fp.resource = .resource) (hcode : (k.call P (lengthRequest fp)).1.code = kFPNoErr) : ∃ b rest,
      (llOpen P v k flags fp).2.sent = (k.call P (lengthRequest fp)).2.sent ++
        (.openfork false (k.call P (lengthRequest fp)).1.refnum (if flags.wronly ∨ flags.rdwr then 3 else 1) fp.basename, b) ::
          rest := by
  rw [llOpen, checkSize_forgets hflags hv hfork hcode]
  generalize (if flags.wronly ∨ flags.rdwr then 3 else 1) = mode
  simp only [ne_eq, not_true_eq_false, if_false]
  split
  · exact ⟨_, [], rfl⟩
  split
  · exact ⟨_, [_], List.append_assoc ..⟩
  · exact ⟨_, [], rfl⟩

/-- The finder info of a file, as the server tells it: it goes to `buf+offset`, and then the comment is read as for a file that is
no AppleDouble file. -/
lemma appledoubleRead_finderinfo {buf : Bytes} {pos size offset : Nat} (hfork : fp.resource = .finderinfo)
    (hoffset : offset ≤ 32) (hcode : (k.call P (.getfiledirparms fp.did 0x20 0x20 fp.basename)).1.code = kFPNoErr) :
    appledoubleRead P v k buf pos size offset fp =
      (store buf (pos + offset) ((k.call P (.getfiledirparms fp.did 0x20 0x20 fp.basename)).1.data.take
        (min size (32 - offset)))).bind fun buf =>
          readComment P (k.call P (.getfiledirparms fp.did 0x20 0x20 fp.basename)).2 (min size (32 - offset))
            (offset + min size (32 - offset) = 32) buf pos size
            (fp.fetched 0 (k.call P (.getfiledirparms fp.did 0x20 0x20 fp.basename)).1.data) := by
  rw [appledoubleRead, hfork]
  simp only [if_neg (Nat.not_lt.mpr hoffset), hcode, if_pos, if_neg (show ¬ kFPNoErr < 0 by decide)]
  rfl

lemma readComment_resource {buf buf' : Bytes} {amount amount' pos size : Nat} {eof eof' : Bool} {ret : Int} {fp' : FileHandle}
    {k' : Client σ} (h : readComment P k amount eof buf pos size fp = .ok ((ret, amount', eof', buf', fp'), k')) :
    fp'.resource = fp.resource := by
  rw [readComment] at h
  split at h
  case isTrue =>
    cases h
    rfl
  case isFalse =>
    simp only at h
    split at h
    case isTrue =>
      obtain ⟨stored, -, h⟩ := map_eq_ok h
      cases h
      rfl
    case isFalse =>
      cases h
      rfl

/-- After a read of a file of finder info its record does not say any more that it is one: the next read asks for nothing. -/
lemma appledoubleRead_twice {buf buf' : Bytes} {amount pos size offset : Nat} {eof : Bool} {ret : Int} {fp' : FileHandle}
    {k' : Client σ} (hfork : fp.resource = .finderinfo) (hoffset : offset ≤ 32)
    (hcode : (k.call P (.getfiledirparms fp.did 0x20 0x20 fp.basename)).1.code = kFPNoErr)
    (h : appledoubleRead P v k buf pos size offset fp = .ok ((ret, amount, eof, buf', fp'), k')) (pos' size' offset' : Nat) :
    appledoubleRead P v k' buf' pos' size' offset' fp' = .ok ((0, 0, false, buf', fp'), k') := by
  rw [appledoubleRead_finderinfo hfork hoffset hcode] at h
  obtain ⟨stored, -, h⟩ := bind_eq_ok h
  have hnone : fp'.resource = .none := readComment_resource h
  rw [appledoubleRead, hnone]
  rfl

end Runs

def agreeable : Peer Unit := ⟨fun _ _ _ => none, fun s _ => (⟨kFPNoErr, 5, List.replicate 32 7, 0⟩, s)⟩

def openRecord (kind : Meta) : FileRecord := { freshRecord with info.did := 9, resource := kind }

/-- The finder info for a record that says what is open: the directory and the kind of the file are gone. A second read asks
the server for nothing. -/
theorem directory_entry_frame_open_file : ∃ fp',
    llGetDirectoryEntry (openRecord .finderinfo) finderinfoReply = some (0, fp') ∧
      (fp'.info.did, fp'.resource) = (0, .none) ∧
      unselected false 0x20 fp' ≠ unselected false 0x20 (openRecord .finderinfo) ∧
      ((llOpen agreeable { plainVolume with avNumber := 22 } (.start () .empty) ⟨false, false, false, false, true⟩
          ((openRecord .resource).handle 0)).2.sent.map Prod.fst =
        [.getfiledirparms 9 0x502 0 [97], .openfork false 5 1 [97]]) ∧
      (appledoubleRead agreeable plainVolume (.start () .empty) (List.replicate 32 0) 0 32 0
          ((openRecord .finderinfo).handle 0)).bind (fun (r, k) =>
            (appledoubleRead agreeable plainVolume k r.2.2.2.1 0 32 0 r.2.2.2.2).map fun (_, k') =>
              (k.sent.length, k'.sent.length)) = .ok (2, 2) := by
  refine ⟨{ freshRecord with info.finderinfo := List.replicate 32 7 }, rfl, rfl, ?_, ?_, ?_⟩
  · intro h
    exact absurd (congrArg FileRecord.resource h) (by decide)
  · rfl
  · rfl

end AfpfsNg.Fork
