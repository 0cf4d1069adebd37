import Mathlib.Data.List.Forall2
import AfpfsNg.Base.Records
import AfpfsNg.Afp.Volume

/-!
# Parameters of files and directories

`parse_reply_block` (`lib/proto_replyblock.c`) reads the parameters of a file or a directory that a reply
carries. The code is a sequence of blocks `if (bitmap & bit) { ... p2+=width; }`; here it is a table with
one entry for each block, in the same order. `none` is a read behind the end of the packet. `refEncode` is the server's side.
For a directory the bit 0x4000 has no meaning; the code reads the length of a resource fork there.
-/

namespace AfpfsNg.Proto
open AfpfsNg.Base AfpfsNg.Afp

@[ext] structure Unixprivs where
  uid : UInt32
  gid : UInt32
  permissions : UInt32
  uaPermissions : UInt32
  deriving DecidableEq, Repr

/-- What a reply can set of C `struct afp_file_info`. The arrays are lists of their length. -/
@[ext] structure AfpFileInfo where
  attributes : UInt16
  did : UInt32
  creationDate : UInt32
  modificationDate : UInt32
  backupDate : UInt32
  fileid : UInt32
  offspring : UInt16
  finderinfo : Bytes
  name : Bytes
  unixprivs : Unixprivs
  accessrights : UInt32
  isdir : UInt8
  size : UInt64
  resourcesize : UInt64
  deriving DecidableEq, Repr

/-- An array of `n` bytes that starts with `bs` and has zeros behind. -/
def zeroPadded (n : Nat) (bs : Bytes) : Bytes := bs ++ List.replicate (n - bs.length) 0

def AfpFileInfo.zero : AfpFileInfo :=
  ⟨0, 0, 0, 0, 0, 0, 0, zeroPadded 32 [], zeroPadded afpMaxPath [], ⟨0, 0, 0, 0⟩, 0, 0, 0, 0⟩

def kFPAttributeBit : Nat := 0x1
def kFPParentDirIDBit : Nat := 0x2
def kFPCreateDateBit : Nat := 0x4
def kFPModDateBit : Nat := 0x8
def kFPBackupDateBit : Nat := 0x10
def kFPFinderInfoBit : Nat := 0x20
def kFPLongNameBit : Nat := 0x40
def kFPShortNameBit : Nat := 0x80
def kFPNodeIDBit : Nat := 0x100
def kFPOffspringCountBit : Nat := 0x200
def kFPOwnerIDBit : Nat := 0x400
def kFPGroupIDBit : Nat := 0x800
def kFPAccessRightsBit : Nat := 0x1000
def kFPUTF8NameBit : Nat := 0x2000
def kFPUnixPrivsBit : Nat := 0x8000
def kFPDataForkLenBit : Nat := 0x200
def kFPRsrcForkLenBit : Nat := 0x400
def kFPExtDataForkLenBit : Nat := 0x800
def kFPLaunchLimitBit : Nat := 0x1000
def kFPExtRsrcForkLenBit : Nat := 0x4000

/-- C `ntohs`, `ntohl` and `ntoh64`. -/
def ntohs (bs : Bytes) : UInt16 := UInt16.ofNat (beNat bs)
def ntohl (bs : Bytes) : UInt32 := UInt32.ofNat (beNat bs)
def ntoh64 (bs : Bytes) : UInt64 := UInt64.ofNat (beNat bs)

def adDateDelta : UInt32 := 946684800

def adDateToUnix (bs : Bytes) : UInt32 := ntohl bs + adDateDelta

def number (bit n : Nat) (store : Bytes → AfpFileInfo → AfpFileInfo) : Base.Field AfpFileInfo :=
  ⟨bit, n, .here n, store⟩

def commonFields : List (Base.Field AfpFileInfo) :=
  [ number kFPAttributeBit 2 fun bs r => { r with attributes := ntohs bs },
    number kFPParentDirIDBit 4 fun bs r => { r with did := ntohl bs },
    number kFPCreateDateBit 4 fun bs r => { r with creationDate := adDateToUnix bs },
    number kFPModDateBit 4 fun bs r => { r with modificationDate := adDateToUnix bs },
    number kFPBackupDateBit 4 fun bs r => { r with backupDate := adDateToUnix bs },
    number kFPFinderInfoBit 32 fun bs r => { r with finderinfo := bs },
    -- `copy_from_pascal` clears the name first
    ⟨kFPLongNameBit, 2, .string 0 1 afpMaxPath, fun bs r => { r with name := zeroPadded afpMaxPath bs }⟩,
    ⟨kFPShortNameBit, 2, .skip, fun _ r => r⟩,
    number kFPNodeIDBit 4 fun bs r => { r with fileid := ntohl bs } ]

def dirFields : List (Base.Field AfpFileInfo) :=
  [ number kFPOffspringCountBit 2 fun bs r => { r with offspring := ntohs bs },
    number kFPOwnerIDBit 4 fun bs r => { r with unixprivs.uid := ntohl bs },
    number kFPGroupIDBit 4 fun bs r => { r with unixprivs.gid := ntohl bs },
    number kFPAccessRightsBit 4 fun bs r => { r with accessrights := ntohl bs } ]

def fileFields : List (Base.Field AfpFileInfo) :=
  [ number kFPDataForkLenBit 4 fun bs r => { r with size := (ntohl bs).toUInt64 },
    number kFPRsrcForkLenBit 4 fun bs r => { r with resourcesize := (ntohl bs).toUInt64 },
    number kFPExtDataForkLenBit 8 fun bs r => { r with size := ntoh64 bs },
    ⟨kFPLaunchLimitBit, 2, .skip, fun _ r => r⟩ ]

def trailingFields : List (Base.Field AfpFileInfo) :=
  [ -- `copy_from_pascal_two` returns before the name is cleared when the length is 0
    ⟨kFPUTF8NameBit, 6, .string 4 2 afpMaxPath, fun bs r =>
      if bs = [] then r else { r with name := zeroPadded afpMaxPath bs }⟩,
    number kFPExtRsrcForkLenBit 8 fun bs r => { r with resourcesize := ntoh64 bs },
    number kFPUnixPrivsBit 16 fun bs r =>
      { r with unixprivs := ⟨ntohl (slice bs 0 4), ntohl (slice bs 4 4), ntohl (slice bs 8 4),
          ntohl (slice bs 12 4)⟩ } ]

def replyFields (isdir : Bool) : List (Base.Field AfpFileInfo) :=
  commonFields ++ ((if isdir then dirFields else fileFields) ++ trailingFields)

/-- C `parse_reply_block`; `buf` reaches to the end of the packet. -/
def parseReplyBlock (buf : Bytes) (isdir : UInt8) (filebitmap dirbitmap : Nat) : Option AfpFileInfo :=
  let bitmap := (if isdir ≠ 0 then dirbitmap else filebitmap) % 65536
  readFields bitmap buf (replyFields (isdir ≠ 0)) 0 { AfpFileInfo.zero with isdir }

structure Params where
  attributes : UInt16
  parentDirID : UInt32
  createDate : UInt32
  modDate : UInt32
  backupDate : UInt32
  finderInfo : Bytes
  longName : Bytes
  shortName : Bytes
  nodeID : UInt32
  offspring : UInt16
  owner : UInt32
  group : UInt32
  accessRights : UInt32
  dataForkLen : UInt32
  rsrcForkLen : UInt32
  extDataForkLen : UInt64
  launchLimit : UInt16
  textEncoding : UInt32
  utf8Name : Bytes
  extRsrcForkLen : UInt64
  unixprivs : Unixprivs
  finderInfo_length : finderInfo.length = 32
  longName_length : longName.length < 256
  shortName_length : shortName.length < 256
  utf8Name_length : utf8Name.length < afpMaxPath

lemma length_nil_lt_pascal : ([] : Bytes).length < 256 := by decide

lemma length_nil_lt_path : ([] : Bytes).length < afpMaxPath := by decide

/-- The parameters in ascending order of their bits. -/
def refParts (isdir : Bool) (P : Params) : List (Nat × Part) :=
  common ++ ((if isdir then directory else file) ++ trailing)
where
  common : List (Nat × Part) :=
    [ (0x1, .fixed (beBytes 2 P.attributes.toNat)),
      (0x2, .fixed (beBytes 4 P.parentDirID.toNat)),
      (0x4, .fixed (beBytes 4 P.createDate.toNat)),
      (0x8, .fixed (beBytes 4 P.modDate.toNat)),
      (0x10, .fixed (beBytes 4 P.backupDate.toNat)),
      (0x20, .fixed P.finderInfo),
      (0x40, .apart [] 1 P.longName 0),
      (0x80, .apart [] 1 P.shortName 0),
      (0x100, .fixed (beBytes 4 P.nodeID.toNat)) ]
  directory : List (Nat × Part) :=
    [ (0x200, .fixed (beBytes 2 P.offspring.toNat)),
      (0x400, .fixed (beBytes 4 P.owner.toNat)),
      (0x800, .fixed (beBytes 4 P.group.toNat)),
      (0x1000, .fixed (beBytes 4 P.accessRights.toNat)) ]
  file : List (Nat × Part) :=
    [ (0x200, .fixed (beBytes 4 P.dataForkLen.toNat)),
      (0x400, .fixed (beBytes 4 P.rsrcForkLen.toNat)),
      (0x800, .fixed (beBytes 8 P.extDataForkLen.toNat)),
      (0x1000, .fixed (beBytes 2 P.launchLimit.toNat)) ]
  trailing : List (Nat × Part) :=
    [ (0x2000, .apart (beBytes 4 P.textEncoding.toNat) 2 P.utf8Name 4),
      (0x4000, .fixed (beBytes 8 P.extRsrcForkLen.toNat)),
      (0x8000, .fixed (beBytes 4 P.unixprivs.uid.toNat ++ (beBytes 4 P.unixprivs.gid.toNat ++
        (beBytes 4 P.unixprivs.permissions.toNat ++ beBytes 4 P.unixprivs.uaPermissions.toNat)))) ]

/-- The block of a reply for the parameters that the bitmap selects. -/
def refEncode (isdir : Bool) (bitmap : Nat) (P : Params) : Bytes := layout bitmap (refParts isdir P)

/-- The record a client should have then: each parameter in its field, the newer form before the older one. -/
def decoded (isdir : UInt8) (bitmap : Nat) (P : Params) : AfpFileInfo where
  attributes := if bitmap &&& 0x1 = 0 then 0 else P.attributes
  did := if bitmap &&& 0x2 = 0 then 0 else P.parentDirID
  creationDate := if bitmap &&& 0x4 = 0 then 0 else P.createDate + adDateDelta
  modificationDate := if bitmap &&& 0x8 = 0 then 0 else P.modDate + adDateDelta
  backupDate := if bitmap &&& 0x10 = 0 then 0 else P.backupDate + adDateDelta
  fileid := if bitmap &&& 0x100 = 0 then 0 else P.nodeID
  offspring := if isdir = 0 ∨ bitmap &&& 0x200 = 0 then 0 else P.offspring
  finderinfo := if bitmap &&& 0x20 = 0 then zeroPadded 32 [] else P.finderInfo
  name := zeroPadded afpMaxPath <|
    if bitmap &&& 0x2000 = 0 ∨ P.utf8Name = [] then (if bitmap &&& 0x40 = 0 then [] else P.longName)
    else P.utf8Name
  unixprivs :=
    if bitmap &&& 0x8000 = 0 then
      { uid := if isdir = 0 ∨ bitmap &&& 0x400 = 0 then 0 else P.owner
        gid := if isdir = 0 ∨ bitmap &&& 0x800 = 0 then 0 else P.group
        permissions := 0
        uaPermissions := 0 }
    else P.unixprivs
  accessrights := if isdir = 0 ∨ bitmap &&& 0x1000 = 0 then 0 else P.accessRights
  isdir := isdir
  size :=
    if isdir ≠ 0 then 0
    else if bitmap &&& 0x800 = 0 then (if bitmap &&& 0x200 = 0 then 0 else P.dataForkLen.toUInt64)
    else P.extDataForkLen
  resourcesize :=
    if bitmap &&& 0x4000 = 0 then
      (if isdir ≠ 0 ∨ bitmap &&& 0x400 = 0 then 0 else P.rsrcForkLen.toUInt64)
    else P.extRsrcForkLen

@[simp] lemma ntohs_beBytes (x : UInt16) : ntohs (beBytes 2 x.toNat) = x := by
  rw [ntohs, beNat_beBytes_of_lt x.toNat_lt, UInt16.ofNat_toNat]

@[simp] lemma ntohl_beBytes (x : UInt32) : ntohl (beBytes 4 x.toNat) = x := by
  rw [ntohl, beNat_beBytes_of_lt x.toNat_lt, UInt32.ofNat_toNat]

@[simp] lemma ntoh64_beBytes (x : UInt64) : ntoh64 (beBytes 8 x.toNat) = x := by
  rw [ntoh64, beNat_beBytes_of_lt x.toNat_lt, UInt64.ofNat_toNat]

lemma number_matches {bit n : Nat} {store : Bytes → AfpFileInfo → AfpFileInfo} {bs : Bytes}
    (hn : bs.length = n) : (number bit n store).Matches (bit, .fixed bs) := by
  subst hn
  exact ⟨rfl, rfl, .fixed bs⟩

lemma commonFields_match (P : Params) : List.Forall₂ Base.Field.Matches commonFields (refParts.common P) := by
  have hname : (Source.string 0 1 afpMaxPath).Understands (.apart [] 1 P.longName 0) :=
    .string [] 1 P.longName 0 afpMaxPath P.longName_length
      (Nat.le_of_lt (Nat.lt_trans P.longName_length (by decide)))
  exact .cons (number_matches (length_beBytes ..)) <| .cons (number_matches (length_beBytes ..)) <|
    .cons (number_matches (length_beBytes ..)) <| .cons (number_matches (length_beBytes ..)) <|
    .cons (number_matches (length_beBytes ..)) <| .cons (number_matches P.finderInfo_length) <|
    .cons ⟨rfl, rfl, hname⟩ <| .cons ⟨rfl, rfl, .skip _⟩ <|
    .cons (number_matches (length_beBytes ..)) .nil

lemma dirFields_match (P : Params) : List.Forall₂ Base.Field.Matches dirFields (refParts.directory P) :=
  .cons (number_matches (length_beBytes ..)) <| .cons (number_matches (length_beBytes ..)) <|
    .cons (number_matches (length_beBytes ..)) <| .cons (number_matches (length_beBytes ..)) .nil

lemma fileFields_match (P : Params) : List.Forall₂ Base.Field.Matches fileFields (refParts.file P) :=
  .cons (number_matches (length_beBytes ..)) <| .cons (number_matches (length_beBytes ..)) <|
    .cons (number_matches (length_beBytes ..)) <| .cons ⟨rfl, rfl, .skip _⟩ .nil

lemma trailingFields_match (P : Params) : List.Forall₂ Base.Field.Matches trailingFields (refParts.trailing P) := by
  have hname : (Source.string 4 2 afpMaxPath).Understands
      (.apart (beBytes 4 P.textEncoding.toNat) 2 P.utf8Name 4) :=
    .string (beBytes 4 P.textEncoding.toNat) 2 P.utf8Name 4 afpMaxPath
      (Nat.lt_trans P.utf8Name_length (by decide)) (Nat.le_of_lt P.utf8Name_length)
  exact .cons ⟨rfl, rfl, hname⟩ <| .cons (number_matches (length_beBytes ..)) <|
    .cons (number_matches rfl) .nil

lemma replyFields_match (isdir : Bool) (P : Params) :
    List.Forall₂ Base.Field.Matches (replyFields isdir) (refParts isdir P) := by
  apply List.rel_append (commonFields_match P)
  apply List.rel_append _ (trailingFields_match P)
  cases isdir with
  | true => exact dirFields_match P
  | false => exact fileFields_match P

lemma refEncode_length (isdir : Bool) (bitmap : Nat) (P : Params) :
    (refEncode isdir bitmap P).length < 65536 := by
  apply Nat.lt_of_le_of_lt (length_layout_le ..)
  have hlong := P.longName_length
  have hshort := P.shortName_length
  have hutf8 := P.utf8Name_length
  rw [afpMaxPath] at hutf8
  cases isdir with
  | true =>
    simp [refParts, refParts.common, refParts.directory, refParts.trailing, Part.width, Part.away,
      P.finderInfo_length]
    grind
  | false =>
    simp [refParts, refParts.common, refParts.file, refParts.trailing, Part.width, Part.away,
      P.finderInfo_length]
    grind

lemma AfpFileInfo.ite_eq (c : Prop) [Decidable c] (r r' : AfpFileInfo) :
    (if c then r else r') =
      { attributes := if c then r.attributes else r'.attributes
        did := if c then r.did else r'.did
        creationDate := if c then r.creationDate else r'.creationDate
        modificationDate := if c then r.modificationDate else r'.modificationDate
        backupDate := if c then r.backupDate else r'.backupDate
        fileid := if c then r.fileid else r'.fileid
        offspring := if c then r.offspring else r'.offspring
        finderinfo := if c then r.finderinfo else r'.finderinfo
        name := if c then r.name else r'.name
        unixprivs := if c then r.unixprivs else r'.unixprivs
        accessrights := if c then r.accessrights else r'.accessrights
        isdir := if c then r.isdir else r'.isdir
        size := if c then r.size else r'.size
        resourcesize := if c then r.resourcesize else r'.resourcesize } := by
  split <;> rfl

lemma Unixprivs.ite_eq (c : Prop) [Decidable c] (r r' : Unixprivs) :
    (if c then r else r') =
      { uid := if c then r.uid else r'.uid
        gid := if c then r.gid else r'.gid
        permissions := if c then r.permissions else r'.permissions
        uaPermissions := if c then r.uaPermissions else r'.uaPermissions } := by
  split <;> rfl

lemma stored_common (bitmap : Nat) (P : Params) (r : AfpFileInfo) :
    stored bitmap commonFields (refParts.common P) r =
      { r with
        attributes := if bitmap &&& 0x1 = 0 then r.attributes else P.attributes
        did := if bitmap &&& 0x2 = 0 then r.did else P.parentDirID
        creationDate := if bitmap &&& 0x4 = 0 then r.creationDate else P.createDate + adDateDelta
        modificationDate := if bitmap &&& 0x8 = 0 then r.modificationDate else P.modDate + adDateDelta
        backupDate := if bitmap &&& 0x10 = 0 then r.backupDate else P.backupDate + adDateDelta
        finderinfo := if bitmap &&& 0x20 = 0 then r.finderinfo else P.finderInfo
        name := if bitmap &&& 0x40 = 0 then r.name else zeroPadded afpMaxPath P.longName
        fileid := if bitmap &&& 0x100 = 0 then r.fileid else P.nodeID } := by
  simp only [commonFields, refParts.common, stored, number, Source.taken, AfpFileInfo.ite_eq, ite_self,
    adDateToUnix, ntohs_beBytes, ntohl_beBytes]
  rfl

lemma stored_directory (bitmap : Nat) (P : Params) (r : AfpFileInfo) :
    stored bitmap dirFields (refParts.directory P) r =
      { r with
        offspring := if bitmap &&& 0x200 = 0 then r.offspring else P.offspring
        unixprivs := { r.unixprivs with
          uid := if bitmap &&& 0x400 = 0 then r.unixprivs.uid else P.owner
          gid := if bitmap &&& 0x800 = 0 then r.unixprivs.gid else P.group }
        accessrights := if bitmap &&& 0x1000 = 0 then r.accessrights else P.accessRights } := by
  simp only [dirFields, refParts.directory, stored, number, Source.taken, AfpFileInfo.ite_eq,
    Unixprivs.ite_eq, ite_self, ntohs_beBytes, ntohl_beBytes]
  rfl

lemma stored_file (bitmap : Nat) (P : Params) (r : AfpFileInfo) :
    stored bitmap fileFields (refParts.file P) r =
      { r with
        size :=
          if bitmap &&& 0x800 = 0 then
            (if bitmap &&& 0x200 = 0 then r.size else P.dataForkLen.toUInt64)
          else P.extDataForkLen
        resourcesize := if bitmap &&& 0x400 = 0 then r.resourcesize else P.rsrcForkLen.toUInt64 } := by
  simp only [fileFields, refParts.file, stored, number, Source.taken, AfpFileInfo.ite_eq, ite_self,
    ntohl_beBytes, ntoh64_beBytes]
  rfl

lemma unixprivs_beBytes (u : Unixprivs) :
    let bs := beBytes 4 u.uid.toNat ++ (beBytes 4 u.gid.toNat ++
      (beBytes 4 u.permissions.toNat ++ beBytes 4 u.uaPermissions.toNat))
    (⟨ntohl (slice bs 0 4), ntohl (slice bs 4 4), ntohl (slice bs 8 4), ntohl (slice bs 12 4)⟩ : Unixprivs) =
      u := by
  have hfield (a c : Bytes) (x : UInt32) : ntohl (slice (a ++ (beBytes 4 x.toNat ++ c)) a.length 4) = x := by
    rw [slice, List.drop_left, List.take_left' (length_beBytes ..), ntohl_beBytes]
  intro bs
  have huid := hfield [] (beBytes 4 u.gid.toNat ++ (beBytes 4 u.permissions.toNat ++
    beBytes 4 u.uaPermissions.toNat)) u.uid
  have hgid := hfield (beBytes 4 u.uid.toNat) (beBytes 4 u.permissions.toNat ++
    beBytes 4 u.uaPermissions.toNat) u.gid
  have hperm := hfield (beBytes 4 u.uid.toNat ++ beBytes 4 u.gid.toNat) (beBytes 4 u.uaPermissions.toNat)
    u.permissions
  have hua := hfield (beBytes 4 u.uid.toNat ++ (beBytes 4 u.gid.toNat ++ beBytes 4 u.permissions.toNat)) []
    u.uaPermissions
  simp only [List.append_assoc, List.append_nil] at hperm hua
  exact Unixprivs.ext huid hgid hperm hua

lemma stored_trailing (bitmap : Nat) (P : Params) (r : AfpFileInfo) :
    stored bitmap trailingFields (refParts.trailing P) r =
      { r with
        name :=
          if bitmap &&& 0x2000 = 0 then r.name
          else if P.utf8Name = [] then r.name else zeroPadded afpMaxPath P.utf8Name
        resourcesize := if bitmap &&& 0x4000 = 0 then r.resourcesize else P.extRsrcForkLen
        unixprivs := if bitmap &&& 0x8000 = 0 then r.unixprivs else P.unixprivs } := by
  simp only [trailingFields, refParts.trailing, stored, number, Source.taken, AfpFileInfo.ite_eq, ite_self,
    ntoh64_beBytes, unixprivs_beBytes]
  rfl

lemma stored_refParts (isdir : UInt8) (bitmap : Nat) (P : Params) :
    stored bitmap (replyFields (isdir ≠ 0)) (refParts (isdir ≠ 0) P) { AfpFileInfo.zero with isdir } =
      decoded isdir bitmap P := by
  have hname : (if bitmap &&& 0x2000 = 0 then
        (if bitmap &&& 0x40 = 0 then zeroPadded afpMaxPath [] else zeroPadded afpMaxPath P.longName)
      else if P.utf8Name = [] then
        (if bitmap &&& 0x40 = 0 then zeroPadded afpMaxPath [] else zeroPadded afpMaxPath P.longName)
      else zeroPadded afpMaxPath P.utf8Name) = (decoded isdir bitmap P).name := by
    simp only [decoded, apply_ite (zeroPadded afpMaxPath), ite_or]
  by_cases hdir : isdir = 0
  · have hfile : decide (isdir ≠ 0) = false := by simpa using hdir
    rw [hfile]
    show stored bitmap (commonFields ++ (fileFields ++ trailingFields))
      (refParts.common P ++ (refParts.file P ++ refParts.trailing P)) _ = _
    rw [stored_append bitmap rfl, stored_append bitmap rfl, stored_common, stored_file, stored_trailing]
    apply AfpFileInfo.ext
    case name => exact hname
    all_goals simp [decoded, AfpFileInfo.zero, hdir]
  · have hdirectory : decide (isdir ≠ 0) = true := by simpa using hdir
    rw [hdirectory]
    show stored bitmap (commonFields ++ (dirFields ++ trailingFields))
      (refParts.common P ++ (refParts.directory P ++ refParts.trailing P)) _ = _
    rw [stored_append bitmap rfl, stored_append bitmap rfl, stored_common, stored_directory, stored_trailing]
    apply AfpFileInfo.ext
    case name => exact hname
    all_goals simp [decoded, AfpFileInfo.zero, hdir]

lemma readFields_refEncode (isdir : UInt8) (bitmap : Nat) (P : Params) :
    readFields bitmap (refEncode (isdir ≠ 0) bitmap P) (replyFields (isdir ≠ 0)) 0 { AfpFileInfo.zero with isdir } =
      some (decoded isdir bitmap P) := by
  rw [refEncode, readFields_layout (replyFields_match _ P) (refEncode_length ..), stored_refParts]

/-- Reading what the server sends gives the parameters that the bitmap selects. -/
theorem reply_block_decoded (isdir : UInt8) (filebitmap dirbitmap : UInt16) (P : Params) :
    let bitmap := (if isdir ≠ 0 then dirbitmap else filebitmap).toNat
    parseReplyBlock (refEncode (isdir ≠ 0) bitmap P) isdir filebitmap.toNat dirbitmap.toNat =
      some (decoded isdir bitmap P) := by
  intro bitmap
  have hbitmap : (if isdir ≠ 0 then dirbitmap.toNat else filebitmap.toNat) % 65536 = bitmap := by
    rw [← apply_ite UInt16.toNat]
    exact Nat.mod_eq_of_lt (UInt16.toNat_lt _)
  rw [parseReplyBlock, hbitmap, readFields_refEncode]

/-- A file with the long name `a`, whose UTF-8 name is empty. -/
def unnamed : Params where
  attributes := 0
  parentDirID := 2
  createDate := 0
  modDate := 0
  backupDate := 0
  finderInfo := List.replicate 32 0
  longName := [97]
  shortName := []
  nodeID := 16
  offspring := 0
  owner := 0
  group := 0
  accessRights := 0
  dataForkLen := 0
  rsrcForkLen := 0
  extDataForkLen := 0
  launchLimit := 0
  textEncoding := 0
  utf8Name := []
  extRsrcForkLen := 0
  unixprivs := ⟨0, 0, 0, 0⟩
  finderInfo_length := rfl
  longName_length := by decide
  shortName_length := length_nil_lt_pascal
  utf8Name_length := length_nil_lt_path

/-- With both names selected and an empty name in UTF-8 the long name stays. -/
theorem reply_block_keeps_long_name :
    (parseReplyBlock (refEncode false 0x2040 unnamed) 0 0x2040 0).map AfpFileInfo.name =
        some (zeroPadded afpMaxPath unnamed.longName) ∧
      zeroPadded afpMaxPath unnamed.longName ≠ zeroPadded afpMaxPath unnamed.utf8Name := by
  constructor
  · rfl
  · decide +kernel

end AfpfsNg.Proto
