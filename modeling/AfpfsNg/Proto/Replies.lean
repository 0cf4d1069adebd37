import AfpfsNg.Proto.Enumerate

/-!
# Other replies

The handlers of `lib/proto_files.c`, `lib/proto_volume.c`, `lib/proto_server.c` and `lib/proto_desktop.c`
for the replies to FPGetFileDirParms, FPOpenVol, FPGetVolParms, FPGetSrvrParms and FPGetComment: the
return value, with what the handler took from the reply. `none` is a read behind the end of the packet. What
`afp_volopen_reply` and `afp_getsrvrparms_reply` do with the name of a volume that they already have is
left out: it does not look at the packet.
-/

namespace AfpfsNg.Proto
open AfpfsNg.Base AfpfsNg.Afp

def afpGetfiledirparmsReply (fi : AfpFileInfo) (buf : Bytes) : Option (Int × AfpFileInfo) := do
  let code ← errorCode buf
  if code ≠ 0 then return (code, fi)
  if buf.length < 22 then return (-1, fi)
  let isdir ← buf[20]?
  let fi ← parseReplyBlock (buf.drop 22) isdir (beNat (slice buf 16 2)) (beNat (slice buf 18 2))
  return (0, { fi with isdir })

structure VolParms where
  attributes : UInt16
  signature : UInt16
  creationDate : UInt32
  modificationDate : UInt32
  backupDate : UInt32
  volid : UInt16
  bfree : UInt64
  blocks : UInt64
  bsize : UInt64
  deriving DecidableEq, Repr

/-- The blocks of `parse_volbitmap_reply`, which all read a number. -/
def volFields : List (Base.Field VolParms) :=
  [ ⟨0x1, 2, .here 2, fun bs r => { r with attributes := ntohs bs }⟩,
    ⟨0x2, 2, .here 2, fun bs r => { r with signature := ntohs bs }⟩,
    ⟨0x4, 4, .here 4, fun bs r => { r with creationDate := adDateToUnix bs }⟩,
    ⟨0x8, 4, .here 4, fun bs r => { r with modificationDate := adDateToUnix bs }⟩,
    ⟨0x10, 4, .here 4, fun bs r => { r with backupDate := adDateToUnix bs }⟩,
    ⟨0x20, 2, .here 2, fun bs r => { r with volid := ntohs bs }⟩,
    ⟨0x40, 4, .here 4, fun bs r => { r with bfree := (ntohl bs).toUInt64 }⟩,
    ⟨0x80, 4, .here 4, fun bs r => { r with blocks := (ntohl bs).toUInt64 }⟩,
    -- the offset of the name goes to a variable that nothing looks at
    ⟨0x100, 2, .here 2, fun _ r => r⟩,
    ⟨0x200, 8, .here 8, fun bs r => { r with bfree := ntoh64 bs }⟩,
    ⟨0x400, 8, .here 8, fun bs r => { r with blocks := ntoh64 bs }⟩,
    ⟨0x800, 4, .here 4, fun bs r => { r with bsize := (ntohl bs).toUInt64 }⟩ ]

/-- C `parse_volbitmap_reply`. The one `checksize` compares before the read pointer has moved, so it
always passes. -/
def parseVolbitmapReply (vol : VolParms) (bitmap : Nat) (msg : Bytes) : Option (Int × VolParms) :=
  (readFields bitmap msg volFields 0 vol).map fun vol => (0, vol)

def afpVolopenReply (vol : VolParms) (buf : Bytes) : Option (Int × VolParms) :=
  if buf.length < 18 then some (-1, vol)
  else do
    let (ret, vol) ← parseVolbitmapReply vol (beNat (slice buf 16 2)) (buf.drop 18)
    if ret ≠ 0 then return (-1, vol)
    return (0, vol)

/-- C `afp_getvolparms_reply`; the volume may be `NULL`. -/
def afpGetvolparmsReply (vol : Option VolParms) (buf : Bytes) : Option (Int × Option VolParms) :=
  if buf.length < 18 then some (-1, vol)
  else
    match vol with
    | none => some (-1, none)
    | some vol => do
      let (ret, vol) ← parseVolbitmapReply vol (beNat (slice buf 16 2)) (buf.drop 18)
      if ret ≠ 0 then return (-1, some vol)
      return (0, some vol)

def afpVolumeNameLen : Nat := 33

/-- The string that C `copy_from_pascal` copies from position `p`. -/
def copyFromPascal (buf : Bytes) (p maxLen : Nat) : Option Bytes := do
  let len ← buf[p]?
  fetch buf (p + 1) (min maxLen len.toNat)

/-- The loop of `afp_getsrvrparms_reply`: the flags and the name of each volume. The read pointer moves by
the length of the name as it was cut. -/
def volumesLoop (buf : Bytes) : Nat → Nat → Option (List (UInt8 × Bytes))
  | 0, _ => some []
  | i + 1, p => do
    let flags ← buf[p]?
    let name ← copyFromPascal buf (p + 1) afpVolumeNameLen
    let vols ← volumesLoop buf i (p + 1 + (name.length + 1))
    return (flags, name) :: vols

/-- What a server says of itself: the time, and its volumes. -/
structure SrvrParms where
  connectTime : UInt32
  volumes : List (UInt8 × Bytes)
  deriving DecidableEq, Repr

def afpGetsrvrparmsReply (server : SrvrParms) (msg : Bytes) : Option (Int × SrvrParms) :=
  if msg.length < 21 then some (-1, server)
  else do
    let numvolumes ← msg[20]?
    let volumes ← volumesLoop msg numvolumes.toNat 21
    return (0, ⟨adDateToUnix (slice msg 16 4), volumes⟩)

/-- C `afp_getcomment_reply`: what is copied to `comment->data`. The difference of the sizes is unsigned. -/
def afpGetcommentReply (maxsize : Nat) (data buf : Bytes) : Option (Int × Bytes) :=
  if buf.length < 16 then some (-1, data)
  else do
    let room := if 17 ≤ buf.length then buf.length - 17 else 2 ^ 64 - (17 - buf.length)
    let commentlen ← buf[16]?
    let data ← fetch buf 17 (min (min room maxsize) commentlen.toNat)
    return (0, data)

end AfpfsNg.Proto
