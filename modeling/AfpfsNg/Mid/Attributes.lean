import AfpfsNg.Mid.Station

/-!
# Attributes

`ll_getattr` (`lib/lowlevel.c`), `appledouble_getattr` and `get_comment_size` (`lib/resource.c`), and of `lib/midlevel.c` the
operations `ml_getattr`, `ml_creat`, `ml_chmod`, `ml_chown` and `ml_utime` with `get_unixprivs` and `set_unixprivs`, which
try out whether a netatalk server keeps all the bits of a mode.
-/

namespace AfpfsNg.Mid
open AfpfsNg.Base AfpfsNg.Afp AfpfsNg.Did AfpfsNg.Fork AfpfsNg.Proto

structure Stat where
  mode : UInt32
  uid : UInt32
  gid : UInt32
  nlink : Nat
  size : Nat
  blksize : Nat
  blocks : Nat
  ctime : UInt32
  mtime : UInt32
  deriving DecidableEq, Repr

def Stat.zero : Stat := ⟨0, 0, 0, 0, 0, 0, 0, 0, 0⟩

def S_IFDIR : UInt32 := 0o040000
def S_IFREG : UInt32 := 0o100000

/-- C `AFP_CHMOD_ALLOWED_BITS_22`. -/
def chmodAllowedBits : UInt32 := 0o100666

def tocheckBits : UInt32 := 0o777

def setNonunixPerms (fp : AfpFileInfo) : UInt32 :=
  if fp.isdir ≠ 0 then 0o700 ||| S_IFDIR else 0o600 ||| S_IFREG

/-- C `translate_uidgid_to_client`; `none` for -1. -/
def translateUidgidToClient (m : Mount) (uid gid : UInt32) : Option (UInt32 × UInt32) :=
  match m.mapping with
  | .common => some (uid, gid)
  | .loginids => some (m.pwUid, m.pwGid)
  | .unknown | .name => none

/-- The bits of a file's attributes that `ll_getattr` asks for. -/
def getattrFilebitmap (m : Mount) (resource : Bool) : Nat :=
  kFPAttributeBit ||| kFPCreateDateBit ||| kFPModDateBit ||| kFPNodeIDBit ||| kFPFinderInfoBit |||
    kFPParentDirIDBit |||
    (if m.avNumber < 30 then if resource then kFPRsrcForkLenBit else kFPDataForkLenBit
      else if resource then kFPExtRsrcForkLenBit else kFPExtDataForkLenBit) |||
    (if m.supportsUnix then kFPUnixPrivsBit else 0)

def getattrDirbitmap (m : Mount) : Nat :=
  kFPAttributeBit ||| kFPCreateDateBit ||| kFPModDateBit ||| kFPNodeIDBit ||| kFPParentDirIDBit |||
    kFPOffspringCountBit ||| (if m.supportsUnix then kFPUnixPrivsBit else kFPOwnerIDBit ||| kFPGroupIDBit)

/-- What `ll_getattr` makes of a reply: an `errno` or 0, and `*stbuf`. -/
def statOf (m : Mount) (fp : AfpFileInfo) (resource : Bool) : Int × Stat :=
  let mode := if 30 ≤ m.avNumber ∧ fp.unixprivs.permissions ≠ 0 then fp.unixprivs.permissions
    else setNonunixPerms fp
  let isdir := mode &&& S_IFDIR ≠ 0
  let size := if resource then fp.resourcesize.toNat else fp.size.toNat
  let (ctime, mtime) := if m.avNumber < 30 ∧ isdir then (m.connectTime, m.connectTime)
    else (fp.creationDate, fp.modificationDate)
  match translateUidgidToClient m fp.unixprivs.uid fp.unixprivs.gid with
  | none => ( EIO, { Stat.zero with mode := mode, uid := fp.unixprivs.uid, gid := fp.unixprivs.gid })
  | some (uid, gid) =>
    if isdir then
      (0, ⟨mode, uid, gid, fp.offspring.toNat + 2, fp.offspring.toNat * 34 + 24, 0, 0, ctime, mtime⟩)
    else (0, ⟨mode, uid, gid, 1, size, 4096, size / 4096, ctime, mtime⟩)

section Code
variable {σ : Type} (S : Station σ) (m : Mount) (clock : Nat → Nat)

/-- C `ll_getattr`: the result and `*stbuf`. -/
def llGetattr (fi : FileInfo) (path : Bytes) (resource : Bool) : Op σ (Int × Stat) := do
  if invalidFilename m.toVolume path then return (-ENAMETOOLONG, .zero)
  else
    match ← getDirid S clock fi path with
    | none => return (-ENOENT, .zero)
    | some (dirid, basename) =>
      -- the root of an AFP 2 volume is a file with the name of the volume
      let (dirid, basename) := if m.avNumber < 30 ∧ path = [slash] then (1, m.volumeName) else (dirid, basename)
      let a ← call S (.fork (.getfiledirparms dirid (getattrFilebitmap m resource) (getattrDirbitmap m) basename))
      let ret := switch [(kFPAccessDenied, EACCES), (kFPObjectNotFound, ENOENT), (kFPNoErr, 0)] EIO a.code
      if ret ≠ 0 then return (-ret, .zero)
      else
        let (ret, st) := statOf m a.info resource
        return (-ret, st)

/-- C `afp_opendt`, into `volume->dtrefnum`. -/
def opendt : Op σ Int := do
  let a ← call S (.fork .opendt)
  modify fun k => { k with dtrefnum := if a.code = kFPNoErr then a.refnum else k.dtrefnum }
  return a.code

def ensureDtOpened : Op σ Int := do
  if 0 < (← get).dtrefnum then return 0
  else opendt S

/-- The request of `get_comment_size`. A code that is not listed is returned as it is. -/
def commentSize (basename : Bytes) (did : Nat) : Op σ Int := do
  let a ← call S (.fork (.getcomment did basename))
  if a.code = kFPNoErr then return (a.data.take 1024).length
  else
    return -switch [(kFPAccessDenied, EACCES), (kFPMiscErr, EIO), (kFPParamErr, EIO), (kFPItemNotFound, ENOENT),
      (kFPObjectNotFound, ENOENT)] (-a.code) a.code

def getCommentSize (basename : Bytes) (did : Nat) : Op σ Int := do
  if (← get).dtrefnum = 0 then
    if (← opendt S) < 0 then return -( EIO : Int)
    else commentSize S basename did
  else commentSize S basename did

/-- C `appledouble_getattr`. The result of `ll_getattr` is ignored but for comments. -/
def appledoubleGetattr (fi fi' : FileInfo) (path : Bytes) : Op σ (Int × Stat) := do
  match ← extraTranslate m.toVolume path with
  | (.none, _) => return (0, .zero)
  | (.resource, newpath) =>
    let (_, st) ← llGetattr S m clock fi newpath true
    return (1, st)
  | (.appledouble, _) => return (1, { Stat.zero with mode := 0o700 ||| S_IFDIR })
  | (.finderinfo, newpath) =>
    let (_, st) ← llGetattr S m clock fi newpath false
    return (1, { st with mode := st.mode ||| S_IFREG, size := 32 })
  | (.comment, newpath) =>
    let (ret, st) ← llGetattr S m clock fi newpath false
    if ret < 0 then return (ret, st)
    else
      match ← getDirid S clock fi' newpath with
      | none => return (-1, st)
      | some (did, basename) =>
        let ret ← getCommentSize S basename did
        if ret < 0 then return (ret, st)
        else return (1, { st with mode := st.mode ||| S_IFREG, size := ret.toNat })
  | (.serverIcon, _) => return (1, { Stat.zero with mode := S_IFREG ||| 0o444, size := 256 })

def mlGetattr (fi fi' : FileInfo) (path : Bytes) : Op σ (Int × Stat) := do
  match ← convertPathToAfp m.toVolume path with
  | none => return (-EINVAL, .zero)
  | some convertedPath =>
    let (ret, st) ← appledoubleGetattr S m clock fi fi' convertedPath
    if ret < 0 then return (ret, st)
    else if 0 < ret then return (0, st)
    -- this is `path`, as the caller spelled it
    else llGetattr S m clock fi path false

/-- C `get_unixprivs`: the result, and the record that was filled in. -/
def getUnixprivs (dirid : Nat) (path : Bytes) : Op σ (Int × AfpFileInfo) := do
  let a ← call S (.fork (.getfiledirparms dirid kFPUnixPrivsBit kFPUnixPrivsBit path))
  return (-switch [(kFPAccessDenied, EACCES), (kFPObjectNotFound, ENOENT), (kFPNoErr, 0)] EIO a.code, a.info)

/-- The last part of `set_unixprivs`: did a netatalk server keep the bits? -/
def checkUnixprivs (dirid : Nat) (basename : Bytes) (permissions : UInt32) (ret : Int) : Op σ Int := do
  if permissions &&& ~~~chmodAllowedBits ≠ 0 ∧ ¬ (← get).chmodKnown ∧ m.netatalk then
    let (rc, fp) ← getUnixprivs S dirid basename
    if rc ≠ 0 then return rc
    else
      let kept := fp.unixprivs.permissions &&& tocheckBits = permissions &&& tocheckBits
      modify fun k => { k with chmodKnown := true, chmodBroken := ¬ kept }
      if kept then return -ret else return -EFAULT
  else return -ret

/-- C `set_unixprivs`, with the fields of `*fp` that it uses. -/
def setUnixprivs (dirid : Nat) (basename : Bytes) (isdir : Bool) (u : Unixprivs) : Op σ Int := do
  if ¬ m.supportsUnix then return 0
  else
    let u := { u with uaPermissions := 0 }
    let k ← get
    -- for broken netatalk servers, strip out the extra bits
    let u := if ¬ isdir ∧ m.netatalk ∧ k.chmodKnown ∧ k.chmodBroken then
      { u with permissions := u.permissions &&& chmodAllowedBits } else u
    let a ← call S (.setparms (if isdir then .dir else .filedir) dirid basename (.unixprivs u))
    let ret := switch [(kFPAccessDenied, EPERM), (kFPBitmapErr, ENOSYS), (kFPObjectNotFound, ENOENT),
      (kFPNoErr, 0)] EIO a.code
    checkUnixprivs S m dirid basename u.permissions ret

def appledoubleCreat (path : Bytes) : Except Fault Int :=
  (extraTranslate m.toVolume path).map fun r =>
    match r.1 with
    | .resource | .finderinfo => 1
    | .appledouble => -EBADF
    | .serverIcon => -EPERM
    | .none | .comment => 0

/-- The codes of `afp_createfile`, in `ml_creat` and in `ml_symlink`. -/
def createErrors : List (Int × Int) :=
  [(kFPAccessDenied, EACCES), (kFPDiskFull, ENOSPC), (kFPObjectExists, EEXIST), (kFPObjectNotFound, ENOENT),
    (kFPFileBusy, EBUSY), (kFPVolLocked, EBUSY), (kFPNoErr, 0)]

/-- The mode of a file that was just created, in `ml_creat`. -/
def creatMode (dirid : Nat) (basename : Bytes) (mode : UInt32) : Op σ Int := do
  if ¬ m.supportsUnix then return 0
  else
    let (ret, fp) ← getUnixprivs S dirid basename
    -- this returns the result of `afp_createfile`
    if ret ≠ 0 then return 0
    else if fp.unixprivs.permissions = mode then return 0
    else
      let rc ← setUnixprivs S m dirid basename false { fp.unixprivs with permissions := mode }
      return -switch [(kFPAccessDenied, EPERM), (kFPObjectNotFound, ENOENT), (0, 0)] EIO rc

def mlCreat (fi : FileInfo) (path : Bytes) (mode : UInt32) : Op σ Int := do
  match ← convertPathToAfp m.toVolume path with
  | none => return -EINVAL
  | some convertedPath =>
    if volumeIsReadonly m.toVolume then return -EACCES
    else
      let ret ← appledoubleCreat m path
      if ret < 0 then return ret
      else if ret = 1 then return 0
      else if invalidFilename m.toVolume convertedPath then return -ENAMETOOLONG
      else
        let (dirid, basename) ← locate S clock fi convertedPath
        let a ← call S (.createfile false dirid basename)
        let ret := switch createErrors EIO a.code
        if ret ≠ 0 then return -ret
        else creatMode S m dirid basename mode

/-- What `ml_chmod` does on a volume that knows modes, once the record of the file is there. -/
def chmodFile (dirid : Nat) (basename : Bytes) (fp : AfpFileInfo) (mode : UInt32) : Op σ Int := do
  if fp.unixprivs.permissions &&& ~~~S_IFDIR = mode then return 0
  else
    match translateUidgidToClient m fp.unixprivs.uid fp.unixprivs.gid with
    | none => return -( EIO : Int)
    | some (uid, gid) =>
      if gid ≠ m.gid ∧ uid ≠ m.euid then return -EPERM
      else
        let rc ← setUnixprivs S m dirid basename (fp.isdir ≠ 0) { fp.unixprivs with permissions := mode }
        if rc = -ENOSYS then return -ENOSYS else return 0

def mlChmod (fi : FileInfo) (path : Bytes) (mode : UInt32) : Op σ Int := do
  if invalidFilename m.toVolume path then return -ENAMETOOLONG
  else if volumeIsReadonly m.toVolume then return -EACCES
  else if ¬ m.supportsUnix then
    if m.ignoreUnixprivs then return (← llGetattr S m clock fi path false).1
    else return -ENOSYS
  else
    match ← convertPathToAfp m.toVolume path with
    | none => return -EINVAL
    | some convertedPath =>
      let ret ← appledoubleRefuse m.toVolume path
      if ret < 0 then return ret
      else
        let (dirid, basename) ← locate S clock fi convertedPath
        let (rc, fp) ← getUnixprivs S dirid basename
        if rc ≠ 0 then return rc
        else chmodFile S m dirid basename fp (mode &&& ~~~S_IFDIR)

/-- C `ml_chown`. The owner is not used. -/
def mlChown (fi : FileInfo) (path : Bytes) (_uid _gid : UInt32) : Op σ Int := do
  match ← convertPathToAfp m.toVolume path with
  | none => return -EINVAL
  | some convertedPath =>
    if invalidFilename m.toVolume convertedPath then return -ENAMETOOLONG
    else if volumeIsReadonly m.toVolume then return -EACCES
    else
      let ret ← appledoubleRefuse m.toVolume path
      if ret < 0 then return ret
      else if ¬ m.supportsUnix then
        if m.ignoreUnixprivs then return (← llGetattr S m clock fi path false).1
        else return -ENOSYS
      else
        let (dirid, basename) ← locate S clock fi convertedPath
        let (rc, fp) ← getUnixprivs S dirid basename
        if rc ≠ 0 then return rc
        else
          let rc ← setUnixprivs S m dirid basename (fp.isdir ≠ 0) fp.unixprivs
          return switch [(-ENOSYS, -ENOSYS), (kFPNoErr, 0), (kFPAccessDenied, -EACCES),
            (kFPObjectNotFound, -ENOENT)] 0 rc

def mlUtime (fi : FileInfo) (path : Bytes) (modtime : UInt32) : Op σ Int := do
  if volumeIsReadonly m.toVolume then return -EACCES
  else if invalidFilename m.toVolume path then return -ENAMETOOLONG
  else
    match ← convertPathToAfp m.toVolume path with
    | none => return -EINVAL
    | some convertedPath =>
      let ret ← appledoubleRefuse m.toVolume path
      if ret < 0 then return ret
      else
        let (dirid, basename) ← locate S clock fi convertedPath
        let subject := if ← isDir S dirid basename then Subject.dir else .file
        let a ← call S (.setparms subject dirid basename (.modDate modtime))
        return switch [(kFPAccessDenied, -EACCES), (kFPObjectNotFound, -ENOENT)] 0 a.code

end Code

end AfpfsNg.Mid
