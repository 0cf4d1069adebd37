import AfpfsNg.Mid.Attributes

/-!
# Symbolic links, and closing

`ml_readlink`, `ml_symlink` and `ml_close` (`lib/midlevel.c`), and `appledouble_close` (`lib/resource.c`). A
symbolic link is a file with the path in its data fork and `slnkrhap` in its finder info.

The two operations on links have a `struct afp_file_info` of their own on the stack, at `addr`, and
put it into the list of open forks. Its `forkid` is assigned only by a reply that opens the fork; `junk`
is what stands there before. `ml_symlink` looks at `ret`, which is 0 there, instead of the code, and always goes on.
-/

namespace AfpfsNg.Mid
open AfpfsNg.Base AfpfsNg.Afp AfpfsNg.Did AfpfsNg.Fork AfpfsNg.Proto

section Code
variable {σ : Type} (S : Station σ) (m : Mount) (clock : Nat → Nat)

def addOpenedFork (addr : Nat) : Op σ Unit := modify fun k => { k with openForks := addr :: k.openForks }

def removeOpenedFork (addr : Nat) : Op σ Unit := modify fun k => { k with openForks := k.openForks.erase addr }

/-- The codes after which `ml_readlink` returns or, with 0, goes on. Any other gives `EFAULT`. -/
def readlinkErrors : List (Int × Int) :=
  [(kFPAccessDenied, EACCES), (kFPObjectNotFound, ENOENT), (kFPObjectLocked, EROFS), (kFPObjectTypeErr, EISDIR),
    (kFPParamErr, EACCES), (kFPTooManyFilesOpen, EMFILE), (kFPVolLocked, 0), (kFPDenyConflict, 0),
    (kFPMiscErr, 0), (kFPBitmapErr, 0), (kFPNoErr, 0)]

def readErrors : List (Int × Int) :=
  [(kFPAccessDenied, EACCES), (kFPLockErr, EBUSY), (kFPMiscErr, EIO), (kFPParamErr, EIO)]

/-- Close a fork of the operation's own and take it out of the list, unless that fails. -/
def closeOwn (addr forkid : Nat) : Op σ Int := do
  let a ← call S (.fork (.closefork forkid))
  if a.code = kFPNoErr then
    removeOpenedFork addr
    return 0
  else return EIO

/-- C `ml_readlink`: the result, and the link if it is 0. `size` is that of the caller's buffer. -/
def mlReadlink (fi : FileInfo) (addr junk : Nat) (path : Bytes) (size : Nat) : Op σ (Int × Bytes) := do
  match ← convertPathToAfp m.toVolume path with
  | none => return (-EINVAL, [])
  | some convertedPath =>
    let (dirid, basename) ← locate S clock fi convertedPath
    let a ← call S (.fork (.openfork false dirid 3 basename))
    let ret := switch readlinkErrors EFAULT a.code
    if ret ≠ 0 then return (-ret, [])
    else
      let forkid := if a.code = kFPNoErr then a.refnum else junk
      addOpenedFork addr
      let r ← call S (.fork (.read (ext m.toVolume) forkid 0 (field m.toVolume size)))
      -- the reply goes into an array of `AFP_MAX_PATH` bytes
      if afpMaxPath < (r.data.take size).length then throw .copyOverflow
      else
        let ret := switch readErrors 0 r.code
        if ret ≠ 0 then return (-ret, [])
        else
          let ret ← closeOwn S addr forkid
          if ret ≠ 0 then return (-ret, []) else return (0, r.data.take size)

def slnkrhap : Bytes := zeroPadded 32 [115, 108, 110, 107, 114, 104, 97, 112]

/-- What `ml_symlink` does once the file is created. -/
def writeLink (addr junk dirid : Nat) (basename target : Bytes) : Op σ Int := do
  let a ← call S (.fork (.openfork false dirid 3 basename))
  let forkid := if a.code = kFPNoErr then a.refnum else junk
  addOpenedFork addr
  let _ ← call S (.fork (.write true forkid 0 target))
  let ret ← closeOwn S addr forkid
  if ret ≠ 0 then return -ret
  else
    let a ← call S (.fork (.setfiledirparms dirid basename slnkrhap))
    return -switch [(kFPAccessDenied, EPERM), (kFPBitmapErr, ENOSYS), (kFPObjectNotFound, ENOENT), (0, 0)] EIO a.code

/-- C `ml_symlink`: a link to `path1` at `path2`. It is the target that may not be an invented file. -/
def mlSymlink (fi : FileInfo) (addr junk : Nat) (path1 path2 : Bytes) : Op σ Int := do
  if m.avNumber < 30 then return -ENOSYS
  else
    match ← convertPathToAfp m.toVolume path1 with
    | none => return -EINVAL
    | some convertedPath1 =>
      match ← convertPathToAfp m.toVolume path2 with
      | none => return -EINVAL
      | some convertedPath2 =>
        if volumeIsReadonly m.toVolume then return -EACCES
        else
          let ret ← appledoubleRefuse m.toVolume path1
          if ret < 0 then return ret
          else
            let (dirid2, basename2) ← locate S clock fi convertedPath2
            let a ← call S (.createfile true dirid2 basename2)
            let ret := switch createErrors EIO a.code
            if ret ≠ 0 then return -ret
            else writeLink S addr junk dirid2 basename2 convertedPath1

def appledoubleClose (fp : FileHandle) : Op σ Int := do
  match fp.resource with
  | .resource =>
    let a ← call S (.fork (.closefork fp.forkid))
    if a.code = kFPNoErr then return 0 else return -( EIO : Int)
  | .appledouble => return -EBADF
  | .serverIcon => return 1
  | .none | .finderinfo | .comment => return 0

def mlClose (path : Bytes) (fp : Option FileHandle) : Op σ Int := do
  match ← convertPathToAfp m.toVolume path with
  | none => return -EINVAL
  | some convertedPath =>
    if invalidFilename m.toVolume convertedPath then return -ENAMETOOLONG
    else
      match fp with
      | none => return EBADF
      | some fp =>
        if fp.resource ≠ .none then appledoubleClose S fp
        else closeOwn S fp.addr fp.forkid

end Code

end AfpfsNg.Mid
