import AfpfsNg.Fork.Write

/-!
# Reading

`ll_read` (`lib/lowlevel.c`), `appledouble_read` (`lib/resource.c`), `ml_read` (`lib/midlevel.c`) and the
loop of `fuse_read` (`fuse/fuse_int.c`). A read has one request, between a lock and an unlock; the reply
goes into the caller's buffer, up to the size given for it. `fuse_read` goes on until it has everything or the server says
that the file ends. The buffer is passed along, and `pos` is where `buf` points to in it.
-/

namespace AfpfsNg.Fork
open AfpfsNg.Base AfpfsNg.Afp AfpfsNg.Did

section Code
variable {σ : Type} (P : Peer σ) (v : Volume)

def store (buf : Bytes) (pos : Nat) (bs : Bytes) : Except Fault Bytes :=
  if pos + bs.length ≤ buf.length then .ok (patch buf pos bs) else .error .copyOverflow

/-- The result, `*eof` and the buffer (C `ll_read`). -/
def llRead (k : Client σ) (buf : Bytes) (pos size offset : Nat) (fp : FileHandle) :
    Except Fault ((Int × Bool × Bytes) × Client σ) :=
  let bufsize := min v.rxQuantum size
  let (rc, k) := llHandleLocking P v k fp.forkid offset size
  if rc ≠ 0 then .ok ((-EBUSY, false, buf), k)
  else
    let (a, k) := k.call P (.read (ext v) fp.forkid (field v offset) (field v size))
    (store buf pos (a.data.take bufsize)).map fun buf =>
      let (rc, k) := llHandleUnlocking P v k fp.forkid offset size
      let ret : Int := if rc ≠ 0 then EIO else switch [(kFPAccessDenied, EACCES), (kFPLockErr, EBUSY),
        (kFPMiscErr, EIO), (kFPParamErr, EIO)] 0 a.code
      if ret ≠ 0 then ((-ret, false, buf), k)
      else ((returnSize (a.data.take bufsize).length, a.code = kFPEOFErr, buf), k)

/-- The part of `appledouble_read` for comments: the result, `*amount_read`, `*eof` and the buffer. -/
def readComment (k : Client σ) (amountRead : Nat) (eof : Bool) (buf : Bytes) (pos size : Nat)
    (fp : FileHandle) : Except Fault ((Int × Nat × Bool × Bytes × FileHandle) × Client σ) :=
  if fp.eof then .ok ((1, amountRead, eof, buf, fp), k)
  else
    let (a, k) := k.call P (.getcomment fp.did fp.basename)
    if a.code = kFPNoErr then
      (store buf pos (a.data.take size)).map fun buf =>
        ((1, (a.data.take size).length, true, buf, { fp with eof := true }), k)
    else
      .ok ((-switch [(kFPAccessDenied, EACCES), (kFPMiscErr, EIO), (kFPParamErr, EIO)] ENOENT a.code,
        amountRead, eof, buf, fp), k)

/-- C `appledouble_read`. The finder info goes to `buf+offset`, and then the comment is read as well. -/
def appledoubleRead (k : Client σ) (buf : Bytes) (pos size offset : Nat) (fp : FileHandle) :
    Except Fault ((Int × Nat × Bool × Bytes × FileHandle) × Client σ) := do
  match fp.resource with
  | .none => return ((0, 0, false, buf, fp), k)
  | .resource =>
    let ((ret, eof, buf), k) ← llRead P v k buf pos size offset fp
    return ((ret, 0, eof, buf, fp), k)
  | .appledouble => return ((-EBADF, 0, false, buf, fp), k)
  | .finderinfo =>
    if 32 < offset then return ((-EFAULT, 0, false, buf, fp), k)
    else
      let (a, k) := k.call P (.getfiledirparms fp.did 0x20 0x20 fp.basename)
      if a.code < 0 then return ((a.code, 0, false, buf, fp), k)
      else
        let fp := if a.code = kFPNoErr then fp.fetched 0 a.data else fp
        let tocopy := min size (32 - offset)
        let buf ← store buf (pos + offset) (fp.finderinfo.take tocopy)
        readComment P k tocopy (offset + tocopy = 32) buf pos size fp
  | .comment => readComment P k 0 false buf pos size fp
  | .serverIcon =>
    if 256 < offset then return ((-EFAULT, 0, false, buf, fp), k)
    else
      let tocopy := min size (256 - offset)
      let buf ← store buf (pos + offset) (v.icon.take tocopy)
      return ((1, tocopy, true, buf, { fp with eof := true }), k)

def mlRead (k : Client σ) (path buf : Bytes) (pos size offset : Nat) (fp : FileHandle) :
    Except Fault ((Int × Bool × Bytes × FileHandle) × Client σ) := do
  match ← convertPathToAfp v path with
  | none => return ((-EINVAL, false, buf, fp), k)
  | some _ =>
    let ((ret, amountCopied, eof, buf, fp), k) ← appledoubleRead P v k buf pos size offset fp
    if ret < 0 then return ((ret, eof, buf, fp), k)
    else if ret = 1 then return ((returnSize amountCopied, eof, buf, fp), k)
    else
      let ((ret, eof, buf), k) ← llRead P v k buf pos size offset fp
      return ((ret, eof, buf, fp), k)

/-- The loop of `fuse_read`, for a number of rounds. -/
def fuseLoop (path : Bytes) : Nat → Client σ → FileHandle → Bytes → Nat → Nat → Nat →
    Except Fault ((Int × Bytes) × Client σ)
  | 0, _, _, _, _, _, _ => .error .outOfFuel
  | rounds + 1, k, fp, buf, amountRead, size, offset => do
    let ((ret, eof, buf, fp), k) ← mlRead P v k path buf amountRead size offset fp
    if ret < 0 then return ((ret, buf), k)
    else
      let amountRead := amountRead + ret.toNat
      if eof then return ((returnSize amountRead, buf), k)
      else
        let size := size - ret.toNat
        if size = 0 then return ((returnSize amountRead, buf), k)
        else fuseLoop path rounds k fp buf amountRead size (offset + ret.toNat)

/-- The result and the buffer (C `fuse_read`). -/
def fuseRead (rounds : Nat) (k : Client σ) (path buf : Bytes) (size offset : Nat)
    (fh : Option FileHandle) : Except Fault ((Int × Bytes) × Client σ) :=
  match fh with
  | none => .ok ((-EBADF, buf), k)
  | some fp => fuseLoop P v path rounds k fp buf 0 size offset

end Code

end AfpfsNg.Fork
