import AfpfsNg.Fork.Open

/-!
# Writing

`ll_write` (`lib/lowlevel.c`), `appledouble_write` (`lib/resource.c`) and `ml_write`
(`lib/midlevel.c`). The data goes out in chunks of `tx_quantum` bytes between a lock and an unlock. The
result of each `afp_write` is overwritten with 0 before it is looked at, and the branches for a failed
lock or unlock assign `ret` and return `-err`, which is still 0.
-/

namespace AfpfsNg.Fork
open AfpfsNg.Base AfpfsNg.Afp AfpfsNg.Did

section Code
variable {σ : Type} (P : Peer σ) (v : Volume)

/-- The loop of `ll_write`. `o` and `*totalwritten` grow together. -/
def writeLoop (forkid offset : Nat) (data : Bytes) : Nat → Nat → Client σ → Except Fault (Nat × Client σ)
  | 0, totalwritten, k => if totalwritten < data.length then .error .outOfFuel else .ok (totalwritten, k)
  | fuel + 1, totalwritten, k =>
    if totalwritten < data.length then
      let sizetowrite :=
        if data.length - totalwritten < v.txQuantum then data.length - totalwritten else v.txQuantum
      let (_, k) := k.call P (.write (ext v) forkid (field v (offset + totalwritten))
        (slice data totalwritten sizetowrite))
      writeLoop forkid offset data fuel (totalwritten + sizetowrite) k
    else .ok (totalwritten, k)

/-- The result and `*totalwritten` (C `ll_write`). -/
def llWrite (k : Client σ) (data : Bytes) (offset : Nat) (fp : FileHandle) :
    Except Fault ((Int × Nat) × Client σ) :=
  let (rc, k) := llHandleLocking P v k fp.forkid offset data.length
  if rc ≠ 0 then .ok ((0, 0), k)
  else
    (writeLoop P v fp.forkid offset data data.length 0 k).map fun (totalwritten, k) =>
      let (_, k) := llHandleUnlocking P v k fp.forkid offset data.length
      ((0, totalwritten), k)

/-- C `appledouble_write`: the result, `*totalwritten`, and the record with the finder info. -/
def appledoubleWrite (k : Client σ) (fp : FileHandle) (data : Bytes) (offset : Nat) :
    Except Fault ((Int × Nat × FileHandle) × Client σ) :=
  match fp.resource with
  | .none => .ok ((0, 0, fp), k)
  | .resource => (llWrite P v k data offset fp).map fun (r, k) => ((r.1, r.2, fp), k)
  | .appledouble => .ok ((-EBADF, 0, fp), k)
  | .finderinfo =>
    if 32 ≤ offset then .ok ((-EINVAL, 0, fp), k)
    else
      let towrite := min (int32 (data.length % 2 ^ 32)) (32 - (offset : Int))
      let (a, k) := k.call P (.getfiledirparms fp.did 0x20 0x20 fp.basename)
      if a.code < 0 then .ok ((a.code, 0, fp), k)
      else if towrite < 0 then .error .overread
      else
        let fp := { fp with finderinfo := patch fp.finderinfo offset (data.take towrite.toNat) }
        let (a, k) := k.call P (.setfiledirparms fp.did fp.basename fp.finderinfo)
        if a.code = kFPAccessDenied then .ok ((-EACCES, 0, fp), k)
        else if a.code = kFPObjectNotFound then .ok ((-ENOENT, 0, fp), k)
        else .ok ((1, towrite.toNat, fp), k)
  | .comment =>
    -- the comment ends at a terminator in the data
    match strchr 0 data with
    | none => .error .overread
    | some n =>
      let (a, k) := k.call P (.addcomment fp.did fp.basename (data.take n))
      if a.code = kFPNoErr then .ok ((1, data.length, fp), k)
      else .ok ((-switch [(kFPAccessDenied, EACCES), (kFPObjectNotFound, ENOENT)] EIO a.code, n, fp), k)
  | .serverIcon => .ok ((-EPERM, 0, fp), k)

def returnSize (n : Nat) : Int := int32 (n % 2 ^ 32)

/-- C `ml_write`. The owner, mode and time that it puts into the record are never sent. -/
def mlWrite (k : Client σ) (path data : Bytes) (offset : Nat) (fp : FileHandle) :
    Except Fault (Int × Client σ) :=
  if v.avNumber < 30 ∧ afpMaxAfp2Filesize < data.length then .ok (-EFBIG, k)
  else
    match convertPathToAfp v path with
    | .error f => .error f
    | .ok none => .ok (-EINVAL, k)
    | .ok (some _) =>
      if volumeIsReadonly v then .ok (-EACCES, k)
      else
        match appledoubleWrite P v k fp data offset with
        | .error f => .error f
        | .ok ((ret, totalwritten, fp), k) =>
          if ret < 0 then .ok (ret, k)
          else if ret = 1 then .ok (returnSize totalwritten, k)
          else
            (llWrite P v k data offset fp).map fun ((ret, totalwritten), k) =>
              if ret < 0 then (ret, k) else (returnSize totalwritten, k)

end Code

end AfpfsNg.Fork
