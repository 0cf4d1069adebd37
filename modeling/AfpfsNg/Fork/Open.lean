import AfpfsNg.Fork.Requests

/-!
# Opening

`ll_open`, `ll_zero_file` (`lib/lowlevel.c`), `appledouble_open` (`lib/resource.c`) and `ml_open`
(`lib/midlevel.c`). A file is opened by its directory, found by `get_dirid`, and its last component; the
record of an open file goes into the list `open_forks`.

`O_CREAT` is not among the flags: the kernel creates the file by a call of its own before it opens it.
`malloc` is taken to succeed.
-/

namespace AfpfsNg.Fork
open AfpfsNg.Base AfpfsNg.Afp AfpfsNg.Did

structure OpenFlags where
  wronly : Bool
  rdwr : Bool
  append : Bool
  trunc : Bool
  largefile : Bool
  deriving DecidableEq, Repr

def OpenFlags.writeOnly : OpenFlags := ⟨true, false, false, false, false⟩

def afpMaxAfp2Filesize : Nat := 4294967296

section Code
variable {σ : Type} (P : Peer σ) (v : Volume) (clock : Nat → Nat)

def Client.getDirid (fi : FileInfo) (k : Client σ) (path : Bytes) :
    Except Fault (Option (Nat × Bytes) × Client σ) :=
  (Did.getDirid (P.query k.peer) clock fi k.cache path).map fun (r, c) => (r, { k with cache := c })

/-- The bit of the length that `ll_zero_file` sets. -/
def forkLenBit (resource : Bool) : Nat :=
  if v.avNumber < 30 ∨ v.netatalk then if resource then 0x400 else 0x200
  else if resource then 0x4000 else 0x800

/-- The codes that `ll_zero_file` reports. Any other counts as success. -/
def zeroFileErrors : List (Int × Int) :=
  [(kFPAccessDenied, EACCES), (kFPVolLocked, EBUSY), (kFPLockErr, EBUSY), (kFPDiskFull, ENOSPC),
    (kFPBitmapErr, EIO), (kFPMiscErr, EIO), (kFPParamErr, EIO)]

/-- C `ll_zero_file`. The result is a positive `errno`. -/
def llZeroFile (k : Client σ) (forkid : Nat) (resource : Bool) : Int × Client σ :=
  let (a, k) := k.call P (.setforkparms forkid (forkLenBit v resource) 0)
  (switch zeroFileErrors 0 a.code, k)

/-- A reply about a file clears the record it is parsed into, but for the name (C `parse_reply_block` in
`ll_get_directory_entry`). -/
def FileHandle.fetched (fp : FileHandle) (did : Nat) (finderinfo : Bytes) : FileHandle :=
  ⟨fp.addr, 0, .none, did, fp.basename, finderinfo, false⟩

/-- The check for a file that is too large for AFP 2, in `ll_open`: an `errno` or 0. -/
def checkSize (k : Client σ) (flags : OpenFlags) (fp : FileHandle) : (Int × FileHandle) × Client σ :=
  if flags.largefile ∧ v.avNumber < 30 then
    let bit := if fp.resource = .none then 0x200 else 0x400
    let (a, k) := k.call P (.getfiledirparms fp.did (0x2 ||| 0x100 ||| bit) 0 fp.basename)
    let ret := switch [(kFPAccessDenied, EACCES), (kFPObjectNotFound, ENOENT), (kFPNoErr, 0)] EIO a.code
    if ret ≠ 0 then ((ret, fp), k)
    else
      -- the record no longer says that this is a resource fork: `size` is looked at
      let size := if fp.resource = .none then a.size else 0
      ((if afpMaxAfp2Filesize - 1 ≤ size then EOVERFLOW else 0,
        fp.fetched a.refnum (List.replicate 32 0)), k)
  else ((0, fp), k)

/-- The codes after which `ll_open` returns an `errno`; any other gives `EFAULT`. -/
def openErrors : List (Int × Int) :=
  [(kFPAccessDenied, EACCES), (kFPObjectNotFound, ENOENT), (kFPObjectLocked, EROFS),
    (kFPObjectTypeErr, EISDIR), (kFPParamErr, EACCES), (kFPTooManyFilesOpen, EMFILE), (kFPNoErr, 0)]

/-- C `ll_open`. The test for a read-only volume there is `2 & 1`, and never true. -/
def llOpen (k : Client σ) (flags : OpenFlags) (fp : FileHandle) : (Int × FileHandle) × Client σ :=
  let aflags := if flags.wronly ∨ flags.rdwr then 3 else 1
  let ((ret, fp), k) := checkSize P v k flags fp
  if ret ≠ 0 then ((-ret, fp), k)
  else
    let (a, k) := k.call P (.openfork (fp.resource ≠ .none) fp.did aflags fp.basename)
    let fp := if a.code = kFPNoErr ∨ a.code = kFPDenyConflict then { fp with forkid := a.refnum } else fp
    let ret := switch openErrors EFAULT a.code
    if ret ≠ 0 then ((-ret, fp), k)
    else
      let k := { k with openForks := fp.addr :: k.openForks }
      if flags.trunc then
        let (ret, k) := llZeroFile P v k fp.forkid (fp.resource ≠ .none)
        ((-ret, fp), k)
      else ((0, fp), k)

/-- C `appledouble_open`: 1 for a file that is open now, 0 for one that is no invented file. -/
def appledoubleOpen (fi : FileInfo) (k : Client σ) (path : Bytes) (flags : OpenFlags) (fp : FileHandle) :
    Except Fault ((Int × FileHandle) × Client σ) := do
  let (kind, newpath) ← extraTranslate v path
  let fp := { fp with resource := kind }
  match kind with
  | .none => return ((0, fp), k)
  | .appledouble => return ((-EISDIR, fp), k)
  | .serverIcon => return ((1, fp), k)
  | .resource =>
    match ← k.getDirid P clock fi newpath with
    | (none, k) => return ((-ENOENT, fp), k)
    | (some (did, basename), k) =>
      let ((ret, fp), k) := llOpen P v k flags { fp with did := did, basename := basename }
      return ((if ret < 0 then ret else 1, fp), k)
  | .finderinfo =>
    match ← k.getDirid P clock fi newpath with
    | (none, k) => return ((-ENOENT, fp), k)
    | (some (did, basename), k) => return ((1, { fp with did := did, basename := basename }), k)
  | .comment =>
    match ← k.getDirid P clock fi newpath with
    | (none, k) => return ((-ENOENT, fp), k)
    | (some (did, basename), k) =>
      let fp := { fp with did := did, basename := basename }
      if k.dtrefnum = 0 then
        let (a, k) := k.call P .opendt
        let ret := -switch [(kFPParamErr, EIO), (kFPMiscErr, EIO)] (-1) a.code
        return ((ret, fp), { k with dtrefnum := if a.code = kFPNoErr then a.refnum else 0 })
      else return ((1, fp), k)

/-- C `ml_open`: the result and `*newfp`, once that is set. -/
def mlOpen (fi : FileInfo) (k : Client σ) (path : Bytes) (flags : OpenFlags) :
    Except Fault ((Int × Option FileHandle) × Client σ) := do
  match ← convertPathToAfp v path with
  | none => return ((-EINVAL, none), k)
  | some convertedPath =>
    if invalidFilename v convertedPath then return ((-ENAMETOOLONG, none), k)
    else if volumeIsReadonly v ∧ (flags.wronly ∨ flags.rdwr ∨ flags.trunc ∨ flags.append) then
      return ((-EACCES, none), k)
    else
      let fp : FileHandle := ⟨k.mallocs, 0, .none, 0, [], List.replicate 32 0, false⟩
      let k := { k with mallocs := k.mallocs + 1 }
      let ((ret, fp), k) ← appledoubleOpen P v clock fi k path flags fp
      if ret < 0 then return ((ret, some fp), k)
      else if ret = 1 then return ((0, some fp), k)
      else
        match ← k.getDirid P clock fi convertedPath with
        | (none, k) => return ((-ENOENT, some fp), k)
        | (some (dirid, basename), k) =>
          let ((ret, fp), k) := llOpen P v k flags { fp with did := dirid, basename := basename }
          return ((if ret < 0 then ret else 0, some fp), k)

end Code

end AfpfsNg.Fork
