import AfpfsNg.Base.Bytes
import AfpfsNg.Base.Strings

/-!
# Volumes and paths

What every file operation of `lib/midlevel.c` does first: convert the path to the encoding of the server
(`lib/codepage.c`), check the length of its components (`invalid_filename`, `lib/utils.c`), check that the
volume may be written to, and find out whether the path is one of the invented files below
`.AppleDouble` (`extra_translate`, `lib/resource.c`).

Results are the integers of the source: `kFPNoErr` is 0, the other AFP codes are negative, and an operation returns a
negative `errno`. A converted path that does not fit its buffer of `AFP_MAX_PATH` bytes, and a path that makes
`extra_translate` read behind its end, stop the model with a `Fault`. Allocation never fails.
-/

namespace AfpfsNg.Afp
open AfpfsNg.Base

def afpMaxPath : Nat := 768

def slash : UInt8 := 47

/-- Ways in which an operation leaves the C language. -/
inductive Fault where
  /-- a converted path does not fit its buffer -/
  | pathOverflow
  /-- the basename does not fit `basename` -/
  | basenameOverflow
  /-- the parent's name does not fit `copy` -/
  | copyOverflow
  /-- `strrchr` returns `NULL` and the code computes with it -/
  | nullPointer
  /-- a string is read behind its terminator -/
  | overread
  /-- a variable is used that nothing was assigned to -/
  | uninitialised
  /-- a loop of the model ended early -/
  | outOfFuel
  deriving DecidableEq, Repr

def kFPNoErr : Int := 0
def kFPAccessDenied : Int := -5000
def kFPBitmapErr : Int := -5004
def kFPCantMove : Int := -5005
def kFPDenyConflict : Int := -5006
def kFPDirNotEmpty : Int := -5007
def kFPDiskFull : Int := -5008
def kFPEOFErr : Int := -5009
def kFPFileBusy : Int := -5010
def kFPFlatVol : Int := -5011
def kFPItemNotFound : Int := -5012
def kFPLockErr : Int := -5013
def kFPMiscErr : Int := -5014
def kFPNoMoreLocks : Int := -5015
def kFPObjectExists : Int := -5017
def kFPObjectNotFound : Int := -5018
def kFPParamErr : Int := -5019
def kFPCallNotSupported : Int := -5024
def kFPObjectTypeErr : Int := -5025
def kFPTooManyFilesOpen : Int := -5026
def kFPCantRename : Int := -5028
def kFPDirNotFound : Int := -5029
def kFPVolLocked : Int := -5031
def kFPObjectLocked : Int := -5032

def EPERM : Int := 1
def ENOENT : Int := 2
def EIO : Int := 5
def EBADF : Int := 9
def EACCES : Int := 13
def EFAULT : Int := 14
def EBUSY : Int := 16
def EEXIST : Int := 17
def ENOTDIR : Int := 20
def EISDIR : Int := 21
def EINVAL : Int := 22
def EMFILE : Int := 24
def EFBIG : Int := 27
def ENOSPC : Int := 28
def EROFS : Int := 30
def ENAMETOOLONG : Int := 36
def ENOSYS : Int := 38
def ENOTEMPTY : Int := 39
def EOVERFLOW : Int := 75

/-- The value that the cases of a `switch` assign for `rc`. -/
def switch (cases : List (Int × Int)) (default rc : Int) : Int :=
  (cases.lookup rc).getD default

variable {cases : List (Int × Int)} {default rc : Int}

lemma switch_spec (P : Int → Int → Prop) (hcases : ∀ x ∈ cases, P x.1 x.2)
    (hdefault : (∀ x ∈ cases, x.1 ≠ rc) → P rc default) : P rc (switch cases default rc) := by
  induction cases with
  | nil => exact hdefault nofun
  | cons x cases ih =>
    rw [switch, List.lookup_cons]
    by_cases hx : rc = x.1
    · simpa [hx] using hcases x (List.mem_cons_self ..)
    · have hne : (rc == x.1) = false := by simpa using hx
      rw [hne]
      refine ih (fun y hy => hcases y (List.mem_cons_of_mem _ hy)) fun hnone => hdefault fun y hy => ?_
      rcases List.mem_cons.mp hy with rfl | hy
      · exact fun h => hx h.symm
      · exact hnone y hy

lemma switch_mem (h : rc ∈ cases.map Prod.fst) : (rc, switch cases default rc) ∈ cases := by
  refine switch_spec (fun c e => c ∈ cases.map Prod.fst → (c, e) ∈ cases) (fun x hx _ => hx) (fun hnone hc => ?_) h
  obtain ⟨x, hx, hxc⟩ := List.mem_map.mp hc
  exact absurd hxc (hnone x hx)

lemma switch_default (h : rc ∉ cases.map Prod.fst) : switch cases default rc = default := by
  refine switch_spec (fun c e => c ∉ cases.map Prod.fst → e = default) (fun x hx hnot => ?_) (fun _ _ => rfl) h
  exact absurd (List.mem_map_of_mem hx) hnot

lemma lookup_listed (h : rc ∈ cases.map Prod.fst) : cases.lookup rc = some (switch cases 0 rc) := by
  cases hl : cases.lookup rc with
  | none =>
    obtain ⟨x, hx, rfl⟩ := List.mem_map.mp h
    exact absurd (List.lookup_eq_none_iff.mp hl x hx) (by simp)
  | some e =>
    rw [switch, hl]
    rfl

lemma lookup_unlisted (h : rc ∉ cases.map Prod.fst) : cases.lookup rc = none := by
  refine List.lookup_eq_none_iff.mpr fun x hx => ?_
  exact bne_iff_ne.mpr fun hrc => h (hrc ▸ List.mem_map_of_mem hx)

inductive PathEncoding where
  | shortName
  | longName
  | utf8Name
  deriving DecidableEq, Repr

/-- What the operations use of `struct afp_volume` and of its `struct afp_server`. -/
structure Volume where
  pathEncoding : PathEncoding
  /-- `server->using_version->av_number` -/
  avNumber : Nat
  /-- `server->server_type==AFPFS_SERVER_TYPE_NETATALK` -/
  netatalk : Bool
  /-- `server->rx_quantum` and `server->tx_quantum` -/
  rxQuantum : Nat
  txQuantum : Nat
  /-- `attributes&kReadOnly` -/
  kReadOnly : Bool
  /-- the bits of `extra_flags`: `READONLY`, `SHOW_APPLEDOUBLE`, `NO_LOCKING` -/
  readOnly : Bool
  showAppledouble : Bool
  noLocking : Bool
  icon : Bytes
  deriving DecidableEq, Repr

def plainVolume : Volume where
  pathEncoding := .longName
  avNumber := 31
  netatalk := false
  rxQuantum := 131072
  txQuantum := 131072
  kReadOnly := false
  readOnly := false
  showAppledouble := false
  noLocking := true
  icon := List.replicate 256 0

def volumeIsReadonly (v : Volume) : Bool := v.kReadOnly || v.readOnly

/-- The one sequence that is decomposed: `0xc3 0xa4` becomes `0x61 0xcc 0x88`
(C `convert_utf8pre_to_utf8dec`). -/
def convertUtf8preToUtf8dec : Bytes → Bytes
  | 0xc3 :: 0xa4 :: src => 0x61 :: 0xcc :: 0x88 :: convertUtf8preToUtf8dec src
  | x :: src => x :: convertUtf8preToUtf8dec src
  | [] => []

/-- The path as the server spells it, `none` for an encoding without a conversion
(C `convert_path_to_afp`). -/
def convertPathToAfp (v : Volume) (src : Bytes) : Except Fault (Option Bytes) :=
  match v.pathEncoding with
  | .utf8Name => fit (convertUtf8preToUtf8dec src)
  | .longName => fit src
  | .shortName => .ok none
where
  fit (dest : Bytes) := if dest.length < afpMaxPath then .ok (some dest) else .error .pathOverflow

/-- Does some component have more than `maxlen` bytes? `p` is what is left, the first `/` not counted. -/
def invalidComponent (maxlen : Nat) (p : Bytes) : Bool := (componentLengths p).any (maxlen < ·)
where
  componentLengths : Bytes → List Nat
    | [] => [0]
    | x :: s =>
      if x = slash then 0 :: componentLengths s
      else
        match componentLengths s with
        | n :: ns => (n + 1) :: ns
        | [] => [1]

/-- Is a component too long for the server? (C `invalid_filename`) -/
def invalidFilename (v : Volume) (filename : Bytes) : Bool :=
  if filename = [slash] then false
  -- `strlen(filename)-(p-filename)` is unsigned
  else if filename = [] then true
  else
    let maxlen :=
      if v.avNumber < 30 then 31
      else if v.pathEncoding = .utf8Name then 1024
      else 255
    invalidComponent maxlen (filename.drop 1)

/-- C `AFP_META_NONE` to `AFP_META_SERVER_ICON`. -/
inductive Meta where
  | none
  | resource
  | appledouble
  | finderinfo
  | comment
  | serverIcon
  deriving DecidableEq, Repr

/-- `".AppleDouble"` -/
def appledouble : Bytes := [46, 65, 112, 112, 108, 101, 68, 111, 117, 98, 108, 101]

/-- `".finderinfo"` -/
def finderinfoString : Bytes := [46, 102, 105, 110, 100, 101, 114, 105, 110, 102, 111]

/-- `".comment"` -/
def commentString : Bytes := [46, 99, 111, 109, 109, 101, 110, 116]

/-- `"/.servericon"` -/
def servericonString : Bytes := [47, 46, 115, 101, 114, 118, 101, 114, 105, 99, 111, 110]

/-- What kind of file the path stands for, and the path of the real file (C `extra_translate`). -/
def extraTranslate (v : Volume) (path : Bytes) : Except Fault (Meta × Bytes) :=
  if ¬ v.showAppledouble then .ok (.none, [])
  else if path = servericonString then .ok (.serverIcon, [])
  else if path.length < appledouble.length + 1 then .ok (.none, [])
  else
    match strrchr slash path with
    | none => .ok (.none, [])
    | some p =>
      if path.drop (p + 1) = appledouble then
        .ok (.appledouble,
          if path.length = appledouble.length + 1 then [slash]
          else path.take (path.length - (appledouble.length + 1)))
      else
        match strstr appledouble path with
        | none => .ok (.none, [])
        | some p =>
          -- behind the name stands a `/`, which is skipped, or the path is at its end
          if path.drop (p + appledouble.length) = [] then .error .overread
          else
            let newpath := path.take p ++ path.drop (p + appledouble.length + 1)
            if finderinfoString.length < newpath.length ∧ finderinfoString <:+ newpath then
              .ok (.finderinfo, newpath.take (newpath.length - finderinfoString.length))
            else if commentString.length < newpath.length ∧ commentString <:+ newpath then
              .ok (.comment, newpath.take (newpath.length - commentString.length))
            else .ok (.resource, newpath)

/-- The operations that no invented file has (C `appledouble_mkdir`, `appledouble_unlink` and
`appledouble_rmdir`). -/
def appledoubleRefuse (v : Volume) (path : Bytes) : Except Fault Int :=
  (extraTranslate v path).map fun r => if r.1 = .none then 0 else -EPERM

end AfpfsNg.Afp
