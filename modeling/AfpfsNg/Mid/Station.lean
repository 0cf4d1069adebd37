import AfpfsNg.Base.Effects
import AfpfsNg.Fork.Open
import AfpfsNg.Did.Namespace
import AfpfsNg.Proto.Enumerate

/-!
# Operations and the server they talk to

The operations of `lib/midlevel.c` use requests of all kinds. A `Station` is any server: a state, the answers to
the `afp_getfiledirparms` of `get_dirid` and `is_dir`, and to each `Command` an `Answer` and a new state. It
is a `Peer` for the requests about forks and a `NameServer` for those about names (`onClient`, `onWorld`).

An operation is code with a `State`: the client's half of a volume with the two flags of `extra_flags` that
change, and the nodes of directory listings. `Station.logged` is the station with a record of the commands.
-/

namespace AfpfsNg.Mid
open AfpfsNg.Base AfpfsNg.Afp AfpfsNg.Did AfpfsNg.Fork AfpfsNg.Proto

/-- What `afp_setparms_lowlevel` is called for: `afp_setfileparms`, `afp_setdirparms` or
`afp_setfiledirparms`. -/
inductive Subject where
  | file
  | dir
  | filedir
  deriving DecidableEq, Repr

/-- The parameter that the bitmap of `afp_setparms_lowlevel` selects. -/
inductive Parameter where
  | modDate (t : UInt32)
  | unixprivs (u : Unixprivs)
  deriving DecidableEq, Repr

inductive Command where
  | fork (r : Fork.Request)
  /-- C `afp_createfile`, with `kFPHardCreate` or `kFPSoftCreate` -/
  | createfile (hard : Bool) (dirid : Nat) (pathname : Bytes)
  | createdir (dirid : Nat) (pathname : Bytes)
  | delete (dirid : Nat) (pathname : Bytes)
  | moveandrename (src dst : Nat) (srcPath dstPath newname : Bytes)
  | setparms (subject : Subject) (dirid : Nat) (pathname : Bytes) (parameter : Parameter)
  /-- C `afp_enumerate` and `afp_enumerateext2` -/
  | enumerate (ext2 : Bool) (dirid filebitmap dirbitmap reqcount startindex : Nat) (pathname : Bytes)
  deriving DecidableEq, Repr

/-- What comes back: for `getfiledirparms` the record too, and for `enumerate` the whole packet in `data`. -/
structure Answer extends Fork.Reply where
  info : AfpFileInfo
  deriving DecidableEq, Repr

def Answer.ofCode (code : Int) : Answer := ⟨⟨code, 0, [], 0⟩, AfpFileInfo.zero⟩

structure Station (σ : Type) where
  query : σ → Nat → Bytes → Option FileInfo
  respond : σ → Command → Answer × σ

namespace Station
variable {σ : Type} (S : Station σ)

def peer : Peer σ where
  query := S.query
  respond s r := ((S.respond s (.fork r)).1.toReply, (S.respond s (.fork r)).2)

def code (s : σ) (c : Command) : Int × σ := ((S.respond s c).1.code, (S.respond s c).2)

def names : NameServer σ where
  getfiledirparms := S.query
  createdir s dirid pathname := S.code s (.createdir dirid pathname)
  delete s dirid pathname := S.code s (.delete dirid pathname)
  moveandrename s src dst srcPath dstPath newname := S.code s (.moveandrename src dst srcPath dstPath newname)

def logged : Station (σ × List (Command × Answer)) where
  query s := S.query s.1
  respond s c :=
    let (a, s') := S.respond s.1 c
    (a, (s', s.2 ++ [(c, a)]))

end Station

/-- C `AFP_MAPPING_UNKNOWN` to `AFP_MAPPING_NAME`. -/
inductive Mapping where
  | unknown
  | common
  | loginids
  | name
  deriving DecidableEq, Repr

/-- The rest of what the operations use of `struct afp_volume`, of its server and of the process. -/
structure Mount extends Volume where
  /-- the bits of `extra_flags`: `VOL_SUPPORTS_UNIX` and `IGNORE_UNIXPRIVS` -/
  supportsUnix : Bool
  ignoreUnixprivs : Bool
  /-- `attributes&kSupportsUTF8Names` -/
  utf8Names : Bool
  volumeName : Bytes
  mapping : Mapping
  connectTime : UInt32
  /-- `server->passwd.pw_uid` and `pw_gid` -/
  pwUid : UInt32
  pwGid : UInt32
  /-- `geteuid` and `getgid` -/
  euid : UInt32
  gid : UInt32
  deriving DecidableEq, Repr

def Mount.plain : Mount where
  toVolume := plainVolume
  supportsUnix := true
  ignoreUnixprivs := false
  utf8Names := true
  volumeName := [118]
  mapping := .common
  connectTime := 0
  pwUid := 0
  pwGid := 0
  euid := 0
  gid := 0

def Mount.utf8 : Mount := { Mount.plain with pathEncoding := .utf8Name }

structure State (σ : Type) extends Client σ where
  heap : Heap
  /-- the bits of `extra_flags` that change: `VOL_CHMOD_KNOWN` and `VOL_CHMOD_BROKEN` -/
  chmodKnown : Bool
  chmodBroken : Bool

def State.start {σ : Type} (peer : σ) : State σ :=
  ⟨.start peer .empty, ⟨fun _ => AfpFileInfo.zero, fun _ => none, 0⟩, false, false⟩

/-- Code of an operation. -/
abbrev Op (σ α : Type) := StateT (State σ) (Except Fault) α

section Code
variable {σ : Type} {α : Type}

def onClient (f : Client σ → Except Fault (α × Client σ)) : Op σ α := fun k =>
  (f k.toClient).map fun r => (r.1, { k with toClient := r.2 })

def onWorld (f : World σ → Except Fault (α × World σ)) : Op σ α := fun k =>
  (f ⟨k.peer, k.cache⟩).map fun r => (r.1, { k with peer := r.2.server, cache := r.2.cache })

variable (S : Station σ) (clock : Nat → Nat)

def call (c : Command) : Op σ Answer := fun k =>
  .ok ((S.respond k.peer c).1, { k with peer := (S.respond k.peer c).2 })

def getDirid (fi : FileInfo) (path : Bytes) : Op σ (Option (Nat × Bytes)) :=
  onClient fun k => k.getDirid S.peer clock fi path

def locate (fi : FileInfo) (path : Bytes) : Op σ (Nat × Bytes) := do
  match ← getDirid S clock fi path with
  | some r => return r
  | none => throw .uninitialised

def isDir (parentdid : Nat) (path : Bytes) : Op σ Bool := do
  return Did.isDir S.names (← get).peer parentdid path

end Code

end AfpfsNg.Mid
