import AfpfsNg.Did.Resolve

/-!
# Requests about forks

The requests that `lib/lowlevel.c` and `lib/resource.c` send about open files. A `Peer` is any server: a state, the answers
to `afp_getfiledirparms` that `get_dirid` sees, and to each `Request` a `Reply` and a new state. `Reply.code` is what
`dsi_send` returns: the result in the reply, -1 without a connection, `ETIMEDOUT` without an answer.

`Client.call` records a request with its reply in `sent`; the code keeps no such record. `openForks` is the list
`volume->open_forks`. A session below AFP 3.0 uses the older form of a request (`ext` is false), whose offset and count have
32 bits.
-/

namespace AfpfsNg.Fork
open AfpfsNg.Base AfpfsNg.Afp AfpfsNg.Did

inductive Request where
  /-- C `afp_byterangelock` and `afp_byterangelockext` -/
  | byterangelock (ext unlock : Bool) (forkid offset len : Nat)
  /-- C `afp_read` and `afp_readext` -/
  | read (ext : Bool) (forkid offset count : Nat)
  /-- C `afp_write` and `afp_writeext` -/
  | write (ext : Bool) (forkid offset : Nat) (data : Bytes)
  | openfork (resource : Bool) (dirid accessmode : Nat) (filename : Bytes)
  | closefork (forkid : Nat)
  | setforkparms (forkid bitmap len : Nat)
  | getfiledirparms (did filebitmap dirbitmap : Nat) (pathname : Bytes)
  /-- C `afp_setfiledirparms`, with the bit of the finder info -/
  | setfiledirparms (did : Nat) (pathname finderinfo : Bytes)
  | getcomment (did : Nat) (pathname : Bytes)
  | addcomment (did : Nat) (pathname comment : Bytes)
  | opendt
  deriving DecidableEq, Repr

/-- What comes back: a code; for `openfork` and `opendt` a number; for `read`, `getcomment` and
`getfiledirparms` (the finder info) bytes; for `getfiledirparms` the length of the fork. -/
structure Reply where
  code : Int
  refnum : Nat
  data : Bytes
  size : Nat
  deriving DecidableEq, Repr

structure Peer (σ : Type) where
  query : σ → Nat → Bytes → Option FileInfo
  respond : σ → Request → Reply × σ

/-- The server and what the client keeps for a volume. -/
structure Client (σ : Type) where
  peer : σ
  sent : List (Request × Reply)
  cache : DidCache
  openForks : List Nat
  mallocs : Nat
  dtrefnum : Nat

def Client.start {σ : Type} (peer : σ) (cache : DidCache) : Client σ := ⟨peer, [], cache, [], 0, 0⟩

/-- What the operations use of the `struct afp_file_info` of an open file; `addr` is its address. -/
structure FileHandle where
  addr : Nat
  forkid : Nat
  resource : Meta
  did : Nat
  basename : Bytes
  finderinfo : Bytes
  eof : Bool
  deriving DecidableEq, Repr

def dataFork : FileHandle := ⟨0, 7, .none, 2, [97], [], false⟩

section Code
variable {σ : Type} (P : Peer σ) (v : Volume)

def Client.call (k : Client σ) (r : Request) : Reply × Client σ :=
  let (a, peer) := P.respond k.peer r
  (a, { k with peer := peer, sent := k.sent ++ [(r, a)] })

/-- The offset or count that goes into a request: 32 bits in the older form. -/
def field (n : Nat) : Nat := if v.avNumber < 30 then n % 2 ^ 32 else n

def ext : Bool := ¬ v.avNumber < 30

def lockLoop (forkid offset size : Nat) : Nat → Client σ → Int × Client σ
  | 0, k => (0, k)
  | tries + 1, k =>
    let (a, k) := k.call P (.byterangelock (ext v) false forkid (field v offset) (field v size))
    if a.code = kFPNoErr then (0, k)
    else if a.code = kFPNoMoreLocks ∨ a.code = kFPLockErr then lockLoop forkid offset size tries k
    else (-1, k)

def maxLocktrycount : Nat := 10

def llHandleLocking (k : Client σ) (forkid offset size : Nat) : Int × Client σ :=
  if v.noLocking then (0, k) else lockLoop P v forkid offset size maxLocktrycount k

def llHandleUnlocking (k : Client σ) (forkid offset size : Nat) : Int × Client σ :=
  if v.noLocking then (0, k)
  else
    let (a, k) := k.call P (.byterangelock (ext v) true forkid (field v offset) (field v size))
    (if a.code = kFPNoErr then 0 else -1, k)

end Code

end AfpfsNg.Fork
