import AfpfsNg.Base.Bytes

/-!
# DSI sessions: headers, requests and the server record

The data of `lib/dsi.c`, `lib/dsi_protocol.h` and the DSI half of `struct afp_server` (`include/afpfs-ng/afp.h`), with the
operations on the request queue.

* `Header` is `struct dsi_header`, read out of the first 16 bytes of a buffer in network order.
* `Request` is `struct dsi_request`. `addr` stands for the address of the node, and `signals` counts the calls of
  `pthread_cond_signal` on its condition variable.
* `Server` keeps the fields the receive and send paths use. `polled` says that the main loop watches the server's
  descriptor. `dispatched` and `outgoing` record what was handed to a handler and what was written to the socket.
-/

namespace AfpfsNg.Dsi
open AfpfsNg.Base

def dsiReply : Nat := 1

def headerSize : Nat := 16

def dsiCloseSession : Nat := 1
def dsiCommand : Nat := 2
def dsiGetStatus : Nat := 3
def dsiOpenSession : Nat := 4
def dsiTickle : Nat := 5
def dsiWrite : Nat := 6
def dsiAttention : Nat := 8

/-- AFP function codes of the two read requests. -/
def afpRead : Nat := 27
def afpReadExt : Nat := 60

/-- What `afp_server_init` allocates for `incoming_buffer` and `attention_buffer`. -/
def defaultBufsize : Nat := 4096
def afpDefaultAttentionQuantum : Nat := 1024

structure Header where
  flags : Nat
  command : Nat
  requestid : Nat
  errorCode : Nat
  length : Nat
  deriving DecidableEq, Repr

def Header.parse (b : Bytes) : Header where
  flags := beNat (slice b 0 1)
  command := beNat (slice b 1 1)
  requestid := beNat (slice b 2 2)
  errorCode := beNat (slice b 4 4)
  length := beNat (slice b 8 4)

lemma Header.parse_take {b n} (h : headerSize ≤ n) : Header.parse (b.take n) = Header.parse b := by
  simp only [headerSize] at h
  simp only [Header.parse]
  rw [slice_take (by omega), slice_take (by omega), slice_take (by omega), slice_take (by omega),
    slice_take (by omega)]

lemma Header.parse_length_lt (b : Bytes) : (Header.parse b).length < 2 ^ 32 := by
  have h := beNat_lt (slice b 8 4)
  have hl : (slice b 8 4).length ≤ 4 := by
    simp only [slice, List.length_take]
    omega
  have hp : 256 ^ (slice b 8 4).length ≤ 256 ^ 4 := Nat.pow_le_pow_right (by omega) hl
  simp only [Header.parse]
  omega

/-- A preallocated receive buffer (C `struct afp_rx_buffer`); `data` is the whole array behind the
pointer. -/
structure RxBuffer where
  size : Nat
  maxsize : Nat
  data : Bytes
  errorcode : Int
  deriving DecidableEq, Repr

/-- The buffer once a `read` has put `bs` at `buf->data+buf->size`. -/
def RxBuffer.extend (rx : RxBuffer) (bs : Bytes) : RxBuffer :=
  { rx with data := patch rx.data rx.size bs, size := rx.size + bs.length }

structure Request where
  addr : Nat
  requestid : Nat
  subcommand : Nat
  other : Option RxBuffer
  wait : Int
  doneWaiting : Bool
  signals : Nat
  returnCode : Int
  deriving DecidableEq, Repr

def Request.isRead (r : Request) : Bool :=
  r.subcommand == afpRead || r.subcommand == afpReadExt

def Request.answered (r : Request) (c : Int) : Request :=
  { r with returnCode := c }

def Request.received (r : Request) (rx : RxBuffer) : Request :=
  { r with other := some rx }

def Request.completed (r : Request) : Request :=
  { r with wait := 0, doneWaiting := true, signals := r.signals + 1 }

@[simp] lemma Request.answered_isRead (r : Request) (c) : (r.answered c).isRead = r.isRead := rfl
@[simp] lemma Request.answered_other (r : Request) (c) : (r.answered c).other = r.other := rfl
@[simp] lemma Request.received_addr (r : Request) (rx) : (r.received rx).addr = r.addr := rfl
@[simp] lemma Request.answered_self (r : Request) : r.answered r.returnCode = r := rfl

lemma Request.received_self {r : Request} {rx} (h : r.other = some rx) : r.received rx = r := by
  rw [Request.received, ← h]

def dsiFindRequest (q : List Request) (id : Nat) : Option Request :=
  q.find? (fun r => r.requestid == id)

/-- Assign through a request pointer: apply `f` to the node at address `a`. -/
def updateAt (q : List Request) (a : Nat) (f : Request → Request) : List Request :=
  q.map (fun r => if r.addr = a then f r else r)

def dsiRemoveFromRequestQueue (q : List Request) (a : Nat) : List Request :=
  q.eraseP (fun r => r.addr == a)

/-- An address that no queued node has, for the next `malloc`. -/
def freshAddr (q : List Request) : Nat :=
  q.foldr (fun r a => max (r.addr + 1) a) 0

lemma dsiFindRequest_mem {q id r} (h : dsiFindRequest q id = some r) : r ∈ q :=
  List.mem_of_find?_eq_some h

lemma dsiFindRequest_requestid {q id r} (h : dsiFindRequest q id = some r) : r.requestid = id := by
  have hp := List.find?_some h
  simpa using hp

lemma dsiFindRequest_updateAt {q id a f} (hf : ∀ r : Request, (f r).requestid = r.requestid) :
    dsiFindRequest (updateAt q a f) id
      = (dsiFindRequest q id).map (fun r => if r.addr = a then f r else r) := by
  induction q with
  | nil => rfl
  | cons r q ih =>
    have hid : (if r.addr = a then f r else r).requestid = r.requestid := by
      split
      · exact hf r
      · rfl
    simp only [dsiFindRequest, updateAt, List.map_cons, List.find?_cons, hid] at ih ⊢
    split
    · rfl
    · exact ih

lemma mem_dsiRemoveFromRequestQueue {q a x} (hnd : (q.map Request.addr).Nodup)
    (hx : x ∈ dsiRemoveFromRequestQueue q a) : x ∈ q ∧ x.addr ≠ a := by
  induction q with
  | nil => cases hx
  | cons y q ih =>
    rw [List.map_cons, List.nodup_cons] at hnd
    by_cases hy : y.addr = a
    · have hq : dsiRemoveFromRequestQueue (y :: q) a = q := by
        simp [dsiRemoveFromRequestQueue, hy]
      rw [hq] at hx
      refine ⟨List.mem_cons_of_mem _ hx, ?_⟩
      rintro rfl
      exact hnd.1 (hy ▸ List.mem_map_of_mem hx)
    · have hq : dsiRemoveFromRequestQueue (y :: q) a = y :: dsiRemoveFromRequestQueue q a := by
        simp [dsiRemoveFromRequestQueue, hy]
      rw [hq] at hx
      rcases List.mem_cons.mp hx with rfl | hx
      · exact ⟨List.mem_cons_self .., hy⟩
      · obtain ⟨hmem, hne⟩ := ih hnd.2 hx
        exact ⟨List.mem_cons_of_mem _ hmem, hne⟩

lemma addr_lt_freshAddr {q r} (h : r ∈ q) : r.addr < freshAddr q := by
  induction q with
  | nil => cases h
  | cons x q ih =>
    simp only [freshAddr, List.foldr_cons] at ih ⊢
    rcases List.mem_cons.mp h with rfl | h
    · omega
    · have := ih h
      omega

inductive ConnectState where
  | connected
  | disconnected
  deriving DecidableEq, Repr

inductive MountState where
  | unmounted
  | mounted
  | unmounting
  deriving DecidableEq, Repr

structure Stats where
  runtPackets : Nat
  rxBytes : Nat
  txBytes : Nat
  requestsPending : Nat
  deriving DecidableEq, Repr

/-- What was handed on when a packet was complete: `data_read` and the bytes. A reply that no request waits for is a `runt`.
-/
structure Dispatch where
  dataRead : Nat
  packet : Bytes
  runt : Bool
  deriving DecidableEq, Repr

structure Server where
  incomingBuffer : Bytes
  dataRead : Nat
  attentionBuffer : Bytes
  attentionLen : Nat
  commandRequests : List Request
  lastrequestid : Nat
  expectedrequestid : Nat
  txQuantum : Nat
  rxQuantum : Nat
  connectState : ConnectState
  polled : Bool
  needResume : Bool
  sendMutexLocked : Bool
  volumes : List MountState
  stats : Stats
  dispatched : List Dispatch
  outgoing : List Bytes
  deriving DecidableEq, Repr

def Server.bufsize (s : Server) : Nat := s.incomingBuffer.length

def Server.attentionQuantum (s : Server) : Nat := s.attentionBuffer.length

def Server.header (s : Server) : Header := Header.parse s.incomingBuffer

/-- A server as `afp_server_init` sets it up, once a connection to it stands and `vols` are mounted. -/
def afpServerInit (q : List Request) (vols : List MountState) : Server where
  incomingBuffer := List.replicate defaultBufsize 0
  dataRead := 0
  attentionBuffer := List.replicate afpDefaultAttentionQuantum 0
  attentionLen := 0
  commandRequests := q
  lastrequestid := 0
  expectedrequestid := 0
  txQuantum := 0
  rxQuantum := 128 * 1024
  connectState := .connected
  polled := true
  needResume := false
  sendMutexLocked := false
  volumes := vols
  stats := ⟨0, 0, 0, 0⟩
  dispatched := []
  outgoing := []

@[simp] lemma afpServerInit_bufsize (q vols) : (afpServerInit q vols).bufsize = defaultBufsize :=
  List.length_replicate

@[simp] lemma afpServerInit_attentionQuantum (q vols) :
    (afpServerInit q vols).attentionQuantum = afpDefaultAttentionQuantum :=
  List.length_replicate

inductive WriteResult where
  | okay
  | epipe
  | ebadf
  | otherError
  deriving DecidableEq, Repr

/-- The connection as the client sees it: the bytes that have not been read yet, and how the coming calls of `read` and
`write` turn out. `some k` is a read of at most `k` bytes, `none` one that fails. -/
structure Sock where
  stream : Bytes
  chunks : List (Option Nat)
  writes : List WriteResult
  deriving DecidableEq, Repr

def Sock.consume (sk : Sock) (k : Nat) : Sock :=
  { sk with stream := sk.stream.drop k, chunks := sk.chunks.tail }

/-- C `read(fd, _, n)`: `none` for a negative result, `some []` for end of file. -/
def Sock.read (sk : Sock) (n : Nat) : Option Bytes × Sock :=
  match sk.chunks with
  | [] => (none, sk)
  | none :: cs => (none, { sk with chunks := cs })
  | some k :: _ => (some (sk.stream.take (min k n)), sk.consume (min k n))

def Sock.write (sk : Sock) : WriteResult × Sock :=
  match sk.writes with
  | [] => (.okay, sk)
  | w :: ws => (w, { sk with writes := ws })

lemma Sock.read_some {sk : Sock} {n k cs} (h : sk.chunks = some k :: cs) (hk : k ≤ n) :
    sk.read n = (some (sk.stream.take k), sk.consume k) := by
  simp only [Sock.read, h, Nat.min_eq_left hk]

lemma Sock.read_length {sk : Sock} {n bs} (h : (sk.read n).1 = some bs) : bs.length ≤ n := by
  rw [Sock.read] at h
  split at h
  · cases h
  · cases h
  · cases h
    rw [List.length_take]
    omega

end AfpfsNg.Dsi
