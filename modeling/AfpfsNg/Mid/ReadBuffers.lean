import AfpfsNg.Dsi.ReadReply
import AfpfsNg.Fork.Addresses
import AfpfsNg.Mid.ReadOnly

/-!
# The buffers of read requests

A request for data goes out with a `struct afp_rx_buffer`, which says where `dsi_recv` puts the payload and how much it may put
there. `ll_read` (`lib/lowlevel.c`) allows for no more than the quantum of the server, but asks for all of `size`; `ml_readlink`
(`lib/midlevel.c`) allows for `size` bytes in an array of `AFP_MAX_PATH`.
-/

namespace AfpfsNg.Mid
open AfpfsNg.Base AfpfsNg.Afp AfpfsNg.Did AfpfsNg.Fork AfpfsNg.Dsi

/-- The buffer of `ll_read`, for the `size` bytes from `pos` on. -/
def readBuffer (v : Volume) (buf : Bytes) (pos size : Nat) : RxBuffer where
  size := 0
  maxsize := min v.rxQuantum size
  data := slice buf pos size
  errorcode := 0

/-- The buffer of `ml_readlink`, where `maxsize` has 32 bits. -/
def linkBuffer (size : Nat) : RxBuffer where
  size := 0
  maxsize := size % 2 ^ 32
  data := List.replicate afpMaxPath 0
  errorcode := 0

/-- A request for `count` bytes with this buffer. -/
def Fits (count : Nat) (rx : RxBuffer) : Prop := count ≤ rx.maxsize ∧ rx.maxsize ≤ rx.data.length

instance (count : Nat) (rx : RxBuffer) : Decidable (Fits count rx) := inferInstanceAs (Decidable (_ ∧ _))

/-- If this is a request for data, it fits the buffer just if `p`. -/
def FitsIff (rx : RxBuffer) (p : Prop) : Fork.Request → Prop
  | .read _ _ _ count => Fits count rx ↔ p
  | _ => True

/-- Every reply of at most `count` bytes is taken as it is, in whatever pieces it comes. -/
def Receives (count : Nat) (rx : RxBuffer) : Prop :=
  ∀ (s : Server) (sk : Sock) (r : Dsi.Request) (p : Packet) (rest : Bytes) (hs ps : List Nat) (cs : List (Option Nat))
    (fs : List (List Dsi.Request → List Dsi.Request)),
    s.polled = true → s.dataRead = 0 → headerSize ≤ s.bufsize →
    dsiFindRequest s.commandRequests p.head.requestid = some r → r.isRead = true → r.wait ≠ 0 → r.other = some rx →
    p.payload.length ≤ count → sk.stream = p.bytes ++ rest → sk.chunks = (hs ++ ps).map some ++ cs → hs.sum = headerSize →
    ps.sum = p.payload.length → (∀ k ∈ hs ++ ps, 0 < k) → fs.length = (hs ++ ps).length →
    (∀ f ∈ fs, ∀ q, dsiFindRequest (f q) p.head.requestid = dsiFindRequest q p.head.requestid) →
    ∃ s' r' rx', recvLoop s sk fs = .ok (s', { sk with stream := rest, chunks := cs }) ∧
      dsiFindRequest s'.commandRequests p.head.requestid = some r' ∧ r'.doneWaiting = true ∧ r'.other = some rx' ∧
      rx'.size = p.payload.length ∧ rx'.data.take p.payload.length = p.payload

lemma Fits.receives {count : Nat} {rx : RxBuffer} (h : Fits count rx) (hsize : rx.size = 0) (h32 : rx.maxsize < 2 ^ 32) :
    Receives count rx := by
  intro s sk r p rest hs ps cs fs hp hd hbuf hfind hr hw hrx hcount hstream hcs hhs hps hpos hfs henv
  obtain ⟨s', r', rx', hrun, -, hfind', -, hdone, -, hrx', hsize', hdata⟩ :=
    recvLoop_read_reply hp hd hbuf hfind hr hw hrx hsize h32 h.2 (Nat.le_trans hcount h.1) hstream hcs hhs hps hpos hfs henv
  exact ⟨s', r', rx', hrun, hfind', hdone, hrx', hsize', hdata⟩

section Reads
variable {σ : Type} {P : Peer σ} {v : Volume} {k k' : Client σ} {buf : Bytes} {pos size offset : Nat} {fp : FileHandle}

lemma field_le (v : Volume) (n : Nat) : field v n ≤ n := by
  rw [field]
  split
  · exact Nat.mod_le n _
  · exact Nat.le_refl n

lemma fits_readBuffer_iff (hbuf : pos + size ≤ buf.length) :
    Fits (field v size) (readBuffer v buf pos size) ↔ field v size ≤ v.rxQuantum := by
  have hle := field_le v size
  simp only [Fits, readBuffer, slice_length hbuf]
  omega

lemma llRead_fits (hbuf : pos + size ≤ buf.length) {r : Int × Bool × Bytes}
    (h : llRead P v k buf pos size offset fp = .ok (r, k')) :
    Adds (FitsIff (readBuffer v buf pos size) (field v size ≤ v.rxQuantum)) k k' := by
  have hlock : Adds (FitsIff (readBuffer v buf pos size) (field v size ≤ v.rxQuantum)) k
      (llHandleLocking P v k fp.forkid offset size).2 := .locking trivial
  rcases llRead_inv h with ⟨-, -, rfl⟩ | rfl
  · exact hlock
  · have hread : FitsIff (readBuffer v buf pos size) (field v size ≤ v.rxQuantum)
        (.read (ext v) fp.forkid (field v offset) (field v size)) := fits_readBuffer_iff hbuf
    exact (hlock.trans (.call hread)).trans (.unlocking trivial)

end Reads

section Links
variable {σ : Type} {S : Station σ} {m : Mount} {clock : Nat → Nat} {fi : FileInfo} {addr junk size : Nat} {path : Bytes}

def Command.FitsIff (rx : RxBuffer) (p : Prop) : Command → Prop
  | .fork r => Mid.FitsIff rx p r
  | _ => True

lemma fits_linkBuffer_iff (v : Volume) : Fits (field v size) (linkBuffer size) ↔ field v size ≤ afpMaxPath := by
  simp only [Fits, linkBuffer, List.length_replicate, field, afpMaxPath]
  split <;> omega

lemma appends {p : Command → Prop} : Carries S.logged p (OnServer (Appends fun x => p x.1)) where
  command _ c hc := ⟨[(c, _)], rfl, List.forall_mem_singleton.mpr hc⟩
  idle k k' hpeer _ := by
    show Appends _ k.peer k'.peer
    rw [hpeer]
    exact refl k.peer

lemma mlReadlink_fits :
    Moves (OnServer (Appends fun x => x.1.FitsIff (linkBuffer size) (field m.toVolume size ≤ afpMaxPath)))
      (mlReadlink S.logged m clock fi addr junk path size) := by
  refine .bind (.lift (convertPathToAfp m.toVolume path)) fun converted => ?_
  cases converted with
  | none => exact .pure _
  | some converted =>
    refine .bind appends.locate fun place => .bind (appends.call trivial) fun a => .early fun _ => ?_
    refine .bind (.modify fun k => refl k.peer) fun _ => .bind (appends.call (fits_linkBuffer_iff m.toVolume)) fun r => ?_
    refine .ite (fun _ => .throw _) fun _ => .early fun _ => ?_
    -- the fork is closed
    refine .bind (.bind (appends.call trivial) fun a => .ite (fun _ => ?_) fun _ => .pure _) fun ret => ?_
    · exact .bind (.modify fun k => refl k.peer) fun _ => .pure _
    · exact .early fun _ => .pure _

end Links

/-- Every request for data that `ll_read` sends fits its buffer just if its number is no more than the quantum of the server,
and every one of `ml_readlink` just if it is no more than `AFP_MAX_PATH`. With a request that fits, `dsi_recv` takes every
reply that has no more than was asked for. -/
theorem read_requests_fit_iff {σ τ : Type} (P : Peer σ) (v : Volume) (hv : v.rxQuantum < 2 ^ 32) (k k' : Client σ) (buf : Bytes)
    (pos size offset : Nat) (hbuf : pos + size ≤ buf.length) (fp : FileHandle) (r : Int × Bool × Bytes)
    (hread : llRead P v k buf pos size offset fp = .ok (r, k'))
    (S : Station τ) (m : Mount) (clock : Nat → Nat) (fi : FileInfo) (addr junk : Nat) (path : Bytes) (len : Nat)
    (l l' : State (τ × List (Command × Answer))) (link : Int × Bytes)
    (hlink : mlReadlink S.logged m clock fi addr junk path len l = .ok (link, l')) :
    (Adds (FitsIff (readBuffer v buf pos size) (field v size ≤ v.rxQuantum)) k k' ∧
      ∀ count, Fits count (readBuffer v buf pos size) → Receives count (readBuffer v buf pos size)) ∧
    (OnServer (Appends fun x => x.1.FitsIff (linkBuffer len) (field m.toVolume len ≤ afpMaxPath)) l l' ∧
      ∀ count, Fits count (linkBuffer len) → Receives count (linkBuffer len)) := by
  refine ⟨⟨llRead_fits hbuf hread, fun count h => h.receives rfl ?_⟩, mlReadlink_fits hlink, fun count h => h.receives rfl ?_⟩
  · exact Nat.lt_of_le_of_lt (Nat.min_le_left ..) hv
  · exact Nat.mod_lt len (by decide)

def generousPeer (data : Bytes) : Peer Unit := ⟨fun _ _ _ => none, fun s _ => (⟨kFPNoErr, 7, data, 0⟩, s)⟩

def generousStation (data : Bytes) : Station Unit where
  query _ _ _ := none
  respond s _ := ({ Answer.ofCode kFPNoErr with data := data }, s)

theorem read_requests_fit_small : ∃ r k' link l',
    llRead (generousPeer [1, 2]) plainVolume (.start () .empty) (List.replicate 4 0) 0 4 0 dataFork = .ok (r, k') ∧
      mlReadlink (generousStation [97]).logged .plain id ⟨false, 0⟩ 0 0 [47, 97] 4 (.start ((), [])) = .ok (link, l') ∧
      Adds (FitsIff (readBuffer plainVolume (List.replicate 4 0) 0 4) (field plainVolume 4 ≤ plainVolume.rxQuantum))
        (.start () .empty) k' ∧
      OnServer (Appends fun x => x.1.FitsIff (linkBuffer 4) (field plainVolume 4 ≤ afpMaxPath)) (.start ((), [])) l' := by
  have hread : llRead (generousPeer [1, 2]) plainVolume (.start () .empty) (List.replicate 4 0) 0 4 0 dataFork = .ok (_, _) := rfl
  have hlink : mlReadlink (generousStation [97]).logged .plain id ⟨false, 0⟩ 0 0 [47, 97] 4 (.start ((), [])) = .ok (_, _) := rfl
  have h := read_requests_fit_iff _ plainVolume (by decide) _ _ _ 0 4 0 (by decide) _ _ hread _ _ _ _ _ _ _ _ _ _ _ hlink
  exact ⟨_, _, _, _, hread, hlink, h.1.1, h.2.1⟩

lemma mlReadlink_overrun {d : Bytes} {size : Nat} (hd : afpMaxPath < (d.take size).length) :
    mlReadlink (generousStation d) .plain id ⟨false, 0⟩ 0 0 [47, 97] size (.start ()) = .error .copyOverflow :=
  congrFun (if_pos hd) _

def narrowVolume : Volume := { plainVolume with rxQuantum := 2, noLocking := true }

def narrowServer : Server where
  __ := afpServerInit [⟨0, 7, afpRead, some (readBuffer narrowVolume (List.replicate 4 0) 0 4), 5, false, 0, 0⟩] []
  incomingBuffer := List.replicate 32 0

/-- A read of four bytes asks for four. When two have come, the buffer is full and the next call of `dsi_recv` fails. A link
of 769 bytes overruns its array. -/
theorem read_requests_exceed :
    (llRead (generousPeer [1, 2]) narrowVolume (.start () .empty) (List.replicate 4 0) 0 4 0 dataFork).map
        (fun r => r.2.sent.map Prod.fst) = .ok [.read true 7 0 4] ∧
      ¬ Fits 4 (readBuffer narrowVolume (List.replicate 4 0) 0 4) ∧
      ((recvLoop narrowServer
        ⟨[1, 2, 0, 7, 0, 0, 0, 0, 0, 0, 0, 4, 0, 0, 0, 0, 65, 66, 67, 68], [some 16, some 2, some 2], []⟩ [id, id]).bind
          fun (s, sk) => (dsiRecv s sk).map fun r =>
            (r.1, (dsiFindRequest r.2.1.commandRequests 7).map (·.doneWaiting))) = .ok (-1, some false) ∧
      mlReadlink (generousStation (List.replicate 769 97)) .plain id ⟨false, 0⟩ 0 0 [47, 97] 769 (.start ()) =
        .error .copyOverflow ∧
      ¬ Fits 769 (linkBuffer 769) := by
  have hlong : ((List.replicate 769 97 : Bytes).take 769).length = 769 := by
    rw [List.length_take, List.length_replicate, Nat.min_self]
  refine ⟨rfl, by decide, rfl, mlReadlink_overrun ?_, fun h => ?_⟩
  · rw [hlong]
    decide
  · exact absurd ((fits_linkBuffer_iff plainVolume).mp h) (by decide)

end AfpfsNg.Mid
