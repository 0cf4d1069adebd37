import AfpfsNg.Dsi.Recv

/-!
# Packets that arrive piece by piece

What one call of `dsi_recv` (`lib/dsi.c`) does to a packet of which some bytes have arrived, stated in terms of those bytes:
`Server.Holding s cur` says that the incoming buffer starts with `cur` and that `data_read` counts exactly these bytes.
-/

namespace AfpfsNg.Dsi
open AfpfsNg.Base

/-- A DSI packet: 16 bytes of header, and as many bytes of payload as the header says. -/
structure Packet where
  header : Bytes
  payload : Bytes
  header_length : header.length = headerSize
  length_eq : (Header.parse header).length = payload.length

def Packet.bytes (p : Packet) : Bytes := p.header ++ p.payload

def Packet.size (p : Packet) : Nat := headerSize + p.payload.length

def Packet.head (p : Packet) : Header := Header.parse p.header

@[simp] lemma Packet.bytes_length (p : Packet) : p.bytes.length = p.size := by
  simp only [Packet.bytes, Packet.size, List.length_append, p.header_length]

@[simp] lemma Packet.head_length (p : Packet) : p.head.length = p.payload.length := p.length_eq

lemma Packet.headerSize_le (p : Packet) : headerSize ≤ p.size := Nat.le_add_right ..

lemma Packet.parse_take (p : Packet) {n} (h : headerSize ≤ n) :
    Header.parse (p.bytes.take n) = p.head := by
  rw [Header.parse_take h, ← Header.parse_take (Nat.le_refl headerSize), Packet.bytes,
    List.take_left' p.header_length]
  rfl

section Prefixes
variable (p : Packet) {m k : Nat} {stream rest : Bytes}

lemma Packet.length_take (hm : m ≤ p.size) : (p.bytes.take m).length = m :=
  List.length_take_of_le (p.bytes_length.symm ▸ hm)

variable (hst : stream = p.bytes.drop m ++ rest) (hk : m + k ≤ p.size)
include hst hk

lemma Packet.le_stream : k ≤ stream.length := by
  rw [hst, List.length_append, List.length_drop, p.bytes_length]
  omega

lemma Packet.take_stream : p.bytes.take m ++ stream.take k = p.bytes.take (m + k) := by
  have hl : k ≤ (p.bytes.drop m).length := by
    rw [List.length_drop, p.bytes_length]
    omega
  rw [hst, List.take_append_of_le_length hl, List.take_add]

lemma Packet.drop_stream : stream.drop k = p.bytes.drop (m + k) ++ rest := by
  have hl : k ≤ (p.bytes.drop m).length := by
    rw [List.length_drop, p.bytes_length]
    omega
  rw [hst, List.drop_append_of_le_length hl, List.drop_drop]

end Prefixes

/-- The incoming buffer starts with `cur`, and `data_read` counts just that. -/
def Server.Holding (s : Server) (cur : Bytes) : Prop :=
  s.dataRead = cur.length ∧ s.incomingBuffer.take cur.length = cur

variable {s : Server} {sk : Sock}

lemma Server.Holding.nil (h : s.dataRead = 0) : s.Holding [] :=
  ⟨h, rfl⟩

lemma Server.Holding.le {cur} (h : s.Holding cur) : cur.length ≤ s.bufsize := by
  have hl := congrArg List.length h.2
  rw [List.length_take] at hl
  simp only [Server.bufsize]
  omega

lemma Server.Holding.header {cur} (h : s.Holding cur) (hl : headerSize ≤ cur.length) :
    s.header = Header.parse cur := by
  rw [Server.header, ← Header.parse_take hl, h.2]

lemma Server.Holding.header_take {p : Packet} {m} (h : s.Holding (p.bytes.take m)) (hm : headerSize ≤ m)
    (hle : m ≤ p.size) : s.header = p.head := by
  rw [h.header (by rwa [p.length_take hle]), p.parse_take hm]

@[simp] lemma stored_commandRequests (s : Server) (bs) :
    (s.stored bs).commandRequests = s.commandRequests := rfl

@[simp] lemma stored_dataRead (s : Server) (bs) :
    (s.stored bs).dataRead = s.dataRead + bs.length := rfl

lemma store_ok {bs} (h : s.dataRead + bs.length ≤ s.bufsize) : s.store bs = .ok (s.stored bs) :=
  if_pos h

lemma stored_bufsize {bs} (h : s.dataRead + bs.length ≤ s.bufsize) : (s.stored bs).bufsize = s.bufsize :=
  patch_length h

lemma Server.Holding.stored {cur} (h : s.Holding cur) (bs : Bytes) : (s.stored bs).Holding (cur ++ bs) := by
  have hle : s.dataRead ≤ s.incomingBuffer.length := h.1 ▸ h.le
  refine ⟨?_, ?_⟩
  · rw [stored_dataRead, h.1, List.length_append]
  · rw [List.length_append, ← h.1]
    simp only [Server.stored]
    rw [patch_take hle, h.1, h.2]

lemma stored_header {bs} (hd : headerSize ≤ s.dataRead) (hb : s.dataRead ≤ s.bufsize) :
    (s.stored bs).header = s.header := by
  rw [Server.header, Server.header, ← Header.parse_take (Nat.le_refl headerSize), Server.stored,
    patch_take_before hd hb, Header.parse_take (Nat.le_refl headerSize)]

lemma Server.Holding.meanwhile {cur} (h : s.Holding cur) (f) :
    (s.meanwhile f).Holding cur := h

@[simp] lemma update_header (s : Server) (a f) : (s.update a f).header = s.header := rfl
@[simp] lemma update_dataRead (s : Server) (a f) : (s.update a f).dataRead = s.dataRead := rfl
@[simp] lemma countRx_header (s : Server) (n) : (s.countRx n).header = s.header := rfl
@[simp] lemma countRx_dataRead (s : Server) (n) : (s.countRx n).dataRead = s.dataRead := rfl

lemma dsiFindRequest_update {id r f} (hf : dsiFindRequest s.commandRequests id = some r)
    (hid : ∀ x : Request, (f x).requestid = x.requestid) :
    dsiFindRequest (s.update r.addr f).commandRequests id = some (f r) := by
  simp only [Server.update, dsiFindRequest_updateAt hid, hf, Option.map_some, if_true]

lemma take_ne_nil {bs : Bytes} {k} (hpos : 0 < k) (hav : k ≤ bs.length) : bs.take k ≠ [] := by
  intro h
  have := congrArg List.length h
  rw [List.length_take, List.length_nil] at this
  omega

lemma dsiRecv_header {cur k cs} (hold : s.Holding cur) (hlt : cur.length < headerSize)
    (hcs : sk.chunks = some k :: cs) (hpos : 0 < k) (hk : k ≤ headerSize - cur.length) (hav : k ≤ sk.stream.length)
    (hbuf : headerSize ≤ s.bufsize) :
    dsiRecv s sk =
      if cur.length + k = headerSize ∧ (s.stored (sk.stream.take k)).header.length = 0 then
        gotEnough (s.stored (sk.stream.take k)) (sk.consume k)
      else .ok (0, s.stored (sk.stream.take k), sk.consume k) := by
  have hl : (sk.stream.take k).length = k := List.length_take_of_le hav
  have hfit : s.dataRead + (sk.stream.take k).length ≤ s.bufsize := by
    rw [hold.1, hl]
    omega
  have hd : (s.stored (sk.stream.take k)).dataRead = cur.length + k := by
    rw [stored_dataRead, hold.1, hl]
  rw [dsiRecv, if_pos (hold.1 ▸ hlt), Sock.read_some hcs (hold.1 ▸ hk)]
  simp only [if_neg (take_ne_nil hpos hav), store_ok hfit, hd]

lemma gotEnough_none {sk} (hf : dsiFindRequest s.commandRequests s.header.requestid = none)
    (hr : s.header.flags ≠ dsiReply) : gotEnough s sk = readBody s sk none false := by
  simp only [gotEnough, hf, if_neg hr]

lemma gotEnough_runt {sk} (hf : dsiFindRequest s.commandRequests s.header.requestid = none)
    (hr : s.header.flags = dsiReply) : gotEnough s sk = readBody s.countRunt sk none true := by
  simp only [gotEnough, hf, if_pos hr]

lemma gotEnough_read {sk r} (hf : dsiFindRequest s.commandRequests s.header.requestid = some r) (hr : r.isRead = true) :
    gotEnough s sk =
      readReply (s.update r.addr (·.answered (int32 s.header.errorCode))) sk
        (r.answered (int32 s.header.errorCode)) := by
  simp only [gotEnough, hf, Request.answered_isRead, hr, if_true]

lemma gotEnough_other {sk r} (hf : dsiFindRequest s.commandRequests s.header.requestid = some r)
    (hr : r.isRead = false) :
    gotEnough s sk =
      readBody (s.update r.addr (·.answered (int32 s.header.errorCode))) sk
        (some (r.answered (int32 s.header.errorCode))) false := by
  simp only [gotEnough, hf, Request.answered_isRead, hr, Bool.false_eq_true, if_false]

lemma readBody_read {request runt k cs} (hne : ¬ (s.dataRead = headerSize ∧ s.header.length = 0))
    (hcs : sk.chunks = some k :: cs) (hpos : 0 < k) (hk : k ≤ min s.header.length s.bufsize)
    (hav : k ≤ sk.stream.length) (hfit : s.dataRead + k ≤ s.bufsize) :
    readBody s sk request runt =
      if s.dataRead + k < (s.stored (sk.stream.take k)).header.length + headerSize then
        .ok (0, s.stored (sk.stream.take k), sk.consume k)
      else if runt then
        afterProcessing ((s.stored (sk.stream.take k)).logDispatch true) (sk.consume k) request
      else processPacket (s.stored (sk.stream.take k)) (sk.consume k) request runt := by
  have hl : (sk.stream.take k).length = k := List.length_take_of_le hav
  have hd : (s.stored (sk.stream.take k)).dataRead = s.dataRead + k := by
    rw [stored_dataRead, hl]
  rw [readBody, if_neg hne, Sock.read_some hcs hk]
  simp only [if_neg (take_ne_nil hpos hav), store_ok (hl.symm ▸ hfit), hd]

lemma readBody_overflow {request runt k cs} (hne : ¬ (s.dataRead = headerSize ∧ s.header.length = 0))
    (hcs : sk.chunks = some k :: cs) (hpos : 0 < k) (hk : k ≤ min s.header.length s.bufsize)
    (hav : k ≤ sk.stream.length) (hfit : s.bufsize < s.dataRead + k) :
    readBody s sk request runt = .error .incomingOverflow := by
  have hl : (sk.stream.take k).length = k := List.length_take_of_le hav
  have hst : s.store (sk.stream.take k) = .error .incomingOverflow := by
    rw [Server.store, if_neg (by omega)]
  rw [readBody, if_neg hne, Sock.read_some hcs hk]
  simp only [if_neg (take_ne_nil hpos hav), hst]

def queueAfter (q : List Request) (fs : List (List Request → List Request)) : List Request :=
  fs.foldl (fun q f => f q) q

@[simp] lemma settle_zero (s : Server) : settle 0 s = s := rfl

lemma recvLoop_cons {sk f fs} (h : s.polled = true) :
    recvLoop s sk (f :: fs) =
      (dsiRecv (s.meanwhile f) sk).bind fun o => recvLoop (settle o.1 o.2.1) o.2.2 fs := by
  rw [recvLoop, if_pos h]

lemma sum_pos_of_cons {k : Nat} {ks : List Nat} (h : ∀ x ∈ k :: ks, 0 < x) : 0 < (k :: ks).sum := by
  have := h k (by simp)
  rw [List.sum_cons]
  omega

/-- The calls that assemble a header, in any loop `run` around `dsi_recv`; `next` is what such a loop does
with the outcome of a call. The last of them goes on at `gotenough:` when the header announces no payload,
and otherwise leaves the packet to the calls that follow. -/
lemma run_header {β : Type} (run : Server → Sock → List (List Request → List Request) → β)
    (next : List Request → List (List Request → List Request) → Outcome → β) (gs) {hs : List Nat} {cur fs cs}
    (hrun : ∀ {s sk f is}, f ∈ fs → s.polled = true →
      run s sk (f :: is) = next (f s.commandRequests) is (dsiRecv (s.meanwhile f) sk))
    (hnext : ∀ {s sk is}, next s.commandRequests is (.ok (0, s, sk)) = run s sk is)
    (hold : s.Holding cur) (hlt : cur.length < headerSize) (hpos : ∀ k ∈ hs, 0 < k)
    (hsum : cur.length + hs.sum = headerSize) (hfs : fs.length = hs.length) (hcs : sk.chunks = hs.map some ++ cs)
    (hav : hs.sum ≤ sk.stream.length) (hbuf : headerSize ≤ s.bufsize) (hp : s.polled = true) :
    ∃ s1, s1.Holding (cur ++ sk.stream.take hs.sum) ∧ s1.bufsize = s.bufsize ∧
      s1 = { s with
        incomingBuffer := s1.incomingBuffer, dataRead := s1.dataRead, stats := s1.stats
        commandRequests := queueAfter s.commandRequests fs } ∧
      run s sk (fs ++ gs) = next (queueAfter s.commandRequests fs) gs
        (if s1.header.length = 0 then gotEnough s1 { sk with stream := sk.stream.drop hs.sum, chunks := cs }
         else .ok (0, s1, { sk with stream := sk.stream.drop hs.sum, chunks := cs })) := by
  induction hs generalizing s sk cur fs with
  | nil =>
    rw [List.sum_nil] at hsum
    omega
  | cons k hs ih =>
    obtain ⟨f, fs, rfl⟩ : ∃ f fs', fs = f :: fs' := by
      cases fs with
      | nil => simp at hfs
      | cons f fs => exact ⟨f, fs, rfl⟩
    have hk : 0 < k := hpos k (by simp)
    rw [List.sum_cons] at hsum hav
    have hhold := hold.meanwhile f
    have hone := dsiRecv_header hhold hlt hcs hk (by omega) (by omega) hbuf
    have hl : (sk.stream.take k).length = k := List.length_take_of_le (by omega)
    have hfit : (s.meanwhile f).dataRead + (sk.stream.take k).length ≤ s.bufsize := by
      rw [hhold.1, hl]
      omega
    rw [List.cons_append, hrun (.head _) hp, hone]
    cases hs with
    | nil =>
      obtain rfl : fs = [] := by simpa using hfs
      rw [List.sum_nil] at hsum
      refine ⟨(s.meanwhile f).stored (sk.stream.take k), ?_, stored_bufsize hfit, rfl, ?_⟩
      · simpa using hhold.stored (sk.stream.take k)
      · have hsk : sk.consume k = { sk with stream := sk.stream.drop k, chunks := cs } := by
          simp [Sock.consume, hcs]
        have he : cur.length + k = headerSize := by omega
        simp only [List.sum_cons, List.sum_nil, Nat.add_zero, hsk, he, true_and, List.nil_append]
        rfl
    | cons k' hs =>
      have hpos' : ∀ x ∈ k' :: hs, 0 < x := fun x hx => hpos x (List.mem_cons_of_mem _ hx)
      have hrest := sum_pos_of_cons hpos'
      have hcur : (cur ++ sk.stream.take k).length = cur.length + k := by
        rw [List.length_append, hl]
      obtain ⟨s1, hold1, hbuf1, hs1, hloop⟩ := @ih _ (sk.consume k) _ fs (fun hf => hrun (.tail _ hf))
        (hhold.stored (sk.stream.take k)) (by omega) hpos' (by omega) (by simpa using hfs)
        (by simp [Sock.consume, hcs]) (by rw [Sock.consume, List.length_drop]; omega)
        (by rw [stored_bufsize hfit]; exact hbuf) hp
      refine ⟨s1, ?_, hbuf1.trans (stored_bufsize hfit), hs1, ?_⟩
      · rw [List.append_assoc] at hold1
        simpa [Sock.consume, List.take_add] using hold1
      · rw [if_neg (by omega)]
        refine hnext.trans (hloop.trans ?_)
        simp only [Sock.consume, List.drop_drop, List.sum_cons]
        rfl

end AfpfsNg.Dsi
