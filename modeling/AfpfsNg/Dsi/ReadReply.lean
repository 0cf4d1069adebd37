import AfpfsNg.Dsi.Reception

/-!
# Read replies

The read path of `dsi_recv` (`lib/dsi.c`): the payload of an answer to `afpRead` or `afpReadExt` goes straight to the receive
buffer of the queued request, piece by piece. `Filling` is the invariant between two calls: what has arrived stands at the
start of the buffer, `size` counts it, and the rest of the request is as it was queued.
-/

namespace AfpfsNg.Dsi
open AfpfsNg.Base

/-- The first queued request with the id is the read `r`, with `got` in its receive buffer of capacity `maxsize`. -/
def Filling (q : List Request) (id : Nat) (r : Request) (maxsize : Nat) (got : Bytes) : Prop :=
  ∃ rx c, dsiFindRequest q id = some ((r.answered c).received rx) ∧
    rx.maxsize = maxsize ∧ maxsize ≤ rx.data.length ∧ rx.size = got.length ∧
    rx.data.take got.length = got

/-- It is completed, with the return code. -/
def Filled (q : List Request) (id : Nat) (r : Request) (code : Int) (got : Bytes) : Prop :=
  ∃ rx, dsiFindRequest q id = some ((r.answered code).received rx).completed ∧
    rx.size = got.length ∧ rx.data.take got.length = got

lemma Filling.congr {q q' id r maxsize got} (h : Filling q id r maxsize got)
    (hq : dsiFindRequest q' id = dsiFindRequest q id) : Filling q' id r maxsize got := by
  obtain ⟨rx, c, hf, hrest⟩ := h
  exact ⟨rx, c, hq.trans hf, hrest⟩

lemma newmax_eq {rx n} (hn : n ≤ rx.maxsize) (h32 : rx.maxsize < 2 ^ 32) (hlt : rx.size ≤ n) :
    newmax rx n = n - rx.size := by
  rw [newmax, sub32_of_le (Nat.le_trans hlt hn) h32, sub32_of_le hlt (by omega)]
  omega

lemma recvOut_waited {s : Server} {r : Request} (hw : r.wait ≠ 0) :
    recvOut s (some r) = s.update r.addr (·.completed) := by
  simp only [recvOut, if_pos hw]

lemma gotEnough_empty_read (sk) {s : Server} {r rx} (hd : s.dataRead = headerSize)
    (hlen : s.header.length = 0) (hf : dsiFindRequest s.commandRequests s.header.requestid = some r)
    (hr : r.isRead = true) (hrx : r.other = some rx) (hw : r.wait ≠ 0) (hsize : rx.size = 0) :
    ∃ s', gotEnough s sk = .ok (0, s', sk) ∧ s'.dataRead = 0 ∧
      Filled s'.commandRequests s.header.requestid r (int32 s.header.errorCode) [] := by
  rw [gotEnough_read hf hr]
  generalize int32 s.header.errorCode = c
  have h1 := dsiFindRequest_update (f := (·.answered c)) hf (fun _ => rfl)
  have h2 := dsiFindRequest_update (s := (s.update r.addr (·.answered c)).reset) (f := (·.completed))
    h1 (fun _ => rfl)
  simp only [readReply, Request.answered_other, hrx, update_dataRead, hd, update_header, hlen,
    and_self, if_true, recvOut_waited (r := r.answered c) hw]
  refine ⟨_, rfl, rfl, rx, ?_, hsize, rfl⟩
  rw [Request.received_self (r := r.answered c) hrx]
  exact h2

lemma readReply_read {s : Server} {sk : Sock} {r rx k cs} (hd : s.dataRead = headerSize)
    (hlen : s.header.length ≠ 0) (hrx : r.other = some rx) (hm : rx.maxsize ≠ 0)
    (hcs : sk.chunks = some k :: cs) (hpos : 0 < k) (hk : k ≤ newmax rx s.header.length)
    (hav : k ≤ sk.stream.length) (hcap : rx.size + k ≤ rx.data.length) {rx' s'}
    (erx : rx' = rx.extend (sk.stream.take k))
    (es : s' = (s.countRx k).update r.addr (·.received rx')) :
    readReply s sk r =
      if s.header.length = rx.size + k then
        .ok (0, recvOut s'.reset (some (r.received rx')), sk.consume k)
      else .ok (0, s', sk.consume k) := by
  subst erx es
  have hl : (sk.stream.take k).length = k := List.length_take_of_le hav
  have hne : ¬ (s.dataRead = headerSize ∧ s.header.length = 0) := fun h => hlen h.2
  have hcap' : ¬ rx.data.length < rx.size + k := by omega
  simp only [readReply, hrx, if_neg hne, if_neg hm, Sock.read_some hcs hk, hl,
    if_neg (take_ne_nil hpos hav), if_neg hcap']
  have e3 : (rx.extend (sk.stream.take k)).size = rx.size + k := by
    rw [RxBuffer.extend, hl]
  simp only [update_header, countRx_header, update_dataRead, countRx_dataRead, hd, e3, if_true,
    Request.received_addr]

lemma dsiRecv_reading {s : Server} {sk : Sock} {hdr r maxsize got k cs} (hold : s.Holding hdr)
    (hhdr : hdr.length = headerSize) (hr : r.isRead = true) (hw : r.wait ≠ 0)
    (hfill : Filling s.commandRequests (Header.parse hdr).requestid r maxsize got)
    (hmax : (Header.parse hdr).length ≤ maxsize) (h32 : maxsize < 2 ^ 32)
    (hcs : sk.chunks = some k :: cs) (hpos : 0 < k)
    (hk : got.length + k ≤ (Header.parse hdr).length) (hav : k ≤ sk.stream.length) :
    ∃ s', dsiRecv s sk = .ok (0, s', sk.consume k) ∧ s'.polled = s.polled ∧
      if got.length + k = (Header.parse hdr).length then
        s'.dataRead = 0 ∧ Filled s'.commandRequests (Header.parse hdr).requestid r
          (int32 (Header.parse hdr).errorCode) (got ++ sk.stream.take k)
      else
        s'.Holding hdr ∧ Filling s'.commandRequests (Header.parse hdr).requestid r maxsize
          (got ++ sk.stream.take k) := by
  obtain ⟨rx, c0, hf, rfl, hcap, hsize, hdata⟩ := hfill
  have hh : s.header = Header.parse hdr := hold.header (by omega)
  have hd : s.dataRead = headerSize := hold.1.trans hhdr
  have hl : (sk.stream.take k).length = k := List.length_take_of_le hav
  rw [← hh] at hf hmax hk ⊢
  rw [dsiRecv, if_neg (by omega), gotEnough_read hf hr]
  generalize int32 s.header.errorCode = c
  -- the buffer afterwards, and the lookups after each assignment through the request pointer
  generalize erx : rx.extend (sk.stream.take k) = rx'
  have hsize' : rx'.size = (got ++ sk.stream.take k).length := by
    rw [← erx, List.length_append, RxBuffer.extend, hsize]
  have hdata' : rx'.data.take (got ++ sk.stream.take k).length = got ++ sk.stream.take k := by
    rw [← erx, List.length_append, RxBuffer.extend, hsize, patch_take (by omega), hdata]
  have hcap' : rx'.data.length = rx.data.length := by
    rw [← erx, RxBuffer.extend, patch_length (by omega)]
  have h1 := dsiFindRequest_update (f := (·.answered c)) hf (fun _ => rfl)
  have h2 := dsiFindRequest_update (f := (·.received rx'))
    (s := (s.update ((r.answered c0).received rx).addr (·.answered c)).countRx k) h1 (fun _ => rfl)
  have hstep := readReply_read (s := s.update ((r.answered c0).received rx).addr (·.answered c))
    (r := ((r.answered c0).received rx).answered c) hd (by rw [update_header]; omega) rfl (by omega) hcs
    hpos (by rw [update_header, newmax_eq hmax h32 (by omega)]; omega) hav (by omega) erx.symm rfl
  rw [hstep, update_header, hsize]
  by_cases hdone : got.length + k = s.header.length
  · have hw' : ((((r.answered c0).received rx).answered c).received rx').wait ≠ 0 := hw
    rw [if_pos hdone.symm, recvOut_waited hw']
    refine ⟨_, rfl, rfl, ?_⟩
    rw [if_pos hdone]
    refine ⟨rfl, rx', ?_, hsize', hdata'⟩
    exact dsiFindRequest_update (f := (·.completed)) h2 (fun _ => rfl)
  · rw [if_neg (Ne.symm hdone)]
    refine ⟨_, rfl, rfl, ?_⟩
    rw [if_neg hdone]
    exact ⟨hold, rx', c, h2, by rw [← erx]; rfl, by omega, hsize', hdata'⟩

lemma recvLoop_reading (sk : Sock) {s : Server} {ps : List Nat} {hdr r maxsize got fs cs}
    (hold : s.Holding hdr) (hhdr : hdr.length = headerSize) (hr : r.isRead = true) (hw : r.wait ≠ 0)
    (hfill : Filling s.commandRequests (Header.parse hdr).requestid r maxsize got)
    (hmax : (Header.parse hdr).length ≤ maxsize) (h32 : maxsize < 2 ^ 32) (hne : ps ≠ [])
    (hcs : sk.chunks = ps.map some ++ cs) (hpos : ∀ k ∈ ps, 0 < k)
    (hsum : got.length + ps.sum = (Header.parse hdr).length) (hav : ps.sum ≤ sk.stream.length)
    (hfs : fs.length = ps.length) (hp : s.polled = true)
    (henv : ∀ f ∈ fs, ∀ q, dsiFindRequest (f q) (Header.parse hdr).requestid =
      dsiFindRequest q (Header.parse hdr).requestid) :
    ∃ s', recvLoop s sk fs = .ok (s', { sk with stream := sk.stream.drop ps.sum, chunks := cs }) ∧
      s'.dataRead = 0 ∧ Filled s'.commandRequests (Header.parse hdr).requestid r
        (int32 (Header.parse hdr).errorCode) (got ++ sk.stream.take ps.sum) := by
  induction ps generalizing s sk got fs with
  | nil => exact absurd rfl hne
  | cons k ps ih =>
    obtain ⟨f, fs, rfl⟩ : ∃ f fs', fs = f :: fs' := by
      cases fs with
      | nil => simp at hfs
      | cons f fs => exact ⟨f, fs, rfl⟩
    rw [List.sum_cons] at hsum hav
    have hk : 0 < k := hpos k (by simp)
    obtain ⟨s', hone, hp', hthen⟩ := dsiRecv_reading (hold.meanwhile f) hhdr hr hw
      (hfill.congr (henv f (by simp) _)) hmax h32 hcs hk (by omega) (by omega)
    rw [recvLoop_cons hp, hone]
    simp only [Except.bind, settle_zero]
    cases ps with
    | nil =>
      obtain rfl : fs = [] := by simpa using hfs
      rw [List.sum_nil] at hsum
      rw [if_pos (by omega)] at hthen
      refine ⟨s', ?_, hthen.1, by simpa using hthen.2⟩
      simp [recvLoop, Sock.consume, hcs]
    | cons k' ps =>
      have hpos' : ∀ x ∈ k' :: ps, 0 < x := fun x hx => hpos x (List.mem_cons_of_mem _ hx)
      have hrest := sum_pos_of_cons hpos'
      have hl : (sk.stream.take k).length = k := List.length_take_of_le (by omega)
      rw [if_neg (by omega)] at hthen
      obtain ⟨s2, hrun, hd2, hfill2⟩ := @ih (sk.consume k) _ _ _ hthen.1 hthen.2 (by simp)
        (by simp [Sock.consume, hcs]) hpos' (by rw [List.length_append]; omega)
        (by rw [Sock.consume, List.length_drop]; omega)
        (by simpa using hfs) (hp'.trans hp) (fun g hg => henv g (List.mem_cons_of_mem _ hg))
      refine ⟨s2, ?_, hd2, ?_⟩
      · rw [hrun]
        simp only [Sock.consume, List.drop_drop, List.sum_cons]
      · rw [List.append_assoc] at hfill2
        simpa [Sock.consume, List.take_add] using hfill2

lemma dsiFindRequest_queueAfter {q fs id}
    (henv : ∀ f ∈ fs, ∀ q, dsiFindRequest (f q) id = dsiFindRequest q id) :
    dsiFindRequest (queueAfter q fs) id = dsiFindRequest q id := by
  induction fs generalizing q with
  | nil => rfl
  | cons f fs ih =>
    rw [show queueAfter q (f :: fs) = queueAfter (f q) fs from rfl,
      ih (fun g hg => henv g (List.mem_cons_of_mem _ hg)), henv f (by simp)]

lemma recvLoop_read_reply {s : Server} {sk : Sock} {r : Request} {rx : RxBuffer} {p : Packet}
    {rest : Bytes} {hs ps : List Nat} {cs : List (Option Nat)}
    {fs : List (List Request → List Request)} (hp : s.polled = true) (hd : s.dataRead = 0)
    (hbuf : headerSize ≤ s.bufsize)
    (hfind : dsiFindRequest s.commandRequests p.head.requestid = some r) (hr : r.isRead = true)
    (hw : r.wait ≠ 0) (hrx : r.other = some rx) (hempty : rx.size = 0)
    (h32 : rx.maxsize < 2 ^ 32) (hcap : rx.maxsize ≤ rx.data.length)
    (hn : p.payload.length ≤ rx.maxsize) (hstream : sk.stream = p.bytes ++ rest)
    (hcs : sk.chunks = (hs ++ ps).map some ++ cs) (hhs : hs.sum = headerSize)
    (hps : ps.sum = p.payload.length) (hpos : ∀ k ∈ hs ++ ps, 0 < k)
    (hfs : fs.length = (hs ++ ps).length)
    (henv : ∀ f ∈ fs, ∀ q, dsiFindRequest (f q) p.head.requestid =
      dsiFindRequest q p.head.requestid) :
    ∃ s' r' rx', recvLoop s sk fs = .ok (s', { sk with stream := rest, chunks := cs }) ∧
      s'.dataRead = 0 ∧ dsiFindRequest s'.commandRequests p.head.requestid = some r' ∧
      r'.returnCode = int32 p.head.errorCode ∧ r'.doneWaiting = true ∧ r'.signals = r.signals + 1 ∧
      r'.other = some rx' ∧ rx'.size = p.payload.length ∧
      rx'.data.take p.payload.length = p.payload := by
  have hid : p.head = Header.parse p.header := rfl
  rw [hid] at hfind henv ⊢
  have hpl := p.length_eq
  have hhl := p.header_length
  -- the header first
  obtain ⟨fs1, fs2, rfl, hfs1⟩ : ∃ fs1 fs2, fs = fs1 ++ fs2 ∧ fs1.length = hs.length :=
    ⟨fs.take hs.length, fs.drop hs.length, (List.take_append_drop ..).symm, by
      rw [List.length_take, hfs, List.length_append]; omega⟩
  have hfs2 : fs2.length = ps.length := by
    rw [List.length_append, List.length_append] at hfs
    omega
  have hslen : sk.stream.length = headerSize + p.payload.length + rest.length := by
    rw [hstream, List.length_append, p.bytes_length, Packet.size]
  obtain ⟨s1, hold1, hbuf1, hs1, hrun⟩ := run_header recvLoop
    (fun _ gs out => out.bind fun o => recvLoop (settle o.1 o.2.1) o.2.2 gs) fs2 (fun _ => recvLoop_cons) rfl
    (Server.Holding.nil hd) (by simp [headerSize])
    (fun k hk => hpos k (List.mem_append_left _ hk)) (by simpa using hhs) hfs1
    (show sk.chunks = hs.map some ++ (ps.map some ++ cs) by simpa using hcs) (by omega) hbuf hp
  have htake : sk.stream.take hs.sum = p.header := by
    rw [hhs, hstream, Packet.bytes, List.append_assoc, List.take_left' hhl]
  have hdrop : sk.stream.drop hs.sum = p.payload ++ rest := by
    rw [hhs, hstream, Packet.bytes, List.append_assoc, List.drop_left' hhl]
  rw [htake, List.nil_append] at hold1
  have hh1 : s1.header = Header.parse p.header := hold1.header (by omega)
  have hlen1 : s1.header.length = p.payload.length := by rw [hh1, hpl]
  have hd1 : s1.dataRead = headerSize := hold1.1.trans hhl
  have hq1 : dsiFindRequest s1.commandRequests (Header.parse p.header).requestid = some r := by
    rw [hs1]
    exact (dsiFindRequest_queueAfter fun f hf => henv f (List.mem_append_left _ hf)).trans hfind
  have hp1 : s1.polled = true := by
    rw [hs1]
    exact hp
  rw [hrun, hdrop]
  -- then the payload, if there is any
  by_cases hzero : p.payload.length = 0
  · have hps0 : ps = [] := by
      cases ps with
      | nil => rfl
      | cons k ps =>
        have := sum_pos_of_cons fun x hx => hpos x (List.mem_append_right _ hx)
        omega
    subst hps0
    obtain rfl : fs2 = [] := by simpa using hfs2
    have hnil : p.payload = [] := List.length_eq_zero_iff.mp hzero
    rw [← hh1] at hq1
    obtain ⟨s', hgot, hd', rx', hf', hsz, -⟩ := gotEnough_empty_read
      { sk with stream := p.payload ++ rest, chunks := [].map some ++ cs } hd1
      (hlen1.trans hzero) hq1 hr hrx hw hempty
    rw [if_pos (hlen1.trans hzero), hgot, ← hh1]
    refine ⟨s', _, rx', ?_, hd', hf', rfl, rfl, rfl, rfl, hsz.trans hzero.symm, ?_⟩
    · simp [recvLoop, Except.bind, hnil]
    · rw [hnil]
      rfl
  · have hfill : Filling s1.commandRequests (Header.parse p.header).requestid r rx.maxsize [] := by
      refine ⟨rx, r.returnCode, ?_, rfl, hcap, hempty, rfl⟩
      rw [hq1, Request.answered_self, Request.received_self hrx]
    have hps0 : ps ≠ [] := by
      rintro rfl
      exact hzero hps.symm
    rw [if_neg (hlen1 ▸ hzero)]
    simp only [Except.bind, settle_zero]
    obtain ⟨s', hrun', hd', rx', hf', hsz, hdata⟩ := recvLoop_reading
      { sk with stream := p.payload ++ rest, chunks := ps.map some ++ cs } hold1 hhl hr hw hfill
      (by omega) h32 hps0 rfl (fun k hk => hpos k (List.mem_append_right _ hk))
      (by rw [List.length_nil]; omega) (by rw [List.length_append]; omega) hfs2 hp1
      (fun f hf => henv f (List.mem_append_right _ hf))
    have hall : [] ++ (p.payload ++ rest).take ps.sum = p.payload := by
      rw [hps, List.take_left, List.nil_append]
    rw [hall] at hsz hdata
    refine ⟨s', _, rx', ?_, hd', hf', rfl, rfl, rfl, rfl, hsz, hdata⟩
    rw [hrun', hps, List.drop_left]

end AfpfsNg.Dsi
