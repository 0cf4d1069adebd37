import AfpfsNg.Base.Segments
import AfpfsNg.Dsi.Handlers

/-!
# Framing

`dsi_recv` (`lib/dsi.c`) against the packets that a server sends: a stream of packets arrives in pieces, and the calls should
hand on each packet once, whole and alone. `FramedAfter` is that statement about a run. A call that reads on in a body asks
for the whole `length` again, so its piece may run into the next packet.
-/

namespace AfpfsNg.Dsi
open AfpfsNg.Base

def dsiRequest : Nat := 0

/-- An answer to one of the client's requests, or a request of the server's own. -/
def Packet.WellFormed (p : Packet) : Prop :=
  (p.head.flags = dsiReply ∧ p.head.command ∈ [dsiCommand, dsiGetStatus, dsiOpenSession, dsiWrite]) ∨
    (p.head.flags = dsiRequest ∧ p.head.command ∈ [dsiCloseSession, dsiTickle, dsiAttention])

instance (p : Packet) : Decidable p.WellFormed := inferInstanceAs (Decidable (_ ∨ _))

/-- An attention packet fits the attention buffer, and a CloseSession does not unmount the last volume. -/
def Packet.Manageable (p : Packet) (quantum : Nat) (vols : List MountState) : Prop :=
  (p.head.command = dsiAttention → p.size ≤ quantum) ∧
    (p.head.command = dsiCloseSession → (afpUnmountAllVolumes vols).isSome = true)

variable {p : Packet} {s : Server}

lemma Packet.WellFormed.known (h : p.WellFormed) : p.head.command ∈ knownCommands := by
  rcases h with ⟨-, h⟩ | ⟨-, h⟩ <;>
    simp only [List.mem_cons, List.not_mem_nil, or_false] at h <;>
    simp only [knownCommands, List.mem_cons, List.not_mem_nil, or_false] <;> tauto

lemma Packet.WellFormed.reply (h : p.WellFormed) (hc : p.head.command = dsiCommand ∨ p.head.command = dsiWrite) :
    p.head.flags = dsiReply := by
  rcases h with ⟨h, -⟩ | ⟨-, h⟩
  · exact h
  · rcases hc with hc | hc <;>
      simp [hc, dsiCommand, dsiWrite, dsiCloseSession, dsiTickle, dsiAttention] at h

lemma Packet.WellFormed.manageable (h : p.WellFormed) (hf : p.head.flags = dsiReply) (quantum vols) :
    p.Manageable quantum vols := by
  rcases h with ⟨-, h⟩ | ⟨h, -⟩
  · constructor <;> intro hc <;>
      simp [hc, dsiCommand, dsiWrite, dsiCloseSession, dsiGetStatus, dsiOpenSession,
        dsiAttention] at h
  · rw [h] at hf
    cases hf

/-- What stays when a packet is completed: the log gains one entry, and reading starts over. -/
structure Handed (s : Server) (sk : Sock) (runt : Bool) (s' : Server) (sk' : Sock) : Prop where
  dispatched : s'.dispatched = s.dispatched ++ [⟨s.dataRead, s.incomingBuffer.take s.dataRead, runt⟩]
  dataRead : s'.dataRead = 0
  bufsize : s'.bufsize = s.bufsize
  attentionQuantum : s'.attentionQuantum = s.attentionQuantum
  stream : sk'.stream = sk.stream
  chunks : sk'.chunks = sk.chunks
  quiet : s.header.command ≠ dsiCloseSession → s'.polled = s.polled ∧ s'.volumes = s.volumes

lemma afterProcessing_exact {sk request} (hd : s.dataRead = s.header.length + headerSize) :
    afterProcessing s sk request = .ok (0, recvOut s.reset request, sk) := by
  simp only [afterProcessing, if_pos hd]

lemma runt_exact {sk request} (hd : s.dataRead = s.header.length + headerSize) :
    ∃ s', afterProcessing (s.logDispatch true) sk request = .ok (0, s', sk) ∧ Handed s sk true s' sk := by
  rw [afterProcessing_exact (s := s.logDispatch true) hd]
  have hq := recvOut_quiet (s.logDispatch true).reset request
  exact ⟨_, rfl, hq.dispatched, hq.dataRead, hq.bufsize, hq.attentionQuantum, rfl, rfl,
    fun _ => ⟨hq.polled, hq.volumes⟩⟩

lemma processPacket_exact {sk request runt} (hk : s.header.command ∈ knownCommands)
    (hreq : s.header.command = dsiCommand ∨ s.header.command = dsiWrite →
      runt = true ∨ ∃ r, request = some r ∧ r.isRead = false)
    (hr : ∀ r, request = some r → r.isRead = false) (hd : s.dataRead = s.header.length + headerSize) :
    (s.Manageable →
      ∃ s' sk', processPacket s sk request runt = .ok (0, s', sk') ∧ Handed s sk runt s' sk') ∧
    (¬ s.Manageable → ∃ e, processPacket s sk request runt = .error e) := by
  have hsw := @switchCommand_known (s.logDispatch runt) sk request runt hk hreq
  refine ⟨fun hm => ?_, fun hm => ?_⟩
  · obtain ⟨⟨s1, sk1⟩, hrun⟩ := hsw.1 hm
    obtain ⟨hf, hst, hch, -, hq⟩ := switchCommand_frame hrun hr
    have hout := recvOut_quiet s1.reset request
    refine ⟨recvOut s1.reset request, sk1, ?_, ?_⟩
    · rw [processPacket, hrun]
      exact afterProcessing_exact (hf.whole hd)
    · refine ⟨hout.dispatched.trans hf.dispatched, hout.dataRead, hout.bufsize.trans hf.bufsize,
        hout.attentionQuantum.trans hf.attentionQuantum, hst, hch, fun hne => ?_⟩
      exact ⟨hout.polled.trans (hq hne).polled, hout.volumes.trans (hq hne).volumes⟩
  · obtain ⟨e, hrun⟩ := hsw.2 hm
    exact ⟨e, by rw [processPacket, hrun]⟩

lemma gotEnough_body (sk) (hr : ∀ r, dsiFindRequest s.commandRequests s.header.requestid = some r → r.isRead = false) :
    ∃ s1 request runt, gotEnough s sk = readBody s1 sk request runt ∧ s.Quiet s1 ∧
      (∀ r, request = some r → r.isRead = false) ∧ (runt = true → s.header.flags = dsiReply) ∧
      (s.header.flags = dsiReply → runt = true ∨ ∃ r, request = some r ∧ r.isRead = false) := by
  cases hf : dsiFindRequest s.commandRequests s.header.requestid with
  | none =>
    by_cases hflag : s.header.flags = dsiReply
    · refine ⟨_, _, _, gotEnough_runt hf hflag, ?_, ?_, fun _ => hflag, fun _ => .inl rfl⟩
      · exact ⟨⟨rfl, rfl, rfl, rfl⟩, rfl, rfl⟩
      · intro r h
        cases h
    · refine ⟨_, _, _, gotEnough_none hf hflag, .refl s, ?_, ?_, fun h => absurd h hflag⟩
      · intro r h
        cases h
      · intro h
        cases h
  | some r =>
    have hread := hr r hf
    refine ⟨_, _, _, gotEnough_other hf hread, update_quiet .., ?_, ?_, fun _ => .inr ⟨_, rfl, ?_⟩⟩
    · intro r' h
      cases h
      exact hread
    · intro h
      cases h
    · exact hread

/-- What a call that does not complete a packet keeps. -/
structure Server.Kin (s s' : Server) : Prop where
  bufsize : s'.bufsize = s.bufsize
  attentionQuantum : s'.attentionQuantum = s.attentionQuantum
  dispatched : s'.dispatched = s.dispatched
  polled : s'.polled = s.polled
  volumes : s'.volumes = s.volumes

lemma Server.Quiet.kin {s' : Server} (h : s.Quiet s') : s.Kin s' :=
  ⟨h.bufsize, h.attentionQuantum, h.dispatched, h.polled, h.volumes⟩

lemma stored_kin {bs} (h : s.dataRead + bs.length ≤ s.bufsize) : s.Kin (s.stored bs) :=
  ⟨stored_bufsize h, rfl, rfl, rfl, rfl⟩

lemma Server.Kin.trans {s1 s2 s3 : Server} (h : s1.Kin s2) (h' : s2.Kin s3) : s1.Kin s3 :=
  ⟨h'.1.trans h.1, h'.2.trans h.2, h'.3.trans h.3, h'.4.trans h.4, h'.5.trans h.5⟩

/-- The outcome of a call that completes the packet `p` in a server that was `s` before. -/
def Completes (out : Outcome) (s : Server) (p : Packet) (tail : Bytes) (cs : List (Option Nat)) : Prop :=
  (p.Manageable s.attentionQuantum s.volumes → ∃ s' sk' runt, out = .ok (0, s', sk') ∧
    s'.dispatched = s.dispatched ++ [⟨p.size, p.bytes, runt⟩] ∧ s'.dataRead = 0 ∧
    s'.bufsize = s.bufsize ∧ s'.attentionQuantum = s.attentionQuantum ∧ sk'.stream = tail ∧
    sk'.chunks = cs ∧
    (p.head.command ≠ dsiCloseSession → s'.polled = s.polled ∧ s'.volumes = s.volumes)) ∧
  (¬ p.Manageable s.attentionQuantum s.volumes → ∃ e, out = .error e)

section
variable {s s1 : Server} {sk : Sock} {p : Packet} {request : Option Request} {runt : Bool}

lemma Server.Holding.whole_header (hold : s.Holding p.bytes) : s.header = p.head := by
  have hl : headerSize ≤ p.bytes.length := p.bytes_length.symm ▸ p.headerSize_le
  rw [hold.header hl, ← p.parse_take hl, List.take_length]

lemma Server.Holding.whole_dataRead (hold : s.Holding p.bytes) :
    s.dataRead = s.header.length + headerSize := by
  rw [hold.whole_header, hold.1, p.bytes_length, p.head_length, Packet.size]
  omega

lemma Handed.completes {s' : Server} {sk' : Sock} (h : Handed s1 sk runt s' sk')
    (hold : s1.Holding p.bytes) (hk : s.Kin s1) :
    s'.dispatched = s.dispatched ++ [⟨p.size, p.bytes, runt⟩] ∧ s'.dataRead = 0 ∧
      s'.bufsize = s.bufsize ∧ s'.attentionQuantum = s.attentionQuantum ∧ sk'.stream = sk.stream ∧
      sk'.chunks = sk.chunks ∧
      (p.head.command ≠ dsiCloseSession → s'.polled = s.polled ∧ s'.volumes = s.volumes) := by
  refine ⟨?_, h.dataRead, h.bufsize.trans hk.bufsize, h.attentionQuantum.trans hk.attentionQuantum,
    h.stream, h.chunks, fun hne => ?_⟩
  · rw [h.dispatched, hk.dispatched, hold.1, hold.2, p.bytes_length]
  · obtain ⟨h1, h2⟩ := h.quiet (by rw [hold.whole_header]; exact hne)
    exact ⟨h1.trans hk.polled, h2.trans hk.volumes⟩

lemma manageable_whole (hold : s.Holding p.bytes) :
    s.Manageable ↔ p.Manageable s.attentionQuantum s.volumes := by
  rw [Server.Manageable, Packet.Manageable, hold.whole_header, hold.1, p.bytes_length]

lemma processPacket_whole (hold : s1.Holding p.bytes) (hk : s.Kin s1) (hwf : p.WellFormed)
    (hr : ∀ r, request = some r → r.isRead = false)
    (hreply : p.head.flags = dsiReply → runt = true ∨ ∃ r, request = some r ∧ r.isRead = false) :
    Completes (processPacket s1 sk request runt) s p sk.stream sk.chunks := by
  have hh := hold.whole_header
  have hm : s1.Manageable ↔ p.Manageable s.attentionQuantum s.volumes := by
    rw [manageable_whole hold, hk.attentionQuantum, hk.volumes]
  have hpp := @processPacket_exact s1 sk request runt (by rw [hh]; exact hwf.known)
    (fun hc => hreply (hwf.reply (by rwa [hh] at hc))) hr hold.whole_dataRead
  rw [hm] at hpp
  refine ⟨fun hman => ?_, hpp.2⟩
  obtain ⟨s', sk', hout, hh⟩ := hpp.1 hman
  exact ⟨s', sk', runt, hout, hh.completes hold hk⟩

lemma runt_whole (hold : s1.Holding p.bytes) (hk : s.Kin s1) (hwf : p.WellFormed)
    (hflag : p.head.flags = dsiReply) :
    Completes (afterProcessing (s1.logDispatch true) sk request) s p sk.stream sk.chunks := by
  refine ⟨fun _ => ?_, fun hno => absurd (hwf.manageable hflag ..) hno⟩
  obtain ⟨s', hout, hh⟩ := @runt_exact s1 sk request hold.whole_dataRead
  exact ⟨s', sk, true, hout, hh.completes hold hk⟩

end

/-- The state in the middle of a packet: its first `m` bytes are held, the rest of it is on the way. -/
structure Amid (s : Server) (sk : Sock) (p : Packet) (m : Nat) (tail : Bytes) : Prop where
  holding : s.Holding (p.bytes.take m)
  lt : m < p.size
  fits : p.size ≤ s.bufsize
  stream : sk.stream = p.bytes.drop m ++ tail
  noread : ∀ r, dsiFindRequest s.commandRequests p.head.requestid = some r → r.isRead = false

section
variable {s : Server} {sk : Sock} {p : Packet} {m k : Nat} {tail : Bytes} {cs : List (Option Nat)}

lemma Amid.take_length (h : Amid s sk p m tail) : (p.bytes.take m).length = m :=
  p.length_take (Nat.le_of_lt h.lt)

lemma Amid.dataRead (h : Amid s sk p m tail) : s.dataRead = m := by
  rw [h.holding.1, h.take_length]

lemma Amid.header (h : Amid s sk p m tail) (hm : headerSize ≤ m) : s.header = p.head :=
  h.holding.header_take hm (Nat.le_of_lt h.lt)

lemma Amid.requested (h : Amid s sk p m tail) :
    s.requested = if m < headerSize then headerSize - m else min p.payload.length s.bufsize := by
  simp only [Server.requested, h.dataRead]
  split
  · rfl
  · rename_i hm
    rw [h.header (by omega), p.head_length]
    split
    · rfl
    · rename_i r hf
      rw [h.noread r hf]
      rfl

lemma Amid.readBody (h : Amid s sk p m tail) (hm : headerSize ≤ m) :
    ∃ s1 request runt, dsiRecv s sk = readBody s1 sk request runt ∧ s.Quiet s1 ∧
      (∀ r, request = some r → r.isRead = false) ∧ (runt = true → p.head.flags = dsiReply) ∧
      (p.head.flags = dsiReply → runt = true ∨ ∃ r, request = some r ∧ r.isRead = false) := by
  have hb := @gotEnough_body s sk (by rw [h.header hm]; exact h.noread)
  rw [h.header hm] at hb
  rw [dsiRecv, if_neg (by rw [h.dataRead]; omega)]
  exact hb

lemma Amid.stored (h : Amid s sk p m tail) (hcs : sk.chunks = some k :: cs) (hpos : 0 < k)
    (hm : headerSize ≤ m) (hk : k ≤ min p.payload.length s.bufsize) (hav : k ≤ sk.stream.length)
    (hfit : m + k ≤ s.bufsize) :
    ∃ s1 request runt, s.Kin s1 ∧ s1.Holding (p.bytes.take m ++ sk.stream.take k) ∧
      s1.header = p.head ∧
      (∀ r, request = some r → r.isRead = false) ∧ (runt = true → p.head.flags = dsiReply) ∧
      (p.head.flags = dsiReply → runt = true ∨ ∃ r, request = some r ∧ r.isRead = false) ∧
      dsiRecv s sk =
        if m + k < p.size then .ok (0, s1, sk.consume k)
        else if runt then afterProcessing (s1.logDispatch true) (sk.consume k) request
        else processPacket s1 (sk.consume k) request runt := by
  have hlt := h.lt
  have hl : (sk.stream.take k).length = k := List.length_take_of_le hav
  obtain ⟨s1, request, runt, hcall, hq, hr, hrunt, hreply⟩ := h.readBody hm
  have hh1 : s1.header = p.head := hq.header.trans (h.header hm)
  have hd1 : s1.dataRead = m := hq.dataRead.trans h.dataRead
  have hb1 := hq.bufsize
  have hhold := (hq.holding h.holding).stored (sk.stream.take k)
  have hh2 : (s1.stored (sk.stream.take k)).header = p.head := by
    rw [hhold.header (by rw [List.length_append, h.take_length]; omega), ← Header.parse_take hm,
      List.take_left' h.take_length, p.parse_take hm]
  refine ⟨_, request, runt, hq.kin.trans (stored_kin (by omega)), hhold, hh2, hr, hrunt, hreply,
    ?_⟩
  have hlen : s1.dataRead + k < (s1.stored (sk.stream.take k)).header.length + headerSize ↔
      m + k < p.size := by
    rw [hh2, p.head_length, hd1, Packet.size]
    omega
  have hne : ¬ (s1.dataRead = headerSize ∧ s1.header.length = 0) := by
    rw [hh1, hd1, p.head_length]
    rw [Packet.size] at hlt
    omega
  rw [hcall, readBody_read hne hcs hpos (by rw [hh1, hb1, p.head_length]; exact hk) hav (by omega)]
  simp only [hlen]

lemma dsiRecv_inside (h : Amid s sk p m tail) (hcs : sk.chunks = some k :: cs) (hpos : 0 < k)
    (hk : k ≤ s.requested) (hav : k ≤ sk.stream.length) (hin : m + k < p.size) :
    ∃ s', dsiRecv s sk = .ok (0, s', sk.consume k) ∧ s.Kin s' ∧
      s'.Holding (p.bytes.take (m + k)) := by
  have hfits := h.fits
  have hsize := p.headerSize_le
  have hd := h.dataRead
  have hl : (sk.stream.take k).length = k := List.length_take_of_le hav
  rw [← p.take_stream h.stream (Nat.le_of_lt hin)]
  rw [h.requested] at hk
  split at hk
  · rename_i hm
    have hhold := h.holding.stored (sk.stream.take k)
    refine ⟨_, ?_, stored_kin (by omega), hhold⟩
    rw [dsiRecv_header h.holding (by rw [h.take_length]; exact hm) hcs hpos
      (by rw [h.take_length]; exact hk) hav (by omega), if_neg]
    rintro ⟨hfull, hzero⟩
    rw [h.take_length] at hfull
    rw [p.take_stream h.stream (Nat.le_of_lt hin)] at hhold
    rw [hhold.header_take (by omega) (Nat.le_of_lt hin), p.head_length] at hzero
    rw [Packet.size] at hin
    omega
  · rename_i hm
    obtain ⟨s1, request, runt, hkin, hhold, -, -, -, -, hcall⟩ :=
      h.stored hcs hpos (by omega) hk hav (by omega)
    exact ⟨s1, by rw [hcall, if_pos hin], hkin, hhold⟩

lemma dsiRecv_exact (h : Amid s sk p m tail) (hwf : p.WellFormed) (hcs : sk.chunks = some k :: cs)
    (hpos : 0 < k) (hk : k ≤ s.requested) (hav : k ≤ sk.stream.length) (hend : m + k = p.size) :
    Completes (dsiRecv s sk) s p tail cs := by
  have hfits := h.fits
  have hsize := p.headerSize_le
  have hd := h.dataRead
  have hl : (sk.stream.take k).length = k := List.length_take_of_le hav
  have htake : p.bytes.take m ++ sk.stream.take k = p.bytes := by
    rw [p.take_stream h.stream (Nat.le_of_eq hend), hend, ← p.bytes_length, List.take_length]
  have hst : (sk.consume k).stream = tail := by
    rw [Sock.consume, p.drop_stream h.stream (Nat.le_of_eq hend), hend, ← p.bytes_length, List.drop_length,
      List.nil_append]
  have hch : (sk.consume k).chunks = cs := by
    rw [Sock.consume, hcs, List.tail_cons]
  rw [← hst, ← hch]
  rw [h.requested] at hk
  split at hk
  · -- only a packet without payload ends with its header
    rename_i hm
    have hzero : p.payload.length = 0 := by
      rw [Packet.size] at hend
      omega
    have hhold : (s.stored (sk.stream.take k)).Holding p.bytes :=
      htake ▸ h.holding.stored (sk.stream.take k)
    have hh := hhold.whole_header
    obtain ⟨s1, request, runt, hcall, hq, hr, -, hreply⟩ := @gotEnough_body (s.stored (sk.stream.take k))
      (sk.consume k) (by rw [hh]; exact h.noread)
    rw [hh] at hreply
    have hhold1 : s1.Holding p.bytes := hq.holding hhold
    have hd1 := hhold1.whole_dataRead
    have hh1 := hhold1.whole_header
    rw [hh1, p.head_length, hzero, Nat.zero_add] at hd1
    rw [dsiRecv_header h.holding (by rw [h.take_length]; exact hm) hcs hpos
      (by rw [h.take_length]; exact hk) hav (by omega),
      if_pos ⟨by rw [h.take_length]; omega, by rw [hh, p.head_length]; exact hzero⟩, hcall,
      AfpfsNg.Dsi.readBody, if_pos ⟨hd1, by rw [hh1, p.head_length]; exact hzero⟩]
    exact processPacket_whole hhold1 ((stored_kin (by omega)).trans hq.kin) hwf hr hreply
  · rename_i hm
    obtain ⟨s1, request, runt, hkin, hhold, -, hr, hrunt, hreply, hcall⟩ :=
      h.stored hcs hpos (by omega) hk hav (by omega)
    rw [htake] at hhold
    rw [hcall, if_neg (by omega)]
    split
    · rename_i hrunt'
      exact runt_whole hhold hkin hwf (hrunt hrunt')
    · exact processPacket_whole hhold hkin hwf hr hreply

lemma dsiRecv_across (h : Amid s sk p m tail) (hwf : p.WellFormed) (hcs : sk.chunks = some k :: cs)
    (hpos : 0 < k) (hk : k ≤ s.requested) (hav : k ≤ sk.stream.length) (hover : p.size < m + k)
    {ret s' sk'} (hout : dsiRecv s sk = .ok (ret, s', sk')) :
    ∃ d, s'.dispatched = s.dispatched ++ [d] ∧ d.dataRead ≠ p.size := by
  have hsize := p.headerSize_le
  have hlt := h.lt
  have hl : (sk.stream.take k).length = k := List.length_take_of_le hav
  rw [h.requested] at hk
  split at hk
  · omega
  rename_i hm
  by_cases hfit : m + k ≤ s.bufsize
  · obtain ⟨s1, request, runt, hkin, hhold, hh1, -, -, -, hcall⟩ :=
      h.stored hcs hpos (by omega) hk hav hfit
    have hd1 : s1.dataRead = m + k := by
      rw [hhold.1, List.length_append, h.take_length, hl]
    rw [hcall, if_neg (by omega)] at hout
    refine ⟨⟨s1.dataRead, s1.incomingBuffer.take s1.dataRead, runt⟩, ?_, fun he => ?_⟩
    · rw [← hkin.dispatched]
      split at hout
      · rename_i hr1
        rw [hr1]
        exact (afterProcessing_dispatched hout).2
      · rcases processPacket_dispatched hout with ⟨-, hlog⟩ | ⟨-, -, hno⟩
        · exact hlog
        · rw [hh1] at hno
          exact absurd hwf.known hno
    · have hd2 : s1.dataRead = p.size := he
      omega
  · obtain ⟨s1, request, runt, hcall, hq, -⟩ := h.readBody (by omega)
    have hh1 : s1.header = p.head := hq.header.trans (h.header (by omega))
    have hd1 : s1.dataRead = m := hq.dataRead.trans h.dataRead
    have hb1 := hq.bufsize
    have hne : ¬ (s1.dataRead = headerSize ∧ s1.header.length = 0) := by
      rw [hh1, hd1, p.head_length]
      rw [Packet.size] at hlt
      omega
    rw [hcall, readBody_overflow hne hcs hpos (by rw [hh1, hb1, p.head_length]; exact hk) hav
      (by omega)] at hout
    cases hout

end

def wire (ps : List Packet) : Bytes := (ps.map Packet.bytes).flatten

/-- `data_read` and the bytes that a handler finds, for a packet and for an entry of the log. -/
def Packet.framing (p : Packet) : Nat × Bytes := (p.size, p.bytes)
def Dispatch.framing (d : Dispatch) : Nat × Bytes := (d.dataRead, d.packet)

/-- The next `read` returns a non-empty piece of what is on the way, no longer than requested. -/
def pieceOk (s : Server) (sk : Sock) : Bool :=
  match sk.chunks with
  | some k :: _ => 0 < k && k ≤ s.requested && k ≤ sk.stream.length
  | _ => false

/-- The packet does not answer a queued read. -/
def Packet.answersNoRead (p : Packet) (q : List Request) : Bool :=
  (dsiFindRequest q p.head.requestid).all (!·.isRead)

/-- Each `read` returns a valid piece, and no packet answers a read that is queued then. -/
def validRun (ps : List Packet) (s : Server) (sk : Sock) :
    List (List Request → List Request) → Bool
  | [] => true
  | f :: fs =>
    !s.polled || pieceOk (s.meanwhile f) sk && ps.all (·.answersNoRead (f s.commandRequests)) &&
      match dsiRecv (s.meanwhile f) sk with
      | .error _ => true
      | .ok (ret, s', sk') => validRun ps (settle ret s') sk' fs

lemma pieceOk_iff {sk : Sock} (h : pieceOk s sk = true) :
    ∃ k cs, sk.chunks = some k :: cs ∧ 0 < k ∧ k ≤ s.requested ∧ k ≤ sk.stream.length := by
  rw [pieceOk] at h
  split at h
  · rename_i k cs hcs
    simp only [Bool.and_eq_true, decide_eq_true_eq] at h
    exact ⟨k, cs, hcs, h.1.1, h.1.2, h.2⟩
  · cases h

lemma answersNoRead_iff {q} (h : p.answersNoRead q = true) {r} (hf : dsiFindRequest q p.head.requestid = some r) :
    r.isRead = false := by
  simpa [Packet.answersNoRead, hf] using h

lemma validRun_cons {ps s sk f fs} (h : validRun ps s sk (f :: fs) = true) (hp : s.polled = true) :
    pieceOk (s.meanwhile f) sk = true ∧
      (∀ p ∈ ps, p.answersNoRead (f s.commandRequests) = true) ∧
      ∀ ret s' sk', dsiRecv (s.meanwhile f) sk = .ok (ret, s', sk') →
        validRun ps (settle ret s') sk' fs = true := by
  simp only [validRun, hp, Bool.not_true, Bool.false_or, Bool.and_eq_true, List.all_eq_true] at h
  refine ⟨h.1.1, h.1.2, fun ret s' sk' hcall => ?_⟩
  have hrest := h.2
  rw [hcall] at hrest
  exact hrest

/-- The run hands on the packets `ps` after those in `before`, in order, each once and whole, as far as they have arrived. -/
def FramedAfter (before : List Packet) (s : Server) (sk : Sock) (ps : List Packet)
    (fs : List (List Request → List Request)) : Prop :=
  ∃ s' sk' j, recvLoop s sk fs = .ok (s', sk') ∧ j ≤ ps.length ∧
    s'.dispatched.map Dispatch.framing = (before ++ ps.take j).map Packet.framing ∧
    wire (ps.take j) ++ (s'.incomingBuffer.take s'.dataRead ++ sk'.stream) = wire ps ∧
    (sk'.stream = [] → j = ps.length)

/-- Sizes of what is still to come when `m` bytes of the first packet have arrived. -/
def remaining (m : Nat) : List Packet → List Nat
  | [] => []
  | p :: ps => (p.size - m) :: ps.map Packet.size

@[simp] lemma remaining_zero (ps : List Packet) : remaining 0 ps = ps.map Packet.size := by
  cases ps <;> rfl

/-- The state between two calls: `m` bytes of the first packet are held. -/
def Underway (s : Server) (sk : Sock) (m : Nat) : List Packet → Prop
  | [] => s.dataRead = 0 ∧ sk.stream = []
  | p :: ps => s.polled = true ∧ s.Holding (p.bytes.take m) ∧ m < p.size ∧ p.size ≤ s.bufsize ∧
    sk.stream = p.bytes.drop m ++ wire ps

def Survives (ks : List Nat) (m : Nat) (s : Server) (ps : List Packet) : Prop :=
  ∀ j (h : j < ps.length), Covered ks (remaining m ps) j →
    (ps[j]).Manageable s.attentionQuantum s.volumes

lemma framing_next {before : List (Nat × Bytes)} {final x p ps j}
    (hg : before ++ [x] <+: final)
    (hfin : final = before ++ ((p :: ps).take j).map Packet.framing) :
    x = p.framing ∧ ∃ j', j = j' + 1 := by
  rw [hfin, List.prefix_append_right_inj] at hg
  cases j with
  | zero => simp at hg
  | succ j =>
    rw [List.take_succ_cons, List.map_cons, List.cons_prefix_cons] at hg
    exact ⟨hg.1, j, rfl⟩

lemma framedAfter_nil {before all s sk fs} (hu : Underway s sk 0 [])
    (hvalid : validRun all s sk fs = true)
    (hlog : s.dispatched.map Dispatch.framing = before.map Packet.framing) :
    FramedAfter before s sk [] fs := by
  have hloop : recvLoop s sk fs = .ok (s, sk) := by
    cases fs with
    | nil => rfl
    | cons f fs =>
      rw [recvLoop, if_neg]
      intro hp
      obtain ⟨k, -, -, hpos, -, hav⟩ := pieceOk_iff (validRun_cons hvalid hp).1
      rw [hu.2, List.length_nil] at hav
      omega
  refine ⟨s, sk, 0, hloop, Nat.le_refl _, by simpa using hlog, ?_, fun _ => rfl⟩
  rw [hu.1, hu.2]
  rfl

def ClosesLast (ps : List Packet) : Prop :=
  ∀ p ∈ ps.dropLast, p.head.command ≠ dsiCloseSession

instance (ps : List Packet) : Decidable (ClosesLast ps) := inferInstanceAs (Decidable (∀ _ ∈ _, _))

lemma ClosesLast.head {q : Packet} {ps} (h : ClosesLast (p :: q :: ps)) : p.head.command ≠ dsiCloseSession :=
  h p (by simp)

lemma ClosesLast.tail {ps} (h : ClosesLast (p :: ps)) : ClosesLast ps := by
  intro q hq
  cases ps with
  | nil => cases hq
  | cons q' ps => exact h q (by rw [List.dropLast_cons_cons]; exact List.mem_cons_of_mem _ hq)

lemma framedAfter_start {before s sk m p ps} (hu : Underway s sk m (p :: ps))
    (hlog : s.dispatched.map Dispatch.framing = before.map Packet.framing) :
    FramedAfter before s sk (p :: ps) [] := by
  obtain ⟨-, hold, hlt, -, hst⟩ := hu
  have hl : (p.bytes.take m).length = m := by
    rw [List.length_take, p.bytes_length]
    omega
  refine ⟨s, sk, 0, rfl, Nat.zero_le _, by simpa using hlog, ?_, fun he => ?_⟩
  · rw [hold.1, hold.2, hst, List.take_zero, wire, List.map_nil, List.flatten_nil, List.nil_append,
      ← List.append_assoc, List.take_append_drop]
    rfl
  · rw [hst, List.append_eq_nil_iff] at he
    have := congrArg List.length he.1
    rw [List.length_drop, p.bytes_length, List.length_nil] at this
    omega

lemma framedAfter_cons {before s sk p ps f fs s' sk'} (hp : s.polled = true)
    (hcall : dsiRecv (s.meanwhile f) sk = .ok (0, s', sk'))
    (hlog : s'.dispatched.map Dispatch.framing = (before ++ [p]).map Packet.framing) :
    FramedAfter before s sk (p :: ps) (f :: fs) ↔ FramedAfter (before ++ [p]) s' sk' ps fs := by
  have hloop : recvLoop s sk (f :: fs) = recvLoop s' sk' fs := by
    rw [recvLoop_cons hp, hcall]
    rfl
  constructor
  · rintro ⟨s2, sk2, j, hrun, hj, hfr, hw, hend⟩
    rw [hloop] at hrun
    have hg : before.map Packet.framing ++ [p.framing] <+: s2.dispatched.map Dispatch.framing := by
      have := (recvLoop_grows hrun).map Dispatch.framing
      rwa [hlog, List.map_append] at this
    rw [List.map_append] at hfr
    obtain ⟨-, j, rfl⟩ := framing_next hg hfr
    refine ⟨s2, sk2, j, hrun, by simpa using hj, by simpa using hfr, ?_, fun he => by
      simpa using hend he⟩
    simpa [wire] using hw
  · rintro ⟨s2, sk2, j, hrun, hj, hfr, hw, hend⟩
    refine ⟨s2, sk2, j + 1, hloop.trans hrun, by simpa using hj, by simpa using hfr, ?_, fun he => by
      simpa using hend he⟩
    simpa [wire] using hw

lemma not_framedAfter {before s sk p ps f fs} (hp : s.polled = true)
    (hlog : s.dispatched.map Dispatch.framing = before.map Packet.framing)
    (hcall : ∀ ret s' sk', dsiRecv (s.meanwhile f) sk = .ok (ret, s', sk') →
      ∃ d, s'.dispatched = s.dispatched ++ [d] ∧ d.dataRead ≠ p.size) :
    ¬ FramedAfter before s sk (p :: ps) (f :: fs) := by
  rintro ⟨s2, sk2, j, hrun, -, hfr, -⟩
  rw [recvLoop_cons hp] at hrun
  cases hone : dsiRecv (s.meanwhile f) sk with
  | error e =>
    rw [hone] at hrun
    cases hrun
  | ok o =>
    obtain ⟨ret, s', sk'⟩ := o
    obtain ⟨d, hd, hne⟩ := hcall ret s' sk' hone
    rw [hone] at hrun
    have hg : before.map Packet.framing ++ [d.framing] <+: s2.dispatched.map Dispatch.framing := by
      have := (recvLoop_grows hrun).map Dispatch.framing
      rwa [settle_dispatched, hd, List.map_append, hlog] at this
    rw [List.map_append] at hfr
    exact hne (congrArg Prod.fst (framing_next hg hfr).1)

lemma Underway.next {s' : Server} {sk' p ps} (hd : s'.dataRead = 0) (hb : s'.bufsize = s.bufsize)
    (hst : sk'.stream = wire ps) (hclose : ClosesLast (p :: ps)) (hp : s.polled = true)
    (hquiet : p.head.command ≠ dsiCloseSession → s'.polled = s.polled ∧ s'.volumes = s.volumes)
    (hfit : ∀ q ∈ ps, q.size ≤ s.bufsize) : Underway s' sk' 0 ps := by
  cases ps with
  | nil => exact ⟨hd, hst⟩
  | cons q ps =>
    have hsize := q.headerSize_le
    exact ⟨(hquiet hclose.head).1.trans hp, .nil hd, by simp only [headerSize] at hsize; omega,
      hb.symm ▸ hfit q (by simp), hst⟩

lemma survives_inside {k ks m s p ps} (hk : m + k < p.size) :
    Survives (k :: ks) m s (p :: ps) ↔ Survives ks (m + k) s (p :: ps) := by
  have hc : ∀ j, Covered (k :: ks) (remaining m (p :: ps)) j ↔
      Covered ks (remaining (m + k) (p :: ps)) j := by
    intro j
    rw [remaining, remaining, covered_cons_lt (by omega), Nat.sub_sub]
  simp only [Survives, hc]

lemma survives_exact {k ks m} {ps} (hk : m + k = p.size) (hp : p.Manageable s.attentionQuantum s.volumes) :
    Survives (k :: ks) m s (p :: ps) ↔ Survives ks 0 s ps := by
  have hsize : p.size - m = k := by omega
  constructor
  · intro h j hj hc
    refine h (j + 1) (by simpa using hj) ?_
    rw [remaining, hsize]
    rw [remaining_zero] at hc
    exact covered_cons_self_succ.mpr hc
  · intro h j hj hc
    cases j with
    | zero => exact hp
    | succ j =>
      refine h j (by simpa using hj) ?_
      rw [remaining, hsize] at hc
      rw [remaining_zero]
      exact covered_cons_self_succ.mp hc

lemma framedAfter_iff {before all s sk m ps} {ks : List Nat} {fs} (hu : Underway s sk m ps)
    (hlog : s.dispatched.map Dispatch.framing = before.map Packet.framing)
    (hwf : ∀ p ∈ ps, p.WellFormed) (hfit : ∀ p ∈ ps, p.size ≤ s.bufsize) (hclose : ClosesLast ps)
    (hcs : sk.chunks = ks.map some) (hfs : fs.length = ks.length) (hall : ∀ p ∈ ps, p ∈ all)
    (hvalid : validRun all s sk fs = true) :
    FramedAfter before s sk ps fs ↔ Aligned ks (remaining m ps) ∧ Survives ks m s ps := by
  induction fs generalizing before s sk m ps ks with
  | nil =>
    obtain rfl : ks = [] := by simpa using hfs.symm
    refine ⟨fun _ => ⟨aligned_nil_left _, fun j hj hc => ?_⟩, fun _ => ?_⟩
    · cases ps with
      | nil => simp at hj
      | cons p ps => exact absurd hc (not_covered_nil (Nat.sub_pos_of_lt hu.2.2.1))
    · cases ps with
      | nil => exact framedAfter_nil hu hvalid hlog
      | cons p ps => exact framedAfter_start hu hlog
  | cons f fs ih =>
    cases ps with
    | nil =>
      refine ⟨fun _ => ⟨aligned_nil_right _, fun j hj => ?_⟩, fun _ => framedAfter_nil hu hvalid hlog⟩
      simp at hj
    | cons p ps =>
      obtain ⟨k, ks, rfl⟩ : ∃ k ks', ks = k :: ks' := by
        cases ks with
        | nil => simp at hfs
        | cons k ks => exact ⟨k, ks, rfl⟩
      obtain ⟨hp, hold, hlt, hb, hst⟩ := hu
      obtain ⟨hpiece, hnoread, hnext⟩ := validRun_cons hvalid hp
      obtain ⟨k', cs, hcs', hpos, hk, hav⟩ := pieceOk_iff hpiece
      obtain ⟨rfl, rfl⟩ : k' = k ∧ cs = ks.map some := by
        rw [hcs, List.map_cons] at hcs'
        simpa [eq_comm] using hcs'
      have hamid : Amid (s.meanwhile f) sk p m (wire ps) :=
        ⟨hold, hlt, hb, hst, fun r => answersNoRead_iff (hnoread p (hall p (by simp)))⟩
      have hpwf := hwf p (by simp)
      rcases Nat.lt_trichotomy (m + k') p.size with hin | hend | hover
      · -- the packet is still incomplete
        obtain ⟨s', hcall, hkin, hhold⟩ := dsiRecv_inside hamid hcs' hpos hk hav hin
        have hloop : recvLoop s sk (f :: fs) = recvLoop s' (sk.consume k') fs := by
          rw [recvLoop_cons hp, hcall]
          rfl
        have hb' := hkin.bufsize
        have hu' : Underway s' (sk.consume k') (m + k') (p :: ps) :=
          ⟨hkin.polled.trans hp, hhold, hin, hb'.symm ▸ hb, p.drop_stream hst (Nat.le_of_lt hin)⟩
        have hrest := @ih before s' (sk.consume k') (m + k') (p :: ps) ks hu'
          (by rw [hkin.dispatched]; exact hlog) hwf (by rw [hb']; exact hfit) hclose
          (by rw [Sock.consume, hcs', List.tail_cons]) (by simpa using hfs) hall
          (hnext 0 s' _ hcall)
        have hsurv : Survives ks (m + k') s' (p :: ps) ↔ Survives ks (m + k') s (p :: ps) := by
          rw [Survives, Survives, hkin.attentionQuantum, hkin.volumes]
          rfl
        rw [hsurv, ← survives_inside hin, remaining, ← Nat.sub_sub, ← aligned_cons_lt (by omega),
          ← remaining] at hrest
        rw [← hrest, FramedAfter, FramedAfter, hloop]
      · -- the packet is complete
        have hdone := dsiRecv_exact hamid hpwf hcs' hpos hk hav hend
        have hsize : p.size - m = k' := by omega
        by_cases hman : p.Manageable s.attentionQuantum s.volumes
        · obtain ⟨s', sk', runt, hcall, hd, hd0, hb', hq', hst', hch', hquiet⟩ := hdone.1 hman
          have hlog' : s'.dispatched.map Dispatch.framing = (before ++ [p]).map Packet.framing := by
            rw [hd, List.map_append, List.map_append]
            exact congrArg (· ++ _) hlog
          have hu' : Underway s' sk' 0 ps := Underway.next hd0 hb' hst' hclose hp hquiet
            fun q hq => hfit q (List.mem_cons_of_mem _ hq)
          have hrest := @ih (before ++ [p]) s' sk' 0 ps ks hu' hlog'
            (fun q hq => hwf q (List.mem_cons_of_mem _ hq))
            (fun q hq => hb'.symm ▸ hfit q (List.mem_cons_of_mem _ hq)) hclose.tail hch'
            (by simpa using hfs) (fun q hq => hall q (List.mem_cons_of_mem _ hq))
            (hnext 0 s' sk' hcall)
          have hsurv : Survives ks 0 s' ps ↔ Survives ks 0 s ps := by
            cases ps with
            | nil => exact ⟨fun _ j hj => by simp at hj, fun _ j hj => by simp at hj⟩
            | cons q ps =>
              rw [Survives, Survives, hq', (hquiet hclose.head).2]
              rfl
          rw [framedAfter_cons hp hcall hlog', hrest, hsurv, survives_exact hend hman, remaining, hsize,
            aligned_cons_self hpos, remaining_zero]
        · obtain ⟨e, hcall⟩ := hdone.2 hman
          refine ⟨fun hframed => ?_, fun hall => absurd (hall.2 0 (by simp) ?_) hman⟩
          · obtain ⟨_, _, _, hrun, -⟩ := hframed
            rw [recvLoop_cons hp, hcall] at hrun
            cases hrun
          · rw [remaining, hsize]
            exact covered_cons_self_zero
      · -- the piece runs into the next packet
        refine ⟨fun hframed => absurd hframed ?_, fun hal => absurd hal.1 ?_⟩
        · exact not_framedAfter hp hlog fun ret s' sk' =>
            dsiRecv_across hamid hpwf hcs' hpos hk hav hover
        · exact not_aligned_cons_gt (by omega) (by omega)

/-- Packets arrive in any valid pieces `ks`, while the queue changes in any way that keeps them from answering a read. The
calls hand on each packet once, whole and alone, if and only if no piece runs across the end of a packet and the handlers
survive the packets that become complete. -/
theorem dsi_framing_iff {s : Server} {sk : Sock} {ps : List Packet} {ks : List Nat}
    {fs : List (List Request → List Request)} (hp : s.polled = true) (hd : s.dataRead = 0)
    (hlog : s.dispatched = []) (hwf : ∀ p ∈ ps, p.WellFormed) (hfit : ∀ p ∈ ps, p.size ≤ s.bufsize)
    (hclose : ClosesLast ps) (hst : sk.stream = wire ps) (hcs : sk.chunks = ks.map some)
    (hfs : fs.length = ks.length)
    (hvalid : validRun ps s sk fs = true) :
    FramedAfter [] s sk ps fs ↔
      Aligned ks (ps.map Packet.size) ∧
      ∀ j (h : j < ps.length), Covered ks (ps.map Packet.size) j →
        (ps[j]).Manageable s.attentionQuantum s.volumes := by
  have hu : Underway s sk 0 ps := by
    cases ps with
    | nil => exact ⟨hd, hst⟩
    | cons p ps =>
      have hsize := p.headerSize_le
      exact ⟨hp, .nil hd, by simp only [headerSize] at hsize; omega, hfit p (by simp), hst⟩
  have hlog' : s.dispatched.map Dispatch.framing = ([] : List Packet).map Packet.framing := by
    rw [hlog]
    rfl
  have hiff := framedAfter_iff hu hlog' hwf hfit hclose hcs hfs (fun p hp => hp) hvalid
  rwa [Survives, remaining_zero] at hiff

def attentionPacket : Packet where
  header := [0, 8, 0, 9, 0, 0, 0, 0, 0, 0, 0, 2, 0, 0, 0, 0]
  payload := [32, 0]
  header_length := by decide
  length_eq := by decide

def ticklePacket : Packet where
  header := [0, 5, 0, 10, 0, 0, 0, 0, 0, 0, 0, 0, 0, 0, 0, 0]
  payload := []
  header_length := by decide
  length_eq := by decide

theorem dsi_framing_iff_aligned :
    FramedAfter [] (afpServerInit [] []) ⟨wire [attentionPacket, ticklePacket],
        [some 16, some 1, some 1, some 16], []⟩ [attentionPacket, ticklePacket] [id, id, id, id] ↔
      Aligned [16, 1, 1, 16] [18, 16] ∧
      ∀ j (h : j < 2), Covered [16, 1, 1, 16] [18, 16] j →
        ([attentionPacket, ticklePacket][j]).Manageable 1024 [] := by
  have h := @dsi_framing_iff (afpServerInit [] []) ⟨wire [attentionPacket, ticklePacket],
    [some 16, some 1, some 1, some 16], []⟩ [attentionPacket, ticklePacket] [16, 1, 1, 16]
    [id, id, id, id] rfl rfl rfl (by decide) ?_ (by decide) rfl rfl rfl (by decide +kernel)
  · rwa [afpServerInit_attentionQuantum] at h
  · rw [afpServerInit_bufsize]
    decide

/-- With one byte of the attention packet missing, the next call takes two: the handler is given the
first byte of the tickle as well. -/
theorem dsi_framing_runs_across :
    validRun [attentionPacket, ticklePacket] (afpServerInit [] [])
        ⟨wire [attentionPacket, ticklePacket], [some 16, some 1, some 2], []⟩ [id, id, id] = true ∧
      ¬ FramedAfter [] (afpServerInit [] [])
        ⟨wire [attentionPacket, ticklePacket], [some 16, some 1, some 2], []⟩
        [attentionPacket, ticklePacket] [id, id, id] := by
  refine ⟨by decide +kernel, ?_⟩
  rintro ⟨s', sk', j, hrun, -, hfr, -⟩
  have hlog : (recvLoop (afpServerInit [] [])
      ⟨wire [attentionPacket, ticklePacket], [some 16, some 1, some 2], []⟩ [id, id, id]).map
        (fun o => o.1.dispatched.map Dispatch.framing) =
      .ok [(19, attentionPacket.bytes ++ [0])] := by
    decide +kernel
  rw [hrun, Except.map, hfr, List.nil_append, Except.ok.injEq] at hlog
  cases j with
  | zero => cases hlog
  | succ j =>
    rw [List.take_succ_cons, List.map_cons, List.cons.injEq] at hlog
    exact absurd (congrArg Prod.fst hlog.1) (by decide)

end AfpfsNg.Dsi
