import AfpfsNg.Base.Except
import AfpfsNg.Dsi.Reception

/-!
# What the handlers leave alone

Frame lemmas for the functions that `dsi_recv` (`lib/dsi.c`) calls once a packet is complete. None of
them moves the packet in the incoming buffer, changes `data_read`, resizes a buffer or hands on another
packet (`Server.Frame`); only a CloseSession stops the main loop from watching the connection and
unmounts volumes. The exception is `dsi_command_reply` for a read, which reads from the socket itself.
-/

namespace AfpfsNg.Dsi
open AfpfsNg.Base

/-- The receive state and the log are untouched. -/
structure Server.Frame (s s' : Server) : Prop where
  incomingBuffer : s'.incomingBuffer = s.incomingBuffer
  dataRead : s'.dataRead = s.dataRead
  dispatched : s'.dispatched = s.dispatched
  attentionQuantum : s'.attentionQuantum = s.attentionQuantum

/-- Nor are the volumes, nor whether the connection is watched. -/
structure Server.Quiet (s s' : Server) : Prop extends Server.Frame s s' where
  polled : s'.polled = s.polled
  volumes : s'.volumes = s.volumes

lemma Server.Frame.refl (s : Server) : s.Frame s := ⟨rfl, rfl, rfl, rfl⟩

lemma Server.Quiet.refl (s : Server) : s.Quiet s := ⟨.refl s, rfl, rfl⟩

lemma Server.Frame.trans {s1 s2 s3 : Server} (h : s1.Frame s2) (h' : s2.Frame s3) : s1.Frame s3 :=
  ⟨h'.1.trans h.1, h'.2.trans h.2, h'.3.trans h.3, h'.4.trans h.4⟩

lemma Server.Quiet.trans {s1 s2 s3 : Server} (h : s1.Quiet s2) (h' : s2.Quiet s3) : s1.Quiet s3 :=
  ⟨h.toFrame.trans h'.toFrame, h'.2.trans h.2, h'.3.trans h.3⟩

variable {s s' : Server}

lemma Server.Frame.header (h : s.Frame s') : s'.header = s.header := by
  rw [Server.header, Server.header, h.incomingBuffer]

lemma Server.Frame.bufsize (h : s.Frame s') : s'.bufsize = s.bufsize := by
  rw [Server.bufsize, Server.bufsize, h.incomingBuffer]

lemma Server.Frame.holding {cur} (h : s.Frame s') (hold : s.Holding cur) : s'.Holding cur :=
  ⟨h.dataRead.trans hold.1, by rw [h.incomingBuffer]; exact hold.2⟩

lemma Server.Frame.whole (h : s.Frame s') (hd : s.dataRead = s.header.length + headerSize) :
    s'.dataRead = s'.header.length + headerSize := by
  rw [h.dataRead, h.header, hd]

lemma update_quiet (s : Server) (a f) : s.Quiet (s.update a f) := ⟨⟨rfl, rfl, rfl, rfl⟩, rfl, rfl⟩

lemma removeRequest_quiet (s : Server) (a) : s.Quiet (s.removeRequest a) := by
  rw [Server.removeRequest]
  split
  · exact ⟨⟨rfl, rfl, rfl, rfl⟩, rfl, rfl⟩
  · exact .refl s

lemma recvOut_quiet (s : Server) (request) : s.Quiet (recvOut s request) := by
  cases request with
  | none => exact .refl s
  | some r =>
    simp only [recvOut]
    split
    · exact update_quiet ..
    · exact removeRequest_quiet ..

lemma loopDisconnect_frame (s : Server) : s.Frame (loopDisconnect s) := by
  rw [loopDisconnect]
  split
  · exact ⟨rfl, rfl, rfl, rfl⟩
  · exact .refl s

lemma loopDisconnect_commandRequests (s : Server) :
    (loopDisconnect s).commandRequests = s.commandRequests := by
  rw [loopDisconnect]
  split <;> rfl

lemma dsiIncomingClosesession_frame (h : dsiIncomingClosesession s = .ok s') :
    s.Frame s' ∧ s'.commandRequests = s.commandRequests := by
  rw [dsiIncomingClosesession] at h
  split at h
  · cases h
  · cases h
    refine ⟨.trans ?_ (loopDisconnect_frame _), loopDisconnect_commandRequests _⟩
    exact ⟨rfl, rfl, rfl, rfl⟩

lemma dsiSendNoWait_quiet (s : Server) (sk msg n) : s.Quiet (dsiSendNoWait s sk msg n).1 := by
  simp only [dsiSendNoWait]
  split
  · exact ⟨⟨rfl, rfl, rfl, rfl⟩, rfl, rfl⟩
  · exact ⟨⟨rfl, rfl, rfl, rfl⟩, rfl, rfl⟩
  · refine .trans ?_ (removeRequest_quiet ..)
    exact ⟨⟨rfl, rfl, rfl, rfl⟩, rfl, rfl⟩
  · refine .trans ?_ (removeRequest_quiet ..)
    exact ⟨⟨rfl, rfl, rfl, rfl⟩, rfl, rfl⟩

lemma dsiIncomingTickle_quiet (s : Server) (sk) : s.Quiet (dsiIncomingTickle s sk).1 := by
  refine .trans ?_ (dsiSendNoWait_quiet ..)
  exact ⟨⟨rfl, rfl, rfl, rfl⟩, rfl, rfl⟩

lemma dsiSendNoWait_sock (s : Server) (sk : Sock) (msg n) :
    (dsiSendNoWait s sk msg n).2.stream = sk.stream ∧
      (dsiSendNoWait s sk msg n).2.chunks = sk.chunks := by
  have hw : sk.write.2.stream = sk.stream ∧ sk.write.2.chunks = sk.chunks := by
    rw [Sock.write]
    split <;> exact ⟨rfl, rfl⟩
  simp only [dsiSendNoWait]
  split <;> rename_i heq <;> rw [heq] at hw <;> exact hw

/-- The queue is the same, or has one request more, at a fresh address. -/
def Extends (q q' : List Request) : Prop :=
  q' = q ∨ ∃ r, r.addr = freshAddr q ∧ q' = q ++ [r]

lemma Extends.isPrefixOf {q q'} (h : Extends q q') : q.isPrefixOf q' = true := by
  rw [List.isPrefixOf_iff_prefix]
  rcases h with rfl | ⟨r, -, rfl⟩
  · exact List.prefix_rfl
  · exact List.prefix_append ..

lemma remove_fresh {q : List Request} {r : Request} (hr : r.addr = freshAddr q) :
    dsiRemoveFromRequestQueue (q ++ [r]) (freshAddr q) = q := by
  have hno : ∀ x ∈ q, ¬ ((x.addr == freshAddr q) = true) := by
    intro x hx he
    have := addr_lt_freshAddr hx
    rw [beq_iff_eq] at he
    omega
  rw [dsiRemoveFromRequestQueue, List.eraseP_append_right _ hno]
  simp [hr]

lemma dsiSendNoWait_queue (s : Server) (sk msg n) :
    Extends s.commandRequests (dsiSendNoWait s sk msg n).1.commandRequests := by
  have hany : ∀ r : Request, r.addr = freshAddr s.commandRequests →
      ((s.commandRequests ++ [r]).any fun x => x.addr == freshAddr s.commandRequests) = true := by
    intro r hr
    simp [hr]
  simp only [dsiSendNoWait]
  split
  · exact .inr ⟨_, rfl, rfl⟩
  · exact .inr ⟨_, rfl, rfl⟩
  · left
    simp only [Server.removeRequest]
    rw [if_pos (hany _ rfl)]
    exact remove_fresh rfl
  · left
    simp only [Server.removeRequest]
    rw [if_pos (hany _ rfl)]
    exact remove_fresh rfl

lemma dsiIncomingTickle_sock (s : Server) (sk : Sock) :
    (dsiIncomingTickle s sk).2.stream = sk.stream ∧
      (dsiIncomingTickle s sk).2.chunks = sk.chunks :=
  dsiSendNoWait_sock ..

lemma dsiIncomingTickle_queue (s : Server) (sk : Sock) :
    Extends s.commandRequests (dsiIncomingTickle s sk).1.commandRequests :=
  dsiSendNoWait_queue (dsiSetupHeader s).1 ..

lemma copyAttention_quiet (h : copyAttention s = .ok s') : s.Quiet s' ∧ s'.commandRequests = s.commandRequests := by
  rw [copyAttention] at h
  split at h
  · rename_i hle
    cases h
    refine ⟨⟨⟨rfl, rfl, rfl, ?_⟩, rfl, rfl⟩, rfl⟩
    apply patch_length
    rw [List.length_take, Nat.zero_add]
    exact Nat.le_trans (Nat.min_le_left ..) hle
  · cases h

lemma dsiCommandReply_other {sk r} (hr : r.isRead = false) : dsiCommandReply s sk r = .ok (s, sk) := by
  simp only [dsiCommandReply, hr, Bool.false_eq_true, if_false, ite_self]

lemma switchCommand_cases {sk sk' request runt} (h : switchCommand s sk request runt = .ok (some (s', sk'))) :
    (s.Frame s' ∧ sk'.stream = sk.stream ∧ sk'.chunks = sk.chunks ∧
      Extends s.commandRequests s'.commandRequests ∧
      (s.header.command ≠ dsiCloseSession → s.Quiet s')) ∨
    ∃ r, request = some r ∧ r.isRead = true ∧ dsiCommandReply s sk r = .ok (s', sk') := by
  simp only [switchCommand] at h
  split at h
  · rename_i hclose
    obtain ⟨s1, heq, h⟩ := map_eq_ok h
    cases h
    obtain ⟨hf, hq⟩ := dsiIncomingClosesession_frame heq
    exact .inl ⟨hf, rfl, rfl, .inl hq, fun hne => absurd hclose hne⟩
  suffices hq : (s.Quiet s' ∧ sk'.stream = sk.stream ∧ sk'.chunks = sk.chunks ∧
      Extends s.commandRequests s'.commandRequests) ∨
      ∃ r, request = some r ∧ r.isRead = true ∧ dsiCommandReply s sk r = .ok (s', sk') from
    hq.imp_left fun hq => ⟨hq.1.toFrame, hq.2.1, hq.2.2.1, hq.2.2.2, fun _ => hq.1⟩
  split at h
  · cases h
    exact .inl ⟨.refl s, rfl, rfl, .inl rfl⟩
  split at h
  · cases h
    exact .inl ⟨⟨⟨rfl, rfl, rfl, rfl⟩, rfl, rfl⟩, rfl, rfl, .inl rfl⟩
  split at h
  · rw [Except.ok.injEq, Option.some.injEq] at h
    have hq := dsiIncomingTickle_quiet s sk
    have hs := dsiIncomingTickle_sock s sk
    have he := dsiIncomingTickle_queue s sk
    rw [h] at hq hs he
    exact .inl ⟨hq, hs.1, hs.2, he⟩
  split at h
  · split at h
    · cases h
      exact .inl ⟨.refl s, rfl, rfl, .inl rfl⟩
    · cases request with
      | none => cases h
      | some r =>
        obtain ⟨p, heq, h⟩ := map_eq_ok h
        cases h
        cases hr : r.isRead with
        | false =>
          rw [dsiCommandReply_other hr] at heq
          cases heq
          exact .inl ⟨.refl s, rfl, rfl, .inl rfl⟩
        | true => exact .inr ⟨r, rfl, hr, heq⟩
  split at h
  · obtain ⟨s1, heq, h⟩ := map_eq_ok h
    cases h
    obtain ⟨hq, he⟩ := copyAttention_quiet heq
    exact .inl ⟨hq, rfl, rfl, .inl he⟩
  · cases h

lemma switchCommand_frame {sk sk' request runt} (h : switchCommand s sk request runt = .ok (some (s', sk')))
    (hr : ∀ r, request = some r → r.isRead = false) :
    s.Frame s' ∧ sk'.stream = sk.stream ∧ sk'.chunks = sk.chunks ∧
      Extends s.commandRequests s'.commandRequests ∧
      (s.header.command ≠ dsiCloseSession → s.Quiet s') := by
  rcases switchCommand_cases h with hf | ⟨r, hreq, hread, -⟩
  · exact hf
  · rw [hr r hreq] at hread
    cases hread

lemma dsiCommandReply_dispatched {sk sk' r} (h : dsiCommandReply s sk r = .ok (s', sk')) :
    s'.dispatched = s.dispatched := by
  simp only [dsiCommandReply] at h
  split at h
  · cases h
    rfl
  split at h
  · cases h
    rfl
  split at h
  · split at h
    · cases h
    · split at h
      · cases h
        rfl
      · split at h
        · cases h
          rfl
        split at h
        · cases h
        split at h
        · cases h
        · rename_i heq
          cases h
          simp only [afpReadReply] at heq
          split at heq
          · cases heq
          split at heq
          · cases heq
          · cases heq
            rfl
  · cases h
    rfl

lemma switchCommand_dispatched {sk sk' request runt} (h : switchCommand s sk request runt = .ok (some (s', sk'))) :
    s'.dispatched = s.dispatched := by
  rcases switchCommand_cases h with hf | ⟨r, -, -, hreply⟩
  · exact hf.1.dispatched
  · exact dsiCommandReply_dispatched hreply

def knownCommands : List Nat :=
  [dsiCloseSession, dsiCommand, dsiGetStatus, dsiOpenSession, dsiTickle, dsiWrite, dsiAttention]

/-- The same for the complete packet in the buffer. -/
def Server.Manageable (s : Server) : Prop :=
  (s.header.command = dsiAttention → s.dataRead ≤ s.attentionQuantum) ∧
    (s.header.command = dsiCloseSession → (afpUnmountAllVolumes s.volumes).isSome = true)

lemma switchCommand_reply {sk request runt} (hc : s.header.command = dsiCommand ∨ s.header.command = dsiWrite)
    (hreq : runt = true ∨ ∃ r, request = some r ∧ r.isRead = false) :
    switchCommand s sk request runt = .ok (some (s, sk)) := by
  rcases hc with hc | hc <;> rcases hreq with rfl | ⟨r, rfl, hr⟩ <;>
    simp [switchCommand, dsiCloseSession, dsiCommand, dsiGetStatus, dsiOpenSession, dsiTickle,
      dsiWrite, *, dsiCommandReply_other, Except.map]

lemma switchCommand_known {sk request runt} (hk : s.header.command ∈ knownCommands)
    (hreq : s.header.command = dsiCommand ∨ s.header.command = dsiWrite →
      runt = true ∨ ∃ r, request = some r ∧ r.isRead = false) :
    (s.Manageable → ∃ p, switchCommand s sk request runt = .ok (some p)) ∧
      (¬ s.Manageable → ∃ e, switchCommand s sk request runt = .error e) := by
  simp only [knownCommands, List.mem_cons, List.not_mem_nil, or_false] at hk
  rcases hk with hc | hc | hc | hc | hc | hc | hc
  · have hsw : switchCommand s sk request runt =
        (dsiIncomingClosesession s).map fun s => some (s, sk) := by
      simp [switchCommand, hc]
    have hm : s.Manageable ↔ (afpUnmountAllVolumes s.volumes).isSome = true := by
      simp [Server.Manageable, hc, dsiCloseSession, dsiAttention]
    rw [hm, hsw, dsiIncomingClosesession]
    cases afpUnmountAllVolumes s.volumes with
    | none => exact ⟨fun h => absurd h (by simp), fun _ => ⟨_, rfl⟩⟩
    | some vs => exact ⟨fun _ => ⟨_, rfl⟩, fun h => absurd rfl h⟩
  · have hm : s.Manageable := by
      simp [Server.Manageable, hc, dsiCloseSession, dsiAttention, dsiCommand]
    exact ⟨fun _ => ⟨_, switchCommand_reply (.inl hc) (hreq (.inl hc))⟩, fun h => absurd hm h⟩
  · have hm : s.Manageable := by
      simp [Server.Manageable, hc, dsiCloseSession, dsiAttention, dsiGetStatus]
    refine ⟨fun _ => ⟨(s, sk), ?_⟩, fun h => absurd hm h⟩
    simp [switchCommand, hc, dsiCloseSession, dsiGetStatus]
  · have hm : s.Manageable := by
      simp [Server.Manageable, hc, dsiCloseSession, dsiAttention, dsiOpenSession]
    refine ⟨fun _ => ⟨(dsiOpensessionReply s, sk), ?_⟩, fun h => absurd hm h⟩
    simp [switchCommand, hc, dsiCloseSession, dsiGetStatus, dsiOpenSession]
  · have hm : s.Manageable := by
      simp [Server.Manageable, hc, dsiCloseSession, dsiAttention, dsiTickle]
    refine ⟨fun _ => ⟨dsiIncomingTickle s sk, ?_⟩, fun h => absurd hm h⟩
    simp [switchCommand, hc, dsiCloseSession, dsiGetStatus, dsiOpenSession, dsiTickle]
  · have hm : s.Manageable := by
      simp [Server.Manageable, hc, dsiCloseSession, dsiAttention, dsiWrite]
    exact ⟨fun _ => ⟨_, switchCommand_reply (.inr hc) (hreq (.inr hc))⟩, fun h => absurd hm h⟩
  · have hsw : switchCommand s sk request runt =
        (copyAttention s).map fun s => some (s, sk) := by
      simp [switchCommand, hc, dsiCloseSession, dsiCommand, dsiGetStatus, dsiOpenSession, dsiTickle,
        dsiWrite, dsiAttention]
    have hm : s.Manageable ↔ s.dataRead ≤ s.attentionQuantum := by
      simp [Server.Manageable, hc, dsiCloseSession, dsiAttention]
    rw [hm, hsw, copyAttention]
    refine ⟨fun h => ?_, fun h => ?_⟩
    · rw [if_pos h]
      exact ⟨_, rfl⟩
    · rw [if_neg h]
      exact ⟨_, rfl⟩

lemma switchCommand_null {sk} (hc : s.header.command = dsiCommand ∨ s.header.command = dsiWrite) :
    switchCommand s sk none false = .error .nullDereference := by
  rcases hc with hc | hc <;>
    simp [switchCommand, dsiCloseSession, dsiCommand, dsiGetStatus, dsiOpenSession, dsiTickle,
      dsiWrite, *]

lemma switchCommand_unknown {sk request runt} (h : s.header.command ∉ knownCommands) :
    switchCommand s sk request runt = .ok none := by
  simp only [knownCommands, List.mem_cons, List.not_mem_nil, or_false, not_or] at h
  simp [switchCommand, h]

lemma switchCommand_none {sk request runt} (h : switchCommand s sk request runt = .ok none) :
    s.header.command ∉ knownCommands := by
  intro hk
  simp only [knownCommands, List.mem_cons, List.not_mem_nil, or_false] at hk
  simp only [switchCommand] at h
  split at h
  · obtain ⟨_, -, h⟩ := map_eq_ok h
    cases h
  split at h
  · cases h
  split at h
  · cases h
  split at h
  · cases h
  split at h
  · split at h
    · cases h
    · cases request with
      | none => cases h
      | some r =>
        obtain ⟨_, -, h⟩ := map_eq_ok h
        cases h
  split at h
  · obtain ⟨_, -, h⟩ := map_eq_ok h
    cases h
  · tauto

lemma afterProcessing_dispatched {sk sk' request ret} (h : afterProcessing s sk request = .ok (ret, s', sk')) :
    ret = 0 ∧ s'.dispatched = s.dispatched := by
  simp only [afterProcessing] at h
  split at h
  · cases h
    exact ⟨rfl, (recvOut_quiet ..).dispatched⟩
  split at h
  · cases h
  split at h
  · cases h
  · cases h
    exact ⟨rfl, (recvOut_quiet ..).dispatched⟩

lemma processPacket_dispatched {sk sk' request runt ret} (h : processPacket s sk request runt = .ok (ret, s', sk')) :
    (ret = 0 ∧ s'.dispatched =
      s.dispatched ++ [⟨s.dataRead, s.incomingBuffer.take s.dataRead, runt⟩]) ∨
    (ret = -1 ∧ s' = s ∧ s.header.command ∉ knownCommands) := by
  rw [processPacket] at h
  split at h
  · cases h
  · rename_i hsw
    have hno := switchCommand_none hsw
    cases h
    exact .inr ⟨rfl, rfl, hno⟩
  · rename_i hsw
    obtain ⟨hret, hd⟩ := afterProcessing_dispatched h
    exact .inl ⟨hret, hd.trans (switchCommand_dispatched hsw)⟩

lemma processPacket_grows {sk sk' request runt ret} (h : processPacket s sk request runt = .ok (ret, s', sk')) :
    s.dispatched <+: s'.dispatched := by
  rcases processPacket_dispatched h with ⟨-, hd⟩ | ⟨-, rfl, -⟩
  · exact hd ▸ List.prefix_append ..
  · exact List.prefix_rfl

lemma readBody_grows {sk sk' request runt ret} (h : readBody s sk request runt = .ok (ret, s', sk')) :
    s.dispatched <+: s'.dispatched := by
  rw [readBody] at h
  split at h
  · have hg := processPacket_grows h
    exact hg
  split at h
  · cases h
    exact List.prefix_rfl
  split at h
  · cases h
    exact List.prefix_rfl
  rw [Server.store] at h
  split at h
  · cases h
  rename_i hst
  split at hst
  · cases hst
    split at h
    · cases h
      exact List.prefix_rfl
    split at h
    · rw [(afterProcessing_dispatched h).2]
      exact List.prefix_append ..
    · have hg := processPacket_grows h
      exact hg
  · cases hst

/-- What the server holds when `bs` was read for `r`. -/
def Server.receiving (s : Server) (r : Request) (rx : RxBuffer) (bs : Bytes) : Server :=
  (s.countRx bs.length).update r.addr (·.received (rx.extend bs))

inductive ReplyRead (s : Server) (sk : Sock) (r : Request) : Outcome → Prop where
  | unprepared : ReplyRead s sk r (.error .nullDereference)
  | overflow : ReplyRead s sk r (.error .rxOverflow)
  | overread : ReplyRead s sk r (.error .incomingOverread)
  | empty (hlen : s.header.length = 0) : ReplyRead s sk r (.ok (0, recvOut s.reset (some r), sk))
  | nothing {rx sk'} (hlen : s.dataRead = headerSize → s.header.length ≠ 0) (hrx : r.other = some rx)
      (hwhy : rx.maxsize = 0 ∨ (sk.read (newmax rx s.header.length)).1.getD [] = []) :
      ReplyRead s sk r (.ok (-1, s, sk'))
  | complete {rx bs sk'} (hrx : r.other = some rx) (hbs : bs ≠ []) :
      ReplyRead s sk r (.ok (0, recvOut (s.receiving r rx bs).reset (some (r.received (rx.extend bs))), sk'))
  | more {rx bs sk'} (hrx : r.other = some rx) (hbs : bs ≠ []) : ReplyRead s sk r (.ok (0, s.receiving r rx bs, sk'))
  | behind {rx bs sk'} (hd : s.dataRead ≠ headerSize) :
      ReplyRead s sk r (processPacket
        { s.receiving r rx bs with
          incomingBuffer := patch s.incomingBuffer 0 (slice s.incomingBuffer headerSize (s.dataRead - headerSize))
          dataRead := s.dataRead - headerSize } sk' (some (r.received (rx.extend bs))) false)

lemma readReply_cases (s : Server) (sk : Sock) (r : Request) : ReplyRead s sk r (readReply s sk r) := by
  cases hrx : r.other with
  | none =>
    simp only [readReply, hrx]
    exact .unprepared
  | some rx =>
    simp only [readReply, hrx]
    split
    case isTrue h => exact .empty h.2
    rename_i hempty
    have hlen : s.dataRead = headerSize → s.header.length ≠ 0 := fun hd h0 => hempty ⟨hd, h0⟩
    split
    case isTrue hzero => exact .nothing hlen hrx (.inl hzero)
    split
    case h_1 hread => exact .nothing hlen hrx (.inr (by rw [hread]; rfl))
    rename_i bs sk' hread
    split
    case isTrue hnil => exact .nothing hlen hrx (.inr (by rw [hread, hnil]; rfl))
    rename_i hbs
    split
    · exact .overflow
    split
    · split
      · exact .complete hrx hbs
      · rename_i hd
        split
        · exact .overread
        · exact .behind hd
    · exact .more hrx hbs

lemma readReply_grows {sk sk' r ret} (h : readReply s sk r = .ok (ret, s', sk')) :
    s.dispatched <+: s'.dispatched := by
  have hcases := readReply_cases s sk r
  generalize readReply s sk r = out at h hcases
  cases hcases with
  | unprepared => cases h
  | overflow => cases h
  | overread => cases h
  | empty =>
    cases h
    rw [(recvOut_quiet ..).dispatched]
    exact List.prefix_rfl
  | nothing =>
    cases h
    exact List.prefix_rfl
  | complete =>
    cases h
    rw [(recvOut_quiet ..).dispatched]
    exact List.prefix_rfl
  | more =>
    cases h
    exact List.prefix_rfl
  | behind =>
    have hg := processPacket_grows h
    exact hg

lemma gotEnough_grows {sk sk' ret} (h : gotEnough s sk = .ok (ret, s', sk')) : s.dispatched <+: s'.dispatched := by
  simp only [gotEnough] at h
  split at h
  · split at h
    · have hg := readBody_grows h
      exact hg
    · have hg := readBody_grows h
      exact hg
  · split at h
    · have hg := readReply_grows h
      exact hg
    · have hg := readBody_grows h
      exact hg

lemma dsiRecv_grows {sk sk' ret} (h : dsiRecv s sk = .ok (ret, s', sk')) : s.dispatched <+: s'.dispatched := by
  rw [dsiRecv] at h
  split at h
  · split at h
    · cases h
      exact List.prefix_rfl
    split at h
    · cases h
      exact List.prefix_rfl
    rw [Server.store] at h
    split at h
    · cases h
    rename_i hst
    split at hst
    · cases hst
      split at h
      · have hg := gotEnough_grows h
        exact hg
      · cases h
        exact List.prefix_rfl
    · cases hst
  · have hg := gotEnough_grows h
    exact hg

lemma settle_dispatched (ret : Int) (s : Server) : (settle ret s).dispatched = s.dispatched := by
  rw [settle]
  split
  · exact (loopDisconnect_frame s).dispatched
  · rfl

lemma recvLoop_grows {sk sk' fs} (h : recvLoop s sk fs = .ok (s', sk')) : s.dispatched <+: s'.dispatched := by
  induction fs generalizing s sk with
  | nil =>
    cases h
    exact List.prefix_rfl
  | cons f fs ih =>
    rw [recvLoop] at h
    split at h
    · cases hone : dsiRecv (s.meanwhile f) sk with
      | error e =>
        rw [hone] at h
        cases h
      | ok o =>
        rw [hone] at h
        have hrest := ih h
        rw [settle_dispatched] at hrest
        exact (dsiRecv_grows hone).trans hrest
    · cases h
      exact List.prefix_rfl

end AfpfsNg.Dsi
