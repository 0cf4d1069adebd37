import AfpfsNg.Base.Runs
import AfpfsNg.Dsi.Handlers

/-!
# The receive path and its buffers

Which writes of `dsi_recv` (`lib/dsi.c`) can leave `incoming_buffer` or `attention_buffer`. In the body of a packet the code
asks for `min(length, bufsize)` bytes, but puts them behind the `data_read` bytes that it has; and an attention packet is
copied whole to a buffer of its own size.
-/

namespace AfpfsNg.Dsi
open AfpfsNg.Base

def Fault.outOfBounds : Fault → Bool
  | .incomingOverflow | .attentionOverflow => true
  | _ => false

def Sock.delivers (sk : Sock) (n : Nat) : Nat := ((sk.read n).1.getD []).length

/-- The call reads on in a body and what it gets fits, also the attention buffer if it goes there next. -/
def BodyFits (s : Server) (sk : Sock) : Prop :=
  s.dataRead + sk.delivers (min s.header.length s.bufsize) ≤ s.bufsize ∧
    (s.header.command = dsiAttention →
      s.header.length + headerSize ≤ s.dataRead + sk.delivers (min s.header.length s.bufsize) →
      s.dataRead + sk.delivers (min s.header.length s.bufsize) ≤ s.attentionQuantum)

/-- The condition on a call. While the header is incomplete there is none. -/
def CallFits (s : Server) (sk : Sock) : Prop :=
  headerSize ≤ s.dataRead →
    if (dsiFindRequest s.commandRequests s.header.requestid).any Request.isRead then
      s.dataRead = headerSize
    else BodyFits s sk

instance (s : Server) (sk : Sock) : Decidable (BodyFits s sk) := inferInstanceAs (Decidable (_ ∧ _))

instance (s : Server) (sk : Sock) : Decidable (CallFits s sk) := inferInstanceAs (Decidable (_ → _))

/-- The buffers can hold a header, and `data_read` is inside the first. -/
structure Sound (s : Server) : Prop where
  incoming : headerSize ≤ s.bufsize
  attention : headerSize ≤ s.attentionQuantum
  dataRead : s.dataRead ≤ s.bufsize
  small : s.bufsize < 2 ^ 32

def StaysInBounds : Outcome → Prop
  | .error e => e.outOfBounds = false
  | .ok (_, s', _) => Sound s'

variable {s : Server}

lemma Sound.frame {s' : Server} (h : Sound s) (hf : s.Frame s') : Sound s' := by
  refine ⟨?_, ?_, ?_, ?_⟩
  · rw [hf.bufsize]
    exact h.incoming
  · rw [hf.attentionQuantum]
    exact h.attention
  · rw [hf.bufsize, hf.dataRead]
    exact h.dataRead
  · rw [hf.bufsize]
    exact h.small

lemma Sound.reset (h : Sound s) : Sound s.reset :=
  ⟨h.incoming, h.attention, Nat.zero_le _, h.small⟩

lemma Sound.logDispatch (h : Sound s) (runt) : Sound (s.logDispatch runt) :=
  ⟨h.incoming, h.attention, h.dataRead, h.small⟩

lemma Sound.stored {bs} (h : Sound s) (hfit : s.dataRead + bs.length ≤ s.bufsize) : Sound (s.stored bs) := by
  have hb := stored_bufsize hfit
  exact ⟨by rw [hb]; exact h.incoming, h.attention, by rw [hb]; exact hfit, by rw [hb]; exact h.small⟩

lemma afterProcessing_bounds {sk request} (h : Sound s) (hd : s.header.length + headerSize ≤ s.dataRead) :
    StaysInBounds (afterProcessing s sk request) := by
  obtain ⟨hin, hat, hle, hsmall⟩ := h
  have hsize : sub32 s.dataRead (s.header.length + headerSize) =
      s.dataRead - (s.header.length + headerSize) := sub32_of_le hd (by omega)
  simp only [afterProcessing, hsize]
  split
  · refine Sound.frame ?_ (recvOut_quiet ..).toFrame
    exact ⟨hin, hat, Nat.zero_le _, hsmall⟩
  split
  · omega
  split
  · rfl
  · rename_i hover
    have hl : (slice s.incomingBuffer s.header.length
        (s.dataRead - (s.header.length + headerSize))).length =
        s.dataRead - (s.header.length + headerSize) :=
      slice_length (by simp only [Server.bufsize] at hover; omega)
    have hb : (patch s.incomingBuffer 0 (slice s.incomingBuffer s.header.length
        (s.dataRead - (s.header.length + headerSize)))).length = s.bufsize :=
      patch_length (by simp only [hl, Server.bufsize] at hle ⊢; omega)
    refine Sound.frame ?_ (recvOut_quiet ..).toFrame
    refine ⟨?_, hat, ?_, ?_⟩
    all_goals simp only [Server.bufsize] at hb hin hle hsmall ⊢; omega

lemma switchCommand_error {sk request runt e} (hr : ∀ r, request = some r → r.isRead = false)
    (ha : s.header.command = dsiAttention → s.dataRead ≤ s.attentionQuantum)
    (h : switchCommand s sk request runt = .error e) : e.outOfBounds = false := by
  simp only [switchCommand] at h
  split at h
  · rw [dsiIncomingClosesession] at h
    split at h
    · cases h
      rfl
    · cases h
  split at h
  · cases h
  split at h
  · cases h
  split at h
  · cases h
  split at h
  · split at h
    · cases h
    · cases request with
      | none =>
        cases h
        rfl
      | some r =>
        simp only [dsiCommandReply_other (hr r rfl)] at h
        cases h
  split at h
  · rename_i hc
    rw [copyAttention, if_pos (ha hc)] at h
    cases h
  · cases h

lemma processPacket_bounds {sk request runt} (h : Sound s) (hr : ∀ r, request = some r → r.isRead = false)
    (hd : s.header.length + headerSize ≤ s.dataRead)
    (ha : s.header.command = dsiAttention → s.dataRead ≤ s.attentionQuantum) :
    StaysInBounds (processPacket s sk request runt) := by
  rw [processPacket]
  split
  · rename_i hsw
    exact switchCommand_error (s := s.logDispatch runt) hr ha hsw
  · exact h
  · rename_i hsw
    have hf := (switchCommand_frame hsw hr).1
    refine afterProcessing_bounds ((h.logDispatch runt).frame hf) ?_
    rw [hf.header, hf.dataRead]
    exact hd

lemma readBody_bounds {sk request runt} (h : Sound s) (hr : ∀ r, request = some r → r.isRead = false)
    (hd : headerSize ≤ s.dataRead)
    (hfit : ¬ (s.dataRead = headerSize ∧ s.header.length = 0) → BodyFits s sk) :
    StaysInBounds (readBody s sk request runt) := by
  rw [readBody]
  split
  · rename_i hz
    have hat := h.attention
    exact processPacket_bounds h hr (by omega) (fun _ => by omega)
  rename_i hne
  obtain ⟨hfits, hattn⟩ := hfit hne
  split
  · exact h
  · rename_i bs sk1 hread
    have hk : sk.delivers (min s.header.length s.bufsize) = bs.length := by
      rw [Sock.delivers, hread]
      rfl
    rw [hk] at hfits hattn
    split
    · exact h
    · rw [store_ok hfits]
      have hst := h.stored hfits
      have hh := @stored_header s bs hd h.dataRead
      simp only []
      split
      · exact hst
      rename_i hfull
      rw [stored_dataRead, hh, Nat.not_lt] at hfull
      split
      · refine afterProcessing_bounds (hst.logDispatch true) ?_
        rw [show ((s.stored bs).logDispatch true).header = s.header from hh]
        exact hfull
      · refine processPacket_bounds hst hr ?_ ?_
        · rw [hh]
          exact hfull
        · rw [hh]
          exact fun hc => hattn hc hfull

lemma readReply_bounds {sk r} (h : Sound s) (hd : s.dataRead = headerSize) :
    StaysInBounds (readReply s sk r) := by
  have hup (rx : RxBuffer) (bs : Bytes) : Sound (s.receiving r rx bs) :=
    ⟨h.incoming, h.attention, h.dataRead, h.small⟩
  have hcases := readReply_cases s sk r
  generalize readReply s sk r = out at hcases
  cases hcases with
  | unprepared => rfl
  | overflow => rfl
  | overread => rfl
  | empty => exact h.reset.frame (recvOut_quiet ..).toFrame
  | nothing => exact h
  | complete => exact (hup _ _).reset.frame (recvOut_quiet ..).toFrame
  | more => exact hup _ _
  | behind hne => exact absurd hd hne

lemma gotEnough_bounds {sk} (h : Sound s) (hd : headerSize ≤ s.dataRead)
    (hfit : (s.dataRead = headerSize ∧ s.header.length = 0) ∨ CallFits s sk) :
    StaysInBounds (gotEnough s sk) := by
  cases hf : dsiFindRequest s.commandRequests s.header.requestid with
  | none =>
    have hbody : ¬ (s.dataRead = headerSize ∧ s.header.length = 0) → BodyFits s sk := by
      intro hne
      have hc := hfit.resolve_left hne hd
      simp only [hf, Option.any_none, Bool.false_eq_true, if_false] at hc
      exact hc
    by_cases hflag : s.header.flags = dsiReply
    · rw [gotEnough_runt hf hflag]
      exact readBody_bounds ⟨h.incoming, h.attention, h.dataRead, h.small⟩ (fun r hr => nomatch hr) hd
        hbody
    · rw [gotEnough_none hf hflag]
      exact readBody_bounds h (fun r hr => nomatch hr) hd hbody
  | some r =>
    have hup : Sound (s.update r.addr (·.answered (int32 s.header.errorCode))) :=
      ⟨h.incoming, h.attention, h.dataRead, h.small⟩
    cases hread : r.isRead with
    | false =>
      rw [gotEnough_other hf hread]
      refine readBody_bounds hup (fun r' hr => ?_) hd (fun hne => ?_)
      · cases hr
        exact hread
      · have hc := hfit.resolve_left hne hd
        simp only [hf, Option.any_some, hread, Bool.false_eq_true, if_false] at hc
        exact hc
    | true =>
      rw [gotEnough_read hf hread]
      refine readReply_bounds hup ?_
      rcases hfit with hz | hc
      · exact hz.1
      · have hc := hc hd
        simp only [hf, Option.any_some, hread, if_true] at hc
        exact hc

lemma dsiRecv_bounds {sk} (h : Sound s) (hfit : CallFits s sk) : StaysInBounds (dsiRecv s sk) := by
  rw [dsiRecv]
  split
  · rename_i hlt
    split
    · exact h
    · rename_i bs sk1 hread
      have hk : bs.length ≤ headerSize - s.dataRead := by
        have hbs : (sk.read (headerSize - s.dataRead)).1 = some bs := by rw [hread]
        exact Sock.read_length hbs
      have hin := h.incoming
      split
      · exact h
      · have hfits : s.dataRead + bs.length ≤ s.bufsize := by omega
        rw [store_ok hfits]
        simp only []
        split
        · rename_i hz
          exact gotEnough_bounds (h.stored hfits) (by omega) (.inl hz)
        · exact h.stored hfits
  · exact gotEnough_bounds h (by omega) (.inr hfit)

/-- One turn of the main loop: other threads change the queue, then `dsi_recv` is called. -/
def loopStep (w : Server × Sock) (f : List Request → List Request) (w' : Server × Sock) : Prop :=
  w.1.polled = true ∧ ∃ ret s', dsiRecv (w.1.meanwhile f) w.2 = .ok (ret, s', w'.2) ∧
    w'.1 = settle ret s'

end AfpfsNg.Dsi
