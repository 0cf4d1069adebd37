import AfpfsNg.Dsi.Completion

/-!
# Packets that answer nothing

What `dsi_recv` (`lib/dsi.c`) does with a packet whose id no queued request has. Such a packet is marked as a runt only if
its flags say that it is a reply; but what is done with it depends on its command alone. A packet that is no reply and has
the command of one is handed to `dsi_command_reply` with a request that was not found.
-/

namespace AfpfsNg.Dsi
open AfpfsNg.Base

/-- So many calls of `dsi_recv`, unless one returns -1 before. -/
def recvCalls (s : Server) (sk : Sock) : Nat → Outcome
  | 0 => .ok (0, s, sk)
  | n + 1 => (dsiRecv s sk).bind fun o => if o.1 = -1 then .ok o else recvCalls o.2.1 o.2.2 n

/-- The outcome of a call after which the next packet can come, with the queue `q` as it was. -/
def Ends (q : List Request) (out : Outcome) : Prop :=
  ∃ ret s' sk', out = .ok (ret, s', sk') ∧ q <+: s'.commandRequests ∧ (s'.dataRead = 0 ∨ ret = -1)

/-- No call faults or changes a queued request, and after the last one the next packet can come. -/
structure Harmless (s : Server) (sk : Sock) (n : Nat) : Prop where
  kept : ∀ k ≤ n, Keeps s.commandRequests (recvCalls s sk k)
  ready : Ends s.commandRequests (recvCalls s sk n)

section Calls
variable {s s' : Server} {sk sk' : Sock} {n : Nat}

lemma recvCalls_succ (hcall : dsiRecv s sk = .ok (0, s', sk')) (n : Nat) :
    recvCalls s sk (n + 1) = recvCalls s' sk' n := by
  rw [recvCalls, hcall]
  rfl

lemma harmless_succ (hcall : dsiRecv s sk = .ok (0, s', sk')) (hq : s'.commandRequests = s.commandRequests) :
    Harmless s sk (n + 1) ↔ Harmless s' sk' n := by
  constructor
  · rintro ⟨hkept, hready⟩
    rw [recvCalls_succ hcall] at hready
    refine ⟨fun k hk => ?_, by rwa [hq]⟩
    rw [hq, ← recvCalls_succ hcall]
    exact hkept (k + 1) (Nat.succ_le_succ hk)
  · rintro ⟨hkept, hready⟩
    refine ⟨fun k hk => ?_, by rwa [recvCalls_succ hcall, ← hq]⟩
    cases k with
    | zero => exact ⟨0, s, sk, rfl, List.prefix_rfl⟩
    | succ k =>
      rw [recvCalls_succ hcall, ← hq]
      exact hkept k (Nat.le_of_succ_le_succ hk)

lemma harmless_one : Harmless s sk 1 ↔ Ends s.commandRequests (dsiRecv s sk) := by
  have hends : Ends s.commandRequests (recvCalls s sk 1) ↔ Ends s.commandRequests (dsiRecv s sk) := by
    rw [recvCalls]
    cases hcall : dsiRecv s sk with
    | error e => exact ⟨nofun, nofun⟩
    | ok o =>
      obtain ⟨ret, s', sk'⟩ := o
      show Ends _ (if ret = -1 then .ok (ret, s', sk') else .ok (0, s', sk')) ↔ _
      split
      case isTrue => rfl
      case isFalse hret =>
        constructor
        · rintro ⟨_, _, _, heq, hq, hend⟩
          cases heq
          exact ⟨ret, s', sk', rfl, hq, hend.imp id fun h => absurd h (by decide)⟩
        · rintro ⟨_, _, _, heq, hq, hend⟩
          cases heq
          exact ⟨0, s', sk', rfl, hq, .inl (hend.resolve_right hret)⟩
  constructor
  · exact fun h => hends.mp h.ready
  · intro h
    have hone := hends.mpr h
    refine ⟨fun k hk => ?_, hone⟩
    obtain rfl | rfl : k = 0 ∨ k = 1 := by omega
    · exact ⟨0, s, sk, rfl, List.prefix_rfl⟩
    · obtain ⟨ret, s', sk', heq, hq, -⟩ := hone
      exact ⟨ret, s', sk', heq, hq⟩

end Calls

section Whole
variable {s : Server} {sk : Sock} {p : Packet}

/-- The packet is not a CloseSession, and it fits the attention buffer if it goes there. -/
structure Packet.Fitting (p : Packet) (s : Server) : Prop where
  open_ : p.head.command ≠ dsiCloseSession
  fits : p.size ≤ s.bufsize
  attention : p.head.command = dsiAttention → p.size ≤ s.attentionQuantum

lemma ends_dropped (hold : s.Holding p.bytes) : Ends s.commandRequests (afterProcessing (s.logDispatch true) sk none) := by
  have hexact : (s.logDispatch true).dataRead = (s.logDispatch true).header.length + headerSize := hold.whole_dataRead
  exact ⟨0, _, sk, afterProcessing_exact hexact, List.prefix_rfl, .inl rfl⟩

lemma ends_processed (hold : s.Holding p.bytes) (hp : p.Fitting s) {runt : Bool}
    (hreply : p.head.command = dsiCommand ∨ p.head.command = dsiWrite → runt = true) :
    Ends s.commandRequests (processPacket s sk none runt) := by
  have hh : (s.logDispatch runt).header = p.head := hold.whole_header
  by_cases hk : p.head.command ∈ knownCommands
  · have hmanageable : s.Manageable := by
      rw [manageable_whole hold]
      exact ⟨hp.attention, fun h => absurd h hp.open_⟩
    obtain ⟨⟨s₁, sk₁⟩, hrun⟩ := (@switchCommand_known (s.logDispatch runt) sk none runt (by rw [hh]; exact hk)
      (fun h => .inl (hreply (by rwa [hh] at h)))).1 hmanageable
    obtain ⟨hframe, -, -, hq, -⟩ := switchCommand_frame hrun (fun r h => nomatch h)
    have hexact : s₁.dataRead = s₁.header.length + headerSize := by
      rw [hframe.dataRead, hframe.header]
      exact hold.whole_dataRead
    refine ⟨0, s₁.reset, sk₁, ?_, List.isPrefixOf_iff_prefix.mp hq.isPrefixOf, .inl rfl⟩
    rw [processPacket, hrun]
    exact afterProcessing_exact hexact
  · refine ⟨-1, s, sk, ?_, List.prefix_rfl, .inr rfl⟩
    rw [processPacket, switchCommand_unknown (by rw [hh]; exact hk)]

lemma not_ends_null {q : List Request} (hold : s.Holding p.bytes)
    (hreply : p.head.command = dsiCommand ∨ p.head.command = dsiWrite) : ¬ Ends q (processPacket s sk none false) := by
  have hh : (s.logDispatch false).header = p.head := hold.whole_header
  rintro ⟨ret, s', sk', hout, -⟩
  rw [processPacket, switchCommand_null (by rw [hh]; exact hreply)] at hout
  cases hout

/-- What makes an unmatched packet harmless. -/
def Packet.NeedsNoRequest (p : Packet) : Prop :=
  p.head.flags = dsiReply ∨ p.head.command ≠ dsiCommand ∧ p.head.command ≠ dsiWrite

lemma ends_whole_iff (hold : s.Holding p.bytes) (hp : p.Fitting s) :
    Ends s.commandRequests (processPacket s sk none (decide (p.head.flags = dsiReply))) ↔ p.NeedsNoRequest := by
  constructor
  · intro hends
    by_contra hno
    obtain ⟨hflags, hreply⟩ := not_or.mp hno
    rw [decide_eq_false hflags] at hends
    rw [← not_or, Decidable.not_not] at hreply
    exact not_ends_null hold hreply hends
  · rintro (hflags | ⟨hcommand, hwrite⟩)
    · exact ends_processed hold hp fun _ => decide_eq_true hflags
    · exact ends_processed hold hp fun h => absurd h (not_or.mpr ⟨hcommand, hwrite⟩)

end Whole

section Pieces
variable {s : Server} {sk : Sock} {p : Packet} {m k : Nat} {tail : Bytes} {cs : List (Option Nat)}

/-- In the middle of a packet that answers nothing. -/
structure AmidUnmatched (s : Server) (sk : Sock) (p : Packet) (m : Nat) (tail : Bytes) : Prop extends Amid s sk p m tail where
  fitting : p.Fitting s
  unmatched : dsiFindRequest s.commandRequests p.head.requestid = none

lemma gotEnough_unmatched (hh : s.header = p.head) (hnone : dsiFindRequest s.commandRequests p.head.requestid = none)
    (sk : Sock) : ∃ s₁, gotEnough s sk = readBody s₁ sk none (decide (p.head.flags = dsiReply)) ∧ s.Quiet s₁ ∧
      s₁.commandRequests = s.commandRequests := by
  rw [← hh] at hnone
  by_cases hflags : p.head.flags = dsiReply
  · rw [decide_eq_true hflags]
    rw [← hh] at hflags
    exact ⟨s.countRunt, gotEnough_runt hnone hflags, ⟨⟨rfl, rfl, rfl, rfl⟩, rfl, rfl⟩, rfl⟩
  · rw [decide_eq_false hflags]
    rw [← hh] at hflags
    exact ⟨s, gotEnough_none hnone hflags, .refl s, rfl⟩

lemma AmidUnmatched.dsiRecv_body (h : AmidUnmatched s sk p m tail) (hm : headerSize ≤ m) (hcs : sk.chunks = some k :: cs)
    (hpos : 0 < k) (hk : m + k ≤ p.size) :
    ∃ s₁, s.Kin s₁ ∧ s₁.Holding (p.bytes.take (m + k)) ∧ s₁.commandRequests = s.commandRequests ∧
      dsiRecv s sk =
        if m + k < p.size then .ok (0, s₁, sk.consume k)
        else if decide (p.head.flags = dsiReply) then afterProcessing (s₁.logDispatch true) (sk.consume k) none
        else processPacket s₁ (sk.consume k) none (decide (p.head.flags = dsiReply)) := by
  have hlt := h.lt
  have hfits := h.fits
  have hav := p.le_stream h.stream hk
  have hl : (sk.stream.take k).length = k := List.length_take_of_le hav
  obtain ⟨s₀, hgo, hq, hqueue⟩ := gotEnough_unmatched (h.header hm) h.unmatched sk
  have hh : s₀.header = p.head := hq.header.trans (h.header hm)
  have hd : s₀.dataRead = m := hq.dataRead.trans h.dataRead
  have hhold : s₀.Holding (p.bytes.take m) := hq.holding h.holding
  have hroom : s₀.dataRead + (sk.stream.take k).length ≤ s₀.bufsize := by
    rw [hd, hl, hq.bufsize]
    omega
  have hstored := hhold.stored (sk.stream.take k)
  rw [p.take_stream h.stream hk] at hstored
  have hh' : (s₀.stored (sk.stream.take k)).header = p.head := hstored.header_take (by omega) hk
  refine ⟨s₀.stored (sk.stream.take k), hq.kin.trans (stored_kin hroom), hstored, hqueue, ?_⟩
  have hne : ¬ (s₀.dataRead = headerSize ∧ s₀.header.length = 0) := by
    rw [hh, hd, p.head_length]
    rw [Packet.size] at hlt
    omega
  have hmin : k ≤ min s₀.header.length s₀.bufsize := by
    rw [hh, hq.bufsize, p.head_length]
    rw [Packet.size] at hk hfits
    omega
  rw [dsiRecv, if_neg (by rw [h.dataRead]; omega), hgo, readBody_read hne hcs hpos hmin hav (by rw [← hl]; exact hroom), hh',
    hd, p.head_length, Packet.size, Nat.add_comm p.payload.length]

lemma AmidUnmatched.dsiRecv_header (h : AmidUnmatched s sk p m tail) (hm : m + k ≤ headerSize)
    (hcs : sk.chunks = some k :: cs) (hpos : 0 < k) :
    ∃ s₁, s.Kin s₁ ∧ s₁.Holding (p.bytes.take (m + k)) ∧ s₁.commandRequests = s.commandRequests ∧
      dsiRecv s sk =
        if m + k < p.size then .ok (0, s₁, sk.consume k)
        else processPacket s₁ (sk.consume k) none (decide (p.head.flags = dsiReply)) := by
  have hfits := h.fits
  have hsize := p.headerSize_le
  have hk : m + k ≤ p.size := Nat.le_trans hm hsize
  have hav := p.le_stream h.stream hk
  have hl : (sk.stream.take k).length = k := List.length_take_of_le hav
  have hroom : s.dataRead + (sk.stream.take k).length ≤ s.bufsize := by
    rw [h.dataRead, hl]
    omega
  have hstored := h.holding.stored (sk.stream.take k)
  rw [p.take_stream h.stream hk] at hstored
  have hcall := Dsi.dsiRecv_header h.holding (by rw [h.take_length]; omega) hcs hpos (by rw [h.take_length]; omega) hav
    (Nat.le_trans hsize hfits)
  rw [h.take_length] at hcall
  by_cases hin : m + k < p.size
  · refine ⟨s.stored (sk.stream.take k), stored_kin hroom, hstored, rfl, ?_⟩
    rw [hcall, if_pos hin, if_neg]
    rintro ⟨hfull, hzero⟩
    rw [hstored.header_take (by omega) hk, p.head_length] at hzero
    rw [Packet.size] at hin
    omega
  · -- there is no payload
    have hend : m + k = p.bytes.length := by
      rw [p.bytes_length]
      omega
    have hzero : p.payload.length = 0 := by
      rw [Packet.size] at hin
      omega
    have hwhole := hstored
    rw [hend, List.take_length] at hwhole
    obtain ⟨s₁, hgo, hq, hqueue⟩ := gotEnough_unmatched hwhole.whole_header h.unmatched (sk.consume k)
    have hhold : s₁.Holding p.bytes := hq.holding hwhole
    have hlength : s₁.header.length = 0 := by rw [hhold.whole_header, p.head_length, hzero]
    have hdataRead : s₁.dataRead = headerSize := by rw [hhold.whole_dataRead, hlength, Nat.zero_add]
    refine ⟨s₁, (stored_kin hroom).trans hq.kin, by rwa [hend, List.take_length], hqueue, ?_⟩
    rw [hcall, if_neg hin, if_pos ⟨by rw [p.bytes_length, Packet.size] at hend; omega,
      by rw [hwhole.whole_header, p.head_length, hzero]⟩, hgo, readBody, if_pos ⟨hdataRead, hlength⟩]

lemma AmidUnmatched.next {s₁ : Server} (h : AmidUnmatched s sk p m tail) (hkin : s.Kin s₁)
    (hhold : s₁.Holding (p.bytes.take (m + k))) (hqueue : s₁.commandRequests = s.commandRequests) (hin : m + k < p.size) :
    AmidUnmatched s₁ (sk.consume k) p (m + k) tail where
  holding := hhold
  lt := hin
  fits := by
    rw [hkin.bufsize]
    exact h.fits
  stream := p.drop_stream h.stream (Nat.le_of_lt hin)
  noread := by
    rw [hqueue]
    exact h.noread
  fitting := ⟨h.fitting.open_, by rw [hkin.bufsize]; exact h.fits, by rw [hkin.attentionQuantum]; exact h.fitting.attention⟩
  unmatched := by
    rw [hqueue]
    exact h.unmatched

lemma AmidUnmatched.whole {s₁ : Server} (h : AmidUnmatched s sk p m tail) (hkin : s.Kin s₁)
    (hhold : s₁.Holding (p.bytes.take (m + k))) (hend : m + k = p.size) : s₁.Holding p.bytes ∧ p.Fitting s₁ := by
  rw [hend, ← p.bytes_length, List.take_length] at hhold
  exact ⟨hhold, h.fitting.open_, by rw [hkin.bufsize]; exact h.fits, by rw [hkin.attentionQuantum]; exact h.fitting.attention⟩

lemma harmless_body {ks : List Nat} (h : AmidUnmatched s sk p m tail) (hm : headerSize ≤ m)
    (hcs : sk.chunks = ks.map some ++ cs) (hpos : ∀ k ∈ ks, 0 < k) (hsum : m + ks.sum = p.size) :
    Harmless s sk ks.length ↔ p.NeedsNoRequest := by
  induction ks generalizing s sk m with
  | nil =>
    have hlt := h.lt
    rw [List.sum_nil] at hsum
    omega
  | cons k ks ih =>
    rw [List.sum_cons] at hsum
    obtain ⟨s₁, hkin, hhold, hqueue, hcall⟩ := h.dsiRecv_body hm hcs (hpos k (.head _)) (by omega)
    cases ks with
    | nil =>
      rw [List.sum_nil] at hsum
      obtain ⟨hwhole, hfitting⟩ := h.whole hkin hhold hsum
      rw [if_neg (by omega)] at hcall
      rw [List.length_singleton, harmless_one, hcall, ← hqueue, ← @ends_whole_iff s₁ (sk.consume k) p hwhole hfitting]
      by_cases hflags : p.head.flags = dsiReply
      · rw [if_pos (decide_eq_true hflags)]
        exact iff_of_true (ends_dropped hwhole) (ends_processed hwhole hfitting fun _ => decide_eq_true hflags)
      · rw [if_neg (by rw [decide_eq_false hflags]; exact Bool.false_ne_true)]
    | cons k' ks =>
      have hpos' : ∀ x ∈ k' :: ks, 0 < x := fun x hx => hpos x (.tail _ hx)
      have hrest := sum_pos_of_cons hpos'
      rw [if_pos (by omega)] at hcall
      rw [List.length_cons, harmless_succ hcall hqueue]
      exact ih (h.next hkin hhold hqueue (by omega)) (by omega) (by rw [Sock.consume, hcs]; rfl) hpos' (by omega)

lemma harmless_header {hs ps : List Nat} (h : AmidUnmatched s sk p m tail) (hm : m < headerSize)
    (hcs : sk.chunks = (hs ++ ps).map some ++ cs) (hpos : ∀ k ∈ hs ++ ps, 0 < k) (hhs : m + hs.sum = headerSize)
    (hps : ps.sum = p.payload.length) : Harmless s sk (hs ++ ps).length ↔ p.NeedsNoRequest := by
  induction hs generalizing s sk m with
  | nil =>
    rw [List.sum_nil] at hhs
    omega
  | cons k hs ih =>
    rw [List.sum_cons] at hhs
    obtain ⟨s₁, hkin, hhold, hqueue, hcall⟩ := h.dsiRecv_header (by omega) hcs (hpos k (.head _))
    by_cases hin : m + k < p.size
    · rw [if_pos hin] at hcall
      have hnext := h.next hkin hhold hqueue hin
      have hchunks : (sk.consume k).chunks = (hs ++ ps).map some ++ cs := by rw [Sock.consume, hcs]; rfl
      have hpos' : ∀ x ∈ hs ++ ps, 0 < x := fun x hx => hpos x (.tail _ hx)
      rw [List.cons_append, List.length_cons, harmless_succ hcall hqueue]
      cases hs with
      | nil =>
        rw [List.sum_nil] at hhs
        exact harmless_body hnext (by omega) hchunks hpos' (by rw [List.nil_append, Packet.size]; omega)
      | cons k' hs =>
        have hrest := sum_pos_of_cons fun x hx => hpos' x (List.mem_append_left _ hx)
        exact ih hnext (by omega) hchunks hpos' (by omega)
    · -- the header was the whole packet
      have hk := p.headerSize_le
      have hzero : p.payload.length = 0 := by
        rw [Packet.size] at hin
        omega
      obtain rfl : hs = [] := by
        cases hs with
        | nil => rfl
        | cons k' hs =>
          have hrest := sum_pos_of_cons fun x hx => hpos x (.tail _ (List.mem_append_left _ hx))
          omega
      obtain rfl : ps = [] := by
        cases ps with
        | nil => rfl
        | cons k' ps =>
          have hrest := sum_pos_of_cons fun x hx => hpos x (.tail _ hx)
          omega
      rw [List.sum_nil] at hhs
      obtain ⟨hwhole, hfitting⟩ := h.whole hkin hhold (by omega)
      rw [if_neg hin] at hcall
      rw [List.append_nil, List.length_singleton, harmless_one, hcall, ← hqueue, ends_whole_iff hwhole hfitting]

end Pieces

def commandPacket : Packet where
  header := [0, 2, 0, 10, 0, 0, 0, 0, 0, 0, 0, 0, 0, 0, 0, 0]
  payload := []
  header_length := rfl
  length_eq := rfl

end AfpfsNg.Dsi
