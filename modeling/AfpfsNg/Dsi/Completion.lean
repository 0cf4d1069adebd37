import Mathlib.Data.List.Nodup
import AfpfsNg.Dsi.Framing

/-!
# Who completes a request

`dsi_recv` (`lib/dsi.c`) looks up the request of every packet by its id, whether or not the packet is a
reply, and what it finds it treats as answered: `return_code` is set, a read's buffer is filled, the
caller is woken up or the request removed. A server numbers its own requests (tickles, attention,
CloseSession) in a sequence of its own, so an id can coincide. `keepsQueue` says of a series of calls that none of them
touches a queued request.
-/

namespace AfpfsNg.Dsi
open AfpfsNg.Base

/-- None of the next `n` calls faults, and each leaves the queued requests as they are. A call may
append a request of its own. -/
def keepsQueue (s : Server) (sk : Sock) : Nat → Bool
  | 0 => true
  | n + 1 =>
    !s.polled ||
      match dsiRecv s sk with
      | .error _ => false
      | .ok (ret, s', sk') =>
        s.commandRequests.isPrefixOf s'.commandRequests && keepsQueue (settle ret s') sk' n

/-- The outcome of one call keeps the queue `q`, and so do the `n` calls that follow it. -/
def keepsAfter (q : List Request) (n : Nat) : Outcome → Bool
  | .error _ => false
  | .ok (ret, s', sk') => q.isPrefixOf s'.commandRequests && keepsQueue (settle ret s') sk' n

variable {s s' : Server} {q : List Request} {r : Request} {sk : Sock}

lemma keepsQueue_succ {sk n} (hp : s.polled = true) :
    keepsQueue s sk (n + 1) = keepsAfter s.commandRequests n (dsiRecv s sk) := by
  simp only [keepsQueue, hp, Bool.not_true, Bool.false_or]
  cases dsiRecv s sk <;> rfl

def Keeps (q : List Request) (out : Outcome) : Prop :=
  ∃ ret s' sk', out = .ok (ret, s', sk') ∧ q <+: s'.commandRequests

lemma keepsAfter_zero {q out} : keepsAfter q 0 out = true ↔ Keeps q out := by
  cases out with
  | error e =>
    refine ⟨fun h => (nomatch h), ?_⟩
    rintro ⟨_, _, _, h, -⟩
    cases h
  | ok o =>
    obtain ⟨ret, s', sk'⟩ := o
    simp only [keepsAfter, keepsQueue, Bool.and_true, List.isPrefixOf_iff_prefix]
    refine ⟨fun h => ⟨ret, s', sk', rfl, h⟩, ?_⟩
    rintro ⟨_, _, _, h, hq⟩
    cases h
    exact hq

lemma keepsAfter_keeps {q n out} (h : keepsAfter q n out = true) : Keeps q out := by
  refine keepsAfter_zero.mp ?_
  cases out with
  | error e => cases h
  | ok o =>
    simp only [keepsAfter, Bool.and_eq_true] at h
    simp only [keepsAfter, h.1, keepsQueue, Bool.and_true]

lemma not_keeps {r out} (hr : r ∈ q) (hgone : ∀ ret s' sk', out = .ok (ret, s', sk') → r ∉ s'.commandRequests) :
    ¬ Keeps q out := by
  rintro ⟨ret, s', sk', hout, hq⟩
  exact hgone ret s' sk' hout (hq.subset hr)

def outQueue (q : List Request) (r : Request) : List Request :=
  if r.wait ≠ 0 then updateAt q r.addr (·.completed) else dsiRemoveFromRequestQueue q r.addr

lemma recvOut_commandRequests (s : Server) (r : Request) :
    (recvOut s (some r)).commandRequests = outQueue s.commandRequests r := by
  simp only [recvOut, outQueue]
  split
  · rfl
  · rw [Server.removeRequest]
    split
    · rfl
    · rename_i hno
      rw [dsiRemoveFromRequestQueue, List.eraseP_of_forall_not]
      intro x hx he
      exact hno (List.any_eq_true.mpr ⟨x, hx, he⟩)

lemma mem_updateAt {a f x} : x ∈ updateAt q a f ↔ ∃ y ∈ q, (if y.addr = a then f y else y) = x := by
  rw [updateAt, List.mem_map]

lemma not_mem_outQueue {r0 : Request} (hnd : (q.map Request.addr).Nodup) (ha : r.addr = r0.addr)
    (hw : r.wait = r0.wait) : r0 ∉ outQueue q r := by
  rw [outQueue]
  split
  · rename_i hwait
    intro hmem
    obtain ⟨y, hy, he⟩ := mem_updateAt.mp hmem
    split at he
    · rw [← he] at hw
      exact hwait hw
    · rename_i hne
      rw [he] at hne
      exact hne ha.symm
  · intro hmem
    exact (mem_dsiRemoveFromRequestQueue hnd hmem).2 ha.symm

lemma forall_outQueue {a} {P : Request → Prop} (hq : ∀ x ∈ q, x.addr = a → P x) (hP : ∀ x, P x → P x.completed) :
    ∀ x ∈ outQueue q r, x.addr = a → P x := by
  intro x hx hxa
  rw [outQueue] at hx
  split at hx
  · obtain ⟨y, hy, he⟩ := mem_updateAt.mp hx
    split at he
    · rw [← he] at hxa ⊢
      exact hP y (hq y hy hxa)
    · rw [← he] at hxa ⊢
      exact hq y hy hxa
  · exact hq x (List.mem_of_mem_eraseP hx) hxa

lemma forall_extends {q' : List Request} {P : Request → Prop} (he : Extends q q') (hr : r ∈ q)
    (hq : ∀ x ∈ q, x.addr = r.addr → P x) : ∀ x ∈ q', x.addr = r.addr → P x := by
  rcases he with rfl | ⟨y, hy, rfl⟩
  · exact hq
  · intro x hx hxa
    rcases List.mem_append.mp hx with hx | hx
    · exact hq x hx hxa
    · rw [List.mem_singleton] at hx
      have := addr_lt_freshAddr hr
      rw [hx, hy] at hxa
      omega

lemma Extends.nodup {q q'} (he : Extends q q') (h : (q.map Request.addr).Nodup) :
    (q'.map Request.addr).Nodup := by
  rcases he with rfl | ⟨y, hy, rfl⟩
  · exact h
  · rw [List.map_append, List.nodup_append]
    refine ⟨h, by simp, ?_⟩
    intro x hx z hz
    obtain ⟨w, hw, rfl⟩ := List.mem_map.mp hx
    have := addr_lt_freshAddr hw
    rw [List.map_singleton, List.mem_singleton, hy] at hz
    omega

lemma updateAt_nodup {a f} (hf : ∀ x : Request, (f x).addr = x.addr) (h : (q.map Request.addr).Nodup) :
    ((updateAt q a f).map Request.addr).Nodup := by
  have he : (updateAt q a f).map Request.addr = q.map Request.addr := by
    rw [updateAt, List.map_map]
    refine List.map_congr_left fun x _ => ?_
    simp only [Function.comp_apply]
    split
    · exact hf x
    · rfl
  rwa [he]

lemma processPacket_unmatched {sk} (hd : s.dataRead = s.header.length + headerSize) :
    Keeps s.commandRequests (processPacket s sk none false) ↔
      s.header.command ≠ dsiCommand ∧ s.header.command ≠ dsiWrite ∧ s.Manageable := by
  by_cases hc : s.header.command = dsiCommand ∨ s.header.command = dsiWrite
  · have herr : processPacket s sk none false = .error .nullDereference := by
      rw [processPacket, switchCommand_null (s := s.logDispatch false) hc]
    rw [herr]
    refine ⟨fun h => ?_, fun h => ?_⟩
    · obtain ⟨_, _, _, h, -⟩ := h
      cases h
    · rcases hc with hc | hc
      · exact absurd hc h.1
      · exact absurd hc h.2.1
  rw [not_or] at hc
  simp only [hc, ne_eq, not_false_eq_true, true_and]
  by_cases hk : s.header.command ∈ knownCommands
  · have hsw := @switchCommand_known (s.logDispatch false) sk none false hk
      (fun h => absurd h (not_or.mpr hc))
    refine ⟨fun h => ?_, fun hm => ?_⟩
    · by_contra hm
      obtain ⟨e, hrun⟩ := hsw.2 hm
      obtain ⟨_, _, _, hout, -⟩ := h
      rw [processPacket, hrun] at hout
      cases hout
    · obtain ⟨⟨s1, sk1⟩, hrun⟩ := hsw.1 hm
      obtain ⟨hf, -, -, hq, -⟩ := switchCommand_frame hrun (fun r h => by cases h)
      refine ⟨0, s1.reset, sk1, ?_, List.isPrefixOf_iff_prefix.mp hq.isPrefixOf⟩
      rw [processPacket, hrun]
      exact afterProcessing_exact (hf.whole hd)
  · refine ⟨fun _ => ?_, fun _ => ⟨-1, s, sk, ?_, List.prefix_rfl⟩⟩
    · simp only [knownCommands, List.mem_cons, List.not_mem_nil, or_false, not_or] at hk
      exact ⟨fun h => absurd h hk.2.2.2.2.2.2, fun h => absurd h hk.1⟩
    · rw [processPacket, switchCommand_unknown (s := s.logDispatch false) hk]

lemma processPacket_matched {sk} (hd : s.dataRead = s.header.length + headerSize) (hread : r.isRead = false)
    (hnd : (s.commandRequests.map Request.addr).Nodup) (hr : r ∈ s.commandRequests) :
    Keeps s.commandRequests (processPacket s sk (some r) false) ↔
      s.header.command ∉ knownCommands := by
  by_cases hk : s.header.command ∈ knownCommands
  · refine ⟨fun h => absurd h (not_keeps hr fun ret s' sk' hout => ?_), fun h => absurd hk h⟩
    rw [processPacket] at hout
    split at hout
    · cases hout
    · rename_i hsw
      have hno := switchCommand_none hsw
      exact absurd hk hno
    · rename_i s1 sk1 hsw
      obtain ⟨hf, -, -, hq, -⟩ := switchCommand_frame hsw (fun r' h => by cases h; exact hread)
      rw [afterProcessing_exact (hf.whole hd)] at hout
      cases hout
      rw [recvOut_commandRequests]
      exact not_mem_outQueue (hq.nodup hnd) rfl rfl
  · refine ⟨fun _ => hk, fun _ => ⟨-1, s, sk, ?_, List.prefix_rfl⟩⟩
    rw [processPacket, switchCommand_unknown (s := s.logDispatch false) hk]

lemma updateAt_eq_self {a f} (h : ∀ x ∈ q, x.addr = a → f x = x) : updateAt q a f = q := by
  rw [updateAt]
  refine (List.map_congr_left fun x hx => ?_).trans (List.map_id q)
  split
  · exact h x hx ‹_›
  · rfl

lemma eq_of_addr_eq {x y} (hnd : (q.map Request.addr).Nodup) (hx : x ∈ q) (hy : y ∈ q) (h : x.addr = y.addr) :
    x = y :=
  List.inj_on_of_nodup_map hnd hx hy h

lemma update_answered_self {r c} (hnd : (s.commandRequests.map Request.addr).Nodup) (hr : r ∈ s.commandRequests)
    (hc : r.returnCode = c) : s.update r.addr (·.answered c) = s := by
  have hq : updateAt s.commandRequests r.addr (·.answered c) = s.commandRequests := by
    refine updateAt_eq_self fun x hx hxa => ?_
    rw [eq_of_addr_eq hnd hx hr hxa, ← hc]
    rfl
  rw [Server.update, hq]

lemma afterProcessing_queue {sk sk' r ret} (h : afterProcessing s sk (some r) = .ok (ret, s', sk')) :
    s'.commandRequests = outQueue s.commandRequests r := by
  simp only [afterProcessing] at h
  split at h
  · cases h
    exact recvOut_commandRequests ..
  split at h
  · cases h
  split at h
  · cases h
  · cases h
    exact recvOut_commandRequests ..

/-- What a call can do to the queue once it has found a request that is not a read. -/
def OtherQueue (q : List Request) (r : Request) (q' : List Request) : Prop :=
  q' = q ∨ ∃ q1, Extends q q1 ∧ q' = outQueue q1 r

lemma processPacket_queue {sk sk' r ret} (hread : r.isRead = false)
    (h : processPacket s sk (some r) false = .ok (ret, s', sk')) :
    OtherQueue s.commandRequests r s'.commandRequests := by
  rw [processPacket] at h
  split at h
  · cases h
  · cases h
    exact .inl rfl
  · rename_i s1 sk1 hsw
    obtain ⟨-, -, -, hq, -⟩ := switchCommand_frame hsw (fun r' h => by cases h; exact hread)
    exact .inr ⟨_, hq, afterProcessing_queue h⟩

lemma readBody_queue {sk sk' r ret} (hread : r.isRead = false) (h : readBody s sk (some r) false = .ok (ret, s', sk')) :
    OtherQueue s.commandRequests r s'.commandRequests := by
  rw [readBody] at h
  split at h
  · exact processPacket_queue hread h
  split at h
  · cases h
    exact .inl rfl
  split at h
  · cases h
    exact .inl rfl
  rw [Server.store] at h
  split at h
  · cases h
  rename_i hst
  split at hst
  · cases hst
    split at h
    · cases h
      exact .inl rfl
    · simp only [Bool.false_eq_true, if_false] at h
      have hq := processPacket_queue hread h
      exact hq
  · cases hst

lemma readReply_queue {sk sk' r ret} (hd : s.dataRead = headerSize) (h : readReply s sk r = .ok (ret, s', sk')) :
    (s' = s ∧ s.header.length ≠ 0 ∧ ∃ rx, r.other = some rx ∧
      (rx.maxsize = 0 ∨ (sk.read (newmax rx s.header.length)).1.getD [] = [])) ∨
      s'.commandRequests = outQueue s.commandRequests r ∨
      ∃ rx rx', r.other = some rx ∧ rx.size < rx'.size ∧
        (s'.commandRequests = updateAt s.commandRequests r.addr (·.received rx') ∨
          s'.commandRequests =
            outQueue (updateAt s.commandRequests r.addr (·.received rx')) (r.received rx')) := by
  have hlt {rx : RxBuffer} {bs : Bytes} (hbs : bs ≠ []) : rx.size < (rx.extend bs).size := by
    have := List.length_pos_of_ne_nil hbs
    simp only [RxBuffer.extend]
    omega
  have hcases := readReply_cases s sk r
  generalize readReply s sk r = out at h hcases
  cases hcases with
  | unprepared => cases h
  | overflow => cases h
  | overread => cases h
  | empty =>
    cases h
    exact .inr (.inl (recvOut_commandRequests ..))
  | nothing hlen hrx hwhy =>
    cases h
    exact .inl ⟨rfl, hlen hd, _, hrx, hwhy⟩
  | complete hrx hbs =>
    cases h
    exact .inr (.inr ⟨_, _, hrx, hlt hbs, .inr (recvOut_commandRequests ..)⟩)
  | more hrx hbs =>
    cases h
    exact .inr (.inr ⟨_, _, hrx, hlt hbs, .inl rfl⟩)
  | behind hne => exact absurd hd hne

def RxBuffer.Full (rx : RxBuffer) (len : Nat) : Prop :=
  rx.maxsize = 0 ∨ newmax rx len = 0

lemma read_nil_iff {n k cs} (hcs : sk.chunks = some k :: cs) (hpos : 0 < k) (hav : sk.stream ≠ []) :
    (sk.read n).1.getD [] = [] ↔ n = 0 := by
  have hl := List.length_pos_of_ne_nil hav
  simp only [Sock.read, hcs, Option.getD_some]
  rw [List.take_eq_nil_iff]
  refine ⟨fun h => ?_, fun h => .inl (by omega)⟩
  rcases h with h | h
  · omega
  · exact absurd h hav

lemma readReply_full {sk r rx} (hlen : s.header.length ≠ 0) (hrx : r.other = some rx)
    (hfull : rx.Full s.header.length) : ∃ sk', readReply s sk r = .ok (-1, s, sk') := by
  have hne : ¬ (s.dataRead = headerSize ∧ s.header.length = 0) := fun h => hlen h.2
  simp only [readReply, hrx, if_neg hne]
  split
  · exact ⟨sk, rfl⟩
  · rename_i hm
    have hzero : newmax rx s.header.length = 0 := hfull.resolve_left hm
    rw [hzero, Sock.read]
    cases sk.chunks with
    | nil => exact ⟨_, rfl⟩
    | cons c cs =>
      cases c with
      | none => exact ⟨_, rfl⟩
      | some k => exact ⟨sk.consume (min k 0), by simp⟩

lemma updateAt_answered_code {a c} : ∀ x ∈ updateAt q a (·.answered c), x.addr = a → x.returnCode = c := by
  intro x hx hxa
  obtain ⟨y, hy, he⟩ := mem_updateAt.mp hx
  split at he
  · rw [← he]
    rfl
  · rename_i hne
    rw [he] at hne
    exact absurd hxa hne

lemma updateAt_received_code {a a' c rx} (h : ∀ x ∈ q, x.addr = a → x.returnCode = c) :
    ∀ x ∈ updateAt q a' (·.received rx), x.addr = a → x.returnCode = c := by
  intro x hx hxa
  obtain ⟨y, hy, he⟩ := mem_updateAt.mp hx
  split at he
  · rw [← he] at hxa ⊢
    exact h y hy hxa
  · rw [← he] at hxa ⊢
    exact h y hy hxa

section
variable {s : Server} {sk : Sock} {r : Request}
  (hd : s.dataRead = headerSize)
  (hf : dsiFindRequest s.commandRequests s.header.requestid = some r)
  (hnd : (s.commandRequests.map Request.addr).Nodup)

include hd hf in
lemma gotEnough_code (hc : r.returnCode ≠ int32 s.header.errorCode) :
    ¬ Keeps s.commandRequests (gotEnough s sk) := by
  refine not_keeps (dsiFindRequest_mem hf) fun ret s' sk' hout hmem => hc ?_
  suffices hall : ∀ x ∈ s'.commandRequests, x.addr = r.addr →
      x.returnCode = int32 s.header.errorCode from hall r hmem rfl
  have hr := dsiFindRequest_mem hf
  cases hread : r.isRead with
  | false =>
    rw [gotEnough_other hf hread] at hout
    generalize int32 s.header.errorCode = c at hout ⊢
    have hmark := @updateAt_answered_code s.commandRequests r.addr c
    have hmem : r.answered c ∈ updateAt s.commandRequests r.addr (·.answered c) :=
      mem_updateAt.mpr ⟨r, hr, if_pos rfl⟩
    rcases readBody_queue hread hout with hq | ⟨q1, he, hq⟩
    · rw [hq]
      exact hmark
    · rw [hq]
      exact forall_outQueue (forall_extends (r := r.answered c) he hmem hmark) fun x hx => hx
  | true =>
    rw [gotEnough_read hf hread] at hout
    generalize int32 s.header.errorCode = c at hout ⊢
    have hmark := @updateAt_answered_code s.commandRequests r.addr c
    rcases readReply_queue (s := s.update r.addr (·.answered c)) hd hout with
      ⟨rfl, -⟩ | hq | ⟨rx, rx', -, -, hq | hq⟩
    · exact hmark
    · rw [hq]
      exact forall_outQueue hmark fun x hx => hx
    · rw [hq]
      exact updateAt_received_code hmark
    · rw [hq]
      exact forall_outQueue (updateAt_received_code hmark) fun x hx => hx

include hf hnd in
lemma gotEnough_other_quiet (hread : r.isRead = false)
    (hc : r.returnCode = int32 s.header.errorCode) :
    gotEnough s sk = readBody s sk (some r) false := by
  rw [gotEnough_other hf hread, update_answered_self hnd (dsiFindRequest_mem hf) hc, ← hc]
  rfl

include hf hnd in
lemma gotEnough_read_quiet (hread : r.isRead = true)
    (hc : r.returnCode = int32 s.header.errorCode) : gotEnough s sk = readReply s sk r := by
  rw [gotEnough_read hf hread, update_answered_self hnd (dsiFindRequest_mem hf) hc, ← hc]
  rfl

include hd hf hnd in
lemma gotEnough_read_keeps (hread : r.isRead = true) (hc : r.returnCode = int32 s.header.errorCode)
    (hk : s.header.length ≠ 0 → ∃ k cs, sk.chunks = some k :: cs ∧ 0 < k ∧ sk.stream ≠ [])
    (h : Keeps s.commandRequests (gotEnough s sk)) :
    s.header.length ≠ 0 ∧ ∃ rx, r.other = some rx ∧ rx.Full s.header.length := by
  have hr := dsiFindRequest_mem hf
  rw [gotEnough_read_quiet hf hnd hread hc] at h
  by_contra hno
  refine not_keeps hr (fun ret s' sk' hout hmem => ?_) h
  rcases readReply_queue hd hout with ⟨rfl, hlen, rx, hrx, hnil⟩ | hq | ⟨rx, rx', hrx, hlt, hq⟩
  · obtain ⟨k, cs, hcs, hpos, hav⟩ := hk hlen
    rw [read_nil_iff hcs hpos hav] at hnil
    exact hno ⟨hlen, rx, hrx, hnil⟩
  · rw [hq] at hmem
    exact not_mem_outQueue hnd rfl rfl hmem
  · have hnd' : ((updateAt s.commandRequests r.addr (·.received rx')).map Request.addr).Nodup :=
      updateAt_nodup (fun _ => rfl) hnd
    rcases hq with hq | hq
    · rw [hq] at hmem
      obtain ⟨y, hy, he⟩ := mem_updateAt.mp hmem
      split at he
      · have : (y.received rx').other = some rx := by rw [he, hrx]
        cases this
        omega
      · rename_i hne
        rw [he] at hne
        exact hne rfl
    · rw [hq] at hmem
      exact not_mem_outQueue hnd' rfl rfl hmem

end

lemma keepsQueue_full {rx} (hd : s.dataRead = headerSize)
    (hf : dsiFindRequest s.commandRequests s.header.requestid = some r)
    (hnd : (s.commandRequests.map Request.addr).Nodup) (hread : r.isRead = true)
    (hc : r.returnCode = int32 s.header.errorCode) (hlen : s.header.length ≠ 0) (hrx : r.other = some rx)
    (hfull : rx.Full s.header.length) (n : Nat) (sk : Sock) : keepsQueue s sk n = true := by
  induction n generalizing sk with
  | zero => rfl
  | succ n ih =>
    by_cases hp : s.polled = true
    · obtain ⟨sk', hcall⟩ := @readReply_full s sk r rx hlen hrx hfull
      rw [keepsQueue_succ hp, dsiRecv, if_neg (by omega), gotEnough_read_quiet hf hnd hread hc, hcall]
      simp only [keepsAfter, Bool.and_eq_true, List.isPrefixOf_iff_prefix, List.prefix_rfl, true_and]
      -- the main loop lets go of the connection, or had already lost it
      simp only [settle, if_true, loopDisconnect]
      split
      · cases n <;> rfl
      · exact ih sk'
    · simp only [keepsQueue, hp, Bool.not_false, Bool.true_or]

lemma keepsQueue_body {p : Packet} {ps : List Nat} {m rest cs o} {F : Prop} (hold : s.Holding (p.bytes.take m))
    (hm : headerSize ≤ m) (hlt : m < p.size) (hp : s.polled = true) (hst : sk.stream = p.bytes.drop m ++ rest)
    (hcs : sk.chunks = ps.map some ++ cs) (hpos : ∀ k ∈ ps, 0 < k) (hsum : m + ps.sum = p.size)
    (hle : ∀ k ∈ ps, k ≤ s.bufsize)
    (hgo : ∀ s1 sk1, s1.commandRequests = s.commandRequests → s1.header = p.head →
      gotEnough s1 sk1 = readBody s1 sk1 o false)
    (hend : ∀ s1 sk1, s1.Holding p.bytes → s1.commandRequests = s.commandRequests →
      s1.attentionQuantum = s.attentionQuantum → s1.volumes = s.volumes →
      (Keeps s1.commandRequests (processPacket s1 sk1 o false) ↔ F)) :
    keepsQueue s sk ps.length = true ↔ p.size ≤ s.bufsize ∧ F := by
  induction ps generalizing s sk m with
  | nil =>
    rw [List.sum_nil] at hsum
    omega
  | cons k ps ih =>
    have hk := hpos k (by simp)
    have hkb := hle k (by simp)
    rw [List.sum_cons] at hsum
    have hmk : m + k ≤ p.size := by omega
    have hd : s.dataRead = m := hold.1.trans (p.length_take (Nat.le_of_lt hlt))
    have hh : s.header = p.head := hold.header_take hm (Nat.le_of_lt hlt)
    have hav : k ≤ sk.stream.length := p.le_stream hst hmk
    have hl : (sk.stream.take k).length = k := List.length_take_of_le hav
    have hdrop : (sk.consume k).stream = p.bytes.drop (m + k) ++ rest := p.drop_stream hst hmk
    have hne : ¬ (s.dataRead = headerSize ∧ s.header.length = 0) := by
      rw [hd, hh, p.head_length]
      rw [Packet.size] at hlt
      omega
    have hkl : k ≤ min s.header.length s.bufsize := by
      rw [hh, p.head_length]
      rw [Packet.size] at hsum
      omega
    rw [List.length_cons, keepsQueue_succ hp, dsiRecv, if_neg (by omega), hgo s sk rfl hh]
    by_cases hfit : m + k ≤ s.bufsize
    · have hhold := hold.stored (sk.stream.take k)
      rw [p.take_stream hst hmk] at hhold
      have hb := stored_bufsize (show s.dataRead + (sk.stream.take k).length ≤ s.bufsize by omega)
      have hh2 : (s.stored (sk.stream.take k)).header = p.head := hhold.header_take (by omega) hmk
      rw [readBody_read hne hcs hk hkl hav (by omega), hh2, p.head_length, hd]
      cases ps with
      | nil =>
        rw [List.sum_nil] at hsum
        rw [Packet.size] at hsum
        have hwhole : p.bytes.take (m + k) = p.bytes := by
          rw [show m + k = p.bytes.length by rw [p.bytes_length, Packet.size]; omega, List.take_length]
        rw [hwhole] at hhold
        rw [if_neg (by omega), if_neg (by decide), List.length_nil, keepsAfter_zero]
        have hF := hend _ (sk.consume k) hhold rfl rfl rfl
        rw [stored_commandRequests] at hF
        rw [hF]
        refine ⟨fun h => ⟨?_, h⟩, fun h => h.2⟩
        rw [Packet.size]
        omega
      | cons k' ps =>
        have hpos' : ∀ x ∈ k' :: ps, 0 < x := fun x hx => hpos x (List.mem_cons_of_mem _ hx)
        have hrest := sum_pos_of_cons hpos'
        have hin : m + k < p.size := by omega
        rw [if_pos (by rw [Packet.size] at hin; omega)]
        simp only [keepsAfter, stored_commandRequests, Bool.and_eq_true, settle_zero,
          List.isPrefixOf_iff_prefix, List.prefix_rfl, true_and]
        rw [← hb]
        exact @ih (s.stored (sk.stream.take k)) (sk.consume k) (m + k) hhold (by omega) hin hp hdrop
          (by rw [Sock.consume, hcs]; rfl) hpos' (by omega)
          (fun x hx => hb.symm ▸ hle x (List.mem_cons_of_mem _ hx)) hgo hend
    · rw [readBody_overflow hne hcs hk hkl hav (by omega)]
      refine ⟨fun h => (by cases h), fun h => ?_⟩
      omega

lemma keepsQueue_header (n : Nat) {hs : List Nat} {cur cs} (hold : s.Holding cur) (hlt : cur.length < headerSize)
    (hpos : ∀ k ∈ hs, 0 < k) (hsum : cur.length + hs.sum = headerSize) (hcs : sk.chunks = hs.map some ++ cs)
    (hav : hs.sum ≤ sk.stream.length) (hbuf : headerSize ≤ s.bufsize) (hp : s.polled = true) :
    ∃ s1, s1.Holding (cur ++ sk.stream.take hs.sum) ∧ s1.bufsize = s.bufsize ∧
      s1 = { s with
        incomingBuffer := s1.incomingBuffer, dataRead := s1.dataRead, stats := s1.stats } ∧
      keepsQueue s sk (hs.length + n) =
        if s1.header.length = 0 then
          keepsAfter s.commandRequests n
            (gotEnough s1 { sk with stream := sk.stream.drop hs.sum, chunks := cs })
        else keepsQueue s1 { sk with stream := sk.stream.drop hs.sum, chunks := cs } n := by
  have hqueue (m : Nat) : queueAfter s.commandRequests (List.replicate m id) = s.commandRequests := by
    induction m with
    | zero => rfl
    | succ m ih => exact ih
  have hnext {s sk n} : keepsAfter s.commandRequests n (.ok (0, s, sk)) = keepsQueue s sk n := by
    rw [keepsAfter, List.isPrefixOf_iff_prefix.mpr List.prefix_rfl, Bool.true_and, settle_zero]
  -- nothing happens to the queue between the calls
  obtain ⟨s1, hold1, hbuf1, hs1, hrun⟩ := run_header (fun s sk fs => keepsQueue s sk fs.length)
    (fun q fs => keepsAfter q fs.length) (List.replicate n id)
    (fun hf hp => by rw [List.eq_of_mem_replicate hf]; exact keepsQueue_succ hp) hnext hold hlt hpos hsum
    (show (List.replicate hs.length id).length = hs.length from List.length_replicate) hcs hav hbuf hp
  rw [hqueue] at hs1 hrun
  refine ⟨s1, hold1, hbuf1, hs1, ?_⟩
  simp only [List.length_append, List.length_replicate] at hrun
  rw [hrun]
  split
  · rfl
  · have hq1 : s1.commandRequests = s.commandRequests := by rw [hs1]
    rw [← hq1]
    exact hnext

/-- When a packet that is no reply leaves every queued request alone: no request carries its id, it fits the buffer and its
handler survives it; or the request that does has its error code already, and the packet is turned down. -/
def Packet.Spares (p : Packet) (s : Server) : Prop :=
  match dsiFindRequest s.commandRequests p.head.requestid with
  | none =>
    p.size ≤ s.bufsize ∧ p.head.command ≠ dsiCommand ∧ p.head.command ≠ dsiWrite ∧
      p.Manageable s.attentionQuantum s.volumes
  | some r =>
    r.returnCode = int32 p.head.errorCode ∧
      if r.isRead then
        p.payload ≠ [] ∧ ∃ rx, r.other = some rx ∧
          (rx.maxsize = 0 ∨ rx.size = rx.maxsize ∨ rx.size = p.payload.length)
      else p.size ≤ s.bufsize ∧ p.head.command ∉ knownCommands

lemma sub32_eq_zero {a b} (ha : a < 2 ^ 32) (hb : b < 2 ^ 32) : sub32 a b = 0 ↔ b = a := by
  rw [sub32]
  split <;> omega

lemma RxBuffer.full_iff {rx : RxBuffer} {len} (hs : rx.size < 2 ^ 32) (hm : rx.maxsize < 2 ^ 32)
    (hl : len < 2 ^ 32) :
    rx.Full len ↔ rx.maxsize = 0 ∨ rx.size = rx.maxsize ∨ rx.size = len := by
  have hmin : newmax rx len = 0 ↔ sub32 rx.maxsize rx.size = 0 ∨ sub32 len rx.size = 0 := by
    rw [newmax]
    omega
  rw [RxBuffer.Full, hmin, sub32_eq_zero hm hs, sub32_eq_zero hl hs]

section
variable {s : Server} {p : Packet}
  (hh : s.header = p.head) (hnd : (s.commandRequests.map Request.addr).Nodup)
  (h32 : ∀ r ∈ s.commandRequests, ∀ rx, r.other = some rx → rx.size < 2 ^ 32 ∧ rx.maxsize < 2 ^ 32)
  (hflags : p.head.flags ≠ dsiReply)

include hh hnd hflags in
lemma keeps_empty_iff (sk : Sock) (hold : s.Holding p.bytes) (hzero : p.payload = []) :
    Keeps s.commandRequests (gotEnough s sk) ↔ p.Spares s := by
  have hlen : s.header.length = 0 := by
    rw [hh, p.head_length, hzero]
    rfl
  have hdr : s.dataRead = s.header.length + headerSize := hold.whole_dataRead
  have hd : s.dataRead = headerSize := by omega
  have hsize : p.size ≤ s.bufsize := by
    have := hold.le
    rwa [p.bytes_length] at this
  have hbody : ∀ o, readBody s sk o false = processPacket s sk o false := by
    intro o
    rw [readBody, if_pos ⟨hd, hlen⟩]
  have hgo : s.header.requestid = p.head.requestid := by rw [hh]
  rw [Packet.Spares]
  cases hf : dsiFindRequest s.commandRequests p.head.requestid with
  | none =>
    rw [gotEnough_none (by rw [hgo]; exact hf) (by rw [hh]; exact hflags), hbody,
      processPacket_unmatched hdr, manageable_whole hold, hh]
    exact ⟨fun h => ⟨hsize, h⟩, fun h => h.2⟩
  | some r =>
    rw [← hgo] at hf
    rw [← hh]
    by_cases hc : r.returnCode = int32 s.header.errorCode
    · simp only [hc, true_and]
      cases hread : r.isRead with
      | false =>
        rw [gotEnough_other_quiet hf hnd hread hc, hbody,
          processPacket_matched hdr hread hnd (dsiFindRequest_mem hf)]
        simp [hsize]
      | true =>
        simp only [if_true]
        refine ⟨fun h => ?_, fun h => absurd hzero h.1⟩
        exact absurd hlen (gotEnough_read_keeps hd hf hnd hread hc (fun h => absurd hlen h) h).1
    · simp only [hc, false_and, iff_false]
      exact gotEnough_code hd hf hc

include hh hnd h32 hflags in
lemma keepsQueue_body_iff {sk : Sock} {ps : List Nat} {rest cs}
    (hold : s.Holding (p.bytes.take headerSize)) (hp : s.polled = true) (hne : p.payload ≠ [])
    (hst : sk.stream = p.payload ++ rest) (hcs : sk.chunks = ps.map some ++ cs)
    (hpos : ∀ k ∈ ps, 0 < k) (hsum : ps.sum = p.payload.length) (hle : ∀ k ∈ ps, k ≤ s.bufsize) :
    keepsQueue s sk ps.length = true ↔ p.Spares s := by
  have hlen : s.header.length ≠ 0 := by
    rw [hh, p.head_length]
    exact fun h => hne (List.length_eq_zero_iff.mp h)
  have hd : s.dataRead = headerSize := hold.1.trans (p.length_take p.headerSize_le)
  have hlt : headerSize < p.size := by
    rw [hh, p.head_length] at hlen
    rw [Packet.size]
    omega
  have hdrop : sk.stream = p.bytes.drop headerSize ++ rest := by
    rw [hst, Packet.bytes, List.drop_left' p.header_length]
  have hgo : s.header.requestid = p.head.requestid := by rw [hh]
  obtain ⟨k, ps, rfl⟩ : ∃ k ps', ps = k :: ps' := by
    cases ps with
    | nil =>
      rw [hh, p.head_length] at hlen
      rw [List.sum_nil] at hsum
      omega
    | cons k ps => exact ⟨k, ps, rfl⟩
  have hcall : dsiRecv s sk = gotEnough s sk := by
    rw [dsiRecv, if_neg (by omega)]
  rw [Packet.Spares]
  cases hf : dsiFindRequest s.commandRequests p.head.requestid with
  | none =>
    refine keepsQueue_body (o := none) hold (Nat.le_refl _) hlt hp hdrop hcs hpos
      (by rw [hsum, Packet.size]) hle (fun s1 sk1 hq h1 => ?_) (fun s1 sk1 h1 hq ha hv => ?_)
    · exact gotEnough_none (by rw [hq, h1]; exact hf) (by rw [h1]; exact hflags)
    · rw [processPacket_unmatched h1.whole_dataRead, manageable_whole h1, h1.whole_header, ha, hv]
  | some r =>
    have hr := dsiFindRequest_mem hf
    have hf' : dsiFindRequest s.commandRequests s.header.requestid = some r := by
      rw [hgo]
      exact hf
    have hhc : int32 p.head.errorCode = int32 s.header.errorCode := by rw [hh]
    by_cases hc : r.returnCode = int32 p.head.errorCode
    · simp only [hc, true_and]
      cases hread : r.isRead with
      | false =>
        simp only [Bool.false_eq_true, if_false]
        refine keepsQueue_body (o := some r) hold (Nat.le_refl _) hlt hp hdrop hcs hpos
          (by rw [hsum, Packet.size]) hle (fun s1 sk1 hq h1 => ?_) (fun s1 sk1 h1 hq ha hv => ?_)
        · exact gotEnough_other_quiet (by rw [hq, h1]; exact hf) (by rw [hq]; exact hnd) hread
            (by rw [h1]; exact hc)
        · rw [processPacket_matched h1.whole_dataRead hread (by rw [hq]; exact hnd)
            (by rw [hq]; exact hr), h1.whole_header]
      | true =>
        have hfull : ∀ rx, r.other = some rx → (rx.Full s.header.length ↔
            rx.maxsize = 0 ∨ rx.size = rx.maxsize ∨ rx.size = p.payload.length) := by
          intro rx hrx
          rw [← p.head_length, ← hh]
          exact RxBuffer.full_iff (h32 r hr rx hrx).1 (h32 r hr rx hrx).2
            (Header.parse_length_lt _)
        simp only [if_true]
        refine ⟨fun h => ⟨hne, ?_⟩, fun h => ?_⟩
        · rw [List.length_cons, keepsQueue_succ hp, hcall] at h
          obtain ⟨-, rx, hrx, hfl⟩ := gotEnough_read_keeps hd hf' hnd hread (hc.trans hhc)
            (fun _ => ⟨k, _, hcs, hpos k (by simp), by rw [hst]; simp [hne]⟩) (keepsAfter_keeps h)
          exact ⟨rx, hrx, (hfull rx hrx).mp hfl⟩
        · obtain ⟨-, rx, hrx, hfl⟩ := h
          exact keepsQueue_full hd hf' hnd hread (hc.trans hhc) hlen hrx ((hfull rx hrx).mpr hfl) _ _
    · simp only [hc, false_and, iff_false, Bool.not_eq_true]
      rw [List.length_cons, keepsQueue_succ hp, hcall, ← Bool.not_eq_true]
      exact fun h => gotEnough_code hd hf' (by rw [← hhc]; exact hc) (keepsAfter_keeps h)

end

/-- Only replies complete requests, but for colliding ids: while a packet that is no reply arrives in any pieces, no call
touches a queued request or faults if and only if the packet spares the queue. -/
theorem only_replies_iff {s : Server} {sk : Sock} {p : Packet} {rest : Bytes} {hs ps : List Nat}
    {cs : List (Option Nat)} (hp : s.polled = true) (hd : s.dataRead = 0)
    (hbuf : headerSize ≤ s.bufsize) (hnd : (s.commandRequests.map Request.addr).Nodup)
    (h32 : ∀ r ∈ s.commandRequests, ∀ rx, r.other = some rx →
      rx.size < 2 ^ 32 ∧ rx.maxsize < 2 ^ 32)
    (hflags : p.head.flags ≠ dsiReply) (hst : sk.stream = p.bytes ++ rest)
    (hcs : sk.chunks = (hs ++ ps).map some ++ cs) (hpos : ∀ k ∈ hs ++ ps, 0 < k)
    (hhs : hs.sum = headerSize) (hps : ps.sum = p.payload.length) (hle : ∀ k ∈ ps, k ≤ s.bufsize) :
    keepsQueue s sk (hs ++ ps).length = true ↔ p.Spares s := by
  have hsize : 0 + headerSize ≤ p.size := by
    rw [Nat.zero_add]
    exact p.headerSize_le
  have hslen : headerSize ≤ sk.stream.length := p.le_stream hst hsize
  obtain ⟨s1, hold1, hb1, hs1, hrun⟩ := keepsQueue_header ps.length (Server.Holding.nil hd)
    (by decide) (fun k hk => hpos k (List.mem_append_left _ hk)) (by simpa using hhs)
    (show sk.chunks = hs.map some ++ (ps.map some ++ cs) by simpa using hcs) (by omega) hbuf hp
  have htake : sk.stream.take hs.sum = p.bytes.take headerSize := by
    rw [hhs, hst, List.take_append_of_le_length (p.bytes_length.symm ▸ p.headerSize_le)]
  have hdrop : sk.stream.drop hs.sum = p.payload ++ rest := by
    rw [hhs, hst, Packet.bytes, List.append_assoc, List.drop_left' p.header_length]
  rw [List.nil_append, htake] at hold1
  have hh1 : s1.header = p.head := hold1.header_take (Nat.le_refl _) p.headerSize_le
  have hq1 : s1.commandRequests = s.commandRequests := by rw [hs1]
  have hspares : p.Spares s1 ↔ p.Spares s := by
    rw [Packet.Spares, Packet.Spares, hb1, hs1]
    rfl
  rw [List.length_append, hrun, hdrop, ← hspares, ← hq1, hh1, p.head_length]
  rw [← hq1] at hnd h32
  split
  · rename_i hzero
    have hnil : p.payload = [] := List.length_eq_zero_iff.mp hzero
    obtain rfl : ps = [] := by
      cases ps with
      | nil => rfl
      | cons k ps =>
        have := sum_pos_of_cons fun x hx => hpos x (List.mem_append_right _ hx)
        omega
    have hwhole : s1.Holding p.bytes := by
      rwa [List.take_of_length_le (by rw [p.bytes_length, Packet.size]; omega)] at hold1
    rw [List.length_nil, keepsAfter_zero]
    exact keeps_empty_iff hh1 hnd hflags _ hwhole hnil
  · rename_i hne
    refine keepsQueue_body_iff hh1 hnd h32 hflags hold1 (by rw [hs1]; exact hp)
      (fun h => hne (by rw [h]; rfl)) rfl rfl (fun k hk => hpos k (List.mem_append_right _ hk)) hps ?_
    rw [hb1]
    exact hle

theorem only_replies_iff_tickle :
    keepsQueue (afpServerInit [⟨0, 7, 24, none, 5, false, 0, -1⟩] [])
        ⟨ticklePacket.bytes, [some 9, some 7], []⟩ 2 = true ↔
      ticklePacket.Spares (afpServerInit [⟨0, 7, 24, none, 5, false, 0, -1⟩] []) :=
  @only_replies_iff _ ⟨ticklePacket.bytes, [some 9, some 7], []⟩ ticklePacket [] [9, 7] [] [] rfl rfl
    (by rw [afpServerInit_bufsize]; decide) (by decide)
    (by
      intro r hr rx hrx
      rw [List.mem_singleton.mp hr] at hrx
      cases hrx)
    (by decide) (by simp) rfl (by decide) rfl rfl (by simp)

/-- A tickle with the id of a request that a caller waits for: the caller is told that its request has
succeeded. -/
theorem tickle_completes_request :
    ticklePacket.head.flags ≠ dsiReply ∧
      keepsQueue (afpServerInit [⟨0, 10, 24, none, 5, false, 0, -1⟩] [])
        ⟨ticklePacket.bytes, [some 16], []⟩ 1 = false ∧
      (recvLoop (afpServerInit [⟨0, 10, 24, none, 5, false, 0, -1⟩] [])
        ⟨ticklePacket.bytes, [some 16], []⟩ [id]).map (fun o => o.1.commandRequests) =
        .ok [⟨0, 10, 24, none, 0, true, 1, 0⟩] := by
  refine ⟨by decide, by decide +kernel, by decide +kernel⟩

end AfpfsNg.Dsi
