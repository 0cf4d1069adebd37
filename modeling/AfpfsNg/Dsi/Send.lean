import AfpfsNg.Dsi.Handlers

/-!
# Sending a request

Model of `dsi_send` (`lib/dsi.c`): queue the request, connect again if the connection is gone, write the message under
`send_mutex`, wait for the reply and take the request out of the queue.

How the steps end is a `Script`. When `dsi_send` connects again, `afp_server_reconnect` opens a session, logs in and opens
the volumes, which are calls of `dsi_send` for the same server: a script has scripts for these calls. A call that never gets
`send_mutex` or its reply is `blocked`; `removed` is the case that `afp_server_remove` frees the request.
-/

namespace AfpfsNg.Dsi
open AfpfsNg.Base

def ETIMEDOUT : Int := 110

/-- What `dsi_send` is called with; `size` is the length of the message. -/
structure Call where
  msg : Bytes
  wait : Int
  subcommand : Nat
  other : Option RxBuffer
  /-- a message starts with its header -/
  header_le : headerSize ≤ msg.length
  deriving DecidableEq, Repr

/-- What `write` returns: a count, or -1 with one of these values of `errno`. -/
inductive Written where
  | count (n : Nat)
  | epipe
  | ebadf
  | otherError
  deriving DecidableEq, Repr

inductive Ending where
  /-- `dsi_recv` gets the reply, with this return code -/
  | reply (code : Int)
  /-- nothing comes -/
  | timeout
  /-- the server is removed, and with it its requests -/
  | removed
  deriving DecidableEq, Repr

structure Steps where
  /-- `server_still_valid` and `server->fd!=0` -/
  valid : Bool
  /-- `malloc` returns a request -/
  allocated : Bool
  /-- `afp_server_connect` succeeds, should `afp_server_reconnect` be called -/
  connects : Bool
  written : Written
  ending : Ending
  deriving DecidableEq, Repr

/-- A call, how its steps end, and the calls that `afp_server_reconnect` makes once it is connected. -/
inductive Script where
  | mk (call : Call) (steps : Steps) (logins : List Script)

inductive Sent where
  | returned (rc : Int) (s : Server)
  | blocked
  | fault (f : Fault)
  deriving DecidableEq, Repr

/-- The message with its length in the header (`header->length=htonl(size-sizeof(struct dsi_header))`). -/
def withLength (msg : Bytes) : Bytes := patch msg 8 (beBytes 4 (msg.length - headerSize))

def Server.enqueue (s : Server) (c : Call) : Server :=
  { s with
    commandRequests := s.commandRequests ++
      [{ addr := freshAddr s.commandRequests, requestid := s.lastrequestid, subcommand := c.subcommand,
         other := c.other, wait := c.wait, doneWaiting := false, signals := 0, returnCode := 0 }]
    stats := { s.stats with requestsPending := s.stats.requestsPending + 1 } }

/-- What `afp_server_connect` does to a server whose address answers. -/
def Server.reconnected (s : Server) : Server :=
  { s with connectState := .connected, lastrequestid := 0, polled := true }

/-- A write took the bytes `bs`; the counter gets the whole size. -/
def Server.handed (s : Server) (bs : Bytes) (size : Nat) : Server :=
  { s with
    outgoing := s.outgoing ++ [bs]
    stats := { s.stats with txBytes := s.stats.txBytes + size } }

/-- `dsi_send` from the wait on; `a` is the address of the request. -/
def awaitReply (s : Server) (a : Nat) (wait : Int) : Ending → Sent
  | .removed => .fault .useAfterFree
  | .reply code =>
    if wait = 0 then .fault .useAfterFree
    else .returned code ((s.update a fun r => (r.answered code).completed).removeRequest a)
  | .timeout =>
    if wait < 0 then .blocked
    else if wait = 0 then .returned 0 (s.removeRequest a)
    else .returned ETIMEDOUT (s.removeRequest a)

/-- `dsi_send` from `pthread_mutex_lock(&server->send_mutex)` on. -/
def transmit (s : Server) (a : Nat) (c : Call) (written : Written) (ending : Ending) : Sent :=
  if s.sendMutexLocked then .blocked
  else
    match if s.connectState = .disconnected then .ebadf else written with
    | .epipe | .ebadf => .returned (-1) { s with connectState := .disconnected, sendMutexLocked := true }
    | .otherError => .returned (-1) (s.removeRequest a)
    | .count n =>
      awaitReply (s.handed ((withLength c.msg).take n) c.msg.length) a c.wait ending

def Steps.started (o : Steps) : Bool := o.valid && o.allocated

mutual

def dsiSend (s : Server) : Script → Sent
  | .mk c o logins =>
    if o.started then
      let a := freshAddr s.commandRequests
      let s := s.enqueue c
      if s.connectState = .disconnected ∧ o.connects then
        match dsiSends s.reconnected logins with
        | .returned _ s => transmit s a c o.written o.ending
        | .blocked => .blocked
        | .fault f => .fault f
      else transmit s a c o.written o.ending
    else .returned (-1) s

/-- The calls of `dsi_send` that `afp_server_reconnect` makes. -/
def dsiSends (s : Server) : List Script → Sent
  | [] => .returned 0 s
  | script :: scripts =>
    match dsiSend s script with
    | .returned _ s => dsiSends s scripts
    | .blocked => .blocked
    | .fault f => .fault f

end

/-- If the call returns, the queue, the counter of pending requests and `send_mutex` are as they were, and a result of 0
means that the whole message was written. -/
def CleansUp (s : Server) (c : Call) : Sent → Prop
  | .returned rc s' =>
    s'.commandRequests = s.commandRequests ∧
    s'.stats.requestsPending = s.stats.requestsPending ∧
    s'.sendMutexLocked = s.sendMutexLocked ∧
    (rc = 0 → ∃ before, s'.outgoing = s.outgoing ++ before ++ [withLength c.msg])
  | .blocked => True
  | .fault _ => False

inductive Fate where
  /-- it returns and has cleaned up the queue and the lock -/
  | tidy
  /-- it waits forever, or the next one that writes does: the lock is never released -/
  | stuck
  /-- it uses a request that was freed -/
  | faulty
  deriving DecidableEq, Repr

def fate (c : Call) : Written → Ending → Fate
  | .epipe, _ | .ebadf, _ => .stuck
  | .otherError, _ => .tidy
  | .count _, .removed => .faulty
  | .count _, .reply _ => if c.wait = 0 then .faulty else .tidy
  | .count _, .timeout => if c.wait < 0 then .stuck else .tidy

def loginsFate : List Script → Fate
  | [] => .tidy
  | .mk c o _ :: scripts =>
    if o.started then
      match fate c o.written o.ending with
      | .tidy => loginsFate scripts
      | f => f
    else loginsFate scripts

/-- A write and a wait after which the call has cleaned up. -/
def EndsClean (c : Call) : Written → Ending → Prop
  | .epipe, _ | .ebadf, _ => False
  | .otherError, _ => True
  | .count _, .removed => False
  | .count n, .reply code => c.wait ≠ 0 ∧ (code = 0 → c.msg.length ≤ n)
  | .count n, .timeout => c.wait = 0 → c.msg.length ≤ n

def Script.Clean (s : Server) : Script → Prop
  | .mk c o logins =>
    o.started → s.sendMutexLocked = false →
      match s.connectState with
      | .connected => EndsClean c o.written o.ending
      | .disconnected =>
        o.connects ∧ (loginsFate logins = .stuck ∨
          loginsFate logins = .tidy ∧ EndsClean c o.written o.ending)

/-- The server while a call that began with `s` has its request in the queue. -/
structure Pending (s t : Server) : Prop where
  queued : ∃ r : Request, r.addr = freshAddr s.commandRequests ∧ t.commandRequests = s.commandRequests ++ [r]
  counted : t.stats.requestsPending = s.stats.requestsPending + 1
  locked : t.sendMutexLocked = s.sendMutexLocked
  written : s.outgoing <+: t.outgoing

/-- The server after a call that began with `s` and left nothing behind. -/
structure Kept (s t : Server) : Prop where
  queue : t.commandRequests = s.commandRequests
  pending : t.stats.requestsPending = s.stats.requestsPending
  locked : t.sendMutexLocked = s.sendMutexLocked
  state : t.connectState = s.connectState
  written : s.outgoing <+: t.outgoing

lemma Kept.refl (s : Server) : Kept s s := ⟨rfl, rfl, rfl, rfl, List.prefix_rfl⟩

variable {s t : Server} {c : Call} {o : Steps}

lemma Kept.trans {u : Server} (h : Kept s t) (h' : Kept t u) : Kept s u where
  queue := h'.queue.trans h.queue
  pending := h'.pending.trans h.pending
  locked := h'.locked.trans h.locked
  state := h'.state.trans h.state
  written := h.written.trans h'.written

lemma pending_enqueue (s : Server) (c : Call) : Pending s (s.enqueue c) where
  queued := ⟨_, rfl, rfl⟩
  counted := rfl
  locked := rfl
  written := List.prefix_rfl

lemma Pending.reconnected (h : Pending s t) : Pending s t.reconnected :=
  ⟨h.queued, h.counted, h.locked, h.written⟩

lemma Pending.kept {u : Server} (h : Pending s t) (hk : Kept t u) : Pending s u where
  queued := by
    obtain ⟨r, hr, hq⟩ := h.queued
    exact ⟨r, hr, hk.queue.trans hq⟩
  counted := hk.pending.trans h.counted
  locked := hk.locked.trans h.locked
  written := h.written.trans hk.written

lemma Pending.update {f : Request → Request} (h : Pending s t) (hf : ∀ r, (f r).addr = r.addr) :
    Pending s (t.update (freshAddr s.commandRequests) f) where
  queued := by
    obtain ⟨r, hr, hq⟩ := h.queued
    refine ⟨f r, (hf r).trans hr, ?_⟩
    -- no other request has the address
    have hold : s.commandRequests.map (fun x => if x.addr = freshAddr s.commandRequests then f x else x) =
        s.commandRequests := by
      calc
        _ = s.commandRequests.map id :=
          List.map_congr_left fun x hx => if_neg (Nat.ne_of_lt (addr_lt_freshAddr hx))
        _ = s.commandRequests := List.map_id _
    show updateAt t.commandRequests _ f = _
    rw [hq, updateAt, List.map_append, hold, List.map_singleton, if_pos hr]
  counted := h.counted
  locked := h.locked
  written := h.written

lemma Pending.handed (h : Pending s t) (bs : Bytes) (size : Nat) :
    Pending s (t.handed bs size) where
  queued := h.queued
  counted := h.counted
  locked := h.locked
  written := h.written.trans (List.prefix_append ..)

lemma Pending.removeRequest (h : Pending s t) :
    (t.removeRequest (freshAddr s.commandRequests)).commandRequests = s.commandRequests ∧
    (t.removeRequest (freshAddr s.commandRequests)).stats.requestsPending = s.stats.requestsPending ∧
    (t.removeRequest (freshAddr s.commandRequests)).sendMutexLocked = s.sendMutexLocked ∧
    (t.removeRequest (freshAddr s.commandRequests)).connectState = t.connectState ∧
    (t.removeRequest (freshAddr s.commandRequests)).outgoing = t.outgoing := by
  obtain ⟨r, hr, hq⟩ := h.queued
  have hany : (t.commandRequests.any fun x => x.addr == freshAddr s.commandRequests) = true := by
    rw [hq, List.any_append, Bool.or_eq_true]
    exact .inr (by simp [hr])
  rw [Server.removeRequest, if_pos hany]
  refine ⟨?_, ?_, h.locked, rfl, rfl⟩
  · show dsiRemoveFromRequestQueue t.commandRequests _ = _
    rw [hq]
    exact remove_fresh hr
  · show t.stats.requestsPending - 1 = _
    rw [h.counted, Nat.add_sub_cancel]

lemma Pending.kept_removeRequest (h : Pending s t) (hstate : t.connectState = s.connectState) :
    Kept s (t.removeRequest (freshAddr s.commandRequests)) := by
  obtain ⟨hqueue, hpending, hlocked, hst, hout⟩ := h.removeRequest
  exact ⟨hqueue, hpending, hlocked, hst.trans hstate, hout ▸ h.written⟩

lemma Pending.cleansUp_removeRequest {rc : Int} (h : Pending s t) :
    CleansUp s c (.returned rc (t.removeRequest (freshAddr s.commandRequests))) ↔
      (rc = 0 → ∃ before, t.outgoing = s.outgoing ++ before ++ [withLength c.msg]) := by
  obtain ⟨hqueue, hpending, hlocked, -, hout⟩ := h.removeRequest
  rw [CleansUp, hout]
  exact ⟨fun hc => hc.2.2.2, fun hc => ⟨hqueue, hpending, hlocked, hc⟩⟩

lemma length_withLength (c : Call) : (withLength c.msg).length = c.msg.length := by
  have hsize := c.header_le
  apply patch_length
  rw [length_beBytes]
  exact Nat.le_trans (by decide) hsize

lemma handed_iff {n : Nat} (h : s.outgoing <+: t.outgoing) :
    (∃ before, t.outgoing ++ [(withLength c.msg).take n] = s.outgoing ++ before ++ [withLength c.msg]) ↔
      c.msg.length ≤ n := by
  constructor
  · rintro ⟨before, heq⟩
    have hlast : [(withLength c.msg).take n] = [withLength c.msg] := (List.append_inj' heq rfl).2
    have hlen := congrArg List.length (List.singleton_inj.mp hlast)
    rw [List.length_take, length_withLength] at hlen
    omega
  · intro hn
    obtain ⟨before, hbefore⟩ := h
    refine ⟨before, ?_⟩
    rw [List.take_of_length_le (by rwa [length_withLength]), hbefore]

section Transmit
variable {s t : Server} {c : Call}

lemma cleansUp_awaitReply (h : Pending s t) (n : Nat) (e : Ending) :
    CleansUp s c (awaitReply (t.handed ((withLength c.msg).take n) c.msg.length)
      (freshAddr s.commandRequests) c.wait e) ↔ EndsClean c (.count n) e := by
  have hout := h.handed ((withLength c.msg).take n) c.msg.length
  cases e with
  | removed => exact Iff.rfl
  | reply code =>
    by_cases hwait : c.wait = 0
    · simp only [awaitReply, EndsClean, if_pos hwait]
      exact iff_of_false id fun he => he.1 hwait
    · simp only [awaitReply, EndsClean, if_neg hwait]
      have hupd := hout.update (f := fun r => (r.answered code).completed) fun _ => rfl
      apply hupd.cleansUp_removeRequest.trans
      exact ⟨fun hc => ⟨hwait, fun h0 => (handed_iff h.written).mp (hc h0)⟩,
        fun hc h0 => (handed_iff h.written).mpr (hc.2 h0)⟩
  | timeout =>
    simp only [awaitReply, EndsClean]
    rcases Int.lt_trichotomy c.wait 0 with hneg | hzero | hpos
    · rw [if_pos hneg]
      exact iff_of_true trivial fun h0 => absurd h0 (Int.ne_of_lt hneg)
    · rw [if_neg (hzero ▸ Int.lt_irrefl 0), if_pos hzero]
      apply hout.cleansUp_removeRequest.trans
      exact ⟨fun hc _ => (handed_iff h.written).mp (hc rfl), fun hc _ => (handed_iff h.written).mpr (hc hzero)⟩
    · rw [if_neg (Int.not_lt.mpr (Int.le_of_lt hpos)), if_neg (Int.ne_of_gt hpos)]
      exact iff_of_true (hout.cleansUp_removeRequest.mpr nofun) fun h0 => absurd h0 (Int.ne_of_gt hpos)

lemma not_cleansUp_locked {u : Server} {rc : Int} (hfree : s.sendMutexLocked = false)
    (hu : u.sendMutexLocked = true) : ¬ CleansUp s c (.returned rc u) := by
  intro hc
  have hu' : u.sendMutexLocked = false := hc.2.2.1.trans hfree
  exact Bool.false_ne_true (hu'.symm.trans hu)

lemma cleansUp_transmit (h : Pending s t) (hfree : s.sendMutexLocked = false)
    (hup : t.connectState = .connected) (w : Written) (e : Ending) :
    CleansUp s c (transmit t (freshAddr s.commandRequests) c w e) ↔ EndsClean c w e := by
  have hlock : ¬ t.sendMutexLocked = true := by
    rw [h.locked, hfree]
    exact Bool.false_ne_true
  have hstate : ¬ t.connectState = .disconnected := by
    rw [hup]
    exact nofun
  rw [transmit, if_neg hlock, if_neg hstate]
  cases w with
  | epipe => exact iff_of_false (not_cleansUp_locked hfree rfl) id
  | ebadf => exact iff_of_false (not_cleansUp_locked hfree rfl) id
  | otherError => exact iff_of_true (h.cleansUp_removeRequest.mpr nofun) trivial
  | count n => exact cleansUp_awaitReply h n e

def Fate.Holds (s : Server) : Fate → Sent → Prop
  | .tidy, .returned _ t => Kept s t
  | .stuck, .returned _ t => t.sendMutexLocked = true
  | .stuck, .blocked => True
  | .faulty, .fault _ => True
  | _, _ => False

lemma Fate.Holds.kept {f : Fate} {r : Sent} (hk : Kept s t) (h : f.Holds t r) : f.Holds s r := by
  cases f with
  | tidy =>
    cases r with
    | returned => exact hk.trans h
    | blocked => exact h
    | fault => exact h
  | stuck => cases r <;> exact h
  | faulty => cases r <;> exact h

lemma fate_transmit (h : Pending s t) (hfree : s.sendMutexLocked = false)
    (hup : t.connectState = .connected) (hsame : t.connectState = s.connectState) (w : Written) (e : Ending) :
    (fate c w e).Holds s (transmit t (freshAddr s.commandRequests) c w e) := by
  have hlock : ¬ t.sendMutexLocked = true := by
    rw [h.locked, hfree]
    exact Bool.false_ne_true
  have hstate : ¬ t.connectState = .disconnected := by
    rw [hup]
    exact nofun
  rw [transmit, if_neg hlock, if_neg hstate]
  cases w with
  | epipe => exact rfl
  | ebadf => exact rfl
  | otherError => exact h.kept_removeRequest hsame
  | count n =>
    have hout := h.handed ((withLength c.msg).take n) c.msg.length
    cases e with
    | removed => exact trivial
    | reply code =>
      simp only [fate, awaitReply]
      split
      · exact trivial
      · have hupd := hout.update (f := fun r => (r.answered code).completed) fun _ => rfl
        exact hupd.kept_removeRequest hsame
    | timeout =>
      simp only [fate, awaitReply]
      split
      · exact trivial
      · split
        · exact hout.kept_removeRequest hsame
        · exact hout.kept_removeRequest hsame

end Transmit

lemma transmit_locked (h : s.sendMutexLocked = true) (a : Nat) (c : Call) (w : Written) (e : Ending) :
    transmit s a c w e = .blocked :=
  if_pos h

mutual

lemma dsiSend_locked {s : Server} (h : s.sendMutexLocked = true) :
    ∀ script : Script, dsiSend s script = .returned (-1) s ∨ dsiSend s script = .blocked
  | .mk c o logins => by
    simp only [dsiSend]
    split
    · right
      split
      · rcases dsiSends_locked (s := (s.enqueue c).reconnected) h logins with ⟨rc, hr⟩ | hr
        · simp only [hr]
          exact transmit_locked (s := (s.enqueue c).reconnected) h ..
        · rw [hr]
      · exact transmit_locked (s := s.enqueue c) h ..
    · exact .inl rfl

lemma dsiSends_locked {s : Server} (h : s.sendMutexLocked = true) :
    ∀ scripts : List Script, (∃ rc, dsiSends s scripts = .returned rc s) ∨ dsiSends s scripts = .blocked
  | [] => .inl ⟨0, dsiSends.eq_1 s⟩
  | script :: scripts => by
    rw [dsiSends]
    rcases dsiSend_locked h script with hr | hr
    · rw [hr]
      exact dsiSends_locked h scripts
    · rw [hr]
      exact .inr rfl

end

lemma dsiSend_connected {logins : List Script} (hstarted : o.started = true) (hup : s.connectState = .connected) :
    dsiSend s (.mk c o logins) =
      transmit (s.enqueue c) (freshAddr s.commandRequests) c o.written o.ending := by
  have hstay : ¬ ((s.enqueue c).connectState = .disconnected ∧ o.connects = true) := by
    rintro ⟨hdown, -⟩
    exact absurd (hup.symm.trans hdown) nofun
  rw [dsiSend, if_pos hstarted]
  exact if_neg hstay

def WriteResult.written (size : Nat) : WriteResult → Written
  | .okay => .count size
  | .epipe => .epipe
  | .ebadf => .ebadf
  | .otherError => .otherError

/-- `dsiSendNoWait` is what a call comes to that nobody waits for. -/
lemma dsiSend_noWait {sk : Sock} (hstarted : o.started = true) (hfree : s.sendMutexLocked = false)
    (hup : s.connectState = .connected) (hwait : c.wait = 0) (hother : c.other = none)
    (hmsg : withLength c.msg = c.msg) (hwritten : o.written = sk.write.1.written c.msg.length)
    (hend : o.ending = .timeout) :
    ∃ rc, dsiSend s (.mk c o []) = .returned rc (dsiSendNoWait s sk c.msg c.subcommand).1 := by
  have hlock : ¬ (s.enqueue c).sendMutexLocked = true := hfree ▸ Bool.false_ne_true
  have hstate : ¬ (s.enqueue c).connectState = .disconnected := by
    rw [show (s.enqueue c).connectState = .connected from hup]
    exact nofun
  rw [dsiSend_connected hstarted hup, transmit, if_neg hlock, if_neg hstate, hwritten, hend]
  simp only [dsiSendNoWait, Server.enqueue, hother, hwait]
  rcases sk.write with ⟨w, sk'⟩
  cases w with
  | okay =>
    refine ⟨0, ?_⟩
    have hall : (withLength c.msg).take c.msg.length = c.msg := by rw [hmsg, List.take_length]
    simp only [WriteResult.written, hall]
    rfl
  | epipe => exact ⟨-1, rfl⟩
  | ebadf => exact ⟨-1, rfl⟩
  | otherError => exact ⟨-1, rfl⟩

lemma loginsFate_holds (hfree : s.sendMutexLocked = false) (hup : s.connectState = .connected) (scripts : List Script) :
    (loginsFate scripts).Holds s (dsiSends s scripts) := by
  induction scripts generalizing s with
  | nil =>
    rw [dsiSends]
    exact Kept.refl s
  | cons script scripts ih =>
    obtain ⟨c, o, logins⟩ := script
    rw [dsiSends, loginsFate]
    split
    case isTrue hstarted =>
      have hfate := fate_transmit (c := c) (pending_enqueue s c) hfree hup rfl o.written o.ending
      rw [dsiSend_connected hstarted hup]
      revert hfate
      generalize transmit (s.enqueue c) _ c o.written o.ending = r
      intro hfate
      cases hf : fate c o.written o.ending with
      | tidy =>
        rw [hf] at hfate
        cases r with
        | returned rc t =>
          exact (ih (hfate.locked.trans hfree) (hfate.state.trans hup)).kept hfate
        | blocked => exact hfate.elim
        | fault => exact hfate.elim
      | stuck =>
        rw [hf] at hfate
        cases r with
        | returned rc t =>
          rcases dsiSends_locked hfate scripts with ⟨rc, hr⟩ | hr
          · simp only [hr]
            exact hfate
          · simp only [hr]
            exact trivial
        | blocked => exact hfate
        | fault => exact hfate
      | faulty =>
        rw [hf] at hfate
        cases r with
        | returned => exact hfate.elim
        | blocked => exact hfate
        | fault => exact hfate
    case isFalse hnot =>
      rw [dsiSend, if_neg hnot]
      exact ih hfree hup

lemma cleansUp_disconnected {logins : List Script} (hstarted : o.started = true) (hfree : s.sendMutexLocked = false)
    (hdown : s.connectState = .disconnected) :
    CleansUp s c (dsiSend s (.mk c o logins)) ↔
      o.connects = true ∧ (loginsFate logins = .stuck ∨
        loginsFate logins = .tidy ∧ EndsClean c o.written o.ending) := by
  rw [dsiSend, if_pos hstarted]
  by_cases hconnects : o.connects = true
  case neg =>
    have hstay : ¬ ((s.enqueue c).connectState = .disconnected ∧ o.connects = true) := fun h => hconnects h.2
    refine iff_of_false ?_ fun h => hconnects h.1
    simp only [if_neg hstay]
    have hlock : ¬ (s.enqueue c).sendMutexLocked = true := hfree ▸ Bool.false_ne_true
    have hgone : (s.enqueue c).connectState = .disconnected := hdown
    rw [transmit, if_neg hlock, if_pos hgone]
    exact not_cleansUp_locked hfree rfl
  case pos =>
    have hagain : (s.enqueue c).connectState = .disconnected ∧ o.connects = true := ⟨hdown, hconnects⟩
    have hpending := (pending_enqueue s c).reconnected
    have hfate := loginsFate_holds (s := (s.enqueue c).reconnected) hfree rfl logins
    rw [and_iff_right hconnects]
    simp only [if_pos hagain]
    revert hfate
    generalize dsiSends (s.enqueue c).reconnected logins = r
    intro hfate
    cases hf : loginsFate logins with
    | tidy =>
      rw [hf] at hfate
      cases r with
      | returned rc t =>
        apply (cleansUp_transmit (hpending.kept hfate) hfree hfate.state _ _).trans
        exact ⟨fun he => .inr ⟨rfl, he⟩, fun he => he.elim nofun And.right⟩
      | blocked => exact hfate.elim
      | fault => exact hfate.elim
    | stuck =>
      rw [hf] at hfate
      refine iff_of_true ?_ (.inl rfl)
      cases r with
      | returned rc t =>
        simp only [transmit_locked hfate]
        exact trivial
      | blocked => exact trivial
      | fault => exact hfate.elim
    | faulty =>
      rw [hf] at hfate
      refine iff_of_false ?_ fun he => he.elim nofun fun he => nomatch he.1
      cases r with
      | returned => exact hfate.elim
      | blocked => exact hfate.elim
      | fault => exact id

/-- `dsi_send` leaves nothing behind, and returns 0 only if the whole message was written, exactly if the script is clean: a
connection found broken by `write`, one that cannot be made again, a short count, and a request freed too early break it. -/
theorem dsiSend_cleans_up_iff (s : Server) (c : Call) (o : Steps) (logins : List Script) :
    CleansUp s c (dsiSend s (.mk c o logins)) ↔ (Script.mk c o logins).Clean s := by
  rw [Script.Clean]
  by_cases hstarted : o.started = true
  case neg =>
    rw [dsiSend, if_neg hstarted]
    exact iff_of_true ⟨rfl, rfl, rfl, nofun⟩ fun h => absurd h hstarted
  case pos =>
    cases hlock : s.sendMutexLocked with
    | true =>
      refine iff_of_true ?_ fun _ h => nomatch h
      rcases dsiSend_locked hlock (.mk c o logins) with hr | hr
      · rw [hr]
        exact ⟨rfl, rfl, rfl, nofun⟩
      · rw [hr]
        exact trivial
    | false =>
      rw [imp_iff_right hstarted, imp_iff_right rfl]
      cases hstate : s.connectState with
      | connected => rw [dsiSend_connected hstarted hstate, cleansUp_transmit (pending_enqueue s c) hlock hstate]
      | disconnected => exact cleansUp_disconnected hstarted hlock hstate

def statusCall : Call where
  msg := bareMessage dsiGetStatus 1
  wait := 1
  subcommand := 0
  other := none
  header_le := by decide

/-- The peer has closed the connection: the request stays queued and counted, and the lock stays taken. A
write that takes one byte of the 16 is reported as a success. -/
theorem dsiSend_leaves_request :
    (∃ s', dsiSend (afpServerInit [] []) (.mk statusCall ⟨true, true, true, .epipe, .timeout⟩ []) =
        .returned (-1) s' ∧
      s'.commandRequests.length = 1 ∧ s'.stats.requestsPending = 1 ∧ s'.sendMutexLocked = true) ∧
    ∃ s', dsiSend (afpServerInit [] []) (.mk statusCall ⟨true, true, true, .count 1, .reply 0⟩ []) =
        .returned 0 s' ∧ s'.outgoing = [[0]] := by
  constructor
  · refine ⟨{ (afpServerInit [] []).enqueue statusCall with
      connectState := .disconnected, sendMutexLocked := true }, ?_, rfl, rfl, rfl⟩
    rw [dsiSend]
    rfl
  · refine ⟨((((afpServerInit [] []).enqueue statusCall).handed [0] 16).update 0
      fun r => (r.answered 0).completed).removeRequest 0, ?_, rfl⟩
    rw [dsiSend]
    rfl

end AfpfsNg.Dsi
