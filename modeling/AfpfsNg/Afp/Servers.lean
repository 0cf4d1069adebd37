import AfpfsNg.Base.Bytes
import AfpfsNg.Base.Links
import AfpfsNg.Base.Runs

/-!
# The list of servers

The global list of `lib/afp.c`: `server_base` and the `next` pointers of the servers, with the functions that
change it (`add_server` in `afp_server_connect`, and `afp_server_remove`) and those that search it
(`server_still_valid`, `find_server_by_name`, and `process_server_fds` of `lib/loop.c`). The loops over
the list take a bound on their rounds; `none` is a loop that has not ended by then. How `socket`, `connect` and
`DSIGetStatus` end is part of an action.
-/

namespace AfpfsNg.Afp.Servers
open AfpfsNg.Base

structure ServerRecord where
  fd : Int
  /-- `connect_state==SERVER_STATE_CONNECTED` -/
  connected : Bool
  needResume : Bool
  lastrequestid : Nat
  serverName : Bytes
  serverNameUtf8 : Bytes
  deriving DecidableEq, Repr

/-- The list, the servers by their addresses, and the descriptors that the main loop waits for. -/
structure Registry where
  serverBase : Option Nat
  next : Nat → Option Nat
  server : Nat → ServerRecord
  rds : Int → Bool

/-- How one address of a server does: what `socket` returns, and whether `connect` succeeds. -/
structure Attempt where
  socket : Int
  connects : Bool
  deriving DecidableEq, Repr

/-- The addresses of a server, and what `errno` is when none of them answers. -/
structure Attempts where
  first : Attempt
  more : List Attempt
  errno : Int
  errno_pos : 0 < errno

def Attempts.connected (t : Attempts) : Bool := (t.first :: t.more).any fun a => 0 ≤ a.socket && a.connects

def serverStillValid (r : Registry) (fuel s : Nat) : Option Bool :=
  (search r.next (fun s' => s' == s) fuel r.serverBase).map Option.isSome

def findServerByName (r : Registry) (fuel : Nat) (name : Bytes) : Option (Option Nat) :=
  search r.next (fun s => (r.server s).serverNameUtf8 == name || (r.server s).serverName == name) fuel r.serverBase

def loopDisconnect (r : Registry) (s : Nat) : Registry :=
  if (r.server s).connected then
    { r with
      rds := Function.update r.rds (r.server s).fd false
      server := Function.update r.server s { r.server s with connected := false, needResume := true } }
  else r

/-- The server that C `process_server_fds` finds data for in `set`. -/
def readyServer (r : Registry) (fuel : Nat) (set : Int → Bool) : Option (Option Nat) :=
  search r.next (fun s => set (r.server s).fd) fuel r.serverBase

/-- C `process_server_fds`; `recv` is what `dsi_recv` returns. -/
def processServerFds (r : Registry) (fuel : Nat) (set : Int → Bool) (recv : Nat → Int) :
    Option (Int × Registry) :=
  (readyServer r fuel set).map fun
    | none => (0, r)
    | some s => if recv s = -1 then (-1, loopDisconnect r s) else (1, r)

def addServer (r : Registry) (newserver : Nat) : Registry :=
  { r with next := Function.update r.next newserver r.serverBase, serverBase := some newserver }

def afpServerInit (r : Registry) (s : Nat) : Registry :=
  { r with
    next := Function.update r.next s none
    server := Function.update r.server s ⟨0, false, false, 0, [], []⟩ }

/-- The descriptor that the loop over the addresses leaves. -/
def tryAddresses : List Attempt → Int → Int
  | [], fd => fd
  | a :: more, _ =>
    if 0 ≤ a.socket then
      if a.connects then a.socket else tryAddresses more (-1)
    else tryAddresses more a.socket

/-- C `afp_server_connect`; `status` is what `dsi_getstatus` returns, if it is asked for. -/
def afpServerConnect (r : Registry) (s : Nat) (t : Attempts) (status : Option Int) : Int × Registry :=
  let fd := tryAddresses (t.first :: t.more) (r.server s).fd
  if fd < 0 then (-t.errno, { r with server := Function.update r.server s { r.server s with fd } })
  else
    let r := { r with server := Function.update r.server s { r.server s with fd, lastrequestid := 0, connected := true } }
    let r := addServer r s
    let r := { r with rds := Function.update r.rds fd true }
    match status with
    | none => (0, r)
    | some error => (-error, r)

/-- C `afp_server_reconnect`; `login` is what `afp_server_login` returns. -/
def afpServerReconnect (r : Registry) (s : Nat) (t : Attempts) (login : Int) : Int × Registry :=
  let (ret, r) := afpServerConnect r s t none
  if ret ≠ 0 then (1, r)
  else if login ≠ 0 then (1, r)
  else (0, r)

/-- C `afp_server_remove`; the waiting requests of the server are left out. -/
def afpServerRemove (r : Registry) (fuel : Nat) (s : Option Nat) : Option (Int × Registry) :=
  match s with
  | none => some (0, r)
  | some s =>
    if r.serverBase = some s then some (0, loopDisconnect { r with serverBase := r.next s } s)
    else do
      match ← search r.next (fun s2 => r.next s2 == some s) fuel r.serverBase with
      | some s2 => return (0, loopDisconnect { r with next := Function.update r.next s2 (r.next s) } s)
      | none => return (-1, r)

/-- The list, and the servers that have been connected and not removed since. -/
structure World where
  reg : Registry
  live : List Nat

inductive Action where
  /-- `afp_server_init` and the first `afp_server_connect` -/
  | connect (s : Nat) (t : Attempts) (status : Option Int)
  /-- the names of a server become known -/
  | identify (s : Nat) (serverName serverNameUtf8 : Bytes)
  /-- `loop_disconnect` -/
  | disconnect (s : Nat)
  /-- `afp_server_reconnect` -/
  | reconnect (s : Nat) (t : Attempts) (login : Int)
  /-- `afp_server_remove` -/
  | remove (s : Option Nat)

/-- One action. A new server has an address of its own. -/
def perform (w : World) (fuel : Nat) : Action → Option World
  | .connect s t status =>
    if s ∈ w.live then none
    else some ⟨(afpServerConnect (afpServerInit w.reg s) s t status).2, if t.connected then s :: w.live else w.live⟩
  | .identify s serverName serverNameUtf8 =>
    if s ∈ w.live then
      some { w with reg.server := Function.update w.reg.server s { w.reg.server s with serverName, serverNameUtf8 } }
    else none
  | .disconnect s => if s ∈ w.live then some { w with reg := loopDisconnect w.reg s } else none
  | .reconnect s t login =>
    if s ∈ w.live then some { w with reg := (afpServerReconnect w.reg s t login).2 } else none
  | .remove s =>
    (afpServerRemove w.reg fuel s).map fun r =>
      ⟨r.2, if r.1 = 0 then w.live.filter (fun s' => some s' ≠ s) else w.live⟩

def Step (w : World) (a : Action) (w' : World) : Prop := ∃ fuel, perform w fuel a = some w'

def Action.reconnects : Action → Bool
  | .reconnect _ t _ => t.connected
  | _ => false

/-- The list ends, it holds every server once and nothing else, and each search ends with the right answer. -/
structure Orderly (w : World) : Prop where
  list : ∃ xs, Chain w.reg.next w.reg.serverBase xs ∧ xs.Nodup ∧ ∀ s, s ∈ xs ↔ s ∈ w.live
  valid : ∀ s, ∃ fuel, serverStillValid w.reg fuel s = some (decide (s ∈ w.live))
  byName : ∀ name, ∃ fuel found, findServerByName w.reg fuel name = some found ∧
    (found = none ↔ ∀ s ∈ w.live, (w.reg.server s).serverNameUtf8 ≠ name ∧ (w.reg.server s).serverName ≠ name)
  polled : ∀ set, ∃ fuel found, readyServer w.reg fuel set = some found ∧
    (found = none ↔ ∀ s ∈ w.live, set (w.reg.server s).fd = false)

/-- The servers `xs` are the list, and they are the live ones. -/
def Listed (w : World) (xs : List Nat) : Prop :=
  Chain w.reg.next w.reg.serverBase xs ∧ ∀ s, s ∈ xs ↔ s ∈ w.live

@[simp] lemma loopDisconnect_next (r : Registry) (s : Nat) : (loopDisconnect r s).next = r.next := by
  rw [loopDisconnect]
  split <;> rfl

@[simp] lemma loopDisconnect_serverBase (r : Registry) (s : Nat) :
    (loopDisconnect r s).serverBase = r.serverBase := by
  rw [loopDisconnect]
  split <;> rfl

lemma tryAddresses_nonneg (a : Attempt) (more : List Attempt) (fd : Int) :
    0 ≤ tryAddresses (a :: more) fd ↔ (a :: more).any (fun a => 0 ≤ a.socket && a.connects) := by
  induction more generalizing a fd with
  | nil =>
    rw [tryAddresses]
    by_cases hs : 0 ≤ a.socket <;> by_cases hc : a.connects <;> simp [tryAddresses, hs, hc]
  | cons b more ih =>
    rw [tryAddresses, List.any_cons]
    by_cases hs : 0 ≤ a.socket
    · by_cases hc : a.connects
      · simp [hs, hc]
      · simpa [hs, hc] using ih b (-1)
    · simpa [hs] using ih b a.socket

lemma afpServerConnect_connected (r : Registry) (s : Nat) {t : Attempts} (status : Option Int)
    (hc : t.connected) :
    (afpServerConnect r s t status).2.next = Function.update r.next s r.serverBase ∧
      (afpServerConnect r s t status).2.serverBase = some s := by
  have hnot : ¬ tryAddresses (t.first :: t.more) (r.server s).fd < 0 :=
    Int.not_lt.mpr ((tryAddresses_nonneg ..).mpr hc)
  simp only [afpServerConnect, if_neg hnot]
  cases status with
  | none => exact ⟨rfl, rfl⟩
  | some error => exact ⟨rfl, rfl⟩

lemma afpServerConnect_failed (r : Registry) (s : Nat) {t : Attempts} (status : Option Int)
    (hc : ¬ t.connected) :
    (afpServerConnect r s t status).2.next = r.next ∧
      (afpServerConnect r s t status).2.serverBase = r.serverBase := by
  have hneg : tryAddresses (t.first :: t.more) (r.server s).fd < 0 :=
    Int.not_le.mp fun h => hc ((tryAddresses_nonneg ..).mp h)
  simp only [afpServerConnect, if_pos hneg, and_self]

lemma afpServerReconnect_eq (r : Registry) (s : Nat) (t : Attempts) (login : Int) :
    (afpServerReconnect r s t login).2 = (afpServerConnect r s t none).2 := by
  simp only [afpServerReconnect]
  split
  · rfl
  · split <;> rfl

lemma afpServerRemove_chain {reg r : Registry} {xs : List Nat} (h : Chain reg.next reg.serverBase xs)
    {fuel s : Nat} {ret : Int} (hrun : afpServerRemove reg fuel (some s) = some (ret, r)) :
    (∃ ys, Chain r.next r.serverBase ys ∧ ∀ a, a ∈ ys ↔ a ∈ xs ∧ a ≠ s) ∧ (ret = 0 ∨ s ∉ xs) := by
  have hnd := h.nodup
  rw [afpServerRemove] at hrun
  split at hrun
  · rename_i hbase
    cases hrun
    rw [hbase] at h
    cases h with
    | @cons _ ys _ h =>
      refine ⟨⟨ys, ?_, by grind⟩, .inl rfl⟩
      rw [loopDisconnect_next, loopDisconnect_serverBase]
      exact h
  · rename_i hbase
    obtain ⟨found, hfound, hrun⟩ := Option.bind_eq_some_iff.mp hrun
    have hfind := h.search_eq hfound
    cases found with
    | some s2 =>
      cases hrun
      have hs2 := List.find?_some hfind.symm
      obtain ⟨pre, post, rfl⟩ := h.next_eq (List.mem_of_find?_eq_some hfind.symm) (beq_iff_eq.mp hs2)
      refine ⟨⟨pre ++ s2 :: post, ?_, by grind⟩, .inl rfl⟩
      rw [loopDisconnect_next, loopDisconnect_serverBase]
      exact h.unlink
    | none =>
      cases hrun
      have hnot : s ∉ xs := by
        intro hs
        cases hlist : xs with
        | nil => rw [hlist] at hs; cases hs
        | cons x ys =>
          rw [hlist] at h hs
          have hx : s ≠ x := by
            rintro rfl
            exact hbase h.head_eq
          obtain ⟨l, hl, hnext⟩ := h.exists_prev ((List.mem_cons.mp hs).resolve_left hx)
          rw [← hlist] at hl
          have hno := List.find?_eq_none.mp hfind.symm l hl
          exact hno (beq_iff_eq.mpr hnext)
      exact ⟨⟨xs, h, by grind⟩, .inr hnot⟩

section Action
variable {w w' : World} {xs : List Nat} {a : Action}

lemma Listed.connect {s fuel : Nat} {t : Attempts} {status : Option Int} (h : Listed w xs)
    (hstep : perform w fuel (.connect s t status) = some w') : ∃ ys, Listed w' ys := by
  rw [perform] at hstep
  split at hstep
  · cases hstep
  · rename_i hnew
    cases hstep
    have hs : s ∉ xs := fun hmem => hnew ((h.2 s).mp hmem)
    by_cases hc : t.connected
    · obtain ⟨hnext, hbase⟩ := afpServerConnect_connected (afpServerInit w.reg s) s status hc
      refine ⟨s :: xs, ?_, fun a => ?_⟩
      · rw [hnext, hbase]
        exact Chain.push (Segment.update h.1 hs) hs
      · rw [if_pos hc, List.mem_cons, List.mem_cons, h.2]
    · obtain ⟨hnext, hbase⟩ := afpServerConnect_failed (afpServerInit w.reg s) s status hc
      refine ⟨xs, ?_, fun a => ?_⟩
      · rw [hnext, hbase]
        exact Segment.update h.1 hs
      · rw [if_neg hc, h.2]

lemma Listed.remove {s : Option Nat} {fuel : Nat} (h : Listed w xs)
    (hstep : perform w fuel (.remove s) = some w') : ∃ ys, Listed w' ys := by
  obtain ⟨⟨ret, reg⟩, hrun, rfl⟩ := Option.map_eq_some_iff.mp hstep
  cases s with
  | none =>
    cases hrun
    refine ⟨xs, h.1, fun a => ?_⟩
    rw [if_pos rfl, List.mem_filter, h.2]
    simp
  | some s =>
    obtain ⟨⟨ys, hchain, hys⟩, hret⟩ := afpServerRemove_chain h.1 hrun
    refine ⟨ys, hchain, fun a => ?_⟩
    rw [hys, h.2]
    by_cases hzero : ret = 0
    · simp [hzero, List.mem_filter]
    · have hs : s ∉ w.live := fun hmem => (hret.resolve_left hzero) ((h.2 s).mpr hmem)
      rw [if_neg hzero]
      constructor
      · exact And.left
      · intro ha
        exact ⟨ha, fun heq => hs (heq ▸ ha)⟩

lemma Listed.step (h : Listed w xs) (hstep : Step w a w') (ha : a.reconnects = false) : ∃ ys, Listed w' ys := by
  obtain ⟨fuel, hstep⟩ := hstep
  cases a with
  | connect s t status => exact h.connect hstep
  | identify s serverName serverNameUtf8 =>
    rw [perform] at hstep
    split at hstep
    · cases hstep
      exact ⟨xs, h⟩
    · cases hstep
  | disconnect s =>
    rw [perform] at hstep
    split at hstep
    · cases hstep
      refine ⟨xs, ?_, h.2⟩
      rw [loopDisconnect_next, loopDisconnect_serverBase]
      exact h.1
    · cases hstep
  | reconnect s t login =>
    rw [perform] at hstep
    split at hstep
    · cases hstep
      have hc : ¬ t.connected := Bool.eq_false_iff.mp ha
      obtain ⟨hnext, hbase⟩ := afpServerConnect_failed w.reg s none hc
      refine ⟨xs, ?_, h.2⟩
      rw [afpServerReconnect_eq, hnext, hbase]
      exact h.1
    · cases hstep
  | remove s => exact h.remove hstep

lemma Listed.reconnect (h : Listed w xs) (hstep : Step w a w') (ha : a.reconnects) : ∀ ys, ¬ Listed w' ys := by
  intro ys hys
  obtain ⟨fuel, hstep⟩ := hstep
  cases a with
  | reconnect s t login =>
    rw [perform] at hstep
    split at hstep
    · rename_i hlive
      cases hstep
      obtain ⟨hnext, hbase⟩ := afpServerConnect_connected w.reg s none ha
      have hchain := hys.1
      rw [afpServerReconnect_eq, hnext, hbase] at hchain
      exact h.1.push_mem ((h.2 s).mpr hlive) hchain
    · cases hstep
  | connect | identify | disconnect | remove => cases ha

lemma Listed.orderly (h : Listed w xs) : Orderly w where
  list := ⟨xs, h.1, h.1.nodup, h.2⟩
  valid s := by
    refine ⟨xs.length + 1, ?_⟩
    rw [serverStillValid, h.1.search_find (Nat.lt_succ_self _), Option.map_some, Option.some_inj,
      Bool.eq_iff_iff, List.find?_isSome, decide_eq_true_eq, ← h.2]
    simp only [beq_iff_eq, exists_eq_right]
  byName name := by
    refine ⟨xs.length + 1, _, h.1.search_find (Nat.lt_succ_self _), ?_⟩
    rw [List.find?_eq_none]
    simp only [h.2, Bool.or_eq_true, beq_iff_eq, not_or, ne_eq]
  polled set := by
    refine ⟨xs.length + 1, _, h.1.search_find (Nat.lt_succ_self _), ?_⟩
    rw [List.find?_eq_none]
    simp only [h.2, Bool.not_eq_true]

lemma Orderly.listed (h : Orderly w) : ∃ xs, Listed w xs := by
  obtain ⟨xs, hchain, -, hlive⟩ := h.list
  exact ⟨xs, hchain, hlive⟩

end Action

/-- The list of servers is in order in all states of a history if and only if no reconnection succeeds in it. -/
theorem server_list_iff {w₀ w : World} {acts : List Action} (h₀ : Orderly w₀)
    (hrun : Run Step (fun _ _ => True) w₀ acts w) :
    (Run Step (fun w _ => Orderly w) w₀ acts w ∧ Orderly w) ↔ ∀ a ∈ acts, a.reconnects = false := by
  constructor
  · rintro ⟨hkept, hlast⟩
    clear hrun h₀
    induction hkept with
    | nil => nofun
    | @cons w a w' acts w'' hok hstep hrest ih =>
      -- the state behind the action is in order too: the next one starts there, or it is the last
      have hnext : Orderly w' := by
        cases hrest with
        | nil => exact hlast
        | cons hok' => exact hok'
      obtain ⟨xs, hxs⟩ := hok.listed
      obtain ⟨ys, hys⟩ := hnext.listed
      intro b hb
      rcases List.mem_cons.mp hb with rfl | hb
      · rw [← Bool.not_eq_true]
        intro ha
        exact hxs.reconnect hstep ha ys hys
      · exact ih hlast b hb
  · intro hno
    induction hrun with
    | nil w => exact ⟨.nil w, h₀⟩
    | @cons w a w' acts w'' _ hstep _ ih =>
      obtain ⟨xs, hxs⟩ := h₀.listed
      obtain ⟨ys, hys⟩ := hxs.step hstep (hno a (List.mem_cons_self ..))
      obtain ⟨hrun, hlast⟩ := ih hys.orderly fun b hb => hno b (List.mem_cons_of_mem _ hb)
      exact ⟨.cons h₀ hstep hrun, hlast⟩

def World.start : World := ⟨⟨none, fun _ => none, fun _ => ⟨0, false, false, 0, [], []⟩, fun _ => false⟩, []⟩

lemma World.start_listed : Listed World.start [] := ⟨.nil, fun _ => Iff.rfl⟩

def answers (fd : Int) : Attempts := ⟨⟨fd, true⟩, [], 1, by decide⟩

theorem server_list_iff_two_servers :
    ∃ w, Run Step (fun w _ => Orderly w) World.start
      [.connect 0 (answers 3) none, .connect 1 (answers 4) none, .remove (some 0)] w ∧ Orderly w := by
  have hrun : ∃ w, Run Step (fun _ _ => True) World.start
      [.connect 0 (answers 3) none, .connect 1 (answers 4) none, .remove (some 0)] w :=
    ⟨_, .cons trivial ⟨3, rfl⟩ <| .cons trivial ⟨3, rfl⟩ <| .cons trivial ⟨3, rfl⟩ <| .nil _⟩
  obtain ⟨w, hrun⟩ := hrun
  exact ⟨w, (server_list_iff World.start_listed.orderly hrun).mpr (by decide)⟩

/-- A server that is disconnected and connected again, behind a second one: the list goes round and round, and
asking for a third one does not end. -/
theorem reconnected_server_closes_circle :
    ∃ w, Run Step (fun _ _ => True) World.start
        [.connect 0 (answers 3) none, .connect 1 (answers 4) none, .disconnect 0, .reconnect 0 (answers 3) 0] w ∧
      ¬ Orderly w ∧ ∀ fuel, serverStillValid w.reg fuel 2 = none := by
  obtain ⟨w, hrun, hbase, hzero, hone⟩ : ∃ w, Run Step (fun _ _ => True) World.start
      [.connect 0 (answers 3) none, .connect 1 (answers 4) none, .disconnect 0, .reconnect 0 (answers 3) 0] w ∧
      w.reg.serverBase = some 0 ∧ w.reg.next 0 = some 1 ∧ w.reg.next 1 = some 0 :=
    ⟨_, .cons trivial ⟨0, rfl⟩ <| .cons trivial ⟨0, rfl⟩ <| .cons trivial ⟨0, rfl⟩ <|
      .cons trivial ⟨0, rfl⟩ <| .nil _, rfl, rfl, rfl⟩
  have hround (fuel : Nat) : search w.reg.next (fun s => s == 2) fuel (some 0) = none ∧
      search w.reg.next (fun s => s == 2) fuel (some 1) = none := by
    induction fuel with
    | zero => exact ⟨rfl, rfl⟩
    | succ fuel ih =>
      rw [search, search, hzero, hone]
      exact ⟨ih.2, ih.1⟩
  have hvalid (fuel : Nat) : serverStillValid w.reg fuel 2 = none := by
    rw [serverStillValid, hbase, (hround fuel).1]
    rfl
  refine ⟨w, hrun, fun h => ?_, hvalid⟩
  obtain ⟨fuel, hfuel⟩ := h.valid 2
  rw [hvalid fuel] at hfuel
  cases hfuel

end AfpfsNg.Afp.Servers
