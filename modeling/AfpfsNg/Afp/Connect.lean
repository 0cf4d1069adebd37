import AfpfsNg.Afp.Servers
import AfpfsNg.Base.Effects

/-!
# Connecting to a server

`afp_server_full_connect` (`lib/connect.c`) connects to a server for its status, removes it again, and then connects a second
server, unless there is one with the same signature; `afp_server_complete_connection` (`lib/server.c`) logs in on that one.

How the steps end is given by `Outcomes`. The code keeps a `Log` of the servers that it uses and of its calls of
`afp_server_remove`. Where the program crashes or a loop does not end, the code stops.

While a request is sent, the main loop may close the connection, and then `dsi_send` connects the server again, which puts it
in front of the list once more. Of the requests of one call the first one stands for all.
-/

namespace AfpfsNg.Afp.Servers
open AfpfsNg.Base

/-- The list of servers, how many servers there have been, and what was done with them: `free` is a call of
`afp_server_remove` that has ended. -/
structure Log where
  reg : Registry
  made : Nat
  acc : List (Access Nat)

/-- Code that works on the servers. -/
abbrev Act (α : Type) := OptionT (StateM Log) α

/-- A step that talks to a server: the reconnections in it, with what `afp_server_login` returns for each, and its result. -/
structure Call where
  reconnects : List (Attempts × Int)
  ret : Int

structure Outcomes where
  /-- does `afp_get_address` find an address? -/
  address : Bool
  /-- the servers that `find_server_by_address` looks for -/
  hasAddress : Nat → Bool
  /-- is there memory for the first server? -/
  tmpserver : Bool
  first : Attempts
  getstatus : Call
  /-- the servers that `find_server_by_signature` looks for -/
  hasSignature : Nat → Bool
  /-- is there memory for the second server? -/
  server : Bool
  second : Attempts
  opensession : Call
  /-- what `pick_version` returns -/
  version : Option Nat
  /-- what `pick_uam` returns -/
  uam : Int
  login : Call
  getsrvrparms : Call
  getsrvrmsg : Call
  /-- what `something_is_mounted` returns for a server that was freed -/
  stale : Bool

def Log.uses (k : Log) (ss : List Nat) : Log := { k with acc := k.acc ++ ss.map .use }

def useAll (ss : List Nat) : Act Unit := modify fun k => k.uses ss

def use (s : Nat) : Act Unit := useAll [s]

def setReg (r : Registry) : Act Unit := modify fun k => { k with reg := r }

/-- A loop over the list. There are `made` servers, so a loop that is not at its end after as many never ends. -/
def findServer (p : Nat → Bool) : Act (Option Nat) := do
  let k ← get
  useAll (visited k.reg.next p (k.made + 1) k.reg.serverBase)
  match search k.reg.next p (k.made + 1) k.reg.serverBase with
  | none => failure
  | some found => return found

/-- The connection is closed by the main loop, and C `afp_server_reconnect` opens it again. -/
def loggedReconnect (s : Nat) (c : Attempts × Int) : Act Unit := do
  use s
  setReg (afpServerReconnect (loopDisconnect (← get).reg s) s c.1 c.2).2

/-- A step that talks to the server. It begins with C `server_still_valid`. -/
def request (s : Nat) (c : Call) : Act Int := do
  let _ ← findServer fun s' => s' == s
  use s
  c.reconnects.forM (loggedReconnect s)
  return c.ret

/-- C `afp_server_init`, when there is memory. -/
def loggedInit : Act Nat := do
  let k ← get
  set { k with reg := afpServerInit k.reg k.made, made := k.made + 1 }
  use k.made
  return k.made

/-- C `afp_server_connect`; `full` is how `dsi_getstatus` ends, if it is called. -/
def loggedConnect (s : Nat) (t : Attempts) (full : Option Call) : Act Int := do
  use s
  let r := (← get).reg
  setReg (afpServerConnect r s t none).2
  let ret := (afpServerConnect r s t none).1
  if ret ≠ 0 then return ret
  match full with
  | none => return 0
  | some c => do
    let error ← request s c
    return -error

/-- The servers that C `afp_server_remove` passes until it finds the one in front of `s`. -/
def passed (k : Log) (s : Nat) : List Nat :=
  if k.reg.serverBase = some s then []
  else visited k.reg.next (fun s2 => k.reg.next s2 == some s) (k.made + 1) k.reg.serverBase

/-- C `afp_server_remove`. -/
def loggedRemove (s : Nat) : Act Unit := do
  use s
  let k ← get
  useAll (passed k s)
  match afpServerRemove k.reg (k.made + 1) (some s) with
  | none => failure
  | some (_, r) => modify fun k => { k with reg := r, acc := k.acc ++ [.free s] }

/-- The label `error` of C `afp_server_complete_connection`. -/
def completeError (server : Nat) : Act (Option Nat) := do
  loggedRemove server
  return none

def afpServerCompleteConnection (o : Outcomes) (server : Nat) : Act (Option Nat) := do
  use server
  let _ ← request server o.opensession
  if o.version = none then completeError server
  else if o.uam = -1 then completeError server
  else do
    let rc ← request server o.login
    if rc ≠ 0 then completeError server
    else do
      let rc ← request server o.getsrvrparms
      if rc ≠ 0 then completeError server
      else do
        let _ ← request server o.getsrvrmsg
        use server
        return some server

/-- The label `have_server` of C `afp_server_full_connect`. -/
def haveServer (s : Nat) : Act (Option Nat) := do
  use s
  return some s

/-- The label `error` of C `afp_server_full_connect`, when there is a server. -/
def connectError (s : Nat) (mounted : Bool) : Act (Option Nat) := do
  use s
  if mounted then return none
  loggedRemove s
  return none

/-- C `afp_server_full_connect` from `find_server_by_signature` on. -/
def connectAgain (o : Outcomes) : Act (Option Nat) := do
  match ← findServer o.hasSignature with
  | some s => haveServer s
  | none =>
    -- the pointer is followed in `afp_server_connect` without a check
    if !o.server then failure
    let s ← loggedInit
    let ret ← loggedConnect s o.second none
    -- a new server has no volumes
    if ret ≠ 0 then connectError s false
    else
      match ← afpServerCompleteConnection o s with
      | none => connectError s o.stale
      | some _ => haveServer s

/-- C `afp_server_full_connect` from the answer of the first `afp_server_connect` on. -/
def afterStatus (o : Outcomes) (tmpserver : Nat) (ret : Int) : Act (Option Nat) := do
  if ret < 0 then
    loggedRemove tmpserver
    return none
  else
    setReg (loopDisconnect (← get).reg tmpserver)
    use tmpserver
    loggedRemove tmpserver
    connectAgain o

def afpServerFullConnect (o : Outcomes) : Act (Option Nat) := do
  if !o.address then return none
  match ← findServer o.hasAddress with
  | some s => haveServer s
  | none =>
    if !o.tmpserver then return none
    let tmpserver ← loggedInit
    let ret ← loggedConnect tmpserver o.first (some o.getstatus)
    afterStatus o tmpserver ret

/-- No server is used or removed after it was removed and, when the function returns `NULL`, no new server is in the list. -/
structure ReleasedOnce (made : Nat) (out : Option (Option Nat) × Log) : Prop where
  proper : Proper [] out.2.acc
  gone : out.1 = some none → ∀ s, made ≤ s → ¬ Reaches out.2.reg.next out.2.reg.serverBase s

/-- The first server connects, when the list is `xs`. -/
structure Outcomes.StatusReached (o : Outcomes) (xs : List Nat) : Prop where
  address : o.address = true
  unknown : ∀ s ∈ xs, o.hasAddress s = false
  tmpserver : o.tmpserver = true
  connected : o.first.connected = true

/-- The second server connects too. -/
structure Outcomes.CompletionReached (o : Outcomes) (xs : List Nat) : Prop extends o.StatusReached xs where
  status : o.getstatus.ret ≤ 0
  unsigned : ∀ s ∈ xs, o.hasSignature s = false
  server : o.server = true
  again : o.second.connected = true

/-- A version and a method are found, and the login and the request for the parameters succeed. -/
structure Outcomes.Completes (o : Outcomes) : Prop where
  version : o.version ≠ none
  uam : o.uam ≠ -1
  login : o.login.ret = 0
  getsrvrparms : o.getsrvrparms.ret = 0

def Call.Reconnects (c : Call) : Prop := ∃ a ∈ c.reconnects, a.1.connected = true

/-- The list is `xs`, nothing was done with a server after its removal, and no removed one is in the list. -/
structure Sound (k : Log) (xs : List Nat) : Prop where
  chain : Chain k.reg.next k.reg.serverBase xs
  made : ∀ s ∈ xs, s < k.made
  proper : Proper [] k.acc
  removed : ∀ s, .free s ∈ k.acc → s < k.made ∧ s ∉ xs

/-- A server that is neither in the list nor removed. -/
structure Loose (k : Log) (s : Nat) (xs : List Nat) : Prop where
  lt : s < k.made
  not_mem : s ∉ xs
  kept : .free s ∉ k.acc

section Sound
variable {k k' : Log} {xs : List Nat} {s : Nat}

lemma Sound.kept (h : Sound k xs) (hs : s ∈ xs) : .free s ∉ k.acc := fun hfree => (h.removed s hfree).2 hs

lemma Sound.rounds (h : Sound k xs) : xs.length < k.made + 1 := Nat.lt_succ_of_le (h.chain.length_le h.made)

lemma uses_nil (k : Log) : k.uses [] = k := by
  rw [Log.uses, List.map_nil, List.append_nil]

lemma free_mem_uses {acc : List (Access Nat)} {ss : List Nat} : .free s ∈ acc ++ ss.map .use ↔ .free s ∈ acc := by
  rw [List.mem_append, or_iff_left]
  intro hmem
  obtain ⟨a, -, heq⟩ := List.mem_map.mp hmem
  cases heq

lemma Sound.useAll (h : Sound k xs) {ss : List Nat} (hss : ∀ s ∈ ss, .free s ∉ k.acc) :
    Sound (k.uses ss) xs where
  chain := h.chain
  made := h.made
  proper := h.proper.concat_uses hss
  removed s hs := h.removed s (free_mem_uses.mp hs)

lemma Loose.useAll (h : Loose k s xs) (ss : List Nat) : Loose (k.uses ss) s xs where
  lt := h.lt
  not_mem := h.not_mem
  kept hmem := h.kept (free_mem_uses.mp hmem)

lemma Sound.use (h : Sound k xs) (hs : .free s ∉ k.acc) : Sound (k.uses [s]) xs :=
  h.useAll (List.forall_mem_singleton.mpr hs)

lemma Loose.setReg (h : Loose k s xs) (r : Registry) : Loose { k with reg := r } s xs := ⟨h.lt, h.not_mem, h.kept⟩

lemma Sound.setReg (h : Sound k xs) {r : Registry} (hr : Chain r.next r.serverBase xs) : Sound { k with reg := r } xs :=
  ⟨hr, h.made, h.proper, h.removed⟩

lemma Sound.free (h : Sound k xs) (hs : Loose k s xs) : Sound { k with acc := k.acc ++ [.free s] } xs where
  chain := h.chain
  made := h.made
  proper := h.proper.concat List.not_mem_nil hs.kept
  removed a ha := by
    rcases List.mem_append.mp ha with ha | ha
    · exact h.removed a ha
    · cases List.mem_singleton.mp ha
      exact ⟨hs.lt, hs.not_mem⟩

lemma findServer_run (k : Log) (p : Nat → Bool) :
    findServer p k = (search k.reg.next p (k.made + 1) k.reg.serverBase,
      k.uses (visited k.reg.next p (k.made + 1) k.reg.serverBase)) := by
  show (match search k.reg.next p (k.made + 1) k.reg.serverBase with
    | none => failure
    | some found => pure found : Act (Option Nat)) _ = _
  cases search k.reg.next p (k.made + 1) k.reg.serverBase with
  | none => rfl
  | some found => rfl

lemma findServer_sound (h : Sound k xs) (p : Nat → Bool) :
    ∃ k', findServer p k = (some (xs.find? p), k') ∧ Sound k' xs ∧ k'.made = k.made := by
  rw [findServer_run, h.chain.search_find h.rounds]
  exact ⟨_, rfl, h.useAll fun a ha => h.kept (h.chain.visited_subset ha), rfl⟩

lemma loggedInit_sound (h : Sound k xs) :
    ∃ k', loggedInit k = (some k.made, k') ∧ Sound k' xs ∧ Loose k' k.made xs ∧ k'.made = k.made + 1 := by
  have hnot : k.made ∉ xs := fun hmem => Nat.lt_irrefl _ (h.made _ hmem)
  have hkept : .free k.made ∉ k.acc := fun hmem => Nat.lt_irrefl _ (h.removed _ hmem).1
  have hsound : Sound { k with reg := afpServerInit k.reg k.made, made := k.made + 1 } xs :=
    { chain := Segment.update h.chain hnot
      made := fun s hs => Nat.lt_succ_of_lt (h.made s hs)
      proper := h.proper
      removed := fun s hs => ⟨Nat.lt_succ_of_lt (h.removed s hs).1, (h.removed s hs).2⟩ }
  have hloose : Loose { k with reg := afpServerInit k.reg k.made, made := k.made + 1 } k.made xs :=
    ⟨Nat.lt_succ_self _, hnot, hkept⟩
  exact ⟨_, rfl, hsound.use hkept, hloose.useAll [k.made], rfl⟩

def linked (k : Log) (s : Nat) (t : Attempts) : Log :=
  { k.uses [s] with reg := (afpServerConnect k.reg s t none).2 }

lemma linked_failed (h : Sound k xs) (hs : Loose k s xs) {t : Attempts} (ht : ¬ t.connected) :
    Sound (linked k s t) xs ∧ Loose (linked k s t) s xs := by
  obtain ⟨hnext, hbase⟩ := afpServerConnect_failed k.reg s none ht
  refine ⟨(h.use hs.kept).setReg ?_, (hs.useAll [s]).setReg _⟩
  rw [hnext, hbase]
  exact h.chain

lemma linked_connected (h : Sound k xs) (hs : Loose k s xs) {t : Attempts} (ht : t.connected) :
    Sound (linked k s t) (s :: xs) := by
  obtain ⟨hnext, hbase⟩ := afpServerConnect_connected k.reg s none ht
  have huse := h.use hs.kept
  have huse' := hs.useAll [s]
  refine ⟨?_, List.forall_mem_cons.mpr ⟨hs.lt, h.made⟩, huse.proper, fun a ha => ⟨(huse.removed a ha).1, ?_⟩⟩
  · show Chain (afpServerConnect k.reg s t none).2.next (afpServerConnect k.reg s t none).2.serverBase (s :: xs)
    rw [hnext, hbase]
    exact Chain.push h.chain hs.not_mem
  · rw [List.mem_cons, not_or]
    refine ⟨?_, (huse.removed a ha).2⟩
    rintro rfl
    exact huse'.kept ha

lemma afpServerConnect_ret (r : Registry) (s : Nat) (t : Attempts) :
    (afpServerConnect r s t none).1 = if t.connected then 0 else -t.errno := by
  have hfd := tryAddresses_nonneg t.first t.more (r.server s).fd
  rw [← Attempts.connected] at hfd
  simp only [afpServerConnect]
  split
  case isTrue hneg => rw [if_neg fun hc => Int.not_le.mpr hneg (hfd.mpr hc)]
  case isFalse hpos => rw [if_pos (hfd.mp (Int.not_lt.mp hpos))]

lemma loggedConnect_run (k : Log) (s : Nat) (t : Attempts) (full : Option Call) :
    loggedConnect s t full k =
      (if (if t.connected then 0 else -t.errno) ≠ 0 then pure (if t.connected then 0 else -t.errno)
        else match full with
          | none => pure 0
          | some c => do
            let error ← request s c
            return -error : Act Int) (linked k s t) := by
  rw [← afpServerConnect_ret k.reg s t]
  rfl

lemma loggedConnect_failed {t : Attempts} (ht : ¬ t.connected) (full : Option Call) :
    loggedConnect s t full k = (some (-t.errno), linked k s t) := by
  have hne : -t.errno ≠ 0 := Int.neg_ne_zero.mpr (Int.ne_of_gt t.errno_pos)
  rw [loggedConnect_run, if_neg ht, if_pos hne]
  rfl

lemma loggedConnect_connected {t : Attempts} (ht : t.connected) :
    loggedConnect s t none k = (some 0, linked k s t) := by
  rw [loggedConnect_run, if_pos ht, if_neg (by decide)]
  rfl

lemma loggedConnect_full {t : Attempts} (ht : t.connected) {c : Call} (hreq : request s c (linked k s t) = (some c.ret, k')) :
    loggedConnect s t (some c) k = (some (-c.ret), k') := by
  rw [loggedConnect_run, if_pos ht, if_neg (by decide)]
  exact run_bind_some hreq

lemma loggedRemove_run (k : Log) (s : Nat) :
    loggedRemove s k =
      match afpServerRemove k.reg (k.made + 1) (some s) with
      | none => (none, (k.uses [s]).uses (passed k s))
      | some (_, r) => (some (), { (k.uses [s]).uses (passed k s) with
          reg := r, acc := ((k.uses [s]).uses (passed k s)).acc ++ [.free s] }) := by
  show (match afpServerRemove k.reg (k.made + 1) (some s) with
    | none => failure
    | some (_, r) => modify fun k => { k with reg := r, acc := k.acc ++ [.free s] } : Act Unit) _ = _
  cases afpServerRemove k.reg (k.made + 1) (some s) with
  | none => rfl
  | some out => rfl

def unlinked (k : Log) (s : Nat) : Log :=
  { k with
    reg := loopDisconnect { k.reg with serverBase := k.reg.next s } s
    acc := (k.uses [s]).acc ++ [.free s] }

lemma loggedRemove_front (hbase : k.reg.serverBase = some s) : loggedRemove s k = (some (), unlinked k s) := by
  rw [loggedRemove_run, afpServerRemove, if_pos hbase, passed, if_pos hbase, uses_nil]
  rfl

lemma unlinked_sound (h : Sound k (s :: xs)) : Sound (unlinked k s) xs := by
  have hkept := h.kept List.mem_cons_self
  have hchain : Chain (k.reg.next) (k.reg.next s) xs := by
    have hchain := h.chain
    rw [hchain.head_eq] at hchain
    cases hchain with
    | cons hrest => exact hrest
  have hsound : Sound { k with reg := loopDisconnect { k.reg with serverBase := k.reg.next s } s } xs :=
    { chain := by rwa [loopDisconnect_next, loopDisconnect_serverBase]
      made := fun a ha => h.made a (.tail _ ha)
      proper := h.proper
      removed := fun a ha => ⟨(h.removed a ha).1, fun hin => (h.removed a ha).2 (.tail _ hin)⟩ }
  have hloose : Loose { k with reg := loopDisconnect { k.reg with serverBase := k.reg.next s } s } s xs :=
    ⟨h.made s List.mem_cons_self, (List.nodup_cons.mp h.chain.nodup).1, hkept⟩
  exact (hsound.use hkept).free (hloose.useAll [s])

lemma afpServerRemove_absent {r : Registry} {rounds : Nat} (h : Chain r.next r.serverBase xs) (hs : s ∉ xs)
    (hrounds : xs.length < rounds) : afpServerRemove r rounds (some s) = some (-1, r) := by
  have hbase : r.serverBase ≠ some s := by
    intro hbase
    rw [h.eq_head?] at hbase
    exact hs (List.mem_of_head? hbase)
  have hfind : xs.find? (fun s2 => r.next s2 == some s) = none := by
    rw [List.find?_eq_none]
    intro l hl hnext
    obtain ⟨pre, post, rfl⟩ := h.next_eq hl (beq_iff_eq.mp hnext)
    exact hs (List.mem_append_right _ (.tail _ List.mem_cons_self))
  rw [afpServerRemove, if_neg hbase, h.search_find hrounds, hfind]
  rfl

lemma loggedRemove_loose (h : Sound k xs) (hs : Loose k s xs) :
    ∃ k', loggedRemove s k = (some (), k') ∧ Sound k' xs := by
  rw [loggedRemove_run, afpServerRemove_absent h.chain hs.not_mem h.rounds]
  refine ⟨_, rfl, ?_⟩
  have hpassed : ∀ a ∈ passed k s, .free a ∉ (k.uses [s]).acc := by
    intro a ha
    refine (h.use hs.kept).kept ?_
    rw [passed] at ha
    split at ha
    · cases ha
    · exact h.chain.visited_subset ha
  exact ((h.use hs.kept).useAll hpassed).free ((hs.useAll [s]).useAll (passed k s))

end Sound

/-- The first server of the list is used, and stays the first one. -/
structure Busy (s : Nat) (k k' : Log) : Prop where
  base : k'.reg.serverBase = some s
  made : k'.made = k.made
  acc : ∃ n, k'.acc = k.acc ++ (List.replicate n s).map .use

section Busy
variable {k k' k'' : Log} {xs : List Nat} {s : Nat}

lemma Busy.refl (hbase : k.reg.serverBase = some s) : Busy s k k := ⟨hbase, rfl, 0, (List.append_nil _).symm⟩

lemma Busy.trans (h : Busy s k k') (h' : Busy s k' k'') : Busy s k k'' := by
  obtain ⟨n, hn⟩ := h.acc
  obtain ⟨m, hm⟩ := h'.acc
  refine ⟨h'.base, h'.made.trans h.made, n + m, ?_⟩
  rw [hm, hn, List.append_assoc, ← List.map_append, List.replicate_append_replicate]

lemma Busy.use (hbase : k.reg.serverBase = some s) : Busy s k (k.uses [s]) := ⟨hbase, rfl, 1, rfl⟩

lemma use_run (k : Log) (s : Nat) : use s k = (some (), k.uses [s]) := rfl

lemma Busy.proper (h : Busy s k k') (hproper : Proper [] k.acc) (hs : .free s ∉ k.acc) : Proper [] k'.acc := by
  obtain ⟨n, hn⟩ := h.acc
  rw [hn]
  refine hproper.concat_uses fun a ha => ?_
  rwa [List.eq_of_mem_replicate ha]

lemma Busy.sound (h : Busy s k k') (hk : Sound k (s :: xs)) (hnext : k'.reg.next = k.reg.next) : Sound k' (s :: xs) := by
  obtain ⟨n, hn⟩ := h.acc
  refine ⟨?_, by rw [h.made]; exact hk.made, h.proper hk.proper (hk.kept List.mem_cons_self), fun a ha => ?_⟩
  · rw [hnext, h.base, ← hk.chain.head_eq]
    exact hk.chain
  · rw [hn, free_mem_uses] at ha
    rw [h.made]
    exact hk.removed a ha

lemma loggedReconnect_run (hbase : k.reg.serverBase = some s) (c : Attempts × Int) :
    ∃ k', loggedReconnect s c k = (some (), k') ∧ Busy s k k' ∧
      k'.reg.next = if c.1.connected then Function.update k.reg.next s (some s) else k.reg.next := by
  have hbusy := Busy.use hbase
  refine ⟨_, rfl, ⟨?_, hbusy.made, hbusy.acc⟩, ?_⟩
  · show (afpServerReconnect (loopDisconnect k.reg s) s c.1 c.2).2.serverBase = some s
    rw [afpServerReconnect_eq]
    by_cases hc : c.1.connected
    · exact (afpServerConnect_connected _ s none hc).2
    · rw [(afpServerConnect_failed _ s none hc).2, loopDisconnect_serverBase, hbase]
  · show (afpServerReconnect (loopDisconnect k.reg s) s c.1 c.2).2.next = _
    rw [afpServerReconnect_eq]
    by_cases hc : c.1.connected
    · rw [(afpServerConnect_connected _ s none hc).1, loopDisconnect_next, loopDisconnect_serverBase, hbase, if_pos hc]
    · rw [(afpServerConnect_failed _ s none hc).1, loopDisconnect_next, if_neg hc]

lemma reconnects_run (hbase : k.reg.serverBase = some s) (cs : List (Attempts × Int)) :
    ∃ k', cs.forM (loggedReconnect s) k = (some (), k') ∧ Busy s k k' ∧
      ((∀ c ∈ cs, ¬ c.1.connected) → k'.reg.next = k.reg.next) ∧
      (k.reg.next s = some s ∨ (∃ c ∈ cs, c.1.connected) → k'.reg.next s = some s) := by
  induction cs generalizing k with
  | nil => exact ⟨k, rfl, .refl hbase, fun _ => rfl, fun h => h.elim id nofun⟩
  | cons c cs ih =>
    obtain ⟨k₁, hrun₁, hbusy₁, hnext₁⟩ := loggedReconnect_run hbase c
    obtain ⟨k₂, hrun₂, hbusy₂, hkeep, hself⟩ := ih hbusy₁.base
    refine ⟨k₂, ?_, hbusy₁.trans hbusy₂, fun hno => ?_, fun hor => hself ?_⟩
    · show (loggedReconnect s c >>= fun _ => cs.forM (loggedReconnect s)) k = _
      rw [run_bind_some hrun₁, hrun₂]
    · rw [List.forall_mem_cons] at hno
      rw [hkeep hno.2, hnext₁, if_neg hno.1]
    · rw [hnext₁]
      by_cases hc : c.1.connected
      · left
        rw [if_pos hc, Function.update_self]
      · rw [if_neg hc]
        refine hor.imp id fun ⟨a, ha, hac⟩ => ?_
        rcases List.mem_cons.mp ha with rfl | ha
        · exact absurd hac hc
        · exact ⟨a, ha, hac⟩

lemma findServer_front (hbase : k.reg.serverBase = some s) {p : Nat → Bool} (hp : p s) :
    findServer p k = (some (some s), k.uses [s]) := by
  rw [findServer_run, hbase, search, visited, if_pos hp, if_pos hp]

lemma request_run (hbase : k.reg.serverBase = some s) (c : Call) :
    ∃ k', request s c k = (some c.ret, k') ∧ Busy s k k' ∧ (¬ c.Reconnects → k'.reg.next = k.reg.next) ∧
      (c.Reconnects → k'.reg.next s = some s) := by
  have hvalid := Busy.use hbase
  have huse := Busy.use hvalid.base
  obtain ⟨k', hrun, hbusy, hkeep, hself⟩ := reconnects_run huse.base c.reconnects
  refine ⟨k', ?_, (hvalid.trans huse).trans hbusy, fun hno => hkeep fun a ha hac => hno ⟨a, ha, hac⟩, fun h => hself (.inr h)⟩
  have hfind := findServer_front hbase (p := fun s' => s' == s) (beq_self_eq_true s)
  rw [request, run_bind_some hfind, run_bind_some (use_run _ s), run_bind_some hrun]
  rfl

lemma completeError_run (hbase : k.reg.serverBase = some s) : completeError s k = (some none, unlinked k s) := by
  rw [completeError, run_bind_some (loggedRemove_front hbase)]
  rfl

lemma free_mem_unlinked (k : Log) (s : Nat) : .free s ∈ (unlinked k s).acc :=
  List.mem_append_right _ (List.mem_singleton_self _)

lemma afpServerCompleteConnection_run (hbase : k.reg.serverBase = some s) (o : Outcomes) :
    o.Completes ∧ (∃ k', afpServerCompleteConnection o s k = (some (some s), k') ∧ Busy s k k') ∨
      ¬ o.Completes ∧ ∃ k', afpServerCompleteConnection o s k = (some none, k') ∧ .free s ∈ k'.acc := by
  have huse := Busy.use hbase
  obtain ⟨k₁, hopen, hbusy₁, -⟩ := request_run huse.base o.opensession
  obtain ⟨k₂, hlogin, hbusy₂, -⟩ := request_run hbusy₁.base o.login
  obtain ⟨k₃, hparms, hbusy₃, -⟩ := request_run hbusy₂.base o.getsrvrparms
  obtain ⟨k₄, hmsg, hbusy₄, -⟩ := request_run hbusy₃.base o.getsrvrmsg
  rw [afpServerCompleteConnection, run_bind_some (use_run k s), run_bind_some hopen]
  by_cases hversion : o.version = none
  · rw [if_pos hversion]
    exact .inr ⟨fun h => h.version hversion, _, completeError_run hbusy₁.base, free_mem_unlinked ..⟩
  rw [if_neg hversion]
  by_cases huam : o.uam = -1
  · rw [if_pos huam]
    exact .inr ⟨fun h => h.uam huam, _, completeError_run hbusy₁.base, free_mem_unlinked ..⟩
  rw [if_neg huam, run_bind_some hlogin]
  by_cases hret : o.login.ret = 0
  case neg =>
    rw [if_pos hret]
    exact .inr ⟨fun h => hret h.login, _, completeError_run hbusy₂.base, free_mem_unlinked ..⟩
  rw [if_neg (not_not.mpr hret), run_bind_some hparms]
  by_cases hret' : o.getsrvrparms.ret = 0
  case neg =>
    rw [if_pos hret']
    exact .inr ⟨fun h => hret' h.getsrvrparms, _, completeError_run hbusy₃.base, free_mem_unlinked ..⟩
  rw [if_neg (not_not.mpr hret'), run_bind_some hmsg, run_bind_some (use_run k₄ s)]
  have hbusy := (((huse.trans hbusy₁).trans hbusy₂).trans hbusy₃).trans hbusy₄
  exact .inl ⟨⟨hversion, huam, hret, hret'⟩, _, rfl, hbusy.trans (.use hbusy₄.base)⟩

end Busy

def disconnected (k : Log) (s : Nat) : Log := { k with reg := loopDisconnect k.reg s }.uses [s]

lemma disconnected_next (k : Log) (s : Nat) : (disconnected k s).reg.next = k.reg.next := loopDisconnect_next ..

lemma disconnected_serverBase (k : Log) (s : Nat) : (disconnected k s).reg.serverBase = k.reg.serverBase :=
  loopDisconnect_serverBase ..

lemma disconnected_busy {k : Log} {s : Nat} (hbase : k.reg.serverBase = some s) : Busy s k (disconnected k s) :=
  ⟨(disconnected_serverBase k s).trans hbase, rfl, 1, rfl⟩

section Connect
variable {k : Log} {xs : List Nat} {s made : Nat} {o : Outcomes}

lemma Sound.releasedOnce (h : Sound k xs) (hxs : ∀ a ∈ xs, a < made) (ret : Option (Option Nat)) :
    ReleasedOnce made (ret, k) where
  proper := h.proper
  gone _ a ha hreach := Nat.not_lt.mpr ha (hxs a (h.chain.mem_of_reaches hreach))

lemma haveServer_releasedOnce (hproper : Proper [] k.acc) (hs : .free s ∉ k.acc) : ReleasedOnce made (haveServer s k) where
  proper := hproper.concat_uses (List.forall_mem_singleton.mpr hs)
  gone := nofun

lemma loggedRemove_acc (k : Log) (s : Nat) : ∃ rest, (loggedRemove s k).2.acc = k.acc ++ .use s :: rest := by
  rw [loggedRemove_run]
  cases afpServerRemove k.reg (k.made + 1) (some s) with
  | none => exact ⟨_, List.append_assoc ..⟩
  | some out =>
    refine ⟨(passed k s).map .use ++ [.free s], ?_⟩
    show k.acc ++ [.use s] ++ (passed k s).map .use ++ [.free s] = _
    rw [List.append_assoc, List.append_assoc]
    rfl

lemma connectError_loose (h : Sound k xs) (hs : Loose k s xs) :
    ∃ k', connectError s false k = (some none, k') ∧ Sound k' xs := by
  obtain ⟨k', hremove, hsound⟩ := loggedRemove_loose (h.use hs.kept) (hs.useAll [s])
  refine ⟨k', ?_, hsound⟩
  rw [connectError, run_bind_some (use_run k s)]
  exact run_bind_some hremove

lemma connectError_removed (hs : .free s ∈ k.acc) (mounted : Bool) : ¬ Proper [] (connectError s mounted k).2.acc := by
  intro hproper
  rw [connectError, run_bind_some (use_run k s)] at hproper
  cases mounted with
  | true => exact hproper.not_freed.2 hs
  | false =>
    obtain ⟨rest, hrest⟩ := loggedRemove_acc (k.uses [s]) s
    change Proper [] ((loggedRemove s >>= fun _ => pure none : Act (Option Nat)) (k.uses [s])).2.acc at hproper
    rw [bind_pure_state, hrest] at hproper
    exact hproper.left.not_freed.2 hs

lemma connectAgain_iff (h : Sound k xs) (hxs : ∀ a ∈ xs, a < made) :
    ReleasedOnce made (connectAgain o k) ↔
      ((∀ s ∈ xs, o.hasSignature s = false) → o.server = true → o.second.connected = true → o.Completes) := by
  obtain ⟨k₁, hfind, hsound₁, -⟩ := findServer_sound h o.hasSignature
  rw [connectAgain, run_bind_some hfind]
  cases hfound : xs.find? o.hasSignature with
  | some s =>
    have hs : s ∈ xs := List.mem_of_find?_eq_some hfound
    refine iff_of_true (haveServer_releasedOnce hsound₁.proper (hsound₁.kept hs)) fun hno => ?_
    cases (hno s hs).symm.trans (List.find?_some hfound)
  | none =>
    have hno : ∀ s ∈ xs, o.hasSignature s = false := fun s hs => Bool.eq_false_iff.mpr (List.find?_eq_none.mp hfound s hs)
    dsimp only
    cases hserver : o.server with
    | false => exact iff_of_true (hsound₁.releasedOnce hxs none) fun _ => nofun
    | true =>
    obtain ⟨k₂, hinit, hsound₂, hloose, -⟩ := loggedInit_sound hsound₁
    rw [if_neg (by decide), run_bind_some hinit]
    by_cases hc : o.second.connected
    case neg =>
      obtain ⟨hsound₃, hloose₃⟩ := linked_failed hsound₂ hloose hc
      obtain ⟨k₄, herror, hsound₄⟩ := connectError_loose hsound₃ hloose₃
      have hne : -o.second.errno ≠ 0 := Int.neg_ne_zero.mpr (Int.ne_of_gt o.second.errno_pos)
      rw [run_bind_some (loggedConnect_failed hc none), if_pos hne, herror]
      exact iff_of_true (hsound₄.releasedOnce hxs _) fun _ _ hc' => absurd hc' hc
    case pos =>
      have hsound₃ := linked_connected hsound₂ hloose hc
      have hkept := hsound₃.kept List.mem_cons_self
      rw [run_bind_some (loggedConnect_connected hc), if_neg (by decide)]
      obtain ⟨hok, k₄, hcomplete, hbusy⟩ | ⟨hfail, k₄, hcomplete, hfree⟩ :=
        afpServerCompleteConnection_run hsound₃.chain.head_eq o
      · rw [run_bind_some hcomplete]
        refine iff_of_true (haveServer_releasedOnce (hbusy.proper hsound₃.proper hkept) ?_) fun _ _ _ => hok
        obtain ⟨n, hn⟩ := hbusy.acc
        rwa [hn, free_mem_uses]
      · rw [run_bind_some hcomplete]
        exact iff_of_false (fun h => connectError_removed hfree o.stale h.proper) fun h => hfail (h hno rfl hc)

lemma connectAgain_self (hbase : k.reg.serverBase = some s) (hnext : k.reg.next s = some s) (hfree : .free s ∈ k.acc) :
    ¬ Proper [] (connectAgain o k).2.acc := by
  intro hproper
  have hfind := findServer_run k o.hasSignature
  rw [hbase, visited] at hfind
  cases hsig : o.hasSignature s with
  | true =>
    rw [search, if_pos hsig] at hfind
    rw [connectAgain, run_bind_some hfind] at hproper
    exact hproper.left.not_freed.2 hfree
  | false =>
    rw [search_self hnext hsig] at hfind
    rw [connectAgain, run_bind_none hfind] at hproper
    exact hproper.not_freed.2 hfree

lemma afterStatus_failed (hbase : k.reg.serverBase = some s) {ret : Int} (hret : ret < 0) :
    afterStatus o s ret k = (some none, unlinked k s) := by
  rw [afterStatus, if_pos hret, run_bind_some (loggedRemove_front hbase)]
  rfl

lemma afterStatus_known (hbase : k.reg.serverBase = some s) {ret : Int} (hret : ¬ ret < 0) :
    afterStatus o s ret k = connectAgain o (unlinked (disconnected k s) s) := by
  rw [afterStatus, if_neg hret]
  exact run_bind_some (loggedRemove_front (disconnected_busy hbase).base)

lemma afterStatus_self (hbase : k.reg.serverBase = some s) (hnext : k.reg.next s = some s) (hs : made ≤ s) (ret : Int) :
    ¬ ReleasedOnce made (afterStatus o s ret k) := by
  intro h
  by_cases hret : ret < 0
  · rw [afterStatus_failed hbase hret] at h
    refine h.gone rfl s hs ?_
    show Reaches (loopDisconnect _ _).next (loopDisconnect _ _).serverBase s
    rw [loopDisconnect_serverBase, hnext]
    exact .here s
  · rw [afterStatus_known hbase hret] at h
    refine connectAgain_self ?_ ?_ (free_mem_unlinked ..) h.proper
    · show (loopDisconnect _ _).serverBase = some s
      rw [loopDisconnect_serverBase]
      exact (congrFun (disconnected_next k s) s).trans hnext
    · show (loopDisconnect _ _).next s = some s
      rw [loopDisconnect_next]
      exact (congrFun (disconnected_next k s) s).trans hnext

lemma afterStatus_iff (h : Sound k (s :: xs)) (hxs : ∀ a ∈ xs, a < made) (ret : Int) :
    ReleasedOnce made (afterStatus o s ret k) ↔ (0 ≤ ret → (∀ s ∈ xs, o.hasSignature s = false) → o.server = true →
      o.second.connected = true → o.Completes) := by
  have hbase := h.chain.head_eq
  by_cases hret : ret < 0
  · rw [afterStatus_failed hbase hret]
    exact iff_of_true ((unlinked_sound h).releasedOnce hxs _) fun hret' => absurd hret (Int.not_lt.mpr hret')
  · have hsound := (disconnected_busy hbase).sound h (disconnected_next k s)
    rw [afterStatus_known hbase hret, connectAgain_iff (unlinked_sound hsound) hxs]
    exact ⟨fun h _ => h, fun h => h (Int.not_lt.mp hret)⟩

end Connect

/-- Every server is released once if and only if no reconnection succeeds while the first one is asked for its status, and
the connection of the second one, once it is there, is completed. -/
theorem released_once_iff {r : Registry} {xs : List Nat} {made : Nat} (hlist : Chain r.next r.serverBase xs)
    (hmade : ∀ s ∈ xs, s < made) (o : Outcomes) :
    ReleasedOnce made (afpServerFullConnect o ⟨r, made, []⟩) ↔
      (o.StatusReached xs → ¬ o.getstatus.Reconnects) ∧ (o.CompletionReached xs → o.Completes) := by
  have hsound : Sound ⟨r, made, []⟩ xs := ⟨hlist, hmade, trivial, nofun⟩
  have hearly (h : ¬ o.StatusReached xs) :
      (o.StatusReached xs → ¬ o.getstatus.Reconnects) ∧ (o.CompletionReached xs → o.Completes) :=
    ⟨fun h' => absurd h' h, fun h' => absurd h'.toStatusReached h⟩
  rw [afpServerFullConnect]
  cases haddress : o.address with
  | false => exact iff_of_true (hsound.releasedOnce hmade _) (hearly fun h => nomatch haddress.symm.trans h.address)
  | true =>
  obtain ⟨k₁, hfind, hsound₁, hmade₁⟩ := findServer_sound hsound o.hasAddress
  rw [if_neg (by decide), run_bind_some hfind]
  cases hfound : xs.find? o.hasAddress with
  | some s =>
    have hs : s ∈ xs := List.mem_of_find?_eq_some hfound
    refine iff_of_true (haveServer_releasedOnce hsound₁.proper (hsound₁.kept hs)) (hearly fun h => ?_)
    cases (h.unknown s hs).symm.trans (List.find?_some hfound)
  | none =>
  have hno : ∀ s ∈ xs, o.hasAddress s = false := fun s hs => Bool.eq_false_iff.mpr (List.find?_eq_none.mp hfound s hs)
  dsimp only
  cases htmp : o.tmpserver with
  | false => exact iff_of_true (hsound₁.releasedOnce hmade _) (hearly fun h => nomatch htmp.symm.trans h.tmpserver)
  | true =>
  obtain ⟨k₂, hinit, hsound₂, hloose, -⟩ := loggedInit_sound hsound₁
  rw [if_neg (by decide), run_bind_some hinit]
  by_cases hc : o.first.connected
  case neg =>
    obtain ⟨hsound₃, hloose₃⟩ := linked_failed hsound₂ hloose hc
    obtain ⟨k₄, hremove, hsound₄⟩ := loggedRemove_loose hsound₃ hloose₃
    have hneg : -o.first.errno < 0 := Int.neg_neg_of_pos o.first.errno_pos
    rw [run_bind_some (loggedConnect_failed hc _), afterStatus, if_pos hneg, run_bind_some hremove]
    exact iff_of_true (hsound₄.releasedOnce hmade _) (hearly fun h => hc h.connected)
  case pos =>
  have hsound₃ := linked_connected hsound₂ hloose hc
  have hreached : o.StatusReached xs := ⟨haddress, hno, htmp, hc⟩
  obtain ⟨k₄, hrequest, hbusy, hkeep, hself⟩ := request_run hsound₃.chain.head_eq o.getstatus
  rw [run_bind_some (loggedConnect_full hc hrequest)]
  by_cases hrec : o.getstatus.Reconnects
  · have hnew : made ≤ k₁.made := Nat.le_of_eq hmade₁.symm
    exact iff_of_false (afterStatus_self hbusy.base (hself hrec) hnew _) fun h => h.1 hreached hrec
  · rw [afterStatus_iff (hbusy.sound hsound₃ (hkeep hrec)) hmade]
    constructor
    · exact fun h => ⟨fun _ => hrec, fun h' => h (Int.neg_nonneg_of_nonpos h'.status) h'.unsigned h'.server h'.again⟩
    · exact fun h hret hsig hserver hc' => h.2 ⟨hreached, Int.nonpos_of_neg_nonneg hret, hsig, hserver, hc'⟩

def smoothOutcomes : Outcomes where
  address := true
  hasAddress _ := false
  tmpserver := true
  first := answers 3
  getstatus := ⟨[], 0⟩
  hasSignature _ := false
  server := true
  second := answers 3
  opensession := ⟨[], 0⟩
  version := some 32
  uam := 1
  login := ⟨[], 0⟩
  getsrvrparms := ⟨[], 0⟩
  getsrvrmsg := ⟨[], 0⟩
  stale := false

theorem released_once_smooth :
    ReleasedOnce 0 (afpServerFullConnect smoothOutcomes ⟨World.start.reg, 0, []⟩) ∧
      (afpServerFullConnect smoothOutcomes ⟨World.start.reg, 0, []⟩).1 = some (some 1) := by
  have hno : ¬ smoothOutcomes.getstatus.Reconnects := by
    rintro ⟨a, ha, -⟩
    cases ha
  refine ⟨(released_once_iff World.start_listed.1 (List.forall_mem_nil _) smoothOutcomes).mpr ⟨fun _ => hno, fun _ => ?_⟩,
    by decide +kernel⟩
  exact ⟨by decide, by decide, rfl, rfl⟩

/-- With a wrong password the second server is removed twice. When the status comes over a reconnection, and with an error, the
first server is in the list after its removal. -/
theorem released_once_wrong_password :
    let out := afpServerFullConnect { smoothOutcomes with login := ⟨[], 1⟩ } ⟨World.start.reg, 0, []⟩
    let out' := afpServerFullConnect { smoothOutcomes with getstatus := ⟨[(answers 3, 0)], 5⟩ } ⟨World.start.reg, 0, []⟩
    (out.1 = some none ∧ out.2.acc.count (.free 1) = 2) ∧
      (out'.1 = some none ∧ .free 0 ∈ out'.2.acc ∧ out'.2.reg.serverBase = some 0) := by
  decide +kernel

end AfpfsNg.Afp.Servers
