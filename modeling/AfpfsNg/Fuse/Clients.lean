import AfpfsNg.Base.Links
import Mathlib.Data.List.Induction
import Mathlib.Algebra.GroupWithZero.Nat

/-!
# The clients of the daemon

The daemon (`fuse/commands.c`) keeps its clients in a list, `client_base`. `fuse_add_client` hangs a new one behind the last,
and `remove_client` takes one out when its command is done. For the first client of the list it sets `client_base` to `NULL`
in place of the second client. A client is the number of its allocation.
-/

namespace AfpfsNg.Fuse
open AfpfsNg.Base

/-- The list of the daemon, with the two fields of `struct fuse_client` that it reads. -/
structure Daemon where
  /-- how many clients were allocated -/
  made : Nat
  fd : Nat → Int
  next : Nat → Option Nat
  clientBase : Option Nat

def Daemon.start : Daemon := ⟨0, fun _ => 0, fun _ => none, none⟩

/-- The loop of `remove_client`: `prev` when `toremove` is found, and `none` when it is not. -/
def removeLoop (next : Nat → Option Nat) (toremove : Nat) : Nat → Option Nat → Option Nat → Option (Option (Option Nat))
  | 0, _, _ => none
  | _ + 1, _, none => some none
  | n + 1, prev, some c => if c = toremove then some (some prev) else removeLoop next toremove n (some c) (next c)

def removeClient (d : Daemon) (toremove : Nat) : Option (Int × Daemon) :=
  (removeLoop d.next toremove (d.made + 1) none d.clientBase).map fun
    | none => (-1, d)
    | some none => (0, { d with clientBase := none })
    | some (some prev) => (0, { d with next := Function.update d.next prev (d.next toremove) })

/-- The loop of `fuse_add_client`, to the last client. -/
def lastLoop (next : Nat → Option Nat) : Nat → Nat → Option Nat
  | 0, _ => none
  | n + 1, c =>
    match next c with
    | none => some c
    | some c => lastLoop next n c

/-- C `fuse_add_client`; `malloc` says whether there is memory for the client. -/
def fuseAddClient (d : Daemon) (fd : Int) (malloc : Bool) : Option (Int × Daemon) :=
  if !malloc then some (-1, d)
  else
    let newc := d.made
    let next := Function.update d.next newc none
    let d' := { d with made := d.made + 1, fd := Function.update d.fd newc fd, next := next }
    match d.clientBase with
    | none => some (0, { d' with clientBase := some newc })
    | some c => (lastLoop next (d.made + 1) c).map fun c => (0, { d' with next := Function.update next c (some newc) })

/-- C `process_command`; `ret` is what `read` returns. -/
def processCommand (d : Daemon) (c : Nat) (ret : Int) : Option (Int × Daemon) :=
  if ret ≤ 0 then (removeClient { d with fd := Function.update d.fd c 0 } c).map fun r => (0, r.2)
  else some (0, d)

/-- The end of `process_command_thread`. -/
def processCommandThread (d : Daemon) (c : Nat) : Option Daemon :=
  if d.fd c = 0 then some d else (removeClient d c).map Prod.snd

def findClient (d : Daemon) (set : Int → Bool) : Option (Option Nat) :=
  search d.next (fun c => set (d.fd c)) (d.made + 1) d.clientBase

def fuseProcessClientFds (d : Daemon) (set : Int → Bool) (ret : Int) : Option (Int × Daemon) := do
  match ← findClient d set with
  | none => return (0, d)
  | some c =>
    let (result, d) ← processCommand d c ret
    return (if result < 0 then -1 else 1, d)

inductive ClientCall where
  | add (fd : Int) (malloc : Bool)
  | remove (c : Nat)

def Daemon.step (d : Daemon) : ClientCall → Option Daemon
  | .add fd malloc => (fuseAddClient d fd malloc).map Prod.snd
  | .remove c => (removeClient d c).map Prod.snd

def runCalls (calls : List ClientCall) : Option Daemon := calls.foldlM Daemon.step .start

/-- The clients that were added and not removed, with their descriptors, in the order of their arrival. -/
structure Pending where
  made : Nat
  clients : List (Nat × Int)

def Pending.step (p : Pending) : ClientCall → Pending
  | .add fd malloc => if malloc then ⟨p.made + 1, p.clients ++ [(p.made, fd)]⟩ else p
  | .remove c => { p with clients := p.clients.filter (·.1 ≠ c) }

def pending (calls : List ClientCall) : Pending := calls.foldl Pending.step ⟨0, []⟩

/-- `client_base` lists just these clients, and the search for a descriptor finds the first of them that has one. -/
structure Keeps (d : Daemon) (clients : List (Nat × Int)) : Prop where
  lists : Chain d.next d.clientBase (clients.map Prod.fst)
  finds : ∀ set, findClient d set = some ((clients.find? fun p => set p.2).map Prod.fst)

/-- After each of the calls the pending clients are in the list. -/
def KeepsClients (calls : List ClientCall) : Prop :=
  ∀ pre, pre <+: calls → ∃ d, runCalls pre = some d ∧ Keeps d (pending pre).clients

/-- One of the calls removes the first of several pending clients. -/
def RemovesFirst (calls : List ClientCall) : Prop :=
  ∃ pre c fd other rest, pre ++ [.remove c] <+: calls ∧ (pending pre).clients = (c, fd) :: other :: rest

section Loops
variable {next : Nat → Option Nat} {s prev : Option Nat} {xs pre post : List Nat} {a l n : Nat}

lemma removeLoop_not_mem (h : Chain next s xs) (ha : a ∉ xs) (hn : xs.length < n) :
    removeLoop next a n prev s = some none := by
  induction xs generalizing s n prev with
  | nil =>
    cases h
    obtain ⟨n, rfl⟩ := Nat.exists_eq_add_of_lt hn
    rfl
  | cons x xs ih =>
    obtain ⟨n, rfl⟩ := Nat.exists_eq_add_of_lt hn
    rw [List.mem_cons, not_or] at ha
    cases h with
    | cons h =>
      rw [removeLoop, if_neg (Ne.symm ha.1)]
      exact ih h ha.2 (Nat.lt_of_succ_lt_succ hn)

lemma removeLoop_mem (h : Chain next s (pre ++ a :: post)) (ha : a ∉ pre) (hn : pre.length < n) :
    removeLoop next a n prev s = some (some (pre.getLast?.or prev)) := by
  induction pre generalizing s n prev with
  | nil =>
    obtain ⟨n, rfl⟩ := Nat.exists_eq_add_of_lt hn
    cases h with
    | cons h => exact if_pos rfl
  | cons x pre ih =>
    obtain ⟨n, rfl⟩ := Nat.exists_eq_add_of_lt hn
    rw [List.mem_cons, not_or] at ha
    cases h with
    | cons h =>
      rw [removeLoop, if_neg (Ne.symm ha.1), ih h ha.2 (Nat.lt_of_succ_lt_succ hn), List.getLast?_cons]
      cases pre.getLast? with
      | none => rfl
      | some y => rfl

lemma lastLoop_chain (h : Chain next (some a) (pre ++ [l])) (hn : pre.length < n) : lastLoop next n a = some l := by
  induction pre generalizing a n with
  | nil =>
    obtain ⟨n, rfl⟩ := Nat.exists_eq_add_of_lt hn
    cases h with
    | cons h =>
      have hnext : next l = none := Chain.eq_head? h
      rw [lastLoop, hnext]
  | cons x pre ih =>
    obtain ⟨n, rfl⟩ := Nat.exists_eq_add_of_lt hn
    cases h with
    | cons h =>
      obtain ⟨b, hb⟩ : ∃ b, next x = some b := by
        have hhead := Chain.eq_head? h
        cases pre with
        | nil => exact ⟨_, hhead⟩
        | cons y pre => exact ⟨_, hhead⟩
      rw [lastLoop, hb]
      exact ih (hb ▸ h) (Nat.lt_of_succ_lt_succ hn)

end Loops

section Calls
variable {d d' : Daemon} {p : Pending} {xs : List Nat} {a : Nat}

lemma removeClient_chain (h : Chain d.next d.clientBase xs) (hmade : xs.length ≤ d.made)
    (hfirst : ∀ b rest, xs ≠ a :: b :: rest) :
    ∃ r next base, removeClient d a = some (r, { d with next := next, clientBase := base }) ∧
      Chain next base (xs.filter (· ≠ a)) := by
  by_cases ha : a ∈ xs
  · obtain ⟨pre, post, rfl, hpre⟩ := List.eq_append_cons_of_mem ha
    have hpost : a ∉ post := (List.nodup_cons.1 (List.nodup_append.1 h.nodup).2.1).1
    have hfilter : (pre ++ a :: post).filter (· ≠ a) = pre ++ post := by
      rw [List.filter_append, List.filter_cons_of_neg (by simp), List.filter_eq_self.2, List.filter_eq_self.2]
      · intro x hx
        exact decide_eq_true fun heq => hpost (heq ▸ hx)
      · intro x hx
        exact decide_eq_true fun heq => hpre (heq ▸ hx)
    have hlen : pre.length < d.made + 1 := by
      rw [List.length_append] at hmade
      omega
    rw [removeClient, removeLoop_mem h hpre hlen, hfilter, Option.or_none]
    cases pre using List.reverseRecOn with
    | nil =>
      -- the only client
      cases post with
      | nil => exact ⟨_, _, _, rfl, Chain.nil⟩
      | cons b rest => exact absurd rfl (hfirst b rest)
    | append_singleton pre l =>
      rw [List.append_assoc] at h
      rw [List.getLast?_concat, List.append_assoc]
      exact ⟨_, _, _, rfl, h.unlink⟩
  · rw [removeClient, removeLoop_not_mem h ha (Nat.lt_succ_of_le hmade)]
    refine ⟨_, _, _, rfl, ?_⟩
    rwa [List.filter_eq_self.2]
    intro x hx
    exact decide_eq_true fun heq => ha (heq ▸ hx)

lemma removeClient_first {b : Nat} {rest : List Nat} (h : Chain d.next d.clientBase (a :: b :: rest)) :
    removeClient d a = some (0, { d with clientBase := none }) := by
  rw [removeClient, removeLoop_mem h List.not_mem_nil (Nat.succ_pos _)]
  rfl

lemma fuseAddClient_chain (h : Chain d.next d.clientBase xs) (hmade : ∀ x ∈ xs, x < d.made) (fd : Int) :
    ∃ next base, fuseAddClient d fd true =
        some (0, { made := d.made + 1, fd := Function.update d.fd d.made fd, next := next, clientBase := base }) ∧
      Chain next base (xs ++ [d.made]) := by
  have hnew : d.made ∉ xs := fun hmem => Nat.lt_irrefl _ (hmade _ hmem)
  have hlen := h.length_le hmade
  have hchain := Segment.update (b := none) h hnew
  cases xs using List.reverseRecOn with
  | nil =>
    have hbase : d.clientBase = none := h.eq_head?
    rw [hbase] at h
    refine ⟨_, some d.made, ?_, h.push hnew⟩
    rw [fuseAddClient, hbase]
    rfl
  | append_singleton xs l =>
    obtain ⟨c, hbase⟩ : ∃ c, d.clientBase = some c := by
      have hhead := h.eq_head?
      cases xs with
      | nil => exact ⟨_, hhead⟩
      | cons x xs => exact ⟨_, hhead⟩
    rw [hbase] at h hchain
    rw [List.length_append, List.length_singleton] at hlen
    have hlast : lastLoop (Function.update d.next d.made none) (d.made + 1) c = some l :=
      lastLoop_chain hchain (by omega)
    have hne : d.made ≠ l := fun heq => hnew (heq ▸ List.mem_append_right xs (List.mem_singleton_self _))
    refine ⟨_, some c, ?_, h.concat hnew⟩
    rw [Function.update_comm hne.symm]
    simp [fuseAddClient, hbase, hlast]

end Calls

section Runs
variable {d d' : Daemon} {p : Pending} {calls : List ClientCall} {c : Nat}

/-- The daemon has just the pending clients in its list. -/
structure Fits (d : Daemon) (p : Pending) : Prop where
  made : d.made = p.made
  lists : Chain d.next d.clientBase (p.clients.map Prod.fst)
  fds : ∀ q ∈ p.clients, d.fd q.1 = q.2
  below : ∀ q ∈ p.clients, q.1 < p.made

lemma Fits.below_made (h : Fits d p) : ∀ a ∈ p.clients.map Prod.fst, a < d.made := by
  intro a ha
  obtain ⟨q, hq, rfl⟩ := List.mem_map.1 ha
  rw [h.made]
  exact h.below q hq

lemma Fits.length_le (h : Fits d p) : (p.clients.map Prod.fst).length ≤ d.made := h.lists.length_le h.below_made

lemma find?_fd {clients : List (Nat × Int)} (h : ∀ q ∈ clients, d.fd q.1 = q.2) (set : Int → Bool) :
    (clients.map Prod.fst).find? (fun c => set (d.fd c)) = (clients.find? fun q => set q.2).map Prod.fst := by
  induction clients with
  | nil => rfl
  | cons q clients ih =>
    rw [List.forall_mem_cons] at h
    rw [List.map_cons, List.find?_cons, List.find?_cons, h.1, ih h.2]
    cases set q.2 with
    | true => rfl
    | false => rfl

lemma Fits.keeps (h : Fits d p) : Keeps d p.clients := by
  refine ⟨h.lists, fun set => ?_⟩
  rw [findClient, h.lists.search_find (Nat.lt_succ_of_le h.length_le), find?_fd h.fds]

lemma Fits.add (h : Fits d p) (fd : Int) (malloc : Bool) :
    ∃ d', d.step (.add fd malloc) = some d' ∧ Fits d' (p.step (.add fd malloc)) := by
  cases malloc with
  | false => exact ⟨d, rfl, h⟩
  | true =>
    obtain ⟨next, base, hadd, hchain⟩ := fuseAddClient_chain h.lists h.below_made fd
    have hmem : ∀ q ∈ p.clients ++ [(p.made, fd)], q ∈ p.clients ∨ q = (p.made, fd) := by
      intro q hq
      rwa [List.mem_append, List.mem_singleton] at hq
    refine ⟨_, congrArg (Option.map Prod.snd) hadd, congrArg (· + 1) h.made, ?_, fun q hq => ?_, fun q hq => ?_⟩
    · rw [h.made] at hchain
      rwa [Pending.step, if_pos rfl, List.map_append]
    · obtain hq | rfl := hmem q hq
      · have hne : q.1 ≠ d.made := Nat.ne_of_lt (h.made ▸ h.below q hq)
        exact (Function.update_of_ne hne _ _).trans (h.fds q hq)
      · rw [h.made]
        exact Function.update_self ..
    · obtain hq | rfl := hmem q hq
      · exact Nat.lt_succ_of_lt (h.below q hq)
      · exact Nat.lt_succ_self _

lemma Fits.removeClient (h : Fits d p) (hfirst : ∀ fd other rest, p.clients ≠ (c, fd) :: other :: rest) (fd : Nat → Int)
    (hfd : ∀ a, a ≠ c → fd a = d.fd a) :
    ∃ r d', removeClient { d with fd := fd } c = some (r, d') ∧ Fits d' (p.step (.remove c)) := by
  have hfirst' : ∀ b rest, p.clients.map Prod.fst ≠ c :: b :: rest := by
    intro b rest hmap
    obtain ⟨⟨c, fd⟩, clients, hclients, rfl, hrest⟩ := List.map_eq_cons_iff.1 hmap
    obtain ⟨other, clients, rfl, -, -⟩ := List.map_eq_cons_iff.1 hrest
    exact hfirst fd other clients hclients
  obtain ⟨r, next, base, hremove, hchain⟩ := removeClient_chain (d := { d with fd := fd }) h.lists h.length_le hfirst'
  refine ⟨r, _, hremove, h.made, ?_, fun q hq => ?_, fun q hq => ?_⟩
  · rwa [List.filter_map] at hchain
  · obtain ⟨hq, hne⟩ := List.mem_filter.1 hq
    exact (hfd q.1 (of_decide_eq_true hne)).trans (h.fds q hq)
  · exact h.below q (List.mem_filter.1 hq).1

lemma Fits.remove (h : Fits d p) (hfirst : ∀ fd other rest, p.clients ≠ (c, fd) :: other :: rest) :
    ∃ d', d.step (.remove c) = some d' ∧ Fits d' (p.step (.remove c)) := by
  obtain ⟨r, d', hremove, hfits⟩ := h.removeClient hfirst d.fd fun _ _ => rfl
  exact ⟨d', congrArg (Option.map Prod.snd) hremove, hfits⟩

lemma Fits.processCommand (h : Fits d p) (hfirst : ∀ fd other rest, p.clients ≠ (c, fd) :: other :: rest) {ret : Int}
    (hret : ret ≤ 0) : ∃ d', processCommand d c ret = some (0, d') ∧ Fits d' (p.step (.remove c)) := by
  obtain ⟨r, d', hremove, hfits⟩ := h.removeClient hfirst (Function.update d.fd c 0)
    fun a ha => Function.update_of_ne ha ..
  refine ⟨d', ?_, hfits⟩
  rw [Fuse.processCommand, if_pos hret, hremove, Option.map_some]

lemma Fits.processCommandThread (h : Fits d p) (hfirst : ∀ fd other rest, p.clients ≠ (c, fd) :: other :: rest)
    (hfd : d.fd c ≠ 0) : ∃ d', processCommandThread d c = some d' ∧ Fits d' (p.step (.remove c)) := by
  rw [Fuse.processCommandThread, if_neg hfd]
  exact h.remove hfirst

lemma Fits.fuseProcessClientFds (h : Fits d p) {set : Int → Bool} {fd : Int}
    (hfind : p.clients.find? (fun q => set q.2) = some (c, fd))
    (hfirst : ∀ fd other rest, p.clients ≠ (c, fd) :: other :: rest) (ret : Int) :
    ∃ d', fuseProcessClientFds d set ret = some (1, d') ∧ Fits d' (if ret ≤ 0 then p.step (.remove c) else p) := by
  have hfound : findClient d set = some (some c) := by rw [h.keeps.finds, hfind, Option.map_some]
  by_cases hret : ret ≤ 0
  · obtain ⟨d', hprocess, hfits⟩ := h.processCommand hfirst hret
    refine ⟨d', ?_, by rwa [if_pos hret]⟩
    simp [Fuse.fuseProcessClientFds, hfound, hprocess]
  · refine ⟨d, ?_, by rwa [if_neg hret]⟩
    simp [Fuse.fuseProcessClientFds, hfound, Fuse.processCommand, hret]

lemma RemovesFirst.of_begin {pre : List ClientCall} (h : RemovesFirst pre) (hpre : pre <+: calls) : RemovesFirst calls := by
  obtain ⟨pre', c, fd, other, rest, hpre', hfirst⟩ := h
  exact ⟨pre', c, fd, other, rest, hpre'.trans hpre, hfirst⟩

lemma runCalls_concat (calls : List ClientCall) (call : ClientCall) :
    runCalls (calls ++ [call]) = (runCalls calls).bind (·.step call) := by
  simp [runCalls, List.foldlM_append]

lemma pending_concat (calls : List ClientCall) (call : ClientCall) :
    pending (calls ++ [call]) = (pending calls).step call := List.foldl_concat ..

lemma fits_of_not_removesFirst (h : ¬ RemovesFirst calls) : ∃ d, runCalls calls = some d ∧ Fits d (pending calls) := by
  induction calls using List.reverseRecOn with
  | nil => exact ⟨.start, rfl, rfl, Chain.nil, nofun, nofun⟩
  | append_singleton calls call ih =>
    obtain ⟨d, hrun, hfits⟩ := ih fun hfirst => h (hfirst.of_begin (List.prefix_append ..))
    have hstep : ∃ d', d.step call = some d' ∧ Fits d' ((pending calls).step call) := by
      cases call with
      | add fd malloc => exact hfits.add fd malloc
      | remove c => exact hfits.remove fun fd other rest hfirst => h ⟨calls, c, fd, other, rest, List.prefix_rfl, hfirst⟩
    obtain ⟨d', hstep, hfits⟩ := hstep
    refine ⟨d', ?_, ?_⟩
    · rw [runCalls_concat, hrun, Option.bind_some, hstep]
    · rwa [pending_concat]

lemma not_keepsClients (h : RemovesFirst calls) : ¬ KeepsClients calls := by
  obtain ⟨pre, c, fd, other, rest, hpre, hfirst⟩ := h
  intro hkeeps
  obtain ⟨d, hrun, hd⟩ := hkeeps pre ((List.prefix_append ..).trans hpre)
  obtain ⟨d', hrun', hd'⟩ := hkeeps _ hpre
  have hlists := hd.lists
  rw [hfirst] at hlists
  rw [runCalls_concat, hrun, Option.bind_some, Daemon.step, removeClient_first hlists] at hrun'
  obtain rfl := Option.some.inj hrun'
  -- the second client is another one, so it is pending
  have hne : other.1 ≠ c := by
    have hnodup := (List.nodup_cons.1 hlists.nodup).1
    exact fun heq => hnodup (heq ▸ List.mem_cons_self)
  have hmem : other ∈ (pending (pre ++ [.remove c])).clients := by
    rw [pending_concat, Pending.step, hfirst]
    exact List.mem_filter.2 ⟨List.mem_cons_of_mem _ List.mem_cons_self, decide_eq_true hne⟩
  have hempty := List.head?_eq_none_iff.1 hd'.lists.eq_head?.symm
  rw [List.map_eq_nil_iff.1 hempty] at hmem
  exact List.not_mem_nil hmem

end Runs

/-- The pending clients are in the list after each of the calls just if no call removes the first of several. -/
theorem clients_kept_iff (calls : List ClientCall) : KeepsClients calls ↔ ¬ RemovesFirst calls := by
  refine ⟨fun hkeeps h => not_keepsClients h hkeeps, fun h pre hpre => ?_⟩
  obtain ⟨d, hrun, hfits⟩ := fits_of_not_removesFirst fun hfirst => h (hfirst.of_begin hpre)
  exact ⟨d, hrun, hfits.keeps⟩

/-- Two clients, and the first one is done: the second one is pending, and the list is empty. -/
theorem clients_lost :
    (∃ d, runCalls [.add 4 true, .add 5 true, .remove 0] = some d ∧ d.clientBase = none) ∧
      (pending [.add 4 true, .add 5 true, .remove 0]).clients = [(1, 5)] ∧
      ¬ KeepsClients [.add 4 true, .add 5 true, .remove 0] := by
  refine ⟨⟨_, rfl, rfl⟩, rfl, not_keepsClients ?_⟩
  exact ⟨[.add 4 true, .add 5 true], 0, 4, (1, 5), [], List.prefix_rfl, rfl⟩

end AfpfsNg.Fuse
