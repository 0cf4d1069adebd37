import Mathlib.Data.List.Nodup
import Mathlib.Logic.Function.Basic
import AfpfsNg.Base.Runs
import AfpfsNg.Dsi.Recv

/-!
# Request ids under concurrency

`dsi_setup_header` and `dsi_send` (`lib/dsi.c`) as several threads interleave them. Only the assignment
of `lastrequestid` is protected by `requestid_mutex`: the id that goes into the header and the id that
goes into the queue are read from `lastrequestid` again, each at a time of its own. The answer to a
tickle (`dsi_incoming_tickle`) is one caller among the others.

`Session.step` is one atomic step of one caller. `Agrees` is what the protocol needs: the queued id is
the id on the wire, ids are distinct, and a reply finds the request of the caller that waits for it.
-/

namespace AfpfsNg.Dsi
open AfpfsNg.Base

/-- How far a caller is: before `dsi_setup_header`, after the assignment, with a header of the given
`requestid`, with its request queued at an address, with the message written, or with a reply to it
received. -/
inductive Phase where
  | idle
  | assigned
  | headed (id : Nat)
  | queued (id addr : Nat)
  | sent (id addr : Nat)
  | replied (id addr : Nat)
  deriving DecidableEq, Repr

/-- A queued request, together with the `requestid` in the header of the message it was queued for. The
code keeps no such record. -/
structure Outstanding where
  request : Request
  carried : Nat
  deriving DecidableEq, Repr

/-- What the callers share, and how far each of them is. -/
structure Session where
  lastrequestid : Nat
  outstanding : List Outstanding
  sendMutexLocked : Bool
  phase : Nat → Phase

/-- C `server->command_requests`. -/
def Session.queue (s : Session) : List Request := s.outstanding.map Outstanding.request

def Session.start (lastrequestid : Nat) : Session := ⟨lastrequestid, [], false, fun _ => .idle⟩

/-- The atomic steps of caller `i`, and the reply to its message. -/
inductive Action where
  /-- `dsi_setup_header`, inside `requestid_mutex` -/
  | assign (i : Nat)
  /-- `dsi_setup_header`, the header's `requestid` -/
  | header (i : Nat)
  /-- `dsi_send`, without a connection: it returns before it queues anything -/
  | refuse (i : Nat)
  /-- `dsi_send`, up to the end of `request_queue_mutex` -/
  | enqueue (i subcommand : Nat) (wait : Int) (other : Option RxBuffer)
  /-- `dsi_send`, a successful `write` -/
  | write (i : Nat)
  /-- `dsi_send`, a `write` on a broken connection: it returns with the request queued and `send_mutex`
  locked -/
  | fail (i : Nat)
  /-- `dsi_recv`, a reply with the `requestid` of the message -/
  | reply (i : Nat)
  /-- `dsi_send`, from `out:` on -/
  | finish (i : Nat)

def Session.goto (s : Session) (i : Nat) (p : Phase) : Session :=
  { s with phase := Function.update s.phase i p }

def Session.remove (s : Session) (a : Nat) : Session :=
  { s with outstanding := s.outstanding.eraseP (·.request.addr == a) }

def Session.signal (s : Session) (a : Nat) : Session :=
  { s with outstanding := s.outstanding.map fun o =>
      if o.request.addr = a then { o with request := o.request.completed } else o }

/-- What `dsi_recv` does to the queue on a reply with the given id. -/
def Session.receive (s : Session) (id : Nat) : Session :=
  match dsiFindRequest s.queue id with
  | none => s
  | some r => if r.wait ≠ 0 then s.signal r.addr else s.remove r.addr

/-- One step, if the caller is that far. -/
def Session.step (s : Session) : Action → Option Session
  | .assign i =>
    match s.phase i with
    | .idle => some ({ s with lastrequestid := nextRequestid s.lastrequestid }.goto i .assigned)
    | _ => none
  | .header i =>
    match s.phase i with
    | .assigned => some (s.goto i (.headed s.lastrequestid))
    | _ => none
  | .refuse i =>
    match s.phase i with
    | .headed _ => some (s.goto i .idle)
    | _ => none
  | .enqueue i subcommand wait other =>
    match s.phase i with
    | .headed id =>
      let r : Request :=
        { addr := freshAddr s.queue, requestid := s.lastrequestid, subcommand := subcommand,
          other := other, wait := wait, doneWaiting := false, signals := 0, returnCode := 0 }
      some (({ s with outstanding := s.outstanding ++ [⟨r, id⟩] } : Session).goto i (.queued id r.addr))
    | _ => none
  | .write i =>
    match s.phase i, s.sendMutexLocked with
    | .queued id a, false => some (s.goto i (.sent id a))
    | _, _ => none
  | .fail i =>
    match s.phase i, s.sendMutexLocked with
    | .queued _ _, false => some ({ s with sendMutexLocked := true }.goto i .idle)
    | _, _ => none
  | .reply i =>
    match s.phase i with
    | .sent id a => some ((s.receive id).goto i (.replied id a))
    | _ => none
  | .finish i =>
    match s.phase i with
    | .queued _ a | .sent _ a | .replied _ a => some ((s.remove a).goto i .idle)
    | _ => none

/-- The caller has an id but is not queued yet. -/
def Phase.busy : Phase → Bool
  | .assigned | .headed _ => true
  | _ => false

/-- The id in the header and the address of the request of a caller that is queued. -/
def Phase.holds : Phase → Option (Nat × Nat)
  | .queued id a | .sent id a | .replied id a => some (id, a)
  | _ => none

/-- Queued ids are the ids on the wire, they are distinct, and a reply with the id of a message that was
sent finds the request of its sender. -/
structure Agrees (s : Session) : Prop where
  carried : ∀ o ∈ s.outstanding, o.request.requestid = o.carried
  distinct : (s.queue.map Request.requestid).Nodup
  delivered : ∀ i id a, s.phase i = .sent id a →
    ∃ r, dsiFindRequest s.queue id = some r ∧ r.addr = a

/-- An id is assigned only while no other caller is on its way to the queue and no queued request has it, and a reply comes
only for a request that waits. -/
def Session.Orderly (s : Session) : Action → Prop
  | .assign i => (∀ j, j ≠ i → (s.phase j).busy = false) ∧
      ∀ r ∈ s.queue, r.requestid ≠ nextRequestid s.lastrequestid
  | .reply i => ∀ id a, s.phase i = .sent id a → ∀ r ∈ s.queue, r.requestid = id → r.wait ≠ 0
  | _ => True

structure SessionInv (s : Session) : Prop where
  carried : ∀ o ∈ s.outstanding, o.request.requestid = o.carried
  distinct : (s.outstanding.map (·.request.requestid)).Nodup
  addrs : (s.outstanding.map (·.request.addr)).Nodup
  mine : ∀ i id a, (s.phase i).holds = some (id, a) →
    ∃ o ∈ s.outstanding, o.request.addr = a ∧ o.carried = id
  owner : ∀ i j id id' a, (s.phase i).holds = some (id, a) → (s.phase j).holds = some (id', a) → i = j
  alone : ∀ i j, (s.phase i).busy = true → (s.phase j).busy = true → i = j
  unused : ∀ i, (s.phase i).busy = true → ∀ o ∈ s.outstanding, o.request.requestid ≠ s.lastrequestid
  headed : ∀ i id, s.phase i = .headed id → id = s.lastrequestid

lemma sessionInv_start (n : Nat) : SessionInv (Session.start n) := by
  constructor <;> simp [Session.start, Phase.holds, Phase.busy]

variable {s s' : Session} {i : Nat}

lemma SessionInv.goto {p} (h : SessionInv s)
    (hold : p.holds = none ∨ p.holds = (s.phase i).holds)
    (busy : p.busy = true → (∀ j, j ≠ i → (s.phase j).busy = false) ∧
      ∀ o ∈ s.outstanding, o.request.requestid ≠ s.lastrequestid)
    (headed : ∀ id, p = .headed id → id = s.lastrequestid) : SessionInv (s.goto i p) := by
  have hsame : ∀ j x, ((s.goto i p).phase j).holds = some x → (s.phase j).holds = some x := by
    intro j x hx
    rcases eq_or_ne j i with rfl | hj
    · simp only [Session.goto, Function.update_self] at hx
      rcases hold with hn | he
      · rw [hn] at hx
        cases hx
      · rw [← he, hx]
    · simpa [Session.goto, hj] using hx
  have hbusy : ∀ j, ((s.goto i p).phase j).busy = true → j ≠ i → (s.phase j).busy = true := by
    intro j hb hj
    simpa [Session.goto, hj] using hb
  refine ⟨h.carried, h.distinct, h.addrs, fun j id a hx => h.mine j id a (hsame j _ hx),
    fun j k id id' a hj hk => h.owner j k id id' a (hsame j _ hj) (hsame k _ hk), ?_, ?_, ?_⟩
  · intro j k hj hk
    by_contra hne
    rcases eq_or_ne j i with rfl | hji
    · have hb := (busy (by simpa [Session.goto] using hj)).1 k (Ne.symm hne)
      simp [hbusy k hk (Ne.symm hne)] at hb
    · rcases eq_or_ne k i with rfl | hki
      · have hb := (busy (by simpa [Session.goto] using hk)).1 j hji
        simp [hbusy j hj hji] at hb
      · exact hne (h.alone j k (hbusy j hj hji) (hbusy k hk hki))
  · intro j hj
    rcases eq_or_ne j i with rfl | hji
    · exact (busy (by simpa [Session.goto] using hj)).2
    · exact h.unused j (hbusy j hj hji)
  · intro j id hj
    rcases eq_or_ne j i with rfl | hji
    · exact headed id (by simpa [Session.goto] using hj)
    · exact h.headed j id (by simpa [Session.goto, hji] using hj)

lemma SessionInv.remove {a} (h : SessionInv s)
    (ha : ∀ j id, (s.phase j).holds ≠ some (id, a)) : SessionInv (s.remove a) := by
  have hsub : (s.remove a).outstanding.Sublist s.outstanding := List.eraseP_sublist
  refine ⟨fun o ho => h.carried o (hsub.subset ho), h.distinct.sublist (hsub.map _),
    h.addrs.sublist (hsub.map _), ?_, h.owner, h.alone,
    fun j hj o ho => h.unused j hj o (hsub.subset ho), h.headed⟩
  intro j id b hj
  obtain ⟨o, ho, hb, hid⟩ := h.mine j id b hj
  have hne : b ≠ a := fun hba => ha j id (hba ▸ hj)
  exact ⟨o, (List.mem_eraseP_of_neg (by simpa [hb] using hne)).mpr ho, hb, hid⟩

lemma SessionInv.signal {a} (h : SessionInv s) : SessionInv (s.signal a) := by
  let f (o : Outstanding) : Outstanding :=
    if o.request.addr = a then { o with request := o.request.completed } else o
  have hf : ∀ o, (f o).request.requestid = o.request.requestid ∧
      (f o).request.addr = o.request.addr ∧ (f o).carried = o.carried := by
    intro o
    simp only [f]
    split <;> exact ⟨rfl, rfl, rfl⟩
  have hmem : ∀ {o}, o ∈ (s.signal a).outstanding → ∃ o' ∈ s.outstanding, f o' = o :=
    fun ho => List.mem_map.mp ho
  refine ⟨?_, ?_, ?_, ?_, h.owner, h.alone, ?_, h.headed⟩
  · intro o ho
    obtain ⟨o', ho', rfl⟩ := hmem ho
    rw [(hf o').1, (hf o').2.2]
    exact h.carried o' ho'
  · have hids : (s.signal a).outstanding.map (·.request.requestid)
        = s.outstanding.map (·.request.requestid) := by
      simp only [Session.signal, List.map_map]
      exact List.map_congr_left fun o _ => (hf o).1
    rw [hids]
    exact h.distinct
  · have haddrs : (s.signal a).outstanding.map (·.request.addr)
        = s.outstanding.map (·.request.addr) := by
      simp only [Session.signal, List.map_map]
      exact List.map_congr_left fun o _ => (hf o).2.1
    rw [haddrs]
    exact h.addrs
  · intro j id b hj
    obtain ⟨o, ho, hb, hid⟩ := h.mine j id b hj
    exact ⟨f o, List.mem_map_of_mem ho, by rw [(hf o).2.1, hb], by rw [(hf o).2.2, hid]⟩
  · intro j hj o ho
    obtain ⟨o', ho', rfl⟩ := hmem ho
    rw [(hf o').1]
    exact h.unused j hj o' ho'

@[simp] lemma Session.receive_phase (s : Session) (id) : (s.receive id).phase = s.phase := by
  rw [Session.receive]
  split
  · rfl
  · split <;> rfl

lemma SessionInv.receive {id} (h : SessionInv s)
    (hw : ∀ r ∈ s.queue, r.requestid = id → r.wait ≠ 0) : SessionInv (s.receive id) := by
  rw [Session.receive]
  split
  · exact h
  case _ r hfind =>
    rw [if_pos (hw r (dsiFindRequest_mem hfind) (dsiFindRequest_requestid hfind))]
    exact h.signal

lemma SessionInv.assign {n} (h : SessionInv s) (hi : s.phase i = .idle)
    (hj : ∀ j, j ≠ i → (s.phase j).busy = false) (hn : ∀ r ∈ s.queue, r.requestid ≠ n) :
    SessionInv ({ s with lastrequestid := n }.goto i .assigned) := by
  have hnone : ∀ j, (s.phase j).busy = false := by
    intro j
    rcases eq_or_ne j i with rfl | hne
    · rw [hi]
      rfl
    · exact hj j hne
  have hlast : SessionInv { s with lastrequestid := n } := by
    refine ⟨h.carried, h.distinct, h.addrs, h.mine, h.owner, h.alone, ?_, ?_⟩
    · intro j hb
      simp [hnone j] at hb
    · intro j id hd
      have hb := hnone j
      simp only at hd
      simp [hd, Phase.busy] at hb
  refine hlast.goto (.inl rfl) (fun _ => ⟨hj, ?_⟩) (fun id hp => nomatch hp)
  intro o ho
  exact hn o.request (List.mem_map_of_mem ho)

lemma SessionInv.enqueue {id} {r : Request} (h : SessionInv s) (hi : s.phase i = .headed id)
    (hr : r.requestid = s.lastrequestid) (ha : r.addr = freshAddr s.queue) :
    SessionInv (({ s with outstanding := s.outstanding ++ [⟨r, id⟩] } : Session).goto i
      (.queued id r.addr)) := by
  have hbusy : (s.phase i).busy = true := by
    rw [hi]
    rfl
  have hlt : ∀ o ∈ s.outstanding, o.request.addr < r.addr := by
    intro o ho
    rw [ha]
    exact addr_lt_freshAddr (List.mem_map_of_mem ho)
  -- who else is queued was queued before, at an older address
  have hother : ∀ j id' a, j ≠ i → ((s.goto i (.queued id r.addr)).phase j).holds = some (id', a) →
      (s.phase j).holds = some (id', a) ∧ a ≠ r.addr := by
    intro j id' a hj hx
    have hx' : (s.phase j).holds = some (id', a) := by simpa [Session.goto, hj] using hx
    obtain ⟨o, ho, hoa, -⟩ := h.mine j id' a hx'
    exact ⟨hx', fun heq => absurd (hlt o ho) (by omega)⟩
  have hself : ∀ id' a, ((s.goto i (.queued id r.addr)).phase i).holds = some (id', a) →
      id' = id ∧ a = r.addr := by
    intro id' a hx
    simp only [Session.goto, Function.update_self, Phase.holds, Option.some.injEq,
      Prod.mk.injEq] at hx
    exact ⟨hx.1.symm, hx.2.symm⟩
  have hidle : ∀ j, ((s.goto i (.queued id r.addr)).phase j).busy ≠ true := by
    intro j hb
    rcases eq_or_ne j i with rfl | hj
    · simp [Session.goto, Phase.busy] at hb
    · have hb' : (s.phase j).busy = true := by simpa [Session.goto, hj] using hb
      exact hj (h.alone j i hb' hbusy)
  refine ⟨?_, ?_, ?_, ?_, ?_, fun j k hj => absurd hj (hidle j), fun j hj => absurd hj (hidle j), ?_⟩
  · intro o ho
    rcases List.mem_append.mp ho with ho | ho
    · exact h.carried o ho
    · rw [List.mem_singleton.mp ho]
      exact hr.trans (h.headed i id hi).symm
  · simp only [Session.goto, List.map_append, List.map_cons, List.map_nil]
    refine List.nodup_append.mpr ⟨h.distinct, List.nodup_singleton _, ?_⟩
    simp only [List.mem_map, List.mem_singleton, forall_eq, forall_exists_index, and_imp]
    rintro n o ho rfl
    rw [hr]
    exact h.unused i hbusy o ho
  · simp only [Session.goto, List.map_append, List.map_cons, List.map_nil]
    refine List.nodup_append.mpr ⟨h.addrs, List.nodup_singleton _, ?_⟩
    simp only [List.mem_map, List.mem_singleton, forall_eq, forall_exists_index, and_imp]
    rintro n o ho rfl
    exact Nat.ne_of_lt (hlt o ho)
  · intro j id' a hj
    rcases eq_or_ne j i with rfl | hne
    · obtain ⟨rfl, rfl⟩ := hself id' a hj
      exact ⟨⟨r, id'⟩, List.mem_append_right _ (List.mem_singleton_self _), rfl, rfl⟩
    · obtain ⟨o, ho, hoa, hid⟩ := h.mine j id' a (hother j id' a hne hj).1
      exact ⟨o, List.mem_append_left _ ho, hoa, hid⟩
  · intro j k id₁ id₂ a hj hk
    rcases eq_or_ne j i with rfl | hji
    · by_contra hne
      exact (hother k id₂ a (Ne.symm hne) hk).2 (hself id₁ a hj).2
    · rcases eq_or_ne k i with rfl | hki
      · exact absurd (hself id₂ a hk).2 (hother j id₁ a hji hj).2
      · exact h.owner j k id₁ id₂ a (hother j id₁ a hji hj).1 (hother k id₂ a hki hk).1
  · intro j id' hj
    exact absurd (congrArg Phase.busy hj) (hidle j)

lemma SessionInv.finish {id a} (h : SessionInv s) (hi : (s.phase i).holds = some (id, a)) :
    SessionInv ((s.remove a).goto i .idle) := by
  have hidle : SessionInv (s.goto i .idle) :=
    h.goto (.inl rfl) (fun hb => nomatch hb) (fun id hp => nomatch hp)
  have hfree : ∀ j id', ((s.goto i .idle).phase j).holds ≠ some (id', a) := by
    intro j id' hj
    rcases eq_or_ne j i with rfl | hne
    · simp [Session.goto, Phase.holds] at hj
    · exact hne (h.owner j i id' id a (by simpa [Session.goto, hne] using hj) hi)
  exact hidle.remove hfree

lemma SessionInv.step {act} (h : SessionInv s) (hok : s.Orderly act) (hs : s.step act = some s') :
    SessionInv s' := by
  cases act with
  | assign i =>
    simp only [Session.step] at hs
    split at hs <;> cases hs
    case _ hi => exact h.assign hi hok.1 hok.2
  | header i =>
    simp only [Session.step] at hs
    split at hs <;> cases hs
    case _ hi =>
      have hb : (s.phase i).busy = true := by
        rw [hi]
        rfl
      refine h.goto (.inl rfl) (fun _ => ⟨fun j hj => ?_, h.unused i hb⟩) (fun id hp => ?_)
      · by_contra hbj
        exact hj (h.alone j i (by simpa using hbj) hb)
      · cases hp
        rfl
  | refuse i =>
    simp only [Session.step] at hs
    split at hs <;> cases hs
    exact h.goto (.inl rfl) (fun hb => nomatch hb) (fun id hp => nomatch hp)
  | enqueue i subcommand wait other =>
    simp only [Session.step] at hs
    split at hs <;> cases hs
    case _ hi => exact h.enqueue hi rfl rfl
  | write i =>
    simp only [Session.step] at hs
    split at hs <;> cases hs
    case _ hi _ =>
      refine h.goto (.inr ?_) (fun hb => nomatch hb) (fun id hp => nomatch hp)
      rw [hi]
      rfl
  | fail i =>
    simp only [Session.step] at hs
    split at hs <;> cases hs
    have hlocked : SessionInv { s with sendMutexLocked := true } :=
      ⟨h.carried, h.distinct, h.addrs, h.mine, h.owner, h.alone, h.unused, h.headed⟩
    exact hlocked.goto (.inl rfl) (fun hb => nomatch hb) (fun id hp => nomatch hp)
  | reply i =>
    simp only [Session.step] at hs
    split at hs <;> cases hs
    case _ id a hi =>
      refine (h.receive (hok id a hi)).goto (.inr ?_) (fun hb => nomatch hb) (fun id hp => nomatch hp)
      rw [Session.receive_phase, hi]
      rfl
  | finish i =>
    simp only [Session.step] at hs
    split at hs <;> cases hs
    all_goals
      rename_i id a hi
      refine @SessionInv.finish s i id a h ?_
      rw [hi]
      rfl

lemma dsiFindRequest_of_mem {q : List Request} {r} (hnd : (q.map Request.requestid).Nodup)
    (hr : r ∈ q) : dsiFindRequest q r.requestid = some r := by
  cases hfind : dsiFindRequest q r.requestid with
  | none =>
    have hne := List.find?_eq_none.mp hfind r hr
    simp at hne
  | some x =>
    exact congrArg some (List.inj_on_of_nodup_map hnd (dsiFindRequest_mem hfind) hr
      (dsiFindRequest_requestid hfind))

lemma SessionInv.agrees (h : SessionInv s) : Agrees s := by
  have hdistinct : (s.queue.map Request.requestid).Nodup := by
    rw [Session.queue, List.map_map]
    exact h.distinct
  refine ⟨h.carried, hdistinct, fun i id a hi => ?_⟩
  obtain ⟨o, ho, hoa, hid⟩ := h.mine i id a (by rw [hi]; rfl)
  have hfind := dsiFindRequest_of_mem hdistinct (List.mem_map_of_mem ho)
  rw [h.carried o ho, hid] at hfind
  exact ⟨o.request, hfind, hoa⟩

/-- In every interleaving of orderly steps, whatever the number of callers, queued ids are the ids on
the wire, they are distinct, and a reply finds the request of the caller that sent the message. -/
theorem ids_agree {n acts s}
    (hrun : Run (fun s act s' => s.step act = some s') Session.Orderly (Session.start n) acts s) :
    Agrees s :=
  (hrun.inv (fun _ _ _ h hok hs => h.step hok hs) (sessionInv_start n)).agrees

def Session.steps (s : Session) (acts : List Action) : Option Session := acts.foldlM Session.step s

def twoCallers : List Action :=
  [.assign 0, .header 0, .enqueue 0 27 5 none, .write 0, .assign 1, .header 1, .enqueue 1 60 5 none,
    .write 1, .reply 0]

theorem ids_agree_two_callers : ∃ s, (Session.start 65534).steps twoCallers = some s ∧
    s.queue.map (fun r => (r.requestid, r.doneWaiting)) = [(65535, true), (0, false)] ∧ Agrees s := by
  refine ⟨_, rfl, by decide, @ids_agree 65534 twoCallers _ ?_⟩
  refine .cons ⟨fun _ _ => rfl, by decide⟩ rfl (.cons trivial rfl (.cons trivial rfl (.cons trivial rfl
    (.cons ⟨?_, by decide⟩ rfl (.cons trivial rfl (.cons trivial rfl (.cons trivial rfl
      (.cons ?_ rfl (.nil _)))))))))
  · intro j hj
    by_cases h : j = 0 <;> simp [Session.goto, Session.start, h, Phase.busy]
  · intro id a hsent
    cases hsent
    decide

/-- A second caller takes its id when the first has written its header but is not queued yet: the first request is queued
under the id of the second, the reply to it finds no request, and then both carry one id. -/
theorem ids_disagree : ∃ s,
    (Session.start 0).steps [.assign 0, .header 0, .assign 1, .enqueue 0 27 5 none, .write 0,
      .header 1, .enqueue 1 60 5 none, .write 1] = some s ∧
    s.outstanding.map (fun o => (o.request.requestid, o.carried)) = [(2, 1), (2, 2)] ∧
    dsiFindRequest s.queue 1 = none ∧ ¬ Agrees s := by
  refine ⟨_, rfl, by decide, by decide, fun h => ?_⟩
  have hd := h.distinct
  revert hd
  decide

end AfpfsNg.Dsi
