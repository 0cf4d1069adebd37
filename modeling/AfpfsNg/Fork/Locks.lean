import AfpfsNg.Fork.Read

/-!
# Reads and writes under a lock

A range of a fork is locked, read or written, and unlocked. `Range.net` counts in a record of requests the locks
that were granted against the unlocks. A record is `Guarded` when no range is unlocked that was not locked, each
request for data stays within the range while that is locked, and nothing stays locked. `ll_handle_locking` gives up after
ten answers that the range is busy, but it returns 0 then, as for a lock that was granted.
-/

namespace AfpfsNg.Fork
open AfpfsNg.Base AfpfsNg.Afp AfpfsNg.Did

/-- A range of a fork, in the numbers of a request. -/
structure Range where
  ext : Bool
  forkid : Nat
  offset : Nat
  len : Nat
  deriving DecidableEq, Repr

namespace Range

def lock (R : Range) : Request := .byterangelock R.ext false R.forkid R.offset R.len

def unlock (R : Range) : Request := .byterangelock R.ext true R.forkid R.offset R.len

def Granted (R : Range) (x : Request × Reply) : Prop := x.1 = R.lock ∧ x.2.code = kFPNoErr

instance (R : Range) (x : Request × Reply) : Decidable (R.Granted x) := inferInstanceAs (Decidable (_ ∧ _))

def change (R : Range) (x : Request × Reply) : Int :=
  if R.Granted x then 1 else if x.1 = R.unlock then -1 else 0

def net (R : Range) (sent : List (Request × Reply)) : Int := (sent.map R.change).sum

/-- The request is for data in the range; a request for none is in every range. -/
def Contains (R : Range) : Request → Prop
  | .read _ forkid offset count => forkid = R.forkid ∧ R.offset ≤ offset ∧ offset + count ≤ R.offset + R.len
  | .write _ forkid offset data => forkid = R.forkid ∧ R.offset ≤ offset ∧ offset + data.length ≤ R.offset + R.len
  | _ => True

end Range

def Request.isData : Request → Bool
  | .read .. | .write .. => true
  | _ => false

/-- Data is asked for only while the range is locked, and each lock granted has its unlock. -/
structure Guarded (R : Range) (sent : List (Request × Reply)) : Prop where
  held : ∀ p, p <+: sent → 0 ≤ R.net p ∧ R.net p ≤ 1
  data : ∀ p x, p ++ [x] <+: sent → x.1.isData = true → R.Contains x.1 ∧ R.net p = 1
  released : R.net sent = 0

/-- The range that `ll_read` and `ll_write` lock. -/
def lockRange (v : Volume) (fp : FileHandle) (offset size : Nat) : Range :=
  ⟨ext v, fp.forkid, field v offset, field v size⟩

/-- A call that returned `ret` was guarded, and reported it when it got no lock. -/
def Protected {σ : Type} (R : Range) (k k' : Client σ) (ret : Int) : Prop :=
  ∃ sent, k'.sent = k.sent ++ sent ∧ Guarded R sent ∧ ((∀ x ∈ sent, ¬ R.Granted x) → ret < 0)

section Answers
variable {σ : Type} (P : Peer σ)

/-- The code of the answer number `n` to a request that is repeated. -/
def answers (r : Request) : σ → Nat → Int
  | s, 0 => (P.respond s r).1.code
  | s, n + 1 => answers r (P.respond s r).2 n

def Busy (code : Int) : Prop := code = kFPNoMoreLocks ∨ code = kFPLockErr

instance (code : Int) : Decidable (Busy code) := inferInstanceAs (Decidable (_ ∨ _))

/-- Some try is not answered by busy. -/
def Decided (R : Range) (s : σ) : Prop := ∃ n < maxLocktrycount, ¬ Busy (answers P R.lock s n)

/-- The first try that is not answered by busy is granted. -/
def Obtained (R : Range) (s : σ) : Prop :=
  ∃ n < maxLocktrycount, (∀ i < n, Busy (answers P R.lock s i)) ∧ answers P R.lock s n = kFPNoErr

end Answers

/-- The numbers of the chunks do not leave 32 bits in the older form of the requests. -/
def Unwrapped (v : Volume) (offset size : Nat) : Prop :=
  ¬ v.avNumber < 30 ∨ size < 2 ^ 32 ∧ ∀ t < size, v.txQuantum ∣ t → offset % 2 ^ 32 + t < 2 ^ 32

section Counting
variable {R : Range} {sent sent' : List (Request × Reply)} {x : Request × Reply}

@[simp] lemma net_nil : R.net [] = 0 := rfl

@[simp] lemma net_append : R.net (sent ++ sent') = R.net sent + R.net sent' := by
  rw [Range.net, List.map_append, List.sum_append]
  rfl

@[simp] lemma net_singleton : R.net [x] = R.change x := by
  rw [Range.net, List.map_singleton, List.sum_singleton]

lemma change_granted (h : R.Granted x) : R.change x = 1 := if_pos h

lemma lock_ne_unlock : R.lock ≠ R.unlock := by
  intro h
  cases h

lemma change_unlock (a : Reply) : R.change (R.unlock, a) = -1 := by
  rw [Range.change, if_neg fun h => lock_ne_unlock h.1.symm, if_pos rfl]

lemma change_other (h : ¬ R.Granted x) (hu : x.1 ≠ R.unlock) : R.change x = 0 := by
  rw [Range.change, if_neg h, if_neg hu]

lemma change_data (h : x.1.isData = true) : R.change x = 0 := by
  apply change_other
  · rintro ⟨hlock, -⟩
    rw [hlock] at h
    cases h
  · intro hunlock
    rw [hunlock] at h
    cases h

lemma net_of_unchanged (h : ∀ x ∈ sent, R.change x = 0) : R.net sent = 0 := by
  induction sent with
  | nil => rfl
  | cons x sent ih =>
    rw [show x :: sent = [x] ++ sent from rfl, net_append, net_singleton, h x (.head _),
      ih fun y hy => h y (.tail _ hy)]
    rfl

end Counting

/-- As `Guarded`, but with `n` locks held at the start and no word on how many are held at the end. -/
def Safe (R : Range) (n : Int) (sent : List (Request × Reply)) : Prop :=
  (∀ p, p <+: sent → 0 ≤ n + R.net p ∧ n + R.net p ≤ 1) ∧
    ∀ p x, p ++ [x] <+: sent → x.1.isData = true → R.Contains x.1 ∧ n + R.net p = 1

section Safe
variable {R : Range} {n : Int} {sent sent' : List (Request × Reply)} {x : Request × Reply}

lemma safe_nil (hn : n = 0 ∨ n = 1) : Safe R n [] := by
  constructor
  · intro p hp
    rw [List.prefix_nil.mp hp, net_nil]
    omega
  · intro p x hp _
    cases List.append_eq_nil_iff.mp (List.prefix_nil.mp hp) with
    | intro _ hx => cases hx

lemma safe_cons (hn : n = 0 ∨ n = 1) (hx : x.1.isData = true → R.Contains x.1 ∧ n = 1)
    (hs : Safe R (n + R.change x) sent) : Safe R n (x :: sent) := by
  obtain ⟨held, data⟩ := hs
  constructor
  · intro p hp
    cases p with
    | nil =>
      rw [net_nil]
      omega
    | cons y p =>
      obtain ⟨rfl, hp'⟩ := List.cons_prefix_cons.mp hp
      rw [show y :: p = [y] ++ p from rfl, net_append, net_singleton, ← Int.add_assoc]
      exact held p hp'
  · intro p y hp hy
    cases p with
    | nil =>
      obtain ⟨rfl, -⟩ := List.cons_prefix_cons.mp hp
      rw [net_nil, Int.add_zero]
      exact hx hy
    | cons z p =>
      obtain ⟨rfl, hp'⟩ := List.cons_prefix_cons.mp hp
      rw [show z :: p = [z] ++ p from rfl, net_append, net_singleton, ← Int.add_assoc]
      exact data p y hp' hy

lemma safe_append (hn : n = 0 ∨ n = 1) (hu : ∀ x ∈ sent, R.change x = 0)
    (hd : ∀ x ∈ sent, x.1.isData = true → R.Contains x.1 ∧ n = 1) (hs : Safe R n sent') :
    Safe R n (sent ++ sent') := by
  induction sent with
  | nil => exact hs
  | cons x sent ih =>
    apply safe_cons hn (hd x (.head _))
    rw [hu x (.head _), Int.add_zero]
    exact ih (fun y hy => hu y (.tail _ hy)) fun y hy => hd y (.tail _ hy)

lemma guarded_of_safe (hs : Safe R 0 sent) (hr : R.net sent = 0) : Guarded R sent where
  held p hp := by
    have := hs.1 p hp
    rwa [Int.zero_add] at this
  data p x hp hx := by
    have := hs.2 p x hp hx
    rwa [Int.zero_add] at this
  released := hr

def Refused (R : Range) (sent : List (Request × Reply)) : Prop :=
  ∀ x ∈ sent, x.1 = R.lock ∧ x.2.code ≠ kFPNoErr

lemma Refused.not_granted (h : Refused R sent) : ∀ x ∈ sent, ¬ R.Granted x :=
  fun x hx hg => (h x hx).2 hg.2

lemma Refused.unchanged (h : Refused R sent) : ∀ x ∈ sent, R.change x = 0 := by
  intro x hx
  apply change_other (h.not_granted x hx)
  rw [(h x hx).1]
  exact lock_ne_unlock

lemma Refused.no_data (h : Refused R sent) : ∀ x ∈ sent, x.1.isData = true → R.Contains x.1 ∧ n = 1 := by
  intro x hx hd
  rw [(h x hx).1] at hd
  cases hd

lemma Refused.guarded (h : Refused R sent) : Guarded R sent := by
  apply guarded_of_safe
  · rw [← List.append_nil sent]
    exact safe_append (.inl rfl) h.unchanged h.no_data (safe_nil (.inl rfl))
  · exact net_of_unchanged h.unchanged

/-- Refused tries, the lock, requests for data and the unlock. -/
def session (R : Range) (busy : List (Request × Reply)) (g : Reply) (datas : List (Request × Reply)) (u : Reply) :
    List (Request × Reply) :=
  busy ++ (R.lock, g) :: (datas ++ [(R.unlock, u)])

variable {busy datas : List (Request × Reply)} {g u : Reply}

lemma net_datas (hd : ∀ x ∈ datas, x.1.isData = true) : R.net datas = 0 :=
  net_of_unchanged fun x hx => change_data (hd x hx)

lemma net_session (hb : Refused R busy) (hg : g.code = kFPNoErr) (hd : ∀ x ∈ datas, x.1.isData = true) :
    R.net (session R busy g datas u) = 0 := by
  rw [session, net_append, net_of_unchanged hb.unchanged,
    show (R.lock, g) :: (datas ++ [(R.unlock, u)]) = [(R.lock, g)] ++ (datas ++ [(R.unlock, u)]) from rfl,
    net_append, net_append, net_singleton, net_singleton, net_datas hd, change_granted ⟨rfl, hg⟩, change_unlock]
  rfl

lemma session_guarded_iff (hb : Refused R busy) (hg : g.code = kFPNoErr) (hd : ∀ x ∈ datas, x.1.isData = true) :
    Guarded R (session R busy g datas u) ↔ ∀ x ∈ datas, R.Contains x.1 := by
  constructor
  · intro h x hx
    obtain ⟨l, r, rfl⟩ := List.append_of_mem hx
    refine (h.data (busy ++ (R.lock, g) :: l) x ⟨r ++ [(R.unlock, u)], ?_⟩ (hd x hx)).1
    simp [session]
  · intro h
    apply guarded_of_safe _ (net_session hb hg hd)
    apply safe_append (.inl rfl) hb.unchanged hb.no_data
    apply safe_cons (.inl rfl) (fun h => Bool.noConfusion h)
    rw [change_granted ⟨rfl, hg⟩, Int.zero_add]
    apply safe_append (.inr rfl)
    · exact fun x hx => change_data (hd x hx)
    · exact fun x hx _ => ⟨h x hx, rfl⟩
    · apply safe_cons (.inr rfl) (fun h => Bool.noConfusion h)
      rw [change_unlock]
      exact safe_nil (.inl rfl)

lemma unlock_without_lock (hb : Refused R busy) (hd : ∀ x ∈ datas, x.1.isData = true) :
    ¬ Guarded R (busy ++ (datas ++ [(R.unlock, u)])) := by
  intro h
  have hr := h.released
  rw [net_append, net_append, net_singleton, net_of_unchanged hb.unchanged, net_datas hd, change_unlock] at hr
  cases hr

lemma mem_session : (R.lock, g) ∈ session R busy g datas u := by
  apply List.mem_append_right
  exact .head _

end Safe

inductive LockEnds {σ : Type} (P : Peer σ) (R : Range) (s : σ) (tries : Nat) : Int → List (Request × Reply) → Prop
  | granted {busy g n} (hn : n < tries) (hbefore : ∀ i < n, Busy (answers P R.lock s i))
      (hgrant : answers P R.lock s n = kFPNoErr) (hb : Refused R busy) (hg : g.code = kFPNoErr) :
      LockEnds P R s tries 0 (busy ++ [(R.lock, g)])
  | refused {busy n} (hn : n < tries) (hbefore : ∀ i < n, Busy (answers P R.lock s i))
      (hbusy : ¬ Busy (answers P R.lock s n)) (hgrant : answers P R.lock s n ≠ kFPNoErr) (hb : Refused R busy) :
      LockEnds P R s tries (-1) busy
  | gaveUp {busy} (hall : ∀ i < tries, Busy (answers P R.lock s i)) (hb : Refused R busy) :
      LockEnds P R s tries 0 busy

lemma not_busy_noErr : ¬ Busy kFPNoErr := by decide

section Ends
variable {σ : Type} {P : Peer σ} {v : Volume} {R : Range} {s : σ} {tries : Nat} {sent : List (Request × Reply)}

lemma LockEnds.busy {rc : Int} (hbusy : Busy (P.respond s R.lock).1.code)
    (h : LockEnds P R (P.respond s R.lock).2 tries rc sent) :
    LockEnds P R s (tries + 1) rc ((R.lock, (P.respond s R.lock).1) :: sent) := by
  have hne : (P.respond s R.lock).1.code ≠ kFPNoErr := fun h0 => not_busy_noErr (h0 ▸ hbusy)
  have hshift : ∀ {n}, (∀ i < n, Busy (answers P R.lock (P.respond s R.lock).2 i)) →
      ∀ i < n + 1, Busy (answers P R.lock s i) := by
    intro n hbefore i hi
    cases i with
    | zero => exact hbusy
    | succ i => exact hbefore i (by omega)
  have hrefused : ∀ {busy}, Refused R busy → Refused R ((R.lock, (P.respond s R.lock).1) :: busy) := by
    intro busy hb x hx
    cases hx with
    | head => exact ⟨rfl, hne⟩
    | tail _ hx => exact hb x hx
  cases h with
  | granted hn hbefore hgrant hb hg =>
    exact .granted (Nat.succ_lt_succ hn) (hshift hbefore) hgrant (hrefused hb) hg
  | refused hn hbefore hbusy' hgrant hb =>
    exact .refused (Nat.succ_lt_succ hn) (hshift hbefore) hbusy' hgrant (hrefused hb)
  | gaveUp hall hb => exact .gaveUp (hshift hall) (hrefused hb)

lemma lockLoop_ends (fp : FileHandle) (offset size tries : Nat) (k : Client σ) :
    ∃ rc k' sent, lockLoop P v fp.forkid offset size tries k = (rc, k') ∧ k'.sent = k.sent ++ sent ∧
      LockEnds P (lockRange v fp offset size) k.peer tries rc sent := by
  induction tries generalizing k with
  | zero => exact ⟨0, k, [], rfl, (List.append_nil _).symm, .gaveUp nofun nofun⟩
  | succ tries ih =>
    let r := (lockRange v fp offset size).lock
    by_cases hgrant : (P.respond k.peer r).1.code = kFPNoErr
    · refine ⟨0, (k.call P r).2, [] ++ [(r, (P.respond k.peer r).1)], if_pos hgrant, rfl, ?_⟩
      exact .granted (Nat.succ_pos _) nofun hgrant nofun hgrant
    · by_cases hbusy : Busy (P.respond k.peer r).1.code
      · obtain ⟨rc, k', sent, hrun, hsent, hends⟩ := ih (k.call P r).2
        refine ⟨rc, k', (r, (P.respond k.peer r).1) :: sent, ?_, ?_, hends.busy hbusy⟩
        · exact ((if_neg hgrant).trans (if_pos hbusy)).trans hrun
        · rw [hsent]
          exact List.append_assoc _ [_] _
      · refine ⟨-1, (k.call P r).2, [(r, (P.respond k.peer r).1)], ?_, rfl, ?_⟩
        · exact (if_neg hgrant).trans (if_neg hbusy)
        · apply LockEnds.refused (Nat.succ_pos _) nofun hbusy hgrant
          intro x hx
          rw [List.mem_singleton.mp hx]
          exact ⟨rfl, hgrant⟩

lemma llHandleLocking_ends (P : Peer σ) (hv : v.noLocking = false) (fp : FileHandle) (offset size : Nat)
    (k : Client σ) :
    ∃ rc k' sent, llHandleLocking P v k fp.forkid offset size = (rc, k') ∧ k'.sent = k.sent ++ sent ∧
      LockEnds P (lockRange v fp offset size) k.peer maxLocktrycount rc sent := by
  rw [llHandleLocking, hv]
  exact lockLoop_ends fp offset size maxLocktrycount k

lemma llHandleUnlocking_sent (P : Peer σ) (hv : v.noLocking = false) (fp : FileHandle) (offset size : Nat)
    (k : Client σ) :
    ∃ rc k' u, llHandleUnlocking P v k fp.forkid offset size = (rc, k') ∧
      k'.sent = k.sent ++ [((lockRange v fp offset size).unlock, u)] := by
  rw [llHandleUnlocking, hv]
  exact ⟨_, _, _, rfl, rfl⟩

lemma llHandleLocking_locks (P : Peer σ) (v : Volume) (fp : FileHandle) (offset size : Nat) (k : Client σ) :
    ∃ rc k' sent, llHandleLocking P v k fp.forkid offset size = (rc, k') ∧ k'.sent = k.sent ++ sent ∧
      (rc = -1 ∨ rc = 0) ∧ ∀ x ∈ sent, x.1 = (lockRange v fp offset size).lock := by
  cases hv : v.noLocking with
  | true => exact ⟨0, k, [], if_pos hv, (List.append_nil _).symm, .inr rfl, nofun⟩
  | false =>
    obtain ⟨rc, k', sent, hrun, hsent, hends⟩ := llHandleLocking_ends P hv fp offset size k
    refine ⟨rc, k', sent, hrun, hsent, ?_⟩
    cases hends with
    | @granted busy g _ _ _ _ hb _ =>
      refine ⟨.inr rfl, fun x hx => ?_⟩
      rcases List.mem_append.mp hx with hx | hx
      · exact (hb x hx).1
      · rw [List.mem_singleton.mp hx]
    | refused _ _ _ _ hb => exact ⟨.inl rfl, fun x hx => (hb x hx).1⟩
    | gaveUp _ hb => exact ⟨.inr rfl, fun x hx => (hb x hx).1⟩

lemma llHandleUnlocking_unlocks (P : Peer σ) (v : Volume) (fp : FileHandle) (offset size : Nat) (k : Client σ) :
    ∃ rc k' sent, llHandleUnlocking P v k fp.forkid offset size = (rc, k') ∧ k'.sent = k.sent ++ sent ∧
      ∀ x ∈ sent, x.1 = (lockRange v fp offset size).unlock := by
  cases hv : v.noLocking with
  | true => exact ⟨0, k, [], if_pos hv, (List.append_nil _).symm, nofun⟩
  | false =>
    obtain ⟨rc, k', u, hrun, hsent⟩ := llHandleUnlocking_sent P hv fp offset size k
    refine ⟨rc, k', _, hrun, hsent, fun x hx => ?_⟩
    rw [List.mem_singleton.mp hx]

lemma LockEnds.result {rc : Int} (h : LockEnds P R s tries rc sent) : rc = -1 ∨ rc = 0 := by
  cases h with
  | refused => exact .inl rfl
  | granted => exact .inr rfl
  | gaveUp => exact .inr rfl

lemma LockEnds.not_obtained (h : LockEnds P R s tries (-1) sent) :
    ¬ ∃ n < tries, (∀ i < n, Busy (answers P R.lock s i)) ∧ answers P R.lock s n = kFPNoErr := by
  rintro ⟨m, hm, hbefore', hgrant'⟩
  cases h with
  | @refused _ n hn hbefore hbusy hgrant _ =>
    -- the two ends are at the same try
    rcases Nat.lt_trichotomy m n with h | rfl | h
    · exact not_busy_noErr (hgrant' ▸ hbefore m h)
    · exact hgrant hgrant'
    · exact hbusy (hbefore' n h)

lemma LockEnds.refused_sent (h : LockEnds P R s tries (-1) sent) : Refused R sent := by
  cases h with
  | refused _ _ _ _ hb => exact hb

lemma LockEnds.decided (h : LockEnds P R s tries (-1) sent) : ∃ n < tries, ¬ Busy (answers P R.lock s n) := by
  cases h with
  | refused hn _ hbusy _ _ => exact ⟨_, hn, hbusy⟩

lemma LockEnds.decided_iff (h : LockEnds P R s maxLocktrycount 0 sent) : Decided P R s ↔ Obtained P R s := by
  cases h with
  | granted hn hbefore hgrant _ _ =>
    exact ⟨fun _ => ⟨_, hn, hbefore, hgrant⟩, fun _ => ⟨_, hn, fun h => not_busy_noErr (hgrant ▸ h)⟩⟩
  | gaveUp hall _ =>
    constructor
    · rintro ⟨n, hn, hbusy⟩
      exact absurd (hall n hn) hbusy
    · rintro ⟨n, hn, -, hgrant⟩
      exact absurd (hgrant ▸ hall n hn) not_busy_noErr

variable {k k' : Client σ} {ret : Int}

lemma protected_refused_iff {busy : List (Request × Reply)} (hb : Refused R busy) (hk : k'.sent = k.sent ++ busy) :
    Protected R k k' ret ↔ ret < 0 := by
  constructor
  · rintro ⟨sent, hsent, -, hret⟩
    cases List.append_cancel_left (hsent.symm.trans hk)
    exact hret hb.not_granted
  · intro hret
    exact ⟨busy, hk, hb.guarded, fun _ => hret⟩

lemma protected_session_iff {datas : List (Request × Reply)} {u : Reply} (h : LockEnds P R s maxLocktrycount 0 sent)
    (hd : ∀ x ∈ datas, x.1.isData = true) (hk : k'.sent = k.sent ++ (sent ++ (datas ++ [(R.unlock, u)]))) (ret : Int) :
    Protected R k k' ret ↔ Obtained P R s ∧ ∀ x ∈ datas, R.Contains x.1 := by
  cases h with
  | granted hn hbefore hgrant hb hg =>
    rw [List.append_assoc] at hk
    have hob : Obtained P R s := ⟨_, hn, hbefore, hgrant⟩
    constructor
    · rintro ⟨sent, hsent, hguarded, -⟩
      rw [hsent, List.append_cancel_left_eq] at hk
      subst hk
      exact ⟨hob, (session_guarded_iff hb hg hd).mp hguarded⟩
    · rintro ⟨-, hin⟩
      refine ⟨_, hk, (session_guarded_iff hb hg hd).mpr hin, fun hnone => ?_⟩
      exact absurd ⟨rfl, hg⟩ (hnone _ mem_session)
  | gaveUp hall hb =>
    constructor
    · rintro ⟨sent, hsent, hguarded, -⟩
      rw [hsent, List.append_cancel_left_eq] at hk
      exact absurd (hk ▸ hguarded) (unlock_without_lock hb hd)
    · rintro ⟨⟨n, hn, -, hgrant⟩, -⟩
      exact absurd (hgrant ▸ hall n hn) not_busy_noErr

end Ends

section Reading
variable {σ : Type} {P : Peer σ} {v : Volume} {k : Client σ} {fp : FileHandle} {offset size : Nat}

lemma contains_read (a : Reply) :
    ∀ x ∈ [(Request.read (ext v) fp.forkid (field v offset) (field v size), a)],
      (lockRange v fp offset size).Contains x.1 := by
  intro x hx
  rw [List.mem_singleton.mp hx]
  exact ⟨rfl, Nat.le_refl _, Nat.le_refl _⟩

lemma store_reply (v : Volume) (a : Reply) {buf : Bytes} {pos : Nat} (hbuf : pos + size ≤ buf.length) :
    ∃ buf', store buf pos (a.data.take (min v.rxQuantum size)) = .ok buf' := by
  refine ⟨_, if_pos ?_⟩
  rw [List.length_take]
  omega

lemma llRead_locked {k₁ k₂ k₃ : Client σ} {buf buf' : Bytes} {pos : Nat} {a : Reply} {rc : Int}
    (hlock : llHandleLocking P v k fp.forkid offset size = (0, k₁))
    (hread : k₁.call P (.read (ext v) fp.forkid (field v offset) (field v size)) = (a, k₂))
    (hstore : store buf pos (a.data.take (min v.rxQuantum size)) = .ok buf')
    (hunlock : llHandleUnlocking P v k₂ fp.forkid offset size = (rc, k₃)) :
    ∃ ret eof, llRead P v k buf pos size offset fp = .ok ((ret, eof, buf'), k₃) := by
  simp only [llRead, hlock, hread, hstore, hunlock, Except.map, ne_eq, not_true, if_false]
  generalize (if ¬ rc = 0 then Afp.EIO else switch [(kFPAccessDenied, EACCES), (kFPLockErr, EBUSY),
    (kFPMiscErr, Afp.EIO), (kFPParamErr, Afp.EIO)] 0 a.code) = ret
  by_cases h : ret = 0
  · exact ⟨_, _, congrArg Except.ok (if_neg (not_not.mpr h))⟩
  · exact ⟨_, _, congrArg Except.ok (if_pos h)⟩

variable (P k offset) in
lemma llRead_cases (hv : v.noLocking = false) {buf : Bytes} {pos : Nat} (hbuf : pos + size ≤ buf.length) :
    ∃ ret eof buf' k', llRead P v k buf pos size offset fp = .ok ((ret, eof, buf'), k') ∧
      ((∃ busy, ret = -EBUSY ∧ k'.sent = k.sent ++ busy ∧
          LockEnds P (lockRange v fp offset size) k.peer maxLocktrycount (-1) busy) ∨
        ∃ sent a u, k'.sent = k.sent ++ (sent ++
            ([(Request.read (ext v) fp.forkid (field v offset) (field v size), a)] ++
              [((lockRange v fp offset size).unlock, u)])) ∧
          LockEnds P (lockRange v fp offset size) k.peer maxLocktrycount 0 sent) := by
  obtain ⟨rc, k₁, sent, hlock, hsent, hends⟩ := llHandleLocking_ends P hv fp offset size k
  rcases hends.result with rfl | rfl
  · refine ⟨-EBUSY, false, buf, k₁, ?_, .inl ⟨sent, rfl, hsent, hends⟩⟩
    rw [llRead, hlock]
    rfl
  · let r := Request.read (ext v) fp.forkid (field v offset) (field v size)
    obtain ⟨a, k₂, hread, hsent₂⟩ : ∃ a k₂, k₁.call P r = (a, k₂) ∧ k₂.sent = k₁.sent ++ [(r, a)] :=
      ⟨_, _, rfl, rfl⟩
    obtain ⟨buf', hstore⟩ := store_reply v a hbuf
    obtain ⟨rc, k₃, u, hunlock, hsent₃⟩ := llHandleUnlocking_sent P hv fp offset size k₂
    obtain ⟨ret, eof, hrun⟩ := llRead_locked hlock hread hstore hunlock
    refine ⟨ret, eof, buf', k₃, hrun, .inr ⟨sent, a, u, ?_, hends⟩⟩
    rw [hsent₃, hsent₂, hsent, List.append_assoc, List.append_assoc]

lemma llRead_protected_iff (hv : v.noLocking = false) {buf : Bytes} {pos : Nat} (hbuf : pos + size ≤ buf.length) :
    (∃ ret eof buf' k', llRead P v k buf pos size offset fp = .ok ((ret, eof, buf'), k') ∧
        Protected (lockRange v fp offset size) k k' ret) ↔
      Decided P (lockRange v fp offset size) k.peer := by
  obtain ⟨ret, eof, buf', k', hrun, hcases⟩ := llRead_cases P k offset hv hbuf
  have hdet : (∃ ret eof buf' k', llRead P v k buf pos size offset fp = .ok ((ret, eof, buf'), k') ∧
        Protected (lockRange v fp offset size) k k' ret) ↔ Protected (lockRange v fp offset size) k k' ret := by
    constructor
    · rintro ⟨_, _, _, _, hrun', hp⟩
      cases Except.ok.inj (hrun.symm.trans hrun')
      exact hp
    · exact fun hp => ⟨ret, eof, buf', k', hrun, hp⟩
  rw [hdet]
  rcases hcases with ⟨busy, rfl, hsent, hends⟩ | ⟨sent, a, u, hsent, hends⟩
  · rw [protected_refused_iff hends.refused_sent hsent]
    exact ⟨fun _ => hends.decided, fun _ => by decide⟩
  · rw [hends.decided_iff, protected_session_iff hends _ hsent]
    · exact ⟨And.left, fun h => ⟨h, contains_read a⟩⟩
    · intro x hx
      rw [List.mem_singleton.mp hx]
      rfl

end Reading

/-- The chunk at `t` is sent with numbers in the locked range. -/
def ChunkInRange (v : Volume) (offset size t : Nat) : Prop :=
  field v offset ≤ field v (offset + t) ∧
    field v (offset + t) + min (size - t) v.txQuantum ≤ field v offset + field v size

section Writing
variable {σ : Type} {P : Peer σ} {v : Volume} {k k₁ : Client σ} {fp : FileHandle} {offset t M size : Nat}
  {data : Bytes}

lemma contains_write {n : Nat} (hn : n = min (data.length - t) v.txQuantum) (ht : t < data.length) :
    (lockRange v fp offset data.length).Contains
        (.write (ext v) fp.forkid (field v (offset + t)) (slice data t n)) ↔
      ChunkInRange v offset data.length t := by
  subst hn
  show _ ∧ _ ∧ _ + (slice data t _).length ≤ _ ↔ _
  rw [slice_length (by omega)]
  exact ⟨And.right, fun h => ⟨rfl, h⟩⟩

lemma sizetowrite_eq (n q : Nat) : (if n < q then n else q) = min n q := by
  split
  · omega
  · omega

lemma writeLoop_sent (P : Peer σ) (offset : Nat) (hq : 0 < v.txQuantum) {fuel : Nat} (hfuel : data.length - t ≤ fuel)
    (ht : t < data.length → v.txQuantum ∣ t) (k : Client σ) :
    ∃ n k' sent, writeLoop P v fp.forkid offset data fuel t k = .ok (n, k') ∧ k'.sent = k.sent ++ sent ∧
      (∀ x ∈ sent, x.1.isData = true) ∧
      ((∀ x ∈ sent, (lockRange v fp offset data.length).Contains x.1) ↔
        ∀ s, t ≤ s → s < data.length → v.txQuantum ∣ s → ChunkInRange v offset data.length s) := by
  induction fuel generalizing t k with
  | zero =>
    have hend : ¬ t < data.length := by omega
    refine ⟨t, k, [], ?_, (List.append_nil _).symm, nofun, fun _ s hs hlt => by omega, fun _ => nofun⟩
    rw [writeLoop, if_neg hend]
  | succ fuel ih =>
    by_cases hlt : t < data.length
    · let n := min (data.length - t) v.txQuantum
      let r := Request.write (ext v) fp.forkid (field v (offset + t)) (slice data t n)
      have hnext : t + n < data.length → v.txQuantum ∣ t + n := by
        intro h
        have : n = v.txQuantum := by omega
        rw [this]
        exact Nat.dvd_add (ht hlt) (Nat.dvd_refl _)
      obtain ⟨m, k', sent, hrun, hsent, hdata, hin⟩ := ih (t := t + n) (by omega) hnext (k.call P r).2
      refine ⟨m, k', (r, (k.call P r).1) :: sent, ?_, ?_, ?_, ?_⟩
      · rw [writeLoop, if_pos hlt, sizetowrite_eq]
        exact hrun
      · rw [hsent]
        exact List.append_assoc _ [_] _
      · intro x hx
        cases hx with
        | head => rfl
        | tail _ hx => exact hdata x hx
      · rw [List.forall_mem_cons, hin, contains_write rfl hlt]
        constructor
        · rintro ⟨hfirst, hrest⟩ s hs hslt hdvd
          -- the next multiple of the chunk size after `t` is the next chunk
          by_cases heq : s = t
          · rw [heq]
            exact hfirst
          · apply hrest s _ hslt hdvd
            have := Nat.le_of_dvd (by omega) (Nat.dvd_sub hdvd (ht hlt))
            omega
        · intro hall
          exact ⟨hall t (Nat.le_refl t) hlt (ht hlt), fun s hs => hall s (by omega)⟩
    · refine ⟨t, k, [], ?_, (List.append_nil _).symm, nofun, fun _ s hs hslt => by omega, fun _ => nofun⟩
      rw [writeLoop, if_neg hlt]

lemma writeLoop_stuck (P : Peer σ) (fp : FileHandle) (offset : Nat) (hq : v.txQuantum = 0) (ht : t < data.length)
    (fuel : Nat) (k : Client σ) : writeLoop P v fp.forkid offset data fuel t k = .error .outOfFuel := by
  induction fuel generalizing k with
  | zero => rw [writeLoop, if_pos ht]
  | succ fuel ih =>
    rw [writeLoop, if_pos ht, sizetowrite_eq, hq, Nat.min_zero]
    exact ih _

lemma add_mod_of_lt (h : offset % M + t < M) : (offset + t) % M = offset % M + t := by
  rw [← Nat.mod_add_mod, Nat.mod_eq_of_lt h]

lemma add_mod_lt (offset : Nat) (ht : t < M) (h : M ≤ offset % M + t) : (offset + t) % M < offset % M := by
  have ho : offset % M < M := Nat.mod_lt _ (by omega)
  rw [← Nat.mod_add_mod, Nat.mod_eq_sub_mod h, Nat.mod_eq_of_lt (by omega)]
  omega

lemma chunk_start_lt {q : Nat} (hM : 0 < M)
    (hin : ∀ t, t < size → q ∣ t → offset % M ≤ (offset + t) % M ∧
      (offset + t) % M + min (size - t) q ≤ offset % M + size % M) (j : Nat) (hj : j * q < size) :
    offset % M + j * q < M := by
  have hs : size % M < M := Nat.mod_lt _ hM
  induction j with
  | zero =>
    rw [Nat.zero_mul]
    exact Nat.mod_lt _ hM
  | succ j ih =>
    rw [Nat.succ_mul] at hj ⊢
    have hstart := ih (by omega)
    have hbefore := (hin (j * q) (by omega) (Nat.dvd_mul_left ..)).2
    rw [add_mod_of_lt hstart, Nat.min_eq_right (by omega)] at hbefore
    by_contra hout
    have hlow : (offset + (j * q + q)) % M < offset % M := add_mod_lt offset (by omega) (by omega)
    have := (hin (j * q + q) hj ⟨j + 1, by rw [Nat.mul_succ, Nat.mul_comm]⟩).1
    omega

lemma size_lt_of_chunks {q : Nat} (hM : 0 < M) (hq : 0 < q)
    (hin : ∀ t, t < size → q ∣ t → offset % M ≤ (offset + t) % M ∧
      (offset + t) % M + min (size - t) q ≤ offset % M + size % M) :
    size < M := by
  rcases Nat.eq_zero_or_pos size with rfl | hpos
  · exact hM
  · have hj : (size - 1) / q * q < size := by
      have := Nat.div_mul_le_self (size - 1) q
      omega
    have hend : size - (size - 1) / q * q ≤ q := by
      have := Nat.lt_div_mul_add hq (a := size - 1)
      omega
    have hlast := (hin _ hj (Nat.dvd_mul_left ..)).2
    rw [add_mod_of_lt (chunk_start_lt hM hin _ hj), Nat.min_eq_left hend] at hlast
    have hs : size % M < M := Nat.mod_lt _ hM
    omega

lemma chunks_inRange_iff (hq : 0 < v.txQuantum) :
    (∀ t, t < size → v.txQuantum ∣ t → ChunkInRange v offset size t) ↔ Unwrapped v offset size := by
  by_cases hv : v.avNumber < 30
  · simp only [ChunkInRange, Unwrapped, field, hv, if_true, not_true, false_or]
    constructor
    · intro hin
      refine ⟨size_lt_of_chunks (Nat.two_pow_pos 32) hq hin, fun t ht hdvd => ?_⟩
      obtain ⟨j, rfl⟩ := hdvd
      rw [Nat.mul_comm] at ht ⊢
      exact chunk_start_lt (Nat.two_pow_pos 32) hin j ht
    · rintro ⟨hsize, hall⟩ t ht hdvd
      rw [add_mod_of_lt (hall t ht hdvd), Nat.mod_eq_of_lt hsize]
      omega
  · constructor
    · exact fun _ => .inl hv
    · intro _ t ht _
      simp only [ChunkInRange, field, if_neg hv]
      omega

lemma llWrite_refused (hlock : llHandleLocking P v k fp.forkid offset data.length = (-1, k₁)) :
    llWrite P v k data offset fp = .ok ((0, 0), k₁) := by
  rw [llWrite, hlock]
  rfl

lemma llWrite_locked {k₂ k₃ : Client σ} {n : Nat} {rc : Int}
    (hlock : llHandleLocking P v k fp.forkid offset data.length = (0, k₁))
    (hloop : writeLoop P v fp.forkid offset data data.length 0 k₁ = .ok (n, k₂))
    (hunlock : llHandleUnlocking P v k₂ fp.forkid offset data.length = (rc, k₃)) :
    llWrite P v k data offset fp = .ok ((0, n), k₃) := by
  simp only [llWrite, hlock, hloop, hunlock, Except.map, ne_eq, not_true, if_false]

lemma llWrite_stuck (hlock : llHandleLocking P v k fp.forkid offset data.length = (0, k₁))
    (hq : ¬ (data = [] ∨ 0 < v.txQuantum)) : llWrite P v k data offset fp = .error .outOfFuel := by
  obtain ⟨hne, hzero⟩ := not_or.mp hq
  have hloop := writeLoop_stuck P fp offset (Nat.eq_zero_of_not_pos hzero) (List.length_pos_of_ne_nil hne)
    data.length k₁
  simp only [llWrite, hlock, hloop, Except.map, ne_eq, not_true, if_false]

lemma writeLoop_whole (P : Peer σ) (offset : Nat) (h : data = [] ∨ 0 < v.txQuantum) (k : Client σ) :
    ∃ n k' sent, writeLoop P v fp.forkid offset data data.length 0 k = .ok (n, k') ∧ k'.sent = k.sent ++ sent ∧
      (∀ x ∈ sent, x.1.isData = true) ∧
      ((∀ x ∈ sent, (lockRange v fp offset data.length).Contains x.1) ↔ Unwrapped v offset data.length) := by
  rcases h with rfl | hq
  · refine ⟨0, k, [], rfl, (List.append_nil _).symm, nofun, fun _ => .inr ⟨by decide, nofun⟩, fun _ => nofun⟩
  · obtain ⟨n, k', sent, hrun, hsent, hdata, hin⟩ :=
      writeLoop_sent P offset hq (Nat.le_refl _) (fun _ => Nat.dvd_zero _) k
    refine ⟨n, k', sent, hrun, hsent, hdata, hin.trans (Iff.trans ?_ (chunks_inRange_iff hq))⟩
    exact ⟨fun h t => h t (Nat.zero_le t), fun h t _ => h t⟩

lemma llWrite_protected_iff (hv : v.noLocking = false) :
    (∃ ret n k', llWrite P v k data offset fp = .ok ((ret, n), k') ∧
        Protected (lockRange v fp offset data.length) k k' ret) ↔
      Obtained P (lockRange v fp offset data.length) k.peer ∧ (data = [] ∨ 0 < v.txQuantum) ∧
        Unwrapped v offset data.length := by
  obtain ⟨rc, k₁, sent, hlock, hsent, hends⟩ := llHandleLocking_ends P hv fp offset data.length k
  rcases hends.result with rfl | rfl
  · constructor
    · rintro ⟨ret, n, k', hrun, hp⟩
      cases Except.ok.inj ((llWrite_refused hlock).symm.trans hrun)
      cases (protected_refused_iff hends.refused_sent hsent).mp hp
    · exact fun h => absurd h.1 hends.not_obtained
  · by_cases hq : data = [] ∨ 0 < v.txQuantum
    · obtain ⟨n, k₂, datas, hloop, hsent₂, hdata, hin⟩ := writeLoop_whole P offset hq k₁
      obtain ⟨rc, k₃, u, hunlock, hsent₃⟩ := llHandleUnlocking_sent P hv fp offset data.length k₂
      rw [hsent₂, hsent, List.append_assoc, List.append_assoc] at hsent₃
      have hiff := protected_session_iff hends hdata hsent₃ 0
      constructor
      · rintro ⟨ret, n, k', hrun, hp⟩
        cases Except.ok.inj ((llWrite_locked hlock hloop hunlock).symm.trans hrun)
        exact ⟨(hiff.mp hp).1, hq, hin.mp (hiff.mp hp).2⟩
      · rintro ⟨hob, -, hun⟩
        exact ⟨0, n, k₃, llWrite_locked hlock hloop hunlock, hiff.mpr ⟨hob, hin.mpr hun⟩⟩
    · constructor
      · rintro ⟨ret, n, k', hrun, -⟩
        cases (llWrite_stuck hlock hq).symm.trans hrun
      · exact fun h => absurd h.2.1 hq

end Writing

/-- On a volume with locks, `ll_read` is protected unless each of the ten tries is answered with `kFPNoMoreLocks` or
`kFPLockErr`. `ll_write` is protected only if the lock is granted, and if its chunks end and stay in the locked range. -/
theorem locks_protect_iff {σ : Type} (P : Peer σ) (v : Volume) (hv : v.noLocking = false) (k : Client σ)
    (fp : FileHandle) (offset : Nat) :
    (∀ buf pos size, pos + size ≤ buf.length →
      ((∃ ret eof buf' k', llRead P v k buf pos size offset fp = .ok ((ret, eof, buf'), k') ∧
          Protected (lockRange v fp offset size) k k' ret) ↔
        Decided P (lockRange v fp offset size) k.peer)) ∧
    ∀ data : Bytes,
      (∃ ret n k', llWrite P v k data offset fp = .ok ((ret, n), k') ∧
          Protected (lockRange v fp offset data.length) k k' ret) ↔
        Obtained P (lockRange v fp offset data.length) k.peer ∧ (data = [] ∨ 0 < v.txQuantum) ∧
          Unwrapped v offset data.length :=
  ⟨fun _ _ _ hbuf => llRead_protected_iff hv hbuf, fun _ => llWrite_protected_iff hv⟩

def lockPeer (code : Int) : Peer Unit where
  query _ _ _ := none
  respond s
    | .byterangelock _ false _ _ _ => (⟨code, 0, [], 0⟩, s)
    | _ => (⟨kFPNoErr, 0, [65], 0⟩, s)

def lockedVolume : Volume := { plainVolume with noLocking := false }

theorem locks_protect_granted :
    ∃ ret eof buf' k', llRead (lockPeer kFPNoErr) lockedVolume (.start () .empty) [0] 0 1 0 dataFork =
        .ok ((ret, eof, buf'), k') ∧ Protected (lockRange lockedVolume dataFork 0 1) (.start () .empty) k' ret :=
  ((locks_protect_iff (lockPeer kFPNoErr) lockedVolume rfl (.start () .empty) dataFork 0).1 [0] 0 1 (by decide)).mpr
    ⟨0, by decide, by decide⟩

/-- A range that stays busy is read without a lock, and a write that is refused its lock returns 0. -/
theorem busy_range_is_read :
    (∃ k', llRead (lockPeer kFPLockErr) lockedVolume (.start () .empty) [0] 0 1 0 dataFork =
        .ok ((1, false, [65]), k') ∧ ¬ Protected (lockRange lockedVolume dataFork 0 1) (.start () .empty) k' 1) ∧
      ∃ k', llWrite (lockPeer kFPAccessDenied) lockedVolume (.start () .empty) [65] 0 dataFork = .ok ((0, 0), k') ∧
        ¬ Protected (lockRange lockedVolume dataFork 0 1) (.start () .empty) k' 0 := by
  constructor
  · refine ⟨_, rfl, ?_⟩
    rintro ⟨sent, hsent, hguarded, -⟩
    have hnet := hguarded.released
    cases hsent
    revert hnet
    decide
  · refine ⟨_, rfl, ?_⟩
    rintro ⟨sent, hsent, -, hret⟩
    cases hsent
    cases hret (by decide)

end AfpfsNg.Fork
