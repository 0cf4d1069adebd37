import AfpfsNg.Fork.Write

/-!
# Acknowledged writes

A caller takes a count from `ml_write` to mean that the server has the bytes: `WriteAcknowledged`. The
server here is a `Script`: any sequence of codes for the lock requests, for the writes and for the
unlocks. A data fork is written by one call of `ll_write`. A resource fork is written by two, since `appledouble_write`
returns the 0 of its own call and `ml_write` goes on. `ll_write` reports none of the failures.
-/

namespace AfpfsNg.Fork
open AfpfsNg.Base AfpfsNg.Afp AfpfsNg.Did

/-- The codes for the requests of each kind, in the order in which they are sent. -/
structure Script where
  lock : Nat → Int
  write : Nat → Int
  unlock : Nat → Int

structure Position where
  locks : Nat
  writes : Nat
  unlocks : Nat

def Script.peer (sc : Script) : Peer Position where
  query _ _ _ := none
  respond s
    | .byterangelock _ false _ _ _ => (⟨sc.lock s.locks, 0, [], 0⟩, { s with locks := s.locks + 1 })
    | .byterangelock _ true _ _ _ => (⟨sc.unlock s.unlocks, 0, [], 0⟩, { s with unlocks := s.unlocks + 1 })
    | .write _ _ _ _ => (⟨sc.write s.writes, 0, [], 0⟩, { s with writes := s.writes + 1 })
    | _ => (⟨kFPParamErr, 0, [], 0⟩, s)

@[simp] lemma Script.call_lock (sc : Script) (k : Client Position) (e f o n) :
    k.call sc.peer (.byterangelock e false f o n) = (⟨sc.lock k.peer.locks, 0, [], 0⟩,
      { k with
        peer := { k.peer with locks := k.peer.locks + 1 }
        sent := k.sent ++ [(.byterangelock e false f o n, ⟨sc.lock k.peer.locks, 0, [], 0⟩)] }) :=
  rfl

@[simp] lemma Script.call_unlock (sc : Script) (k : Client Position) (e f o n) :
    k.call sc.peer (.byterangelock e true f o n) = (⟨sc.unlock k.peer.unlocks, 0, [], 0⟩,
      { k with
        peer := { k.peer with unlocks := k.peer.unlocks + 1 }
        sent := k.sent ++ [(.byterangelock e true f o n, ⟨sc.unlock k.peer.unlocks, 0, [], 0⟩)] }) :=
  rfl

@[simp] lemma Script.call_write (sc : Script) (k : Client Position) (e f o bs) :
    k.call sc.peer (.write e f o bs) = (⟨sc.write k.peer.writes, 0, [], 0⟩,
      { k with
        peer := { k.peer with writes := k.peer.writes + 1 }
        sent := k.sent ++ [(.write e f o bs, ⟨sc.write k.peer.writes, 0, [], 0⟩)] }) :=
  rfl

def writeCode : Request × Reply → Option Int
  | (.write _ _ _ _, a) => some a.code
  | _ => none

def isGrant : Request × Reply → Bool
  | (.byterangelock _ false _ _ _, a) => a.code = kFPNoErr
  | _ => false

def writeCodes (sent : List (Request × Reply)) : List Int := sent.filterMap writeCode

def grants (sent : List (Request × Reply)) : Nat := sent.countP isGrant

section Logs
variable (sent : List (Request × Reply)) (e u f o n bs a)

@[simp] lemma writeCodes_lock :
    writeCodes (sent ++ [(.byterangelock e u f o n, a)]) = writeCodes sent := by
  rw [writeCodes, List.filterMap_append]
  exact List.append_nil _

@[simp] lemma writeCodes_write :
    writeCodes (sent ++ [(.write e f o bs, a)]) = writeCodes sent ++ [a.code] := by
  rw [writeCodes, List.filterMap_append]
  rfl

@[simp] lemma grants_lock :
    grants (sent ++ [(.byterangelock e false f o n, a)]) =
      grants sent + if a.code = kFPNoErr then 1 else 0 := by
  simp [grants, List.countP_append, List.countP_singleton, isGrant]

@[simp] lemma grants_unlock :
    grants (sent ++ [(.byterangelock e true f o n, a)]) = grants sent := by
  simp [grants, isGrant]

@[simp] lemma grants_write : grants (sent ++ [(.write e f o bs, a)]) = grants sent := by
  simp [grants, isGrant]

end Logs

/-- An accepted write carries the byte at position `p` of the data to its place in the fork. -/
def Covers (v : Volume) (forkid offset : Nat) (data : Bytes) (sent : List (Request × Reply))
    (p : Nat) : Prop :=
  ∃ t len a, (.write (ext v) forkid (field v (offset + t)) (slice data t len), a) ∈ sent ∧
    a.code = kFPNoErr ∧ t ≤ p ∧ p < t + len ∧ t + len ≤ data.length

def chunks (q n : Nat) : Nat := (n + q - 1) / q

lemma chunks_zero {q} (hq : 0 < q) : chunks q 0 = 0 := by
  rw [chunks]
  exact Nat.div_eq_of_lt (by omega)

lemma chunks_step {q n} (hq : 0 < q) (hn : 0 < n) :
    chunks q n = chunks q (n - if n < q then n else q) + 1 := by
  simp only [chunks]
  split
  case isTrue h =>
    have h0 : (n - n + q - 1) / q = 0 := Nat.div_eq_of_lt (by omega)
    have h1 : n + q - 1 = n - 1 + q := by omega
    rw [h0, h1, Nat.add_div_right _ hq, Nat.div_eq_of_lt (by omega)]
  case isFalse h =>
    have h1 : n + q - 1 = n - q + q - 1 + q := by omega
    rw [h1, Nat.add_div_right _ hq]

inductive LockResult where
  | granted
  | refused
  /-- no try was left -/
  | busy
  deriving DecidableEq, Repr

/-- The end of so many tries against the codes from `l` on, and the position after them. -/
def lockResult (lock : Nat → Int) : Nat → Nat → LockResult × Nat
  | 0, l => (.busy, l)
  | tries + 1, l =>
    if lock l = kFPNoErr then (.granted, l + 1)
    else if lock l = kFPNoMoreLocks ∨ lock l = kFPLockErr then lockResult lock tries (l + 1)
    else (.refused, l + 1)

/-- The lock of one call of `ll_write`. Without locking it counts as granted. -/
def Script.lockFor (sc : Script) (v : Volume) (l : Nat) : LockResult × Nat :=
  if v.noLocking then (.granted, l) else lockResult sc.lock maxLocktrycount l

section Scripted
variable {sc : Script} {v : Volume} {forkid offset size : Nat}

lemma lockLoop_spec {tries r} {k k' : Client Position}
    (h : lockLoop sc.peer v forkid offset size tries k = (r, k')) :
    (r = 0 ↔ (lockResult sc.lock tries k.peer.locks).1 ≠ .refused) ∧
    k'.peer = { k.peer with locks := (lockResult sc.lock tries k.peer.locks).2 } ∧
    writeCodes k'.sent = writeCodes k.sent ∧
    grants k'.sent = grants k.sent +
      if (lockResult sc.lock tries k.peer.locks).1 = .granted then 1 else 0 := by
  induction tries generalizing k with
  | zero =>
    cases h
    simp [lockResult]
  | succ tries ih =>
    rw [lockLoop] at h
    simp only [Script.call_lock] at h
    by_cases h0 : sc.lock k.peer.locks = kFPNoErr
    · simp only [h0, if_true] at h
      cases h
      simp [lockResult, h0]
    · simp only [h0, if_false] at h
      by_cases hb : sc.lock k.peer.locks = kFPNoMoreLocks ∨ sc.lock k.peer.locks = kFPLockErr
      · simp only [hb, if_true] at h
        have := ih h
        simpa [lockResult, h0, hb] using this
      · simp only [hb, if_false] at h
        cases h
        simp [lockResult, h0, hb]

lemma llHandleLocking_spec {r} {k k' : Client Position}
    (h : llHandleLocking sc.peer v k forkid offset size = (r, k')) :
    (r = 0 ↔ (sc.lockFor v k.peer.locks).1 ≠ .refused) ∧
    k'.peer = { k.peer with locks := (sc.lockFor v k.peer.locks).2 } ∧
    writeCodes k'.sent = writeCodes k.sent ∧
    (v.noLocking ∨ grants k'.sent = grants k.sent +
      if (sc.lockFor v k.peer.locks).1 = .granted then 1 else 0) := by
  rw [llHandleLocking] at h
  by_cases hl : v.noLocking = true
  · rw [if_pos hl] at h
    cases h
    simp [Script.lockFor, hl]
  · rw [if_neg hl] at h
    rw [Script.lockFor, if_neg hl]
    obtain ⟨hr, hp, hw, hg⟩ := lockLoop_spec h
    exact ⟨hr, hp, hw, .inr hg⟩

lemma llHandleUnlocking_spec {r} {k k' : Client Position}
    (h : llHandleUnlocking sc.peer v k forkid offset size = (r, k')) :
    k'.peer.locks = k.peer.locks ∧ k'.peer.writes = k.peer.writes ∧
    writeCodes k'.sent = writeCodes k.sent ∧ grants k'.sent = grants k.sent ∧
    k.sent ⊆ k'.sent := by
  rw [llHandleUnlocking] at h
  split at h
  case isTrue => cases h; simp
  case isFalse =>
    cases h
    simp

/-- What the loop of `ll_write` does from `k` to `k'` when `t` bytes are out already. -/
structure Wrote (sc : Script) (v : Volume) (forkid offset : Nat) (data : Bytes) (t : Nat)
    (k k' : Client Position) : Prop where
  peer : k'.peer = { k.peer with writes := k.peer.writes + chunks v.txQuantum (data.length - t) }
  codes : writeCodes k'.sent = writeCodes k.sent ++
    (List.range' k.peer.writes (chunks v.txQuantum (data.length - t))).map sc.write
  grants : grants k'.sent = grants k.sent
  sent : k.sent ⊆ k'.sent
  covers : (∀ i < chunks v.txQuantum (data.length - t), sc.write (k.peer.writes + i) = kFPNoErr) →
    ∀ p, t ≤ p → p < data.length → Covers v forkid offset data k'.sent p

variable {data : Bytes} {t : Nat} {k k' : Client Position}

lemma Wrote.done (hq : 0 < v.txQuantum) : Wrote sc v forkid offset data data.length k k where
  peer := by simp [chunks_zero hq]
  codes := by simp [chunks_zero hq]
  grants := rfl
  sent := List.Subset.refl _
  covers _ p h1 h2 := absurd h2 (Nat.not_lt.mpr h1)

lemma Wrote.chunk {n : Nat} (hq : 0 < v.txQuantum) (hlt : t < data.length)
    (hn : (if data.length - t < v.txQuantum then data.length - t else v.txQuantum) = n)
    (h : Wrote sc v forkid offset data (t + n)
      (k.call sc.peer (.write (ext v) forkid (field v (offset + t)) (slice data t n))).2 k') :
    Wrote sc v forkid offset data t k k' := by
  obtain ⟨hpeer, hcodes, hgrants, hsent, hcovers⟩ := h
  have hle : t + n ≤ data.length := by
    split at hn <;> omega
  have hc : chunks v.txQuantum (data.length - t) = chunks v.txQuantum (data.length - (t + n)) + 1 := by
    rw [chunks_step hq (by omega), hn, Nat.sub_sub]
  simp only [Script.call_write] at hpeer hcodes hgrants hsent hcovers
  refine ⟨?_, ?_, ?_, fun x hx => hsent (List.mem_append_left _ hx), fun hall p h1 h2 => ?_⟩
  · rw [hpeer, hc]
    simp only [Nat.add_assoc, Nat.add_comm 1]
  · rw [hcodes, hc, List.range'_succ, writeCodes_write, List.append_assoc]
    rfl
  · rw [hgrants, grants_write]
  · rw [hc] at hall
    by_cases hpn : p < t + n
    · exact ⟨t, n, _, hsent (List.mem_append_right _ (List.mem_singleton.mpr rfl)), hall 0 (by omega), h1,
        hpn, hle⟩
    · refine hcovers (fun i hi => ?_) p (by omega) h2
      have := hall (i + 1) (by omega)
      rwa [Nat.add_comm i, ← Nat.add_assoc] at this

lemma writeLoop_spec (hq : 0 < v.txQuantum) {fuel : Nat} (ht : t ≤ data.length)
    (hf : data.length - t ≤ fuel) :
    ∃ k', writeLoop sc.peer v forkid offset data fuel t k = .ok (data.length, k') ∧
      Wrote sc v forkid offset data t k k' := by
  induction fuel generalizing t k with
  | zero =>
    obtain rfl : t = data.length := by omega
    exact ⟨k, by rw [writeLoop, if_neg (by omega)], .done hq⟩
  | succ fuel ih =>
    rw [writeLoop]
    by_cases hlt : t < data.length
    · rw [if_pos hlt]
      generalize hn : (if data.length - t < v.txQuantum then data.length - t else v.txQuantum) = n
      have hn0 : 0 < n ∧ t + n ≤ data.length := by
        split at hn <;> omega
      obtain ⟨k', he, hw⟩ := @ih (t + n)
        (k.call sc.peer (.write (ext v) forkid (field v (offset + t)) (slice data t n))).2 hn0.2 (by omega)
      exact ⟨k', he, hw.chunk hq hlt hn⟩
    · obtain rfl : t = data.length := by omega
      exact ⟨k, if_neg hlt, .done hq⟩

/-- What a call of `ll_write` from `k` to `k'` leaves behind, with `total` in `*totalwritten`. -/
structure Attempt (sc : Script) (v : Volume) (forkid offset : Nat) (data : Bytes)
    (k : Client Position) (total : Nat) (k' : Client Position) : Prop where
  locks : k'.peer.locks = (sc.lockFor v k.peer.locks).2
  grants : v.noLocking ∨ grants k'.sent = grants k.sent +
    if (sc.lockFor v k.peer.locks).1 = .granted then 1 else 0
  refused : (sc.lockFor v k.peer.locks).1 = .refused → total = 0
  total : (sc.lockFor v k.peer.locks).1 ≠ .refused → total = data.length
  writes : (sc.lockFor v k.peer.locks).1 ≠ .refused →
    k'.peer.writes = k.peer.writes + chunks v.txQuantum data.length
  codes : (sc.lockFor v k.peer.locks).1 ≠ .refused → writeCodes k'.sent = writeCodes k.sent ++
    (List.range' k.peer.writes (chunks v.txQuantum data.length)).map sc.write
  covers : (sc.lockFor v k.peer.locks).1 ≠ .refused →
    (∀ i < chunks v.txQuantum data.length, sc.write (k.peer.writes + i) = kFPNoErr) →
      ∀ p < data.length, Covers v forkid offset data k'.sent p

lemma llWrite_attempt {fp : FileHandle} (hq : 0 < v.txQuantum) (k : Client Position) :
    ∃ total k', llWrite sc.peer v k data offset fp = .ok ((0, total), k') ∧
      Attempt sc v fp.forkid offset data k total k' := by
  rcases hlock : llHandleLocking sc.peer v k fp.forkid offset data.length with ⟨rc, k1⟩
  obtain ⟨hrc, hp1, hw1, hg1⟩ := llHandleLocking_spec hlock
  rw [llWrite, hlock]
  by_cases h0 : rc = 0
  · obtain ⟨k2, hloop, hp2, hw2, hg2, -, hcov⟩ := @writeLoop_spec sc v fp.forkid offset data 0 k1 hq
      data.length (Nat.zero_le _) (Nat.le_refl _)
    rcases hunlock : llHandleUnlocking sc.peer v k2 fp.forkid offset data.length with ⟨rc', k3⟩
    obtain ⟨hl3, hn3, hw3, hg3, hs3⟩ := llHandleUnlocking_spec hunlock
    have hne := hrc.mp h0
    have hwrites : k1.peer.writes = k.peer.writes := by rw [hp1]
    refine ⟨data.length, k3, ?_, ?_, ?_, fun h => absurd h hne, fun _ => rfl, fun _ => ?_,
      fun _ => ?_, fun _ hall p hp => ?_⟩
    · simp only [h0, ne_eq, not_true, if_false, hloop, Except.map, hunlock]
    · rw [hl3, hp2, hp1]
    · rw [hg3, hg2]
      exact hg1
    · rw [hn3, hp2, hwrites, Nat.sub_zero]
    · rw [hw3, hw2, hw1, hwrites, Nat.sub_zero]
    · rw [hwrites, Nat.sub_zero] at hcov
      obtain ⟨t, len, a, hmem, ha⟩ := hcov hall p (Nat.zero_le _) hp
      exact ⟨t, len, a, hs3 hmem, ha⟩
  · have hr : (sc.lockFor v k.peer.locks).1 = .refused :=
      not_not.mp fun hne => h0 (hrc.mpr hne)
    refine ⟨0, k1, ?_, by rw [hp1], hg1, fun _ => rfl, ?_, ?_, ?_, ?_⟩
    · simp only [ne_eq, h0, not_false_eq_true, if_true]
    all_goals exact fun hne => absurd hr hne

end Scripted

def llWrites (fp : FileHandle) : Nat := if fp.resource = .resource then 2 else 1

/-- A count means that accepted writes cover that much of the data, no write was refused, and every call of `ll_write` had
its lock. -/
def CountAcknowledged (v : Volume) (data : Bytes) (offset : Nat) (fp : FileHandle) (ret : Int)
    (k : Client Position) : Prop :=
  0 ≤ ret →
    (∀ p : Nat, (p : Int) < ret → Covers v fp.forkid offset data k.sent p) ∧
    (∀ c ∈ writeCodes k.sent, c = kFPNoErr) ∧
    (v.noLocking ∨ grants k.sent = llWrites fp)

/-- `ml_write` returns, and its result can be trusted. -/
def WriteAcknowledged (sc : Script) (v : Volume) (path data : Bytes) (offset : Nat)
    (fp : FileHandle) : Prop :=
  ∃ ret k, mlWrite sc.peer v (.start ⟨0, 0, 0⟩ .empty) path data offset fp = .ok (ret, k) ∧
    CountAcknowledged v data offset fp ret k

/-- The locks are granted and the chunks accepted. The first alternative is about lengths that are negative as an `int`. -/
def Served (sc : Script) (v : Volume) (size : Nat) (fp : FileHandle) : Prop :=
  let first := sc.lockFor v 0
  let last := if fp.resource = .resource then sc.lockFor v first.2 else first
  (returnSize size < 0 ∧ last.1 ≠ .refused) ∨
  (first.1 = .granted ∧ last.1 = .granted ∧
    ∀ i < llWrites fp * chunks v.txQuantum size, sc.write i = kFPNoErr)

lemma returnSize_le (n : Nat) : returnSize n ≤ n := by
  have := Nat.mod_le n (2 ^ 32)
  rw [returnSize, int32]
  split <;> omega

section Result
variable {sc : Script} {v : Volume} {offset : Nat} {data : Bytes} {fp : FileHandle}

/-- What both kinds of forks need for the equivalence. -/
lemma acknowledged_iff_served {k : Client Position} {total : Nat} {first last : LockResult}
    (hrefused : last = .refused → total = 0) (htotal : last ≠ .refused → total = data.length)
    (hgrants : v.noLocking ∨ (grants k.sent = llWrites fp → first = .granted ∧ last = .granted))
    (hheld : first = .granted → last = .granted → v.noLocking ∨ grants k.sent = llWrites fp)
    (hfree : v.noLocking → first = .granted ∧ last = .granted)
    (hcodes : first = .granted → last = .granted → writeCodes k.sent =
      (List.range (llWrites fp * chunks v.txQuantum data.length)).map sc.write)
    (hcovers : first = .granted → last = .granted →
      (∀ i < llWrites fp * chunks v.txQuantum data.length, sc.write i = kFPNoErr) →
        ∀ p < data.length, Covers v fp.forkid offset data k.sent p) :
    CountAcknowledged v data offset fp (returnSize total) k ↔
    (returnSize data.length < 0 ∧ last ≠ .refused) ∨
    (first = .granted ∧ last = .granted ∧
      ∀ i < llWrites fp * chunks v.txQuantum data.length, sc.write i = kFPNoErr) := by
  constructor
  · intro h
    by_cases hneg : returnSize data.length < 0 ∧ last ≠ .refused
    · exact .inl hneg
    have hcount : 0 ≤ returnSize total := by
      by_cases hr : last = .refused
      · rw [hrefused hr]
        decide
      · rw [htotal hr]
        exact Int.not_lt.mp fun hlt => hneg ⟨hlt, hr⟩
    obtain ⟨-, hacc, hg⟩ := h hcount
    have hlocks : first = .granted ∧ last = .granted := by
      rcases hgrants with hl | hgr
      · exact hfree hl
      · rcases hg with hl | hg
        · exact hfree hl
        · exact hgr hg
    refine .inr ⟨hlocks.1, hlocks.2, fun i hi => hacc _ ?_⟩
    rw [hcodes hlocks.1 hlocks.2]
    exact List.mem_map_of_mem (List.mem_range.mpr hi)
  · rintro (⟨hneg, hr⟩ | ⟨hf, hl, hall⟩) hcount
    · rw [htotal hr] at hcount
      omega
    · have hsize : total = data.length := htotal (by rw [hl]; decide)
      refine ⟨fun p hp => hcovers hf hl hall p ?_, ?_, hheld hf hl⟩
      · have := returnSize_le total
        omega
      · rw [hcodes hf hl]
        intro c hc
        obtain ⟨i, hi, rfl⟩ := List.mem_map.mp hc
        exact hall i (List.mem_range.mp hi)

lemma Script.lockFor_noLocking (hl : v.noLocking = true) (l : Nat) : sc.lockFor v l = (.granted, l) := by
  rw [Script.lockFor, if_pos hl]

lemma acknowledged_data (hres : fp.resource = .none) {k : Client Position} {total : Nat}
    (h : Attempt sc v fp.forkid offset data (.start ⟨0, 0, 0⟩ .empty) total k) :
    CountAcknowledged v data offset fp (returnSize total) k ↔ Served sc v data.length fp := by
  have hcalls : llWrites fp = 1 := by rw [llWrites, hres]; rfl
  have hg : v.noLocking ∨
      grants k.sent = if (sc.lockFor v 0).1 = .granted then 1 else 0 := by
    exact h.grants.imp_right fun hg => hg.trans (Nat.zero_add _)
  rw [Served, if_neg (by rw [hres]; decide)]
  refine acknowledged_iff_served h.refused h.total ?_ ?_ ?_ ?_ ?_
  · refine hg.imp_right fun hg hone => ?_
    rw [hg, hcalls] at hone
    split at hone
    case isTrue hgr => exact ⟨hgr, hgr⟩
    case isFalse => omega
  · intro hgr _
    rw [hcalls]
    exact hg.imp_right fun hg => by rw [hg, if_pos hgr]
  · intro hl
    rw [Script.lockFor_noLocking hl]
    exact ⟨rfl, rfl⟩
  · intro _ hgr
    rw [h.codes (by rw [Client.start, hgr]; decide), hcalls, Nat.one_mul, List.range_eq_range']
    rfl
  · intro _ hgr hall
    rw [hcalls, Nat.one_mul] at hall
    refine h.covers (by rw [Client.start, hgr]; decide) fun i hi => ?_
    simpa [Client.start] using hall i hi

lemma acknowledged_resource (hres : fp.resource = .resource) {k₁ k₂ : Client Position} {t₁ t₂ : Nat}
    (h₁ : Attempt sc v fp.forkid offset data (.start ⟨0, 0, 0⟩ .empty) t₁ k₁)
    (h₂ : Attempt sc v fp.forkid offset data k₁ t₂ k₂) :
    CountAcknowledged v data offset fp (returnSize t₂) k₂ ↔ Served sc v data.length fp := by
  have hcalls : llWrites fp = 2 := by rw [llWrites, hres]; rfl
  have hlocks : k₁.peer.locks = (sc.lockFor v 0).2 := h₁.locks
  obtain ⟨-, hg₂, hr₂, ht₂, hw₂, hc₂, hcov₂⟩ := h₂
  rw [hlocks] at hg₂ hr₂ ht₂ hw₂ hc₂ hcov₂
  have hg : v.noLocking ∨ grants k₂.sent =
      (if (sc.lockFor v 0).1 = .granted then 1 else 0) +
      if (sc.lockFor v (sc.lockFor v 0).2).1 = .granted then 1 else 0 := by
    rcases h₁.grants with hl | hg₁
    · exact .inl hl
    · refine hg₂.imp_right fun hg₂ => ?_
      rw [hg₂, hg₁]
      exact congrArg (· + _) (Nat.zero_add _)
  rw [Served, if_pos hres]
  refine acknowledged_iff_served hr₂ ht₂ ?_ ?_ ?_ ?_ ?_
  · refine hg.imp_right fun hg htwo => ?_
    rw [hg, hcalls] at htwo
    by_cases h1 : (sc.lockFor v 0).1 = .granted
    · by_cases h2 : (sc.lockFor v (sc.lockFor v 0).2).1 = .granted
      · exact ⟨h1, h2⟩
      · rw [if_pos h1, if_neg h2] at htwo
        omega
    · rw [if_neg h1] at htwo
      split at htwo <;> omega
  · intro h1 h2
    rw [hcalls]
    exact hg.imp_right fun hg => by rw [hg, if_pos h1, if_pos h2]
  · intro hl
    simp only [Script.lockFor_noLocking hl, and_self]
  · intro h1 h2
    have hf : (sc.lockFor v 0).1 ≠ .refused := by rw [h1]; decide
    have hl : (sc.lockFor v (sc.lockFor v 0).2).1 ≠ .refused := by rw [h2]; decide
    have hw₁ : k₁.peer.writes = 0 + chunks v.txQuantum data.length := h₁.writes hf
    have hc₁ : writeCodes k₁.sent = (List.range' 0 (chunks v.txQuantum data.length)).map sc.write :=
      h₁.codes hf
    rw [hc₂ hl, hc₁, hw₁, ← List.map_append, List.range_eq_range', hcalls, Nat.two_mul]
    congr 1
    exact List.range'_append_1
  · intro h1 h2 hall
    have hf : (sc.lockFor v 0).1 ≠ .refused := by rw [h1]; decide
    have hw₁ : k₁.peer.writes = 0 + chunks v.txQuantum data.length := h₁.writes hf
    refine hcov₂ (by rw [h2]; decide) fun i hi => hall _ ?_
    rw [hw₁, hcalls]
    omega

lemma mlWrite_forks {path converted : Bytes} (hq : 0 < v.txQuantum)
    (hsize : ¬(v.avNumber < 30 ∧ afpMaxAfp2Filesize < data.length))
    (hconv : convertPathToAfp v path = .ok (some converted)) (hro : volumeIsReadonly v = false)
    (hres : fp.resource = .none ∨ fp.resource = .resource) :
    WriteAcknowledged sc v path data offset fp ↔ Served sc v data.length fp := by
  obtain ⟨t₁, k₁, hw₁, hatt₁⟩ := @llWrite_attempt sc v offset data fp hq (.start ⟨0, 0, 0⟩ .empty)
  rcases hres with hres | hres
  · have hml : mlWrite sc.peer v (.start ⟨0, 0, 0⟩ .empty) path data offset fp =
        .ok (returnSize t₁, k₁) := by
      rw [mlWrite, if_neg hsize]
      simp [hconv, hro, appledoubleWrite, hres, hw₁, Except.map]
    rw [← acknowledged_data hres hatt₁, WriteAcknowledged, hml]
    simp
  · obtain ⟨t₂, k₂, hw₂, hatt₂⟩ := @llWrite_attempt sc v offset data fp hq k₁
    have hml : mlWrite sc.peer v (.start ⟨0, 0, 0⟩ .empty) path data offset fp =
        .ok (returnSize t₂, k₂) := by
      rw [mlWrite, if_neg hsize]
      simp [hconv, hro, appledoubleWrite, hres, hw₁, hw₂, Except.map]
    rw [← acknowledged_resource hres hatt₁ hatt₂, WriteAcknowledged, hml]
    simp

/-- `ml_write` reports what was acknowledged exactly when it does not write at all, or the server accepts
everything. -/
theorem write_acknowledged_iff (sc : Script) (v : Volume) (path data : Bytes) (offset : Nat)
    (fp : FileHandle) (hq : 0 < v.txQuantum)
    (hres : fp.resource = .none ∨ fp.resource = .resource) :
    WriteAcknowledged sc v path data offset fp ↔
      (v.avNumber < 30 ∧ afpMaxAfp2Filesize < data.length) ∨
      convertPathToAfp v path = .ok none ∨
      (∃ converted, convertPathToAfp v path = .ok (some converted)) ∧
        (volumeIsReadonly v ∨ Served sc v data.length fp) := by
  by_cases hsize : v.avNumber < 30 ∧ afpMaxAfp2Filesize < data.length
  · refine iff_of_true ⟨-EFBIG, _, by rw [mlWrite, if_pos hsize], nofun⟩ (.inl hsize)
  rcases hconv : convertPathToAfp v path with f | _ | converted
  · simp [WriteAcknowledged, mlWrite, hsize, hconv]
  · refine iff_of_true ⟨-EINVAL, .start ⟨0, 0, 0⟩ .empty, ?_, nofun⟩ (.inr (.inl rfl))
    rw [mlWrite, if_neg hsize, hconv]
  cases hro : volumeIsReadonly v
  · rw [mlWrite_forks hq hsize hconv hro hres]
    simp [hsize]
  · refine iff_of_true ⟨-EACCES, .start ⟨0, 0, 0⟩ .empty, ?_, nofun⟩ (.inr (.inr ⟨⟨_, rfl⟩, .inl rfl⟩))
    rw [mlWrite, if_neg hsize, hconv]
    simp [hro]

end Result

def lockingVolume : Volume := { plainVolume with txQuantum := 2, noLocking := false }

theorem write_acknowledged_three_bytes :
    WriteAcknowledged ⟨fun i => if i = 0 then kFPLockErr else kFPNoErr, fun _ => kFPNoErr,
      fun _ => kFPNoErr⟩ lockingVolume [47, 97] [1, 2, 3] 0 dataFork := by
  refine (write_acknowledged_iff _ _ _ _ _ _ (by decide) (.inl rfl)).mpr ?_
  exact .inr (.inr ⟨⟨_, rfl⟩, .inr (.inr ⟨by decide, by decide, fun _ _ => rfl⟩)⟩)

/-- The disk is full at the second chunk, and `ml_write` returns 3. -/
theorem write_not_acknowledged :
    ∃ k, mlWrite (Script.peer ⟨fun _ => kFPNoErr, fun i => if i = 1 then kFPDiskFull else kFPNoErr,
        fun _ => kFPNoErr⟩) lockingVolume (.start ⟨0, 0, 0⟩ .empty) [47, 97] [1, 2, 3] 0 dataFork =
        .ok (3, k) ∧
      (.write true 7 2 [3], ⟨kFPDiskFull, 0, [], 0⟩) ∈ k.sent ∧
      ¬ WriteAcknowledged ⟨fun _ => kFPNoErr, fun i => if i = 1 then kFPDiskFull else kFPNoErr,
        fun _ => kFPNoErr⟩ lockingVolume [47, 97] [1, 2, 3] 0 dataFork := by
  refine ⟨_, rfl, by decide, ?_⟩
  rintro ⟨ret, k, h, hack⟩
  cases h
  obtain ⟨-, hacc, -⟩ := hack (by decide)
  exact absurd (hacc kFPDiskFull (by decide)) (by decide)

end AfpfsNg.Fork
