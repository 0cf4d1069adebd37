import AfpfsNg.Fork.Tiling

/-!
# The bytes that requests are for

Below AFP 3.0 the offset and the count in a request have 32 bits, and `ll_read`, `ll_write` and `ml_write` hand 64-bit
numbers over to them. The only check is in `ml_write`, and it looks at the size alone. A write may go on for ever, so its
requests are those of all its points (`WritePoint`, `MlWritePoint`) and not only those in the record when it returns.
-/

namespace AfpfsNg.Fork
open AfpfsNg.Base AfpfsNg.Afp AfpfsNg.Did

/-- Fields of 32 bits that stand for a part of a range. -/
def Denotes (offset size o n : Nat) : Prop :=
  o < 2 ^ 32 ∧ n < 2 ^ 32 ∧ ∀ x, o ≤ x → x < o + n → offset ≤ x ∧ x < offset + size

/-- A request for bytes of a fork is for a part of the range. -/
def Addresses (offset size : Nat) : Request → Prop
  | .read _ _ o count => Denotes offset size o count
  | .write _ _ o data => Denotes offset size o data.length
  | .byterangelock _ _ _ o len => Denotes offset size o len
  | _ => True

def Beyond (offset size : Nat) : Prop := ∃ x, offset ≤ x ∧ x < offset + size ∧ 2 ^ 32 ≤ x

lemma beyond_iff {offset size : Nat} : Beyond offset size ↔ 0 < size ∧ 2 ^ 32 < offset + size := by
  constructor
  · rintro ⟨x, hfrom, hto, hx⟩
    omega
  · rintro ⟨hpos, hend⟩
    exact ⟨offset + size - 1, by omega, by omega, by omega⟩

lemma denotes_field_iff {v : Volume} (hv : v.avNumber < 30) {offset size : Nat} :
    Denotes offset size (field v offset) (field v size) ↔ size % 2 ^ 32 = 0 ∨ offset < 2 ^ 32 := by
  rw [field, field, if_pos hv, if_pos hv]
  constructor
  · rintro ⟨-, -, hpart⟩
    by_contra h
    obtain ⟨hsize, hoffset⟩ := not_or.mp h
    have hfirst := (hpart (offset % 2 ^ 32) (Nat.le_refl _) (by omega)).1
    omega
  · intro h
    refine ⟨Nat.mod_lt _ (by decide), Nat.mod_lt _ (by decide), fun x hfrom hto => ?_⟩
    rcases h with hsize | hoffset
    · omega
    · rw [Nat.mod_eq_of_lt hoffset] at hfrom hto
      have := Nat.mod_le size (2 ^ 32)
      omega

section Record
variable {σ : Type} {P : Peer σ} {v : Volume} {fp : FileHandle} {offset size : Nat} {D : Request → Prop}
  {k k' k₁ k₂ : Client σ}

def Adds (D : Request → Prop) (k k' : Client σ) : Prop := ∃ sent, k'.sent = k.sent ++ sent ∧ ∀ x ∈ sent, D x.1

lemma Adds.refl : Adds D k k := ⟨[], (List.append_nil _).symm, nofun⟩

lemma Adds.trans (h : Adds D k k₁) (h' : Adds D k₁ k₂) : Adds D k k₂ := by
  obtain ⟨sent, hsent, hD⟩ := h
  obtain ⟨sent', hsent', hD'⟩ := h'
  refine ⟨sent ++ sent', ?_, fun x hx => (List.mem_append.mp hx).elim (hD x) (hD' x)⟩
  rw [hsent', hsent, List.append_assoc]

lemma Adds.call {r : Request} (hr : D r) : Adds D k (k.call P r).2 := by
  refine ⟨[(r, (P.respond k.peer r).1)], rfl, fun x hx => ?_⟩
  rw [List.mem_singleton.mp hx]
  exact hr

lemma Adds.of_mem (h : Adds D k k') {sent : List (Request × Reply)} (hsent : k'.sent = k.sent ++ sent) :
    ∀ x ∈ sent, D x.1 := by
  obtain ⟨sent', hsent', hD⟩ := h
  rw [List.append_cancel_left (hsent.symm.trans hsent')]
  exact hD

lemma Adds.rest {E F : Request → Prop} (h : Adds D k k₂) (hfirst : Adds E k k₁) (hlast : Adds F k₁ k₂) : Adds D k₁ k₂ := by
  obtain ⟨sent, hsent, -⟩ := hfirst
  obtain ⟨sent', hsent', -⟩ := hlast
  refine ⟨sent', hsent', fun x hx => h.of_mem ?_ x (List.mem_append_right sent hx)⟩
  rw [hsent', hsent, List.append_assoc]

lemma Adds.locking (hD : D (lockRange v fp offset size).lock) :
    Adds D k (llHandleLocking P v k fp.forkid offset size).2 := by
  obtain ⟨rc, k', sent, hrun, hsent, -, honly⟩ := llHandleLocking_locks P v fp offset size k
  rw [hrun]
  exact ⟨sent, hsent, fun x hx => (honly x hx).symm ▸ hD⟩

lemma Adds.unlocking (hD : D (lockRange v fp offset size).unlock) :
    Adds D k (llHandleUnlocking P v k fp.forkid offset size).2 := by
  obtain ⟨rc, k', sent, hrun, hsent, honly⟩ := llHandleUnlocking_unlocks P v fp offset size k
  rw [hrun]
  exact ⟨sent, hsent, fun x hx => (honly x hx).symm ▸ hD⟩

lemma lockLoop_first (P : Peer σ) (v : Volume) (fp : FileHandle) (offset size tries : Nat) (k : Client σ) :
    ∃ a sent, (lockLoop P v fp.forkid offset size (tries + 1) k).2.sent =
      k.sent ++ ((lockRange v fp offset size).lock, a) :: sent := by
  let r := (lockRange v fp offset size).lock
  refine ⟨(P.respond k.peer r).1, ?_⟩
  by_cases hgrant : (P.respond k.peer r).1.code = kFPNoErr
  · exact ⟨[], congrArg (fun p : Int × Client σ => p.2.sent) (if_pos hgrant)⟩
  · by_cases hbusy : Busy (P.respond k.peer r).1.code
    · obtain ⟨rc, k', sent, hrun, hsent, -⟩ := @lockLoop_ends σ P v fp offset size tries (k.call P r).2
      refine ⟨sent, (congrArg (fun p : Int × Client σ => p.2.sent)
        (((if_neg hgrant).trans (if_pos hbusy)).trans hrun)).trans ?_⟩
      rw [hsent]
      exact List.append_assoc _ [_] _
    · exact ⟨[], congrArg (fun p : Int × Client σ => p.2.sent) ((if_neg hgrant).trans (if_neg hbusy))⟩

lemma Adds.refused (h : Adds D k (llHandleLocking P v k fp.forkid offset size).2)
    (hrc : (llHandleLocking P v k fp.forkid offset size).1 ≠ 0) : D (lockRange v fp offset size).lock := by
  rw [llHandleLocking] at h hrc
  split at h
  case isTrue hv =>
    rw [if_pos hv] at hrc
    exact absurd rfl hrc
  case isFalse =>
    obtain ⟨a, sent, hsent⟩ := lockLoop_first P v fp offset size 9 k
    exact h.of_mem hsent _ List.mem_cons_self

end Record

/-- Every request of a call is for a part of the range, and a call for bytes beyond 4 GiB fails without a request for data.
-/
def AddressesRange {σ : Type} (offset size : Nat) (k : Client σ) (point : Client σ → Prop)
    (returns : Int → Client σ → Prop) : Prop :=
  (∀ k', point k' → Adds (Addresses offset size) k k') ∧
    (Beyond offset size → ∃ ret k', returns ret k' ∧ ret < 0 ∧ Adds (fun r => r.isData = false) k k')

section Calls
variable {σ : Type} (P : Peer σ) (v : Volume) (fp : FileHandle) (offset : Nat) (data : Bytes) (k : Client σ)

/-- The points of a call of `ll_write`: after the lock, in the loop, after the unlock. -/
inductive WritePoint : Client σ → Prop
  | locked : WritePoint (llHandleLocking P v k fp.forkid offset data.length).2
  | writing {s : Nat × Client σ} (hlock : (llHandleLocking P v k fp.forkid offset data.length).1 = 0)
      (hreached : Reached (writeTurn P v fp.forkid offset data)
        (0, (llHandleLocking P v k fp.forkid offset data.length).2) s) : WritePoint s.2
  | unlocked {s : Nat × Client σ} (hlock : (llHandleLocking P v k fp.forkid offset data.length).1 = 0)
      (hends : Ends (writeTurn P v fp.forkid offset data)
        (0, (llHandleLocking P v k fp.forkid offset data.length).2) s) :
      WritePoint (llHandleUnlocking P v s.2 fp.forkid offset data.length).2

def WriteAllowed (path : Bytes) : Prop :=
  ¬ (v.avNumber < 30 ∧ afpMaxAfp2Filesize < data.length) ∧ (∃ converted, convertPathToAfp v path = .ok (some converted)) ∧
    volumeIsReadonly v = false

/-- The client when `ml_write` calls `ll_write` itself: for a resource fork it has been written already. -/
def Prepared (k₁ : Client σ) : Prop :=
  fp.resource = .none ∧ k₁ = k ∨ fp.resource = .resource ∧ ∃ r, llWrite P v k data offset fp = .ok (r, k₁)

/-- The points of a call of `ml_write` on a fork. -/
inductive MlWritePoint (path : Bytes) : Client σ → Prop
  | start : MlWritePoint path k
  | appledouble {k'} (hallowed : WriteAllowed v data path) (hfork : fp.resource = .resource)
      (hpoint : WritePoint P v fp offset data k k') : MlWritePoint path k'
  | data {k₁ k'} (hallowed : WriteAllowed v data path) (hprepared : Prepared P v fp offset data k k₁)
      (hpoint : WritePoint P v fp offset data k₁ k') : MlWritePoint path k'

/-- The reasons for which `ml_write` fails before it writes. -/
def Rejected (path : Bytes) : Prop :=
  2 ^ 32 < data.length ∨ convertPathToAfp v path = .ok none ∨
    (∃ converted, convertPathToAfp v path = .ok (some converted)) ∧ volumeIsReadonly v = true

end Calls

section Reading
variable {σ : Type} {P : Peer σ} {v : Volume} {fp : FileHandle} {offset size pos : Nat} {buf : Bytes} {k k' : Client σ}

lemma llRead_inv {r : Int × Bool × Bytes} (h : llRead P v k buf pos size offset fp = .ok (r, k')) :
    ((llHandleLocking P v k fp.forkid offset size).1 ≠ 0 ∧ r.1 = -EBUSY ∧
        k' = (llHandleLocking P v k fp.forkid offset size).2) ∨
      k' = (llHandleUnlocking P v ((llHandleLocking P v k fp.forkid offset size).2.call P
        (.read (ext v) fp.forkid (field v offset) (field v size))).2 fp.forkid offset size).2 := by
  rw [llRead] at h
  by_cases hlock : (llHandleLocking P v k fp.forkid offset size).1 ≠ 0
  · left
    simp only [if_pos hlock] at h
    cases h
    exact ⟨hlock, rfl, rfl⟩
  · right
    simp only [if_neg hlock] at h
    generalize store buf pos _ = stored at h
    cases stored with
    | error f => cases h
    | ok buf' =>
      -- whatever the result, the client is the one after the unlock
      have hk := congrArg Prod.snd (Except.ok.inj h)
      simp only [apply_ite Prod.snd, ite_self] at hk
      exact hk.symm

lemma llRead_adds (hden : Denotes offset size (field v offset) (field v size)) {r : Int × Bool × Bytes}
    (h : llRead P v k buf pos size offset fp = .ok (r, k')) : Adds (Addresses offset size) k k' := by
  have hlock : Adds (Addresses offset size) k (llHandleLocking P v k fp.forkid offset size).2 := .locking hden
  rcases llRead_inv h with ⟨-, -, rfl⟩ | rfl
  · exact hlock
  · have hread : Addresses offset size (.read (ext v) fp.forkid (field v offset) (field v size)) := hden
    exact (hlock.trans (.call hread)).trans (.unlocking hden)

lemma llRead_returns (P : Peer σ) (v : Volume) (k : Client σ) (offset : Nat) (fp : FileHandle)
    (hbuf : pos + size ≤ buf.length) : ∃ r k', llRead P v k buf pos size offset fp = .ok (r, k') := by
  obtain ⟨rc, k₁, -, hlock, -, hrc, -⟩ := llHandleLocking_locks P v fp offset size k
  rcases hrc with rfl | rfl
  · refine ⟨(-EBUSY, false, buf), k₁, ?_⟩
    rw [llRead, hlock]
    rfl
  · rcases hread : k₁.call P (.read (ext v) fp.forkid (field v offset) (field v size)) with ⟨a, k₂⟩
    obtain ⟨buf', hstore⟩ := store_reply v a hbuf
    rcases hunlock : llHandleUnlocking P v k₂ fp.forkid offset size with ⟨rc, k₃⟩
    obtain ⟨ret, eof, hrun⟩ := llRead_locked hlock hread hstore hunlock
    exact ⟨_, _, hrun⟩

lemma llRead_no_data {r : Int × Bool × Bytes} (h : llRead P v k buf pos size offset fp = .ok (r, k'))
    (hdata : Adds (fun r => r.isData = false) k k') :
    (llHandleLocking P v k fp.forkid offset size).1 ≠ 0 ∧ k' = (llHandleLocking P v k fp.forkid offset size).2 := by
  rcases llRead_inv h with ⟨hlock, -, hk⟩ | rfl
  · exact ⟨hlock, hk⟩
  · obtain ⟨rc, k₁, locks, hlock, hlocks, -⟩ := llHandleLocking_locks P v fp offset size k
    rw [hlock] at hdata
    let q := Request.read (ext v) fp.forkid (field v offset) (field v size)
    obtain ⟨rc', k₃, unlocks, hunlock, hunlocks, -⟩ := llHandleUnlocking_unlocks P v fp offset size (k₁.call P q).2
    rw [hunlock] at hdata
    have hsent : k₃.sent = k.sent ++ (locks ++ ((q, (k₁.call P q).1) :: unlocks)) := by
      rw [hunlocks, ← List.append_assoc, ← hlocks]
      exact List.append_assoc _ [_] _
    cases hdata.of_mem hsent (q, (k₁.call P q).1) (List.mem_append_right _ List.mem_cons_self)

lemma llRead_addresses_iff (hv : v.avNumber < 30) :
    AddressesRange offset size k (fun k' => ∃ r, llRead P v k buf pos size offset fp = .ok (r, k'))
        (fun ret k' => ∃ eof buf', llRead P v k buf pos size offset fp = .ok ((ret, eof, buf'), k')) ↔
      ¬ Beyond offset size ∨
        (llHandleLocking P v k fp.forkid offset size).1 ≠ 0 ∧ (size % 2 ^ 32 = 0 ∨ offset < 2 ^ 32) := by
  constructor
  · rintro ⟨hpoints, hfails⟩
    by_cases hbeyond : Beyond offset size
    · right
      obtain ⟨ret, k', ⟨eof, buf', hrun⟩, -, hdata⟩ := hfails hbeyond
      obtain ⟨hlock, rfl⟩ := llRead_no_data hrun hdata
      exact ⟨hlock, (denotes_field_iff hv).mp ((hpoints _ ⟨_, hrun⟩).refused hlock)⟩
    · exact .inl hbeyond
  · intro h
    have hden : Denotes offset size (field v offset) (field v size) := by
      rw [denotes_field_iff hv]
      rcases h with hbeyond | ⟨-, h⟩
      · rw [beyond_iff] at hbeyond
        omega
      · exact h
    refine ⟨fun k' ⟨r, hrun⟩ => llRead_adds hden hrun, fun hbeyond => ?_⟩
    obtain ⟨hlock, -⟩ := h.resolve_left (not_not.mpr hbeyond)
    refine ⟨-EBUSY, (llHandleLocking P v k fp.forkid offset size).2, ⟨false, buf, ?_⟩, by decide, .locking rfl⟩
    rw [llRead]
    exact if_pos hlock

end Reading

section Writing
variable {σ : Type} {P : Peer σ} {v : Volume} {fp : FileHandle} {offset : Nat} {data : Bytes} {k k' : Client σ}
  {D : Request → Prop}

lemma llWrite_inv {ret : Int} {n : Nat} (h : llWrite P v k data offset fp = .ok ((ret, n), k')) :
    ret = 0 ∧ (n = 0 ∧ k' = (llHandleLocking P v k fp.forkid offset data.length).2 ∨
      (llHandleLocking P v k fp.forkid offset data.length).1 = 0 ∧ ∃ k₂,
        writeLoop P v fp.forkid offset data data.length 0 (llHandleLocking P v k fp.forkid offset data.length).2 =
          .ok (n, k₂) ∧ k' = (llHandleUnlocking P v k₂ fp.forkid offset data.length).2) := by
  rw [llWrite] at h
  by_cases hlock : (llHandleLocking P v k fp.forkid offset data.length).1 ≠ 0
  · simp only [if_pos hlock] at h
    cases h
    exact ⟨rfl, .inl ⟨rfl, rfl⟩⟩
  · simp only [if_neg hlock] at h
    cases hloop : writeLoop P v fp.forkid offset data data.length 0
        (llHandleLocking P v k fp.forkid offset data.length).2 with
    | error f =>
      rw [hloop] at h
      cases h
    | ok s =>
      rw [hloop] at h
      cases h
      exact ⟨rfl, .inr ⟨not_not.mp hlock, _, rfl, rfl⟩⟩

lemma llWrite_point {r : Int × Nat} (h : llWrite P v k data offset fp = .ok (r, k')) :
    WritePoint P v fp offset data k k' := by
  obtain ⟨-, ⟨-, rfl⟩ | ⟨hlock, k₂, hloop, rfl⟩⟩ := llWrite_inv h
  · exact .locked
  · rw [writeLoop_eq_loop] at hloop
    exact .unlocked hlock (ends_of_loop hloop)

lemma WritePoint.adds (hlock : D (lockRange v fp offset data.length).lock)
    (hunlock : D (lockRange v fp offset data.length).unlock)
    (hpiece : ∀ t < data.length, D (pieceRequest v fp.forkid offset data t (min (data.length - t) v.txQuantum)))
    (h : WritePoint P v fp offset data k k') : Adds D k k' := by
  have hloop : ∀ {s}, Reached (writeTurn P v fp.forkid offset data)
      (0, (llHandleLocking P v k fp.forkid offset data.length).2) s → Adds D k s.2 := by
    intro s hreached
    refine @Reached.inv _ _ _ _ _ _ (fun s => Adds D k s.2) (fun b c hb hturn => ?_) hreached (.locking hlock)
    rw [writeTurn] at hturn
    split at hturn
    case isTrue hlt =>
      cases hturn
      exact Adds.trans hb (.call (hpiece _ hlt))
    case isFalse => cases hturn
  cases h with
  | locked => exact .locking hlock
  | writing _ hreached => exact hloop hreached
  | unlocked _ hends =>
    obtain ⟨b, hreached, hturn⟩ := hends
    rw [writeTurn] at hturn
    split at hturn
    case isTrue => cases hturn
    case isFalse =>
      cases hturn
      exact (hloop hreached).trans (.unlocking hunlock)

lemma llWrite_grows {r : Int × Nat} (h : llWrite P v k data offset fp = .ok (r, k')) : Adds (fun _ => True) k k' :=
  (llWrite_point h).adds trivial trivial fun _ _ => trivial

lemma WritePoint.addresses (hv : v.avNumber < 30) (hq : v.txQuantum < 2 ^ 32) (hbeyond : ¬ Beyond offset data.length)
    (h : WritePoint P v fp offset data k k') : Adds (Addresses offset data.length) k k' := by
  rw [beyond_iff] at hbeyond
  have hden : Denotes offset data.length (field v offset) (field v data.length) := (denotes_field_iff hv).mpr (by omega)
  refine h.adds hden hden fun t ht => ?_
  have hfield : field v (offset + t) = offset + t := field_eq (.inr (by omega))
  have hlen : (slice data t (min (data.length - t) v.txQuantum)).length = min (data.length - t) v.txQuantum :=
    slice_length (by omega)
  show Denotes offset data.length (field v (offset + t)) (slice data t _).length
  rw [hfield, hlen]
  exact ⟨by omega, by omega, fun x hfrom hto => by omega⟩

lemma llWrite_no_data (hne : data ≠ []) {ret : Int} {n : Nat} (h : llWrite P v k data offset fp = .ok ((ret, n), k'))
    (hdata : Adds (fun r => r.isData = false) k k') : n = 0 := by
  obtain ⟨-, ⟨hn, -⟩ | ⟨hlock, k₂, hloop, rfl⟩⟩ := llWrite_inv h
  · exact hn
  · exfalso
    have hlen := List.length_pos_of_ne_nil hne
    obtain ⟨rc, k₁, locks, hlocked, hlocks, -⟩ := llHandleLocking_locks P v fp offset data.length k
    rw [hlocked] at hloop
    have hq : 0 < v.txQuantum := by
      by_contra hzero
      cases (writeLoop_stuck P fp offset (Nat.eq_zero_of_not_pos hzero) hlen data.length k₁).symm.trans hloop
    obtain ⟨lens, k₂', sent, hloop', hsent, hsum, -, hmap⟩ := @writeLoop_pieces σ P v fp.forkid offset data 0 k₁ hq
      data.length (Nat.sub_le ..) (Nat.zero_le _)
    cases hloop.symm.trans hloop'
    obtain ⟨rc', k₃, unlocks, hunlock, hunlocks, -⟩ := llHandleUnlocking_unlocks P v fp offset data.length k₂
    rw [hunlock] at hdata
    cases lens with
    | nil => exact absurd hsum (Nat.ne_of_lt hlen)
    | cons m lens =>
      -- the first piece
      cases sent with
      | nil => cases hmap
      | cons x sent =>
        have hrecord : k₃.sent = k.sent ++ (locks ++ (x :: sent ++ unlocks)) := by
          rw [hunlocks, hsent, hlocks, List.append_assoc, List.append_assoc]
        have hx := hdata.of_mem hrecord x (List.mem_append_right _ List.mem_cons_self)
        rw [(List.cons.inj hmap).1] at hx
        cases hx

lemma llWrite_addresses_iff (hv : v.avNumber < 30) (hq : v.txQuantum < 2 ^ 32) :
    AddressesRange offset data.length k (WritePoint P v fp offset data k)
        (fun ret k' => ∃ n, llWrite P v k data offset fp = .ok ((ret, n), k')) ↔ ¬ Beyond offset data.length := by
  constructor
  · rintro ⟨-, hfails⟩ hbeyond
    obtain ⟨ret, k', ⟨n, hrun⟩, hneg, -⟩ := hfails hbeyond
    obtain ⟨rfl, -⟩ := llWrite_inv hrun
    cases hneg
  · exact fun hbeyond => ⟨fun k' hpoint => hpoint.addresses hv hq hbeyond, fun h => absurd h hbeyond⟩

end Writing

section MlWriting
variable {σ : Type} {P : Peer σ} {v : Volume} {fp : FileHandle} {offset : Nat} {data path : Bytes} {k k' : Client σ}

lemma mlWrite_rejected (hv : v.avNumber < 30) (h : Rejected v data path) :
    ∃ ret, mlWrite P v k path data offset fp = .ok (ret, k) ∧ ret < 0 := by
  rw [mlWrite]
  by_cases hsize : afpMaxAfp2Filesize < data.length
  · exact ⟨-EFBIG, if_pos ⟨hv, hsize⟩, by decide⟩
  · rw [if_neg fun h => hsize h.2]
    rcases h with hlen | hconv | ⟨⟨converted, hconv⟩, hro⟩
    · exact absurd hlen hsize
    · rw [hconv]
      exact ⟨-EINVAL, rfl, by decide⟩
    · rw [hconv]
      exact ⟨-EACCES, if_pos hro, by decide⟩

lemma Rejected.not_allowed (hv : v.avNumber < 30) (h : Rejected v data path) : ¬ WriteAllowed v data path := by
  rintro ⟨hsize, ⟨converted, hconv⟩, hro⟩
  rcases h with hlen | hnone | ⟨-, hro'⟩
  · exact hsize ⟨hv, hlen⟩
  · cases hconv.symm.trans hnone
  · cases hro.symm.trans hro'

lemma mlWrite_inv (hfork : fp.resource = .none ∨ fp.resource = .resource)
    (hrej : ¬ Rejected v data path) {ret : Int} (h : mlWrite P v k path data offset fp = .ok (ret, k')) :
    WriteAllowed v data path ∧ ∃ k₁ n, Prepared P v fp offset data k k₁ ∧
      llWrite P v k₁ data offset fp = .ok ((0, n), k') ∧ ret = returnSize n := by
  obtain ⟨hlen, hrej⟩ := not_or.mp hrej
  obtain ⟨hnone, hrej⟩ := not_or.mp hrej
  have hsize : ¬ (v.avNumber < 30 ∧ afpMaxAfp2Filesize < data.length) := fun h => hlen h.2
  rw [mlWrite, if_neg hsize] at h
  cases hconv : convertPathToAfp v path with
  | error f =>
    rw [hconv] at h
    cases h
  | ok c =>
    cases c with
    | none => exact absurd hconv hnone
    | some converted =>
      have hro : volumeIsReadonly v = false := by
        rw [← Bool.not_eq_true]
        exact fun hro => hrej ⟨⟨converted, hconv⟩, hro⟩
      rw [hconv] at h
      simp only [hro, Bool.false_eq_true, if_false] at h
      refine ⟨⟨hsize, ⟨converted, hconv⟩, hro⟩, ?_⟩
      have hlast : ∀ k₁, (llWrite P v k₁ data offset fp).map (fun r =>
          if r.1.1 < 0 then (r.1.1, r.2) else (returnSize r.1.2, r.2)) = .ok (ret, k') →
          ∃ n, llWrite P v k₁ data offset fp = .ok ((0, n), k') ∧ ret = returnSize n := by
        intro k₁ hmap
        cases hrun : llWrite P v k₁ data offset fp with
        | error f =>
          rw [hrun] at hmap
          cases hmap
        | ok r =>
          obtain ⟨⟨ret', n⟩, k₂⟩ := r
          obtain ⟨rfl, -⟩ := llWrite_inv hrun
          rw [hrun] at hmap
          cases hmap
          exact ⟨n, rfl, rfl⟩
      rw [appledoubleWrite] at h
      rcases hfork with hfork | hfork
      · rw [hfork] at h
        obtain ⟨n, hrun, hret⟩ := hlast k h
        exact ⟨k, n, .inl ⟨hfork, rfl⟩, hrun, hret⟩
      · rw [hfork] at h
        cases hfirst : llWrite P v k data offset fp with
        | error f =>
          simp only [hfirst] at h
          cases h
        | ok r =>
          obtain ⟨⟨ret', m⟩, k₁⟩ := r
          obtain ⟨rfl, -⟩ := llWrite_inv hfirst
          simp only [hfirst] at h
          obtain ⟨n, hrun, hret⟩ := hlast k₁ h
          exact ⟨k₁, n, .inr ⟨hfork, _, hfirst⟩, hrun, hret⟩

/-- `ml_write` is for its range unless that goes beyond 4 GiB and the call is not rejected. -/
lemma mlWrite_addresses_iff (hv : v.avNumber < 30) (hq : v.txQuantum < 2 ^ 32)
    (hfork : fp.resource = .none ∨ fp.resource = .resource) :
    AddressesRange offset data.length k (MlWritePoint P v fp offset data k path)
        (fun ret k' => mlWrite P v k path data offset fp = .ok (ret, k')) ↔
      ¬ Beyond offset data.length ∨ Rejected v data path := by
  constructor
  · rintro ⟨-, hfails⟩
    by_contra h
    obtain ⟨hbeyond, hrej⟩ := not_or.mp h
    have hbeyond := not_not.mp hbeyond
    obtain ⟨ret, k', hrun, hneg, hdata⟩ := hfails hbeyond
    obtain ⟨-, k₁, n, hprepared, hwrite, rfl⟩ := mlWrite_inv hfork hrej hrun
    have hne : data ≠ [] := List.ne_nil_of_length_pos (beyond_iff.mp hbeyond).1
    have hn : n = 0 := by
      apply llWrite_no_data hne hwrite
      rcases hprepared with ⟨-, rfl⟩ | ⟨-, r, hfirst⟩
      · exact hdata
      · exact hdata.rest (llWrite_grows hfirst) (llWrite_grows hwrite)
    subst hn
    cases hneg
  · intro h
    constructor
    · intro k' hpoint
      have hbeyond (hallowed : WriteAllowed v data path) : ¬ Beyond offset data.length :=
        h.resolve_right fun hrej => hrej.not_allowed hv hallowed
      cases hpoint with
      | start => exact .refl
      | appledouble hallowed _ hpoint => exact hpoint.addresses hv hq (hbeyond hallowed)
      | data hallowed hprepared hpoint =>
        have hlast := hpoint.addresses hv hq (hbeyond hallowed)
        rcases hprepared with ⟨-, rfl⟩ | ⟨-, r, hfirst⟩
        · exact hlast
        · exact ((llWrite_point hfirst).addresses hv hq (hbeyond hallowed)).trans hlast
    · intro hbeyond
      obtain ⟨ret, hrun, hneg⟩ := mlWrite_rejected hv (h.resolve_left (not_not.mpr hbeyond))
      exact ⟨ret, k, hrun, hneg, .refl⟩

end MlWriting

/-- Below AFP 3.0, which calls have requests for parts of their range only, and fail for bytes beyond 4 GiB. -/
theorem afp2_addresses_iff {σ : Type} (P : Peer σ) (v : Volume) (hv : v.avNumber < 30) (hq : v.txQuantum < 2 ^ 32)
    (k : Client σ) (fp : FileHandle) (offset : Nat) :
    (∀ buf pos size, pos + size ≤ buf.length →
      (∃ r k', llRead P v k buf pos size offset fp = .ok (r, k')) ∧
      (AddressesRange offset size k (fun k' => ∃ r, llRead P v k buf pos size offset fp = .ok (r, k'))
          (fun ret k' => ∃ eof buf', llRead P v k buf pos size offset fp = .ok ((ret, eof, buf'), k')) ↔
        ¬ Beyond offset size ∨
          (llHandleLocking P v k fp.forkid offset size).1 ≠ 0 ∧ (size % 2 ^ 32 = 0 ∨ offset < 2 ^ 32))) ∧
    (∀ data : Bytes,
      AddressesRange offset data.length k (WritePoint P v fp offset data k)
          (fun ret k' => ∃ n, llWrite P v k data offset fp = .ok ((ret, n), k')) ↔
        ¬ Beyond offset data.length) ∧
    (∀ path data : Bytes, fp.resource = .none ∨ fp.resource = .resource →
      (AddressesRange offset data.length k (MlWritePoint P v fp offset data k path)
          (fun ret k' => mlWrite P v k path data offset fp = .ok (ret, k')) ↔
        ¬ Beyond offset data.length ∨ Rejected v data path)) :=
  ⟨fun _ _ _ hbuf => ⟨llRead_returns P v k offset fp hbuf, llRead_addresses_iff hv⟩, fun _ => llWrite_addresses_iff hv hq,
    fun _ _ hfork => mlWrite_addresses_iff hv hq hfork⟩

theorem afp2_addresses_last_byte :
    AddressesRange (2 ^ 32 - 1) 1 (.start () .empty) (MlWritePoint (lockPeer kFPNoErr) afp2Volume dataFork (2 ^ 32 - 1) [1]
        (.start () .empty) [47, 97])
      (fun ret k' => mlWrite (lockPeer kFPNoErr) afp2Volume (.start () .empty) [47, 97] [1] (2 ^ 32 - 1) dataFork =
        .ok (ret, k')) := by
  refine ((afp2_addresses_iff (lockPeer kFPNoErr) afp2Volume (by decide) (by decide) (.start () .empty) dataFork
    (2 ^ 32 - 1)).2.2 [47, 97] [1] (.inl rfl)).mpr (.inl ?_)
  rw [beyond_iff]
  decide

/-- The byte at 4 GiB: `ml_write` writes the first byte of the file, and `ll_read` reads it. -/
theorem byte_at_4GiB_wraps :
    (∃ k a, mlWrite (lockPeer kFPNoErr) afp2Volume (.start () .empty) [47, 97] [1] (2 ^ 32) dataFork = .ok (1, k) ∧
      k.sent = [(.write false 7 0 [1], a)] ∧ ¬ Addresses (2 ^ 32) 1 (.write false 7 0 [1])) ∧
    ∃ k a, llRead (lockPeer kFPNoErr) afp2Volume (.start () .empty) [0] 0 1 (2 ^ 32) dataFork = .ok ((1, false, [65]), k) ∧
      k.sent = [(.read false 7 0 1, a)] ∧ ¬ Addresses (2 ^ 32) 1 (.read false 7 0 1) := by
  have hpart : ¬ Denotes (2 ^ 32) 1 0 1 := fun h => absurd (h.2.2 0 (Nat.le_refl 0) Nat.one_pos).1 (by decide)
  exact ⟨⟨_, _, rfl, rfl, hpart⟩, _, _, rfl, rfl, hpart⟩

end AfpfsNg.Fork
