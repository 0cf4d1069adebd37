import AfpfsNg.Dsi.Send
import AfpfsNg.Fork.Addresses

/-!
# The progress of a read

The loop of `fuse_read` as rounds (`fuseTurn`). `MakesProgress` is what a caller needs of it: each round that goes on gets at
least a byte, `ll_read` returns a count only for a read that went well, and so there are at most `size + 1` requests.

`ll_read` knows four codes as errors. Any other code, among them -1 for a lost connection and `ETIMEDOUT`, is a read of as
many bytes as came, and the loop goes on.
-/

namespace AfpfsNg.Fork
open AfpfsNg.Base AfpfsNg.Afp AfpfsNg.Did

def llReadErrors : List (Int × Int) :=
  [(kFPAccessDenied, EACCES), (kFPLockErr, EBUSY), (kFPMiscErr, Afp.EIO), (kFPParamErr, Afp.EIO)]

section Call
variable {σ : Type} (P : Peer σ) (v : Volume) (k : Client σ) (size offset : Nat) (fp : FileHandle)

def readReply : Reply × Client σ :=
  (llHandleLocking P v k fp.forkid offset size).2.call P (.read (ext v) fp.forkid (field v offset) (field v size))

def readCount : Nat := ((readReply P v k size offset fp).1.data.take (min v.rxQuantum size)).length

def readUnlock : Int × Client σ := llHandleUnlocking P v (readReply P v k size offset fp).2 fp.forkid offset size

def ReadFails : Prop :=
  (llHandleLocking P v k fp.forkid offset size).1 ≠ 0 ∨ (readUnlock P v k size offset fp).1 ≠ 0 ∨
    (readReply P v k size offset fp).1.code ∈ llReadErrors.map Prod.fst ∨ 2 ^ 31 ≤ readCount P v k size offset fp

def ReadHonest : Prop :=
  ReadFails P v k size offset fp ∨ (readReply P v k size offset fp).1.code = kFPNoErr ∨
    (readReply P v k size offset fp).1.code = kFPEOFErr

/-- The call fails, comes to the end of the file or gets a byte, and the answer allows the count. -/
def ReadFeeds : Prop :=
  ReadFails P v k size offset fp ∨ (readReply P v k size offset fp).1.code = kFPEOFErr ∨
    (readReply P v k size offset fp).1.code = kFPNoErr ∧ (0 < readCount P v k size offset fp ∨ size = 0)

end Call

lemma switch_llReadErrors_pos {code : Int} (h : code ∈ llReadErrors.map Prod.fst) : 0 < switch llReadErrors 0 code :=
  (show ∀ x ∈ llReadErrors, 0 < x.2 by decide) _ (switch_mem h)

section Reading
variable {σ : Type} {P : Peer σ} {v : Volume} {k k' : Client σ} {buf buf' : Bytes} {pos size offset : Nat}
  {fp : FileHandle} {ret : Int} {eof : Bool}

lemma readCount_le : readCount P v k size offset fp ≤ min v.rxQuantum size := by
  rw [readCount, List.length_take]
  exact Nat.min_le_left ..

lemma store_length {bs : Bytes} (h : store buf pos bs = .ok buf') : buf'.length = buf.length := by
  rw [store] at h
  split at h
  case isTrue hfits =>
    cases h
    exact patch_length hfits
  case isFalse => cases h

variable (P v k buf pos size offset fp) in
lemma llRead_steps :
    llRead P v k buf pos size offset fp =
      if (llHandleLocking P v k fp.forkid offset size).1 ≠ 0 then
        .ok ((-EBUSY, false, buf), (llHandleLocking P v k fp.forkid offset size).2)
      else
        (store buf pos ((readReply P v k size offset fp).1.data.take (min v.rxQuantum size))).map fun buf =>
          let ret := if (readUnlock P v k size offset fp).1 ≠ 0 then Afp.EIO
            else switch llReadErrors 0 (readReply P v k size offset fp).1.code
          if ret ≠ 0 then ((-ret, false, buf), (readUnlock P v k size offset fp).2)
          else ((returnSize (readCount P v k size offset fp), (readReply P v k size offset fp).1.code = kFPEOFErr, buf),
            (readUnlock P v k size offset fp).2) :=
  rfl

lemma returnSize_neg {n : Nat} (hn : n < 2 ^ 32) (h : 2 ^ 31 ≤ n) : returnSize n < 0 := by
  rw [returnSize, Nat.mod_eq_of_lt hn, int32, if_neg (Nat.not_lt.mpr h)]
  omega

lemma llRead_result (hrx : v.rxQuantum < 2 ^ 32) (h : llRead P v k buf pos size offset fp = .ok ((ret, eof, buf'), k')) :
    buf'.length = buf.length ∧ (ReadFails P v k size offset fp ∧ ret < 0 ∨
      ¬ ReadFails P v k size offset fp ∧ ret = readCount P v k size offset fp ∧
        eof = decide ((readReply P v k size offset fp).1.code = kFPEOFErr) ∧ k' = (readUnlock P v k size offset fp).2) := by
  rw [llRead_steps] at h
  by_cases hlock : (llHandleLocking P v k fp.forkid offset size).1 ≠ 0
  · rw [if_pos hlock] at h
    cases h
    exact ⟨rfl, .inl ⟨.inl hlock, by decide⟩⟩
  rw [if_neg hlock] at h
  cases hstore : store buf pos ((readReply P v k size offset fp).1.data.take (min v.rxQuantum size)) with
  | error f =>
    rw [hstore] at h
    cases h
  | ok stored =>
    rw [hstore] at h
    simp only [Except.map] at h
    by_cases hunlock : (readUnlock P v k size offset fp).1 ≠ 0
    · rw [if_pos hunlock, if_pos (by decide)] at h
      cases h
      exact ⟨store_length hstore, .inl ⟨.inr (.inl hunlock), by decide⟩⟩
    rw [if_neg hunlock] at h
    by_cases hcode : (readReply P v k size offset fp).1.code ∈ llReadErrors.map Prod.fst
    · have hpos := switch_llReadErrors_pos hcode
      rw [if_pos (Int.ne_of_gt hpos)] at h
      cases h
      exact ⟨store_length hstore, .inl ⟨.inr (.inr (.inl hcode)), Int.neg_neg_of_pos hpos⟩⟩
    rw [switch_default hcode, if_neg (not_not.mpr rfl)] at h
    cases h
    refine ⟨store_length hstore, ?_⟩
    have hcount := @readCount_le σ P v k size offset fp
    by_cases hlarge : 2 ^ 31 ≤ readCount P v k size offset fp
    · exact .inl ⟨.inr (.inr (.inr hlarge)), returnSize_neg (by omega) hlarge⟩
    · right
      refine ⟨?_, returnSize_of_lt (Nat.not_le.mp hlarge), rfl, rfl⟩
      rintro (h | h | h | h)
      · exact hlock h
      · exact hunlock h
      · exact hcode h
      · exact hlarge h

end Reading

structure Iteration (σ : Type) where
  client : Client σ
  fp : FileHandle
  buf : Bytes
  amountRead : Nat
  size : Nat
  offset : Nat

section Rounds
variable {σ : Type} (P : Peer σ) (v : Volume) (path : Bytes)

def fuseStart (k : Client σ) (fp : FileHandle) (buf : Bytes) (offset : Nat) : Iteration σ :=
  ⟨k, fp, buf, 0, buf.length, offset⟩

def fuseTurn (s : Iteration σ) : Except Fault (Turn ((Int × Bytes) × Client σ) (Iteration σ)) := do
  let ((ret, eof, buf, fp), k) ← mlRead P v s.client path s.buf s.amountRead s.size s.offset s.fp
  if ret < 0 then return .ends ((ret, buf), k)
  else
    let amountRead := s.amountRead + ret.toNat
    if eof then return .ends ((returnSize amountRead, buf), k)
    else
      let size := s.size - ret.toNat
      if size = 0 then return .ends ((returnSize amountRead, buf), k)
      else return .again ⟨k, fp, buf, amountRead, size, s.offset + ret.toNat⟩

/-- The calls of `ll_read` in a round, by the client and the buffer they start from. -/
inductive ReadCall (s : Iteration σ) : Client σ → Bytes → Prop
  | data {converted} (hconv : convertPathToAfp v path = .ok (some converted))
      (hfork : s.fp.resource = .none ∨ s.fp.resource = .resource) : ReadCall s s.client s.buf
  | again {converted ret eof buf k} (hconv : convertPathToAfp v path = .ok (some converted))
      (hfork : s.fp.resource = .resource)
      (hfirst : llRead P v s.client s.buf s.amountRead s.size s.offset s.fp = .ok ((ret, eof, buf), k))
      (hret : 0 ≤ ret) (hone : ret ≠ 1) : ReadCall s k buf

def Client.dataRequests (k : Client σ) : Nat := (k.sent.filter fun x => x.1.isData).length

def Bounded (start s : Iteration σ) : Prop :=
  s.client.dataRequests ≤ start.client.dataRequests + (start.size + 1) ∧
    ∀ r k, fuseTurn P v path s = .ok (.ends (r, k)) → k.dataRequests ≤ start.client.dataRequests + (start.size + 1)

/-- Each round that goes on gets a byte, `ll_read` returns a count only for a read that went well, and the loop ends. -/
structure MakesProgress (start : Iteration σ) : Prop where
  advances : ∀ s t, Reached (fuseTurn P v path) start s → fuseTurn P v path s = .ok (.again t) →
    s.amountRead < t.amountRead
  honest : ∀ s k buf, Reached (fuseTurn P v path) start s → ReadCall P v path s k buf →
    ∀ ret eof buf' k', llRead P v k buf s.amountRead s.size s.offset s.fp = .ok ((ret, eof, buf'), k') → 0 ≤ ret →
      (readReply P v k s.size s.offset s.fp).1.code = kFPNoErr ∨
        (readReply P v k s.size s.offset s.fp).1.code = kFPEOFErr
  requests : ∀ s, Reached (fuseTurn P v path) start s → Bounded P v path start s
  stops : ∃ s, Reached (fuseTurn P v path) start s ∧ ∀ t, fuseTurn P v path s ≠ .ok (.again t)

/-- What a round must be answered, by the kind of the file. -/
def Advances (s : Iteration σ) : Prop :=
  match s.fp.resource with
  | .none => ReadFeeds P v s.client s.size s.offset s.fp
  | .resource =>
    ReadFails P v s.client s.size s.offset s.fp ∨ ReadHonest P v s.client s.size s.offset s.fp ∧
      if readCount P v s.client s.size s.offset s.fp = 1 then
        (readReply P v s.client s.size s.offset s.fp).1.code = kFPEOFErr
      else ReadFeeds P v (readUnlock P v s.client s.size s.offset s.fp).2 s.size s.offset s.fp
  | .comment => s.fp.eof = false ∨ s.size = 0
  | _ => True

end Rounds

/-- The ways of `ml_read`. -/
inductive ReadRound {σ : Type} (P : Peer σ) (v : Volume) (path : Bytes) (k : Client σ) (buf : Bytes) (pos size offset : Nat)
    (fp : FileHandle) : Int → Bool → Bytes → FileHandle → Client σ → Prop
  | unconverted {ret eof} (hneg : ret < 0) : ReadRound P v path k buf pos size offset fp ret eof buf fp k
  | data {converted ret eof buf' k'} (hconv : convertPathToAfp v path = .ok (some converted)) (hfork : fp.resource = .none)
      (hread : llRead P v k buf pos size offset fp = .ok ((ret, eof, buf'), k')) :
      ReadRound P v path k buf pos size offset fp ret eof buf' fp k'
  | failed {converted ret eof buf' k'} (hconv : convertPathToAfp v path = .ok (some converted))
      (hfork : fp.resource = .resource) (hread : llRead P v k buf pos size offset fp = .ok ((ret, eof, buf'), k'))
      (hneg : ret < 0) : ReadRound P v path k buf pos size offset fp ret eof buf' fp k'
  | one {converted eof buf' k'} (hconv : convertPathToAfp v path = .ok (some converted)) (hfork : fp.resource = .resource)
      (hread : llRead P v k buf pos size offset fp = .ok ((1, eof, buf'), k')) :
      ReadRound P v path k buf pos size offset fp 0 eof buf' fp k'
  | twice {converted ret₁ eof₁ buf₁ k₁ ret eof buf' k'} (hconv : convertPathToAfp v path = .ok (some converted))
      (hfork : fp.resource = .resource) (hfirst : llRead P v k buf pos size offset fp = .ok ((ret₁, eof₁, buf₁), k₁))
      (hret : 0 ≤ ret₁) (hone : ret₁ ≠ 1)
      (hread : llRead P v k₁ buf₁ pos size offset fp = .ok ((ret, eof, buf'), k')) :
      ReadRound P v path k buf pos size offset fp ret eof buf' fp k'
  | spent {converted} (hconv : convertPathToAfp v path = .ok (some converted)) (hkind : fp.resource = .comment)
      (heof : fp.eof = true) : ReadRound P v path k buf pos size offset fp 0 false buf fp k
  | other {ret eof buf' fp' k'} (hkind : fp.resource ≠ .none ∧ fp.resource ≠ .resource)
      (hsent : Adds (fun r => r.isData = false) k k') (hends : ret < 0 ∨ eof = true ∨ size ≤ ret.toNat) :
      ReadRound P v path k buf pos size offset fp ret eof buf' fp' k'

section Kinds
variable {σ : Type} {P : Peer σ} {v : Volume} {path : Bytes} {k k' : Client σ} {buf buf' : Bytes} {pos size offset : Nat}
  {fp fp' : FileHandle} {ret : Int} {eof : Bool}

lemma readComment_inv {amount amount' : Nat} {eof' : Bool}
    (h : readComment P k amount eof buf pos size fp = .ok ((ret, amount', eof', buf', fp'), k')) :
    Adds (fun r => r.isData = false) k k' ∧
      (fp.eof = true ∧ ret = 1 ∧ amount' = amount ∧ eof' = eof ∧ buf' = buf ∧ fp' = fp ∧ k' = k ∨
        ret = 1 ∧ eof' = true ∨ ret < 0) := by
  rw [readComment] at h
  by_cases heof : fp.eof = true
  · rw [if_pos heof] at h
    cases h
    exact ⟨.refl, .inl ⟨heof, rfl, rfl, rfl, rfl, rfl, rfl⟩⟩
  rw [if_neg heof] at h
  have hcall : Adds (fun r => r.isData = false) k (k.call P (.getcomment fp.did fp.basename)).2 := .call rfl
  by_cases hcode : (k.call P (.getcomment fp.did fp.basename)).1.code = kFPNoErr
  · simp only [if_pos hcode] at h
    cases hstore : store buf pos ((k.call P (.getcomment fp.did fp.basename)).1.data.take size) with
    | error f =>
      rw [hstore] at h
      cases h
    | ok stored =>
      rw [hstore] at h
      cases h
      exact ⟨hcall, .inr (.inl ⟨rfl, rfl⟩)⟩
  · simp only [if_neg hcode] at h
    cases h
    exact ⟨hcall, .inr (.inr (switch_spec (fun _ e => -e < 0) (by decide) fun _ => by decide))⟩

lemma appledoubleRead_inv {amount : Nat} (hkind : fp.resource ≠ .none ∧ fp.resource ≠ .resource)
    (h : appledoubleRead P v k buf pos size offset fp = .ok ((ret, amount, eof, buf', fp'), k')) :
    Adds (fun r => r.isData = false) k k' ∧
      (fp.resource = .comment ∧ fp.eof = true ∧ ret = 1 ∧ amount = 0 ∧ eof = false ∧ buf' = buf ∧ fp' = fp ∧ k' = k ∨
        ret < 0 ∨ ret = 1 ∧ (eof = true ∨ size = amount ∧ size < 32)) := by
  rw [appledoubleRead] at h
  cases hres : fp.resource with
  | none => exact absurd hres hkind.1
  | resource => exact absurd hres hkind.2
  | appledouble =>
    rw [hres] at h
    cases h
    exact ⟨.refl, .inr (.inl (by decide))⟩
  | finderinfo =>
    rw [hres] at h
    simp only at h
    by_cases hoffset : 32 < offset
    · rw [if_pos hoffset] at h
      cases h
      exact ⟨.refl, .inr (.inl (by decide))⟩
    rw [if_neg hoffset] at h
    let r := Request.getfiledirparms fp.did 0x20 0x20 fp.basename
    have hcall : Adds (fun r => r.isData = false) k (k.call P r).2 := .call rfl
    by_cases hcode : (k.call P r).1.code < 0
    · rw [if_pos hcode] at h
      cases h
      exact ⟨hcall, .inr (.inl hcode)⟩
    rw [if_neg hcode] at h
    obtain ⟨stored, -, hcomment⟩ := bind_eq_ok h
    obtain ⟨hsent, ⟨-, rfl, rfl, rfl, -⟩ | ⟨rfl, rfl⟩ | hneg⟩ := readComment_inv hcomment
    · refine ⟨hcall.trans hsent, .inr (.inr ⟨rfl, ?_⟩)⟩
      rw [decide_eq_true_iff]
      omega
    · exact ⟨hcall.trans hsent, .inr (.inr ⟨rfl, .inl rfl⟩)⟩
    · exact ⟨hcall.trans hsent, .inr (.inl hneg)⟩
  | comment =>
    rw [hres] at h
    obtain ⟨hsent, ⟨heof, rfl, rfl, rfl, rfl, rfl, rfl⟩ | ⟨rfl, rfl⟩ | hneg⟩ := readComment_inv h
    · exact ⟨hsent, .inl ⟨rfl, heof, rfl, rfl, rfl, rfl, rfl, rfl⟩⟩
    · exact ⟨hsent, .inr (.inr ⟨rfl, .inl rfl⟩)⟩
    · exact ⟨hsent, .inr (.inl hneg)⟩
  | serverIcon =>
    rw [hres] at h
    simp only at h
    by_cases hoffset : 256 < offset
    · rw [if_pos hoffset] at h
      cases h
      exact ⟨.refl, .inr (.inl (by decide))⟩
    rw [if_neg hoffset] at h
    obtain ⟨stored, -, hicon⟩ := bind_eq_ok h
    cases hicon
    exact ⟨.refl, .inr (.inr ⟨rfl, .inl rfl⟩)⟩

lemma mlRead_round (h : mlRead P v k path buf pos size offset fp = .ok ((ret, eof, buf', fp'), k')) :
    ReadRound P v path k buf pos size offset fp ret eof buf' fp' k' := by
  rw [mlRead] at h
  obtain ⟨c, hconv, hrun⟩ := bind_eq_ok h
  clear h
  cases c with
  | none =>
    cases hrun
    exact .unconverted (by decide)
  | some converted =>
    obtain ⟨⟨⟨ret₁, amount, eof₁, buf₁, fp₁⟩, k₁⟩, happle, hrest⟩ := bind_eq_ok hrun
    clear hrun
    simp only at hrest
    by_cases hkind : fp.resource ≠ .none ∧ fp.resource ≠ .resource
    · obtain ⟨hsent, ⟨hcomment, heof, rfl, rfl, rfl, rfl, rfl, rfl⟩ | hneg | ⟨rfl, hends⟩⟩ := appledoubleRead_inv hkind happle
      · cases hrest
        exact .spent hconv hcomment heof
      · rw [if_pos hneg] at hrest
        cases hrest
        exact .other hkind hsent (.inl hneg)
      · rw [if_neg (by decide), if_pos rfl] at hrest
        cases hrest
        refine .other hkind hsent (.inr (hends.imp_right ?_))
        rintro ⟨rfl, hsize⟩
        rw [returnSize_of_lt (by omega), Int.toNat_natCast]
    · by_cases hdata : fp.resource = .none
      · rw [appledoubleRead, hdata] at happle
        cases happle
        obtain ⟨⟨⟨ret₂, eof₂, buf₂⟩, k₂⟩, hread, hend⟩ := bind_eq_ok hrest
        cases hend
        exact .data hconv hdata hread
      · have hresource : fp.resource = .resource := not_not.mp fun hne => hkind ⟨hdata, hne⟩
        rw [appledoubleRead, hresource] at happle
        obtain ⟨⟨⟨ret₂, eof₂, buf₂⟩, k₂⟩, hfirst, hend⟩ := bind_eq_ok happle
        cases hend
        by_cases hneg : ret₁ < 0
        · rw [if_pos hneg] at hrest
          cases hrest
          exact .failed hconv hresource hfirst hneg
        rw [if_neg hneg] at hrest
        by_cases hone : ret₁ = 1
        · rw [if_pos hone] at hrest
          cases hrest
          exact .one hconv hresource (hone ▸ hfirst)
        · rw [if_neg hone] at hrest
          obtain ⟨⟨⟨ret₃, eof₃, buf₃⟩, k₃⟩, hread, hlast⟩ := bind_eq_ok hrest
          cases hlast
          exact .twice hconv hresource hfirst (Int.not_lt.mp hneg) hone hread

end Kinds

section Requests
variable {σ : Type} {P : Peer σ} {v : Volume} {path : Bytes} {k k' : Client σ} {buf buf' : Bytes} {pos size offset : Nat}
  {fp fp' : FileHandle} {ret : Int} {eof : Bool}

lemma Adds.dataRequests (h : Adds (fun r => r.isData = false) k k') : k'.dataRequests = k.dataRequests := by
  obtain ⟨sent, hsent, hdata⟩ := h
  have hnone : sent.filter (fun x => x.1.isData) = [] := by
    rw [List.filter_eq_nil_iff]
    intro x hx
    rw [hdata x hx]
    exact Bool.false_ne_true
  rw [Client.dataRequests, Client.dataRequests, hsent, List.filter_append, hnone, List.append_nil]

lemma dataRequests_call (r : Request) : (k.call P r).2.dataRequests ≤ k.dataRequests + 1 := by
  show ((k.sent ++ [(r, _)]).filter _).length ≤ _
  rw [List.filter_append, List.length_append]
  exact Nat.add_le_add_left (List.length_filter_le ..) _

lemma llRead_requests {r : Int × Bool × Bytes} (h : llRead P v k buf pos size offset fp = .ok (r, k')) :
    k'.dataRequests ≤ k.dataRequests + 1 := by
  have hlock : (llHandleLocking P v k fp.forkid offset size).2.dataRequests = k.dataRequests :=
    Adds.dataRequests (.locking rfl)
  rcases llRead_inv h with ⟨-, -, rfl⟩ | rfl
  · omega
  · rw [Adds.dataRequests (.unlocking rfl), ← hlock]
    exact dataRequests_call _

lemma ReadRound.requests (h : ReadRound P v path k buf pos size offset fp ret eof buf' fp' k')
    (hfork : fp.resource ≠ .resource) : k'.dataRequests ≤ k.dataRequests + 1 := by
  cases h with
  | unconverted => exact Nat.le_succ _
  | data _ _ hread => exact llRead_requests hread
  | failed _ hresource => exact absurd hresource hfork
  | one _ hresource => exact absurd hresource hfork
  | twice _ hresource => exact absurd hresource hfork
  | spent => exact Nat.le_succ _
  | other _ hsent => exact Nat.le_succ_of_le (Nat.le_of_eq hsent.dataRequests)

end Requests

section Turns
variable {σ : Type} {P : Peer σ} {v : Volume} {path : Bytes} {s t start : Iteration σ}

lemma fuseTurn_again (h : fuseTurn P v path s = .ok (.again t)) :
    ∃ ret buf fp k, mlRead P v s.client path s.buf s.amountRead s.size s.offset s.fp = .ok ((ret, false, buf, fp), k) ∧
      0 ≤ ret ∧ ret.toNat < s.size ∧
      t = ⟨k, fp, buf, s.amountRead + ret.toNat, s.size - ret.toNat, s.offset + ret.toNat⟩ := by
  rw [fuseTurn] at h
  obtain ⟨⟨⟨ret, eof, buf, fp⟩, k⟩, hread, hrest⟩ := bind_eq_ok h
  simp only at hrest
  by_cases hneg : ret < 0
  · rw [if_pos hneg] at hrest
    cases hrest
  rw [if_neg hneg] at hrest
  cases eof with
  | true => cases hrest
  | false =>
    rw [if_neg Bool.false_ne_true] at hrest
    by_cases hdone : s.size - ret.toNat = 0
    · rw [if_pos hdone] at hrest
      cases hrest
    · rw [if_neg hdone] at hrest
      cases hrest
      exact ⟨ret, buf, fp, k, hread, Int.not_lt.mp hneg, by omega, rfl⟩

lemma fuseTurn_idle {buf : Bytes} {fp : FileHandle} {k : Client σ} (hsize : 0 < s.size)
    (h : mlRead P v s.client path s.buf s.amountRead s.size s.offset s.fp = .ok ((0, false, buf, fp), k)) :
    fuseTurn P v path s = .ok (.again ⟨k, fp, buf, s.amountRead, s.size, s.offset⟩) := by
  rw [fuseTurn, h]
  exact if_neg (Nat.ne_of_gt hsize)

lemma fuseTurn_ends {r : Int × Bytes} {k : Client σ} (h : fuseTurn P v path s = .ok (.ends (r, k))) :
    ∃ ret eof buf fp, mlRead P v s.client path s.buf s.amountRead s.size s.offset s.fp = .ok ((ret, eof, buf, fp), k) := by
  rw [fuseTurn] at h
  obtain ⟨⟨⟨ret, eof, buf, fp⟩, k'⟩, hread, hrest⟩ := bind_eq_ok h
  refine ⟨ret, eof, buf, fp, hread.trans ?_⟩
  simp only at hrest
  split at hrest
  · cases hrest
    rfl
  · split at hrest
    · cases hrest
      rfl
    · split at hrest
      · cases hrest
        rfl
      · cases hrest

lemma fuseLoop_eq_loop (rounds : Nat) :
    fuseLoop P v path rounds s.client s.fp s.buf s.amountRead s.size s.offset =
      loop .outOfFuel (fuseTurn P v path) rounds s := by
  induction rounds generalizing s with
  | zero => rfl
  | succ rounds ih =>
    rw [fuseLoop, loop, fuseTurn]
    cases mlRead P v s.client path s.buf s.amountRead s.size s.offset s.fp with
    | error f => rfl
    | ok r =>
      obtain ⟨⟨ret, eof, buf, fp⟩, k⟩ := r
      simp only [bind, Except.bind, pure, Except.pure]
      by_cases hneg : ret < 0
      · rw [if_pos hneg, if_pos hneg]
      rw [if_neg hneg, if_neg hneg]
      cases eof with
      | true => rfl
      | false =>
        rw [if_neg Bool.false_ne_true, if_neg Bool.false_ne_true]
        by_cases hdone : s.size - ret.toNat = 0
        · rw [if_pos hdone, if_pos hdone]
        · rw [if_neg hdone, if_neg hdone]
          exact @ih ⟨k, fp, buf, s.amountRead + ret.toNat, s.size - ret.toNat, s.offset + ret.toNat⟩

end Turns

section Progress
variable {σ : Type} {P : Peer σ} {v : Volume} {path : Bytes} {s t start : Iteration σ}

/-- What every round keeps: the file, and room in the buffer for what is still to come. -/
structure Roomy (start s : Iteration σ) : Prop where
  fp : s.fp = start.fp
  total : s.amountRead + s.size = start.amountRead + start.size
  room : s.amountRead + s.size ≤ s.buf.length

lemma fuseTurn_round (h : fuseTurn P v path s = .ok (.again t)) :
    ∃ ret buf fp k, ReadRound P v path s.client s.buf s.amountRead s.size s.offset s.fp ret false buf fp k ∧
      0 ≤ ret ∧ ret.toNat < s.size ∧ t.client = k ∧ t.fp = fp ∧ t.buf = buf ∧ t.amountRead = s.amountRead + ret.toNat ∧
      t.size = s.size - ret.toNat := by
  obtain ⟨ret, buf, fp, k, hread, hret, hmore, rfl⟩ := fuseTurn_again h
  exact ⟨ret, buf, fp, k, mlRead_round hread, hret, hmore, rfl, rfl, rfl, rfl, rfl⟩

lemma Roomy.step (hrx : v.rxQuantum < 2 ^ 32) (h : Roomy start s) (hturn : fuseTurn P v path s = .ok (.again t)) :
    Roomy start t := by
  obtain ⟨ret, buf, fp, k, hround, hret, hmore, -, hfp, hbuf, hamount, hsize⟩ := fuseTurn_round hturn
  have hkept : fp = s.fp ∧ buf.length = s.buf.length := by
    cases hround with
    | unconverted hneg => omega
    | data _ _ hread => exact ⟨rfl, (llRead_result hrx hread).1⟩
    | failed _ _ _ hneg => omega
    | one _ _ hread => exact ⟨rfl, (llRead_result hrx hread).1⟩
    | twice _ _ hfirst _ _ hread => exact ⟨rfl, (llRead_result hrx hread).1.trans (llRead_result hrx hfirst).1⟩
    | spent => exact ⟨rfl, rfl⟩
    | other _ _ hends =>
      rcases hends with hneg | heof | hall
      · omega
      · cases heof
      · omega
  obtain ⟨hfp', hlen⟩ := hkept
  constructor
  · rw [hfp, hfp', h.fp]
  · rw [hamount, hsize, ← h.total]
    omega
  · rw [hamount, hsize, hbuf, hlen]
    have := h.room
    omega

lemma Roomy.reached (hrx : v.rxQuantum < 2 ^ 32) (hroom : start.amountRead + start.size ≤ start.buf.length)
    (h : Reached (fuseTurn P v path) start s) : Roomy start s :=
  h.inv (fun _ _ hb hturn => hb.step hrx hturn) ⟨rfl, rfl, hroom⟩

variable {k : Client σ} {buf converted : Bytes} {pos size offset : Nat} {fp : FileHandle}

lemma ReadFeeds.count_pos {k' : Client σ} {buf' : Bytes} {ret : Int} (h : ReadFeeds P v k size offset fp)
    (hrx : v.rxQuantum < 2 ^ 32) (hread : llRead P v k buf pos size offset fp = .ok ((ret, false, buf'), k'))
    (hret : 0 ≤ ret) (hmore : ret.toNat < size) : 0 < ret.toNat := by
  obtain ⟨-, ⟨-, hneg⟩ | ⟨hok, hcount, heof, -⟩⟩ := llRead_result hrx hread
  · omega
  · rcases h with hfails | hend | ⟨-, hpos | hzero⟩
    · exact absurd hfails hok
    · rw [hend] at heof
      cases heof
    · omega
    · omega

lemma Advances.advances (hrx : v.rxQuantum < 2 ^ 32)
    (h : (∃ converted, convertPathToAfp v path = .ok (some converted)) → Advances P v s)
    (hturn : fuseTurn P v path s = .ok (.again t)) : s.amountRead < t.amountRead := by
  obtain ⟨ret, buf, fp, k, hround, hret, hmore, -, -, -, hamount, -⟩ := fuseTurn_round hturn
  have hpos : 0 < ret.toNat := by
    cases hround with
    | unconverted hneg => omega
    | @data converted _ _ _ _ hconv hfork hread =>
      have hadv := h ⟨converted, hconv⟩
      rw [Advances, hfork] at hadv
      exact ReadFeeds.count_pos hadv hrx hread hret hmore
    | failed _ _ _ hneg => omega
    | @one converted _ _ _ hconv hfork hread =>
      have hadv := h ⟨converted, hconv⟩
      rw [Advances, hfork] at hadv
      obtain ⟨-, ⟨-, hneg⟩ | ⟨hok, hcount, heof, -⟩⟩ := llRead_result hrx hread
      · omega
      · obtain ⟨-, hrest⟩ := hadv.resolve_left hok
        rw [if_pos (by omega)] at hrest
        rw [hrest] at heof
        cases heof
    | @twice converted ret₁ _ _ _ _ _ _ _ hconv hfork hfirst hret₁ hone hread =>
      have hadv := h ⟨converted, hconv⟩
      rw [Advances, hfork] at hadv
      obtain ⟨-, ⟨-, hneg⟩ | ⟨hok, hcount, -, rfl⟩⟩ := llRead_result hrx hfirst
      · omega
      · obtain ⟨-, hrest⟩ := hadv.resolve_left hok
        rw [if_neg (by omega)] at hrest
        exact hrest.count_pos hrx hread hret hmore
    | @spent converted hconv hkind heof =>
      have hadv := h ⟨converted, hconv⟩
      rw [Advances, hkind] at hadv
      rcases hadv with hfresh | hzero
      · rw [heof] at hfresh
        cases hfresh
      · omega
    | other _ _ hends =>
      rcases hends with hneg | heof | hall
      · omega
      · cases heof
      · omega
  omega

lemma ReadFeeds.honest (h : ReadFeeds P v k size offset fp) : ReadHonest P v k size offset fp := by
  rcases h with hfails | hend | ⟨hcode, -⟩
  · exact .inl hfails
  · exact .inr (.inr hend)
  · exact .inr (.inl hcode)

lemma Advances.honest (hrx : v.rxQuantum < 2 ^ 32)
    (h : (∃ converted, convertPathToAfp v path = .ok (some converted)) → Advances P v s)
    (hcall : ReadCall P v path s k buf) : ReadHonest P v k s.size s.offset s.fp := by
  cases hcall with
  | @data converted hconv hfork =>
    have hadv := h ⟨converted, hconv⟩
    rcases hfork with hfork | hfork
    · rw [Advances, hfork] at hadv
      exact ReadFeeds.honest hadv
    · rw [Advances, hfork] at hadv
      exact hadv.elim .inl And.left
  | @again converted ret _ _ _ hconv hfork hfirst hret hone =>
    have hadv := h ⟨converted, hconv⟩
    rw [Advances, hfork] at hadv
    obtain ⟨-, ⟨-, hneg⟩ | ⟨hok, hcount, -, rfl⟩⟩ := llRead_result hrx hfirst
    · omega
    · obtain ⟨-, hrest⟩ := hadv.resolve_left hok
      rw [if_neg (by omega)] at hrest
      exact hrest.honest

lemma bounded_of_advances (hrx : v.rxQuantum < 2 ^ 32) (hroom : start.amountRead + start.size ≤ start.buf.length)
    (hfork : start.fp.resource ≠ .resource)
    (hadv : ∀ s t, Reached (fuseTurn P v path) start s → fuseTurn P v path s = .ok (.again t) →
      s.amountRead < t.amountRead) (h : Reached (fuseTurn P v path) start s) : Bounded P v path start s := by
  have hround {b : Iteration σ} (hb : Reached (fuseTurn P v path) start b) : b.fp.resource ≠ .resource :=
    (Roomy.reached hrx hroom hb).fp ▸ hfork
  have hle : s.client.dataRequests + start.amountRead ≤ start.client.dataRequests + s.amountRead := by
    induction h with
    | start => exact Nat.le_refl _
    | @next b c hb hturn ih =>
      obtain ⟨ret, buf, fp, k, hread, -, -, rfl, -⟩ := fuseTurn_round hturn
      have hone := hread.requests (hround hb)
      have hmore := hadv b c hb hturn
      omega
  have htotal := (Roomy.reached hrx hroom h).total
  refine ⟨by omega, fun r k hturn => ?_⟩
  obtain ⟨ret, eof, buf, fp, hread⟩ := fuseTurn_ends hturn
  have hone := (mlRead_round hread).requests (hround h)
  omega

lemma llRead_idle (hrx : v.rxQuantum < 2 ^ 32) (hbuf : pos + size ≤ buf.length)
    (hfeeds : ¬ ReadFeeds P v k size offset fp)
    (hhonest : ∀ ret eof buf' k', llRead P v k buf pos size offset fp = .ok ((ret, eof, buf'), k') → 0 ≤ ret →
      (readReply P v k size offset fp).1.code = kFPNoErr ∨ (readReply P v k size offset fp).1.code = kFPEOFErr) :
    0 < size ∧ ∃ buf' k', llRead P v k buf pos size offset fp = .ok (((0 : Nat), false, buf'), k') := by
  obtain ⟨⟨ret, eof, buf'⟩, k', hrun⟩ := llRead_returns P v k offset fp hbuf
  obtain ⟨-, ⟨hfails, -⟩ | ⟨-, hcount, heof, -⟩⟩ := llRead_result hrx hrun
  · exact absurd (.inl hfails) hfeeds
  · have hend : ¬ (readReply P v k size offset fp).1.code = kFPEOFErr := fun h => hfeeds (.inr (.inl h))
    have hcode := (hhonest ret eof buf' k' hrun (by omega)).resolve_right hend
    obtain ⟨hzero, hsize⟩ := not_or.mp fun h => hfeeds (.inr (.inr ⟨hcode, h⟩))
    rw [decide_eq_false hend] at heof
    subst heof
    obtain rfl : ret = (0 : Nat) := by omega
    exact ⟨Nat.pos_of_ne_zero hsize, buf', k', hrun⟩

lemma mlRead_twice {k₁ k' : Client σ} {buf₁ buf' : Bytes} {n m : Nat} {eof₁ eof : Bool}
    (hconv : convertPathToAfp v path = .ok (some converted)) (hfork : fp.resource = .resource)
    (hfirst : llRead P v k buf pos size offset fp = .ok (((n : Nat), eof₁, buf₁), k₁)) (hone : n ≠ 1)
    (hread : llRead P v k₁ buf₁ pos size offset fp = .ok (((m : Nat), eof, buf'), k')) :
    mlRead P v k path buf pos size offset fp = .ok (((m : Nat), eof, buf', fp), k') := by
  have hneg : ¬ (n : Int) < 0 := by omega
  have hone' : ¬ (n : Int) = 1 := by omega
  simp [mlRead, hconv, appledoubleRead, hfork, hfirst, hread, hneg, hone', bind, Except.bind, pure, Except.pure]

lemma mlRead_spent (hconv : convertPathToAfp v path = .ok (some converted)) (hkind : fp.resource = .comment)
    (heof : fp.eof = true) : mlRead P v k path buf pos size offset fp = .ok ((0, false, buf, fp), k) := by
  simp [mlRead, hconv, appledoubleRead, hkind, readComment, heof, returnSize, int32, bind, Except.bind, pure, Except.pure]

lemma MakesProgress.enough (hrx : v.rxQuantum < 2 ^ 32) (hroom : start.amountRead + start.size ≤ start.buf.length)
    (h : MakesProgress P v path start) (hs : Reached (fuseTurn P v path) start s)
    (hconv : convertPathToAfp v path = .ok (some converted)) : Advances P v s := by
  have hroomy := Roomy.reached hrx hroom hs
  -- a round that gets nothing does not go on
  have hidle : ∀ {buf fp k}, 0 < s.size →
      mlRead P v s.client path s.buf s.amountRead s.size s.offset s.fp ≠ .ok ((0, false, buf, fp), k) := by
    intro buf fp k hsize hread
    have hmore := h.advances s _ hs (fuseTurn_idle hsize hread)
    exact Nat.lt_irrefl _ hmore
  by_contra hnot
  rw [Advances] at hnot
  cases hres : s.fp.resource with
  | none =>
    rw [hres] at hnot
    obtain ⟨hsize, buf', k', hread⟩ := llRead_idle hrx hroomy.room hnot
      (h.honest s _ _ hs (.data hconv (.inl hres)))
    exact hidle hsize (mlRead_data hconv hres hread)
  | resource =>
    rw [hres] at hnot
    obtain ⟨hok, hrest⟩ := not_or.mp hnot
    obtain ⟨⟨ret, eof, buf₁⟩, k₁, hfirst⟩ := llRead_returns P v s.client s.offset s.fp hroomy.room
    obtain ⟨hlen, ⟨hfails, -⟩ | ⟨-, rfl, heof, rfl⟩⟩ := llRead_result hrx hfirst
    · exact hok hfails
    · have hhonest := h.honest s _ _ hs (.data hconv (.inr hres)) _ _ _ _ hfirst (by omega)
      have hrest := not_and.mp hrest (.inr hhonest)
      by_cases hone : readCount P v s.client s.size s.offset s.fp = 1
      · rw [if_pos hone] at hrest
        rw [decide_eq_false hrest] at heof
        subst heof
        rw [hone] at hfirst
        have hle := @readCount_le σ P v s.client s.size s.offset s.fp
        exact hidle (by omega) (mlRead_resource hconv hres hfirst)
      · rw [if_neg hone] at hrest
        have hcall := h.honest s _ _ hs (.again hconv hres hfirst (by omega) (by omega))
        obtain ⟨hsize, buf', k', hread⟩ := llRead_idle hrx (hlen ▸ hroomy.room) hrest hcall
        exact hidle hsize (mlRead_twice hconv hres hfirst hone hread)
  | comment =>
    rw [hres] at hnot
    obtain ⟨heof, hsize⟩ := not_or.mp hnot
    exact hidle (Nat.pos_of_ne_zero hsize) (mlRead_spent hconv hres (Bool.not_eq_false _ ▸ heof))
  | appledouble => exact hnot (by rw [hres]; trivial)
  | finderinfo => exact hnot (by rw [hres]; trivial)
  | serverIcon => exact hnot (by rw [hres]; trivial)

end Progress

def silentPeer : Peer Unit where
  query _ _ _ := none
  respond s _ := (⟨Dsi.ETIMEDOUT, 0, [], 0⟩, s)

end AfpfsNg.Fork
