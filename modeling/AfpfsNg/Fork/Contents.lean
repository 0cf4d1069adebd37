import AfpfsNg.Fork.Tiling

/-!
# Open files as strings of bytes

`fuse_write` is `ml_write`, and with `fuse_read` it is what a program can do with an open file. `FileCall.does` says what the
two mean for files that are strings of bytes. Several handles may be for one file.

`Stores` is a server that keeps the files: it stores what is written, and answers a read as a `ValidReader` does.
-/

namespace AfpfsNg.Fork
open AfpfsNg.Base AfpfsNg.Afp AfpfsNg.Did

/-- A server with files, `contents` in a state. `file` is the file of a fork. -/
structure Stores {σ : Type} (P : Peer σ) (file : Nat → Nat) (contents : σ → Nat → Bytes) : Prop where
  write : ∀ s e forkid off data, contents (P.respond s (.write e forkid off data)).2 =
    Function.update (contents s) (file forkid) (written (contents s (file forkid)) off data)
  read : ∀ s e forkid off cnt, contents (P.respond s (.read e forkid off cnt)).2 = contents s
  answer : ∀ s forkid, ValidReader { P with respond := fun _ => P.respond s } forkid (contents s (file forkid))

inductive FileCall where
  | write (fp : FileHandle) (path data : Bytes) (offset : Nat)
  | read (fp : FileHandle) (path buf : Bytes) (offset : Nat)

def FileCall.perform {σ : Type} (P : Peer σ) (v : Volume) (k : Client σ) :
    FileCall → Except Fault ((Int × Bytes) × Client σ)
  | write fp path data offset => (mlWrite P v k path data offset fp).map fun r => ((r.1, data), r.2)
  | read fp path buf offset => fuseRead P v buf.length k path buf buf.length offset (some fp)

/-- The same for files that are strings of bytes. -/
def FileCall.does (file : Nat → Nat) (c : Nat → Bytes) : FileCall → (Int × Bytes) × (Nat → Bytes)
  | write fp _ data offset =>
    ((data.length, data), Function.update c (file fp.forkid) (written (c (file fp.forkid)) offset data))
  | read fp _ buf offset =>
    let b := c (file fp.forkid)
    (((min buf.length (b.length - offset) : Nat), patch buf 0 (slice b offset buf.length)), c)

def performAll {σ : Type} (P : Peer σ) (v : Volume) : List FileCall → Client σ →
    Except Fault (List (Int × Bytes) × Client σ)
  | [], k => .ok ([], k)
  | c :: cs, k =>
    match c.perform P v k with
    | .error f => .error f
    | .ok (r, k) => (performAll P v cs k).map fun rs => (r :: rs.1, rs.2)

def doesAll (file : Nat → Nat) : List FileCall → (Nat → Bytes) → List (Int × Bytes) × (Nat → Bytes)
  | [], c => ([], c)
  | call :: cs, c =>
    let r := call.does file c
    let rs := doesAll file cs r.2
    (r.1 :: rs.1, rs.2)

/-- For a data fork with a path that can be converted, and for bytes that the requests have room for. -/
def FileCall.Plain (v : Volume) (fp : FileHandle) (path : Bytes) (offset size : Nat) : Prop :=
  fp.resource = .none ∧ (∃ converted, convertPathToAfp v path = .ok (some converted)) ∧
    (30 ≤ v.avNumber ∨ offset + size ≤ 2 ^ 32)

def FileCall.Fits (v : Volume) : FileCall → Prop
  | write fp path data offset => Plain v fp path offset data.length ∧ volumeIsReadonly v = false ∧ data.length < 2 ^ 31
  | read fp path buf offset => Plain v fp path offset buf.length ∧ 0 < buf.length ∧ buf.length ≤ v.rxQuantum

section Stores
variable {σ : Type} {P Q : Peer σ} {v : Volume} {file : Nat → Nat} {contents : σ → Nat → Bytes} {fp fp' : FileHandle}
  {path converted buf buf' data : Bytes} {pos size offset : Nat} {k k' : Client σ} {c : Nat → Bytes}

lemma writeLoop_stores (h : Stores P file contents) (hq : 0 < v.txQuantum)
    (hreach : 30 ≤ v.avNumber ∨ offset + data.length ≤ 2 ^ 32) {forkid t fuel : Nat} (ht : t ≤ data.length)
    (hfuel : data.length - t ≤ fuel) :
    ∃ k', writeLoop P v forkid offset data fuel t k = .ok (data.length, k') ∧
      contents k'.peer = Function.update (contents k.peer) (file forkid)
        (written (contents k.peer (file forkid)) (offset + t) (data.drop t)) := by
  have hdone (fuel : Nat) (k : Client σ) : writeLoop P v forkid offset data fuel data.length k = .ok (data.length, k) := by
    cases fuel with
    | zero => exact if_neg (Nat.lt_irrefl _)
    | succ fuel => exact if_neg (Nat.lt_irrefl _)
  induction fuel generalizing t k with
  | zero =>
    obtain rfl : t = data.length := by omega
    exact ⟨k, hdone _ k, by simp [written]⟩
  | succ fuel ih =>
    by_cases hlt : t < data.length
    · let n := min (data.length - t) v.txQuantum
      let k₁ := (k.call P (.write (ext v) forkid (field v (offset + t)) (slice data t n))).2
      have hk₁ : contents k₁.peer = Function.update (contents k.peer) (file forkid)
          (written (contents k.peer (file forkid)) (offset + t) (slice data t n)) := by
        rw [← @field_eq v (offset + t) (hreach.imp_right fun _ => by omega)]
        exact h.write ..
      obtain ⟨k', hrun, hk'⟩ := @ih k₁ (t + n) (by omega) (by omega)
      refine ⟨k', ?_, ?_⟩
      · rw [writeLoop, if_pos hlt, sizetowrite_eq]
        exact hrun
      · have hn : (slice data t n).length = n := slice_length (by omega)
        have happend := written_append (contents k.peer (file forkid)) (offset + t) (slice data t n) (data.drop (t + n))
        rw [hn, slice, ← List.drop_drop, List.take_append_drop, Nat.add_assoc, List.drop_drop] at happend
        rw [hk', hk₁, Function.update_self, Function.update_idem, ← happend]
        rfl
    · obtain rfl : t = data.length := by omega
      exact ⟨k, hdone _ k, by simp [written]⟩

lemma mlWrite_data (hfp : fp.resource = .none) (hconv : convertPathToAfp v path = .ok (some converted))
    (hro : volumeIsReadonly v = false) (hlock : v.noLocking = true) (hsize : data.length < 2 ^ 31)
    (hloop : writeLoop P v fp.forkid offset data data.length 0 k = .ok (data.length, k')) :
    mlWrite P v k path data offset fp = .ok ((data.length : Nat), k') := by
  have hmax : ¬ afpMaxAfp2Filesize < data.length := by
    rw [afpMaxAfp2Filesize]
    omega
  simp [mlWrite, hmax, hconv, hro, appledoubleWrite, hfp, llWrite, llHandleLocking, llHandleUnlocking, hlock, hloop,
    Except.map, returnSize_of_lt hsize]

/-- Some `ValidReader` answers as `P` does as long as the files are the same. -/
lemma Stores.reader (h : Stores P file contents) (s₀ : σ) (forkid : Nat) :
    ∃ Q : Peer σ, ValidReader Q forkid (contents s₀ (file forkid)) ∧
      ∀ s r, contents s = contents s₀ → Q.respond s r = P.respond s r := by
  classical
  refine ⟨⟨P.query, fun s r => if contents s = contents s₀ then P.respond s r else P.respond s₀ r⟩, ?_, ?_⟩
  · intro s e off cnt hcnt
    by_cases hs : contents s = contents s₀
    · simp only [if_pos hs]
      rw [← hs]
      exact h.answer s forkid s e off cnt hcnt
    · simp only [if_neg hs]
      exact h.answer s₀ forkid s e off cnt hcnt
  · intro s r hs
    exact if_pos hs

lemma mlRead_eq (hfp : fp.resource = .none) (hconv : convertPathToAfp v path = .ok (some converted)) :
    mlRead P v k path buf pos size offset fp =
      (llRead P v k buf pos size offset fp).map fun r => ((r.1.1, r.1.2.1, r.1.2.2, fp), r.2) := by
  simp only [mlRead, hconv, appledoubleRead, hfp, bind, Except.bind, pure, Except.pure]
  cases llRead P v k buf pos size offset fp with
  | error f => rfl
  | ok r => rfl

lemma llRead_congr (hlock : v.noLocking = true) (hQ : ∀ r, Q.respond k.peer r = P.respond k.peer r) :
    llRead Q v k buf pos size offset fp = llRead P v k buf pos size offset fp := by
  have hcall (r : Request) : k.call Q r = k.call P r := by rw [Client.call, Client.call, hQ]
  simp only [llRead, llHandleLocking, llHandleUnlocking, hlock, hcall, if_true]

lemma llRead_stores (h : Stores P file contents) (hlock : v.noLocking = true) {r : Int × Bool × Bytes}
    (hread : llRead P v k buf pos size offset fp = .ok (r, k')) : contents k'.peer = contents k.peer := by
  rw [llRead] at hread
  simp only [llHandleLocking, llHandleUnlocking, hlock, if_true, ne_eq, not_true, if_false] at hread
  cases hstore : store buf pos ((k.call P (.read (ext v) fp.forkid (field v offset) (field v size))).1.data.take
      (min v.rxQuantum size)) with
  | error f =>
    rw [hstore] at hread
    cases hread
  | ok buf' =>
    rw [hstore, Except.map, Except.ok.injEq] at hread
    rw [← h.read k.peer (ext v) fp.forkid (field v offset) (field v size)]
    split at hread
    · cases hread
      rfl
    · cases hread
      rfl

/-- While the files are `c`, `fuse_read` does not tell the two servers apart. -/
lemma fuseLoop_stores (h : Stores P file contents) (hfp : fp.resource = .none)
    (hconv : convertPathToAfp v path = .ok (some converted)) (hlock : v.noLocking = true)
    (hQ : ∀ s r, contents s = c → Q.respond s r = P.respond s r) (hk : contents k.peer = c) {rounds : Nat} :
    fuseLoop Q v path rounds k fp buf pos size offset = fuseLoop P v path rounds k fp buf pos size offset ∧
      ∀ r k', fuseLoop P v path rounds k fp buf pos size offset = .ok (r, k') → contents k'.peer = c := by
  induction rounds generalizing k buf pos size offset with
  | zero => exact ⟨rfl, fun r k' hrun => by cases hrun⟩
  | succ rounds ih =>
    rw [fuseLoop, fuseLoop, mlRead_eq hfp hconv, mlRead_eq hfp hconv, llRead_congr hlock fun r => hQ _ r hk]
    cases hread : llRead P v k buf pos size offset fp with
    | error f =>
      simp only [Except.map, bind, Except.bind]
      exact ⟨trivial, fun r k' hrun => by cases hrun⟩
    | ok x =>
      obtain ⟨⟨ret, eof, buf'⟩, k'⟩ := x
      have hk' : contents k'.peer = c := (llRead_stores h hlock hread).trans hk
      have hstop {x r : Int × Bytes} {k'' : Client σ} (hrun : (.ok (x, k') : Except Fault _) = .ok (r, k'')) :
          contents k''.peer = c := by
        cases hrun
        exact hk'
      simp only [Except.map, bind, Except.bind, pure, Except.pure]
      split_ifs
      · exact ⟨rfl, fun _ _ => hstop⟩
      · exact ⟨rfl, fun _ _ => hstop⟩
      · exact ⟨rfl, fun _ _ => hstop⟩
      · exact ih hk'

end Stores

/-- A call does what it means. -/
lemma FileCall.perform_stores {σ : Type} {P : Peer σ} {v : Volume} {file : Nat → Nat} {contents : σ → Nat → Bytes}
    (h : Stores P file contents) (hlock : v.noLocking = true) (htx : 0 < v.txQuantum) (hrx : v.rxQuantum < 2 ^ 31)
    {call : FileCall} (hfits : call.Fits v) (k : Client σ) :
    ∃ k', call.perform P v k = .ok ((call.does file (contents k.peer)).1, k') ∧
      contents k'.peer = (call.does file (contents k.peer)).2 := by
  cases call with
  | write fp path data offset =>
    obtain ⟨⟨hfp, ⟨converted, hconv⟩, hreach⟩, hro, hsize⟩ := hfits
    obtain ⟨k', hloop, hk'⟩ := @writeLoop_stores σ P v file contents data offset k h htx hreach fp.forkid 0 data.length
      (Nat.zero_le _) (Nat.sub_le ..)
    refine ⟨k', ?_, hk'⟩
    rw [perform, mlWrite_data hfp hconv hro hlock hsize hloop]
    rfl
  | read fp path buf offset =>
    obtain ⟨⟨hfp, ⟨converted, hconv⟩, hreach⟩, hpos, hle⟩ := hfits
    obtain ⟨Q, hvalid, hQ⟩ := h.reader k.peer fp.forkid
    obtain ⟨k', hrun⟩ := @fuseLoop_right σ Q v path converted buf fp buf.length offset k _ hvalid hconv hlock hfp hle
      (by omega) hreach rfl buf.length buf.length [] (by simp) hpos (Nat.le_refl _) (by simp [slice])
    obtain ⟨hsame, hkeeps⟩ := @fuseLoop_stores σ P Q v file contents fp path converted buf 0 buf.length offset k
      (contents k.peer) h hfp hconv hlock hQ rfl buf.length
    have hbuf : patch buf 0 [] = buf := by simp [patch]
    rw [hbuf, List.length_nil, Nat.add_zero, hsame] at hrun
    exact ⟨k', hrun, hkeeps _ _ hrun⟩

/-- Without locks, any sequence of reads and writes does to the files on the server, and returns, what it does to strings of
bytes, whatever the pieces are in which the server answers. -/
theorem open_files_are_bytes {σ : Type} (P : Peer σ) (v : Volume) (file : Nat → Nat) (contents : σ → Nat → Bytes)
    (h : Stores P file contents) (hlock : v.noLocking = true) (htx : 0 < v.txQuantum) (hrx : v.rxQuantum < 2 ^ 31)
    (calls : List FileCall) (hfits : ∀ call ∈ calls, call.Fits v) (k : Client σ) :
    ∃ k', performAll P v calls k = .ok ((doesAll file calls (contents k.peer)).1, k') ∧
      contents k'.peer = (doesAll file calls (contents k.peer)).2 := by
  induction calls generalizing k with
  | nil => exact ⟨k, rfl, rfl⟩
  | cons call calls ih =>
    obtain ⟨hcall, hcalls⟩ := List.forall_mem_cons.1 hfits
    obtain ⟨k₁, hrun, hk₁⟩ := FileCall.perform_stores h hlock htx hrx hcall k
    obtain ⟨k', hruns, hk'⟩ := ih hcalls k₁
    rw [hk₁] at hruns hk'
    refine ⟨k', ?_, hk'⟩
    rw [performAll, hrun]
    dsimp only
    rw [hruns]
    rfl

/-- A server that sends all the bytes that are asked for. -/
def byteServer (file : Nat → Nat) : Peer (Nat → Bytes) where
  query _ _ _ := none
  respond s
    | .write _ forkid off data =>
      (⟨kFPNoErr, 0, [], 0⟩, Function.update s (file forkid) (written (s (file forkid)) off data))
    | .read _ forkid off cnt =>
      let b := s (file forkid)
      (if off + cnt ≤ b.length then ⟨kFPNoErr, 0, slice b off cnt, 0⟩ else ⟨kFPEOFErr, 0, b.drop off, 0⟩, s)
    | _ => (⟨kFPParamErr, 0, [], 0⟩, s)

lemma byteServer_stores (file : Nat → Nat) : Stores (byteServer file) file id where
  write _ _ _ _ _ := rfl
  read _ _ _ _ _ := rfl
  answer s forkid := by
    intro _ e off cnt hcnt
    simp only [byteServer]
    split
    case isTrue h => exact .inl ⟨cnt, hcnt, Nat.le_refl _, h, rfl, rfl⟩
    case isFalse h => exact .inr ⟨by simp only [id]; omega, rfl, rfl⟩

theorem open_files_are_bytes_two_handles :
    ∃ k', performAll (byteServer fun _ => 0) plainVolume
        [.write dataFork [47, 97] [1, 2] 1, .read { dataFork with forkid := 8 } [47, 97] [9, 9, 9, 9] 0]
        (.start (fun _ => []) .empty) = .ok ([(2, [1, 2]), (3, [0, 1, 2, 9])], k') := by
  obtain ⟨k', hrun, -⟩ := open_files_are_bytes (byteServer fun _ => 0) plainVolume (fun _ => 0) id (byteServer_stores _) rfl
    (by decide) (by decide)
    [.write dataFork [47, 97] [1, 2] 1, .read { dataFork with forkid := 8 } [47, 97] [9, 9, 9, 9] 0]
    (List.forall_mem_cons.2 ⟨⟨⟨rfl, ⟨_, rfl⟩, .inl (by decide)⟩, rfl, by decide⟩,
      List.forall_mem_singleton.2 ⟨⟨rfl, ⟨_, rfl⟩, .inl (by decide)⟩, by decide, by decide⟩⟩)
    (.start (fun _ => []) .empty)
  exact ⟨k', hrun⟩

end AfpfsNg.Fork
