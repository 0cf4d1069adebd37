import AfpfsNg.Fork.Open

/-!
# Truncation

`ml_truncate` (`lib/midlevel.c`) and `appledouble_truncate` (`lib/resource.c`). The offset is not used: a
file is opened, its length set to 0 and closed. When the file cannot be opened, `ml_truncate` returns the
0 that `appledouble_truncate` left in `ret`. `fileServer` is a server that keeps the data forks of the files of a tree.
-/

namespace AfpfsNg.Fork
open AfpfsNg.Base AfpfsNg.Afp AfpfsNg.Did

section Code
variable {σ : Type} (P : Peer σ) (v : Volume) (clock : Nat → Nat)

/-- C `appledouble_truncate`. The record `fp` on the stack, and `dirid`, are not initialised. -/
def appledoubleTruncate (fi : FileInfo) (k : Client σ) (path : Bytes) : Except Fault (Int × Client σ) := do
  match ← extraTranslate v path with
  | (.none, _) => return (0, k)
  | (.appledouble, _) => return (-EISDIR, k)
  | (.finderinfo, _) | (.comment, _) => return (1, k)
  | (.serverIcon, _) => return (-EPERM, k)
  | (.resource, newpath) =>
    match ← k.getDirid P clock fi newpath with
    | (none, _) => throw .uninitialised
    | (some (dirid, basename), k) =>
      -- `O_WRONLY` is the access mode for reading
      let (a, k) := k.call P (.openfork true dirid 1 basename)
      if a.code = kFPNoErr ∨ a.code = kFPDenyConflict then
        let (_, k) := llZeroFile P v k a.refnum false
        let (_, k) := k.call P (.closefork a.refnum)
        return (1, k)
      else throw .uninitialised

def mlTruncate (fi : FileInfo) (k : Client σ) (path : Bytes) (_offset : Nat) :
    Except Fault (Int × Client σ) := do
  match ← convertPathToAfp v path with
  | none => return (-EINVAL, k)
  | some convertedPath =>
    if invalidFilename v convertedPath then return (-ENAMETOOLONG, k)
    else if volumeIsReadonly v then return (-EACCES, k)
    else
      let (ret, k) ← appledoubleTruncate P v clock fi k path
      if ret < 0 then return (ret, k)
      else if ret = 1 then return (0, k)
      else
        match ← mlOpen P v clock fi k path .writeOnly with
        | ((_, none), k) => return (ret, k)
        | ((rc, some fp), k) =>
          if rc ≠ 0 then return (ret, k)
          else
            let (err, k) := llZeroFile P v k fp.forkid false
            if err ≠ 0 then return (-err, k)
            else
              let (_, k) := k.call P (.closefork fp.forkid)
              return (0, { k with openForks := k.openForks.erase fp.addr })

end Code

/-- The files that are open, with the numbers of their forks, and the data fork of each file. -/
structure FileState where
  forks : List (Nat × Nat)
  contents : Nat → Bytes

/-- How the server answers the requests, and the number it gives to the fork. -/
structure Answers where
  openfork : Int
  setforkparms : Int
  closefork : Int
  fork : Nat

/-- The first `n` bytes, with zeros for those that are missing. -/
def resize (n : Nat) (b : Bytes) : Bytes := b.take n ++ List.replicate (n - b.length) 0

@[simp] lemma resize_zero (b : Bytes) : resize 0 b = [] := by simp [resize]

@[simp] lemma resize_length (n : Nat) (b : Bytes) : (resize n b).length = n := by
  simp only [resize, List.length_append, List.length_take, List.length_replicate]
  omega

/-- A server for the files of the tree, about their data forks. A request that it answers with an error
changes nothing. -/
def fileServer (T : Tree) (ans : Answers) : Peer FileState where
  query _ := T.getfiledirparms
  respond s
    | .openfork false dirid _ name =>
      match T.getfiledirparms dirid name with
      | some ⟨false, file⟩ =>
        if ans.openfork = kFPNoErr then
          (⟨kFPNoErr, ans.fork, [], 0⟩, { s with forks := (ans.fork, file) :: s.forks })
        else (⟨ans.openfork, 0, [], 0⟩, s)
      | _ => (⟨kFPObjectNotFound, 0, [], 0⟩, s)
    | .setforkparms forkid bitmap len =>
      match s.forks.lookup forkid with
      | some file =>
        if ans.setforkparms = kFPNoErr ∧ bitmap &&& 0xa00 ≠ 0 then
          (⟨kFPNoErr, 0, [], 0⟩,
            { s with contents := Function.update s.contents file (resize len (s.contents file)) })
        else (⟨ans.setforkparms, 0, [], 0⟩, s)
      | none => (⟨kFPParamErr, 0, [], 0⟩, s)
    | .closefork forkid =>
      if ans.closefork = kFPNoErr then
        (⟨kFPNoErr, 0, [], 0⟩, { s with forks := s.forks.filter (·.1 ≠ forkid) })
      else (⟨ans.closefork, 0, [], 0⟩, s)
    | _ => (⟨kFPParamErr, 0, [], 0⟩, s)

def failed : Request × Reply → Bool
  | (.openfork _ _ _ _, a) => a.code ≠ kFPNoErr
  | (.setforkparms _ _ _, a) => a.code ≠ kFPNoErr
  | _ => false

/-- If `ml_truncate` returns 0 then the file has its first `n` bytes, and zeros up to that length; if a request fails then it
returns an error and the file is unchanged. -/
def TruncateKeepsPrefix (T : Tree) (ans : Answers) (v : Volume) (clock : Nat → Nat) (fi : FileInfo)
    (s : FileState) (c : DidCache) (path : Bytes) (n file : Nat) : Prop :=
  ∃ ret k, mlTruncate (fileServer T ans) v clock fi (.start s c) path n =
      .ok (ret, k) ∧
    (ret = 0 → k.peer.contents file = resize n (s.contents file)) ∧
    (k.sent.any failed → ret < 0 ∧ k.peer.contents file = s.contents file)

def LeadsTo (T : Tree) (path : Bytes) (file : Nat) : Prop :=
  ∃ cs b d, Resolves T path cs b d ∧ (cs ++ [b], ⟨file, false⟩) ∈ T.entries

section Truncate
variable {T : Tree} {ans : Answers} {v : Volume} {clock : Nat → Nat} {fi : FileInfo}

lemma openErrors_spec (c : Int) :
    0 ≤ switch openErrors EFAULT c ∧ (switch openErrors EFAULT c = 0 ↔ c = kFPNoErr) := by
  refine switch_spec (fun c e => 0 ≤ e ∧ (e = 0 ↔ c = kFPNoErr)) (by decide) fun hnone => ?_
  exact ⟨by decide, iff_of_false (by decide) fun hc => hnone (kFPNoErr, 0) (by decide) hc.symm⟩

lemma zeroFileErrors_spec (c : Int) :
    0 ≤ switch zeroFileErrors 0 c ∧
      (switch zeroFileErrors 0 c = 0 ↔ c ∉ zeroFileErrors.map Prod.fst) := by
  refine switch_spec (fun c e => 0 ≤ e ∧ (e = 0 ↔ c ∉ zeroFileErrors.map Prod.fst)) (by decide)
    fun hnone => ⟨by decide, iff_of_true rfl fun hc => ?_⟩
  obtain ⟨x, hx, hxc⟩ := List.mem_map.mp hc
  exact hnone x hx hxc

lemma forkLenBit_data (v : Volume) : forkLenBit v false &&& 0xa00 ≠ 0 := by
  rw [forkLenBit]
  split <;> decide

variable {cs : List Bytes} {b p path : Bytes} {d file : Nat} {k : Client FileState}

lemma fileServer_openfork (hr : Resolves T p cs b d) (hfile : (cs ++ [b], ⟨file, false⟩) ∈ T.entries)
    (s : FileState) (mode : Nat) :
    (fileServer T ans).respond s (.openfork false d mode b) =
      if ans.openfork = kFPNoErr then
        (⟨kFPNoErr, ans.fork, [], 0⟩, { s with forks := (ans.fork, file) :: s.forks })
      else (⟨ans.openfork, 0, [], 0⟩, s) := by
  have hq : T.getfiledirparms d b = some ⟨false, file⟩ := by
    rw [T.getfiledirparms_name hr.dir hr.components.last, Catalogue.lookup_eq_some.mpr hfile]
    rfl
  simp only [fileServer, hq]

def Client.opening (k : Client FileState) (c : DidCache) (s : FileState) (openForks : List Nat)
    (r : Request) (a : Reply) : Client FileState :=
  { k with
    peer := s, cache := c, mallocs := k.mallocs + 1, openForks := openForks, sent := k.sent ++ [(r, a)] }

def truncateOpened (T : Tree) (ans : Answers) (v : Volume) (k : Client FileState) (fp : FileHandle) :
    Int × Client FileState :=
  let (err, k) := llZeroFile (fileServer T ans) v k fp.forkid false
  if err ≠ 0 then (-err, k)
  else
    let (_, k) := k.call (fileServer T ans) (.closefork fp.forkid)
    (0, { k with openForks := k.openForks.erase fp.addr })

lemma fileServer_closefork (s : FileState) (forkid : Nat) :
    ((fileServer T ans).respond s (.closefork forkid)).2.contents = s.contents := by
  simp only [fileServer]
  split <;> rfl

lemma fileServer_setforkparms {s : FileState} (hfork : s.forks.lookup ans.fork = some file) :
    (fileServer T ans).respond s (.setforkparms ans.fork (forkLenBit v false) 0) =
      (⟨ans.setforkparms, 0, [], 0⟩,
        if ans.setforkparms = kFPNoErr then { s with contents := Function.update s.contents file [] }
        else s) := by
  simp only [fileServer, hfork]
  by_cases h0 : ans.setforkparms = kFPNoErr
  · rw [if_pos ⟨h0, forkLenBit_data v⟩, if_pos h0, h0, resize_zero]
  · rw [if_neg fun h => h0 h.1, if_neg h0]

lemma truncateOpened_spec {fp : FileHandle} (hid : fp.forkid = ans.fork)
    (hfork : k.peer.forks.lookup ans.fork = some file) :
    (truncateOpened T ans v k fp).1 = -switch zeroFileErrors 0 ans.setforkparms ∧
    (truncateOpened T ans v k fp).2.peer.contents file =
      (if ans.setforkparms = kFPNoErr then [] else k.peer.contents file) ∧
    ((truncateOpened T ans v k fp).2.sent.any failed ↔
      k.sent.any failed ∨ ans.setforkparms ≠ kFPNoErr) := by
  have hzero : llZeroFile (fileServer T ans) v k fp.forkid false =
      (switch zeroFileErrors 0 ans.setforkparms, { k with
        peer := if ans.setforkparms = kFPNoErr then
          { k.peer with contents := Function.update k.peer.contents file [] } else k.peer
        sent := k.sent ++ [(.setforkparms ans.fork (forkLenBit v false) 0,
          ⟨ans.setforkparms, 0, [], 0⟩)] }) := by
    rw [llZeroFile, Client.call, hid, fileServer_setforkparms hfork]
  rw [truncateOpened, hzero]
  by_cases herr : switch zeroFileErrors 0 ans.setforkparms = 0
  · simp only [herr, ne_eq, not_true, if_false, Client.call, fileServer_closefork]
    refine ⟨rfl, ?_, ?_⟩
    · split <;> simp
    · simp [failed]
  · simp only [ne_eq, herr, not_false_eq_true, if_true]
    refine ⟨trivial, ?_, ?_⟩
    · split <;> simp
    · simp [failed]

section Writable
variable (hconv : convertPathToAfp v path = .ok (some p)) (hname : invalidFilename v p = false)
  (hro : volumeIsReadonly v = false) (hmeta : ∃ x, extraTranslate v path = .ok (.none, x))
include hconv hname hro hmeta

lemma mlOpen_file (htr : Trusted T clock k.cache) (hr : Resolves T p cs b d)
    (hfile : (cs ++ [b], ⟨file, false⟩) ∈ T.entries) :
    ∃ c fp, fp.addr = k.mallocs ∧ mlOpen (fileServer T ans) v clock fi k path .writeOnly =
      if ans.openfork = kFPNoErr then
        .ok ((0, some { fp with forkid := ans.fork }),
          k.opening c { k.peer with forks := (ans.fork, file) :: k.peer.forks } (k.mallocs :: k.openForks)
            (.openfork false d 3 b) ⟨kFPNoErr, ans.fork, [], 0⟩)
      else
        .ok ((-switch openErrors EFAULT ans.openfork,
            some (if ans.openfork = kFPDenyConflict then { fp with forkid := 0 } else fp)),
          k.opening c k.peer k.openForks (.openfork false d 3 b) ⟨ans.openfork, 0, [], 0⟩) := by
  obtain ⟨x, hx⟩ := hmeta
  obtain ⟨c, hget, -, -⟩ := getDirid_resolves fi htr hr
  refine ⟨c, ⟨k.mallocs, 0, .none, d, b, List.replicate 32 0, false⟩, rfl, ?_⟩
  have hq : (fileServer T ans).query k.peer = T.getfiledirparms := rfl
  have hpos := openErrors_spec ans.openfork
  split
  case isTrue h0 =>
    simp [mlOpen, hconv, hname, hro, appledoubleOpen, hx, Client.getDirid, hq, hget, llOpen, checkSize,
      OpenFlags.writeOnly, Client.call, fileServer_openfork hr hfile, h0, bind, Except.bind, pure,
      Except.pure, Except.map, (openErrors_spec kFPNoErr).2.mpr rfl, Client.opening]
  case isFalse h0 =>
    have hne : ¬ switch openErrors EFAULT ans.openfork = 0 := fun h => h0 (hpos.2.mp h)
    have hlt : 0 < switch openErrors EFAULT ans.openfork := by omega
    simp [mlOpen, hconv, hname, hro, appledoubleOpen, hx, Client.getDirid, hq, hget, llOpen, checkSize,
      OpenFlags.writeOnly, Client.call, fileServer_openfork hr hfile, h0, bind, Except.bind, pure,
      Except.pure, Except.map, hne, hlt, Client.opening]

lemma mlTruncate_file {n} (htr : Trusted T clock k.cache) (hr : Resolves T p cs b d)
    (hfile : (cs ++ [b], ⟨file, false⟩) ∈ T.entries) :
    ∃ c, ∃ fp : FileHandle, mlTruncate (fileServer T ans) v clock fi k path n = .ok
      (if ans.openfork = kFPNoErr then
        truncateOpened T ans v (k.opening c { k.peer with forks := (ans.fork, file) :: k.peer.forks }
          (k.mallocs :: k.openForks) (.openfork false d 3 b) ⟨kFPNoErr, ans.fork, [], 0⟩)
          { fp with forkid := ans.fork }
      else
        (0, k.opening c k.peer k.openForks (.openfork false d 3 b) ⟨ans.openfork, 0, [], 0⟩)) := by
  obtain ⟨c, fp, -, hopen⟩ :=
    @mlOpen_file T ans v clock fi cs b p path d file k hconv hname hro hmeta htr hr hfile
  obtain ⟨x, hx⟩ := hmeta
  refine ⟨c, fp, ?_⟩
  have hdouble : appledoubleTruncate (fileServer T ans) v clock fi k path = .ok (0, k) := by
    simp [appledoubleTruncate, hx, bind, Except.bind, pure, Except.pure]
  have hpos := openErrors_spec ans.openfork
  by_cases h0 : ans.openfork = kFPNoErr
  · rw [if_pos h0] at hopen ⊢
    simp only [mlTruncate, hconv, hname, hro, hdouble, hopen, truncateOpened, bind, Except.bind, pure,
      Except.pure, Bool.false_eq_true, if_false, Int.lt_irrefl, Int.zero_ne_one, ne_eq, not_true]
    split <;> rfl
  · rw [if_neg h0] at hopen ⊢
    have hne : ¬ switch openErrors EFAULT ans.openfork = 0 := fun h => h0 (hpos.2.mp h)
    simp only [mlTruncate, hconv, hname, hro, hdouble, hopen, bind, Except.bind, pure, Except.pure]
    simp [hne]

lemma mlTruncate_outcome {s : FileState} {c : DidCache} {n : Nat} (htr : Trusted T clock c)
    (hleads : LeadsTo T p file) :
    ∃ ret k, mlTruncate (fileServer T ans) v clock fi (.start s c) path n = .ok (ret, k) ∧
      (ans.openfork = kFPNoErr → ret = -switch zeroFileErrors 0 ans.setforkparms ∧
        k.peer.contents file = (if ans.setforkparms = kFPNoErr then [] else s.contents file) ∧
        (k.sent.any failed ↔ ans.setforkparms ≠ kFPNoErr)) ∧
      (ans.openfork ≠ kFPNoErr → ret = 0 ∧ k.sent.any failed) := by
  obtain ⟨cs, b, d, hr, hfile⟩ := hleads
  obtain ⟨c', fp, hml⟩ := mlTruncate_file (k := .start s c) hconv hname hro hmeta htr hr hfile
  by_cases h0 : ans.openfork = kFPNoErr
  · rw [if_pos h0] at hml
    obtain ⟨hret, hcont, hfail⟩ := @truncateOpened_spec T ans v file
      ((Client.start s c).opening c' { s with forks := (ans.fork, file) :: s.forks } [0]
        (.openfork false d 3 b) ⟨kFPNoErr, ans.fork, [], 0⟩) { fp with forkid := ans.fork } rfl
      (by simp [Client.opening])
    refine ⟨_, _, hml, fun _ => ⟨hret, hcont, hfail.trans (or_iff_right ?_)⟩, fun h => absurd h0 h⟩
    simp [Client.opening, Client.start, failed]
  · rw [if_neg h0] at hml
    refine ⟨_, _, hml, fun h => absurd h h0, fun _ => ⟨rfl, ?_⟩⟩
    simp [Client.opening, Client.start, failed, h0]

lemma truncateKeepsPrefix_writable {s : FileState} {c : DidCache} {n : Nat} (htr : Trusted T clock c)
    (hleads : LeadsTo T p file) :
    TruncateKeepsPrefix T ans v clock fi s c path n file ↔ ans.openfork = kFPNoErr ∧
      (ans.setforkparms ∈ zeroFileErrors.map Prod.fst ∨ ans.setforkparms = kFPNoErr ∧ n = 0) := by
  obtain ⟨ret, k, hml, hopened, hrefused⟩ :=
    mlTruncate_outcome hconv hname hro hmeta htr hleads
  obtain ⟨hpos, hzero⟩ := zeroFileErrors_spec ans.setforkparms
  constructor
  · rintro ⟨ret', k', hml', hdone, hbad⟩
    rw [hml] at hml'
    cases hml'
    by_cases h0 : ans.openfork = kFPNoErr
    · obtain ⟨hret, hcont, hfail⟩ := hopened h0
      refine ⟨h0, or_iff_not_imp_left.mpr fun hmem => ?_⟩
      have hret0 : ret = 0 := by rw [hret, hzero.mpr hmem, Int.neg_zero]
      by_cases hset : ans.setforkparms = kFPNoErr
      · have hlen := congrArg List.length (hdone hret0)
        rw [hcont, if_pos hset, resize_length] at hlen
        exact ⟨hset, hlen.symm⟩
      · have := (hbad (hfail.mpr hset)).1
        omega
    · have := (hbad (hrefused h0).2).1
      have := (hrefused h0).1
      omega
  · rintro ⟨h0, hcase⟩
    obtain ⟨hret, hcont, hfail⟩ := hopened h0
    refine ⟨ret, k, hml, fun hret0 => ?_, fun hbad => ?_⟩
    · have herr : switch zeroFileErrors 0 ans.setforkparms = 0 :=
        Int.neg_eq_zero.mp (hret.symm.trans hret0)
      obtain ⟨hset, rfl⟩ := hcase.resolve_left (hzero.mp herr)
      rw [hcont, if_pos hset, resize_zero]
    · have hset := hfail.mp hbad
      have hmem := hcase.resolve_right fun h => hset h.1
      have hne : switch zeroFileErrors 0 ans.setforkparms ≠ 0 := fun h => hzero.mp h hmem
      rw [hcont, if_neg hset]
      exact ⟨by omega, rfl⟩

end Writable

/-- The result is right exactly when the call ends before the file is opened, or the file can be opened and
the new length is 0, or it can be opened and the server refuses the new length with a code that
`ll_zero_file` knows. -/
theorem truncate_keeps_prefix_iff (T : Tree) (ans : Answers) (v : Volume) (clock : Nat → Nat)
    (fi : FileInfo) (s : FileState) (c : DidCache) (path : Bytes) (n file : Nat)
    (htr : Trusted T clock c) (hmeta : ∃ x, extraTranslate v path = .ok (.none, x))
    (hleads : ∀ p, convertPathToAfp v path = .ok (some p) → LeadsTo T p file) :
    TruncateKeepsPrefix T ans v clock fi s c path n file ↔
      convertPathToAfp v path = .ok none ∨
      ∃ p, convertPathToAfp v path = .ok (some p) ∧
        (invalidFilename v p ∨ volumeIsReadonly v ∨ ans.openfork = kFPNoErr ∧
          (ans.setforkparms ∈ zeroFileErrors.map Prod.fst ∨ ans.setforkparms = kFPNoErr ∧ n = 0)) := by
  rcases hconv : convertPathToAfp v path with f | _ | p
  · simp [TruncateKeepsPrefix, mlTruncate, hconv, bind, Except.bind]
  · refine iff_of_true ⟨-EINVAL, (.start s c), ?_, nofun, nofun⟩ (.inl rfl)
    simp [mlTruncate, hconv, bind, Except.bind, pure, Except.pure]
  by_cases hname : invalidFilename v p = true
  · refine iff_of_true ⟨-ENAMETOOLONG, (.start s c), ?_, nofun, nofun⟩
      (.inr ⟨p, rfl, .inl hname⟩)
    simp [mlTruncate, hconv, hname, bind, Except.bind, pure, Except.pure]
  by_cases hro : volumeIsReadonly v = true
  · refine iff_of_true ⟨-EACCES, (.start s c), ?_, nofun, nofun⟩
      (.inr ⟨p, rfl, .inr (.inl hro)⟩)
    simp [mlTruncate, hconv, hname, hro, bind, Except.bind, pure, Except.pure]
  rw [truncateKeepsPrefix_writable hconv (by simpa using hname) (by simpa using hro) hmeta htr (hleads p hconv)]
  simp [hname, hro]

end Truncate

def oneFile : Tree where
  entries := [([], ⟨2, true⟩), ([[97]], ⟨16, false⟩)]
  root := 2
  root_mem := by decide
  paths_nodup := by decide
  ids_nodup := by decide
  closed := Catalogue.closed_of_dropLast (by decide)
  root_eq := two_eq_afpRootDid

def obliging : Answers := ⟨kFPNoErr, kFPNoErr, kFPNoErr, 7⟩

lemma oneFile_leads (p : Bytes) (h : convertPathToAfp plainVolume [47, 97] = .ok (some p)) :
    LeadsTo oneFile p 16 := by
  cases h
  exact ⟨[], [97], 2, ⟨rfl, by decide, by decide, by decide⟩, by decide⟩

theorem truncate_keeps_prefix_empty :
    TruncateKeepsPrefix oneFile obliging plainVolume (fun _ => 0) ⟨false, 0⟩ ⟨[], fun _ => [1, 2, 3]⟩
      .empty [47, 97] 0 16 := by
  refine (truncate_keeps_prefix_iff _ _ _ _ _ _ _ _ _ _ .empty ⟨[], rfl⟩ oneFile_leads).mpr ?_
  exact .inr ⟨[47, 97], rfl, .inr (.inr ⟨rfl, .inr ⟨rfl, rfl⟩⟩)⟩

/-- Truncation to two bytes returns 0 and leaves nothing. -/
theorem truncate_loses_prefix :
    ∃ k, mlTruncate (fileServer oneFile obliging) plainVolume (fun _ => 0) ⟨false, 0⟩
        (.start ⟨[], fun _ => [1, 2, 3]⟩ .empty) [47, 97] 2 = .ok (0, k) ∧
      k.peer.contents 16 = [] ∧
      ¬ TruncateKeepsPrefix oneFile obliging plainVolume (fun _ => 0) ⟨false, 0⟩
        ⟨[], fun _ => [1, 2, 3]⟩ .empty [47, 97] 2 16 := by
  refine ⟨_, rfl, rfl, ?_⟩
  rintro ⟨ret, k, hk, hdone, -⟩
  cases hk
  exact absurd (hdone rfl) (by decide)

end AfpfsNg.Fork
