import AfpfsNg.Base.Except
import AfpfsNg.Did.Missing
import AfpfsNg.Mid.Station

/-!
# Lookups as requests

`get_dirid` and `is_dir` (`lib/did.c`) with every `afp_getfiledirparms` as a command of its own: the server may
answer each one as it likes, change between them, and they are in the record. In `AfpfsNg.Did` the answers to lookups
are a function of the server's state; `getDirid_of_answers` and `Steady.isDir` say that for such answers the two are the same.
-/

namespace AfpfsNg.Wire
open AfpfsNg.Base AfpfsNg.Afp AfpfsNg.Did AfpfsNg.Mid AfpfsNg.Fork AfpfsNg.Proto

section Code
variable {σ α : Type} (S : Station σ) (m : Mount) (clock : Nat → Nat)

def onCache (f : DidCache → Except Fault (α × DidCache)) : Op σ α := fun k =>
  (f k.cache).map fun r => (r.1, { k with cache := r.2 })

/-- What `get_dirid` and `is_dir` read of the record that an answer fills; an error leaves it as it was. -/
def fileInfo (a : Answer) (fi : FileInfo) : FileInfo :=
  if a.code = kFPNoErr then ⟨a.info.isdir ≠ 0, a.info.fileid.toNat⟩ else fi

/-- C `afp_getfiledirparms`: the result and the caller's record. -/
def afpGetfiledirparms (did bitmap : Nat) (pathname : Bytes) (fi : FileInfo) : Op σ (Int × FileInfo) := do
  let a ← call S (.fork (.getfiledirparms did bitmap bitmap pathname))
  return (a.code, fileInfo a fi)

def walkForward (path : Bytes) : Nat → Nat → Nat → FileInfo → Op σ Nat
  | 0, _, _, _ => throw .outOfFuel
  | fuel + 1, p2, parentDid, fi =>
    match strchr slash (path.drop (p2 + 1)) with
    | none => return parentDid
    | some i => do
      let p := p2 + 1 + i
      modify fun k => { k with cache := k.cache.countMiss }
      let (_, fi) ← afpGetfiledirparms S parentDid kFPNodeIDBit (slice path p2 (p - p2)) fi
      if fi.isdir then
        modify fun k => { k with cache := addDidCacheEntry clock k.cache fi.fileid (path.take p) }
        walkForward path fuel p fi.fileid fi
      else return parentDid

def getDirid (fi : FileInfo) (path : Bytes) : Op σ (Option (Nat × Bytes)) :=
  match strrchr slash path with
  | none => return none
  | some p => do
    let basename := path.drop (p + 1)
    if afpMaxPath < basename.length then throw .basenameOverflow
    else if p = 0 then return some (afpRootDid, basename)
    else if afpMaxPath < p + 1 then throw .copyOverflow
    else
      let newdid ← onCache fun c => .ok (findDiridByFullname clock c (path.take p))
      if newdid ≠ 0 then return some (newdid, basename)
      else
        let (p, parentDid) ← onCache (walkBack clock path.length (path.take p))
        let dirid ← walkForward S clock path path.length p parentDid fi
        return some (dirid, basename)

def locate (fi : FileInfo) (path : Bytes) : Op σ (Nat × Bytes) := do
  match ← getDirid S clock fi path with
  | some r => return r
  | none => throw .uninitialised

def isDir (parentdid : Nat) (path : Bytes) : Op σ Bool := do
  let (rc, fi) ← afpGetfiledirparms S parentdid 0 path ⟨false, 0⟩
  return rc = kFPNoErr && fi.isdir

end Code

lemma onCache_ok {σ α : Type} {f : DidCache → Except Fault (α × DidCache)} {k : State σ} {r : α} {c : DidCache}
    (h : f k.cache = .ok (r, c)) : onCache f k = .ok (r, { k with cache := c }) := by
  rw [onCache, h]
  rfl

lemma onCache_inv {σ α : Type} {f : DidCache → Except Fault (α × DidCache)} {k k' : State σ} {r : α}
    (h : onCache f k = .ok (r, k')) : ∃ c, f k.cache = .ok (r, c) ∧ k' = { k with cache := c } := by
  obtain ⟨⟨r', c⟩, hf, heq⟩ := map_eq_ok h
  cases heq
  exact ⟨c, hf, rfl⟩

section Answers
variable {σ : Type} {S : Station σ} {clock : Nat → Nat} {query : Nat → Bytes → Option FileInfo} {I : σ → Prop}

def lookup (did : Nat) (name : Bytes) : Command := .fork (.getfiledirparms did kFPNodeIDBit kFPNodeIDBit name)

/-- The lookups of `get_dirid` are answered as `query` says, whatever the state. -/
def Answers (S : Station σ) (query : Nat → Bytes → Option FileInfo) : Prop :=
  ∀ s did name fi, fileInfo (S.respond s (lookup did name)).1 fi = answer query did name fi

lemma Answers.logged (h : Answers S query) : Answers S.logged query := fun s did name fi => h s.1 did name fi

/-- They are answered so in the states with `I`, which the server does not leave then. -/
structure AnswersWhile (S : Station σ) (I : σ → Prop) (query : Nat → Bytes → Option FileInfo) : Prop where
  info : ∀ s, I s → ∀ did name fi, fileInfo (S.respond s (lookup did name)).1 fi = answer query did name fi
  stays : ∀ s, I s → ∀ did name, I (S.respond s (lookup did name)).2

lemma Answers.always (h : Answers S query) : AnswersWhile S (fun _ => True) query :=
  ⟨fun s _ => h s, fun _ _ _ _ => trivial⟩

lemma walkForward_step {path : Bytes} {fuel p2 parentDid i : Nat} {fi : FileInfo} {k : State σ}
    (hchr : strchr slash (path.drop (p2 + 1)) = some i) :
    walkForward S clock path (fuel + 1) p2 parentDid fi k =
      let p := p2 + 1 + i
      let r := S.respond k.peer (lookup parentDid (slice path p2 (p - p2)))
      if (fileInfo r.1 fi).isdir then
        walkForward S clock path fuel p (fileInfo r.1 fi).fileid (fileInfo r.1 fi) { k with
          peer := r.2
          cache := addDidCacheEntry clock k.cache.countMiss (fileInfo r.1 fi).fileid (path.take p) }
      else .ok (parentDid, { k with peer := r.2, cache := k.cache.countMiss }) := by
  rw [walkForward, hchr]
  simp only
  rw [run_bind_ok rfl, run_bind_ok rfl]
  simp only
  split
  case isTrue h => exact (if_pos h).symm
  case isFalse h => exact (if_neg h).symm

lemma walkForward_of_answers (h : AnswersWhile S I query) {path : Bytes} {fuel p2 parentDid d : Nat} {fi : FileInfo}
    {c : DidCache} {k : State σ} (hk : I k.peer)
    (hrun : Did.walkForward query clock path fuel p2 parentDid fi k.cache = .ok (d, c)) :
    ∃ s, I s ∧ walkForward S clock path fuel p2 parentDid fi k = .ok (d, { k with peer := s, cache := c }) := by
  induction fuel generalizing p2 parentDid fi k with
  | zero => cases hrun
  | succ fuel ih =>
    rw [Did.walkForward] at hrun
    cases hchr : strchr slash (path.drop (p2 + 1)) with
    | none =>
      rw [hchr] at hrun
      cases hrun
      refine ⟨k.peer, hk, ?_⟩
      rw [walkForward, hchr]
      rfl
    | some i =>
      rw [hchr] at hrun
      rw [walkForward_step hchr]
      simp only at hrun ⊢
      rw [h.info _ hk]
      by_cases hdir : (answer query parentDid (slice path p2 (p2 + 1 + i - p2)) fi).isdir = true
      · rw [if_pos hdir] at hrun ⊢
        exact ih (h.stays _ hk _ _) hrun
      · rw [if_neg hdir] at hrun ⊢
        cases hrun
        exact ⟨_, h.stays _ hk _ _, rfl⟩

lemma getDirid_of_answers (h : AnswersWhile S I query) {path : Bytes} {fi : FileInfo} {r : Option (Nat × Bytes)}
    {c : DidCache} {k : State σ} (hk : I k.peer) (hrun : Did.getDirid query clock fi k.cache path = .ok (r, c)) :
    ∃ s, I s ∧ getDirid S clock fi path k = .ok (r, { k with peer := s, cache := c }) := by
  rw [Did.getDirid] at hrun
  rw [getDirid]
  cases hchr : strrchr slash path with
  | none =>
    rw [hchr] at hrun
    cases hrun
    exact ⟨k.peer, hk, rfl⟩
  | some p =>
    rw [hchr] at hrun
    simp only at hrun ⊢
    by_cases hbase : afpMaxPath < (path.drop (p + 1)).length
    · rw [if_pos hbase] at hrun
      cases hrun
    rw [if_neg hbase] at hrun ⊢
    by_cases hzero : p = 0
    · rw [if_pos hzero] at hrun ⊢
      cases hrun
      exact ⟨k.peer, hk, rfl⟩
    rw [if_neg hzero] at hrun ⊢
    by_cases hcopy : afpMaxPath < p + 1
    · rw [if_pos hcopy] at hrun
      cases hrun
    rw [if_neg hcopy] at hrun ⊢
    cases hfind : findDiridByFullname clock k.cache (path.take p) with
    | mk newdid c₁ =>
      have hfound : onCache (fun c => .ok (findDiridByFullname clock c (path.take p))) k =
          .ok (newdid, { k with cache := c₁ }) := onCache_ok (congrArg Except.ok hfind)
      rw [hfind] at hrun
      rw [run_bind_ok hfound]
      cases newdid with
      | succ newdid =>
        cases hrun
        exact ⟨k.peer, hk, rfl⟩
      | zero =>
        obtain ⟨⟨⟨p', parentDid⟩, c₂⟩, hback, hrest⟩ := bind_eq_ok hrun
        obtain ⟨⟨d, c₃⟩, hforward, hend⟩ := bind_eq_ok hrest
        cases hend
        have hwalk : onCache (walkBack clock path.length (path.take p)) { k with cache := c₁ } =
            .ok ((p', parentDid), { k with cache := c₂ }) := onCache_ok hback
        obtain ⟨s, hs, hforward'⟩ := @walkForward_of_answers _ S clock query I h _ _ _ _ _ fi _ { k with cache := c₂ } hk
          hforward
        refine ⟨s, hs, ?_⟩
        rw [if_neg (not_not.mpr rfl), run_bind_ok hwalk]
        simp only
        rw [run_bind_ok hforward']
        rfl

end Answers

section Steady
variable {σ : Type} {S : Station σ} {clock : Nat → Nat} {fi : FileInfo} {path : Bytes} {k : State σ}

/-- Lookups change nothing on the server and are answered as `query` says. -/
structure Steady (S : Station σ) : Prop where
  state : ∀ s did bitmap name, (S.respond s (.fork (.getfiledirparms did bitmap bitmap name))).2 = s
  info : ∀ s did bitmap name fi,
    fileInfo (S.respond s (.fork (.getfiledirparms did bitmap bitmap name))).1 fi = answer (S.query s) did name fi
  found : ∀ s did bitmap name,
    (S.respond s (.fork (.getfiledirparms did bitmap bitmap name))).1.code = kFPNoErr ↔ (S.query s did name).isSome

namespace Steady

lemma answers (h : Steady S) (s : σ) : AnswersWhile S (· = s) (S.query s) where
  info := by
    rintro _ rfl did name fi
    exact h.info _ did _ name fi
  stays := by
    rintro _ rfl did name
    exact h.state _ did _ name

lemma locate (h : Steady S) {r : Nat × Bytes} {w : World σ}
    (hrun : Did.locate S.names clock fi ⟨k.peer, k.cache⟩ path = .ok (r, w)) :
    locate S clock fi path k = .ok (r, { k with peer := w.server, cache := w.cache }) := by
  rw [Did.locate] at hrun
  split at hrun
  · cases hrun
  · cases hrun
  · rename_i hdirid
    cases hrun
    obtain ⟨s, rfl, hrun'⟩ := getDirid_of_answers (h.answers k.peer) rfl hdirid
    rw [Wire.locate, run_bind_ok hrun']
    rfl

lemma isDir (h : Steady S) (did : Nat) (name : Bytes) :
    isDir S did name k = .ok (Did.isDir S.names k.peer did name, k) := by
  have hinfo := h.info k.peer did 0 name ⟨false, 0⟩
  have hfound := h.found k.peer did 0 name
  have hrun : Wire.isDir S did name k = .ok
      (decide ((S.respond k.peer (.fork (.getfiledirparms did 0 0 name))).1.code = kFPNoErr) &&
        (fileInfo (S.respond k.peer (.fork (.getfiledirparms did 0 0 name))).1 ⟨false, 0⟩).isdir,
        { k with peer := (S.respond k.peer (.fork (.getfiledirparms did 0 0 name))).2 }) := rfl
  rw [hrun, hinfo, h.state]
  simp only [hfound, Did.isDir, Station.names, answer]
  cases S.query k.peer did name with
  | none => rfl
  | some fi => simp

end Steady

end Steady

section Returns
variable {σ : Type} {S : Station σ} {clock : Nat → Nat} {path : Bytes} {fi : FileInfo} {k : State σ}

lemma walkForward_returns {fuel p2 parentDid : Nat} (hpos : 0 < fuel) (hfuel : path.length ≤ p2 + fuel) :
    ∃ r, walkForward S clock path fuel p2 parentDid fi k = .ok r := by
  induction fuel generalizing p2 parentDid fi k with
  | zero => cases hpos
  | succ fuel ih =>
    cases hchr : strchr slash (path.drop (p2 + 1)) with
    | none =>
      rw [walkForward, hchr]
      exact ⟨_, rfl⟩
    | some i =>
      have hlt := strchr_lt hchr
      rw [List.length_drop] at hlt
      rw [walkForward_step hchr]
      simp only
      split
      · exact ih (by omega) (by omega)
      · exact ⟨_, rfl⟩

lemma getDirid_returns (habs : path.head? = some slash) (hfits : path.length < afpMaxPath) :
    ∃ r k', getDirid S clock fi path k = .ok (some r, k') := by
  obtain ⟨cs, b, -, hb, rfl⟩ := exists_join_of_head habs
  rw [length_join_concat] at hfits
  have hpos : 0 < (join slash (cs ++ [b])).length := by
    rw [length_join_concat]
    omega
  have hbase : ¬ afpMaxPath < ((join slash (cs ++ [b])).drop ((join slash cs).length + 1)).length := by
    rw [List.length_drop, length_join_concat]
    omega
  rw [getDirid, strrchr_join hb]
  simp only [take_join]
  rw [if_neg hbase, if_neg (by omega : ¬ afpMaxPath < (join slash cs).length + 1)]
  rcases cs with _ | ⟨c, cs⟩
  · exact ⟨_, _, rfl⟩
  rw [if_neg (show (join slash (c :: cs)).length ≠ 0 from Nat.succ_ne_zero _)]
  cases hfind : findDiridByFullname clock k.cache (join slash (c :: cs)) with
  | mk newdid c₁ =>
    have hfound : onCache (fun c' => .ok (findDiridByFullname clock c' (join slash (c :: cs)))) k =
        .ok (newdid, { k with cache := c₁ }) := onCache_ok (congrArg Except.ok hfind)
    rw [run_bind_ok hfound]
    split
    · exact ⟨_, _, rfl⟩
    obtain ⟨⟨⟨p, parentDid⟩, c₂⟩, hback⟩ := @walkBack_returns clock c₁ (join slash (c :: cs ++ [b])).length
      (join slash (c :: cs)) rfl (by rw [length_join_concat]; omega)
    have hwalk : onCache (walkBack clock (join slash (c :: cs ++ [b])).length (join slash (c :: cs)))
        { k with cache := c₁ } = .ok ((p, parentDid), { k with cache := c₂ }) := onCache_ok hback
    obtain ⟨⟨dirid, k₃⟩, hforward⟩ := @walkForward_returns _ S clock (join slash (c :: cs ++ [b])) fi { k with cache := c₂ }
      _ p parentDid hpos (Nat.le_add_left _ _)
    rw [run_bind_ok hwalk]
    simp only
    rw [run_bind_ok hforward]
    exact ⟨_, _, rfl⟩

lemma locate_returns (habs : path.head? = some slash) (hfits : path.length < afpMaxPath) :
    ∃ r k', locate S clock fi path k = .ok (r, k') := by
  obtain ⟨r, k', hrun⟩ := getDirid_returns habs hfits
  refine ⟨r, k', ?_⟩
  rw [locate, run_bind_ok hrun]
  rfl

end Returns

section Asked
variable {σ : Type} {S : Station σ} {T : Tree} {clock : Nat → Nat} {cs ds : List Bytes} {b : Bytes} {d did fuel : Nat}
  {fi : FileInfo} {k : State (σ × List (Command × Answer))}

/-- A lookup for a component of a path, in the directory that is above it. -/
def OnPath (T : Tree) (cs : List Bytes) (c : Command) : Prop :=
  ∃ above x below did, cs = above ++ x :: below ∧ T.Dir above did ∧ c = lookup did (slash :: x)

/-- In between the record has grown by at most `n` lookups along the path `cs`. -/
def AsksAlong (T : Tree) (cs : List Bytes) (n : Nat) (k k' : State (σ × List (Command × Answer))) : Prop :=
  ∃ asked, k'.peer.2 = k.peer.2 ++ asked ∧ asked.length ≤ n ∧ ∀ x ∈ asked, OnPath T cs x.1

lemma walkForward_asks (hS : Answers S T.getfiledirparms) (hc : Components (cs ++ ds)) (hb : slash ∉ b)
    (hp : T.Dir cs did) (hd : T.Dir (cs ++ ds) d) :
    Ensures (walkForward S.logged clock (join slash (cs ++ ds ++ [b])) fuel (join slash cs).length did fi) k
      fun _ k' => AsksAlong T (cs ++ ds) ds.length k k' := by
  induction ds generalizing cs fuel did fi k with
  | nil =>
    intro r k' hrun
    cases fuel with
    | zero => cases hrun
    | succ fuel =>
      rw [List.append_nil, walkForward, strchr_last hb] at hrun
      cases hrun
      exact ⟨[], (List.append_nil _).symm, Nat.le_refl 0, List.forall_mem_nil _⟩
  | cons x ds ih =>
    intro r k' hrun
    have hx : IsField slash x := hc x (by simp)
    have hassoc : cs ++ x :: ds = cs ++ [x] ++ ds := by simp
    cases fuel with
    | zero => cases hrun
    | succ fuel =>
      obtain ⟨did', hdid, hans⟩ := Tree.answer_next fi hp hx (hassoc ▸ hd)
      have hpath : cs ++ x :: ds ++ [b] = cs ++ x :: (ds ++ [b]) := by simp
      rw [hpath, walkForward_step (strchr_component hx.2 (by simp))] at hrun
      simp only [slice_component, take_component] at hrun
      rw [hS.logged, hans, if_pos rfl, ← length_join_concat, ← hpath, hassoc] at hrun
      rw [hassoc] at hc hd ⊢
      obtain ⟨asked, hlog, hlen, hon⟩ := ih hc hdid hd hrun
      refine ⟨(lookup did (slash :: x), (S.respond k.peer.1 (lookup did (slash :: x))).1) :: asked, ?_, ?_, ?_⟩
      · rw [hlog]
        exact List.append_assoc _ [_] _
      · exact Nat.succ_le_succ hlen
      · refine List.forall_mem_cons.mpr ⟨⟨cs, x, ds, did, ?_, hp, rfl⟩, hon⟩
        rw [hassoc]

lemma AsksAlong.of_peer {k' : State (σ × List (Command × Answer))} (h : k'.peer = k.peer) (n : Nat) :
    AsksAlong T cs n k k' :=
  ⟨[], by rw [h, List.append_nil], Nat.zero_le n, List.forall_mem_nil _⟩

lemma getDirid_asks (hS : Answers S T.getfiledirparms) (htrust : Trusted T clock k.cache) (hc : Components cs)
    (hb : slash ∉ b) (hd : T.Dir cs d) :
    Ensures (getDirid S.logged clock fi (join slash (cs ++ [b]))) k fun _ k' => AsksAlong T cs cs.length k k' := by
  intro r k' hrun
  rw [getDirid, strrchr_join hb] at hrun
  simp only [take_join] at hrun
  split at hrun
  · cases hrun
  split at hrun
  · cases hrun
    exact .of_peer rfl _
  case isFalse hzero =>
  split at hrun
  · cases hrun
  obtain ⟨newdid, k₁, hfind, hrest⟩ := bind_run_ok hrun
  obtain ⟨c₁, hfound, rfl⟩ := onCache_inv hfind
  split at hrest
  · cases hrest
    exact .of_peer rfl _
  obtain ⟨⟨p, parentDid⟩, k₂, hback, hforward⟩ := bind_run_ok hrest
  obtain ⟨c₂, hwalk, rfl⟩ := onCache_inv hback
  obtain ⟨dirid, k₃, hasks, hend⟩ := bind_run_ok hforward
  cases hend
  rcases List.eq_nil_or_concat cs with rfl | ⟨cs, x, rfl⟩
  · exact absurd rfl hzero
  rw [List.concat_eq_append] at *
  -- the walk goes on from the directory `es` that was found, over the rest of the path
  have hlen := @length_le_join _ slash (cs ++ [x] ++ [b])
  simp only [List.length_append, List.length_singleton] at hlen
  obtain ⟨es, fs, parentDid', c', rfl, hback', hdir, -, -, -⟩ := @walkBack_spec T clock c₁ cs x
    (join slash (cs ++ [x] ++ [b])).length (htrust.find (Except.ok.inj hfound)) hc (by omega)
  cases hwalk.symm.trans hback'
  have hassoc : es ++ fs ++ [x] = es ++ (fs ++ [x]) := List.append_assoc ..
  rw [hassoc] at hc hd hasks ⊢
  obtain ⟨asked, hlog, hle, hon⟩ := walkForward_asks hS hc hb hdir hd hasks
  refine ⟨asked, hlog, hle.trans ?_, hon⟩
  simp only [List.length_append]
  omega

lemma Trusted.of_now {c : DidCache} (hclock : ∀ i j, i ≤ j → clock i ≤ clock j)
    (h : ∀ e ∈ c.base, e.expired (clock c.readings) = false → Agrees T e) : Trusted T clock c := by
  intro t ht e he hexp
  refine h e he ?_
  have hle := hclock _ _ ht
  simp only [DidCacheEntry.expired, decide_eq_false_iff_not] at hexp ⊢
  omega

end Asked

/-- For a path to a name `b` in the existing directory `cs`, `get_dirid` returns the id of `cs` and the name, asks at most
once for each component of `cs`, and leaves a cache whose entries are right until they expire. -/
theorem get_dirid_resolves {σ : Type} (S : Station σ) (T : Tree) (hS : Answers S T.getfiledirparms) (clock : Nat → Nat)
    (fi : FileInfo) (k : State (σ × List (Command × Answer))) (cs : List Bytes) (b : Bytes) (d : Nat)
    (hc : Components cs) (hb : slash ∉ b) (hd : T.Dir cs d) (hfits : (join slash (cs ++ [b])).length < afpMaxPath)
    (hcache : Trusted T clock k.cache ∨ (∀ i j, i ≤ j → clock i ≤ clock j) ∧
      ∀ e ∈ k.cache.base, e.expired (clock k.cache.readings) = false → Agrees T e) :
    ∃ k', getDirid S.logged clock fi (join slash (cs ++ [b])) k = .ok (some (d, b), k') ∧
      (cs = [] → d = afpRootDid) ∧ AsksAlong T cs cs.length k k' ∧ Trusted T clock k'.cache := by
  have htrust : Trusted T clock k.cache := hcache.elim id fun h => Trusted.of_now h.1 h.2
  have hlen : (join slash (cs ++ [b])).length = (join slash cs).length + 1 + b.length := length_join_concat
  obtain ⟨c', hrun, htrust', -⟩ := @getDirid_spec T clock k.cache cs b d fi htrust hc hb hd (by omega) (by omega)
  obtain ⟨s, -, hrun'⟩ := getDirid_of_answers hS.logged.always trivial hrun
  refine ⟨_, hrun', ?_, getDirid_asks hS htrust hc hb hd hrun', htrust'⟩
  rintro rfl
  exact Catalogue.dir_unique hd T.dir_root

def treeStation (T : Tree) : Station Unit where
  query _ := T.getfiledirparms
  respond s
    | .fork (.getfiledirparms did _ _ name) =>
      match T.getfiledirparms did name with
      | none => (.ofCode kFPObjectNotFound, s)
      | some fi => (⟨⟨kFPNoErr, 0, [], 0⟩, { AfpFileInfo.zero with
          isdir := if fi.isdir then 1 else 0
          fileid := UInt32.ofNat fi.fileid }⟩, s)
    | _ => (.ofCode kFPParamErr, s)

lemma treeStation_steady {T : Tree} (hids : ∀ e ∈ T.entries, e.2.id < 2 ^ 32) : Steady (treeStation T) where
  state _ _ _ _ := rfl
  info s did bitmap name fi := by
    simp only [treeStation, answer]
    cases hfind : T.getfiledirparms did name with
    | none => rfl
    | some fi' =>
      obtain ⟨p, -, hlook⟩ := Option.bind_eq_some_iff.mp hfind
      obtain ⟨n, hn, rfl⟩ := Option.map_eq_some_iff.mp hlook
      have hid := hids _ (Catalogue.lookup_eq_some.mp hn)
      have hfileid : (UInt32.ofNat n.id).toNat = n.id := Nat.mod_eq_of_lt hid
      cases hdir : n.isdir with
      | true => simp [fileInfo, hfileid]
      | false => simp [fileInfo, hfileid]
  found s did bitmap name := by
    simp only [treeStation]
    cases T.getfiledirparms did name with
    | none => exact iff_of_false (show kFPObjectNotFound ≠ kFPNoErr by decide) Bool.false_ne_true
    | some fi => exact iff_of_true rfl rfl

lemma treeStation_answers {T : Tree} (hids : ∀ e ∈ T.entries, e.2.id < 2 ^ 32) :
    Answers (treeStation T) T.getfiledirparms :=
  fun s did name fi => (treeStation_steady hids).info s did kFPNodeIDBit name fi

theorem get_dirid_resolves_a_b :
    ∃ k', getDirid (treeStation oneDirectory).logged (fun _ => 0) ⟨false, 0⟩ [47, 97, 47, 98] (State.start ((), [])) =
        .ok (some (16, [98]), k') ∧ AsksAlong oneDirectory [[97]] 1 (State.start ((), [])) k' := by
  obtain ⟨k', hrun, -, hasks, -⟩ := get_dirid_resolves (treeStation oneDirectory) oneDirectory
    (treeStation_answers (by decide)) (fun _ => 0) ⟨false, 0⟩ (State.start ((), [])) [[97]] [98] 16 (by decide) (by decide)
    (by decide) (by decide) (.inl Trusted.empty)
  exact ⟨k', hrun, hasks⟩

end AfpfsNg.Wire
