import Mathlib.Order.Monotone.Defs
import AfpfsNg.Base.Except
import AfpfsNg.Base.Runs
import AfpfsNg.Did.Missing
import AfpfsNg.Did.Namespace

/-!
# Coherence of the directory id cache

The cache against the tree it is meant to mirror, over whole runs of calls by one client. `Trusted` is
the invariant: what a lookup can still find agrees with the tree.

`ml_rename` removes no entry, so that those of the moved directory, of what is below it and of a
directory that was in its place go on being used until they expire; and `ml_rmdir` removes one entry
where there may be several of that name. `Orderly` excludes these situations.
-/

namespace AfpfsNg.Did
open AfpfsNg.Base AfpfsNg.Afp

def ParentExists (T : Tree) (path : Bytes) : Prop := ∃ cs b d, Resolves T path cs b d

/-- The situations in which the cache stays coherent: the directories of the path exist; a directory is removed when all its
entries but the first have expired; and what is renamed, or below it, or the destination, has only expired ones. -/
def Orderly (v : Volume) (clock : Nat → Nat) (w : World TreeState) : Call → Prop
  | .getDirid _ path => ParentExists w.server.tree path
  | .mkdir _ path | .unlink _ path =>
    ∀ p, convertPathToAfp v path = .ok (some p) → ParentExists w.server.tree p
  | .rmdir _ path =>
    ∀ p, convertPathToAfp v path = .ok (some p) → ParentExists w.server.tree p ∧
      ∀ e ∈ (w.cache.base.filter (·.dirname = p)).tail, e.expired (clock w.cache.readings)
  | .rename _ _ pathFrom pathTo =>
    ∀ src dst, convertPathToAfp v pathFrom = .ok (some src) → convertPathToAfp v pathTo = .ok (some dst) →
      ParentExists w.server.tree src ∧ ParentExists w.server.tree dst ∧
      ∀ e ∈ w.cache.base, e.expired (clock w.cache.readings) = false →
        ¬ fields slash src <+: fields slash e.dirname ∧ e.dirname ≠ dst

variable {v : Volume} {clock : Nat → Nat} {newid : Nat → Nat} {w w' : World TreeState} {T T' : Tree}
  {c c' : DidCache} {cs gs src dst : List Bytes} {b path : Bytes} {d : Nat} {fi : FileInfo}

lemma expired_mono (hmono : Monotone clock) {e : DidCacheEntry} {s t : Nat} (h : s ≤ t)
    (he : e.expired (clock t) = false) : e.expired (clock s) = false := by
  have := hmono h
  simp only [DidCacheEntry.expired, decide_eq_false_iff_not] at he ⊢
  omega

lemma locate_spec {r} (h : Trusted w.server.tree clock w.cache) (hr : Resolves w.server.tree path cs b d)
    (hl : locate (treeServer newid) clock fi w path = .ok (r, w')) :
    r = (d, b) ∧ w'.server = w.server ∧ Trusted w.server.tree clock w'.cache ∧
      Refreshed w.cache cs w'.cache := by
  obtain ⟨c', hget, htr, href⟩ := getDirid_resolves fi h hr
  simp only [locate, treeServer_getfiledirparms, hget] at hl
  cases hl
  exact ⟨rfl, rfl, htr, href⟩

lemma Trusted.change (P : List Bytes → Prop) (h : Trusted T clock c)
    (hkeep : ∀ q d, T.Dir q d → P q → T'.Dir q d)
    (hP : ∀ t, c.readings ≤ t → ∀ e ∈ c.base, e.expired (clock t) = false →
      ∀ gs, Components gs → e.dirname = join slash gs → P gs) : Trusted T' clock c := by
  intro t ht e he hexp
  obtain ⟨gs, hgs, hname, hd⟩ := h t ht e he hexp
  exact ⟨gs, hgs, hname, hkeep gs _ hd (hP t ht e he hexp gs hgs hname)⟩

lemma Refreshed.mem {e} (h : Refreshed c cs c') (hc : Components cs) (he : e ∈ c'.base) :
    e ∈ c.base ∨ ∃ gs, Components gs ∧ gs <+: cs ∧ e.dirname = join slash gs := by
  obtain ⟨-, new, old, hbase, hsub, hnew⟩ := h
  rw [hbase] at he
  rcases List.mem_append.mp he with he | he
  · obtain ⟨gs, hgs, hname⟩ := hnew e he
    exact .inr ⟨gs, fun x hx => hc x (hgs.subset hx), hgs, hname⟩
  · exact .inl (hsub.subset he)

lemma Refreshed.filter_sublist (h : Refreshed c cs c') (hc : Components (cs ++ [b])) :
    (c'.base.filter (·.dirname = join slash (cs ++ [b]))).Sublist
      (c.base.filter (·.dirname = join slash (cs ++ [b]))) := by
  obtain ⟨-, new, old, hbase, hsub, hnew⟩ := h
  have hnone : new.filter (·.dirname = join slash (cs ++ [b])) = [] := by
    refine List.filter_eq_nil_iff.mpr fun e he => ?_
    obtain ⟨gs, hgs, hname⟩ := hnew e he
    simp only [decide_eq_true_eq, hname]
    intro heq
    have hgs' : Components gs := fun x hx => hc x (List.mem_append_left _ (hgs.subset hx))
    have hlen := hgs.length_le
    rw [join_inj hgs' hc heq, List.length_append, List.length_singleton] at hlen
    omega
  rw [hbase, List.filter_append, hnone, List.nil_append]
  exact hsub.filter _

lemma isDir_iff {s : TreeState} (hd : s.tree.Dir cs d) (hb : IsField slash b) :
    isDir (treeServer newid) s d b = true ↔ ∃ d', s.tree.Dir (cs ++ [b]) d' := by
  rw [isDir, treeServer_getfiledirparms, Tree.getfiledirparms_name hd hb]
  constructor
  · intro h
    cases hlook : s.tree.lookup (cs ++ [b]) with
    | none => simp [hlook] at h
    | some n =>
      obtain ⟨id, isdir⟩ := n
      obtain rfl : isdir = true := by simpa [hlook] using h
      exact ⟨id, Catalogue.lookup_eq_some.mp hlook⟩
  · rintro ⟨d', hd'⟩
    simp [Catalogue.lookup_eq_some.mpr hd']

lemma mlMkdir_trusted {ret} (h : Trusted w.server.tree clock w.cache)
    (ho : Orderly v clock w (.mkdir fi path))
    (hrun : mlMkdir (treeServer newid) v clock fi w path = .ok (ret, w')) :
    Trusted w'.server.tree clock w'.cache := by
  obtain ⟨p, hp, hrun⟩ := bind_eq_ok hrun
  split at hrun
  · cases hrun
    exact h
  split at hrun
  · cases hrun
    exact h
  split at hrun
  · cases hrun
    exact h
  obtain ⟨ret, -, hrun⟩ := bind_eq_ok hrun
  split at hrun
  · cases hrun
    exact h
  obtain ⟨⟨⟨dirid, basename⟩, w₁⟩, hloc, hrun⟩ := bind_eq_ok hrun
  obtain ⟨cs, b, d, hres⟩ := ho _ hp
  obtain ⟨-, htree, htr, -⟩ := locate_spec h hres hloc
  cases hrun
  rw [htree]
  exact htr.change (fun _ => True) (fun q d hd _ => Tree.createdir_dir hd) (fun _ _ _ _ _ _ _ _ => trivial)

lemma mlUnlink_trusted {ret} (h : Trusted w.server.tree clock w.cache)
    (ho : Orderly v clock w (.unlink fi path))
    (hrun : mlUnlink (treeServer newid) v clock fi w path = .ok (ret, w')) :
    Trusted w'.server.tree clock w'.cache := by
  obtain ⟨p, hp, hrun⟩ := bind_eq_ok hrun
  split at hrun
  · cases hrun
    exact h
  split at hrun
  · cases hrun
    exact h
  obtain ⟨ret, -, hrun⟩ := bind_eq_ok hrun
  split at hrun
  · cases hrun
    exact h
  obtain ⟨⟨⟨dirid, basename⟩, w₁⟩, hloc, hrun⟩ := bind_eq_ok hrun
  obtain ⟨cs, b, d, hres⟩ := ho _ hp
  obtain ⟨heq, htree, htr, -⟩ := locate_spec h hres hloc
  cases heq
  simp only [htree, treeServer_delete] at hrun
  split at hrun
  · cases hrun
    rwa [htree]
  rename_i hnotdir
  split at hrun
  · cases hrun
    rwa [htree]
  cases hrun
  -- what is deleted is no directory
  refine htr.change (fun _ => True) (fun q d' hq _ => ?_) (fun _ _ _ _ _ _ _ _ => trivial)
  refine Tree.delete_dir (Tree.target_dir hres.dir hres.components.last) hq fun hqp => ?_
  subst hqp
  exact absurd ((isDir_iff hres.dir hres.components.last).mpr ⟨d', hq⟩) hnotdir

lemma mlRmdir_trusted (hmono : Monotone clock) {ret} (h : Trusted w.server.tree clock w.cache)
    (ho : Orderly v clock w (.rmdir fi path))
    (hrun : mlRmdir (treeServer newid) v clock fi w path = .ok (ret, w')) :
    Trusted w'.server.tree clock w'.cache := by
  rw [mlRmdir] at hrun
  split at hrun
  · cases hrun
    exact h
  obtain ⟨p, hp, hrun⟩ := bind_eq_ok hrun
  split at hrun
  · cases hrun
    exact h
  split at hrun
  · cases hrun
    exact h
  obtain ⟨ret, -, hrun⟩ := bind_eq_ok hrun
  split at hrun
  · cases hrun
    exact h
  obtain ⟨⟨⟨dirid, basename⟩, w₁⟩, hloc, hrun⟩ := bind_eq_ok hrun
  obtain ⟨⟨cs, b, d, hres⟩, hrest⟩ := ho _ hp
  obtain ⟨heq, htree, htr, href⟩ := locate_spec h hres hloc
  cases heq
  simp only [htree, treeServer_delete] at hrun
  split at hrun
  · cases hrun
    rwa [htree]
  have htarget := Tree.target_dir hres.dir hres.components.last
  split at hrun
  · rename_i code hcode
    cases hrun
    -- a code with an `errno` is not `kFPNoErr`
    have hrefused : (w.server.tree.delete dirid basename).1 ≠ kFPNoErr := by
      intro hok
      rw [hok] at hcode
      cases hcode
    rwa [Tree.delete_refused hrefused]
  · cases hrun
    have htr' : Trusted w.server.tree clock (removeDidEntry w₁.cache (join slash (cs ++ [basename]))) := by
      refine htr.mono (fun e he => ?_) ?_
      · rw [removeDidEntry_base] at he
        exact List.eraseP_sublist.subset he
      · rw [removeDidEntry]
        split <;> exact Nat.le_refl _
    rw [hres.path_eq] at hrest ⊢
    refine htr'.change (· ≠ cs ++ [basename])
      (fun q d' hq hne => Tree.delete_dir htarget hq (absurd · hne)) ?_
    rintro t ht e he hexp gs - hname rfl
    have hread : w.cache.readings ≤ t := by
      refine href.1.trans (.trans ?_ ht)
      rw [removeDidEntry]
      split <;> exact Nat.le_refl _
    have htail := ((href.filter_sublist hres.components).tail).subset (mem_removeDidEntry he hname)
    have hold := hrest e htail
    rw [expired_mono hmono hread hexp] at hold
    cases hold

lemma renameRequests_dir {csF csT q : List Bytes} {bF bT pathTo : Bytes} {dF dT : Nat}
    {asked : Nat} (hF : T.Dir csF dF) (hT : T.Dir csT dT) (hbF : IsField slash bF)
    (hbT : IsField slash bT) (h : T.Dir q d) (hsrc : csF ++ [bF] <+: q → csF ++ [bF] <+: csT ++ [bT])
    (hdst : q = csT ++ [bT] → csT ++ [bT] <+: csF ++ [bF]) :
    (renameRequests (treeServer newid) ⟨T, asked⟩ dF dT bF bT pathTo).2.tree.Dir q d := by
  have hp := Tree.target_dir hF hbF
  -- both forms of the first request go to the destination or below it
  obtain ⟨dp, nn, p', x, hm, hp', hx, hto⟩ : ∃ dp nn p' x,
      (if isDir (treeServer newid) ⟨T, asked⟩ dT pathTo then
          (treeServer newid).moveandrename ⟨T, asked⟩ dF dT bF bT bF
        else (treeServer newid).moveandrename ⟨T, asked⟩ dF dT bF [] bT)
        = ((T.moveandrename dF dT bF dp nn).1, ⟨(T.moveandrename dF dT bF dp nn).2, asked⟩) ∧
      T.target dT dp = some p' ∧ fields slash nn = [x] ∧ csT ++ [bT] <+: p' ++ [x] := by
    split
    · exact ⟨bT, bF, _, bF, rfl, Tree.target_dir hT hbT, fields_self hbF, List.prefix_append ..⟩
    · exact ⟨[], bT, csT, bT, rfl, Tree.target_nil hT, fields_self hbT, List.prefix_rfl⟩
  simp only [renameRequests, hm]
  split
  · rename_i hcode
    obtain ⟨⟨e, he, hesrc⟩, hbelow⟩ := Tree.moveandrename_exists hp hp' hx hcode
    have hnot : ¬ csF ++ [bF] <+: csT ++ [bT] := fun hpre => hbelow (hpre.trans hto)
    have hsame : (T.moveandrename dF dT bF dp nn).2 = T :=
      Tree.moveandrename_refused (by rw [hcode]; decide)
    -- a destination above the source is not empty
    have hleaf : csT ++ [bT] <+: csF ++ [bF] →
        ∃ e ∈ T.entries, csT ++ [bT] <+: e.1 ∧ e.1 ≠ csT ++ [bT] := by
      intro habove
      refine ⟨e, he, hesrc ▸ habove, fun heq => hnot ?_⟩
      rw [← hesrc, heq]
    have hkeep : ∀ {r d'}, T.Dir r d' → (r = csT ++ [bT] → csT ++ [bT] <+: csF ++ [bF]) →
        (T.delete dT bT).2.Dir r d' :=
      fun hr hpre => Tree.delete_dir (Tree.target_dir hT hbT) hr fun heq => hleaf (hpre heq)
    have hF' : (T.delete dT bT).2.Dir csF dF :=
      hkeep hF fun heq => heq ▸ List.prefix_append ..
    rw [hsame]
    exact Tree.moveandrename_dir (Tree.target_dir hF' hbF) (hkeep h hdst) (fun hpre => hnot (hsrc hpre))
  · by_cases hpre : csF ++ [bF] <+: csT ++ [bT]
    · rwa [Tree.moveandrename_below hp hp' hx (hpre.trans hto)]
    · exact Tree.moveandrename_dir hp h (fun hq => hpre (hsrc hq))

lemma not_below_of_above (h : gs <+: cs) : ¬ cs ++ [b] <+: gs := by
  intro hbelow
  have hlen := (hbelow.trans h).length_le
  rw [List.length_append, List.length_singleton] at hlen
  omega

lemma mlRename_trusted (hmono : Monotone clock) {fi' pathFrom pathTo ret}
    (h : Trusted w.server.tree clock w.cache) (ho : Orderly v clock w (.rename fi fi' pathFrom pathTo))
    (hrun : mlRename (treeServer newid) v clock fi fi' w pathFrom pathTo = .ok (ret, w')) :
    Trusted w'.server.tree clock w'.cache := by
  obtain ⟨src, hsrc, hrun⟩ := bind_eq_ok hrun
  split at hrun
  · cases hrun
    exact h
  obtain ⟨dst, hdst, hrun⟩ := bind_eq_ok hrun
  split at hrun
  · cases hrun
    exact h
  split at hrun
  · cases hrun
    exact h
  obtain ⟨⟨⟨dF, bF⟩, w₁⟩, hloc, hrun⟩ := bind_eq_ok hrun
  obtain ⟨⟨⟨dT, bT⟩, w₂⟩, hloc', hrun⟩ := bind_eq_ok hrun
  obtain ⟨⟨csF, b, d, hresF⟩, ⟨csT, b', d', hresT⟩, hfree⟩ := ho _ _ hsrc hdst
  obtain ⟨heq, htree, htr, href⟩ := locate_spec h hresF hloc
  cases heq
  rw [← htree] at hresT htr
  obtain ⟨heq, htree', htr', href'⟩ := locate_spec htr hresT hloc'
  cases heq
  rw [htree] at hresT htr' htree'
  simp only [htree'] at hrun
  cases hrun
  refine htr'.change (fun q => (csF ++ [bF] <+: q → csF ++ [bF] <+: csT ++ [bT]) ∧
    (q = csT ++ [bT] → csT ++ [bT] <+: csF ++ [bF])) (fun q d'' hq hP => ?_) ?_
  · exact renameRequests_dir hresF.dir hresT.dir hresF.components.last hresT.components.last hq hP.1 hP.2
  intro t ht e he hexp gs hgs hname
  rcases href'.mem hresT.components.left he with he | ⟨gs', hgs', hpre, hname'⟩
  · rcases href.mem hresF.components.left he with he | ⟨gs', hgs', hpre, hname'⟩
    -- an entry from before the call
    · have hread : w.cache.readings ≤ t := href.1.trans (href'.1.trans ht)
      obtain ⟨hbelow, hne⟩ := hfree e he (expired_mono hmono hread hexp)
      rw [hresF.path_eq, hname, fields_join hresF.components, fields_join hgs] at hbelow
      rw [hresT.path_eq, hname] at hne
      exact ⟨(absurd · hbelow), fun heq => absurd (congrArg _ heq) hne⟩
    -- a directory above the source
    · obtain rfl := join_inj hgs hgs' (hname.symm.trans hname')
      refine ⟨fun hbelow => absurd hbelow (not_below_of_above hpre), fun heq => ?_⟩
      rw [← heq]
      exact hpre.trans (List.prefix_append ..)
  -- a directory above the destination
  · obtain rfl := join_inj hgs hgs' (hname.symm.trans hname')
    refine ⟨fun hbelow => hbelow.trans (hpre.trans (List.prefix_append ..)), fun heq => ?_⟩
    exact absurd (heq ▸ hpre) (fun hself => not_below_of_above hself List.prefix_rfl)

lemma perform_trusted (hmono : Monotone clock) {call ret} (h : Trusted w.server.tree clock w.cache)
    (ho : Orderly v clock w call) (hrun : perform (treeServer newid) v clock w call = .ok (ret, w')) :
    Trusted w'.server.tree clock w'.cache := by
  cases call with
  | getDirid fi path =>
    obtain ⟨cs, b, d, hres⟩ := ho
    obtain ⟨c', hget, htr, -⟩ := getDirid_resolves fi h hres
    rw [perform, treeServer_getfiledirparms, hget] at hrun
    cases hrun
    exact htr
  | mkdir fi path => exact mlMkdir_trusted h ho hrun
  | rmdir fi path => exact mlRmdir_trusted hmono h ho hrun
  | unlink fi path => exact mlUnlink_trusted h ho hrun
  | rename fi fi' pathFrom pathTo => exact mlRename_trusted hmono h ho hrun

/-- In a run of orderly calls, at every point every entry that has not expired names an existing directory with its id, and
`get_dirid` on any path with existing directories returns the id of the right one. -/
theorem did_cache_coherent (hmono : Monotone clock) {calls}
    (hrun : Run (fun w call w' => ∃ ret, perform (treeServer newid) v clock w call = .ok (ret, w'))
      (Orderly v clock) ⟨⟨T, 0⟩, .empty⟩ calls w) :
    (∀ e ∈ w.cache.base, e.expired (clock w.cache.readings) = false → Agrees w.server.tree e) ∧
    ∀ fi path cs b d, Resolves w.server.tree path cs b d →
      ∃ c', getDirid w.server.tree.getfiledirparms clock fi w.cache path = .ok (some (d, b), c') := by
  have hinv : Trusted w.server.tree clock w.cache :=
    hrun.inv (I := fun w => Trusted w.server.tree clock w.cache)
      (fun _ _ _ h ho ⟨_, hstep⟩ => perform_trusted hmono h ho hstep)
      .empty
  refine ⟨fun e he hexp => hinv _ (Nat.le_refl _) e he hexp, fun fi path cs b d hres => ?_⟩
  obtain ⟨c', hget, -⟩ := getDirid_resolves fi hinv hres
  exact ⟨c', hget⟩

def performAll (v : Volume) (T : Tree) (calls : List Call) : Except Fault (World TreeState) :=
  calls.foldlM (fun w call => (perform (treeServer (· + 17)) v (fun _ => 0) w call).map Prod.snd)
    ⟨⟨T, 0⟩, .empty⟩

def orderlyCalls : List Call :=
  [.mkdir ⟨false, 0⟩ [47, 98], .rename ⟨false, 0⟩ ⟨false, 0⟩ [47, 98] [47, 99],
    .getDirid ⟨false, 0⟩ [47, 99, 47, 120]]

theorem did_cache_coherent_new_directory : ∃ w,
    performAll plainVolume oneDirectory orderlyCalls = .ok w ∧
    w.cache.base.map (fun e => (e.dirname, e.did)) = [([47, 99], 17)] ∧
    ∀ e ∈ w.cache.base, e.expired 0 = false → Agrees w.server.tree e := by
  refine ⟨_, rfl, rfl, (@did_cache_coherent plainVolume (fun _ => 0) (· + 17) _ oneDirectory
    (fun _ _ _ => Nat.le_refl 0) orderlyCalls ?_).1⟩
  refine .cons ?_ ⟨_, rfl⟩ (.cons ?_ ⟨_, rfl⟩ (.cons ?_ ⟨_, rfl⟩ (.nil _)))
  · rintro p hp
    cases hp
    exact ⟨[], [98], 2, rfl, by decide, by decide, by decide⟩
  · rintro src dst hsrc hdst
    cases hsrc
    cases hdst
    exact ⟨⟨[], [98], 2, rfl, by decide, by decide, by decide⟩,
      ⟨[], [99], 2, rfl, by decide, by decide, by decide⟩, fun e he => nomatch he⟩
  · exact ⟨[[99]], [120], 17, rfl, by decide, by decide, by decide⟩

/-- `/a`, with id 16, gets into the cache, is renamed to `/b`, and a new `/a` with id 17 is made. The
entry is still there: `/a/x` leads to `/b`. -/
theorem rename_leaves_stale_entry : ∃ w,
    performAll plainVolume oneDirectory
      [.getDirid ⟨false, 0⟩ [47, 97, 47, 120], .rename ⟨false, 0⟩ ⟨false, 0⟩ [47, 97] [47, 98],
        .mkdir ⟨false, 0⟩ [47, 97]] = .ok w ∧
    w.cache.base = [⟨[47, 97], 16, 0⟩] ∧
    w.server.tree.lookup [[97]] = some ⟨17, true⟩ ∧ w.server.tree.lookup [[98]] = some ⟨16, true⟩ ∧
    (getDirid w.server.tree.getfiledirparms (fun _ => 0) ⟨false, 0⟩ w.cache [47, 97, 47, 120]).map
        Prod.fst
      = .ok (some (16, [120])) :=
  ⟨_, rfl, rfl, rfl, rfl, rfl⟩

end AfpfsNg.Did
