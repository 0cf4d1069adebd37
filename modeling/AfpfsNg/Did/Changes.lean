import AfpfsNg.Did.Coherence

/-!
# What the calls change

`ml_mkdir`, `ml_rmdir` and `ml_unlink` against the tree of the server, after any run of orderly calls: the cache then leads
each call to the one object that its path names, and the result says whether that was changed.
-/

namespace AfpfsNg.Did
open AfpfsNg.Base AfpfsNg.Afp

/-- Whether there is a directory at the path, or a file. -/
def Tree.kind (T : Tree) (p : List Bytes) : Option Bool := (T.lookup p).map Node.isdir

/-- Only the object at `p` is not the same in the two trees. -/
structure Tree.Changes (T T' : Tree) (p : List Bytes) (before after : Option Bool) : Prop where
  before : T.kind p = before
  after : T'.kind p = after
  others : ∀ q, q ≠ p → T'.lookup q = T.lookup q

/-- The path of a call, with what is there before it has succeeded and after. -/
def Call.effect : Call → Option (Bytes × Option Bool × Option Bool)
  | .mkdir _ path => some (path, none, some true)
  | .rmdir _ path => some (path, some true, none)
  | .unlink _ path => some (path, some false, none)
  | .getDirid .. | .rename .. => none

/-- The call returns: 0 and the object at `q` has changed, or an error and nothing has. -/
def Acts (w : World TreeState) (q : List Bytes) (before after : Option Bool)
    (r : Except Fault (Int × World TreeState)) : Prop :=
  ∃ ret w', r = .ok (ret, w') ∧
    (ret = 0 ∧ w.server.tree.Changes w'.server.tree q before after ∨
      ret < 0 ∧ w'.server.tree = w.server.tree)

variable {v : Volume} {clock newid : Nat → Nat} {w : World TreeState} {T : Tree} {cs : List Bytes}
  {b name path p : Bytes} {d did : Nat} {fi : FileInfo} {a : Int}

lemma Tree.createdir_cases (id : Nat) (hp : T.target did name = some (cs ++ [b])) (hd : T.Dir cs d) :
    (T.createdir id did name).1 = kFPNoErr ∧
        T.Changes (T.createdir id did name).2 (cs ++ [b]) none (some true) ∨
      ((T.createdir id did name).1 = kFPObjectExists ∨ (T.createdir id did name).1 = kFPMiscErr) ∧
        (T.createdir id did name).2 = T := by
  have hdir : ∃ e ∈ T.entries, e.1 = cs ∧ e.2.isdir = true := ⟨_, hd, rfl, rfl⟩
  simp only [createdir, hp, List.getLast?_concat, List.dropLast_concat, dif_pos hdir]
  split
  · rename_i hfree
    split
    · rename_i hid
      have hlook := Catalogue.lookup_insert (n := ⟨id, true⟩) (Catalogue.dir_of_isdir hdir) hfree hid
      refine .inl ⟨rfl, ?_, ?_, fun q hq => ?_⟩
      · rw [kind, Catalogue.lookup_eq_none.mpr hfree, Option.map_none]
      · rw [kind, hlook, if_pos rfl, Option.map_some]
      · rw [hlook, if_neg hq]
    · exact .inr ⟨.inr rfl, rfl⟩
  · exact .inr ⟨.inl rfl, rfl⟩

lemma Tree.delete_cases (hp : T.target did name = some (cs ++ [b])) :
    (T.delete did name).1 = kFPNoErr ∧
        (∃ isdir, T.Changes (T.delete did name).2 (cs ++ [b]) (some isdir) none) ∨
      ((T.delete did name).1 = kFPObjectNotFound ∨ (T.delete did name).1 = kFPDirNotEmpty) ∧
        (T.delete did name).2 = T := by
  have hnil : cs ++ [b] ≠ [] := by simp
  simp only [delete, hp, dif_neg hnil]
  split
  · exact .inr ⟨.inl rfl, rfl⟩
  rename_i hex
  split
  · rename_i hleaf
    have hlook := Catalogue.lookup_erase hnil hleaf
    obtain ⟨n, hn⟩ := Option.ne_none_iff_exists'.mp (mt Catalogue.lookup_eq_none.mp hex)
    refine .inl ⟨rfl, n.isdir, congrArg _ hn, ?_, fun q hq => ?_⟩
    · rw [kind, hlook, if_pos rfl, Option.map_none]
    · rw [hlook, if_neg hq]
  · exact .inr ⟨.inr rfl, rfl⟩

lemma treeServer_createdir (s : TreeState) : (treeServer newid).createdir s did name =
    ((s.tree.createdir (newid s.asked) did name).1,
      ⟨(s.tree.createdir (newid s.asked) did name).2, s.asked + 1⟩) := rfl

lemma isDir_eq_kind {s : TreeState} (hd : s.tree.Dir cs d) (hb : IsField slash b) :
    isDir (treeServer newid) s d b = (s.tree.kind (cs ++ [b])).getD false := by
  rw [isDir, treeServer_getfiledirparms, Tree.getfiledirparms_name hd hb, Tree.kind]
  cases s.tree.lookup (cs ++ [b]) <;> rfl

lemma Acts.refused {q before after w'} {ret : Int} (hret : ret < 0) (hw : w'.server = w.server) :
    Acts w q before after (.ok (ret, w')) :=
  ⟨_, _, rfl, .inr ⟨hret, congrArg _ hw⟩⟩

lemma locate_resolves (newid fi) (h : Trusted w.server.tree clock w.cache)
    (hr : Resolves w.server.tree p cs b d) :
    ∃ c', locate (treeServer newid) clock fi w p = .ok ((d, b), { w with cache := c' }) := by
  obtain ⟨c', hget, -⟩ := getDirid_resolves fi h hr
  exact ⟨c', by rw [locate, treeServer_getfiledirparms, hget]⟩

section Calls
variable (h : Trusted w.server.tree clock w.cache) (hp : convertPathToAfp v path = .ok (some p))
  (ha : appledoubleRefuse v path = .ok a) (hr : Resolves w.server.tree p cs b d)
include h hp ha hr

lemma mlMkdir_acts : Acts w (cs ++ [b]) none (some true) (mlMkdir (treeServer newid) v clock fi w path) := by
  obtain ⟨c, hloc⟩ := locate_resolves newid fi h hr
  simp only [mlMkdir, hp, ha, hloc, bind, Except.bind, treeServer_createdir]
  split
  · exact .refused (by decide) rfl
  split
  · exact .refused (by decide) rfl
  split
  · exact .refused ‹_› rfl
  rcases Tree.createdir_cases (newid w.server.asked) (Tree.target_dir hr.dir hr.components.last) hr.dir
    with ⟨hcode, hch⟩ | ⟨hcode | hcode, hsame⟩
  · rw [hcode]
    exact ⟨_, _, rfl, .inl ⟨rfl, hch⟩⟩
  · rw [hcode]
    exact ⟨_, _, rfl, .inr ⟨by decide, hsame⟩⟩
  · rw [hcode]
    exact ⟨_, _, rfl, .inr ⟨by decide, hsame⟩⟩

lemma mlRmdir_acts : Acts w (cs ++ [b]) (some true) none (mlRmdir (treeServer newid) v clock fi w path) := by
  obtain ⟨c, hloc⟩ := locate_resolves newid fi h hr
  rw [mlRmdir]
  split
  · exact .refused (by decide) rfl
  simp only [hp, ha, hloc, bind, Except.bind, isDir_eq_kind hr.dir hr.components.last, treeServer_delete]
  split
  · exact .refused (by decide) rfl
  split
  · exact .refused ‹_› rfl
  split
  · exact .refused (by decide) rfl
  rename_i hdir
  rcases Tree.delete_cases (Tree.target_dir hr.dir hr.components.last)
    with ⟨hcode, isdir, hch⟩ | ⟨hcode | hcode, hsame⟩
  · obtain rfl : isdir = true := by simpa [hch.before] using hdir
    rw [hcode]
    exact ⟨_, _, rfl, .inl ⟨rfl, hch⟩⟩
  · rw [hcode]
    exact ⟨_, _, rfl, .inr ⟨by decide, hsame⟩⟩
  · rw [hcode]
    exact ⟨_, _, rfl, .inr ⟨by decide, hsame⟩⟩

lemma mlUnlink_acts : Acts w (cs ++ [b]) (some false) none (mlUnlink (treeServer newid) v clock fi w path) := by
  obtain ⟨c, hloc⟩ := locate_resolves newid fi h hr
  simp only [mlUnlink, hp, ha, hloc, bind, Except.bind, isDir_eq_kind hr.dir hr.components.last,
    treeServer_delete]
  split
  · exact .refused (by decide) rfl
  split
  · exact .refused ‹_› rfl
  split
  · exact .refused (by decide) rfl
  rename_i hdir
  split
  · exact .refused (by decide) rfl
  rcases Tree.delete_cases (Tree.target_dir hr.dir hr.components.last)
    with ⟨hcode, isdir, hch⟩ | ⟨hcode | hcode, hsame⟩
  · obtain rfl : isdir = false := by simpa [hch.before] using hdir
    rw [hcode]
    exact ⟨_, _, rfl, .inl ⟨rfl, hch⟩⟩
  · rw [hcode]
    exact ⟨_, _, rfl, .inr ⟨by decide, hsame⟩⟩
  · rw [hcode]
    exact ⟨_, _, rfl, .inr ⟨by decide, hsame⟩⟩

end Calls

/-- After any run of orderly calls, a call that makes or removes an object returns 0 and has changed just the object that its
path names, or returns an error and has changed nothing. -/
theorem calls_change_what_they_name (hmono : Monotone clock) {calls}
    (hrun : Run (fun w call w' => ∃ ret, perform (treeServer newid) v clock w call = .ok (ret, w'))
      (Orderly v clock) ⟨⟨T, 0⟩, .empty⟩ calls w) {call before after}
    (he : Call.effect call = some (path, before, after)) (hp : convertPathToAfp v path = .ok (some p))
    (ha : appledoubleRefuse v path = .ok a) (hr : Resolves w.server.tree p cs b d) :
    Acts w (cs ++ [b]) before after (perform (treeServer newid) v clock w call) := by
  have hinv : Trusted w.server.tree clock w.cache :=
    hrun.inv (I := fun w => Trusted w.server.tree clock w.cache)
      (fun _ _ _ h ho ⟨_, hstep⟩ => perform_trusted hmono h ho hstep) .empty
  cases call with
  | getDirid | rename => cases he
  | mkdir =>
    cases he
    exact mlMkdir_acts hinv hp ha hr
  | rmdir =>
    cases he
    exact mlRmdir_acts hinv hp ha hr
  | unlink =>
    cases he
    exact mlUnlink_acts hinv hp ha hr

theorem calls_change_what_they_name_rmdir : ∃ w,
    performAll plainVolume oneDirectory [.getDirid ⟨false, 0⟩ [47, 97, 47, 120]] = .ok w ∧
    w.cache.base = [⟨[47, 97], 16, 0⟩] ∧
    Acts w [[97]] (some true) none
      (perform (treeServer (· + 17)) plainVolume (fun _ => 0) w (.rmdir ⟨false, 0⟩ [47, 97])) := by
  refine ⟨_, rfl, rfl, @calls_change_what_they_name plainVolume (fun _ => 0) (· + 17) _ oneDirectory [] [97] [47, 97]
    [47, 97] 2 0 (fun _ _ _ => Nat.le_refl 0) [.getDirid ⟨false, 0⟩ [47, 97, 47, 120]]
    (.cons ?_ ⟨_, rfl⟩ (.nil _)) _ _ _ rfl rfl rfl ⟨rfl, by decide, by decide, by decide⟩⟩
  exact ⟨[[97]], [120], 16, rfl, by decide, by decide, by decide⟩

end AfpfsNg.Did
