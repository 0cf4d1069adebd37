import AfpfsNg.Did.Resolve

/-!
# Paths with a missing directory

What `get_dirid` does when a component of the path does not exist or is not a directory. The result of
`afp_getfiledirparms` is assigned and not looked at: after an error the record of the component before
decides what happens, or uninitialised memory if there was none. Either the loop ends, and the id of the
last directory that exists is returned as if it were the parent; or the missing directory is put into the
cache under that id and the walk goes on.
-/

namespace AfpfsNg.Did
open AfpfsNg.Base AfpfsNg.Afp

variable {T : Tree} {clock : Nat → Nat} {c c' : DidCache} {cs ds : List Bytes} {b : Bytes} {d : Nat}
  {fi : FileInfo}

/-- A call that returns no id of another directory, and adds nothing to the cache but directories that exist. -/
def LandsNowhereElse (T : Tree) (c : DidCache) (r : Except Fault (Option (Nat × Bytes) × DidCache)) :
    Prop :=
  ∃ res c', r = .ok (res, c') ∧ (∀ d b, res = some (d, b) → ∀ q, ¬ T.Dir q d) ∧
    ∀ e ∈ c'.base, e ∈ c.base ∨ ∃ gs d, Components gs ∧ e.dirname = join slash gs ∧ T.Dir gs d

lemma walkForward_missing {fuel parentDid} (hc : Components (cs ++ ds)) (hp : T.Dir cs parentDid)
    (hmiss : ∀ d, ¬ T.Dir (cs ++ ds) d)
    (hok : walkForward T.getfiledirparms clock (join slash (cs ++ ds ++ [b])) fuel
      (join slash cs).length parentDid fi c = .ok (d, c')) :
    (∃ q, T.Dir q d) ∨
      ∃ e ∈ c'.base, ¬ ∃ gs d, Components gs ∧ e.dirname = join slash gs ∧ T.Dir gs d := by
  induction ds generalizing cs fuel parentDid fi c with
  | nil => exact absurd (by simpa using hp) (hmiss parentDid)
  | cons x ds ih =>
    cases fuel with
    | zero => cases hok
    | succ fuel =>
      have hx : IsField slash x := hc x (by simp)
      have hassoc : cs ++ x :: ds = cs ++ [x] ++ ds := by simp
      have hpath : cs ++ [x] ++ ds ++ [b] = cs ++ x :: (ds ++ [b]) := by simp
      rw [hassoc] at hc hmiss hok
      rw [hpath, walkForward_step hx.2 (by simp), answer, Tree.getfiledirparms_dir hp hx] at hok
      cases hlook : T.lookup (cs ++ [x]) with
      | none =>
        simp only [hlook, Option.map_none, Option.getD_none] at hok
        split at hok
        -- a record from before says that it is a directory: the missing one goes into the cache
        · right
          refine ⟨_, (walkForward_suffix hok).subset (List.mem_cons_self ..), ?_⟩
          rintro ⟨gs, did, hgs, hname, hdir⟩
          rw [← join_inj hc.left hgs hname] at hdir
          rw [Catalogue.lookup_eq_some.mpr hdir] at hlook
          cases hlook
        · cases hok
          exact .inl ⟨cs, hp⟩
      | some n =>
        obtain ⟨id, isdir⟩ := n
        simp only [hlook, Option.map_some, Option.getD_some] at hok
        cases isdir with
        | false =>
          cases hok
          exact .inl ⟨cs, hp⟩
        | true =>
          rw [if_pos rfl, ← hpath] at hok
          exact ih hc (Catalogue.lookup_eq_some.mp hlook) hmiss hok

/-- If some directory of the path is missing, `get_dirid` returns the id of another directory or puts a
missing directory into the cache. -/
theorem get_dirid_lands_elsewhere (hagree : ∀ e ∈ c.base, Agrees T e) (hc : Components cs)
    (hb : slash ∉ b) (hmiss : ∃ k ≤ cs.length, ∀ d, ¬ T.Dir (cs.take k) d) :
    ¬ LandsNowhereElse T c
      (getDirid T.getfiledirparms clock fi c (join slash (cs ++ [b]))) := by
  have htr : Trusted T clock c := fun _ _ e he _ => hagree e he
  have hgone : ∀ d, ¬ T.Dir cs d := by
    intro d hd
    obtain ⟨k, hk, hmiss⟩ := hmiss
    rw [← List.take_append_drop k cs] at hd
    cases hdrop : cs.drop k with
    | nil =>
      rw [hdrop, List.append_nil] at hd
      exact hmiss d hd
    | cons x xs =>
      rw [hdrop] at hd
      obtain ⟨d', hd'⟩ := Catalogue.dir_above hd (List.cons_ne_nil _ _)
      exact hmiss d' hd'
  rintro ⟨res, c', hok, hid, hadd⟩
  rw [getDirid_join hb] at hok
  split at hok
  · cases hok
  split at hok
  · rename_i hnil
    subst hnil
    exact hgone _ T.dir_root
  rename_i hne
  split at hok
  · cases hok
  obtain ⟨cs, x, rfl⟩ := (List.eq_nil_or_concat cs).resolve_left hne
  rw [List.concat_eq_append] at *
  cases hf : findDiridByFullname clock c (join slash (cs ++ [x])) with
  | mk did c₁ =>
    cases did with
    | succ did => exact hgone _ (htr.found hc hf (Nat.succ_ne_zero did))
    | zero =>
      have hlen := @length_le_join _ slash (cs ++ [x] ++ [b])
      simp only [List.length_append, List.length_singleton] at hlen
      obtain ⟨es, fs, parentDid, c₂, rfl, hback, hdir, -, hsub, -⟩ :=
        @walkBack_spec T clock c₁ cs x (join slash (cs ++ [x] ++ [b])).length (htr.find hf) hc (by omega)
      simp only [hf, hback, bind, Except.bind] at hok
      have hassoc : es ++ fs ++ [x] = es ++ (fs ++ [x]) := List.append_assoc ..
      split at hok
      · cases hok
      · rename_i r hfwd
        obtain ⟨dirid, c₃⟩ := r
        cases hok
        rw [hassoc] at hc hgone hfwd
        rcases walkForward_missing hc hdir hgone hfwd with ⟨q, hq⟩ | ⟨e, he, hnone⟩
        · exact hid dirid b rfl q hq
        · rcases hadd e he with hold | hnew
          · obtain ⟨gs, hgs, hname, hd⟩ := hagree e hold
            exact hnone ⟨gs, e.did, hgs, hname, hd⟩
          · exact hnone hnew

def oneDirectory : Tree where
  entries := [([], ⟨2, true⟩), ([[97]], ⟨16, true⟩)]
  root := 2
  root_mem := by decide
  paths_nodup := by decide
  ids_nodup := by decide
  closed := Catalogue.closed_of_dropLast (by decide)
  root_eq := two_eq_afpRootDid

theorem get_dirid_lands_elsewhere_below_a :
    ¬ LandsNowhereElse oneDirectory .empty (getDirid oneDirectory.getfiledirparms id ⟨false, 0⟩ .empty
      (join slash ([[97], [98]] ++ [[120]]))) := by
  refine get_dirid_lands_elsewhere (fun e he => nomatch he) (by decide) (by decide)
    ⟨2, Nat.le_refl _, fun d hd => ?_⟩
  have hnone : oneDirectory.lookup ([[97], [98]].take 2) = none := by decide
  rw [Catalogue.lookup_eq_some.mpr hd] at hnone
  cases hnone

/-- There is no `/a/b`; the id of `/a` is returned and stored for it. For `/b/x` the root is returned, if the uninitialised
record says that it is not a directory. -/
theorem get_dirid_wrong_directory :
    oneDirectory.lookup [[97], [98]] = none ∧ oneDirectory.lookup [[98]] = none ∧
    (getDirid oneDirectory.getfiledirparms id ⟨false, 0⟩ .empty (join slash [[97], [98], [120]])).map
        (fun r => (r.1, r.2.base.map fun e => (e.dirname, e.did)))
      = .ok (some (16, [120]), [(join slash [[97], [98]], 16), (join slash [[97]], 16)]) ∧
    (getDirid oneDirectory.getfiledirparms id ⟨false, 0⟩ .empty (join slash [[98], [120]])).map
        (fun r => (r.1, r.2.base.map fun e => (e.dirname, e.did)))
      = .ok (some (afpRootDid, [120]), []) :=
  ⟨by decide, by decide, rfl, rfl⟩

end AfpfsNg.Did
