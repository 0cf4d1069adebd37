import Mathlib.Data.List.Dedup
import AfpfsNg.Did.Resolve

/-!
# Lookups with an empty cache

With nothing in the cache `get_dirid` walks back to the root and forward over every component. A component may be empty here,
as in `//a`: the server then gets the name `/`, which leads from a directory to itself.
-/

namespace AfpfsNg.Did
open AfpfsNg.Base AfpfsNg.Afp

def proper (cs : List Bytes) : List Bytes := cs.filter (· ≠ [])

variable {T : Tree} {clock : Nat → Nat} {c : DidCache} {cs ds : List Bytes} {b x : Bytes} {d did fuel : Nat}
  {fi : FileInfo}

lemma proper_append : proper (cs ++ ds) = proper cs ++ proper ds := List.filter_append ..

lemma findDiridByFullname_fresh (clock : Nat → Nat) (path : Bytes) (hc : c.base = []) :
    ∃ c', findDiridByFullname clock c path = (0, c') ∧ c'.base = [] := by
  cases hf : findDiridByFullname clock c path with
  | mk did c' =>
    obtain ⟨hsub, -, hfound⟩ := findDiridByFullname_spec hf
    rw [hc] at hsub hfound
    cases did with
    | zero => exact ⟨c', rfl, List.sublist_nil.mp hsub⟩
    | succ did =>
      obtain ⟨e, he, -⟩ := hfound (Nat.succ_ne_zero did)
      cases he

lemma walkBack_fresh (hc : c.base = []) (hcs : ∀ y ∈ cs ++ [x], slash ∉ y) (hfuel : cs.length < fuel) :
    ∃ c', walkBack clock fuel (join slash (cs ++ [x])) c = .ok ((0, afpRootDid), c') := by
  obtain ⟨fuel, rfl⟩ : ∃ k, fuel = k + 1 := ⟨fuel - 1, by omega⟩
  induction cs using List.reverseRecOn generalizing fuel c x with
  | nil => exact ⟨c, walkBack_root (hcs x (by simp))⟩
  | append_singleton cs y ih =>
    rw [List.length_append, List.length_singleton] at hfuel
    obtain ⟨fuel, rfl⟩ : ∃ k, fuel = k + 1 := ⟨fuel - 1, by omega⟩
    obtain ⟨c₁, hf, hc₁⟩ := findDiridByFullname_fresh clock (join slash (cs ++ [y])) hc
    rw [walkBack_step (hcs x (by simp)) (by simp), hf]
    exact ih hc₁ (fun z hz => hcs z (List.mem_append_left _ hz)) fuel (by omega)

lemma answer_component (hx : slash ∉ x) (hp : T.Dir (proper cs) did) (hd : T.Dir (proper (cs ++ [x])) d) :
    answer T.getfiledirparms did (slash :: x) fi = ⟨true, d⟩ := by
  cases x with
  | nil =>
    -- the name is `/`
    have hself : T.Dir (proper cs) d := by simpa [proper] using hd
    rw [answer, Tree.getfiledirparms, Catalogue.pathOf_eq_some.mpr hp]
    have hlook : T.lookup (proper cs ++ fields slash [slash]) = some ⟨d, true⟩ := by
      rw [show fields slash [slash] = [] by decide, List.append_nil]
      exact Catalogue.lookup_eq_some.mpr hself
    rw [Option.bind_some, hlook]
    rfl
  | cons y x =>
    rw [proper_append] at hd
    rw [answer, Tree.getfiledirparms_dir hp ⟨List.cons_ne_nil y x, hx⟩]
    have hlook : T.lookup (proper cs ++ [y :: x]) = some ⟨d, true⟩ := Catalogue.lookup_eq_some.mpr hd
    rw [hlook]
    rfl

lemma walkForward_fresh (hds : ∀ y ∈ ds, slash ∉ y) (hb : slash ∉ b) (hp : T.Dir (proper cs) did)
    (hd : T.Dir (proper (cs ++ ds)) d) (hfuel : ds.length < fuel) :
    ∃ c', walkForward T.getfiledirparms clock (join slash (cs ++ ds ++ [b])) fuel (join slash cs).length did fi c
      = .ok (d, c') := by
  induction ds generalizing cs fuel did fi c with
  | nil =>
    obtain ⟨fuel, rfl⟩ := Nat.exists_eq_add_of_lt hfuel
    rw [List.append_nil] at hd ⊢
    refine ⟨c, ?_⟩
    rw [walkForward_last hb, Catalogue.dir_unique hp hd]
  | cons x ds ih =>
    obtain ⟨fuel, rfl⟩ : ∃ k, fuel = k + 1 := ⟨fuel - 1, by omega⟩
    have hassoc : cs ++ x :: ds = cs ++ [x] ++ ds := by simp
    rw [hassoc] at hd ⊢
    obtain ⟨e, he⟩ : ∃ e, T.Dir (proper (cs ++ [x])) e := by
      rw [proper_append] at hd
      cases hds' : proper ds with
      | nil =>
        rw [hds', List.append_nil] at hd
        exact ⟨d, hd⟩
      | cons z zs =>
        rw [hds'] at hd
        exact Catalogue.dir_above hd (List.cons_ne_nil z zs)
    obtain ⟨c', hfwd⟩ := @ih (addDidCacheEntry clock c.countMiss e (join slash (cs ++ [x]))) (cs ++ [x]) e fuel
      ⟨true, e⟩ (fun y hy => hds y (List.mem_cons_of_mem x hy)) he hd (by simpa using hfuel)
    refine ⟨c', ?_⟩
    have hx : slash ∉ x := hds x List.mem_cons_self
    have hstep := @walkForward_step clock c cs x T.getfiledirparms fuel did fi (ds ++ [b]) hx (by simp)
    rw [answer_component hx hp he] at hstep
    rw [show cs ++ [x] ++ ds ++ [b] = cs ++ x :: (ds ++ [b]) by simp] at hfwd ⊢
    rw [hstep]
    exact hfwd

theorem getDirid_fresh (hcs : ∀ y ∈ cs, slash ∉ y) (hb : slash ∉ b) (hd : T.Dir (proper cs) d)
    (hfits : (join slash (cs ++ [b])).length < afpMaxPath) :
    ∃ c', getDirid T.getfiledirparms clock fi .empty (join slash (cs ++ [b])) = .ok (some (d, b), c') := by
  have hlen : (join slash (cs ++ [b])).length = (join slash cs).length + (b.length + 1) := by
    rw [join_concat, List.length_append, List.length_cons]
  have hcount := @length_le_join _ slash cs
  rw [getDirid_join hb, if_neg (by omega)]
  rcases List.eq_nil_or_concat cs with rfl | ⟨cs, x, rfl⟩
  · rw [if_pos rfl, Catalogue.dir_unique hd T.dir_root]
    exact ⟨_, rfl⟩
  · rw [List.concat_eq_append] at *
    obtain ⟨c₁, hf, hc₁⟩ := findDiridByFullname_fresh (c := .empty) clock (join slash (cs ++ [x])) rfl
    rw [if_neg (by simp), if_neg (by omega), hf]
    rw [List.length_append, List.length_singleton] at hcount
    obtain ⟨c₂, hback⟩ := @walkBack_fresh clock c₁ cs x (join slash (cs ++ [x] ++ [b])).length hc₁ hcs (by omega)
    obtain ⟨c', hfwd⟩ := @walkForward_fresh T clock c₂ [] (cs ++ [x]) b d afpRootDid
      (join slash (cs ++ [x] ++ [b])).length fi hcs hb T.dir_root hd
      (by simp only [List.length_append, List.length_singleton] at hlen ⊢; omega)
    refine ⟨c', ?_⟩
    simp only [List.nil_append, join_nil, List.length_nil] at hfwd
    simp only [hback, hfwd, bind, Except.bind, pure, Except.pure]

lemma Tree.exists_dirs (u w : List Bytes) : ∃ T : Tree, (∃ d, T.Dir u d) ∧ ∃ e, T.Dir w e := by
  let paths := (u.inits ++ w.inits).dedup
  let id (p : List Bytes) : Nat := if p = [] then afpRootDid else paths.idxOf p + 3
  have hmem {p : List Bytes} : p ∈ paths ↔ p <+: u ∨ p <+: w := by
    rw [List.mem_dedup, List.mem_append, List.mem_inits, List.mem_inits]
  have hid : ∀ p ∈ paths, ∀ q ∈ paths, id p = id q → p = q := by
    intro p hp q hq heq
    simp only [id, afpRootDid] at heq
    split at heq
    · split at heq
      · simp_all
      · omega
    · split at heq
      · omega
      · exact (List.idxOf_inj hp).mp (by omega)
  have hup : ∀ p c, p ++ [c] ∈ paths → p ∈ paths := by
    intro p c hpc
    have hpre : p <+: p ++ [c] := List.prefix_append ..
    exact hmem.mpr ((hmem.mp hpc).imp hpre.trans hpre.trans)
  have hnil : [] ∈ paths := hmem.mpr (.inl List.nil_prefix)
  have hnodup : paths.Nodup := List.nodup_dedup _
  refine ⟨⟨.ofDirs paths id hnil hnodup hid hup, rfl⟩, ⟨id u, ?_⟩, id w, ?_⟩
  · exact Catalogue.dir_ofDirs hnil hnodup hid hup (hmem.mpr (.inl List.prefix_rfl))
  · exact Catalogue.dir_ofDirs hnil hnodup hid hup (hmem.mpr (.inr List.prefix_rfl))

end AfpfsNg.Did
