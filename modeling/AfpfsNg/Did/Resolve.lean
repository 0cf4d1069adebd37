import AfpfsNg.Afp.Volume
import AfpfsNg.Base.Catalogue
import AfpfsNg.Did.Cache

/-!
# From a path to the id of its directory

`get_dirid` of `lib/did.c`: cut the last component off, look the rest up in the cache, walk back over the
components until a directory is in the cache or the root is reached, then walk forward again and ask the
server for each component with `afp_getfiledirparms`.

`query did name` is the server's answer, `none` for an error; an error leaves the caller's
`struct afp_file_info` as it was (`answer`). The first such record is uninitialised stack memory, an
argument of `getDirid`. Two `memcpy` calls are bounded by the length of the path only; where they leave `copy` or
`basename` the model stops with a `Fault`.
-/

namespace AfpfsNg.Did
open AfpfsNg.Base AfpfsNg.Afp

def afpRootDid : Nat := 2

/-- What `get_dirid` and `is_dir` read of a `struct afp_file_info`. -/
structure FileInfo where
  isdir : Bool
  fileid : Nat
  deriving DecidableEq, Repr

section Code
variable (query : Nat → Bytes → Option FileInfo) (clock : Nat → Nat)

def answer (did : Nat) (name : Bytes) (fi : FileInfo) : FileInfo := (query did name).getD fi

/-- The first loop of `get_dirid`: from the end to a directory that is known. -/
def walkBack : Nat → Bytes → DidCache → Except Fault ((Nat × Nat) × DidCache)
  | 0, _, _ => .error .outOfFuel
  | fuel + 1, copy, c =>
    match strrchr slash copy with
    | none => .error .nullPointer
    | some 0 => .ok ((0, afpRootDid), c)
    | some p =>
      match findDiridByFullname clock c (copy.take p) with
      | (0, c) => walkBack fuel (copy.take p) c
      | (parentDid, c) => .ok ((p, parentDid), c)

/-- The second loop of `get_dirid`: forward from the `/` at offset `p`, behind which nothing is known. -/
def walkForward (path : Bytes) : Nat → Nat → Nat → FileInfo → DidCache → Except Fault (Nat × DidCache)
  | 0, _, _, _, _ => .error .outOfFuel
  | fuel + 1, p2, parentDid, fi, c =>
    match strchr slash (path.drop (p2 + 1)) with
    | none => .ok (parentDid, c)
    | some i =>
      let p := p2 + 1 + i
      let fi := answer query parentDid (slice path p2 (p - p2)) fi
      if fi.isdir then
        walkForward path fuel p fi.fileid fi
          (addDidCacheEntry clock c.countMiss fi.fileid (path.take p))
      else .ok (parentDid, c.countMiss)

/-- The id of the directory of `path`, and the name in it; `none` for the result -1 (C `get_dirid`). -/
def getDirid (fi : FileInfo) (c : DidCache) (path : Bytes) :
    Except Fault (Option (Nat × Bytes) × DidCache) :=
  match strrchr slash path with
  | none => .ok (none, c)
  | some p =>
    let basename := path.drop (p + 1)
    if afpMaxPath < basename.length then .error .basenameOverflow
    else if p = 0 then .ok (some (afpRootDid, basename), c)
    else if afpMaxPath < p + 1 then .error .copyOverflow
    else
      match findDiridByFullname clock c (path.take p) with
      | (0, c) => do
        let ((p, parentDid), c) ← walkBack clock path.length (path.take p) c
        let (dirid, c) ← walkForward query clock path path.length p parentDid fi c
        return (some (dirid, basename), c)
      | (newdid, c) => .ok (some (newdid, basename), c)

end Code

structure Tree extends Catalogue Bytes Nat where
  root_eq : root = afpRootDid

lemma two_eq_afpRootDid : 2 = afpRootDid := rfl

/-- The answer to `afp_getfiledirparms`: `path` leads from the directory `did` over its components. -/
def Tree.getfiledirparms (T : Tree) (did : Nat) (path : Bytes) : Option FileInfo :=
  (T.pathOf did).bind fun p =>
    (T.lookup (p ++ fields slash path)).map fun n => ⟨n.isdir, n.id⟩

def Components (cs : List Bytes) : Prop := ∀ c ∈ cs, IsField slash c

instance (cs : List Bytes) : Decidable (Components cs) := inferInstanceAs (Decidable (∀ c ∈ cs, _))

/-- The entry names a directory of the tree with its id. -/
def Agrees (T : Tree) (e : DidCacheEntry) : Prop :=
  ∃ cs, Components cs ∧ e.dirname = join slash cs ∧ T.Dir cs e.did

/-- The entries that a lookup can still find agree with the tree. -/
def Trusted (T : Tree) (clock : Nat → Nat) (c : DidCache) : Prop :=
  ∀ t, c.readings ≤ t → ∀ e ∈ c.base, e.expired (clock t) = false → Agrees T e

variable {T : Tree} {clock : Nat → Nat} {c c' : DidCache} {cs ds : List Bytes} {b x : Bytes} {d did : Nat}

lemma Components.left (h : Components (cs ++ ds)) : Components cs :=
  fun x hx => h x (List.mem_append_left _ hx)

lemma Components.last (h : Components (cs ++ [x])) : IsField slash x :=
  h x (List.mem_append_right _ (List.mem_singleton_self x))

lemma Tree.dir_root (T : Tree) : T.Dir [] afpRootDid := by
  have h := T.root_mem
  rwa [T.root_eq] at h

lemma Tree.getfiledirparms_name (h : T.Dir cs did) (hx : IsField slash x) :
    T.getfiledirparms did x = (T.lookup (cs ++ [x])).map fun n => ⟨n.isdir, n.id⟩ := by
  rw [Tree.getfiledirparms, Catalogue.pathOf_eq_some.mpr h, fields_self hx]
  rfl

lemma Tree.getfiledirparms_dir (h : T.Dir cs did) (hx : IsField slash x) :
    T.getfiledirparms did (slash :: x) = (T.lookup (cs ++ [x])).map fun n => ⟨n.isdir, n.id⟩ := by
  rw [← T.getfiledirparms_name h hx, Tree.getfiledirparms, fields_sep_cons, Tree.getfiledirparms]

lemma Trusted.empty : Trusted T clock .empty := fun _ _ _ he => absurd he List.not_mem_nil

lemma Trusted.mono (h : Trusted T clock c) (hsub : ∀ e ∈ c'.base, e ∈ c.base)
    (hread : c.readings ≤ c'.readings) : Trusted T clock c' :=
  fun t ht e he hexp => h t (hread.trans ht) e (hsub e he) hexp

lemma Trusted.add (h : Trusted T clock c) (hc : Components cs) (hd : T.Dir cs did) :
    Trusted T clock (addDidCacheEntry clock c did (join slash cs)) := by
  intro t ht e he hexp
  rcases List.mem_cons.mp he with rfl | he
  · exact ⟨cs, hc, rfl, hd⟩
  · exact h t (Nat.le_of_succ_le ht) e he hexp

lemma Trusted.found (h : Trusted T clock c) (hc : Components cs)
    (hf : findDiridByFullname clock c (join slash cs) = (did, c')) (hne : did ≠ 0) :
    T.Dir cs did := by
  obtain ⟨e, he, hexp, hname, rfl⟩ := (findDiridByFullname_spec hf).2.2 hne
  obtain ⟨ds, hds, hname', hdir⟩ := h _ (Nat.le_refl _) e he hexp
  rwa [join_inj hc hds (hname.symm.trans hname')]

lemma Trusted.find {path} (h : Trusted T clock c)
    (hf : findDiridByFullname clock c path = (did, c')) : Trusted T clock c' := by
  obtain ⟨hsub, hread, -⟩ := findDiridByFullname_spec hf
  exact h.mono (fun e he => hsub.subset he) (by omega)

/-- The cache after a walk along `cs`: it has lost entries, and got new ones for what is above. -/
def Refreshed (c : DidCache) (cs : List Bytes) (c' : DidCache) : Prop :=
  c.readings ≤ c'.readings ∧ ∃ new old, c'.base = new ++ old ∧ old.Sublist c.base ∧
    ∀ e ∈ new, ∃ gs, gs <+: cs ∧ e.dirname = join slash gs

lemma Refreshed.of_sublist (hsub : c'.base.Sublist c.base) (hread : c.readings ≤ c'.readings) :
    Refreshed c cs c' :=
  ⟨hread, [], c'.base, rfl, hsub, fun _ he => nomatch he⟩

lemma Refreshed.find {path} (hf : findDiridByFullname clock c path = (did, c')) :
    Refreshed c cs c' := by
  obtain ⟨hsub, hread, -⟩ := findDiridByFullname_spec hf
  exact .of_sublist hsub (by omega)

lemma Refreshed.trans {c''} (h : Refreshed c cs c') (h' : Refreshed c' cs c'') : Refreshed c cs c'' := by
  obtain ⟨hr, new, old, hb, hsub, hnew⟩ := h
  obtain ⟨hr', new', old', hb', hsub', hnew'⟩ := h'
  rw [hb] at hsub'
  obtain ⟨l₁, l₂, rfl, hl₁, hl₂⟩ := List.sublist_append_iff.mp hsub'
  refine ⟨hr.trans hr', new' ++ l₁, l₂, by rw [hb', List.append_assoc], hl₂.trans hsub, ?_⟩
  intro e he
  rcases List.mem_append.mp he with he | he
  · exact hnew' e he
  · exact hnew e (hl₁.subset he)

lemma Refreshed.add {gs} (h : gs <+: cs) :
    Refreshed c cs (addDidCacheEntry clock c.countMiss did (join slash gs)) := by
  refine ⟨Nat.le_succ _, [_], c.base, rfl, .refl _, ?_⟩
  intro e he
  rw [List.mem_singleton.mp he]
  exact ⟨gs, h, rfl⟩

lemma strrchr_join (hx : slash ∉ x) :
    strrchr slash (join slash (cs ++ [x])) = some (join slash cs).length := by
  rw [join_concat]
  exact strrchr_append hx

lemma take_join (gs : List Bytes) :
    (join slash (cs ++ gs)).take (join slash cs).length = join slash cs := by
  rw [join_append, List.take_left]

lemma length_join_concat : (join slash (cs ++ [x])).length = (join slash cs).length + 1 + x.length := by
  rw [join_concat, List.length_append, List.length_cons]
  omega

lemma walkBack_root {fuel} (hx : slash ∉ x) : walkBack clock (fuel + 1) (join slash [x]) c = .ok ((0, afpRootDid), c) := by
  rw [walkBack, ← List.nil_append [x], strrchr_join hx]
  rfl

lemma walkBack_step {fuel} (hx : slash ∉ x) (hcs : cs ≠ []) :
    walkBack clock (fuel + 1) (join slash (cs ++ [x])) c =
      match findDiridByFullname clock c (join slash cs) with
      | (0, c) => walkBack clock fuel (join slash cs) c
      | (parentDid, c) => .ok (((join slash cs).length, parentDid), c) := by
  obtain ⟨y, cs, rfl⟩ := List.exists_cons_of_ne_nil hcs
  obtain ⟨n, hn⟩ : ∃ n, (join slash (y :: cs)).length = n + 1 := ⟨_, rfl⟩
  have htake : (join slash (y :: cs ++ [x])).take (n + 1) = join slash (y :: cs) := by
    rw [← hn]
    exact take_join [x]
  rw [walkBack, strrchr_join hx]
  simp only [hn, htake]

lemma walkBack_spec {fuel} (h : Trusted T clock c) (hc : Components (cs ++ [x]))
    (hfuel : cs.length < fuel) :
    ∃ es fs parentDid c', cs = es ++ fs ∧
      walkBack clock fuel (join slash (cs ++ [x])) c = .ok (((join slash es).length, parentDid), c') ∧
      T.Dir es parentDid ∧ Trusted T clock c' ∧ c'.base.Sublist c.base ∧
      c.readings ≤ c'.readings := by
  obtain ⟨fuel, rfl⟩ : ∃ k, fuel = k + 1 := ⟨fuel - 1, by omega⟩
  induction cs using List.reverseRecOn generalizing fuel c x with
  | nil => exact ⟨[], [], afpRootDid, c, rfl, walkBack_root hc.last.2, T.dir_root, h, .refl _, Nat.le_refl _⟩
  | append_singleton cs y ih =>
    rw [List.length_append, List.length_singleton] at hfuel
    rw [walkBack_step hc.last.2 (by simp)]
    cases hf : findDiridByFullname clock c (join slash (cs ++ [y])) with
    | mk did c₁ =>
      obtain ⟨hsub, hread, -⟩ := findDiridByFullname_spec hf
      cases did with
      | zero =>
        obtain ⟨fuel, rfl⟩ : ∃ k, fuel = k + 1 := ⟨fuel - 1, by omega⟩
        obtain ⟨es, fs, parentDid, c', rfl, hback, hdir, htr, hsub', hread'⟩ :=
          @ih c₁ y (h.find hf) hc.left fuel (by omega)
        exact ⟨es, fs ++ [y], parentDid, c', List.append_assoc .., hback, hdir, htr,
          hsub'.trans hsub, by omega⟩
      | succ did =>
        exact ⟨cs ++ [y], [], did + 1, c₁, (List.append_nil _).symm, rfl,
          h.found hc.left hf (Nat.succ_ne_zero did), h.find hf, hsub, by omega⟩

lemma walkBack_returns {fuel copy} (habs : copy.head? = some slash) (hfuel : copy.length ≤ fuel) :
    ∃ r, walkBack clock fuel copy c = .ok r := by
  induction fuel generalizing copy c with
  | zero =>
    rw [List.length_eq_zero_iff.mp (Nat.le_zero.mp hfuel)] at habs
    cases habs
  | succ fuel ih =>
    obtain ⟨cs, x, -, hx, rfl⟩ := exists_join_of_head habs
    rw [length_join_concat] at hfuel
    rcases cs with _ | ⟨y, cs⟩
    · exact ⟨_, walkBack_root hx⟩
    rw [walkBack_step hx (List.cons_ne_nil y cs)]
    cases findDiridByFullname clock c (join slash (y :: cs)) with
    | mk did c₁ =>
      cases did with
      | zero => exact ih rfl (by omega)
      | succ did => exact ⟨_, rfl⟩

section Forward
variable {query : Nat → Bytes → Option FileInfo} {fuel parentDid : Nat} {fi : FileInfo}

lemma strchr_last (hb : slash ∉ b) : strchr slash ((join slash (cs ++ [b])).drop ((join slash cs).length + 1)) = none := by
  rw [join_concat, ← List.drop_drop, List.drop_left]
  exact strchr_none hb

lemma walkForward_last (hb : slash ∉ b) :
    walkForward query clock (join slash (cs ++ [b])) (fuel + 1) (join slash cs).length parentDid fi c
      = .ok (parentDid, c) := by
  rw [walkForward, strchr_last hb]

lemma strchr_component {gs} (hx : slash ∉ x) (hgs : gs ≠ []) :
    strchr slash ((join slash (cs ++ x :: gs)).drop ((join slash cs).length + 1)) = some x.length := by
  obtain ⟨y, gs, rfl⟩ := List.exists_cons_of_ne_nil hgs
  rw [join_append, join_cons, join_cons, ← List.drop_drop, List.drop_left]
  exact strchr_append hx

lemma take_component {gs} :
    (join slash (cs ++ x :: gs)).take ((join slash cs).length + 1 + x.length) = join slash (cs ++ [x]) := by
  rw [← length_join_concat, show cs ++ x :: gs = cs ++ [x] ++ gs by simp]
  exact take_join _

lemma slice_component {gs} :
    slice (join slash (cs ++ x :: gs)) (join slash cs).length
      ((join slash cs).length + 1 + x.length - (join slash cs).length) = slash :: x := by
  rw [slice, join_append, join_cons, List.drop_left, show (join slash cs).length + 1 + x.length
    - (join slash cs).length = x.length + 1 by omega, List.take_succ_cons, List.take_left]

lemma walkForward_step {gs} (hx : slash ∉ x) (hgs : gs ≠ []) :
    walkForward query clock (join slash (cs ++ x :: gs)) (fuel + 1) (join slash cs).length parentDid fi
        c
      = if (answer query parentDid (slash :: x) fi).isdir then
          walkForward query clock (join slash (cs ++ x :: gs)) fuel (join slash (cs ++ [x])).length
            (answer query parentDid (slash :: x) fi).fileid (answer query parentDid (slash :: x) fi)
            (addDidCacheEntry clock c.countMiss (answer query parentDid (slash :: x) fi).fileid
              (join slash (cs ++ [x])))
        else .ok (parentDid, c.countMiss) := by
  rw [walkForward, strchr_component hx hgs]
  simp only [slice_component, take_component, length_join_concat]

lemma walkForward_suffix {path p d c'}
    (h : walkForward query clock path fuel p parentDid fi c = .ok (d, c')) :
    c.base <:+ c'.base := by
  induction fuel generalizing p parentDid fi c with
  | zero => cases h
  | succ fuel ih =>
    rw [walkForward] at h
    split at h
    · cases h
      exact List.suffix_rfl
    · simp only at h
      split at h
      · exact (List.suffix_cons _ _).trans (ih h)
      · cases h
        exact List.suffix_rfl

end Forward

lemma Tree.answer_next (fi : FileInfo) (hp : T.Dir cs did) (hx : IsField slash x) (hd : T.Dir (cs ++ [x] ++ ds) d) :
    ∃ did', T.Dir (cs ++ [x]) did' ∧ answer T.getfiledirparms did (slash :: x) fi = ⟨true, did'⟩ := by
  obtain ⟨did', hdid⟩ : ∃ did', T.Dir (cs ++ [x]) did' := by
    cases ds with
    | nil => exact ⟨d, by simpa using hd⟩
    | cons y ds => exact Catalogue.dir_above hd (List.cons_ne_nil _ _)
  refine ⟨did', hdid, ?_⟩
  rw [answer, Tree.getfiledirparms_dir hp hx, Catalogue.lookup_eq_some.mpr hdid]
  rfl

lemma walkForward_spec {fuel parentDid fi} (h : Trusted T clock c) (hc : Components (cs ++ ds))
    (hb : slash ∉ b) (hp : T.Dir cs parentDid) (hd : T.Dir (cs ++ ds) d) (hfuel : ds.length < fuel) :
    ∃ c', walkForward T.getfiledirparms clock (join slash (cs ++ ds ++ [b])) fuel
        (join slash cs).length parentDid fi c = .ok (d, c') ∧
      Trusted T clock c' ∧ Refreshed c (cs ++ ds) c' := by
  induction ds generalizing cs fuel parentDid fi c with
  | nil =>
    obtain ⟨fuel, rfl⟩ := Nat.exists_eq_add_of_lt hfuel
    rw [List.append_nil] at hd ⊢
    refine ⟨c, ?_, h, .of_sublist (.refl _) (Nat.le_refl _)⟩
    rw [walkForward_last hb, Catalogue.dir_unique hp hd]
  | cons x ds ih =>
    obtain ⟨fuel, rfl⟩ : ∃ k, fuel = k + 1 := ⟨fuel - 1, by omega⟩
    have hx : IsField slash x := hc x (by simp)
    have hassoc : cs ++ x :: ds = cs ++ [x] ++ ds := by simp
    rw [hassoc] at hc hd ⊢
    obtain ⟨did, hdid, hans⟩ := Tree.answer_next fi hp hx hd
    have htr : Trusted T clock (addDidCacheEntry clock c.countMiss did (join slash (cs ++ [x]))) :=
      Trusted.add h hc.left hdid
    obtain ⟨c', hfwd, htr', href⟩ := @ih (addDidCacheEntry clock c.countMiss did (join slash (cs ++ [x])))
      (cs ++ [x]) fuel did ⟨true, did⟩ htr hc hdid hd (by simpa using hfuel)
    refine ⟨c', ?_, htr', .trans (.add (List.prefix_append ..)) href⟩
    have hstep := @walkForward_step clock c cs x T.getfiledirparms fuel parentDid fi (ds ++ [b]) hx.2
      (by simp)
    rw [hans] at hstep
    rw [show cs ++ [x] ++ ds ++ [b] = cs ++ x :: (ds ++ [b]) by simp] at hfwd ⊢
    rw [hstep]
    exact hfwd

lemma getDirid_join {query fi} (hb : slash ∉ b) :
    getDirid query clock fi c (join slash (cs ++ [b]))
      = if afpMaxPath < b.length then .error .basenameOverflow
        else if cs = [] then .ok (some (afpRootDid, b), c)
        else if afpMaxPath < (join slash cs).length + 1 then .error .copyOverflow
        else
          match findDiridByFullname clock c (join slash cs) with
          | (0, c) => do
            let ((p, parentDid), c) ← walkBack clock (join slash (cs ++ [b])).length (join slash cs) c
            let (dirid, c) ← walkForward query clock (join slash (cs ++ [b]))
              (join slash (cs ++ [b])).length p parentDid fi c
            return (some (dirid, b), c)
          | (newdid, c) => .ok (some (newdid, b), c) := by
  have hdrop : (join slash (cs ++ [b])).drop ((join slash cs).length + 1) = b := by
    rw [join_concat, ← List.drop_drop, List.drop_left]
    rfl
  have hzero : (join slash cs).length = 0 ↔ cs = [] := by
    constructor
    · intro h
      exact List.length_eq_zero_iff.mp (Nat.le_zero.mp (h ▸ length_le_join))
    · rintro rfl
      rfl
  rw [getDirid, strrchr_join hb]
  simp only [hdrop, hzero, take_join]

theorem getDirid_spec {fi} (h : Trusted T clock c) (hc : Components cs) (hb : slash ∉ b)
    (hd : T.Dir cs d) (hbase : b.length ≤ afpMaxPath) (hcopy : (join slash cs).length < afpMaxPath) :
    ∃ c', getDirid T.getfiledirparms clock fi c (join slash (cs ++ [b])) = .ok (some (d, b), c') ∧
      Trusted T clock c' ∧ Refreshed c cs c' := by
  rw [getDirid_join hb, if_neg (by omega)]
  rcases List.eq_nil_or_concat cs with rfl | ⟨cs, x, rfl⟩
  · refine ⟨c, ?_, h, .of_sublist (.refl _) (Nat.le_refl _)⟩
    rw [if_pos rfl, Catalogue.dir_unique hd T.dir_root]
  · rw [List.concat_eq_append] at *
    rw [if_neg (by simp), if_neg (by omega)]
    cases hf : findDiridByFullname clock c (join slash (cs ++ [x])) with
    | mk did c₁ =>
      cases did with
      | zero =>
        have hlen := @length_le_join _ slash (cs ++ [x] ++ [b])
        simp only [List.length_append, List.length_singleton] at hlen
        obtain ⟨es, fs, parentDid, c₂, rfl, hback, hdir, htr, hsub, hread⟩ :=
          @walkBack_spec T clock c₁ cs x (join slash (cs ++ [x] ++ [b])).length (h.find hf) hc (by omega)
        have hassoc : es ++ fs ++ [x] = es ++ (fs ++ [x]) := List.append_assoc ..
        rw [hassoc] at hc hd
        obtain ⟨c', hfwd, htr', href⟩ := @walkForward_spec T clock c₂ es (fs ++ [x]) b d
          (join slash (es ++ fs ++ [x] ++ [b])).length parentDid fi htr hc hb hdir hd
          (by simp only [List.length_append, List.length_singleton] at hlen ⊢; omega)
        rw [← hassoc] at hfwd href
        refine ⟨c', ?_, htr', (Refreshed.find hf).trans ((Refreshed.of_sublist hsub hread).trans href)⟩
        simp only [hback, hfwd, bind, Except.bind, pure, Except.pure]
      | succ did =>
        refine ⟨c₁, ?_, h.find hf, .find hf⟩
        rw [Catalogue.dir_unique hd (h.found hc hf (Nat.succ_ne_zero did))]
        rfl

/-- A path that fits its buffer and leads to the name `b` in the existing directory `cs` with id `d`. -/
structure Resolves (T : Tree) (path : Bytes) (cs : List Bytes) (b : Bytes) (d : Nat) : Prop where
  path_eq : path = join slash (cs ++ [b])
  components : Components (cs ++ [b])
  dir : T.Dir cs d
  fits : path.length < afpMaxPath

lemma getDirid_resolves {path} (fi) (h : Trusted T clock c) (hr : Resolves T path cs b d) :
    ∃ c', getDirid T.getfiledirparms clock fi c path = .ok (some (d, b), c') ∧
      Trusted T clock c' ∧ Refreshed c cs c' := by
  obtain ⟨rfl, hc, hd, hfits⟩ := hr
  rw [join_concat, List.length_append, List.length_cons] at hfits
  exact getDirid_spec h hc.left hc.last.2 hd (by omega) (by omega)

end AfpfsNg.Did
