import Mathlib.Data.List.Nodup
import Mathlib.Data.List.Infix

/-!
# Catalogues

A directory tree with stable ids, as the list of its nodes with their paths. A `Catalogue` carries its
well-formedness: no path and no id occurs twice, the root is a directory, and a node that is not the root
has a directory above it. `lookup` finds the node at a path, `pathOf` the path of a directory with a
given id. `insert`, `erase` and `move` are the changes a file server makes. `move` takes everything below the
moved node along.
-/

namespace AfpfsNg.Base

variable {ν ι : Type*}

/-- What a path leads to: a directory or a file, with its id. -/
structure Node (ι : Type*) where
  id : ι
  isdir : Bool
  deriving DecidableEq, Repr

/-- A directory tree, by paths. -/
structure Catalogue (ν ι : Type*) where
  entries : List (List ν × Node ι)
  root : ι
  root_mem : ([], ⟨root, true⟩) ∈ entries
  paths_nodup : (entries.map Prod.fst).Nodup
  ids_nodup : (entries.map (·.2.id)).Nodup
  closed : ∀ p c n, (p ++ [c], n) ∈ entries → ∃ d, (p, ⟨d, true⟩) ∈ entries

namespace Catalogue

lemma closed_of_dropLast {l : List (List ν × Node ι)}
    (h : ∀ e ∈ l, e.1 ≠ [] → ∃ e' ∈ l, e'.1 = e.1.dropLast ∧ e'.2.isdir = true) (p c n)
    (hmem : (p ++ [c], n) ∈ l) : ∃ d, (p, ⟨d, true⟩) ∈ l := by
  obtain ⟨⟨q, d, isdir⟩, he, hq, hdir⟩ := h _ hmem (by simp)
  simp only [List.dropLast_concat] at hq hdir
  subst hq hdir
  exact ⟨d, he⟩

variable {C : Catalogue ν ι} {p q src dst : List ν} {c : ν} {n : Node ι} {d d' : ι}

def Dir (C : Catalogue ν ι) (p : List ν) (d : ι) : Prop := (p, ⟨d, true⟩) ∈ C.entries

lemma dir_of_isdir (h : ∃ e ∈ C.entries, e.1 = p ∧ e.2.isdir = true) : ∃ d, C.Dir p d := by
  obtain ⟨⟨q, d, isdir⟩, he, rfl, hdir⟩ := h
  obtain rfl : isdir = true := hdir
  exact ⟨d, he⟩

lemma node_unique {n'} (h : (p, n) ∈ C.entries) (h' : (p, n') ∈ C.entries) : n = n' :=
  congrArg Prod.snd (List.inj_on_of_nodup_map C.paths_nodup h h' rfl)

lemma path_unique (h : C.Dir p d) (h' : C.Dir q d) : p = q :=
  congrArg Prod.fst (List.inj_on_of_nodup_map C.ids_nodup h h' rfl)

lemma dir_unique (h : C.Dir p d) (h' : C.Dir p d') : d = d' :=
  congrArg Node.id (node_unique h h')

lemma dir_above (h : (p ++ q, n) ∈ C.entries) (hq : q ≠ []) : ∃ d, C.Dir p d := by
  induction q using List.reverseRecOn generalizing n with
  | nil => exact absurd rfl hq
  | append_singleton q c ih =>
    rw [← List.append_assoc] at h
    obtain ⟨d, hd⟩ := C.closed _ _ _ h
    by_cases hnil : q = []
    · subst hnil
      rw [List.append_nil] at hd
      exact ⟨d, hd⟩
    · exact ih hd hnil

section Search
variable [DecidableEq ν] [DecidableEq ι]

def lookup (C : Catalogue ν ι) (p : List ν) : Option (Node ι) :=
  (C.entries.find? (·.1 = p)).map Prod.snd

def pathOf (C : Catalogue ν ι) (d : ι) : Option (List ν) :=
  (C.entries.find? (·.2 = ⟨d, true⟩)).map Prod.fst

omit [DecidableEq ι] in
lemma lookup_eq_some : C.lookup p = some n ↔ (p, n) ∈ C.entries := by
  rw [lookup, Option.map_eq_some_iff]
  constructor
  · rintro ⟨⟨q, m⟩, hfind, rfl⟩
    obtain rfl : q = p := by simpa using List.find?_some hfind
    exact List.mem_of_find?_eq_some hfind
  · intro h
    cases hfind : C.entries.find? (·.1 = p) with
    | none => simpa using List.find?_eq_none.mp hfind _ h
    | some e =>
      obtain ⟨q, m⟩ := e
      obtain rfl : q = p := by simpa using List.find?_some hfind
      exact ⟨(q, m), rfl, node_unique (List.mem_of_find?_eq_some hfind) h⟩

omit [DecidableEq ν] in
lemma pathOf_eq_some : C.pathOf d = some p ↔ C.Dir p d := by
  rw [pathOf, Option.map_eq_some_iff]
  constructor
  · rintro ⟨⟨q, m⟩, hfind, rfl⟩
    obtain rfl : m = ⟨d, true⟩ := by simpa using List.find?_some hfind
    exact List.mem_of_find?_eq_some hfind
  · intro h
    cases hfind : C.entries.find? (·.2 = ⟨d, true⟩) with
    | none => simpa using List.find?_eq_none.mp hfind _ h
    | some e =>
      obtain ⟨q, m⟩ := e
      obtain rfl : m = ⟨d, true⟩ := by simpa using List.find?_some hfind
      exact ⟨(q, _), rfl, path_unique (List.mem_of_find?_eq_some hfind) h⟩

instance : Decidable (C.Dir p d) := decidable_of_iff (C.lookup p = some ⟨d, true⟩) lookup_eq_some

end Search

def ofDirs (paths : List (List ν)) (id : List ν → ι) (hnil : [] ∈ paths) (hnodup : paths.Nodup)
    (hid : ∀ p ∈ paths, ∀ q ∈ paths, id p = id q → p = q) (hup : ∀ p c, p ++ [c] ∈ paths → p ∈ paths) :
    Catalogue ν ι where
  entries := paths.map fun p => (p, ⟨id p, true⟩)
  root := id []
  root_mem := List.mem_map.mpr ⟨[], hnil, rfl⟩
  paths_nodup := by
    rw [List.map_map]
    exact (List.map_id paths).symm ▸ hnodup
  ids_nodup := by
    rw [List.map_map]
    exact hnodup.map_on hid
  closed := by
    intro p c n hmem
    obtain ⟨q, hq, heq⟩ := List.mem_map.mp hmem
    cases (Prod.mk.inj heq).1
    exact ⟨id p, List.mem_map.mpr ⟨p, hup p c hq, rfl⟩⟩

lemma dir_ofDirs {paths : List (List ν)} {id : List ν → ι} (hnil hnodup hid hup) (h : p ∈ paths) :
    (ofDirs paths id hnil hnodup hid hup).Dir p (id p) :=
  List.mem_map.mpr ⟨p, h, rfl⟩

def insert (C : Catalogue ν ι) (p : List ν) (c : ν) (n : Node ι) (hp : ∃ d, C.Dir p d)
    (hfree : ∀ e ∈ C.entries, e.1 ≠ p ++ [c]) (hid : ∀ e ∈ C.entries, e.2.id ≠ n.id) :
    Catalogue ν ι where
  entries := (p ++ [c], n) :: C.entries
  root := C.root
  root_mem := List.mem_cons_of_mem _ C.root_mem
  paths_nodup := by
    rw [List.map_cons, List.nodup_cons]
    refine ⟨?_, C.paths_nodup⟩
    rintro hmem
    obtain ⟨e, he, heq⟩ := List.mem_map.mp hmem
    exact hfree e he heq
  ids_nodup := by
    rw [List.map_cons, List.nodup_cons]
    refine ⟨?_, C.ids_nodup⟩
    rintro hmem
    obtain ⟨e, he, heq⟩ := List.mem_map.mp hmem
    exact hid e he heq
  closed := by
    intro q x m hmem
    rcases List.mem_cons.mp hmem with heq | hold
    · obtain ⟨d, hd⟩ := hp
      obtain rfl : q = p := (List.append_inj' (Prod.mk.inj heq).1 rfl).1
      exact ⟨d, List.mem_cons_of_mem _ hd⟩
    · obtain ⟨d, hd⟩ := C.closed q x m hold
      exact ⟨d, List.mem_cons_of_mem _ hd⟩

def erase [DecidableEq ν] (C : Catalogue ν ι) (p : List ν) (hp : p ≠ [])
    (hleaf : ∀ e ∈ C.entries, p <+: e.1 → e.1 = p) : Catalogue ν ι where
  entries := C.entries.filter (·.1 ≠ p)
  root := C.root
  root_mem := List.mem_filter.mpr ⟨C.root_mem, by simpa using Ne.symm hp⟩
  paths_nodup := C.paths_nodup.sublist (List.filter_sublist.map _)
  ids_nodup := C.ids_nodup.sublist (List.filter_sublist.map _)
  closed := by
    intro q x m hmem
    obtain ⟨hold, hne⟩ := List.mem_filter.mp hmem
    obtain ⟨d, hd⟩ := C.closed q x m hold
    refine ⟨d, List.mem_filter.mpr ⟨hd, ?_⟩⟩
    simp only [decide_eq_true_eq]
    rintro rfl
    have heq := hleaf _ hold (List.prefix_append ..)
    simp at heq

/-- Where a node is once `src` has become `dst`. -/
def relocate [DecidableEq ν] (src dst p : List ν) : List ν :=
  if src <+: p then dst ++ p.drop src.length else p

section Relocate
variable [DecidableEq ν]

lemma relocate_below (r : List ν) : relocate src dst (src ++ r) = dst ++ r := by
  rw [relocate, if_pos (List.prefix_append ..), List.drop_left]

lemma relocate_elsewhere (h : ¬ src <+: p) : relocate src dst p = p := if_neg h

lemma relocate_inj (hp : ¬ dst <+: p) (hq : ¬ dst <+: q)
    (h : relocate src dst p = relocate src dst q) : p = q := by
  by_cases h1 : src <+: p
  · obtain ⟨r, rfl⟩ := h1
    rw [relocate_below] at h
    by_cases h2 : src <+: q
    · obtain ⟨r', rfl⟩ := h2
      rw [relocate_below] at h
      rw [List.append_cancel_left h]
    · rw [relocate_elsewhere h2] at h
      exact absurd ⟨r, h⟩ hq
  · rw [relocate_elsewhere h1] at h
    by_cases h2 : src <+: q
    · obtain ⟨r', rfl⟩ := h2
      rw [relocate_below] at h
      exact absurd ⟨r', h.symm⟩ hp
    · rwa [relocate_elsewhere h2] at h

def move (C : Catalogue ν ι) (src p : List ν) (c : ν) (hsrc : src ≠ []) (hp : ∃ d, C.Dir p d)
    (hfree : ∀ e ∈ C.entries, ¬ p ++ [c] <+: e.1) (hbelow : ¬ src <+: p ++ [c]) :
    Catalogue ν ι where
  entries := C.entries.map fun e => (relocate src (p ++ [c]) e.1, e.2)
  root := C.root
  root_mem := by
    refine List.mem_map.mpr ⟨_, C.root_mem, ?_⟩
    rw [relocate_elsewhere (fun h => hsrc (List.prefix_nil.mp h))]
  paths_nodup := by
    rw [List.map_map]
    refine (List.Nodup.of_map _ C.paths_nodup).map_on ?_
    intro e he e' he' h
    have hpath := relocate_inj (hfree e he) (hfree e' he') h
    exact List.inj_on_of_nodup_map C.paths_nodup he he' hpath
  ids_nodup := by
    rw [List.map_map]
    exact C.ids_nodup
  closed := by
    have hparent : ∀ {q d}, C.Dir q d →
        ∃ d, (relocate src (p ++ [c]) q, ⟨d, true⟩) ∈ C.entries.map
          fun e => (relocate src (p ++ [c]) e.1, e.2) :=
      fun h => ⟨_, List.mem_map.mpr ⟨_, h, rfl⟩⟩
    intro q x m hmem
    obtain ⟨⟨r, k⟩, hold, heq⟩ := List.mem_map.mp hmem
    have hr : relocate src (p ++ [c]) r = q ++ [x] := (Prod.mk.inj heq).1
    by_cases hs : src <+: r
    · obtain ⟨t, rfl⟩ := hs
      rw [relocate_below] at hr
      rcases List.eq_nil_or_concat t with rfl | ⟨t, y, rfl⟩
      -- the moved node itself: what is above it is the directory it was moved to
      · rw [List.append_nil] at hr
        obtain ⟨d, hd⟩ := hp
        have hpsrc : ¬ src <+: p := fun h => hbelow (h.trans (List.prefix_append ..))
        have := hparent hd
        rw [relocate_elsewhere hpsrc] at this
        rwa [← (List.append_inj' hr rfl).1]
      · rw [List.concat_eq_append, ← List.append_assoc] at hr hold
        obtain ⟨d, hd⟩ := C.closed _ _ _ hold
        have := hparent hd
        rwa [relocate_below, (List.append_inj' hr rfl).1] at this
    · rw [relocate_elsewhere hs] at hr
      subst hr
      obtain ⟨d, hd⟩ := C.closed _ _ _ hold
      have := hparent hd
      rwa [relocate_elsewhere (fun h => hs (h.trans (List.prefix_append ..)))] at this

end Relocate

lemma dir_insert (hp hfree hid) (h : C.Dir q d) : (C.insert p c n hp hfree hid).Dir q d :=
  List.mem_cons_of_mem _ h

lemma dir_erase [DecidableEq ν] (hp hleaf) (h : C.Dir q d) (hq : q ≠ p) :
    (C.erase p hp hleaf).Dir q d :=
  List.mem_filter.mpr ⟨h, by simpa using hq⟩

lemma dir_move [DecidableEq ν] (hsrc hp hfree hbelow) (h : C.Dir q d) (hq : ¬ src <+: q) :
    (C.move src p c hsrc hp hfree hbelow).Dir q d := by
  refine List.mem_map.mpr ⟨_, h, ?_⟩
  rw [relocate_elsewhere hq]

section Lookup
variable [DecidableEq ν]

lemma lookup_insert (hp hfree hid) (q : List ν) :
    (C.insert p c n hp hfree hid).lookup q = if q = p ++ [c] then some n else C.lookup q := by
  rw [lookup, insert, List.find?_cons]
  by_cases h : q = p ++ [c]
  · simp [h]
  · simp [h, Ne.symm h, lookup]

lemma lookup_erase (hp hleaf) (q : List ν) :
    (C.erase p hp hleaf).lookup q = if q = p then none else C.lookup q := by
  rw [lookup, erase, List.find?_filter]
  by_cases h : q = p
  · simp [h]
  · rw [if_neg h, lookup]
    congr 2
    funext e
    by_cases he : e.1 = q
    · simp [he, h]
    · simp [he]

lemma lookup_eq_none : C.lookup p = none ↔ ∀ e ∈ C.entries, e.1 ≠ p := by
  simp [lookup]

end Lookup

end Catalogue

end AfpfsNg.Base
