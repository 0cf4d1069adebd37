import AfpfsNg.Base.Bytes

/-!
# The directory id cache

The cache of `lib/did.c`: a singly linked list of directories that were found before, the newest at the
head, each with its full name, its id and the time it was added. `timeout` seconds later an entry is
expired.

`find_dirid_by_fullname` takes out the expired entries it passes. When it finds one at the head, or right
behind the head, it sets the head of the list behind it, and goes on with the entry after that one:
`findScan` follows the pointers `prev` and `p` of the source, with `seen` for the entries from `prev`
back to the head. `clock n` is the second in which the `n`th call of `gettimeofday` returns.
-/

namespace AfpfsNg.Did
open AfpfsNg.Base

def timeout : Nat := 10

structure DidCacheEntry where
  dirname : Bytes
  did : Nat
  time : Nat
  deriving DecidableEq, Repr

def DidCacheEntry.expired (e : DidCacheEntry) (now : Nat) : Bool := e.time + timeout < now

/-- The cache of a volume: C `did_cache_base` and `did_cache_stats`. -/
structure DidCache where
  base : List DidCacheEntry
  hits : Nat
  misses : Nat
  expired : Nat
  forceRemoved : Nat
  readings : Nat
  deriving DecidableEq, Repr

def DidCache.empty : DidCache := ⟨[], 0, 0, 0, 0, 0⟩

def DidCache.countExpired (c : DidCache) : DidCache := { c with expired := c.expired + 1 }

def DidCache.countMiss (c : DidCache) : DidCache := { c with misses := c.misses + 1 }

def removeDidEntry (c : DidCache) (name : Bytes) : DidCache :=
  if c.base.any (·.dirname = name) then
    { c with base := c.base.eraseP (·.dirname = name), forceRemoved := c.forceRemoved + 1 }
  else c

def addDidCacheEntry (clock : Nat → Nat) (c : DidCache) (did : Nat) (path : Bytes) : DidCache :=
  { c with base := ⟨path, did, clock c.readings⟩ :: c.base, readings := c.readings + 1 }

/-- The loop of `find_dirid_by_fullname` at the entries `rest`; `seen` are those it has passed since the
head, the last one first. -/
def findScan (path : Bytes) (now : Nat) :
    DidCache → List DidCacheEntry → List DidCacheEntry → Nat × DidCache
  | c, seen, [] => (0, { c with base := seen.reverse })
  | c, seen, p :: rest =>
    if p.expired now then
      match seen with
      | prev :: _ :: _ =>
        if prev.dirname = path then
          (prev.did, { c.countExpired with base := seen.reverse ++ rest, hits := c.hits + 1 })
        else findScan path now c.countExpired seen rest
      | _ =>
        -- `prev` is the head: the list starts behind `p` now, and its first entry is passed over
        if p.dirname = path then (0, { c.countExpired with base := rest })
        else
          match rest with
          | [] => (0, { c.countExpired with base := [] })
          | q :: rest => findScan path now c.countExpired [q] rest
    else if p.dirname = path then
      (p.did, { c with base := seen.reverse ++ p :: rest, hits := c.hits + 1 })
    else findScan path now c (p :: seen) rest

/-- The id of the directory with that name, 0 if it is not there (C `find_dirid_by_fullname`). -/
def findDiridByFullname (clock : Nat → Nat) (c : DidCache) (path : Bytes) : Nat × DidCache :=
  findScan path (clock c.readings) { c with readings := c.readings + 1 } [] c.base

variable {path : Bytes} {now : Nat} {c : DidCache} {seen rest : List DidCacheEntry}

lemma findScan_readings : (findScan path now c seen rest).2.readings = c.readings := by
  fun_induction findScan path now c seen rest <;> simp_all [DidCache.countExpired]

lemma findScan_sublist : (findScan path now c seen rest).2.base.Sublist (seen.reverse ++ rest) := by
  fun_induction findScan path now c seen rest with
  | case1 => simp
  | case2 => simp
  | case3 c p rest _ prev x older _ ih =>
    exact ih.trans ((List.sublist_cons_self p rest).append_left _)
  | case4 c seen p rest =>
    exact (List.sublist_cons_self p rest).trans (List.sublist_append_right _ _)
  | case5 => simp
  | case6 c seen p _ _ q rest _ ih =>
    refine ih.trans (.trans ?_ (List.sublist_append_right _ _))
    exact List.sublist_cons_self p (q :: rest)
  | case7 => simp
  | case8 c seen p rest _ _ ih => simpa using ih

lemma findScan_found (hseen : ∀ prev x older, seen = prev :: x :: older → prev.dirname ≠ path)
    (h : (findScan path now c seen rest).1 ≠ 0) :
    ∃ e ∈ rest, e.expired now = false ∧ e.dirname = path ∧
      e.did = (findScan path now c seen rest).1 := by
  fun_induction findScan path now c seen rest with
  | case1 => exact absurd rfl h
  | case2 c p rest _ prev x older heq => exact absurd heq (hseen prev x older rfl)
  | case3 c p rest _ prev x older _ ih =>
    obtain ⟨e, he, hspec⟩ := ih hseen h
    exact ⟨e, List.mem_cons_of_mem _ he, hspec⟩
  | case4 => exact absurd rfl h
  | case5 => exact absurd rfl h
  | case6 c seen p _ _ q rest _ ih =>
    obtain ⟨e, he, hspec⟩ := ih (fun prev x older heq => nomatch heq) h
    exact ⟨e, List.mem_cons_of_mem _ (List.mem_cons_of_mem _ he), hspec⟩
  | case7 c seen p rest hexp heq =>
    exact ⟨p, List.mem_cons_self .., by simpa using hexp, heq, rfl⟩
  | case8 c seen p rest _ hne ih =>
    have hseen' : ∀ prev x older, p :: seen = prev :: x :: older → prev.dirname ≠ path := by
      intro prev x older heq
      cases heq
      exact hne
    obtain ⟨e, he, hspec⟩ := ih hseen' h
    exact ⟨e, List.mem_cons_of_mem _ he, hspec⟩

lemma findDiridByFullname_spec {clock : Nat → Nat} {did c'}
    (h : findDiridByFullname clock c path = (did, c')) :
    c'.base.Sublist c.base ∧ c'.readings = c.readings + 1 ∧
      (did ≠ 0 → ∃ e ∈ c.base, e.expired (clock c.readings) = false ∧ e.dirname = path ∧
        e.did = did) := by
  rw [findDiridByFullname] at h
  refine ⟨?_, ?_, fun hne => ?_⟩
  · have hsub := @findScan_sublist path (clock c.readings) { c with readings := c.readings + 1 } [] c.base
    rwa [h] at hsub
  · have hread := @findScan_readings path (clock c.readings) { c with readings := c.readings + 1 } []
      c.base
    rwa [h] at hread
  · have hfound := @findScan_found path (clock c.readings) { c with readings := c.readings + 1 } []
      c.base (fun prev x older heq => nomatch heq)
    rw [h] at hfound
    exact hfound hne

lemma removeDidEntry_base {name} :
    (removeDidEntry c name).base = c.base.eraseP (·.dirname = name) := by
  rw [removeDidEntry]
  split
  · rfl
  · rename_i hnone
    refine (List.eraseP_of_forall_not fun e he heq => hnone ?_).symm
    exact List.any_eq_true.mpr ⟨e, he, heq⟩

lemma mem_removeDidEntry {name e} (he : e ∈ (removeDidEntry c name).base) (hname : e.dirname = name) :
    e ∈ (c.base.filter (·.dirname = name)).tail := by
  rw [removeDidEntry_base] at he
  generalize c.base = l at he ⊢
  induction l with
  | nil => cases he
  | cons x l ih =>
    by_cases hx : x.dirname = name
    · rw [List.eraseP_cons_of_pos (by simpa using hx)] at he
      rw [List.filter_cons_of_pos (by simpa using hx), List.tail_cons]
      exact List.mem_filter.mpr ⟨he, by simpa using hname⟩
    · rw [List.eraseP_cons_of_neg (by simpa using hx)] at he
      rw [List.filter_cons_of_neg (by simpa using hx)]
      rcases List.mem_cons.mp he with rfl | he
      · exact absurd hname hx
      · exact ih he

end AfpfsNg.Did
