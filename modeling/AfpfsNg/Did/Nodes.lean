import AfpfsNg.Base.Links
import AfpfsNg.Base.Runs
import AfpfsNg.Did.Cache

/-!
# The nodes of the directory id cache

The functions of `lib/did.c` once more, with the entries as nodes of a linked list that are allocated and freed. A function
has no result if it reads, writes or frees a node that is not allocated. Loops have a bound on their rounds.

`Represents` connects the nodes with the list of `Did.Cache`. `free_entire_did_cache`, which `afp_unmount_volume` calls,
frees all the nodes and leaves `did_cache_base` as it is.
-/

namespace AfpfsNg.Did
open AfpfsNg.Base

/-- A volume's list: C `did_cache_base`, the nodes, and `did_cache_stats` as far as these functions count. -/
structure CacheHeap where
  base : Option Nat
  next : Nat → Option Nat
  entry : Nat → DidCacheEntry
  cells : Cells
  hits : Nat
  expired : Nat
  forceRemoved : Nat

def CacheHeap.new : CacheHeap := ⟨none, fun _ => none, fun _ => ⟨[], 0, 0⟩, .none, 0, 0, 0⟩

/-- C `free`, which does nothing for `NULL`. -/
def CacheHeap.free (s : CacheHeap) : Option Nat → Option CacheHeap
  | none => some s
  | some a => (s.cells.free a).map fun cells => { s with cells }

/-- C `prev->next=p->next`. -/
def CacheHeap.skip (s : CacheHeap) (prev p : Nat) : Option CacheHeap :=
  if s.cells.Live prev then some { s with next := Function.update s.next prev (s.next p) } else none

def CacheHeap.unlink (s : CacheHeap) (p : Option Nat) (d : Nat) : Option CacheHeap :=
  match p with
  | some p => s.skip p d
  | none => some { s with base := s.next d }

def freeLoop : Nat → CacheHeap → Option Nat → Option Nat → Option CacheHeap
  | 0, _, _, _ => none
  | _ + 1, s, none, _ => some s
  | n + 1, s, some d, p2 =>
    if s.cells.Live d then
      let p := s.next d
      (s.free p2).bind fun s => freeLoop n s p p
    else none

def CacheHeap.freeEntireDidCache (s : CacheHeap) : Option CacheHeap := freeLoop (s.cells.made + 1) s s.base s.base

def removeLoop (name : Bytes) : Nat → CacheHeap → Option Nat → Option Nat → Option CacheHeap
  | 0, _, _, _ => none
  | _ + 1, s, none, _ => some s
  | n + 1, s, some d, p =>
    if s.cells.Live d then
      if (s.entry d).dirname = name then do
        let s ← s.unlink p d
        { s with forceRemoved := s.forceRemoved + 1 }.free (some d)
      else removeLoop name n s (s.next d) (some d)
    else none

def CacheHeap.removeDidEntry (s : CacheHeap) (name : Bytes) : Option CacheHeap :=
  removeLoop name (s.cells.made + 1) s s.base none

/-- C `add_did_cache_entry`; `memory` says whether `malloc` has a node. -/
def CacheHeap.addDidCacheEntry (s : CacheHeap) (memory : Bool) (did : Nat) (path : Bytes) (now : Nat) : CacheHeap :=
  if memory then
    { s with
      base := some s.cells.made
      next := Function.update s.next s.cells.made s.base
      entry := Function.update s.entry s.cells.made ⟨path, did, now⟩
      cells := s.cells.new }
  else s

def findLoop (path : Bytes) (now : Nat) : Nat → CacheHeap → Option Nat → Option Nat → Option (Nat × CacheHeap)
  | 0, _, _, _ => none
  | _ + 1, s, none, _ => some (0, s)
  | n + 1, s, some p, prev =>
    if s.cells.Live p then
      if (s.entry p).expired now then
        if prev = s.base then do
          let breakearly : Bool := (s.entry p).dirname = path
          let s ← { s with expired := s.expired + 1, base := s.next p }.free (some p)
          if breakearly then return (0, s)
          match s.base with
          | none => return (0, s)
          -- `continue` goes on behind the new head
          | some q => if s.cells.Live q then findLoop path now n s (s.next q) (some q) else none
        else do
          let prev ← prev
          let s ← { s with expired := s.expired + 1 }.skip prev p
          let s ← s.free (some p)
          if (s.entry prev).dirname = path then return ((s.entry prev).did, { s with hits := s.hits + 1 })
          findLoop path now n s (s.next prev) (some prev)
      else if (s.entry p).dirname = path then some ((s.entry p).did, { s with hits := s.hits + 1 })
      else findLoop path now n s (s.next p) (some p)
    else none

def CacheHeap.findDiridByFullname (s : CacheHeap) (path : Bytes) (now : Nat) : Option (Nat × CacheHeap) :=
  findLoop path now (s.cells.made + 1) s s.base s.base

inductive CacheCall where
  | add (memory : Bool) (did : Nat) (path : Bytes) (now : Nat)
  | find (path : Bytes) (now : Nat)
  | remove (name : Bytes)
  /-- `free_entire_did_cache`, when the volume is unmounted -/
  | freeEntire
  deriving DecidableEq, Repr

def CacheHeap.perform (s : CacheHeap) : CacheCall → Option CacheHeap
  | .add memory did path now => some (s.addDidCacheEntry memory did path now)
  | .find path now => (s.findDiridByFullname path now).map Prod.snd
  | .remove name => s.removeDidEntry name
  | .freeEntire => s.freeEntireDidCache

/-- The list goes through the nodes `xs`, which are allocated. -/
structure Linked (s : CacheHeap) (xs : List Nat) : Prop where
  chain : Chain s.next s.base xs
  live : ∀ a ∈ xs, s.cells.Live a

structure Counts (s : CacheHeap) (c : DidCache) : Prop where
  hits : s.hits = c.hits
  expired : s.expired = c.expired
  forceRemoved : s.forceRemoved = c.forceRemoved

structure Represents (s : CacheHeap) (c : DidCache) (xs : List Nat) : Prop extends Linked s xs, Counts s c where
  entries : xs.map s.entry = c.base

lemma Counts.withBase {s : CacheHeap} {c : DidCache} (h : Counts s c) (base : List DidCacheEntry) :
    Counts s { c with base } := ⟨h.hits, h.expired, h.forceRemoved⟩

section Linked
variable {s : CacheHeap} {c : DidCache} {xs ys : List Nat} {a b : Nat}

lemma Linked.free (h : Linked s xs) (ha : s.cells.Live a) (hxs : a ∉ xs) :
    ∃ cells, s.free (some a) = some { s with cells } ∧ Linked { s with cells } xs := by
  obtain ⟨cells, hfree, -, -, hlive⟩ := ha.free
  refine ⟨cells, ?_, h.chain, fun b hb => hlive b (ne_of_mem_of_not_mem hb hxs) (h.live b hb)⟩
  rw [CacheHeap.free, hfree]
  rfl

lemma Linked.drop (h : Linked s (xs ++ a :: ys)) : Linked { s with base := s.next a } ys := by
  obtain ⟨m, -, hchain⟩ := h.chain.split
  cases hchain with
  | cons hchain => exact ⟨hchain, fun b hb => h.live b (List.mem_append_right _ (List.mem_cons_of_mem _ hb))⟩

lemma Linked.skip (h : Linked s (xs ++ b :: a :: ys)) :
    s.skip b a = some { s with next := Function.update s.next b (s.next a) } ∧
      Linked { s with next := Function.update s.next b (s.next a) } (xs ++ b :: ys) := by
  refine ⟨if_pos (h.live b (List.mem_append_right _ List.mem_cons_self)), h.chain.unlink, ?_⟩
  intro d hd
  have hsub : (xs ++ b :: ys).Sublist (xs ++ b :: a :: ys) := ((List.sublist_cons_self a ys).cons_cons b).append_left xs
  exact h.live d (hsub.subset hd)

lemma Linked.unlink {seen : List Nat} (h : Linked s (seen.reverse ++ a :: ys)) :
    ∃ base next, s.unlink seen.head? a = some { s with base, next } ∧ Linked { s with base, next } (seen.reverse ++ ys) := by
  cases seen with
  | nil => exact ⟨_, _, rfl, h.drop⟩
  | cons b seen =>
    rw [List.reverse_cons, List.append_assoc] at h ⊢
    obtain ⟨hskip, hlinked⟩ := Linked.skip h
    exact ⟨_, _, hskip, hlinked⟩

lemma Linked.next_eq (h : Linked s (xs ++ a :: ys)) : s.next a = ys.head? := by
  obtain ⟨m, -, hchain⟩ := h.chain.split
  cases hchain with
  | cons hchain => exact Chain.eq_head? hchain

lemma Linked.live_mid (h : Linked s (xs ++ a :: ys)) : s.cells.Live a := h.live a (List.mem_append_right _ List.mem_cons_self)

lemma Linked.not_mem (h : Linked s (xs ++ a :: ys)) : a ∉ xs ∧ a ∉ ys := by
  have hnd := List.nodup_append.mp h.chain.nodup
  exact ⟨fun ha => hnd.2.2 a ha a List.mem_cons_self rfl, (List.nodup_cons.mp hnd.2.1).1⟩

end Linked

section Operations
variable {s : CacheHeap} {c : DidCache} {xs : List Nat}

lemma Represents.add (h : Represents s c xs) (memory : Bool) (did : Nat) (path : Bytes) (now : Nat) :
    ∃ ys, Represents (s.addDidCacheEntry memory did path now)
      (if memory then addDidCacheEntry (fun _ => now) c did path else c) ys := by
  cases memory with
  | false => exact ⟨xs, h⟩
  | true =>
    have hne : ∀ a ∈ xs, a ≠ s.cells.made := fun a ha => Nat.ne_of_lt (h.live a ha).1
    have hnew : s.cells.made ∉ xs := fun hmem => hne _ hmem rfl
    refine ⟨s.cells.made :: xs, ⟨h.chain.push hnew, ?_⟩, ⟨h.hits, h.expired, h.forceRemoved⟩, ?_⟩
    · intro a ha
      rcases List.mem_cons.mp ha with rfl | ha
      · exact s.cells.live_new
      · exact (h.live a ha).new
    · show (s.cells.made :: xs).map (Function.update s.entry s.cells.made _) = _ :: c.base
      rw [List.map_cons, Function.update_self, ← h.entries]
      congr 1
      exact List.map_congr_left fun a ha => Function.update_of_ne (hne a ha) ..

lemma removeLoop_represents {name : Bytes} {n : Nat} {seen rest : List Nat} (h : Represents s c (seen.reverse ++ rest))
    (hseen : ∀ a ∈ seen, (s.entry a).dirname ≠ name) (hn : rest.length < n) :
    ∃ s' ys, removeLoop name n s rest.head? seen.head? = some s' ∧ Represents s' (removeDidEntry c name) ys := by
  induction rest generalizing seen n with
  | nil =>
    obtain ⟨n, rfl⟩ := Nat.exists_eq_add_of_lt hn
    have hnone : c.base.any (·.dirname = name) = false := by
      rw [← h.entries, List.append_nil, List.any_eq_false]
      simpa using hseen
    rw [removeDidEntry, if_neg (by rw [hnone]; exact Bool.false_ne_true)]
    exact ⟨s, _, rfl, h⟩
  | cons d rest ih =>
    obtain ⟨n, rfl⟩ := Nat.exists_eq_add_of_le' (Nat.zero_lt_of_lt hn)
    have hlive := h.live_mid
    rw [List.head?_cons, removeLoop, if_pos hlive]
    split
    case isTrue hname =>
      obtain ⟨base, next, hunlink, hlinked⟩ := h.unlink
      let s₁ : CacheHeap := { s with base, next, forceRemoved := s.forceRemoved + 1 }
      have hlinked₁ : Linked s₁ (seen.reverse ++ rest) := ⟨hlinked.chain, hlinked.live⟩
      obtain ⟨cells, hfree, hlinked₂⟩ := hlinked₁.free hlive (List.not_mem_append h.not_mem.1 h.not_mem.2)
      have hany : c.base.any (·.dirname = name) = true := by
        rw [← h.entries, List.any_eq_true]
        exact ⟨s.entry d, List.mem_map_of_mem (List.mem_append_right _ List.mem_cons_self), decide_eq_true hname⟩
      have herase : c.base.eraseP (·.dirname = name) = (seen.reverse ++ rest).map s.entry := by
        have hhead : (s.entry d :: rest.map s.entry).eraseP (·.dirname = name) = rest.map s.entry :=
          List.eraseP_cons_of_pos (decide_eq_true hname)
        rw [← h.entries, List.map_append, List.map_append, List.eraseP_append_right, List.map_cons, hhead]
        simpa using hseen
      refine ⟨{ s₁ with cells }, seen.reverse ++ rest, ?_, ?_⟩
      · rw [hunlink]
        exact hfree
      · rw [removeDidEntry, if_pos hany]
        exact ⟨hlinked₂, ⟨h.hits, h.expired, congrArg (· + 1) h.forceRemoved⟩, herase.symm⟩
    case isFalse hname =>
      have hpassed : Represents s c ((d :: seen).reverse ++ rest) := by
        rw [List.reverse_cons, List.append_assoc]
        exact h
      rw [h.next_eq]
      exact ih hpassed (List.forall_mem_cons.mpr ⟨hname, hseen⟩) (Nat.lt_of_succ_lt_succ hn)

lemma findScan_expired_head {path : Bytes} {now : Nat} {seen rest : List DidCacheEntry} {e : DidCacheEntry}
    (hseen : seen.length ≤ 1) (he : e.expired now) :
    findScan path now c seen (e :: rest) =
      if e.dirname = path then (0, { c.countExpired with base := rest })
      else
        match rest with
        | [] => (0, { c.countExpired with base := [] })
        | q :: rest => findScan path now c.countExpired [q] rest := by
  match seen, hseen with
  | [], _ => cases rest <;> exact if_pos he
  | [_], _ => cases rest <;> exact if_pos he

lemma findScan_kept {path : Bytes} {now : Nat} {seen rest : List DidCacheEntry} {e : DidCacheEntry} (he : ¬ e.expired now) :
    findScan path now c seen (e :: rest) =
      if e.dirname = path then (e.did, { c with base := seen.reverse ++ e :: rest, hits := c.hits + 1 })
      else findScan path now c (e :: seen) rest := by
  match seen with
  | [] => cases rest <;> exact if_neg he
  | [_] => cases rest <;> exact if_neg he
  | _ :: _ :: _ => cases rest <;> exact if_neg he

def previous (s : CacheHeap) (seen : List Nat) : Option Nat :=
  match seen with
  | [] => s.base
  | a :: _ => some a

lemma previous_eq_base_iff {seen rest : List Nat} (h : Linked s (seen.reverse ++ rest)) :
    previous s seen = s.base ↔ seen.length ≤ 1 := by
  match seen with
  | [] => exact iff_of_true rfl (Nat.zero_le 1)
  | [a] => exact iff_of_true (Chain.eq_head? h.chain).symm (Nat.le_refl 1)
  | a :: b :: older =>
    have hsplit : (a :: b :: older).reverse ++ rest = (older.reverse ++ [b]) ++ a :: rest := by
      rw [List.reverse_cons, List.reverse_cons, List.append_assoc]
      rfl
    rw [hsplit] at h
    refine iff_of_false ?_ (Nat.not_le.mpr (Nat.lt_of_sub_pos (Nat.succ_pos _)))
    intro hbase
    -- the head is `b` or older, and `a` is neither
    have hhead : (older.reverse ++ [b]).head? = some a := by
      rw [← List.head?_append_of_ne_nil (older.reverse ++ [b]) (by simp), ← Chain.eq_head? h.chain]
      exact hbase.symm
    exact h.not_mem.1 (List.mem_of_head? hhead)

/-- The loop, at the nodes `rest` and behind the nodes `seen`, does what `findScan` does to their entries. -/
def Finds (path : Bytes) (now n : Nat) (s : CacheHeap) (c : DidCache) (seen rest : List Nat) : Prop :=
  let found := findScan path now c (seen.map s.entry) (rest.map s.entry)
  ∃ s' ys, findLoop path now n s rest.head? (previous s seen) = some (found.1, s') ∧ Represents s' found.2 ys

variable {path : Bytes} {now n : Nat} {seen rest : List Nat} {p : Nat}

lemma finds_expired_head
    (ih : ∀ {s c seen rest}, Linked s (seen.reverse ++ rest) → Counts s c → rest.length < n → Finds path now n s c seen rest)
    (h : Linked s (seen.reverse ++ p :: rest)) (hc : Counts s c) (hn : rest.length < n) (hp : (s.entry p).expired now)
    (hseen : seen.length ≤ 1) : Finds path now (n + 1) s c seen (p :: rest) := by
  let s₁ : CacheHeap := { s with expired := s.expired + 1, base := s.next p }
  have hlinked₁ : Linked s₁ rest := ⟨h.drop.chain, h.drop.live⟩
  obtain ⟨cells, hfree, hlinked₂⟩ := hlinked₁.free (a := p) h.live_mid h.not_mem.2
  have hcounts₂ : Counts { s₁ with cells } c.countExpired := ⟨hc.hits, congrArg (· + 1) hc.expired, hc.forceRemoved⟩
  have hrun : findLoop path now (n + 1) s (some p) (previous s seen) =
      if (s.entry p).dirname = path then some (0, { s₁ with cells })
      else
        match s.next p with
        | none => some (0, { s₁ with cells })
        | some q => if cells.Live q then findLoop path now n { s₁ with cells } (s.next q) (some q) else none := by
    rw [findLoop, if_pos h.live_mid, if_pos hp, if_pos ((previous_eq_base_iff h).mpr hseen)]
    show (s₁.free (some p)).bind _ = _
    rw [hfree, Option.bind_some]
    simp only [decide_eq_true_eq]
    rfl
  rw [Finds, List.map_cons, findScan_expired_head (by rwa [List.length_map]) hp, List.head?_cons, hrun, h.next_eq]
  split
  case isTrue => exact ⟨_, rest, rfl, hlinked₂, hcounts₂.withBase _, rfl⟩
  case isFalse =>
    cases rest with
    | nil => exact ⟨_, [], rfl, hlinked₂, hcounts₂.withBase _, rfl⟩
    | cons q rest =>
      have hq : cells.Live q := hlinked₂.live q List.mem_cons_self
      have hpassed : Linked { s₁ with cells } ([q].reverse ++ rest) := hlinked₂
      have hfirst : Linked { s₁ with cells } ([] ++ q :: rest) := hlinked₂
      have hnext : ({ s₁ with cells } : CacheHeap).next q = rest.head? := hfirst.next_eq
      obtain ⟨s', ys, hfind, hrep⟩ := ih hpassed hcounts₂ (Nat.lt_of_succ_lt hn)
      refine ⟨s', ys, ?_, hrep⟩
      show (if cells.Live q then findLoop path now n { s₁ with cells } (s.next q) (some q) else none) = _
      rw [if_pos hq, hnext]
      exact hfind

lemma finds_expired
    (ih : ∀ {s c seen rest}, Linked s (seen.reverse ++ rest) → Counts s c → rest.length < n → Finds path now n s c seen rest)
    {a b : Nat} {older : List Nat} (h : Linked s ((a :: b :: older).reverse ++ p :: rest)) (hc : Counts s c)
    (hn : rest.length < n) (hp : (s.entry p).expired now) : Finds path now (n + 1) s c (a :: b :: older) (p :: rest) := by
  let s₁ : CacheHeap := { s with expired := s.expired + 1 }
  have hsplit (xs : List Nat) : (a :: b :: older).reverse ++ xs = (b :: older).reverse ++ a :: xs := by
    rw [List.reverse_cons, List.append_assoc]
    rfl
  have hlinked₁ : Linked s₁ ((b :: older).reverse ++ a :: p :: rest) := hsplit _ ▸ ⟨h.chain, h.live⟩
  obtain ⟨hskip, hlinked₂⟩ := hlinked₁.skip
  have hnot : p ∉ (b :: older).reverse ++ a :: rest := by
    rw [← hsplit]
    exact List.not_mem_append h.not_mem.1 h.not_mem.2
  let s₂ : CacheHeap := { s₁ with next := Function.update s.next a (s.next p) }
  obtain ⟨cells, hfree, hlinked₃⟩ := Linked.free (s := s₂) hlinked₂ h.live_mid hnot
  have hcounts₃ : Counts { s₂ with cells } c.countExpired := ⟨hc.hits, congrArg (· + 1) hc.expired, hc.forceRemoved⟩
  have hbase : ¬ some a = s.base := fun hbase =>
    absurd ((previous_eq_base_iff h).mp hbase) (Nat.not_le.mpr (Nat.lt_of_sub_pos (Nat.succ_pos _)))
  have hrun : findLoop path now (n + 1) s (some p) (some a) =
      if (s.entry a).dirname = path then some ((s.entry a).did, { s₂ with cells, hits := s.hits + 1 })
      else findLoop path now n { s₂ with cells } (s₂.next a) (some a) := by
    rw [findLoop, if_pos h.live_mid, if_pos hp, if_neg hbase]
    show (s₁.skip a p).bind _ = _
    rw [hskip, Option.bind_some]
    show (s₂.free (some p)).bind _ = _
    rw [hfree, Option.bind_some]
    rfl
  have hscan : findScan path now c ((a :: b :: older).map s.entry) ((p :: rest).map s.entry) =
      if (s.entry a).dirname = path then
        ((s.entry a).did, { c.countExpired with
          base := ((a :: b :: older).map s.entry).reverse ++ rest.map s.entry, hits := c.hits + 1 })
      else findScan path now c.countExpired ((a :: b :: older).map s.entry) (rest.map s.entry) := if_pos hp
  rw [Finds, hscan, List.head?_cons]
  show ∃ s' ys, findLoop path now (n + 1) s (some p) (some a) = _ ∧ _
  rw [hrun]
  split
  case isTrue =>
    refine ⟨_, _, rfl, ⟨hlinked₃.chain, hlinked₃.live⟩, ⟨congrArg (· + 1) hc.hits, hcounts₃.expired, hcounts₃.forceRemoved⟩, ?_⟩
    show ((b :: older).reverse ++ a :: rest).map s.entry = _
    rw [← hsplit, List.map_append, List.map_reverse]
  case isFalse =>
    have hnext : s₂.next a = rest.head? := hlinked₃.next_eq
    rw [← hsplit] at hlinked₃
    rw [hnext]
    exact ih hlinked₃ hcounts₃ hn

lemma findLoop_finds (h : Linked s (seen.reverse ++ rest)) (hc : Counts s c) (hn : rest.length < n) :
    Finds path now n s c seen rest := by
  induction n generalizing s c seen rest with
  | zero => exact absurd hn (Nat.not_lt_zero _)
  | succ n ih =>
    cases rest with
    | nil =>
      refine ⟨s, seen.reverse, rfl, (List.append_nil seen.reverse ▸ h), hc.withBase _, ?_⟩
      exact List.map_reverse
    | cons p rest =>
      have hn := Nat.lt_of_succ_lt_succ hn
      by_cases hp : (s.entry p).expired now
      · match seen, h with
        | [], h => exact finds_expired_head ih h hc hn hp (Nat.zero_le 1)
        | [a], h => exact finds_expired_head ih h hc hn hp (Nat.le_refl 1)
        | a :: b :: older, h => exact finds_expired ih h hc hn hp
      · -- the entry stays
        rw [Finds, List.map_cons, findScan_kept hp, List.head?_cons, findLoop, if_pos h.live_mid, if_neg hp]
        split
        case isTrue =>
          refine ⟨_, _, rfl, ⟨h.chain, h.live⟩, ⟨congrArg (· + 1) hc.hits, hc.expired, hc.forceRemoved⟩, ?_⟩
          show (seen.reverse ++ p :: rest).map s.entry = _
          rw [List.map_append, List.map_reverse]
          rfl
        case isFalse =>
          have hpassed : Linked s ((p :: seen).reverse ++ rest) := by
            rw [List.reverse_cons, List.append_assoc]
            exact h
          rw [h.next_eq]
          exact ih hpassed hc hn

lemma freeLoop_chain {d : Option Nat} (h : Chain s.next d xs) (hlive : ∀ a ∈ xs, s.cells.Live a) (hn : xs.length < n) :
    ∃ cells, freeLoop n s d d = some { s with cells } ∧ cells.freed = xs.reverse ++ s.cells.freed := by
  induction xs generalizing s d n with
  | nil =>
    obtain ⟨n, rfl⟩ := Nat.exists_eq_add_of_lt hn
    cases h
    exact ⟨s.cells, rfl, rfl⟩
  | cons a xs ih =>
    obtain ⟨n, rfl⟩ := Nat.exists_eq_add_of_le' (Nat.zero_lt_of_lt hn)
    have hnot := (List.nodup_cons.mp h.nodup).1
    cases h with
    | cons h =>
      have ha := hlive a List.mem_cons_self
      obtain ⟨cells, hfree, -, hfreed, hothers⟩ := ha.free
      have hrest : ∀ b ∈ xs, cells.Live b := fun b hb =>
        hothers b (ne_of_mem_of_not_mem hb hnot) (hlive b (List.mem_cons_of_mem _ hb))
      obtain ⟨cells', hloop, hfreed'⟩ := ih (s := { s with cells }) h hrest (Nat.lt_of_succ_lt_succ hn)
      refine ⟨cells', ?_, ?_⟩
      · rw [freeLoop, if_pos ha]
        show ((s.cells.free a).map fun cells => { s with cells }).bind _ = _
        rw [hfree]
        exact hloop
      · rw [hfreed', hfreed, List.reverse_cons, List.append_assoc]
        rfl

end Operations

/-- The list of `Did.Cache` after a call; the clock says the time of the call. -/
def DidCache.perform (c : DidCache) : CacheCall → DidCache
  | .add memory did path now => if memory then addDidCacheEntry (fun _ => now) c did path else c
  | .find path now => (findDiridByFullname (fun _ => now) c path).2
  | .remove name => removeDidEntry c name
  | .freeEntire => c

def FreesEmpty (s : CacheHeap) (call : CacheCall) : Prop := call = .freeEntire → s.base = none

section Runs
variable {s : CacheHeap} {c : DidCache} {xs : List Nat}

lemma Represents.rounds (h : Represents s c xs) : xs.length < s.cells.made + 1 :=
  Nat.lt_succ_of_le (h.chain.length_le fun a ha => (h.live a ha).1)

lemma Represents.find (h : Represents s c xs) (path : Bytes) (now : Nat) :
    ∃ s' ys, s.findDiridByFullname path now = some ((findDiridByFullname (fun _ => now) c path).1, s') ∧
      Represents s' (findDiridByFullname (fun _ => now) c path).2 ys := by
  have hcounts : Counts s { c with readings := c.readings + 1 } := ⟨h.hits, h.expired, h.forceRemoved⟩
  have hfinds : Finds path now (s.cells.made + 1) s { c with readings := c.readings + 1 } [] xs :=
    findLoop_finds h.toLinked hcounts h.rounds
  obtain ⟨s', ys, hfind, hrep⟩ := hfinds
  rw [h.entries] at hfind hrep
  rw [← Chain.eq_head? h.chain] at hfind
  exact ⟨s', ys, hfind, hrep⟩

lemma Represents.perform (h : Represents s c xs) {call : CacheCall} (hok : FreesEmpty s call) :
    ∃ s' ys, s.perform call = some s' ∧ Represents s' (c.perform call) ys := by
  have hbase := Chain.eq_head? h.chain
  cases call with
  | add memory did path now =>
    obtain ⟨ys, hys⟩ := h.add memory did path now
    exact ⟨_, ys, rfl, hys⟩
  | find path now =>
    obtain ⟨s', ys, hfind, hrep⟩ := h.find path now
    refine ⟨s', ys, ?_, hrep⟩
    rw [CacheHeap.perform, hfind]
    rfl
  | remove name =>
    have hnil : Represents s c (([] : List Nat).reverse ++ xs) := h
    obtain ⟨s', ys, hremove, hrep⟩ := removeLoop_represents hnil nofun h.rounds
    refine ⟨s', ys, ?_, hrep⟩
    rw [CacheHeap.perform, CacheHeap.removeDidEntry, hbase]
    exact hremove
  | freeEntire =>
    refine ⟨s, xs, ?_, h⟩
    rw [CacheHeap.perform, CacheHeap.freeEntireDidCache, hok rfl]
    rfl

/-- Freeing a list that is not empty leaves its head pointing to a freed node. -/
lemma Represents.freeEntire_dangles (h : Represents s c xs) {a : Nat} (hbase : s.base = some a) :
    ∃ s', s.freeEntireDidCache = some s' ∧ s'.base = some a ∧ ¬ s'.cells.Live a := by
  obtain ⟨cells, hfree, hfreed⟩ := freeLoop_chain h.chain h.live h.rounds
  refine ⟨{ s with cells }, hfree, hbase, fun hlive => hlive.2 ?_⟩
  have hhead : xs.head? = some a := (Chain.eq_head? h.chain).symm.trans hbase
  show a ∈ cells.freed
  rw [hfreed]
  exact List.mem_append_left _ (List.mem_reverse.mpr (List.mem_of_head? hhead))

/-- The volume's list does not point to freed nodes, and no call will touch one. -/
structure NoDangling (s : CacheHeap) : Prop where
  reachable : ∀ a, Reaches s.next s.base a → s.cells.Live a
  touched : ∀ call, FreesEmpty s call → (s.perform call).isSome
  freed_once : s.cells.freed.Nodup

lemma Represents.noDangling (h : Represents s c xs) : NoDangling s := by
  refine ⟨fun a ha => h.live a (h.chain.mem_of_reaches ha), ?_, s.cells.freed_nodup⟩
  intro call hok
  obtain ⟨s', ys, hperform, -⟩ := h.perform hok
  rw [hperform, Option.isSome_some]

end Runs

def CallStep (s : CacheHeap) (call : CacheCall) (s' : CacheHeap) : Prop := s.perform call = some s'

lemma run_represents {calls : List CacheCall} {s : CacheHeap} (hrun : Run CallStep FreesEmpty .new calls s) :
    ∃ c xs, Represents s c xs := by
  have hnew : Represents .new .empty [] := ⟨⟨.nil, List.forall_mem_nil _⟩, ⟨rfl, rfl, rfl⟩, rfl⟩
  refine hrun.inv (I := fun s => ∃ c xs, Represents s c xs) ?_ ⟨_, _, hnew⟩
  rintro s call s' ⟨c, xs, h⟩ hok hstep
  obtain ⟨t, ys, hperform, hrep⟩ := h.perform hok
  cases hperform.symm.trans hstep
  exact ⟨_, ys, hrep⟩

/-- In every run in which there is nothing to free at each unmount, the cache does not point to freed memory. -/
theorem did_cache_no_dangling {calls : List CacheCall} {s : CacheHeap} (hrun : Run CallStep FreesEmpty .new calls s) :
    NoDangling s := by
  obtain ⟨c, xs, h⟩ := run_represents hrun
  exact h.noDangling

theorem did_cache_no_dangling_emptied :
    ∃ s, Run CallStep FreesEmpty .new
        [.add true 16 [97] 0, .find [97] 5, .remove [97], .freeEntire, .add true 17 [98] 6] s ∧ NoDangling s := by
  have hrun : Run CallStep FreesEmpty .new
      [.add true 16 [97] 0, .find [97] 5, .remove [97], .freeEntire, .add true 17 [98] 6] _ :=
    .cons nofun rfl <| .cons nofun rfl <| .cons nofun rfl <| .cons (fun _ => rfl) rfl <| .cons nofun rfl <| .nil _
  exact ⟨_, hrun, did_cache_no_dangling hrun⟩

/-- A directory is added, and the volume unmounted: the list points to the freed node, and a lookup reads it. A second
unmount frees it again. -/
theorem unmount_leaves_dangling_base :
    ∃ s, (CacheHeap.new.perform (.add true 16 [97] 0)).bind (·.perform .freeEntire) = some s ∧ s.base = some 0 ∧
      ¬ s.cells.Live 0 ∧ s.perform (.find [97] 5) = none ∧ s.perform .freeEntire = none :=
  ⟨_, rfl, rfl, by decide, rfl, rfl⟩

end AfpfsNg.Did
