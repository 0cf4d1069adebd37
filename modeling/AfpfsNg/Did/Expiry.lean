import AfpfsNg.Did.Nodes

/-!
# Lookups and expiry

New entries go to the head of the list. Under a clock that never goes back the times therefore never increase along it, and
at each moment the entries that have not expired come first. A lookup passes these one by one; from then on it only takes out
expired entries. Behind two entries or more each expired one is taken out and counted. At the head, and right behind the
first entry, the list is set behind the expired one. That loses what was before it, and the entry after it is not looked at.
-/

namespace AfpfsNg.Did
open AfpfsNg.Base

def NewestFirst (l : List DidCacheEntry) : Prop := l.Pairwise fun a b => b.time ≤ a.time

def unexpired (now : Nat) (l : List DidCacheEntry) : List DidCacheEntry := l.filter fun e => ¬ e.expired now

def firstFresh (path : Bytes) (now : Nat) (l : List DidCacheEntry) : Option DidCacheEntry :=
  l.find? fun e => e.dirname = path ∧ ¬ e.expired now

/-- A lookup takes out nothing but expired entries: a fresh one has the name, or there are two of these or nothing else, or
all have expired and there are two at most or the first has the name. -/
def Spared (path : Bytes) (now : Nat) (l : List DidCacheEntry) : Prop :=
  (∃ e ∈ unexpired now l, e.dirname = path) ∨ 2 ≤ (unexpired now l).length ∨ unexpired now l = l ∨
    unexpired now l = [] ∧ (l.length ≤ 2 ∨ ∃ e, l.head? = some e ∧ e.dirname = path)

variable {path : Bytes} {now : Nat} {c : DidCache} {seen fs es l : List DidCacheEntry}

lemma fresh_then_expired (h : NewestFirst l) (now : Nat) :
    ∃ fs es, l = fs ++ es ∧ (∀ e ∈ fs, ¬ e.expired now) ∧ ∀ e ∈ es, e.expired now := by
  induction l with
  | nil => exact ⟨[], [], rfl, nofun, nofun⟩
  | cons x l ih =>
    obtain ⟨hx, hl⟩ := List.pairwise_cons.mp h
    by_cases hexp : x.expired now
    · -- what is behind it is older
      refine ⟨[], x :: l, rfl, nofun, List.forall_mem_cons.mpr ⟨hexp, fun e he => ?_⟩⟩
      have hle := hx e he
      simp only [DidCacheEntry.expired, decide_eq_true_eq] at hexp ⊢
      omega
    · obtain ⟨fs, es, rfl, hfs, hes⟩ := ih hl
      exact ⟨x :: fs, es, rfl, List.forall_mem_cons.mpr ⟨hexp, hfs⟩, hes⟩

lemma unexpired_append (hfs : ∀ e ∈ fs, ¬ e.expired now) (hes : ∀ e ∈ es, e.expired now) :
    unexpired now (fs ++ es) = fs := by
  have hkept : fs.filter (fun e => ¬ e.expired now) = fs := List.filter_eq_self.mpr fun e he => by simpa using hfs e he
  have hgone : es.filter (fun e => ¬ e.expired now) = [] := List.filter_eq_nil_iff.mpr fun e he => by simpa using hes e he
  rw [unexpired, List.filter_append, hkept, hgone, List.append_nil]

lemma findScan_fresh_found {older newer : List DidCacheEntry} {e : DidCacheEntry} (hes : ∀ x ∈ newer, ¬ x.expired now)
    (hne : ∀ x ∈ newer, x.dirname ≠ path) (he : ¬ e.expired now) (hname : e.dirname = path) :
    findScan path now c seen (newer ++ e :: older) =
      (e.did, { c with base := seen.reverse ++ (newer ++ e :: older), hits := c.hits + 1 }) := by
  induction newer generalizing seen with
  | nil => exact (findScan_kept he).trans (if_pos hname)
  | cons x newer ih =>
    obtain ⟨hx, hes⟩ := List.forall_mem_cons.mp hes
    obtain ⟨hxne, hne⟩ := List.forall_mem_cons.mp hne
    rw [List.cons_append, findScan_kept hx, if_neg hxne, ih hes hne, List.reverse_cons, List.append_assoc]
    rfl

lemma findScan_fresh_keeps (hfs : ∀ e ∈ fs, ¬ e.expired now) (hname : ∃ e ∈ fs, e.dirname = path) :
    (findScan path now c [] (fs ++ es)).2 = { c with base := fs ++ es, hits := c.hits + 1 } := by
  cases hfind : fs.find? (·.dirname = path) with
  | none =>
    obtain ⟨e, he, heq⟩ := hname
    exact absurd heq (by simpa using List.find?_eq_none.mp hfind e he)
  | some e =>
    obtain ⟨heq, newer, older, rfl, hnewer⟩ := List.find?_eq_some_iff_append.mp hfind
    obtain ⟨hfresh, hfs⟩ := List.forall_mem_append.mp hfs
    have hne : ∀ x ∈ newer, x.dirname ≠ path := fun x hx => by simpa using hnewer x hx
    rw [List.append_assoc, List.cons_append,
      findScan_fresh_found hfresh hne (List.forall_mem_cons.mp hfs).1 (by simpa using heq)]
    rfl

lemma findScan_fresh_passed (hfs : ∀ e ∈ fs, ¬ e.expired now) (hne : ∀ e ∈ fs, e.dirname ≠ path) :
    findScan path now c seen (fs ++ es) = findScan path now c (fs.reverse ++ seen) es := by
  induction fs generalizing seen with
  | nil => rfl
  | cons x fs ih =>
    obtain ⟨hx, hfs⟩ := List.forall_mem_cons.mp hfs
    obtain ⟨hxne, hne⟩ := List.forall_mem_cons.mp hne
    rw [List.cons_append, findScan_kept hx, if_neg hxne, ih hfs hne, List.reverse_cons, List.append_assoc]
    rfl

lemma findScan_expired_behind {a b : DidCacheEntry} (ha : a.dirname ≠ path) (hes : ∀ e ∈ es, e.expired now) :
    findScan path now c (a :: b :: seen) es =
      (0, { c with base := (a :: b :: seen).reverse, expired := c.expired + es.length }) := by
  induction es generalizing c with
  | nil => rfl
  | cons x es ih =>
    obtain ⟨hx, hes⟩ := List.forall_mem_cons.mp hes
    rw [findScan, if_pos hx]
    simp only [if_neg ha]
    rw [ih hes, List.length_cons, Nat.add_comm es.length, ← Nat.add_assoc]
    rfl

lemma findScan_two_fresh {x y : DidCacheEntry} (hfs : ∀ e ∈ x :: y :: fs, ¬ e.expired now)
    (hne : ∀ e ∈ x :: y :: fs, e.dirname ≠ path) (hes : ∀ e ∈ es, e.expired now) :
    findScan path now c [] (x :: y :: fs ++ es) =
      (0, { c with base := x :: y :: fs, expired := c.expired + es.length }) := by
  rw [findScan_fresh_passed hfs hne, List.append_nil]
  match hrev : (x :: y :: fs).reverse with
  | [] | [_] =>
    have hlen := congrArg List.length hrev
    simp at hlen
  | a :: b :: older =>
    have hmem : a ∈ x :: y :: fs := by
      rw [← List.mem_reverse, hrev]
      exact List.mem_cons_self
    rw [findScan_expired_behind (hne a hmem) hes, ← hrev, List.reverse_reverse]

lemma findScan_expired_zero (hseen : ∀ prev x older, seen = prev :: x :: older → prev.dirname ≠ path)
    (hes : ∀ e ∈ es, e.expired now) : (findScan path now c seen es).1 = 0 := by
  by_contra hfound
  obtain ⟨e, he, hexp, -⟩ := findScan_found hseen hfound
  rw [hes e he] at hexp
  cases hexp

lemma findScan_counted_le :
    (findScan path now c seen es).2.expired + (findScan path now c seen es).2.base.length ≤
      c.expired + (seen.length + es.length) := by
  fun_induction findScan path now c seen es with
  | case1 => simp
  | case2 => simp [DidCache.countExpired]; omega
  | case3 c p rest _ prev x older _ ih => simp [DidCache.countExpired] at ih ⊢; omega
  | case4 => simp [DidCache.countExpired]; omega
  | case5 => simp [DidCache.countExpired]
  | case6 c seen p _ _ q rest _ ih => simp [DidCache.countExpired] at ih ⊢; omega
  | case7 => simp
  | case8 c seen p rest _ _ ih => simp at ih ⊢; omega

lemma findScan_counted_lt {q p : DidCacheEntry} (hp : p.expired now) :
    (findScan path now c [q] (p :: es)).2.expired + (findScan path now c [q] (p :: es)).2.base.length <
      c.expired + (es.length + 2) := by
  have hhead : [q].length ≤ 1 := Nat.le_refl 1
  rw [findScan_expired_head hhead hp]
  split
  · show c.expired + 1 + es.length < _
    omega
  · cases es with
    | nil =>
      show c.expired + 1 + 0 < _
      omega
    | cons x es =>
      have hle := @findScan_counted_le path now c.countExpired [x] es
      simp only [DidCache.countExpired, List.length_singleton] at hle
      simp only [DidCache.countExpired, List.length_cons]
      omega

lemma NewestFirst.fresh_before {newer older : List DidCacheEntry} {e : DidCacheEntry}
    (h : NewestFirst (newer ++ e :: older)) (he : ¬ e.expired now) : ∀ x ∈ newer, ¬ x.expired now := by
  intro x hx
  have hle := (List.pairwise_append.mp h).2.2 x hx e List.mem_cons_self
  simp only [DidCacheEntry.expired, decide_eq_true_eq] at he ⊢
  omega

lemma findScan_exact (h : NewestFirst l) :
    (findScan path now c [] l).1 = ((firstFresh path now l).map DidCacheEntry.did).getD 0 := by
  cases hfirst : firstFresh path now l with
  | some e =>
    obtain ⟨he, newer, older, rfl, hnewer⟩ := List.find?_eq_some_iff_append.mp hfirst
    have hname : e.dirname = path ∧ ¬ e.expired now := by simpa using he
    have hfresh := h.fresh_before hname.2
    have hne : ∀ x ∈ newer, x.dirname ≠ path := by
      intro x hx heq
      exact absurd (hnewer x hx) (by simpa [heq] using hfresh x hx)
    rw [findScan_fresh_found hfresh hne hname.2 hname.1]
    rfl
  | none =>
    obtain ⟨fs, es, rfl, hfs, hes⟩ := fresh_then_expired h now
    have hne : ∀ e ∈ fs, e.dirname ≠ path := by
      intro e he heq
      have hnot := List.find?_eq_none.mp hfirst e (List.mem_append_left es he)
      exact hfs e he (by simpa [heq] using hnot)
    rw [findScan_fresh_passed hfs hne]
    refine findScan_expired_zero (fun prev x older heq => hne prev ?_) hes
    rw [List.append_nil] at heq
    exact List.mem_reverse.mp (heq ▸ List.mem_cons_self)

/-- A lookup takes nothing out but expired entries, and counts them. -/
structure Expires (now : Nat) (c c' : DidCache) : Prop where
  kept : (unexpired now c.base).Sublist c'.base
  counted : c'.expired + c'.base.length = c.expired + c.base.length

lemma findScan_all_expired_iff (hes : ∀ e ∈ es, e.expired now) :
    (findScan path now c [] es).2.expired + (findScan path now c [] es).2.base.length = c.expired + es.length ↔
      es.length ≤ 2 ∨ ∃ e, es.head? = some e ∧ e.dirname = path := by
  match es, hes with
  | [], _ => exact iff_of_true rfl (.inl (Nat.zero_le 2))
  | p :: rest, hes =>
    obtain ⟨hp, hrest⟩ := List.forall_mem_cons.mp hes
    have hhead : ([] : List DidCacheEntry).length ≤ 1 := Nat.zero_le 1
    rw [findScan_expired_head hhead hp]
    by_cases hname : p.dirname = path
    · rw [if_pos hname]
      refine iff_of_true ?_ (.inr ⟨p, rfl, hname⟩)
      show c.expired + 1 + rest.length = c.expired + (rest.length + 1)
      omega
    · rw [if_neg hname]
      match rest, hrest with
      | [], _ => exact iff_of_true rfl (.inl (Nat.le_succ 1))
      | [_], _ => exact iff_of_true rfl (.inl (Nat.le_refl 2))
      | q :: z :: rest, hrest =>
        have hz : z.expired now := hrest z (List.mem_cons_of_mem q List.mem_cons_self)
        have hlt := @findScan_counted_lt path now c.countExpired rest q z hz
        refine iff_of_false (fun heq => ?_) ?_
        · simp only [DidCache.countExpired, List.length_cons] at hlt heq
          omega
        · rintro (hlen | ⟨e, he, heq⟩)
          · simp only [List.length_cons] at hlen
            omega
          · cases he
            exact hname heq

lemma findScan_expires_iff {c₀ : DidCache} (h : NewestFirst c₀.base) (hcount : c.expired = c₀.expired) :
    Expires now c₀ (findScan path now c [] c₀.base).2 ↔ Spared path now c₀.base := by
  obtain ⟨fs, es, hbase, hfs, hes⟩ := fresh_then_expired h now
  have hfresh : unexpired now c₀.base = fs := by rw [hbase, unexpired_append hfs hes]
  rw [Spared, hfresh, hbase]
  by_cases hname : ∃ e ∈ fs, e.dirname = path
  · refine iff_of_true ⟨?_, ?_⟩ (.inl hname)
    · rw [findScan_fresh_keeps hfs hname, hfresh]
      exact List.sublist_append_left fs es
    · rw [findScan_fresh_keeps hfs hname, hbase, ← hcount]
  · have hne : ∀ e ∈ fs, e.dirname ≠ path := fun e he heq => hname ⟨e, he, heq⟩
    match fs, es, hes with
    | x :: y :: fs, es, hes =>
      refine iff_of_true ⟨?_, ?_⟩ (.inr (.inl (Nat.le_add_left 2 fs.length)))
      · rw [findScan_two_fresh hfs hne hes, hfresh]
      · rw [findScan_two_fresh hfs hne hes, hbase, ← hcount, List.length_append, Nat.add_assoc, Nat.add_comm es.length]
    | [x], [], _ =>
      have hpassed := @findScan_fresh_passed path now c [] [x] [] hfs hne
      refine iff_of_true ⟨?_, ?_⟩ (.inr (.inr (.inl rfl)))
      · rw [hpassed, hfresh]
        exact .refl _
      · rw [hpassed, hbase, ← hcount]
        rfl
    | [x], p :: es, hes =>
      -- the entry is lost with the one behind it
      have hlt := @findScan_counted_lt path now c es x p (List.forall_mem_cons.mp hes).1
      have hpassed := @findScan_fresh_passed path now c [] [x] (p :: es) hfs hne
      refine iff_of_false (fun hexp => ?_) ?_
      · have heq := hexp.counted
        rw [hpassed, hbase, ← hcount] at heq
        exact absurd heq (Nat.ne_of_lt hlt)
      · rintro (hsome | hlen | hall | ⟨hnil, -⟩)
        · exact hname hsome
        · exact absurd hlen (Nat.not_succ_le_self 1)
        · cases hall
        · cases hnil
    | [], es, hes =>
      have hcounted : Expires now c₀ (findScan path now c [] es).2 ↔
          (findScan path now c [] es).2.expired + (findScan path now c [] es).2.base.length = c.expired + es.length := by
        refine ⟨fun hexp => ?_, fun heq => ⟨?_, ?_⟩⟩
        · rw [hexp.counted, hbase, hcount]
          rfl
        · rw [hfresh]
          exact List.nil_sublist _
        · rw [heq, hbase, hcount]
          rfl
      rw [List.nil_append, hcounted, findScan_all_expired_iff hes]
      constructor
      · exact fun hspare => .inr (.inr (.inr ⟨rfl, hspare⟩))
      · rintro (⟨e, he, -⟩ | hlen | hall | ⟨-, hspare⟩)
        · cases he
        · exact absurd hlen (by decide)
        · exact .inl (hall ▸ Nat.zero_le 2)
        · exact hspare

def CacheCall.time : CacheCall → Option Nat
  | .add _ _ _ now => some now
  | .find _ now => some now
  | .remove _ | .freeEntire => none

/-- One call, and the time of the last one that looked at the clock. -/
def TimedStep (s : CacheHeap × Nat) (call : CacheCall) (s' : CacheHeap × Nat) : Prop :=
  CallStep s.1 call s'.1 ∧ s'.2 = call.time.getD s.2

/-- The clock has not gone back, and there is nothing to free when the volume is unmounted. -/
def Timely (s : CacheHeap × Nat) (call : CacheCall) : Prop := FreesEmpty s.1 call ∧ s.2 ≤ call.time.getD s.2

lemma run_timed {s s' : CacheHeap} {t : Nat} {call : CacheCall} {calls : List CacheCall} {st : CacheHeap × Nat}
    (hfree : FreesEmpty s call) (hle : t ≤ call.time.getD t) (hstep : s.perform call = some s')
    (hrest : Run TimedStep Timely (s', call.time.getD t) calls st) : Run TimedStep Timely (s, t) (call :: calls) st := by
  have hnext : TimedStep (s, t) call (s', call.time.getD t) := ⟨hstep, rfl⟩
  exact .cons ⟨hfree, hle⟩ hnext hrest

/-- The list was filled from its head, and nothing in it is newer than `t`. -/
structure Filled (t : Nat) (l : List DidCacheEntry) : Prop where
  newest_first : NewestFirst l
  past : ∀ e ∈ l, e.time ≤ t

lemma Filled.sublist {t : Nat} {l' : List DidCacheEntry} (h : Filled t l) (hsub : l'.Sublist l) : Filled t l' :=
  ⟨h.newest_first.sublist hsub, fun e he => h.past e (hsub.subset he)⟩

lemma Filled.perform {t : Nat} {call : CacheCall} (h : Filled t c.base) (hle : t ≤ call.time.getD t) :
    Filled (call.time.getD t) (c.perform call).base := by
  cases call with
  | add memory did path now =>
    have hle : t ≤ now := hle
    have hpast : ∀ e ∈ c.base, e.time ≤ now := fun e he => Nat.le_trans (h.past e he) hle
    cases memory with
    | false => exact ⟨h.newest_first, hpast⟩
    | true =>
      exact ⟨List.pairwise_cons.mpr ⟨hpast, h.newest_first⟩, List.forall_mem_cons.mpr ⟨Nat.le_refl now, hpast⟩⟩
  | find path now =>
    have hsub : ((findDiridByFullname (fun _ => now) c path).2.base).Sublist c.base := findScan_sublist
    exact Filled.sublist ⟨h.newest_first, fun e he => Nat.le_trans (h.past e he) hle⟩ hsub
  | remove name =>
    show Filled t (removeDidEntry c name).base
    rw [removeDidEntry_base]
    exact h.sublist List.eraseP_sublist
  | freeEntire => exact h

lemma run_filled {calls : List CacheCall} {s : CacheHeap} {t : Nat} (hrun : Run TimedStep Timely (.new, 0) calls (s, t)) :
    ∃ c xs, Represents s c xs ∧ Filled t c.base := by
  have hnew : Represents .new .empty [] := ⟨⟨.nil, List.forall_mem_nil _⟩, ⟨rfl, rfl, rfl⟩, rfl⟩
  have hempty : Filled 0 DidCache.empty.base := ⟨.nil, List.forall_mem_nil _⟩
  refine hrun.inv (I := fun st => ∃ c xs, Represents st.1 c xs ∧ Filled st.2 c.base) ?_ ⟨_, _, hnew, hempty⟩
  rintro ⟨s, t⟩ call ⟨s', t'⟩ ⟨c, xs, h, hfilled⟩ ⟨hfree, hle⟩ ⟨hstep, htime⟩
  obtain ⟨u, ys, hperform, hrep⟩ := h.perform hfree
  cases hperform.symm.trans hstep
  cases htime
  exact ⟨_, ys, hrep, hfilled.perform hle⟩

/-- A lookup returns the id of the first entry of that name that has not expired, and 0 if there is none, whatever it takes
out on its way. -/
theorem lookup_exact {calls : List CacheCall} {s : CacheHeap} {t : Nat}
    (hrun : Run TimedStep Timely (.new, 0) calls (s, t)) (path : Bytes) (now : Nat) :
    ∃ xs s', Chain s.next s.base xs ∧
      s.findDiridByFullname path now =
        some (((firstFresh path now (xs.map s.entry)).map DidCacheEntry.did).getD 0, s') := by
  obtain ⟨c, xs, h, hfilled⟩ := run_filled hrun
  obtain ⟨s', ys, hfind, -⟩ := h.find path now
  refine ⟨xs, s', h.chain, ?_⟩
  rw [hfind, h.entries, findDiridByFullname, findScan_exact hfilled.newest_first]

theorem lookup_exact_three_entries :
    ∃ s, Run TimedStep Timely (.new, 0)
        [.add true 16 [97] 0, .add true 17 [97] 1, .find [99] 2, .add true 18 [98] 8, .add true 19 [97] 9] (s, 9) ∧
      ∃ xs s', Chain s.next s.base xs ∧ s.findDiridByFullname [97] 12 =
        some (((firstFresh [97] 12 (xs.map s.entry)).map DidCacheEntry.did).getD 0, s') := by
  have hrun : Run TimedStep Timely (.new, 0)
      [.add true 16 [97] 0, .add true 17 [97] 1, .find [99] 2, .add true 18 [98] 8, .add true 19 [97] 9] (_, 9) :=
    run_timed nofun (by decide) rfl <| run_timed nofun (by decide) rfl <| run_timed nofun (by decide) rfl <|
    run_timed nofun (by decide) rfl <| run_timed nofun (by decide) rfl <| .nil _
  exact ⟨_, hrun, lookup_exact hrun [97] 12⟩

/-- The list from `xs` to `xs'` has lost only expired entries, which were counted. -/
structure OnlyExpired (now : Nat) (s : CacheHeap) (xs : List Nat) (s' : CacheHeap) (xs' : List Nat) : Prop where
  kept : (unexpired now (xs.map s.entry)).Sublist (xs'.map s'.entry)
  counted : s'.expired + xs'.length = s.expired + xs.length

lemma onlyExpired_iff {s s' : CacheHeap} {c' : DidCache} {xs xs' : List Nat} (h : Represents s c xs)
    (h' : Represents s' c' xs') : OnlyExpired now s xs s' xs' ↔ Expires now c c' := by
  have hlen : xs.length = c.base.length := by rw [← h.entries, List.length_map]
  have hlen' : xs'.length = c'.base.length := by rw [← h'.entries, List.length_map]
  constructor
  · rintro ⟨hkept, hcounted⟩
    rw [h.entries, h'.entries] at hkept
    rw [h.expired, h'.expired, hlen, hlen'] at hcounted
    exact ⟨hkept, hcounted⟩
  · rintro ⟨hkept, hcounted⟩
    rw [← h.entries, ← h'.entries] at hkept
    rw [← h.expired, ← h'.expired, ← hlen, ← hlen'] at hcounted
    exact ⟨hkept, hcounted⟩

/-- A lookup takes out only expired entries, and counts them, exactly if the list is spared. -/
theorem only_expired_iff {calls : List CacheCall} {s : CacheHeap} {t : Nat}
    (hrun : Run TimedStep Timely (.new, 0) calls (s, t)) (path : Bytes) (now : Nat) :
    ∃ xs did s' xs', Chain s.next s.base xs ∧ s.findDiridByFullname path now = some (did, s') ∧
      Chain s'.next s'.base xs' ∧ (OnlyExpired now s xs s' xs' ↔ Spared path now (xs.map s.entry)) := by
  obtain ⟨c, xs, h, hfilled⟩ := run_filled hrun
  obtain ⟨s', ys, hfind, h'⟩ := h.find path now
  refine ⟨xs, _, s', ys, h.chain, hfind, h'.chain, ?_⟩
  rw [onlyExpired_iff h h', h.entries]
  exact findScan_expires_iff hfilled.newest_first rfl

theorem only_expired_iff_two_fresh :
    ∃ s, Run TimedStep Timely (.new, 0) [.add true 16 [97] 0, .add true 17 [98] 8, .add true 18 [99] 9] (s, 9) ∧
      ∃ xs did s' xs', Chain s.next s.base xs ∧ s.findDiridByFullname [97] 12 = some (did, s') ∧
        Chain s'.next s'.base xs' ∧ (OnlyExpired 12 s xs s' xs' ↔ Spared [97] 12 (xs.map s.entry)) := by
  have hrun : Run TimedStep Timely (.new, 0)
      [.add true 16 [97] 0, .add true 17 [98] 8, .add true 18 [99] 9] (_, 9) :=
    run_timed nofun (by decide) rfl <| run_timed nofun (by decide) rfl <| run_timed nofun (by decide) rfl <| .nil _
  exact ⟨_, hrun, only_expired_iff hrun [97] 12⟩

/-- Two directories are added, five seconds apart. When the older one has expired, a lookup loses both, and counts one. -/
theorem lookup_loses_fresh_entry :
    ∃ s s', (CacheHeap.new.perform (.add true 16 [97] 0)).bind (·.perform (.add true 17 [98] 5)) = some s ∧
      Chain s.next s.base [1, 0] ∧ ¬ (s.entry 1).expired 12 ∧
      s.findDiridByFullname [99] 12 = some (0, s') ∧ Chain s'.next s'.base [] ∧ s'.expired = s.expired + 1 :=
  ⟨_, _, rfl, .cons (.cons (.nil none)), by decide, rfl, .nil, rfl⟩

end AfpfsNg.Did
