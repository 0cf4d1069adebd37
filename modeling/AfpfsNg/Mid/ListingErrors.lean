import AfpfsNg.Base.Loops
import AfpfsNg.Dsi.Send
import AfpfsNg.Mid.Listing

/-!
# Errors of a listing

The loop of `ll_readdir` as rounds (`readdirTurn`), with the result of one request each. The `switch` has no default, so a
code that is not listed makes the loop ask again, and so does an answer without entries. For `kFPDirNotFound` the loop ends
by its flag, and behind it the `errno` is forgotten.
-/

namespace AfpfsNg.Mid
open AfpfsNg.Base AfpfsNg.Afp AfpfsNg.Did AfpfsNg.Fork AfpfsNg.Proto

structure Listing (σ : Type) where
  state : State σ
  filebase : Option Nat
  last : Option Nat
  startindex : Nat

section Rounds
variable {σ : Type} (S : Station σ) (m : Mount) (dirid : Nat) (basename : Bytes) (resource : Bool)

/-- The request of a round: its result, `base`, and the state then. -/
def enumerated (s : Listing σ) : Except Fault ((Int × Option Nat) × State σ) :=
  afpEnumerate S m dirid (readdirFilebitmap m resource) (readdirDirbitmap m) s.startindex basename s.state

/-- A round of the loop of `ll_readdir`. A list that comes is followed for at most `nodes` nodes. -/
def readdirTurn (nodes : Nat) (s : Listing σ) : Except Fault (Turn ((Int × Option Nat) × State σ) (Listing σ)) :=
  match enumerated S m dirid basename resource s with
  | .error f => .error f
  | .ok ((rc, base), k) =>
    if rc = kFPNoErr ∨ rc = kFPObjectNotFound then
      match hang s.filebase s.last base k with
      | .error f => .error f
      | .ok (filebase, k) =>
        match countNodes k.heap.next (nodes + 1) base s.startindex s.last with
        | none => .error .outOfFuel
        | some (startindex, last) =>
          if rc = kFPObjectNotFound then .ok (.ends ((0, filebase), k)) else .ok (.again ⟨k, filebase, last, startindex⟩)
    else if rc = kFPDirNotFound then .ok (.ends ((0, s.filebase), k))
    else
      let ret := switch readdirErrors 0 rc
      if ret ≠ 0 then .ok (.ends ((ret, s.filebase), k)) else .ok (.again ⟨k, s.filebase, s.last, s.startindex⟩)

end Rounds

lemma countNodes_mono {next : Nat → Option Nat} {p last : Option Nat} {n n' i : Nat} {r : Nat × Option Nat}
    (h : countNodes next n p i last = some r) (hle : n ≤ n') : countNodes next n' p i last = some r := by
  induction n generalizing n' p i last with
  | zero => cases h
  | succ n ih =>
    obtain ⟨n', rfl⟩ : ∃ x, n' = x + 1 := ⟨n' - 1, by omega⟩
    cases p with
    | none => exact h
    | some p =>
      rw [countNodes] at h ⊢
      exact ih h (by omega)

lemma countNodes_last {next : Nat → Option Nat} {p last last' : Option Nat} {n i i' : Nat}
    (h : countNodes next n p i last = some (i', last')) (hsome : p ≠ none ∨ last ≠ none) : last' ≠ none := by
  induction n generalizing p i last with
  | zero => cases h
  | succ n ih =>
    cases p with
    | none =>
      cases h
      exact hsome.resolve_left (not_not.mpr rfl)
    | some p =>
      rw [countNodes] at h
      exact ih h (.inr (Option.some_ne_none p))

section Loop
variable {σ : Type} {S : Station σ} {m : Mount} {dirid : Nat} {basename : Bytes} {resource : Bool}
  {s t : Listing σ} {r : (Int × Option Nat) × State σ} {nodes nodes' rounds : Nat}

lemma readdirLoop_turn (rounds : Nat) (s : Listing σ) :
    readdirLoop S m dirid basename resource (rounds + 1) s.filebase s.last s.startindex s.state =
      match readdirTurn S m dirid basename resource rounds s with
      | .error f => .error f
      | .ok (.ends r) => .ok r
      | .ok (.again t) => readdirLoop S m dirid basename resource rounds t.filebase t.last t.startindex t.state := by
  rw [readdirLoop, readdirTurn]
  cases hrun : enumerated S m dirid basename resource s with
  | error f => exact run_bind_error hrun
  | ok r =>
    obtain ⟨⟨rc, base⟩, k⟩ := r
    rw [enumerated] at hrun
    rw [run_bind_ok hrun]
    simp only
    by_cases hrc : rc = kFPNoErr ∨ rc = kFPObjectNotFound
    · rw [if_pos hrc, if_pos hrc]
      cases hhang : hang s.filebase s.last base k with
      | error f => exact run_bind_error hhang
      | ok r =>
        obtain ⟨filebase, k₁⟩ := r
        rw [run_bind_ok hhang, run_bind_ok rfl]
        simp only
        cases hcount : countNodes k₁.heap.next (rounds + 1) base s.startindex s.last with
        | none => rfl
        | some r =>
          obtain ⟨startindex, last⟩ := r
          simp only
          split
          · rfl
          · rfl
    · rw [if_neg hrc, if_neg hrc]
      by_cases hdir : rc = kFPDirNotFound
      · rw [if_pos hdir, if_pos hdir]
        rfl
      · rw [if_neg hdir, if_neg hdir]
        split
        · rfl
        · rfl

lemma readdirTurn_mono {x : Turn ((Int × Option Nat) × State σ) (Listing σ)}
    (h : readdirTurn S m dirid basename resource nodes s = .ok x) (hle : nodes ≤ nodes') :
    readdirTurn S m dirid basename resource nodes' s = .ok x := by
  rw [readdirTurn] at h ⊢
  cases hrun : enumerated S m dirid basename resource s with
  | error f =>
    rw [hrun] at h
    cases h
  | ok r =>
    obtain ⟨⟨rc, base⟩, k⟩ := r
    rw [hrun] at h
    simp only at h ⊢
    by_cases hrc : rc = kFPNoErr ∨ rc = kFPObjectNotFound
    · rw [if_pos hrc] at h ⊢
      cases hhang : hang s.filebase s.last base k with
      | error f =>
        rw [hhang] at h
        cases h
      | ok r =>
        rw [hhang] at h
        simp only at h ⊢
        cases hcount : countNodes r.2.heap.next (nodes + 1) base s.startindex s.last with
        | none =>
          rw [hcount] at h
          cases h
        | some c =>
          rw [hcount] at h
          rw [countNodes_mono hcount (Nat.succ_le_succ hle)]
          exact h
    · rw [if_neg hrc] at h ⊢
      exact h

lemma readdirLoop_iff :
    (∃ rounds, readdirLoop S m dirid basename resource rounds s.filebase s.last s.startindex s.state = .ok r) ↔
      ∃ nodes, Ends (readdirTurn S m dirid basename resource nodes) s r := by
  constructor
  · rintro ⟨rounds, hrun⟩
    -- no list is longer than the rounds there are at the start
    suffices h : ∀ n ≤ rounds, readdirLoop S m dirid basename resource n s.filebase s.last s.startindex s.state = .ok r →
        Ends (readdirTurn S m dirid basename resource rounds) s r from ⟨rounds, h rounds (Nat.le_refl _) hrun⟩
    clear hrun
    intro n hn hrun
    induction n generalizing s with
    | zero => cases hrun
    | succ n ih =>
      rw [readdirLoop_turn] at hrun
      cases hturn : readdirTurn S m dirid basename resource n s with
      | error f =>
        rw [hturn] at hrun
        cases hrun
      | ok x =>
        have hturn' := readdirTurn_mono hturn (Nat.le_of_succ_le hn)
        rw [hturn] at hrun
        cases x with
        | ends r' =>
          cases hrun
          exact ⟨s, .start, hturn'⟩
        | again t =>
          obtain ⟨u, hreached, hend⟩ := ih (Nat.le_of_succ_le hn) hrun
          exact ⟨u, .head hturn' hreached, hend⟩
  · rintro ⟨nodes, hends⟩
    obtain ⟨n, hrun⟩ := loop_of_ends Fault.outOfFuel hends
    refine ⟨n + nodes, ?_⟩
    clear hends
    induction n generalizing s with
    | zero => cases hrun
    | succ n ih =>
      rw [Nat.succ_add, readdirLoop_turn]
      rw [loop] at hrun
      cases hturn : readdirTurn S m dirid basename resource nodes s with
      | error f =>
        rw [hturn] at hrun
        cases hrun
      | ok x =>
        rw [readdirTurn_mono hturn (Nat.le_add_left nodes n)]
        rw [hturn] at hrun
        cases x with
        | ends r' => exact hrun
        | again t => exact ih hrun

end Loop

/-- The result of a request that `ll_readdir` handles as it should. -/
def WellAnswered (rc : Int) (base : Option Nat) : Prop :=
  rc = kFPNoErr ∧ base ≠ none ∨ rc = kFPObjectNotFound ∨ rc ∈ readdirErrors.map Prod.fst

/-- The codes that the `switch` does not list. -/
def Unlisted (rc : Int) : Prop :=
  rc ≠ kFPNoErr ∧ rc ≠ kFPObjectNotFound ∧ rc ≠ kFPDirNotFound ∧ rc ∉ readdirErrors.map Prod.fst

lemma not_wellAnswered_dirNotFound (base : Option Nat) : ¬ WellAnswered kFPDirNotFound base := by
  rintro (⟨h, -⟩ | h | h)
  · cases h
  · cases h
  · revert h
    decide

lemma switch_readdirErrors {rc : Int} (h : rc ∈ readdirErrors.map Prod.fst) :
    switch readdirErrors 0 rc ≠ 0 ∧ switch readdirErrors 0 rc ≠ ENOENT :=
  (show ∀ x ∈ readdirErrors, x.2 ≠ 0 ∧ x.2 ≠ ENOENT by decide) _ (switch_mem h)

section Results
variable {σ : Type} {S : Station σ} {m : Mount} {dirid : Nat} {basename : Bytes} {resource : Bool}
  {s t start : Listing σ} {nodes : Nat} {rc : Int} {base : Option Nat} {k k' : State σ}

/-- A list that has a first node has a last one. -/
def Listing.Closed (s : Listing σ) : Prop := s.filebase ≠ none → s.last ≠ none

lemma hang_closed {filebase last base filebase' last' : Option Nat} {i i' n : Nat} {k k' : State σ}
    (hhang : hang filebase last base k = .ok (filebase', k'))
    (hcount : countNodes k'.heap.next n base i last = some (i', last')) : filebase' ≠ none → last' ≠ none := by
  cases filebase with
  | none =>
    cases hhang
    exact fun hbase => countNodes_last hcount (.inl hbase)
  | some first =>
    cases last with
    | none => cases hhang
    | some l => exact fun _ => countNodes_last hcount (.inr nofun)

lemma readdirTurn_inv {x : Turn ((Int × Option Nat) × State σ) (Listing σ)}
    (hrun : enumerated S m dirid basename resource s = .ok ((rc, base), k))
    (h : readdirTurn S m dirid basename resource nodes s = .ok x) :
    (rc = kFPNoErr ∧ ∃ t, x = .again t ∧ t.Closed) ∨
    ((rc = kFPObjectNotFound ∨ rc = kFPDirNotFound) ∧ ∃ filebase k', x = .ends ((0, filebase), k')) ∨
    (rc ∈ readdirErrors.map Prod.fst ∧ ∃ ret filebase k', x = .ends ((ret, filebase), k') ∧ ret ≠ 0 ∧ ret ≠ ENOENT) ∨
    (Unlisted rc ∧ x = .again ⟨k, s.filebase, s.last, s.startindex⟩) := by
  rw [readdirTurn, hrun] at h
  simp only at h
  by_cases hlist : rc = kFPNoErr ∨ rc = kFPObjectNotFound
  · rw [if_pos hlist] at h
    cases hhang : hang s.filebase s.last base k with
    | error f =>
      rw [hhang] at h
      cases h
    | ok r =>
      obtain ⟨filebase, k₁⟩ := r
      rw [hhang] at h
      simp only at h
      cases hcount : countNodes k₁.heap.next (nodes + 1) base s.startindex s.last with
      | none =>
        rw [hcount] at h
        cases h
      | some c =>
        obtain ⟨startindex, last⟩ := c
        rw [hcount] at h
        simp only at h
        by_cases hdone : rc = kFPObjectNotFound
        · rw [if_pos hdone] at h
          cases h
          exact .inr (.inl ⟨.inl hdone, _, _, rfl⟩)
        · rw [if_neg hdone] at h
          cases h
          exact .inl ⟨hlist.resolve_right hdone, _, rfl, hang_closed hhang hcount⟩
  · rw [if_neg hlist] at h
    obtain ⟨hnoerr, hnotfound⟩ := not_or.mp hlist
    by_cases hdir : rc = kFPDirNotFound
    · rw [if_pos hdir] at h
      cases h
      exact .inr (.inl ⟨.inr hdir, _, _, rfl⟩)
    · rw [if_neg hdir] at h
      by_cases herr : rc ∈ readdirErrors.map Prod.fst
      · obtain ⟨hne, hne'⟩ := switch_readdirErrors herr
        rw [if_pos hne] at h
        cases h
        exact .inr (.inr (.inl ⟨herr, _, _, _, rfl, hne, hne'⟩))
      · have hun : Unlisted rc := ⟨hnoerr, hnotfound, hdir, herr⟩
        rw [switch_default hun.2.2.2, if_neg (not_not.mpr rfl)] at h
        cases h
        exact .inr (.inr (.inr ⟨hun, rfl⟩))

lemma readdirTurn_unlisted (hrun : enumerated S m dirid basename resource s = .ok ((rc, base), k)) (h : Unlisted rc) :
    readdirTurn S m dirid basename resource nodes s = .ok (.again ⟨k, s.filebase, s.last, s.startindex⟩) := by
  rw [readdirTurn, hrun]
  simp only [if_neg (not_or.mpr ⟨h.1, h.2.1⟩), if_neg h.2.2.1, switch_default h.2.2.2, ne_eq, not_true, if_false]

lemma readdirTurn_empty (hclosed : s.Closed)
    (hrun : enumerated S m dirid basename resource s = .ok ((kFPNoErr, none), k)) :
    ∃ t, readdirTurn S m dirid basename resource nodes s = .ok (.again t) := by
  have hhang : ∃ filebase k', hang s.filebase s.last none k = .ok (filebase, k') := by
    cases hf : s.filebase with
    | none => exact ⟨none, k, rfl⟩
    | some first =>
      cases hl : s.last with
      | none => exact absurd hl (hclosed (by rw [hf]; nofun))
      | some l => exact ⟨some first, _, rfl⟩
  obtain ⟨filebase, k', hhang⟩ := hhang
  refine ⟨⟨k', filebase, s.last, s.startindex⟩, ?_⟩
  rw [readdirTurn, hrun]
  simp only [hhang, countNodes]
  rfl

lemma enumerated_of_turn {x : Turn ((Int × Option Nat) × State σ) (Listing σ)}
    (h : readdirTurn S m dirid basename resource nodes s = .ok x) :
    ∃ rc base k, enumerated S m dirid basename resource s = .ok ((rc, base), k) := by
  rw [readdirTurn] at h
  cases hrun : enumerated S m dirid basename resource s with
  | error f =>
    rw [hrun] at h
    cases h
  | ok r => exact ⟨r.1.1, r.1.2, r.2, rfl⟩

lemma Listing.Closed.reached (hstart : start.Closed) (h : Reached (readdirTurn S m dirid basename resource nodes) start s) :
    s.Closed := by
  refine h.inv (fun b c hb hturn => ?_) hstart
  obtain ⟨rc, base, k, hrun⟩ := enumerated_of_turn hturn
  obtain ⟨-, t, heq, ht⟩ | ⟨-, _, _, heq⟩ | ⟨-, _, _, _, heq, -⟩ | ⟨-, heq⟩ := readdirTurn_inv hrun hturn
  · cases heq
    exact ht
  · cases heq
  · cases heq
  · cases heq
    exact hb

end Results

section Reports
variable {σ : Type} (S : Station σ) (m : Mount) (clock : Nat → Nat) (fi : FileInfo) (path : Bytes) (fb : Option Nat)
  (resource : Bool) (dirid : Nat) (basename : Bytes) (k : State σ) (start : Listing σ)

/-- The loop goes on only after entries without an error, `ll_readdir` returns 0 only after `kFPObjectNotFound`, and
`-ENOENT` for `kFPDirNotFound`. -/
structure Reports : Prop where
  stops : ∀ nodes s rc base k₁, Reached (readdirTurn S m dirid basename resource nodes) start s →
    enumerated S m dirid basename resource s = .ok ((rc, base), k₁) → ¬ (rc = kFPNoErr ∧ base ≠ none) →
    ∀ t, readdirTurn S m dirid basename resource nodes s ≠ .ok (.again t)
  zero : ∀ rounds fb' k', llReaddir S m clock rounds fi path fb resource k = .ok ((0, fb'), k') →
    ∃ nodes s base k₁ r, Reached (readdirTurn S m dirid basename resource nodes) start s ∧
      enumerated S m dirid basename resource s = .ok ((kFPObjectNotFound, base), k₁) ∧
      readdirTurn S m dirid basename resource nodes s = .ok (.ends r)
  dirNotFound : ∀ nodes s base k₁, Reached (readdirTurn S m dirid basename resource nodes) start s →
    enumerated S m dirid basename resource s = .ok ((kFPDirNotFound, base), k₁) →
    ∃ rounds k', llReaddir S m clock rounds fi path fb resource k = .ok ((-ENOENT, fb), k')

end Reports

section Theorem
variable {σ : Type} {S : Station σ} {m : Mount} {clock : Nat → Nat} {fi : FileInfo} {path : Bytes} {fb : Option Nat}
  {resource : Bool} {dirid : Nat} {basename : Bytes} {k : State σ} {c : DidCache}

lemma finishListing_ret {rounds : Nat} {filebase : Option Nat} :
    Ensures (finishListing m rounds filebase) k fun r _ => r.1 = 0 := by
  apply Ensures.ite
  · intro _
    refine .bind (.get ?_)
    cases setPerms rounds filebase k.heap with
    | none => exact .throw _
    | some h => exact .bind (.modify (.pure rfl))
  · exact fun _ => .pure rfl

lemma llReaddir_inv (hvalid : invalidFilename m.toVolume path = false)
    (hdir : Did.getDirid (S.query k.peer) clock fi k.cache path = .ok (some (dirid, basename), c)) {rounds : Nat} {ret : Int}
    {fb' : Option Nat} {k' : State σ} (h : llReaddir S m clock rounds fi path fb resource k = .ok ((ret, fb'), k')) :
    ∃ filebase k₁, readdirLoop S m dirid basename resource rounds none none 1 { k with cache := c } =
      .ok ((-ret, filebase), k₁) := by
  rw [llReaddir, hvalid, if_neg Bool.false_ne_true, run_bind_ok (getDirid_run hdir)] at h
  obtain ⟨⟨r, filebase⟩, k₁, hloop, hrest⟩ := bind_run_ok h
  refine ⟨filebase, k₁, hloop.trans ?_⟩
  by_cases hr : r ≠ 0
  · simp only [if_pos hr] at hrest
    cases hrest
    rw [Int.neg_neg]
  · simp only [if_neg hr] at hrest
    have hzero : ret = 0 := finishListing_ret hrest
    rw [hzero, not_not.mp hr]
    rfl

/-- `ll_readdir` reports how its listing ended if and only if every result along it is one of those that it handles. -/
theorem readdir_reports_iff (S : Station σ) (m : Mount) (clock : Nat → Nat) (fi : FileInfo) (path : Bytes)
    (fb : Option Nat) (resource : Bool) (k : State σ) (hvalid : invalidFilename m.toVolume path = false)
    {dirid : Nat} {basename : Bytes} {c : DidCache}
    (hdir : Did.getDirid (S.query k.peer) clock fi k.cache path = .ok (some (dirid, basename), c)) :
    (∀ r, (∃ rounds, readdirLoop S m dirid basename resource rounds none none 1 { k with cache := c } = .ok r) ↔
      ∃ nodes, Ends (readdirTurn S m dirid basename resource nodes) ⟨{ k with cache := c }, none, none, 1⟩ r) ∧
    (Reports S m clock fi path fb resource dirid basename k ⟨{ k with cache := c }, none, none, 1⟩ ↔
      ∀ nodes s rc base k₁,
        Reached (readdirTurn S m dirid basename resource nodes) ⟨{ k with cache := c }, none, none, 1⟩ s →
        enumerated S m dirid basename resource s = .ok ((rc, base), k₁) → WellAnswered rc base) := by
  let start : Listing σ := ⟨{ k with cache := c }, none, none, 1⟩
  have hstart : start.Closed := fun h => absurd rfl h
  refine ⟨fun r => @readdirLoop_iff σ S m dirid basename resource start r, fun h => ?_, fun h => ?_⟩
  · intro nodes s rc base k₁ hs hrun
    by_contra hbad
    obtain ⟨hnoerr, hbad⟩ := not_or.mp hbad
    obtain ⟨hnotfound, hlisted⟩ := not_or.mp hbad
    by_cases hdirnf : rc = kFPDirNotFound
    · subst hdirnf
      obtain ⟨rounds, k', hret⟩ := h.dirNotFound nodes s base k₁ hs hrun
      obtain ⟨filebase, k₂, hloop⟩ := llReaddir_inv hvalid hdir hret
      obtain ⟨nodes', t, ht, hend⟩ := (@readdirLoop_iff σ S m dirid basename resource start _).mp ⟨rounds, hloop⟩
      -- no round ends with this `errno`
      obtain ⟨rc', base', k₃, hrun'⟩ := enumerated_of_turn hend
      obtain ⟨-, _, heq, -⟩ | ⟨-, _, _, heq⟩ | ⟨-, _, _, _, heq, -, hne⟩ | ⟨-, heq⟩ := readdirTurn_inv hrun' hend
      · cases heq
      · cases heq
      · cases heq
        exact hne (Int.neg_neg _)
      · cases heq
    · by_cases hzero : rc = kFPNoErr
      · subst hzero
        obtain rfl : base = none := not_not.mp fun hne => hnoerr ⟨rfl, hne⟩
        obtain ⟨t, hturn⟩ := @readdirTurn_empty _ _ _ _ _ _ _ nodes _ (hstart.reached hs) hrun
        exact h.stops nodes s _ _ k₁ hs hrun hnoerr t hturn
      · have hun : Unlisted rc := ⟨hzero, hnotfound, hdirnf, hlisted⟩
        exact h.stops nodes s rc base k₁ hs hrun hnoerr _ (readdirTurn_unlisted hrun hun)
  · constructor
    · intro nodes s rc base k₁ hs hrun hnot t hturn
      have hwell := (h nodes s rc base k₁ hs hrun).resolve_left hnot
      obtain ⟨rfl, -⟩ | ⟨-, _, _, heq⟩ | ⟨-, _, _, _, heq, -⟩ | ⟨hun, -⟩ := readdirTurn_inv hrun hturn
      · revert hwell
        decide
      · cases heq
      · cases heq
      · exact hwell.elim hun.2.1 hun.2.2.2
    · intro rounds fb' k' hret
      obtain ⟨filebase, k₂, hloop⟩ := llReaddir_inv hvalid hdir hret
      obtain ⟨nodes, s, hs, hend⟩ := (@readdirLoop_iff σ S m dirid basename resource start _).mp ⟨rounds, hloop⟩
      obtain ⟨rc, base, k₁, hrun⟩ := enumerated_of_turn hend
      have hwell := h nodes s rc base k₁ hs hrun
      obtain ⟨-, _, heq, -⟩ | ⟨hrc, -⟩ | ⟨-, _, _, _, heq, hne, -⟩ | ⟨-, heq⟩ := readdirTurn_inv hrun hend
      · cases heq
      · rcases hrc with rfl | rfl
        · exact ⟨nodes, s, base, k₁, _, hs, hrun, hend⟩
        · exact absurd hwell (not_wellAnswered_dirNotFound base)
      · cases heq
        exact absurd rfl hne
      · cases heq
    · intro nodes s base k₁ hs hrun
      exact absurd (h nodes s _ base k₁ hs hrun) (not_wellAnswered_dirNotFound base)

end Theorem

def codeStation (code : Int) : Station Unit where
  query _ _ _ := none
  respond s _ := (.ofCode code, s)

theorem readdir_reports_empty :
    Reports (codeStation kFPObjectNotFound) .plain (fun _ => 0) ⟨false, 0⟩ [slash] none false 2 [] (State.start ())
      ⟨State.start (), none, none, 1⟩ := by
  refine (readdir_reports_iff (codeStation kFPObjectNotFound) .plain (fun _ => 0) ⟨false, 0⟩ [slash] none false
    (State.start ()) (by decide) rfl).2.mpr ?_
  intro nodes s rc base k₁ _ hrun
  cases hrun
  exact .inr (.inl rfl)

/-- A directory that does not exist is listed as an empty one, and without an answer, or with answers that have no entries,
the loop never ends. -/
theorem readdir_hides_errors :
    (∃ k', llReaddir (codeStation kFPDirNotFound) .plain (fun _ => 0) 2 ⟨false, 0⟩ [slash] none false (State.start ()) =
      .ok ((0, none), k')) ∧
    ∀ code ∈ [Dsi.ETIMEDOUT, kFPNoErr], ∀ rounds,
      llReaddir (codeStation code) .plain (fun _ => 0) rounds ⟨false, 0⟩ [slash] none false (State.start ()) =
        .error .outOfFuel := by
  refine ⟨⟨_, rfl⟩, fun code hcode rounds => ?_⟩
  have hturn : ∀ nodes, readdirTurn (codeStation code) .plain 2 [] false nodes ⟨State.start (), none, none, 1⟩ =
      .ok (.again ⟨State.start (), none, none, 1⟩) := by
    intro nodes
    rcases List.mem_cons.mp hcode with rfl | hcode
    · rfl
    · rw [List.mem_singleton.mp hcode]
      rfl
  have hloop : readdirLoop (codeStation code) .plain 2 [] false rounds none none 1 (State.start ()) = .error .outOfFuel := by
    induction rounds with
    | zero => rfl
    | succ rounds ih =>
      refine (readdirLoop_turn rounds ⟨State.start (), none, none, 1⟩).trans ?_
      rw [hturn]
      exact ih
  have hvalid : invalidFilename Mount.plain.toVolume [slash] = false := by decide
  have hroot : getDirid (codeStation code) (fun _ => 0) ⟨false, 0⟩ [slash] (State.start ()) =
      .ok (some (2, []), State.start ()) := rfl
  rw [llReaddir, hvalid, if_neg Bool.false_ne_true, run_bind_ok hroot]
  exact run_bind_error hloop

end AfpfsNg.Mid
