import AfpfsNg.Base.Runs
import Mathlib.Data.Finset.Basic

/-!
# Descriptors of the main loop

`add_fd` and `rm_fd` (`lib/loop.c`) keep the set `rds` of the descriptors to watch and `max_fd`, the bound that `pselect` gets.
`add_fd_and_signal`, `rm_fd_and_signal` and `loop_disconnect` call them and wake up the main thread, which is left out.
`rm_fd` searches downwards for the largest descriptor that is left, from `max_fd` itself on, and adds one in any case.
-/

namespace AfpfsNg.Afp.Loop
open AfpfsNg.Base

variable {n : Nat}

/-- C `fd_set`: which of the `n` bits are set, where `n` is `FD_SETSIZE`. -/
abbrev FdSet (n : Nat) := Finset (Fin n)

/-- C `FD_ISSET`, if the index is inside of the array. -/
def fdIsset (i : Nat) (set : FdSet n) : Option Bool :=
  if h : i < n then some (decide (⟨i, h⟩ ∈ set)) else none

/-- C `rds` and `max_fd`. -/
structure Watch (n : Nat) where
  rds : FdSet n
  maxFd : Nat

def Watch.start : Watch n := ⟨∅, 0⟩

def addFd (w : Watch n) (fd : Fin n) : Watch n where
  rds := insert fd w.rds
  maxFd := if w.maxFd < fd + 1 then fd + 1 else w.maxFd

/-- The loop of `rm_fd` with so many rounds left: the first index from above whose bit is set. -/
def lastSet (set : FdSet n) : Nat → Option (Option Nat)
  | 0 => some none
  | i + 1 => (fdIsset i set).bind fun isset => if isset then some (some i) else lastSet set i

/-- C `rm_fd`, if it tests no index outside of the array. -/
def rmFd (w : Watch n) (fd : Fin n) : Option (Watch n) :=
  let rds := w.rds.erase fd
  (lastSet rds (w.maxFd + 1)).map fun found => ⟨rds, found.getD w.maxFd + 1⟩

inductive FdCall (n : Nat) where
  | add (fd : Fin n)
  | rm (fd : Fin n)

def Watch.step (w : Watch n) : FdCall n → Option (Watch n)
  | .add fd => some (addFd w fd)
  | .rm fd => rmFd w fd

def runCalls (calls : List (FdCall n)) : Option (Watch n) := calls.foldlM Watch.step .start

def FdCall.register (set : FdSet n) : FdCall n → FdSet n
  | .add fd => insert fd set
  | .rm fd => set.erase fd

def registered (calls : List (FdCall n)) : FdSet n := calls.foldl FdCall.register ∅

/-- The bound is one more than the largest descriptor of the set (0 if there is none), and all of them are below it. -/
structure Follows (set : FdSet n) (maxFd : Nat) : Prop where
  largest : set = ∅ ∧ maxFd = 0 ∨ ∃ fd ∈ set, maxFd = fd.val + 1
  watched : ∀ fd ∈ set, fd.val < maxFd

/-- After each of the calls the bound follows the set, and no index outside of the array was tested. -/
def BoundFollows (calls : List (FdCall n)) : Prop :=
  ∀ pre, pre <+: calls → ∃ w, runCalls pre = some w ∧ Follows (registered pre) w.maxFd

/-- What a call must find: `rm_fd` another descriptor, and not the largest possible one. -/
def FdCall.Allowed (set : FdSet n) : FdCall n → Prop
  | .add _ => True
  | .rm fd => (∃ d ∈ set, d ≠ fd) ∧ ∀ d ∈ set, d.val + 1 < n

section Calls
variable {set : FdSet n} {w w' : Watch n} {fd : Fin n} {m k : Nat}

lemma lastSet_outside (h : n < k) : lastSet set k = none := by
  obtain ⟨i, rfl⟩ : ∃ i, k = i + 1 := ⟨k - 1, by omega⟩
  rw [lastSet, fdIsset, dif_neg (by omega), Option.bind_none]

lemma lastSet_inside (set : FdSet n) (h : k ≤ n) :
    (lastSet set k = some none ∧ ∀ d ∈ set, k ≤ d.val) ∨
      ∃ d ∈ set, lastSet set k = some (some d.val) ∧ ∀ d' ∈ set, d'.val < k → d' ≤ d := by
  induction k with
  | zero => exact .inl ⟨rfl, fun d _ => Nat.zero_le _⟩
  | succ i ih =>
    have htest : fdIsset i set = some (decide (⟨i, h⟩ ∈ set)) := dif_pos h
    rw [lastSet, htest, Option.bind_some]
    by_cases hi : ⟨i, h⟩ ∈ set
    · rw [if_pos (decide_eq_true hi)]
      exact .inr ⟨⟨i, h⟩, hi, rfl, fun d' _ hlt => Nat.le_of_lt_succ hlt⟩
    · rw [if_neg (by rwa [decide_eq_true_iff])]
      have hne : ∀ d ∈ set, d.val ≠ i := by
        rintro d hd rfl
        exact hi hd
      rcases ih (by omega) with ⟨hnone, hall⟩ | ⟨d, hd, hsome, hall⟩
      · refine .inl ⟨hnone, fun d hd => ?_⟩
        have h₁ := hall d hd
        have h₂ := hne d hd
        omega
      · refine .inr ⟨d, hd, hsome, fun d' hd' hlt => hall d' hd' ?_⟩
        have h₂ := hne d' hd'
        omega

lemma rmFd_outside (h : n ≤ w.maxFd) (fd : Fin n) : rmFd w fd = none := by
  rw [rmFd, lastSet_outside (Nat.lt_succ_of_le h), Option.map_none]

lemma rmFd_inside (hwatched : ∀ d ∈ w.rds, d.val < w.maxFd) (h : w.maxFd < n) (fd : Fin n) :
    ∃ m, rmFd w fd = some ⟨w.rds.erase fd, m⟩ ∧ (w.rds.erase fd = ∅ ∧ m = w.maxFd + 1 ∨
      ∃ d ∈ w.rds.erase fd, m = d.val + 1 ∧ ∀ d' ∈ w.rds.erase fd, d' ≤ d) := by
  have hbelow : ∀ d ∈ w.rds.erase fd, d.val < w.maxFd + 1 :=
    fun d hd => Nat.lt_succ_of_lt (hwatched d (Finset.mem_of_mem_erase hd))
  rcases lastSet_inside (w.rds.erase fd) h with ⟨hnone, hall⟩ | ⟨d, hd, hsome, hall⟩
  · refine ⟨w.maxFd + 1, by rw [rmFd, hnone]; rfl, .inl ⟨?_, rfl⟩⟩
    exact Finset.eq_empty_of_forall_notMem fun d hd => absurd (hall d hd) (Nat.not_le.mpr (hbelow d hd))
  · exact ⟨d.val + 1, by rw [rmFd, hsome]; rfl, .inr ⟨d, hd, rfl, fun d' hd' => hall d' hd' (hbelow d' hd')⟩⟩

lemma Follows.add (h : Follows w.rds w.maxFd) (fd : Fin n) : Follows (addFd w fd).rds (addFd w fd).maxFd := by
  simp only [addFd]
  split
  case isTrue hlt =>
    refine ⟨.inr ⟨fd, Finset.mem_insert_self .., rfl⟩, Finset.forall_mem_insert .. |>.mpr ⟨Nat.lt_succ_self _, fun d hd => ?_⟩⟩
    exact (h.watched d hd).trans hlt
  case isFalse hle =>
    refine ⟨?_, Finset.forall_mem_insert .. |>.mpr ⟨by omega, h.watched⟩⟩
    rcases h.largest with ⟨-, hzero⟩ | ⟨d, hd, hmax⟩
    · omega
    · exact .inr ⟨d, Finset.mem_insert_of_mem hd, hmax⟩

lemma Follows.rm_iff (h : Follows w.rds w.maxFd) (fd : Fin n) :
    (∃ w', rmFd w fd = some w' ∧ Follows (w.rds.erase fd) w'.maxFd) ↔ FdCall.Allowed w.rds (.rm fd) := by
  constructor
  · rintro ⟨w', hrun, hfollows⟩
    have hlt : w.maxFd < n := by
      by_contra hge
      rw [rmFd_outside (Nat.not_lt.mp hge)] at hrun
      cases hrun
    refine ⟨?_, fun d hd => Nat.lt_of_le_of_lt (h.watched d hd) hlt⟩
    obtain ⟨m, hrun', hcases⟩ := rmFd_inside h.watched hlt fd
    cases hrun'.symm.trans hrun
    rcases hcases with ⟨hempty, hm⟩ | ⟨d, hd, -⟩
    · rcases hfollows.largest with ⟨-, hzero⟩ | ⟨d, hd, -⟩
      · exact absurd (hm.symm.trans hzero) (Nat.succ_ne_zero _)
      · exact absurd hd (hempty ▸ Finset.notMem_empty d)
    · exact ⟨d, Finset.mem_of_mem_erase hd, Finset.ne_of_mem_erase hd⟩
  · rintro ⟨⟨other, hmem, hne⟩, hroom⟩
    have hother : other ∈ w.rds.erase fd := Finset.mem_erase.mpr ⟨hne, hmem⟩
    have hlt : w.maxFd < n := by
      rcases h.largest with ⟨hempty, -⟩ | ⟨d, hd, hmax⟩
      · exact absurd hmem (hempty ▸ Finset.notMem_empty other)
      · exact hmax ▸ hroom d hd
    obtain ⟨m, hrun, ⟨hempty, -⟩ | ⟨d, hd, hm, hall⟩⟩ := rmFd_inside h.watched hlt fd
    · exact absurd hother (hempty ▸ Finset.notMem_empty other)
    · exact ⟨_, hrun, .inr ⟨d, hd, hm⟩, fun d' hd' => hm ▸ Nat.lt_succ_of_le (hall d' hd')⟩

lemma step_rds {call : FdCall n} (h : w.step call = some w') : w'.rds = call.register w.rds := by
  cases call with
  | add fd =>
    cases h
    rfl
  | rm fd =>
    obtain ⟨found, -, rfl⟩ := Option.map_eq_some_iff.mp h
    rfl

lemma step_watched {call : FdCall n} (hwatched : ∀ d ∈ w.rds, d.val < w.maxFd) (h : w.step call = some w') :
    ∀ d ∈ w'.rds, d.val < w'.maxFd := by
  cases call with
  | add fd =>
    cases h
    simp only [addFd, Finset.forall_mem_insert]
    refine ⟨by split <;> omega, fun d hd => ?_⟩
    have hd' := hwatched d hd
    split <;> omega
  | rm fd =>
    have hlt : w.maxFd < n := by
      by_contra hge
      rw [Watch.step, rmFd_outside (Nat.not_lt.mp hge)] at h
      cases h
    obtain ⟨m, hrun, ⟨hempty, -⟩ | ⟨d, -, hm, hall⟩⟩ := rmFd_inside hwatched hlt fd
    · cases hrun.symm.trans h
      rw [hempty]
      exact fun d hd => absurd hd (Finset.notMem_empty d)
    · cases hrun.symm.trans h
      exact fun d' hd' => hm ▸ Nat.lt_succ_of_le (hall d' hd')

end Calls

section Runs
variable {calls : List (FdCall n)} {w : Watch n}

lemma runCalls_concat (calls : List (FdCall n)) (call : FdCall n) :
    runCalls (calls ++ [call]) = (runCalls calls).bind (·.step call) := by
  simp [runCalls, List.foldlM_append]

lemma registered_concat (calls : List (FdCall n)) (call : FdCall n) :
    registered (calls ++ [call]) = call.register (registered calls) := List.foldl_concat ..

lemma runCalls_watched (h : runCalls calls = some w) : w.rds = registered calls ∧ ∀ fd ∈ w.rds, fd.val < w.maxFd := by
  induction calls using List.reverseRecOn generalizing w with
  | nil =>
    cases h
    exact ⟨rfl, fun d hd => absurd hd (Finset.notMem_empty d)⟩
  | append_singleton calls call ih =>
    rw [runCalls_concat] at h
    obtain ⟨w₀, hrun, hstep⟩ := Option.bind_eq_some_iff.mp h
    obtain ⟨hrds, hwatched⟩ := ih hrun
    rw [registered_concat, ← hrds]
    exact ⟨step_rds hstep, step_watched hwatched hstep⟩

lemma boundFollows_iff : BoundFollows calls ↔ ∀ pre call, pre ++ [call] <+: calls → call.Allowed (registered pre) := by
  induction calls using List.reverseRecOn with
  | nil =>
    refine iff_of_true (fun pre hpre => ?_) fun pre call hpre => ?_
    · cases List.prefix_nil.mp hpre
      exact ⟨.start, rfl, .inl ⟨rfl, rfl⟩, fun d hd => absurd hd (Finset.notMem_empty d)⟩
    · exact absurd (List.prefix_nil.mp hpre) (List.append_ne_nil_of_right_ne_nil _ (List.cons_ne_nil _ _))
  | append_singleton calls call ih =>
    rw [forall_move_concat, ← ih, BoundFollows, forall_prefix_concat]
    refine and_congr_right fun hall => ?_
    obtain ⟨w, hrun, hfollows⟩ := hall calls List.prefix_rfl
    obtain ⟨hrds, -⟩ := runCalls_watched hrun
    rw [← hrds] at hfollows
    rw [runCalls_concat, hrun, Option.bind_some, registered_concat, ← hrds]
    cases call with
    | add fd => exact iff_of_true ⟨_, rfl, hfollows.add fd⟩ trivial
    | rm fd => exact hfollows.rm_iff fd

def reconnects (fd : Fin n) (k : Nat) : List (FdCall n) := (List.replicate k [.add fd, .rm fd]).flatten

lemma rmFd_addFd (m : Nat) (fd : Fin n) : rmFd (addFd ⟨∅, m⟩ fd) fd =
    if max m (fd + 1) < n then some ⟨∅, max m (fd + 1) + 1⟩ else none := by
  have hadd : addFd ⟨∅, m⟩ fd = ⟨{fd}, max m (fd + 1)⟩ := by
    rw [addFd, Watch.mk.injEq]
    refine ⟨rfl, ?_⟩
    dsimp only
    split <;> omega
  rw [hadd]
  split
  case isTrue hlt =>
    have hwatched : ∀ d ∈ ({fd} : FdSet n), d.val < max m (fd + 1) := by
      intro d hd
      rw [Finset.mem_singleton.mp hd]
      omega
    obtain ⟨m', hrun, ⟨-, rfl⟩ | ⟨d, hd, -⟩⟩ := rmFd_inside (w := ⟨{fd}, max m (fd + 1)⟩) hwatched hlt fd
    · rw [hrun, Finset.erase_singleton]
    · rw [Finset.erase_singleton] at hd
      exact absurd hd (Finset.notMem_empty d)
  case isFalse hge => exact rmFd_outside (w := ⟨{fd}, max m (fd + 1)⟩) (Nat.not_lt.mp hge) fd

lemma runCalls_reconnects (fd : Fin n) (k : Nat) : runCalls (reconnects fd (k + 1)) =
    if fd + (k + 1) < n then some ⟨∅, fd + (k + 1) + 1⟩ else none := by
  have hsplit (k : Nat) : runCalls (reconnects fd (k + 1)) =
      (runCalls (reconnects fd k)).bind fun w => rmFd (addFd w fd) fd := by
    rw [reconnects, List.replicate_succ', List.flatten_append, List.flatten_singleton, List.append_cons, runCalls_concat,
      runCalls_concat, Option.bind_assoc]
    rfl
  induction k with
  | zero =>
    rw [hsplit]
    exact (rmFd_addFd 0 fd).trans (by rw [Nat.zero_max])
  | succ k ih =>
    rw [hsplit, ih]
    by_cases hlt : fd + (k + 1) < n
    · rw [if_pos hlt, Option.bind_some, rmFd_addFd, Nat.max_eq_left (by omega)]
      rfl
    · rw [if_neg hlt, if_neg (by omega), Option.bind_none]

end Runs

/-- The bound follows the set after each call just if `rm_fd` is never called for the last descriptor and never while the
largest possible one is registered. In any case all descriptors are watched. -/
theorem select_bound_iff (calls : List (FdCall n)) :
    (BoundFollows calls ↔ ∀ pre call, pre ++ [call] <+: calls → call.Allowed (registered pre)) ∧
      ∀ w, runCalls calls = some w → w.rds = registered calls ∧ ∀ fd ∈ w.rds, fd.val < w.maxFd :=
  ⟨boundFollows_iff, fun _ => runCalls_watched⟩

/-- One connection with the descriptor 3, with 1021 connections, and the descriptor 1023. -/
theorem select_bound_drifts :
    runCalls (reconnects (3 : Fin 1024) 1) = some ⟨∅, 5⟩ ∧ ¬ BoundFollows (reconnects (3 : Fin 1024) 1) ∧
      runCalls (reconnects (3 : Fin 1024) 1021) = none ∧ runCalls (n := 1024) [.add 1023, .rm 1023] = none := by
  refine ⟨(runCalls_reconnects 3 0).trans (if_pos (by decide)), fun h => ?_,
    (runCalls_reconnects 3 1020).trans (if_neg (by decide)), (runCalls_reconnects 1023 0).trans (if_neg (by decide))⟩
  obtain ⟨d, hd, hne⟩ := (boundFollows_iff.mp h [.add 3] (.rm 3) List.prefix_rfl).1
  exact hne (Finset.mem_singleton.mp hd)

end AfpfsNg.Afp.Loop
