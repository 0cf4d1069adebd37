import Mathlib.Data.List.Chain
import Mathlib.Tactic.Common
import Mathlib.Algebra.GroupWithZero.Nat

/-!
# Fusing neighbours

A pass from left to right over a list that fuses neighbours. `f` says what two elements become, if they go together. The pass
keeps one element back, which takes in those behind it for as long as it can.
-/

namespace AfpfsNg.Base

variable {α : Type*} (f : α → α → Option α)

/-- The pass, with `prev` kept back. -/
def fuseFrom (prev : α) : List α → List α
  | [] => [prev]
  | c :: us =>
    match f prev c with
    | some d => fuseFrom d us
    | none => prev :: fuseFrom c us

def fuse : List α → List α
  | [] => []
  | c :: us => fuseFrom f c us

/-- An element that no element in front of it takes in. -/
def Inert (c : α) : Prop := ∀ q, f q c = none

variable {f} {prev c d : α} {us : List α}

lemma fuseFrom_some (h : f prev c = some d) : fuseFrom f prev (c :: us) = fuseFrom f d us := by
  rw [fuseFrom, h]

lemma fuseFrom_none (h : f prev c = none) : fuseFrom f prev (c :: us) = prev :: fuseFrom f c us := by
  rw [fuseFrom, h]

lemma forall_mem_fuseFrom {p : α → Prop} (hf : ∀ a b c, f a b = some c → p c) (hprev : p prev) (h : ∀ u ∈ us, p u) :
    ∀ u ∈ fuseFrom f prev us, p u := by
  induction us generalizing prev with
  | nil => exact List.forall_mem_singleton.mpr hprev
  | cons c us ih =>
    have hus : ∀ u ∈ us, p u := fun u hu => h u (.tail _ hu)
    cases hc : f prev c with
    | some d =>
      rw [fuseFrom_some hc]
      exact ih (hf _ _ _ hc) hus
    | none =>
      rw [fuseFrom_none hc]
      exact List.forall_mem_cons.mpr ⟨hprev, ih (h c (.head _)) hus⟩

lemma forall_mem_fuse {p : α → Prop} (hf : ∀ a b c, f a b = some c → p c) (h : ∀ u ∈ us, p u) :
    ∀ u ∈ fuse f us, p u := by
  cases us with
  | nil => exact List.forall_mem_nil _
  | cons c us => exact forall_mem_fuseFrom hf (h c (.head _)) fun u hu => h u (.tail _ hu)

lemma sum_fuseFrom_le {w : α → Nat} (hf : ∀ a b c, f a b = some c → w c ≤ w a + w b) :
    ((fuseFrom f prev us).map w).sum ≤ w prev + (us.map w).sum := by
  induction us generalizing prev with
  | nil => exact Nat.le_refl _
  | cons c us ih =>
    rw [List.map_cons, List.sum_cons]
    cases hc : f prev c with
    | some d =>
      have hd := hf _ _ _ hc
      have hrest : ((fuseFrom f d us).map w).sum ≤ w d + (us.map w).sum := ih
      rw [fuseFrom_some hc]
      omega
    | none =>
      have hrest : ((fuseFrom f c us).map w).sum ≤ w c + (us.map w).sum := ih
      rw [fuseFrom_none hc, List.map_cons, List.sum_cons]
      omega

lemma sum_fuse_le {w : α → Nat} (hf : ∀ a b c, f a b = some c → w c ≤ w a + w b) (us : List α) :
    ((fuse f us).map w).sum ≤ (us.map w).sum := by
  cases us with
  | nil => exact Nat.le_refl _
  | cons c us => exact sum_fuseFrom_le hf

lemma length_fuse_le (us : List α) : (fuse f us).length ≤ us.length := by
  have hsum := sum_fuse_le (f := f) (w := fun _ => 1) (fun _ _ _ _ => Nat.le_succ 1) us
  simpa using hsum

lemma count_lt_length_fuseFrom [BEq α] [LawfulBEq α] {a : α} (ha : Inert f a) :
    us.count a < (fuseFrom f prev us).length := by
  induction us generalizing prev with
  | nil => exact Nat.zero_lt_one
  | cons c us ih =>
    cases hc : f prev c with
    | some d =>
      have hne : c ≠ a := by
        rintro rfl
        rw [ha prev] at hc
        cases hc
      rw [fuseFrom_some hc, List.count_cons_of_ne hne]
      exact ih
    | none =>
      rw [fuseFrom_none hc, List.length_cons]
      have hcount : (c :: us).count a ≤ us.count a + 1 := by
        rw [List.count_cons]
        split <;> omega
      have hrest : us.count a < (fuseFrom f c us).length := ih
      omega

lemma head_fuseFrom (hf : ∀ a b c, f a b = some c → Inert f c) (prev : α) (us : List α) :
    ∃ d rest, fuseFrom f prev us = d :: rest ∧ (d = prev ∨ Inert f d) := by
  induction us generalizing prev with
  | nil => exact ⟨prev, [], rfl, .inl rfl⟩
  | cons c us ih =>
    cases hc : f prev c with
    | some d =>
      obtain ⟨e, rest, heq, he⟩ := ih d
      refine ⟨e, rest, (fuseFrom_some hc).trans heq, .inr ?_⟩
      rcases he with rfl | he
      · exact hf _ _ _ hc
      · exact he
    | none => exact ⟨prev, _, fuseFrom_none hc, .inl rfl⟩

lemma isChain_fuseFrom (hf : ∀ a b c, f a b = some c → Inert f c) (prev : α) (us : List α) :
    (fuseFrom f prev us).IsChain fun a b => f a b = none := by
  induction us generalizing prev with
  | nil => exact .singleton prev
  | cons c us ih =>
    cases hc : f prev c with
    | some d =>
      rw [fuseFrom_some hc]
      exact ih d
    | none =>
      -- `prev` was only compared with `c`, which may have taken in others since
      have hrest := ih c
      obtain ⟨d, rest, heq, hd⟩ := head_fuseFrom hf c us
      rw [heq] at hrest
      rw [fuseFrom_none hc, heq]
      refine .cons_cons ?_ hrest
      rcases hd with rfl | hd
      · exact hc
      · exact hd prev

lemma isChain_fuse (hf : ∀ a b c, f a b = some c → Inert f c) (us : List α) :
    (fuse f us).IsChain fun a b => f a b = none := by
  cases us with
  | nil => exact .nil
  | cons c us => exact isChain_fuseFrom hf c us

lemma fuseFrom_of_isChain (h : (prev :: us).IsChain fun a b => f a b = none) : fuseFrom f prev us = prev :: us := by
  induction us generalizing prev with
  | nil => rfl
  | cons c us ih =>
    obtain ⟨hc, hrest⟩ := List.isChain_cons_cons.mp h
    rw [fuseFrom_none hc, ih hrest]

lemma fuse_of_isChain (h : us.IsChain fun a b => f a b = none) : fuse f us = us := by
  cases us with
  | nil => rfl
  | cons c us => exact fuseFrom_of_isChain h

lemma fuse_fuse (hf : ∀ a b c, f a b = some c → Inert f c) (us : List α) : fuse f (fuse f us) = fuse f us :=
  fuse_of_isChain (isChain_fuse hf us)

end AfpfsNg.Base
