import Mathlib.Tactic.Common
import Mathlib.Data.List.Basic
import Mathlib.Algebra.BigOperators.Group.List.Basic
import Mathlib.Algebra.GroupWithZero.Nat

/-!
# Cutting a stream at packet boundaries

A stream is made of units of known sizes and arrives in pieces, of which only the sizes matter. `Aligned ks sizes` says that
the pieces `ks` never run across the end of a unit: every unit end that they reach is the end of a piece. `Covered ks sizes
j` says that the pieces reach the end of unit `j`.
-/

namespace AfpfsNg.Base

/-- Every unit end that the pieces reach is the end of a piece. -/
def Aligned (ks sizes : List Nat) : Prop :=
  ∀ j, (sizes.take j).sum ≤ ks.sum → ∃ i, (ks.take i).sum = (sizes.take j).sum

def Covered (ks sizes : List Nat) (j : Nat) : Prop :=
  (sizes.take (j + 1)).sum ≤ ks.sum

lemma aligned_nil_right (ks : List Nat) : Aligned ks [] :=
  fun j _ => ⟨0, by simp⟩

lemma aligned_nil_left (sizes : List Nat) : Aligned [] sizes := by
  intro j h
  refine ⟨0, ?_⟩
  rw [List.sum_nil] at h
  simp only [List.take_nil, List.sum_nil]
  omega

lemma aligned_cons_lt {k n ks sizes} (h : k < n) :
    Aligned (k :: ks) (n :: sizes) ↔ Aligned ks ((n - k) :: sizes) := by
  constructor
  · intro hal j hj
    cases j with
    | zero => exact ⟨0, by simp⟩
    | succ j =>
      simp only [List.take_succ_cons, List.sum_cons] at hj
      obtain ⟨i, hi⟩ := hal (j + 1) (by simp only [List.take_succ_cons, List.sum_cons]; omega)
      cases i with
      | zero => simp at hi; omega
      | succ i =>
        refine ⟨i, ?_⟩
        simp only [List.take_succ_cons, List.sum_cons] at hi ⊢
        omega
  · intro hal j hj
    cases j with
    | zero => exact ⟨0, by simp⟩
    | succ j =>
      simp only [List.take_succ_cons, List.sum_cons] at hj
      obtain ⟨i, hi⟩ := hal (j + 1) (by simp only [List.take_succ_cons, List.sum_cons]; omega)
      refine ⟨i + 1, ?_⟩
      simp only [List.take_succ_cons, List.sum_cons] at hi ⊢
      omega

lemma aligned_cons_self {k ks sizes} (hk : 0 < k) :
    Aligned (k :: ks) (k :: sizes) ↔ Aligned ks sizes := by
  constructor
  · intro hal j hj
    obtain ⟨i, hi⟩ := hal (j + 1) (by simp only [List.take_succ_cons, List.sum_cons]; omega)
    cases i with
    | zero => simp at hi; omega
    | succ i =>
      refine ⟨i, ?_⟩
      simp only [List.take_succ_cons, List.sum_cons] at hi
      omega
  · intro hal j hj
    cases j with
    | zero => exact ⟨0, by simp⟩
    | succ j =>
      simp only [List.take_succ_cons, List.sum_cons] at hj
      obtain ⟨i, hi⟩ := hal j (by omega)
      refine ⟨i + 1, ?_⟩
      simp only [List.take_succ_cons, List.sum_cons]
      omega

lemma not_aligned_cons_gt {k n ks sizes} (hn : 0 < n) (h : n < k) :
    ¬ Aligned (k :: ks) (n :: sizes) := by
  intro hal
  have hreach : ((n :: sizes).take 1).sum ≤ (k :: ks).sum := by
    simp only [List.take_succ_cons, List.take_zero, List.sum_cons, List.sum_nil]
    omega
  obtain ⟨i, hi⟩ := hal 1 hreach
  cases i with
  | zero => simp at hi; omega
  | succ i =>
    simp only [List.take_succ_cons, List.take_zero, List.sum_cons, List.sum_nil] at hi
    omega

lemma covered_cons_lt {k n ks sizes j} (h : k ≤ n) :
    Covered (k :: ks) (n :: sizes) j ↔ Covered ks ((n - k) :: sizes) j := by
  simp only [Covered, List.take_succ_cons, List.sum_cons]
  omega

lemma covered_cons_self_zero {k ks sizes} : Covered (k :: ks) (k :: sizes) 0 := by
  simp only [Covered, List.take_succ_cons, List.take_zero, List.sum_cons, List.sum_nil]
  omega

lemma covered_cons_self_succ {k ks sizes j} :
    Covered (k :: ks) (k :: sizes) (j + 1) ↔ Covered ks sizes j := by
  simp only [Covered, List.take_succ_cons, List.sum_cons]
  omega

lemma not_covered_nil {n sizes j} (hn : 0 < n) : ¬ Covered [] (n :: sizes) j := by
  simp only [Covered, List.take_succ_cons, List.sum_cons, List.sum_nil]
  omega

end AfpfsNg.Base
