import Mathlib.Order.Interval.Set.Defs
import Mathlib.Order.Monotone.Defs
import Mathlib.Order.Monotone.Basic
import Mathlib.Tactic.Common
import Mathlib.Order.Lattice
import Mathlib.Algebra.GroupWithZero.Nat

/-!
# Uniform binary search

A search in a sorted table that keeps an index and no bounds: after each comparison the index moves to one side by the next
distance of a fixed list. From `i` it can come to every place that is at most the sum of the distances away, and it misses
none of them if each distance is at most one more than the sum of those behind it (`Covers`). This is uniform binary search
as in Knuth's book, with any list of distances.
-/

namespace AfpfsNg.Base

variable {κ : Type*} [LinearOrder κ] {key : Nat → κ} {needle : κ}

/-- The place of `needle`, from the index `i` on with the distances that are left. -/
def uniformSearch (key : Nat → κ) (needle : κ) : Nat → List Nat → Option Nat
  | i, [] => if key i = needle then some i else none
  | i, d :: ds =>
    if needle < key i then uniformSearch key needle (i - d) ds
    else if key i < needle then uniformSearch key needle (i + d) ds
    else some i

/-- No place is passed over. -/
def Covers : List Nat → Prop
  | [] => True
  | d :: ds => d ≤ ds.sum + 1 ∧ Covers ds

instance decidableCovers : (ds : List Nat) → Decidable (Covers ds)
  | [] => inferInstanceAs (Decidable True)
  | _ :: ds => @instDecidableAnd _ _ inferInstance (decidableCovers ds)

lemma uniformSearch_sound {i k : Nat} {ds : List Nat} (h : uniformSearch key needle i ds = some k) :
    key k = needle ∧ i ≤ k + ds.sum ∧ k ≤ i + ds.sum := by
  induction ds generalizing i with
  | nil =>
    rw [uniformSearch] at h
    split at h
    case isTrue heq =>
      cases h
      exact ⟨heq, Nat.le_refl _, Nat.le_refl _⟩
    case isFalse => cases h
  | cons d ds ih =>
    rw [List.sum_cons]
    rw [uniformSearch] at h
    split at h
    case isTrue =>
      obtain ⟨heq, hbelow, habove⟩ := ih h
      exact ⟨heq, by omega, by omega⟩
    case isFalse hlow =>
      split at h
      case isTrue =>
        obtain ⟨heq, hbelow, habove⟩ := ih h
        exact ⟨heq, by omega, by omega⟩
      case isFalse hhigh =>
        cases h
        exact ⟨le_antisymm (not_lt.mp hlow) (not_lt.mp hhigh), by omega, by omega⟩

lemma uniformSearch_complete {lo hi i k : Nat} {ds : List Nat} (hkey : StrictMonoOn key (Set.Icc lo hi)) (hds : Covers ds)
    (hlo : lo + ds.sum ≤ i) (hhi : i + ds.sum ≤ hi) (hbelow : i ≤ k + ds.sum) (habove : k ≤ i + ds.sum)
    (hk : key k = needle) : uniformSearch key needle i ds = some k := by
  induction ds generalizing i with
  | nil =>
    obtain rfl : i = k := Nat.le_antisymm hbelow habove
    rw [uniformSearch, if_pos hk]
  | cons d ds ih =>
    obtain ⟨hd, hds⟩ := hds
    rw [List.sum_cons] at hlo hhi hbelow habove
    have hi_mem : i ∈ Set.Icc lo hi := ⟨by omega, by omega⟩
    have hk_mem : k ∈ Set.Icc lo hi := ⟨by omega, by omega⟩
    subst hk
    rw [uniformSearch]
    rcases Nat.lt_trichotomy k i with hlt | rfl | hgt
    · rw [if_pos (hkey hk_mem hi_mem hlt)]
      exact ih hds (by omega) (by omega) (by omega) (by omega)
    · rw [if_neg (lt_irrefl _), if_neg (lt_irrefl _)]
    · have hgt' := hkey hi_mem hk_mem hgt
      rw [if_neg hgt'.not_gt, if_pos hgt']
      exact ih hds (by omega) (by omega) (by omega) (by omega)

end AfpfsNg.Base
