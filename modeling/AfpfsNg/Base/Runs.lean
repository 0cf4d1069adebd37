import Mathlib.Tactic.Common

/-!
# Runs of a transition system

A system with states `σ` moves from one state to the next under a label `ι`; `step s i s'` is one move. `Run step ok s is s'`
is a run along the labels `is`, all of whose moves start where `ok` allows them.
-/

namespace AfpfsNg.Base

variable {σ ι : Type*}

/-- A run along a list of labels, with a condition on the state and the label of each move. -/
inductive Run (step : σ → ι → σ → Prop) (ok : σ → ι → Prop) : σ → List ι → σ → Prop
  | nil (s) : Run step ok s [] s
  | cons {s i s' is s''} : ok s i → step s i s' → Run step ok s' is s'' → Run step ok s (i :: is) s''

variable {step : σ → ι → σ → Prop} {ok : σ → ι → Prop}

/-- An invariant of the allowed moves holds at the end of every run. -/
theorem Run.inv {I : σ → Prop} (hstep : ∀ s i s', I s → ok s i → step s i s' → I s') {s is s'}
    (hrun : Run step ok s is s') (h : I s) : I s' := by
  induction hrun with
  | nil => exact h
  | cons hok hs _ ih => exact ih (hstep _ _ _ h hok hs)

lemma forall_prefix_concat {P : List ι → Prop} {is : List ι} {i : ι} :
    (∀ pre, pre <+: is ++ [i] → P pre) ↔ (∀ pre, pre <+: is → P pre) ∧ P (is ++ [i]) := by
  simp only [List.prefix_concat_iff, or_imp, forall_and, forall_eq, and_comm]

lemma forall_move_concat {C : List ι → ι → Prop} {is : List ι} {j : ι} :
    (∀ pre i, pre ++ [i] <+: is ++ [j] → C pre i) ↔ (∀ pre i, pre ++ [i] <+: is → C pre i) ∧ C is j := by
  constructor
  · exact fun h => ⟨fun pre i hpre => h pre i (hpre.trans (List.prefix_append ..)), h is j List.prefix_rfl⟩
  · rintro ⟨h, hlast⟩ pre i hpre
    rcases List.prefix_concat_iff.mp hpre with heq | hpre
    · obtain ⟨rfl, hi⟩ := List.append_inj' heq rfl
      exact List.singleton_inj.mp hi ▸ hlast
    · exact h pre i hpre

end AfpfsNg.Base
