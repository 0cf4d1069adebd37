import Mathlib.Tactic.Common

/-!
# Results of code that can fail

When a computation in `Except` has a result, so do its parts.
-/

namespace AfpfsNg.Base

universe u v
variable {ε : Type u} {α β : Type v}

lemma map_eq_ok {x : Except ε α} {f : α → β} {b} (h : x.map f = .ok b) : ∃ a, x = .ok a ∧ f a = b := by
  cases x with
  | error e => cases h
  | ok a => exact ⟨a, rfl, Except.ok.inj h⟩

lemma bind_eq_ok {x : Except ε α} {f : α → Except ε β} {b} (h : x >>= f = .ok b) :
    ∃ a, x = .ok a ∧ f a = .ok b := by
  cases x with
  | error e => cases h
  | ok a => exact ⟨a, rfl, h⟩

end AfpfsNg.Base
