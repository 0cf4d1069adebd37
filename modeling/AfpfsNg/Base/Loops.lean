import Mathlib.Tactic.Common

/-!
# Loops that may not end

A loop goes from state to state. Each round `turn a` fails, ends with a result, or goes on from a new state. `Reached` are
the states at the start of a round, however many rounds there are, and `Ends` says that a loop comes to an end. `loop` is the
function that does so many rounds at most.
-/

namespace AfpfsNg.Base

inductive Turn (β α : Type*) where
  | ends (b : β)
  | again (a : α)

variable {ε α β : Type*}

/-- A state at the start of a round. -/
inductive Reached (turn : α → Except ε (Turn β α)) (a : α) : α → Prop
  | start : Reached turn a a
  | next {b c} : Reached turn a b → turn b = .ok (.again c) → Reached turn a c

/-- The loop comes to an end with this result. -/
def Ends (turn : α → Except ε (Turn β α)) (a : α) (r : β) : Prop := ∃ b, Reached turn a b ∧ turn b = .ok (.ends r)

/-- So many rounds at most; then it stops with the error `e`. -/
def loop (e : ε) (turn : α → Except ε (Turn β α)) : Nat → α → Except ε β
  | 0, _ => .error e
  | n + 1, a =>
    match turn a with
    | .error f => .error f
    | .ok (.ends r) => .ok r
    | .ok (.again b) => loop e turn n b

variable {e : ε} {turn : α → Except ε (Turn β α)} {a b c : α} {r : β} {n : Nat}

lemma Reached.inv {I : α → Prop} (hstep : ∀ b c, I b → turn b = .ok (.again c) → I c) (h : Reached turn a b) (ha : I a) :
    I b := by
  induction h with
  | start => exact ha
  | next _ hturn ih => exact hstep _ _ ih hturn

lemma Reached.trans (h : Reached turn a b) (h' : Reached turn b c) : Reached turn a c := by
  induction h' with
  | start => exact h
  | next _ hturn ih => exact .next ih hturn

lemma Reached.head (hturn : turn a = .ok (.again b)) (h : Reached turn b c) : Reached turn a c :=
  .trans (.next .start hturn) h

lemma ends_of_loop (h : loop e turn n a = .ok r) : Ends turn a r := by
  induction n generalizing a with
  | zero => cases h
  | succ n ih =>
    rw [loop] at h
    split at h
    case h_1 => cases h
    case h_2 r' hturn =>
      cases h
      exact ⟨a, .start, hturn⟩
    case h_3 b hturn =>
      obtain ⟨c, hreached, hend⟩ := ih h
      exact ⟨c, .head hturn hreached, hend⟩

lemma loop_of_ends (e : ε) (h : Ends turn a r) : ∃ n, loop e turn n a = .ok r := by
  obtain ⟨b, hreached, hend⟩ := h
  have hlast : ∃ n, loop e turn n b = .ok r := ⟨1, by rw [loop, hend]⟩
  -- one round more for each step back
  clear hend
  induction hreached with
  | start => exact hlast
  | next _ hturn ih =>
    obtain ⟨n, hrun⟩ := hlast
    refine ih ⟨n + 1, ?_⟩
    rw [loop, hturn]
    exact hrun

lemma stops_of_measure (μ : α → Nat) (hless : ∀ b c, Reached turn a b → turn b = .ok (.again c) → μ c < μ b) :
    ∃ b, Reached turn a b ∧ ∀ c, turn b ≠ .ok (.again c) := by
  by_contra h
  push Not at h
  -- otherwise there are states of ever smaller measure
  have hreach : ∀ n, ∃ b, Reached turn a b ∧ μ b + n ≤ μ a := by
    intro n
    induction n with
    | zero => exact ⟨a, .start, Nat.le_refl _⟩
    | succ n ih =>
      obtain ⟨b, hb, hle⟩ := ih
      obtain ⟨c, hturn⟩ := h b hb
      have hlt := hless b c hb hturn
      exact ⟨c, .next hb hturn, by omega⟩
  obtain ⟨b, -, hle⟩ := hreach (μ a + 1)
  omega

lemma loop_of_goes_on {I : α → Prop} (hstep : ∀ b, I b → ∃ c, turn b = .ok (.again c) ∧ I c) (ha : I a) :
    loop e turn n a = .error e := by
  induction n generalizing a with
  | zero => rfl
  | succ n ih =>
    obtain ⟨b, hturn, hb⟩ := hstep a ha
    rw [loop, hturn]
    exact ih hb

end AfpfsNg.Base
