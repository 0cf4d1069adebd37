import Mathlib.Order.Defs.Unbundled

/-!
# Code with a state that can fail

`StateT s (Except ε)` is code that reads and writes a state and stops at the first fault. `Ensures m k Q` says
that a run of `m` from `k` without a fault ends with a result and a state that satisfy `Q`, and `Moves R m` that it
relates the state before to the state after by `R`. The rules follow the code: what its parts do, the whole
does, for `Moves` if `R` is a preorder.

`OptionT (StateM s)` is code that stops without a result and keeps the state that it has come to.
-/

namespace AfpfsNg.Base

variable {ε s α β : Type} {R : s → s → Prop} {x y : StateT s (Except ε) α} {f : α → StateT s (Except ε) β} {k k' : s}
  {a : α}

lemma bind_run_ok {r : β × s} (h : (x >>= f) k = .ok r) : ∃ a k', x k = .ok (a, k') ∧ f a k' = .ok r := by
  change (x k >>= fun p => f p.1 p.2) = .ok r at h
  cases hx : x k with
  | error e =>
    rw [hx] at h
    cases h
  | ok p =>
    rw [hx] at h
    exact ⟨p.1, p.2, rfl, h⟩

lemma run_bind_ok (h : x k = .ok (a, k')) : (x >>= f) k = f a k' := by
  change (x k >>= fun p => f p.1 p.2) = _
  rw [h]
  rfl

lemma lift_run {x : Except ε α} (h : x = .ok a) : (liftM x : StateT s (Except ε) α) k = .ok (a, k) := by
  rw [h]
  rfl

lemma run_bind_error {e : ε} (h : x k = .error e) : (x >>= f) k = .error e := by
  change (x k >>= fun p => f p.1 p.2) = _
  rw [h]
  rfl

/-- Runs relate their first and their last state by `R`. -/
def Moves (R : s → s → Prop) (m : StateT s (Except ε) α) : Prop := ∀ ⦃k r k'⦄, m k = .ok (r, k') → R k k'

namespace Moves

lemma pure [IsPreorder s R] (a : α) : Moves R (Pure.pure a : StateT s (Except ε) α) := by
  intro k r k' h
  cases h
  exact refl k

lemma bind [IsPreorder s R] (hx : Moves R x) (hf : ∀ a, Moves R (f a)) : Moves R (x >>= f) := by
  intro k r k' h
  obtain ⟨a, k'', hrun, hrest⟩ := bind_run_ok h
  exact trans_of R (hx hrun) (hf a hrest)

lemma bind_option [IsPreorder s R] {x : StateT s (Except ε) (Option α)} {f : Option α → StateT s (Except ε) β}
    (hx : Moves R x) (hnone : Moves R (f none)) (hsome : ∀ a, Moves R (f (some a))) : Moves R (x >>= f) := by
  refine hx.bind fun a => ?_
  cases a with
  | none => exact hnone
  | some a => exact hsome a

lemma map [IsPreorder s R] (f : α → β) (hx : Moves R x) : Moves R (f <$> x) := by
  rw [← bind_pure_comp]
  exact hx.bind fun a => .pure (f a)

lemma throw (e : ε) : Moves R (MonadExcept.throw e : StateT s (Except ε) α) := by
  intro k r k' h
  cases h

lemma lift [IsPreorder s R] (x : Except ε α) : Moves R (liftM x : StateT s (Except ε) α) := by
  intro k r k' h
  cases x with
  | error e => cases h
  | ok a =>
    cases h
    exact refl k

lemma get [IsPreorder s R] : Moves R (MonadState.get : StateT s (Except ε) s) := by
  intro k r k' h
  cases h
  exact refl k

lemma modify {f : s → s} (hf : ∀ k, R k (f k)) : Moves R (modify f : StateT s (Except ε) PUnit) := by
  intro k r k' h
  cases h
  exact hf k

lemma ite {c : Prop} [Decidable c] (hx : c → Moves R x) (hy : ¬ c → Moves R y) : Moves R (if c then x else y) := by
  split
  case isTrue h => exact hx h
  case isFalse h => exact hy h

lemma early [IsPreorder s R] {c : Prop} [Decidable c] (hy : ¬ c → Moves R y) :
    Moves R (if c then Pure.pure a else y) :=
  .ite (fun _ => .pure a) hy

end Moves

/-- A run from `k` ends with `Q`. -/
def Ensures (m : StateT s (Except ε) α) (k : s) (Q : α → s → Prop) : Prop := ∀ ⦃r k'⦄, m k = .ok (r, k') → Q r k'

namespace Ensures
variable {Q P : α → s → Prop} {T : β → s → Prop}

lemma pure (h : Q a k) : Ensures (Pure.pure a : StateT s (Except ε) α) k Q := by
  intro r k' hrun
  cases hrun
  exact h

lemma bind (h : Ensures x k fun a k' => Ensures (f a) k' T) : Ensures (x >>= f) k T := by
  intro r k' hrun
  obtain ⟨a, k'', hx, hf⟩ := bind_run_ok hrun
  exact h hx hf

lemma imp (h : Ensures x k P) (hPQ : ∀ a k', P a k' → Q a k') : Ensures x k Q :=
  fun _ _ hrun => hPQ _ _ (h hrun)

lemma map {f : α → β} (h : Ensures x k fun a k' => T (f a) k') : Ensures (f <$> x) k T := by
  rw [← bind_pure_comp]
  exact .bind (h.imp fun _ _ => .pure)

lemma throw (e : ε) : Ensures (MonadExcept.throw e : StateT s (Except ε) α) k Q := by
  intro r k' hrun
  cases hrun

lemma lift {x : Except ε α} (h : ∀ a, x = .ok a → Q a k) : Ensures (liftM x : StateT s (Except ε) α) k Q := by
  intro r k' hrun
  cases x with
  | error e => cases hrun
  | ok a =>
    cases hrun
    exact h _ rfl

lemma get {Q : s → s → Prop} (h : Q k k) : Ensures (MonadState.get : StateT s (Except ε) s) k Q := by
  intro r k' hrun
  cases hrun
  exact h

lemma modify {f : s → s} {Q : PUnit → s → Prop} (h : Q ⟨⟩ (f k)) :
    Ensures (modify f : StateT s (Except ε) PUnit) k Q := by
  intro r k' hrun
  cases hrun
  exact h

lemma ite {c : Prop} [Decidable c] (hx : c → Ensures x k Q) (hy : ¬ c → Ensures y k Q) :
    Ensures (if c then x else y) k Q := by
  split
  case isTrue h => exact hx h
  case isFalse h => exact hy h

end Ensures

lemma Moves.ensures {m : StateT s (Except ε) α} (h : Moves R m) (k : s) : Ensures m k fun _ k' => R k k' :=
  fun _ _ hrun => h hrun

section Stop
variable {x : OptionT (StateM s) α} {f : α → OptionT (StateM s) β} {k k' : s}

lemma run_bind_some {a : α} (h : x k = (some a, k')) : (x >>= f) k = f a k' := by
  change (x k >>= fun p => (match p.1 with | some a => f a | none => pure none : StateM s (Option β)) p.2 : Id _) = _
  rw [h]
  rfl

lemma run_bind_none (h : x k = (none, k')) : (x >>= f) k = (none, k') := by
  change (x k >>= fun p => (match p.1 with | some a => f a | none => pure none : StateM s (Option β)) p.2 : Id _) = _
  rw [h]
  rfl

lemma bind_pure_state (b : β) : ((x >>= fun _ => pure b) k).2 = (x k).2 := by
  rcases hx : x k with ⟨a, k'⟩
  cases a with
  | none => rw [run_bind_none hx]
  | some a =>
    rw [run_bind_some hx]
    rfl

end Stop

end AfpfsNg.Base
