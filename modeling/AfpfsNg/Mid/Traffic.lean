import AfpfsNg.Base.Except
import AfpfsNg.Mid.Attributes

/-!
# What code sends

A relation of states that holds whenever a command of some kind is sent, and whenever neither the server nor the
list of open forks changes, holds for all code that sends only such commands. Here this is shown for the code that
looks up directories and for `ml_creat`, which every `ll_open` may call.
-/

namespace AfpfsNg.Mid
open AfpfsNg.Base AfpfsNg.Afp AfpfsNg.Did AfpfsNg.Fork AfpfsNg.Proto

def Command.aboutForks : Command → Bool
  | .fork (.openfork ..) | .fork (.closefork ..) | .fork (.read ..) | .fork (.setforkparms ..) => true
  | _ => false

/-- `R` holds for commands of the kind `p`, and for what the client does by itself. -/
structure Carries {σ : Type} (S : Station σ) (p : Command → Prop) (R : State σ → State σ → Prop) : Prop where
  command : ∀ k c, p c → R k { k with peer := (S.respond k.peer c).2 }
  idle : ∀ k k', k'.peer = k.peer → k'.openForks = k.openForks → R k k'

namespace Carries
variable {σ : Type} {S : Station σ} {m : Mount} {clock : Nat → Nat} {fi : FileInfo} {path : Bytes}
  {p : Command → Prop} {R : State σ → State σ → Prop}

lemma call (h : Carries S p R) {c : Command} (hc : p c) : Moves R (call S c) := by
  intro k a k' hrun
  cases hrun
  exact h.command k c hc

lemma getDirid (h : Carries S p R) : Moves R (getDirid S clock fi path) := by
  intro k r k' hrun
  obtain ⟨⟨r', k₁⟩, hdir, heq⟩ := map_eq_ok hrun
  obtain ⟨⟨r'', c⟩, -, heq'⟩ := map_eq_ok hdir
  cases heq
  cases heq'
  exact h.idle _ _ rfl rfl

variable [IsPreorder (State σ) R]

lemma locate (h : Carries S p R) : Moves R (locate S clock fi path) := by
  refine .bind h.getDirid fun r => ?_
  cases r with
  | none => exact .throw _
  | some r => exact .pure r

variable (h : Carries S p R) (hp : ∀ c, c.aboutForks = false → p c)
include h hp

lemma getUnixprivs {dirid : Nat} : Moves R (getUnixprivs S dirid path) :=
  .bind (h.call (hp _ rfl)) fun _ => .pure _

lemma checkUnixprivs {dirid : Nat} {permissions : UInt32} {ret : Int} :
    Moves R (checkUnixprivs S m dirid path permissions ret) := by
  refine .bind .get fun k => .ite (fun _ => ?_) fun _ => .pure _
  refine .bind (h.getUnixprivs hp) fun r => .early fun _ => ?_
  exact .bind (.modify fun k => h.idle _ _ rfl rfl) fun _ => .early fun _ => .pure _

lemma setUnixprivs {dirid : Nat} {isdir : Bool} {u : Unixprivs} :
    Moves R (setUnixprivs S m dirid path isdir u) := by
  refine .early fun _ => .bind .get fun k => ?_
  exact .bind (h.call (hp _ rfl)) fun _ => h.checkUnixprivs hp

lemma creatMode {dirid : Nat} {mode : UInt32} : Moves R (creatMode S m dirid path mode) := by
  refine .early fun _ => .bind (h.getUnixprivs hp) fun r => .early fun _ => ?_
  exact .early fun _ => .bind (h.setUnixprivs hp) fun rc => .pure _

lemma mlCreat {mode : UInt32} : Moves R (mlCreat S m clock fi path mode) := by
  refine .bind (.lift (convertPathToAfp m.toVolume path)) fun converted => ?_
  cases converted with
  | none => exact .pure _
  | some converted =>
    refine .early fun _ => .bind (.lift (appledoubleCreat m path)) fun ret => ?_
    refine .early fun _ => .early fun _ => .early fun _ => ?_
    refine .bind h.locate fun place => .bind (h.call (hp _ rfl)) fun a => ?_
    exact .early fun _ => h.creatMode hp

end Carries

end AfpfsNg.Mid
