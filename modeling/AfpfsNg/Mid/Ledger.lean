import Mathlib.Data.Finset.Basic
import AfpfsNg.Mid.Traffic

/-!
# The forks that are open on the server

`Station.ledger` is a server with the set of forks that are open on it, and with the results of the requests about
forks. `Books` is what both sides keep about open forks: this set, and the client's list `volume->open_forks`. `Answered`
says what the answer to a request means for them, and `quiet` is code that leaves them alone.
-/

namespace AfpfsNg.Mid
open AfpfsNg.Base AfpfsNg.Afp AfpfsNg.Did AfpfsNg.Fork AfpfsNg.Proto

inductive Kind where
  | openfork
  | read
  | setforkparms
  | closefork
  deriving DecidableEq, Repr

/-- The forks that are open, and the results of requests so far. -/
structure Ledger where
  forks : Finset Nat
  results : List (Kind × Int)
  deriving DecidableEq

/-- A new fork has a new number, and only a fork that is open can be closed. -/
def Ledger.answer (l : Ledger) : Command → Reply → Reply
  | .fork (.openfork ..), a =>
    if a.code = kFPNoErr ∧ a.refnum ∈ l.forks then { a with code := kFPTooManyFilesOpen } else a
  | .fork (.closefork forkid), a =>
    if a.code = kFPNoErr ∧ forkid ∉ l.forks then { a with code := kFPParamErr } else a
  | _, a => a

def Ledger.after (l : Ledger) : Command → Reply → Ledger
  | .fork (.openfork ..), a =>
    ⟨if a.code = kFPNoErr then insert a.refnum l.forks else l.forks, l.results ++ [(.openfork, a.code)]⟩
  | .fork (.closefork forkid), a =>
    ⟨if a.code = kFPNoErr then l.forks.erase forkid else l.forks, l.results ++ [(.closefork, a.code)]⟩
  | .fork (.read ..), a => ⟨l.forks, l.results ++ [(.read, a.code)]⟩
  | .fork (.setforkparms ..), a => ⟨l.forks, l.results ++ [(.setforkparms, a.code)]⟩
  | _, _ => l

def Station.ledger {σ : Type} (S : Station σ) : Station (σ × Ledger) where
  query s := S.query s.1
  respond s c :=
    let (a, s') := S.respond s.1 c
    let a := { a with toReply := s.2.answer c a.toReply }
    (a, (s', s.2.after c a.toReply))

/-- What is kept about open forks on both sides. -/
structure Books extends Ledger where
  journal : List Nat

def books {σ : Type} (k : Client (σ × Ledger)) : Books := ⟨k.peer.2, k.openForks⟩

namespace Books

def Same (b b' : Books) : Prop := b'.forks = b.forks ∧ b'.journal = b.journal

def Added (b b' : Books) (fp : FileHandle) : Prop :=
  fp.forkid ∉ b.forks ∧ b'.forks = insert fp.forkid b.forks ∧ b'.journal = fp.addr :: b.journal

end Books

structure Answered (b b' : Books) (c : Command) (a : Reply) : Prop where
  honest : b.answer c a = a
  ledger : b'.toLedger = b.after c a
  journal : b'.journal = b.journal

namespace Answered
variable {b b' : Books} {a : Reply} {resource : Bool} {forkid dirid accessmode : Nat} {name : Bytes}

lemma forks_of_openfork (h : Answered b b' (.fork (.openfork resource dirid accessmode name)) a)
    (hcode : a.code = kFPNoErr) : a.refnum ∉ b.forks ∧ b'.forks = insert a.refnum b.forks := by
  refine ⟨fun hmem => ?_, ?_⟩
  · have hcode' := congrArg Reply.code h.honest
    rw [Ledger.answer, if_pos ⟨hcode, hmem⟩, hcode] at hcode'
    cases hcode'
  · rw [h.ledger, Ledger.after, if_pos hcode]

lemma same_of_refusal (h : Answered b b' (.fork (.openfork resource dirid accessmode name)) a)
    (hcode : a.code ≠ kFPNoErr) : b.Same b' :=
  ⟨by rw [h.ledger, Ledger.after, if_neg hcode], h.journal⟩

lemma forks_of_closefork (h : Answered b b' (.fork (.closefork forkid)) a) (hcode : a.code = kFPNoErr) :
    forkid ∈ b.forks ∧ b'.forks = b.forks.erase forkid := by
  refine ⟨by_contra fun hmem => ?_, ?_⟩
  · have hcode' := congrArg Reply.code h.honest
    rw [Ledger.answer, if_pos ⟨hcode, hmem⟩, hcode] at hcode'
    cases hcode'
  · rw [h.ledger, Ledger.after, if_pos hcode]

lemma same_of_closefork (h : Answered b b' (.fork (.closefork forkid)) a) (hcode : a.code ≠ kFPNoErr) : b.Same b' :=
  ⟨by rw [h.ledger, Ledger.after, if_neg hcode], h.journal⟩

end Answered

lemma Ledger.answer_answer (l : Ledger) (c : Command) (a : Reply) : l.answer c (l.answer c a) = l.answer c a := by
  -- only the answers to two requests are changed, and never to a success
  rcases c with r | _ | _ | _ | _ | _ | _
  case fork =>
    cases r with
    | openfork =>
      simp only [Ledger.answer]
      split
      case isTrue => exact if_neg nofun
      case isFalse => rfl
    | closefork =>
      simp only [Ledger.answer]
      split
      case isTrue => exact if_neg nofun
      case isFalse => rfl
    | _ => rfl
  all_goals rfl

section Requests
variable {σ : Type} {S : Station σ}

lemma answered_call (k : Client (σ × Ledger)) (r : Fork.Request) :
    Answered (books k) (books (k.call S.ledger.peer r).2) (.fork r) (k.call S.ledger.peer r).1 :=
  ⟨Ledger.answer_answer .., rfl, rfl⟩

lemma ensures_call {k : State (σ × Ledger)} {c : Command} {Q : Answer → State (σ × Ledger) → Prop}
    (h : ∀ a k', Answered (books k.toClient) (books k'.toClient) c a.toReply → Q a k') :
    Ensures (call S.ledger c) k Q := by
  intro a k' hrun
  cases hrun
  exact h _ _ ⟨Ledger.answer_answer .., rfl, rfl⟩

end Requests

lemma Ledger.after_of_not_aboutForks {l : Ledger} {c : Command} {a : Reply} (hc : c.aboutForks = false) :
    l.after c a = l := by
  unfold Ledger.after
  split
  case h_1 => cases hc
  case h_2 => cases hc
  case h_3 => cases hc
  case h_4 => cases hc
  case h_5 => rfl

section Quiet
variable {σ α : Type} {S : Station σ}

def Quiet (k k' : State (σ × Ledger)) : Prop := books k'.toClient = books k.toClient

instance : IsPreorder (State (σ × Ledger)) Quiet where
  refl _ := rfl
  trans _ _ _ h h' := Eq.trans h' h

lemma quiet : Carries S.ledger (fun c => c.aboutForks = false) Quiet where
  command k c hc := by
    show Books.mk (k.peer.2.after c _) k.openForks = _
    rw [Ledger.after_of_not_aboutForks hc]
    rfl
  idle k k' hpeer hforks := by
    show Books.mk k'.peer.2 k'.openForks = Books.mk k.peer.2 k.openForks
    rw [hpeer, hforks]

lemma getDirid_books {clock : Nat → Nat} {fi : FileInfo} {path : Bytes} {k k' : Client (σ × Ledger)}
    {r : Option (Nat × Bytes)} (h : k.getDirid S.ledger.peer clock fi path = .ok (r, k')) : books k' = books k := by
  obtain ⟨⟨r', c⟩, -, heq⟩ := map_eq_ok h
  cases heq
  rfl

lemma ensures_onClient {τ : Type} {k : State τ} {f : Client τ → Except Fault (α × Client τ)} {Q : α → State τ → Prop}
    (h : ∀ r k', f k.toClient = .ok (r, k') → Q r { k with toClient := k' }) : Ensures (onClient f) k Q := by
  intro r k' hrun
  obtain ⟨⟨r', k₁⟩, hf, heq⟩ := map_eq_ok hrun
  cases heq
  exact h _ _ hf

end Quiet

end AfpfsNg.Mid
