import AfpfsNg.Fork.Truncate
import AfpfsNg.Mid.Ledger
import AfpfsNg.Mid.Links
import AfpfsNg.Mid.Open

/-!
# The list of open forks

`volume->open_forks` (`lib/forklist.c`) is what `remove_fork_list` closes when a volume is unmounted. An operation that opens
a fork puts its record there, and one that closes it takes it out. Between the two the server can refuse any request.
-/

namespace AfpfsNg.Mid
open AfpfsNg.Base AfpfsNg.Afp AfpfsNg.Did AfpfsNg.Fork AfpfsNg.Proto

/-- The calls that open or close forks, with their arguments. -/
inductive ForkCall where
  | open (rounds : Nat) (fi fi' : FileInfo) (path : Bytes) (flags : Flags)
  | readlink (fi : FileInfo) (addr junk : Nat) (path : Bytes) (size : Nat)
  | symlink (fi : FileInfo) (addr junk : Nat) (path1 path2 : Bytes)
  | truncate (fi : FileInfo) (path : Bytes) (offset : Nat)
  | close (path : Bytes) (fp : Option FileHandle)

/-- A file with a fork on the server, which the other invented files are not. -/
def HasFork (fp : FileHandle) : Prop := fp.resource = .none ∨ fp.resource = .resource

instance (fp : FileHandle) : Decidable (HasFork fp) := inferInstanceAs (Decidable (_ ∨ _))

namespace ForkCall

def run {σ : Type} (S : Station σ) (m : Mount) (clock : Nat → Nat) : ForkCall → Op σ (Int × Option FileHandle)
  | .open rounds fi fi' path flags => mlOpen S m clock rounds fi fi' path flags
  | .readlink fi addr junk path size => (fun r => (r.1, none)) <$> mlReadlink S m clock fi addr junk path size
  | .symlink fi addr junk path1 path2 => (fun ret => (ret, none)) <$> mlSymlink S m clock fi addr junk path1 path2
  | .truncate fi path offset =>
    (fun ret => (ret, none)) <$> onClient fun k => mlTruncate S.peer m.toVolume clock fi k path offset
  | .close path fp => (fun ret => (ret, none)) <$> mlClose S m path fp

/-- What a call may do to the open forks. -/
def Matches (b b' : Books) (r : Int × Option FileHandle) : ForkCall → Prop
  | .open .. =>
    (r.1 < 0 → b.Same b') ∧ (r.1 = 0 → ∃ fp ∈ r.2, if HasFork fp then b.Added b' fp else b.Same b')
  | .readlink .. | .symlink .. | .truncate .. => b.Same b'
  | .close _ fp => r.1 = 0 → ∀ h ∈ fp, HasFork h → h.forkid ∉ b'.forks ∧ h.addr ∉ b'.journal

/-- The codes with which `ml_readlink` takes a fork for open that is not. -/
def mistaken : List Int := [kFPVolLocked, kFPDenyConflict, kFPMiscErr, kFPBitmapErr]

/-- The results for which the calls are right. -/
def Benign : ForkCall → Kind × Int → Prop
  | .open .., (.setforkparms, code) => code ∉ zeroFileErrors.map Prod.fst
  | .readlink .., (.openfork, code) => code ∉ mistaken
  | .readlink .., (.read, code) => code ∉ readErrors.map Prod.fst
  | .readlink .., (.closefork, code) => code = kFPNoErr
  | .symlink .., (.openfork, code) => code = kFPNoErr
  | .symlink .., (.closefork, code) => code = kFPNoErr
  | .truncate .., (.setforkparms, code) => code ∉ zeroFileErrors.map Prod.fst
  | .truncate .., (.closefork, code) => code = kFPNoErr
  | _, _ => True

/-- A resource fork is truncated with what it is open or not, and is never taken out of the list. -/
def Sound (m : Mount) (journal : List Nat) (results : List (Kind × Int)) : ForkCall → Prop
  | .truncate fi path offset =>
    if (extraTranslate m.toVolume path).map Prod.fst = .ok .resource then
      ((.openfork, kFPNoErr) ∈ results ↔ (.closefork, kFPNoErr) ∈ results)
    else ∀ x ∈ results, Benign (.truncate fi path offset) x
  | .close _ fp => (.closefork, kFPNoErr) ∈ results → ∀ h ∈ fp, h.resource = .resource → h.addr ∉ journal
  | c => ∀ x ∈ results, Benign c x

end ForkCall

/-- How opening a fork can end: it is refused; it is added; or it is added and its length cannot be set. -/
inductive Opens (b b' : Books) (fp : FileHandle) : Int → Prop where
  | refused {ret : Int} {new : List (Kind × Int)} (hret : ret < 0) (hsame : b.Same b')
      (hresults : b'.results = b.results ++ new) (hnew : ∀ x ∈ new, x.1 = .openfork) : Opens b b' fp ret
  | added {new : List (Kind × Int)} (hfork : HasFork fp) (hadded : b.Added b' fp)
      (hresults : b'.results = b.results ++ new)
      (hnew : ∀ x ∈ new, x.1 = .openfork ∨ x.1 = .setforkparms ∧ x.2 ∉ zeroFileErrors.map Prod.fst) : Opens b b' fp 0
  | leaked {ret code : Int} {new : List (Kind × Int)} (hret : ret < 0) (hadded : b.Added b' fp)
      (hresults : b'.results = b.results ++ new) (hmem : (.setforkparms, code) ∈ new)
      (hcode : code ∈ zeroFileErrors.map Prod.fst) : Opens b b' fp ret

namespace Opens
variable {b b₁ b' : Books} {fp : FileHandle} {ret : Int}

lemma after_refusal {code : Int} (hsame : b.Same b₁) (hresults₁ : b₁.results = b.results ++ [(.openfork, code)])
    (h : Opens b₁ b' fp ret) : Opens b b' fp ret := by
  have happend : ∀ {new}, b'.results = b₁.results ++ new → b'.results = b.results ++ ((.openfork, code) :: new) := by
    intro new hnew
    rw [hnew, hresults₁, List.append_assoc]
    rfl
  have hadd : b₁.Added b' fp → b.Added b' fp := by
    rintro ⟨hfresh, hforks, hjournal⟩
    rw [hsame.1] at hfresh hforks
    rw [hsame.2] at hjournal
    exact ⟨hfresh, hforks, hjournal⟩
  cases h with
  | refused hret hsame' hresults hnew =>
    refine .refused hret ⟨hsame'.1.trans hsame.1, hsame'.2.trans hsame.2⟩ (happend hresults) fun x hx => ?_
    cases hx with
    | head => rfl
    | tail _ hx => exact hnew x hx
  | added hfork hadded hresults hnew =>
    refine .added hfork (hadd hadded) (happend hresults) fun x hx => ?_
    cases hx with
    | head => exact .inl rfl
    | tail _ hx => exact hnew x hx
  | leaked hret hadded hresults hmem hcode =>
    exact .leaked hret (hadd hadded) (happend hresults) (.tail _ hmem) hcode

end Opens

section Opening
variable {σ α : Type} {S : Station σ} {m : Mount} {clock : Nat → Nat} {rounds : Nat} {fi fi' : FileInfo}
  {path : Bytes} {flags : Flags} {fp : FileHandle} {k : State (σ × Ledger)}

lemma llZeroFile_books (k : Client (σ × Ledger)) (v : Volume) (forkid : Nat) (resource : Bool) :
    ∃ code, (llZeroFile S.ledger.peer v k forkid resource).1 = switch zeroFileErrors 0 code ∧
      books (llZeroFile S.ledger.peer v k forkid resource).2 =
        { books k with results := (books k).results ++ [(.setforkparms, code)] } :=
  ⟨_, rfl, rfl⟩

lemma opened_ensures (hfork : HasFork fp) {b : Books} {code : Int} (hfresh : fp.forkid ∉ b.forks)
    (hforks : (books k.toClient).forks = insert fp.forkid b.forks)
    (hjournal : (books k.toClient).journal = b.journal)
    (hresults : (books k.toClient).results = b.results ++ [(.openfork, code)]) :
    Ensures (opened S.ledger m flags.toOpenFlags fp) k fun r k' => r.2 = fp ∧ Opens b (books k'.toClient) fp r.1 := by
  have hjournal' : fp.addr :: k.openForks = fp.addr :: b.journal := congrArg (fp.addr :: ·) hjournal
  refine .bind (.modify (.ite (fun _ => .bind (ensures_onClient fun ret k' hzero => .pure ⟨rfl, ?_⟩)) fun _ => ?_))
  · obtain ⟨code', hret, hbooks⟩ := llZeroFile_books (S := S)
      { k with openForks := fp.addr :: k.openForks } m.toVolume fp.forkid (fp.resource ≠ .none)
    rw [Except.ok.inj hzero] at hret hbooks
    obtain ⟨hnonneg, hnone⟩ := zeroFileErrors_spec code'
    have hadded : b.Added (books k') fp := by
      rw [hbooks]
      exact ⟨hfresh, hforks, hjournal'⟩
    have hresults' : (books k').results = b.results ++ [(.openfork, code), (.setforkparms, code')] := by
      rw [hbooks]
      show (books k.toClient).results ++ _ = _
      rw [hresults, List.append_assoc]
      rfl
    show Opens b (books k') fp (-ret)
    rw [show ret = _ from hret]
    by_cases hbad : code' ∈ zeroFileErrors.map Prod.fst
    · have hne : switch zeroFileErrors 0 code' ≠ 0 := fun h => hnone.mp h hbad
      exact .leaked (by omega) hadded hresults' (.tail _ (.head _)) hbad
    · rw [hnone.mpr hbad]
      refine .added hfork hadded hresults' fun x hx => ?_
      rcases List.mem_pair.mp hx with rfl | rfl
      · exact .inl rfl
      · exact .inr ⟨rfl, hbad⟩
  · refine .pure ⟨rfl, .added hfork ⟨hfresh, hforks, hjournal'⟩ hresults fun x hx => .inl ?_⟩
    cases List.mem_singleton.mp hx
    rfl

lemma tryOpen_ensures (hfork : HasFork fp) :
    Ensures (tryOpen S.ledger m clock fi path flags fp rounds) k fun r k' =>
      Opens (books k.toClient) (books k'.toClient) r.2 r.1 := by
  induction rounds generalizing k fp with
  | zero => exact .throw _
  | succ rounds ih =>
    refine .bind (ensures_onClient fun a k₁ hopen => ?_)
    have hans := answered_call (S := S) k.toClient
      (.openfork (fp.resource ≠ .none) fp.did (if flags.wronly ∨ flags.rdwr then 3 else 1) fp.basename)
    rw [Except.ok.inj hopen] at hans
    have hresults : (books k₁).results = (books k.toClient).results ++ [(.openfork, a.code)] :=
      congrArg Ledger.results hans.ledger
    obtain ⟨hnonneg, hzero⟩ := openErrors_spec a.code
    have hfork' : HasFork (if a.code = kFPNoErr ∨ a.code = kFPDenyConflict then { fp with forkid := a.refnum } else fp) := by
      split
      · exact hfork
      · exact hfork
    refine .ite (fun hagain => ?_) fun _ => .ite (fun herr => .pure ?_) fun hok => ?_
    · -- the file is not there: it is created, and the loop goes on
      have hne : a.code ≠ kFPNoErr := by
        rw [hagain.1]
        nofun
      have hsame := hans.same_of_refusal hne
      refine .bind (((quiet.mlCreat fun _ hc => hc).ensures _).imp fun ret k₂ hquiet => ?_)
      have hquiet : books k₂.toClient = books k₁ := hquiet
      rw [← hquiet] at hsame hresults
      refine .ite (fun _ => (ih hfork').imp fun r k' h => h.after_refusal hsame hresults) fun _ => .pure ?_
      refine .refused (show (-ENOENT : Int) < 0 by decide) hsame hresults fun x hx => ?_
      cases List.mem_singleton.mp hx
      rfl
    · have hsame := hans.same_of_refusal fun h => herr (hzero.mpr h)
      refine .refused (show -switch openErrors EFAULT a.code < 0 by omega) hsame hresults fun x hx => ?_
      cases List.mem_singleton.mp hx
      rfl
    · have hcode : a.code = kFPNoErr := hzero.mp (not_not.mp hok)
      obtain ⟨hfresh, hforks⟩ := hans.forks_of_openfork hcode
      rw [if_pos (.inl hcode)] at hfork' ⊢
      refine (opened_ensures hfork' hfresh hforks hans.journal hresults).imp fun r k' h => ?_
      rw [h.1]
      exact h.2

lemma checkSize_books (k : Client (σ × Ledger)) (v : Volume) (flags : OpenFlags) (hfork : HasFork fp) :
    books (checkSize S.ledger.peer v k flags fp).2 = books k ∧ HasFork (checkSize S.ledger.peer v k flags fp).1.2 ∧
      0 ≤ (checkSize S.ledger.peer v k flags fp).1.1 := by
  simp only [checkSize]
  split
  · generalize (if fp.resource = .none then 0x200 else 0x400) = bit
    have hbooks : books (k.call S.ledger.peer (.getfiledirparms fp.did (0x2 ||| 0x100 ||| bit) 0 fp.basename)).2 =
      books k := rfl
    generalize k.call S.ledger.peer _ = r at hbooks ⊢
    have hnonneg : 0 ≤ switch [(kFPAccessDenied, EACCES), (kFPObjectNotFound, ENOENT), (kFPNoErr, 0)] EIO r.1.code :=
      switch_spec (fun _ e => 0 ≤ e) (by decide) fun _ => by decide
    generalize (if fp.resource = .none then _ else _ : Nat) = size
    generalize switch _ _ _ = ret at hnonneg ⊢
    by_cases hret : ret = 0
    · rw [if_neg (not_not.mpr hret)]
      refine ⟨hbooks, .inl rfl, ?_⟩
      show 0 ≤ (if _ then _ else _ : Int)
      split
      · decide
      · exact Int.le_refl 0
    · rw [if_pos hret]
      exact ⟨hbooks, hfork, hnonneg⟩
  · exact ⟨rfl, hfork, Int.le_refl 0⟩

lemma llOpen_ensures (hfork : HasFork fp) :
    Ensures (llOpen S.ledger m clock rounds fi path flags fp) k fun r k' =>
      Opens (books k.toClient) (books k'.toClient) r.2 r.1 := by
  refine .bind (ensures_onClient fun r k₁ hsize => ?_)
  obtain ⟨hbooks, hfork', hnonneg⟩ := checkSize_books (S := S) k.toClient m.toVolume flags.toOpenFlags hfork
  rw [Except.ok.inj hsize] at hbooks hfork' hnonneg
  have hbooks : books k₁ = books k.toClient := hbooks
  have hnonneg : 0 ≤ r.1 := hnonneg
  rw [← hbooks]
  refine .ite (fun hret => .pure ?_) fun _ => tryOpen_ensures hfork'
  exact .refused (show -r.1 < 0 by omega) ⟨rfl, rfl⟩ (List.append_nil _).symm nofun

lemma forkAppledoubleOpen_books {k k' : Client (σ × Ledger)} {v : Volume} {flags : OpenFlags} {r : Int × FileHandle}
    (hkind : ∀ newpath, extraTranslate v path ≠ .ok (.resource, newpath))
    (h : Fork.appledoubleOpen S.ledger.peer v clock fi k path flags fp = .ok (r, k')) :
    books k' = books k ∧ (r.1 < 0 ∨ r.1 = 0 ∧ r.2.resource = .none ∨
      r.1 = 1 ∧ ¬ HasFork r.2 ∧ ∀ newpath, extraTranslate v path ≠ .ok (.none, newpath)) := by
  obtain ⟨⟨kind, newpath⟩, hx, h⟩ := bind_eq_ok h
  have hinvented : kind ≠ .none → ∀ p, extraTranslate v path ≠ .ok (.none, p) := by
    intro hne p hp
    rw [hx] at hp
    exact hne (congrArg Prod.fst (Except.ok.inj hp))
  cases kind with
  | none =>
    cases h
    exact ⟨rfl, .inr (.inl ⟨rfl, rfl⟩)⟩
  | appledouble =>
    cases h
    exact ⟨rfl, .inl (show (-EISDIR : Int) < 0 by decide)⟩
  | resource => exact absurd hx (hkind newpath)
  | serverIcon =>
    cases h
    exact ⟨rfl, .inr (.inr ⟨rfl, nofun, hinvented nofun⟩)⟩
  | finderinfo =>
    obtain ⟨⟨found, k₁⟩, hget, h⟩ := bind_eq_ok h
    cases found with
    | none =>
      cases h
      exact ⟨getDirid_books hget, .inl (show (-ENOENT : Int) < 0 by decide)⟩
    | some found =>
      cases h
      exact ⟨getDirid_books hget, .inr (.inr ⟨rfl, nofun, hinvented nofun⟩)⟩
  | comment =>
    obtain ⟨⟨found, k₁⟩, hget, h⟩ := bind_eq_ok h
    cases found with
    | none =>
      cases h
      exact ⟨getDirid_books hget, .inl (show (-ENOENT : Int) < 0 by decide)⟩
    | some found =>
      dsimp only at h
      split at h
      · cases h
        have hbooks : books k₁ = books k := getDirid_books hget
        refine ⟨hbooks, ?_⟩
        have hret : ∀ code, 0 < switch [(kFPParamErr, EIO), (kFPMiscErr, EIO)] (-1) code ∨
            switch [(kFPParamErr, EIO), (kFPMiscErr, EIO)] (-1) code = -1 := fun code =>
          switch_spec (fun _ e => 0 < e ∨ e = -1) (by decide) fun _ => .inr rfl
        rcases hret (k₁.call S.ledger.peer .opendt).1.code with hpos | heq
        · exact .inl (Int.neg_neg_of_pos hpos)
        · exact .inr (.inr ⟨congrArg Neg.neg heq, nofun, hinvented nofun⟩)
      · cases h
        exact ⟨getDirid_books hget, .inr (.inr ⟨rfl, nofun, hinvented nofun⟩)⟩

/-- How `ml_open` can end: as `ll_open` does, with an error before it, or with an invented file. -/
inductive MlOpens (m : Mount) (path : Bytes) (b b' : Books) : Int × Option FileHandle → Prop where
  | opens {ret : Int} {fp : FileHandle} (h : Opens b b' fp ret) : MlOpens m path b b' (ret, some fp)
  | failed {r : Int × Option FileHandle} (hret : r.1 < 0) (hbooks : b' = b) : MlOpens m path b b' r
  | invented {fp : FileHandle} (hfork : ¬ HasFork fp)
      (hkind : ∀ newpath, extraTranslate m.toVolume path ≠ .ok (.none, newpath)) (hbooks : b' = b) :
      MlOpens m path b b' (0, some fp)

lemma Opens.nonpos {b b' : Books} {ret : Int} (h : Opens b b' fp ret) : ret ≤ 0 := by
  cases h with
  | refused hret => exact hret.le
  | added => exact Int.le_refl 0
  | leaked hret => exact hret.le

/-- How `appledouble_open` can end: with a negative result, with 1, or with 0 if nothing was opened yet. -/
inductive AppledoubleOpens (m : Mount) (path : Bytes) (b b' : Books) : Int × FileHandle → Prop where
  | failed {ret : Int} {fp : FileHandle} (hret : ret < 0) (h : MlOpens m path b b' (ret, some fp)) :
      AppledoubleOpens m path b b' (ret, fp)
  | done {fp : FileHandle} (h : MlOpens m path b b' (0, some fp)) : AppledoubleOpens m path b b' (1, fp)
  | notYet {fp : FileHandle} (hkind : fp.resource = .none) (hbooks : b' = b) : AppledoubleOpens m path b b' (0, fp)

lemma appledoubleOpen_ensures :
    Ensures (appledoubleOpen S.ledger m clock rounds fi fi' path flags fp) k fun r k' =>
      AppledoubleOpens m path (books k.toClient) (books k'.toClient) r := by
  refine .bind (.lift fun r hx => ?_)
  obtain ⟨kind, newpath⟩ := r
  have hother : kind ≠ .resource → Ensures
      (onClient fun k => Fork.appledoubleOpen S.ledger.peer m.toVolume clock fi k path flags.toOpenFlags fp) k
      fun r k' => AppledoubleOpens m path (books k.toClient) (books k'.toClient) r := by
    refine fun hne => ensures_onClient fun r k₁ hrun => ?_
    have hres : ∀ p, extraTranslate m.toVolume path ≠ .ok (.resource, p) := by
      intro p hp
      rw [hx] at hp
      exact hne (congrArg Prod.fst (Except.ok.inj hp))
    obtain ⟨ret, fp'⟩ := r
    obtain ⟨hbooks, hneg | ⟨rfl, hnone⟩ | ⟨rfl, hfork, hkind⟩⟩ := forkAppledoubleOpen_books hres hrun
    · exact .failed hneg (.failed hneg hbooks)
    · exact .notYet hnone hbooks
    · exact .done (.invented hfork hkind hbooks)
  cases kind with
  | resource =>
    refine .bind ((quiet.getDirid.ensures k).imp fun found k₁ hquiet => ?_)
    have hquiet : books k₁.toClient = books k.toClient := hquiet
    cases found with
    | none =>
      have hneg : (-ENOENT : Int) < 0 := by decide
      exact .pure (.failed hneg (.failed hneg hquiet))
    | some found =>
      refine .bind ((llOpen_ensures (.inr rfl)).imp fun r k' hopens => .pure ?_)
      rw [hquiet] at hopens
      obtain ⟨ret, fp'⟩ := r
      dsimp only at hopens ⊢
      split
      case isTrue hret => exact .failed hret (.opens hopens)
      case isFalse hret =>
        cases Int.le_antisymm hopens.nonpos (Int.not_lt.mp hret)
        exact .done (.opens hopens)
  | none => exact hother nofun
  | appledouble => exact hother nofun
  | finderinfo => exact hother nofun
  | comment => exact hother nofun
  | serverIcon => exact hother nofun

lemma mlOpen_ensures :
    Ensures (mlOpen S.ledger m clock rounds fi fi' path flags) k fun r k' =>
      MlOpens m path (books k.toClient) (books k'.toClient) r := by
  refine .bind (.lift fun converted _ => ?_)
  cases converted with
  | none => exact .pure (.failed (show (-EINVAL : Int) < 0 by decide) rfl)
  | some converted =>
    refine .ite (fun _ => .pure (.failed (show (-ENAMETOOLONG : Int) < 0 by decide) rfl)) fun _ =>
      .ite (fun _ => .pure (.failed (show (-EACCES : Int) < 0 by decide) rfl)) fun _ => ?_
    refine .bind (.get (.bind (.modify (.bind ?_))))
    refine appledoubleOpen_ensures.imp fun r k₁ hr => ?_
    cases hr with
    | failed hret h => exact .ite (fun _ => .pure h) fun hn => absurd hret hn
    | done h => exact .ite (fun hn => absurd hn (by decide)) fun _ => .ite (fun _ => .pure h) fun hn => absurd rfl hn
    | @notYet fp hkind hbooks =>
      refine .ite (fun hn => absurd hn (by decide)) fun _ => .ite (fun hn => absurd hn (by decide)) fun _ => ?_
      refine .bind ((quiet.getDirid.ensures k₁).imp fun found k₂ hquiet => ?_)
      have hquiet : books k₂.toClient = books k.toClient := Eq.trans hquiet hbooks
      cases found with
      | none => exact .pure (.failed (show (-ENOENT : Int) < 0 by decide) hquiet)
      | some found =>
        have hfork : HasFork { fp with did := found.1, basename := found.2 } := .inl hkind
        refine .bind ((llOpen_ensures hfork).imp fun r k' hopens => .pure ?_)
        rw [hquiet] at hopens
        obtain ⟨ret, fp'⟩ := r
        dsimp only at hopens ⊢
        split
        case isTrue => exact .opens hopens
        case isFalse hret =>
          cases Int.le_antisymm hopens.nonpos (Int.not_lt.mp hret)
          exact .opens hopens

end Opening

lemma Books.Added.not_same {b b' : Books} {fp : FileHandle} (h : b.Added b' fp) : ¬ b.Same b' := by
  intro hsame
  have hcons : b.journal = fp.addr :: b.journal := hsame.2.symm.trans h.2.2
  exact List.cons_ne_self _ _ hcons.symm

/-- A call has asked for a fork, with the result `code`, and put its record at `addr` into the list. -/
structure Borrowed (b b' : Books) (addr forkid : Nat) (code : Int) : Prop where
  journal : b'.journal = addr :: b.journal
  isOpen : code = kFPNoErr → forkid ∉ b.forks ∧ b'.forks = insert forkid b.forks
  notOpen : code ≠ kFPNoErr → b'.forks = b.forks

namespace Borrowed
variable {b b₁ b' : Books} {addr forkid : Nat} {code : Int}

lemma kept (h : Borrowed b b₁ addr forkid code) (hsame : b₁.Same b') : Borrowed b b' addr forkid code where
  journal := hsame.2.trans h.journal
  isOpen hcode := ⟨(h.isOpen hcode).1, hsame.1.trans (h.isOpen hcode).2⟩
  notOpen hcode := hsame.1.trans (h.notOpen hcode)

lemma not_same (h : Borrowed b b' addr forkid code) : ¬ b.Same b' := by
  intro hsame
  have hcons : addr :: b.journal = b.journal := h.journal.symm.trans hsame.2
  exact List.cons_ne_self _ _ hcons

end Borrowed

/-- How closing a fork of a call's own can end. -/
inductive Closes (b b' : Books) (addr forkid : Nat) : Int → Prop where
  | closed (hmem : forkid ∈ b.forks) (hforks : b'.forks = b.forks.erase forkid)
      (hjournal : b'.journal = b.journal.erase addr)
      (hresults : b'.results = b.results ++ [(.closefork, kFPNoErr)]) : Closes b b' addr forkid 0
  | failed {code : Int} (hcode : code ≠ kFPNoErr) (hsame : b.Same b')
      (hresults : b'.results = b.results ++ [(.closefork, code)]) : Closes b b' addr forkid EIO

lemma Borrowed.same_iff {b b₁ b' : Books} {addr forkid : Nat} {code ret : Int} (h : Borrowed b b₁ addr forkid code)
    (hclose : Closes b₁ b' addr forkid ret) :
    ∃ code', b'.results = b₁.results ++ [(.closefork, code')] ∧ (b.Same b' ↔ code = kFPNoErr ∧ code' = kFPNoErr) := by
  cases hclose with
  | @failed code' hcode hsame hresults =>
    exact ⟨code', hresults, iff_of_false (h.kept hsame).not_same fun hok => hcode hok.2⟩
  | closed hmem hforks hjournal hresults =>
    refine ⟨kFPNoErr, hresults, ?_, ?_⟩
    · intro hsame
      refine ⟨by_contra fun hne => ?_, rfl⟩
      -- a number that some other fork has
      rw [h.notOpen hne] at hmem hforks
      rw [← hsame.1, hforks] at hmem
      exact Finset.notMem_erase forkid b.forks hmem
    · rintro ⟨hcode, -⟩
      obtain ⟨hfresh, hopen⟩ := h.isOpen hcode
      rw [hopen, Finset.erase_insert hfresh] at hforks
      rw [h.journal, List.erase_cons_head] at hjournal
      exact ⟨hforks, hjournal⟩

section Own
variable {σ : Type} {S : Station σ} {m : Mount} {clock : Nat → Nat} {fi : FileInfo} {path : Bytes}
  {k : State (σ × Ledger)} {addr forkid junk : Nat}

lemma closeOwn_ensures :
    Ensures (closeOwn S.ledger addr forkid) k fun ret k' =>
      Closes (books k.toClient) (books k'.toClient) addr forkid ret := by
  refine .bind (ensures_call fun a k₁ hans => .ite (fun hcode => ?_) fun hcode => .pure ?_)
  · obtain ⟨hmem, hforks⟩ := hans.forks_of_closefork hcode
    have hresults : (books k₁.toClient).results = _ := congrArg Ledger.results hans.ledger
    rw [Ledger.after, hcode] at hresults
    exact .bind (.modify (.pure (.closed hmem hforks (congrArg (List.erase · addr) hans.journal) hresults)))
  · exact .failed hcode (hans.same_of_closefork hcode) (congrArg Ledger.results hans.ledger)

lemma Answered.same_of_read {b b' : Books} {a : Reply} {ext : Bool} {offset count : Nat}
    (h : Answered b b' (.fork (.read ext forkid offset count)) a) : b.Same b' := by
  refine ⟨?_, h.journal⟩
  rw [h.ledger]
  rfl

lemma Answered.borrowed {b b' : Books} {a : Reply} {resource : Bool} {dirid accessmode : Nat} {name : Bytes}
    (h : Answered b b' (.fork (.openfork resource dirid accessmode name)) a) (addr junk : Nat) :
    Borrowed b ⟨b'.toLedger, addr :: b'.journal⟩ addr (if a.code = kFPNoErr then a.refnum else junk) a.code where
  journal := congrArg (addr :: ·) h.journal
  isOpen hcode := by
    rw [if_pos hcode]
    exact h.forks_of_openfork hcode
  notOpen hcode := (h.same_of_refusal hcode).1

lemma readlinkErrors_spec (code : Int) :
    switch readlinkErrors EFAULT code = 0 ↔ code = kFPNoErr ∨ code ∈ ForkCall.mistaken := by
  refine switch_spec (fun c e => e = 0 ↔ c = kFPNoErr ∨ c ∈ ForkCall.mistaken) (by decide) fun hnone => ?_
  refine iff_of_false (by decide) ?_
  rintro (rfl | hmem)
  · exact hnone (kFPNoErr, 0) (by decide) rfl
  · have hall : ∀ c ∈ ForkCall.mistaken, (c, 0) ∈ readlinkErrors := by decide
    exact hnone _ (hall code hmem) rfl

lemma readErrors_spec (code : Int) : switch readErrors 0 code = 0 ↔ code ∉ readErrors.map Prod.fst := by
  refine ⟨fun hzero hc => ?_, switch_default⟩
  exact (show ∀ x ∈ readErrors, x.2 ≠ 0 by decide) _ (switch_mem hc) hzero

/-- What is known at the end of a call: its results, and when they are the ones the call is right for. -/
def Settles (m : Mount) (c : ForkCall) (b b' : Books) (r : Int × Option FileHandle) : Prop :=
  ∃ new, b'.results = b.results ++ new ∧ (c.Matches b b' r ↔ c.Sound m b.journal new)

lemma Settles.nothing {c : ForkCall} {b b' : Books} {r : Int × Option FileHandle} (h : b' = b)
    (hmatches : c.Matches b b r) (hsound : c.Sound m b.journal []) : Settles m c b b' r := by
  rw [h]
  exact ⟨[], (List.append_nil _).symm, iff_of_true hmatches hsound⟩

lemma readlink_settles {size : Nat} :
    Ensures (ForkCall.run S.ledger m clock (.readlink fi addr junk path size)) k fun r k' =>
      Settles m (.readlink fi addr junk path size) (books k.toClient) (books k'.toClient) r := by
  refine .map (.bind (.lift fun converted _ => ?_))
  cases converted with
  | none => exact .pure (.nothing rfl ⟨rfl, rfl⟩ nofun)
  | some converted =>
    refine .bind ((quiet.locate.ensures k).imp fun place k₁ hquiet => ?_)
    have hquiet : books k₁.toClient = books k.toClient := hquiet
    refine .bind (ensures_call fun a k₂ hans => ?_)
    rw [hquiet] at hans
    have hresults₂ : (books k₂.toClient).results = (books k.toClient).results ++ [(.openfork, a.code)] :=
      congrArg Ledger.results hans.ledger
    refine .ite (fun hret => .pure ⟨_, hresults₂, iff_of_true ?_ ?_⟩) fun hret => ?_
    · exact hans.same_of_refusal fun h => hret ((readlinkErrors_spec _).mpr (.inl h))
    · intro x hx
      cases List.mem_singleton.mp hx
      exact fun h => hret ((readlinkErrors_spec _).mpr (.inr h))
    · have hgoes : a.code = kFPNoErr ∨ a.code ∈ ForkCall.mistaken := (readlinkErrors_spec _).mp (not_not.mp hret)
      refine .bind (.modify (.bind (ensures_call fun r k₃ hread => .ite (fun _ => .throw _) fun _ => ?_)))
      have hborrowed : Borrowed (books k.toClient) (books k₃.toClient) addr
          (if a.code = kFPNoErr then a.refnum else junk) a.code :=
        (hans.borrowed addr junk).kept hread.same_of_read
      have hresults₃ : (books k₃.toClient).results =
          (books k.toClient).results ++ [(.openfork, a.code), (.read, r.code)] := by
        have hresults : (books k₃.toClient).results = (books k₂.toClient).results ++ [(.read, r.code)] :=
          congrArg Ledger.results hread.ledger
        rw [hresults, hresults₂, List.append_assoc]
        rfl
      refine .ite (fun herr => .pure ⟨_, hresults₃, iff_of_false hborrowed.not_same fun hsound => ?_⟩) fun hok => ?_
      · have hcode : r.code ∉ readErrors.map Prod.fst := hsound _ (.tail _ (.head _))
        exact herr ((readErrors_spec _).mpr hcode)
      · have hcode : r.code ∉ readErrors.map Prod.fst := (readErrors_spec _).mp (not_not.mp hok)
        refine .bind (closeOwn_ensures.imp fun ret k' hclose => ?_)
        obtain ⟨code, hresults, hiff⟩ := hborrowed.same_iff hclose
        rw [hresults₃, List.append_assoc] at hresults
        have hsettles : ∀ r, Settles m (.readlink fi addr junk path size) (books k.toClient) (books k'.toClient) r := by
          refine fun r => ⟨_, hresults, hiff.trans ⟨?_, fun hsound => ⟨?_, hsound _ (.tail _ (.tail _ (.head _)))⟩⟩⟩
          · rintro ⟨hopen, hclosed⟩
            have hfine : a.code ∉ ForkCall.mistaken := by
              rw [hopen]
              decide
            exact List.forall_mem_cons.mpr ⟨hfine, List.forall_mem_cons.mpr ⟨hcode, List.forall_mem_singleton.mpr hclosed⟩⟩
          · exact hgoes.resolve_right (hsound _ (.head _))
        exact .ite (fun _ => .pure (hsettles _)) fun _ => .pure (hsettles _)

lemma writeLink_same {dirid : Nat} {name target : Bytes} :
    Ensures (writeLink S.ledger addr junk dirid name target) k fun _ k' =>
      ∃ code code', (books k'.toClient).results =
          (books k.toClient).results ++ [(.openfork, code), (.closefork, code')] ∧
        ((books k.toClient).Same (books k'.toClient) ↔ code = kFPNoErr ∧ code' = kFPNoErr) := by
  refine .bind (ensures_call fun a k₁ hans => .bind (.modify (.bind ?_)))
  refine ((quiet.call rfl).ensures _).imp fun _ k₂ hwrite => .bind (closeOwn_ensures.imp fun ret k₃ hclose => ?_)
  rw [show books k₂.toClient = _ from hwrite] at hclose
  obtain ⟨code, hresults, hiff⟩ := (hans.borrowed addr junk).same_iff hclose
  have hresults₁ : (books k₁.toClient).results = (books k.toClient).results ++ [(.openfork, a.code)] :=
    congrArg Ledger.results hans.ledger
  have hresults₃ : (books k₃.toClient).results =
      (books k.toClient).results ++ [(.openfork, a.code), (.closefork, code)] := by
    rw [hresults, hresults₁, List.append_assoc]
    rfl
  refine .ite (fun _ => .pure ⟨_, _, hresults₃, hiff⟩) fun _ => ?_
  refine .bind (((quiet.call rfl).ensures k₃).imp fun _ k' hset => .pure ?_)
  rw [show books k'.toClient = _ from hset]
  exact ⟨_, _, hresults₃, hiff⟩

lemma symlink_settles {path1 path2 : Bytes} :
    Ensures (ForkCall.run S.ledger m clock (.symlink fi addr junk path1 path2)) k fun r k' =>
      Settles m (.symlink fi addr junk path1 path2) (books k.toClient) (books k'.toClient) r := by
  have hnothing : ∀ {k' : State (σ × Ledger)} {r}, books k'.toClient = books k.toClient →
      Settles m (.symlink fi addr junk path1 path2) (books k.toClient) (books k'.toClient) r :=
    fun hbooks => .nothing hbooks ⟨rfl, rfl⟩ nofun
  refine .map (.ite (fun _ => .pure (hnothing rfl)) fun _ => .bind (.lift fun converted1 _ => ?_))
  cases converted1 with
  | none => exact .pure (hnothing rfl)
  | some converted1 =>
    refine .bind (.lift fun converted2 _ => ?_)
    cases converted2 with
    | none => exact .pure (hnothing rfl)
    | some converted2 =>
      refine .ite (fun _ => .pure (hnothing rfl)) fun _ => .bind (.lift fun ret _ => ?_)
      refine .ite (fun _ => .pure (hnothing rfl)) fun _ => ?_
      refine .bind ((quiet.locate.ensures k).imp fun place k₁ hplace => ?_)
      refine .bind (((quiet.call rfl).ensures k₁).imp fun a k₂ hcreate => ?_)
      have hquiet : books k₂.toClient = books k.toClient := Eq.trans hcreate hplace
      refine .ite (fun _ => .pure (hnothing hquiet)) fun _ => writeLink_same.imp fun ret k' h => ?_
      obtain ⟨code, code', hresults, hiff⟩ := h
      rw [hquiet] at hresults hiff
      refine ⟨_, hresults, hiff.trans ⟨fun hok => ?_, fun hsound => ?_⟩⟩
      · exact List.forall_mem_cons.mpr ⟨hok.1, List.forall_mem_singleton.mpr hok.2⟩
      · exact ⟨hsound _ (.head _), hsound _ (.tail _ (.head _))⟩

end Own

section Calls
variable {σ : Type} {S : Station σ} {m : Mount} {clock : Nat → Nat} {fi fi' : FileInfo} {path : Bytes}
  {k : State (σ × Ledger)}

lemma open_settles {rounds : Nat} {flags : Flags} :
    Ensures (ForkCall.run S.ledger m clock (.open rounds fi fi' path flags)) k fun r k' =>
      Settles m (.open rounds fi fi' path flags) (books k.toClient) (books k'.toClient) r := by
  refine mlOpen_ensures.imp fun r k' h => ?_
  cases h with
  | failed hret hbooks =>
    rw [hbooks]
    exact ⟨[], (List.append_nil _).symm, iff_of_true ⟨fun _ => ⟨rfl, rfl⟩, fun h => absurd h hret.ne⟩ nofun⟩
  | invented hfork hkind hbooks =>
    rw [hbooks]
    refine ⟨[], (List.append_nil _).symm, iff_of_true ⟨nofun, fun _ => ⟨_, rfl, ?_⟩⟩ nofun⟩
    rw [if_neg hfork]
    exact ⟨rfl, rfl⟩
  | opens h =>
    cases h with
    | refused hret hsame hresults hnew =>
      refine ⟨_, hresults, iff_of_true ⟨fun _ => hsame, fun h => absurd h hret.ne⟩ ?_⟩
      rintro ⟨kind, code⟩ hx
      cases hnew _ hx
      trivial
    | added hfork hadded hresults hnew =>
      refine ⟨_, hresults, iff_of_true ⟨nofun, fun _ => ⟨_, rfl, ?_⟩⟩ ?_⟩
      · rw [if_pos hfork]
        exact hadded
      · rintro ⟨kind, code⟩ hx
        rcases hnew _ hx with hkind | ⟨hkind, hcode⟩
        · cases hkind
          trivial
        · cases hkind
          exact hcode
    | leaked hret hadded hresults hmem hcode =>
      refine ⟨_, hresults, iff_of_false (fun h => hadded.not_same (h.1 hret)) fun hsound => ?_⟩
      exact hsound _ hmem hcode

variable {fp : FileHandle} {b b' : Books} {k' : Client (σ × Ledger)} {v : Volume} {newpath : Bytes} {ret : Int}
  {offset : Nat}

lemma appledoubleClose_settles (hres : fp.resource ≠ .none) :
    Ensures (appledoubleClose S.ledger fp) k fun ret k' =>
      Settles m (.close path (some fp)) (books k.toClient) (books k'.toClient) (ret, none) := by
  have hforkless : ∀ {ret : Int}, fp.resource ≠ .resource →
      Settles m (.close path (some fp)) (books k.toClient) (books k.toClient) (ret, none) := by
    refine fun hne => ⟨[], (List.append_nil _).symm, iff_of_true (fun _ h hh hfork => ?_) nofun⟩
    cases hh
    rcases hfork with hfork | hfork
    · exact absurd hfork hres
    · exact absurd hfork hne
  unfold appledoubleClose
  cases hkind : fp.resource with
  | none => exact absurd hkind hres
  | resource =>
    refine .bind (ensures_call fun a k' hans => ?_)
    have hresults : (books k'.toClient).results = (books k.toClient).results ++ [(.closefork, a.code)] :=
      congrArg Ledger.results hans.ledger
    refine .ite (fun hcode => .pure ⟨_, hresults, fun h _ fp' hfp _ => ?_, fun h _ fp' hfp _ => ?_⟩) fun hcode => .pure ?_
    · cases hfp
      rw [← hans.journal]
      exact (h rfl fp rfl (.inr hkind)).2
    · cases hfp
      obtain ⟨-, hforks⟩ := hans.forks_of_closefork hcode
      rw [hforks, hans.journal]
      refine ⟨Finset.notMem_erase _ _, h ?_ fp rfl hkind⟩
      rw [hcode]
      exact .head _
    · refine ⟨_, hresults, iff_of_true (fun h => absurd h (by decide)) fun hmem => ?_⟩
      exact absurd (congrArg Prod.snd (List.mem_singleton.mp hmem)).symm hcode
  | appledouble => exact .pure (hforkless (hkind ▸ nofun))
  | finderinfo => exact .pure (hforkless (hkind ▸ nofun))
  | comment => exact .pure (hforkless (hkind ▸ nofun))
  | serverIcon => exact .pure (hforkless (hkind ▸ nofun))

lemma close_settles {fp : Option FileHandle} (hrecords : k.openForks.Nodup) :
    Ensures (ForkCall.run S.ledger m clock (.close path fp)) k fun r k' =>
      Settles m (.close path fp) (books k.toClient) (books k'.toClient) r := by
  have herror : ∀ {r : Int × Option FileHandle}, r.1 ≠ 0 →
      Settles m (.close path fp) (books k.toClient) (books k.toClient) r := fun hret =>
    ⟨[], (List.append_nil _).symm, iff_of_true (fun h => absurd h hret) nofun⟩
  refine .map (.bind (.lift fun converted _ => ?_))
  cases converted with
  | none => exact .pure (herror (show (-EINVAL : Int) ≠ 0 by decide))
  | some converted =>
    refine .ite (fun _ => .pure (herror (show (-ENAMETOOLONG : Int) ≠ 0 by decide))) fun _ => ?_
    cases fp with
    | none => exact .pure (herror (show EBADF ≠ 0 by decide))
    | some fp =>
      refine .ite appledoubleClose_settles fun hdata => closeOwn_ensures.imp fun ret k' hclose => ?_
      have hnone : fp.resource = .none := not_not.mp hdata
      cases hclose with
      | closed hmem hforks hjournal hresults =>
        refine ⟨_, hresults, iff_of_true (fun _ h hh _ => ?_) fun _ h hh hr => ?_⟩
        · cases hh
          rw [hforks, hjournal]
          exact ⟨Finset.notMem_erase _ _, hrecords.not_mem_erase⟩
        · cases hh
          rw [hnone] at hr
          cases hr
      | failed hcode hsame hresults =>
        refine ⟨_, hresults, iff_of_true (fun h => absurd h (by decide)) fun hmem => ?_⟩
        cases List.mem_singleton.mp hmem
        exact absurd rfl hcode

lemma same_iff_of_ignored {b₁ : Books} {a c : Reply} {results : List (Kind × Int)} {resource : Bool}
    {dirid accessmode : Nat} {name : Bytes}
    (hopen : Answered b b₁ (.fork (.openfork resource dirid accessmode name)) a)
    (hclose : Answered { b₁ with results := results } b' (.fork (.closefork a.refnum)) c) :
    b.Same b' ↔ (a.code = kFPNoErr ↔ c.code = kFPNoErr) := by
  have hjournal : b'.journal = b.journal := hclose.journal.trans hopen.journal
  by_cases ha : a.code = kFPNoErr
  · obtain ⟨hfresh, hforks⟩ := hopen.forks_of_openfork ha
    by_cases hc : c.code = kFPNoErr
    · obtain ⟨-, hforks'⟩ := hclose.forks_of_closefork hc
      refine iff_of_true ⟨?_, hjournal⟩ (iff_of_true ha hc)
      rw [hforks']
      show b₁.forks.erase a.refnum = b.forks
      rw [hforks, Finset.erase_insert hfresh]
    · refine iff_of_false (fun hsame => hfresh ?_) fun h => hc (h.mp ha)
      rw [← hsame.1, (hclose.same_of_closefork hc).1]
      show a.refnum ∈ b₁.forks
      rw [hforks]
      exact Finset.mem_insert_self _ _
  · have hforks : b₁.forks = b.forks := (hopen.same_of_refusal ha).1
    by_cases hc : c.code = kFPNoErr
    · obtain ⟨hmem, hforks'⟩ := hclose.forks_of_closefork hc
      refine iff_of_false (fun hsame => ?_) fun h => ha (h.mpr hc)
      have herase : b₁.forks.erase a.refnum = b₁.forks := hforks'.symm.trans (hsame.1.trans hforks.symm)
      exact Finset.erase_eq_self.mp herase hmem
    · exact iff_of_true ⟨(hclose.same_of_closefork hc).1.trans hforks, hjournal⟩ (iff_of_false ha hc)

lemma appledoubleTruncate_resource {k : Client (σ × Ledger)}
    (hkind : extraTranslate v path = .ok (.resource, newpath))
    (h : appledoubleTruncate S.ledger.peer v clock fi k path = .ok (ret, k')) :
    ret = 1 ∧ ∃ opened zeroed closed,
      (books k').results = (books k).results ++ [(.openfork, opened), (.setforkparms, zeroed), (.closefork, closed)] ∧
      ((books k).Same (books k') ↔ (opened = kFPNoErr ↔ closed = kFPNoErr)) := by
  rw [appledoubleTruncate, hkind] at h
  obtain ⟨⟨found, k₀⟩, hget, h⟩ := bind_eq_ok (x := k.getDirid S.ledger.peer clock fi newpath) h
  rw [← getDirid_books hget]
  cases found with
  | none => cases h
  | some found =>
    dsimp only at h
    have hopen := answered_call (S := S) k₀ (.openfork true found.1 1 found.2)
    generalize k₀.call S.ledger.peer _ = r₁ at h hopen
    obtain ⟨a, k₁⟩ := r₁
    split at h
    · obtain ⟨zeroed, -, hzero⟩ := llZeroFile_books (S := S) k₁ v a.refnum false
      dsimp only at h hopen
      generalize llZeroFile S.ledger.peer v k₁ a.refnum false = r₂ at h hzero
      obtain ⟨err, k₂⟩ := r₂
      have hclose := answered_call (S := S) k₂ (.closefork a.refnum)
      dsimp only at h hzero
      generalize k₂.call S.ledger.peer _ = r₃ at h hclose
      obtain ⟨c, k₃⟩ := r₃
      cases h
      dsimp only at hclose
      rw [hzero] at hclose
      refine ⟨rfl, a.code, zeroed, c.code, ?_, ?_⟩
      · rw [hclose.ledger, Ledger.after, hopen.ledger, Ledger.after, List.append_assoc, List.append_assoc]
        rfl
      · exact same_iff_of_ignored hopen hclose
    · cases h

lemma forkMlOpen_books {k : Client (σ × Ledger)} {flags : OpenFlags} {r : Int × Option FileHandle}
    (h : Fork.mlOpen S.ledger.peer m.toVolume clock fi k path flags = .ok (r, k')) :
    MlOpens m path (books k) (books k') r := by
  have hrun : mlOpen S.ledger m clock (0 + 1) fi fi path ⟨flags, false⟩ { State.start k.peer with toClient := k } =
      .ok (r, { State.start k.peer with toClient := k' }) := by
    rw [mlOpen_of_not_creat, onClient, h]
    rfl
  exact mlOpen_ensures hrun

lemma same_iff_of_removed {b₁ : Books} {c : Reply} {results : List (Kind × Int)} (hadded : b.Added b₁ fp)
    (hclose : Answered { b₁ with results := results } b' (.fork (.closefork fp.forkid)) c) :
    b.Same { b' with journal := b'.journal.erase fp.addr } ↔ c.code = kFPNoErr := by
  obtain ⟨hfresh, hforks, hjournal⟩ := hadded
  have hjournal' : b'.journal.erase fp.addr = b.journal := by
    rw [hclose.journal]
    show b₁.journal.erase fp.addr = b.journal
    rw [hjournal, List.erase_cons_head]
  by_cases hc : c.code = kFPNoErr
  · obtain ⟨-, hforks'⟩ := hclose.forks_of_closefork hc
    refine iff_of_true ⟨hforks'.trans ?_, hjournal'⟩ hc
    show b₁.forks.erase fp.forkid = b.forks
    rw [hforks, Finset.erase_insert hfresh]
  · refine iff_of_false (fun hsame => hfresh ?_) hc
    have hkept : b₁.forks = b.forks := (hclose.same_of_closefork hc).1.symm.trans hsame.1
    rw [← hkept, hforks]
    exact Finset.mem_insert_self _ _

lemma appledoubleTruncate_other {k : Client (σ × Ledger)} {kind : Meta}
    (hkind : extraTranslate v path = .ok (kind, newpath)) (hne : kind ≠ .resource)
    (h : appledoubleTruncate S.ledger.peer v clock fi k path = .ok (ret, k')) :
    k' = k ∧ (ret < 0 ∨ ret = 1 ∨ ret = 0 ∧ kind = .none) := by
  rw [appledoubleTruncate, hkind] at h
  cases kind with
  | none =>
    cases h
    exact ⟨rfl, .inr (.inr ⟨rfl, rfl⟩)⟩
  | resource => exact absurd rfl hne
  | appledouble =>
    cases h
    exact ⟨rfl, .inl (by decide)⟩
  | finderinfo =>
    cases h
    exact ⟨rfl, .inr (.inl rfl)⟩
  | comment =>
    cases h
    exact ⟨rfl, .inr (.inl rfl)⟩
  | serverIcon =>
    cases h
    exact ⟨rfl, .inl (by decide)⟩

lemma settles_of_benign {new : List (Kind × Int)} {r : Int × Option FileHandle}
    (hkind : extraTranslate m.toVolume path = .ok (.none, newpath)) (hresults : b'.results = b.results ++ new)
    (hiff : b.Same b' ↔ ∀ x ∈ new, ForkCall.Benign (.truncate fi path offset) x) :
    Settles m (.truncate fi path offset) b b' r := by
  refine ⟨new, hresults, hiff.trans ?_⟩
  show _ ↔ (if _ then _ else _ : Prop)
  rw [if_neg (by rw [hkind]; nofun)]

lemma MlOpens.added (hkind : extraTranslate m.toVolume path = .ok (.none, newpath))
    (h : MlOpens m path b b' (0, some fp)) :
    b.Added b' fp ∧ ∃ new, b'.results = b.results ++ new ∧
      ∀ x ∈ new, x.1 = .openfork ∨ x.1 = .setforkparms ∧ x.2 ∉ zeroFileErrors.map Prod.fst := by
  cases h with
  | failed hret => exact absurd hret (Int.lt_irrefl 0)
  | invented _ hne => exact absurd hkind (hne newpath)
  | opens h =>
    cases h with
    | refused hret => exact absurd hret (Int.lt_irrefl 0)
    | leaked hret => exact absurd hret (Int.lt_irrefl 0)
    | added _ hadded hresults hnew => exact ⟨hadded, _, hresults, hnew⟩

inductive Truncates (P : Peer (σ × Ledger)) (v : Volume) (clock : Nat → Nat) (fi : FileInfo) (path : Bytes)
    (k k' : Client (σ × Ledger)) : Prop where
  | refused (heq : k' = k)
  | invented {ret : Int} (hret : ret < 0 ∨ ret = 1) (h : appledoubleTruncate P v clock fi k path = .ok (ret, k'))
  | notOpened {ret : Int} {k₁ : Client (σ × Ledger)} {r : Int × Option FileHandle} (hret : ¬ (ret < 0 ∨ ret = 1))
      (h : appledoubleTruncate P v clock fi k path = .ok (ret, k₁))
      (hopen : Fork.mlOpen P v clock fi k₁ path .writeOnly = .ok (r, k')) (hr : r.1 ≠ 0 ∨ r.2 = none)
  | notZeroed {ret : Int} {k₁ k₂ : Client (σ × Ledger)} {fp : FileHandle} (hret : ¬ (ret < 0 ∨ ret = 1))
      (h : appledoubleTruncate P v clock fi k path = .ok (ret, k₁))
      (hopen : Fork.mlOpen P v clock fi k₁ path .writeOnly = .ok ((0, some fp), k₂))
      (hzero : (llZeroFile P v k₂ fp.forkid false).1 ≠ 0) (heq : k' = (llZeroFile P v k₂ fp.forkid false).2)
  | closed {ret : Int} {k₁ k₂ k₃ : Client (σ × Ledger)} {fp : FileHandle} (hret : ¬ (ret < 0 ∨ ret = 1))
      (h : appledoubleTruncate P v clock fi k path = .ok (ret, k₁))
      (hopen : Fork.mlOpen P v clock fi k₁ path .writeOnly = .ok ((0, some fp), k₂))
      (hzero : (llZeroFile P v k₂ fp.forkid false).1 = 0)
      (hclose : k₃ = ((llZeroFile P v k₂ fp.forkid false).2.call P (.closefork fp.forkid)).2)
      (heq : k' = { k₃ with openForks := k₃.openForks.erase fp.addr })

lemma mlTruncate_cases {P : Peer (σ × Ledger)} {k : Client (σ × Ledger)}
    (h : mlTruncate P v clock fi k path offset = .ok (ret, k')) : Truncates P v clock fi path k k' := by
  obtain ⟨converted, -, h⟩ := bind_eq_ok h
  cases converted with
  | none =>
    cases h
    exact .refused rfl
  | some converted =>
    dsimp only at h
    split at h
    · cases h
      exact .refused rfl
    · split at h
      · cases h
        exact .refused rfl
      · obtain ⟨⟨ret₁, k₁⟩, htrunc, h⟩ := bind_eq_ok h
        dsimp only at h
        split at h
        case isTrue hneg =>
          cases h
          exact .invented (.inl hneg) htrunc
        case isFalse hneg =>
          split at h
          case isTrue hone =>
            cases h
            exact .invented (.inr hone) htrunc
          case isFalse hone =>
            obtain ⟨⟨⟨rc, fp⟩, k₂⟩, hopen, h⟩ := bind_eq_ok h
            have hret : ¬ (ret₁ < 0 ∨ ret₁ = 1) := not_or.mpr ⟨hneg, hone⟩
            cases fp with
            | none =>
              cases h
              exact .notOpened hret htrunc hopen (.inr rfl)
            | some fp =>
              dsimp only at h
              split at h
              case isTrue hrc =>
                cases h
                exact .notOpened hret htrunc hopen (.inl hrc)
              case isFalse hrc =>
                cases not_not.mp hrc
                split at h
                case isTrue hzero =>
                  cases h
                  exact .notZeroed hret htrunc hopen hzero rfl
                case isFalse hzero =>
                  cases h
                  exact .closed hret htrunc hopen (not_not.mp hzero) rfl rfl

lemma appledoubleTruncate_goesOn {k : Client (σ × Ledger)} (hret : ¬ (ret < 0 ∨ ret = 1))
    (h : appledoubleTruncate S.ledger.peer v clock fi k path = .ok (ret, k')) :
    k' = k ∧ ∃ newpath, extraTranslate v path = .ok (.none, newpath) := by
  obtain ⟨⟨kind, newpath⟩, hkind, -⟩ := bind_eq_ok h
  by_cases hres : kind = .resource
  · cases hres
    exact absurd (.inr (appledoubleTruncate_resource hkind h).1) hret
  · obtain ⟨heq, hneg | hone | ⟨-, rfl⟩⟩ := appledoubleTruncate_other hkind hres h
    · exact absurd (.inl hneg) hret
    · exact absurd (.inr hone) hret
    · exact ⟨heq, newpath, hkind⟩

section Opened
variable {k k₂ : Client (σ × Ledger)} {newpath : Bytes} {fp : FileHandle} {offset : Nat} {ret : Int}
  (hkind : extraTranslate m.toVolume path = .ok (.none, newpath))
  (hopen : Fork.mlOpen S.ledger.peer m.toVolume clock fi k path .writeOnly = .ok ((0, some fp), k₂))
include hkind hopen

lemma notZeroed_settles (hzero : (llZeroFile S.ledger.peer m.toVolume k₂ fp.forkid false).1 ≠ 0) :
    Settles m (.truncate fi path offset) (books k)
      (books (llZeroFile S.ledger.peer m.toVolume k₂ fp.forkid false).2) (ret, none) := by
  obtain ⟨hadded, new, hresults, -⟩ := (forkMlOpen_books hopen).added hkind
  obtain ⟨code, hcode, hbooks⟩ := llZeroFile_books (S := S) k₂ m.toVolume fp.forkid false
  have hbad : code ∈ zeroFileErrors.map Prod.fst :=
    not_not.mp fun hn => hzero (hcode.trans ((zeroFileErrors_spec code).2.mpr hn))
  rw [hbooks]
  have hresults' : (books k₂).results ++ [(.setforkparms, code)] =
      (books k).results ++ (new ++ [(.setforkparms, code)]) := by
    rw [hresults, List.append_assoc]
  refine settles_of_benign hkind hresults' (iff_of_false hadded.not_same fun hall => ?_)
  exact hall (.setforkparms, code) (List.mem_append_right _ (.head _)) hbad

lemma closed_settles {k₃ : Client (σ × Ledger)} (hzero : (llZeroFile S.ledger.peer m.toVolume k₂ fp.forkid false).1 = 0)
    (hclose : k₃ = ((llZeroFile S.ledger.peer m.toVolume k₂ fp.forkid false).2.call S.ledger.peer
      (.closefork fp.forkid)).2) :
    Settles m (.truncate fi path offset) (books k) (books { k₃ with openForks := k₃.openForks.erase fp.addr })
      (ret, none) := by
  obtain ⟨hadded, new, hresults, hnew⟩ := (forkMlOpen_books hopen).added hkind
  obtain ⟨code, hcode, hbooks⟩ := llZeroFile_books (S := S) k₂ m.toVolume fp.forkid false
  have hfine : code ∉ zeroFileErrors.map Prod.fst := (zeroFileErrors_spec code).2.mp (hcode.symm.trans hzero)
  have hans := answered_call (S := S) (llZeroFile S.ledger.peer m.toVolume k₂ fp.forkid false).2 (.closefork fp.forkid)
  rw [← hclose, hbooks] at hans
  generalize ((llZeroFile S.ledger.peer m.toVolume k₂ fp.forkid false).2.call S.ledger.peer _).1 = c at hans
  have hlast : (books k₃).results = ((books k₂).results ++ [(.setforkparms, code)]) ++ [(.closefork, c.code)] :=
    congrArg Ledger.results hans.ledger
  have hresults' : (books k₃).results =
      (books k).results ++ (new ++ [(.setforkparms, code), (.closefork, c.code)]) := by
    rw [hlast, hresults]
    simp only [List.append_assoc, List.cons_append, List.nil_append]
  refine settles_of_benign hkind hresults' ((same_iff_of_removed hadded hans).trans ⟨fun hc => ?_, fun hall => ?_⟩)
  · rintro ⟨kind, code'⟩ hx
    rcases List.mem_append.mp hx with hx | hx
    · rcases hnew _ hx with hkind' | ⟨hkind', hcode'⟩
      · cases hkind'
        trivial
      · cases hkind'
        exact hcode'
    · rcases List.mem_pair.mp hx with hx | hx
      · cases hx
        exact hfine
      · cases hx
        exact hc
  · exact hall (.closefork, c.code) (List.mem_append_right _ (.tail _ (.head _)))

end Opened

lemma truncate_settles :
    Ensures (ForkCall.run S.ledger m clock (.truncate fi path offset)) k fun r k' =>
      Settles m (.truncate fi path offset) (books k.toClient) (books k'.toClient) r := by
  refine .map (ensures_onClient fun ret k' hrun => ?_)
  show Settles m (.truncate fi path offset) (books k.toClient) (books k') (ret, none)
  have hnothing : ∀ {b'}, b' = books k.toClient →
      Settles m (.truncate fi path offset) (books k.toClient) b' (ret, none) := by
    intro b' hbooks
    refine .nothing hbooks ⟨rfl, rfl⟩ ?_
    show (if _ then _ else _ : Prop)
    split
    · exact iff_of_false nofun nofun
    · exact nofun
  cases mlTruncate_cases hrun with
  | refused heq => exact hnothing (congrArg books heq)
  | invented hret h =>
    obtain ⟨⟨kind, newpath⟩, hkind, -⟩ := bind_eq_ok h
    by_cases hres : kind = .resource
    · cases hres
      obtain ⟨-, opened, zeroed, closed, hresults, hiff⟩ := appledoubleTruncate_resource hkind h
      refine ⟨_, hresults, hiff.trans ?_⟩
      show _ ↔ (if _ then _ else _ : Prop)
      rw [if_pos (by rw [hkind]; rfl)]
      simp [eq_comm]
    · exact hnothing (congrArg books (appledoubleTruncate_other hkind hres h).1)
  | notOpened hret h hopen hr =>
    obtain ⟨rfl, newpath, hkind⟩ := appledoubleTruncate_goesOn hret h
    cases forkMlOpen_books hopen with
    | failed _ hbooks => exact hnothing hbooks
    | invented => exact absurd hr (by simp)
    | opens h =>
      cases h with
      | added => exact absurd hr (by simp)
      | refused _ hsame hresults hnew =>
        refine settles_of_benign hkind hresults (iff_of_true hsame ?_)
        rintro ⟨kind, code⟩ hx
        cases hnew _ hx
        trivial
      | leaked _ hadded hresults hmem hcode =>
        exact settles_of_benign hkind hresults (iff_of_false hadded.not_same fun hall => hall _ hmem hcode)
  | notZeroed hret h hopen hzero heq =>
    obtain ⟨rfl, newpath, hkind⟩ := appledoubleTruncate_goesOn hret h
    rw [heq]
    exact notZeroed_settles hkind hopen hzero
  | closed hret h hopen hzero hclose heq =>
    obtain ⟨rfl, newpath, hkind⟩ := appledoubleTruncate_goesOn hret h
    rw [heq]
    exact closed_settles hkind hopen hzero hclose

/-- A call leaves the list of open forks and the server's set as it should if and only if the server's results are
those the call is right for. -/
theorem journal_matches_iff (S : Station σ) (m : Mount) (clock : Nat → Nat) (c : ForkCall) (k k' : State (σ × Ledger))
    (r : Int × Option FileHandle) (hrecords : k.openForks.Nodup) (hrun : c.run S.ledger m clock k = .ok (r, k')) :
    ∃ results, (books k'.toClient).results = (books k.toClient).results ++ results ∧
      (c.Matches (books k.toClient) (books k'.toClient) r ↔ c.Sound m k.openForks results) := by
  cases c with
  | «open» rounds fi fi' path flags => exact open_settles hrun
  | readlink fi addr junk path size => exact readlink_settles hrun
  | symlink fi addr junk path1 path2 => exact symlink_settles hrun
  | truncate fi path offset => exact truncate_settles hrun
  | close path fp => exact close_settles hrecords hrun

end Calls

def zeroing (code : Int) : Station Unit where
  query _ _ _ := none
  respond s
    | .fork (.openfork ..) => (⟨⟨kFPNoErr, 7, [], 0⟩, AfpFileInfo.zero⟩, s)
    | .fork (.setforkparms ..) => (.ofCode code, s)
    | _ => (.ofCode kFPNoErr, s)

def Flags.truncate : Flags := ⟨⟨true, false, false, true, false⟩, false⟩

def State.noForks : State (Unit × Ledger) := .start ((), ⟨∅, []⟩)

theorem journal_matches_iff_opening :
    let c : ForkCall := .open 1 ⟨false, 0⟩ ⟨false, 0⟩ [47, 97] .truncate
    ∃ fp k', c.run (zeroing kFPNoErr).ledger .plain (fun _ => 0) .noForks = .ok ((0, some fp), k') ∧
      k'.openForks = [fp.addr] ∧ k'.peer.2.forks = {7} ∧
      ∃ results, (books k'.toClient).results = [] ++ results ∧
        (c.Matches (books State.noForks.toClient) (books k'.toClient) (0, some fp) ↔ c.Sound .plain [] results) := by
  intro c
  have hrun : c.run (zeroing kFPNoErr).ledger .plain (fun _ => 0) .noForks = .ok ((0, some _), _) := rfl
  exact ⟨_, _, hrun, rfl, rfl, journal_matches_iff _ _ _ c .noForks _ _ List.nodup_nil hrun⟩

/-- The server refuses to change the length of `/a`: `ml_open` returns `-EBUSY`, and its record, which was freed, is in the
list. So is a resource fork that was closed. -/
theorem journal_keeps_freed_record :
    (let c : ForkCall := .open 1 ⟨false, 0⟩ ⟨false, 0⟩ [47, 97] .truncate
      ∃ fp k', c.run (zeroing kFPLockErr).ledger .plain (fun _ => 0) .noForks = .ok ((-EBUSY, fp), k') ∧
        k'.openForks = [0] ∧ k'.peer.2.forks = {7} ∧
        ¬ c.Matches (books State.noForks.toClient) (books k'.toClient) (-EBUSY, fp)) ∧
    let c : ForkCall := .close [47, 97] (some ⟨0, 7, .resource, 2, [97], [], false⟩)
    let k : State (Unit × Ledger) := { State.noForks with peer := ((), ⟨{7}, []⟩), openForks := [0] }
    ∃ k', c.run (zeroing kFPNoErr).ledger .plain (fun _ => 0) k = .ok ((0, none), k') ∧
      k'.openForks = [0] ∧ k'.peer.2.forks = ∅ ∧ ¬ c.Matches (books k.toClient) (books k'.toClient) (0, none) := by
  refine ⟨⟨_, _, rfl, rfl, rfl, fun h => ?_⟩, _, rfl, rfl, rfl, fun h => ?_⟩
  · have hjournal : [0] = [] := (h.1 (by decide)).2
    cases hjournal
  · have hgone : 0 ∉ [0] := (h rfl _ rfl (.inr rfl)).2
    exact hgone (.head _)

end AfpfsNg.Mid
