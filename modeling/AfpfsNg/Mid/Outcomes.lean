import AfpfsNg.Afp.Spelling
import AfpfsNg.Dsi.Send
import AfpfsNg.Mid.Lookups
import AfpfsNg.Mid.ReadOnly

/-!
# What operations report

`ml_mkdir`, `ml_unlink`, `ml_rmdir` and `ml_rename` (`lib/midlevel.c`) map the result of their last request to an `errno` by
a `switch`. In the first three the default is success: a code that is not listed, such as `ETIMEDOUT` or `kFPFileBusy`,
is reported as 0, and `ml_rmdir` forgets the directory then. In `ml_rename` the case of
`kFPObjectNotFound` falls through to that of success, and so do those of the second attempt, after an object in the way
was deleted, whose default is success as well. Every lookup is a command here.
-/

namespace AfpfsNg.Wire
open AfpfsNg.Base AfpfsNg.Afp AfpfsNg.Did AfpfsNg.Mid AfpfsNg.Fork AfpfsNg.Proto

structure Target where
  dirid : Nat
  basename : Bytes
  convertedPath : Bytes

def mkdirErrors : List (Int × Int) :=
  [(kFPAccessDenied, EACCES), (kFPDiskFull, ENOSPC), (kFPObjectNotFound, ENOENT), (kFPObjectExists, EEXIST),
    (kFPVolLocked, EBUSY), (kFPFlatVol, EFAULT), (kFPMiscErr, EFAULT), (kFPParamErr, EFAULT), (-1, EFAULT)]

def unlinkErrors : List (Int × Int) :=
  [(kFPAccessDenied, EACCES), (kFPObjectLocked, EBUSY), (kFPObjectNotFound, ENOENT), (kFPVolLocked, EACCES),
    (kFPObjectTypeErr, EINVAL), (kFPDirNotEmpty, EINVAL), (kFPMiscErr, EINVAL), (kFPParamErr, EINVAL), (-1, EINVAL)]

/-- The codes after which `ml_rename` reports an error. The case of `kFPObjectNotFound` falls through to that of `kFPNoErr`.
-/
def moveErrors : List (Int × Int) :=
  [(kFPObjectLocked, EACCES), (kFPAccessDenied, EACCES), (kFPCantRename, EROFS), (kFPObjectNotFound, 0), (kFPNoErr, 0)]

/-- Those of the second attempt, where the default is success. -/
def moveAgainErrors : List (Int × Int) :=
  [(kFPObjectLocked, EACCES), (kFPAccessDenied, EACCES), (kFPCantRename, EROFS), (kFPObjectExists, ENOENT),
    (kFPObjectNotFound, ENOENT)]

section Code
variable {σ : Type} (S : Station σ) (m : Mount) (clock : Nat → Nat)

/-- `ml_mkdir` up to its request: the result if it returns before, or where the request goes to. -/
def mkdirTarget (fi : FileInfo) (path : Bytes) : Op σ (Except Int Target) := do
  match ← convertPathToAfp m.toVolume path with
  | none => return .error (-EINVAL)
  | some convertedPath =>
    if invalidFilename m.toVolume path then return .error (-ENAMETOOLONG)
    else if volumeIsReadonly m.toVolume then return .error (-EACCES)
    else
      let ret ← appledoubleRefuse m.toVolume path
      if ret < 0 then return .error ret
      else
        let (dirid, basename) ← locate S clock fi convertedPath
        return .ok ⟨dirid, basename, convertedPath⟩

def mlMkdir (fi : FileInfo) (path : Bytes) : Op σ Int := do
  match ← mkdirTarget S m clock fi path with
  | .error ret => return ret
  | .ok t =>
    let a ← call S (.createdir t.dirid t.basename)
    return -switch mkdirErrors 0 a.code

def unlinkTarget (fi : FileInfo) (path : Bytes) : Op σ (Except Int Target) := do
  match ← convertPathToAfp m.toVolume path with
  | none => return .error (-EINVAL)
  | some convertedPath =>
    if volumeIsReadonly m.toVolume then return .error (-EACCES)
    else
      let ret ← appledoubleRefuse m.toVolume path
      if ret < 0 then return .error ret
      else
        let (dirid, basename) ← locate S clock fi convertedPath
        if ← isDir S dirid basename then return .error (-EISDIR)
        else if invalidFilename m.toVolume convertedPath then return .error (-ENAMETOOLONG)
        else return .ok ⟨dirid, basename, convertedPath⟩

def mlUnlink (fi : FileInfo) (path : Bytes) : Op σ Int := do
  match ← unlinkTarget S m clock fi path with
  | .error ret => return ret
  | .ok t =>
    let a ← call S (.delete t.dirid t.basename)
    return -switch unlinkErrors 0 a.code

def rmdirTarget (fi : FileInfo) (path : Bytes) : Op σ (Except Int Target) := do
  if invalidFilename m.toVolume path then return .error (-ENAMETOOLONG)
  else
    match ← convertPathToAfp m.toVolume path with
    | none => return .error (-EINVAL)
    | some convertedPath =>
      if volumeIsReadonly m.toVolume then return .error (-EACCES)
      else
        let ret ← appledoubleRefuse m.toVolume path
        if ret < 0 then return .error ret
        else
          let (dirid, basename) ← locate S clock fi convertedPath
          if ← isDir S dirid basename then return .ok ⟨dirid, basename, convertedPath⟩
          else return .error (-ENOTDIR)

def mlRmdir (fi : FileInfo) (path : Bytes) : Op σ Int := do
  match ← rmdirTarget S m clock fi path with
  | .error ret => return ret
  | .ok t =>
    let a ← call S (.delete t.dirid t.basename)
    match rmdirErrors.lookup a.code with
    | some ret => return -ret
    | none =>
      modify fun k => { k with cache := removeDidEntry k.cache t.convertedPath }
      return 0

def renameRequests (diridFrom diridTo : Nat) (basenameFrom basenameTo : Bytes) (todir : Bool) : Op σ Int := do
  let a ← call S (if todir then .moveandrename diridFrom diridTo basenameFrom basenameTo basenameFrom
    else .moveandrename diridFrom diridTo basenameFrom [] basenameTo)
  if a.code = kFPObjectExists then
    -- what the delete returns is overwritten below
    let _ ← call S (.delete diridTo basenameTo)
    let a ← call S (.moveandrename diridFrom diridTo basenameFrom [] basenameTo)
    return -switch moveAgainErrors 0 a.code
  else return -switch moveErrors EIO a.code

def mlRename (fi fi' : FileInfo) (pathFrom pathTo : Bytes) : Op σ Int := do
  match ← convertPathToAfp m.toVolume pathFrom with
  | none => return -EINVAL
  | some convertedPathFrom =>
    match ← convertPathToAfp m.toVolume pathTo with
    | none => return -EINVAL
    | some convertedPathTo =>
      if volumeIsReadonly m.toVolume then return -EACCES
      else
        let (diridFrom, basenameFrom) ← locate S clock fi convertedPathFrom
        let (diridTo, basenameTo) ← locate S clock fi' convertedPathTo
        let todir ← isDir S diridTo convertedPathTo
        renameRequests S diridFrom diridTo basenameFrom basenameTo todir

end Code

section Does
variable {σ : Type} {S : Station σ} {m : Mount} {clock : Nat → Nat} {fi fi' : FileInfo} {path : Bytes} {k : State σ}

/-- From `k` the code does what a function of the world says. -/
def Does {α : Type} (g : Op σ α) (k : State σ) (x : Except Fault (α × World σ)) : Prop :=
  ∀ r w, x = .ok (r, w) → g k = .ok (r, { k with peer := w.server, cache := w.cache })

namespace Does
variable {α β γ : Type} {g g' : Op σ α} {x x' : Except Fault (α × World σ)}

lemma of_run {a : α} {w : World σ} (h : g k = .ok (a, { k with peer := w.server, cache := w.cache })) :
    Does g k (.ok (a, w)) := by
  rintro r w' hx
  cases hx
  exact h

lemma ite {c : Prop} [Decidable c] (h : c → Does g k x) (h' : ¬ c → Does g' k x') :
    Does (if c then g else g') k (if c then x else x') := by
  split
  case isTrue hc => exact h hc
  case isFalse hc => exact h' hc

lemma lift {y : Except Fault β} {f : β → Op σ α} {F : β → Except Fault (α × World σ)}
    (h : ∀ b, y = .ok b → Does (f b) k (F b)) : Does (liftM y >>= f) k (y >>= F) := by
  intro r w hx
  obtain ⟨b, rfl, hF⟩ := bind_eq_ok hx
  exact h b rfl r w hF

lemma locate (hS : Steady S) {f : Nat × Bytes → Op σ α} {F : (Nat × Bytes) × World σ → Except Fault (α × World σ)}
    (h : ∀ r w, Does (f r) { k with peer := w.server, cache := w.cache } (F (r, w))) :
    Does (Wire.locate S clock fi path >>= f) k (Did.locate S.names clock fi ⟨k.peer, k.cache⟩ path >>= F) := by
  intro r w hx
  obtain ⟨⟨place, w'⟩, hplace, hF⟩ := bind_eq_ok hx
  rw [run_bind_ok (hS.locate hplace)]
  exact h place w' r w hF

lemma isDir (hS : Steady S) {did : Nat} {f : Bool → Op σ α} (h : Does (f (Did.isDir S.names k.peer did path)) k x) :
    Does (Wire.isDir S did path >>= f) k x := by
  intro r w hx
  rw [run_bind_ok (hS.isDir did path)]
  exact h r w hx

lemma assoc {y : Op σ β} {f : β → Op σ γ} {f' : γ → Op σ α} (h : Does (y >>= fun b => f b >>= f') k x) :
    Does ((y >>= f) >>= f') k x := by
  rw [bind_assoc]
  exact h

lemma ite_bind {c : Prop} [Decidable c] {y y' : Op σ β} {f : β → Op σ α} (h : c → Does (y >>= f) k x)
    (h' : ¬ c → Does (y' >>= f) k x') : Does ((if c then y else y') >>= f) k (if c then x else x') := by
  split
  case isTrue hc => exact h hc
  case isFalse hc => exact h' hc

end Does

/-- Where lookups change nothing, the operations on the wire are those of `AfpfsNg.Did`. -/
lemma mlMkdir_does (h : Steady S) :
    Does (mlMkdir S m clock fi path) k (Did.mlMkdir S.names m.toVolume clock fi ⟨k.peer, k.cache⟩ path) := by
  refine .assoc (.lift fun converted _ => ?_)
  cases converted with
  | none => exact .of_run rfl
  | some converted =>
    refine .ite_bind (fun _ => .of_run rfl) fun _ => .ite_bind (fun _ => .of_run rfl) fun _ => ?_
    refine .assoc (.lift fun ret _ => .ite_bind (fun _ => .of_run rfl) fun _ => ?_)
    exact .assoc (.locate h fun place w => .of_run rfl)

lemma mlUnlink_does (h : Steady S) :
    Does (mlUnlink S m clock fi path) k (Did.mlUnlink S.names m.toVolume clock fi ⟨k.peer, k.cache⟩ path) := by
  refine .assoc (.lift fun converted _ => ?_)
  cases converted with
  | none => exact .of_run rfl
  | some converted =>
    refine .ite_bind (fun _ => .of_run rfl) fun _ => ?_
    refine .assoc (.lift fun ret _ => .ite_bind (fun _ => .of_run rfl) fun _ => ?_)
    refine .assoc (.locate h fun place w => .assoc (.isDir h ?_))
    exact .ite_bind (fun _ => .of_run rfl) fun _ => .ite_bind (fun _ => .of_run rfl) fun _ => .of_run rfl

lemma mlRmdir_does (h : Steady S) :
    Does (mlRmdir S m clock fi path) k (Did.mlRmdir S.names m.toVolume clock fi ⟨k.peer, k.cache⟩ path) := by
  refine .ite_bind (fun _ => .of_run rfl) fun _ => .assoc (.lift fun converted _ => ?_)
  cases converted with
  | none => exact .of_run rfl
  | some converted =>
    refine .ite_bind (fun _ => .of_run rfl) fun _ => ?_
    refine .assoc (.lift fun ret _ => .ite_bind (fun _ => .of_run rfl) fun _ => ?_)
    refine .assoc (.locate h fun place w => .assoc (.isDir h ?_))
    simp only
    cases Did.isDir S.names w.server place.1 place.2 with
    | false => exact .of_run rfl
    | true =>
      rw [if_pos rfl, if_neg (not_not.mpr rfl)]
      simp only [Station.names, Station.code]
      -- the code of the answer is listed, or the cache forgets the directory
      split
      case h_1 ret heq =>
        refine .of_run ((run_bind_ok rfl).trans ((run_bind_ok rfl).trans ?_))
        simp only [heq]
        rfl
      case h_2 heq =>
        refine .of_run ((run_bind_ok rfl).trans ((run_bind_ok rfl).trans ?_))
        simp only [heq]
        rfl

lemma renameRequests_names (diridFrom diridTo : Nat) (basenameFrom basenameTo pathTo : Bytes) :
    renameRequests S diridFrom diridTo basenameFrom basenameTo (Did.isDir S.names k.peer diridTo pathTo) k =
      let r := Did.renameRequests S.names k.peer diridFrom diridTo basenameFrom basenameTo pathTo
      .ok (-r.1, { k with peer := r.2 }) := by
  rw [renameRequests, Did.renameRequests]
  generalize Did.isDir S.names k.peer diridTo pathTo = todir
  obtain ⟨c, hc, hcode⟩ : ∃ c,
      (if todir then Command.moveandrename diridFrom diridTo basenameFrom basenameTo basenameFrom
        else .moveandrename diridFrom diridTo basenameFrom [] basenameTo) = c ∧
      (if todir then S.names.moveandrename k.peer diridFrom diridTo basenameFrom basenameTo basenameFrom
        else S.names.moveandrename k.peer diridFrom diridTo basenameFrom [] basenameTo) = S.code k.peer c := by
    cases todir with
    | true => exact ⟨_, rfl, rfl⟩
    | false => exact ⟨_, rfl, rfl⟩
  obtain ⟨a, s, hresp⟩ : ∃ a s, S.respond k.peer c = (a, s) := ⟨_, _, rfl⟩
  have hcall : call S c k = .ok (a, { k with peer := s }) := by rw [call, hresp]
  have hpair : S.code k.peer c = (a.code, s) := by rw [Station.code, hresp]
  rw [hc, hcode, hpair, run_bind_ok hcall]
  by_cases hexists : a.code = kFPObjectExists
  · simp only [if_pos hexists]
    rfl
  · simp only [if_neg hexists]
    rfl

lemma mlRename_does (h : Steady S) {pathFrom pathTo : Bytes} :
    Does (mlRename S m clock fi fi' pathFrom pathTo) k
      (Did.mlRename S.names m.toVolume clock fi fi' ⟨k.peer, k.cache⟩ pathFrom pathTo) := by
  refine .lift fun converted _ => ?_
  cases converted with
  | none => exact .of_run rfl
  | some convertedFrom =>
    refine .lift fun converted _ => ?_
    cases converted with
    | none => exact .of_run rfl
    | some convertedTo =>
      refine .ite (fun _ => .of_run rfl) fun _ => ?_
      refine .locate h fun place w => .locate h fun place' w' => .isDir h ?_
      exact .of_run (renameRequests_names ..)

end Does

/-- The operations with a `switch` whose default is success. -/
inductive Change where
  | mkdir
  | unlink
  | rmdir
  deriving DecidableEq, Repr

namespace Change
variable {σ : Type} (S : Station σ) (m : Mount) (clock : Nat → Nat) (fi : FileInfo) (path : Bytes)

def target : Change → Op σ (Except Int Target)
  | mkdir => mkdirTarget S m clock fi path
  | unlink => unlinkTarget S m clock fi path
  | rmdir => rmdirTarget S m clock fi path

def run : Change → Op σ Int
  | mkdir => mlMkdir S m clock fi path
  | unlink => mlUnlink S m clock fi path
  | rmdir => mlRmdir S m clock fi path

def command (t : Target) : Change → Command
  | mkdir => .createdir t.dirid t.basename
  | unlink | rmdir => .delete t.dirid t.basename

def errors : Change → List (Int × Int)
  | mkdir => mkdirErrors
  | unlink => unlinkErrors
  | rmdir => rmdirErrors

variable {S m clock fi path} {op : Change} {k k₁ : State σ} {t : Target}

lemma errors_pos (op : Change) : ∀ x ∈ op.errors, 0 < x.2 := by
  cases op with
  | mkdir => decide
  | unlink => decide
  | rmdir => decide

lemma run_eq (ht : op.target S m clock fi path k = .ok (.ok t, k₁)) :
    let r := S.respond k₁.peer (op.command t)
    op.run S m clock fi path k = .ok (-switch op.errors 0 r.1.code, { k₁ with
      peer := r.2
      cache := if op = rmdir ∧ r.1.code ∉ op.errors.map Prod.fst then removeDidEntry k₁.cache t.convertedPath
        else k₁.cache }) := by
  cases op with
  | mkdir => exact run_bind_ok ht
  | unlink => exact run_bind_ok ht
  | rmdir =>
    refine (run_bind_ok ht).trans ((run_bind_ok rfl).trans ?_)
    simp only [command, errors, true_and]
    by_cases hcode : (S.respond k₁.peer (.delete t.dirid t.basename)).1.code ∈ rmdirErrors.map Prod.fst
    · rw [if_neg (not_not.mpr hcode), lookup_listed hcode]
      rfl
    · rw [if_pos hcode, lookup_unlisted hcode, switch_default hcode]
      rfl

end Change

/-- When `ml_mkdir`, `ml_unlink` or `ml_rmdir` comes to its last request, it returns an error after every code but
`kFPNoErr`, and `ml_rmdir` then leaves the cache as it is, if and only if the `switch` lists the code or it is `kFPNoErr`. -/
theorem namespace_errors_iff {σ : Type} (S : Station σ) (m : Mount) (clock : Nat → Nat) (fi : FileInfo) (path : Bytes)
    (op : Change) (k k₁ : State σ) (t : Target) (ht : op.target S m clock fi path k = .ok (.ok t, k₁)) :
    (∃ ret k', op.run S m clock fi path k = .ok (ret, k') ∧
      ((S.respond k₁.peer (op.command t)).1.code ≠ kFPNoErr → ret < 0 ∧ (op = .rmdir → k'.cache = k₁.cache))) ↔
    (S.respond k₁.peer (op.command t)).1.code = kFPNoErr ∨
      (S.respond k₁.peer (op.command t)).1.code ∈ op.errors.map Prod.fst := by
  have hrun := Change.run_eq ht
  constructor
  · rintro ⟨ret, k', hret, hreports⟩
    cases hrun.symm.trans hret
    by_contra hcode
    obtain ⟨herr, hunlisted⟩ := not_or.mp hcode
    have hneg := (hreports herr).1
    rw [switch_default hunlisted] at hneg
    exact absurd hneg (by decide)
  · intro hcode
    refine ⟨_, _, hrun, fun herr => ?_⟩
    have hlisted := hcode.resolve_left herr
    have hpos := op.errors_pos _ (@switch_mem _ 0 _ hlisted)
    refine ⟨Int.neg_neg_of_pos hpos, fun _ => ?_⟩
    exact if_neg fun h => h.2 hlisted

def nameStation (isdir : Bool) (code : Int) : Station Unit where
  query _ _ _ := some ⟨isdir, 16⟩
  respond s
    | .fork (.getfiledirparms ..) =>
      (⟨⟨kFPNoErr, 0, [], 0⟩, { AfpFileInfo.zero with isdir := if isdir then 1 else 0, fileid := 16 }⟩, s)
    | _ => (.ofCode code, s)

def knowsA : State Unit := { State.start () with cache := addDidCacheEntry (fun _ => 0) .empty 16 [47, 97] }

theorem namespace_errors_not_empty :
    ∃ ret k', mlRmdir (nameStation true kFPDirNotEmpty) .plain (fun _ => 0) ⟨false, 0⟩ [47, 97] knowsA = .ok (ret, k') ∧
      ret < 0 ∧ k'.cache = knowsA.cache := by
  obtain ⟨ret, k', hrun, hreports⟩ := (namespace_errors_iff (nameStation true kFPDirNotEmpty) .plain (fun _ => 0)
    ⟨false, 0⟩ [47, 97] .rmdir knowsA knowsA ⟨2, [97], [47, 97]⟩ rfl).mpr (.inr (by decide))
  obtain ⟨hneg, hcache⟩ := hreports (by decide)
  exact ⟨ret, k', hrun, hneg, hcache rfl⟩

/-- Without an answer `ml_mkdir` and `ml_rmdir` report success, and the cache forgets the directory. A file that is in use
is reported as deleted. -/
theorem namespace_hides_errors :
    (∃ k', mlMkdir (nameStation true Dsi.ETIMEDOUT) .plain (fun _ => 0) ⟨false, 0⟩ [47, 97] knowsA = .ok (0, k')) ∧
    (∃ k', mlUnlink (nameStation false kFPFileBusy) .plain (fun _ => 0) ⟨false, 0⟩ [47, 97] knowsA = .ok (0, k')) ∧
    ∃ k', mlRmdir (nameStation true Dsi.ETIMEDOUT) .plain (fun _ => 0) ⟨false, 0⟩ [47, 97] knowsA = .ok (0, k') ∧
      knowsA.cache.base.length = 1 ∧ k'.cache.base = [] :=
  ⟨⟨_, rfl⟩, ⟨_, rfl⟩, _, rfl, rfl, rfl⟩

section Sends
variable {σ : Type} {S : Station σ} {m : Mount} {clock : Nat → Nat} {fi : FileInfo} {path : Bytes} {p : Command → Prop}

def Sends (p : Command → Prop) (s s' : σ × List (Command × Answer)) : Prop :=
  ∃ log, s'.2 = s.2 ++ log ∧ ∀ x ∈ log, p x.1

instance : IsPreorder (σ × List (Command × Answer)) (Sends p) where
  refl s := ⟨[], (List.append_nil s.2).symm, List.forall_mem_nil _⟩
  trans := by
    rintro s s' s'' ⟨log, hlog, hp⟩ ⟨log', hlog', hp'⟩
    refine ⟨log ++ log', by rw [hlog', hlog, List.append_assoc], fun x hx => ?_⟩
    exact (List.mem_append.mp hx).elim (hp x) (hp' x)

lemma sends : Carries S.logged p (OnServer (Sends p)) where
  command _ c hc := ⟨[(c, _)], rfl, by simpa using hc⟩
  idle k k' hpeer _ := by
    show Sends p k.peer k'.peer
    rw [hpeer]
    exact refl_of (Sends p) k.peer

variable {R : State σ → State σ → Prop} [IsPreorder (State σ) R] (h : Carries S p R)
  (hp : ∀ did bitmap name, p (.fork (.getfiledirparms did bitmap bitmap name)))
include h hp

lemma moves_afpGetfiledirparms {did bitmap : Nat} : Moves R (afpGetfiledirparms S did bitmap path fi) :=
  .bind (h.call (hp _ _ _)) fun _ => .pure _

lemma moves_isDir {did : Nat} : Moves R (isDir S did path) :=
  .bind (moves_afpGetfiledirparms h hp) fun _ => .pure _

lemma moves_walkForward {fuel p2 parentDid : Nat} : Moves R (walkForward S clock path fuel p2 parentDid fi) := by
  induction fuel generalizing p2 parentDid fi with
  | zero => exact .throw _
  | succ fuel ih =>
    rw [walkForward]
    split
    · exact .pure _
    · refine .bind (.modify fun k => h.idle _ _ rfl rfl) fun _ => .bind (moves_afpGetfiledirparms h hp) fun r => ?_
      exact .ite (fun _ => .bind (.modify fun k => h.idle _ _ rfl rfl) fun _ => ih) fun _ => .pure _

omit hp [IsPreorder (State σ) R] in
lemma moves_onCache {α : Type} {f : DidCache → Except Fault (α × DidCache)} : Moves R (onCache f : Op σ α) := by
  intro k r k' hrun
  obtain ⟨c, -, rfl⟩ := onCache_inv hrun
  exact h.idle _ _ rfl rfl

lemma moves_locate : Moves R (locate S clock fi path) := by
  have hdirid : Moves R (getDirid S clock fi path) := by
    rw [getDirid]
    split
    · exact .pure _
    · refine .ite (fun _ => .throw _) fun _ => .early fun _ => .ite (fun _ => .throw _) fun _ => ?_
      refine .bind (moves_onCache h) fun newdid => .early fun _ => ?_
      exact .bind (moves_onCache h) fun r => .bind (moves_walkForward h hp) fun dirid => .pure _
  refine .bind hdirid fun r => ?_
  cases r with
  | none => exact .throw _
  | some r => exact .pure r

end Sends

def moveCode : Command × Answer → Option Int
  | (.moveandrename .., a) => some a.code
  | _ => none

def NoMove (c : Command) : Prop := ∀ a, moveCode (c, a) = none

def moves (log : List (Command × Answer)) : List Int := log.filterMap moveCode

/-- 0 is returned if the last move was answered `kFPNoErr`, and an error if not, or if there was none. -/
def RenameReports (codes : List Int) (ret : Int) : Prop :=
  (codes.getLast? = some kFPNoErr → ret = 0) ∧ (codes.getLast? ≠ some kFPNoErr → ret < 0)

instance (codes : List Int) (ret : Int) : Decidable (RenameReports codes ret) := inferInstanceAs (Decidable (_ ∧ _))

/-- The first move was not answered `kFPObjectNotFound`, and the `switch` lists the code of a second one. -/
def MovesListed (codes : List Int) : Prop :=
  codes ≠ [kFPObjectNotFound] ∧
    ∀ c, codes = [kFPObjectExists, c] → c = kFPNoErr ∨ c ∈ moveAgainErrors.map Prod.fst

lemma reports_none {ret : Int} (h : ret < 0) : RenameReports [] ret ↔ MovesListed [] :=
  iff_of_true ⟨nofun, fun _ => h⟩ ⟨nofun, nofun⟩

lemma reports_once (code : Int) : RenameReports [code] (-switch moveErrors EIO code) ↔ MovesListed [code] := by
  have hlisted : MovesListed [code] ↔ code ≠ kFPObjectNotFound := by
    refine ⟨fun h heq => h.1 (congrArg (fun c => [c]) heq), fun h => ⟨fun heq => h (List.cons.inj heq).1, nofun⟩⟩
  rw [hlisted]
  refine switch_spec (fun c e => RenameReports [c] (-e) ↔ c ≠ kFPObjectNotFound) (by decide) fun hnone => ?_
  have hnoerr : code ≠ kFPNoErr := fun h => hnone (kFPNoErr, 0) (by decide) h.symm
  have hfound : code ≠ kFPObjectNotFound := fun h => hnone (kFPObjectNotFound, 0) (by decide) h.symm
  exact iff_of_true ⟨fun h => absurd (Option.some.inj h) hnoerr, fun _ => by decide⟩ hfound

lemma reports_again (code : Int) :
    RenameReports [kFPObjectExists, code] (-switch moveAgainErrors 0 code) ↔ MovesListed [kFPObjectExists, code] := by
  have hlisted : MovesListed [kFPObjectExists, code] ↔ code = kFPNoErr ∨ code ∈ moveAgainErrors.map Prod.fst := by
    refine ⟨fun h => h.2 code rfl, fun h => ⟨by simp, fun c heq => ?_⟩⟩
    cases heq
    exact h
  have hlast : [kFPObjectExists, code].getLast? = some kFPNoErr ↔ code = kFPNoErr := by simp
  rw [hlisted, RenameReports, ne_eq, hlast]
  by_cases hcode : code ∈ moveAgainErrors.map Prod.fst
  · have hpos := (show ∀ x ∈ moveAgainErrors, 0 < x.2 by decide) _ (@switch_mem _ 0 _ hcode)
    have hnoerr : code ≠ kFPNoErr := by
      rintro rfl
      exact absurd hcode (by decide)
    exact iff_of_true ⟨fun h => absurd h hnoerr, fun _ => Int.neg_neg_of_pos hpos⟩ (.inr hcode)
  · rw [switch_default hcode, or_iff_left hcode]
    refine ⟨fun h => not_not.mp fun hne => absurd (h.2 hne) (by decide), fun h => ⟨fun _ => rfl, fun hne => absurd h hne⟩⟩

section Rename
variable {σ : Type} {S : Station σ} {m : Mount} {clock : Nat → Nat} {fi fi' : FileInfo} {pathFrom pathTo : Bytes}
  {k : State (σ × List (Command × Answer))}

/-- The result is right for the moves of the record. -/
def Accounts (k : State (σ × List (Command × Answer))) (ret : Int) (k' : State (σ × List (Command × Answer))) : Prop :=
  ∃ log, k'.peer.2 = k.peer.2 ++ log ∧ (RenameReports (moves log) ret ↔ MovesListed (moves log))

lemma call_logged (c : Command) (k : State (σ × List (Command × Answer))) :
    ∃ a k', call S.logged c k = .ok (a, k') ∧ k'.peer.2 = k.peer.2 ++ [(c, a)] :=
  ⟨_, _, rfl, rfl⟩

lemma renameRequests_run (diridFrom diridTo : Nat) (basenameFrom basenameTo : Bytes) (todir : Bool)
    (k : State (σ × List (Command × Answer))) :
    ∃ ret k', renameRequests S.logged diridFrom diridTo basenameFrom basenameTo todir k = .ok (ret, k') ∧
      Accounts k ret k' := by
  -- both forms of the first request are moves
  obtain ⟨c, hc, hmove⟩ : ∃ c, (if todir then .moveandrename diridFrom diridTo basenameFrom basenameTo basenameFrom
      else .moveandrename diridFrom diridTo basenameFrom [] basenameTo) = c ∧ ∀ a, moveCode (c, a) = some a.code := by
    cases todir with
    | true => exact ⟨_, rfl, fun _ => rfl⟩
    | false => exact ⟨_, rfl, fun _ => rfl⟩
  obtain ⟨a, k₁, hcall, hlog⟩ := @call_logged _ S c k
  rw [renameRequests, hc, run_bind_ok hcall]
  split
  case isTrue hexists =>
    obtain ⟨b, k₂, hcall', hlog'⟩ := @call_logged _ S (.delete diridTo basenameTo) k₁
    obtain ⟨a', k₃, hcall'', hlog''⟩ :=
      @call_logged _ S (.moveandrename diridFrom diridTo basenameFrom [] basenameTo) k₂
    refine ⟨-switch moveAgainErrors 0 a'.code, k₃, ?_, [(c, a), (.delete diridTo basenameTo, b),
      (.moveandrename diridFrom diridTo basenameFrom [] basenameTo, a')], ?_, ?_⟩
    · rw [run_bind_ok hcall', run_bind_ok hcall'']
      rfl
    · rw [hlog'', hlog', hlog]
      simp
    · have hmoves : moves [(c, a), (.delete diridTo basenameTo, b),
          (.moveandrename diridFrom diridTo basenameFrom [] basenameTo, a')] = [kFPObjectExists, a'.code] := by
        rw [moves, List.filterMap_cons_some (hmove a), hexists]
        rfl
      rw [hmoves]
      exact reports_again a'.code
  case isFalse =>
    refine ⟨-switch moveErrors EIO a.code, k₁, rfl, [(c, a)], hlog, ?_⟩
    have hmoves : moves [(c, a)] = [a.code] := List.filterMap_cons_some (hmove a)
    rw [hmoves]
    exact reports_once a.code

lemma Accounts.of_lookups {k₁ k' : State (σ × List (Command × Answer))} {ret : Int}
    (h : OnServer (Sends NoMove) k k₁) (hrest : Accounts k₁ ret k') : Accounts k ret k' := by
  obtain ⟨log, hlog, hnone⟩ := h
  obtain ⟨log', hlog', hreports⟩ := hrest
  have hmoves : moves (log ++ log') = moves log' := by
    rw [moves, List.filterMap_append, List.filterMap_eq_nil_iff.mpr fun x hx => hnone x hx x.2]
    rfl
  refine ⟨log ++ log', by rw [hlog', hlog, List.append_assoc], ?_⟩
  rw [hmoves]
  exact hreports

lemma Accounts.refused {ret : Int} (h : ret < 0) : Accounts k ret k :=
  ⟨[], (List.append_nil _).symm, reports_none h⟩

lemma mlRename_accounts :
    Ensures (mlRename S.logged m clock fi fi' pathFrom pathTo) k fun ret k' => Accounts k ret k' := by
  have hlook : ∀ did bitmap name, NoMove (.fork (.getfiledirparms did bitmap bitmap name)) := fun _ _ _ _ => rfl
  refine .bind (.lift fun converted _ => ?_)
  cases converted with
  | none => exact .pure (.refused (by decide))
  | some convertedFrom =>
    refine .bind (.lift fun converted _ => ?_)
    cases converted with
    | none => exact .pure (.refused (by decide))
    | some convertedTo =>
      refine .ite (fun _ => .pure (.refused (by decide))) fun _ => ?_
      refine .bind (((moves_locate sends hlook).ensures k).imp fun place k₁ h₁ => ?_)
      refine .bind (((moves_locate sends hlook).ensures k₁).imp fun place' k₂ h₂ => ?_)
      refine .bind (((moves_isDir sends hlook).ensures k₂).imp fun todir k₃ h₃ => ?_)
      intro ret k' hrun
      obtain ⟨ret', k'', hrun', haccounts⟩ :=
        @renameRequests_run _ S place.1 place'.1 place.2 place'.2 todir k₃
      cases hrun'.symm.trans hrun
      exact .of_lookups h₁ (.of_lookups h₂ (.of_lookups h₃ haccounts))

lemma mlRename_returns {r r' : Option Bytes} (habs : pathFrom.head? = some slash) (habs' : pathTo.head? = some slash)
    (hconv : convertPathToAfp m.toVolume pathFrom = .ok r) (hconv' : convertPathToAfp m.toVolume pathTo = .ok r') :
    ∃ ret k', mlRename S.logged m clock fi fi' pathFrom pathTo k = .ok (ret, k') := by
  rw [mlRename, hconv, run_bind_ok rfl]
  cases r with
  | none => exact ⟨_, _, rfl⟩
  | some convertedFrom =>
    simp only
    rw [hconv', run_bind_ok rfl]
    cases r' with
    | none => exact ⟨_, _, rfl⟩
    | some convertedTo =>
      simp only
      split
      · exact ⟨_, _, rfl⟩
      obtain ⟨hslash, hfits⟩ := convertPathToAfp_absolute habs hconv
      obtain ⟨hslash', hfits'⟩ := convertPathToAfp_absolute habs' hconv'
      obtain ⟨place, k₁, hplace⟩ := @locate_returns _ S.logged clock _ fi k hslash hfits
      obtain ⟨place', k₂, hplace'⟩ := @locate_returns _ S.logged clock _ fi' k₁ hslash' hfits'
      rw [run_bind_ok hplace, run_bind_ok hplace', run_bind_ok rfl]
      obtain ⟨ret, k', hrun, -⟩ := @renameRequests_run _ S place.1 place'.1 place.2 place'.2 _ _
      exact ⟨ret, k', hrun⟩

end Rename

/-- Whatever the server answers, a rename that returns reports what its last move did if and only if its first move was not
answered `kFPObjectNotFound` and the code of a second one is `kFPNoErr` or listed as an error; and for absolute paths that
can be converted it returns. -/
theorem rename_reports_iff {σ : Type} (S : Station σ) (m : Mount) (clock : Nat → Nat) (fi fi' : FileInfo)
    (pathFrom pathTo : Bytes) (k : State (σ × List (Command × Answer))) :
    (∀ ret k', mlRename S.logged m clock fi fi' pathFrom pathTo k = .ok (ret, k') →
      ∃ log, k'.peer.2 = k.peer.2 ++ log ∧ (RenameReports (moves log) ret ↔ MovesListed (moves log))) ∧
    (∀ r r', pathFrom.head? = some slash → pathTo.head? = some slash →
      convertPathToAfp m.toVolume pathFrom = .ok r → convertPathToAfp m.toVolume pathTo = .ok r' →
      ∃ ret k', mlRename S.logged m clock fi fi' pathFrom pathTo k = .ok (ret, k')) :=
  ⟨fun _ _ hrun => mlRename_accounts hrun, fun _ _ => mlRename_returns⟩

def scriptedStation : Station (List Int) where
  query _ _ _ := none
  respond codes
    | .moveandrename .. => (.ofCode (codes.headD kFPNoErr), codes.tail)
    | _ => (.ofCode kFPAccessDenied, codes)

theorem rename_reports_second_move :
    ∃ k', mlRename scriptedStation.logged .plain (fun _ => 0) ⟨false, 0⟩ ⟨false, 0⟩ [47, 97] [47, 98]
        (State.start ([kFPObjectExists, kFPNoErr], [])) = .ok (0, k') ∧
      RenameReports (moves k'.peer.2) 0 := by
  obtain ⟨hreports, hreturns⟩ := rename_reports_iff scriptedStation .plain (fun _ => 0) ⟨false, 0⟩ ⟨false, 0⟩ [47, 97]
    [47, 98] (State.start ([kFPObjectExists, kFPNoErr], []))
  obtain ⟨ret, k', hrun⟩ := hreturns (some [47, 97]) (some [47, 98]) rfl rfl rfl rfl
  obtain ⟨log, hlog, hiff⟩ := hreports ret k' hrun
  cases hrun
  refine ⟨_, rfl, ?_⟩
  rw [hlog]
  refine hiff.mpr ⟨?_, fun c hc => ?_⟩
  all_goals cases hlog
  · decide
  · cases hc
    exact .inl rfl

/-- A rename of `/a` to `/b` returns 0 although its last move was not answered `kFPNoErr`. -/
def HidesErrors (codes : List Int) : Prop :=
  ∃ k', mlRename scriptedStation.logged .plain (fun _ => 0) ⟨false, 0⟩ ⟨false, 0⟩ [47, 97] [47, 98]
      (State.start (codes, [])) = .ok (0, k') ∧
    moves k'.peer.2 = codes ∧ ¬ RenameReports codes 0

/-- A source that does not exist is reported as renamed; so is one that could not take the place of an object. -/
theorem rename_hides_errors :
    HidesErrors [kFPObjectNotFound] ∧ HidesErrors [kFPObjectExists, kFPMiscErr] ∧
      HidesErrors [kFPObjectExists, Dsi.ETIMEDOUT] :=
  ⟨⟨_, rfl, rfl, by decide⟩, ⟨_, rfl, rfl, by decide⟩, ⟨_, rfl, rfl, by decide⟩⟩

end AfpfsNg.Wire
