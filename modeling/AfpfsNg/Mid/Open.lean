import AfpfsNg.Mid.Attributes

/-!
# Opening with `O_CREAT`

`ll_open` (`lib/lowlevel.c`) creates the file when it is not there and `O_CREAT` is given, and tries again; so
do `appledouble_open` and `ml_open` through it. The loop has no bound: a server that creates the file and
still does not find it keeps it going, and the model has a number of rounds for that.

Without `O_CREAT` these are the functions of `AfpfsNg.Fork.Open` (`mlOpen_of_not_creat`).
-/

namespace AfpfsNg.Mid
open AfpfsNg.Base AfpfsNg.Afp AfpfsNg.Did AfpfsNg.Fork AfpfsNg.Proto

structure Flags extends OpenFlags where
  creat : Bool
  deriving DecidableEq, Repr

section Code
variable {σ : Type} (S : Station σ) (m : Mount) (clock : Nat → Nat)

def opened (flags : OpenFlags) (fp : FileHandle) : Op σ (Int × FileHandle) := do
  modify fun k => { k with openForks := fp.addr :: k.openForks }
  if flags.trunc then
    let ret ← onClient fun k => .ok (llZeroFile S.peer m.toVolume k fp.forkid (fp.resource ≠ .none))
    return (-ret, fp)
  else return (0, fp)

/-- `ll_open` from the label `try_again` on. -/
def tryOpen (fi : FileInfo) (path : Bytes) (flags : Flags) (fp : FileHandle) : Nat → Op σ (Int × FileHandle)
  | 0 => throw .outOfFuel
  | rounds + 1 => do
    let aflags := if flags.wronly ∨ flags.rdwr then 3 else 1
    let a ← onClient fun k => .ok (k.call S.peer (.openfork (fp.resource ≠ .none) fp.did aflags fp.basename))
    let fp := if a.code = kFPNoErr ∨ a.code = kFPDenyConflict then { fp with forkid := a.refnum } else fp
    if a.code = kFPObjectNotFound ∧ flags.creat then
      let ret ← mlCreat S m clock fi path 0o644
      if ret = 0 then tryOpen fi path flags fp rounds
      else return (-ENOENT, fp)
    else
      let ret := switch openErrors EFAULT a.code
      if ret ≠ 0 then return (-ret, fp)
      else opened S m flags.toOpenFlags fp

def llOpen (rounds : Nat) (fi : FileInfo) (path : Bytes) (flags : Flags) (fp : FileHandle) :
    Op σ (Int × FileHandle) := do
  let (ret, fp) ← onClient fun k => .ok (checkSize S.peer m.toVolume k flags.toOpenFlags fp)
  if ret ≠ 0 then return (-ret, fp)
  else tryOpen S m clock fi path flags fp rounds

def appledoubleOpen (rounds : Nat) (fi fi' : FileInfo) (path : Bytes) (flags : Flags) (fp : FileHandle) :
    Op σ (Int × FileHandle) := do
  match ← extraTranslate m.toVolume path with
  | (.resource, newpath) =>
    match ← getDirid S clock fi newpath with
    | none => return (-ENOENT, { fp with resource := .resource })
    | some (did, basename) =>
      let (ret, fp) ← llOpen S m clock rounds fi' newpath flags
        { fp with resource := .resource, did := did, basename := basename }
      return (if ret < 0 then ret else 1, fp)
  -- the others do not look at the flags
  | _ => onClient fun k => Fork.appledoubleOpen S.peer m.toVolume clock fi k path flags.toOpenFlags fp

/-- C `ml_open`: the result and `*newfp`, once that is set. -/
def mlOpen (rounds : Nat) (fi fi' : FileInfo) (path : Bytes) (flags : Flags) : Op σ (Int × Option FileHandle) := do
  match ← convertPathToAfp m.toVolume path with
  | none => return (-EINVAL, none)
  | some convertedPath =>
    if invalidFilename m.toVolume convertedPath then return (-ENAMETOOLONG, none)
    else if volumeIsReadonly m.toVolume ∧
        (flags.wronly ∨ flags.rdwr ∨ flags.trunc ∨ flags.append ∨ flags.creat) then
      return (-EACCES, none)
    else
      let fp : FileHandle := ⟨(← get).mallocs, 0, .none, 0, [], List.replicate 32 0, false⟩
      modify fun k => { k with mallocs := k.mallocs + 1 }
      let (ret, fp) ← appledoubleOpen S m clock rounds fi fi' path flags fp
      if ret < 0 then return (ret, some fp)
      else if ret = 1 then return (0, some fp)
      else
        match ← getDirid S clock fi convertedPath with
        | none => return (-ENOENT, some fp)
        | some (dirid, basename) =>
          let (ret, fp) ← llOpen S m clock rounds fi' convertedPath flags
            { fp with did := dirid, basename := basename }
          return (if ret < 0 then ret else 0, some fp)

end Code

section NotCreat
variable {σ : Type} {S : Station σ} {m : Mount} {clock : Nat → Nat} {rounds : Nat} {fi fi' : FileInfo} {path : Bytes}
  {flags : OpenFlags} {fp : FileHandle}

lemma llOpen_of_not_creat :
    llOpen S m clock (rounds + 1) fi path ⟨flags, false⟩ fp =
      onClient fun k => .ok (Fork.llOpen S.peer m.toVolume k flags fp) := by
  funext k
  simp only [llOpen, tryOpen, onClient, Fork.llOpen, Except.map]
  rw [run_bind_ok rfl]
  generalize checkSize S.peer m.toVolume k.toClient flags fp = r
  obtain ⟨⟨ret, fp⟩, k₁⟩ := r
  simp only
  split
  · rfl
  · rw [run_bind_ok rfl]
    generalize k₁.call S.peer _ = r
    obtain ⟨a, k₂⟩ := r
    simp only [Bool.false_eq_true, and_false, if_false]
    generalize (if a.code = kFPNoErr ∨ a.code = kFPDenyConflict then _ else _) = fp
    split
    · rfl
    · simp only [opened]
      rw [run_bind_ok rfl]
      split
      · rfl
      · rfl

lemma appledoubleOpen_of_not_creat :
    appledoubleOpen S m clock (rounds + 1) fi fi' path ⟨flags, false⟩ fp =
      onClient fun k => Fork.appledoubleOpen S.peer m.toVolume clock fi k path flags fp := by
  funext k
  cases h : extraTranslate m.toVolume path with
  | error f =>
    simp only [appledoubleOpen, onClient, Fork.appledoubleOpen, h]
    rfl
  | ok r =>
    obtain ⟨kind, newpath⟩ := r
    simp only [appledoubleOpen, h]
    rw [run_bind_ok rfl]
    cases kind with
    | resource =>
      simp only [llOpen_of_not_creat, getDirid, onClient, Fork.appledoubleOpen, h]
      change (Except.map _ (k.toClient.getDirid S.peer clock fi newpath) >>= _) =
        Except.map _ (k.toClient.getDirid S.peer clock fi newpath >>= _)
      cases k.toClient.getDirid S.peer clock fi newpath with
      | error f => rfl
      | ok r =>
        obtain ⟨r, k₁⟩ := r
        cases r with
        | none => rfl
        | some r => rfl
    | _ => rfl

theorem mlOpen_of_not_creat :
    mlOpen S m clock (rounds + 1) fi fi' path ⟨flags, false⟩ =
      onClient fun k => Fork.mlOpen S.peer m.toVolume clock fi k path flags := by
  funext k
  cases h : convertPathToAfp m.toVolume path with
  | error f =>
    simp only [mlOpen, onClient, Fork.mlOpen, h]
    rfl
  | ok r =>
    simp only [mlOpen, onClient, Fork.mlOpen, h]
    rw [run_bind_ok rfl]
    cases r with
    | none => rfl
    | some convertedPath =>
      simp only [Bool.false_eq_true, or_false, appledoubleOpen_of_not_creat, llOpen_of_not_creat, getDirid]
      change (ite _ _ _ : Op σ _) k = Except.map _ (ite _ _ _)
      split
      · rfl
      · split
        · rfl
        · rw [run_bind_ok rfl, run_bind_ok rfl]
          change (Except.map _ (Fork.appledoubleOpen S.peer m.toVolume clock fi _ path flags _) >>= _) =
            Except.map _ (Fork.appledoubleOpen S.peer m.toVolume clock fi _ path flags _ >>= _)
          cases Fork.appledoubleOpen S.peer m.toVolume clock fi _ path flags _ with
          | error f => rfl
          | ok r =>
            obtain ⟨⟨ret, fp⟩, k₁⟩ := r
            change (ite _ _ _ : Op σ _) _ = Except.map _ (ite _ _ _)
            split
            · rfl
            · split
              · rfl
              · change (Except.map _ (k₁.getDirid S.peer clock fi convertedPath) >>= _) =
                  Except.map _ (k₁.getDirid S.peer clock fi convertedPath >>= _)
                cases k₁.getDirid S.peer clock fi convertedPath with
                | error f => rfl
                | ok r =>
                  obtain ⟨r, k₂⟩ := r
                  cases r with
                  | none => rfl
                  | some r => rfl

end NotCreat

end AfpfsNg.Mid
