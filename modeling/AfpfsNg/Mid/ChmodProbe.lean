import AfpfsNg.Mid.Attributes

/-!
# What is known of a server's modes

`set_unixprivs` (`lib/midlevel.c`) tries out once whether a netatalk server keeps all the bits of a mode, and keeps the
answer in two bits of `extra_flags`.
-/

namespace AfpfsNg.Mid
open AfpfsNg.Base AfpfsNg.Afp AfpfsNg.Fork AfpfsNg.Proto

/-- The request of `get_unixprivs`. -/
def Command.isProbe : Command → Bool
  | .fork (.getfiledirparms ..) => true
  | _ => false

/-- An FPSetFileDirParms sets no bit but those that every server keeps. -/
def Command.Stripped : Command → Prop
  | .setparms .filedir _ _ (.unixprivs u) => u.permissions &&& ~~~chmodAllowedBits = 0
  | _ => True

structure PrivsCall where
  dirid : Nat
  basename : Bytes
  isdir : Bool
  unixprivs : Unixprivs

def setAllUnixprivs {σ : Type} (S : Station σ) (m : Mount) : List PrivsCall → Op σ (List Int)
  | [] => return []
  | c :: calls => do
    let ret ← setUnixprivs S m c.dirid c.basename c.isdir c.unixprivs
    let rets ← setAllUnixprivs S m calls
    return ret :: rets

/-- What happens to the two bits, and what is sent meanwhile. -/
structure Remembers {σ : Type} (netatalk : Bool) (k k' : State (σ × List (Command × Answer))) : Prop where
  broken : (k.chmodBroken = true → k.chmodKnown = true) → k'.chmodBroken = true → k'.chmodKnown = true
  known : k.chmodKnown = true → k'.chmodKnown = true ∧ k'.chmodBroken = k.chmodBroken
  sent : ∃ sent, k'.peer.2 = k.peer.2 ++ sent ∧ (k.chmodKnown = true → ∀ x ∈ sent, x.1.isProbe = false) ∧
    (netatalk = true → k.chmodKnown = true → k.chmodBroken = true → ∀ x ∈ sent, x.1.Stripped)

section Remembers
variable {σ : Type} {netatalk : Bool} {k k₁ k₂ : State (σ × List (Command × Answer))}

lemma Remembers.refl (k : State (σ × List (Command × Answer))) : Remembers netatalk k k where
  broken h := h
  known h := ⟨h, rfl⟩
  sent := ⟨[], (List.append_nil _).symm, fun _ => List.forall_mem_nil _, fun _ _ _ => List.forall_mem_nil _⟩

lemma Remembers.trans (h₁ : Remembers netatalk k k₁) (h₂ : Remembers netatalk k₁ k₂) : Remembers netatalk k k₂ where
  broken h := h₂.broken (h₁.broken h)
  known h := by
    obtain ⟨hknown₁, hbroken₁⟩ := h₁.known h
    obtain ⟨hknown₂, hbroken₂⟩ := h₂.known hknown₁
    exact ⟨hknown₂, hbroken₂.trans hbroken₁⟩
  sent := by
    obtain ⟨sent₁, hlog₁, hprobe₁, hstrip₁⟩ := h₁.sent
    obtain ⟨sent₂, hlog₂, hprobe₂, hstrip₂⟩ := h₂.sent
    refine ⟨sent₁ ++ sent₂, by rw [hlog₂, hlog₁, List.append_assoc], fun hknown x hx => ?_,
      fun hserver hknown hbroken x hx => ?_⟩
    · obtain ⟨hknown₁, -⟩ := h₁.known hknown
      exact (List.mem_append.mp hx).elim (hprobe₁ hknown x) (hprobe₂ hknown₁ x)
    · obtain ⟨hknown₁, hbroken₁⟩ := h₁.known hknown
      exact (List.mem_append.mp hx).elim (hstrip₁ hserver hknown hbroken x)
        (hstrip₂ hserver hknown₁ (hbroken₁.trans hbroken) x)

variable (S : Station σ)

lemma remembers_call (c : Command) (hprobe : k.chmodKnown = true → c.isProbe = false)
    (hstrip : netatalk = true → k.chmodKnown = true → k.chmodBroken = true → c.Stripped) :
    Remembers netatalk k { k with peer := (S.logged.respond k.peer c).2 } where
  broken h := h
  known h := ⟨h, rfl⟩
  sent := ⟨[(c, (S.respond k.peer.1 c).1)], rfl, fun hknown => List.forall_mem_singleton.mpr (hprobe hknown),
    fun hserver hknown hbroken => List.forall_mem_singleton.mpr (hstrip hserver hknown hbroken)⟩

variable (m : Mount)

lemma checkUnixprivs_remembers (dirid : Nat) (basename : Bytes) (permissions : UInt32) (ret : Int)
    (k : State (σ × List (Command × Answer))) :
    ∃ r k', checkUnixprivs S.logged m dirid basename permissions ret k = .ok (r, k') ∧ Remembers m.netatalk k k' := by
  have hget : (get : Op (σ × List (Command × Answer)) _) k = .ok (k, k) := rfl
  rw [checkUnixprivs, run_bind_ok hget]
  split
  case isTrue hcheck =>
    obtain ⟨-, hunknown, -⟩ := hcheck
    let c := Command.fork (.getfiledirparms dirid kFPUnixPrivsBit kFPUnixPrivsBit basename)
    let k₁ := { k with peer := (S.logged.respond k.peer c).2 }
    obtain ⟨r, hprobe⟩ : ∃ r, getUnixprivs S.logged dirid basename k = .ok (r, k₁) := ⟨_, rfl⟩
    have hcall : Remembers m.netatalk k k₁ :=
      remembers_call S c (fun hknown => absurd hknown hunknown) fun _ hknown => absurd hknown hunknown
    rw [run_bind_ok hprobe]
    show ∃ r' k', (if r.1 ≠ 0 then _ else _ : Op _ Int) k₁ = .ok (r', k') ∧ _
    split
    case isTrue => exact ⟨r.1, k₁, rfl, hcall⟩
    case isFalse =>
      -- the answer is stored with the bits it was asked for, which were not known before
      let kept := r.2.unixprivs.permissions &&& tocheckBits = permissions &&& tocheckBits
      let k₂ := { k₁ with chmodKnown := true, chmodBroken := ¬ kept }
      have hstore : Remembers m.netatalk k k₂ :=
        { broken := fun _ _ => rfl
          known := fun hknown => absurd hknown hunknown
          sent := hcall.sent }
      refine ⟨if kept then -ret else -EFAULT, k₂, ?_, hstore⟩
      show (if kept then pure (-ret) else pure (-EFAULT) : Op _ Int) k₂ = _
      split
      case isTrue => rfl
      case isFalse => rfl
  case isFalse => exact ⟨-ret, k, rfl, .refl k⟩

lemma setUnixprivs_remembers (dirid : Nat) (basename : Bytes) (isdir : Bool) (u : Unixprivs)
    (k : State (σ × List (Command × Answer))) :
    ∃ r k', setUnixprivs S.logged m dirid basename isdir u k = .ok (r, k') ∧ Remembers m.netatalk k k' := by
  have hget : (get : Op (σ × List (Command × Answer)) _) k = .ok (k, k) := rfl
  rw [setUnixprivs]
  split
  case isTrue => exact ⟨0, k, rfl, .refl k⟩
  case isFalse =>
    rw [run_bind_ok hget]
    let u' : Unixprivs := if ¬ isdir ∧ m.netatalk ∧ k.chmodKnown ∧ k.chmodBroken then
      { u with uaPermissions := 0, permissions := u.permissions &&& chmodAllowedBits } else { u with uaPermissions := 0 }
    let c := Command.setparms (if isdir then .dir else .filedir) dirid basename (.unixprivs u')
    let k₁ := { k with peer := (S.logged.respond k.peer c).2 }
    have hcall : Remembers m.netatalk k k₁ := by
      refine remembers_call S c (fun _ => rfl) fun hserver hknown hbroken => ?_
      cases isdir with
      | true => exact trivial
      | false =>
        show (if _ then _ else _ : Unixprivs).permissions &&& ~~~chmodAllowedBits = 0
        rw [if_pos ⟨Bool.false_ne_true, hserver, hknown, hbroken⟩, UInt32.and_assoc, UInt32.and_not_self, UInt32.and_zero]
    obtain ⟨r, k', hrun, hcheck⟩ := checkUnixprivs_remembers S m dirid basename u'.permissions
      (switch [(kFPAccessDenied, EPERM), (kFPBitmapErr, ENOSYS), (kFPObjectNotFound, ENOENT), (kFPNoErr, 0)] EIO
        (S.logged.respond k.peer c).1.code) k₁
    exact ⟨r, k', hrun, hcall.trans hcheck⟩

lemma setAllUnixprivs_remembers (calls : List PrivsCall) (k : State (σ × List (Command × Answer))) :
    ∃ rets k', setAllUnixprivs S.logged m calls k = .ok (rets, k') ∧ Remembers m.netatalk k k' := by
  induction calls generalizing k with
  | nil => exact ⟨[], k, rfl, .refl k⟩
  | cons c calls ih =>
    obtain ⟨r, k₁, hfirst, hstep⟩ := setUnixprivs_remembers S m c.dirid c.basename c.isdir c.unixprivs k
    obtain ⟨rets, k₂, hrest, hrun⟩ := ih k₁
    refine ⟨r :: rets, k₂, ?_, hstep.trans hrun⟩
    rw [setAllUnixprivs, run_bind_ok hfirst, run_bind_ok hrest]
    rfl

end Remembers

/-- After any calls of `set_unixprivs`, modes are broken only if they are known to be; later they stay known, no probe is
made, and if they are broken no bit is set that a broken server would not keep. -/
theorem chmod_probe_remembered {σ : Type} (S : Station σ) (m : Mount) (k : State (σ × List (Command × Answer)))
    (hbroken : k.chmodBroken = false) (before later : List PrivsCall) :
    ∃ rets₁ k₁ rets₂ k₂ sent, setAllUnixprivs S.logged m before k = .ok (rets₁, k₁) ∧
      setAllUnixprivs S.logged m later k₁ = .ok (rets₂, k₂) ∧ k₂.peer.2 = k₁.peer.2 ++ sent ∧
      (k₁.chmodBroken = true → k₁.chmodKnown = true) ∧
      (k₁.chmodKnown = true → k₂.chmodKnown = true ∧ ∀ x ∈ sent, x.1.isProbe = false) ∧
      (m.netatalk = true → k₁.chmodKnown = true → k₁.chmodBroken = true → ∀ x ∈ sent, x.1.Stripped) := by
  obtain ⟨rets₁, k₁, hrun₁, h₁⟩ := setAllUnixprivs_remembers S m before k
  obtain ⟨rets₂, k₂, hrun₂, h₂⟩ := setAllUnixprivs_remembers S m later k₁
  obtain ⟨sent, hsent, hprobe, hstrip⟩ := h₂.sent
  refine ⟨rets₁, k₁, rets₂, k₂, sent, hrun₁, hrun₂, hsent, ?_, fun h => ⟨(h₂.known h).1, hprobe h⟩, hstrip⟩
  apply h₁.broken
  intro h
  rw [hbroken] at h
  cases h

def forgetfulStation : Station Unit where
  query _ _ _ := none
  respond s _ := (.ofCode kFPNoErr, s)

/-- A script made executable on a netatalk server, twice. The first time both bits are set. -/
theorem chmod_probe_remembered_script :
    let m := { Mount.plain with netatalk := true }
    let k : State (Unit × List (Command × Answer)) := .start ((), [])
    let script : PrivsCall := ⟨2, [115], false, ⟨0, 0, 0o100755, 0⟩⟩
    (setAllUnixprivs forgetfulStation.logged m [script] k).map (fun r => (r.2.chmodKnown, r.2.chmodBroken)) = .ok (true, true) ∧
    ∃ rets₁ k₁ rets₂ k₂ sent, setAllUnixprivs forgetfulStation.logged m [script] k = .ok (rets₁, k₁) ∧
      setAllUnixprivs forgetfulStation.logged m [script] k₁ = .ok (rets₂, k₂) ∧ k₂.peer.2 = k₁.peer.2 ++ sent ∧
      (k₁.chmodBroken = true → k₁.chmodKnown = true) ∧
      (k₁.chmodKnown = true → k₂.chmodKnown = true ∧ ∀ x ∈ sent, x.1.isProbe = false) ∧
      (m.netatalk = true → k₁.chmodKnown = true → k₁.chmodBroken = true → ∀ x ∈ sent, x.1.Stripped) :=
  ⟨rfl, chmod_probe_remembered forgetfulStation _ _ rfl _ _⟩

end AfpfsNg.Mid
