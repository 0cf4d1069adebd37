import AfpfsNg.Dsi.Recv

/-!
# Unmounting and reconnecting

`afp_unmount_volume` and `afp_unmount_all_volumes` (`lib/afp.c`) with the requests that they and `remove_fork_list`
(`lib/forklist.c`) send, and the loop of `afp_server_reconnect` over the volumes, which calls `afp_connect_volume`. When the
last volume goes, `afp_unmount_volume` logs out and removes the server. `afp_connect_volume` calls it too, for a volume that
does not have fixed directory ids any more, and the loop goes on.

The results of the requests are not looked at, but for FPOpenVol. The cache of directory ids is in `Did.Nodes`.
-/

namespace AfpfsNg.Afp
open AfpfsNg.Dsi (MountState somethingIsMounted)

/-- The requests that end the use of a volume. -/
inductive Parting where
  | flush (volid : UInt16)
  | flushfork (forkid : UInt16)
  | closefork (forkid : UInt16)
  | closedt (refnum : UInt16)
  | logout
  deriving DecidableEq, Repr

structure OpenVolume where
  volid : UInt16
  mounted : MountState
  dtrefnum : UInt16
  openForks : List UInt16
  /-- `mountpoint` is not empty -/
  placed : Bool
  deriving DecidableEq, Repr

/-- What a function returns and leaves, what it has sent, and whether the server was removed. -/
structure Ending (α : Type) where
  ret : Int
  left : α
  sent : List Parting
  removed : Bool
  deriving DecidableEq, Repr

def removeForkList (v : OpenVolume) : List Parting := v.openForks.flatMap fun id => [.flushfork id, .closefork id]

/-- What `afp_unmount_volume` sends for a volume. -/
def OpenVolume.partings (v : OpenVolume) : List Parting :=
  .flush v.volid :: (removeForkList v ++ if v.dtrefnum ≠ 0 then [.closedt v.dtrefnum] else [])

def OpenVolume.unmounted (v : OpenVolume) : OpenVolume := { v with mounted := .unmounted, dtrefnum := 0, openForks := [] }

/-- C `afp_unmount_volume`, for the volume between `before` and `after`. -/
def afpUnmountVolume (before : List OpenVolume) (v : OpenVolume) (after : List OpenVolume) : Ending OpenVolume :=
  if v.mounted ≠ .mounted then ⟨-1, v, [], false⟩
  else if somethingIsMounted ((before ++ v.unmounted :: after).map (·.mounted)) then ⟨0, v.unmounted, v.partings, false⟩
  else ⟨-1, v.unmounted, v.partings ++ [.logout], true⟩

/-- The loop of `afp_unmount_all_volumes`, from the volume after `before` on. -/
def unmountLoop (before : List OpenVolume) : List OpenVolume → Ending (List OpenVolume)
  | [] => ⟨0, before, [], false⟩
  | v :: after =>
    if v.mounted = .mounted then
      let e := afpUnmountVolume before v after
      if e.ret ≠ 0 then ⟨1, before ++ e.left :: after, e.sent, e.removed⟩
      else
        let rest := unmountLoop (before ++ [e.left]) after
        { rest with sent := e.sent ++ rest.sent }
    else unmountLoop (before ++ [v]) after

def afpUnmountAllVolumes (vs : List OpenVolume) : Ending (List OpenVolume) := unmountLoop [] vs

/-- What `afp_volopen` returns, and what it leaves in the volume. -/
structure Reopening where
  code : Int
  volid : UInt16
  /-- `signature` is `AFP_VOL_FIXED` -/
  fixed : Bool

/-- The codes after which `afp_connect_volume` gives up. Any other counts as success. -/
def volopenErrors : List Int := [-5000, -5004, -5014, -5018, -5019, 110]

def afpConnectVolume (before : List OpenVolume) (v : OpenVolume) (after : List OpenVolume) (r : Reopening) :
    Ending OpenVolume :=
  let v := { v with volid := r.volid }
  if r.code ∈ volopenErrors then ⟨1, v, [], false⟩
  else if r.fixed then ⟨0, { v with mounted := .mounted }, [], false⟩
  else { afpUnmountVolume before v after with ret := 1 }

/-- The loop of `afp_server_reconnect`. There is no result if the server is used after it was freed. -/
def reconnectLoop (before : List OpenVolume) : List (OpenVolume × Reopening) → Option (List OpenVolume)
  | [] => some before
  | (v, r) :: after =>
    if v.placed then
      let e := afpConnectVolume before v (after.map Prod.fst) r
      if e.removed then none else reconnectLoop (before ++ [e.left]) after
    else reconnectLoop (before ++ [v]) after

/-- Some volume is mounted, and none is about to be unmounted elsewhere. -/
def LastGo (vs : List OpenVolume) : Prop := (∃ v ∈ vs, v.mounted = .mounted) ∧ ∀ v ∈ vs, v.mounted ≠ .unmounting

instance (vs : List OpenVolume) : Decidable (LastGo vs) := inferInstanceAs (Decidable (_ ∧ _))

def OpenVolume.settled (v : OpenVolume) : OpenVolume := if v.mounted = .mounted then v.unmounted else v

section Unmount
variable {before after vs : List OpenVolume} {v : OpenVolume}

lemma somethingIsMounted_iff :
    somethingIsMounted (vs.map (·.mounted)) = true ↔ ∃ v ∈ vs, v.mounted ≠ .unmounted := by
  simp [somethingIsMounted]

lemma afpUnmountVolume_stays (hv : v.mounted = .mounted)
    (h : ∃ w ∈ before ++ v.unmounted :: after, w.mounted ≠ .unmounted) :
    afpUnmountVolume before v after = ⟨0, v.unmounted, v.partings, false⟩ := by
  rw [afpUnmountVolume, if_neg (not_not.2 hv), if_pos (somethingIsMounted_iff.2 h)]

lemma afpUnmountVolume_last (hv : v.mounted = .mounted)
    (h : ∀ w ∈ before ++ v.unmounted :: after, w.mounted = .unmounted) :
    afpUnmountVolume before v after = ⟨-1, v.unmounted, v.partings ++ [.logout], true⟩ := by
  have hs : ¬ somethingIsMounted ((before ++ v.unmounted :: after).map (·.mounted)) = true := by
    rw [somethingIsMounted_iff]
    rintro ⟨w, hw, hne⟩
    exact hne (h w hw)
  rw [afpUnmountVolume, if_neg (not_not.2 hv), if_neg hs]

lemma forall_mem_mid {P : OpenVolume → Prop} :
    (∀ w ∈ before ++ v :: after, P w) ↔ (∀ w ∈ before, P w) ∧ P v ∧ ∀ w ∈ after, P w := by
  rw [List.forall_mem_append, List.forall_mem_cons]

lemma lastGo_unmounted_iff (hv : v.mounted = .mounted)
    (h : ∃ w ∈ before ++ v.unmounted :: after, w.mounted ≠ .unmounted) :
    LastGo (before ++ v.unmounted :: after) ↔ LastGo (before ++ v :: after) := by
  have hcoming : (∀ w ∈ before ++ v.unmounted :: after, w.mounted ≠ .unmounting) ↔
      ∀ w ∈ before ++ v :: after, w.mounted ≠ .unmounting := by
    rw [forall_mem_mid, forall_mem_mid, hv]
    exact and_congr_right fun _ => and_congr_left fun _ => iff_of_true (by rintro ⟨⟩) (by rintro ⟨⟩)
  rw [LastGo, LastGo, hcoming]
  refine and_congr_left fun hall => iff_of_true ?_ ⟨v, by simp, hv⟩
  obtain ⟨w, hw, hne⟩ := h
  have hother := hcoming.2 hall w hw
  refine ⟨w, hw, ?_⟩
  cases hm : w.mounted with
  | unmounted => exact absurd hm hne
  | mounted => rfl
  | unmounting => exact absurd hm hother

lemma unmountLoop_eq (hbefore : ∀ v ∈ before, v.mounted ≠ .mounted) :
    unmountLoop before vs = ⟨if LastGo (before ++ vs) then 1 else 0, before ++ vs.map OpenVolume.settled,
      (vs.filter (·.mounted = .mounted)).flatMap OpenVolume.partings ++ (if LastGo (before ++ vs) then [.logout] else []),
      LastGo (before ++ vs)⟩ := by
  induction vs generalizing before with
  | nil =>
    have hnone : ¬ LastGo (before ++ []) := by
      rintro ⟨⟨v, hv, hm⟩, -⟩
      exact hbefore v (by simpa using hv) hm
    rw [unmountLoop, if_neg hnone, if_neg hnone, decide_eq_false hnone, List.map_nil, List.append_nil]
    rfl
  | cons v vs ih =>
    have hstep (w : OpenVolume) (hw : w.mounted ≠ .mounted) := @ih (before ++ [w])
      (List.forall_mem_append.2 ⟨hbefore, List.forall_mem_singleton.2 hw⟩)
    simp only [List.append_assoc, List.singleton_append] at hstep
    rw [unmountLoop, List.map_cons, OpenVolume.settled]
    by_cases hv : v.mounted = .mounted
    · rw [if_pos hv, if_pos hv, List.filter_cons_of_pos (by simpa using hv), List.flatMap_cons]
      by_cases hs : ∃ w ∈ before ++ v.unmounted :: vs, w.mounted ≠ .unmounted
      · rw [afpUnmountVolume_stays hv hs]
        simp only [hstep v.unmounted (by rintro ⟨⟩), lastGo_unmounted_iff hv hs, List.append_assoc]
        rfl
      · -- nothing is mounted behind `v`
        have hrest : ∀ w ∈ before ++ v.unmounted :: vs, w.mounted = .unmounted := by simpa using hs
        obtain ⟨hfront, -, hvs⟩ := forall_mem_mid.1 hrest
        have hlast : LastGo (before ++ v :: vs) := by
          refine ⟨⟨v, by simp, hv⟩, forall_mem_mid.2 ⟨?_, by rw [hv]; rintro ⟨⟩, ?_⟩⟩
          · intro w hw
            rw [hfront w hw]
            rintro ⟨⟩
          · intro w hw
            rw [hvs w hw]
            rintro ⟨⟩
        have hfilter : vs.filter (·.mounted = .mounted) = [] := by
          rw [List.filter_eq_nil_iff]
          intro w hw
          simp [hvs w hw]
        have hmap : vs.map OpenVolume.settled = vs := by
          refine (List.map_congr_left fun w hw => ?_).trans (List.map_id vs)
          simp [OpenVolume.settled, hvs w hw]
        rw [afpUnmountVolume_last hv hrest, hfilter, hmap, if_pos hlast, if_pos hlast, decide_eq_true hlast,
          List.flatMap_nil, List.append_nil]
        rfl
    · rw [if_neg hv, if_neg hv, List.filter_cons_of_neg (by simpa using hv), hstep v hv]

/-- The states of the volumes are those of `Dsi.Recv`. -/
lemma unmountFrom_eq : Dsi.unmountFrom (before.map (·.mounted)) (vs.map (·.mounted)) =
    if (unmountLoop before vs).removed then none else some ((unmountLoop before vs).left.map (·.mounted)) := by
  induction vs generalizing before with
  | nil => rfl
  | cons v vs ih =>
    have hstep (w : OpenVolume) := @ih (before ++ [w])
    simp only [List.map_append, List.map_cons, List.map_nil] at hstep
    rw [unmountLoop, List.map_cons]
    by_cases hv : v.mounted = .mounted
    · have hcond : somethingIsMounted (before.map (·.mounted) ++ .unmounted :: vs.map (·.mounted)) = true ↔
          ∃ w ∈ before ++ v.unmounted :: vs, w.mounted ≠ .unmounted := by
        rw [← somethingIsMounted_iff, List.map_append, List.map_cons]
        rfl
      rw [if_pos hv, hv, Dsi.unmountFrom]
      by_cases hs : ∃ w ∈ before ++ v.unmounted :: vs, w.mounted ≠ .unmounted
      · rw [if_pos (hcond.2 hs), afpUnmountVolume_stays hv hs]
        exact hstep v.unmounted
      · rw [if_neg (mt hcond.1 hs), afpUnmountVolume_last hv (by simpa using hs)]
        rfl
    · rw [if_neg hv, ← hstep v]
      cases hm : v.mounted with
      | mounted => exact absurd hm hv
      | unmounted => rfl
      | unmounting => rfl

end Unmount

/-- Each mounted volume is flushed, its forks are flushed and closed and its desktop database is closed, in this order and
once. If no other volume is left then the session is closed behind all that, and the server is removed. -/
theorem unmount_all_volumes (vs : List OpenVolume) :
    (afpUnmountAllVolumes vs).left = vs.map OpenVolume.settled ∧
    (afpUnmountAllVolumes vs).sent = (vs.filter (·.mounted = .mounted)).flatMap OpenVolume.partings ++
      (if LastGo vs then [.logout] else []) ∧
    ((afpUnmountAllVolumes vs).removed = true ↔ LastGo vs) ∧ ((afpUnmountAllVolumes vs).ret = 0 ↔ ¬ LastGo vs) ∧
    Dsi.afpUnmountAllVolumes (vs.map (·.mounted)) =
      if (afpUnmountAllVolumes vs).removed then none else some ((afpUnmountAllVolumes vs).left.map (·.mounted)) := by
  refine ⟨?_, ?_, ?_, ?_, @unmountFrom_eq [] vs⟩ <;> rw [afpUnmountAllVolumes, unmountLoop_eq (List.forall_mem_nil _)]
  · rfl
  · rfl
  · exact decide_eq_true_iff
  · rw [List.nil_append]
    split <;> simp_all

/-- The volume after its round in `afp_server_reconnect`. -/
def reconnected (p : OpenVolume × Reopening) : OpenVolume :=
  if p.1.placed then (afpConnectVolume [] p.1 [] p.2).left else p.1

/-- A volume that was mounted is opened again, but its ids are not fixed. -/
def Loses (p : OpenVolume × Reopening) : Prop :=
  p.1.placed = true ∧ p.2.code ∉ volopenErrors ∧ p.2.fixed = false ∧ p.1.mounted = .mounted

section Reconnect
variable {before after : List OpenVolume} {v : OpenVolume} {r : Reopening} {vs : List (OpenVolume × Reopening)}

lemma left_afpUnmountVolume : (afpUnmountVolume before v after).left = v.settled := by
  rw [afpUnmountVolume, OpenVolume.settled, ite_not]
  split
  · split <;> rfl
  · rfl

lemma removed_afpUnmountVolume_iff : (afpUnmountVolume before v after).removed = true ↔
    v.mounted = .mounted ∧ (∀ w ∈ before, w.mounted = .unmounted) ∧ ∀ w ∈ after, w.mounted = .unmounted := by
  by_cases hv : v.mounted = .mounted
  · rw [and_iff_right hv]
    by_cases hs : ∃ w ∈ before ++ v.unmounted :: after, w.mounted ≠ .unmounted
    · rw [afpUnmountVolume_stays hv hs]
      refine iff_of_false Bool.false_ne_true fun h => ?_
      obtain ⟨w, hw, hne⟩ := hs
      exact hne (forall_mem_mid.2 ⟨h.1, rfl, h.2⟩ w hw)
    · have hall : ∀ w ∈ before ++ v.unmounted :: after, w.mounted = .unmounted := by simpa using hs
      rw [afpUnmountVolume_last hv hall]
      exact iff_of_true rfl ⟨(forall_mem_mid.1 hall).1, (forall_mem_mid.1 hall).2.2⟩
  · rw [afpUnmountVolume, if_pos hv]
    exact iff_of_false Bool.false_ne_true fun h => hv h.1

lemma exists_split_cons {α : Type} {Q : List α → α → List α → Prop} {x : α} {xs : List α} :
    (∃ front p rest, x :: xs = front ++ p :: rest ∧ Q front p rest) ↔
      Q [] x xs ∨ ∃ front p rest, xs = front ++ p :: rest ∧ Q (x :: front) p rest := by
  constructor
  · rintro ⟨front, p, rest, h, hQ⟩
    obtain ⟨rfl, hx⟩ | ⟨front', rfl, hx⟩ := List.cons_eq_append_iff.1 h
    · obtain ⟨rfl, rfl⟩ := List.cons.inj hx
      exact .inl hQ
    · exact .inr ⟨front', p, rest, hx, hQ⟩
  · rintro (hQ | ⟨front, p, rest, rfl, hQ⟩)
    · exact ⟨[], x, xs, rfl, hQ⟩
    · exact ⟨x :: front, p, rest, rfl, hQ⟩

lemma left_afpConnectVolume : (afpConnectVolume before v after r).left = (afpConnectVolume [] v [] r).left := by
  rw [afpConnectVolume, afpConnectVolume]
  split_ifs
  · rfl
  · rfl
  · exact left_afpUnmountVolume.trans left_afpUnmountVolume.symm

lemma removed_afpConnectVolume_iff : (afpConnectVolume before v after r).removed = true ↔
    (r.code ∉ volopenErrors ∧ r.fixed = false ∧ v.mounted = .mounted) ∧
      (∀ w ∈ before, w.mounted = .unmounted) ∧ ∀ w ∈ after, w.mounted = .unmounted := by
  rw [afpConnectVolume]
  split_ifs with hcode hfixed
  · exact iff_of_false not_false fun h => h.1.1 hcode
  · exact iff_of_false not_false fun h => Bool.false_ne_true (h.1.2.1.symm.trans hfixed)
  · rw [Bool.not_eq_true] at hfixed
    rw [and_iff_right hcode, and_iff_right hfixed]
    exact removed_afpUnmountVolume_iff

lemma reconnectLoop_cons : reconnectLoop before ((v, r) :: vs) = none ↔
    (Loses (v, r) ∧ (∀ w ∈ before, w.mounted = .unmounted) ∧ ∀ q ∈ vs, q.1.mounted = .unmounted) ∨
      reconnectLoop (before ++ [reconnected (v, r)]) vs = none := by
  have hrest : (∀ w ∈ vs.map Prod.fst, w.mounted = .unmounted) ↔ ∀ q ∈ vs, q.1.mounted = .unmounted := by
    rw [List.forall_mem_map]
  rw [reconnectLoop, Loses, reconnected, ← hrest]
  by_cases hp : v.placed = true
  · rw [if_pos hp, if_pos hp, and_iff_right hp, ← removed_afpConnectVolume_iff]
    by_cases hr : (afpConnectVolume before v (vs.map Prod.fst) r).removed = true
    · rw [if_pos hr]
      exact iff_of_true rfl (.inl hr)
    · rw [if_neg hr, left_afpConnectVolume, or_iff_right hr]
  · rw [if_neg hp, if_neg hp, or_iff_right fun h => hp h.1.1]

lemma reconnectLoop_eq_none_iff : reconnectLoop before vs = none ↔ (∀ w ∈ before, w.mounted = .unmounted) ∧
    ∃ front p rest, vs = front ++ p :: rest ∧ Loses p ∧ (∀ q ∈ front, (reconnected q).mounted = .unmounted) ∧
      ∀ q ∈ rest, q.1.mounted = .unmounted := by
  induction vs generalizing before with
  | nil => simp [reconnectLoop]
  | cons p vs ih =>
    rw [reconnectLoop_cons, exists_split_cons, ih, List.forall_mem_append, List.forall_mem_singleton]
    simp only [List.forall_mem_cons, and_or_left]
    refine or_congr ?_ ?_
    · rw [and_left_comm]
      simp
    · rw [and_assoc]
      refine and_congr_right fun _ => ?_
      constructor
      · rintro ⟨hp, front, q, rest, rfl, hq, hfront, hrest⟩
        exact ⟨front, q, rest, rfl, hq, ⟨hp, hfront⟩, hrest⟩
      · rintro ⟨front, q, rest, rfl, hq, ⟨hp, hfront⟩, hrest⟩
        exact ⟨hp, front, q, rest, rfl, hq, hfront, hrest⟩

end Reconnect

/-- The loop uses the server after it was freed in just one case: a volume that was mounted comes back without fixed ids when
each volume before it is unmounted after its own round, and each one after it still is. -/
theorem reconnect_uses_freed_iff (vs : List (OpenVolume × Reopening)) :
    reconnectLoop [] vs = none ↔ ∃ front p rest, vs = front ++ p :: rest ∧ Loses p ∧
      (∀ q ∈ front, (reconnected q).mounted = .unmounted) ∧ ∀ q ∈ rest, q.1.mounted = .unmounted := by
  rw [reconnectLoop_eq_none_iff, and_iff_right (List.forall_mem_nil _)]

end AfpfsNg.Afp
