import AfpfsNg.Dsi.Lists

/-!
# The choice of a version

`pick_version` (`lib/afp.c`) looks for the version that was asked for among those that `dsi_parse_versions` has stored, and
takes the highest one if it is not there. The array has ten bytes and no terminator when all of them are in use: then the
loop reads the byte behind it.
-/

namespace AfpfsNg.Dsi
open AfpfsNg.Base

/-- The variables of the loop of `pick_version`; a `char` is signed. -/
structure Choice where
  versionNum : Int
  foundVersion : Bool
  highest : Int

/-- The loop of `pick_version`, with the rounds that `i` leaves and what `versions+i` points to. -/
def pickLoop (requested : UInt8) : Nat → Bytes → Choice → Option Choice
  | _, [], _ => none
  | 0, _ :: _, c => some c
  | n + 1, v :: versions, c =>
    if v = 0 then some c
    else
      let versionNum := v.toInt8.toInt
      let c := { c with versionNum, highest := max c.highest versionNum }
      if v = requested then some { c with foundVersion := true } else pickLoop requested n versions c

/-- The request, if there is one, cut to `AFP_MAX_SUPPORTED_VERSION`. -/
def limitRequest (requested : UInt8) : UInt8 := if requested ≠ 0 then min requested 32 else requested

/-- C `pick_version`; `behind` is the byte behind the array. -/
def pickVersion (versions : Bytes) (behind requested : UInt8) : Option (Option (Bytes × UInt8)) := do
  let c ← pickLoop (limitRequest requested) 10 (versions ++ [behind]) ⟨0, false, 0⟩
  let versionNum := if c.foundVersion then c.versionNum else c.highest
  return afpVersions.find? fun v => (v.2.toNat : Int) = versionNum

/-- The version that should be taken from a list when `r` is asked for. -/
structure Honours (listed : Bytes) (r : UInt8) (v : Bytes × UInt8) : Prop where
  known : v ∈ afpVersions
  requested : r ≠ 0 → min r 32 ∈ listed → v.2 = min r 32
  highest : r = 0 ∨ min r 32 ∉ listed → v.2 ∈ listed ∧ ∀ n ∈ listed, n ≤ v.2

def Known (n : UInt8) : Prop := ∃ v ∈ afpVersions, v.2 = n

instance : DecidablePred Known := fun n => inferInstanceAs (Decidable (∃ v ∈ afpVersions, v.2 = n))

lemma afpVersions_char : ∀ v ∈ afpVersions, v.2.toInt8.toInt = v.2.toNat := by decide

lemma Known.char {n : UInt8} (h : Known n) : n ≠ 0 ∧ n.toInt8.toInt = n.toNat := by
  obtain ⟨v, hv, rfl⟩ := h
  exact ⟨(afpVersions_names v hv).2.2, afpVersions_char v hv⟩

/-- What the loop does with the versions of a list, whose end it finds by a zero or by its counter. -/
structure Picked (requested : UInt8) (ns : Bytes) (c c' : Choice) : Prop where
  found : requested ∈ ns → c'.foundVersion = true ∧ c'.versionNum = requested.toNat
  missing : requested ∉ ns → c'.foundVersion = c.foundVersion
  above : c.highest ≤ c'.highest ∧ (requested ∉ ns → ∀ n ∈ ns, (n.toNat : Int) ≤ c'.highest)
  reached : c'.highest = c.highest ∨ ∃ n ∈ ns, c'.highest = n.toNat

lemma Picked.cons {requested v : UInt8} {ns : Bytes} {c c' : Choice} (hv : v ≠ requested)
    (h : Picked requested ns { c with versionNum := v.toNat, highest := max c.highest v.toNat } c') :
    Picked requested (v :: ns) c c' := by
  have hlow : max c.highest (v.toNat : Int) ≤ c'.highest := h.above.1
  refine ⟨fun hmem => h.found (List.mem_of_ne_of_mem hv.symm hmem), fun hmem => h.missing (List.not_mem_of_not_mem_cons hmem),
    ⟨by omega, fun hmem => List.forall_mem_cons.mpr ⟨by omega, h.above.2 (List.not_mem_of_not_mem_cons hmem)⟩⟩, ?_⟩
  rcases h.reached with heq | ⟨n, hn, heq⟩
  · have heq : c'.highest = max c.highest (v.toNat : Int) := heq
    rcases Int.le_total c.highest v.toNat with hle | hle
    · exact .inr ⟨v, List.mem_cons_self, by omega⟩
    · exact .inl (by omega)
  · exact .inr ⟨n, List.mem_cons_of_mem v hn, heq⟩

lemma pickLoop_picked {requested : UInt8} {n : Nat} {ns rest : Bytes} {t : UInt8} {c : Choice} (hns : ∀ v ∈ ns, Known v)
    (hend : ns.length = n ∨ ns.length < n ∧ t = 0) :
    ∃ c', pickLoop requested n (ns ++ t :: rest) c = some c' ∧ Picked requested ns c c' := by
  induction ns generalizing n c with
  | nil =>
    refine ⟨c, ?_, ⟨nofun, fun _ => rfl, ⟨Int.le_refl _, fun _ => nofun⟩, .inl rfl⟩⟩
    rcases hend with rfl | ⟨hlt, rfl⟩
    · rfl
    · obtain ⟨n, rfl⟩ := Nat.exists_eq_add_of_lt hlt
      rfl
  | cons v ns ih =>
    rw [List.length_cons] at hend
    obtain ⟨n, rfl⟩ : ∃ m, n = m + 1 := ⟨n - 1, by omega⟩
    obtain ⟨hv, hns⟩ := List.forall_mem_cons.mp hns
    obtain ⟨hzero, hchar⟩ := hv.char
    rw [List.cons_append, pickLoop, if_neg hzero, hchar]
    by_cases hreq : v = requested
    · subst hreq
      rw [if_pos rfl]
      have hself : v ∈ v :: ns := List.mem_cons_self
      refine ⟨_, rfl, ⟨fun _ => ⟨rfl, rfl⟩, fun h => absurd hself h, ⟨Int.le_max_left .., fun h => absurd hself h⟩, ?_⟩⟩
      rcases Int.le_total c.highest v.toNat with hle | hle
      · exact .inr ⟨v, hself, Int.max_eq_right hle⟩
      · exact .inl (Int.max_eq_left hle)
    · rw [if_neg hreq]
      have hend' : ns.length = n ∨ ns.length < n ∧ t = 0 :=
        hend.imp Nat.succ.inj fun h => ⟨Nat.lt_of_succ_lt_succ h.1, h.2⟩
      obtain ⟨c', hloop, hpicked⟩ := @ih n { c with versionNum := v.toNat, highest := max c.highest v.toNat } hns hend'
      exact ⟨c', hloop, hpicked.cons hreq⟩

lemma length_pascalStrings {buf : Bytes} {maxLen i p : Nat} {names : List Bytes}
    (h : pascalStrings buf maxLen i p = some names) : names.length = i := by
  induction i generalizing p names with
  | zero =>
    cases h
    rfl
  | succ i ih =>
    obtain ⟨name, -, h⟩ := Option.bind_eq_some_iff.mp h
    obtain ⟨rest, hrest, h⟩ := Option.bind_eq_some_iff.mp h
    cases h
    rw [List.length_cons, ih hrest]

lemma dsiParseVersions_known {buf versions : Bytes} {p : Nat} (h : dsiParseVersions buf p = some versions) :
    ∃ ns : Bytes, versions = padded 10 ns ∧ ns.length ≤ 10 ∧ ∀ n ∈ ns, Known n := by
  obtain ⟨numVersions, -, h⟩ := Option.bind_eq_some_iff.mp h
  obtain ⟨names, hnames, h⟩ := Option.bind_eq_some_iff.mp h
  cases h
  refine ⟨_, rfl, ?_, ?_⟩
  · apply Nat.le_trans (List.length_filterMap_le ..)
    rw [length_pascalStrings hnames]
    exact Nat.min_le_left ..
  · intro n hn
    obtain ⟨name, -, hname⟩ := List.mem_filterMap.mp hn
    exact ⟨_, versionNumber_eq_some hname, rfl⟩

lemma Known.listed {ns : Bytes} (hns : ∀ n ∈ ns, Known n) : cString (padded 10 ns) = ns := by
  rw [cString_padded, cString_of_not_mem fun hmem => (hns 0 hmem).char.1 rfl]

lemma padded_ends {ns : Bytes} (behind : UInt8) (hns : ns.length ≤ 10) :
    ∃ t rest, padded 10 ns ++ [behind] = ns ++ t :: rest ∧ (ns.length = 10 ∨ ns.length < 10 ∧ t = 0) := by
  rcases Nat.lt_or_eq_of_le hns with hlt | heq
  · obtain ⟨k, hk⟩ := Nat.exists_eq_add_of_lt hlt
    have hroom : 10 - ns.length = k + 1 := by omega
    refine ⟨0, List.replicate k 0 ++ [behind], ?_, .inr ⟨hlt, rfl⟩⟩
    rw [padded, hroom, List.replicate_succ, List.append_assoc, List.cons_append]
  · refine ⟨behind, [], ?_, .inl heq⟩
    rw [padded_of_length heq]

lemma find_afpVersions : ∀ v ∈ afpVersions, (afpVersions.find? fun w => (w.2.toNat : Int) = v.2.toNat) = some v := by decide

lemma find_zero : (afpVersions.find? fun w => (w.2.toNat : Int) = 0) = none := by decide

lemma Known.find {n : UInt8} (h : Known n) :
    ∃ v ∈ afpVersions, v.2 = n ∧ (afpVersions.find? fun w => (w.2.toNat : Int) = n.toNat) = some v := by
  obtain ⟨v, hv, rfl⟩ := h
  exact ⟨v, hv, rfl, find_afpVersions v hv⟩

lemma Picked.highest_mem {requested : UInt8} {ns : Bytes} {c : Choice} (h : Picked requested ns ⟨0, false, 0⟩ c)
    (hns : ∀ n ∈ ns, Known n) (hreq : requested ∉ ns) (hne : ns ≠ []) :
    ∃ n ∈ ns, c.highest = n.toNat ∧ ∀ m ∈ ns, m ≤ n := by
  have hall := h.above.2 hreq
  rcases h.reached with hzero | ⟨n, hn, heq⟩
  · -- some version is there, and it is above 0
    have hzero : c.highest = 0 := hzero
    obtain ⟨n, hn⟩ := List.exists_mem_of_ne_nil ns hne
    have hle := hall n hn
    have hn0 : n.toNat ≠ 0 := fun h0 => (hns n hn).char.1 (UInt8.toNat_inj.mp h0)
    omega
  · refine ⟨n, hn, heq, fun m hm => UInt8.le_iff_toNat_le.mpr ?_⟩
    have hle := hall m hm
    omega

section Choice
variable {ns : Bytes} {r : UInt8}

lemma limitRequest_mem_iff (hns : ∀ n ∈ ns, Known n) : limitRequest r ∈ ns ↔ r ≠ 0 ∧ min r 32 ∈ ns := by
  rw [limitRequest]
  split
  case isTrue hr => exact (and_iff_right hr).symm
  case isFalse hr =>
    obtain rfl := not_not.mp hr
    exact iff_of_false (fun hmem => (hns 0 hmem).char.1 rfl) fun h => h.1 rfl

lemma pickVersion_picked (behind : UInt8) (hns : ∀ n ∈ ns, Known n) (hlen : ns.length ≤ 10) :
    ∃ c, Picked (limitRequest r) ns ⟨0, false, 0⟩ c ∧ pickVersion (padded 10 ns) behind r =
      some (afpVersions.find? fun v => (v.2.toNat : Int) = if c.foundVersion then c.versionNum else c.highest) := by
  obtain ⟨t, rest, hmem, hend⟩ := padded_ends behind hlen
  obtain ⟨c, hloop, hpicked⟩ := @pickLoop_picked (limitRequest r) 10 ns rest t ⟨0, false, 0⟩ hns hend
  refine ⟨c, hpicked, ?_⟩
  rw [pickVersion, hmem, hloop]
  rfl

lemma pickVersion_found (behind : UInt8) (hns : ∀ n ∈ ns, Known n) (hlen : ns.length ≤ 10) (hmem : limitRequest r ∈ ns) :
    ∃ v ∈ afpVersions, v.2 = limitRequest r ∧ pickVersion (padded 10 ns) behind r = some (some v) := by
  obtain ⟨c, hpicked, hpick⟩ := @pickVersion_picked ns r behind hns hlen
  obtain ⟨hfound, hnum⟩ := hpicked.found hmem
  obtain ⟨v, hv, hnumber, hfind⟩ := (hns _ hmem).find
  refine ⟨v, hv, hnumber, ?_⟩
  rw [hpick, if_pos hfound, hnum, hfind]

lemma pickVersion_highest (behind : UInt8) (hns : ∀ n ∈ ns, Known n) (hlen : ns.length ≤ 10) (hmem : limitRequest r ∉ ns)
    (hne : ns ≠ []) :
    ∃ v ∈ afpVersions, (v.2 ∈ ns ∧ ∀ m ∈ ns, m ≤ v.2) ∧ pickVersion (padded 10 ns) behind r = some (some v) := by
  obtain ⟨c, hpicked, hpick⟩ := @pickVersion_picked ns r behind hns hlen
  obtain ⟨n, hn, hhighest, hall⟩ := hpicked.highest_mem hns hmem hne
  obtain ⟨v, hv, rfl, hfind⟩ := (hns n hn).find
  refine ⟨v, hv, ⟨hn, hall⟩, ?_⟩
  rw [hpick, if_neg (by rw [hpicked.missing hmem]; exact Bool.false_ne_true), hhighest, hfind]

lemma pickVersion_empty (behind r : UInt8) : pickVersion (padded 10 []) behind r = some none := by
  have hloop : pickLoop (limitRequest r) 10 (padded 10 [] ++ [behind]) ⟨0, false, 0⟩ = some ⟨0, false, 0⟩ := rfl
  rw [pickVersion, hloop]
  exact congrArg some find_zero

end Choice

/-- For every array that `dsi_parse_versions` fills, `pick_version` returns `NULL` just if it is empty, and else the version
that was asked for, if it is there, or the highest one. -/
theorem pick_version_honours (buf versions : Bytes) (p : Nat) (hversions : dsiParseVersions buf p = some versions)
    (behind r : UInt8) :
    ∃ chosen, pickVersion versions behind r = some chosen ∧ (chosen = none ↔ cString versions = []) ∧
      ∀ v ∈ chosen, Honours (cString versions) r v := by
  obtain ⟨ns, rfl, hlen, hns⟩ := dsiParseVersions_known hversions
  rw [Known.listed hns]
  by_cases hmem : limitRequest r ∈ ns
  · obtain ⟨hr, hmin⟩ := (limitRequest_mem_iff hns).mp hmem
    obtain ⟨v, hv, hnumber, hpick⟩ := pickVersion_found behind hns hlen hmem
    rw [limitRequest, if_pos hr] at hnumber
    refine ⟨some v, hpick, iff_of_false nofun (List.ne_nil_of_mem hmem), ?_⟩
    rintro w ⟨⟩
    exact ⟨hv, fun _ _ => hnumber, fun h => (h.elim hr fun hnot => hnot hmin).elim⟩
  · by_cases hne : ns = []
    · subst hne
      exact ⟨none, pickVersion_empty behind r, iff_of_true rfl rfl, nofun⟩
    · obtain ⟨v, hv, hhighest, hpick⟩ := pickVersion_highest behind hns hlen hmem hne
      refine ⟨some v, hpick, iff_of_false nofun hne, ?_⟩
      rintro w ⟨⟩
      exact ⟨hv, fun hr hmin => absurd ((limitRequest_mem_iff hns).mpr ⟨hr, hmin⟩) hmem, fun _ => hhighest⟩

theorem pick_version_honours_two :
    dsiParseVersions ([2] ++ [6, 65, 70, 80, 50, 46, 50] ++ [6, 65, 70, 80, 88, 48, 51]) 0 =
      some [22, 30, 0, 0, 0, 0, 0, 0, 0, 0] ∧
    ∃ chosen, pickVersion [22, 30, 0, 0, 0, 0, 0, 0, 0, 0] 255 22 = some chosen ∧
      (chosen = none ↔ cString [22, 30, 0, 0, 0, 0, 0, 0, 0, 0] = []) ∧
      ∀ v ∈ chosen, Honours (cString [22, 30, 0, 0, 0, 0, 0, 0, 0, 0]) 22 v :=
  ⟨by decide, pick_version_honours ([2] ++ [6, 65, 70, 80, 50, 46, 50] ++ [6, 65, 70, 80, 88, 48, 51]) _ 0 (by decide) 255 22⟩

end AfpfsNg.Dsi
