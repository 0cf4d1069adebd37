import AfpfsNg.Proto.Strings
import AfpfsNg.Unicode.Conversions

/-!
# Volumes by their names

`afp_getsrvrparms_reply` makes the list of volumes; from version 3.0 of the protocol on, the name under which a volume is
shown is the composed one. `find_volume_by_name` decomposes the name it is given, by the one sequence that
`convert_utf8pre_to_utf8dec` knows, and compares it with the names that are shown.
-/

namespace AfpfsNg.Proto
open AfpfsNg.Base AfpfsNg.Afp AfpfsNg.Dsi AfpfsNg.Unicode

/-- C `strcmp` of the strings in two arrays: are they equal? There is no result if it goes behind one of them. -/
def strcmp : Bytes → Bytes → Option Bool
  | x :: a, y :: b => if x ≠ y then some false else if x = 0 then some true else strcmp a b
  | _, _ => none

def volumeArrays (avNumber : Nat) : List (UInt8 × Bytes) → Option (List (Block 66))
  | [] => some []
  | v :: vs => do
    let names ← volumeNames avNumber v.2
    let rest ← volumeArrays avNumber vs
    return names :: rest

def volumeNamePrintable (v : Block 66) : Bytes := cString (v.array 33 33)

/-- C `find_volume_by_name`: the index of the volume, if there is one. -/
def findVolumeByName (volumes : List (Block 66)) (volname : Bytes) : Option (Option Nat) := do
  let convertedVolname ← preToDec volname 33
  find (padded 33 convertedVolname) 0 volumes
where
  find (convertedVolname : Bytes) : Nat → List (Block 66) → Option (Option Nat)
    | _, [] => some none
    | i, v :: volumes => do
      if ← strcmp convertedVolname (v.array 33 33) then return some i
      else find convertedVolname (i + 1) volumes

section List
variable {buf : Bytes}

lemma volumesLoop_sent {p : Nat} {sent : List (UInt8 × Bytes)} (h : Stands buf p (sent.flatMap fun v => v.1 :: pascal v.2))
    (hnames : ∀ v ∈ sent, v.2.length ≤ 33) : volumesLoop buf sent.length p = some sent := by
  have hsent (v : UInt8 × Bytes) (hv : v ∈ sent) : v.2.length < 256 := Nat.lt_of_le_of_lt (hnames v hv) (by decide)
  have hwhole (v : UInt8 × Bytes) (hv : v ∈ sent) : (v.1, v.2.take afpVolumeNameLen) = v :=
    Prod.ext rfl (List.take_of_length_le (hnames v hv))
  rw [volumesLoop_split h hsent fun v hv => hnames v (List.dropLast_subset _ hv), List.map_congr_left hwhole, List.map_id']

lemma getsrvrparms_sent {sent : List (UInt8 × Bytes)} (server : SrvrParms) (hsent : Stands buf 20 (volumeList sent))
    (hcount : sent.length < 256) (hnames : ∀ v ∈ sent, v.2.length ≤ 33) :
    ∃ server', afpGetsrvrparmsReply server buf = some (0, server') ∧ server'.volumes = sent := by
  have hnumber := getElem?_of_stands hsent
  have hlen : ¬ buf.length < 21 := by
    have hle : 20 + (volumeList sent).length ≤ buf.length := hsent.le
    rw [volumeList, List.length_cons] at hle
    omega
  have hloop := volumesLoop_sent (stands_tail hsent) hnames
  refine ⟨⟨adDateToUnix (slice buf 16 4), sent⟩, ?_, rfl⟩
  simp only [afpGetsrvrparmsReply, if_neg hlen, hnumber, toNat_ofNat_of_lt hcount, hloop, bind, Option.bind, pure]

end List

/-- The array has a string with zeros behind it. -/
def Shows (v : Block 66) (t : Bytes) : Prop := v.array 33 33 = padded 33 t ∧ 0 ∉ t ∧ t.length < 33

lemma zero_not_mem_spells {n : Nat} {c : Bytes} (h : Spells n c) : 0 ∉ c := by
  have hne {m : Nat} (hlow : 0 < m) (hhigh : m < 256) : (0 : UInt8) ≠ .ofNat m := by
    intro heq
    have hval := congrArg UInt8.toNat heq
    rw [toNat_ofNat_of_lt hhigh] at hval
    change 0 = m at hval
    omega
  cases h with
  | one hpos hn => simp only [List.mem_singleton, hne hpos (by omega), not_false_iff]
  | two hlow hhigh =>
    have h1 := hne (m := 0xc0 + n / 64) (by omega) (by omega)
    have h2 := hne (m := 0x80 + n % 64) (by omega) (by omega)
    simp only [List.mem_cons, List.mem_nil_iff, h1, h2, or_self, not_false_iff]
  | three hlow hhigh =>
    have h1 := hne (m := 0xe0 + n / 4096) (by omega) (by omega)
    have h2 := hne (m := 0x80 + n / 64 % 64) (by omega) (by omega)
    have h3 := hne (m := 0x80 + n % 64) (by omega) (by omega)
    simp only [List.mem_cons, List.mem_nil_iff, h1, h2, h3, or_self, not_false_iff]

lemma zero_not_mem_spelled {ns : List Nat} {s : Bytes} (h : Spelled ns s) : 0 ∉ s := by
  induction h with
  | nil => exact List.not_mem_nil
  | cons hc _ ih => exact fun hmem => (List.mem_append.mp hmem).elim (zero_not_mem_spells hc) ih

lemma zero_not_mem_decToPre {s t : Bytes} {destLen : Nat} (h : decToPre s destLen = some t) : 0 ∉ t := by
  obtain ⟨us, -, h⟩ := Option.bind_eq_some_iff.mp h
  obtain ⟨res, -, h⟩ := Option.bind_eq_some_iff.mp h
  change (if (ucs2toUtf8 res).length < destLen then some (ucs2toUtf8 res) else none) = some t at h
  split at h
  case isTrue =>
    cases h
    rw [ucs2toUtf8_takeWhile]
    apply zero_not_mem_spelled (ucs2toUtf8_spelled _)
    exact fun c hc => of_decide_eq_true (List.all_eq_true.mp List.all_takeWhile c hc)
  case isFalse => cases h

lemma volumeArrays_shows {avNumber : Nat} (hav : 30 ≤ avNumber) {sent : List (UInt8 × Bytes)}
    (hnames : ∀ u ∈ sent, u.2.length ≤ 32) :
    ∃ volumes, volumeArrays avNumber sent = some volumes ∧ volumes.length = sent.length ∧
      ∀ v ∈ volumes, ∃ t, Shows v t := by
  induction sent with
  | nil => exact ⟨[], rfl, rfl, List.forall_mem_nil _⟩
  | cons u sent ih =>
    obtain ⟨volumes, hvolumes, hlen, hshows⟩ := ih fun w hw => hnames w (.tail _ hw)
    have hu : u.2.length < 33 := Nat.lt_succ_of_le (hnames u (.head _))
    obtain ⟨names, hname⟩ := Option.isSome_iff_exists.mp (volumeNames_isSome avNumber hu)
    refine ⟨names :: volumes, ?_, congrArg (· + 1) hlen, List.forall_mem_cons.mpr ⟨?_, hshows⟩⟩
    · rw [volumeArrays, hname, hvolumes]
      rfl
    · have hholds : VolumeHolds avNumber u.2 names := by
        apply volumeNames_holds
        rwa [List.take_of_length_le (Nat.le_of_lt hu)]
      obtain ⟨t, ht, hle, harray⟩ := hholds.converted hav hu
      exact ⟨t, harray, zero_not_mem_decToPre ht, by omega⟩

lemma padded_cons (n : Nat) (x : UInt8) (s : Bytes) : padded (n + 1) (x :: s) = x :: padded n s := by
  rw [padded, padded, List.length_cons, Nat.add_sub_add_right, List.cons_append]

lemma strcmp_padded {n : Nat} {s t : Bytes} (hs : 0 ∉ s) (ht : 0 ∉ t) (hslen : s.length ≤ n) (htlen : t.length < n) :
    strcmp (padded n s) (padded n t) = some (decide (t = s)) := by
  induction t generalizing s n with
  | nil =>
    obtain ⟨n, rfl⟩ := Nat.exists_eq_add_of_lt htlen
    cases s with
    | nil => rfl
    | cons x s =>
      have hx : x ≠ 0 := fun h => hs (h ▸ List.mem_cons_self)
      rw [padded_cons]
      exact if_pos hx
  | cons y t ih =>
    have hy : y ≠ 0 := fun h => ht (h ▸ List.mem_cons_self)
    obtain ⟨n, rfl⟩ := Nat.exists_eq_add_of_lt (Nat.zero_lt_of_lt htlen)
    rw [Nat.zero_add] at hslen htlen ⊢
    rw [padded_cons]
    cases s with
    | nil => exact if_pos hy.symm
    | cons x s =>
      rw [padded_cons, strcmp]
      by_cases hxy : x = y
      · subst hxy
        have hrest := ih (fun h => hs (.tail _ h)) (fun h => ht (.tail _ h)) (Nat.le_of_succ_le_succ hslen)
          (Nat.lt_of_succ_lt_succ htlen)
        rw [if_neg (not_not.mpr rfl), if_neg hy, hrest]
        simp only [List.cons.injEq, true_and]
      · have hne : ¬ y :: t = x :: s := fun h => hxy (List.cons.inj h).1.symm
        rw [if_pos hxy, decide_eq_false hne]

lemma Shows.printable {v : Block 66} {t : Bytes} (h : Shows v t) : volumeNamePrintable v = t := by
  rw [volumeNamePrintable, h.1, cString_padded, cString_of_not_mem h.2.1]

lemma find_eq {c : Bytes} (hc : 0 ∉ c) (hlen : c.length ≤ 33) {volumes : List (Block 66)}
    (h : ∀ v ∈ volumes, ∃ t, Shows v t) (i : Nat) :
    findVolumeByName.find (padded 33 c) i volumes =
      some ((volumes.findIdx? fun v => volumeNamePrintable v = c).map (· + i)) := by
  induction volumes generalizing i with
  | nil => rfl
  | cons v volumes ih =>
    obtain ⟨t, ht⟩ := h v (.head _)
    have hcmp : strcmp (padded 33 c) (v.array 33 33) = some (decide (t = c)) := by
      rw [ht.1]
      exact strcmp_padded hc ht.2.1 hlen ht.2.2
    have hrest := ih (fun w hw => h w (.tail _ hw)) (i + 1)
    rw [findVolumeByName.find, hcmp, List.findIdx?_cons, ht.printable]
    by_cases htc : t = c
    · simp only [htc, decide_true, bind, Option.bind, if_true, pure, Option.map_some, Nat.zero_add]
    · have hshift : (fun k : Nat => k + (i + 1)) = (· + i) ∘ (· + 1) := funext fun k => Nat.add_right_comm k i 1
      simp only [htc, decide_false, bind, Option.bind, Bool.false_eq_true, if_false, hrest, Option.map_map, hshift]

lemma preToDecFrom_spec {n : Nat} {src dest d : Bytes} (h : preToDecFrom n dest src = some d) (hdest : 0 ∉ dest)
    (hsrc : 0 ∉ src) (hlen : dest.length ≤ n) : 0 ∉ d ∧ d.length ≤ n := by
  induction src using convertUtf8preToUtf8dec.induct generalizing dest with
  | case1 src ih =>
    rw [preToDecFrom] at h
    split at h
    · split at h
      · refine ih h (fun hmem => ?_) (fun hmem => hsrc (.tail _ (.tail _ hmem))) ?_
        · exact (List.mem_append.mp hmem).elim hdest (by decide)
        · rwa [List.length_append]
      · cases h
    · cases h
      exact ⟨hdest, hlen⟩
  | case2 x src hx ih =>
    rw [preToDecFrom] at h
    · split at h
      · refine ih h (fun hmem => ?_) (fun hmem => hsrc (.tail _ hmem)) ?_
        · refine (List.mem_append.mp hmem).elim hdest fun hmem => hsrc ?_
          exact List.mem_singleton.mp hmem ▸ List.mem_cons_self
        · rwa [List.length_append]
      · cases h
        exact ⟨hdest, hlen⟩
    · exact hx
  | case3 =>
    rw [preToDecFrom] at h
    cases h
    exact ⟨hdest, hlen⟩

/-- `find_volume_by_name` finds a volume that is shown under the name of `v`, and it is the first one. -/
def FoundByName (volumes : List (Block 66)) (v : Block 66) : Prop :=
  ∃ i w, findVolumeByName volumes (volumeNamePrintable v) = some (some i) ∧ volumes[i]? = some w ∧
    volumeNamePrintable w = volumeNamePrintable v ∧
    ∀ j < i, ∀ u, volumes[j]? = some u → volumeNamePrintable u ≠ volumeNamePrintable v

lemma foundByName_iff {volumes : List (Block 66)} (h : ∀ v ∈ volumes, ∃ t, Shows v t) {v : Block 66} (hv : v ∈ volumes) :
    FoundByName volumes v ↔ convertUtf8preToUtf8dec (volumeNamePrintable v) = volumeNamePrintable v := by
  obtain ⟨t, ht⟩ := h v hv
  have hzero := ht.2.1
  rw [FoundByName, ht.printable]
  constructor
  · rintro ⟨i, w, hfind, hw, hname, -⟩
    obtain ⟨c, hc, hfind⟩ := Option.bind_eq_some_iff.mp hfind
    obtain ⟨hzero', hlen⟩ := preToDecFrom_spec hc List.not_mem_nil hzero (Nat.zero_le _)
    rw [find_eq hzero' hlen h] at hfind
    obtain ⟨k, hk, rfl⟩ := Option.map_eq_some_iff.mp (Option.some.inj hfind)
    obtain ⟨hlt, hfound, -⟩ := List.findIdx?_eq_some_iff_getElem.mp hk
    -- the volume that was found has the decomposed name
    have hwc : volumeNamePrintable w = c := by
      rw [Nat.add_zero, List.getElem?_eq_getElem hlt] at hw
      cases hw
      exact of_decide_eq_true hfound
    obtain rfl : c = t := hwc.symm.trans hname
    exact (preToDecFrom_of_lt hc ht.2.2).symm
  · intro hself
    have hdec : preToDec t 33 = some t := by
      rw [preToDec, preToDecFrom_eq t [] (by rw [hself, List.length_nil, Nat.zero_add]; exact ht.2.2), hself,
        List.nil_append]
    have hfind : findVolumeByName volumes t = some ((volumes.findIdx? fun v => volumeNamePrintable v = t).map (· + 0)) := by
      rw [findVolumeByName, hdec]
      exact find_eq hzero (Nat.le_of_lt ht.2.2) h 0
    obtain ⟨i, hi⟩ : ∃ i, (volumes.findIdx? fun v => volumeNamePrintable v = t) = some i := by
      apply Option.isSome_iff_exists.mp
      rw [List.findIdx?_isSome, List.any_eq_true]
      exact ⟨v, hv, decide_eq_true ht.printable⟩
    obtain ⟨hlt, hfound, hfirst⟩ := List.findIdx?_eq_some_iff_getElem.mp hi
    rw [hi] at hfind
    refine ⟨i, volumes[i], hfind, List.getElem?_eq_getElem hlt, of_decide_eq_true hfound, fun j hj u hu hname => ?_⟩
    rw [List.getElem?_eq_getElem (Nat.lt_trans hj hlt)] at hu
    cases hu
    exact hfirst j hj (decide_eq_true hname)

/-- On a server of version 3.0 or later, whose volumes have names of up to 32 bytes, a volume is found by the name under
which it is shown just if that name does not have the bytes `0xc3 0xa4`. -/
theorem find_volume_iff (server : SrvrParms) (buf : Bytes) (sent : List (UInt8 × Bytes)) (avNumber : Nat)
    (hav : 30 ≤ avNumber) (hsent : Stands buf 20 (volumeList sent)) (hcount : sent.length < 256)
    (hnames : ∀ u ∈ sent, u.2.length ≤ 32) :
    ∃ server' volumes, afpGetsrvrparmsReply server buf = some (0, server') ∧
      volumeArrays avNumber server'.volumes = some volumes ∧ volumes.length = sent.length ∧
      ∀ v ∈ volumes, FoundByName volumes v ↔ ¬ [0xc3, 0xa4] <:+: volumeNamePrintable v := by
  obtain ⟨server', hreply, rfl⟩ := getsrvrparms_sent server hsent hcount fun u hu => Nat.le_succ_of_le (hnames u hu)
  obtain ⟨volumes, hvolumes, hlen, hshows⟩ := volumeArrays_shows hav hnames
  refine ⟨server', volumes, hreply, hvolumes, hlen, fun v hv => ?_⟩
  rw [foundByName_iff hshows hv, convert_eq_self_iff]

theorem find_volume_letter :
    ∃ server' volumes, afpGetsrvrparmsReply ⟨0, []⟩ (List.replicate 20 0 ++ [1, 0, 1, 0x61]) = some (0, server') ∧
      volumeArrays 30 server'.volumes = some volumes ∧ volumes.length = 1 ∧
      ∀ v ∈ volumes, FoundByName volumes v ↔ ¬ [0xc3, 0xa4] <:+: volumeNamePrintable v :=
  find_volume_iff ⟨0, []⟩ (List.replicate 20 0 ++ [1, 0, 1, 0x61]) [(0, [0x61])] 30 (by decide) (by decide) (by decide)
    (List.forall_mem_singleton.mpr (by decide))

/-- A volume with the name `ä`, as a server spells it: it is shown with one letter, and not found by that. -/
theorem find_volume_misses :
    (volumeNames 30 [0x61, 0xcc, 0x88]).map volumeNamePrintable = some [0xc3, 0xa4] ∧
      (volumeNames 30 [0x61, 0xcc, 0x88]).bind (fun v => findVolumeByName [v] [0xc3, 0xa4]) = some none := by
  constructor
  · decide +kernel
  · decide +kernel

end AfpfsNg.Proto
