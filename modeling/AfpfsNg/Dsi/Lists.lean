import AfpfsNg.Dsi.StatusReply

/-!
# The lists of versions and methods

`dsi_parse_versions` and `dsi_parse_uams` (`lib/dsi.c`) go through a list of Pascal strings. Like in
`afp_getsrvrparms_reply`, the way to the next string is the length of the one before as it was cut: to 33 bytes and to 24
bytes. A name is compared up to its terminator, so that a known name with a terminator and more behind it counts as known.
-/

namespace AfpfsNg.Dsi
open AfpfsNg.Base AfpfsNg.Proto AfpfsNg.Uam

/-- The loop over `copy_from_pascal`: where each string is looked for, and what is copied. -/
def pascalWalk (buf : Bytes) (maxLen : Nat) : Nat → Nat → Option (List (Nat × Bytes))
  | 0, _ => some []
  | i + 1, p => do
    let name ← copyFromPascal buf p maxLen
    let names ← pascalWalk buf maxLen i (p + (name.length + 1))
    return (p, name) :: names

def stringPlaces : Nat → List Bytes → List Nat
  | _, [] => []
  | p, s :: ss => p :: stringPlaces (p + (s.length + 1)) ss

/-- Each string is looked for where it is. -/
def WalksAlong (buf : Bytes) (maxLen p : Nat) (ss : List Bytes) : Prop :=
  (pascalWalk buf maxLen ss.length p).map (List.map Prod.fst) = some (stringPlaces p ss)

/-- The versions among the first ten strings are stored, and no others. -/
structure VersionsWalked (buf : Bytes) (p : Nat) (ss : List Bytes) : Prop where
  places : WalksAlong buf 33 (p + 1) (ss.take 10)
  versions : dsiParseVersions buf p = some (padded 10 ((ss.take 10).filterMap versionNumber))

/-- The methods among the first ten strings are set, and no others. -/
structure UamsWalked (buf : Bytes) (p : Nat) (ss : List Bytes) : Prop where
  places : WalksAlong buf 24 (p + 1) (ss.take 10)
  supportedUams : dsiParseUams buf p = some ((ss.take 10).foldl (fun uams s => uams ||| uamStringToBitmap s) 0)

section Walk
variable {buf s rest : Bytes} {maxLen p n : Nat} {ss : List Bytes}

lemma pascalWalk_strings (buf : Bytes) (maxLen n p : Nat) :
    (pascalWalk buf maxLen n p).map (List.map Prod.snd) = pascalStrings buf maxLen n p := by
  induction n generalizing p with
  | zero => rfl
  | succ n ih =>
    rw [pascalWalk, pascalStrings]
    cases copyFromPascal buf p maxLen with
    | none => rfl
    | some name =>
      show ((pascalWalk buf maxLen n (p + (name.length + 1))).bind _).map _ =
        (pascalStrings buf maxLen n (p + (name.length + 1))).bind _
      rw [← ih]
      cases pascalWalk buf maxLen n (p + (name.length + 1)) <;> rfl

lemma pascalWalk_string (h : Stands buf p (pascal s ++ rest)) (hs : s.length < 256) (maxLen n : Nat) :
    pascalWalk buf maxLen (n + 1) p =
      (pascalWalk buf maxLen n (p + (min maxLen s.length + 1))).map ((p, s.take maxLen) :: ·) := by
  have hname := copyFromPascal_cut (Stands.left h) hs maxLen
  rw [pascalWalk, hname, ← List.length_take]
  exact Option.map_eq_bind.symm

lemma pascalWalk_head {w : List (Nat × Bytes)} (h : pascalWalk buf maxLen (n + 1) p = some w) :
    (w.map Prod.fst).head? = some p := by
  obtain ⟨name, -, h⟩ := Option.bind_eq_some_iff.mp h
  obtain ⟨names, -, h⟩ := Option.bind_eq_some_iff.mp h
  cases h
  rfl

lemma length_stringPlaces (p : Nat) (ss : List Bytes) : (stringPlaces p ss).length = ss.length := by
  induction ss generalizing p with
  | nil => rfl
  | cons s ss ih => rw [stringPlaces, List.length_cons, List.length_cons, ih]

lemma pascalWalk_along (h : Stands buf p (ss.flatMap pascal)) (hss : ∀ s ∈ ss, s.length < 256)
    (hcut : ∀ s ∈ ss.dropLast, s.length ≤ maxLen) :
    pascalWalk buf maxLen ss.length p = some ((stringPlaces p ss).zip (ss.map (·.take maxLen))) := by
  induction ss generalizing p with
  | nil => rfl
  | cons s ss ih =>
    rw [List.length_cons, pascalWalk_string h (hss s (.head _))]
    cases ss with
    | nil => rfl
    | cons t ss =>
      have hs : s.length ≤ maxLen := hcut s (.head _)
      have hrest : Stands buf (p + (s.length + 1)) ((t :: ss).flatMap pascal) := Stands.right h
      rw [Nat.min_eq_right hs, ih hrest (fun u hu => hss u (.tail _ hu)) fun u hu => hcut u (.tail _ hu)]
      rfl

lemma pascalWalk_astray (h : Stands buf p (ss.flatMap pascal)) (hss : ∀ s ∈ ss, s.length < 256)
    {w : List (Nat × Bytes)} (hwalk : pascalWalk buf maxLen ss.length p = some w)
    (hplaces : w.map Prod.fst = stringPlaces p ss) : ∀ s ∈ ss.dropLast, s.length ≤ maxLen := by
  induction ss generalizing p w with
  | nil => nofun
  | cons s ss ih =>
    rw [List.length_cons, pascalWalk_string h (hss s (.head _))] at hwalk
    obtain ⟨later, hlater, rfl⟩ := Option.map_eq_some_iff.mp hwalk
    have hplaces' : later.map Prod.fst = stringPlaces (p + (s.length + 1)) ss := (List.cons.inj hplaces).2
    cases ss with
    | nil => nofun
    | cons t ss =>
      have hhead := pascalWalk_head hlater
      rw [hplaces'] at hhead
      have hplace : p + (s.length + 1) = p + (min maxLen s.length + 1) := Option.some.inj hhead
      have hs : s.length ≤ maxLen := by omega
      rw [← hplace] at hlater
      exact List.forall_mem_cons.mpr
        ⟨hs, ih (Stands.right h) (fun u hu => hss u (.tail _ hu)) hlater hplaces'⟩

lemma walksAlong_iff (maxLen : Nat) (h : Stands buf p (ss.flatMap pascal)) (hss : ∀ s ∈ ss, s.length < 256) :
    WalksAlong buf maxLen p ss ↔ ∀ s ∈ ss.dropLast, s.length ≤ maxLen := by
  constructor
  · intro hwalks
    obtain ⟨w, hwalk, hplaces⟩ := Option.map_eq_some_iff.mp hwalks
    exact pascalWalk_astray h hss hwalk hplaces
  · intro hcut
    rw [WalksAlong, pascalWalk_along h hss hcut, Option.map_some, List.map_fst_zip]
    rw [length_stringPlaces, List.length_map]

lemma pascalStrings_along (h : Stands buf p (ss.flatMap pascal)) (hss : ∀ s ∈ ss, s.length < 256)
    (hcut : ∀ s ∈ ss.dropLast, s.length ≤ maxLen) :
    pascalStrings buf maxLen ss.length p = some (ss.map (·.take maxLen)) := by
  rw [← pascalWalk_strings, pascalWalk_along h hss hcut, Option.map_some, List.map_snd_zip]
  rw [length_stringPlaces, List.length_map]

end Walk

section Ten
variable {buf : Bytes} {p : Nat} {ss : List Bytes}

lemma min_count_take (hcount : ss.length < 256) : min 10 (UInt8.ofNat ss.length).toNat = (ss.take 10).length := by
  rw [toNat_ofNat_of_lt hcount, List.length_take]

lemma stands_take (h : Stands buf p (pascalList ss)) : Stands buf (p + 1) ((ss.take 10).flatMap pascal) := by
  have htail := stands_tail h
  rw [← List.take_append_drop 10 ss, List.flatMap_append] at htail
  exact htail.left

variable (h : Stands buf p (pascalList ss)) (hcount : ss.length < 256) (hss : ∀ s ∈ ss, s.length < 256)
include h hcount hss

lemma dsiParseVersions_along (hcut : ∀ s ∈ (ss.take 10).dropLast, s.length ≤ 33) :
    dsiParseVersions buf p =
      some (padded 10 ((ss.take 10).filterMap fun s => versionNumber (cString (s.take 33)))) := by
  have hnames := pascalStrings_along (stands_take h) (fun s hs => hss s (List.mem_of_mem_take hs)) hcut
  rw [dsiParseVersions, getElem?_of_stands h]
  show (pascalStrings buf 33 (min 10 (UInt8.ofNat ss.length).toNat) (p + 1)).bind _ = _
  rw [min_count_take hcount, hnames, Option.bind_some, List.filterMap_map]
  rfl

lemma dsiParseUams_along (hcut : ∀ s ∈ (ss.take 10).dropLast, s.length ≤ 24) :
    dsiParseUams buf p =
      some ((ss.take 10).foldl (fun uams s => uams ||| uamStringToBitmap (cString (s.take 24))) 0) := by
  have hnames := pascalStrings_along (stands_take h) (fun s hs => hss s (List.mem_of_mem_take hs)) hcut
  rw [dsiParseUams, getElem?_of_stands h]
  show (pascalStrings buf 24 (min 10 (UInt8.ofNat ss.length).toNat) (p + 1)).bind _ = _
  rw [min_count_take hcount, hnames, Option.bind_some, List.foldl_map]
  rfl

end Ten

section Names
variable {s t : Bytes} {k : Nat}

lemma cString_take_eq_iff (ht : t.length < k) : cString (s.take k) = t ↔ cString s = t := by
  rw [cString_take]
  constructor
  · intro heq
    have hlen := congrArg List.length heq
    rw [List.length_take] at hlen
    rwa [List.take_of_length_le (by omega)] at heq
  · rintro rfl
    exact List.take_of_length_le (Nat.le_of_lt ht)

lemma versionNumber_eq_some {v : UInt8} (h : versionNumber s = some v) : (s, v) ∈ afpVersions := by
  obtain ⟨w, hw, rfl⟩ := Option.map_eq_some_iff.mp h
  have hname := List.find?_some hw
  obtain rfl : w.1 = s := of_decide_eq_true hname
  exact List.mem_of_find?_eq_some hw

lemma versionNumber_of_mem : ∀ v ∈ afpVersions, versionNumber v.1 = some v.2 := by decide

lemma afpVersions_names : ∀ v ∈ afpVersions, 0 ∉ v.1 ∧ v.1.length < 33 ∧ v.2 ≠ 0 := by decide

lemma versionNumber_cut {v : UInt8} (h : versionNumber s = some v) : versionNumber (cString (s.take 33)) = some v := by
  obtain ⟨hnul, hlen, -⟩ := afpVersions_names _ (versionNumber_eq_some h)
  rwa [List.take_of_length_le (Nat.le_of_lt hlen), cString_of_not_mem hnul]

lemma versionNumber_cut_iff (s : Bytes) :
    versionNumber (cString (s.take 33)) = versionNumber s ↔ ∀ v ∈ afpVersions, cString s = v.1 → s = v.1 := by
  constructor
  · intro heq v hv hname
    obtain ⟨-, hlen, -⟩ := afpVersions_names v hv
    rw [(cString_take_eq_iff hlen).mpr hname, versionNumber_of_mem v hv] at heq
    obtain ⟨hnul, -⟩ := afpVersions_names _ (versionNumber_eq_some heq.symm)
    rw [← hname, cString_of_not_mem hnul]
  · intro hwhole
    cases hcut : versionNumber (cString (s.take 33)) with
    | none =>
      cases hs : versionNumber s with
      | none => rfl
      | some v => exact absurd (versionNumber_cut hs) (by rw [hcut]; exact nofun)
    | some v =>
      have hv := versionNumber_eq_some hcut
      obtain ⟨-, hlen, -⟩ := afpVersions_names _ hv
      have hname := hwhole _ hv ((cString_take_eq_iff hlen).mp rfl)
      rw [hname]
      exact (versionNumber_of_mem _ hv).symm

lemma filterMap_eq_iff {α β : Type} {f g : α → Option β} (hgf : ∀ a b, g a = some b → f a = some b) (l : List α) :
    l.filterMap f = l.filterMap g ↔ ∀ a ∈ l, f a = g a := by
  have hle (l : List α) : (l.filterMap g).length ≤ (l.filterMap f).length := by
    induction l with
    | nil => exact Nat.le_refl 0
    | cons a l ih =>
      cases hg : g a with
      | none =>
        rw [List.filterMap_cons_none hg]
        refine Nat.le_trans ih ?_
        cases hf : f a with
        | none => rw [List.filterMap_cons_none hf]
        | some b =>
          rw [List.filterMap_cons_some hf]
          exact Nat.le_succ _
      | some b =>
        rw [List.filterMap_cons_some hg, List.filterMap_cons_some (hgf a b hg)]
        exact Nat.succ_le_succ ih
  refine ⟨fun heq => ?_, List.filterMap_congr⟩
  induction l with
  | nil => nofun
  | cons a l ih =>
    cases hg : g a with
    | some b =>
      have hf := hgf a b hg
      rw [List.filterMap_cons_some hf, List.filterMap_cons_some hg] at heq
      exact List.forall_mem_cons.mpr ⟨hf.trans hg.symm, ih (List.cons.inj heq).2⟩
    | none =>
      cases hf : f a with
      | none =>
        rw [List.filterMap_cons_none hf, List.filterMap_cons_none hg] at heq
        exact List.forall_mem_cons.mpr ⟨hf.trans hg.symm, ih heq⟩
      | some b =>
        rw [List.filterMap_cons_some hf, List.filterMap_cons_none hg] at heq
        have hlen := congrArg List.length heq
        have hl := hle l
        rw [List.length_cons] at hlen
        omega

lemma padded_versions {xs ys : Bytes} (hx : 0 ∉ xs) (hy : 0 ∉ ys) : padded 10 xs = padded 10 ys ↔ xs = ys := by
  constructor
  · intro heq
    have hstrings := congrArg cString heq
    rwa [cString_padded, cString_padded, cString_of_not_mem hx, cString_of_not_mem hy] at hstrings
  · rintro rfl
    rfl

lemma zero_not_mem_versions (f : Bytes → Bytes) (ss : List Bytes) : 0 ∉ ss.filterMap fun s => versionNumber (f s) := by
  intro hmem
  obtain ⟨s, -, hs⟩ := List.mem_filterMap.mp hmem
  exact (afpVersions_names _ (versionNumber_eq_some hs)).2.2 rfl

lemma stored_versions_iff (ss : List Bytes) :
    padded 10 (ss.filterMap fun s => versionNumber (cString (s.take 33))) = padded 10 (ss.filterMap versionNumber) ↔
      ∀ s ∈ ss, ∀ v ∈ afpVersions, cString s = v.1 → s = v.1 := by
  have hstored := zero_not_mem_versions (fun s => cString (s.take 33)) ss
  have hsent : 0 ∉ ss.filterMap versionNumber := zero_not_mem_versions id ss
  rw [padded_versions hstored hsent, filterMap_eq_iff fun s v => versionNumber_cut]
  exact forall₂_congr fun s _ => versionNumber_cut_iff s

end Names

section Methods
variable {s t : Bytes}

lemma testBit_union {α : Type} (f : α → Nat) (l : List α) (uams i : Nat) :
    (l.foldl (fun uams a => uams ||| f a) uams).testBit i = true ↔ uams.testBit i = true ∨ ∃ a ∈ l, (f a).testBit i = true := by
  induction l generalizing uams with
  | nil => exact ⟨.inl, fun h => h.elim id fun ⟨_, hmem, _⟩ => absurd hmem List.not_mem_nil⟩
  | cons a l ih =>
    rw [List.foldl_cons, ih, Nat.testBit_or, Bool.or_eq_true, or_assoc, List.exists_mem_cons_iff]

lemma strcaseeq_iff : strcaseeq s t = true ↔ s.map tolower = t.map tolower := decide_eq_true_iff

lemma stringLoop_testBit {ms : List Method} (hms : ms.Pairwise fun m n => strcaseeq m.name n.name = false) (k i : Nat) :
    (stringLoop s k ms).testBit i = true ↔ ∃ j m, ms[j]? = some m ∧ i = k + j ∧ strcaseeq s m.name = true := by
  induction ms generalizing k with
  | nil => exact ⟨fun h => absurd h (by rw [stringLoop, Nat.zero_testBit]; exact nofun), nofun⟩
  | cons m ms ih =>
    obtain ⟨hm, hms⟩ := List.pairwise_cons.mp hms
    rw [stringLoop]
    split
    case isTrue hs =>
      rw [Nat.one_shiftLeft, Nat.testBit_two_pow, decide_eq_true_iff]
      constructor
      · rintro rfl
        exact ⟨0, m, rfl, rfl, hs⟩
      · rintro ⟨j, n, hn, rfl, hs'⟩
        cases j with
        | zero => rfl
        | succ j =>
          have hne := hm n (List.mem_of_getElem? hn)
          have heq : strcaseeq m.name n.name = true :=
            strcaseeq_iff.mpr ((strcaseeq_iff.mp hs).symm.trans (strcaseeq_iff.mp hs'))
          rw [heq] at hne
          cases hne
    case isFalse hs =>
      rw [ih hms]
      constructor
      · rintro ⟨j, n, hn, rfl, hs'⟩
        exact ⟨j + 1, n, hn, by omega, hs'⟩
      · rintro ⟨j, n, hn, rfl, hs'⟩
        cases j with
        | zero =>
          cases hn
          exact absurd hs' hs
        | succ j => exact ⟨j, n, hn, by omega, hs'⟩

lemma uamStringToBitmap_testBit (s : Bytes) (i : Nat) :
    (uamStringToBitmap s).testBit i = true ↔ ∃ m, afpStrings[i]? = some m ∧ strcaseeq s m.name = true := by
  rw [uamStringToBitmap, stringLoop_testBit (by decide)]
  constructor
  · rintro ⟨j, m, hm, rfl, hs⟩
    exact ⟨m, by rwa [Nat.zero_add], hs⟩
  · rintro ⟨m, hm, hs⟩
    exact ⟨i, m, hm, (Nat.zero_add i).symm, hs⟩

lemma union_eq_iff (f : Bytes → Bytes) (ss : List Bytes) :
    ss.foldl (fun uams s => uams ||| uamStringToBitmap (f s)) 0 = ss.foldl (fun uams s => uams ||| uamStringToBitmap s) 0 ↔
      ∀ m : Method, (∃ s ∈ ss, strcaseeq (f s) m.name = true) ↔ ∃ s ∈ ss, strcaseeq s m.name = true := by
  have hbits (g : Bytes → Bytes) (i : Nat) :
      (ss.foldl (fun uams s => uams ||| uamStringToBitmap (g s)) 0).testBit i = true ↔
        ∃ m, afpStrings[i]? = some m ∧ ∃ s ∈ ss, strcaseeq (g s) m.name = true := by
    rw [testBit_union, Nat.zero_testBit, or_iff_right Bool.false_ne_true]
    constructor
    · rintro ⟨s, hs, hbit⟩
      obtain ⟨m, hm, heq⟩ := (uamStringToBitmap_testBit _ i).mp hbit
      exact ⟨m, hm, s, hs, heq⟩
    · rintro ⟨m, hm, s, hs, heq⟩
      exact ⟨s, hs, (uamStringToBitmap_testBit _ i).mpr ⟨m, hm, heq⟩⟩
  constructor
  · intro heq m
    obtain ⟨i, hi⟩ : ∃ i, afpStrings[i]? = some m := List.getElem?_of_mem (by cases m <;> decide)
    have hleft := hbits f i
    have hright := hbits id i
    simp only [hi, Option.some.injEq, exists_eq_left'] at hleft hright
    rw [← hleft, heq]
    exact hright
  · intro hsame
    apply Nat.eq_of_testBit_eq
    intro i
    rw [Bool.eq_iff_iff, hbits f i]
    refine Iff.trans ?_ (hbits id i).symm
    exact exists_congr fun m => and_congr_right fun _ => hsame m

lemma Method.name_plain (m : Method) : 0 ∉ m.name.map tolower ∧ m.name.length < 24 := by
  cases m <;> decide

lemma strcaseeq_take_iff (s : Bytes) (m : Method) :
    strcaseeq (cString (s.take 24)) m.name = true ↔ strcaseeq (cString s) m.name = true := by
  obtain ⟨-, hname⟩ := Method.name_plain m
  rw [cString_take, strcaseeq_iff, strcaseeq_iff]
  constructor
  · intro heq
    have hlen := congrArg List.length heq
    rw [List.length_map, List.length_take, List.length_map] at hlen
    rwa [List.take_of_length_le (by omega)] at heq
  · intro heq
    have hlen := congrArg List.length heq
    rw [List.length_map, List.length_map] at hlen
    rwa [List.take_of_length_le (by omega)]

lemma cString_of_strcaseeq {m : Method} (h : strcaseeq s m.name = true) : cString s = s := by
  apply cString_of_not_mem
  intro hmem
  apply (Method.name_plain m).1
  rw [← strcaseeq_iff.mp h]
  exact List.mem_map.mpr ⟨0, hmem, rfl⟩

lemma stored_uams_iff (ss : List Bytes) :
    ss.foldl (fun uams s => uams ||| uamStringToBitmap (cString (s.take 24))) 0 =
        ss.foldl (fun uams s => uams ||| uamStringToBitmap s) 0 ↔
      ∀ m : Method, ∀ s ∈ ss, strcaseeq (cString s) m.name = true → ∃ t ∈ ss, strcaseeq t m.name = true := by
  rw [union_eq_iff fun s => cString (s.take 24)]
  constructor
  · intro hsame m s hs heq
    exact (hsame m).mp ⟨s, hs, (strcaseeq_take_iff s m).mpr heq⟩
  · intro hother m
    constructor
    · rintro ⟨s, hs, heq⟩
      exact hother m s hs ((strcaseeq_take_iff s m).mp heq)
    · rintro ⟨s, hs, heq⟩
      refine ⟨s, hs, (strcaseeq_take_iff s m).mpr ?_⟩
      rwa [cString_of_strcaseeq heq]

end Methods

/-- The lists are walked string by string, and what is stored is what their first ten strings say, if and only if no string
but the last of them is longer than the array it is copied to and no terminator inside a string makes a known name of it. -/
theorem lists_walked_iff (buf : Bytes) (p : Nat) (ss : List Bytes) (h : Stands buf p (pascalList ss))
    (hcount : ss.length ≤ 255) (hss : ∀ s ∈ ss, s.length ≤ 255) :
    (VersionsWalked buf p ss ↔ (∀ s ∈ (ss.take 10).dropLast, s.length ≤ 33) ∧
      ∀ s ∈ ss.take 10, ∀ v ∈ afpVersions, cString s = v.1 → s = v.1) ∧
    (UamsWalked buf p ss ↔ (∀ s ∈ (ss.take 10).dropLast, s.length ≤ 24) ∧
      ∀ m : Method, ∀ s ∈ ss.take 10, strcaseeq (cString s) m.name = true → ∃ t ∈ ss.take 10, strcaseeq t m.name = true) := by
  have hcount : ss.length < 256 := Nat.lt_succ_of_le hcount
  have hss : ∀ s ∈ ss, s.length < 256 := fun s hs => Nat.lt_succ_of_le (hss s hs)
  have htake : ∀ s ∈ ss.take 10, s.length < 256 := fun s hs => hss s (List.mem_of_mem_take hs)
  have hwalks (maxLen : Nat) := walksAlong_iff maxLen (stands_take h) htake
  constructor
  · constructor
    · rintro ⟨hplaces, hversions⟩
      have hcut := (hwalks 33).mp hplaces
      rw [dsiParseVersions_along h hcount hss hcut] at hversions
      exact ⟨hcut, (stored_versions_iff _).mp (Option.some.inj hversions)⟩
    · rintro ⟨hcut, hwhole⟩
      refine ⟨(hwalks 33).mpr hcut, ?_⟩
      rw [dsiParseVersions_along h hcount hss hcut, (stored_versions_iff _).mpr hwhole]
  · constructor
    · rintro ⟨hplaces, huams⟩
      have hcut := (hwalks 24).mp hplaces
      rw [dsiParseUams_along h hcount hss hcut] at huams
      exact ⟨hcut, (stored_uams_iff _).mp (Option.some.inj huams)⟩
    · rintro ⟨hcut, hother⟩
      refine ⟨(hwalks 24).mpr hcut, ?_⟩
      rw [dsiParseUams_along h hcount hss hcut, (stored_uams_iff _).mpr hother]

theorem lists_walked_two :
    let ss : List Bytes := [[65, 70, 80, 50, 46, 50], [120]]
    (VersionsWalked (pascalList ss) 0 ss ↔ (∀ s ∈ (ss.take 10).dropLast, s.length ≤ 33) ∧
      ∀ s ∈ ss.take 10, ∀ v ∈ afpVersions, cString s = v.1 → s = v.1) ∧
    (UamsWalked (pascalList ss) 0 ss ↔ (∀ s ∈ (ss.take 10).dropLast, s.length ≤ 24) ∧
      ∀ m : Method, ∀ s ∈ ss.take 10, strcaseeq (cString s) m.name = true → ∃ t ∈ ss.take 10, strcaseeq t m.name = true) :=
  lists_walked_iff _ 0 [[65, 70, 80, 50, 46, 50], [120]] (by decide) (by decide) (by decide)

def vendorUam : Bytes := List.replicate 24 97 ++ [4, 68, 72, 88, 50]

/-- A long name in front of `Cleartxt Passwrd`: the method is lost, and one that the server does not have is found. A version
is found in a string that is no version. -/
theorem lists_walked_astray :
    dsiParseUams (pascalList [vendorUam, Method.cleartxtPasswrd.name]) 0 = some (1 <<< 6) ∧
      [vendorUam, Method.cleartxtPasswrd.name].foldl (fun uams s => uams ||| uamStringToBitmap s) 0 = 1 <<< 1 ∧
      dsiParseVersions (pascalList [[65, 70, 80, 50, 46, 50, 0, 120]]) 0 = some (padded 10 [22]) ∧
      versionNumber [65, 70, 80, 50, 46, 50, 0, 120] = none := by
  decide

end AfpfsNg.Dsi
