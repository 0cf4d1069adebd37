import AfpfsNg.Unicode.Printable

/-!
# Conversions and their buffers

`convert_utf8dec_to_utf8pre` of a string that its loops read to the end, and the conversion of a path into an array of
`AFP_MAX_PATH` bytes. `convert_path_to_afp` may write behind the array or leave no terminator, since a letter becomes three
bytes. `convert_path_to_unix` may write behind the 384 units it has; and if a character of the path is cut short by the
terminator, then it converts what is in memory behind it.
-/

namespace AfpfsNg.Unicode
open AfpfsNg.Base AfpfsNg.Afp

/-- C `convert_path_to_unix` into an array of `AFP_MAX_PATH` bytes, with its result. `src` is what is in memory. -/
def convertPathToUnix (encoding : PathEncoding) (src : Bytes) : Option (Int × Bytes) :=
  match encoding with
  | .utf8Name => (decToPre src afpMaxPath).map fun dest => (0, dest)
  | .longName => some (0, src.take afpMaxPath)
  | .shortName => some (-1, [])

section Reads
variable {s : Bytes} {us : List UInt16}

lemma mbStrLenFrom_short {p : Bytes} {m : Nat} (h : p.length < m) : mbStrLenFrom m p = none := by
  induction p generalizing m with
  | nil =>
    obtain ⟨m, rfl⟩ := Nat.exists_eq_add_of_lt h
    rfl
  | cons c p ih =>
    obtain ⟨m, rfl⟩ := Nat.exists_eq_add_of_lt h
    exact ih (by rw [List.length_cons]; omega)

lemma Cut.mbStrLen (h : Cut s) : mbStrLen s = none := by
  rw [Unicode.mbStrLen]
  induction h with
  | @last c p hc =>
    obtain ⟨m, hm⟩ : ∃ m, mbCharLen c.toNat = m + 1 := ⟨_, (Nat.sub_add_cancel (by omega)).symm⟩
    rw [mbStrLenFrom, hm]
    show (mbStrLenFrom m p).map (· + 1) = none
    rw [mbStrLenFrom_short (by omega)]
    rfl
  | @char c t rest hc h ih =>
    rw [List.cons_append, mbStrLenFrom, hc]
    show (mbStrLenFrom t.length (t ++ rest)).map (· + 1) = none
    rw [mbStrLenFrom_append, ih]
    rfl

lemma reads_of_mbStrLen (h : mbStrLen s ≠ none) : ∃ us, Reads s us :=
  (reads_or_cut s).resolve_right fun hcut => h hcut.mbStrLen

lemma reads_iff : Reads s us ↔ utf8toUcs2 s = some us := by
  refine ⟨Reads.utf8toUcs2, fun h => ?_⟩
  have hlen : mbStrLen s ≠ none := by
    intro hnone
    rw [utf8toUcs2, hnone] at h
    cases h
  obtain ⟨vs, hvs⟩ := reads_of_mbStrLen hlen
  rw [hvs.utf8toUcs2] at h
  cases h
  exact hvs

lemma Reads.decToPre_eq (h : Reads s us) (destLen : Nat) :
    Unicode.decToPre s destLen =
      if (composed us).length < 384 ∧ (ucs2toUtf8 (composed us)).length < destLen
      then some (ucs2toUtf8 (composed us)) else none := by
  rw [Unicode.decToPre, h.utf8toUcs2]
  show (composeFrom 0 [] us).bind _ = _
  rw [composeFrom_composed h.pos]
  by_cases hroom : (composed us).length < 384
  · rw [if_pos hroom, Option.bind_some]
    simp only [hroom, true_and]
  · rw [if_neg hroom, Option.bind_none]
    simp only [hroom, false_and, if_false]

lemma Reads.length_composed (h : Reads s us) : (ucs2toUtf8 (composed us)).length ≤ s.length :=
  calc (ucs2toUtf8 (composed us)).length
    _ ≤ writtenLength (composed us) := length_ucs2toUtf8 _
    _ ≤ writtenLength us := writtenLength_composed us
    _ ≤ s.length := h.length_le.2

lemma Reads.reads_composed (h : Reads s us) : Reads (ucs2toUtf8 (composed us)) (composed us) :=
  reads_iff.mpr (utf8toUcs2_ucs2toUtf8 (composed_pos h.pos))

end Reads

/-- A string of up to 383 units, no character of which is cut short, gets no longer. There is room for the result
wherever there is room for the string. -/
theorem precompose_not_longer (src : Bytes) (n : Nat) (hn : mbStrLen src = some n) (hmax : n ≤ 383) :
    ∃ t, t.length ≤ src.length ∧ ∀ destLen, t.length < destLen → decToPre src destLen = some t := by
  obtain ⟨us, hus⟩ := reads_of_mbStrLen (s := src) (by rw [hn]; exact Option.some_ne_none n)
  have hlen : us.length = n := Option.some.inj (hus.mbStrLen.symm.trans hn)
  have hroom : (composed us).length < 384 := Nat.lt_succ_of_le (Nat.le_trans (length_fuse_le us) (by omega))
  refine ⟨_, hus.length_composed, fun destLen hdest => ?_⟩
  rw [hus.decToPre_eq, if_pos ⟨hroom, hdest⟩]

theorem precompose_not_longer_malformed :
    mbStrLen [0x61, 0xcc, 0x88, 0x80, 0xc3] = some 2 ∧
      ∃ t, t.length ≤ 5 ∧ ∀ destLen, t.length < destLen → decToPre [0x61, 0xcc, 0x88, 0x80, 0xc3] destLen = some t :=
  ⟨by decide, precompose_not_longer [0x61, 0xcc, 0x88, 0x80, 0xc3] 2 (by decide) (by decide)⟩

/-- Composing a string of up to 383 characters twice is composing it once. -/
theorem precompose_idempotent (s : Bytes) (n : Nat) (hs : Sequences s) (hn : mbStrLen s = some n) (hmax : n ≤ 383) :
    ∃ t, t.length ≤ s.length ∧
      ∀ destLen, t.length < destLen → decToPre s destLen = some t ∧ decToPre t destLen = some t := by
  obtain ⟨ns, hns⟩ := exists_spelled hs
  have hus : Reads s (ns.map .ofNat) := reads_iff.mpr (utf8toUcs2_spelled hns)
  have hlen : (ns.map UInt16.ofNat).length = n := Option.some.inj (hus.mbStrLen.symm.trans hn)
  have hroom : (composed (ns.map .ofNat)).length < 384 :=
    Nat.lt_succ_of_le (Nat.le_trans (length_fuse_le _) (by omega))
  refine ⟨_, hus.length_composed, fun destLen hdest => ⟨?_, ?_⟩⟩
  · rw [hus.decToPre_eq, if_pos ⟨hroom, hdest⟩]
  · rw [hus.reads_composed.decToPre_eq, composed_composed, if_pos ⟨hroom, hdest⟩]

theorem precompose_idempotent_marks :
    ∃ t, t.length ≤ 5 ∧ ∀ destLen, t.length < destLen →
      decToPre [0x61, 0xcc, 0x88, 0xcc, 0x84] destLen = some t ∧ decToPre t destLen = some t :=
  precompose_idempotent [0x61, 0xcc, 0x88, 0xcc, 0x84] 3
    (.cons (c := [0x61]) (.one (by decide) (by decide))
      (.cons (c := [0xcc, 0x88]) (.two (by decide) (by decide) ⟨by decide, by decide⟩)
        (.cons (c := [0xcc, 0x84]) (.two (by decide) (by decide) ⟨by decide, by decide⟩) .nil)))
    (by decide) (by decide)

/-- `convert_path_to_afp` writes to the array only, and leaves a terminator in it. -/
def ToAfpFits (src : Bytes) : Prop := ∃ dest, preToDec src afpMaxPath = some dest ∧ dest.length < afpMaxPath

/-- `convert_path_to_unix` writes to its arrays only, and leaves a terminator. -/
def ToUnixFits (src : Bytes) : Prop :=
  ∀ mem, mbStrLen (src ++ 0 :: mem) ≠ none →
    ∃ dest, convertPathToUnix .utf8Name (src ++ 0 :: mem) = some (0, dest) ∧ dest.length < afpMaxPath

lemma preToDecFrom_of_lt {destLen : Nat} {src dest d : Bytes} (h : preToDecFrom destLen dest src = some d)
    (hd : d.length < destLen) : d = dest ++ convertUtf8preToUtf8dec src := by
  induction src using convertUtf8preToUtf8dec.induct generalizing dest with
  | case1 src ih =>
    rw [preToDecFrom] at h
    split at h
    · split at h
      · rw [ih h, convertUtf8preToUtf8dec, List.append_assoc]
        rfl
      · cases h
    · cases h
      contradiction
  | case2 x src hx ih =>
    rw [preToDecFrom] at h
    · split at h
      · rw [ih h, convertUtf8preToUtf8dec, List.append_assoc]
        · rfl
        · exact hx
      · cases h
        contradiction
    · exact hx
  | case3 =>
    rw [preToDecFrom] at h
    cases h
    rw [convertUtf8preToUtf8dec, List.append_nil]

lemma toAfpFits_iff (src : Bytes) : ToAfpFits src ↔ (convertUtf8preToUtf8dec src).length < afpMaxPath := by
  constructor
  · rintro ⟨dest, hdest, hlt⟩
    rw [preToDecFrom_of_lt hdest hlt, List.nil_append] at hlt
    exact hlt
  · intro hlt
    refine ⟨_, preToDecFrom_eq src [] (by rw [List.length_nil]; omega), ?_⟩
    rw [List.nil_append]
    exact hlt

lemma convertPathToAfp_ok_iff {v : Volume} (hv : v.pathEncoding = .utf8Name) (src : Bytes) :
    convertPathToAfp v src = .ok (some (convertUtf8preToUtf8dec src)) ↔ ToAfpFits src := by
  rw [toAfpFits_iff, convertPathToAfp, hv]
  show convertPathToAfp.fit _ = _ ↔ _
  rw [convertPathToAfp.fit]
  split
  case isTrue h => exact ⟨fun _ => h, fun _ => rfl⟩
  case isFalse h => exact ⟨fun hok => (by cases hok), fun hlt => absurd hlt h⟩

lemma reads_letters (k : Nat) : Reads (List.replicate k 0x61 ++ [0]) (List.replicate k 0x61) := by
  induction k with
  | zero => exact .stop rfl
  | succ k ih =>
    have hchar := Reads.char (c := 0x61) (t := []) rfl ih
    exact hchar

lemma Cut.reads_letters {s : Bytes} (h : Cut s) {k : Nat} (hk : 7 ≤ k) :
    ∃ us, Reads (s ++ 0 :: (List.replicate k 0x61 ++ [0])) us ∧ k ≤ us.count 0x61 + 7 := by
  induction h with
  | @last c p hc =>
    obtain ⟨m, hm⟩ : ∃ m, mbCharLen c.toNat = p.length + (m + 1) + 1 := ⟨mbCharLen c.toNat - p.length - 2, by omega⟩
    have height := mbCharLen_le_eight c.toNat c.toNat_lt
    have hlen : (p ++ 0 :: List.replicate m 0x61).length = p.length + (m + 1) := by
      rw [List.length_append, List.length_cons, List.length_replicate]
    have hsplit : c :: p ++ 0 :: (List.replicate k 0x61 ++ [0]) =
        c :: (p ++ 0 :: List.replicate m 0x61) ++ (List.replicate (k - m) 0x61 ++ [0]) := by
      have hletters : List.replicate k (0x61 : UInt8) = List.replicate m 0x61 ++ List.replicate (k - m) 0x61 := by
        rw [List.replicate_append_replicate, Nat.add_sub_cancel' (by omega)]
      rw [hletters]
      simp only [List.cons_append, List.append_assoc]
    have hchar := Reads.char (c := c) (hm.trans (by rw [hlen])) (Unicode.reads_letters (k - m))
    rw [hsplit]
    refine ⟨_, hchar, Nat.le_trans ?_ (Nat.add_le_add_right List.count_le_count_cons 7)⟩
    rw [List.count_replicate_self]
    omega
  | @char c t rest hc h ih =>
    obtain ⟨us, hus, hcount⟩ := ih
    rw [List.append_assoc]
    refine ⟨_, .char hc hus, Nat.le_trans hcount (Nat.add_le_add_right List.count_le_count_cons 7)⟩

lemma count_le_length_composed (us : List UInt16) : us.count 0x61 ≤ (composed us).length := by
  cases us with
  | nil => exact Nat.zero_le _
  | cons c us =>
    have hcount : us.count 0x61 < (fuseFrom composition c us).length := count_lt_length_fuseFrom inert_a
    have hle : (c :: us).count 0x61 ≤ us.count 0x61 + 1 := by
      rw [List.count_cons]
      split <;> omega
    exact Nat.le_trans hle hcount

lemma toUnixFits_iff {src : Bytes} (hsrc : src.length < afpMaxPath) :
    ToUnixFits src ↔ ∃ us, utf8toUcs2 src = some us ∧ (composed us).length < 384 := by
  constructor
  · intro h
    rcases reads_or_cut src with ⟨us, hus⟩ | hcut
    · refine ⟨us, hus.utf8toUcs2, ?_⟩
      have hread := hus.append_zero []
      obtain ⟨dest, hdest, -⟩ := h [] (by rw [hread.mbStrLen]; exact Option.some_ne_none _)
      rw [convertPathToUnix, hread.decToPre_eq] at hdest
      by_contra hfull
      rw [if_neg fun hand => hfull hand.1] at hdest
      cases hdest
    · -- memory with more letters than `path16pre` has room for
      obtain ⟨us, hus, hcount⟩ := hcut.reads_letters (k := 391) (by decide)
      obtain ⟨dest, hdest, -⟩ := h _ (by rw [hus.mbStrLen]; exact Option.some_ne_none _)
      have hlen := count_le_length_composed us
      rw [convertPathToUnix, hus.decToPre_eq, if_neg (by rintro ⟨hlt, -⟩; omega)] at hdest
      cases hdest
  · rintro ⟨us, hus, hroom⟩ mem -
    have hreads := reads_iff.mpr hus
    have hdest := Nat.lt_of_le_of_lt hreads.length_composed hsrc
    refine ⟨ucs2toUtf8 (composed us), ?_, hdest⟩
    rw [convertPathToUnix, (hreads.append_zero mem).decToPre_eq, if_pos ⟨hroom, hdest⟩]
    rfl

/-- The two conversions of a path of less than `AFP_MAX_PATH` bytes stay in their arrays and leave a terminator just if the
decomposed path is shorter than the array, no character is cut short, and no more than 383 units are left when they are
composed. -/
theorem path_conversion_fits_iff (src : Bytes) (hsrc : src.length < afpMaxPath) :
    ToAfpFits src ∧ ToUnixFits src ↔
      (convertUtf8preToUtf8dec src).length < afpMaxPath ∧
        ∃ us, utf8toUcs2 src = some us ∧ (composed us).length < 384 :=
  and_congr (toAfpFits_iff src) (toUnixFits_iff hsrc)

theorem path_conversion_fits_short : ToAfpFits [0x2f, 0xc3, 0xa4] ∧ ToUnixFits [0x2f, 0xc3, 0xa4] :=
  (path_conversion_fits_iff [0x2f, 0xc3, 0xa4] (by decide)).mpr
    ⟨by decide, [0x2f, 0xe4], by decide, Nat.lt_of_le_of_lt (length_fuse_le _) (by decide)⟩

lemma not_toUnixFits_letters {k : Nat} (hk : 384 ≤ k) : ¬ ToUnixFits (List.replicate k 0x61) := by
  intro h
  have hreads := reads_letters k
  obtain ⟨dest, hdest, -⟩ := h [] (by rw [hreads.mbStrLen]; exact Option.some_ne_none _)
  have hlen := count_le_length_composed (List.replicate k 0x61)
  rw [List.count_replicate_self] at hlen
  rw [convertPathToUnix, hreads.decToPre_eq, if_neg (by rintro ⟨hlt, -⟩; omega)] at hdest
  cases hdest

/-- A path of 767 bytes that is decomposed to 769; 384 letters; and a character that is cut short. -/
theorem path_conversion_overruns :
    ¬ ToAfpFits ([0xc3, 0xa4] ++ List.replicate 763 0x78 ++ [0xc3, 0xa4]) ∧
      ¬ ToUnixFits (List.replicate 384 0x61) ∧ ¬ ToUnixFits [0xc3] := by
  refine ⟨?_, not_toUnixFits_letters (Nat.le_refl _), ?_⟩
  · rw [toAfpFits_iff]
    decide +kernel
  · rw [toUnixFits_iff (by decide)]
    rintro ⟨us, hus, -⟩
    have hnone : utf8toUcs2 [0xc3] = none := by decide
    rw [hnone] at hus
    cases hus

end AfpfsNg.Unicode
