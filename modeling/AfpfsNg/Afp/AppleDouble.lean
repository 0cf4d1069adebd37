import AfpfsNg.Afp.Spelling

/-!
# Paths below `.AppleDouble`

`extra_translate` looks for the name `.AppleDouble` in a path with `strstr`, where the documentation speaks of a directory of
that name. `translated` is what the documentation says, over the components of a path.
-/

namespace AfpfsNg.Afp
open AfpfsNg.Base

def absolute (cs : List Bytes) : Bytes := if cs = [] then [slash] else join slash cs

/-- The kind of file behind `.AppleDouble`, by the end of a path, and the path without this end. -/
def classify (path newpath : Bytes) : Meta × Bytes :=
  if finderinfoString <:+ path then (.finderinfo, newpath.take (newpath.length - finderinfoString.length))
  else if commentString <:+ path then (.comment, newpath.take (newpath.length - commentString.length))
  else (.resource, newpath)

/-- What a path stands for, by its components. -/
def translated (cs : List Bytes) : Meta × Bytes :=
  if appledouble ∉ cs then (.none, [])
  else if cs.getLast? = some appledouble then (.appledouble, absolute cs.dropLast)
  else classify (absolute cs) (absolute (cs.erase appledouble))

def mentions (c : Bytes) : Bool := appledouble <:+: c

/-- The name is the last component; or the first one it stands in is `.AppleDouble`, or ends with it and has `.AppleDouble`
behind it. -/
def Recognised (cs : List Bytes) : Prop :=
  cs.getLast? = some appledouble ∨
    match cs.dropWhile (! mentions ·) with
    | [] => True
    | c :: post => c = appledouble ∨
        (strstr appledouble c).map (· + appledouble.length) = some c.length ∧ post.head? = some appledouble

lemma slash_not_mem_appledouble : slash ∉ appledouble := by decide

lemma take_suffix {s t : Bytes} (h : t <:+ s) : s.take (s.length - t.length) ++ t = s := by
  obtain ⟨u, rfl⟩ := h
  rw [List.length_append, Nat.add_sub_cancel, List.take_left]

lemma classify_inj {s t : Bytes} (h : classify s s = classify t t) : s = t := by
  have hback : ∀ u, u = (classify u u).2 ++
      match (classify u u).1 with
      | .finderinfo => finderinfoString
      | .comment => commentString
      | _ => [] := by
    intro u
    rw [classify]
    split
    case isTrue hu => exact (take_suffix hu).symm
    case isFalse =>
      split
      case isTrue hu => exact (take_suffix hu).symm
      case isFalse => exact (List.append_nil u).symm
  rw [hback s, hback t, h]

lemma classify_ne_none (s t : Bytes) : (classify s t).1 ≠ .none := by
  rw [classify]
  split
  · exact nofun
  · split
    · exact nofun
    · exact nofun

lemma classify_join {s t l : Bytes} (n : Bytes) : classify (s ++ slash :: l) n = classify (t ++ slash :: l) n := by
  have hend {u : Bytes} (hu : slash ∉ u) : u <:+ s ++ slash :: l ↔ u <:+ t ++ slash :: l :=
    (suffix_append_sep hu).trans (suffix_append_sep hu).symm
  simp only [classify, hend (u := finderinfoString) (by decide), hend (u := commentString) (by decide)]

lemma longer_and_suffix {s t : Bytes} (hs : slash ∈ s) (ht : slash ∉ t) : t.length < s.length ∧ t <:+ s ↔ t <:+ s := by
  refine ⟨fun h => h.2, fun h => ⟨Nat.lt_of_le_of_ne h.length_le fun hlen => ?_, h⟩⟩
  rw [h.eq_of_length hlen] at ht
  exact ht hs

section Code
variable {v : Volume} {cs pre post : List Bytes} {l c x z : Bytes}

lemma strrchr_last (cs : List Bytes) (hl : slash ∉ l) : strrchr slash (join slash (cs ++ [l])) = some (join slash cs).length ∧
    (join slash (cs ++ [l])).drop ((join slash cs).length + 1) = l := by
  rw [join_concat]
  refine ⟨strrchr_append hl, ?_⟩
  rw [← List.drop_drop, List.drop_left]
  rfl

lemma extraTranslate_appledouble (hv : v.showAppledouble = true) (cs : List Bytes)
    (hicon : join slash (cs ++ [appledouble]) ≠ servericonString) :
    extraTranslate v (join slash (cs ++ [appledouble])) = .ok (.appledouble, absolute cs) := by
  have hlen : (join slash (cs ++ [appledouble])).length = (join slash cs).length + (appledouble.length + 1) := by
    rw [join_concat, List.length_append, List.length_cons]
  obtain ⟨hlast, hdrop⟩ := strrchr_last cs slash_not_mem_appledouble
  have htake : (join slash (cs ++ [appledouble])).take (join slash cs).length = join slash cs := by
    rw [join_concat, List.take_left]
  have hroot : (join slash cs).length + (appledouble.length + 1) = appledouble.length + 1 ↔ cs = [] := by
    rw [Nat.add_eq_right, List.length_eq_zero_iff]
    cases cs with
    | nil => exact iff_of_true rfl rfl
    | cons d ds => exact iff_of_false (List.cons_ne_nil _ _) (List.cons_ne_nil _ _)
  rw [extraTranslate, if_neg (not_not.mpr hv), if_neg hicon, if_neg (by omega), hlast]
  simp only [hdrop, if_true, hlen, hroot, Nat.add_sub_cancel, htake]
  rfl

lemma extraTranslate_unmentioned (hv : v.showAppledouble = true) (hl : slash ∉ l) (hne : l ≠ appledouble)
    (hicon : join slash (cs ++ [l]) ≠ servericonString) (hnone : strstr appledouble (join slash (cs ++ [l])) = none) :
    extraTranslate v (join slash (cs ++ [l])) = .ok (.none, []) := by
  obtain ⟨hlast, hdrop⟩ := strrchr_last cs hl
  rw [extraTranslate, if_neg (not_not.mpr hv), if_neg hicon, hlast]
  simp only [hdrop, if_neg hne, hnone, ite_self]

lemma extraTranslate_mentioned {u w : Bytes} (hv : v.showAppledouble = true) (hl : slash ∉ l) (hne : l ≠ appledouble)
    (hicon : join slash (cs ++ [l]) ≠ servericonString) (hpath : join slash (cs ++ [l]) = u ++ (appledouble ++ w))
    (hu : slash ∈ u) (hstr : strstr appledouble (join slash (cs ++ [l])) = some u.length) :
    extraTranslate v (join slash (cs ++ [l])) =
      if w = [] then .error .overread else .ok (classify (u ++ w.drop 1) (u ++ w.drop 1)) := by
  obtain ⟨hlast, hdrop⟩ := strrchr_last cs hl
  have hlong : ¬ (join slash (cs ++ [l])).length < appledouble.length + 1 := by
    have hpos := List.length_pos_of_mem hu
    rw [hpath, List.length_append, List.length_append]
    omega
  have htake : (join slash (cs ++ [l])).take u.length = u := by rw [hpath, List.take_left]
  have hrest : (join slash (cs ++ [l])).drop (u.length + appledouble.length) = w := by
    rw [hpath, ← List.drop_drop, List.drop_left, List.drop_left]
  have hrest' : (join slash (cs ++ [l])).drop (u.length + appledouble.length + 1) = w.drop 1 := by
    rw [← List.drop_drop, hrest]
  have hmem : slash ∈ u ++ w.drop 1 := List.mem_append_left _ hu
  rw [extraTranslate, if_neg (not_not.mpr hv), if_neg hicon, if_neg hlong, hlast]
  simp only [hdrop, if_neg hne, hstr, htake, hrest, hrest', longer_and_suffix hmem (by decide : slash ∉ finderinfoString),
    longer_and_suffix hmem (by decide : slash ∉ commentString), classify]
  split
  case isTrue => rfl
  case isFalse =>
    split
    case isTrue => rfl
    case isFalse =>
      split
      case isTrue => rfl
      case isFalse => rfl

end Code

section Compare
variable {v : Volume} {cs pre post : List Bytes} {l c x z : Bytes}

lemma not_infix_of_not_mentions (h : ∀ d ∈ pre, (! mentions d) = true) : ∀ d ∈ pre, ¬ appledouble <:+: d := by
  intro d hd hin
  have hnot := h d hd
  rw [mentions, decide_eq_true hin] at hnot
  cases hnot

lemma strstr_mentioned (hpre : ∀ d ∈ pre, ¬ appledouble <:+: d) (hstr : strstr appledouble c = some x.length) :
    strstr appledouble (join slash (pre ++ c :: post)) = some (join slash pre ++ slash :: x).length := by
  have hstart : ¬ appledouble <+: slash :: (c ++ join slash post) := by
    intro hp
    exact absurd (List.cons_prefix_cons.mp hp).1 (by decide)
  rw [join_append, join_cons, strstr_join (by decide) slash_not_mem_appledouble hpre rfl, strstr, if_neg hstart,
    strstr_append_left slash_not_mem_appledouble head_join hstr, List.length_append, List.length_cons]
  simp only [Option.map_some]
  congr 1
  omega

lemma strstr_unmentioned (h : ∀ d ∈ cs, ¬ appledouble <:+: d) : strstr appledouble (join slash cs) = none := by
  rcases List.eq_nil_or_concat cs with rfl | ⟨ds, d, rfl⟩
  · rfl
  · rw [List.concat_eq_append] at h ⊢
    have hstart : ¬ appledouble <+: slash :: d := fun hp => absurd (List.cons_prefix_cons.mp hp).1 (by decide)
    have hd : strstr appledouble d = none := strstr_eq_none.mpr (h d (List.mem_append_right _ List.mem_cons_self))
    rw [join_concat, strstr_join (by decide) slash_not_mem_appledouble (fun e he => h e (List.mem_append_left _ he)) rfl,
      strstr, if_neg hstart, hd]
    rfl

lemma newpath_eq_iff (hx : slash ∉ x ++ (appledouble ++ z)) (hpost : ∀ d ∈ post, slash ∉ d) (hne : post ≠ []) :
    join slash pre ++ slash :: x ++ (z ++ join slash post).drop 1 =
        join slash (pre ++ (x ++ (appledouble ++ z)) :: post.erase appledouble) ↔
      z = [] ∧ post.head? = some appledouble := by
  obtain ⟨d, ds, rfl⟩ := List.exists_cons_of_ne_nil hne
  have hcancel : join slash pre ++ slash :: x ++ (z ++ join slash (d :: ds)).drop 1 =
        join slash (pre ++ (x ++ (appledouble ++ z)) :: (d :: ds).erase appledouble) ↔
      (z ++ join slash (d :: ds)).drop 1 = appledouble ++ (z ++ join slash ((d :: ds).erase appledouble)) := by
    simp only [join_append, join_cons, List.append_assoc, List.cons_append, List.append_cancel_left_eq, List.cons.injEq,
      true_and]
  rw [hcancel]
  cases z with
  | nil =>
    show d ++ join slash ds = appledouble ++ join slash ((d :: ds).erase appledouble) ↔ _
    rw [and_iff_right rfl, List.head?_cons, Option.some_inj]
    constructor
    · intro heq
      -- neither has a separator, so that each one starts with the other
      have h1 : appledouble <+: d := prefix_of_prefix_append slash_not_mem_appledouble head_join ⟨_, heq.symm⟩
      have h2 : d <+: appledouble := prefix_of_prefix_append (hpost d (.head _)) head_join ⟨_, heq⟩
      exact h2.eq_of_length (Nat.le_antisymm h2.length_le h1.length_le)
    · rintro rfl
      rw [List.erase_cons_head]
  | cons y z =>
    refine iff_of_false (fun heq => ?_) fun h => List.cons_ne_nil _ _ h.1
    have hslash : slash ∉ appledouble ++ y :: z := fun hmem => hx (List.mem_append_right _ hmem)
    have hprefix : appledouble ++ y :: z <+: z ++ join slash (d :: ds) := ⟨_, by rw [List.append_assoc]; exact heq.symm⟩
    have hle := (prefix_of_prefix_append hslash head_join hprefix).length_le
    rw [List.length_append, List.length_cons] at hle
    omega

lemma extraTranslate_component (hv : v.showAppledouble = true) (hl : slash ∉ l) (hne : l ≠ appledouble)
    (hicon : join slash (cs ++ [l]) ≠ servericonString) (hcs : cs ++ [l] = pre ++ (x ++ (appledouble ++ z)) :: post)
    (hpre : ∀ d ∈ pre, ¬ appledouble <:+: d) (hstr : strstr appledouble (x ++ (appledouble ++ z)) = some x.length) :
    extraTranslate v (join slash (cs ++ [l])) =
      if z ++ join slash post = [] then .error .overread
      else .ok (classify (join slash pre ++ slash :: x ++ (z ++ join slash post).drop 1)
        (join slash pre ++ slash :: x ++ (z ++ join slash post).drop 1)) := by
  have hpath : join slash (cs ++ [l]) = join slash pre ++ slash :: x ++ (appledouble ++ (z ++ join slash post)) := by
    rw [hcs, join_append, join_cons]
    simp only [List.append_assoc, List.cons_append]
  have hfound : strstr appledouble (join slash (cs ++ [l])) = some (join slash pre ++ slash :: x).length := by
    rw [hcs]
    exact strstr_mentioned hpre hstr
  exact extraTranslate_mentioned hv hl hne hicon hpath (List.mem_append_right _ List.mem_cons_self) hfound

lemma translated_classify (hmem : appledouble ∈ cs) (hne : l ≠ appledouble) :
    translated (cs ++ [l]) =
      classify (join slash (cs.erase appledouble ++ [l])) (join slash (cs.erase appledouble ++ [l])) := by
  have hlast : ¬ (cs ++ [l]).getLast? = some appledouble := by
    rw [List.getLast?_concat, Option.some_inj]
    exact hne
  have habs (ds : List Bytes) : absolute (ds ++ [l]) = join slash (ds ++ [l]) := if_neg (List.concat_ne_nil l ds)
  rw [translated, if_neg (not_not.mpr (List.mem_append_left _ hmem)), if_neg hlast, List.erase_append_left _ hmem, habs, habs,
    join_concat, join_concat, classify_join]

lemma newpath_eq_join (hne : post ≠ []) :
    join slash pre ++ [slash] ++ (join slash post).drop 1 = join slash (pre ++ post) := by
  obtain ⟨d, ds, rfl⟩ := List.exists_cons_of_ne_nil hne
  rw [join_append, List.append_assoc]
  rfl

lemma classify_eq_iff {s t : Bytes} : classify s s = classify t t ↔ s = t :=
  ⟨classify_inj, fun h => h ▸ rfl⟩

lemma join_ne_nil (hne : cs ≠ []) : join slash cs ≠ [] := by
  obtain ⟨d, ds, rfl⟩ := List.exists_cons_of_ne_nil hne
  exact List.cons_ne_nil _ _

lemma around_eq_appledouble (h : x ++ (appledouble ++ z) = appledouble) : x = [] ∧ z = [] := by
  have hlen := congrArg List.length h
  rw [List.length_append, List.length_append] at hlen
  exact ⟨List.length_eq_zero_iff.mp (by omega), List.length_eq_zero_iff.mp (by omega)⟩

lemma strstr_end_iff (hstr : strstr appledouble (x ++ (appledouble ++ z)) = some x.length) :
    (strstr appledouble (x ++ (appledouble ++ z))).map (· + appledouble.length) = some (x ++ (appledouble ++ z)).length ↔
      z = [] := by
  rw [hstr, Option.map_some, Option.some_inj, ← List.length_eq_zero_iff, List.length_append, List.length_append]
  omega

/-- The name stands in the component `c` first. -/
lemma extraTranslate_component_iff (hv : v.showAppledouble = true) (hfields : ∀ d ∈ cs ++ [l], slash ∉ d)
    (hne : l ≠ appledouble) (hicon : join slash (cs ++ [l]) ≠ servericonString) (hcs : cs ++ [l] = pre ++ c :: post)
    (hpre : ∀ d ∈ pre, ¬ appledouble <:+: d) (hc : appledouble <:+: c) :
    extraTranslate v (join slash (cs ++ [l])) = .ok (translated (cs ++ [l])) ↔
      c = appledouble ∨
        (strstr appledouble c).map (· + appledouble.length) = some c.length ∧ post.head? = some appledouble := by
  obtain ⟨i, hstr⟩ : ∃ i, strstr appledouble c = some i := by
    cases hi : strstr appledouble c with
    | none => exact absurd hc (strstr_eq_none.mp hi)
    | some i => exact ⟨i, rfl⟩
  obtain ⟨x, z, rfl, rfl⟩ := strstr_eq_some hstr
  have hl : slash ∉ l := hfields l (List.mem_append_right _ List.mem_cons_self)
  have hnot : appledouble ∉ pre := fun hmem => hpre _ hmem List.infix_rfl
  have hmem_iff : appledouble ∈ cs ↔ appledouble ∈ cs ++ [l] :=
    ⟨List.mem_append_left _, fun h => (List.mem_append.mp h).resolve_right fun h' => hne (List.mem_singleton.mp h').symm⟩
  rw [extraTranslate_component hv hl hne hicon hcs hpre hstr]
  by_cases hmem : appledouble ∈ cs
  case neg =>
    -- the name is no component, so that the path stands for itself
    have hnone : translated (cs ++ [l]) = (.none, []) := if_pos fun h => hmem (hmem_iff.mpr h)
    rw [hnone]
    refine iff_of_false (fun h => ?_) fun h => hmem ?_
    · split at h
      · cases h
      · exact classify_ne_none _ _ (congrArg Prod.fst (Except.ok.inj h))
    · rw [hmem_iff, hcs]
      rcases h with heq | ⟨-, hhead⟩
      · rw [heq]
        exact List.mem_append_right _ List.mem_cons_self
      · exact List.mem_append_right _ (.tail _ (List.mem_of_mem_head? hhead))
  case pos =>
    have herase : cs.erase appledouble ++ [l] = pre ++ ((x ++ (appledouble ++ z)) :: post).erase appledouble := by
      rw [← List.erase_append_right _ hnot, ← hcs, List.erase_append_left _ hmem]
    rw [translated_classify hmem hne, herase]
    by_cases hself : x ++ (appledouble ++ z) = appledouble
    case pos =>
      obtain ⟨rfl, rfl⟩ := around_eq_appledouble hself
      have hpost : post ≠ [] := by
        rintro rfl
        exact hne ((List.cons.inj (List.append_inj' hcs rfl).2).1.trans hself)
      refine iff_of_true ?_ (.inl hself)
      rw [List.nil_append, if_neg (join_ne_nil hpost), newpath_eq_join hpost, hself, List.erase_cons_head]
    case neg =>
      have hpost : appledouble ∈ post := by
        rw [hmem_iff, hcs] at hmem
        exact ((List.mem_append.mp hmem).resolve_left hnot |> List.mem_cons.mp).resolve_left fun h => hself h.symm
      have hsome := List.append_ne_nil_of_right_ne_nil z (join_ne_nil (List.ne_nil_of_mem hpost))
      have hslash : ∀ d ∈ (x ++ (appledouble ++ z)) :: post, slash ∉ d := fun d hd =>
        hfields d (hcs ▸ List.mem_append_right _ hd)
      rw [if_neg hsome, Except.ok.injEq, classify_eq_iff, List.erase_cons_tail (by simpa using hself),
        newpath_eq_iff (hslash _ (.head _)) (fun d hd => hslash d (.tail _ hd)) (List.ne_nil_of_mem hpost),
        strstr_end_iff hstr, or_iff_right hself]

end Compare

/-- With the flag for AppleDouble files set, `extra_translate` treats a path other than `/.servericon` by its components, and
reads nothing behind the terminator, just if the path is recognised. -/
theorem extra_translate_iff (v : Volume) (hv : v.showAppledouble = true) (cs : List Bytes)
    (hcs : ∀ c ∈ cs, IsField slash c) (hicon : absolute cs ≠ servericonString) :
    extraTranslate v (absolute cs) = .ok (translated cs) ↔ Recognised cs := by
  rcases List.eq_nil_or_concat cs with rfl | ⟨xs, l, rfl⟩
  · refine iff_of_true ?_ (.inr trivial)
    rw [extraTranslate, if_neg (not_not.mpr hv), if_neg hicon]
    rfl
  rw [List.concat_eq_append] at hcs hicon ⊢
  have habs : absolute (xs ++ [l]) = join slash (xs ++ [l]) := if_neg (List.concat_ne_nil l xs)
  have hfields : ∀ d ∈ xs ++ [l], slash ∉ d := fun d hd => (hcs d hd).2
  rw [habs] at hicon ⊢
  rw [Recognised, List.getLast?_concat, Option.some_inj]
  by_cases hl : l = appledouble
  case pos =>
    subst hl
    have hmem : appledouble ∈ xs ++ [appledouble] := List.mem_append_right _ List.mem_cons_self
    refine iff_of_true ?_ (.inl rfl)
    rw [extraTranslate_appledouble hv xs hicon, translated, if_neg (not_not.mpr hmem), if_pos List.getLast?_concat,
      List.dropLast_concat]
  case neg =>
    have hpre : ∀ d ∈ (xs ++ [l]).takeWhile (! mentions ·), ¬ appledouble <:+: d :=
      not_infix_of_not_mentions fun d hd => List.all_eq_true.mp List.all_takeWhile d hd
    have hsplit : (xs ++ [l]).takeWhile (! mentions ·) ++ (xs ++ [l]).dropWhile (! mentions ·) = xs ++ [l] :=
      List.takeWhile_append_dropWhile
    rw [or_iff_right hl]
    cases hrest : (xs ++ [l]).dropWhile (! mentions ·) with
    | nil =>
      rw [hrest, List.append_nil] at hsplit
      rw [hsplit] at hpre
      have hnot : appledouble ∉ xs ++ [l] := fun hmem => hpre _ hmem List.infix_rfl
      refine iff_of_true ?_ trivial
      rw [extraTranslate_unmentioned hv (hfields l (by simp)) hl hicon (strstr_unmentioned hpre), translated, if_pos hnot]
    | cons c post =>
      have hc : appledouble <:+: c := by
        have hhead := List.head_dropWhile_not (! mentions ·) (l := xs ++ [l]) (by rw [hrest]; exact List.cons_ne_nil c post)
        simp only [hrest, List.head_cons, Bool.not_eq_false'] at hhead
        exact of_decide_eq_true hhead
      rw [hrest] at hsplit
      exact extraTranslate_component_iff hv hfields hl hicon hsplit.symm hpre hc

def appledoubleVolume : Volume := { plainVolume with showAppledouble := true }

theorem extra_translate_below :
    extraTranslate appledoubleVolume (absolute [[97], appledouble, [98]]) = .ok (translated [[97], appledouble, [98]]) :=
  (extra_translate_iff appledoubleVolume rfl [[97], appledouble, [98]] (by decide) (by decide)).mpr (.inr (.inl rfl))

/-- The file `/x.AppleDouble/y` is taken for the resource fork of `/xy`, and behind `/x.AppleDouble` the terminator is
passed over. -/
theorem extra_translate_inside_name :
    translated [120 :: appledouble, [121]] = (.none, []) ∧ translated [120 :: appledouble] = (.none, []) ∧
      extraTranslate appledoubleVolume (absolute [120 :: appledouble, [121]]) = .ok (.resource, [slash, 120, 121]) ∧
      extraTranslate appledoubleVolume (absolute [120 :: appledouble]) = .error .overread :=
  ⟨by decide, by decide, rfl, rfl⟩

end AfpfsNg.Afp
