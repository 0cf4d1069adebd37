import AfpfsNg.Afp.Volume

/-!
# How the server spells a path

What `convert_utf8pre_to_utf8dec` does to a path (`lib/codepage.c`): it works on each component by itself, leaves
a path alone that has no `0xc3 0xa4`, and neither makes nor removes one of the names below `.AppleDouble`, in which
none of the bytes it writes occurs.
-/

namespace AfpfsNg.Afp
open AfpfsNg.Base

variable {s t w x : Bytes}

lemma convert_cons {y : UInt8} (h : ∀ src, y = 0xc3 → s ≠ 0xa4 :: src) :
    convertUtf8preToUtf8dec (y :: s) = y :: convertUtf8preToUtf8dec s := by
  rw [convertUtf8preToUtf8dec]
  exact fun src hy hs => h src hy hs

lemma convert_append_slash :
    convertUtf8preToUtf8dec (s ++ slash :: t) = convertUtf8preToUtf8dec s ++ slash :: convertUtf8preToUtf8dec t := by
  induction s using convertUtf8preToUtf8dec.induct with
  | case1 s ih =>
    show 0x61 :: 0xcc :: 0x88 :: convertUtf8preToUtf8dec (s ++ slash :: t) = _
    rw [ih]
    rfl
  | case2 y s hy ih =>
    have hcross : ∀ src, y = 0xc3 → s ++ slash :: t ≠ 0xa4 :: src := by
      intro src hc3 heq
      cases s with
      | nil => cases heq
      | cons z s =>
        cases heq
        exact hy s hc3 rfl
    rw [List.cons_append, convert_cons hcross, convert_cons hy, ih]
    rfl
  | case3 => exact convert_cons nofun

lemma convert_join (cs : List Bytes) :
    convertUtf8preToUtf8dec (join slash cs) = join slash (cs.map convertUtf8preToUtf8dec) := by
  induction cs using List.reverseRecOn with
  | nil => rfl
  | append_singleton cs x ih =>
    rw [join_concat, convert_append_slash, ih, List.map_append, List.map_singleton, join_concat]

lemma slash_not_mem_convert (h : slash ∉ s) : slash ∉ convertUtf8preToUtf8dec s := by
  induction s using convertUtf8preToUtf8dec.induct with
  | case1 s ih =>
    have hs : slash ∉ s := fun hmem => h (.tail _ (.tail _ hmem))
    intro hmem
    rcases List.mem_cons.mp hmem with heq | hmem
    · cases heq
    · rcases List.mem_cons.mp hmem with heq | hmem
      · cases heq
      · rcases List.mem_cons.mp hmem with heq | hmem
        · cases heq
        · exact ih hs hmem
  | case2 y s hy ih =>
    rw [convert_cons hy]
    intro hmem
    rcases List.mem_cons.mp hmem with heq | hmem
    · exact h (heq ▸ .head _)
    · exact ih (fun hmem => h (.tail _ hmem)) hmem
  | case3 => exact List.not_mem_nil

lemma convert_eq_nil : convertUtf8preToUtf8dec x = [] ↔ x = [] := by
  constructor
  · intro hnil
    cases x using convertUtf8preToUtf8dec.fun_cases with
    | case1 s => cases hnil
    | case2 y s hy =>
      rw [convert_cons hy] at hnil
      cases hnil
    | case3 => rfl
  · rintro rfl
    rfl

lemma convert_eq_self (h : 0xcc ∉ convertUtf8preToUtf8dec s) : convertUtf8preToUtf8dec s = s := by
  induction s using convertUtf8preToUtf8dec.induct with
  | case1 s ih => exact absurd (.tail _ (.head _)) h
  | case2 y s hy ih =>
    rw [convert_cons hy] at h ⊢
    rw [ih fun hmem => h (.tail _ hmem)]
  | case3 => rfl

lemma convert_eq_self_iff : convertUtf8preToUtf8dec s = s ↔ ¬ [0xc3, 0xa4] <:+: s := by
  induction s using convertUtf8preToUtf8dec.induct with
  | case1 s ih =>
    have hin : [0xc3, 0xa4] <:+: 0xc3 :: 0xa4 :: s := ⟨[], s, rfl⟩
    refine ⟨fun heq => ?_, fun hnot => absurd hin hnot⟩
    rw [convertUtf8preToUtf8dec] at heq
    exact absurd (List.cons.inj heq).1 (by decide)
  | case2 y s hy ih =>
    have hstart : ¬ [0xc3, 0xa4] <+: y :: s := by
      rintro ⟨t, ht⟩
      cases ht
      exact hy t rfl rfl
    rw [convert_cons hy, List.cons_inj_right, ih, List.infix_cons_iff, not_or]
    exact ⟨fun h => ⟨hstart, h⟩, fun h => h.2⟩
  | case3 =>
    refine ⟨fun _ hin => ?_, fun _ => rfl⟩
    cases List.infix_nil.mp hin

lemma prefix_of_prefix_convert (hw : 0x61 ∉ w) (h : w <+: convertUtf8preToUtf8dec s) : w <+: s := by
  induction s using convertUtf8preToUtf8dec.induct generalizing w with
  | case1 s ih =>
    cases w with
    | nil => exact List.nil_prefix
    | cons z w =>
      have hz : z = 0x61 := (List.cons_prefix_cons.mp h).1
      exact absurd (hz ▸ .head _) hw
  | case2 y s hy ih =>
    rw [convert_cons hy] at h
    cases w with
    | nil => exact List.nil_prefix
    | cons z w =>
      obtain ⟨hz, htail⟩ := List.cons_prefix_cons.mp h
      exact List.cons_prefix_cons.mpr ⟨hz, ih (fun hmem => hw (.tail _ hmem)) htail⟩
  | case3 => exact h

lemma infix_of_infix_convert (hw : ∀ y ∈ w, y ≠ 0x61 ∧ y ≠ 0xcc ∧ y ≠ 0x88) (hne : w ≠ [])
    (h : w <:+: convertUtf8preToUtf8dec s) : w <:+: s := by
  obtain ⟨z, w', rfl⟩ := List.exists_cons_of_ne_nil hne
  obtain ⟨hz1, hz2, hz3⟩ := hw z (.head _)
  induction s using convertUtf8preToUtf8dec.induct with
  | case1 s ih =>
    have hs : z :: w' <:+: convertUtf8preToUtf8dec s := by
      rcases List.infix_cons_iff.mp h with hp | h
      · exact absurd (List.cons_prefix_cons.mp hp).1 hz1
      · rcases List.infix_cons_iff.mp h with hp | h
        · exact absurd (List.cons_prefix_cons.mp hp).1 hz2
        · rcases List.infix_cons_iff.mp h with hp | h
          · exact absurd (List.cons_prefix_cons.mp hp).1 hz3
          · exact h
    exact (ih hs).trans (List.suffix_append [0xc3, 0xa4] s).isInfix
  | case2 y s hy ih =>
    rw [convert_cons hy] at h
    rcases List.infix_cons_iff.mp h with hp | h
    · rw [← convert_cons hy] at hp
      exact (prefix_of_prefix_convert (fun hmem => (hw _ hmem).1 rfl) hp).isInfix
    · exact (ih h).trans (List.suffix_cons y s).isInfix
  | case3 => exact h

lemma not_infix_of_short (habs : s.head? = some slash) (h : s.length < appledouble.length + 1) :
    ¬ appledouble <:+: s := by
  cases s with
  | nil => cases habs
  | cons y s =>
    cases habs
    intro hin
    rcases List.infix_cons_iff.mp hin with hp | hin
    · exact absurd (List.cons_prefix_cons.mp hp).1 (by decide)
    · have hle := hin.length_le
      rw [List.length_cons] at h
      omega

lemma extraTranslate_none_iff {v : Volume} (habs : s.head? = some slash) :
    (∃ p, extraTranslate v s = .ok (.none, p)) ↔
      v.showAppledouble = false ∨ s ≠ servericonString ∧ ¬ appledouble <:+: s := by
  rw [extraTranslate]
  split
  case isTrue hshow => exact iff_of_true ⟨_, rfl⟩ (.inl (Bool.eq_false_iff.mpr hshow))
  case isFalse hshow =>
    have hshown : ¬ v.showAppledouble = false := fun h => hshow (Bool.eq_false_iff.mp h)
    rw [or_iff_right hshown]
    split
    case isTrue hicon =>
      refine iff_of_false ?_ fun h => h.1 hicon
      rintro ⟨_, h⟩
      cases h
    case isFalse hicon =>
      rw [and_iff_right hicon]
      split
      case isTrue hshort => exact iff_of_true ⟨_, rfl⟩ (not_infix_of_short habs hshort)
      case isFalse hlong =>
        cases hlast : strrchr slash s with
        | none =>
          cases s with
          | nil => cases habs
          | cons y s =>
            cases habs
            rw [strrchr] at hlast
            split at hlast
            · cases hlast
            · cases hlast
        | some i =>
          dsimp only
          split
          case isTrue hname =>
            refine iff_of_false ?_ fun hin => hin ?_
            · rintro ⟨_, h⟩
              cases h
            · rw [← hname]
              exact (List.drop_suffix _ _).isInfix
          case isFalse hname =>
            rw [← strstr_eq_none]
            cases strstr appledouble s with
            | none => exact iff_of_true ⟨_, rfl⟩ rfl
            | some j =>
              refine iff_of_false ?_ fun hnone => by cases hnone
              rintro ⟨_, h⟩
              dsimp only at h
              split at h
              · cases h
              · split at h
                · cases h
                · split at h
                  · cases h
                  · cases h

lemma head_convert (habs : s.head? = some slash) : (convertUtf8preToUtf8dec s).head? = some slash := by
  cases s with
  | nil => cases habs
  | cons y s =>
    cases habs
    rw [convert_cons fun _ h => absurd h (by decide)]
    rfl

lemma convertPathToAfp_absolute {v : Volume} {converted : Bytes} (habs : s.head? = some slash)
    (h : convertPathToAfp v s = .ok (some converted)) :
    converted.head? = some slash ∧ converted.length < afpMaxPath := by
  have hfit : ∀ dest, dest.head? = some slash → convertPathToAfp.fit dest = .ok (some converted) →
      converted.head? = some slash ∧ converted.length < afpMaxPath := by
    intro dest hdest hrun
    rw [convertPathToAfp.fit] at hrun
    split at hrun
    case isTrue hlt =>
      cases hrun
      exact ⟨hdest, hlt⟩
    case isFalse => cases hrun
  rw [convertPathToAfp] at h
  split at h
  · exact hfit _ (head_convert habs) h
  · exact hfit _ habs h
  · cases h

lemma extraTranslate_convert {v : Volume} {p : Bytes} (habs : s.head? = some slash)
    (h : extraTranslate v s = .ok (.none, p)) : ∃ p, extraTranslate v (convertUtf8preToUtf8dec s) = .ok (.none, p) := by
  rw [extraTranslate_none_iff (head_convert habs)]
  refine ((extraTranslate_none_iff habs).mp ⟨p, h⟩).imp_right fun ⟨hicon, hin⟩ => ⟨fun heq => ?_, fun hin' => ?_⟩
  · have hself : convertUtf8preToUtf8dec s = s := convert_eq_self (by rw [heq]; decide)
    exact hicon (hself.symm.trans heq)
  · exact hin (infix_of_infix_convert (by simp [appledouble]) (by decide) hin')

end AfpfsNg.Afp
