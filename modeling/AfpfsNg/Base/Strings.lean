import Mathlib.Data.List.Infix
import Mathlib.Data.List.Basic

/-!
# Strings with separators

The string functions of C that look for a separator (`strchr`, `strrchr`) or for a string (`strstr`), over lists of any type.
A string without its terminator is a list; `join sep cs` puts a separator in front of each field, as in an absolute path, and
`fields` takes such a string apart again, ignoring empty fields.
-/

namespace AfpfsNg.Base

variable {α : Type*} [DecidableEq α] {sep : α} {s t c : List α} {cs : List (List α)}

def strchr (sep : α) : List α → Option Nat
  | [] => none
  | x :: s => if x = sep then some 0 else (strchr sep s).map (· + 1)

def strrchr (sep : α) : List α → Option Nat
  | [] => none
  | x :: s =>
    match strrchr sep s with
    | some i => some (i + 1)
    | none => if x = sep then some 0 else none

def strstr (needle : List α) : List α → Option Nat
  | [] => if needle = [] then some 0 else none
  | x :: s => if needle <+: x :: s then some 0 else (strstr needle s).map (· + 1)

/-- Each field with a separator in front. -/
def join (sep : α) (cs : List (List α)) : List α := cs.flatMap (sep :: ·)

/-- The field a string starts with, and the fields behind it that are not empty. -/
def splitFirst (sep : α) : List α → List α × List (List α)
  | [] => ([], [])
  | x :: s =>
    let (w, ws) := splitFirst sep s
    if x = sep then ([], if w = [] then ws else w :: ws) else (x :: w, ws)

def fields (sep : α) (s : List α) : List (List α) :=
  let (w, ws) := splitFirst sep s
  if w = [] then ws else w :: ws

/-- A field: not empty, without the separator. -/
def IsField (sep : α) (c : List α) : Prop := c ≠ [] ∧ sep ∉ c

instance : Decidable (IsField sep c) := inferInstanceAs (Decidable (_ ∧ _))

lemma strchr_none (h : sep ∉ s) : strchr sep s = none := by
  induction s with
  | nil => rfl
  | cons x s ih =>
    rw [List.mem_cons, not_or] at h
    rw [strchr, if_neg (Ne.symm h.1), ih h.2]
    rfl

lemma strrchr_none (h : sep ∉ s) : strrchr sep s = none := by
  induction s with
  | nil => rfl
  | cons x s ih =>
    rw [List.mem_cons, not_or] at h
    rw [strrchr, ih h.2]
    exact if_neg (Ne.symm h.1)

lemma strchr_append (h : sep ∉ s) : strchr sep (s ++ sep :: t) = some s.length := by
  induction s with
  | nil => exact if_pos rfl
  | cons x s ih =>
    rw [List.mem_cons, not_or] at h
    rw [List.cons_append, strchr, if_neg (Ne.symm h.1), ih h.2]
    rfl

variable {i : Nat} {w r : List α}

lemma take_strchr (h : strchr sep s = some i) : s.take i = s.takeWhile (· ≠ sep) := by
  induction s generalizing i with
  | nil => cases h
  | cons x s ih =>
    rw [strchr] at h
    rw [List.takeWhile_cons]
    split at h
    case isTrue hx =>
      cases h
      rw [if_neg (by simpa using hx)]
      rfl
    case isFalse hx =>
      obtain ⟨j, hj, rfl⟩ := Option.map_eq_some_iff.mp h
      rw [if_pos (by simpa using hx), List.take_succ_cons, ih hj]

lemma strchr_lt (h : strchr sep s = some i) : i < s.length := by
  induction s generalizing i with
  | nil => cases h
  | cons x s ih =>
    rw [strchr] at h
    split at h
    · cases h
      exact Nat.succ_pos _
    · obtain ⟨j, hj, rfl⟩ := Option.map_eq_some_iff.mp h
      exact Nat.succ_lt_succ (ih hj)

lemma strrchr_append (h : sep ∉ t) : strrchr sep (s ++ sep :: t) = some s.length := by
  induction s with
  | nil =>
    rw [List.nil_append, strrchr, strrchr_none h]
    exact if_pos rfl
  | cons x s ih =>
    rw [List.cons_append, strrchr, ih]
    rfl

omit [DecidableEq α] in
lemma eq_append_of_mem (h : sep ∈ s) : ∃ u v, s = u ++ sep :: v ∧ sep ∉ v := by
  obtain ⟨v, u, hs, hv⟩ := List.eq_append_cons_of_mem (List.mem_reverse.mpr h)
  refine ⟨u.reverse, v.reverse, ?_, fun hin => hv (List.mem_reverse.mp hin)⟩
  rw [← List.reverse_reverse s, hs, List.reverse_append, List.reverse_cons, List.append_assoc, List.singleton_append]

lemma strrchr_eq_some (h : strrchr sep s = some i) : ∃ u v, s = u ++ sep :: v ∧ u.length = i ∧ sep ∉ v := by
  by_cases hmem : sep ∈ s
  · obtain ⟨u, v, rfl, hv⟩ := eq_append_of_mem hmem
    rw [strrchr_append hv] at h
    exact ⟨u, v, rfl, Option.some.inj h, hv⟩
  · rw [strrchr_none hmem] at h
    cases h

lemma strstr_eq_none : strstr t s = none ↔ ¬ t <:+: s := by
  induction s with
  | nil =>
    rw [List.infix_nil, strstr]
    split
    case isTrue h => exact iff_of_false nofun (not_not.mpr h)
    case isFalse h => exact iff_of_true rfl h
  | cons x s ih =>
    rw [strstr, List.infix_cons_iff, not_or]
    split
    case isTrue h => exact iff_of_false nofun fun hn => hn.1 h
    case isFalse h => rw [Option.map_eq_none_iff, ih, and_iff_right h]

lemma strstr_append {x : α} (h : x ∉ s) (u : List α) : strstr (x :: t) (s ++ x :: (t ++ u)) = some s.length := by
  induction s with
  | nil => exact if_pos (List.prefix_append (x :: t) u)
  | cons y s ih =>
    rw [List.mem_cons, not_or] at h
    have hy : ¬ (x :: t) <+: y :: (s ++ x :: (t ++ u)) := fun hp => h.1 (List.cons_prefix_cons.mp hp).1
    rw [List.cons_append, strstr, if_neg hy, ih h.2]
    rfl

lemma strstr_eq_some (h : strstr t s = some i) : ∃ u v, s = u ++ (t ++ v) ∧ u.length = i := by
  induction s generalizing i with
  | nil =>
    rw [strstr] at h
    split at h
    case isTrue ht =>
      cases h
      exact ⟨[], [], by rw [ht]; rfl, rfl⟩
    case isFalse => cases h
  | cons x s ih =>
    rw [strstr] at h
    split at h
    case isTrue hp =>
      cases h
      obtain ⟨v, hv⟩ := hp
      exact ⟨[], v, hv.symm, rfl⟩
    case isFalse =>
      obtain ⟨j, hj, rfl⟩ := Option.map_eq_some_iff.mp h
      obtain ⟨u, v, rfl, rfl⟩ := ih hj
      exact ⟨x :: u, v, rfl, rfl⟩

omit [DecidableEq α] in
lemma prefix_of_prefix_append (ht : sep ∉ t) (hr : ∀ x ∈ r.head?, x = sep) (h : t <+: w ++ r) : t <+: w := by
  rcases Nat.lt_or_ge w.length t.length with hlt | hle
  · cases r with
    | nil => rwa [List.append_nil] at h
    | cons x r =>
      obtain rfl : x = sep := hr x rfl
      have hw : w ++ [x] <+: w ++ x :: r := ⟨r, List.append_assoc ..⟩
      have hsep : w ++ [x] <+: t := List.prefix_of_prefix_length_le hw h (by rw [List.length_append]; exact hlt)
      exact absurd (hsep.subset (List.mem_append_right _ List.mem_cons_self)) ht
  · exact List.prefix_of_prefix_length_le h (List.prefix_append w r) hle

omit [DecidableEq α] in
lemma suffix_append_sep (ht : sep ∉ t) : t <:+ w ++ sep :: r ↔ t <:+ r := by
  refine ⟨fun h => ?_, fun h => h.trans ⟨w ++ [sep], List.append_assoc ..⟩⟩
  rw [← List.reverse_prefix] at h ⊢
  rw [List.reverse_append, List.reverse_cons, List.append_assoc] at h
  refine prefix_of_prefix_append (fun hmem => ht (List.mem_reverse.mp hmem)) ?_ h
  rintro x hx
  cases hx
  rfl

lemma strstr_append_left (ht : sep ∉ t) (hr : ∀ x ∈ r.head?, x = sep) (h : strstr t w = some i) :
    strstr t (w ++ r) = some i := by
  induction w generalizing i with
  | nil =>
    rw [strstr] at h
    split at h
    case isTrue hnil =>
      cases h
      rw [hnil]
      cases r with
      | nil => rfl
      | cons x r => exact if_pos List.nil_prefix
    case isFalse => cases h
  | cons x w ih =>
    rw [strstr] at h
    rw [List.cons_append, strstr]
    split at h
    case isTrue hp =>
      cases h
      exact if_pos (hp.trans (List.prefix_append (x :: w) r))
    case isFalse hp =>
      obtain ⟨j, hj, rfl⟩ := Option.map_eq_some_iff.mp h
      have hq : ¬ t <+: x :: (w ++ r) := fun hq => hp (prefix_of_prefix_append (w := x :: w) ht hr hq)
      rw [if_neg hq, ih hj]
      rfl

lemma strstr_append_right (ht : sep ∉ t) (hr : ∀ x ∈ r.head?, x = sep) (hw : ¬ t <:+: w) :
    strstr t (w ++ r) = (strstr t r).map (· + w.length) := by
  induction w with
  | nil => exact Option.map_id'.symm
  | cons x w ih =>
    rw [List.infix_cons_iff, not_or] at hw
    have hq : ¬ t <+: x :: (w ++ r) := fun hq => hw.1 (prefix_of_prefix_append (w := x :: w) ht hr hq)
    rw [List.cons_append, strstr, if_neg hq, ih hw.2, Option.map_map]
    rfl

section Join
omit [DecidableEq α]

@[simp] lemma join_nil : join sep [] = [] := rfl

@[simp] lemma join_cons : join sep (c :: cs) = sep :: (c ++ join sep cs) := rfl

lemma join_append {ds} : join sep (cs ++ ds) = join sep cs ++ join sep ds :=
  List.flatMap_append

lemma join_concat : join sep (cs ++ [c]) = join sep cs ++ sep :: c := by
  rw [join_append, join_cons, join_nil, List.append_nil]

lemma head_join : ∀ x ∈ (join sep cs).head?, x = sep := by
  intro x hx
  cases cs with
  | nil => cases hx
  | cons c cs =>
    cases hx
    rfl

lemma exists_join (sep : α) (s : List α) : ∃ c cs, (∀ d ∈ c :: cs, sep ∉ d) ∧ s = c ++ join sep cs := by
  induction s with
  | nil => exact ⟨[], [], by simp, rfl⟩
  | cons x s ih =>
    obtain ⟨c, cs, hcs, rfl⟩ := ih
    rcases eq_or_ne x sep with rfl | hx
    · refine ⟨[], c :: cs, fun d hd => ?_, rfl⟩
      rcases List.mem_cons.mp hd with rfl | hd
      · exact List.not_mem_nil
      · exact hcs d hd
    · refine ⟨x :: c, cs, fun d hd => ?_, rfl⟩
      rcases List.mem_cons.mp hd with rfl | hd
      · exact List.not_mem_cons_of_ne_of_not_mem hx.symm (hcs c List.mem_cons_self)
      · exact hcs d (List.mem_cons_of_mem c hd)

lemma exists_join_of_head (h : s.head? = some sep) :
    ∃ cs c, (∀ d ∈ cs, sep ∉ d) ∧ sep ∉ c ∧ s = join sep (cs ++ [c]) := by
  cases s with
  | nil => cases h
  | cons x s =>
    cases h
    obtain ⟨c, cs, hcs, rfl⟩ := exists_join sep s
    obtain ⟨ds, d, hds⟩ := List.eq_nil_or_concat (c :: cs) |>.resolve_left (List.cons_ne_nil c cs)
    rw [List.concat_eq_append] at hds
    rw [hds] at hcs
    refine ⟨ds, d, fun e he => hcs e (List.mem_append_left _ he), hcs d (by simp), ?_⟩
    rw [← hds, join_cons]

lemma length_le_join : cs.length ≤ (join sep cs).length := by
  induction cs with
  | nil => exact Nat.le_refl _
  | cons c cs ih =>
    rw [join_cons, List.length_cons, List.length_cons, List.length_append]
    omega

end Join

lemma strstr_join (hne : t ≠ []) (ht : sep ∉ t) (hcs : ∀ c ∈ cs, ¬ t <:+: c) (hr : r.head? = some sep) :
    strstr t (join sep cs ++ r) = (strstr t r).map (· + (join sep cs).length) := by
  induction cs with
  | nil => exact Option.map_id'.symm
  | cons c cs ih =>
    have hhead : (join sep cs ++ r).head? = some sep := by
      cases cs with
      | nil => exact hr
      | cons d ds => rfl
    have hstart : ¬ t <+: sep :: (c ++ (join sep cs ++ r)) := by
      intro hp
      obtain ⟨x, u, rfl⟩ := List.exists_cons_of_ne_nil hne
      exact ht ((List.cons_prefix_cons.mp hp).1 ▸ List.mem_cons_self)
    rw [join_cons, List.cons_append, List.append_assoc, strstr, if_neg hstart,
      strstr_append_right ht (fun x hx => by rw [hhead] at hx; exact (Option.some.inj hx).symm) (hcs c (.head _)),
      ih fun d hd => hcs d (.tail _ hd), Option.map_map, Option.map_map]
    congr 1
    funext j
    simp only [Function.comp_apply, List.length_cons, List.length_append]
    omega

lemma fields_sep_cons : fields sep (sep :: s) = fields sep s := by
  simp [fields, splitFirst]

lemma splitFirst_append (h : sep ∉ c) (ht : ∀ x ∈ t.head?, x = sep) :
    splitFirst sep (c ++ t) = (c, fields sep t) := by
  induction c with
  | nil =>
    cases t with
    | nil => rfl
    | cons x t =>
      obtain rfl : x = sep := ht x rfl
      simp [splitFirst, fields]
  | cons x c ih =>
    rw [List.mem_cons, not_or] at h
    rw [List.cons_append, splitFirst, ih h.2]
    exact if_neg (Ne.symm h.1)

lemma fields_self (h : IsField sep c) : fields sep c = [c] := by
  have hs := splitFirst_append (t := []) h.2 (fun x hx => nomatch hx)
  rw [List.append_nil] at hs
  simp only [fields, hs, if_neg h.1]
  rfl

lemma fields_join (h : ∀ c ∈ cs, IsField sep c) : fields sep (join sep cs) = cs := by
  induction cs with
  | nil => rfl
  | cons c cs ih =>
    have hc := h c (List.mem_cons_self ..)
    have hhead : ∀ x ∈ (join sep cs).head?, x = sep := by
      cases cs with
      | nil => exact fun x hx => nomatch hx
      | cons d ds =>
        intro x hx
        exact (Option.some.inj hx).symm
    rw [join_cons, fields_sep_cons, fields, splitFirst_append hc.2 hhead]
    simp only [if_neg hc.1]
    rw [ih (fun d hd => h d (List.mem_cons_of_mem _ hd))]

lemma join_inj {ds} (hc : ∀ c ∈ cs, IsField sep c) (hd : ∀ d ∈ ds, IsField sep d)
    (h : join sep cs = join sep ds) : cs = ds := by
  rw [← fields_join hc, h, fields_join hd]

end AfpfsNg.Base
