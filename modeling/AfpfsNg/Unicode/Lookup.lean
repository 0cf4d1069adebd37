import AfpfsNg.Base.Uniform
import AfpfsNg.Unicode.Precompose

/-!
# Looking characters up

`UCS2precompose` against the table as a whole: the patterns are in order, and the distances of `delta` are such that a
uniform binary search passes over no entry (`Covers`).
-/

namespace AfpfsNg.Unicode
open AfpfsNg.Base

/-- The values that `i` takes in the loop of `UCS2precompose`, with the distances that are left. -/
def indicesFrom (needle : Nat) : Nat → List Nat → List Nat
  | _, [] => []
  | i, d :: ds =>
    i ::
      if d = 0 then []
      else
        match table[i]?, ds with
        | some (_, pattern), d' :: _ =>
          if needle < pattern then if d' ≤ i then indicesFrom needle (i - d') ds else []
          else if pattern < needle then indicesFrom needle (i + d') ds
          else []
        | _, _ => []

def ucs2Indices (first second : UInt16) : List Nat := indicesFrom (first.toNat <<< 16 ||| second.toNat) 499 delta

/-- The composition of the first entry with this pattern, or -1. The dummy entry is left out. -/
def tableLookup (needle : Nat) : Int := ((table.drop 1).find? fun e => e.2 = needle).elim (-1) fun e => e.1

def patternAt (i : Nat) : Nat := (table.getD i (0, 0)).2

def precomposedAt (i : Nat) : Int := (table.getD i (0, 0)).1

variable {i d : Nat} {e : Nat × Nat} {ds : List Nat}

lemma table_getElem? (h : i < 998) : table[i]? = some (table.getD i (0, 0)) := by
  rw [List.getD_eq_getElem?_getD, List.getElem?_eq_getElem (by rwa [length_table]), Option.getD_some]

lemma patterns_chain : (table.map Prod.snd).IsChain (· < ·) := by decide +kernel

lemma patternAt_of_getElem? (h : table[i]? = some e) : patternAt i = e.2 := by
  rw [patternAt, List.getD_eq_getElem?_getD, h, Option.getD_some]

lemma patternAt_strictMonoOn : StrictMonoOn patternAt (Set.Icc 0 997) := by
  intro i hi j hj hij
  have hsorted := List.isChain_iff_pairwise.mp patterns_chain
  have hj' : j < (table.map Prod.snd).length := by
    rw [List.length_map, length_table]
    exact Nat.lt_succ_of_le hj.2
  have hlt := List.pairwise_iff_getElem.mp hsorted i j (Nat.lt_trans hij hj') hj' hij
  rw [List.length_map] at hj'
  rw [List.getElem_map, List.getElem_map] at hlt
  rwa [patternAt_of_getElem? (List.getElem?_eq_getElem (Nat.lt_trans hij hj')),
    patternAt_of_getElem? (List.getElem?_eq_getElem hj')]

lemma pattern_unique {j k : Nat} {e' : Nat × Nat} (hj : table[j]? = some e) (hk : table[k]? = some e') (h : e.2 = e'.2) :
    j = k := by
  have hmem : ∀ {i e}, table[i]? = some e → i ∈ Set.Icc 0 997 := by
    intro i e hi
    have hlt := (List.getElem?_eq_some_iff.mp hi).1
    rw [length_table] at hlt
    exact ⟨Nat.zero_le i, Nat.le_of_lt_succ hlt⟩
  apply patternAt_strictMonoOn.injOn (hmem hj) (hmem hk)
  rw [patternAt_of_getElem? hj, patternAt_of_getElem? hk, h]

lemma tableLookup_of_getElem? {k : Nat} (hk : 1 ≤ k) (h : table[k]? = some e) : tableLookup e.2 = e.1 := by
  obtain ⟨k, rfl⟩ := Nat.exists_eq_add_of_le hk
  have hmem : e ∈ table.drop 1 := by
    apply List.mem_of_getElem?
    rwa [List.getElem?_drop]
  rw [tableLookup]
  cases hfind : (table.drop 1).find? fun e' => e'.2 = e.2 with
  | none =>
    have hne := List.find?_eq_none.mp hfind e hmem
    exact absurd (decide_eq_true rfl) hne
  | some e' =>
    have hfound := List.find?_some hfind
    have heq : e'.2 = e.2 := of_decide_eq_true hfound
    obtain ⟨j, hj⟩ := List.mem_iff_getElem?.mp (List.mem_of_mem_drop (List.mem_of_find?_eq_some hfind))
    obtain rfl := pattern_unique hj h heq
    rw [hj] at h
    cases h
    rfl

lemma tableLookup_of_forall {needle : Nat} (h : ∀ k e, 1 ≤ k → table[k]? = some e → e.2 ≠ needle) :
    tableLookup needle = -1 := by
  have hfind : (table.drop 1).find? (fun e => e.2 = needle) = none := by
    rw [List.find?_eq_none]
    intro e he heq
    obtain ⟨k, hk⟩ := List.mem_iff_getElem?.mp he
    rw [List.getElem?_drop] at hk
    exact h (1 + k) e (Nat.le_add_right ..) hk (of_decide_eq_true heq)
  rw [tableLookup, hfind]
  rfl

lemma searchFrom_cons (needle : Nat) {d' : Nat} (hd : d ≠ 0) (hi : i < 998) :
    searchFrom needle i (d :: d' :: ds) =
      if needle < patternAt i then if d' ≤ i then searchFrom needle (i - d') (d' :: ds) else none
      else if patternAt i < needle then searchFrom needle (i + d') (d' :: ds)
      else some (precomposedAt i) := by
  rw [searchFrom.eq_def]
  simp only [if_neg hd, table_getElem? hi]
  rfl

lemma searchFrom_uniform (needle : Nat) (hd : d ≠ 0) (hds : ∀ d ∈ ds, d ≠ 0) (hlow : ds.sum ≤ i)
    (hhigh : i + ds.sum < 998) :
    searchFrom needle i (d :: (ds ++ [0])) = some ((uniformSearch patternAt needle i ds).elim (-1) precomposedAt) := by
  induction ds generalizing i d with
  | nil =>
    have hi : i < 998 := hhigh
    rw [List.nil_append, searchFrom_cons needle hd hi, uniformSearch]
    rcases Nat.lt_trichotomy needle (patternAt i) with hlt | rfl | hgt
    · rw [if_pos hlt, if_pos (Nat.zero_le i), if_neg hlt.ne']
      rfl
    · rw [if_neg (Nat.lt_irrefl _), if_neg (Nat.lt_irrefl _), if_pos rfl]
      rfl
    · rw [if_neg (Nat.lt_asymm hgt), if_pos hgt, if_neg hgt.ne]
      rfl
  | cons d' ds ih =>
    rw [List.sum_cons] at hlow hhigh
    rw [List.forall_mem_cons] at hds
    rw [List.cons_append, searchFrom_cons needle hd (by omega), uniformSearch]
    rcases Nat.lt_trichotomy needle (patternAt i) with hlt | rfl | hgt
    · rw [if_pos hlt, if_pos hlt, if_pos (by omega)]
      exact ih hds.1 hds.2 (by omega) (by omega)
    · rw [if_neg (Nat.lt_irrefl _), if_neg (Nat.lt_irrefl _), if_neg (Nat.lt_irrefl _), if_neg (Nat.lt_irrefl _)]
      rfl
    · rw [if_neg (Nat.lt_asymm hgt), if_pos hgt, if_neg (Nat.lt_asymm hgt), if_pos hgt]
      exact ih hds.1 hds.2 (by omega) (by omega)

lemma indicesFrom_near (needle : Nat) {x : Nat} (hx : x ∈ indicesFrom needle i (d :: ds)) :
    i ≤ x + ds.sum ∧ x ≤ i + ds.sum := by
  induction ds generalizing i d with
  | nil =>
    rw [indicesFrom.eq_def] at hx
    rcases List.mem_cons.mp hx with rfl | hx
    · exact ⟨Nat.le_refl _, Nat.le_refl _⟩
    · simp at hx
  | cons d' ds ih =>
    rw [indicesFrom.eq_def] at hx
    rw [List.sum_cons]
    rcases List.mem_cons.mp hx with rfl | hx
    · exact ⟨by omega, by omega⟩
    · split at hx
      case isTrue => cases hx
      case isFalse =>
        split at hx
        case h_1 hdist =>
          cases hdist
          split at hx
          case isTrue =>
            split at hx
            case isTrue hle =>
              obtain ⟨hlow, hhigh⟩ := ih hx
              exact ⟨by omega, by omega⟩
            case isFalse => cases hx
          case isFalse =>
            split at hx
            case isTrue =>
              obtain ⟨hlow, hhigh⟩ := ih hx
              exact ⟨by omega, by omega⟩
            case isFalse => cases hx
        case h_2 => cases hx

def distances : List Nat := [249, 125, 62, 31, 16, 8, 4, 2, 1]

lemma uniformSearch_lookup (needle : Nat) :
    (uniformSearch patternAt needle 499 distances).elim (-1) precomposedAt = tableLookup needle := by
  have hsum : distances.sum = 498 := rfl
  cases hsearch : uniformSearch patternAt needle 499 distances with
  | some k =>
    obtain ⟨rfl, hlow, hhigh⟩ := uniformSearch_sound hsearch
    exact (tableLookup_of_getElem? (by omega) (table_getElem? (by omega))).symm
  | none =>
    refine (tableLookup_of_forall fun k e hk hentry heq => ?_).symm
    have hlt := (List.getElem?_eq_some_iff.mp hentry).1
    rw [length_table] at hlt
    have hfound : uniformSearch patternAt needle 499 distances = some k :=
      uniformSearch_complete patternAt_strictMonoOn (by decide) (by decide) (by decide) (by omega) (by omega)
        ((patternAt_of_getElem? hentry).trans heq)
    rw [hsearch] at hfound
    cases hfound

/-- `UCS2precompose` is a lookup in the table without its dummy entry, where each pattern is at most once; the index stays
in the table. -/
theorem precompose_looks_up (first second : UInt16) :
    ucs2precompose first second = some (tableLookup (65536 * first.toNat + second.toNat)) ∧
    (∀ (j k : Nat) (e e' : Nat × Nat), table[j]? = some e → table[k]? = some e' →
      e.2 = 65536 * first.toNat + second.toNat → e'.2 = 65536 * first.toNat + second.toNat → j = k) ∧
    ∀ i ∈ ucs2Indices first second, 1 ≤ i ∧ i ≤ 997 := by
  refine ⟨?_, fun j k e e' hj hk he he' => pattern_unique hj hk (he.trans he'.symm), ?_⟩
  · have hdelta : delta = 499 :: (distances ++ [0]) := rfl
    rw [ucs2precompose, needle_eq, hdelta, searchFrom_uniform _ (by decide) (by decide) (by decide) (by decide),
      uniformSearch_lookup]
  · intro i hi
    obtain ⟨hlow, hhigh⟩ := indicesFrom_near _ hi
    have hsum : [249, 125, 62, 31, 16, 8, 4, 2, 1, 0].sum = 498 := rfl
    omega

end AfpfsNg.Unicode
