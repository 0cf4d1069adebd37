import AfpfsNg.Afp.Volume

/-!
# The check of a path

`invalid_filename` (`lib/utils.c`) once more, as a loop over pointers into the path. `Afp.invalidFilename` is what it
computes for a path of less than 2 ^ 31 bytes. The length is kept in an `int`, so for a longer path it is negative or the
remainder by 2 ^ 32: then the loop takes the first pointers behind it for the end of the path and accepts what is left.
-/

namespace AfpfsNg.Afp.Scan
open AfpfsNg.Base

def maxNameLen (v : Volume) : Nat :=
  if v.avNumber < 30 then 31
  else if v.pathEncoding = .utf8Name then 1024
  else 255

/-- The loop of `invalid_filename` and what follows it. `p` is an offset of `filename`. -/
def scanNames (filename : Bytes) (len : Int) (maxlen : Nat) : Nat → Nat → Option Bool
  | 0, _ => none
  | fuel + 1, p =>
    match strchr slash (filename.drop p) with
    | some i =>
      if maxlen < i then some true
      else if len < p + i + 1 then some false
      else scanNames filename len maxlen fuel (p + i + 1)
    | none => some (maxlen < filename.length - p)

/-- C `invalid_filename`. For an empty string, `p` starts behind the terminator, and there is no result. -/
def invalidFilename (v : Volume) (filename : Bytes) : Option Bool :=
  let len := int32 (filename.length % 2 ^ 32)
  if filename = [] then none
  else if len = 1 ∧ filename.head? = some slash then some false
  else scanNames filename len (maxNameLen v) (filename.length + 1) 1

def components (path : Bytes) : List Bytes := (path.drop 1).splitOn slash

/-- The check accepts the path just if no component is too long. -/
def ChecksNames (v : Volume) (path : Bytes) : Prop :=
  invalidFilename v path = some false ↔ ∀ c ∈ components path, c.length ≤ maxNameLen v

section Short
variable {filename : Bytes} {len : Int} {maxlen fuel p : Nat}

lemma scanNames_eq (hlen : filename.length ≤ len) (hfuel : filename.length < p + fuel) (hp : p ≤ filename.length) :
    scanNames filename len maxlen fuel p = some (((filename.drop p).splitOn slash).any (maxlen < ·.length)) := by
  induction fuel generalizing p with
  | zero => omega
  | succ fuel ih =>
    have hdrop : (filename.drop p).length = filename.length - p := List.length_drop
    rw [scanNames]
    by_cases hmem : slash ∈ filename.drop p
    · obtain ⟨u, w, hsplit, hu⟩ := List.eq_append_cons_of_mem hmem
      have hw : filename.drop (p + u.length + 1) = w := by
        rw [Nat.add_assoc, ← List.drop_drop, hsplit, ← List.drop_drop, List.drop_left]
        rfl
      rw [hsplit, List.length_append, List.length_cons] at hdrop
      rw [hsplit, strchr_append hu, List.splitOn_append_cons_self, List.splitOn_eq_singleton hu, List.singleton_append,
        List.any_cons]
      by_cases hlong : maxlen < u.length
      · simp only [if_pos hlong, decide_eq_true hlong, Bool.true_or]
      · simp only [if_neg hlong, decide_eq_false hlong, Bool.false_or]
        rw [if_neg (by omega), ih (by omega) (by omega), hw]
    · rw [strchr_none hmem, List.splitOn_eq_singleton hmem, List.any_cons, List.any_nil, Bool.or_false, hdrop]

lemma componentLengths_eq (s : Bytes) :
    invalidComponent.componentLengths s = (s.splitOn slash).map List.length := by
  induction s with
  | nil => rfl
  | cons x s ih =>
    rw [invalidComponent.componentLengths, List.splitOn, List.splitOnP_cons_eq_if_modifyHead]
    change invalidComponent.componentLengths s = (s.splitOnP (· == slash)).map List.length at ih
    split
    case isTrue hx =>
      rw [if_pos (beq_iff_eq.mpr hx), ih]
      rfl
    case isFalse hx =>
      obtain ⟨c, cs, hcs⟩ := List.exists_cons_of_ne_nil (List.splitOnP_ne_nil (· == slash) s)
      rw [if_neg (fun h => hx (beq_iff_eq.mp h)), ih, hcs]
      rfl

lemma int32_of_lt {n : Nat} (h : n < 2 ^ 31) : int32 (n % 2 ^ 32) = n := by
  rw [Nat.mod_eq_of_lt (by omega), int32, if_pos h]

lemma invalidFilename_short {v : Volume} {s : Bytes} (hs : (slash :: s).length < 2 ^ 31) :
    invalidFilename v (slash :: s) = some ((s.splitOn slash).any (maxNameLen v < ·.length)) := by
  rw [invalidFilename, int32_of_lt hs, if_neg (List.cons_ne_nil slash s)]
  cases s with
  | nil =>
    rw [if_pos ⟨rfl, rfl⟩]
    rfl
  | cons x s =>
    rw [if_neg (fun h => by rw [List.length_cons, List.length_cons] at h; omega),
      scanNames_eq (Int.le_refl _) (by omega) (by rw [List.length_cons]; omega)]
    rfl

lemma invalidFilename_eq {v : Volume} {s : Bytes} (hs : (slash :: s).length < 2 ^ 31) :
    invalidFilename v (slash :: s) = some (Afp.invalidFilename v (slash :: s)) := by
  rw [invalidFilename_short hs, Afp.invalidFilename, if_neg (List.cons_ne_nil slash s)]
  split
  case isTrue h =>
    cases h
    rfl
  case isFalse =>
    rw [invalidComponent, componentLengths_eq, List.any_map]
    rfl

end Short

section Long
variable {rest : Bytes} {len : Int} {maxlen fuel k p : Nat}

lemma scanNames_slashes (hp : p < k) (hlen : len < k) (hfuel : k < p + fuel) :
    scanNames (List.replicate k slash ++ rest) len maxlen fuel p = some false := by
  induction fuel generalizing p with
  | zero => omega
  | succ fuel ih =>
    obtain ⟨m, rfl⟩ := Nat.exists_eq_add_of_lt hp
    have hdrop : (List.replicate (p + m + 1) slash ++ rest).drop p = slash :: (List.replicate m slash ++ rest) := by
      rw [List.drop_append_of_le_length (by rw [List.length_replicate]; omega), List.drop_replicate,
        show p + m + 1 - p = m + 1 by omega, List.replicate_succ, List.cons_append]
    rw [scanNames, hdrop]
    simp only [strchr, if_pos, if_neg (Nat.not_lt_zero maxlen)]
    split
    case isTrue => rfl
    case isFalse hreach => exact ih (by omega) (by omega)

lemma slashes_behind {length : Nat} (h : 2 ^ 31 ≤ length) :
    ∃ k : Nat, 2 ≤ k ∧ int32 (length % 2 ^ 32) < k ∧ k + 1024 < length := by
  refine ⟨(int32 (length % 2 ^ 32)).toNat + 2, by omega, by omega, ?_⟩
  rw [int32]
  split
  · omega
  · omega

lemma maxNameLen_le (v : Volume) : maxNameLen v ≤ 1024 := by
  rw [maxNameLen]
  split
  · decide
  · split
    · decide
    · decide

lemma not_checksNames_slashes {v : Volume} (hk : 2 ≤ k) (hrest : slash ∉ rest) (hlong : maxNameLen v < rest.length)
    (hlen : int32 ((k + rest.length) % 2 ^ 32) < k) : ¬ ChecksNames v (List.replicate k slash ++ rest) := by
  obtain ⟨k, rfl⟩ := Nat.exists_eq_add_of_le' hk
  have hlength : (List.replicate (k + 2) slash ++ rest).length = k + 2 + rest.length := by
    rw [List.length_append, List.length_replicate]
  have haccept : invalidFilename v (List.replicate (k + 2) slash ++ rest) = some false := by
    rw [invalidFilename, hlength, if_neg (by rw [List.replicate_succ]; exact List.cons_ne_nil slash _)]
    split
    case isTrue => rfl
    case isFalse => exact scanNames_slashes (by omega) hlen (by omega)
  have hcomponents : rest ∈ components (List.replicate (k + 2) slash ++ rest) := by
    have hdrop : (List.replicate (k + 2) slash ++ rest).drop 1 = List.replicate k slash ++ slash :: rest := by
      rw [List.replicate_succ, List.cons_append, List.drop_one, List.tail_cons, List.replicate_succ', List.append_assoc,
        List.singleton_append]
    rw [components, hdrop, List.splitOn_append_cons_self, List.splitOn_eq_singleton hrest]
    exact List.mem_append_right _ (List.mem_singleton_self rest)
  intro hchecks
  exact absurd (hchecks.mp haccept rest hcomponents) (Nat.not_le.mpr hlong)

end Long

end AfpfsNg.Afp.Scan
