import AfpfsNg.Base.Fusing
import AfpfsNg.Unicode.Codepage

/-!
# What a composed name is

The loop of `convert_utf8dec_to_utf8pre` fuses neighbours by the table: `composed us` are the units it writes for `us`, if
the array has room for them and a terminator (`composeFrom_composed`). The units that the table composes are none of those
that it has in second place.
-/

namespace AfpfsNg.Unicode
open AfpfsNg.Base

def composition (first second : UInt16) : Option UInt16 :=
  (ucs2precompose first second).bind fun comp => if comp = -1 then none else some (.ofInt comp)

/-- The units that are written for a string, however many they are. -/
def composed (us : List UInt16) : List UInt16 := fuse composition us

def within (n : Nat) : List (Nat × Nat) → Bool
  | [] => false
  | (low, high) :: ranges => Nat.ble n high && (Nat.ble low n || within n ranges)

/-- Ranges with the units in second place, and none of those in first place or composed ones. -/
def isMark (n : Nat) : Bool :=
  if n < 0x343 then 0x300 ≤ n
  else within n [
    (0x3099, 0x309a), (0x1b35, 0x1b35), (0x102e, 0x102e), (0xfb5, 0xfb7), (0xf80, 0xf80), (0xf74, 0xf74), (0xf72, 0xf72),
    (0xddf, 0xddf), (0xd57, 0xdcf), (0xcd5, 0xd3e), (0xcc2, 0xcc2), (0xc56, 0xc56), (0xbd7, 0xbd7), (0xbbe, 0xbbe),
    (0xb56, 0xb57), (0xb3c, 0xb3e), (0xa3c, 0xa3c), (0x9d7, 0x9d7), (0x9bc, 0x9be), (0x93c, 0x93c), (0x653, 0x655),
    (0x5b4, 0x5c2), (0x345, 0x345)]

lemma le_of_isMark {n : Nat} (h : isMark n = true) : 0x300 ≤ n := by
  rw [isMark] at h
  split at h
  case isTrue => exact of_decide_eq_true h
  case isFalse hn => omega

lemma table_marks :
    table.all (fun e => e.2 == 0 || (isMark (e.2 % 65536) && !isMark e.1 && Nat.ble 1 e.1 && Nat.ble e.1 65535)) = true := by
  decide +kernel

lemma ucs2precompose_zero : ucs2precompose 0 0 = some (-1) := by decide +kernel

section Table
variable {first second c : UInt16}

lemma composition_eq_none : composition first second = none ↔ Apart first second := by
  obtain ⟨r, hr, -⟩ := ucs2precompose_spec first second
  rw [composition, Apart, hr, Option.bind_some, Option.some_inj]
  exact ite_eq_left_iff.trans ⟨fun h => by_contra fun hne => Option.some_ne_none _ (h hne), fun h hne => absurd h hne⟩

lemma composition_eq_some (h : composition first second = some c) :
    ∃ comp, ucs2precompose first second = some comp ∧ comp ≠ -1 ∧ c = .ofInt comp := by
  obtain ⟨comp, hcomp, h⟩ := Option.bind_eq_some_iff.mp h
  split at h
  case isTrue => cases h
  case isFalse hne => exact ⟨comp, hcomp, hne, (Option.some.inj h).symm⟩

lemma composition_spec (h : composition first second = some c) :
    isMark second.toNat = true ∧ isMark c.toNat = false ∧ 0 < c := by
  obtain ⟨comp, hcomp, hne, rfl⟩ := composition_eq_some h
  obtain ⟨precomposed, hmem, rfl⟩ : ∃ n, (n, 65536 * first.toNat + second.toNat) ∈ table ∧ comp = n := by
    obtain ⟨r, hr, hspec⟩ := ucs2precompose_spec first second
    obtain rfl : r = comp := Option.some.inj (hr.symm.trans hcomp)
    exact hspec.resolve_left hne
  have hneedle : 65536 * first.toNat + second.toNat ≠ 0 := by
    intro hzero
    obtain rfl : first = 0 := UInt16.toNat_inj.mp (by change first.toNat = 0; omega)
    obtain rfl : second = 0 := UInt16.toNat_inj.mp (by change second.toNat = 0; omega)
    rw [ucs2precompose_zero] at hcomp
    exact hne (Option.some.inj hcomp).symm
  have hentry := List.all_eq_true.mp table_marks _ hmem
  have hsecond : (65536 * first.toNat + second.toNat) % 65536 = second.toNat := by
    have := second.toNat_lt
    omega
  simp only [beq_eq_false_iff_ne.mpr hneedle, Bool.false_or, Bool.and_eq_true, Bool.not_eq_true', hsecond,
    Nat.ble_eq] at hentry
  obtain ⟨⟨⟨hmark, hnone⟩, hlow⟩, hhigh⟩ := hentry
  have hc : (UInt16.ofInt precomposed).toNat = precomposed := by
    simp only [UInt16.ofInt, UInt16.toNat_ofNat']
    omega
  rw [hc]
  refine ⟨hmark, hnone, ?_⟩
  rw [UInt16.lt_iff_toNat_lt, hc]
  exact hlow

lemma composition_inert (first second c : UInt16) (h : composition first second = some c) : Inert composition c := by
  intro q
  cases hq : composition q c with
  | none => rfl
  | some d =>
    have hmark := (composition_spec hq).1
    rw [(composition_spec h).2.1] at hmark
    cases hmark

end Table

section Loop
variable {prev c d : UInt16} {out : List UInt16}

lemma combine_composition (hprev : 0 < prev) (h : composition prev c = some d) : combine prev out c = some (d, out) := by
  obtain ⟨comp, hcomp, hne, rfl⟩ := composition_eq_some h
  simp only [combine, if_pos hprev, hcomp, bind, Option.bind, if_pos hne, pure]

lemma combine_full (hprev : 0 < prev) (h : Apart prev c) (hfull : ¬ out.length < 384) : combine prev out c = none := by
  simp only [combine, if_pos hprev, show ucs2precompose prev c = some (-1) from h, pushUnit, if_neg hfull, bind, Option.bind,
    ne_eq, not_true_eq_false, if_false]

lemma composeFrom_eq_none {rest : List UInt16} (h : combine prev out c = none) : composeFrom prev out (c :: rest) = none := by
  rw [composeFrom, h]
  rfl

lemma composeFrom_singleton {prev' : UInt16} {out' : List UInt16} (h : combine prev out c = some (prev', out')) :
    composeFrom prev out [c] = if out'.length + 1 < 384 then some (out' ++ [prev']) else none := by
  by_cases hroom : out'.length + 1 < 384
  · rw [if_pos hroom]
    exact composeFrom_last h hroom
  · rw [if_neg hroom, composeFrom, h]
    show (pushUnit out' prev').bind _ = none
    rw [pushUnit]
    split
    case isTrue => exact if_neg (by rw [List.length_append]; exact hroom)
    case isFalse => rfl

lemma composeFrom_fuseFrom {rest : List UInt16} (hprev : 0 < prev) (hpos : ∀ u ∈ c :: rest, 0 < u) (out : List UInt16) :
    composeFrom prev out (c :: rest) =
      if out.length + (fuseFrom composition prev (c :: rest)).length < 384
      then some (out ++ fuseFrom composition prev (c :: rest)) else none := by
  induction rest generalizing prev c out with
  | nil =>
    cases hc : composition prev c with
    | some d =>
      rw [fuseFrom_some hc, composeFrom_singleton (combine_composition hprev hc)]
      rfl
    | none =>
      have hapart := composition_eq_none.mp hc
      rw [fuseFrom_none hc]
      by_cases hroom : out.length < 384
      · rw [composeFrom_singleton (combine_apart hprev hapart hroom), List.length_append, List.append_assoc]
        rfl
      · rw [composeFrom_eq_none (combine_full hprev hapart hroom), if_neg (by omega)]
  | cons e rest ih =>
    have hpos' : ∀ u ∈ e :: rest, 0 < u := fun u hu => hpos u (.tail _ hu)
    cases hc : composition prev c with
    | some d =>
      rw [fuseFrom_some hc, composeFrom_cons (combine_composition hprev hc) (List.cons_ne_nil _ _)]
      exact ih (composition_spec hc).2.2 hpos' out
    | none =>
      have hapart := composition_eq_none.mp hc
      rw [fuseFrom_none hc]
      by_cases hroom : out.length < 384
      · have hlen : (out ++ [prev]).length + (fuseFrom composition c (e :: rest)).length =
            out.length + (prev :: fuseFrom composition c (e :: rest)).length := by
          rw [List.length_append, List.length_singleton, List.length_cons]
          omega
        rw [composeFrom_cons (combine_apart hprev hapart hroom) (List.cons_ne_nil _ _), ih (hpos c (.head _)) hpos', hlen,
          List.append_assoc, List.singleton_append]
      · rw [composeFrom_eq_none (combine_full hprev hapart hroom), if_neg (by omega)]

lemma composeFrom_composed {us : List UInt16} (hpos : ∀ u ∈ us, 0 < u) :
    composeFrom 0 [] us = if (composed us).length < 384 then some (composed us) else none := by
  match us with
  | [] => rfl
  | [c] => rfl
  | c :: d :: rest =>
    have hfirst : combine 0 [] c = some (c, []) := rfl
    have hfuse : composed (c :: d :: rest) = fuseFrom composition c (d :: rest) := rfl
    rw [composeFrom_cons hfirst (List.cons_ne_nil _ _), hfuse,
      composeFrom_fuseFrom (hpos c (.head _)) (fun u hu => hpos u (.tail _ hu)), List.length_nil, Nat.zero_add,
      List.nil_append]

end Loop

section Composed
variable {us : List UInt16}

lemma composed_pos (hpos : ∀ u ∈ us, 0 < u) : ∀ u ∈ composed us, 0 < u :=
  forall_mem_fuse (fun _ _ _ h => (composition_spec h).2.2) hpos

lemma composed_composed (us : List UInt16) : composed (composed us) = composed us := fuse_fuse composition_inert us

lemma inert_a : Inert composition 0x61 := fun q => composition_eq_none.mpr (ucs2precompose_a q)

end Composed

end AfpfsNg.Unicode
