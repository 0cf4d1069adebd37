import AfpfsNg.Unicode.Precompose
import AfpfsNg.Afp.Spelling

/-!
# Decomposed and precomposed names

The conversions of `lib/codepage.c`. `convert_utf8pre_to_utf8dec` works on bytes and knows one character,
`ä`, that is decomposed. `convert_utf8dec_to_utf8pre` works on 16-bit units: it keeps one back, and combines it with the
next one for as long as the table has an entry for the two. It writes into an array of 384 units and into the caller's
buffer without a look at their sizes; a write behind the end has no result in the model.
-/

namespace AfpfsNg.Unicode
open AfpfsNg.Base AfpfsNg.Afp

/-- The loop of `convert_utf8pre_to_utf8dec` into a buffer of `destLen` bytes, of which `dest` are written. -/
def preToDecFrom (destLen : Nat) : Bytes → Bytes → Option Bytes
  | dest, 0xc3 :: 0xa4 :: src =>
    if dest.length < destLen then
      if dest.length + 3 ≤ destLen then preToDecFrom destLen (dest ++ [0x61, 0xcc, 0x88]) src else none
    else some dest
  | dest, x :: src => if dest.length < destLen then preToDecFrom destLen (dest ++ [x]) src else some dest
  | dest, [] => some dest

/-- C `convert_utf8pre_to_utf8dec`: what it writes, which the caller's zeros follow. -/
def preToDec (src : Bytes) (destLen : Nat) : Option Bytes := preToDecFrom destLen [] src

def pushUnit (path16pre : List UInt16) (c : UInt16) : Option (List UInt16) :=
  if path16pre.length < 384 then some (path16pre ++ [c]) else none

/-- What the loop of `convert_utf8dec_to_utf8pre` does with the unit `c`: the unit it keeps back, and `path16pre`. -/
def combine (prev : UInt16) (path16pre : List UInt16) (c : UInt16) : Option (UInt16 × List UInt16) :=
  if 0 < prev then do
    let comp ← ucs2precompose prev c
    if comp ≠ -1 then return (.ofInt comp, path16pre)
    else return (c, ← pushUnit path16pre prev)
  else some (c, path16pre)

def composeFrom (prev : UInt16) (path16pre : List UInt16) : List UInt16 → Option (List UInt16)
  | [] => if path16pre.length < 384 then some path16pre else none
  | c :: path16dec => do
    let (prev, path16pre) ← combine prev path16pre c
    let path16pre ← if path16dec = [] then pushUnit path16pre prev else some path16pre
    composeFrom prev path16pre path16dec

/-- C `convert_utf8dec_to_utf8pre`, into a buffer of `destLen` bytes. -/
def decToPre (src : Bytes) (destLen : Nat) : Option Bytes := do
  let path16dec ← utf8toUcs2 src
  let path16pre ← composeFrom 0 [] path16dec
  let pathUtf8pre := ucs2toUtf8 path16pre
  if pathUtf8pre.length < destLen then some pathUtf8pre else none

lemma preToDecFrom_eq {destLen : Nat} (src dest : Bytes)
    (hroom : dest.length + (convertUtf8preToUtf8dec src).length < destLen) :
    preToDecFrom destLen dest src = some (dest ++ convertUtf8preToUtf8dec src) := by
  induction src using convertUtf8preToUtf8dec.induct generalizing dest with
  | case1 src ih =>
    rw [convertUtf8preToUtf8dec] at hroom ⊢
    simp only [List.length_cons] at hroom
    rw [preToDecFrom, if_pos (by omega), if_pos (by omega), ih]
    · rw [List.append_assoc]
      rfl
    · simp only [List.length_append, List.length_cons, List.length_nil]
      omega
  | case2 x src hx ih =>
    rw [convertUtf8preToUtf8dec] at hroom ⊢
    · rw [List.length_cons] at hroom
      rw [preToDecFrom, if_pos (by omega), ih]
      · rw [List.append_assoc]
        rfl
      · rw [List.length_append, List.length_singleton]
        omega
      · exact hx
    · exact hx
    · exact hx
  | case3 => rw [preToDecFrom, convertUtf8preToUtf8dec, List.append_nil]

def decomposed (n : Nat) : List Nat := if n = 0xe4 then [0x61, 0x308] else [n]

lemma convert_cons_ne {x : UInt8} (src : Bytes) (hx : x.toNat ≠ 0xc3) :
    convertUtf8preToUtf8dec (x :: src) = x :: convertUtf8preToUtf8dec src := by
  apply convert_cons
  rintro _ rfl
  exact absurd rfl hx

lemma convert_spells {n : Nat} {c : Bytes} (h : Spells n c) (rest : Bytes) :
    ∃ d, Spelled (decomposed n) d ∧ convertUtf8preToUtf8dec (c ++ rest) = d ++ convertUtf8preToUtf8dec rest := by
  by_cases hn : n = 0xe4
  · subst hn
    have hc : c = [0xc3, 0xa4] := h.unique (.two (by decide) (by decide))
    subst hc
    refine ⟨[0x61, 0xcc, 0x88], ?_, rfl⟩
    exact .cons (c := [0x61]) (.one (by decide) (by decide)) (.cons (.two (by decide) (by decide)) .nil)
  · have hd : decomposed n = [n] := if_neg hn
    refine ⟨c, ?_, ?_⟩
    · rw [hd, ← List.append_nil c]
      exact .cons h .nil
    · cases h with
      | one hpos hlt =>
        apply convert_cons_ne
        rw [toNat_ofNat_of_lt (by omega)]
        omega
      | two hlow hhigh =>
        have hfirst : (UInt8.ofNat (0xc0 + n / 64)).toNat = 0xc0 + n / 64 := toNat_ofNat_of_lt (by omega)
        have hsecond : (UInt8.ofNat (0x80 + n % 64)).toNat = 0x80 + n % 64 := toNat_ofNat_of_lt (by omega)
        show convertUtf8preToUtf8dec (_ :: _ :: rest) = _ :: _ :: convertUtf8preToUtf8dec rest
        rw [convert_cons, convert_cons_ne]
        · rw [hsecond]
          omega
        · intro src hc3 heq
          have h1 := congrArg UInt8.toNat hc3
          have h2 := congrArg UInt8.toNat (List.cons.inj heq).1
          rw [hfirst] at h1
          rw [hsecond] at h2
          change 0xc0 + n / 64 = 0xc3 at h1
          change 0x80 + n % 64 = 0xa4 at h2
          omega
      | three hlow hhigh =>
        show convertUtf8preToUtf8dec (_ :: _ :: _ :: rest) = _ :: _ :: _ :: convertUtf8preToUtf8dec rest
        rw [convert_cons_ne, convert_cons_ne, convert_cons_ne]
        · rw [toNat_ofNat_of_lt (by omega)]
          omega
        · rw [toNat_ofNat_of_lt (by omega)]
          omega
        · rw [toNat_ofNat_of_lt (by omega)]
          omega

lemma convert_spelled {ns : List Nat} {s : Bytes} (h : Spelled ns s) :
    Spelled (ns.flatMap decomposed) (convertUtf8preToUtf8dec s) := by
  induction h with
  | nil => exact .nil
  | cons hc _ ih =>
    obtain ⟨d, hd, heq⟩ := convert_spells hc _
    rw [heq]
    exact hd.append ih

/-- The table has no entry for the two. -/
def Apart (first second : UInt16) : Prop := ucs2precompose first second = some (-1)

variable {prev c prev' : UInt16} {out out' rest us : List UInt16}

lemma combine_apart (hprev : 0 < prev) (h : Apart prev c) (hroom : out.length < 384) :
    combine prev out c = some (c, out ++ [prev]) := by
  rw [combine, if_pos hprev, show ucs2precompose prev c = some (-1) from h, pushUnit, if_pos hroom]
  rfl

lemma combine_cases (h : combine prev out c = some (prev', out')) :
    (prev' = c ∧ out' = out ++ [prev] ∧ (0 < prev → Apart prev c)) ∨ out' = out := by
  rw [combine] at h
  split at h
  · obtain ⟨comp, hcomp, h⟩ := Option.bind_eq_some_iff.mp h
    split at h
    · cases h
      exact .inr rfl
    · rename_i hnot
      obtain ⟨out'', hpush, h⟩ := Option.bind_eq_some_iff.mp h
      cases h
      rw [pushUnit] at hpush
      split at hpush
      · cases hpush
        rw [not_not.mp hnot] at hcomp
        exact .inl ⟨rfl, rfl, fun _ => hcomp⟩
      · cases hpush
  · cases h
    exact .inr rfl

lemma composeFrom_cons (h : combine prev out c = some (prev', out')) (hrest : rest ≠ []) :
    composeFrom prev out (c :: rest) = composeFrom prev' out' rest := by
  rw [composeFrom, h]
  exact if_neg hrest

lemma composeFrom_last (h : combine prev out c = some (prev', out')) (hroom : out'.length + 1 < 384) :
    composeFrom prev out [c] = some (out' ++ [prev']) := by
  have hpush : pushUnit out' prev' = some (out' ++ [prev']) := if_pos (by omega)
  have hend : (out' ++ [prev']).length < 384 := by
    rw [List.length_append]
    exact hroom
  rw [composeFrom, h]
  show (pushUnit out' prev').bind _ = _
  rw [hpush]
  exact if_pos hend

lemma composeFrom_length {res : List UInt16} (hpos : ∀ d ∈ c :: rest, 0 < d)
    (h : composeFrom prev out (c :: rest) = some res) :
    res.length ≤ out.length + rest.length + 2 ∧
      (0 < prev → res.length = out.length + rest.length + 2 → List.IsChain Apart (prev :: c :: rest)) := by
  induction rest generalizing prev c out with
  | nil =>
    obtain ⟨⟨prev', out'⟩, hcombine, h⟩ := Option.bind_eq_some_iff.mp h
    obtain ⟨out'', hpush, h⟩ := Option.bind_eq_some_iff.mp h
    have hres : res = out' ++ [prev'] := by
      change pushUnit out' prev' = some out'' at hpush
      rw [pushUnit] at hpush
      change (if out''.length < 384 then some out'' else none) = some res at h
      split at hpush
      · cases hpush
        split at h
        · cases h
          rfl
        · cases h
      · cases hpush
    rw [hres, List.length_append, List.length_singleton, List.length_nil]
    rcases combine_cases hcombine with ⟨-, rfl, hapart⟩ | rfl
    · rw [List.length_append, List.length_singleton]
      refine ⟨Nat.le_refl _, fun hprev _ => ?_⟩
      exact .cons_cons (hapart hprev) (.singleton c)
    · exact ⟨by omega, by omega⟩
  | cons d rest ih =>
    obtain ⟨⟨prev', out'⟩, hcombine, -⟩ := Option.bind_eq_some_iff.mp h
    rw [composeFrom_cons hcombine (List.cons_ne_nil _ _)] at h
    obtain ⟨hle, hchain⟩ := ih (fun e he => hpos e (.tail _ he)) h
    rw [List.length_cons]
    rcases combine_cases hcombine with ⟨rfl, rfl, hapart⟩ | rfl
    · rw [List.length_append, List.length_singleton] at hle hchain
      refine ⟨by omega, fun hprev hlen => ?_⟩
      exact .cons_cons (hapart hprev) (hchain (hpos _ (.head _)) (by omega))
    · exact ⟨by omega, by omega⟩

lemma apart_of_length {res : List UInt16} (hpos : ∀ d ∈ us, 0 < d) (h : composeFrom 0 [] us = some res)
    (hlen : us.length ≤ res.length) : List.IsChain Apart us := by
  cases us with
  | nil => exact .nil
  | cons c rest =>
    cases rest with
    | nil => exact .singleton c
    | cons d rest =>
      have hfirst : combine 0 [] c = some (c, []) := rfl
      rw [composeFrom_cons hfirst (List.cons_ne_nil _ _)] at h
      obtain ⟨hle, hchain⟩ := composeFrom_length (fun e he => hpos e (.tail _ he)) h
      rw [List.length_nil] at hle hchain
      rw [List.length_cons, List.length_cons] at hlen
      exact hchain (hpos c (.head _)) (by omega)

def decomposedUnit (c : UInt16) : List UInt16 := if c = 0xe4 then [0x61, 0x308] else [c]

lemma apart_a (prev : UInt16) : Apart prev 0x61 := ucs2precompose_a prev

lemma combine_diaeresis (out : List UInt16) : combine 0x61 out 0x308 = some (0xe4, out) := by
  rw [combine, if_pos (by decide), ucs2precompose_a_diaeresis]
  rfl

lemma composeFrom_unit (hprev : 0 < prev) (h : Apart prev c) (hroom : out.length < 384) (hrest : rest ≠ []) :
    composeFrom prev out (decomposedUnit c ++ rest) = composeFrom c (out ++ [prev]) rest := by
  rw [decomposedUnit]
  split
  case isTrue hc =>
    subst hc
    show composeFrom prev out (0x61 :: 0x308 :: rest) = _
    rw [composeFrom_cons (combine_apart hprev (apart_a prev) hroom) (List.cons_ne_nil _ _),
      composeFrom_cons (combine_diaeresis _) hrest]
  case isFalse => exact composeFrom_cons (combine_apart hprev h hroom) hrest

lemma composeFrom_unit_last (hprev : 0 < prev) (h : Apart prev c) (hroom : out.length + 2 < 384) :
    composeFrom prev out (decomposedUnit c) = some (out ++ [prev, c]) := by
  have hout : out ++ [prev, c] = out ++ [prev] ++ [c] := List.append_cons ..
  have hlen : (out ++ [prev]).length + 1 < 384 := by
    rw [List.length_append]
    exact hroom
  rw [hout, decomposedUnit]
  split
  case isTrue hc =>
    subst hc
    rw [composeFrom_cons (combine_apart hprev (apart_a prev) (by omega)) (List.cons_ne_nil _ _),
      composeFrom_last (combine_diaeresis _) hlen]
  case isFalse => exact composeFrom_last (combine_apart hprev h (by omega)) hlen

lemma flatMap_decomposedUnit_ne_nil (c : UInt16) (rest : List UInt16) : (c :: rest).flatMap decomposedUnit ≠ [] := by
  rw [List.flatMap_cons, decomposedUnit]
  split
  · exact List.cons_ne_nil _ _
  · exact List.cons_ne_nil _ _

lemma composeFrom_decomposed (hprev : 0 < prev) (hpos : ∀ d ∈ c :: rest, 0 < d)
    (hchain : List.IsChain Apart (prev :: c :: rest)) (hroom : out.length + rest.length + 2 < 384) :
    composeFrom prev out ((c :: rest).flatMap decomposedUnit) = some (out ++ prev :: c :: rest) := by
  induction rest generalizing prev c out with
  | nil =>
    rw [List.flatMap_singleton]
    exact composeFrom_unit_last hprev (List.isChain_cons_cons.mp hchain).1 hroom
  | cons d rest ih =>
    obtain ⟨hapart, hchain⟩ := List.isChain_cons_cons.mp hchain
    rw [List.length_cons] at hroom
    rw [List.flatMap_cons, composeFrom_unit hprev hapart (by omega) (flatMap_decomposedUnit_ne_nil d rest),
      ih (hpos c (.head _)) (fun e he => hpos e (.tail _ he)) hchain]
    · rw [List.append_assoc]
      rfl
    · rw [List.length_append, List.length_singleton]
      omega

lemma composeFrom_first (c : UInt16) (hrest : rest ≠ []) :
    composeFrom 0 [] (decomposedUnit c ++ rest) = composeFrom c [] rest := by
  have hfirst : ∀ d, combine 0 [] d = some (d, []) := fun _ => rfl
  rw [decomposedUnit]
  split
  case isTrue hc =>
    subst hc
    show composeFrom 0 [] (0x61 :: 0x308 :: rest) = _
    rw [composeFrom_cons (hfirst _) (List.cons_ne_nil _ _), composeFrom_cons (combine_diaeresis _) hrest]
  case isFalse => exact composeFrom_cons (hfirst c) hrest

lemma compose_decomposed (hpos : ∀ d ∈ us, 0 < d) (hchain : List.IsChain Apart us) (hroom : us.length < 384) :
    composeFrom 0 [] (us.flatMap decomposedUnit) = some us := by
  cases us with
  | nil => rfl
  | cons c rest =>
    cases rest with
    | nil =>
      rw [List.flatMap_singleton, decomposedUnit]
      split
      case isTrue hc =>
        subst hc
        have hfirst : combine 0 [] 0x61 = some (0x61, []) := rfl
        rw [composeFrom_cons hfirst (List.cons_ne_nil _ _), composeFrom_last (combine_diaeresis _) (by decide)]
        rfl
      case isFalse => rfl
    | cons d rest =>
      rw [List.length_cons, List.length_cons] at hroom
      rw [List.flatMap_cons, composeFrom_first c (flatMap_decomposedUnit_ne_nil d rest),
        composeFrom_decomposed (hpos c (.head _)) (fun e he => hpos e (.tail _ he)) hchain]
      · rfl
      · rw [List.length_nil]
        omega

lemma map_decomposed {ns : List Nat} (h : ∀ n ∈ ns, 0 < n ∧ n < 0x10000) :
    (ns.flatMap decomposed).map UInt16.ofNat = (ns.map UInt16.ofNat).flatMap decomposedUnit := by
  induction ns with
  | nil => rfl
  | cons n ns ih =>
    have hn : (decomposed n).map UInt16.ofNat = decomposedUnit (.ofNat n) := by
      rw [decomposed, decomposedUnit]
      by_cases hn : n = 0xe4
      · subst hn
        rfl
      · have hne : UInt16.ofNat n ≠ 0xe4 := by
          intro heq
          have hval := congrArg UInt16.toNat heq
          rw [UInt16.toNat_ofNat', Nat.mod_eq_of_lt (h n (.head _)).2] at hval
          exact hn hval
        rw [if_neg hn, if_neg hne]
        rfl
    rw [List.flatMap_cons, List.map_append, hn, ih fun m hm => h m (.tail _ hm)]
    rfl

lemma ucs2toUtf8_takeWhile (us : List UInt16) : ucs2toUtf8 us = ucs2toUtf8 (us.takeWhile (0 < ·)) := by
  induction us with
  | nil => rfl
  | cons c us ih =>
    rw [List.takeWhile_cons, ucs2toUtf8]
    by_cases hc : 0 < c
    · rw [if_pos hc, if_pos (decide_eq_true hc), ucs2toUtf8, if_pos hc, ← ih]
    · rw [if_neg hc, if_neg (fun h => hc (of_decide_eq_true h))]
      rfl

lemma apart_of_unchanged {s : Bytes} {destLen : Nat} (hus : utf8toUcs2 s = some us) (hpos : ∀ c ∈ us, 0 < c)
    (h : decToPre s destLen = some s) : List.IsChain Apart us ∧ s.length < destLen := by
  rw [decToPre, hus] at h
  change (composeFrom 0 [] us).bind _ = _ at h
  obtain ⟨res, hres, h⟩ := Option.bind_eq_some_iff.mp h
  change (if (ucs2toUtf8 res).length < destLen then some (ucs2toUtf8 res) else none) = some s at h
  split at h
  case isTrue hfits =>
    have hs : ucs2toUtf8 res = s := Option.some.inj h
    rw [hs] at hfits
    refine ⟨apart_of_length hpos hres ?_, hfits⟩
    -- the units of the result, up to a terminator, are those of the string
    have hback : utf8toUcs2 (ucs2toUtf8 (res.takeWhile (0 < ·))) = some (res.takeWhile (0 < ·)) :=
      utf8toUcs2_ucs2toUtf8 fun c hc => of_decide_eq_true (List.all_eq_true.mp List.all_takeWhile c hc)
    rw [← ucs2toUtf8_takeWhile, hs, hus] at hback
    rw [Option.some.inj hback]
    exact (List.takeWhile_prefix _).length_le
  case isFalse => cases h

/-- A name of up to 383 characters that `convert_utf8dec_to_utf8pre` leaves alone comes back from
`convert_utf8pre_to_utf8dec`, if there is room for the decomposed form and a terminator. -/
theorem precomposed_survives (s : Bytes) (destLen n : Nat) (hs : Sequences s) (hn : mbStrLen s = some n)
    (hmax : n ≤ 383) (hroom : (convertUtf8preToUtf8dec s).length < destLen) (hpre : decToPre s destLen = some s) :
    ∃ d, preToDec s destLen = some d ∧ d.length < destLen ∧ decToPre d destLen = some s := by
  obtain ⟨ns, hns⟩ := exists_spelled hs
  have hus : utf8toUcs2 s = some (ns.map .ofNat) := utf8toUcs2_spelled hns
  have hpos : ∀ c ∈ ns.map UInt16.ofNat, 0 < c := pos_of_spelled hns
  have hlen : (ns.map UInt16.ofNat).length < 384 := by
    rw [mbStrLen_spelled hns] at hn
    cases hn
    rw [List.length_map]
    omega
  obtain ⟨hchain, hfits⟩ := apart_of_unchanged hus hpos hpre
  refine ⟨convertUtf8preToUtf8dec s, ?_, hroom, ?_⟩
  · rw [preToDec, preToDecFrom_eq s [] (by rw [List.length_nil]; omega)]
    rfl
  · have hdec : utf8toUcs2 (convertUtf8preToUtf8dec s) = some ((ns.map .ofNat).flatMap decomposedUnit) := by
      rw [utf8toUcs2_spelled (convert_spelled hns), map_decomposed hns.bounds]
    rw [decToPre, hdec]
    show (composeFrom 0 [] _).bind _ = _
    rw [compose_decomposed hpos hchain hlen]
    show (if (ucs2toUtf8 (ns.map .ofNat)).length < destLen then some (ucs2toUtf8 (ns.map .ofNat)) else none) = some s
    rw [ucs2toUtf8_of_spelled hns]
    exact if_pos hfits

theorem precomposed_survives_diaeresis :
    ∃ d, preToDec [0xc3, 0xa4] 10 = some d ∧ d.length < 10 ∧ decToPre d 10 = some [0xc3, 0xa4] :=
  precomposed_survives [0xc3, 0xa4] 10 1 (.cons (.two (by decide) (by decide) ⟨by decide, by decide⟩) .nil)
    (by decide) (by decide) (by decide) (by decide)

end AfpfsNg.Unicode
