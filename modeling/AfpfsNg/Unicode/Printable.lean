import AfpfsNg.Unicode.Composed

/-!
# How long a converted name is

`convert_utf8dec_to_utf8pre` writes its result without a look at the size of the buffer, so callers rely on it being no
longer than what is converted. `Reads` are the steps of the two loops over a string, which go by the lengths that the first
bytes announce and stop at a terminator.
-/

namespace AfpfsNg.Unicode
open AfpfsNg.Base AfpfsNg.Afp

def writtenLength (us : List UInt16) : Nat := (us.map fun u => (writtenBytes u).length).sum

/-- The loops over a string go through characters with the units `us` and stop. -/
inductive Reads : Bytes → List UInt16 → Prop
  | nil : Reads [] []
  | stop {c : UInt8} {p : Bytes} (hc : mbCharLen c.toNat = 0) : Reads (c :: p) []
  | char {c : UInt8} {t rest : Bytes} {us : List UInt16} (hc : mbCharLen c.toNat = t.length + 1) (h : Reads rest us) :
      Reads (c :: t ++ rest) (storedUnit (t.length + 1) (c :: t ++ rest) :: us)

lemma writtenLength_append (us vs : List UInt16) : writtenLength (us ++ vs) = writtenLength us + writtenLength vs := by
  rw [writtenLength, List.map_append, List.sum_append]
  rfl

lemma length_ucs2toUtf8 (us : List UInt16) : (ucs2toUtf8 us).length ≤ writtenLength us := by
  induction us with
  | nil => exact Nat.le_refl 0
  | cons u us ih =>
    rw [ucs2toUtf8, writtenLength, List.map_cons, List.sum_cons]
    split
    case isTrue =>
      rw [List.length_append]
      exact Nat.add_le_add_left ih _
    case isFalse => exact Nat.zero_le _

lemma writtenBytes_pos (u : UInt16) : 1 ≤ (writtenBytes u).length := by
  rw [writtenBytes]
  split
  · exact Nat.le_refl 1
  · split
    · exact (by decide : 1 ≤ 2)
    · exact (by decide : 1 ≤ 3)

lemma two_le_writtenBytes {u : UInt16} (h : 0x80 ≤ u.toNat) : 2 ≤ (writtenBytes u).length := by
  have hu : ¬ u < 0x0080 := by
    rw [UInt16.lt_iff_toNat_lt, Nat.not_lt]
    exact h
  rw [writtenBytes]
  simp only [if_neg hu]
  split
  · exact Nat.le_refl 2
  · exact (by decide : 2 ≤ 3)

lemma writtenBytes_le_two {n : Nat} (h : n < 0x800) : (writtenBytes (.ofNat n)).length ≤ 2 := by
  have hn : UInt16.ofNat n < 0x0800 := by
    rw [UInt16.lt_iff_toNat_lt, UInt16.toNat_ofNat', Nat.mod_eq_of_lt (Nat.lt_trans h (by decide))]
    exact h
  rw [writtenBytes]
  split
  · exact (by decide : 1 ≤ 2)
  · exact Nat.le_refl 2

lemma writtenBytes_eq_one {n : Nat} (h : n < 0x80) : (writtenBytes (.ofNat n)).length = 1 := by
  have hn : UInt16.ofNat n < 0x0080 := by
    rw [UInt16.lt_iff_toNat_lt, UInt16.toNat_ofNat', Nat.mod_eq_of_lt (Nat.lt_trans h (by decide))]
    exact h
  rw [writtenBytes, if_pos hn]
  rfl

lemma ofNat_pos {n : Nat} (hpos : 0 < n) (hn : n < 65536) : 0 < UInt16.ofNat n := by
  rw [UInt16.lt_iff_toNat_lt, UInt16.toNat_ofNat', Nat.mod_eq_of_lt hn]
  exact hpos

lemma mbCharLen_eq_one : ∀ c < 256, mbCharLen c = 1 → 0 < c ∧ c < 0x80 := by decide +kernel

lemma storedUnit_written {c : UInt8} {clen : Nat} (p : Bytes) (hc : mbCharLen c.toNat = clen) (hpos : 0 < clen) :
    0 < storedUnit clen (c :: p) ∧ (writtenBytes (storedUnit clen (c :: p))).length ≤ clen := by
  match clen, hc with
  | 1, hc =>
    obtain ⟨hlow, hhigh⟩ := mbCharLen_eq_one c.toNat c.toNat_lt hc
    exact ⟨ofNat_pos hlow (Nat.lt_trans hhigh (by decide)), Nat.le_of_eq (writtenBytes_eq_one hhigh)⟩
  | 2, hc =>
    simp only [storedUnit]
    split
    case isTrue h =>
      have hlow : ∀ x : Nat, x &&& 0x3f ≤ 63 := fun x => Nat.and_le_right
      have hhigh : ∀ x : Nat, (x &&& 0x1f) <<< 6 ≤ 1984 := by
        intro x
        rw [Nat.shiftLeft_eq]
        exact Nat.mul_le_mul_right 64 Nat.and_le_right
      have hsum := Nat.add_le_add (hlow ((c :: p).getD 1 0).toNat) (hhigh ((c :: p).getD 0 0).toNat)
      exact ⟨ofNat_pos (by omega) (by omega), writtenBytes_le_two (by omega)⟩
    case isFalse => exact ⟨by decide, by decide⟩
  | 3, hc =>
    refine ⟨?_, writtenBytes_le_three _⟩
    simp only [storedUnit]
    split
    case isTrue h =>
      have hlow : ∀ x : Nat, x &&& 0x3f ≤ 63 := fun x => Nat.and_le_right
      have hmid : ∀ x : Nat, (x &&& 0x3f) <<< 6 ≤ 4032 := by
        intro x
        rw [Nat.shiftLeft_eq]
        exact Nat.mul_le_mul_right 64 Nat.and_le_right
      have hhigh : ∀ x : Nat, (x &&& 0xf) <<< 12 ≤ 61440 := by
        intro x
        rw [Nat.shiftLeft_eq]
        exact Nat.mul_le_mul_right 4096 Nat.and_le_right
      have hsum := Nat.add_le_add (Nat.add_le_add (hlow ((c :: p).getD 2 0).toNat) (hmid ((c :: p).getD 1 0).toNat))
        (hhigh ((c :: p).getD 0 0).toNat)
      exact ofNat_pos (by omega) (by omega)
    case isFalse => decide
  | clen + 4, hc =>
    refine ⟨(by decide : 0 < (126 : UInt16)), ?_⟩
    show (writtenBytes 126).length ≤ clen + 4
    exact Nat.le_trans (by decide : (writtenBytes 126).length ≤ 4) (Nat.le_add_left ..)

section Reads
variable {s : Bytes} {us : List UInt16}

lemma Reads.pos (h : Reads s us) : ∀ u ∈ us, 0 < u := by
  induction h with
  | nil => nofun
  | stop => nofun
  | @char c t rest us hc h ih =>
    intro u hu
    cases hu with
    | head => exact (storedUnit_written _ hc (Nat.succ_pos _)).1
    | tail _ hu => exact ih u hu

lemma Reads.mbStrLen (h : Reads s us) : mbStrLen s = some us.length := by
  rw [Unicode.mbStrLen]
  induction h with
  | nil => rfl
  | stop hc => rw [mbStrLenFrom, hc]; rfl
  | @char c t rest us hc h ih =>
    rw [List.cons_append, mbStrLenFrom, hc]
    show (mbStrLenFrom t.length (t ++ rest)).map (· + 1) = _
    rw [mbStrLenFrom_append, ih]
    rfl

lemma Reads.utf8toUcs2From (h : Reads s us) {room : Nat} (str16 : List UInt16)
    (hroom : str16.length + us.length < room) : utf8toUcs2From room 0 str16 s = some (str16 ++ us) := by
  induction h generalizing str16 with
  | nil =>
    rw [List.append_nil]
    exact if_pos hroom
  | stop hc =>
    have hstr16 : str16.length < room := hroom
    rw [Unicode.utf8toUcs2From, if_pos hstr16, hc, List.append_nil]
  | @char c t rest us hc h ih =>
    rw [List.length_cons] at hroom
    rw [List.cons_append, Unicode.utf8toUcs2From, if_pos (by omega), hc]
    show Unicode.utf8toUcs2From room t.length (str16 ++ [storedUnit (t.length + 1) (c :: t ++ rest)]) (t ++ rest) = _
    rw [utf8toUcs2From_append, ih]
    · rw [List.append_assoc]
      rfl
    · rw [List.length_append, List.length_singleton]
      omega

lemma Reads.utf8toUcs2 (h : Reads s us) : utf8toUcs2 s = some us := by
  rw [Unicode.utf8toUcs2, h.mbStrLen]
  apply h.utf8toUcs2From []
  rw [List.length_nil]
  omega

lemma writtenLength_cons (u : UInt16) (us : List UInt16) :
    writtenLength (u :: us) = (writtenBytes u).length + writtenLength us := by
  rw [writtenLength, List.map_cons, List.sum_cons]
  rfl

lemma Reads.length_le (h : Reads s us) : us.length ≤ s.length ∧ writtenLength us ≤ s.length := by
  induction h with
  | nil => exact ⟨Nat.le_refl 0, Nat.le_refl 0⟩
  | stop => exact ⟨Nat.zero_le _, Nat.zero_le _⟩
  | @char c t rest us hc h ih =>
    have hunit := (storedUnit_written (t ++ rest) hc (Nat.succ_pos _)).2
    rw [writtenLength_cons, List.length_cons, List.length_append, List.length_cons, List.cons_append]
    omega

lemma storedUnit_append (c : UInt8) (t rest : Bytes) :
    storedUnit (t.length + 1) (c :: t ++ rest) = storedUnit (t.length + 1) (c :: t) := by
  match t with
  | [] => rfl
  | [_] => rfl
  | [_, _] => rfl
  | _ :: _ :: _ :: _ => rfl

lemma Reads.append_zero (h : Reads s us) (rest : Bytes) : Reads (s ++ 0 :: rest) us := by
  induction h with
  | nil => exact .stop rfl
  | stop hc => exact .stop hc
  | @char c t s us hc h ih =>
    have hchar := Reads.char (c := c) hc ih
    rw [storedUnit_append] at hchar ⊢
    rwa [List.append_assoc]

end Reads

lemma composition_written (first second c : UInt16) (h : composition first second = some c) :
    (writtenBytes c).length ≤ (writtenBytes first).length + (writtenBytes second).length := by
  have hmark := le_of_isMark (composition_spec h).1
  have h1 := writtenBytes_le_three c
  have h2 := two_le_writtenBytes (Nat.le_trans (by decide) hmark)
  have h3 := writtenBytes_pos first
  omega

lemma writtenLength_composed (us : List UInt16) : writtenLength (composed us) ≤ writtenLength us :=
  sum_fuse_le composition_written us

section Compose
variable {c : UInt16} {out : List UInt16}

/-- What the unit that is kept back will take. -/
def keptLength (prev : UInt16) : Nat := if 0 < prev then (writtenBytes prev).length else 0

lemma keptLength_le (prev : UInt16) : keptLength prev ≤ (writtenBytes prev).length := by
  rw [keptLength]
  split
  case isTrue => exact Nat.le_refl _
  case isFalse => exact Nat.zero_le _

lemma combine_written (prev c : UInt16) (hroom : out.length < 384) :
    ∃ prev' out', combine prev out c = some (prev', out') ∧ out'.length ≤ out.length + 1 ∧
      writtenLength out' + (writtenBytes prev').length ≤
        writtenLength out + keptLength prev + (writtenBytes c).length := by
  by_cases hprev : 0 < prev
  case neg => exact ⟨c, out, if_neg hprev, Nat.le_succ _, by omega⟩
  case pos =>
    have hkept : keptLength prev = (writtenBytes prev).length := if_pos hprev
    cases h : composition prev c with
    | none =>
      refine ⟨c, out ++ [prev], combine_apart hprev (composition_eq_none.mp h) hroom, Nat.le_of_eq List.length_append, ?_⟩
      have hone : writtenLength [prev] = (writtenBytes prev).length := Nat.add_zero _
      rw [writtenLength_append, hone, hkept]
    | some d =>
      refine ⟨d, out, combine_composition hprev h, Nat.le_succ _, ?_⟩
      have hd := composition_written prev c d h
      omega

lemma composeFrom_written {rest : List UInt16} (prev : UInt16) (out : List UInt16) (hpos : ∀ d ∈ c :: rest, 0 < d)
    (hroom : out.length + rest.length + 2 < 384) :
    ∃ res, composeFrom prev out (c :: rest) = some res ∧
      writtenLength res ≤ writtenLength out + keptLength prev + writtenLength (c :: rest) := by
  induction rest generalizing prev c out with
  | nil =>
    rw [List.length_nil] at hroom
    have hout : out.length < 384 := by omega
    obtain ⟨prev', out', hcombine, hlen, hle⟩ := combine_written prev c hout
    refine ⟨_, composeFrom_last hcombine (by omega), ?_⟩
    rw [writtenLength_append]
    exact hle
  | cons d rest ih =>
    rw [List.length_cons] at hroom
    have hout : out.length < 384 := by omega
    obtain ⟨prev', out', hcombine, hlen, hle⟩ := combine_written prev c hout
    obtain ⟨res, hres, hbound⟩ := ih prev' out' (fun e he => hpos e (.tail _ he)) (by omega)
    refine ⟨res, (composeFrom_cons hcombine (List.cons_ne_nil _ _)).trans hres, ?_⟩
    have hkept := keptLength_le prev'
    have hsum : writtenLength (c :: d :: rest) = (writtenBytes c).length + writtenLength (d :: rest) := rfl
    omega

end Compose

lemma Reads.decToPre {s : Bytes} {us : List UInt16} (h : Reads s us) (destLen : Nat) (hlen : us.length < 383)
    (hdest : writtenLength us < destLen) :
    ∃ t, decToPre s destLen = some t ∧ t.length ≤ writtenLength us := by
  have hcompose : ∃ res, composeFrom 0 [] us = some res ∧ writtenLength res ≤ writtenLength us := by
    cases us with
    | nil => exact ⟨[], rfl, Nat.le_refl 0⟩
    | cons c rest =>
      rw [List.length_cons] at hlen
      obtain ⟨res, hres, hle⟩ := composeFrom_written 0 [] h.pos (by rw [List.length_nil]; omega)
      have hnone : writtenLength [] + keptLength 0 + writtenLength (c :: rest) = writtenLength (c :: rest) :=
        Nat.zero_add _
      exact ⟨res, hres, hnone ▸ hle⟩
  obtain ⟨res, hres, hle⟩ := hcompose
  have hbound := Nat.le_trans (length_ucs2toUtf8 res) hle
  refine ⟨ucs2toUtf8 res, ?_, hbound⟩
  have hfits : (ucs2toUtf8 res).length < destLen := Nat.lt_of_le_of_lt hbound hdest
  simp only [Unicode.decToPre, h.utf8toUcs2, hres, bind, Option.bind, if_pos hfits]

lemma mbCharLen_four : ∀ x < 8, mbCharLen (0xf0 + x) = 4 := by decide

lemma mbCharLen_character {c : Bytes} (h : Character c) :
    c = [0] ∨ ∃ d t, c = d :: t ∧ mbCharLen d.toNat = t.length + 1 := by
  cases h with
  | nul => exact .inl rfl
  | sequence h =>
    obtain ⟨n, hn⟩ := h.spells
    exact .inr (mbCharLen_spells hn)
  | @four c d e f hlow hhigh =>
    refine .inr ⟨c, [d, e, f], rfl, ?_⟩
    have hc := mbCharLen_four (c.toNat - 0xf0) (by omega)
    rwa [Nat.add_sub_cancel' hlow] at hc

lemma reads_of_utf8 {s : Bytes} (h : Characters s) : ∃ us, Reads s us := by
  induction h with
  | nil => exact ⟨[], .nil⟩
  | @cons c s hc hs ih =>
    obtain rfl | ⟨d, t, rfl, hd⟩ := mbCharLen_character hc
    · exact ⟨[], .stop rfl⟩
    · obtain ⟨us, hus⟩ := ih
      exact ⟨_, .char hd hus⟩

lemma reads_of_characters {s : Bytes} (h : Characters s) (rest : Bytes) :
    ∃ us, Reads (s ++ 0 :: rest) us ∧ us.length ≤ s.length ∧ writtenLength us ≤ s.length := by
  obtain ⟨us, hus⟩ := reads_of_utf8 h
  exact ⟨us, hus.append_zero rest, hus.length_le⟩

lemma mbCharLen_le_eight : ∀ c < 256, mbCharLen c ≤ 8 := by decide +kernel

lemma reads_zeros (k : Nat) : Reads (List.replicate k 0) [] := by
  cases k with
  | zero => exact .nil
  | succ k => exact .stop rfl

lemma storedUnit_cut (c : UInt8) {p : Bytes} {clen : Nat} (k : Nat) (hcut : p.length + 1 < clen) :
    (writtenBytes (storedUnit clen (c :: (p ++ List.replicate k 0)))).length = 1 := by
  have hzero (i : Nat) (hi : p.length ≤ i) : (c :: (p ++ List.replicate k 0)).getD (i + 1) 0 = 0 := by
    rw [List.getD_cons_succ, List.getD_eq_getElem?_getD, List.getElem?_append_right hi, List.getElem?_replicate]
    split <;> rfl
  match clen, hcut with
  | 2, hcut =>
    simp only [storedUnit, hzero 0 (by omega)]
    rw [if_neg (by rintro ⟨-, h⟩; cases h)]
    rfl
  | 3, hcut =>
    simp only [storedUnit, hzero 1 (by omega)]
    rw [if_neg (by rintro ⟨-, -, h⟩; cases h)]
    rfl
  | clen + 4, hcut => rfl

/-- A character of the string announces more bytes than there are. -/
inductive Cut : Bytes → Prop
  | last {c : UInt8} {p : Bytes} (hc : p.length + 1 < mbCharLen c.toNat) : Cut (c :: p)
  | char {c : UInt8} {t rest : Bytes} (hc : mbCharLen c.toNat = t.length + 1) (h : Cut rest) : Cut (c :: t ++ rest)

lemma reads_or_cut (s : Bytes) : (∃ us, Reads s us) ∨ Cut s := by
  induction hn : s.length using Nat.strong_induction_on generalizing s with
  | _ n ih =>
    subst hn
    cases s with
    | nil => exact .inl ⟨[], .nil⟩
    | cons c p =>
      cases hc : mbCharLen c.toNat with
      | zero => exact .inl ⟨[], .stop hc⟩
      | succ m =>
        by_cases hm : m ≤ p.length
        · have htake : (p.take m).length = m := List.length_take_of_le hm
          have hdrop : (p.drop m).length = p.length - m := List.length_drop
          have hsplit : c :: p = c :: p.take m ++ p.drop m := by rw [List.cons_append, List.take_append_drop]
          have hchar : mbCharLen c.toNat = (p.take m).length + 1 := by rw [hc, htake]
          rw [hsplit]
          rcases ih _ (by rw [List.length_cons]; omega) (p.drop m) rfl with ⟨us, hus⟩ | hcut
          · exact .inl ⟨_, .char hchar hus⟩
          · exact .inr (.char hchar hcut)
        · exact .inr (.last (by omega))

lemma Cut.reads_padded {s : Bytes} (h : Cut s) {k : Nat} (hk : 7 ≤ k) :
    ∃ us, Reads (s ++ List.replicate k 0) us ∧ us.length ≤ s.length ∧ writtenLength us ≤ s.length := by
  induction h with
  | @last c p hc =>
    obtain ⟨m, hm⟩ : ∃ m, mbCharLen c.toNat = m + 1 := ⟨_, (Nat.sub_add_cancel (by omega)).symm⟩
    have height := mbCharLen_le_eight c.toNat c.toNat_lt
    have hlen : (p ++ List.replicate (m - p.length) 0).length = m := by
      rw [List.length_append, List.length_replicate]
      omega
    have hsplit : c :: p ++ List.replicate k 0 =
        c :: (p ++ List.replicate (m - p.length) 0) ++ List.replicate (k - (m - p.length)) 0 := by
      rw [List.cons_append, List.cons_append, List.append_assoc, List.replicate_append_replicate]
      congr 3
      omega
    have hchar := Reads.char (c := c) (t := p ++ List.replicate (m - p.length) 0)
      (hm.trans (by rw [hlen])) (reads_zeros (k - (m - p.length)))
    have hunit := storedUnit_cut c k (by omega : p.length + 1 < m + 1)
    rw [← hsplit, hlen] at hchar
    refine ⟨_, hchar, Nat.le_add_left 1 _, ?_⟩
    rw [writtenLength_cons, List.cons_append, hunit]
    exact Nat.le_add_left 1 _
  | @char c t rest hc h ih =>
    obtain ⟨us, hus, hlen, hwritten⟩ := ih
    have hunit := (storedUnit_written (t ++ (rest ++ List.replicate k 0)) hc (Nat.succ_pos _)).2
    rw [List.append_assoc]
    refine ⟨_, .char hc hus, ?_, ?_⟩
    · rw [List.length_cons, List.length_append, List.length_cons]
      omega
    · rw [writtenLength_cons, List.length_append]
      exact Nat.add_le_add hunit hwritten

lemma reads_of_zeros (s : Bytes) {k : Nat} (hk : 7 ≤ k) :
    ∃ us, Reads (s ++ List.replicate k 0) us ∧ us.length ≤ s.length ∧ writtenLength us ≤ s.length := by
  rcases reads_or_cut s with ⟨us, hus⟩ | hcut
  · obtain ⟨m, rfl⟩ := Nat.exists_eq_add_of_le' hk
    exact ⟨us, hus.append_zero _, hus.length_le⟩
  · exact hcut.reads_padded hk

end AfpfsNg.Unicode
