import AfpfsNg.Unicode.Conversions

/-!
# Where the decoding stops

The loops of `mbStrLen` and `UTF8toUCS2` (`lib/unicode.c`) once more, with the place that `p` has reached in the end. The
first byte of a character alone says how far `p` moves: a byte that no character starts with stops the loops, and a
character that is cut short takes `p` behind the terminator. A string is `Tiled` if each of its characters is as long as its
first byte says and the next one starts behind it.
-/

namespace AfpfsNg.Unicode
open AfpfsNg.Base

/-- The loop of `mbStrLen`: `len`, and how far `p` has moved. -/
def mbStrLenStop : Nat → Bytes → Option (Nat × Nat)
  | 0, [] => some (0, 0)
  | _ + 1, [] => none
  | skip + 1, _ :: p => (mbStrLenStop skip p).map fun r => (r.1, r.2 + 1)
  | 0, c :: p =>
    match mbCharLen c.toNat with
    | 0 => some (0, 0)
    | clen + 1 => (mbStrLenStop clen p).map fun r => (r.1 + 1, r.2 + 1)

/-- The loop of `UTF8toUCS2`: the units, and how far `p` has moved. -/
def utf8toUcs2Stop (room : Nat) : Nat → List UInt16 → Bytes → Option (List UInt16 × Nat)
  | 0, str16, [] => if str16.length < room then some (str16, 0) else none
  | _ + 1, _, [] => none
  | skip + 1, str16, _ :: p => (utf8toUcs2Stop room skip str16 p).map fun r => (r.1, r.2 + 1)
  | 0, str16, c :: p =>
    if str16.length < room then
      match mbCharLen c.toNat with
      | 0 => some (str16, 0)
      | clen + 1 =>
        (utf8toUcs2Stop room clen (str16 ++ [storedUnit (clen + 1) (c :: p)]) p).map fun r => (r.1, r.2 + 1)
    else none

/-- Both loops stop at the terminator, and they have seen the same number of characters. -/
def DecodesWhole (s : Bytes) (n : Nat) : Prop :=
  mbStrLenStop 0 s = some (n, s.length) ∧ ∃ us, utf8toUcs2Stop (n + 1) 0 [] s = some (us, s.length) ∧ us.length = n

/-- So many characters, each of them as long as its first byte says. -/
inductive Tiled : Bytes → Nat → Prop
  | nil : Tiled [] 0
  | cons {c : UInt8} {t rest : Bytes} {n : Nat} (hc : mbCharLen c.toNat = t.length + 1) (h : Tiled rest n) :
      Tiled (c :: t ++ rest) (n + 1)

/-- So many characters of UTF-8 and bytes that start none. -/
inductive Counts : Bytes → Nat → Prop
  | nil : Counts [] 0
  | char {c rest : Bytes} {n : Nat} (hc : Character c) (h : Counts rest n) : Counts (c ++ rest) (n + 1)
  | illegal {b : UInt8} {rest : Bytes} {n : Nat} (hb : ∀ c, Character c → ¬ c <+: b :: rest) (h : Counts rest n) :
      Counts (b :: rest) (n + 1)

lemma mbStrLenStop_len (skip : Nat) (p : Bytes) : (mbStrLenStop skip p).map Prod.fst = mbStrLenFrom skip p := by
  induction p generalizing skip with
  | nil =>
    cases skip with
    | zero => rfl
    | succ skip => rfl
  | cons c p ih =>
    cases skip with
    | zero =>
      rw [mbStrLenStop, mbStrLenFrom]
      cases mbCharLen c.toNat with
      | zero => rfl
      | succ clen =>
        show ((mbStrLenStop clen p).map _).map Prod.fst = (mbStrLenFrom clen p).map (· + 1)
        rw [← ih, Option.map_map, Option.map_map]
        rfl
    | succ skip =>
      rw [mbStrLenStop, mbStrLenFrom, ← ih, Option.map_map]
      rfl

lemma utf8toUcs2Stop_units (room skip : Nat) (str16 : List UInt16) (p : Bytes) :
    (utf8toUcs2Stop room skip str16 p).map Prod.fst = utf8toUcs2From room skip str16 p := by
  induction p generalizing skip str16 with
  | nil =>
    cases skip with
    | zero =>
      rw [utf8toUcs2Stop, utf8toUcs2From]
      split <;> rfl
    | succ skip => rfl
  | cons c p ih =>
    cases skip with
    | zero =>
      rw [utf8toUcs2Stop, utf8toUcs2From]
      split
      case isTrue =>
        cases mbCharLen c.toNat with
        | zero => rfl
        | succ clen =>
          show ((utf8toUcs2Stop room clen _ p).map _).map Prod.fst = utf8toUcs2From room clen _ p
          rw [← ih, Option.map_map]
          rfl
      case isFalse => rfl
    | succ skip =>
      rw [utf8toUcs2Stop, utf8toUcs2From, ← ih, Option.map_map]
      rfl

lemma DecodesWhole.results {s : Bytes} {n : Nat} (h : DecodesWhole s n) :
    mbStrLen s = some n ∧ ∃ us, utf8toUcs2 s = some us ∧ us.length = n := by
  obtain ⟨hlen, us, hunits, hn⟩ := h
  have hmb : mbStrLen s = some n := by
    rw [mbStrLen, ← mbStrLenStop_len, hlen]
    rfl
  refine ⟨hmb, us, ?_, hn⟩
  rw [utf8toUcs2, hmb]
  show utf8toUcs2From (n + 1) 0 [] s = some us
  rw [← utf8toUcs2Stop_units, hunits]
  rfl

lemma mbStrLenStop_append (t rest : Bytes) :
    mbStrLenStop t.length (t ++ rest) = (mbStrLenStop 0 rest).map fun r => (r.1, r.2 + t.length) := by
  induction t with
  | nil => exact Option.map_id'.symm
  | cons c t ih =>
    show (mbStrLenStop t.length (t ++ rest)).map _ = _
    rw [ih, Option.map_map]
    rfl

lemma utf8toUcs2Stop_append (room : Nat) (str16 : List UInt16) (t rest : Bytes) :
    utf8toUcs2Stop room t.length str16 (t ++ rest) =
      (utf8toUcs2Stop room 0 str16 rest).map fun r => (r.1, r.2 + t.length) := by
  induction t with
  | nil => exact Option.map_id'.symm
  | cons c t ih =>
    show (utf8toUcs2Stop room t.length str16 (t ++ rest)).map _ = _
    rw [ih, Option.map_map]
    rfl

section Stops
variable {s t rest : Bytes} {us : List UInt16} {c : UInt8} {i n m : Nat}

lemma mbStrLenStop_char (hc : mbCharLen c.toNat = t.length + 1) (h : mbStrLenStop 0 rest = some (n, i)) :
    mbStrLenStop 0 (c :: t ++ rest) = some (n + 1, i + t.length + 1) := by
  rw [List.cons_append, mbStrLenStop, hc]
  show (mbStrLenStop t.length (t ++ rest)).map _ = _
  rw [mbStrLenStop_append, h]
  rfl

lemma utf8toUcs2Stop_char {room : Nat} {str16 : List UInt16} (hc : mbCharLen c.toNat = t.length + 1)
    (hroom : str16.length < room)
    (h : utf8toUcs2Stop room 0 (str16 ++ [storedUnit (t.length + 1) (c :: t ++ rest)]) rest = some (us, i)) :
    utf8toUcs2Stop room 0 str16 (c :: t ++ rest) = some (us, i + t.length + 1) := by
  rw [List.cons_append, utf8toUcs2Stop, if_pos hroom, hc]
  show (utf8toUcs2Stop room t.length (str16 ++ [storedUnit (t.length + 1) (c :: t ++ rest)]) (t ++ rest)).map _ = _
  rw [utf8toUcs2Stop_append, h]
  rfl

lemma Reads.stops (h : Reads s us) : ∃ i ≤ s.length, mbStrLenStop 0 s = some (us.length, i) ∧
    ∀ room str16, str16.length + us.length < room → utf8toUcs2Stop room 0 str16 s = some (str16 ++ us, i) := by
  induction h with
  | nil =>
    refine ⟨0, Nat.le_refl 0, rfl, fun room str16 hroom => ?_⟩
    rw [List.append_nil]
    exact if_pos hroom
  | @stop c p hc =>
    refine ⟨0, Nat.zero_le _, by rw [mbStrLenStop, hc]; rfl, fun room str16 hroom => ?_⟩
    have hstr16 : str16.length < room := hroom
    rw [utf8toUcs2Stop, if_pos hstr16, hc, List.append_nil]
  | @char c t rest us hc h ih =>
    obtain ⟨i, hi, hlen, hunits⟩ := ih
    refine ⟨i + t.length + 1, ?_, mbStrLenStop_char hc hlen, fun room str16 hroom => ?_⟩
    · rw [List.length_append, List.length_cons]
      omega
    · rw [List.length_cons] at hroom
      apply utf8toUcs2Stop_char hc (by omega)
      rw [hunits _ _ (by rw [List.length_append, List.length_singleton]; omega), List.append_assoc]
      rfl

lemma Tiled.decodesWhole (h : Tiled s n) : DecodesWhole s n := by
  have hreads : ∃ us, Reads s us ∧ us.length = n ∧ mbStrLenStop 0 s = some (n, s.length) := by
    induction h with
    | nil => exact ⟨[], .nil, rfl, rfl⟩
    | @cons c t rest n hc h ih =>
      obtain ⟨us, hus, hlen, hstop⟩ := ih
      refine ⟨_, .char hc hus, by rw [List.length_cons, hlen], ?_⟩
      rw [mbStrLenStop_char hc hstop, List.length_append, List.length_cons]
      congr 2
      omega
  obtain ⟨us, hus, rfl, hstop⟩ := hreads
  obtain ⟨i, -, hlen, hunits⟩ := hus.stops
  cases hstop.symm.trans hlen
  exact ⟨hlen, us, hunits _ [] (by rw [List.length_nil]; omega), rfl⟩

lemma tiled_of_stop (h : mbStrLenStop 0 s = some (n, s.length)) : Tiled s n := by
  have hmb : mbStrLen s ≠ none := by
    rw [mbStrLen, ← mbStrLenStop_len, h]
    exact Option.some_ne_none n
  obtain ⟨us, hus⟩ := reads_of_mbStrLen hmb
  induction hus generalizing n with
  | nil =>
    cases h
    exact .nil
  | @stop c p hc =>
    rw [mbStrLenStop, hc] at h
    cases h
  | @char c t rest us hc hus ih =>
    obtain ⟨i, -, hlen, -⟩ := hus.stops
    rw [mbStrLenStop_char hc hlen] at h
    obtain ⟨rfl, hi⟩ := Prod.mk.inj (Option.some.inj h)
    rw [List.length_append, List.length_cons] at hi
    obtain rfl : i = rest.length := by omega
    exact .cons hc (ih hlen (by rw [mbStrLen, ← mbStrLenStop_len, hlen]; exact Option.some_ne_none _))

end Stops

section Counting
variable {s t rest : Bytes} {n m : Nat}

lemma mbCharLen_tail : ∀ c < 256, 0x80 ≤ c → c ≤ 0xbf → mbCharLen c = 0 := by decide +kernel

/-- The string does not start inside a character. -/
def StartsAnew (s : Bytes) : Prop := ∀ x ∈ s.head?, ¬ Tail x

lemma Tiled.startsAnew (h : Tiled s n) : StartsAnew s := by
  cases h with
  | nil => nofun
  | @cons c t rest n hc h =>
    rintro x hx htail
    obtain rfl : c = x := Option.some.inj hx
    rw [mbCharLen_tail c.toNat c.toNat_lt htail.1 htail.2] at hc
    cases hc

lemma Counts.split (h : Counts s m) (hs : s = t ++ rest) (hrest : StartsAnew rest) :
    ∃ m₁ m₂, m = m₁ + m₂ ∧ Counts rest m₂ ∧ (t ≠ [] → 0 < m₁) := by
  induction h generalizing t with
  | nil =>
    obtain ⟨rfl, rfl⟩ := List.append_eq_nil_iff.mp hs.symm
    exact ⟨0, 0, rfl, .nil, fun h => absurd rfl h⟩
  | @char c rest' m hc h ih =>
    cases t with
    | nil =>
      obtain rfl : c ++ rest' = rest := hs
      exact ⟨0, m + 1, (Nat.zero_add _).symm, .char hc h, fun h => absurd rfl h⟩
    | cons b t =>
      rcases List.append_eq_append_iff.mp hs with ⟨u, hu, hrest'⟩ | ⟨u, rfl, hu⟩
      · obtain ⟨m₁, m₂, rfl, hm₂, -⟩ := ih hrest'
        exact ⟨m₁ + 1, m₂, by omega, hm₂, fun _ => Nat.succ_pos _⟩
      · cases u with
        | nil =>
          obtain ⟨m₁, m₂, rfl, hm₂, -⟩ := ih (t := []) hu.symm
          exact ⟨m₁ + 1, m₂, by omega, hm₂, fun _ => Nat.succ_pos _⟩
        | cons x u =>
          have htail : Tail x := hc.tails x (List.mem_append_right t (.head u))
          exact absurd htail (hrest x (by rw [hu]; rfl))
  | @illegal b' rest' m hb h ih =>
    cases t with
    | nil =>
      obtain rfl : b' :: rest' = rest := hs
      exact ⟨0, m + 1, (Nat.zero_add _).symm, .illegal hb h, fun h => absurd rfl h⟩
    | cons b t =>
      obtain ⟨rfl, rfl⟩ := List.cons.inj hs
      obtain ⟨m₁, m₂, rfl, hm₂, -⟩ := ih rfl
      exact ⟨m₁ + 1, m₂, by omega, hm₂, fun _ => Nat.succ_pos _⟩

lemma Tiled.counts (h : Tiled s n) (hm : Counts s m) : n ≤ m ∧ (n = m → Characters s) := by
  induction h generalizing m with
  | nil => exact ⟨Nat.zero_le m, fun _ => .nil⟩
  | @cons c t rest n hc h ih =>
    generalize hs : c :: t ++ rest = s at hm
    cases hm with
    | nil => cases hs
    | @char c' rest' m hc' hm =>
      obtain rfl | ⟨d, u, rfl, hd⟩ := mbCharLen_character hc'
      · cases hs
        cases hc
      · obtain ⟨rfl, htail⟩ := List.cons.inj hs
        obtain ⟨rfl, rfl⟩ := List.append_inj htail (by omega)
        obtain ⟨hle, hutf8⟩ := ih hm
        exact ⟨Nat.succ_le_succ hle, fun heq => .cons hc' (hutf8 (Nat.succ.inj heq))⟩
    | @illegal b rest' m hb hm =>
      obtain ⟨rfl, rfl⟩ := List.cons.inj hs
      have hne : t ≠ [] := by
        rintro rfl
        obtain ⟨hpos, hlow⟩ := mbCharLen_eq_one c.toNat c.toNat_lt hc
        exact hb [c] (.sequence (.one hpos (Nat.le_of_lt_succ hlow))) ⟨rest, rfl⟩
      obtain ⟨m₁, m₂, rfl, hm₂, hpos⟩ := hm.split rfl h.startsAnew
      have hle := (ih hm₂).1
      have hm₁ := hpos hne
      exact ⟨by omega, fun heq => by omega⟩

lemma tiled_of_characters (h : Characters s) (hs : 0 ∉ s) : ∃ n, Tiled s n ∧ Counts s n := by
  induction h with
  | nil => exact ⟨0, .nil, .nil⟩
  | @cons c rest hc hrest ih =>
    rw [List.mem_append, not_or] at hs
    obtain ⟨n, htiled, hcounts⟩ := ih hs.2
    obtain rfl | ⟨d, t, rfl, hd⟩ := mbCharLen_character hc
    · exact absurd (.head []) hs.1
    · exact ⟨n + 1, .cons hd htiled, .char hc hcounts⟩

end Counting

/-- The loops stop at the terminator of a string of whole characters and of no other, and they have counted each illegal byte
as one character if the string is UTF-8 and only then. -/
theorem decoding_stops_iff (s : Bytes) (hs : 0 ∉ s) :
    ((∃ n, DecodesWhole s n) ↔ ∃ n, Tiled s n) ∧ ((∃ n, DecodesWhole s n ∧ Counts s n) ↔ Characters s) := by
  refine ⟨⟨fun ⟨n, h⟩ => ⟨n, tiled_of_stop h.1⟩, fun ⟨n, h⟩ => ⟨n, h.decodesWhole⟩⟩, ⟨?_, fun h => ?_⟩⟩
  · rintro ⟨n, h, hcounts⟩
    exact ((tiled_of_stop h.1).counts hcounts).2 rfl
  · obtain ⟨n, htiled, hcounts⟩ := tiled_of_characters h hs
    exact ⟨n, htiled.decodesWhole, hcounts⟩

theorem decoding_stops_umlaut :
    ((∃ n, DecodesWhole [0xc3, 0xa4, 0x62] n) ↔ ∃ n, Tiled [0xc3, 0xa4, 0x62] n) ∧
      ((∃ n, DecodesWhole [0xc3, 0xa4, 0x62] n ∧ Counts [0xc3, 0xa4, 0x62] n) ↔ Characters [0xc3, 0xa4, 0x62]) :=
  decoding_stops_iff [0xc3, 0xa4, 0x62] (by decide)

lemma counts_half : Counts [0xc3, 0x41] 2 := by
  refine .illegal (fun c hc hp => ?_) (.char (.sequence (.one (by decide) (by decide))) .nil)
  obtain ⟨rest, hrest⟩ := hp
  obtain rfl | ⟨d, t, rfl, hd⟩ := mbCharLen_character hc
  · cases hrest
  · obtain ⟨rfl, ht⟩ := List.cons.inj hrest
    obtain ⟨x, rfl⟩ := List.length_eq_one_iff.mp (Nat.succ.inj hd).symm
    obtain ⟨rfl, -⟩ := List.cons.inj ht
    have htail : Tail 0x41 := hc.tails _ (.head [])
    exact absurd htail.1 (by decide)

/-- A byte that starts no character leaves the rest unread; a character that is cut short takes `p` behind the terminator; and
the letter behind half a character is counted with it. -/
theorem decoding_stops_elsewhere :
    mbStrLenStop 0 [0x61, 0x80, 0x62] = some (1, 1) ∧ utf8toUcs2Stop 2 0 [] [0x61, 0x80, 0x62] = some ([0x61], 1) ∧
      mbStrLenStop 0 [0x61, 0xc3] = none ∧
      mbStrLenStop 0 [0xc3, 0x41] = some (1, 2) ∧ (∃ u, utf8toUcs2Stop 2 0 [] [0xc3, 0x41] = some ([u], 2)) ∧
      Counts [0xc3, 0x41] 2 :=
  ⟨by decide, by decide, by decide, by decide, ⟨_, by rfl⟩, counts_half⟩

end AfpfsNg.Unicode
