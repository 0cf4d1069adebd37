import AfpfsNg.Dsi.StatusReply

/-!
# Strings from the server

What becomes of the strings that a server sends: the names of its volumes (`afp_getsrvrparms_reply`), its own names
(`dsi_getstatus_reply`), the name of a file (`afp_getfiledirparms_reply`), a message (`afp_getsrvrmsg_reply`) and the name
of a user (`afp_mapid_reply`). They go through `copy_from_pascal` or `copy_from_pascal_two`, which fill the whole array and
cut a string that is longer. A string that fills its array has no terminator there.
-/

namespace AfpfsNg.Proto
open AfpfsNg.Base AfpfsNg.Afp AfpfsNg.Dsi AfpfsNg.Unicode

/-- The string that C `copy_from_pascal_two` copies from position `p`. -/
def copyFromPascalTwo (buf : Bytes) (p maxLen : Nat) : Option Bytes := do
  let len ← fetch buf p 2
  fetch buf (p + 2) (min maxLen (beNat len))

/-- C `copy_from_pascal` to an array of `n` bytes. -/
def storePascal {n : Nat} (dest : Block n) (buf : Bytes) (p : Nat) : Option (Block n) := do
  let s ← copyFromPascal buf p n
  dest.put 0 (padded n s)

/-- C `copy_from_pascal_two` to an array of `n` bytes. -/
def storePascalTwo {n : Nat} (dest : Block n) (buf : Bytes) (p : Nat) : Option (Block n) := do
  let s ← copyFromPascalTwo buf p n
  if s = [] then some dest else dest.put 0 (padded n s)

def afpGetsrvrmsgReply (mesg : Block 200) (buf : Bytes) : Option (Int × Block 200) :=
  if buf.length < 20 then some (-1, mesg)
  -- AFP_GETSRVRMSG_UTF8
  else if beNat (slice buf 18 2) &&& 0x2 ≠ 0 then (storePascalTwo mesg buf 20).map fun mesg => (0, mesg)
  else (storePascal mesg buf 20).map fun mesg => (0, mesg)

def afpMapidReply (name : Block 255) (buf : Bytes) : Option (Int × Block 255) :=
  if buf.length < 16 then some (-1, name)
  else do
    let code ← errorCode buf
    if code ≠ 0 then return (-1, name)
    let name ← storePascalTwo name buf 16
    return (0, name)

/-- The arrays `volume_name` and `volume_name_printable` of a volume, one behind the other. `name` is what `copy_from_pascal`
copies. -/
def volumeNames (avNumber : Nat) (name : Bytes) : Option (Block 66) := do
  let names ← (⟨_, List.length_replicate (a := 0)⟩ : Block 66).put 0 (padded 33 name)
  if avNumber < 30 then names.put 33 (names.array 0 33)
  else (decToPre names.bytes 33).bind fun t => names.put 33 (t ++ [0])

section Copy
variable {n p : Nat} {dest : Block n} {buf s : Bytes}

/-- A string with a length of two bytes in front. -/
def pascalTwo (s : Bytes) : Bytes := beBytes 2 s.length ++ s

lemma copyFromPascalTwo_cut (h : Stands buf p (pascalTwo s)) (hs : s.length < 65536) (maxLen : Nat) :
    copyFromPascalTwo buf p maxLen = some (s.take maxLen) := by
  have hlen : fetch buf p 2 = some (beBytes 2 s.length) := by
    have := h.left
    rwa [Stands, length_beBytes] at this
  have hs' : Stands buf (p + 2) s := by
    have := h.right
    rwa [length_beBytes] at this
  rw [copyFromPascalTwo, hlen]
  show fetch buf (p + 2) (min maxLen (beNat (beBytes 2 s.length))) = _
  rw [beNat_beBytes_of_lt hs]
  exact hs'.take maxLen

lemma put_padded_holds (dest : Block n) (s : Bytes) :
    ∃ dest' : Block n, dest.put 0 (padded n (s.take n)) = some dest' ∧ Holds dest'.bytes s := by
  have hle : (s.take n).length ≤ n := List.length_take_le n s
  have hsize := length_padded hle
  obtain ⟨dest', hput⟩ := dest.put_of_le 0 (padded n (s.take n)) (by omega)
  have hbytes : dest'.bytes = padded n (s.take n) := by
    rw [(Block.bytes_put hput).2, patch, List.drop_of_length_le (by rw [dest.size]; omega), List.append_nil]
    rfl
  refine ⟨dest', hput, ?_⟩
  rw [hbytes]
  exact holds_padded (List.take_prefix n s) hle

lemma storePascal_holds (dest : Block n) (h : Stands buf p (pascal s)) (hs : s.length < 256) :
    ∃ dest', storePascal dest buf p = some dest' ∧ Holds dest'.bytes s := by
  obtain ⟨dest', hput, hholds⟩ := put_padded_holds dest s
  refine ⟨dest', ?_, hholds⟩
  rw [storePascal, copyFromPascal_cut h hs]
  exact hput

lemma storePascalTwo_holds (hn : 0 < n) (h : Stands buf p (pascalTwo s)) (hs : s.length < 65536)
    (hold : s = [] → cString dest.bytes = []) : ∃ dest', storePascalTwo dest buf p = some dest' ∧ Holds dest'.bytes s := by
  cases s with
  | nil =>
    have hne : dest.bytes ≠ [] := List.length_pos_iff.mp (dest.size.symm ▸ hn)
    refine ⟨dest, ?_, holds_nil hne (hold rfl)⟩
    rw [storePascalTwo, copyFromPascalTwo_cut h hs, List.take_nil]
    rfl
  | cons c s =>
    obtain ⟨dest', hput, hholds⟩ := put_padded_holds dest (c :: s)
    refine ⟨dest', ?_, hholds⟩
    have hne : (c :: s).take n ≠ [] := by
      obtain ⟨m, rfl⟩ := Nat.exists_eq_add_of_le' hn
      exact List.cons_ne_nil _ _
    rw [storePascalTwo, copyFromPascalTwo_cut h hs]
    show (if (c :: s).take n = [] then some dest else dest.put 0 (padded n ((c :: s).take n))) = _
    rw [if_neg hne, hput]

end Copy

/-- What a server says of its volumes: their number, then the flags and the name of each one. -/
def volumeList (sent : List (UInt8 × Bytes)) : Bytes :=
  .ofNat sent.length :: sent.flatMap fun v => v.1 :: pascal v.2

/-- The arrays of a volume with the name `s`. -/
structure VolumeHolds (avNumber : Nat) (s : Bytes) (names : Block 66) : Prop where
  name : Holds (names.array 0 33) s
  printable : avNumber < 30 → Holds (names.array 33 33) s
  /-- from version 3.0 on it is converted -/
  converted : 30 ≤ avNumber → s.length < 33 → ∃ t, decToPre (padded 66 s) 33 = some t ∧ t.length ≤ s.length ∧
    names.array 33 33 = padded 33 t

section Volumes
variable {buf rest : Bytes} {p avNumber : Nat} {v : UInt8 × Bytes}

lemma volumesLoop_record (h : Stands buf p (v.1 :: pascal v.2 ++ rest)) (hv : v.2.length < 256) (n : Nat) :
    volumesLoop buf (n + 1) p =
      (volumesLoop buf n (p + 1 + (min 33 v.2.length + 1))).map ((v.1, v.2.take afpVolumeNameLen) :: ·) := by
  have hfirst := Stands.left h
  have hflags := getElem?_of_stands hfirst
  have hname := copyFromPascal_cut (stands_tail hfirst) hv afpVolumeNameLen
  have hlen : (v.2.take afpVolumeNameLen).length = min 33 v.2.length := List.length_take
  rw [volumesLoop, hflags, hname, ← hlen]
  exact Option.map_eq_bind.symm

lemma stands_record (h : Stands buf p (v.1 :: pascal v.2 ++ rest)) (hv : v.2.length ≤ 33) :
    Stands buf (p + 1 + (min 33 v.2.length + 1)) rest := by
  have hrest := Stands.right h
  have hlen : (v.1 :: pascal v.2).length = 1 + (min 33 v.2.length + 1) := by
    rw [Nat.min_eq_right hv]
    exact Nat.add_comm ..
  rwa [hlen, ← Nat.add_assoc] at hrest

lemma volumesLoop_split {sent : List (UInt8 × Bytes)} (h : Stands buf p (sent.flatMap fun v => v.1 :: pascal v.2))
    (hsent : ∀ v ∈ sent, v.2.length < 256) (hcut : ∀ v ∈ sent.dropLast, v.2.length ≤ 33) :
    volumesLoop buf sent.length p = some (sent.map fun v => (v.1, v.2.take afpVolumeNameLen)) := by
  induction sent generalizing p with
  | nil => rfl
  | cons v sent ih =>
    rw [List.length_cons, volumesLoop_record h (hsent v (.head _))]
    cases sent with
    | nil => rfl
    | cons w sent =>
      have hrest := stands_record h (hcut v (.head _))
      rw [ih hrest (fun u hu => hsent u (.tail _ hu)) fun u hu => hcut u (.tail _ hu)]
      rfl

lemma volumesLoop_getElem? {earlier later : List (UInt8 × Bytes)} {vols : List (UInt8 × Bytes)}
    (h : Stands buf p ((earlier ++ v :: later).flatMap fun v => v.1 :: pascal v.2)) (hv : v.2.length < 256)
    (hearlier : ∀ u ∈ earlier, u.2.length ≤ 33)
    (hloop : volumesLoop buf (earlier ++ v :: later).length p = some vols) :
    vols[earlier.length]? = some (v.1, v.2.take 33) := by
  induction earlier generalizing p vols with
  | nil =>
    rw [List.nil_append, List.length_cons, volumesLoop_record h hv] at hloop
    obtain ⟨vols', -, rfl⟩ := Option.map_eq_some_iff.mp hloop
    rfl
  | cons u earlier ih =>
    have hu := hearlier u (.head _)
    rw [List.cons_append, List.length_cons, volumesLoop_record h (Nat.lt_of_le_of_lt hu (by decide))] at hloop
    obtain ⟨vols', hvols', rfl⟩ := Option.map_eq_some_iff.mp hloop
    exact ih (stands_record h hu) (fun w hw => hearlier w (.tail _ hw)) hvols'

lemma named_volume {s : Bytes} {names : Block 66} (hs : s.length ≤ 33)
    (h : (⟨_, List.length_replicate (a := 0)⟩ : Block 66).put 0 (padded 33 s) = some names) :
    names.bytes = padded 66 s ∧ names.array 0 33 = padded 33 s ∧ names.array 33 33 = List.replicate 33 0 := by
  have hsize := length_padded hs
  have hbytes : names.bytes = padded 33 s ++ List.replicate 33 0 := by
    rw [(Block.bytes_put h).2, patch, hsize, List.drop_replicate]
    rfl
  refine ⟨?_, ?_, ?_⟩
  · rw [hbytes, padded, padded, List.append_assoc, List.replicate_append_replicate]
    congr 2
    omega
  · rw [Block.array, hbytes]
    exact slice_mid [] _ _ rfl hsize
  · rw [Block.array, hbytes, slice, List.drop_left' hsize]
    rfl

lemma decToPre_padded {s : Bytes} (hs : s.length < 33) :
    ∃ t, decToPre (padded 66 s) 33 = some t ∧ t.length ≤ s.length := by
  obtain ⟨us, hus, hlen, hwritten⟩ := reads_of_zeros s (by omega : 7 ≤ 66 - s.length)
  obtain ⟨t, ht, hle⟩ := hus.decToPre 33 (by omega) (by omega)
  exact ⟨t, ht, Nat.le_trans hle hwritten⟩

lemma volumeNames_isSome (avNumber : Nat) {s : Bytes} (hs : s.length < 33) : (volumeNames avNumber s).isSome := by
  have hsize := length_padded (Nat.le_of_lt hs)
  obtain ⟨names₁, hput₁⟩ := Block.put_of_le ⟨_, List.length_replicate (n := 66) (a := 0)⟩ 0 (padded 33 s) (by omega)
  obtain ⟨hbytes, hname, -⟩ := named_volume (Nat.le_of_lt hs) hput₁
  rw [volumeNames, hput₁]
  show (if avNumber < 30 then names₁.put 33 (names₁.array 0 33)
    else (decToPre names₁.bytes 33).bind fun t => names₁.put 33 (t ++ [0])).isSome
  split
  case isTrue =>
    obtain ⟨names₂, hput₂⟩ := names₁.put_of_le 33 (names₁.array 0 33) (by rw [hname, hsize])
    rw [hput₂, Option.isSome_some]
  case isFalse =>
    obtain ⟨t, ht, hle⟩ := decToPre_padded hs
    obtain ⟨names₂, hput₂⟩ := names₁.put_of_le 33 (t ++ [0]) (by
      rw [List.length_append, List.length_singleton]
      omega)
    rw [hbytes, ht, Option.bind_some, hput₂, Option.isSome_some]

lemma volumeNames_holds {avNumber : Nat} {s : Bytes} {names : Block 66}
    (h : volumeNames avNumber (s.take 33) = some names) : VolumeHolds avNumber s names := by
  have hcut : (s.take 33).length ≤ 33 := List.length_take_le 33 s
  have hholds : Holds (padded 33 (s.take 33)) s := holds_padded (List.take_prefix 33 s) hcut
  obtain ⟨names₁, hput₁, h⟩ := Option.bind_eq_some_iff.mp h
  obtain ⟨hbytes, hname, hzeros⟩ := named_volume hcut hput₁
  split at h
  case isTrue hold =>
    refine ⟨?_, fun _ => ?_, fun hnew => absurd hold (Nat.not_lt.mpr hnew)⟩
    · rw [Block.array_put_of_disjoint h (.inl (Nat.le_refl 33)), hname]
      exact hholds
    · have hlen : (names₁.array 0 33).length = 33 := by rw [hname, length_padded hcut]
      rw [Block.array_put h (Nat.le_of_eq hlen.symm), List.take_of_length_le (Nat.le_of_eq hlen), hname]
      exact hholds
  case isFalse hnew =>
    obtain ⟨t, ht, h⟩ := Option.bind_eq_some_iff.mp h
    refine ⟨?_, fun hold => absurd hold hnew, fun _ hs => ?_⟩
    · rw [Block.array_put_of_disjoint h (.inl (Nat.le_refl 33)), hname]
      exact hholds
    · obtain ⟨t', ht', hle⟩ := decToPre_padded hs
      rw [hbytes, List.take_of_length_le (Nat.le_of_lt hs), ht'] at ht
      cases ht
      refine ⟨t, ht', hle, ?_⟩
      have hlen : (t ++ [0]).length ≤ 33 := by
        rw [List.length_append, List.length_singleton]
        omega
      rw [Block.array_put_zeros h hlen hzeros, padded_terminated (by omega)]

lemma getsrvrparms_holds {server server' : SrvrParms} {ret : Int} {earlier later : List (UInt8 × Bytes)} {v : UInt8 × Bytes}
    (avNumber : Nat) (h : afpGetsrvrparmsReply server buf = some (ret, server'))
    (hsent : Stands buf 20 (volumeList (earlier ++ v :: later))) (hcount : (earlier ++ v :: later).length < 256)
    (hv : v.2.length < 256) (hearlier : ∀ u ∈ earlier, u.2.length ≤ 33) :
    ∃ name, server'.volumes[earlier.length]? = some (v.1, name) ∧
      (∀ names, volumeNames avNumber name = some names → VolumeHolds avNumber v.2 names) ∧
      (v.2.length < 33 → (volumeNames avNumber name).isSome) := by
  have hnumber := getElem?_of_stands hsent
  have hlen : ¬ buf.length < 21 := by
    have hle : 20 + (volumeList (earlier ++ v :: later)).length ≤ buf.length := hsent.le
    rw [volumeList, List.length_cons] at hle
    omega
  rw [afpGetsrvrparmsReply, if_neg hlen] at h
  obtain ⟨number, hnumber', h⟩ := Option.bind_eq_some_iff.mp h
  cases hnumber.symm.trans hnumber'
  obtain ⟨vols, hloop, h⟩ := Option.bind_eq_some_iff.mp h
  rw [toNat_ofNat_of_lt hcount] at hloop
  cases h
  refine ⟨v.2.take 33, volumesLoop_getElem? (stands_tail hsent) hv hearlier hloop, fun names => volumeNames_holds, ?_⟩
  intro hs
  rw [List.take_of_length_le (Nat.le_of_lt hs)]
  exact volumeNames_isSome avNumber hs

end Volumes

/-- The UTF-8 name of a server at `p2`: behind a length of two bytes, of which the second is not 0; or one byte later, behind
a length of one byte. -/
inductive Utf8NameSent (buf : Bytes) (p2 : Nat) (t : Bytes) : Prop
  | counted (h : Stands buf p2 (pascalTwo t)) (hlen : t.length % 256 ≠ 0)
  | later (x : UInt8) (h : Stands buf p2 (x :: 0 :: pascal t)) (hlen : t.length < 256)

/-- Where the offset of the UTF-8 name is, behind a name of `len` bytes. -/
def utf8NameOffsetAt (len flags : Nat) : Nat :=
  let p := 26 + (len + 1)
  let p := p + p % 2
  let p := p + 2
  let p := if flags &&& 0x20 ≠ 0 then p + 2 else p
  if flags &&& 0x100 ≠ 0 then p + 2 else p

section Status
variable {names names' : Block 832} {buf u : Bytes} {dest p maxLen : Nat}

lemma length_copyFromPascal (h : copyFromPascal buf p maxLen = some u) : u.length ≤ maxLen := by
  obtain ⟨len, -, h⟩ := Option.bind_eq_some_iff.mp h
  obtain ⟨hle, rfl⟩ := fetch_eq_some h
  rw [slice_length hle]
  exact Nat.min_le_left ..

lemma copyToArray_array (h : copyToArray names dest buf p maxLen = some (u, names')) :
    copyFromPascal buf p maxLen = some u ∧ names'.array dest maxLen = padded maxLen u ∧
      ∀ i len, i + len ≤ dest → names'.array i len = names.array i len := by
  obtain ⟨v, hv, h⟩ := Option.bind_eq_some_iff.mp h
  obtain ⟨names₁, hput, h⟩ := Option.bind_eq_some_iff.mp h
  cases h
  exact ⟨hv, Block.array_put_padded hput (length_copyFromPascal hv), fun i len hi =>
    Block.array_put_of_disjoint hput (.inl hi)⟩

lemma utf8Name_array (h : utf8Name names buf p = some names') :
    ∃ u v, copyFromPascal buf (p + 1) 255 = some u ∧
      (if u = [] then copyFromPascal buf (p + 2) 255 else some u) = some v ∧
      names'.array 33 255 = padded 255 v ∧ names'.array 0 33 = names.array 0 33 := by
  obtain ⟨⟨u, names₁⟩, hcopy₁, h⟩ := Option.bind_eq_some_iff.mp h
  obtain ⟨hu, harray₁, hkeep₁⟩ := copyToArray_array hcopy₁
  have hprint {names₂ : Block 832} (h : printName names₂ = some names') (i len : Nat) (hi : i + len ≤ 288) :
      names'.array i len = names₂.array i len := by
    obtain ⟨t, -, hput⟩ := Option.bind_eq_some_iff.mp h
    exact Block.array_put_of_disjoint hput (.inl hi)
  refine ⟨u, ?_⟩
  by_cases hne : u = []
  · simp only [if_pos hne] at h ⊢
    obtain ⟨⟨v, names₂⟩, hcopy₂, h⟩ := Option.bind_eq_some_iff.mp h
    obtain ⟨hv, harray₂, hkeep₂⟩ := copyToArray_array hcopy₂
    refine ⟨v, hu, hv, ?_, ?_⟩
    · rw [hprint h 33 255 (Nat.le_refl _), harray₂]
    · rw [hprint h 0 33 (by decide), hkeep₂ 0 33 (Nat.le_refl _), hkeep₁ 0 33 (Nat.le_refl _)]
  · simp only [if_neg hne] at h ⊢
    refine ⟨u, hu, rfl, ?_, ?_⟩
    · rw [hprint h 33 255 (Nat.le_refl _), harray₁]
    · rw [hprint h 0 33 (by decide), hkeep₁ 0 33 (Nat.le_refl _)]

lemma utf8Name_holds {t : Bytes} (h : utf8Name names buf p = some names') (ht : Utf8NameSent buf p t) :
    Holds (names'.array 33 255) t := by
  obtain ⟨u, v, hu, hv, harray, -⟩ := utf8Name_array h
  have hlen : v.length ≤ 255 := by
    split at hv
    case isTrue => exact length_copyFromPascal hv
    case isFalse =>
      cases hv
      exact length_copyFromPascal hu
  rw [harray]
  apply holds_padded _ hlen
  cases ht with
  | counted h hne =>
    -- the second byte of the length
    have htail : Stands buf (p + 1) (.ofNat t.length :: t) := stands_tail h
    have hx : (UInt8.ofNat t.length).toNat = t.length % 256 := UInt8.toNat_ofNat'
    have hle : (UInt8.ofNat t.length).toNat ≤ t.length := by
      rw [hx]
      exact Nat.mod_le ..
    rw [copyFromPascal_of_length (getElem?_of_stands htail) (stands_tail htail) hle, hx] at hu
    cases hu
    have htake : t.take (min 255 (t.length % 256)) ≠ [] := by
      apply List.length_pos_iff.mp
      rw [List.length_take]
      omega
    rw [if_neg htake] at hv
    cases hv
    exact List.take_prefix ..
  | later x h ht =>
    have htail : Stands buf (p + 1) (0 :: pascal t) := stands_tail h
    rw [copyFromPascal_of_length (getElem?_of_stands htail) (stands_tail htail) (Nat.zero_le _)] at hu
    cases hu
    have hnone : (pascal t).take (min 255 (0 : UInt8).toNat) = [] := rfl
    rw [if_pos hnone, copyFromPascal_cut (stands_tail htail) ht] at hv
    cases hv
    exact List.take_prefix ..

end Status

section Status
variable {iconv : Bytes → Bytes} {server server' : StatusInfo} {buf s : Bytes}

lemma dsiGetstatusReply_names (h : dsiGetstatusReply iconv server buf = some server') (hlen : 34 ≤ buf.length) :
    ∃ (u : Bytes) (names₁ names₂ : Block 832), copyFromPascal buf 26 33 = some u ∧ names₁.array 0 33 = padded 33 u ∧
      names₂.array 0 33 = names₁.array 0 33 ∧
      printableName iconv (beNat (slice buf 24 2)) names₂ buf (utf8NameOffsetAt u.length (beNat (slice buf 24 2))) =
        some server'.names := by
  rw [dsiGetstatusReply, if_neg (Nat.not_lt.mpr hlen)] at h
  obtain ⟨⟨machine, names⟩, -, h⟩ := Option.bind_eq_some_iff.mp h
  obtain ⟨versions, -, h⟩ := Option.bind_eq_some_iff.mp h
  obtain ⟨uams, -, h⟩ := Option.bind_eq_some_iff.mp h
  obtain ⟨names, -, h⟩ := Option.bind_eq_some_iff.mp h
  obtain ⟨⟨u, names₁⟩, hcopy, h⟩ := Option.bind_eq_some_iff.mp h
  obtain ⟨signature, -, h⟩ := Option.bind_eq_some_iff.mp h
  obtain ⟨names₂, hput, h⟩ := Option.bind_eq_some_iff.mp h
  obtain ⟨names₃, hprint, h⟩ := Option.bind_eq_some_iff.mp h
  obtain ⟨hu, harray, -⟩ := copyToArray_array hcopy
  cases h
  exact ⟨u, names₁, names₂, hu, harray, Block.array_put_of_disjoint hput (.inl (by decide)), hprint⟩

lemma getstatus_holds_name (h : dsiGetstatusReply iconv server buf = some server') (hlen : 34 ≤ buf.length)
    (hs : s.length < 256) (hsent : Stands buf 26 (pascal s)) : Holds server'.serverName s := by
  obtain ⟨u, names₁, names₂, hu, h₁, h₂, hprint⟩ := dsiGetstatusReply_names h hlen
  rw [copyFromPascal_cut hsent hs] at hu
  cases hu
  have hkeep : server'.names.array 0 33 = names₂.array 0 33 := by
    rw [printableName] at hprint
    split at hprint
    case isTrue =>
      obtain ⟨o, -, hprint⟩ := Option.bind_eq_some_iff.mp hprint
      obtain ⟨-, -, -, -, -, hkeep⟩ := utf8Name_array hprint
      exact hkeep
    case isFalse => exact Block.array_put_of_disjoint hprint (.inl (by decide))
  rw [StatusInfo.serverName, hkeep, h₂, h₁]
  exact holds_padded (List.take_prefix 33 s) (List.length_take_le 33 s)

lemma getstatus_holds_utf8 {t : Bytes} {o : UInt16} (h : dsiGetstatusReply iconv server buf = some server')
    (hlen : 34 ≤ buf.length) (hs : s.length ≤ 33) (hsent : Stands buf 26 (pascal s))
    (hflag : beNat (slice buf 24 2) &&& 0x200 ≠ 0)
    (hoffset : Stands buf (utf8NameOffsetAt s.length (beNat (slice buf 24 2))) (beBytes 2 o.toNat))
    (ht : Utf8NameSent buf (16 + o.toNat) t) : Holds server'.serverNameUtf8 t := by
  obtain ⟨u, names₁, names₂, hu, -, -, hprint⟩ := dsiGetstatusReply_names h hlen
  rw [copyFromPascal_of_stands hsent hs (by decide)] at hu
  cases hu
  rw [printableName, if_pos hflag] at hprint
  obtain ⟨w, hw, hprint⟩ := Option.bind_eq_some_iff.mp hprint
  rw [Stands, length_beBytes, hw] at hoffset
  cases hoffset
  rw [beNat_word] at hprint
  exact utf8Name_holds hprint ht

end Status

/-- The string that stands for a bit of the bitmap, whose offset is at `pos`; the empty one if the bit is not set. -/
def NameSent (block : Bytes) (bitmap bit pos lead width : Nat) (s : Bytes) : Prop :=
  if bitmap &&& bit = 0 then s = []
  else s.length < 256 ^ width ∧
    ∃ off < 65536, Stands block pos (beBytes 2 off) ∧ Stands block (off + lead) (beBytes width s.length ++ s)

/-- The names of a file or directory: `l` is the long one and `t` that in UTF-8. -/
structure FileNamesSent (block : Bytes) (isdir : Bool) (bitmap : Nat) (l t : Bytes) : Prop where
  long : NameSent block bitmap kFPLongNameBit (widths bitmap ((replyFields isdir).take 6)) 0 1 l
  utf8 : NameSent block bitmap kFPUTF8NameBit (widths bitmap ((replyFields isdir).take 13)) 4 2 t

section File

/-- The fields with a name among the others. -/
def longNameField : Base.Field AfpFileInfo :=
  ⟨kFPLongNameBit, 2, .string 0 1 afpMaxPath, fun bs r => { r with name := zeroPadded afpMaxPath bs }⟩

def utf8NameField : Base.Field AfpFileInfo :=
  ⟨kFPUTF8NameBit, 6, .string 4 2 afpMaxPath, fun bs r =>
    if bs = [] then r else { r with name := zeroPadded afpMaxPath bs }⟩

lemma replyFields_split (isdir : Bool) : replyFields isdir = (replyFields isdir).take 6 ++
    ([longNameField] ++ (((replyFields isdir).drop 7).take 6 ++ ([utf8NameField] ++ (replyFields isdir).drop 14))) := by
  cases isdir <;> rfl

def otherFields (isdir : Bool) : List (Base.Field AfpFileInfo) :=
  (replyFields isdir).take 6 ++ (((replyFields isdir).drop 7).take 6 ++ (replyFields isdir).drop 14)

lemma otherFields_keep (isdir : Bool) : ∀ f ∈ otherFields isdir, ∀ bs r, (f.store bs r).name = r.name := by
  -- `rfl` would compare the other fields, too
  have hmk (attributes : UInt16) (did created modified backup fileid : UInt32) (offspring : UInt16) (finderinfo name : Bytes)
      (unixprivs : Unixprivs) (accessrights : UInt32) (isdir : UInt8) (size resourcesize : UInt64) :
      (AfpFileInfo.mk attributes did created modified backup fileid offspring finderinfo name unixprivs accessrights isdir
        size resourcesize).name = name := rfl
  cases isdir with
  | true =>
    repeat refine List.forall_mem_cons.mpr ⟨fun _ _ => hmk .., ?_⟩
    exact List.forall_mem_nil _
  | false =>
    repeat refine List.forall_mem_cons.mpr ⟨fun _ _ => hmk .., ?_⟩
    exact List.forall_mem_nil _

variable {block l t : Bytes} {bitmap : Nat} {r : AfpFileInfo}

lemma readFields_long {pos : Nat} {r' : AfpFileInfo} (hr : r.name = zeroPadded afpMaxPath [])
    (hl : NameSent block bitmap kFPLongNameBit pos 0 1 l) (h : readFields bitmap block [longNameField] pos r = some r') :
    r'.name = zeroPadded afpMaxPath (l.take afpMaxPath) := by
  rw [NameSent] at hl
  split at hl
  case isTrue hbit =>
    have hskip : readFields bitmap block [longNameField] pos r = some r := if_pos hbit
    rw [hskip] at h
    cases h
    rw [hr, hl, List.take_nil]
  case isFalse hbit =>
    obtain ⟨hlen, off, hoff, hplace, hstr⟩ := hl
    rw [readFields_string rfl hbit hoff hplace hstr hlen] at h
    cases h
    rfl

lemma readFields_utf8 {pos : Nat} {r' : AfpFileInfo}
    (ht : NameSent block bitmap kFPUTF8NameBit pos 4 2 t) (h : readFields bitmap block [utf8NameField] pos r = some r') :
    r'.name = if t = [] then r.name else zeroPadded afpMaxPath (t.take afpMaxPath) := by
  rw [NameSent] at ht
  split at ht
  case isTrue hbit =>
    have hskip : readFields bitmap block [utf8NameField] pos r = some r := if_pos hbit
    rw [hskip] at h
    cases h
    rw [if_pos ht]
  case isFalse hbit =>
    obtain ⟨hlen, off, hoff, hplace, hstr⟩ := ht
    rw [readFields_string rfl hbit hoff hplace hstr hlen] at h
    cases h
    have hnil : t.take afpMaxPath = [] ↔ t = [] := by
      rw [List.take_eq_nil_iff]
      exact or_iff_right (by decide)
    simp only [utf8NameField, hnil, apply_ite AfpFileInfo.name]

lemma parseReplyBlock_name {isdir : UInt8} (hsent : FileNamesSent block (isdir ≠ 0) bitmap l t)
    (h : readFields bitmap block (replyFields (isdir ≠ 0)) 0 { AfpFileInfo.zero with isdir } = some r) :
    r.name = zeroPadded afpMaxPath ((if t = [] then l else t).take afpMaxPath) := by
  have hkeep := otherFields_keep (isdir ≠ 0)
  obtain ⟨hlong, hutf8⟩ := hsent
  have hat : (replyFields (isdir ≠ 0)).take 13 = (replyFields (isdir ≠ 0)).take 6 ++
      ([longNameField] ++ ((replyFields (isdir ≠ 0)).drop 7).take 6) := by
    cases decide (isdir ≠ 0) <;> rfl
  rw [hat, widths_append, widths_append, ← Nat.add_assoc] at hutf8
  rw [replyFields_split, readFields_append] at h
  obtain ⟨r₁, h₁, h⟩ := Option.bind_eq_some_iff.mp h
  rw [readFields_append] at h
  obtain ⟨r₂, h₂, h⟩ := Option.bind_eq_some_iff.mp h
  rw [readFields_append] at h
  obtain ⟨r₃, h₃, h⟩ := Option.bind_eq_some_iff.mp h
  rw [readFields_append] at h
  obtain ⟨r₄, h₄, h⟩ := Option.bind_eq_some_iff.mp h
  rw [Nat.zero_add] at h₂ h₄
  have hr₁ : r₁.name = zeroPadded afpMaxPath [] :=
    readFields_keeps (fun f hf _ => hkeep f (List.mem_append_left _ hf)) h₁
  have hr₂ := readFields_long hr₁ hlong h₂
  have hr₃ := readFields_keeps (fun f hf _ => hkeep f (List.mem_append_right _ (List.mem_append_left _ hf))) h₃
  have hr₄ := readFields_utf8 hutf8 h₄
  have hr := readFields_keeps (fun f hf _ => hkeep f (List.mem_append_right _ (List.mem_append_right _ hf))) h
  rw [hr, hr₄, hr₃, hr₂]
  split <;> rfl

lemma getfiledirparms_holds {fi fi' : AfpFileInfo} {buf : Bytes} {isdir : UInt8}
    (h : afpGetfiledirparmsReply fi buf = some (0, fi')) (hisdir : buf[20]? = some isdir)
    (hbitmap : bitmap = if isdir ≠ 0 then beNat (slice buf 18 2) else beNat (slice buf 16 2))
    (hsent : FileNamesSent (buf.drop 22) (isdir ≠ 0) bitmap l t) : Holds fi'.name (if t = [] then l else t) := by
  have hword (i : Nat) : beNat (slice buf i 2) < 65536 := by
    apply Nat.lt_of_lt_of_le (beNat_lt _)
    exact Nat.pow_le_pow_right (by decide) (List.length_take_le ..)
  have hmod : bitmap % 65536 = bitmap := by
    rw [hbitmap]
    split
    · exact Nat.mod_eq_of_lt (hword 18)
    · exact Nat.mod_eq_of_lt (hword 16)
  obtain ⟨code, -, h⟩ := Option.bind_eq_some_iff.mp h
  split at h
  case isTrue hcode =>
    cases h
    exact absurd rfl hcode
  case isFalse =>
    split at h
    case isTrue => cases h
    case isFalse =>
      obtain ⟨d, hd, h⟩ := Option.bind_eq_some_iff.mp h
      cases hisdir.symm.trans hd
      obtain ⟨r, hr, h⟩ := Option.bind_eq_some_iff.mp h
      cases h
      rw [parseReplyBlock, ← hbitmap, hmod] at hr
      show Holds r.name _
      rw [parseReplyBlock_name hsent hr]
      exact holds_padded (List.take_prefix ..) (List.length_take_le ..)

end File

section Message
variable {buf s : Bytes}

lemma getsrvrmsg_holds_utf8 {mesg : Block 200} (hflag : beNat (slice buf 18 2) &&& 0x2 ≠ 0)
    (hsent : Stands buf 20 (pascalTwo s)) (hs : s.length < 65536) (hold : s = [] → cString mesg.bytes = []) :
    ∃ mesg', afpGetsrvrmsgReply mesg buf = some (0, mesg') ∧ Holds mesg'.bytes s := by
  obtain ⟨mesg', hstore, hholds⟩ := storePascalTwo_holds (by decide) hsent hs hold
  refine ⟨mesg', ?_, hholds⟩
  rw [afpGetsrvrmsgReply, if_neg hsent.not_lt, if_pos hflag, hstore]
  rfl

lemma getsrvrmsg_holds (mesg : Block 200) (hflag : beNat (slice buf 18 2) &&& 0x2 = 0) (hsent : Stands buf 20 (pascal s))
    (hs : s.length < 256) : ∃ mesg', afpGetsrvrmsgReply mesg buf = some (0, mesg') ∧ Holds mesg'.bytes s := by
  obtain ⟨mesg', hstore, hholds⟩ := storePascal_holds mesg hsent hs
  refine ⟨mesg', ?_, hholds⟩
  rw [afpGetsrvrmsgReply, if_neg hsent.not_lt, if_neg (not_not_intro hflag), hstore]
  rfl

lemma mapid_holds {name : Block 255} (hcode : errorCode buf = some 0) (hsent : Stands buf 16 (pascalTwo s))
    (hs : s.length < 65536) (hold : s = [] → cString name.bytes = []) :
    ∃ name', afpMapidReply name buf = some (0, name') ∧ Holds name'.bytes s := by
  obtain ⟨name', hstore, hholds⟩ := storePascalTwo_holds (by decide) hsent hs hold
  refine ⟨name', ?_, hholds⟩
  simp only [afpMapidReply, if_neg hsent.not_lt, hcode, bind, Option.bind, hstore]
  rfl

end Message

def volumesSample : Bytes := List.replicate 20 0 ++ volumeList [(0, [86])]

def fileSample : Bytes := List.replicate 16 0 ++ ([0, 0x40, 0, 0, 0, 0] ++ ([0, 2] ++ pascal [97]))

def messageSample : Bytes := List.replicate 16 0 ++ ([0, 0, 0, 2] ++ pascalTwo [72, 105])

def userSample : Bytes := List.replicate 16 0 ++ pascalTwo [117]

end AfpfsNg.Proto
