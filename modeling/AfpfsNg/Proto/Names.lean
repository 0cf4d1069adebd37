import AfpfsNg.Afp.Volume

/-!
# Names in requests

How a path gets into a request (`lib/utils.c`): `copy_path` writes a header and the name, and
`unixpath_to_afppath` then replaces each `/` of the name by a zero byte. The name goes through an array
of 255 bytes on the stack, `tmppathname`, and its length through an `unsigned char` and an
`unsigned short`. `none` is a write or a read behind the end of a block. `decodePath` is the server's side.
-/

namespace AfpfsNg.Proto
open AfpfsNg.Base AfpfsNg.Afp

/-- The values of `kFPShortName`, `kFPLongName` and `kFPUTF8Name`. -/
def pathType : PathEncoding → UInt8
  | .shortName => 1
  | .longName => 2
  | .utf8Name => 3

def utf8Hint : Bytes := beBytes 4 0x08000103

/-- C `copy_to_pascal`: the returned length and the block. -/
def copyToPascal (dest src : Bytes) : Option (Nat × Bytes) := do
  let len := src.length % 256
  let dest ← put dest 0 [UInt8.ofNat len]
  let dest ← put dest 1 (src.take len)
  return (len, dest)

/-- C `copy_to_pascal_two`, whose source may be `NULL`. -/
def copyToPascalTwo (dest : Bytes) (src : Option Bytes) : Option (Nat × Bytes) :=
  match src with
  | none => do
    let dest ← put dest 0 [0, 0]
    return (2, dest)
  | some src => do
    let len := src.length % 65536
    let dest ← put dest 0 (beBytes 2 len)
    let dest ← put dest 2 (src.take len)
    return (len, dest)

def sizeofPathHeader (v : Volume) : Nat :=
  match v.pathEncoding with
  | .utf8Name => 7
  | .longName => 2
  | .shortName => 0

/-- C `copy_path`; `tmppathname` is what the array holds before. -/
def copyPath (v : Volume) (tmppathname dest pathname : Bytes) : Option Bytes :=
  match v.pathEncoding with
  | .utf8Name => do
    let dest ← put dest 0 [pathType .utf8Name]
    let dest ← put dest 1 utf8Hint
    let (len, tmppathname) ← copyToPascalTwo tmppathname (some pathname)
    let namelen := len % 256
    put dest 5 (← fetch tmppathname 0 (namelen + 2))
  | .longName => do
    let dest ← put dest 0 [pathType .longName]
    let (namelen, tmppathname) ← copyToPascal tmppathname pathname
    put dest 1 (← fetch tmppathname 0 (namelen + 1))
  | .shortName => some dest

def unixpathToAfppath (v : Volume) (buf : Bytes) : Option Bytes :=
  match v.pathEncoding with
  | .utf8Name => do
    let len ← fetch buf 5 2
    let p ← fetch buf 7 (beNat len)
    put buf 7 (p.map nulForSlash)
  | .longName => do
    let len ← fetch buf 1 1
    let p ← fetch buf 2 (beNat len)
    put buf 2 (p.map nulForSlash)
  | .shortName => some buf
where
  nulForSlash (x : UInt8) : UInt8 := if x = slash then 0 else x

def decodePath (encoding : PathEncoding) (region : Bytes) : Option Bytes :=
  match encoding with
  | .utf8Name => header (pathType .utf8Name :: utf8Hint) 2
  | .longName => header [pathType .longName] 1
  | .shortName => none
where
  header (lead : Bytes) (width : Nat) : Option Bytes :=
    let name := region.drop (lead.length + width)
    if region.take lead.length = lead ∧ beNat (slice region lead.length width) = name.length then some name
    else none

/-- The name fills its region of the request, whatever was there before and in the array, and the server
gets it back. -/
def EncodesFaithfully (v : Volume) (s : Bytes) : Prop :=
  ∃ region : Bytes, region.length = sizeofPathHeader v + s.length ∧
    decodePath v.pathEncoding region = some s ∧
    ∀ tmppathname dest : Bytes, tmppathname.length = 255 → sizeofPathHeader v + s.length ≤ dest.length →
      (copyPath v tmppathname dest s).bind (unixpathToAfppath v) = some (region ++ dest.drop region.length)

variable {n w : Nat} {lead dest src s tmppathname buf : Bytes} {v : Volume}

lemma put_zero {b bs : Bytes} (hn : bs.length = n) (h : n ≤ b.length) : put b 0 bs = some (bs ++ b.drop n) := by
  subst hn
  exact put_append [] rfl h

lemma put_next {bs : Bytes} (hn : lead.length = n) (h : n + bs.length ≤ dest.length) :
    put (lead ++ dest.drop n) n bs = some ((lead ++ bs) ++ dest.drop (n + bs.length)) := by
  rw [put_append _ hn (by rw [List.length_drop]; omega), List.drop_drop, List.append_assoc]

lemma fetch_zero {b : Bytes} (c : Bytes) (hn : b.length = n) : fetch (b ++ c) 0 n = some b := by
  subst hn
  exact fetch_mid [] b c

lemma put_counted (w : Nat) (hdest : src.length + w ≤ dest.length) :
    ((put dest 0 (beBytes w src.length)).bind fun dest => put dest w src) =
      some ((beBytes w src.length ++ src) ++ dest.drop (src.length + w)) := by
  rw [put_zero (length_beBytes ..) (by omega), Option.bind_some,
    put_append _ (length_beBytes ..) (by rw [List.length_drop]; omega), List.drop_drop, List.append_assoc,
    Nat.add_comm w]

lemma copyToPascal_fits (hsrc : src.length < 256) (hdest : src.length + 1 ≤ dest.length) :
    copyToPascal dest src =
      some (src.length, (beBytes 1 src.length ++ src) ++ dest.drop (src.length + 1)) := by
  obtain ⟨dest', hlen, hname⟩ := Option.bind_eq_some_iff.mp (put_counted 1 hdest)
  simp only [copyToPascal, Option.bind_eq_bind, Nat.mod_eq_of_lt hsrc, List.take_length]
  rw [show [UInt8.ofNat src.length] = beBytes 1 src.length from rfl, hlen, Option.bind_some, hname]
  rfl

lemma copyToPascalTwo_fits (hsrc : src.length < 65536) (hdest : src.length + 2 ≤ dest.length) :
    copyToPascalTwo dest (some src) =
      some (src.length, (beBytes 2 src.length ++ src) ++ dest.drop (src.length + 2)) := by
  obtain ⟨dest', hlen, hname⟩ := Option.bind_eq_some_iff.mp (put_counted 2 hdest)
  simp only [copyToPascalTwo, Option.bind_eq_bind, Nat.mod_eq_of_lt hsrc, List.take_length]
  rw [hlen, Option.bind_some, hname]
  rfl

lemma map_nulForSlash (hs : slash ∉ s) : s.map unixpathToAfppath.nulForSlash = s := by
  apply (List.map_congr_left _).trans (List.map_id s)
  intro x hx
  apply if_neg
  rintro rfl
  exact hs hx

lemma convert_counted (rest : Bytes) (hw : s.length < 256 ^ w) :
    let buf := lead ++ (beBytes w s.length ++ (s ++ rest))
    ((fetch buf lead.length w).bind fun len => (fetch buf (lead.length + w) (beNat len)).bind fun p =>
      put buf (lead.length + w) (p.map unixpathToAfppath.nulForSlash)) =
        some (lead ++ (beBytes w s.length ++ (s.map unixpathToAfppath.nulForSlash ++ rest))) := by
  intro buf
  have hhead : (lead ++ beBytes w s.length).length = lead.length + w := by
    rw [List.length_append, length_beBytes]
  have hbuf : buf = (lead ++ beBytes w s.length) ++ (s ++ rest) := (List.append_assoc ..).symm
  have hlen : fetch buf lead.length w = some (beBytes w s.length) := by
    have h := fetch_mid lead (beBytes w s.length) (s ++ rest)
    rwa [length_beBytes] at h
  have hname : fetch buf (lead.length + w) s.length = some s := by
    rw [hbuf, ← hhead]
    exact fetch_mid ..
  have hput : put buf (lead.length + w) (s.map unixpathToAfppath.nulForSlash) =
      some (lead ++ (beBytes w s.length ++ (s.map unixpathToAfppath.nulForSlash ++ rest))) := by
    rw [hbuf, put_append _ hhead (by rw [List.length_map, List.length_append]; omega), List.length_map, List.drop_left,
      List.append_assoc]
  rw [hlen, Option.bind_some, beNat_beBytes, Nat.mod_eq_of_lt hw, hname, Option.bind_some, hput]

lemma decode_counted (hw : s.length < 256 ^ w) :
    decodePath.header (lead ++ (beBytes w s.length ++ s)) lead w = some s := by
  have hname : (lead ++ (beBytes w s.length ++ s)).drop (lead.length + w) = s := by
    rw [← List.append_assoc]
    exact List.drop_left' (by rw [List.length_append, length_beBytes])
  have hlen : slice (lead ++ (beBytes w s.length ++ s)) lead.length w = beBytes w s.length := by
    rw [slice, List.drop_left]
    exact List.take_left' (length_beBytes ..)
  rw [decodePath.header, hname, hlen, beNat_beBytes, Nat.mod_eq_of_lt hw]
  exact if_pos ⟨List.take_left, rfl⟩

lemma length_lt_of_decode {region : Bytes} (h : decodePath.header region lead w = some s) : s.length < 256 ^ w := by
  rw [decodePath.header] at h
  split at h
  · rename_i hheader
    cases h
    rw [← hheader.2]
    apply Nat.lt_of_lt_of_le (beNat_lt _)
    apply Nat.pow_le_pow_right (by decide)
    rw [length_slice]
    exact Nat.min_le_left ..
  · cases h

/-- A name is written behind a header `lead` and a length of `w` bytes, whatever was there before. -/
structure WritesPath (v : Volume) (lead : Bytes) (w : Nat) (s : Bytes) : Prop where
  size : sizeofPathHeader v = lead.length + w
  width : s.length < 256 ^ w
  copy : ∀ tmppathname dest : Bytes, tmppathname.length = 255 → lead.length + w + s.length ≤ dest.length →
    copyPath v tmppathname dest s =
      some ((lead ++ (beBytes w s.length ++ s)) ++ dest.drop (lead.length + w + s.length))
  convert : ∀ buf : Bytes, unixpathToAfppath v buf = (fetch buf lead.length w).bind fun len =>
    (fetch buf (lead.length + w) (beNat len)).bind fun p =>
      put buf (lead.length + w) (p.map unixpathToAfppath.nulForSlash)

def pathRegion (lead : Bytes) (w : Nat) (s : Bytes) : Bytes :=
  lead ++ (beBytes w s.length ++ s.map unixpathToAfppath.nulForSlash)

lemma length_pathRegion (lead : Bytes) (w : Nat) (s : Bytes) :
    (pathRegion lead w s).length = lead.length + w + s.length := by
  simp only [pathRegion, List.length_append, length_beBytes, List.length_map]
  omega

lemma WritesPath.run (h : WritesPath v lead w s) (htmp : tmppathname.length = 255)
    (hdest : sizeofPathHeader v + s.length ≤ dest.length) :
    (copyPath v tmppathname dest s).bind (unixpathToAfppath v) =
      some (pathRegion lead w s ++ dest.drop (pathRegion lead w s).length) := by
  rw [h.size] at hdest
  rw [h.copy tmppathname dest htmp hdest, Option.bind_some, h.convert, length_pathRegion, List.append_assoc,
    List.append_assoc, convert_counted _ h.width, pathRegion, List.append_assoc, List.append_assoc]

lemma encodes_of_header (h : WritesPath v lead w s) (hs : slash ∉ s)
    (hdecode : ∀ region, decodePath v.pathEncoding region = decodePath.header region lead w) :
    EncodesFaithfully v s := by
  have hregion : pathRegion lead w s = lead ++ (beBytes w s.length ++ s) := by rw [pathRegion, map_nulForSlash hs]
  refine ⟨pathRegion lead w s, ?_, ?_, ?_⟩
  · rw [length_pathRegion, h.size]
  · rw [hdecode, hregion]
    exact decode_counted h.width
  · intro tmppathname dest htmp hdest
    exact h.run htmp hdest

lemma writesPath_utf8 (henc : v.pathEncoding = .utf8Name) (hlen : s.length ≤ 253) :
    WritesPath v (pathType .utf8Name :: utf8Hint) 2 s where
  size := by
    rw [sizeofPathHeader, henc]
    rfl
  width := Nat.lt_of_le_of_lt hlen (by decide)
  copy := by
    intro tmppathname dest htmp hdest
    have hlead : (pathType .utf8Name :: utf8Hint).length = 5 := rfl
    rw [hlead] at hdest
    have htype : put dest 0 [pathType .utf8Name] = some ([pathType .utf8Name] ++ dest.drop 1) :=
      put_zero rfl (by omega)
    have hhint : put ([pathType .utf8Name] ++ dest.drop 1) 1 utf8Hint =
        some ((pathType .utf8Name :: utf8Hint) ++ dest.drop 5) :=
      put_next rfl (by rw [show utf8Hint.length = 4 from rfl]; omega)
    have hname : (beBytes 2 s.length ++ s).length = 2 + s.length := by
      rw [List.length_append, length_beBytes]
    simp only [copyPath, henc, Option.bind_eq_bind]
    rw [htype, Option.bind_some, hhint, Option.bind_some, copyToPascalTwo_fits (by omega) (by omega),
      Option.bind_some, Nat.mod_eq_of_lt (by omega), fetch_zero _ (by omega), Option.bind_some,
      put_next hlead (by omega), hname, hlead, Nat.add_assoc]
  convert := by
    intro buf
    rw [unixpathToAfppath, henc]
    rfl

lemma writesPath_long (henc : v.pathEncoding = .longName) (hlen : s.length ≤ 254) :
    WritesPath v [pathType .longName] 1 s where
  size := by
    rw [sizeofPathHeader, henc]
    rfl
  width := Nat.lt_of_le_of_lt hlen (by decide)
  copy := by
    intro tmppathname dest htmp hdest
    rw [List.length_singleton] at hdest
    have htype : put dest 0 [pathType .longName] = some ([pathType .longName] ++ dest.drop 1) :=
      put_zero rfl (by omega)
    have hname : (beBytes 1 s.length ++ s).length = 1 + s.length := by
      rw [List.length_append, length_beBytes]
    simp only [copyPath, henc, Option.bind_eq_bind]
    rw [htype, Option.bind_some, copyToPascal_fits (by omega) (by omega), Option.bind_some,
      fetch_zero _ (by omega), Option.bind_some, put_next List.length_singleton (by omega), hname,
      List.length_singleton, Nat.add_assoc]
  convert := by
    intro buf
    rw [unixpathToAfppath, henc]
    rfl

lemma array_of_counted {α : Type} {len : Bytes} {f : Bytes → Option α} {r : α}
    (h : ((put buf 0 len).bind fun buf' => (put buf' w (s.take (s.length % n))).bind f) = some r) :
    w + s.length % n ≤ buf.length := by
  obtain ⟨buf', hlen, h⟩ := Option.bind_eq_some_iff.mp h
  obtain ⟨_, hname, -⟩ := Option.bind_eq_some_iff.mp h
  obtain ⟨hfit, hpatch⟩ := put_eq_some hlen
  obtain ⟨hfit', -⟩ := put_eq_some hname
  rwa [← hpatch, patch_length hfit, List.length_take, Nat.min_eq_left (Nat.mod_le ..)] at hfit'

lemma utf8_array (henc : v.pathEncoding = .utf8Name) (htmp : tmppathname.length = 255)
    (h : copyPath v tmppathname dest s = some buf) : 2 + s.length % 65536 ≤ 255 := by
  simp only [copyPath, henc, Option.bind_eq_bind] at h
  obtain ⟨_, -, h⟩ := Option.bind_eq_some_iff.mp h
  obtain ⟨_, -, h⟩ := Option.bind_eq_some_iff.mp h
  obtain ⟨_, hcopy, -⟩ := Option.bind_eq_some_iff.mp h
  have hfits := array_of_counted hcopy
  rwa [htmp] at hfits

lemma long_array (henc : v.pathEncoding = .longName) (htmp : tmppathname.length = 255)
    (h : copyPath v tmppathname dest s = some buf) : 1 + s.length % 256 ≤ 255 := by
  simp only [copyPath, henc, Option.bind_eq_bind] at h
  obtain ⟨_, -, h⟩ := Option.bind_eq_some_iff.mp h
  obtain ⟨_, hcopy, -⟩ := Option.bind_eq_some_iff.mp h
  have hfits := array_of_counted hcopy
  rwa [htmp] at hfits

lemma EncodesFaithfully.copied (h : EncodesFaithfully v s) :
    ∃ tmppathname dest buf : Bytes, tmppathname.length = 255 ∧ copyPath v tmppathname dest s = some buf := by
  obtain ⟨region, -, -, hrun⟩ := h
  have h := hrun (List.replicate 255 0) (List.replicate (sizeofPathHeader v + s.length) 0)
    List.length_replicate (Nat.le_of_eq List.length_replicate.symm)
  obtain ⟨buf, hcopy, -⟩ := Option.bind_eq_some_iff.mp h
  exact ⟨_, _, buf, List.length_replicate, hcopy⟩

lemma not_encodes_of_overrun
    (h : ∀ tmppathname dest, tmppathname.length = 255 → copyPath v tmppathname dest s = none) :
    ¬ EncodesFaithfully v s := by
  intro hencodes
  obtain ⟨tmppathname, dest, buf, htmp, hcopy⟩ := hencodes.copied
  rw [h tmppathname dest htmp] at hcopy
  cases hcopy

def longestName : PathEncoding → Nat
  | .utf8Name => 253
  | .longName => 254
  | .shortName => 0

/-- A name is encoded faithfully if and only if it fits the array together with its length. -/
theorem name_encoded_iff (v : Volume) (henc : v.pathEncoding ≠ .shortName) (s : Bytes) (hs : slash ∉ s) :
    EncodesFaithfully v s ↔ s.length ≤ longestName v.pathEncoding := by
  constructor
  · intro h
    obtain ⟨tmppathname, dest, buf, htmp, hcopy⟩ := h.copied
    obtain ⟨region, -, hdecode, -⟩ := h
    cases hv : v.pathEncoding with
    | shortName => exact absurd hv henc
    | utf8Name =>
      rw [hv] at hdecode
      have hlt : s.length < 65536 := length_lt_of_decode hdecode
      have harray := utf8_array hv htmp hcopy
      rw [Nat.mod_eq_of_lt hlt] at harray
      exact Nat.le_of_add_le_add_left harray
    | longName =>
      rw [hv] at hdecode
      have hlt : s.length < 256 := length_lt_of_decode hdecode
      have harray := long_array hv htmp hcopy
      rw [Nat.mod_eq_of_lt hlt] at harray
      exact Nat.le_of_add_le_add_left harray
  · intro hlen
    cases hv : v.pathEncoding with
    | shortName => exact absurd hv henc
    | utf8Name =>
      rw [hv] at hlen
      exact encodes_of_header (writesPath_utf8 hv hlen) hs fun region => by rw [hv]; rfl
    | longName =>
      rw [hv] at hlen
      exact encodes_of_header (writesPath_long hv hlen) hs fun region => by rw [hv]; rfl

theorem name_encoded_iff_one_letter :
    EncodesFaithfully plainVolume [97] ↔ [97].length ≤ longestName plainVolume.pathEncoding :=
  name_encoded_iff plainVolume (by decide) [97] (by decide)

def utf8Volume : Volume := { plainVolume with pathEncoding := .utf8Name }

/-- `invalid_filename` accepts a name of 254 bytes in UTF-8 and one of 255 bytes as a long name, and the
array overruns with each of them. -/
theorem name_overruns_array :
    (slash ∉ List.replicate 254 97 ∧ invalidFilename utf8Volume (slash :: List.replicate 254 97) = false ∧
      ¬ EncodesFaithfully utf8Volume (List.replicate 254 97) ∧
      ∀ tmppathname dest, tmppathname.length = 255 →
        copyPath utf8Volume tmppathname dest (List.replicate 254 97) = none) ∧
    (slash ∉ List.replicate 255 97 ∧ invalidFilename plainVolume (slash :: List.replicate 255 97) = false ∧
      ¬ EncodesFaithfully plainVolume (List.replicate 255 97) ∧
      ∀ tmppathname dest, tmppathname.length = 255 →
        copyPath plainVolume tmppathname dest (List.replicate 255 97) = none) := by
  have hutf8 : ∀ tmppathname dest, tmppathname.length = 255 →
      copyPath utf8Volume tmppathname dest (List.replicate 254 97) = none := by
    intro tmppathname dest htmp
    apply Option.eq_none_iff_forall_ne_some.mpr
    intro buf hcopy
    have harray := utf8_array rfl htmp hcopy
    rw [List.length_replicate] at harray
    omega
  have hlong : ∀ tmppathname dest, tmppathname.length = 255 →
      copyPath plainVolume tmppathname dest (List.replicate 255 97) = none := by
    intro tmppathname dest htmp
    apply Option.eq_none_iff_forall_ne_some.mpr
    intro buf hcopy
    have harray := long_array rfl htmp hcopy
    rw [List.length_replicate] at harray
    omega
  exact ⟨⟨by decide, by decide +kernel, not_encodes_of_overrun hutf8, hutf8⟩,
    ⟨by decide, by decide +kernel, not_encodes_of_overrun hlong, hlong⟩⟩

end AfpfsNg.Proto
