import AfpfsNg.Dsi.Status
import AfpfsNg.Unicode.Printable

/-!
# Status replies

What a server puts into the reply to DSIGetStatus, and that `dsi_getstatus_reply` takes it out again.
`StatusFields` are the fields, with their bounds; `StatusReply` is a reply that has them, each at an offset of its own
behind the fixed part, in any order. A name stands in an array with zeros behind it.
-/

namespace AfpfsNg.Dsi
open AfpfsNg.Base AfpfsNg.Afp AfpfsNg.Proto AfpfsNg.Uam AfpfsNg.Unicode

/-- A string with its length in front. -/
def pascal (s : Bytes) : Bytes := .ofNat s.length :: s

/-- Strings with their number in front. -/
def pascalList (ss : List Bytes) : Bytes := .ofNat ss.length :: ss.flatMap pascal

/-- 16-bit words, high byte first. -/
def words (ws : List UInt16) : Bytes := ws.flatMap fun w => beBytes 2 w.toNat

structure StatusFields where
  machineType : Bytes
  versions : List Bytes
  uams : List Bytes
  flags : UInt16
  serverName : Bytes
  signature : Bytes
  utf8Name : Bytes
  machineType_size : machineType.length ≤ 16
  versions_count : versions.length ≤ 10
  versions_size : ∀ name ∈ versions, name.length ≤ 32
  uams_count : uams.length ≤ 10
  uams_size : ∀ name ∈ uams, name.length ≤ 24
  flags_utf8 : flags.toNat &&& 0x200 ≠ 0
  serverName_size : serverName.length ≤ 32
  signature_size : signature.length = 16
  utf8Name_pos : 1 ≤ utf8Name.length
  utf8Name_size : utf8Name.length ≤ 254
  utf8Name_chars : Characters utf8Name

/-- Where the fields are, from the start of the block. -/
structure Offsets where
  machine : UInt16
  version : UInt16
  uams : UInt16
  icon : UInt16
  signature : UInt16
  network : UInt16
  directory : UInt16
  utf8Name : UInt16

def Offsets.behindName (o : Offsets) (flags : UInt16) : List UInt16 :=
  o.signature :: ((if flags.toNat &&& 0x20 ≠ 0 then [o.network] else []) ++
    ((if flags.toNat &&& 0x100 ≠ 0 then [o.directory] else []) ++ [o.utf8Name]))

def StatusFields.fixed (f : StatusFields) (o : Offsets) : List UInt16 := [o.machine, o.version, o.uams, o.icon, f.flags]

/-- The offsets behind the name are at an even address. -/
def StatusFields.padding (f : StatusFields) (pad : UInt8) : Bytes := List.replicate ((11 + f.serverName.length) % 2) pad

def StatusFields.head (f : StatusFields) (o : Offsets) (pad : UInt8) : Bytes :=
  words (f.fixed o) ++ (pascal f.serverName ++ (f.padding pad ++ words (o.behindName f.flags)))

structure StatusReply (f : StatusFields) where
  dsiHeader : Bytes
  offsets : Offsets
  pad : UInt8
  rest : Bytes
  header_size : dsiHeader.length = 16
  machine : Stands (f.head offsets pad ++ rest) offsets.machine.toNat (pascal f.machineType)
  version : Stands (f.head offsets pad ++ rest) offsets.version.toNat (pascalList f.versions)
  uams : Stands (f.head offsets pad ++ rest) offsets.uams.toNat (pascalList f.uams)
  icon : 0 < offsets.icon.toNat → offsets.icon.toNat + 256 ≤ (f.head offsets pad ++ rest).length
  signature : Stands (f.head offsets pad ++ rest) offsets.signature.toNat f.signature
  signature_behind : (f.head offsets pad).length ≤ offsets.signature.toNat
  utf8Name : Stands (f.head offsets pad ++ rest) offsets.utf8Name.toNat (beBytes 2 f.utf8Name.length ++ f.utf8Name)

def StatusReply.packet {f : StatusFields} (r : StatusReply f) : Bytes := r.dsiHeader ++ (f.head r.offsets r.pad ++ r.rest)

section Strings
variable {buf s : Bytes} {x : UInt8} {p maxLen : Nat}

lemma getElem?_of_stands (h : Stands buf p (x :: s)) : buf[p]? = some x := by
  obtain ⟨hle, hs⟩ := fetch_eq_some h
  have hhead : (slice buf p (x :: s).length).head? = some x := by
    rw [hs]
    rfl
  rwa [slice, List.head?_take, if_neg (List.length_cons.trans_ne (Nat.succ_ne_zero _)), List.head?_drop] at hhead

lemma stands_tail (h : Stands buf p (x :: s)) : Stands buf (p + 1) s := Stands.right (s := [x]) h

lemma copyFromPascal_of_length (hx : buf[p]? = some x) (h : Stands buf (p + 1) s) (hlen : x.toNat ≤ s.length)
    (maxLen : Nat) : copyFromPascal buf p maxLen = some (s.take (min maxLen x.toNat)) := by
  have htake := h.take (min maxLen x.toNat)
  rw [Nat.min_eq_left (Nat.le_trans (Nat.min_le_right ..) hlen)] at htake
  rw [copyFromPascal, hx]
  exact htake

lemma copyFromPascal_cut (h : Stands buf p (pascal s)) (hs : s.length < 256) (maxLen : Nat) :
    copyFromPascal buf p maxLen = some (s.take maxLen) := by
  have hlen : (UInt8.ofNat s.length).toNat = s.length := toNat_ofNat_of_lt hs
  rw [copyFromPascal_of_length (getElem?_of_stands h) (stands_tail h) (Nat.le_of_eq hlen), hlen, ← List.take_eq_take_min]

lemma copyFromPascal_of_stands (h : Stands buf p (pascal s)) (hs : s.length ≤ maxLen) (hmax : maxLen ≤ 255) :
    copyFromPascal buf p maxLen = some s := by
  rw [copyFromPascal_cut h (by omega), List.take_of_length_le hs]

lemma pascalStrings_of_stands {ss : List Bytes} (h : Stands buf p (ss.flatMap pascal))
    (hss : ∀ s ∈ ss, s.length ≤ maxLen) (hmax : maxLen ≤ 255) : pascalStrings buf maxLen ss.length p = some ss := by
  induction ss generalizing p with
  | nil => rfl
  | cons s ss ih =>
    have hfirst := copyFromPascal_of_stands (Stands.left h) (hss s (.head _)) hmax
    have hrest := ih (Stands.right h) fun t ht => hss t (.tail _ ht)
    have hlen : (pascal s).length = s.length + 1 := rfl
    rw [hlen] at hrest
    simp only [List.length_cons, pascalStrings, hfirst, hrest, bind, Option.bind, pure]

lemma min_count {ss : List Bytes} (h : ss.length ≤ 10) : min 10 (UInt8.ofNat ss.length).toNat = ss.length := by
  rw [toNat_ofNat_of_lt (by omega), Nat.min_eq_right h]

lemma dsiParseVersions_of_stands {ss : List Bytes} (h : Stands buf p (pascalList ss)) (hcount : ss.length ≤ 10)
    (hss : ∀ s ∈ ss, s.length ≤ 32) :
    dsiParseVersions buf p = some (padded 10 (ss.filterMap fun name => versionNumber (cString name))) := by
  have hnames := pascalStrings_of_stands (stands_tail h) (fun s hs => Nat.le_succ_of_le (hss s hs)) (by decide : 33 ≤ 255)
  simp only [dsiParseVersions, getElem?_of_stands h, bind, Option.bind, min_count hcount, hnames, pure]

lemma dsiParseUams_of_stands {ss : List Bytes} (h : Stands buf p (pascalList ss)) (hcount : ss.length ≤ 10)
    (hss : ∀ s ∈ ss, s.length ≤ 24) :
    dsiParseUams buf p = some (ss.foldl (fun uams name => uams ||| uamStringToBitmap (cString name)) 0) := by
  have hnames := pascalStrings_of_stands (stands_tail h) hss (by decide : 24 ≤ 255)
  simp only [dsiParseUams, getElem?_of_stands h, bind, Option.bind, min_count hcount, hnames, pure]

end Strings

section Arrays
variable {names : Block 832} {buf s : Bytes} {p maxLen : Nat}

lemma copyToArray_of_stands (names : Block 832) (dest : Nat) (h : Stands buf p (pascal s)) (hs : s.length ≤ maxLen) (hmax : maxLen ≤ 255)
    (hdest : dest + maxLen ≤ 832) :
    ∃ names', copyToArray names dest buf p maxLen = some (s, names') ∧ names.put dest (padded maxLen s) = some names' := by
  obtain ⟨names', hput⟩ := names.put_of_le dest (padded maxLen s) (by rwa [length_padded hs])
  refine ⟨names', ?_, hput⟩
  simp only [copyToArray, copyFromPascal_of_stands h hs hmax, hput, bind, Option.bind, pure]

lemma printName_of_array {name : Bytes} (harray : names.array 33 255 = padded 255 name) (hsize : name.length ≤ 254)
    (hname : Characters name) :
    ∃ t names', printName names = some names' ∧ names.put 288 t = some names' ∧ t.length ≤ 255 := by
  have hdrop : names.bytes.drop 33 = name ++ 0 :: (List.replicate (254 - name.length) 0 ++ names.bytes.drop 288) := by
    have hpad : padded 255 name = name ++ 0 :: List.replicate (254 - name.length) 0 := by
      rw [padded, show 255 - name.length = (254 - name.length) + 1 by omega, List.replicate_succ]
    have hsplit : names.bytes.drop 33 = names.array 33 255 ++ names.bytes.drop 288 := by
      rw [Block.array, slice, ← List.drop_drop (i := 255) (j := 33), List.take_append_drop]
    rw [hsplit, harray, hpad, List.append_assoc]
    rfl
  obtain ⟨us, hus, hlen, hwritten⟩ := reads_of_characters hname (List.replicate (254 - name.length) 0 ++ names.bytes.drop 288)
  rw [← hdrop] at hus
  obtain ⟨t, ht, hle⟩ := hus.decToPre 544 (by omega) (by omega)
  have htlen : (t ++ [0]).length ≤ 255 := by
    rw [List.length_append, List.length_singleton]
    omega
  obtain ⟨names', hput⟩ := names.put_of_le 288 (t ++ [0]) (by omega)
  refine ⟨t ++ [0], names', ?_, hput, htlen⟩
  simp only [printName, ht, bind, Option.bind, hput]

end Arrays

lemma stands_words (a c : Bytes) (ws vs : List UInt16) (w : UInt16) :
    Stands (a ++ (words (ws ++ w :: vs) ++ c)) (a.length + 2 * ws.length) (beBytes 2 w.toNat) := by
  have hlen : (words ws).length = 2 * ws.length := by
    induction ws with
    | nil => rfl
    | cons v ws ih =>
      rw [words, List.flatMap_cons, List.length_append, length_beBytes, List.length_cons]
      rw [words] at ih
      omega
  have hsplit : a ++ (words (ws ++ w :: vs) ++ c) = a ++ (words ws ++ (beBytes 2 w.toNat ++ (words vs ++ c))) := by
    simp only [words, List.flatMap_append, List.flatMap_cons, List.append_assoc]
  rw [hsplit, ← hlen]
  exact (stands_mid (words ws) (beBytes 2 w.toNat) (words vs ++ c)).shift a

lemma beNat_word (w : UInt16) : beNat (beBytes 2 w.toNat) = w.toNat := beNat_beBytes_of_lt w.toNat_lt

section Reply
variable {f : StatusFields} (r : StatusReply f)

lemma stands_packet {off : Nat} {s : Bytes} (h : Stands (f.head r.offsets r.pad ++ r.rest) off s) :
    Stands r.packet (16 + off) s := by
  have := h.shift r.dsiHeader
  rwa [r.header_size] at this

lemma fixed_word (ws vs : List UInt16) (w : UInt16) (h : f.fixed r.offsets = ws ++ w :: vs) :
    beNat (slice r.packet (16 + 2 * ws.length) 2) = w.toNat := by
  have hstands := stands_words r.dsiHeader
    (pascal f.serverName ++ (f.padding r.pad ++ words (r.offsets.behindName f.flags)) ++ r.rest) ws vs w
  rw [← h, ← List.append_assoc (words _), r.header_size] at hstands
  have hslice := (fetch_eq_some hstands).2
  rw [length_beBytes] at hslice
  exact (congrArg beNat hslice).trans (beNat_word w)

lemma length_fixed : (words (f.fixed r.offsets)).length = 10 := rfl

lemma stands_serverName : Stands r.packet 26 (pascal f.serverName) := by
  have hstands := stands_mid (r.dsiHeader ++ words (f.fixed r.offsets)) (pascal f.serverName)
    ((f.padding r.pad ++ words (r.offsets.behindName f.flags)) ++ r.rest)
  rw [List.length_append, r.header_size, length_fixed] at hstands
  simpa only [StatusReply.packet, StatusFields.head, List.append_assoc] using hstands

def afterName (f : StatusFields) : Nat := 27 + f.serverName.length + (27 + f.serverName.length) % 2

lemma stands_behindName (ws vs : List UInt16) (w : UInt16) (h : r.offsets.behindName f.flags = ws ++ w :: vs) :
    Stands r.packet (afterName f + 2 * ws.length) (beBytes 2 w.toNat) := by
  have hstands := stands_words (r.dsiHeader ++ (words (f.fixed r.offsets) ++ (pascal f.serverName ++ f.padding r.pad)))
    r.rest ws vs w
  have hlen : (r.dsiHeader ++ (words (f.fixed r.offsets) ++ (pascal f.serverName ++ f.padding r.pad))).length =
      afterName f := by
    have hpascal : (pascal f.serverName).length = f.serverName.length + 1 := rfl
    rw [List.length_append, List.length_append, List.length_append, r.header_size, length_fixed, hpascal,
      StatusFields.padding, List.length_replicate, afterName]
    omega
  rw [hlen, ← h] at hstands
  simpa only [StatusReply.packet, StatusFields.head, List.append_assoc] using hstands

lemma stands_signatureOffset : Stands r.packet (afterName f) (beBytes 2 r.offsets.signature.toNat) :=
  stands_behindName r [] _ _ rfl

def utf8OffsetAt (f : StatusFields) : Nat :=
  let p := afterName f + 2
  let p := if f.flags.toNat &&& 0x20 ≠ 0 then p + 2 else p
  if f.flags.toNat &&& 0x100 ≠ 0 then p + 2 else p

lemma stands_utf8Offset : Stands r.packet (utf8OffsetAt f) (beBytes 2 r.offsets.utf8Name.toNat) := by
  have hsplit : r.offsets.behindName f.flags =
      (r.offsets.signature :: ((if f.flags.toNat &&& 0x20 ≠ 0 then [r.offsets.network] else []) ++
        (if f.flags.toNat &&& 0x100 ≠ 0 then [r.offsets.directory] else []))) ++ [r.offsets.utf8Name] := by
    rw [Offsets.behindName, List.cons_append, List.append_assoc]
  have hlast := stands_behindName r _ _ _ hsplit
  rw [utf8OffsetAt]
  split at hlast
  case isTrue htcp =>
    split at hlast
    case isTrue hdir =>
      simp only [if_pos hdir, if_pos htcp]
      exact hlast
    case isFalse hdir =>
      simp only [if_neg hdir, if_pos htcp]
      exact hlast
  case isFalse htcp =>
    split at hlast
    case isTrue hdir =>
      simp only [if_pos hdir, if_neg htcp]
      exact hlast
    case isFalse hdir =>
      simp only [if_neg hdir, if_neg htcp]
      exact hlast

lemma packet_size : ¬ r.packet.length < 34 := by
  have hsignature := r.signature.le
  have hbehind := r.signature_behind
  have hsize := f.signature_size
  have hhead : 10 ≤ (f.head r.offsets r.pad).length := by
    rw [StatusFields.head, List.length_append, length_fixed]
    exact Nat.le_add_right ..
  rw [StatusReply.packet, List.length_append, r.header_size]
  omega

lemma utf8Name_of_stands (names : Block 832) :
    ∃ names₁ names₂ t, utf8Name names r.packet (16 + r.offsets.utf8Name.toNat) = some names₂ ∧
      names.put 33 (padded 255 f.utf8Name) = some names₁ ∧ names₁.put 288 t = some names₂ ∧ t.length ≤ 255 := by
  have hpos := f.utf8Name_pos
  have hsize := f.utf8Name_size
  have hpascal : Stands r.packet (16 + r.offsets.utf8Name.toNat + 1) (pascal f.utf8Name) := by
    have hlen : beBytes 2 f.utf8Name.length ++ f.utf8Name = 0 :: pascal f.utf8Name := by
      have hhigh : f.utf8Name.length / 256 = 0 := Nat.div_eq_of_lt (by omega)
      show [UInt8.ofNat (f.utf8Name.length / 256), UInt8.ofNat f.utf8Name.length] ++ f.utf8Name = _
      rw [hhigh]
      rfl
    have hstands := stands_packet r r.utf8Name
    rw [hlen] at hstands
    exact stands_tail hstands
  obtain ⟨names₁, hcopy, hput⟩ := copyToArray_of_stands names 33 hpascal (Nat.le_succ_of_le hsize)
    (Nat.le_refl 255) (by decide)
  have harray : names₁.array 33 255 = padded 255 f.utf8Name := Block.array_put_padded hput (Nat.le_succ_of_le hsize)
  obtain ⟨t, names₂, hprint, hput₂, ht⟩ := printName_of_array harray hsize f.utf8Name_chars
  have hne : f.utf8Name ≠ [] := List.length_pos_iff.mp hpos
  refine ⟨names₁, names₂, t, ?_, hput, hput₂, ht⟩
  simp only [utf8Name, hcopy, bind, Option.bind, if_neg hne, hprint]

end Reply

/-- The fields are those of `f`, with zeros behind the strings and the versions. -/
structure Decoded (f : StatusFields) (server : StatusInfo) : Prop where
  machineType : server.machineType = padded 17 f.machineType
  flags : server.flags = f.flags.toNat
  serverName : server.serverName = padded 33 f.serverName
  signature : server.signature = f.signature
  serverNameUtf8 : server.serverNameUtf8 = padded 255 f.utf8Name
  versions : server.versions = padded 10 (f.versions.filterMap fun name => versionNumber (cString name))
  supportedUams : server.supportedUams = f.uams.foldl (fun uams name => uams ||| uamStringToBitmap (cString name)) 0

lemma icon_copied {f : StatusFields} (r : StatusReply f) (names : Block 832) :
    ∃ names', copyIcon names r.packet r.offsets.icon.toNat = some names' ∧
      ∀ i len, i + len ≤ 560 → names'.array i len = names.array i len := by
  rw [copyIcon]
  split
  case isTrue hpos =>
    have hle : 16 + r.offsets.icon.toNat + 256 ≤ r.packet.length := by
      have := r.icon hpos
      rw [StatusReply.packet, List.length_append, r.header_size]
      omega
    have hsize := slice_length hle
    obtain ⟨names', hput⟩ := names.put_of_le 560 (slice r.packet (16 + r.offsets.icon.toNat) 256) (by rw [hsize]; decide)
    refine ⟨names', ?_, fun i len hi => Block.array_put_of_disjoint hput (.inl hi)⟩
    rw [fetch_of_le hle]
    exact hput
  case isFalse => exact ⟨names, rfl, fun _ _ _ => rfl⟩

lemma arrays_of_puts {f : StatusFields} {names names₁ names₂ names₃ names₄ names₅ names₆ : Block 832} {t : Bytes}
    (hput₁ : names.put 543 (padded 33 f.machineType) = some names₁)
    (hkeep₂ : ∀ i len, i + len ≤ 560 → names₂.array i len = names₁.array i len)
    (hput₃ : names₂.put 0 (padded 33 f.serverName) = some names₃) (hput₄ : names₃.put 816 f.signature = some names₄)
    (hput₅ : names₄.put 33 (padded 255 f.utf8Name) = some names₅) (hput₆ : names₅.put 288 t = some names₆)
    (ht : t.length ≤ 255) :
    names₆.array 543 17 = padded 17 f.machineType ∧ names₆.array 0 33 = padded 33 f.serverName ∧
      names₆.array 816 16 = f.signature ∧ names₆.array 33 255 = padded 255 f.utf8Name := by
  have hmachine := f.machineType_size
  have hname := f.serverName_size
  have hsignature := f.signature_size
  have hutf8 := f.utf8Name_size
  have hlen₁ : (padded 33 f.machineType).length = 33 := length_padded (by omega)
  have hlen₃ : (padded 33 f.serverName).length = 33 := length_padded (by omega)
  have hlen₅ : (padded 255 f.utf8Name).length = 255 := length_padded (by omega)
  refine ⟨?_, ?_, ?_, ?_⟩
  · calc names₆.array 543 17
      _ = names₅.array 543 17 := Block.array_put_of_disjoint hput₆ (by omega)
      _ = names₄.array 543 17 := Block.array_put_of_disjoint hput₅ (by omega)
      _ = names₃.array 543 17 := Block.array_put_of_disjoint hput₄ (by omega)
      _ = names₂.array 543 17 := Block.array_put_of_disjoint hput₃ (by omega)
      _ = names₁.array 543 17 := hkeep₂ 543 17 (by decide)
      _ = (padded 33 f.machineType).take 17 := Block.array_put hput₁ (by omega)
      _ = padded 17 f.machineType := take_padded (by omega) (by decide)
  · calc names₆.array 0 33
      _ = names₅.array 0 33 := Block.array_put_of_disjoint hput₆ (by omega)
      _ = names₄.array 0 33 := Block.array_put_of_disjoint hput₅ (by omega)
      _ = names₃.array 0 33 := Block.array_put_of_disjoint hput₄ (by omega)
      _ = padded 33 f.serverName := Block.array_put_padded hput₃ (by omega)
  · calc names₆.array 816 16
      _ = names₅.array 816 16 := Block.array_put_of_disjoint hput₆ (by omega)
      _ = names₄.array 816 16 := Block.array_put_of_disjoint hput₅ (by omega)
      _ = f.signature.take 16 := Block.array_put hput₄ (by omega)
      _ = f.signature := List.take_of_length_le (by omega)
  · calc names₆.array 33 255
      _ = names₅.array 33 255 := Block.array_put_of_disjoint hput₆ (by omega)
      _ = padded 255 f.utf8Name := Block.array_put_padded hput₅ (by omega)

/-- Every reply with these fields is decoded, whatever the offsets. -/
theorem getstatus_decodes (iconv : Bytes → Bytes) (server : StatusInfo) (f : StatusFields) (r : StatusReply f) :
    ∃ server', dsiGetstatusReply iconv server r.packet = some server' ∧ Decoded f server' := by
  have hmachine : beNat (slice r.packet 16 2) = r.offsets.machine.toNat := fixed_word r [] _ _ rfl
  have hversion : beNat (slice r.packet 18 2) = r.offsets.version.toNat := fixed_word r [_] _ _ rfl
  have huams : beNat (slice r.packet 20 2) = r.offsets.uams.toNat := fixed_word r [_, _] _ _ rfl
  have hicon : beNat (slice r.packet 22 2) = r.offsets.icon.toNat := fixed_word r [_, _, _] _ _ rfl
  have hflags : beNat (slice r.packet 24 2) = f.flags.toNat := fixed_word r [_, _, _, _] _ _ rfl
  have hsixteen := f.machineType_size
  have hname := f.serverName_size
  obtain ⟨names₁, hcopy₁, hput₁⟩ := copyToArray_of_stands server.names 543 (stands_packet r r.machine)
    (by omega : f.machineType.length ≤ 33) (by decide) (by decide)
  have hversions := dsiParseVersions_of_stands (stands_packet r r.version) f.versions_count f.versions_size
  have hmethods := dsiParseUams_of_stands (stands_packet r r.uams) f.uams_count f.uams_size
  obtain ⟨names₂, hnames₂, hkeep₂⟩ := icon_copied r names₁
  obtain ⟨names₃, hcopy₃, hput₃⟩ := copyToArray_of_stands names₂ 0 (stands_serverName r)
    (by omega : f.serverName.length ≤ 33) (by decide) (by decide)
  have hoffset : fetch r.packet (afterName f) 2 = some (beBytes 2 r.offsets.signature.toNat) := stands_signatureOffset r
  have hsignature : fetch r.packet (16 + r.offsets.signature.toNat) 16 = some f.signature := by
    have := stands_packet r r.signature
    rwa [Stands, f.signature_size] at this
  obtain ⟨names₄, hput₄⟩ := names₃.put_of_le 816 f.signature (by rw [f.signature_size])
  have hutf8 : fetch r.packet (utf8OffsetAt f) 2 = some (beBytes 2 r.offsets.utf8Name.toNat) := stands_utf8Offset r
  obtain ⟨names₅, names₆, t, hprint, hput₅, hput₆, ht⟩ := utf8Name_of_stands r names₄
  have hprintable : printableName iconv f.flags.toNat names₄ r.packet (utf8OffsetAt f) = some names₆ := by
    rw [printableName, if_pos f.flags_utf8, hutf8]
    show utf8Name names₄ r.packet (16 + beNat (beBytes 2 r.offsets.utf8Name.toNat)) = _
    rw [beNat_word, hprint]
  have hrun : dsiGetstatusReply iconv server r.packet = some ⟨names₆, f.flags.toNat,
      f.uams.foldl (fun uams name => uams ||| uamStringToBitmap (cString name)) 0,
      padded 10 (f.versions.filterMap fun name => versionNumber (cString name))⟩ := by
    have hp : 26 + (f.serverName.length + 1) + (26 + (f.serverName.length + 1)) % 2 = afterName f := by
      rw [afterName]
      omega
    simp only [dsiGetstatusReply, if_neg (packet_size r), hmachine, hversion, huams, hicon, hflags, hcopy₁, hversions,
      hmethods, hnames₂, hcopy₃, hp, hoffset, hsignature, beNat_word, hput₄, bind, Option.bind, pure]
    show (printableName iconv f.flags.toNat names₄ r.packet (utf8OffsetAt f)).bind _ = _
    rw [hprintable]
    rfl
  obtain ⟨h₁, h₂, h₃, h₄⟩ := arrays_of_puts hput₁ hkeep₂ hput₃ hput₄ hput₅ hput₆ ht
  exact ⟨_, hrun, h₁, rfl, h₂, h₃, h₄, rfl, rfl⟩

def sampleFields : StatusFields where
  machineType := [77]
  versions := [[65, 70, 80, 51, 46, 49]]
  uams := [[68, 72, 88, 50]]
  flags := 0x220
  serverName := [78, 65]
  signature := [1, 2, 3, 4, 5, 6, 7, 8, 9, 10, 11, 12, 13, 14, 15, 16]
  utf8Name := [0xc3, 0xa4]
  machineType_size := by decide
  versions_count := by decide
  versions_size := by decide
  uams_count := by decide
  uams_size := by decide
  flags_utf8 := by decide
  serverName_size := by decide
  signature_size := by decide
  utf8Name_pos := by decide
  utf8Name_size := by decide
  utf8Name_chars := .cons (.sequence (.two (by decide) (by decide) ⟨by decide, by decide⟩)) .nil

def sampleReply : StatusReply sampleFields where
  dsiHeader := List.replicate 16 0
  offsets := ⟨36, 38, 46, 0, 20, 56, 0, 52⟩
  pad := 0
  rest := sampleFields.signature ++ (pascal sampleFields.machineType ++ (pascalList sampleFields.versions ++
    (pascalList sampleFields.uams ++ ([0, 2] ++ sampleFields.utf8Name))))
  header_size := (Block.zeros 16).size
  machine := by decide
  version := by decide
  uams := by decide
  icon := by decide
  signature := by decide
  signature_behind := by decide
  utf8Name := by decide

theorem getstatus_decodes_sample :
    ∃ server', dsiGetstatusReply id ⟨⟨List.replicate 832 0, List.length_replicate⟩, 0, 0, []⟩ sampleReply.packet =
        some server' ∧ Decoded sampleFields server' :=
  getstatus_decodes id _ sampleFields sampleReply

end AfpfsNg.Dsi
