import AfpfsNg.Base.Arrays
import AfpfsNg.Proto.Names
import AfpfsNg.Proto.ReplyBlock

/-!
# Setting parameters

`afp_setparms_lowlevel` (`lib/proto_files.c`) builds the request for FPSetFileParms, FPSetDirParms and
FPSetFileDirParms: a header, a path, and at the next even address the parameters that a bitmap selects, here a table of
blocks. `p` is a pointer to `char`, so the block of the attributes stores one byte, the lower one of `htons(attributes)` on a
little-endian machine, and leaves the next one 0.
-/

namespace AfpfsNg.Proto
open AfpfsNg.Base AfpfsNg.Afp

structure SetField where
  bit : Nat
  width : Nat
  bytes : AfpFileInfo → Bytes

def adDateFromUnix (date : UInt32) : Bytes := beBytes 4 (date - adDateDelta).toNat

/-- What C `htons` leaves in one byte. -/
def htonsByte (x : UInt16) : UInt8 := .ofNat (x.toNat / 256)

/-- C `struct afp_unixprivs` with its components converted. -/
def Unixprivs.bytes (u : Unixprivs) : Bytes :=
  beBytes 4 u.uid.toNat ++ (beBytes 4 u.gid.toNat ++ (beBytes 4 u.permissions.toNat ++ beBytes 4 u.uaPermissions.toNat))

lemma Unixprivs.length_bytes (u : Unixprivs) : u.bytes.length = 16 := by
  simp only [Unixprivs.bytes, List.length_append, length_beBytes]

def setFields : List SetField :=
  [ ⟨kFPAttributeBit, 2, fun fp => [htonsByte fp.attributes]⟩,
    ⟨kFPCreateDateBit, 4, fun fp => adDateFromUnix fp.creationDate⟩,
    ⟨kFPModDateBit, 4, fun fp => adDateFromUnix fp.modificationDate⟩,
    ⟨kFPBackupDateBit, 4, fun fp => adDateFromUnix fp.backupDate⟩,
    ⟨kFPFinderInfoBit, 32, fun fp => fp.finderinfo.take 32⟩,
    ⟨kFPUnixPrivsBit, 16, fun fp => fp.unixprivs.bytes⟩ ]

/-- Write the selected blocks from `p` on: where the pointer is in the end, and the message. -/
def writeFields (bitmap : Nat) (fp : AfpFileInfo) : List SetField → Nat → Bytes → Option (Nat × Bytes)
  | [], p, msg => some (p, msg)
  | f :: fs, p, msg =>
    if bitmap &&& f.bit = 0 then writeFields bitmap fp fs p msg
    else (put msg p (f.bytes fp)).bind fun msg => writeFields bitmap fp fs (p + f.width) msg

/-- Where the parameters start. The message is at an even address. -/
def parmsAt (v : Volume) (pathname : Bytes) : Nat :=
  let p := 26 + sizeofPathHeader v + pathname.length
  p + p % 2

def setparmsFields (command : UInt8) (volid : UInt16) (dirid : UInt32) (bitmap : UInt16) : Bytes :=
  [command, 0] ++ (beBytes 2 volid.toNat ++ (beBytes 4 dirid.toNat ++ beBytes 2 bitmap.toNat))

/-- C `afp_setparms_lowlevel`: the bytes that `dsi_send` is given. `tmppathname` is what the array of `copy_path` holds
before. -/
def afpSetparmsLowlevel (v : Volume) (dsiHeader : Block 16) (tmppathname : Block 255) (volid : UInt16) (dirid : UInt32)
    (pathname : Bytes) (bitmap : UInt16) (fp : AfpFileInfo) (command : UInt8) : Option Bytes := do
  let msg := List.replicate (26 + sizeofPathHeader v + pathname.length + 200 + 1) 0
  let msg ← put msg 0 dsiHeader.bytes
  let msg ← put msg 16 (setparmsFields command volid dirid bitmap)
  let path ← (copyPath v tmppathname.bytes (msg.drop 26) pathname).bind (unixpathToAfppath v)
  let (p, msg) ← writeFields bitmap.toNat fp setFields (parmsAt v pathname) (msg.take 26 ++ path)
  fetch msg 0 p

def parmsBlock (bitmap : Nat) (fp : AfpFileInfo) (fs : List SetField) : Bytes :=
  (fs.filter fun f => bitmap &&& f.bit ≠ 0).flatMap fun f => padded f.width (f.bytes fp)

section Write
variable {bitmap : Nat} {fp : AfpFileInfo} {f : SetField} {fs : List SetField}

lemma parmsBlock_skip (h : bitmap &&& f.bit = 0) : parmsBlock bitmap fp (f :: fs) = parmsBlock bitmap fp fs := by
  rw [parmsBlock, List.filter_cons_of_neg (by simp [h])]
  rfl

lemma parmsBlock_take (h : bitmap &&& f.bit ≠ 0) :
    parmsBlock bitmap fp (f :: fs) = padded f.width (f.bytes fp) ++ parmsBlock bitmap fp fs := by
  rw [parmsBlock, List.filter_cons_of_pos (by simp [h])]
  rfl

lemma writeFields_zeros (bitmap : Nat) (hfs : ∀ f ∈ fs, (f.bytes fp).length ≤ f.width) (pre : Bytes) (room : Nat)
    (hroom : (fs.map SetField.width).sum ≤ room) :
    ∃ rest, writeFields bitmap fp fs pre.length (pre ++ List.replicate room 0) =
      some (pre.length + (parmsBlock bitmap fp fs).length, pre ++ parmsBlock bitmap fp fs ++ List.replicate rest 0) := by
  induction fs generalizing pre room with
  | nil =>
    have hnil : parmsBlock bitmap fp [] = [] := rfl
    refine ⟨room, ?_⟩
    rw [hnil, List.append_nil]
    rfl
  | cons f fs ih =>
    rw [List.map_cons, List.sum_cons] at hroom
    have hfs' : ∀ g ∈ fs, (g.bytes fp).length ≤ g.width := fun g hg => hfs g (.tail _ hg)
    rw [writeFields]
    split
    case isTrue hbit =>
      rw [parmsBlock_skip hbit]
      exact ih hfs' pre room (by omega)
    case isFalse hbit =>
      have hf := hfs f (.head _)
      have hput : put (pre ++ List.replicate room 0) pre.length (f.bytes fp) =
          some ((pre ++ padded f.width (f.bytes fp)) ++ List.replicate (room - f.width) 0) := by
        rw [put_append pre rfl (by rw [List.length_replicate]; omega), List.drop_replicate, padded, List.append_assoc,
          List.append_assoc, List.replicate_append_replicate]
        congr 4
        omega
      obtain ⟨rest, hrest⟩ := ih hfs' (pre ++ padded f.width (f.bytes fp)) (room - f.width) (by omega)
      refine ⟨rest, ?_⟩
      rw [hput, Option.bind_some, parmsBlock_take hbit]
      rw [List.length_append, length_padded hf] at hrest
      rw [hrest, List.length_append, length_padded hf, List.append_assoc pre, Nat.add_assoc]

end Write

lemma setFields_size (fp : AfpFileInfo) : ∀ f ∈ setFields, (f.bytes fp).length ≤ f.width := by
  intro f hf
  simp only [setFields, List.mem_cons, List.not_mem_nil, or_false] at hf
  obtain rfl | rfl | rfl | rfl | rfl | rfl := hf
  · exact (by decide : 1 ≤ 2)
  · exact Nat.le_of_eq (length_beBytes ..)
  · exact Nat.le_of_eq (length_beBytes ..)
  · exact Nat.le_of_eq (length_beBytes ..)
  · exact List.length_take_le 32 _
  · exact Nat.le_of_eq (Unixprivs.length_bytes _)

section Message
variable {v : Volume} {pathname : Bytes}

lemma exists_writesPath (henc : v.pathEncoding ≠ .shortName) (hname : pathname.length ≤ 253) :
    ∃ lead w, WritesPath v lead w pathname := by
  cases hv : v.pathEncoding with
  | shortName => exact absurd hv henc
  | longName => exact ⟨_, _, writesPath_long hv (Nat.le_succ_of_le hname)⟩
  | utf8Name => exact ⟨_, _, writesPath_utf8 hv hname⟩

lemma afpSetparmsLowlevel_eq (henc : v.pathEncoding ≠ .shortName) (dsiHeader : Block 16) (tmppathname : Block 255)
    (volid : UInt16) (dirid : UInt32) (hname : pathname.length ≤ 253) (bitmap : UInt16) (fp : AfpFileInfo)
    (command : UInt8) :
    ∃ front : Bytes, front.length = parmsAt v pathname ∧
      afpSetparmsLowlevel v dsiHeader tmppathname volid dirid pathname bitmap fp command =
        some (front ++ parmsBlock bitmap.toNat fp setFields) := by
  obtain ⟨lead, w, hpath⟩ := exists_writesPath henc hname
  let fields := setparmsFields command volid dirid bitmap
  let zeros := List.replicate (26 + sizeofPathHeader v + pathname.length + 200 + 1) (0 : UInt8)
  have hfields : fields.length = 10 := rfl
  have hzeros : zeros.length = 26 + sizeofPathHeader v + pathname.length + 200 + 1 := List.length_replicate
  have hheader : put zeros 0 dsiHeader.bytes = some (dsiHeader.bytes ++ zeros.drop 16) :=
    put_zero dsiHeader.size (by omega)
  have hrequest : put (dsiHeader.bytes ++ zeros.drop 16) 16 fields =
      some ((dsiHeader.bytes ++ fields) ++ zeros.drop 26) := put_next dsiHeader.size (by omega)
  have hlength : (dsiHeader.bytes ++ fields).length = 26 := by rw [List.length_append, dsiHeader.size, hfields]
  have hregion := length_pathRegion lead w pathname
  rw [← hpath.size] at hregion
  have hrun : (copyPath v tmppathname.bytes (zeros.drop 26) pathname).bind (unixpathToAfppath v) =
      some (pathRegion lead w pathname ++ List.replicate 201 0) := by
    rw [hpath.run tmppathname.size (by rw [List.length_drop]; omega), List.drop_drop, List.drop_replicate, hregion]
    congr 3
    omega
  let p := 26 + sizeofPathHeader v + pathname.length
  let front := (dsiHeader.bytes ++ fields) ++ (pathRegion lead w pathname ++ List.replicate (p % 2) 0)
  have hfront : front.length = parmsAt v pathname := by
    show ((dsiHeader.bytes ++ fields) ++ (pathRegion lead w pathname ++ List.replicate (p % 2) 0)).length = p + p % 2
    rw [List.length_append, hlength, List.length_append, hregion, List.length_replicate]
    omega
  have hsplit : (dsiHeader.bytes ++ fields) ++ (pathRegion lead w pathname ++ List.replicate 201 0) =
      front ++ List.replicate (201 - p % 2) 0 := by
    have hpad : List.replicate 201 (0 : UInt8) = List.replicate (p % 2) 0 ++ List.replicate (201 - p % 2) 0 := by
      rw [List.replicate_append_replicate]
      congr 1
      omega
    rw [hpad]
    simp only [front, List.append_assoc]
  obtain ⟨rest, hwrite⟩ := writeFields_zeros bitmap.toNat (setFields_size fp) front (201 - p % 2) (by
    have hsum : (setFields.map SetField.width).sum = 62 := rfl
    omega)
  refine ⟨front, hfront, ?_⟩
  have htake : ((dsiHeader.bytes ++ fields) ++ zeros.drop 26).take 26 = dsiHeader.bytes ++ fields :=
    List.take_left' hlength
  have hdrop : ((dsiHeader.bytes ++ fields) ++ zeros.drop 26).drop 26 = zeros.drop 26 := List.drop_left' hlength
  have hend : (front ++ parmsBlock bitmap.toNat fp setFields).length =
      front.length + (parmsBlock bitmap.toNat fp setFields).length := List.length_append
  simp only [afpSetparmsLowlevel, Option.bind_eq_bind]
  rw [hheader, Option.bind_some, hrequest, Option.bind_some, hdrop, hrun, Option.bind_some, htake, hsplit, ← hfront, hwrite,
    Option.bind_some, fetch_zero _ hend]

end Message

def setMask : Nat := 0x803d

def setParams (fp : AfpFileInfo) (hfinder : fp.finderinfo.length = 32) : Params where
  attributes := .ofNat (256 * (fp.attributes.toNat / 256))
  parentDirID := 0
  createDate := fp.creationDate - adDateDelta
  modDate := fp.modificationDate - adDateDelta
  backupDate := fp.backupDate - adDateDelta
  finderInfo := fp.finderinfo
  longName := []
  shortName := []
  nodeID := 0
  offspring := 0
  owner := 0
  group := 0
  accessRights := 0
  dataForkLen := 0
  rsrcForkLen := 0
  extDataForkLen := 0
  launchLimit := 0
  textEncoding := 0
  utf8Name := []
  extRsrcForkLen := 0
  unixprivs := fp.unixprivs
  finderInfo_length := hfinder
  longName_length := length_nil_lt_pascal
  shortName_length := length_nil_lt_pascal
  utf8Name_length := length_nil_lt_path

section Parts
variable {bitmap : Nat} {fp : AfpFileInfo}

lemma layout_fixed (bitmap : Nat) (fs : List SetField) :
    layout bitmap (fs.map fun f => (f.bit, .fixed (padded f.width (f.bytes fp)))) = parmsBlock bitmap fp fs := by
  have hfixed (off : Nat) (gs : List SetField) :
      fixedPart off (gs.map fun f => .fixed (padded f.width (f.bytes fp))) ++
        (gs.map fun f => Part.fixed (padded f.width (f.bytes fp))).flatMap Part.away =
      gs.flatMap fun f => padded f.width (f.bytes fp) := by
    induction gs with
    | nil => rfl
    | cons g gs ih =>
      rw [List.map_cons, fixedPart, List.flatMap_cons, List.flatMap_cons, List.append_assoc]
      exact congrArg _ ih
  have hselected : selected bitmap (fs.map fun f => (f.bit, Part.fixed (padded f.width (f.bytes fp)))) =
      (fs.filter fun f => bitmap &&& f.bit ≠ 0).map fun f => .fixed (padded f.width (f.bytes fp)) := by
    rw [selected, List.filter_map, List.map_map]
    rfl
  rw [layout, hselected]
  exact hfixed _ _

lemma padded_htonsByte (x : UInt16) :
    padded 2 [htonsByte x] = beBytes 2 (UInt16.ofNat (256 * (x.toNat / 256))).toNat := by
  have hlt := x.toNat_lt
  have hvalue : (UInt16.ofNat (256 * (x.toNat / 256))).toNat = 256 * (x.toNat / 256) := by
    rw [UInt16.toNat_ofNat']
    omega
  have hhigh : 256 * (x.toNat / 256) / 256 = x.toNat / 256 := Nat.mul_div_cancel_left _ (by decide)
  have hlow : UInt8.ofNat (256 * (x.toNat / 256)) = 0 := by
    apply UInt8.toNat_inj.mp
    rw [UInt8.toNat_ofNat']
    exact Nat.mul_mod_right 256 _
  rw [hvalue]
  show [htonsByte x, 0] = [UInt8.ofNat (256 * (x.toNat / 256) / 256), UInt8.ofNat (256 * (x.toNat / 256))]
  rw [hhigh, hlow]
  rfl

lemma padded_finderinfo (h : fp.finderinfo.length = 32) : padded 32 (fp.finderinfo.take 32) = fp.finderinfo := by
  rw [List.take_of_length_le (Nat.le_of_eq h), padded_of_length h]

lemma refParts_filter (isdir : Bool) (P : Params) :
    (refParts isdir P).filter (fun p => setMask &&& p.1 ≠ 0) =
      [(kFPAttributeBit, .fixed (beBytes 2 P.attributes.toNat)),
        (kFPCreateDateBit, .fixed (beBytes 4 P.createDate.toNat)),
        (kFPModDateBit, .fixed (beBytes 4 P.modDate.toNat)),
        (kFPBackupDateBit, .fixed (beBytes 4 P.backupDate.toNat)),
        (kFPFinderInfoBit, .fixed P.finderInfo),
        (kFPUnixPrivsBit, .fixed P.unixprivs.bytes)] := by
  have hcommon : (refParts.common P).filter (fun p => setMask &&& p.1 ≠ 0) =
      [(0x1, .fixed (beBytes 2 P.attributes.toNat)), (0x4, .fixed (beBytes 4 P.createDate.toNat)),
        (0x8, .fixed (beBytes 4 P.modDate.toNat)), (0x10, .fixed (beBytes 4 P.backupDate.toNat)),
        (0x20, .fixed P.finderInfo)] := by
    rw [refParts.common]
    simp [setMask]
  have hdirectory : (refParts.directory P).filter (fun p => setMask &&& p.1 ≠ 0) = [] := by
    rw [refParts.directory]
    simp [setMask]
  have hfile : (refParts.file P).filter (fun p => setMask &&& p.1 ≠ 0) = [] := by
    rw [refParts.file]
    simp [setMask]
  have htrailing : (refParts.trailing P).filter (fun p => setMask &&& p.1 ≠ 0) =
      [(0x8000, .fixed P.unixprivs.bytes)] := by
    have hname : setMask &&& 0x2000 = 0 := rfl
    have hfork : setMask &&& 0x4000 = 0 := rfl
    have hprivs : setMask &&& 0x8000 ≠ 0 := by decide
    rw [refParts.trailing]
    simp [hname, hfork, hprivs, Unixprivs.bytes]
  cases isdir with
  | true =>
    show (refParts.common P ++ (refParts.directory P ++ refParts.trailing P)).filter _ = _
    rw [List.filter_append, List.filter_append, hcommon, hdirectory, htrailing]
    rfl
  | false =>
    show (refParts.common P ++ (refParts.file P ++ refParts.trailing P)).filter _ = _
    rw [List.filter_append, List.filter_append, hcommon, hfile, htrailing]
    rfl

lemma setFields_parts (hfinder : fp.finderinfo.length = 32) (isdir : Bool) :
    setFields.map (fun f => (f.bit, Part.fixed (padded f.width (f.bytes fp)))) =
      (refParts isdir (setParams fp hfinder)).filter fun p => setMask &&& p.1 ≠ 0 := by
  have hpadded (n : Nat) : padded 4 (beBytes 4 n) = beBytes 4 n := padded_of_length (length_beBytes ..)
  have hprivs : padded 16 fp.unixprivs.bytes = fp.unixprivs.bytes := padded_of_length (Unixprivs.length_bytes _)
  rw [refParts_filter]
  simp only [setFields, List.map_cons, List.map_nil, adDateFromUnix, hpadded, hprivs, padded_htonsByte,
    padded_finderinfo hfinder, setParams]

lemma parmsBlock_eq_refEncode (isdir : Bool) (hfinder : fp.finderinfo.length = 32) (h : bitmap &&& setMask = bitmap) :
    parmsBlock bitmap fp setFields = refEncode isdir bitmap (setParams fp hfinder) := by
  rw [← layout_fixed, setFields_parts hfinder isdir, refEncode, layout, layout, selected_filter h]

lemma length_parmsBlock {fs : List SetField} (hfs : ∀ f ∈ fs, (f.bytes fp).length ≤ f.width) :
    (parmsBlock bitmap fp fs).length = (selected bitmap (fs.map fun f => (f.bit, f.width))).sum := by
  induction fs with
  | nil => rfl
  | cons f fs ih =>
    have ih := ih fun g hg => hfs g (.tail _ hg)
    by_cases hbit : bitmap &&& f.bit = 0
    · rw [parmsBlock_skip hbit, ih]
      simp [selected, hbit]
    · rw [parmsBlock_take hbit, List.length_append, length_padded (hfs f (.head _)), ih]
      simp [selected, hbit]

lemma replyFields_widths (isdir : Bool) :
    ((replyFields isdir).map fun f => (f.bit, f.width)).filter (fun p => setMask &&& p.1 ≠ 0) =
      setFields.map fun f => (f.bit, f.width) := by
  cases isdir with
  | true => decide
  | false => decide

end Parts

/-- Two records agree in the parameters that the bitmap selects. -/
structure SameParms (bitmap : Nat) (fp r : AfpFileInfo) : Prop where
  attributes : bitmap &&& kFPAttributeBit ≠ 0 → r.attributes = fp.attributes
  creationDate : bitmap &&& kFPCreateDateBit ≠ 0 → r.creationDate = fp.creationDate
  modificationDate : bitmap &&& kFPModDateBit ≠ 0 → r.modificationDate = fp.modificationDate
  backupDate : bitmap &&& kFPBackupDateBit ≠ 0 → r.backupDate = fp.backupDate
  finderinfo : bitmap &&& kFPFinderInfoBit ≠ 0 → r.finderinfo = fp.finderinfo
  unixprivs : bitmap &&& kFPUnixPrivsBit ≠ 0 → r.unixprivs = fp.unixprivs

/-- The message has the parameters from `start` on and ends behind them. -/
structure ReadsBack (msg : Bytes) (start : Nat) (isdir : UInt8) (bitmap : Nat) (fp : AfpFileInfo) : Prop where
  parsed : ∃ r, parseReplyBlock (msg.drop start) isdir bitmap bitmap = some r ∧ SameParms bitmap fp r
  ends : msg.length = start + widths bitmap (replyFields (isdir ≠ 0))

lemma ofNat_high_eq_iff (x : UInt16) : UInt16.ofNat (256 * (x.toNat / 256)) = x ↔ x.toNat % 256 = 0 := by
  have hlt := x.toNat_lt
  rw [← UInt16.toNat_inj, UInt16.toNat_ofNat']
  omega

lemma sameParms_decoded_iff (isdir : UInt8) (bitmap : Nat) {fp : AfpFileInfo} (hfinder : fp.finderinfo.length = 32) :
    SameParms bitmap fp (decoded isdir bitmap (setParams fp hfinder)) ↔
      bitmap &&& kFPAttributeBit = 0 ∨ fp.attributes.toNat % 256 = 0 := by
  have hattributes : bitmap &&& kFPAttributeBit ≠ 0 →
      (decoded isdir bitmap (setParams fp hfinder)).attributes = .ofNat (256 * (fp.attributes.toNat / 256)) :=
    fun hbit => if_neg hbit
  have hdate (date : UInt32) : date - adDateDelta + adDateDelta = date := UInt32.sub_add_cancel ..
  constructor
  · intro h
    by_cases hbit : bitmap &&& kFPAttributeBit = 0
    · exact .inl hbit
    · right
      rw [← ofNat_high_eq_iff, ← hattributes hbit]
      exact h.attributes hbit
  · intro h
    refine ⟨?_, ?_, ?_, ?_, ?_, ?_⟩
    · intro hbit
      rw [hattributes hbit, ofNat_high_eq_iff]
      exact h.resolve_left hbit
    · exact fun hbit => (if_neg hbit).trans (hdate _)
    · exact fun hbit => (if_neg hbit).trans (hdate _)
    · exact fun hbit => (if_neg hbit).trans (hdate _)
    · exact fun hbit => if_neg hbit
    · exact fun hbit => if_neg hbit

/-- The parameters are read back as they were given if and only if the attributes are not among them or have nothing in
their lower byte. -/
theorem setparms_read_back_iff {v : Volume} (henc : v.pathEncoding ≠ .shortName) (dsiHeader : Block 16)
    (tmppathname : Block 255) (volid : UInt16) (dirid : UInt32) {pathname : Bytes} (hname : pathname.length ≤ 253)
    {bitmap : UInt16} (hbitmap : bitmap.toNat &&& setMask = bitmap.toNat) {fp : AfpFileInfo}
    (hfinder : fp.finderinfo.length = 32) (command isdir : UInt8) :
    (∃ msg, afpSetparmsLowlevel v dsiHeader tmppathname volid dirid pathname bitmap fp command = some msg ∧
        ReadsBack msg (parmsAt v pathname) isdir bitmap.toNat fp) ↔
      bitmap.toNat &&& kFPAttributeBit = 0 ∨ fp.attributes.toNat % 256 = 0 := by
  obtain ⟨front, hfront, hmsg⟩ :=
    afpSetparmsLowlevel_eq henc dsiHeader tmppathname volid dirid hname bitmap fp command
  have hblock := parmsBlock_eq_refEncode (isdir ≠ 0) hfinder hbitmap
  have hparse : parseReplyBlock ((front ++ parmsBlock bitmap.toNat fp setFields).drop (parmsAt v pathname)) isdir
      bitmap.toNat bitmap.toNat = some (decoded isdir bitmap.toNat (setParams fp hfinder)) := by
    rw [List.drop_left' hfront, parseReplyBlock, ite_self, Nat.mod_eq_of_lt bitmap.toNat_lt, hblock,
      readFields_refEncode]
  have hends : (front ++ parmsBlock bitmap.toNat fp setFields).length =
      parmsAt v pathname + widths bitmap.toNat (replyFields (isdir ≠ 0)) := by
    rw [List.length_append, hfront, length_parmsBlock (setFields_size fp), ← replyFields_widths (isdir ≠ 0),
      selected_filter hbitmap, widths_eq_sum]
  rw [← sameParms_decoded_iff isdir bitmap.toNat hfinder]
  constructor
  · rintro ⟨msg, hmsg', ⟨r, hr, hsame⟩, -⟩
    cases hmsg.symm.trans hmsg'
    cases hparse.symm.trans hr
    exact hsame
  · intro hsame
    exact ⟨_, hmsg, ⟨_, hparse, hsame⟩, hends⟩

def setA (bitmap : UInt16) (fp : AfpFileInfo) : Option Bytes :=
  afpSetparmsLowlevel plainVolume ⟨_, List.length_replicate (a := 0)⟩ ⟨_, List.length_replicate (a := 0)⟩ 1 2 [47, 97] bitmap fp 35

theorem setparms_read_back_all :
    ∃ msg, setA 0x803d { AfpFileInfo.zero with attributes := 0x100 } = some msg ∧
      ReadsBack msg (parmsAt plainVolume [47, 97]) 0 0x803d { AfpFileInfo.zero with attributes := 0x100 } :=
  (setparms_read_back_iff (by decide) _ _ 1 2 (by decide) rfl rfl 35 0).mpr (.inr rfl)

/-- The invisible bit is read back as 0. -/
theorem setparms_loses_invisible :
    (setA 1 { AfpFileInfo.zero with attributes := 1 }).bind (fun msg =>
        (parseReplyBlock (msg.drop (parmsAt plainVolume [47, 97])) 0 1 1).map AfpFileInfo.attributes) = some 0 := by
  decide +kernel

end AfpfsNg.Proto
