import AfpfsNg.Base.ByteOrder
import AfpfsNg.Base.Prints
import AfpfsNg.Uam.Names
import Mathlib.Data.List.Basic

/-!
# Status texts

`afp_status_server` (`lib/status.c`) describes a server with its queue and its volumes, and `afp_list_volnames` (`lib/afp.c`)
lists the names of the volumes. Both print their text piece by piece (Base.Prints), and none of them looks at the position
before it prints the next piece. `afp_status_server` first prints the signature, two digits for a byte. A byte is passed as a
`char`, so from 0x80 on it has eight digits, and those of the last three bytes do not fit `signature_string`.
-/

namespace AfpfsNg.Afp.Status
open AfpfsNg.Base AfpfsNg.Uam

/-- `afp_map_strings` has a name for each mapping. -/
inductive Mapping where
  | unknown
  | common
  | loginids
  | name

inductive ServerType where
  | unknown
  | netatalk
  | airport
  | macintosh
  deriving DecidableEq

structure Volume where
  volid : UInt16
  attributes : UInt16
  mounted : UInt8
  mountpoint : Text 255
  volumeNamePrintable : Text 33
  extraFlags : UInt32
  hits : UInt64
  misses : UInt64
  expired : UInt64
  forceRemoved : UInt64
  mapping : Mapping

/-- C `struct dsi_request`. The codes of the requests that are sent are below 128, so they are no negative `char`. -/
structure Request where
  requestid : UInt16
  subcommand : Fin 128

/-- C `struct afp_server`, as far as it is printed. The number of the volumes is an `unsigned char`. -/
structure Server where
  txQuantum : UInt32
  rxQuantum : UInt32
  txDelay : UInt32
  /-- what `inet_ntop` makes of the address, if it is one of its two families -/
  address : Option (Text 46)
  aiProtocol : UInt32
  runtPackets : UInt64
  rxBytes : UInt64
  txBytes : UInt64
  requestsPending : UInt64
  serverNamePrintable : Text 255
  machineType : Text 17
  signature : Block 16
  connectState : Int
  serverType : ServerType
  supportedUams : UInt32
  usingUam : UInt32
  /-- the index of `using_version` in `afp_versions` -/
  usingVersion : Fin 7
  volumes : List Volume
  numVolumes : volumes.length ≤ 255
  lastrequestid : UInt16
  commandRequests : List Request
  loginmesg : Text 200
  serverUid : UInt32
  serverGid : UInt32

def getMappingName (v : Volume) : Bytes :=
  match v.mapping with
  | .unknown => ascii "Unknown"
  | .common => ascii "Common user directory"
  | .loginids => ascii "Login ids"
  | .name => ascii "Name mapped"

def afpVersions : List String :=
  ["AFPVersion 1.1", "AFPVersion 2.0", "AFPVersion 2.1", "AFP2.2", "AFPX03", "AFP3.1", "AFP3.2"]

/-- `afp_command_names`, up to 127. -/
def afpCommandNames : List String :=
  ["Zero", "afpByteRangeLock", "afpCloseVol", "afpCloseDir", "afpCloseFork", "afpCopyFile", "afpCreateDir",
   "afpCreateFile", "afpDelete", "afpEnumerate", "afpFlush", "afpFlushFork", "Unknown", "Unknown", "afpGetForkParms",
   "afpGetSrvrInfo", "afpGetSrvrParms", "afpGetVolParms", "afpLogin", "afpLoginCont", "afpLogout", "afpMapID",
   "afpMapName", "afpMoveAndRename", "afpOpenVol", "afpOpenDir", "afpOpenFork", "afpRead", "afpRename", "afpSetDirParms",
   "afpSetFileParms", "afpSetForkParms", "afpSetVolParms", "afpWrite", "afpGetFileDirParms", "afpSetFileDirParms",
   "afpChangePassword", "afpGetUserInfo", "afpGetSrvrMsg", "Unknown 39", "Unknown 40", "Unknown 41", "Unknown 42",
   "Unknown 43", "Unknown 44", "Unknown 45", "Unknown 46", "Unknown 47", "afpOpenDT", "Unknown 49", "Unknown 50",
   "afpGetIcon", "afpGetIconInfo", "Unknown 53", "Unknown 54", "Unknown 55", "afpAddComment", "afpRemoveComment",
   "afpGetComment", "afpByteRangeLockExt", "afpReadExt", "afpWriteExt", "afpGetAuthMethods", "afp_LoginExt",
   "afpGetSessionToken", "afpDisconnectOldSession", "afpEnumerateExt", "afpCatSearchExt", "afpEnumerateExt2",
   "afpGetExtAttr", "afpSetExtAttr", "afpRemoveExtAttr", "afpListExtAttrs", "Some AFP 3.2 undocumented feature",
   "Unknown 76", "Unknown 77", "Unknown 78", "Unknown 79", "Unknown 80", "Unknown 81", "Unknown 82", "Unknown 83",
   "Unknown 84", "Unknown 85", "Unknown 86", "Unknown 87", "Unknown 88", "Unknown 89", "Unknown 90", "Unknown 91",
   "Unknown 92", "Unknown 93", "Unknown 94", "Unknown 95", "Unknown 96", "Unknown 97", "Unknown 98", "Unknown 99",
   "Unknown 100", "Unknown 101", "Unknown 102", "Unknown 103", "Unknown 104", "Unknown 105", "Unknown 106", "Unknown 107",
   "Unknown 108", "Unknown 109", "Unknown 110", "Unknown 111", "Unknown 112", "Unknown 113", "Unknown 114", "Unknown 115",
   "Unknown 116", "Unknown 117", "Unknown 118", "Unknown 119", "Unknown 120", "Unknown 121", "afpZzzzz", "Unknown 123",
   "Unknown 124", "Unknown 125", "Unknown 126", "Unknown 127", "Unknown 128", "Unknown 129"]

def afpGetCommandName (code : Fin 128) : Bytes := ascii (afpCommandNames.getD code "")

def Volume.isMounted (v : Volume) : Bool := v.mounted = 1

def volumeIsReadonly (v : Volume) : Bool := v.attributes &&& 1 ≠ 0 ∨ v.extraFlags &&& 0x40 ≠ 0

def volnamesPieces : List Volume → List Bytes
  | [] => []
  | [v] => [v.volumeNamePrintable.text]
  | v :: vs => [v.volumeNamePrintable.text, ascii ", "].flatten :: volnamesPieces vs

def volumePiece (v : Volume) : Bytes :=
  [ascii "    Volume ", v.volumeNamePrintable.text, ascii ", id ", decimal v.volid.toNat, ascii ", attribs 0x",
    hex v.attributes.toNat, ascii " mounted: ", if v.isMounted then v.mountpoint.text else ascii "No",
    if v.isMounted && volumeIsReadonly v then ascii " (read only)" else [], ascii "\n"].flatten

def cachePiece (s : Server) (v : Volume) : Bytes :=
  [ascii "        did cache stats: ", decimal v.misses.toNat, ascii " miss, ", decimal v.hits.toNat, ascii " hit, ",
    decimal v.expired.toNat, ascii " expired, ", decimal v.forceRemoved.toNat,
    ascii " force removal\n        uid/gid mapping: ", getMappingName v, ascii " (", signed (int32 s.serverUid.toNat),
    ascii "/", signed (int32 s.serverGid.toNat), ascii ")\n"].flatten

def chmodPiece (v : Volume) : Bytes :=
  if v.extraFlags &&& 0x1 ≠ 0 then if v.extraFlags &&& 0x2 ≠ 0 then ascii "Yes\n" else ascii "No\n"
  else ascii "Unknown\n"

def unixPiece (v : Volume) : Bytes :=
  [ascii "        Unix permissions: ", if v.extraFlags &&& 0x8 ≠ 0 then ascii "Yes" else ascii "No"].flatten

def printVolumeStatus (s : Server) (v : Volume) : List Bytes :=
  volumePiece v :: if v.isMounted then
    cachePiece s v :: unixPiece v ::
      if s.serverType = .netatalk then [ascii ", Netatalk permissions broken: ", chmodPiece v] else []
  else []

def serverPiece (s : Server) : Bytes :=
  [ascii "Server ", s.serverNamePrintable.text, ascii "\n    connection: ",
    s.address.elim (ascii "unknown address family") Text.text, ascii ":",
    decimal (htons (s.aiProtocol.toNat % 2 ^ 16)), ascii " ",
    if s.connectState = 2 then ascii "(disconnected)" else ascii "(active)", ascii "\n    using AFP version: ",
    ascii (afpVersions.getD s.usingVersion ""), ascii "\n"].flatten

/-- The pieces of the loop over the methods, from some bits on; `firsttime` says that there was one before. -/
def uamPieces (s : Server) : List Nat → Bool → List Bytes
  | [], _ => []
  | i :: is, firsttime =>
    if s.supportedUams.toNat.testBit i then
      (if firsttime then [ascii ", "] else []) ++
        [(uamBitmapToString (2 ^ i)).getD [], if 2 ^ i = s.usingUam.toNat then ascii " (used)" else []].flatten ::
          uamPieces s is true
    else uamPieces s is firsttime

def loginPiece (s : Server) : Bytes :=
  [ascii "\n    login message: ", s.loginmesg.text, ascii "\n    type: ", s.machineType.text].flatten

def queuePiece (s : Server) (signature : Bytes) : Bytes :=
  [ascii "\n    signature: ", signature, ascii "\n    transmit delay: ", decimal s.txDelay.toNat,
    ascii "ms\n    quantums: ", decimal s.txQuantum.toNat, ascii "(tx) ", decimal s.rxQuantum.toNat,
    ascii "(rx)\n    last request id: ", decimal s.lastrequestid.toNat, ascii " in queue: ",
    decimal s.requestsPending.toNat, ascii "\n"].flatten

def requestPiece (r : Request) : Bytes :=
  [ascii "         request ", decimal r.requestid.toNat, ascii ", ", afpGetCommandName r.subcommand, ascii "\n"].flatten

def transferPiece (s : Server) : Bytes :=
  [ascii "    transfer: ", decimal s.rxBytes.toNat, ascii "(rx) ", decimal s.txBytes.toNat,
    ascii "(tx)\n    runt packets: ", decimal s.runtPackets.toNat, ascii "\n"].flatten

/-- The pieces of `afp_status_server`; the volumes are left out when there is no buffer. -/
def statusPieces (s : Server) (signature : Bytes) (len : Nat) : List Bytes :=
  serverPiece s :: ascii "    server UAMs: " :: (uamPieces s (List.range 8) false ++ loginPiece s :: queuePiece s signature ::
    (s.commandRequests.map requestPiece ++ transferPiece s ::
      if len = 0 then [] else s.volumes.flatMap fun v => printVolumeStatus s v ++ [ascii "\n"]))

/-- `%02x` of a byte that was a `char`. -/
def signatureDigits (c : UInt8) : Bytes :=
  if c < 0x80 then (if c < 16 then ascii "0" else []) ++ hex c.toNat else ascii "ffffff" ++ hex c.toNat

/-- The loop that fills `signature_string`, which holds anything at first. -/
def signatureLoop (signatureString : Block 33) (signature : Block 16) : Option (Block 33) :=
  signature.bytes.zipIdx.foldlM (fun b p => b.put (2 * p.2) (signatureDigits p.1 ++ [0])) signatureString

/-- C `afp_list_volnames`: the names and what it returns, if all is written inside the buffer. -/
def afpListVolnames {max : Nat} (server : Server) (names : Block max) : Option (Block max × Int) :=
  prints names (volnamesPieces server.volumes)

/-- C `afp_status_server`: the text, what it returns and the new length, if all is written inside the buffer. -/
def afpStatusServer (s : Option Server) (signatureString : Block 33) (len : Nat) : Option (Block len × Int × Int) :=
  let pieces : Option (List Bytes) := match s with
    | none => some [ascii "Not connected to any servers\n"]
    | some s => (signatureLoop signatureString s.signature).map fun b => statusPieces s (cString b.bytes) len
  pieces.bind fun pieces => (prints (.zeros len) pieces).map fun (text, pos) => (text, pos, len - pos)

section Lengths
variable {s : Server} {v : Volume} {r : Request} {p : Bytes} {len : Nat}

/-- A part that no field is too small for. -/
def Short (p : Bytes) : Prop := p.length < 255

instance : Decidable (Short p) := inferInstanceAs (Decidable (_ < _))

lemma Short.of_le {k : Nat} (h : p.length ≤ k) (hk : k < 255) : Short p := Nat.lt_of_le_of_lt h hk

lemma Short.lt (h : Short p) : p.length < 2 ^ 31 := Nat.lt_trans h (by decide)

lemma short_field {size : Nat} (f : Text size) (hsize : size ≤ 255) : Short f.text := Nat.lt_of_lt_of_le f.fits hsize

lemma short_ite {c : Prop} [Decidable c] {p q : Bytes} (hp : Short p) (hq : Short q) : Short (if c then p else q) := by
  split
  · exact hp
  · exact hq

lemma short_uint16 (x : UInt16) : Short (decimal x.toNat) := .of_le (length_decimal_uint16 x) (by decide)

lemma short_uint32 (x : UInt32) : Short (decimal x.toNat) := .of_le (length_decimal_uint32 x) (by decide)

lemma short_uint64 (x : UInt64) : Short (decimal x.toNat) := .of_le (length_decimal_uint64 x) (by decide)

lemma short_int32 (x : UInt32) : Short (signed (int32 x.toNat)) := by
  have hx : x.toNat < 2 ^ 32 := x.toNat_lt
  refine .of_le (length_signed_le (by decide : 0 < 10) ?_) (by decide)
  unfold int32
  split <;> omega

lemma short_getMappingName (v : Volume) : Short (getMappingName v) := by
  unfold getMappingName
  cases v.mapping with
  | unknown | common | loginids | name => decide

lemma short_afpCommandNames : ∀ name ∈ afpCommandNames, Short (ascii name) := by
  have hall : ∀ name ∈ afpCommandNames, name.utf8ByteSize < 255 := by decide +kernel
  exact fun name hname => .of_le (length_ascii_le name) (hall name hname)

lemma short_afpVersions : ∀ name ∈ afpVersions, Short (ascii name) := by
  have hall : ∀ name ∈ afpVersions, name.utf8ByteSize < 255 := by decide +kernel
  exact fun name hname => .of_le (length_ascii_le name) (hall name hname)

lemma short_getD {names : List String} (h : ∀ name ∈ names, Short (ascii name)) {i : Nat} (hi : i < names.length) :
    Short (ascii (names.getD i "")) := by
  rw [List.getD_eq_getElem?_getD, List.getElem?_eq_getElem hi]
  exact h _ (List.getElem_mem hi)

lemma length_flatten_lt {parts : List Bytes} (hparts : parts.length ≤ 15) (h : parts.Forall Short) :
    parts.flatten.length < 2 ^ 31 := by
  rw [List.forall_iff_forall_mem] at h
  have hsum : parts.flatten.length ≤ 255 * parts.length := by
    clear hparts
    induction parts with
    | nil => exact Nat.le_refl 0
    | cons p parts ih =>
      rw [List.forall_mem_cons] at h
      have hp : p.length < 255 := h.1
      rw [List.flatten_cons, List.length_append, List.length_cons]
      have hrest := ih h.2
      omega
  omega

lemma length_volumePiece (v : Volume) : (volumePiece v).length < 2 ^ 31 := by
  refine length_flatten_lt (Nat.le_of_ble_eq_true rfl) ?_
  have hhex : Short (hex v.attributes.toNat) := .of_le (length_hex_le (by decide : 0 < 4) v.attributes.toNat_lt) (by decide)
  exact ⟨by decide, short_field _ (by decide), by decide, short_uint16 _, by decide, hhex, by decide,
    short_ite (short_field _ (by decide)) (by decide), short_ite (by decide) (by decide), by decide⟩

lemma length_cachePiece (s : Server) (v : Volume) : (cachePiece s v).length < 2 ^ 31 := by
  refine length_flatten_lt (Nat.le_of_ble_eq_true rfl) ?_
  exact ⟨by decide, short_uint64 _, by decide, short_uint64 _, by decide, short_uint64 _, by decide, short_uint64 _, by decide,
    short_getMappingName v, by decide, short_int32 _, by decide, short_int32 _, by decide⟩

lemma length_serverPiece (s : Server) : (serverPiece s).length < 2 ^ 31 := by
  refine length_flatten_lt (Nat.le_of_ble_eq_true rfl) ?_
  have haddress : Short (s.address.elim (ascii "unknown address family") Text.text) := by
    cases s.address with
    | none => decide
    | some f => exact short_field f (by decide)
  have hport : Short (decimal (htons (s.aiProtocol.toNat % 2 ^ 16))) := by
    have hlt : htons (s.aiProtocol.toNat % 2 ^ 16) < 10 ^ 5 := Nat.lt_trans (leNat_lt _) (by rw [length_beBytes]; decide)
    exact .of_le (length_decimal_le (by decide) hlt) (by decide)
  exact ⟨by decide, short_field _ (by decide), by decide, haddress, by decide, hport, by decide,
    short_ite (by decide) (by decide), by decide, short_getD short_afpVersions s.usingVersion.isLt, by decide⟩

lemma length_loginPiece (s : Server) : (loginPiece s).length < 2 ^ 31 := by
  refine length_flatten_lt (Nat.le_of_ble_eq_true rfl) ?_
  exact ⟨by decide, short_field _ (by decide), by decide, short_field _ (by decide)⟩

lemma length_queuePiece (s : Server) {signature : Bytes} (h : Short signature) : (queuePiece s signature).length < 2 ^ 31 := by
  refine length_flatten_lt (Nat.le_of_ble_eq_true rfl) ?_
  exact ⟨by decide, h, by decide, short_uint32 _, by decide, short_uint32 _, by decide, short_uint32 _, by decide,
    short_uint16 _, by decide, short_uint64 _, by decide⟩

lemma length_requestPiece (r : Request) : (requestPiece r).length < 2 ^ 31 := by
  refine length_flatten_lt (Nat.le_of_ble_eq_true rfl) ?_
  exact ⟨by decide, short_uint16 _, by decide, short_getD short_afpCommandNames r.subcommand.isLt, by decide⟩

lemma length_transferPiece (s : Server) : (transferPiece s).length < 2 ^ 31 := by
  refine length_flatten_lt (Nat.le_of_ble_eq_true rfl) ?_
  exact ⟨by decide, short_uint64 _, by decide, short_uint64 _, by decide, short_uint64 _, by decide⟩

lemma short_uamBitmapToString (bitmap : Nat) : Short ((uamBitmapToString bitmap).getD []) := by
  have hname : ∀ m : Method, Short m.name := by
    intro m
    cases m with
    | _ => decide
  rw [uamBitmapToString]
  cases (List.range 16).reverse.find? bitmap.testBit with
  | none => decide
  | some i =>
    rw [Option.bind_some]
    cases afpStrings[i]? with
    | none => decide
    | some m => exact hname m

lemma length_uamPieces (s : Server) (is : List Nat) (firsttime : Bool) :
    ∀ p ∈ uamPieces s is firsttime, p.length < 2 ^ 31 := by
  induction is generalizing firsttime with
  | nil => nofun
  | cons i is ih =>
    rw [uamPieces]
    split
    · rw [List.forall_mem_append, List.forall_mem_cons]
      refine ⟨?_, ?_, ih true⟩
      · split
        · exact List.forall_mem_singleton.2 (by decide)
        · nofun
      · exact length_flatten_lt (Nat.le_of_ble_eq_true rfl)
          ⟨short_uamBitmapToString _, short_ite (by decide) (by decide)⟩
    · exact ih firsttime

lemma length_printVolumeStatus (s : Server) (v : Volume) : ∀ p ∈ printVolumeStatus s v, p.length < 2 ^ 31 := by
  have hunix : (unixPiece v).length < 2 ^ 31 :=
    length_flatten_lt (Nat.le_of_ble_eq_true rfl) ⟨by decide, short_ite (by decide) (by decide)⟩
  have hchmod : Short (chmodPiece v) := short_ite (short_ite (by decide) (by decide)) (by decide)
  rw [printVolumeStatus, List.forall_mem_cons]
  refine ⟨length_volumePiece v, ?_⟩
  split
  · rw [List.forall_mem_cons, List.forall_mem_cons]
    refine ⟨length_cachePiece s v, hunix, ?_⟩
    split
    · rw [List.forall_mem_cons, List.forall_mem_singleton]
      exact ⟨by decide, hchmod.lt⟩
    · nofun
  · nofun

lemma length_statusPieces (s : Server) {signature : Bytes} (h : Short signature) (len : Nat) :
    ∀ p ∈ statusPieces s signature len, p.length < 2 ^ 31 := by
  simp only [statusPieces, List.forall_mem_cons, List.forall_mem_append, List.forall_mem_map]
  refine ⟨length_serverPiece s, by decide, length_uamPieces s _ _, length_loginPiece s, length_queuePiece s h,
    fun r _ => length_requestPiece r, length_transferPiece s, ?_⟩
  split
  · nofun
  · intro p hp
    obtain ⟨v, -, hp⟩ := List.mem_flatMap.1 hp
    rw [List.mem_append, List.mem_singleton] at hp
    obtain hp | rfl := hp
    · exact length_printVolumeStatus s v p hp
    · decide

lemma length_volnamesPieces (vs : List Volume) : ∀ p ∈ volnamesPieces vs, p.length < 2 ^ 31 := by
  induction vs using volnamesPieces.induct with
  | case1 => nofun
  | case2 v => exact List.forall_mem_singleton.2 (short_field _ (by decide)).lt
  | case3 v vs hvs ih =>
    rw [volnamesPieces.eq_3 _ _ hvs, List.forall_mem_cons]
    exact ⟨length_flatten_lt (Nat.le_of_ble_eq_true rfl) ⟨short_field _ (by decide), by decide⟩, ih⟩

lemma sum_volnamesPieces (vs : List Volume) :
    ((volnamesPieces vs).dropLast.map List.length).sum =
      (vs.dropLast.map fun v => v.volumeNamePrintable.text.length + 2).sum := by
  induction vs using volnamesPieces.induct with
  | case1 => rfl
  | case2 v => rfl
  | case3 v vs hvs ih =>
    obtain ⟨w, vs, rfl⟩ : ∃ w ws, vs = w :: ws := List.exists_cons_of_ne_nil fun h => hvs h
    have hne : volnamesPieces (w :: vs) ≠ [] := by
      cases vs with
      | nil => exact List.cons_ne_nil _ _
      | cons _ _ => exact List.cons_ne_nil _ _
    rw [volnamesPieces.eq_3 _ _ hvs, List.dropLast_cons_of_ne_nil hne, List.map_cons, List.sum_cons, ih,
      List.dropLast_cons_cons, List.map_cons, List.sum_cons]
    simp

end Lengths

section Signature
variable {b b' : Block 33} {signature : Block 16}

/-- The text of a signature: the first two digits of each byte, which no other byte overwrites. -/
def signatureText (signature : Bytes) : Bytes := signature.flatMap fun c => (signatureDigits c).take 2

lemma length_signatureDigits : ∀ c : UInt8, (signatureDigits c).length = if c < 0x80 then 2 else 8 :=
  forall_byte (by decide +kernel)

lemma zero_not_mem_signatureDigits : ∀ c : UInt8, 0 ∉ signatureDigits c := forall_byte (by decide +kernel)

lemma signatureLoop_isSome_iff :
    (signatureLoop b signature).isSome ↔ ∀ c ∈ signature.bytes.drop 13, c < 0x80 := by
  rw [signatureLoop, foldlM_put_isSome_iff]
  constructor
  · intro h c hc
    obtain ⟨i, hi⟩ := List.mem_iff_getElem?.1 hc
    rw [List.getElem?_drop] at hi
    have hfits := h (c, 13 + i) (List.mem_zipIdx_iff_getElem?.2 hi)
    rw [List.length_append, length_signatureDigits, List.length_singleton] at hfits
    by_contra hlarge
    rw [if_neg hlarge] at hfits
    omega
  · rintro h ⟨c, i⟩ hmem
    have hi := List.mem_zipIdx_iff_getElem?.1 hmem
    obtain ⟨hlt, -⟩ := List.getElem?_eq_some_iff.1 hi
    rw [signature.size] at hlt
    rw [List.length_append, length_signatureDigits, List.length_singleton]
    split
    · omega
    · rename_i hlarge
      -- one of the last three bytes would be small
      have hbefore : i < 13 := by
        by_contra hbehind
        refine hlarge (h c (List.mem_iff_getElem?.2 ⟨i - 13, ?_⟩))
        rwa [List.getElem?_drop, Nat.add_sub_cancel' (Nat.le_of_not_lt hbehind)]
      omega

lemma take_of_foldlM_digits {l : Bytes} {k : Nat}
    (h : (l.zipIdx k).foldlM (fun b p => Block.put b (2 * p.2) (signatureDigits p.1 ++ [0])) b = some b') :
    b'.bytes.take (2 * (k + l.length)) = b.bytes.take (2 * k) ++ signatureText l := by
  induction l generalizing k b with
  | nil =>
    cases h
    rw [signatureText, List.flatMap_nil, List.append_nil]
    rfl
  | cons c l ih =>
    rw [List.zipIdx_cons, List.foldlM_cons] at h
    obtain ⟨b₁, hb₁, h⟩ := Option.bind_eq_some_iff.1 h
    obtain ⟨hfits, hbytes⟩ := Block.bytes_put hb₁
    have hdigits : 2 ≤ (signatureDigits c).length := by
      rw [length_signatureDigits]
      split <;> omega
    have hbegin : (b.bytes.take (2 * k)).length = 2 * k := by
      rw [List.length_take, b.size]
      omega
    have hnext : b₁.bytes.take (2 * (k + 1)) = b.bytes.take (2 * k) ++ (signatureDigits c).take 2 := by
      rw [hbytes, patch, Nat.mul_add, List.append_assoc, List.append_assoc]
      nth_rewrite 1 [← hbegin]
      rw [List.take_length_add_append, List.take_append_of_le_length hdigits]
    have hlength : k + (c :: l).length = k + 1 + l.length := by
      rw [List.length_cons]
      omega
    rw [hlength, ih h, hnext, List.append_assoc]
    rfl

lemma cString_signatureLoop (h : signatureLoop b signature = some b') :
    cString b'.bytes = signatureText signature.bytes := by
  obtain ⟨l, c, hbytes⟩ : ∃ l c, signature.bytes = l ++ [c] := by
    have hne : signature.bytes ≠ [] := List.ne_nil_of_length_pos (by rw [signature.size]; decide)
    exact ⟨_, _, (List.dropLast_concat_getLast hne).symm⟩
  have hl : l.length = 15 := by
    have hsize := signature.size
    rw [hbytes, List.length_append, List.length_singleton] at hsize
    omega
  rw [signatureLoop, hbytes, List.zipIdx_append, List.foldlM_append] at h
  obtain ⟨b₁, hb₁, hlast⟩ := Option.bind_eq_some_iff.1 h
  have hput : b₁.put 30 (signatureDigits c ++ [0]) = some b' := by simpa [hl] using hlast
  obtain ⟨hfits, hb'⟩ := Block.bytes_put hput
  -- the last byte has two digits, and its terminator is the last byte of the array
  have hdigits : (signatureDigits c).length = 2 := by
    rw [List.length_append, length_signatureDigits, List.length_singleton] at hfits
    by_cases hc : c < 0x80
    · rw [length_signatureDigits, if_pos hc]
    · rw [if_neg hc] at hfits
      omega
  have hbegin : b₁.bytes.take 30 = signatureText l := by
    have htake := take_of_foldlM_digits hb₁
    rwa [hl, Nat.zero_add, Nat.mul_zero, List.take_zero, List.nil_append] at htake
  have hend : b₁.bytes.drop (30 + (signatureDigits c ++ [0]).length) = [] := by
    rw [List.length_append, hdigits, List.length_singleton]
    exact List.drop_eq_nil_of_le b₁.size.le
  have htext : signatureText (l ++ [c]) = signatureText l ++ signatureDigits c := by
    rw [signatureText, List.flatMap_append, List.flatMap_singleton, List.take_of_length_le hdigits.le]
    rfl
  have hnul : 0 ∉ signatureText (l ++ [c]) := by
    intro hmem
    obtain ⟨d, -, hd⟩ := List.mem_flatMap.1 hmem
    exact zero_not_mem_signatureDigits d (List.mem_of_mem_take hd)
  have hpadded : b'.bytes = padded ((signatureText (l ++ [c])).length + 1) (signatureText (l ++ [c])) := by
    rw [hb', patch, hbegin, hend, List.append_nil, padded, Nat.add_sub_cancel_left, htext, List.append_assoc]
    rfl
  rw [hpadded, cString_padded, cString_of_not_mem hnul, hbytes]

lemma length_signatureText (signature : Block 16) : (signatureText signature.bytes).length = 32 := by
  have hlength : ∀ l : Bytes, (signatureText l).length = 2 * l.length := by
    intro l
    induction l with
    | nil => rfl
    | cons c l ih =>
      have hdigits : ((signatureDigits c).take 2).length = 2 := by
        rw [List.length_take, length_signatureDigits]
        split <;> rfl
      rw [signatureText, List.flatMap_cons, List.length_append, hdigits, List.length_cons, Nat.mul_add, Nat.add_comm]
      exact congrArg (· + 2) ih
  rw [hlength, signature.size]

end Signature

/-- The names are written inside the buffer just if all of them but the last fit it, with what is between them. -/
lemma afpListVolnames_isSome_iff {max : Nat} (hmax : max < 2 ^ 31) (server : Server) (names : Block max) :
    (afpListVolnames server names).isSome ↔
      (server.volumes.dropLast.map fun v => v.volumeNamePrintable.text.length + 2).sum ≤ max := by
  rw [afpListVolnames, prints_isSome_iff hmax (length_volnamesPieces _), sum_volnamesPieces]

/-- The status is written inside the buffer just if the digits of the signature fit their array and all pieces but the last fit
the buffer. -/
lemma afpStatusServer_isSome_iff {len : Nat} (hlen : len < 2 ^ 31) (server : Server) (signatureString : Block 33) :
    (afpStatusServer (some server) signatureString len).isSome ↔
      (∀ c ∈ server.signature.bytes.drop 13, c < 0x80) ∧
        ((statusPieces server (signatureText server.signature.bytes) len).dropLast.map List.length).sum ≤ len := by
  rw [← signatureLoop_isSome_iff (b := signatureString)]
  cases hloop : signatureLoop signatureString server.signature with
  | none =>
    rw [afpStatusServer, hloop]
    exact iff_of_false Bool.false_ne_true fun h => Bool.false_ne_true h.1
  | some b =>
    have hshort : Short (signatureText server.signature.bytes) := .of_le (length_signatureText _).le (by decide)
    rw [and_iff_right Option.isSome_some, ← prints_isSome_iff hlen (length_statusPieces server hshort len) (.zeros len),
      afpStatusServer, hloop, Option.map_some, cString_signatureLoop hloop, Option.bind_some, Option.isSome_map]

lemma afpStatusServer_none_isSome {len : Nat} (hlen : len < 2 ^ 31) (signatureString : Block 33) :
    (afpStatusServer none signatureString len).isSome := by
  rw [afpStatusServer, Option.bind_some, Option.isSome_map,
    prints_isSome_iff hlen (List.forall_mem_singleton.2 (by decide))]
  exact Nat.zero_le len

/-- For every server and every size of the buffers: the names, and the status, are written inside the buffer just if all
pieces but the last fit it together, and the digits of the signature fit their array. -/
theorem status_inside_iff {max len : Nat} (hmax : max < 2 ^ 31) (hlen : len < 2 ^ 31) (server : Server) (names : Block max)
    (signatureString : Block 33) :
    ((afpListVolnames server names).isSome ↔
      (server.volumes.dropLast.map fun v => v.volumeNamePrintable.text.length + 2).sum ≤ max) ∧
    ((afpStatusServer (some server) signatureString len).isSome ↔
      (∀ c ∈ server.signature.bytes.drop 13, c < 0x80) ∧
        ((statusPieces server (signatureText server.signature.bytes) len).dropLast.map List.length).sum ≤ len) :=
  ⟨afpListVolnames_isSome_iff hmax server names, afpStatusServer_isSome_iff hlen server signatureString⟩

def letters (n : Nat) : Text (n + 1) :=
  ⟨List.replicate n 97, by rw [List.length_replicate]; exact Nat.lt_succ_self n,
    fun h => absurd (List.eq_of_mem_replicate h) (by decide)⟩

def longVolume : Volume where
  volid := 0
  attributes := 0
  mounted := 1
  mountpoint := letters 254
  volumeNamePrintable := letters 32
  extraFlags := 0
  hits := 0
  misses := 0
  expired := 0
  forceRemoved := 0
  mapping := .unknown

def crowdedServer (n : Nat) (hn : n ≤ 255) : Server where
  txQuantum := 0
  rxQuantum := 0
  txDelay := 0
  address := none
  aiProtocol := 0
  runtPackets := 0
  rxBytes := 0
  txBytes := 0
  requestsPending := 0
  serverNamePrintable := ⟨[], by decide, List.not_mem_nil⟩
  machineType := ⟨[], by decide, List.not_mem_nil⟩
  signature := .zeros 16
  connectState := 1
  serverType := .unknown
  supportedUams := 0
  usingUam := 0
  usingVersion := 0
  volumes := List.replicate n longVolume
  numVolumes := by rwa [List.length_replicate]
  lastrequestid := 0
  commandRequests := []
  loginmesg := ⟨[], by decide, List.not_mem_nil⟩
  serverUid := 0
  serverGid := 0

theorem status_inside_iff_one :
    ((afpListVolnames (crowdedServer 1 (by decide)) (.zeros 1024)).isSome ↔
      ((crowdedServer 1 (by decide)).volumes.dropLast.map fun v => v.volumeNamePrintable.text.length + 2).sum ≤ 1024) ∧
    ((afpStatusServer (some (crowdedServer 1 (by decide))) (.zeros 33) 40960).isSome ↔
      (∀ c ∈ (crowdedServer 1 (by decide)).signature.bytes.drop 13, c < 0x80) ∧
        ((statusPieces (crowdedServer 1 (by decide)) (signatureText (crowdedServer 1 (by decide)).signature.bytes)
          40960).dropLast.map List.length).sum ≤ 40960) :=
  status_inside_iff (by decide) (by decide) (crowdedServer 1 (by decide)) (.zeros 1024) (.zeros 33)

/-- With 120 volumes the buffers of the callers are too small: 1024 bytes for the names and 40960 bytes for the status. -/
theorem status_overruns :
    afpListVolnames (crowdedServer 120 (by decide)) (.zeros 1024) = none ∧
      afpStatusServer (some (crowdedServer 120 (by decide))) (.zeros 33) 40960 = none := by
  constructor
  · rw [← Option.not_isSome_iff_eq_none, afpListVolnames_isSome_iff (by decide)]
    decide +kernel
  · rw [← Option.not_isSome_iff_eq_none, afpStatusServer_isSome_iff (by decide)]
    refine fun h => absurd h.2 ?_
    decide +kernel

end AfpfsNg.Afp.Status
