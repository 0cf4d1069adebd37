import AfpfsNg.Base.Arrays
import AfpfsNg.Proto.Names

/-!
# Requests with several paths

`afp_moveandrename` and `afp_rename` (`lib/proto_directory.c`) write three paths and two, one behind the other. Where a path
starts is computed from the lengths of those in front of it and not from what `copy_path` has written. `decodeRequest` is the
server's side: it reads the fixed part and then one path after the other.

The source path and the new name are never `NULL` where the functions are called. The memory of the message comes from
`malloc` with anything in it.
-/

namespace AfpfsNg.Proto
open AfpfsNg.Base AfpfsNg.Afp

/-- `copy_path` to `msg+p`, and then `unixpath_to_afppath` there. -/
def putPath (v : Volume) (tmppathname : Block 255) (msg : Bytes) (p : Nat) (path : Bytes) : Option Bytes := do
  let dest ← copyPath v tmppathname.bytes (msg.drop p) path
  let dest ← unixpathToAfppath v dest
  return msg.take p ++ dest

/-- What stands in front of the paths: the header and the fields of the request. -/
def requestFields (dsiHeader : Block 16) (command : UInt8) (volid : UInt16) (dids : List UInt32) : Bytes :=
  dsiHeader.bytes ++ ([command, 0] ++ (beBytes 2 volid.toNat ++ dids.flatMap fun did => beBytes 4 did.toNat))

section Requests
variable (v : Volume) (malloc : (n : Nat) → Block n) (dsiHeader : Block 16) (tmppathname : Nat → Block 255) (volid : UInt16)

/-- C `afp_moveandrename`: the message that `dsi_send` is given. `tmppathname` are the arrays of the calls of `copy_path`. -/
def afpMoveandrename (srcDid dstDid : UInt32) (srcPath : Bytes) (dstPath : Option Bytes) (newName : Bytes) : Option Bytes := do
  let dstPath := dstPath.getD []
  let len := (28 + 3 * sizeofPathHeader v + dstPath.length + srcPath.length + newName.length) % 2 ^ 32
  let msg := (malloc len).bytes
  let msg ← put msg 0 (requestFields dsiHeader 23 volid [srcDid, dstDid])
  let p := 28
  let msg ← putPath v (tmppathname 0) msg p srcPath
  let p := p + sizeofPathHeader v + srcPath.length
  let msg ← putPath v (tmppathname 1) msg p dstPath
  let p := p + sizeofPathHeader v + dstPath.length
  putPath v (tmppathname 2) msg p newName

def afpRename (dirid : UInt32) (pathFrom pathTo : Bytes) : Option Bytes := do
  let len := (24 + sizeofPathHeader v + pathFrom.length + sizeofPathHeader v + pathTo.length) % 2 ^ 32
  let msg := (malloc len).bytes
  let msg ← put msg 0 (requestFields dsiHeader 28 volid [dirid])
  let pathfromptr := 24
  let msg ← putPath v (tmppathname 0) msg pathfromptr pathFrom
  let pathtoptr := pathfromptr + sizeofPathHeader v + pathFrom.length
  putPath v (tmppathname 1) msg pathtoptr pathTo

end Requests

/-- A length of `width` bytes and so many bytes behind it. -/
def readCounted (width : Nat) (b : Bytes) : Option (Bytes × Bytes) := do
  let len ← fetch b 0 width
  let name ← fetch b width (beNat len)
  return (name, b.drop (width + beNat len))

/-- A path: its type, the hint of a UTF-8 name, and the name. -/
def readPath : PathEncoding → Bytes → Option (Bytes × Bytes)
  | .utf8Name, t :: b => if t = pathType .utf8Name ∧ 4 ≤ b.length then readCounted 2 (b.drop 4) else none
  | .longName, t :: b => if t = pathType .longName then readCounted 1 b else none
  | _, _ => none

def readPaths (encoding : PathEncoding) : Nat → Bytes → Option (List Bytes × Bytes)
  | 0, b => some ([], b)
  | n + 1, b => do
    let (path, b) ← readPath encoding b
    let (paths, b) ← readPaths encoding n b
    return (path :: paths, b)

def readNumbers : Nat → Bytes → Option (List Nat × Bytes)
  | 0, b => some ([], b)
  | n + 1, b => do
    let number ← fetch b 0 4
    let (numbers, b) ← readNumbers n (b.drop 4)
    return (beNat number :: numbers, b)

/-- What a request says, and what is left behind it. -/
structure Decoded where
  command : UInt8
  volid : Nat
  dids : List Nat
  names : List Bytes
  rest : Bytes
  deriving DecidableEq, Repr

/-- A request about `dids` directories with `paths` paths. -/
def decodeRequest (encoding : PathEncoding) (dids paths : Nat) (m : Bytes) : Option Decoded := do
  let command ← m[16]?
  let volid ← fetch m 18 2
  let (dids, m) ← readNumbers dids (m.drop 20)
  let (names, rest) ← readPaths encoding paths m
  return ⟨command, beNat volid, dids, names, rest⟩

/-- A name that fits every encoding. -/
structure ShortName (s : Bytes) : Prop where
  size : s.length ≤ 253
  nul : 0 ∉ s

/-- The name with `'/'` replaced. -/
def afpName (s : Bytes) : Bytes := s.map unixpathToAfppath.nulForSlash

def pathRecord (v : Volume) (s : Bytes) : Bytes :=
  match v.pathEncoding with
  | .utf8Name => pathRegion (pathType .utf8Name :: utf8Hint) 2 s
  | .longName => pathRegion [pathType .longName] 1 s
  | .shortName => []

section Path
variable {v : Volume} {s : Bytes}

lemma readCounted_append {w : Nat} (hw : s.length < 256 ^ w) (rest : Bytes) :
    readCounted w (beBytes w s.length ++ (s ++ rest)) = some (s, rest) := by
  have hlen : fetch (beBytes w s.length ++ (s ++ rest)) 0 w = some (beBytes w s.length) := fetch_zero _ (length_beBytes ..)
  have hname : fetch (beBytes w s.length ++ (s ++ rest)) w s.length = some s := by
    have h := fetch_mid (beBytes w s.length) s rest
    rwa [length_beBytes] at h
  have hrest : (beBytes w s.length ++ (s ++ rest)).drop (w + s.length) = rest := by
    rw [← List.append_assoc]
    exact List.drop_left' (by rw [List.length_append, length_beBytes])
  rw [readCounted, hlen]
  show (fetch _ w (beNat (beBytes w s.length))).bind _ = _
  rw [beNat_beBytes_of_lt hw, hname, Option.bind_some, hrest]
  rfl

variable (henc : v.pathEncoding ≠ .shortName)
include henc

lemma writesPath_record (hs : s.length ≤ 253) :
    ∃ lead w, WritesPath v lead w s ∧ pathRecord v s = pathRegion lead w s := by
  cases hv : v.pathEncoding with
  | shortName => exact absurd hv henc
  | utf8Name => exact ⟨_, _, writesPath_utf8 hv hs, by rw [pathRecord, hv]⟩
  | longName => exact ⟨_, _, writesPath_long hv (Nat.le_succ_of_le hs), by rw [pathRecord, hv]⟩

lemma length_pathRecord (hs : s.length ≤ 253) :
    (pathRecord v s).length = sizeofPathHeader v + s.length := by
  obtain ⟨lead, w, hwrites, hrecord⟩ := writesPath_record henc hs
  rw [hrecord, length_pathRegion, hwrites.size]

lemma putPath_record (hs : s.length ≤ 253) (tmppathname : Block 255) {pre rest : Bytes} {p : Nat} (hp : pre.length = p)
    (hrest : sizeofPathHeader v + s.length ≤ rest.length) :
    putPath v tmppathname (pre ++ rest) p s =
      some (pre ++ pathRecord v s ++ rest.drop (sizeofPathHeader v + s.length)) := by
  subst hp
  obtain ⟨lead, w, hwrites, hrecord⟩ := writesPath_record henc hs
  have hrun := hwrites.run tmppathname.size hrest
  rw [← hrecord, length_pathRecord henc hs] at hrun
  obtain ⟨dest, hcopy, hconvert⟩ := Option.bind_eq_some_iff.mp hrun
  rw [putPath, List.drop_left, hcopy]
  show (unixpathToAfppath v dest).bind _ = _
  rw [hconvert, Option.bind_some, List.take_left, List.append_assoc]
  rfl

lemma putPath_next (hs : s.length ≤ 253) (tmppathname : Block 255) {pre rest : Bytes}
    {p n : Nat} (hp : pre.length = p) (hrest : rest.length = sizeofPathHeader v + s.length + n) :
    ∃ rest', putPath v tmppathname (pre ++ rest) p s = some ((pre ++ pathRecord v s) ++ rest') ∧
      (pre ++ pathRecord v s).length = p + sizeofPathHeader v + s.length ∧ rest'.length = n := by
  refine ⟨_, putPath_record henc hs tmppathname hp (by omega), ?_, ?_⟩
  · rw [List.length_append, length_pathRecord henc hs, hp, Nat.add_assoc]
  · rw [List.length_drop]
    omega

lemma readPath_record (hs : s.length ≤ 253) (rest : Bytes) :
    readPath v.pathEncoding (pathRecord v s ++ rest) = some (afpName s, rest) := by
  have hlen : (afpName s).length = s.length := List.length_map _
  cases hv : v.pathEncoding with
  | shortName => exact absurd hv henc
  | utf8Name =>
    have hrecord : pathRecord v s ++ rest =
        pathType .utf8Name :: (utf8Hint ++ (beBytes 2 (afpName s).length ++ (afpName s ++ rest))) := by
      rw [pathRecord, hv, hlen]
      simp only [pathRegion, afpName, List.cons_append, List.append_assoc]
    rw [hrecord, readPath, if_pos ⟨rfl, by rw [List.length_append]; exact Nat.le_add_right ..⟩]
    exact readCounted_append (by omega) rest
  | longName =>
    have hrecord : pathRecord v s ++ rest = pathType .longName :: (beBytes 1 (afpName s).length ++ (afpName s ++ rest)) := by
      rw [pathRecord, hv, hlen]
      simp only [pathRegion, afpName, List.cons_append, List.nil_append, List.append_assoc]
    rw [hrecord, readPath, if_pos rfl]
    exact readCounted_append (by omega) rest

lemma readPaths_records {ss : List Bytes} (hss : ∀ s ∈ ss, s.length ≤ 253) :
    readPaths v.pathEncoding ss.length (ss.flatMap (pathRecord v)) = some (ss.map afpName, []) := by
  induction ss with
  | nil => rfl
  | cons s ss ih =>
    obtain ⟨hs, hss⟩ := List.forall_mem_cons.mp hss
    rw [List.length_cons, List.flatMap_cons, readPaths, readPath_record henc hs]
    show (readPaths v.pathEncoding ss.length (ss.flatMap (pathRecord v))).bind _ = _
    rw [ih hss]
    rfl

end Path

section Messages
variable {v : Volume} {dsiHeader : Block 16} {command : UInt8} {volid : UInt16} {dids : List UInt32} {ss : List Bytes}

lemma length_requestFields : (requestFields dsiHeader command volid dids).length = 20 + 4 * dids.length := by
  have hdids : (dids.flatMap fun did => beBytes 4 did.toNat).length = 4 * dids.length := by
    rw [List.length_flatMap]
    induction dids with
    | nil => rfl
    | cons did dids ih =>
      rw [List.map_cons, List.sum_cons, ih, length_beBytes, List.length_cons]
      omega
  rw [requestFields, List.length_append, dsiHeader.size, List.length_append, List.length_append, length_beBytes, hdids]
  show 16 + (2 + (2 + 4 * dids.length)) = _
  omega

lemma readNumbers_append (rest : Bytes) :
    readNumbers dids.length ((dids.flatMap fun did => beBytes 4 did.toNat) ++ rest) = some (dids.map UInt32.toNat, rest) := by
  induction dids with
  | nil => rfl
  | cons did dids ih =>
    have hnumber : beNat (beBytes 4 did.toNat) = did.toNat := beNat_beBytes_of_lt did.toNat_lt
    rw [List.length_cons, List.flatMap_cons, List.append_assoc, readNumbers, fetch_zero _ (length_beBytes ..),
      List.drop_left' (length_beBytes ..)]
    show (readNumbers dids.length _).bind _ = _
    rw [ih, Option.bind_some, hnumber]
    rfl

lemma put_requestFields {b : Bytes} {n : Nat} (hb : b.length = 20 + 4 * dids.length + n) :
    ∃ rest, put b 0 (requestFields dsiHeader command volid dids) = some (requestFields dsiHeader command volid dids ++ rest) ∧
      rest.length = n := by
  refine ⟨_, put_zero length_requestFields (by omega), ?_⟩
  rw [List.length_drop]
  omega

lemma sizeofPathHeader_le (v : Volume) : sizeofPathHeader v ≤ 7 := by
  rw [sizeofPathHeader]
  split
  · decide
  · decide
  · decide

variable {malloc : (n : Nat) → Block n} {tmppathname : Nat → Block 255} (henc : v.pathEncoding ≠ .shortName)
include henc

lemma decodeRequest_eq (hss : ∀ s ∈ ss, s.length ≤ 253) :
    decodeRequest v.pathEncoding dids.length ss.length
        (requestFields dsiHeader command volid dids ++ ss.flatMap (pathRecord v)) =
      some ⟨command, volid.toNat, dids.map UInt32.toNat, ss.map afpName, []⟩ := by
  have hlead : (dsiHeader.bytes ++ [command, 0]).length = 18 := by rw [List.length_append, dsiHeader.size]; rfl
  have hvolid : beNat (beBytes 2 volid.toNat) = volid.toNat := beNat_beBytes_of_lt volid.toNat_lt
  generalize hnumbers : (dids.flatMap fun did => beBytes 4 did.toNat) ++ ss.flatMap (pathRecord v) = rest
  have hm : requestFields dsiHeader command volid dids ++ ss.flatMap (pathRecord v) =
      (dsiHeader.bytes ++ [command, 0]) ++ (beBytes 2 volid.toNat ++ rest) := by
    rw [requestFields, ← hnumbers]
    simp only [List.append_assoc]
  rw [hm]
  have hcommand : ((dsiHeader.bytes ++ [command, 0]) ++ (beBytes 2 volid.toNat ++ rest))[16]? = some command := by
    rw [List.append_assoc, List.getElem?_append_right (Nat.le_of_eq dsiHeader.size), dsiHeader.size]
    rfl
  have hfetch : fetch ((dsiHeader.bytes ++ [command, 0]) ++ (beBytes 2 volid.toNat ++ rest)) 18 2 =
      some (beBytes 2 volid.toNat) := by
    have h := fetch_mid (dsiHeader.bytes ++ [command, 0]) (beBytes 2 volid.toNat) rest
    rwa [hlead, length_beBytes] at h
  have hdrop : ((dsiHeader.bytes ++ [command, 0]) ++ (beBytes 2 volid.toNat ++ rest)).drop 20 = rest := by
    rw [← List.append_assoc]
    exact List.drop_left' (by rw [List.length_append, hlead, length_beBytes])
  rw [decodeRequest, hcommand, hfetch, hdrop, ← hnumbers]
  show (readNumbers dids.length _).bind _ = _
  rw [readNumbers_append, Option.bind_some]
  show (readPaths v.pathEncoding ss.length _).bind _ = _
  rw [readPaths_records henc hss, Option.bind_some, hvolid]
  rfl

lemma afpMoveandrename_eq {srcDid dstDid : UInt32} {src new : Bytes} {dst : Option Bytes}
    (hss : ∀ s ∈ [src, dst.getD [], new], s.length ≤ 253) :
    afpMoveandrename v malloc dsiHeader tmppathname volid srcDid dstDid src dst new =
      some (requestFields dsiHeader 23 volid [srcDid, dstDid] ++ [src, dst.getD [], new].flatMap (pathRecord v)) := by
  rw [afpMoveandrename]
  generalize dst.getD [] = dst at hss
  simp only [List.forall_mem_cons] at hss
  obtain ⟨hsrc, hdst, hnew, -⟩ := hss
  have hheader := sizeofPathHeader_le v
  have hlen : (28 + 3 * sizeofPathHeader v + dst.length + src.length + new.length) % 2 ^ 32 =
      20 + 4 * 2 + (sizeofPathHeader v + src.length +
        (sizeofPathHeader v + dst.length + (sizeofPathHeader v + new.length + 0))) := by
    omega
  have hl₀ : (requestFields dsiHeader 23 volid [srcDid, dstDid]).length = 28 := length_requestFields
  obtain ⟨r₀, hfields, h₀⟩ := @put_requestFields dsiHeader 23 volid [srcDid, dstDid] _ _ ((malloc _).size.trans hlen)
  obtain ⟨r₁, hpath₁, hl₁, h₁⟩ := putPath_next henc hsrc (tmppathname 0) hl₀ h₀
  obtain ⟨r₂, hpath₂, hl₂, h₂⟩ := putPath_next henc hdst (tmppathname 1) hl₁ h₁
  obtain ⟨r₃, hpath₃, -, h₃⟩ := putPath_next henc hnew (tmppathname 2) hl₂ h₂
  obtain rfl := List.length_eq_zero_iff.mp h₃
  simp only [Option.bind_eq_bind, hfields, Option.bind_some]
  rw [hpath₁, Option.bind_some, hpath₂, Option.bind_some, hpath₃]
  simp only [List.flatMap_cons, List.flatMap_nil, List.append_assoc]

lemma afpRename_eq {dirid : UInt32} {pathFrom pathTo : Bytes}
    (hss : ∀ s ∈ [pathFrom, pathTo], s.length ≤ 253) :
    afpRename v malloc dsiHeader tmppathname volid dirid pathFrom pathTo =
      some (requestFields dsiHeader 28 volid [dirid] ++ [pathFrom, pathTo].flatMap (pathRecord v)) := by
  rw [afpRename]
  simp only [List.forall_mem_cons] at hss
  obtain ⟨hfrom, hto, -⟩ := hss
  have hheader := sizeofPathHeader_le v
  have hlen : (24 + sizeofPathHeader v + pathFrom.length + sizeofPathHeader v + pathTo.length) % 2 ^ 32 =
      20 + 4 * 1 + (sizeofPathHeader v + pathFrom.length + (sizeofPathHeader v + pathTo.length + 0)) := by omega
  have hl₀ : (requestFields dsiHeader 28 volid [dirid]).length = 24 := length_requestFields
  obtain ⟨r₀, hfields, h₀⟩ := @put_requestFields dsiHeader 28 volid [dirid] _ _ ((malloc _).size.trans hlen)
  obtain ⟨r₁, hpath₁, hl₁, h₁⟩ := putPath_next henc hfrom (tmppathname 0) hl₀ h₀
  obtain ⟨r₂, hpath₂, -, h₂⟩ := putPath_next henc hto (tmppathname 1) hl₁ h₁
  obtain rfl := List.length_eq_zero_iff.mp h₂
  simp only [Option.bind_eq_bind, hfields, Option.bind_some]
  rw [hpath₁, Option.bind_some, hpath₂]
  simp only [List.flatMap_cons, List.flatMap_nil, List.append_assoc]

end Messages

/-- The messages of `afp_moveandrename` and `afp_rename` have no byte but those of their fields and paths, and the server reads
from them what was asked for. -/
theorem renames_decoded (v : Volume) (henc : v.pathEncoding ≠ .shortName) (malloc : (n : Nat) → Block n) (dsiHeader : Block 16)
    (tmppathname : Nat → Block 255) (volid : UInt16) (srcDid dstDid : UInt32) (src new : Bytes) (dst : Option Bytes)
    (hsrc : ShortName src) (hdst : ∀ d ∈ dst, ShortName d) (hnew : ShortName new) :
    (∃ m, afpMoveandrename v malloc dsiHeader tmppathname volid srcDid dstDid src dst new = some m ∧
      m.length = 28 + 3 * sizeofPathHeader v + src.length + (dst.getD []).length + new.length ∧
      decodeRequest v.pathEncoding 2 3 m =
        some ⟨23, volid.toNat, [srcDid.toNat, dstDid.toNat], [afpName src, afpName (dst.getD []), afpName new], []⟩) ∧
    (∃ m, afpRename v malloc dsiHeader tmppathname volid srcDid src new = some m ∧
      m.length = 24 + 2 * sizeofPathHeader v + src.length + new.length ∧
      decodeRequest v.pathEncoding 1 2 m = some ⟨28, volid.toNat, [srcDid.toNat], [afpName src, afpName new], []⟩) := by
  have hdst' : (dst.getD []).length ≤ 253 := by
    cases dst with
    | none => exact Nat.zero_le _
    | some d => exact (hdst d rfl).size
  have hmove : ∀ s ∈ [src, dst.getD [], new], s.length ≤ 253 := by
    simp only [List.forall_mem_cons]
    exact ⟨hsrc.size, hdst', hnew.size, nofun⟩
  have hrename : ∀ s ∈ [src, new], s.length ≤ 253 := by
    simp only [List.forall_mem_cons]
    exact ⟨hsrc.size, hnew.size, nofun⟩
  refine ⟨⟨_, afpMoveandrename_eq henc hmove, ?_, decodeRequest_eq henc hmove⟩,
    ⟨_, afpRename_eq henc hrename, ?_, decodeRequest_eq henc hrename⟩⟩
  · simp only [List.flatMap_cons, List.flatMap_nil, List.length_append, List.length_nil, length_requestFields,
      List.length_cons, length_pathRecord henc hsrc.size, length_pathRecord henc hdst', length_pathRecord henc hnew.size]
    omega
  · simp only [List.flatMap_cons, List.flatMap_nil, List.length_append, List.length_nil, length_requestFields,
      List.length_cons, length_pathRecord henc hsrc.size, length_pathRecord henc hnew.size]
    omega

theorem renames_decoded_letters :
    (∃ m, afpMoveandrename utf8Volume Block.zeros (.zeros 16) (fun _ => .zeros 255) 1 2 3 [97] none [98] = some m ∧
      m.length = 28 + 3 * sizeofPathHeader utf8Volume + 1 + 0 + 1 ∧
      decodeRequest .utf8Name 2 3 m = some ⟨23, 1, [2, 3], [[97], [], [98]], []⟩) ∧
    (∃ m, afpRename utf8Volume Block.zeros (.zeros 16) (fun _ => .zeros 255) 1 2 [97] [98] = some m ∧
      m.length = 24 + 2 * sizeofPathHeader utf8Volume + 1 + 1 ∧
      decodeRequest .utf8Name 1 2 m = some ⟨28, 1, [2], [[97], [98]], []⟩) :=
  renames_decoded utf8Volume (by decide) Block.zeros (.zeros 16) (fun _ => .zeros 255) 1 2 3 [97] [98] none
    ⟨by decide, by decide⟩ nofun ⟨by decide, by decide⟩

end AfpfsNg.Proto
