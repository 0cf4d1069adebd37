import AfpfsNg.Proto.Renames

/-!
# Requests with one path

Most requests about a file or a directory are built alike (`lib/proto_fork.c`, `lib/proto_files.c`, `lib/proto_directory.c`,
`lib/proto_desktop.c`): a DSI header, the fields of the request in network order, and one path at the end. `pathRequest` is
this message, and `decodePathRequest` the server's side.
-/

namespace AfpfsNg.Proto
open AfpfsNg.Base AfpfsNg.Afp

def numbers (fs : List (Nat × Nat)) : Bytes := fs.flatMap fun f => beBytes f.1 f.2

section Requests
variable (v : Volume) (malloc : (n : Nat) → Block n) (dsiHeader : Block 16) (tmppathname : Block 255) (volid : UInt16)

/-- The message with these fields; its length is computed in so many bits. -/
def pathRequest (bits : Nat) (fs : List (Nat × Nat)) (path : Bytes) : Option Bytes := do
  let front := dsiHeader.bytes ++ numbers fs
  let msg := (malloc ((front.length + sizeofPathHeader v + path.length) % 2 ^ bits)).bytes
  let msg ← put msg 0 front
  putPath v tmppathname msg front.length path

def afpOpenfork (forktype : UInt8) (dirid : UInt32) (accessmode : UInt16) (filename : Bytes) : Option Bytes :=
  pathRequest v malloc dsiHeader tmppathname 32 [(1, 26), (1, if forktype = 0 then 0 else 0x80), (2, volid.toNat),
    (4, dirid.toNat), (2, 0), (2, accessmode.toNat)] filename

def afpCreatefile (flag : UInt8) (did : UInt32) (pathname : Bytes) : Option Bytes :=
  pathRequest v malloc dsiHeader tmppathname 32 [(1, 7), (1, flag.toNat), (2, volid.toNat), (4, did.toNat)] pathname

def afpCreatedir (dirid : UInt32) (pathname : Bytes) : Option Bytes :=
  pathRequest v malloc dsiHeader tmppathname 32 [(1, 6), (1, 0), (2, volid.toNat), (4, dirid.toNat)] pathname

def afpDelete (dirid : UInt32) (pathname : Bytes) : Option Bytes :=
  pathRequest v malloc dsiHeader tmppathname 32 [(1, 8), (1, 0), (2, volid.toNat), (4, dirid.toNat)] pathname

def afpGetcomment (dtrefnum : UInt16) (did : UInt32) (pathname : Bytes) : Option Bytes :=
  pathRequest v malloc dsiHeader tmppathname 32 [(1, 58), (1, 0), (2, dtrefnum.toNat), (4, did.toNat)] pathname

def afpGetfiledirparms (did filebitmap dirbitmap : UInt32) (pathname : Bytes) : Option Bytes :=
  pathRequest v malloc dsiHeader tmppathname 32 [(1, 34), (1, 0), (2, volid.toNat), (4, did.toNat), (2, filebitmap.toNat),
    (2, dirbitmap.toNat)] pathname

def afpEnumerate (dirid filebitmap dirbitmap : UInt32) (reqcount startindex : UInt16) (pathname : Bytes) : Option Bytes :=
  pathRequest v malloc dsiHeader tmppathname 16 [(1, 9), (1, 0), (2, volid.toNat), (4, dirid.toNat), (2, filebitmap.toNat),
    (2, dirbitmap.toNat), (2, reqcount.toNat), (2, startindex.toNat), (2, 5280)] pathname

def afpEnumerateext2 (dirid filebitmap dirbitmap : UInt32) (reqcount : UInt16) (startindex : UInt64) (pathname : Bytes) :
    Option Bytes :=
  pathRequest v malloc dsiHeader tmppathname 16 [(1, 68), (1, 0), (2, volid.toNat), (4, dirid.toNat), (2, filebitmap.toNat),
    (2, dirbitmap.toNat), (2, reqcount.toNat), (4, startindex.toNat), (4, 5280)] pathname

end Requests

def readWidths : List Nat → Bytes → Option (List Nat × Bytes)
  | [], b => some ([], b)
  | w :: ws, b => do
    let number ← fetch b 0 w
    let (numbers, b) ← readWidths ws (b.drop w)
    return (beNat number :: numbers, b)

/-- The fields, the path, and what is left behind it. -/
def decodePathRequest (encoding : PathEncoding) (ws : List Nat) (m : Bytes) : Option (List Nat × Bytes × Bytes) := do
  let (fields, m) ← readWidths ws (m.drop 16)
  let (path, rest) ← readPath encoding m
  return (fields, path, rest)

/-- There is a message, and it has these fields, this path and nothing else. -/
def Carries (encoding : PathEncoding) (m : Option Bytes) (fs : List (Nat × Nat)) (path : Bytes) : Prop :=
  (m.bind (decodePathRequest encoding (fs.map Prod.fst))) = some (fs.map Prod.snd, afpName path, [])

section Messages
variable {v : Volume} {malloc : (n : Nat) → Block n} {dsiHeader : Block 16} {tmppathname : Block 255} {path : Bytes}
  {fs gs : List (Nat × Nat)} {bits : Nat}

lemma length_numbers : (numbers fs).length = (fs.map Prod.fst).sum := by
  rw [numbers, List.length_flatMap]
  simp only [length_beBytes]

lemma readWidths_numbers (rest : Bytes) :
    readWidths (fs.map Prod.fst) (numbers fs ++ rest) = some (fs.map fun f => f.2 % 256 ^ f.1, rest) := by
  induction fs with
  | nil => rfl
  | cons f fs ih =>
    have hfs : numbers (f :: fs) ++ rest = beBytes f.1 f.2 ++ (numbers fs ++ rest) := by
      rw [numbers, List.flatMap_cons, List.append_assoc]
      rfl
    rw [hfs, List.map_cons, readWidths, fetch_zero _ (length_beBytes ..), List.drop_left' (length_beBytes ..), ih]
    show some (beNat (beBytes f.1 f.2) :: _, rest) = _
    rw [beNat_beBytes]
    rfl

lemma put_front {b front : Bytes} {k n : Nat} (hfront : front.length = k) (hb : b.length = k + n) :
    ∃ rest, put b 0 front = some (front ++ rest) ∧ rest.length = n := by
  refine ⟨_, put_zero hfront (by omega), ?_⟩
  rw [List.length_drop]
  omega

lemma pathRequest_carries (henc : v.pathEncoding ≠ .shortName) (hpath : path.length ≤ 253)
    (hbits : 276 + (fs.map Prod.fst).sum < 2 ^ bits) (hwidths : gs.map Prod.fst = fs.map Prod.fst)
    (hvalues : gs.map Prod.snd = fs.map fun f => f.2 % 256 ^ f.1) :
    Carries v.pathEncoding (pathRequest v malloc dsiHeader tmppathname bits fs path) gs path := by
  have hheader := sizeofPathHeader_le v
  have hfront : (dsiHeader.bytes ++ numbers fs).length = 16 + (fs.map Prod.fst).sum := by
    rw [List.length_append, dsiHeader.size, length_numbers]
  have hlen : ((dsiHeader.bytes ++ numbers fs).length + sizeofPathHeader v + path.length) % 2 ^ bits =
      16 + (fs.map Prod.fst).sum + (sizeofPathHeader v + path.length + 0) := by
    rw [hfront, Nat.mod_eq_of_lt (by omega), Nat.add_zero, Nat.add_assoc]
  obtain ⟨r₀, hfields, h₀⟩ := put_front hfront ((malloc _).size.trans hlen)
  obtain ⟨r₁, hwritten, -, h₁⟩ := putPath_next henc hpath tmppathname rfl h₀
  obtain rfl := List.length_eq_zero_iff.1 h₁
  have hread := readPath_record henc hpath []
  rw [List.append_nil] at hread
  rw [Carries, pathRequest]
  simp only [Option.bind_eq_bind, hfields, Option.bind_some]
  rw [hwritten, Option.bind_some, decodePathRequest, List.append_nil, List.append_assoc, List.drop_left' dsiHeader.size,
    hwidths, readWidths_numbers]
  show (readPath v.pathEncoding (pathRecord v path)).bind _ = _
  rw [hread, hvalues]
  rfl

end Messages

/-- From each message the server reads what was asked for; of a bitmap or an index that is too wide for its field, the lower
bytes. -/
theorem path_requests_decoded (v : Volume) (henc : v.pathEncoding ≠ .shortName) (malloc : (n : Nat) → Block n)
    (dsiHeader : Block 16) (tmppathname : Block 255) (volid : UInt16) (did filebitmap dirbitmap : UInt32)
    (flag : UInt8) (word count : UInt16) (index : UInt64) (path : Bytes) (hpath : ShortName path) :
    Carries v.pathEncoding (afpOpenfork v malloc dsiHeader tmppathname volid flag did word path) [(1, 26),
      (1, if flag = 0 then 0 else 128), (2, volid.toNat), (4, did.toNat), (2, 0), (2, word.toNat)] path ∧
    Carries v.pathEncoding (afpCreatefile v malloc dsiHeader tmppathname volid flag did path) [(1, 7), (1, flag.toNat),
      (2, volid.toNat), (4, did.toNat)] path ∧
    Carries v.pathEncoding (afpCreatedir v malloc dsiHeader tmppathname volid did path) [(1, 6), (1, 0), (2, volid.toNat),
      (4, did.toNat)] path ∧
    Carries v.pathEncoding (afpDelete v malloc dsiHeader tmppathname volid did path) [(1, 8), (1, 0), (2, volid.toNat),
      (4, did.toNat)] path ∧
    Carries v.pathEncoding (afpGetcomment v malloc dsiHeader tmppathname word did path) [(1, 58), (1, 0), (2, word.toNat),
      (4, did.toNat)] path ∧
    Carries v.pathEncoding (afpGetfiledirparms v malloc dsiHeader tmppathname volid did filebitmap dirbitmap path) [(1, 34),
      (1, 0), (2, volid.toNat), (4, did.toNat), (2, filebitmap.toNat % 65536), (2, dirbitmap.toNat % 65536)] path ∧
    Carries v.pathEncoding (afpEnumerate v malloc dsiHeader tmppathname volid did filebitmap dirbitmap count word path)
      [(1, 9), (1, 0), (2, volid.toNat), (4, did.toNat), (2, filebitmap.toNat % 65536), (2, dirbitmap.toNat % 65536),
        (2, count.toNat), (2, word.toNat), (2, 5280)] path ∧
    Carries v.pathEncoding (afpEnumerateext2 v malloc dsiHeader tmppathname volid did filebitmap dirbitmap count index path)
      [(1, 68), (1, 0), (2, volid.toNat), (4, did.toNat), (2, filebitmap.toNat % 65536), (2, dirbitmap.toNat % 65536),
        (2, count.toNat), (4, index.toNat % 2 ^ 32), (4, 5280)] path := by
  have hvolid : volid.toNat % 256 ^ 2 = volid.toNat := Nat.mod_eq_of_lt volid.toNat_lt
  have hdid : did.toNat % 256 ^ 4 = did.toNat := Nat.mod_eq_of_lt did.toNat_lt
  have hflag : flag.toNat % 256 ^ 1 = flag.toNat := Nat.mod_eq_of_lt flag.toNat_lt
  have hword : word.toNat % 256 ^ 2 = word.toNat := Nat.mod_eq_of_lt word.toNat_lt
  have hcount : count.toNat % 256 ^ 2 = count.toNat := Nat.mod_eq_of_lt count.toNat_lt
  have hfork : (if flag = 0 then 0 else 128) % 256 ^ 1 = if flag = 0 then 0 else 128 := by split <;> rfl
  refine ⟨?_, ?_, ?_, ?_, ?_, ?_, ?_, ?_⟩ <;>
    · refine pathRequest_carries henc hpath.size (by simp) rfl ?_
      simp only [List.map_cons, List.map_nil, hvolid, hdid, hflag, hword, hcount, hfork]
      rfl

theorem path_requests_decoded_letter :
    ∃ m, afpDelete utf8Volume Block.zeros (.zeros 16) (.zeros 255) 1 2 [97] = some m ∧
      decodePathRequest .utf8Name [1, 1, 2, 4] m = some ([8, 0, 1, 2], [97], []) := by
  have h := (path_requests_decoded utf8Volume (by decide) Block.zeros (.zeros 16) (.zeros 255) 1 2 0 0 0 0 0 0 [97]
    ⟨by decide, by decide⟩).2.2.2.1
  exact Option.bind_eq_some_iff.1 h

end AfpfsNg.Proto
