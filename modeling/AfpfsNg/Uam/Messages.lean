import AfpfsNg.Uam.Logins
import AfpfsNg.Dsi.StatusReply
import AfpfsNg.Proto.Names

/-!
# Where the credentials are

The messages of `afp_login` and `afp_changepassword` (`lib/proto_login.c`) and the blocks that `cleartxt_login`,
`cleartxt_passwd` and `dhx_login` (`lib/uams.c`) make for them. Each block has the user name and then a password or a public
value, with a byte between them or not, which depends on where the block is in memory: it starts at the
address `addr` here. The server looks at even offsets in the message.
-/

namespace AfpfsNg.Uam
open AfpfsNg.Base AfpfsNg.Dsi AfpfsNg.Proto

def malloc (garbage : Nat → UInt8) (len : Nat) : Bytes := (List.range len).map garbage

/-- C `copy_to_pascal` to `p`, which then moves behind the string. -/
def pascalTo (block : Bytes) (p : Nat) (src : Bytes) : Option (Bytes × Nat) := do
  let (len, dest) ← copyToPascal (block.drop p) src
  return (block.take p ++ dest, p + (len + 1))

/-- C `afp_login`: the message that is sent. -/
def afpLogin (garbage : Nat → UInt8) (header : Block 16) (avName uaName userauthinfo : Bytes) : Option Bytes := do
  let msg := malloc garbage (17 + (avName.length + 1) + (uaName.length + 1) + userauthinfo.length)
  let msg ← put msg 0 (header.bytes ++ [18])
  let (msg, p) ← pascalTo msg 17 avName
  let (msg, p) ← pascalTo msg p uaName
  put msg p userauthinfo

/-- C `afp_changepassword`: the message that is sent. Nothing is written to `pad`. -/
def afpChangepassword (garbage : Nat → UInt8) (header : Block 16) (uaName userauthinfo : Bytes) : Option Bytes := do
  let msg := malloc garbage (18 + (uaName.length + 1) + userauthinfo.length)
  let msg ← put msg 0 (header.bytes ++ [36])
  let (msg, p) ← pascalTo msg 18 uaName
  put msg p userauthinfo

/-- The block of `cleartxt_login` and `cleartxt_passwd`. -/
def cleartxtInfo (addr : Nat) (username passwd : Bytes) : Option Bytes := do
  let len := 1 + username.length + 1 + 8
  let (ai, p) ← pascalTo (zeros len) 0 username
  if (addr + p) % 2 = 1 then
    let ai ← put ai p (strncpy passwd 8)
    return ai.take (len - 1)
  else put ai (p + 1) (strncpy passwd 8)

section Code
variable {Γ M : Type} (G : Gcrypt Γ M)

def dhxMa : M := G.mpiPowm (G.mpiScan gBinary) (dhxRa G) (G.mpiScan pBinary)

def dhxInfoAt (addr : Nat) (username : Bytes) : Option Bytes := do
  let aiLen := 1 + username.length + 1 + 16
  let (ai, d) ← pascalTo (zeros aiLen) 0 username
  if (addr + d) % 2 = 1 then put ai (d + 1) (mpiBytes G (dhxMa G) 16)
  else
    let ai ← put ai d (mpiBytes G (dhxMa G) 16)
    return ai.take (aiLen - 1)

end Code

/-- A command block that ends with a field of `size` bytes at an even offset, behind the user name and a zero or not. -/
structure OnBoundary (size : Nat) (block front username field : Bytes) : Prop where
  size : field.length = size
  ends : ∃ pad, (pad = [] ∨ pad = [0]) ∧ block = front ++ pascal username ++ pad ++ field ∧
    (front ++ pascal username ++ pad).length % 2 = 0

section Writing
variable {front rest s bs : Bytes} {p : Nat}

lemma length_malloc (garbage : Nat → UInt8) (len : Nat) : (malloc garbage len).length = len := by
  rw [malloc, List.length_map, List.length_range]

lemma length_pascal (s : Bytes) : (pascal s).length = s.length + 1 := rfl

lemma pascalTo_behind (hp : front.length = p) (hs : s.length < 256) (hrest : s.length + 1 ≤ rest.length) :
    pascalTo (front ++ rest) p s =
      some ((front ++ pascal s) ++ rest.drop (s.length + 1), (front ++ pascal s).length) := by
  subst hp
  have hpascal : beBytes 1 s.length ++ s = pascal s := rfl
  rw [pascalTo, List.drop_left, copyToPascal_fits hs hrest, List.take_left, hpascal, List.length_append,
    List.append_assoc]
  rfl

lemma pascalTo_first (hs : s.length < 256) (hrest : s.length + 1 ≤ rest.length) :
    pascalTo rest 0 s = some (pascal s ++ rest.drop (s.length + 1), (pascal s).length) :=
  @pascalTo_behind [] rest s 0 rfl hs hrest

lemma put_last (hp : front.length = p) (h : bs.length = rest.length) : put (front ++ rest) p bs = some (front ++ bs) := by
  rw [put_append front hp (Nat.le_of_eq h), h, List.drop_length, List.append_nil]

lemma write_method {uaName info : Bytes} (hp : front.length = p) (hua : uaName.length < 256)
    (hrest : rest.length = uaName.length + 1 + info.length) :
    ((pascalTo (front ++ rest) p uaName).bind fun x => put x.1 x.2 info) = some (front ++ pascal uaName ++ info) := by
  rw [pascalTo_behind hp hua (by omega), Option.bind_some]
  apply put_last rfl
  rw [List.length_drop]
  omega

variable (garbage : Nat → UInt8) (header : Block 16) {avName uaName info : Bytes}

lemma afpLogin_eq (hav : avName.length < 256) (hua : uaName.length < 256) :
    afpLogin garbage header avName uaName info =
      some (header.bytes ++ ((18 :: pascal avName ++ pascal uaName) ++ info)) := by
  have hfront : (header.bytes ++ [18]).length = 17 := by rw [List.length_append, header.size, List.length_singleton]
  have hmsg := length_malloc garbage (17 + (avName.length + 1) + (uaName.length + 1) + info.length)
  rw [afpLogin, put_zero hfront (by omega)]
  show (pascalTo _ 17 avName).bind _ = _
  rw [pascalTo_behind hfront hav (by rw [List.length_drop]; omega), Option.bind_some]
  have hwritten : header.bytes ++ ((18 :: pascal avName ++ pascal uaName) ++ info) =
      header.bytes ++ [18] ++ pascal avName ++ pascal uaName ++ info := by
    simp only [List.append_assoc, List.cons_append, List.nil_append]
  rw [hwritten]
  apply write_method rfl hua
  rw [List.length_drop, List.length_drop]
  omega

lemma afpChangepassword_eq (hua : uaName.length < 256) :
    afpChangepassword garbage header uaName info =
      some (header.bytes ++ ((36 :: garbage 17 :: pascal uaName) ++ info)) := by
  have hfront : (header.bytes ++ [36]).length = 17 := by rw [List.length_append, header.size, List.length_singleton]
  have hmsg := length_malloc garbage (18 + (uaName.length + 1) + info.length)
  have hpad : (malloc garbage (18 + (uaName.length + 1) + info.length)).drop 17 =
      garbage 17 :: (malloc garbage (18 + (uaName.length + 1) + info.length)).drop 18 := by
    rw [List.drop_eq_getElem_cons (by omega)]
    simp only [malloc, List.getElem_map, List.getElem_range]
  rw [afpChangepassword, put_zero hfront (by omega), hpad]
  have hmove (rest : Bytes) : header.bytes ++ [36] ++ garbage 17 :: rest = header.bytes ++ [36, garbage 17] ++ rest := by
    rw [List.append_assoc, List.append_assoc]
    rfl
  have hwritten : header.bytes ++ ((36 :: garbage 17 :: pascal uaName) ++ info) =
      header.bytes ++ [36, garbage 17] ++ pascal uaName ++ info := by
    simp only [List.append_assoc, List.cons_append, List.nil_append]
  rw [hmove, hwritten]
  apply write_method _ hua
  · rw [List.length_drop]
    omega
  · rw [List.length_append, header.size]
    rfl

end Writing

section Blocks
variable {username field : Bytes} {addr n : Nat}

lemma zeros_drop_name (len n : Nat) : (zeros (1 + len + 1 + n)).drop (len + 1) = 0 :: zeros n := by
  rw [zeros, List.drop_replicate, zeros, ← List.replicate_succ]
  congr 1
  omega

lemma pascalTo_zeros (hname : username.length ≤ 255) (n : Nat) :
    pascalTo (zeros (1 + username.length + 1 + n)) 0 username =
      some (pascal username ++ 0 :: zeros n, (pascal username).length) := by
  have hroom : username.length + 1 ≤ (zeros (1 + username.length + 1 + n)).length := by
    rw [zeros, List.length_replicate]
    omega
  rw [pascalTo_first (by omega) hroom, zeros_drop_name]

lemma put_directly (hfield : field.length = n) :
    ((put (pascal username ++ 0 :: zeros n) (pascal username).length field).map
      (·.take (1 + username.length + 1 + n - 1))) = some (pascal username ++ field) := by
  have hroom : field.length ≤ (0 :: zeros n).length := by
    rw [List.length_cons, zeros, List.length_replicate]
    omega
  have hsize : (pascal username ++ field).length = 1 + username.length + 1 + n - 1 := by
    rw [List.length_append, length_pascal]
    omega
  rw [put_append _ rfl hroom, Option.map_some, ← List.append_assoc, List.take_left' hsize]

lemma put_padded (hfield : field.length = n) :
    put (pascal username ++ 0 :: zeros n) ((pascal username).length + 1) field =
      some (pascal username ++ [0] ++ field) := by
  have hmove : pascal username ++ 0 :: zeros n = pascal username ++ [0] ++ zeros n := by
    rw [List.append_assoc]
    rfl
  rw [hmove]
  apply put_last
  · rw [List.length_append, List.length_singleton]
  · rw [zeros, List.length_replicate, hfield]

lemma cleartxtInfo_eq (haddr : addr % 2 = 0) (hname : username.length ≤ 255) (passwd : Bytes) :
    ∃ pad, (pad = [] ∨ pad = [0]) ∧ (username.length + 1 + pad.length) % 2 = 1 ∧
      cleartxtInfo addr username passwd = some (pascal username ++ pad ++ strncpy passwd 8) := by
  have hpasswd := length_strncpy passwd 8
  rw [cleartxtInfo, pascalTo_zeros hname 8]
  show ∃ pad, _ ∧ _ ∧ (if (addr + (username.length + 1)) % 2 = 1 then _ else _) = _
  split
  case isTrue hodd =>
    refine ⟨[], .inl rfl, ?_, ?_⟩
    · rw [List.length_nil]
      omega
    · rw [List.append_nil, ← put_directly hpasswd]
      exact Option.map_eq_bind.symm
  case isFalse heven =>
    refine ⟨[0], .inr rfl, ?_, put_padded hpasswd⟩
    rw [List.length_singleton]
    omega

variable {Γ M : Type} (G : Gcrypt Γ M)

lemma length_mpiBytes (hprint : ∀ m n, (G.mpiPrint m n).1.length = n) (m : M) (n : Nat) : (mpiBytes G m n).length = n := by
  have hlen := hprint m n
  show (if (G.mpiPrint m n).2 < n then zeros (n - (G.mpiPrint m n).2) ++ (G.mpiPrint m n).1.take (G.mpiPrint m n).2
    else (G.mpiPrint m n).1).length = n
  split
  case isTrue hlt =>
    rw [List.length_append, List.length_take, zeros, List.length_replicate, hlen]
    omega
  case isFalse => exact hlen

lemma dhxInfoAt_eq (hMa : (mpiBytes G (dhxMa G) 16).length = 16) (haddr : addr % 2 = 0) (hname : username.length ≤ 255) :
    ∃ pad, (pad = [] ∨ pad = [0]) ∧ (username.length + 1 + pad.length) % 2 = 0 ∧
      dhxInfoAt G addr username = some (pascal username ++ pad ++ mpiBytes G (dhxMa G) 16) := by
  rw [dhxInfoAt, pascalTo_zeros hname 16]
  show ∃ pad, _ ∧ _ ∧ (if (addr + (username.length + 1)) % 2 = 1 then _ else _) = _
  split
  case isTrue hodd =>
    refine ⟨[0], .inr rfl, ?_, put_padded hMa⟩
    rw [List.length_singleton]
    omega
  case isFalse heven =>
    refine ⟨[], .inl rfl, ?_, ?_⟩
    · rw [List.length_nil]
      omega
    · rw [List.append_nil, ← put_directly hMa]
      exact Option.map_eq_bind.symm

lemma usernameInfo_eq (hname : username.length ≤ 255) (n : Nat) :
    usernameInfo username (1 + username.length + 1 + n) = pascal username ++ 0 :: zeros n := by
  have hmod : username.length % 256 = username.length := Nat.mod_eq_of_lt (by omega)
  rw [usernameInfo, hmod, List.take_length, ← zeros_drop_name username.length, ← length_pascal]
  rw [← Nat.zero_add (pascal username).length]
  rfl

lemma dhxInfoAt_eq_dhxFirst (haddr : addr % 2 = 0) (hname : username.length ≤ 255)
    (hMa : (mpiBytes G (dhxMa G) 16).length = 16) : dhxInfoAt G addr username = some (dhxFirst G username) := by
  have hmod : username.length % 256 = username.length := Nat.mod_eq_of_lt (by omega)
  have hroom : (pascal username ++ 0 :: zeros 16).length = username.length + 1 + 17 := by
    rw [List.length_append, length_pascal]
    rfl
  rw [dhxInfoAt, pascalTo_zeros hname 16, dhxFirst, usernameInfo_eq hname, hmod]
  show (if (addr + (username.length + 1)) % 2 = 1 then _ else _) = _
  by_cases heven : username.length % 2 = 0
  · rw [if_pos (by omega), if_pos (by omega), put, if_pos (by rw [hroom, hMa, length_pascal])]
    rfl
  · rw [if_neg (by omega), if_neg (by omega), put, if_pos (by rw [hroom, hMa, length_pascal]; omega)]
    have hlen : 1 + username.length + 1 + 16 - 1 = 1 + username.length + 16 := by omega
    rw [hlen]
    rfl

end Blocks

lemma afpVersions_even : ∀ v ∈ afpVersions, v.1.length % 2 = 0 ∧ v.1.length < 256 := by decide

lemma OnBoundary.intro {size : Nat} {front username pad field : Bytes} (hfield : field.length = size)
    (hpad : pad = [] ∨ pad = [0]) (heven : (front.length + (username.length + 1) + pad.length) % 2 = 0) :
    OnBoundary size (front ++ (pascal username ++ pad ++ field)) front username field := by
  refine ⟨hfield, pad, hpad, ?_, ?_⟩
  · rw [List.append_assoc (front ++ pascal username), List.append_assoc front, List.append_assoc]
  · rw [List.length_append, List.length_append, length_pascal]
    exact heven

/-- The password of `cleartxt_login` and of `cleartxt_passwd` and the public value of `dhx_login` are at the end of their
messages, at an even offset of the command block. -/
theorem credentials_on_boundary {Γ M : Type} (G : Gcrypt Γ M) (hprint : ∀ m n, (G.mpiPrint m n).1.length = n)
    (garbage : Nat → UInt8) (header : Block 16) (addr : Nat) (haddr : addr % 2 = 0) (username passwd : Bytes)
    (hname : username.length ≤ 255) (v : Bytes × UInt8) (hv : v ∈ afpVersions) :
    (∃ info msg, cleartxtInfo addr username passwd = some info ∧
      afpLogin garbage header v.1 Method.cleartxtPasswrd.name info = some (header.bytes ++ msg) ∧
      OnBoundary 8 msg (18 :: pascal v.1 ++ pascal Method.cleartxtPasswrd.name) username (strncpy passwd 8)) ∧
    (∃ msg, dhxInfoAt G addr username = some (dhxFirst G username) ∧
      afpLogin garbage header v.1 Method.dhcast128.name (dhxFirst G username) = some (header.bytes ++ msg) ∧
      OnBoundary 16 msg (18 :: pascal v.1 ++ pascal Method.dhcast128.name) username (mpiBytes G (dhxMa G) 16)) ∧
    (∃ info msg, cleartxtInfo addr username passwd = some info ∧
      afpChangepassword garbage header Method.cleartxtPasswrd.name info = some (header.bytes ++ msg) ∧
      OnBoundary 8 msg (36 :: garbage 17 :: pascal Method.cleartxtPasswrd.name) username (strncpy passwd 8)) := by
  obtain ⟨heven, hlen⟩ := afpVersions_even v hv
  have hpasswd := length_strncpy passwd 8
  have hMa := length_mpiBytes G hprint (dhxMa G) 16
  obtain ⟨pad, hpad, hodd, hcleartxt⟩ := cleartxtInfo_eq haddr hname passwd
  obtain ⟨pad', hpad', heven', hdhx⟩ := dhxInfoAt_eq G hMa haddr hname
  have hfirst := dhxInfoAt_eq_dhxFirst G haddr hname hMa
  have hinfo : dhxFirst G username = pascal username ++ pad' ++ mpiBytes G (dhxMa G) 16 :=
    Option.some.inj (hfirst.symm.trans hdhx)
  have hcleartxtName : (pascal Method.cleartxtPasswrd.name).length = 17 := rfl
  have hdhxName : (pascal Method.dhcast128.name).length = 10 := rfl
  refine ⟨⟨_, _, hcleartxt, afpLogin_eq garbage header hlen (by decide), .intro hpasswd hpad ?_⟩,
    ⟨_, hfirst, afpLogin_eq garbage header hlen (by decide), hinfo ▸ .intro hMa hpad' ?_⟩,
    ⟨_, _, hcleartxt, afpChangepassword_eq garbage header (by decide), .intro hpasswd hpad ?_⟩⟩
  · rw [List.cons_append, List.length_cons, List.length_append, length_pascal, hcleartxtName]
    omega
  · rw [List.cons_append, List.length_cons, List.length_append, length_pascal, hdhxName]
    omega
  · rw [List.length_cons, List.length_cons, hcleartxtName]
    omega

theorem credentials_on_boundary_joe :
    let header : Block 16 := ⟨zeros 16, List.length_replicate⟩
    (∃ info msg, cleartxtInfo 0 [106, 111, 101] [120] = some info ∧
      afpLogin (fun _ => 7) header [65, 70, 80, 51, 46, 49] Method.cleartxtPasswrd.name info = some (header.bytes ++ msg) ∧
      OnBoundary 8 msg (18 :: pascal [65, 70, 80, 51, 46, 49] ++ pascal Method.cleartxtPasswrd.name) [106, 111, 101]
        (strncpy [120] 8)) ∧
    (∃ msg, dhxInfoAt plainGcrypt 0 [106, 111, 101] = some (dhxFirst plainGcrypt [106, 111, 101]) ∧
      afpLogin (fun _ => 7) header [65, 70, 80, 51, 46, 49] Method.dhcast128.name (dhxFirst plainGcrypt [106, 111, 101]) =
        some (header.bytes ++ msg) ∧
      OnBoundary 16 msg (18 :: pascal [65, 70, 80, 51, 46, 49] ++ pascal Method.dhcast128.name) [106, 111, 101]
        (mpiBytes plainGcrypt (dhxMa plainGcrypt) 16)) ∧
    (∃ info msg, cleartxtInfo 0 [106, 111, 101] [120] = some info ∧
      afpChangepassword (fun _ => 7) header Method.cleartxtPasswrd.name info = some (header.bytes ++ msg) ∧
      OnBoundary 8 msg (36 :: 7 :: pascal Method.cleartxtPasswrd.name) [106, 111, 101] (strncpy [120] 8)) :=
  credentials_on_boundary plainGcrypt (fun m n => length_beBytes n m) (fun _ => 7) _ 0 rfl [106, 111, 101] [120] (by decide)
    ([65, 70, 80, 51, 46, 49], 31) (by decide)

end AfpfsNg.Uam
