import AfpfsNg.Uam.Names
import AfpfsNg.Afp.Volume

/-!
# Logins

The logins of `lib/uams.c` that exchange blocks with the server, and `afp_login_reply` (`lib/proto_login.c`). The
routines of libgcrypt are any functions (`Gcrypt`), and the server is any state with an answer to each request
(`Peer`). Each login compares what came back with what it needs, and calls `assert` when they differ. What it passes to
`assert` is a text, and a text is not null: the exchange goes on. `afp_login_reply` does not set `size` either.
-/

namespace AfpfsNg.Uam
open AfpfsNg.Base AfpfsNg.Afp

def kFPAuthContinue : Int := -5001
def kFPUserNotAuth : Int := -5023

inductive Request where
  | login (avName : Bytes) (uaName : Method) (userauthinfo : Bytes)
  | logincont (id : Nat) (userauthinfo : Bytes)
  deriving DecidableEq, Repr

/-- What `dsi_send` returns, and what is behind the header of the reply. -/
structure Reply where
  code : Int
  userauthinfo : Bytes
  deriving DecidableEq, Repr

structure Peer (σ : Type) where
  respond : σ → Request → Reply × σ

/-- The server, the name of the version in use, and a record of what was sent. -/
structure Session (σ : Type) where
  peer : σ
  avName : Bytes
  sent : List (Request × Reply)

inductive Cipher where
  /-- `GCRY_CIPHER_DES`, `GCRY_CIPHER_MODE_ECB` -/
  | des
  /-- `GCRY_CIPHER_CAST5`, `GCRY_CIPHER_MODE_CBC` -/
  | cast5
  deriving DecidableEq, Repr

/-- The routines of libgcrypt, over cipher handles `Γ` and big numbers `M`; `none` is a failure. -/
structure Gcrypt (Γ M : Type) where
  cipherOpen : Cipher → Option Γ
  cipherSetkey : Γ → Bytes → Option Γ
  cipherSetiv : Γ → Bytes → Option Γ
  cipherEncrypt : Γ → Bytes → Option (Bytes × Γ)
  cipherDecrypt : Γ → Bytes → Option (Bytes × Γ)
  mpiScan : Bytes → M
  mpiPrint : M → Nat → Bytes × Nat
  mpiPowm : M → M → M → M
  mpiAddUi : M → Nat → M
  mdHash : Bytes → Bytes
  randomize : Nat → Bytes
  createNonce : Nat → Bytes

structure RxBuffer where
  size : Nat
  maxsize : Nat
  data : Bytes

def zeros (n : Nat) : Bytes := List.replicate n 0

def RxBuffer.calloc (maxsize : Nat) : RxBuffer := ⟨0, maxsize, zeros maxsize⟩

/-- C `afp_login_reply`. The size of the buffer is not touched. -/
def afpLoginReply (rx : RxBuffer) (userauthinfo : Bytes) : RxBuffer :=
  { rx with data := patch rx.data 0 (userauthinfo.take rx.maxsize) }

/-- C `assert` of a text, which is never null. -/
def assertText (_text : String) : Except Fault Unit := .ok ()

def strncpy (s : Bytes) (n : Nat) : Bytes := s.take n ++ zeros (n - s.length)

lemma length_strncpy (s : Bytes) (n : Nat) : (strncpy s n).length = n := by
  rw [strncpy, List.length_append, List.length_take, zeros, List.length_replicate]
  omega

/-- A `calloc`ed block of `n` bytes with the user name in front, as a Pascal string. -/
def usernameInfo (username : Bytes) (n : Nat) : Bytes :=
  patch (zeros n) 0 (UInt8.ofNat username.length :: username.take (username.length % 256))

/-- C `dhx_c2siv`: `"LWallace"`. -/
def dhxC2siv : Bytes := [76, 87, 97, 108, 108, 97, 99, 101]

/-- C `dhx_s2civ`: `"CJalbert"`. -/
def dhxS2civ : Bytes := [67, 74, 97, 108, 98, 101, 114, 116]

def pBinary : Bytes :=
  [0xba, 0x28, 0x73, 0xdf, 0xb0, 0x60, 0x57, 0xd4, 0x3f, 0x20, 0x24, 0x74, 0x4c, 0xee, 0xe7, 0x5b]

def gBinary : Bytes := [0x07]

section Code
variable {σ Γ M : Type} (G : Gcrypt Γ M) (P : Peer σ)

def Session.call (k : Session σ) (r : Request) : Reply × Session σ :=
  let (a, peer) := P.respond k.peer r
  (a, { k with peer := peer, sent := k.sent ++ [(r, a)] })

/-- A number printed into `n` bytes and moved to their end. -/
def mpiBytes (m : M) (n : Nat) : Bytes :=
  let (buf, len) := G.mpiPrint m n
  if len < n then zeros (n - len) ++ buf.take len else buf

/-- A login with one block from the server; `info` is what to send back and what to make of the answer. -/
def oneBlockLogin (uaName : Method) (ai : Bytes) (maxsize : Nat) (text : String)
    (info : Bytes → Option (Bytes × (Reply → Except Fault Int))) (k : Session σ) :
    Except Fault (Int × Session σ) := do
  let (a, k) := k.call P (.login k.avName uaName ai)
  let rbuf := afpLoginReply (.calloc maxsize) a.userauthinfo
  if a.code ≠ kFPAuthContinue then return (a.code, k)
  else
    if rbuf.size ≠ rbuf.maxsize then assertText text
    let id := beNat (slice rbuf.data 0 2)
    match info rbuf.data with
    | none => return (-1, k)
    | some (ai, finish) =>
      let (a, k) := k.call P (.logincont id ai)
      return (← finish a, k)

def randnumInfo (passwd block : Bytes) : Option (Bytes × (Reply → Except Fault Int)) := do
  let ctx ← G.cipherOpen .des
  let ctx ← G.cipherSetkey ctx (strncpy passwd 8)
  let (ai, _) ← G.cipherEncrypt ctx (slice block 2 8)
  return (ai, fun a => return a.code)

def randnumLogin (username passwd : Bytes) : Session σ → Except Fault (Int × Session σ) :=
  oneBlockLogin P .randnumExchange (usernameInfo username (1 + username.length)) 10
    "size of data returned during randnum auth process was wrong size, should be 10 bytes!" (randnumInfo G passwd)

/-- A byte shifted to the left with the top bit of the next one. A `char` is signed: the shift to the right gives -1. -/
def rotateByte (c next : UInt8) : UInt8 := if next < 128 then c <<< 1 else 255

def rotateKey (key : Bytes) : Bytes := List.zipWith rotateByte key (key.rotate 1)

/-- The server's random number encrypted with the password, and our own. The
answer is compared with ours encrypted. -/
def randnum2Info (passwd block : Bytes) : Option (Bytes × (Reply → Except Fault Int)) := do
  let ctx ← G.cipherOpen .des
  let ctx ← G.cipherSetkey ctx (rotateKey (strncpy passwd 8))
  let (ai, ctx) ← G.cipherEncrypt ctx (slice block 2 8)
  let nonce := G.createNonce 8
  return (ai ++ nonce, fun a => do
    let rbuf := afpLoginReply (.calloc 8) a.userauthinfo
    if a.code ≠ kFPNoErr then return a.code
    else
      if rbuf.size ≠ rbuf.maxsize then
        assertText "size of data returned during randnum2 auth process was wrong size, should be 8 bytes!"
      match G.cipherEncrypt ctx nonce with
      | none => return -1
      | some (crypted, _) => return if crypted ≠ rbuf.data then kFPUserNotAuth else a.code)

def randnum2Login (username passwd : Bytes) : Session σ → Except Fault (Int × Session σ) :=
  oneBlockLogin P .twoWayRandnum (usernameInfo username (1 + username.length)) 10
    "size of data returned during randnum2 auth process was wrong size, should be 10 bytes!" (randnum2Info G passwd)

def dhxRa : M := G.mpiScan (G.randomize 32)

/-- The first block of `dhx_login`: the user name, and `Ma` at the next even address. -/
def dhxFirst (username : Bytes) : Bytes :=
  let Ma := G.mpiPowm (G.mpiScan gBinary) (dhxRa G) (G.mpiScan pBinary)
  let d := username.length % 256 + 1
  let ai := usernameInfo username (1 + username.length + 1 + 16)
  if d % 2 = 1 then patch ai (d + 1) (mpiBytes G Ma 16)
  else (patch ai d (mpiBytes G Ma 16)).take (1 + username.length + 16)

/-- The server's nonce, increased, and the password, encrypted with the session key. -/
def dhxInfo (passwd block : Bytes) : Option (Bytes × (Reply → Except Fault Int)) := do
  let Mb := G.mpiScan (slice block 2 16)
  let K := mpiBytes G (G.mpiPowm Mb (dhxRa G) (G.mpiScan pBinary)) 16
  let ctx ← G.cipherOpen .cast5
  let ctx ← G.cipherSetkey ctx K
  let ctx ← G.cipherSetiv ctx dhxS2civ
  let (plain, ctx) ← G.cipherDecrypt ctx (slice block 18 32)
  let newNonce := G.mpiAddUi (G.mpiScan (plain.take 16)) 1
  let ctx ← G.cipherSetiv ctx dhxC2siv
  let (ai, _) ← G.cipherEncrypt ctx (mpiBytes G newNonce 16 ++ strncpy passwd 64)
  return (ai, fun a => return a.code)

def dhxLogin (username passwd : Bytes) : Session σ → Except Fault (Int × Session σ) :=
  oneBlockLogin P .dhcast128 (dhxFirst G username) 50
    "size of data returned during dhx auth process was wrong size, should be 50 bytes!" (dhxInfo G passwd)

def bignumLen (block : Bytes) : Nat := beNat (slice block 6 2)

/-- What `dhx2_login` makes of the first block: `Ma` and the encrypted nonce, the cipher handle and the nonce. -/
def dhx2Start (block : Bytes) : Option (Bytes × Γ × Bytes) := do
  let n := bignumLen block
  let g := G.mpiScan (slice block 2 4)
  let p := G.mpiScan (slice block 8 n)
  let Mb := G.mpiScan (slice block (8 + n) n)
  let Ra := G.mpiScan (G.randomize n)
  let Ma := G.mpiPowm g Ra p
  let K := G.mpiPowm Mb Ra p
  let nonce := G.createNonce 16
  let ctx ← G.cipherOpen .cast5
  let ctx ← G.cipherSetkey ctx (G.mdHash (mpiBytes G K n))
  let ctx ← G.cipherSetiv ctx dhxC2siv
  let (crypted, ctx) ← G.cipherEncrypt ctx nonce
  return (mpiBytes G Ma n ++ crypted, ctx, nonce)

def dhx2Plaintext (ctx : Γ) (block : Bytes) : Option (Bytes × Γ) := do
  let ctx ← G.cipherSetiv ctx dhxS2civ
  G.cipherDecrypt ctx (slice block 2 32)

def increment (nonce : Bytes) : Bytes := mpiBytes G (G.mpiAddUi (G.mpiScan nonce) 1) 16

def dhx2Password (passwd : Bytes) (ctx : Γ) (plain : Bytes) : Option Bytes := do
  let ctx ← G.cipherSetiv ctx dhxC2siv
  let (ai, _) ← G.cipherEncrypt ctx (increment G (slice plain 16 16) ++ strncpy passwd 256)
  return ai

def dhx2Finish (passwd : Bytes) (ctx : Γ) (nonce : Bytes) (a : Reply) (k : Session σ) :
    Except Fault (Int × Session σ) := do
  let rbuf := afpLoginReply (.calloc 34) a.userauthinfo
  if a.code ≠ kFPAuthContinue then return (a.code, k)
  else
    let id := beNat (slice rbuf.data 0 2)
    match dhx2Plaintext G ctx rbuf.data with
    | none => return (-1, k)
    | some (plain, ctx) =>
      if increment G nonce ≠ plain.take 16 then
        assertText "nonce check failed while running dhx2 authentication"
      match dhx2Password G passwd ctx plain with
      | none => return (-1, k)
      | some ai =>
        let (a, k) := k.call P (.logincont id ai)
        return (a.code, k)

def dhx2Login (username passwd : Bytes) (k : Session σ) : Except Fault (Int × Session σ) := do
  let (a, k) := k.call P (.login k.avName .dhx2 (usernameInfo username (username.length + 1)))
  let rbuf := afpLoginReply (.calloc 520) a.userauthinfo
  if a.code ≠ kFPAuthContinue then return (a.code, k)
  else
    let id := beNat (slice rbuf.data 0 2)
    if 256 < bignumLen rbuf.data then
      assertText "server indicates large number length too large for us (> 256 bytes)?"
    -- `p` and `Mb` are read from the buffer
    if rbuf.data.length < 8 + 2 * bignumLen rbuf.data then throw .overread
    match dhx2Start G rbuf.data with
    | none => return (-1, k)
    | some (ai, ctx, nonce) =>
      let (a, k) := k.call P (.logincont id ai)
      dhx2Finish G P passwd ctx nonce a k

end Code

def Request.isCont : Request → Bool
  | .login .. => false
  | .logincont .. => true

/-- Each `FPLoginCont` comes after requests and replies that are `ready` for it. -/
def ContsWhen (ready : List (Request × Reply) → Prop) (sent : List (Request × Reply)) : Prop :=
  ∀ before x, before ++ [x] <+: sent → x.1.isCont = true → ready before

/-- The login returns, and each `FPLoginCont` it sends comes when it is `ready`. -/
def StopsUnless {σ : Type} (ready : List (Request × Reply) → Prop) (k : Session σ)
    (run : Except Fault (Int × Session σ)) : Prop :=
  ∃ ret k' sent, run = .ok (ret, k') ∧ k'.sent = k.sent ++ sent ∧ ContsWhen ready sent

def FullBlock (n : Nat) (before : List (Request × Reply)) : Prop :=
  ∃ x, before.getLast? = some x ∧ x.2.userauthinfo.length = n

/-- The block as the client has it: cut off at the size of its buffer, or with zeros behind it. -/
def received (maxsize : Nat) (block : Bytes) : Bytes := (afpLoginReply (.calloc maxsize) block).data

/-- The first block of `dhx2_login` is complete. -/
def FullNumbers (block : Bytes) : Prop :=
  bignumLen (received 520 block) ≤ 256 ∧ block.length = 8 + 2 * bignumLen (received 520 block)

section Ready
variable {σ Γ M : Type} (G : Gcrypt Γ M)

/-- The second block of `dhx2_login` is complete and starts with the client's nonce plus one. -/
def ProvesNonce (ctx : Γ) (nonce block : Bytes) : Prop :=
  block.length = 34 ∧
    ∃ plain ctx', dhx2Plaintext G ctx (received 34 block) = some (plain, ctx') ∧ plain.take 16 = increment G nonce

/-- `dhx2_login` may go on: after the first block if that is complete, after the second if it proves the nonce. -/
def Dhx2Ready : List (Request × Reply) → Prop
  | [(_, a)] => FullNumbers a.userauthinfo
  | [(_, a), (_, b)] => ∃ ai ctx nonce, dhx2Start G (received 520 a.userauthinfo) = some (ai, ctx, nonce) ∧
      ProvesNonce G ctx nonce b.userauthinfo
  | _ => False

/-- The server does not go on, or its block has that length, or libgcrypt fails on it. -/
def BlockServed (n : Nat) (info : Bytes → Option (Bytes × (Reply → Except Fault Int))) (a : Reply) : Prop :=
  a.code = kFPAuthContinue → a.userauthinfo.length = n ∨ info (received n a.userauthinfo) = none

/-- The server does not go on after the second block, or the block proves the nonce, or libgcrypt fails. -/
def NonceServed (passwd : Bytes) (ctx : Γ) (nonce : Bytes) (b : Reply) : Prop :=
  b.code = kFPAuthContinue → ∀ plain ctx' ai, dhx2Plaintext G ctx (received 34 b.userauthinfo) = some (plain, ctx') →
    dhx2Password G passwd ctx' plain = some ai → ProvesNonce G ctx nonce b.userauthinfo

/-- The server does not go on after the first block; or its numbers fit, the block is complete and the second one is served;
or libgcrypt fails. -/
def NumbersServed (P : Peer σ) (passwd : Bytes) (a : Reply) (s : σ) : Prop :=
  a.code = kFPAuthContinue → bignumLen (received 520 a.userauthinfo) ≤ 256 ∧
    ∀ ai ctx nonce, dhx2Start G (received 520 a.userauthinfo) = some (ai, ctx, nonce) →
      FullNumbers a.userauthinfo ∧ NonceServed G passwd ctx nonce
        (P.respond s (.logincont (beNat (slice (received 520 a.userauthinfo) 0 2)) ai)).1

end Ready

section Sent
variable {σ : Type} {ready : List (Request × Reply) → Prop} {k : Session σ}
  {sent : List (Request × Reply)} {x : Request × Reply}

lemma contsWhen_nil : ContsWhen ready [] := by
  intro before y hp _
  cases List.append_eq_nil_iff.mp (List.prefix_nil.mp hp) with
  | intro _ hy => cases hy

lemma contsWhen_concat :
    ContsWhen ready (sent ++ [x]) ↔ ContsWhen ready sent ∧ (x.1.isCont = true → ready sent) := by
  constructor
  · intro h
    exact ⟨fun before y hp => h before y (hp.trans (List.prefix_append ..)), h sent x List.prefix_rfl⟩
  · rintro ⟨hbefore, hlast⟩ before y hp hy
    rcases List.prefix_concat_iff.mp hp with heq | hp
    · obtain ⟨rfl, hx⟩ := List.append_inj' heq rfl
      cases hx
      exact hlast hy
    · exact hbefore before y hp hy

lemma contsWhen_login {v : Bytes} {m : Method} {ai : Bytes} {a : Reply} : ContsWhen ready [(.login v m ai, a)] :=
  contsWhen_concat.mpr ⟨contsWhen_nil, nofun⟩

lemma stopsUnless_ok {ret : Int} {k' : Session σ} (hk : k'.sent = k.sent ++ sent) :
    StopsUnless ready k (.ok (ret, k')) ↔ ContsWhen ready sent := by
  constructor
  · rintro ⟨_, _, sent', hrun, hk', hready⟩
    cases hrun
    cases List.append_cancel_left (hk'.symm.trans hk)
    exact hready
  · intro h
    exact ⟨ret, k', sent, rfl, hk, h⟩

lemma not_stopsUnless_error {f : Fault} : ¬ StopsUnless ready k (.error f) := by
  rintro ⟨_, _, _, h, _⟩
  cases h

lemma fullBlock_concat {n : Nat} : FullBlock n (sent ++ [x]) ↔ x.2.userauthinfo.length = n := by
  constructor
  · rintro ⟨y, hy, hn⟩
    rw [List.getLast?_concat] at hy
    cases hy
    exact hn
  · intro hn
    exact ⟨x, List.getLast?_concat .., hn⟩

end Sent

section OneBlock
variable {σ : Type} (P : Peer σ) {k : Session σ}

lemma Session.exists_call (k : Session σ) (r : Request) :
    ∃ a k', k.call P r = (a, k') ∧ P.respond k.peer r = (a, k'.peer) ∧ k'.sent = k.sent ++ [(r, a)] :=
  ⟨_, _, rfl, rfl, rfl⟩

def Finishes (info : Bytes → Option (Bytes × (Reply → Except Fault Int))) : Prop :=
  ∀ block ai finish, info block = some (ai, finish) → ∀ a, ∃ ret, finish a = .ok ret

lemma oneBlockLogin_stops_iff {uaName : Method} {ai : Bytes} {n : Nat} {text : String}
    {info : Bytes → Option (Bytes × (Reply → Except Fault Int))} (hfin : Finishes info) :
    StopsUnless (FullBlock n) k (oneBlockLogin P uaName ai n text info k) ↔
      BlockServed n info (P.respond k.peer (.login k.avName uaName ai)).1 := by
  obtain ⟨a, k₁, hcall, hrespond, hk₁⟩ := k.exists_call P (.login k.avName uaName ai)
  rw [hrespond]
  by_cases hcode : a.code = kFPAuthContinue
  · cases hinfo : info (received n a.userauthinfo) with
    | none =>
      have hrun : oneBlockLogin P uaName ai n text info k = .ok (-1, k₁) := by
        rw [received] at hinfo
        simp [oneBlockLogin, hcall, hcode, hinfo, assertText, pure, Except.pure, bind, Except.bind]
      rw [hrun, stopsUnless_ok hk₁]
      exact ⟨fun _ _ => .inr hinfo, fun _ => contsWhen_login⟩
    | some next =>
      obtain ⟨ai', finish⟩ := next
      obtain ⟨b, k₂, hcall', -, hk₂⟩ :=
        k₁.exists_call P (.logincont (beNat (slice (received n a.userauthinfo) 0 2)) ai')
      obtain ⟨ret, hret⟩ := hfin _ _ _ hinfo b
      have hrun : oneBlockLogin P uaName ai n text info k = .ok (ret, k₂) := by
        rw [received] at hinfo hcall'
        simp [oneBlockLogin, hcall, hcode, hinfo, hcall', hret, assertText, pure, Except.pure, bind, Except.bind]
      rw [hk₁, List.append_assoc] at hk₂
      rw [hrun, stopsUnless_ok hk₂, contsWhen_concat, ← List.nil_append [_], fullBlock_concat]
      constructor
      · exact fun h _ => .inl (h.2 rfl)
      · intro h
        refine ⟨contsWhen_login, fun _ => (h hcode).resolve_right ?_⟩
        rw [hinfo]
        nofun
  · have hrun : oneBlockLogin P uaName ai n text info k = .ok (a.code, k₁) := by
      simp [oneBlockLogin, hcall, hcode, pure, Except.pure]
    rw [hrun, stopsUnless_ok hk₁]
    exact ⟨fun _ h => absurd h hcode, fun _ => contsWhen_login⟩

end OneBlock

section Finishing
variable {Γ M : Type} (G : Gcrypt Γ M) (passwd : Bytes)

lemma randnumInfo_finishes : Finishes (randnumInfo G passwd) := by
  intro block ai finish h a
  simp only [randnumInfo, Option.bind_eq_bind, Option.bind_eq_some_iff] at h
  obtain ⟨_, _, _, _, _, _, h⟩ := h
  cases h
  exact ⟨_, rfl⟩

lemma dhxInfo_finishes : Finishes (dhxInfo G passwd) := by
  intro block ai finish h a
  simp only [dhxInfo, Option.bind_eq_bind, Option.bind_eq_some_iff] at h
  obtain ⟨_, _, _, _, _, _, _, _, _, _, _, _, h⟩ := h
  cases h
  exact ⟨_, rfl⟩

lemma randnum2Info_finishes : Finishes (randnum2Info G passwd) := by
  intro block ai finish h a
  simp only [randnum2Info, Option.bind_eq_bind, Option.bind_eq_some_iff] at h
  obtain ⟨_, _, _, _, ⟨_, ctx⟩, _, h⟩ := h
  cases h
  by_cases hcode : a.code = kFPNoErr
  · simp only [hcode, ne_eq, not_true, if_false]
    cases G.cipherEncrypt ctx (G.createNonce 8) with
    | none => exact ⟨-1, rfl⟩
    | some out => exact ⟨_, rfl⟩
  · exact ⟨a.code, if_pos hcode⟩

end Finishing

section TwoBlocks
variable {σ Γ M : Type} {G : Gcrypt Γ M} {P : Peer σ} {k k₁ k₂ : Session σ} {passwd : Bytes}

lemma dhx2Finish_sent (G : Gcrypt Γ M) (P : Peer σ) (passwd : Bytes) (ctx : Γ) (nonce : Bytes) (b : Reply)
    (k : Session σ) :
    ∃ ret k', dhx2Finish G P passwd ctx nonce b k = .ok (ret, k') ∧
      ((k' = k ∧ (b.code = kFPAuthContinue → ∀ plain ctx' ai, dhx2Plaintext G ctx (received 34 b.userauthinfo) =
          some (plain, ctx') → dhx2Password G passwd ctx' plain ≠ some ai)) ∨
        (∃ id ai a, k'.sent = k.sent ++ [(.logincont id ai, a)]) ∧ b.code = kFPAuthContinue ∧
          ∃ plain ctx' ai, dhx2Plaintext G ctx (received 34 b.userauthinfo) = some (plain, ctx') ∧
            dhx2Password G passwd ctx' plain = some ai) := by
  by_cases hcode : b.code = kFPAuthContinue
  · cases hplain : dhx2Plaintext G ctx (received 34 b.userauthinfo) with
    | none =>
      refine ⟨-1, k, ?_, .inl ⟨rfl, fun _ _ _ _ h => nomatch h⟩⟩
      rw [received] at hplain
      simp [dhx2Finish, hcode, hplain, pure, Except.pure]
    | some out =>
      obtain ⟨plain, ctx'⟩ := out
      cases hai : dhx2Password G passwd ctx' plain with
      | none =>
        refine ⟨-1, k, ?_, .inl ⟨rfl, ?_⟩⟩
        · rw [received] at hplain
          simp [dhx2Finish, hcode, hplain, hai, assertText, pure, Except.pure, bind, Except.bind]
        · rintro _ _ _ ai h
          cases h
          rw [hai]
          nofun
      | some ai =>
        obtain ⟨a, k', hcall, -, hsent⟩ :=
          k.exists_call P (.logincont (beNat (slice (received 34 b.userauthinfo) 0 2)) ai)
        refine ⟨a.code, k', ?_, .inr ⟨⟨_, ai, a, hsent⟩, hcode, plain, ctx', ai, rfl, hai⟩⟩
        rw [received] at hplain hcall
        simp [dhx2Finish, hcode, hplain, hai, hcall, assertText, pure, Except.pure, bind, Except.bind]
  · exact ⟨b.code, k, if_pos hcode, .inl ⟨rfl, fun h => absurd h hcode⟩⟩

lemma dhx2Finish_stops_iff {before : List (Request × Reply)} {ready : List (Request × Reply) → Prop} {ctx : Γ}
    {nonce : Bytes} {b : Reply} (hk : k₂.sent = k.sent ++ before)
    (hready : ready before ↔ ProvesNonce G ctx nonce b.userauthinfo) :
    StopsUnless ready k (dhx2Finish G P passwd ctx nonce b k₂) ↔
      ContsWhen ready before ∧ NonceServed G passwd ctx nonce b := by
  obtain ⟨ret, k', hrun, ⟨rfl, hfails⟩ | ⟨⟨id, ai', a, hsent⟩, hcode, plain, ctx', ai, hplain, hai⟩⟩ :=
    dhx2Finish_sent G P passwd ctx nonce b k₂
  · rw [hrun, stopsUnless_ok hk]
    refine ⟨fun h => ⟨h, fun hcode plain ctx' ai hplain hai => ?_⟩, And.left⟩
    exact absurd hai (hfails hcode plain ctx' ai hplain)
  · rw [hk, List.append_assoc] at hsent
    rw [hrun, stopsUnless_ok hsent, contsWhen_concat, hready]
    constructor
    · exact fun h => ⟨h.1, fun _ _ _ _ _ _ => h.2 rfl⟩
    · exact fun h => ⟨h.1, fun _ => h.2 hcode plain ctx' ai hplain hai⟩

lemma length_received (n : Nat) (block : Bytes) : (received n block).length = n := by
  have hz : (zeros n).length = n := List.length_replicate
  have htake : 0 + (block.take n).length ≤ (zeros n).length := by
    rw [hz, List.length_take]
    omega
  exact (patch_length htake).trans hz

lemma dhx2Login_block {username : Bytes} {a : Reply}
    (hcall : k.call P (.login k.avName .dhx2 (usernameInfo username (username.length + 1))) = (a, k₁))
    (hcode : a.code = kFPAuthContinue) (hlen : bignumLen (received 520 a.userauthinfo) ≤ 256) :
    dhx2Login G P username passwd k = match dhx2Start G (received 520 a.userauthinfo) with
      | none => .ok (-1, k₁)
      | some (ai, ctx, nonce) =>
        let (b, k₂) := k₁.call P (.logincont (beNat (slice (received 520 a.userauthinfo) 0 2)) ai)
        dhx2Finish G P passwd ctx nonce b k₂ := by
  have hfits : ¬ (received 520 a.userauthinfo).length < 8 + 2 * bignumLen (received 520 a.userauthinfo) := by
    rw [length_received]
    omega
  have hsmall : ¬ 256 < bignumLen (received 520 a.userauthinfo) := Nat.not_lt.mpr hlen
  simp only [received] at hfits hsmall
  simp only [dhx2Login, hcall, hcode, hfits, hsmall, ne_eq, not_true, if_false, pure, Except.pure, bind, Except.bind]
  rfl

lemma dhx2Login_overread {username : Bytes} {a : Reply}
    (hcall : k.call P (.login k.avName .dhx2 (usernameInfo username (username.length + 1))) = (a, k₁))
    (hcode : a.code = kFPAuthContinue) (hlen : ¬ bignumLen (received 520 a.userauthinfo) ≤ 256) :
    dhx2Login G P username passwd k = .error .overread := by
  have hout : (received 520 a.userauthinfo).length < 8 + 2 * bignumLen (received 520 a.userauthinfo) := by
    rw [length_received]
    omega
  have hbig : 256 < bignumLen (received 520 a.userauthinfo) := Nat.not_le.mp hlen
  simp only [received] at hout hbig
  simp only [dhx2Login, hcall, hcode, hout, hbig, assertText, ne_eq, not_true, if_false, if_true, pure, Except.pure,
    bind, Except.bind]
  rfl

lemma dhx2Login_stops_iff (username : Bytes) :
    StopsUnless (Dhx2Ready G) k (dhx2Login G P username passwd k) ↔
      NumbersServed G P passwd
        (P.respond k.peer (.login k.avName .dhx2 (usernameInfo username (username.length + 1)))).1
        (P.respond k.peer (.login k.avName .dhx2 (usernameInfo username (username.length + 1)))).2 := by
  obtain ⟨a, k₁, hcall, hrespond, hk₁⟩ :=
    k.exists_call P (.login k.avName .dhx2 (usernameInfo username (username.length + 1)))
  rw [hrespond]
  by_cases hcode : a.code = kFPAuthContinue
  · by_cases hlen : bignumLen (received 520 a.userauthinfo) ≤ 256
    · rw [dhx2Login_block hcall hcode hlen]
      cases hstart : dhx2Start G (received 520 a.userauthinfo) with
      | none =>
        refine (stopsUnless_ok hk₁).trans ⟨fun _ _ => ⟨hlen, fun ai ctx nonce h => ?_⟩, fun _ => contsWhen_login⟩
        cases hstart.symm.trans h
      | some out =>
        obtain ⟨ai, ctx, nonce⟩ := out
        obtain ⟨b, k₂, hcall', hrespond', hk₂⟩ :=
          k₁.exists_call P (.logincont (beNat (slice (received 520 a.userauthinfo) 0 2)) ai)
        rw [hk₁, List.append_assoc] at hk₂
        have hready : ∀ x y, Dhx2Ready G [(x, a), (y, b)] ↔ ProvesNonce G ctx nonce b.userauthinfo := by
          intro x y
          constructor
          · rintro ⟨_, _, _, h, hproves⟩
            cases hstart.symm.trans h
            exact hproves
          · exact fun h => ⟨ai, ctx, nonce, hstart, h⟩
        simp only [hcall']
        rw [dhx2Finish_stops_iff hk₂ (hready _ _), contsWhen_concat]
        constructor
        · rintro ⟨⟨-, hfull⟩, hnonce⟩ _
          refine ⟨hlen, fun ai' ctx' nonce' h => ?_⟩
          cases hstart.symm.trans h
          rw [hrespond']
          exact ⟨hfull rfl, hnonce⟩
        · intro h
          have hserved := (h hcode).2 ai ctx nonce hstart
          rw [hrespond'] at hserved
          exact ⟨⟨contsWhen_login, fun _ => hserved.1⟩, hserved.2⟩
    · rw [dhx2Login_overread hcall hcode hlen]
      exact iff_of_false not_stopsUnless_error fun h => hlen (h hcode).1
  · have hrun : dhx2Login G P username passwd k = .ok (a.code, k₁) := by
      simp [dhx2Login, hcall, hcode, pure, Except.pure]
    rw [hrun, stopsUnless_ok hk₁]
    exact ⟨fun _ h => absurd h hcode, fun _ => contsWhen_login⟩

end TwoBlocks

/-- For any libgcrypt and any server, a login sends its `FPLoginCont`s only after complete blocks, and `dhx2_login` the last
one only after the right nonce, if and only if the server gives it no other occasion. -/
theorem logins_stop_iff {σ Γ M : Type} (G : Gcrypt Γ M) (P : Peer σ) (username passwd : Bytes) (k : Session σ) :
    (StopsUnless (FullBlock 10) k (randnumLogin G P username passwd k) ↔
      BlockServed 10 (randnumInfo G passwd)
        (P.respond k.peer (.login k.avName .randnumExchange (usernameInfo username (1 + username.length)))).1) ∧
    (StopsUnless (FullBlock 10) k (randnum2Login G P username passwd k) ↔
      BlockServed 10 (randnum2Info G passwd)
        (P.respond k.peer (.login k.avName .twoWayRandnum (usernameInfo username (1 + username.length)))).1) ∧
    (StopsUnless (FullBlock 50) k (dhxLogin G P username passwd k) ↔
      BlockServed 50 (dhxInfo G passwd) (P.respond k.peer (.login k.avName .dhcast128 (dhxFirst G username))).1) ∧
    (StopsUnless (Dhx2Ready G) k (dhx2Login G P username passwd k) ↔
      NumbersServed G P passwd
        (P.respond k.peer (.login k.avName .dhx2 (usernameInfo username (username.length + 1)))).1
        (P.respond k.peer (.login k.avName .dhx2 (usernameInfo username (username.length + 1)))).2) :=
  ⟨oneBlockLogin_stops_iff P (randnumInfo_finishes G passwd),
    oneBlockLogin_stops_iff P (randnum2Info_finishes G passwd),
    oneBlockLogin_stops_iff P (dhxInfo_finishes G passwd), dhx2Login_stops_iff username⟩

def plainGcrypt : Gcrypt Unit Nat where
  cipherOpen _ := some ()
  cipherSetkey _ _ := some ()
  cipherSetiv _ _ := some ()
  cipherEncrypt _ text := some (text, ())
  cipherDecrypt _ text := some (text, ())
  mpiScan := beNat
  mpiPrint m n := (beBytes n m, n)
  mpiPowm _ _ _ := 0
  mpiAddUi := (· + ·)
  mdHash := id
  randomize := zeros
  createNonce := zeros

def zeroPeer (first second : Nat) : Peer Unit where
  respond s
    | .login .. => (⟨kFPAuthContinue, zeros first⟩, s)
    | .logincont .. => (⟨kFPAuthContinue, zeros second⟩, s)

/-- An empty block is answered by `randnum_login`, and a wrong nonce by `dhx2_login`, with the password. -/
theorem logins_go_on :
    ¬ StopsUnless (FullBlock 10) ⟨(), [], []⟩ (randnumLogin plainGcrypt (zeroPeer 0 0) [] [] ⟨(), [], []⟩) ∧
      ¬ StopsUnless (Dhx2Ready plainGcrypt) ⟨(), [], []⟩
        (dhx2Login plainGcrypt (zeroPeer 8 34) [] [] ⟨(), [], []⟩) := by
  constructor
  · rintro ⟨ret, k', sent, hrun, hk, hconts⟩
    cases hrun
    cases hk
    obtain ⟨x, hx, hlen⟩ := hconts [_] _ ⟨[], rfl⟩ rfl
    cases hx
    cases hlen
  · rw [dhx2Login_stops_iff]
    intro h
    obtain ⟨-, hproves⟩ := ((h rfl).2 _ _ _ rfl).2 rfl _ _ _ rfl rfl
    obtain ⟨plain, ctx', hplain, hnonce⟩ := hproves
    cases hplain
    revert hnonce
    decide

end AfpfsNg.Uam
