import AfpfsNg.Dsi.StatusReply

/-!
# Session tokens

`afp_getsessiontoken_reply` of `lib/proto_session.c`. The length in a DSI header does not count the header, but it is
compared with the size of the header, and the size is subtracted from it.
-/

namespace AfpfsNg.Proto
open AfpfsNg.Base AfpfsNg.Dsi

structure AfpToken where
  length : Nat
  data : Block 256

def dsiLength (buf : Bytes) : Nat := beNat (slice buf 8 4)

def tokenLen (buf : Bytes) : Nat := beNat (slice buf 16 4)

/-- C `afp_getsessiontoken_reply`; the token may be `NULL`. -/
def afpGetsessiontokenReply (token : Option AfpToken) (buf : Bytes) : Option (Int × Option AfpToken) := do
  let length ← fetch buf 8 4
  if beNat length ≤ 16 then return (0, token.map fun token => { token with length := 0 })
  let tokenLen ← fetch buf 16 4
  -- AFP_TOKEN_MAX_LEN
  if 256 < beNat tokenLen ∨ beNat length - 16 < beNat tokenLen then return (-1, token)
  match token with
  | none => return (0, none)
  | some token =>
    let data ← (fetch buf 20 (beNat tokenLen)).bind (token.data.put 0)
    return (0, some ⟨beNat tokenLen, data⟩)

/-- The packet holds a token and nothing else. -/
structure TokenSent (buf s : Bytes) : Prop where
  size : s.length ≤ 256
  length : dsiLength buf = 4 + s.length
  stands : Stands buf 16 (beBytes 4 s.length ++ s)

/-- A token that was sent is stored; and from other packets no token is taken, nor is anything read behind them. -/
structure TokenReceived (token : AfpToken) (buf : Bytes) : Prop where
  sent : ∀ s, TokenSent buf s → ∃ token', afpGetsessiontokenReply (some token) buf = some (0, some token') ∧
    token'.length = s.length ∧ token'.data.bytes.take s.length = s
  other : (∀ s, ¬ TokenSent buf s) → ∃ ret token', afpGetsessiontokenReply (some token) buf = some (ret, some token') ∧
    (ret = -1 ∨ token'.length = 0)

section Reply
variable {buf : Bytes} (token : AfpToken)

def Whole (buf : Bytes) : Prop := buf.length = 16 + dsiLength buf

lemma getsessiontoken_short (h : Whole buf) (hshort : dsiLength buf ≤ 16) :
    afpGetsessiontokenReply (some token) buf = some (0, some { token with length := 0 }) := by
  rw [Whole] at h
  rw [afpGetsessiontokenReply, fetch_of_le (by omega)]
  exact if_pos hshort

lemma getsessiontoken_long (h : Whole buf) (hlong : 16 < dsiLength buf) :
    afpGetsessiontokenReply (some token) buf =
      if 256 < tokenLen buf ∨ dsiLength buf - 16 < tokenLen buf then some (-1, some token)
      else ((fetch buf 20 (tokenLen buf)).bind (token.data.put 0)).map fun data => (0, some ⟨tokenLen buf, data⟩) := by
  rw [Whole] at h
  have hlength : ¬ beNat (slice buf 8 4) ≤ 16 := Nat.not_le.mpr hlong
  rw [afpGetsessiontokenReply, fetch_of_le (by omega), Option.bind_eq_bind, Option.bind_some]
  rw [if_neg hlength, fetch_of_le (by omega), Option.bind_some]
  show (if 256 < tokenLen buf ∨ dsiLength buf - 16 < tokenLen buf then some (-1, some token) else _) = _
  rw [Option.map_eq_bind]
  rfl

lemma getsessiontoken_stored (h : Whole buf) (hlong : 16 < dsiLength buf) (hmax : tokenLen buf ≤ 256)
    (hlen : tokenLen buf ≤ dsiLength buf - 16) :
    ∃ token', afpGetsessiontokenReply (some token) buf = some (0, some token') ∧ token'.length = tokenLen buf := by
  have hbuf : 20 + tokenLen buf ≤ buf.length := by
    rw [Whole] at h
    omega
  obtain ⟨data, hput⟩ := token.data.put_of_le 0 (slice buf 20 (tokenLen buf)) (by
    rw [slice_length hbuf]
    omega)
  refine ⟨⟨tokenLen buf, data⟩, ?_, rfl⟩
  rw [getsessiontoken_long token h hlong, if_neg (by omega), fetch_of_le hbuf, Option.bind_some, hput]
  rfl

lemma TokenSent.tokenLen_eq {s : Bytes} (h : TokenSent buf s) : tokenLen buf = s.length := by
  have hlen := (fetch_eq_some h.stands.left).2
  rw [length_beBytes] at hlen
  rw [tokenLen, hlen, beNat_beBytes_of_lt]
  exact Nat.lt_of_le_of_lt h.size (by decide)

end Reply

/-- What is received is what was sent if and only if no token was sent and the packet does not have at least twelve bytes
behind the bytes it says to have. -/
theorem session_token_received_iff (token : AfpToken) (buf : Bytes) (h : Whole buf) :
    TokenReceived token buf ↔ (∀ s, TokenSent buf s → s = []) ∧
      (16 < dsiLength buf → tokenLen buf ≤ 256 → tokenLen buf ≤ dsiLength buf - 16 → tokenLen buf = 0) := by
  constructor
  · intro hreceived
    constructor
    · intro s hs
      obtain ⟨token', hreply, hlen, -⟩ := hreceived.sent s hs
      have hlength := hs.length
      by_cases hshort : dsiLength buf ≤ 16
      · rw [getsessiontoken_short token h hshort] at hreply
        cases hreply
        exact List.length_eq_zero_iff.mp hlen.symm
      · -- the token is longer than what is left behind the header, counted twice
        have htoken := hs.tokenLen_eq
        rw [getsessiontoken_long token h (by omega), if_pos (by omega)] at hreply
        cases hreply
    · intro hlong hmax hlen
      obtain ⟨stored, hstored, hlength⟩ := getsessiontoken_stored token h hlong hmax hlen
      have hother : ∀ s, ¬ TokenSent buf s := by
        intro s hs
        have htoken := hs.tokenLen_eq
        have hdsi := hs.length
        omega
      obtain ⟨ret, token', hreply, hret⟩ := hreceived.other hother
      cases hstored.symm.trans hreply
      rw [← hlength]
      exact hret.resolve_left (by decide)
  · rintro ⟨hnone, hextra⟩
    constructor
    · intro s hs
      obtain rfl := hnone s hs
      have hshort : dsiLength buf ≤ 16 := by
        rw [hs.length]
        decide
      exact ⟨_, getsessiontoken_short token h hshort, rfl, rfl⟩
    · intro _
      by_cases hshort : dsiLength buf ≤ 16
      · exact ⟨0, _, getsessiontoken_short token h hshort, .inr rfl⟩
      · by_cases hrefused : 256 < tokenLen buf ∨ dsiLength buf - 16 < tokenLen buf
        · exact ⟨-1, token, by rw [getsessiontoken_long token h (by omega), if_pos hrefused], .inl rfl⟩
        · obtain ⟨token', hreply, hlen⟩ := getsessiontoken_stored token h (by omega) (by omega) (by omega)
          exact ⟨0, token', hreply, .inr (hlen.trans (hextra (by omega) (by omega) (by omega)))⟩

def tokenReply (length tokenLen : Nat) (payload : Bytes) : Bytes :=
  [1, 2, 0, 1, 0, 0, 0, 0] ++ beBytes 4 length ++ [0, 0, 0, 0] ++ beBytes 4 tokenLen ++ payload

def AfpToken.empty : AfpToken := ⟨0, ⟨List.replicate 256 0, List.length_replicate⟩⟩

theorem session_token_received_empty : TokenReceived .empty (tokenReply 4 0 []) ↔
    (∀ s, TokenSent (tokenReply 4 0 []) s → s = []) ∧ (16 < dsiLength (tokenReply 4 0 []) →
      tokenLen (tokenReply 4 0 []) ≤ 256 → tokenLen (tokenReply 4 0 []) ≤ dsiLength (tokenReply 4 0 []) - 16 →
      tokenLen (tokenReply 4 0 []) = 0) :=
  session_token_received_iff .empty (tokenReply 4 0 []) (by unfold Whole; decide)

/-- A token of eight bytes is lost, one of sixteen bytes is refused, and one byte is taken from a payload of seventeen. -/
theorem session_token_received_wrong :
    (TokenSent (tokenReply 12 8 (List.replicate 8 7)) (List.replicate 8 7) ∧
      (afpGetsessiontokenReply (some .empty) (tokenReply 12 8 (List.replicate 8 7))).map
        (fun r => (r.1, r.2.map AfpToken.length)) = some (0, some 0)) ∧
    (TokenSent (tokenReply 20 16 (List.replicate 16 7)) (List.replicate 16 7) ∧
      (afpGetsessiontokenReply (some .empty) (tokenReply 20 16 (List.replicate 16 7))).map Prod.fst = some (-1)) ∧
    (afpGetsessiontokenReply (some .empty) (tokenReply 17 1 (List.replicate 13 7))).map
      (fun r => (r.1, r.2.map AfpToken.length)) = some (0, some 1) := by
  refine ⟨⟨⟨by decide, by decide, by decide⟩, by decide⟩, ⟨⟨by decide, by decide, by decide⟩, by decide⟩, by decide⟩

end AfpfsNg.Proto
