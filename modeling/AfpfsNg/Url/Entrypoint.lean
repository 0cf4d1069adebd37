import AfpfsNg.Url.Parts
import AfpfsNg.Base.Except

/-!
# The URL of the container

`entrypoint.sh` puts the URL together from four variables, without writing any separator twice. `Environment` are the
variables with their letters.
-/

namespace AfpfsNg.Url
open AfpfsNg.Base AfpfsNg.Afp

def isalnum (c : UInt8) : Bool := isdigit c ∨ 65 ≤ c ∧ c ≤ 90 ∨ 97 ≤ c ∧ c ≤ 122

def isname (c : UInt8) : Bool := isalnum c ∨ c = 46 ∨ c = 45

def isprint (c : UInt8) : Bool := 32 ≤ c ∧ c ≤ 126

structure Environment where
  tmUser : Bytes
  tmPass : Bytes
  tmHost : Bytes
  tmShare : Bytes
  user_chars : ∀ c ∈ tmUser, isalnum c = true
  pass_chars : ∀ c ∈ tmPass, isprint c = true
  pass_nonempty : tmPass ≠ []
  pass_size : tmPass.length ≤ 100
  host_chars : ∀ c ∈ tmHost, isname c = true
  share_chars : ∀ c ∈ tmShare, isname c = true

def Environment.first (e : Environment) : Bytes := e.tmUser ++ colon :: (e.tmPass ++ atSign :: e.tmHost)

/-- `"afp://${TM_USER}:${TM_PASS}@${TM_HOST}/${TM_SHARE}"` -/
def Environment.afpUrl (e : Environment) : Bytes := afpScheme ++ schemeEnd ++ (e.first ++ slash :: e.tmShare)

/-- No separator in the password, and every part fits into its array. -/
structure Environment.Fits (e : Environment) : Prop where
  slash : slash ∉ e.tmPass
  colon : colon ∉ e.tmPass
  atSign : atSign ∉ e.tmPass
  user_size : e.tmUser.length < 127
  first_size : e.first.length < 255
  share_size : e.tmShare.length < 33

def Environment.Mounts (e : Environment) : Prop :=
  ∃ url, afpParseUrl afpDefaultUrl e.afpUrl = .ok (0, url) ∧ url.username = e.tmUser ∧ url.password = e.tmPass ∧
    url.servername = e.tmHost ∧ url.volumename = e.tmShare

lemma isalnum_ne {c d : UInt8} (h : isalnum c = true) (hd : isalnum d = false) : c ≠ d := by
  rintro rfl
  rw [h] at hd
  cases hd

lemma isname_ne {c d : UInt8} (h : isname c = true) (hd : isname d = false) : c ≠ d := by
  rintro rfl
  rw [h] at hd
  cases hd

section Inversion
variable {c : UInt8} {s p : Bytes} {url url' : AfpUrl} {r : Int}

lemma escapeFrom_sublist (c : UInt8) (inescape : Bool) (s : Bytes) : (escapeFrom c inescape s).Sublist s := by
  induction s generalizing inescape with
  | nil => exact .slnil
  | cons d s ih =>
    rw [escapeFrom]
    split
    case isTrue => exact (ih false).cons d
    case isFalse => exact (ih _).cons_cons d

lemma escapeStrchr_eq_some {i : Nat} (h : escapeStrchr c s = some i) :
    ∃ u v, s = double c u ++ c :: v ∧ (double c u).length = i := by
  induction s using escapeStrchr.induct c generalizing i with
  | case1 => cases h
  | case2 =>
    rw [escapeStrchr, if_pos rfl] at h
    cases h
    exact ⟨[], [], rfl, rfl⟩
  | case3 x hx =>
    rw [escapeStrchr, if_neg hx] at h
    cases h
  | case4 s ih =>
    rw [escapeStrchr, if_pos rfl, if_pos rfl] at h
    obtain ⟨j, hj, rfl⟩ := Option.map_eq_some_iff.mp h
    obtain ⟨u, v, rfl, rfl⟩ := ih hj
    have hu : double c (c :: u) = c :: c :: double c u := by rw [double_cons, if_pos rfl]; rfl
    exact ⟨c :: u, v, by rw [hu]; rfl, by rw [hu]; rfl⟩
  | case5 y s hy =>
    rw [escapeStrchr, if_pos rfl, if_neg hy] at h
    cases h
    exact ⟨[], y :: s, rfl, rfl⟩
  | case6 x y s hx ih =>
    rw [escapeStrchr, if_neg hx] at h
    obtain ⟨j, hj, rfl⟩ := Option.map_eq_some_iff.mp h
    obtain ⟨u, v, hs, rfl⟩ := ih hj
    have hu : double c (x :: u) = x :: double c u := by rw [double_cons, if_neg hx]; rfl
    exact ⟨x :: u, v, by rw [hu, hs]; rfl, by rw [hu]; rfl⟩

lemma escapeStrrchrFrom_eq_some {fuel haystack q : Nat} (h : escapeStrrchrFrom c s fuel haystack = .ok (some q)) :
    ∃ u v, s = u ++ c :: v ∧ u.length = q ∧ c ∉ v := by
  induction fuel generalizing haystack with
  | zero => cases h
  | succ fuel ih =>
    rw [escapeStrrchrFrom] at h
    cases hi : strrchr c (s.drop haystack) with
    | none =>
      rw [hi] at h
      cases h
    | some i =>
      obtain ⟨u, v, hs, hu, hv⟩ := strrchr_eq_some hi
      have hlen : haystack ≤ s.length := by
        apply Nat.le_of_not_lt
        intro hlt
        rw [List.drop_eq_nil_of_le (Nat.le_of_lt hlt)] at hs
        exact List.append_ne_nil_of_right_ne_nil u (List.cons_ne_nil c v) hs.symm
      have hsplit : s = (s.take haystack ++ u) ++ c :: v := by
        rw [List.append_assoc, ← hs, List.take_append_drop]
      have hlength : (s.take haystack ++ u).length = haystack + i := by
        rw [List.length_append, List.length_take, Nat.min_eq_left hlen, hu]
      rw [hi] at h
      cases i with
      | zero =>
        cases h
        exact ⟨_, v, hsplit, hlength, hv⟩
      | succ i =>
        simp only at h
        split at h
        case isTrue =>
          cases h
          exact ⟨_, v, hsplit, hlength, hv⟩
        case isFalse =>
          split at h
          case isTrue => cases h
          case isFalse => exact ih h

lemma copyPart_eq_ok {size : Nat} {t : Bytes} (h : copyPart size s = .ok t) : t = s ∧ s.length < size := by
  rw [copyPart] at h
  split at h
  case isTrue hsize =>
    cases h
    exact ⟨rfl, hsize⟩
  case isFalse => cases h

lemma andThen_eq_ok {x : Int × AfpUrl} {next : AfpUrl → Except Fault (Int × AfpUrl)}
    (h : andThen x next = .ok (0, url')) : x.1 = 0 ∧ next x.2 = .ok (0, url') := by
  rw [andThen] at h
  split at h
  case isTrue hx =>
    cases h
    exact absurd rfl hx
  case isFalse hx => exact ⟨not_not.mp hx, h⟩

lemma parseUser_ok (h : parseUser url p = .ok (0, url')) :
    url'.password = url.password ∧ url'.username.length < 127 := by
  rw [parseUser] at h
  cases hauth : strstr authString p with
  | none =>
    rw [hauth] at h
    obtain ⟨x, hx, h⟩ := bind_eq_ok h
    cases hx
    obtain ⟨-, h⟩ := andThen_eq_ok h
    obtain ⟨username, hname, h⟩ := bind_eq_ok h
    cases h
    obtain ⟨rfl, hsize⟩ := copyPart_eq_ok hname
    exact ⟨rfl, hsize⟩
  | some q =>
    rw [hauth] at h
    obtain ⟨uamname, -, h⟩ := bind_eq_ok h
    obtain ⟨x, hx, h⟩ := bind_eq_ok h
    cases hx
    obtain ⟨-, h⟩ := andThen_eq_ok h
    obtain ⟨username, hname, h⟩ := bind_eq_ok h
    cases h
    obtain ⟨rfl, hsize⟩ := copyPart_eq_ok hname
    exact ⟨rfl, hsize⟩

lemma parseLogin_ok (h : parseLogin url p = .ok (0, url')) (hpass : url.password = []) :
    url'.username.length < 127 ∧
      (url'.password = [] ∨ ∃ u, p = u ++ colon :: url'.password ∧ colon ∉ url'.password) := by
  rw [parseLogin] at h
  obtain ⟨found, hfound, h⟩ := bind_eq_ok h
  cases found with
  | none =>
    obtain ⟨hsame, hsize⟩ := parseUser_ok h
    exact ⟨hsize, .inl (hsame.trans hpass)⟩
  | some q =>
    obtain ⟨password, hcopy, h⟩ := bind_eq_ok h
    obtain ⟨hsame, hsize⟩ := parseUser_ok h
    obtain ⟨u, v, rfl, rfl, hv⟩ := escapeStrrchrFrom_eq_some hfound
    have hdrop : (u ++ colon :: v).drop (u.length + 1) = v := List.drop_length_add_append 1
    have hpassword : url'.password = v := hsame.trans ((copyPart_eq_ok hcopy).1.trans hdrop)
    exact ⟨hsize, .inr ⟨u, by rw [hpassword], by rwa [hpassword]⟩⟩

lemma setServer_password {host : Bytes} {port : Option Bytes} (h : setServer url host port = .ok (0, url')) :
    url'.password = url.password := by
  unfold setServer at h
  obtain ⟨-, h⟩ := andThen_eq_ok h
  obtain ⟨servername, -, h⟩ := bind_eq_ok h
  rw [← (Prod.mk.inj (Except.ok.inj h)).2]
  cases port with
  | none => rfl
  | some q =>
    simp only
    split
    case isTrue => rfl
    case isFalse =>
      split
      case isTrue => rfl
      case isFalse => rfl

lemma parseServer_password (h : parseServer url p = .ok (0, url')) : url'.password = url.password := by
  rw [parseServer] at h
  split at h
  · exact setServer_password h
  · exact setServer_password h

lemma parseVolume_ok (h : parseVolume url p = .ok url') :
    url'.password = url.password ∧ url'.username = url.username ∧ (slash ∉ p → p.length < 33) := by
  rw [parseVolume] at h
  split at h
  case isTrue hnil =>
    cases h
    exact ⟨rfl, rfl, fun _ => by rw [hnil]; decide⟩
  case isFalse =>
    cases hq : strchr slash p with
    | none =>
      rw [hq] at h
      obtain ⟨volumename, hcopy, h⟩ := bind_eq_ok h
      cases h
      exact ⟨rfl, rfl, fun _ => (copyPart_eq_ok hcopy).2⟩
    | some q =>
      rw [hq] at h
      obtain ⟨volumename, -, h⟩ := bind_eq_ok h
      obtain ⟨path, -, h⟩ := bind_eq_ok h
      cases h
      refine ⟨rfl, rfl, fun hslash => ?_⟩
      rw [strchr_none hslash] at hq
      cases hq

lemma parseParts_ok {first second : Bytes} (h : parseParts url p = .ok (0, url')) (hpass : url.password = [])
    (hfirst : p.takeWhile (· ≠ slash) = first) (hsecond : (p.drop (first.length + 1)).takeWhile (· ≠ dollar) = second) :
    first.length < 255 ∧ (slash ∉ second → second.length < 33) ∧
      (url'.password = [] ∨ url'.username.length < 127 ∧ ∃ i password u, escapeStrchr atSign first = some i ∧
        url'.password = escapeString password atSign ∧ first.take i = u ++ colon :: password ∧ colon ∉ password) := by
  rw [parseParts] at h
  simp only [hfirst, hsecond] at h
  split at h
  case isTrue => cases h
  case isFalse =>
    split at h
    case isTrue => cases h
    case isFalse hsize =>
      obtain ⟨x, hserver, h⟩ := bind_eq_ok h
      obtain ⟨hzero, h⟩ := andThen_eq_ok h
      have hkept : x.2.password = [] := by
        obtain ⟨zero, r⟩ := x
        cases hzero
        exact (parseServer_password hserver).trans hpass
      cases hat : escapeStrchr atSign first with
      | none =>
        rw [hat] at h
        obtain ⟨y, hy, h⟩ := bind_eq_ok h
        cases hy
        obtain ⟨-, h⟩ := andThen_eq_ok h
        obtain ⟨r, hvolume, h⟩ := bind_eq_ok h
        cases h
        obtain ⟨hpassword, -, hshare⟩ := parseVolume_ok hvolume
        refine ⟨by omega, hshare, .inl ?_⟩
        rw [escapeUrl, hpassword.trans hkept]
        rfl
      | some i =>
        rw [hat] at h
        obtain ⟨y, hlogin, h⟩ := bind_eq_ok h
        obtain ⟨hzero, h⟩ := andThen_eq_ok h
        obtain ⟨r, hvolume, h⟩ := bind_eq_ok h
        cases h
        obtain ⟨zero, r⟩ := y
        cases hzero
        obtain ⟨hpassword, husername, hshare⟩ := parseVolume_ok hvolume
        obtain ⟨hsize, hempty | ⟨u, hu, hcolon⟩⟩ := parseLogin_ok hlogin hkept
        · refine ⟨by omega, hshare, .inl ?_⟩
          rw [escapeUrl, hpassword.trans hempty]
          rfl
        · refine ⟨by omega, hshare, .inr ⟨?_, i, r.password, u, rfl, by rw [escapeUrl, hpassword], hu, hcolon⟩⟩
          apply Nat.lt_of_le_of_lt (escapeFrom_sublist colon false _).length_le
          rwa [husername]

end Inversion

section Split
variable {c : UInt8} {s t u v : Bytes}

lemma length_double : (double c s).length = s.length + s.count c := by
  induction s with
  | nil => rfl
  | cons d s ih =>
    rw [double_cons, List.length_append, ih, List.length_cons]
    split
    case isTrue hd =>
      rw [hd, List.count_cons_self]
      show 2 + _ = _
      omega
    case isFalse hd =>
      rw [List.count_cons_of_ne hd]
      show 1 + _ = _
      omega

lemma not_mem_of_double_eq (h : double c s = s) : c ∉ s := by
  have hlen := length_double (c := c) (s := s)
  rw [h] at hlen
  exact List.count_eq_zero.mp (by omega)

lemma suffix_of_append_eq (h : s ++ c :: t = u ++ c :: v) (hs : c ∉ s) : v <:+ t := by
  obtain ⟨w, rfl, hw⟩ | ⟨w, rfl, hw⟩ := List.append_eq_append_iff.mp h
  · cases w with
    | nil =>
      cases hw
      exact List.suffix_rfl
    | cons d w =>
      cases hw
      exact ⟨w ++ [c], by rw [List.append_assoc]; rfl⟩
  · cases w with
    | nil =>
      cases hw
      exact List.suffix_rfl
    | cons d w =>
      cases hw
      exact absurd (List.mem_append_right u (.head w)) hs

lemma prefix_of_append_eq (h : s ++ c :: t = u ++ c :: v) (ht : c ∉ t) : u <+: s := by
  obtain ⟨w, rfl, hw⟩ | ⟨w, rfl, hw⟩ := List.append_eq_append_iff.mp h
  · cases w with
    | nil =>
      rw [List.append_nil]
    | cons d w =>
      cases hw
      exact absurd (List.mem_append_right w (.head v)) ht
  · exact List.prefix_append u w

end Split

section Environment
variable (e : Environment)

lemma colon_not_mem_user : colon ∉ e.tmUser := fun h => isalnum_ne (e.user_chars colon h) rfl rfl

lemma slash_not_mem_first' (h : slash ∉ e.tmPass) : slash ∉ e.first := by
  rw [Environment.first, List.mem_append, List.mem_cons, List.mem_append, List.mem_cons]
  simp only [not_or]
  exact ⟨fun h => isalnum_ne (e.user_chars slash h) rfl rfl, by decide, h, by decide,
    fun h => isname_ne (e.host_chars slash h) rfl rfl⟩

lemma takeWhile_afpUrl (h : slash ∉ e.tmPass) : (e.first ++ slash :: e.tmShare).takeWhile (· ≠ slash) = e.first := by
  have hall : ∀ c ∈ e.first, decide (c ≠ slash) = true := by
    intro c hc
    apply decide_eq_true
    rintro rfl
    exact slash_not_mem_first' e h hc
  rw [List.takeWhile_append_of_pos hall]
  exact List.append_nil _

lemma takeWhile_share : ((e.first ++ slash :: e.tmShare).drop (e.first.length + 1)).takeWhile (· ≠ dollar) = e.tmShare := by
  rw [List.drop_length_add_append]
  apply List.takeWhile_eq_self_iff.mpr
  intro c hc
  exact decide_eq_true (isname_ne (e.share_chars c hc) rfl)

lemma afpParseUrl_afpUrl :
    afpParseUrl afpDefaultUrl e.afpUrl = parseParts afpDefaultUrl (e.first ++ slash :: e.tmShare) := by
  have hscheme : strstr schemeEnd e.afpUrl = some 3 :=
    strstr_append (by decide : colon ∉ afpScheme) (e.first ++ slash :: e.tmShare)
  rw [afpParseUrl, hscheme]
  rfl

variable {e}

lemma take_escapeStrchr_first {i : Nat} (hat : escapeStrchr atSign e.first = some i) :
    ∃ w, double atSign w <+: e.tmPass ∧ e.first.take i = e.tmUser ++ colon :: double atSign w := by
  have huser : atSign ∉ e.tmUser ++ [colon] := by
    rw [List.mem_append, not_or]
    exact ⟨fun h => isalnum_ne (e.user_chars atSign h) rfl rfl, by decide⟩
  have hhost : atSign ∉ e.tmHost := fun h => isname_ne (e.host_chars atSign h) rfl rfl
  have hsplit : e.first = (e.tmUser ++ [colon]) ++ (e.tmPass ++ atSign :: e.tmHost) := by
    rw [List.append_assoc]
    rfl
  rw [hsplit, escapeStrchr_append huser] at hat
  obtain ⟨j, hj, rfl⟩ := Option.map_eq_some_iff.mp hat
  obtain ⟨w, v, hw, rfl⟩ := escapeStrchr_eq_some hj
  refine ⟨w, prefix_of_append_eq hw hhost, ?_⟩
  rw [hsplit, hw, Nat.add_comm, List.take_length_add_append, List.take_left, List.append_assoc]
  rfl

lemma fits_of_mounts (h : e.Mounts) : e.Fits := by
  obtain ⟨url, hparse, huser, hpass, -, -⟩ := h
  rw [afpParseUrl_afpUrl] at hparse
  obtain ⟨hfirst, hshare, hempty | ⟨hsize, i, password, u, hat, hescape, htake, hcolon⟩⟩ :=
    parseParts_ok hparse rfl rfl rfl
  · exact absurd (hpass.symm.trans hempty) e.pass_nonempty
  have hsub : e.tmPass.Sublist password := by
    rw [← hpass, hescape]
    exact escapeFrom_sublist atSign false password
  have hslash : slash ∉ e.tmPass := by
    intro hmem
    have hin : slash ∈ u ++ colon :: password := List.mem_append_right u (.tail _ (hsub.subset hmem))
    rw [← htake] at hin
    exact of_decide_eq_true (List.all_eq_true.mp List.all_takeWhile slash (List.mem_of_mem_take hin)) rfl
  rw [takeWhile_afpUrl e hslash] at hfirst hshare hat htake
  rw [takeWhile_share] at hshare
  obtain ⟨w, hprefix, hw⟩ := take_escapeStrchr_first hat
  rw [hw] at htake
  -- nothing is lost only if the login ends at the last `@` and starts behind the first `:`
  have hsuffix : password <:+ double atSign w := suffix_of_append_eq htake (colon_not_mem_user e)
  have hall : double atSign w = e.tmPass := hprefix.eq_of_length_le (hsub.length_le.trans hsuffix.length_le)
  have hpassword : password = e.tmPass := by
    rw [← hall]
    apply hsuffix.eq_of_length_le
    rw [hall]
    exact hsub.length_le
  have hdouble : double atSign w = w := by
    rw [hall, ← hpass, hescape, hpassword, ← hall, escapeString_double]
  exact
    { slash := hslash
      colon := hpassword ▸ hcolon
      atSign := by
        rw [← hall, hdouble]
        exact not_mem_of_double_eq hdouble
      user_size := huser ▸ hsize
      first_size := hfirst
      share_size := hshare fun h => isname_ne (e.share_chars slash h) rfl rfl }

lemma parseVolume_share (url : AfpUrl) (hvolume : url.volumename = []) (hsize : e.tmShare.length < 33) :
    parseVolume url e.tmShare = .ok { url with volumename := e.tmShare } := by
  have hslash : slash ∉ e.tmShare := fun h => isname_ne (e.share_chars slash h) rfl rfl
  rw [parseVolume]
  split
  case isTrue hnil =>
    rw [hnil, ← hvolume]
    rfl
  case isFalse =>
    simp only [strchr_none hslash, copyPart_ok hsize, bind, Except.bind, pure, Except.pure]

def Environment.login (e : Environment) (h : e.Fits) : Login where
  user := e.tmUser
  uam := none
  password := some e.tmPass
  user_chars c hc :=
    have := e.user_chars c hc
    ⟨isalnum_ne this rfl, isalnum_ne this rfl, isalnum_ne this rfl, isalnum_ne this rfl⟩
  user_last hlast := colon_not_mem_user e (List.mem_of_getLast? hlast)
  user_colon _ := rfl
  user_size := by
    rw [double_eq_self (colon_not_mem_user e)]
    exact h.user_size
  password_chars := by
    rintro p ⟨⟩ c hc
    refine ⟨?_, ?_, ?_⟩
    · rintro rfl
      exact absurd (e.pass_chars 0 hc) (by decide)
    · rintro rfl
      exact h.slash hc
    · rintro rfl
      exact h.colon hc
  password_size := by
    rintro p ⟨⟩
    rw [double_eq_self h.atSign]
    have := e.pass_size
    omega

lemma first_eq_login (h : e.Fits) : e.first = (e.login h).text ++ atSign :: e.tmHost := by
  have htext : (e.login h).text = e.tmUser ++ colon :: e.tmPass := by
    show (double colon e.tmUser ++ []) ++ colon :: double atSign e.tmPass = _
    rw [double_eq_self (colon_not_mem_user e), double_eq_self h.atSign, List.append_nil]
  rw [htext, List.append_assoc]
  rfl

lemma parseServer_host (url : AfpUrl) (hsize : e.tmHost.length < 255) :
    parseServer url e.tmHost = .ok (0, { url with servername := e.tmHost }) := by
  have hname := parseServer_name url (fun c hc =>
    have := e.host_chars c hc
    ⟨isname_ne this rfl, isname_ne this rfl, isname_ne this rfl⟩) none hsize
  rwa [portSuffix, List.append_nil] at hname

lemma mounts_of_fits (h : e.Fits) : e.Mounts := by
  have hfirst := first_eq_login h
  have hne : e.first ≠ [] := by
    rw [hfirst]
    exact List.append_ne_nil_of_right_ne_nil _ (List.cons_ne_nil _ _)
  have hhead : e.tmHost.head? ≠ some atSign := fun hh => isname_ne (e.host_chars atSign (List.mem_of_head? hh)) rfl rfl
  have hat := escapeStrchr_login (e.login h) hhead
  rw [← hfirst] at hat
  have hdrop : e.first.drop ((e.login h).text.length + 1) = e.tmHost := by
    rw [hfirst]
    exact List.drop_length_add_append 1
  have htake : e.first.take (e.login h).text.length = (e.login h).text := by
    rw [hfirst]
    exact List.take_left
  have hsize : ¬ (255 ≤ e.first.length ∨ 2048 ≤ e.tmShare.length) := by
    have := h.first_size
    have := h.share_size
    omega
  have hserver := parseServer_host (e := e) afpDefaultUrl (by
    have := h.first_size
    rw [hfirst, List.length_append, List.length_cons] at this
    omega)
  have hlogin := parseLogin_text (e.login h) { afpDefaultUrl with servername := e.tmHost } rfl rfl
  have hvolume := parseVolume_share (e := e)
    { afpDefaultUrl with
      servername := e.tmHost, username := double colon e.tmUser, password := double atSign e.tmPass } rfl h.share_size
  have hparse : parseParts afpDefaultUrl (e.first ++ slash :: e.tmShare) =
      .ok (0, ⟨e.tmUser, [], e.tmPass, e.tmHost, 548, e.tmShare, []⟩) := by
    simp only [parseParts, takeWhile_afpUrl e h.slash, takeWhile_share, if_neg hne, if_neg hsize, hat, hdrop, htake,
      hserver, hlogin, andThen, bind, Except.bind, pure, Except.pure]
    show (parseVolume { afpDefaultUrl with
        servername := e.tmHost, username := double colon e.tmUser, password := double atSign e.tmPass }
        e.tmShare).bind _ = _
    rw [hvolume]
    simp only [Except.bind, escapeUrl, escapeString_double]
    rfl
  exact ⟨_, (afpParseUrl_afpUrl e).trans hparse, rfl, rfl, rfl, rfl⟩

end Environment

/-- The container mounts with what it was given just if the password has no separator in it and every part fits. -/
theorem afpUrl_mounts_iff (e : Environment) : e.Mounts ↔ e.Fits := ⟨fits_of_mounts, mounts_of_fits⟩

def atSignEnvironment : Environment where
  tmUser := [117]
  tmPass := [112, 64, 113]
  tmHost := [104]
  tmShare := [115]
  user_chars := by decide +kernel
  pass_chars := by decide +kernel
  pass_nonempty := by decide +kernel
  pass_size := by decide
  host_chars := by decide +kernel
  share_chars := by decide +kernel

/-- The login ends at the first `@`: the password is `p` and the server `q@h`. -/
theorem afpUrl_cut_at_sign :
    afpParseUrl afpDefaultUrl atSignEnvironment.afpUrl =
      .ok (0, ⟨[117], [], [112], [113, 64, 104], 548, [115], []⟩) ∧ ¬ atSignEnvironment.Mounts := by
  have hparse : afpParseUrl afpDefaultUrl atSignEnvironment.afpUrl =
      .ok (0, ⟨[117], [], [112], [113, 64, 104], 548, [115], []⟩) := by decide
  refine ⟨hparse, ?_⟩
  rintro ⟨url, h, -, hpass, -⟩
  rw [hparse] at h
  cases h
  exact absurd hpass (by decide)

end AfpfsNg.Url
