import AfpfsNg.Url.Parse
import Mathlib.Data.List.TakeWhile

/-!
# URLs from their parts

What a URL is put together from, and that `afp_parse_url` takes it apart again. `Parts` are the parts with the conditions
on their characters and lengths: a user name with a `:` needs a password, for instance, since the parser takes the last
`:` to be in front of one. `Parts.text` is the URL and `Parts.url` what the parser should set.
-/

namespace AfpfsNg.Url
open AfpfsNg.Base AfpfsNg.Afp AfpfsNg.Uam

def double (c : UInt8) (s : Bytes) : Bytes := s.flatMap fun d => if d = c then [c, c] else [d]

/-- `user[;AUTH=uam][:password]` -/
structure Login where
  user : Bytes
  uam : Option Method
  password : Option Bytes
  user_chars : ∀ c ∈ user, c ≠ 0 ∧ c ≠ slash ∧ c ≠ atSign ∧ c ≠ 59
  user_last : user.getLast? ≠ some colon
  user_colon : colon ∈ user → password.isSome
  user_size : (double colon user).length < 127
  password_chars : ∀ p ∈ password, ∀ c ∈ p, c ≠ 0 ∧ c ≠ slash ∧ c ≠ colon
  password_size : ∀ p ∈ password, (double atSign p).length < 127

/-- A name, or an IPv6 address in brackets. -/
inductive Host where
  | name (host : Bytes) (nonempty : host ≠ [])
      (chars : ∀ c ∈ host, c ≠ 0 ∧ c ≠ opening ∧ c ≠ colon ∧ c ≠ atSign ∧ c ≠ slash)
  | literal (address : Bytes) (chars : ∀ c ∈ address, c ≠ 0 ∧ c ≠ closing ∧ c ≠ atSign ∧ c ≠ slash)

structure Port where
  digits : Bytes
  isdigits : ∀ c ∈ digits, isdigit c = true
  positive : 1 ≤ digitsValue digits
  bounded : digitsValue digits ≤ 32767

/-- `volume[/path]` -/
structure VolumePath where
  volume : Bytes
  path : Option Bytes
  nonempty : volume ≠ []
  volume_chars : ∀ c ∈ volume, c ≠ 0 ∧ c ≠ slash ∧ c ≠ dollar
  volume_size : volume.length < 33
  path_chars : ∀ p ∈ path, ∀ c ∈ p, c ≠ 0 ∧ c ≠ dollar
  path_size : ∀ p ∈ path, (slash :: p).length < 768

def Login.auth (l : Login) : Bytes :=
  match l.uam with
  | none => []
  | some m => authString ++ m.name

def Login.userText (l : Login) : Bytes := double colon l.user ++ l.auth

def Login.text (l : Login) : Bytes :=
  l.userText ++
    match l.password with
    | none => []
    | some p => colon :: double atSign p

def Host.text : Host → Bytes
  | .name host .. => host
  | .literal address _ => opening :: (address ++ [closing])

def Host.address : Host → Bytes
  | .name host .. => host
  | .literal address _ => address

def portSuffix : Option Port → Bytes
  | none => []
  | some port => colon :: port.digits

def loginPrefix : Option Login → Bytes
  | none => []
  | some l => l.text ++ [atSign]

def VolumePath.rest (v : VolumePath) : Bytes :=
  match v.path with
  | none => []
  | some p => slash :: p

def volumeSuffix : Option VolumePath → Bytes
  | none => []
  | some v => slash :: (v.volume ++ v.rest)

structure Parts where
  login : Option Login
  host : Host
  port : Option Port
  volume : Option VolumePath
  size : (loginPrefix login ++ (host.text ++ portSuffix port)).length < 255

def Parts.first (P : Parts) : Bytes := loginPrefix P.login ++ (P.host.text ++ portSuffix P.port)

def Parts.text (P : Parts) : Bytes := afpScheme ++ schemeEnd ++ (P.first ++ volumeSuffix P.volume)

def Parts.url (P : Parts) : AfpUrl where
  username := (P.login.map Login.user).getD []
  uamname := ((P.login.bind Login.uam).map Method.name).getD []
  password := (P.login.bind Login.password).getD []
  servername := P.host.address
  port := (P.port.map fun p => (digitsValue p.digits : Int)).getD 548
  volumename := (P.volume.map VolumePath.volume).getD []
  path := ((P.volume.bind VolumePath.path).map (slash :: ·)).getD []

section Double
variable {c : UInt8} {s t : Bytes}

lemma double_cons (d : UInt8) : double c (d :: s) = (if d = c then [c, c] else [d]) ++ double c s := rfl

lemma escapeString_double : escapeString (double c s) c = s := by
  induction s with
  | nil => rfl
  | cons d s ih =>
    rw [escapeString] at ih ⊢
    rw [double_cons]
    by_cases hd : d = c
    · subst hd
      simp [escapeFrom, ih]
    · simp [escapeFrom, hd, ih]

lemma mem_double {d : UInt8} : d ∈ double c s ↔ d ∈ s := by
  rw [double, List.mem_flatMap]
  constructor
  · rintro ⟨e, he, hd⟩
    split at hd
    case isTrue heq =>
      subst heq
      simp only [List.mem_cons, List.not_mem_nil, or_false, or_self] at hd
      rwa [hd]
    case isFalse => rwa [List.mem_singleton.mp hd]
  · intro hd
    refine ⟨d, hd, ?_⟩
    split
    case isTrue heq => exact heq ▸ .head _
    case isFalse => exact .head _

lemma double_eq_self (h : c ∉ s) : double c s = s := by
  induction s with
  | nil => rfl
  | cons d s ih =>
    rw [List.mem_cons, not_or] at h
    rw [double_cons, if_neg (Ne.symm h.1), ih h.2]
    rfl

lemma escapeStrchr_cons_ne {x : UInt8} (hx : x ≠ c) : escapeStrchr c (x :: s) = (escapeStrchr c s).map (· + 1) := by
  cases s with
  | nil => exact if_neg hx
  | cons y s => rw [escapeStrchr, if_neg hx]

lemma escapeStrchr_append (h : c ∉ s) : escapeStrchr c (s ++ t) = (escapeStrchr c t).map (· + s.length) := by
  induction s with
  | nil =>
    show escapeStrchr c t = _
    cases escapeStrchr c t with
    | none => rfl
    | some i => rfl
  | cons x s ih =>
    rw [List.mem_cons, not_or] at h
    rw [List.cons_append, escapeStrchr_cons_ne (Ne.symm h.1), ih h.2, Option.map_map]
    rfl

lemma escapeStrchr_none (h : c ∉ s) : escapeStrchr c s = none := by
  rw [← List.append_nil s, escapeStrchr_append h]
  rfl

lemma escapeStrchr_single (h : t.head? ≠ some c) : escapeStrchr c (c :: t) = some 0 := by
  cases t with
  | nil => exact if_pos rfl
  | cons y t =>
    have hy : y ≠ c := fun heq => h (congrArg some heq)
    rw [escapeStrchr, if_pos rfl, if_neg hy]

lemma escapeStrchr_double (h : t.head? ≠ some c) :
    escapeStrchr c (double c s ++ c :: t) = some (double c s).length := by
  induction s with
  | nil => exact escapeStrchr_single h
  | cons d s ih =>
    rw [double_cons]
    split
    case isTrue =>
      show escapeStrchr c (c :: c :: (double c s ++ c :: t)) = _
      rw [escapeStrchr, if_pos rfl, if_pos rfl, ih]
      rfl
    case isFalse hd =>
      show escapeStrchr c (d :: (double c s ++ c :: t)) = _
      rw [escapeStrchr_cons_ne hd, ih]
      rfl

end Double

lemma copyPart_ok {size : Nat} {s : Bytes} (h : s.length < size) : copyPart size s = .ok s := if_pos h

lemma escapeStrrchr_append {c : UInt8} {s t : Bytes} (hs : s.getLast? ≠ some c) (ht : c ∉ t) :
    escapeStrrchr (s ++ c :: t) c = .ok (some s.length) := by
  rw [escapeStrrchr, escapeStrrchrFrom, List.drop_zero, strrchr_append ht]
  cases hlen : s.length with
  | zero => rfl
  | succ n =>
    have hlast : (s ++ c :: t)[n]? ≠ some c := by
      rw [List.getElem?_append_left (by omega)]
      rwa [List.getLast?_eq_getElem?, hlen, Nat.add_sub_cancel] at hs
    simp only [Nat.zero_add]
    exact if_pos hlast

lemma escapeStrrchr_none {c : UInt8} {s : Bytes} (h : c ∉ s) : escapeStrrchr s c = .ok none := by
  rw [escapeStrrchr, escapeStrrchrFrom, List.drop_zero, strrchr_none h]

lemma methodName_chars (m : Method) : ∀ c ∈ m.name, c ≠ slash ∧ c ≠ atSign ∧ c ≠ colon := by
  cases m <;> decide +kernel

lemma methodName_ne_nil (m : Method) : m.name ≠ [] := by
  cases m <;> decide +kernel

lemma methodName_size (m : Method) : m.name.length < 50 := by
  cases m <;> decide +kernel

lemma checkUamname_methodName (m : Method) : checkUamname m.name = false := by
  cases m <;> decide +kernel

lemma getLast?_double {c : UInt8} (s : Bytes) : (double c s).getLast? = s.getLast? := by
  induction s using List.reverseRecOn with
  | nil => rfl
  | append_singleton s d _ =>
    have hd : double c (s ++ [d]) = double c s ++ if d = c then [c, c] else [d] := by
      rw [double, List.flatMap_append, List.flatMap_singleton]
      rfl
    rw [hd, List.getLast?_concat]
    split
    case isTrue heq => rw [heq, List.getLast?_append_of_ne_nil _ (List.cons_ne_nil _ _)]; rfl
    case isFalse => exact List.getLast?_concat ..

lemma auth_chars (l : Login) : ∀ c ∈ l.auth, c ≠ slash ∧ c ≠ atSign ∧ c ≠ colon := by
  intro c hc
  rw [Login.auth] at hc
  cases hm : l.uam with
  | none =>
    rw [hm] at hc
    cases hc
  | some m =>
    rw [hm] at hc
    cases List.mem_append.mp hc with
    | inl h => exact (by decide +kernel : ∀ c ∈ authString, c ≠ slash ∧ c ≠ atSign ∧ c ≠ colon) c h
    | inr h => exact methodName_chars m c h

section Login
variable (l : Login) (url : AfpUrl)

lemma parseUser_text (huam : url.uamname = []) :
    parseUser url l.userText =
      .ok (0, { url with username := double colon l.user, uamname := (l.uam.map Method.name).getD [] }) := by
  have hsemi : 59 ∉ double colon l.user := fun h => (l.user_chars 59 (mem_double.mp h)).2.2.2 rfl
  rw [Login.userText, Login.auth]
  cases l.uam with
  | none =>
    have hnone : strstr authString (double colon l.user) = none :=
      strstr_eq_none.mpr fun hin => hsemi (hin.subset (.head _))
    simp only [parseUser, hnone, List.append_nil, copyPart_ok l.user_size, andThen, bind, Except.bind, pure, Except.pure]
    rw [Option.map_none, Option.getD_none, ← huam]
    rfl
  | some m =>
    have hsome : strstr authString (double colon l.user ++ (authString ++ m.name)) =
        some (double colon l.user).length := strstr_append hsemi m.name
    have hdrop : (double colon l.user ++ (authString ++ m.name)).drop ((double colon l.user).length + 6) = m.name :=
      List.drop_length_add_append 6
    simp only [parseUser, hsome, hdrop, List.take_left, copyPart_ok (methodName_size m), copyPart_ok l.user_size,
      checkUamname_methodName, andThen, bind, Except.bind, pure, Except.pure]
    rfl

lemma getLast?_userText : l.userText.getLast? ≠ some colon := by
  rw [Login.userText, Login.auth]
  cases l.uam with
  | none =>
    rw [List.append_nil, getLast?_double]
    exact l.user_last
  | some m =>
    rw [← List.append_assoc, List.getLast?_append_of_ne_nil _ (methodName_ne_nil m)]
    intro h
    exact (methodName_chars m colon (List.mem_of_getLast? h)).2.2 rfl

lemma colon_not_mem_userText (hpass : l.password = none) : colon ∉ l.userText := by
  rw [Login.userText, List.mem_append, mem_double, not_or]
  constructor
  · intro h
    have hsome := l.user_colon h
    rw [hpass] at hsome
    cases hsome
  · exact fun h => (auth_chars l colon h).2.2 rfl

lemma parseLogin_text (huam : url.uamname = []) (hpass : url.password = []) :
    parseLogin url l.text = .ok (0, { url with
      username := double colon l.user
      uamname := (l.uam.map Method.name).getD []
      password := double atSign (l.password.getD []) }) := by
  rw [Login.text]
  cases hp : l.password with
  | none =>
    have hnone := escapeStrrchr_none (colon_not_mem_userText l hp)
    simp only [parseLogin, List.append_nil, hnone, parseUser_text l url huam, bind, Except.bind]
    rw [Option.getD_none, show double atSign [] = [] from rfl, ← hpass]
  | some p =>
    have hcolon : colon ∉ double atSign p := fun h => (l.password_chars p hp colon (mem_double.mp h)).2.2 rfl
    have hsome := escapeStrrchr_append (getLast?_userText l) hcolon
    have hdrop : (l.userText ++ colon :: double atSign p).drop (l.userText.length + 1) = double atSign p :=
      List.drop_length_add_append 1
    simp only [parseLogin, hsome, hdrop, List.take_left, copyPart_ok (l.password_size p hp), bind, Except.bind]
    rw [parseUser_text]
    · rfl
    · exact huam

end Login

lemma strtol_digits (port : Port) : strtol port.digits = digitsValue port.digits := by
  obtain ⟨digits, isdigits, positive, _⟩ := port
  cases digits with
  | nil => cases positive
  | cons c t =>
    have hc := isdigits c (.head _)
    have hspace : isspace c = false := by
      simp only [isdigit, isspace, decide_eq_true_eq, decide_eq_false_iff_not, UInt8.le_iff_toNat_le] at hc ⊢
      rintro (rfl | ⟨-, h⟩)
      · exact absurd hc (by decide)
      · exact absurd (Nat.le_trans hc.1 h) (by decide)
    have hminus : c ≠ 45 := fun h => absurd (h ▸ hc) (by decide)
    have hplus : c ≠ 43 := fun h => absurd (h ▸ hc) (by decide)
    have hall : (c :: t).takeWhile isdigit = c :: t := List.takeWhile_eq_self_iff.mpr isdigits
    rw [strtol, List.dropWhile_cons_of_neg (by rw [hspace]; decide)]
    simp only [if_neg hminus, if_neg hplus, hall]

def portValue (port : Option Port) (default : Int) : Int := (port.map fun p => (digitsValue p.digits : Int)).getD default

lemma setServer_ok {host : Bytes} (url : AfpUrl) (hsize : host.length < 255) (hslash : slash ∉ host)
    (port : Option Port) :
    setServer url host (port.map Port.digits) =
      .ok (0, { url with servername := host, port := portValue port url.port }) := by
  have hname : checkServername host = false := decide_eq_false hslash
  cases port with
  | none =>
    simp only [setServer, Option.map_none, andThen, copyPart_ok hsize, hname, bind, Except.bind, pure, Except.pure]
    rfl
  | some port =>
    have hvalue := strtol_digits port
    have hcheck : checkPort port.digits = false := by
      rw [checkPort, hvalue]
      have := port.bounded
      exact decide_eq_false (by omega)
    have hzero : strtol port.digits ≠ 0 := by
      rw [hvalue]
      have := port.positive
      omega
    simp only [setServer, Option.map_some, hcheck, if_neg hzero, andThen, copyPart_ok hsize, hname, bind, Except.bind,
      pure, Except.pure]
    rw [hvalue]
    rfl

lemma portSuffix_chars (port : Option Port) : ∀ c ∈ portSuffix port, c ≠ slash ∧ c ≠ atSign ∧ c ≠ opening := by
  intro c hc
  cases port with
  | none => cases hc
  | some port =>
    cases hc with
    | head => decide
    | tail _ h =>
      have hdigit : isdigit c = true := port.isdigits c h
      refine ⟨?_, ?_, ?_⟩
      all_goals
        rintro rfl
        exact absurd hdigit (by decide)

lemma portText_suffix (port : Option Port) : portText (portSuffix port) = port.map Port.digits := by
  cases port with
  | none => rfl
  | some port => rfl

lemma portText_append {s : Bytes} (h : colon ∉ s) (port : Option Port) :
    portText (s ++ portSuffix port) = port.map Port.digits := by
  cases port with
  | none =>
    rw [portSuffix, List.append_nil, portText, strchr_none h]
    rfl
  | some port =>
    rw [portSuffix, portText, strchr_append h]
    exact congrArg some (List.drop_length_add_append 1)

lemma take_portSuffix {s : Bytes} (h : colon ∉ s) (port : Option Port) :
    (s ++ portSuffix port).take ((strchr colon (s ++ portSuffix port)).getD (s ++ portSuffix port).length) = s := by
  cases port with
  | none => rw [portSuffix, List.append_nil, strchr_none h, Option.getD_none, List.take_length]
  | some port => rw [portSuffix, strchr_append h, Option.getD_some, List.take_left]

lemma parseServer_name {host : Bytes} (url : AfpUrl) (chars : ∀ c ∈ host, c ≠ opening ∧ c ≠ colon ∧ c ≠ slash)
    (port : Option Port) (hsize : host.length < 255) :
    parseServer url (host ++ portSuffix port) =
      .ok (0, { url with servername := host, port := portValue port url.port }) := by
  have hcolon : colon ∉ host := fun h => (chars colon h).2.1 rfl
  have hslash : slash ∉ host := fun h => (chars slash h).2.2 rfl
  have hhead : (host ++ portSuffix port).head? ≠ some opening := by
    intro h
    cases List.mem_append.mp (List.mem_of_head? h) with
    | inl h => exact (chars opening h).1 rfl
    | inr h => exact (portSuffix_chars port opening h).2.2 rfl
  rw [parseServer, if_neg hhead]
  show setServer url _ _ = _
  rw [take_portSuffix hcolon, portText_append hcolon]
  exact setServer_ok url hsize hslash port

lemma parseServer_text (url : AfpUrl) (host : Host) (port : Option Port)
    (hsize : (host.text ++ portSuffix port).length < 255) :
    parseServer url (host.text ++ portSuffix port) =
      .ok (0, { url with servername := host.address, port := portValue port url.port }) := by
  rw [List.length_append] at hsize
  cases host with
  | name host nonempty chars =>
    apply parseServer_name url ?_ port (Nat.lt_of_le_of_lt (Nat.le_add_right ..) hsize)
    intro c hc
    have := chars c hc
    exact ⟨this.2.1, this.2.2.1, this.2.2.2.2⟩
  | literal address chars =>
    have hclosing : closing ∉ opening :: address := by
      rw [List.mem_cons, not_or]
      exact ⟨by decide, fun h => (chars closing h).2.1 rfl⟩
    have hslash : slash ∉ address := fun h => (chars slash h).2.2.2 rfl
    have htext : (Host.literal address chars).text ++ portSuffix port =
        (opening :: address) ++ closing :: portSuffix port := by
      rw [Host.text, List.cons_append, List.append_assoc]
      rfl
    have hslice : slice ((opening :: address) ++ closing :: portSuffix port) 1 address.length = address := List.take_left
    have hdrop : ((opening :: address) ++ closing :: portSuffix port).drop ((opening :: address).length + 1) =
        portSuffix port := List.drop_length_add_append 1
    have hshort : address.length < 255 := by
      rw [Host.text, List.length_cons, List.length_append] at hsize
      omega
    have hopening : ((opening :: address) ++ closing :: portSuffix port).head? = some opening := rfl
    rw [parseServer, htext, if_pos hopening, strchr_append hclosing]
    show setServer url (slice _ 1 address.length) (portText (List.drop _ _)) = _
    rw [hslice, hdrop, portText_suffix]
    exact setServer_ok url hshort hslash port

lemma parseVolume_text (url : AfpUrl) (v : VolumePath) (hpath : url.path = []) :
    parseVolume url (v.volume ++ v.rest) =
      .ok { url with volumename := v.volume, path := (v.path.map (slash :: ·)).getD [] } := by
  have hslash : slash ∉ v.volume := fun h => (v.volume_chars slash h).2.1 rfl
  have hne : v.volume ++ v.rest ≠ [] := fun h => v.nonempty (List.append_eq_nil_iff.mp h).1
  rw [parseVolume, if_neg hne, VolumePath.rest]
  cases hp : v.path with
  | none =>
    simp only [List.append_nil, strchr_none hslash, copyPart_ok v.volume_size, bind, Except.bind, pure, Except.pure]
    rw [Option.map_none, Option.getD_none, ← hpath]
  | some p =>
    have hdrop : (v.volume ++ slash :: p).drop (v.volume.length + 1) = p := List.drop_length_add_append 1
    simp only [strchr_append hslash, List.take_left, hdrop, copyPart_ok v.volume_size, copyPart_ok (v.path_size p hp),
      bind, Except.bind, pure, Except.pure]
    rfl

lemma userText_chars (l : Login) : ∀ c ∈ l.userText, c ≠ slash ∧ c ≠ atSign := by
  intro c hc
  cases List.mem_append.mp hc with
  | inl h =>
    have := l.user_chars c (mem_double.mp h)
    exact ⟨this.2.1, this.2.2.1⟩
  | inr h =>
    have := auth_chars l c h
    exact ⟨this.1, this.2.1⟩

lemma slash_not_mem_loginText (l : Login) : slash ∉ l.text := by
  rw [Login.text, List.mem_append, not_or]
  refine ⟨fun h => (userText_chars l slash h).1 rfl, ?_⟩
  cases hp : l.password with
  | none => nofun
  | some p =>
    rw [List.mem_cons, not_or, mem_double]
    exact ⟨by decide, fun h => (l.password_chars p hp slash h).2.1 rfl⟩

lemma hostText_chars (host : Host) : ∀ c ∈ host.text, c ≠ slash ∧ c ≠ atSign := by
  intro c hc
  cases host with
  | name host nonempty chars =>
    have := chars c hc
    exact ⟨this.2.2.2.2, this.2.2.2.1⟩
  | literal address chars =>
    rw [Host.text, List.mem_cons, List.mem_append, List.mem_singleton] at hc
    obtain rfl | h | rfl := hc
    · decide
    · have := chars c h
      exact ⟨this.2.2.2, this.2.2.1⟩
    · decide

lemma server_chars (host : Host) (port : Option Port) : ∀ c ∈ host.text ++ portSuffix port, c ≠ slash ∧ c ≠ atSign := by
  intro c hc
  cases List.mem_append.mp hc with
  | inl h => exact hostText_chars host c h
  | inr h =>
    have := portSuffix_chars port c h
    exact ⟨this.1, this.2.1⟩

lemma hostText_ne_nil (host : Host) : host.text ≠ [] := by
  cases host with
  | name host nonempty chars => exact nonempty
  | literal address chars => exact List.cons_ne_nil _ _

lemma slash_not_mem_first (P : Parts) : slash ∉ P.first := by
  rw [Parts.first, List.mem_append, not_or]
  refine ⟨?_, fun h => (server_chars P.host P.port slash h).1 rfl⟩
  cases P.login with
  | none => nofun
  | some l =>
    rw [loginPrefix, List.mem_append, not_or]
    exact ⟨slash_not_mem_loginText l, by decide⟩

lemma escapeStrchr_login (l : Login) {server : Bytes} (h : server.head? ≠ some atSign) :
    escapeStrchr atSign (l.text ++ atSign :: server) = some l.text.length := by
  have huser : atSign ∉ l.userText := fun h => (userText_chars l atSign h).2 rfl
  rw [Login.text]
  cases l.password with
  | none =>
    rw [List.append_nil, escapeStrchr_append huser, escapeStrchr_single h, Option.map_some, Nat.zero_add]
  | some p =>
    have hcolon : atSign ∉ l.userText ++ [colon] := by
      rw [List.mem_append, not_or]
      exact ⟨huser, by decide⟩
    have htext : (l.userText ++ colon :: double atSign p) ++ atSign :: server =
        (l.userText ++ [colon]) ++ (double atSign p ++ atSign :: server) := by
      simp only [List.append_assoc, List.cons_append, List.nil_append]
    rw [htext, escapeStrchr_append hcolon, escapeStrchr_double h, Option.map_some]
    simp only [List.length_append, List.length_cons, List.length_nil]
    exact congrArg some (by omega)

lemma takeWhile_first (P : Parts) : (P.first ++ volumeSuffix P.volume).takeWhile (· ≠ slash) = P.first := by
  have hall : ∀ c ∈ P.first, decide (c ≠ slash) = true := by
    intro c hc
    apply decide_eq_true
    rintro rfl
    exact slash_not_mem_first P hc
  rw [List.takeWhile_append_of_pos hall]
  cases P.volume with
  | none => exact List.append_nil _
  | some v => exact List.append_nil _

def Parts.second (P : Parts) : Bytes := (P.volume.map fun v => v.volume ++ v.rest).getD []

lemma takeWhile_second (P : Parts) :
    ((P.first ++ volumeSuffix P.volume).drop (P.first.length + 1)).takeWhile (· ≠ dollar) = P.second := by
  rw [List.drop_length_add_append, Parts.second]
  cases P.volume with
  | none => rfl
  | some v =>
    apply List.takeWhile_eq_self_iff.mpr
    intro c hc
    apply decide_eq_true
    rintro rfl
    cases List.mem_append.mp hc with
    | inl h => exact (v.volume_chars dollar h).2.2 rfl
    | inr h =>
      rw [VolumePath.rest] at h
      cases hp : v.path with
      | none =>
        rw [hp] at h
        cases h
      | some p =>
        rw [hp] at h
        cases h with
        | tail _ h => exact (v.path_chars p hp dollar h).2 rfl

lemma second_size (P : Parts) : P.second.length < 2048 := by
  rw [Parts.second]
  cases P.volume with
  | none => decide
  | some v =>
    have hvolume := v.volume_size
    rw [Option.map_some, Option.getD_some, List.length_append, VolumePath.rest]
    cases hp : v.path with
    | none =>
      rw [List.length_nil]
      omega
    | some p =>
      have hpath := v.path_size p hp
      show v.volume.length + (slash :: p).length < 2048
      omega

lemma parseVolume_second (url : AfpUrl) (P : Parts) (hvolume : url.volumename = []) (hpath : url.path = []) :
    parseVolume url P.second = .ok { url with
      volumename := (P.volume.map VolumePath.volume).getD []
      path := ((P.volume.bind VolumePath.path).map (slash :: ·)).getD [] } := by
  rw [Parts.second]
  cases P.volume with
  | none =>
    cases url
    cases hvolume
    cases hpath
    rfl
  | some v => exact parseVolume_text url v hpath

section Parts
variable (P : Parts)

lemma escapeStrchr_first :
    (P.login = none ∧ escapeStrchr atSign P.first = none ∧ P.first = P.host.text ++ portSuffix P.port) ∨
    ∃ l, P.login = some l ∧ escapeStrchr atSign P.first = some l.text.length ∧
      P.first = l.text ++ atSign :: (P.host.text ++ portSuffix P.port) := by
  have hat : atSign ∉ P.host.text ++ portSuffix P.port := fun h => (server_chars P.host P.port atSign h).2 rfl
  rw [Parts.first]
  cases P.login with
  | none => exact .inl ⟨rfl, escapeStrchr_none hat, rfl⟩
  | some l =>
    have hhead : (P.host.text ++ portSuffix P.port).head? ≠ some atSign := fun h => hat (List.mem_of_head? h)
    rw [loginPrefix, List.append_assoc, List.singleton_append]
    exact .inr ⟨l, rfl, escapeStrchr_login l hhead, rfl⟩

lemma parseParts_text : parseParts afpDefaultUrl (P.first ++ volumeSuffix P.volume) = .ok (0, P.url) := by
  have hne : P.first ≠ [] := by
    intro h
    exact hostText_ne_nil P.host (List.append_eq_nil_iff.mp (List.append_eq_nil_iff.mp h).2).1
  have hsize : ¬ (255 ≤ P.first.length ∨ 2048 ≤ P.second.length) := by
    have hfirst : P.first.length < 255 := P.size
    have hsecond := second_size P
    omega
  have hserver := parseServer_text afpDefaultUrl P.host P.port (by
    have hfirst := P.size
    rw [List.length_append] at hfirst
    omega)
  obtain ⟨hlogin, hat, hfirst⟩ | ⟨l, hlogin, hat, hfirst⟩ := escapeStrchr_first P
  · have hvolume := parseVolume_second
      { afpDefaultUrl with servername := P.host.address, port := portValue P.port afpDefaultUrl.port } P rfl rfl
    rw [← hfirst] at hserver
    simp only [parseParts, takeWhile_first, takeWhile_second, if_neg hne, if_neg hsize, hat, hserver, hvolume, andThen,
      bind, Except.bind, pure, Except.pure]
    rw [Parts.url, hlogin]
    rfl
  · have hdrop : P.first.drop (l.text.length + 1) = P.host.text ++ portSuffix P.port := by
      rw [hfirst]
      exact List.drop_length_add_append 1
    have htake : P.first.take l.text.length = l.text := by
      rw [hfirst]
      exact List.take_left
    have hparse := parseLogin_text l
      { afpDefaultUrl with servername := P.host.address, port := portValue P.port afpDefaultUrl.port } rfl rfl
    have hvolume := parseVolume_second
      { afpDefaultUrl with
        servername := P.host.address, port := portValue P.port afpDefaultUrl.port
        username := double colon l.user, uamname := (l.uam.map Method.name).getD []
        password := double atSign (l.password.getD []) } P rfl rfl
    simp only [parseParts, takeWhile_first, takeWhile_second, if_neg hne, if_neg hsize, hat, hdrop, htake, hserver,
      hparse, hvolume, andThen, bind, Except.bind, pure, Except.pure]
    rw [Parts.url, hlogin]
    simp only [escapeUrl, escapeString_double]
    rfl

end Parts

def sampleParts : Parts where
  login := some
    { user := [97, 58, 98], uam := some .dhx2, password := some [99, 64]
      user_chars := by decide +kernel
      user_last := by decide +kernel
      user_colon := fun _ => rfl
      user_size := by decide +kernel
      password_chars := by decide +kernel
      password_size := by decide +kernel }
  host := .literal [58, 58, 49] (by decide +kernel)
  port := some ⟨[53], by decide +kernel, by decide, by decide⟩
  volume := some
    { volume := [118], path := some [112]
      nonempty := by decide +kernel
      volume_chars := by decide +kernel
      volume_size := by decide +kernel
      path_chars := by decide +kernel
      path_size := by decide +kernel }
  size := by decide +kernel

end AfpfsNg.Url
