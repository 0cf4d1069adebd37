import AfpfsNg.Url.Entrypoint

/-!
# Where the parser of URLs leaves its arrays

`afp_parse_url` (`lib/afp_url.c`) copies each part of a URL with the part's own length as the limit, so a part that is too long
is written over the end of its array. It also reads in front of a URL, in an array that nothing was written to, and in front
of the login part.
-/

namespace AfpfsNg.Url
open AfpfsNg.Base AfpfsNg.Afp AfpfsNg.Uam

/-- The code stays in its arrays: it has a result, or it goes on for ever. -/
def Stays {α : Type} (x : Except Fault α) : Prop := ∀ fault, x = .error fault → fault = .outOfFuel

/-- What is between `afp://` and the next `/`. -/
def firstPart (p : Bytes) : Bytes := p.takeWhile (· ≠ slash)

/-- What is behind that, up to a `$`. -/
def secondPart (p : Bytes) : Bytes := (p.drop ((firstPart p).length + 1)).takeWhile (· ≠ dollar)

def serverText (first : Bytes) : Bytes :=
  match escapeStrchr atSign first with
  | some i => first.drop (i + 1)
  | none => first

def portOf (p : Bytes) : Option Bytes :=
  match if p.head? = some opening then strchr closing p else none with
  | some q => portText (p.drop (q + 1))
  | none => portText p

def PortAccepted (port : Option Bytes) : Prop := ∀ q ∈ port, 0 < strtol q ∧ strtol q ≤ 32767

def VolumeFits (second : Bytes) : Prop :=
  match strchr slash second with
  | none => second.length < 33
  | some q => q < 33 ∧ (second.drop (q + 1)).length + 1 < 768

/-- The method and the user name fit; `rest` has to hold when they are accepted. -/
def UserFits (p : Bytes) (rest : Prop) : Prop :=
  match strstr authString p with
  | none => p.length < 127 ∧ rest
  | some q => (p.drop (q + 6)).length < 50 ∧ (checkUamname (p.drop (q + 6)) = false → (p.take q).length < 127 ∧ rest)

/-- The last `c` of a string is written twice. -/
def LastDoubled (c : UInt8) (s : Bytes) : Prop := ∃ u v, s = u ++ c :: c :: v ∧ c ∉ v

/-- The parts of a login fit. When its last `:` is written twice, nothing behind it is reached. -/
structure LoginFits (p : Bytes) (rest : Prop) : Prop where
  start : ∀ v, p = colon :: colon :: v → colon ∈ v
  alone : colon ∉ p → UserFits p rest
  password : ∀ u v, p = u ++ colon :: v → colon ∉ v → u.getLast? ≠ some colon → v.length < 127 ∧ UserFits u rest

/-- The parts of what is behind `afp://` fit. -/
structure PartsFit (p : Bytes) : Prop where
  nonempty : firstPart p ≠ []
  first : (firstPart p).length < 255
  second : (secondPart p).length < 2048
  login : PortAccepted (portOf (serverText (firstPart p))) →
    ∀ i, escapeStrchr atSign (firstPart p) = some i → LoginFits ((firstPart p).take i) (VolumeFits (secondPart p))
  volume : PortAccepted (portOf (serverText (firstPart p))) →
    escapeStrchr atSign (firstPart p) = none → VolumeFits (secondPart p)

section Search
variable {c : UInt8} {s t : Bytes}

lemma escapeStrrchrFrom_doubled (hs : s ≠ []) (ht : c ∉ t) (fuel : Nat) {haystack : Nat} (h : haystack ≤ s.length) :
    escapeStrrchrFrom c (s ++ c :: c :: t) fuel haystack = .error .outOfFuel := by
  induction fuel generalizing haystack with
  | zero => rfl
  | succ fuel ih =>
    have hdrop : (s ++ c :: c :: t).drop haystack = (s.drop haystack ++ [c]) ++ c :: t := by
      rw [List.drop_append_of_le_length h, List.append_assoc]
      rfl
    have hlast : strrchr c ((s ++ c :: c :: t).drop haystack) = some (s.length - haystack + 1) := by
      rw [hdrop, strrchr_append ht, List.length_append, List.length_drop]
      rfl
    have hsecond : (s ++ c :: c :: t)[haystack + (s.length - haystack)]? = some c := by
      rw [Nat.add_sub_cancel' h, List.getElem?_append_right (Nat.le_refl _), Nat.sub_self]
      rfl
    have hpos := List.length_pos_iff.mpr hs
    simp only [escapeStrrchrFrom, hlast, hsecond, ne_eq, not_true_eq_false, if_false]
    rw [if_neg (by omega)]
    exact ih (by omega)

lemma escapeStrrchr_start (ht : c ∉ t) : escapeStrrchr (c :: c :: t) c = .error .overread := by
  have hlast : strrchr c ((c :: c :: t).drop 0) = some 1 := strrchr_append (s := [c]) ht
  rw [escapeStrrchr, escapeStrrchrFrom, hlast]
  exact (if_neg (not_not.mpr rfl)).trans (if_pos (by decide))

lemma last_unique {u u' v v' : Bytes} (h : u ++ c :: v = u' ++ c :: v') (hv : c ∉ v) (hv' : c ∉ v') : u = u' ∧ v = v' := by
  have hlen : u.length = u'.length := by
    have hlast := strrchr_append (s := u) hv
    rw [h, strrchr_append hv'] at hlast
    exact (Option.some.inj hlast).symm
  obtain ⟨rfl, hcons⟩ := List.append_inj h hlen
  exact ⟨rfl, List.tail_eq_of_cons_eq hcons⟩

lemma search_cases (c : UInt8) (s : Bytes) :
    c ∉ s ∨ (∃ u v, s = u ++ c :: v ∧ c ∉ v ∧ u.getLast? ≠ some c) ∨ LastDoubled c s := by
  by_cases hmem : c ∈ s
  case neg => exact .inl hmem
  case pos =>
    obtain ⟨u, v, rfl, hv⟩ := eq_append_of_mem hmem
    by_cases hu : u.getLast? = some c
    · obtain ⟨w, rfl⟩ := List.getLast?_eq_some_iff.mp hu
      refine .inr (.inr ⟨w, v, ?_, hv⟩)
      rw [List.append_assoc]
      rfl
    · exact .inr (.inl ⟨u, v, rfl, hv, hu⟩)

lemma escapeStrrchr_ok_iff : (∃ found, escapeStrrchr s c = .ok found) ↔ ¬ LastDoubled c s := by
  constructor
  · rintro ⟨found, hfound⟩ ⟨u, v, rfl, hv⟩
    cases u with
    | nil =>
      rw [List.nil_append, escapeStrrchr_start hv] at hfound
      cases hfound
    | cons d u =>
      rw [escapeStrrchr, escapeStrrchrFrom_doubled (List.cons_ne_nil d u) hv _ (Nat.zero_le _)] at hfound
      cases hfound
  · intro hsingle
    obtain hnone | ⟨u, v, rfl, hv, hu⟩ | hdouble := search_cases c s
    · exact ⟨none, escapeStrrchr_none hnone⟩
    · exact ⟨some u.length, escapeStrrchr_append hu hv⟩
    · exact absurd hdouble hsingle

end Search

def parseLoginWith (search : Bytes → Except Fault (Option Nat)) (url : AfpUrl) (p : Bytes) : Except Fault (Int × AfpUrl) := do
  match ← search p with
  | none => parseUser url p
  | some q => do
    let password ← copyPart 127 (p.drop (q + 1))
    parseUser { url with password := password } (p.take q)

def splitParts (search : Bytes → Except Fault (Option Nat)) (url : AfpUrl) (firstpart secondpart : Bytes) :
    Except Fault (Int × AfpUrl) := do
  let p := escapeStrchr atSign firstpart
  let r ← parseServer url (match p with | some i => firstpart.drop (i + 1) | none => firstpart)
  andThen r fun url => do
    let r ← match p with
      | some i => parseLoginWith search url (firstpart.take i)
      | none => .ok (0, url)
    andThen r fun url => do
      return (0, escapeUrl (← parseVolume url secondpart))

lemma parseParts_eq (url : AfpUrl) (p : Bytes) :
    parseParts url p =
      if firstPart p = [] then .error .uninitialised
      else if 255 ≤ (firstPart p).length ∨ 2048 ≤ (secondPart p).length then .error .copyOverflow
      else splitParts (escapeStrrchr · colon) url (firstPart p) (secondPart p) := rfl

section Parts
variable {α : Type} {url : AfpUrl} {p s : Bytes} {size : Nat}

lemma stays_ok (a : α) : Stays (.ok a : Except Fault α) := nofun

lemma stays_copyPart {f : Bytes → Except Fault α} : Stays (copyPart size s >>= f) ↔ s.length < size ∧ Stays (f s) := by
  rw [copyPart]
  by_cases hsize : s.length < size
  · rw [if_pos hsize, and_iff_right hsize]
    rfl
  · rw [if_neg hsize]
    exact iff_of_false (fun h => Fault.noConfusion (h .copyOverflow rfl)) fun h => hsize h.1

lemma stays_andThen {r : Int × AfpUrl} {next : AfpUrl → Except Fault (Int × AfpUrl)} :
    Stays (andThen r next) ↔ (r.1 = 0 → Stays (next r.2)) := by
  rw [andThen]
  by_cases hr : r.1 = 0
  · rw [if_neg (not_not.mpr hr), forall_prop_of_true hr]
  · rw [if_pos hr]
    exact iff_of_true (stays_ok r) fun h => absurd h hr

lemma andThen_bind {r : Int × AfpUrl} {f next : AfpUrl → Except Fault (Int × AfpUrl)} :
    (andThen r f >>= fun r => andThen r next) = andThen r fun url => f url >>= fun r => andThen r next := by
  simp only [andThen]
  split
  case isTrue hr => exact if_pos hr
  case isFalse => rfl

lemma setServer_accepted {name : Bytes} {port : Option Bytes} (hsize : name.length < 255) (hslash : slash ∉ name)
    (hport : PortAccepted port) : ∃ url', setServer url name port = .ok (0, url') := by
  have hname : checkServername name = false := decide_eq_false hslash
  cases port with
  | none =>
    simp only [setServer, andThen, copyPart_ok hsize, hname, bind, Except.bind, pure, Except.pure]
    exact ⟨_, rfl⟩
  | some q =>
    obtain ⟨hpos, hle⟩ := hport q rfl
    have hcheck : checkPort q = false := decide_eq_false (by omega)
    have hzero : strtol q ≠ 0 := Int.ne_of_gt hpos
    simp only [setServer, hcheck, if_neg hzero, andThen, copyPart_ok hsize, hname, bind, Except.bind, pure, Except.pure]
    exact ⟨_, rfl⟩

lemma setServer_refused {name : Bytes} {port : Option Bytes} (hport : ¬ PortAccepted port) :
    ∃ url', setServer url name port = .ok (-1, url') := by
  cases port with
  | none => exact absurd nofun hport
  | some q =>
    by_cases hcheck : checkPort q = true
    · simp only [setServer, if_pos hcheck, andThen]
      exact ⟨_, rfl⟩
    · have hzero : strtol q = 0 := by
        by_contra hne
        refine hport fun r hr => ?_
        cases hr
        rw [checkPort, decide_eq_true_eq] at hcheck
        omega
      simp only [setServer, if_neg hcheck, if_pos hzero, andThen]
      exact ⟨_, rfl⟩

lemma parseServer_accepted (hsize : p.length < 255) (hslash : slash ∉ p) (hport : PortAccepted (portOf p)) :
    ∃ url', parseServer url p = .ok (0, url') := by
  rw [parseServer]
  rw [portOf] at hport
  cases hq : if p.head? = some opening then strchr closing p else none with
  | some q =>
    rw [hq] at hport
    refine setServer_accepted (Nat.lt_of_le_of_lt ?_ hsize) (fun h => hslash ?_) hport
    · exact (List.length_take_le' ..).trans (List.drop_sublist ..).length_le
    · exact List.mem_of_mem_drop (List.mem_of_mem_take h)
  | none =>
    rw [hq] at hport
    exact setServer_accepted (Nat.lt_of_le_of_lt (List.length_take_le' ..) hsize) (fun h => hslash (List.mem_of_mem_take h)) hport

lemma parseServer_refused (hport : ¬ PortAccepted (portOf p)) : ∃ url', parseServer url p = .ok (-1, url') := by
  rw [parseServer]
  rw [portOf] at hport
  cases hq : if p.head? = some opening then strchr closing p else none with
  | some q =>
    rw [hq] at hport
    exact setServer_refused hport
  | none =>
    rw [hq] at hport
    exact setServer_refused hport

lemma parseVolume_stays : Stays (parseVolume url s) ↔ VolumeFits s := by
  rw [parseVolume, VolumeFits]
  by_cases hs : s = []
  · rw [if_pos hs, hs]
    exact iff_of_true (stays_ok url) (by decide : ([] : Bytes).length < 33)
  · rw [if_neg hs]
    cases hq : strchr slash s with
    | none => exact stays_copyPart.trans (and_iff_left (stays_ok _))
    | some q =>
      have hlen : (s.take q).length = q := by
        rw [List.length_take, Nat.min_eq_left (Nat.le_of_lt (strchr_lt hq))]
      dsimp only
      rw [stays_copyPart, hlen, stays_copyPart, List.length_cons]
      exact and_congr_right' (and_iff_left (stays_ok _))

section Next
variable {next : AfpUrl → Except Fault (Int × AfpUrl)} {rest : Prop} (hnext : ∀ url, Stays (next url) ↔ rest)
include hnext

lemma copyPart_stays (f : Bytes → AfpUrl) :
    Stays ((copyPart size s >>= fun t => pure (0, f t)) >>= fun r => andThen r next) ↔ s.length < size ∧ rest := by
  rw [bind_assoc, stays_copyPart]
  exact and_congr_right' (hnext _)

lemma parseUser_stays : Stays (parseUser url p >>= fun r => andThen r next) ↔ UserFits p rest := by
  rw [parseUser, UserFits]
  cases hauth : strstr authString p with
  | none => exact copyPart_stays hnext fun username => { url with username := username }
  | some q =>
    show Stays ((copyPart 50 (p.drop (q + 6)) >>= fun uamname =>
      andThen (if checkUamname uamname then -1 else 0, { url with uamname := uamname }) fun url =>
        copyPart 127 (p.take q) >>= fun username => pure (0, { url with username := username })) >>= fun r => andThen r next) ↔ _
    rw [bind_assoc, stays_copyPart, andThen_bind, stays_andThen]
    refine and_congr_right' (imp_congr ?_ (copyPart_stays hnext _))
    cases checkUamname (p.drop (q + 6)) with
    | true => exact iff_of_false (by simp) (by decide)
    | false => exact iff_of_true rfl rfl

lemma parseLogin_stays :
    Stays (parseLoginWith (escapeStrrchr · colon) url p >>= fun r => andThen r next) ↔ LoginFits p rest := by
  rw [parseLoginWith]
  obtain hnone | ⟨u, v, rfl, hv, hu⟩ | ⟨u, v, rfl, hv⟩ := search_cases colon p
  · rw [escapeStrrchr_none hnone]
    refine (parseUser_stays hnext).trans ⟨fun h => ⟨?_, fun _ => h, ?_⟩, fun h => h.alone hnone⟩
    · rintro v rfl
      exact absurd List.mem_cons_self hnone
    · rintro u v rfl
      exact absurd (List.mem_append_right _ List.mem_cons_self) hnone
  · rw [escapeStrrchr_append hu hv]
    have hdrop : (u ++ colon :: v).drop (u.length + 1) = v := List.drop_length_add_append 1
    have htake : (u ++ colon :: v).take u.length = u := List.take_left
    show Stays ((copyPart 127 ((u ++ colon :: v).drop (u.length + 1)) >>= fun password =>
      parseUser { url with password := password } ((u ++ colon :: v).take u.length)) >>= fun r => andThen r next) ↔ _
    rw [bind_assoc, stays_copyPart, hdrop, htake, parseUser_stays hnext]
    constructor
    · intro h
      refine ⟨fun w hw => ?_, fun hno => absurd (List.mem_append_right _ List.mem_cons_self) hno, fun u' v' heq hv' _ => ?_⟩
      · by_contra hno
        have hw : u ++ colon :: v = [colon] ++ colon :: w := hw
        obtain ⟨rfl, -⟩ := last_unique hw hv hno
        exact hu rfl
      · obtain ⟨rfl, rfl⟩ := last_unique heq hv hv'
        exact h
    · exact fun h => h.password u v rfl hv hu
  · cases u with
    | nil =>
      rw [List.nil_append, escapeStrrchr_start hv]
      exact iff_of_false (fun h => nomatch h .overread rfl) fun h => hv (h.start v rfl)
    | cons d u =>
      have hsplit : d :: u ++ colon :: colon :: v = (d :: u ++ [colon]) ++ colon :: v := by
        rw [List.append_assoc]
        rfl
      rw [escapeStrrchr, escapeStrrchrFrom_doubled (List.cons_ne_nil d u) hv _ (Nat.zero_le _)]
      refine iff_of_true (fun fault h => (Except.error.inj h).symm) ⟨fun w hw => ?_, fun hno => ?_, fun u' v' heq hv' hu' => ?_⟩
      · by_contra hno
        have hw : (d :: u ++ [colon]) ++ colon :: v = [colon] ++ colon :: w := hsplit.symm.trans hw
        obtain ⟨heq, -⟩ := last_unique hw hv hno
        exact List.append_ne_nil_of_right_ne_nil u (List.cons_ne_nil colon []) (List.cons.inj heq).2
      · exact absurd (List.mem_append_right _ List.mem_cons_self) hno
      · rw [hsplit] at heq
        obtain ⟨rfl, -⟩ := last_unique heq hv hv'
        exact absurd List.getLast?_concat hu'

end Next

def finish (second : Bytes) (url : AfpUrl) : Except Fault (Int × AfpUrl) := do
  return (0, escapeUrl (← parseVolume url second))

lemma finish_stays (second : Bytes) (url : AfpUrl) : Stays (finish second url) ↔ VolumeFits second := by
  rw [← @parseVolume_stays url second, finish]
  cases parseVolume url second with
  | error fault =>
    constructor
    · exact fun h f hf => h f (congrArg _ (Except.error.inj hf))
    · exact fun h f hf => h f (congrArg _ (Except.error.inj hf))
  | ok url' => exact iff_of_true (stays_ok _) (stays_ok _)

section Split
variable {search : Bytes → Except Fault (Option Nat)} {first second : Bytes} {i : Nat}

lemma splitParts_refused (hport : ¬ PortAccepted (portOf (serverText first))) :
    ∃ url', splitParts search url first second = .ok (-1, url') := by
  obtain ⟨url', hserver⟩ := @parseServer_refused url _ hport
  refine ⟨url', ?_⟩
  rw [splitParts]
  change (parseServer url (serverText first) >>= _) = _
  rw [hserver]
  rfl

lemma splitParts_accepted (hsize : first.length < 255) (hslash : slash ∉ first)
    (hport : PortAccepted (portOf (serverText first))) :
    ∃ url', splitParts search url first second =
      match escapeStrchr atSign first with
      | some i => parseLoginWith search url' (first.take i) >>= fun r => andThen r (finish second)
      | none => finish second url' := by
  have hsub : (serverText first).Sublist first := by
    rw [serverText]
    split
    · exact List.drop_sublist ..
    · exact .refl _
  obtain ⟨url', hserver⟩ :=
    @parseServer_accepted url _ (Nat.lt_of_le_of_lt hsub.length_le hsize) (fun h => hslash (hsub.subset h)) hport
  refine ⟨url', ?_⟩
  rw [splitParts]
  change (parseServer url (serverText first) >>= _) = _
  rw [hserver]
  cases escapeStrchr atSign first with
  | some i => rfl
  | none => rfl

end Split

lemma slash_not_mem_firstPart (p : Bytes) : slash ∉ firstPart p :=
  fun h => of_decide_eq_true (List.all_eq_true.mp List.all_takeWhile slash h) rfl

lemma parseParts_stays : Stays (parseParts url p) ↔ PartsFit p := by
  rw [parseParts_eq]
  split
  case isTrue hnil => exact iff_of_false (fun h => nomatch h .uninitialised rfl) fun h => h.nonempty hnil
  case isFalse hne =>
    split
    case isTrue hlong =>
      refine iff_of_false (fun h => nomatch h .copyOverflow rfl) fun h => ?_
      have := h.first
      have := h.second
      omega
    case isFalse hshort =>
      rw [not_or, Nat.not_le, Nat.not_le] at hshort
      by_cases hport : PortAccepted (portOf (serverText (firstPart p)))
      case neg =>
        obtain ⟨url', hrun⟩ := @splitParts_refused url (escapeStrrchr · colon) _ (secondPart p) hport
        rw [hrun]
        exact iff_of_true (stays_ok _) ⟨hne, hshort.1, hshort.2, fun h => absurd h hport, fun h => absurd h hport⟩
      case pos =>
        obtain ⟨url', hrun⟩ :=
          @splitParts_accepted url (escapeStrrchr · colon) _ (secondPart p) hshort.1 (slash_not_mem_firstPart p) hport
        rw [hrun]
        cases hat : escapeStrchr atSign (firstPart p) with
        | some i =>
          dsimp only
          rw [parseLogin_stays (finish_stays _)]
          refine ⟨fun h => ⟨hne, hshort.1, hshort.2, fun _ j hj => ?_, fun _ hno => nomatch hat.symm.trans hno⟩,
            fun h => h.login hport i hat⟩
          cases hat.symm.trans hj
          exact h
        | none =>
          dsimp only
          rw [finish_stays]
          exact ⟨fun h => ⟨hne, hshort.1, hshort.2, fun _ _ hat' => (nomatch hat.symm.trans hat'), fun _ _ => h⟩,
            fun h => h.volume hport hat⟩

end Parts

/-- The parser stays in its arrays if and only if `://` has three letters in front of it, if it is there, and, if these are
`afp`, the parts fit. -/
theorem url_bounds_iff (url : AfpUrl) (toparse : Bytes) :
    Stays (afpParseUrl url toparse) ↔ ∀ p, strstr schemeEnd toparse = some p →
      3 ≤ p ∧ (slice toparse (p - 3) 3 = afpScheme → PartsFit (toparse.drop (p + 3))) := by
  rw [afpParseUrl]
  cases hscheme : strstr schemeEnd toparse with
  | none => exact iff_of_true (stays_ok _) fun p h => by cases h
  | some p =>
    simp only [Option.some.injEq, forall_eq']
    split
    case isTrue hlt => exact iff_of_false (fun h => Fault.noConfusion (h .overread rfl)) fun h => Nat.not_lt.mpr h.1 hlt
    case isFalse hle =>
      rw [and_iff_right (Nat.not_lt.mp hle)]
      split
      case isTrue hne => exact iff_of_true (stays_ok _) fun h => absurd h hne
      case isFalse heq => rw [forall_prop_of_true (not_not.mp heq), parseParts_stays]

/-- `://h`, `afp:///v`, `afp://::p@h/v`, a method of 50 letters, and a volume of 33 letters. -/
theorem url_bounds_left :
    afpParseUrl afpDefaultUrl [58, 47, 47, 104] = .error .overread ∧
      afpParseUrl afpDefaultUrl (afpScheme ++ schemeEnd ++ [47, 118]) = .error .uninitialised ∧
      afpParseUrl afpDefaultUrl (afpScheme ++ schemeEnd ++ [58, 58, 112, 64, 104, 47, 118]) = .error .overread ∧
      afpParseUrl afpDefaultUrl (afpScheme ++ schemeEnd ++ authString ++ List.replicate 50 97 ++ [64, 104]) =
        .error .copyOverflow ∧
      afpParseUrl afpDefaultUrl (afpScheme ++ schemeEnd ++ [104, 47] ++ List.replicate 33 118) = .error .copyOverflow := by
  refine ⟨rfl, rfl, rfl, rfl, rfl⟩

end AfpfsNg.Url
