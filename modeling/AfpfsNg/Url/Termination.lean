import AfpfsNg.Base.Arrays
import AfpfsNg.Url.Bounds

/-!
# Where the parser of URLs goes on for ever

The two searches of `lib/afp_url.c` that skip separators written twice call themselves again: `escape_strchr` two bytes further
on, but `escape_strrchr` two bytes in front of the last separator, where it finds the same separator again. The parser also
reads memory that it has not written to (see `Url.Bounds`), which is given by `Surroundings` here.
-/

namespace AfpfsNg.Url
open AfpfsNg.Base AfpfsNg.Afp AfpfsNg.Uam

/-- C `escape_strchr`. -/
def escapeStrchrFrom (c : UInt8) : Nat → Bytes → Except Fault (Option Nat)
  | 0, _ => .error .outOfFuel
  | fuel + 1, haystack =>
    match strchr c haystack with
    | none => .ok none
    | some p =>
      if haystack[p + 1]? ≠ some c then .ok (some p)
      else (escapeStrchrFrom c fuel (haystack.drop (p + 2))).map (Option.map (· + (p + 2)))

/-- C `escape_strrchr` at the offset `haystack` of the memory `mem`. The string ends at the next NUL. -/
def escapeStrrchrAt (c : UInt8) (mem : Bytes) : Nat → Nat → Except Fault (Option Nat)
  | 0, _ => .error .outOfFuel
  | fuel + 1, haystack =>
    match strrchr c (cString (mem.drop haystack)) with
    | none => .ok none
    | some 0 => .ok (some haystack)
    | some (i + 1) =>
      if mem[haystack + i]? ≠ some c then .ok (some (haystack + i + 1))
      else if haystack + i + 1 < 2 then .error .overread
      else escapeStrrchrAt c mem fuel (haystack + i + 1 - 2)

/-- C `escape_strrchr` in a string with the byte `front` in front of it. -/
def escapeStrrchrIn (front c : UInt8) (fuel : Nat) (s : Bytes) : Except Fault (Option Nat) :=
  (escapeStrrchrAt c (front :: s) fuel 1).map (Option.map (· - 1))

section Search
variable {c front : UInt8} {s : Bytes}

lemma escapeStrrchrAt_eq {mem : Bytes} (hmem : 0 ∉ mem) (fuel haystack : Nat) :
    escapeStrrchrAt c mem fuel haystack = escapeStrrchrFrom c mem fuel haystack := by
  induction fuel generalizing haystack with
  | zero => rfl
  | succ fuel ih =>
    rw [escapeStrrchrAt, escapeStrrchrFrom, cString_of_not_mem fun h => hmem (List.mem_of_mem_drop h)]
    cases strrchr c (mem.drop haystack) with
    | none => rfl
    | some i =>
      cases i with
      | zero => rfl
      | succ i =>
        dsimp only
        rw [ih]

lemma escapeStrrchrIn_doubled (hs : 0 ∉ s) (hfront : front ≠ 0) (h : LastDoubled c s) (fuel : Nat) :
    escapeStrrchrIn front c fuel s = .error .outOfFuel := by
  obtain ⟨u, v, rfl, hv⟩ := h
  have hmem : 0 ∉ front :: (u ++ c :: c :: v) := by
    rw [List.mem_cons, not_or]
    exact ⟨hfront.symm, hs⟩
  have hloop : escapeStrrchrFrom c (front :: u ++ c :: c :: v) fuel 1 = .error .outOfFuel :=
    escapeStrrchrFrom_doubled (List.cons_ne_nil front u) hv fuel (Nat.succ_le_succ (Nat.zero_le _))
  rw [escapeStrrchrIn, escapeStrrchrAt_eq hmem]
  show Except.map _ (escapeStrrchrFrom c (front :: u ++ c :: c :: v) fuel 1) = _
  rw [hloop]
  rfl

lemma escapeStrrchrIn_eq (hs : 0 ∉ s) (h : ¬ LastDoubled c s) (fuel : Nat) :
    escapeStrrchrIn front c (fuel + 1) s = escapeStrrchr s c := by
  have hstring : cString ((front :: s).drop 1) = s := cString_of_not_mem hs
  rw [escapeStrrchrIn, escapeStrrchrAt, hstring]
  obtain hnone | ⟨u, v, rfl, hv, hu⟩ | hdouble := search_cases c s
  · rw [strrchr_none hnone, escapeStrrchr_none hnone]
    rfl
  · rw [strrchr_append hv, escapeStrrchr_append hu hv]
    cases hlen : u.length with
    | zero => rfl
    | succ n =>
      have hbefore : (front :: (u ++ c :: v))[1 + n]? ≠ some c := by
        rw [Nat.add_comm, List.getElem?_cons_succ, List.getElem?_append_left (by omega)]
        rwa [List.getLast?_eq_getElem?, hlen, Nat.add_sub_cancel] at hu
      dsimp only
      rw [if_pos hbefore]
      show Except.ok (some (1 + n + 1 - 1)) = _
      rw [Nat.add_sub_cancel, Nat.add_comm]
  · exact absurd hdouble h

lemma escapeStrchrFrom_eq (c : UInt8) {s : Bytes} {fuel : Nat} (hfuel : s.length < fuel) :
    escapeStrchrFrom c fuel s = .ok (escapeStrchr c s) := by
  induction fuel generalizing s with
  | zero => cases hfuel
  | succ fuel ih =>
    rw [escapeStrchrFrom]
    by_cases hmem : c ∈ s
    case neg => rw [strchr_none hmem, escapeStrchr_none hmem]
    case pos =>
      obtain ⟨u, v, rfl, hu⟩ := List.eq_append_cons_of_mem hmem
      have hbehind : (u ++ c :: v)[u.length + 1]? = v.head? := by
        rw [List.getElem?_append_right (Nat.le_add_right _ 1), Nat.add_sub_cancel_left, List.getElem?_cons_succ,
          List.head?_eq_getElem?]
      rw [strchr_append hu, escapeStrchr_append hu]
      dsimp only
      rw [hbehind]
      by_cases hv : v.head? = some c
      case neg => rw [if_pos hv, escapeStrchr_single hv, Option.map_some, Nat.zero_add]
      case pos =>
        obtain ⟨w, rfl⟩ : ∃ w, v = c :: w := List.head?_eq_some_iff.mp hv
        have hdrop : (u ++ c :: c :: w).drop (u.length + 2) = w := List.drop_length_add_append 2
        have hw : w.length < fuel := by
          rw [List.length_append, List.length_cons, List.length_cons] at hfuel
          omega
        rw [if_neg (not_not.mpr hv), hdrop, ih hw, escapeStrchr, if_pos rfl, if_pos rfl, Option.map_map]
        show Except.ok (Option.map (· + (u.length + 2)) (escapeStrchr c w)) = _
        refine congrArg Except.ok (congrArg (Option.map · (escapeStrchr c w)) (funext fun i => ?_))
        show i + (u.length + 2) = i + 2 + u.length
        omega

end Search

/-- The memory that the parser reads without having written to it. -/
structure Surroundings where
  /-- in front of the URL -/
  before : Bytes
  before_length : before.length = 3
  /-- in front of `firstpart` -/
  front : UInt8
  /-- the string that `firstpart` holds at first -/
  firstpart : Bytes

/-- What is behind `afp://`. If the first part is empty, `sscanf` writes nothing. -/
def parsePartsIn (m : Surroundings) (fuel : Nat) (url : AfpUrl) (p : Bytes) : Except Fault (Int × AfpUrl) :=
  if 255 ≤ (firstPart p).length ∨ 2048 ≤ (secondPart p).length then .error .copyOverflow
  else if firstPart p = [] then splitParts (escapeStrrchrIn m.front colon fuel) url m.firstpart []
  else splitParts (escapeStrrchrIn m.front colon fuel) url (firstPart p) (secondPart p)

/-- C `afp_parse_url`. -/
def afpParseUrlIn (m : Surroundings) (fuel : Nat) (url : AfpUrl) (toparse : Bytes) : Except Fault (Int × AfpUrl) :=
  let url := { url with
    username := [], servername := [], uamname := [], password := [], volumename := [], path := [] }
  match strstr schemeEnd toparse with
  | none => .ok (-1, url)
  | some p =>
    if slice (m.before ++ toparse) p 3 ≠ afpScheme then .ok (-1, url)
    else parsePartsIn m fuel url (toparse.drop (p + 3))

/-- The text in front of `://` can be read as ending in `afp`, with the right bytes in front of it. -/
def ReadsAfp (t : Bytes) : Prop := afpScheme <:+ t ∨ t <:+ afpScheme

/-- The search for the last `:` is reached, and it is written twice. -/
def LoginDoubled (first : Bytes) : Prop :=
  PortAccepted (portOf (serverText first)) ∧ ∃ i, escapeStrchr atSign first = some i ∧ LastDoubled colon (first.take i)

def Ends (m : Surroundings) (url : AfpUrl) (toparse : Bytes) : Prop :=
  ∃ fuel, afpParseUrlIn m fuel url toparse ≠ .error .outOfFuel

section Scheme
variable {toparse before : Bytes} {p : Nat}

lemma slice_before (hbefore : before.length = 3) (hp : p ≤ toparse.length) :
    slice (before ++ toparse) p 3 = afpScheme ↔ afpScheme <:+ before ++ toparse.take p := by
  have hlen : (before ++ toparse.take p).length = 3 + p := by
    rw [List.length_append, List.length_take, Nat.min_eq_left hp, hbefore]
  have hthree : afpScheme.length = 3 := rfl
  have hsplit : before ++ toparse = (before ++ toparse.take p) ++ toparse.drop p := by
    rw [List.append_assoc, List.take_append_drop]
  have hslice : slice (before ++ toparse) p 3 = (before ++ toparse.take p).drop p := by
    rw [slice, hsplit, List.drop_append_of_le_length (by omega), List.take_left']
    rw [List.length_drop, hlen, Nat.add_sub_cancel]
  rw [hslice, List.suffix_iff_eq_drop, hlen, hthree, Nat.add_sub_cancel_left]
  exact eq_comm

lemma readsAfp_iff (hp : p ≤ toparse.length) :
    ReadsAfp (toparse.take p) ↔ ∃ before, before.length = 3 ∧ slice (before ++ toparse) p 3 = afpScheme := by
  constructor
  · rintro (hsuffix | ⟨w, hw⟩)
    · refine ⟨[0, 0, 0], rfl, (slice_before rfl hp).mpr ?_⟩
      exact hsuffix.trans (List.suffix_append ..)
    · have hlen := congrArg List.length hw
      rw [List.length_append, List.length_take, Nat.min_eq_left hp] at hlen
      have hthree : (List.replicate p 0 ++ w).length = 3 := by
        rw [List.length_append, List.length_replicate, Nat.add_comm, hlen]
        rfl
      refine ⟨List.replicate p 0 ++ w, hthree, (slice_before hthree hp).mpr ?_⟩
      rw [List.append_assoc, hw]
      exact List.suffix_append ..
  · rintro ⟨before, hbefore, hslice⟩
    have hsuffix := (slice_before hbefore hp).mp hslice
    exact List.suffix_or_suffix_of_suffix hsuffix (List.suffix_append ..)

end Scheme

section Parts
variable {α β : Type} {url : AfpUrl} {p first second : Bytes} {search : Bytes → Except Fault (Option Nat)}

def Bounded (x : Except Fault α) : Prop := x ≠ .error .outOfFuel

lemma Bounded.bind {x : Except Fault α} {f : α → Except Fault β} (hx : Bounded x) (hf : ∀ a, Bounded (f a)) :
    Bounded (x >>= f) := by
  cases x with
  | error fault => exact fun h => hx (congrArg _ (Except.error.inj h))
  | ok a => exact hf a

lemma bounded_ok (a : α) : Bounded (.ok a : Except Fault α) := fun h => by cases h

lemma bounded_copyPart {size : Nat} {s : Bytes} : Bounded (copyPart size s) := by
  rw [copyPart]
  split
  · exact bounded_ok s
  · intro h
    cases h

lemma bounded_andThen {r : Int × AfpUrl} {next : AfpUrl → Except Fault (Int × AfpUrl)} (h : ∀ url, Bounded (next url)) :
    Bounded (andThen r next) := by
  rw [andThen]
  split
  · exact bounded_ok r
  · exact h r.2

lemma bounded_parseUser : Bounded (parseUser url p) := by
  rw [parseUser]
  cases strstr authString p with
  | none => exact .bind (bounded_ok _) fun x => bounded_andThen fun url => .bind bounded_copyPart fun _ => bounded_ok _
  | some q =>
    refine .bind bounded_copyPart fun uamname => .bind (bounded_ok _) fun x => ?_
    exact bounded_andThen fun url => .bind bounded_copyPart fun _ => bounded_ok _

lemma bounded_finish : Bounded (finish second url) := by
  refine .bind ?_ fun _ => bounded_ok _
  rw [parseVolume]
  split
  · exact bounded_ok _
  · cases strchr slash second with
    | none => exact .bind bounded_copyPart fun _ => bounded_ok _
    | some q => exact .bind bounded_copyPart fun _ => .bind bounded_copyPart fun _ => bounded_ok _

lemma bounded_login (hsearch : Bounded (search p)) :
    Bounded (parseLoginWith search url p >>= fun r => andThen r (finish second)) := by
  refine .bind (.bind hsearch fun found => ?_) fun r => bounded_andThen fun _ => bounded_finish
  cases found with
  | none => exact bounded_parseUser
  | some q => exact .bind bounded_copyPart fun _ => bounded_parseUser

lemma splitParts_endless (hsize : first.length < 255) (hslash : slash ∉ first) (h : LoginDoubled first)
    (hsearch : ∀ s, LastDoubled colon s → s ⊆ first → search s = .error .outOfFuel) :
    splitParts search url first second = .error .outOfFuel := by
  obtain ⟨hport, i, hat, hdouble⟩ := h
  obtain ⟨url', hrun⟩ := @splitParts_accepted url search first second hsize hslash hport
  rw [hrun, hat]
  dsimp only
  rw [parseLoginWith, hsearch _ hdouble (List.take_subset ..)]
  rfl

lemma splitParts_bounded (hsize : first.length < 255) (hslash : slash ∉ first) (h : ¬ LoginDoubled first)
    (hsearch : ∀ s, ¬ LastDoubled colon s → s ⊆ first → Bounded (search s)) : Bounded (splitParts search url first second) := by
  by_cases hport : PortAccepted (portOf (serverText first))
  case neg =>
    obtain ⟨url', hrun⟩ := @splitParts_refused url search first second hport
    rw [hrun]
    exact bounded_ok _
  case pos =>
    obtain ⟨url', hrun⟩ := @splitParts_accepted url search first second hsize hslash hport
    rw [hrun]
    cases hat : escapeStrchr atSign first with
    | none => exact bounded_finish
    | some i => exact bounded_login (hsearch _ (fun hdouble => h ⟨hport, i, hat, hdouble⟩) (List.take_subset ..))

end Parts

section Reach
variable {toparse : Bytes} {p : Nat}

lemma strstr_le (hp : strstr schemeEnd toparse = some p) : p ≤ toparse.length := by
  obtain ⟨u, v, rfl, rfl⟩ := strstr_eq_some hp
  exact List.length_append ▸ Nat.le_add_right ..

lemma parts_short {t : Bytes} (hfirst : (firstPart t).length < 255)
    (hsecond : (t.drop ((firstPart t).length + 1)).length < 2048) :
    ¬ (255 ≤ (firstPart t).length ∨ 2048 ≤ (secondPart t).length) := by
  have hle : (secondPart t).length ≤ (t.drop ((firstPart t).length + 1)).length := (List.takeWhile_sublist _).length_le
  omega

lemma nul_not_mem_firstPart (hstring : 0 ∉ toparse) (n : Nat) : 0 ∉ firstPart (toparse.drop n) :=
  fun h => hstring (List.mem_of_mem_drop ((List.takeWhile_sublist _).subset h))

lemma afpParseUrlIn_reached {m : Surroundings} {fuel : Nat} {url : AfpUrl} (hp : strstr schemeEnd toparse = some p)
    (hslice : slice (m.before ++ toparse) p 3 = afpScheme) :
    ∃ url', afpParseUrlIn m fuel url toparse = parsePartsIn m fuel url' (toparse.drop (p + 3)) := by
  rw [afpParseUrlIn, hp]
  exact ⟨_, if_neg (not_not.mpr hslice)⟩

end Reach

lemma splitParts_congr {search search' : Bytes → Except Fault (Option Nat)} {url : AfpUrl} {first second : Bytes}
    {r : Int × AfpUrl} (h : splitParts search url first second = .ok r)
    (hsearch : ∀ i found, search (first.take i) = .ok found → search' (first.take i) = .ok found) :
    splitParts search' url first second = .ok r := by
  rw [splitParts] at h ⊢
  cases hat : escapeStrchr atSign first with
  | none =>
    rw [hat] at h
    exact h
  | some i =>
    rw [hat] at h
    obtain ⟨x, hserver, h⟩ := bind_eq_ok h
    dsimp only at hserver ⊢
    rw [hserver]
    show andThen x (fun url => parseLoginWith search' url (first.take i) >>= fun r => andThen r (finish second)) = _
    rw [andThen] at h ⊢
    split at h
    case isTrue hgiven =>
      rw [if_pos hgiven]
      exact h
    case isFalse hgiven =>
      rw [if_neg hgiven]
      obtain ⟨y, hlogin, h⟩ := bind_eq_ok h
      obtain ⟨found, hfound, hlogin⟩ := bind_eq_ok hlogin
      have hlogin' : parseLoginWith search' x.2 (first.take i) = .ok y := by
        rw [parseLoginWith, hsearch i found hfound]
        exact hlogin
      rw [hlogin']
      exact h

/-- Where the parser of `Url.Parse` has a result, this one has the same, whatever is in the memory around. -/
lemma afpParseUrlIn_ok {m : Surroundings} {fuel : Nat} {url : AfpUrl} {toparse : Bytes} {r : Int × AfpUrl} (hstring : 0 ∉ toparse)
    (h : afpParseUrl url toparse = .ok r) : afpParseUrlIn m (fuel + 1) url toparse = .ok r := by
  rw [afpParseUrl] at h
  rw [afpParseUrlIn]
  cases hp : strstr schemeEnd toparse with
  | none =>
    rw [hp] at h
    exact h
  | some p =>
    rw [hp] at h
    dsimp only at h ⊢
    split at h
    case isTrue => cases h
    case isFalse hthree =>
      have hslice : slice (m.before ++ toparse) p 3 = slice toparse (p - 3) 3 := by
        have hle : m.before.length ≤ p := by
          rw [m.before_length]
          omega
        rw [slice, slice, List.drop_append, List.drop_eq_nil_of_le hle, List.nil_append, m.before_length]
      rw [hslice]
      split at h
      case isTrue hother =>
        rw [if_pos hother]
        exact h
      case isFalse hafp =>
        rw [if_neg hafp, parsePartsIn]
        rw [parseParts_eq] at h
        split at h
        case isTrue => cases h
        case isFalse hne =>
          split at h
          case isTrue => cases h
          case isFalse hshort =>
            rw [if_neg hshort, if_neg hne]
            refine splitParts_congr h fun i found hfound => ?_
            have hnul : 0 ∉ (firstPart (toparse.drop (p + 3))).take i :=
              fun h0 => nul_not_mem_firstPart hstring _ (List.mem_of_mem_take h0)
            rw [escapeStrrchrIn_eq hnul (escapeStrrchr_ok_iff.mp ⟨found, hfound⟩), hfound]

def garbage : Bytes := [97, 58, 58, 64, 104]

lemma garbage_doubled : LoginDoubled garbage := by
  have hport : portOf (serverText garbage) = none := rfl
  refine ⟨?_, 3, rfl, [97], [], rfl, List.not_mem_nil⟩
  rw [hport]
  exact nofun

section PartsIn
variable {m : Surroundings} {url : AfpUrl} {t : Bytes} (hsize : (firstPart t).length < 255)
  (hrest : (t.drop ((firstPart t).length + 1)).length < 2048) (hnul : 0 ∉ firstPart t)
include hsize hrest hnul

lemma parsePartsIn_endless (hfront : m.front ≠ 0) (hgarbage : m.firstpart = garbage)
    (h : firstPart t = [] ∨ LoginDoubled (firstPart t)) (fuel : Nat) : parsePartsIn m fuel url t = .error .outOfFuel := by
  rw [parsePartsIn, if_neg (parts_short hsize hrest)]
  by_cases hnil : firstPart t = []
  · rw [if_pos hnil, hgarbage]
    refine splitParts_endless (by decide) (by decide) garbage_doubled fun s hdouble hsub => ?_
    exact escapeStrrchrIn_doubled (fun h0 => absurd (hsub h0) (by decide)) hfront hdouble fuel
  · rw [if_neg hnil]
    refine splitParts_endless hsize (slash_not_mem_firstPart t) (h.resolve_left hnil) fun s hdouble hsub => ?_
    exact escapeStrrchrIn_doubled (fun h0 => hnul (hsub h0)) hfront hdouble fuel

lemma parsePartsIn_bounded (hne : firstPart t ≠ []) (h : ¬ LoginDoubled (firstPart t)) (fuel : Nat) :
    Bounded (parsePartsIn m (fuel + 1) url t) := by
  rw [parsePartsIn, if_neg (parts_short hsize hrest), if_neg hne]
  refine splitParts_bounded hsize (slash_not_mem_firstPart t) h fun s hsingle hsub => ?_
  obtain ⟨found, hfound⟩ := escapeStrrchr_ok_iff.mpr hsingle
  rw [escapeStrrchrIn_eq (fun h0 => hnul (hsub h0)) hsingle, hfound]
  exact nofun

end PartsIn

/-- For strings within the limits: the parser ends, whatever is in the memory around, if and only if there is no `afp://` or
the last `:` of the login part is not written twice. The search from the left ends for every string, the one from the right
if the last separator is not written twice. -/
theorem url_parsing_ends_iff (url : AfpUrl) {toparse : Bytes} (hstring : 0 ∉ toparse)
    (hfirst : ∀ p, strstr schemeEnd toparse = some p → (firstPart (toparse.drop (p + 3))).length < 255)
    (hsecond : ∀ p, strstr schemeEnd toparse = some p →
      ((toparse.drop (p + 3)).drop ((firstPart (toparse.drop (p + 3))).length + 1)).length < 2048) :
    ((∀ m, Ends m url toparse) ↔ ∀ p, strstr schemeEnd toparse = some p → ReadsAfp (toparse.take p) →
      firstPart (toparse.drop (p + 3)) ≠ [] ∧ ¬ LoginDoubled (firstPart (toparse.drop (p + 3)))) ∧
    (∀ c s, c ≠ 0 → ∃ fuel, escapeStrchrFrom c fuel s = .ok (escapeStrchr c s)) ∧
    ∀ c s, c ≠ 0 → 0 ∉ s → ((∀ front, ∃ fuel r, escapeStrrchrIn front c fuel s = .ok r) ↔ ¬ LastDoubled c s) := by
  refine ⟨?_, fun c s _ => ⟨s.length + 1, escapeStrchrFrom_eq c (Nat.lt_succ_self _)⟩, fun c s _ hs => ⟨fun h hdouble => ?_, ?_⟩⟩
  · constructor
    · intro h p hp hreads
      obtain ⟨before, hbefore, hslice⟩ := (readsAfp_iff (strstr_le hp)).mp hreads
      obtain ⟨fuel, hend⟩ := h ⟨before, hbefore, 1, garbage⟩
      obtain ⟨url', hrun⟩ := @afpParseUrlIn_reached toparse p ⟨before, hbefore, 1, garbage⟩ fuel url hp hslice
      rw [hrun] at hend
      by_contra hnot
      rw [← not_or, not_not] at hnot
      have hone : (1 : UInt8) ≠ 0 := by decide
      exact hend (parsePartsIn_endless (hfirst p hp) (hsecond p hp) (nul_not_mem_firstPart hstring _) hone rfl hnot fuel)
    · intro h m
      refine ⟨1, ?_⟩
      rw [afpParseUrlIn]
      cases hp : strstr schemeEnd toparse with
      | none => exact nofun
      | some p =>
        dsimp only
        split
        case isTrue => exact nofun
        case isFalse hslice =>
          have hreads := (readsAfp_iff (strstr_le hp)).mpr ⟨m.before, m.before_length, not_not.mp hslice⟩
          obtain ⟨hne, hsingle⟩ := h p hp hreads
          exact parsePartsIn_bounded (hfirst p hp) (hsecond p hp) (nul_not_mem_firstPart hstring _) hne hsingle 0
  · obtain ⟨fuel, r, hr⟩ := h 1
    rw [escapeStrrchrIn_doubled hs (by decide) hdouble] at hr
    cases hr
  · intro h front
    obtain ⟨found, hfound⟩ := escapeStrrchr_ok_iff.mpr h
    exact ⟨1, found, (escapeStrrchrIn_eq hs h 0).trans hfound⟩

def joeUrl : Bytes := afpScheme ++ schemeEnd ++ [106, 111, 101, 58, 120, 64, 104]

theorem url_parsing_ends_joe : 0 ∉ joeUrl ∧ ∀ m, Ends m afpDefaultUrl joeUrl := by
  have hthree {p : Nat} (hp : strstr schemeEnd joeUrl = some p) : p = 3 := (Option.some.inj hp).symm
  have hfirst : ∀ p, strstr schemeEnd joeUrl = some p → (firstPart (joeUrl.drop (p + 3))).length < 255 := by
    intro p hp
    cases hthree hp
    decide
  have hsecond : ∀ p, strstr schemeEnd joeUrl = some p →
      ((joeUrl.drop (p + 3)).drop ((firstPart (joeUrl.drop (p + 3))).length + 1)).length < 2048 := by
    intro p hp
    cases hthree hp
    decide
  refine ⟨by decide, (url_parsing_ends_iff afpDefaultUrl (by decide) hfirst hsecond).1.mpr fun p hp _ => ?_⟩
  cases hthree hp
  refine ⟨by decide, fun ⟨_, i, hi, hdouble⟩ => ?_⟩
  cases hi
  exact escapeStrrchr_ok_iff.mp ⟨some 3, rfl⟩ hdouble

/-- `afp://u::n@h`, with a byte that is not NUL in front of the array: the parser does not end, and neither does the search
for the last `:` of `u::n`. -/
theorem url_parsing_endless :
    ¬ Ends ⟨[0, 0, 0], rfl, 1, garbage⟩ afpDefaultUrl (afpScheme ++ schemeEnd ++ [117, 58, 58, 110, 64, 104]) ∧
      ¬ ∃ fuel found, escapeStrrchrIn 1 colon fuel [117, 58, 58, 110] = .ok found := by
  have hdouble : LastDoubled colon [117, 58, 58, 110] := ⟨[117], [110], rfl, by decide⟩
  have hsearch (fuel : Nat) : escapeStrrchrIn 1 colon fuel [117, 58, 58, 110] = .error .outOfFuel :=
    escapeStrrchrIn_doubled (by decide) (by decide) hdouble fuel
  refine ⟨fun ⟨fuel, hend⟩ => hend ?_, fun ⟨fuel, found, hfound⟩ => nomatch (hsearch fuel).symm.trans hfound⟩
  have hfirst : LoginDoubled [117, 58, 58, 110, 64, 104] := ⟨nofun, 4, rfl, hdouble⟩
  have hlogin : LoginDoubled (firstPart ((afpScheme ++ schemeEnd ++ [117, 58, 58, 110, 64, 104]).drop 6)) := hfirst
  have hscheme : strstr schemeEnd (afpScheme ++ schemeEnd ++ [117, 58, 58, 110, 64, 104]) = some 3 := rfl
  obtain ⟨url', hrun⟩ := @afpParseUrlIn_reached _ 3 ⟨[0, 0, 0], rfl, 1, garbage⟩ fuel afpDefaultUrl hscheme rfl
  rw [hrun]
  exact parsePartsIn_endless (by decide) (by decide) (by decide) (by decide) rfl (.inr hlogin) fuel

end AfpfsNg.Url
