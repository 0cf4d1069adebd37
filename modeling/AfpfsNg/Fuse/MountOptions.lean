import AfpfsNg.Url.Parse

/-!
# The options of mount_afp

`handle_mount_afp` (`fuse/client.c`) builds the request that the client sends to the daemon. Behind `-o` there is a list of
options with commas between them. Its loop copies each option to an array of its own, but of the volume password it keeps a
pointer into the list. `p`, the place in the list, is the part of the list from there on. A `NULL` argument, and an option
that does not fit the array `command`, have no result.
-/

namespace AfpfsNg.Fuse
open AfpfsNg.Base AfpfsNg.Afp AfpfsNg.Url

/-- `','` -/
def comma : UInt8 := 44

/-- `'-'` -/
def dash : UInt8 := 45

/-- `"-o"` -/
def dashO : Bytes := [45, 111]

/-- `"volpass="` -/
def volpassWord : Bytes := [118, 111, 108, 112, 97, 115, 115, 61]

/-- `"user="` -/
def userWord : Bytes := [117, 115, 101, 114, 61]

/-- `"group="` -/
def groupWord : Bytes := [103, 114, 111, 117, 112, 61]

/-- `"rw"` -/
def rwWord : Bytes := [114, 119]

/-- `"ro"` -/
def roWord : Bytes := [114, 111]

inductive Prompt where
  | afpPassword
  | volumePassword

structure System where
  geteuid : Nat
  getpwnam : Bytes → Option Nat
  getgrnam : Bytes → Option Nat
  getpass : Prompt → Option Bytes
  /-- `HAVE_LIBGCRYPT` -/
  libgcrypt : Bool

structure Statics where
  uid : Nat
  gid : Nat
  changeuid : Bool
  changegid : Bool

/-- With the variables that the options set; `volpass` is the string that the pointer points to. -/
structure Settings extends Statics where
  volpass : Option Bytes
  readonly : Bool

/-- C `struct afp_server_mount_request`. -/
structure MountRequest where
  url : AfpUrl
  volpassword : Bytes
  uamMask : Nat
  mountpoint : Bytes
  volumeOptions : Nat
  map : Nat
  changeuid : Bool

def defaultMountFlags : Nat := 0x4 ||| 0x10 ||| 0x20

def volumeExtraFlagsReadonly : Nat := 0x40

def afpMappingUnknown : Nat := 0

def defaultUamsMask (libgcrypt : Bool) : Nat :=
  if libgcrypt then 0x2 ||| (0x4 ||| 0x8) ||| (0x10 ||| 0x40) else 0x2

/-- What an option does; `p` is its place in the list. There is no result when it names somebody unknown. -/
def setOption (sys : System) (command p : Bytes) (s : Settings) : Option Settings :=
  if volpassWord <+: command then some { s with volpass := some (p.drop 8) }
  else if userWord <+: command then
    (sys.getpwnam (command.drop 5)).map fun uid =>
      { s with uid := uid, changeuid := s.changeuid || sys.geteuid != uid }
  else if groupWord <+: command then
    (sys.getgrnam (command.drop 6)).map fun gid => { s with gid := gid, changegid := true }
  else if command = rwWord then some s
  else if command = roWord then some { s with readonly := true }
  else some s

/-- The loop over the options. It ends early, with `none`, when one of them names somebody unknown. -/
def optionLoop (sys : System) (p : Bytes) (s : Settings) : Except Fault (Option Settings) :=
  match _h : strchr comma p with
  | some q =>
    -- with 256 bytes there is no terminator
    if 256 ≤ q then .error .copyOverflow
    else match setOption sys (p.take q) p s with
      | none => .ok none
      | some s => optionLoop sys (p.drop (q + 1)) s
  | none => if 256 ≤ p.length then .error .copyOverflow else .ok (setOption sys p p s)
termination_by p.length
decreasing_by
  have := strchr_lt _h
  rw [List.length_drop]
  omega

def mountRequest (sys : System) (s : Settings) (urlstring mountpoint : Bytes) :
    Except Fault (Option (Statics × MountRequest)) := do
  let (ret, url) ← afpParseUrl afpDefaultUrl urlstring
  if ret ≠ 0 then return none
  else
    let password := if url.password = [dash] then (sys.getpass .afpPassword).elim url.password (·.take 126)
      else url.password
    let volpass := if s.volpass = some [dash] then sys.getpass .volumePassword else s.volpass
    return some (s.toStatics, {
      url := { url with password := password }
      volpassword := volpass.elim [] (·.take 8)
      uamMask := defaultUamsMask sys.libgcrypt
      mountpoint := mountpoint.take 254
      volumeOptions := if s.readonly then defaultMountFlags ||| volumeExtraFlagsReadonly else defaultMountFlags
      map := afpMappingUnknown
      changeuid := s.changeuid })

/-- An argument, which is `NULL` behind the last one. -/
def argument (argv : List Bytes) (i : Nat) : Except Fault Bytes :=
  match argv[i]? with
  | some a => .ok a
  | none => .error .nullPointer

/-- C `handle_mount_afp`, with `none` for -1; the client ends then. -/
def handleMountAfp (sys : System) (statics : Statics) (argv : List Bytes) :
    Except Fault (Option (Statics × MountRequest)) := do
  let s : Settings := { statics with volpass := none, readonly := false }
  if argv.length < 2 then return none
  else if dashO <+: (← argument argv 1) then
    match ← optionLoop sys (← argument argv 2) s with
    | none => return none
    | some s => mountRequest sys s (← argument argv 3) (← argument argv 4)
  else mountRequest sys s (← argument argv 1) (← argument argv 2)

inductive MountOption where
  | volpass (V : Bytes)
  | user (U : Bytes)
  | group (G : Bytes)
  | rw
  | ro
  deriving DecidableEq

namespace MountOption

def text : MountOption → Bytes
  | volpass V => volpassWord ++ V
  | user U => userWord ++ U
  | group G => groupWord ++ G
  | rw => rwWord
  | ro => roWord

def password? : MountOption → Option Bytes
  | volpass V => some V
  | _ => none

def user? : MountOption → Option Bytes
  | user U => some U
  | _ => none

def group? : MountOption → Option Bytes
  | group G => some G
  | _ => none

/-- Users and groups are known to the system, and passwords are not asked for. -/
def Known (sys : System) : MountOption → Prop
  | volpass V => V ≠ [dash]
  | user U => (sys.getpwnam U).isSome
  | group G => (sys.getgrnam G).isSome
  | _ => True

/-- An option that can be part of a list. -/
structure Valid (sys : System) (o : MountOption) : Prop where
  string : 0 ∉ o.text
  comma : comma ∉ o.text
  short : o.text.length < 256
  known : o.Known sys

end MountOption

open MountOption

def optionList : List MountOption → Bytes
  | [] => []
  | o :: opts => o.text ++ join comma (opts.map text)

def lastOf {α : Type} (f : MountOption → Option α) (opts : List MountOption) : Option α := (opts.filterMap f).getLast?

/-- Each option has its own effect, whatever is beside it. -/
structure Independent (sys : System) (statics : Statics) (opts : List MountOption) (r : Statics × MountRequest) : Prop where
  password : r.2.volpassword = (lastOf password? opts).elim [] (·.take 8)
  readonly : r.2.volumeOptions &&& volumeExtraFlagsReadonly ≠ 0 ↔ ro ∈ opts
  uid : r.1.uid = ((lastOf user? opts).bind sys.getpwnam).getD statics.uid
  gid : r.1.gid = ((lastOf group? opts).bind sys.getgrnam).getD statics.gid

def lastPassword : List MountOption → Option (Bytes × List MountOption)
  | [] => none
  | o :: opts => (lastPassword opts).or (o.password?.map fun V => (V, opts))

section Lists
variable {α : Type} {f : MountOption → Option α} {o : MountOption} {opts : List MountOption}

lemma lastOf_cons (f : MountOption → Option α) (o : MountOption) (opts : List MountOption) :
    lastOf f (o :: opts) = (lastOf f opts).or (f o) := by
  unfold lastOf
  cases hf : f o with
  | none => rw [List.filterMap_cons_none hf, Option.or_none]
  | some a =>
    rw [List.filterMap_cons_some hf, List.getLast?_cons]
    cases (opts.filterMap f).getLast? with
    | none => rfl
    | some b => rfl

lemma exists_of_lastOf {a : α} (h : lastOf f opts = some a) : ∃ o ∈ opts, f o = some a :=
  List.mem_filterMap.1 (List.mem_of_getLast? h)

lemma map_lastPassword (opts : List MountOption) : (lastPassword opts).map Prod.fst = lastOf password? opts := by
  induction opts with
  | nil => rfl
  | cons o opts ih =>
    rw [lastPassword, lastOf_cons, ← ih]
    cases lastPassword opts with
    | none => cases o.password? <;> rfl
    | some r => rfl

lemma getD_bind_or {β γ : Type} (g : β → Option γ) (x y : Option β) (d : γ) (hx : ∀ b, x = some b → (g b).isSome) :
    ((x.or y).bind g).getD d = (x.bind g).getD ((y.bind g).getD d) := by
  cases x with
  | none => rfl
  | some b =>
    obtain ⟨c, hc⟩ := Option.isSome_iff_exists.1 (hx b rfl)
    rw [Option.some_or, Option.bind_some, hc, Option.getD_some, Option.getD_some]

end Lists

section Effects
variable {sys : System} {o : MountOption} {opts : List MountOption} {s s' : Settings}

structure Effects (sys : System) (opts : List MountOption) (s s' : Settings) : Prop where
  volpass : s'.volpass = ((lastPassword opts).map fun r => r.1 ++ join comma (r.2.map text)).or s.volpass
  readonly : s'.readonly = (s.readonly || ro ∈ opts)
  uid : s'.uid = ((lastOf user? opts).bind sys.getpwnam).getD s.uid
  gid : s'.gid = ((lastOf group? opts).bind sys.getgrnam).getD s.gid

/-- One option, with some text behind it. -/
structure Effect (sys : System) (o : MountOption) (tail : Bytes) (s s' : Settings) : Prop where
  volpass : s'.volpass = (o.password?.map (· ++ tail)).or s.volpass
  readonly : s'.readonly = (s.readonly || o = ro)
  uid : s'.uid = (o.user?.bind sys.getpwnam).getD s.uid
  gid : s'.gid = (o.group?.bind sys.getgrnam).getD s.gid

lemma not_prefix_of_head {a b : UInt8} (hab : a ≠ b) (u v : Bytes) : ¬ a :: u <+: b :: v :=
  fun h => hab (List.cons_prefix_cons.1 h).1

lemma setOption_text (h : o.Known sys) (tail : Bytes) (s : Settings) :
    ∃ s', setOption sys o.text (o.text ++ tail) s = some s' ∧ Effect sys o tail s s' := by
  cases o with
  | volpass V => exact ⟨_, if_pos (List.prefix_append volpassWord V), rfl, (Bool.or_false _).symm, rfl, rfl⟩
  | user U =>
    obtain ⟨u, hu⟩ := Option.isSome_iff_exists.1 h
    refine ⟨{ s with uid := u, changeuid := s.changeuid || sys.geteuid != u }, ?_, rfl, (Bool.or_false _).symm, ?_, rfl⟩
    · have hvolpass : ¬ volpassWord <+: (user U).text := not_prefix_of_head (by decide) _ _
      have huser : userWord <+: (user U).text := List.prefix_append _ _
      have hdrop : (user U).text.drop 5 = U := rfl
      rw [setOption, if_neg hvolpass, if_pos huser, hdrop, hu, Option.map_some]
    · exact (congrArg (Option.getD · s.uid) hu).symm
  | group G =>
    obtain ⟨g, hg⟩ := Option.isSome_iff_exists.1 h
    refine ⟨{ s with gid := g, changegid := true }, ?_, rfl, (Bool.or_false _).symm, rfl, ?_⟩
    · have hvolpass : ¬ volpassWord <+: (group G).text := not_prefix_of_head (by decide) _ _
      have huser : ¬ userWord <+: (group G).text := not_prefix_of_head (by decide) _ _
      have hgroup : groupWord <+: (group G).text := List.prefix_append _ _
      have hdrop : (group G).text.drop 6 = G := rfl
      rw [setOption, if_neg hvolpass, if_neg huser, if_pos hgroup, hdrop, hg, Option.map_some]
    · exact (congrArg (Option.getD · s.gid) hg).symm
  | rw => exact ⟨s, rfl, rfl, (Bool.or_false _).symm, rfl, rfl⟩
  | ro => exact ⟨_, rfl, rfl, (Bool.or_true _).symm, rfl, rfl⟩

lemma optionLoop_cons {o' : MountOption} (ho : o.Valid sys)
    (hset : setOption sys o.text (optionList (o :: o' :: opts)) s = some s') :
    optionLoop sys (optionList (o :: o' :: opts)) s = optionLoop sys (optionList (o' :: opts)) s' := by
  have hlist : optionList (o :: o' :: opts) = o.text ++ comma :: optionList (o' :: opts) := by
    rw [optionList, List.map_cons, join, List.flatMap_cons, List.cons_append]
    rfl
  have hq : strchr comma (optionList (o :: o' :: opts)) = some o.text.length := by
    rw [hlist]
    exact strchr_append ho.comma
  have hcommand : (optionList (o :: o' :: opts)).take o.text.length = o.text := by rw [hlist, List.take_left]
  have hrest : (optionList (o :: o' :: opts)).drop (o.text.length + 1) = optionList (o' :: opts) := by
    rw [hlist, ← List.drop_drop, List.drop_left]
    rfl
  rw [optionLoop]
  split
  case h_1 q h =>
    obtain rfl : q = o.text.length := Option.some.inj (h.symm.trans hq)
    rw [if_neg (Nat.not_le.2 ho.short), hcommand, hset]
    dsimp only
    rw [hrest]
  case h_2 h => exact absurd (h.symm.trans hq) (by simp)

lemma optionLoop_last (h : comma ∉ text o) (hshort : o.text.length < 256) (s : Settings) :
    optionLoop sys (optionList [o]) s = .ok (setOption sys o.text o.text s) := by
  have hlist : optionList [o] = o.text := List.append_nil _
  rw [hlist, optionLoop]
  split
  case h_1 q hq => exact absurd ((strchr_none h).symm.trans hq) (by simp)
  case h_2 => rw [if_neg (Nat.not_le.2 hshort)]

lemma Effects.nil (s : Settings) : Effects sys [] s s := ⟨rfl, (Bool.or_false _).symm, rfl, rfl⟩

lemma Effects.cons {s₁ : Settings} (hopts : ∀ o ∈ opts, o.Known sys)
    (h : Effect sys o (join comma (opts.map text)) s s₁) (h' : Effects sys opts s₁ s') :
    Effects sys (o :: opts) s s' where
  volpass := by
    rw [h'.volpass, h.volpass, lastPassword]
    cases lastPassword opts with
    | none => cases o.password? <;> rfl
    | some r => rfl
  readonly := by
    rw [h'.readonly, h.readonly, Bool.or_assoc, ← Bool.decide_or]
    simp [eq_comm]
  uid := by
    rw [h'.uid, h.uid, lastOf_cons, getD_bind_or]
    intro U hU
    obtain ⟨o, ho, hU⟩ := exists_of_lastOf hU
    have hknown := hopts o ho
    cases o with
    | user U' =>
      cases hU
      exact hknown
    | volpass | group | rw | ro => cases hU
  gid := by
    rw [h'.gid, h.gid, lastOf_cons, getD_bind_or]
    intro G hG
    obtain ⟨o, ho, hG⟩ := exists_of_lastOf hG
    have hknown := hopts o ho
    cases o with
    | group G' =>
      cases hG
      exact hknown
    | volpass | user | rw | ro => cases hG

lemma optionLoop_effects (hopts : ∀ o ∈ opts, o.Valid sys) (s : Settings) :
    ∃ s', optionLoop sys (optionList opts) s = .ok (some s') ∧ Effects sys opts s s' := by
  induction opts generalizing s with
  | nil =>
    refine ⟨s, ?_, .nil s⟩
    rw [optionLoop]
    rfl
  | cons o opts ih =>
    rw [List.forall_mem_cons] at hopts
    obtain ⟨s₁, hset, heffect⟩ := setOption_text hopts.1.known (join comma (opts.map text)) s
    cases opts with
    | nil =>
      refine ⟨s₁, ?_, .cons nofun heffect (.nil s₁)⟩
      rw [optionLoop_last hopts.1.comma hopts.1.short]
      exact congrArg Except.ok ((congrArg (setOption sys o.text · s) (List.append_nil _).symm).trans hset)
    | cons o' opts =>
      obtain ⟨s', hloop, heffects⟩ := ih hopts.2 s₁
      exact ⟨s', (optionLoop_cons hopts.1 hset).trans hloop, .cons (fun o ho => (hopts.2 o ho).known) heffect heffects⟩

lemma volpass_ne_dash (hopts : ∀ o ∈ opts, o.Known sys) {r : Bytes × List MountOption} (h : lastPassword opts = some r) :
    r.1 ++ join comma (r.2.map text) ≠ [dash] := by
  have hlast : lastOf password? opts = some r.1 := by rw [← map_lastPassword, h, Option.map_some]
  obtain ⟨o, ho, hV⟩ := exists_of_lastOf hlast
  have hknown := hopts o ho
  cases o with
  | user | group | rw | ro => cases hV
  | volpass V =>
    obtain rfl := Option.some.inj hV
    intro hdash
    rcases r with ⟨V, _ | ⟨o, post⟩⟩
    · exact hknown ((List.append_nil V).symm.trans hdash)
    · -- there is a comma in it
      have hmem : comma ∈ V ++ join comma ((o :: post).map text) := List.mem_append_right V List.mem_cons_self
      rw [hdash] at hmem
      exact absurd hmem (by decide)

lemma take_volpass_iff (V : Bytes) (post : List MountOption) :
    (V ++ join comma (post.map text)).take 8 = V.take 8 ↔ post = [] ∨ 8 ≤ V.length := by
  rw [List.take_append, List.append_right_eq_self, List.take_eq_nil_iff, or_comm, Nat.sub_eq_zero_iff_le]
  refine or_congr_left ?_
  cases post with
  | nil => exact iff_of_true rfl rfl
  | cons o post => exact iff_of_false (List.cons_ne_nil comma _) (List.cons_ne_nil o post)

lemma handleMountAfp_options {statics : Statics} {list : Bytes} (name urlstring mountpoint : Bytes)
    (hloop : optionLoop sys list { statics with volpass := none, readonly := false } = .ok (some s)) :
    handleMountAfp sys statics [name, dashO, list, urlstring, mountpoint] = mountRequest sys s urlstring mountpoint := by
  simp [handleMountAfp, argument, hloop, bind, Except.bind]

lemma mountRequest_ok {urlstring : Bytes} {url : AfpUrl} (hurl : afpParseUrl afpDefaultUrl urlstring = .ok (0, url))
    (hvolpass : s.volpass ≠ some [dash]) (mountpoint : Bytes) :
    ∃ r, mountRequest sys s urlstring mountpoint = .ok (some (s.toStatics, r)) ∧
      r.volpassword = s.volpass.elim [] (·.take 8) ∧
      (r.volumeOptions &&& volumeExtraFlagsReadonly ≠ 0 ↔ s.readonly) := by
  rw [mountRequest, hurl]
  refine ⟨_, rfl, ?_, ?_⟩
  · rw [if_neg hvolpass]
  · dsimp only
    cases s.readonly with
    | false => decide
    | true => decide

lemma handleMountAfp_list {urlstring : Bytes} {url : AfpUrl} (hopts : ∀ o ∈ opts, o.Valid sys)
    (hurl : afpParseUrl afpDefaultUrl urlstring = .ok (0, url)) (statics : Statics) (name mountpoint : Bytes) :
    ∃ r, handleMountAfp sys statics [name, dashO, optionList opts, urlstring, mountpoint] = .ok (some r) ∧
      r.2.volpassword = (lastPassword opts).elim [] (fun last => (last.1 ++ join comma (last.2.map text)).take 8) ∧
      (Independent sys statics opts r ↔ r.2.volpassword = (lastOf password? opts).elim [] (·.take 8)) := by
  obtain ⟨s, hloop, heffects⟩ := optionLoop_effects hopts { statics with volpass := none, readonly := false }
  have hvolpass : s.volpass = (lastPassword opts).map fun r => r.1 ++ join comma (r.2.map text) := by
    rw [heffects.volpass, Option.or_none]
  have hdash : s.volpass ≠ some [dash] := by
    intro h
    obtain ⟨r, hr, hdash⟩ := Option.map_eq_some_iff.1 (hvolpass.symm.trans h)
    exact volpass_ne_dash (fun o ho => (hopts o ho).known) hr hdash
  obtain ⟨r, hr, hpassword, hreadonly⟩ := mountRequest_ok hurl hdash mountpoint
  refine ⟨(s.toStatics, r), (handleMountAfp_options name urlstring mountpoint hloop).trans hr, ?_, Independent.password,
    fun h => ⟨h, ?_, heffects.uid, heffects.gid⟩⟩
  · rw [hpassword, hvolpass]
    cases lastPassword opts with
    | none => rfl
    | some last => rfl
  · rw [hreadonly, heffects.readonly, Bool.false_or, decide_eq_true_iff]

end Effects

/-- With a URL that is parsed the options are independent of each other just if the last password is the last option or has 8
bytes at least. -/
theorem mount_options_iff {sys : System} {opts : List MountOption} {urlstring : Bytes} {url : AfpUrl}
    (hopts : ∀ o ∈ opts, o.Valid sys) (hurl : afpParseUrl afpDefaultUrl urlstring = .ok (0, url)) (statics : Statics)
    (name mountpoint : Bytes) :
    ∃ r, handleMountAfp sys statics [name, dashO, optionList opts, urlstring, mountpoint] = .ok (some r) ∧
      (Independent sys statics opts r ↔ ∀ V post, lastPassword opts = some (V, post) → post = [] ∨ 8 ≤ V.length) := by
  obtain ⟨r, hr, hpassword, hiff⟩ := handleMountAfp_list hopts hurl statics name mountpoint
  refine ⟨r, hr, ?_⟩
  rw [hiff, hpassword, ← map_lastPassword]
  cases lastPassword opts with
  | none => exact iff_of_true rfl nofun
  | some last =>
    refine (take_volpass_iff last.1 last.2).trans ⟨?_, fun h => h _ _ rfl⟩
    rintro h V post ⟨⟩
    exact h

def plainSystem : System where
  geteuid := 0
  getpwnam _ := some 0
  getgrnam _ := some 0
  getpass _ := none
  libgcrypt := true

/-- `"afp://s/v"` -/
def plainUrl : Bytes := [97, 102, 112, 58, 47, 47, 115, 47, 118]

lemma afpParseUrl_plainUrl :
    afpParseUrl afpDefaultUrl plainUrl = .ok (0, ⟨[], [], [], [115], 548, [118], []⟩) := by decide

/-- `"volpass=a,ro"` -/
def passwordThenRo : List MountOption := [.volpass [97], .ro]

lemma valid_passwordThenRo : ∀ o ∈ passwordThenRo, o.Valid plainSystem := by
  intro o ho
  rw [passwordThenRo, List.mem_cons, List.mem_singleton] at ho
  obtain rfl | rfl := ho
  · exact ⟨by decide, by decide, by decide, (by decide : ([97] : Bytes) ≠ [dash])⟩
  · exact ⟨by decide, by decide, by decide, trivial⟩

theorem mount_options_iff_password :
    ∃ r, handleMountAfp plainSystem ⟨0, 0, false, false⟩ [[], dashO, optionList passwordThenRo, plainUrl, []] = .ok (some r) ∧
      (Independent plainSystem ⟨0, 0, false, false⟩ passwordThenRo r ↔
        ∀ V post, lastPassword passwordThenRo = some (V, post) → post = [] ∨ 8 ≤ V.length) :=
  mount_options_iff valid_passwordThenRo afpParseUrl_plainUrl ⟨0, 0, false, false⟩ [] []

/-- `-o volpass=a,ro`: the password is `a,ro`. -/
theorem mount_options_password_runs_on :
    ∃ r, handleMountAfp plainSystem ⟨0, 0, false, false⟩ [[], dashO, optionList passwordThenRo, plainUrl, []] = .ok (some r) ∧
      r.2.volpassword = [97, comma] ++ roWord ∧ ¬ Independent plainSystem ⟨0, 0, false, false⟩ passwordThenRo r := by
  obtain ⟨r, hr, hpassword, hiff⟩ :=
    handleMountAfp_list valid_passwordThenRo afpParseUrl_plainUrl ⟨0, 0, false, false⟩ [] []
  refine ⟨r, hr, hpassword, ?_⟩
  rw [hiff, hpassword]
  decide

end AfpfsNg.Fuse
