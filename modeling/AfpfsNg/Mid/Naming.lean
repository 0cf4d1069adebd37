import AfpfsNg.Afp.Spelling
import AfpfsNg.Did.Fresh
import AfpfsNg.Mid.ReadOnly

/-!
# Which object a request is about

Each operation converts the path, finds the directory with `get_dirid` and puts its id and the last component into a request.
`ml_getattr` converts the path too, but hands the caller's spelling on to `ll_getattr`.
-/

namespace AfpfsNg.Mid
open AfpfsNg.Base AfpfsNg.Afp AfpfsNg.Did AfpfsNg.Fork AfpfsNg.Proto

/-- The directory and the name in a request that is about one object. -/
def Command.target : Command → Option (Nat × Bytes)
  | .fork (.getfiledirparms did _ _ pathname) => some (did, pathname)
  | .fork (.openfork _ dirid _ filename) => some (dirid, filename)
  | .createfile _ dirid pathname => some (dirid, pathname)
  | .createdir dirid pathname => some (dirid, pathname)
  | .delete dirid pathname => some (dirid, pathname)
  | .setparms _ dirid pathname _ => some (dirid, pathname)
  | _ => none

def Flags.rdonly : Flags := ⟨⟨false, false, false, false, false⟩, false⟩

/-- Five operations, with their arguments but for the path. -/
inductive Naming where
  | getattr
  | open (rounds : Nat) (flags : Flags)
  | unlink
  | rmdir
  | utime (modtime : UInt32)

def Naming.operation (fi fi' : FileInfo) (path : Bytes) : Naming → Operation
  | .getattr => .getattr fi fi' path
  | .open rounds flags => .open rounds fi fi' path flags
  | .unlink => .unlink fi path
  | .rmdir => .rmdir fi path
  | .utime modtime => .utime fi path modtime

section Record
variable {σ : Type} {S : Station σ} {m : Mount} {clock : Nat → Nat} {fi fi' : FileInfo} {path : Bytes}
  {k : State (σ × List (Command × Answer))}

def Grows (s s' : σ × List (Command × Answer)) : Prop := s.2 <+: s'.2

instance : IsPreorder (σ × List (Command × Answer)) Grows where
  refl _ := List.prefix_rfl
  trans _ _ _ h h' := List.IsPrefix.trans h h'

lemma grows : Carries S.logged (fun _ => True) (OnServer Grows) where
  command k c _ := List.prefix_append ..
  idle k k' hpeer _ := by
    show k.peer.2 <+: k'.peer.2
    rw [hpeer]

def Asks (target : Nat × Bytes) (k k' : State (σ × List (Command × Answer))) : Prop :=
  ∃ x rest, x.1.target = some target ∧ k'.peer.2 = k.peer.2 ++ x :: rest

/-- Nothing is sent, or the first request is about the place that `get_dirid` finds for `path`. -/
def AsksFor (S : Station σ) (clock : Nat → Nat) (fi : FileInfo) (path : Bytes)
    (k k' : State (σ × List (Command × Answer))) : Prop :=
  k'.peer.2 = k.peer.2 ∨ ∃ target c,
    Did.getDirid (S.query k.peer.1) clock fi k.cache path = .ok (some target, c) ∧ Asks target k k'

variable {target : Nat × Bytes} {α τ : Type} {fp : FileHandle} {flags : Flags} {rounds : Nat}

lemma Asks.grow {k₁ k' : State (σ × List (Command × Answer))} (h : Asks target k k₁) (hgrow : OnServer Grows k₁ k') :
    Asks target k k' := by
  obtain ⟨x, rest, hx, hlog⟩ := h
  obtain ⟨more, hmore⟩ := hgrow
  refine ⟨x, rest ++ more, hx, ?_⟩
  rw [← hmore, hlog, List.append_assoc]
  rfl

lemma ensures_logged {c : Command} {f : Answer → Op (σ × List (Command × Answer)) α}
    {Q : α → State (σ × List (Command × Answer)) → Prop} (hc : c.target = some target)
    (h : ∀ a k', Asks target k k' → Ensures (f a) k' Q) : Ensures (call S.logged c >>= f) k Q := by
  refine .bind fun a k' hrun => ?_
  cases hrun
  exact h _ _ ⟨(c, _), [], hc, rfl⟩

lemma getDirid_place :
    Ensures (getDirid S.logged clock fi path) k fun r k' => k'.peer = k.peer ∧
      ∃ c, Did.getDirid (S.query k.peer.1) clock fi k.cache path = .ok (r, c) := by
  intro r k' hrun
  obtain ⟨⟨r', k₁⟩, hdir, heq⟩ := map_eq_ok hrun
  obtain ⟨⟨r'', c⟩, hget, heq'⟩ := map_eq_ok hdir
  cases heq
  cases heq'
  exact ⟨rfl, c, hget⟩

lemma locate_place :
    Ensures (locate S.logged clock fi path) k fun r k' => k'.peer = k.peer ∧
      ∃ c, Did.getDirid (S.query k.peer.1) clock fi k.cache path = .ok (some r, c) := by
  refine .bind (getDirid_place.imp fun r k' h => ?_)
  cases r with
  | none => exact .throw _
  | some r => exact .pure h

lemma Asks.asksFor {c : DidCache} {k₁ k' : State (σ × List (Command × Answer))} (hpeer : k₁.peer = k.peer)
    (hget : Did.getDirid (S.query k.peer.1) clock fi k.cache path = .ok (some target, c)) (h : Asks target k₁ k') :
    AsksFor S clock fi path k k' := by
  obtain ⟨x, rest, hx, hlog⟩ := h
  rw [hpeer] at hlog
  exact .inr ⟨target, c, hget, x, rest, hx, hlog⟩

lemma llGetattr_asks {resource : Bool} (hroot : ¬ (m.avNumber < 30 ∧ path = [slash])) :
    Ensures (llGetattr S.logged m clock fi path resource) k fun _ k' => AsksFor S clock fi path k k' := by
  refine .ite (fun _ => .pure (.inl rfl)) fun _ => .bind (getDirid_place.imp fun r k₁ h => ?_)
  obtain ⟨hpeer, c, hget⟩ := h
  cases r with
  | none => exact .pure (.inl (congrArg Prod.snd hpeer))
  | some place =>
    dsimp only
    rw [if_neg hroot]
    refine ensures_logged rfl fun a k' hasks => ?_
    have hfor := hasks.asksFor hpeer hget
    exact .ite (fun _ => .pure hfor) fun _ => .pure hfor

lemma mlUtime_asks {modtime : UInt32} {converted : Bytes}
    (hconv : convertPathToAfp m.toVolume path = .ok (some converted)) :
    Ensures (mlUtime S.logged m clock fi path modtime) k fun _ k' => AsksFor S clock fi converted k k' := by
  refine .ite (fun _ => .pure (.inl rfl)) fun _ => .ite (fun _ => .pure (.inl rfl)) fun _ => ?_
  refine .bind (.lift fun r hr => ?_)
  cases hconv.symm.trans hr
  refine .bind (.lift fun ret _ => .ite (fun _ => .pure (.inl rfl)) fun _ => .bind (locate_place.imp fun place k₁ h => ?_))
  obtain ⟨hpeer, c, hget⟩ := h
  refine .bind (.bind (.get (.pure ?_)))
  exact ensures_logged rfl fun a k' hasks => .pure (hasks.asksFor hpeer hget)

lemma grows_opened {flags : OpenFlags} : Moves (OnServer Grows) (opened S.logged m flags fp) := by
  refine .bind (.modify fun k => List.prefix_rfl) fun _ => .ite (fun _ => ?_) fun _ => .pure _
  exact .bind (moves_onClient_ok fun k => List.prefix_append ..) fun ret => .pure _

lemma grows_tryOpen : Moves (OnServer Grows) (tryOpen S.logged m clock fi path flags fp rounds) := by
  induction rounds generalizing fp with
  | zero => exact .throw _
  | succ rounds ih =>
    refine .bind (moves_onClient_ok fun k => List.prefix_append ..) fun a => .ite (fun _ => ?_) fun _ => ?_
    · exact .bind (grows.mlCreat fun _ _ => trivial) fun ret => .ite (fun _ => ih) fun _ => .pure _
    · exact .early fun _ => grows_opened

lemma ensures_forked {r : Fork.Request} {f : Fork.Reply → Op (σ × List (Command × Answer)) α}
    {Q : α → State (σ × List (Command × Answer)) → Prop} (hr : (Command.fork r).target = some target)
    (h : ∀ a k', Asks target k k' → Ensures (f a) k' Q) :
    Ensures ((onClient fun k => .ok (k.call S.logged.peer r)) >>= f) k Q := by
  refine .bind fun a k' hrun => ?_
  cases hrun
  exact h _ _ ⟨(.fork r, _), [], hr, rfl⟩

lemma tryOpen_asks :
    Ensures (tryOpen S.logged m clock fi path flags fp rounds) k fun _ k' => Asks (fp.did, fp.basename) k k' := by
  cases rounds with
  | zero => exact .throw _
  | succ rounds =>
    refine ensures_forked rfl fun a k₁ hasks => .ite (fun _ => ?_) fun _ => ?_
    · refine .bind (((grows.mlCreat fun _ _ => trivial).ensures k₁).imp fun ret k₂ hgrow => ?_)
      have hasks' := hasks.grow hgrow
      exact .ite (fun _ => (grows_tryOpen.ensures k₂).imp fun _ _ => hasks'.grow) fun _ => .pure hasks'
    · exact .ite (fun _ => .pure hasks) fun _ => (grows_opened.ensures k₁).imp fun _ _ => hasks.grow

lemma checkSize_cases (P : Peer τ) (v : Volume) (k : Client τ) (flags : OpenFlags) (fp : FileHandle) :
    checkSize P v k flags fp = ((0, fp), k) ∨ ∃ r bitmap,
      checkSize P v k flags fp = (r, (k.call P (.getfiledirparms fp.did bitmap 0 fp.basename)).2) := by
  rw [checkSize]
  split
  · right
    dsimp only
    -- for either fork, with an answer and without
    split <;> split <;> exact ⟨_, _, rfl⟩
  · exact .inl rfl

lemma llOpen_asks :
    Ensures (llOpen S.logged m clock rounds fi path flags fp) k fun _ k' => Asks (fp.did, fp.basename) k k' := by
  refine .bind fun r k₁ hrun => ?_
  obtain ⟨⟨r', c⟩, hcheck, heq⟩ := map_eq_ok hrun
  cases heq
  have hcheck := Except.ok.inj hcheck
  rcases checkSize_cases S.logged.peer m.toVolume k.toClient flags.toOpenFlags fp with h | ⟨r, bitmap, h⟩
  · cases hcheck.symm.trans h
    exact .ite (fun hret => absurd rfl hret) fun _ => tryOpen_asks
  · cases hcheck.symm.trans h
    have hasks : Asks (fp.did, fp.basename) k { k with toClient := (k.toClient.call S.logged.peer
        (.getfiledirparms fp.did bitmap 0 fp.basename)).2 } := ⟨(.fork (.getfiledirparms ..), _), [], rfl, rfl⟩
    refine .ite (fun _ => .pure hasks) fun _ => ?_
    exact (grows_tryOpen.ensures _).imp fun _ _ hgrow => hasks.grow hgrow

/-- A path that is no invented file, and what it is converted to. -/
structure Plain (v : Volume) (path converted : Bytes) : Prop where
  conv : convertPathToAfp v path = .ok (some converted)
  kind : ∃ p, extraTranslate v path = .ok (.none, p)
  kind_conv : ∃ p, extraTranslate v converted = .ok (.none, p)

variable {converted : Bytes}

lemma Plain.refuse {v : Volume} (h : Plain v path converted) : appledoubleRefuse v path = .ok 0 := by
  obtain ⟨p, hp⟩ := h.kind
  rw [appledoubleRefuse, hp]
  rfl

lemma Plain.getattr {N : Station τ} {k : State τ} (h : Plain m.toVolume path converted) :
    appledoubleGetattr N m clock fi fi' converted k = .ok ((0, .zero), k) := by
  obtain ⟨p, hp⟩ := h.kind_conv
  rw [appledoubleGetattr, hp]
  rfl

lemma Plain.open {N : Station τ} {k : State τ} (h : Plain m.toVolume path converted) :
    appledoubleOpen N m clock rounds fi fi' path flags fp k = .ok ((0, { fp with resource := .none }), k) := by
  obtain ⟨p, hp⟩ := h.kind
  rw [appledoubleOpen, hp, run_bind_ok rfl]
  simp only [onClient, Fork.appledoubleOpen, hp]
  rfl

lemma mlGetattr_asks (h : Plain m.toVolume path converted) (hroot : ¬ (m.avNumber < 30 ∧ path = [slash])) :
    Ensures (mlGetattr S.logged m clock fi fi' path) k fun _ k' => AsksFor S clock fi path k k' := by
  intro r k' hrun
  rw [mlGetattr, h.conv, run_bind_ok rfl] at hrun
  dsimp only at hrun
  rw [run_bind_ok h.getattr] at hrun
  exact llGetattr_asks hroot hrun

lemma mlOpen_asks (h : Plain m.toVolume path converted) :
    Ensures (mlOpen S.logged m clock rounds fi fi' path flags) k fun _ k' => AsksFor S clock fi converted k k' := by
  refine .bind (.lift fun r hr => ?_)
  cases h.conv.symm.trans hr
  refine .ite (fun _ => .pure (.inl rfl)) fun _ => .ite (fun _ => .pure (.inl rfl)) fun _ => ?_
  refine .bind (.get (.bind (.modify (.bind fun r k₁ hrun => ?_))))
  cases h.open.symm.trans hrun
  refine .ite (fun hneg => absurd hneg (by decide)) fun _ => .ite (fun hone => absurd hone (by decide)) fun _ => ?_
  refine .bind (getDirid_place.imp fun r k₂ hplace => ?_)
  obtain ⟨hpeer, c, hget⟩ := hplace
  cases r with
  | none => exact .pure (.inl (congrArg Prod.snd hpeer))
  | some place => exact .bind (llOpen_asks.imp fun _ k' hasks => .pure (hasks.asksFor hpeer hget))

lemma ensures_onWorld {k : State τ} {f : World τ → Except Fault (α × World τ)} {Q : α → State τ → Prop}
    (h : ∀ r w, f ⟨k.peer, k.cache⟩ = .ok (r, w) → Q r { k with peer := w.server, cache := w.cache }) :
    Ensures (onWorld f) k Q := by
  intro r k' hrun
  obtain ⟨⟨r', w⟩, hf, heq⟩ := map_eq_ok hrun
  cases heq
  exact h _ _ hf

lemma locate_world {w w' : World (σ × List (Command × Answer))} {place : Nat × Bytes}
    (h : Did.locate S.logged.names clock fi w path = .ok (place, w')) :
    w'.server = w.server ∧ ∃ c, Did.getDirid (S.query w.server.1) clock fi w.cache path = .ok (some place, c) := by
  rw [Did.locate] at h
  split at h
  · cases h
  · cases h
  · rename_i hget
    cases h
    exact ⟨rfl, _, hget⟩

lemma delete_asks {w : World (σ × List (Command × Answer))} {place : Nat × Bytes} {c c' : DidCache}
    (hserver : w.server = k.peer)
    (hget : Did.getDirid (S.query k.peer.1) clock fi k.cache path = .ok (some place, c)) :
    AsksFor S clock fi path k
      { k with peer := (S.logged.names.delete w.server place.1 place.2).2, cache := c' } := by
  rw [hserver]
  exact .inr ⟨place, c, hget, (.delete place.1 place.2, _), [], rfl, rfl⟩

lemma mlUnlink_asks (hconv : convertPathToAfp m.toVolume path = .ok (some converted)) :
    Ensures (onWorld fun w => mlUnlink S.logged.names m.toVolume clock fi w path) k
      fun _ k' => AsksFor S clock fi converted k k' := by
  refine ensures_onWorld fun r w hrun => ?_
  obtain ⟨p, hp, hrun⟩ := bind_eq_ok hrun
  cases hconv.symm.trans hp
  dsimp only at hrun
  split at hrun
  · cases hrun
    exact .inl rfl
  obtain ⟨ret, -, hrun⟩ := bind_eq_ok hrun
  split at hrun
  · cases hrun
    exact .inl rfl
  obtain ⟨⟨place, w₁⟩, hloc, hrun⟩ := bind_eq_ok hrun
  obtain ⟨hserver, c, hget⟩ := locate_world hloc
  dsimp only at hrun
  split at hrun
  · cases hrun
    exact .inl (congrArg Prod.snd hserver)
  split at hrun
  · cases hrun
    exact .inl (congrArg Prod.snd hserver)
  cases hrun
  exact delete_asks hserver hget

lemma mlRmdir_asks (hconv : convertPathToAfp m.toVolume path = .ok (some converted)) :
    Ensures (onWorld fun w => mlRmdir S.logged.names m.toVolume clock fi w path) k
      fun _ k' => AsksFor S clock fi converted k k' := by
  refine ensures_onWorld fun r w hrun => ?_
  rw [mlRmdir] at hrun
  split at hrun
  · cases hrun
    exact .inl rfl
  obtain ⟨p, hp, hrun⟩ := bind_eq_ok hrun
  cases hconv.symm.trans hp
  dsimp only at hrun
  split at hrun
  · cases hrun
    exact .inl rfl
  obtain ⟨ret, -, hrun⟩ := bind_eq_ok hrun
  split at hrun
  · cases hrun
    exact .inl rfl
  obtain ⟨⟨place, w₁⟩, hloc, hrun⟩ := bind_eq_ok hrun
  obtain ⟨hserver, c, hget⟩ := locate_world hloc
  dsimp only at hrun
  split at hrun
  · cases hrun
    exact .inl (congrArg Prod.snd hserver)
  split at hrun
  · cases hrun
    exact delete_asks hserver hget
  · cases hrun
    exact delete_asks hserver hget

def Naming.lookup (path converted : Bytes) : Naming → Bytes
  | .getattr => path
  | _ => converted

lemma Naming.asks (h : Plain m.toVolume path converted) (hroot : ¬ (m.avNumber < 30 ∧ path = [slash])) (n : Naming) :
    Ensures (perform S.logged m clock (n.operation fi fi' path)) k
      fun _ k' => AsksFor S clock fi (n.lookup path converted) k k' := by
  cases n with
  | getattr => exact .map (mlGetattr_asks h hroot)
  | «open» rounds flags => exact .map (mlOpen_asks h)
  | unlink => exact mlUnlink_asks h.conv
  | rmdir => exact mlRmdir_asks h.conv
  | utime modtime => exact mlUtime_asks h.conv

end Record

def lastComponent (path : Bytes) : Bytes :=
  match strrchr slash path with
  | none => path
  | some p => path.drop (p + 1)

def Reaches (T : Tree) (path : Bytes) : Prop :=
  ∃ cs b d, Components cs ∧ slash ∉ b ∧ path = join slash (cs ++ [b]) ∧ T.Dir cs d

/-- Calls for one path on a server with the tree `T`, each with its own state and its own uninitialised record. -/
structure Setting (σ : Type) (T : Tree) (path : Bytes) where
  station : Station σ
  clock : Nat → Nat
  state : Naming → State (σ × List (Command × Answer))
  junk : Naming → FileInfo
  spare : FileInfo
  query : ∀ s, station.query s = T.getfiledirparms
  trusted : ∀ n, Trusted T clock (state n).cache
  unsent : ∀ n, (state n).peer.2 = []
  /-- where a directory is missing, what `get_dirid` finds depends on the record and on the cache -/
  alike : Reaches T path ∨ ∀ n n', junk n = junk n' ∧ (state n).cache = (state n').cache

/-- The operations put one directory id into their first requests, and the last component of the converted path. -/
def SameObject (m : Mount) (path : Bytes) : Prop :=
  ∃ converted, convertPathToAfp m.toVolume path = .ok (some converted) ∧
    ∀ (σ : Type) (T : Tree) (E : Setting σ T converted), ∃ d, ∀ (n : Naming) (ret : Int) k',
      perform E.station.logged m E.clock (n.operation (E.junk n) E.spare path) (E.state n) = .ok (ret, k') →
      ∀ x, k'.peer.2.head? = some x → x.1.target = some (d, lastComponent converted)

/-- The conversion fits its buffer, and it changes nothing unless `ml_getattr` or all the others refuse the path. -/
def SpelledAlike (m : Mount) (path : Bytes) : Prop :=
  (convertUtf8preToUtf8dec path).length < afpMaxPath ∧
    (invalidFilename m.toVolume path = true ∨
      convertUtf8preToUtf8dec path = path ∧ ¬ (m.avNumber < 30 ∧ path = [slash]) ∨
      invalidFilename m.toVolume (convertUtf8preToUtf8dec path) = true ∧ volumeIsReadonly m.toVolume = true ∧
        lastComponent (convertUtf8preToUtf8dec path) = lastComponent path)

section Names
variable {σ : Type} {S : Station σ} {T : Tree} {m : Mount} {clock : Nat → Nat} {fi fi' : FileInfo}
  {path converted b : Bytes} {cs : List Bytes} {k k' : State (σ × List (Command × Answer))}

lemma lastComponent_join (hb : slash ∉ b) : lastComponent (join slash (cs ++ [b])) = b := by
  rw [lastComponent, strrchr_join hb, join_concat]
  show (join slash cs ++ slash :: b).drop ((join slash cs).length + 1) = b
  rw [← List.drop_drop, List.drop_left]
  rfl

lemma getDirid_name {query : Nat → Bytes → Option FileInfo} {c c' : DidCache} {place : Nat × Bytes}
    (h : Did.getDirid query clock fi c path = .ok (some place, c')) : place.2 = lastComponent path := by
  rw [Did.getDirid] at h
  rw [lastComponent]
  cases hp : strrchr slash path with
  | none =>
    rw [hp] at h
    cases h
  | some p =>
    simp only [hp] at h
    split at h
    · cases h
    split at h
    · cases h
      rfl
    split at h
    · cases h
    split at h
    · obtain ⟨r, -, h⟩ := bind_eq_ok h
      obtain ⟨r', -, h⟩ := bind_eq_ok h
      cases h
      rfl
    · cases h
      rfl

lemma exists_place (query : Nat → Bytes → Option FileInfo) (clock : Nat → Nat) (fi : FileInfo) (c : DidCache)
    (path : Bytes) : ∃ d, ∀ target c', Did.getDirid query clock fi c path = .ok (some target, c') →
      target = (d, lastComponent path) := by
  cases hr : Did.getDirid query clock fi c path with
  | error f => exact ⟨0, nofun⟩
  | ok r =>
    obtain ⟨r, c₁⟩ := r
    cases r with
    | none => exact ⟨0, nofun⟩
    | some place =>
      refine ⟨place.1, fun target c' heq => ?_⟩
      cases heq
      exact Prod.ext rfl (getDirid_name hr)

lemma AsksFor.first {x : Command × Answer} (h : AsksFor S clock fi path k k') (hlog : k.peer.2 = [])
    (hx : k'.peer.2.head? = some x) : ∃ target c,
      Did.getDirid (S.query k.peer.1) clock fi k.cache path = .ok (some target, c) ∧ x.1.target = some target := by
  rcases h with hsame | ⟨target, c, hget, y, rest, hy, hlog'⟩
  · rw [hsame, hlog] at hx
    cases hx
  · rw [hlog', hlog] at hx
    cases hx
    exact ⟨target, c, hget, hy⟩

lemma Setting.place (E : Setting σ T path) (hfits : path.length < afpMaxPath) :
    ∃ d, ∀ n target c, Did.getDirid (E.station.query (E.state n).peer.1) E.clock (E.junk n) (E.state n).cache path
      = .ok (some target, c) → target = (d, lastComponent path) := by
  simp only [E.query]
  rcases E.alike with ⟨cs, b, d, hcs, hb, rfl, hd⟩ | hsame
  · refine ⟨d, fun n target c hget => ?_⟩
    rw [join_concat, List.length_append, List.length_cons] at hfits
    obtain ⟨c', hspec, -⟩ := @getDirid_spec T E.clock (E.state n).cache cs b d (E.junk n) (E.trusted n) hcs hb hd
      (by omega) (by omega)
    cases hspec.symm.trans hget
    rw [lastComponent_join hb]
  · -- the lookups are the same computation
    obtain ⟨d, hd⟩ := exists_place T.getfiledirparms E.clock (E.junk .getattr) (E.state .getattr).cache path
    refine ⟨d, fun n target c hget => ?_⟩
    rw [(hsame n .getattr).1, (hsame n .getattr).2] at hget
    exact hd target c hget

lemma getattr_silent (h : Plain m.toVolume path converted) (hinv : invalidFilename m.toVolume path = true) :
    Ensures (perform S.logged m clock (Naming.getattr.operation fi fi' path)) k fun _ k' => k'.peer.2 = k.peer.2 := by
  refine .map fun r k' hrun => ?_
  rw [mlGetattr, h.conv, run_bind_ok rfl] at hrun
  dsimp only at hrun
  rw [run_bind_ok h.getattr] at hrun
  change llGetattr S.logged m clock fi path false k = .ok (r, k') at hrun
  rw [llGetattr, if_pos hinv] at hrun
  cases hrun
  rfl

lemma others_silent {n : Naming} (hn : n ≠ .getattr) (h : Plain m.toVolume path converted)
    (hinv : invalidFilename m.toVolume converted = true) (hro : volumeIsReadonly m.toVolume = true) :
    Ensures (perform S.logged m clock (n.operation fi fi' path)) k fun _ k' => k'.peer.2 = k.peer.2 := by
  cases n with
  | getattr => exact absurd rfl hn
  | «open» rounds flags =>
    refine .map (.bind (.lift fun r hr => ?_))
    cases h.conv.symm.trans hr
    exact .ite (fun _ => .pure rfl) fun hvalid => absurd hinv hvalid
  | unlink =>
    show Ensures (onWorld fun w => mlUnlink S.logged.names m.toVolume clock fi w path) k _
    refine ensures_onWorld fun r w hrun => ?_
    cases mlUnlink_readonly hro hrun
    rfl
  | rmdir =>
    show Ensures (onWorld fun w => mlRmdir S.logged.names m.toVolume clock fi w path) k _
    refine ensures_onWorld fun r w hrun => ?_
    cases mlRmdir_readonly hro hrun
    rfl
  | utime modtime => exact .ite (fun _ => .pure rfl) fun hrw => absurd hro hrw

lemma plain_of_fits (henc : m.pathEncoding = .utf8Name) (habs : path.head? = some slash)
    (hplain : ∃ p, extraTranslate m.toVolume path = .ok (.none, p))
    (hfits : (convertUtf8preToUtf8dec path).length < afpMaxPath) :
    Plain m.toVolume path (convertUtf8preToUtf8dec path) where
  conv := by
    rw [convertPathToAfp, henc]
    exact if_pos hfits
  kind := hplain
  kind_conv := by
    obtain ⟨p, hp⟩ := hplain
    exact extraTranslate_convert habs hp

lemma sameObject_of_spelledAlike (henc : m.pathEncoding = .utf8Name) (habs : path.head? = some slash)
    (hplain : ∃ p, extraTranslate m.toVolume path = .ok (.none, p)) (h : SpelledAlike m path) : SameObject m path := by
  obtain ⟨hfits, hcases⟩ := h
  have hp := plain_of_fits henc habs hplain hfits
  refine ⟨_, hp.conv, fun σ T E => ?_⟩
  obtain ⟨d, hplace⟩ := E.place hfits
  -- whoever looks the converted path up
  have hconv (hroot : ¬ (m.avNumber < 30 ∧ path = [slash])) (n : Naming) (hn : n.lookup path
      (convertUtf8preToUtf8dec path) = convertUtf8preToUtf8dec path) {ret : Int} {k'}
      (hrun : perform E.station.logged m E.clock (n.operation (E.junk n) E.spare path) (E.state n) = .ok (ret, k'))
      (x) (hx : k'.peer.2.head? = some x) : x.1.target = some (d, lastComponent (convertUtf8preToUtf8dec path)) := by
    have hasks := Naming.asks hp hroot n hrun
    rw [hn] at hasks
    obtain ⟨target, c, hget, htarget⟩ := hasks.first (E.unsent n) hx
    rw [htarget, hplace n target c hget]
  have hsilent {n : Naming} {k' : State (σ × List (Command × Answer))} {x : Command × Answer}
      (hsame : k'.peer.2 = (E.state n).peer.2) (hx : k'.peer.2.head? = some x) : False := by
    rw [hsame, E.unsent n] at hx
    cases hx
  rcases hcases with hinv | ⟨heq, hroot⟩ | ⟨hinv, hro, hlast⟩
  · have hroot : ¬ (m.avNumber < 30 ∧ path = [slash]) := by
      rintro ⟨-, rfl⟩
      cases hinv
    refine ⟨d, fun n ret k' hrun x hx => ?_⟩
    cases n with
    | getattr => exact (hsilent (n := .getattr) (getattr_silent hp hinv hrun) hx).elim
    | _ => exact hconv hroot _ rfl hrun x hx
  · refine ⟨d, fun n ret k' hrun x hx => hconv hroot n ?_ hrun x hx⟩
    rw [heq]
    cases n <;> rfl
  · -- only `ml_getattr` asks
    have hroot : ¬ (m.avNumber < 30 ∧ path = [slash]) := by
      rintro ⟨-, rfl⟩
      cases hinv
    obtain ⟨d', hd'⟩ := exists_place (E.station.query (E.state .getattr).peer.1) E.clock (E.junk .getattr)
      (E.state .getattr).cache path
    refine ⟨d', fun n ret k' hrun x hx => ?_⟩
    by_cases hn : n = .getattr
    · subst hn
      obtain ⟨target, c, hget, htarget⟩ := (Naming.asks hp hroot .getattr hrun).first (E.unsent _) hx
      rw [htarget, hlast, hd' target c hget]
    · exact (hsilent (others_silent hn hp hinv hro hrun) hx).elim

lemma getDirid_logged {place : Nat × Bytes} {c : DidCache}
    (hget : Did.getDirid (S.query k.peer.1) clock fi k.cache path = .ok (some place, c)) :
    getDirid S.logged clock fi path k = .ok (some place, { k with cache := c }) :=
  getDirid_run (S := S.logged) hget

lemma getattr_sends {place : Nat × Bytes} {c : DidCache} (h : Plain m.toVolume path converted)
    (hvalid : ¬ invalidFilename m.toVolume path = true)
    (hget : Did.getDirid (S.query k.peer.1) clock fi k.cache path = .ok (some place, c)) :
    ∃ ret k', perform S.logged m clock (Naming.getattr.operation fi fi' path) k = .ok (ret, k') ∧
      Asks (if m.avNumber < 30 ∧ path = [slash] then (1, m.volumeName) else place) k k' := by
  have hrun : ∃ r k', llGetattr S.logged m clock fi path false k = .ok (r, k') ∧
      Asks (if m.avNumber < 30 ∧ path = [slash] then (1, m.volumeName) else place) k k' := by
    rw [llGetattr, if_neg hvalid, run_bind_ok (getDirid_logged hget)]
    dsimp only
    generalize (if m.avNumber < 30 ∧ path = [slash] then (1, m.volumeName) else place) = target
    rw [run_bind_ok rfl]
    -- whatever the answer is, nothing else is sent
    split
    · exact ⟨_, _, rfl, (.fork (.getfiledirparms ..), _), [], rfl, rfl⟩
    · exact ⟨_, _, rfl, (.fork (.getfiledirparms ..), _), [], rfl, rfl⟩
  obtain ⟨r, k', hrun, hasks⟩ := hrun
  refine ⟨r.1, k', ?_, hasks⟩
  have hall : mlGetattr S.logged m clock fi fi' path k = .ok (r, k') := by
    rw [mlGetattr, h.conv, run_bind_ok rfl]
    dsimp only
    rw [run_bind_ok h.getattr]
    exact hrun
  show Except.map _ (mlGetattr S.logged m clock fi fi' path k) = _
  rw [hall]
  rfl

lemma utime_sends {place : Nat × Bytes} {c : DidCache} {modtime : UInt32} (h : Plain m.toVolume path converted)
    (hrw : ¬ volumeIsReadonly m.toVolume = true) (hvalid : ¬ invalidFilename m.toVolume path = true)
    (hget : Did.getDirid (S.query k.peer.1) clock fi k.cache converted = .ok (some place, c)) :
    ∃ ret k', perform S.logged m clock ((Naming.utime modtime).operation fi fi' path) k = .ok (ret, k') ∧
      Asks place k k' := by
  have hloc : locate S.logged clock fi converted k = .ok (place, { k with cache := c }) := by
    rw [locate, run_bind_ok (getDirid_logged hget)]
    rfl
  show ∃ ret k', mlUtime S.logged m clock fi path modtime k = .ok (ret, k') ∧ Asks place k k'
  rw [mlUtime, if_neg hrw, if_neg hvalid, h.conv, run_bind_ok rfl]
  dsimp only
  rw [h.refuse, run_bind_ok rfl, if_neg (by decide), run_bind_ok hloc]
  exact ⟨_, _, rfl, (.setparms .., _), [], rfl, rfl⟩

lemma llOpen_sends (k : State (σ × List (Command × Answer))) (fp : FileHandle) : ∃ r k',
    llOpen S.logged m clock 1 fi path .rdonly fp k = .ok (r, k') ∧ Asks (fp.did, fp.basename) k k' := by
  obtain ⟨r, hrun⟩ : ∃ r, llOpen S.logged m clock (0 + 1) fi path .rdonly fp k = .ok r := by
    rw [Flags.rdonly, llOpen_of_not_creat]
    exact ⟨_, rfl⟩
  exact ⟨r.1, r.2, hrun, llOpen_asks hrun⟩

lemma open_sends {place : Nat × Bytes} {c : DidCache} (h : Plain m.toVolume path converted)
    (hvalid : ¬ invalidFilename m.toVolume converted = true)
    (hget : Did.getDirid (S.query k.peer.1) clock fi k.cache converted = .ok (some place, c)) :
    ∃ ret k', perform S.logged m clock ((Naming.open 1 .rdonly).operation fi fi' path) k = .ok (ret, k') ∧
      Asks place k k' := by
  have hrun : ∃ r k', mlOpen S.logged m clock 1 fi fi' path .rdonly k = .ok (r, k') ∧ Asks place k k' := by
    rw [mlOpen, h.conv, run_bind_ok rfl]
    dsimp only
    rw [if_neg hvalid, if_neg (by simp [Flags.rdonly]), run_bind_ok rfl, run_bind_ok rfl, run_bind_ok h.open]
    dsimp only
    have hplace := getDirid_logged (k := { k with mallocs := k.mallocs + 1 }) hget
    rw [if_neg (by decide), if_neg (by decide), run_bind_ok hplace]
    dsimp only
    obtain ⟨r, k', hopen, hasks⟩ := llOpen_sends (S := S) (m := m) { k with cache := c, mallocs := k.mallocs + 1 }
      ⟨k.mallocs, 0, .none, place.1, place.2, List.replicate 32 0, false⟩
    rw [run_bind_ok hopen]
    exact ⟨_, _, rfl, hasks⟩
  obtain ⟨r, k', hrun, hasks⟩ := hrun
  refine ⟨r.1, k', ?_, hasks⟩
  show Except.map _ (mlOpen S.logged m clock 1 fi fi' path .rdonly k) = _
  rw [hrun]
  rfl

def agreeable (T : Tree) : Station Unit := ⟨fun _ => T.getfiledirparms, fun s _ => (.ofCode kFPNoErr, s)⟩

def Setting.fresh (T : Tree) (path : Bytes) : Setting Unit T path where
  station := agreeable T
  clock := id
  state _ := .start ((), [])
  junk _ := ⟨false, 0⟩
  spare := ⟨false, 0⟩
  query _ := rfl
  trusted _ := .empty
  unsent _ := rfl
  alike := .inr fun _ _ => ⟨rfl, rfl⟩

lemma Asks.first {target : Nat × Bytes} (h : Asks target k k') (hlog : k.peer.2 = []) :
    ∃ x, k'.peer.2.head? = some x ∧ x.1.target = some target := by
  obtain ⟨x, rest, hx, hlog'⟩ := h
  exact ⟨x, by rw [hlog', hlog]; rfl, hx⟩

lemma Setting.target_eq {E : Setting σ T converted} {d : Nat} {n : Naming} {target : Nat × Bytes}
    (hall : ∀ (n : Naming) (ret : Int) k',
      perform E.station.logged m E.clock (n.operation (E.junk n) E.spare path) (E.state n) = .ok (ret, k') →
      ∀ x, k'.peer.2.head? = some x → x.1.target = some (d, lastComponent converted))
    (hsends : ∃ ret k', perform E.station.logged m E.clock (n.operation (E.junk n) E.spare path) (E.state n)
      = .ok (ret, k') ∧ Asks target (E.state n) k') : target = (d, lastComponent converted) := by
  obtain ⟨ret, k', hrun, hasks⟩ := hsends
  obtain ⟨x, hx, htarget⟩ := hasks.first (E.unsent n)
  exact Option.some.inj (htarget.symm.trans (hall n ret k' hrun x hx))

lemma map_convert_eq_self (h : proper (cs.map convertUtf8preToUtf8dec) = proper cs) :
    cs.map convertUtf8preToUtf8dec = cs := by
  induction cs with
  | nil => rfl
  | cons x cs ih =>
    rw [List.map_cons] at h ⊢
    cases x with
    | nil => exact congrArg _ (ih h)
    | cons y x =>
      have hne : convertUtf8preToUtf8dec (y :: x) ≠ [] := fun hnil => List.cons_ne_nil y x (convert_eq_nil.mp hnil)
      rw [proper, List.filter_cons_of_pos (by simpa using hne), proper,
        List.filter_cons_of_pos (by simp)] at h
      obtain ⟨hhead, htail⟩ := List.cons.inj h
      rw [hhead, ih htail]

lemma exists_spellings (habs : path.head? = some slash) (hlen : path.length < afpMaxPath)
    (hfits : (convertUtf8preToUtf8dec path).length < afpMaxPath) : ∃ (T : Tree) (d₁ d₂ : Nat) (c₁ c₂ : DidCache),
      Did.getDirid T.getfiledirparms id ⟨false, 0⟩ .empty path = .ok (some (d₁, lastComponent path), c₁) ∧
      Did.getDirid T.getfiledirparms id ⟨false, 0⟩ .empty (convertUtf8preToUtf8dec path)
        = .ok (some (d₂, lastComponent (convertUtf8preToUtf8dec path)), c₂) ∧
      (d₂ = d₁ → lastComponent (convertUtf8preToUtf8dec path) = lastComponent path →
        convertUtf8preToUtf8dec path = path) := by
  obtain ⟨cs, b, hcs, hb, rfl⟩ := exists_join_of_head habs
  have hspell : convertUtf8preToUtf8dec (join slash (cs ++ [b]))
      = join slash (cs.map convertUtf8preToUtf8dec ++ [convertUtf8preToUtf8dec b]) := by
    rw [convert_join, List.map_append]
    rfl
  have hb' : slash ∉ convertUtf8preToUtf8dec b := slash_not_mem_convert hb
  have hcs' : ∀ y ∈ cs.map convertUtf8preToUtf8dec, slash ∉ y := by
    intro y hy
    obtain ⟨x, hx, rfl⟩ := List.mem_map.mp hy
    exact slash_not_mem_convert (hcs x hx)
  rw [hspell] at hfits ⊢
  rw [lastComponent_join hb, lastComponent_join hb']
  obtain ⟨T, ⟨d₁, hd₁⟩, d₂, hd₂⟩ := Tree.exists_dirs (proper cs) (proper (cs.map convertUtf8preToUtf8dec))
  obtain ⟨c₁, hraw⟩ := @getDirid_fresh T id cs b d₁ ⟨false, 0⟩ hcs hb hd₁ hlen
  obtain ⟨c₂, hconv⟩ := @getDirid_fresh T id _ _ d₂ ⟨false, 0⟩ hcs' hb' hd₂ hfits
  refine ⟨T, d₁, d₂, c₁, c₂, hraw, hconv, fun hdirs hname => ?_⟩
  have hcs_eq := map_convert_eq_self (Catalogue.path_unique (hdirs ▸ hd₂) hd₁)
  rw [hcs_eq, hname]

lemma convertPathToAfp_utf8 (henc : m.pathEncoding = .utf8Name)
    (h : convertPathToAfp m.toVolume path = .ok (some converted)) :
    (convertUtf8preToUtf8dec path).length < afpMaxPath ∧ convertUtf8preToUtf8dec path = converted := by
  rw [convertPathToAfp, henc] at h
  change (if _ then _ else _) = _ at h
  split at h
  case isTrue hfits => exact ⟨hfits, Option.some.inj (Except.ok.inj h)⟩
  case isFalse => cases h

lemma spelledAlike_of_sameObject (henc : m.pathEncoding = .utf8Name) (habs : path.head? = some slash)
    (hlen : path.length < afpMaxPath) (hplain : ∃ p, extraTranslate m.toVolume path = .ok (.none, p))
    (h : SameObject m path) : SpelledAlike m path := by
  obtain ⟨converted, hconv, hall⟩ := h
  obtain ⟨hfits, rfl⟩ := convertPathToAfp_utf8 henc hconv
  refine ⟨hfits, ?_⟩
  have hp := plain_of_fits henc habs hplain hfits
  obtain ⟨T, d₁, d₂, c₁, c₂, hraw, hcon, hapart⟩ := exists_spellings habs hlen hfits
  obtain ⟨d, hE⟩ := hall Unit T (.fresh T _)
  have hopen (hvalid) := Setting.target_eq (n := .open 1 .rdonly) hE (open_sends hp hvalid hcon)
  by_cases hinv : invalidFilename m.toVolume path = true
  · exact .inl hinv
  have hgetattr := Setting.target_eq (n := .getattr) hE (getattr_sends hp hinv hraw)
  have hutime (hrw) := Setting.target_eq (n := .utime 0) hE (utime_sends hp hrw hinv hcon)
  right
  by_cases hroot : m.avNumber < 30 ∧ path = [slash]
  · -- `ml_getattr` asks for the volume in the directory 1, and `ml_open` for the root
    rw [if_pos hroot] at hgetattr
    obtain ⟨-, rfl⟩ := hroot
    have hd := (Prod.mk.inj (hopen hinv)).1.trans (Prod.mk.inj hgetattr).1.symm
    change Except.ok (some (afpRootDid, []), DidCache.empty) = _ at hcon
    have hplace := Option.some.inj (Prod.mk.inj (Except.ok.inj hcon)).1
    exact absurd ((Prod.mk.inj hplace).1.trans hd) (by decide)
  rw [if_neg hroot] at hgetattr
  obtain ⟨hdir, hname⟩ := Prod.mk.inj hgetattr
  by_cases heq : convertUtf8preToUtf8dec path = path
  · exact .inl ⟨heq, hroot⟩
  -- the names are the same, so the directories are not, and no other call may ask
  have hother : d₂ ≠ d := fun hdirs => heq (hapart (hdirs.trans hdir.symm) hname.symm)
  refine .inr ⟨?_, ?_, hname.symm⟩
  · by_contra hvalid
    exact hother (Prod.mk.inj (hopen hvalid)).1
  · by_contra hrw
    exact hother (Prod.mk.inj (hutime hrw)).1

end Names

/-- On every server with a fixed tree the five operations ask for the same object, the last component of the
converted path in one directory, exactly if the path is spelled alike for them. -/
theorem operations_name_same_object_iff (m : Mount) (path : Bytes) (henc : m.pathEncoding = .utf8Name)
    (habs : path.head? = some slash) (hlen : path.length < afpMaxPath)
    (hplain : ∃ p, extraTranslate m.toVolume path = .ok (.none, p)) : SameObject m path ↔ SpelledAlike m path :=
  ⟨spelledAlike_of_sameObject henc habs hlen hplain, sameObject_of_spelledAlike henc habs hplain⟩

theorem operations_name_same_object_iff_ascii : SameObject .utf8 [47, 97] :=
  (operations_name_same_object_iff .utf8 [47, 97] rfl rfl (by decide) ⟨_, rfl⟩).mpr
    ⟨by decide, .inr (.inl ⟨by decide, by decide⟩)⟩

def emptyTree : Tree where
  entries := [([], ⟨afpRootDid, true⟩)]
  root := afpRootDid
  root_mem := by simp
  paths_nodup := by simp
  ids_nodup := by simp
  closed := by simp
  root_eq := rfl

/-- For the path `/ä` on an empty volume `ml_getattr` asks for the two bytes that the caller wrote, and `ml_open` for
the letter and the combining mark. -/
theorem getattr_asks_for_other_name :
    (extraTranslate Mount.utf8.toVolume [47, 0xc3, 0xa4]).map Prod.fst = .ok .none ∧
      convertPathToAfp Mount.utf8.toVolume [47, 0xc3, 0xa4] = .ok (some [47, 0x61, 0xcc, 0x88]) ∧
      (perform (agreeable emptyTree).logged .utf8 id (.getattr ⟨false, 0⟩ ⟨false, 0⟩ [47, 0xc3, 0xa4])
        (.start ((), []))).map (fun r => (r.1, r.2.peer.2.map (·.1.target))) = .ok (0, [some (2, [0xc3, 0xa4])]) ∧
      (perform (agreeable emptyTree).logged .utf8 id (.open 1 ⟨false, 0⟩ ⟨false, 0⟩ [47, 0xc3, 0xa4] .rdonly)
        (.start ((), []))).map (fun r => (r.1, r.2.peer.2.map (·.1.target)))
        = .ok (0, [some (2, [0x61, 0xcc, 0x88])]) :=
  ⟨rfl, rfl, rfl, rfl⟩

end AfpfsNg.Mid
