import AfpfsNg.Mid.Links
import AfpfsNg.Mid.Listing
import AfpfsNg.Mid.Open
import AfpfsNg.Mid.Traffic
import AfpfsNg.Fork.Read
import AfpfsNg.Fork.Truncate

/-!
# Read-only volumes

Seventeen operations, and which of their requests change something on the server. Eleven of the operations look at
`volume_is_readonly` before they send anything; `ml_open` does so for the flags that write, truncate or create; the others
send requests that only read.
-/

namespace AfpfsNg.Mid
open AfpfsNg.Base AfpfsNg.Afp AfpfsNg.Did AfpfsNg.Fork AfpfsNg.Proto

/-- FPWrite, FPWriteExt, FPSetForkParms, FPSetFileDirParms and FPAddComment, of the requests about forks. -/
def forkModifies : Fork.Request → Bool
  | .write .. | .setforkparms .. | .setfiledirparms .. | .addcomment .. => true
  | .byterangelock .. | .read .. | .openfork .. | .closefork .. | .getfiledirparms .. | .getcomment .. | .opendt => false

def Command.modifies : Command → Bool
  | .fork r => forkModifies r
  | .createfile .. | .createdir .. | .delete .. | .moveandrename .. | .setparms .. => true
  | .enumerate .. => false

/-- An operation with its arguments, and with what its uninitialised variables hold. -/
inductive Operation where
  | open (rounds : Nat) (fi fi' : FileInfo) (path : Bytes) (flags : Flags)
  | creat (fi : FileInfo) (path : Bytes) (mode : UInt32)
  | write (path data : Bytes) (offset : Nat) (fp : FileHandle)
  | truncate (fi : FileInfo) (path : Bytes) (offset : Nat)
  | unlink (fi : FileInfo) (path : Bytes)
  | mkdir (fi : FileInfo) (path : Bytes)
  | rmdir (fi : FileInfo) (path : Bytes)
  | rename (fi fi' : FileInfo) (pathFrom pathTo : Bytes)
  | symlink (fi : FileInfo) (addr junk : Nat) (path1 path2 : Bytes)
  | chmod (fi : FileInfo) (path : Bytes) (mode : UInt32)
  | chown (fi : FileInfo) (path : Bytes) (uid gid : UInt32)
  | utime (fi : FileInfo) (path : Bytes) (modtime : UInt32)
  | readdir (rounds : Nat) (fi : FileInfo) (path : Bytes) (fb : Option Nat)
  | read (path buf : Bytes) (pos size offset : Nat) (fp : FileHandle)
  | readlink (fi : FileInfo) (addr junk : Nat) (path : Bytes) (size : Nat)
  | getattr (fi fi' : FileInfo) (path : Bytes)
  | close (path : Bytes) (fp : Option FileHandle)

def perform {σ : Type} (S : Station σ) (m : Mount) (clock : Nat → Nat) : Operation → Op σ Int
  | .open rounds fi fi' path flags => Prod.fst <$> mlOpen S m clock rounds fi fi' path flags
  | .creat fi path mode => mlCreat S m clock fi path mode
  | .write path data offset fp => onClient fun k => mlWrite S.peer m.toVolume k path data offset fp
  | .truncate fi path offset => onClient fun k => mlTruncate S.peer m.toVolume clock fi k path offset
  | .unlink fi path => onWorld fun w => mlUnlink S.names m.toVolume clock fi w path
  | .mkdir fi path => onWorld fun w => mlMkdir S.names m.toVolume clock fi w path
  | .rmdir fi path => onWorld fun w => mlRmdir S.names m.toVolume clock fi w path
  | .rename fi fi' pathFrom pathTo => onWorld fun w => mlRename S.names m.toVolume clock fi fi' w pathFrom pathTo
  | .symlink fi addr junk path1 path2 => mlSymlink S m clock fi addr junk path1 path2
  | .chmod fi path mode => mlChmod S m clock fi path mode
  | .chown fi path uid gid => mlChown S m clock fi path uid gid
  | .utime fi path modtime => mlUtime S m clock fi path modtime
  | .readdir rounds fi path fb => Prod.fst <$> mlReaddir S m clock rounds fi path fb
  | .read path buf pos size offset fp =>
    Prod.fst <$> onClient fun k => mlRead S.peer m.toVolume k path buf pos size offset fp
  | .readlink fi addr junk path size => Prod.fst <$> mlReadlink S m clock fi addr junk path size
  | .getattr fi fi' path => Prod.fst <$> mlGetattr S m clock fi fi' path
  | .close path fp => mlClose S m path fp

section Reads
variable {σ α : Type} {S : Station σ} {m : Mount} {clock : Nat → Nat} {R : σ → σ → Prop}

/-- The states of the server before and after are related. -/
def OnPeer (R : σ → σ → Prop) (k k' : Client σ) : Prop := R k.peer k'.peer

def OnServer (R : σ → σ → Prop) (k k' : State σ) : Prop := R k.peer k'.peer

instance [IsPreorder σ R] : IsPreorder (Client σ) (OnPeer R) where
  refl k := refl k.peer
  trans _ _ _ h h' := trans_of R h h'

instance [IsPreorder σ R] : IsPreorder (State σ) (OnServer R) where
  refl k := refl k.peer
  trans _ _ _ h h' := trans_of R h h'

/-- The server moves by `R` when it answers a request that reads. -/
def Respects (S : Station σ) (R : σ → σ → Prop) : Prop := ∀ s c, c.modifies = false → R s (S.respond s c).2

lemma Respects.carries [IsPreorder σ R] (hR : Respects S R) :
    Carries S (fun c => c.modifies = false) (OnServer R) where
  command k c hc := hR k.peer c hc
  idle k k' hpeer _ := by
    show R k.peer k'.peer
    rw [hpeer]
    exact refl k.peer

lemma moves_onClient {f : Client σ → Except Fault (α × Client σ)}
    (hf : Moves (OnPeer R) (f : StateT (Client σ) (Except Fault) α)) : Moves (OnServer R) (onClient f) := by
  intro k r k' h
  obtain ⟨p, hrun, heq⟩ := map_eq_ok h
  cases heq
  exact hf hrun

lemma moves_onClient_ok {g : Client σ → α × Client σ} (hg : ∀ k, OnPeer R k (g k).2) :
    Moves (OnServer R) (onClient fun k => .ok (g k)) := by
  apply moves_onClient
  intro k r k' h
  have heq : g k = (r, k') := Except.ok.inj h
  have hk := hg k
  rw [heq] at hk
  exact hk

lemma onPeer_call (hR : Respects S R) {r : Fork.Request} (hr : forkModifies r = false) (k : Client σ) :
    OnPeer R k (k.call S.peer r).2 :=
  hR _ (.fork r) hr

variable [IsPreorder σ R]

lemma onPeer_getDirid {k k' : Client σ} {fi : FileInfo} {path : Bytes} {r : Option (Nat × Bytes)}
    (h : k.getDirid S.peer clock fi path = .ok (r, k')) : OnPeer R k k' := by
  obtain ⟨⟨r', c⟩, -, h⟩ := map_eq_ok h
  cases h
  exact refl k.peer

lemma moves_modify {f : State σ → State σ} (hf : ∀ k, (f k).peer = k.peer) :
    Moves (OnServer R) (modify f : Op σ PUnit) := by
  apply Moves.modify
  intro k
  show R k.peer (f k).peer
  rw [hf k]
  exact refl k.peer

lemma moves_opened {flags : Flags} {fp : FileHandle} (htrunc : flags.trunc = false) :
    Moves (OnServer R) (opened S m flags.toOpenFlags fp) := by
  refine .bind (moves_modify ?_) fun _ => .ite (fun h => ?_) fun _ => .pure _
  · exact fun _ => rfl
  · rw [htrunc] at h
    exact absurd h Bool.false_ne_true

lemma moves_hang {filebase last base : Option Nat} : Moves (OnServer R) (hang filebase last base) := by
  cases filebase with
  | none => exact .pure _
  | some first =>
    cases last with
    | none => exact .throw _
    | some last => exact .bind (moves_modify fun _ => rfl) fun _ => .pure _

lemma moves_finishListing {rounds : Nat} {filebase : Option Nat} :
    Moves (OnServer R) (finishListing m rounds filebase) := by
  refine .ite (fun _ => .bind .get fun k => ?_) fun _ => .pure _
  split
  · exact .throw _
  · exact .bind (moves_modify fun _ => rfl) fun _ => .pure _

lemma moves_addFp {newchain : Option Nat} {fp : Nat} {suffix : Bytes} :
    Moves (OnServer R) (addFp newchain fp suffix) := by
  refine .bind .get fun k => .bind (.lift _) fun name => .ite (fun _ => .throw _) fun _ => ?_
  exact .bind (moves_modify fun _ => rfl) fun _ => .pure _

lemma moves_removeFp {rounds toremove : Nat} {base : Option Nat} :
    Moves (OnServer R) (removeFp rounds base toremove) := by
  refine .bind .get fun k => ?_
  dsimp only
  split
  · exact .throw _
  · exact .pure _
  · exact .pure _

section Asking
variable (hR : Respects S R) {v : Volume} {k k' : Client σ} {path buf : Bytes} {pos size offset : Nat} {fp : FileHandle}
  {fi fi' : FileInfo} {flags : Flags} {rounds addr junk : Nat} {resource : Bool} {fb : Option Nat}

include hR

lemma onPeer_lockLoop {forkid tries : Nat} (k : Client σ) :
    OnPeer R k (lockLoop S.peer v forkid offset size tries k).2 := by
  induction tries generalizing k with
  | zero => exact refl k
  | succ tries ih =>
    have hcall := onPeer_call hR (r := .byterangelock (ext v) false forkid (field v offset) (field v size)) rfl k
    rw [lockLoop]
    split
    rename_i a k' heq
    rw [heq] at hcall
    split
    · exact hcall
    · split
      · exact trans_of (OnPeer R) hcall (ih k')
      · exact hcall

lemma onPeer_llHandleLocking (v : Volume) (k : Client σ) (forkid offset size : Nat) :
    OnPeer R k (llHandleLocking S.peer v k forkid offset size).2 := by
  rw [llHandleLocking]
  split
  · exact refl k
  · exact onPeer_lockLoop hR k

lemma onPeer_llHandleUnlocking (v : Volume) (k : Client σ) (forkid offset size : Nat) :
    OnPeer R k (llHandleUnlocking S.peer v k forkid offset size).2 := by
  rw [llHandleUnlocking]
  split
  · exact refl k
  · exact onPeer_call hR (r := .byterangelock (ext v) true forkid (field v offset) (field v size)) rfl k

lemma onPeer_llRead {r : Int × Bool × Bytes} (h : llRead S.peer v k buf pos size offset fp = .ok (r, k')) :
    OnPeer R k k' := by
  simp only [llRead] at h
  have hlock := onPeer_llHandleLocking hR v k fp.forkid offset size
  generalize llHandleLocking S.peer v k fp.forkid offset size = r₁ at h hlock
  obtain ⟨rc, k₁⟩ := r₁
  split at h
  · cases h
    exact hlock
  · have hcall := onPeer_call hR (r := .read (ext v) fp.forkid (field v offset) (field v size)) rfl k₁
    generalize k₁.call S.peer _ = r₂ at h hcall
    obtain ⟨a, k₂⟩ := r₂
    obtain ⟨buf', -, h⟩ := map_eq_ok h
    have hunlock := onPeer_llHandleUnlocking hR v k₂ fp.forkid offset size
    generalize llHandleUnlocking S.peer v k₂ fp.forkid offset size = r₃ at h hunlock
    obtain ⟨rc', k₃⟩ := r₃
    have hall : OnPeer R k k₃ := trans_of (OnPeer R) hlock (trans_of (OnPeer R) hcall hunlock)
    simp only at h
    generalize (if rc' ≠ 0 then _ else _ : Int) = ret at h
    split at h
    · cases h
      exact hall
    · cases h
      exact hall

lemma onPeer_readComment {amountRead : Nat} {eof : Bool} {r}
    (h : readComment S.peer k amountRead eof buf pos size fp = .ok (r, k')) : OnPeer R k k' := by
  simp only [readComment] at h
  split at h
  · cases h
    exact refl k
  · have hcall := onPeer_call hR (r := .getcomment fp.did fp.basename) rfl k
    generalize k.call S.peer _ = r₁ at h hcall
    obtain ⟨a, k₁⟩ := r₁
    split at h
    · obtain ⟨buf', -, h⟩ := map_eq_ok h
      cases h
      exact hcall
    · cases h
      exact hcall

lemma onPeer_appledoubleRead {r} (h : appledoubleRead S.peer v k buf pos size offset fp = .ok (r, k')) :
    OnPeer R k k' := by
  rw [appledoubleRead] at h
  cases hres : fp.resource with
  | none =>
    rw [hres] at h
    cases h
    exact refl k
  | resource =>
    rw [hres] at h
    obtain ⟨⟨⟨ret, eof, buf'⟩, k₁⟩, hread, h⟩ := bind_eq_ok h
    cases h
    exact onPeer_llRead hR hread
  | appledouble =>
    rw [hres] at h
    cases h
    exact refl k
  | finderinfo =>
    simp only [hres] at h
    split at h
    · cases h
      exact refl k
    · have hcall := onPeer_call hR (r := .getfiledirparms fp.did 0x20 0x20 fp.basename) rfl k
      generalize k.call S.peer _ = r₁ at h hcall
      obtain ⟨a, k₁⟩ := r₁
      simp only at h
      split at h
      · cases h
        exact hcall
      · obtain ⟨buf', -, h⟩ := bind_eq_ok h
        exact trans_of (OnPeer R) hcall (onPeer_readComment hR h)
  | comment =>
    rw [hres] at h
    exact onPeer_readComment hR h
  | serverIcon =>
    simp only [hres] at h
    split at h
    · cases h
      exact refl k
    · obtain ⟨buf', -, h⟩ := bind_eq_ok h
      cases h
      exact refl k

lemma onPeer_mlRead {r} (h : mlRead S.peer v k path buf pos size offset fp = .ok (r, k')) : OnPeer R k k' := by
  rw [mlRead] at h
  obtain ⟨converted, -, h⟩ := bind_eq_ok h
  cases converted with
  | none =>
    cases h
    exact refl k
  | some converted =>
    obtain ⟨⟨⟨ret, amount, eof, buf', fp'⟩, k₁⟩, hread, h⟩ := bind_eq_ok h
    have hfirst := onPeer_appledoubleRead hR hread
    simp only at h
    split at h
    · cases h
      exact hfirst
    · split at h
      · cases h
        exact hfirst
      · obtain ⟨⟨⟨ret', eof', buf''⟩, k₂⟩, hread', h⟩ := bind_eq_ok h
        cases h
        exact trans_of (OnPeer R) hfirst (onPeer_llRead hR hread')

lemma onPeer_checkSize (v : Volume) (k : Client σ) (flags : OpenFlags) (fp : FileHandle) :
    OnPeer R k (checkSize S.peer v k flags fp).2 := by
  simp only [checkSize]
  split
  · generalize (if fp.resource = .none then 0x200 else 0x400) = bit
    have hcall := onPeer_call hR (r := .getfiledirparms fp.did (0x2 ||| 0x100 ||| bit) 0 fp.basename) rfl k
    split
    · exact hcall
    · exact hcall
  · exact refl k

lemma onPeer_llOpen (v : Volume) (k : Client σ) {flags : OpenFlags} (htrunc : flags.trunc = false)
    (fp : FileHandle) : OnPeer R k (Fork.llOpen S.peer v k flags fp).2 := by
  have hsize := onPeer_checkSize hR v k flags fp
  simp only [Fork.llOpen, htrunc]
  generalize checkSize S.peer v k flags fp = r at hsize ⊢
  obtain ⟨⟨ret, fp⟩, k₁⟩ := r
  simp only
  split
  · exact hsize
  · generalize (if flags.wronly ∨ flags.rdwr then 3 else 1) = aflags
    have hcall := onPeer_call hR (r := .openfork (fp.resource ≠ .none) fp.did aflags fp.basename) rfl k₁
    generalize k₁.call S.peer _ = r at hcall ⊢
    obtain ⟨a, k₂⟩ := r
    have hall : OnPeer R k k₂ := trans_of (OnPeer R) hsize hcall
    split
    · exact hall
    · exact hall

lemma onPeer_appledoubleOpen {flags : OpenFlags} (htrunc : flags.trunc = false) {r : Int × FileHandle}
    (h : Fork.appledoubleOpen S.peer v clock fi k path flags fp = .ok (r, k')) : OnPeer R k k' := by
  rw [Fork.appledoubleOpen] at h
  obtain ⟨⟨kind, newpath⟩, -, h⟩ := bind_eq_ok h
  have hnone : ∀ {x : Int × FileHandle}, (.ok (x, k) : Except Fault _) = .ok (r, k') → OnPeer R k k' := by
    intro x hx
    cases hx
    exact refl k
  cases kind with
  | none => exact hnone h
  | appledouble => exact hnone h
  | serverIcon => exact hnone h
  | resource =>
    obtain ⟨⟨found, k₁⟩, hdir, h⟩ := bind_eq_ok h
    have hfirst : OnPeer R k k₁ := onPeer_getDirid hdir
    cases found with
    | none =>
      cases h
      exact hfirst
    | some found =>
      cases h
      exact trans_of (OnPeer R) hfirst (onPeer_llOpen hR v k₁ htrunc _)
  | finderinfo =>
    obtain ⟨⟨found, k₁⟩, hdir, h⟩ := bind_eq_ok h
    have hfirst : OnPeer R k k₁ := onPeer_getDirid hdir
    cases found with
    | none =>
      cases h
      exact hfirst
    | some found =>
      cases h
      exact hfirst
  | comment =>
    obtain ⟨⟨found, k₁⟩, hdir, h⟩ := bind_eq_ok h
    have hfirst : OnPeer R k k₁ := onPeer_getDirid hdir
    cases found with
    | none =>
      cases h
      exact hfirst
    | some found =>
      simp only at h
      split at h
      · cases h
        exact trans_of (OnPeer R) hfirst (onPeer_call hR (r := .opendt) rfl k₁)
      · cases h
        exact hfirst

lemma moves_tryOpen (hcreat : flags.creat = false) (htrunc : flags.trunc = false) :
    Moves (OnServer R) (tryOpen S m clock fi path flags fp rounds) := by
  cases rounds with
  | zero => exact .throw _
  | succ rounds =>
    refine .bind (moves_onClient_ok fun k => onPeer_call hR rfl k) fun a => .ite (fun h => ?_) fun _ => ?_
    · rw [hcreat] at h
      exact absurd h.2 Bool.false_ne_true
    · exact .early fun _ => moves_opened htrunc

lemma moves_llOpen (hcreat : flags.creat = false) (htrunc : flags.trunc = false) :
    Moves (OnServer R) (llOpen S m clock rounds fi path flags fp) := by
  refine .bind (moves_onClient_ok fun k => onPeer_checkSize hR _ k _ fp) fun r => ?_
  exact .early fun _ => moves_tryOpen hR hcreat htrunc

lemma moves_appledoubleOpen (hcreat : flags.creat = false) (htrunc : flags.trunc = false) :
    Moves (OnServer R) (appledoubleOpen S m clock rounds fi fi' path flags fp) := by
  refine .bind (.lift (extraTranslate m.toVolume path)) fun r => ?_
  obtain ⟨kind, newpath⟩ := r
  have hother : Moves (OnServer R)
      (onClient fun k => Fork.appledoubleOpen S.peer m.toVolume clock fi k path flags.toOpenFlags fp) :=
    moves_onClient fun _ _ _ h => onPeer_appledoubleOpen hR htrunc h
  cases kind with
  | resource =>
    refine .bind_option hR.carries.getDirid (.pure _) fun found => ?_
    exact .bind (moves_llOpen hR hcreat htrunc) fun r => .pure _
  | none => exact hother
  | appledouble => exact hother
  | finderinfo => exact hother
  | comment => exact hother
  | serverIcon => exact hother

lemma moves_mlOpen (hro : volumeIsReadonly m.toVolume = true) :
    Moves (OnServer R) (mlOpen S m clock rounds fi fi' path flags) := by
  refine .bind_option (.lift _) (.pure _) fun converted => ?_
  refine .early fun _ => .early fun hflags => ?_
  simp only [hro, true_and, not_or, Bool.not_eq_true] at hflags
  obtain ⟨-, -, htrunc, -, hcreat⟩ := hflags
  refine .bind .get fun k => .bind (moves_modify ?_) fun _ => ?_
  · exact fun _ => rfl
  refine .bind (moves_appledoubleOpen hR hcreat htrunc) fun r => ?_
  refine .early fun _ => .early fun _ => .bind_option hR.carries.getDirid (.pure _) fun found => ?_
  exact .bind (moves_llOpen hR hcreat htrunc) fun r => .pure _

lemma moves_llGetattr : Moves (OnServer R) (llGetattr S m clock fi path resource) := by
  refine .early fun _ => .bind_option hR.carries.getDirid (.pure _) fun found => ?_
  exact .bind (hR.carries.call rfl) fun a => .early fun _ => .pure _

lemma moves_opendt : Moves (OnServer R) (opendt S) :=
  .bind (hR.carries.call rfl) fun _ => .bind (moves_modify fun _ => rfl) fun _ => .pure _

lemma moves_ensureDtOpened : Moves (OnServer R) (ensureDtOpened S) :=
  .bind .get fun _ => .early fun _ => moves_opendt hR

lemma moves_commentSize {basename : Bytes} {did : Nat} : Moves (OnServer R) (commentSize S basename did) :=
  .bind (hR.carries.call rfl) fun _ => .early fun _ => .pure _

lemma moves_getCommentSize {basename : Bytes} {did : Nat} : Moves (OnServer R) (getCommentSize S basename did) := by
  refine .bind .get fun k => .ite (fun _ => ?_) fun _ => moves_commentSize hR
  exact .bind (moves_opendt hR) fun _ => .early fun _ => moves_commentSize hR

lemma moves_appledoubleGetattr : Moves (OnServer R) (appledoubleGetattr S m clock fi fi' path) := by
  refine .bind (.lift (extraTranslate m.toVolume path)) fun r => ?_
  obtain ⟨kind, newpath⟩ := r
  cases kind with
  | none => exact .pure _
  | appledouble => exact .pure _
  | serverIcon => exact .pure _
  | resource => exact .bind (moves_llGetattr hR) fun _ => .pure _
  | finderinfo => exact .bind (moves_llGetattr hR) fun _ => .pure _
  | comment =>
    refine .bind (moves_llGetattr hR) fun r => .early fun _ => ?_
    refine .bind_option hR.carries.getDirid (.pure _) fun found => ?_
    exact .bind (moves_getCommentSize hR) fun _ => .early fun _ => .pure _

lemma moves_mlGetattr : Moves (OnServer R) (mlGetattr S m clock fi fi' path) := by
  refine .bind_option (.lift _) (.pure _) fun converted => ?_
  refine .bind (moves_appledoubleGetattr hR) fun r => .early fun _ => ?_
  exact .early fun _ => moves_llGetattr hR

lemma moves_afpEnumerate {dirid filebitmap dirbitmap startindex : Nat} {pathname : Bytes} :
    Moves (OnServer R) (afpEnumerate S m dirid filebitmap dirbitmap startindex pathname) := by
  refine .bind (hR.carries.call rfl) fun a => .early fun _ => .bind .get fun k => ?_
  dsimp only
  generalize (if ext m.toVolume then _ else _ : Option ((Int × Option Nat) × Heap)) = reply
  cases reply with
  | none => exact .throw _
  | some reply => exact .bind (moves_modify fun _ => rfl) fun _ => .pure _

lemma moves_readdirLoop {dirid startindex : Nat} {basename : Bytes} {filebase last : Option Nat} :
    Moves (OnServer R) (readdirLoop S m dirid basename resource rounds filebase last startindex) := by
  induction rounds generalizing filebase last startindex with
  | zero => exact .throw _
  | succ rounds ih =>
    refine .bind (moves_afpEnumerate hR) fun r => .ite (fun _ => ?_) fun _ => ?_
    · refine .bind moves_hang fun filebase => .bind .get fun k => ?_
      split
      · exact .throw _
      · exact .early fun _ => ih
    · exact .early fun _ => .early fun _ => ih

lemma moves_llReaddir : Moves (OnServer R) (llReaddir S m clock rounds fi path fb resource) := by
  refine .early fun _ => .bind_option hR.carries.getDirid (.pure _) fun found => ?_
  exact .bind (moves_readdirLoop hR) fun _ => .early fun _ => moves_finishListing

lemma moves_addComment {newchain : Option Nat} {fp : Nat} : Moves (OnServer R) (addComment S newchain fp) := by
  refine .bind (moves_ensureDtOpened hR) fun rc => .ite (fun _ => .bind .get fun k => ?_) fun _ => .pure _
  refine .bind (.lift _) fun name => .bind (moves_getCommentSize hR) fun size => ?_
  exact .ite (fun _ => moves_addFp) fun _ => .pure _

lemma moves_appledoubleEntries {fp base newchain last : Option Nat} :
    Moves (OnServer R) (appledoubleEntries S rounds fp base newchain last) := by
  induction rounds generalizing fp base newchain last with
  | zero => exact .throw _
  | succ rounds ih =>
    cases fp with
    | none => exact .pure _
    | some fp =>
      refine .bind moves_addFp fun newchain => .bind (moves_addComment hR) fun newchain => .bind .get fun k => ?_
      refine .ite (fun _ => .bind (.pure base) fun _ => ?_) fun _ => .bind moves_removeFp fun _ => ?_
      · exact .bind .get fun k => ih
      · exact .bind .get fun k => ih

lemma moves_appledoubleReaddir : Moves (OnServer R) (appledoubleReaddir S m clock rounds fi path fb) := by
  refine .bind (.lift (extraTranslate m.toVolume path)) fun r => ?_
  obtain ⟨kind, newpath⟩ := r
  cases kind with
  | none => exact .pure _
  | finderinfo => exact .pure _
  | resource => exact .pure _
  | serverIcon => exact .pure _
  | comment => exact .pure _
  | appledouble =>
    refine .bind (moves_llReaddir hR) fun r => .bind (moves_appledoubleEntries hR) fun chains => ?_
    obtain ⟨base, newchain, last⟩ := chains
    dsimp only
    split
    · exact .bind (moves_modify fun _ => rfl) fun _ => .pure _
    · exact .pure _

lemma moves_mlReaddir : Moves (OnServer R) (mlReaddir S m clock rounds fi path fb) := by
  refine .bind_option (.lift _) (.pure _) fun converted => ?_
  refine .bind (moves_appledoubleReaddir hR) fun r => .early fun _ => ?_
  exact .early fun _ => moves_llReaddir hR

lemma moves_closeOwn {forkid : Nat} : Moves (OnServer R) (closeOwn S addr forkid) := by
  refine .bind (hR.carries.call rfl) fun a => .ite (fun _ => ?_) fun _ => .pure _
  exact .bind (moves_modify fun _ => rfl) fun _ => .pure _

lemma moves_mlReadlink {size : Nat} : Moves (OnServer R) (mlReadlink S m clock fi addr junk path size) := by
  refine .bind_option (.lift _) (.pure _) fun converted => ?_
  refine .bind hR.carries.locate fun place => .bind (hR.carries.call rfl) fun a => .early fun _ => ?_
  refine .bind (moves_modify fun _ => rfl) fun _ => .bind (hR.carries.call rfl) fun r => ?_
  refine .ite (fun _ => .throw _) fun _ => .early fun _ => ?_
  exact .bind (moves_closeOwn hR) fun ret => .early fun _ => .pure _

lemma moves_appledoubleClose : Moves (OnServer R) (appledoubleClose S fp) := by
  unfold appledoubleClose
  cases fp.resource with
  | none => exact .pure _
  | resource => exact .bind (hR.carries.call rfl) fun a => .early fun _ => .pure _
  | appledouble => exact .pure _
  | finderinfo => exact .pure _
  | comment => exact .pure _
  | serverIcon => exact .pure _

lemma moves_mlClose {fp : Option FileHandle} : Moves (OnServer R) (mlClose S m path fp) := by
  refine .bind_option (.lift _) (.pure _) fun converted => ?_
  refine .early fun _ => ?_
  cases fp with
  | none => exact .pure _
  | some fp => exact .ite (fun _ => moves_appledoubleClose hR) fun _ => moves_closeOwn hR

end Asking

section Refused
variable {fi fi' : FileInfo} {path : Bytes} {v : Volume}

omit [IsPreorder σ R] in
lemma moves_refused (hro : volumeIsReadonly v = true) {x y : Op σ α} (hx : Moves (OnServer R) x) :
    Moves (OnServer R) (if volumeIsReadonly v then x else y) :=
  .ite (fun _ => hx) fun h => absurd hro h

lemma moves_mlCreat (hro : volumeIsReadonly m.toVolume = true) {mode : UInt32} :
    Moves (OnServer R) (mlCreat S m clock fi path mode) := by
  exact .bind_option (.lift _) (.pure _) fun converted => moves_refused hro (.pure _)

lemma moves_mlSymlink (hro : volumeIsReadonly m.toVolume = true) {addr junk : Nat} {path1 path2 : Bytes} :
    Moves (OnServer R) (mlSymlink S m clock fi addr junk path1 path2) := by
  refine .early fun _ => .bind_option (.lift _) (.pure _) fun converted1 => ?_
  exact .bind_option (.lift _) (.pure _) fun converted2 => moves_refused hro (.pure _)

lemma moves_mlChmod (hro : volumeIsReadonly m.toVolume = true) {mode : UInt32} :
    Moves (OnServer R) (mlChmod S m clock fi path mode) :=
  .early fun _ => moves_refused hro (.pure _)

lemma moves_mlChown (hro : volumeIsReadonly m.toVolume = true) (uid gid : UInt32) :
    Moves (OnServer R) (mlChown S m clock fi path uid gid) := by
  refine .bind_option (.lift _) (.pure _) fun converted => ?_
  exact .early fun _ => moves_refused hro (.pure _)

lemma moves_mlUtime (hro : volumeIsReadonly m.toVolume = true) {modtime : UInt32} :
    Moves (OnServer R) (mlUtime S m clock fi path modtime) :=
  moves_refused hro (.pure _)

lemma moves_onClient_unchanged {f : Client σ → Except Fault (α × Client σ)}
    (hf : ∀ {k r k'}, f k = .ok (r, k') → k' = k) : Moves (OnServer R) (onClient f) := by
  refine moves_onClient fun k r k' h => ?_
  cases hf h
  exact refl k

lemma moves_onWorld {f : World σ → Except Fault (α × World σ)} (hf : ∀ {w r w'}, f w = .ok (r, w') → w' = w) :
    Moves (OnServer R) (onWorld f) := by
  intro k r k' h
  obtain ⟨⟨r', w⟩, hrun, heq⟩ := map_eq_ok h
  cases heq
  cases hf hrun
  exact refl k.peer

lemma ok_unchanged {τ : Type} {r r' : α} {t t' : τ} (h : (Except.ok (r, t) : Except Fault _) = .ok (r', t')) :
    t' = t := by
  cases h
  rfl

variable {N : NameServer σ} {w w' : World σ} {ret : Int} (hro : volumeIsReadonly v = true)
include hro

lemma mlMkdir_readonly (h : mlMkdir N v clock fi w path = .ok (ret, w')) : w' = w := by
  obtain ⟨converted, -, h⟩ := bind_eq_ok h
  cases converted with
  | none => exact ok_unchanged h
  | some converted =>
    dsimp only at h
    rw [if_pos hro] at h
    split at h
    · exact ok_unchanged h
    · exact ok_unchanged h

lemma mlRmdir_readonly (h : mlRmdir N v clock fi w path = .ok (ret, w')) : w' = w := by
  rw [mlRmdir] at h
  split at h
  · exact ok_unchanged h
  · obtain ⟨converted, -, h⟩ := bind_eq_ok h
    cases converted with
    | none => exact ok_unchanged h
    | some converted => exact ok_unchanged h

lemma mlUnlink_readonly (h : mlUnlink N v clock fi w path = .ok (ret, w')) : w' = w := by
  obtain ⟨converted, -, h⟩ := bind_eq_ok h
  cases converted with
  | none => exact ok_unchanged h
  | some converted =>
    dsimp only at h
    rw [if_pos hro] at h
    exact ok_unchanged h

lemma mlRename_readonly {pathFrom pathTo : Bytes}
    (h : mlRename N v clock fi fi' w pathFrom pathTo = .ok (ret, w')) : w' = w := by
  obtain ⟨convertedFrom, -, h⟩ := bind_eq_ok h
  cases convertedFrom with
  | none => exact ok_unchanged h
  | some convertedFrom =>
    obtain ⟨convertedTo, -, h⟩ := bind_eq_ok h
    cases convertedTo with
    | none => exact ok_unchanged h
    | some convertedTo =>
      dsimp only at h
      rw [if_pos hro] at h
      exact ok_unchanged h

variable {P : Peer σ} {k k' : Client σ} {offset : Nat}

lemma mlWrite_readonly {data : Bytes} {fp : FileHandle}
    (h : mlWrite P v k path data offset fp = .ok (ret, k')) : k' = k := by
  rw [mlWrite] at h
  split at h
  · exact ok_unchanged h
  · split at h
    · cases h
    · exact ok_unchanged h
    · exact ok_unchanged h

lemma mlTruncate_readonly (h : mlTruncate P v clock fi k path offset = .ok (ret, k')) : k' = k := by
  obtain ⟨converted, -, h⟩ := bind_eq_ok h
  cases converted with
  | none => exact ok_unchanged h
  | some converted =>
    dsimp only at h
    rw [if_pos hro] at h
    split at h
    · exact ok_unchanged h
    · exact ok_unchanged h

end Refused

theorem moves_perform (hR : Respects S R) (hro : volumeIsReadonly m.toVolume = true) (op : Operation) :
    Moves (OnServer R) (perform S m clock op) := by
  cases op with
  | «open» rounds fi fi' path flags => exact .map _ (moves_mlOpen hR hro)
  | creat fi path mode => exact moves_mlCreat hro
  | write path data offset fp => exact moves_onClient_unchanged (mlWrite_readonly hro)
  | truncate fi path offset => exact moves_onClient_unchanged (mlTruncate_readonly hro)
  | unlink fi path => exact moves_onWorld (mlUnlink_readonly hro)
  | mkdir fi path => exact moves_onWorld (mlMkdir_readonly hro)
  | rmdir fi path => exact moves_onWorld (mlRmdir_readonly hro)
  | rename fi fi' pathFrom pathTo => exact moves_onWorld (mlRename_readonly hro)
  | symlink fi addr junk path1 path2 => exact moves_mlSymlink hro
  | chmod fi path mode => exact moves_mlChmod hro
  | chown fi path uid gid => exact moves_mlChown hro uid gid
  | utime fi path modtime => exact moves_mlUtime hro
  | readdir rounds fi path fb => exact .map _ (moves_mlReaddir hR)
  | read path buf pos size offset fp => exact .map _ (moves_onClient fun _ _ _ h => onPeer_mlRead hR h)
  | readlink fi addr junk path size => exact .map _ (moves_mlReadlink hR)
  | getattr fi fi' path => exact .map _ (moves_mlGetattr hR)
  | close path fp => exact moves_mlClose hR

end Reads

section Record
variable {σ : Type} {S : Station σ} {m : Mount} {clock : Nat → Nat}

def Appends (p : Command × Answer → Prop) (s s' : σ × List (Command × Answer)) : Prop :=
  ∃ new, s'.2 = s.2 ++ new ∧ ∀ x ∈ new, p x

instance (p : Command × Answer → Prop) : IsPreorder (σ × List (Command × Answer)) (Appends p) where
  refl s := ⟨[], (List.append_nil s.2).symm, List.forall_mem_nil p⟩
  trans s s' s'' := by
    rintro ⟨new, h, hp⟩ ⟨new', h', hp'⟩
    refine ⟨new ++ new', by rw [h', h, List.append_assoc], fun x hx => ?_⟩
    rcases List.mem_append.mp hx with hx | hx
    · exact hp x hx
    · exact hp' x hx

lemma logged_respects : Respects S.logged (Appends fun x => x.1.modifies = false) := by
  intro s c hc
  exact ⟨[(c, (S.respond s.1 c).1)], rfl, fun x hx => by cases List.mem_singleton.mp hx; exact hc⟩

/-- On a read-only volume no operation sends a request that changes something. -/
theorem readonly_never_modified (S : Station σ) (m : Mount) (clock : Nat → Nat) (op : Operation)
    (k k' : State (σ × List (Command × Answer))) (ret : Int) (hro : volumeIsReadonly m.toVolume = true)
    (hrun : perform S.logged m clock op k = .ok (ret, k')) :
    ∃ sent, k'.peer.2 = k.peer.2 ++ sent ∧ ∀ x ∈ sent, x.1.modifies = false :=
  moves_perform logged_respects hro op hrun

def obliging : Station Unit where
  query _ _ _ := none
  respond s _ := (.ofCode kFPNoErr, s)

theorem readonly_never_modified_closing :
    let m : Mount := { Mount.plain with readOnly := true }
    let fp : FileHandle := ⟨0, 7, .none, 2, [97], [], false⟩
    ∃ k', perform obliging.logged m id (.close [47, 97] (some fp)) (.start ((), [])) = .ok (0, k') ∧
      k'.peer.2 = [(.fork (.closefork 7), .ofCode kFPNoErr)] ∧
      ∃ sent, k'.peer.2 = [] ++ sent ∧ ∀ x ∈ sent, x.1.modifies = false := by
  intro m fp
  have hrun : perform obliging.logged m id (.close [47, 97] (some fp)) (.start ((), [])) = .ok (0, _) := rfl
  exact ⟨_, hrun, rfl, readonly_never_modified obliging m id _ (.start ((), [])) _ 0 rfl hrun⟩

end Record

end AfpfsNg.Mid
