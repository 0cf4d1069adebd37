import AfpfsNg.Mid.Attributes

/-!
# Directory listings

`ll_readdir` (`lib/lowlevel.c`) asks for the entries of a directory in batches of 20, with `afp_enumerate` or
`afp_enumerateext2` (`lib/proto_directory.c`), and hangs the list of each reply behind the one it has. The
index of the next batch is counted by the nodes of the lists. `ml_readdir` (`lib/midlevel.c`) calls it, or for
a directory `.AppleDouble` `appledouble_readdir` (`lib/resource.c`). The names are converted back too, but into an array
that nothing reads, so this is left out.
-/

namespace AfpfsNg.Mid
open AfpfsNg.Base AfpfsNg.Afp AfpfsNg.Did AfpfsNg.Fork AfpfsNg.Proto

/-- The bits that `ll_readdir` asks for, of files and of directories. -/
def readdirFilebitmap (m : Mount) (resource : Bool) : Nat :=
  kFPAttributeBit ||| kFPParentDirIDBit ||| kFPCreateDateBit ||| kFPModDateBit ||| kFPBackupDateBit |||
    kFPNodeIDBit ||| (if m.supportsUnix then kFPUnixPrivsBit else 0) |||
    (if m.utf8Names then kFPUTF8NameBit else kFPLongNameBit ||| kFPShortNameBit) |||
    (if resource then kFPRsrcForkLenBit else if m.avNumber < 30 then kFPDataForkLenBit else kFPExtDataForkLenBit)

def readdirDirbitmap (m : Mount) : Nat :=
  kFPAttributeBit ||| kFPParentDirIDBit ||| kFPCreateDateBit ||| kFPModDateBit ||| kFPBackupDateBit |||
    kFPNodeIDBit ||| kFPOffspringCountBit ||| kFPOwnerIDBit ||| kFPGroupIDBit |||
    (if m.supportsUnix then kFPUnixPrivsBit else 0) |||
    (if m.utf8Names then kFPUTF8NameBit else kFPLongNameBit ||| kFPShortNameBit)

def reqcount : Nat := 20

/-- The index that goes into a request: 16 bits below AFP 3.0, 32 bits else. -/
def startindexField (m : Mount) (startindex : Nat) : Nat :=
  if m.avNumber < 30 then startindex % 2 ^ 16 else startindex % 2 ^ 32

def countNodes (next : Nat → Option Nat) : Nat → Option Nat → Nat → Option Nat → Option (Nat × Option Nat)
  | 0, _, _, _ => none
  | _ + 1, none, startindex, last => some (startindex, last)
  | rounds + 1, some p, startindex, _ => countNodes next rounds (next p) (startindex + 1) (some p)

def setPerms : Nat → Option Nat → Heap → Option Heap
  | 0, _, _ => none
  | _ + 1, none, h => some h
  | rounds + 1, some p, h =>
    let fp := h.info p
    let u := { fp.unixprivs with permissions := setNonunixPerms fp }
    setPerms rounds (h.next p) { h with info := Function.update h.info p { fp with unixprivs := u } }

section Code
variable {σ : Type} (S : Station σ) (m : Mount) (clock : Nat → Nat)

/-- C `afp_enumerate` and `afp_enumerateext2`: the result and `*file_p`. -/
def afpEnumerate (dirid filebitmap dirbitmap startindex : Nat) (pathname : Bytes) : Op σ (Int × Option Nat) := do
  let a ← call S (.enumerate (ext m.toVolume) dirid filebitmap dirbitmap reqcount (startindexField m startindex) pathname)
  if a.data = [] then return (a.code, none)
  else
    let h := (← get).heap
    match if ext m.toVolume then afpEnumerateext2Reply h a.data none else afpEnumerateReply h a.data none with
    | none => throw .overread
    | some ((_, files), h) =>
      modify fun k => { k with heap := h }
      return (a.code, files)

def hang (filebase last base : Option Nat) : Op σ (Option Nat) := do
  match filebase with
  | none => return base
  | some first =>
    match last with
    | none => throw .nullPointer
    | some last =>
      modify fun k => { k with heap := k.heap.link last base }
      return some first

/-- The codes after which `ll_readdir` returns an `errno`. -/
def readdirErrors : List (Int × Int) :=
  [(-1, EIO), (kFPAccessDenied, EACCES), (kFPBitmapErr, EIO), (kFPMiscErr, EIO), (kFPObjectTypeErr, EIO),
    (kFPParamErr, EIO), (kFPCallNotSupported, EIO)]

/-- The loop of `ll_readdir`: an `errno` or 0, and the list. A code that is not listed makes it ask again. -/
def readdirLoop (dirid : Nat) (basename : Bytes) (resource : Bool) :
    Nat → Option Nat → Option Nat → Nat → Op σ (Int × Option Nat)
  | 0, _, _, _ => throw .outOfFuel
  | rounds + 1, filebase, last, startindex => do
    let (rc, base) ← afpEnumerate S m dirid (readdirFilebitmap m resource) (readdirDirbitmap m) startindex basename
    if rc = kFPNoErr ∨ rc = kFPObjectNotFound then
      let filebase ← hang filebase last base
      match countNodes (← get).heap.next (rounds + 1) base startindex last with
      | none => throw .outOfFuel
      | some (startindex, last) =>
        if rc = kFPObjectNotFound then return (0, filebase)
        else readdirLoop dirid basename resource rounds filebase last startindex
    else if rc = kFPDirNotFound then return (0, filebase)
    else
      let ret := switch readdirErrors 0 rc
      if ret ≠ 0 then return (ret, filebase)
      else readdirLoop dirid basename resource rounds filebase last startindex

/-- The end of `ll_readdir`: the modes of the entries, if the server did not send them. -/
def finishListing (rounds : Nat) (filebase : Option Nat) : Op σ (Int × Option Nat) := do
  if m.avNumber < 30 then
    match setPerms rounds filebase (← get).heap with
    | none => throw .outOfFuel
    | some h =>
      modify fun k => { k with heap := h }
      return (0, filebase)
  else return (0, filebase)

/-- C `ll_readdir`: the result and `*fb`, which it leaves alone when it fails. -/
def llReaddir (rounds : Nat) (fi : FileInfo) (path : Bytes) (fb : Option Nat) (resource : Bool) :
    Op σ (Int × Option Nat) := do
  if invalidFilename m.toVolume path then return (-ENAMETOOLONG, fb)
  else
    match ← getDirid S clock fi path with
    | none => return (-ENOENT, fb)
    | some (dirid, basename) =>
      let (ret, filebase) ← readdirLoop S m dirid basename resource rounds none none 1
      if ret ≠ 0 then return (-ret, fb)
      else finishListing m rounds filebase

def cString (name : Bytes) : Except Fault Bytes :=
  match strchr 0 name with
  | none => .error .overread
  | some n => .ok (name.take n)

/-- C `add_fp`: a copy of the node `fp` in front of the list, with a longer name. -/
def addFp (newchain : Option Nat) (fp : Nat) (suffix : Bytes) : Op σ (Option Nat) := do
  let h := (← get).heap
  let i := h.info fp
  let name := (← cString i.name) ++ suffix
  if afpMaxPath ≤ name.length then throw .copyOverflow
  else
    let (newfp, h) := h.malloc
    let u := { i.unixprivs with permissions := i.unixprivs.permissions ||| S_IFREG }
    let h := h.fill newfp { i with name := zeroPadded afpMaxPath name, resourcesize := 32, unixprivs := u }
    modify fun k => { k with heap := h.link newfp newchain }
    return some newfp

/-- C `remove_fp`: nothing is assigned to `prev` before the node is found, so `*base` is set behind it. -/
def removeFp (rounds : Nat) (base : Option Nat) (toremove : Nat) : Op σ (Option Nat) := do
  let next := (← get).heap.next
  match search next (· == toremove) rounds base with
  | none => throw .outOfFuel
  | some none => return base
  | some (some fp) => return next fp

/-- The comment of an entry, in `appledouble_readdir`. -/
def addComment (newchain : Option Nat) (fp : Nat) : Op σ (Option Nat) := do
  let rc ← ensureDtOpened S
  if rc = 0 then
    let i := (← get).heap.info fp
    let name ← cString i.name
    let size ← getCommentSize S name i.did.toNat
    if 0 < size then addFp newchain fp commentString else return newchain
  else return newchain

/-- The loop of `appledouble_readdir`: `*base`, `newchain` and `last`. A node that was freed keeps its
contents. -/
def appledoubleEntries : Nat → Option Nat → Option Nat → Option Nat → Option Nat →
    Op σ (Option Nat × Option Nat × Option Nat)
  | 0, _, _, _, _ => throw .outOfFuel
  | _ + 1, none, base, newchain, last => return (base, newchain, last)
  | rounds + 1, some fp, base, newchain, _ => do
    let newchain ← addFp newchain fp finderinfoString
    let newchain ← addComment S newchain fp
    let i := (← get).heap.info fp
    let base ← if i.unixprivs.permissions &&& S_IFREG ≠ 0 ∧ i.resourcesize ≠ 0 then pure base
      else removeFp rounds base fp
    appledoubleEntries rounds ((← get).heap.next fp) base newchain (some fp)

def appledoubleReaddir (rounds : Nat) (fi : FileInfo) (path : Bytes) (base : Option Nat) : Op σ (Int × Option Nat) := do
  match ← extraTranslate m.toVolume path with
  | (.none, _) | (.finderinfo, _) => return (0, base)
  | (.resource, _) | (.serverIcon, _) | (.comment, _) => return (-ENOTDIR, base)
  | (.appledouble, newpath) =>
    let (_, base) ← llReaddir S m clock rounds fi newpath base true
    let (base, newchain, last) ← appledoubleEntries S rounds base base none none
    match newchain, last with
    | some _, some last =>
      modify fun k => { k with heap := k.heap.link last newchain }
      return (1, base)
    | _, _ => return (1, base)

/-- C `ml_readdir`: the result and `*fb`. -/
def mlReaddir (rounds : Nat) (fi : FileInfo) (path : Bytes) (fb : Option Nat) : Op σ (Int × Option Nat) := do
  match ← convertPathToAfp m.toVolume path with
  | none => return (-EINVAL, fb)
  | some convertedPath =>
    let (ret, fb) ← appledoubleReaddir S m clock rounds fi convertedPath fb
    if ret < 0 then return (ret, fb)
    else if ret = 1 then return (0, fb)
    else llReaddir S m clock rounds fi convertedPath fb false

end Code

variable {p : Option Nat} {rounds : Nat} {σ : Type} {m : Mount} {k : State σ}

lemma countNodes_chain {next : Nat → Option Nat} {last : Option Nat} {xs : List Nat} {i : Nat}
    (h : Chain next p xs) (hr : xs.length < rounds) :
    countNodes next rounds p i last = some (i + xs.length, xs.getLast?.or last) := by
  induction xs generalizing p last rounds i with
  | nil =>
    cases h
    obtain ⟨rounds, rfl⟩ := Nat.exists_eq_add_of_lt hr
    rfl
  | cons x xs ih =>
    cases h with
    | cons h =>
      obtain ⟨rounds, rfl⟩ := Nat.exists_eq_add_of_lt hr
      rw [countNodes, ih h (Nat.lt_of_succ_lt_succ hr), List.length_cons, List.getLast?_cons,
        Nat.add_right_comm i 1 xs.length]
      cases xs.getLast? with
      | none => rfl
      | some l => rfl

def withPerms (i : AfpFileInfo) : AfpFileInfo := { i with unixprivs.permissions := setNonunixPerms i }

lemma setPerms_chain {xs : List Nat} {h : Heap} (hc : Chain h.next p xs) (hr : xs.length < rounds) :
    ∃ h', setPerms rounds p h = some h' ∧ h'.next = h.next ∧ h'.mallocs = h.mallocs ∧
      (∀ a ∈ xs, h'.info a = withPerms (h.info a)) ∧ ∀ a ∉ xs, h'.info a = h.info a := by
  induction xs generalizing p rounds h with
  | nil =>
    cases hc
    obtain ⟨rounds, rfl⟩ := Nat.exists_eq_add_of_lt hr
    exact ⟨h, rfl, rfl, rfl, List.forall_mem_nil _, fun _ _ => rfl⟩
  | cons x xs ih =>
    have hnd := List.nodup_cons.mp hc.nodup
    cases hc with
    | cons hc =>
      obtain ⟨rounds, rfl⟩ := Nat.exists_eq_add_of_lt hr
      obtain ⟨h', hrun, hnext, hmallocs, hin, hout⟩ := ih
        (h := { h with info := Function.update h.info x (withPerms (h.info x)) }) hc (Nat.lt_of_succ_lt_succ hr)
      refine ⟨h', hrun, hnext, hmallocs, fun a ha => ?_, fun a ha => ?_⟩
      · rcases List.mem_cons.mp ha with rfl | ha
        · exact (hout a hnd.1).trans (Function.update_self ..)
        · have hne : a ≠ x := ne_of_mem_of_not_mem ha hnd.1
          exact (hin a ha).trans (congrArg withPerms (Function.update_of_ne hne ..))
      · rw [List.mem_cons, not_or] at ha
        exact (hout a ha.2).trans (Function.update_of_ne ha.1 ..)

/-- The encoding of an entry in the replies of the session. -/
def encodeEntry (m : Mount) : Entry → Bytes := if ext m.toVolume then Entry.bytesExt2 else Entry.bytes

def EntryFits (m : Mount) (e : Entry) : Prop :=
  if ext m.toVolume then 4 + e.block.length < 65536 else 2 + e.block.length < 256

instance (m : Mount) (e : Entry) : Decidable (EntryFits m e) :=
  inferInstanceAs (Decidable (if ext m.toVolume then 4 + e.block.length < 65536 else 2 + e.block.length < 256))

def maxEntries (m : Mount) : Nat := if m.avNumber < 30 then 65535 else 2 ^ 32 - 1

def enumerateFrom (m : Mount) (dirid : Nat) (basename : Bytes) (resource : Bool) (i : Nat) : Command :=
  .enumerate (ext m.toVolume) dirid (readdirFilebitmap m resource) (readdirDirbitmap m) reqcount i basename

/-- The server answers a request for the entries from `i` on with between one and 20 of them, and one beyond the last by
`kFPObjectNotFound`. -/
structure Enumerates {σ : Type} (S : Station σ) (m : Mount) (dirid : Nat) (basename : Bytes) (resource : Bool)
    (filebitmap dirbitmap : UInt16) (entries : List Entry) : Prop where
  batch : ∀ s i, 1 ≤ i → i ≤ entries.length → ∃ n header,
    1 ≤ n ∧ n ≤ reqcount ∧ i + n ≤ entries.length + 1 ∧ header.length = 16 ∧ slice header 4 4 = [0, 0, 0, 0] ∧
    (S.respond s (enumerateFrom m dirid basename resource i)).1.code = kFPNoErr ∧
    (S.respond s (enumerateFrom m dirid basename resource i)).1.data =
      enumerateReply (encodeEntry m) header filebitmap dirbitmap ((entries.drop (i - 1)).take n)
  done : ∀ s i, entries.length < i →
    (S.respond s (enumerateFrom m dirid basename resource i)).1.code = kFPObjectNotFound ∧
    ((S.respond s (enumerateFrom m dirid basename resource i)).1.data = [] ∨
      ∃ c, c ≠ 0 ∧ errorCode (S.respond s (enumerateFrom m dirid basename resource i)).1.data = some c)
  fits : ∀ e ∈ entries, EntryFits m e
  parses : ∀ e ∈ entries, (e.parse filebitmap.toNat dirbitmap.toNat).isSome

section Batch
variable {σ : Type} {S : Station σ} {m : Mount} {dirid : Nat} {basename : Bytes} {resource : Bool}
  {filebitmap dirbitmap : UInt16} {entries : List Entry} {infos : List AfpFileInfo}

lemma enumerateReply_spec {header : Bytes} (hheader : header.length = 16) (hcode : slice header 4 4 = [0, 0, 0, 0])
    (hcount : entries.length < 65536)
    (hparse : List.Forall₂ (fun e i => e.parse filebitmap.toNat dirbitmap.toNat = some i) entries infos)
    (hfits : ∀ e ∈ entries, EntryFits m e) (h : Heap) :
    let data := enumerateReply (encodeEntry m) header filebitmap dirbitmap entries
    ∃ p last h', (if ext m.toVolume then afpEnumerateext2Reply h data none else afpEnumerateReply h data none) =
      some ((0, p), h') ∧ Building h h' p last infos := by
  cases hext : ext m.toVolume with
  | true =>
    simp only [encodeEntry, EntryFits, hext] at hfits ⊢
    exact afpEnumerateext2Reply_spec hheader hcode hcount hparse hfits h none
  | false =>
    simp only [encodeEntry, EntryFits, hext] at hfits ⊢
    exact afpEnumerateReply_spec hheader hcode hcount hparse hfits h none

lemma startindexField_eq {i : Nat} (hi : i ≤ maxEntries m) : startindexField m i = i := by
  rw [maxEntries] at hi
  rw [startindexField]
  split
  case isTrue h =>
    rw [if_pos h] at hi
    exact Nat.mod_eq_of_lt (Nat.lt_succ_of_le hi)
  case isFalse h =>
    rw [if_neg h] at hi
    exact Nat.mod_eq_of_lt (Nat.lt_of_le_of_lt hi (by decide))

variable (S dirid basename resource) in
lemma afpEnumerate_run {i : Nat} (hi : i ≤ maxEntries m) (k : State σ) :
    let a := (S.respond k.peer (enumerateFrom m dirid basename resource i)).1
    let k' := { k with peer := (S.respond k.peer (enumerateFrom m dirid basename resource i)).2 }
    afpEnumerate S m dirid (readdirFilebitmap m resource) (readdirDirbitmap m) i basename k =
      if a.data = [] then .ok ((a.code, none), k')
      else
        match if ext m.toVolume then afpEnumerateext2Reply k.heap a.data none
          else afpEnumerateReply k.heap a.data none with
        | none => .error .overread
        | some ((_, files), h) => .ok ((a.code, files), { k' with heap := h }) := by
  intro a k'
  have hcall : call S (enumerateFrom m dirid basename resource i) k = .ok (a, k') := rfl
  rw [afpEnumerate, startindexField_eq hi]
  unfold enumerateFrom at hcall
  rw [run_bind_ok hcall]
  split
  · rfl
  · rw [run_bind_ok rfl]
    cases hr : (if ext m.toVolume then afpEnumerateext2Reply k'.heap a.data none
        else afpEnumerateReply k'.heap a.data none) with
    | none => rfl
    | some r => rfl

lemma afpEnumerate_batch (hS : Enumerates S m dirid basename resource filebitmap dirbitmap entries)
    (hparse : List.Forall₂ (fun e i => e.parse filebitmap.toNat dirbitmap.toNat = some i) entries infos)
    (k : State σ) {done : Nat} (hdone : done < entries.length) (hmax : entries.length < maxEntries m) :
    ∃ n p last k', 1 ≤ n ∧ n ≤ reqcount ∧ done + n ≤ entries.length ∧
      afpEnumerate S m dirid (readdirFilebitmap m resource) (readdirDirbitmap m) (done + 1) basename k =
        .ok ((kFPNoErr, p), k') ∧
      Building k.heap k'.heap p last ((infos.drop done).take n) := by
  obtain ⟨n, header, hpos, hle, hend, hheader, hcode, hrc, hdata⟩ := hS.batch k.peer (done + 1) (by omega) hdone
  have hcount : ((entries.drop done).take n).length < 65536 := by
    rw [List.length_take]
    exact Nat.lt_of_le_of_lt (Nat.min_le_left ..) (Nat.lt_of_le_of_lt hle (by decide))
  have hfits : ∀ e ∈ (entries.drop done).take n, EntryFits m e := fun e he =>
    hS.fits e (List.mem_of_mem_drop (List.mem_of_mem_take he))
  obtain ⟨p, last, h', hrun, hb⟩ := enumerateReply_spec hheader hcode hcount
    (List.forall₂_take n (List.forall₂_drop done hparse)) hfits k.heap
  have hne : enumerateReply (encodeEntry m) header filebitmap dirbitmap ((entries.drop done).take n) ≠ [] := by
    intro hnil
    rw [enumerateReply, List.append_eq_nil_iff] at hnil
    exact absurd (hheader.symm.trans (congrArg List.length hnil.1)) (by decide)
  have hdata' : (S.respond k.peer (enumerateFrom m dirid basename resource (done + 1))).1.data =
      enumerateReply (encodeEntry m) header filebitmap dirbitmap ((entries.drop done).take n) := hdata
  have hi : done + 1 ≤ maxEntries m := Nat.le_of_lt (Nat.lt_of_le_of_lt hdone hmax)
  have hrun' := afpEnumerate_run S dirid basename resource hi k
  simp only [hdata', if_neg hne, hrun, hrc] at hrun'
  exact ⟨n, p, last, _, hpos, hle, by omega, hrun', hb⟩

lemma enumerateReply_error {data : Bytes} {c : Int} (hc : c ≠ 0) (hcode : errorCode data = some c) (h : Heap) :
    (if ext m.toVolume then afpEnumerateext2Reply h data none else afpEnumerateReply h data none) =
      some ((c, none), h) := by
  split
  · rw [afpEnumerateext2Reply, hcode]
    exact if_pos hc
  · rw [afpEnumerateReply, hcode]
    exact if_pos hc

lemma afpEnumerate_done (hS : Enumerates S m dirid basename resource filebitmap dirbitmap entries) (k : State σ)
    (hmax : entries.length < maxEntries m) :
    ∃ k', afpEnumerate S m dirid (readdirFilebitmap m resource) (readdirDirbitmap m) (entries.length + 1) basename k =
      .ok ((kFPObjectNotFound, none), k') ∧ k'.heap = k.heap := by
  obtain ⟨hrc, hdata⟩ := hS.done k.peer (entries.length + 1) (Nat.lt_succ_self _)
  have hrun := afpEnumerate_run S dirid basename resource hmax k
  rcases hdata with hdata | ⟨c, hc, hcode⟩
  · simp only [hdata, if_pos, hrc] at hrun
    exact ⟨_, hrun, rfl⟩
  · have hne : (S.respond k.peer (enumerateFrom m dirid basename resource (entries.length + 1))).1.data ≠ [] := by
      intro hnil
      rw [hnil] at hcode
      cases hcode
    simp only [if_neg hne, enumerateReply_error hc hcode, hrc] at hrun
    exact ⟨_, hrun, rfl⟩

lemma hang_spec {h₀ h : Heap} {filebase last base last' : Option Nat} {old new : List AfpFileInfo} {k : State σ}
    (hb : Building h₀ h filebase last old) (hb' : Building h k.heap base last' new) :
    ∃ filebase' k', hang filebase last base k = .ok (filebase', k') ∧
      Building h₀ k'.heap filebase' (last'.or last) (old ++ new) ∧
      ∀ rounds i, new.length < rounds →
        countNodes k'.heap.next rounds base i last = some (i + new.length, last'.or last) := by
  obtain ⟨ys, ⟨hchain, hnew⟩, hlast, hrange⟩ := hb'.lists
  have hlen : ys.length = new.length := by rw [← hnew, List.length_map]
  rcases hb.ends with ⟨rfl, rfl⟩ | ⟨first, l, rfl, rfl⟩
  · refine ⟨base, k, rfl, ?_, fun rounds i hr => ?_⟩
    · rw [Option.or_none]
      exact hb.fresh hb'
    · rw [countNodes_chain hchain (hlen ▸ hr), hlen, hlast]
  · refine ⟨some first, { k with heap := k.heap.link l base }, rfl, hb.hang hb', fun rounds i hr => ?_⟩
    obtain ⟨xs, -, hlast', hrange'⟩ := hb.lists
    have hnot : l ∉ ys := fun hmem =>
      Nat.not_le_of_lt (hrange' l (List.mem_of_getLast? hlast')).2 (hrange l hmem).1
    have hchain' : Chain (k.heap.link l base).next base ys := Segment.update hchain hnot
    show countNodes (k.heap.link l base).next rounds base i (some l) = _
    rw [countNodes_chain hchain' (hlen ▸ hr), hlen, hlast]

lemma readdirLoop_succ {rc : Int} {rounds i i' : Nat} {filebase last base filebase' last' : Option Nat}
    {k k₁ k₂ : State σ} (hrc : rc = kFPNoErr ∨ rc = kFPObjectNotFound)
    (hrun : afpEnumerate S m dirid (readdirFilebitmap m resource) (readdirDirbitmap m) i basename k =
      .ok ((rc, base), k₁))
    (hhang : hang filebase last base k₁ = .ok (filebase', k₂))
    (hcount : countNodes k₂.heap.next (rounds + 1) base i last = some (i', last')) :
    readdirLoop S m dirid basename resource (rounds + 1) filebase last i k =
      if rc = kFPObjectNotFound then .ok ((0, filebase'), k₂)
      else readdirLoop S m dirid basename resource rounds filebase' last' i' k₂ := by
  rw [readdirLoop, run_bind_ok hrun]
  simp only [if_pos hrc]
  rw [run_bind_ok hhang, run_bind_ok rfl]
  simp only [hcount]
  split
  · rfl
  · rfl

/-- The loop of `ll_readdir`, with the first `done` entries in the list: it comes to the end, and then all are in it. -/
lemma readdirLoop_spec (hS : Enumerates S m dirid basename resource filebitmap dirbitmap entries)
    (hparse : List.Forall₂ (fun e i => e.parse filebitmap.toNat dirbitmap.toNat = some i) entries infos)
    (hmax : entries.length < maxEntries m) {h₀ : Heap} {rounds done : Nat} {filebase last : Option Nat} {k : State σ}
    (hdone : done ≤ entries.length) (hrounds : entries.length - done + reqcount + 1 ≤ rounds)
    (hb : Building h₀ k.heap filebase last (infos.take done)) :
    ∃ p last' k', readdirLoop S m dirid basename resource rounds filebase last (done + 1) k = .ok ((0, p), k') ∧
      Building h₀ k'.heap p last' infos := by
  have hlen : entries.length = infos.length := hparse.length_eq
  induction rounds generalizing done filebase last k with
  | zero => omega
  | succ rounds ih =>
    rcases Nat.lt_or_eq_of_le hdone with hlt | rfl
    · obtain ⟨n, base, last', k₁, hpos, hle, hend, hrun, hnew⟩ := afpEnumerate_batch hS hparse k hlt hmax
      obtain ⟨filebase', k₂, hhang, hall, hcount⟩ := hang_spec hb hnew
      have hn : ((infos.drop done).take n).length = n := by
        rw [List.length_take, List.length_drop]
        omega
      rw [hn] at hcount
      rw [← List.take_add] at hall
      obtain ⟨p, last'', k', hrest, hb'⟩ := ih hend (by omega) hall
      refine ⟨p, last'', k', ?_, hb'⟩
      rw [readdirLoop_succ (.inl rfl) hrun hhang (hcount _ _ (by omega)), if_neg (by decide),
        Nat.add_right_comm done 1 n]
      exact hrest
    · obtain ⟨k₁, hrun, hheap⟩ := afpEnumerate_done hS k hmax
      have hnone : Building k.heap k₁.heap none none [] := by
        rw [hheap]
        exact Building.start k.heap
      obtain ⟨filebase', k₂, hhang, hall, hcount⟩ := hang_spec hb hnone
      rw [List.append_nil, hlen, List.take_length] at hall
      refine ⟨filebase', _, k₂, ?_, hall⟩
      rw [readdirLoop_succ (.inr rfl) hrun hhang (hcount _ _ (Nat.succ_pos _)), if_pos rfl]

end Batch

def asListed (m : Mount) (i : AfpFileInfo) : AfpFileInfo := if m.avNumber < 30 then withPerms i else i

lemma finishListing_spec {h₀ : Heap} {last : Option Nat} {infos : List AfpFileInfo}
    (hb : Building h₀ k.heap p last infos) (hrounds : infos.length < rounds) :
    ∃ xs k', finishListing m rounds p k = .ok ((0, p), k') ∧ Chain k'.heap.next p xs ∧ (∀ a ∈ xs, a < k'.heap.mallocs) ∧
      xs.map k'.heap.info = infos.map (asListed m) := by
  obtain ⟨xs, ⟨hchain, hinfos⟩, -, hmade⟩ := hb.lists
  have hlen : xs.length < rounds := by
    rw [← hinfos, List.length_map] at hrounds
    exact hrounds
  rw [finishListing, ← hinfos, List.map_map]
  split
  case isTrue hav =>
    obtain ⟨h', hset, hnext, hmallocs, hin, -⟩ := setPerms_chain hchain hlen
    refine ⟨xs, { k with heap := h' }, ?_, ?_, fun a ha => hmallocs ▸ (hmade a ha).2, ?_⟩
    · rw [run_bind_ok rfl]
      simp only [hset]
      rfl
    · show Chain h'.next p xs
      rw [hnext]
      exact hchain
    · apply List.map_congr_left
      intro a ha
      show h'.info a = asListed m (k.heap.info a)
      rw [hin a ha, asListed, if_pos hav]
  case isFalse hav =>
    refine ⟨xs, k, rfl, hchain, fun a ha => (hmade a ha).2, List.map_congr_left fun a _ => ?_⟩
    show k.heap.info a = asListed m (k.heap.info a)
    rw [asListed, if_neg hav]

lemma getDirid_run {S : Station σ} {clock : Nat → Nat} {fi : FileInfo} {path : Bytes}
    {r : Option (Nat × Bytes)} {c : DidCache} (h : Did.getDirid (S.query k.peer) clock fi k.cache path = .ok (r, c)) :
    getDirid S clock fi path k = .ok (r, { k with cache := c }) := by
  have hrun : k.toClient.getDirid S.peer clock fi path = .ok (r, { k.toClient with cache := c }) := by
    rw [Client.getDirid, show S.peer.query = S.query from rfl, h]
    rfl
  rw [getDirid, onClient, hrun]
  rfl

lemma llReaddir_spec {S : Station σ} (clock : Nat → Nat) {fi : FileInfo} {path : Bytes}
    (fb : Option Nat) {resource : Bool} (hvalid : invalidFilename m.toVolume path = false)
    {dirid : Nat} {basename : Bytes} {c : DidCache}
    (hdir : Did.getDirid (S.query k.peer) clock fi k.cache path = .ok (some (dirid, basename), c))
    {filebitmap dirbitmap : UInt16} {entries : List Entry}
    (hS : Enumerates S m dirid basename resource filebitmap dirbitmap entries) (hmax : entries.length < maxEntries m)
    (hrounds : entries.length + reqcount + 1 ≤ rounds) :
    ∃ p xs k' infos, llReaddir S m clock rounds fi path fb resource k = .ok ((0, p), k') ∧ Chain k'.heap.next p xs ∧
      (∀ a ∈ xs, a < k'.heap.mallocs) ∧
      List.Forall₂ (fun e i => e.parse filebitmap.toNat dirbitmap.toNat = some i) entries infos ∧
      xs.map k'.heap.info = infos.map (asListed m) := by
  obtain ⟨infos, hparse⟩ := exists_infos hS.parses
  have hlen : entries.length = infos.length := hparse.length_eq
  have hnone : Building k.heap { k with cache := c }.heap none none (infos.take 0) := Building.start k.heap
  obtain ⟨p, last, k₁, hloop, hb⟩ := readdirLoop_spec hS hparse hmax (Nat.zero_le _) hrounds hnone
  obtain ⟨xs, k', hfinish, hchain, hmade, hinfos⟩ := finishListing_spec (m := m) hb (show infos.length < rounds by omega)
  refine ⟨p, xs, k', infos, ?_, hchain, hmade, hparse, hinfos⟩
  rw [llReaddir, hvalid, if_neg Bool.false_ne_true, run_bind_ok (getDirid_run hdir)]
  show (readdirLoop S m dirid basename resource rounds none none 1 >>= _) _ = _
  rw [run_bind_ok hloop]
  exact hfinish

/-- A server that sends the entries of a directory one by one. -/
def oneByOne (m : Mount) (filebitmap dirbitmap : UInt16) (entries : List Entry) : Station Unit where
  query _ _ _ := none
  respond _
    | .enumerate _ _ _ _ _ i _ =>
      if i ≤ entries.length then
        (⟨⟨kFPNoErr, 0, enumerateReply (encodeEntry m) (List.replicate 16 0) filebitmap dirbitmap
          ((entries.drop (i - 1)).take 1), 0⟩, AfpFileInfo.zero⟩, ())
      else (.ofCode kFPObjectNotFound, ())
    | _ => (.ofCode kFPParamErr, ())

lemma oneByOne_enumerates {filebitmap dirbitmap : UInt16} {entries : List Entry} (dirid : Nat)
    (basename : Bytes) (resource : Bool) (hfits : ∀ e ∈ entries, EntryFits m e)
    (hparse : ∀ e ∈ entries, (e.parse filebitmap.toNat dirbitmap.toNat).isSome) :
    Enumerates (oneByOne m filebitmap dirbitmap entries) m dirid basename resource filebitmap dirbitmap entries where
  batch := by
    intro s i hpos hi
    refine ⟨1, List.replicate 16 0, Nat.le_refl 1, by decide, Nat.succ_le_succ hi, rfl, rfl, ?_, ?_⟩
    · simp only [oneByOne, enumerateFrom, if_pos hi]
    · simp only [oneByOne, enumerateFrom, if_pos hi]
  done := by
    intro s i hi
    simp only [oneByOne, enumerateFrom, if_neg (Nat.not_le_of_lt hi)]
    exact ⟨rfl, .inl rfl⟩
  fits := hfits
  parses := hparse

end AfpfsNg.Mid
