import AfpfsNg.Base.Links
import AfpfsNg.Proto.ReplyBlock

/-!
# Replies to FPEnumerate and FPEnumerateExt2

The two handlers of `lib/proto_directory.c` turn a reply into a linked list of `struct afp_file_info`.
Nodes live in a `Heap`, whose addresses are given out by `malloc` one after the other. `parse_reply_block` clears the whole
node, its `next` included. `none` is a read behind the end of the packet, or a write through `NULL`. The return value of a
handler comes with the value of the caller's `*x`.
-/

namespace AfpfsNg.Proto
open AfpfsNg.Base AfpfsNg.Afp

structure Heap where
  info : Nat → AfpFileInfo
  next : Nat → Option Nat
  mallocs : Nat

def Heap.malloc (h : Heap) : Nat × Heap := (h.mallocs, { h with mallocs := h.mallocs + 1 })

def Heap.link (h : Heap) (a : Nat) (b : Option Nat) : Heap := { h with next := Function.update h.next a b }

def Heap.fill (h : Heap) (a : Nat) (i : AfpFileInfo) : Heap :=
  { h with info := Function.update h.info a i, next := Function.update h.next a none }

/-- `header.return_code.error_code`, which nothing has converted from network byte order. -/
def errorCode (buf : Bytes) : Option Int := (fetch buf 4 4).map fun bs => int32 (beNat bs.reverse)

def enumerateLoop (buf : Bytes) (filebitmap dirbitmap : Nat) (x : Option Nat) :
    Nat → Nat → Option Nat → Option Nat → Heap → Option ((Int × Option Nat) × Heap)
  | 0, _, filebase, _, h => some ((0, filebase), h)
  | i + 1, p, filebase, filecur, h =>
    if buf.length < p then some ((-1, x), h)
    else do
      let prev := filecur
      let (filecur, h) := h.malloc
      let (filebase, h) ←
        match filebase, prev with
        | none, _ => some (filecur, h)
        | some filebase, some prev => some (filebase, h.link prev (some filecur))
        | some _, none => none
      let size ← buf[p]?
      let isdir ← buf[p + 1]?
      let info ← parseReplyBlock (buf.drop (p + 2)) isdir filebitmap dirbitmap
      enumerateLoop buf filebitmap dirbitmap x i (p + size.toNat) (some filebase) (some filecur)
        (h.fill filecur info)

def afpEnumerateReply (h : Heap) (buf : Bytes) (x : Option Nat) : Option ((Int × Option Nat) × Heap) := do
  let code ← errorCode buf
  if code ≠ 0 then return ((code, x), h)
  if buf.length < 22 then return ((-1, x), h)
  enumerateLoop buf (beNat (slice buf 16 2)) (beNat (slice buf 18 2)) x (beNat (slice buf 20 2)) 22 none none h

def enumerateext2Loop (buf : Bytes) (filebitmap dirbitmap : Nat) :
    Nat → Nat → Option Nat → Option Nat → Heap → Option ((Int × Option Nat) × Heap)
  | 0, _, filebase, _, h => some ((0, filebase), h)
  | i + 1, p, filebase, filecur, h => do
    let (newFile, h) := h.malloc
    let h := h.link newFile none
    let (filebase, h) :=
      match filecur with
      | some filecur => (filebase, h.link filecur (some newFile))
      | none => (some newFile, h)
    let size ← fetch buf p 2
    let isdir ← buf[p + 2]?
    let info ← parseReplyBlock (buf.drop (p + 4)) isdir filebitmap dirbitmap
    enumerateext2Loop buf filebitmap dirbitmap i (p + beNat size) filebase (some newFile)
      (h.fill newFile info)

def afpEnumerateext2Reply (h : Heap) (buf : Bytes) (x : Option Nat) : Option ((Int × Option Nat) × Heap) := do
  let code ← errorCode buf
  if code ≠ 0 then return ((code, x), h)
  if buf.length < 22 then return ((-1, x), h)
  enumerateext2Loop buf (beNat (slice buf 16 2)) (beNat (slice buf 18 2)) (beNat (slice buf 20 2)) 22 none none h

structure Entry where
  isdir : UInt8
  pad : UInt8
  block : Bytes
  deriving DecidableEq, Repr

def Entry.parse (filebitmap dirbitmap : Nat) (e : Entry) : Option AfpFileInfo :=
  parseReplyBlock e.block e.isdir filebitmap dirbitmap

def Entry.bytes (e : Entry) : Bytes := UInt8.ofNat (2 + e.block.length) :: e.isdir :: e.block

def Entry.bytesExt2 (e : Entry) : Bytes := beBytes 2 (4 + e.block.length) ++ (e.isdir :: e.pad :: e.block)

def enumerateReply (encode : Entry → Bytes) (header : Bytes) (filebitmap dirbitmap : UInt16)
    (entries : List Entry) : Bytes :=
  header ++ (beBytes 2 filebitmap.toNat ++ (beBytes 2 dirbitmap.toNat ++
    (beBytes 2 entries.length ++ entries.flatMap encode)))

/-- From `p` on one finds the nodes `xs` with the given contents. -/
def Heap.Lists (h : Heap) (p : Option Nat) (xs : List Nat) (infos : List AfpFileInfo) : Prop :=
  Chain h.next p xs ∧ xs.map h.info = infos

/-- A new node with contents `i`, hung behind the node `last` if there is one. -/
def Heap.append (h : Heap) (last : Option Nat) (i : AfpFileInfo) : Heap :=
  match last with
  | none => h.malloc.2.fill h.mallocs i
  | some last => (h.malloc.2.link last (some h.mallocs)).fill h.mallocs i

/-- The list under construction: its nodes are new, the others are as they were in `h₀`. -/
structure Building (h₀ h : Heap) (filebase filecur : Option Nat) (infos : List AfpFileInfo) : Prop where
  lists : ∃ xs, h.Lists filebase xs infos ∧ xs.getLast? = filecur ∧ ∀ a ∈ xs, h₀.mallocs ≤ a ∧ a < h.mallocs
  grows : h₀.mallocs ≤ h.mallocs
  old : ∀ a < h₀.mallocs, h.next a = h₀.next a ∧ h.info a = h₀.info a

variable {h₀ h : Heap} {filebase filecur : Option Nat} {infos : List AfpFileInfo}

lemma Building.start (h : Heap) : Building h h none none [] where
  lists := ⟨[], ⟨.nil, rfl⟩, rfl, List.forall_mem_nil _⟩
  grows := Nat.le_refl _
  old := fun _ _ => ⟨rfl, rfl⟩

lemma Building.ends (hb : Building h₀ h filebase filecur infos) :
    (filebase = none ∧ filecur = none) ∨ ∃ first last, filebase = some first ∧ filecur = some last := by
  obtain ⟨xs, ⟨hchain, -⟩, hlast, -⟩ := hb.lists
  cases hchain with
  | nil => exact .inl ⟨rfl, hlast.symm⟩
  | @cons a xs =>
    rw [List.getLast?_cons] at hlast
    exact .inr ⟨a, _, rfl, hlast.symm⟩

lemma Building.isSome_eq (hb : Building h₀ h filebase filecur infos) : filebase.isSome = filecur.isSome := by
  rcases hb.ends with ⟨rfl, rfl⟩ | ⟨first, last, rfl, rfl⟩
  · rfl
  · rfl

lemma Building.append (hb : Building h₀ h filebase filecur infos) (i : AfpFileInfo) :
    Building h₀ (h.append filecur i) (some (filebase.getD h.mallocs)) (some h.mallocs) (infos ++ [i]) := by
  obtain ⟨xs, ⟨hchain, hinfos⟩, hlast, hrange⟩ := hb.lists
  have hnew : h.mallocs ∉ xs := fun hmem => Nat.lt_irrefl _ (hrange _ hmem).2
  have hmap : xs.map (Function.update h.info h.mallocs i) = infos := by
    rw [← hinfos]
    apply List.map_congr_left
    intro a ha
    exact Function.update_of_ne (Nat.ne_of_lt (hrange a ha).2) ..
  have hcontents : (xs ++ [h.mallocs]).map (Function.update h.info h.mallocs i) = infos ++ [i] := by
    rw [List.map_append, hmap, List.map_singleton, Function.update_self]
  have hrange' : ∀ a ∈ xs ++ [h.mallocs], h₀.mallocs ≤ a ∧ a < h.mallocs + 1 := by
    intro a ha
    rcases List.mem_append.mp ha with ha | ha
    · exact ⟨(hrange a ha).1, Nat.lt_succ_of_lt (hrange a ha).2⟩
    · rw [List.mem_singleton.mp ha]
      exact ⟨hb.grows, Nat.lt_succ_self _⟩
  have hold : ∀ a < h₀.mallocs, a ≠ h.mallocs := fun a ha => Nat.ne_of_lt (Nat.lt_of_lt_of_le ha hb.grows)
  cases filecur with
  | none =>
    cases List.getLast?_eq_none_iff.mp hlast
    cases hchain
    refine ⟨⟨[h.mallocs], ⟨Chain.push .nil List.not_mem_nil, hcontents⟩, rfl, hrange'⟩, Nat.le_succ_of_le hb.grows, fun a ha => ?_⟩
    exact ⟨(Function.update_of_ne (hold a ha) ..).trans (hb.old a ha).1,
      (Function.update_of_ne (hold a ha) ..).trans (hb.old a ha).2⟩
  | some last =>
    obtain ⟨ys, rfl⟩ := List.getLast?_eq_some_iff.mp hlast
    have hlastmem : last ∈ ys ++ [last] := List.mem_append_right _ (List.mem_singleton_self last)
    obtain ⟨first, hfirst⟩ : ∃ first, filebase = some first := by
      rcases hb.ends with ⟨-, hnone⟩ | ⟨first, -, hfirst, -⟩
      · cases hnone
      · exact ⟨first, hfirst⟩
    subst hfirst
    refine ⟨⟨_, ⟨hchain.concat hnew, hcontents⟩, List.getLast?_concat, hrange'⟩, Nat.le_succ_of_le hb.grows, fun a ha => ?_⟩
    have hlast' : a ≠ last := Nat.ne_of_lt (Nat.lt_of_lt_of_le ha (hrange last hlastmem).1)
    exact ⟨((Function.update_of_ne (hold a ha) ..).trans (Function.update_of_ne hlast' ..)).trans (hb.old a ha).1,
      (Function.update_of_ne (hold a ha) ..).trans (hb.old a ha).2⟩

section Hang
variable {h' : Heap} {base last' : Option Nat} {new : List AfpFileInfo} {first l : Nat}

lemma Building.keep (hb : Building h₀ h filebase filecur infos) (hb' : Building h h' base last' new) :
    Building h₀ h' filebase filecur infos where
  lists := by
    obtain ⟨xs, ⟨hchain, hinfos⟩, hlast, hrange⟩ := hb.lists
    refine ⟨xs, ⟨hchain.congr fun a ha => (hb'.old a (hrange a ha).2).1, ?_⟩, hlast, fun a ha => ?_⟩
    · rw [← hinfos]
      exact List.map_congr_left fun a ha => (hb'.old a (hrange a ha).2).2
    · exact ⟨(hrange a ha).1, Nat.lt_of_lt_of_le (hrange a ha).2 hb'.grows⟩
  grows := hb.grows.trans hb'.grows
  old := by
    intro a ha
    obtain ⟨hnext, hinfo⟩ := hb'.old a (Nat.lt_of_lt_of_le ha hb.grows)
    exact ⟨hnext.trans (hb.old a ha).1, hinfo.trans (hb.old a ha).2⟩

lemma Building.fresh (hb : Building h₀ h none filecur infos) (hb' : Building h h' base last' new) :
    Building h₀ h' base last' (infos ++ new) where
  lists := by
    obtain ⟨xs, ⟨hchain, rfl⟩, -, -⟩ := hb.lists
    cases hchain
    obtain ⟨ys, hlists, hlast, hrange⟩ := hb'.lists
    exact ⟨ys, hlists, hlast, fun a ha => ⟨hb.grows.trans (hrange a ha).1, (hrange a ha).2⟩⟩
  grows := hb.grows.trans hb'.grows
  old := (hb.keep hb').old

lemma Building.hang (hb : Building h₀ h (some first) (some l) infos) (hb' : Building h h' base last' new) :
    Building h₀ (h'.link l base) (some first) (last'.or (some l)) (infos ++ new) := by
  obtain ⟨xs, ⟨-, -⟩, hlast, hrange⟩ := hb.lists
  obtain ⟨xs', ⟨hchain, hinfos⟩, hlast', hrange'⟩ := (hb.keep hb').lists
  obtain ⟨ys, ⟨hchainNew, hnew⟩, hlastNew, hrangeNew⟩ := hb'.lists
  obtain ⟨xs', rfl⟩ := List.getLast?_eq_some_iff.mp hlast'
  have hl : l < h.mallocs := (hrange l (List.mem_of_getLast? hlast)).2
  have hmem : l ∈ xs' ++ [l] := List.mem_append_right _ (List.mem_singleton_self l)
  have hnot : l ∉ ys := fun hmem' => Nat.not_le_of_lt hl (hrangeNew l hmem').1
  have hsplit : xs' ++ l :: ys = (xs' ++ [l]) ++ ys := (List.append_assoc xs' [l] ys).symm
  refine ⟨⟨xs' ++ l :: ys, ⟨hchain.splice hchainNew hnot, ?_⟩, ?_, ?_⟩, hb.grows.trans hb'.grows, ?_⟩
  · rw [hsplit, List.map_append]
    exact congrArg₂ _ hinfos hnew
  · rw [hsplit, List.getLast?_append, hlastNew, List.getLast?_concat]
  · rw [hsplit]
    intro a ha
    rcases List.mem_append.mp ha with ha | ha
    · exact hrange' a ha
    · exact ⟨hb.grows.trans (hrangeNew a ha).1, (hrangeNew a ha).2⟩
  · intro a ha
    obtain ⟨hnext, hinfo⟩ := (hb.keep hb').old a ha
    have hne : a ≠ l := Nat.ne_of_lt (Nat.lt_of_lt_of_le ha (hrange' l hmem).1)
    exact ⟨(Function.update_of_ne hne ..).trans hnext, hinfo⟩

end Hang

variable {filebitmap dirbitmap : Nat} {i : AfpFileInfo} {entries : List Entry} {header : Bytes}

lemma parseReplyBlock_append_right {block : Bytes} {isdir : UInt8} (rest : Bytes)
    (h : parseReplyBlock block isdir filebitmap dirbitmap = some i) :
    parseReplyBlock (block ++ rest) isdir filebitmap dirbitmap = some i :=
  readFields_append_right rest h

lemma enumerateLoop_succ (hends : filebase.isSome = filecur.isSome) (buf : Bytes) (filebitmap dirbitmap : Nat)
    (x : Option Nat) (n : Nat) {p : Nat} (hp : ¬ buf.length < p) (h : Heap) :
    enumerateLoop buf filebitmap dirbitmap x (n + 1) p filebase filecur h = (do
      let size ← buf[p]?
      let isdir ← buf[p + 1]?
      let info ← parseReplyBlock (buf.drop (p + 2)) isdir filebitmap dirbitmap
      enumerateLoop buf filebitmap dirbitmap x n (p + size.toNat) (some (filebase.getD h.mallocs))
        (some h.mallocs) (h.append filecur info)) := by
  rw [enumerateLoop, if_neg hp]
  match filebase, filecur, hends with
  | none, none, _ => rfl
  | some first, some last, _ => rfl

lemma Building.enumerate_step (hb : Building h₀ h filebase filecur infos) {e : Entry} (x : Option Nat)
    (hsize : 2 + e.block.length < 256) (hi : e.parse filebitmap dirbitmap = some i) (pre rest : Bytes) (n : Nat) :
    let buf := pre ++ (e.bytes ++ rest)
    enumerateLoop buf filebitmap dirbitmap x (n + 1) pre.length filebase filecur h =
      enumerateLoop buf filebitmap dirbitmap x n (pre ++ e.bytes).length (some (filebase.getD h.mallocs))
        (some h.mallocs) (h.append filecur i) := by
  intro buf
  have hp : ¬ buf.length < pre.length := by
    rw [List.length_append]
    omega
  have hsz : buf[pre.length]? = some (UInt8.ofNat (2 + e.block.length)) := by simp [buf, Entry.bytes]
  have hdir : buf[pre.length + 1]? = some e.isdir := by simp [buf, Entry.bytes]
  have hblock : buf.drop (pre.length + 2) = e.block ++ rest := by simp [buf, Entry.bytes]
  have hnext : pre.length + (UInt8.ofNat (2 + e.block.length)).toNat = (pre ++ e.bytes).length := by
    have hbyte : (UInt8.ofNat (2 + e.block.length)).toNat = 2 + e.block.length := UInt8.toNat_ofNat_of_lt hsize
    rw [hbyte, List.length_append, Entry.bytes, List.length_cons, List.length_cons]
    omega
  rw [enumerateLoop_succ hb.isSome_eq _ _ _ _ _ hp, hsz, hdir, hblock]
  simp only [Option.bind_eq_bind, Option.bind_some]
  rw [parseReplyBlock_append_right _ hi, ← hnext]
  rfl

lemma Building.enumerateext2_step (hb : Building h₀ h filebase filecur infos) {e : Entry}
    (hsize : 4 + e.block.length < 65536) (hi : e.parse filebitmap dirbitmap = some i) (pre rest : Bytes) (n : Nat) :
    let buf := pre ++ (e.bytesExt2 ++ rest)
    enumerateext2Loop buf filebitmap dirbitmap (n + 1) pre.length filebase filecur h =
      enumerateext2Loop buf filebitmap dirbitmap n (pre ++ e.bytesExt2).length (some (filebase.getD h.mallocs))
        (some h.mallocs) (h.append filecur i) := by
  intro buf
  have hsz : fetch buf pre.length 2 = some (beBytes 2 (4 + e.block.length)) := by
    have h := fetch_mid pre (beBytes 2 (4 + e.block.length)) (e.isdir :: e.pad :: e.block ++ rest)
    rwa [length_beBytes, ← List.append_assoc (beBytes ..)] at h
  have hdir : buf[pre.length + 2]? = some e.isdir := by simp [buf, Entry.bytesExt2]
  have hblock : buf.drop (pre.length + 4) = e.block ++ rest := by
    rw [← List.drop_drop, List.drop_left]
    rfl
  have hnext : pre.length + beNat (beBytes 2 (4 + e.block.length)) = (pre ++ e.bytesExt2).length := by
    rw [beNat_beBytes_of_lt hsize, List.length_append, Entry.bytesExt2, List.length_append,
      length_beBytes, List.length_cons, List.length_cons]
    omega
  rw [enumerateext2Loop, hsz, hdir, hblock]
  simp only [Option.bind_eq_bind, Option.bind_some]
  rw [parseReplyBlock_append_right _ hi, ← hnext]
  -- the `next` of the new node is cleared twice, here and by `parse_reply_block`
  rcases hb.ends with ⟨rfl, rfl⟩ | ⟨first, last, rfl, rfl⟩
  · simp only [Heap.link, Heap.fill, Heap.append, Heap.malloc, Function.update_idem]
    rfl
  · have hne : h.mallocs ≠ last := by
      obtain ⟨xs, -, hlast, hrange⟩ := hb.lists
      exact Nat.ne_of_gt (hrange last (List.mem_of_getLast? hlast)).2
    simp only [Heap.link, Heap.fill, Heap.append, Heap.malloc, Function.update_comm hne, Function.update_idem]
    rfl

lemma loop_spec (loop : Bytes → Nat → Nat → Option Nat → Option Nat → Heap → Option ((Int × Option Nat) × Heap))
    {encode : Entry → Bytes} {Fits : Entry → Prop}
    (hzero : ∀ buf p filebase filecur h, loop buf 0 p filebase filecur h = some ((0, filebase), h))
    (hstep : ∀ {h filebase filecur infos e i}, Building h₀ h filebase filecur infos → Fits e →
      e.parse filebitmap dirbitmap = some i → ∀ pre rest n,
      loop (pre ++ (encode e ++ rest)) (n + 1) pre.length filebase filecur h =
        loop (pre ++ (encode e ++ rest)) n (pre ++ encode e).length (some (filebase.getD h.mallocs))
          (some h.mallocs) (h.append filecur i))
    {new : List AfpFileInfo} (hparse : List.Forall₂ (fun e i => e.parse filebitmap dirbitmap = some i) entries new)
    (hfits : ∀ e ∈ entries, Fits e) (pre : Bytes) (hb : Building h₀ h filebase filecur infos) :
    ∃ p last h', loop (pre ++ entries.flatMap encode) entries.length pre.length filebase filecur h =
      some ((0, p), h') ∧ Building h₀ h' p last (infos ++ new) := by
  induction hparse generalizing pre h filebase filecur infos with
  | nil =>
    refine ⟨filebase, filecur, h, hzero .., ?_⟩
    rw [List.append_nil]
    exact hb
  | @cons e i entries new hi _ ih =>
    obtain ⟨p, last, h', hrun, hb'⟩ := ih (fun e' he' => hfits e' (List.mem_cons_of_mem _ he')) (pre ++ encode e)
      (hb.append i)
    refine ⟨p, last, h', ?_, ?_⟩
    · rw [List.flatMap_cons, List.length_cons, hstep hb (hfits e (List.mem_cons_self ..)) hi, ← List.append_assoc]
      exact hrun
    · rwa [List.append_assoc] at hb'

lemma enumerateReply_fixed (encode : Entry → Bytes) (filebitmap dirbitmap : UInt16) (hheader : header.length = 16)
    (hcode : slice header 4 4 = [0, 0, 0, 0]) (hcount : entries.length < 65536) :
    let buf := enumerateReply encode header filebitmap dirbitmap entries
    errorCode buf = some 0 ∧ ¬ buf.length < 22 ∧ beNat (slice buf 16 2) = filebitmap.toNat ∧
      beNat (slice buf 18 2) = dirbitmap.toNat ∧ beNat (slice buf 20 2) = entries.length ∧
      ∃ pre : Bytes, pre.length = 22 ∧ buf = pre ++ entries.flatMap encode := by
  intro buf
  have hfile : slice buf 16 2 = beBytes 2 filebitmap.toNat := slice_mid header _ _ hheader (length_beBytes ..)
  have hdir : slice buf 18 2 = beBytes 2 dirbitmap.toNat := by
    have h := slice_mid (header ++ beBytes 2 filebitmap.toNat) (beBytes 2 dirbitmap.toNat)
      (beBytes 2 entries.length ++ entries.flatMap encode)
      (by rw [List.length_append, hheader, length_beBytes]) (length_beBytes ..)
    rwa [List.append_assoc] at h
  have hcnt : slice buf 20 2 = beBytes 2 entries.length := by
    have h := slice_mid (header ++ (beBytes 2 filebitmap.toNat ++ beBytes 2 dirbitmap.toNat))
      (beBytes 2 entries.length) (entries.flatMap encode)
      (by rw [List.length_append, List.length_append, hheader, length_beBytes, length_beBytes]) (length_beBytes ..)
    rwa [List.append_assoc, List.append_assoc] at h
  have hlen : (header ++ (beBytes 2 filebitmap.toNat ++ (beBytes 2 dirbitmap.toNat ++
      beBytes 2 entries.length))).length = 22 := by
    simp only [List.length_append, length_beBytes, hheader]
  have hbuf : buf = (header ++ (beBytes 2 filebitmap.toNat ++ (beBytes 2 dirbitmap.toNat ++
      beBytes 2 entries.length))) ++ entries.flatMap encode := by
    simp only [buf, enumerateReply, List.append_assoc]
  refine ⟨?_, ?_, ?_, ?_, ?_, _, hlen, hbuf⟩
  · have herr : fetch header 4 4 = some [0, 0, 0, 0] := by
      rw [fetch_of_le (by rw [hheader]; decide), hcode]
    have herr' : fetch buf 4 4 = some [0, 0, 0, 0] := fetch_append_right _ herr
    rw [errorCode, herr']
    rfl
  · rw [hbuf, List.length_append, hlen]
    omega
  · rw [hfile, beNat_beBytes]
    exact Nat.mod_eq_of_lt (UInt16.toNat_lt _)
  · rw [hdir, beNat_beBytes]
    exact Nat.mod_eq_of_lt (UInt16.toNat_lt _)
  · rw [hcnt, beNat_beBytes]
    exact Nat.mod_eq_of_lt hcount

lemma afpEnumerateReply_spec {filebitmap dirbitmap : UInt16} {infos : List AfpFileInfo} (hheader : header.length = 16)
    (hcode : slice header 4 4 = [0, 0, 0, 0]) (hcount : entries.length < 65536)
    (hparse : List.Forall₂ (fun e i => e.parse filebitmap.toNat dirbitmap.toNat = some i) entries infos)
    (hsize : ∀ e ∈ entries, 2 + e.block.length < 256) (h : Heap) (x : Option Nat) :
    ∃ p last h', afpEnumerateReply h (enumerateReply Entry.bytes header filebitmap dirbitmap entries) x =
      some ((0, p), h') ∧ Building h h' p last infos := by
  obtain ⟨herr, hlen, hfile, hdir, hcnt, pre, hpre, hbuf⟩ :=
    enumerateReply_fixed Entry.bytes filebitmap dirbitmap hheader hcode hcount
  have hrun := loop_spec (fun buf => enumerateLoop buf filebitmap.toNat dirbitmap.toNat x)
    (fun _ _ _ _ _ => rfl) (fun hb hsize hi => hb.enumerate_step x hsize hi) hparse hsize pre (Building.start h)
  rw [← hbuf, hpre] at hrun
  simp only [afpEnumerateReply, Option.bind_eq_bind]
  rw [herr, Option.bind_some, hfile, hdir, hcnt, if_neg (not_not.mpr rfl), if_neg hlen]
  exact hrun

lemma afpEnumerateext2Reply_spec {filebitmap dirbitmap : UInt16} {infos : List AfpFileInfo}
    (hheader : header.length = 16) (hcode : slice header 4 4 = [0, 0, 0, 0]) (hcount : entries.length < 65536)
    (hparse : List.Forall₂ (fun e i => e.parse filebitmap.toNat dirbitmap.toNat = some i) entries infos)
    (hsize : ∀ e ∈ entries, 4 + e.block.length < 65536) (h : Heap) (x : Option Nat) :
    ∃ p last h', afpEnumerateext2Reply h (enumerateReply Entry.bytesExt2 header filebitmap dirbitmap entries) x =
      some ((0, p), h') ∧ Building h h' p last infos := by
  obtain ⟨herr, hlen, hfile, hdir, hcnt, pre, hpre, hbuf⟩ :=
    enumerateReply_fixed Entry.bytesExt2 filebitmap dirbitmap hheader hcode hcount
  have hrun := loop_spec (fun buf => enumerateext2Loop buf filebitmap.toNat dirbitmap.toNat)
    (fun _ _ _ _ _ => rfl) (fun hb hsize hi => hb.enumerateext2_step hsize hi) hparse hsize pre (Building.start h)
  rw [← hbuf, hpre] at hrun
  simp only [afpEnumerateext2Reply, Option.bind_eq_bind]
  rw [herr, Option.bind_some, hfile, hdir, hcnt, if_neg (not_not.mpr rfl), if_neg hlen]
  exact hrun

lemma exists_infos (hparse : ∀ e ∈ entries, (e.parse filebitmap dirbitmap).isSome) :
    ∃ infos, List.Forall₂ (fun e i => e.parse filebitmap dirbitmap = some i) entries infos := by
  induction entries with
  | nil => exact ⟨[], .nil⟩
  | cons e entries ih =>
    obtain ⟨infos, hinfos⟩ := ih fun e' he' => hparse e' (List.mem_cons_of_mem _ he')
    obtain ⟨i, hi⟩ := Option.isSome_iff_exists.mp (hparse e (List.mem_cons_self ..))
    exact ⟨i :: infos, .cons hi hinfos⟩

lemma map_parse {infos : List AfpFileInfo}
    (hparse : List.Forall₂ (fun e i => e.parse filebitmap dirbitmap = some i) entries infos) :
    infos.map some = entries.map (Entry.parse filebitmap dirbitmap) := by
  induction hparse with
  | nil => rfl
  | cons hi _ ih => rw [List.map_cons, List.map_cons, ih, hi]

/-- The entries of one reply, encoded for either request, become a list with a node for each entry, in order:
the parameters that `parse_reply_block` finds in it. -/
theorem enumerate_handlers_agree (header : Bytes) (hheader : header.length = 16)
    (hcode : slice header 4 4 = [0, 0, 0, 0]) (filebitmap dirbitmap : UInt16) (entries : List Entry)
    (hcount : entries.length < 65536) (hsize : ∀ e ∈ entries, 2 + e.block.length < 256)
    (hparse : ∀ e ∈ entries, (e.parse filebitmap.toNat dirbitmap.toNat).isSome) (h : Heap) (x : Option Nat) :
    ∃ p h' p' h'' xs ys,
      afpEnumerateReply h (enumerateReply Entry.bytes header filebitmap dirbitmap entries) x =
        some ((0, p), h') ∧
      afpEnumerateext2Reply h (enumerateReply Entry.bytesExt2 header filebitmap dirbitmap entries) x =
        some ((0, p'), h'') ∧
      Chain h'.next p xs ∧ xs.map (some ∘ h'.info) = entries.map (Entry.parse filebitmap.toNat dirbitmap.toNat) ∧
      Chain h''.next p' ys ∧ ys.map (some ∘ h''.info) = entries.map (Entry.parse filebitmap.toNat dirbitmap.toNat) := by
  obtain ⟨infos, hinfos⟩ := exists_infos hparse
  obtain ⟨p, last, h', hrun, hb⟩ := afpEnumerateReply_spec hheader hcode hcount hinfos hsize h x
  obtain ⟨p', last', h'', hrun', hb'⟩ := afpEnumerateext2Reply_spec hheader hcode hcount hinfos
    (fun e he => by have := hsize e he; omega) h x
  obtain ⟨xs, ⟨hchain, hxs⟩, -⟩ := hb.lists
  obtain ⟨ys, ⟨hchain', hys⟩, -⟩ := hb'.lists
  refine ⟨p, h', p', h'', xs, ys, hrun, hrun', hchain, ?_, hchain', ?_⟩
  · rw [← map_parse hinfos, ← hxs, List.map_map]
  · rw [← map_parse hinfos, ← hys, List.map_map]

theorem enumerate_handlers_agree_one_file :
    let header := List.replicate 16 0
    let entries : List Entry := [⟨0, 0, [0, 0, 0, 16]⟩]
    let h : Heap := ⟨fun _ => AfpFileInfo.zero, fun _ => none, 0⟩
    ∃ p h' p' h'' xs ys,
      afpEnumerateReply h (enumerateReply Entry.bytes header 0x100 0x100 entries) none = some ((0, p), h') ∧
      afpEnumerateext2Reply h (enumerateReply Entry.bytesExt2 header 0x100 0x100 entries) none =
        some ((0, p'), h'') ∧
      Chain h'.next p xs ∧ xs.map (some ∘ h'.info) = entries.map (Entry.parse 0x100 0x100) ∧
      Chain h''.next p' ys ∧ ys.map (some ∘ h''.info) = entries.map (Entry.parse 0x100 0x100) :=
  enumerate_handlers_agree (List.replicate 16 0) rfl rfl 0x100 0x100 [⟨0, 0, [0, 0, 0, 16]⟩] (by decide)
    (by decide) (by simp only [List.forall_mem_singleton]; rfl) _ none

end AfpfsNg.Proto
