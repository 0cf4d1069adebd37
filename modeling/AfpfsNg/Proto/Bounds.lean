import AfpfsNg.Proto.Replies

/-!
# Replies that are too short

A reply announces how long it has to be: by its bitmaps, by the offsets of its names, by the number of
its entries or volumes, by the length of a comment. `Handler.complete` says that a packet holds all that
it announces, as the AFP specification describes the format, and `Handler.copes` of which packets a handler reads only
bytes that are there and reports those that are too short.
-/

namespace AfpfsNg.Proto
open AfpfsNg.Base AfpfsNg.Afp

/-- The parameters of a directory or a file in the AFP specification. -/
def afpShapes (isdir : Bool) : List (Nat × Shape) :=
  common ++ ((if isdir then directory else file) ++ trailing)
where
  common : List (Nat × Shape) :=
    [ (0x1, .fixed 2), (0x2, .fixed 4), (0x4, .fixed 4), (0x8, .fixed 4), (0x10, .fixed 4), (0x20, .fixed 32),
      (0x40, .apart 0 1 0), (0x80, .apart 0 1 0), (0x100, .fixed 4) ]
  directory : List (Nat × Shape) :=
    [ (0x200, .fixed 2), (0x400, .fixed 4), (0x800, .fixed 4), (0x1000, .fixed 4) ]
  file : List (Nat × Shape) :=
    [ (0x200, .fixed 4), (0x400, .fixed 4), (0x800, .fixed 8), (0x1000, .fixed 2) ]
  trailing : List (Nat × Shape) :=
    [ (0x2000, .apart 4 2 4), (0x4000, .fixed 8), (0x8000, .fixed 16) ]

def volShapes : List (Nat × Shape) :=
  [ (0x1, .fixed 2), (0x2, .fixed 2), (0x4, .fixed 4), (0x8, .fixed 4), (0x10, .fixed 4), (0x20, .fixed 2),
    (0x40, .fixed 4), (0x80, .fixed 4), (0x100, .apart 0 1 0), (0x200, .fixed 8), (0x400, .fixed 8),
    (0x800, .fixed 4) ]

def blockBitmap (isdir : UInt8) (filebitmap dirbitmap : Nat) : Nat :=
  (if isdir ≠ 0 then dirbitmap else filebitmap) % 65536

/-- Does the rest of the packet hold the parameters of a directory or a file? -/
def blockFits (isdir : UInt8) (filebitmap dirbitmap : Nat) (block : Bytes) : Bool :=
  fits (blockBitmap isdir filebitmap dirbitmap) block (afpShapes (isdir ≠ 0)) 0

/-- Does the packet hold the entries from `p` on? An entry has a size of `width` bytes, a flag, and in all
`header` bytes in front of its parameters. -/
def entriesFit (header width : Nat) (buf : Bytes) (filebitmap dirbitmap : Nat) : Nat → Nat → Bool
  | 0, _ => true
  | n + 1, p =>
    match buf[p + width]? with
    | none => false
    | some isdir =>
      p + header ≤ buf.length && blockFits isdir filebitmap dirbitmap (buf.drop (p + header)) &&
        entriesFit header width buf filebitmap dirbitmap n (p + beNat (slice buf p width))

/-- Does the packet hold the flags and names of the volumes from `p` on, when names are cut to `cap` bytes? -/
def namesFit (cap : Nat) (buf : Bytes) : Nat → Nat → Bool
  | 0, _ => true
  | n + 1, p =>
    match buf[p + 1]? with
    | none => false
    | some len =>
      p + 2 + min cap len.toNat ≤ buf.length && namesFit cap buf n (p + 2 + min cap len.toNat)

/-- Does an entry begin behind the end of the packet, while `afp_enumerate_reply` can read those before it? -/
def cutOff (buf : Bytes) (filebitmap dirbitmap : Nat) : Nat → Nat → Bool
  | 0, _ => false
  | n + 1, p =>
    if buf.length < p then true
    else
      match buf[p + 1]? with
      | none => false
      | some isdir =>
        within (blockBitmap isdir filebitmap dirbitmap) (buf.drop (p + 2)) (replyFields (isdir ≠ 0)) 0 &&
          cutOff buf filebitmap dirbitmap n (p + beNat (slice buf p 1))

/-- A handler, with what it is called with beside the packet. -/
inductive Handler where
  | enumerate (h : Heap) (x : Option Nat)
  | enumerateext2 (h : Heap) (x : Option Nat)
  | getfiledirparms (fi : AfpFileInfo)
  | volopen (vol : VolParms)
  | getvolparms (vol : Option VolParms)
  | getsrvrparms (server : SrvrParms)
  | getcomment (maxsize : Nat) (data : Bytes)

def Handler.run : Handler → Bytes → Option Int
  | .enumerate h x, buf => (afpEnumerateReply h buf x).map fun r => r.1.1
  | .enumerateext2 h x, buf => (afpEnumerateext2Reply h buf x).map fun r => r.1.1
  | .getfiledirparms fi, buf => (afpGetfiledirparmsReply fi buf).map Prod.fst
  | .volopen vol, buf => (afpVolopenReply vol buf).map Prod.fst
  | .getvolparms vol, buf => (afpGetvolparmsReply vol buf).map Prod.fst
  | .getsrvrparms server, buf => (afpGetsrvrparmsReply server buf).map Prod.fst
  | .getcomment maxsize data, buf => (afpGetcommentReply maxsize data buf).map Prod.fst

/-- Does the packet hold all that it announces? -/
def Handler.complete : Handler → Bytes → Bool
  | .enumerate .., buf =>
    22 ≤ buf.length && entriesFit 2 1 buf (beNat (slice buf 16 2)) (beNat (slice buf 18 2)) (beNat (slice buf 20 2)) 22
  | .enumerateext2 .., buf =>
    22 ≤ buf.length && entriesFit 4 2 buf (beNat (slice buf 16 2)) (beNat (slice buf 18 2)) (beNat (slice buf 20 2)) 22
  | .getfiledirparms _, buf =>
    22 ≤ buf.length && blockFits (buf.getD 20 0) (beNat (slice buf 16 2)) (beNat (slice buf 18 2)) (buf.drop 22)
  | .volopen _, buf | .getvolparms _, buf =>
    18 ≤ buf.length && fits (beNat (slice buf 16 2)) (buf.drop 18) volShapes 0
  | .getsrvrparms _, buf => 21 ≤ buf.length && namesFit 255 buf (buf.getD 20 0).toNat 21
  | .getcomment .., buf => 17 ≤ buf.length && 17 + (buf.getD 16 0).toNat ≤ buf.length

/-- Does the handler do right with the packet? -/
def Handler.copes : Handler → Bytes → Bool
  | .enumerate h x, buf =>
    buf.length < 22 || Handler.complete (.enumerate h x) buf ||
      cutOff buf (beNat (slice buf 16 2)) (beNat (slice buf 18 2)) (beNat (slice buf 20 2)) 22
  | .enumerateext2 h x, buf => buf.length < 22 || Handler.complete (.enumerateext2 h x) buf
  | .getfiledirparms fi, buf => buf.length < 22 || Handler.complete (.getfiledirparms fi) buf
  | .volopen vol, buf => buf.length < 18 || Handler.complete (.volopen vol) buf
  | .getvolparms none, _ => true
  | .getvolparms (some vol), buf => buf.length < 18 || Handler.complete (.getvolparms (some vol)) buf
  | .getsrvrparms server, buf =>
    buf.length < 21 ||
      Handler.complete (.getsrvrparms server) buf && namesFit afpVolumeNameLen buf (buf.getD 20 0).toNat 21
  | .getcomment maxsize data, buf => Handler.complete (.getcomment maxsize data) buf

/-- The handler reads only bytes that are there, and returns an error for a packet that is too short. -/
def Handler.Bounded (H : Handler) (buf : Bytes) : Prop :=
  ∃ rc, H.run buf = some rc ∧ (H.complete buf = false → rc ≠ 0)

lemma replyFields_shapes (isdir : Bool) :
    List.Forall₂ (fun f s => f.bit = s.1 ∧ f.width = s.2.width ∧ s.2.Covers f.source) (replyFields isdir)
      (afpShapes isdir) := by
  have hnum {bit n : Nat} {store : Bytes → AfpFileInfo → AfpFileInfo} :
      (number bit n store).bit = bit ∧ (number bit n store).width = (Shape.fixed n).width ∧
        (Shape.fixed n).Covers (number bit n store).source := ⟨rfl, rfl, .here _ _ (Nat.le_refl _)⟩
  apply List.rel_append
  · exact .cons hnum <| .cons hnum <| .cons hnum <| .cons hnum <| .cons hnum <| .cons hnum <|
      .cons ⟨rfl, rfl, .string ..⟩ <| .cons ⟨rfl, rfl, .skip _⟩ <| .cons hnum .nil
  apply List.rel_append
  · cases isdir with
    | true => exact .cons hnum <| .cons hnum <| .cons hnum <| .cons hnum .nil
    | false => exact .cons hnum <| .cons hnum <| .cons hnum <| .cons ⟨rfl, rfl, .skip _⟩ .nil
  · exact .cons ⟨rfl, rfl, .string ..⟩ <| .cons hnum <| .cons hnum .nil

lemma volFields_shapes :
    List.Forall₂ (fun f s => f.bit = s.1 ∧ f.width = s.2.width ∧ s.2.Covers f.source) volFields volShapes := by
  -- every parameter of a volume is read where it stands
  iterate 12 refine .cons ⟨rfl, rfl, .here _ _ (Nat.le_refl _)⟩ ?_
  exact .nil

lemma parseReplyBlock_isSome (block : Bytes) (isdir : UInt8) (filebitmap dirbitmap : Nat) :
    (parseReplyBlock block isdir filebitmap dirbitmap).isSome =
      within (blockBitmap isdir filebitmap dirbitmap) block (replyFields (isdir ≠ 0)) 0 :=
  readFields_isSome ..

lemma parseReplyBlock_of_fits {block : Bytes} {isdir : UInt8} {filebitmap dirbitmap : Nat}
    (h : blockFits isdir filebitmap dirbitmap block) :
    ∃ i, parseReplyBlock block isdir filebitmap dirbitmap = some i :=
  readFields_of_fits (replyFields_shapes _) h

lemma beNat_slice_one {buf : Bytes} {p : Nat} {x : UInt8} (h : buf[p]? = some x) :
    beNat (slice buf p 1) = x.toNat := by
  obtain ⟨hp, hx⟩ := List.getElem?_eq_some_iff.mp h
  have hslice : slice buf p 1 = [x] := by
    rw [slice, List.drop_eq_getElem_cons hp, hx]
    rfl
  rw [hslice, beNat, List.foldl_cons, List.foldl_nil, Nat.mul_zero, Nat.zero_add]

lemma exists_getElem {buf : Bytes} {p q : Nat} {x : UInt8} (h : buf[q]? = some x) (hp : p ≤ q) :
    ∃ y, buf[p]? = some y :=
  ⟨_, List.getElem?_eq_getElem (Nat.lt_of_le_of_lt hp (List.getElem?_eq_some_iff.mp h).1)⟩

section Enumerate
variable {buf : Bytes} {filebitmap dirbitmap n p : Nat} {x filebase filecur : Option Nat} {h : Heap}

lemma enumerateLoop_of_fits (hends : filebase.isSome = filecur.isSome)
    (hfits : entriesFit 2 1 buf filebitmap dirbitmap n p) :
    ∃ x' h', enumerateLoop buf filebitmap dirbitmap x n p filebase filecur h = some ((0, x'), h') := by
  induction n generalizing p filebase filecur h with
  | zero => exact ⟨filebase, h, rfl⟩
  | succ n ih =>
    rw [entriesFit] at hfits
    cases hdir : buf[p + 1]? with
    | none => simp [hdir] at hfits
    | some isdir =>
      simp only [hdir, Bool.and_eq_true, decide_eq_true_eq] at hfits
      obtain ⟨⟨hhead, hblock⟩, hrest⟩ := hfits
      obtain ⟨size, hsize⟩ := exists_getElem hdir (Nat.le_succ p)
      obtain ⟨i, hi⟩ := parseReplyBlock_of_fits hblock
      rw [beNat_slice_one hsize] at hrest
      rw [enumerateLoop_succ hends _ _ _ _ _ (by omega), hsize, hdir]
      simp only [Option.bind_eq_bind, Option.bind_some, hi]
      exact ih rfl hrest

lemma enumerateLoop_result {rc : Int} {x' : Option Nat} {h' : Heap} (hends : filebase.isSome = filecur.isSome)
    (hrun : enumerateLoop buf filebitmap dirbitmap x n p filebase filecur h = some ((rc, x'), h')) :
    rc = 0 ∨ rc = -1 ∧ cutOff buf filebitmap dirbitmap n p := by
  induction n generalizing p filebase filecur h with
  | zero =>
    cases hrun
    exact .inl rfl
  | succ n ih =>
    rw [cutOff]
    by_cases hp : buf.length < p
    · rw [enumerateLoop, if_pos hp] at hrun
      cases hrun
      exact .inr ⟨rfl, if_pos hp⟩
    · rw [enumerateLoop_succ hends _ _ _ _ _ hp] at hrun
      obtain ⟨size, hsize, hrun⟩ := Option.bind_eq_some_iff.mp hrun
      obtain ⟨isdir, hdir, hrun⟩ := Option.bind_eq_some_iff.mp hrun
      obtain ⟨i, hi, hrun⟩ := Option.bind_eq_some_iff.mp hrun
      have hwithin := parseReplyBlock_isSome (buf.drop (p + 2)) isdir filebitmap dirbitmap
      rw [hi, Option.isSome_some] at hwithin
      rw [if_neg hp, hdir, beNat_slice_one hsize]
      simp only [← hwithin, Bool.true_and]
      refine ih ?_ hrun
      rfl

lemma enumerateLoop_of_cutOff (hends : filebase.isSome = filecur.isSome)
    (hcut : cutOff buf filebitmap dirbitmap n p) :
    ∃ x' h', enumerateLoop buf filebitmap dirbitmap x n p filebase filecur h = some ((-1, x'), h') := by
  induction n generalizing p filebase filecur h with
  | zero => cases hcut
  | succ n ih =>
    rw [cutOff] at hcut
    by_cases hp : buf.length < p
    · exact ⟨x, h, by rw [enumerateLoop, if_pos hp]⟩
    · rw [if_neg hp] at hcut
      cases hdir : buf[p + 1]? with
      | none => simp [hdir] at hcut
      | some isdir =>
        simp only [hdir, Bool.and_eq_true] at hcut
        obtain ⟨size, hsize⟩ := exists_getElem hdir (Nat.le_succ p)
        rw [← parseReplyBlock_isSome, beNat_slice_one hsize] at hcut
        obtain ⟨i, hi⟩ := Option.isSome_iff_exists.mp hcut.1
        rw [enumerateLoop_succ hends _ _ _ _ _ hp, hsize, hdir]
        simp only [Option.bind_eq_bind, Option.bind_some, hi]
        exact ih rfl hcut.2

lemma enumerateext2Loop_of_fits (hfits : entriesFit 4 2 buf filebitmap dirbitmap n p) :
    (enumerateext2Loop buf filebitmap dirbitmap n p filebase filecur h).isSome := by
  induction n generalizing p filebase filecur h with
  | zero => rfl
  | succ n ih =>
    rw [entriesFit] at hfits
    cases hdir : buf[p + 2]? with
    | none => simp [hdir] at hfits
    | some isdir =>
      simp only [hdir, Bool.and_eq_true, decide_eq_true_eq] at hfits
      obtain ⟨⟨hhead, hblock⟩, hrest⟩ := hfits
      obtain ⟨i, hi⟩ := parseReplyBlock_of_fits hblock
      rw [enumerateext2Loop, fetch_of_le (by omega), hdir]
      simp only [Option.bind_eq_bind, Option.bind_some, hi]
      exact ih hrest

lemma enumerateext2Loop_result {rc : Int} {x' : Option Nat} {h' : Heap}
    (hrun : enumerateext2Loop buf filebitmap dirbitmap n p filebase filecur h = some ((rc, x'), h')) :
    rc = 0 := by
  induction n generalizing p filebase filecur h with
  | zero =>
    cases hrun
    rfl
  | succ n ih =>
    rw [enumerateext2Loop] at hrun
    obtain ⟨size, -, hrun⟩ := Option.bind_eq_some_iff.mp hrun
    obtain ⟨isdir, -, hrun⟩ := Option.bind_eq_some_iff.mp hrun
    obtain ⟨i, -, hrun⟩ := Option.bind_eq_some_iff.mp hrun
    exact ih hrun

end Enumerate

lemma volumesLoop_isSome (buf : Bytes) (n p : Nat) :
    (volumesLoop buf n p).isSome = namesFit afpVolumeNameLen buf n p := by
  induction n generalizing p with
  | zero => rfl
  | succ n ih =>
    rw [volumesLoop, namesFit, copyFromPascal]
    cases hlen : buf[p + 1]? with
    | none => cases buf[p]? <;> rfl
    | some len =>
      obtain ⟨flags, hflags⟩ := exists_getElem hlen (Nat.le_succ p)
      simp only [hflags, Option.bind_eq_bind, Option.bind_some]
      by_cases hle : p + 2 + min afpVolumeNameLen len.toNat ≤ buf.length
      · have hnext : p + 1 + ((slice buf (p + 2) (min afpVolumeNameLen len.toNat)).length + 1) =
            p + 2 + min afpVolumeNameLen len.toNat := by
          rw [slice_length hle]
          omega
        rw [fetch_of_le hle, Option.bind_some, hnext, ← ih]
        cases volumesLoop buf n (p + 2 + min afpVolumeNameLen len.toNat) <;> simp [hle]
      · simp [fetch, hle]

lemma bounded_iff {r : Option Int} {ok : Bool} (hrc : ∀ rc, r = some rc → rc = 0) (hok : ok = true → r.isSome) :
    (∃ rc, r = some rc ∧ (ok = false → rc ≠ 0)) ↔ ok = true := by
  constructor
  · rintro ⟨rc, hr, herr⟩
    rw [← Bool.not_eq_false]
    intro hno
    exact herr hno (hrc rc hr)
  · intro h
    obtain ⟨rc, hr⟩ := Option.isSome_iff_exists.mp (hok h)
    exact ⟨rc, hr, fun hno => absurd (h.symm.trans hno) (by decide)⟩

lemma bounded_above_iff {len size : Nat} {r : Option Int} {ok : Bool} (hrc : ∀ rc, r = some rc → rc = 0)
    (hok : ok = true → r.isSome) :
    (∃ rc, (if size < len then some (-1) else r) = some rc ∧ ((len ≤ size && ok) = false → rc ≠ 0)) ↔
      (size < len || (len ≤ size && ok)) = true := by
  by_cases hlen : size < len
  · simp only [hlen, decide_true, Bool.true_or, iff_true]
    exact ⟨-1, rfl, fun _ => by decide⟩
  · simp only [hlen, Nat.not_lt.mp hlen, decide_true, decide_false, Bool.true_and, Bool.false_or]
    exact bounded_iff hrc hok

lemma getElem?_of_lt {buf : Bytes} {p : Nat} (hp : p < buf.length) : buf[p]? = some (buf.getD p 0) := by
  rw [List.getD_eq_getElem?_getD, List.getElem?_eq_getElem hp, Option.getD_some]

lemma errorCode_zero {buf : Bytes} (hsize : 16 ≤ buf.length) (hcode : slice buf 4 4 = [0, 0, 0, 0]) :
    errorCode buf = some 0 := by
  rw [errorCode, fetch_of_le (by omega), hcode]
  rfl

variable {buf : Bytes}

lemma enumerate_bounded (hsize : 16 ≤ buf.length) (hcode : slice buf 4 4 = [0, 0, 0, 0]) (h : Heap)
    (x : Option Nat) :
    Handler.Bounded (.enumerate h x) buf ↔ Handler.copes (.enumerate h x) buf := by
  have hrun : Handler.run (.enumerate h x) buf =
      if buf.length < 22 then some (-1)
      else (enumerateLoop buf (beNat (slice buf 16 2)) (beNat (slice buf 18 2)) x (beNat (slice buf 20 2)) 22
        none none h).map fun r => r.1.1 := by
    simp only [Handler.run, afpEnumerateReply, errorCode_zero hsize hcode]
    split <;> rfl
  rw [Handler.Bounded, hrun, Handler.copes]
  by_cases hlen : buf.length < 22
  · simp only [hlen, decide_true, Bool.true_or, iff_true]
    exact ⟨-1, rfl, fun _ => by decide⟩
  · rw [if_neg hlen]
    simp only [hlen, decide_false, Bool.false_or, Bool.or_eq_true]
    constructor
    · rintro ⟨rc, hr, herr⟩
      obtain ⟨⟨⟨_, x'⟩, h'⟩, hloop, rfl⟩ := Option.map_eq_some_iff.mp hr
      rcases enumerateLoop_result rfl hloop with hzero | ⟨-, hcut⟩
      · left
        rw [← Bool.not_eq_false]
        intro hno
        exact herr hno hzero
      · exact .inr hcut
    · rintro (hcomplete | hcut)
      · have hfits := hcomplete
        rw [Handler.complete, Bool.and_eq_true] at hfits
        have hends : (none : Option Nat).isSome = (none : Option Nat).isSome := rfl
        obtain ⟨x', h', hloop⟩ := enumerateLoop_of_fits hends hfits.2
        rw [hloop]
        exact ⟨0, rfl, fun hno => absurd (hcomplete.symm.trans hno) (by decide)⟩
      · have hends : (none : Option Nat).isSome = (none : Option Nat).isSome := rfl
        obtain ⟨x', h', hloop⟩ := enumerateLoop_of_cutOff hends hcut
        rw [hloop]
        exact ⟨-1, rfl, fun _ => by decide⟩

lemma enumerateext2_bounded (hsize : 16 ≤ buf.length) (hcode : slice buf 4 4 = [0, 0, 0, 0]) (h : Heap)
    (x : Option Nat) :
    Handler.Bounded (.enumerateext2 h x) buf ↔ Handler.copes (.enumerateext2 h x) buf := by
  have hrun : Handler.run (.enumerateext2 h x) buf =
      if buf.length < 22 then some (-1)
      else (enumerateext2Loop buf (beNat (slice buf 16 2)) (beNat (slice buf 18 2)) (beNat (slice buf 20 2)) 22
        none none h).map fun r => r.1.1 := by
    simp only [Handler.run, afpEnumerateext2Reply, errorCode_zero hsize hcode]
    split <;> rfl
  rw [Handler.Bounded, hrun]
  apply bounded_above_iff
  · intro rc hr
    obtain ⟨⟨⟨_, x'⟩, h'⟩, hloop, rfl⟩ := Option.map_eq_some_iff.mp hr
    exact enumerateext2Loop_result hloop
  · intro hfits
    rw [Option.isSome_map]
    exact enumerateext2Loop_of_fits hfits

lemma getfiledirparms_bounded (hsize : 16 ≤ buf.length) (hcode : slice buf 4 4 = [0, 0, 0, 0])
    (fi : AfpFileInfo) :
    Handler.Bounded (.getfiledirparms fi) buf ↔ Handler.copes (.getfiledirparms fi) buf := by
  have hrun : Handler.run (.getfiledirparms fi) buf =
      if buf.length < 22 then some (-1)
      else (parseReplyBlock (buf.drop 22) (buf.getD 20 0) (beNat (slice buf 16 2)) (beNat (slice buf 18 2))).map
        fun _ => 0 := by
    simp only [Handler.run, afpGetfiledirparmsReply, errorCode_zero hsize hcode]
    by_cases hlen : buf.length < 22
    · rw [if_pos hlen, if_pos hlen]
      rfl
    · rw [if_neg hlen, if_neg hlen, getElem?_of_lt (by omega)]
      simp only [Option.bind_eq_bind, Option.bind_some]
      cases parseReplyBlock (buf.drop 22) (buf.getD 20 0) (beNat (slice buf 16 2)) (beNat (slice buf 18 2)) <;> rfl
  rw [Handler.Bounded, hrun]
  apply bounded_above_iff
  · intro rc hr
    obtain ⟨_, -, rfl⟩ := Option.map_eq_some_iff.mp hr
    rfl
  · intro hfits
    obtain ⟨i, hi⟩ := parseReplyBlock_of_fits hfits
    rw [hi]
    rfl

lemma volbitmap_bounded (vol : VolParms) {r : Option Int}
    (hrun : r = if buf.length < 18 then some (-1)
      else (readFields (beNat (slice buf 16 2)) (buf.drop 18) volFields 0 vol).map fun _ => 0) :
    (∃ rc, r = some rc ∧ (Handler.complete (.volopen vol) buf = false → rc ≠ 0)) ↔
      Handler.copes (.volopen vol) buf := by
  rw [hrun]
  apply bounded_above_iff
  · intro rc hr
    obtain ⟨_, -, rfl⟩ := Option.map_eq_some_iff.mp hr
    rfl
  · intro hfits
    obtain ⟨vol', hvol⟩ := readFields_of_fits (r := vol) volFields_shapes hfits
    rw [hvol]
    rfl

lemma volopen_bounded (vol : VolParms) :
    Handler.Bounded (.volopen vol) buf ↔ Handler.copes (.volopen vol) buf := by
  apply volbitmap_bounded vol
  rw [Handler.run, afpVolopenReply, parseVolbitmapReply]
  split
  · rfl
  · cases readFields (beNat (slice buf 16 2)) (buf.drop 18) volFields 0 vol <;> rfl

lemma getvolparms_bounded (vol : Option VolParms) :
    Handler.Bounded (.getvolparms vol) buf ↔ Handler.copes (.getvolparms vol) buf := by
  cases vol with
  | none =>
    simp only [Handler.Bounded, Handler.run, afpGetvolparmsReply, Handler.copes, iff_true]
    refine ⟨-1, ?_, fun _ => by decide⟩
    split <;> rfl
  | some vol =>
    apply volbitmap_bounded vol
    rw [Handler.run, afpGetvolparmsReply, parseVolbitmapReply]
    split
    · rfl
    · cases readFields (beNat (slice buf 16 2)) (buf.drop 18) volFields 0 vol <;> rfl

lemma getsrvrparms_bounded (server : SrvrParms) :
    Handler.Bounded (.getsrvrparms server) buf ↔ Handler.copes (.getsrvrparms server) buf := by
  have hrun : Handler.run (.getsrvrparms server) buf =
      if buf.length < 21 then some (-1)
      else (volumesLoop buf (buf.getD 20 0).toNat 21).map fun _ => 0 := by
    rw [Handler.run, afpGetsrvrparmsReply]
    by_cases hlen : buf.length < 21
    · rw [if_pos hlen, if_pos hlen]
      rfl
    · rw [if_neg hlen, if_neg hlen, getElem?_of_lt (by omega)]
      simp only [Option.bind_eq_bind, Option.bind_some]
      cases volumesLoop buf (buf.getD 20 0).toNat 21 <;> rfl
  rw [Handler.Bounded, hrun, Handler.copes, ← volumesLoop_isSome]
  by_cases hlen : buf.length < 21
  · simp only [hlen, decide_true, Bool.true_or, iff_true]
    exact ⟨-1, rfl, fun _ => by decide⟩
  · simp only [hlen, decide_false, Bool.false_or]
    cases volumesLoop buf (buf.getD 20 0).toNat 21 with
    | none => simp
    | some vols => simp

lemma getcomment_bounded (hsize : 16 ≤ buf.length) (maxsize : Nat) (data : Bytes) :
    Handler.Bounded (.getcomment maxsize data) buf ↔ Handler.copes (.getcomment maxsize data) buf := by
  rw [Handler.Bounded, Handler.run, afpGetcommentReply, if_neg (by omega)]
  apply bounded_iff
  · intro rc hr
    obtain ⟨⟨_, _⟩, hrun, rfl⟩ := Option.map_eq_some_iff.mp hr
    obtain ⟨_, -, hrun⟩ := Option.bind_eq_some_iff.mp hrun
    obtain ⟨_, -, hrun⟩ := Option.bind_eq_some_iff.mp hrun
    cases hrun
    rfl
  · intro hcomplete
    simp only [Handler.complete, Bool.and_eq_true, decide_eq_true_eq] at hcomplete
    have hmin : min (min (if 17 ≤ buf.length then buf.length - 17 else 2 ^ 64 - (17 - buf.length)) maxsize)
        (buf.getD 16 0).toNat ≤ (buf.getD 16 0).toNat := Nat.min_le_right ..
    rw [getElem?_of_lt (by omega)]
    simp only [Option.bind_eq_bind, Option.bind_some]
    rw [fetch_of_le (by omega)]
    rfl

/-- A handler reads only bytes of the packet and reports a packet that is too short for what it announces, if and
only if the packet is one that it copes with. -/
theorem reply_handlers_bounded_iff (H : Handler) (buf : Bytes) (hsize : 16 ≤ buf.length)
    (hcode : slice buf 4 4 = [0, 0, 0, 0]) : H.Bounded buf ↔ H.copes buf := by
  cases H with
  | enumerate h x => exact enumerate_bounded hsize hcode h x
  | enumerateext2 h x => exact enumerateext2_bounded hsize hcode h x
  | getfiledirparms fi => exact getfiledirparms_bounded hsize hcode fi
  | volopen vol => exact volopen_bounded vol
  | getvolparms vol => exact getvolparms_bounded vol
  | getsrvrparms server => exact getsrvrparms_bounded server
  | getcomment maxsize data => exact getcomment_bounded hsize maxsize data

theorem reply_handlers_bounded_iff_one_letter :
    Handler.Bounded (.getcomment 200 []) (List.replicate 16 0 ++ [1, 97]) :=
  (reply_handlers_bounded_iff (.getcomment 200 []) (List.replicate 16 0 ++ [1, 97]) (by decide) rfl).mpr rfl

/-- Packets that end right behind their fixed part, with a bitmap or a count that announces more: each of the
handlers reads behind the end. -/
theorem reply_handlers_read_past_end :
    let header : Bytes := List.replicate 16 0
    let h : Heap := ⟨fun _ => AfpFileInfo.zero, fun _ => none, 0⟩
    let vol : VolParms := ⟨0, 0, 0, 0, 0, 0, 0, 0, 0⟩
    (Handler.enumerate h none).run (header ++ [0, 1, 0, 1, 0, 1]) = none ∧
    (Handler.enumerateext2 h none).run (header ++ [0, 1, 0, 1, 0, 1]) = none ∧
    (Handler.getfiledirparms AfpFileInfo.zero).run (header ++ [0, 1, 0, 1, 0, 0]) = none ∧
    (Handler.volopen vol).run (header ++ [0, 1]) = none ∧
    (Handler.getvolparms (some vol)).run (header ++ [0, 1]) = none ∧
    (Handler.getsrvrparms ⟨0, []⟩).run (header ++ [0, 0, 0, 0, 1]) = none ∧
    (Handler.getcomment 200 []).run header = none := by
  refine ⟨rfl, rfl, rfl, rfl, rfl, rfl, rfl⟩

end AfpfsNg.Proto
