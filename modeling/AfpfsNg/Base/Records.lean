import AfpfsNg.Base.Bytes

/-!
# Records with a bitmap

A format in which a bitmap says which parameters of a record are there. The selected ones follow each other without gaps; a
string stands behind all of them, and in its place stands a 16-bit offset, counted from the start of the block, at which some
leading bytes, the length and the string itself are found.

A reader is a table of fields: each selected `Field` says where its bytes come from (`Source`), how they change the record
and by how much the read pointer moves. `none` is a read behind the end of the block. A writer is a table of parts
(`layout`). `fits` is the check a careful reader makes first.
-/

namespace AfpfsNg.Base

variable {ρ : Type*}

/-- Where a reader takes the bytes of a field from. -/
inductive Source where
  /-- it does not look at them -/
  | skip
  /-- the next `n` bytes -/
  | here (n : Nat)
  /-- the next two bytes are an offset; `lead` bytes behind it are a length of `width` bytes and the
  string, of which at most `cap` bytes are taken -/
  | string (lead width cap : Nat)
  deriving DecidableEq, Repr

def Source.read (b : Bytes) (pos : Nat) : Source → Option Bytes
  | .skip => some []
  | .here n => fetch b pos n
  | .string lead width cap => do
    let off ← fetch b pos 2
    let len ← fetch b (beNat off + lead) width
    fetch b (beNat off + lead + width) (min cap (beNat len))

/-- One parameter of a record of type `ρ` as the reader knows it. -/
structure Field (ρ : Type*) where
  /-- the bit of the bitmap that selects the parameter -/
  bit : Nat
  /-- by how much the read pointer moves -/
  width : Nat
  source : Source
  /-- the record with the bytes taken in -/
  store : Bytes → ρ → ρ

def readFields (bitmap : Nat) (b : Bytes) : List (Field ρ) → Nat → ρ → Option ρ
  | [], _, r => some r
  | f :: fs, pos, r =>
    if bitmap &&& f.bit = 0 then readFields bitmap b fs pos r
    else (f.source.read b pos).bind fun bs => readFields bitmap b fs (pos + f.width) (f.store bs r)

variable {b : Bytes} {pos bitmap : Nat} {src : Source} {fs : List (Field ρ)} {r : ρ}

lemma Source.read_append_right {bs : Bytes} (c : Bytes) (h : src.read b pos = some bs) :
    src.read (b ++ c) pos = some bs := by
  cases src with
  | skip => exact h
  | here n => exact fetch_append_right c h
  | string lead width cap =>
    obtain ⟨off, hoff, h⟩ := Option.bind_eq_some_iff.mp h
    obtain ⟨len, hlen, h⟩ := Option.bind_eq_some_iff.mp h
    simp only [Source.read, Option.bind_eq_bind]
    rw [fetch_append_right c hoff, Option.bind_some, fetch_append_right c hlen, Option.bind_some]
    exact fetch_append_right c h

lemma readFields_append_right {r' : ρ} (c : Bytes) (h : readFields bitmap b fs pos r = some r') :
    readFields bitmap (b ++ c) fs pos r = some r' := by
  induction fs generalizing pos r with
  | nil => exact h
  | cons f fs ih =>
    rw [readFields] at h ⊢
    split at h
    · rw [if_pos ‹_›]
      exact ih h
    · obtain ⟨bs, hbs, h⟩ := Option.bind_eq_some_iff.mp h
      rw [if_neg ‹_›, Source.read_append_right c hbs, Option.bind_some]
      exact ih h

/-- By how much the read pointer moves over the selected ones of these fields. -/
def widths (bitmap : Nat) : List (Field ρ) → Nat
  | [] => 0
  | f :: fs => if bitmap &&& f.bit = 0 then widths bitmap fs else f.width + widths bitmap fs

lemma widths_append (bitmap : Nat) (fs gs : List (Field ρ)) :
    widths bitmap (fs ++ gs) = widths bitmap fs + widths bitmap gs := by
  induction fs with
  | nil => exact (Nat.zero_add _).symm
  | cons f fs ih =>
    rw [List.cons_append, widths, widths]
    split
    case isTrue => exact ih
    case isFalse => rw [ih, Nat.add_assoc]

lemma readFields_append (bitmap : Nat) (b : Bytes) (fs gs : List (Field ρ)) (pos : Nat) (r : ρ) :
    readFields bitmap b (fs ++ gs) pos r =
      (readFields bitmap b fs pos r).bind fun r => readFields bitmap b gs (pos + widths bitmap fs) r := by
  induction fs generalizing pos r with
  | nil => rfl
  | cons f fs ih =>
    rw [List.cons_append, readFields, readFields, widths]
    split
    case isTrue => exact ih pos r
    case isFalse =>
      cases f.source.read b pos with
      | none => rfl
      | some bs =>
        rw [Option.bind_some, Option.bind_some, ih, Nat.add_assoc]

lemma readFields_string {lead width cap off : Nat} {s : Bytes} {f : Field ρ}
    (hsource : f.source = .string lead width cap) (hbit : bitmap &&& f.bit ≠ 0) (hoff : off < 65536)
    (hplace : Stands b pos (beBytes 2 off)) (hstr : Stands b (off + lead) (beBytes width s.length ++ s))
    (hs : s.length < 256 ^ width) : readFields bitmap b [f] pos r = some (f.store (s.take cap) r) := by
  have hoffset : fetch b pos 2 = some (beBytes 2 off) := by rwa [Stands, length_beBytes] at hplace
  have hlen : fetch b (off + lead) width = some (beBytes width s.length) := by
    have := hstr.left
    rwa [Stands, length_beBytes] at this
  have htake : fetch b (off + lead + width) (min cap s.length) = some (s.take cap) := by
    have := hstr.right
    rw [length_beBytes] at this
    exact this.take cap
  have hread : f.source.read b pos = some (s.take cap) := by
    simp only [hsource, Source.read, Option.bind_eq_bind]
    rw [hoffset, Option.bind_some, beNat_beBytes_of_lt hoff, hlen, Option.bind_some, beNat_beBytes_of_lt hs, htake]
  rw [readFields, if_neg hbit, hread]
  rfl

lemma readFields_keeps {β : Type*} {g : ρ → β} {r' : ρ}
    (hkeep : ∀ f ∈ fs, bitmap &&& f.bit ≠ 0 → ∀ bs r, g (f.store bs r) = g r)
    (h : readFields bitmap b fs pos r = some r') : g r' = g r := by
  induction fs generalizing pos r with
  | nil => exact congrArg g (Option.some.inj h).symm
  | cons f fs ih =>
    have ih {pos : Nat} {r : ρ} := @ih pos r fun g hg => hkeep g (.tail _ hg)
    rw [readFields] at h
    split at h
    case isTrue => exact ih h
    case isFalse hbit =>
      obtain ⟨bs, -, h⟩ := Option.bind_eq_some_iff.mp h
      exact (ih h).trans (hkeep f (.head _) hbit bs r)

/-- What the writer puts into the block for one parameter. -/
inductive Part where
  /-- it stands in its place -/
  | fixed (bs : Bytes)
  /-- in its place stand an offset and `pad` bytes; at the offset `lead`, a length of `width` bytes
  and the string -/
  | apart (lead : Bytes) (width : Nat) (s : Bytes) (pad : Nat)
  deriving DecidableEq, Repr

def Part.width : Part → Nat
  | .fixed bs => bs.length
  | .apart _ _ _ pad => 2 + pad

/-- What stands in the place of a part whose string is at `off`. -/
def Part.here (off : Nat) : Part → Bytes
  | .fixed bs => bs
  | .apart _ _ _ pad => beBytes 2 off ++ List.replicate pad 0

def Part.away : Part → Bytes
  | .fixed _ => []
  | .apart lead width s _ => lead ++ (beBytes width s.length ++ s)

def selected {α : Type*} (bitmap : Nat) (ps : List (Nat × α)) : List α :=
  (ps.filter fun p => bitmap &&& p.1 ≠ 0).map Prod.snd

/-- What stands in the places of the parts; the first string is at `off`. -/
def fixedPart : Nat → List Part → Bytes
  | _, [] => []
  | off, p :: ps => p.here off ++ fixedPart (off + p.away.length) ps

/-- The block for the selected ones of the parts `ps`, given with their bits. -/
def layout (bitmap : Nat) (ps : List (Nat × Part)) : Bytes :=
  let ps := selected bitmap ps
  fixedPart (ps.map Part.width).sum ps ++ ps.flatMap Part.away

lemma selected_filter {α : Type*} {mask : Nat} (h : bitmap &&& mask = bitmap) (ps : List (Nat × α)) :
    selected bitmap (ps.filter fun p => mask &&& p.1 ≠ 0) = selected bitmap ps := by
  have hbit (p : Nat × α) (hp : mask &&& p.1 = 0) : bitmap &&& p.1 = 0 := by
    rw [← h, Nat.and_assoc, hp, Nat.and_zero]
  rw [selected, selected, List.filter_filter]
  congr 2
  funext p
  by_cases hp : mask &&& p.1 = 0
  · simp [hp, hbit p hp]
  · simp [hp]

lemma widths_eq_sum (bitmap : Nat) (fs : List (Field ρ)) :
    widths bitmap fs = (selected bitmap (fs.map fun f => (f.bit, f.width))).sum := by
  induction fs with
  | nil => rfl
  | cons f fs ih =>
    rw [widths]
    split
    case isTrue hbit => simp [selected, hbit, ih]
    case isFalse hbit => simp [selected, hbit, ih]

@[simp] lemma Part.length_here (p : Part) (off : Nat) : (p.here off).length = p.width := by
  cases p with
  | fixed bs => rfl
  | apart => rw [Part.here, List.length_append, length_beBytes, List.length_replicate, Part.width]

lemma length_fixedPart (off : Nat) (ps : List Part) : (fixedPart off ps).length = (ps.map Part.width).sum := by
  induction ps generalizing off with
  | nil => rfl
  | cons p ps ih =>
    rw [fixedPart, List.length_append, ih, Part.length_here, List.map_cons, List.sum_cons]

lemma length_layout_le (bitmap : Nat) (ps : List (Nat × Part)) :
    (layout bitmap ps).length ≤ (ps.map fun p => p.2.width + p.2.away.length).sum := by
  rw [layout, List.length_append, length_fixedPart]
  induction ps with
  | nil => exact Nat.le_refl 0
  | cons p ps ih =>
    by_cases hbit : bitmap &&& p.1 = 0
    · have hsel : selected bitmap (p :: ps) = selected bitmap ps := by simp [selected, hbit]
      rw [hsel, List.map_cons, List.sum_cons]
      exact Nat.le_trans ih (Nat.le_add_left ..)
    · have hsel : selected bitmap (p :: ps) = p.2 :: selected bitmap ps := by simp [selected, hbit]
      rw [hsel]
      simp only [List.map_cons, List.sum_cons, List.flatMap_cons, List.length_append]
      omega

def Source.taken : Source → Part → Bytes
  | .skip, _ => []
  | _, .fixed bs => bs
  | _, .apart _ _ s _ => s

/-- A reader with source `src` understands the part. -/
inductive Source.Understands : Source → Part → Prop
  | skip (p : Part) : Understands .skip p
  | fixed (bs : Bytes) : Understands (.here bs.length) (.fixed bs)
  | string (lead : Bytes) (width : Nat) (s : Bytes) (pad cap : Nat) (hwidth : s.length < 256 ^ width)
      (hcap : s.length ≤ cap) : Understands (.string lead.length width cap) (.apart lead width s pad)

/-- A field of the reader and a part of the writer, with its bit, belong together. -/
structure Field.Matches (f : Field ρ) (p : Nat × Part) : Prop where
  bit : f.bit = p.1
  width : f.width = p.2.width
  source : f.source.Understands p.2

/-- The record with the selected parts taken in. -/
def stored (bitmap : Nat) : List (Field ρ) → List (Nat × Part) → ρ → ρ
  | f :: fs, p :: ps, r =>
    stored bitmap fs ps (if bitmap &&& f.bit = 0 then r else f.store (f.source.taken p.2) r)
  | _, _, r => r

variable {ps : List (Nat × Part)}

lemma stored_append (bitmap : Nat) {fs' : List (Field ρ)} {ps' : List (Nat × Part)} (h : fs.length = ps.length)
    (r : ρ) : stored bitmap (fs ++ fs') (ps ++ ps') r = stored bitmap fs' ps' (stored bitmap fs ps r) := by
  induction fs generalizing ps r with
  | nil =>
    cases List.length_eq_zero_iff.mp h.symm
    cases fs' <;> cases ps' <;> rfl
  | cons f fs ih =>
    cases ps with
    | nil => cases h
    | cons p ps => exact ih (Nat.succ.inj h) _

lemma Source.Understands.read {p : Part} {pre post front rear : Bytes} (h : src.Understands p)
    (h16 : front.length < 65536) (heq : pre ++ (p.here front.length ++ post) = front ++ (p.away ++ rear)) :
    src.read (pre ++ (p.here front.length ++ post)) pre.length = some (src.taken p) := by
  cases h with
  | skip => rfl
  | fixed => exact fetch_mid ..
  | string lead width s pad cap hwidth hcap =>
    have hoff : beNat (beBytes 2 front.length) = front.length := by
      rw [beNat_beBytes]
      exact Nat.mod_eq_of_lt h16
    have hplace : fetch (pre ++ ((Part.apart lead width s pad).here front.length ++ post)) pre.length 2
        = some (beBytes 2 front.length) := by
      rw [Part.here, List.append_assoc]
      exact fetch_mid pre (beBytes 2 front.length) _
    have hlen : fetch (front ++ ((Part.apart lead width s pad).away ++ rear)) (front.length + lead.length) width
        = some (beBytes width s.length) := by
      have h := fetch_mid (front ++ lead) (beBytes width s.length) (s ++ rear)
      rw [List.length_append, length_beBytes] at h
      simpa only [Part.away, List.append_assoc] using h
    have hstr : fetch (front ++ ((Part.apart lead width s pad).away ++ rear))
        (front.length + lead.length + width) s.length = some s := by
      have h := fetch_mid (front ++ lead ++ beBytes width s.length) s rear
      rw [List.length_append, List.length_append, length_beBytes] at h
      simpa only [Part.away, List.append_assoc] using h
    have hs : min cap (beNat (beBytes width s.length)) = s.length := by
      rw [beNat_beBytes, Nat.mod_eq_of_lt hwidth, Nat.min_eq_right hcap]
    simp only [Source.read, Option.bind_eq_bind]
    rw [hplace, Option.bind_some, hoff, heq, hlen, Option.bind_some, hs, hstr]
    rfl

/-- The invariant of the loop: `pre` is read, `front` ends where the next string begins. -/
lemma readFields_matching (hmatch : List.Forall₂ Field.Matches fs ps) (hlen : b.length < 65536)
    (pre front rear : Bytes) (r : ρ) (hfix : ∃ post, b = pre ++ (fixedPart front.length (selected bitmap ps) ++ post))
    (haway : b = front ++ ((selected bitmap ps).flatMap Part.away ++ rear)) :
    readFields bitmap b fs pre.length r = some (stored bitmap fs ps r) := by
  induction hmatch generalizing pre front r with
  | nil => rfl
  | @cons f p fs ps hfp _ ih =>
    rw [readFields, stored]
    by_cases hbit : bitmap &&& f.bit = 0
    · have hsel : selected bitmap (p :: ps) = selected bitmap ps := by
        simp [selected, ← hfp.bit, hbit]
      rw [hsel] at hfix haway
      rw [if_pos hbit, if_pos hbit]
      exact ih pre front r hfix haway
    · have hsel : selected bitmap (p :: ps) = p.2 :: selected bitmap ps := by
        simp [selected, ← hfp.bit, hbit]
      obtain ⟨post, hfix⟩ := hfix
      rw [hsel, fixedPart, List.append_assoc] at hfix
      rw [hsel, List.flatMap_cons, List.append_assoc] at haway
      have h16 : front.length < 65536 := by
        rw [haway, List.length_append] at hlen
        omega
      have hread := hfp.source.read h16 (hfix.symm.trans haway)
      rw [← hfix] at hread
      rw [if_neg hbit, if_neg hbit, hread, Option.bind_some, hfp.width, ← Part.length_here p.2 front.length,
        ← List.length_append]
      apply ih (pre ++ p.2.here front.length) (front ++ p.2.away)
      · exact ⟨post, by rw [hfix, List.length_append, List.append_assoc]⟩
      · rw [haway, List.append_assoc]

/-- A reader whose fields match the parts of the block takes in what was written. -/
lemma readFields_layout (hmatch : List.Forall₂ Field.Matches fs ps) (hlen : (layout bitmap ps).length < 65536) (r : ρ) :
    readFields bitmap (layout bitmap ps) fs 0 r = some (stored bitmap fs ps r) := by
  have hfront := length_fixedPart ((selected bitmap ps).map Part.width).sum (selected bitmap ps)
  apply readFields_matching hmatch hlen []
    (fixedPart ((selected bitmap ps).map Part.width).sum (selected bitmap ps)) []
  · exact ⟨(selected bitmap ps).flatMap Part.away, by rw [hfront]; rfl⟩
  · rw [List.append_nil]
    rfl

/-- The form of a part, without its contents. -/
inductive Shape where
  | fixed (n : Nat)
  | apart (lead width pad : Nat)
  deriving DecidableEq, Repr

def Shape.width : Shape → Nat
  | .fixed n => n
  | .apart _ _ pad => 2 + pad

def Shape.fits (b : Bytes) (pos : Nat) : Shape → Bool
  | .fixed n => pos + n ≤ b.length
  | .apart lead width pad =>
    let off := beNat (slice b pos 2) + lead
    pos + 2 + pad ≤ b.length && off + width ≤ b.length &&
      off + width + beNat (slice b off width) ≤ b.length

/-- Does the block hold all the selected parts from position `pos` on? -/
def fits (bitmap : Nat) (b : Bytes) : List (Nat × Shape) → Nat → Bool
  | [], _ => true
  | (bit, s) :: ss, pos =>
    if bitmap &&& bit = 0 then fits bitmap b ss pos
    else s.fits b pos && fits bitmap b ss (pos + s.width)

/-- A reader with this source looks at nothing but the part. -/
inductive Shape.Covers : Shape → Source → Prop
  | skip (s : Shape) : Covers s .skip
  | here (s : Shape) (n : Nat) (h : n ≤ s.width) : Covers s (.here n)
  | string (lead width pad cap : Nat) : Covers (.apart lead width pad) (.string lead width cap)

lemma Shape.place_le {s : Shape} (h : s.fits b pos) : pos + s.width ≤ b.length := by
  cases s with
  | fixed n => simpa [Shape.fits, Shape.width] using h
  | apart lead width pad =>
    simp only [Shape.fits, Bool.and_eq_true, decide_eq_true_eq] at h
    rw [Shape.width]
    omega

lemma Shape.Covers.read {s : Shape} (h : s.Covers src) (hfits : s.fits b pos) : ∃ bs, src.read b pos = some bs := by
  cases h with
  | skip => exact ⟨[], rfl⟩
  | here n hn =>
    have hle := Shape.place_le hfits
    exact ⟨_, fetch_of_le (by omega)⟩
  | string lead width pad cap =>
    simp only [Shape.fits, Bool.and_eq_true, decide_eq_true_eq] at hfits
    obtain ⟨⟨hplace, hlen⟩, hstr⟩ := hfits
    simp only [Source.read, Option.bind_eq_bind]
    rw [fetch_of_le (by omega), Option.bind_some, fetch_of_le hlen, Option.bind_some]
    exact ⟨_, fetch_of_le (Nat.le_trans (Nat.add_le_add_left (Nat.min_le_right ..) _) hstr)⟩

lemma readFields_of_fits {ss : List (Nat × Shape)}
    (hmatch : List.Forall₂ (fun f s => f.bit = s.1 ∧ f.width = s.2.width ∧ s.2.Covers f.source) fs ss)
    (hfits : fits bitmap b ss pos) : ∃ r', readFields bitmap b fs pos r = some r' := by
  induction hmatch generalizing pos r with
  | nil => exact ⟨r, rfl⟩
  | @cons f s fs ss hfs _ ih =>
    obtain ⟨hbit, hwidth, hcov⟩ := hfs
    rw [readFields, hbit]
    rw [fits] at hfits
    split at hfits
    · rw [if_pos ‹_›]
      exact ih hfits
    · rw [Bool.and_eq_true] at hfits
      obtain ⟨bs, hbs⟩ := hcov.read hfits.1
      rw [if_neg ‹_›, hbs, Option.bind_some, hwidth]
      exact ih hfits.2

def Source.within (b : Bytes) (pos : Nat) : Source → Bool
  | .skip => true
  | .here n => pos + n ≤ b.length
  | .string lead width cap =>
    let off := beNat (slice b pos 2) + lead
    pos + 2 ≤ b.length && off + width ≤ b.length &&
      off + width + min cap (beNat (slice b off width)) ≤ b.length

/-- Does the block hold all that `readFields` looks at? -/
def within (bitmap : Nat) (b : Bytes) : List (Field ρ) → Nat → Bool
  | [], _ => true
  | f :: fs, pos =>
    if bitmap &&& f.bit = 0 then within bitmap b fs pos
    else f.source.within b pos && within bitmap b fs (pos + f.width)

lemma Source.read_isSome (b : Bytes) (pos : Nat) (src : Source) : (src.read b pos).isSome = src.within b pos := by
  have hfetch (off len : Nat) : (fetch b off len).isSome = decide (off + len ≤ b.length) := by
    by_cases h : off + len ≤ b.length <;> simp [fetch, h]
  cases src with
  | skip => rfl
  | here n => exact hfetch pos n
  | string lead width cap =>
    simp only [Source.read, Source.within, Option.bind_eq_bind]
    by_cases hoff : pos + 2 ≤ b.length
    · rw [fetch_of_le hoff, Option.bind_some]
      by_cases hlen : beNat (slice b pos 2) + lead + width ≤ b.length
      · rw [fetch_of_le hlen, Option.bind_some, hfetch]
        simp [hoff, hlen]
      · simp [fetch, hlen]
    · simp [fetch, hoff]

lemma readFields_isSome (bitmap : Nat) (b : Bytes) (fs : List (Field ρ)) (pos : Nat) (r : ρ) :
    (readFields bitmap b fs pos r).isSome = within bitmap b fs pos := by
  induction fs generalizing pos r with
  | nil => rfl
  | cons f fs ih =>
    rw [readFields, within]
    split
    · exact ih pos r
    · rw [← Source.read_isSome]
      cases f.source.read b pos with
      | none => rfl
      | some bs => exact ih ..

end AfpfsNg.Base
