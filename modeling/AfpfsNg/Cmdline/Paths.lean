import AfpfsNg.Afp.Volume
import AfpfsNg.Base.Arrays

/-!
# The arguments of a command

`escape_paths` (`cmdline/cmdline_afp.c`) splits what was typed behind a command into one path or two. A backslash in front of
a space or of a backslash is to keep it in the path. The loop has a flag for each of its modes: `inescape` is set by a
backslash and reset by the next backslash only. There is no result for a write behind the arrays.
-/

namespace AfpfsNg.Cmdline
open AfpfsNg.Base AfpfsNg.Afp

/-- `' '` -/
def space : UInt8 := 32

/-- `'\\'` -/
def backslash : UInt8 := 92

/-- `'"'` -/
def quote : UInt8 := 34

/-- What was written to the two arrays, and the flags of the loop. `writeto` points to the second array just if `donewith1`
is set. -/
structure Scan where
  outgoing1 : Bytes
  outgoing2 : Bytes
  inquote : Bool
  inescape : Bool
  donewith1 : Bool

def Scan.setEscape (s : Scan) (b : Bool) : Scan := { s with inescape := b }

/-- The label `add` of `escape_paths`. -/
def Scan.add (s : Scan) (c : UInt8) : Option Scan :=
  if s.donewith1 then
    if s.outgoing2.length < afpMaxPath then some { s with outgoing2 := s.outgoing2 ++ [c] } else none
  else
    if s.outgoing1.length < afpMaxPath then some { s with outgoing1 := s.outgoing1 ++ [c] } else none

/-- The loop of `escape_paths`; `two` is `outgoing2!=NULL`. -/
def escapeLoop (two : Bool) : Bytes → Scan → Option Scan
  | [], s => some s
  | c :: p, s =>
    if c = backslash then
      if s.inescape then ((s.setEscape false).add c).bind (escapeLoop two p)
      else escapeLoop two p (s.setEscape true)
    else if c = quote then escapeLoop two p { s with inquote := true }
    -- the test for a second quote is behind the one for the first
    else if s.inquote then (s.add c).bind (escapeLoop two p)
    else if c = space then
      if s.inescape then (s.add c).bind (escapeLoop two p)
      else if s.donewith1 || !two then some s
      else ({ s with donewith1 := true }.add c).bind (escapeLoop two p)
    else (s.add c).bind (escapeLoop two p)

/-- C `escape_paths`: what it returns, and the arrays. -/
def escapePaths (outgoing1 outgoing2 : Option (Block afpMaxPath)) (incoming : Bytes) :
    Option (Int × Option Bytes × Option Bytes) :=
  if outgoing1 = none ∨ incoming = [] then some (-1, outgoing1.map Block.bytes, outgoing2.map Block.bytes)
  else do
    let s ← escapeLoop outgoing2.isSome incoming ⟨[], [], false, false, false⟩
    return (if outgoing2.isSome ∧ ¬ s.donewith1 then -1 else 0,
      outgoing1.map fun _ => padded afpMaxPath s.outgoing1, outgoing2.map fun _ => padded afpMaxPath s.outgoing2)

def typedLetter (c : UInt8) : Bytes := if c = space ∨ c = backslash then [backslash, c] else [c]

def typed (w : Bytes) : Bytes := w.flatMap typedLetter

/-- A name of a file that fits the array of a path. -/
structure FileName (w : Bytes) : Prop where
  nonempty : w ≠ []
  nul : 0 ∉ w
  quote : quote ∉ w
  fits : w.length < afpMaxPath

/-- Two names come out as they were meant. -/
def SplitsTwo (a b : Block afpMaxPath) (w₁ w₂ : Bytes) : Prop :=
  escapePaths (some a) (some b) (typed w₁ ++ space :: typed w₂) =
    some (0, some (padded afpMaxPath w₁), some (padded afpMaxPath w₂))

/-- One name comes out as it was meant. -/
def KeepsOne (a : Block afpMaxPath) (w : Bytes) : Prop :=
  escapePaths (some a) none (typed w) = some (0, some (padded afpMaxPath w), none)

section Loop
variable {two : Bool} {s s' : Scan} {w rest : Bytes} {c : UInt8}

lemma typed_append (u v : Bytes) : typed (u ++ v) = typed u ++ typed v := List.flatMap_append

lemma typed_space (v : Bytes) : typed (space :: v) = backslash :: space :: typed v := rfl

@[simp]
lemma Scan.inescape_setEscape (s : Scan) (b : Bool) : (s.setEscape b).inescape = b := rfl

@[simp]
lemma Scan.inquote_setEscape (s : Scan) (b : Bool) : (s.setEscape b).inquote = s.inquote := rfl

@[simp]
lemma Scan.setEscape_setEscape (s : Scan) (a b : Bool) : (s.setEscape a).setEscape b = s.setEscape b := rfl

lemma Scan.setEscape_self {b : Bool} (h : s.inescape = b) : s.setEscape b = s := by
  subst h
  rfl

lemma Scan.add_cases (h : s.add c = some s') :
    s' = { s with outgoing2 := s.outgoing2 ++ [c] } ∧ s.donewith1 ∨
      s' = { s with outgoing1 := s.outgoing1 ++ [c] } ∧ s.donewith1 = false := by
  unfold Scan.add at h
  cases hd : s.donewith1 <;> simp_all

def Scan.target (s : Scan) : Bytes := if s.donewith1 then s.outgoing2 else s.outgoing1

def Scan.write (s : Scan) (w : Bytes) : Scan :=
  if s.donewith1 then { s with outgoing2 := s.outgoing2 ++ w } else { s with outgoing1 := s.outgoing1 ++ w }

@[simp]
lemma Scan.write_nil (s : Scan) : s.write [] = s := by
  obtain ⟨o₁, o₂, q, e, d⟩ := s
  cases d <;> simp [Scan.write]

lemma Scan.add_of_lt (h : s.target.length < afpMaxPath) : s.add c = some (s.write [c]) := by
  unfold Scan.target at h
  unfold Scan.add Scan.write
  split at h <;> simp_all

@[simp]
lemma Scan.target_write (s : Scan) (w : Bytes) : (s.write w).target = s.target ++ w := by
  obtain ⟨o₁, o₂, q, e, d⟩ := s
  cases d <;> rfl

@[simp]
lemma Scan.write_write (s : Scan) (v w : Bytes) : (s.write v).write w = s.write (v ++ w) := by
  obtain ⟨o₁, o₂, q, e, d⟩ := s
  cases d <;> simp [Scan.write]

@[simp]
lemma Scan.write_inescape (s : Scan) (w : Bytes) : (s.write w).inescape = s.inescape := by
  unfold Scan.write
  split <;> rfl

@[simp]
lemma Scan.write_inquote (s : Scan) (w : Bytes) : (s.write w).inquote = s.inquote := by
  unfold Scan.write
  split <;> rfl

@[simp]
lemma Scan.target_setEscape (s : Scan) (b : Bool) : (s.setEscape b).target = s.target := rfl

lemma Scan.write_setEscape (s : Scan) (w : Bytes) (b : Bool) : (s.setEscape b).write w = (s.write w).setEscape b := by
  unfold Scan.write Scan.setEscape
  dsimp only
  split_ifs <;> rfl

lemma escapeLoop_backslash_set (h : s.inescape = false) :
    escapeLoop two (backslash :: rest) s = escapeLoop two rest (s.setEscape true) := by
  rw [escapeLoop, if_pos rfl, h, if_neg Bool.false_ne_true]

lemma escapeLoop_backslash_add (h : s.inescape = true) (hroom : s.target.length < afpMaxPath) :
    escapeLoop two (backslash :: rest) s = escapeLoop two rest ((s.write [backslash]).setEscape false) := by
  rw [escapeLoop, if_pos rfl, if_pos h, Scan.add_of_lt (by rwa [Scan.target_setEscape]), Option.bind_some,
    Scan.write_setEscape]

lemma escapeLoop_letter (hquote : s.inquote = false) (hc : c ≠ quote) (hspace : c ≠ space)
    (hroom : s.target.length < afpMaxPath) :
    escapeLoop two (typedLetter c ++ rest) s = escapeLoop two rest (s.write [c]) := by
  by_cases hback : c = backslash
  · subst hback
    rw [typedLetter, if_pos (.inr rfl), List.cons_append, List.singleton_append]
    cases hescape : s.inescape with
    | false =>
      -- the second backslash is added, and resets the flag
      rw [escapeLoop_backslash_set hescape, escapeLoop_backslash_add (s := s.setEscape true) rfl hroom,
        Scan.write_setEscape, Scan.setEscape_setEscape, Scan.setEscape_self (by simpa using hescape)]
    | true =>
      -- the first backslash is added, and the second one sets the flag again
      rw [escapeLoop_backslash_add hescape hroom, escapeLoop_backslash_set rfl, Scan.setEscape_setEscape,
        Scan.setEscape_self (by simpa using hescape)]
  · rw [typedLetter, if_neg (by simp [hspace, hback]), List.singleton_append, escapeLoop, if_neg hback, if_neg hc, hquote,
      if_neg Bool.false_ne_true, if_neg hspace, Scan.add_of_lt hroom, Option.bind_some]

lemma escapeLoop_plain (hquote : s.inquote = false) (hw : quote ∉ w) (hspace : space ∉ w)
    (hfits : s.target.length + w.length ≤ afpMaxPath) :
    escapeLoop two (typed w ++ rest) s = escapeLoop two rest (s.write w) := by
  induction w generalizing s with
  | nil => rw [Scan.write_nil, typed, List.flatMap_nil, List.nil_append]
  | cons c w ih =>
    rw [List.mem_cons, not_or] at hw hspace
    rw [List.length_cons] at hfits
    rw [typed, List.flatMap_cons, List.append_assoc,
      escapeLoop_letter hquote (Ne.symm hw.1) (Ne.symm hspace.1) (by omega), ← typed,
      ih (by rwa [Scan.write_inquote]) hw.2 hspace.2
        (by rw [Scan.target_write, List.length_append, List.length_singleton]; omega),
      Scan.write_write, List.singleton_append]

lemma spaces_cases (w : Bytes) :
    space ∉ w ∨ (∃ u v, w = u ++ space :: v ∧ space ∉ u ∧ space ∉ v) ∨
      ∃ u x y, w = u ++ space :: (x ++ space :: y) ∧ space ∉ u ∧ space ∉ x := by
  by_cases hw : space ∈ w
  · obtain ⟨u, v, rfl, hu⟩ := List.eq_append_cons_of_mem hw
    by_cases hv : space ∈ v
    · obtain ⟨x, y, rfl, hx⟩ := List.eq_append_cons_of_mem hv
      exact .inr (.inr ⟨u, x, y, rfl, hu, hx⟩)
    · exact .inr (.inl ⟨u, v, rfl, hu, hv⟩)
  · exact .inl hw

lemma escapeLoop_space_add (hquote : s.inquote = false) (hescape : s.inescape = true)
    (hroom : s.target.length < afpMaxPath) : escapeLoop two (space :: rest) s = escapeLoop two rest (s.write [space]) := by
  rw [escapeLoop, if_neg (by decide), if_neg (by decide), hquote, if_neg Bool.false_ne_true, if_pos rfl, if_pos hescape,
    Scan.add_of_lt hroom, Option.bind_some]

lemma escapeLoop_space {u v : Bytes} (hquote : s.inquote = false) (hescape : s.inescape = false)
    (hw : quote ∉ u) (hu : space ∉ u) (hfits : s.target.length + u.length < afpMaxPath) :
    escapeLoop two (typed (u ++ space :: v) ++ rest) s =
      escapeLoop two (typed v ++ rest) ((s.write (u ++ [space])).setEscape true) := by
  have htarget : ((s.write u).setEscape true).target.length < afpMaxPath := by
    rwa [Scan.target_setEscape, Scan.target_write, List.length_append]
  rw [typed_append, typed_space, List.append_assoc, escapeLoop_plain hquote hw hu (by omega), List.cons_append,
    List.cons_append, escapeLoop_backslash_set (by rw [Scan.write_inescape, hescape]),
    escapeLoop_space_add (by simpa using hquote) rfl htarget, Scan.write_setEscape, Scan.write_write]

lemma escapeLoop_one_space {u v : Bytes} (hquote : s.inquote = false) (hescape : s.inescape = false)
    (hw : quote ∉ u ++ space :: v) (hu : space ∉ u) (hv : space ∉ v)
    (hfits : s.target.length + (u ++ space :: v).length ≤ afpMaxPath) :
    escapeLoop two (typed (u ++ space :: v) ++ rest) s =
      escapeLoop two rest ((s.write (u ++ space :: v)).setEscape true) := by
  rw [List.length_append, List.length_cons] at hfits
  rw [List.mem_append, not_or, List.mem_cons, not_or] at hw
  have htarget : ((s.write (u ++ [space])).setEscape true).target.length = s.target.length + (u.length + 1) := by simp
  rw [escapeLoop_space hquote hescape hw.1 hu (by omega), escapeLoop_plain (by simpa using hquote) hw.2.2 hv (by omega),
    Scan.write_setEscape, Scan.write_write, List.append_assoc, List.singleton_append]

lemma escapeLoop_two_spaces {u x y : Bytes} (hquote : s.inquote = false) (hescape : s.inescape = false)
    (hw : quote ∉ u ++ space :: (x ++ space :: y)) (hu : space ∉ u) (hx : space ∉ x)
    (hfits : s.target.length + (u ++ space :: (x ++ space :: y)).length ≤ afpMaxPath) :
    escapeLoop two (typed (u ++ space :: (x ++ space :: y)) ++ rest) s =
      escapeLoop two (space :: (typed y ++ rest)) (s.write (u ++ space :: (x ++ [backslash]))) := by
  rw [List.length_append, List.length_cons, List.length_append, List.length_cons] at hfits
  simp only [List.mem_append, List.mem_cons, not_or] at hw
  have hrest : typed (x ++ space :: y) ++ rest = typed x ++ (backslash :: space :: (typed y ++ rest)) := by
    rw [typed_append, typed_space, List.append_assoc, List.cons_append, List.cons_append]
  have htarget : ((s.write (u ++ [space])).setEscape true).target.length = s.target.length + (u.length + 1) := by simp
  have htarget' : (((s.write (u ++ [space])).setEscape true).write x).target.length < afpMaxPath := by
    rw [Scan.target_write, List.length_append]
    omega
  rw [escapeLoop_space hquote hescape hw.1 hu (by omega), hrest,
    escapeLoop_plain (by simpa using hquote) hw.2.2.1 hx (by omega), escapeLoop_backslash_add (by simp) htarget',
    Scan.write_setEscape, Scan.write_setEscape, Scan.setEscape_setEscape, Scan.write_write, Scan.write_write,
    Scan.setEscape_self (by simpa using hescape)]
  simp

lemma escapeLoop_stop (hquote : s.inquote = false) (hescape : s.inescape = false) (hlast : s.donewith1 || !two) :
    escapeLoop two (space :: rest) s = some s := by
  rw [escapeLoop, if_neg (by decide), if_neg (by decide), hquote, if_neg Bool.false_ne_true, if_pos rfl, hescape,
    if_neg Bool.false_ne_true, if_pos hlast]

lemma escapeLoop_next (o₁ : Bytes) :
    escapeLoop true (space :: rest) ⟨o₁, [], false, false, false⟩ =
      escapeLoop true rest ⟨o₁, [space], false, false, true⟩ := by
  rw [escapeLoop, if_neg (by decide), if_neg (by decide), if_neg Bool.false_ne_true, if_pos rfl,
    if_neg Bool.false_ne_true, if_neg (by simp)]
  rfl

lemma escapeLoop_extends (h : escapeLoop two w s = some s') : s.outgoing1 <+: s'.outgoing1 := by
  have hadd : ∀ {s t : Scan} {c}, s.add c = some t → s.outgoing1 <+: t.outgoing1 := by
    intro s t c ht
    obtain ⟨rfl, -⟩ | ⟨rfl, -⟩ := Scan.add_cases ht
    · exact List.prefix_rfl
    · exact List.prefix_append _ _
  induction w generalizing s with
  | nil => exact Option.some.inj h ▸ List.prefix_rfl
  | cons c p ih =>
    have hbind : ∀ {t : Scan}, (t.add c).bind (escapeLoop two p) = some s' → t.outgoing1 = s.outgoing1 →
        s.outgoing1 <+: s'.outgoing1 := by
      intro t ht hts
      obtain ⟨t', ht', hrest⟩ := Option.bind_eq_some_iff.1 ht
      exact hts ▸ (hadd ht').trans (ih hrest)
    rw [escapeLoop] at h
    split_ifs at h
    · exact hbind h rfl
    · exact (ih h :)
    · exact (ih h :)
    · exact hbind h rfl
    · exact hbind h rfl
    · exact Option.some.inj h ▸ List.prefix_rfl
    · exact hbind h rfl
    · exact hbind h rfl

end Loop

section Paths
variable {a b : Block afpMaxPath} {w w₁ w₂ q o : Bytes}

lemma typed_ne_nil (h : w ≠ []) : typed w ≠ [] := by
  obtain ⟨c, w, rfl⟩ := List.exists_cons_of_ne_nil h
  rw [typed, List.flatMap_cons, typedLetter]
  split_ifs <;> exact List.append_ne_nil_of_left_ne_nil (List.cons_ne_nil _ _) _

lemma begins_of_padded (h : padded afpMaxPath o = padded afpMaxPath w) (hw : 0 ∉ w) (hq : q <+: o) (h0 : 0 ∉ q) :
    q <+: w := by
  obtain ⟨t, rfl⟩ := hq
  have hstring := congrArg cString h
  rw [cString_padded, cString_padded, cString_of_not_mem hw, cString, List.takeWhile_append_of_pos] at hstring
  · exact ⟨_, hstring⟩
  · intro c hc
    exact decide_eq_true fun h => h0 (h ▸ hc)

lemma eq_of_padded (h : padded afpMaxPath o = padded afpMaxPath w) (ho : 0 ∉ o) (hw : 0 ∉ w) : o = w := by
  have hstring := congrArg cString h
  rwa [cString_padded, cString_padded, cString_of_not_mem ho, cString_of_not_mem hw] at hstring

lemma two_spaces_not_begins (u x y : Bytes) :
    ¬ u ++ space :: (x ++ [backslash]) <+: u ++ space :: (x ++ space :: y) := by
  intro h
  have h := (List.prefix_append_right_inj _).1 h
  have h := (List.cons_prefix_cons.1 h).2
  have h := (List.prefix_append_right_inj _).1 h
  exact absurd (List.cons_prefix_cons.1 h).1 (by decide)

lemma keepsOne_iff_loop (hw : w ≠ []) :
    KeepsOne a w ↔ ∃ s, escapeLoop false (typed w) ⟨[], [], false, false, false⟩ = some s ∧
      padded afpMaxPath s.outgoing1 = padded afpMaxPath w := by
  have hne := typed_ne_nil hw
  simp [KeepsOne, escapePaths, hne, Option.bind_eq_some_iff]

lemma splitsTwo_iff_loop :
    SplitsTwo a b w₁ w₂ ↔
      ∃ s, escapeLoop true (typed w₁ ++ space :: typed w₂) ⟨[], [], false, false, false⟩ = some s ∧
        s.donewith1 ∧ padded afpMaxPath s.outgoing1 = padded afpMaxPath w₁ ∧
          padded afpMaxPath s.outgoing2 = padded afpMaxPath w₂ := by
  simp [SplitsTwo, escapePaths, Option.bind_eq_some_iff]

lemma FileName.fits_first (hw : FileName w) :
    (⟨[], [], false, false, false⟩ : Scan).target.length + w.length ≤ afpMaxPath := by
  rw [Scan.target, if_neg Bool.false_ne_true, List.length_nil, Nat.zero_add]
  exact hw.fits.le

lemma keepsOne_iff (hw : FileName w) : KeepsOne a w ↔ w.count space ≤ 1 := by
  have hfits := hw.fits_first
  have hquote := hw.quote
  rw [keepsOne_iff_loop hw.nonempty, ← List.append_nil (typed w)]
  obtain hspace | ⟨u, v, rfl, hu, hv⟩ | ⟨u, x, y, rfl, hu, hx⟩ := spaces_cases w
  · rw [escapeLoop_plain rfl hquote hspace hfits, List.count_eq_zero_of_not_mem hspace]
    exact iff_of_true ⟨_, rfl, rfl⟩ (Nat.zero_le 1)
  · rw [escapeLoop_one_space rfl rfl hquote hu hv hfits, List.count_append, List.count_cons_self,
      List.count_eq_zero_of_not_mem hu, List.count_eq_zero_of_not_mem hv]
    exact iff_of_true ⟨_, rfl, rfl⟩ (le_refl 1)
  · rw [escapeLoop_two_spaces rfl rfl hquote hu hx hfits, escapeLoop_stop rfl rfl rfl, List.count_append,
      List.count_cons_self, List.count_append, List.count_cons_self]
    refine iff_of_false ?_ (by omega)
    rintro ⟨s, hs, hpadded⟩
    obtain rfl := Option.some.inj hs
    refine two_spaces_not_begins u x y (begins_of_padded hpadded hw.nul List.prefix_rfl fun h0 => hw.nul ?_)
    simp [space, backslash] at h0 ⊢
    tauto

lemma not_splitsTwo_of_space (hw : FileName w₁) (hspace : space ∈ w₁) : ¬ SplitsTwo a b w₁ w₂ := by
  have hfits := hw.fits_first
  have hquote := hw.quote
  rw [splitsTwo_iff_loop]
  rintro ⟨s, hs, -, hpadded, -⟩
  obtain hnone | ⟨u, v, rfl, hu, hv⟩ | ⟨u, x, y, rfl, hu, hx⟩ := spaces_cases w₁
  · exact hnone hspace
  · -- the flag is still set at the space between the names
    have htarget : ((⟨[], [], false, false, false⟩ : Scan).write (u ++ space :: v)).target.length < afpMaxPath := hw.fits
    rw [escapeLoop_one_space rfl rfl hquote hu hv hfits, escapeLoop_space_add rfl rfl (by rwa [Scan.target_setEscape])] at hs
    have hlonger : u ++ space :: v ++ [space] <+: s.outgoing1 := escapeLoop_extends hs
    have hnul : 0 ∉ u ++ space :: v ++ [space] := by simpa [space] using hw.nul
    have hlength := (begins_of_padded hpadded hw.nul hlonger hnul).length_le
    rw [List.length_append, List.length_singleton] at hlength
    omega
  · rw [escapeLoop_two_spaces rfl rfl hquote hu hx hfits] at hs
    refine two_spaces_not_begins u x y (begins_of_padded hpadded hw.nul (escapeLoop_extends hs) fun h0 => hw.nul ?_)
    simp [space, backslash] at h0 ⊢
    tauto

lemma shifted_iff {u x y : Bytes} (hu : space ∉ u) (hx : space ∉ x) :
    space :: (u ++ space :: (x ++ [backslash])) = u ++ space :: (x ++ space :: y) ↔
      u ++ space :: (x ++ space :: y) = [space, space, backslash] := by
  have hhead : ∀ {c : UInt8} {v : Bytes}, space ∉ c :: v → space ≠ c := fun h hc => h (hc ▸ List.mem_cons_self)
  cases u with
  | cons c u => exact iff_of_false (fun h => hhead hu (List.cons.inj h).1) fun h => hhead hu (List.cons.inj h).1.symm
  | nil =>
    cases x with
    | cons c x =>
      refine iff_of_false (fun h => hhead hx ?_) fun h => hhead hx ?_
      · exact (List.cons.inj (List.cons.inj h).2).1
      · exact (List.cons.inj (List.cons.inj h).2).1.symm
    | nil => simp [eq_comm]

lemma splitsTwo_iff_second (hw : FileName w₁) (hspace : space ∉ w₁) :
    SplitsTwo a b w₁ w₂ ↔ ∃ s, escapeLoop true (typed w₂ ++ []) ⟨w₁, [space], false, false, true⟩ = some s ∧
      s.donewith1 ∧ padded afpMaxPath s.outgoing1 = padded afpMaxPath w₁ ∧
        padded afpMaxPath s.outgoing2 = padded afpMaxPath w₂ := by
  have hfits := hw.fits_first
  rw [splitsTwo_iff_loop, escapeLoop_plain rfl hw.quote hspace hfits, Scan.write, if_neg Bool.false_ne_true,
    List.nil_append, escapeLoop_next, List.append_nil]

lemma splitsTwo_iff (hw₁ : FileName w₁) (hw₂ : FileName w₂) (hspace : space ∉ w₁) :
    SplitsTwo a b w₁ w₂ ↔ w₂ = [space, space, backslash] := by
  have hfits : (⟨w₁, [space], false, false, true⟩ : Scan).target.length + w₂.length ≤ afpMaxPath := by
    rw [Scan.target, if_pos rfl, List.length_singleton, Nat.add_comm]
    exact hw₂.fits
  have hquote := hw₂.quote
  -- with one space at most the array holds the name behind a space
  have hlonger : ¬ padded afpMaxPath (space :: w₂) = padded afpMaxPath w₂ := by
    intro h
    have hnul : 0 ∉ space :: w₂ := by simpa [space] using hw₂.nul
    exact List.cons_ne_self _ _ (eq_of_padded h hnul hw₂.nul)
  rw [splitsTwo_iff_second hw₁ hspace]
  obtain hnone | ⟨u, v, rfl, hu, hv⟩ | ⟨u, x, y, rfl, hu, hx⟩ := spaces_cases w₂
  · rw [escapeLoop_plain rfl hquote hnone hfits]
    refine iff_of_false ?_ fun h => hnone (h ▸ List.mem_cons_self)
    rintro ⟨s, hs, -, -, hpadded⟩
    obtain rfl := Option.some.inj hs
    exact hlonger hpadded
  · rw [escapeLoop_one_space rfl rfl hquote hu hv hfits]
    refine iff_of_false ?_ fun h => ?_
    · rintro ⟨s, hs, -, -, hpadded⟩
      obtain rfl := Option.some.inj hs
      exact hlonger hpadded
    · have hcount := congrArg (List.count space) h
      rw [List.count_append, List.count_cons_self, List.count_eq_zero_of_not_mem hu,
        List.count_eq_zero_of_not_mem hv] at hcount
      exact absurd hcount (by decide)
  · rw [escapeLoop_two_spaces rfl rfl hquote hu hx hfits, escapeLoop_stop rfl rfl rfl]
    have hnul : 0 ∉ space :: (u ++ space :: (x ++ [backslash])) := by
      have h0 := hw₂.nul
      simp [space, backslash] at h0 ⊢
      tauto
    rw [← shifted_iff hu hx]
    constructor
    · rintro ⟨s, hs, -, -, hpadded⟩
      obtain rfl := Option.some.inj hs
      exact eq_of_padded hpadded hnul hw₂.nul
    · intro hname
      exact ⟨_, rfl, rfl, rfl, congrArg (padded afpMaxPath) hname⟩

end Paths

/-- Two names are split as they were typed just if the first has no space and the second is two spaces and a backslash, and
a single name comes out just if it has one space at most. -/
theorem escape_paths_iff (a b : Block afpMaxPath) {w₁ w₂ : Bytes} (hw₁ : FileName w₁) (hw₂ : FileName w₂) :
    (SplitsTwo a b w₁ w₂ ↔ space ∉ w₁ ∧ w₂ = [space, space, backslash]) ∧ (KeepsOne a w₁ ↔ w₁.count space ≤ 1) := by
  refine ⟨?_, keepsOne_iff hw₁⟩
  by_cases hspace : space ∈ w₁
  · exact iff_of_false (not_splitsTwo_of_space hw₁ hspace) fun h => h.1 hspace
  · rw [splitsTwo_iff hw₁ hw₂ hspace, and_iff_right hspace]

lemma fileName_singleton {c : UInt8} (h0 : c ≠ 0) (hc : c ≠ quote) : FileName [c] where
  nonempty := List.cons_ne_nil c []
  nul := by simpa using h0.symm
  quote := by simpa using hc.symm
  fits := by
    rw [List.length_singleton, afpMaxPath]
    omega

theorem escape_paths_iff_letters :
    (SplitsTwo (.zeros afpMaxPath) (.zeros afpMaxPath) [97] [98] ↔ space ∉ [97] ∧ [98] = [space, space, backslash]) ∧
      (KeepsOne (.zeros afpMaxPath) [97] ↔ [97].count space ≤ 1) :=
  escape_paths_iff (.zeros afpMaxPath) (.zeros afpMaxPath) (fileName_singleton (by decide) (by decide))
    (fileName_singleton (by decide) (by decide))

/-- `mv a b`: the second path is `b` with a space in front of it. -/
theorem escape_paths_space_copied :
    escapePaths (some (.zeros afpMaxPath)) (some (.zeros afpMaxPath)) [97, space, 98] =
      some (0, some (padded afpMaxPath [97]), some (padded afpMaxPath [space, 98])) ∧
    ¬ SplitsTwo (.zeros afpMaxPath) (.zeros afpMaxPath) [97] [98] := by
  refine ⟨rfl, fun h => ?_⟩
  have hname := (splitsTwo_iff (fileName_singleton (by decide) (by decide)) (fileName_singleton (by decide) (by decide))
    (by decide)).1 h
  exact absurd hname (by decide)

end AfpfsNg.Cmdline
