import Mathlib.Data.List.TakeWhile
import AfpfsNg.Mid.ListedNames

/-!
# The listing of an AppleDouble directory

`appledouble_readdir` (`lib/resource.c`) takes the list of the directory that it belongs to, leaves out what has no
resource fork, and hangs a list of invented files behind it: one of finder info for each entry, and one for each comment.
`remove_fp` loses what is in front of the entry that it removes, and both loops go on with the `next` of an entry that was
freed. The functions stand here once more, with their accesses to the entries of the first list; without these they are the
functions of `Mid.Listing` (`tracedReaddir_ok`).
-/

namespace AfpfsNg.Mid
open AfpfsNg.Base AfpfsNg.Afp AfpfsNg.Did AfpfsNg.Fork AfpfsNg.Proto

/-- C `remove_fp`: `*base`, and the accesses. Nothing is assigned to `prev` before the node is found. -/
def tracedRemoveFp (next : Nat → Option Nat) (toremove : Nat) :
    Nat → Option Nat → Option Nat → Option (Option Nat × List (Access Nat))
  | 0, _, _ => none
  | _ + 1, base, none => some (base, [])
  | rounds + 1, base, some fp =>
    if fp = toremove then
      (tracedRemoveFp next toremove rounds (next fp) (next fp)).map fun r =>
        (r.1, .use fp :: .free fp :: .use fp :: r.2)
    else (tracedRemoveFp next toremove rounds base (next fp)).map fun r => (r.1, .use fp :: r.2)

/-- The entry has a resource fork, as `appledouble_readdir` looks at it. -/
def Kept (i : AfpFileInfo) : Prop := i.unixprivs.permissions &&& S_IFREG ≠ 0 ∧ i.resourcesize ≠ 0

instance (i : AfpFileInfo) : Decidable (Kept i) := inferInstanceAs (Decidable (_ ∧ _))

section Code
variable {σ : Type} (S : Station σ) (m : Mount) (clock : Nat → Nat)

/-- The end of a round in the loop of `appledouble_readdir`: `*base`. -/
def tracedKeep (rounds : Nat) (base : Option Nat) (fp : Nat) : Op σ (Option Nat × List (Access Nat)) := do
  let h := (← get).heap
  if Kept (h.info fp) then return (base, [])
  else
    match tracedRemoveFp h.next fp rounds base base with
    | none => throw .outOfFuel
    | some r => return r

def tracedEntries : Nat → Option Nat → Option Nat → Option Nat → Option Nat →
    Op σ ((Option Nat × Option Nat × Option Nat) × List (Access Nat))
  | 0, _, _, _, _ => throw .outOfFuel
  | _ + 1, none, base, newchain, last => return ((base, newchain, last), [])
  | rounds + 1, some fp, base, newchain, _ => do
    let newchain ← addFp newchain fp finderinfoString
    let newchain ← addComment S newchain fp
    let r ← tracedKeep rounds base fp
    let t ← tracedEntries rounds ((← get).heap.next fp) r.1 newchain (some fp)
    return (t.1, .use fp :: (r.2 ++ .use fp :: t.2))

/-- C `appledouble_readdir`. -/
def tracedReaddir (rounds : Nat) (fi : FileInfo) (path : Bytes) (base : Option Nat) :
    Op σ ((Int × Option Nat) × List (Access Nat)) := do
  match ← extraTranslate m.toVolume path with
  | (.none, _) | (.finderinfo, _) => return ((0, base), [])
  | (.resource, _) | (.serverIcon, _) | (.comment, _) => return ((-ENOTDIR, base), [])
  | (.appledouble, newpath) =>
    let (_, base) ← llReaddir S m clock rounds fi newpath base true
    let ((base, newchain, last), acc) ← tracedEntries S rounds base base none none
    match newchain, last with
    | some _, some last =>
      modify fun k => { k with heap := k.heap.link last newchain }
      return ((1, base), acc ++ [.use last])
    | _, _ => return ((1, base), acc)

end Code

variable {next : Nat → Option Nat} {toremove rounds : Nat} {base p : Option Nat} {i : AfpFileInfo} {σ : Type}

lemma tracedRemoveFp_search {b : Option Nat} {acc : List (Access Nat)}
    (h : tracedRemoveFp next toremove rounds base p = some (b, acc)) :
    search next (· == toremove) rounds p = some none ∧ b = base ∨
      search next (· == toremove) rounds p = some (some toremove) ∧ b = next toremove := by
  induction rounds generalizing base p acc with
  | zero => cases h
  | succ rounds ih =>
    cases p with
    | none =>
      cases h
      exact .inl ⟨rfl, rfl⟩
    | some fp =>
      rw [tracedRemoveFp] at h
      by_cases hfp : fp = toremove
      · subst hfp
        rw [if_pos rfl] at h
        obtain ⟨⟨b', acc'⟩, hrec, heq⟩ := Option.map_eq_some_iff.mp h
        cases heq
        refine .inr ⟨if_pos (beq_self_eq_true fp), ?_⟩
        rcases ih hrec with ⟨-, hb⟩ | ⟨-, hb⟩
        · exact hb
        · exact hb
      · rw [if_neg hfp] at h
        obtain ⟨⟨b', acc'⟩, hrec, heq⟩ := Option.map_eq_some_iff.mp h
        cases heq
        rw [search, if_neg (by rwa [beq_iff_eq])]
        exact ih hrec

section Erase
variable {σ : Type} {S : Station σ} {m : Mount} {clock : Nat → Nat} {k k' : State σ} {rounds fp : Nat}
  {base : Option Nat} {acc : List (Access Nat)}

lemma tracedKeep_ok {b : Option Nat} (h : tracedKeep rounds base fp k = .ok ((b, acc), k')) :
    k' = k ∧ (Kept (k.heap.info fp) ∧ b = base ∧ acc = [] ∨
        ¬ Kept (k.heap.info fp) ∧ tracedRemoveFp k.heap.next fp rounds base base = some (b, acc)) := by
  rw [tracedKeep, run_bind_ok rfl] at h
  by_cases hkept : Kept (k.heap.info fp)
  · rw [if_pos hkept] at h
    cases h
    exact ⟨rfl, .inl ⟨hkept, rfl, rfl⟩⟩
  · rw [if_neg hkept] at h
    cases hremove : tracedRemoveFp k.heap.next fp rounds base base with
    | none =>
      rw [hremove] at h
      cases h
    | some r =>
      rw [hremove] at h
      cases h
      exact ⟨rfl, .inr ⟨hkept, rfl⟩⟩

lemma removeFp_of_traced {b : Option Nat} (h : tracedRemoveFp k.heap.next fp rounds base base = some (b, acc)) :
    removeFp rounds base fp k = .ok (b, k) := by
  rw [removeFp, run_bind_ok rfl]
  rcases tracedRemoveFp_search h with ⟨hsearch, hb⟩ | ⟨hsearch, hb⟩
  · rw [hsearch, hb]
    rfl
  · rw [hsearch, hb]
    rfl

lemma tracedEntries_cons {newchain last : Option Nat} {r : Option Nat × Option Nat × Option Nat} :
    tracedEntries S (rounds + 1) (some fp) base newchain last k = .ok ((r, acc), k') ↔
      ∃ c₁ k₁ c₂ k₂ b acc₁ acc₂, addFp newchain fp finderinfoString k = .ok (c₁, k₁) ∧ addComment S c₁ fp k₁ = .ok (c₂, k₂) ∧
        tracedKeep rounds base fp k₂ = .ok ((b, acc₁), k₂) ∧
        tracedEntries S rounds (k₂.heap.next fp) b c₂ (some fp) k₂ = .ok ((r, acc₂), k') ∧
        acc = .use fp :: (acc₁ ++ .use fp :: acc₂) := by
  constructor
  · intro h
    obtain ⟨c₁, k₁, hfinder, h₁⟩ := bind_run_ok h
    obtain ⟨c₂, k₂, hcomment, h₂⟩ := bind_run_ok h₁
    obtain ⟨⟨b, acc₁⟩, k₃, hkeep, h₃⟩ := bind_run_ok h₂
    rw [run_bind_ok rfl] at h₃
    obtain ⟨⟨t, acc₂⟩, k₄, hrest, h₄⟩ := bind_run_ok h₃
    cases h₄
    cases (tracedKeep_ok hkeep).1
    exact ⟨c₁, k₁, c₂, k₂, b, acc₁, acc₂, hfinder, hcomment, hkeep, hrest, rfl⟩
  · rintro ⟨c₁, k₁, c₂, k₂, b, acc₁, acc₂, hfinder, hcomment, hkeep, hrest, rfl⟩
    rw [tracedEntries, run_bind_ok hfinder, run_bind_ok hcomment, run_bind_ok hkeep, run_bind_ok rfl, run_bind_ok hrest]
    rfl

lemma tracedEntries_ok {p newchain last : Option Nat} {r : Option Nat × Option Nat × Option Nat}
    (h : tracedEntries S rounds p base newchain last k = .ok ((r, acc), k')) :
    appledoubleEntries S rounds p base newchain last k = .ok (r, k') := by
  induction rounds generalizing p base newchain last k acc with
  | zero => cases h
  | succ rounds ih =>
    cases p with
    | none =>
      cases h
      rfl
    | some fp =>
      obtain ⟨c₁, k₁, c₂, k₂, b, acc₁, acc₂, hfinder, hcomment, hkeep, hrest, rfl⟩ := tracedEntries_cons.mp h
      rw [appledoubleEntries, run_bind_ok hfinder, run_bind_ok hcomment, run_bind_ok rfl]
      rcases (tracedKeep_ok hkeep).2 with ⟨hkept, rfl, -⟩ | ⟨hkept, hremove⟩
      · rw [if_pos (show _ ∧ _ from hkept)]
        exact ih hrest
      · rw [if_neg (show ¬ (_ ∧ _) from hkept), run_bind_ok (removeFp_of_traced hremove)]
        exact ih hrest

/-- With its accesses left out, this is `appledouble_readdir`. -/
lemma tracedReaddir_ok {fi : FileInfo} {path : Bytes} {r : Int × Option Nat}
    (h : tracedReaddir S m clock rounds fi path base k = .ok ((r, acc), k')) :
    appledoubleReaddir S m clock rounds fi path base k = .ok (r, k') := by
  obtain ⟨⟨kind, newpath⟩, k₁, hkind, h⟩ := bind_run_ok h
  rw [appledoubleReaddir, run_bind_ok hkind]
  cases kind with
  | appledouble =>
    obtain ⟨⟨rc, base₁⟩, k₂, hread, h⟩ := bind_run_ok h
    obtain ⟨⟨⟨base₂, newchain, last⟩, acc₁⟩, k₃, hentries, h⟩ := bind_run_ok h
    dsimp only
    rw [run_bind_ok hread]
    dsimp only
    rw [run_bind_ok (tracedEntries_ok hentries)]
    cases newchain with
    | none =>
      cases h
      rfl
    | some newchain =>
      cases last with
      | none =>
        cases h
        rfl
      | some last =>
        cases h
        rfl
  | none => cases h; rfl
  | resource => cases h; rfl
  | finderinfo => cases h; rfl
  | comment => cases h; rfl
  | serverIcon => cases h; rfl

end Erase

/-- The name of the entry ends in its array, and there is room for an ending of eleven characters. -/
def HasRoom (i : AfpFileInfo) : Prop := ∃ s, cString i.name = .ok s ∧ s.length + finderinfoString.length < afpMaxPath

def invent (suffix : Bytes) (i : AfpFileInfo) : AfpFileInfo where
  __ := i
  name := zeroPadded afpMaxPath (nameOf i ++ suffix)
  resourcesize := 32
  unixprivs := { i.unixprivs with permissions := i.unixprivs.permissions ||| S_IFREG }

lemma cString_eq {s : Bytes} (h : cString i.name = .ok s) : s = nameOf i := by
  rw [cString] at h
  split at h
  case h_1 => cases h
  case h_2 n hn =>
    cases h
    exact take_strchr hn

lemma nameOf_invent {suffix : Bytes} (hsuffix : 0 ∉ suffix) : nameOf (invent suffix i) = nameOf i ++ suffix := by
  have hall : ∀ c ∈ nameOf i ++ suffix, decide (c ≠ 0) = true := by
    intro c hc
    rcases List.mem_append.mp hc with hc | hc
    · exact List.mem_takeWhile_imp (p := fun c => decide (c ≠ 0)) hc
    · exact decide_eq_true (ne_of_mem_of_not_mem hc hsuffix)
  calc nameOf (invent suffix i)
    _ = Base.cString (nameOf i ++ suffix) := cString_padded ..
    _ = nameOf i ++ suffix := List.takeWhile_eq_self_iff.mpr hall

/-- From one heap to the other a list grows at its head by new nodes with these entries, and all other nodes stay as they
were. -/
structure Extends (h h' : Heap) (chain chain' : Option Nat) (new : List AfpFileInfo) : Prop where
  le : h.mallocs ≤ h'.mallocs
  info : ∀ a < h.mallocs, h'.info a = h.info a
  next : ∀ a < h.mallocs, h'.next a = h.next a
  nodes : ∃ xs, xs.map h'.info = new ∧ Segment h'.next chain' xs chain ∧ ∀ a ∈ xs, h.mallocs ≤ a ∧ a < h'.mallocs

namespace Extends
variable {h h₁ h₂ : Heap} {c c₁ c₂ : Option Nat} {new new' : List AfpFileInfo}

lemma refl (h : Heap) (c : Option Nat) : Extends h h c c [] :=
  ⟨Nat.le_refl _, fun _ _ => rfl, fun _ _ => rfl, [], rfl, .nil c, List.forall_mem_nil _⟩

lemma trans (h₁₂ : Extends h h₁ c c₁ new) (h₂₃ : Extends h₁ h₂ c₁ c₂ new') : Extends h h₂ c c₂ (new' ++ new) := by
  obtain ⟨xs, hxs, hseg, hmade⟩ := h₁₂.nodes
  obtain ⟨ys, hys, hseg', hmade'⟩ := h₂₃.nodes
  have hle := h₁₂.le
  have hle' := h₂₃.le
  refine ⟨Nat.le_trans hle hle', fun a ha => ?_, fun a ha => ?_, ys ++ xs, ?_, hseg'.append ?_, fun a ha => ?_⟩
  · exact (h₂₃.info a (Nat.lt_of_lt_of_le ha hle)).trans (h₁₂.info a ha)
  · exact (h₂₃.next a (Nat.lt_of_lt_of_le ha hle)).trans (h₁₂.next a ha)
  · rw [List.map_append, hys, List.map_congr_left fun a ha => h₂₃.info a (hmade a ha).2, hxs]
  · exact hseg.congr fun a ha => h₂₃.next a (hmade a ha).2
  · rcases List.mem_append.mp ha with ha | ha
    · have := hmade' a ha
      omega
    · have := hmade a ha
      omega

lemma chain (hext : Extends h h₁ c c₁ new) {p : Option Nat} {xs : List Nat} (hp : Chain h.next p xs)
    (hmade : ∀ a ∈ xs, a < h.mallocs) : Chain h₁.next p xs :=
  Segment.congr hp fun a ha => hext.next a (hmade a ha)

end Extends

section Adding
variable {σ : Type} {S : Station σ} {k k' : State σ} {newchain : Option Nat} {fp : Nat} {suffix : Bytes}

lemma addFp_extends {s : Bytes} (hs : cString (k.heap.info fp).name = .ok s)
    (hroom : s.length + suffix.length < afpMaxPath) (newchain : Option Nat) : ∃ newchain' k',
      addFp newchain fp suffix k = .ok (newchain', k') ∧
        Extends k.heap k'.heap newchain newchain' [invent suffix (k.heap.info fp)] := by
  have hfits : ¬ afpMaxPath ≤ (s ++ suffix).length := by
    rw [List.length_append]
    omega
  refine ⟨some k.heap.mallocs, { k with heap := ((k.heap.malloc.2.fill k.heap.mallocs
    (invent suffix (k.heap.info fp))).link k.heap.mallocs newchain) }, ?_, ?_⟩
  · rw [addFp, run_bind_ok rfl, run_bind_ok (lift_run hs), if_neg hfits, cString_eq hs]
    rfl
  · have hnew (a : Nat) (ha : a < k.heap.mallocs) : a ≠ k.heap.mallocs := Nat.ne_of_lt ha
    refine ⟨Nat.le_succ _, fun a ha => ?_, fun a ha => ?_, [k.heap.mallocs], ?_, ?_, ?_⟩
    · exact Function.update_of_ne (hnew a ha) ..
    · exact (Function.update_of_ne (hnew a ha) ..).trans (Function.update_of_ne (hnew a ha) ..)
    · exact congrArg (fun i => [i]) (Function.update_self ..)
    · apply Segment.cons
      rw [show (Heap.link _ _ newchain).next k.heap.mallocs = newchain from Function.update_self ..]
      exact .nil newchain
    · intro a ha
      rw [List.mem_singleton.mp ha]
      exact ⟨Nat.le_refl _, Nat.lt_succ_self _⟩

lemma addFp_room {newchain newchain' : Option Nat} (h : addFp newchain fp suffix k = .ok (newchain', k')) :
    ∃ s, cString (k.heap.info fp).name = .ok s ∧ s.length + suffix.length < afpMaxPath := by
  rw [addFp, run_bind_ok rfl] at h
  cases hs : cString (k.heap.info fp).name with
  | error f =>
    rw [hs] at h
    cases h
  | ok s =>
    rw [run_bind_ok (lift_run hs)] at h
    refine ⟨s, rfl, ?_⟩
    split at h
    case isTrue => cases h
    case isFalse hfits =>
      rw [List.length_append] at hfits
      omega

end Adding

lemma tracedRemoveFp_frees {b : Option Nat} {pre post : List Nat} {acc : List (Access Nat)}
    (hchain : Chain next p (pre ++ toremove :: post)) (h : tracedRemoveFp next toremove rounds base p = some (b, acc)) :
    .free toremove ∈ acc := by
  induction rounds generalizing base p pre acc with
  | zero => cases h
  | succ rounds ih =>
    have hfound {base : Option Nat} (h : tracedRemoveFp next toremove (rounds + 1) base (some toremove) = some (b, acc)) :
        .free toremove ∈ acc := by
      rw [tracedRemoveFp, if_pos rfl] at h
      obtain ⟨⟨b', acc'⟩, -, heq⟩ := Option.map_eq_some_iff.mp h
      cases heq
      exact .tail _ (.head _)
    cases pre with
    | nil =>
      cases hchain.head_eq
      exact hfound h
    | cons fp pre =>
      cases hchain.head_eq
      by_cases hfp : fp = toremove
      · exact hfound (hfp ▸ h)
      cases hchain with
      | cons hrest =>
        rw [tracedRemoveFp, if_neg hfp] at h
        obtain ⟨⟨b', acc'⟩, hrec, heq⟩ := Option.map_eq_some_iff.mp h
        cases heq
        exact .tail _ (ih hrest hrec)

lemma tracedRemoveFp_chain {xs : List Nat} (toremove : Nat) (base : Option Nat) (hchain : Chain next p xs)
    (hrounds : xs.length < rounds) : ∃ r, tracedRemoveFp next toremove rounds base p = some r := by
  induction xs generalizing base p rounds with
  | nil =>
    cases hchain
    obtain ⟨rounds, rfl⟩ := Nat.exists_eq_add_of_lt hrounds
    exact ⟨_, rfl⟩
  | cons fp xs ih =>
    obtain ⟨rounds, rfl⟩ := Nat.exists_eq_add_of_lt hrounds
    cases hchain with
    | cons hrest =>
      rw [tracedRemoveFp]
      split
      · obtain ⟨r, hr⟩ := ih (next fp) hrest (Nat.lt_of_succ_lt_succ hrounds)
        exact ⟨_, congrArg (Option.map _) hr⟩
      · obtain ⟨r, hr⟩ := ih base hrest (Nat.lt_of_succ_lt_succ hrounds)
        exact ⟨_, congrArg (Option.map _) hr⟩

lemma tracedRemoveFp_behind {xs : List Nat} (hchain : Chain next base xs) (hmem : toremove ∈ xs)
    (hrounds : xs.length < rounds) :
    ∃ acc, tracedRemoveFp next toremove rounds base base = some (next toremove, acc) := by
  obtain ⟨⟨b, acc⟩, hrun⟩ := tracedRemoveFp_chain toremove base hchain hrounds
  rcases tracedRemoveFp_search hrun with ⟨hsearch, -⟩ | ⟨-, rfl⟩
  · rw [hchain.search_find hrounds, Option.some.injEq, List.find?_eq_none] at hsearch
    exact absurd (beq_self_eq_true toremove) (hsearch toremove hmem)
  · exact ⟨acc, hrun⟩

lemma tracedKeep_rest {k : State σ} {fp : Nat} {pre rest : List Nat}
    (hbase : Chain k.heap.next base (pre ++ fp :: rest)) (hrounds : (pre ++ fp :: rest).length < rounds) :
    ∃ b acc pre', tracedKeep rounds base fp k = .ok ((b, acc), k) ∧ Chain k.heap.next b (pre' ++ rest) ∧
      pre'.length ≤ pre.length + 1 ∧ (∀ a ∈ pre', a ∈ pre ++ [fp]) ∧ (¬ Kept (k.heap.info fp) → pre' = []) := by
  rw [tracedKeep, run_bind_ok rfl]
  by_cases hkept : Kept (k.heap.info fp)
  · rw [if_pos hkept]
    refine ⟨base, [], pre ++ [fp], rfl, ?_, ?_, fun _ ha => ha, fun hnot => absurd hkept hnot⟩
    · rwa [← List.append_cons]
    · rw [List.length_append, List.length_singleton]
  · obtain ⟨acc, hremove⟩ := tracedRemoveFp_behind hbase (List.mem_append_right _ (.head _)) hrounds
    obtain ⟨q, -, hrest⟩ := Segment.split hbase
    rw [if_neg hkept, hremove]
    cases hrest with
    | cons hrest => exact ⟨k.heap.next fp, acc, [], rfl, hrest, Nat.zero_le _, List.forall_mem_nil _, fun _ => rfl⟩

/-- A server that tells the comments of files; a file without one has none or an empty one. -/
structure TellsComments {σ : Type} (S : Station σ) (comment : Nat → Bytes → Bytes) : Prop where
  opendt (s : σ) : (S.respond s (.fork .opendt)).1.code = kFPNoErr
  getcomment (s : σ) (did : Nat) (name : Bytes) :
    (S.respond s (.fork (.getcomment did name))).1.code = kFPNoErr ∧
        (S.respond s (.fork (.getcomment did name))).1.data = comment did name ∨
      (S.respond s (.fork (.getcomment did name))).1.code = kFPItemNotFound ∧ comment did name = []

def commentOf (comment : Nat → Bytes → Bytes) (i : AfpFileInfo) : Bytes := comment i.did.toNat (nameOf i)

/-- The files that are invented for an entry, the last one first. -/
def inventedFor (comment : Nat → Bytes → Bytes) (i : AfpFileInfo) : List AfpFileInfo :=
  (if commentOf comment i ≠ [] then [invent commentString i] else []) ++ [invent finderinfoString i]

section Comments
variable {σ : Type} {S : Station σ} {comment : Nat → Bytes → Bytes} (hS : TellsComments S comment) {k k' : State σ}
include hS

lemma opendt_run (k : State σ) : ∃ k', opendt S k = .ok (0, k') ∧ k'.heap = k.heap := by
  have hrun : opendt S k = .ok ((S.respond k.peer (.fork .opendt)).1.code, _) := rfl
  rw [hS.opendt] at hrun
  exact ⟨_, hrun, rfl⟩

lemma ensureDtOpened_run (k : State σ) : ∃ k', ensureDtOpened S k = .ok (0, k') ∧ k'.heap = k.heap := by
  rw [ensureDtOpened, run_bind_ok rfl]
  split
  · exact ⟨k, rfl, rfl⟩
  · exact opendt_run hS k

lemma commentSize_run (did : Nat) (name : Bytes) (k : State σ) : ∃ size k',
    commentSize S name did k = .ok (size, k') ∧ k'.heap = k.heap ∧ (0 < size ↔ comment did name ≠ []) := by
  rw [commentSize, run_bind_ok rfl]
  rcases hS.getcomment k.peer did name with ⟨hcode, hdata⟩ | ⟨hcode, hnone⟩
  · rw [if_pos hcode, hdata]
    refine ⟨_, _, rfl, rfl, ?_⟩
    rw [Int.natCast_pos, List.length_pos_iff, ne_eq, List.take_eq_nil_iff]
    exact not_congr (or_iff_right (by decide))
  · rw [hcode, if_neg (by decide)]
    refine ⟨-ENOENT, _, rfl, rfl, iff_of_false (by decide) (not_not.mpr hnone)⟩

lemma getCommentSize_run (did : Nat) (name : Bytes) (k : State σ) : ∃ size k',
    getCommentSize S name did k = .ok (size, k') ∧ k'.heap = k.heap ∧ (0 < size ↔ comment did name ≠ []) := by
  rw [getCommentSize, run_bind_ok rfl]
  split
  · obtain ⟨k₁, hrun, hheap⟩ := opendt_run hS k
    obtain ⟨size, k₂, hsize, hheap₂, hpos⟩ := commentSize_run hS did name k₁
    rw [run_bind_ok hrun, if_neg (by decide)]
    exact ⟨size, k₂, hsize, hheap₂.trans hheap, hpos⟩
  · exact commentSize_run hS did name k

lemma addComment_extends {fp : Nat} (hroom : HasRoom (k.heap.info fp)) (newchain : Option Nat) : ∃ newchain' k',
    addComment S newchain fp k = .ok (newchain', k') ∧ Extends k.heap k'.heap newchain newchain'
      (if commentOf comment (k.heap.info fp) ≠ [] then [invent commentString (k.heap.info fp)] else []) := by
  obtain ⟨s, hs, hlen⟩ := hroom
  obtain ⟨k₁, hopen, hheap⟩ := ensureDtOpened_run hS k
  obtain ⟨size, k₂, hsize, hheap₂, hpos⟩ := getCommentSize_run hS (k₁.heap.info fp).did.toNat s k₁
  rw [← hheap] at hs
  rw [addComment, run_bind_ok hopen, if_pos rfl, run_bind_ok rfl, run_bind_ok (lift_run hs), run_bind_ok hsize]
  rw [cString_eq hs, hheap] at hpos
  rw [← hheap₂] at hs
  rw [← hheap, ← hheap₂]
  rw [← hheap, ← hheap₂] at hpos
  by_cases hcomment : commentOf comment (k₂.heap.info fp) ≠ []
  · rw [if_pos (hpos.mpr hcomment), if_pos hcomment]
    apply addFp_extends hs
    exact Nat.lt_of_le_of_lt (Nat.add_le_add_left (by decide) _) hlen
  · rw [if_neg (fun h => hcomment (hpos.mp h)), if_neg hcomment]
    exact ⟨newchain, k₂, rfl, .refl ..⟩

lemma added {fp : Nat} (hfp : fp < k.heap.mallocs) (hroom : HasRoom (k.heap.info fp)) (newchain : Option Nat) : ∃ c₁ k₁ c₂ k₂,
    addFp newchain fp finderinfoString k = .ok (c₁, k₁) ∧ addComment S c₁ fp k₁ = .ok (c₂, k₂) ∧
      Extends k.heap k₂.heap newchain c₂ (inventedFor comment (k.heap.info fp)) := by
  obtain ⟨s, hs, hlen⟩ := hroom
  obtain ⟨c₁, k₁, hfinder, hext₁⟩ := addFp_extends hs hlen newchain
  have hinfo := hext₁.info fp hfp
  obtain ⟨c₂, k₂, hcomment, hext₂⟩ := addComment_extends hS (hinfo ▸ ⟨s, hs, hlen⟩ : HasRoom (k₁.heap.info fp)) c₁
  rw [hinfo] at hext₂
  exact ⟨c₁, k₁, c₂, k₂, hfinder, hcomment, hext₁.trans hext₂⟩

lemma tracedEntries_kept {nodes : List Nat} {p : Option Nat} {rounds : Nat} (base newchain last : Option Nat)
    (hchain : Chain k.heap.next p nodes) (hmade : ∀ a ∈ nodes, a < k.heap.mallocs) (hrounds : nodes.length < rounds)
    (hroom : ∀ a ∈ nodes, HasRoom (k.heap.info a)) (hkept : ∀ a ∈ nodes, Kept (k.heap.info a)) : ∃ newchain' acc k',
      tracedEntries S rounds p base newchain last k = .ok (((base, newchain', nodes.getLast?.or last), acc), k') ∧
        Extends k.heap k'.heap newchain newchain' ((nodes.map k.heap.info).reverse.flatMap (inventedFor comment)) ∧
        ∀ x ∈ acc, ∃ a, a ∉ [] ∧ x = .use a := by
  induction nodes generalizing k p newchain last rounds with
  | nil =>
    cases hchain
    obtain ⟨rounds, rfl⟩ := Nat.exists_eq_add_of_lt hrounds
    exact ⟨newchain, [], k, rfl, .refl .., nofun⟩
  | cons fp nodes ih =>
    obtain ⟨rounds, rfl⟩ : ∃ r, rounds = r + 1 := ⟨rounds - 1, by omega⟩
    rw [List.forall_mem_cons] at hmade hroom hkept
    cases hchain with
    | cons hrest =>
      obtain ⟨c₁, k₁, c₂, k₂, hfinder, hcomment, hext⟩ := added hS hmade.1 hroom.1 newchain
      have hinfo (a : Nat) (ha : a ∈ nodes) : k₂.heap.info a = k.heap.info a := hext.info a (hmade.2 a ha)
      have hkeep : tracedKeep rounds base fp k₂ = .ok ((base, []), k₂) := by
        rw [tracedKeep, run_bind_ok rfl, hext.info fp hmade.1, if_pos hkept.1]
        rfl
      have hchain' := hext.chain hrest hmade.2
      rw [← hext.next fp hmade.1] at hchain'
      obtain ⟨newchain', acc, k', hrun, hext', huses⟩ := ih c₂ (some fp) hchain'
        (fun a ha => Nat.lt_of_lt_of_le (hmade.2 a ha) hext.le) (Nat.lt_of_succ_lt_succ hrounds)
        (fun a ha => hinfo a ha ▸ hroom.2 a ha) (fun a ha => hinfo a ha ▸ hkept.2 a ha)
      have hlast : nodes.getLast?.or (some fp) = (fp :: nodes).getLast?.or last := by
        rw [List.getLast?_cons]
        cases nodes.getLast? with
        | none => rfl
        | some l => rfl
      refine ⟨newchain', .use fp :: ([] ++ .use fp :: acc), k', ?_, ?_, ?_⟩
      · rw [← hlast]
        exact tracedEntries_cons.mpr ⟨c₁, k₁, c₂, k₂, base, [], acc, hfinder, hcomment, hkeep, hrun, rfl⟩
      · rw [List.map_congr_left hinfo] at hext'
        rw [List.map_cons, List.reverse_cons, List.flatMap_append, List.flatMap_singleton]
        exact hext.trans hext'
      · intro x hx
        rcases List.mem_cons.mp hx with rfl | hx
        · exact ⟨fp, List.not_mem_nil, rfl⟩
        rcases List.mem_cons.mp hx with rfl | hx
        · exact ⟨fp, List.not_mem_nil, rfl⟩
        · exact huses x hx

lemma tracedEntries_proper {pre nodes : List Nat} {p base newchain last : Option Nat} {rounds : Nat}
    {r : Option Nat × Option Nat × Option Nat} {acc : List (Access Nat)}
    (h : tracedEntries S rounds p base newchain last k = .ok ((r, acc), k')) (hchain : Chain k.heap.next p nodes)
    (hbase : Chain k.heap.next base (pre ++ nodes)) (hmade : ∀ a ∈ pre ++ nodes, a < k.heap.mallocs) (hproper : Proper [] acc) :
    ∀ a ∈ nodes, HasRoom (k.heap.info a) ∧ Kept (k.heap.info a) := by
  induction nodes generalizing k pre p newchain last rounds acc with
  | nil => exact List.forall_mem_nil _
  | cons fp nodes ih =>
    cases rounds with
    | zero => cases h
    | succ rounds =>
    cases hchain.head_eq
    obtain ⟨c₁, k₁, c₂, k₂, b, acc₁, acc₂, hfinder, hcomment, hkeep, hrest, rfl⟩ := tracedEntries_cons.mp h
    have hfp : fp < k.heap.mallocs := hmade fp (List.mem_append_right _ (.head _))
    have hroom : HasRoom (k.heap.info fp) := addFp_room hfinder
    -- the runs are those of the two calls of `add_fp`
    obtain ⟨c₁', k₁', c₂', k₂', hfinder', hcomment', hext⟩ := added hS hfp hroom newchain
    cases hfinder.symm.trans hfinder'
    cases hcomment.symm.trans hcomment'
    have hbase' := hext.chain hbase hmade
    obtain ⟨hkept, rfl, rfl⟩ | ⟨-, hremove⟩ := (tracedKeep_ok hkeep).2
    case inr =>
      exact absurd (tracedRemoveFp_frees hbase' hremove) hproper.2.not_freed.2
    case inl =>
      rw [hext.info fp hfp] at hkept
      rw [List.append_cons] at hbase' hmade
      have hnodes : ∀ a ∈ nodes, a < k.heap.mallocs := fun a ha => hmade a (List.mem_append_right _ ha)
      cases hchain with
      | cons htail =>
        have hchain' := hext.chain htail hnodes
        rw [← hext.next fp hfp] at hchain'
        have hall := ih hrest hchain' hbase' (fun a ha => Nat.lt_of_lt_of_le (hmade a ha) hext.le) hproper.2.2
        refine List.forall_mem_cons.mpr ⟨⟨hroom, hkept⟩, fun a ha => ?_⟩
        rw [← hext.info a (hnodes a ha)]
        exact hall a ha

lemma tracedEntries_lost {pre nodes : List Nat} {l : Nat} {p base : Option Nat} {rounds : Nat} (newchain last : Option Nat)
    (hchain : Chain k.heap.next p (nodes ++ [l])) (hbase : Chain k.heap.next base (pre ++ (nodes ++ [l])))
    (hmade : ∀ a ∈ pre ++ (nodes ++ [l]), a < k.heap.mallocs) (hrounds : pre.length + 2 * nodes.length + 3 ≤ rounds)
    (hroom : ∀ a ∈ nodes ++ [l], HasRoom (k.heap.info a)) (hlost : ¬ Kept (k.heap.info l)) : ∃ newchain' last' acc k',
      tracedEntries S rounds p base newchain last k = .ok (((none, newchain', last'), acc), k') := by
  obtain ⟨rounds, rfl⟩ : ∃ r, rounds = r + 1 := ⟨rounds - 1, by omega⟩
  induction nodes generalizing k pre p base newchain last rounds with
  | nil =>
    cases hchain with
    | cons hrest =>
      have hl : l < k.heap.mallocs := hmade l (List.mem_append_right _ (.head _))
      obtain ⟨c₁, k₁, c₂, k₂, hfinder, hcomment, hext⟩ := added hS hl (hroom l (.head _)) newchain
      rw [List.nil_append, List.length_nil] at *
      have hfuel : (pre ++ [l]).length < rounds := by
        rw [List.length_append, List.length_singleton]
        omega
      obtain ⟨b, acc, pre', hkeep, hb, -, -, hnil⟩ := tracedKeep_rest (hext.chain hbase hmade) hfuel
      rw [hnil (hext.info l hl ▸ hlost)] at hb
      cases hb
      have hend : k₂.heap.next l = none := (hext.next l hl).trans (Chain.eq_head? hrest)
      obtain ⟨rounds, rfl⟩ : ∃ r, rounds = r + 1 := ⟨rounds - 1, by omega⟩
      refine ⟨c₂, some l, _, k₂, tracedEntries_cons.mpr ⟨c₁, k₁, c₂, k₂, none, acc, [], hfinder, hcomment, hkeep, ?_, rfl⟩⟩
      rw [hend]
      rfl
  | cons fp nodes ih =>
    cases hchain with
    | cons hrest =>
      rw [List.cons_append] at hbase hmade hroom
      rw [List.length_cons] at hrounds
      have hfp : fp < k.heap.mallocs := hmade fp (List.mem_append_right _ (.head _))
      obtain ⟨c₁, k₁, c₂, k₂, hfinder, hcomment, hext⟩ := added hS hfp (hroom fp (.head _)) newchain
      have hfuel : (pre ++ fp :: (nodes ++ [l])).length < rounds := by
        simp only [List.length_append, List.length_cons, List.length_nil]
        omega
      obtain ⟨b, acc, pre', hkeep, hb, hlen, hsub, -⟩ := tracedKeep_rest (hext.chain hbase hmade) hfuel
      have hmade' : ∀ a ∈ pre' ++ (nodes ++ [l]), a < k₂.heap.mallocs := by
        intro a ha
        refine Nat.lt_of_lt_of_le (hmade a ?_) hext.le
        rw [List.append_cons]
        rcases List.mem_append.mp ha with ha | ha
        · exact List.mem_append_left _ (hsub a ha)
        · exact List.mem_append_right _ ha
      have hold : ∀ a ∈ nodes ++ [l], a < k.heap.mallocs := fun a ha => hmade a (List.mem_append_right _ (.tail _ ha))
      have hchain' := hext.chain hrest hold
      rw [← hext.next fp hfp] at hchain'
      obtain ⟨rounds, rfl⟩ : ∃ r, rounds = r + 1 := ⟨rounds - 1, by omega⟩
      obtain ⟨c, l', acc', k', hrun⟩ := ih c₂ (some fp) hchain' hb hmade'
        (fun a ha => hext.info a (hold a ha) ▸ hroom a (.tail _ ha))
        (hext.info l (hold l (List.mem_append_right _ (.head _))) ▸ hlost) rounds (by omega)
      exact ⟨c, l', _, k', tracedEntries_cons.mpr ⟨c₁, k₁, c₂, k₂, b, acc, acc', hfinder, hcomment, hkeep, hrun, rfl⟩⟩

end Comments

/-- C `S_IFMT`. -/
def S_IFMT : UInt32 := 0o170000

def Regular (i : AfpFileInfo) : Prop := i.unixprivs.permissions &&& S_IFMT = S_IFREG ∧ 0 < i.resourcesize

instance (i : AfpFileInfo) : Decidable (Regular i) := inferInstanceAs (Decidable (_ ∧ _))

/-- The listing has the regular files with a resource fork, a file of finder info for every entry and one for every comment,
and no entry is used after it was freed. -/
def ListsAppleDouble {σ : Type} (S : Station σ) (m : Mount) (clock : Nat → Nat) (rounds : Nat) (fi : FileInfo)
    (path : Bytes) (fb : Option Nat) (k : State σ) (comment : Nat → Bytes → Bytes) (E : List AfpFileInfo) : Prop :=
  ∃ base acc k' nodes invented,
    tracedReaddir S m clock rounds fi path fb k = .ok (((1, base), acc), k') ∧ Proper [] acc ∧
      Chain k'.heap.next base nodes ∧ (∀ a ∈ nodes, .free a ∉ acc) ∧
      (nodes.map k'.heap.info).Perm (E.filter Regular ++ invented) ∧
      (invented.map nameOf).Perm
        (E.map (nameOf · ++ finderinfoString) ++ (E.filter (commentOf comment · ≠ [])).map (nameOf · ++ commentString))

lemma Regular.kept (h : Regular i) : Kept i := by
  have hbit : i.unixprivs.permissions &&& S_IFREG = S_IFREG :=
    calc i.unixprivs.permissions &&& S_IFREG
      _ = i.unixprivs.permissions &&& (S_IFMT &&& S_IFREG) := rfl
      _ = i.unixprivs.permissions &&& S_IFMT &&& S_IFREG := (UInt32.and_assoc ..).symm
      _ = S_IFREG := by rw [h.1]; rfl
  refine ⟨?_, fun hzero => absurd (hzero ▸ h.2) (by decide)⟩
  rw [hbit]
  decide

lemma names_invented (comment : Nat → Bytes → Bytes) (E : List AfpFileInfo) :
    ((E.reverse.flatMap (inventedFor comment)).map nameOf).Perm
      (E.map (nameOf · ++ finderinfoString) ++ (E.filter (commentOf comment · ≠ [])).map (nameOf · ++ commentString)) := by
  induction E with
  | nil => exact .nil
  | cons i E ih =>
    have hfinder : nameOf (invent finderinfoString i) = nameOf i ++ finderinfoString := nameOf_invent (by decide)
    have hcomment : nameOf (invent commentString i) = nameOf i ++ commentString := nameOf_invent (by decide)
    rw [List.reverse_cons, List.flatMap_append, List.flatMap_singleton, List.map_append, List.map_cons, List.filter_cons,
      inventedFor]
    by_cases h : commentOf comment i ≠ []
    · rw [if_pos h, if_pos (decide_eq_true h)]
      simp only [List.singleton_append, List.map_cons, List.map_nil, hfinder, hcomment]
      refine List.perm_append_comm.trans ((List.Perm.swap ..).trans (.cons _ ?_))
      exact (ih.cons _).trans List.perm_middle.symm
    · rw [if_neg h, if_neg (by simpa using h)]
      simp only [List.nil_append, List.map_cons, List.map_nil, hfinder]
      exact (List.perm_append_singleton ..).trans (ih.cons _)

section Listing
variable {σ : Type} {S : Station σ} {m : Mount} {clock : Nat → Nat} {comment : Nat → Bytes → Bytes} {rounds : Nat}
  {fi : FileInfo} {path newpath : Bytes} {fb base : Option Nat} {rc : Int} {k k₁ : State σ} {nodes : List Nat}
  (hS : TellsComments S comment) (htranslate : extraTranslate m.toVolume path = .ok (.appledouble, newpath))
  (hread : llReaddir S m clock rounds fi newpath fb true k = .ok ((rc, base), k₁))

include htranslate hread in
lemma tracedReaddir_run {b newchain last : Option Nat} {acc : List (Access Nat)} {k₂ : State σ}
    (hentries : tracedEntries S rounds base base none none k₁ = .ok (((b, newchain, last), acc), k₂)) :
    (newchain = none ∨ last = none) ∧ tracedReaddir S m clock rounds fi path fb k = .ok (((1, b), acc), k₂) ∨
      ∃ c l, newchain = some c ∧ last = some l ∧ tracedReaddir S m clock rounds fi path fb k =
        .ok (((1, b), acc ++ [.use l]), { k₂ with heap := k₂.heap.link l (some c) }) := by
  rw [tracedReaddir, run_bind_ok (lift_run htranslate)]
  dsimp only
  rw [run_bind_ok hread]
  dsimp only
  rw [run_bind_ok hentries]
  cases newchain with
  | none => exact .inl ⟨.inl rfl, rfl⟩
  | some c =>
    cases last with
    | none => exact .inl ⟨.inr rfl, rfl⟩
    | some l => exact .inr ⟨c, l, rfl, rfl, rfl⟩

include hS htranslate hread

lemma tracedReaddir_kept (hchain : Chain k₁.heap.next base nodes) (hmade : ∀ a ∈ nodes, a < k₁.heap.mallocs)
    (hrounds : nodes.length < rounds) (hroom : ∀ a ∈ nodes, HasRoom (k₁.heap.info a))
    (hkept : ∀ a ∈ nodes, Kept (k₁.heap.info a)) : ∃ acc k' xs,
      tracedReaddir S m clock rounds fi path fb k = .ok (((1, base), acc), k') ∧ (∀ x ∈ acc, ∃ a, a ∉ [] ∧ x = .use a) ∧
        Chain k'.heap.next base (nodes ++ xs) ∧ nodes.map k'.heap.info = nodes.map k₁.heap.info ∧
        xs.map k'.heap.info = (nodes.map k₁.heap.info).reverse.flatMap (inventedFor comment) := by
  obtain ⟨newchain, acc, k₂, hentries, hext, huses⟩ := tracedEntries_kept hS base none none hchain hmade hrounds hroom hkept
  obtain ⟨xs, hinfos, hseg, hnew⟩ := hext.nodes
  have hold : nodes.map k₂.heap.info = nodes.map k₁.heap.info := List.map_congr_left fun a ha => hext.info a (hmade a ha)
  have hchain₂ := hext.chain hchain hmade
  rw [Option.or_none] at hentries
  rcases tracedReaddir_run htranslate hread hentries with ⟨hnone, hrun⟩ | ⟨c, l, rfl, hlast, hrun⟩
  · have hxs : xs = [] := by
      rcases hnone with rfl | hlast
      · cases hseg
        rfl
      · -- nothing is invented for an empty list
        rw [List.getLast?_eq_none_iff.mp hlast] at hinfos
        exact List.map_eq_nil_iff.mp hinfos
    refine ⟨acc, k₂, xs, hrun, huses, ?_, hold, hinfos⟩
    rwa [hxs, List.append_nil]
  · refine ⟨acc ++ [.use l], { k₂ with heap := k₂.heap.link l (some c) }, xs, hrun, fun x hx => ?_, ?_, hold, hinfos⟩
    · rcases List.mem_append.mp hx with hx | hx
      · exact huses x hx
      · exact ⟨l, List.not_mem_nil, List.mem_singleton.mp hx⟩
    · obtain ⟨pre, rfl⟩ := List.getLast?_eq_some_iff.mp hlast
      rw [← List.append_cons]
      refine Chain.splice hchain₂ hseg fun hmem => ?_
      exact absurd (hnew l hmem).1 (Nat.not_le_of_lt (hmade l (List.mem_append_right _ (.head _))))

lemma tracedReaddir_proper (hchain : Chain k₁.heap.next base nodes) (hmade : ∀ a ∈ nodes, a < k₁.heap.mallocs)
    {r : Int × Option Nat} {acc : List (Access Nat)} {k' : State σ}
    (hrun : tracedReaddir S m clock rounds fi path fb k = .ok ((r, acc), k')) (hproper : Proper [] acc) :
    ∀ a ∈ nodes, HasRoom (k₁.heap.info a) ∧ Kept (k₁.heap.info a) := by
  have hloop := hrun
  rw [tracedReaddir, run_bind_ok (lift_run htranslate)] at hloop
  dsimp only at hloop
  rw [run_bind_ok hread] at hloop
  obtain ⟨⟨⟨b, newchain, last⟩, acc₁⟩, k₂, hentries, -⟩ := bind_run_ok hloop
  have hproper₁ : Proper [] acc₁ := by
    rcases tracedReaddir_run htranslate hread hentries with ⟨-, hrun₁⟩ | ⟨c, l, -, -, hrun₁⟩
    · cases hrun.symm.trans hrun₁
      exact hproper
    · cases hrun.symm.trans hrun₁
      exact hproper.left
  exact tracedEntries_proper hS hentries hchain (List.nil_append nodes ▸ hchain) (List.nil_append nodes ▸ hmade) hproper₁

lemma tracedReaddir_lost {l : Nat} (hchain : Chain k₁.heap.next base (nodes ++ [l]))
    (hmade : ∀ a ∈ nodes ++ [l], a < k₁.heap.mallocs) (hrounds : 2 * nodes.length + 3 ≤ rounds)
    (hroom : ∀ a ∈ nodes ++ [l], HasRoom (k₁.heap.info a)) (hlost : ¬ Kept (k₁.heap.info l)) :
    ∃ acc k', tracedReaddir S m clock rounds fi path fb k = .ok (((1, none), acc), k') := by
  have hbase : Chain k₁.heap.next base ([] ++ (nodes ++ [l])) := hchain
  have hfuel : ([] : List Nat).length + 2 * nodes.length + 3 ≤ rounds := by rwa [List.length_nil, Nat.zero_add]
  obtain ⟨newchain, last, acc, k₂, hentries⟩ := tracedEntries_lost hS none none hchain hbase hmade hfuel hroom hlost
  rcases tracedReaddir_run htranslate hread hentries with ⟨-, hrun⟩ | ⟨c, l, -, -, hrun⟩
  · exact ⟨acc, k₂, hrun⟩
  · exact ⟨acc ++ [.use l], _, hrun⟩

/-- With a server that tells the comments, the listing of an AppleDouble directory is what it should be just if all entries
of the directory are regular files with resource forks and their names have room for the endings. -/
theorem appledouble_listing_iff (hchain : Chain k₁.heap.next base nodes)
    (hmade : ∀ a ∈ nodes, a < k₁.heap.mallocs) (hrounds : nodes.length < rounds) :
    ListsAppleDouble S m clock rounds fi path fb k comment (nodes.map k₁.heap.info) ↔
      ∀ i ∈ nodes.map k₁.heap.info, HasRoom i ∧ Regular i := by
  constructor
  · rintro ⟨base', acc, k', nodes', invented, hrun, hproper, hchain', -, hentries, hnames⟩
    have hall := tracedReaddir_proper hS htranslate hread hchain hmade hrun hproper
    obtain ⟨acc₁, k₂, xs, hrun₁, -, hchain₁, -, hnew⟩ := tracedReaddir_kept hS htranslate hread hchain hmade hrounds
      (fun a ha => (hall a ha).1) (fun a ha => (hall a ha).2)
    cases hrun.symm.trans hrun₁
    rw [Chain.unique hchain' hchain₁] at hentries
    -- as many files were invented as should be, so that the entries are as many as the regular files among them
    have hinvented : xs.length = invented.length := by
      have hcount := ((names_invented comment (nodes.map k₁.heap.info)).trans hnames.symm).length_eq
      rwa [List.length_map, List.length_map, ← hnew, List.length_map] at hcount
    have hlength := hentries.length_eq
    rw [List.length_map, List.length_append, List.length_append, hinvented, Nat.add_right_cancel_iff,
      ← List.length_map k₁.heap.info] at hlength
    have hregular := List.length_filter_eq_length_iff.mp hlength.symm
    intro i hi
    obtain ⟨a, ha, rfl⟩ := List.mem_map.mp hi
    exact ⟨(hall a ha).1, of_decide_eq_true (hregular _ hi)⟩
  · intro hall
    rw [List.forall_mem_map] at hall
    obtain ⟨acc, k', xs, hrun, huses, hchain', hold, hnew⟩ := tracedReaddir_kept hS htranslate hread hchain hmade hrounds
      (fun a ha => (hall a ha).1) (fun a ha => (hall a ha).2.kept)
    have hregular : (nodes.map k₁.heap.info).filter Regular = nodes.map k₁.heap.info := by
      rw [List.filter_eq_self, List.forall_mem_map]
      exact fun a ha => decide_eq_true (hall a ha).2
    refine ⟨base, acc, k', nodes ++ xs, xs.map k'.heap.info, hrun, proper_of_uses huses, hchain', fun a _ hfree => ?_, ?_, ?_⟩
    · obtain ⟨b, -, hb⟩ := huses _ hfree
      cases hb
    · rw [hregular, List.map_append, hold]
    · rw [hnew]
      exact names_invented ..

end Listing

def Station.tells {σ : Type} (S : Station σ) (comment : Nat → Bytes → Bytes) : Station σ where
  __ := S
  respond s
    | .fork .opendt => (.ofCode kFPNoErr, s)
    | .fork (.getcomment did name) =>
      if comment did name = [] then (.ofCode kFPItemNotFound, s)
      else ({ Answer.ofCode kFPNoErr with data := comment did name }, s)
    | c => S.respond s c

lemma tells_comments (S : Station σ) (comment : Nat → Bytes → Bytes) : TellsComments (S.tells comment) comment where
  opendt _ := rfl
  getcomment s did name := by
    simp only [Station.tells]
    split
    case isTrue h => exact .inr ⟨rfl, h⟩
    case isFalse h => exact .inl ⟨rfl, rfl⟩

lemma Enumerates.tells {S : Station σ} {m : Mount} {dirid : Nat} {basename : Bytes} {resource : Bool}
    {filebitmap dirbitmap : UInt16} {entries : List Entry}
    (h : Enumerates S m dirid basename resource filebitmap dirbitmap entries) (comment : Nat → Bytes → Bytes) :
    Enumerates (S.tells comment) m dirid basename resource filebitmap dirbitmap entries :=
  ⟨h.batch, h.done, h.fits, h.parses⟩

def Mount.apple : Mount := { Mount.plain with avNumber := 22, showAppledouble := true }

def forkEntry (name : Bytes) (resourcesize : Nat) : Entry :=
  ⟨0, 0, [0, 6] ++ beBytes 4 resourcesize ++ UInt8.ofNat name.length :: name⟩

def commentOnA (_ : Nat) (name : Bytes) : Bytes := if name = [97] then [104, 105] else []

def forkServer (entries : List Entry) : Station Unit := (oneByOne .apple 0x440 0x40 entries).tells commentOnA

def appledoublePath : Bytes := slash :: appledouble

lemma translate_appledoublePath : extraTranslate Mount.apple.toVolume appledoublePath = .ok (.appledouble, [slash]) := rfl

lemma forkServer_readdir {entries : List Entry} (hfits : ∀ e ∈ entries, EntryFits .apple e)
    (hparse : ∀ e ∈ entries, (e.parse 0x440 0x40).isSome) (hmax : entries.length < 65535)
    (hrounds : entries.length + reqcount + 1 ≤ rounds) : ∃ p xs k' infos,
      llReaddir (forkServer entries) .apple (fun _ => 0) rounds ⟨false, 0⟩ [slash] none true (State.start ()) = .ok ((0, p), k') ∧
        Chain k'.heap.next p xs ∧ (∀ a ∈ xs, a < k'.heap.mallocs) ∧
        List.Forall₂ (fun e i => e.parse 0x440 0x40 = some i) entries infos ∧ xs.map k'.heap.info = infos.map withPerms :=
  have hS : Enumerates (oneByOne .apple 0x440 0x40 entries) .apple 2 [] true 0x440 0x40 entries :=
    oneByOne_enumerates 2 [] true hfits hparse
  llReaddir_spec (fun _ => 0) none (by decide) rfl (hS.tells commentOnA) hmax hrounds

lemma eq_of_parse {α : Type} {e : Entry} (h : e.parse 0x440 0x40 = some i) {f : AfpFileInfo → α} {x : α}
    (hx : (e.parse 0x440 0x40).map f = some x) : f i = x := by
  rw [h] at hx
  exact Option.some.inj hx

lemma forkEntry_a (h : (forkEntry [97] 5).parse 0x440 0x40 = some i) :
    cString (withPerms i).name = .ok [97] ∧ Regular (withPerms i) := by
  have hname := eq_of_parse h (f := fun i => cString (withPerms i).name) (x := .ok [97]) (by decide +kernel)
  have hregular := eq_of_parse h (f := fun i => decide (Regular (withPerms i))) (x := true) (by decide +kernel)
  exact ⟨hname, of_decide_eq_true hregular⟩

lemma forkEntry_b (h : (forkEntry [98] 0).parse 0x440 0x40 = some i) :
    cString (withPerms i).name = .ok [98] ∧ ¬ Kept (withPerms i) := by
  have hname := eq_of_parse h (f := fun i => cString (withPerms i).name) (x := .ok [98]) (by decide +kernel)
  have hkept := eq_of_parse h (f := fun i => decide (Kept (withPerms i))) (x := false) (by decide +kernel)
  exact ⟨hname, of_decide_eq_false hkept⟩

theorem appledouble_listing_one_file : ∃ (p : Option Nat) (xs : List Nat) (k' : State Unit),
    llReaddir (forkServer [forkEntry [97] 5]) .apple (fun _ => 0) 22 ⟨false, 0⟩ [slash] none true (State.start ()) =
        .ok ((0, p), k') ∧ xs.length = 1 ∧ Chain k'.heap.next p xs ∧
      ListsAppleDouble (forkServer [forkEntry [97] 5]) .apple (fun _ => 0) 22 ⟨false, 0⟩ appledoublePath none (State.start ())
        commentOnA (xs.map k'.heap.info) := by
  have hparse : ∀ e ∈ [forkEntry [97] 5], (e.parse 0x440 0x40).isSome := List.forall_mem_singleton.mpr rfl
  obtain ⟨p, xs, k', infos, hread, hchain, hmade, hentries, hinfos⟩ :=
    forkServer_readdir (by decide) hparse (by decide) (Nat.le_refl 22)
  have hlen : xs.length = 1 := by
    rw [← List.length_map k'.heap.info, hinfos, List.length_map, ← hentries.length_eq]
    rfl
  refine ⟨p, xs, k', hread, hlen, hchain, ?_⟩
  refine (appledouble_listing_iff (tells_comments _ _) translate_appledoublePath hread hchain hmade ?_).mpr ?_
  · rw [hlen]
    decide
  cases hentries with
  | cons hfirst hrest =>
    cases hrest
    obtain ⟨hname, hregular⟩ := forkEntry_a hfirst
    rw [hinfos]
    exact List.forall_mem_singleton.mpr ⟨⟨[97], hname, by decide⟩, hregular⟩

/-- The file `a` and behind it a file without a resource fork: the list is empty. -/
theorem appledouble_listing_lost : ∃ (p : Option Nat) (xs : List Nat) (k' k'' : State Unit) (acc : List (Access Nat)),
    llReaddir (forkServer [forkEntry [97] 5, forkEntry [98] 0]) .apple (fun _ => 0) 23 ⟨false, 0⟩ [slash] none true
        (State.start ()) = .ok ((0, p), k') ∧ Chain k'.heap.next p xs ∧ (xs.map k'.heap.info).map nameOf = [[97], [98]] ∧
      tracedReaddir (forkServer [forkEntry [97] 5, forkEntry [98] 0]) .apple (fun _ => 0) 23 ⟨false, 0⟩ appledoublePath none
        (State.start ()) = .ok (((1, none), acc), k'') ∧
      ¬ ListsAppleDouble (forkServer [forkEntry [97] 5, forkEntry [98] 0]) .apple (fun _ => 0) 23 ⟨false, 0⟩ appledoublePath none
        (State.start ()) commentOnA (xs.map k'.heap.info) := by
  have hparse : ∀ e ∈ [forkEntry [97] 5, forkEntry [98] 0], (e.parse 0x440 0x40).isSome :=
    List.forall_mem_cons.mpr ⟨rfl, List.forall_mem_singleton.mpr rfl⟩
  obtain ⟨p, xs, k', infos, hread, hchain, hmade, hentries, hinfos⟩ :=
    forkServer_readdir (by decide) hparse (by decide) (Nat.le_refl 23)
  cases hentries with
  | cons hfirst hrest =>
  cases hrest with
  | cons hsecond hrest =>
  cases hrest
  obtain ⟨hname, -⟩ := forkEntry_a hfirst
  obtain ⟨hname', hlost⟩ := forkEntry_b hsecond
  obtain ⟨a, b, rfl⟩ : ∃ a b, xs = [a, b] := by
    rw [← List.length_eq_two, ← List.length_map k'.heap.info, hinfos]
    rfl
  obtain ⟨ha, hb⟩ : k'.heap.info a = _ ∧ k'.heap.info b = _ := by simpa using hinfos
  rw [← ha] at hname
  rw [← hb] at hname' hlost
  have hroom : ∀ x ∈ [a] ++ [b], HasRoom (k'.heap.info x) :=
    List.forall_mem_cons.mpr ⟨⟨[97], hname, by decide⟩, List.forall_mem_singleton.mpr ⟨[98], hname', by decide⟩⟩
  have hchain' : Chain k'.heap.next p ([a] ++ [b]) := hchain
  obtain ⟨acc, k'', hrun⟩ := tracedReaddir_lost (tells_comments _ _) translate_appledoublePath hread hchain' hmade
    (show 2 * 1 + 3 ≤ 23 by decide) hroom hlost
  refine ⟨p, [a, b], k', k'', acc, hread, hchain, ?_, hrun, ?_⟩
  · rw [List.map_cons, List.map_cons, List.map_cons, List.map_cons, ← cString_eq hname, ← cString_eq hname']
    rfl
  · rintro ⟨base, acc', k₂, nodes, invented, hrun', hproper, -⟩
    have hall := tracedReaddir_proper (tells_comments _ _) translate_appledoublePath hread hchain hmade hrun' hproper
    exact hlost (hall b (.tail _ (.head _))).2

end AfpfsNg.Mid
