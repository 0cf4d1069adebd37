import AfpfsNg.Base.Arrays
import AfpfsNg.Mid.Listing
import AfpfsNg.Unicode.Conversions

/-!
# The names in a listing

At its end `ll_readdir` goes over the list and converts each name with `convert_path_to_unix`, into the array
`converted_name`; the entries keep the names that the server sent.
-/

namespace AfpfsNg.Mid
open AfpfsNg.Base AfpfsNg.Afp AfpfsNg.Did AfpfsNg.Fork AfpfsNg.Proto AfpfsNg.Unicode

/-- The pass of `ll_readdir` over the names of a list: what is in `converted_name` in the end. -/
def convertNames (encoding : PathEncoding) (h : Heap) : Nat → Option Nat → Bytes → Option Bytes
  | 0, _, _ => none
  | _ + 1, none, convertedName => some convertedName
  | rounds + 1, some p, _ => do
    let (_, convertedName) ← convertPathToUnix encoding (h.info p).name
    convertNames encoding h rounds (h.next p) convertedName

def nameOf (i : AfpFileInfo) : Bytes := Base.cString i.name

/-- A name of up to 383 characters that leaves room for a terminator. -/
def Convertible (s : Bytes) : Prop := Sequences s ∧ (∃ n ≤ 383, mbStrLen s = some n) ∧ s.length < afpMaxPath

lemma reads_of_cString {a : Bytes} {us : List UInt16} (h : Reads (Base.cString a) us) : Reads a us := by
  have hsplit : Base.cString a ++ a.dropWhile (· ≠ 0) = a := List.takeWhile_append_dropWhile
  cases hrest : a.dropWhile (· ≠ 0) with
  | nil =>
    rw [hrest, List.append_nil] at hsplit
    rwa [hsplit] at h
  | cons x rest =>
    have hx : x = 0 := by
      have hhead := List.head_dropWhile_not (fun y : UInt8 => decide (y ≠ 0)) (by rw [hrest]; exact List.cons_ne_nil x rest)
      simp only [hrest, List.head_cons, decide_eq_false_iff_not, ne_eq, not_not] at hhead
      exact hhead
    rw [hrest, hx] at hsplit
    rw [← hsplit]
    exact h.append_zero rest

lemma convertPathToUnix_convertible {i : AfpFileInfo} (h : Convertible (nameOf i)) :
    ∃ t, convertPathToUnix .utf8Name i.name = some (0, t) := by
  obtain ⟨-, ⟨n, hmax, hn⟩, hlen⟩ := h
  obtain ⟨us, hus⟩ := reads_of_mbStrLen (s := nameOf i) (by rw [hn]; exact Option.some_ne_none n)
  have hcount : us.length = n := Option.some.inj (hus.mbStrLen.symm.trans hn)
  have hroom : (composed us).length < 384 := Nat.lt_succ_of_le (Nat.le_trans (length_fuse_le us) (by omega))
  have hdest := Nat.lt_of_le_of_lt hus.length_composed hlen
  refine ⟨ucs2toUtf8 (composed us), ?_⟩
  rw [convertPathToUnix, (reads_of_cString hus).decToPre_eq, if_pos ⟨hroom, hdest⟩]
  rfl

lemma convertNames_chain {h : Heap} {p : Option Nat} {xs : List Nat} {rounds : Nat} (hc : Chain h.next p xs)
    (hr : xs.length < rounds) (hnames : ∀ a ∈ xs, Convertible (nameOf (h.info a))) (convertedName : Bytes) :
    (convertNames .utf8Name h rounds p convertedName).isSome := by
  induction xs generalizing p rounds convertedName with
  | nil =>
    cases hc
    obtain ⟨rounds, rfl⟩ := Nat.exists_eq_add_of_lt hr
    rfl
  | cons x xs ih =>
    cases hc with
    | cons hc =>
      obtain ⟨rounds, rfl⟩ := Nat.exists_eq_add_of_lt hr
      obtain ⟨t, ht⟩ := convertPathToUnix_convertible (hnames x (.head _))
      rw [convertNames, ht]
      exact ih hc (Nat.lt_of_succ_lt_succ hr) (fun a ha => hnames a (.tail _ ha)) t

lemma nameOf_asListed (m : Mount) (i : AfpFileInfo) : nameOf (asListed m i) = nameOf i := by
  rw [asListed]
  split
  · rfl
  · rfl

def HasComposedName (filebitmap dirbitmap : UInt16) (h : Heap) (e : Entry) (a : Nat) : Prop :=
  ∃ i, e.parse filebitmap.toNat dirbitmap.toNat = some i ∧ decToPre (nameOf i) afpMaxPath = some (nameOf (h.info a))

def SentComposed (filebitmap dirbitmap : UInt16) (e : Entry) : Prop :=
  ∃ i, e.parse filebitmap.toNat dirbitmap.toNat = some i ∧ decToPre (nameOf i) afpMaxPath = some (nameOf i)

lemma forall₂_composed {m : Mount} {filebitmap dirbitmap : UInt16} {h : Heap} {entries : List Entry}
    {infos : List AfpFileInfo} {xs : List Nat}
    (hparse : List.Forall₂ (fun e i => e.parse filebitmap.toNat dirbitmap.toNat = some i) entries infos)
    (hinfos : xs.map h.info = infos.map (asListed m)) :
    List.Forall₂ (HasComposedName filebitmap dirbitmap h) entries xs ↔
      ∀ e ∈ entries, SentComposed filebitmap dirbitmap e := by
  induction hparse generalizing xs with
  | nil =>
    obtain rfl : xs = [] := List.map_eq_nil_iff.mp hinfos
    exact ⟨fun _ => List.forall_mem_nil _, fun _ => .nil⟩
  | @cons e i entries infos he _ ih =>
    cases xs with
    | nil => cases hinfos
    | cons x xs =>
      obtain ⟨hx, hxs⟩ := List.cons.inj hinfos
      have hname : nameOf (h.info x) = nameOf i := by rw [hx, nameOf_asListed]
      have hfirst : HasComposedName filebitmap dirbitmap h e x ↔ SentComposed filebitmap dirbitmap e := by
        refine exists_congr fun j => and_congr_right fun hj => ?_
        rw [hname, Option.some.inj (he.symm.trans hj)]
      rw [List.forall₂_cons, List.forall_mem_cons, hfirst, ih hxs]

/-- A directory whose entries have names of UTF-8 is listed, and the pass over the names stays in its arrays if they are
no longer than it allows for. The listing has the composed names just if those that the server sent are composed. -/
theorem listed_names_iff {σ : Type} (S : Station σ) (m : Mount) (clock : Nat → Nat) (fi : FileInfo) (path : Bytes)
    (fb : Option Nat) (resource : Bool) (k : State σ) (hvalid : invalidFilename m.toVolume path = false)
    {dirid : Nat} {basename : Bytes} {c : DidCache}
    (hdir : Did.getDirid (S.query k.peer) clock fi k.cache path = .ok (some (dirid, basename), c))
    (filebitmap dirbitmap : UInt16) (entries : List Entry)
    (hS : Enumerates S m dirid basename resource filebitmap dirbitmap entries) (hmax : entries.length < maxEntries m)
    (rounds : Nat) (hrounds : entries.length + reqcount + 1 ≤ rounds) (hencoding : m.pathEncoding = .utf8Name) :
    ∃ p xs k', llReaddir S m clock rounds fi path fb resource k = .ok ((0, p), k') ∧ Chain k'.heap.next p xs ∧
      ((∀ a ∈ xs, Convertible (nameOf (k'.heap.info a))) →
        (convertNames m.pathEncoding k'.heap rounds p []).isSome) ∧
      (List.Forall₂ (HasComposedName filebitmap dirbitmap k'.heap) entries xs ↔
        ∀ e ∈ entries, SentComposed filebitmap dirbitmap e) := by
  obtain ⟨p, xs, k', infos, hrun, hchain, -, hparse, hinfos⟩ := llReaddir_spec clock fb hvalid hdir hS hmax hrounds
  have hlen : xs.length = entries.length := by
    rw [hparse.length_eq, ← List.length_map (f := k'.heap.info), hinfos, List.length_map]
  refine ⟨p, xs, k', hrun, hchain, fun hnames => ?_, forall₂_composed hparse hinfos⟩
  rw [hencoding]
  exact convertNames_chain hchain (by omega) hnames []

def nameEntry (s : Bytes) : Entry := ⟨0, 0, [0, 6, 0, 0, 0, 0, 0, 0, 0, 0] ++ beBytes 2 s.length ++ s⟩

lemma nameEntry_enumerates (s : Bytes) (hfits : EntryFits .utf8 (nameEntry s))
    (hparse : ((nameEntry s).parse 0x2000 0x2000).isSome) (dirid : Nat) (basename : Bytes) (resource : Bool) :
    Enumerates (oneByOne .utf8 0x2000 0x2000 [nameEntry s]) .utf8 dirid basename resource 0x2000 0x2000 [nameEntry s] :=
  oneByOne_enumerates dirid basename resource (List.forall_mem_singleton.mpr hfits) (List.forall_mem_singleton.mpr hparse)

theorem listed_names_letter :
    ∃ p xs k', llReaddir (oneByOne .utf8 0x2000 0x2000 [nameEntry [0x61]]) .utf8 (fun _ => 0) 22 ⟨false, 0⟩ [slash] none false
        (State.start ()) = .ok ((0, p), k') ∧ Chain k'.heap.next p xs ∧
      ((∀ a ∈ xs, Convertible (nameOf (k'.heap.info a))) →
        (convertNames .utf8Name k'.heap 22 p []).isSome) ∧
      (List.Forall₂ (HasComposedName 0x2000 0x2000 k'.heap) [nameEntry [0x61]] xs ↔
        ∀ e ∈ [nameEntry [0x61]], SentComposed 0x2000 0x2000 e) :=
  listed_names_iff (oneByOne .utf8 0x2000 0x2000 [nameEntry [0x61]]) .utf8 (fun _ => 0) ⟨false, 0⟩ [slash] none false
    (State.start ()) (by decide) rfl 0x2000 0x2000 [nameEntry [0x61]]
    (nameEntry_enumerates [0x61] (by decide) rfl 2 [] false) (by decide) 22 (by decide) rfl

/-- A directory with one file, `ä`, as a server spells it: the listing has the spelling of the server. -/
theorem listed_names_decomposed :
    ∃ p xs k', llReaddir (oneByOne .utf8 0x2000 0x2000 [nameEntry [0x61, 0xcc, 0x88]]) .utf8 (fun _ => 0) 22 ⟨false, 0⟩
        [slash] none false (State.start ()) = .ok ((0, p), k') ∧ Chain k'.heap.next p xs ∧
      ¬ List.Forall₂ (HasComposedName 0x2000 0x2000 k'.heap) [nameEntry [0x61, 0xcc, 0x88]] xs := by
  have hS := nameEntry_enumerates [0x61, 0xcc, 0x88] (by decide) rfl 2 [] false
  have hroot : Did.getDirid ((oneByOne .utf8 0x2000 0x2000 [nameEntry [0x61, 0xcc, 0x88]]).query ()) (fun _ => 0) ⟨false, 0⟩
    .empty [slash] = .ok (some (2, []), .empty) := rfl
  have hrounds : [nameEntry [0x61, 0xcc, 0x88]].length + reqcount + 1 ≤ 22 := by decide
  obtain ⟨p, xs, k', infos, hrun, hchain, -, hparse, hinfos⟩ := llReaddir_spec (k := State.start ()) (fun _ => 0) none
    (by decide) hroot hS (by decide) hrounds
  refine ⟨p, xs, k', hrun, hchain, fun hcomposed => ?_⟩
  obtain ⟨i, hi, hname⟩ := (forall₂_composed hparse hinfos).mp hcomposed _ (.head _)
  have hsent : ((nameEntry [0x61, 0xcc, 0x88]).parse 0x2000 0x2000).map nameOf = some [0x61, 0xcc, 0x88] := by
    decide +kernel
  have hpre : decToPre [0x61, 0xcc, 0x88] afpMaxPath = some [0xc3, 0xa4] := by decide +kernel
  have hi' : nameOf i = [0x61, 0xcc, 0x88] := by
    rw [show (nameEntry [0x61, 0xcc, 0x88]).parse 0x2000 0x2000 = some i from hi] at hsent
    exact Option.some.inj hsent
  rw [hi', hpre] at hname
  exact absurd hname (by decide)

end AfpfsNg.Mid
