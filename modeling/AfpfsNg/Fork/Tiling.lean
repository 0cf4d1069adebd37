import AfpfsNg.Base.Arrays
import AfpfsNg.Base.Loops
import AfpfsNg.Dsi.Recv
import AfpfsNg.Fork.Locks
import AfpfsNg.Fork.ReadsRight

/-!
# The pieces of a write

The loop of `ll_write` as rounds (`writeTurn`): each one sends the next piece, of at most `tx_quantum` bytes, and goes on
behind it whatever the answer is. `tx_quantum` is what the server says in its answer to DSIOpenSession
(`dsi_opensession_reply`), and nothing checks that it is not 0.

`afp_write` and `afp_writeext` (`lib/proto_files.c`) build the message for a piece. Its length is an `unsigned int`.
-/

namespace AfpfsNg.Fork
open AfpfsNg.Base AfpfsNg.Afp AfpfsNg.Did

/-- The message of a request to write; `width` is that of the two numbers and `data` what the pointer points to. -/
def writeMessage (command : UInt8) (width : Nat) (dsiHeader : Block 16) (forkid offset reqcount : Nat) (data : Bytes) :
    Except Fault Bytes :=
  let reqcount := reqcount % 256 ^ width
  let len := (20 + 2 * width + reqcount) % 2 ^ 32
  if len < 20 + 2 * width + reqcount then .error .copyOverflow
  else if data.length < reqcount then .error .overread
  else .ok (dsiHeader.bytes ++ ([command, 0] ++ (beBytes 2 forkid ++ (beBytes width offset ++
    (beBytes width reqcount ++ data.take reqcount)))))

def afpWrite : Block 16 → Nat → Nat → Nat → Bytes → Except Fault Bytes := writeMessage 33 4

def afpWriteext : Block 16 → Nat → Nat → Nat → Bytes → Except Fault Bytes := writeMessage 61 8

def writePiece (v : Volume) : Block 16 → Nat → Nat → Nat → Bytes → Except Fault Bytes :=
  if v.avNumber < 30 then afpWrite else afpWriteext

/-- The server's side: the offset, the count and the data. -/
def parseWrite (width : Nat) (m : Bytes) : Nat × Nat × Bytes :=
  (beNat (slice m 20 width), beNat (slice m (20 + width) width), m.drop (20 + 2 * width))

def numberWidth (v : Volume) : Nat := if v.avNumber < 30 then 4 else 8

lemma parseWrite_writeMessage (command : UInt8) {width : Nat} (dsiHeader : Block 16) (forkid : Nat) {offset reqcount : Nat}
    {data : Bytes} (hoffset : offset < 256 ^ width) (hreqcount : reqcount < 256 ^ width)
    (hlen : 20 + 2 * width + reqcount < 2 ^ 32) (hdata : reqcount ≤ data.length) :
    ∃ m, writeMessage command width dsiHeader forkid offset reqcount data = .ok m ∧
      parseWrite width m = (offset, reqcount, data.take reqcount) := by
  have hhead : (dsiHeader.bytes ++ ([command, 0] ++ beBytes 2 forkid)).length = 20 := by
    simp [dsiHeader.size]
  refine ⟨dsiHeader.bytes ++ ([command, 0] ++ beBytes 2 forkid) ++ (beBytes width offset ++
    (beBytes width reqcount ++ data.take reqcount)), ?_, ?_⟩
  · rw [writeMessage, Nat.mod_eq_of_lt hreqcount, Nat.mod_eq_of_lt hlen, if_neg (Nat.lt_irrefl _),
      if_neg (Nat.not_lt.mpr hdata)]
    simp only [List.append_assoc]
  · generalize dsiHeader.bytes ++ ([command, 0] ++ beBytes 2 forkid) = head at hhead
    have hnumber : (head ++ beBytes width offset).length = 20 + width := by simp [hhead]
    have hnumbers : (head ++ (beBytes width offset ++ beBytes width reqcount)).length = 20 + 2 * width := by
      simp [hhead]
      omega
    have hcount : slice (head ++ (beBytes width offset ++ (beBytes width reqcount ++ data.take reqcount)))
        (20 + width) width = beBytes width reqcount := by
      rw [← List.append_assoc]
      exact slice_mid _ _ _ hnumber (length_beBytes ..)
    have hrest : (head ++ (beBytes width offset ++ (beBytes width reqcount ++ data.take reqcount))).drop (20 + 2 * width) =
        data.take reqcount := by
      rw [← List.append_assoc, ← List.append_assoc, List.append_assoc head, ← hnumbers, List.drop_left]
    rw [parseWrite, slice_mid head _ _ hhead (length_beBytes ..), hcount, hrest, beNat_beBytes_of_lt hoffset,
      beNat_beBytes_of_lt hreqcount]

def cut (t : Nat) : List Nat → List (Nat × Nat)
  | [] => []
  | n :: ns => (t, n) :: cut (t + n) ns

lemma cut_le {t : Nat} {lens : List Nat} {p : Nat × Nat} (hp : p ∈ cut t lens) :
    t ≤ p.1 ∧ p.1 + p.2 ≤ t + lens.sum ∧ p.2 ∈ lens := by
  induction lens generalizing t with
  | nil => cases hp
  | cons n lens ih =>
    rw [List.sum_cons]
    rcases List.mem_cons.mp hp with rfl | hp
    · exact ⟨Nat.le_refl t, by omega, List.mem_cons_self⟩
    · obtain ⟨hfirst, hend, hmem⟩ := ih hp
      exact ⟨by omega, by omega, List.mem_cons_of_mem n hmem⟩

lemma flatten_cut {t : Nat} {lens : List Nat} {data : Bytes} (h : t + lens.sum = data.length) :
    ((cut t lens).map fun p => slice data p.1 p.2).flatten = data.drop t := by
  induction lens generalizing t with
  | nil => exact (List.drop_eq_nil_of_le (Nat.le_of_eq h.symm)).symm
  | cons n lens ih =>
    rw [List.sum_cons, ← Nat.add_assoc] at h
    rw [cut, List.map_cons, List.flatten_cons, ih h, slice, ← List.drop_drop]
    exact List.take_append_drop n _

section Loop
variable {σ : Type} (P : Peer σ) (v : Volume) (forkid offset : Nat) (data : Bytes)

def pieceRequest (t n : Nat) : Request := .write (ext v) forkid (field v (offset + t)) (slice data t n)

def writeTurn (s : Nat × Client σ) : Except Fault (Turn (Nat × Client σ) (Nat × Client σ)) :=
  if s.1 < data.length then
    let n := min (data.length - s.1) v.txQuantum
    .ok (.again (s.1 + n, (s.2.call P (pieceRequest v forkid offset data s.1 n)).2))
  else .ok (.ends s)

variable {P v forkid offset data} {t : Nat} {k : Client σ}

lemma writeLoop_eq_loop (fuel : Nat) :
    writeLoop P v forkid offset data fuel t k = loop .outOfFuel (writeTurn P v forkid offset data) (fuel + 1) (t, k) := by
  induction fuel generalizing t k with
  | zero =>
    rw [writeLoop, loop, writeTurn]
    split
    · rfl
    · rfl
  | succ fuel ih =>
    rw [writeLoop, loop, writeTurn]
    split
    · rw [sizetowrite_eq]
      exact ih
    · rfl

lemma writeLoop_pieces (hq : 0 < v.txQuantum) {fuel : Nat} (hfuel : data.length - t ≤ fuel) (ht : t ≤ data.length) :
    ∃ lens k' sent, writeLoop P v forkid offset data fuel t k = .ok (data.length, k') ∧ k'.sent = k.sent ++ sent ∧
      t + lens.sum = data.length ∧ (∀ n ∈ lens, 0 < n ∧ n ≤ v.txQuantum) ∧
      sent.map Prod.fst = (cut t lens).map fun p => pieceRequest v forkid offset data p.1 p.2 := by
  induction fuel generalizing t k with
  | zero =>
    obtain rfl : t = data.length := by omega
    refine ⟨[], k, [], ?_, (List.append_nil _).symm, rfl, List.forall_mem_nil _, rfl⟩
    rw [writeLoop, if_neg (Nat.lt_irrefl _)]
  | succ fuel ih =>
    by_cases hlt : t < data.length
    · let n := min (data.length - t) v.txQuantum
      let r := pieceRequest v forkid offset data t n
      obtain ⟨lens, k', sent, hrun, hsent, hsum, hlens, hmap⟩ := @ih (t + n) (k.call P r).2 (by omega) (by omega)
      refine ⟨n :: lens, k', (r, (k.call P r).1) :: sent, ?_, ?_, ?_, ?_, ?_⟩
      · rw [writeLoop, if_pos hlt, sizetowrite_eq]
        exact hrun
      · rw [hsent]
        exact List.append_assoc _ [_] _
      · rw [List.sum_cons, ← Nat.add_assoc]
        exact hsum
      · exact List.forall_mem_cons.mpr ⟨⟨by omega, by omega⟩, hlens⟩
      · rw [List.map_cons, hmap]
        rfl
    · obtain rfl : t = data.length := by omega
      refine ⟨[], k, [], ?_, (List.append_nil _).symm, rfl, List.forall_mem_nil _, rfl⟩
      rw [writeLoop, if_neg hlt]

end Loop

section Whole
variable {σ : Type} {v : Volume} {offset size : Nat}

/-- The offsets that the requests of the session have room for. -/
def InReach (v : Volume) (offset size : Nat) : Prop :=
  if v.avNumber < 30 then offset + size ≤ 2 ^ 32 else offset + size < 2 ^ 63

instance : Decidable (InReach v offset size) := by
  unfold InReach
  infer_instance

lemma InReach.field_eq {t : Nat} (h : InReach v offset size) (ht : t < size) : field v (offset + t) = offset + t := by
  apply Fork.field_eq
  rw [InReach] at h
  split at h
  · right
    omega
  · left
    omega

lemma parseWrite_writePiece (dsiHeader : Block 16) (forkid : Nat) {data : Bytes} {t n : Nat}
    (hreach : InReach v offset data.length) (hpos : 0 < n) (hn : n ≤ 2 ^ 31) (ht : t + n ≤ data.length) :
    ∃ m, writePiece v dsiHeader forkid (offset + t) n (data.drop t) = .ok m ∧
      parseWrite (numberWidth v) m = (offset + t, n, slice data t n) := by
  have hdata : n ≤ (data.drop t).length := by
    rw [List.length_drop]
    omega
  rw [InReach] at hreach
  rw [writePiece, numberWidth]
  split at hreach
  case isTrue hv =>
    rw [if_pos hv, if_pos hv]
    exact parseWrite_writeMessage 33 dsiHeader forkid (by omega) (by omega) (by omega) hdata
  case isFalse hv =>
    rw [if_neg hv, if_neg hv]
    exact parseWrite_writeMessage 61 dsiHeader forkid (by omega) (by omega) (by omega) hdata

lemma filter_isData_eq_nil {sent : List (Request × Reply)} {r : Request} (h : ∀ x ∈ sent, x.1 = r) (hr : r.isData = false) :
    (sent.map Prod.fst).filter Request.isData = [] := by
  rw [List.filter_eq_nil_iff]
  intro y hy
  obtain ⟨x, hx, rfl⟩ := List.mem_map.mp hy
  rw [h x hx, hr]
  exact Bool.false_ne_true

/-- `ll_write` cuts the data into pieces that are not empty, none longer than `tx_quantum`, that lie one behind the other
and make up the data. It sends one request for each, with the offset and the bytes of its piece, and no other
request for data. -/
theorem writes_tile (P : Peer σ) (v : Volume) (k : Client σ) (fp : FileHandle) (data : Bytes) (offset : Nat)
    (dsiHeader : Block 16) (hreach : InReach v offset data.length) (hq : 0 < v.txQuantum) (hq' : v.txQuantum ≤ 2 ^ 31)
    (hlock : (llHandleLocking P v k fp.forkid offset data.length).1 = 0) :
    ∃ lens k' sent, llWrite P v k data offset fp = .ok ((0, data.length), k') ∧ k'.sent = k.sent ++ sent ∧
      lens.sum = data.length ∧ (∀ n ∈ lens, 0 < n ∧ n ≤ v.txQuantum) ∧
      ((cut 0 lens).map fun p => slice data p.1 p.2).flatten = data ∧
      (sent.map Prod.fst).filter Request.isData =
        (cut 0 lens).map (fun p => .write (ext v) fp.forkid (offset + p.1) (slice data p.1 p.2)) ∧
      ∀ p ∈ cut 0 lens, ∃ m, writePiece v dsiHeader fp.forkid (offset + p.1) p.2 (data.drop p.1) = .ok m ∧
        parseWrite (numberWidth v) m = (offset + p.1, p.2, slice data p.1 p.2) := by
  obtain ⟨rc, k₁, locks, hlocked, hlocks, -, honly⟩ := llHandleLocking_locks P v fp offset data.length k
  obtain rfl : rc = 0 := by
    rw [hlocked] at hlock
    exact hlock
  obtain ⟨lens, k₂, sent, hloop, hsent, hsum, hlens, hmap⟩ := @writeLoop_pieces σ P v fp.forkid offset data 0 k₁ hq
    data.length (Nat.sub_le ..) (Nat.zero_le _)
  obtain ⟨rc, k₃, unlocks, hunlocked, hunlocks, honly'⟩ := llHandleUnlocking_unlocks P v fp offset data.length k₂
  rw [Nat.zero_add] at hsum
  have hpiece : ∀ p ∈ cut 0 lens, 0 < p.2 ∧ p.2 ≤ v.txQuantum ∧ p.1 + p.2 ≤ data.length := by
    intro p hp
    obtain ⟨-, hend, hmem⟩ := cut_le hp
    exact ⟨(hlens _ hmem).1, (hlens _ hmem).2, by omega⟩
  have hrequests : (cut 0 lens).map (fun p => pieceRequest v fp.forkid offset data p.1 p.2) =
      (cut 0 lens).map fun p => .write (ext v) fp.forkid (offset + p.1) (slice data p.1 p.2) := by
    apply List.map_congr_left
    intro p hp
    obtain ⟨hpos, -, hend⟩ := hpiece p hp
    rw [pieceRequest, hreach.field_eq (by omega)]
  refine ⟨lens, k₃, locks ++ (sent ++ unlocks), llWrite_locked hlocked hloop hunlocked, ?_, hsum, hlens, ?_, ?_, ?_⟩
  · rw [hunlocks, hsent, hlocks, List.append_assoc, List.append_assoc]
  · exact flatten_cut ((Nat.zero_add _).trans hsum)
  · rw [List.map_append, List.map_append, List.filter_append, List.filter_append, filter_isData_eq_nil honly rfl,
      filter_isData_eq_nil honly' rfl, hmap, hrequests, List.nil_append, List.append_nil]
    rw [List.filter_eq_self]
    intro r hr
    obtain ⟨p, -, rfl⟩ := List.mem_map.mp hr
    rfl
  · intro p hp
    obtain ⟨hpos, hle, hend⟩ := hpiece p hp
    exact parseWrite_writePiece dsiHeader fp.forkid hreach hpos (by omega) hend

/-- Three bytes in pieces of two. -/
theorem writes_tile_three_bytes :
    ∃ lens k' sent, llWrite (lockPeer kFPNoErr) { lockedVolume with txQuantum := 2 } (.start () .empty) [1, 2, 3] 5 dataFork =
        .ok ((0, 3), k') ∧ k'.sent = sent ∧ lens.sum = 3 ∧ (sent.map Prod.fst).filter Request.isData =
          (cut 0 lens).map fun p => .write (ext lockedVolume) 7 (5 + p.1) (slice [1, 2, 3] p.1 p.2) := by
  obtain ⟨lens, k', sent, hrun, hsent, hsum, -, -, hmap, -⟩ := writes_tile (lockPeer kFPNoErr)
    { lockedVolume with txQuantum := 2 } (.start () .empty) dataFork [1, 2, 3] 5 ⟨_, List.length_replicate (a := 0)⟩
    (by decide) (by decide) (by decide) rfl
  exact ⟨lens, k', sent, hrun, hsent, hsum, hmap⟩

end Whole

/-- `tx_quantum` of a connection: as it is initialised, or as it stands after the answer to DSIOpenSession, with the bytes in
the buffer. -/
def negotiatedQuantum : Option Bytes → Nat
  | none => (Dsi.afpServerInit [] []).txQuantum
  | some packet => (Dsi.dsiOpensessionReply { Dsi.afpServerInit [] [] with incomingBuffer := packet }).txQuantum

/-- The loop of `ll_write` ends if there is nothing to write or the quantum is not 0. -/
theorem write_loop_ends_iff {σ : Type} (P : Peer σ) (v : Volume) (k : Client σ) (fp : FileHandle) (offset : Nat) (data : Bytes)
    (reply : Option Bytes) :
    (∃ rounds r, writeLoop P { v with txQuantum := negotiatedQuantum reply } fp.forkid offset data rounds 0 k = .ok r) ↔
      data = [] ∨ negotiatedQuantum reply ≠ 0 := by
  constructor
  · rintro ⟨rounds, r, hrun⟩
    by_contra h
    obtain ⟨hne, hzero⟩ := not_or.mp h
    cases (writeLoop_stuck P fp offset (not_not.mp hzero) (List.length_pos_of_ne_nil hne) rounds k).symm.trans hrun
  · rintro (rfl | hq)
    · exact ⟨0, (0, k), rfl⟩
    · obtain ⟨-, k', -, hrun, -⟩ := @writeLoop_pieces σ P { v with txQuantum := negotiatedQuantum reply } fp.forkid offset
        data 0 k (Nat.pos_of_ne_zero hq) data.length (Nat.sub_le ..) (Nat.zero_le _)
      exact ⟨data.length, (data.length, k'), hrun⟩

/-- A server that says that its quantum is 0: a write of one byte never ends. -/
theorem quantum_zero_never_ends :
    negotiatedQuantum (some (List.replicate 22 0)) = 0 ∧
      ∀ rounds, writeLoop (lockPeer kFPNoErr)
        { plainVolume with txQuantum := negotiatedQuantum (some (List.replicate 22 0)) } dataFork.forkid 0 [1] rounds 0
          (.start () .empty) = .error .outOfFuel :=
  have hzero : negotiatedQuantum (some (List.replicate 22 0)) = 0 := by decide
  ⟨hzero, fun rounds => writeLoop_stuck _ dataFork 0 hzero Nat.one_pos rounds _⟩

end AfpfsNg.Fork
