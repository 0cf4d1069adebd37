import AfpfsNg.Cmdline.Paths
import AfpfsNg.Fork.Tiling

/-!
# Uploads

`com_put` (`cmdline/cmdline_afp.c`) copies a local file to the server: it reads blocks of `PUT_BUFSIZE` bytes at most and hands
each one to `ml_write`, at the offset that it has counted. That offset is an `int`, and `ml_write` takes an `off_t`.

A session is what `com_put` finds: what the calls of the local system and of the mid level return. What it does is the list
of its calls. The texts that it prints are left out.
-/

namespace AfpfsNg.Cmdline
open AfpfsNg.Base AfpfsNg.Afp AfpfsNg.Fork

inductive Call where
  | mlOpen (path : Bytes)
  | mlChmod (path : Bytes) (mode : Nat)
  | mlWrite (path data : Bytes) (offset : Int)
  | mlClose (path : Bytes)

structure Session where
  /-- `server` and `vol` are not `NULL` -/
  connected : Bool
  curdir : Bytes
  /-- what `stat` leaves in `st_mode` -/
  mode : Nat
  /-- `open`, and what the calls of `read` return: a block, or -1; behind the last one they return 0 -/
  reads : Bytes → Option (List (Option Bytes))
  answer : List Call → Call → Int

def putBufsize : Nat := 102400

/-- C `get_server_path`; the array is one of `AFP_MAX_PATH` bytes. -/
def getServerPath (curdir filename : Bytes) : Option Bytes :=
  let path := if filename.head? = some slash then filename
    else if curdir.length = 1 then slash :: filename else curdir ++ slash :: filename
  if path.length < afpMaxPath then some path else none

/-- The loop of `com_put`, with the results of `read` that are left. The sum in `offset` is taken to wrap around. -/
def putLoop (S : Session) (path : Bytes) : List (Option Bytes) → Int → List Call → List Call
  | [], _, calls => calls
  | none :: _, _, calls => calls
  | some buf :: reads, offset, calls =>
    if buf = [] then calls
    else if S.answer calls (.mlWrite path buf offset) < 0 then calls ++ [.mlWrite path buf offset]
    else putLoop S path reads ((offset + buf.length).bmod (2 ^ 32)) (calls ++ [.mlWrite path buf offset])

/-- C `com_put`: what it returns, and the calls that it makes. The array of `escape_paths` holds anything at first. -/
def comPut (S : Session) (filename : Block afpMaxPath) (arg : Bytes) : Option (Int × List Call) :=
  if !S.connected then some (-1, [])
  else match escapePaths (some filename) none arg with
    | none => none
    | some (ret, name, _) =>
      if ret ≠ 0 then some (-1, [])
      else do
        let name ← name
        -- the name is read up to its terminator
        if 0 ∉ name then none
        else
          let path ← getServerPath S.curdir (cString name)
          match S.reads (cString name) with
          | none => some (-1, [])
          | some reads =>
            if S.answer [] (.mlOpen path) < 0 then some (0, [.mlOpen path, .mlClose path])
            else some (0, putLoop S path reads 0 [.mlOpen path, .mlChmod path S.mode] ++ [.mlClose path])

def writesOf (calls : List Call) : List (Bytes × Int) :=
  calls.filterMap fun
    | .mlWrite _ data offset => some (data, offset)
    | _ => none

/-- The blocks of these lengths, one behind the other, each one at its place in the file. -/
def Placed (file : Bytes) (lens : List Nat) (writes : List (Bytes × Int)) : Prop :=
  writes = (cut 0 lens).map fun p => (slice file p.1 p.2, (p.1 : Int))

/-- An upload that meets no error: `arg` names a local file, which is read in these blocks, and each of them is accepted. -/
structure Uploading (S : Session) (filename : Block afpMaxPath) (arg path : Bytes) (blocks : List Bytes) : Prop where
  connected : S.connected
  named : ∃ name, escapePaths (some filename) none arg = some (0, some name, none) ∧ 0 ∈ name ∧
    getServerPath S.curdir (cString name) = some path ∧ S.reads (cString name) = some (blocks.map some)
  opened : 0 ≤ S.answer [] (.mlOpen path)
  sizes : ∀ b ∈ blocks, 1 ≤ b.length ∧ b.length ≤ putBufsize
  accepted : ∀ calls b offset, S.answer calls (.mlWrite path b offset) = b.length

section Loop
variable {S : Session} {filename : Block afpMaxPath} {arg path : Bytes} {blocks : List Bytes}

lemma writesOf_append (c d : List Call) : writesOf (c ++ d) = writesOf c ++ writesOf d := List.filterMap_append

lemma writesOf_putLoop (hsizes : ∀ b ∈ blocks, 1 ≤ b.length)
    (haccepted : ∀ calls b offset, S.answer calls (.mlWrite path b offset) = b.length) (t : Nat) (calls : List Call)
    (file : Bytes) (hfile : file.drop t = blocks.flatten) :
    writesOf (putLoop S path (blocks.map some) ((t : Int).bmod (2 ^ 32)) calls) =
      writesOf calls ++ (cut t (blocks.map List.length)).map fun p => (slice file p.1 p.2, (p.1 : Int).bmod (2 ^ 32)) := by
  induction blocks generalizing t calls with
  | nil => rw [List.map_nil, putLoop, List.map_nil, cut, List.map_nil, List.append_nil]
  | cons b blocks ih =>
    have hb : b ≠ [] := List.ne_nil_of_length_pos (hsizes b List.mem_cons_self)
    have hslice : slice file t b.length = b := by
      rw [slice, hfile, List.flatten_cons, List.take_left]
    have hrest : file.drop (t + b.length) = blocks.flatten := by
      rw [← List.drop_drop, hfile, List.flatten_cons, List.drop_left]
    have hnext : ((t : Int).bmod (2 ^ 32) + b.length).bmod (2 ^ 32) = ((t + b.length : Nat) : Int).bmod (2 ^ 32) := by
      rw [Int.bmod_add_bmod, Int.natCast_add]
    rw [List.map_cons, putLoop, if_neg hb, haccepted, if_neg (Int.not_lt.2 (Int.natCast_nonneg _)), hnext,
      ih (fun b' hb' => hsizes b' (List.mem_cons_of_mem _ hb')) _ _ hrest, writesOf_append, List.map_cons, cut,
      List.map_cons, hslice, List.append_assoc]
    rfl

lemma Uploading.comPut_eq (h : Uploading S filename arg path blocks) :
    comPut S filename arg =
      some (0, putLoop S path (blocks.map some) 0 [.mlOpen path, .mlChmod path S.mode] ++ [.mlClose path]) := by
  obtain ⟨name, hname, hnul, hpath, hreads⟩ := h.named
  rw [comPut, h.connected, if_neg (by decide), hname]
  dsimp only
  rw [if_neg (not_not.2 rfl), Option.bind_eq_bind, Option.bind_some, if_neg (not_not.2 hnul), hpath,
    Option.bind_some, hreads]
  exact if_neg (Int.not_lt.2 h.opened)

lemma Uploading.writesOf_eq (h : Uploading S filename arg path blocks) :
    ∃ calls, comPut S filename arg = some (0, calls) ∧ writesOf calls =
      (cut 0 (blocks.map List.length)).map fun p => (slice blocks.flatten p.1 p.2, (p.1 : Int).bmod (2 ^ 32)) := by
  refine ⟨_, h.comPut_eq, ?_⟩
  have hloop := writesOf_putLoop (fun b hb => (h.sizes b hb).1) h.accepted 0 [.mlOpen path, .mlChmod path S.mode]
    blocks.flatten rfl
  rw [writesOf_append]
  refine (List.append_nil _).trans (hloop.trans ?_)
  rfl

end Loop

section Places
variable {t m : Nat} {lens : List Nat}

lemma forall_cut_lt_iff (hpos : lens ≠ []) : (∀ p ∈ cut t lens, p.1 < m) ↔ t + lens.dropLast.sum < m := by
  induction lens generalizing t with
  | nil => exact absurd rfl hpos
  | cons n lens ih =>
    cases lens with
    | nil => simp [cut]
    | cons k lens =>
      rw [cut, List.forall_mem_cons, ih (List.cons_ne_nil k lens), List.dropLast_cons_cons, List.sum_cons]
      omega

lemma bmod_eq_iff (p : Nat) : (p : Int).bmod (2 ^ 32) = p ↔ p < 2 ^ 31 := by
  rw [Int.bmod_def]
  omega

lemma placed_bmod_iff (file : Bytes) (lens : List Nat) :
    Placed file lens ((cut 0 lens).map fun p => (slice file p.1 p.2, (p.1 : Int).bmod (2 ^ 32))) ↔
      lens.dropLast.sum < 2 ^ 31 := by
  rw [Placed, List.map_inj_left]
  by_cases hlens : lens = []
  · subst hlens
    exact iff_of_true (fun p hp => nomatch hp) (by decide)
  · rw [← Nat.zero_add lens.dropLast.sum, ← forall_cut_lt_iff hlens]
    refine forall₂_congr fun p _ => ?_
    rw [Prod.mk.injEq, and_iff_right rfl, bmod_eq_iff]

end Places

/-- An upload without an error writes the blocks of the file in their order. They are at their true offsets just if all of
them but the last have less than `2^31` bytes together. -/
theorem put_placed_iff {S : Session} {filename : Block afpMaxPath} {arg path : Bytes} {blocks : List Bytes}
    (h : Uploading S filename arg path blocks) :
    ∃ calls, comPut S filename arg = some (0, calls) ∧
      (Placed blocks.flatten (blocks.map List.length) (writesOf calls) ↔
        (blocks.map List.length).dropLast.sum < 2 ^ 31) := by
  obtain ⟨calls, hcalls, hwrites⟩ := h.writesOf_eq
  refine ⟨calls, hcalls, ?_⟩
  rw [hwrites]
  exact placed_bmod_iff _ _

def openSession (blocks : List Bytes) : Session where
  connected := true
  curdir := [slash]
  mode := 0
  reads _ := some (blocks.map some)
  answer _
    | .mlWrite _ data _ => data.length
    | _ => 0

lemma uploading_openSession {blocks : List Bytes} (h : ∀ b ∈ blocks, 1 ≤ b.length ∧ b.length ≤ putBufsize) :
    Uploading (openSession blocks) (.zeros afpMaxPath) [97] [slash, 97] blocks where
  connected := rfl
  named := ⟨padded afpMaxPath [97], rfl, List.mem_append_right _ (List.mem_replicate.2 ⟨by decide, rfl⟩), rfl, rfl⟩
  opened := Int.le_refl 0
  sizes := h
  accepted _ _ _ := rfl

theorem put_placed_iff_three :
    ∃ calls, comPut (openSession [[1, 2], [3]]) (.zeros afpMaxPath) [97] = some (0, calls) ∧
      (Placed [1, 2, 3] [2, 1] (writesOf calls) ↔ [2].sum < 2 ^ 31) :=
  put_placed_iff (uploading_openSession (by decide))

/-- A file of 20973 full blocks: the last one starts at 2147532800 and is written at -2147434496. -/
theorem put_misplaced :
    ∃ calls, comPut (openSession (List.replicate 20973 (List.replicate putBufsize 0))) (.zeros _) [97] = some (0, calls) ∧
      ¬ Placed (List.replicate 20973 (List.replicate putBufsize 0)).flatten (List.replicate 20973 putBufsize)
        (writesOf calls) := by
  have hsizes : ∀ b ∈ List.replicate 20973 (List.replicate putBufsize (0 : UInt8)), 1 ≤ b.length ∧ b.length ≤ putBufsize := by
    intro b hb
    rw [List.eq_of_mem_replicate hb, List.length_replicate, putBufsize]
    omega
  obtain ⟨calls, hcalls, hwrites⟩ := (uploading_openSession hsizes).writesOf_eq
  rw [List.map_replicate, List.length_replicate] at hwrites
  refine ⟨calls, hcalls, ?_⟩
  rw [hwrites, placed_bmod_iff, List.dropLast_replicate, List.sum_replicate_nat, putBufsize]
  omega

end AfpfsNg.Cmdline
