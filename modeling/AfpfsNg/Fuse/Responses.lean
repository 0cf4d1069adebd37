import AfpfsNg.Base.Arrays
import AfpfsNg.Base.ByteOrder
import Mathlib.Data.List.Infix

/-!
# Answers of the daemon

While the daemon works on a command, it collects messages in `client_string` (`log_for_client`, `lib/log.c`, and
`fuse_log_for_client`, `fuse/commands.c`). In the end it sends them, with a result and their length in front, and closes the
connection (`process_command_thread`). The client puts what it reads into `incoming_buffer`, which is not larger than
`client_string`, and takes the length from there after the first piece (`read_answer`, `fuse/client.c`).

A call of `write` takes the whole answer; `select` and `read` do not fail.
-/

namespace AfpfsNg.Fuse
open AfpfsNg.Base

/-- `MAX_CLIENT_RESPONSE` -/
def maxClientResponse : Nat := 2048

/-- C `log_for_client`, which has an array of 1024 bytes for a message, and C `fuse_log_for_client`: `client_string` then. -/
def logForClient (clientString message : Bytes) : Bytes :=
  clientString ++ (message.take 1023).take (maxClientResponse - clientString.length - 1)

/-- The answer: `struct afp_server_response`, with the bytes that the compiler leaves free, and `client_string`. -/
def response (result : UInt8) (padding : Block 3) (clientString : Bytes) : Bytes :=
  result :: padding.bytes ++ leBytes 4 clientString.length ++ clientString

/-- What `select` and `read` say in a round: nothing in 30 seconds, or some bytes, and none at the end. -/
inductive Round where
  | timeout
  | bytes (bs : Bytes)

/-- `No response from server`, or the returned result, the text, and whether `Dropped connection` is printed. -/
inductive Outcome where
  | noResponse
  | answered (result : UInt8) (printed : Bytes) (dropped : Bool)
  deriving DecidableEq

/-- The label `done` of `read_answer`. There is no result if the text has no terminator. -/
def finishAnswer (got : Bytes) (dropped : Bool) : Option Outcome :=
  let incoming := padded maxClientResponse got
  if 0 ∈ incoming.drop 8 then some (.answered (incoming.headD 0) (cString (incoming.drop 8)) dropped) else none

def readLoop : Bytes → Nat → List Round → Option Outcome
  | _, _, [] => none
  | _, _, .timeout :: _ => some .noResponse
  | got, expected, .bytes bs :: rounds =>
    if bs = [] then finishAnswer got true
    else
      let expected := if got = [] then leNat (slice (padded maxClientResponse bs) 4 4) else expected
      if got.length + bs.length = expected + 8 then finishAnswer (got ++ bs) false
      else readLoop (got ++ bs) expected rounds

def readAnswer (rounds : List Round) : Option Outcome := readLoop [] 0 rounds

/-- The rounds in which these pieces arrive, and then the end: the connection is closed, or the buffer is full. -/
def arrival (pieces : List Bytes) : List Round := pieces.map .bytes ++ [.bytes []]

section Messages
variable {ms : List Bytes}

lemma take_take_append {α : Type} (a b : List α) (n : Nat) : (a.take n ++ b).take n = (a ++ b).take n := by
  rw [List.take_append, List.take_append, List.take_take, Nat.min_self, List.length_take]
  congr 2
  omega

lemma logForClient_eq {c : Bytes} (hc : c.length ≤ 2047) (m : Bytes) :
    logForClient c m = (c ++ m.take 1023).take 2047 := by
  rw [logForClient, List.take_append, List.take_of_length_le hc, maxClientResponse, Nat.sub_right_comm]

lemma foldl_logForClient {c : Bytes} (hc : c.length ≤ 2047) :
    ms.foldl logForClient c = (c ++ (ms.map (List.take 1023)).flatten).take 2047 := by
  induction ms generalizing c with
  | nil => rw [List.map_nil, List.flatten_nil, List.append_nil, List.foldl_nil, List.take_of_length_le hc]
  | cons m ms ih =>
    rw [List.foldl_cons, logForClient_eq hc, ih (List.length_take_le ..), take_take_append, List.map_cons,
      List.flatten_cons, List.append_assoc]

lemma length_cut_messages (ms : List Bytes) :
    (ms.map (List.take 1023)).flatten.length ≤ ms.flatten.length ∧
      (ms.flatten.length ≤ (ms.map (List.take 1023)).flatten.length → ∀ m ∈ ms, m.length < 1024) := by
  induction ms with
  | nil => exact ⟨Nat.le_refl _, fun _ => List.forall_mem_nil _⟩
  | cons m ms ih =>
    simp only [List.map_cons, List.flatten_cons, List.length_append, List.length_take, List.forall_mem_cons]
    refine ⟨by omega, fun h => ⟨by omega, ih.2 (by omega)⟩⟩

end Messages

section Loop
variable {got w p : Bytes} {e : Nat} {pieces : List Bytes} {r : UInt8} {t : Bytes}

lemma drop_padded (h : 8 ≤ got.length) :
    (padded maxClientResponse got).drop 8 = padded (maxClientResponse - 8) (got.drop 8) := by
  rw [padded, padded, List.drop_append_of_le_length h, List.length_drop]
  congr 2
  omega

lemma readLoop_whole (hpieces : ∀ p ∈ pieces, p ≠ []) (hw : got ++ pieces.flatten = w) (hgot : got ≠ [])
    (hlen : w.length = e + 8) (hlt : got.length < w.length) : readLoop got e (arrival pieces) = finishAnswer w false := by
  induction pieces generalizing got with
  | nil =>
    rw [List.flatten_nil, List.append_nil] at hw
    exact absurd (hw ▸ hlt) (Nat.lt_irrefl _)
  | cons p pieces ih =>
    obtain ⟨hp, hpieces⟩ := List.forall_mem_cons.1 hpieces
    rw [List.flatten_cons, ← List.append_assoc] at hw
    have hsum := congrArg List.length hw
    rw [List.length_append, List.length_append] at hsum
    show readLoop got e (.bytes p :: arrival pieces) = _
    rw [readLoop, if_neg hp]
    dsimp only
    rw [if_neg hgot]
    by_cases hend : got.length + p.length = e + 8
    · have hnil : pieces.flatten = [] := List.length_eq_zero_iff.1 (by omega)
      rw [if_pos hend, ← hw, hnil, List.append_nil]
    · rw [if_neg hend]
      exact ih hpieces hw (List.append_ne_nil_of_left_ne_nil hgot p) (by rw [List.length_append]; omega)

lemma finishAnswer_eq_some {d d' : Bool} (h : finishAnswer got d = some (.answered r t d')) :
    d = d' ∧ t = cString ((padded maxClientResponse got).drop 8) ∧ 0 ∈ (padded maxClientResponse got).drop 8 := by
  rw [finishAnswer] at h
  split at h
  next hmem =>
    obtain ⟨-, ht, hd⟩ := Outcome.answered.inj (Option.some.inj h)
    exact ⟨hd, ht.symm, hmem⟩
  · cases h

lemma readLoop_stops (hgot : got ≠ []) (h : readLoop got e (arrival pieces) = some (.answered r t false)) :
    ∃ g, g <+: got ++ pieces.flatten ∧ g.length = e + 8 ∧ finishAnswer g false = some (.answered r t false) := by
  induction pieces generalizing got with
  | nil => exact absurd (finishAnswer_eq_some h).1 (by decide)
  | cons p pieces ih =>
    change readLoop got e (.bytes p :: arrival pieces) = _ at h
    rw [readLoop] at h
    by_cases hp : p = []
    · rw [if_pos hp] at h
      exact absurd (finishAnswer_eq_some h).1 (by decide)
    · rw [if_neg hp] at h
      dsimp only at h
      rw [if_neg hgot] at h
      rw [List.flatten_cons, ← List.append_assoc]
      by_cases hend : got.length + p.length = e + 8
      · rw [if_pos hend] at h
        exact ⟨got ++ p, List.prefix_append .., by rw [List.length_append, hend], h⟩
      · rw [if_neg hend] at h
        exact ih (List.append_ne_nil_of_left_ne_nil hgot p) h

end Loop

section Answer
variable {result : UInt8} {padding : Block 3} {s first : Bytes} {rest : List Bytes}

lemma length_response : (response result padding s).length = s.length + 8 := by
  rw [response, List.length_append, List.length_append, List.length_cons, padding.size, length_leBytes, Nat.add_comm]

lemma drop_response : (response result padding s).drop 8 = s := by
  have hfront : (result :: padding.bytes ++ leBytes 4 s.length).length = 8 := by
    rw [List.length_append, List.length_cons, padding.size, length_leBytes]
  rw [response, ← hfront, List.drop_left]

lemma expected_eq (hs : s.length < 256 ^ 4) (hfirst : first <+: response result padding s) :
    leNat (slice (padded maxClientResponse first) 4 4) = s.length % 256 ^ (first.length - 4) := by
  have hdrop : first.drop 4 <+: leBytes 4 s.length ++ s := by
    have h := hfirst.drop 4
    rwa [response, List.append_assoc, List.drop_left' (by rw [List.length_cons, padding.size])] at h
  have htake : (first.drop 4).take 4 = (leBytes 4 s.length).take (first.length - 4) := by
    rw [List.prefix_iff_eq_take.1 hdrop, List.length_drop, List.take_take, Nat.min_comm, ← List.take_take,
      List.take_left' (length_leBytes ..)]
  rw [slice, padded, List.drop_append, List.take_append, List.drop_replicate, List.take_replicate, htake, leNat_append,
    leNat_replicate_zero, Nat.mul_zero, Nat.zero_add, leNat_take_leBytes hs]

lemma readAnswer_cons (hfirst : first ≠ []) :
    readAnswer (arrival (first :: rest)) =
      if first.length = leNat (slice (padded maxClientResponse first) 4 4) + 8 then finishAnswer first false
      else readLoop first (leNat (slice (padded maxClientResponse first) 4 4)) (arrival rest) := by
  show readLoop [] 0 (.bytes first :: arrival rest) = _
  rw [readLoop, if_neg hfirst]
  dsimp only
  rw [if_pos rfl, List.length_nil, Nat.zero_add, List.nil_append]

lemma finishAnswer_response (hs : s.length < 2040) (hnul : 0 ∉ s) :
    finishAnswer (response result padding s) false = some (.answered result s false) := by
  have hlen : (response result padding s).length = s.length + 8 := length_response
  have hzero : 0 ∈ padded (maxClientResponse - 8) s :=
    List.mem_append_right _ (List.mem_replicate.2 ⟨by rw [maxClientResponse]; omega, rfl⟩)
  rw [finishAnswer, drop_padded (by omega), drop_response, if_pos hzero, cString_padded, cString_of_not_mem hnul]
  rfl

lemma readAnswer_stops {t : Bytes} (hfirst : first ≠ [])
    (h : readAnswer (arrival (first :: rest)) = some (.answered result t false)) :
    ∃ g, g <+: (first :: rest).flatten ∧ g.length = leNat (slice (padded maxClientResponse first) 4 4) + 8 ∧
      finishAnswer g false = some (.answered result t false) := by
  rw [readAnswer_cons hfirst] at h
  split at h
  next hend => exact ⟨first, List.prefix_append .., hend, h⟩
  · exact readLoop_stops hfirst h

/-- What an answer without a warning says of the answer that was sent. -/
lemma sent_of_answered {t : Bytes} (hs : s.length < 256 ^ 4) (hnul : 0 ∉ s) (hfirst : first ≠ [])
    (harrive : (first :: rest).flatten = (response result padding s).take maxClientResponse)
    (h : readAnswer (arrival (first :: rest)) = some (.answered result t false)) :
    t.length ≤ s.length % 256 ^ (first.length - 4) ∧ s.length % 256 ^ (first.length - 4) < 2040 := by
  have hsent : (first :: rest).flatten <+: response result padding s := harrive ▸ List.take_prefix ..
  obtain ⟨g, hg, hglen, hfinish⟩ := readAnswer_stops hfirst h
  rw [expected_eq hs ((List.prefix_append first rest.flatten).trans hsent)] at hglen
  obtain ⟨-, htext, hzero⟩ := finishAnswer_eq_some hfinish
  rw [drop_padded (by omega)] at htext hzero
  constructor
  · rw [htext, cString_padded]
    refine (List.takeWhile_prefix _).length_le.trans ?_
    rw [List.length_drop]
    omega
  · -- a full buffer has no terminator
    by_contra hlong
    have hgdrop := (hg.trans hsent).drop 8
    rw [drop_response] at hgdrop
    have hfull : maxClientResponse - 8 - (g.drop 8).length = 0 := by
      rw [List.length_drop, maxClientResponse]
      omega
    rw [padded, hfull, List.replicate_zero, List.append_nil] at hzero
    exact hnul (hgdrop.subset hzero)

lemma answered_of_fits (hs : s.length < 2040) (hnul : 0 ∉ s) (hfield : s.length < 256 ^ (first.length - 4))
    (hpieces : ∀ p ∈ first :: rest, p ≠ []) (harrive : (first :: rest).flatten = response result padding s) :
    readAnswer (arrival (first :: rest)) = some (.answered result s false) := by
  obtain ⟨hfirst, hrest⟩ := List.forall_mem_cons.1 hpieces
  have hprefix : first <+: response result padding s := harrive ▸ List.prefix_append first rest.flatten
  have hlen := hprefix.length_le
  rw [length_response] at hlen
  rw [readAnswer_cons hfirst, expected_eq (by omega) hprefix, Nat.mod_eq_of_lt hfield, ← finishAnswer_response hs hnul]
  by_cases hend : first.length = s.length + 8
  · rw [if_pos hend, hprefix.eq_of_length (by rw [hend, length_response])]
  · rw [if_neg hend]
    exact readLoop_whole hrest harrive hfirst length_response (by rw [length_response]; omega)

/-- The client shows what the daemon has logged, and knows that this is all, just if no message and not all together are too
long, and the first piece has the bytes of the length that are not 0. -/
theorem response_received_iff {ms : List Bytes} (hms : ∀ m ∈ ms, 0 ∉ m) (hpieces : ∀ p ∈ first :: rest, p ≠ [])
    (harrive : (first :: rest).flatten = (response result padding (ms.foldl logForClient [])).take maxClientResponse) :
    readAnswer (arrival (first :: rest)) = some (.answered result ms.flatten false) ↔
      (∀ m ∈ ms, m.length < 1024) ∧ ms.flatten.length < 2040 ∧ ms.flatten.length < 256 ^ (first.length - 4) := by
  have hlog := @foldl_logForClient ms [] (Nat.zero_le _)
  obtain ⟨hcut, hshort⟩ := length_cut_messages ms
  generalize ms.foldl logForClient [] = s at hlog harrive
  rw [List.nil_append] at hlog
  have hlen : s.length = min 2047 (ms.map (List.take 1023)).flatten.length := by rw [hlog, List.length_take]
  have hnul : 0 ∉ s := by
    rw [hlog]
    intro h0
    obtain ⟨m', hm', h0⟩ := List.mem_flatten.1 (List.mem_of_mem_take h0)
    obtain ⟨m, hm, rfl⟩ := List.mem_map.1 hm'
    exact hms m hm (List.mem_of_mem_take h0)
  constructor
  · intro h
    obtain ⟨hflat, hsize⟩ := sent_of_answered (by omega) hnul (List.forall_mem_cons.1 hpieces).1 harrive h
    have hmod := Nat.mod_le s.length (256 ^ (first.length - 4))
    have hlt := Nat.mod_lt s.length (Nat.pow_pos (n := first.length - 4) (by decide : 0 < 256))
    exact ⟨hshort (by omega), by omega, by omega⟩
  · rintro ⟨hall, hsize, hfield⟩
    have huncut : ms.map (List.take 1023) = ms :=
      (List.map_congr_left fun m hm => List.take_of_length_le (Nat.le_of_lt_succ (hall m hm))).trans (List.map_id ms)
    rw [huncut, List.take_of_length_le (by omega)] at hlog
    subst hlog
    rw [List.take_of_length_le (by rw [length_response, maxClientResponse]; omega)] at harrive
    exact answered_of_fits hsize hnul hfield hpieces harrive

end Answer

theorem response_received_iff_ping :
    readAnswer (arrival [[1, 0, 0, 0, 2, 0], [0, 0, 80], [33]]) = some (.answered 1 [80, 33] false) ↔
      (∀ m ∈ [([80] : Bytes), [33]], m.length < 1024) ∧ 2 < 2040 ∧ 2 < 256 ^ (6 - 4) :=
  @response_received_iff 1 (.zeros 3) [1, 0, 0, 0, 2, 0] [[0, 0, 80], [33]] [[80], [33]] (by decide) (by decide) rfl

end AfpfsNg.Fuse
