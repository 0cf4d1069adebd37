import AfpfsNg.Proto.Volumes

/-!
# Where the list of volumes is split

`afp_getsrvrparms_reply` (`lib/proto_server.c`) goes from one record to the next by the length that `copy_from_pascal`
returns, which is the length of the name as it was cut. Behind a name that is longer than `volume_name` the next record is
looked for inside the name.
-/

namespace AfpfsNg.Proto
open AfpfsNg.Base AfpfsNg.Dsi

/-- The volumes as they were sent, each name cut to its array. -/
structure SplitsInto (avNumber : Nat) (server : SrvrParms) (sent : List (UInt8 × Bytes)) : Prop where
  numVolumes : server.volumes.length = sent.length
  flags : server.volumes.map Prod.fst = sent.map Prod.fst
  names : server.volumes.map Prod.snd = sent.map fun v => v.2.take afpVolumeNameLen
  /-- the array itself, with the zeros of `memset` -/
  volumeName : ∀ volumes, volumeArrays avNumber server.volumes = some volumes →
    volumes.map (fun v => v.array 0 33) = sent.map fun v => padded 33 (v.2.take afpVolumeNameLen)

def plainVolume (len : Nat) : UInt8 × Bytes := (0, List.replicate len 1)

lemma volumesLoop_astray {buf : Bytes} {p : Nat} {lengths : List Nat} {vols : List (UInt8 × Bytes)}
    (h : Stands buf p ((lengths.map plainVolume).flatMap fun v => v.1 :: pascal v.2))
    (hlengths : ∀ len ∈ lengths, len < 256) (hloop : volumesLoop buf lengths.length p = some vols)
    (hflags : vols.map Prod.fst = (lengths.map plainVolume).map Prod.fst) : ∀ len ∈ lengths.dropLast, len ≤ 33 := by
  induction lengths generalizing p vols with
  | nil => nofun
  | cons len lengths ih =>
    have hlen : (plainVolume len).2.length = len := List.length_replicate
    have hlt : (plainVolume len).2.length < 256 := by
      rw [hlen]
      exact hlengths len (.head _)
    rw [List.length_cons, volumesLoop_record h hlt, hlen] at hloop
    obtain ⟨later, hlater, rfl⟩ := Option.map_eq_some_iff.mp hloop
    have hflags' : later.map Prod.fst = (lengths.map plainVolume).map Prod.fst := (List.cons.inj hflags).2
    cases lengths with
    | nil => nofun
    | cons next lengths =>
      by_cases hle : len ≤ 33
      · have hrest := Stands.right h
        have hsize : ((plainVolume len).1 :: pascal (plainVolume len).2).length = 1 + (min 33 len + 1) := by
          rw [Nat.min_eq_right hle, List.length_cons, pascal, List.length_cons, hlen]
          exact Nat.add_comm ..
        rw [hsize, ← Nat.add_assoc] at hrest
        exact List.forall_mem_cons.mpr ⟨hle, ih hrest (fun l hl => hlengths l (.tail _ hl)) hlater hflags'⟩
      · -- the record behind the name is looked for at its 34th byte
        have hname : Stands buf (p + 1 + 1) (List.replicate len 1) := stands_tail (stands_tail (Stands.left h))
        have hletters : List.replicate len (1 : UInt8) = List.replicate 33 1 ++ 1 :: List.replicate (len - 34) 1 := by
          rw [← List.replicate_succ, List.replicate_append_replicate]
          congr 1
          omega
        rw [hletters] at hname
        have hletter := getElem?_of_stands (Stands.right hname)
        rw [List.length_replicate] at hletter
        have hplace : p + 1 + (min 33 len + 1) = p + 1 + 1 + 33 := by omega
        rw [hplace, List.length_cons, volumesLoop, hletter] at hlater
        obtain ⟨flags, hflag, hlater⟩ := Option.bind_eq_some_iff.mp hlater
        obtain ⟨name, -, hlater⟩ := Option.bind_eq_some_iff.mp hlater
        obtain ⟨vols, -, hlater⟩ := Option.bind_eq_some_iff.mp hlater
        cases hlater
        cases hflag
        cases (List.cons.inj hflags').1

lemma volumeArrays_names {avNumber : Nat} {vols : List (UInt8 × Bytes)} {volumes : List (Block 66)}
    (hvols : ∀ v ∈ vols, v.2.length ≤ 33) (h : volumeArrays avNumber vols = some volumes) :
    volumes.map (fun v => v.array 0 33) = vols.map fun v => padded 33 v.2 := by
  induction vols generalizing volumes with
  | nil =>
    cases h
    rfl
  | cons v vols ih =>
    obtain ⟨names, hnames, h⟩ := Option.bind_eq_some_iff.mp h
    obtain ⟨rest, hrest, h⟩ := Option.bind_eq_some_iff.mp h
    cases h
    rw [List.map_cons, List.map_cons, ih (fun u hu => hvols u (.tail _ hu)) hrest]
    congr 1
    obtain ⟨names₁, hput, hnames⟩ := Option.bind_eq_some_iff.mp hnames
    obtain ⟨-, hname, -⟩ := named_volume (hvols v (.head _)) hput
    -- what is written next is behind the name
    split at hnames
    case isTrue => rw [Block.array_put_of_disjoint hnames (.inl (Nat.le_refl 33)), hname]
    case isFalse =>
      obtain ⟨t, -, hput₂⟩ := Option.bind_eq_some_iff.mp hnames
      rw [Block.array_put_of_disjoint hput₂ (.inl (Nat.le_refl 33)), hname]

lemma getsrvrparms_loop {buf : Bytes} {sent : List (UInt8 × Bytes)} (server : SrvrParms)
    (hsent : Stands buf 20 (volumeList sent)) (hcount : sent.length < 256) :
    afpGetsrvrparmsReply server buf =
      (volumesLoop buf sent.length 21).map fun volumes => (0, ⟨adDateToUnix (slice buf 16 4), volumes⟩) := by
  have hlen : ¬ buf.length < 21 := by
    have hle : 20 + (volumeList sent).length ≤ buf.length := hsent.le
    rw [volumeList, List.length_cons] at hle
    omega
  rw [afpGetsrvrparmsReply, if_neg hlen, getElem?_of_stands hsent]
  show (volumesLoop buf (UInt8.ofNat sent.length).toNat 21).bind _ = _
  rw [toNat_ofNat_of_lt hcount]
  exact Option.map_eq_bind.symm

/-- Every list with names of these lengths is split where its records are if and only if no name but the last is longer than
its array. -/
theorem volume_list_split_iff (avNumber : Nat) (lengths : List Nat) (hcount : lengths.length ≤ 255)
    (hlengths : ∀ len ∈ lengths, len ≤ 255) :
    (∀ (sent : List (UInt8 × Bytes)) (buf : Bytes) (server : SrvrParms), sent.map (fun v => v.2.length) = lengths →
      Stands buf 20 (volumeList sent) →
      ∃ server', afpGetsrvrparmsReply server buf = some (0, server') ∧ SplitsInto avNumber server' sent) ↔
    ∀ len ∈ lengths.dropLast, len ≤ 33 := by
  constructor
  · intro hsplit
    let sent := lengths.map plainVolume
    have hsent : sent.map (fun v => v.2.length) = lengths := by
      rw [List.map_map]
      exact (List.map_congr_left fun len _ => List.length_replicate).trans (List.map_id _)
    have hstands : Stands (List.replicate 20 0 ++ (volumeList sent ++ [])) 20 (volumeList sent) := stands_mid ..
    obtain ⟨server', hreply, hright⟩ := hsplit sent _ ⟨0, []⟩ hsent hstands
    have hsize : sent.length = lengths.length := List.length_map _
    rw [getsrvrparms_loop _ hstands (by omega)] at hreply
    obtain ⟨vols, hloop, hreply⟩ := Option.map_eq_some_iff.mp hreply
    obtain rfl := (Prod.mk.inj hreply).2
    rw [hsize] at hloop
    exact volumesLoop_astray (stands_tail hstands) (fun l hl => Nat.lt_succ_of_le (hlengths l hl)) hloop hright.flags
  · rintro hcut sent buf server rfl hstands
    rw [List.length_map] at hcount
    rw [← List.map_dropLast] at hcut
    have hsent : ∀ v ∈ sent, v.2.length < 256 :=
      fun v hv => Nat.lt_succ_of_le (hlengths _ (List.mem_map_of_mem hv))
    have hloop := volumesLoop_split (stands_tail hstands) hsent fun v hv => hcut _ (List.mem_map_of_mem hv)
    refine ⟨_, by rw [getsrvrparms_loop server hstands (by omega), hloop]; rfl, ?_⟩
    refine ⟨List.length_map _, ?_, ?_, fun volumes hvolumes => ?_⟩
    · rw [List.map_map]
      rfl
    · rw [List.map_map]
      rfl
    · have hle : ∀ v ∈ sent.map (fun v => (v.1, v.2.take afpVolumeNameLen)), v.2.length ≤ 33 := by
        rintro v hv
        obtain ⟨u, -, rfl⟩ := List.mem_map.mp hv
        exact List.length_take_le ..
      rw [volumeArrays_names hle hvolumes, List.map_map]
      rfl

theorem volume_list_split_short :
    (∀ (sent : List (UInt8 × Bytes)) (buf : Bytes) (server : SrvrParms), sent.map (fun v => v.2.length) = [4, 40] →
      Stands buf 20 (volumeList sent) →
      ∃ server', afpGetsrvrparmsReply server buf = some (0, server') ∧ SplitsInto 31 server' sent) ↔
    ∀ len ∈ [4, 40].dropLast, len ≤ 33 :=
  volume_list_split_iff 31 [4, 40] (by decide) (by decide)

/-- A name of 34 letters in front of the volume `V`: the second volume gets the last letter of the first name for its flags,
and its own flags are taken for the length of its name. -/
theorem volume_list_split_long :
    let sent : List (UInt8 × Bytes) := [(0, List.replicate 34 97), (1, [86])]
    (afpGetsrvrparmsReply ⟨0, []⟩ (List.replicate 20 0 ++ volumeList sent)).map (fun r => (r.1, r.2.volumes)) =
      some (0, [(0, List.replicate 33 97), (97, [1])]) := by
  decide

end AfpfsNg.Proto
