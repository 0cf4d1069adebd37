import AfpfsNg.Cmdline.Put

/-!
# Downloads

`get_dir` (`cmdline/cmdline_afp.c`), the work of `get -r`: it makes a local directory, goes into it, and copies one entry of the
server's directory after the other. For a file it sets `curdir`, the current directory on the server, and calls `com_get_file`,
which takes the name for something that was typed (`escape_paths`). `curdir` is not set back.

The calls of the local system succeed: nothing is in the way of what is made. `Remote` is what the mid level says of a volume
that does not change. The totals that are printed are left out.
-/

namespace AfpfsNg.Cmdline
open AfpfsNg.Base AfpfsNg.Afp AfpfsNg.Fork

structure Remote where
  /-- `ml_readdir`: the names, and `isdir` -/
  mlReaddir : Bytes → Option (List (Bytes × Bool))
  mlGetattr : Bytes → Int
  mlOpen : Bytes → Int
  /-- `ml_read` of `BUF_SIZE` bytes at an offset, no bytes if it returns an error, and `*eof` -/
  mlRead : Bytes → Nat → Bytes × Bool

/-- What is made locally. -/
inductive Made where
  | dir (path : List Bytes)
  | file (path : List Bytes) (data : Bytes)
  deriving DecidableEq, Repr

structure Local where
  cwd : List Bytes
  curdir : Bytes
  made : List Made
  deriving DecidableEq, Repr

def Local.enter (s : Local) (path : Bytes) : Local :=
  { s with cwd := s.cwd ++ [path], made := s.made ++ [.dir (s.cwd ++ [path])] }

def Local.leave (s : Local) : Local := { s with cwd := s.cwd.dropLast }

/-- C `basename`, for a path that does not end with a `/`. -/
def basename (path : Bytes) : Bytes := (path.reverse.takeWhile (· ≠ slash)).reverse

/-- The loop of `retrieve_file`: what is written to the local file. -/
def retrieveLoop (read : Nat → Bytes × Bool) : Nat → Nat → Bytes → Option Bytes
  | 0, _, _ => none
  | n + 1, offset, written =>
    let (buf, eof) := read offset
    if buf = [] then some written
    else if eof then some (written ++ buf)
    else retrieveLoop read n (offset + buf.length) (written ++ buf)

def retrieveFile (R : Remote) (n : Nat) (path : Bytes) : Option Bytes :=
  if R.mlGetattr path ≠ 0 ∨ R.mlOpen path ≠ 0 then some [] else retrieveLoop (R.mlRead path) n 0 []

def comGetFile (R : Remote) (n : Nat) (filename : Block afpMaxPath) (arg : Bytes) (s : Local) : Option Local :=
  match escapePaths (some filename) none arg with
  | none => none
  | some (ret, name, _) =>
    if ret ≠ 0 then some s
    else do
      let name ← name
      -- the name is read up to its terminator
      if 0 ∉ name then none
      else
        let path ← getServerPath s.curdir (cString name)
        if R.mlGetattr path ≠ 0 then some s
        else
          let data ← retrieveFile R n path
          return { s with made := s.made ++ [.file (s.cwd ++ [basename (cString name)]) data] }

def totalPath (base path : Bytes) : Bytes :=
  (if base = [slash] then slash :: path else base ++ slash :: path).take (afpMaxPath - 1)

def getDir (R : Remote) (filename : Block afpMaxPath) : Nat → Bytes → Bytes → Local → Option Local
  | 0, _, _, _ => none
  | n + 1, base, path, s =>
    let total := totalPath base path
    let s := s.enter path
    match R.mlReaddir total with
    | none => some s.leave
    | some entries => do
      let s ← entries.foldlM (fun s p =>
        if p.2 then getDir R filename n total p.1 s else comGetFile R n filename p.1 { s with curdir := total }) s
      return s.leave

/-- A directory, as it is listed. -/
inductive Tree where
  | nil
  | file (name data : Bytes) (rest : Tree)
  | dir (name : Bytes) (sub rest : Tree)

namespace Tree

def entries : Tree → List (Bytes × Bool)
  | nil => []
  | file name _ rest => (name, false) :: rest.entries
  | dir name _ rest => (name, true) :: rest.entries

/-- Its copy in a local directory, in the order in which it is made. -/
def copy (cwd : List Bytes) : Tree → List Made
  | nil => []
  | file name data rest => .file (cwd ++ [name]) data :: rest.copy cwd
  | dir name sub rest => .dir (cwd ++ [name]) :: (sub.copy (cwd ++ [name]) ++ rest.copy cwd)

def lastDir (path : Bytes) : Tree → Option Bytes
  | nil => none
  | file _ _ rest => (rest.lastDir path).or (some path)
  | dir name sub rest => (rest.lastDir path).or (sub.lastDir (totalPath path name))

/-- A bound for the depth of the recursion and for the number of reads. -/
def weight : Tree → Nat
  | nil => 0
  | file _ data rest => data.length + 1 + rest.weight
  | dir _ sub rest => sub.weight + 1 + rest.weight

end Tree

/-- A name in which `escape_paths` changes nothing. -/
structure PlainName (w : Bytes) : Prop extends FileName w where
  space : space ∉ w
  backslash : backslash ∉ w
  slash : slash ∉ w

/-- Each read returns some of the bytes at the offset, and says that the file ends only with its last byte. -/
def ReadsFile (read : Nat → Bytes × Bool) (data : Bytes) : Prop :=
  ∀ o ≤ data.length, ∃ k eof, read o = (slice data o k, eof) ∧ o + k ≤ data.length ∧
    (o < data.length → 0 < k) ∧ (eof = true → o + k = data.length)

/-- The volume has these files and directories below `path`. -/
def Serves (R : Remote) (path : Bytes) : Tree → Prop
  | .nil => True
  | .file name data rest => PlainName name ∧ (path ++ slash :: name).length < afpMaxPath ∧
    R.mlGetattr (totalPath path name) = 0 ∧ R.mlOpen (totalPath path name) = 0 ∧
    ReadsFile (R.mlRead (totalPath path name)) data ∧ Serves R path rest
  | .dir name sub rest => (path ++ slash :: name).length < afpMaxPath ∧
    R.mlReaddir (totalPath path name) = some sub.entries ∧ Serves R (totalPath path name) sub ∧ Serves R path rest

section File
variable {R : Remote} {read : Nat → Bytes × Bool} {data path name : Bytes} {n : Nat} {s : Local}

lemma retrieveLoop_reads (h : ReadsFile read data) {o : Nat} (ho : o ≤ data.length) (hn : data.length < o + n) :
    retrieveLoop read n o (data.take o) = some data := by
  induction n generalizing o with
  | zero => omega
  | succ n ih =>
    obtain ⟨k, eof, hread, hk, hpos, hend⟩ := h o ho
    have hlen : (slice data o k).length = k := by
      rw [slice, List.length_take, List.length_drop]
      omega
    have hnext : data.take o ++ slice data o k = data.take (o + k) := by
      rw [slice, List.take_add]
    rw [retrieveLoop, hread]
    dsimp only
    by_cases hbuf : slice data o k = []
    · have ho' : data.length ≤ o := by
        by_contra hlt
        have := hpos (by omega)
        rw [hbuf, List.length_nil] at hlen
        omega
      rw [if_pos hbuf, List.take_of_length_le ho']
    · have hkpos : 0 < k := hlen ▸ List.length_pos_iff.2 hbuf
      rw [if_neg hbuf, hnext, hlen]
      cases eof with
      | true => rw [if_pos rfl, hend rfl, List.take_length]
      | false =>
        rw [if_neg Bool.false_ne_true]
        exact ih hk (by omega)

lemma PlainName.typed_eq (h : PlainName name) : typed name = name := by
  have hletters : ∀ c ∈ name, typedLetter c = [c] := by
    intro c hc
    refine if_neg ?_
    rintro (rfl | rfl)
    · exact h.space hc
    · exact h.backslash hc
  rw [typed, List.flatMap_congr hletters, List.flatMap_singleton']

lemma PlainName.escapePaths_eq (h : PlainName name) (filename : Block afpMaxPath) :
    escapePaths (some filename) none name = some (0, some (padded afpMaxPath name), none) := by
  have hkeeps : KeepsOne filename name :=
    (keepsOne_iff h.toFileName).2 ((List.count_eq_zero_of_not_mem h.space).trans_le (Nat.zero_le 1))
  rwa [KeepsOne, h.typed_eq] at hkeeps

lemma PlainName.basename_eq (h : PlainName name) : basename name = name := by
  have hall : ∀ c ∈ name.reverse, decide (c ≠ Afp.slash) = true := by
    intro c hc
    refine decide_eq_true ?_
    rintro rfl
    exact h.slash (List.mem_reverse.1 hc)
  rw [basename, List.takeWhile_eq_self_iff.2 hall, List.reverse_reverse]

lemma totalPath_eq (hpath : path.head? = some slash) (hfits : (path ++ slash :: name).length < afpMaxPath) :
    totalPath path name = if path.length = 1 then slash :: name else path ++ slash :: name := by
  obtain ⟨rest, rfl⟩ : ∃ rest, path = slash :: rest := List.head?_eq_some_iff.1 hpath
  have hroot : (slash :: rest = [slash]) ↔ (slash :: rest).length = 1 := by
    rw [List.length_cons, List.cons.injEq, and_iff_right rfl, ← List.length_eq_zero_iff]
    omega
  rw [totalPath, if_congr hroot rfl rfl]
  refine List.take_of_length_le ?_
  simp only [List.length_append, List.length_cons] at hfits ⊢
  split
  · rw [List.length_cons]
    omega
  · rw [List.length_append, List.length_cons, List.length_cons]
    omega

lemma getServerPath_plain (hname : PlainName name) (hpath : path.head? = some slash)
    (hfits : (path ++ slash :: name).length < afpMaxPath) : getServerPath path name = some (totalPath path name) := by
  have hrel : name.head? ≠ some slash := fun h => hname.slash (List.mem_of_head? h)
  have hlen : (totalPath path name).length < afpMaxPath := by
    rw [totalPath, List.length_take]
    exact (Nat.min_le_left ..).trans_lt (Nat.sub_lt (by decide) Nat.one_pos)
  rw [getServerPath, if_neg hrel, ← totalPath_eq hpath hfits]
  exact if_pos hlen

lemma comGetFile_named {filename : Block afpMaxPath} {arg : Bytes}
    (hname : escapePaths (some filename) none arg = some (0, some name, none)) (hnul : 0 ∈ name)
    (hpath : getServerPath s.curdir (cString name) = some path) (hattr : R.mlGetattr path = 0) (hopen : R.mlOpen path = 0)
    (hreads : ReadsFile (R.mlRead path) data) (hn : data.length < n) :
    comGetFile R n filename arg s =
      some { s with made := s.made ++ [.file (s.cwd ++ [basename (cString name)]) data] } := by
  have hretrieve : retrieveFile R n path = some data := by
    rw [retrieveFile, if_neg (by rw [hattr, hopen]; decide)]
    exact retrieveLoop_reads hreads (Nat.zero_le _) (by omega)
  rw [comGetFile, hname]
  dsimp only
  rw [if_neg (not_not.2 rfl), Option.bind_eq_bind, Option.bind_some, if_neg (not_not.2 hnul), hpath, Option.bind_some,
    if_neg (not_not.2 hattr), hretrieve]
  rfl

lemma comGetFile_plain (hname : PlainName name) (hpath : s.curdir.head? = some slash)
    (hfits : (s.curdir ++ slash :: name).length < afpMaxPath) (hattr : R.mlGetattr (totalPath s.curdir name) = 0)
    (hopen : R.mlOpen (totalPath s.curdir name) = 0) (hreads : ReadsFile (R.mlRead (totalPath s.curdir name)) data)
    (hn : data.length < n) (filename : Block afpMaxPath) :
    comGetFile R n filename name s = some { s with made := s.made ++ [.file (s.cwd ++ [name]) data] } := by
  have hstring : cString (padded afpMaxPath name) = name := by rw [cString_padded, cString_of_not_mem hname.nul]
  have hnul : 0 ∈ padded afpMaxPath name :=
    List.mem_append_right _ (List.mem_replicate.2 ⟨Nat.sub_ne_zero_of_lt hname.fits, rfl⟩)
  have hserver : getServerPath s.curdir (cString (padded afpMaxPath name)) = some (totalPath s.curdir name) := by
    rw [hstring, getServerPath_plain hname hpath hfits]
  rw [comGetFile_named (hname.escapePaths_eq filename) hnul hserver hattr hopen hreads hn, hstring, hname.basename_eq]

end File

section Directory
variable {R : Remote} {filename : Block afpMaxPath} {path name : Bytes} {t : Tree} {n : Nat} {s : Local}

lemma head_totalPath (hpath : path.head? = some slash) (hfits : (path ++ slash :: name).length < afpMaxPath) :
    (totalPath path name).head? = some slash := by
  rw [totalPath_eq hpath hfits]
  split
  · rfl
  · rw [List.head?_append, hpath]
    rfl

def Local.copied (s : Local) (path : Bytes) (t : Tree) : Local :=
  { s with curdir := (t.lastDir path).getD s.curdir, made := s.made ++ t.copy s.cwd }

lemma getDir_succ {sub : Tree} (hreaddir : R.mlReaddir (totalPath path name) = some sub.entries)
    (hfold : sub.entries.foldlM (fun s p => if p.2 then getDir R filename n (totalPath path name) p.1 s
      else comGetFile R n filename p.1 { s with curdir := totalPath path name }) (s.enter name) =
        some ((s.enter name).copied (totalPath path name) sub)) :
    getDir R filename (n + 1) path name s =
      some { s with curdir := (sub.lastDir (totalPath path name)).getD s.curdir
                    made := s.made ++ .dir (s.cwd ++ [name]) :: sub.copy (s.cwd ++ [name]) } := by
  rw [getDir, hreaddir]
  dsimp only
  rw [hfold, Option.bind_eq_bind, Option.bind_some]
  simp only [Local.copied, Local.enter, Local.leave, List.dropLast_concat, List.append_assoc, List.singleton_append]
  rfl

lemma foldlM_entries (ht : Serves R path t) (hpath : path.head? = some slash) (hn : t.weight < n) :
    t.entries.foldlM (fun s p => if p.2 then getDir R filename n path p.1 s
      else comGetFile R n filename p.1 { s with curdir := path }) s = some (s.copied path t) := by
  induction t generalizing path n s with
  | nil =>
    rw [Local.copied, Tree.copy, List.append_nil]
    rfl
  | file name data rest ih =>
    obtain ⟨hname, hfits, hattr, hopen, hreads, hrest⟩ := ht
    rw [Tree.weight] at hn
    rw [Tree.entries, List.foldlM_cons, if_neg Bool.false_ne_true,
      comGetFile_plain (s := { s with curdir := path }) hname hpath hfits hattr hopen hreads (by omega)]
    refine (ih hrest hpath (by omega)).trans ?_
    simp only [Local.copied, Tree.lastDir, Tree.copy, List.append_assoc, List.singleton_append]
    cases rest.lastDir path <;> rfl
  | dir name sub rest ihsub ihrest =>
    obtain ⟨hfits, hreaddir, hsub, hrest⟩ := ht
    rw [Tree.weight] at hn
    obtain ⟨m, rfl⟩ : ∃ m, n = m + 1 := ⟨n - 1, by omega⟩
    rw [Tree.entries, List.foldlM_cons, if_pos rfl,
      getDir_succ hreaddir (ihsub hsub (head_totalPath hpath hfits) (by omega))]
    refine (ihrest hrest hpath (by omega)).trans ?_
    simp only [Local.copied, Tree.lastDir, Tree.copy, List.append_assoc, List.cons_append]
    cases rest.lastDir path <;> rfl

end Directory

/-- `get -r` copies a directory with all that is below it, and comes back to where it was. But the current directory on the
server is then that of the last file. -/
theorem get_dir_copies {R : Remote} {base name : Bytes} {t : Tree} (filename : Block afpMaxPath) (s : Local) {n : Nat}
    (hbase : base.head? = some slash) (ht : Serves R base (.dir name t .nil)) (hn : t.weight + 1 < n) :
    ∃ s', getDir R filename n base name s = some s' ∧ s'.cwd = s.cwd ∧
      s'.made = s.made ++ (Tree.dir name t .nil).copy s.cwd ∧
      s'.curdir = (t.lastDir (totalPath base name)).getD s.curdir := by
  obtain ⟨m, rfl⟩ : ∃ m, n = m + 1 := ⟨n - 1, by omega⟩
  obtain ⟨hfits, hreaddir, hsub, -⟩ := ht
  refine ⟨_, getDir_succ hreaddir (foldlM_entries hsub (head_totalPath hbase hfits) (by omega)), rfl, ?_, rfl⟩
  rw [Tree.copy, Tree.copy, List.append_nil]

lemma readsFile_drop (data : Bytes) : ReadsFile (fun o => (data.drop o, true)) data := by
  intro o ho
  refine ⟨data.length - o, true, ?_, by omega, by omega, by omega⟩
  rw [slice, List.take_of_length_le (by rw [List.length_drop])]

/-- The directory `/d` with the file `a` and the directory `e`, in which there is the file `b`. -/
def sampleTree : Tree := .dir [100] (.file [97] [1, 2] (.dir [101] (.file [98] [3] .nil) .nil)) .nil

def Remote.sample : Remote where
  mlReaddir p := if p = [47, 100] then some [([97], false), ([101], true)] else some [([98], false)]
  mlGetattr _ := 0
  mlOpen _ := 0
  mlRead p o := ((if p = [47, 100, 47, 97] then [1, 2] else [3]).drop o, true)

lemma plainName_letter {c : UInt8} (h : c ∉ [0, quote, space, backslash, slash]) : PlainName [c] := by
  simp only [List.mem_cons, List.not_mem_nil, or_false, not_or] at h
  obtain ⟨hnul, hquote, hspace, hbackslash, hslash⟩ := h
  exact { toFileName := fileName_singleton hnul hquote
          space := fun hc => hspace (List.mem_singleton.1 hc).symm
          backslash := fun hc => hbackslash (List.mem_singleton.1 hc).symm
          slash := fun hc => hslash (List.mem_singleton.1 hc).symm }

lemma serves_sample : Serves .sample [slash] sampleTree :=
  ⟨by decide, rfl, ⟨plainName_letter (by decide), by decide, rfl, rfl, readsFile_drop [1, 2], by decide, rfl,
    ⟨plainName_letter (by decide), by decide, rfl, rfl, readsFile_drop [3], trivial⟩, trivial⟩, trivial⟩

theorem get_dir_copies_sample :
    ∃ s', getDir .sample (.zeros afpMaxPath) 9 [slash] [100] ⟨[], [slash], []⟩ = some s' ∧ s'.cwd = [] ∧
      s'.made = [.dir [[100]], .file [[100], [97]] [1, 2], .dir [[100], [101]], .file [[100], [101], [98]] [3]] ∧
      s'.curdir = [47, 100, 47, 101] :=
  get_dir_copies (.zeros afpMaxPath) ⟨[], [slash], []⟩ rfl serves_sample (by decide)

def storeWrite (file : Bytes) (w : Bytes × Int) : Bytes := written file w.2.toNat w.1

lemma foldl_storeWrite {file : Bytes} {t : Nat} {lens : List Nat} (h : t + lens.sum ≤ file.length) :
    ((cut t lens).map fun p => (slice file p.1 p.2, (p.1 : Int))).foldl storeWrite (file.take t) =
      file.take (t + lens.sum) := by
  induction lens generalizing t with
  | nil => rfl
  | cons n lens ih =>
    rw [List.sum_cons] at h
    have hlen : (file.take t).length = t := List.length_take_of_le (by omega)
    have hstore : storeWrite (file.take t) (slice file t n, (t : Int)) = file.take (t + n) := by
      rw [storeWrite, Int.toNat_natCast, written_end hlen, slice, List.take_add]
    rw [cut, List.map_cons, List.foldl_cons, hstore, ih (by omega), List.sum_cons, Nat.add_assoc]

end AfpfsNg.Cmdline
