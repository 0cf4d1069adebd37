import AfpfsNg.Did.Resolve

/-!
# Operations on the name space

`ml_mkdir`, `ml_rmdir`, `ml_unlink` and `ml_rename` (`lib/midlevel.c`). They are written against any
`NameServer`: a server with a state, which answers `afp_getfiledirparms` without changing it, and
`afp_createdir`, `afp_delete` and `afp_moveandrename` with a result code and a new state.

`treeServer` is a server that holds a directory tree and changes it as AFP describes it: a directory is
deleted only when it is empty, and nothing is moved below itself. `newid` are the ids it gives to new directories.
-/

namespace AfpfsNg.Did
open AfpfsNg.Base AfpfsNg.Afp

structure NameServer (σ : Type) where
  getfiledirparms : σ → Nat → Bytes → Option FileInfo
  createdir : σ → Nat → Bytes → Int × σ
  delete : σ → Nat → Bytes → Int × σ
  /-- C `afp_moveandrename`, with the ids of the two directories, the path from the first, the path from
  the second and the new name -/
  moveandrename : σ → Nat → Nat → Bytes → Bytes → Bytes → Int × σ

structure World (σ : Type) where
  server : σ
  cache : DidCache

section Code
variable {σ : Type} (S : NameServer σ) (v : Volume) (clock : Nat → Nat)

def isDir (s : σ) (parentdid : Nat) (path : Bytes) : Bool :=
  ((S.getfiledirparms s parentdid path).map FileInfo.isdir).getD false

/-- Call `get_dirid` and ignore its result, as the operations do. -/
def locate (fi : FileInfo) (w : World σ) (path : Bytes) : Except Fault ((Nat × Bytes) × World σ) :=
  match getDirid (S.getfiledirparms w.server) clock fi w.cache path with
  | .error f => .error f
  | .ok (none, _) => .error .uninitialised
  | .ok (some r, c) => .ok (r, { w with cache := c })

def mlMkdir (fi : FileInfo) (w : World σ) (path : Bytes) : Except Fault (Int × World σ) := do
  match ← convertPathToAfp v path with
  | none => return (-EINVAL, w)
  | some convertedPath =>
    if invalidFilename v path then return (-ENAMETOOLONG, w)
    else if volumeIsReadonly v then return (-EACCES, w)
    else
      let ret ← appledoubleRefuse v path
      if ret < 0 then return (ret, w)
      else
        let ((dirid, basename), w) ← locate S clock fi w convertedPath
        let (rc, server) := S.createdir w.server dirid basename
        return (-switch [(kFPAccessDenied, EACCES), (kFPDiskFull, ENOSPC), (kFPObjectNotFound, ENOENT),
          (kFPObjectExists, EEXIST), (kFPVolLocked, EBUSY), (kFPFlatVol, EFAULT), (kFPMiscErr, EFAULT),
          (kFPParamErr, EFAULT), (-1, EFAULT)] 0 rc, { w with server := server })

def rmdirErrors : List (Int × Int) :=
  [(kFPAccessDenied, EACCES), (kFPObjectLocked, EBUSY), (kFPObjectNotFound, ENOENT),
    (kFPVolLocked, EACCES), (kFPDirNotEmpty, ENOTEMPTY), (kFPObjectTypeErr, EINVAL),
    (kFPMiscErr, EINVAL), (kFPParamErr, EINVAL), (-1, EINVAL)]

def mlRmdir (fi : FileInfo) (w : World σ) (path : Bytes) : Except Fault (Int × World σ) := do
  if invalidFilename v path then return (-ENAMETOOLONG, w)
  else
    match ← convertPathToAfp v path with
    | none => return (-EINVAL, w)
    | some convertedPath =>
      if volumeIsReadonly v then return (-EACCES, w)
      else
        let ret ← appledoubleRefuse v path
        if ret < 0 then return (ret, w)
        else
          let ((dirid, basename), w) ← locate S clock fi w convertedPath
          if ¬ isDir S w.server dirid basename then return (-ENOTDIR, w)
          else
            let (rc, server) := S.delete w.server dirid basename
            match rmdirErrors.lookup rc with
            | some ret => return (-ret, { w with server := server })
            | none => return (0, ⟨server, removeDidEntry w.cache convertedPath⟩)

def mlUnlink (fi : FileInfo) (w : World σ) (path : Bytes) : Except Fault (Int × World σ) := do
  match ← convertPathToAfp v path with
  | none => return (-EINVAL, w)
  | some convertedPath =>
    if volumeIsReadonly v then return (-EACCES, w)
    else
      let ret ← appledoubleRefuse v path
      if ret < 0 then return (ret, w)
      else
        let ((dirid, basename), w) ← locate S clock fi w convertedPath
        if isDir S w.server dirid basename then return (-EISDIR, w)
        else if invalidFilename v convertedPath then return (-ENAMETOOLONG, w)
        else
          let (rc, server) := S.delete w.server dirid basename
          return (-switch [(kFPAccessDenied, EACCES), (kFPObjectLocked, EBUSY),
            (kFPObjectNotFound, ENOENT), (kFPVolLocked, EACCES), (kFPObjectTypeErr, EINVAL),
            (kFPDirNotEmpty, EINVAL), (kFPMiscErr, EINVAL), (kFPParamErr, EINVAL), (-1, EINVAL)] 0 rc,
            { w with server := server })

/-- The requests of `ml_rename`: into the destination if that is a directory, else in its place; an
object in the way is deleted. -/
def renameRequests (s : σ) (diridFrom diridTo : Nat) (basenameFrom basenameTo pathTo : Bytes) :
    Int × σ :=
  let (rc, s) :=
    if isDir S s diridTo pathTo then
      S.moveandrename s diridFrom diridTo basenameFrom basenameTo basenameFrom
    else S.moveandrename s diridFrom diridTo basenameFrom [] basenameTo
  if rc = kFPObjectExists then
    let (_, s) := S.delete s diridTo basenameTo
    let (rc, s) := S.moveandrename s diridFrom diridTo basenameFrom [] basenameTo
    (switch [(kFPObjectLocked, EACCES), (kFPAccessDenied, EACCES), (kFPCantRename, EROFS),
      (kFPObjectExists, ENOENT), (kFPObjectNotFound, ENOENT)] 0 rc, s)
  else
    -- the case of `kFPObjectNotFound` falls through to that of `kFPNoErr`
    (switch [(kFPObjectLocked, EACCES), (kFPAccessDenied, EACCES), (kFPCantRename, EROFS),
      (kFPObjectNotFound, 0), (kFPNoErr, 0)] EIO rc, s)

def mlRename (fi fi' : FileInfo) (w : World σ) (pathFrom pathTo : Bytes) :
    Except Fault (Int × World σ) := do
  match ← convertPathToAfp v pathFrom with
  | none => return (-EINVAL, w)
  | some convertedPathFrom =>
    match ← convertPathToAfp v pathTo with
    | none => return (-EINVAL, w)
    | some convertedPathTo =>
      if volumeIsReadonly v then return (-EACCES, w)
      else
        let ((diridFrom, basenameFrom), w) ← locate S clock fi w convertedPathFrom
        let ((diridTo, basenameTo), w) ← locate S clock fi' w convertedPathTo
        let (ret, server) := renameRequests S w.server diridFrom diridTo basenameFrom basenameTo
          convertedPathTo
        return (-ret, { w with server := server })

/-- A call of the library, with what its uninitialised records happen to hold. -/
inductive Call where
  | getDirid (fi : FileInfo) (path : Bytes)
  | mkdir (fi : FileInfo) (path : Bytes)
  | rmdir (fi : FileInfo) (path : Bytes)
  | unlink (fi : FileInfo) (path : Bytes)
  | rename (fi fi' : FileInfo) (pathFrom pathTo : Bytes)

def perform (w : World σ) : Call → Except Fault (Int × World σ)
  | .getDirid fi path =>
    (getDirid (S.getfiledirparms w.server) clock fi w.cache path).map fun r =>
      (if r.1.isSome then 0 else -1, { w with cache := r.2 })
  | .mkdir fi path => mlMkdir S v clock fi w path
  | .rmdir fi path => mlRmdir S v clock fi w path
  | .unlink fi path => mlUnlink S v clock fi w path
  | .rename fi fi' pathFrom pathTo => mlRename S v clock fi fi' w pathFrom pathTo

end Code

namespace Tree

/-- The path that `name`, relative to the directory `did`, stands for. -/
def target (T : Tree) (did : Nat) (name : Bytes) : Option (List Bytes) :=
  (T.pathOf did).map (· ++ fields slash name)

/-- C `afp_createdir`. -/
def createdir (T : Tree) (newid did : Nat) (name : Bytes) : Int × Tree :=
  match T.target did name with
  | none => (kFPDirNotFound, T)
  | some p =>
    match p.getLast? with
    | none => (kFPObjectExists, T)
    | some x =>
      if hdir : ∃ e ∈ T.entries, e.1 = p.dropLast ∧ e.2.isdir = true then
        if hfree : ∀ e ∈ T.entries, e.1 ≠ p.dropLast ++ [x] then
          if hid : ∀ e ∈ T.entries, e.2.id ≠ newid then
            (kFPNoErr,
              ⟨T.insert p.dropLast x ⟨newid, true⟩ (Catalogue.dir_of_isdir hdir) hfree hid, T.root_eq⟩)
          else (kFPMiscErr, T)
        else (kFPObjectExists, T)
      else (kFPObjectNotFound, T)

/-- C `afp_delete`. -/
def delete (T : Tree) (did : Nat) (name : Bytes) : Int × Tree :=
  match T.target did name with
  | none => (kFPDirNotFound, T)
  | some p =>
    if hnil : p = [] then (kFPAccessDenied, T)
    else if ∀ e ∈ T.entries, e.1 ≠ p then (kFPObjectNotFound, T)
    else if hleaf : ∀ e ∈ T.entries, p <+: e.1 → e.1 = p then
      (kFPNoErr, ⟨T.erase p hnil hleaf, T.root_eq⟩)
    else (kFPDirNotEmpty, T)

/-- C `afp_moveandrename`; the destination is the directory `dstPath`, seen from `dstDid`. -/
def moveandrename (T : Tree) (srcDid dstDid : Nat) (srcPath dstPath newName : Bytes) : Int × Tree :=
  match T.target srcDid srcPath, T.target dstDid dstPath, fields slash newName with
  | some src, some dir, [name] =>
    if hsrc : src = [] then (kFPCantMove, T)
    else if ∀ e ∈ T.entries, e.1 ≠ src then (kFPObjectNotFound, T)
    else if hdir : ∃ e ∈ T.entries, e.1 = dir ∧ e.2.isdir = true then
      if hbelow : src <+: dir ++ [name] then (kFPCantMove, T)
      else if hfree : ∀ e ∈ T.entries, ¬ dir ++ [name] <+: e.1 then
        (kFPNoErr,
          ⟨T.move src dir name hsrc (Catalogue.dir_of_isdir hdir) hfree hbelow, T.root_eq⟩)
      else (kFPObjectExists, T)
    else (kFPDirNotFound, T)
  | _, _, _ => (kFPParamErr, T)

variable {T : Tree} {p q : List Bytes} {d did newid srcDid dstDid : Nat} {name srcPath dstPath : Bytes}

lemma createdir_dir (h : T.Dir q d) : (T.createdir newid did name).2.Dir q d := by
  rw [createdir]
  split
  · exact h
  split
  · exact h
  split
  · rename_i hdir
    split
    · rename_i hfree
      split
      · rename_i hid
        exact Catalogue.dir_insert (Catalogue.dir_of_isdir hdir) hfree hid h
      · exact h
    · exact h
  · exact h

lemma delete_refused (h : (T.delete did name).1 ≠ kFPNoErr) : (T.delete did name).2 = T := by
  revert h
  rw [delete]
  split
  · exact fun _ => rfl
  split
  · exact fun _ => rfl
  split
  · exact fun _ => rfl
  split
  · exact fun h => absurd rfl h
  · exact fun _ => rfl

lemma delete_dir (hp : T.target did name = some p) (h : T.Dir q d)
    (hq : q = p → ∃ e ∈ T.entries, p <+: e.1 ∧ e.1 ≠ p) : (T.delete did name).2.Dir q d := by
  rw [delete, hp]
  simp only
  split
  · exact h
  rename_i hnil
  split
  · exact h
  split
  · rename_i hleaf
    refine Catalogue.dir_erase hnil hleaf h fun heq => ?_
    obtain ⟨e, he, hbelow, hne⟩ := hq heq
    exact hne (hleaf e he hbelow)
  · exact h

lemma moveandrename_dir {newName} (hp : T.target srcDid srcPath = some p) (h : T.Dir q d)
    (hq : ¬ p <+: q) : (T.moveandrename srcDid dstDid srcPath dstPath newName).2.Dir q d := by
  rw [moveandrename, hp]
  split
  · rename_i src dir name heq _ _
    cases heq
    split
    · exact h
    rename_i hsrc
    split
    · exact h
    split
    · rename_i hdir
      split
      · exact h
      rename_i hbelow
      split
      · rename_i hfree
        exact Catalogue.dir_move hsrc (Catalogue.dir_of_isdir hdir) hfree hbelow h hq
      · exact h
    · exact h
  · exact h

lemma moveandrename_refused {newName}
    (h : (T.moveandrename srcDid dstDid srcPath dstPath newName).1 ≠ kFPNoErr) :
    (T.moveandrename srcDid dstDid srcPath dstPath newName).2 = T := by
  revert h
  rw [moveandrename]
  split
  · split
    · exact fun _ => rfl
    split
    · exact fun _ => rfl
    split
    · split
      · exact fun _ => rfl
      split
      · exact fun h => absurd rfl h
      · exact fun _ => rfl
    · exact fun _ => rfl
  · exact fun _ => rfl

lemma moveandrename_exists {newName p' x} (hp : T.target srcDid srcPath = some p)
    (hp' : T.target dstDid dstPath = some p') (hx : fields slash newName = [x])
    (h : (T.moveandrename srcDid dstDid srcPath dstPath newName).1 = kFPObjectExists) :
    (∃ e ∈ T.entries, e.1 = p) ∧ ¬ p <+: p' ++ [x] := by
  rw [moveandrename, hp, hp', hx] at h
  simp only at h
  split at h
  · cases h
  split at h
  · cases h
  rename_i hex
  split at h
  · split at h
    · cases h
    rename_i hbelow
    exact ⟨by simpa using hex, hbelow⟩
  · cases h

lemma moveandrename_below {newName p' x} (hp : T.target srcDid srcPath = some p)
    (hp' : T.target dstDid dstPath = some p') (hx : fields slash newName = [x])
    (h : p <+: p' ++ [x]) :
    (T.moveandrename srcDid dstDid srcPath dstPath newName).2 = T := by
  rw [moveandrename, hp, hp', hx]
  simp only
  split
  · rfl
  split
  · rfl
  split
  · rfl
  · rfl

lemma target_dir {cs x} (h : T.Dir cs did) (hx : IsField slash x) :
    T.target did x = some (cs ++ [x]) := by
  rw [target, Catalogue.pathOf_eq_some.mpr h, fields_self hx]
  rfl

lemma target_nil {cs} (h : T.Dir cs did) : T.target did [] = some cs := by
  rw [target, Catalogue.pathOf_eq_some.mpr h]
  exact congrArg some (List.append_nil cs)

end Tree

structure TreeState where
  tree : Tree
  asked : Nat

def treeServer (newid : Nat → Nat) : NameServer TreeState where
  getfiledirparms s := s.tree.getfiledirparms
  createdir s did name :=
    let (rc, tree) := s.tree.createdir (newid s.asked) did name
    (rc, ⟨tree, s.asked + 1⟩)
  delete s did name :=
    let (rc, tree) := s.tree.delete did name
    (rc, { s with tree := tree })
  moveandrename s srcDid dstDid srcPath dstPath newName :=
    let (rc, tree) := s.tree.moveandrename srcDid dstDid srcPath dstPath newName
    (rc, { s with tree := tree })

@[simp] lemma treeServer_getfiledirparms {newid : Nat → Nat} (s : TreeState) :
    (treeServer newid).getfiledirparms s = s.tree.getfiledirparms := rfl

@[simp] lemma treeServer_delete {newid : Nat → Nat} (s : TreeState) (did : Nat) (name : Bytes) :
    (treeServer newid).delete s did name =
      ((s.tree.delete did name).1, ⟨(s.tree.delete did name).2, s.asked⟩) := rfl

end AfpfsNg.Did
