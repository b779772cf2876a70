import Northstar.Vfs.RamfsDir

/-! # Filesystems as the VFS sees them

`struct ns_vfs_fs_ops` of `vfs.c`, as operations on a state that stands for the names and the
contents of all files: an operation that fails leaves the state alone, `create` changes it, and
cutting a file to nothing changes it unless the file is empty. The bootstrap filesystem is one: its
directories and files are those of the models of single ones. -/

namespace Northstar

open Function

/-- `struct ns_vfs_node_info`, as far as `ns_vfs_open` is concerned. -/
structure NodeInfo where
  type : NsFileType
  size : ℕ
  deriving DecidableEq, Repr

/-- `struct ns_vfs_fs_ops`: the operations of a filesystem that `ns_vfs_open` uses. -/
structure FsOps (σ : Type) where
  lookup : σ → ℕ → List UInt8 → Except Errno ℕ
  stat : σ → ℕ → Except Errno NodeInfo
  create : Option (σ → ℕ → List UInt8 → NsFileType → ℕ → Except Errno (ℕ × σ))
  truncate : Option (σ → ℕ → ℕ → Except Errno σ)
  /-- There is an `open` hook. -/
  hasOpen : Bool
  create_ne : ∀ op s directory name type mode node s', create = some op →
    op s directory name type mode = .ok (node, s') → s' ≠ s
  create_stat : ∀ op s directory name type mode node s' info, create = some op →
    op s directory name type mode = .ok (node, s') → stat s' node = .ok info → info = ⟨type, 0⟩
  truncate_eq : ∀ op s node s' info, truncate = some op → op s node 0 = .ok s' →
    stat s node = .ok info → (s' = s ↔ info.size = 0)

/-- The types that `ramfs_create` makes. -/
lemma RamfsDir.type_of_ramfsCreate {dir dir' : RamfsDir} {name : Component} {type : NsFileType}
    {allocates : Bool} (h : dir.ramfsCreate name type allocates = (.ok (), dir')) :
    type = .regular ∨ type = .directory ∨ type = .char ∨ type = .block := by
  unfold RamfsDir.ramfsCreate at h
  split_ifs at h with _ htype
  · cases h
  · cases h
  · cases h
  · by_contra hnot
    exact htype (by simpa only [not_or] using hnot)
  · cases h

/-- A node of the bootstrap filesystem. -/
inductive RamfsEntry where
  | file (file : RamfsFile)
  | directory (dir : RamfsDir)
  | char
  | block

namespace RamfsEntry

def type : RamfsEntry → NsFileType
  | file _ => .regular
  | directory _ => .directory
  | char => .char
  | block => .block

def size : RamfsEntry → ℕ
  | file f => f.node.size
  | _ => 0

/-- A new node of one of the types that `ramfs_create` accepts. -/
def fresh (type : NsFileType) (inode parentInode : ℕ) : RamfsEntry :=
  match type with
  | .directory =>
    directory
      { inode := inode
        parentInode := parentInode
        nextInode := inode
        children := []
        distinct := List.nodup_nil }
  | .char => char
  | .block => block
  | _ => file .empty

lemma type_fresh {type : NsFileType} (inode parentInode : ℕ)
    (h : type = .regular ∨ type = .directory ∨ type = .char ∨ type = .block) :
    (fresh type inode parentInode).type = type := by
  rcases h with rfl | rfl | rfl | rfl <;> rfl

lemma size_fresh (type : NsFileType) (inode parentInode : ℕ) :
    (fresh type inode parentInode).size = 0 := by
  cases type <;> rfl

end RamfsEntry

/-- The bootstrap filesystem. A node is named by its inode number. -/
structure RamfsTree where
  nextInode : ℕ
  nodes : ℕ → RamfsEntry

namespace RamfsTree

/-- The filesystem that `ns_vfs_create` makes. -/
def start : RamfsTree where
  nextInode := 1
  nodes := fun _ => .fresh .directory 1 1

/-- `ramfs_lookup`. No child has a name that is not proper. -/
def ramfsLookup (s : RamfsTree) (directory : ℕ) (name : List UInt8) : Except Errno ℕ :=
  match s.nodes directory with
  | .directory dir =>
    if h : Proper name then
      match dir.ramfsFindLocked ⟨name, h⟩ with
      | none => .error .enoent
      | some child => .ok child.inode
    else .error .enoent
  | _ => .error .enotdir

/-- `ramfs_stat`. -/
def ramfsStat (s : RamfsTree) (node : ℕ) : Except Errno NodeInfo :=
  .ok ⟨(s.nodes node).type, (s.nodes node).size⟩

/-- `ramfs_create`, with the answer of the allocator. The inode number that is used up by a name
that exists already is not shown, and the VFS never asks for a name that is not proper. -/
def ramfsCreate (allocates : Bool) (s : RamfsTree) (directory : ℕ) (name : List UInt8)
    (type : NsFileType) (_mode : ℕ) : Except Errno (ℕ × RamfsTree) :=
  if name = [] ∨ nsVfsNameMax < name.length then .error .einval
  else
    match s.nodes directory with
    | .directory dir =>
      if h : Proper name then
        match { dir with nextInode := s.nextInode }.ramfsCreate ⟨name, h⟩ type allocates with
        | (.error e, _) => .error e
        | (.ok _, dir) =>
          let node := s.nextInode + 1
          .ok (node,
            { nextInode := node
              nodes := update (update s.nodes directory (.directory dir)) node
                (.fresh type node directory) })
      else .error .einval
    | _ => .error .enotdir

/-- `ramfs_truncate`, with the answer of the allocator. -/
def ramfsTruncate (allocates : Bool) (s : RamfsTree) (node length : ℕ) : Except Errno RamfsTree :=
  match s.nodes node with
  | .file file =>
    match Northstar.ramfsTruncate length allocates file.node with
    | .error e _ => .error e
    | .ok _ _ =>
      .ok { s with
        nodes := update s.nodes node (.file (file.step (.truncate length allocates))) }
  | .directory _ => .error .eisdir
  | _ => .error .einval

/-! ### The laws of a filesystem -/

/-- What `ramfs_create` does if it succeeds. -/
lemma ramfsCreate_eq_ok {allocates : Bool} {s s' : RamfsTree} {directory node mode : ℕ}
    {name : List UInt8} {type : NsFileType}
    (h : ramfsCreate allocates s directory name type mode = .ok (node, s')) :
    s'.nextInode = s.nextInode + 1 ∧ s'.ramfsStat node = .ok ⟨type, 0⟩ := by
  unfold ramfsCreate at h
  split_ifs at h with _ hproper
  · split at h
    · split at h
      · cases h
      · rename_i hmade
        cases h
        refine ⟨rfl, ?_⟩
        rw [ramfsStat]
        dsimp only
        rw [update_self, RamfsEntry.size_fresh,
          RamfsEntry.type_fresh _ _ (RamfsDir.type_of_ramfsCreate hmade)]
    · cases h
  · split at h <;> cases h

/-- A file that is cut to nothing keeps its buffer. -/
lemma node_step_truncate_zero (file : RamfsFile) (allocates : Bool) :
    (file.step (.truncate 0 allocates)).node = { file.node with size := 0 } := by
  have hrun : (RamfsCall.truncate 0 allocates).run file.node =
      .ok .truncated { file.node with size := 0 } := by
    simp [RamfsCall.run, Northstar.ramfsTruncate, ramfsReserve, ramfsClear, require, file.regular,
      EStateM.map, EStateM.bind, EStateM.pure, EStateM.get, EStateM.modifyGet, bind, pure, get,
      getThe, MonadStateOf.get, modify, modifyGet, MonadStateOf.modifyGet, Functor.map]
  show stateAfter _ file.node = _
  rw [stateAfter, hrun]

/-- Cutting a file to nothing leaves it as it is just if it is empty. -/
lemma step_truncate_zero_eq_iff (file : RamfsFile) (allocates : Bool) :
    file.step (.truncate 0 allocates) = file ↔ file.node.size = 0 := by
  have hnode := node_step_truncate_zero file allocates
  constructor
  · intro h
    rw [h] at hnode
    exact congrArg RamfsNode.size hnode
  · intro hsize
    have hsame : (file.step (.truncate 0 allocates)).node = file.node :=
      hnode.trans (by rw [← hsize])
    generalize file.step (.truncate 0 allocates) = after at hsame
    obtain ⟨node, hregular, hle⟩ := file
    obtain ⟨node', hregular', hle'⟩ := after
    cases hsame
    rfl

/-- A truncation to 0 changes nothing just if the file was empty. -/
lemma ramfsTruncate_eq_iff {allocates : Bool} {s s' : RamfsTree} {node : ℕ} {info : NodeInfo}
    (h : ramfsTruncate allocates s node 0 = .ok s') (hstat : s.ramfsStat node = .ok info) :
    s' = s ↔ info.size = 0 := by
  cases hstat
  unfold ramfsTruncate at h
  split at h
  · rename_i file hfile
    rw [hfile]
    dsimp only [RamfsEntry.size]
    split at h
    · cases h
    · cases h
      rw [← step_truncate_zero_eq_iff file allocates]
      constructor
      · intro heq
        have hnode := congrFun (congrArg nodes heq) node
        dsimp only at hnode
        rw [update_self, hfile] at hnode
        exact RamfsEntry.file.inj hnode
      · intro heq
        rw [heq, ← hfile, update_eq_self]
  · cases h
  · cases h

/-- `ramfs_ops`. -/
def ramfsOps (allocates : Bool) : FsOps RamfsTree where
  lookup := ramfsLookup
  stat := ramfsStat
  create := some (ramfsCreate allocates)
  truncate := some (ramfsTruncate allocates)
  hasOpen := true
  create_ne op s directory name type mode node s' hop h := by
    cases hop
    rintro rfl
    have hcounter := (ramfsCreate_eq_ok h).1
    omega
  create_stat op s directory name type mode node s' info hop h hstat := by
    cases hop
    rw [(ramfsCreate_eq_ok h).2] at hstat
    cases hstat
    rfl
  truncate_eq op s node s' info hop h hstat := by
    cases hop
    exact ramfsTruncate_eq_iff h hstat

end RamfsTree

end Northstar
