import Northstar.Vfs.OpenFileRun
import Northstar.Vfs.RamfsTree

/-! # Opening a file by its path

A model of `resolve_canonical`, `split_parent` and `ns_vfs_open` of `vfs.c`. The filesystems are
given by their operations (`FsOps`) on a state `σ`, which stands for the names and the contents of
all files.

`ns_vfs_open` creates or cuts the file before it has all it needs, and undoes neither. -/

namespace Northstar

abbrev nsOCreat : UInt32 := 0x40
abbrev nsOExcl : UInt32 := 0x80
abbrev nsOTrunc : UInt32 := 0x200
abbrev nsOAppend : UInt32 := 0x400
abbrev nsODirectory : UInt32 := 0x10000
abbrev nsOCloexec : UInt32 := 0x80000

/-- `struct ns_vfs_mount`. -/
structure Mount (σ : Type) where
  target : List UInt8
  root : ℕ
  readOnly : Bool
  ops : FsOps σ

/-- `struct ns_vfs_device`. -/
structure VfsDevice where
  path : List UInt8
  hasOpen : Bool

/-- The mounts and the devices of a VFS. -/
structure MountTable (σ : Type) where
  mounts : List (Mount σ)
  devices : List VfsDevice

/-- A call of `ns_vfs_open`, with the working directory of its table and the answers of the
allocator and of the `open` hook of the device or the filesystem. -/
structure OpenCall where
  cwd : List UInt8
  path : List UInt8
  flags : UInt32
  mode : ℕ
  allocated : Bool
  hook : Except Errno Unit

/-- What a call of `ns_vfs_open` leaves: its result, the names and contents, and the open files. -/
structure OpenResult (σ : Type) where
  reply : Except Errno ℤ
  names : σ
  files : OpenFiles

/-- The call returns an error. -/
def OpenResult.Failed {σ : Type} (result : OpenResult σ) : Prop :=
  match result.reply with
  | .error _ => True
  | .ok fd => fd < 0

namespace OpenCall

variable (call : OpenCall)

/-- The flag is set. -/
def Has (flag : UInt32) : Prop := call.flags &&& flag ≠ 0

instance (flag : UInt32) : Decidable (call.Has flag) := inferInstanceAs (Decidable (_ ≠ _))

/-- The flags are such as `ns_vfs_open` knows. -/
def KnownFlags : Prop :=
  call.flags &&& ~~~(3 ||| nsOCreat ||| nsOExcl ||| nsOTrunc ||| nsOAppend ||| nsODirectory |||
    nsOCloexec) = 0 ∧ call.flags &&& 3 ≠ 3

instance : Decidable call.KnownFlags := inferInstanceAs (Decidable (_ ∧ _))

/-- `path_has_directory_suffix`. -/
def hasDirectorySuffix : Prop := call.path.getLast? = some slash

instance : Decidable call.hasDirectorySuffix := inferInstanceAs (Decidable (_ = _))

/-- `table_cwd_snapshot`. -/
def cwdSnapshot : List UInt8 :=
  if call.cwd.length = 0 ∨ nsPathMax ≤ call.cwd.length ∨ call.cwd.head? ≠ some slash then [slash]
  else call.cwd

/-- The checks of `ns_vfs_open` on the type of a node. -/
def check (readOnly : Bool) (type : NsFileType) : Except Errno Unit :=
  if (call.Has nsODirectory ∨ call.hasDirectorySuffix) ∧ type ≠ .directory then .error .enotdir
  else if type = .directory ∧ flagsAllowWrite call.flags = true then .error .eisdir
  else if type = .regular ∧ readOnly = true ∧ flagsAllowWrite call.flags = true then .error .erofs
  else .ok ()

end OpenCall

namespace MountTable

variable {σ : Type} (v : MountTable σ) (s : σ) (canonical : List UInt8) (mount : Mount σ)
  (call : OpenCall)

/-- `mount_matches`. -/
def mountMatches (canonical : List UInt8) : Bool :=
  if mount.target.length = 1 then canonical.head? == some slash
  else mount.target.isPrefixOf canonical &&
    (canonical[mount.target.length]?.all (· == slash))

/-- `select_mount`: the first of the mounts with the longest target that matches. -/
def selectMount : Option (Mount σ) :=
  v.mounts.foldl (fun best mount =>
    if mountMatches mount canonical = true ∧
        best.all (fun b : Mount σ => decide (b.target.length < mount.target.length)) = true then
      some mount
    else best) none

/-- `resolve_canonical`. -/
def resolveCanonical : Except Errno (Mount σ × ℕ) :=
  match v.selectMount canonical with
  | none => .error .enoent
  | some mount =>
    ((segments slash (canonical.drop mount.target.length)).foldlM
      (fun node name => mount.ops.lookup s node name) mount.root).map fun node => (mount, node)

/-- `split_parent`: the directory, and the name in it. -/
def splitParent : Except Errno (Mount σ × ℕ × List UInt8) :=
  if canonical.length ≤ 1 then .error .ebusy
  else
    let name := (canonical.reverse.takeWhile (· != slash)).reverse
    let split := canonical.length - name.length
    (v.resolveCanonical s (canonical.take (if split = 1 then 1 else split - 1))).map
      fun parent => (parent.1, parent.2, name)

/-- The branch of `ns_vfs_open` that creates a file. -/
def createNode : Except Errno (Mount σ × ℕ × σ) :=
  match v.splitParent s canonical with
  | .error e => .error e
  | .ok (mount, parent, name) =>
    if mount.readOnly = true then .error .erofs
    else
      match mount.ops.create with
      | none => .error .erofs
      | some create =>
        match create s parent name .regular call.mode with
        | .ok (node, s') => .ok (mount, node, s')
        | .error e =>
          if e = .eexist ∧ ¬call.Has nsOExcl then
            (v.resolveCanonical s canonical).map fun found => (found.1, found.2, s)
          else .error e

/-- The first part of `ns_vfs_open`: the node, and the state in which it is there. -/
def openNode : Except Errno (Mount σ × ℕ × σ) :=
  match v.resolveCanonical s canonical with
  | .ok (mount, node) =>
    if call.Has nsOCreat ∧ call.Has nsOExcl then .error .eexist else .ok (mount, node, s)
  | .error e =>
    if e = .enoent ∧ call.Has nsOCreat then
      if call.hasDirectorySuffix then .error .enoent else v.createNode s canonical call
    else .error e

/-- The part of `ns_vfs_open` for `NS_O_TRUNC`. -/
def openTruncate (node : ℕ) (call : OpenCall) : Except Errno σ :=
  if call.Has nsOTrunc then
    if flagsAllowWrite call.flags = false then .error .eacces
    else if mount.readOnly = true then .error .erofs
    else
      match mount.ops.truncate with
      | none => .error .erofs
      | some truncate => truncate s node 0
  else .ok s

/-- `find_device`, for the types that devices have. -/
def findDevice (type : NsFileType) (canonical : List UInt8) : Option VfsDevice :=
  if type = .char ∨ type = .block then v.devices.find? fun device => device.path == canonical
  else none

/-- There is an `open` hook to be called. -/
def hooked (type : NsFileType) (canonical : List UInt8) : Bool :=
  match v.findDevice type canonical with
  | some device => device.hasOpen
  | none => mount.ops.hasOpen

/-- The last part of `ns_vfs_open`. -/
def openFile (w : OpenFiles) (i : ℕ) (t : VfsTable) (call : OpenCall) (hooked : Bool) :
    OpenResult σ :=
  if call.allocated = false then ⟨.error .enomem, s, w⟩
  else
    match (if hooked then call.hook else .ok ()) with
    | .error e => ⟨.error e, s, w⟩
    | .ok _ =>
      let installed := w.openInstall i t (decide (call.Has nsOCloexec))
      ⟨.ok installed.1, s, installed.2⟩

/-- `ns_vfs_open` from the call of `stat` on. -/
def openRest (w : OpenFiles) (i : ℕ) (t : VfsTable) (call : OpenCall)
    (canonical : List UInt8) (mount : Mount σ) (node : ℕ) : OpenResult σ :=
  match mount.ops.stat s node with
  | .error e => ⟨.error e, s, w⟩
  | .ok info =>
    match call.check mount.readOnly info.type with
    | .error e => ⟨.error e, s, w⟩
    | .ok _ =>
      match openTruncate s mount node call with
      | .error e => ⟨.error e, s, w⟩
      | .ok s' => openFile s' w i t call (v.hooked mount info.type canonical)

/-- `ns_vfs_open`. -/
def nsVfsOpen (w : OpenFiles) (i : ℕ) (t : VfsTable) (call : OpenCall) : OpenResult σ :=
  if call.KnownFlags then
    match nsVfsCanonicalize call.cwdSnapshot call.path nsPathMax with
    | .error e => ⟨.error e, s, w⟩
    | .ok canonical =>
      match v.openNode s canonical call with
      | .error e => ⟨.error e, s, w⟩
      | .ok (mount, node, s') => v.openRest s' w i t call canonical mount node
  else ⟨.error .einval, s, w⟩

/-! ### What can still go wrong -/

variable {v s canonical mount call} {s' : σ} {w : OpenFiles} {i : ℕ} {t : VfsTable} {node : ℕ}
  {info : NodeInfo}

/-- `ns_vfs_open` can get a file object, the hook agrees and the table has a free entry. -/
def CanFinish (t : VfsTable) (call : OpenCall) (hooked : Bool) : Prop :=
  call.allocated = true ∧ (hooked = true → call.hook = .ok ()) ∧
    ∃ fd < t.table.maximum, t.table.entries fd = none

/-- The installation of a new file fails just if the table is full. -/
lemma openInstall_neg_iff (closeOnExec : Bool) :
    (w.openInstall i t closeOnExec).1 < 0 ↔ ¬∃ fd < t.table.maximum, t.table.entries fd = none := by
  obtain ⟨-, hpassed, hfree, hend⟩ :=
    t.table.search_spec t.table.maximum 0 (Nat.le_add_left _ _)
  have hargs : ¬(Function.update w.fileVfs w.refs.created t.vfs w.refs.created ≠ t.vfs ∨
      (0 : ℤ) < 0) := by simp
  unfold OpenFiles.openInstall OpenFiles.nsVfsFdInstall
  dsimp only
  rw [if_neg hargs, Int.toNat_zero]
  split_ifs with hfull
  · refine iff_of_true (show (-nsEmfile : ℤ) < 0 by decide) ?_
    rintro ⟨fd, hlt, hnone⟩
    exact hpassed fd (Nat.zero_le fd) (hfull.symm ▸ hlt) hnone
  · have hlt := lt_of_le_of_ne (hend (Nat.zero_le _)) hfull
    exact iff_of_false (by dsimp only; omega) (not_not.2 ⟨_, hlt, hfree hlt⟩)

/-- Opening the file leaves the names alone. -/
lemma openFile_names (hooked : Bool) : (openFile s w i t call hooked).names = s := by
  unfold openFile
  split_ifs
  · rfl
  · split <;> rfl
  · split <;> rfl

/-- Opening the file fails just if it cannot be finished. -/
lemma openFile_failed_iff (hooked : Bool) :
    (openFile s w i t call hooked).Failed ↔ ¬CanFinish t call hooked := by
  unfold openFile CanFinish
  by_cases hallocated : call.allocated = false
  · rw [if_pos hallocated]
    exact iff_of_true trivial fun h => by rw [hallocated] at h; cases h.1
  · rw [if_neg hallocated, and_iff_right (Bool.of_not_eq_false hallocated)]
    cases hanswer : (if hooked = true then call.hook else .ok ()) with
    | error e =>
      refine iff_of_true trivial fun h => ?_
      by_cases hh : hooked = true
      · rw [if_pos hh, h.1 hh] at hanswer
        cases hanswer
      · rw [if_neg hh] at hanswer
        cases hanswer
    | ok answer =>
      have hhook : hooked = true → call.hook = .ok () := fun hh => by rwa [if_pos hh] at hanswer
      rw [and_iff_right hhook]
      exact openInstall_neg_iff _

/-- What `ns_vfs_open` does to the open files is a step of their model, which the call reaches or
fails before. -/
def StepsFiles (w : OpenFiles) (i : ℕ) (call : OpenCall) (w' : OpenFiles) : Prop :=
  ∃ reached, w' = w.step (.openFile i (decide (call.Has nsOCloexec)) reached)

section

variable (ht : w.table? i = some t)
include ht

/-- A call that fails early leaves the open files alone. -/
lemma stepsFiles_self : StepsFiles w i call w :=
  ⟨false, by rw [OpenFiles.step, ht]; rfl⟩

/-- Opening the file is a step of the open files. -/
lemma openFile_stepsFiles (hooked : Bool) :
    StepsFiles w i call (openFile s w i t call hooked).files := by
  unfold openFile
  by_cases hallocated : call.allocated = false
  · rw [if_pos hallocated]
    exact stepsFiles_self ht
  · rw [if_neg hallocated]
    cases (if hooked = true then call.hook else .ok ()) with
    | error e => exact stepsFiles_self ht
    | ok answer => exact ⟨true, by rw [OpenFiles.step, ht]; rfl⟩

/-- The rest of an open is a step of the open files. -/
lemma openRest_stepsFiles :
    StepsFiles w i call (v.openRest s w i t call canonical mount node).files := by
  unfold openRest
  cases mount.ops.stat s node with
  | error e => exact stepsFiles_self ht
  | ok info =>
    dsimp only
    cases call.check mount.readOnly info.type with
    | error e => exact stepsFiles_self ht
    | ok answer =>
      cases openTruncate s mount node call with
      | error e => exact stepsFiles_self ht
      | ok s' => exact openFile_stepsFiles ht _

/-- `ns_vfs_open` is a step of the open files. -/
lemma nsVfsOpen_stepsFiles : StepsFiles w i call (v.nsVfsOpen s w i t call).files := by
  unfold nsVfsOpen
  split_ifs with hflags
  · cases nsVfsCanonicalize call.cwdSnapshot call.path nsPathMax with
    | error e => exact stepsFiles_self ht
    | ok canonical =>
      dsimp only
      cases v.openNode s canonical call with
      | error e => exact stepsFiles_self ht
      | ok found => exact openRest_stepsFiles ht
  · exact stepsFiles_self ht

end

/-- The file does not exist and can be created. -/
def Creates (v : MountTable σ) (s : σ) (canonical : List UInt8) (call : OpenCall) (mount : Mount σ)
    (node : ℕ) (s' : σ) : Prop :=
  v.resolveCanonical s canonical = .error .enoent ∧ call.Has nsOCreat ∧ ¬call.hasDirectorySuffix ∧
    ∃ parent name create, v.splitParent s canonical = .ok (mount, parent, name) ∧
      mount.readOnly = false ∧ mount.ops.create = some create ∧
      create s parent name .regular call.mode = .ok (node, s')

/-- The file exists, and may. -/
def Finds (v : MountTable σ) (s : σ) (canonical : List UInt8) (call : OpenCall) (mount : Mount σ)
    (node : ℕ) : Prop :=
  v.resolveCanonical s canonical = .ok (mount, node) ∧ ¬(call.Has nsOCreat ∧ call.Has nsOExcl)

/-- A file that does not exist is created, or the branch fails: what `create` finds to exist already
is not there. -/
lemma createNode_eq_ok_iff {e : Errno} (hnone : v.resolveCanonical s canonical = .error e) :
    v.createNode s canonical call = .ok (mount, node, s') ↔
      ∃ parent name create, v.splitParent s canonical = .ok (mount, parent, name) ∧
        mount.readOnly = false ∧ mount.ops.create = some create ∧
        create s parent name .regular call.mode = .ok (node, s') := by
  unfold createNode
  constructor
  · intro h
    cases hsplit : v.splitParent s canonical with
    | error e => rw [hsplit] at h; cases h
    | ok found =>
      obtain ⟨mount', parent, name⟩ := found
      rw [hsplit] at h
      dsimp only at h
      split_ifs at h with hreadOnly
      cases hcreate : mount'.ops.create with
      | none => rw [hcreate] at h; cases h
      | some create =>
        rw [hcreate] at h
        dsimp only at h
        cases hmade : create s parent name .regular call.mode with
        | error e =>
          rw [hmade, hnone] at h
          dsimp only at h
          split_ifs at h
          cases h
        | ok made =>
          rw [hmade] at h
          cases h
          exact ⟨parent, name, create, rfl, Bool.of_not_eq_true hreadOnly, hcreate, hmade⟩
  · rintro ⟨parent, name, create, hsplit, hreadOnly, hcreate, hmade⟩
    rw [hsplit]
    dsimp only
    rw [if_neg (by rw [hreadOnly]; nofun), hcreate]
    dsimp only
    rw [hmade]

/-- The node is one that exists, or one that is created. -/
lemma openNode_eq_ok_iff :
    v.openNode s canonical call = .ok (mount, node, s') ↔
      v.Finds s canonical call mount node ∧ s' = s ∨
        v.Creates s canonical call mount node s' := by
  unfold openNode Finds Creates
  cases hresolve : v.resolveCanonical s canonical with
  | ok found =>
    obtain ⟨mount', node'⟩ := found
    dsimp only
    split_ifs with hexcl
    · refine iff_of_false nofun ?_
      rintro (h | h)
      · exact h.1.2 hexcl
      · cases h.1
    · constructor
      · intro h
        cases h
        exact .inl ⟨⟨rfl, hexcl⟩, rfl⟩
      · rintro (⟨⟨h, -⟩, rfl⟩ | h)
        · cases h
          rfl
        · cases h.1
  | error e =>
    dsimp only
    by_cases hcreat : e = .enoent ∧ call.Has nsOCreat
    · rw [if_pos hcreat]
      split_ifs with hsuffix
      · refine iff_of_false nofun ?_
        rintro (h | h)
        · cases h.1.1
        · exact h.2.2.1 hsuffix
      · rw [createNode_eq_ok_iff hresolve, hcreat.1]
        constructor
        · exact fun h => .inr ⟨rfl, hcreat.2, hsuffix, h⟩
        · rintro (h | h)
          · cases h.1.1
          · exact h.2.2.2
    · rw [if_neg hcreat]
      refine iff_of_false nofun ?_
      rintro (h | ⟨he, hflag, -⟩)
      · cases h.1.1
      · cases he
        exact hcreat ⟨rfl, hflag⟩

/-- When the truncation at an open succeeds, and what it does. -/
lemma openTruncate_eq_ok_iff :
    openTruncate s mount node call = .ok s' ↔
      ¬call.Has nsOTrunc ∧ s' = s ∨
        call.Has nsOTrunc ∧ flagsAllowWrite call.flags = true ∧ mount.readOnly = false ∧
          ∃ truncate, mount.ops.truncate = some truncate ∧ truncate s node 0 = .ok s' := by
  unfold openTruncate
  by_cases htrunc : call.Has nsOTrunc
  · rw [if_pos htrunc]
    simp only [htrunc, not_true_eq_false, false_and, true_and, false_or]
    by_cases hwrite : flagsAllowWrite call.flags = false
    · rw [if_pos hwrite]
      exact iff_of_false nofun fun h => by rw [hwrite] at h; cases h.1
    rw [if_neg hwrite, and_iff_right (Bool.of_not_eq_false hwrite)]
    split_ifs with hreadOnly
    · exact iff_of_false nofun fun h => by rw [hreadOnly] at h; cases h.1
    rw [and_iff_right (Bool.of_not_eq_true hreadOnly)]
    cases mount.ops.truncate with
    | none => exact iff_of_false nofun fun ⟨_, h, _⟩ => by cases h
    | some truncate =>
      exact ⟨fun h => ⟨truncate, rfl, h⟩, fun ⟨_, h, htruncate⟩ => by cases h; exact htruncate⟩
  · rw [if_neg htrunc]
    simp only [htrunc, not_false_eq_true, true_and, false_and, or_false]
    exact ⟨fun h => by cases h; rfl, fun h => by rw [h]⟩

/-- Cutting the file changes nothing just if it is not to be cut or is empty. -/
lemma openTruncate_same_iff (hstat : mount.ops.stat s node = .ok info)
    (h : openTruncate s mount node call = .ok s') :
    s' = s ↔ ¬call.Has nsOTrunc ∨ info.size = 0 := by
  rcases openTruncate_eq_ok_iff.1 h with ⟨hflag, rfl⟩ | ⟨hflag, -, -, truncate, hop, htruncate⟩
  · exact iff_of_true rfl (.inl hflag)
  · rw [or_iff_right (not_not.2 hflag)]
    exact mount.ops.truncate_eq truncate s node s' info hop htruncate hstat

/-- The rest of the call fails before the file is cut, or gets to the file object. -/
lemma openRest_cases (v : MountTable σ) (w : OpenFiles) (i : ℕ) (t : VfsTable) (call : OpenCall)
    (canonical : List UInt8) (hstat : mount.ops.stat s node = .ok info) :
    (v.openRest s w i t call canonical mount node).names = s ∧
        (v.openRest s w i t call canonical mount node).Failed ∧
        (∀ s', call.check mount.readOnly info.type = .ok () →
          openTruncate s mount node call ≠ .ok s') ∨
      ∃ s', call.check mount.readOnly info.type = .ok () ∧
        openTruncate s mount node call = .ok s' ∧
        (v.openRest s w i t call canonical mount node).names = s' ∧
        ((v.openRest s w i t call canonical mount node).Failed ↔
          ¬CanFinish t call (v.hooked mount info.type canonical)) := by
  unfold openRest
  rw [hstat]
  dsimp only
  cases hcheck : call.check mount.readOnly info.type with
  | error e => exact .inl ⟨rfl, trivial, nofun⟩
  | ok answer =>
    cases htruncate : openTruncate s mount node call with
    | error e => exact .inl ⟨rfl, trivial, nofun⟩
    | ok s' => exact .inr ⟨s', rfl, rfl, openFile_names _, openFile_failed_iff _⟩

/-- The call creates or cuts a file only if it can be finished. -/
structure Harmless (v : MountTable σ) (s : σ) (t : VfsTable) (call : OpenCall)
    (canonical : List UInt8) : Prop where
  /-- A file is created only if its `stat` answers and without `NS_O_DIRECTORY`, and with
  `NS_O_TRUNC` only if it may be written and can be cut. -/
  creates : ∀ mount node s', v.Creates s canonical call mount node s' →
    (∃ info, mount.ops.stat s' node = .ok info) ∧ ¬call.Has nsODirectory ∧
      (call.Has nsOTrunc → flagsAllowWrite call.flags = true ∧
        ∃ truncate, mount.ops.truncate = some truncate ∧ ∃ s'', truncate s' node 0 = .ok s'') ∧
      CanFinish t call mount.ops.hasOpen
  /-- A file that is not empty is cut only if the call can be finished. -/
  truncates : ∀ mount node info s', v.Finds s canonical call mount node →
    mount.ops.stat s node = .ok info → call.check mount.readOnly info.type = .ok () →
    call.Has nsOTrunc → openTruncate s mount node call = .ok s' → info.size ≠ 0 →
    CanFinish t call (v.hooked mount info.type canonical)

/-- A file that exists. -/
lemma openRest_found_iff (hfinds : v.Finds s canonical call mount node) :
    ((v.openRest s w i t call canonical mount node).Failed →
        (v.openRest s w i t call canonical mount node).names = s) ↔
      v.Harmless s t call canonical := by
  have hcreates : ∀ mount' node' s', ¬v.Creates s canonical call mount' node' s' := by
    intro mount' node' s' h
    have := h.1.symm.trans hfinds.1
    cases this
  have hunique : ∀ {mount' node'}, v.Finds s canonical call mount' node' →
      mount' = mount ∧ node' = node := by
    intro mount' node' h
    have := h.1.symm.trans hfinds.1
    cases this
    exact ⟨rfl, rfl⟩
  cases hstat : mount.ops.stat s node with
  | error e =>
    have hrest : v.openRest s w i t call canonical mount node = ⟨.error e, s, w⟩ := by
      rw [openRest, hstat]
    rw [hrest]
    refine iff_of_true (fun _ => rfl) ⟨fun m n s' h => absurd h (hcreates m n s'), ?_⟩
    intro m n info s' h hstat'
    obtain ⟨rfl, rfl⟩ := hunique h
    rw [hstat] at hstat'
    cases hstat'
  | ok info =>
    rcases openRest_cases v w i t call canonical hstat with
      ⟨hnames, -, hnot⟩ | ⟨s', hcheck, htruncate, hnames, hfailed⟩
    · refine iff_of_true (fun _ => hnames) ⟨fun m n s' h => absurd h (hcreates m n s'), ?_⟩
      intro m n info' s' h hstat' hcheck _ htruncate
      obtain ⟨rfl, rfl⟩ := hunique h
      rw [hstat] at hstat'
      cases hstat'
      exact absurd htruncate (hnot s' hcheck)
    · rw [hnames, hfailed, openTruncate_same_iff hstat htruncate]
      constructor
      · refine fun h => ⟨fun m n s' h => absurd h (hcreates m n s'), ?_⟩
        intro m n info' s'' hf hstat' _ hflag _ hsize
        obtain ⟨rfl, rfl⟩ := hunique hf
        rw [hstat] at hstat'
        cases hstat'
        exact not_not.1 fun hcannot => (h hcannot).elim (absurd hflag) hsize
      · intro h hcannot
        by_contra hnot
        rw [not_or, not_not] at hnot
        exact hcannot (h.truncates mount node info s' hfinds hstat hcheck hnot.1 htruncate hnot.2)

/-- A new file is a regular one on a mount that can be written. -/
lemma check_created (hsuffix : ¬call.hasDirectorySuffix) :
    call.check false .regular = .ok () ↔ ¬call.Has nsODirectory := by
  unfold OpenCall.check
  by_cases hdirectory : call.Has nsODirectory
  · simp [hdirectory]
  · simp [hdirectory, hsuffix]

/-- A file that is created. -/
lemma openRest_created_iff (hcreates : v.Creates s canonical call mount node s') :
    ((v.openRest s' w i t call canonical mount node).Failed →
        (v.openRest s' w i t call canonical mount node).names = s) ↔
      v.Harmless s t call canonical := by
  obtain ⟨hnone, -, hsuffix, parent, name, create, hsplit, hreadOnly, hop, hmade⟩ := id hcreates
  have hne : s' ≠ s := mount.ops.create_ne create s parent name .regular call.mode node s' hop hmade
  have hfinds : ∀ mount' node', ¬v.Finds s canonical call mount' node' := by
    intro mount' node' h
    have := h.1.symm.trans hnone
    cases this
  have hunique : ∀ {mount' node' s''}, v.Creates s canonical call mount' node' s'' →
      mount' = mount ∧ node' = node ∧ s'' = s' := by
    rintro mount' node' s'' ⟨-, -, -, parent', name', create', hsplit', -, hop', hmade'⟩
    have hsame := hsplit'.symm.trans hsplit
    cases hsame
    have hcreate := hop'.symm.trans hop
    cases hcreate
    have hnew := hmade'.symm.trans hmade
    cases hnew
    exact ⟨rfl, rfl, rfl⟩
  cases hstat : mount.ops.stat s' node with
  | error e =>
    have hrest : v.openRest s' w i t call canonical mount node = ⟨.error e, s', w⟩ := by
      rw [openRest, hstat]
    rw [hrest]
    refine iff_of_false (fun h => hne (h trivial)) fun h => ?_
    obtain ⟨info, hinfo⟩ := (h.creates mount node s' hcreates).1
    rw [hstat] at hinfo
    cases hinfo
  | ok info =>
    obtain rfl : info = ⟨.regular, 0⟩ :=
      mount.ops.create_stat create s parent name .regular call.mode node s' info hop hmade hstat
    rcases openRest_cases v w i t call canonical hstat with
      ⟨hnames, hfailed, hnot⟩ | ⟨s2, hcheck, htruncate, hnames, hfailed⟩
    · refine iff_of_false (fun h => hne (hnames.symm.trans (h hfailed))) fun h => ?_
      obtain ⟨-, hdirectory, htrunc, -⟩ := h.creates mount node s' hcreates
      have hcheck : call.check mount.readOnly .regular = .ok () := by
        rw [hreadOnly]
        exact (check_created hsuffix).2 hdirectory
      by_cases hflag : call.Has nsOTrunc
      · obtain ⟨hwrite, truncate, htruncateOp, s2, htruncated⟩ := htrunc hflag
        exact hnot s2 hcheck
          (openTruncate_eq_ok_iff.2
            (.inr ⟨hflag, hwrite, hreadOnly, truncate, htruncateOp, htruncated⟩))
      · exact hnot s' hcheck (openTruncate_eq_ok_iff.2 (.inl ⟨hflag, rfl⟩))
    · have hsame : s2 = s' := (openTruncate_same_iff hstat htruncate).2 (.inr rfl)
      rw [hreadOnly, check_created hsuffix] at hcheck
      have hhooked : v.hooked mount .regular canonical = mount.ops.hasOpen := by
        simp [hooked, findDevice]
      rw [hnames, hsame, hfailed, hhooked]
      constructor
      · intro h
        have hfinish : CanFinish t call mount.ops.hasOpen := not_not.1 fun hcannot =>
          hne (h hcannot)
        refine ⟨fun m n s'' hc => ?_, fun m n info s'' h => absurd h (hfinds m n)⟩
        obtain ⟨rfl, rfl, rfl⟩ := hunique hc
        refine ⟨⟨_, hstat⟩, hcheck, fun hflag => ?_, hfinish⟩
        rcases openTruncate_eq_ok_iff.1 htruncate with
          ⟨hflag', -⟩ | ⟨-, hwrite, -, truncate, htop, hok⟩
        · exact absurd hflag hflag'
        · exact ⟨hwrite, truncate, htop, s2, hok⟩
      · exact fun h hcannot => absurd (h.creates mount node s' hcreates).2.2.2 hcannot

/-- The VFS that `ns_vfs_create` makes. -/
def nsVfsCreate : MountTable RamfsTree where
  mounts := [{ target := [slash], root := 1, readOnly := false, ops := RamfsTree.ramfsOps true }]
  devices := []

end MountTable

end Northstar
