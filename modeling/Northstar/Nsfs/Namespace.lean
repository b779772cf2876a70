import Northstar.Nsfs.Directory

/-! # Namespace operations

`nsfs_create`, `nsfs_mkdir`, `nsfs_link`, `nsfs_unlink`, `nsfs_rmdir`, `nsfs_rename`,
`nsfs_symlink` and `nsfs_readlink`. The mutating ones run their body in a transaction; the body
reads every inode it needs, changes the directory blocks through the transaction and finally writes
the inodes back. -/

namespace Northstar

/-- `filesystem == NULL || filesystem->poisoned`: no handle, or one that a failed commit spoiled. -/
def requireHealthy : NsM Unit := do
  let s ← get
  require (s.fs.mounted = true ∧ s.fs.poisoned = false) .einval

/-- Read an inode that has to be a directory. -/
def readDirectory (number : ℕ) : NsM DiskInode := do
  let directory ← nsfsReadInode true number
  require (directory.type = nsfsInodeDirectory) .enotdir
  pure directory

variable (directoryNumber : ℕ) (directory : DiskInode) (name : Name)

/-- Stop with `EEXIST` if `name` is present, and with any error of the lookup but `ENOENT`. -/
def requireAbsent : NsM Unit := do
  let present ← observe (nsfsDirectoryLookupLoaded true directory name)
  match present with
  | .ok _ => throw .eexist
  | .error e => require (e = .enoent) e

/-- The record with new modification times. -/
def stampDirectory (now : ℕ) : DiskInode :=
  (directory.setMtimeNs now).setCtimeNs now

/-! ### Creating -/

/-- The record of a new inode. -/
def newInode (mode type links now : ℕ) : DiskInode :=
  (((((((Bytes.zero.putLe 2 1 type).putLe 0 2 mode).putLe 12 4 links).putLe 32 8 1).putLe 40 8
    now).putLe 48 8 now).putLe 56 8 now)

/-- The first block of a new directory. -/
def writeDotEntries (block : Block) (inode parent : ℕ) : Block :=
  nsfsWriteDirent (nsfsWriteDirent block 0 inode 12 nsfsInodeDirectory dotName) 12 parent 4084
    nsfsInodeDirectory dotdotName

/-- Give a new directory its first block. -/
def populateDirectory (inode : DiskInode) (inodeNumber parent : ℕ) : NsM DiskInode := do
  let (inode, physical) ← nsfsTxInodeDataBlock inode 0 true true
  let block ← nsfsTxImage physical
  txStore physical (writeDotEntries block inodeNumber parent)
  pure (inode.setSize 4096)

/-- The transaction of `nsfs_create_typed`. -/
def createBody (mode type : ℕ) : NsM (Option ℕ) := do
  let directory ← readDirectory directoryNumber
  requireAbsent directory name
  let inodeNumber ← nsfsAllocateInode
  let now ← nsfsNow
  let fresh := newInode (mode % 4096) type (if type = nsfsInodeDirectory then 2 else 1) now
  let (inode, directory) ← (if type = nsfsInodeDirectory then do
      let inode ← populateDirectory fresh inodeNumber directoryNumber
      pure (inode, directory.setLinkCount (directory.linkCount + 1))
    else
      pure (fresh, directory) : NsM (DiskInode × DiskInode))
  let directory ← nsfsDirectoryAdd directory name inodeNumber type
  nsfsWriteInode inodeNumber inode
  nsfsWriteInode directoryNumber
    ((stampDirectory directory now).setGeneration (directory.generation + 1))
  pure (some inodeNumber)

def nsfsCreateTyped (mode type : ℕ) : NsM ℕ := do
  requireHealthy
  liftExcept (nsfsValidateComponent name false)
  inTransaction (createBody directoryNumber name mode type) 0

def nsfsCreate (directory : ℕ) (name : Name) (mode : ℕ) : NsM ℕ :=
  nsfsCreateTyped directory name mode nsfsInodeRegular

def nsfsMkdir (directory : ℕ) (name : Name) (mode : ℕ) : NsM ℕ :=
  nsfsCreateTyped directory name mode nsfsInodeDirectory

/-! ### Linking -/

/-- The transaction of `nsfs_link`. -/
def linkBody (targetNumber directoryNumber : ℕ) (name : Name) : NsM (Option Unit) := do
  let target ← nsfsReadInode true targetNumber
  let directory ← nsfsReadInode true directoryNumber
  require (target.type ≠ nsfsInodeDirectory) .eperm
  require (directory.type = nsfsInodeDirectory) .enotdir
  require (target.linkCount ≠ 0xffffffff) .eoverflow
  let directory ← nsfsDirectoryAdd directory name targetNumber target.type
  let now ← nsfsNow
  nsfsWriteInode targetNumber ((target.setLinkCount (target.linkCount + 1)).setCtimeNs now)
  nsfsWriteInode directoryNumber (stampDirectory directory now)
  pure (some ())

def nsfsLink (targetNumber directoryNumber : ℕ) (name : Name) : NsM Unit := do
  liftExcept (nsfsValidateComponent name false)
  requireHealthy
  inTransaction (linkBody targetNumber directoryNumber name) ()

/-! ### Removing -/

/-- The entry `name` of a directory with the inode it names, which must have the recorded type. -/
def lookupInode : NsM (ℕ × DiskInode) := do
  let (number, type) ← nsfsDirectoryLookupLoaded true directory name
  let inode ← nsfsReadInode true number
  require (inode.type = type) .eio
  pure (number, inode)

/-- Free an inode that has lost its last name. -/
def releaseInode (number : ℕ) (inode : DiskInode) : NsM Unit := do
  let _ ← nsfsReleaseInodeContents inode
  nsfsReleaseInodeNumber number

/-- The record with one link less; a directory keeps its own two. -/
def dropSubdirectory : NsM DiskInode := do
  require (2 ≤ directory.linkCount) .eio
  pure (directory.setLinkCount (directory.linkCount - 1))

/-- Stop unless the directory has no other entries than `.` and `..`. -/
def requireEmpty : NsM Unit := do
  let empty ← nsfsDirectoryEmpty directory
  require (empty = true) .enotempty

/-- The kind check of `nsfs_remove_common`. -/
def checkRemovable (target : DiskInode) (removeDirectory : Bool) : NsM Unit :=
  if removeDirectory then do
    require (target.type = nsfsInodeDirectory) .enotdir
    requireEmpty target
  else
    require (target.type ≠ nsfsInodeDirectory) .eisdir

/-- Take one link from the removed target; the parent is returned with its new link count. -/
def dropTarget (targetNumber : ℕ) (target : DiskInode) (removeDirectory : Bool) : NsM DiskInode :=
  if removeDirectory = true ∨ target.linkCount = 1 then do
    releaseInode targetNumber target
    if removeDirectory then dropSubdirectory directory else pure directory
  else do
    let now ← nsfsNow
    nsfsWriteInode targetNumber ((target.setLinkCount (target.linkCount - 1)).setCtimeNs now)
    pure directory

/-- The transaction of `nsfs_remove_common`. -/
def removeBody (removeDirectory : Bool) : NsM (Option Unit) := do
  let directory ← readDirectory directoryNumber
  let (targetNumber, target) ← lookupInode directory name
  checkRemovable target removeDirectory
  nsfsDirectoryRemove directory name
  let directory ← dropTarget directory targetNumber target removeDirectory
  let now ← nsfsNow
  nsfsWriteInode directoryNumber
    ((stampDirectory directory now).setGeneration (directory.generation + 1))
  pure (some ())

def nsfsRemoveCommon (removeDirectory : Bool) : NsM Unit := do
  liftExcept (nsfsValidateComponent name false)
  requireHealthy
  inTransaction (removeBody directoryNumber name removeDirectory) ()

def nsfsUnlink (directory : ℕ) (name : Name) : NsM Unit := nsfsRemoveCommon directory name false

def nsfsRmdir (directory : ℕ) (name : Name) : NsM Unit := nsfsRemoveCommon directory name true

/-! ### Renaming -/

/-- The loop of `nsfs_rename_cycle_check`: follow `..` from `current` to the root. -/
def cycleCheckLoop (movedDirectory : ℕ) : ℕ → ℕ → NsM Unit
  | 0, _ => throw .eio
  | limit + 1, current => do
    require (current ≠ movedDirectory) .einval
    if current = nsfsRootInode then pure ()
    else do
      let directory ← nsfsReadInode true current
      require (directory.type = nsfsInodeDirectory) .eio
      let (parent, _) ← failAs .eio (nsfsDirectoryLookupLoaded true directory dotdotName)
      require (parent ≠ current) .eio
      cycleCheckLoop movedDirectory limit parent

def nsfsRenameCycleCheck (movedDirectory newParent : ℕ) : NsM Unit := do
  let s ← get
  cycleCheckLoop movedDirectory s.fs.superblock.totalInodes newParent

/-- What `nsfs_rename` found under the new name: nothing, the source itself, or an inode that has to
be replaced. -/
inductive Destination where
  | absent
  | same
  | replaced (number : ℕ) (inode : DiskInode)

/-- The checks of `nsfs_rename` on an existing destination. -/
def checkDestination (source destination : DiskInode) : NsM Unit := do
  require (¬ (source.type = nsfsInodeDirectory ∧ destination.type ≠ nsfsInodeDirectory)) .enotdir
  require (¬ (source.type ≠ nsfsInodeDirectory ∧ destination.type = nsfsInodeDirectory)) .eisdir
  if destination.type = nsfsInodeDirectory then requireEmpty destination else pure ()

/-- Look up the new name of a rename. -/
def findDestination (newDirectory : DiskInode) (newName : Name) (noReplace : Bool)
    (sourceNumber : ℕ) (source : DiskInode) : NsM Destination := do
  let present ← observe (nsfsDirectoryLookupLoaded true newDirectory newName)
  match present with
  | .error e => do
    require (e = .enoent) e
    pure .absent
  | .ok (number, type) => do
    require (noReplace = false) .eexist
    if number = sourceNumber then
      pure .same
    else do
      let destination ← nsfsReadInode true number
      require (destination.type = type) .eio
      checkDestination source destination
      pure (.replaced number destination)

/-- Remove the entry that a rename replaces and drop the link of its inode; the new parent is
returned with its new link count. -/
def replaceDestination (newDirectory : DiskInode) (newName : Name) (number : ℕ)
    (destination : DiskInode) : NsM DiskInode := do
  nsfsDirectoryRemove newDirectory newName
  (if destination.type = nsfsInodeDirectory ∨ destination.linkCount = 1 then
    releaseInode number destination
  else
    nsfsWriteInode number (destination.setLinkCount (destination.linkCount - 1)))
  if destination.type = nsfsInodeDirectory then dropSubdirectory newDirectory
  else pure newDirectory

/-- Move the `..` of a directory that changes its parent, with the two link counts. -/
def moveSubdirectory (oldDirectory newDirectory : DiskInode) (newDirectoryNumber sourceNumber : ℕ)
    (source : DiskInode) : NsM (DiskInode × DiskInode) := do
  require (2 ≤ oldDirectory.linkCount) .eio
  nsfsDirectorySetDotdot source newDirectoryNumber
  nsfsWriteInode sourceNumber source
  pure (oldDirectory.setLinkCount (oldDirectory.linkCount - 1),
    newDirectory.setLinkCount (newDirectory.linkCount + 1))

/-- Write back the directories of a rename. -/
def writeRenamed (oldDirectoryNumber newDirectoryNumber : ℕ)
    (oldDirectory newDirectory : DiskInode) : NsM Unit := do
  let now ← nsfsNow
  if oldDirectoryNumber = newDirectoryNumber then
    nsfsWriteInode oldDirectoryNumber (stampDirectory newDirectory now)
  else do
    nsfsWriteInode oldDirectoryNumber (stampDirectory oldDirectory now)
    nsfsWriteInode newDirectoryNumber (stampDirectory newDirectory now)

/-- The second half of the transaction of `nsfs_rename`, after all checks. -/
def renameMove (oldDirectoryNumber : ℕ) (oldName : Name) (newDirectoryNumber : ℕ) (newName : Name)
    (oldDirectory newDirectory : DiskInode) (sourceNumber : ℕ) (source : DiskInode)
    (destination : Destination) : NsM Unit := do
  nsfsDirectoryRemove oldDirectory oldName
  let newDirectory ← (match destination with
    | .replaced number inode => replaceDestination newDirectory newName number inode
    | _ => pure newDirectory : NsM DiskInode)
  let newDirectory ← nsfsDirectoryAdd newDirectory newName sourceNumber source.type
  let (oldDirectory, newDirectory) ←
    (if source.type = nsfsInodeDirectory ∧ oldDirectoryNumber ≠ newDirectoryNumber then
      moveSubdirectory oldDirectory newDirectory newDirectoryNumber sourceNumber source
    else
      pure (oldDirectory, newDirectory) : NsM (DiskInode × DiskInode))
  writeRenamed oldDirectoryNumber newDirectoryNumber oldDirectory newDirectory

/-- The transaction of `nsfs_rename`. -/
def renameBody (oldDirectoryNumber : ℕ) (oldName : Name) (newDirectoryNumber : ℕ) (newName : Name)
    (noReplace : Bool) : NsM (Option Unit) := do
  let oldDirectory ← readDirectory oldDirectoryNumber
  let newDirectory ← (if oldDirectoryNumber = newDirectoryNumber then pure oldDirectory
    else readDirectory newDirectoryNumber : NsM DiskInode)
  let (sourceNumber, source) ← lookupInode oldDirectory oldName
  (if source.type = nsfsInodeDirectory ∧ oldDirectoryNumber ≠ newDirectoryNumber then
    nsfsRenameCycleCheck sourceNumber newDirectoryNumber
  else
    pure ())
  let destination ← findDestination newDirectory newName noReplace sourceNumber source
  match destination with
  | .same => pure none
  | destination => do
    renameMove oldDirectoryNumber oldName newDirectoryNumber newName oldDirectory newDirectory
      sourceNumber source destination
    pure (some ())

/-- `flags` must not contain anything but `NSFS_RENAME_NOREPLACE`, which is bit zero. -/
def nsfsRename (oldDirectoryNumber : ℕ) (oldName : Name) (newDirectoryNumber : ℕ) (newName : Name)
    (flags : ℕ) : NsM Unit := do
  let s ← get
  require (s.fs.mounted = true ∧ s.fs.poisoned = false ∧ flags < 2) .einval
  liftExcept (nsfsValidateComponent oldName false)
  liftExcept (nsfsValidateComponent newName false)
  if oldDirectoryNumber = newDirectoryNumber ∧ oldName = newName then
    pure ()
  else
    inTransaction
      (renameBody oldDirectoryNumber oldName newDirectoryNumber newName (flags = 1)) ()

/-! ### Symbolic links -/

/-- The transaction of `nsfs_symlink`. -/
def symlinkBody (name target : Name) : NsM (Option ℕ) := do
  let directory ← readDirectory directoryNumber
  requireAbsent directory name
  let inodeNumber ← nsfsAllocateInode
  let now ← nsfsNow
  let fresh := (newInode 0o777 nsfsInodeSymlink 1 now).setSize target.length
  let (inode, physical) ← nsfsTxInodeDataBlock fresh 0 true false
  nsfsAllocate
  nsfsWriteBlock physical (Bytes.zero.blit 0 target.length fun i => target.getD i 0)
  nsBlockFlush
  let directory ← nsfsDirectoryAdd directory name inodeNumber nsfsInodeSymlink
  nsfsWriteInode inodeNumber inode
  nsfsWriteInode directoryNumber (stampDirectory directory now)
  pure (some inodeNumber)

def nsfsSymlink (name target : Name) : NsM ℕ := do
  let s ← get
  require (s.fs.mounted = true ∧ s.fs.poisoned = false ∧ target.length ≠ 0) .einval
  liftExcept (nsfsValidateComponent name false)
  require (target.length ≤ 4095) .enametoolong
  require (∀ character ∈ target, character ≠ 0) .einval
  inTransaction (symlinkBody directoryNumber name target) 0

def nsfsReadlink (inodeNumber capacity : ℕ) : NsM (List UInt8) := do
  let s ← get
  require (s.fs.mounted = true) .einval
  let inode ← nsfsReadInode false inodeNumber
  require (inode.type = nsfsInodeSymlink) .einval
  require (inode.size ≤ capacity) .erange
  nsfsRead inodeNumber 0 inode.size

end Northstar
