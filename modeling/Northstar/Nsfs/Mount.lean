import Northstar.Nsfs.Layout
import Northstar.Nsfs.Namespace

/-! # Formatting, mounting and unmounting; calls and runs

`nsfs_format`, `nsfs_mount`, `nsfs_sync` and `nsfs_unmount`, and the calls of a client: `Op` is a
call with its arguments and `runOps` is the state after a sequence of calls, each of which may
succeed or fail. -/

namespace Northstar

/-! ### Formatting -/

/-- `struct nsfs_format_options`; an absent option record is the one with zero fields. -/
structure FormatOptions where
  inodeCount : ℕ
  journalBlocks : ℕ
  flags : ℕ
  uuid : Bytes 16
  inodeCount_lt : inodeCount < 2 ^ 32

/-- The number of inodes: as configured, or a quarter of the blocks within fixed bounds. -/
def formatInodeCount (options : FormatOptions) (totalBlocks : ℕ) : ℕ :=
  if options.inodeCount ≠ 0 then options.inodeCount
  else min (max (totalBlocks / 4) 128) 65536

/-- The layout of a new volume, with the checks of `nsfs_format` on it. -/
def formatLayout (options : FormatOptions) (totalBlocks : ℕ) : Except Errno Layout :=
  let journalBlocks := if options.journalBlocks = 0 then 65 else options.journalBlocks
  let inodeCount := formatInodeCount options totalBlocks
  let layout : Layout := {
    totalBlocks, inodeCount, journalBlocks
    inodeBitmapBlocks := nsfsDivCeil inodeCount 32768
    blockBitmapBlocks := nsfsDivCeil totalBlocks 32768
    inodeTableBlocks := nsfsDivCeil (inodeCount * 128) 4096 }
  if journalBlocks < 9 ∨ journalBlocks > 129 then .error .einval
  else if inodeCount < 2 then .error .einval
  else if layout.dataStart ≥ totalBlocks ∨ totalBlocks - layout.dataStart < 8 then .error .enospc
  else .ok layout

/-- The superblock of a new volume. -/
def formatSuperblock (l : Layout) (uuid : Bytes 16) : Superblock :=
  let ids : Superblock :=
    ((((((Bytes.zero.putLe 0 8 nsfsMagic).putLe 8 4 1).putLe 12 4 256).putLe 16 4 4096).putLe
      20 4 128).putLe 24 4 nsfsStateClean).putLe 28 4 0 |>.putLe 32 8 1
  let totals : Superblock :=
    (((((ids.putLe 40 8 l.totalBlocks).putLe 48 4 l.inodeCount).putLe 52 4 nsfsRootInode).putLe
      56 8 2).putLe 64 4 l.journalBlocks).putLe 68 4 (min (l.journalBlocks - 1) 128)
  let regions : Superblock :=
    ((((((totals.putLe 72 8 l.inodeBitmapStart).putLe 80 8 l.inodeBitmapBlocks).putLe
      88 8 l.blockBitmapStart).putLe 96 8 l.blockBitmapBlocks).putLe 104 8 l.inodeTableStart).putLe
      112 8 l.inodeTableBlocks).putLe 120 8 l.dataStart
  ((regions.putLe 128 8 (l.totalBlocks - l.dataStart - 1)).putLe 136 4 (l.inodeCount - 2)).blit
    160 16 uuid.get

/-- A bitmap block of a new volume: the numbers up to `last` and those from `limit` on are marked.
`base` is the number of the first bit. -/
def formatBitmap (base last limit : ℕ) : Block :=
  (List.range 32768).foldl (fun block bit =>
    if base + bit ≥ limit ∨ base + bit ≤ last then nsfsBitmapPut block bit true else block)
    Bytes.zero

/-- Write `remaining` blocks from `block` on, the `i`-th of them with contents `image i`. -/
def writeRange (image : ℕ → Block) (start : ℕ) : ℕ → ℕ → NsM Unit
  | 0, _ => pure ()
  | remaining + 1, index => do
    nsfsBlockIoWrite (start + index) (image index)
    writeRange image start remaining (index + 1)

/-- The root directory's inode record. -/
def rootInodeRecord (dataStart now : ℕ) : DiskInode :=
  nsfsInodeChecksum
    ((((((((((Bytes.zero.putLe 0 2 0o755).putLe 2 1 nsfsInodeDirectory).putLe 12 4 2).putLe
      16 8 4096).putLe 24 8 1).putLe 32 8 1).putLe 40 8 now).putLe 48 8 now).putLe 56 8 now).putLe
      64 4 dataStart)

/-- The only block of a new root directory. -/
def rootDirectoryBlock : Block :=
  let dot : Dirent := (((Bytes.zero.putLe 0 4 nsfsRootInode).putLe 4 2 12).putLe 6 1 1).putLe
    7 1 nsfsInodeDirectory
  let dotdot : Dirent := (((Bytes.zero.putLe 0 4 nsfsRootInode).putLe 4 2 4084).putLe 6 1 2).putLe
    7 1 nsfsInodeDirectory
  (((Bytes.zero.blit 0 8 dot.get).blit 8 1 fun _ => 46).blit 12 8 dotdot.get).blit 20 2 fun _ => 46

/-- Refuse to overwrite a volume unless forced to. -/
def refuseExisting (flags : ℕ) : ℕ → NsM Unit
  | 0 => pure ()
  | index + 1 =>
    if flags = 0 then do
      refuseExisting flags index
      let existing ← nsfsBlockIoRead index
      require (existing.le 0 8 ≠ nsfsMagic) .eexist
    else
      pure ()

/-- The writes of `nsfs_format`: metadata first, the superblocks last. -/
def formatVolume (l : Layout) (uuid : Bytes 16) : NsM Unit := do
  let sb := formatSuperblock l uuid
  nsfsAllocate
  writeRange (fun _ => Bytes.zero) 2 (l.dataStart - 2) 0
  writeRange (fun index => formatBitmap (index * 32768) 1 l.inodeCount) l.inodeBitmapStart
    l.inodeBitmapBlocks 0
  writeRange (fun index => formatBitmap (index * 32768) l.dataStart l.totalBlocks)
    l.blockBitmapStart l.blockBitmapBlocks 0
  let now ← nsfsNow
  nsfsBlockIoWrite l.inodeTableStart (Bytes.zero.blit 128 128 (rootInodeRecord l.dataStart now).get)
  nsfsBlockIoWrite l.dataStart rootDirectoryBlock
  let header ← liftExcept (nsfsMakeJournalHeader sb nsfsJournalEmpty 0 [])
  nsfsBlockIoWrite 2 header
  nsBlockFlush
  nsfsBlockIoWrite 1 (nsfsSuperblockImage sb)
  nsBlockFlush
  nsfsBlockIoWrite 0 (nsfsSuperblockImage sb)
  nsBlockFlush

def nsfsFormat (options : FormatOptions) : NsM Unit := do
  let s ← get
  require (options.flags < 2 ∧ s.device.readOnly = false) .einval
  let totalBlocks ← liftExcept (nsfsDeviceGeometry s.device)
  refuseExisting options.flags 2
  let layout ← liftExcept (formatLayout options totalBlocks)
  formatVolume layout options.uuid

/-! ### Mounting -/

/-- The part of `nsfs_mount` that works on the new handle. -/
def mountVolume (readOnly requireClean : Bool) (totalBlocks : ℕ) : NsM Unit := do
  let sb ← nsfsReadSuperblocks totalBlocks
  setSuperblock sb
  require (¬ (requireClean = true ∧ sb.state ≠ nsfsStateClean)) .ebusy
  nsfsRecoverJournal
  let sb ← nsfsReadSuperblocks totalBlocks
  setSuperblock sb
  nsfsValidateBitmaps
  let root ← nsfsReadInode false nsfsRootInode
  require (root.type = nsfsInodeDirectory) .eio
  if readOnly then pure () else nsfsWriteSuperPair nsfsStateDirty true

/-- `*result = NULL`, or the handle that failed to mount is freed. -/
def dropHandle : NsM Unit :=
  modify fun s => { s with fs := { s.fs with mounted := false } }

/-- `nsfs_mount` into the client's handle variable. `flags` may contain `NSFS_MOUNT_READ_ONLY`, bit
zero, and `NSFS_MOUNT_REQUIRE_CLEAN`, bit one. -/
def nsfsMount (flags : ℕ) : NsM Unit := do
  require (flags < 4) .einval
  let readOnly : Bool := flags % 2 = 1
  dropHandle
  let s ← get
  let totalBlocks ← liftExcept (nsfsDeviceGeometry s.device)
  require (¬ (readOnly = false ∧ s.device.readOnly = true)) .erofs
  nsfsAllocate
  modify fun s => { s with fs := ⟨Bytes.zero, readOnly, true, false⟩ }
  onFailure (mountVolume readOnly (flags / 2 = 1) totalBlocks) dropHandle

def nsfsSync : NsM Unit := do
  let s ← get
  require (s.fs.mounted = true ∧ s.fs.poisoned = false) .eio
  nsBlockFlush

def nsfsUnmount : NsM Unit := do
  let s ← get
  require (s.fs.mounted = true) .einval
  require (s.fs.poisoned = false) .eio
  (if s.fs.mountReadOnly then pure () else nsfsWriteSuperPair nsfsStateClean false)
  nsBlockFlush
  dropHandle

/-! ### Calls and runs -/

/-- A call of a client that changes the volume or the handle. -/
inductive Op where
  | mount (flags : ℕ)
  | unmount
  | sync
  | create (directory : ℕ) (name : Name) (mode : ℕ)
  | mkdir (directory : ℕ) (name : Name) (mode : ℕ)
  | symlink (directory : ℕ) (name target : Name)
  | link (target directory : ℕ) (name : Name)
  | unlink (directory : ℕ) (name : Name)
  | rmdir (directory : ℕ) (name : Name)
  | rename (oldDirectory : ℕ) (oldName : Name) (newDirectory : ℕ) (newName : Name) (flags : ℕ)
  | write (inode offset : ℕ) (data : List UInt8)
  | truncate (inode size : ℕ)

/-- The code of a call; its value is the inode number or the byte count the call returns, and `0`
for a call that only returns a status. -/
def Op.exec : Op → NsM ℕ
  | .mount flags => do nsfsMount flags; pure 0
  | .unmount => do nsfsUnmount; pure 0
  | .sync => do nsfsSync; pure 0
  | .create directory name mode => nsfsCreate directory name mode
  | .mkdir directory name mode => nsfsMkdir directory name mode
  | .symlink directory name target => nsfsSymlink directory name target
  | .link target directory name => do nsfsLink target directory name; pure 0
  | .unlink directory name => do nsfsUnlink directory name; pure 0
  | .rmdir directory name => do nsfsRmdir directory name; pure 0
  | .rename oldDirectory oldName newDirectory newName flags => do
    nsfsRename oldDirectory oldName newDirectory newName flags
    pure 0
  | .write inode offset data => nsfsWrite inode offset data
  | .truncate inode size => do nsfsTruncate inode size; pure 0

/-- The state after a computation, whether it returned or stopped. -/
def after {α : Type} (m : NsM α) (s : St) : St :=
  match m s with
  | .ok _ s' => s'
  | .error _ s' => s'

/-- The computation returns from `s`. -/
def Succeeds {α : Type} (m : NsM α) (s : St) : Prop := ∃ a s', m s = .ok a s'

/-- The state after a sequence of calls. -/
def runOps (ops : List Op) (s : St) : St := ops.foldl (fun s op => after op.exec s) s

end Northstar
