import Northstar.Nsfs.Alloc

/-! # Block maps and file data

An inode maps logical blocks to physical ones through twelve direct pointers and one indirect
block; a zero pointer is a hole. The functions of the source that update an inode in memory return
the updated record here. File data is written in place, outside the transaction; only the block map
and the inode are journalled. -/

namespace Northstar

/-- The image behind a pointer that the transaction handed out earlier for `block`. -/
def txLoad (block : ℕ) : NsM Block := do
  let s ← get
  pure ((s.tx.find block).getD Bytes.zero)

/-- Stop unless `block` is a null pointer or lies in the data area. -/
def requireDataBlock (block : ℕ) : NsM Unit := do
  let s ← get
  require (block = 0 ∨ s.fs.superblock.dataStart ≤ block ∧ block < s.fs.superblock.totalBlocks) .eio

/-- The `index`-th pointer of an indirect block. -/
abbrev indirectEntry (image : Block) (index : ℕ) : ℕ := image.le (4 * index) 4

/-! ### Looking up -/

variable (inode : DiskInode)

/-- `nsfs_inode_data_block`: the physical block of a logical one, from the device. -/
def nsfsInodeDataBlock (logical : ℕ) : NsM ℕ := do
  require (logical < 1036) .eoverflow
  if logical < 12 then do
    requireDataBlock (inode.direct logical)
    pure (inode.direct logical)
  else if inode.indirect = 0 then
    pure 0
  else do
    requireDataBlock inode.indirect
    nsfsAllocate
    let block ← nsfsReadBlock inode.indirect
    requireDataBlock (indirectEntry block (logical - 12))
    pure (indirectEntry block (logical - 12))

/-! ### Allocating -/

/-- The record after one more block was allocated for it. -/
def countBlock : DiskInode :=
  inode.setAllocatedBlocks (inode.allocatedBlocks + 1)

/-- The indirect block of an inode with its image in the transaction; a missing one is allocated on
demand, and reported as `0` otherwise. -/
def indirectBlock (allocate : Bool) : NsM (DiskInode × ℕ) :=
  if inode.indirect = 0 then
    if allocate then do
      let indirect ← nsfsAllocateBlock true
      pure (countBlock (inode.setIndirect indirect), indirect)
    else
      pure (inode, 0)
  else do
    requireDataBlock inode.indirect
    let _ ← nsfsTxImage inode.indirect
    pure (inode, inode.indirect)

/-- `nsfs_tx_inode_data_block` for a direct pointer. -/
def directDataBlock (logical : ℕ) (allocate journalData : Bool) : NsM (DiskInode × ℕ) :=
  if inode.direct logical = 0 ∧ allocate then do
    let physical ← nsfsAllocateBlock journalData
    requireDataBlock physical
    pure (countBlock (inode.setDirect logical physical), physical)
  else do
    requireDataBlock (inode.direct logical)
    pure (inode, inode.direct logical)

/-- `nsfs_tx_inode_data_block` for a pointer of the indirect block. -/
def indirectDataBlock (indirect index : ℕ) (allocate journalData : Bool) : NsM (DiskInode × ℕ) := do
  let image ← txLoad indirect
  if indirectEntry image index = 0 ∧ allocate then do
    let physical ← nsfsAllocateBlock journalData
    let image ← txLoad indirect
    txStore indirect (image.putLe (4 * index) 4 physical)
    requireDataBlock physical
    pure (countBlock inode, physical)
  else do
    requireDataBlock (indirectEntry image index)
    pure (inode, indirectEntry image index)

def nsfsTxInodeDataBlock (logical : ℕ) (allocate journalData : Bool) : NsM (DiskInode × ℕ) := do
  require (logical < 1036) .eoverflow
  if logical < 12 then
    directDataBlock inode logical allocate journalData
  else do
    let (inode, indirect) ← indirectBlock inode allocate
    if indirect = 0 then pure (inode, 0)
    else indirectDataBlock inode indirect (logical - 12) allocate journalData

/-! ### Freeing -/

/-- The record after one of its blocks was freed. -/
def uncountBlock : NsM DiskInode := do
  require (inode.allocatedBlocks ≠ 0) .eio
  pure (inode.setAllocatedBlocks (inode.allocatedBlocks - 1))

def nsfsTxClearDataBlock (logical : ℕ) : NsM DiskInode := do
  require (logical < 1036) .eoverflow
  if logical < 12 then
    if inode.direct logical = 0 then pure inode
    else do
      nsfsFreeBlock (inode.direct logical)
      uncountBlock (inode.setDirect logical 0)
  else if inode.indirect = 0 then
    pure inode
  else do
    let image ← nsfsTxImage inode.indirect
    if indirectEntry image (logical - 12) = 0 then pure inode
    else do
      nsfsFreeBlock (indirectEntry image (logical - 12))
      let image ← txLoad inode.indirect
      txStore inode.indirect (image.putLe (4 * (logical - 12)) 4 0)
      uncountBlock inode

/-- No pointer of an indirect block is set. -/
def indirectClear (image : Block) : Bool :=
  (List.range 1024).all fun index => indirectEntry image index = 0

/-- `indirectClear` tests all entries of an indirect block. -/
lemma indirectClear_iff (image : Block) :
    indirectClear image = true ↔ ∀ m < 1024, indirectEntry image m = 0 := by
  simp [indirectClear]

attribute [irreducible] indirectClear

def nsfsTxMaybeFreeIndirect : NsM DiskInode :=
  if inode.indirect = 0 then
    pure inode
  else do
    let image ← nsfsTxImage inode.indirect
    if indirectClear image then do
      nsfsFreeBlock inode.indirect
      uncountBlock (inode.setIndirect 0)
    else
      pure inode

/-- Clear `remaining` logical blocks from `logical` on. -/
def clearDataBlocks : ℕ → ℕ → DiskInode → NsM DiskInode
  | 0, _, inode => pure inode
  | remaining + 1, logical, inode => do
    let inode ← nsfsTxClearDataBlock inode logical
    clearDataBlocks remaining (logical + 1) inode

def nsfsReleaseInodeContents : NsM DiskInode := do
  let inode ← clearDataBlocks 1036 0 inode
  nsfsTxMaybeFreeIndirect inode

/-! ### Reading -/

/-- The bytes `[from, from + amount)` of a physical block; a hole reads as zeros. -/
def readChunk (physical start amount : ℕ) : NsM (List UInt8) :=
  if physical = 0 then
    pure (List.replicate amount 0)
  else do
    let block ← nsfsReadBlock physical
    pure ((List.range amount).map fun i => block.get (start + i))

/-- The loop of `nsfs_read`. Every round reads at least one byte, so `count` rounds are enough. -/
def readLoop (inode : DiskInode) : ℕ → ℕ → ℕ → NsM (List UInt8)
  | 0, _, _ => pure []
  | fuel + 1, position, remaining =>
    if remaining = 0 then pure []
    else do
      let amount := min remaining (4096 - position % 4096)
      let physical ← nsfsInodeDataBlock inode (position / 4096)
      let chunk ← readChunk physical (position % 4096) amount
      let rest ← readLoop inode fuel (position + amount) (remaining - amount)
      pure (chunk ++ rest)

def nsfsRead (inodeNumber offset count : ℕ) : NsM (List UInt8) := do
  let s ← get
  require (s.fs.mounted = true ∧ s.fs.poisoned = false) .einval
  require (count ≤ 2 ^ 63 - 1 ∧ count ≤ 2 ^ 64 - 1 - offset) .eoverflow
  let inode ← nsfsReadInode false inodeNumber
  require (inode.type ≠ nsfsInodeDirectory) .eisdir
  if offset ≥ inode.size ∨ count = 0 then
    pure []
  else do
    nsfsAllocate
    readLoop inode (min count (inode.size - offset)) offset (min count (inode.size - offset))

/-! ### Writing -/

/-- Stop unless the inode is a regular file, with the error that names what it is instead. -/
def requireRegular : NsM Unit :=
  require (inode.type = nsfsInodeRegular)
    (if inode.type = nsfsInodeDirectory then .eisdir else .einval)

/-- Write the first `amount` bytes of `data` into a physical block at `start`: a whole block
directly, a part of one after reading it. -/
def writeChunk (physical start amount : ℕ) (data : List UInt8) : NsM Unit :=
  if start ≠ 0 ∨ amount ≠ 4096 then do
    let block ← nsfsReadBlock physical
    nsfsWriteBlock physical (block.blit start amount fun i => data.getD i 0)
  else
    nsfsWriteBlock physical (Bytes.ofFn fun i => data.getD i 0)

/-- The loop of `nsfs_write`; every round writes at least one byte. -/
def writeLoop : ℕ → DiskInode → ℕ → List UInt8 → NsM DiskInode
  | 0, inode, _, _ => pure inode
  | fuel + 1, inode, position, data =>
    if data.length = 0 then pure inode
    else do
      let amount := min data.length (4096 - position % 4096)
      let (inode, physical) ← nsfsTxInodeDataBlock inode (position / 4096) true false
      writeChunk physical (position % 4096) amount data
      writeLoop fuel inode (position + amount) (data.drop amount)

/-- The record with new modification times and the next generation. -/
def touchInode (now : ℕ) : DiskInode :=
  ((inode.setMtimeNs now).setCtimeNs now).setGeneration (inode.generation + 1)

/-- The transaction of `nsfs_write`. -/
def writeBody (inodeNumber offset : ℕ) (data : List UInt8) : NsM (Option ℕ) := do
  let inode ← nsfsReadInode true inodeNumber
  requireRegular inode
  nsfsAllocate
  let inode ← writeLoop data.length inode offset data
  nsBlockFlush
  let inode := if offset + data.length > inode.size then inode.setSize (offset + data.length)
    else inode
  let now ← nsfsNow
  nsfsWriteInode inodeNumber (touchInode inode now)
  pure (some data.length)

def nsfsWrite (inodeNumber offset : ℕ) (data : List UInt8) : NsM ℕ := do
  let s ← get
  require (s.fs.mounted = true ∧ s.fs.poisoned = false) .einval
  if data.length = 0 then
    pure 0
  else do
    require (data.length ≤ 2 ^ 63 - 1 ∧ data.length ≤ 2 ^ 64 - 1 - offset) .eoverflow
    require (offset + data.length ≤ 4243456) .eoverflow
    inTransaction (writeBody inodeNumber offset data) 0

/-! ### Truncating -/

/-- Zero the bytes from `tail` on in a physical block, if there is one. -/
def zeroTail (physical tail : ℕ) : NsM Unit :=
  if physical = 0 then
    pure ()
  else do
    nsfsAllocate
    let block ← nsfsReadBlock physical
    nsfsWriteBlock physical (block.fill tail (4096 - tail) 0)

/-- The transaction of `nsfs_truncate`. -/
def truncateBody (inodeNumber size : ℕ) : NsM (Option Unit) := do
  let inode ← nsfsReadInode true inodeNumber
  requireRegular inode
  if size = inode.size then
    pure none
  else do
    (if size < inode.size ∧ size % 4096 ≠ 0 then do
      let physical ← nsfsInodeDataBlock inode (size / 4096)
      zeroTail physical (size % 4096)
    else
      pure ())
    let firstRemoved := nsfsDivCeil size 4096
    let oldBlocks := nsfsDivCeil inode.size 4096
    let inode ← clearDataBlocks (oldBlocks - firstRemoved) firstRemoved inode
    let inode ← nsfsTxMaybeFreeIndirect inode
    nsBlockFlush
    let now ← nsfsNow
    nsfsWriteInode inodeNumber (touchInode (inode.setSize size) now)
    pure (some ())

def nsfsTruncate (inodeNumber size : ℕ) : NsM Unit := do
  let s ← get
  require (s.fs.mounted = true ∧ s.fs.poisoned = false) .einval
  require (size ≤ 4243456) .eoverflow
  inTransaction (truncateBody inodeNumber size) ()

end Northstar
