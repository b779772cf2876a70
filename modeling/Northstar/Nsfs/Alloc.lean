import Northstar.Nsfs.Journal

/-! # Bitmaps, block and inode allocation, inode records

The allocators scan a bitmap from the first allocatable number and take the first clear bit. The
two scans of the source differ only in the bitmap, the first number and the bound, so they are one
definition; it keeps the bitmap image at hand while the scan stays in one bitmap block, as the
`current_bitmap` variable of the source does. -/

namespace Northstar

/-! ### Bits -/

def nsfsBitmapGet (bitmap : Block) (bit : ℕ) : Bool :=
  bitmap.get (bit / 8) &&& (1 <<< UInt8.ofNat (bit % 8)) ≠ 0

def nsfsBitmapPut (bitmap : Block) (bit : ℕ) (value : Bool) : Block :=
  let mask : UInt8 := 1 <<< UInt8.ofNat (bit % 8)
  let byte := bitmap.get (bit / 8)
  bitmap.blit (bit / 8) 1 fun _ => if value then byte ||| mask else byte &&& ~~~ mask

/-- `nsfs_bitmap_test`: the bit of `item` in the bitmap on the device. -/
def nsfsBitmapTest (start item : ℕ) : NsM Bool := do
  nsfsAllocate
  let block ← nsfsReadBlock (start + item / 32768)
  pure (nsfsBitmapGet block (item % 32768))

def nsfsTxBitmapPut (start item : ℕ) (value : Bool) : NsM Unit := do
  let image ← nsfsTxImage (start + item / 32768)
  require (nsfsBitmapGet image (item % 32768) ≠ value) .eio
  txStore (start + item / 32768) (nsfsBitmapPut image (item % 32768) value)

/-- The bitmap block of `item`: the one at hand if it is the right one, else its image in the
transaction. -/
def scanImage (start item : ℕ) : Option (ℕ × Block) → NsM Block
  | some (index, image) =>
    if index = item / 32768 then pure image else nsfsTxImage (start + item / 32768)
  | none => nsfsTxImage (start + item / 32768)

/-- The first number from `item` on, among `remaining` numbers, whose bit is clear in the bitmap
that starts at block `start`, with the image of its bitmap block. -/
def bitmapScan (start : ℕ) : ℕ → ℕ → Option (ℕ × Block) → NsM (ℕ × Block)
  | 0, _, _ => throw .eio
  | remaining + 1, item, current => do
    let bitmap ← scanImage start item current
    if nsfsBitmapGet bitmap (item % 32768) = false then
      pure (item, bitmap)
    else
      bitmapScan start remaining (item + 1) (some (item / 32768, bitmap))

/-! ### Blocks -/

/-- Initialise a block that was just taken from the bitmap: with an image in the transaction, or
directly on the device. -/
def clearNewBlock (journalImage : Bool) (block : ℕ) : NsM Unit :=
  if journalImage then
    nsfsTxZeroImage block
  else do
    nsfsAllocate
    nsfsWriteBlock block Bytes.zero

def setFreeBlocks (count : ℕ) : NsM Unit := do
  let s ← get
  setSuperblock (s.fs.superblock.setFreeBlocks count)

def setFreeInodes (count : ℕ) : NsM Unit := do
  let s ← get
  setSuperblock (s.fs.superblock.setFreeInodes count)

def nsfsAllocateBlock (journalImage : Bool) : NsM ℕ := do
  let s ← get
  let sb := s.fs.superblock
  require (sb.freeBlocks ≠ 0) .enospc
  let (block, bitmap) ← bitmapScan sb.blockBitmapStart (sb.totalBlocks - sb.dataStart) sb.dataStart
    none
  txStore (sb.blockBitmapStart + block / 32768) (nsfsBitmapPut bitmap (block % 32768) true)
  setFreeBlocks (sb.freeBlocks - 1)
  onFailure (clearNewBlock journalImage block) (do
    txStore (sb.blockBitmapStart + block / 32768)
      (nsfsBitmapPut (nsfsBitmapPut bitmap (block % 32768) true) (block % 32768) false)
    setFreeBlocks sb.freeBlocks)
  pure block

def nsfsFreeBlock (block : ℕ) : NsM Unit := do
  let s ← get
  let sb := s.fs.superblock
  require (sb.dataStart ≤ block ∧ block < sb.totalBlocks) .eio
  nsfsTxBitmapPut sb.blockBitmapStart block false
  setFreeBlocks (sb.freeBlocks + 1)

/-! ### Inodes -/

def nsfsAllocateInode : NsM ℕ := do
  let s ← get
  let sb := s.fs.superblock
  require (sb.freeInodes ≠ 0) .enospc
  let (inode, bitmap) ← bitmapScan sb.inodeBitmapStart (sb.totalInodes - 2) 2 none
  txStore (sb.inodeBitmapStart + inode / 32768) (nsfsBitmapPut bitmap (inode % 32768) true)
  setFreeInodes (sb.freeInodes - 1)
  pure inode

/-- `nsfs_inode_disk_location`: the table block of an inode and its offset there. -/
def nsfsInodeDiskLocation (inode : ℕ) : NsM (ℕ × ℕ) := do
  let s ← get
  require (inode < s.fs.superblock.totalInodes) .einval
  pure (s.fs.superblock.inodeTableStart + inode * 128 / 4096, inode * 128 % 4096)

/-- `nsfs_inode_checksum`: the record with its checksum stored. -/
def nsfsInodeChecksum (inode : DiskInode) : DiskInode :=
  (inode.setChecksum 0).setChecksum (nsfsCrc32c (inode.setChecksum 0).toList)

/-- The checks that `nsfs_read_inode` makes on an inode record. -/
def InodeOk (copy : DiskInode) : Prop :=
  copy.checksum = nsfsCrc32c (copy.setChecksum 0).toList ∧
    (copy.type = nsfsInodeRegular ∨ copy.type = nsfsInodeDirectory ∨ copy.type = nsfsInodeSymlink) ∧
    copy.linkCount ≠ 0 ∧ copy.size ≤ 4243456

instance (copy : DiskInode) : Decidable (InodeOk copy) := by
  unfold InodeOk; infer_instance

/-- Whether `nsfs_read_inode` finds the inode allocated: on the device, or else in the bitmap
image of the transaction, if there is one. -/
def inodeAllocated (inTx : Bool) (inode : ℕ) : NsM Bool := do
  let s ← get
  let start := s.fs.superblock.inodeBitmapStart
  let allocated ← nsfsBitmapTest start inode
  if allocated = false ∧ inTx then do
    let bitmap ← nsfsTxImage (start + inode / 32768)
    pure (nsfsBitmapGet bitmap (inode % 32768))
  else
    pure allocated

/-- A block as `nsfs_read_inode` and the directory code read it: through the transaction if there
is one, else into a fresh buffer. -/
def readThrough (inTx : Bool) (block : ℕ) : NsM Block :=
  if inTx then
    nsfsTxImage block
  else do
    nsfsAllocate
    nsfsReadBlock block

def nsfsReadInode (inTx : Bool) (inode : ℕ) : NsM DiskInode := do
  let s ← get
  require (inode ≠ 0 ∧ inode < s.fs.superblock.totalInodes) .einval
  let allocated ← inodeAllocated inTx inode
  require (allocated = true) .enoent
  let (blockNumber, offset) ← nsfsInodeDiskLocation inode
  let block ← readThrough inTx blockNumber
  let copy : DiskInode := block.slice offset
  require (InodeOk copy) .eio
  pure copy

def nsfsWriteInode (inodeNumber : ℕ) (inode : DiskInode) : NsM Unit := do
  let (blockNumber, offset) ← nsfsInodeDiskLocation inodeNumber
  let block ← nsfsTxImage blockNumber
  txStore blockNumber (block.blit offset 128 (nsfsInodeChecksum inode).get)

def nsfsReleaseInodeNumber (inodeNumber : ℕ) : NsM Unit := do
  require (nsfsRootInode < inodeNumber) .eperm
  let (blockNumber, offset) ← nsfsInodeDiskLocation inodeNumber
  let block ← nsfsTxImage blockNumber
  txStore blockNumber (block.fill offset 128 0)
  let s ← get
  nsfsTxBitmapPut s.fs.superblock.inodeBitmapStart inodeNumber false
  setFreeInodes (s.fs.superblock.freeInodes + 1)

/-! ### Validation at mount -/

/-- Count the clear bits of one bitmap block that stand for numbers in `[reserved, limit)`; the
other bits must be set. `base` is the number of the block's first bit. -/
def countFree (bitmap : Block) (base reserved limit : ℕ) : ℕ → ℕ → ℕ → Except Errno ℕ
  | 0, _, free => .ok free
  | remaining + 1, bit, free =>
    if base + bit ≥ limit ∨ base + bit < reserved then
      if nsfsBitmapGet bitmap bit then countFree bitmap base reserved limit remaining (bit + 1) free
      else .error .eio
    else
      countFree bitmap base reserved limit remaining (bit + 1)
        (if nsfsBitmapGet bitmap bit then free else free + 1)

/-- The loop of `nsfs_validate_bitmaps` over the blocks of one bitmap. -/
def countBitmap (start reserved limit : ℕ) : ℕ → ℕ → ℕ → NsM ℕ
  | 0, _, free => pure free
  | remaining + 1, index, free => do
    let block ← nsfsReadBlock (start + index)
    let free ← liftExcept (countFree block (index * 32768) reserved limit 32768 0 free)
    countBitmap start reserved limit remaining (index + 1) free

def nsfsValidateBitmaps : NsM Unit := do
  let s ← get
  let sb := s.fs.superblock
  nsfsAllocate
  let freeInodes ← countBitmap sb.inodeBitmapStart 2 sb.totalInodes sb.inodeBitmapBlocks 0 0
  require (freeInodes = sb.freeInodes) .eio
  let freeBlocks ← countBitmap sb.blockBitmapStart sb.dataStart sb.totalBlocks sb.blockBitmapBlocks
    0 0
  require (freeBlocks = sb.freeBlocks) .eio

end Northstar
