import Northstar.Lib.Bytes

/-! # The NorthstarFS disk format

The constants and packed records of `nsfs_ondisk.h`. Each packed record is a buffer of the size the
source asserts for it, and a field is a little-endian window of that buffer at the offset the
packed layout gives it, so that copying a record to or from a block is copying bytes and a
checksum is taken over exactly the bytes the source takes it over.

Sizes appear as numerals, so that arithmetic on offsets is decided without unfolding:
`4096` is `NSFS_BLOCK_SIZE`, `256` is `NSFS_SUPERBLOCK_SIZE`, `128` is `NSFS_INODE_SIZE`,
`12` is `NSFS_DIRECT_BLOCKS`, `1024` is `NSFS_INDIRECT_BLOCKS`, `1036` is `NSFS_MAX_FILE_BLOCKS`,
`4243456` is `NSFS_MAX_FILE_SIZE`, `255` is `NSFS_NAME_MAX`, `8` is `NSFS_DIRENT_HEADER_SIZE`,
`64` and `16` are `NSFS_JOURNAL_HEADER_SIZE` and `NSFS_JOURNAL_DESCRIPTOR_SIZE`, and `32768` is
`NSFS_BITMAP_BITS_PER_BLOCK`.

Field accessors are reducible: after a field store the `simp` lemmas of `Lib.Bytes` decide each
field from the two offsets. -/

namespace Northstar

/-! ### Error numbers and enumerations -/

/-- The error numbers the filesystems and the VFS return (negated in the source). -/
inductive Errno where
  | eperm | enoent | eio | enomem | ebusy | eexist | enotdir | eisdir | einval | enospc
  | erofs | erange | enametoolong | enotempty | eoverflow | enodev | eacces | emfile | enosys
  deriving DecidableEq, Repr

abbrev nsfsRootInode : ℕ := 1
abbrev nsfsStateClean : ℕ := 1
abbrev nsfsStateDirty : ℕ := 2
abbrev nsfsInodeRegular : ℕ := 1
abbrev nsfsInodeDirectory : ℕ := 2
abbrev nsfsInodeSymlink : ℕ := 3
abbrev nsfsJournalEmpty : ℕ := 0
abbrev nsfsJournalPrepared : ℕ := 1
abbrev nsfsJournalCommitted : ℕ := 2

/-- The eight bytes `"NSTARFS\0"`, read as a little-endian number. -/
abbrev nsfsMagic : ℕ := 0x5346524154534e

/-- The eight bytes `"NSJNL1\0\0"`, read as a little-endian number. -/
abbrev nsfsJournalMagic : ℕ := 0x314c4e4a534e

example : leNat (fun i => ([0x4e, 0x53, 0x54, 0x41, 0x52, 0x46, 0x53, 0] : List UInt8).getD i 0) 8 =
    nsfsMagic := by decide

/-- A block of the device. -/
abbrev Block := Bytes 4096

/-- The contents of a device, block by block. -/
abbrev Disk := ℕ → Block

/-! ### Checksums and small arithmetic -/

/-- One bit of the CRC register update. -/
def crcBit (crc : UInt32) : UInt32 :=
  (crc >>> 1) ^^^ (if crc &&& 1 = 1 then 0x82f63b78 else 0)

/-- The CRC register after one more byte. -/
def crcByte (crc : UInt32) (byte : UInt8) : UInt32 :=
  crcBit (crcBit (crcBit (crcBit (crcBit (crcBit (crcBit (crcBit (crc ^^^ byte.toUInt32))))))))

/-- Castagnoli CRC-32C with initial and final complement, as the number stored on disk. -/
def nsfsCrc32c (data : List UInt8) : ℕ := (~~~ (data.foldl crcByte 0xffffffff)).toNat

lemma nsfsCrc32c_lt (data : List UInt8) : nsfsCrc32c data < 256 ^ 4 := UInt32.toNat_lt _

attribute [irreducible] nsfsCrc32c

def nsfsDivCeil (value divisor : ℕ) : ℕ := value / divisor + (if value % divisor ≠ 0 then 1 else 0)

def nsfsAlign4 (value : ℕ) : ℕ := (value + 3) / 4 * 4

/-! ### Superblock -/

/-- `struct nsfs_disk_superblock`. -/
abbrev Superblock := Bytes 256

namespace Superblock

variable (sb : Superblock)

abbrev magic : ℕ := sb.le 0 8
abbrev version : ℕ := sb.le 8 4
abbrev headerSize : ℕ := sb.le 12 4
abbrev blockSize : ℕ := sb.le 16 4
abbrev inodeSize : ℕ := sb.le 20 4
abbrev state : ℕ := sb.le 24 4
abbrev features : ℕ := sb.le 28 4
abbrev generation : ℕ := sb.le 32 8
abbrev totalBlocks : ℕ := sb.le 40 8
abbrev totalInodes : ℕ := sb.le 48 4
abbrev rootInode : ℕ := sb.le 52 4
abbrev journalStart : ℕ := sb.le 56 8
abbrev journalBlocks : ℕ := sb.le 64 4
abbrev journalEntries : ℕ := sb.le 68 4
abbrev inodeBitmapStart : ℕ := sb.le 72 8
abbrev inodeBitmapBlocks : ℕ := sb.le 80 8
abbrev blockBitmapStart : ℕ := sb.le 88 8
abbrev blockBitmapBlocks : ℕ := sb.le 96 8
abbrev inodeTableStart : ℕ := sb.le 104 8
abbrev inodeTableBlocks : ℕ := sb.le 112 8
abbrev dataStart : ℕ := sb.le 120 8
abbrev freeBlocks : ℕ := sb.le 128 8
abbrev freeInodes : ℕ := sb.le 136 4
abbrev mountCount : ℕ := sb.le 140 4
abbrev lastTxid : ℕ := sb.le 176 8
abbrev checksum : ℕ := sb.le 184 4

abbrev setState (v : ℕ) : Superblock := sb.putLe 24 4 v
abbrev setGeneration (v : ℕ) : Superblock := sb.putLe 32 8 v
abbrev setFreeBlocks (v : ℕ) : Superblock := sb.putLe 128 8 v
abbrev setFreeInodes (v : ℕ) : Superblock := sb.putLe 136 4 v
abbrev setMountCount (v : ℕ) : Superblock := sb.putLe 140 4 v
abbrev setLastMountNs (v : ℕ) : Superblock := sb.putLe 144 8 v
abbrev setLastWriteNs (v : ℕ) : Superblock := sb.putLe 152 8 v
abbrev setLastTxid (v : ℕ) : Superblock := sb.putLe 176 8 v
abbrev setChecksum (v : ℕ) : Superblock := sb.putLe 184 4 v

end Superblock

/-! ### Inodes -/

/-- `struct nsfs_disk_inode`. -/
abbrev DiskInode := Bytes 128

namespace DiskInode

variable (inode : DiskInode)

abbrev mode : ℕ := inode.le 0 2
abbrev type : ℕ := inode.le 2 1
abbrev flags : ℕ := inode.le 3 1
abbrev uid : ℕ := inode.le 4 4
abbrev gid : ℕ := inode.le 8 4
abbrev linkCount : ℕ := inode.le 12 4
abbrev size : ℕ := inode.le 16 8
abbrev allocatedBlocks : ℕ := inode.le 24 8
abbrev generation : ℕ := inode.le 32 8
abbrev atimeNs : ℕ := inode.le 40 8
abbrev mtimeNs : ℕ := inode.le 48 8
abbrev ctimeNs : ℕ := inode.le 56 8
abbrev direct (i : ℕ) : ℕ := inode.le (64 + 4 * i) 4
abbrev indirect : ℕ := inode.le 112 4
abbrev checksum : ℕ := inode.le 120 4

abbrev setMode (v : ℕ) : DiskInode := inode.putLe 0 2 v
abbrev setType (v : ℕ) : DiskInode := inode.putLe 2 1 v
abbrev setLinkCount (v : ℕ) : DiskInode := inode.putLe 12 4 v
abbrev setSize (v : ℕ) : DiskInode := inode.putLe 16 8 v
abbrev setAllocatedBlocks (v : ℕ) : DiskInode := inode.putLe 24 8 v
abbrev setGeneration (v : ℕ) : DiskInode := inode.putLe 32 8 v
abbrev setAtimeNs (v : ℕ) : DiskInode := inode.putLe 40 8 v
abbrev setMtimeNs (v : ℕ) : DiskInode := inode.putLe 48 8 v
abbrev setCtimeNs (v : ℕ) : DiskInode := inode.putLe 56 8 v
abbrev setDirect (i v : ℕ) : DiskInode := inode.putLe (64 + 4 * i) 4 v
abbrev setIndirect (v : ℕ) : DiskInode := inode.putLe 112 4 v
abbrev setChecksum (v : ℕ) : DiskInode := inode.putLe 120 4 v

end DiskInode

/-! ### Directory entries

The eight-byte header of an entry; the name follows it in the directory block. -/

/-- `struct nsfs_disk_dirent` without its flexible name. -/
abbrev Dirent := Bytes 8

namespace Dirent

variable (entry : Dirent)

abbrev inode : ℕ := entry.le 0 4
abbrev recLen : ℕ := entry.le 4 2
abbrev nameLen : ℕ := entry.le 6 1
abbrev type : ℕ := entry.le 7 1

abbrev setInode (v : ℕ) : Dirent := entry.putLe 0 4 v
abbrev setRecLen (v : ℕ) : Dirent := entry.putLe 4 2 v
abbrev setNameLen (v : ℕ) : Dirent := entry.putLe 6 1 v
abbrev setType (v : ℕ) : Dirent := entry.putLe 7 1 v

end Dirent

/-! ### Journal header block

The header occupies the first 64 bytes of its block and is followed by one descriptor of 16 bytes
for each redo image; both are accessed inside the block. -/

namespace Journal

variable (block : Block)

abbrev magic : ℕ := block.le 0 8
abbrev version : ℕ := block.le 8 4
abbrev headerSize : ℕ := block.le 12 4
abbrev state : ℕ := block.le 16 4
abbrev entryCount : ℕ := block.le 20 4
abbrev txid : ℕ := block.le 24 8
abbrev descriptorSize : ℕ := block.le 40 4
abbrev checksum : ℕ := block.le 44 4

abbrev setChecksum (v : ℕ) : Block := block.putLe 44 4 v

/-- `target_block`, `data_checksum` and `flags` of the `index`-th descriptor. -/
abbrev targetBlock (index : ℕ) : ℕ := block.le (64 + 16 * index) 8
abbrev dataChecksum (index : ℕ) : ℕ := block.le (64 + 16 * index + 8) 4
abbrev descriptorFlags (index : ℕ) : ℕ := block.le (64 + 16 * index + 12) 4

end Journal

end Northstar
