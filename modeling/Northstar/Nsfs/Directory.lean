import Northstar.Nsfs.File

/-! # Directories

A directory is a file whose blocks are tiled by variable-length records: an eight-byte header and a
name. A record with inode number zero is free. Every loop of the source over the records of one
block decodes a record, tests it and either stops there or steps over it, so they are instances of
one scan, `direntScan`, which also remembers where the previous record started. -/

namespace Northstar

/-- A file name: its bytes, without a terminator. -/
abbrev Name := List UInt8

def dotName : Name := [46]

def dotdotName : Name := [46, 46]

/-! ### Names and records -/

variable (directory : DiskInode) (block : Block) (name : Name)

def nsfsValidateComponent (allowDotNames : Bool) : Except Errno Unit :=
  if name.length = 0 then .error .einval
  else if name.length > 255 then .error .enametoolong
  else if allowDotNames = false ∧ (name = dotName ∨ name = dotdotName) then .error .einval
  else if ∃ character ∈ name, character = 47 ∨ character = 0 then .error .einval
  else .ok ()

/-- The `length` bytes after the header of the record at `offset`. -/
def direntName (offset length : ℕ) : Name :=
  (List.range length).map fun i => block.get (offset + 8 + i)

def nsfsDecodeDirent (totalInodes : ℕ) (block : Block) (offset : ℕ) : Except Errno Dirent :=
  let entry : Dirent := block.slice offset
  if offset > 4096 - 8 then .error .eio
  else if entry.recLen < 8 ∨ entry.recLen % 4 ≠ 0 ∨ entry.recLen > 4096 - offset then .error .eio
  else if entry.inode = 0 then .ok entry
  else if entry.nameLen = 0 ∨ nsfsAlign4 (8 + entry.nameLen) > entry.recLen ∨
      entry.inode ≥ totalInodes ∨
      (entry.type ≠ nsfsInodeRegular ∧ entry.type ≠ nsfsInodeDirectory ∧
        entry.type ≠ nsfsInodeSymlink) then .error .eio
  else if ∃ character ∈ direntName block offset entry.nameLen, character = 0 ∨ character = 47 then
    .error .eio
  else .ok entry

/-- A record found by a scan: its offset, its header and the offset of the record before it. -/
structure Found where
  offset : ℕ
  entry : Dirent
  previous : Option ℕ

/-- Step through the records of a block from `offset` on until one satisfies `test`. A record has
at least eight bytes, so 512 rounds reach the end of the block. -/
def direntScan (totalInodes : ℕ) (block : Block) (test : ℕ → Dirent → Bool) :
    ℕ → ℕ → Option ℕ → Except Errno (Option Found)
  | 0, _, _ => .ok none
  | fuel + 1, offset, previous =>
    if offset ≥ 4096 then .ok none
    else
      match nsfsDecodeDirent totalInodes block offset with
      | .error e => .error e
      | .ok entry =>
        if test offset entry then .ok (some ⟨offset, entry, previous⟩)
        else direntScan totalInodes block test fuel (offset + entry.recLen) (some offset)

/-- Scan a whole block. -/
def scanBlock (totalInodes : ℕ) (block : Block) (test : ℕ → Dirent → Bool) :
    Except Errno (Option Found) :=
  direntScan totalInodes block test 512 0 none

/-- The record at `offset` is in use and has this name. -/
def nameMatches (offset : ℕ) (entry : Dirent) : Bool :=
  entry.inode ≠ 0 ∧ entry.nameLen = name.length ∧ direntName block offset entry.nameLen = name

def nsfsWriteDirent (offset inode recordLength type : ℕ) (name : Name) : Block :=
  let entry : Dirent :=
    (((Bytes.zero.putLe 0 4 inode).putLe 4 2 recordLength).putLe 6 1 name.length).putLe 7 1 type
  ((block.fill offset recordLength 0).blit offset 8 entry.get).blit (offset + 8) name.length
    fun i => name.getD i 0

/-! ### Looking up -/

/-- `nsfs_directory_data_block`: the physical block of a directory, which must not be a hole. -/
def directoryBlock (inTx : Bool) (directory : DiskInode) (logical : ℕ) : NsM ℕ := do
  let physical ← (if inTx then do
      let (_, physical) ← nsfsTxInodeDataBlock directory logical false true
      pure physical
    else
      nsfsInodeDataBlock directory logical : NsM ℕ)
  require (physical ≠ 0) .eio
  pure physical

/-- The image of a directory block, through the transaction if there is one. -/
def directoryImage (inTx : Bool) (physical : ℕ) : NsM Block :=
  if inTx then nsfsTxImage physical else nsfsReadBlock physical

/-- The loop of `nsfs_directory_lookup_loaded` over the blocks of the directory. -/
def lookupBlocks (inTx : Bool) (directory : DiskInode) (name : Name) : ℕ → ℕ → NsM (ℕ × ℕ)
  | 0, _ => throw .enoent
  | remaining + 1, logical => do
    let physical ← directoryBlock inTx directory logical
    let block ← directoryImage inTx physical
    let s ← get
    let found ← liftExcept
      (scanBlock s.fs.superblock.totalInodes block (nameMatches block name))
    match found with
    | some record => pure (record.entry.inode, record.entry.type)
    | none => lookupBlocks inTx directory name remaining (logical + 1)

/-- The inode number and the type recorded under `name`. -/
def nsfsDirectoryLookupLoaded (inTx : Bool) (directory : DiskInode) (name : Name) :
    NsM (ℕ × ℕ) := do
  require (directory.type = nsfsInodeDirectory) .enotdir
  require (directory.size ≠ 0 ∧ directory.size % 4096 = 0 ∧ directory.size ≤ 4243456) .eio
  nsfsAllocate
  lookupBlocks inTx directory name (directory.size / 4096) 0

/-! ### Adding -/

/-- The room behind the record at hand: all of a free record, the slack of one in use. -/
def direntRoom (entry : Dirent) : ℕ :=
  if entry.inode = 0 then entry.recLen else entry.recLen - nsfsAlign4 (8 + entry.nameLen)

/-- Put a new record into the room of the one at `offset`: a free record is reused, and split if
what is left over can hold a header; the slack of a record in use becomes the new record. -/
def placeDirent (offset : ℕ) (entry : Dirent) (inode type : ℕ) (name : Name) : Block :=
  let needed := nsfsAlign4 (8 + name.length)
  if entry.inode = 0 then
    if entry.recLen - needed ≥ 8 then
      nsfsWriteDirent (nsfsWriteDirent block (offset + needed) 0 (entry.recLen - needed) 0 [])
        offset inode needed type name
    else
      nsfsWriteDirent block offset inode entry.recLen type name
  else
    let minimum := nsfsAlign4 (8 + entry.nameLen)
    nsfsWriteDirent (block.blit offset 8 (entry.setRecLen minimum).get) (offset + minimum) inode
      (entry.recLen - minimum) type name

/-- The loop of `nsfs_directory_add` over the existing blocks; `true` if the record was placed. -/
def addToBlocks (directory : DiskInode) (name : Name) (inode type : ℕ) : ℕ → ℕ → NsM Bool
  | 0, _ => pure false
  | remaining + 1, logical => do
    let physical ← directoryBlock true directory logical
    let block ← nsfsTxImage physical
    let s ← get
    let found ← liftExcept (scanBlock s.fs.superblock.totalInodes block
      fun _ entry => nsfsAlign4 (8 + name.length) ≤ direntRoom entry)
    match found with
    | some record => do
      txStore physical (placeDirent block record.offset record.entry inode type name)
      pure true
    | none => addToBlocks directory name inode type remaining (logical + 1)

/-- The end of `nsfs_directory_add`: a new block that holds only the new record. -/
def addInNewBlock (inode type : ℕ) : NsM DiskInode := do
  let blocks := directory.size / 4096
  require (blocks < 1036) .enospc
  let (grown, physical) ← nsfsTxInodeDataBlock directory blocks true true
  let block ← nsfsTxImage physical
  txStore physical (nsfsWriteDirent block 0 inode 4096 type name)
  pure (grown.setSize (directory.size + 4096))

def nsfsDirectoryAdd (inode type : ℕ) : NsM DiskInode := do
  let present ← observe (nsfsDirectoryLookupLoaded true directory name)
  match present with
  | .ok _ => throw .eexist
  | .error e => do
    require (e = .enoent) e
    let placed ← addToBlocks directory name inode type (directory.size / 4096) 0
    if placed then pure directory else addInNewBlock directory name inode type

/-! ### Removing -/

/-- Take the record out of its block: it is merged into the record before it, or left as a free
record when it is the first of the block. -/
def eraseDirent (record : Found) : Block :=
  match record.previous with
  | some previousOffset =>
    let previous : Dirent := block.slice previousOffset
    (block.blit previousOffset 8
      (previous.setRecLen (previous.recLen + record.entry.recLen)).get).fill
      record.offset record.entry.recLen 0
  | none =>
    (block.blit record.offset 8
      (((record.entry.setInode 0).setNameLen 0).setType 0).get).fill (record.offset + 8)
      (record.entry.recLen - 8) 0

/-- The loop of `nsfs_directory_remove`. -/
def removeFromBlocks (directory : DiskInode) (name : Name) : ℕ → ℕ → NsM Unit
  | 0, _ => throw .enoent
  | remaining + 1, logical => do
    let physical ← directoryBlock true directory logical
    let block ← nsfsTxImage physical
    let s ← get
    let found ← liftExcept
      (scanBlock s.fs.superblock.totalInodes block (nameMatches block name))
    match found with
    | some record => txStore physical (eraseDirent block record)
    | none => removeFromBlocks directory name remaining (logical + 1)

def nsfsDirectoryRemove : NsM Unit :=
  removeFromBlocks directory name (directory.size / 4096) 0

/-- The record at `offset` is in use and is neither `.` nor `..`. -/
def otherEntry (offset : ℕ) (entry : Dirent) : Bool :=
  entry.inode ≠ 0 ∧ direntName block offset entry.nameLen ≠ dotName ∧
    direntName block offset entry.nameLen ≠ dotdotName

/-- The loop of `nsfs_directory_empty`. -/
def emptyBlocks (directory : DiskInode) : ℕ → ℕ → NsM Bool
  | 0, _ => pure true
  | remaining + 1, logical => do
    let physical ← directoryBlock true directory logical
    let block ← nsfsTxImage physical
    let s ← get
    let found ← liftExcept (scanBlock s.fs.superblock.totalInodes block (otherEntry block))
    match found with
    | some _ => pure false
    | none => emptyBlocks directory remaining (logical + 1)

def nsfsDirectoryEmpty : NsM Bool :=
  emptyBlocks directory (directory.size / 4096) 0

/-- `nsfs_directory_set_dotdot`: redirect the `..` record of the first block. -/
def nsfsDirectorySetDotdot (parent : ℕ) : NsM Unit := do
  let physical ← directoryBlock true directory 0
  let block ← nsfsTxImage physical
  let s ← get
  let found ← liftExcept
    (scanBlock s.fs.superblock.totalInodes block (nameMatches block dotdotName))
  match found with
  | some record => txStore physical (block.blit record.offset 8 (record.entry.setInode parent).get)
  | none => throw .eio

/-! ### Queries -/

def nsfsLookup (directoryNumber : ℕ) (name : Name) : NsM ℕ := do
  let s ← get
  require (s.fs.mounted = true ∧ s.fs.poisoned = false) .einval
  liftExcept (nsfsValidateComponent name true)
  let directory ← nsfsReadInode false directoryNumber
  let (inode, _) ← nsfsDirectoryLookupLoaded false directory name
  pure inode

/-- `struct nsfs_dir_entry`. -/
structure DirEntry where
  inode : ℕ
  type : ℕ
  name : Name
  deriving DecidableEq

/-- The loop of `nsfs_readdir`: the next record in use from `cookie` on, with the cookie behind it.
Every round steps over at least eight bytes. -/
def readdirLoop (directory : DiskInode) : ℕ → ℕ → NsM (ℕ × Option DirEntry)
  | 0, cookie => pure (cookie, none)
  | fuel + 1, cookie =>
    if cookie ≥ directory.size then pure (cookie, none)
    else do
      let physical ← directoryBlock false directory (cookie / 4096)
      let block ← nsfsReadBlock physical
      let s ← get
      let entry ← liftExcept
        (nsfsDecodeDirent s.fs.superblock.totalInodes block (cookie % 4096))
      if entry.inode = 0 then
        readdirLoop directory fuel (cookie + entry.recLen)
      else
        pure (cookie + entry.recLen,
          some ⟨entry.inode, entry.type, direntName block (cookie % 4096) entry.nameLen⟩)

def nsfsReaddir (directoryNumber cookie : ℕ) : NsM (ℕ × Option DirEntry) := do
  let s ← get
  require (s.fs.mounted = true ∧ s.fs.poisoned = false) .einval
  let directory ← nsfsReadInode false directoryNumber
  require (directory.type = nsfsInodeDirectory) .enotdir
  require (cookie ≤ directory.size) .einval
  nsfsAllocate
  readdirLoop directory (directory.size - cookie + 1) cookie

end Northstar
