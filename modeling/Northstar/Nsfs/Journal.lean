import Northstar.Nsfs.State

/-! # Superblocks, the redo journal and transactions

Two copies of the superblock in blocks 0 and 1, of which the valid one with the higher generation
counts; a journal header block followed by the redo images of one transaction; and the transaction
itself, which collects whole-block images in memory and commits them in the order images, barrier,
commit header, barrier, home blocks, barrier, cleared header.

Bounded checks that all fail with one error number (the descriptors of a journal header) are
written as a bounded quantifier; the error number does not depend on which of them fails first. -/

namespace Northstar

/-! ### Superblocks -/

variable (sb : Superblock)

/-- Write the handle's superblock. -/
def setSuperblock : NsM Unit :=
  modify fun s => { s with fs := { s.fs with superblock := sb } }

/-- `filesystem->poisoned = true`. -/
def setPoisoned : NsM Unit :=
  modify fun s => { s with fs := { s.fs with poisoned := true } }

def nsfsSuperblockSeal : Superblock :=
  (sb.setChecksum 0).setChecksum (nsfsCrc32c (sb.setChecksum 0).toList)

def nsfsSuperblockImage (source : Superblock) : Block :=
  Bytes.zero.blit 0 256 (nsfsSuperblockSeal source).get

/-- The identification fields that `nsfs_validate_superblock_image` checks first. -/
def Superblock.Identified : Prop :=
  sb.magic = nsfsMagic ∧ sb.version = 1 ∧ sb.headerSize = 256 ∧ sb.blockSize = 4096 ∧
    sb.inodeSize = 128 ∧ sb.features = 0 ∧ sb.rootInode = nsfsRootInode

/-- The layout checks of `nsfs_validate_superblock_image`: the regions follow one another and have
the sizes that the two totals require. The starts are compared with sums of earlier fields that
are already known to be small, so the overflow tests of the source cannot fire. -/
def Superblock.LaidOut : Prop :=
  sb.journalStart = 2 ∧ 9 ≤ sb.journalBlocks ∧
    sb.journalEntries = min (sb.journalBlocks - 1) 128 ∧
    sb.inodeBitmapStart = sb.journalStart + sb.journalBlocks ∧
    sb.inodeBitmapBlocks = nsfsDivCeil sb.totalInodes 32768 ∧
    sb.blockBitmapStart = sb.inodeBitmapStart + sb.inodeBitmapBlocks ∧
    sb.blockBitmapBlocks = nsfsDivCeil sb.totalBlocks 32768 ∧
    sb.inodeTableStart = sb.blockBitmapStart + sb.blockBitmapBlocks ∧
    sb.inodeTableBlocks = nsfsDivCeil (sb.totalInodes * 128) 4096 ∧
    sb.dataStart = sb.inodeTableStart + sb.inodeTableBlocks ∧
    sb.dataStart < sb.totalBlocks

instance (sb : Superblock) : Decidable sb.Identified := by
  unfold Superblock.Identified; infer_instance

instance (sb : Superblock) : Decidable sb.LaidOut := by
  unfold Superblock.LaidOut; infer_instance

/-- The checksum is cleared for the computation and put back, so the result is the copy itself. -/
def nsfsValidateSuperblockImage (block : Block) (deviceBlocks : ℕ) : Except Errno Superblock :=
  let sb : Superblock := block.slice 0
  if ¬ sb.Identified then .error .einval
  else if sb.checksum ≠ nsfsCrc32c (sb.setChecksum 0).toList then .error .eio
  else if sb.totalBlocks ≠ deviceBlocks ∨ sb.totalBlocks > 0xffffffff ∨ sb.totalInodes < 2 then
    .error .einval
  else if sb.state ≠ nsfsStateClean ∧ sb.state ≠ nsfsStateDirty then .error .eio
  else if ¬ sb.LaidOut then .error .eio
  else if sb.freeBlocks > sb.totalBlocks - sb.dataStart ∨ sb.freeInodes > sb.totalInodes - 2 then
    .error .eio
  else .ok sb

/-- The better of two superblock candidates, as the loop of `nsfs_read_superblocks` selects it:
the second copy only wins with a higher generation. -/
def selectSuperblock : Except Errno Superblock → Except Errno Superblock → Except Errno Superblock
  | .ok first, .ok second =>
    if second.generation > first.generation then .ok second else .ok first
  | .ok first, .error _ => .ok first
  | .error _, .ok second => .ok second
  | .error e, .error e' => if e = .eio ∨ e' = .eio then .error .eio else .error .einval

/-- Read and validate one of the two copies. -/
def readCandidate (totalBlocks index : ℕ) : NsM Superblock := do
  let block ← nsfsBlockIoRead index
  liftExcept (nsfsValidateSuperblockImage block totalBlocks)

def nsfsReadSuperblocks (totalBlocks : ℕ) : NsM Superblock := do
  let first ← observe (readCandidate totalBlocks 0)
  let second ← observe (readCandidate totalBlocks 1)
  liftExcept (selectSuperblock first second)

/-- The superblock that `nsfs_write_super_pair` publishes. -/
def stampSuperblock (state : ℕ) (incrementMountCount : Bool) : NsM Superblock := do
  let s ← get
  let sb := (s.fs.superblock.setGeneration (s.fs.superblock.generation + 1)).setState state
  if incrementMountCount then do
    let now ← nsfsNow
    pure ((sb.setMountCount (sb.mountCount + 1)).setLastMountNs now)
  else
    pure sb

def nsfsWriteSuperPair (state : ℕ) (incrementMountCount : Bool) : NsM Unit := do
  let s ← get
  require (s.fs.poisoned = false) .eio
  nsfsAllocate
  let sb ← stampSuperblock state incrementMountCount
  setSuperblock sb
  let block := nsfsSuperblockImage sb
  onFailure (do
    nsfsWriteBlock 1 block
    nsBlockFlush
    nsfsWriteBlock 0 block
    nsBlockFlush) setPoisoned

/-! ### Journal headers -/

/-- Store the descriptors of `entries` from the `index`-th on. -/
def putDescriptors (block : Block) (index : ℕ) : List (ℕ × Block) → Block
  | [] => block
  | (target, image) :: rest =>
    putDescriptors
      (((block.putLe (64 + 16 * index) 8 target).putLe (64 + 16 * index + 8) 4
        (nsfsCrc32c image.toList)).putLe (64 + 16 * index + 12) 4 0)
      (index + 1) rest

/-- The fixed part of a journal header block. -/
def journalHeaderBase (generation state txid count : ℕ) : Block :=
  ((((((Bytes.zero.putLe 0 8 nsfsJournalMagic).putLe 8 4 1).putLe 12 4 64).putLe 16 4 state).putLe
    20 4 count).putLe 24 8 txid).putLe 32 8 generation |>.putLe 40 4 16

def nsfsMakeJournalHeader (state txid : ℕ) (entries : List (ℕ × Block)) : Except Errno Block :=
  if entries.length > sb.journalEntries ∨ 64 + entries.length * 16 > 4096 then .error .eoverflow
  else
    let block := putDescriptors
      (journalHeaderBase sb.generation state txid entries.length) 0 entries
    .ok ((Journal.setChecksum block 0).putLe 44 4
      (nsfsCrc32c (Journal.setChecksum block 0).toList))

/-- What `nsfs_validate_journal_header` requires of the `index`-th descriptor. -/
def DescriptorOk (block : Block) (index : ℕ) : Prop :=
  Journal.descriptorFlags block index = 0 ∧
    Journal.targetBlock block index < sb.totalBlocks ∧
    ¬ (sb.journalStart ≤ Journal.targetBlock block index ∧
      Journal.targetBlock block index < sb.journalStart + sb.journalBlocks) ∧
    ∀ prior < index, Journal.targetBlock block prior ≠ Journal.targetBlock block index

instance (sb : Superblock) (block : Block) (index : ℕ) :
    Decidable (DescriptorOk sb block index) := by
  unfold DescriptorOk; infer_instance

def nsfsValidateJournalHeader (block : Block) : Except Errno Unit :=
  if Journal.magic block ≠ nsfsJournalMagic ∨ Journal.version block ≠ 1 ∨
      Journal.headerSize block ≠ 64 ∨ Journal.descriptorSize block ≠ 16 then .error .eio
  else if Journal.checksum block ≠ nsfsCrc32c (Journal.setChecksum block 0).toList then .error .eio
  else if (Journal.state block ≠ nsfsJournalEmpty ∧ Journal.state block ≠ nsfsJournalPrepared ∧
        Journal.state block ≠ nsfsJournalCommitted) ∨
      Journal.entryCount block > sb.journalEntries ∨
      (Journal.state block = nsfsJournalEmpty ∧ Journal.entryCount block ≠ 0) then .error .eio
  else if ∀ index < Journal.entryCount block, DescriptorOk sb block index then .ok ()
  else .error .eio

def nsfsClearJournal (txid : ℕ) : NsM Unit := do
  let s ← get
  let header ← liftExcept (nsfsMakeJournalHeader s.fs.superblock nsfsJournalEmpty txid [])
  nsfsWriteBlock s.fs.superblock.journalStart header
  nsBlockFlush

/-! ### Recovery -/

/-- The first loop of `nsfs_recover_journal`: every redo image has the checksum of its
descriptor. -/
def recoverCheck (header : Block) (journalStart : ℕ) : ℕ → ℕ → NsM Unit
  | _, 0 => pure ()
  | index, remaining + 1 => do
    let image ← failAs .eio (nsfsReadBlock (journalStart + 1 + index))
    require (nsfsCrc32c image.toList = Journal.dataChecksum header index) .eio
    recoverCheck header journalStart (index + 1) remaining

/-- The second loop of `nsfs_recover_journal`: every redo image is written to its target. -/
def recoverReplay (header : Block) (journalStart : ℕ) : ℕ → ℕ → NsM Unit
  | _, 0 => pure ()
  | index, remaining + 1 => do
    let image ← nsfsReadBlock (journalStart + 1 + index)
    nsfsWriteBlock (Journal.targetBlock header index) image
    recoverReplay header journalStart (index + 1) remaining

/-- The part of `nsfs_recover_journal` that installs a committed transaction. -/
def recoverCommitted (header : Block) (journalStart : ℕ) : NsM Unit := do
  recoverCheck header journalStart 0 (Journal.entryCount header)
  recoverReplay header journalStart 0 (Journal.entryCount header)
  nsBlockFlush

def nsfsRecoverJournal : NsM Unit := do
  let s ← get
  let journalStart := s.fs.superblock.journalStart
  nsfsAllocate
  nsfsAllocate
  let header ← nsfsReadBlock journalStart
  liftExcept (nsfsValidateJournalHeader s.fs.superblock header)
  if Journal.state header = nsfsJournalEmpty then
    pure ()
  else do
    require (s.fs.mountReadOnly = false) .erofs
    if Journal.state header = nsfsJournalCommitted then recoverCommitted header journalStart
    else pure ()
    nsfsClearJournal (Journal.txid header)

/-! ### Transactions -/

def nsfsTxBegin : NsM Unit := do
  let s ← get
  require (s.fs.poisoned = false) .eio
  require (s.fs.mountReadOnly = false) .erofs
  nsfsAllocate
  modify fun s => { s with tx := ⟨[], s.fs.superblock.journalEntries, s.fs.superblock, false⟩ }

def nsfsTxRelease (restoreSuperblock : Bool) : NsM Unit :=
  modify fun s =>
    { s with
      fs := { s.fs with
        superblock := if restoreSuperblock ∧ s.tx.durableCommit = false then
          s.tx.originalSuperblock else s.fs.superblock }
      tx := Transaction.cleared }

/-- The image of `block` in the transaction, if it has one. -/
def Transaction.find (tx : Transaction) (block : ℕ) : Option Block := tx.entries.lookup block

/-- `nsfs_tx_image`: the image of `block` in the transaction, read from the device when the block
is not part of the transaction yet. -/
def nsfsTxImage (block : ℕ) : NsM Block := do
  let s ← get
  require (block < s.fs.superblock.totalBlocks) .eio
  match s.tx.find block with
  | some image => pure image
  | none => do
    require (s.tx.entries.length + 2 < s.tx.capacity) .enospc
    nsfsAllocate
    let image ← nsfsReadBlock block
    modify fun s => { s with tx := { s.tx with entries := s.tx.entries ++ [(block, image)] } }
    pure image

/-- A store through the pointer that `nsfs_tx_image` returned for `block`. -/
def txStore (block : ℕ) (image : Block) : NsM Unit :=
  modify fun s => { s with tx := { s.tx with
    entries := s.tx.entries.map fun e => if e.1 = block then (block, image) else e } }

def nsfsTxZeroImage (block : ℕ) : NsM Unit := do
  let _ ← nsfsTxImage block
  txStore block Bytes.zero

def nsfsTxAppendSuper (block : ℕ) (sb : Superblock) : NsM Unit := do
  let s ← get
  require (s.tx.entries.length < s.tx.capacity) .enospc
  nsfsAllocate
  modify fun s => { s with tx := { s.tx with
    entries := s.tx.entries ++ [(block, nsfsSuperblockImage sb)] } }

/-- The journal copies of the transaction's images. -/
def writeRedo (journalStart : ℕ) : ℕ → List (ℕ × Block) → NsM Unit
  | _, [] => pure ()
  | index, (_, image) :: rest => do
    nsfsWriteBlock (journalStart + 1 + index) image
    writeRedo journalStart (index + 1) rest

/-- The home copies of the transaction's images. -/
def writeHome : List (ℕ × Block) → NsM Unit
  | [] => pure ()
  | (block, image) :: rest => do
    nsfsWriteBlock block image
    writeHome rest

/-- The superblock that a commit publishes. -/
def commitSuperblock (now : ℕ) : Superblock :=
  (((sb.setGeneration (sb.generation + 1)).setLastTxid (sb.lastTxid + 1)).setLastWriteNs
    now).setState nsfsStateDirty

/-- Redo images, barrier, commit header, barrier: after this the transaction is durable. -/
def commitJournal (entries : List (ℕ × Block)) : NsM Unit := do
  writeRedo sb.journalStart 0 entries
  nsBlockFlush
  let header ← liftExcept (nsfsMakeJournalHeader sb nsfsJournalCommitted sb.lastTxid entries)
  nsfsWriteBlock sb.journalStart header
  nsBlockFlush

/-- Home blocks, barrier, cleared header. -/
def commitHome (entries : List (ℕ × Block)) : NsM Unit := do
  writeHome entries
  nsBlockFlush
  nsfsClearJournal sb.lastTxid

def nsfsTxCommit : NsM Unit := do
  let now ← nsfsNow
  let s ← get
  let sb := commitSuperblock s.fs.superblock now
  setSuperblock sb
  onFailure (do
    nsfsTxAppendSuper 1 sb
    nsfsTxAppendSuper 0 sb
    nsfsAllocate) (nsfsTxRelease true)
  let s ← get
  onFailure (commitJournal sb s.tx.entries) (nsfsTxRelease true)
  modify fun s => { s with tx := { s.tx with durableCommit := true } }
  onFailure (commitHome sb s.tx.entries) (do
    setPoisoned
    nsfsTxRelease false)
  nsfsTxRelease false

/-- An operation body between `nsfs_tx_begin` and its `failed` label: a body that returns `some`
has prepared a transaction to commit, one that returns `none` has nothing to commit. -/
def inTransaction {α : Type} (body : NsM (Option α)) (unchanged : α) : NsM α := do
  nsfsTxBegin
  let result ← onFailure body (nsfsTxRelease true)
  match result with
  | some a => do
    nsfsTxCommit
    pure a
  | none => do
    nsfsTxRelease true
    pure unchanged

end Northstar
