import Northstar.Lib.Action
import Northstar.Lib.Device
import Northstar.Nsfs.Ondisk

/-! # The state of a mounted volume and its device

The block device is the contents it had at power-on together with the log of the commands that
reached it since; what reads see is computed from both. Keeping the log is what lets crash points
be stated later: a power failure during an operation cuts the log somewhere between the lengths it
has before and after the operation.

What the environment decides (whether an allocation succeeds, whether a device command reports an
error and still takes effect, the clock) is read from an oracle by the number of the consultation,
so that a theorem about all oracles is a theorem about all environments.

`St` collects the device, the handle (`struct nsfs`) and the transaction in progress. A pointer to
the image of a transaction entry is represented by the block number of the entry: images are
separately allocated and live until the transaction is released, so the pointer stays valid. -/

namespace Northstar

/-! ### Devices -/

/-- What a device command reports: success, or a failure that took effect or did not. -/
inductive IoResult where
  | done
  | failed (tookEffect : Bool)
  deriving DecidableEq

/-- The choices of the environment, by the number of the consultation. -/
structure Env where
  allocates : ℕ → Bool
  io : ℕ → IoResult
  nowNs : ℕ → ℕ

/-- `struct ns_block_device` with the contents behind it: the image at power-on and the commands
that reached the device since. -/
structure BlockDevice where
  sectorSize : ℕ
  sectorCount : ℕ
  readOnly : Bool
  image : Disk
  log : List (Cmd Block)

namespace BlockDevice

/-- What is on the device now. -/
def cache (d : BlockDevice) : Cache Block := (Cache.ofDisk d.image).run d.log

/-- What reads see. -/
def current (d : BlockDevice) : Disk := d.cache.current

/-- The device after one more command. -/
def issue (d : BlockDevice) (cmd : Cmd Block) : BlockDevice := { d with log := d.log ++ [cmd] }

/-- The number of whole blocks of the device. -/
def blocks (d : BlockDevice) : ℕ := d.sectorCount / (4096 / d.sectorSize)

/-- A command is a step of the cache. -/
@[simp] lemma cache_issue (d : BlockDevice) (cmd : Cmd Block) :
    (d.issue cmd).cache = d.cache.step cmd := by
  simp [cache, issue, Cache.run_append]

/-- A flush does not change what the device shows. -/
@[simp] lemma current_issue_flush (d : BlockDevice) : (d.issue .flush).current = d.current := by
  simp [current]

/-- A write changes what the device shows at its block. -/
@[simp] lemma current_issue_write (d : BlockDevice) (b : ℕ) (x : Block) :
    (d.issue (.write b x)).current = Function.update d.current b x := by
  simp [current]

end BlockDevice

/-! ### Handles, transactions and the state -/

/-- `struct nsfs`: the handle of a mounted volume. The client has one handle variable; a record with
`mounted = false` stands for the null pointer. -/
structure Nsfs where
  superblock : Superblock
  mountReadOnly : Bool
  mounted : Bool
  poisoned : Bool

/-- `struct nsfs_transaction`: the redo images collected so far, in the order they were added. -/
structure Transaction where
  entries : List (ℕ × Block)
  capacity : ℕ
  originalSuperblock : Superblock
  durableCommit : Bool

/-- A transaction record that was cleared by `memset`. -/
def Transaction.cleared : Transaction := ⟨[], 0, Bytes.zero, false⟩

/-- Everything an operation works on. -/
structure St where
  env : Env
  tick : ℕ
  device : BlockDevice
  fs : Nsfs
  tx : Transaction

/-- Filesystem code: passes the state and may stop with an error number. -/
abbrev NsM := EStateM Errno St

/-! ### The environment -/

/-- `nsfs_allocate`: a buffer, or `ENOMEM`. -/
def nsfsAllocate : NsM Unit := do
  let s ← get
  set { s with tick := s.tick + 1 }
  require (s.env.allocates s.tick = true) .enomem

/-- `nsfs_now`. -/
def nsfsNow : NsM ℕ := do
  let s ← get
  set { s with tick := s.tick + 1 }
  pure (s.env.nowNs s.tick)

/-- One command sent to the device: it takes effect if the device reports success, and may or may
not take effect if the device reports an error. -/
def deviceCommand (cmd : Cmd Block) : NsM Unit := do
  let s ← get
  match s.env.io s.tick with
  | .done => set { s with tick := s.tick + 1, device := s.device.issue cmd }
  | .failed true => do
    set { s with tick := s.tick + 1, device := s.device.issue cmd }
    throw .eio
  | .failed false => do
    set { s with tick := s.tick + 1 }
    throw .eio

/-- `ns_block_flush`. -/
def nsBlockFlush : NsM Unit := deviceCommand .flush

/-! ### Whole-block I/O -/

/-- `nsfs_block_io` for reading: the transfers of one block, range-checked by the device layer. -/
def nsfsBlockIoRead (block : ℕ) : NsM Block := do
  let s ← get
  require (block < s.device.blocks) .erange
  pure (s.device.current block)

/-- `nsfs_block_io` for writing. -/
def nsfsBlockIoWrite (block : ℕ) (image : Block) : NsM Unit := do
  let s ← get
  require (block < s.device.blocks) .erange
  require (s.device.readOnly = false) .erofs
  deviceCommand (.write block image)

def nsfsReadBlock (block : ℕ) : NsM Block := do
  let s ← get
  require (s.fs.mounted = true ∧ block < s.fs.superblock.totalBlocks) .einval
  nsfsBlockIoRead block

def nsfsWriteBlock (block : ℕ) (image : Block) : NsM Unit := do
  let s ← get
  require (s.fs.mounted = true ∧ block < s.fs.superblock.totalBlocks) .einval
  require (s.fs.mountReadOnly = false) .erofs
  nsfsBlockIoWrite block image

/-- `nsfs_device_geometry`: the number of blocks of an acceptable device. -/
def nsfsDeviceGeometry (device : BlockDevice) : Except Errno ℕ := do
  if ¬ (device.sectorSize.isPowerOfTwo ∧ device.sectorCount ≠ 0) then throw .einval
  if 4096 % device.sectorSize ≠ 0 then throw .einval
  let sectors := 4096 / device.sectorSize
  if sectors = 0 ∨ device.sectorCount % sectors ≠ 0 then throw .einval
  let blocks := device.sectorCount / sectors
  if blocks = 0 ∨ blocks > 0xffffffff then throw .eoverflow
  return blocks

end Northstar
