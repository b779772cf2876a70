import Northstar.Lib.Bitmap
import Northstar.Mm.BootInfo

/-! # The physical frame allocator

A model of `pmm.c`. The allocator keeps two bitmaps over frame numbers: `allocatedBitmap` marks
every frame that cannot be handed out, `reservedBitmap` marks the frames that are never taken
back. Each call runs under the allocator's lock, so a call is one function from state to state.

`nsPmmInit` builds the state from the boot information: everything starts reserved, complete
pages of usable E820 entries are exposed, and firmware and boot ranges are then reserved again. -/

namespace Northstar

/-- `NS_PMM_LOW_MEMORY_RESERVE`. -/
abbrev nsPmmLowMemoryReserve : ℕ := 0x100000

/-- `enum ns_pmm_error`, without `NS_PMM_OK`. -/
inductive PmmError
  | einval | ecorrupt | enospc | erange | eperm | edoublefree
  deriving DecidableEq, Repr

/-- `struct ns_pmm`. -/
structure Pmm where
  allocatedBitmap : Bitmap
  reservedBitmap : Bitmap
  bytesPerBitmap : ℕ
  frameCount : ℕ
  usableFrames : ℕ
  freeFrames : ℕ
  nextHint : ℕ
  managedLimit : ℕ
  initialized : Bool

/-! ### Page arithmetic -/

/-- `align_down_page`. -/
def alignDownPage (value : ℕ) : ℕ := value &&& not64 (nsPageSize - 1)

/-- `align_up_page_saturating`. -/
def alignUpPageSaturating (value : ℕ) : ℕ :=
  if value > uint64Max - (nsPageSize - 1) then uint64Max &&& not64 (nsPageSize - 1)
  else (value + nsPageSize - 1) &&& not64 (nsPageSize - 1)

/-! ### Building the allocator -/

/-- `discover_limit`: the page-aligned end of the highest enabled entry inside the direct map. -/
def discoverLimit (boot : BootInfo) (entries : ℕ → UInt8) : ℕ :=
  let highest := (List.range boot.e820EntryCount).foldl (fun highest i =>
    let entry := entryAt boot entries i
    if !entryEnabled entry || decide (entry.length = 0) then highest
    else
      let sum := addOverflowU64 entry.base entry.length
      max highest (if sum.2 then uint64Max else sum.1)) 0
  alignUpPageSaturating
    (if boot.directMapSize ≠ 0 ∧ highest > boot.directMapSize then boot.directMapSize else highest)

/-- `ns_pmm_storage_required`. -/
def nsPmmStorageRequired (boot : BootInfo) (entries : ℕ → UInt8) : ℕ :=
  if !nsBootInfoValidate boot then 0
  else
    let bytes := (discoverLimit boot entries / nsPageSize + 7) / 8
    if bytes > uint64Max / 2 then 0 else bytes * 2

variable (pmm : Pmm)

/-- `mark_frame_free_initial`. -/
def markFrameFreeInitial (frame : ℕ) : Pmm :=
  if frame ≥ pmm.frameCount ∨ pmm.reservedBitmap.get frame = false then pmm
  else
    { pmm with
      reservedBitmap := pmm.reservedBitmap.clear frame
      allocatedBitmap := pmm.allocatedBitmap.clear frame
      usableFrames := pmm.usableFrames + 1
      freeFrames := pmm.freeFrames + 1 }

/-- `mark_frame_permanent`. -/
def markFramePermanent (frame : ℕ) : Pmm :=
  if frame ≥ pmm.frameCount then pmm
  else if pmm.allocatedBitmap.get frame then
    { pmm with reservedBitmap := pmm.reservedBitmap.set frame }
  else
    { pmm with
      allocatedBitmap := pmm.allocatedBitmap.set frame
      freeFrames := pmm.freeFrames - 1
      reservedBitmap := pmm.reservedBitmap.set frame }

/-- `reserve_range_unlocked`. -/
def reserveRangeUnlocked (base length : ℕ) : Pmm :=
  if length = 0 ∨ base ≥ pmm.managedLimit then pmm
  else
    let sum := addOverflowU64 base length
    let finish := if sum.2 ∨ sum.1 > pmm.managedLimit then pmm.managedLimit else sum.1
    let first := alignDownPage base / nsPageSize
    let last := min (alignUpPageSaturating finish / nsPageSize) pmm.frameCount
    (List.range' first (last - first)).foldl markFramePermanent pmm

/-- The ranges `reserve_boot_regions` reserves, in its order. -/
def bootRegions (boot : BootInfo) (bitmapPhys bitmapSize : ℕ) : List (ℕ × ℕ) :=
  [(0, nsPmmLowMemoryReserve),
   (boot.kernelPhysBase, boot.kernelSize),
   (boot.bootloaderPhysBase, boot.bootloaderSize),
   (boot.pageTablesPhysBase, boot.pageTablesSize),
   (boot.pml4Phys, nsPageSize),
   (boot.bootInfoPhys, boot.size),
   (boot.e820EntriesPhys, boot.e820EntryCount * boot.e820EntrySize),
   (bitmapPhys, bitmapSize)] ++
  (if boot.flags.testBit bootFlagInitrd then [(boot.initrdPhysBase, boot.initrdSize)] else []) ++
  (if boot.flags.testBit bootFlagFramebuffer then
    [(boot.framebufferPhysBase, boot.framebufferSize)] else [])

/-- `reserve_boot_regions`. -/
def reserveBootRegions (boot : BootInfo) (bitmapPhys bitmapSize : ℕ) : Pmm :=
  (bootRegions boot bitmapPhys bitmapSize).foldl (fun p r => reserveRangeUnlocked p r.1 r.2) pmm

/-- The first pass of `ns_pmm_init` over one entry: expose the complete pages of a usable one. -/
def exposeEntry (limit : ℕ) (pmm : Pmm) (entry : E820Entry) : Pmm :=
  if !entryEnabled entry || decide (entry.type ≠ e820Usable) || decide (entry.length = 0) then pmm
  else
    let sum := addOverflowU64 entry.base entry.length
    let start := alignUpPageSaturating entry.base / nsPageSize
    let finish := alignDownPage (if sum.2 ∨ sum.1 > limit then limit else sum.1) / nsPageSize
    (List.range' start (finish - start)).foldl markFrameFreeInitial pmm

/-- The second pass of `ns_pmm_init` over one entry: reserve it unless it is usable. -/
def concealEntry (entry : E820Entry) : Pmm :=
  if !entryEnabled entry || decide (entry.type = e820Usable) then pmm
  else reserveRangeUnlocked pmm entry.base entry.length

/-- `ns_pmm_check_invariants`, with `true` for `NS_PMM_OK` and `false` for `NS_PMM_ECORRUPT`. -/
def nsPmmCheckInvariants : Bool :=
  decide (pmm.frameCount ≠ 0) && decide (pmm.bytesPerBitmap = (pmm.frameCount + 7) / 8) &&
  (List.range pmm.frameCount).all
    (fun frame => !pmm.reservedBitmap.get frame || pmm.allocatedBitmap.get frame) &&
  decide (pmm.allocatedBitmap.clearBits pmm.frameCount = pmm.freeFrames)

/-- The state of `ns_pmm_init` before its first pass: no frame is free, all are reserved. -/
def pmmBlank (limit : ℕ) : Pmm :=
  let frames := limit / nsPageSize
  let bytes := (frames + 7) / 8
  { allocatedBitmap := Bitmap.ones (8 * bytes)
    reservedBitmap := Bitmap.ones (8 * bytes)
    bytesPerBitmap := bytes
    frameCount := frames
    usableFrames := 0
    freeFrames := 0
    nextHint := 0
    managedLimit := limit
    initialized := false }

/-- The passes of `ns_pmm_init`: expose usable memory, then let reserved entries win over
overlapping usable ones, then reserve what the boot information names. -/
def pmmScan (boot : BootInfo) (entries : ℕ → UInt8) (bitmapPhys : ℕ) : Pmm :=
  let limit := discoverLimit boot entries
  let map := (List.range boot.e820EntryCount).map (entryAt boot entries)
  let exposed := map.foldl (exposeEntry limit) (pmmBlank limit)
  let concealed := map.foldl concealEntry exposed
  reserveBootRegions concealed boot bitmapPhys (nsPmmStorageRequired boot entries)

/-- `ns_pmm_init`. -/
def nsPmmInit (boot : BootInfo) (entries : ℕ → UInt8) (bitmapPhys bitmapStorageSize : ℕ) :
    Except PmmError Pmm :=
  if bitmapPhys % nsPageSize ≠ 0 ∨ nsBootInfoValidate boot = false then .error .einval
  else
    let required := nsPmmStorageRequired boot entries
    if required = 0 ∨ bitmapStorageSize < required then .error .enospc
    else
      let pmm := pmmScan boot entries bitmapPhys
      let hint := nsPmmLowMemoryReserve / nsPageSize
      let pmm := { pmm with
        nextHint := if hint ≥ pmm.frameCount then 0 else hint
        initialized := true }
      if nsPmmCheckInvariants pmm then .ok pmm else .error .ecorrupt

/-! ### Allocating and freeing -/

/-- `align_frame`. -/
def alignFrame (frame alignment : ℕ) : ℕ :=
  let mask := alignment - 1
  if frame > uint64Max - mask then uint64Max else (frame + mask) &&& not64 mask

/-- `span_is_free`. -/
def spanIsFree (first count limit : ℕ) : Bool :=
  if first > limit ∨ count > limit - first then false
  else (List.range count).all fun i => !pmm.allocatedBitmap.get (first + i)

/-- How far `find_run` skips: past the first occupied frame of the candidate. -/
def skipOccupied (frame count : ℕ) : ℕ :=
  match (List.range count).find? fun i => pmm.allocatedBitmap.get (frame + i) with
  | some i => i + 1
  | none => 1

/-- The loop of `find_run` at the candidate `frame`. Every round moves the candidate up, so
`finish - frame` rounds of fuel are enough. -/
def findRunFrom (pmm : Pmm) (finish count alignment : ℕ) : ℕ → ℕ → Option ℕ
  | 0, _ => none
  | fuel + 1, frame =>
    if frame < finish ∧ count ≤ finish - frame then
      if spanIsFree pmm frame count finish then some frame
      else findRunFrom pmm finish count alignment fuel
        (alignFrame (frame + skipOccupied pmm frame count) alignment)
    else none

/-- `find_run`. -/
def findRun (start finish count alignment : ℕ) : Option ℕ :=
  findRunFrom pmm finish count alignment (finish - start) (alignFrame start alignment)

/-- The search of `ns_pmm_alloc_pages`: above the hint first, then below it. -/
def searchRun (hint limit count alignment : ℕ) : Option ℕ :=
  match findRun pmm hint limit count alignment with
  | some candidate => some candidate
  | none => if hint ≠ 0 then findRun pmm 0 hint count alignment else none

/-- `ns_pmm_alloc_pages`. -/
def nsPmmAllocPages (count alignmentPages maxPhysExclusive : ℕ) : Except PmmError ℕ × Pmm :=
  if pmm.initialized = false ∨ count = 0 ∨ alignmentPages = 0 ∨
      alignmentPages &&& (alignmentPages - 1) ≠ 0 then (.error .einval, pmm)
  else if count > pmm.freeFrames then (.error .enospc, pmm)
  else
    let limit := if maxPhysExclusive ≠ 0 then min (maxPhysExclusive / nsPageSize) pmm.frameCount
      else pmm.frameCount
    let hint := if pmm.nextHint < limit then pmm.nextHint else 0
    match searchRun pmm hint limit count alignmentPages with
    | none => (.error .enospc, pmm)
    | some candidate =>
      let next := candidate + count
      (.ok (candidate * nsPageSize),
        { pmm with
          allocatedBitmap := pmm.allocatedBitmap.setRun candidate count
          freeFrames := pmm.freeFrames - count
          nextHint := if next ≥ pmm.frameCount then 0 else next })

/-- `ns_pmm_alloc_page`. -/
def nsPmmAllocPage : Except PmmError ℕ × Pmm := nsPmmAllocPages pmm 1 1 0

/-- The check of `ns_pmm_free_pages` on one frame. -/
def freeCheck (frame : ℕ) : Option PmmError :=
  if pmm.reservedBitmap.get frame then some .eperm
  else if pmm.allocatedBitmap.get frame = false then some .edoublefree
  else none

/-- `ns_pmm_free_pages`: all frames are checked before any is freed. -/
def nsPmmFreePages (phys count : ℕ) : Except PmmError Unit × Pmm :=
  if pmm.initialized = false ∨ count = 0 ∨ phys % nsPageSize ≠ 0 then (.error .einval, pmm)
  else
    let first := phys / nsPageSize
    if first ≥ pmm.frameCount ∨ count > pmm.frameCount - first then (.error .erange, pmm)
    else match (List.range' first count).findSome? (freeCheck pmm) with
      | some e => (.error e, pmm)
      | none =>
        (.ok (), { pmm with
          allocatedBitmap := pmm.allocatedBitmap.clearRun first count
          freeFrames := pmm.freeFrames + count
          nextHint := if first < pmm.nextHint then first else pmm.nextHint })

/-- `ns_pmm_free_page`. -/
def nsPmmFreePage (phys : ℕ) : Except PmmError Unit × Pmm := nsPmmFreePages pmm phys 1

/-- `ns_pmm_reserve_range`. -/
def nsPmmReserveRange (base length : ℕ) : Except PmmError Unit × Pmm :=
  if pmm.initialized = false ∨ length = 0 then (.error .einval, pmm)
  else if base ≥ pmm.managedLimit then (.error .erange, pmm)
  else (.ok (), reserveRangeUnlocked pmm base length)

/-- `ns_pmm_is_permanently_reserved`. -/
def nsPmmIsPermanentlyReserved (phys : ℕ) : Bool :=
  if pmm.initialized = false ∨ phys % nsPageSize ≠ 0 ∨ phys ≥ pmm.managedLimit then true
  else pmm.reservedBitmap.get (phys / nsPageSize)

end Northstar
