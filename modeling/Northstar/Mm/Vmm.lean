import Northstar.Lib.Action
import Northstar.Mm.Pte

/-! # The virtual memory manager

A model of `vmm.c`: four-level page tables in physical memory, created and reclaimed on demand.
Physical memory is seen as pages of 512 words, and a table pointer is the physical address of its
page; `tablePointer` says which pages the direct map (or the `phys_to_virt` callback) reaches.
Every call runs under the manager's lock, so a call is one computation of `VmM`.

The callbacks `invalidate_page` and `activate_root` act on the processor. `Mmu` is what they act
on: the root in use, and the translations that may be cached since that root was activated or
since their page was last invalidated. A store to memory lets the processor see (and cache) the
translations of the new contents. `released` records every mapped frame that was given back to the
frame allocator, with the translations that could be cached at that moment. -/

namespace Northstar

/-- `NS_VMM_USER_TOP`. -/
abbrev nsVmmUserTop : ℕ := 0x0000800000000000

/-- A slot number of a table. -/
abbrev Index := Fin 512

/-- Physical memory: the word in slot `i` of the page at address `t`. -/
abbrev PhysMem := ℕ → Index → ℕ

/-- `enum ns_vmm_error`, without `NS_VMM_OK`. -/
inductive VmmError
  | einval | enomem | eexist | enoent | eperm | ecorrupt | enotsup
  deriving DecidableEq, Repr

/-- `struct ns_vmm_config`. The callback `phys_to_virt`, if present, is the set of ranges that it
maps; of the other two only their presence matters here. -/
structure VmmConfig where
  directMapBase : ℕ
  directMapSize : ℕ
  kernelRootPhys : ℕ
  physToVirt : Option (ℕ → ℕ → Bool)
  invalidatePage : Bool
  activateRoot : Bool

/-- The processor: the root in use, and which translations it may have cached. -/
structure Mmu where
  root : ℕ
  cached : ℕ → ℕ → Bool

/-- `struct ns_vmm`, with the frame allocator, physical memory and the processor. -/
structure Vmm where
  config : VmmConfig
  pmm : Pmm
  mem : PhysMem
  activeRootPhys : ℕ
  initialized : Bool
  mmu : Mmu
  released : List (ℕ × (ℕ → ℕ → Bool))

/-- `struct ns_vmm_space`. -/
structure VmmSpace where
  rootPhys : ℕ
  ownsRoot : Bool
  deriving DecidableEq, Repr

/-- Computations of the manager. -/
abbrev VmM := EStateM VmmError Vmm

/-! ### Addresses -/

/-- `canonical_address`. -/
def canonicalAddress (address : ℕ) : Bool :=
  decide (address < nsVmmUserTop) || decide (address ≥ kernelHalfBase)

/-- `table_index`. -/
def tableIndex (address level : ℕ) : Index := Fin.ofNat 512 (address / 2 ^ (12 + (level - 1) * 9))

/-- `phys_to_virt`, as whether it returns a pointer. -/
def physToVirt (config : VmmConfig) (phys length : ℕ) : Bool :=
  match config.physToVirt with
  | some callback => callback phys length
  | none =>
    !(decide (phys > config.directMapSize) || decide (length > config.directMapSize - phys) ||
      decide (config.directMapBase > uint64Max - phys))

/-- `table_pointer`, as whether it returns a pointer. -/
def tablePointer (config : VmmConfig) (phys : ℕ) : Bool :=
  decide (phys % nsPageSize = 0) && physToVirt config phys nsPageSize

/-! ### Memory and processor -/

/-- Memory with one word replaced. -/
def PhysMem.set (mem : PhysMem) (t : ℕ) (i : Index) (w : ℕ) : PhysMem :=
  fun t' i' => if t' = t ∧ i' = i then w else mem t' i'

/-- Memory with one page cleared. -/
def PhysMem.zero (mem : PhysMem) (t : ℕ) : PhysMem := fun t' i' => if t' = t then 0 else mem t' i'

/-- The page frame that the processor finds for the page at `virt`, by walking `level` levels of
tables from `table`. -/
def hwTranslate (mem : PhysMem) (virt : ℕ) : ℕ → ℕ → Option ℕ
  | 0, _ => none
  | level + 1, table =>
    let entry := mem table (tableIndex virt (level + 1))
    if entry.testBit ptePresent = false then none
    else if level + 1 = 3 ∧ entry.testBit pteHuge then
      some ((entry &&& pte1gAddr) + virt % 2 ^ 30 / nsPageSize * nsPageSize)
    else if level + 1 = 2 ∧ entry.testBit pteHuge then
      some ((entry &&& pte2mAddr) + virt % 2 ^ 21 / nsPageSize * nsPageSize)
    else if level + 1 = 1 then some (entry &&& pteAddr)
    else hwTranslate mem virt level (entry &&& pteAddr)

/-- The address of a page: aligned, and canonical as a 64-bit address. -/
def isPage (virt : ℕ) : Bool :=
  decide (virt % nsPageSize = 0) && decide (virt < 2 ^ 64) && canonicalAddress virt

/-- The processor may cache what the memory now says under its root. -/
def Mmu.observe (mmu : Mmu) (mem : PhysMem) : Mmu :=
  { mmu with
    cached := fun virt frame =>
      mmu.cached virt frame ||
        (isPage virt && decide (hwTranslate mem virt 4 mmu.root = some frame)) }

/-- `invalidate_page`: what was cached for the page is gone. -/
def Mmu.invalidate (mmu : Mmu) (mem : PhysMem) (page : ℕ) : Mmu :=
  Mmu.observe
    { mmu with cached := fun virt frame => decide (virt ≠ page) && mmu.cached virt frame } mem

/-- `activate_root`: everything that was cached is gone. -/
def Mmu.activate (mem : PhysMem) (root : ℕ) : Mmu :=
  Mmu.observe { root := root, cached := fun _ _ => false } mem

variable (s : Vmm) (space : VmmSpace)

namespace Vmm

/-- Store a word. -/
def store (t : ℕ) (i : Index) (w : ℕ) : Vmm :=
  { s with mem := s.mem.set t i w, mmu := s.mmu.observe (s.mem.set t i w) }

/-- `bytes_zero` on a page. -/
def zeroPage (t : ℕ) : Vmm :=
  { s with mem := s.mem.zero t, mmu := s.mmu.observe (s.mem.zero t) }

/-- `ns_pmm_free_page` on a table, or on a frame that was never mapped; the source ignores its
status. -/
def freePage (phys : ℕ) : Vmm := { s with pmm := (nsPmmFreePage s.pmm phys).2 }

/-- `ns_pmm_free_page` on a mapped frame; the source ignores its status. -/
def freeMapped (phys : ℕ) : Vmm :=
  { s with
    pmm := (nsPmmFreePage s.pmm phys).2
    released := (phys, s.mmu.cached) :: s.released }

/-- The call of `invalidate_page`, made only if the space is the active one. -/
def invalidate (root virt : ℕ) : Vmm :=
  if s.config.invalidatePage = true ∧ s.activeRootPhys = root then
    { s with mmu := s.mmu.invalidate s.mem virt }
  else s

/-- The call of `activate_root` when it succeeds. -/
def activateRoot (root : ℕ) : Vmm := { s with mmu := Mmu.activate s.mem root }

end Vmm

/-! ### Spaces -/

/-- `allocate_table`. -/
def allocateTable : VmM ℕ := fun s =>
  match nsPmmAllocPage s.pmm with
  | (.error _, pmm) => .error .enomem { s with pmm := pmm }
  | (.ok phys, pmm) =>
    let s := { s with pmm := pmm }
    if tablePointer s.config phys then .ok phys (s.zeroPage phys)
    else .error .ecorrupt (s.freePage phys)

/-- `ns_vmm_init`. The processor is already running on the kernel's root. -/
def nsVmmInit (config : VmmConfig) (pmm : Pmm) (mem : PhysMem) (mmu : Mmu) :
    Except VmmError (Vmm × VmmSpace) :=
  if pmm.initialized = false ∨ config.kernelRootPhys = 0 ∨
      config.kernelRootPhys % nsPageSize ≠ 0 ∨ config.directMapBase < kernelHalfBase ∨
      config.directMapSize = 0 ∨ config.directMapBase % nsPageSize ≠ 0 then .error .einval
  else if tablePointer config config.kernelRootPhys = false then .error .ecorrupt
  else .ok
    ({ config := config, pmm := pmm, mem := mem, activeRootPhys := config.kernelRootPhys,
       initialized := true, mmu := mmu, released := [] },
     { rootPhys := config.kernelRootPhys, ownsRoot := false })

/-- The slots of the upper half, which every owned root shares with the kernel's. -/
def upperSlots : List Index := (List.finRange 512).filter fun i => decide (256 ≤ i.val)

/-- `ns_vmm_create_space`. -/
def nsVmmCreateSpace : VmM VmmSpace := do
  let s ← get
  require (s.initialized = true) .einval
  let root ← allocateTable
  let s ← get
  if tablePointer s.config s.config.kernelRootPhys then
    set (upperSlots.foldl (fun s i => s.store root i (s.mem s.config.kernelRootPhys i)) s)
    pure { rootPhys := root, ownsRoot := true }
  else
    set (s.freePage root)
    throw .ecorrupt

/-- `table_empty`. -/
def tableEmpty (mem : PhysMem) (t : ℕ) : Bool :=
  (List.finRange 512).all fun i => !(mem t i).testBit ptePresent

/-- `destroy_table_level`, for the first `limit` slots of a table that is `level` levels above the
pages. -/
def destroyTableLevel : ℕ → ℕ → ℕ → Vmm → Vmm
  | 0, _, _, s => s
  | level + 1, table, limit, s =>
    if tablePointer s.config table = false then s
    else (List.finRange 512).foldl (fun s i =>
      let entry := s.mem table i
      if limit ≤ i.val ∨ entry.testBit ptePresent = false then s
      else if level = 0 ∨ entry.testBit pteHuge = true then
        let s := if entry.testBit pteOwned then s.freeMapped (entry &&& pteAddr) else s
        s.store table i 0
      else
        ((destroyTableLevel level (entry &&& pteAddr) 512 s).freePage (entry &&& pteAddr)).store
          table i 0) s

/-- `ns_vmm_destroy_space`; `answer` is what `activate_root` answers if it is called. The result
is what becomes of the caller's record. -/
def nsVmmDestroySpace (answer : Bool) (s : Vmm) : VmmSpace × Vmm :=
  if s.initialized = false ∨ space.rootPhys = 0 ∨ space.ownsRoot = false then (space, s)
  else
    -- Only the lower half is private; the upper half aliases kernel tables.
    let s := (destroyTableLevel 4 space.rootPhys 256 s).freePage space.rootPhys
    let s :=
      if s.activeRootPhys = space.rootPhys then
        let s := { s with activeRootPhys := s.config.kernelRootPhys }
        if s.config.activateRoot = true ∧ answer = true then s.activateRoot s.activeRootPhys else s
      else s
    ({ rootPhys := 0, ownsRoot := false }, s)

/-- `ns_vmm_activate`; `answer` is what `activate_root` answers. -/
def nsVmmActivate (answer : Bool) : VmM Unit := do
  let s ← get
  require (s.initialized = true ∧ space.rootPhys ≠ 0 ∧ s.config.activateRoot = true) .einval
  require (answer = true) .ecorrupt
  set { s.activateRoot space.rootPhys with activeRootPhys := space.rootPhys }

/-! ### Mapping -/

/-- The rollback of `walk_create_leaf`: the tables created so far, the last one first, each with
the slot that refers to it. -/
def undoCreated : List (ℕ × Index × ℕ) → Vmm → Vmm
  | [], s => s
  | (t, i, child) :: created, s => undoCreated created ((s.store t i 0).freePage child)

/-- The loop of `walk_create_leaf` at `table`, with `level` levels of tables still to pass. -/
def walkCreateFrom (virt flags : ℕ) : ℕ → ℕ → List (ℕ × Index × ℕ) → VmM (ℕ × Index)
  | 0, table, _ => pure (table, tableIndex virt 1)
  | level + 1, table, created => do
    let i := tableIndex virt (level + 2)
    let s ← get
    let entry := s.mem table i
    if entry.testBit ptePresent = false then
      match ← observe allocateTable with
      | .error e =>
        modify (undoCreated created)
        throw e
      | .ok child =>
        let link := child ||| 2 ^ ptePresent ||| 2 ^ pteWrite
        modify fun s => s.store table i link
        if flags.testBit pageUser then
          modify fun s => s.store table i (link ||| 2 ^ pteUser)
        walkCreateFrom virt flags level child ((table, i, child) :: created)
    else if entry.testBit pteHuge then throw .eexist
    else
      if flags.testBit pageUser then
        modify fun s => s.store table i (entry ||| 2 ^ pteUser)
      require (tablePointer s.config (entry &&& pteAddr) = true) .ecorrupt
      walkCreateFrom virt flags level (entry &&& pteAddr) created

/-- `walk_create_leaf`. -/
def walkCreateLeaf (virt flags : ℕ) : VmM (ℕ × Index) := do
  let s ← get
  require (tablePointer s.config space.rootPhys = true) .ecorrupt
  walkCreateFrom virt flags 3 space.rootPhys []

/-- `map_unlocked`. -/
def mapUnlocked (virt phys flags : ℕ) : VmM Unit := do
  let s ← get
  require (canonicalAddress virt = true ∧ virt % nsPageSize = 0 ∧ phys % nsPageSize = 0 ∧
    phys < s.pmm.managedLimit) .einval
  require (¬ (space.ownsRoot = true ∧ virt ≥ kernelHalfBase)) .eperm
  require (¬ (flags.testBit pageUser = true ∧
    (virt ≥ nsVmmUserTop ∨ nsPmmIsPermanentlyReserved s.pmm phys = true))) .eperm
  let (table, i) ← walkCreateLeaf space virt flags
  let s ← get
  require ((s.mem table i).testBit ptePresent = false) .eexist
  modify fun s => (s.store table i (entryFromFlags phys flags)).invalidate space.rootPhys virt

/-- `ns_vmm_map`. -/
def nsVmmMap (virt phys flags : ℕ) : VmM Unit := do
  let s ← get
  require (s.initialized = true ∧ space.rootPhys ≠ 0) .einval
  mapUnlocked space virt phys flags

/-- `validate_page_range`: the end of the range, if it is valid. -/
def validatePageRange (virt length : ℕ) : Option ℕ :=
  if length = 0 ∨ virt % nsPageSize ≠ 0 ∨ canonicalAddress virt = false ∨
      length > uint64Max - (nsPageSize - 1) then none
  else
    let rounded := (length + nsPageSize - 1) &&& not64 (nsPageSize - 1)
    let sum := addOverflowU64 virt rounded
    if sum.2 = true ∨ sum.1 ≤ virt ∨ canonicalAddress (sum.1 - 1) = false then none
    else some sum.1

/-! ### Unmapping -/

/-- The loop of `walk_leaf` at `table`, with `level` levels of tables still to pass; the result
is the slots passed, the leaf first. -/
def walkLeafFrom (config : VmmConfig) (mem : PhysMem) (virt : ℕ) :
    ℕ → ℕ → List (ℕ × Index) → Except VmmError (List (ℕ × Index))
  | 0, table, above =>
    let i := tableIndex virt 1
    if (mem table i).testBit ptePresent = false then .error .enoent else .ok ((table, i) :: above)
  | level + 1, table, above =>
    let i := tableIndex virt (level + 2)
    let entry := mem table i
    if entry.testBit ptePresent = false then .error .enoent
    else if entry.testBit pteHuge then .error .enotsup
    else if tablePointer config (entry &&& pteAddr) = false then .error .ecorrupt
    else walkLeafFrom config mem virt level (entry &&& pteAddr) ((table, i) :: above)

/-- `walk_leaf`. -/
def walkLeaf (virt : ℕ) : Except VmmError (List (ℕ × Index)) :=
  if tablePointer s.config space.rootPhys = false then .error .ecorrupt
  else walkLeafFrom s.config s.mem virt 3 space.rootPhys []

/-- The reclaiming loop of `unmap_unlocked` over the slots passed, the leaf first: a table that has
become empty is taken out of the slot above it. -/
def reclaimEmpty : List (ℕ × Index) → Vmm → Vmm
  | (t, _) :: (parent, i) :: above, s =>
    if tableEmpty s.mem t then
      let parentEntry := s.mem parent i
      reclaimEmpty ((parent, i) :: above)
        ((s.store parent i 0).freePage (parentEntry &&& pteAddr))
    else s
  | _, s => s

/-- What `unmap_unlocked` does once it has found the leaf. -/
def clearLeaf (root virt : ℕ) (releaseOwned : Bool) (slots : List (ℕ × Index)) (s : Vmm) : Vmm :=
  match slots with
  | [] => s
  | (table, i) :: _ =>
    let old := s.mem table i
    let s := (s.store table i 0).invalidate root virt
    let s := if releaseOwned = true ∧ old.testBit pteOwned = true then
      s.freeMapped (old &&& pteAddr) else s
    reclaimEmpty slots s

/-- `unmap_unlocked`. -/
def unmapUnlocked (virt : ℕ) (releaseOwned : Bool) : VmM Unit := do
  require (¬ (space.ownsRoot = true ∧ virt ≥ kernelHalfBase)) .eperm
  let s ← get
  let slots ← liftExcept (walkLeaf s space virt)
  modify (clearLeaf space.rootPhys virt releaseOwned slots)

/-- `ns_vmm_unmap`. -/
def nsVmmUnmap (virt : ℕ) (releaseOwned : Bool) : VmM Unit := do
  let s ← get
  require (s.initialized = true ∧ virt % nsPageSize = 0 ∧ canonicalAddress virt = true) .einval
  unmapUnlocked space virt releaseOwned

/-- The loop of `ns_vmm_unmap_range` over `pages` pages from `address`, with the first error
met. -/
def unmapPages (space : VmmSpace) (releaseOwned : Bool) :
    ℕ → ℕ → Option VmmError → VmM (Option VmmError)
  | 0, _, first => pure first
  | pages + 1, address, first => do
    match ← observe (nsVmmUnmap space address releaseOwned) with
    | .ok _ => unmapPages space releaseOwned pages (address + nsPageSize) first
    | .error e =>
      unmapPages space releaseOwned pages (address + nsPageSize)
        (if e ≠ .enoent ∧ first = none then some e else first)

/-- `ns_vmm_unmap_range`. -/
def nsVmmUnmapRange (virt length : ℕ) (releaseOwned : Bool) : VmM Unit := do
  if length = 0 then pure ()
  else match validatePageRange virt length with
    | none => throw .einval
    | some finish =>
      match ← unmapPages space releaseOwned ((finish - virt) / nsPageSize) virt none with
      | none => pure ()
      | some e => throw e

/-- The loop of `ns_vmm_map_range` over `pages` more pages, with `mapped` bytes done. -/
def mapPages (space : VmmSpace) (virt phys flags : ℕ) : ℕ → ℕ → VmM Unit
  | 0, _ => pure ()
  | pages + 1, mapped => do
    match ← observe (nsVmmMap space (virt + mapped) (phys + mapped) flags) with
    | .ok _ => mapPages space virt phys flags pages (mapped + nsPageSize)
    | .error e =>
      let _ ← observe (nsVmmUnmapRange space virt mapped false)
      throw e

/-- `ns_vmm_map_range`. -/
def nsVmmMapRange (virt phys length flags : ℕ) : VmM Unit := do
  require (phys % nsPageSize = 0) .einval
  match validatePageRange virt length with
  | none => throw .einval
  | some finish =>
    require (phys ≤ uint64Max - (finish - virt - 1)) .einval
    mapPages space virt phys flags ((finish - virt) / nsPageSize) 0

/-- The loop of `ns_vmm_alloc_map` over `pages` more pages, with `mapped` bytes done. -/
def allocMapPages (space : VmmSpace) (virt flags : ℕ) : ℕ → ℕ → VmM Unit
  | 0, _ => pure ()
  | pages + 1, mapped => do
    let s ← get
    match nsPmmAllocPage s.pmm with
    | (.error _, pmm) =>
      set { s with pmm := pmm }
      let _ ← observe (nsVmmUnmapRange space virt mapped true)
      throw .enomem
    | (.ok phys, pmm) =>
      set { s with pmm := pmm }
      match ← observe (nsVmmMap space (virt + mapped) phys (flags ||| 2 ^ pageOwned)) with
      | .error e =>
        modify fun s => s.freePage phys
        let _ ← observe (nsVmmUnmapRange space virt mapped true)
        throw e
      | .ok _ =>
        if physToVirt s.config phys nsPageSize then
          modify fun s => s.zeroPage phys
          allocMapPages space virt flags pages (mapped + nsPageSize)
        else
          let _ ← observe (nsVmmUnmap space (virt + mapped) true)
          let _ ← observe (nsVmmUnmapRange space virt mapped true)
          throw .ecorrupt

/-- `ns_vmm_alloc_map`. -/
def nsVmmAllocMap (virt length flags : ℕ) : VmM Unit := do
  match validatePageRange virt length with
  | none => throw .einval
  | some finish => allocMapPages space virt flags ((finish - virt) / nsPageSize) 0

/-! ### Translating and protecting -/

/-- The permissions in effect along a walk: `WRITE` and `USER` need every level, `NX` needs one. -/
structure Effective where
  write : Bool
  user : Bool
  nx : Bool

/-- `effective` after one more entry. -/
def Effective.narrow (e : Effective) (entry : ℕ) : Effective :=
  { write := e.write && entry.testBit pteWrite
    user := e.user && entry.testBit pteUser
    nx := e.nx || entry.testBit pteNx }

/-- Clear a bit of a word. -/
def clearIf (c : Bool) (bit word : ℕ) : ℕ := if c then word ^^^ (word &&& 2 ^ bit) else word

/-- The flags reported for a leaf: its own, without those that an upper level takes away. -/
def Effective.flags (e : Effective) (entry : ℕ) : ℕ :=
  clearIf e.nx pageExec (clearIf (!e.user) pageUser (clearIf (!e.write) pageWrite
    (flagsFromEntry entry)))

/-- The loop of `translate_unlocked` at `table`, `level` levels above the pages. -/
def translateFrom (config : VmmConfig) (mem : PhysMem) (virt : ℕ) :
    ℕ → ℕ → Effective → Except VmmError (ℕ × ℕ)
  | 0, _, _ => .error .ecorrupt
  | level + 1, table, effective =>
    let entry := mem table (tableIndex virt (level + 1))
    if entry.testBit ptePresent = false then .error .enoent
    else
      let effective := effective.narrow entry
      if level + 1 = 3 ∧ entry.testBit pteHuge then
        .ok ((entry &&& pte1gAddr) ||| (virt % 2 ^ 30), effective.flags entry)
      else if level + 1 = 2 ∧ entry.testBit pteHuge then
        .ok ((entry &&& pte2mAddr) ||| (virt % 2 ^ 21), effective.flags entry)
      else if level + 1 = 1 then
        .ok ((entry &&& pteAddr) ||| (virt % nsPageSize), effective.flags entry)
      else if tablePointer config (entry &&& pteAddr) = false then .error .ecorrupt
      else translateFrom config mem virt level (entry &&& pteAddr) effective

/-- `translate_unlocked`. -/
def translateUnlocked (virt : ℕ) : Except VmmError (ℕ × ℕ) :=
  if tablePointer s.config space.rootPhys = false then .error .ecorrupt
  else translateFrom s.config s.mem virt 4 space.rootPhys
    { write := true, user := true, nx := false }

/-- `ns_vmm_translate`: the address and the flags. -/
def nsVmmTranslate (virt : ℕ) : Except VmmError (ℕ × ℕ) :=
  if s.initialized = false ∨ canonicalAddress virt = false then .error .einval
  else translateUnlocked s space virt

/-- The entry that `ns_vmm_protect` writes over `old`: `OWNED` is kept. -/
def protectedEntry (old flags : ℕ) : ℕ :=
  orIf (old.testBit pteOwned) pteOwned (entryFromFlags (old &&& pteAddr) flags)

/-- The loop of `ns_vmm_protect` over `pages` pages from `address`. -/
def protectPages (space : VmmSpace) (flags : ℕ) : ℕ → ℕ → VmM Unit
  | 0, _ => pure ()
  | pages + 1, address => do
    let s ← get
    match ← liftExcept (walkLeaf s space address) with
    | [] => throw .ecorrupt
    | (table, i) :: _ =>
      let old := s.mem table i
      require (¬ (flags.testBit pageUser = true ∧ (old.testBit pteUser = false ∨
        nsPmmIsPermanentlyReserved s.pmm (old &&& pteAddr) = true))) .eperm
      modify fun s =>
        (s.store table i (protectedEntry old flags)).invalidate space.rootPhys address
      protectPages space flags pages (address + nsPageSize)

/-- `ns_vmm_protect`. -/
def nsVmmProtect (virt length flags : ℕ) : VmM Unit := do
  match validatePageRange virt length with
  | none => throw .einval
  | some finish =>
    require (¬ (space.ownsRoot = true ∧ virt ≥ kernelHalfBase)) .eperm
    protectPages space flags ((finish - virt) / nsPageSize) virt

end Northstar
