import Northstar.Lib.Bytes
import Northstar.Lib.Checked
import Northstar.Mm.BootInfo

/-! # Planning an ELF image

A model of `ns_elf64_plan` (`elf_loader.c`): the file header and the program headers are read from
a source of bytes, every load segment is checked against the configured bounds and against the
segments planned before it, and the result is the list of segments to map.

All arithmetic is done in words (`addWord`, `subWord`, `mulWord`), so a run also tells whether any
computation lost its exact value. -/

namespace Northstar

/-- `enum ns_elf_error`, as far as planning uses it. -/
inductive ElfError
  | io | truncated | magic | elfClass | endian | version | machine | elfType | header
  | programHeaders | unsupported | alignment | bounds | overflow | overlap | permissions | entry
  | tooLarge
  deriving DecidableEq, Repr

/-- Planning, with the note whether a computation has wrapped. -/
abbrev ElfM := EStateM ElfError Bool

/-- `struct ns_elf_source`: the bytes of the file, and which reads its callback answers. -/
structure ElfSource where
  bytes : List UInt8
  readable : ℕ → ℕ → Bool
  size_lt : bytes.length < 2 ^ 64

/-- `source->size`. -/
def ElfSource.size (source : ElfSource) : ℕ := source.bytes.length

/-- `struct ns_elf_config`. -/
structure ElfConfig where
  userMin : UInt64
  userMax : UInt64
  pageSize : UInt64
  dynamicBias : UInt64
  maxImageSize : UInt64
  maxSegments : UInt32
  allowDynamic : Bool
  allowWritableExecutable : Bool

/-- `struct ns_elf_segment`. -/
structure ElfSegment where
  address : ℕ
  memorySize : ℕ
  fileSize : ℕ
  fileOffset : ℕ
  mapAddress : ℕ
  mapSize : ℕ
  flags : ℕ
  deriving DecidableEq, Repr

/-- `struct ns_elf_image`; `segment_count` is the length of `segments`. -/
structure ElfImage where
  entry : ℕ
  imageStart : ℕ
  imageEnd : ℕ
  loadBias : ℕ
  segments : List ElfSegment
  deriving DecidableEq, Repr

/-- `struct elf64_ehdr`. -/
abbrev Elf64Ehdr := Bytes 64

namespace Elf64Ehdr

variable (eh : Elf64Ehdr)

abbrev ident (i : ℕ) : UInt8 := eh.get i
abbrev etype : ℕ := eh.le 16 2
abbrev machine : ℕ := eh.le 18 2
abbrev version : ℕ := eh.le 20 4
abbrev entry : ℕ := eh.le 24 8
abbrev phoff : ℕ := eh.le 32 8
abbrev ehsize : ℕ := eh.le 52 2
abbrev phentsize : ℕ := eh.le 54 2
abbrev phnum : ℕ := eh.le 56 2

end Elf64Ehdr

/-- `struct elf64_phdr`. -/
abbrev Elf64Phdr := Bytes 56

namespace Elf64Phdr

abbrev ptype (ph : Elf64Phdr) : ℕ := ph.le 0 4
abbrev flags (ph : Elf64Phdr) : ℕ := ph.le 4 4
abbrev offset (ph : Elf64Phdr) : ℕ := ph.le 8 8
abbrev vaddr (ph : Elf64Phdr) : ℕ := ph.le 16 8
abbrev filesz (ph : Elf64Phdr) : ℕ := ph.le 32 8
abbrev memsz (ph : Elf64Phdr) : ℕ := ph.le 40 8
abbrev align (ph : Elf64Phdr) : ℕ := ph.le 48 8

end Elf64Phdr

abbrev etExec : ℕ := 2
abbrev etDyn : ℕ := 3
abbrev emX8664 : ℕ := 62
abbrev ptLoad : ℕ := 1
abbrev ptDynamic : ℕ := 2
abbrev ptInterp : ℕ := 3

/-- `PF_X`, `PF_W`, `PF_R`: bit numbers of the flags of a program header. -/
abbrev pfX : ℕ := 0
abbrev pfW : ℕ := 1
abbrev pfR : ℕ := 2

/-- `NS_ELF_MAP_READ`, `…_WRITE`, `…_EXEC`, `…_USER`: bit numbers of the flags of a segment. -/
abbrev elfMapRead : ℕ := 0
abbrev elfMapWrite : ℕ := 1
abbrev elfMapExec : ℕ := 2
abbrev elfMapUser : ℕ := 3

/-- `NS_ELF_MAX_LOAD_SEGMENTS`. -/
abbrev elfMaxLoadSegments : ℕ := 32

/-! ### Helpers -/

/-- `add_overflow_u64`, as its callers use it. -/
def elfAdd (a b : ℕ) : ElfM ℕ := do
  let sum ← addWord 64 a b
  require (¬ sum < a) .overflow
  pure sum

/-- `mul_overflow_u64`, as its callers use it. -/
def elfMul (a b : ℕ) : ElfM ℕ := do
  require (¬ (a ≠ 0 ∧ b > uint64Max / a)) .overflow
  mulWord 64 a b

/-- `is_power_of_two`. -/
def isPowerOfTwo (value : ℕ) : ElfM Bool := do
  if value = 0 then pure false
  else
    let below ← subWord 64 value 1
    pure (decide (value &&& below = 0))

/-- `align_up`. -/
def elfAlignUp (value alignment : ℕ) : ElfM ℕ := do
  let mask ← subWord 64 alignment 1
  let limit ← subWord 64 uint64Max mask
  require (¬ value > limit) .overflow
  let sum ← addWord 64 value mask
  pure (sum &&& not64 mask)

/-- `range_in_file`. -/
def rangeInFile (source : ElfSource) (offset length : ℕ) : ElfM Bool := do
  if offset ≤ source.size then
    let rest ← subWord 64 source.size offset
    pure (decide (length ≤ rest))
  else pure false

/-- `source_read` of a record of `n` bytes. -/
def sourceRead (source : ElfSource) (offset n : ℕ) : ElfM (Bytes n) := do
  let inside ← rangeInFile source offset n
  require (inside = true) .truncated
  require (source.readable offset n = true) .io
  pure (Bytes.ofFn fun i => source.bytes.getD (offset + i) 0)

/-- `convert_flags`. -/
def convertFlags (flags : ℕ) : ℕ :=
  2 ^ elfMapUser ||| (if flags.testBit pfR then 2 ^ elfMapRead else 0) |||
    (if flags.testBit pfW then 2 ^ elfMapWrite else 0) |||
    (if flags.testBit pfX then 2 ^ elfMapExec else 0)

/-- `valid_config`. -/
def validConfig (config : ElfConfig) : ElfM Bool := do
  let power ← isPowerOfTwo config.pageSize.toNat
  pure (power && decide (config.pageSize.toNat ≥ 4096) &&
    decide (config.userMin.toNat < config.userMax.toNat) &&
    decide (config.maxSegments.toNat ≠ 0) &&
    decide (config.maxSegments.toNat ≤ elfMaxLoadSegments) &&
    decide (config.maxImageSize.toNat ≠ 0))

/-! ### The plan -/

/-- What has been planned so far. -/
structure ElfPlan where
  segments : List ElfSegment
  totalMapped : ℕ
  imageStart : ℕ
  imageEnd : ℕ

/-- The loop over the segments planned before: neither their memory nor their pages may meet those
of the new one. -/
def checkOverlap (segment : ElfSegment) (memoryEnd mapEnd : ℕ) : List ElfSegment → ElfM Unit
  | [] => pure ()
  | prior :: rest => do
    let priorEnd ← addWord 64 prior.address prior.memorySize
    let priorMapEnd ← addWord 64 prior.mapAddress prior.mapSize
    require (¬ (segment.address < priorEnd ∧ prior.address < memoryEnd)) .overlap
    require (¬ (segment.mapAddress < priorMapEnd ∧ prior.mapAddress < mapEnd)) .overlap
    checkOverlap segment memoryEnd mapEnd rest

/-- One round of the loop over the program headers, for a load segment that is not empty. -/
def planSegment (source : ElfSource) (config : ElfConfig) (bias : ℕ) (ph : Elf64Phdr)
    (plan : ElfPlan) : ElfM ElfPlan := do
  require (plan.segments.length < config.maxSegments.toNat) .tooLarge
  require (ph.filesz ≤ ph.memsz) .bounds
  let power ← (if ph.align ≠ 0 ∧ ph.align ≠ 1 then isPowerOfTwo ph.align else pure true : ElfM Bool)
  require (power = true) .alignment
  let aligned := if ph.align > 1 then ph.align else 1
  let low ← subWord 64 aligned 1
  require (ph.vaddr &&& low = ph.offset &&& low) .alignment
  let inside ← rangeInFile source ph.offset ph.filesz
  require (inside = true) .truncated
  require (¬ (ph.flags.testBit pfW = true ∧ ph.flags.testBit pfX = true ∧
    config.allowWritableExecutable = false)) .permissions
  let address ← elfAdd ph.vaddr bias
  let memoryEnd ← elfAdd address ph.memsz
  let _ ← elfAdd ph.offset ph.filesz
  require (¬ (address < config.userMin.toNat ∨ memoryEnd > config.userMax.toNat ∨
    memoryEnd ≤ address)) .bounds
  let pageMask ← subWord 64 config.pageSize.toNat 1
  let mapAddress := address &&& not64 pageMask
  let mapEnd ← elfAlignUp memoryEnd config.pageSize.toNat
  let mapSize ← subWord 64 mapEnd mapAddress
  let segment : ElfSegment :=
    { address := address, memorySize := ph.memsz, fileSize := ph.filesz, fileOffset := ph.offset,
      mapAddress := mapAddress, mapSize := mapSize, flags := convertFlags ph.flags }
  checkOverlap segment memoryEnd mapEnd plan.segments
  require (¬ mapSize > config.maxImageSize.toNat) .tooLarge
  let room ← subWord 64 config.maxImageSize.toNat mapSize
  require (¬ plan.totalMapped > room) .tooLarge
  let totalMapped ← addWord 64 plan.totalMapped mapSize
  pure
    { segments := plan.segments ++ [segment]
      totalMapped := totalMapped
      imageStart := if mapAddress < plan.imageStart then mapAddress else plan.imageStart
      imageEnd := if mapEnd > plan.imageEnd then mapEnd else plan.imageEnd }

/-- The loop over the program headers, with `rounds` rounds to go. -/
def planHeaders (source : ElfSource) (config : ElfConfig) (eh : Elf64Ehdr) (bias : ℕ) :
    ℕ → ℕ → ElfPlan → ElfM ElfPlan
  | 0, _, plan => pure plan
  | rounds + 1, index, plan => do
    let product ← elfMul index eh.phentsize
    let phOffset ← elfAdd eh.phoff product
    let ph : Elf64Phdr ← failAs .io (sourceRead source phOffset 56)
    require (¬ (ph.ptype = ptInterp ∨ ph.ptype = ptDynamic)) .unsupported
    let plan ←
      (if ph.ptype ≠ ptLoad ∨ ph.memsz = 0 then pure plan
       else planSegment source config bias ph plan : ElfM ElfPlan)
    let next ← addWord 16 index 1
    planHeaders source config eh bias rounds next plan

/-- The loop that looks for an executable segment with the entry point. -/
def findEntry (entry : ℕ) : List ElfSegment → ElfM Bool
  | [] => pure false
  | segment :: rest => do
    if segment.flags.testBit elfMapExec = true ∧ entry ≥ segment.address then
      let finish ← addWord 64 segment.address segment.memorySize
      if entry < finish then pure true else findEntry entry rest
    else findEntry entry rest

/-- The checks of the file header. -/
def checkHeader (config : ElfConfig) (eh : Elf64Ehdr) : ElfM Unit := do
  require (eh.ident 0 = 0x7f ∧ eh.ident 1 = 69 ∧ eh.ident 2 = 76 ∧ eh.ident 3 = 70) .magic
  require (eh.ident 4 = 2) .elfClass
  require (eh.ident 5 = 1) .endian
  require (eh.ident 6 = 1 ∧ eh.version = 1) .version
  require (eh.machine = emX8664) .machine
  require (eh.etype = etExec ∨ eh.etype = etDyn) .elfType
  require (¬ (eh.etype = etDyn ∧ config.allowDynamic = false)) .unsupported
  require (eh.ehsize = 64 ∧ eh.phentsize = 56 ∧ eh.phnum ≠ 0) .header

/-- `ns_elf64_plan`. -/
def nsElf64Plan (source : ElfSource) (config : ElfConfig) : ElfM ElfImage := do
  let valid ← validConfig config
  require (valid = true) .header
  let eh : Elf64Ehdr ← failAs .truncated (sourceRead source 0 64)
  checkHeader config eh
  let most ← addWord 32 config.maxSegments.toNat 16
  require (eh.phnum ≤ most) .programHeaders
  let phSize ← elfMul eh.phnum eh.phentsize
  let phEnd ← elfAdd eh.phoff phSize
  require (phEnd ≤ source.size) .truncated
  let bias := if eh.etype = etDyn then config.dynamicBias.toNat else 0
  let pageMask ← subWord 64 config.pageSize.toNat 1
  require (bias &&& pageMask = 0) .alignment
  let plan ← planHeaders source config eh bias eh.phnum 0
    { segments := [], totalMapped := 0, imageStart := config.userMax.toNat,
      imageEnd := config.userMin.toNat }
  require (plan.segments ≠ []) .programHeaders
  let entry ← elfAdd eh.entry bias
  let found ← findEntry entry plan.segments
  require (found = true) .entry
  pure
    { entry := entry, imageStart := plan.imageStart, imageEnd := plan.imageEnd, loadBias := bias,
      segments := plan.segments }

end Northstar
