import Northstar.Lib.Bytes
import Northstar.Lib.Word

/-! # Boot information

The hand-over record of stage 2 (`boot_info.h`): a packed record of 192 bytes, and the E820 memory
map it points to. The record is the buffer itself with its fields at their ABI offsets, so the
checksum over its 32-bit words and its fields read the same bytes. The memory map is the byte
stream at `e820_entries_phys`, and `entryAt` reads the record at a multiple of the entry size the
boot information announces. -/

namespace Northstar

/-- `NS_PAGE_SIZE`. -/
abbrev nsPageSize : ℕ := 4096

/-- `UINT64_MAX`. -/
abbrev uint64Max : ℕ := 2 ^ 64 - 1

/-- `NS_VMM_KERNEL_HALF_BASE`, which the validation spells as a literal. -/
abbrev kernelHalfBase : ℕ := 0xffff800000000000

/-- The hand-over record. -/
abbrev BootInfo := Bytes 192

namespace BootInfo

variable (b : BootInfo)

abbrev magic : ℕ := b.le 0 8
abbrev version : ℕ := b.le 8 4
abbrev size : ℕ := b.le 12 4
abbrev flags : ℕ := b.le 20 4
abbrev e820EntriesPhys : ℕ := b.le 32 8
abbrev e820EntryCount : ℕ := b.le 40 4
abbrev e820EntrySize : ℕ := b.le 44 4
abbrev kernelPhysBase : ℕ := b.le 48 8
abbrev kernelVirtBase : ℕ := b.le 56 8
abbrev kernelSize : ℕ := b.le 64 8
abbrev pml4Phys : ℕ := b.le 72 8
abbrev initrdPhysBase : ℕ := b.le 80 8
abbrev initrdSize : ℕ := b.le 88 8
abbrev directMapBase : ℕ := b.le 96 8
abbrev bootloaderPhysBase : ℕ := b.le 104 8
abbrev bootloaderSize : ℕ := b.le 112 8
abbrev pageTablesPhysBase : ℕ := b.le 120 8
abbrev pageTablesSize : ℕ := b.le 128 8
abbrev bootInfoPhys : ℕ := b.le 136 8
abbrev framebufferPhysBase : ℕ := b.le 144 8
abbrev framebufferSize : ℕ := b.le 152 8
abbrev directMapSize : ℕ := b.le 168 8

end BootInfo

/-- `NORTHSTAR_BOOT_F_E820`, `…_FRAMEBUFFER`, `…_INITRD`, `…_CHECKSUM`: bit numbers of `flags`. -/
abbrev bootFlagE820 : ℕ := 0
abbrev bootFlagFramebuffer : ℕ := 1
abbrev bootFlagInitrd : ℕ := 2
abbrev bootFlagChecksum : ℕ := 4

/-- `add_overflow_u64`: the wrapped sum and whether it wrapped. -/
def addOverflowU64 (a b : ℕ) : ℕ × Bool :=
  let sum := (a + b) % 2 ^ 64
  (sum, decide (sum < a))

/-- A sum of 64-bit words that fits does not overflow. -/
lemma addOverflowU64_of_lt {a b : ℕ} (h : a + b < 2 ^ 64) :
    addOverflowU64 a b = (a + b, false) := by
  unfold addOverflowU64
  rw [Nat.mod_eq_of_lt h]
  simp

/-- A sum of 64-bit words that does not fit overflows. -/
lemma addOverflowU64_of_le {a b : ℕ} (ha : a < 2 ^ 64) (hb : b < 2 ^ 64) (h : 2 ^ 64 ≤ a + b) :
    (addOverflowU64 a b).2 = true := by
  have hsum : (a + b) % 2 ^ 64 = a + b - 2 ^ 64 := by
    rw [Nat.mod_eq_sub_mod h, Nat.mod_eq_of_lt (by omega)]
  have hlt : (a + b) % 2 ^ 64 < a := by omega
  simpa [addOverflowU64] using hlt

/-- The sum of the record's 32-bit words, which the checksum word makes zero. -/
def bootInfoSum (boot : BootInfo) : ℕ :=
  ((List.range (boot.size / 4)).map fun i => boot.le (4 * i) 4).sum % 2 ^ 32

/-- `ns_boot_info_validate`, with `true` for `NS_PMM_OK` and `false` for `NS_PMM_ECORRUPT`. -/
def nsBootInfoValidate (boot : BootInfo) : Bool :=
  let kernelPhysEnd := addOverflowU64 boot.kernelPhysBase boot.kernelSize
  let kernelVirtEnd := addOverflowU64 boot.kernelVirtBase boot.kernelSize
  let e820Bytes := boot.e820EntryCount * boot.e820EntrySize
  decide (boot.magic = 0x544f4f425254534e) && decide (boot.version = 1) &&
  decide (boot.size = 192) &&
  boot.flags.testBit bootFlagE820 && decide (boot.e820EntriesPhys ≠ 0) &&
  decide (boot.e820EntryCount ≠ 0) && decide (boot.e820EntryCount ≤ 4096) &&
  decide (20 ≤ boot.e820EntrySize) && decide (boot.e820EntrySize ≤ 64) &&
  decide (boot.kernelSize ≠ 0) && decide (boot.kernelPhysBase % nsPageSize = 0) &&
  decide (boot.kernelVirtBase % nsPageSize = 0) && !kernelPhysEnd.2 && !kernelVirtEnd.2 &&
  decide (kernelHalfBase ≤ boot.kernelVirtBase) && decide (kernelHalfBase ≤ kernelVirtEnd.1) &&
  decide (boot.directMapSize ≠ 0) && decide (boot.directMapSize % nsPageSize = 0) &&
  decide (boot.directMapBase ≤ uint64Max - (boot.directMapSize - 1)) &&
  decide (kernelHalfBase ≤ boot.directMapBase + boot.directMapSize - 1) &&
  decide (kernelPhysEnd.1 ≤ boot.directMapSize) && decide (boot.pml4Phys ≠ 0) &&
  decide (boot.pml4Phys % nsPageSize = 0) &&
  decide (boot.pml4Phys ≤ boot.directMapSize - nsPageSize) &&
  decide (boot.directMapBase % nsPageSize = 0) && decide (kernelHalfBase ≤ boot.directMapBase) &&
  decide (boot.e820EntriesPhys < boot.directMapSize) &&
  decide (e820Bytes ≤ boot.directMapSize - boot.e820EntriesPhys) &&
  decide (boot.bootInfoPhys < boot.directMapSize) &&
  decide (boot.size ≤ boot.directMapSize - boot.bootInfoPhys) &&
  (decide (boot.pageTablesSize = 0) ||
    (decide (boot.pageTablesPhysBase % nsPageSize = 0) &&
     decide (boot.pageTablesSize % nsPageSize = 0) &&
     decide (boot.pageTablesPhysBase < boot.directMapSize) &&
     decide (boot.pageTablesSize ≤ boot.directMapSize - boot.pageTablesPhysBase) &&
     decide (boot.pageTablesPhysBase ≤ boot.pml4Phys) &&
     decide (boot.pml4Phys - boot.pageTablesPhysBase < boot.pageTablesSize))) &&
  (!boot.flags.testBit bootFlagChecksum || decide (bootInfoSum boot = 0))

/-! ### The memory map -/

/-- `struct northstar_e820_entry`. -/
structure E820Entry where
  base : ℕ
  length : ℕ
  type : ℕ
  attributes : ℕ
  deriving DecidableEq, Repr

/-- `NORTHSTAR_E820_USABLE`. -/
abbrev e820Usable : ℕ := 1

/-- `entry_at`: entries lie `e820_entry_size` bytes apart in the byte stream of the map. -/
def entryAt (boot : BootInfo) (entries : ℕ → UInt8) (index : ℕ) : E820Entry :=
  let at' off w := leNat (fun i => entries (index * boot.e820EntrySize + off + i)) w
  { base := at' 0 8, length := at' 8 8, type := at' 16 4, attributes := at' 20 4 }

/-- `entry_enabled`: zero attributes denote a legacy response without the attribute word. -/
def entryEnabled (entry : E820Entry) : Bool :=
  decide (entry.attributes = 0) || entry.attributes.testBit 0

section

variable (boot : BootInfo) (entries : ℕ → UInt8) (i : ℕ)

/-- The base of a map entry is a 64-bit word. -/
lemma entryAt_base_lt : (entryAt boot entries i).base < 2 ^ 64 := leNat_lt _ _

/-- The length of a map entry is a 64-bit word. -/
lemma entryAt_length_lt : (entryAt boot entries i).length < 2 ^ 64 := leNat_lt _ _

end

end Northstar
