import Northstar.Nsfs.Journal

/-! # The layout of a volume

The numbers that fix where everything is: they are computed once, when a volume is formatted, and
every superblock of the volume repeats them. `Layout.Ok` collects the linear facts that the region
arithmetic of all later proofs rests on, and `Superblock.Describes` says that a superblock repeats
a layout. A store to one of the fields that change during the life of a volume (counters, state,
time stamps, checksum) keeps the layout described, `Describes.putLe`. -/

namespace Northstar

/-- The numbers `nsfs_format` computes before it writes anything. -/
structure Layout where
  totalBlocks : ℕ
  inodeCount : ℕ
  journalBlocks : ℕ
  inodeBitmapBlocks : ℕ
  blockBitmapBlocks : ℕ
  inodeTableBlocks : ℕ

namespace Layout

def inodeBitmapStart (l : Layout) : ℕ := 2 + l.journalBlocks
def blockBitmapStart (l : Layout) : ℕ := l.inodeBitmapStart + l.inodeBitmapBlocks
def inodeTableStart (l : Layout) : ℕ := l.blockBitmapStart + l.blockBitmapBlocks
def dataStart (l : Layout) : ℕ := l.inodeTableStart + l.inodeTableBlocks
def journalEntries (l : Layout) : ℕ := min (l.journalBlocks - 1) 128

/-- The layouts of volumes that `nsfs_mount` accepts. -/
structure Ok (l : Layout) : Prop where
  journal : 9 ≤ l.journalBlocks
  inodes : 2 ≤ l.inodeCount
  inodeBitmap : l.inodeBitmapBlocks = nsfsDivCeil l.inodeCount 32768
  blockBitmap : l.blockBitmapBlocks = nsfsDivCeil l.totalBlocks 32768
  inodeTable : l.inodeTableBlocks = nsfsDivCeil (l.inodeCount * 128) 4096
  data : l.dataStart < l.totalBlocks
  total : l.totalBlocks ≤ 0xffffffff

end Layout

/-- `nsfs_div_ceil` rounds up. -/
lemma nsfsDivCeil_mul_ge {value divisor : ℕ} (h : 0 < divisor) :
    value ≤ nsfsDivCeil value divisor * divisor := by
  unfold nsfsDivCeil
  have hd := Nat.div_add_mod value divisor
  have hm := Nat.mod_lt value h
  split
  · rw [Nat.add_mul, Nat.mul_comm]; omega
  · rw [Nat.add_mul, Nat.mul_comm]; omega

namespace Layout

variable {l : Layout}

/-- The order and the sizes of the regions, for linear arithmetic. -/
lemma Ok.regions (h : l.Ok) :
    l.inodeBitmapStart = 2 + l.journalBlocks ∧
    l.blockBitmapStart = l.inodeBitmapStart + l.inodeBitmapBlocks ∧
    l.inodeTableStart = l.blockBitmapStart + l.blockBitmapBlocks ∧
    l.dataStart = l.inodeTableStart + l.inodeTableBlocks ∧
    l.dataStart < l.totalBlocks ∧ l.totalBlocks ≤ 0xffffffff ∧ 9 ≤ l.journalBlocks ∧
    l.inodeCount ≤ l.inodeBitmapBlocks * 32768 ∧ l.totalBlocks ≤ l.blockBitmapBlocks * 32768 ∧
    l.inodeCount * 128 ≤ l.inodeTableBlocks * 4096 := by
  have hi : l.inodeCount ≤ l.inodeBitmapBlocks * 32768 := by
    rw [h.inodeBitmap]; exact nsfsDivCeil_mul_ge (by norm_num)
  have hb : l.totalBlocks ≤ l.blockBitmapBlocks * 32768 := by
    rw [h.blockBitmap]; exact nsfsDivCeil_mul_ge (by norm_num)
  have ht : l.inodeCount * 128 ≤ l.inodeTableBlocks * 4096 := by
    rw [h.inodeTable]; exact nsfsDivCeil_mul_ge (by norm_num)
  exact ⟨rfl, rfl, rfl, rfl, h.data, h.total, h.journal, hi, hb, ht⟩

/-- The bitmap block of an inode lies in the inode bitmap. -/
lemma Ok.inodeBitmap_mem (h : l.Ok) {i : ℕ} (hi : i < l.inodeBitmapBlocks * 32768) :
    l.inodeBitmapStart ≤ l.inodeBitmapStart + i / 32768 ∧
      l.inodeBitmapStart + i / 32768 < l.blockBitmapStart := by
  have := h.regions
  omega

/-- The bitmap block of a block lies in the block bitmap. -/
lemma Ok.blockBitmap_mem (h : l.Ok) {b : ℕ} (hb : b < l.blockBitmapBlocks * 32768) :
    l.blockBitmapStart ≤ l.blockBitmapStart + b / 32768 ∧
      l.blockBitmapStart + b / 32768 < l.inodeTableStart := by
  have := h.regions
  omega

/-- The table block of an inode lies in the inode table. -/
lemma Ok.inodeTable_mem (h : l.Ok) {i : ℕ} (hi : i < l.inodeCount) :
    l.inodeTableStart ≤ l.inodeTableStart + i * 128 / 4096 ∧
      l.inodeTableStart + i * 128 / 4096 < l.dataStart := by
  have := h.regions
  omega

end Layout

namespace Superblock

/-- The superblock repeats the layout `l`. -/
structure Describes (sb : Superblock) (l : Layout) : Prop where
  identified : sb.Identified
  totalBlocks : sb.totalBlocks = l.totalBlocks
  totalInodes : sb.totalInodes = l.inodeCount
  journalStart : sb.journalStart = 2
  journalBlocks : sb.journalBlocks = l.journalBlocks
  journalEntries : sb.journalEntries = l.journalEntries
  inodeBitmapStart : sb.inodeBitmapStart = l.inodeBitmapStart
  inodeBitmapBlocks : sb.inodeBitmapBlocks = l.inodeBitmapBlocks
  blockBitmapStart : sb.blockBitmapStart = l.blockBitmapStart
  blockBitmapBlocks : sb.blockBitmapBlocks = l.blockBitmapBlocks
  inodeTableStart : sb.inodeTableStart = l.inodeTableStart
  inodeTableBlocks : sb.inodeTableBlocks = l.inodeTableBlocks
  dataStart : sb.dataStart = l.dataStart

variable {sb : Superblock} {l l' : Layout}

/-- A superblock describes at most one layout. -/
lemma Describes.unique (h : sb.Describes l) (h' : sb.Describes l') : l = l' := by
  have e1 := h.totalBlocks.symm.trans h'.totalBlocks
  have e2 := h.totalInodes.symm.trans h'.totalInodes
  have e3 := h.journalBlocks.symm.trans h'.journalBlocks
  have e4 := h.inodeBitmapBlocks.symm.trans h'.inodeBitmapBlocks
  have e5 := h.blockBitmapBlocks.symm.trans h'.blockBitmapBlocks
  have e6 := h.inodeTableBlocks.symm.trans h'.inodeTableBlocks
  cases l
  cases l'
  simp_all

/-- The fields that change during the life of a volume: `state`, `generation`, the free counters,
the mount fields, `last_write_ns`, `last_txid` and `checksum`. -/
def Mutable (off w : ℕ) : Prop :=
  (24 ≤ off ∧ off + w ≤ 28) ∨ (32 ≤ off ∧ off + w ≤ 40) ∨ (128 ≤ off ∧ off + w ≤ 160) ∨
    (176 ≤ off ∧ off + w ≤ 188)

/-- A store to a changing field keeps the layout. -/
lemma Describes.putLe (h : sb.Describes l) {off w v : ℕ} (hm : Mutable off w) :
    Describes (Bytes.putLe sb off w v) l := by
  unfold Mutable at hm
  have keep : ∀ o k, o + k ≤ off ∨ off + w ≤ o → (Bytes.putLe sb off w v).le o k = sb.le o k :=
    fun o k hd => Bytes.le_putLe_of_disjoint hd
  have ids := h.identified
  exact {
    identified := ⟨(keep 0 8 (by omega)).trans ids.1, (keep 8 4 (by omega)).trans ids.2.1,
      (keep 12 4 (by omega)).trans ids.2.2.1, (keep 16 4 (by omega)).trans ids.2.2.2.1,
      (keep 20 4 (by omega)).trans ids.2.2.2.2.1, (keep 28 4 (by omega)).trans ids.2.2.2.2.2.1,
      (keep 52 4 (by omega)).trans ids.2.2.2.2.2.2⟩
    totalBlocks := (keep 40 8 (by omega)).trans h.totalBlocks
    totalInodes := (keep 48 4 (by omega)).trans h.totalInodes
    journalStart := (keep 56 8 (by omega)).trans h.journalStart
    journalBlocks := (keep 64 4 (by omega)).trans h.journalBlocks
    journalEntries := (keep 68 4 (by omega)).trans h.journalEntries
    inodeBitmapStart := (keep 72 8 (by omega)).trans h.inodeBitmapStart
    inodeBitmapBlocks := (keep 80 8 (by omega)).trans h.inodeBitmapBlocks
    blockBitmapStart := (keep 88 8 (by omega)).trans h.blockBitmapStart
    blockBitmapBlocks := (keep 96 8 (by omega)).trans h.blockBitmapBlocks
    inodeTableStart := (keep 104 8 (by omega)).trans h.inodeTableStart
    inodeTableBlocks := (keep 112 8 (by omega)).trans h.inodeTableBlocks
    dataStart := (keep 120 8 (by omega)).trans h.dataStart }

end Superblock

end Northstar
