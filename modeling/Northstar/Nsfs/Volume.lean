import Northstar.Nsfs.TxView

/-! # The contents of a volume

`decode l d` reads the regions of a disk `d` with layout `l`: which inodes and which blocks the
bitmaps mark, the inode records of the table, and the blocks of the data area. Outside their
regions these are given fixed values, so that a store to one region changes exactly one component
at exactly one place. After the lemmas of this file nothing refers to region arithmetic again. -/

namespace Northstar

open Function Bytes

/-! ### Bitmap blocks -/

/-- A bit of a bitmap, as one of its bytes. -/
lemma nsfsBitmapGet_eq (bitmap : Block) (bit : ℕ) :
    nsfsBitmapGet bitmap bit = (bitmap.get (bit / 8)).toBitVec.getLsbD (bit % 8) := by
  have h := and_bitMask_ne_zero (bitmap.get (bit / 8)) (Nat.mod_lt bit (by norm_num : 0 < 8))
  unfold nsfsBitmapGet
  cases hb : (bitmap.get (bit / 8)).toBitVec.getLsbD (bit % 8) <;> simp_all

/-- Changing one bit of a bitmap block changes that bit only. -/
lemma nsfsBitmapGet_put (bitmap : Block) {bit bit' : ℕ} (value : Bool) (hbit' : bit' < 32768) :
    nsfsBitmapGet (nsfsBitmapPut bitmap bit value) bit' =
      if bit' = bit then value else nsfsBitmapGet bitmap bit' := by
  rw [nsfsBitmapGet_eq, nsfsBitmapGet_eq]
  unfold nsfsBitmapPut
  by_cases hbyte : bit' / 8 = bit / 8
  · rw [get_blit _ _ _ _ (by omega), if_pos (by omega), hbyte]
    have hiff : bit' % 8 = bit % 8 ↔ bit' = bit := by omega
    have hk : bit % 8 < 8 := Nat.mod_lt _ (by norm_num)
    have hk' : bit' % 8 < 8 := Nat.mod_lt _ (by norm_num)
    cases value with
    | true =>
      simp only [if_true, getLsbD_or_bitMask _ hk, hiff]
      by_cases h : bit' = bit <;> simp [h]
    | false =>
      simp only [Bool.false_eq_true, if_false, getLsbD_and_not_bitMask _ hk hk', hiff]
      by_cases h : bit' = bit <;> simp [h]
  · have hne : bit' ≠ bit := fun h => hbyte (by rw [h])
    rw [get_blit_of_notMem (by omega), if_neg hne]

/-! ### Volumes -/

/-- The contents of the regions of a volume. -/
structure Vol where
  ialloc : ℕ → Bool
  balloc : ℕ → Bool
  inode : ℕ → DiskInode
  data : ℕ → Block

namespace Layout

variable (l : Layout)

/-- The bit of an inode. Numbers beyond the bitmap count as taken. -/
def inodeBit (d : Disk) (i : ℕ) : Bool :=
  if i < l.inodeBitmapBlocks * 32768 then
    nsfsBitmapGet (d (l.inodeBitmapStart + i / 32768)) (i % 32768)
  else true

/-- The bit of a block. Numbers beyond the bitmap count as taken. -/
def blockBit (d : Disk) (b : ℕ) : Bool :=
  if b < l.blockBitmapBlocks * 32768 then
    nsfsBitmapGet (d (l.blockBitmapStart + b / 32768)) (b % 32768)
  else true

/-- The record of an inode in the inode table. -/
def inodeRecord (d : Disk) (i : ℕ) : DiskInode :=
  if i < l.inodeCount then (d (l.inodeTableStart + i * 128 / 4096)).slice (i * 128 % 4096)
  else Bytes.zero

/-- A block of the data area. -/
def dataBlock (d : Disk) (b : ℕ) : Block :=
  if l.dataStart ≤ b ∧ b < l.totalBlocks then d b else Bytes.zero

/-- The contents of a disk with this layout. -/
def decode (d : Disk) : Vol :=
  ⟨l.inodeBit d, l.blockBit d, l.inodeRecord d, l.dataBlock d⟩

variable {l} {d : Disk}

/-- A bitmap of `n` blocks with one bit changed. -/
lemma bitmap_put {start n i : ℕ} (hi : i < n * 32768) (value : Bool) :
    (fun j => if j < n * 32768 then
      nsfsBitmapGet (update d (start + i / 32768)
        (nsfsBitmapPut (d (start + i / 32768)) (i % 32768) value) (start + j / 32768)) (j % 32768)
      else true) =
    update (fun j => if j < n * 32768 then
      nsfsBitmapGet (d (start + j / 32768)) (j % 32768) else true) i value := by
  funext j
  by_cases hji : j = i
  · rw [hji, if_pos hi, update_self, update_self, nsfsBitmapGet_put _ _ (by omega), if_pos rfl]
  · rw [update_of_ne hji]
    by_cases hblk : start + j / 32768 = start + i / 32768
    · have hbit : j % 32768 ≠ i % 32768 := by omega
      rw [hblk, update_self, nsfsBitmapGet_put _ _ (by omega), if_neg hbit]
    · rw [update_of_ne hblk]

variable (h : l.Ok)
include h

/-- Changing a bit of the inode bitmap. -/
lemma Ok.decode_put_inodeBit {i : ℕ} (hi : i < l.inodeCount) (value : Bool) :
    l.decode (update d (l.inodeBitmapStart + i / 32768)
        (nsfsBitmapPut (d (l.inodeBitmapStart + i / 32768)) (i % 32768) value)) =
      { l.decode d with ialloc := update (l.inodeBit d) i value } := by
  have hr := h.regions
  simp only [decode, Vol.mk.injEq]
  refine ⟨bitmap_put (by omega) value, ?_, ?_, ?_⟩ <;> funext j
  all_goals
    simp only [blockBit, inodeRecord, dataBlock]
    split
    · rw [update_of_ne (by omega)]
    · rfl

/-- Changing a bit of the block bitmap. -/
lemma Ok.decode_put_blockBit {b : ℕ} (hb : b < l.totalBlocks) (value : Bool) :
    l.decode (update d (l.blockBitmapStart + b / 32768)
        (nsfsBitmapPut (d (l.blockBitmapStart + b / 32768)) (b % 32768) value)) =
      { l.decode d with balloc := update (l.blockBit d) b value } := by
  have hr := h.regions
  simp only [decode, Vol.mk.injEq]
  refine ⟨?_, bitmap_put (by omega) value, ?_, ?_⟩ <;> funext j
  all_goals
    simp only [inodeBit, inodeRecord, dataBlock]
    split
    · rw [update_of_ne (by omega)]
    · rfl

/-- Storing an inode record. -/
lemma Ok.decode_put_inode {i : ℕ} (hi : i < l.inodeCount) (r : DiskInode) :
    l.decode (update d (l.inodeTableStart + i * 128 / 4096)
        ((d (l.inodeTableStart + i * 128 / 4096)).blit (i * 128 % 4096) 128 r.get)) =
      { l.decode d with inode := update (l.inodeRecord d) i r } := by
  have hr := h.regions
  simp only [decode, Vol.mk.injEq]
  refine ⟨?_, ?_, ?record, ?_⟩ <;> funext j
  case record =>
    simp only [inodeRecord]
    by_cases hji : j = i
    · subst hji
      rw [if_pos hi, update_self, slice_blit_self (by omega), update_self]
    · rw [update_of_ne hji, inodeRecord]
      by_cases hj : j < l.inodeCount
      · rw [if_pos hj, if_pos hj]
        by_cases hblk : l.inodeTableStart + j * 128 / 4096 = l.inodeTableStart + i * 128 / 4096
        · rw [hblk, update_self, slice_blit_of_disjoint (by omega)]
        · rw [update_of_ne hblk]
      · rw [if_neg hj, if_neg hj]
  all_goals
    simp only [inodeBit, blockBit, dataBlock]
    split
    · rw [update_of_ne (by omega)]
    · rfl

/-- Storing a block of the data area. -/
lemma Ok.decode_put_data {b : ℕ} (hb : l.dataStart ≤ b ∧ b < l.totalBlocks) (x : Block) :
    l.decode (update d b x) =
      { l.decode d with data := update (l.dataBlock d) b x } := by
  have hr := h.regions
  simp only [decode, Vol.mk.injEq]
  refine ⟨?_, ?_, ?_, ?data⟩ <;> funext j
  case data =>
    simp only [dataBlock]
    by_cases hjb : j = b
    · subst hjb
      simp [hb]
    · simp [hjb, dataBlock]
  all_goals
    simp only [inodeBit, blockBit, inodeRecord]
    split
    · rw [update_of_ne (by omega)]
    · rfl

end Layout

end Northstar
