import Northstar.Nsfs.Volume

/-! # What the allocators and the inode table do to the contents of a volume

One lemma for each function of `Nsfs.Alloc`: how `vol l s`, the contents that the transaction sees,
and the free counters of the superblock change. Blocks below the data area may be loaded into the
transaction on the way. -/

namespace Northstar

open Function

/-- The contents of the volume as the transaction sees them. -/
abbrev vol (l : Layout) (s : St) : Vol := l.decode (view s)

/-- The blocks in front of the data area. -/
def Layout.metaBlocks (l : Layout) : Set ℕ := {b | b < l.dataStart}

variable {U : Set ℕ} {s s' : St} {env : Env} {l : Layout} {b i : ℕ}

/-- Loading images leaves the volume as it was. -/
lemma Loads.vol {B : Set ℕ} (h : Loads B s s') (l : Layout) : vol l s' = vol l s := by
  unfold Northstar.vol
  rw [h.view]

/-- A change of a data block changes the data of the volume. -/
lemma Layout.Ok.vol_put_data (h : l.Ok) (hb : l.dataStart ≤ b ∧ b < l.totalBlocks) {x : Block}
    (hv : view s' = update (view s) b x) :
    vol l s' = { vol l s with data := update (vol l s).data b x } := by
  unfold vol
  rw [hv, h.decode_put_data hb]
  rfl

/-- A block of the data area is part of the data. -/
lemma view_eq_data (hb : l.dataStart ≤ b ∧ b < l.totalBlocks) (s : St) :
    view s b = (vol l s).data b := (if_pos hb).symm

/-- Loading a block in front of the data area. -/
lemma nsfsTxImage_meta_runs (U : Set ℕ) (h : Active env l s)
    (hb : l.inodeBitmapStart ≤ b ∧ b < l.dataStart) :
    Runs (Frame U) (nsfsTxImage b) s
      (fun x s' => x = view s b ∧ Loads l.metaBlocks s s' ∧ Loaded s' b) (Excuse env l) := by
  have hdata := h.layout.data
  refine (nsfsTxImage_runs U h ⟨hb.1, by omega⟩).imp ?_
  rintro x s' - ⟨hx, hl, hb'⟩
  refine ⟨hx, hl.mono ?_, hb'⟩
  rintro c rfl
  exact hb.2

/-! ### Scanning -/

/-- The bit of `item` in the bitmap that starts at block `start`. -/
def bitAt (d : Disk) (start item : ℕ) : Bool :=
  nsfsBitmapGet (d (start + item / 32768)) (item % 32768)

/-- The image that a bitmap scan reads. -/
lemma scanImage_runs (U : Set ℕ) (h : Active env l s) {start item : ℕ}
    (hreg : l.inodeBitmapStart ≤ start + item / 32768 ∧ start + item / 32768 < l.dataStart)
    {current : Option (ℕ × Block)}
    (hcur : ∀ p, current = some p → p.2 = view s (start + p.1) ∧ Loaded s (start + p.1)) :
    Runs (Frame U) (scanImage start item current) s
      (fun x s' => x = view s (start + item / 32768) ∧ Loads l.metaBlocks s s' ∧
        Loaded s' (start + item / 32768)) (Excuse env l) := by
  cases current with
  | none => exact nsfsTxImage_meta_runs U h hreg
  | some p =>
    obtain ⟨index, image⟩ := p
    obtain ⟨himage, hloaded⟩ := hcur _ rfl
    refine .ite (fun hindex => ?_) fun _ => nsfsTxImage_meta_runs U h hreg
    subst hindex
    exact .pure ⟨himage, Loads.refl _ s, hloaded⟩

/-- A scan over numbers of which at least one is free finds the first free one. -/
lemma bitmapScan_runs (U : Set ℕ) {start : ℕ} (remaining item : ℕ) :
    ∀ (s : St) (current : Option (ℕ × Block)), Active env l s →
    (∀ j, item ≤ j → j < item + remaining →
      l.inodeBitmapStart ≤ start + j / 32768 ∧ start + j / 32768 < l.dataStart) →
    (∀ p, current = some p → p.2 = view s (start + p.1) ∧ Loaded s (start + p.1)) →
    (∃ j, item ≤ j ∧ j < item + remaining ∧ bitAt (view s) start j = false) →
    Runs (Frame U) (bitmapScan start remaining item current) s
      (fun r s' => Loads l.metaBlocks s s' ∧ Loaded s' (start + r.1 / 32768) ∧
        r.2 = view s (start + r.1 / 32768) ∧ item ≤ r.1 ∧ r.1 < item + remaining ∧
        bitAt (view s) start r.1 = false ∧ ∀ j, item ≤ j → j < r.1 → bitAt (view s) start j = true)
      (Excuse env l) := by
  induction remaining generalizing item with
  | zero =>
    rintro s current - - - ⟨j, hj, hj', -⟩
    omega
  | succ remaining ih =>
    rintro s current h hreg hcur ⟨j, hj, hj', hfree⟩
    refine .bind (scanImage_runs U h (hreg item (by omega) (by omega)) hcur) ?_
    rintro image s1 hf1 ⟨rfl, hl1, hloaded1⟩
    refine .ite (fun hclear => ?_) fun hset => ?_
    · exact .pure ⟨hl1, hloaded1, rfl, le_rfl, by simp, hclear, fun j h1 h2 => by omega⟩
    · have hset' : bitAt (view s) start item = true := by simpa [bitAt] using hset
      have hne : j ≠ item := fun e => by simp [← e, hfree] at hset'
      refine (ih (item + 1) s1 _ (hf1.active env l h) (fun j h1 h2 => hreg j (by omega) (by omega))
        ?_ ⟨j, by omega, by omega, by rw [hl1.view]; exact hfree⟩).imp ?_
      · rintro p ⟨⟩
        exact ⟨by rw [hl1.view], hloaded1⟩
      · rintro r s2 - ⟨hl2, h1, h2, h3, h4, h5, h6⟩
        rw [hl1.view] at h2 h5 h6
        refine ⟨hl1.trans hl2, h1, h2, by omega, by omega, h5, fun j hj1 hj2 => ?_⟩
        rcases Nat.eq_or_lt_of_le hj1 with rfl | hlt
        · exact hset'
        · exact h6 j (by omega) hj2

/-! ### Blocks -/

/-- Clearing a new block through the transaction or directly on the device. -/
lemma clearNewBlock_runs (h : Active env l s) (hb : l.dataStart ≤ b ∧ b < l.totalBlocks)
    (journalImage : Bool) (hU : journalImage = false → b ∈ U ∧ ¬ Loaded s b) :
    Runs (Frame U) (clearNewBlock journalImage b) s
      (fun _ s' => view s' = update (view s) b Bytes.zero ∧
        s'.fs.superblock = s.fs.superblock ∧
        (journalImage = true → Loaded s' b) ∧ (∀ c, Loaded s c → Loaded s' c) ∧
        ∀ c, Loaded s' c → Loaded s c ∨ journalImage = true ∧ c = b)
      (Excuse env l) := by
  have hr := h.layout.regions
  refine .ite (fun hj => ?_) fun hj => ?_
  · refine .bind (nsfsTxImage_runs U h ⟨by omega, hb.2⟩) ?_
    rintro x s1 hf1 ⟨-, hl, hloaded⟩
    refine (txStore_runs U hloaded Bytes.zero _).imp ?_
    rintro - s2 - ⟨hv, hsb, -, hload⟩
    refine ⟨by rw [hv, hl.view], hsb.trans hl.superblock, fun _ => (hload b).mpr hloaded,
      fun c hc => (hload c).mpr (hl.keep c hc), fun c hc => ?_⟩
    exact (hl.only c ((hload c).mp hc)).imp_right fun hcb => ⟨hj, hcb⟩
  · obtain ⟨hbU, hnot⟩ := hU (by simpa using hj)
    refine .bind (nsfsAllocate_runs U h.toReady) ?_
    rintro - s1 hf1 hq
    refine (nsfsWriteBlock_runs (hf1.active env l h) hb.2 hbU Bytes.zero).imp ?_
    rintro - s2 - hi
    have hl := hq.loads ∅
    have hnot1 : ¬ Loaded s1 b := fun hc => by simpa [hnot] using hl.only b hc
    refine ⟨by rw [hi.view_write hnot1, hl.view], by rw [hi.fs, hq.fs], fun hj' => absurd hj' hj,
      fun c hc => (hi.loaded c).mpr (hl.keep c hc), fun c hc => ?_⟩
    exact (hl.only c ((hi.loaded c).mp hc)).imp_right fun hm => absurd hm (by simp)

/-- `setFreeBlocks` changes the free counter of the blocks only. -/
lemma setFreeBlocks_runs (U : Set ℕ) (s : St) (count : ℕ) (E : Errno → Prop) :
    Runs (Frame U) (setFreeBlocks count) s
      (fun _ s' => view s' = view s ∧ s'.device = s.device ∧ (∀ b, Loaded s' b ↔ Loaded s b) ∧
        s'.fs.superblock = s.fs.superblock.setFreeBlocks count) E :=
  setSuperblock_runs U s (by simp [Superblock.Mutable]) E

/-- `setFreeInodes` changes the free counter of the inodes only. -/
lemma setFreeInodes_runs (U : Set ℕ) (s : St) (count : ℕ) (E : Errno → Prop) :
    Runs (Frame U) (setFreeInodes count) s
      (fun _ s' => view s' = view s ∧ s'.device = s.device ∧ (∀ b, Loaded s' b ↔ Loaded s b) ∧
        s'.fs.superblock = s.fs.superblock.setFreeInodes count) E :=
  setSuperblock_runs U s (by simp [Superblock.Mutable]) E

/-- The bit of a block is that of its bitmap. -/
lemma Layout.Ok.blockBit_eq (h : l.Ok) (d : Disk) (hb : b < l.totalBlocks) :
    l.blockBit d b = bitAt d l.blockBitmapStart b := by
  have := h.regions
  rw [Layout.blockBit, if_pos (by omega), bitAt]

/-- The bit of an inode is that of its bitmap. -/
lemma Layout.Ok.inodeBit_eq (h : l.Ok) (d : Disk) (hi : i < l.inodeCount) :
    l.inodeBit d i = bitAt d l.inodeBitmapStart i := by
  have := h.regions
  rw [Layout.inodeBit, if_pos (by omega), bitAt]

/-- `nsfs_allocate_block` takes the first free block of the data area and clears it. -/
lemma nsfsAllocateBlock_runs (h : Active env l s) (journalImage : Bool)
    (hfree : s.fs.superblock.freeBlocks ≠ 0 →
      ∃ b, l.dataStart ≤ b ∧ b < l.totalBlocks ∧ (vol l s).balloc b = false)
    (hU : journalImage = false → ∀ b, l.dataStart ≤ b → b < l.totalBlocks →
      (vol l s).balloc b = false → b ∈ U ∧ ¬ Loaded s b) :
    Runs (Frame U) (nsfsAllocateBlock journalImage) s
      (fun b s' => l.dataStart ≤ b ∧ b < l.totalBlocks ∧ (vol l s).balloc b = false ∧
        vol l s' = { vol l s with
          balloc := update (vol l s).balloc b true
          data := update (vol l s).data b Bytes.zero } ∧
        s'.fs.superblock = s.fs.superblock.setFreeBlocks (s.fs.superblock.freeBlocks - 1) ∧
        (journalImage = true → Loaded s' b) ∧ (∀ c, Loaded s c → Loaded s' c) ∧
        ∀ c, Loaded s' c → Loaded s c ∨ c < l.dataStart ∨ journalImage = true ∧ c = b)
      (SpaceExcuse env l) := by
  have hr := h.layout.regions
  refine .get_bind (Runs.require (fun _ => Or.inr rfl) fun hne => ?_)
  obtain ⟨b0, hb0, hb0', hbit0⟩ := hfree hne
  rw [h.describes.blockBitmapStart, h.describes.totalBlocks, h.describes.dataStart]
  refine .bind ((bitmapScan_runs U _ _ s none h (fun j h1 h2 => by omega) (by simp)
    ⟨b0, hb0, by omega, by rw [← h.layout.blockBit_eq _ hb0']; exact hbit0⟩).weaken Excuse.space) ?_
  rintro ⟨b, image⟩ s1 hf1 ⟨hl1, hloaded1, himage, hlo, hhi, hclear, -⟩
  simp only at himage hloaded1 hlo hhi hclear ⊢
  have hb : b < l.totalBlocks := by omega
  have hbit : (vol l s).balloc b = false := by
    rw [← h.layout.blockBit_eq _ hb] at hclear
    exact hclear
  refine .bind (txStore_runs U hloaded1 _ _) ?_
  rintro - s2 hf2 ⟨hv2, hsb2, -, hload2⟩
  refine .bind (setFreeBlocks_runs U s2 _ _) ?_
  rintro - s3 hf3 ⟨hv3, -, hload3, hsb3⟩
  have ha3 := hf3.active env l (hf2.active env l (hf1.active env l h))
  have hnot3 : ∀ c, Loaded s3 c → Loaded s c ∨ c < l.dataStart := fun c hc =>
    hl1.only c ((hload2 c).mp ((hload3 c).mp hc))
  have hvol3 : vol l s3 = { vol l s with balloc := update (vol l s).balloc b true } := by
    have : view s3 = update (view s) (l.blockBitmapStart + b / 32768)
        (nsfsBitmapPut (view s (l.blockBitmapStart + b / 32768)) (b % 32768) true) := by
      rw [hv3, hv2, hl1.view, himage]
    unfold vol
    rw [this, h.layout.decode_put_blockBit hb]
    rfl
  refine .bind (Runs.onFailure ((clearNewBlock_runs ha3 ⟨hlo, hb⟩ journalImage ?_).weaken
    Excuse.space) ?_) ?_
  · intro hj
    obtain ⟨hbU, hbnot⟩ := hU hj b hlo hb hbit
    refine ⟨hbU, fun hc => ?_⟩
    rcases hnot3 b hc with hc | hc
    · exact hbnot hc
    · omega
  · intro s4 hf4
    refine .bind (P := fun _ _ => True) ⟨Frame.of_storeImage U s4 _ _, trivial⟩ ?_
    rintro - s5 - -
    exact (setFreeBlocks_runs U s5 _ _).imp (fun _ _ _ _ => trivial)
  · rintro - s4 hf4 ⟨hv4, hsb4, hj4, hkeep4, honly4⟩
    refine .pure ⟨hlo, hb, hbit, ?_, ?_, hj4, fun c hc => ?_, fun c hc => ?_⟩
    · rw [h.layout.vol_put_data ⟨hlo, hb⟩ hv4, hvol3]
    · rw [hsb4, hsb3, hsb2, hl1.superblock]
    · exact hkeep4 c ((hload3 c).mpr ((hload2 c).mpr (hl1.keep c hc)))
    · rcases honly4 c hc with hc | hc
      · exact (hnot3 c hc).imp_right Or.inl
      · exact .inr (Or.inr hc)

/-- `nsfs_tx_bitmap_put` on a bit that has the other value. -/
lemma nsfsTxBitmapPut_runs (U : Set ℕ) (h : Active env l s) {start item : ℕ} (value : Bool)
    (hreg : l.inodeBitmapStart ≤ start + item / 32768 ∧ start + item / 32768 < l.dataStart)
    (hbit : bitAt (view s) start item ≠ value) :
    Runs (Frame U) (nsfsTxBitmapPut start item value) s
      (fun _ s' => view s' = update (view s) (start + item / 32768)
          (nsfsBitmapPut (view s (start + item / 32768)) (item % 32768) value) ∧
        s'.fs.superblock = s.fs.superblock ∧ ∀ c, Loaded s c → Loaded s' c)
      (Excuse env l) := by
  refine .bind (nsfsTxImage_meta_runs U h hreg) ?_
  rintro image s1 hf1 ⟨rfl, hl1, hloaded1⟩
  refine .require_pos hbit ((txStore_runs U hloaded1 _ _).imp ?_)
  rintro - s2 - ⟨hv2, hsb2, -, hload2⟩
  exact ⟨by rw [hv2, hl1.view], hsb2.trans hl1.superblock,
    fun c hc => (hload2 c).mpr (hl1.keep c hc)⟩

/-- `nsfs_free_block` clears the bit of an allocated block of the data area. -/
lemma nsfsFreeBlock_runs (U : Set ℕ) (h : Active env l s)
    (hb : l.dataStart ≤ b ∧ b < l.totalBlocks) (hbit : (vol l s).balloc b = true) :
    Runs (Frame U) (nsfsFreeBlock b) s
      (fun _ s' => vol l s' = { vol l s with balloc := update (vol l s).balloc b false } ∧
        s'.fs.superblock = s.fs.superblock.setFreeBlocks (s.fs.superblock.freeBlocks + 1) ∧
        ∀ c, Loaded s c → Loaded s' c)
      (Excuse env l) := by
  have hr := h.layout.regions
  have hmem := h.layout.blockBitmap_mem (show b < l.blockBitmapBlocks * 32768 by omega)
  refine .get_bind (Runs.require_pos ?_ ?_)
  · rw [h.describes.dataStart, h.describes.totalBlocks]
    exact hb
  rw [h.describes.blockBitmapStart]
  have hset : bitAt (view s) l.blockBitmapStart b ≠ false := by
    rw [← h.layout.blockBit_eq _ hb.2]
    change (vol l s).balloc b ≠ false
    rw [hbit]
    simp
  refine .bind (nsfsTxBitmapPut_runs U h false ⟨by omega, by omega⟩ hset) ?_
  rintro - s1 hf1 ⟨hv1, hsb1, hkeep1⟩
  refine (setFreeBlocks_runs U s1 _ _).imp ?_
  rintro - s2 - ⟨hv2, -, hload2, hsb2⟩
  refine ⟨?_, by rw [hsb2, hsb1], fun c hc => (hload2 c).mpr (hkeep1 c hc)⟩
  unfold vol
  rw [hv2, hv1, h.layout.decode_put_blockBit hb.2]
  rfl

/-! ### Inodes -/

/-- The inode number is in range and marked in the bitmap. -/
def Vol.Live (l : Layout) (v : Vol) (i : ℕ) : Prop :=
  1 ≤ i ∧ i < l.inodeCount ∧ v.ialloc i = true

/-- `nsfs_allocate_inode` takes the first free inode number. -/
lemma nsfsAllocateInode_runs (U : Set ℕ) (h : Active env l s)
    (hfree : s.fs.superblock.freeInodes ≠ 0 →
      ∃ i, 2 ≤ i ∧ i < l.inodeCount ∧ (vol l s).ialloc i = false) :
    Runs (Frame U) nsfsAllocateInode s
      (fun n s' => 2 ≤ n ∧ n < l.inodeCount ∧ (vol l s).ialloc n = false ∧
        (∀ j, 2 ≤ j → j < n → (vol l s).ialloc j = true) ∧
        vol l s' = { vol l s with ialloc := update (vol l s).ialloc n true } ∧
        s'.fs.superblock = s.fs.superblock.setFreeInodes (s.fs.superblock.freeInodes - 1))
      (fun e => Excuse env l e ∨ e = .enospc ∧ s.fs.superblock.freeInodes = 0) := by
  have hr := h.layout.regions
  refine .get_bind (Runs.require (fun hne => Or.inr ⟨rfl, not_not.mp hne⟩) fun hne => ?_)
  obtain ⟨i0, hi0, hi0', hbit0⟩ := hfree hne
  rw [h.describes.inodeBitmapStart, h.describes.totalInodes]
  refine .bind ((bitmapScan_runs U _ _ s none h (fun j h1 h2 => by omega) (by simp)
    ⟨i0, hi0, by omega, by rw [← h.layout.inodeBit_eq _ hi0']; exact hbit0⟩).weaken
    fun _ he => Or.inl he) ?_
  rintro ⟨n, image⟩ s1 hf1 ⟨hl1, hloaded1, himage, hlo, hhi, hclear, hfirst⟩
  simp only at himage hloaded1 hlo hhi hclear hfirst ⊢
  have hn : n < l.inodeCount := by omega
  rw [← h.layout.inodeBit_eq _ hn] at hclear
  refine .bind (txStore_runs U hloaded1 _ _) ?_
  rintro - s2 hf2 ⟨hv2, hsb2, -, -⟩
  refine .bind (setFreeInodes_runs U s2 _ _) ?_
  rintro - s3 hf3 ⟨hv3, -, -, hsb3⟩
  refine .pure ⟨hlo, hn, hclear, fun j hj hjn => ?_, ?_, ?_⟩
  · have hset := hfirst j hj hjn
    rw [← h.layout.inodeBit_eq _ (by omega)] at hset
    exact hset
  · unfold vol
    rw [hv3, hv2, hl1.view, himage, h.layout.decode_put_inodeBit hn]
    rfl
  · rw [hsb3, hsb2, hl1.superblock]

/-- Where `nsfs_inode_disk_location` finds a record. -/
lemma nsfsInodeDiskLocation_runs (U : Set ℕ) (h : Ready env l s) (hi : i < l.inodeCount)
    (E : Errno → Prop) :
    Runs (Frame U) (nsfsInodeDiskLocation i) s
      (fun r s' => s' = s ∧ r = (l.inodeTableStart + i * 128 / 4096, i * 128 % 4096)) E := by
  refine .get_bind (Runs.require_pos ?_ (Runs.pure ⟨rfl, ?_⟩))
  · rw [h.describes.totalInodes]
    exact hi
  · rw [h.describes.inodeTableStart]

/-- Reading a block in front of the data area while the device holds what the transaction sees. -/
lemma readThrough_runs (U : Set ℕ) (inTx : Bool) (h : Ready env l s)
    (ha : inTx = true → Active env l s) (hclean : view s = s.device.current)
    (hb : l.inodeBitmapStart ≤ b ∧ b < l.dataStart) :
    Runs (Frame U) (readThrough inTx b) s
      (fun x s' => x = view s b ∧ Loads l.metaBlocks s s') (Excuse env l) := by
  have hdata := h.layout.data
  refine .ite (fun hin => ?_) fun _ => ?_
  · exact (nsfsTxImage_meta_runs U (ha hin) hb).imp (fun x s' _ hq => ⟨hq.1, hq.2.1⟩)
  · refine .bind (nsfsAllocate_runs U h) ?_
    rintro - s1 hf1 hq1
    refine (nsfsReadBlock_runs U (hf1.ready h) (by omega) _).imp ?_
    rintro x s2 - ⟨rfl, rfl⟩
    exact ⟨by rw [hq1.device, hclean], hq1.loads _⟩

/-- The allocation test of `nsfs_read_inode` while the device holds what the transaction sees. -/
lemma inodeAllocated_runs (U : Set ℕ) (inTx : Bool) (h : Ready env l s)
    (ha : inTx = true → Active env l s) (hclean : view s = s.device.current)
    (hi : i < l.inodeCount) :
    Runs (Frame U) (inodeAllocated inTx i) s
      (fun x s' => x = (vol l s).ialloc i ∧ Loads l.metaBlocks s s') (Excuse env l) := by
  have hr := h.layout.regions
  have hmem := h.layout.inodeBitmap_mem (show i < l.inodeBitmapBlocks * 32768 by omega)
  have hbit : (vol l s).ialloc i = bitAt (view s) l.inodeBitmapStart i := h.layout.inodeBit_eq _ hi
  refine .get_bind (Runs.bind
    (P := fun x s' => x = (vol l s).ialloc i ∧ Loads l.metaBlocks s s') ?_ ?_)
  · refine .bind (nsfsAllocate_runs U h) ?_
    rintro - s1 hf1 hq1
    rw [h.describes.inodeBitmapStart]
    refine .bind (nsfsReadBlock_runs U (hf1.ready h) (by omega) _) ?_
    rintro x s2 - ⟨rfl, rfl⟩
    exact .pure ⟨by rw [hbit, bitAt, hclean, hq1.device], hq1.loads _⟩
  · rintro x s1 hf1 ⟨rfl, hl1⟩
    refine .ite (fun hin => ?_) fun _ => Runs.pure ⟨rfl, hl1⟩
    rw [h.describes.inodeBitmapStart]
    refine .bind (nsfsTxImage_meta_runs U (hf1.active env l (ha hin.2)) ⟨by omega, by omega⟩) ?_
    rintro image s2 - ⟨rfl, hl2, -⟩
    exact .pure ⟨by rw [hl1.view, hbit, bitAt], hl1.trans hl2⟩

/-- The errors of `nsfs_read_inode` on a volume whose live inodes have good records. -/
def ReadExcuse (env : Env) (l : Layout) (v : Vol) (i : ℕ) (e : Errno) : Prop :=
  Excuse env l e ∨ (e = .einval ∧ ¬ (1 ≤ i ∧ i < l.inodeCount)) ∨ (e = .enoent ∧ ¬ v.Live l i)

/-- `nsfs_read_inode` returns the record of a live inode. -/
lemma nsfsReadInode_runs (U : Set ℕ) (inTx : Bool) (h : Ready env l s)
    (ha : inTx = true → Active env l s) (hclean : view s = s.device.current)
    (hok : ∀ i, (vol l s).Live l i → InodeOk ((vol l s).inode i)) (i : ℕ) :
    Runs (Frame U) (nsfsReadInode inTx i) s
      (fun r s' => (vol l s).Live l i ∧ r = (vol l s).inode i ∧ Loads l.metaBlocks s s')
      (ReadExcuse env l (vol l s) i) := by
  have hr := h.layout.regions
  have hExcuse : ∀ e, Excuse env l e → ReadExcuse env l (vol l s) i e := fun _ he => Or.inl he
  refine .get_bind (Runs.require (fun hn => Or.inr (Or.inl ⟨rfl, ?_⟩)) fun hi => ?_)
  · rw [h.describes.totalInodes] at hn
    omega
  rw [h.describes.totalInodes] at hi
  refine .bind ((inodeAllocated_runs U inTx h ha hclean hi.2).weaken hExcuse) ?_
  rintro allocated s1 hf1 ⟨rfl, hl1⟩
  refine .require (fun hn => Or.inr (Or.inr ⟨rfl, fun hlive => hn hlive.2.2⟩)) fun hbit => ?_
  have hlive : (vol l s).Live l i := ⟨by omega, hi.2, hbit⟩
  have hmem := h.layout.inodeTable_mem hi.2
  refine .bind (nsfsInodeDiskLocation_runs U (hf1.ready h) hi.2 _) ?_
  rintro ⟨blockNumber, offset⟩ s2 - ⟨rfl, hloc⟩
  obtain ⟨rfl, rfl⟩ := Prod.mk.inj hloc
  have hclean1 : view s2 = s2.device.current := by rw [hl1.view, hl1.device, hclean]
  refine .bind ((readThrough_runs U inTx (hf1.ready h) (fun hin => hf1.active env l (ha hin))
    hclean1 ⟨by omega, hmem.2⟩).weaken hExcuse) ?_
  rintro block s3 - ⟨rfl, hl3⟩
  have hrec : (view s2 (l.inodeTableStart + i * 128 / 4096)).slice (i * 128 % 4096) =
      (vol l s).inode i := by
    change _ = l.inodeRecord (view s) i
    rw [hl1.view, Layout.inodeRecord, if_pos hi.2]
  refine .require_pos (hrec ▸ hok i hlive) (Runs.pure ⟨hlive, hrec, hl1.trans hl3⟩)

/-- `nsfs_write_inode` stores the sealed record. -/
lemma nsfsWriteInode_runs (U : Set ℕ) (h : Active env l s) (hi : i < l.inodeCount)
    (r : DiskInode) :
    Runs (Frame U) (nsfsWriteInode i r) s
      (fun _ s' => vol l s' = { vol l s with
          inode := update (vol l s).inode i (nsfsInodeChecksum r) } ∧
        s'.fs.superblock = s.fs.superblock) (Excuse env l) := by
  have hr := h.layout.regions
  have hmem := h.layout.inodeTable_mem hi
  refine .bind (nsfsInodeDiskLocation_runs U h.toReady hi _) ?_
  rintro ⟨blockNumber, offset⟩ s1 - ⟨rfl, hloc⟩
  obtain ⟨rfl, rfl⟩ := Prod.mk.inj hloc
  refine .bind (nsfsTxImage_meta_runs U h ⟨by omega, hmem.2⟩) ?_
  rintro image s2 hf2 ⟨rfl, hl2, hloaded2⟩
  refine (txStore_runs U hloaded2 _ _).imp ?_
  rintro - s3 - ⟨hv3, hsb3, -, -⟩
  refine ⟨?_, hsb3.trans hl2.superblock⟩
  unfold vol
  rw [hv3, hl2.view, h.layout.decode_put_inode hi]
  rfl

/-- `nsfs_release_inode_number` clears the record and the bit of an inode. -/
lemma nsfsReleaseInodeNumber_runs (U : Set ℕ) (h : Active env l s) (hroot : 1 < i)
    (hlive : (vol l s).Live l i) :
    Runs (Frame U) (nsfsReleaseInodeNumber i) s
      (fun _ s' => vol l s' = { vol l s with
          ialloc := update (vol l s).ialloc i false
          inode := update (vol l s).inode i Bytes.zero } ∧
        s'.fs.superblock = s.fs.superblock.setFreeInodes (s.fs.superblock.freeInodes + 1))
      (Excuse env l) := by
  have hr := h.layout.regions
  obtain ⟨-, hi, hbit⟩ := hlive
  have hmem := h.layout.inodeTable_mem hi
  have hbmem := h.layout.inodeBitmap_mem (show i < l.inodeBitmapBlocks * 32768 by omega)
  refine .require_pos hroot (Runs.bind (nsfsInodeDiskLocation_runs U h.toReady hi _) ?_)
  rintro ⟨blockNumber, offset⟩ s1 - ⟨rfl, hloc⟩
  obtain ⟨rfl, rfl⟩ := Prod.mk.inj hloc
  refine .bind (nsfsTxImage_meta_runs U h ⟨by omega, hmem.2⟩) ?_
  rintro image s2 hf2 ⟨rfl, hl2, hloaded2⟩
  refine .bind (txStore_runs U hloaded2 _ _) ?_
  rintro - s3 hf3 ⟨hv3, hsb3, -, -⟩
  have ha3 := hf3.active env l (hf2.active env l h)
  have hvol3 : vol l s3 = { vol l s1 with
      inode := update (vol l s1).inode i Bytes.zero } := by
    unfold vol
    rw [hv3, hl2.view, Bytes.fill_zero (m := 128), h.layout.decode_put_inode hi]
    rfl
  refine .get_bind ?_
  rw [ha3.describes.inodeBitmapStart]
  have hset : bitAt (view s3) l.inodeBitmapStart i ≠ false := by
    rw [← h.layout.inodeBit_eq _ hi]
    change (vol l s3).ialloc i ≠ false
    rw [hvol3]
    simpa using hbit
  refine .bind (nsfsTxBitmapPut_runs U ha3 false ⟨by omega, by omega⟩ hset) ?_
  rintro - s4 hf4 ⟨hv4, hsb4, -⟩
  refine (setFreeInodes_runs U s4 _ _).imp ?_
  rintro - s5 - ⟨hv5, -, -, hsb5⟩
  refine ⟨?_, by rw [hsb5, hsb4, hsb3, hl2.superblock]⟩
  unfold vol
  rw [hv5, hv4, h.layout.decode_put_inodeBit hi]
  change { vol l s3 with ialloc := update (vol l s3).ialloc i false } = _
  rw [hvol3]

end Northstar
