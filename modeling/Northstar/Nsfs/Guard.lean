import Northstar.Nsfs.AllocSpec

/-! # Transactions on arbitrary images

`nsfs_mount` checks the superblock, the journal header, the bitmaps and the root inode, and nothing
else, so the block pointers and directory records that a transaction meets may be anything.
`Guarded env l s₀ s` is what holds in spite of that at every point of a transaction that began in
`s₀`: its images are images of different blocks behind the journal, the device was written in the
data area only, and no inode record that passes the checks of `nsfs_read_inode` has its indirect
block in front of the data area.

The last part has to be assumed at the beginning. Every other pointer is compared with the bounds of
the data area before it is followed, but `nsfs_tx_clear_data_block` and
`nsfs_tx_maybe_free_indirect` load the indirect block unchecked. -/

namespace Northstar

open Maintains (seq check get_bind require_bind)

/-- The pointer is null or does not point in front of the data area. -/
def Layout.Inside (l : Layout) (p : ℕ) : Prop := p = 0 ∨ l.dataStart ≤ p

/-- No record that `nsfs_read_inode` accepts has its indirect block in front of the data area. -/
def Vol.IndirectsInside (l : Layout) (v : Vol) : Prop :=
  ∀ i, InodeOk (v.inode i) → l.Inside (v.inode i).indirect

/-- The state `s` of a transaction that began in `s₀`. -/
structure Guarded (env : Env) (l : Layout) (s₀ s : St) : Prop where
  frame : Frame {b | l.dataStart ≤ b} s₀ s
  active : Active env l s
  indirects : (vol l s).IndirectsInside l

variable {env : Env} {l : Layout} {s₀ s s' : St} {α β : Type} {b i : ℕ} {r : DiskInode}

/-! ### Single steps -/

/-- The inode table is read from the blocks of the table only. -/
lemma Layout.Ok.inode_congr (h : l.Ok)
    (hview : ∀ c, l.inodeTableStart ≤ c → c < l.dataStart → view s' c = view s c) :
    (vol l s').inode = (vol l s).inode := by
  funext j
  change l.inodeRecord (view s') j = l.inodeRecord (view s) j
  unfold Layout.inodeRecord
  by_cases hj : j < l.inodeCount
  · have hmem := h.inodeTable_mem hj
    rw [if_pos hj, if_pos hj, hview _ hmem.1 hmem.2]
  · rw [if_neg hj, if_neg hj]

namespace Guarded

section

variable (h : Guarded env l s₀ s)
include h

/-- A step that leaves the inode table alone. -/
lemma step (hf : Frame {b | l.dataStart ≤ b} s s')
    (hview : ∀ c, l.inodeTableStart ≤ c → c < l.dataStart → view s' c = view s c) :
    Guarded env l s₀ s' where
  frame := h.frame.trans hf
  active := hf.active env l h.active
  indirects := by
    have hinode : (vol l s').inode = (vol l s).inode := h.active.layout.inode_congr hview
    intro j hj
    rw [hinode] at hj ⊢
    exact h.indirects j hj

/-- Looking things up keeps the guard. -/
lemma looks (hk : Looks {b | l.dataStart ≤ b} s s') : Guarded env l s₀ s' :=
  h.step hk.frame fun c _ _ => by rw [hk.loads.view]

/-- The order of the regions of the volume. -/
lemma regions : l.inodeBitmapStart ≤ l.blockBitmapStart ∧ l.blockBitmapStart ≤ l.inodeTableStart ∧
      l.inodeTableStart ≤ l.dataStart ∧ 0 < l.inodeBitmapStart ∧ l.totalBlocks < 256 ^ 4 := by
  have hr := h.active.layout.regions
  omega

/-- A command that writes no block in front of the data area. -/
lemma issue (t : ℕ) {cmd : Cmd Block} (hcmd : ∀ b x, cmd = .write b x → l.dataStart ≤ b) :
    Guarded env l s₀ { s with tick := t, device := s.device.issue cmd } := by
  refine h.step (Frame.of_issue s t cmd hcmd) fun c _ hc => ?_
  cases cmd with
  | flush => simp [view]
  | write b x =>
    have hb := hcmd b x rfl
    have hne : c ≠ b := by omega
    simp [view, hne]

/-- A store to an image outside the inode table. -/
lemma storeImage (hb : b < l.inodeTableStart ∨ l.dataStart ≤ b)
    (x : Block) : Guarded env l s₀ (storeImage s b x) := by
  refine h.step (Frame.of_storeImage _ s b x) fun c hlo hhi => ?_
  have hne : c ≠ b := by omega
  have hfind : (Northstar.storeImage s b x).tx.find c = s.tx.find c :=
    (lookup_store s.tx.entries b c x).trans (if_neg hne)
  unfold view
  rw [hfind]
  rfl

/-- A store to a record of the inode table. -/
lemma storeRecord (hi : i < l.inodeCount)
    (hloaded : Loaded s (l.inodeTableStart + i * 128 / 4096))
    (hr : InodeOk r → l.Inside r.indirect) :
    Guarded env l s₀ (Northstar.storeImage s (l.inodeTableStart + i * 128 / 4096)
      ((view s (l.inodeTableStart + i * 128 / 4096)).blit (i * 128 % 4096) 128 r.get)) where
  frame := h.frame.trans (Frame.of_storeImage _ s _ _)
  active := (Frame.of_storeImage {b | l.dataStart ≤ b} s _ _).active env l h.active
  indirects := by
    intro j hj
    unfold vol at hj ⊢
    rw [view_storeImage hloaded, h.active.layout.decode_put_inode hi] at hj ⊢
    by_cases hji : j = i
    · subst hji
      simp only [Function.update_self] at hj ⊢
      exact hr hj
    · simp only [Function.update_of_ne hji] at hj ⊢
      exact h.indirects j hj

end

end Guarded

/-! ### The environment and the device -/

lemma nsfsAllocate_maintains :
    Maintains (Guarded env l s₀) nsfsAllocate fun _ => True :=
  Maintains.of_runs (fun _ hs => nsfsAllocate_looks {b | l.dataStart ≤ b} hs.active.toReady)
    (fun _ _ hs hk => hs.looks hk) fun _ _ _ _ _ => trivial

/-- Reading the clock keeps the guard. -/
lemma nsfsNow_maintains : Maintains (Guarded env l s₀) nsfsNow fun _ => True :=
  fun s hs => ⟨hs.looks (Looks.of_tick _ s (s.tick + 1)), trivial⟩

/-- A command that does not write in front of the data area keeps the guard. -/
lemma deviceCommand_maintains {cmd : Cmd Block}
    (hcmd : ∀ b x, cmd = .write b x → l.dataStart ≤ b) :
    Maintains (Guarded env l s₀) (deviceCommand cmd) fun _ => True := by
  intro s hs
  have hdone := hs.issue (s.tick + 1) hcmd
  have hlost := hs.looks (Looks.of_tick _ s (s.tick + 1))
  simp only [deviceCommand, sat_bind, sat_get]
  rcases s.env.io s.tick with _ | ⟨_ | _⟩
  · exact ⟨hdone, trivial⟩
  · exact hlost
  · exact hdone

lemma nsBlockFlush_maintains : Maintains (Guarded env l s₀) nsBlockFlush fun _ => True :=
  deviceCommand_maintains (by simp)

/-- A write to the data area keeps the guard. -/
lemma nsfsWriteBlock_maintains (hb : l.dataStart ≤ b) (x : Block) :
    Maintains (Guarded env l s₀) (nsfsWriteBlock b x) fun _ => True := by
  apply get_bind
  intro _ _
  apply check
  apply check
  apply get_bind
  intro _ _
  apply check
  apply check
  apply deviceCommand_maintains
  rintro b' x' ⟨⟩
  exact hb

/-! ### Images -/

/-- What follows the loading of a block sees its image in the state reached. -/
lemma txImage_bind_maintains {k : Block → NsM β} {Q : β → Prop} (hb : l.inodeBitmapStart ≤ b)
    (h : ∀ s, Guarded env l s₀ s → Loaded s b →
      Sat (k (view s b)) s (fun a s' => Guarded env l s₀ s' ∧ Q a) fun _ s' =>
        Guarded env l s₀ s') :
    Maintains (Guarded env l s₀) (nsfsTxImage b >>= k) Q := by
  intro s hs
  rw [sat_bind]
  by_cases hlt : b < l.totalBlocks
  · refine Sat.mono (nsfsTxImage_looks {b | l.dataStart ≤ b} hs.active ⟨hb, hlt⟩) ?_ ?_
    · rintro x s' ⟨hk, rfl, hl, hloaded⟩
      rw [← hl.view]
      exact h s' (hs.looks hk) hloaded
    · rintro e s' ⟨hk, -⟩
      exact hs.looks hk
  · have htotal : ¬ b < s.fs.superblock.totalBlocks := by
      rw [hs.active.describes.totalBlocks]
      exact hlt
    simp only [nsfsTxImage, sat_bind, sat_get, sat_require]
    exact ⟨fun hc => absurd hc htotal, fun _ => hs⟩

/-- `nsfs_tx_image` behind the journal keeps the guard. -/
lemma nsfsTxImage_maintains (hb : l.inodeBitmapStart ≤ b) :
    Maintains (Guarded env l s₀) (nsfsTxImage b) fun _ => True := by
  have h : Maintains (Guarded env l s₀) (nsfsTxImage b >>= pure) fun _ => True :=
    txImage_bind_maintains hb fun s hs _ => ⟨hs, trivial⟩
  rwa [bind_pure] at h

/-- Storing an image outside the inode table keeps the guard. -/
lemma txStore_maintains (hb : b < l.inodeTableStart ∨ l.dataStart ≤ b) (x : Block) :
    Maintains (Guarded env l s₀) (txStore b x) fun _ => True :=
  fun _ hs => ⟨hs.storeImage hb x, trivial⟩

/-- Reading an image keeps anything. -/
lemma txLoad_maintains {I : St → Prop} (b : ℕ) : Maintains I (txLoad b) fun _ => True :=
  fun _ hs => ⟨hs, trivial⟩

/-- A pointer that `requireDataBlock` accepts does not point in front of the data area. -/
lemma requireDataBlock_maintains (b : ℕ) :
    Maintains (Guarded env l s₀) (requireDataBlock b) fun _ => l.Inside b := by
  apply get_bind
  intro s hs
  apply Maintains.require
  rw [hs.active.describes.dataStart]
  rintro (h | h)
  · exact .inl h
  · exact .inr h.1

/-! ### Bitmaps -/

lemma setFreeBlocks_maintains (count : ℕ) :
    Maintains (Guarded env l s₀) (setFreeBlocks count) fun _ => True := by
  intro s hs
  refine Sat.mono (setFreeBlocks_runs {b | l.dataStart ≤ b} s count fun _ => False) ?_ ?_
  · rintro - s' ⟨hf, hview, -⟩
    exact ⟨hs.step hf fun c _ _ => by rw [hview], trivial⟩
  · rintro e s' ⟨-, ⟨⟩⟩

lemma setFreeInodes_maintains (count : ℕ) :
    Maintains (Guarded env l s₀) (setFreeInodes count) fun _ => True := by
  intro s hs
  refine Sat.mono (setFreeInodes_runs {b | l.dataStart ≤ b} s count fun _ => False) ?_ ?_
  · rintro - s' ⟨hf, hview, -⟩
    exact ⟨hs.step hf fun c _ _ => by rw [hview], trivial⟩
  · rintro e s' ⟨-, ⟨⟩⟩

lemma nsfsBitmapTest_maintains (start item : ℕ) :
    Maintains (Guarded env l s₀) (nsfsBitmapTest start item) fun _ => True := by
  apply seq nsfsAllocate_maintains
  apply Maintains.bind (nsfsReadBlock_maintains _)
  intro _ _
  exact .pure trivial

/-- Changing a bitmap keeps the guard. -/
lemma nsfsTxBitmapPut_maintains {start item : ℕ} (value : Bool) (hlo : l.inodeBitmapStart ≤ start)
    (hhi : start + item / 32768 < l.inodeTableStart) :
    Maintains (Guarded env l s₀) (nsfsTxBitmapPut start item value) fun _ => True := by
  apply Maintains.bind (nsfsTxImage_maintains (Nat.le_add_right_of_le hlo))
  intro _ _
  apply check
  exact txStore_maintains (Or.inl hhi) _

/-- Scanning a bitmap keeps the guard. -/
lemma scanImage_maintains {start : ℕ} (item : ℕ) (hlo : l.inodeBitmapStart ≤ start)
    (current : Option (ℕ × Block)) :
    Maintains (Guarded env l s₀) (scanImage start item current) fun _ => True := by
  have himage : Maintains (Guarded env l s₀) (nsfsTxImage (start + item / 32768)) fun _ => True :=
    nsfsTxImage_maintains (Nat.le_add_right_of_le hlo)
  cases current with
  | none => exact himage
  | some p => exact .ite (fun _ => Maintains.pure trivial) fun _ => himage

/-- A scan returns a number of its range. -/
lemma bitmapScan_maintains {start : ℕ} (hlo : l.inodeBitmapStart ≤ start) (remaining : ℕ) :
    ∀ item current, Maintains (Guarded env l s₀) (bitmapScan start remaining item current)
      fun r => item ≤ r.1 ∧ r.1 < item + remaining := by
  induction remaining with
  | zero =>
    intro item current
    exact .throw _
  | succ remaining ih =>
    intro item current
    apply Maintains.bind (scanImage_maintains item hlo current)
    intro bitmap _
    apply Maintains.ite
    · intro _
      exact .pure ⟨le_rfl, by simp⟩
    · intro _
      refine (ih (item + 1) _).mono fun r hr => ?_
      omega

/-! ### Blocks -/

/-- Clearing a new block keeps the guard. -/
lemma clearNewBlock_maintains (journalImage : Bool) (hb : l.dataStart ≤ b)
    (hlo : l.inodeBitmapStart ≤ b) :
    Maintains (Guarded env l s₀) (clearNewBlock journalImage b) fun _ => True := by
  apply Maintains.ite
  · intro _
    apply seq (nsfsTxImage_maintains hlo)
    exact txStore_maintains (Or.inr hb) _
  · intro _
    apply seq nsfsAllocate_maintains
    exact nsfsWriteBlock_maintains hb _

/-- An allocated block lies in the data area. -/
lemma nsfsAllocateBlock_maintains (journalImage : Bool) :
    Maintains (Guarded env l s₀) (nsfsAllocateBlock journalImage)
      fun b => l.dataStart ≤ b ∧ b < l.totalBlocks := by
  apply get_bind
  intro s hs
  have hr := hs.active.layout.regions
  simp only [hs.active.describes.blockBitmapStart, hs.active.describes.totalBlocks,
    hs.active.describes.dataStart]
  apply check
  apply Maintains.bind (bitmapScan_maintains (by omega) _ _ _)
  rintro ⟨block, bitmap⟩ ⟨hlo, hhi⟩
  have hbitmap : l.blockBitmapStart + block / 32768 < l.inodeTableStart := by
    omega
  apply seq (txStore_maintains (Or.inl hbitmap) _)
  apply Maintains.bind (setFreeBlocks_maintains _)
  intro _ _
  have hundo : Maintains (Guarded env l s₀) (do
      txStore (l.blockBitmapStart + block / 32768)
        (nsfsBitmapPut (nsfsBitmapPut bitmap (block % 32768) true) (block % 32768) false)
      setFreeBlocks s.fs.superblock.freeBlocks) fun _ => True := by
    apply seq (txStore_maintains (Or.inl hbitmap) _)
    exact setFreeBlocks_maintains _
  apply Maintains.bind
    ((clearNewBlock_maintains journalImage hlo (by dsimp only at hlo; omega)).onFailure hundo)
  intro _ _
  refine .pure ⟨hlo, ?_⟩
  omega

lemma nsfsFreeBlock_maintains (b : ℕ) :
    Maintains (Guarded env l s₀) (nsfsFreeBlock b) fun _ => True := by
  apply get_bind
  intro s hs
  have hr := hs.active.layout.regions
  apply require_bind
  intro hb
  rw [hs.active.describes.dataStart, hs.active.describes.totalBlocks] at hb
  rw [hs.active.describes.blockBitmapStart]
  apply seq (nsfsTxBitmapPut_maintains false (by omega) (by omega))
  exact setFreeBlocks_maintains _

/-! ### Inodes -/

lemma nsfsAllocateInode_maintains :
    Maintains (Guarded env l s₀) nsfsAllocateInode fun _ => True := by
  apply get_bind
  intro s hs
  have hr := hs.active.layout.regions
  have hinodes := hs.active.layout.inodes
  simp only [hs.active.describes.inodeBitmapStart, hs.active.describes.totalInodes]
  apply check
  apply Maintains.bind (bitmapScan_maintains le_rfl _ _ _)
  rintro ⟨inode, bitmap⟩ ⟨hlo, hhi⟩
  have hbitmap : l.inodeBitmapStart + inode / 32768 < l.inodeTableStart := by
    omega
  apply seq (txStore_maintains (Or.inl hbitmap) _)
  apply seq (setFreeInodes_maintains _)
  exact .pure trivial

lemma nsfsInodeDiskLocation_maintains (i : ℕ) :
    Maintains (Guarded env l s₀) (nsfsInodeDiskLocation i) fun location =>
      i < l.inodeCount ∧ location = (l.inodeTableStart + i * 128 / 4096, i * 128 % 4096) := by
  apply get_bind
  intro s hs
  rw [hs.active.describes.totalInodes, hs.active.describes.inodeTableStart]
  apply require_bind
  intro hi
  exact .pure ⟨hi, rfl⟩

/-- Testing an inode number keeps the guard. -/
lemma inodeAllocated_maintains (i : ℕ) :
    Maintains (Guarded env l s₀) (inodeAllocated true i) fun _ => True := by
  apply get_bind
  intro s hs
  rw [hs.active.describes.inodeBitmapStart]
  apply Maintains.bind (nsfsBitmapTest_maintains _ _)
  intro _ _
  apply Maintains.ite
  · intro _
    apply Maintains.bind (nsfsTxImage_maintains (Nat.le_add_right _ _))
    intro _ _
    exact .pure trivial
  · intro _
    exact .pure trivial

/-- `nsfs_read_inode` checks a record in four ways, but not its pointers: that the indirect block is
where it should be is known from the invariant only. -/
lemma nsfsReadInode_maintains (i : ℕ) :
    Maintains (Guarded env l s₀) (nsfsReadInode true i) fun r => l.Inside r.indirect := by
  apply get_bind
  intro s hs
  have hr := hs.regions
  apply check
  apply Maintains.bind (inodeAllocated_maintains i)
  intro _ _
  apply check
  apply Maintains.bind (nsfsInodeDiskLocation_maintains i)
  rintro - ⟨hi, rfl⟩
  refine txImage_bind_maintains (by omega) fun s' hs' _ => ?_
  have hrecord : (view s' (l.inodeTableStart + i * 128 / 4096)).slice (i * 128 % 4096) =
      (vol l s').inode i := (if_pos hi).symm
  rw [sat_bind, sat_require, hrecord]
  exact ⟨fun hok => ⟨hs', hs'.indirects i hok⟩, fun _ => hs'⟩

/-- Sealing a record leaves the indirect pointer alone. -/
lemma indirect_nsfsInodeChecksum (r : DiskInode) : (nsfsInodeChecksum r).indirect = r.indirect := by
  unfold nsfsInodeChecksum DiskInode.indirect DiskInode.setChecksum
  rw [Bytes.le_putLe_of_disjoint (by omega), Bytes.le_putLe_of_disjoint (by omega)]

/-- Writing a record keeps the guard if its indirect block is not in front of the data area. -/
lemma nsfsWriteInode_maintains (i : ℕ) (hr : l.Inside r.indirect) :
    Maintains (Guarded env l s₀) (nsfsWriteInode i r) fun _ => True := by
  apply Maintains.bind (nsfsInodeDiskLocation_maintains i)
  rintro - ⟨hi, rfl⟩
  intro s hs
  have hreg := hs.regions
  refine txImage_bind_maintains (by omega) (fun s' hs' hloaded => ?_) s hs
  refine ⟨hs'.storeRecord hi hloaded fun _ => ?_, trivial⟩
  rw [indirect_nsfsInodeChecksum]
  exact hr

/-- A record of zeros is refused. -/
lemma not_inodeOk_zero : ¬ InodeOk Bytes.zero := by
  rintro ⟨-, -, hlinks, -⟩
  exact hlinks (Bytes.le_zero 12 4)

lemma nsfsReleaseInodeNumber_maintains (i : ℕ) :
    Maintains (Guarded env l s₀) (nsfsReleaseInodeNumber i) fun _ => True := by
  apply check
  apply Maintains.bind (nsfsInodeDiskLocation_maintains i)
  rintro - ⟨hi, rfl⟩
  intro s hs
  have hreg := hs.active.layout.regions
  refine txImage_bind_maintains (by omega) (fun s' hs' hloaded => ?_) s hs
  have hcleared := hs'.storeRecord (r := Bytes.zero) hi hloaded fun hok =>
    absurd hok not_inodeOk_zero
  have hrest : Maintains (Guarded env l s₀) (do
      let s ← get
      nsfsTxBitmapPut s.fs.superblock.inodeBitmapStart i false
      setFreeInodes (s.fs.superblock.freeInodes + 1)) fun _ => True := by
    apply get_bind
    intro t ht
    rw [ht.active.describes.inodeBitmapStart]
    apply seq (nsfsTxBitmapPut_maintains false le_rfl (by omega))
    exact setFreeInodes_maintains _
  rw [Bytes.fill_zero (m := 128), sat_bind]
  exact hrest _ hcleared

end Northstar
