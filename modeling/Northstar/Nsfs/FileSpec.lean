import Northstar.Nsfs.Content

/-! # What the block-map functions do to the contents of a volume

One lemma for each function of `Nsfs.File` that reads or changes the block map of an inode. They
are stated with `Holds`: the function is called with the current record of inode `i`, and it
returns the new record, which becomes the current one. Below this file no pointer of a block map is
mentioned except for the one that a lookup has just returned.

File data is written to the device directly. `Direct U l i I s` collects what this needs: the data
blocks of inode `i` and the free blocks belong to the set `U` of blocks that may be written, and
the transaction has no images of them. -/

namespace Northstar

open Function Bytes Vol DiskInode

variable {U D : Set ℕ} {s s' : St} {env : Env} {l : Layout} {I : ℕ → DiskInode} {c : Content}
  {i k b : ℕ} {r : DiskInode}

/-! ### Fields -/

/-- Counting a block leaves the attributes alone. -/
lemma attrs_countBlock (r : DiskInode) : (countBlock r).attrs = r.attrs :=
  attrs_putLe_map r (by omega)

/-- Counting a block adds one. -/
lemma allocatedBlocks_countBlock {n : ℕ} (hr : r.allocatedBlocks = n) (hn : n ≤ 1037) :
    (countBlock r).allocatedBlocks = n + 1 := by
  subst hr
  exact le_putLe

namespace DiskInode

section

variable (r : DiskInode)

/-- The direct pointers after a change of one. -/
lemma direct_setDirect {m x : ℕ} (hk : k < 12) (hm : m < 12) (hx : x < 256 ^ 4) :
    (r.setDirect k x).direct m = if m = k then x else r.direct m := by
  by_cases hmk : m = k
  · subst hmk
    rw [if_pos rfl]
    exact le_putLe (by omega) hx
  · rw [if_neg hmk]
    exact le_putLe_of_disjoint

/-- A direct pointer is no attribute. -/
lemma attrs_setDirect (x : ℕ) (hk : k < 12) : (r.setDirect k x).attrs = r.attrs :=
  attrs_putLe_map r (by omega)

/-- The indirect pointer after a change. -/
lemma indirect_setIndirect {x : ℕ} (hx : x < 256 ^ 4) :
    (r.setIndirect x).indirect = x := le_putLe (by omega) hx

/-- The indirect pointer is no attribute. -/
lemma attrs_setIndirect (x : ℕ) : (r.setIndirect x).attrs = r.attrs :=
  attrs_putLe_map r (by omega)

end

end DiskInode

/-- The entries of an indirect block after a change of one. -/
lemma indirectEntry_putLe (image : Block) {index m x : ℕ} (hindex : index < 1024) (hm : m < 1024)
    (hx : x < 256 ^ 4) :
    indirectEntry (image.putLe (4 * index) 4 x) m =
      if m = index then x else indirectEntry image m := by
  by_cases hmi : m = index
  · subst hmi
    rw [if_pos rfl]
    exact le_putLe (by omega) hx
  · rw [if_neg hmi]
    exact le_putLe_of_disjoint

/-! ### Steps between contents -/

/-- The contents with the current records in place of the inode table. -/
abbrev cur (l : Layout) (I : ℕ → DiskInode) (s : St) : Vol := (vol l s).withInodes I

variable {v : Vol} {fb : ℕ} {journalData : Bool}

/-- There are no more free blocks than blocks. -/
lemma Vol.Mapped.free_le (h : v.Mapped l fb) : fb ≤ l.totalBlocks := by
  rw [h.owned.free]
  refine (Finset.card_filter_le _ _).trans ?_
  simp

/-- A free block `b` is put into the empty slot `k` of inode `i`, whose record becomes `r`. -/
structure Takes (l : Layout) (I : ℕ → DiskInode) (s s' : St) (i k b : ℕ) (r : DiskInode) :
    Prop where
  edit : Vol.Edit l (cur l I s) (cur l (update I i r) s') i k b b
  hole : (cur l I s).ptr i k = 0
  area : l.dataStart ≤ b ∧ b < l.totalBlocks
  free : (vol l s).balloc b = false
  balloc : (vol l s').balloc = update (vol l s).balloc b true
  superblock : s'.fs.superblock = s.fs.superblock.setFreeBlocks (s.fs.superblock.freeBlocks - 1)
  table : (vol l s').inode = (vol l s).inode
  count : r.allocatedBlocks = (I i).allocatedBlocks + 1

namespace Holds

/-- The handle of a transaction is healthy. -/
lemma ready (h : Holds env l D I c s) : Ready env l s := h.active.toReady

/-- A positive counter has a free block behind it. -/
lemma exists_free (h : Holds env l D I c s) (hne : s.fs.superblock.freeBlocks ≠ 0) :
    ∃ b, l.dataStart ≤ b ∧ b < l.totalBlocks ∧ (vol l s).balloc b = false :=
  h.mapped.owned.exists_free hne

/-- An empty slot is a hole. -/
lemma blk_of_hole (h : Holds env l D I c s) (hi : c.live i = true) (hk : k < 1036)
    (h0 : (cur l I s).ptr i k = 0) : c.blk i k = none := by
  rw [h.blk_eq hi hk]
  exact blk_eq_none.mpr h0

variable {c' : Content}

section

variable (h : Holds env l D I c s) (hf : Frame U s s') (hD : i ∈ D)
include h hf hD

/-- A step that rewrites one slot. -/
lemma of_edit {x : ℕ} (e : Vol.Edit l (cur l I s) (cur l (update I i r) s') i k x b)
    (hmapped : (cur l (update I i r) s').Mapped l s'.fs.superblock.freeBlocks)
    (hfree : s'.fs.superblock.freeInodes = s.fs.superblock.freeInodes)
    (htable : (vol l s').inode = (vol l s).inode)
    (hcontent : (cur l (update I i r) s').content l = c') :
    Holds env l D (update I i r) c' s' := by
  have hialloc : (vol l s').ialloc = (vol l s).ialloc := e.ialloc
  refine ⟨hf.active env l h.active, hmapped, by rw [hfree, hialloc]; exact h.counted,
    ?_, ?_, hcontent⟩
  · intro j hj
    have hji : j ≠ i := fun he => hj (he ▸ hD)
    rw [htable, update_of_ne hji]
    exact h.synced j hj
  · intro j hj hlive
    rw [htable]
    exact h.checked j hj ((e.live_iff j).mp hlive)

/-- Taking a block for a slot, if the contents become `c'`. -/
lemma take (t : Takes l I s s' i k b r) (hcontent : (cur l (update I i r) s').content l = c') :
    Holds env l D (update I i r) c' s' := by
  have hr := h.ready.layout.regions
  have hle := h.mapped.free_le
  have hcounter : s'.fs.superblock.freeBlocks = s.fs.superblock.freeBlocks - 1 := by
    rw [t.superblock]
    exact le_putLe
  refine h.of_edit hf hD t.edit ?_ ?_ t.table hcontent
  · have := t.area.1
    rw [hcounter]
    exact t.edit.mapped_take h.mapped (by omega) t.hole this t.area.2 t.free t.balloc
      (by simpa [withInodes] using t.count)
  · rw [t.superblock]
    exact le_putLe_of_disjoint

/-- The block of a slot was freed, and the record without it, `r`, is counted down. -/
lemma uncountBlock_runs (hptr : (cur l I s).ptr i k = b) (h0 : b ≠ 0)
    (hballoc : (vol l s').balloc = update (vol l s).balloc b false)
    (hsb : s'.fs.superblock = s.fs.superblock.setFreeBlocks (s.fs.superblock.freeBlocks + 1))
    (htable : (vol l s').inode = (vol l s).inode)
    (hcount : r.allocatedBlocks = (I i).allocatedBlocks) (hattr : r.attrs = (I i).attrs)
    (he : ∀ r', (∀ m < 12, r'.direct m = r.direct m) → r'.indirect = r.indirect →
      Vol.Edit l (cur l I s) (cur l (update I i r') s') i k 0 b) (E : Errno → Prop) :
    Runs (Frame U) (uncountBlock r) s' (fun r' s'' =>
      Holds env l D (update I i r') (c.set i k none) s'' ∧ r'.indirect = r.indirect) E := by
  have e := he (r.setAllocatedBlocks (r.allocatedBlocks - 1)) (fun _ _ => le_putLe_of_disjoint)
    le_putLe_of_disjoint
  have hpos : 0 < (I i).allocatedBlocks := h.mapped.count_pos e.live e.slot (hptr ▸ h0)
  have hmax : (I i).allocatedBlocks ≤ 1037 := h.mapped.count_le e.live
  have hr := h.ready.layout.regions
  have hle := h.mapped.free_le
  have hcounter : s'.fs.superblock.freeBlocks = s.fs.superblock.freeBlocks + 1 := by
    rw [hsb]
    exact le_putLe
  have hless : (r.setAllocatedBlocks (r.allocatedBlocks - 1)).allocatedBlocks =
      r.allocatedBlocks - 1 := le_putLe
  have hattr' : (r.setAllocatedBlocks (r.allocatedBlocks - 1)).attrs = (I i).attrs :=
    (attrs_putLe_map _ (by omega)).trans hattr
  refine .require_pos (by omega)
    (Runs.pure ⟨h.of_edit hf hD e ?_ ?_ htable ?_, le_putLe_of_disjoint⟩)
  · rw [hcounter]
    refine e.mapped_drop h.mapped hptr h0 hballoc ?_
    simp only [withInodes, update_self]
    omega
  · rw [hsb]
    exact le_putLe_of_disjoint
  · rw [e.content_drop h.mapped (by simpa [withInodes] using hattr'), h.content]

end

end Holds

section

variable (U : Set ℕ) (h : Ready env l s) (hb : b = 0 ∨ l.dataStart ≤ b ∧ b < l.totalBlocks)
include h hb

/-- `requireDataBlock` changes nothing. -/
lemma requireDataBlock_looks (E : Errno → Prop) :
    Runs (Looks U) (requireDataBlock b) s (fun _ s' => s' = s) E := by
  refine .get_bind ?_
  rw [h.describes.dataStart, h.describes.totalBlocks]
  simpa [Runs, hb] using Looks.refl U s

lemma requireDataBlock_runs (E : Errno → Prop) :
    Runs (Frame U) (requireDataBlock b) s (fun _ s' => s' = s) E :=
  (requireDataBlock_looks U h hb E).frame fun _ hl => hl.frame

end

/-! ### Direct access to data blocks -/

/-- The data blocks of inode `i` and the free blocks may be written directly. -/
structure Direct (U : Set ℕ) (l : Layout) (i : ℕ) (I : ℕ → DiskInode) (s : St) : Prop where
  free : ∀ b, l.dataStart ≤ b → b < l.totalBlocks → (vol l s).balloc b = false →
    b ∈ U ∧ ¬ Loaded s b
  data : ∀ k < 1036, (cur l I s).ptr i k ≠ 0 →
    (cur l I s).ptr i k ∈ U ∧ ¬ Loaded s ((cur l I s).ptr i k)

/-- Loading metadata and the indirect block of the inode keeps direct access. -/
lemma Direct.of_loads (hd : Direct U l i I s) (h : Holds env l D I c s) (hi : c.live i = true)
    {B : Set ℕ} (hl : Loads B s s')
    (hB : ∀ b ∈ B, l.dataStart ≤ b → b ≠ 0 ∧ b = (I i).indirect) : Direct U l i I s' := by
  have hvol := hl.vol l
  have hlive := h.live_iff.mp hi
  constructor
  · intro b hb hb' hfree
    rw [hvol] at hfree
    obtain ⟨hU, hnot⟩ := hd.free b hb hb' hfree
    refine ⟨hU, fun hload => (hl.only b hload).elim hnot fun hmem => ?_⟩
    obtain ⟨h0, rfl⟩ := hB b hmem hb
    exact h.mapped.ptr_ne_free hfree h0 hlive (by omega : 1036 < 1037) (ptr_indirect _ _)
  · intro k hk h0
    rw [cur, hvol] at h0 ⊢
    obtain ⟨hU, hnot⟩ := hd.data k hk h0
    refine ⟨hU, fun hload => (hl.only _ hload).elim hnot fun hmem => ?_⟩
    have harea := h.mapped.area hlive (by omega) h0
    exact h.mapped.ptr_ne_indirect hlive hlive (by omega) (Or.inr (by omega)) h0
      (hB _ hmem harea.1).2

/-- A new block in a slot of the inode keeps direct access; a new data block must not have been
loaded. -/
lemma Direct.of_take (hd : Direct U l i I s) (h : Holds env l D I c s)
    (t : Takes l I s s' i k b r)
    (honly : ∀ d, Loaded s' d → Loaded s d ∨ d < l.dataStart ∨ k = 1036 ∧ d = b) :
    Direct U l i (update I i r) s' := by
  obtain ⟨e, -, hb, hfree, hballoc, -⟩ := t
  constructor
  · intro d hd1 hd2 hdfree
    have hdb : d ≠ b := by
      rintro rfl
      rw [hballoc, update_self] at hdfree
      exact absurd hdfree (by simp)
    rw [hballoc, update_of_ne hdb] at hdfree
    obtain ⟨hU, hnot⟩ := hd.free d hd1 hd2 hdfree
    refine ⟨hU, fun hload => ?_⟩
    rcases honly d hload with hl | hl | hl
    · exact hnot hl
    · omega
    · exact hdb hl.2
  · intro m hm h0
    rw [e.ptr m (by omega)] at h0 ⊢
    by_cases hmk : m = k
    · rw [if_pos hmk]
      obtain ⟨hU, hnot⟩ := hd.free b hb.1 hb.2 hfree
      refine ⟨hU, fun hload => ?_⟩
      rcases honly b hload with hl | hl | ⟨hl, -⟩
      · exact hnot hl
      · omega
      · omega
    · rw [if_neg hmk] at h0 ⊢
      obtain ⟨hU, hnot⟩ := hd.data m hm h0
      have harea := h.mapped.area e.live (by omega) h0
      refine ⟨hU, fun hload => ?_⟩
      rcases honly _ hload with hl | hl | hl
      · exact hnot hl
      · exact absurd harea.1 (not_le.mpr hl)
      · exact e.fresh i m e.live (by omega) (fun he => hmk (congrArg Prod.snd he)) h0 hl.2

/-! ### Allocating -/

/-- What `nsfs_tx_inode_data_block` returns when it may allocate: slot `k` of inode `i` has a
block, which is clear if the slot was a hole. -/
structure Allocated (U : Set ℕ) (env : Env) (l : Layout) (D : Set ℕ) (I : ℕ → DiskInode)
    (c : Content) (i k : ℕ) (journalData : Bool) (x : DiskInode × ℕ) (s : St) : Prop where
  holds : Holds env l D (update I i x.1)
    (c.set i k (some ((c.blk i k).getD Bytes.zero))) s
  ptr : (cur l (update I i x.1) s).ptr i k = x.2
  ne_zero : x.2 ≠ 0
  direct : journalData = false → Direct U l i (update I i x.1) s

section

variable (h : Holds env l D I c s)
include h

/-- The slot was a hole and got a cleared block. -/
lemma Allocated.of_take (hf : Frame U s s') (hD : i ∈ D)
    (hi : c.live i = true) (hk : k < 1036) (t : Takes l I s s' i k b r)
    (hattr : r.attrs = (I i).attrs) (hzero : (vol l s').data b = Bytes.zero)
    (hd : journalData = false → Direct U l i I s)
    (honly : ∀ d, Loaded s' d → Loaded s d ∨ d < l.dataStart ∨ journalData = true ∧ d = b) :
    Allocated U env l D I c i k journalData (r, b) s' := by
  have hne : b ≠ 0 := by
    have := h.ready.layout.regions
    have := t.area
    omega
  have hptr : (cur l (update I i r) s').ptr i k = b := by
    rw [t.edit.ptr k (by omega), if_pos rfl]
  have hblk := h.blk_of_hole hi hk t.hole
  have hblk' : (cur l (update I i r) s').blk i k = some Bytes.zero := by
    rw [blk_of_ptr (by rwa [hptr]), hptr]
    exact congrArg some hzero
  refine ⟨h.take hf hD t ?_, hptr, hne, fun hj => (hd hj).of_take h t fun d hload => ?_⟩
  · rw [t.edit.content_data h.mapped hk (by simpa [withInodes] using hattr), hblk', hblk,
      h.content]
    rfl
  · rcases honly d hload with hl | hl | hl
    · exact .inl hl
    · exact .inr (Or.inl hl)
    · exact absurd hl.1 (by simp [hj])

/-- The slot already has a block. -/
lemma Allocated.of_ptr_runs (hi : c.live i = true) (hk : k < 1036)
    (hd : journalData = false → Direct U l i I s) (hptr : (cur l I s).ptr i k = b) (h0 : b ≠ 0) :
    Runs (Frame U) (do requireDataBlock b; pure (I i, b)) s
      (Allocated U env l D I c i k journalData) (SpaceExcuse env l) := by
  subst hptr
  have harea := h.mapped.area (h.live_iff.mp hi) (by omega) h0
  refine .bind (requireDataBlock_runs U h.ready (Or.inr ⟨harea.1, harea.2.1⟩) _) ?_
  rintro - s1 - rfl
  have hblk : c.blk i k = some ((cur l I s1).data ((cur l I s1).ptr i k)) := by
    rw [h.blk_eq hi hk]
    exact blk_of_ptr h0
  have hset : c.set i k (some ((c.blk i k).getD Bytes.zero)) = c := by
    rw [hblk, Option.getD_some, ← hblk, Content.set_self]
  refine .pure ⟨?_, ?_, h0, ?_⟩ <;> rw [update_eq_self]
  · rw [hset]
    exact h
  · exact hd

section

variable (hD : i ∈ D) (hi : c.live i = true)
include hD hi

/-- A direct slot is given a block if it has none. -/
lemma directDataBlock_runs (hk : k < 12) (hd : journalData = false → Direct U l i I s) :
    Runs (Frame U) (directDataBlock (I i) k true journalData) s
      (Allocated U env l D I c i k journalData) (SpaceExcuse env l) := by
  have hr := h.ready.layout.regions
  have hlive := h.live_iff.mp hi
  have hptr : (cur l I s).ptr i k = (I i).direct k := ptr_direct _ _ hk
  refine .ite (fun hzero => ?_) fun hnz => ?_
  · refine .bind (nsfsAllocateBlock_runs h.active journalData h.exists_free
      fun hj b h1 h2 h3 => (hd hj).free b h1 h2 h3) ?_
    rintro b s1 hf1 ⟨hlo, hhi, hfree, hvol, hsb, -, -, honly⟩
    refine .bind (requireDataBlock_runs U (hf1.ready h.ready) (Or.inr ⟨hlo, hhi⟩) _) ?_
    rintro - s2 - rfl
    have e : Vol.Edit l (cur l I s) (cur l (update I i
        (countBlock ((I i).setDirect k b))) s2) i k b b := by
      refine Vol.Edit.of_direct hlive (by simp [withInodes, hvol]) rfl ?_ hk (fun d hdb => ?_)
        (fun m hm => ?_) ?_
      · exact fun j m hj hm _ _ => h.mapped.ptr_ne_free hfree (by omega) hj hm
      · simp [withInodes, hvol, hdb]
      · exact (le_putLe_of_disjoint).trans (direct_setDirect _ hk hm (by omega))
      · exact (le_putLe_of_disjoint).trans le_putLe_of_disjoint
    refine .pure (Allocated.of_take h hf1 hD hi (by omega) ⟨e, hptr.trans hzero.1, ⟨hlo, hhi⟩,
      hfree, by rw [hvol], hsb, by rw [hvol],
      allocatedBlocks_countBlock le_putLe_of_disjoint (h.mapped.count_le hlive)⟩ ?_
      (by simp [hvol]) hd honly)
    rw [attrs_countBlock, attrs_setDirect _ _ hk]
  · exact Allocated.of_ptr_runs h hi (by omega) hd hptr fun he => hnz ⟨he, rfl⟩

/-- The indirect block is there and has an image in the transaction. -/
lemma indirectBlock_runs (hd : journalData = false → Direct U l i I s) :
    Runs (Frame U) (indirectBlock (I i) true) s
      (fun x s' => Holds env l D (update I i x.1) c s' ∧ x.1.indirect = x.2 ∧ x.2 ≠ 0 ∧
        Loaded s' x.2 ∧ (journalData = false → Direct U l i (update I i x.1) s'))
      (SpaceExcuse env l) := by
  have hr := h.ready.layout.regions
  have hlive := h.live_iff.mp hi
  have hptr : (cur l I s).ptr i 1036 = (I i).indirect := ptr_indirect _ _
  refine .ite (fun hzero => ?_) fun hnz => ?_
  · refine .ite (fun _ => ?_) fun hf => absurd rfl hf
    refine .bind (nsfsAllocateBlock_runs h.active true h.exists_free (by simp)) ?_
    rintro b s1 hf1 ⟨hlo, hhi, hfree, hvol, hsb, hload, -, honly⟩
    have e : Vol.Edit l (cur l I s) (cur l (update I i
        (countBlock ((I i).setIndirect b))) s1) i 1036 b b := by
      refine Vol.Edit.of_indirect hlive (by simp [withInodes, hvol]) rfl ?_ rfl
        (fun d hdb => ?_) (fun m hm => ?_) ?_ (fun m hm hm' => ?_) fun _ m hm => ?_
      · exact fun j m hj hm _ _ => h.mapped.ptr_ne_free hfree (by omega) hj hm
      · simp [withInodes, hvol, hdb]
      · exact (le_putLe_of_disjoint).trans le_putLe_of_disjoint
      · exact (le_putLe_of_disjoint).trans (indirect_setIndirect _ (by omega))
      · exact ptr_entry_of_none _ _ hm hm' hzero
      · simp [withInodes, hvol]
    have hattr : (countBlock ((I i).setIndirect b)).attrs = (I i).attrs := by
      rw [attrs_countBlock, attrs_setIndirect]
    have t : Takes l I s s1 i 1036 b (countBlock ((I i).setIndirect b)) :=
      ⟨e, hptr.trans hzero, ⟨hlo, hhi⟩, hfree, by rw [hvol], hsb, by rw [hvol],
        allocatedBlocks_countBlock le_putLe_of_disjoint (h.mapped.count_le hlive)⟩
    refine .pure ⟨h.take hf1 hD t ?_, ?_, by simp only; omega, hload rfl, fun hj => ?_⟩
    · rw [e.content_indirect h.mapped (by simpa [withInodes] using hattr), h.content]
    · exact (le_putLe_of_disjoint).trans (indirect_setIndirect _ (by omega))
    · refine (hd hj).of_take h t fun d hload => ?_
      rcases honly d hload with hl | hl | hl
      · exact .inl hl
      · exact .inr (Or.inl hl)
      · exact .inr (Or.inr ⟨rfl, hl.2⟩)
  · have harea := h.mapped.area hlive (by omega : 1036 < 1037) (by rw [hptr]; exact hnz)
    refine .bind (requireDataBlock_runs U h.ready (Or.inr ⟨harea.1, harea.2.1⟩) _) ?_
    rintro - s1 - rfl
    refine .bind ((nsfsTxImage_runs U h.active ⟨by omega, harea.2.1⟩).weaken Excuse.space) ?_
    rintro image s2 hf2 ⟨-, hl2, hload2⟩
    refine .pure ⟨?_, rfl, hnz, hload2, fun hj => ?_⟩
    · rw [update_eq_self]
      exact h.of_loads hf2 hl2
    · rw [update_eq_self]
      refine (hd hj).of_loads h hi hl2 ?_
      rintro b rfl -
      exact ⟨hnz, rfl⟩

/-- A slot of the indirect block is given a block if it has none. -/
lemma indirectDataBlock_runs
    (hk : 12 ≤ k) (hk' : k < 1036) (hind : (I i).indirect ≠ 0) (hload : Loaded s (I i).indirect)
    (hd : journalData = false → Direct U l i I s) :
    Runs (Frame U) (indirectDataBlock (I i) (I i).indirect (k - 12) true journalData) s
      (Allocated U env l D I c i k journalData) (SpaceExcuse env l) := by
  have hr := h.ready.layout.regions
  have hlive := h.live_iff.mp hi
  have hindptr : (cur l I s).ptr i 1036 = (I i).indirect := ptr_indirect _ _
  have hindarea := h.mapped.area hlive (by omega : 1036 < 1037) (by rw [hindptr]; exact hind)
  rw [hindptr] at hindarea
  have hview := view_eq_data ⟨hindarea.1, hindarea.2.1⟩ s
  have hptr : (cur l I s).ptr i k = indirectEntry (view s (I i).indirect) (k - 12) := by
    rw [hview]
    exact ptr_entry _ _ hk hk' hind
  refine .bind (txLoad_runs U hload _) ?_
  rintro image s0 - ⟨rfl, rfl⟩
  refine .ite (fun hzero => ?_) fun hnz => ?_
  · refine .bind (nsfsAllocateBlock_runs h.active journalData h.exists_free
      fun hj b h1 h2 h3 => (hd hj).free b h1 h2 h3) ?_
    rintro b s1 hf1 ⟨hlo, hhi, hfree, hvol, hsb, -, hkeep, honly⟩
    refine .bind (txLoad_runs U (hkeep _ hload) _) ?_
    rintro image s2 - ⟨rfl, rfl⟩
    refine .bind (txStore_runs U (hkeep _ hload) _ _) ?_
    rintro - s3 hf3 ⟨hv3, hsb3, hdev3, hload3⟩
    refine .bind (requireDataBlock_runs U (hf3.ready (hf1.ready h.ready))
      (Or.inr ⟨hlo, hhi⟩) _) ?_
    rintro - s4 - rfl
    have hne : (I i).indirect ≠ b := by
      rw [← hindptr]
      exact h.mapped.ptr_ne_free hfree (by omega) hlive (by omega)
    have hvol4 : vol l s4 = { vol l s0 with
        balloc := update (vol l s0).balloc b true
        data := update (update (vol l s0).data b Bytes.zero) (I i).indirect
          (((vol l s0).data (I i).indirect).putLe (4 * (k - 12)) 4 b) } := by
      rw [h.ready.layout.vol_put_data ⟨hindarea.1, hindarea.2.1⟩ hv3,
        view_eq_data ⟨hindarea.1, hindarea.2.1⟩ s2, hvol]
      simp [hne]
    have e : Vol.Edit l (cur l I s0) (cur l (update I i (countBlock (I i))) s4) i k b b := by
      refine Vol.Edit.of_entry hlive (by simp [withInodes, hvol4]) rfl ?_ hk hk' hind
        (fun d hdb hdi => ?_) (fun _ _ => le_putLe_of_disjoint) le_putLe_of_disjoint
        fun m hm => ?_
      · exact fun j m hj hm _ _ => h.mapped.ptr_ne_free hfree (by omega) hj hm
      · have hdi' : d ≠ (I i).indirect := hdi
        simp [withInodes, hvol4, hdb, hdi']
      · simp only [withInodes, hvol4, update_self]
        exact indirectEntry_putLe _ (by omega) hm (by omega)
    exact .pure (Allocated.of_take h (hf1.trans hf3) hD hi hk' ⟨e, hptr.trans hzero.1, ⟨hlo, hhi⟩,
      hfree, by rw [hvol4], hsb3.trans hsb, by rw [hvol4],
      allocatedBlocks_countBlock rfl (h.mapped.count_le hlive)⟩ (attrs_countBlock (I i))
      (by simp [hvol4, hne.symm]) hd fun d hd' => honly d ((hload3 d).mp hd'))
  · exact Allocated.of_ptr_runs h hi hk' hd hptr fun he => hnz ⟨he, rfl⟩

/-- `nsfs_tx_inode_data_block` with `allocate` set. -/
lemma nsfsTxInodeDataBlock_runs (hk : k < 1036) (hd : journalData = false → Direct U l i I s) :
    Runs (Frame U) (nsfsTxInodeDataBlock (I i) k true journalData) s
      (Allocated U env l D I c i k journalData) (SpaceExcuse env l) := by
  refine .require_pos hk (Runs.ite (fun hk12 => directDataBlock_runs h hD hi hk12 hd)
    fun hk12 => ?_)
  refine .bind (indirectBlock_runs h hD hi hd) ?_
  rintro ⟨r, indirect⟩ s1 hf1 ⟨h₁, hindirect, hne, hload, hd₁⟩
  simp only at hindirect hne hload ⊢
  subst hindirect
  refine .ite (fun h0 => absurd h0 hne) fun _ => ?_
  have hself : update I i r i = r := update_self ..
  have hrun := indirectDataBlock_runs h₁ hD hi (by omega : 12 ≤ k) hk (by rw [hself]; exact hne)
    (by rw [hself]; exact hload) hd₁
  rw [hself] at hrun
  refine hrun.imp ?_
  rintro x s2 - ⟨h1, h2, h3, h4⟩
  simp only [update_idem] at h1 h2 h4
  exact ⟨h1, h2, h3, h4⟩

end

end

/-! ### Looking up -/

/-- `nsfs_tx_inode_data_block` without `allocate` only looks a block up. -/
lemma nsfsTxInodeDataBlock_looks (U : Set ℕ) (ha : Active env l s)
    (hv : ∀ b, l.dataStart ≤ b → b < l.totalBlocks → view s b = v.data b)
    (hm : v.Mapped l fb) (hi : v.Live l i) (hk : k < 1036) (journalData : Bool) :
    Runs (Looks U) (nsfsTxInodeDataBlock (v.inode i) k false journalData) s
      (fun x _ => x = (v.inode i, v.ptr i k)) (Excuse env l) := by
  have hr := ha.layout.regions
  have harea : ∀ m < 1037, v.ptr i m = 0 ∨ l.dataStart ≤ v.ptr i m ∧ v.ptr i m < l.totalBlocks :=
    fun m hm' => hm.null_or_area hi hm'
  refine .require_pos hk (Runs.ite (fun hk12 => ?_) fun hk12 => ?_)
  · unfold directDataBlock
    rw [if_neg (by simp), ← ptr_direct v i hk12]
    refine .bind (requireDataBlock_looks U ha.toReady (harea k (by omega)) _) ?_
    rintro - s1 - rfl
    exact .pure rfl
  · unfold indirectBlock
    by_cases h0 : (v.inode i).indirect = 0
    · rw [if_pos h0, if_neg (by simp)]
      have hnone : v.ptr i k = 0 := ptr_entry_of_none _ _ (by omega) hk h0
      refine .bind (P := fun x s' => x = (v.inode i, 0) ∧ s' = s) (Runs.pure ⟨rfl, rfl⟩) ?_
      rintro - s1 - ⟨rfl, rfl⟩
      exact .ite (fun _ => Runs.pure (by rw [hnone])) fun hn => absurd rfl hn
    · rw [if_neg h0]
      have hind := harea 1036 (by omega)
      rw [ptr_indirect] at hind
      have hind' := hind.resolve_left h0
      refine .bind (P := fun x s' => x = (v.inode i, (v.inode i).indirect) ∧
        Loaded s' (v.inode i).indirect) ?_ ?_
      · refine .bind (requireDataBlock_looks U ha.toReady hind _) ?_
        rintro - s1 - rfl
        refine .bind (nsfsTxImage_looks U ha ⟨by omega, hind'.2⟩) ?_
        rintro image s2 - ⟨-, -, hload2⟩
        exact .pure ⟨rfl, hload2⟩
      · rintro - s1 hf1 ⟨rfl, hload1⟩
        refine .ite (fun hz => absurd hz h0) fun _ => ?_
        have hentry : v.ptr i k = indirectEntry (view s1 (v.inode i).indirect) (k - 12) := by
          rw [hf1.loads.view, hv _ hind'.1 hind'.2]
          exact ptr_entry _ _ (by omega) hk h0
        refine .bind (txLoad_looks U hload1 _) ?_
        rintro image s2 - ⟨rfl, rfl⟩
        rw [if_neg (by simp), ← hentry]
        refine .bind (requireDataBlock_looks U (hf1.frame.ready ha.toReady)
          (harea k (by omega)) _) ?_
        rintro - s3 - rfl
        exact .pure rfl

/-- `nsfs_inode_data_block` while the device holds what the transaction sees. -/
lemma nsfsInodeDataBlock_looks (U : Set ℕ) (hready : Ready env l s)
    (hv : ∀ b, l.dataStart ≤ b → b < l.totalBlocks → s.device.current b = v.data b)
    (hm : v.Mapped l fb) (hi : v.Live l i) (hk : k < 1036) :
    Runs (Looks U) (nsfsInodeDataBlock (v.inode i) k) s
      (fun x s' => x = v.ptr i k ∧ Quiet s s') (Excuse env l) := by
  have harea : ∀ m < 1037, v.ptr i m = 0 ∨ l.dataStart ≤ v.ptr i m ∧ v.ptr i m < l.totalBlocks :=
    fun m hm' => hm.null_or_area hi hm'
  have hquiet : Quiet s s := ⟨rfl, rfl, rfl, rfl⟩
  refine .require_pos hk (Runs.ite (fun hk12 => ?_) fun hk12 => ?_)
  · rw [← ptr_direct v i hk12]
    refine .bind (requireDataBlock_looks U hready (harea k (by omega)) _) ?_
    rintro - s1 - rfl
    exact .pure ⟨rfl, hquiet⟩
  · refine .ite (fun h0 => ?_) fun h0 => ?_
    · exact .pure ⟨(ptr_entry_of_none v i (by omega) hk h0).symm, hquiet⟩
    · have hind := harea 1036 (by omega)
      rw [ptr_indirect] at hind
      have hind' := hind.resolve_left h0
      refine .bind (requireDataBlock_looks U hready hind _) ?_
      rintro - s1 - rfl
      refine .bind (nsfsAllocate_looks U hready) ?_
      rintro - s2 hf2 hq2
      refine .bind (nsfsReadBlock_looks U (hf2.frame.ready hready) hind'.2 _) ?_
      rintro block s3 - ⟨rfl, rfl⟩
      have hentry : v.ptr i k = indirectEntry (s3.device.current (v.inode i).indirect)
        (k - 12) := by
        rw [hq2.device, hv _ hind'.1 hind'.2]
        exact ptr_entry v i (by omega) hk h0
      rw [← hentry]
      refine .bind (requireDataBlock_looks U (hf2.frame.ready hready) (harea k (by omega)) _) ?_
      rintro - s4 - rfl
      exact .pure ⟨rfl, hq2⟩

/-! ### Freeing -/

section

variable (U : Set ℕ) (h : Holds env l D I c s) (hD : i ∈ D)
include h hD

section

variable (hi : c.live i = true)
include hi

lemma clearDirect_runs (hk : k < 12) (h0 : (I i).direct k ≠ 0) : Runs (Frame U) (do
        nsfsFreeBlock ((I i).direct k)
        uncountBlock ((I i).setDirect k 0)) s
      (fun r' s' => Holds env l D (update I i r') (c.set i k none) s') (Excuse env l) := by
  have hlive := h.live_iff.mp hi
  have hptr : (cur l I s).ptr i k = (I i).direct k := ptr_direct _ _ hk
  obtain ⟨hlo, hhi, hset⟩ := h.mapped.area hlive (by omega : k < 1037) (by rwa [hptr])
  rw [hptr] at hlo hhi hset
  refine .bind (nsfsFreeBlock_runs U h.active ⟨hlo, hhi⟩ hset) ?_
  rintro - s1 hf1 ⟨hvol, hsb, -⟩
  refine (h.uncountBlock_runs hf1 hD hptr h0 (by rw [hvol]) hsb (by rw [hvol]) le_putLe_of_disjoint
    (attrs_setDirect _ _ hk) (fun r' hdirect hindirect => ?_) _).imp (fun _ _ _ h' => h'.1)
  refine Vol.Edit.of_direct hlive (by simp [withInodes, hvol]) rfl ?_ hk (fun d _ => ?_)
    (fun m hm => ?_) ?_
  · rw [← hptr]
    exact h.mapped.fresh_of_held hlive (by omega)
  · simp [withInodes, hvol]
  · exact (hdirect m hm).trans (direct_setDirect _ hk hm (by omega))
  · exact hindirect.trans le_putLe_of_disjoint

/-- Clearing a slot of the indirect block. -/
lemma clearEntry_runs (hk : 12 ≤ k) (hk' : k < 1036) (hind : (I i).indirect ≠ 0) :
    Runs (Frame U) (do
        let image ← nsfsTxImage (I i).indirect
        if indirectEntry image (k - 12) = 0 then pure (I i)
        else do
          nsfsFreeBlock (indirectEntry image (k - 12))
          let image ← txLoad (I i).indirect
          txStore (I i).indirect (image.putLe (4 * (k - 12)) 4 0)
          uncountBlock (I i)) s
      (fun r' s' => Holds env l D (update I i r') (c.set i k none) s') (Excuse env l) := by
  have hr := h.ready.layout.regions
  have hlive := h.live_iff.mp hi
  have hindptr : (cur l I s).ptr i 1036 = (I i).indirect := ptr_indirect _ _
  have hindarea := h.mapped.null_or_area hlive (by omega : 1036 < 1037)
  rw [hindptr] at hindarea
  replace hindarea := hindarea.resolve_left hind
  have hptr : (cur l I s).ptr i k = indirectEntry (view s (I i).indirect) (k - 12) := by
    rw [view_eq_data hindarea s]
    exact ptr_entry _ _ hk hk' hind
  refine .bind (nsfsTxImage_runs U h.active ⟨by omega, hindarea.2⟩) ?_
  rintro image s1 hf1 ⟨rfl, hl1, hload1⟩
  rw [← hptr]
  have h₁ := h.of_loads hf1 hl1
  refine .ite (fun h0 => ?_) fun h0 => ?_
  · refine .pure ?_
    rw [update_eq_self, ← h.blk_of_hole hi hk' h0, Content.set_self]
    exact h₁
  · obtain ⟨hlo, hhi, hset⟩ := h.mapped.area hlive (by omega) h0
    have hset1 : (vol l s1).balloc ((cur l I s).ptr i k) = true := by
      rw [hl1.vol l]
      exact hset
    refine .bind (nsfsFreeBlock_runs U h₁.active ⟨hlo, hhi⟩ hset1) ?_
    rintro - s2 hf2 ⟨hvol2, hsb2, hkeep2⟩
    refine .bind (txLoad_runs U (hkeep2 _ hload1) _) ?_
    rintro image s3 - ⟨rfl, rfl⟩
    refine .bind (txStore_runs U (hkeep2 _ hload1) _ _) ?_
    rintro - s4 hf4 ⟨hv4, hsb4, -, -⟩
    have hvol : vol l s4 = { vol l s with
        balloc := update (vol l s).balloc ((cur l I s).ptr i k) false
        data := update (vol l s).data (I i).indirect
          (((vol l s).data (I i).indirect).putLe (4 * (k - 12)) 4 0) } := by
      rw [h.ready.layout.vol_put_data hindarea hv4, view_eq_data hindarea s3, hvol2, hl1.vol l]
    refine (h.uncountBlock_runs (hf1.trans (hf2.trans hf4)) hD rfl h0 (by rw [hvol]) ?_
      (by rw [hvol]) rfl rfl (fun r' hdirect hindirect => ?_) _).imp (fun _ _ _ h' => h'.1)
    · rw [hsb4, hsb2, hl1.superblock]
    · refine Vol.Edit.of_entry hlive (by simp [withInodes, hvol]) rfl
        (h.mapped.fresh_of_held hlive (by omega)) hk hk' hind (fun d _ hdi => ?_) hdirect hindirect
        fun m hm => ?_
      · have hdi' : d ≠ (I i).indirect := hdi
        simp [withInodes, hvol, hdi']
      · simp only [withInodes, hvol, update_self]
        exact indirectEntry_putLe _ (by omega) hm (by omega)

/-- `nsfs_tx_clear_data_block` makes a hole. -/
lemma nsfsTxClearDataBlock_runs (hk : k < 1036) : Runs (Frame U) (nsfsTxClearDataBlock (I i) k) s
      (fun r' s' => Holds env l D (update I i r') (c.set i k none) s') (Excuse env l) := by
  -- clearing a hole leaves the record and the contents as they are
  have hhole : (cur l I s).ptr i k = 0 →
      Holds env l D (update I i (I i)) (c.set i k none) s := by
    intro h0
    rw [update_eq_self, ← h.blk_of_hole hi hk h0, Content.set_self]
    exact h
  refine .require_pos hk (Runs.ite (fun hk12 => ?_) fun hk12 => ?_)
  · refine .ite (fun h0 => Runs.pure (hhole ?_)) fun h0 => clearDirect_runs U h hD hi hk12 h0
    rw [ptr_direct _ _ hk12]
    exact h0
  · refine .ite (fun h0 => Runs.pure (hhole ?_)) fun h0 =>
      clearEntry_runs U h hD hi (by omega) hk h0
    exact ptr_entry_of_none _ _ (by omega) hk h0

/-- `nsfs_tx_maybe_free_indirect` does not change the contents, and an inode without blocks behind
its indirect block loses that block. -/
lemma nsfsTxMaybeFreeIndirect_runs : Runs (Frame U) (nsfsTxMaybeFreeIndirect (I i)) s
      (fun r' s' => Holds env l D (update I i r') c s' ∧
        ((∀ m, 12 ≤ m → m < 1036 → c.blk i m = none) → r'.indirect = 0)) (Excuse env l) := by
  have hr := h.ready.layout.regions
  have hlive := h.live_iff.mp hi
  have hptr : (cur l I s).ptr i 1036 = (I i).indirect := ptr_indirect _ _
  refine .ite (fun h0 => Runs.pure ⟨?_, fun _ => h0⟩) fun h0 => ?_
  · rw [update_eq_self]
    exact h
  have h0' : (cur l I s).ptr i 1036 ≠ 0 := by rw [hptr]; exact h0
  obtain ⟨hlo, hhi, hset⟩ := h.mapped.area hlive (by omega) h0'
  rw [hptr] at hlo hhi hset
  refine .bind (nsfsTxImage_runs U h.active ⟨by omega, hhi⟩) ?_
  rintro image s1 hf1 ⟨rfl, hl1, -⟩
  have h₁ := h.of_loads hf1 hl1
  have hentry : ∀ m, 12 ≤ m → m < 1036 →
      (cur l I s).ptr i m = indirectEntry (view s (I i).indirect) (m - 12) := by
    intro m hm hm'
    rw [view_eq_data ⟨hlo, hhi⟩ s]
    exact ptr_entry _ _ hm hm' h0
  refine .ite (fun hclear => ?_) fun hclear => ?_
  · rw [indirectClear_iff] at hclear
    have hset1 : (vol l s1).balloc (I i).indirect = true := by
      rw [hl1.vol l]
      exact hset
    refine .bind (nsfsFreeBlock_runs U h₁.active ⟨hlo, hhi⟩ hset1) ?_
    rintro - s2 hf2 ⟨hvol2, hsb2, -⟩
    have hind : ((I i).setIndirect 0).indirect = 0 := indirect_setIndirect _ (by omega)
    have hvol : vol l s2 = { vol l s with
        balloc := update (vol l s).balloc (I i).indirect false } := by
      rw [hvol2, hl1.vol l]
    refine (h.uncountBlock_runs (hf1.trans hf2) hD hptr h0 (by rw [hvol]) ?_ (by rw [hvol])
      le_putLe_of_disjoint (attrs_setIndirect _ _) (fun r' hdirect hindirect => ?_) _).imp ?_
    · rw [hsb2, hl1.superblock]
    · refine Vol.Edit.of_indirect hlive (by simp [withInodes, hvol]) rfl
        (h.mapped.fresh_of_held hlive (by omega)) rfl (fun d _ => ?_) (fun m hm => ?_)
        (hindirect.trans hind) (fun m hm hm' => ?_) fun hne => absurd rfl hne
      · simp [withInodes, hvol]
      · exact (hdirect m hm).trans le_putLe_of_disjoint
      · exact (hentry m hm hm').trans (hclear _ (by omega))
    · rintro r' s3 - ⟨h', hindirect⟩
      rw [← h.content, content_set_indirect, h.content] at h'
      exact ⟨h', fun _ => hindirect.trans hind⟩
  · refine .pure ⟨by rw [update_eq_self]; exact h₁, fun hnone => ?_⟩
    refine absurd ((indirectClear_iff _).mpr fun m hm => ?_) hclear
    have hm' := hnone (m + 12) (by omega) (by omega)
    rw [h.blk_eq hi (by omega)] at hm'
    have := hentry (m + 12) (by omega) (by omega)
    rw [blk_eq_none.mp hm', Nat.add_sub_cancel] at this
    exact this.symm

end

end

/-- The contents after the slots from `k` on, `n` of them, were cleared. -/
def Content.clear (c : Content) (i k n : ℕ) : Content :=
  { c with blk := update c.blk i fun m => if k ≤ m ∧ m < k + n then none else c.blk i m }

lemma Content.clear_zero (c : Content) (i k : ℕ) : c.clear i k 0 = c := by
  have : (fun m => if k ≤ m ∧ m < k + 0 then none else c.blk i m) = c.blk i := by
    funext m
    rw [if_neg (by omega)]
  rw [clear, this, update_eq_self]

lemma Content.clear_succ (c : Content) (i k n : ℕ) :
    (c.set i k none).clear i (k + 1) n = c.clear i k (n + 1) := by
  simp only [clear, set, update_self, update_idem, Content.mk.injEq, true_and]
  congr 1
  funext m
  by_cases hm : m = k
  · subst hm
    rw [if_neg (by omega), if_pos (by omega), update_self]
  · rw [update_of_ne hm]
    by_cases hr : k ≤ m ∧ m < k + (n + 1)
    · rw [if_pos hr, if_pos (by omega)]
    · rw [if_neg hr, if_neg (by omega)]

/-- Clearing a range of slots. -/
lemma clearDataBlocks_runs (U : Set ℕ) (hD : i ∈ D) (n : ℕ) :
    ∀ (k : ℕ) (I : ℕ → DiskInode) (c : Content) (s : St), Holds env l D I c s → c.live i = true →
    k + n ≤ 1036 →
    Runs (Frame U) (clearDataBlocks n k (I i)) s
      (fun r' s' => Holds env l D (update I i r') (c.clear i k n) s') (Excuse env l) := by
  induction n with
  | zero =>
    intro k I c s h _ _
    refine .pure ?_
    rw [update_eq_self, Content.clear_zero]
    exact h
  | succ n ih =>
    intro k I c s h hi hk
    refine .bind (nsfsTxClearDataBlock_runs U h hD hi (by omega)) ?_
    rintro r s1 - h₁
    have hrun := ih (k + 1) (update I i r) _ s1 h₁ hi (by omega)
    rw [update_self] at hrun
    refine hrun.imp ?_
    rintro r' s2 - h₂
    rw [update_idem, Content.clear_succ] at h₂
    exact h₂

/-- `nsfs_release_inode_contents` leaves an inode without blocks. -/
lemma nsfsReleaseInodeContents_runs (U : Set ℕ) (h : Holds env l D I c s) (hD : i ∈ D)
    (hi : c.live i = true) :
    Runs (Frame U) (nsfsReleaseInodeContents (I i)) s
      (fun r' s' => Holds env l D (update I i r') (c.clear i 0 1036) s' ∧
        r'.indirect = 0) (Excuse env l) := by
  refine .bind (clearDataBlocks_runs U hD 1036 0 I c s h hi (by omega)) ?_
  rintro r s1 - h₁
  have hrun := nsfsTxMaybeFreeIndirect_runs U h₁ hD hi
  rw [update_self] at hrun
  refine hrun.imp ?_
  rintro r' s2 - ⟨h₂, hind⟩
  rw [update_idem] at h₂
  refine ⟨h₂, hind fun m hm hm' => ?_⟩
  simp [Content.clear, hm']

end Northstar
