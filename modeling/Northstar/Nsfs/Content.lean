import Northstar.Nsfs.BlockMap

/-! # The contents of a volume without its bookkeeping

`Vol.content` keeps, for every live inode, the attributes of its record and the contents of its data
slots; where those blocks are on the disk is forgotten. `Holds` says that a transaction in progress
has such contents, and that the bookkeeping under them is exact. An operation changes records in
memory and writes them back later, so `Holds` speaks about a table `I` of current records; the
table on disk may lag behind it at the inodes of a set `D`. -/

namespace Northstar

open Function Bytes

namespace DiskInode

/-- The record without the fields of the block map and without the checksum. -/
def attrs (r : DiskInode) : DiskInode := ((r.fill 24 8 0).fill 64 52 0).fill 120 4 0

/-- The record without the checksum. -/
def body (r : DiskInode) : DiskInode := r.setChecksum 0

variable (r r' : DiskInode) {off w x : ℕ}

/-- The bytes of the attributes. -/
lemma get_attrs {i : ℕ} (hi : i < 128) :
    r.attrs.get i =
      if (24 ≤ i ∧ i < 32) ∨ (64 ≤ i ∧ i < 116) ∨ (120 ≤ i ∧ i < 124) then 0 else r.get i := by
  unfold attrs
  rw [get_fill _ _ _ _ hi, get_fill _ _ _ _ hi, get_fill _ _ _ _ hi]
  split_ifs <;> first | rfl | omega

/-- The attributes show every field outside the block map. -/
lemma le_attrs (h : off + w ≤ 24 ∨ 32 ≤ off ∧ off + w ≤ 64) : r.attrs.le off w = r.le off w := by
  refine le_congr fun i hi => ?_
  rw [get_attrs r (by omega), if_neg (by omega)]

/-- A change of the block map leaves the attributes alone. -/
lemma attrs_putLe_map (h : 24 ≤ off ∧ off + w ≤ 32 ∨ 64 ≤ off ∧ off + w ≤ 116 ∨
    120 ≤ off ∧ off + w ≤ 124) : DiskInode.attrs (r.putLe off w x) = r.attrs := by
  refine Bytes.ext fun i hi => ?_
  rw [get_attrs _ hi, get_attrs _ hi]
  by_cases hm : (24 ≤ i ∧ i < 32) ∨ (64 ≤ i ∧ i < 116) ∨ (120 ≤ i ∧ i < 124)
  · rw [if_pos hm, if_pos hm]
  · rw [if_neg hm, if_neg hm, get_putLe_of_notMem (by omega)]

/-- A change outside the block map is one of the attributes. -/
lemma attrs_putLe (h : off + w ≤ 24 ∨ 32 ≤ off ∧ off + w ≤ 64) :
    DiskInode.attrs (r.putLe off w x) = r.attrs.putLe off w x := by
  refine Bytes.ext fun i hi => ?_
  by_cases hw : off ≤ i ∧ i < off + w
  · obtain ⟨k, rfl⟩ := Nat.exists_eq_add_of_le hw.1
    rw [get_attrs _ hi, if_neg (by omega), get_putLe_of_mem (by omega) (by omega),
      get_putLe_of_mem (by omega) (by omega)]
  · rw [get_putLe_of_notMem (by omega), get_attrs _ hi, get_attrs _ hi,
      get_putLe_of_notMem (by omega)]

/-- Records with the same body have the same fields. -/
lemma le_of_body {r r' : DiskInode} (h : r.body = r'.body) (hw : off + w ≤ 120 ∨ 124 ≤ off) :
    r.le off w = r'.le off w := by
  have hbody : ∀ t : DiskInode, t.body.le off w = t.le off w := fun t =>
    le_putLe_of_disjoint
  rw [← hbody r, ← hbody r', h]

/-- Sealing a record changes the checksum only. -/
lemma body_nsfsInodeChecksum : (nsfsInodeChecksum r).body = r.body := by
  exact (putLe_putLe _ _ _ _ _).trans (putLe_putLe _ _ _ _ _)

/-- A sealed record passes the checksum test. -/
lemma checksum_nsfsInodeChecksum :
    (nsfsInodeChecksum r).checksum = nsfsCrc32c ((nsfsInodeChecksum r).setChecksum 0).toList := by
  have hbody : (nsfsInodeChecksum r).setChecksum 0 = r.setChecksum 0 := body_nsfsInodeChecksum r
  rw [hbody]
  exact le_putLe (by omega) (nsfsCrc32c_lt _)

/-- The fields of the block map agree. -/
def SameMap (r r' : DiskInode) : Prop :=
  ∀ off w, 24 ≤ off ∧ off + w ≤ 32 ∨ 64 ≤ off ∧ off + w ≤ 116 → r.le off w = r'.le off w

/-- A change outside the block map leaves the map alone. -/
lemma sameMap_putLe (h : off + w ≤ 24 ∨ 32 ≤ off ∧ off + w ≤ 64 ∨ 116 ≤ off) :
    SameMap (r.putLe off w x) r := fun _ _ _ => le_putLe_of_disjoint

end DiskInode

/-- What the live inodes of a volume contain. -/
structure Content where
  live : ℕ → Bool
  attr : ℕ → DiskInode
  blk : ℕ → ℕ → Option Block

namespace Content

/-- Change the contents of data slot `k` of inode `i`. -/
def set (c : Content) (i k : ℕ) (x : Option Block) : Content :=
  { c with blk := update c.blk i (update (c.blk i) k x) }

/-- Change the attributes of inode `i`. -/
def setAttr (c : Content) (i : ℕ) (r : DiskInode) : Content :=
  { c with attr := update c.attr i r }

section

variable (c : Content)

@[simp] lemma set_live (i k : ℕ) (x : Option Block) : (c.set i k x).live = c.live := rfl

@[simp] lemma set_attr (i k : ℕ) (x : Option Block) : (c.set i k x).attr = c.attr := rfl

@[simp] lemma setAttr_live (i : ℕ) (r : DiskInode) : (c.setAttr i r).live = c.live := rfl

@[simp] lemma setAttr_blk (i : ℕ) (r : DiskInode) : (c.setAttr i r).blk = c.blk := rfl

/-- The slots after a change of one. -/
lemma set_blk (i k j m : ℕ) (x : Option Block) :
    (c.set i k x).blk j m = if j = i ∧ m = k then x else c.blk j m := by
  unfold set
  by_cases hj : j = i
  · subst hj
    by_cases hm : m = k <;> simp [hm]
  · simp [hj]

/-- Writing back what is there. -/
lemma set_self (i k : ℕ) : c.set i k (c.blk i k) = c := by
  simp [set]

/-- The second of two changes of a slot counts. -/
lemma set_set (i k : ℕ) (x y : Option Block) : (c.set i k x).set i k y = c.set i k y := by
  simp [set]

end

end Content

namespace Vol

/-- The contents of a volume. -/
def content (l : Layout) (v : Vol) : Content where
  live i := decide (v.Live l i)
  attr i := if v.Live l i then (v.inode i).attrs else Bytes.zero
  blk i k := if v.Live l i ∧ k < 1036 then v.blk i k else none

variable {l : Layout} {v v' : Vol} {i k x b fb : ℕ}

/-- The live inodes of the contents. -/
@[simp] lemma content_live : (v.content l).live i = true ↔ v.Live l i := by
  simp [content]

/-- The slots of a live inode. -/
lemma content_blk (hi : v.Live l i) (hk : k < 1036) : (v.content l).blk i k = v.blk i k := by
  simp [content, hi, hk]

/-- The attributes of a live inode. -/
lemma content_attr (hi : v.Live l i) : (v.content l).attr i = (v.inode i).attrs := by
  simp [content, hi]

/-- Rewriting a slot changes the contents at that slot only. -/
lemma Edit.content (e : Edit l v v' i k x b) (h : v.Mapped l fb)
    (hattr : (v'.inode i).attrs = (v.inode i).attrs) :
    v'.content l = (v.content l).set i k ((v'.content l).blk i k) := by
  have hblk : ∀ j m, ¬ (j = i ∧ m = k) → (v'.content l).blk j m = (v.content l).blk j m := by
    intro j m hjm
    by_cases hj : v.Live l j ∧ m < 1036
    · rw [content_blk hj.1 hj.2, content_blk ((e.live_iff j).mpr hj.1) hj.2, e.blk h hj.1 hj.2]
      exact fun he => hjm (Prod.mk.inj he)
    · exact (if_neg fun h' => hj ⟨(e.live_iff j).mp h'.1, h'.2⟩).trans (if_neg hj).symm
  refine Content.mk.injEq .. |>.mpr ⟨?_, ?_, ?_⟩ <;> funext j
  · exact decide_eq_decide.mpr (e.live_iff j)
  · by_cases hji : j = i
    · simp [Vol.content, e.live_iff i, hji, hattr]
    · simp [Vol.content, e.live_iff j, e.inode j hji]
  · funext m
    refine Eq.trans ?_ ((v.content l).set_blk i k j m _).symm
    by_cases hjm : j = i ∧ m = k
    · rw [if_pos hjm, ← hjm.1, ← hjm.2]
      rfl
    · rw [if_neg hjm]
      exact hblk j m hjm

/-- An emptied slot. -/
lemma Edit.content_drop (e : Edit l v v' i k 0 b) (h : v.Mapped l fb)
    (hattr : (v'.inode i).attrs = (v.inode i).attrs) :
    v'.content l = (v.content l).set i k none := by
  have hnone : (v'.content l).blk i k = none := by
    simp [Vol.content, blk_eq_none, e.ptr k e.slot]
  rw [← hnone]
  exact e.content h hattr

/-- Rewriting a data slot changes the contents of that slot. -/
lemma Edit.content_data (e : Edit l v v' i k x b) (h : v.Mapped l fb) (hk : k < 1036)
    (hattr : (v'.inode i).attrs = (v.inode i).attrs) :
    v'.content l = (v.content l).set i k (v'.blk i k) := by
  rw [← content_blk ((e.live_iff i).mpr e.live) hk]
  exact e.content h hattr

/-- The slot of the indirect block does not show. -/
lemma content_set_indirect (v : Vol) : (v.content l).set i 1036 none = v.content l := by
  have hnone : (v.content l).blk i 1036 = none := by
    simp [Vol.content]
  rw [← hnone, Content.set_self]

/-- Rewriting the indirect slot does not change the contents. -/
lemma Edit.content_indirect (e : Edit l v v' i 1036 x b) (h : v.Mapped l fb)
    (hattr : (v'.inode i).attrs = (v.inode i).attrs) : v'.content l = v.content l := by
  have hnone : (v'.content l).blk i 1036 = none := by
    simp [Vol.content]
  rw [e.content h hattr, hnone, content_set_indirect]

/-- The slots are read from the fields of the block map. -/
lemma ptr_of_sameMap (hdata : v'.data = v.data)
    (hmap : DiskInode.SameMap (v'.inode i) (v.inode i)) (k : ℕ) : v'.ptr i k = v.ptr i k := by
  have hind : (v'.inode i).indirect = (v.inode i).indirect := hmap 112 4 (by omega)
  unfold ptr
  rw [hind, hdata]
  by_cases hk : k < 12
  · rw [if_pos hk, if_pos hk]
    exact hmap (64 + 4 * k) 4 (by omega)
  · rw [if_neg hk, if_neg hk]

/-- The contents of a slot depend on the block map of the record. -/
lemma blk_withInodes {I I' : ℕ → DiskInode} (v : Vol) (hmap : DiskInode.SameMap (I' i) (I i))
    (k : ℕ) : (v.withInodes I').blk i k = (v.withInodes I).blk i k := by
  have hptr : (v.withInodes I').ptr i k = (v.withInodes I).ptr i k := by
    refine ptr_of_sameMap ?_ hmap k
    rfl
  exact blk_congr hptr fun _ => rfl

/-- The bookkeeping does not depend on the attributes of the records. -/
lemma Mapped.of_sameMap (h : v.Mapped l fb) (hialloc : v'.ialloc = v.ialloc)
    (hballoc : v'.balloc = v.balloc) (hdata : v'.data = v.data)
    (hmap : ∀ i, v.Live l i → DiskInode.SameMap (v'.inode i) (v.inode i)) : v'.Mapped l fb := by
  have hlive : ∀ i, v'.Live l i ↔ v.Live l i := fun i => by
    unfold Live
    rw [hialloc]
  have hown : v'.own l = v.own l := by
    funext y
    by_cases hy : v.Live l y.1
    · simp only [own, hlive, hy, true_and]
      rw [ptr_of_sameMap hdata (hmap y.1 hy)]
    · simp [own, hlive, hy]
  refine ⟨by rw [hown, hballoc]; exact h.owned, fun i hi => ?_, by rw [hballoc]; exact h.reserved⟩
  rw [hown, ← h.count i ((hlive i).mp hi)]
  exact hmap i ((hlive i).mp hi) 24 8 (by omega)

end Vol

/-- The free counter of the inodes is right, and the numbers that are never handed out are taken. -/
structure Counted (l : Layout) (taken : ℕ → Bool) (free : ℕ) : Prop where
  reserved : ∀ i, i < 2 ∨ l.inodeCount ≤ i → taken i = true
  free : free = ((Finset.Ico 2 l.inodeCount).filter fun i => taken i = false).card

/-- The checksum test of `nsfs_read_inode`. -/
def DiskInode.Sealed (r : DiskInode) : Prop := r.checksum = nsfsCrc32c (r.setChecksum 0).toList

/-- A transaction is in progress, its current inode records are `I`, it sees the contents `c`, and
the bookkeeping is exact. The inode table may lag behind `I` at `D`. -/
structure Holds (env : Env) (l : Layout) (D : Set ℕ) (I : ℕ → DiskInode) (c : Content) (s : St) :
    Prop where
  active : Active env l s
  mapped : ((vol l s).withInodes I).Mapped l s.fs.superblock.freeBlocks
  counted : Counted l (vol l s).ialloc s.fs.superblock.freeInodes
  synced : ∀ j, j ∉ D → ((vol l s).inode j).body = (I j).body
  checked : ∀ j, j ∉ D → (vol l s).Live l j → ((vol l s).inode j).Sealed
  content : ((vol l s).withInodes I).content l = c

namespace Holds

variable {env : Env} {l : Layout} {D D' : Set ℕ} {I : ℕ → DiskInode} {c : Content} {s s' : St}
  {U B : Set ℕ} {i k : ℕ} {r : DiskInode}

section

variable (h : Holds env l D I c s)
include h

/-- The live inodes are those of the volume. -/
lemma live_iff : c.live i = true ↔ (vol l s).Live l i := by
  rw [← h.content]
  exact Vol.content_live

/-- The attributes are those of the current records. -/
lemma attr_eq (hi : c.live i = true) : c.attr i = (I i).attrs := by
  rw [← h.content]
  exact Vol.content_attr (h.live_iff.mp hi)

/-- The slots are those of the current records. -/
lemma blk_eq (hi : c.live i = true) (hk : k < 1036) :
    c.blk i k = ((vol l s).withInodes I).blk i k := by
  rw [← h.content]
  exact Vol.content_blk (h.live_iff.mp hi) hk

/-- Loading blocks changes nothing. -/
lemma of_loads (hf : Frame U s s') (hl : Loads B s s') : Holds env l D I c s' := by
  have hvol := hl.vol l
  refine ⟨hf.active env l h.active, ?_, ?_, ?_, ?_, ?_⟩
  · rw [hvol, hl.superblock]; exact h.mapped
  · rw [hvol, hl.superblock]; exact h.counted
  · rw [hvol]; exact h.synced
  · rw [hvol]; exact h.checked
  · rw [hvol]; exact h.content

/-- Changing attributes of a record in memory. -/
lemma setRecord (hD : i ∈ D) (hi : c.live i = true) (hmap : DiskInode.SameMap r (I i)) :
    Holds env l D (update I i r) (c.setAttr i r.attrs) s := by
  have hsame : ∀ j, DiskInode.SameMap (update I i r j) (I j) := by
    intro j
    by_cases hj : j = i
    · subst hj
      rw [update_self]
      exact hmap
    · rw [update_of_ne hj]
      exact fun _ _ _ => rfl
  refine ⟨h.active, h.mapped.of_sameMap rfl rfl rfl fun j _ => hsame j, h.counted, ?_,
    h.checked, ?_⟩
  · intro j hj
    have hji : j ≠ i := fun he => hj (he ▸ hD)
    rw [update_of_ne hji]
    exact h.synced j hj
  · rw [← h.content]
    have hlive := h.live_iff.mp hi
    simp only [Vol.content, Content.setAttr, Content.mk.injEq]
    refine ⟨rfl, ?_, ?_⟩
    · funext j
      by_cases hj : j = i
      · subst hj
        exact (if_pos hlive).trans (by simp [Vol.withInodes])
      · rw [update_of_ne hj]
        simp only [Vol.withInodes, update_of_ne hj]
        rfl
    · funext j m
      have hblk : ((vol l s).withInodes (update I i r)).blk j m =
          ((vol l s).withInodes I).blk j m := Vol.blk_withInodes _ (hsame j) m
      rw [hblk]
      rfl

end

end Holds

end Northstar
