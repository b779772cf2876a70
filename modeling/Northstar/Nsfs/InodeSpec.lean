import Northstar.Nsfs.FileSpec

/-! # What the inode functions do to the contents of a volume

The functions of `Nsfs.Alloc` that hand out, store and release inodes, and stores to data blocks,
in terms of `Holds`. -/

namespace Northstar

open Function

namespace Content

/-- The contents with an inode that has no blocks, or without the inode. -/
def reset (c : Content) (i : ℕ) (live : Bool) (r : DiskInode) : Content where
  live := update c.live i live
  attr := update c.attr i r
  blk := update c.blk i fun _ => none

/-- The contents with a new inode that has no blocks. -/
def addInode (c : Content) (i : ℕ) (r : DiskInode) : Content := c.reset i true r

/-- The contents without an inode. -/
def removeInode (c : Content) (i : ℕ) : Content := c.reset i false Bytes.zero

end Content

variable {U D : Set ℕ} {s s' : St} {env : Env} {l : Layout} {I : ℕ → DiskInode} {c : Content}
  {i k n : ℕ} {r : DiskInode}

/-! ### Stores to data blocks -/

namespace Holds

/-- A store to the block of a data slot. -/
lemma store {x : Block} (h : Holds env l D I c s) (hf : Frame U s s') (hi : c.live i = true)
    (hk : k < 1036) (h0 : (cur l I s).ptr i k ≠ 0)
    (hv : view s' = update (view s) ((cur l I s).ptr i k) x)
    (hsb : s'.fs.superblock = s.fs.superblock) :
    Holds env l D I (c.set i k (some x)) s' ∧ ∀ m, (cur l I s').ptr i m = (cur l I s).ptr i m := by
  have hlive : (cur l I s).Live l i := h.live_iff.mp hi
  obtain ⟨hlo, hhi, -⟩ := h.mapped.area hlive (by omega) h0
  have hvol := h.ready.layout.vol_put_data ⟨hlo, hhi⟩ hv
  have hptr : ∀ m, (cur l I s').ptr i m = (cur l I s).ptr i m := by
    refine Vol.ptr_congr rfl fun hind => ?_
    have hne : (I i).indirect ≠ (cur l I s).ptr i k :=
      (h.mapped.ptr_ne_indirect hlive hlive (by omega) (Or.inr (by omega)) h0).symm
    simp only [Vol.withInodes, hvol]
    exact update_of_ne hne _ _
  have e : Vol.Edit l (cur l I s) (cur l I s') i k ((cur l I s).ptr i k)
      ((cur l I s).ptr i k) := by
    refine ⟨hlive, by omega, by simp [Vol.withInodes, hvol], fun _ _ => rfl,
      h.mapped.fresh_of_held hlive (by omega), fun d hd _ => ?_, fun m hm => ?_⟩
    · simp only [Vol.withInodes, hvol]
      exact update_of_ne hd _ _
    · rw [hptr m]
      by_cases hm' : m = k
      · rw [if_pos hm', hm']
      · rw [if_neg hm']
  have hown : (cur l I s').own l = (cur l I s).own l := by
    rw [e.own h.mapped, ← Vol.own_of_live hlive (by omega), update_eq_self]
  have hmapped : (cur l I s').Mapped l s'.fs.superblock.freeBlocks := by
    refine ⟨?_, fun j hj => ?_, ?_⟩
    · rw [hown, hsb]
      simpa [Vol.withInodes, hvol] using h.mapped.owned
    · rw [hown]
      exact h.mapped.count j ((e.live_iff j).mp hj)
    · simpa [Vol.withInodes, hvol] using h.mapped.reserved
  have hblk : (cur l I s').blk i k = some x := by
    rw [Vol.blk_of_ptr (by rw [hptr]; exact h0), hptr]
    simp [Vol.withInodes, hvol]
  refine ⟨?_, hptr⟩
  refine ⟨hf.active env l h.active, hmapped, ?_, ?_, ?_, ?_⟩
  · rw [hsb]
    simpa [hvol] using h.counted
  · intro j hj
    rw [hvol]
    exact h.synced j hj
  · intro j hj hl
    rw [hvol]
    exact h.checked j hj ((e.live_iff j).mp hl)
  · rw [e.content_data h.mapped hk rfl, hblk, h.content]

/-- The inode table catches up at an inode. -/
lemma written (h : Holds env l D I c s) (hf : Frame U s s')
    (hvol : vol l s' = { vol l s with
      inode := update (vol l s).inode i (nsfsInodeChecksum (I i)) })
    (hsb : s'.fs.superblock = s.fs.superblock) : Holds env l (D \ {i}) I c s' := by
  have hcur : (vol l s').withInodes I = (vol l s).withInodes I := by rw [hvol]; rfl
  have hialloc : (vol l s').ialloc = (vol l s).ialloc := by rw [hvol]
  have hinode : (vol l s').inode =
      update (vol l s).inode i (nsfsInodeChecksum (I i)) := by rw [hvol]
  refine ⟨hf.active env l h.active, by rw [hsb, hcur]; exact h.mapped,
    by rw [hsb, hialloc]; exact h.counted, ?_, ?_, by rw [hcur, h.content]⟩
  · intro j hj
    rw [hinode]
    by_cases hji : j = i
    · subst hji
      rw [update_self]
      exact DiskInode.body_nsfsInodeChecksum _
    · rw [update_of_ne hji]
      exact h.synced j fun hm => hj ⟨hm, hji⟩
  · intro j hj hlive
    rw [Vol.Live, hialloc] at hlive
    rw [hinode]
    by_cases hji : j = i
    · subst hji
      rw [update_self]
      exact DiskInode.checksum_nsfsInodeChecksum _
    · rw [update_of_ne hji]
      exact h.checked j (fun hm => hj ⟨hm, hji⟩) hlive

end Holds

/-- `nsfs_write_inode` with the current record. -/
lemma nsfsWriteInode_holds (U : Set ℕ) (h : Holds env l D I c s) (hi : c.live i = true) :
    Runs (Frame U) (nsfsWriteInode i (I i)) s
      (fun _ s' => Holds env l (D \ {i}) I c s') (Excuse env l) := by
  refine (nsfsWriteInode_runs U h.active (h.live_iff.mp hi).2.1 (I i)).imp ?_
  rintro - s' hf ⟨hvol, hsb⟩
  exact h.written hf hvol hsb

/-! ### New and released inodes -/

namespace Vol

variable {v v' : Vol} {fb : ℕ}

/-- A record without blocks. -/
def Blank (r : DiskInode) : Prop :=
  r.allocatedBlocks = 0 ∧ (∀ k < 12, r.direct k = 0) ∧ r.indirect = 0

/-- A record without blocks has empty slots. -/
lemma ptr_of_blank (hb : Blank (v.inode i)) (hk : k < 1037) : v.ptr i k = 0 := by
  by_cases hk12 : k < 12
  · rw [ptr_direct v i hk12]
    exact hb.2.1 k hk12
  · by_cases hk' : k = 1036
    · rw [hk', ptr_indirect]
      exact hb.2.2
    · exact ptr_entry_of_none v i (by omega) (by omega) hb.2.2

/-- An inode without blocks comes or goes; the bookkeeping stays exact. -/
lemma Mapped.of_blank (h : v.Mapped l fb) (hballoc : v'.balloc = v.balloc)
    (hdata : v'.data = v.data) (hinode : ∀ j, j ≠ i → v'.inode j = v.inode j)
    (hialloc : ∀ j, j ≠ i → v'.ialloc j = v.ialloc j) (hold : ∀ k, v.own l (i, k) = 0)
    (hnew : v'.Live l i → Blank (v'.inode i)) : v'.Mapped l fb := by
  have hlive : ∀ j, j ≠ i → (v'.Live l j ↔ v.Live l j) := fun j hj => by
    unfold Live
    rw [hialloc j hj]
  have hnew' : ∀ k, v'.own l (i, k) = 0 := by
    intro k
    unfold own
    split
    · rename_i hk
      exact ptr_of_blank (hnew hk.1) hk.2
    · rfl
  have hown : v'.own l = v.own l := by
    funext y
    obtain ⟨j, k⟩ := y
    by_cases hj : j = i
    · subst hj
      rw [hold, hnew']
    · simp only [own, hlive j hj]
      rw [ptr_congr (hinode j hj) fun _ => by rw [hdata]]
  refine ⟨by rw [hown, hballoc]; exact h.owned, fun j hj => ?_, by rw [hballoc]; exact h.reserved⟩
  rw [hown]
  by_cases hji : j = i
  · subst hji
    rw [(hnew hj).1, held]
    simp [hold]
  · rw [hinode j hji]
    exact h.count j ((hlive j hji).mp hj)

/-- How an inode without blocks that comes or goes changes the contents. -/
lemma content_of_blank (hdata : v'.data = v.data) (hinode : ∀ j, j ≠ i → v'.inode j = v.inode j)
    (hialloc : ∀ j, j ≠ i → v'.ialloc j = v.ialloc j)
    (hnew : v'.Live l i → Blank (v'.inode i)) :
    v'.content l = (v.content l).reset i (decide (v'.Live l i))
      (if v'.Live l i then (v'.inode i).attrs else Bytes.zero) := by
  have hlive : ∀ j, j ≠ i → (v'.Live l j ↔ v.Live l j) := fun j hj => by
    unfold Live
    rw [hialloc j hj]
  simp only [content, Content.reset, Content.mk.injEq]
  refine ⟨?_, ?_, ?_⟩ <;> funext j <;> by_cases hj : j = i
  · subst hj
    simp
  · simp [hj, hlive j hj]
  · subst hj
    simp
  · simp [hj, hlive j hj, hinode j hj]
  · subst hj
    rw [update_self]
    funext k
    split
    · rename_i hk
      exact blk_eq_none.mpr (ptr_of_blank (hnew hk.1) (by omega))
    · rfl
  · rw [update_of_ne hj]
    funext k
    have hblk : v'.blk j k = v.blk j k :=
      blk_congr (ptr_congr (hinode j hj) (fun _ => by rw [hdata]) k) fun _ => by rw [hdata]
    simp only [hlive j hj, hblk]

end Vol

namespace Counted

variable {taken : ℕ → Bool} {free : ℕ}

section

variable (h : Counted l taken free)
include h

/-- Handing out a free number. -/
lemma take (hn : 2 ≤ n ∧ n < l.inodeCount) (hfree : taken n = false) :
    Counted l (update taken n true) (free - 1) where
  reserved := by
    intro i hi
    rw [update_of_ne (by omega)]
    exact h.reserved i hi
  free := by rw [card_free_take hn.1 hn.2 hfree, h.free]

lemma drop (hn : 2 ≤ n ∧ n < l.inodeCount) (htaken : taken n = true) :
    Counted l (update taken n false) (free + 1) where
  reserved := by
    intro i hi
    rw [update_of_ne (by omega)]
    exact h.reserved i hi
  free := by rw [card_free_drop hn.1 hn.2 htaken, h.free]

/-- If the counter is not 0 a number is free. -/
lemma exists_free (hne : free ≠ 0) : ∃ i, 2 ≤ i ∧ i < l.inodeCount ∧ taken i = false := by
  rw [h.free] at hne
  obtain ⟨i, hi⟩ := Finset.card_pos.mp (Nat.pos_of_ne_zero hne)
  rw [Finset.mem_filter, Finset.mem_Ico] at hi
  exact ⟨i, hi.1.1, hi.1.2, hi.2⟩

/-- The counter is at most the number of inodes. -/
lemma free_le : free ≤ l.inodeCount := by
  rw [h.free]
  refine (Finset.card_filter_le _ _).trans ?_
  simp

end

end Counted

/-- An inode without blocks comes or goes, and the counter with it. -/
lemma Holds.reset {T : ℕ → DiskInode} {live : Bool} {D' : Set ℕ} {x : ℕ}
    (h : Holds env l D I c s) (hf : Frame U s s') (hn : 2 ≤ n ∧ n < l.inodeCount)
    (hvol : vol l s' =
      { vol l s with ialloc := update (vol l s).ialloc n live, inode := T })
    (hT : ∀ j, j ≠ n → T j = (vol l s).inode j)
    (hsb : s'.fs.superblock = s.fs.superblock.setFreeInodes x) (hx : x < 256 ^ 4)
    (hcounted : Counted l (update (vol l s).ialloc n live) x)
    (hold : ∀ k, (cur l I s).own l (n, k) = 0) (hblank : live = true → Vol.Blank r)
    (hD : ∀ j, j ∉ D' → j ≠ n → j ∉ D) (hself : n ∉ D' → live = false ∧ T n = r) :
    Holds env l D' (update I n r) (c.reset n live (bif live then r.attrs else Bytes.zero)) s' := by
  have htable : (vol l s').inode = T := by rw [hvol]
  have hinode : ∀ j, j ≠ n → (cur l (update I n r) s').inode j = (cur l I s).inode j :=
    fun j hj => by simp [Vol.withInodes, hj]
  have hothers : ∀ j, j ≠ n → (vol l s').ialloc j = (vol l s).ialloc j := fun j hj => by
    rw [hvol]
    exact update_of_ne hj _ _
  have hdata : (cur l (update I n r) s').data = (cur l I s).data := by
    simp [Vol.withInodes, hvol]
  have hlive : (cur l (update I n r) s').Live l n ↔ live = true := by
    simp only [Vol.Live, Vol.withInodes, hvol, update_self]
    exact ⟨fun hl => hl.2.2, fun hl => ⟨by omega, hn.2, hl⟩⟩
  have hnew : (cur l (update I n r) s').Live l n → Vol.Blank ((cur l (update I n r) s').inode n) :=
    fun hl => by simpa [Vol.withInodes] using hblank (hlive.mp hl)
  refine ⟨hf.active env l h.active, ?_, ?_, ?_, ?_, ?_⟩
  · have hfb : s'.fs.superblock.freeBlocks = s.fs.superblock.freeBlocks := by
      rw [hsb]
      exact Bytes.le_putLe_of_disjoint
    rw [hfb]
    exact h.mapped.of_blank (by simp [Vol.withInodes, hvol]) hdata hinode hothers hold hnew
  · have hfi : s'.fs.superblock.freeInodes = x := by
      rw [hsb]
      exact Bytes.le_putLe
    rw [hfi, hvol]
    exact hcounted
  · intro j hj
    rw [htable]
    by_cases hjn : j = n
    · subst hjn
      rw [update_self, (hself hj).2]
    · rw [update_of_ne hjn, hT j hjn]
      exact h.synced j (hD j hj hjn)
  · intro j hj hl
    have hjn : j ≠ n := by
      rintro rfl
      exact absurd (hlive.mp hl) (by simp [(hself hj).1])
    rw [Vol.Live, hothers j hjn] at hl
    rw [htable, hT j hjn]
    exact h.checked j (hD j hj hjn) hl
  · rw [Vol.content_of_blank hdata hinode hothers hnew, h.content]
    cases live <;> simp only [hlive] <;> simp [Vol.withInodes]

/-- `nsfs_allocate_inode` hands out the first free inode; with a record without blocks it becomes
part of the contents. -/
lemma nsfsAllocateInode_holds (U : Set ℕ) (h : Holds env l D I c s) :
    Runs (Frame U) nsfsAllocateInode s
      (fun n s' => 2 ≤ n ∧ n < l.inodeCount ∧ c.live n = false ∧
        (∀ j, 2 ≤ j → j < n → c.live j = true) ∧
        ∀ r, Vol.Blank r →
          Holds env l (insert n D) (update I n r) (c.addInode n r.attrs) s')
      (fun e => Excuse env l e ∨ e = .enospc ∧ s.fs.superblock.freeInodes = 0) := by
  refine (nsfsAllocateInode_runs U h.active h.counted.exists_free).imp ?_
  rintro n s' hf ⟨hn, hn', hfree, hfirst, hvol, hsb⟩
  have hdead : ¬ (vol l s).Live l n := fun hl => by simp [hl.2.2] at hfree
  refine ⟨hn, hn', ?_, fun j hj hjn => h.live_iff.mpr ⟨by omega, by omega, hfirst j hj hjn⟩,
    fun r hblank => ?_⟩
  · rw [← Bool.not_eq_true]
    exact fun hl => hdead (h.live_iff.mp hl)
  have hlt : s.fs.superblock.freeInodes < 256 ^ 4 := Bytes.le_lt _ _ _
  refine h.reset (T := (vol l s).inode) hf ⟨hn, hn'⟩ hvol (fun _ _ => rfl) hsb (by omega)
    (h.counted.take ⟨hn, hn'⟩ hfree) (fun k => if_neg fun hk => hdead hk.1) (fun _ => hblank)
    (fun j hj _ => (not_or.mp hj).2) fun hin => absurd (Set.mem_insert n D) hin

/-- `nsfs_release_inode_number` removes an inode that has no blocks any more. -/
lemma nsfsReleaseInodeNumber_holds (U : Set ℕ) (h : Holds env l D I c s) (hi : c.live i = true)
    (hroot : 1 < i) (hblk : ∀ k < 1036, c.blk i k = none) (hind : (I i).indirect = 0) :
    Runs (Frame U) (nsfsReleaseInodeNumber i) s
      (fun _ s' => Holds env l (D \ {i}) (update I i Bytes.zero) (c.removeInode i) s')
      (Excuse env l) := by
  have hlive := h.live_iff.mp hi
  refine (nsfsReleaseInodeNumber_runs U h.active hroot hlive).imp ?_
  rintro - s' hf ⟨hvol, hsb⟩
  have hcount := h.counted.drop ⟨by omega, hlive.2.1⟩ hlive.2.2
  have hle := hcount.free_le
  have htotal : s.fs.superblock.totalInodes < 256 ^ 4 := Bytes.le_lt _ _ _
  have hd := h.ready.describes.totalInodes
  refine h.reset (T := update (vol l s).inode i Bytes.zero) hf ⟨by omega, hlive.2.1⟩ hvol
    (fun j hj => update_of_ne hj _ _) hsb (by omega) hcount (fun k => ?_) (fun hf => by cases hf)
    (fun j hj hji hm => hj ⟨hm, hji⟩) fun _ => ⟨rfl, update_self ..⟩
  unfold Vol.own
  split
  · rename_i hk
    by_cases hk' : k = 1036
    · rw [hk', Vol.ptr_indirect]
      exact hind
    · have hnone := hblk k (by omega)
      rw [h.blk_eq hi (by omega)] at hnone
      exact Vol.blk_eq_none.mp hnone
  · rfl

end Northstar
