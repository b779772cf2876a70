import Northstar.Lib.Ownership
import Northstar.Nsfs.AllocSpec

/-! # Block maps

Every live inode has 1037 slots that can hold a block: slots `0` to `1035` are its data blocks and
slot `1036` is its indirect block. `Vol.ptr` reads the slots, `Vol.blk` is the contents of a data
slot, and `Vol.Mapped` is the bookkeeping: the slots of all live inodes hold exactly the marked
blocks of the data area, each once, every inode counts its blocks, and the free counter is right.

Code works on copies of inode records that are written back later, so the lemmas speak about the
contents of a volume with an arbitrary inode table, `Vol.withInodes`. -/

namespace Northstar

open Function

namespace Vol

/-- The contents of a volume with another inode table. -/
def withInodes (v : Vol) (table : ℕ → DiskInode) : Vol := { v with inode := table }

/-- The block that slot `k` of inode `i` holds; `0` is none. -/
def ptr (v : Vol) (i k : ℕ) : ℕ :=
  if k < 12 then (v.inode i).direct k
  else if k = 1036 then (v.inode i).indirect
  else if (v.inode i).indirect = 0 then 0
  else indirectEntry (v.data (v.inode i).indirect) (k - 12)

/-- The contents of data slot `k` of inode `i`; a hole has none. -/
def blk (v : Vol) (i k : ℕ) : Option Block :=
  if v.ptr i k = 0 then none else some (v.data (v.ptr i k))

instance (l : Layout) (v : Vol) (i : ℕ) : Decidable (v.Live l i) := by
  unfold Live; infer_instance

/-- The slots of the live inodes. -/
def own (l : Layout) (v : Vol) (x : ℕ × ℕ) : ℕ :=
  if v.Live l x.1 ∧ x.2 < 1037 then v.ptr x.1 x.2 else 0

/-- The slots of the live inodes hold exactly the marked blocks of the data area. -/
structure Mapped (l : Layout) (v : Vol) (freeBlocks : ℕ) : Prop where
  owned : Owned (v.own l) v.balloc l.dataStart l.totalBlocks freeBlocks
  count : ∀ i, v.Live l i → (v.inode i).allocatedBlocks = held (v.own l) 1037 i
  reserved : ∀ b, b < l.dataStart ∨ l.totalBlocks ≤ b → v.balloc b = true

variable {l : Layout} {v v' : Vol} {i j k m b fb : ℕ}

/-- A slot of a live inode owns the block that it points to. -/
lemma own_of_live (h : v.Live l i) (hk : k < 1037) : v.own l (i, k) = v.ptr i k := by
  simp [own, h, hk]

section

variable (v : Vol) (i : ℕ)

/-- The first twelve slots are the direct pointers. -/
lemma ptr_direct (hk : k < 12) : v.ptr i k = (v.inode i).direct k := by
  simp [ptr, hk]

/-- The last slot is the indirect pointer. -/
lemma ptr_indirect : v.ptr i 1036 = (v.inode i).indirect := by
  simp [ptr]

/-- The slots in between are the entries of the indirect block. -/
lemma ptr_entry (hk : 12 ≤ k) (hk' : k < 1036) (hi : (v.inode i).indirect ≠ 0) :
    v.ptr i k = indirectEntry (v.data (v.inode i).indirect) (k - 12) := by
  rw [ptr, if_neg (by omega), if_neg (by omega), if_neg hi]

/-- Without an indirect block the slots in between are empty. -/
lemma ptr_entry_of_none (hk : 12 ≤ k) (hk' : k < 1036)
    (hi : (v.inode i).indirect = 0) : v.ptr i k = 0 := by
  rw [ptr, if_neg (by omega), if_neg (by omega), if_pos hi]

end

/-- The slots of an inode are read from its record and from its indirect block. -/
lemma ptr_congr (hrec : v'.inode i = v.inode i)
    (hdata : (v.inode i).indirect ≠ 0 → v'.data (v.inode i).indirect = v.data (v.inode i).indirect)
    (k : ℕ) : v'.ptr i k = v.ptr i k := by
  unfold ptr
  rw [hrec]
  by_cases h0 : (v.inode i).indirect = 0
  · simp [h0]
  · rw [hdata h0]

/-- A slot without a block is a hole. -/
lemma blk_eq_none : v.blk i k = none ↔ v.ptr i k = 0 := by
  unfold blk
  split <;> simp_all

/-- The contents of a slot are those of its block. -/
lemma blk_of_ptr (h : v.ptr i k ≠ 0) : v.blk i k = some (v.data (v.ptr i k)) := by
  simp [blk, h]

/-- The contents of a slot depend on its pointer and its block only. -/
lemma blk_congr (hptr : v'.ptr i k = v.ptr i k)
    (hdata : v.ptr i k ≠ 0 → v'.data (v.ptr i k) = v.data (v.ptr i k)) :
    v'.blk i k = v.blk i k := by
  unfold blk
  rw [hptr]
  split
  · rfl
  · rw [hdata ‹_›]

namespace Mapped

section

variable (h : v.Mapped l fb)
include h

/-- A slot points to a block of the data area that is marked in the bitmap. -/
lemma area (hi : v.Live l i) (hk : k < 1037) (h0 : v.ptr i k ≠ 0) :
    l.dataStart ≤ v.ptr i k ∧ v.ptr i k < l.totalBlocks ∧ v.balloc (v.ptr i k) = true := by
  have := h.owned.area (i, k)
  rw [own_of_live hi hk] at this
  exact this h0

/-- A slot is empty or points into the data area. -/
lemma null_or_area (hi : v.Live l i) (hk : k < 1037) :
    v.ptr i k = 0 ∨ l.dataStart ≤ v.ptr i k ∧ v.ptr i k < l.totalBlocks := by
  by_cases h0 : v.ptr i k = 0
  · exact .inl h0
  · obtain ⟨h1, h2, -⟩ := h.area hi hk h0
    exact .inr ⟨h1, h2⟩

/-- No two slots point to the same block. -/
lemma inj (hi : v.Live l i) (hj : v.Live l j) (hk : k < 1037) (hm : m < 1037)
    (h0 : v.ptr i k ≠ 0) (he : v.ptr i k = v.ptr j m) : i = j ∧ k = m := by
  have := h.owned.inj (i, k) (j, m)
  rw [own_of_live hi hk, own_of_live hj hm] at this
  exact Prod.mk.inj (this h0 he)

/-- A free block is in no slot. -/
lemma ptr_ne_free (hb : v.balloc b = false) (hb0 : b ≠ 0) (hi : v.Live l i)
    (hk : k < 1037) : v.ptr i k ≠ b := by
  have := h.owned.ne_of_free hb hb0 (i, k)
  rwa [own_of_live hi hk] at this

/-- An inode has at most 1037 blocks. -/
lemma count_le (hi : v.Live l i) : (v.inode i).allocatedBlocks ≤ 1037 := by
  rw [h.count i hi, held]
  exact (Finset.card_filter_le _ _).trans (by simp)

/-- An inode with a block counts at least one. -/
lemma count_pos (hi : v.Live l i) (hk : k < 1037) (h0 : v.ptr i k ≠ 0) :
    0 < (v.inode i).allocatedBlocks := by
  rw [← own_of_live hi hk] at h0
  have := held_drop hk h0
  have := h.count i hi
  omega

/-- The indirect block of one inode is no block of another, and no data block of its own. -/
lemma ptr_ne_indirect (hi : v.Live l i) (hj : v.Live l j) (hm : m < 1037)
    (hne : j ≠ i ∨ m ≠ 1036) (h0 : v.ptr j m ≠ 0) : v.ptr j m ≠ (v.inode i).indirect := by
  intro he
  rw [← ptr_indirect] at he
  obtain ⟨rfl, rfl⟩ := h.inj hj hi hm (by omega) h0 he
  omega

end

end Mapped

/-- Slot `k` of inode `i` is rewritten to `x`: besides the record of `i`, only its indirect block
and a block `b` that no other slot holds may change. -/
structure Edit (l : Layout) (v v' : Vol) (i k x b : ℕ) : Prop where
  live : v.Live l i
  slot : k < 1037
  ialloc : v'.ialloc = v.ialloc
  inode : ∀ j, j ≠ i → v'.inode j = v.inode j
  fresh : ∀ j m, v.Live l j → m < 1037 → (j, m) ≠ (i, k) → v.ptr j m ≠ 0 → v.ptr j m ≠ b
  data : ∀ c, c ≠ b → c ≠ (v.inode i).indirect → v'.data c = v.data c
  ptr : ∀ m < 1037, v'.ptr i m = if m = k then x else v.ptr i m

namespace Edit

variable {x : ℕ}

/-- Rewriting a slot leaves the same inodes live. -/
lemma live_iff (e : Edit l v v' i k x b) (j : ℕ) : v'.Live l j ↔ v.Live l j := by
  unfold Live
  rw [e.ialloc]

/-- The slots of other inodes are as before. -/
lemma ptr_other (e : Edit l v v' i k x b) (h : v.Mapped l fb) (hj : v.Live l j) (hji : j ≠ i)
    (m : ℕ) : v'.ptr j m = v.ptr j m := by
  have hind := ptr_indirect v j
  refine ptr_congr (e.inode j hji) (fun h0 => e.data _ ?_ ?_) m
  · rw [← hind] at h0 ⊢
    exact e.fresh j 1036 hj (by omega) (fun he => hji (congrArg Prod.fst he)) h0
  · rw [← hind] at h0 ⊢
    exact h.ptr_ne_indirect e.live hj (by omega) (Or.inl hji) h0

/-- Rewriting a slot changes the owner of that slot only. -/
lemma own (e : Edit l v v' i k x b) (h : v.Mapped l fb) :
    v'.own l = update (v.own l) (i, k) x := by
  funext y
  obtain ⟨j, m⟩ := y
  by_cases hjm : v.Live l j ∧ m < 1037
  · rw [own_of_live ((e.live_iff j).mpr hjm.1) hjm.2]
    by_cases hji : j = i
    · subst hji
      rw [e.ptr m hjm.2]
      by_cases hmk : m = k
      · simp [hmk]
      · rw [if_neg hmk, update_of_ne (fun he => hmk (congrArg Prod.snd he)),
          own_of_live hjm.1 hjm.2]
    · rw [update_of_ne (fun he => hji (congrArg Prod.fst he)), own_of_live hjm.1 hjm.2,
        e.ptr_other h hjm.1 hji]
  · have hne : ((j, m) : ℕ × ℕ) ≠ (i, k) := by
      rintro ⟨⟩
      exact hjm ⟨e.live, e.slot⟩
    rw [update_of_ne hne, Vol.own, Vol.own, if_neg hjm, if_neg]
    rintro ⟨h1, h2⟩
    exact hjm ⟨(e.live_iff j).mp h1, h2⟩

/-- The data slots that are not rewritten keep their contents. -/
lemma blk (e : Edit l v v' i k x b) (h : v.Mapped l fb) (hj : v.Live l j) (hm : m < 1036)
    (hne : (j, m) ≠ (i, k)) : v'.blk j m = v.blk j m := by
  refine blk_congr ?_ fun h0 => e.data _ (e.fresh j m hj (by omega) hne h0)
    (h.ptr_ne_indirect e.live hj (by omega) (Or.inr (by omega)) h0)
  by_cases hji : j = i
  · subst hji
    rw [e.ptr m (by omega), if_neg fun he => hne (by rw [he])]
  · exact e.ptr_other h hj hji m

/-- The bookkeeping after a slot was rewritten. -/
lemma mapped (e : Edit l v v' i k x b) (h : v.Mapped l fb) {fb' : ℕ} {marked : Bool}
    (hb : l.dataStart ≤ b ∧ b < l.totalBlocks) (hballoc : v'.balloc = update v.balloc b marked)
    (howned : Owned (update (v.own l) (i, k) x) (update v.balloc b marked) l.dataStart l.totalBlocks
      fb')
    (hcount : (v'.inode i).allocatedBlocks = held (update (v.own l) (i, k) x) 1037 i) :
    v'.Mapped l fb' where
  owned := by
    rw [e.own h, hballoc]
    exact howned
  count := by
    intro j hj
    rw [e.own h]
    by_cases hji : j = i
    · rw [hji, hcount]
    · rw [e.inode j hji, held_update_of_ne hji, h.count j ((e.live_iff j).mp hj)]
  reserved := by
    intro c hc
    rw [hballoc, update_of_ne (by omega)]
    exact h.reserved c hc

/-- A free block was put into an empty slot. -/
lemma mapped_take (e : Edit l v v' i k b b) (h : v.Mapped l fb) (hlo : 0 < l.dataStart)
    (h0 : v.ptr i k = 0) (hb : l.dataStart ≤ b) (hb' : b < l.totalBlocks)
    (hfree : v.balloc b = false) (hballoc : v'.balloc = update v.balloc b true)
    (hcount : (v'.inode i).allocatedBlocks = (v.inode i).allocatedBlocks + 1) :
    v'.Mapped l (fb - 1) := by
  rw [← own_of_live e.live e.slot] at h0
  refine e.mapped h ⟨hb, hb'⟩ hballoc (h.owned.take h0 hlo hb hb' hfree) ?_
  rw [hcount, h.count i e.live, held_take e.slot h0 (by omega)]

/-- A block was taken out of its slot. -/
lemma mapped_drop (e : Edit l v v' i k 0 b) (h : v.Mapped l fb) (hb : v.ptr i k = b) (h0 : b ≠ 0)
    (hballoc : v'.balloc = update v.balloc b false)
    (hcount : (v'.inode i).allocatedBlocks + 1 = (v.inode i).allocatedBlocks) :
    v'.Mapped l (fb + 1) := by
  have harea := h.area e.live e.slot (hb ▸ h0)
  rw [hb] at harea
  rw [← own_of_live e.live e.slot] at hb
  refine e.mapped h ⟨harea.1, harea.2.1⟩ hballoc (h.owned.drop hb h0) ?_
  have hheld := held_drop e.slot (hb ▸ h0)
  rw [← h.count i e.live] at hheld
  omega

section

variable {r : DiskInode} (hi : v.Live l i) (hialloc : v'.ialloc = v.ialloc)
  (hinode : v'.inode = update v.inode i r)
  (hfresh : ∀ j m, v.Live l j → m < 1037 → (j, m) ≠ (i, k) → v.ptr j m ≠ 0 → v.ptr j m ≠ b)
include hi hialloc hinode hfresh

/-- Rewriting a direct pointer. -/
lemma of_direct (hk : k < 12) (hdata : ∀ c, c ≠ b → v'.data c = v.data c)
    (hdirect : ∀ m < 12, r.direct m = if m = k then x else (v.inode i).direct m)
    (hindirect : r.indirect = (v.inode i).indirect) : Edit l v v' i k x b := by
  have hself : v'.inode i = r := by rw [hinode, update_self]
  refine ⟨hi, by omega, hialloc, fun j hj => by rw [hinode, update_of_ne hj], hfresh,
    fun c hc _ => hdata c hc, fun m hm => ?_⟩
  by_cases hm' : m < 12
  · rw [ptr_direct _ _ hm', ptr_direct _ _ hm', hself, hdirect m hm']
  · rw [if_neg (by omega)]
    by_cases h0 : (v.inode i).indirect = 0
    · simp only [Vol.ptr, if_neg hm', hself, hindirect, h0, if_true]
    · have hne : (v.inode i).indirect ≠ b := by
        have := hfresh i 1036 hi (by omega) fun he => by
          have := congrArg Prod.snd he
          omega
        exact this h0
      simp only [Vol.ptr, if_neg hm', hself, hindirect, hdata _ hne]

/-- Rewriting an entry of the indirect block. -/
lemma of_entry (hk : 12 ≤ k) (hk' : k < 1036) (h0 : (v.inode i).indirect ≠ 0)
    (hdata : ∀ c, c ≠ b → c ≠ (v.inode i).indirect → v'.data c = v.data c)
    (hdirect : ∀ m < 12, r.direct m = (v.inode i).direct m)
    (hindirect : r.indirect = (v.inode i).indirect)
    (hentry : ∀ m < 1024, indirectEntry (v'.data (v.inode i).indirect) m =
      if m = k - 12 then x else indirectEntry (v.data (v.inode i).indirect) m) :
    Edit l v v' i k x b := by
  have hself : v'.inode i = r := by rw [hinode, update_self]
  refine ⟨hi, by omega, hialloc, fun j hj => by rw [hinode, update_of_ne hj], hfresh, hdata,
    fun m hm => ?_⟩
  by_cases hm' : m < 12
  · rw [ptr_direct _ _ hm', ptr_direct _ _ hm', hself, hdirect m hm', if_neg (by omega)]
  · by_cases hm'' : m = 1036
    · subst hm''
      rw [ptr_indirect, ptr_indirect, hself, hindirect, if_neg (by omega)]
    · have h0' : (v'.inode i).indirect ≠ 0 := by rw [hself, hindirect]; exact h0
      rw [ptr_entry v' i (by omega) (by omega) h0', ptr_entry v i (by omega) (by omega) h0,
        hself, hindirect, hentry _ (by omega)]
      have hiff : m - 12 = k - 12 ↔ m = k := by omega
      simp only [hiff]

/-- Rewriting the pointer of the indirect block, which has no entries. -/
lemma of_indirect (hk : k = 1036) (hdata : ∀ c, c ≠ b → v'.data c = v.data c)
    (hdirect : ∀ m < 12, r.direct m = (v.inode i).direct m) (hindirect : r.indirect = x)
    (hentry : ∀ m, 12 ≤ m → m < 1036 → v.ptr i m = 0)
    (hentry' : x ≠ 0 → ∀ m < 1024, indirectEntry (v'.data x) m = 0) :
    Edit l v v' i k x b := by
  have hself : v'.inode i = r := by rw [hinode, update_self]
  refine ⟨hi, by omega, hialloc, fun j hj => by rw [hinode, update_of_ne hj], hfresh,
    fun c hc _ => hdata c hc, fun m hm => ?_⟩
  by_cases hm' : m < 12
  · rw [ptr_direct _ _ hm', ptr_direct _ _ hm', hself, hdirect m hm', if_neg (by omega)]
  · by_cases hm'' : m = k
    · rw [if_pos hm'', hm'', hk, ptr_indirect, hself, hindirect]
    · rw [if_neg hm'', hentry m (by omega) (by omega)]
      rw [← hself] at hindirect
      by_cases h0 : x = 0
      · exact ptr_entry_of_none v' i (by omega) (by omega) (hindirect.trans h0)
      · rw [ptr_entry v' i (by omega) (by omega) (by rw [hindirect]; exact h0), hindirect,
          hentry' h0 _ (by omega)]

end

end Edit

/-- A block that a slot holds is in no other slot. -/
lemma Mapped.fresh_of_held (h : v.Mapped l fb) (hi : v.Live l i) (hk : k < 1037) (j m : ℕ)
    (hj : v.Live l j) (hm : m < 1037) (hne : (j, m) ≠ (i, k)) (h0 : v.ptr j m ≠ 0) :
    v.ptr j m ≠ v.ptr i k := by
  intro he
  obtain ⟨rfl, rfl⟩ := h.inj hj hi hm hk h0 he
  exact hne rfl

end Vol

end Northstar
