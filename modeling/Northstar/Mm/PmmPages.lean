import Northstar.Mm.PmmRun

/-! # The frame allocator, one page at a time

The virtual memory manager takes and returns single pages, named by physical address. For it the
allocator is the set of its free pages (`Pmm.IsFree`): `ns_pmm_alloc_page` takes one element out,
and `ns_pmm_free_page` puts its argument in if that page may be freed. `Pmm.Sound` is what every
allocator built by `ns_pmm_init` has, whatever calls have been made on it since. -/

namespace Northstar

/-- The page at physical address `t` is free. -/
def Pmm.IsFree (pmm : Pmm) (t : ℕ) : Prop :=
  t % nsPageSize = 0 ∧ t / nsPageSize < pmm.frameCount ∧
    pmm.allocatedBitmap.get (t / nsPageSize) = false

/-- The page at physical address `t` is one that `ns_pmm_free_page` accepts. -/
def Pmm.Freeable (pmm : Pmm) (t : ℕ) : Prop :=
  t % nsPageSize = 0 ∧ t / nsPageSize < pmm.frameCount ∧
    pmm.allocatedBitmap.get (t / nsPageSize) = true ∧
    pmm.reservedBitmap.get (t / nsPageSize) = false

/-- What holds of an allocator in use. -/
structure Pmm.Sound (pmm : Pmm) : Prop where
  ok : pmm.Ok
  initialized : pmm.initialized = true
  limit : pmm.managedLimit ≤ 2 ^ 47
  nonzero : pmm.Within (· ≠ 0)

/-- Two allocators of the same frames, with the same reservations. -/
structure Pmm.SameFrames (pmm pmm' : Pmm) : Prop where
  shape : pmm.SameShape pmm'
  reserved : pmm'.reservedBitmap = pmm.reservedBitmap

variable {pmm pmm' : Pmm}

lemma Pmm.SameFrames.refl (pmm : Pmm) : pmm.SameFrames pmm := ⟨.refl pmm, rfl⟩

lemma Pmm.SameFrames.trans {p q r : Pmm} (h : p.SameFrames q) (h' : q.SameFrames r) :
    p.SameFrames r := ⟨h.shape.trans h'.shape, h'.reserved.trans h.reserved⟩

lemma Pmm.Sound.congr (h : pmm.Sound) (hok : pmm'.Ok) (hs : pmm.SameFrames pmm') : pmm'.Sound := by
  refine ⟨hok, hs.shape.initialized.trans h.initialized, hs.shape.limit.trans_le h.limit,
    fun f hf hclear => ?_⟩
  rw [hs.shape.frames] at hf
  rw [hs.reserved] at hclear
  exact h.nonzero f hf hclear

/-- A free page is aligned, is not the page at 0, and has an address that fits an entry. -/
lemma Pmm.Sound.isFree (h : pmm.Sound) {t : ℕ} (ht : pmm.IsFree t) :
    t % nsPageSize = 0 ∧ t ≠ 0 ∧ t < pmm.managedLimit ∧
      pmm.reservedBitmap.get (t / nsPageSize) = false := by
  obtain ⟨hmod, hlt, hclear⟩ := ht
  have hres : pmm.reservedBitmap.get (t / nsPageSize) = false := by
    by_contra hset
    rw [h.ok.reserved _ hlt (by simpa using hset)] at hclear
    cases hclear
  have hnz := h.nonzero _ hlt hres
  have hlimit := h.ok.limit
  unfold nsPageSize at *
  refine ⟨hmod, ?_, ?_, hres⟩
  · rintro rfl
    exact hnz rfl
  · omega

/-! ### Taking a page -/

/-- `ns_pmm_alloc_page` takes one free page. -/
lemma Pmm.Sound.allocPage (h : pmm.Sound) {c : ℕ} (hc : nsPmmAllocPage pmm = (.ok c, pmm')) :
    pmm'.Sound ∧ pmm.SameFrames pmm' ∧ pmm.IsFree c ∧
      ∀ t, pmm'.IsFree t ↔ pmm.IsFree t ∧ t ≠ c := by
  obtain ⟨first, rfl, ha⟩ := h.ok.allocPages hc
  have htracked := ha.tracked
  have hsame : pmm.SameFrames pmm' := ⟨ha.shape, ha.reserved⟩
  refine ⟨h.congr (h.ok.allocates ha) hsame, hsame, ⟨by simp, ?_, ?_⟩, fun t => ?_⟩
  · rw [Nat.mul_div_cancel _ (by decide)]
    omega
  · rw [Nat.mul_div_cancel _ (by decide)]
    exact ha.clear first le_rfl (by omega)
  · unfold Pmm.IsFree
    rw [ha.shape.frames, ha.allocated, Bitmap.get_setRun, Bool.or_eq_false_iff,
      decide_eq_false_iff_not]
    unfold nsPageSize
    constructor
    · rintro ⟨hmod, hlt, hclear, hout⟩
      exact ⟨⟨hmod, hlt, hclear⟩, by omega⟩
    · rintro ⟨⟨hmod, hlt, hclear⟩, hne⟩
      exact ⟨hmod, hlt, hclear, by omega⟩

/-- A failed allocation changes nothing. -/
lemma nsPmmAllocPage_error {e : PmmError} (h : nsPmmAllocPage pmm = (.error e, pmm')) :
    pmm' = pmm := nsPmmAllocPages_error h

/-! ### Giving a page back -/

/-- `ns_pmm_free_page` on a page that it refuses. -/
lemma nsPmmFreePage_of_not {t : ℕ} (ht : ¬ pmm.Freeable t) :
    (nsPmmFreePage pmm t).2 = pmm := by
  cases hcall : nsPmmFreePage pmm t with
  | mk answer pmm' =>
    cases answer with
    | error e => exact nsPmmFreePages_error hcall
    | ok u =>
      obtain ⟨hmod, hf⟩ := nsPmmFreePages_ok hcall
      have htracked := hf.tracked
      obtain ⟨hset, hclear⟩ := hf.taken _ le_rfl (by omega)
      exact absurd ⟨hmod, by omega, hset, hclear⟩ ht

/-- `ns_pmm_free_page` adds the page to the free ones, if it accepts it. -/
lemma Pmm.Sound.freePage (h : pmm.Sound) (c : ℕ) :
    (nsPmmFreePage pmm c).2.Sound ∧ pmm.SameFrames (nsPmmFreePage pmm c).2 ∧
      ∀ t, (nsPmmFreePage pmm c).2.IsFree t ↔ pmm.IsFree t ∨ t = c ∧ pmm.Freeable c := by
  by_cases hfree : pmm.Freeable c
  · obtain ⟨hmod, hlt, hset, hclear⟩ := hfree
    have hcall : nsPmmFreePage pmm c = (.ok (), (nsPmmFreePage pmm c).2) := by
      unfold nsPmmFreePage nsPmmFreePages
      have hcheck : freeCheck pmm (c / nsPageSize) = none := by simp [freeCheck, hset, hclear]
      rw [if_neg (by simp [h.initialized, hmod])]
      rw [if_neg (by omega)]
      simp [List.range', hcheck]
    obtain ⟨-, hf⟩ := nsPmmFreePages_ok hcall
    have hsame : pmm.SameFrames (nsPmmFreePage pmm c).2 := ⟨hf.shape, hf.reserved⟩
    refine ⟨h.congr (h.ok.frees hf) hsame, hsame, fun t => ?_⟩
    unfold Pmm.IsFree
    rw [hf.shape.frames, hf.allocated, Bitmap.get_clearRun]
    simp only [Bool.and_eq_false_iff, Bool.not_eq_false', decide_eq_true_eq]
    constructor
    · rintro ⟨hmod', hlt', hbit | hrange⟩
      · exact .inl ⟨hmod', hlt', hbit⟩
      · refine .inr ⟨?_, hmod, hlt, hset, hclear⟩
        unfold nsPageSize at *
        omega
    · rintro (⟨hmod', hlt', hbit⟩ | ⟨rfl, -⟩)
      · exact ⟨hmod', hlt', .inl hbit⟩
      · exact ⟨hmod, hlt, .inr (by omega)⟩
  · rw [nsPmmFreePage_of_not hfree]
    exact ⟨h, .refl pmm, fun t => by simp [hfree]⟩

/-- A page that was free once, and is not now, may be freed. -/
lemma Pmm.Sound.freeable (h : pmm.Sound) (hs : pmm.SameFrames pmm') {t : ℕ} (ht : pmm.IsFree t)
    (hnot : ¬ pmm'.IsFree t) : pmm'.Freeable t := by
  obtain ⟨hmod, -, -, hres⟩ := h.isFree ht
  have hlt : t / nsPageSize < pmm'.frameCount := by
    rw [hs.shape.frames]
    exact ht.2.1
  refine ⟨hmod, hlt, ?_, by rw [hs.reserved]; exact hres⟩
  by_contra hclear
  exact hnot ⟨hmod, hlt, by simpa using hclear⟩

/-! ### Reachable allocators -/

/-- The allocator was built by `ns_pmm_init` and has since served the calls of a run. -/
def PmmReachable (pmm : Pmm) : Prop :=
  ∃ boot entries bitmapPhys storageSize pmm₀, ∃ calls : List PmmCall,
    nsPmmInit boot entries bitmapPhys storageSize = .ok pmm₀ ∧
    pmm = (calls.foldl PmmRun.step { pmm := pmm₀, live := [], ranges := [] }).pmm

/-- Every reachable allocator is sound: low memory, and with it page 0, is reserved at boot. -/
lemma PmmReachable.sound (h : PmmReachable pmm) : pmm.Sound := by
  obtain ⟨boot, entries, bitmapPhys, storageSize, pmm₀, calls, hinit, rfl⟩ := h
  obtain ⟨hok, hstarted, hin⟩ := nsPmmInit_spec hinit
  have hstart : PmmRun.Ok (FrameSafe boot entries bitmapPhys (nsPmmStorageRequired boot entries))
      { pmm := pmm₀, live := [], ranges := [] } :=
    ⟨hok, fun f hf hc => ⟨hin f hf hc, by simp⟩, by simp, by simp⟩
  have hshape := hstart.run_shape calls
  refine ⟨(hstart.run calls).pmm, hshape.initialized.trans hstarted,
    hshape.limit.trans_le (nsPmmInit_limit hinit), ?_⟩
  rintro f hf hclear rfl
  refine ((hstart.run calls).within 0 hf hclear).1.lowMemory ?_
  exact (overlaps_iff (by decide)).mpr ⟨by simp, by simp⟩

end Northstar
