import Northstar.Mm.PmmSpec

/-! # Runs of the frame allocator

A run starts from an allocator that `ns_pmm_init` accepted and makes allocation, free and
reservation calls with arbitrary machine words. Beside the allocator it keeps the live
allocations, each as the list of frames it still holds, and the ranges reserved so far. The
invariant of `PmmRun.Ok` is kept by every call, and gives the guarantees of every allocation of
every run. -/

namespace Northstar

open List

/-- A call of the allocator. -/
inductive PmmCall
  | allocPages (count alignmentPages maxPhysExclusive : UInt64)
  | freePages (phys count : UInt64)
  | reserveRange (base length : UInt64)

/-- The allocator, its live allocations and the ranges reserved since it was built. -/
structure PmmRun where
  pmm : Pmm
  live : List (List ℕ)
  ranges : List (ℕ × ℕ)

namespace PmmRun

/-- One call. A free takes its frames out of whatever allocation holds them. -/
def step (r : PmmRun) : PmmCall → PmmRun
  | .allocPages count alignmentPages maxPhysExclusive =>
    match nsPmmAllocPages r.pmm count.toNat alignmentPages.toNat maxPhysExclusive.toNat with
    | (.ok phys, pmm) =>
      { r with pmm := pmm, live := List.range' (phys / nsPageSize) count.toNat :: r.live }
    | (.error _, pmm) => { r with pmm := pmm }
  | .freePages phys count =>
    match nsPmmFreePages r.pmm phys.toNat count.toNat with
    | (.ok _, pmm) =>
      let freed := List.range' (phys.toNat / nsPageSize) count.toNat
      { r with pmm := pmm, live := r.live.map fun a => a.filter fun f => decide (f ∉ freed) }
    | (.error _, pmm) => { r with pmm := pmm }
  | .reserveRange base length =>
    match nsPmmReserveRange r.pmm base.toNat length.toNat with
    | (.ok _, pmm) => { r with pmm := pmm, ranges := (base.toNat, length.toNat) :: r.ranges }
    | (.error _, pmm) => { r with pmm := pmm }

/-- The invariant of a run: live frames are distinct and marked allocated, and a frame that is not
reserved has the property `S` and meets no reserved range. -/
structure Ok (S : ℕ → Prop) (r : PmmRun) : Prop where
  pmm : r.pmm.Ok
  within : r.pmm.Within fun f => S f ∧ ∀ g ∈ r.ranges, ¬ Overlaps g.1 g.2 f
  nodup : r.live.flatten.Nodup
  live : ∀ f ∈ r.live.flatten, f < r.pmm.frameCount ∧ r.pmm.allocatedBitmap.get f = true

variable {S : ℕ → Prop} {r : PmmRun}

/-- An allocation adds a live range, which is disjoint from the others. -/
lemma Ok.allocates (h : r.Ok S) {pmm' : Pmm} {count alignment maxPhys first : ℕ}
    (ha : r.pmm.Allocates pmm' count alignment maxPhys first) :
    Ok S { r with pmm := pmm', live := range' first count :: r.live } := by
  have htracked := ha.tracked
  refine ⟨h.pmm.allocates ha, fun f hf hclear => ?_, ?_, fun f hf => ?_⟩
  · rw [ha.shape.frames] at hf
    rw [ha.reserved] at hclear
    exact h.within f hf hclear
  · rw [flatten_cons, nodup_append']
    refine ⟨nodup_range', h.nodup, fun f h₁ h₂ => ?_⟩
    rw [mem_range'_1] at h₁
    have hset := (h.live f h₂).2
    rw [ha.clear f h₁.1 h₁.2] at hset
    cases hset
  · simp only [ha.shape.frames, ha.allocated, Bitmap.get_setRun, Bool.or_eq_true,
      decide_eq_true_eq]
    rw [flatten_cons, mem_append, mem_range'_1] at hf
    rcases hf with hf | hf
    · exact ⟨by omega, .inr hf⟩
    · exact ⟨(h.live f hf).1, .inl (h.live f hf).2⟩

/-- A free takes a range out of the live ones. -/
lemma Ok.frees (h : r.Ok S) {pmm' : Pmm} {first count : ℕ} (hf : r.pmm.Frees pmm' first count) :
    Ok S { r with
      pmm := pmm'
      live := r.live.map fun a => a.filter fun f => decide (f ∉ range' first count) } := by
  have hflat : (r.live.map fun a => a.filter fun f => decide (f ∉ range' first count)).flatten =
      r.live.flatten.filter fun f => decide (f ∉ range' first count) :=
    filter_flatten.symm
  refine ⟨h.pmm.frees hf, fun f hlt hclear => ?_, ?_, fun f hmem => ?_⟩
  · rw [hf.shape.frames] at hlt
    rw [hf.reserved] at hclear
    exact h.within f hlt hclear
  · rw [hflat]
    exact h.nodup.filter _
  · rw [hflat, mem_filter, decide_eq_true_iff, mem_range'_1] at hmem
    obtain ⟨hlt, hset⟩ := h.live f hmem.1
    simp only [hf.shape.frames, hf.allocated, Bitmap.get_clearRun, hset]
    exact ⟨hlt, by simp [hmem.2]⟩

/-- A reservation does not touch the live ranges. -/
lemma Ok.reserves (h : r.Ok S) {base length : ℕ} (hl : length < 2 ^ 64) :
    Ok S { r with
      pmm := reserveRangeUnlocked r.pmm base length
      ranges := (base, length) :: r.ranges } := by
  obtain ⟨hok, hshape, hbits⟩ := h.pmm.reserveRange base hl
  refine ⟨hok, fun f hf hclear => ?_, h.nodup, fun f hf => ?_⟩
  · obtain ⟨⟨hS, hold⟩, hnew⟩ := h.pmm.reserveRange_within h.within hl f hf hclear
    exact ⟨hS, forall_mem_cons.mpr ⟨hnew, hold⟩⟩
  · obtain ⟨hlt, hset⟩ := h.live f hf
    simp only [hshape.frames]
    exact ⟨hlt, (hbits f).2.mpr (.inl hset)⟩

/-- Every call keeps the invariant, and the frames that are managed. -/
lemma Ok.step (h : r.Ok S) (c : PmmCall) : (r.step c).Ok S ∧ r.pmm.SameShape (r.step c).pmm := by
  cases c with
  | allocPages count alignment maxPhys =>
    simp only [PmmRun.step]
    split
    · next phys pmm' hcall =>
      obtain ⟨first, rfl, ha⟩ := h.pmm.allocPages hcall
      rw [Nat.mul_div_cancel _ (by decide)]
      exact ⟨h.allocates ha, ha.shape⟩
    · next e pmm' hcall =>
      obtain rfl := nsPmmAllocPages_error hcall
      exact ⟨h, .refl _⟩
  | freePages phys count =>
    simp only [PmmRun.step]
    split
    · next u pmm' hcall =>
      have hfrees := (nsPmmFreePages_ok hcall).2
      exact ⟨h.frees hfrees, hfrees.shape⟩
    · next e pmm' hcall =>
      obtain rfl := nsPmmFreePages_error hcall
      exact ⟨h, .refl _⟩
  | reserveRange base length =>
    simp only [PmmRun.step]
    rcases nsPmmReserveRange_cases r.pmm base.toNat length.toNat with ⟨hsame, e, herr⟩ | hok
    · rw [show nsPmmReserveRange r.pmm base.toNat length.toNat = (.error e, r.pmm) from
        Prod.ext herr hsame]
      exact ⟨h, .refl _⟩
    · rw [hok]
      exact ⟨h.reserves length.toNat_lt, (h.pmm.reserveRange base.toNat length.toNat_lt).2.1⟩

lemma Ok.run (h : r.Ok S) (calls : List PmmCall) : (calls.foldl PmmRun.step r).Ok S := by
  induction calls generalizing r with
  | nil => exact h
  | cons c calls ih => exact ih (h.step c).1

/-- A run keeps the frames that are managed. -/
lemma Ok.run_shape (h : r.Ok S) (calls : List PmmCall) :
    r.pmm.SameShape (calls.foldl PmmRun.step r).pmm := by
  induction calls generalizing r with
  | nil => exact .refl _
  | cons c calls ih => exact (h.step c).2.trans (ih (h.step c).1)

end PmmRun

/-- In every run from an accepted boot, the free count is the number of clear bits, live
allocations share no frame, and an allocation returns an aligned run below its limit of frames
that the boot information leaves usable, that no earlier reservation meets and that no live
allocation holds. -/
theorem pmm_runs_allocate_safely {boot : BootInfo} {entries : ℕ → UInt8}
    {bitmapPhys storageSize : ℕ} {pmm : Pmm}
    (hinit : nsPmmInit boot entries bitmapPhys storageSize = .ok pmm) (calls : List PmmCall) :
    let r := calls.foldl PmmRun.step { pmm := pmm, live := [], ranges := [] }
    r.pmm.freeFrames = r.pmm.allocatedBitmap.clearBits (8 * r.pmm.bytesPerBitmap) ∧
    r.live.Pairwise List.Disjoint ∧
    ∀ (count alignmentPages maxPhysExclusive : UInt64) (phys : ℕ) (pmm' : Pmm),
      nsPmmAllocPages r.pmm count.toNat alignmentPages.toNat maxPhysExclusive.toNat =
        (.ok phys, pmm') →
      ∃ first, phys = first * nsPageSize ∧ alignmentPages.toNat ∣ first ∧
        (maxPhysExclusive.toNat ≠ 0 →
          (first + count.toNat) * nsPageSize ≤ maxPhysExclusive.toNat) ∧
        ∀ f, first ≤ f → f < first + count.toNat →
          FrameSafe boot entries bitmapPhys (nsPmmStorageRequired boot entries) f ∧
          (∀ g ∈ r.ranges, ¬ Overlaps g.1 g.2 f) ∧ ∀ a ∈ r.live, f ∉ a := by
  intro r
  obtain ⟨hok, -, hin⟩ := nsPmmInit_spec hinit
  have hstart : PmmRun.Ok (FrameSafe boot entries bitmapPhys (nsPmmStorageRequired boot entries))
      { pmm := pmm, live := [], ranges := [] } :=
    ⟨hok, fun f hf hc => ⟨hin f hf hc, by simp⟩, by simp, by simp⟩
  have hrun : r.Ok _ := hstart.run calls
  refine ⟨?_, (nodup_flatten.mp hrun.nodup).2, fun count alignment maxPhys phys pmm' hcall => ?_⟩
  · have hbytes := hrun.pmm.bytes
    rw [hrun.pmm.free, Bitmap.clearBits_extend (by omega) hrun.pmm.tail]
  · obtain ⟨first, rfl, ha⟩ := hrun.pmm.allocPages hcall
    refine ⟨first, rfl, ha.aligned, ha.below, fun f h₁ h₂ => ?_⟩
    have hclear := ha.clear f h₁ h₂
    have hlt : f < r.pmm.frameCount := lt_of_lt_of_le h₂ ha.tracked
    have hres : r.pmm.reservedBitmap.get f = false := by
      by_contra hset
      rw [hrun.pmm.reserved f hlt (by simpa using hset)] at hclear
      cases hclear
    obtain ⟨hsafe, hranges⟩ := hrun.within f hlt hres
    refine ⟨hsafe, hranges, fun a ha' hmem => ?_⟩
    rw [(hrun.live f (mem_flatten.mpr ⟨a, ha', hmem⟩)).2] at hclear
    cases hclear

/-- A machine with 258 frames, of which the last one is free after boot: low memory holds the
tables and the boot record, and the kernel is the page behind it. -/
def smallBoot : BootInfo :=
  ((((((((((((((Bytes.zero : BootInfo).putLe 0 8 0x544f4f425254534e).putLe 8 4 1).putLe 12 4
    192).putLe 20 4 1).putLe 32 8 0x8000).putLe 40 4 1).putLe 44 4 24).putLe 48 8
    0x100000).putLe 56 8 0xffffffff80000000).putLe 64 8 0x1000).putLe 72 8 0x1000).putLe 96 8
    0xffff800000000000).putLe 136 8 0x7000).putLe 168 8 0x102000

/-- Its memory map: one usable entry over the whole memory. -/
def smallMap (i : ℕ) : UInt8 :=
  if i < 8 then leByte 0 i else if i < 16 then leByte 0x102000 (i - 8)
  else if i < 20 then leByte 1 (i - 16) else leByte 1 (i - 20)

/-- The page that the allocator of `smallBoot` hands out first, or `none` if it does not come
up. -/
def smallFirstPage : Option ℕ :=
  match nsPmmInit smallBoot smallMap 0x9000 4096 with
  | .ok pmm => (nsPmmAllocPages pmm 1 1 0).1.toOption
  | .error _ => none

/-- A one-page allocation after boot. -/
theorem pmm_runs_allocate_safely_smallBoot :
    ∃ pmm, nsPmmInit smallBoot smallMap 0x9000 4096 = .ok pmm ∧
      (nsPmmAllocPages pmm 1 1 0).1 = .ok 0x101000 ∧
      FrameSafe smallBoot smallMap 0x9000 (nsPmmStorageRequired smallBoot smallMap) 0x101 := by
  have hpage : smallFirstPage = some 0x101000 := by decide +kernel
  unfold smallFirstPage at hpage
  split at hpage
  · next pmm hinit =>
    have halloc : nsPmmAllocPages pmm 1 1 0 = (.ok 0x101000, (nsPmmAllocPages pmm 1 1 0).2) := by
      refine Prod.ext ?_ rfl
      cases h : (nsPmmAllocPages pmm 1 1 0).1 with
      | ok phys => simpa [h, Except.toOption] using hpage
      | error e => simp [h, Except.toOption] at hpage
    obtain ⟨first, hfirst, -, -, hsafe⟩ :=
      (pmm_runs_allocate_safely hinit []).2.2 1 1 0 _ _ halloc
    obtain rfl : first = 0x101 := by unfold nsPageSize at hfirst; omega
    exact ⟨pmm, hinit, by rw [halloc], (hsafe 0x101 le_rfl (by decide)).1⟩
  · cases hpage

/-- In every run from an accepted boot, an allocation with valid arguments is refused for lack of
space only if no aligned run of free frames lies below its limit, exactly if such runs do not all
have frames on both sides of the hint. -/
theorem pmm_enospc_without_run_iff {boot : BootInfo} {entries : ℕ → UInt8}
    {bitmapPhys storageSize : ℕ} {pmm : Pmm}
    (hinit : nsPmmInit boot entries bitmapPhys storageSize = .ok pmm) (calls : List PmmCall)
    (count alignmentPages maxPhysExclusive : UInt64) (hcount : 0 < count.toNat)
    (halign : ∃ k, alignmentPages.toNat = 2 ^ k) :
    let pmm' := (calls.foldl PmmRun.step { pmm := pmm, live := [], ranges := [] }).pmm
    let run := pmm'.FreeRun count.toNat alignmentPages.toNat maxPhysExclusive.toNat
    ((nsPmmAllocPages pmm' count.toNat alignmentPages.toNat maxPhysExclusive.toNat).1 =
        .error .enospc → ∀ first, ¬ run first) ↔
      ((∃ first, run first) → ∃ first, run first ∧
        ¬ (first < pmm'.nextHint ∧ pmm'.nextHint < first + count.toNat)) := by
  intro pmm' run
  obtain ⟨hok, hstarted, -⟩ := nsPmmInit_spec hinit
  have hstart : PmmRun.Ok (fun _ => True) { pmm := pmm, live := [], ranges := [] } :=
    ⟨hok, fun f _ _ => ⟨trivial, by simp⟩, by simp, by simp⟩
  have hok' : pmm'.Ok := (hstart.run calls).pmm
  have hinit' : pmm'.initialized = true :=
    (hstart.run_shape calls).initialized.trans hstarted
  constructor
  · rintro hclaim ⟨first, hrun⟩
    obtain ⟨phys, pmm₁, hcall⟩ | hrefused :=
      nsPmmAllocPages_cases pmm' maxPhysExclusive.toNat hinit' hcount halign
    · obtain ⟨found, -, ha⟩ := hok'.allocPages hcall
      exact ⟨found, ha.freeRun⟩
    · exact absurd hrun (hclaim hrefused first)
  · intro hside hrefused first hrun
    obtain ⟨other, hother, hout⟩ := hside ⟨first, hrun⟩
    exact hout (hok'.enospc alignmentPages.toNat_lt hrefused hother)

/-- A result that passes a test is there. -/
lemma exists_ok_of_any {α ε : Type} {x : Except ε α} {p : α → Bool}
    (h : x.toOption.any p = true) : ∃ a, x = .ok a ∧ p a = true := by
  cases x with
  | ok a => exact ⟨a, rfl, h⟩
  | error e => cases h

/-- A map with one free frame has no room for two. -/
theorem pmm_enospc_without_run_iff_smallBoot :
    ∃ pmm, nsPmmInit smallBoot smallMap 0x9000 4096 = .ok pmm ∧
      (nsPmmAllocPages pmm 2 1 0).1 = .error .enospc ∧ ∀ first, ¬ pmm.FreeRun 2 1 0 first := by
  obtain ⟨pmm, hinit, h⟩ := exists_ok_of_any (x := nsPmmInit smallBoot smallMap 0x9000 4096)
    (p := fun pmm => decide ((nsPmmAllocPages pmm 2 1 0).1 = .error .enospc) &&
      decide (pmm.nextHint = 256) && pmm.allocatedBitmap.get 255)
    (by decide +kernel)
  simp only [Bool.and_eq_true, decide_eq_true_eq] at h
  obtain ⟨⟨hrefuses, hhint⟩, hset⟩ := h
  refine ⟨pmm, hinit, hrefuses,
    (pmm_enospc_without_run_iff hinit [] 2 1 0 (by decide) ⟨0, rfl⟩).mpr ?_ hrefuses⟩
  rintro ⟨first, hrun⟩
  refine ⟨first, hrun, ?_⟩
  rintro ⟨hlow, hhigh⟩
  change first < pmm.nextHint at hlow
  change pmm.nextHint < first + 2 at hhigh
  have hclear := hrun.clear 255 (by omega) (by change 255 < first + 2; omega)
  exact absurd (hset.symm.trans hclear) (by decide)

/-- `smallBoot` with four more frames. -/
def largerBoot : BootInfo := smallBoot.putLe 168 8 0x106000

/-- Its memory map. -/
def largerMap (i : ℕ) : UInt8 := if 8 ≤ i ∧ i < 16 then leByte 0x106000 (i - 8) else smallMap i

/-- Two frames are freed, the one in front first; the hint is at the second one. -/
def splitCalls : List PmmCall :=
  [.allocPages 1 1 0, .allocPages 1 1 0, .freePages 0x101000 1, .allocPages 2 1 0,
    .freePages 0x102000 1]

/-- Two free frames on either side of the hint are not found. -/
theorem pmm_enospc_misses_run :
    ∃ pmm, nsPmmInit largerBoot largerMap 0x9000 4096 = .ok pmm ∧
      let pmm' := (splitCalls.foldl PmmRun.step { pmm := pmm, live := [], ranges := [] }).pmm
      (nsPmmAllocPages pmm' 2 1 0).1 = .error .enospc ∧ pmm'.FreeRun 2 1 0 0x101 := by
  obtain ⟨pmm, hinit, h⟩ := exists_ok_of_any (x := nsPmmInit largerBoot largerMap 0x9000 4096)
    (p := fun pmm =>
      let pmm' := (splitCalls.foldl PmmRun.step { pmm := pmm, live := [], ranges := [] }).pmm
      decide ((nsPmmAllocPages pmm' 2 1 0).1 = .error .enospc) &&
        decide (0x103 ≤ pmm'.frameCount) && !pmm'.allocatedBitmap.get 0x101 &&
        !pmm'.allocatedBitmap.get 0x102)
    (by decide +kernel)
  simp only [Bool.and_eq_true, decide_eq_true_eq, Bool.not_eq_true'] at h
  obtain ⟨⟨⟨hrefuses, hframes⟩, hfirst⟩, hsecond⟩ := h
  refine ⟨pmm, hinit, hrefuses, one_dvd _, by simp, hframes, fun f h₁ h₂ => ?_⟩
  obtain rfl | rfl : f = 0x101 ∨ f = 0x102 := by omega
  · exact hfirst
  · exact hsecond

end Northstar
