import Northstar.Mm.VmmOwnership
import Northstar.Mm.VmmTeardown

/-! # Frames are conserved

Runs of calls on owned spaces: creating a space, allocating and mapping ranges, unmapping ranges
with release, protecting a page, destroying a space. Every call, successful or not, keeps the
accounting of `Accounted` with nothing pending; so at every point of a run a frame that the
manager holds is a table of one space or the frame of one page, and when the last space is gone
every frame is back. -/

namespace Northstar

open Domain

/-! ### Addresses of the lower half -/

/-- A page of the lower half is under a lower slot. -/
lemma lower_slot {virt : ℕ} (h : virt < nsVmmUserTop) : tableIndex virt 4 ∈ lowerSlots := by
  change (virt / 2 ^ (12 + (4 - 1) * 9)) % 512 < 256
  have hlt : virt / 2 ^ (12 + (4 - 1) * 9) < 256 := Nat.div_lt_of_lt_mul (by omega)
  omega

/-- A canonical address below the kernel half is in the lower half. -/
lemma lower_of_canonical {virt : ℕ} (h : canonicalAddress virt = true)
    (hlt : virt < kernelHalfBase) :
    virt < nsVmmUserTop := by
  unfold canonicalAddress at h
  simp only [Bool.or_eq_true, decide_eq_true_eq] at h
  omega

/-- What `validate_page_range` has checked. -/
lemma validatePageRange_some {virt length finish : ℕ}
    (h : validatePageRange virt length = some finish) :
    virt % 4096 = 0 ∧ canonicalAddress virt = true ∧ length ≠ 0 ∧
      finish = virt + (length + 4095) / 4096 * 4096 ∧ finish < 2 ^ 64 := by
  have hround := and_not64_mask (length + 4096 - 1) 12
  unfold validatePageRange at h
  dsimp only at h
  split_ifs at h with hbad hend
  simp only [not_or, Bool.not_eq_false, Bool.not_eq_true] at hbad hend
  obtain ⟨hlen, hmod, hcan, hmax⟩ := hbad
  obtain ⟨hover, -, -⟩ := hend
  have hmask : (length + nsPageSize - 1) &&& not64 (nsPageSize - 1) =
      (length + 4095) / 4096 * 4096 := by
    refine hround.trans ?_
    unfold uint64Max nsPageSize at hmax
    omega
  rw [hmask] at hover h
  have hsum : virt + (length + 4095) / 4096 * 4096 < 2 ^ 64 := by
    unfold addOverflowU64 at hover
    rw [decide_eq_false_iff_not] at hover
    unfold uint64Max nsPageSize at hmax
    omega
  rw [addOverflowU64_of_lt hsum] at h
  exact ⟨not_not.mp hmod, hcan, hlen, (Option.some.inj h).symm, Option.some.inj h ▸ hsum⟩

section

variable {s₀ : Vmm} {live : Set ℕ} {s : Vmm} {pend : Set ℕ} {r : ℕ}

/-! ### Ranges -/

section

variable (h₀ : s₀.pmm.Sound) (hr : r ∈ live)
include h₀ hr

/-- `ns_vmm_unmap` keeps the accounting. -/
lemma Accounted.unmap (h : Accounted s₀ live (s, pend)) (virt : ℕ) :
    Sat (nsVmmUnmap ⟨r, true⟩ virt true) s (fun _ s' => Accounted s₀ live (s', pend))
      (fun _ s' => Accounted s₀ live (s', pend)) := by
  have hk := Accounted.keeps h₀ live r (tableIndex virt 4) False
  have htop : UnmapArgs ⟨r, true⟩ virt → tableIndex virt 4 ∈ lowerSlots := fun hargs =>
    lower_slot (lower_of_canonical hargs.canonical (hargs.lower rfl))
  have hclear := fun hargs t hleaf => h.clearPage h₀ hr (htop hargs) (t := t) hleaf
  refine (nsVmmUnmap_spec (d := ownedDomain live) hr rfl htop h.tables.layout fun hargs t hleaf =>
    (hclear hargs t hleaf).tables).mono ?_ ?_
  · rintro u s' ⟨hargs, t, hleaf, hsteps⟩
    exact hk.run (hclear hargs t hleaf) ((hclear hargs t hleaf).tables.shapes_of_reclaims hsteps)
  · rintro e s' rfl
    exact h

/-- The loop of `ns_vmm_unmap_range` keeps the accounting. -/
lemma Accounted.unmapPages (pages : ℕ)
    (h : Accounted s₀ live (s, pend)) (virt : ℕ) (first : Option VmmError) :
    Sat (unmapPages ⟨r, true⟩ true pages virt first) s
      (fun _ s' => Accounted s₀ live (s', pend))
      (fun _ s' => Accounted s₀ live (s', pend)) := by
  induction pages generalizing s virt first with
  | zero => exact h
  | succ pages ih =>
    simp only [Northstar.unmapPages, sat_bind, sat_observe]
    exact (h.unmap h₀ hr virt).mono (fun _ s' h' => ih h' _ _) fun _ s' h' => ih h' _ _

/-- `ns_vmm_unmap_range` keeps the accounting. -/
lemma Accounted.unmapRange (h : Accounted s₀ live (s, pend)) (virt length : ℕ) :
    Sat (nsVmmUnmapRange ⟨r, true⟩ virt length true) s
      (fun _ s' => Accounted s₀ live (s', pend))
      (fun _ s' => Accounted s₀ live (s', pend)) := by
  simp only [nsVmmUnmapRange, sat_ite, sat_pure]
  refine ⟨fun _ => h, fun _ => ?_⟩
  split
  · exact h
  · rw [sat_bind]
    refine (h.unmapPages h₀ hr _ virt none).mono (fun first s' h' => ?_) fun _ _ h' => h'
    cases first <;> exact h'

/-- A pending frame has been mapped as an owned page. -/
lemma Accounted.mapped (h : Accounted s₀ live (s, pend)) {virt phys flags : ℕ} {s' s₁ : Vmm} {t : ℕ}
    (htop : tableIndex virt 4 ∈ lowerSlots) (hphys : phys ∈ pend)
    (hown : flags.testBit pageOwned = true)
    (hmapped : Mapped (ownedDomain live) r virt phys flags False s pend s' s₁ t) :
    Accounted s₀ live (s', pend \ {phys}) ∧
      walk (link s'.mem) r (pathFrom virt 4) = some phys := by
  have ha := leaf_addr hr htop
  have h₁ : Accounted s₀ live (s₁, pend) := (Accounted.keeps h₀ live r _ False).run h hmapped.shapes
  have hmem : s'.mem = s₁.mem.set t (tableIndex virt 1) (entryFromFlags phys flags) := by
    rw [hmapped.result, Vmm.invalidate_mem, Vmm.store_mem]
  constructor
  · rw [hmapped.result]
    exact (h₁.fill ha rfl hmapped.walk hmapped.absent hphys hown).congr (by simp) (by simp)
      ⟨by simp, by simp⟩
  · rw [pathFrom_eq, walk_concat, hmem, h₁.walk_leaf ha rfl hmapped.walk _ (addrs_of_slot ha),
      hmapped.walk, Option.bind_some, link, set_self, linkOf_entryFromFlags,
      (h₁.tables.pending phys hphys).2.2]

/-- Mapping a pending frame as an owned page. -/
lemma Accounted.map (h : Accounted s₀ live (s, pend))
    (virt flags : ℕ) {phys : ℕ} (hphys : phys ∈ pend) (hown : flags.testBit pageOwned = true) :
    Sat (nsVmmMap ⟨r, true⟩ virt phys flags) s
      (fun _ s' => Accounted s₀ live (s', pend \ {phys}) ∧ phys ∈ framesOf live s'.mem ∧
        phys ∉ (ownedDomain live).inUse s'.mem)
      (fun _ s' => Accounted s₀ live (s', pend)) := by
  have hk := Accounted.keeps h₀ live r (tableIndex virt 4) False
  have htop : MapArgs s ⟨r, true⟩ virt phys flags → tableIndex virt 4 ∈ lowerSlots := fun hargs =>
    lower_slot (lower_of_canonical hargs.canonical (hargs.lower rfl))
  refine (nsVmmMap_spec hk hr rfl htop h False.elim).mono ?_ ?_
  · rintro u s' ⟨hargs, s₁, t, hmapped⟩
    obtain ⟨hres, hframe⟩ := h.mapped h₀ hr (htop hargs) hphys hown hmapped
    exact ⟨hres, mem_tables (leaf_addr hr (htop hargs)) hframe,
      hres.page_not_managed (leaf_addr hr (htop hargs)) rfl hframe⟩
  · rintro e s' (rfl | ⟨-, hsteps⟩)
    · exact h
    · exact hk.run h hsteps

end

/-- Clearing the frame of a page. -/
lemma Accounted.clean (h : Accounted s₀ live (s, pend)) {c : ℕ} (hframe : c ∈ framesOf live s.mem)
    (hc : c ∉ (ownedDomain live).inUse s.mem) : Accounted s₀ live (s.zeroPage c, pend) := by
  refine h.outside rfl ⟨rfl, rfl⟩ (fun t ht i => zero_of_ne s.mem ?_ i)
    (h.kept_page ((h.account c).mpr (.inr (.inl hframe))) (fun hin => hc (.inl hin)) rfl
      fun t ht => zero_of_ne s.mem ht)
  rintro rfl
  exact hc (.inl ht)

/-- The loop of `ns_vmm_alloc_map` keeps the accounting, with its rollback. -/
lemma Accounted.allocMapPages (h₀ : s₀.pmm.Sound) (hr : r ∈ live) (pages : ℕ)
    (h : Accounted s₀ live (s, ∅)) (virt flags mapped : ℕ) :
    Sat (allocMapPages ⟨r, true⟩ virt flags pages mapped) s
      (fun _ s' => Accounted s₀ live (s', ∅)) (fun _ s' => Accounted s₀ live (s', ∅)) := by
  induction pages generalizing s mapped with
  | zero => exact h
  | succ pages ih =>
    have hown : (flags ||| 2 ^ pageOwned).testBit pageOwned = true := by
      simp
    simp only [Northstar.allocMapPages, sat_bind, sat_get]
    split
    · next e pmm halloc =>
      obtain rfl := nsPmmAllocPage_error halloc
      simp only [sat_bind, sat_set, sat_observe, sat_throw]
      exact h.unmapRange h₀ hr _ _
    · next phys pmm halloc =>
      have hpend : Accounted s₀ live ({ s with pmm := pmm }, {phys}) := by
        rw [← insert_empty_eq]
        exact h.alloc halloc
      have hdone : ({phys} : Set ℕ) \ {phys} = ∅ := sdiff_self
      simp only [sat_bind, sat_set, sat_observe]
      refine (hpend.map h₀ hr (virt + mapped) _ rfl hown).mono ?_ ?_
      · rintro u s' ⟨h', hframe, hout⟩
        rw [hdone] at h'
        simp only [sat_ite, sat_bind, sat_modify, sat_observe, sat_throw]
        refine ⟨fun _ => ih (h'.clean hframe hout) _, fun _ => ?_⟩
        exact (h'.unmap h₀ hr _).imp_state fun _ h'' => h''.unmapRange h₀ hr _ _
      · intro e s' h'
        have hback := h'.free h₀ rfl
        rw [hdone] at hback
        exact hback.unmapRange h₀ hr _ _

/-- `ns_vmm_alloc_map` keeps the accounting. -/
lemma Accounted.allocMap (h₀ : s₀.pmm.Sound) (hr : r ∈ live) (h : Accounted s₀ live (s, ∅))
    (virt length flags : ℕ) :
    Sat (nsVmmAllocMap ⟨r, true⟩ virt length flags) s
      (fun _ s' => Accounted s₀ live (s', ∅)) (fun _ s' => Accounted s₀ live (s', ∅)) := by
  unfold nsVmmAllocMap
  split
  · exact h
  · exact h.allocMapPages h₀ hr _ _ _ _

/-! ### Protecting -/

/-- The loop of `ns_vmm_protect` keeps the accounting. -/
lemma Accounted.protectPages (hr : r ∈ live) (flags pages : ℕ) (h : Accounted s₀ live (s, pend))
    {virt : ℕ} (hlow : virt + pages * nsPageSize ≤ nsVmmUserTop) :
    Sat (protectPages ⟨r, true⟩ flags pages virt) s
      (fun _ s' => Accounted s₀ live (s', pend))
      (fun _ s' => Accounted s₀ live (s', pend)) := by
  induction pages generalizing s virt with
  | zero => exact h
  | succ pages ih =>
    rw [Nat.add_mul] at hlow
    have htop : tableIndex virt 4 ∈ lowerSlots := lower_slot (by unfold nsPageSize at hlow; omega)
    rw [protectPages_succ, sat_bind]
    refine protectOne_spec.mono ?_ ?_
    · rintro u s' ⟨t, hleaf, rfl, -⟩
      exact ih (h.protectPage hr htop hleaf flags) (by omega)
    · rintro e s' rfl
      exact h

/-- `ns_vmm_protect` on at most one page. -/
lemma Accounted.protect (hr : r ∈ live) (h : Accounted s₀ live (s, pend)) (virt flags : ℕ)
    {length : ℕ} (hlen : length ≤ nsPageSize) :
    Sat (nsVmmProtect ⟨r, true⟩ virt length flags) s
      (fun _ s' => Accounted s₀ live (s', pend))
      (fun _ s' => Accounted s₀ live (s', pend)) := by
  unfold nsVmmProtect
  split
  · exact h
  · next finish hrange =>
    obtain ⟨hmod, hcan, hpos, rfl, -⟩ := validatePageRange_some hrange
    simp only [sat_bind, sat_require]
    refine ⟨fun hown => h.protectPages hr flags _ ?_, fun _ => h⟩
    have hlt : virt < kernelHalfBase := by
      by_contra hle
      exact hown ⟨trivial, Nat.le_of_not_lt hle⟩
    have htop := lower_of_canonical hcan hlt
    unfold nsPageSize nsVmmUserTop at *
    omega

/-! ### Destroying a space -/

/-- The accounting is kept by the steps of a teardown. -/
lemma Accounted.tears (h₀ : s₀.pmm.Sound) :
    Tears (ownedDomain live) r (Accounted s₀ live) := by
  refine ⟨fun _ h => h.tables, fun s s' pend j h st =>
    (Accounted.keeps h₀ live r j False).run h (h.tables.shapes_of_reclaim st),
    fun s pend q i t h ha hw hp => (h.leaves r q i t ha hw hp).1,
    fun s pend q i t h ha hq hw hp => ?_⟩
  have hown := (h.leafAt ha hq hw hp).2
  refine (h.release h₀ ha hq hw hp).congr (dropPage_mem t i s) ?_ ⟨?_, ?_⟩ <;>
    simp [dropPage, hown, Vmm.freeMapped, Vmm.freePage, Vmm.store]

/-- The empty root of a space becomes a pending page. -/
lemma Accounted.removeRoot (h₀ : s₀.pmm.Sound) (hr : r ∈ live) (h : Accounted s₀ live (s, pend))
    (hempty : ∀ i ∈ lowerSlots, (s.mem r i).testBit ptePresent = false) :
    Accounted s₀ (live \ {r}) (s, insert r pend) ∧ r ∉ pend := by
  have hin : r ∈ framesOf live s.mem := mem_tables (root_mem_addrs (d := ownedDomain live) hr 4) rfl
  obtain ⟨hmod, -, hlt, -⟩ := h₀.isFree ((h.account r).mpr (.inr (.inl hin)))
  have hlimit := h₀.limit
  obtain ⟨htab, hout⟩ := h.tables.removeRoot (d := ownedDomain live) hr (Set.notMem_empty r) hempty
    (and_pteAddr hmod (by omega))
  obtain ⟨hforest, hframes⟩ := h.forest.dropRoot (A := (ownedDomain (live \ {r})).addrs 4)
    (fun _ _ _ => addrs_closed) (root_mem_addrs (d := ownedDomain live) hr 4)
    (addrs_removeRoot (d := ownedDomain live)) fun p hp hne => walk_of_empty hempty hp hne
  have hmem : ∀ t, t ∈ framesOf (live \ {r}) s.mem ↔ t ∈ framesOf live s.mem ∧ t ≠ r := fun t =>
    Set.ext_iff.mp hframes t
  refine ⟨⟨htab, hforest, fun r' q i t ha => h.leaves r' q i t
    ((addrs_removeRoot (d := ownedDomain live) _).mp ha).1, h.same, fun t => ?_, fun t ht => ?_,
    fun c hc hin' => ?_, ⟨h.kept.config, h.kept.boot, fun hk r' hr' => h.kept.upper hk r' hr'.1⟩⟩,
    hout⟩
  · change _ ↔ s.pmm.IsFree t ∨ t ∈ framesOf (live \ {r}) s.mem ∨ t ∈ insert r pend
    rw [h.account t, hmem t, Set.mem_insert_iff]
    by_cases htr : t = r
    · simp [htr, hin]
    · simp [htr]
  · refine h.taken t ?_
    rcases ht with ht | rfl | ht
    · exact .inl ((hmem t).mp ht).1
    · exact .inl hin
    · exact .inr ht
  · obtain ⟨hin', hne⟩ := (hmem c).mp hin'
    rcases hc with rfl | hc
    · exact hne rfl
    · exact h.apart c hc hin'

/-- A pending page becomes the root of a space. -/
lemma Accounted.addRoot {c : ℕ} (h : Accounted s₀ live (s, insert c pend)) (hc : c ∉ pend)
    (hempty : ∀ i ∈ lowerSlots, (s.mem c i).testBit ptePresent = false)
    (hupper : ¬ s₀.pmm.IsFree s₀.config.kernelRootPhys → ∀ i ∉ lowerSlots,
      s.mem c i = s₀.mem s₀.config.kernelRootPhys i)
    (hp : tablePointer s.config c = true) :
    Accounted s₀ (insert c live) (s, pend) := by
  have hout : c ∉ framesOf live s.mem := h.apart c (Set.mem_insert c pend)
  have htab := h.tables.addRoot (d := ownedDomain live) hc (Set.notMem_empty c) hempty hp
  obtain ⟨hforest, hframes⟩ := h.forest.addRoot (B := (ownedDomain (insert c live)).addrs 4) hout
    (fun _ _ _ => addrs_closed) (root_mem_addrs (d := ownedDomain (insert c live)) (.inl rfl) 4)
    (addrs_insertRoot (d := ownedDomain live))
    fun p hp hne => walk_of_empty (d := ownedDomain (insert c live)) hempty hp hne
  have hmem : ∀ t, t ∈ framesOf (insert c live) s.mem ↔ t = c ∨ t ∈ framesOf live s.mem := fun t =>
    Set.ext_iff.mp hframes t
  have hkept : BootKept s₀ (insert c live) s := by
    refine ⟨h.kept.config, h.kept.boot, fun hk r hr i hi => ?_⟩
    rcases hr with rfl | hr
    · exact hupper hk i hi
    · exact h.kept.upper hk r hr i hi
  refine ⟨htab, hforest, fun r' q i t ha hw hpres => ?_, h.same, fun t => ?_, fun t ht => ?_,
    fun c' hc' hin => ?_, hkept⟩
  · rcases (addrs_insertRoot (d := ownedDomain live) _).mp ha with ha | ⟨hrc, -⟩
    · exact h.leaves r' q i t ha hw hpres
    · -- the new root has no entries
      obtain rfl : r' = c := hrc
      cases q with
      | nil =>
        obtain rfl := Option.some.inj hw
        rw [hempty i ((mem_addrs.mp ha).2.2 i rfl)] at hpres
        cases hpres
      | cons k q =>
        rw [walk_of_empty (d := ownedDomain (insert r' live)) hempty (addrs_closed ha)
          (by simp)] at hw
        cases hw
  · change _ ↔ s.pmm.IsFree t ∨ t ∈ framesOf (insert c live) s.mem ∨ t ∈ pend
    rw [h.account t, hmem t, Set.mem_insert_iff]
    tauto
  · refine h.taken t ?_
    rcases ht with ht | ht
    · rcases (hmem t).mp ht with rfl | ht
      · exact .inr (.inl rfl)
      · exact .inl ht
    · exact .inr (.inr ht)
  · rcases (hmem c').mp hin with rfl | hin
    · exact hc hc'
    · exact h.apart c' (.inr hc') hin

/-- `ns_vmm_create_space` keeps the accounting, with the new root among the live ones. -/
lemma Accounted.create (h₀ : s₀.pmm.Sound) (h : Accounted s₀ live (s, ∅)) :
    Sat nsVmmCreateSpace s
      (fun space s' => Accounted s₀ (insert space.rootPhys live) (s', ∅) ∧ space.rootPhys ∉ live)
      (fun _ s' => Accounted s₀ live (s', ∅)) := by
  have hk := Accounted.keeps h₀ live 0 0 False
  refine (nsVmmCreateSpace_spec hk h).mono ?_ fun _ _ hsteps => hk.run h hsteps
  rintro ⟨c, owns⟩ s' ⟨s1, hsteps, -, hout, hmem, hp, hs'⟩
  rw [hs']
  have h1 : Accounted s₀ live (s1, {c}) := hk.run h hsteps
  obtain ⟨hsetup, hpmm, -, helse, hcopy⟩ := copySlots_frame c upperSlots s1
  have hnot : c ∉ (ownedDomain live).managed s1.mem := fun hin =>
    (h1.tables.pending c rfl).1 (.inl hin)
  have h2 : Accounted s₀ live (copySlots c upperSlots s1, insert c ∅) := by
    rw [insert_empty_eq]
    refine h1.outside hpmm hsetup (fun t ht i => helse t i ?_)
      (h1.kept_page ((h1.account c).mpr (.inr (.inr rfl))) hnot hsetup.config fun t ht i =>
        helse t i fun heq => ht heq.1)
    rintro ⟨rfl, -⟩
    exact hnot ht
  refine ⟨h2.addRoot (Set.notMem_empty c) (fun i hi => ?_) (fun hkernel i hi => ?_)
    (by rw [hsetup.config]; exact hp),
    fun hin => hout (.inl (root_mem_managed (d := ownedDomain live) hin s.mem))⟩
  swap
  · -- the kernel's root was not free, so it is not the new root
    have hroot : s1.config.kernelRootPhys = s₀.config.kernelRootPhys :=
      congrArg VmmConfig.kernelRootPhys h1.kept.config
    have hne : s1.config.kernelRootPhys ≠ c := fun heq =>
      hkernel ((h1.account _).mpr (.inr (.inr (hroot.symm.trans heq))))
    rw [hcopy hne i (mem_upperSlots.mpr (Nat.le_of_not_lt hi)), hroot]
    exact h1.kept.boot _ hkernel i
  have hlow : ¬ (c = c ∧ i ∈ upperSlots) := fun hu => by
    have hge := mem_upperSlots.mp hu.2
    have hlt : i.val < 256 := hi
    omega
  rw [helse c i hlow, hmem, zero_self, Nat.zero_testBit]

/-- `ns_vmm_destroy_space` keeps the accounting, without the root. -/
lemma Accounted.destroy (h₀ : s₀.pmm.Sound) (hr : r ∈ live) (h : Accounted s₀ live (s, ∅))
    (answer : Bool) :
    Accounted s₀ (live \ {r}) ((nsVmmDestroySpace ⟨r, true⟩ answer s).2, ∅) := by
  have hroot : (r, []) ∈ (ownedDomain live).addrs 3 := root_mem_addrs (d := ownedDomain live) hr 3
  have hin : r ∈ framesOf live s.mem := mem_tables (root_mem_addrs (d := ownedDomain live) hr 4) rfl
  obtain ⟨-, hnz, -, -⟩ := h₀.isFree ((h.account r).mpr (.inr (.inl hin)))
  have htorn : Emptied (ownedDomain live) r (Accounted s₀ live) ∅ [] r (fun i => i.val < 256) s
      (destroyTableLevel 4 r 256 s) :=
    destroyTableLevel_spec (Accounted.tears h₀) h rfl hroot
      (fun i hi => mem_addrs.mpr ⟨hr, by simp, by simpa [ownedDomain, lowerSlots] using hi⟩) rfl
  obtain ⟨hpend, hout⟩ := htorn.inv.removeRoot h₀ hr htorn.empty
  have hfree := hpend.free h₀ (Set.mem_insert r ∅)
  rw [Set.insert_sdiff_self_of_notMem hout] at hfree
  have hready := h.tables.ready
  unfold nsVmmDestroySpace
  rw [if_neg (by simp [hnz, show s.initialized = true from hready])]
  dsimp only
  split_ifs
  · exact hfree.congr rfl rfl ⟨rfl, rfl⟩
  · exact hfree.congr rfl rfl ⟨rfl, rfl⟩
  · exact hfree

end

/-- Before any space exists every frame is where it was. -/
lemma Accounted.init {live : Set ℕ} {s : Vmm} (h₀ : s.pmm.Sound)
    (hready : s.initialized = true) (hnone : ∀ r, r ∉ live) : Accounted s live (s, ∅) := by
  have haddrs : ∀ n a, a ∉ (ownedDomain live).addrs n := fun n a ha => hnone _ ha.1
  have hframes : ∀ t, t ∉ framesOf live s.mem := by
    rintro t ⟨a, ha, -⟩
    exact haddrs 4 a ha
  have hmanaged : ∀ t, t ∉ (ownedDomain live).managed s.mem := by
    rintro t ⟨a, ha, -⟩
    exact haddrs 3 a ha
  have huse : ∀ t, t ∉ (ownedDomain live).inUse s.mem := by
    rw [inUse, fixedTables_owned, Set.union_empty]
    exact hmanaged
  refine ⟨⟨⟨⟨fun _ _ _ => addrs_closed, fun a ha => absurd ha (haddrs 3 a)⟩,
    fun t ht => absurd ht (hmanaged t), fun r i hr => absurd hr (hnone r)⟩, h₀,
    fun t ht => absurd ht (huse t), fun t ht => absurd ht (hmanaged t),
    fun c hc => absurd hc (Set.notMem_empty c), hready⟩,
    ⟨fun _ _ _ => addrs_closed, fun a ha => absurd ha (haddrs 4 a)⟩,
    fun r q i t ha => absurd ha (haddrs 4 _), .refl _, fun t => ?_, ?_,
    fun c hc => absurd hc (Set.notMem_empty c),
    ⟨rfl, fun _ _ _ => rfl, fun _ r hr => absurd hr (hnone r)⟩⟩
  · simp [hframes t]
  · rintro t (ht | ht)
    · exact absurd ht (hframes t)
    · exact absurd ht (Set.notMem_empty t)

/-! ### Runs of calls on owned spaces -/

/-- A call on an owned space, which is named by its root. -/
inductive OwnedCall
  | createSpace
  | allocMap (root : ℕ) (virt length flags : UInt64)
  | unmapRange (root : ℕ) (virt length : UInt64)
  | protect (root : ℕ) (virt length flags : UInt64)
  | destroySpace (root : ℕ) (answer : Bool)

/-- The manager and the roots of the live spaces. -/
structure OwnedRun where
  vmm : Vmm
  live : List ℕ

namespace OwnedRun

/-- One call. Calls are made on live spaces only, and `ns_vmm_protect` on one page. -/
def step (r : OwnedRun) : OwnedCall → OwnedRun
  | .createSpace =>
    match nsVmmCreateSpace r.vmm with
    | .ok space vmm => { vmm := vmm, live := space.rootPhys :: r.live }
    | .error _ vmm => { r with vmm := vmm }
  | .allocMap root virt length flags =>
    if root ∈ r.live then
      { r with
        vmm := stateAfter (nsVmmAllocMap ⟨root, true⟩ virt.toNat length.toNat flags.toNat) r.vmm }
    else r
  | .unmapRange root virt length =>
    if root ∈ r.live then
      { r with vmm := stateAfter (nsVmmUnmapRange ⟨root, true⟩ virt.toNat length.toNat true) r.vmm }
    else r
  | .protect root virt length flags =>
    if root ∈ r.live ∧ length.toNat ≤ nsPageSize then
      { r with
        vmm := stateAfter (nsVmmProtect ⟨root, true⟩ virt.toNat length.toNat flags.toNat) r.vmm }
    else r
  | .destroySpace root answer =>
    if root ∈ r.live then
      { vmm := (nsVmmDestroySpace ⟨root, true⟩ answer r.vmm).2, live := r.live.erase root }
    else r

/-- The invariant of a run. -/
structure Ok (s₀ : Vmm) (r : OwnedRun) : Prop where
  accounted : Accounted s₀ {root | root ∈ r.live} (r.vmm, ∅)
  nodup : r.live.Nodup

variable {s₀ : Vmm} {r : OwnedRun}

/-- Every call keeps the invariant, whether it succeeds or not. -/
lemma Ok.step (h₀ : s₀.pmm.Sound) (h : r.Ok s₀) (c : OwnedCall) : (r.step c).Ok s₀ := by
  cases c with
  | createSpace =>
    simp only [OwnedRun.step]
    have hspec := h.accounted.create h₀
    split
    · next space vmm hcall =>
      obtain ⟨hacc, hnew⟩ := hspec.ok hcall
      refine ⟨?_, List.nodup_cons.mpr ⟨hnew, h.nodup⟩⟩
      have hset : {root | root ∈ space.rootPhys :: r.live} =
          insert space.rootPhys {root | root ∈ r.live} := by
        ext root
        simp
      rw [hset]
      exact hacc
    · next e vmm hcall => exact ⟨hspec.error hcall, h.nodup⟩
  | allocMap root virt length flags =>
    simp only [OwnedRun.step]
    split_ifs with hlive
    · exact ⟨(h.accounted.allocMap h₀ hlive _ _ _).stateAfter, h.nodup⟩
    · exact h
  | unmapRange root virt length =>
    simp only [OwnedRun.step]
    split_ifs with hlive
    · exact ⟨(h.accounted.unmapRange h₀ hlive _ _).stateAfter, h.nodup⟩
    · exact h
  | protect root virt length flags =>
    simp only [OwnedRun.step]
    split_ifs with hlive
    · exact ⟨(h.accounted.protect hlive.1 _ _ hlive.2).stateAfter, h.nodup⟩
    · exact h
  | destroySpace root answer =>
    simp only [OwnedRun.step]
    split_ifs with hlive
    · refine ⟨?_, h.nodup.erase root⟩
      have hset : {root' | root' ∈ r.live.erase root} = {root' | root' ∈ r.live} \ {root} := by
        ext root'
        simp [h.nodup.mem_erase_iff, and_comm]
      rw [hset]
      exact h.accounted.destroy h₀ hlive answer
    · exact h

/-- The invariant holds after every run of calls. -/
lemma Ok.run (h₀ : s₀.pmm.Sound) (h : r.Ok s₀) (calls : List OwnedCall) :
    (calls.foldl OwnedRun.step r).Ok s₀ := by
  induction calls generalizing r with
  | nil => exact h
  | cons c calls ih => exact ih (h.step h₀ c)

/-- The invariant holds after every run from an initialised manager. -/
lemma Ok.of_init {config : VmmConfig} {pmm : Pmm} {mem : PhysMem} {mmu : Mmu} {kernel : VmmSpace}
    (hpmm : PmmReachable pmm) (hinit : nsVmmInit config pmm mem mmu = .ok (s₀, kernel))
    (calls : List OwnedCall) :
    (calls.foldl OwnedRun.step { vmm := s₀, live := [] }).Ok s₀ := by
  have h₀ : s₀.pmm.Sound := by
    obtain ⟨rfl, -⟩ := nsVmmInit_ok hinit
    exact hpmm.sound
  have hready : s₀.initialized = true := by
    obtain ⟨rfl, -⟩ := nsVmmInit_ok hinit
    rfl
  exact Ok.run h₀ ⟨Accounted.init h₀ hready (by simp), List.nodup_nil⟩ calls

end OwnedRun

/-! ### What the accounting says -/

/-- `t` is the root of the space at `r`, or a table page of its lower half. -/
def TableOf (s : Vmm) (r t : ℕ) : Prop :=
  ∃ p : List Index, p.length ≤ 3 ∧ (∀ i ∈ p.head?, i.val < 256) ∧ walk (link s.mem) r p = some t

/-- The page at `virt` of the space at `r` is mapped to the frame `t`. -/
def FrameOf (s : Vmm) (r virt t : ℕ) : Prop :=
  virt % nsPageSize = 0 ∧ virt < nsVmmUserTop ∧
    ∃ flags, nsVmmTranslate s ⟨r, true⟩ virt = .ok (t, flags)

section

variable {s₀ : Vmm} {live : Set ℕ} {s : Vmm} {r virt : ℕ}

/-- A page is mapped to the frame at the end of its path. -/
lemma Accounted.frameOf_iff (h : Accounted s₀ live (s, ∅)) (hr : r ∈ live) {f : ℕ} :
    FrameOf s r virt f ↔ virt % nsPageSize = 0 ∧ virt < nsVmmUserTop ∧
      walk (link s.mem) r (pathFrom virt 4) = some f := by
  refine and_congr_right fun hmod => and_congr_right fun hlow => ?_
  have htop := lower_slot hlow
  have ha := leaf_addr hr htop
  have hcan : canonicalAddress virt = true := by simp [canonicalAddress, hlow]
  have htrans := h.tables.translate (d := ownedDomain live) hr htop hcan true
  have hoff : ∀ w, leafAddr virt 1 w = w &&& pteAddr := fun w => by
    simp [leafAddr, hmod]
  rw [pathFrom_eq, walk_concat]
  cases hw : walk (link s.mem) r (pathUp virt) with
  | none =>
    have hnone : look s.mem virt 4 r = none := by
      refine look_of_walk_none (q := pathUp virt) rfl (fun p i t hpre hwp hp => ?_) hw
      refine (h.leaves r p i t ?_ hwp hp).1
      exact addr_of_path (d := ownedDomain live) hr htop
        (hpre.trans (List.prefix_append (pathUp virt) [tableIndex virt 1]))
        (hpre.length_le.trans (by simp))
    rw [htrans, hnone]
    simp
  | some t =>
    have hlook := look_walk (n := 0) (m := 4) (q := pathUp virt) rfl hw
    rw [look_leaf] at hlook
    rw [Option.bind_some]
    by_cases hp : (s.mem t (tableIndex virt 1)).testBit ptePresent = true
    · obtain ⟨hl, -⟩ := h.leafAt ha rfl hw hp
      rw [if_neg (by simp [hp])] at hlook
      rw [htrans, hlook, hl]
      simp [hoff]
    · rw [Bool.not_eq_true] at hp
      rw [if_pos hp] at hlook
      rw [htrans, hlook, link, linkOf_of_absent hp]
      simp

/-- A frame in use is a table or the frame of a page. -/
lemma Accounted.mem_frames_iff (h : Accounted s₀ live (s, ∅)) {f : ℕ} :
    f ∈ framesOf live s.mem ↔ (∃ r ∈ live, TableOf s r f) ∨ ∃ r ∈ live, ∃ v, FrameOf s r v f := by
  constructor
  · rintro ⟨⟨r, p⟩, ⟨hr, hlen, hhead⟩, hw⟩
    dsimp only at hr hlen hhead hw
    rcases Nat.lt_or_ge p.length 4 with hlt | hge
    · exact .inl ⟨r, hr, p, by omega, hhead, hw⟩
    · obtain ⟨v, hmod, hlow, rfl⟩ := exists_page (by omega) hhead
      exact .inr ⟨r, hr, v, (h.frameOf_iff hr).mpr ⟨hmod, hlow, hw⟩⟩
  · rintro (⟨r, hr, p, hlen, hhead, hw⟩ | ⟨r, hr, v, hframe⟩)
    · exact mem_tables (A := (ownedDomain live).addrs 4) ⟨hr, hlen.trans (by decide), hhead⟩ hw
    · obtain ⟨-, hlow, hw⟩ := (h.frameOf_iff hr).mp hframe
      exact mem_tables (leaf_addr hr (lower_slot hlow)) hw

end

/-- Starting from an initialised manager, after every sequence of calls on owned spaces, a frame
that the allocator has handed out and not got back is a table page of a live space or the frame of
a mapped page; it is a table of one space only, or the frame of one page only, and not both; and
once no space is left, the free frames are those of the start. -/
theorem owned_spaces_conserve_frames {config : VmmConfig} {pmm : Pmm} {mem : PhysMem} {mmu : Mmu}
    {s₀ : Vmm} {kernel : VmmSpace} (hpmm : PmmReachable pmm)
    (hinit : nsVmmInit config pmm mem mmu = .ok (s₀, kernel)) (calls : List OwnedCall) :
    let run := calls.foldl OwnedRun.step { vmm := s₀, live := [] }
    (∀ t, pmm.IsFree t ∧ ¬ run.vmm.pmm.IsFree t ↔
      (∃ r ∈ run.live, TableOf run.vmm r t) ∨ ∃ r ∈ run.live, ∃ v, FrameOf run.vmm r v t) ∧
    (∀ t, ∀ r ∈ run.live, ∀ r' ∈ run.live, TableOf run.vmm r t → TableOf run.vmm r' t → r = r') ∧
    (∀ t v v', ∀ r ∈ run.live, ∀ r' ∈ run.live, FrameOf run.vmm r v t → FrameOf run.vmm r' v' t →
      r = r' ∧ v = v') ∧
    (∀ t v, ∀ r ∈ run.live, ∀ r' ∈ run.live, TableOf run.vmm r t → ¬ FrameOf run.vmm r' v t) ∧
    (run.live = [] → ∀ t, run.vmm.pmm.IsFree t ↔ pmm.IsFree t) := by
  intro run
  have hrun : run.Ok s₀ := .of_init hpmm hinit calls
  obtain ⟨rfl, -⟩ := nsVmmInit_ok hinit
  have hacc := hrun.accounted
  have haccount : ∀ t, pmm.IsFree t ↔
      run.vmm.pmm.IsFree t ∨ t ∈ framesOf {r | r ∈ run.live} run.vmm.mem := fun t => by
    simpa using hacc.account t
  have htaken : ∀ t ∈ framesOf {r | r ∈ run.live} run.vmm.mem, ¬ run.vmm.pmm.IsFree t :=
    fun t ht => hacc.taken t (.inl ht)
  -- two uses of one frame are one node of the forest
  have hinj : ∀ {r r' : ℕ} {p p' : List Index} {t : ℕ}, r ∈ run.live → r' ∈ run.live →
      p.length ≤ 4 → (∀ i ∈ p.head?, i.val < 256) → p'.length ≤ 4 → (∀ i ∈ p'.head?, i.val < 256) →
      walk (link run.vmm.mem) r p = some t → walk (link run.vmm.mem) r' p' = some t →
      r = r' ∧ p = p' := fun hr hr' hp hhead hp' hhead' hw hw' =>
    Prod.mk.inj (hacc.forest.inj (_, _) ⟨hr, hp, hhead⟩ (_, _) ⟨hr', hp', hhead'⟩ _ hw hw')
  have hpage : ∀ {r v t : ℕ}, r ∈ run.live → FrameOf run.vmm r v t →
      v % 4096 = 0 ∧ v < 2 ^ 48 ∧ (∀ i ∈ (pathFrom v 4).head?, i.val < 256) ∧
        walk (link run.vmm.mem) r (pathFrom v 4) = some t := fun {r v t} hr hf => by
    obtain ⟨hmod, hlow, hw⟩ := (hacc.frameOf_iff hr).mp hf
    refine ⟨hmod, by unfold nsVmmUserTop at hlow; omega, fun i hi => ?_, hw⟩
    obtain rfl := Option.some.inj hi
    exact lower_slot hlow
  refine ⟨fun t => ?_, ?_, ?_, ?_, fun hnil t => ?_⟩
  · refine Iff.trans ?_ hacc.mem_frames_iff
    rw [haccount t]
    constructor
    · rintro ⟨hfree | hin, hnot⟩
      · exact absurd hfree hnot
      · exact hin
    · exact fun hin => ⟨.inr hin, htaken t hin⟩
  · rintro t r hr r' hr' ⟨p, hp, hhead, hw⟩ ⟨p', hp', hhead', hw'⟩
    exact (hinj hr hr' (by omega) hhead (by omega) hhead' hw hw').1
  · intro t v v' r hr r' hr' hf hf'
    obtain ⟨hmod, hlow, hhead, hw⟩ := hpage hr hf
    obtain ⟨hmod', hlow', hhead', hw'⟩ := hpage hr' hf'
    obtain ⟨hrr, hpath⟩ := hinj hr hr' (by simp) hhead (by simp) hhead' hw hw'
    exact ⟨hrr, pathFrom_inj hmod hmod' hlow hlow' hpath⟩
  · rintro t v r hr r' hr' ⟨p, hp, hhead, hw⟩ hf
    obtain ⟨-, -, hhead', hw'⟩ := hpage hr' hf
    have hlen := congrArg List.length (hinj hr hr' (by omega) hhead (by simp) hhead' hw hw').2
    rw [length_pathFrom] at hlen
    omega
  · rw [haccount t]
    refine ⟨.inl, fun h => h.resolve_right ?_⟩
    rintro ⟨a, ⟨hr, -⟩, -⟩
    have hmem : a.1 ∈ run.live := hr
    rw [hnil] at hmem
    cases hmem

/-- A manager for the machine of `smallBoot`, with a kernel root that maps nothing. -/
def smallConfig : VmmConfig :=
  { directMapBase := 0xffff800000000000, directMapSize := 0x102000, kernelRootPhys := 0x7000,
    physToVirt := none, invalidatePage := true, activateRoot := true }

/-- The processor of that machine, with nothing cached. -/
def smallMmu : Mmu := { root := 0x7000, cached := fun _ _ => false }

/-- A manager for the machine of `largerBoot`. -/
def largerConfig : VmmConfig := { smallConfig with directMapSize := 0x106000 }

/-- A space is created, and its first page mapped for the user, writable. -/
def oneUserPage : List OwnedCall := [.createSpace, .allocMap 0x101000 0 0x1000 0b11]

/-- `s` is the state of that machine after these calls, from the allocator `pmm` on. -/
def OneUserPage (pmm : Pmm) (s₀ s : Vmm) : Prop :=
  nsPmmInit largerBoot largerMap 0x9000 4096 = .ok pmm ∧
    (∃ kernel, nsVmmInit largerConfig pmm (fun _ _ => 0) smallMmu = .ok (s₀, kernel)) ∧
    { vmm := s, live := [0x101000] } = oneUserPage.foldl OwnedRun.step { vmm := s₀, live := [] }

/-- `OneUserPage`, evaluated. -/
def oneUserPageState (p : Pmm → Vmm → Bool) : Bool :=
  (nsPmmInit largerBoot largerMap 0x9000 4096).toOption.any fun pmm =>
    (nsVmmInit largerConfig pmm (fun _ _ => 0) smallMmu).toOption.any fun (s₀, _) =>
      let run := oneUserPage.foldl OwnedRun.step { vmm := s₀, live := [] }
      decide (run.live = [0x101000]) && p pmm run.vmm

/-- A test that succeeds on the page of `OneUserPage`. -/
lemma exists_oneUserPage {p : Pmm → Vmm → Bool} (h : oneUserPageState p = true) :
    ∃ pmm s₀ s, OneUserPage pmm s₀ s ∧ p pmm s = true := by
  obtain ⟨pmm, hpmm, h⟩ := exists_ok_of_any h
  obtain ⟨⟨s₀, kernel⟩, hinit, h⟩ := exists_ok_of_any h
  simp only [Bool.and_eq_true, decide_eq_true_eq] at h
  exact ⟨pmm, s₀, _, ⟨hpmm, ⟨kernel, hinit⟩, by rw [← h.1]⟩, h.2⟩

/-- A mapped page: its frame was free, is held now and is no table. -/
theorem owned_spaces_conserve_frames_oneUserPage :
    ∃ pmm s₀ s, OneUserPage pmm s₀ s ∧ FrameOf s 0x101000 0 0x102000 ∧
      pmm.IsFree 0x102000 ∧ ¬ s.pmm.IsFree 0x102000 ∧ ¬ TableOf s 0x101000 0x102000 := by
  obtain ⟨pmm, s₀, s, hpage, h⟩ := exists_oneUserPage
    (p := fun _ s => decide (nsVmmTranslate s ⟨0x101000, true⟩ 0 = .ok (0x102000, 0b100011)))
    (by decide +kernel)
  obtain ⟨hpmm, ⟨kernel, hinit⟩, hrun⟩ := id hpage
  have hframe : FrameOf s 0x101000 0 0x102000 := ⟨rfl, by decide, _, of_decide_eq_true h⟩
  have hthm := owned_spaces_conserve_frames ⟨_, _, _, _, pmm, [], hpmm, rfl⟩ hinit oneUserPage
  rw [← hrun] at hthm
  obtain ⟨hhanded, -, -, hapart, -⟩ := hthm
  have hmem : 0x101000 ∈ [0x101000] := List.mem_singleton.mpr rfl
  obtain ⟨hfree, hgone⟩ := (hhanded 0x102000).mpr (.inr ⟨0x101000, hmem, 0, hframe⟩)
  exact ⟨pmm, s₀, s, hpage, hframe, hfree, hgone, fun htable =>
    hapart 0x102000 0 0x101000 hmem 0x101000 hmem htable hframe⟩

end Northstar
