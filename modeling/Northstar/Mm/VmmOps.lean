import Northstar.Mm.VmmWalk

/-! # Operations on one page

What `ns_vmm_map`, `ns_vmm_unmap` and one round of `ns_vmm_protect` do to one page, with the steps
on the tables above it left to `Shapes`. As in `VmmWalk` the specifications are stated for any
invariant that the steps keep. -/

namespace Northstar

open Domain

/-- The arguments that `map_unlocked` accepts. -/
structure MapArgs (s : Vmm) (space : VmmSpace) (virt phys flags : ℕ) : Prop where
  canonical : canonicalAddress virt = true
  aligned : virt % nsPageSize = 0
  frame : phys % nsPageSize = 0
  limit : phys < s.pmm.managedLimit
  lower : space.ownsRoot = true → virt < kernelHalfBase
  user : flags.testBit pageUser = true →
    virt < nsVmmUserTop ∧ nsPmmIsPermanentlyReserved s.pmm phys = false

/-- The page of `virt` has been mapped: the way to it was created, and its slot, which was empty,
was filled. -/
structure Mapped (d : Domain) (r virt phys flags : ℕ) (keep : Prop) (s : Vmm) (pend : Set ℕ)
    (s' : Vmm) (s₁ : Vmm) (t : ℕ) : Prop where
  shapes : Shapes d r (tableIndex virt 4) keep (s, pend) (s₁, pend)
  walk : walk (link s₁.mem) r (pathUp virt) = some t
  absent : (s₁.mem t (tableIndex virt 1)).testBit ptePresent = false
  user : flags.testBit pageUser = true → UserAbove s₁.mem r (pathUp virt)
  result : s' = (s₁.store t (tableIndex virt 1) (entryFromFlags phys flags)).invalidate r virt

/-- The slot of the page of `virt`, and that it is present. -/
structure LeafAt (mem : PhysMem) (r virt t : ℕ) : Prop where
  walk : walk (link mem) r (pathUp virt) = some t
  present : (mem t (tableIndex virt 1)).testBit ptePresent = true

/-- What `unmap_unlocked` does before it reclaims tables. -/
def clearPage (r virt : ℕ) (releaseOwned : Bool) (t : ℕ) (s : Vmm) : Vmm :=
  let old := s.mem t (tableIndex virt 1)
  let s := (s.store t (tableIndex virt 1) 0).invalidate r virt
  if releaseOwned = true ∧ old.testBit pteOwned = true then s.freeMapped (old &&& pteAddr) else s

/-- What one round of `ns_vmm_protect` does. -/
def protectPage (r virt flags t : ℕ) (s : Vmm) : Vmm :=
  (s.store t (tableIndex virt 1)
    (protectedEntry (s.mem t (tableIndex virt 1)) flags)).invalidate r virt

section

variable (s : Vmm) (r virt : ℕ)

/-- Invalidating a page does not change memory. -/
@[simp] lemma Vmm.invalidate_mem : (s.invalidate r virt).mem = s.mem := by
  unfold Vmm.invalidate
  split_ifs <;> rfl

/-- Invalidating a page does not change the frame allocator. -/
@[simp] lemma Vmm.invalidate_pmm : (s.invalidate r virt).pmm = s.pmm := by
  unfold Vmm.invalidate
  split_ifs <;> rfl

@[simp] lemma Vmm.invalidate_config : (s.invalidate r virt).config = s.config := by
  unfold Vmm.invalidate
  split_ifs <;> rfl

@[simp] lemma Vmm.invalidate_initialized : (s.invalidate r virt).initialized = s.initialized := by
  unfold Vmm.invalidate
  split_ifs <;> rfl

@[simp] lemma Vmm.invalidate_activeRootPhys :
    (s.invalidate r virt).activeRootPhys = s.activeRootPhys := by
  unfold Vmm.invalidate
  split_ifs <;> rfl

end

/-- Clearing a page stores to its slot. -/
@[simp] lemma clearPage_mem (r virt : ℕ) (releaseOwned : Bool) (t : ℕ) (s : Vmm) :
    (clearPage r virt releaseOwned t s).mem = s.mem.set t (tableIndex virt 1) 0 := by
  unfold clearPage
  dsimp only
  split_ifs <;> simp [Vmm.freeMapped]

/-- Protecting a page stores to its slot. -/
@[simp] lemma protectPage_mem (r virt flags t : ℕ) (s : Vmm) :
    (protectPage r virt flags t s).mem = s.mem.set t (tableIndex virt 1)
      (protectedEntry (s.mem t (tableIndex virt 1)) flags) := by
  simp [protectPage]

section

variable {d : Domain} {r : ℕ} {virt : ℕ} {keep : Prop} {Inv : Vmm × Set ℕ → Prop}

/-! ### Mapping a page -/

variable {space : VmmSpace} {flags : ℕ} {s : Vmm}

section

variable (hk : Keeps d r (tableIndex virt 4) keep Inv) (hr : r ∈ d.roots)
    (hspace : space.rootPhys = r) {phys : ℕ} {pend : Set ℕ}
    (htop : MapArgs s space virt phys flags → tableIndex virt 4 ∈ d.slots r)
    (hinv : Inv (s, pend))
    (hkeep : keep → (s.mem r (tableIndex virt 4)).testBit ptePresent = true ∧
      flags.testBit pageUser = false)

include hk hr hspace htop hinv hkeep

/-- `map_unlocked` maps the page, or it leaves at most new tables. -/
lemma mapUnlocked_spec :
    Sat (mapUnlocked space virt phys flags) s
      (fun _ s' => MapArgs s space virt phys flags ∧
        ∃ s₁ t, Mapped d r virt phys flags keep s pend s' s₁ t)
      (fun _ s' => s' = s ∨ MapArgs s space virt phys flags ∧
        Shapes d r (tableIndex virt 4) keep (s, pend) (s', pend)) := by
  simp only [mapUnlocked, sat_bind, sat_get, sat_require, sat_modify]
  refine ⟨fun h1 => ⟨fun h2 => ⟨fun h3 => ?_, fun _ => .inl trivial⟩, fun _ => .inl trivial⟩,
    fun _ => .inl trivial⟩
  have hargs : MapArgs s space virt phys flags := by
    refine ⟨h1.1, h1.2.1, h1.2.2.1, h1.2.2.2, fun hown => ?_, fun hu => ?_⟩
    · by_contra hle
      exact h2 ⟨hown, Nat.le_of_not_lt hle⟩
    · have hnot := not_and.mp h3 hu
      rw [not_or, Bool.not_eq_true] at hnot
      exact ⟨Nat.lt_of_not_le hnot.1, hnot.2⟩
  refine (walkCreateLeaf_spec hk hr (htop hargs) hspace hinv hkeep).mono (fun leaf s₁ h => ?_)
    fun e s₁ h => .inr ⟨hargs, h⟩
  obtain ⟨hsteps, hi, hw, huser⟩ := h
  obtain ⟨t, i⟩ := leaf
  obtain rfl : i = tableIndex virt 1 := hi
  refine ⟨fun habs => ⟨hargs, s₁, t, hsteps, hw, habs, huser, by rw [hspace]⟩,
    fun _ => .inr ⟨hargs, hsteps⟩⟩

/-- `ns_vmm_map` maps the page, or it leaves at most new tables. -/
lemma nsVmmMap_spec :
    Sat (nsVmmMap space virt phys flags) s
      (fun _ s' => MapArgs s space virt phys flags ∧
        ∃ s₁ t, Mapped d r virt phys flags keep s pend s' s₁ t)
      (fun _ s' => s' = s ∨ MapArgs s space virt phys flags ∧
        Shapes d r (tableIndex virt 4) keep (s, pend) (s', pend)) := by
  simp only [nsVmmMap, sat_bind, sat_get, sat_require]
  exact ⟨fun _ => mapUnlocked_spec hk hr hspace htop hinv hkeep, fun _ => .inl trivial⟩

end

/-! ### Unmapping a page -/

/-- The arguments that `ns_vmm_unmap` accepts. -/
structure UnmapArgs (space : VmmSpace) (virt : ℕ) : Prop where
  aligned : virt % nsPageSize = 0
  canonical : canonicalAddress virt = true
  lower : space.ownsRoot = true → virt < kernelHalfBase

lemma walkLeaf_ok {slots : List (ℕ × Index)} (h : walkLeaf s space virt = .ok slots) :
    Passed s.mem space.rootPhys (pathFrom virt 4) slots ∧
      ∃ t rest, slots = (t, tableIndex virt 1) :: rest ∧ LeafAt s.mem space.rootPhys virt t := by
  unfold walkLeaf at h
  split_ifs at h
  obtain ⟨hpassed, t, rest, hslots, hw, hp⟩ := walkLeafFrom_ok (q := []) h rfl rfl rfl
  exact ⟨hpassed, t, rest, hslots, hw, hp⟩

/-- `ns_vmm_unmap` clears the page and reclaims empty tables, or it changes nothing. -/
lemma nsVmmUnmap_spec (hr : r ∈ d.roots) (hspace : space.rootPhys = r)
    {releaseOwned : Bool} {pend' : Set ℕ}
    (htop : UnmapArgs space virt → tableIndex virt 4 ∈ d.slots r) (hlayout : TableLayout d s.mem)
    (hclear : UnmapArgs space virt → ∀ t, LeafAt s.mem r virt t →
      VmmTables d (clearPage r virt releaseOwned t s, pend')) :
    Sat (nsVmmUnmap space virt releaseOwned) s
      (fun _ s' => UnmapArgs space virt ∧ ∃ t, LeafAt s.mem r virt t ∧
        Reclaims d r (tableIndex virt 4) (clearPage r virt releaseOwned t s) s')
      (fun _ s' => s' = s) := by
  subst hspace
  simp only [nsVmmUnmap, unmapUnlocked, sat_bind, sat_get, sat_require, sat_liftExcept, sat_modify]
  refine ⟨fun hvalid => ⟨fun hown => ⟨fun slots hok => ?_, fun _ _ => trivial⟩, fun _ => trivial⟩,
    fun _ => trivial⟩
  have hargs : UnmapArgs space virt := by
    refine ⟨hvalid.2.1, hvalid.2.2, fun howns => ?_⟩
    by_contra hle
    exact hown ⟨howns, Nat.le_of_not_lt hle⟩
  obtain ⟨hpassed, t, rest, rfl, hleaf⟩ := walkLeaf_ok hok
  refine ⟨hargs, t, hleaf, ?_⟩
  have ha : (space.rootPhys, pathUp virt ++ [tableIndex virt 1]) ∈ d.addrs 4 :=
    addr_of_path hr (htop hargs) (List.prefix_refl (pathFrom virt 4)) (by simp)
  -- the slots passed are the same once the leaf is cleared
  have hsame : SameAbove s.mem (s.mem.set t (tableIndex virt 1) 0) space.rootPhys (pathUp virt) :=
    .set hlayout ha hleaf.walk 0
  have hpassed' : Passed (clearPage space.rootPhys virt releaseOwned t s).mem space.rootPhys
      (pathFrom virt 4) ((t, tableIndex virt 1) :: rest) := by
    obtain ⟨q', hq', hw, hrest⟩ := hpassed
    obtain ⟨rfl, -⟩ := List.append_inj' ((pathFrom_eq virt).symm.trans hq') rfl
    rw [clearPage_mem]
    exact ⟨_, rfl, hsame.walk_eq.trans hw, hrest.congr hsame⟩
  exact reclaimEmpty_spec hr (htop hargs) (hclear hargs t hleaf) (List.prefix_refl _) hpassed'

/-! ### Protecting a page -/

/-- One round of `ns_vmm_protect`: the permission rule, and the store. -/
def protectOne (space : VmmSpace) (virt flags : ℕ) : VmM Unit := do
  let s ← get
  match ← liftExcept (walkLeaf s space virt) with
  | [] => throw .ecorrupt
  | (table, i) :: _ =>
    let old := s.mem table i
    require (¬ (flags.testBit pageUser = true ∧ (old.testBit pteUser = false ∨
      nsPmmIsPermanentlyReserved s.pmm (old &&& pteAddr) = true))) .eperm
    modify fun s => (s.store table i (protectedEntry old flags)).invalidate space.rootPhys virt

/-- The loop of `ns_vmm_protect` is made of rounds. -/
lemma protectPages_succ (space : VmmSpace) (flags pages address : ℕ) :
    protectPages space flags (pages + 1) address =
      (do protectOne space address flags
          protectPages space flags pages (address + nsPageSize)) := by
  unfold protectOne
  simp only [protectPages, bind_assoc]
  congr 1
  funext s
  congr 1
  funext slots
  cases slots with
  | nil => rfl
  | cons slot rest => simp only [bind_assoc]

/-- One round protects the page, or it changes nothing. -/
lemma protectOne_spec :
    Sat (protectOne space virt flags) s
      (fun _ s' => ∃ t, LeafAt s.mem space.rootPhys virt t ∧
        s' = protectPage space.rootPhys virt flags t s ∧
        (flags.testBit pageUser = true →
          (s.mem t (tableIndex virt 1)).testBit pteUser = true))
      (fun _ s' => s' = s) := by
  simp only [protectOne, sat_bind, sat_get, sat_liftExcept]
  refine ⟨fun slots hok => ?_, fun _ _ => trivial⟩
  obtain ⟨-, t, rest, rfl, hleaf⟩ := walkLeaf_ok hok
  simp only [sat_bind, sat_require, sat_modify]
  refine ⟨fun hperm => ⟨t, hleaf, rfl, fun hu => ?_⟩, fun _ => trivial⟩
  by_contra hnot
  exact hperm ⟨hu, .inl (by simpa using hnot)⟩

/-! ### The start -/

/-- The state that `ns_vmm_init` leaves. -/
lemma nsVmmInit_ok {config : VmmConfig} {pmm : Pmm} {mem : PhysMem} {mmu : Mmu}
    (h : nsVmmInit config pmm mem mmu = .ok (s, space)) :
    s = { config := config, pmm := pmm, mem := mem, activeRootPhys := config.kernelRootPhys,
          initialized := true, mmu := mmu, released := [] } ∧
      space = { rootPhys := config.kernelRootPhys, ownsRoot := false } ∧
      tablePointer config config.kernelRootPhys = true ∧ config.kernelRootPhys ≠ 0 := by
  unfold nsVmmInit at h
  split_ifs at h with hbad hptr
  obtain ⟨rfl, rfl⟩ := Prod.mk.inj (Except.ok.inj h)
  exact ⟨rfl, rfl, by simpa using hptr, fun hz => hbad (.inr (.inl hz))⟩

/-! ### Creating a space -/

/-- The loop of `ns_vmm_create_space` over the slots `L` of the new root. -/
def copySlots (root : ℕ) (L : List Index) (s : Vmm) : Vmm :=
  L.foldl (fun s i => s.store root i (s.mem s.config.kernelRootPhys i)) s

/-- What the loop leaves alone, and what it copies. -/
structure CopyFrame (root : ℕ) (L : List Index) (s s' : Vmm) : Prop where
  setup : s.SameSetup s'
  pmm : s'.pmm = s.pmm
  active : s'.activeRootPhys = s.activeRootPhys
  elsewhere : ∀ t i, ¬ (t = root ∧ i ∈ L) → s'.mem t i = s.mem t i
  copied : s.config.kernelRootPhys ≠ root → ∀ i ∈ L,
    s'.mem root i = s.mem s.config.kernelRootPhys i

/-- The loop of `ns_vmm_create_space` copies the slots. -/
lemma copySlots_frame (root : ℕ) (L : List Index) (s : Vmm) :
    CopyFrame root L s (copySlots root L s) := by
  induction L generalizing s with
  | nil => exact ⟨⟨rfl, rfl⟩, rfl, rfl, fun _ _ _ => rfl, fun _ _ hi => nomatch hi⟩
  | cons i L ih =>
    obtain ⟨hsetup, hpmm, hactive, helse, hcopy⟩ :=
      ih (s.store root i (s.mem s.config.kernelRootPhys i))
    refine ⟨⟨hsetup.config, hsetup.initialized⟩, hpmm, hactive, fun t k hk => ?_,
      fun hne k hk => ?_⟩
    · have hnot : ¬ (t = root ∧ k = i) ∧ ¬ (t = root ∧ k ∈ L) := by
        simp only [List.mem_cons] at hk
        tauto
      exact (helse t k hnot.2).trans (set_of_ne _ _ hnot.1)
    · by_cases hin : k ∈ L
      · exact (hcopy hne k hin).trans (set_of_ne _ _ fun h => hne h.1)
      · obtain rfl := (List.mem_cons.mp hk).resolve_right hin
        exact (helse root k fun h => hin h.2).trans (set_self _ _ _ _)

lemma mem_upperSlots {i : Index} : i ∈ upperSlots ↔ 256 ≤ i.val := by
  simp [upperSlots]

/-- `ns_vmm_create_space` makes a cleared page the root and copies the upper half, or it changes
nothing. -/
lemma nsVmmCreateSpace_spec {j : Index} (hk : Keeps d r j keep Inv) (hinv : Inv (s, ∅)) :
    Sat nsVmmCreateSpace s
      (fun space s' => ∃ s₁, Shapes d r j keep (s, ∅) (s₁, {space.rootPhys}) ∧
        space.ownsRoot = true ∧ space.rootPhys ∉ d.inUse s.mem ∧
        s₁.mem = s.mem.zero space.rootPhys ∧ tablePointer s₁.config space.rootPhys = true ∧
        s' = copySlots space.rootPhys upperSlots s₁)
      (fun _ s' => Shapes d r j keep (s, ∅) (s', ∅)) := by
  simp only [nsVmmCreateSpace, sat_bind, sat_get, sat_require]
  refine ⟨fun _ => (allocateTable_spec hk hinv).mono ?_ fun _ _ h => h.1, fun _ => .refl⟩
  rintro c s₁ ⟨hsteps, -, hout, hmem, hp⟩
  rw [insert_empty_eq] at hsteps
  simp only [sat_ite, sat_bind, sat_set, sat_pure, sat_throw]
  refine ⟨fun _ => ⟨s₁, hsteps, trivial, hout, hmem, hp, rfl⟩, fun _ => hsteps.tail ?_⟩
  rw [← insert_empty_eq]
  exact .giveBack_insert (Set.notMem_empty c)

end

end Northstar
