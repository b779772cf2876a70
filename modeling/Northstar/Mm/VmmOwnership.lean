import Northstar.Mm.VmmOps

/-! # Who owns which frame

Owned spaces take every frame they use from the frame allocator: roots, table pages, and the frames
behind mapped pages. `Accounted` accounts for them: a frame that was free when the manager was
initialised is now free, or pending, or a table, or mapped, and only one of these. Tables and mapped
frames are found at addresses of at most four slots, so that one forest over these addresses says
that no frame is used twice.

The accounting is kept by the steps on tables and by the operations on one page, and with it by
the loops over ranges and by the recursive teardown of a space. -/

namespace Northstar

open Domain Set

/-- The slots of the lower half. -/
def lowerSlots : Set Index := {i | i.val < 256}

/-- The domain of the owned spaces: the lower halves of their roots. -/
def ownedDomain (live : Set ℕ) : Domain :=
  { roots := live, slots := fun _ => lowerSlots, fixed := ∅ }

/-- The frames in use by the owned spaces: tables and mapped frames. -/
def framesOf (live : Set ℕ) (mem : PhysMem) : Set ℕ :=
  tables ((ownedDomain live).addrs 4) (link mem)

/-- No entry of an owned space is huge, and every page is marked as owned. -/
def Leaves (live : Set ℕ) (mem : PhysMem) : Prop :=
  ∀ r q i t, (r, q ++ [i]) ∈ (ownedDomain live).addrs 4 → walk (link mem) r q = some t →
    (mem t i).testBit ptePresent = true →
    (mem t i).testBit pteHuge = false ∧ (q.length = 3 → (mem t i).testBit pteOwned = true)

/-- What was there at the start, in `s₀`, is still there: the frames that were not free hold what
they held, and the upper halves of the roots are those of the kernel's root. -/
structure BootKept (s₀ : Vmm) (live : Set ℕ) (s : Vmm) : Prop where
  config : s.config = s₀.config
  boot : ∀ t, ¬ s₀.pmm.IsFree t → ∀ i, s.mem t i = s₀.mem t i
  upper : ¬ s₀.pmm.IsFree s₀.config.kernelRootPhys → ∀ r ∈ live, ∀ i ∉ lowerSlots,
    s.mem r i = s₀.mem s₀.config.kernelRootPhys i

/-- The accounting for the frames that were free at the start, in `s₀`. -/
structure Accounted (s₀ : Vmm) (live : Set ℕ) (x : Vmm × Set ℕ) : Prop where
  tables : VmmTables (ownedDomain live) x
  forest : Forest ((ownedDomain live).addrs 4) (link x.1.mem)
  leaves : Leaves live x.1.mem
  same : s₀.pmm.SameFrames x.1.pmm
  account : ∀ t, s₀.pmm.IsFree t ↔ x.1.pmm.IsFree t ∨ t ∈ framesOf live x.1.mem ∨ t ∈ x.2
  taken : ∀ t, t ∈ framesOf live x.1.mem ∨ t ∈ x.2 → ¬ x.1.pmm.IsFree t
  apart : ∀ c ∈ x.2, c ∉ framesOf live x.1.mem
  kept : BootKept s₀ live x.1

section

variable {s₀ : Vmm} {live : Set ℕ} {s s' : Vmm} {pend pend' : Set ℕ} {mem : PhysMem}

/-- Managed tables are frames in use. -/
lemma managed_subset_frames : (ownedDomain live).managed mem ⊆ framesOf live mem := by
  rintro t ⟨a, ha, hw⟩
  exact ⟨a, addrs_deeper ha, hw⟩

/-- Owned spaces have no fixed tables. -/
lemma fixedTables_owned : (ownedDomain live).fixedTables mem = ∅ := by
  refine eq_empty_of_forall_notMem ?_
  rintro t ⟨a, ⟨-, hfixed, -⟩, -⟩
  exact hfixed

/-! ### Changes of memory -/

/-- A change that is not to the boot frames and not to the upper half of a root. -/
lemma BootKept.congr (h : BootKept s₀ live s) (hconfig : s'.config = s.config)
    (hmem : ∀ t i, ¬ s₀.pmm.IsFree t ∨ t ∈ live ∧ i ∉ lowerSlots → s'.mem t i = s.mem t i) :
    BootKept s₀ live s' := by
  refine ⟨hconfig.trans h.config, fun t ht i => ?_, fun hk r hr i hi => ?_⟩
  · rw [hmem t i (.inl ht), h.boot t ht i]
  · rw [hmem r i (.inr ⟨hr, hi⟩), h.upper hk r hr i hi]

/-- A store to a managed slot. -/
lemma Accounted.kept_store (h : Accounted s₀ live (s, pend)) {r t : ℕ} {q : List Index}
    {i : Index} (ha : (r, q ++ [i]) ∈ (ownedDomain live).addrs 4)
    (hw : walk (link s.mem) r q = some t) (w : ℕ) : BootKept s₀ live (s.store t i w) := by
  refine h.kept.congr rfl fun t' i' hout => set_of_ne s.mem w ?_
  rintro ⟨rfl, rfl⟩
  rcases hout with hfree | ⟨hlive, hi⟩
  · exact hfree ((h.account t').mpr
      (.inr (.inl (managed_subset_frames (mem_tables (addrs_of_slot ha) hw)))))
  · -- a root is found at its own address only, so the slot is one of the lower half
    obtain ⟨rfl, rfl⟩ := h.tables.layout.unique (addrs_of_slot ha) hw
      (.inl (root_mem_addrs (d := ownedDomain live) hlive 3)) rfl
    exact hi ((mem_addrs.mp ha).2.2 i' rfl)

/-- A change to one page that was free at the start and holds no table. -/
lemma Accounted.kept_page (h : Accounted s₀ live (s, pend)) {c : ℕ} (hfree : s₀.pmm.IsFree c)
    (hc : c ∉ (ownedDomain live).managed s.mem) (hconfig : s'.config = s.config)
    (hsame : ∀ t ≠ c, ∀ i, s'.mem t i = s.mem t i) : BootKept s₀ live s' := by
  refine h.kept.congr hconfig fun t i hout => hsame t ?_ i
  rintro rfl
  rcases hout with hnot | ⟨hlive, -⟩
  · exact hnot hfree
  · exact hc (root_mem_managed (d := ownedDomain live) hlive s.mem)

/-- A change of memory that moves frames between the pending ones and those in use. -/
lemma Accounted.ofMem (h : Accounted s₀ live (s, pend))
    (htab : VmmTables (ownedDomain live) (s', pend')) (hpmm : s'.pmm = s.pmm) {m : Set ℕ}
    (hforest : Forest ((ownedDomain live).addrs 4) (link s'.mem) ∧ framesOf live s'.mem = m)
    (hleaves : Leaves live s'.mem)
    (hset : ∀ t, t ∈ m ∨ t ∈ pend' ↔ t ∈ framesOf live s.mem ∨ t ∈ pend)
    (hapart : ∀ c ∈ pend', c ∉ m) (hkept : BootKept s₀ live s') :
    Accounted s₀ live (s', pend') := by
  obtain ⟨hf, rfl⟩ := hforest
  refine ⟨htab, hf, hleaves, hpmm ▸ h.same, fun t => ?_, fun t ht => ?_, hapart,
    hkept⟩ <;> dsimp only
  · rw [hset t, hpmm]
    exact h.account t
  · rw [hpmm]
    exact h.taken t ((hset t).mp ht)

/-- A store of a good entry keeps the leaves good. -/
lemma Leaves.set (h : Leaves live mem) {r t : ℕ} {q : List Index} {i : Index} {w : ℕ}
    (hlay : TableLayout (ownedDomain live) (mem.set t i w))
    (ha : (r, q ++ [i]) ∈ (ownedDomain live).addrs 4)
    (hw : walk (link (mem.set t i w)) r q = some t)
    (hgood : w.testBit ptePresent = true →
      w.testBit pteHuge = false ∧ (q.length = 3 → w.testBit pteOwned = true))
    (hwalk : ∀ r' p t', (r', p) ∈ (ownedDomain live).addrs 3 →
      walk (link (mem.set t i w)) r' p = some t' →
      walk (link mem) r' p = some t' ∨ ∀ k, (mem.set t i w t' k).testBit ptePresent = false) :
    Leaves live (mem.set t i w) := by
  intro r' p k t' hb hw' hp
  by_cases hslot : t' = t ∧ k = i
  · obtain ⟨rfl, rfl⟩ := hslot
    obtain ⟨-, rfl⟩ := hlay.unique (addrs_of_slot ha) hw (.inl (addrs_of_slot hb)) hw'
    rw [set_self] at hp ⊢
    exact hgood hp
  · rcases hwalk r' p t' (addrs_of_slot hb) hw' with hold | habs
    · rw [set_of_ne mem w hslot] at hp ⊢
      exact h r' p k t' hb hold hp
    · rw [habs k] at hp
      cases hp

/-- Changes outside the tables keep the leaves good. -/
lemma Leaves.outside (h : Leaves live mem)
    (hforest : Forest ((ownedDomain live).addrs 4) (link mem)) {mem' : PhysMem}
    (hsame : ∀ t ∈ (ownedDomain live).managed mem, ∀ i, mem' t i = mem t i) : Leaves live mem' := by
  have hA3 : Forest ((ownedDomain live).addrs 3) (link mem) :=
    hforest.mono addrs_deeper fun _ _ _ => addrs_closed
  intro r q i t ha hw hp
  have hwalk : walk (link mem') r q = walk (link mem) r q := by
    refine walk_congr fun p k t' hpre hw' => ?_
    obtain ⟨s, rfl⟩ := hpre
    have hb := hA3.closed_append (addrs_of_slot ha)
    rw [link, link, hsame t' (mem_tables (addrs_closed hb) hw')]
  rw [hwalk] at hw
  rw [hsame t (mem_tables (addrs_of_slot ha) hw)] at hp ⊢
  exact h r q i t ha hw hp

/-- Changes outside the tables keep the accounting. -/
lemma Accounted.outside (h : Accounted s₀ live (s, pend)) (hpmm : s'.pmm = s.pmm)
    (hsetup : s.SameSetup s')
    (hsame : ∀ t ∈ (ownedDomain live).managed s.mem, ∀ i, s'.mem t i = s.mem t i)
    (hkept : BootKept s₀ live s') : Accounted s₀ live (s', pend) := by
  have hall : ∀ t ∈ (ownedDomain live).inUse s.mem, ∀ i, s'.mem t i = s.mem t i := by
    rw [inUse, fixedTables_owned, union_empty]
    exact hsame
  have hlay := h.tables.layout.outside hall
  have htab : VmmTables (ownedDomain live) (s', pend) :=
    h.tables.ofMem hpmm hsetup hlay (fun t ht => .inl ht) fun c hc => .inl hc
  refine h.ofMem htab hpmm (h.forest.congr fun r p i t ha hw => ?_)
    (h.leaves.outside h.forest hsame) (fun t => Iff.rfl) h.apart hkept
  rw [link, link, hsame t (mem_tables (addrs_of_slot ha) hw)]

/-! ### Taking and giving back -/

/-- A page is taken from the allocator, and is pending. -/
lemma Accounted.alloc (h : Accounted s₀ live (s, pend)) {c : ℕ} {pmm : Pmm}
    (hc : nsPmmAllocPage s.pmm = (.ok c, pmm)) :
    Accounted s₀ live ({ s with pmm := pmm }, insert c pend) := by
  obtain ⟨-, hsame, hfree, hiff⟩ := h.tables.sound.allocPage hc
  have hout : ∀ t, t ∈ framesOf live s.mem ∨ t ∈ pend → t ≠ c := by
    rintro t ht rfl
    exact h.taken t ht hfree
  refine ⟨h.tables.alloc hc, h.forest, h.leaves, h.same.trans hsame, fun t => ?_, fun t ht hf => ?_,
    fun t ht hin => ?_, ⟨h.kept.config, h.kept.boot, h.kept.upper⟩⟩ <;> dsimp only at *
  · rw [h.account t, hiff t, mem_insert_iff]
    by_cases htc : t = c
    · subst htc
      simp [hfree]
    · simp [htc]
  · obtain ⟨hf, hne⟩ := (hiff t).mp hf
    refine h.taken t ?_ hf
    rcases ht with ht | rfl | ht
    · exact .inl ht
    · exact absurd rfl hne
    · exact .inr ht
  · rcases ht with rfl | ht
    · exact hout t (.inl hin) rfl
    · exact h.apart t ht hin

/-- A pending page goes back to the allocator. -/
lemma Accounted.free (h0 : s₀.pmm.Sound) (h : Accounted s₀ live (s, pend)) {c : ℕ} (hc : c ∈ pend) :
    Accounted s₀ live (s.freePage c, pend \ {c}) := by
  obtain ⟨-, hsame, hiff⟩ := h.tables.sound.freePage c
  have hfree0 : s₀.pmm.IsFree c := (h.account c).mpr (.inr (.inr hc))
  have hable : s.pmm.Freeable c := h0.freeable h.same hfree0 (h.taken c (.inr hc))
  have hout : c ∉ framesOf live s.mem := h.apart c hc
  refine ⟨?_, h.forest, h.leaves, h.same.trans hsame, fun t => ?_, fun t ht hf => ?_,
    fun t ht => h.apart t ht.1, ⟨h.kept.config, h.kept.boot, h.kept.upper⟩⟩
  · exact (h.tables.mono sdiff_subset).free (h.tables.pending c hc).1 fun hin => hin.2 rfl
  · change _ ↔ (nsPmmFreePage s.pmm c).2.IsFree t ∨ t ∈ framesOf live s.mem ∨ t ∈ pend \ {c}
    rw [h.account t, hiff t, mem_sdiff, mem_singleton_iff]
    by_cases htc : t = c
    · subst htc
      simp [hable, hc]
    · simp [htc]
  · rcases (hiff t).mp hf with hf | ⟨rfl, -⟩
    · exact h.taken t (ht.imp_right And.left) hf
    · exact ht.elim hout fun hin => hin.2 rfl

lemma Accounted.congr (h : Accounted s₀ live (s, pend)) (hmem : s'.mem = s.mem)
    (hpmm : s'.pmm = s.pmm) (hsetup : s.SameSetup s') : Accounted s₀ live (s', pend) := by
  refine h.ofMem (h.tables.congr hmem hpmm hsetup) hpmm ⟨hmem ▸ h.forest, rfl⟩ (hmem ▸ h.leaves)
    (fun t => ?_) (fun c hc => ?_) (h.kept.congr hsetup.config fun t i _ => by rw [hmem])
  · rw [hmem]
  · rw [hmem]
    exact h.apart c hc

/-! ### Steps on tables -/

/-- Every step keeps the accounting. -/
lemma Accounted.shape (h0 : s₀.pmm.Sound) {r : ℕ} {j : Index} {keep : Prop} {x y : Vmm × Set ℕ}
    (h : Accounted s₀ live x) (st : Shape (ownedDomain live) r j keep x y) :
    Accounted s₀ live y := by
  have htab := h.tables.shape st
  cases st with
  | alloc hc => exact h.alloc hc
  | giveBack hc => exact h.free h0 hc
  | @zero s pend c hc =>
    have hnot : c ∉ (ownedDomain live).managed s.mem := fun hin =>
      h.apart c hc (managed_subset_frames hin)
    refine h.outside rfl ⟨rfl, rfl⟩ (fun t ht i => zero_of_ne s.mem ?_ i)
      (h.kept_page ((h.account c).mpr (.inr (.inr hc))) hnot rfl fun t ht => zero_of_ne s.mem ht)
    rintro rfl
    exact hnot ht
  | @graft s pend q i t c ha hj hkeep hw habs hc hempty hp =>
    have ha4 := addrs_deeper ha
    have hout : c ∉ framesOf live s.mem := h.apart c hc
    have hlink := linkOf_linkWord (h.tables.pending c hc).2.2
    have hnone : ∀ k, link s.mem c k = none := fun k => by simp [link, hempty k, linkOf]
    obtain ⟨hforest, hframes⟩ := h.forest.graft ha4 hw hout (fun k _ => hnone k)
      (linkOf_of_absent habs)
    rw [← hlink, ← link_set] at hforest hframes
    refine h.ofMem htab rfl (m := insert c (framesOf live s.mem)) ⟨hforest, hframes⟩ ?_
      (fun t' => ?_) (fun c' hc' hin => ?_) (h.kept_store ha4 hw _)
    · refine h.leaves.set htab.layout ha4 ?_
        (fun _ => ⟨(linkOf_eq_some hlink).2.1, fun hq => ?_⟩) ?_
      · exact (SameAbove.set h.tables.layout ha4 hw _).walk_eq.trans hw
      · have hlen := (mem_addrs.mp ha).2.1
        rw [List.length_append, List.length_singleton] at hlen
        omega
      · intro r' p t' hb hw'
        rw [link_set, hlink] at hw'
        have hb4 := addrs_deeper hb
        rcases (h.forest.walk_graft ha4 hw hout (fun k _ => hnone k) (linkOf_of_absent habs) hb4).mp
          hw' with ⟨-, -, rfl⟩ | hold
        · refine .inr fun k => ?_
          have hne : t' ≠ t := fun heq => hout (heq ▸ managed_subset_frames
            (mem_tables (addrs_closed ha) hw))
          rw [set_of_ne _ _ fun hs => hne hs.1, hempty k, Nat.zero_testBit]
        · exact .inl hold
    · rw [mem_insert_iff, mem_sdiff, mem_singleton_iff]
      by_cases htc : t' = c
      · simp [htc, hc]
      · simp [htc]
    · rcases hin with rfl | hin
      · exact hc'.2 rfl
      · exact h.apart c' hc'.1 hin
  | @widen s pend q i t c ha hj hkeep hw hl =>
    have ha4 := addrs_deeper ha
    have hsame : link (s.mem.set t i (s.mem t i ||| 2 ^ pteUser)) = link s.mem := by
      rw [link_set, linkOf_widen hl, ← hl]
      exact setLink_eq_self _ t i
    refine h.ofMem htab rfl ⟨?_, ?_⟩ ?_ (fun t => Iff.rfl) h.apart (h.kept_store ha4 hw _)
    · exact hsame ▸ h.forest
    · exact congrArg (Northstar.tables _) hsame
    · refine h.leaves.set htab.layout ha4 (by rw [hsame]; exact hw)
        (fun _ => ⟨(linkOf_eq_some (linkOf_widen hl)).2.1, fun hq => ?_⟩)
        fun r' p t' _ hw' => .inl (by rwa [hsame] at hw')
      have hlen := (mem_addrs.mp ha).2.1
      rw [List.length_append, List.length_singleton] at hlen
      omega
  | @prune s pend q i t c ha hj hkeep hw hl hempty =>
    have ha4 := addrs_deeper ha
    have hnone : ∀ k, link s.mem c k = none := fun k => linkOf_of_absent (hempty k)
    have hzero : linkOf 0 = none := by simp [linkOf]
    obtain ⟨hforest, hframes⟩ := h.forest.prune ha4 hw hl fun k _ => hnone k
    rw [← hzero, ← link_set] at hforest hframes
    have hin : c ∈ framesOf live s.mem := by
      refine mem_tables ha4 ?_
      rw [walk_concat, hw]
      exact hl
    refine h.ofMem htab rfl (m := framesOf live s.mem \ {c}) ⟨hforest, hframes⟩ ?_
      (fun t' => ?_) (fun c' hc' hin' => ?_) (h.kept_store ha4 hw _)
    · refine h.leaves.set htab.layout ha4 ?_ (fun hp => by simp at hp) ?_
      · exact (SameAbove.set h.tables.layout ha4 hw _).walk_eq.trans hw
      · intro r' p t' hb hw'
        rw [link_set, hzero] at hw'
        exact .inl ((h.forest.walk_prune ha4 hw hl (fun k _ => hnone k)
          (addrs_deeper hb)).mp hw').1
    · rw [mem_sdiff, mem_singleton_iff, mem_insert_iff]
      by_cases htc : t' = c
      · simp [htc, hin]
      · simp [htc]
    · rcases hc' with rfl | hc'
      · exact hin'.2 rfl
      · exact h.apart c' hc' hin'.1

/-- The accounting is an invariant of the steps. -/
lemma Accounted.keeps (h0 : s₀.pmm.Sound) (live : Set ℕ) (r : ℕ) (j : Index) (keep : Prop) :
    Keeps (ownedDomain live) r j keep (Accounted s₀ live) :=
  ⟨fun _ h => h.tables, fun _ _ h st => h.shape h0 st⟩

/-! ### Operations on one page -/

/-- The frame behind a page holds no table. -/
lemma Accounted.page_not_managed (h : Accounted s₀ live (s, pend)) {r f : ℕ} {p : List Index}
    (ha : (r, p) ∈ (ownedDomain live).addrs 4) (hp : p.length = 4)
    (hw : walk (link s.mem) r p = some f) : f ∉ (ownedDomain live).inUse s.mem := by
  rw [inUse, fixedTables_owned, union_empty]
  rintro ⟨a, ha', hw'⟩
  have heq := h.forest.inj a (addrs_deeper ha') (r, p) ha f hw' hw
  have hlen := ha'.2.1
  rw [heq] at hlen
  dsimp only at hlen
  omega

/-- The address of a page of the lower half. -/
lemma leaf_addr {r virt : ℕ} (hr : r ∈ live) (htop : tableIndex virt 4 ∈ lowerSlots) :
    (r, pathUp virt ++ [tableIndex virt 1]) ∈ (ownedDomain live).addrs 4 :=
  addr_of_path (d := ownedDomain live) hr htop (List.prefix_refl (pathFrom virt 4)) (by simp)

section

variable {r t : ℕ} {q : List Index} {i : Index}

section

variable (h : Accounted s₀ live (s, pend)) (ha : (r, q ++ [i]) ∈ (ownedDomain live).addrs 4)
  (hq : q.length = 3)
include h ha hq

section

variable (hw : walk (link s.mem) r q = some t)
include hw

/-- Storing to the slot of a page does not move tables. -/
lemma Accounted.walk_leaf (w : ℕ)
    {r' : ℕ} {p : List Index} (hb : (r', p) ∈ (ownedDomain live).addrs 3) :
    walk (link (s.mem.set t i w)) r' p = walk (link s.mem) r' p := by
  refine h.tables.layout.walk_set ha hw w hb ?_
  rintro ⟨-, hpre⟩
  have hlen := hpre.length_le
  have hle := (mem_addrs.mp hb).2.1
  rw [List.length_append, List.length_singleton] at hlen
  omega

/-- A pending frame is mapped into the empty slot of a page. -/
lemma Accounted.fill (habs : (s.mem t i).testBit ptePresent = false)
    {phys flags : ℕ} (hphys : phys ∈ pend) (hown : flags.testBit pageOwned = true) :
    Accounted s₀ live (s.store t i (entryFromFlags phys flags), pend \ {phys}) := by
  have hout : phys ∉ framesOf live s.mem := h.apart phys hphys
  have hlink : linkOf (entryFromFlags phys flags) = some phys := by
    rw [linkOf_entryFromFlags, (h.tables.pending phys hphys).2.2]
  -- a mapped frame is a node of the forest with nothing behind it
  have hbelow : ∀ k, (r, q ++ [i] ++ [k]) ∈ (ownedDomain live).addrs 4 →
      link s.mem phys k = none := fun k hk => by
    have hlen := hk.2.1
    simp [hq] at hlen
  obtain ⟨hforest, hframes⟩ := h.forest.graft ha hw hout hbelow (linkOf_of_absent habs)
  rw [← hlink, ← link_set] at hforest hframes
  have hlay := h.tables.layout.leaf ha hq hw (entryFromFlags phys flags)
  have htab : VmmTables (ownedDomain live)
      (s.store t i (entryFromFlags phys flags), pend \ {phys}) :=
    h.tables.ofMem rfl ⟨rfl, rfl⟩ hlay (fun t ht => .inl ht) fun c hc => .inl hc.1
  refine h.ofMem htab rfl (m := insert phys (framesOf live s.mem)) ⟨hforest, hframes⟩ ?_
    (fun t' => ?_) (fun c' hc' hin => ?_) (h.kept_store ha hw _)
  · refine h.leaves.set hlay.1 ha ?_ (fun _ => ⟨by simp, fun _ => by simpa using hown⟩)
      fun r' p t' hb hw' => .inl ?_
    · rw [h.walk_leaf ha hq hw _ (addrs_of_slot ha)]
      exact hw
    · rwa [h.walk_leaf ha hq hw _ hb] at hw'
  · rw [mem_insert_iff, mem_sdiff, mem_singleton_iff]
    by_cases htc : t' = phys
    · simp [htc, hphys]
    · simp [htc]
  · rcases hin with rfl | hin
    · exact hc'.2 rfl
    · exact h.apart c' hc'.1 hin

/-- The frame of a mapped page. -/
lemma Accounted.leafAt (hp : (s.mem t i).testBit ptePresent = true) :
    link s.mem t i = some (s.mem t i &&& pteAddr) ∧ (s.mem t i).testBit pteOwned = true := by
  obtain ⟨hhuge, hown⟩ := h.leaves r q i t ha hw hp
  exact ⟨linkOf_of_link hp hhuge, hown hq⟩

/-- The slot of a page is cleared, and its frame is pending. -/
lemma Accounted.empty {f : ℕ} (hf : link s.mem t i = some f) :
    Accounted s₀ live (s.store t i 0, insert f pend) ∧ f ∉ pend := by
  have hwf : walk (link s.mem) r (q ++ [i]) = some f := by
    rw [walk_concat, hw]
    exact hf
  have hin : f ∈ framesOf live s.mem := mem_tables ha hwf
  have hzero : linkOf 0 = none := by simp [linkOf]
  obtain ⟨hforest, hframes⟩ := h.forest.prune ha hw hf fun k hk => by
    have hlen := hk.2.1
    simp [hq] at hlen
  rw [← hzero, ← link_set] at hforest hframes
  have hlay := h.tables.layout.leaf ha hq hw 0
  have htab : VmmTables (ownedDomain live) (s.store t i 0, insert f pend) := by
    have hbase : VmmTables (ownedDomain live) (s.store t i 0, pend) :=
      h.tables.ofMem rfl ⟨rfl, rfl⟩ hlay (fun t ht => .inl ht) fun c hc => .inl hc
    refine ⟨hbase.layout, hbase.sound, hbase.held, hbase.reached, ?_, hbase.ready⟩
    rintro c (rfl | hc)
    · refine ⟨?_, h.taken c (.inl hin), linkOf_addr hf⟩
      change c ∉ (ownedDomain live).inUse (s.mem.set t i 0)
      rw [inUse, hlay.2.1, hlay.2.2]
      exact h.page_not_managed ha (by simp [hq]) hwf
    · exact hbase.pending c hc
  refine ⟨h.ofMem htab rfl (m := framesOf live s.mem \ {f}) ⟨hforest, hframes⟩ ?_
    (fun t' => ?_) (fun c' hc' hin' => ?_) (h.kept_store ha hw _), fun hp => h.apart f hp hin⟩
  · refine h.leaves.set hlay.1 ha ?_ (fun hp => by simp at hp) fun r' p t' hb hw' => .inl ?_
    · rw [h.walk_leaf ha hq hw _ (addrs_of_slot ha)]
      exact hw
    · rwa [h.walk_leaf ha hq hw _ hb] at hw'
  · rw [mem_sdiff, mem_singleton_iff, mem_insert_iff]
    by_cases htc : t' = f
    · simp [htc, hin]
    · simp [htc]
  · rcases hc' with rfl | hc'
    · exact hin'.2 rfl
    · exact h.apart c' hc' hin'.1

end

end

/-- The slot of a page is cleared and its frame goes back. -/
lemma Accounted.release (h0 : s₀.pmm.Sound) (h : Accounted s₀ live (s, pend))
    (ha : (r, q ++ [i]) ∈ (ownedDomain live).addrs 4) (hq : q.length = 3)
    (hw : walk (link s.mem) r q = some t) (hp : (s.mem t i).testBit ptePresent = true) :
    Accounted s₀ live ((s.store t i 0).freePage (s.mem t i &&& pteAddr), pend) := by
  obtain ⟨hempty, hout⟩ := h.empty ha hq hw (h.leafAt ha hq hw hp).1
  have hfree := hempty.free h0 (mem_insert _ _)
  rwa [insert_sdiff_self_of_notMem hout] at hfree

/-- The permissions of a page change. -/
lemma Accounted.permit (h : Accounted s₀ live (s, pend))
    (ha : (r, q ++ [i]) ∈ (ownedDomain live).addrs 4) (hq : q.length = 3)
    (hw : walk (link s.mem) r q = some t) (hp : (s.mem t i).testBit ptePresent = true) (flags : ℕ) :
    Accounted s₀ live (s.store t i (protectedEntry (s.mem t i) flags), pend) := by
  obtain ⟨hlink, hown⟩ := h.leafAt ha hq hw hp
  have hsame : link (s.mem.set t i (protectedEntry (s.mem t i) flags)) = link s.mem := by
    rw [link_set, linkOf_protectedEntry, ← hlink]
    exact setLink_eq_self _ _ _
  have hlay := h.tables.layout.leaf ha hq hw (protectedEntry (s.mem t i) flags)
  have htab : VmmTables (ownedDomain live) (s.store t i (protectedEntry (s.mem t i) flags), pend) :=
    h.tables.ofMem rfl ⟨rfl, rfl⟩ hlay (fun t ht => .inl ht) fun c hc => .inl hc
  refine h.ofMem htab rfl ⟨?_, ?_⟩ ?_ (fun t => Iff.rfl) h.apart (h.kept_store ha hw _)
  · exact hsame ▸ h.forest
  · exact congrArg (Northstar.tables _) hsame
  · refine h.leaves.set hlay.1 ha (by rw [hsame]; exact hw)
      (fun _ => ⟨protectedEntry_huge _ flags, fun _ => ?_⟩)
      fun r' p t' _ hw' => .inl (by rwa [hsame] at hw')
    rw [protectedEntry_owned, hown, Bool.or_true]

end

section

variable {r virt t : ℕ}

/-- Clearing a page with release keeps the accounting. -/
lemma Accounted.clearPage (h0 : s₀.pmm.Sound) (h : Accounted s₀ live (s, pend)) (hr : r ∈ live)
    (htop : tableIndex virt 4 ∈ lowerSlots) (hleaf : LeafAt s.mem r virt t) :
    Accounted s₀ live (clearPage r virt true t s, pend) := by
  have ha := leaf_addr hr htop
  have hown := (h.leafAt ha rfl hleaf.walk hleaf.present).2
  refine (h.release h0 ha rfl hleaf.walk hleaf.present).congr (by simp [Vmm.freePage]) ?_
    ⟨?_, ?_⟩ <;>
    simp [Northstar.clearPage, hown, Vmm.freeMapped, Vmm.freePage]

/-- Protecting a page keeps the accounting. -/
lemma Accounted.protectPage (h : Accounted s₀ live (s, pend)) (hr : r ∈ live)
    (htop : tableIndex virt 4 ∈ lowerSlots) (hleaf : LeafAt s.mem r virt t) (flags : ℕ) :
    Accounted s₀ live (protectPage r virt flags t s, pend) :=
  (h.permit (leaf_addr hr htop) rfl hleaf.walk hleaf.present flags).congr (by simp)
    (by simp [Northstar.protectPage])
    ⟨by simp [Northstar.protectPage], by simp [Northstar.protectPage]⟩

end

end

end Northstar
