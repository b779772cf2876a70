import Northstar.Mm.PmmPages
import Northstar.Mm.VmmLayout

/-! # Growing and shrinking page tables

The work that the manager does on the way to a leaf slot, and after clearing one, is a sequence of
small steps (`Shape`): take a page, clear it, hang it into a slot, widen a link for user pages,
take an empty table out, give a page back. Between being taken and being hung in, a page is
pending; a state is paired with the set of its pending pages.

`VmmTables` is the invariant that every step keeps, whatever else a development adds to it: tables
lie as a `TableLayout`, no table and no pending page is free, and the manager can reach every
managed table. -/

namespace Northstar

open Domain

/-- The parts of a manager that only `ns_vmm_init` sets are the same. -/
structure Vmm.SameSetup (s s' : Vmm) : Prop where
  config : s'.config = s.config
  initialized : s'.initialized = s.initialized

/-- The tables of a state, with the pages that are taken but not yet hung in. -/
structure VmmTables (d : Domain) (x : Vmm × Set ℕ) : Prop where
  layout : TableLayout d x.1.mem
  sound : x.1.pmm.Sound
  held : ∀ t ∈ d.inUse x.1.mem, ¬ x.1.pmm.IsFree t
  reached : ∀ t ∈ d.managed x.1.mem, tablePointer x.1.config t = true
  pending : ∀ c ∈ x.2, c ∉ d.inUse x.1.mem ∧ ¬ x.1.pmm.IsFree c ∧ c &&& pteAddr = c
  ready : x.1.initialized = true

/-- The entry that `walk_create_leaf` writes for a new table. -/
abbrev linkWord (c : ℕ) : ℕ := c ||| 2 ^ ptePresent ||| 2 ^ pteWrite

/-- One step under the top slot `j` of the root `r`. With `keep` the top slot itself keeps its
entry. -/
inductive Shape (d : Domain) (r : ℕ) (j : Index) (keep : Prop) :
    Vmm × Set ℕ → Vmm × Set ℕ → Prop
  | alloc {s : Vmm} {pend : Set ℕ} {c : ℕ} {pmm : Pmm} (h : nsPmmAllocPage s.pmm = (.ok c, pmm)) :
      Shape d r j keep (s, pend) ({ s with pmm := pmm }, insert c pend)
  | giveBack {s : Vmm} {pend : Set ℕ} {c : ℕ} (h : c ∈ pend) :
      Shape d r j keep (s, pend) (s.freePage c, pend \ {c})
  | zero {s : Vmm} {pend : Set ℕ} {c : ℕ} (h : c ∈ pend) :
      Shape d r j keep (s, pend) (s.zeroPage c, pend)
  | graft {s : Vmm} {pend : Set ℕ} {q : List Index} {i : Index} {t c : ℕ}
      (ha : (r, q ++ [i]) ∈ d.addrs 3) (hj : (q ++ [i]).head? = some j) (hkeep : keep → q ≠ [])
      (hw : walk (link s.mem) r q = some t) (habs : (s.mem t i).testBit ptePresent = false)
      (hc : c ∈ pend) (hempty : ∀ i, s.mem c i = 0) (hp : tablePointer s.config c = true) :
      Shape d r j keep (s, pend) (s.store t i (linkWord c), pend \ {c})
  | widen {s : Vmm} {pend : Set ℕ} {q : List Index} {i : Index} {t c : ℕ}
      (ha : (r, q ++ [i]) ∈ d.addrs 3) (hj : (q ++ [i]).head? = some j) (hkeep : keep → q ≠ [])
      (hw : walk (link s.mem) r q = some t) (hl : link s.mem t i = some c) :
      Shape d r j keep (s, pend) (s.store t i (s.mem t i ||| 2 ^ pteUser), pend)
  | prune {s : Vmm} {pend : Set ℕ} {q : List Index} {i : Index} {t c : ℕ}
      (ha : (r, q ++ [i]) ∈ d.addrs 3) (hj : (q ++ [i]).head? = some j) (hkeep : keep → q ≠ [])
      (hw : walk (link s.mem) r q = some t) (hl : link s.mem t i = some c)
      (hempty : ∀ i, (s.mem c i).testBit ptePresent = false) :
      Shape d r j keep (s, pend) (s.store t i 0, insert c pend)

/-- A sequence of steps. -/
abbrev Shapes (d : Domain) (r : ℕ) (j : Index) (keep : Prop) :
    Vmm × Set ℕ → Vmm × Set ℕ → Prop :=
  Relation.ReflTransGen (Shape d r j keep)

/-- An empty table is taken out of its slot and its page given back. -/
inductive Reclaim (d : Domain) (r : ℕ) (j : Index) : Vmm → Vmm → Prop
  | mk {s : Vmm} {q : List Index} {i : Index} {t c : ℕ} (ha : (r, q ++ [i]) ∈ d.addrs 3)
      (hj : (q ++ [i]).head? = some j) (hw : walk (link s.mem) r q = some t)
      (hl : link s.mem t i = some c) (hempty : ∀ i, (s.mem c i).testBit ptePresent = false) :
      Reclaim d r j s ((s.store t i 0).freePage c)

/-- Empty tables are reclaimed one after the other. -/
abbrev Reclaims (d : Domain) (r : ℕ) (j : Index) : Vmm → Vmm → Prop :=
  Relation.ReflTransGen (Reclaim d r j)

section

variable (s : Vmm) (t : ℕ) (i : Index)

/-- The memory after a store. -/
@[simp] lemma Vmm.store_mem (w : ℕ) : (s.store t i w).mem = s.mem.set t i w := rfl

@[simp] lemma Vmm.store_pmm (w : ℕ) : (s.store t i w).pmm = s.pmm := rfl

@[simp] lemma Vmm.store_config (w : ℕ) : (s.store t i w).config = s.config := rfl

end

variable {c : ℕ}

/-- Taking a page and giving it back leaves the pending pages as they were. -/
lemma Shape.giveBack_insert {d : Domain} {r : ℕ} {j : Index} {keep : Prop} {s : Vmm} {pend : Set ℕ}
    (hc : c ∉ pend) : Shape d r j keep (s, insert c pend) (s.freePage c, pend) := by
  have hback : Shape d r j keep (s, insert c pend) (s.freePage c, insert c pend \ {c}) :=
    .giveBack (Set.mem_insert c pend)
  rwa [Set.insert_sdiff_self_of_notMem hc] at hback

/-- Hanging in a page that was just taken leaves the pending pages as they were. -/
lemma Shape.graft_insert {d : Domain} {r : ℕ} {j : Index} {keep : Prop} {s : Vmm} {pend : Set ℕ}
    {q : List Index} {i : Index} {t : ℕ} (hc : c ∉ pend) (ha : (r, q ++ [i]) ∈ d.addrs 3)
    (hj : (q ++ [i]).head? = some j) (hkeep : keep → q ≠ [])
    (hw : walk (link s.mem) r q = some t) (habs : (s.mem t i).testBit ptePresent = false)
    (hempty : ∀ i, s.mem c i = 0) (hp : tablePointer s.config c = true) :
    Shape d r j keep (s, insert c pend) (s.store t i (linkWord c), pend) := by
  have hgraft : Shape d r j keep (s, insert c pend)
      (s.store t i (linkWord c), insert c pend \ {c}) :=
    .graft ha hj hkeep hw habs (Set.mem_insert c pend) hempty hp
  rwa [Set.insert_sdiff_self_of_notMem hc] at hgraft

/-! ### Words of links -/

/-- Flag bits do not change the address. -/
lemma or_and_pteAddr {bit : ℕ} (hbit : bit < 12 ∨ 52 ≤ bit) (w : ℕ) :
    (w ||| 2 ^ bit) &&& pteAddr = w &&& pteAddr := orIf_and_pteAddr true hbit w

/-- A new link leads to its table. -/
lemma linkOf_linkWord (hc : c &&& pteAddr = c) : linkOf (linkWord c) = some c := by
  have haddr : linkWord c &&& pteAddr = c := by
    rw [or_and_pteAddr (by decide), or_and_pteAddr (by decide), hc]
  have hhuge : (linkWord c).testBit pteHuge = false := by
    rw [Nat.testBit_or, Nat.testBit_or, ← hc, testBit_and_pteAddr_low c (by decide),
      Nat.testBit_two_pow, Nat.testBit_two_pow]
    decide
  have hpresent : (linkWord c).testBit ptePresent = true := by
    simp
  rw [linkOf_of_link hpresent hhuge, haddr]

/-- Widening a link keeps it. -/
lemma linkOf_widen {w : ℕ} (h : linkOf w = some c) : linkOf (w ||| 2 ^ pteUser) = some c := by
  obtain ⟨hp, hh, rfl⟩ := linkOf_eq_some h
  have hhuge : (w ||| 2 ^ pteUser).testBit pteHuge = false := by
    rw [Nat.testBit_or, hh, Nat.testBit_two_pow]
    decide
  rw [linkOf_of_link (by rw [Nat.testBit_or, hp, Bool.true_or]) hhuge, or_and_pteAddr (by decide)]

/-- The page of a link has an address that fits an entry. -/
lemma linkOf_addr {w : ℕ} (h : linkOf w = some c) : c &&& pteAddr = c := by
  obtain ⟨-, -, rfl⟩ := linkOf_eq_some h
  obtain ⟨hmod, hlt⟩ := and_pteAddr_spec w
  exact and_pteAddr hmod hlt

section

variable (old flags : ℕ)

/-- The bits of a protected entry. -/
lemma protectedEntry_testBit (i : ℕ) :
    (protectedEntry old flags).testBit i =
      ((entryFromFlags (old &&& pteAddr) flags).testBit i ||
        (old.testBit pteOwned && decide (pteOwned = i))) := testBit_orIf _ _ _ _

/-- A protected entry is present. -/
@[simp] lemma protectedEntry_present : (protectedEntry old flags).testBit ptePresent = true := by
  rw [protectedEntry_testBit, entryFromFlags_present, Bool.true_or]

/-- A protected entry is not huge. -/
@[simp] lemma protectedEntry_huge : (protectedEntry old flags).testBit pteHuge = false := by
  rw [protectedEntry_testBit, entryFromFlags_huge]
  simp

/-- A protected entry stays owned. -/
@[simp] lemma protectedEntry_owned :
    (protectedEntry old flags).testBit pteOwned =
      (flags.testBit pageOwned || old.testBit pteOwned) := by
  rw [protectedEntry_testBit, entryFromFlags_owned]
  simp

/-- A protected entry keeps its frame. -/
@[simp] lemma protectedEntry_addr : protectedEntry old flags &&& pteAddr = old &&& pteAddr := by
  obtain ⟨hmod, hlt⟩ := and_pteAddr_spec old
  unfold protectedEntry
  rw [orIf_and_pteAddr _ (by decide), entryFromFlags_addr, and_pteAddr hmod hlt]

/-- An entry made by `entry_from_flags` is a link. -/
lemma linkOf_entryFromFlags (phys : ℕ) :
    linkOf (entryFromFlags phys flags) = some (phys &&& pteAddr) := by
  rw [linkOf_of_link (entryFromFlags_present phys flags) (entryFromFlags_huge phys flags),
    entryFromFlags_addr]

/-- A protected entry leads to its frame. -/
lemma linkOf_protectedEntry : linkOf (protectedEntry old flags) = some (old &&& pteAddr) := by
  rw [linkOf_of_link (protectedEntry_present old flags) (protectedEntry_huge old flags),
    protectedEntry_addr]

end

/-! ### Every step keeps the tables -/

namespace VmmTables

variable {d : Domain} {s : Vmm} {pend : Set ℕ}

variable {c r : ℕ} {s' : Vmm} {j : Index} {x y : Vmm × Set ℕ}

section

variable (h : VmmTables d (s, pend))
include h

/-- A page is taken from the allocator, and is pending. -/
lemma alloc {pmm : Pmm} (hc : nsPmmAllocPage s.pmm = (.ok c, pmm)) :
    VmmTables d ({ s with pmm := pmm }, insert c pend) := by
  obtain ⟨hsound, -, hfree, hiff⟩ := h.sound.allocPage hc
  obtain ⟨hmod, -, hlt, -⟩ := h.sound.isFree hfree
  have hlimit := h.sound.limit
  refine ⟨h.layout, hsound, fun t ht hf => h.held t ht ((hiff t).mp hf).1, h.reached, ?_, h.ready⟩
  rintro c' (rfl | hc')
  · refine ⟨fun hin => h.held c' hin hfree, fun hf => ((hiff c').mp hf).2 rfl, and_pteAddr hmod ?_⟩
    omega
  · obtain ⟨h1, h2, h3⟩ := h.pending c' hc'
    exact ⟨h1, fun hf => h2 ((hiff c').mp hf).1, h3⟩

/-- Freeing any page that is neither a table nor pending. -/
lemma free (hc : c ∉ d.inUse s.mem) (hp : c ∉ pend) : VmmTables d (s.freePage c, pend) := by
  obtain ⟨hsound, -, hiff⟩ := h.sound.freePage c
  refine ⟨h.layout, hsound, fun t ht hf => ?_, h.reached, fun c' hc' => ?_, h.ready⟩
  · rcases (hiff t).mp hf with hf | ⟨rfl, -⟩
    · exact h.held t ht hf
    · exact hc ht
  · obtain ⟨h1, h2, h3⟩ := h.pending c' hc'
    refine ⟨h1, fun hf => ?_, h3⟩
    rcases (hiff c').mp hf with hf | ⟨rfl, -⟩
    · exact h2 hf
    · exact hp hc'

lemma mono {pend' : Set ℕ} (hsub : pend' ⊆ pend) : VmmTables d (s, pend') :=
  ⟨h.layout, h.sound, h.held, h.reached, fun c hc => h.pending c (hsub hc), h.ready⟩

/-- Two states with the same memory, pages and callbacks have the same tables. -/
lemma congr (hmem : s'.mem = s.mem) (hpmm : s'.pmm = s.pmm)
    (hsetup : s.SameSetup s') : VmmTables d (s', pend) := by
  refine ⟨?_, ?_, ?_, ?_, ?_, hsetup.initialized.trans h.ready⟩ <;> dsimp only
  · exact hmem ▸ h.layout
  · exact hpmm ▸ h.sound
  · rw [hmem, hpmm]
    exact h.held
  · rw [hmem, hsetup.config]
    exact h.reached
  · rw [hmem, hpmm]
    exact h.pending

/-- A change of memory under which the managed tables become `m` and the pending pages `pend'`. -/
lemma ofMem {pend' m : Set ℕ} (hpmm : s'.pmm = s.pmm) (hsetup : s.SameSetup s')
    (hlayout : TableLayout d s'.mem ∧ d.managed s'.mem = m ∧
      d.fixedTables s'.mem = d.fixedTables s.mem)
    (hm : ∀ t ∈ m, t ∈ d.managed s.mem ∨ t ∈ pend ∧ t ∉ pend' ∧ tablePointer s.config t = true)
    (hp : ∀ c ∈ pend', c ∈ pend ∨ c ∈ d.managed s.mem ∧ c ∉ m ∧ c &&& pteAddr = c) :
    VmmTables d (s', pend') := by
  obtain ⟨hlay, hman, hfix⟩ := hlayout
  have huse : d.inUse s'.mem = m ∪ d.fixedTables s.mem := by rw [inUse, hman, hfix]
  refine ⟨hlay, hpmm ▸ h.sound, fun t ht => ?_, fun t ht => ?_, fun c hc => ?_,
    hsetup.initialized.trans h.ready⟩ <;> dsimp only
  · rw [hpmm]
    rw [huse] at ht
    rcases ht with ht | ht
    · rcases hm t ht with ht | ⟨ht, -, -⟩
      · exact h.held t (.inl ht)
      · exact (h.pending t ht).2.1
    · exact h.held t (.inr ht)
  · rw [hsetup.config]
    rw [hman] at ht
    rcases hm t ht with ht | ⟨-, -, ht⟩
    · exact h.reached t ht
    · exact ht
  · rw [hpmm, huse]
    rcases hp c hc with hold | ⟨hold, hnot, haddr⟩
    · obtain ⟨h1, h2, h3⟩ := h.pending c hold
      refine ⟨?_, h2, h3⟩
      rintro (hin | hin)
      · rcases hm c hin with hin | ⟨-, hnot, -⟩
        · exact h1 (.inl hin)
        · exact hnot hc
      · exact h1 (.inr hin)
    · refine ⟨?_, h.held c (.inl hold), haddr⟩
      rintro (hin | hin)
      · exact hnot hin
      · exact h.layout.fixed c hold hin

end

/-- Every step keeps the tables. -/
lemma shape {keep : Prop} (h : VmmTables d x) (st : Shape d r j keep x y) : VmmTables d y := by
  cases st with
  | alloc hc => exact h.alloc hc
  | giveBack hc =>
    exact (h.mono Set.sdiff_subset).free (h.pending _ hc).1 fun hin => hin.2 rfl
  | zero hc =>
    exact h.ofMem rfl ⟨rfl, rfl⟩ (h.layout.zero (h.pending _ hc).1) (fun t ht => .inl ht)
      fun c hc => .inl hc
  | graft ha hj hkeep hw habs hc hempty hp =>
    obtain ⟨hout, -, haddr⟩ := h.pending _ hc
    refine h.ofMem rfl ⟨rfl, rfl⟩
      (h.layout.graft ha hw habs hout hempty (linkOf_linkWord haddr)) ?_ ?_
    · rintro t (rfl | ht)
      · exact .inr ⟨hc, fun hin => hin.2 rfl, hp⟩
      · exact .inl ht
    · exact fun c hc => .inl hc.1
  | widen ha hj hkeep hw hl =>
    refine h.ofMem rfl ⟨rfl, rfl⟩ (h.layout.relink (addrs_deeper ha) hw
      ((linkOf_widen hl).trans hl.symm) fun _ => (linkOf_eq_some (linkOf_widen hl)).2.1) ?_ ?_
    · exact fun t ht => .inl ht
    · exact fun c hc => .inl hc
  | prune ha hj hkeep hw hl hempty =>
    refine h.ofMem rfl ⟨rfl, rfl⟩ (h.layout.prune ha hw hl hempty) (fun t ht => .inl ht.1) ?_
    rintro c (rfl | hc)
    · refine .inr ⟨mem_tables ha ?_, fun hin => hin.2 rfl, linkOf_addr hl⟩
      rw [walk_concat, hw]
      exact hl
    · exact .inl hc

/-- Reclaiming a table is two steps. -/
lemma shapes_of_reclaim (h : VmmTables d (s, pend))
    (st : Reclaim d r j s s') : Shapes d r j False (s, pend) (s', pend) := by
  obtain ⟨ha, hj, hw, hl, hempty⟩ := st
  have hin : _ ∈ d.managed s.mem := mem_tables ha (by rw [walk_concat, hw]; exact hl)
  have hout := fun hp => (h.pending _ hp).1 (.inl hin)
  exact (Relation.ReflTransGen.single (.prune ha hj False.elim hw hl hempty)).tail
    (.giveBack_insert hout)

/-- Sequences of steps keep the tables. -/
lemma shapes {keep : Prop} (h : VmmTables d x) (hs : Shapes d r j keep x y) : VmmTables d y := by
  induction hs with
  | refl => exact h
  | tail _ st ih => exact ih.shape st

/-- Reclaiming tables is a sequence of steps. -/
lemma shapes_of_reclaims (h : VmmTables d (s, pend))
    (hs : Reclaims d r j s s') : Shapes d r j False (s, pend) (s', pend) := by
  induction hs with
  | refl => exact .refl
  | tail _ st ih => exact ih.trans ((h.shapes ih).shapes_of_reclaim st)

/-- A pending page becomes a root. -/
lemma addRoot (h : VmmTables d (s, insert c pend)) (hc : c ∉ pend) (hfix : c ∉ d.fixed)
    (hempty : ∀ i ∈ d.slots c, (s.mem c i).testBit ptePresent = false)
    (hp : tablePointer s.config c = true) :
    VmmTables (d.withRoots (insert c d.roots)) (s, pend) := by
  obtain ⟨hout, hheld, -⟩ := h.pending c (Set.mem_insert c pend)
  obtain ⟨hlay, hman, hfixed⟩ := h.layout.addRoot hout hfix hempty
  have huse : (d.withRoots (insert c d.roots)).inUse s.mem = insert c (d.inUse s.mem) := by
    rw [inUse, hman, hfixed, inUse, Set.insert_union]
  refine ⟨hlay, h.sound, fun t ht => ?_, fun t ht => ?_, fun c' hc' => ?_, h.ready⟩ <;>
    dsimp only at *
  · rw [huse] at ht
    rcases ht with rfl | ht
    · exact hheld
    · exact h.held t ht
  · rw [hman] at ht
    rcases ht with rfl | ht
    · exact hp
    · exact h.reached t ht
  · obtain ⟨h1, h2, h3⟩ := h.pending c' (.inr hc')
    refine ⟨?_, h2, h3⟩
    rw [huse]
    rintro (rfl | hin)
    · exact hc hc'
    · exact h1 hin

/-- An empty root becomes a pending page. -/
lemma removeRoot (h : VmmTables d (s, pend)) (hr : r ∈ d.roots) (hfix : r ∉ d.fixed)
    (hempty : ∀ i ∈ d.slots r, (s.mem r i).testBit ptePresent = false) (haddr : r &&& pteAddr = r) :
    VmmTables (d.withRoots (d.roots \ {r})) (s, insert r pend) ∧ r ∉ pend := by
  obtain ⟨hlay, hman, hfixed⟩ := h.layout.removeRoot hr hfix hempty
  have hin : r ∈ d.managed s.mem := root_mem_managed hr s.mem
  have huse : ∀ t, t ∈ (d.withRoots (d.roots \ {r})).inUse s.mem → t ∈ d.inUse s.mem ∧ t ≠ r := by
    intro t ht
    rw [inUse, hman, hfixed] at ht
    rcases ht with ht | ht
    · exact ⟨.inl ht.1, ht.2⟩
    · refine ⟨.inr ht, ?_⟩
      rintro rfl
      exact h.layout.fixed t hin ht
  refine ⟨⟨hlay, h.sound, fun t ht => h.held t (huse t ht).1, fun t ht => ?_, fun c hc => ?_,
    h.ready⟩,
    fun hp => (h.pending r hp).1 (.inl hin)⟩
  · exact h.reached t (hman.subset ht).1
  · rcases hc with rfl | hc
    · exact ⟨fun hin' => (huse c hin').2 rfl, h.held c (.inl hin), haddr⟩
    · obtain ⟨h1, h2, h3⟩ := h.pending c hc
      exact ⟨fun hin' => h1 (huse c hin').1, h2, h3⟩

end VmmTables

end Northstar
