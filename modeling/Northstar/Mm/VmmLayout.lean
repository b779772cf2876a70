import Northstar.Mm.VmmView

/-! # How page tables lie in memory

A `Domain` says which tables a development speaks of: the roots, the slots of each root whose
subtrees are managed, and the roots whose remaining slots lead to tables that nobody changes (the
boot tables of the kernel). In a `TableLayout` the managed tables form a forest, and none of them is
one of the fixed tables.

A layout survives the edits that the manager makes: clearing a page that is not in use, hanging an
empty table into a slot, taking an empty table out, changing the permissions of a link, and any
store to a leaf slot. Walks that do not pass the edited slot do not notice the edit
(`TableLayout.trail_set`, `TableLayout.trail_outside`). -/

namespace Northstar

/-- The tables spoken of. -/
structure Domain where
  roots : Set ℕ
  slots : ℕ → Set Index
  fixed : Set ℕ

namespace Domain

variable (d : Domain)

/-- The managed addresses of at most `n` slots. -/
def addrs (n : ℕ) : Set (ℕ × List Index) :=
  {a | a.1 ∈ d.roots ∧ a.2.length ≤ n ∧ ∀ i ∈ a.2.head?, i ∈ d.slots a.1}

/-- The addresses of tables that are fixed. -/
def fixedAddrs : Set (ℕ × List Index) :=
  {a | a.1 ∈ d.roots ∧ a.1 ∈ d.fixed ∧ a.2.length ≤ 3 ∧ ∃ i ∈ a.2.head?, i ∉ d.slots a.1}

/-- The managed tables. -/
def managed (mem : PhysMem) : Set ℕ := tables (d.addrs 3) (link mem)

/-- The fixed tables. -/
def fixedTables (mem : PhysMem) : Set ℕ := tables d.fixedAddrs (link mem)

/-- The pages that hold tables. -/
def inUse (mem : PhysMem) : Set ℕ := d.managed mem ∪ d.fixedTables mem

variable {d}

variable {n r : ℕ} {p : List Index}

/-- The managed addresses up to a depth. -/
lemma mem_addrs :
    (r, p) ∈ d.addrs n ↔ r ∈ d.roots ∧ p.length ≤ n ∧ ∀ i ∈ p.head?, i ∈ d.slots r := Iff.rfl

lemma mem_fixedAddrs : (r, p) ∈ d.fixedAddrs ↔
      r ∈ d.roots ∧ r ∈ d.fixed ∧ p.length ≤ 3 ∧ ∃ i ∈ p.head?, i ∉ d.slots r := Iff.rfl

/-- With an address, the one above it is managed. -/
lemma addrs_closed {i : Index} (h : (r, p ++ [i]) ∈ d.addrs n) : (r, p) ∈ d.addrs n := by
  obtain ⟨hr, hlen, hhead⟩ := mem_addrs.mp h
  rw [List.length_append] at hlen
  refine mem_addrs.mpr ⟨hr, by omega, fun j hj => hhead j ?_⟩
  cases p with
  | nil => cases hj
  | cons k p => exact hj

/-- Addresses of tables are addresses of pages or tables. -/
lemma addrs_deeper : d.addrs 3 ⊆ d.addrs 4 := fun _ ha => ⟨ha.1, ha.2.1.trans (by decide), ha.2.2⟩

/-- The table that holds a managed slot is managed. -/
lemma addrs_of_slot {q : List Index} {i : Index} (h : (r, q ++ [i]) ∈ d.addrs (n + 1)) :
    (r, q) ∈ d.addrs n := by
  obtain ⟨hr, -, hhead⟩ := mem_addrs.mp (addrs_closed h)
  have hlen := (mem_addrs.mp h).2.1
  rw [List.length_append, List.length_singleton] at hlen
  exact mem_addrs.mpr ⟨hr, by omega, hhead⟩

/-- No address is both managed and fixed. -/
lemma not_fixed_of_addrs (h : (r, p) ∈ d.addrs n) : (r, p) ∉ d.fixedAddrs := by
  rintro ⟨-, -, -, i, hi, hnot⟩
  exact hnot (h.2.2 i hi)

/-- A root is at its own address. -/
lemma root_mem_addrs (h : r ∈ d.roots) (n : ℕ) : (r, []) ∈ d.addrs n :=
  ⟨h, Nat.zero_le n, by simp⟩

/-- A root is a managed table. -/
lemma root_mem_managed (h : r ∈ d.roots) (mem : PhysMem) : r ∈ d.managed mem :=
  mem_tables (root_mem_addrs h 3) rfl

/-! ### Roots come and go -/

variable (d) in
/-- The same tables, under other roots. -/
def withRoots (roots : Set ℕ) : Domain := { d with roots := roots }

/-- The addresses with one more root. -/
lemma addrs_insertRoot {c : ℕ} (a : ℕ × List Index) :
    a ∈ (d.withRoots (insert c d.roots)).addrs n ↔
      a ∈ d.addrs n ∨ a.1 = c ∧ a ∈ (d.withRoots (insert c d.roots)).addrs n := by
  constructor
  · rintro ⟨hr | hr, hrest⟩
    · exact .inr ⟨hr, .inl hr, hrest⟩
    · exact .inl ⟨hr, hrest⟩
  · rintro (⟨hr, hrest⟩ | ⟨-, ha⟩)
    · exact ⟨.inr hr, hrest⟩
    · exact ha

/-- The addresses with one root less. -/
lemma addrs_removeRoot (a : ℕ × List Index) :
    a ∈ (d.withRoots (d.roots \ {r})).addrs n ↔ a ∈ d.addrs n ∧ a.1 ≠ r := by
  constructor
  · rintro ⟨hr, hrest⟩
    exact ⟨⟨hr.1, hrest⟩, hr.2⟩
  · rintro ⟨⟨hr, hrest⟩, hne⟩
    exact ⟨⟨hr, hne⟩, hrest⟩

/-- Behind the slots of an empty root there is nothing. -/
lemma walk_of_empty {mem : PhysMem} {c : ℕ}
    (hempty : ∀ i ∈ d.slots c, (mem c i).testBit ptePresent = false)
    (ha : (c, p) ∈ d.addrs n) (hp : p ≠ []) : walk (link mem) c p = none := by
  cases p with
  | nil => exact absurd rfl hp
  | cons i p =>
    rw [walk_cons, link, linkOf_of_absent (hempty i ((mem_addrs.mp ha).2.2 i rfl))]
    rfl

end Domain

open Domain

/-- The managed tables form a forest apart from the fixed ones, and no entry at the top is huge. -/
structure TableLayout (d : Domain) (mem : PhysMem) : Prop where
  forest : Forest (d.addrs 3) (link mem)
  fixed : ∀ t ∈ d.managed mem, t ∉ d.fixedTables mem
  top : ∀ r i, r ∈ d.roots → (i ∈ d.slots r ∨ r ∈ d.fixed) →
    (mem r i).testBit ptePresent = true → (mem r i).testBit pteHuge = false

namespace TableLayout

variable {d : Domain} {mem mem' : PhysMem} {r t : ℕ} {q : List Index} {i : Index}

/-! ### The slots that walks pass -/

variable {r' virt w c : ℕ} {p : List Index}

/-- What is found at a known address is in use. -/
lemma inUse_of_known {t' : ℕ} (hb : (r', p) ∈ d.addrs 3 ∪ d.fixedAddrs)
    (hw : walk (link mem) r' p = some t') : t' ∈ d.inUse mem :=
  hb.imp (fun hb => mem_tables hb hw) fun hb => mem_tables hb hw

/-- A managed table is found at one address only. -/
lemma unique (h : TableLayout d mem) (ha : (r, q) ∈ d.addrs 3) (hw : walk (link mem) r q = some t)
    (hb : (r', p) ∈ d.addrs 3 ∪ d.fixedAddrs)
    (hw' : walk (link mem) r' p = some t) : r' = r ∧ p = q := by
  rcases hb with hb | hb
  · exact Prod.mk.inj (h.forest.inj (r', p) hb (r, q) ha t hw' hw)
  · exact absurd (mem_tables hb hw') (h.fixed t (mem_tables ha hw))

/-- The table that holds a slot of a fixed table's address is managed or fixed. -/
lemma known_of_fixed {j : Index} (hb : (r', p ++ [j]) ∈ d.fixedAddrs) :
    (r', p) ∈ d.addrs 3 ∪ d.fixedAddrs := by
  obtain ⟨hr, hfix, hlen, k, hk, hnot⟩ := mem_fixedAddrs.mp hb
  rw [List.length_append] at hlen
  cases p with
  | nil => exact .inl (root_mem_addrs hr 3)
  | cons k' p => exact .inr (mem_fixedAddrs.mpr ⟨hr, hfix, by omega, k, hk, hnot⟩)

/-- The fixed tables stay, if no slot on the way to them is changed. -/
lemma fixedTables_congr
    (hl : ∀ r p i t, (r, p ++ [i]) ∈ d.fixedAddrs → walk (link mem) r p = some t →
      link mem' t i = link mem t i) : d.fixedTables mem' = d.fixedTables mem := by
  have hw : ∀ a ∈ d.fixedAddrs, walk (link mem') a.1 a.2 = walk (link mem) a.1 a.2 := by
    rintro ⟨r, p⟩ ⟨hr, hfix, hlen, k, hk, hnot⟩
    refine walk_congr fun q i t hpre hw => hl r q i t ?_ hw
    refine mem_fixedAddrs.mpr ⟨hr, hfix, hpre.length_le.trans hlen, k, ?_, hnot⟩
    obtain ⟨s, rfl⟩ := hpre
    cases q <;> exact hk
  ext t
  exact exists_congr fun a => and_congr_right fun ha => by rw [hw a ha]

section

variable (h : TableLayout d mem)
include h

/-! ### Edits -/

/-- A store to a managed slot does not change the fixed tables. -/
lemma fixedTables_set (ha : (r, q ++ [i]) ∈ d.addrs 4) (hw : walk (link mem) r q = some t) (w : ℕ) :
    d.fixedTables (mem.set t i w) = d.fixedTables mem := by
  refine fixedTables_congr fun r' p j t' hb hw' => ?_
  rw [link_set]
  refine setLink_of_ne _ ?_
  rintro ⟨rfl, rfl⟩
  obtain ⟨rfl, rfl⟩ := h.unique (addrs_of_slot ha) hw (known_of_fixed hb) hw'
  exact not_fixed_of_addrs ha hb

/-- What a store to a managed slot does to the entries at the top. -/
lemma top_set (t : ℕ) (i : Index)
    (hhuge : w.testBit ptePresent = true → w.testBit pteHuge = false) :
    ∀ r i', r ∈ d.roots → (i' ∈ d.slots r ∨ r ∈ d.fixed) →
      (mem.set t i w r i').testBit ptePresent = true →
      (mem.set t i w r i').testBit pteHuge = false := by
  intro r i' hr hi hp
  by_cases hslot : r = t ∧ i' = i
  · obtain ⟨rfl, rfl⟩ := hslot
    rw [set_self] at hp ⊢
    exact hhuge hp
  · rw [set_of_ne mem w hslot] at hp ⊢
    exact h.top r i' hr hi hp

/-- Changes outside the tables in use. -/
lemma outside (hsame : ∀ t ∈ d.inUse mem, ∀ i, mem' t i = mem t i) :
    TableLayout d mem' ∧ d.managed mem' = d.managed mem ∧
      d.fixedTables mem' = d.fixedTables mem := by
  have hlink : ∀ t ∈ d.inUse mem, ∀ i, link mem' t i = link mem t i := fun t ht i => by
    rw [link, link, hsame t ht i]
  have hfixed : d.fixedTables mem' = d.fixedTables mem :=
    fixedTables_congr fun r' p j t' hb hw' => hlink t' (inUse_of_known (known_of_fixed hb) hw') j
  obtain ⟨hforest, hmanaged⟩ := h.forest.congr_tables fun t ht => hlink t (.inl ht)
  refine ⟨⟨hforest, fun t ht => ?_, fun r i hr hi hp => ?_⟩, hmanaged, hfixed⟩
  · rw [hfixed]
    exact h.fixed t (hmanaged.subset ht)
  · rw [hsame r (.inl (root_mem_managed hr mem))] at hp ⊢
    exact h.top r i hr hi hp

/-- Clearing a page that is not in use. -/
lemma zero (hc : c ∉ d.inUse mem) :
    TableLayout d (mem.zero c) ∧ d.managed (mem.zero c) = d.managed mem ∧
      d.fixedTables (mem.zero c) = d.fixedTables mem := by
  refine h.outside fun t ht i => zero_of_ne mem ?_ i
  rintro rfl
  exact hc ht

section

variable (ha : (r, q ++ [i]) ∈ d.addrs 3) (hw : walk (link mem) r q = some t)
include ha hw

/-- Hanging an empty table into a slot. -/
lemma graft (habs : (mem t i).testBit ptePresent = false)
    (hc : c ∉ d.inUse mem) (hempty : ∀ j, mem c j = 0) (hlink : linkOf w = some c) :
    TableLayout d (mem.set t i w) ∧ d.managed (mem.set t i w) = insert c (d.managed mem) ∧
      d.fixedTables (mem.set t i w) = d.fixedTables mem := by
  have hfixed := h.fixedTables_set (addrs_deeper ha) hw w
  obtain ⟨hforest, hmanaged⟩ := h.forest.graft ha hw (fun hin => hc (.inl hin))
    (fun j _ => by simp [link, hempty j, linkOf]) (linkOf_of_absent habs)
  rw [← hlink, ← link_set] at hforest hmanaged
  refine ⟨⟨hforest, fun t' ht' => ?_, h.top_set t i fun _ => (linkOf_eq_some hlink).2.1⟩, hmanaged,
    hfixed⟩
  rw [hfixed]
  rcases hmanaged.subset ht' with rfl | hold
  · exact fun hin => hc (.inr hin)
  · exact h.fixed t' hold

/-- Taking an empty table out of its slot. -/
lemma prune (hlink : link mem t i = some c) (hempty : ∀ j, (mem c j).testBit ptePresent = false) :
    TableLayout d (mem.set t i 0) ∧ d.managed (mem.set t i 0) = d.managed mem \ {c} ∧
      d.fixedTables (mem.set t i 0) = d.fixedTables mem := by
  have hfixed := h.fixedTables_set (addrs_deeper ha) hw 0
  obtain ⟨hforest, hmanaged⟩ := h.forest.prune ha hw hlink fun j _ => linkOf_of_absent (hempty j)
  rw [show none = linkOf 0 by simp [linkOf], ← link_set] at hforest hmanaged
  refine ⟨⟨hforest, fun t' ht' => ?_, h.top_set t i (by simp)⟩, hmanaged, hfixed⟩
  rw [hfixed]
  exact h.fixed t' (hmanaged.subset ht').1

end

/-- A store that leaves the link of a slot as it is. -/
lemma relink (ha : (r, q ++ [i]) ∈ d.addrs 4)
    (hw : walk (link mem) r q = some t) (hlink : linkOf w = link mem t i)
    (hhuge : w.testBit ptePresent = true → w.testBit pteHuge = false) :
    TableLayout d (mem.set t i w) ∧ d.managed (mem.set t i w) = d.managed mem ∧
      d.fixedTables (mem.set t i w) = d.fixedTables mem := by
  have hfixed := h.fixedTables_set ha hw w
  have hsame : link (mem.set t i w) = link mem := by
    rw [link_set, hlink]
    exact setLink_eq_self _ t i
  have hmanaged : d.managed (mem.set t i w) = d.managed mem := by
    unfold managed
    rw [hsame]
  refine ⟨⟨hsame ▸ h.forest, fun t' ht' => ?_, h.top_set t i hhuge⟩, hmanaged, hfixed⟩
  rw [hfixed]
  exact h.fixed t' (hmanaged.subset ht')

/-- Any store to the slot of a page. -/
lemma leaf (ha : (r, q ++ [i]) ∈ d.addrs 4) (hq : q.length = 3)
    (hw : walk (link mem) r q = some t) (w : ℕ) :
    TableLayout d (mem.set t i w) ∧ d.managed (mem.set t i w) = d.managed mem ∧
      d.fixedTables (mem.set t i w) = d.fixedTables mem := by
  have hfixed := h.fixedTables_set ha hw w
  have hleaf : (r, q ++ [i]) ∉ d.addrs 3 := fun hin => by
    have hlen := (mem_addrs.mp hin).2.1
    rw [List.length_append, List.length_singleton] at hlen
    omega
  obtain ⟨hforest, hmanaged⟩ := h.forest.leaf (o := linkOf w) (addrs_of_slot ha) hw hleaf
  rw [← link_set] at hforest hmanaged
  refine ⟨⟨hforest, fun t' ht' => ?_, fun r' i' hr hi hp => ?_⟩, hmanaged, hfixed⟩
  · rw [hfixed]
    exact h.fixed t' (hmanaged.subset ht')
  · -- the slot of a page is not at the top
    have hne : ¬ (r' = t ∧ i' = i) := by
      rintro ⟨rfl, -⟩
      obtain ⟨-, rfl⟩ := h.unique (addrs_of_slot ha) hw (.inl (root_mem_addrs hr 3)) rfl
      cases hq
    rw [set_of_ne mem w hne] at hp ⊢
    exact h.top r' i' hr hi hp

/-- A new root with nothing behind its slots. -/
lemma addRoot (hc : c ∉ d.inUse mem) (hfix : c ∉ d.fixed)
    (hempty : ∀ i ∈ d.slots c, (mem c i).testBit ptePresent = false) :
    TableLayout (d.withRoots (insert c d.roots)) mem ∧
      (d.withRoots (insert c d.roots)).managed mem = insert c (d.managed mem) ∧
      (d.withRoots (insert c d.roots)).fixedTables mem = d.fixedTables mem := by
  have haddrs : (d.withRoots (insert c d.roots)).fixedAddrs = d.fixedAddrs := by
    ext a
    refine ⟨fun ⟨hr, hrest⟩ => ⟨hr.resolve_left ?_, hrest⟩, fun ⟨hr, hrest⟩ => ⟨.inr hr, hrest⟩⟩
    rintro heq
    exact hfix (heq ▸ hrest.1)
  have hfixed : (d.withRoots (insert c d.roots)).fixedTables mem = d.fixedTables mem := by
    unfold fixedTables
    rw [haddrs]
  obtain ⟨hforest, hmanaged⟩ := h.forest.addRoot (fun hin => hc (.inl hin))
    (fun _ _ _ => addrs_closed) (root_mem_addrs (d := d.withRoots (insert c d.roots)) (.inl rfl) 3)
    addrs_insertRoot fun p hp hne =>
      walk_of_empty (d := d.withRoots (insert c d.roots)) hempty hp hne
  refine ⟨⟨hforest, fun t ht => ?_, fun r i hr hi hp => ?_⟩, hmanaged, hfixed⟩
  · rw [hfixed]
    rcases hmanaged.subset ht with rfl | ht
    · exact fun hin => hc (.inr hin)
    · exact h.fixed t ht
  · rcases hr with rfl | hr
    · rw [hempty i (hi.resolve_right hfix)] at hp
      cases hp
    · exact h.top r i hr hi hp

/-- A root with nothing behind its slots is forgotten. -/
lemma removeRoot (hr : r ∈ d.roots) (hfix : r ∉ d.fixed)
    (hempty : ∀ i ∈ d.slots r, (mem r i).testBit ptePresent = false) :
    TableLayout (d.withRoots (d.roots \ {r})) mem ∧
      (d.withRoots (d.roots \ {r})).managed mem = d.managed mem \ {r} ∧
      (d.withRoots (d.roots \ {r})).fixedTables mem = d.fixedTables mem := by
  have haddrs : (d.withRoots (d.roots \ {r})).fixedAddrs = d.fixedAddrs := by
    ext a
    refine ⟨fun ⟨hr, hrest⟩ => ⟨hr.1, hrest⟩, fun ⟨hr, hrest⟩ => ⟨⟨hr, ?_⟩, hrest⟩⟩
    rintro heq
    exact hfix (heq ▸ hrest.1)
  have hfixed : (d.withRoots (d.roots \ {r})).fixedTables mem = d.fixedTables mem := by
    unfold fixedTables
    rw [haddrs]
  obtain ⟨hforest, hmanaged⟩ := h.forest.dropRoot (fun _ _ _ => addrs_closed) (root_mem_addrs hr 3)
    addrs_removeRoot fun p hp hne => walk_of_empty hempty hp hne
  refine ⟨⟨hforest, fun t ht => ?_, fun r' i hr' hi hp => h.top r' i hr'.1 hi hp⟩, hmanaged, hfixed⟩
  rw [hfixed]
  exact h.fixed t (hmanaged.subset ht).1

/-! ### Above an edit -/

/-- A store does not change the way to tables that are not behind its slot. -/
lemma walk_set (ha : (r, q ++ [i]) ∈ d.addrs 4)
    (hw : walk (link mem) r q = some t) (w : ℕ) (hb : (r', p) ∈ d.addrs 3)
    (hoff : ¬ (r' = r ∧ q ++ [i] <+: p)) :
    walk (link (mem.set t i w)) r' p = walk (link mem) r' p := by
  rw [link_set]
  exact h.forest.walk_setLink_off (addrs_of_slot ha) hw hb hoff

/-- A store changes no entry of a table at another address. -/
lemma entries_set (ha : (r, q) ∈ d.addrs 3) (hw : walk (link mem) r q = some t) (w : ℕ) {t' : ℕ}
    (hb : (r', p) ∈ d.addrs 3) (hw' : walk (link mem) r' p = some t') (hne : ¬ (r' = r ∧ p = q))
    (k : Index) : mem.set t i w t' k = mem t' k := by
  refine set_of_ne mem w ?_
  rintro ⟨rfl, -⟩
  exact hne (h.unique ha hw (.inl hb) hw')

end

end TableLayout

/-- The tables passed on the way to the address `q` are the same in both memories. -/
def SameAbove (mem mem' : PhysMem) (r : ℕ) (q : List Index) : Prop :=
  ∀ p, p <+: q → p.length < q.length → walk (link mem') r p = walk (link mem) r p ∧
    ∀ t, walk (link mem) r p = some t → ∀ k, mem' t k = mem t k

namespace SameAbove

variable {d : Domain} {mem mem' mem'' : PhysMem} {r t : ℕ} {q : List Index} {i : Index}

section

variable (h : SameAbove mem mem' r q)
include h

lemma trans (h' : SameAbove mem' mem'' r q) : SameAbove mem mem'' r q := by
  intro p hp hlen
  obtain ⟨hw, he⟩ := h p hp hlen
  obtain ⟨hw', he'⟩ := h' p hp hlen
  refine ⟨hw'.trans hw, fun t ht k => ?_⟩
  rw [he' t (hw.trans ht) k, he t ht k]

/-- What is the same above an address is so above a shorter one. -/
lemma shorten {q' : List Index} (hq : q' <+: q) : SameAbove mem mem' r q' :=
  fun p hp hlen => h p (hp.trans hq) (hlen.trans_le hq.length_le)

/-- The way to the address is the same. -/
lemma walk_eq : walk (link mem') r q = walk (link mem) r q := by
  refine walk_congr fun p k t hpre hw => ?_
  have hlen := hpre.length_le
  rw [List.length_append, List.length_singleton] at hlen
  have he := (h p ((List.prefix_append p [k]).trans hpre) (by omega)).2 t hw k
  rw [link, link, he]

end

/-- A store below the tables passed. -/
lemma set (h : TableLayout d mem) (ha : (r, q ++ [i]) ∈ d.addrs 4)
    (hw : walk (link mem) r q = some t) (w : ℕ) : SameAbove mem (mem.set t i w) r q := by
  intro p hp hlen
  have haq := addrs_of_slot ha
  have hb : (r, p) ∈ d.addrs 3 := by
    obtain ⟨s, rfl⟩ := hp
    exact h.forest.closed_append haq
  refine ⟨h.walk_set ha hw w hb ?_, fun t' ht' k => h.entries_set haq hw w hb ht' ?_ k⟩
  · rintro ⟨-, hpre⟩
    have hle := hpre.length_le
    rw [List.length_append] at hle
    omega
  · rintro ⟨-, rfl⟩
    exact lt_irrefl _ hlen

/-- Clearing a page that is not in use. -/
lemma zero (h : TableLayout d mem) (ha : (r, q) ∈ d.addrs 3) {c : ℕ} (hc : c ∉ d.inUse mem) :
    SameAbove mem (mem.zero c) r q := by
  have hne : ∀ p t, p <+: q → walk (link mem) r p = some t → t ≠ c := by
    rintro p t ⟨s, rfl⟩ hw rfl
    exact hc (.inl (mem_tables (h.forest.closed_append ha) hw))
  refine fun p hp _ => ⟨walk_congr fun p' k t hpre hw => link_zero mem ?_ k,
    fun t ht k => zero_of_ne mem (hne p t hp ht) k⟩
  exact hne p' t ((List.prefix_append p' [k]).trans (hpre.trans hp)) hw

end SameAbove

end Northstar
