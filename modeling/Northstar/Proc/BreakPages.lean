import Northstar.Mm.VmmConserve
import Northstar.Proc.Break

/-! # The pages of an owned space

The program break is modelled over a map from page numbers to the contents of pages (`Break`). Here
that map is read off the page tables: `pagesOf` follows the tables of an owned space to the frame of
each page of the lower half. Steps on the tables do not show in it (`Accounted.samePages_shape`),
and mapping or unmapping a page changes it for that page only. So `ns_vmm_alloc_map` and
`ns_vmm_unmap_range` do to the page tables what `allocMap` and `unmapRange` do to the map
(`nsVmmAllocMap_refines`, `nsVmmUnmapRange_refines`), and `ns_proc_runtime_adjust_break` does what
`adjustBreak` does. How far the frames last is what `available` stands for. -/

namespace Northstar

open Domain Function

/-- The contents of the pages of the lower half under the root `r`, by page number. -/
def pagesOf (mem : PhysMem) (r q : ℕ) : Option (Index → ℕ) :=
  if q * nsPageSize < nsVmmUserTop then (walk (link mem) r (pathFrom (q * nsPageSize) 4)).map mem
  else none

/-- The pages under the roots `live` have the frames they had, with the same contents. -/
def SamePages (live : Set ℕ) (mem mem' : PhysMem) : Prop :=
  ∀ r p, (r, p) ∈ (ownedDomain live).addrs 4 → p.length = 4 →
    (walk (link mem') r p).map mem' = (walk (link mem) r p).map mem

section

variable {s₀ : Vmm} {live : Set ℕ} {s s' : Vmm} {pend : Set ℕ} {mem mem' : PhysMem} {r t q : ℕ}
  {p : List Index} {i : Index}

/-- A page of the user half has its place in the tree of its space. -/
lemma page_addr (hr : r ∈ live) (hq : q * nsPageSize < nsVmmUserTop) :
    (r, pathFrom (q * nsPageSize) 4) ∈ (ownedDomain live).addrs 4 := leaf_addr hr (lower_slot hq)

/-- Different pages have different paths. -/
lemma page_path_inj {q' : ℕ} (hq : q * nsPageSize < nsVmmUserTop)
    (hq' : q' * nsPageSize < nsVmmUserTop)
    (h : pathFrom (q' * nsPageSize) 4 = pathFrom (q * nsPageSize) 4) : q' = q := by
  have heq := pathFrom_inj (Nat.mul_mod_left q' nsPageSize) (Nat.mul_mod_left q nsPageSize)
    (hq'.trans (by decide)) (hq.trans (by decide)) h
  exact Nat.eq_of_mul_eq_mul_right (by decide) heq

/-! ### Steps on tables -/

/-- Spaces with the same pages show the same pages. -/
lemma SamePages.pagesOf (h : SamePages live mem mem') (hr : r ∈ live) :
    pagesOf mem' r = pagesOf mem r := by
  funext q
  unfold Northstar.pagesOf
  split_ifs with hq
  · exact h r _ (page_addr hr hq) (length_pathFrom _ 4)
  · rfl

/-- Pages are the same if their paths lead to the same frames and these keep their contents. -/
lemma SamePages.of_walk
    (hwalk : ∀ r p, (r, p) ∈ (ownedDomain live).addrs 4 → p.length = 4 →
      ∀ f, walk (link mem') r p = some f ↔ walk (link mem) r p = some f)
    (hmem : ∀ r p f, (r, p) ∈ (ownedDomain live).addrs 4 → p.length = 4 →
      walk (link mem) r p = some f → mem' f = mem f) : SamePages live mem mem' := by
  intro r p ha hp
  rw [Option.ext (hwalk r p ha hp)]
  cases hw : walk (link mem) r p with
  | none => rfl
  | some f => exact congrArg some (hmem r p f ha hp hw)

section

variable (h : Accounted s₀ live (s, pend))
include h

/-- A store to a table does not change the contents of a page. -/
lemma Accounted.frame_set (ha : (r, p) ∈ (ownedDomain live).addrs 3)
    (hw : walk (link s.mem) r p = some t) (w : ℕ) {r' f : ℕ} {p' : List Index}
    (hb : (r', p') ∈ (ownedDomain live).addrs 4) (hp : p'.length = 4)
    (hf : walk (link s.mem) r' p' = some f) : s.mem.set t i w f = s.mem f := by
  funext k
  refine set_of_ne _ _ ?_
  rintro ⟨rfl, -⟩
  exact h.page_not_managed hb hp hf (.inl (mem_tables ha hw))

/-- Clearing a page that holds no table does not move tables or pages. -/
lemma Accounted.walk_zero {c : ℕ} (hc : c ∉ (ownedDomain live).inUse s.mem)
    (hb : (r, p) ∈ (ownedDomain live).addrs 4) :
    walk (link (s.mem.zero c)) r p = walk (link s.mem) r p := by
  refine h.forest.walk_congr (fun r' p' k t' ha hw => link_zero s.mem ?_ k) hb
  rintro rfl
  exact hc (.inl (mem_tables (addrs_of_slot ha) hw))

end

/-- Steps on tables do not show in the pages. -/
lemma Accounted.samePages_shape {j : Index} {keep : Prop} {x y : Vmm × Set ℕ}
    (h : Accounted s₀ live x) (st : Shape (ownedDomain live) r j keep x y) :
    SamePages live x.1.mem y.1.mem := by
  cases st with
  | alloc | giveBack => exact fun _ _ _ _ => rfl
  | @zero s pend c hc =>
    refine .of_walk (fun r p ha _ f => ?_) fun r p f ha _ hf => funext (zero_of_ne s.mem ?_)
    · exact (h.walk_zero (h.tables.pending c hc).1 ha).congr_left
    · rintro rfl
      exact h.apart f hc (mem_tables ha hf)
  | @graft s pend q i t c ha hj hkeep hw habs hc hempty hp =>
    refine .of_walk (fun r' p hb hlen f => ?_)
      fun r' p f hb hlen hf => h.frame_set (addrs_closed ha) hw _ hb hlen hf
    have hlink := linkOf_linkWord (h.tables.pending c hc).2.2
    rw [Vmm.store_mem, link_set, hlink, h.forest.walk_graft (addrs_deeper ha) hw (h.apart c hc)
      (fun k _ => by simp [link, hempty k, linkOf]) (linkOf_of_absent habs) hb]
    refine or_iff_right ?_
    rintro ⟨-, rfl, -⟩
    have hle := (mem_addrs.mp ha).2.1
    omega
  | @widen s pend q i t c ha hj hkeep hw hl =>
    refine .of_walk (fun r' p hb hlen f => ?_)
      fun r' p f hb hlen hf => h.frame_set (addrs_closed ha) hw _ hb hlen hf
    have hsame : setLink (link s.mem) t i (some c) = link s.mem := by
      rw [← hl]
      exact setLink_eq_self _ t i
    rw [Vmm.store_mem, link_set, linkOf_widen hl, hsame]
  | @prune s pend q i t c ha hj hkeep hw hl hempty =>
    refine .of_walk (fun r' p hb hlen f => ?_)
      fun r' p f hb hlen hf => h.frame_set (addrs_closed ha) hw _ hb hlen hf
    have hzero : linkOf 0 = none := by simp [linkOf]
    rw [Vmm.store_mem, link_set, hzero, h.forest.walk_prune (addrs_deeper ha) hw hl
      (fun k _ => linkOf_of_absent (hempty k)) hb]
    refine and_iff_left ?_
    rintro ⟨-, rfl⟩
    have hle := (mem_addrs.mp ha).2.1
    omega

/-- The accounting with the pages of one space is an invariant of the steps. -/
lemma Accounted.keepsPages (h₀ : s₀.pmm.Sound) (hr : r ∈ live) (j : Index) (keep : Prop)
    (pages : ℕ → Option (Index → ℕ)) :
    Keeps (ownedDomain live) r j keep
      (fun x => Accounted s₀ live x ∧ pagesOf x.1.mem r = pages) :=
  ⟨fun _ h => h.1.tables, fun _ _ h st =>
    ⟨h.1.shape h₀ st, ((h.1.samePages_shape st).pagesOf hr).trans h.2⟩⟩

/-! ### One page -/

/-- A page whose slot is empty is not mapped. -/
lemma pagesOf_absent (hq : q * nsPageSize < nsVmmUserTop)
    (hw : walk (link s.mem) r (pathUp (q * nsPageSize)) = some t)
    (habs : (s.mem t (tableIndex (q * nsPageSize) 1)).testBit ptePresent = false) :
    pagesOf s.mem r q = none := by
  unfold pagesOf
  rw [if_pos hq, pathFrom_eq, walk_concat, hw, Option.bind_some, link, linkOf_of_absent habs]
  rfl

section

variable (h : Accounted s₀ live (s, pend)) (hr : r ∈ live) (hq : q * nsPageSize < nsVmmUserTop)
include h hr hq

/-- Once a path leads to other frames for one page only, that page is all that changes. -/
lemma Accounted.pagesOf_update {w : ℕ}
    (hw : walk (link s.mem) r (pathUp (q * nsPageSize)) = some t)
    (hmem : mem' = s.mem.set t (tableIndex (q * nsPageSize) 1) w)
    (hother : ∀ p f, (r, p) ∈ (ownedDomain live).addrs 4 → p ≠ pathFrom (q * nsPageSize) 4 →
      (walk (link mem') r p = some f ↔ walk (link s.mem) r p = some f)) :
    pagesOf mem' r = update (pagesOf s.mem r) q (pagesOf mem' r q) := by
  funext q'
  rcases eq_or_ne q' q with rfl | hne
  · rw [update_self]
  rw [update_of_ne hne]
  unfold pagesOf
  split_ifs with hq'
  · have ha := page_addr hr hq'
    rw [Option.ext fun f => hother _ f ha fun heq => hne (page_path_inj hq hq' heq)]
    cases hf : walk (link s.mem) r (pathFrom (q' * nsPageSize) 4) with
    | none => rfl
    | some f =>
      rw [Option.map_some, Option.map_some, hmem,
        h.frame_set (addrs_of_slot (page_addr hr hq)) hw w ha (length_pathFrom _ 4) hf]
  · rfl

/-- Clearing the slot of a page takes the page away. -/
lemma Accounted.pagesOf_clear (hleaf : LeafAt s.mem r (q * nsPageSize) t) :
    pagesOf (s.mem.set t (tableIndex (q * nsPageSize) 1) 0) r =
      update (pagesOf s.mem r) q none := by
  have ha := page_addr hr hq
  have hzero : linkOf 0 = none := by simp [linkOf]
  have hview : ∀ p f, (r, p) ∈ (ownedDomain live).addrs 4 →
      (walk (link (s.mem.set t (tableIndex (q * nsPageSize) 1) 0)) r p = some f ↔
        walk (link s.mem) r p = some f ∧ ¬ (r = r ∧ p = pathFrom (q * nsPageSize) 4)) := by
    intro p f hb
    rw [link_set, hzero]
    refine h.forest.walk_prune ha hleaf.walk (h.leafAt ha rfl hleaf.walk hleaf.present).1
      (fun k hk => ?_) hb
    have hlen := hk.2.1
    simp at hlen
  have hgone : pagesOf (s.mem.set t (tableIndex (q * nsPageSize) 1) 0) r q = none := by
    unfold pagesOf
    rw [if_pos hq, Option.map_eq_none_iff, Option.eq_none_iff_forall_ne_some]
    exact fun f hf => ((hview _ f ha).mp hf).2 ⟨rfl, rfl⟩
  rw [h.pagesOf_update hr hq hleaf.walk rfl fun p f hb hne =>
    (hview p f hb).trans (and_iff_left fun heq => hne heq.2), hgone]

/-- Filling the empty slot of a page adds the page. -/
lemma Accounted.pagesOf_fill {phys : ℕ} (flags : ℕ) (hphys : phys ∈ pend)
    (hw : walk (link s.mem) r (pathUp (q * nsPageSize)) = some t)
    (habs : (s.mem t (tableIndex (q * nsPageSize) 1)).testBit ptePresent = false) :
    pagesOf (s.mem.set t (tableIndex (q * nsPageSize) 1) (entryFromFlags phys flags)) r =
      update (pagesOf s.mem r) q (pagesOf
        (s.mem.set t (tableIndex (q * nsPageSize) 1) (entryFromFlags phys flags)) r q) := by
  refine h.pagesOf_update hr hq hw rfl fun p f hb hne => ?_
  rw [link_set, linkOf_entryFromFlags, (h.tables.pending phys hphys).2.2,
    h.forest.walk_graft (page_addr hr hq) hw (h.apart phys hphys) (fun k hk => ?_)
      (linkOf_of_absent habs) hb]
  · exact or_iff_right fun heq => hne heq.2.1
  · have hlen := hk.2.1
    simp at hlen

/-- Clearing the frame of a page makes the page zero. -/
lemma Accounted.pagesOf_zero {c : ℕ}
    (hc : walk (link s.mem) r (pathFrom (q * nsPageSize) 4) = some c) :
    pagesOf (s.mem.zero c) r = update (pagesOf s.mem r) q (some fun _ => 0) := by
  have ha := page_addr hr hq
  have hout := h.page_not_managed ha (length_pathFrom _ 4) hc
  funext q'
  rcases eq_or_ne q' q with rfl | hne
  · rw [update_self, pagesOf, if_pos hq, h.walk_zero hout ha, hc]
    exact congrArg some (funext (zero_self s.mem c))
  rw [update_of_ne hne]
  unfold pagesOf
  split_ifs with hq'
  · have hb := page_addr hr hq'
    rw [h.walk_zero hout hb]
    cases hf : walk (link s.mem) r (pathFrom (q' * nsPageSize) 4) with
    | none => rfl
    | some f =>
      refine congrArg some (funext (zero_of_ne s.mem ?_))
      -- a frame is behind one page only
      rintro rfl
      exact hne (page_path_inj hq hq' (Prod.mk.inj (h.forest.inj _ hb _ ha f hf hc)).2)
  · rfl

end

/-! ### Unmapping -/

/-- A valid range that ends in the lower half is a number of pages there. -/
lemma validatePageRange_pages {virt length finish : ℕ} (hlow : virt + length ≤ nsVmmUserTop)
    (h : validatePageRange virt length = some finish) :
    ∃ first count, virt = first * nsPageSize ∧ virt / nsPageSize = first ∧
      (finish - virt) / nsPageSize = count ∧ (first + count) * nsPageSize ≤ nsVmmUserTop := by
  obtain ⟨hmod, -, -, rfl, -⟩ := validatePageRange_some h
  refine ⟨virt / nsPageSize, _, ?_, rfl, rfl, ?_⟩ <;> unfold nsPageSize nsVmmUserTop at * <;> omega

/-- Where no table is out of reach and no entry huge, `walk_leaf` fails only on a page that is not
mapped. -/
lemma walkLeafFrom_error {config : VmmConfig} {virt level table : ℕ} {passed : List (ℕ × Index)}
    {e : VmmError}
    (hgood : ∀ p i t, p ++ [i] <+: pathFrom virt (level + 1) → walk (link mem) table p = some t →
      (mem t i).testBit ptePresent = true → (mem t i).testBit pteHuge = false ∧
        (p.length < level → tablePointer config (mem t i &&& pteAddr) = true))
    (herr : walkLeafFrom config mem virt level table passed = .error e) :
    e = .enoent ∧ walk (link mem) table (pathFrom virt (level + 1)) = none := by
  induction level generalizing table passed with
  | zero =>
    simp only [walkLeafFrom] at herr
    split_ifs at herr with hp
    obtain rfl := Except.error.inj herr
    exact ⟨rfl, by rw [pathFrom, walk_cons, link, linkOf_of_absent hp]; rfl⟩
  | succ level ih =>
    have hhere := hgood [] (tableIndex virt (level + 2)) table ⟨_, rfl⟩ rfl
    simp only [walkLeafFrom] at herr
    rw [pathFrom, walk_cons]
    split_ifs at herr with hp hh hptr
    · obtain rfl := Except.error.inj herr
      exact ⟨rfl, by rw [link, linkOf_of_absent hp]; rfl⟩
    · rw [(hhere (by simpa using hp)).1] at hh
      cases hh
    · rw [(hhere (by simpa using hp)).2 (by simp)] at hptr
      cases hptr
    · have hl : link mem table (tableIndex virt (level + 2)) =
          some (mem table (tableIndex virt (level + 2)) &&& pteAddr) :=
        linkOf_of_link (by simpa using hp) (by simpa using hh)
      rw [hl, Option.bind_some]
      refine ih (fun p i t hpre hw hpres => ?_) herr
      obtain ⟨hhuge, hreach⟩ := hgood (tableIndex virt (level + 2) :: p) i t
        (List.cons_prefix_cons.mpr ⟨rfl, hpre⟩) (by rw [walk_cons, hl]; exact hw) hpres
      exact ⟨hhuge, fun hlt => hreach (by simpa using hlt)⟩

section

variable (h₀ : s₀.pmm.Sound) (h : Accounted s₀ live (s, pend)) (hr : r ∈ live)
include h hr

/-- `ns_vmm_unmap` on a page of the lower half fails only if the page is not mapped. -/
lemma Accounted.unmap_error (hq : q * nsPageSize < nsVmmUserTop) :
    Sat (nsVmmUnmap ⟨r, true⟩ (q * nsPageSize) true) s (fun _ _ => True)
      (fun e _ => e = .enoent ∧ pagesOf s.mem r q = none) := by
  have hcan : canonicalAddress (q * nsPageSize) = true := by simp [canonicalAddress, hq]
  have hroot : tablePointer s.config r = true :=
    h.tables.reached r (root_mem_managed (d := ownedDomain live) hr s.mem)
  simp only [nsVmmUnmap, unmapUnlocked, sat_bind, sat_get, sat_require, sat_liftExcept, sat_modify]
  refine ⟨fun _ => ⟨fun _ => ⟨fun _ _ => trivial, fun e herr => ?_⟩, fun hno => ?_⟩, fun hno => ?_⟩
  · unfold walkLeaf at herr
    rw [if_neg (by simp [hroot])] at herr
    have haddr := fun {n : ℕ} {p : List Index} => addr_of_path (d := ownedDomain live) (n := n)
      (q := p) hr (lower_slot hq)
    obtain ⟨rfl, hnone⟩ := walkLeafFrom_error (e := e) (fun p i t hpre hw hp => by
      have hhuge := (h.leaves r p i t (haddr hpre (by simpa using hpre.length_le)) hw hp).1
      refine ⟨hhuge, fun hlt => h.tables.reached _
        (mem_tables (haddr hpre (by simpa using hlt)) ?_)⟩
      rw [walk_concat, hw]
      exact linkOf_of_link hp hhuge) herr
    refine ⟨rfl, ?_⟩
    rw [pagesOf, if_pos hq, hnone]
    rfl
  · have hge := (not_not.mp hno).2
    unfold nsVmmUserTop kernelHalfBase at *
    omega
  · exact absurd ⟨h.tables.ready, Nat.mul_mod_left q nsPageSize, hcan⟩ hno

include h₀

/-- `ns_vmm_unmap` takes a page away, whether it was mapped or not. -/
lemma Accounted.unmap_pages (hq : q * nsPageSize < nsVmmUserTop) :
    Sat (nsVmmUnmap ⟨r, true⟩ (q * nsPageSize) true) s
      (fun _ s' => Accounted s₀ live (s', pend) ∧
        pagesOf s'.mem r = update (pagesOf s.mem r) q none)
      (fun e s' => e = .enoent ∧ Accounted s₀ live (s', pend) ∧
        pagesOf s'.mem r = update (pagesOf s.mem r) q none) := by
  have htop := lower_slot hq
  have hclear := fun t hleaf => h.clearPage h₀ hr htop (t := t) hleaf
  refine ((h.unmap_error hr hq).and (nsVmmUnmap_spec (d := ownedDomain live) hr rfl (fun _ => htop)
    h.tables.layout fun _ t hleaf => (hclear t hleaf).tables)).mono ?_ ?_
  · rintro u s' ⟨-, -, t, hleaf, hsteps⟩
    refine (Accounted.keepsPages h₀ hr _ False _).run ⟨hclear t hleaf, ?_⟩
      ((hclear t hleaf).tables.shapes_of_reclaims hsteps)
    rw [clearPage_mem]
    exact h.pagesOf_clear hr hq hleaf
  · rintro e s' ⟨⟨rfl, hnone⟩, rfl⟩
    exact ⟨rfl, h, by rw [← hnone, update_eq_self]⟩

/-- The loop of `ns_vmm_unmap_range`, which meets no error. -/
lemma Accounted.unmapPages_pages {count first : ℕ}
    (hlow : (first + count) * nsPageSize ≤ nsVmmUserTop) :
    Sat (Northstar.unmapPages ⟨r, true⟩ true count (first * nsPageSize) none) s
      (fun e s' => e = none ∧ Accounted s₀ live (s', pend) ∧
        pagesOf s'.mem r = unmapLoop count first (pagesOf s.mem r))
      (fun _ _ => False) := by
  induction count generalizing s first with
  | zero => exact ⟨rfl, h, rfl⟩
  | succ count ih =>
    have hnext : first * nsPageSize + nsPageSize = (first + 1) * nsPageSize := by ring
    have hq : first * nsPageSize < nsVmmUserTop := by
      unfold nsPageSize nsVmmUserTop at hlow ⊢
      omega
    have hlow' : (first + 1 + count) * nsPageSize ≤ nsVmmUserTop :=
      (Nat.mul_le_mul_right nsPageSize (by omega)).trans hlow
    simp only [Northstar.unmapPages, sat_bind, sat_observe, unmapLoop, hnext]
    refine (h.unmap_pages h₀ hr hq).mono (fun _ s' h' => ?_) fun e s' h' => ?_
    · obtain ⟨hacc, hpages⟩ := h'
      rw [← hpages]
      exact ih hacc hlow'
    · obtain ⟨rfl, hacc, hpages⟩ := h'
      rw [← hpages]
      exact ih hacc hlow'

/-- `ns_vmm_unmap_range` on the page tables is `unmapRange` on the pages. -/
lemma nsVmmUnmapRange_refines {virt length : ℕ} (hlow : virt + length ≤ nsVmmUserTop) :
    Sat (nsVmmUnmapRange ⟨r, true⟩ virt length true) s
      (fun _ s' => Accounted s₀ live (s', pend) ∧
        unmapRange virt length (pagesOf s.mem r) = (true, pagesOf s'.mem r))
      (fun _ s' => Accounted s₀ live (s', pend) ∧
        unmapRange virt length (pagesOf s.mem r) = (false, pagesOf s'.mem r)) := by
  simp only [nsVmmUnmapRange, unmapRange, sat_ite, sat_pure]
  refine ⟨fun hzero => ⟨h, by rw [if_pos hzero]⟩, fun hpos => ?_⟩
  rw [if_neg hpos]
  cases hrange : validatePageRange virt length with
  | none => exact ⟨h, rfl⟩
  | some finish =>
    obtain ⟨first, count, rfl, hfirst, hcount, hend⟩ := validatePageRange_pages hlow hrange
    dsimp only
    rw [sat_bind, hfirst, hcount]
    refine (h.unmapPages_pages h₀ hr hend).mono ?_ fun _ _ hfalse => hfalse.elim
    rintro e s' ⟨rfl, hacc, hpages⟩
    exact ⟨hacc, by rw [hpages]⟩

end

/-! ### Mapping -/

/-- The loop of `ns_vmm_alloc_map` comes to the result `r`, if the pages in front of some page can
be mapped. -/
def Allocates (first count done : ℕ) (pages : ℕ → Option (Index → ℕ))
    (r : Bool × (ℕ → Option (Index → ℕ))) : Prop :=
  ∃ bound, first + done ≤ bound ∧
    allocLoop (fun _ => 0) (fun q => decide (q < bound)) first count done pages = r

/-- The next page cannot be mapped. -/
lemma Allocates.stop (first count done : ℕ) (pages : ℕ → Option (Index → ℕ)) :
    Allocates first (count + 1) done pages (false, unmapLoop done first pages) :=
  ⟨first + done, le_rfl, by rw [allocLoop, if_neg (by simp)]⟩

/-- The next page can be mapped, and was not mapped before. -/
lemma Allocates.next {first count done : ℕ} {pages : ℕ → Option (Index → ℕ)}
    {r : Bool × (ℕ → Option (Index → ℕ))} (hnone : pages (first + done) = none)
    (h : Allocates first count (done + 1) (update pages (first + done) (some fun _ => 0)) r) :
    Allocates first (count + 1) done pages r := by
  obtain ⟨bound, hbound, hres⟩ := h
  refine ⟨bound, by omega, ?_⟩
  rw [allocLoop, if_pos ⟨decide_eq_true (by omega), hnone⟩]
  exact hres

section

variable (h₀ : s₀.pmm.Sound) (hr : r ∈ live)
include h₀ hr

/-- `ns_vmm_map` adds a page that was not mapped, or it changes no page. -/
lemma Accounted.map_pages (h : Accounted s₀ live (s, pend)) (hq : q * nsPageSize < nsVmmUserTop)
    {phys flags : ℕ} (hphys : phys ∈ pend) (hown : flags.testBit pageOwned = true) :
    Sat (nsVmmMap ⟨r, true⟩ (q * nsPageSize) phys flags) s
      (fun _ s' => Accounted s₀ live (s', pend \ {phys}) ∧ pagesOf s.mem r q = none ∧
        pagesOf s'.mem r = update (pagesOf s.mem r) q (pagesOf s'.mem r q) ∧
        walk (link s'.mem) r (pathFrom (q * nsPageSize) 4) = some phys)
      (fun _ s' => Accounted s₀ live (s', pend) ∧ pagesOf s'.mem r = pagesOf s.mem r) := by
  have hk := Accounted.keepsPages h₀ hr (tableIndex (q * nsPageSize) 4) False (pagesOf s.mem r)
  refine (nsVmmMap_spec hk hr rfl (fun _ => lower_slot hq) ⟨h, rfl⟩ False.elim).mono ?_ ?_
  · rintro u s' ⟨-, s₁, t, hmapped⟩
    obtain ⟨hres, hframe⟩ := h.mapped h₀ hr (lower_slot hq) hphys hown hmapped
    obtain ⟨h₁, hpages⟩ := hk.run ⟨h, rfl⟩ hmapped.shapes
    have hfill := h₁.pagesOf_fill hr hq flags hphys hmapped.walk hmapped.absent
    have habs := pagesOf_absent hq hmapped.walk hmapped.absent
    rw [← Vmm.store_mem, ← Vmm.invalidate_mem, ← hmapped.result, hpages] at hfill
    rw [hpages] at habs
    exact ⟨hres, habs, hfill, hframe⟩
  · rintro e s' (rfl | ⟨-, hsteps⟩)
    · exact ⟨h, rfl⟩
    · exact hk.run ⟨h, rfl⟩ hsteps

/-- The rollback of `ns_vmm_alloc_map` over the pages done. -/
lemma Accounted.rollback_pages (h : Accounted s₀ live (s, pend)) {first done : ℕ}
    (hlow : (first + done) * nsPageSize ≤ nsVmmUserTop) :
    Sat (nsVmmUnmapRange ⟨r, true⟩ (first * nsPageSize) (done * nsPageSize) true) s
      (fun _ s' => Accounted s₀ live (s', pend) ∧
        pagesOf s'.mem r = unmapLoop done first (pagesOf s.mem r))
      (fun _ s' => Accounted s₀ live (s', pend) ∧
        pagesOf s'.mem r = unmapLoop done first (pagesOf s.mem r)) := by
  have hrange : Northstar.unmapRange (first * nsPageSize) (done * nsPageSize) (pagesOf s.mem r) =
      (true, unmapLoop done first (pagesOf s.mem r)) := by
    rw [unmapLoop_eq]
    rcases Nat.eq_zero_or_pos done with rfl | hpos
    · rw [Nat.zero_mul, Northstar.unmapRange, if_pos rfl, fill_zero]
    · have hlen : (first + done) * 4096 - first * 4096 = done * nsPageSize := by
        unfold nsPageSize
        omega
      have hres := unmapRange_pages (pagesOf s.mem r) (a := first) (b := first + done)
        (by omega) hlow
      rwa [hlen, Nat.add_sub_cancel_left] at hres
  refine (nsVmmUnmapRange_refines h₀ h hr ?_).mono ?_ ?_
  · rw [← Nat.add_mul]
    exact hlow
  · rintro _ s' ⟨hacc, hpages⟩
    exact ⟨hacc, (Prod.mk.inj (hpages.symm.trans hrange)).2⟩
  · rintro _ s' ⟨hacc, hpages⟩
    exact ⟨hacc, (Prod.mk.inj (hpages.symm.trans hrange)).2⟩

/-- A page that cannot be mapped ends the loop, and what it has done is undone. -/
lemma Accounted.stop_pages (h : Accounted s₀ live (s, ∅)) {first count done : ℕ}
    {pages : ℕ → Option (Index → ℕ)} (hlow : (first + done) * nsPageSize ≤ nsVmmUserTop)
    (hpages : pagesOf s.mem r = pages) :
    Sat (nsVmmUnmapRange ⟨r, true⟩ (first * nsPageSize) (done * nsPageSize) true) s
      (fun _ s' => Accounted s₀ live (s', ∅) ∧
        Allocates first (count + 1) done pages (false, pagesOf s'.mem r))
      (fun _ s' => Accounted s₀ live (s', ∅) ∧
        Allocates first (count + 1) done pages (false, pagesOf s'.mem r)) := by
  subst hpages
  refine (h.rollback_pages h₀ hr hlow).imp_state ?_
  rintro s' ⟨hacc, hres⟩
  exact ⟨hacc, hres ▸ .stop first count done _⟩

/-- The loop of `ns_vmm_alloc_map`. -/
lemma Accounted.allocMapPages_pages (h : Accounted s₀ live (s, ∅)) (flags first : ℕ) {count : ℕ}
    (done : ℕ) (hlow : (first + done + count) * nsPageSize ≤ nsVmmUserTop) :
    Sat (Northstar.allocMapPages ⟨r, true⟩ (first * nsPageSize) flags count (done * nsPageSize)) s
      (fun _ s' => Accounted s₀ live (s', ∅) ∧
        Allocates first count done (pagesOf s.mem r) (true, pagesOf s'.mem r))
      (fun _ s' => Accounted s₀ live (s', ∅) ∧
        Allocates first count done (pagesOf s.mem r) (false, pagesOf s'.mem r)) := by
  induction count generalizing s done with
  | zero => exact ⟨h, _, le_rfl, rfl⟩
  | succ count ih =>
    have hpage : first * nsPageSize + done * nsPageSize = (first + done) * nsPageSize := by ring
    have hnext : done * nsPageSize + nsPageSize = (done + 1) * nsPageSize := by ring
    have hq : (first + done) * nsPageSize < nsVmmUserTop := by
      unfold nsPageSize nsVmmUserTop at hlow ⊢
      omega
    have hlow' : (first + (done + 1) + count) * nsPageSize ≤ nsVmmUserTop :=
      (Nat.mul_le_mul_right nsPageSize (by omega)).trans hlow
    simp only [Northstar.allocMapPages, sat_bind, sat_get]
    split
    · next e pmm halloc =>
      obtain rfl := nsPmmAllocPage_error halloc
      simp only [sat_bind, sat_set, sat_observe, sat_throw]
      exact h.stop_pages h₀ hr hq.le rfl
    · next phys pmm halloc =>
      have hpend : Accounted s₀ live ({ s with pmm := pmm }, {phys}) := by
        rw [← insert_empty_eq]
        exact h.alloc halloc
      have hdone : ({phys} : Set ℕ) \ {phys} = ∅ := sdiff_self
      simp only [sat_bind, sat_set, sat_observe, hpage]
      refine (hpend.map_pages h₀ hr hq rfl (by simp)).mono ?_ ?_
      · rintro _ s₁ ⟨h₁, hnone, hadd, hframe⟩
        rw [hdone] at h₁
        simp only [sat_ite, sat_bind, sat_modify, sat_observe, sat_throw]
        refine ⟨fun _ => ?_, fun _ => ?_⟩
        · -- the page is mapped and cleared, and the loop goes on
          have ha := page_addr hr hq
          have hclean := h₁.clean (mem_tables ha hframe)
            (h₁.page_not_managed ha (length_pathFrom _ 4) hframe)
          have hpages : pagesOf (s₁.zeroPage phys).mem r =
              update (pagesOf s.mem r) (first + done) (some fun _ => 0) := by
            change pagesOf (s₁.mem.zero phys) r = _
            rw [h₁.pagesOf_zero hr hq hframe, hadd, update_idem]
          have hrest := ih hclean (done + 1) hlow'
          rw [hpages] at hrest
          rw [hnext]
          exact hrest.mono (fun _ _ h' => ⟨h'.1, h'.2.next hnone⟩) fun _ _ h' =>
            ⟨h'.1, h'.2.next hnone⟩
        · -- the frame is out of reach, and the page is unmapped again
          have hundo : update (pagesOf s₁.mem r) (first + done) none = pagesOf s.mem r := by
            rw [hadd, update_idem, ← hnone]
            exact update_eq_self _ _
          refine (h₁.unmap_pages h₀ hr hq).mono ?_ ?_
          · rintro _ s₂ ⟨h₂, hgone⟩
            exact h₂.stop_pages h₀ hr hq.le (hgone.trans hundo)
          · rintro _ s₂ ⟨-, h₂, hgone⟩
            exact h₂.stop_pages h₀ hr hq.le (hgone.trans hundo)
      · rintro e s₁ ⟨h₁, hsame⟩
        have hback := h₁.free h₀ rfl
        rw [hdone] at hback
        exact hback.stop_pages h₀ hr hq.le hsame

/-- `ns_vmm_alloc_map` on the page tables is `allocMap` on the pages, with the pages available that
it finds frames for. -/
lemma nsVmmAllocMap_refines (h : Accounted s₀ live (s, ∅)) {virt length : ℕ} (flags : ℕ)
    (hlow : virt + length ≤ nsVmmUserTop) :
    Sat (nsVmmAllocMap ⟨r, true⟩ virt length flags) s
      (fun _ s' => Accounted s₀ live (s', ∅) ∧ ∃ available : ℕ → Bool,
        allocMap (fun _ => 0) available virt length (pagesOf s.mem r) = (true, pagesOf s'.mem r))
      (fun _ s' => Accounted s₀ live (s', ∅) ∧ ∃ available : ℕ → Bool,
        allocMap (fun _ => 0) available virt length (pagesOf s.mem r) =
          (false, pagesOf s'.mem r)) := by
  unfold nsVmmAllocMap allocMap
  cases hrange : validatePageRange virt length with
  | none => exact ⟨h, fun _ => true, rfl⟩
  | some finish =>
    obtain ⟨first, count, rfl, hfirst, hcount, hend⟩ := validatePageRange_pages hlow hrange
    have hrun := h.allocMapPages_pages h₀ hr flags first 0 hend
    rw [Nat.zero_mul] at hrun
    dsimp only
    rw [hfirst, hcount]
    refine hrun.mono ?_ ?_
    · rintro _ s' ⟨hacc, bound, -, hres⟩
      exact ⟨hacc, _, hres⟩
    · rintro _ s' ⟨hacc, bound, -, hres⟩
      exact ⟨hacc, _, hres⟩

end

/-! ### Moving the break -/

/-- `ns_proc_runtime_adjust_break` on the page tables of the space. -/
def nsProcRuntimeAdjustBreak (space : VmmSpace) (userBrkBase userBrkLimit oldBreak newBreak : ℕ) :
    VmM ℤ := do
  if newBreak < userBrkBase ∨ newBreak > userBrkLimit then pure (-nsEinval)
  else
    let oldPage := pageCeil oldBreak
    let newPage := pageCeil newBreak
    if newPage > oldPage then
      match ← observe (nsVmmAllocMap space oldPage (newPage - oldPage)
        (2 ^ pageUser ||| 2 ^ pageWrite)) with
      | .ok _ => pure 0
      | .error _ => pure (-nsEnomem)
    else if newPage < oldPage then
      match ← observe (nsVmmUnmapRange space newPage (oldPage - newPage) true) with
      | .ok _ => pure 0
      | .error _ => pure (-nsEfault)
    else pure 0

/-- `ns_proc_runtime_adjust_break` on the page tables of an owned space is `adjustBreak` on its
pages, for the pages that there are frames for. -/
lemma nsProcRuntimeAdjustBreak_refines (h₀ : s₀.pmm.Sound) (h : Accounted s₀ live (s, ∅))
    (hr : r ∈ live) {p : UserSpace (Index → ℕ)} (hpages : p.pages = pagesOf s.mem r)
    (hlimit : p.userBrkLimit ≤ nsVmmUserTop) {oldBreak newBreak : ℕ}
    (hold : oldBreak ≤ p.userBrkLimit) :
    Sat (nsProcRuntimeAdjustBreak ⟨r, true⟩ p.userBrkBase p.userBrkLimit oldBreak newBreak) s
      (fun result s' => Accounted s₀ live (s', ∅) ∧ ∃ available : ℕ → Bool,
        adjustBreak (fun _ => 0) available p oldBreak newBreak =
          (result, { p with pages := pagesOf s'.mem r }))
      (fun _ _ => False) := by
  simp only [nsProcRuntimeAdjustBreak, adjustBreak, sat_ite, sat_pure, hpages]
  refine ⟨fun hout => ⟨h, fun _ => true, ?_⟩, fun hin => ⟨fun hup => ?_, fun hup =>
    ⟨fun hdown => ?_, fun hdown => ⟨h, fun _ => true, ?_⟩⟩⟩⟩
  · rw [if_pos hout, ← hpages]
  · obtain ⟨hnew, hnew'⟩ := pageCeil_eq (show newBreak ≤ nsVmmUserTop by omega)
    rw [sat_bind, sat_observe]
    refine (nsVmmAllocMap_refines h₀ hr h _ (by omega)).mono ?_ ?_
    · rintro _ s' ⟨hacc, available, hres⟩
      exact ⟨hacc, available, by rw [if_neg hin, if_pos hup, hres]; rfl⟩
    · rintro _ s' ⟨hacc, available, hres⟩
      exact ⟨hacc, available, by rw [if_neg hin, if_pos hup, hres]; rfl⟩
  · obtain ⟨hold', hold''⟩ := pageCeil_eq (hold.trans hlimit)
    rw [sat_bind, sat_observe]
    refine (nsVmmUnmapRange_refines h₀ h hr (by omega)).mono ?_ ?_
    · rintro _ s' ⟨hacc, hres⟩
      exact ⟨hacc, fun _ => true, by rw [if_neg hin, if_neg hup, if_pos hdown, hres]; rfl⟩
    · rintro _ s' ⟨hacc, hres⟩
      exact ⟨hacc, fun _ => true, by rw [if_neg hin, if_neg hup, if_pos hdown, hres]; rfl⟩
  · rw [if_neg hin, if_neg hup, if_neg hdown, ← hpages]

end

end Northstar
