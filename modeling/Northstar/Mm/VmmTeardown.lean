import Northstar.Mm.VmmOps

/-! # Tearing a space down

`destroy_table_level` empties a table slot by slot: the frame of an owned page goes back, and a
table is emptied in turn before its page goes back. The specification is stated for any invariant
that reclaiming a table keeps, that dropping a page keeps, and under which no entry is huge. -/

namespace Northstar

open Domain

/-- `destroy_table_level` on the slot of a page. -/
def dropPage (t : ℕ) (i : Index) (s : Vmm) : Vmm :=
  (if (s.mem t i).testBit pteOwned then s.freeMapped (s.mem t i &&& pteAddr) else s).store t i 0

/-- One round of `destroy_table_level` on a table that is `level + 1` levels above the pages. -/
def destroySlot (level table limit : ℕ) (s : Vmm) (i : Index) : Vmm :=
  if limit ≤ i.val ∨ (s.mem table i).testBit ptePresent = false then s
  else if level = 0 ∨ (s.mem table i).testBit pteHuge = true then dropPage table i s
  else
    ((destroyTableLevel level (s.mem table i &&& pteAddr) 512 s).freePage
      (s.mem table i &&& pteAddr)).store table i 0

/-- A table is emptied slot by slot. -/
lemma destroyTableLevel_succ (level table limit : ℕ) (s : Vmm) :
    destroyTableLevel (level + 1) table limit s =
      if tablePointer s.config table = false then s
      else (List.finRange 512).foldl (destroySlot level table limit) s := rfl

/-- Dropping a page stores to its slot. -/
lemma dropPage_mem (t : ℕ) (i : Index) (s : Vmm) : (dropPage t i s).mem = s.mem.set t i 0 := by
  unfold dropPage
  split_ifs <;> rfl

/-- An invariant under which the space at `r` can be torn down. -/
structure Tears (d : Domain) (r : ℕ) (Inv : Vmm × Set ℕ → Prop) : Prop where
  tables : ∀ x, Inv x → VmmTables d x
  reclaim : ∀ s s' pend j, Inv (s, pend) → Reclaim d r j s s' → Inv (s', pend)
  huge : ∀ s pend q i t, Inv (s, pend) → (r, q ++ [i]) ∈ d.addrs 4 →
    walk (link s.mem) r q = some t → (s.mem t i).testBit ptePresent = true →
    (s.mem t i).testBit pteHuge = false
  drop : ∀ s pend q i t, Inv (s, pend) → (r, q ++ [i]) ∈ d.addrs 4 → q.length = 3 →
    walk (link s.mem) r q = some t → (s.mem t i).testBit ptePresent = true →
    Inv (dropPage t i s, pend)

section

variable {d : Domain} {r : ℕ} {Inv : Vmm × Set ℕ → Prop} {pend : Set ℕ}

/-- What emptying the slots `done` of the table at the address `q` leaves. -/
structure Emptied (d : Domain) (r : ℕ) (Inv : Vmm × Set ℕ → Prop) (pend : Set ℕ) (q : List Index)
    (table : ℕ) (done : Index → Prop) (s s' : Vmm) : Prop where
  inv : Inv (s', pend)
  above : SameAbove s.mem s'.mem r q
  empty : ∀ i, done i → (s'.mem table i).testBit ptePresent = false
  still : ∀ i, (s.mem table i).testBit ptePresent = false →
    (s'.mem table i).testBit ptePresent = false

variable {q : List Index} {table level limit : ℕ} {s : Vmm}

/-- Clearing one slot empties that slot. -/
lemma Emptied.of_set {i : Index} {s' : Vmm}
    (hinv : Inv (s', pend)) (hmem : s'.mem = s.mem.set table i 0)
    (habove : SameAbove s.mem (s.mem.set table i 0) r q) :
    Emptied d r Inv pend q table (· = i) s s' := by
  refine ⟨hinv, by rw [hmem]; exact habove, ?_, fun k hk => ?_⟩
  · rintro k rfl
    rw [hmem, set_self, Nat.zero_testBit]
  · rw [hmem]
    by_cases hki : k = i
    · rw [hki, set_self, Nat.zero_testBit]
    · rw [set_of_ne _ _ fun h => hki h.2]
      exact hk

/-- One round, given what the recursive call does. -/
lemma destroySlot_spec (ht : Tears d r Inv)
    {i : Index} (hinv : Inv (s, pend)) (hlen : q.length + level = 3)
    (hw : walk (link s.mem) r q = some table) (haddr : i.val < limit → (r, q ++ [i]) ∈ d.addrs 4)
    (hrec : ∀ c, level ≠ 0 → (r, q ++ [i]) ∈ d.addrs 4 →
      walk (link s.mem) r (q ++ [i]) = some c →
      Emptied d r Inv pend (q ++ [i]) c (fun _ => True) s (destroyTableLevel level c 512 s)) :
    Emptied d r Inv pend q table (fun k => k = i ∧ k.val < limit) s
      (destroySlot level table limit s i) := by
  have hlay := (ht.tables _ hinv).layout
  unfold destroySlot
  split_ifs with hskip hleaf
  · refine ⟨hinv, fun p _ _ => ⟨rfl, fun _ _ _ => rfl⟩, ?_, fun k hk => hk⟩
    rintro k ⟨rfl, hk⟩
    exact hskip.resolve_left (Nat.not_le.mpr hk)
  all_goals
    rw [not_or, Nat.not_le, Bool.not_eq_false] at hskip
    obtain ⟨hlt, hp⟩ := hskip
    have ha := haddr hlt
    have hhuge := ht.huge s pend q i table hinv ha hw hp
  · -- the slot of a page
    obtain rfl : level = 0 := hleaf.resolve_right (by rw [hhuge]; exact Bool.false_ne_true)
    have hres : Emptied d r Inv pend q table (· = i) s (dropPage table i s) :=
      .of_set (ht.drop s pend q i table hinv ha (by omega) hw hp) (dropPage_mem table i s)
        (.set hlay ha hw 0)
    exact ⟨hres.inv, hres.above, fun k hk => hres.empty k hk.1, hres.still⟩
  · -- the slot of a table: empty it, take it out, give its page back
    rw [not_or] at hleaf
    have hl : link s.mem table i = some (s.mem table i &&& pteAddr) := linkOf_of_link hp hhuge
    set c := s.mem table i &&& pteAddr
    have hwc : walk (link s.mem) r (q ++ [i]) = some c := by
      rw [walk_concat, hw]
      exact hl
    have hchild := hrec c hleaf.1 ha hwc
    set s1 := destroyTableLevel level c 512 s
    obtain ⟨hwalk1, hent1⟩ := hchild.above q (List.prefix_append q [i]) (by simp)
    have hw1 : walk (link s1.mem) r q = some table := hwalk1.trans hw
    have hent : ∀ k, s1.mem table k = s.mem table k := hent1 table hw
    have hl1 : link s1.mem table i = some c := by
      rw [link, hent]
      exact hl
    have htab1 := ht.tables _ hchild.inv
    have ha3 : (r, q ++ [i]) ∈ d.addrs 3 := by
      refine mem_addrs.mpr ⟨ha.1, ?_, ha.2.2⟩
      rw [List.length_append, List.length_singleton]
      omega
    obtain ⟨j, hj⟩ : ∃ j, (q ++ [i]).head? = some j := by
      cases q with
      | nil => exact ⟨i, rfl⟩
      | cons j q => exact ⟨j, rfl⟩
    have hinv' := ht.reclaim _ _ _ j hchild.inv (.mk ha3 hj hw1 hl1 fun k => hchild.empty k trivial)
    have hres : Emptied d r Inv pend q table (· = i) s1 ((s1.freePage c).store table i 0) :=
      .of_set hinv' rfl (.set htab1.layout ha hw1 0)
    refine ⟨hres.inv, (hchild.above.shorten (List.prefix_append q [i])).trans hres.above,
      fun k hk => hres.empty k hk.1, fun k hk => hres.still k ?_⟩
    rw [hent]
    exact hk

/-- The loop over the slots of a table empties them. -/
lemma destroySlots_spec (ht : Tears d r Inv)
    (hlen : q.length + level = 3) (haddr : ∀ i : Index, i.val < limit → (r, q ++ [i]) ∈ d.addrs 4)
    (hrec : ∀ (s : Vmm) (i : Index) (c : ℕ), Inv (s, pend) → level ≠ 0 →
      (r, q ++ [i]) ∈ d.addrs 4 → walk (link s.mem) r (q ++ [i]) = some c →
      Emptied d r Inv pend (q ++ [i]) c (fun _ => True) s (destroyTableLevel level c 512 s))
    (L : List Index) (hinv : Inv (s, pend)) (hw : walk (link s.mem) r q = some table) :
    Emptied d r Inv pend q table (fun i => i ∈ L ∧ i.val < limit) s
      (L.foldl (destroySlot level table limit) s) := by
  induction L generalizing s with
  | nil =>
    exact ⟨hinv, fun p _ _ => ⟨rfl, fun _ _ _ => rfl⟩, fun i hi => by simp at hi, fun i hi => hi⟩
  | cons i L ih =>
    have hone := destroySlot_spec ht hinv hlen hw (haddr i) fun c => hrec s i c hinv
    have hrest := ih hone.inv (hone.above.walk_eq.trans hw)
    refine ⟨hrest.inv, hone.above.trans hrest.above, fun k hk => ?_,
      fun k hk => hrest.still k (hone.still k hk)⟩
    rcases List.mem_cons.mp hk.1 with rfl | hmem
    · exact hrest.still k (hone.empty k ⟨rfl, hk.2⟩)
    · exact hrest.empty k ⟨hmem, hk.2⟩

/-- `destroy_table_level` empties the table it is called on, and all tables behind it. -/
lemma destroyTableLevel_spec (ht : Tears d r Inv)
    (hinv : Inv (s, pend)) (hlen : q.length + level = 3) (ha : (r, q) ∈ d.addrs 3)
    (haddr : ∀ i : Index, i.val < limit → (r, q ++ [i]) ∈ d.addrs 4)
    (hw : walk (link s.mem) r q = some table) :
    Emptied d r Inv pend q table (fun i => i.val < limit) s
      (destroyTableLevel (level + 1) table limit s) := by
  have hptr : tablePointer s.config table = true :=
    (ht.tables _ hinv).reached table (mem_tables ha hw)
  induction level generalizing table limit q s with
  | zero =>
    rw [destroyTableLevel_succ, if_neg (by simp [hptr])]
    have hall := destroySlots_spec ht hlen haddr (fun _ _ _ _ h => absurd rfl h)
      (List.finRange 512) hinv hw
    exact ⟨hall.inv, hall.above, fun i hi => hall.empty i ⟨List.mem_finRange i, hi⟩, hall.still⟩
  | succ level ih =>
    rw [destroyTableLevel_succ, if_neg (by simp [hptr])]
    have hall := destroySlots_spec ht hlen haddr (fun s' i c hinv' _ ha' hwc => ?_)
      (List.finRange 512) hinv hw
    · exact ⟨hall.inv, hall.above, fun i hi => hall.empty i ⟨List.mem_finRange i, hi⟩, hall.still⟩
    · have hlen' : (q ++ [i]).length + level = 3 := by
        rw [List.length_append, List.length_singleton]
        omega
      have ha3 : (r, q ++ [i]) ∈ d.addrs 3 := mem_addrs.mpr ⟨ha'.1, by omega, ha'.2.2⟩
      have haddr' : ∀ k : Index, k.val < 512 → (r, q ++ [i] ++ [k]) ∈ d.addrs 4 := by
        refine fun k _ => mem_addrs.mpr ⟨ha'.1, ?_, fun j hj => ha'.2.2 j ?_⟩
        · rw [List.length_append, List.length_singleton]
          omega
        · cases q <;> exact hj
      have hchild := ih hinv' hlen' ha3 haddr' hwc
        ((ht.tables _ hinv').reached c (mem_tables ha3 hwc))
      exact ⟨hchild.inv, hchild.above, fun k _ => hchild.empty k k.isLt, hchild.still⟩

end

end Northstar
