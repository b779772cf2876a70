import Mathlib

/-! # Units handed out to slots

A set of numbered units, some of which are taken, and slots that each hold at most one unit (`0`
stands for none). The bookkeeping is exact when every held unit is taken, no unit is held twice and
every taken unit of the managed range is held: `Owned`. A counter of free units goes with it.

The two edits are giving a free unit to an empty slot and taking a unit away from its slot. Slots
are pairs of a holder and an index, and `held` counts the units of one holder. -/

namespace Northstar

open Function

/-- The slots hold exactly the taken units of `[lo, hi)`, each once, and `free` of them are free. -/
structure Owned {α : Type} (own : α → ℕ) (taken : ℕ → Bool) (lo hi free : ℕ) : Prop where
  area : ∀ x, own x ≠ 0 → lo ≤ own x ∧ own x < hi ∧ taken (own x) = true
  inj : ∀ x y, own x ≠ 0 → own x = own y → x = y
  owner : ∀ b, lo ≤ b → b < hi → taken b = true → ∃ x, own x = b
  free : free = ((Finset.Ico lo hi).filter fun b => taken b = false).card

/-- The number of units that holder `i` has in its first `n` slots. -/
def held (own : ℕ × ℕ → ℕ) (n i : ℕ) : ℕ := ((Finset.range n).filter fun k => own (i, k) ≠ 0).card

section Free

variable {taken : ℕ → Bool} {lo hi b : ℕ}

/-- Taking a free unit leaves one free unit less. -/
lemma card_free_take (hb : lo ≤ b) (hb' : b < hi) (hfree : taken b = false) :
    ((Finset.Ico lo hi).filter fun c => update taken b true c = false).card =
      ((Finset.Ico lo hi).filter fun c => taken c = false).card - 1 := by
  have herase : ((Finset.Ico lo hi).filter fun c => update taken b true c = false) =
      ((Finset.Ico lo hi).filter fun c => taken c = false).erase b := by
    ext c
    by_cases hcb : c = b
    · simp [hcb]
    · simp [hcb]
  have hmem : b ∈ (Finset.Ico lo hi).filter fun c => taken c = false := by
    simp [hb, hb', hfree]
  rw [herase, Finset.card_erase_of_mem hmem]

/-- Giving a taken unit back leaves one free unit more. -/
lemma card_free_drop (hb : lo ≤ b) (hb' : b < hi) (htaken : taken b = true) :
    ((Finset.Ico lo hi).filter fun c => update taken b false c = false).card =
      ((Finset.Ico lo hi).filter fun c => taken c = false).card + 1 := by
  have hback := @card_free_take (update taken b false) lo hi b hb hb' (update_self ..)
  rw [update_idem, ← htaken, update_eq_self] at hback
  have hpos : 0 < ((Finset.Ico lo hi).filter fun c => update taken b false c = false).card :=
    Finset.card_pos.2 ⟨b, by simp [hb, hb']⟩
  omega

end Free

section Edits

variable {α : Type} {own : α → ℕ} {taken : ℕ → Bool} {lo hi free b : ℕ} {x : α}

section

variable (h : Owned own taken lo hi free)
include h

/-- A positive counter has a free unit behind it. -/
lemma Owned.exists_free (hf : free ≠ 0) : ∃ b, lo ≤ b ∧ b < hi ∧ taken b = false := by
  rw [h.free] at hf
  obtain ⟨b, hb⟩ := Finset.card_pos.mp (Nat.pos_of_ne_zero hf)
  rw [Finset.mem_filter, Finset.mem_Ico] at hb
  exact ⟨b, hb.1.1, hb.1.2, hb.2⟩

/-- A free unit is held by no slot. -/
lemma Owned.ne_of_free (hb : taken b = false) (hb0 : b ≠ 0) (y : α) : own y ≠ b := by
  rintro rfl
  have := (h.area y hb0).2.2
  simp [hb] at this

/-- Unit `b`, which no other slot holds, is put into slot `x` or taken away from it. -/
lemma Owned.edit [DecidableEq α] (hx : own x = b ∨ own x = 0 ∧ 0 < lo) (hb : lo ≤ b ∧ b < hi)
    (hother : ∀ y ≠ x, own y ≠ 0 → own y ≠ b) (put : Bool) :
    Owned (update own x (if put then b else 0)) (update taken b put) lo hi
      ((Finset.Ico lo hi).filter fun c => update taken b put c = false).card where
  area := by
    intro y hy
    by_cases hyx : y = x
    · subst hyx
      cases put with
      | true => simp [hb]
      | false => simp at hy
    · rw [update_of_ne hyx] at hy ⊢
      obtain ⟨h1, h2, h3⟩ := h.area y hy
      exact ⟨h1, h2, by rw [update_of_ne (hother y hyx hy)]; exact h3⟩
  inj := by
    have hne : ∀ y ≠ x, own y ≠ 0 → own y ≠ if put then b else 0 := by
      intro y hyx hy
      split
      · exact hother y hyx hy
      · exact hy
    intro y z hy hyz
    by_cases hyx : y = x <;> by_cases hzx : z = x
    · rw [hyx, hzx]
    · subst hyx
      rw [hyz, update_of_ne hzx] at hy
      rw [update_self, update_of_ne hzx] at hyz
      exact absurd hyz.symm (hne z hzx hy)
    · subst hzx
      rw [update_of_ne hyx] at hy hyz
      exact absurd (hyz.trans (update_self ..)) (hne y hyx hy)
    · rw [update_of_ne hyx] at hy hyz
      rw [update_of_ne hzx] at hyz
      exact h.inj y z hy hyz
  owner := by
    intro c hc hc' ht
    by_cases hcb : c = b
    · rw [hcb, update_self] at ht
      exact ⟨x, by rw [update_self, if_pos ht, hcb]⟩
    · rw [update_of_ne hcb] at ht
      obtain ⟨y, hy⟩ := h.owner c hc hc' ht
      have hyx : y ≠ x := by
        rintro rfl
        omega
      exact ⟨y, by rw [update_of_ne hyx, hy]⟩
  free := rfl

/-- Giving a free unit to an empty slot. -/
lemma Owned.take [DecidableEq α] (hx : own x = 0) (hlo : 0 < lo) (hb : lo ≤ b)
    (hb' : b < hi) (hfree : taken b = false) :
    Owned (update own x b) (update taken b true) lo hi (free - 1) := by
  have hedit := h.edit (.inr ⟨hx, hlo⟩) ⟨hb, hb'⟩
    (fun y _ _ => h.ne_of_free hfree (by omega) y) true
  rwa [card_free_take hb hb' hfree, ← h.free] at hedit

/-- Taking a unit away from its slot. -/
lemma Owned.drop [DecidableEq α] (hx : own x = b) (hb : b ≠ 0) :
    Owned (update own x 0) (update taken b false) lo hi (free + 1) := by
  obtain ⟨hlo, hhi, htaken⟩ := hx ▸ h.area x (hx ▸ hb)
  have hedit := h.edit (.inl hx) ⟨hlo, hhi⟩
    (fun y hyx hy he => hyx (h.inj y x hy (he.trans hx.symm))) false
  rwa [card_free_drop hlo hhi htaken, ← h.free] at hedit

end

end Edits

section Held

variable {own : ℕ × ℕ → ℕ} {n i j k b : ℕ}

/-- The count of a holder only depends on its own slots. -/
lemma held_congr {own' : ℕ × ℕ → ℕ} (h : ∀ k < n, own' (i, k) = own (i, k)) :
    held own' n i = held own n i := by
  unfold held
  congr 1
  refine Finset.filter_congr fun k hk => ?_
  rw [h k (Finset.mem_range.mp hk)]

/-- Changing a pointer of one object does not change what another one holds. -/
lemma held_update_of_ne (h : j ≠ i) : held (update own (i, k) b) n j = held own n j :=
  held_congr fun _ _ => update_of_ne (fun he => h (congrArg Prod.fst he)) _ _

/-- An empty slot that is filled adds one. -/
lemma held_take (hk : k < n) (h0 : own (i, k) = 0) (hb : b ≠ 0) :
    held (update own (i, k) b) n i = held own n i + 1 := by
  unfold held
  have hinsert : ((Finset.range n).filter fun m => update own (i, k) b (i, m) ≠ 0) =
      insert k ((Finset.range n).filter fun m => own (i, m) ≠ 0) := by
    ext m
    by_cases hmk : m = k
    · simp [hmk, hk, hb]
    · have : ((i, m) : ℕ × ℕ) ≠ (i, k) := fun he => hmk (congrArg Prod.snd he)
      simp [hmk]
  rw [hinsert, Finset.card_insert_of_notMem (by simp [h0])]

/-- A slot that is emptied takes one away. -/
lemma held_drop (hk : k < n) (h0 : own (i, k) ≠ 0) :
    held own n i = held (update own (i, k) 0) n i + 1 := by
  have hback : own = update (update own (i, k) 0) (i, k) (own (i, k)) := by
    simp
  conv_lhs => rw [hback]
  exact held_take hk (by simp) h0

end Held

end Northstar
