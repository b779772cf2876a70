import Mathlib

/-! # Counted references

Objects are numbered in the order of their creation. Each has a 32-bit count of references, and the
release that brings the count to zero closes the object. The books are `Balanced` when the counts
are those of a multiset of holders and exactly the objects without a holder have been closed, each
once.

A reference that code holds for a while is a member of the multiset like any other, so a function is
followed through its retains and releases one at a time. Only a release needs the count to fit: the
counts are balanced modulo `2 ^ 32` in any case. -/

namespace Northstar

open Function Multiset

/-- Objects with their counts, and how often each has been closed. -/
structure Refs where
  created : ℕ
  references : ℕ → UInt32
  closes : ℕ → ℕ

namespace Refs

/-- A new object, which its creator holds. -/
def create (r : Refs) : Refs where
  created := r.created + 1
  references := update r.references r.created 1
  closes := update r.closes r.created 0

/-- One reference more. -/
def retain (r : Refs) (x : ℕ) : Refs :=
  { r with references := update r.references x (r.references x + 1) }

/-- One reference less; the last one closes the object. -/
def release (r : Refs) (x : ℕ) : Refs :=
  { r with
    references := update r.references x (r.references x - 1)
    closes := if r.references x - 1 = 0 then update r.closes x (r.closes x + 1)
      else r.closes }

/-- The counts are those of the holders, and the objects without a holder are closed. -/
structure Balanced (r : Refs) (held : Multiset ℕ) : Prop where
  lt_created : ∀ x ∈ held, x < r.created
  references : ∀ x < r.created, r.references x = UInt32.ofNat (held.count x)
  closes : ∀ x < r.created, r.closes x = if x ∈ held then 0 else 1

variable {r : Refs} {held : Multiset ℕ} {x : ℕ}

/-- At the start the books are balanced. -/
lemma balanced_zero {r : Refs} (h : r.created = 0) : r.Balanced 0 where
  lt_created _ hx := absurd hx (notMem_zero _)
  references _ hx := absurd hx (by omega)
  closes _ hx := absurd hx (by omega)

namespace Balanced

/-- Creating an object with one reference keeps the books balanced. -/
lemma create (h : r.Balanced held) : r.create.Balanced (r.created ::ₘ held) := by
  have hnew : r.created ∉ held := fun hmem => lt_irrefl _ (h.lt_created _ hmem)
  refine ⟨fun y hy => ?_, fun y hy => ?_, fun y hy => ?_⟩
  · rcases mem_cons.1 hy with rfl | hy
    · exact Nat.lt_succ_self _
    · exact Nat.lt_succ_of_lt (h.lt_created y hy)
  · show update r.references r.created 1 y = _
    by_cases hyx : y = r.created
    · rw [hyx, update_self, count_cons_self, count_eq_zero.2 hnew]
      rfl
    · rw [update_of_ne hyx, count_cons_of_ne hyx]
      exact h.references y (lt_of_le_of_ne (Nat.le_of_lt_succ hy) hyx)
  · show update r.closes r.created 0 y = _
    by_cases hyx : y = r.created
    · rw [hyx, update_self, if_pos (mem_cons_self _ _)]
    · rw [update_of_ne hyx, h.closes y (lt_of_le_of_ne (Nat.le_of_lt_succ hy) hyx)]
      simp only [mem_cons, hyx, false_or]

/-- Another reference to an object that is held keeps the books balanced. -/
lemma retain (h : r.Balanced held) (hx : x ∈ held) : (r.retain x).Balanced (x ::ₘ held) := by
  refine ⟨fun y hy => ?_, fun y hy => ?_, fun y hy => ?_⟩
  · rcases mem_cons.1 hy with rfl | hy
    · exact h.lt_created y hx
    · exact h.lt_created y hy
  · show update r.references x (r.references x + 1) y = _
    by_cases hyx : y = x
    · rw [hyx, update_self, count_cons_self, UInt32.ofNat_add,
        h.references x (hyx ▸ hy)]
      rfl
    · rw [update_of_ne hyx, count_cons_of_ne hyx]
      exact h.references y hy
  · rw [show (r.retain x).closes = r.closes from rfl, h.closes y hy]
    by_cases hyx : y = x
    · rw [hyx, if_pos hx, if_pos (mem_cons_self x held)]
    · simp only [mem_cons, hyx, false_or]

/-- A release is booked if the holders that are left can be counted. -/
lemma release (h : r.Balanced (x ::ₘ held)) (hfits : held.count x < 2 ^ 32) :
    (r.release x).Balanced held := by
  have hlt : x < r.created := h.lt_created x (mem_cons_self x held)
  have hleft : r.references x - 1 = UInt32.ofNat (held.count x) := by
    rw [h.references x hlt, count_cons_self, UInt32.ofNat_add]
    exact UInt32.add_sub_cancel _ _
  have hlast : r.references x - 1 = 0 ↔ x ∉ held := by
    rw [hleft, ← UInt32.toNat_inj, UInt32.toNat_ofNat', Nat.mod_eq_of_lt hfits,
      ← count_eq_zero]
    exact Iff.rfl
  refine ⟨fun y hy => h.lt_created y (mem_cons_of_mem hy), fun y hy => ?_, fun y hy => ?_⟩
  · show update r.references x (r.references x - 1) y = _
    by_cases hyx : y = x
    · rw [hyx, update_self, hleft]
    · rw [update_of_ne hyx, h.references y hy, count_cons_of_ne hyx]
  · have hbefore := h.closes y hy
    show (if r.references x - 1 = 0 then _ else r.closes) y = _
    by_cases hyx : y = x
    · rw [hyx, if_pos (mem_cons_self x held)] at hbefore
      rw [hyx]
      by_cases hmem : x ∈ held
      · rw [if_neg (hlast.not.2 (not_not.2 hmem)), if_pos hmem, hbefore]
      · rw [if_pos (hlast.2 hmem), if_neg hmem, update_self, hbefore]
    · simp only [mem_cons, hyx, false_or] at hbefore
      split_ifs at hbefore ⊢ <;> simpa [hyx] using hbefore

/-- An object that is held has not been closed. -/
lemma closes_eq_zero (h : r.Balanced held) (hx : x ∈ held) : r.closes x = 0 := by
  rw [h.closes x (h.lt_created x hx), if_pos hx]

end Balanced

end Refs

end Northstar
