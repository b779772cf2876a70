import Mathlib

/-! # Ring buffers

A buffer of `cap` slots used as a queue: the element `i` places behind the head lies in slot
`(head + i) % cap`. `ringView` is the queue read off the slots. Storing behind the last element
appends to the queue as long as there is room (`ringView_store`), and moving the head drops its
first elements (`ringView_split`). -/

namespace Northstar

open Function

variable {α : Type}

/-- The first `n` elements of the queue whose head is at `head`. -/
def ringView (cap : ℕ) (buffer : ℕ → α) (head n : ℕ) : List α :=
  (List.range n).map fun i => buffer ((head + i) % cap)

/-- Store elements one after the other, the first one at position `pos`. -/
def ringStore (cap : ℕ) : List α → ℕ → (ℕ → α) → ℕ → α
  | [], _, buffer => buffer
  | x :: xs, pos, buffer => ringStore cap xs (pos + 1) (update buffer (pos % cap) x)

section

variable (cap : ℕ) (buffer : ℕ → α)

/-- A view has the length asked for. -/
@[simp] lemma length_ringView (head n : ℕ) : (ringView cap buffer head n).length = n := by
  simp [ringView]

/-- A view with one more element. -/
lemma ringView_succ (head n : ℕ) : ringView cap buffer head (n + 1) =
      ringView cap buffer head n ++ [buffer ((head + n) % cap)] := by
  simp [ringView, List.range_succ]

/-- The queue is its first elements followed by the queue from the moved head. -/
lemma ringView_split (head n m : ℕ) : ringView cap buffer head (n + m) =
      ringView cap buffer head n ++ ringView cap buffer ((head + n) % cap) m := by
  induction m with
  | zero => simp [ringView]
  | succ m ih =>
    rw [← Nat.add_assoc, ringView_succ, ih, ringView_succ, List.append_assoc, Nat.mod_add_mod,
      Nat.add_assoc]

end

/-- Two positions less than a round apart lie in different slots. -/
lemma mod_ne_mod_of_lt {cap a b : ℕ} (hab : a < b) (hb : b < a + cap) : a % cap ≠ b % cap := by
  intro heq
  have hdvd : cap ∣ b - a := (Nat.modEq_iff_dvd' hab.le).mp heq
  have hle := Nat.le_of_dvd (by omega) hdvd
  omega

/-- Storing one element behind the last. -/
lemma ringView_update {cap head n : ℕ} (h : n < cap) (buffer : ℕ → α) (x : α) :
    ringView cap (update buffer ((head + n) % cap) x) head (n + 1) =
      ringView cap buffer head n ++ [x] := by
  rw [ringView_succ, update_self]
  refine congrArg (· ++ [x]) (List.map_congr_left fun i hi => ?_)
  have hlt : i < n := List.mem_range.mp hi
  exact update_of_ne (mod_ne_mod_of_lt (by omega) (by omega)) _ _

/-- Storing elements behind the last one appends them, if there is room. -/
lemma ringView_store {cap head : ℕ} (xs : List α) {n : ℕ} (h : n + xs.length ≤ cap)
    (buffer : ℕ → α) :
    ringView cap (ringStore cap xs (head + n) buffer) head (n + xs.length) =
      ringView cap buffer head n ++ xs := by
  induction xs generalizing n buffer with
  | nil => simp [ringStore]
  | cons x xs ih =>
    rw [List.length_cons] at h
    have hstep := ih (n := n + 1) (by omega)
      (update buffer ((head + n) % cap) x)
    rw [ringView_update (by omega), List.append_assoc] at hstep
    rw [ringStore, List.length_cons, show n + (xs.length + 1) = n + 1 + xs.length by omega]
    exact hstep

end Northstar
