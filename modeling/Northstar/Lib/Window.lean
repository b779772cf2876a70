import Mathlib

/-! # Windows of a list

`overwrite` replaces a window of a list that the list has room for, and `padTo` extends a list to a
length. A buffer that is larger than what it holds is read through `take`: these lemmas say what an
edit of the buffer is to the part that is read. -/

namespace Northstar

open List

variable {α : Type*}

/-- The elements from an offset on are replaced. -/
def overwrite (l : List α) (offset : ℕ) (new : List α) : List α :=
  l.take offset ++ new ++ l.drop (offset + new.length)

/-- The list is extended to a length by copies of an element, if it is shorter. -/
def padTo (x : α) (l : List α) (length : ℕ) : List α :=
  l ++ List.replicate (length - l.length) x

/-- The length after padding. -/
@[simp] lemma length_padTo (x : α) (l : List α) (length : ℕ) :
    (padTo x l length).length = max l.length length := by
  rw [padTo, length_append, length_replicate]
  omega

variable {l new : List α}

/-- A list that is long enough is not padded. -/
lemma padTo_of_le {x : α} {length : ℕ} (h : length ≤ l.length) :
    padTo x l length = l := by
  rw [padTo, Nat.sub_eq_zero_of_le h, replicate_zero, append_nil]

/-- Writing nothing changes nothing. -/
@[simp] lemma overwrite_nil (l : List α) (offset : ℕ) : overwrite l offset [] = l := by
  simp [overwrite]

/-- Writing inside a list keeps its length. -/
lemma length_overwrite {offset : ℕ} (h : offset + new.length ≤ l.length) :
    (overwrite l offset new).length = l.length := by
  rw [overwrite, length_append, length_append, length_take, length_drop]
  omega

/-- A window that starts within the part that is read extends it if it reaches over its end. -/
lemma take_overwrite {offset n : ℕ} (hoffset : offset ≤ n)
    (hroom : offset + new.length ≤ l.length) :
    (overwrite l offset new).take (max n (offset + new.length)) =
      overwrite (l.take n) offset new := by
  have hfront : (l.take offset ++ new).length = offset + new.length := by
    rw [length_append, length_take]
    omega
  have hrest : max n (offset + new.length) - (offset + new.length) =
      n - (offset + new.length) := by omega
  rw [overwrite, overwrite, take_append, hfront, take_of_length_le (by omega), hrest,
    take_take, min_eq_left hoffset, drop_take]

/-- A window that is written behind the part that is read extends it. -/
lemma take_overwrite_end {size : ℕ} (h : size + new.length ≤ l.length) :
    (overwrite l size new).take (size + new.length) = l.take size ++ new := by
  have hfront : (l.take size ++ new).length = size + new.length := by
    rw [length_append, length_take]
    omega
  rw [overwrite, ← hfront, take_left]

/-- Filling a buffer behind the part that is read pads it. -/
lemma take_overwrite_replicate {x : α} {size bound : ℕ} (hsize : size ≤ bound)
    (hbound : bound ≤ l.length) :
    (overwrite l size (List.replicate (bound - size) x)).take bound =
      padTo x (l.take size) bound := by
  have hlength : (replicate (bound - size) x).length = bound - size := length_replicate
  have hroom : size + (replicate (bound - size) x).length ≤ l.length := by omega
  have h := take_overwrite_end hroom
  rw [hlength, Nat.add_sub_cancel' hsize] at h
  rw [h, padTo, length_take, min_eq_left (by omega)]

end Northstar
