import Mathlib

/-! # Bitmaps

A bitmap kept as a byte array is the number whose binary digits are its bits: bit `i % 8` of byte
`i / 8` is binary digit `i`. Setting and clearing a bit are given by `get_set` and `get_clear`,
and `clearBits b n` counts the clear bits among the first `n`. Loops that set or clear a run of
bits are `setRun` and `clearRun`. -/

namespace Northstar

/-- A bitmap: binary digit `i` is bit `i % 8` of byte `i / 8`. -/
def Bitmap := ℕ

namespace Bitmap

variable (b : Bitmap)

/-- The bit at `i`. -/
def get (i : ℕ) : Bool := Nat.testBit b i

/-- Set the bit at `i`. -/
def set (i : ℕ) : Bitmap := Nat.lor b (2 ^ i)

/-- Clear the bit at `i`. -/
def clear (i : ℕ) : Bitmap := Nat.xor b (Nat.land b (2 ^ i))

/-- `n` set bits. -/
def ones (n : ℕ) : Bitmap := 2 ^ n - 1

/-- Set the bits `[i, i + n)`, from the first to the last. -/
def setRun (i n : ℕ) : Bitmap := (List.range' i n).foldl set b

/-- Clear the bits `[i, i + n)`, from the first to the last. -/
def clearRun (i n : ℕ) : Bitmap := (List.range' i n).foldl clear b

/-- The number of clear bits among the first `n`. -/
def clearBits (n : ℕ) : ℕ := Nat.count (fun i => b.get i = false) n

/-- Setting a bit changes that bit only. -/
lemma get_set (b : Bitmap) (i j : ℕ) : (b.set i).get j = (b.get j || decide (i = j)) := by
  unfold get set
  exact (Nat.testBit_or b (2 ^ i) j).trans (by rw [Nat.testBit_two_pow])

/-- Clearing a bit changes that bit only. -/
lemma get_clear (b : Bitmap) (i j : ℕ) : (b.clear i).get j = (b.get j && !decide (i = j)) := by
  have hand : (Nat.land b (2 ^ i)).testBit j = (b.get j && decide (i = j)) :=
    (Nat.testBit_and b (2 ^ i) j).trans (by rw [Nat.testBit_two_pow]; rfl)
  have hxor : (b.clear i).get j = (b.get j ^^ (b.get j && decide (i = j))) := by
    rw [← hand]
    exact Nat.testBit_xor b _ j
  rw [hxor]
  cases b.get j <;> simp

/-- A bit that was set is set. -/
@[simp] lemma get_set_self (b : Bitmap) (i : ℕ) : (b.set i).get i = true := by simp [get_set]

variable {b} {i n : ℕ}

/-- The other bits are as before. -/
lemma get_set_of_ne (b : Bitmap) {j : ℕ} (h : i ≠ j) : (b.set i).get j = b.get j := by
  simp [get_set, h]

/-- A bit that was cleared is clear. -/
@[simp] lemma get_clear_self (b : Bitmap) (i : ℕ) : (b.clear i).get i = false := by
  simp [get_clear]

lemma get_clear_of_ne (b : Bitmap) {j : ℕ} (h : i ≠ j) : (b.clear i).get j = b.get j := by
  simp [get_clear, h]

@[simp] lemma get_ones (n i : ℕ) : (ones n).get i = decide (i < n) :=
  Nat.testBit_two_pow_sub_one n i

/-- Setting a run sets its bits and no others. -/
lemma get_setRun (b : Bitmap) (i n j : ℕ) :
    (b.setRun i n).get j = (b.get j || decide (i ≤ j ∧ j < i + n)) := by
  unfold setRun
  induction n generalizing b i with
  | zero => simp
  | succ n ih =>
    rw [List.range'_succ, List.foldl_cons, ih, get_set, Bool.or_assoc, ← Bool.decide_or]
    congr 2
    exact propext ⟨fun h => by omega, fun h => by omega⟩

/-- Clearing a run clears its bits and no others. -/
lemma get_clearRun (b : Bitmap) (i n j : ℕ) :
    (b.clearRun i n).get j = (b.get j && !decide (i ≤ j ∧ j < i + n)) := by
  unfold clearRun
  induction n generalizing b i with
  | zero => simp; omega
  | succ n ih =>
    rw [List.range'_succ, List.foldl_cons, ih, get_clear, Bool.and_assoc, ← Bool.not_or,
      ← Bool.decide_or]
    congr 3
    exact propext ⟨fun h => by omega, fun h => by omega⟩

/-! ### Counting clear bits -/

/-- The number of clear bits depends on the counted bits only. -/
lemma clearBits_congr {c : Bitmap} (h : ∀ i < n, b.get i = c.get i) :
    b.clearBits n = c.clearBits n := by
  unfold clearBits
  induction n with
  | zero => rfl
  | succ n ih =>
    rw [Nat.count_succ, Nat.count_succ, ih fun i hi => h i (by omega), h n (by omega)]

/-- Set bits behind the first `n` do not count. -/
lemma clearBits_extend {m : ℕ} (hnm : n ≤ m)
    (h : ∀ i, n ≤ i → i < m → b.get i = true) : b.clearBits m = b.clearBits n := by
  induction m, hnm using Nat.le_induction with
  | base => rfl
  | succ m hm ih =>
    have hlast : b.get m = true := h m hm (by omega)
    unfold clearBits at ih ⊢
    rw [Nat.count_succ, ih fun i h1 h2 => h i h1 (by omega)]
    simp [hlast]

/-- No bit is clear if all are set. -/
lemma clearBits_eq_zero (h : ∀ i < n, b.get i = true) :
    b.clearBits n = 0 :=
  clearBits_extend (Nat.zero_le n) fun i _ hi => h i hi

/-- Setting a clear bit takes it off the count. -/
lemma clearBits_set (hi : i < n) (hb : b.get i = false) :
    (b.set i).clearBits n + 1 = b.clearBits n := by
  unfold clearBits
  induction n with
  | zero => omega
  | succ n ih =>
    rw [Nat.count_succ, Nat.count_succ]
    rcases Nat.lt_or_eq_of_le (Nat.le_of_lt_succ hi) with h | rfl
    · rw [← ih h, get_set_of_ne b (by omega)]
      omega
    · have hbelow : (b.set i).clearBits i = b.clearBits i :=
        clearBits_congr fun j hj => get_set_of_ne b (by omega)
      have hcount : Nat.count (fun j => (b.set i).get j = false) i =
          Nat.count (fun j => b.get j = false) i := hbelow
      simp [hcount, hb]

/-- Clearing a set bit adds it to the count. -/
lemma clearBits_clear (hi : i < n) (hb : b.get i = true) :
    (b.clear i).clearBits n = b.clearBits n + 1 := by
  have hset : ((b.clear i).set i).clearBits n + 1 = (b.clear i).clearBits n :=
    clearBits_set hi (get_clear_self b i)
  have hback : ((b.clear i).set i).clearBits n = b.clearBits n := by
    refine clearBits_congr fun j _ => ?_
    by_cases h : i = j
    · subst h; simp [hb]
    · rw [get_set_of_ne _ h, get_clear_of_ne _ h]
  omega

/-- Setting a run of clear bits takes its length off the count. -/
lemma clearBits_setRun {k : ℕ} (hn : i + k ≤ n) (hb : ∀ j, i ≤ j → j < i + k → b.get j = false) :
    (b.setRun i k).clearBits n + k = b.clearBits n := by
  unfold setRun
  induction k generalizing b i with
  | zero => rfl
  | succ k ih =>
    rw [List.range'_succ, List.foldl_cons]
    have hhead := clearBits_set (n := n) (i := i) (by omega) (hb i le_rfl (by omega))
    have htail := ih (b := b.set i) (i := i + 1) (by omega) fun j h1 h2 => by
      rw [get_set_of_ne b (by omega)]
      exact hb j (by omega) (by omega)
    omega

/-- Clearing a run of set bits adds its length to the count. -/
lemma clearBits_clearRun {k : ℕ} (hn : i + k ≤ n) (hb : ∀ j, i ≤ j → j < i + k → b.get j = true) :
    (b.clearRun i k).clearBits n = b.clearBits n + k := by
  unfold clearRun
  induction k generalizing b i with
  | zero => rfl
  | succ k ih =>
    rw [List.range'_succ, List.foldl_cons]
    have hhead := clearBits_clear (n := n) (i := i) (by omega) (hb i le_rfl (by omega))
    have htail := ih (b := b.clear i) (i := i + 1) (by omega) fun j h1 h2 => by
      rw [get_clear_of_ne b (by omega)]
      exact hb j (by omega) (by omega)
    omega

end Bitmap

end Northstar
