import Mathlib

/-! # Fixed-size byte buffers

A buffer of `n` bytes is a function on `Fin n`, read through the total accessor `get`, which
is `0` outside the buffer. Every C-style write (`memcpy`, `memset`, a little-endian store) is an
instance of `blit`, which replaces the window `[off, off + len)`, so a single lemma, `get_blit`,
decides what any of them does to any byte. The little-endian accessors `le` and `putLe` give the
packed on-disk records their fields: a record is a buffer, and a field is an offset and a width.

A field that is read after a store is either the field that was stored (`le_putLe`) or lies
beside it (`le_putLe_of_disjoint`); both are `simp` lemmas whose side conditions are comparisons
of numerals when the offsets are constants. -/

namespace Northstar

/-- A buffer of `n` bytes. -/
def Bytes (n : ℕ) := Fin n → UInt8

/-- The little-endian value of the first `w` bytes of a stream. -/
def leNat (f : ℕ → UInt8) : ℕ → ℕ
  | 0 => 0
  | w + 1 => (f 0).toNat + 256 * leNat (fun i => f (i + 1)) w

/-- The `i`-th little-endian byte of `v`. -/
def leByte (v i : ℕ) : UInt8 := UInt8.ofNat (v / 256 ^ i)

/-! ### Little-endian streams -/

@[simp] lemma leNat_zero (f : ℕ → UInt8) : leNat f 0 = 0 := rfl

lemma leNat_succ (f : ℕ → UInt8) (w : ℕ) :
    leNat f (w + 1) = (f 0).toNat + 256 * leNat (fun i => f (i + 1)) w := rfl

variable {f g : ℕ → UInt8} {w : ℕ}

/-- Only the first `w` bytes of the stream matter. -/
lemma leNat_congr (h : ∀ i < w, f i = g i) :
    leNat f w = leNat g w := by
  induction w generalizing f g with
  | zero => rfl
  | succ w ih =>
    rw [leNat_succ, leNat_succ, h 0 (by omega), ih fun i hi => h (i + 1) (by omega)]

/-- A number of `w` bytes is below `256 ^ w`. -/
lemma leNat_lt (f : ℕ → UInt8) (w : ℕ) : leNat f w < 256 ^ w := by
  induction w generalizing f with
  | zero => simp
  | succ w ih =>
    have h0 : (f 0).toNat < 256 := (f 0).toNat_lt
    have := ih fun i => f (i + 1)
    rw [leNat_succ, pow_succ]
    omega

/-- Zero bytes are the number 0. -/
lemma leNat_of_zero (h : ∀ i < w, f i = 0) : leNat f w = 0 := by
  induction w generalizing f with
  | zero => rfl
  | succ w ih => rw [leNat_succ, h 0 (by omega), ih fun i hi => h (i + 1) (by omega)]; rfl

/-- The byte behind another is a byte of the quotient. -/
lemma leByte_succ (v i : ℕ) : leByte v (i + 1) = leByte (v / 256) i := by
  rw [leByte, leByte, pow_succ', Nat.div_div_eq_div_mul]

/-- Reading back the bytes of `v` gives `v` cut to the width read. -/
lemma leNat_leByte (v w : ℕ) : leNat (leByte v) w = v % 256 ^ w := by
  induction w generalizing v with
  | zero => simp [Nat.mod_one]
  | succ w ih =>
    have h0 : (leByte v 0).toNat = v % 256 := by simp [leByte]
    have hs : (fun i => leByte v (i + 1)) = leByte (v / 256) := funext (leByte_succ v)
    rw [leNat_succ, h0, hs, ih, pow_succ', Nat.mod_mul]

/-- A stream is determined, as far as it was read, by the value read. -/
lemma leNat_inj (h : leNat f w = leNat g w) :
    ∀ i < w, f i = g i := by
  induction w generalizing f g with
  | zero => intro i hi; omega
  | succ w ih =>
    rw [leNat_succ, leNat_succ] at h
    have hf : (f 0).toNat < 256 := (f 0).toNat_lt
    have hg : (g 0).toNat < 256 := (g 0).toNat_lt
    rintro (_ | i) hi
    · exact UInt8.toNat_inj.mp (by omega)
    · have htail : leNat (fun i => f (i + 1)) w = leNat (fun i => g (i + 1)) w := by omega
      exact ih htail i (by omega)

namespace Bytes

variable {n m : ℕ}

/-- The byte at position `i`, and `0` outside the buffer. -/
def get (b : Bytes n) (i : ℕ) : UInt8 := if h : i < n then b ⟨i, h⟩ else 0

/-- The buffer whose `i`-th byte is `f i`. -/
def ofFn (f : ℕ → UInt8) : Bytes n := fun i => f i

/-- A buffer of zero bytes. -/
def zero : Bytes n := ofFn fun _ => 0

/-- `memcpy(dst + off, src, len)`: the window `[off, off + len)` is replaced by the first `len`
bytes of `src`. -/
def blit (dst : Bytes n) (off len : ℕ) (src : ℕ → UInt8) : Bytes n :=
  ofFn fun i => if off ≤ i ∧ i < off + len then src (i - off) else dst.get i

/-- `memset(dst + off, v, len)`. -/
def fill (dst : Bytes n) (off len : ℕ) (v : UInt8) : Bytes n := dst.blit off len fun _ => v

/-- The `m` bytes that start at `off`, as a buffer of their own. -/
def slice (b : Bytes n) (off : ℕ) : Bytes m := ofFn fun i => b.get (off + i)

/-- The bytes of a buffer in order. -/
def toList (b : Bytes n) : List UInt8 := (List.range n).map b.get

/-- The little-endian field of `w` bytes at `off`. -/
def le (b : Bytes n) (off w : ℕ) : ℕ := leNat (fun i => b.get (off + i)) w

/-- Store `v` as a little-endian field of `w` bytes at `off`. -/
def putLe (b : Bytes n) (off w v : ℕ) : Bytes n := b.blit off w (leByte v)

/-! ### Reading bytes back -/

variable {i off len w o v k : ℕ} {b : Bytes n} {src : ℕ → UInt8}

/-- Reading a byte that a function gives. -/
@[simp] lemma get_ofFn {f : ℕ → UInt8} (h : i < n) : (ofFn f : Bytes n).get i = f i := by
  simp [get, ofFn, h]

/-- Behind the end there are zeroes. -/
lemma get_of_le (h : n ≤ i) : b.get i = 0 := by
  simp [get, Nat.not_lt.mpr h]

/-- Byte strings with the same bytes are equal. -/
lemma ext {a : Bytes n} (h : ∀ i < n, a.get i = b.get i) : a = b := by
  funext i
  simpa [get] using h i i.isLt

/-- All bytes of the zero string are 0. -/
@[simp] lemma get_zero (i : ℕ) : (zero : Bytes n).get i = 0 := by
  by_cases h : i < n
  · simp [zero, h]
  · exact get_of_le (Nat.not_lt.mp h)

/-- The byte at `i` after a window write. -/
lemma get_blit (b : Bytes n) (off len : ℕ) (src : ℕ → UInt8) (h : i < n) :
    (b.blit off len src).get i =
      if off ≤ i ∧ i < off + len then src (i - off) else b.get i := by
  simp [blit, h]

/-- Inside the copied range are the new bytes. -/
lemma get_blit_of_mem (h : i < len)
    (hn : off + len ≤ n) : (b.blit off len src).get (off + i) = src i := by
  rw [get_blit _ _ _ _ (by omega), if_pos (by omega), Nat.add_sub_cancel_left]

/-- Outside the copied range nothing changes. -/
lemma get_blit_of_notMem (h : i < off ∨ off + len ≤ i) : (b.blit off len src).get i = b.get i := by
  by_cases hi : i < n
  · rw [get_blit _ _ _ _ hi, if_neg (by omega)]
  · rw [get_of_le (Nat.not_lt.mp hi), get_of_le (Nat.not_lt.mp hi)]

section

variable (b : Bytes n)

/-- Filling is copying a constant. -/
lemma fill_eq (off len : ℕ) (v : UInt8) : b.fill off len v = b.blit off len fun _ => v := rfl

/-- Filling with zeroes is copying from a zero string. -/
lemma fill_zero (off len : ℕ) : b.fill off len 0 = b.blit off len (zero : Bytes m).get := by
  rw [fill_eq, funext get_zero]

/-- Reading a byte of a string that was filled in part. -/
lemma get_fill (off len : ℕ) (v : UInt8) (h : i < n) :
    (b.fill off len v).get i = if off ≤ i ∧ i < off + len then v else b.get i :=
  get_blit b off len _ h

/-- Reading a byte of a part. -/
lemma get_slice (off : ℕ) (h : i < m) : (b.slice off : Bytes m).get i = b.get (off + i) := by
  simp [slice, h]

/-! ### Fields -/

/-- A field is below the limit of its width. -/
lemma le_lt (off w : ℕ) : b.le off w < 256 ^ w := leNat_lt _ _

end

/-- Two buffers that agree on a field's bytes have the same field. -/
lemma le_congr {a : Bytes n} {b : Bytes m} {off' : ℕ}
    (h : ∀ i < w, a.get (off + i) = b.get (off' + i)) : a.le off w = b.le off' w :=
  leNat_congr h

/-- All fields of the zero string are 0. -/
@[simp] lemma le_zero (off w : ℕ) : (zero : Bytes n).le off w = 0 :=
  leNat_of_zero fun i _ => get_zero (off + i)

/-- A field inside the window written by `blit` is a field of the source. -/
lemma le_blit_of_mem (h : o + w ≤ len) (hn : off + len ≤ n) :
    (b.blit off len src).le (off + o) w = leNat (fun i => src (o + i)) w :=
  leNat_congr fun i hi => by
    rw [Nat.add_assoc, get_blit_of_mem (by omega) hn]

/-- A field beside the window written by `blit` is unchanged. -/
lemma le_blit_of_disjoint
    (h : o + w ≤ off ∨ off + len ≤ o) : (b.blit off len src).le o w = b.le o w :=
  leNat_congr fun i hi => get_blit_of_notMem (by omega)

/-- A field that was stored reads as its value, cut to the width. -/
lemma le_putLe_same (b : Bytes n) (off w v : ℕ) (h : off + w ≤ n) :
    (b.putLe off w v).le off w = v % 256 ^ w := by
  have hfield : (b.putLe off w v).le (off + 0) w = leNat (fun i => leByte v (0 + i)) w :=
    le_blit_of_mem (by omega) h
  simpa [leNat_leByte] using hfield

/-- The field just stored, when the value fits its width. -/
lemma le_putLe (h : off + w ≤ n := by omega) (hv : v < 256 ^ w := by omega) :
    (b.putLe off w v).le off w = v := by
  rw [le_putLe_same b off w v h, Nat.mod_eq_of_lt hv]

/-- Storing a field does not change a field beside it. -/
@[simp] lemma le_putLe_of_disjoint {w' : ℕ}
    (h : o + w' ≤ off ∨ off + w ≤ o := by omega) : (b.putLe off w v).le o w' = b.le o w' :=
  le_blit_of_disjoint h

/-- Storing a field changes no byte outside it. -/
lemma get_putLe_of_notMem (h : i < off ∨ off + w ≤ i) : (b.putLe off w v).get i = b.get i :=
  get_blit_of_notMem h

/-- The bytes of a field that was stored. -/
lemma get_putLe_of_mem (h : k < w) (hn : off + w ≤ n) :
    (b.putLe off w v).get (off + k) = leByte v k :=
  get_blit_of_mem h hn

/-- A field of a part is a field of the whole. -/
lemma le_slice {base : ℕ} (h : o + w ≤ m) : (b.slice base : Bytes m).le o w = b.le (base + o) w :=
  leNat_congr fun i hi => by rw [get_slice _ _ (by omega), Nat.add_assoc]

/-- Copying a record into a window and taking the window out again is the identity. -/
lemma slice_blit_self {r : Bytes m} (h : off + m ≤ n) :
    ((b.blit off m r.get).slice off : Bytes m) = r := by
  refine ext fun i hi => ?_
  rw [get_slice _ _ hi, get_blit_of_mem hi h]

/-- Taking out a window beside the one written sees the old bytes. -/
lemma slice_blit_of_disjoint {base : ℕ} (h : base + m ≤ off ∨ off + len ≤ base) :
    ((b.blit off len src).slice base : Bytes m) = b.slice base := by
  refine ext fun i hi => ?_
  rw [get_slice _ _ hi, get_slice _ _ hi, get_blit_of_notMem (by omega)]

/-- Storing back the value a field already holds changes nothing. -/
lemma putLe_le_self (b : Bytes n) (off w : ℕ) :
    b.putLe off w (b.le off w) = b := by
  refine ext fun i hi => ?_
  by_cases hw : off ≤ i ∧ i < off + w
  · have hv : leNat (leByte (b.le off w)) w = leNat (fun i => b.get (off + i)) w := by
      rw [leNat_leByte]
      exact Nat.mod_eq_of_lt (b.le_lt off w)
    rw [putLe, get_blit _ _ _ _ hi, if_pos hw, leNat_inj hv (i - off) (by omega),
      Nat.add_sub_of_le hw.1]
  · have hout : i < off ∨ off + w ≤ i := by omega
    exact get_putLe_of_notMem hout

/-- The later of two stores to one field wins. -/
lemma putLe_putLe (b : Bytes n) (off w v v' : ℕ) :
    (b.putLe off w v).putLe off w v' = b.putLe off w v' := by
  refine ext fun i hi => ?_
  by_cases hw : off ≤ i ∧ i < off + w
  · simp [putLe, get_blit _ _ _ _ hi, hw]
  · have hout : i < off ∨ off + w ≤ i := by omega
    rw [get_putLe_of_notMem hout, get_putLe_of_notMem hout, get_putLe_of_notMem hout]

/-! ### Bits of a byte -/

lemma bitMask_toBitVec (hk : k < 8) :
    (1 <<< UInt8.ofNat k : UInt8).toBitVec = BitVec.twoPow 8 k := by
  interval_cases k <;> rfl

/-- Masking a byte with one bit tests that bit. -/
lemma and_bitMask_ne_zero (x : UInt8) (hk : k < 8) :
    x &&& (1 <<< UInt8.ofNat k) ≠ 0 ↔ x.toBitVec.getLsbD k = true := by
  rw [Ne, ← UInt8.toBitVec_inj, UInt8.toBitVec_and, bitMask_toBitVec hk, BitVec.and_twoPow]
  cases x.toBitVec.getLsbD k
  · simp
  · interval_cases k <;> simp [BitVec.twoPow]

/-- Setting a bit with a mask. -/
lemma getLsbD_or_bitMask (x : UInt8) (hk : k < 8) (j : ℕ) :
    (x ||| (1 <<< UInt8.ofNat k)).toBitVec.getLsbD j =
      (x.toBitVec.getLsbD j || decide (j = k)) := by
  rw [UInt8.toBitVec_or, bitMask_toBitVec hk, BitVec.getLsbD_or, BitVec.getLsbD_twoPow]
  simp [hk, eq_comm]

/-- Clearing a bit with a mask. -/
lemma getLsbD_and_not_bitMask (x : UInt8) {j : ℕ} (hk : k < 8) (hj : j < 8) :
    (x &&& ~~~ (1 <<< UInt8.ofNat k)).toBitVec.getLsbD j =
      (x.toBitVec.getLsbD j && !decide (j = k)) := by
  rw [UInt8.toBitVec_and, UInt8.toBitVec_not, bitMask_toBitVec hk, BitVec.getLsbD_and,
    BitVec.getLsbD_not, BitVec.getLsbD_twoPow]
  simp [hk, hj, eq_comm]

-- Fields are compared by their offsets, never by unfolding the buffer they are read from.
attribute [irreducible] Bytes.le Bytes.putLe Bytes.blit Bytes.fill Bytes.slice Bytes.toList

end Bytes

end Northstar
