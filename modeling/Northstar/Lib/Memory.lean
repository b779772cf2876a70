import Northstar.Lib.Bytes

/-! # Memory

Memory is a byte for each address. A word is read and written little-endian. Every write changes the
bytes of one range, and a word that lies beside that range is read as before. -/

namespace Northstar

/-- The bytes of memory. -/
abbrev Memory : Type := ℕ → UInt8

namespace Memory

/-- The word of the width at an address. -/
def load (m : Memory) (address width : ℕ) : ℕ := leNat (fun i => m (address + i)) width

/-- A word is written. -/
def store (m : Memory) (address width value : ℕ) : Memory := fun x =>
  if address ≤ x ∧ x < address + width then leByte value (x - address) else m x

/-- `memcpy`. -/
def copy (m : Memory) (destination source length : ℕ) : Memory := fun x =>
  if destination ≤ x ∧ x < destination + length then m (source + (x - destination)) else m x

/-- `memset`. -/
def fill (m : Memory) (destination length : ℕ) (byte : UInt8) : Memory := fun x =>
  if destination ≤ x ∧ x < destination + length then byte else m x

variable {m m' : Memory} {address width value other : ℕ}

/-- Only the bytes of a word matter to it. -/
lemma load_congr (h : ∀ x, address ≤ x → x < address + width → m' x = m x) :
    m'.load address width = m.load address width :=
  leNat_congr fun i hi => h (address + i) (by omega) (by omega)

/-- A store does not change the bytes outside it. -/
lemma store_apply_of_not (h : ¬(address ≤ other ∧ other < address + width)) :
    m.store address width value other = m other := if_neg h

/-- A word that was stored is loaded again. -/
lemma load_store (h : value < 256 ^ width) :
    (m.store address width value).load address width = value := by
  have hbytes : (m.store address width value).load address width = leNat (leByte value) width :=
    leNat_congr fun i hi => by
      rw [store, if_pos (by omega), Nat.add_sub_cancel_left]
  rw [hbytes, leNat_leByte, Nat.mod_eq_of_lt h]

/-- A store does not change a word beside it. -/
lemma load_store_of_disjoint {width' : ℕ} (h : address + width ≤ other ∨ other + width' ≤ address) :
    (m.store address width value).load other width' = m.load other width' :=
  load_congr fun x hle hlt => store_apply_of_not (by omega)

/-- A copy does not change the bytes outside its destination. -/
lemma copy_apply_of_not {destination source length : ℕ}
    (h : ¬(destination ≤ other ∧ other < destination + length)) :
    m.copy destination source length other = m other := if_neg h

lemma copy_apply {destination source length i : ℕ} (h : i < length) :
    m.copy destination source length (destination + i) = m (source + i) := by
  rw [copy, if_pos (by omega), Nat.add_sub_cancel_left]

/-- A fill does not change the bytes outside it. -/
lemma fill_apply_of_not {destination length : ℕ} {byte : UInt8}
    (h : ¬(destination ≤ other ∧ other < destination + length)) :
    m.fill destination length byte other = m other := if_neg h

end Memory

end Northstar
