import Northstar.Mm.Pmm

/-! # Page-table entries and page flags

The words of a page table and the `NS_VMM_PAGE_*` flags of the interface are words with bits, read
with `testBit` and built by setting bits one after the other, as `entry_from_flags` and
`flags_from_entry` do. `orIf` is the repeated `if (…) entry |= bit` of the source; one lemma gives
its bits, and with it the round trip between flags and entries. -/

namespace Northstar

/-! ### Bit numbers -/

abbrev ptePresent : ℕ := 0
abbrev pteWrite : ℕ := 1
abbrev pteUser : ℕ := 2
abbrev ptePwt : ℕ := 3
abbrev ptePcd : ℕ := 4
abbrev pteHuge : ℕ := 7
abbrev pteGlobal : ℕ := 8
abbrev pteOwned : ℕ := 9
abbrev pteNx : ℕ := 63

/-- `X86_PTE_ADDR`, `X86_PTE_1G_ADDR` and `X86_PTE_2M_ADDR`. -/
abbrev pteAddr : ℕ := 0x000ffffffffff000
abbrev pte1gAddr : ℕ := 0x000fffffc0000000
abbrev pte2mAddr : ℕ := 0x000fffffffe00000

abbrev pageWrite : ℕ := 0
abbrev pageUser : ℕ := 1
abbrev pageExec : ℕ := 2
abbrev pageGlobal : ℕ := 3
abbrev pageNocache : ℕ := 4
abbrev pageOwned : ℕ := 5

/-- `if (c) word |= 1 << bit`. -/
def orIf (c : Bool) (bit word : ℕ) : ℕ := if c then word ||| 2 ^ bit else word

/-- The bits of a word with one more bit set under a condition. -/
lemma testBit_orIf (c : Bool) (bit word i : ℕ) :
    (orIf c bit word).testBit i = (word.testBit i || (c && decide (bit = i))) := by
  unfold orIf
  cases c <;> simp [Nat.testBit_or, Nat.testBit_two_pow]

/-- `entry_from_flags`. -/
def entryFromFlags (phys flags : ℕ) : ℕ :=
  orIf (!flags.testBit pageExec) pteNx <|
  orIf (flags.testBit pageOwned) pteOwned <|
  orIf (flags.testBit pageNocache) ptePwt <|
  orIf (flags.testBit pageNocache) ptePcd <|
  orIf (flags.testBit pageGlobal) pteGlobal <|
  orIf (flags.testBit pageUser) pteUser <|
  orIf (flags.testBit pageWrite) pteWrite <|
  (phys &&& pteAddr) ||| 2 ^ ptePresent

/-- `flags_from_entry`. -/
def flagsFromEntry (entry : ℕ) : ℕ :=
  orIf (entry.testBit pteOwned) pageOwned <|
  orIf (entry.testBit ptePcd || entry.testBit ptePwt) pageNocache <|
  orIf (entry.testBit pteGlobal) pageGlobal <|
  orIf (!entry.testBit pteNx) pageExec <|
  orIf (entry.testBit pteUser) pageUser <|
  orIf (entry.testBit pteWrite) pageWrite 0

/-! ### Addresses -/

/-- The bits of the address mask. -/
lemma testBit_pteAddr (i : ℕ) : pteAddr.testBit i = (decide (12 ≤ i) && decide (i < 52)) := by
  have heq : pteAddr = (2 ^ 40 - 1) * 2 ^ 12 := by decide
  rw [heq, Nat.testBit_mul_two_pow, Nat.testBit_two_pow_sub_one]
  by_cases h : 12 ≤ i
  · simp only [h, decide_true, Bool.true_and, decide_eq_decide]
    omega
  · simp [h]

/-- A page address below `2 ^ 52` is its own address field. -/
lemma and_pteAddr {phys : ℕ} (hpage : phys % 4096 = 0) (hlt : phys < 2 ^ 52) :
    phys &&& pteAddr = phys := by
  refine Nat.eq_of_testBit_eq fun i => ?_
  rw [Nat.testBit_and, testBit_pteAddr]
  by_cases hlow : 12 ≤ i
  · by_cases hhigh : i < 52
    · simp [hlow, hhigh]
    · rw [Nat.testBit_eq_false_of_lt (hlt.trans_le (Nat.pow_le_pow_right (by omega) (by omega)))]
      simp
  · have hbit : (phys % 2 ^ 12).testBit i = phys.testBit i := by
      rw [Nat.testBit_mod_two_pow]
      simp [Nat.lt_of_not_le hlow]
    rw [← hbit, show phys % 2 ^ 12 = 0 from hpage]
    simp

/-- The address field of a word is a page address below `2 ^ 52`. -/
lemma and_pteAddr_spec (w : ℕ) : (w &&& pteAddr) % 4096 = 0 ∧ w &&& pteAddr < 2 ^ 52 := by
  constructor
  · refine Nat.eq_of_testBit_eq fun i => ?_
    rw [show (4096 : ℕ) = 2 ^ 12 from rfl, Nat.testBit_mod_two_pow, Nat.testBit_and,
      testBit_pteAddr]
    by_cases h : 12 ≤ i
    · simp [Nat.not_lt.mpr h]
    · simp [h]
  · exact Nat.lt_of_le_of_lt Nat.and_le_right (by decide)

/-- Setting one of the low or high attribute bits leaves the address field alone. -/
lemma orIf_and_pteAddr (c : Bool) {bit : ℕ} (hbit : bit < 12 ∨ 52 ≤ bit) (w : ℕ) :
    orIf c bit w &&& pteAddr = w &&& pteAddr := by
  refine Nat.eq_of_testBit_eq fun i => ?_
  rw [Nat.testBit_and, Nat.testBit_and, testBit_orIf, testBit_pteAddr]
  by_cases hi : bit = i
  · subst hi
    rcases hbit with h | h
    · simp [Nat.not_le.mpr h]
    · simp [Nat.not_lt.mpr h]
  · simp [hi]

/-! ### Entries made from flags -/

section EntryFromFlags

variable (phys flags : ℕ)

/-- An address has no flag bits. -/
lemma testBit_and_pteAddr_low {i : ℕ} (h : i < 12 ∨ 52 ≤ i) :
    (phys &&& pteAddr).testBit i = false := by
  rw [Nat.testBit_and, testBit_pteAddr]
  rcases h with h | h
  · simp [Nat.not_le.mpr h]
  · simp [Nat.not_lt.mpr h]

/-- The attribute bits of an entry made from flags. -/
lemma testBit_entryFromFlags {i : ℕ} (h : i < 12 ∨ 52 ≤ i) :
    (entryFromFlags phys flags).testBit i =
      (decide (ptePresent = i) || (flags.testBit pageWrite && decide (pteWrite = i)) ||
        (flags.testBit pageUser && decide (pteUser = i)) ||
        (flags.testBit pageGlobal && decide (pteGlobal = i)) ||
        (flags.testBit pageNocache && decide (ptePcd = i)) ||
        (flags.testBit pageNocache && decide (ptePwt = i)) ||
        (flags.testBit pageOwned && decide (pteOwned = i)) ||
        (!flags.testBit pageExec && decide (pteNx = i))) := by
  unfold entryFromFlags
  simp only [testBit_orIf, Nat.testBit_or, Nat.testBit_two_pow, testBit_and_pteAddr_low phys h,
    Bool.false_or]

@[simp] lemma entryFromFlags_present : (entryFromFlags phys flags).testBit ptePresent = true := by
  rw [testBit_entryFromFlags _ _ (by decide)]
  simp

@[simp] lemma entryFromFlags_huge : (entryFromFlags phys flags).testBit pteHuge = false := by
  rw [testBit_entryFromFlags _ _ (by decide)]
  simp

/-- An entry is owned if the flags say so. -/
@[simp] lemma entryFromFlags_owned :
    (entryFromFlags phys flags).testBit pteOwned = flags.testBit pageOwned := by
  rw [testBit_entryFromFlags _ _ (by decide)]
  simp

/-- An entry holds the address of its frame. -/
@[simp] lemma entryFromFlags_addr : entryFromFlags phys flags &&& pteAddr = phys &&& pteAddr := by
  unfold entryFromFlags
  rw [orIf_and_pteAddr _ (by decide), orIf_and_pteAddr _ (by decide),
    orIf_and_pteAddr _ (by decide), orIf_and_pteAddr _ (by decide), orIf_and_pteAddr _ (by decide),
    orIf_and_pteAddr _ (by decide), orIf_and_pteAddr _ (by decide)]
  have hor := orIf_and_pteAddr true (show ptePresent < 12 ∨ 52 ≤ ptePresent by decide)
    (phys &&& pteAddr)
  rw [orIf, if_pos rfl] at hor
  rw [hor, Nat.and_assoc, Nat.and_self]

end EntryFromFlags

/-- The flags read from an entry, bit by bit. -/
lemma testBit_flagsFromEntry (entry i : ℕ) :
    (flagsFromEntry entry).testBit i =
      ((entry.testBit pteWrite && decide (pageWrite = i)) ||
        (entry.testBit pteUser && decide (pageUser = i)) ||
        (!entry.testBit pteNx && decide (pageExec = i)) ||
        (entry.testBit pteGlobal && decide (pageGlobal = i)) ||
        ((entry.testBit ptePcd || entry.testBit ptePwt) && decide (pageNocache = i)) ||
        (entry.testBit pteOwned && decide (pageOwned = i))) := by
  unfold flagsFromEntry
  simp only [testBit_orIf, Nat.zero_testBit, Bool.false_or]

/-- An entry made from the defined flags gives them back. -/
lemma flagsFromEntry_entryFromFlags (phys : ℕ) {flags : ℕ} (h : flags < 64) :
    flagsFromEntry (entryFromFlags phys flags) = flags := by
  refine Nat.eq_of_testBit_eq fun i => ?_
  rw [testBit_flagsFromEntry]
  rw [testBit_entryFromFlags _ _ (by decide), testBit_entryFromFlags _ _ (by decide),
    testBit_entryFromFlags _ _ (by decide), testBit_entryFromFlags _ _ (by decide),
    testBit_entryFromFlags _ _ (by decide), testBit_entryFromFlags _ _ (by decide),
    testBit_entryFromFlags _ _ (by decide)]
  rcases Nat.lt_or_ge i 6 with hi | hi
  · interval_cases i <;> simp
  · have hbit : flags.testBit i = false :=
      Nat.testBit_eq_false_of_lt (h.trans_le (Nat.pow_le_pow_right (by omega) hi : 2 ^ 6 ≤ 2 ^ i))
    have hne : ∀ k < 6, k ≠ i := fun k hk => by omega
    simp [hbit, hne pageWrite (by decide), hne pageUser (by decide), hne pageExec (by decide),
      hne pageGlobal (by decide), hne pageNocache (by decide), hne pageOwned (by decide)]

end Northstar
