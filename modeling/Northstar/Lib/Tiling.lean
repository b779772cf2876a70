import Mathlib.Algebra.BigOperators.Group.List.Basic
import Mathlib.Tactic

/-! # Blocks that tile a range

A range of addresses is cut into blocks that follow one another without a gap, so the address of a
block is determined by the blocks before it. Blocks that are linked both ways hold the addresses of
their neighbours; what it takes for a block to be at an address between two others is a parameter.

Splitting a block, joining two of them and changing one in place all replace a part of the list by
another part of the same extent, which moves no other block. -/

namespace Northstar

variable {α : Type*} (span : α → ℕ)

/-- How far a list of blocks reaches. -/
def extent (blocks : List α) : ℕ := (blocks.map span).sum

/-- The address of the last block of a list that starts at an address, or that of the block before
the list. -/
def lastAddress : ℕ → ℕ → List α → ℕ
  | previous, _, [] => previous
  | _, address, b :: bs => lastAddress address (address + span b) bs

/-- The address of the first block of a list that starts at an address, or that of the block after
the list. -/
def firstAddress (address next : ℕ) : List α → ℕ
  | [] => next
  | _ :: _ => address

/-- The block at an address. -/
def blockAt : ℕ → List α → ℕ → Option α
  | _, [], _ => none
  | address, b :: bs, a => if a = address then some b else blockAt (address + span b) bs a

/-- Each block is where it belongs, between its neighbours. -/
def Strung (at' : ℕ → ℕ → ℕ → α → Prop) : ℕ → ℕ → List α → ℕ → Prop
  | _, _, [], _ => True
  | previous, address, b :: bs, next =>
    at' previous address (firstAddress (address + span b) next bs) b ∧
      Strung at' address (address + span b) bs next

variable {span} {at' at'' : ℕ → ℕ → ℕ → α → Prop} {xs ys bs : List α} {b c : α}
  {previous address next a : ℕ}

/-! ### Addresses -/

@[simp] lemma extent_nil : extent span [] = 0 := rfl

/-- The extent of a block and the blocks behind it. -/
@[simp] lemma extent_cons : extent span (b :: bs) = span b + extent span bs := by
  simp [extent]

/-- The extent of two parts. -/
@[simp] lemma extent_append : extent span (xs ++ ys) = extent span xs + extent span ys := by
  simp [extent]

/-- The last address of two parts. -/
lemma lastAddress_append : lastAddress span previous address (xs ++ ys) =
    lastAddress span (lastAddress span previous address xs) (address + extent span xs) ys := by
  induction xs generalizing previous address with
  | nil => simp [lastAddress]
  | cons x xs ih =>
    rw [List.cons_append, lastAddress, ih, lastAddress, extent_cons, Nat.add_assoc]

/-- What is before a list matters to its last address only if it has no block. -/
lemma lastAddress_of_ne_nil {previous' : ℕ} (h : xs ≠ []) :
    lastAddress span previous' address xs = lastAddress span previous address xs := by
  cases xs with
  | nil => exact absurd rfl h
  | cons x xs => rfl

/-! ### Neighbours -/

/-- Two parts are strung together if each is strung, with the other one at its end. -/
lemma strung_append : Strung span at' previous address (xs ++ ys) next ↔
    Strung span at' previous address xs (firstAddress (address + extent span xs) next ys) ∧
      Strung span at' (lastAddress span previous address xs)
        (address + extent span xs) ys next := by
  induction xs generalizing previous address with
  | nil => simp [Strung, lastAddress]
  | cons x xs ih =>
    rw [List.cons_append, Strung, Strung, ih, extent_cons, ← Nat.add_assoc, lastAddress, and_assoc]
    cases xs with
    | nil => cases ys <;> simp [firstAddress]
    | cons x' xs => simp [firstAddress]

/-- A change that every block of a list survives. -/
lemma Strung.imp (h : Strung span at' previous address bs next)
    (himp : ∀ p a n b, address ≤ a → a + span b ≤ address + extent span bs →
      at' p a n b → at'' p a n b) : Strung span at'' previous address bs next := by
  induction bs generalizing previous address with
  | nil => trivial
  | cons b bs ih =>
    rw [extent_cons] at himp
    refine ⟨himp _ _ _ _ le_rfl (by omega) h.1, ih h.2 fun p a n c hle hend => ?_⟩
    exact himp p a n c (by omega) (by omega)

/-- Only the first block of a list knows of the block before it. -/
lemma Strung.ofPrevious {previous' least : ℕ} (h : Strung span at' previous address bs next)
    (hfirst : ∀ b bs', bs = b :: bs' →
      at' previous address (firstAddress (address + span b) next bs') b →
      at'' previous' address (firstAddress (address + span b) next bs') b)
    (himp : ∀ p a n b, address + least ≤ a → a + span b ≤ address + extent span bs →
      at' p a n b → at'' p a n b)
    (hleast : ∀ b ∈ bs, least ≤ span b) : Strung span at'' previous' address bs next := by
  cases bs with
  | nil => trivial
  | cons b bs =>
    have hb : least ≤ span b := hleast b (by simp)
    rw [extent_cons] at himp
    refine ⟨hfirst b bs rfl h.1, h.2.imp fun p a n c hle hend => ?_⟩
    exact himp p a n c (by omega) (by omega)

/-- The first address is that of the first part, if there is one. -/
lemma firstAddress_append (h : xs ≠ []) :
    firstAddress address next (xs ++ ys) = firstAddress address next xs := by
  cases xs with
  | nil => exact absurd rfl h
  | cons x xs => rfl

/-- A part of the list is replaced by another of the same extent. Of the blocks beside it, only the
one that follows has a new neighbour before it. -/
lemma Strung.replace {mid mid' : List α} {least : ℕ}
    (h : Strung span at' previous address (xs ++ (mid ++ ys)) next)
    (hmid : mid ≠ []) (hmid' : mid' ≠ []) (hextent : extent span mid' = extent span mid)
    (hleast : ∀ b ∈ ys, least ≤ span b)
    (hbefore : ∀ p a n b, address ≤ a → a + span b ≤ address + extent span xs →
      at' p a n b → at'' p a n b)
    (hnew : Strung span at'' (lastAddress span previous address xs) (address + extent span xs) mid'
      (firstAddress (address + extent span xs + extent span mid) next ys))
    (hfirst : ∀ p n b bs, ys = b :: bs → at' p (address + extent span xs + extent span mid) n b →
      at'' (lastAddress span (lastAddress span previous address xs) (address + extent span xs) mid')
        (address + extent span xs + extent span mid) n b)
    (hafter : ∀ p a n b, address + extent span xs + extent span mid + least ≤ a →
      a + span b ≤ address + extent span xs + extent span mid + extent span ys →
      at' p a n b → at'' p a n b) :
    Strung span at'' previous address (xs ++ (mid' ++ ys)) next := by
  rw [strung_append, strung_append] at h ⊢
  obtain ⟨hxs, -, hys⟩ := h
  refine ⟨?_, ?_, ?_⟩
  · rw [firstAddress_append hmid']
    rw [firstAddress_append hmid] at hxs
    have hsame : firstAddress (address + extent span xs) next mid' =
        firstAddress (address + extent span xs) next mid := by
      cases mid' with
      | nil => exact absurd rfl hmid'
      | cons b' bs' =>
        cases mid with
        | nil => exact absurd rfl hmid
        | cons b bs => rfl
    rw [hsame]
    exact hxs.imp hbefore
  · rw [hextent]
    exact hnew
  · rw [hextent]
    exact hys.ofPrevious (fun b bs hb => hfirst _ _ b bs hb) hafter hleast

/-! ### The block at an address -/

/-- A block of two parts is a block of one of them. -/
lemma blockAt_append : blockAt span address (xs ++ ys) a =
    (blockAt span address xs a).or (blockAt span (address + extent span xs) ys a) := by
  induction xs generalizing address with
  | nil => simp [blockAt]
  | cons x xs ih =>
    rw [List.cons_append, blockAt, blockAt, ih, extent_cons, ← Nat.add_assoc]
    split <;> simp

/-- A block of two parts is found in one of them. -/
lemma blockAt_append_cases (h : blockAt span address (xs ++ ys) a = some b) :
    blockAt span address xs a = some b ∨ blockAt span (address + extent span xs) ys a = some b := by
  rw [blockAt_append, Option.or_eq_some_iff] at h
  exact h.imp_right And.right

section

variable (h : blockAt span address bs a = some b)
include h

/-- A block lies within the range, between those before it and those after it. -/
lemma blockAt_eq_some : ∃ xs ys, bs = xs ++ b :: ys ∧ a = address + extent span xs := by
  induction bs generalizing address with
  | nil => exact absurd h.symm (Option.some_ne_none b)
  | cons c bs ih =>
    rw [blockAt] at h
    split at h
    · rename_i ha
      obtain rfl := Option.some.inj h
      exact ⟨[], bs, rfl, by simpa using ha⟩
    · obtain ⟨xs, ys, rfl, ha⟩ := ih h
      refine ⟨c :: xs, ys, rfl, ?_⟩
      rw [extent_cons, ha, Nat.add_assoc]

/-- A block lies within the extent. -/
lemma le_of_blockAt : address ≤ a ∧ a + span b ≤ address + extent span bs := by
  obtain ⟨xs, ys, rfl, rfl⟩ := blockAt_eq_some h
  rw [extent_append, extent_cons]
  omega

/-- A block that is found is in the list. -/
lemma mem_of_blockAt : b ∈ bs := by
  obtain ⟨xs, ys, rfl, -⟩ := blockAt_eq_some h
  simp

end

/-- There is no block outside the range. -/
lemma blockAt_eq_none (hpos : ∀ b ∈ bs, 0 < span b)
    (h : a < address ∨ address + extent span bs ≤ a) : blockAt span address bs a = none := by
  cases hat : blockAt span address bs a with
  | none => rfl
  | some b =>
    have hle := le_of_blockAt hat
    have := hpos b (mem_of_blockAt hat)
    omega

/-- The block after a list of blocks is at the end of the list. -/
lemma blockAt_append_cons (hpos : ∀ b ∈ xs, 0 < span b) :
    blockAt span address (xs ++ b :: ys) (address + extent span xs) = some b := by
  rw [blockAt_append, blockAt_eq_none hpos (.inr le_rfl), Option.none_or, blockAt, if_pos rfl]

/-- Two blocks do not overlap. -/
lemma blockAt_disjoint {a' : ℕ} (h : blockAt span address bs a = some b)
    (h' : blockAt span address bs a' = some c) (hne : a ≠ a') :
    a + span b ≤ a' ∨ a' + span c ≤ a := by
  induction bs generalizing address with
  | nil => exact absurd h.symm (Option.some_ne_none b)
  | cons d bs ih =>
    rw [blockAt] at h h'
    split at h <;> split at h'
    · omega
    · obtain rfl := Option.some.inj h
      have := (le_of_blockAt h').1
      omega
    · obtain rfl := Option.some.inj h'
      have := (le_of_blockAt h).1
      omega
    · exact ih h h'

/-- A part of the list is replaced by another of the same extent: no other block moves. -/
lemma blockAt_replace {mid mid' : List α} (hpos : ∀ b ∈ mid, 0 < span b)
    (hpos' : ∀ b ∈ mid', 0 < span b) (hextent : extent span mid' = extent span mid)
    (h : a < address + extent span xs ∨ address + extent span xs + extent span mid ≤ a) :
    blockAt span address (xs ++ (mid' ++ ys)) a = blockAt span address (xs ++ (mid ++ ys)) a := by
  rw [blockAt_append, blockAt_append, blockAt_append, blockAt_append,
    blockAt_eq_none hpos h, blockAt_eq_none hpos' (hextent ▸ h), hextent]

end Northstar
