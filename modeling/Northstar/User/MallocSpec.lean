import Northstar.User.Malloc

/-! # The heap as a list of blocks

The blocks of the heap follow one another from the first value of the break to the break. What the
allocator does to memory is described by what it does to this list: splitting a block, joining it
with the next one and marking it replace a part of the list by another of the same extent, and
growing the heap adds a block at its end. -/

namespace Northstar

open Memory (load_store load_store_of_disjoint store_apply_of_not load_congr)

/-- A block, without its links. -/
structure Chunk where
  size : ℕ
  free : Bool

/-- The bytes of a block and of its header. -/
def Chunk.span (c : Chunk) : ℕ := allocHeader + c.size

open Chunk (span)

lemma Chunk.span_eq (c : Chunk) : c.span = 40 + c.size := rfl

lemma Chunk.span_mk (size : ℕ) (free : Bool) : span ⟨size, free⟩ = 40 + size := rfl

lemma Chunk.span_pos (c : Chunk) : 0 < c.span := by
  rw [c.span_eq]
  omega

/-- A number of 64 bits is not changed. -/
lemma wrap64_of_lt {value : ℕ} (h : value < 2 ^ 64) : wrap64 value = value := Nat.mod_eq_of_lt h

namespace Malloc

/-- The header at an address is that of a block between two others. -/
structure Header (s : Malloc) (before address after : ℕ) (c : Chunk) : Prop where
  magic : s.magic address = allocMagic
  size : s.size address = c.size
  previous : s.previous address = before
  next : s.next address = after
  free : s.isFree address = if c.free then 1 else 0

/-- The blocks of the heap. -/
structure Tiles (s : Malloc) (cs : List Chunk) : Prop where
  /-- No block is at the address of `NULL`. -/
  positive : 0 < s.base
  /-- The break stays in the lower half of the address space. -/
  within : s.brk ≤ s.limit
  bound : s.limit < 2 ^ 63
  running : s.exited = false
  strung : Strung span s.Header 0 s.base cs 0
  reach : s.base + extent span cs = s.brk
  head : s.head = firstAddress s.base 0 cs
  tail : s.tail = lastAddress span 0 s.base cs

variable {s s' : Malloc} {cs xs ys mid mid' : List Chunk} {c d : Chunk}
  {before address after : ℕ}

/-! ### Headers -/

/-- A header whose bytes are as before, those of its links apart. -/
lemma Header.rewrite {before' after' : ℕ} (h : s.Header before address after c)
    (hmem : ∀ x, address ≤ x → x < address + 40 → ¬(address + 16 ≤ x ∧ x < address + 32) →
      s'.memory x = s.memory x)
    (hprevious : s'.previous address = before') (hnext : s'.next address = after') :
    s'.Header before' address after' c where
  magic := by
    rw [← h.magic]
    exact load_congr fun x hle hlt => hmem x (by omega) (by omega) (by omega)
  size := by
    rw [← h.size]
    exact load_congr fun x hle hlt => hmem x (by omega) (by omega) (by omega)
  previous := hprevious
  next := hnext
  free := by
    rw [← h.free]
    exact load_congr fun x hle hlt => hmem x (by omega) (by omega) (by omega)

/-- A header of which only the link to the block in front has changed. -/
lemma Header.relink {before' : ℕ} (h : s.Header before address after c)
    (hmem : ∀ x, address ≤ x → x < address + 40 → ¬(address + 16 ≤ x ∧ x < address + 24) →
      s'.memory x = s.memory x)
    (hprevious : s'.previous address = before') : s'.Header before' address after c := by
  apply h.rewrite (fun x hle hlt hnot => hmem x hle hlt (by omega)) hprevious
  rw [← h.next]
  exact load_congr fun x hle hlt => hmem x (by omega) (by omega) (by omega)

lemma Header.congr (h : s.Header before address after c)
    (hmem : ∀ x, address ≤ x → x < address + 40 → s'.memory x = s.memory x) :
    s'.Header before address after c := by
  apply h.relink (fun x hle hlt _ => hmem x hle hlt)
  rw [← h.previous]
  exact load_congr fun x hle hlt => hmem x (by omega) (by omega)

/-! ### A part of the list is replaced -/

/-- Every block takes up room. -/
lemma span_pos_of_mem : ∀ b ∈ cs, 0 < span b := fun b _ => b.span_pos

/-- Every block has room for its header. -/
lemma header_le_span_of_mem : ∀ b ∈ cs, 40 ≤ span b := fun _ _ => Nat.le_add_right _ _

variable {first last width value other size block x next increment : ℕ} {m : Memory}

/-! ### What is known of a block of the list -/

/-- The header of a block between two others. -/
lemma Tiles.header (h : s.Tiles (xs ++ c :: ys)) :
    s.Header (lastAddress span 0 s.base xs) (s.base + extent span xs)
      (firstAddress (s.base + extent span xs + c.span) 0 ys) c :=
  (strung_append.1 h.strung).2.1

/-- A block ends in front of the break. -/
lemma Tiles.end_le (h : s.Tiles (xs ++ c :: ys)) :
    s.base + extent span xs + (40 + c.size) ≤ s.brk := by
  have hreach := h.reach
  rw [extent_append, extent_cons, c.span_eq] at hreach
  omega

/-- The break is far below the end of the address space. -/
lemma Tiles.brk_lt (h : s.Tiles cs) : s.brk < 2 ^ 63 := lt_of_le_of_lt h.within h.bound

/-- The block after a block links back to it. -/
lemma Tiles.previous_next (h : s.Tiles (xs ++ c :: ys)) (hys : ys ≠ []) :
    s.previous (s.base + extent span xs + c.span) = s.base + extent span xs := by
  obtain ⟨d, ds, rfl⟩ := List.exists_cons_of_ne_nil hys
  exact (strung_append.1 h.strung).2.2.1.previous

/-- The last block is the one that the allocator knows as its last. -/
lemma Tiles.tail_eq (h : s.Tiles (xs ++ [c])) : s.tail = s.base + extent span xs := by
  rw [h.tail, lastAddress_append]
  rfl

/-! ### What stays as it is -/

/-- A block in use, at an address of the heap. -/
def Used (s : Malloc) (cs : List Chunk) (a : ℕ) (d : Chunk) : Prop :=
  blockAt span s.base cs a = some d ∧ d.free = false

/-- The heap has gone from one list of blocks to another. Every block in use stays in use with its
contents, the blocks at some addresses apart. -/
structure Frame (s : Malloc) (cs : List Chunk) (s' : Malloc) (cs' : List Chunk)
    (apart : ℕ → Prop) : Prop where
  tiles : s'.Tiles cs'
  base : s'.base = s.base
  used : ∀ a d, ¬apart a → s.Used cs a d → s'.Used cs' a d
  contents : ∀ a d, ¬apart a → s.Used cs a d →
    ∀ x, a + 40 ≤ x → x < a + 40 + d.size → s'.memory x = s.memory x

variable {apart apart' : ℕ → Prop}

lemma Frame.refl (h : s.Tiles cs) : Frame s cs s cs apart where
  tiles := h
  base := rfl
  used := fun _ _ _ hused => hused
  contents := fun _ _ _ _ _ _ _ => rfl

lemma Frame.trans {s1 s2 s3 : Malloc} {cs1 cs2 cs3 : List Chunk}
    (h : Frame s1 cs1 s2 cs2 apart) (h' : Frame s2 cs2 s3 cs3 apart) :
    Frame s1 cs1 s3 cs3 apart where
  tiles := h'.tiles
  base := h'.base.trans h.base
  used := fun a d ha hused => h'.used a d ha (h.used a d ha hused)
  contents := by
    intro a d ha hused x hle hlt
    rw [h'.contents a d ha (h.used a d ha hused) x hle hlt, h.contents a d ha hused x hle hlt]

/-- An address that no block in use has need not be set apart. -/
lemma Frame.weaken (h : Frame s cs s' cs' apart)
    (himp : ∀ a d, s.Used cs a d → apart a → apart' a) : Frame s cs s' cs' apart' where
  tiles := h.tiles
  base := h.base
  used := fun a d ha hused => h.used a d (fun hapart => ha (himp a d hused hapart)) hused
  contents := fun a d ha hused =>
    h.contents a d (fun hapart => ha (himp a d hused hapart)) hused

section Replace

variable (h : s.Tiles (xs ++ (c :: mid ++ ys))) (hmid : ∀ d ∈ mid, d.free = true)
    (hmid' : mid' ≠ [])
  (hextent : extent span mid' = extent span (c :: mid)) (hfirst : first = s.base + extent span xs)
  (hlast : last = lastAddress span (lastAddress span 0 s.base xs) first mid')
  (heq : s' = { s with memory := s'.memory, tail := s'.tail })
  (hmem : ∀ x, ¬(first ≤ x ∧ x < first + extent span (c :: mid)) →
    (ys ≠ [] → ¬(first + extent span (c :: mid) + 16 ≤ x ∧
      x < first + extent span (c :: mid) + 24)) → s'.memory x = s.memory x)
  (hnew : Strung span s'.Header (lastAddress span 0 s.base xs) first mid'
    (firstAddress (first + extent span (c :: mid)) 0 ys))
  (hlink : ys ≠ [] → s'.previous (first + extent span (c :: mid)) = last)
  (htail : s'.tail = if ys = [] then last else s.tail)

include h hmid' hextent hfirst hlast heq hmem hnew hlink htail

/-- Where a part of the list is replaced, memory changes in that part, and in the header of the
block after it the link to the block before. -/
lemma Tiles.replace : s'.Tiles (xs ++ (mid' ++ ys)) := by
  subst hfirst hlast
  have hbase : s'.base = s.base := by rw [heq]
  have hreach := h.reach
  rw [extent_append, extent_append] at hreach
  refine ⟨?_, ?_, ?_, ?_, ?_, ?_, ?_, ?_⟩
  · rw [hbase]
    exact h.positive
  · rw [heq]
    exact h.within
  · rw [heq]
    exact h.bound
  · rw [heq]
    exact h.running
  · rw [hbase]
    apply h.strung.replace (List.cons_ne_nil c mid) hmid' hextent header_le_span_of_mem _ hnew
    · intro p n b bs hys hb
      apply hb.relink
      · intro x hle hlt hnot
        exact hmem x (by omega) fun _ => hnot
      · exact hlink (by rw [hys]; exact List.cons_ne_nil b bs)
    · intro p a n b hlt hend hb
      apply hb.congr
      -- the block lies after the whole of the header that changes
      exact fun x hle hx => hmem x (by omega) fun _ => by omega
    · intro p a n b hle hend hb
      rw [b.span_eq] at hend
      exact hb.congr fun x hx hx' => hmem x (by omega) fun _ => by omega
  · rw [hbase, extent_append, extent_append, hextent, hreach, heq]
  · rw [hbase]
    have hhead : s'.head = s.head := by rw [heq]
    rw [hhead, h.head]
    cases xs with
    | cons x xs => rfl
    | nil =>
      cases mid' with
      | nil => exact absurd rfl hmid'
      | cons b bs => rfl
  · rw [htail, hbase, lastAddress_append, lastAddress_append, hextent]
    split
    · rename_i hys
      rw [hys]
      rfl
    · rename_i hys
      rw [h.tail, lastAddress_append, lastAddress_append]
      exact lastAddress_of_ne_nil hys

include hmid

/-- Replacing a part of the list in which no block is in use, the first apart. -/
lemma Frame.replace : Frame s (xs ++ (c :: mid ++ ys)) s' (xs ++ (mid' ++ ys)) (· = first) := by
  have htiles := h.replace hmid' hextent hfirst hlast heq hmem hnew hlink htail
  have hbase : s'.base = s.base := by rw [heq]
  subst hfirst
  have hout : ∀ a d, a ≠ s.base + extent span xs → s.Used (xs ++ (c :: mid ++ ys)) a d →
      a + d.span ≤ s.base + extent span xs ∨
        s.base + extent span xs + extent span (c :: mid) ≤ a := by
    intro a d ha hused
    obtain hat | hat := blockAt_append_cases hused.1
    · exact .inl (le_of_blockAt hat).2
    obtain hat | hat := blockAt_append_cases hat
    · rw [blockAt, if_neg ha] at hat
      have hfree := hmid d (mem_of_blockAt hat)
      rw [hused.2] at hfree
      exact absurd hfree Bool.false_ne_true
    · exact .inr (le_of_blockAt hat).1
  refine ⟨htiles, hbase, ?_, ?_⟩
  · intro a d ha hused
    refine ⟨?_, hused.2⟩
    rw [hbase, blockAt_replace span_pos_of_mem span_pos_of_mem hextent]
    · exact hused.1
    · have := hout a d ha hused
      omega
  · intro a d ha hused x hle hlt
    have hplace := hout a d ha hused
    rw [d.span_eq] at hplace
    exact hmem x (by omega) fun _ => by omega

end Replace

/-! ### A block is marked -/

/-- Reading a word of a header after one of them is written. -/
lemma load_write_of_disjoint {at' width' : ℕ} (h : at' + width ≤ other ∨ other + width' ≤ at') :
    (s.write at' width value).memory.load other width' = s.memory.load other width' :=
  load_store_of_disjoint h

/-- A field that was written. -/
lemma load_write {at' : ℕ} (h : value < 256 ^ width) :
    (s.write at' width value).memory.load at' width = value := load_store h

/-- Marking a block changes its mark only. -/
lemma Header.setFree (h : s.Header before address after c) (free : Bool) :
    (s.setFree address (if free then 1 else 0)).Header before address after { c with free } where
  magic := by
    rw [← h.magic]
    exact load_write_of_disjoint (by omega)
  size := by
    rw [← h.size]
    exact load_write_of_disjoint (by omega)
  previous := by
    rw [← h.previous]
    exact load_write_of_disjoint (by omega)
  next := by
    rw [← h.next]
    exact load_write_of_disjoint (by omega)
  free := load_write (by split <;> norm_num)

/-- Marking a block in the heap. -/
lemma Tiles.setFree (h : s.Tiles (xs ++ c :: ys)) (free : Bool) :
    Frame s (xs ++ c :: ys) (s.setFree (s.base + extent span xs) (if free then 1 else 0))
      (xs ++ { c with free } :: ys) (· = s.base + extent span xs) := by
  have hheader := h.header.setFree free
  have hextent : extent span [c] = c.span := by simp
  have hlist : s.Tiles (xs ++ ([c] ++ ys)) := h
  show Frame s (xs ++ ([c] ++ ys)) _ (xs ++ ([{ c with free }] ++ ys)) _
  refine Frame.replace hlist (by simp) (by simp) (by rfl) rfl rfl rfl ?_ ?_ ?_ ?_
  · intro x hnot _
    rw [hextent, c.span_eq] at hnot
    exact store_apply_of_not (by omega)
  · rw [hextent]
    exact ⟨hheader, trivial⟩
  · intro hys
    have hprevious := h.previous_next hys
    rw [hextent]
    rw [c.span_eq] at hprevious ⊢
    exact (load_write_of_disjoint (by omega)).trans hprevious
  · by_cases hys : ys = []
    · subst hys
      exact h.tail_eq
    · rw [if_neg hys]
      rfl

/-! ### A block is split -/

/-- What `split_allocation` writes where there is room for another block. -/
def splitMemory (m : Memory) (block size rest after : ℕ) : Memory :=
  let tail := block + 40 + size
  let m := m.store tail 8 allocMagic
  let m := m.store (tail + 8) 8 rest
  let m := m.store (tail + 16) 8 block
  let m := m.store (tail + 24) 8 after
  let m := m.store (tail + 32) 4 1
  let m := if after ≠ 0 then m.store (after + 16) 8 tail else m
  let m := m.store (block + 24) 8 tail
  m.store (block + 8) 8 size

/-- What `split_allocation` does to a block that is large enough. -/
lemma splitAllocation_eq (h : s.Header before address after c)
    (hroom : size + 72 ≤ c.size) (hend : address + 40 + c.size < 2 ^ 63)
    (hafter : after = 0 ∨ after = address + 40 + c.size) :
    s.splitAllocation address size =
      { s with
        memory := splitMemory s.memory address size (c.size - size - 40) after
        tail := if after ≠ 0 then s.tail else address + 40 + size } := by
  have hsize : s.memory.load (address + 8) 8 = c.size := h.size
  have hnext : s.memory.load (address + 24) 8 = after := h.next
  have hneed : wrap64 (size + allocHeader + 32) = size + 72 := wrap64_of_lt (by
    unfold allocHeader
    omega)
  have htail : wrap64 (address + allocHeader + size) = address + 40 + size := wrap64_of_lt (by
    unfold allocHeader
    omega)
  have hrest : wrap64 (c.size + 2 ^ 64 - size + 2 ^ 64 - allocHeader) = c.size - size - 40 := by
    unfold wrap64 allocHeader
    omega
  unfold splitAllocation
  rw [hneed, htail, if_neg (by rw [h.size]; omega)]
  simp (disch := omega) only [Malloc.size, Malloc.next, setMagic, setSize, setPrevious, setNext,
    Malloc.setFree, write, load_store_of_disjoint, hsize, hnext, hrest]
  have hlt : after < 256 ^ 8 := by omega
  rw [load_store hlt]
  by_cases hz : after = 0
  · simp only [hz, ne_eq, not_true_eq_false, if_false, splitMemory]
  · simp only [hz, ne_eq, not_false_eq_true, if_true, splitMemory]

/-- The link to the next block is that of the end of this one, or `NULL`. -/
lemma firstAddress_cases (address : ℕ) (ys : List Chunk) :
    ys = [] ∧ firstAddress address 0 ys = 0 ∨ ys ≠ [] ∧ firstAddress address 0 ys = address := by
  cases ys with
  | nil => exact .inl ⟨rfl, rfl⟩
  | cons d ds => exact .inr ⟨List.cons_ne_nil d ds, rfl⟩

/-- Outside the two headers and the link of the next block back to them nothing is written. -/
lemma splitMemory_apply {rest : ℕ} (hblock : ¬(block ≤ x ∧ x < block + 40))
    (htail : ¬(block + 40 + size ≤ x ∧ x < block + 40 + size + 40))
    (hlink : after ≠ 0 → ¬(after + 16 ≤ x ∧ x < after + 24)) :
    splitMemory m block size rest after x = m x := by
  unfold splitMemory
  by_cases hz : after = 0
  · rw [if_neg (not_not.2 hz)]
    repeat rw [store_apply_of_not (by omega)]
  · have hout := hlink hz
    rw [if_pos hz, store_apply_of_not (by omega)]
    repeat rw [store_apply_of_not (by omega)]

/-- A word that the link of another block to this one does not meet. -/
lemma load_ite_store {link : ℕ}
    (h : next ≠ 0 → next + link + 8 ≤ other ∨ other + width ≤ next + link) :
    Memory.load (if next ≠ 0 then m.store (next + link) 8 value else m) other width =
      m.load other width := by
  split
  · rename_i hz
    exact load_store_of_disjoint (by have := h hz; omega)
  · rfl

section SplitHeaders

variable {size rest newTail : ℕ} (h : s.Header before address after c)
  (hafter : after ≠ 0 → address + 40 + size + 40 ≤ after) (hlt : after < 2 ^ 63)
  (hend : address + 40 + size < 2 ^ 63) (hrest : rest < 2 ^ 63)

include h hafter hend in
/-- The header of the front part. -/
lemma Header.split_left :
    ({ s with memory := splitMemory s.memory address size rest after, tail := newTail } :
      Malloc).Header before address (address + 40 + size) ⟨size, c.free⟩ where
  magic := by
    rw [← h.magic]
    simp (disch := omega) only [Malloc.magic, splitMemory, load_store_of_disjoint,
      load_ite_store]
  size := by
    simp (disch := omega) only [Malloc.size, splitMemory, load_store]
  previous := by
    rw [← h.previous]
    simp (disch := omega) only [Malloc.previous, splitMemory, load_store_of_disjoint,
      load_ite_store]
  next := by
    simp (disch := omega) only [Malloc.next, splitMemory, load_store_of_disjoint,
      load_store]
  free := by
    have hfree : s.memory.load (address + 32) 4 = if c.free then 1 else 0 := h.free
    simp (disch := omega) only [Malloc.isFree, splitMemory, load_store_of_disjoint,
      load_ite_store, hfree]

include hafter hlt hend hrest in
lemma Header.split_right :
    ({ s with memory := splitMemory s.memory address size rest after, tail := newTail } :
      Malloc).Header address (address + 40 + size) after ⟨rest, true⟩ where
  magic := by
    simp (disch := omega) only [Malloc.magic, splitMemory, load_store_of_disjoint,
      load_ite_store]
    exact load_store (by norm_num)
  size := by
    simp (disch := omega) only [Malloc.size, splitMemory, load_store_of_disjoint,
      load_ite_store, load_store]
  previous := by
    simp (disch := omega) only [Malloc.previous, splitMemory, load_store_of_disjoint,
      load_ite_store, load_store]
  next := by
    simp (disch := omega) only [Malloc.next, splitMemory, load_store_of_disjoint,
      load_ite_store, load_store]
  free := by
    simp (disch := omega) only [Malloc.isFree, splitMemory, load_store_of_disjoint,
      load_ite_store, load_store, if_true]

include hafter hend in
/-- The block behind is linked to the rest. -/
lemma splitMemory_previous (hz : after ≠ 0) :
    (splitMemory s.memory address size rest after).load (after + 16) 8 = address + 40 + size := by
  have hle := hafter hz
  unfold splitMemory
  dsimp only
  rw [if_pos hz, load_store_of_disjoint (by omega), load_store_of_disjoint (by omega),
    load_store (by omega)]

end SplitHeaders

/-- A block with room for another is cut in two. What is left to it keeps its contents. -/
lemma Tiles.split (h : s.Tiles (xs ++ c :: ys)) (hroom : size + 72 ≤ c.size) :
    Frame s (xs ++ c :: ys) (s.splitAllocation (s.base + extent span xs) size)
        (xs ++ ⟨size, c.free⟩ :: ⟨c.size - size - 40, true⟩ :: ys) (· = s.base + extent span xs) ∧
      ∀ x, s.base + extent span xs + 40 ≤ x → x < s.base + extent span xs + 40 + size →
        (s.splitAllocation (s.base + extent span xs) size).memory x = s.memory x := by
  have hheader := h.header
  have hend := h.end_le
  have hbrk := h.brk_lt
  have hpositive := h.positive
  have hextent : extent span [c] = c.span := by simp
  have hcases := firstAddress_cases (s.base + extent span xs + c.span) ys
  have htail : ys = [] → s.tail = s.base + extent span xs := by
    rintro rfl
    exact h.tail_eq
  have hlist : s.Tiles (xs ++ ([c] ++ ys)) := h
  rw [c.span_eq] at hheader hcases
  generalize hafter : firstAddress (s.base + extent span xs + (40 + c.size)) 0 ys = after
    at hheader hcases
  have heq := splitAllocation_eq hheader hroom (by omega) (by omega)
  refine ⟨?_, fun x hle hlt => ?_⟩
  rotate_left
  · rw [heq]
    exact splitMemory_apply (by omega) (by omega) fun hz => by omega
  show Frame s (xs ++ ([c] ++ ys)) _ (xs ++ ([⟨size, c.free⟩, ⟨c.size - size - 40, true⟩] ++ ys)) _
  refine Frame.replace hlist (by simp) (by simp) ?_ rfl rfl (by rw [heq]) ?_ ?_ ?_ ?_
  · simp only [extent_cons, extent_nil, Chunk.span_eq]
    omega
  · intro x hnot hlink
    rw [hextent, c.span_eq] at hnot hlink
    rw [heq]
    apply splitMemory_apply (by omega) (by omega)
    intro hz
    have hys := hlink (hcases.resolve_left fun hend => hz hend.2).1
    omega
  · have hspan : s.base + extent span xs + span ⟨size, c.free⟩ =
        s.base + extent span xs + 40 + size := by
      rw [Chunk.span_mk]
      omega
    rw [heq, hextent, c.span_eq, hafter]
    refine ⟨?_, ?_, trivial⟩
    · rw [firstAddress, hspan]
      exact hheader.split_left (by omega) (by omega)
    · rw [firstAddress, hspan]
      exact Header.split_right (by omega) (by omega) (by omega) (by omega)
  · intro hys
    have hz : after = s.base + extent span xs + (40 + c.size) :=
        (hcases.resolve_left fun hend => hys hend.1).2
    have hlink : (splitMemory s.memory (s.base + extent span xs) size (c.size - size - 40)
        after).load (after + 16) 8 = s.base + extent span xs + 40 + size :=
      splitMemory_previous (by omega) (by omega) (by omega)
    rw [heq, hextent, c.span_eq, ← hz]
    refine hlink.trans ?_
    rw [lastAddress, lastAddress, lastAddress, Chunk.span_mk]
    omega
  · rw [heq]
    dsimp only
    rw [lastAddress, lastAddress, lastAddress, Chunk.span_mk]
    by_cases hys : ys = []
    · have hz : after = 0 := (hcases.resolve_right fun hcons => hcons.1 hys).2
      rw [if_neg (not_not.2 hz), if_pos hys]
      omega
    · have hz : after = s.base + extent span xs + (40 + c.size) :=
        (hcases.resolve_left fun hend => hys hend.1).2
      have hz : after ≠ 0 := by omega
      rw [if_pos hz, if_neg hys]

/-! ### A block is joined with the next one -/

/-- What `merge_next` writes where the next block is free. -/
def mergeMemory (m : Memory) (block next size after : ℕ) : Memory :=
  let m := m.store (block + 8) 8 size
  let m := m.store (block + 24) 8 after
  let m := if after ≠ 0 then m.store (after + 16) 8 block else m
  m.store next 8 0

/-- Without a free block after it a block stays as it is. -/
lemma Tiles.mergeNext_eq_self (h : s.Tiles (xs ++ c :: ys))
    (hused : ∀ d ds, ys = d :: ds → d.free = false) :
    s.mergeNext (s.base + extent span xs) = s := by
  unfold mergeNext
  rw [h.header.next]
  cases ys with
  | nil => exact if_pos (.inl rfl)
  | cons d ds =>
    have hfree := (strung_append.1 h.strung).2.2.1.free
    rw [hused d ds rfl] at hfree
    exact if_pos (.inr (.inl hfree))

/-- What `merge_next` does if the next block is free. -/
lemma mergeNext_eq {after' : ℕ} (h : s.Header before address (address + 40 + c.size) c)
    (hnext : s.Header address (address + 40 + c.size) after' d) (hfree : d.free = true)
    (hend : address + 40 + c.size + 40 + d.size < 2 ^ 63)
    (hafter : after' = 0 ∨ after' = address + 40 + c.size + 40 + d.size) :
    s.mergeNext address =
      { s with
        memory := mergeMemory s.memory address (address + 40 + c.size) (c.size + 40 + d.size) after'
        tail := if after' ≠ 0 then s.tail else address } := by
  have hsize : s.memory.load (address + 40 + c.size + 8) 8 = d.size := hnext.size
  have hsize' : s.memory.load (address + 8) 8 = c.size := h.size
  have hlink : s.memory.load (address + 40 + c.size + 24) 8 = after' := hnext.next
  have hone : s.isFree (address + 40 + c.size) = 1 := by rw [hnext.free, hfree, if_pos rfl]
  have hadjacent : s.physicallyAdjacent address (address + 40 + c.size) = true := by
    unfold physicallyAdjacent
    rw [h.size, wrap64_of_lt (by unfold allocHeader; omega), beq_iff_eq]
  have hsum : wrap64 (c.size + allocHeader + d.size) = c.size + 40 + d.size :=
    wrap64_of_lt (by unfold allocHeader; omega)
  unfold mergeNext
  rw [h.next, if_neg (by rw [hone, hadjacent]; simp)]
  simp (disch := omega) only [Malloc.size, Malloc.next, setMagic, setSize, setPrevious, setNext,
    write, load_store_of_disjoint, hsize, hsize', hlink, hsum, load_store]
  by_cases hz : after' = 0
  · simp only [hz, ne_eq, not_true_eq_false, if_false, mergeMemory]
  · simp only [hz, ne_eq, not_false_eq_true, if_true, mergeMemory]

/-- A merge changes the two headers and the link behind them only. -/
lemma mergeMemory_apply
    (hblock : ¬(block ≤ x ∧ x < block + 40)) (hnext : ¬(next ≤ x ∧ x < next + 40))
    (hlink : after ≠ 0 → ¬(after + 16 ≤ x ∧ x < after + 24)) :
    mergeMemory m block next size after x = m x := by
  unfold mergeMemory
  rw [store_apply_of_not (by omega)]
  by_cases hz : after = 0
  · rw [if_neg (not_not.2 hz), store_apply_of_not (by omega),
      store_apply_of_not (by omega)]
  · have hout := hlink hz
    rw [if_pos hz, store_apply_of_not (by omega), store_apply_of_not (by omega),
      store_apply_of_not (by omega)]

/-- The header of the merged block. -/
lemma Header.merge {after' newTail : ℕ} (h : s.Header before address after c)
    (hnext : address + 40 ≤ next) (hafter : after' ≠ 0 → address + 40 ≤ after')
    (hlt : after' < 2 ^ 63) (hsize : size < 2 ^ 63) :
    ({ s with memory := mergeMemory s.memory address next size after', tail := newTail } :
      Malloc).Header before address after' ⟨size, c.free⟩ where
  magic := by
    rw [← h.magic]
    simp (disch := omega) only [Malloc.magic, mergeMemory, load_store_of_disjoint,
      load_ite_store]
  size := by
    simp (disch := omega) only [Malloc.size, mergeMemory, load_store_of_disjoint,
      load_ite_store, load_store]
  previous := by
    rw [← h.previous]
    simp (disch := omega) only [Malloc.previous, mergeMemory, load_store_of_disjoint,
      load_ite_store]
  next := by
    simp (disch := omega) only [Malloc.next, mergeMemory, load_store_of_disjoint,
      load_ite_store, load_store]
  free := by
    have hfree : s.memory.load (address + 32) 4 = if c.free then 1 else 0 := h.free
    simp (disch := omega) only [Malloc.isFree, mergeMemory, load_store_of_disjoint,
      load_ite_store, hfree]

/-- The block behind is linked to the merged one. -/
lemma mergeMemory_previous (hz : after ≠ 0) (hnext : next + 8 ≤ after) (hblock : block < 2 ^ 63) :
    (mergeMemory m block next size after).load (after + 16) 8 = block := by
  unfold mergeMemory
  dsimp only
  rw [if_pos hz, load_store_of_disjoint (by omega), load_store (by omega)]

/-- A block and the free block after it become one, with the contents of the first. -/
lemma Tiles.merge (h : s.Tiles (xs ++ c :: d :: ys)) (hfree : d.free = true) :
    Frame s (xs ++ c :: d :: ys) (s.mergeNext (s.base + extent span xs))
        (xs ++ ⟨c.size + 40 + d.size, c.free⟩ :: ys) (· = s.base + extent span xs) ∧
      ∀ x, s.base + extent span xs + 40 ≤ x → x < s.base + extent span xs + 40 + c.size →
        (s.mergeNext (s.base + extent span xs)).memory x = s.memory x := by
  have hheader := h.header
  have hpositive := h.positive
  have hbrk := h.brk_lt
  have hreach := h.reach
  have hlist : s.Tiles (xs ++ ([c, d] ++ ys)) := h
  have hextent : extent span [c, d] = 40 + c.size + (40 + d.size) := by simp [Chunk.span_eq]
  have hnext := (strung_append.1 h.strung).2.2.1
  have hcases := firstAddress_cases (s.base + extent span xs + c.span + d.span) ys
  rw [extent_append, extent_cons, extent_cons, c.span_eq, d.span_eq] at hreach
  rw [firstAddress, c.span_eq, ← Nat.add_assoc] at hheader
  rw [c.span_eq, d.span_eq, ← Nat.add_assoc (_ + _) 40 c.size] at hcases
  rw [c.span_eq, d.span_eq, ← Nat.add_assoc (_ + _) 40 c.size] at hnext
  generalize hafter : firstAddress (s.base + extent span xs + 40 + c.size + (40 + d.size)) 0 ys
    = after at hnext hcases
  have heq := mergeNext_eq hheader hnext hfree (by omega) (by omega)
  refine ⟨?_, fun x hle hlt => ?_⟩
  rotate_left
  · rw [heq]
    exact mergeMemory_apply (by omega) (by omega) fun hz => by omega
  show Frame s (xs ++ ([c, d] ++ ys)) _ (xs ++ ([⟨c.size + 40 + d.size, c.free⟩] ++ ys)) _
  have hend : s.base + extent span xs + extent span [c, d] =
      s.base + extent span xs + 40 + c.size + (40 + d.size) := by
    omega
  refine Frame.replace hlist (by simpa using hfree) (by simp) ?_ rfl rfl (by rw [heq]) ?_ ?_ ?_ ?_
  · rw [hextent, extent_cons, extent_nil, Chunk.span_mk]
    omega
  · intro x hnot hlink
    rw [heq]
    apply mergeMemory_apply (by omega) (by omega)
    intro hz
    have hys := hlink (hcases.resolve_left fun hend => hz hend.2).1
    omega
  · rw [heq, hend, hafter]
    exact ⟨hheader.merge (by omega) (by omega) (by omega) (by omega), trivial⟩
  · intro hys
    have hz : after = s.base + extent span xs + 40 + c.size + (40 + d.size) :=
        (hcases.resolve_left fun hend => hys hend.1).2
    have hlink : (mergeMemory s.memory (s.base + extent span xs)
        (s.base + extent span xs + 40 + c.size) (c.size + 40 + d.size) after).load
        (after + 16) 8 = s.base + extent span xs :=
      mergeMemory_previous (by omega) (by omega) (by omega)
    rw [heq, hend, ← hz]
    refine hlink.trans ?_
    rw [lastAddress, lastAddress]
  · rw [heq]
    rw [lastAddress, lastAddress]
    by_cases hys : ys = []
    · have hz : after = 0 := (hcases.resolve_right fun hcons => hcons.1 hys).2
      rw [if_neg (not_not.2 hz), if_pos hys]
    · have hz : after = s.base + extent span xs + 40 + c.size + (40 + d.size) :=
        (hcases.resolve_left fun hend => hys hend.1).2
      have hz : after ≠ 0 := by omega
      rw [if_pos hz, if_neg hys]

/-! ### The contents of the block itself -/

/-- Marking a block leaves the bytes behind its header alone. -/
lemma Tiles.setFree_apply (hx : address + 40 ≤ x) :
    (s.setFree address value).memory x = s.memory x :=
  store_apply_of_not (by omega)

/-! ### The heap grows -/

/-- The growth has room for the block and its header. -/
lemma growth_spec (h : size + 40 + 4095 < 2 ^ 63) :
    size + 40 ≤ growth size ∧ growth size < 2 ^ 63 := by
  unfold growth
  unfold allocHeader allocGrowth wrap64
  dsimp only
  split <;> omega

/-- What `grow_heap` writes. -/
def growMemory (m : Memory) (block size last : ℕ) : Memory :=
  let m := m.store block 8 allocMagic
  let m := m.store (block + 8) 8 size
  let m := m.store (block + 16) 8 last
  let m := m.store (block + 24) 8 0
  let m := m.store (block + 32) 4 1
  if last ≠ 0 then m.store (last + 24) 8 block else m

/-- A `sbrk` that fails changes nothing but `errno` and the number of requests. -/
lemma sbrk_cases (h : increment < 2 ^ 63) :
    (∃ e n, s.sbrk increment = (none, { s with errno := e, requests := n })) ∨
      s.brk + increment ≤ s.limit ∧ s.sbrk increment =
        (some s.brk, { s with brk := s.brk + increment, requests := s.requests + 1 }) := by
  unfold sbrk newBreak
  rw [if_pos h]
  split_ifs with hout
  · exact .inl ⟨libcEnomem, s.requests, rfl⟩
  · cases hrefusal : s.refusals s.requests with
    | some e => exact .inl ⟨e, s.requests + 1, rfl⟩
    | none => exact .inr ⟨by omega, rfl⟩

/-- Growing changes the new header and the link to it only. -/
lemma growMemory_apply (hblock : x < block) (hlast : last ≠ 0 → ¬(last + 24 ≤ x ∧ x < last + 32)) :
    growMemory m block size last x = m x := by
  unfold growMemory
  by_cases hz : last = 0
  · rw [if_neg (not_not.2 hz)]
    repeat rw [store_apply_of_not (by omega)]
  · have hout := hlast hz
    rw [if_pos hz, store_apply_of_not (by omega)]
    repeat rw [store_apply_of_not (by omega)]

/-- The header of the new block. -/
lemma header_growMemory (hmem : s'.memory = growMemory s.memory block size last)
    (hlast : last ≠ 0 → last + 40 ≤ block) (hlt : block < 2 ^ 63) (hsize : size < 2 ^ 63) :
    s'.Header last block 0 ⟨size, true⟩ where
  magic := by
    simp (disch := omega) only [Malloc.magic, hmem, growMemory, load_store_of_disjoint,
      load_ite_store]
    exact load_store (by norm_num)
  size := by
    simp (disch := omega) only [Malloc.size, hmem, growMemory, load_store_of_disjoint,
      load_ite_store, load_store]
  previous := by
    simp (disch := omega) only [Malloc.previous, hmem, growMemory, load_store_of_disjoint,
      load_ite_store, load_store]
  next := by
    simp (disch := omega) only [Malloc.next, hmem, growMemory, load_store_of_disjoint,
      load_ite_store, load_store]
  free := by
    simp (disch := omega) only [Malloc.isFree, hmem, growMemory, load_ite_store,
      load_store, if_true]

/-- The last block links to the new one. -/
lemma Header.grow (h : s.Header before address after c)
    (hmem : s'.memory = growMemory s.memory block size address) (hz : address ≠ 0)
    (hle : address + 40 ≤ block) (hlt : block < 2 ^ 63) : s'.Header before address block c := by
  have hsame : ∀ x, x < address + 24 ∨ address + 32 ≤ x ∧ x < address + 40 →
      s'.memory x = s.memory x := by
    intro x hx
    rw [hmem]
    exact growMemory_apply (by omega) fun _ => by omega
  apply h.rewrite (fun x _ _ _ => hsame x (by omega))
  · rw [← h.previous]
    exact load_congr fun x _ _ => hsame x (by omega)
  · rw [Malloc.next, hmem, growMemory, if_pos hz]
    exact load_store (by omega)

/-- The state after the heap has grown. -/
def grown (s : Malloc) (increment : ℕ) : Malloc :=
  { s with
    memory := growMemory s.memory s.brk (increment - 40) s.tail
    head := if s.tail ≠ 0 then s.head else s.brk
    tail := s.brk
    brk := s.brk + increment
    requests := s.requests + 1 }

/-- The heap grows by a free block at its end, or there is an error. -/
lemma growHeap_cases (h : size + 40 + 4095 < 2 ^ 63) :
    (∃ e n, s.growHeap size = (none, { s with errno := e, requests := n })) ∨
      s.brk + growth size ≤ s.limit ∧
        s.growHeap size = (some s.brk, s.grown (growth size)) := by
  have hgrowth := growth_spec h
  have hrest : wrap64 (growth size + 2 ^ 64 - allocHeader) = growth size - 40 := by
    unfold wrap64 allocHeader
    omega
  unfold growHeap
  obtain ⟨e, n, hfail⟩ | ⟨hle, hok⟩ := s.sbrk_cases hgrowth.2
  · rw [hfail]
    exact .inl ⟨e, n, rfl⟩
  · rw [hok]
    refine .inr ⟨hle, ?_⟩
    simp only [setMagic, setSize, setPrevious, setNext, Malloc.setFree, write, hrest, grown,
      growMemory]
    by_cases hz : s.tail = 0
    · simp only [hz, ne_eq, not_true_eq_false, if_false]
    · simp only [hz, ne_eq, not_false_eq_true, if_true]

/-- A block in use lies below the break, and its contents after its header. -/
lemma Tiles.used_le {a : ℕ} (h : s.Tiles cs) (hused : s.Used cs a d) :
    s.base ≤ a ∧ a + 40 + d.size ≤ s.brk := by
  have hle := le_of_blockAt hused.1
  have hreach := h.reach
  rw [d.span_eq] at hle
  omega

/-- The blocks of the heap after it has grown. -/
lemma Tiles.strung_grown (h : s.Tiles cs) :
    Strung span (s.grown increment).Header 0 s.base cs s.brk := by
  have hbrk := h.brk_lt
  have hpositive := h.positive
  obtain rfl | ⟨xs, c, rfl⟩ := List.eq_nil_or_concat' cs
  · trivial
  · have htail := h.tail_eq
    have hend := h.end_le
    have hstrung := strung_append.1 h.strung
    refine strung_append.2 ⟨?_, ?_, trivial⟩
    · apply hstrung.1.imp
      intro p a n b hle hspan hb
      rw [b.span_eq] at hspan
      apply hb.congr
      intro x hx hx'
      exact growMemory_apply (by omega) fun _ => by omega
    · have hmem : (s.grown increment).memory = growMemory s.memory s.brk (increment - 40)
          (s.base + extent span xs) := by
        rw [← htail]
        rfl
      rw [firstAddress]
      exact hstrung.2.1.grow hmem (by omega) (by omega) hbrk

/-- The heap grows by one free block. -/
lemma Tiles.grow (h : s.Tiles cs) (hmin : 40 ≤ increment) (hle : s.brk + increment ≤ s.limit) :
    Frame s cs (s.grown increment) (cs ++ [⟨increment - 40, true⟩]) (fun _ => False) := by
  have hbrk := h.brk_lt
  have hbound := h.bound
  have hpositive := h.positive
  have hreach := h.reach
  have hlast : s.tail ≠ 0 → s.tail + 40 ≤ s.brk := by
    intro hz
    obtain rfl | ⟨xs, c, rfl⟩ := List.eq_nil_or_concat' cs
    · exact absurd h.tail hz
    · have hend := h.end_le
      rw [h.tail_eq]
      omega
  refine ⟨⟨hpositive, hle, hbound, h.running, ?_, ?_, ?_, ?_⟩, rfl, ?_, ?_⟩
  · refine strung_append.2 ⟨?_, ?_, trivial⟩
    · show Strung _ _ 0 s.base cs (s.base + extent span cs)
      rw [hreach]
      exact h.strung_grown
    · show Header _ (lastAddress span 0 s.base cs) (s.base + extent span cs) 0 _
      rw [hreach, ← h.tail]
      exact header_growMemory rfl hlast hbrk (by omega)
  · show s.base + _ = s.brk + increment
    rw [extent_append, extent_cons, extent_nil, Chunk.span_mk, ← hreach]
    omega
  · show (if s.tail ≠ 0 then s.head else s.brk) = firstAddress s.base 0 _
    obtain rfl | ⟨xs, c, rfl⟩ := List.eq_nil_or_concat' cs
    · have htail : s.tail = 0 := h.tail
      rw [if_neg (not_not.2 htail), ← hreach]
      rfl
    · have htail := h.tail_eq
      have hcons : xs ++ [c] ≠ [] := by simp
      rw [if_pos (by omega), h.head]
      exact (firstAddress_append hcons).symm
  · show s.brk = lastAddress span 0 s.base _
    rw [lastAddress_append, ← hreach]
    rfl
  · intro a d _ hused
    refine ⟨?_, hused.2⟩
    show blockAt span s.base _ a = some d
    rw [blockAt_append, hused.1]
    rfl
  · intro a d _ hused x hx hx'
    have hplace := h.used_le hused
    apply growMemory_apply (by omega)
    intro hz
    -- the link that is written is in the header of the last block, not in the contents of one
    obtain rfl | ⟨xs, c, rfl⟩ := List.eq_nil_or_concat' cs
    · exact absurd h.tail hz
    · have htail := h.tail_eq
      obtain hat | hat := blockAt_append_cases hused.1
      · have hspan := (le_of_blockAt hat).2
        rw [d.span_eq] at hspan
        omega
      · have hstart := (le_of_blockAt hat).1
        omega

/-! ### The search -/

/-- A block that `malloc` can take. -/
def Fits (size : ℕ) (c : Chunk) : Prop := c.free = true ∧ size ≤ c.size

/-- The loop finds the first block that fits, if there are rounds enough for the list. -/
lemma findFit_spec (size : ℕ) {rounds : ℕ} (hpositive : 0 < address)
    (h : Strung span s.Header before address cs 0) (hrounds : cs.length < rounds) :
    s.findFit size rounds (firstAddress address 0 cs) = 0 ∧ (∀ c ∈ cs, ¬Fits size c) ∨
      ∃ xs c ys, cs = xs ++ c :: ys ∧ Fits size c ∧ (∀ d ∈ xs, ¬Fits size d) ∧
        s.findFit size rounds (firstAddress address 0 cs) = address + extent span xs := by
  induction cs generalizing before address rounds with
  | nil =>
    obtain ⟨rounds, rfl⟩ := Nat.exists_eq_succ_of_ne_zero (Nat.ne_of_gt hrounds)
    exact .inl ⟨if_pos rfl, by simp⟩
  | cons c cs ih =>
    obtain ⟨rounds, rfl⟩ := Nat.exists_eq_succ_of_ne_zero (Nat.ne_of_gt (Nat.zero_lt_of_lt hrounds))
    have hheader := h.1
    have hfree : s.isFree address = 0 ↔ c.free = false := by
      rw [hheader.free]
      cases c.free <;> simp
    rw [firstAddress, Nat.succ_eq_add_one, findFit, if_neg (by omega), hheader.size]
    by_cases hfit : Fits size c
    · have hkeep : ¬(s.isFree address = 0 ∨ c.size < size) := by
        rw [hfree, hfit.1, not_or, Nat.not_lt]
        exact ⟨by simp, hfit.2⟩
      rw [if_neg hkeep]
      exact .inr ⟨[], c, cs, rfl, hfit, by simp, by simp⟩
    · have hskip : c.free = false ∨ c.size < size := by
        by_contra hnot
        rw [not_or, Bool.not_eq_false, Nat.not_lt] at hnot
        exact hfit hnot
      rw [if_pos (hskip.imp_left hfree.2), hheader.next]
      obtain ⟨hzero, hnone⟩ | ⟨xs, e, ys, rfl, he, hxs, haddress⟩ :=
        ih (Nat.add_pos_left hpositive _) h.2 (Nat.lt_of_succ_lt_succ hrounds)
      · refine .inl ⟨hzero, ?_⟩
        intro b hb
        obtain rfl | hb := List.mem_cons.1 hb
        · exact hfit
        · exact hnone b hb
      · refine .inr ⟨c :: xs, e, ys, rfl, he, ?_, ?_⟩
        · intro b hb
          obtain rfl | hb := List.mem_cons.1 hb
          · exact hfit
          · exact hxs b hb
        · rw [haddress, extent_cons, Nat.add_assoc]

/-- The list has fewer blocks than the break has addresses below it. -/
lemma Tiles.length_lt (h : s.Tiles cs) : cs.length < s.brk := by
  have hreach := h.reach
  have hpositive := h.positive
  have hle : cs.length ≤ extent span cs := by
    clear h hreach
    induction cs with
    | nil => simp
    | cons c cs ih =>
      have := c.span_pos
      rw [List.length_cons, extent_cons]
      omega
  omega

/-! ### `malloc` -/

/-- A block that is not large enough is not split. -/
lemma splitAllocation_eq_self (h : s.Header before address after c)
    (hsize : c.size < size + 72) (hlt : size < 2 ^ 63) : s.splitAllocation address size = s := by
  unfold splitAllocation
  rw [h.size, wrap64_of_lt (by unfold allocHeader; omega)]
  exact if_pos hsize

/-- A block keeps the size that it is split to, with its contents. -/
lemma Tiles.shrink (h : s.Tiles (xs ++ c :: ys)) (hfit : size ≤ c.size) :
    ∃ n ys', size ≤ n ∧
      Frame s (xs ++ c :: ys) (s.splitAllocation (s.base + extent span xs) size)
        (xs ++ ⟨n, c.free⟩ :: ys') (· = s.base + extent span xs) ∧
      ∀ x, s.base + extent span xs + 40 ≤ x →
        x < s.base + extent span xs + 40 + size →
        (s.splitAllocation (s.base + extent span xs) size).memory x = s.memory x := by
  have hend := h.end_le
  have hbrk := h.brk_lt
  by_cases hroom : size + 72 ≤ c.size
  · exact ⟨size, _, le_rfl, h.split hroom⟩
  · rw [splitAllocation_eq_self h.header (by omega) (by omega)]
    exact ⟨c.size, ys, hfit, Frame.refl h, fun _ _ _ => rfl⟩

/-- A block that fits is split where it can be, and marked. -/
lemma Tiles.take (h : s.Tiles (xs ++ c :: ys)) (hfit : size ≤ c.size) :
    (s.take (s.base + extent span xs) size).1 = s.base + extent span xs + 40 ∧
      ∃ n ys', size ≤ n ∧
        Frame s (xs ++ c :: ys) (s.take (s.base + extent span xs) size).2
          (xs ++ ⟨n, false⟩ :: ys') (· = s.base + extent span xs) := by
  have hend := h.end_le
  have hbrk := h.brk_lt
  refine ⟨wrap64_of_lt (by unfold allocHeader; omega), ?_⟩
  obtain ⟨n, ys', hn, hshrink, -⟩ := h.shrink hfit
  have hmark := hshrink.tiles.setFree false
  rw [hshrink.base] at hmark
  exact ⟨n, ys', hn, hshrink.trans hmark⟩

/-- The block that `malloc` takes: the first that fits, or the one that the heap grows by. -/
def chosen (s : Malloc) (size : ℕ) : ℕ :=
  if s.findFit size s.brk s.head ≠ 0 then s.findFit size s.brk s.head else s.brk

/-- A new block is in use, and everything that was in use still is. -/
structure Allocated (s : Malloc) (cs : List Chunk) (block size : ℕ) (s' : Malloc)
    (cs' : List Chunk) : Prop where
  frame : Frame s cs s' cs' (fun _ => False)
  fresh : ∀ d, ¬s.Used cs block d
  used : ∃ n, size ≤ n ∧ s'.Used cs' block ⟨n, false⟩

/-- Taking a free block that fits. -/
lemma Tiles.allocated (h : s.Tiles (xs ++ c :: ys)) (hfit : Fits size c) :
    ∃ cs', Allocated s (xs ++ c :: ys) (s.base + extent span xs) size
      (s.take (s.base + extent span xs) size).2 cs' := by
  obtain ⟨-, n, ys', hn, hframe⟩ := h.take hfit.2
  have hfresh : ∀ d, ¬s.Used (xs ++ c :: ys) (s.base + extent span xs) d := by
    intro d hused
    have hat := hused.1
    rw [blockAt_append_cons span_pos_of_mem] at hat
    obtain rfl := Option.some.inj hat
    exact Bool.false_ne_true (hused.2.symm.trans hfit.1)
  refine ⟨_, hframe.weaken ?_, hfresh, n, hn, ?_, rfl⟩
  · rintro a d hused rfl
    exact hfresh d hused
  · rw [hframe.base]
    exact blockAt_append_cons span_pos_of_mem

/-- What the body of `malloc` does for a size that is aligned already. -/
def mallocAligned (s : Malloc) (size : ℕ) : ℕ × Malloc :=
  let block := s.findFit size s.brk s.head
  if block ≠ 0 then s.take block size
  else match s.growHeap size with
    | (none, s) => (0, s)
    | (some block, s) => s.take block size

/-- `malloc` aligns the size first. -/
lemma malloc_eq (size : ℕ) :
    s.malloc size = if alignSize (if size = 0 then 1 else size) = 0
      then (0, { s with errno := libcEnomem })
      else s.mallocAligned (alignSize (if size = 0 then 1 else size)) := rfl

/-- `malloc` fails and changes nothing, or takes the chosen block. -/
lemma Tiles.malloc_cases (h : s.Tiles cs)
    (hsize : (∀ c ∈ cs, ¬Fits size c) → size + 40 + 4095 < 2 ^ 63) :
    (∃ e n, s.mallocAligned size = (0, { s with errno := e, requests := n })) ∨
      (s.mallocAligned size).1 = s.chosen size + 40 ∧
        ∃ cs', Allocated s cs (s.chosen size) size (s.mallocAligned size).2 cs' := by
  have hpositive := h.positive
  obtain ⟨hzero, hnone⟩ | ⟨xs, c, ys, rfl, hfit, -, haddress⟩ :=
    findFit_spec size hpositive h.strung h.length_lt
  · rw [← h.head] at hzero
    have hchosen : s.chosen size = s.brk := if_neg (not_not.2 hzero)
    have hgrowth := growth_spec (hsize hnone)
    unfold mallocAligned
    rw [hzero, hchosen]
    obtain ⟨e, n, hfail⟩ | ⟨hle, hok⟩ := s.growHeap_cases (hsize hnone)
    · rw [hfail]
      exact .inl ⟨e, n, rfl⟩
    · rw [hok]
      have hgrow := h.grow (by omega) hle
      have hfit : Fits size ⟨growth size - 40, true⟩ :=
        ⟨rfl, by show size ≤ growth size - 40; omega⟩
      have hbrk : s.brk = (s.grown (growth size)).base + extent span cs := h.reach.symm
      obtain ⟨cs', halloc⟩ := hgrow.tiles.allocated hfit
      have hfirst := (hgrow.tiles.take hfit.2).1
      rw [← hbrk] at halloc hfirst
      refine .inr ⟨hfirst, cs', hgrow.trans halloc.frame, ?_, halloc.used⟩
      intro d hused
      exact halloc.fresh d (hgrow.used _ d not_false hused)
  · rw [← h.head] at haddress
    have hne : s.findFit size s.brk s.head ≠ 0 := by omega
    have hchosen : s.chosen size = s.base + extent span xs := (if_pos hne).trans haddress
    have hbody : s.mallocAligned size = s.take (s.base + extent span xs) size := by
      unfold mallocAligned
      rw [if_pos hne, haddress]
    rw [hbody, hchosen]
    exact .inr ⟨(h.take hfit.2).1, h.allocated hfit⟩

end Malloc

end Northstar
