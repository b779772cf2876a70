import Northstar.User.MallocSpec

/-! # Runs of the allocator

What `free`, `calloc` and `realloc` do to the list of blocks, and what follows for a client that
makes any calls: its blocks lie in the heap, apart from each other and from every header, and keep
their contents. -/

namespace Northstar

open Chunk (span)

namespace Malloc

variable {s s' : Malloc} {cs cs' xs ys : List Chunk} {c d : Chunk} {a : ℕ}

/-! ### `free` -/

/-- A block and what follows it after `merge_next`. -/
lemma Tiles.mergeNext (h : s.Tiles (xs ++ c :: ys)) :
    ∃ n ys', c.size ≤ n ∧ Frame s (xs ++ c :: ys) (s.mergeNext (s.base + extent span xs))
      (xs ++ ⟨n, c.free⟩ :: ys') (· = s.base + extent span xs) := by
  by_cases hfree : ∃ d ds, ys = d :: ds ∧ d.free = true
  · obtain ⟨d, ds, rfl, hd⟩ := hfree
    exact ⟨_, ds, by omega, (h.merge hd).1⟩
  · have hself := h.mergeNext_eq_self fun d ds hys => by
      rw [← Bool.not_eq_true]
      exact fun hd => hfree ⟨d, ds, hys, hd⟩
    rw [hself]
    exact ⟨c.size, ys, le_rfl, Frame.refl h⟩

/-- The header in front of a block. -/
lemma headerOf_add (h : a + 40 < 2 ^ 63) : headerOf (a + 40) = a := by
  unfold headerOf wrap64 allocHeader
  omega

/-- A block in use is where the list has it. -/
lemma Used.exists_append (h : s.Used cs a d) :
    ∃ xs ys, cs = xs ++ d :: ys ∧ a = s.base + extent span xs :=
  blockAt_eq_some h.1

/-- The block that follows a part of the list is in use. -/
lemma used_append_cons {n : ℕ} (hbase : s'.base = s.base) :
    s'.Used (xs ++ ⟨n, false⟩ :: ys) (s.base + extent span xs) ⟨n, false⟩ := by
  refine ⟨?_, rfl⟩
  rw [hbase]
  exact blockAt_append_cons span_pos_of_mem

/-- The size of a block in use. -/
lemma Tiles.size_eq (h : s.Tiles cs) (hused : s.Used cs a d) : s.size a = d.size := by
  obtain ⟨xs, ys, rfl, rfl⟩ := hused.exists_append
  exact h.header.size

/-- The header of a block in use is intact. -/
lemma Tiles.corrupt_eq_false (h : s.Tiles cs) (hused : s.Used cs a d) : s.corrupt a = false := by
  obtain ⟨xs, ys, rfl, rfl⟩ := hused.exists_append
  have hfree := h.header.free
  rw [hused.2] at hfree
  unfold corrupt
  rw [h.header.magic, hfree]
  rfl

/-- A free block that is joined with the free block after it: no block in use is touched. -/
lemma Tiles.merge_free (h : s.Tiles (xs ++ c :: d :: ys)) (hc : c.free = true) (hd : d.free = true)
    (apart : ℕ → Prop) :
    Frame s (xs ++ c :: d :: ys) (s.mergeNext (s.base + extent span xs))
      (xs ++ ⟨c.size + 40 + d.size, c.free⟩ :: ys) apart := by
  apply (h.merge hd).1.weaken
  rintro a e hused rfl
  have hat := hused.1
  rw [blockAt_append_cons span_pos_of_mem] at hat
  obtain rfl := Option.some.inj hat
  exact absurd (hused.2.symm.trans hc) Bool.false_ne_true

/-- `free` takes the block from its client and leaves the others as they are. -/
lemma Tiles.free (h : s.Tiles cs) (hused : s.Used cs a d) :
    ∃ cs', Frame s cs (s.free (a + 40)) cs' (· = a) := by
  have hplace := h.used_le hused
  have hbrk := h.brk_lt
  have hcorrupt := h.corrupt_eq_false hused
  obtain ⟨xs, ys, rfl, ha⟩ := hused.exists_append
  have hmark := h.setFree true
  obtain ⟨n, ys', -, hmerge⟩ := hmark.tiles.mergeNext
  rw [hmark.base, ← ha] at hmerge
  rw [← ha] at hmark
  have hframe := hmark.trans hmerge
  unfold Malloc.free
  rw [if_neg (by omega), headerOf_add (by omega)]
  dsimp only
  rw [hcorrupt, if_neg Bool.false_ne_true]
  split
  · rename_i hprevious
    have htiles := hframe.tiles
    have hback := htiles.header.previous
    rw [hframe.base, ← ha] at hback
    obtain rfl | ⟨ws, w, rfl⟩ := List.eq_nil_or_concat' xs
    · exact absurd hback hprevious.1
    · rw [lastAddress_append] at hback
      have hback : _ = s.base + extent span ws := hback
      rw [List.append_assoc] at htiles
      have hw := htiles.header.free
      rw [hframe.base, ← hback] at hw
      have hfree : w.free = true := by
        by_contra hnot
        rw [if_neg hnot] at hw
        exact hprevious.2.1 hw
      have hjoin := htiles.merge_free hfree rfl (· = a)
      rw [hframe.base, ← hback, ← List.singleton_append, ← List.append_assoc] at hjoin
      exact ⟨_, hframe.trans hjoin⟩
  · exact ⟨_, hframe⟩

/-! ### Writes inside a block -/

/-- Memory that changes only in the contents of a block in use. -/
lemma Tiles.write_contents (h : s.Tiles cs) (hused : s.Used cs a d) {m : Memory}
    (hmem : ∀ x, ¬(a + 40 ≤ x ∧ x < a + 40 + d.size) → m x = s.memory x) :
    Frame s cs { s with memory := m } cs (· = a) := by
  have hall := hused
  obtain ⟨xs, ys, rfl, rfl⟩ := hused.exists_append
  obtain ⟨hxs, hd, hys⟩ := strung_append.1 h.strung
  refine ⟨{ h with strung := strung_append.2 ⟨?_, ?_, ?_⟩ }, rfl, fun _ _ _ hother => hother, ?_⟩
  · apply hxs.imp
    intro p b n e hle hend he
    rw [e.span_eq] at hend
    exact he.congr fun x _ _ => hmem x (by omega)
  · exact hd.congr fun x _ _ => hmem x (by omega)
  · apply hys.imp
    intro p b n e hle hend he
    rw [d.span_eq] at hle
    exact he.congr fun x _ _ => hmem x (by omega)
  · intro b e hb hother x hle hlt
    have hapart := blockAt_disjoint hother.1 hall.1 hb
    rw [d.span_eq, e.span_eq] at hapart
    exact hmem x (by omega)

/-! ### `realloc` -/

/-- A block in use has become a block of another size, here or elsewhere, with its contents. -/
structure Resized (s : Malloc) (cs : List Chunk) (a : ℕ) (d : Chunk) (b size : ℕ) (s' : Malloc)
    (cs' : List Chunk) : Prop where
  frame : Frame s cs s' cs' (· = a)
  place : b = a ∨ ∀ e, ¬s.Used cs b e
  used : ∃ n, size ≤ n ∧ s'.Used cs' b ⟨n, false⟩
  contents : ∀ i, i < d.size → i < size → s'.memory (b + 40 + i) = s.memory (a + 40 + i)

variable {size brk : ℕ}

/-- The block is large enough. -/
lemma Tiles.resize_here (h : s.Tiles cs) (hused : s.Used cs a d) (hfit : size ≤ d.size) :
    ∃ cs', Resized s cs a d a size (s.splitAllocation a size) cs' := by
  obtain ⟨xs, ys, rfl, rfl⟩ := hused.exists_append
  obtain ⟨n, ys', hn, hframe, hsame⟩ := h.shrink hfit
  refine ⟨_, hframe, .inl rfl, ⟨n, hn, ?_, rfl⟩, ?_⟩
  · rw [hframe.base, ← hused.2]
    exact blockAt_append_cons span_pos_of_mem
  · intro i _ hi
    exact hsame _ (by omega) (by omega)

/-- The next block is free, and large enough together with this one. -/
lemma Tiles.resize_absorb (h : s.Tiles (xs ++ c :: d :: ys))
    (hd : d.free = true) (hfit : size ≤ c.size + 40 + d.size) :
    ∃ cs', Resized s (xs ++ c :: d :: ys) (s.base + extent span xs) c
      (s.base + extent span xs) size
      (((s.mergeNext (s.base + extent span xs)).splitAllocation
        (s.base + extent span xs) size).setFree (s.base + extent span xs) 0) cs' := by
  obtain ⟨hmerge, hkept⟩ := h.merge hd
  obtain ⟨n, ys', hn, hshrink, hsame⟩ := hmerge.tiles.shrink hfit
  have hmark := hshrink.tiles.setFree false
  rw [hshrink.base, hmerge.base] at hmark
  rw [hmerge.base] at hshrink hsame
  have hframe := (hmerge.trans hshrink).trans hmark
  refine ⟨_, hframe, .inl rfl, ⟨n, hn, used_append_cons hframe.base⟩, ?_⟩
  · intro i hi hsize
    calc _ = _ := Tiles.setFree_apply (by omega)
      _ = _ := hsame _ (by omega) (by omega)
      _ = _ := hkept _ (by omega) (by omega)

/-- The contents move to another block. -/
lemma Tiles.resize_move {b : ℕ} {s1 : Malloc} {cs1 : List Chunk} (hused : s.Used cs a d)
    (halloc : Allocated s cs b size s1 cs1) (hsize : d.size ≤ size) :
    ∃ cs', Resized s cs a d b size
      (({ s1 with memory := s1.memory.copy (b + 40) (a + 40) d.size } : Malloc).free (a + 40))
      cs' := by
  have hne : a ≠ b := by
    rintro rfl
    exact halloc.fresh d hused
  have hkept := halloc.frame.used a d not_false hused
  obtain ⟨n, hn, hnew⟩ := halloc.used
  have hcopy := halloc.frame.tiles.write_contents hnew
    (m := s1.memory.copy (b + 40) (a + 40) d.size) fun x hx =>
      Memory.copy_apply_of_not (by dsimp only at hx; omega)
  obtain ⟨cs', hfree⟩ := hcopy.tiles.free (hcopy.used a d hne hkept)
  refine ⟨cs', ?_, .inr halloc.fresh, ⟨n, hn, hfree.used b _ hne.symm hnew⟩, ?_⟩
  · have hfirst : Frame s cs s1 cs1 (fun x => x = a ∨ x = b) :=
      halloc.frame.weaken fun _ _ _ hx => absurd hx not_false
    have hsecond : Frame _ _ _ _ (fun x => x = a ∨ x = b) := hcopy.weaken fun _ _ _ hx => .inr hx
    have hthird : Frame _ _ _ _ (fun x => x = a ∨ x = b) := hfree.weaken fun _ _ _ hx => .inl hx
    apply ((hfirst.trans hsecond).trans hthird).weaken
    rintro x e he (rfl | rfl)
    · rfl
    · exact absurd he (halloc.fresh e)
  · intro i hi _
    calc _ = s1.memory.copy (b + 40) (a + 40) d.size (b + 40 + i) :=
          hfree.contents b _ hne.symm hnew _ (by omega) (by dsimp only; omega)
      _ = s1.memory (a + 40 + i) := Memory.copy_apply hi
      _ = s.memory (a + 40 + i) := halloc.frame.contents a d not_false hused _ (by omega) (by omega)

/-! ### What `malloc` returns for any size -/

/-- A `sbrk` that fails changes nothing but `errno` and the number of requests, for any increment.
-/
lemma sbrk_none {increment : ℕ} (h : (s.sbrk increment).1 = none) :
    ∃ e n, s.sbrk increment = (none, { s with errno := e, requests := n }) := by
  unfold sbrk at h ⊢
  cases hbreak : s.newBreak increment with
  | error e => exact ⟨e, s.requests, rfl⟩
  | ok brk =>
    cases hrefusal : s.refusals s.requests with
    | some e => exact ⟨e, s.requests + 1, rfl⟩
    | none =>
      rw [hbreak, hrefusal] at h
      exact absurd h (Option.some_ne_none _)

/-- A `sbrk` that succeeds returns the break and moves it. -/
lemma sbrk_some {increment : ℕ} (h : (s.sbrk increment).1 ≠ none) :
    ∃ brk, s.newBreak increment = .ok brk ∧
      s.sbrk increment = (some s.brk, { s with brk := brk, requests := s.requests + 1 }) := by
  unfold sbrk at h ⊢
  cases hbreak : s.newBreak increment with
  | error e =>
    rw [hbreak] at h
    exact absurd rfl h
  | ok brk =>
    cases hrefusal : s.refusals s.requests with
    | some e =>
      rw [hbreak, hrefusal] at h
      exact absurd rfl h
    | none => exact ⟨brk, rfl, rfl⟩

section

variable (block value : ℕ)

lemma brk_setMagic : (s.setMagic block value).brk = s.brk := rfl

lemma brk_setSize : (s.setSize block value).brk = s.brk := rfl

lemma brk_setPrevious : (s.setPrevious block value).brk = s.brk := rfl

lemma brk_setNext : (s.setNext block value).brk = s.brk := rfl

lemma brk_setFree : (s.setFree block value).brk = s.brk := rfl

end

/-- Either case leaves the break where it was. -/
lemma brk_ite {p : Prop} [Decidable p] (h : s.brk = brk) (h' : s'.brk = brk) :
    (if p then s else s').brk = brk := by
  split
  · exact h
  · exact h'

-- the states are rewritten one by one: comparing them as wholes compares their memories
/-- `split_allocation` leaves the break alone. -/
lemma brk_splitAllocation (block size : ℕ) : (s.splitAllocation block size).brk = s.brk := by
  unfold splitAllocation
  dsimp only
  refine brk_ite (Eq.refl _) ?_
  rw [brk_setSize, brk_setNext]
  refine brk_ite ?_ ?_
  · rw [brk_setPrevious, brk_setFree, brk_setNext, brk_setPrevious, brk_setSize, brk_setMagic]
  · dsimp only
    rw [brk_setFree, brk_setNext, brk_setPrevious, brk_setSize, brk_setMagic]

/-- `merge_next` leaves the break alone. -/
lemma brk_mergeNext (block : ℕ) : (s.mergeNext block).brk = s.brk := by
  unfold mergeNext
  dsimp only
  refine brk_ite (Eq.refl _) ?_
  rw [brk_setMagic]
  refine brk_ite ?_ ?_
  · rw [brk_setPrevious, brk_setNext, brk_setSize]
  · dsimp only
    rw [brk_setNext, brk_setSize]

/-- `free` leaves the break alone. -/
lemma brk_free (pointer : ℕ) : (s.free pointer).brk = s.brk := by
  unfold Malloc.free
  dsimp only
  refine brk_ite (Eq.refl _) (brk_ite (Eq.refl _) (brk_ite ?_ ?_))
  · rw [brk_mergeNext, brk_mergeNext, brk_setFree]
  · rw [brk_mergeNext, brk_setFree]

/-- Where the break is moved for a block, it is the block's address, and stands where `sbrk` put it.
-/
lemma mallocAligned_of_sbrk (hbrk : s.brk < 2 ^ 63) (hfit : s.findFit size s.brk s.head = 0)
    (hsbrk : s.sbrk (growth size) =
      (some s.brk, { s with brk := brk, requests := s.requests + 1 })) :
    (s.mallocAligned size).1 = s.brk + 40 ∧ (s.mallocAligned size).2.brk = brk := by
  unfold mallocAligned growHeap
  rw [hsbrk, hfit]
  refine ⟨wrap64_of_lt (by unfold allocHeader; omega), ?_⟩
  dsimp only [Malloc.take]
  rw [if_neg (not_not.2 rfl), brk_setFree, brk_splitAllocation]
  dsimp only
  refine brk_ite ?_ ?_
  · rw [brk_setNext, brk_setFree, brk_setNext, brk_setPrevious, brk_setSize, brk_setMagic]
  · dsimp only
    rw [brk_setFree, brk_setNext, brk_setPrevious, brk_setSize, brk_setMagic]

/-- A size that is too large for the lower half of the address space is never had: the break is not
moved that far. -/
lemma newBreak_of_large {n : ℕ} (h : s.Tiles cs) (hlarge : ¬size + 40 + 4095 < 2 ^ 63)
    (hsize : size < 2 ^ 64) (hn : size ≤ n + 16) (hok : s.newBreak (growth size) = .ok brk) :
    brk < s.brk + 40 + n := by
  have hbrk := h.brk_lt
  have hgrowth : growth size = 0 ∨ 2 ^ 63 ≤ growth size ∧ growth size < 2 ^ 64 ∨
      growth size = 65536 ∧ 2 ^ 64 ≤ size + 40 := by
    unfold growth wrap64 allocHeader allocGrowth
    dsimp only
    split <;> omega
  unfold newBreak at hok
  split at hok
  · split at hok
    · cases hok
    · obtain rfl := Except.ok.inj hok
      omega
  · split at hok
    · cases hok
    · split at hok
      · cases hok
      · obtain rfl := Except.ok.inj hok
        omega

/-- The search ends at a block below the break, or at none. -/
lemma Tiles.findFit_lt (h : s.Tiles cs) (size : ℕ) : s.findFit size s.brk s.head < 2 ^ 63 := by
  have hbrk := h.brk_lt
  obtain ⟨hzero, -⟩ | ⟨xs, c, ys, rfl, -, -, haddress⟩ :=
    findFit_spec size h.positive h.strung h.length_lt
  · rw [h.head, hzero]
    norm_num
  · have hend := h.end_le
    rw [h.head, haddress]
    omega

/-- The outcome of `malloc` where the break is moved only for a size within bounds. -/
lemma Tiles.malloc_outcome (h : s.Tiles cs)
    (hbounded : s.findFit size s.brk s.head = 0 → (s.sbrk (growth size)).1 ≠ none →
      size + 40 + 4095 < 2 ^ 63) :
    (∃ e n, s.mallocAligned size = (0, { s with errno := e, requests := n })) ∨
      (s.mallocAligned size).1 = s.chosen size + 40 ∧
        ∃ cs', Allocated s cs (s.chosen size) size (s.mallocAligned size).2 cs' := by
  by_cases hfit : s.findFit size s.brk s.head = 0
  · by_cases hsbrk : (s.sbrk (growth size)).1 = none
    · obtain ⟨e, n, hfail⟩ := sbrk_none hsbrk
      refine .inl ⟨e, n, ?_⟩
      unfold mallocAligned growHeap
      rw [hfit, hfail]
      rfl
    · exact h.malloc_cases fun _ => hbounded hfit hsbrk
  · apply h.malloc_cases
    intro hnone
    obtain ⟨hzero, -⟩ | ⟨xs, c, ys, rfl, hc, -⟩ :=
      findFit_spec size h.positive h.strung h.length_lt
    · rw [← h.head] at hzero
      exact absurd hzero hfit
    · exact absurd hc (hnone c (by simp))

/-- Two blocks of the heap do not overlap, headers included. -/
lemma blockAt_apart {base a a' : ℕ} (h : blockAt span base cs a = some c)
    (h' : blockAt span base cs a' = some d) (hne : a ≠ a') :
    a + 40 + c.size ≤ a' ∨ a' + 40 + d.size ≤ a := by
  have hapart := blockAt_disjoint h h' hne
  rw [c.span_eq, d.span_eq] at hapart
  omega

/-! ### The headers that the allocator knows of -/

/-- A header that is reached from the first by the links. -/
inductive Listed (s : Malloc) : ℕ → Prop
  | head : s.head ≠ 0 → Listed s s.head
  | next {block : ℕ} : Listed s block → s.next block ≠ 0 → Listed s (s.next block)

/-- A header of the list is that of a block of the heap. -/
lemma Tiles.blockAt_of_listed {block : ℕ} (h : s.Tiles cs) (hlisted : s.Listed block) :
    ∃ c, blockAt span s.base cs block = some c := by
  induction hlisted with
  | head hz =>
    rw [h.head] at hz ⊢
    cases cs with
    | nil => exact absurd rfl hz
    | cons c cs => exact ⟨c, if_pos rfl⟩
  | next _ hz ih =>
    obtain ⟨c, hc⟩ := ih
    obtain ⟨xs, ys, rfl, rfl⟩ := blockAt_eq_some hc
    rw [h.header.next] at hz ⊢
    cases ys with
    | nil => exact absurd rfl hz
    | cons d ds =>
      refine ⟨d, ?_⟩
      have hat : blockAt span s.base ((xs ++ [c]) ++ d :: ds)
          (s.base + extent span (xs ++ [c])) = some d := blockAt_append_cons span_pos_of_mem
      rw [extent_append, extent_cons, extent_nil, List.append_assoc, ← Nat.add_assoc] at hat
      exact hat

end Malloc

/-! ### What a client relies on -/

/-- The pointer that an event is about. -/
def MallocEvent.subject : MallocEvent → Option ℕ
  | .malloc _ | .calloc _ _ => none
  | .realloc pointer _ | .free pointer | .write pointer _ _ => some pointer

namespace MallocRun

variable (r : MallocRun) (e : MallocEvent)

/-- The pointer that the call returns. -/
def answer : ℕ :=
  if r.heap.exited then 0
  else match e with
    | .malloc size => (r.heap.malloc (wrap64 size)).1
    | .calloc count size => (r.heap.calloc (wrap64 count) (wrap64 size)).1
    | .realloc pointer size =>
      if r.valid pointer then (r.heap.realloc pointer (wrap64 size)).1 else 0
    | .free _ | .write _ _ _ => 0

/-- The blocks of the client lie in what `sbrk` gave, apart from each other and from the headers. -/
structure Apart (r : MallocRun) : Prop where
  inside : ∀ p n, r.live p = some n → r.heap.base ≤ p ∧ p + n ≤ r.heap.brk
  disjoint : ∀ p q n m, r.live p = some n → r.live q = some m → p ≠ q → p + n ≤ q ∨ q + m ≤ p
  headers : ∀ p n block, r.live p = some n → r.heap.Listed block →
    p + n ≤ block ∨ block + allocHeader ≤ p

/-- What a call owes to the client, alignment apart. -/
structure Proper (r : MallocRun) (e : MallocEvent) : Prop where
  apart : (r.step e).Apart
  /-- A block that is returned is new, unless it is the one that is resized. -/
  fresh : r.answer e ≠ 0 → r.live (r.answer e) = none ∨ e.subject = some (r.answer e)
  /-- The other blocks stay with their contents. -/
  kept : ∀ p n, r.live p = some n → e.subject ≠ some p →
    (r.step e).live p = some n ∧
      ∀ i, i < n → (r.step e).heap.memory (p + i) = r.heap.memory (p + i)
  /-- `realloc` preserves the contents up to the lesser of the two sizes. -/
  moved : ∀ p n size, e = .realloc p size → r.live p = some n → r.answer e ≠ 0 →
    ∀ i, i < n → i < wrap64 size →
      (r.step e).heap.memory (r.answer e + i) = r.heap.memory (p + i)
  /-- A `realloc` that fails leaves the block as it is. -/
  failed : ∀ p n size, e = .realloc p size → r.live p = some n → r.answer e = 0 →
    wrap64 size ≠ 0 → (r.step e).live p = some n ∧
      ∀ i, i < n → (r.step e).heap.memory (p + i) = r.heap.memory (p + i)

/-- A block that is returned is aligned. -/
def Aligned : Prop := r.answer e ≠ 0 → r.answer e % 16 = 0

/-! ### When it gets it -/

/-- The size for which the call looks for a block, if it comes to that. -/
def need : Option ℕ :=
  let aligned (size : ℕ) : Option ℕ :=
    if alignSize (if size = 0 then 1 else size) = 0 then none
    else some (alignSize (if size = 0 then 1 else size))
  if r.heap.exited then none
  else match e with
    | .malloc size => aligned (wrap64 size)
    | .calloc count size =>
      if wrap64 count ≠ 0 ∧ wrap64 size > sizeMax / wrap64 count then none
      else aligned (wrap64 (wrap64 size * wrap64 count))
    | .realloc pointer size =>
      if r.valid pointer = false then none
      else if pointer = 0 then aligned (wrap64 size)
      else if wrap64 size = 0 ∨ alignSize (wrap64 size) = 0 ∨
          r.heap.size (Malloc.headerOf pointer) ≥ alignSize (wrap64 size) ∨
          r.heap.absorbs (Malloc.headerOf pointer) (alignSize (wrap64 size)) then none
      else some (alignSize (wrap64 size))
    | .free _ | .write _ _ _ => none

/-- A block is found, or the break can be moved for one. -/
def Obtains (s : Malloc) (size : ℕ) : Prop :=
  s.findFit size s.brk s.head ≠ 0 ∨ (s.sbrk (Malloc.growth size)).1 ≠ none

/-- If the break is moved, then for a size below the lower half of the address space, rounding
included. -/
def Bounded : Prop :=
  ∀ n, r.need e = some n → r.heap.findFit n r.heap.brk r.heap.head = 0 →
    (r.heap.sbrk (Malloc.growth n)).1 ≠ none → n + allocHeader + 4095 < 2 ^ 63

/-- The call looks for a block and obtains one. -/
def TakesBlock : Prop := ∃ n, r.need e = some n ∧ Obtains r.heap n

end MallocRun

end Northstar
