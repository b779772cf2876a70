import Northstar.User.MallocRun

/-! # The allocator and its client

The blocks of a client are blocks of the heap that are in use. A call ends in one of few ways: it is
refused and changes nothing, a new block comes into use, a block is resized, or a block is given up.
For each of them it is shown what the client gets and that its blocks stay blocks in use. -/

namespace Northstar

open Function Option Malloc

namespace Malloc

variable {s : Malloc} {cs : List Chunk} {a b n : ℕ} {d : Chunk}

/-- A call that is refused changes only `errno` and the number of requests. -/
lemma Tiles.refused (h : s.Tiles cs) (e n : ℕ) (apart : ℕ → Prop) :
    Frame s cs { s with errno := e, requests := n } cs apart where
  tiles :=
    { positive := h.positive
      within := h.within
      bound := h.bound
      running := h.running
      strung := h.strung.imp fun _ _ _ _ _ _ hb => hb.congr fun _ _ _ => rfl
      reach := h.reach
      head := h.head
      tail := h.tail }
  base := rfl
  used := fun _ _ _ hused => hused
  contents := fun _ _ _ _ _ _ _ => rfl

/-- The contents of a new block are written. -/
lemma Allocated.contents {size : ℕ} {s' : Malloc} {cs' : List Chunk} {m : Memory}
    (h : Allocated s cs b size s' cs')
    (hm : ∀ x, ¬(b + 40 ≤ x ∧ x < b + 40 + size) → m x = s'.memory x) :
    Allocated s cs b size { s' with memory := m } cs' := by
  obtain ⟨n, hn, hused⟩ := h.used
  have hwrite := h.frame.tiles.write_contents hused fun x hx => hm x (by dsimp only at hx; omega)
  have hfirst : Frame s cs s' cs' (· = b) := h.frame.weaken fun _ _ _ hx => absurd hx not_false
  refine ⟨(hfirst.trans hwrite).weaken ?_, h.fresh, n, hn, hused⟩
  rintro x e he rfl
  exact absurd he (h.fresh e)

/-- `realloc` of a block in use to a size that is not 0. -/
lemma Tiles.realloc_eq {k : ℕ} (h : s.Tiles cs) (hused : s.Used cs a d) (hk : k ≠ 0) :
    s.realloc (a + 40) k =
      if alignSize k = 0 then (0, s)
      else if d.size ≥ alignSize k then (a + 40, s.splitAllocation a (alignSize k))
      else if s.absorbs a (alignSize k) then
        (a + 40, ((s.mergeNext a).splitAllocation a (alignSize k)).setFree a 0)
      else s.move (a + 40) (alignSize k) := by
  have hplace := h.used_le hused
  have hbrk := h.brk_lt
  have hcorrupt := h.corrupt_eq_false hused
  have hsize := h.size_eq hused
  unfold realloc
  rw [if_neg (by omega), if_neg hk, headerOf_add (by omega)]
  dsimp only
  rw [hcorrupt, if_neg Bool.false_ne_true, hsize]

/-- The block after one that absorbs it is free, and makes it large enough. -/
lemma Tiles.absorbs_cases {k : ℕ} (h : s.Tiles cs) (hused : s.Used cs a d)
    (habsorbs : s.absorbs a k = true) :
    ∃ xs c ys, cs = xs ++ d :: c :: ys ∧ a = s.base + extent Chunk.span xs ∧ c.free = true ∧
      k ≤ d.size + 40 + c.size := by
  have hbrk := h.brk_lt
  obtain ⟨xs, ys, rfl, rfl⟩ := hused.exists_append
  have hreach := h.reach
  obtain ⟨hnext, hfree, -, hfit⟩ := of_decide_eq_true habsorbs
  rw [h.header.next] at hnext hfree hfit
  cases ys with
  | nil => exact absurd rfl hnext
  | cons c ys =>
    have hheader := (strung_append.1 h.strung).2.2.1
    rw [extent_append, extent_cons, extent_cons, d.span_eq, c.span_eq] at hreach
    rw [firstAddress] at hfree hfit
    rw [hheader.free] at hfree
    rw [h.header.size, hheader.size, wrap64_of_lt (by unfold allocHeader; omega)] at hfit
    refine ⟨xs, c, ys, rfl, rfl, ?_, hfit⟩
    by_contra hnot
    rw [if_neg hnot] at hfree
    exact hfree rfl

end Malloc

/-- `align_size` rounds up by at most 15, or gives 0. -/
lemma alignSize_cases (n : ℕ) (h : n < 2 ^ 64) :
    alignSize n = 0 ∨ n ≤ alignSize n ∧ alignSize n ≤ n + 15 ∧ alignSize n < 2 ^ 64 := by
  unfold alignSize sizeMax
  split <;> omega

/-- A size that is aligned stays as it is. -/
lemma alignSize_alignSize (n : ℕ) : alignSize (alignSize n) = alignSize n := by
  unfold alignSize sizeMax
  split
  · rfl
  · split <;> omega

namespace MallocRun

variable {r : MallocRun} {e : MallocEvent} {cs cs' : List Chunk} {s' : Malloc} {b n : ℕ}

/-- Each block of the client is a block of the heap that is in use. -/
structure Sound (r : MallocRun) (cs : List Chunk) : Prop where
  tiles : r.heap.Tiles cs
  live : ∀ p n, r.live p = some n → ∃ a d, p = a + 40 ∧ r.heap.Used cs a d ∧ n ≤ d.size

/-- A sound run has its blocks apart. -/
lemma Sound.apart (h : r.Sound cs) : r.Apart where
  inside := by
    intro p n hp
    obtain ⟨a, d, rfl, hused, hn⟩ := h.live p n hp
    have hplace := h.tiles.used_le hused
    omega
  disjoint := by
    intro p q n m hp hq hne
    obtain ⟨a, d, rfl, hused, hn⟩ := h.live p n hp
    obtain ⟨a', d', rfl, hused', hm⟩ := h.live q m hq
    have hapart := blockAt_apart hused.1 hused'.1 (by omega)
    omega
  headers := by
    intro p n block hp hlisted
    obtain ⟨a, d, rfl, hused, hn⟩ := h.live p n hp
    obtain ⟨c, hc⟩ := h.tiles.blockAt_of_listed hlisted
    unfold allocHeader
    by_cases hne : a = block
    · omega
    · have hapart := blockAt_apart hused.1 hc hne
      omega

variable {p count size a m : ℕ} {d : Chunk}

section

variable (h : r.Sound cs)
include h

/-- A block of the client that a call leaves alone. -/
lemma Sound.kept {apart : ℕ → Prop}
    (hframe : Malloc.Frame r.heap cs s' cs' apart) (hp : r.live p = some n)
    (hapart : ∀ a, p = a + 40 → ¬apart a) :
    (∃ a d, p = a + 40 ∧ s'.Used cs' a d ∧ n ≤ d.size) ∧
      ∀ i, i < n → s'.memory (p + i) = r.heap.memory (p + i) := by
  obtain ⟨a, d, rfl, hused, hn⟩ := h.live p n hp
  have ha := hapart a rfl
  refine ⟨⟨a, d, rfl, hframe.used a d ha hused, hn⟩, ?_⟩
  intro i hi
  exact hframe.contents a d ha hused _ (by omega) (by omega)

/-- The client has no block at an address that is not in use. -/
lemma Sound.live_eq_none (hfresh : ∀ d, ¬r.heap.Used cs b d) : r.live (b + 40) = none := by
  by_contra hne
  obtain ⟨n, hn⟩ := ne_none_iff_exists'.1 hne
  obtain ⟨a, d, ha, hused, -⟩ := h.live _ n hn
  obtain rfl : b = a := by omega
  exact hfresh d hused

/-- There is no block at the null pointer. -/
lemma Sound.live_zero : r.live 0 = none := by
  by_contra hne
  obtain ⟨n, hn⟩ := ne_none_iff_exists'.1 hne
  obtain ⟨a, d, ha, -⟩ := h.live _ n hn
  omega

/-! ### How a call ends -/

/-- A call that is refused. -/
lemma Sound.of_refused {err : ℕ} (hanswer : r.answer e = 0)
    (hstep : r.step e = { r with heap := { r.heap with errno := err, requests := count } }) :
    (r.step e).Sound cs ∧ r.Proper e := by
  have hframe := h.tiles.refused err count (fun _ => False)
  have hsound : (r.step e).Sound cs := by
    rw [hstep]
    exact ⟨hframe.tiles, fun p n hp => (h.kept hframe hp fun _ _ => not_false).1⟩
  have hsame : ∀ p n, r.live p = some n → (r.step e).live p = some n ∧
      ∀ i, i < n → (r.step e).heap.memory (p + i) = r.heap.memory (p + i) := by
    intro p n hp
    rw [hstep]
    exact ⟨hp, fun _ _ => rfl⟩
  refine ⟨hsound, hsound.apart, fun hne => absurd hanswer hne, fun p n hp _ => hsame p n hp, ?_, ?_⟩
  · intro p n size _ _ hne
    exact absurd hanswer hne
  · intro p n size _ hp _ _
    exact hsame p n hp

/-- A new block comes into use. -/
lemma Sound.of_allocated (halloc : Malloc.Allocated r.heap cs b size s' cs') (hn : n ≤ size)
    (hnew : ∀ p m, r.live p = some m → e.subject ≠ some p) (hanswer : r.answer e = b + 40)
    (hstep : r.step e = ⟨s', update r.live (b + 40) (some n)⟩) :
    (r.step e).Sound cs' ∧ r.Proper e := by
  obtain ⟨k, hk, hused⟩ := halloc.used
  have hnone := h.live_eq_none halloc.fresh
  have hne : ∀ p m, r.live p = some m → p ≠ b + 40 := by
    rintro p m hp rfl
    exact absurd (hp.symm.trans hnone) (some_ne_none m)
  have hsound : (r.step e).Sound cs' := by
    rw [hstep]
    refine ⟨halloc.frame.tiles, ?_⟩
    intro p m hp
    dsimp only at hp
    by_cases hpb : p = b + 40
    · rw [hpb, update_self] at hp
      obtain rfl := some.inj hp
      exact ⟨b, _, hpb, hused, hn.trans hk⟩
    · rw [update_of_ne hpb] at hp
      exact (h.kept halloc.frame hp fun _ _ => not_false).1
  refine ⟨hsound, hsound.apart, ?_, ?_, ?_, ?_⟩
  · intro _
    rw [hanswer]
    exact .inl hnone
  · intro p m hp _
    rw [hstep]
    refine ⟨?_, (h.kept halloc.frame hp fun _ _ => not_false).2⟩
    exact (update_of_ne (hne p m hp) _ _).trans hp
  · intro p m size' he hp
    subst he
    exact absurd rfl (hnew p m hp)
  · intro p m size' he hp
    subst he
    exact absurd rfl (hnew p m hp)

/-- A block is resized, where it is or elsewhere. -/
lemma Sound.of_resized {size' : ℕ} (he : e = .realloc (a + 40) size') (hused : r.heap.Used cs a d)
    (hlive : r.live (a + 40) = some m) (hresized : Malloc.Resized r.heap cs a d b size s' cs')
    (hn : wrap64 size' ≤ size) (hanswer : r.answer e = b + 40)
    (hstep : r.step e = ⟨s', update (update r.live (a + 40) none) (b + 40)
      (some (wrap64 size'))⟩) : (r.step e).Sound cs' ∧ r.Proper e := by
  obtain ⟨k, hk, hnew⟩ := hresized.used
  have hother : ∀ p, p ≠ a + 40 → ∀ a', p = a' + 40 → ¬a' = a := by
    rintro p hp a' rfl rfl
    exact hp rfl
  have hsize : m ≤ d.size := by
    obtain ⟨a', d', ha', hused', hm⟩ := h.live _ m hlive
    obtain rfl : a = a' := by omega
    obtain rfl := some.inj (hused.1.symm.trans hused'.1)
    exact hm
  have hsound : (r.step e).Sound cs' := by
    rw [hstep]
    refine ⟨hresized.frame.tiles, ?_⟩
    intro p k' hp
    dsimp only at hp
    by_cases hpb : p = b + 40
    · rw [hpb, update_self] at hp
      obtain rfl := some.inj hp
      exact ⟨b, _, hpb, hnew, hn.trans hk⟩
    · rw [update_of_ne hpb] at hp
      by_cases hpa : p = a + 40
      · rw [hpa, update_self] at hp
        exact absurd hp.symm (some_ne_none k')
      · rw [update_of_ne hpa] at hp
        exact (h.kept hresized.frame hp (hother p hpa)).1
  refine ⟨hsound, hsound.apart, ?_, ?_, ?_, ?_⟩
  · intro _
    rw [hanswer, he]
    obtain rfl | hfresh := hresized.place
    · exact .inr rfl
    · exact .inl (h.live_eq_none hfresh)
  · intro p k' hp hne
    have hpa : p ≠ a + 40 := by
      rintro rfl
      exact hne (by rw [he]; rfl)
    have hpb : p ≠ b + 40 := by
      rintro rfl
      obtain rfl | hfresh := hresized.place
      · exact hpa rfl
      · exact absurd (hp.symm.trans (h.live_eq_none hfresh)) (some_ne_none k')
    rw [hstep]
    refine ⟨?_, (h.kept hresized.frame hp (hother p hpa)).2⟩
    dsimp only
    rw [update_of_ne hpb, update_of_ne hpa, hp]
  · intro p k' size'' he' hp _ i hi hi'
    rw [he] at he'
    obtain ⟨rfl, rfl⟩ := MallocEvent.realloc.inj he'
    obtain rfl := some.inj (hlive.symm.trans hp)
    rw [hanswer, hstep]
    exact hresized.contents i (by omega) (by omega)
  · intro p k' size'' _ _ hz
    omega

/-- A block is given up. -/
lemma Sound.of_freed
    (hframe : Malloc.Frame r.heap cs s' cs' (· = a)) (hsubject : e.subject = some (a + 40))
    (hrealloc : ∀ p size, e = .realloc p size → wrap64 size = 0) (hanswer : r.answer e = 0)
    (hstep : r.step e = ⟨s', update r.live (a + 40) none⟩) :
    (r.step e).Sound cs' ∧ r.Proper e := by
  have hother : ∀ p, p ≠ a + 40 → ∀ a', p = a' + 40 → ¬a' = a := by
    rintro p hp a' rfl rfl
    exact hp rfl
  have hsound : (r.step e).Sound cs' := by
    rw [hstep]
    refine ⟨hframe.tiles, ?_⟩
    intro p k hp
    dsimp only at hp
    by_cases hpa : p = a + 40
    · rw [hpa, update_self] at hp
      exact absurd hp.symm (some_ne_none k)
    · rw [update_of_ne hpa] at hp
      exact (h.kept hframe hp (hother p hpa)).1
  refine ⟨hsound, hsound.apart, fun hne => absurd hanswer hne, ?_, ?_, ?_⟩
  · intro p k hp hne
    have hpa : p ≠ a + 40 := by
      rintro rfl
      exact hne hsubject
    rw [hstep]
    refine ⟨?_, (h.kept hframe hp (hother p hpa)).2⟩
    exact (update_of_ne hpa _ _).trans hp
  · intro p k size _ _ hne
    exact absurd hanswer hne
  · intro p k size he _ _ hz
    exact absurd (hrealloc p size he) hz

/-- The client writes a byte of one of its blocks. -/
lemma Sound.of_write {d : ℕ} {c : Chunk} {byte : UInt8}
    (hused : r.heap.Used cs a c) (hd : d < c.size) (he : e = .write (a + 40) d byte)
    (hanswer : r.answer e = 0)
    (hstep : r.step e = { r with heap :=
      { r.heap with memory := update r.heap.memory (a + 40 + d) byte } }) :
    (r.step e).Sound cs ∧ r.Proper e := by
  have hframe := h.tiles.write_contents hused
    (m := update r.heap.memory (a + 40 + d) byte) fun x hx =>
      update_of_ne (by omega) _ _
  have hsound : (r.step e).Sound cs := by
    rw [hstep]
    exact ⟨hframe.tiles, h.live⟩
  refine ⟨hsound, hsound.apart, fun hne => absurd hanswer hne, ?_, ?_, ?_⟩
  · intro p k hp hne
    rw [hstep]
    refine ⟨hp, (h.kept hframe hp ?_).2⟩
    rintro a' rfl rfl
    exact hne (by rw [he]; rfl)
  · intro p k size he'
    rw [he] at he'
    cases he'
  · intro p k size he'
    rw [he] at he'
    cases he'

end

/-! ### The calls -/

lemma wrap64_lt (value : ℕ) : wrap64 value < 2 ^ 64 := Nat.mod_lt _ (by norm_num)

/-- The size that `malloc` looks for. -/
def fitted (size : ℕ) : ℕ := alignSize (if size = 0 then 1 else size)

/-- The size that is searched for is large enough, and at most 16 more. -/
lemma le_fitted (h : size < 2 ^ 64) (hz : fitted size ≠ 0) :
    size ≤ fitted size ∧ fitted size ≤ size + 16 ∧ fitted size < 2 ^ 64 := by
  unfold fitted at *
  by_cases hsize : size = 0
  · have hone := alignSize_cases 1 (by norm_num)
    rw [if_pos hsize] at *
    omega
  · have hcases := alignSize_cases size h
    rw [if_neg hsize] at *
    omega

/-- `malloc` looks for an aligned size as it is. -/
lemma fitted_alignSize (h : alignSize size ≠ 0) :
    fitted (alignSize size) = alignSize size := by
  unfold fitted
  rw [if_neg h, alignSize_alignSize]

/-- `malloc` refuses a size that has no aligned one. -/
lemma malloc_eq_refused {s : Malloc} (hz : fitted size = 0) :
    s.malloc size = (0, { s with errno := libcEnomem }) :=
  (malloc_eq size).trans (if_pos hz)

/-- `malloc` searches for the aligned size. -/
lemma malloc_eq_aligned {s : Malloc} (hz : fitted size ≠ 0) :
    s.malloc size = s.mallocAligned (fitted size) :=
  (malloc_eq size).trans (if_neg hz)

/-- `malloc` is refused, or a new block comes into use. -/
lemma Sound.malloc_ending (size : ℕ) (h : r.Sound cs)
    (hbounded : fitted size ≠ 0 → r.heap.findFit (fitted size) r.heap.brk r.heap.head = 0 →
      (r.heap.sbrk (Malloc.growth (fitted size))).1 ≠ none →
      fitted size + 40 + 4095 < 2 ^ 63) :
    (∃ err count, r.heap.malloc size =
        (0, { r.heap with errno := err, requests := count })) ∨
      fitted size ≠ 0 ∧ ∃ b cs', (r.heap.malloc size).1 = b + 40 ∧
        Malloc.Allocated r.heap cs b (fitted size) (r.heap.malloc size).2 cs' := by
  by_cases hz : fitted size = 0
  · exact .inl ⟨libcEnomem, r.heap.requests, malloc_eq_refused hz⟩
  · rw [malloc_eq_aligned hz]
    obtain hfail | ⟨hpointer, cs', halloc⟩ := h.tiles.malloc_outcome (hbounded hz)
    · exact .inl hfail
    · exact .inr ⟨hz, _, cs', hpointer, halloc⟩

/-- Before the program has exited a call takes place. -/
lemma step_eq_act (h : r.heap.exited = false) : r.step e = r.act e := by
  unfold step
  rw [h]
  rfl

/-- While the program runs, the call asks `malloc` for a new block of a size, whose contents it may
then write. -/
structure Asks (r : MallocRun) (e : MallocEvent) (size : ℕ) : Prop where
  lt : size < 2 ^ 64
  new : ∀ p m, r.live p = some m → e.subject ≠ some p
  need : r.need e = if fitted size = 0 then none else some (fitted size)
  answer : r.answer e = (r.heap.malloc size).1
  refused : (r.heap.malloc size).1 = 0 → r.step e = { r with heap := (r.heap.malloc size).2 }
  granted : (r.heap.malloc size).1 ≠ 0 → ∃ m : Memory,
    (∀ x, ¬((r.heap.malloc size).1 ≤ x ∧ x < (r.heap.malloc size).1 + size) →
      m x = (r.heap.malloc size).2.memory x) ∧
    r.step e = ⟨{ (r.heap.malloc size).2 with memory := m },
      update r.live (r.heap.malloc size).1 (some size)⟩

/-- What is asked for is refused, or a new block comes into use. -/
lemma Asks.sound (hasks : r.Asks e size) (h : r.Sound cs) (hbounded : r.Bounded e) :
    ∃ cs', (r.step e).Sound cs' ∧ r.Proper e := by
  obtain ⟨err, count, hfail⟩ | ⟨hz, b, cs', hpointer, halloc⟩ :=
      h.malloc_ending size fun hz => hbounded _ (hasks.need.trans (if_neg hz))
  · have hzero : (r.heap.malloc size).1 = 0 := by rw [hfail]
    have hstep := hasks.refused hzero
    rw [hfail] at hstep
    exact ⟨cs, h.of_refused (hasks.answer.trans hzero) hstep⟩
  · have hle := (le_fitted hasks.lt hz).1
    obtain ⟨m, hm, hstep⟩ := hasks.granted (by omega)
    rw [hpointer] at hm hstep
    exact ⟨cs', h.of_allocated (halloc.contents fun x hx => hm x (by omega)) hle hasks.new
      (hasks.answer.trans hpointer) hstep⟩

/-- `malloc` asks for its size. -/
lemma asks_malloc (size : ℕ) (h : r.heap.exited = false) :
    r.Asks (.malloc size) (wrap64 size) where
  lt := wrap64_lt size
  new := fun p _ _ => (some_ne_none p).symm
  need := by
    unfold need
    rw [h]
    rfl
  answer := by
    unfold answer
    rw [h]
    rfl
  refused := fun hz => (step_eq_act h).trans (if_pos hz)
  granted := fun hne => ⟨_, fun _ _ => rfl, (step_eq_act h).trans (if_neg hne)⟩

/-- Where `calloc` goes on, the product is one that a `size_t` can hold. -/
lemma mul_lt_of_not_overflow
    (h : ¬(count ≠ 0 ∧ size > sizeMax / count)) : size * count < 2 ^ 64 := by
  by_cases hz : count = 0
  · rw [hz, Nat.mul_zero]
    norm_num
  · have hle : size ≤ sizeMax / count := Nat.le_of_not_lt fun hlt => h ⟨hz, hlt⟩
    have hmul : size * count ≤ sizeMax := (Nat.mul_le_mul_right count hle).trans
      (Nat.div_mul_le_self sizeMax count)
    unfold sizeMax at hmul
    omega

lemma answer_calloc (count size : ℕ) (h : r.heap.exited = false) :
    r.answer (.calloc count size) = (r.heap.calloc (wrap64 count) (wrap64 size)).1 := by
  unfold answer
  rw [h]
  rfl

/-- `calloc` asks for the product, if it fits. -/
lemma asks_calloc (h : r.heap.exited = false)
    (hfits : ¬(wrap64 count ≠ 0 ∧ wrap64 size > sizeMax / wrap64 count)) :
    r.Asks (.calloc count size) (wrap64 size * wrap64 count) := by
  have hproduct := mul_lt_of_not_overflow hfits
  have hanswer := answer_calloc count size h
  have hstep : r.step (.calloc count size) = r.gain (r.heap.calloc (wrap64 count) (wrap64 size))
      (wrap64 size * wrap64 count) := step_eq_act h
  rw [Malloc.calloc, if_neg hfits, wrap64_of_lt hproduct] at hanswer hstep
  refine ⟨hproduct, fun p _ _ => (some_ne_none p).symm, ?_, ?_, fun hz => ?_, fun hne => ?_⟩
  · unfold need
    rw [h, if_neg Bool.false_ne_true]
    exact (if_neg hfits).trans (by rw [wrap64_of_lt hproduct, fitted])
  · rw [hanswer]
    dsimp only
    split <;> rfl
  · rw [hstep, if_pos hz]
    exact if_pos hz
  · rw [if_neg hne] at hstep
    refine ⟨_, fun x hx => Memory.fill_apply_of_not hx, hstep.trans (if_neg hne)⟩

/-- `calloc` keeps the run sound. -/
lemma Sound.calloc (h : r.Sound cs) (hbounded : r.Bounded (.calloc count size)) :
    ∃ cs', (r.step (.calloc count size)).Sound cs' ∧ r.Proper (.calloc count size) := by
  have hrun := h.tiles.running
  by_cases hover : wrap64 count ≠ 0 ∧ wrap64 size > sizeMax / wrap64 count
  · have hcalloc : r.heap.calloc (wrap64 count) (wrap64 size) =
        (0, { r.heap with errno := libcEnomem }) := if_pos hover
    have hanswer := answer_calloc count size hrun
    have hstep : r.step (.calloc count size) = r.gain (r.heap.calloc (wrap64 count) (wrap64 size))
        (wrap64 size * wrap64 count) := step_eq_act hrun
    rw [hcalloc] at hanswer hstep
    exact ⟨cs, h.of_refused hanswer hstep⟩
  · exact (asks_calloc hrun hover).sound h hbounded

/-! ### `free` and writes -/

/-- Nothing happens. -/
lemma Sound.of_idle (h : r.Sound cs) (hanswer : r.answer e = 0) (hstep : r.step e = r) :
    (r.step e).Sound cs ∧ r.Proper e :=
  h.of_refused hanswer (hstep.trans rfl)

/-- Giving up `NULL` changes nothing. -/
lemma Sound.update_zero (h : r.Sound cs) : update r.live 0 none = r.live := by
  rw [← h.live_zero, update_eq_self]

lemma answer_free (p : ℕ) : r.answer (.free p) = 0 := by
  unfold answer
  split <;> rfl

lemma answer_write (p i : ℕ) (byte : UInt8) : r.answer (.write p i byte) = 0 := by
  unfold answer
  split <;> rfl

/-- A valid pointer is `NULL` or that of a block of the client. -/
lemma valid_cases (h : r.valid p = true) : p = 0 ∨ ∃ n, r.live p = some n := by
  unfold valid at h
  rw [Bool.or_eq_true, beq_iff_eq, isSome_iff_exists] at h
  exact h

/-- `free` keeps the run sound. -/
lemma Sound.free (h : r.Sound cs) :
    ∃ cs', (r.step (.free p)).Sound cs' ∧ r.Proper (.free p) := by
  have hrun := h.tiles.running
  have hstep : r.step (.free p) =
      if r.valid p then ({ r with heap := r.heap.free p }).drop p else r := step_eq_act hrun
  split_ifs at hstep with hvalid
  · obtain rfl | ⟨n, hn⟩ := valid_cases hvalid
    · refine ⟨cs, h.of_idle (answer_free 0) (hstep.trans ?_)⟩
      unfold drop
      rw [h.update_zero]
      rfl
    · obtain ⟨a, d, rfl, hused, -⟩ := h.live p n hn
      obtain ⟨cs', hframe⟩ := h.tiles.free hused
      dsimp only [drop] at hstep
      have hrealloc : ∀ p size, MallocEvent.free (a + 40) = .realloc p size → wrap64 size = 0 :=
        fun _ _ he => MallocEvent.noConfusion he
      exact ⟨cs', h.of_freed hframe rfl hrealloc (answer_free _) hstep⟩
  · exact ⟨cs, h.of_idle (answer_free p) hstep⟩

/-- A write by the program keeps the run sound. -/
lemma Sound.write {i : ℕ} {byte : UInt8} (h : r.Sound cs) :
    ∃ cs', (r.step (.write p i byte)).Sound cs' ∧ r.Proper (.write p i byte) := by
  have hrun := h.tiles.running
  have hanswer := answer_write p i byte (r := r)
  have hstep : r.step (.write p i byte) = r.act (.write p i byte) := step_eq_act hrun
  unfold act at hstep
  dsimp only at hstep
  cases hp : r.live p with
  | none =>
    rw [hp] at hstep
    exact ⟨cs, h.of_idle hanswer hstep⟩
  | some n =>
    rw [hp] at hstep
    dsimp only at hstep
    split_ifs at hstep with hi
    · obtain ⟨a, d, rfl, hused, hn⟩ := h.live p n hp
      exact ⟨cs, h.of_write hused (by omega) rfl hanswer hstep⟩
    · exact ⟨cs, h.of_idle hanswer hstep⟩

/-! ### `realloc` -/

/-- The result of `realloc` for a valid pointer. -/
lemma answer_realloc (size : ℕ) (h : r.heap.exited = false) (hvalid : r.valid p = true) :
    r.answer (.realloc p size) = (r.heap.realloc p (wrap64 size)).1 := by
  unfold answer
  rw [h]
  exact if_pos hvalid

/-- For another pointer `realloc` is not called. -/
lemma answer_realloc_of_not (hvalid : ¬r.valid p = true) :
    r.answer (.realloc p size) = 0 := by
  unfold answer
  split
  · rfl
  · exact if_neg hvalid

/-- What `realloc` does to the run. -/
lemma step_realloc (size : ℕ) (h : r.heap.exited = false) (hvalid : r.valid p = true) :
    r.step (.realloc p size) =
      if (r.heap.realloc p (wrap64 size)).1 = 0 ∧ wrap64 size ≠ 0 then
        { r with heap := (r.heap.realloc p (wrap64 size)).2 }
      else (r.drop p).gain (r.heap.realloc p (wrap64 size)) (wrap64 size) :=
  (step_eq_act h).trans (if_pos hvalid)

/-- A pointer to a live block is valid. -/
lemma valid_of_live {n : ℕ} (h : r.live p = some n) : r.valid p = true := by
  unfold valid
  rw [h, isSome_some, Bool.or_true]

section

variable (h : r.Sound cs)
include h

/-- `realloc` of `NULL` is `malloc`. -/
lemma Sound.asks_realloc (size : ℕ) : r.Asks (.realloc 0 size) (wrap64 size) := by
  have hrun := h.tiles.running
  have hmalloc : r.heap.realloc 0 (wrap64 size) = r.heap.malloc (wrap64 size) := if_pos rfl
  have hanswer := answer_realloc size hrun (p := 0) rfl
  have hstep := step_realloc size hrun (p := 0) rfl
  rw [hmalloc] at hanswer hstep
  rw [drop, h.update_zero] at hstep
  refine ⟨wrap64_lt size, ?_, ?_, hanswer, fun hz => ?_, fun hne => ?_⟩
  · rintro p m hp he
    obtain rfl := some.inj he
    exact absurd (hp.symm.trans h.live_zero) (some_ne_none m)
  · unfold need
    rw [hrun]
    rfl
  · rw [hstep, gain, if_pos hz, ite_self]
  · rw [if_neg fun hboth => hne hboth.1] at hstep
    exact ⟨_, fun _ _ => rfl, hstep.trans (if_neg hne)⟩

/-- `realloc` of a block looks for another one if the block can not be resized where it is. -/
lemma Sound.need_realloc (size : ℕ) (hused : r.heap.Used cs a d)
    (hvalid : r.valid (a + 40) = true) :
    r.need (.realloc (a + 40) size) =
      if wrap64 size = 0 ∨ alignSize (wrap64 size) = 0 ∨ d.size ≥ alignSize (wrap64 size) ∨
        r.heap.absorbs a (alignSize (wrap64 size)) = true then none
      else some (alignSize (wrap64 size)) := by
  have hplace := h.tiles.used_le hused
  have hbrk := h.tiles.brk_lt
  unfold need
  rw [h.tiles.running]
  dsimp only
  rw [if_neg Bool.false_ne_true, hvalid, if_neg (by simp), if_neg (by omega),
    headerOf_add (by omega), h.tiles.size_eq hused]

/-- `realloc` of a block of the client. -/
lemma Sound.realloc_live (hused : r.heap.Used cs a d)
    (hlive : r.live (a + 40) = some m) (hbounded : r.Bounded (.realloc (a + 40) size)) :
    ∃ cs', (r.step (.realloc (a + 40) size)).Sound cs' ∧ r.Proper (.realloc (a + 40) size) := by
  have hrun := h.tiles.running
  have hvalid := valid_of_live hlive
  have hanswer := answer_realloc size hrun hvalid
  have hstep := step_realloc size hrun hvalid
  -- a size of 0 is a `free`
  by_cases hsize : wrap64 size = 0
  · have hfree : r.heap.realloc (a + 40) (wrap64 size) = (0, r.heap.free (a + 40)) := by
      unfold realloc
      rw [if_neg (by omega), if_pos hsize]
    obtain ⟨cs', hframe⟩ := h.tiles.free hused
    rw [hfree] at hanswer hstep
    rw [if_neg fun hboth => hboth.2 hsize, gain, if_pos rfl] at hstep
    dsimp only [drop] at hstep
    refine ⟨cs', h.of_freed hframe rfl ?_ hanswer hstep⟩
    rintro p k he
    obtain ⟨-, rfl⟩ := MallocEvent.realloc.inj he
    exact hsize
  have hcases := h.tiles.realloc_eq hused hsize
  have hle : alignSize (wrap64 size) ≠ 0 → wrap64 size ≤ alignSize (wrap64 size) := by
    have := alignSize_cases (wrap64 size) (wrap64_lt size)
    omega
  by_cases hz : alignSize (wrap64 size) = 0
  · rw [if_pos hz] at hcases
    rw [hcases] at hanswer hstep
    rw [if_pos ⟨rfl, hsize⟩] at hstep
    exact ⟨cs, h.of_idle hanswer hstep⟩
  rw [if_neg hz] at hcases
  by_cases hfit : d.size ≥ alignSize (wrap64 size)
  · rw [if_pos hfit] at hcases
    rw [hcases] at hanswer hstep
    obtain ⟨cs', hresized⟩ := h.tiles.resize_here hused hfit
    exact ⟨cs', h.of_resized rfl hused hlive hresized (hle hz) hanswer hstep⟩
  rw [if_neg hfit] at hcases
  split_ifs at hcases with habsorbs
  · rw [hcases] at hanswer hstep
    obtain ⟨xs, c, ys, rfl, rfl, hc, hroom⟩ := h.tiles.absorbs_cases hused habsorbs
    obtain ⟨cs', hresized⟩ := h.tiles.resize_absorb hc hroom
    exact ⟨cs', h.of_resized rfl hused hlive hresized (hle hz) hanswer hstep⟩
  have hneed := (h.need_realloc size hused hvalid).trans
    (if_neg (not_or_intro hsize (not_or_intro hz (not_or_intro hfit habsorbs))))
  have hfitted := fitted_alignSize hz
  unfold move at hcases
  dsimp only at hcases
  obtain ⟨err, count, hfail⟩ | ⟨-, b, cs1, hpointer, halloc⟩ :=
      h.malloc_ending (alignSize (wrap64 size)) fun _ => hbounded _ (by rw [hneed, hfitted])
  · rw [hfail, if_pos rfl] at hcases
    rw [hcases] at hanswer hstep
    rw [if_pos ⟨rfl, hsize⟩] at hstep
    exact ⟨cs, h.of_refused hanswer hstep⟩
  · have hmoved := halloc.frame.used a d not_false hused
    have hplace := h.tiles.used_le hused
    have hbrk := h.tiles.brk_lt
    have hcopied : (r.heap.malloc (alignSize (wrap64 size))).2.size
        (headerOf (a + 40)) = d.size := by
      rw [headerOf_add (by omega)]
      exact halloc.frame.tiles.size_eq hmoved
    rw [hfitted] at halloc
    rw [if_neg (by rw [hpointer]; omega), hcopied, hpointer] at hcases
    obtain ⟨cs', hresized⟩ := Malloc.Tiles.resize_move hused halloc (by omega)
    rw [hcases] at hanswer hstep
    rw [if_neg fun hboth => by simp at hboth, gain, if_neg (by simp)] at hstep
    dsimp only [drop] at hanswer hstep
    exact ⟨cs', h.of_resized rfl hused hlive hresized (hle hz) hanswer hstep⟩

/-- What one step does in a run: the blocks of the client stay blocks in use, and the call is
proper. -/
lemma Sound.step (hbounded : r.Bounded e) : ∃ cs', (r.step e).Sound cs' ∧ r.Proper e := by
  cases e with
  | malloc size => exact (asks_malloc size h.tiles.running).sound h hbounded
  | calloc count size => exact h.calloc hbounded
  | realloc p size =>
    by_cases hvalid : r.valid p = true
    · obtain rfl | ⟨m, hm⟩ := valid_cases hvalid
      · exact (h.asks_realloc size).sound h hbounded
      · obtain ⟨a, d, rfl, hused, -⟩ := h.live p m hm
        exact h.realloc_live hused hm hbounded
    · have hstep : r.step (.realloc p size) = r :=
        (step_eq_act h.tiles.running).trans (if_neg hvalid)
      exact ⟨cs, h.of_idle (answer_realloc_of_not hvalid) hstep⟩
  | free p => exact h.free
  | write p i byte => exact h.write

/-! ### What a call returns, for any size -/

/-- `malloc` returns the chosen block, if it obtains one. -/
lemma Sound.mallocAligned_fst (n : ℕ) :
    Obtains r.heap n ∧ (r.heap.mallocAligned n).1 = r.heap.chosen n + 40 ∨
      ¬Obtains r.heap n ∧ (r.heap.mallocAligned n).1 = 0 := by
  have hbrk := h.tiles.brk_lt
  by_cases hfit : r.heap.findFit n r.heap.brk r.heap.head = 0
  · have hchosen : r.heap.chosen n = r.heap.brk := if_neg (not_not.2 hfit)
    by_cases hsbrk : (r.heap.sbrk (growth n)).1 = none
    · obtain ⟨err, count, hfail⟩ := sbrk_none hsbrk
      refine .inr ⟨fun hobtains => hobtains.elim (fun hne => hne hfit) fun hne => hne hsbrk, ?_⟩
      unfold mallocAligned growHeap
      rw [hfit, hfail]
      rfl
    · obtain ⟨brk, -, hok⟩ := sbrk_some hsbrk
      rw [hchosen]
      exact .inl ⟨.inr hsbrk, (mallocAligned_of_sbrk hbrk hfit hok).1⟩
  · have hlt := h.tiles.findFit_lt n
    have hchosen : r.heap.chosen n = r.heap.findFit n r.heap.brk r.heap.head := if_pos hfit
    refine .inl ⟨.inl hfit, ?_⟩
    unfold mallocAligned
    rw [if_pos hfit, hchosen]
    exact wrap64_of_lt (by unfold allocHeader; omega)

end

/-- A call that looks for a block returns what `malloc` does, and the client has it from then on. -/
structure Delivers (r : MallocRun) (e : MallocEvent) (n : ℕ) : Prop where
  answer : r.answer e = (r.heap.mallocAligned n).1
  lt : n < 2 ^ 64
  live : (r.heap.mallocAligned n).1 ≠ 0 → ∃ k, n ≤ k + 16 ∧
    (r.step e).live (r.heap.mallocAligned n).1 = some k ∧
    (r.step e).heap.brk = (r.heap.mallocAligned n).2.brk

/-- A block that was handed out is live. -/
lemma gain_mk_of_ne (h : p ≠ 0) :
    r.gain (p, s') size = ⟨s', update r.live p (some size)⟩ := if_neg h

/-- A call that asks for a size delivers what it needs. -/
lemma Asks.delivers (hasks : r.Asks e size) :
    r.need e = none ∧ (r.answer e ≠ 0 → e.subject = some (r.answer e)) ∨
      ∃ n, r.need e = some n ∧ r.Delivers e n := by
  by_cases hz : fitted size = 0
  · refine .inl ⟨hasks.need.trans (if_pos hz), fun hne => absurd (hasks.answer.trans ?_) hne⟩
    rw [malloc_eq_refused hz]
  · have hbody : r.heap.malloc size = r.heap.mallocAligned (fitted size) := malloc_eq_aligned hz
    have hle := le_fitted hasks.lt hz
    refine .inr ⟨_, hasks.need.trans (if_neg hz), hbody ▸ hasks.answer, hle.2.2, fun hne => ?_⟩
    rw [← hbody] at hne ⊢
    obtain ⟨m, -, hstep⟩ := hasks.granted hne
    rw [hstep]
    exact ⟨size, hle.2.1, update_self .., rfl⟩

/-- A `realloc` that moves the contents looks for a block of the aligned size. -/
lemma Sound.delivers_realloc (h : r.Sound cs)
    (hused : r.heap.Used cs a d) (hlive : r.live (a + 40) = some m) :
    r.need (.realloc (a + 40) size) = none ∧
        (r.answer (.realloc (a + 40) size) ≠ 0 → r.answer (.realloc (a + 40) size) = a + 40) ∨
      ∃ n, r.need (.realloc (a + 40) size) = some n ∧ r.Delivers (.realloc (a + 40) size) n := by
  have hrun := h.tiles.running
  have hvalid := valid_of_live hlive
  have hanswer := answer_realloc size hrun hvalid
  have hstep := step_realloc size hrun hvalid
  have hnone := fun hstop => (h.need_realloc size hused hvalid).trans (if_pos hstop)
  by_cases hsize : wrap64 size = 0
  · refine .inl ⟨hnone (.inl hsize), fun hne => absurd (hanswer.trans ?_) hne⟩
    unfold realloc
    rw [if_neg (by omega), if_pos hsize]
  have hcases := h.tiles.realloc_eq hused hsize
  by_cases hz : alignSize (wrap64 size) = 0
  · rw [if_pos hz] at hcases
    exact .inl ⟨hnone (.inr (.inl hz)), fun hne => absurd (hanswer.trans (by rw [hcases])) hne⟩
  rw [if_neg hz] at hcases
  by_cases hfit : d.size ≥ alignSize (wrap64 size)
  · rw [if_pos hfit] at hcases
    exact .inl ⟨hnone (.inr (.inr (.inl hfit))), fun _ => hanswer.trans (by rw [hcases])⟩
  rw [if_neg hfit] at hcases
  split_ifs at hcases with habsorbs
  · exact .inl ⟨hnone (.inr (.inr (.inr habsorbs))), fun _ => hanswer.trans (by rw [hcases])⟩
  have hneed := (h.need_realloc size hused hvalid).trans
    (if_neg (not_or_intro hsize (not_or_intro hz (not_or_intro hfit habsorbs))))
  have halign := alignSize_cases (wrap64 size) (wrap64_lt size)
  have hfitted := fitted_alignSize hz
  have hbody : r.heap.malloc (alignSize (wrap64 size)) =
      r.heap.mallocAligned (alignSize (wrap64 size)) := by
    rw [malloc_eq_aligned (by rw [hfitted]; exact hz), hfitted]
  unfold move at hcases
  dsimp only at hcases
  rw [hbody] at hcases
  refine .inr ⟨_, hneed, ?_, by omega, ?_⟩
  · rw [hanswer, hcases]
    split <;> rfl
  · intro hne
    rw [if_neg hne] at hcases
    rw [hcases] at hstep
    rw [if_neg fun hboth => hne hboth.1, gain_mk_of_ne hne] at hstep
    refine ⟨wrap64 size, by omega, ?_, ?_⟩
    · rw [hstep]
      exact update_self _ _ _
    · rw [hstep, brk_free]

/-- A call looks for a block and delivers it, or resizes a block where it is, or returns `NULL`. -/
lemma Sound.delivers (h : r.Sound cs) (e : MallocEvent) :
    r.need e = none ∧ (r.answer e ≠ 0 → e.subject = some (r.answer e)) ∨
      ∃ n, r.need e = some n ∧ r.Delivers e n := by
  have hrun := h.tiles.running
  cases e with
  | malloc size => exact (asks_malloc size hrun).delivers
  | calloc count size =>
    by_cases hover : wrap64 count ≠ 0 ∧ wrap64 size > sizeMax / wrap64 count
    · have hnone : r.need (.calloc count size) = none := by
        unfold need
        rw [hrun]
        exact if_pos hover
      refine .inl ⟨hnone, fun hne => absurd ?_ hne⟩
      rw [answer_calloc count size hrun, Malloc.calloc, if_pos hover]
    · exact (asks_calloc hrun hover).delivers
  | realloc p size =>
    by_cases hvalid : r.valid p = true
    · obtain rfl | ⟨m, hm⟩ := valid_cases hvalid
      · exact (h.asks_realloc size).delivers
      · obtain ⟨a, d, rfl, hused, -⟩ := h.live p m hm
        obtain ⟨hnone, hsame⟩ | hsome := h.delivers_realloc hused hm
        · exact .inl ⟨hnone, fun hne => congrArg some (hsame hne).symm⟩
        · exact .inr hsome
    · have hnone : r.need (.realloc p size) = none := by
        unfold need
        rw [hrun]
        exact if_pos (Bool.eq_false_iff.2 hvalid)
      exact .inl ⟨hnone, fun hne => absurd (answer_realloc_of_not hvalid) hne⟩
  | free p =>
    have hnone : r.need (.free p) = none := by
      unfold need
      rw [hrun]
      rfl
    exact .inl ⟨hnone, fun hne => absurd (answer_free p) hne⟩
  | write p i byte =>
    have hnone : r.need (.write p i byte) = none := by
      unfold need
      rw [hrun]
      rfl
    exact .inl ⟨hnone, fun hne => absurd (answer_write p i byte) hne⟩

/-! ### The condition is exact -/

/-- A block that is delivered for too large a size does not lie in the heap. -/
lemma Sound.bounded_of_proper (h : r.Sound cs) (hproper : r.Proper e) : r.Bounded e := by
  intro n hneed hfit hsbrk
  by_contra hlarge
  obtain ⟨hnone, -⟩ | ⟨n', hneed', hdelivers⟩ := h.delivers e
  · exact absurd (hneed.symm.trans hnone) (some_ne_none n)
  · obtain rfl := some.inj (hneed.symm.trans hneed')
    obtain ⟨brk, hbreak, hok⟩ := sbrk_some hsbrk
    obtain ⟨hpointer, hmoved⟩ := mallocAligned_of_sbrk h.tiles.brk_lt hfit hok
    obtain ⟨k, hk, hlive, hbrk⟩ := hdelivers.live (by omega)
    have hinside := (hproper.apart.inside _ k hlive).2
    have hshort := newBreak_of_large h.tiles hlarge hdelivers.lt hk hbreak
    omega

/-! ### Runs -/

/-- A program that has made no call yet. -/
structure Start (r : MallocRun) : Prop where
  head : r.heap.head = 0
  tail : r.heap.tail = 0
  brk : r.heap.brk = r.heap.base
  positive : 0 < r.heap.base
  within : r.heap.base ≤ r.heap.limit
  bound : r.heap.limit < 2 ^ 63
  running : r.heap.exited = false
  live : ∀ p, r.live p = none

/-- A run is sound at the start. -/
lemma Start.sound (h : r.Start) : r.Sound [] where
  tiles :=
    { positive := h.positive
      within := h.brk.trans_le h.within
      bound := h.bound
      running := h.running
      strung := trivial
      reach := h.brk.symm
      head := h.head
      tail := h.tail }
  live := fun p n hp => absurd (hp.symm.trans (h.live p)) (some_ne_none n)

/-- A call that asks for a block and obtains none is refused. -/
lemma Asks.refuses (hasks : r.Asks e size) (h : r.Sound cs) (hnone : ¬r.TakesBlock e) :
    r.answer e = 0 ∧
      ∃ err count, r.step e =
        { r with heap := { r.heap with errno := err, requests := count } } := by
  have hrefused : fitted size ≠ 0 → ¬Obtains r.heap (fitted size) := fun hz hobtains =>
    hnone ⟨_, hasks.need.trans (if_neg hz), hobtains⟩
  obtain ⟨err, count, hfail⟩ | ⟨hz, b, -, hpointer, -⟩ := h.malloc_ending size
      fun hz _ hsbrk => absurd (.inr hsbrk) (hrefused hz)
  · have hzero : (r.heap.malloc size).1 = 0 := by rw [hfail]
    refine ⟨hasks.answer.trans hzero, err, count, ?_⟩
    rw [hasks.refused hzero, hfail]
  · obtain ⟨hobtains, -⟩ | ⟨-, hzero⟩ := h.mallocAligned_fst (fitted size)
    · exact absurd hobtains (hrefused hz)
    · rw [malloc_eq_aligned hz] at hpointer
      omega

section

variable (h : r.Start)
include h

/-- Before the first block is taken the only pointer to call on is `NULL`. -/
lemma Start.eq_zero (hvalid : r.valid p = true) : p = 0 := by
  obtain hp | ⟨n, hn⟩ := valid_cases hvalid
  · exact hp
  · exact absurd (hn.symm.trans (h.live p)) (some_ne_none n)

/-- A call that takes no block before the first one is taken returns none and leaves the heap as it
is. -/
lemma Start.idle (hnone : ¬r.TakesBlock e) :
    r.answer e = 0 ∧
      ∃ err count, r.step e =
        { r with heap := { r.heap with errno := err, requests := count } } := by
  have hrun := h.running
  cases e with
  | malloc size => exact (asks_malloc size hrun).refuses h.sound hnone
  | calloc count size =>
    by_cases hover : wrap64 count ≠ 0 ∧ wrap64 size > sizeMax / wrap64 count
    · have hcalloc : r.heap.calloc (wrap64 count) (wrap64 size) =
          (0, { r.heap with errno := libcEnomem }) := if_pos hover
      have hanswer := answer_calloc count size hrun
      have hstep : r.step (.calloc count size) =
          r.gain (r.heap.calloc (wrap64 count) (wrap64 size)) (wrap64 size * wrap64 count) :=
        step_eq_act hrun
      rw [hcalloc] at hanswer hstep
      exact ⟨hanswer, _, _, hstep⟩
    · exact (asks_calloc hrun hover).refuses h.sound hnone
  | realloc p size =>
    by_cases hvalid : r.valid p = true
    · obtain rfl := h.eq_zero hvalid
      exact (h.sound.asks_realloc size).refuses h.sound hnone
    · exact ⟨answer_realloc_of_not hvalid, _, _, (step_eq_act hrun).trans (if_neg hvalid)⟩
  | free p =>
    have hsame : r.act (.free p) = r := by
      rw [act]
      split
      · next hvalid =>
        obtain rfl := h.eq_zero hvalid
        rw [Malloc.free, if_pos rfl, drop, h.sound.update_zero]
      · rfl
    exact ⟨answer_free p, _, _, (step_eq_act hrun).trans hsame⟩
  | write p i byte =>
    have hsame : r.act (.write p i byte) = r := by rw [act, h.live p]
    exact ⟨answer_write p i byte, _, _, (step_eq_act hrun).trans hsame⟩

/-- So the next call is the first again. -/
lemma Start.step (hnone : ¬r.TakesBlock e) :
    (r.step e).Start ∧ (r.step e).heap.base = r.heap.base := by
  obtain ⟨-, err, count, hstep⟩ := h.idle hnone
  rw [hstep]
  exact ⟨⟨h.head, h.tail, h.brk, h.positive, h.within, h.bound, h.running, h.live⟩, rfl⟩

/-- The first block that is taken is at the break, behind a header of 40 bytes. -/
lemma Start.answer_first (htakes : r.TakesBlock e) : r.answer e = r.heap.base + 40 := by
  obtain ⟨n, hneed, hobtains⟩ := htakes
  obtain ⟨hnone, -⟩ | ⟨n', hneed', hdelivers⟩ := h.sound.delivers e
  · exact absurd (hneed.symm.trans hnone) (some_ne_none n)
  · obtain rfl := some.inj (hneed.symm.trans hneed')
    have hfit : r.heap.findFit n r.heap.brk r.heap.head = 0 := by
      rw [h.head]
      cases r.heap.brk <;> rfl
    have hchosen : r.heap.chosen n = r.heap.brk := if_neg (not_not.2 hfit)
    obtain ⟨-, hpointer⟩ | ⟨hnot, -⟩ := h.sound.mallocAligned_fst n
    · rw [hdelivers.answer, hpointer, hchosen, h.brk]
    · exact absurd hobtains hnot

/-- Where the break is a multiple of 16 the calls that return blocks as they should, aligned ones,
are those that take none. -/
lemma Start.aligned_iff (hbase : r.heap.base % 16 = 0) :
    r.Proper e ∧ r.Aligned e ↔ ¬r.TakesBlock e := by
  constructor
  · rintro ⟨-, haligned⟩ htakes
    have hanswer := h.answer_first htakes
    have hmod := haligned (by omega)
    omega
  · intro hnone
    obtain ⟨hzero, err, count, hstep⟩ := h.idle hnone
    exact ⟨(h.sound.of_refused hzero hstep).2, fun hne => absurd hzero hne⟩

end

/-- In the runs of a program every call is proper just if the break is never moved for too large a
size. Where the break of the program is a multiple of 16, as the start of a page is, all blocks are
aligned besides just if there are none: no call ever takes a block. -/
theorem malloc_proper_iff (h : r.Start) (es : List MallocEvent) :
    (AllSteps MallocRun.step Proper r es ↔ AllSteps MallocRun.step Bounded r es) ∧
      (r.heap.base % 16 = 0 →
        (AllSteps MallocRun.step (fun r e => r.Proper e ∧ r.Aligned e) r es ↔
          AllSteps MallocRun.step (fun r e => ¬r.TakesBlock e) r es)) := by
  constructor
  · apply allSteps_iff_allSteps (fun r => ∃ cs, r.Sound cs) _ _ ⟨[], h.sound⟩ es
    · rintro r e ⟨cs, hr⟩ hbounded
      obtain ⟨cs', hsound, -⟩ := hr.step hbounded
      exact ⟨cs', hsound⟩
    · rintro r e ⟨cs, hr⟩
      refine ⟨hr.bounded_of_proper, fun hbounded => ?_⟩
      obtain ⟨-, -, hp⟩ := hr.step hbounded
      exact hp
  · intro hbase
    apply allSteps_iff_allSteps (fun r => r.Start ∧ r.heap.base % 16 = 0) _ _ ⟨h, hbase⟩ es
    · rintro r e ⟨hr, hmod⟩ hnone
      obtain ⟨hstart, hsame⟩ := hr.step hnone
      exact ⟨hstart, hsame ▸ hmod⟩
    · rintro r e ⟨hr, hmod⟩
      exact hr.aligned_iff hmod

/-- A program with its break at an address and a megabyte to move it in. -/
def startAt (base : ℕ) : MallocRun where
  heap :=
    { memory := fun _ => 0
      head := 0
      tail := 0
      base := base
      brk := base
      limit := base + 2 ^ 20
      refusals := fun _ => none
      requests := 0
      errno := 0
      exited := false }
  live := fun _ => none

/-- A heap without blocks is a start. -/
lemma startAt_start {base : ℕ} (hpositive : 0 < base) (hbound : base < 2 ^ 62) :
    (startAt base).Start where
  head := rfl
  tail := rfl
  brk := rfl
  positive := hpositive
  within := Nat.le_add_right _ _
  bound := by
    show base + 2 ^ 20 < 2 ^ 63
    omega
  running := rfl
  live := fun _ => rfl

/-- At the start of a page a block of 100 bytes is delivered as it should be, alignment apart, and a
request for more than there is takes none. -/
theorem malloc_proper_first :
    (startAt 0x400000).Start ∧ (startAt 0x400000).TakesBlock (.malloc 100) ∧
      (startAt 0x400000).Proper (.malloc 100) ∧
      (startAt 0x400000).Proper (.malloc (2 ^ 21)) ∧
      (startAt 0x400000).Aligned (.malloc (2 ^ 21)) := by
  have hstart : (startAt 0x400000).Start := startAt_start (by norm_num) (by norm_num)
  have hneed : (startAt 0x400000).need (.malloc 100) = some 112 := by decide +kernel
  have hlarge : (startAt 0x400000).need (.malloc (2 ^ 21)) = some (2 ^ 21) := by decide +kernel
  have hbounded : (startAt 0x400000).Bounded (.malloc 100) := by
    intro n hn _ _
    obtain rfl := some.inj (hneed.symm.trans hn)
    norm_num
  have hnone : ¬(startAt 0x400000).TakesBlock (.malloc (2 ^ 21)) := by
    rintro ⟨n, hn, hobtains⟩
    obtain rfl := some.inj (hlarge.symm.trans hn)
    exact hobtains.elim (fun hfit => hfit (by decide +kernel)) fun hsbrk =>
      hsbrk (by decide +kernel)
  refine ⟨hstart, ⟨_, hneed, .inr (by decide +kernel)⟩,
    ((malloc_proper_iff hstart [.malloc 100]).1.2 ⟨hbounded, trivial⟩).1, ?_⟩
  exact (((malloc_proper_iff hstart [.malloc (2 ^ 21)]).2 (by decide)).2 ⟨hnone, trivial⟩).1

/-- At the start of a page the first block is not aligned, and a size that wraps around is granted
without moving the break. -/
theorem malloc_misaligned_first :
    (startAt 0x400000).Start ∧
      (startAt 0x400000).answer (.malloc 100) = 0x400028 ∧
      ¬(startAt 0x400000).Aligned (.malloc 100) ∧
      (startAt 0x400000).answer (.malloc (2 ^ 64 - 50)) = 0x400028 ∧
      ¬(startAt 0x400000).Proper (.malloc (2 ^ 64 - 50)) := by
  have hstart : (startAt 0x400000).Start := startAt_start (by norm_num) (by norm_num)
  have hanswer : (startAt 0x400000).answer (.malloc 100) = 0x400028 := by decide +kernel
  have hlarge : (startAt 0x400000).answer (.malloc (2 ^ 64 - 50)) = 0x400028 := by decide +kernel
  have hneed : (startAt 0x400000).need (.malloc (2 ^ 64 - 50)) = some (2 ^ 64 - 48) := by
    decide +kernel
  refine ⟨hstart, hanswer, ?_, hlarge, ?_⟩
  · intro haligned
    have hmod := haligned (by rw [hanswer]; norm_num)
    rw [hanswer] at hmod
    norm_num at hmod
  · intro hproper
    have hbound := hstart.sound.bounded_of_proper hproper _ hneed (by decide +kernel)
      (by decide +kernel)
    norm_num at hbound

end MallocRun

end Northstar
