import Northstar.Mm.Pmm

/-! # What the frame allocator guarantees

`Pmm.Ok` is the allocator's invariant: reserved frames are allocated, the tail of the bitmap is
set, and `freeFrames` counts the clear bits. `Pmm.Within P` says that `P` holds of every frame
that is not permanently reserved; reservations only strengthen `P`, and since a frame with a clear
allocation bit is never reserved, `P` holds of every frame the allocator can hand out.

The main result follows the runs of the allocator from `nsPmmInit`, with the live allocations and
the reserved ranges kept beside the state. -/

namespace Northstar

open List

/-- Frame `f` shares a byte with the range `[base, base + length)`. -/
def Overlaps (base length f : ℕ) : Prop :=
  ∃ x, base ≤ x ∧ x < base + length ∧ x / nsPageSize = f

/-- Frame `f` lies wholly inside the entry. -/
def E820Entry.Covers (entry : E820Entry) (f : ℕ) : Prop :=
  entry.base ≤ f * nsPageSize ∧ (f + 1) * nsPageSize ≤ entry.base + entry.length

/-- The allocator's invariant. -/
structure Pmm.Ok (pmm : Pmm) : Prop where
  bytes : pmm.bytesPerBitmap = (pmm.frameCount + 7) / 8
  limit : pmm.managedLimit = pmm.frameCount * nsPageSize
  small : pmm.managedLimit < 2 ^ 64
  tail : ∀ f, pmm.frameCount ≤ f → f < 8 * pmm.bytesPerBitmap → pmm.allocatedBitmap.get f = true
  reserved : ∀ f < pmm.frameCount, pmm.reservedBitmap.get f = true →
    pmm.allocatedBitmap.get f = true
  free : pmm.freeFrames = pmm.allocatedBitmap.clearBits pmm.frameCount

/-- `P` holds of every tracked frame that is not permanently reserved. -/
def Pmm.Within (P : ℕ → Prop) (pmm : Pmm) : Prop :=
  ∀ f < pmm.frameCount, pmm.reservedBitmap.get f = false → P f

/-- Both bitmaps are clear at exactly the tracked frames with `P`, and set in their last byte behind
these. -/
structure Pmm.Marks (P : ℕ → Prop) (pmm : Pmm) : Prop where
  reserved : ∀ f < pmm.frameCount, pmm.reservedBitmap.get f = false ↔ P f
  allocated : ∀ f < pmm.frameCount, pmm.allocatedBitmap.get f = false ↔ P f
  tail : ∀ f, pmm.frameCount ≤ f → pmm.reservedBitmap.get f = decide (f < 8 * pmm.bytesPerBitmap) ∧
    pmm.allocatedBitmap.get f = decide (f < 8 * pmm.bytesPerBitmap)

/-- The fields fixed when the allocator is built. -/
structure Pmm.SameShape (pmm pmm' : Pmm) : Prop where
  bytes : pmm'.bytesPerBitmap = pmm.bytesPerBitmap
  frames : pmm'.frameCount = pmm.frameCount
  limit : pmm'.managedLimit = pmm.managedLimit
  initialized : pmm'.initialized = pmm.initialized

lemma Pmm.SameShape.refl (pmm : Pmm) : pmm.SameShape pmm := ⟨rfl, rfl, rfl, rfl⟩

lemma Pmm.SameShape.trans {p q r : Pmm} (h : p.SameShape q) (h' : q.SameShape r) :
    p.SameShape r :=
  ⟨h'.bytes.trans h.bytes, h'.frames.trans h.frames, h'.limit.trans h.limit,
    h'.initialized.trans h.initialized⟩

/-! ### Page arithmetic -/

variable {v base length limit first count alignment c maxPhys phys : ℕ} {pmm pmm' : Pmm}
  {boot : BootInfo} {entries : ℕ → UInt8}

/-- Rounding down to a page. -/
lemma alignDownPage_eq (h : v < 2 ^ 64) : alignDownPage v = v / 4096 * 4096 := by
  have hmask := and_not64_mask v 12
  rw [Nat.mod_eq_of_lt h] at hmask
  exact hmask

lemma alignUpPageSaturating_eq (h : v ≤ 2 ^ 64 - 4096) :
    alignUpPageSaturating v = (v + 4095) / 4096 * 4096 := by
  have hmask := and_not64_mask (v + 4095) 12
  rw [Nat.mod_eq_of_lt (by omega)] at hmask
  unfold alignUpPageSaturating
  rw [if_neg (by unfold uint64Max nsPageSize; omega)]
  exact hmask

/-- Near the end of memory, rounding up gives the last page. -/
lemma alignUpPageSaturating_eq_of_lt (h : 2 ^ 64 - 4096 < v) :
    alignUpPageSaturating v = 2 ^ 64 - 4096 := by
  unfold alignUpPageSaturating
  rw [if_pos (by unfold uint64Max nsPageSize; omega)]
  decide

/-- Rounding up gives a multiple of the page size, and one that is a 64-bit word. -/
lemma alignUpPageSaturating_spec (v : ℕ) :
    alignUpPageSaturating v % 4096 = 0 ∧ alignUpPageSaturating v < 2 ^ 64 := by
  rcases Nat.lt_or_ge (2 ^ 64 - 4096) v with h | h
  · rw [alignUpPageSaturating_eq_of_lt h]
    omega
  · rw [alignUpPageSaturating_eq h]
    omega

/-- The frames that a range overlaps. -/
lemma overlaps_iff {f : ℕ} (h : 0 < length) :
    Overlaps base length f ↔ base / 4096 ≤ f ∧ f * 4096 < base + length := by
  unfold Overlaps nsPageSize
  constructor
  · rintro ⟨x, h1, h2, rfl⟩
    omega
  · rintro ⟨h1, h2⟩
    refine ⟨max base (f * 4096), le_max_left _ _, by omega, ?_⟩
    rcases Nat.le_total base (f * 4096) with hle | hle
    · rw [max_eq_right hle]
      omega
    · rw [max_eq_left hle]
      omega

/-- An empty range overlaps no frame. -/
lemma not_overlaps_zero (base f : ℕ) : ¬ Overlaps base 0 f := by
  rintro ⟨x, h1, h2, -⟩
  omega

/-! ### Reserving frames -/

/-- Reserving a frame keeps the shape. -/
lemma markFramePermanent_shape (pmm : Pmm) (f : ℕ) : pmm.SameShape (markFramePermanent pmm f) := by
  unfold markFramePermanent
  split_ifs <;> exact ⟨rfl, rfl, rfl, rfl⟩

/-- Reserving a frame sets its bit in the reserved bitmap. -/
lemma markFramePermanent_reserved (pmm : Pmm) (f g : ℕ) :
    (markFramePermanent pmm f).reservedBitmap.get g =
      (pmm.reservedBitmap.get g || decide (f = g ∧ f < pmm.frameCount)) := by
  unfold markFramePermanent
  split_ifs with h1 h2
  · simp [Nat.not_lt.mpr h1]
  · simp [Bitmap.get_set, Nat.lt_of_not_le h1]
  · simp [Bitmap.get_set, Nat.lt_of_not_le h1]

/-- Reserving a frame sets its bit in the allocated bitmap. -/
lemma markFramePermanent_allocated (pmm : Pmm) (f g : ℕ) :
    (markFramePermanent pmm f).allocatedBitmap.get g =
      (pmm.allocatedBitmap.get g || decide (f = g ∧ f < pmm.frameCount)) := by
  unfold markFramePermanent
  split_ifs with h1 h2
  · simp [Nat.not_lt.mpr h1]
  · by_cases hfg : f = g
    · subst hfg
      simp [h2]
    · simp [hfg]
  · simp [Bitmap.get_set, Nat.lt_of_not_le h1]

/-- Reserving a frame keeps the count of free frames right. -/
lemma markFramePermanent_free (pmm : Pmm) {f : ℕ}
    (h : pmm.freeFrames = pmm.allocatedBitmap.clearBits pmm.frameCount) :
    (markFramePermanent pmm f).freeFrames =
      (markFramePermanent pmm f).allocatedBitmap.clearBits pmm.frameCount := by
  unfold markFramePermanent
  split_ifs with h1 h2
  · exact h
  · exact h
  · have hset := Bitmap.clearBits_set (b := pmm.allocatedBitmap) (Nat.lt_of_not_le h1)
      (by simpa using h2)
    simp only
    omega

/-- The invariant in terms of the fields that calls change. -/
lemma Pmm.Ok.of_shape (h : pmm.Ok) (hs : pmm.SameShape pmm')
    (htail : ∀ f, pmm.frameCount ≤ f → f < 8 * pmm.bytesPerBitmap →
      pmm'.allocatedBitmap.get f = true)
    (hreserved : ∀ f < pmm.frameCount, pmm'.reservedBitmap.get f = true →
      pmm'.allocatedBitmap.get f = true)
    (hfree : pmm'.freeFrames = pmm'.allocatedBitmap.clearBits pmm.frameCount) : pmm'.Ok := by
  refine ⟨by rw [hs.bytes, hs.frames, h.bytes], by rw [hs.limit, hs.frames, h.limit],
    by rw [hs.limit]; exact h.small, ?_, ?_, ?_⟩
  · rw [hs.frames, hs.bytes]
    exact htail
  · rw [hs.frames]
    exact hreserved
  · rw [hs.frames]
    exact hfree

/-- Reserving a frame keeps the manager in order. -/
lemma Pmm.Ok.markFramePermanent (h : pmm.Ok) (f : ℕ) : (markFramePermanent pmm f).Ok := by
  refine h.of_shape (markFramePermanent_shape pmm f) ?_ ?_ (markFramePermanent_free pmm h.free)
  · intro g h1 h2
    simp [markFramePermanent_allocated, h.tail g h1 h2]
  · intro g hg
    rw [markFramePermanent_allocated, markFramePermanent_reserved]
    simp only [Bool.or_eq_true]
    exact Or.imp_left (h.reserved g hg)

/-- What a fold of `mark_frame_permanent` over a list of frames does. -/
lemma Pmm.Ok.markFrames (h : pmm.Ok) (L : List ℕ) : (L.foldl Northstar.markFramePermanent pmm).Ok ∧
    pmm.SameShape (L.foldl Northstar.markFramePermanent pmm) ∧
    ∀ g,
      (L.foldl Northstar.markFramePermanent pmm).reservedBitmap.get g =
        (pmm.reservedBitmap.get g || decide (g ∈ L ∧ g < pmm.frameCount)) ∧
      (L.foldl Northstar.markFramePermanent pmm).allocatedBitmap.get g =
        (pmm.allocatedBitmap.get g || decide (g ∈ L ∧ g < pmm.frameCount)) := by
  induction L generalizing pmm with
  | nil => exact ⟨h, .refl pmm, fun g => by simp⟩
  | cons f L ih =>
    have hs := markFramePermanent_shape pmm f
    obtain ⟨hok, hshape, hbits⟩ := ih (h.markFramePermanent f)
    refine ⟨hok, hs.trans hshape, fun g => ?_⟩
    have hor : ∀ b : Bool, ((b || decide (f = g ∧ f < pmm.frameCount)) ||
        decide (g ∈ L ∧ g < pmm.frameCount)) = (b || decide (g ∈ f :: L ∧ g < pmm.frameCount)) := by
      intro b
      by_cases hfg : f = g
      · subst hfg
        by_cases hf : f < pmm.frameCount <;> simp [hf]
      · simp [hfg, Ne.symm hfg]
    obtain ⟨hr, ha⟩ := hbits g
    rw [markFramePermanent_reserved, hs.frames, hor] at hr
    rw [markFramePermanent_allocated, hs.frames, hor] at ha
    exact ⟨hr, ha⟩

/-- The end of a range, cut at the managed limit as `reserve_range_unlocked` and the first pass of
`ns_pmm_init` cut it, bounds the same tracked addresses as the range itself. -/
lemma cutEnd_spec (hb : base < 2 ^ 64) (hl : length < 2 ^ 64) (hlim : limit < 2 ^ 64) :
    (if (addOverflowU64 base length).2 ∨ (addOverflowU64 base length).1 > limit then limit
      else (addOverflowU64 base length).1) = min (base + length) limit := by
  rcases Nat.lt_or_ge (base + length) (2 ^ 64) with h | h
  · rw [addOverflowU64_of_lt h]
    simp only [Bool.false_eq_true, false_or]
    split_ifs <;> omega
  · rw [addOverflowU64_of_le hb hl h]
    simp only [true_or, if_true]
    omega

/-- `reserve_range_unlocked` reserves exactly the tracked frames that share a byte with the
range. -/
lemma Pmm.Ok.reserveRange (h : pmm.Ok) (base : ℕ) (hl : length < 2 ^ 64) :
    (reserveRangeUnlocked pmm base length).Ok ∧
    pmm.SameShape (reserveRangeUnlocked pmm base length) ∧
    ∀ g,
      ((reserveRangeUnlocked pmm base length).reservedBitmap.get g = true ↔
        pmm.reservedBitmap.get g = true ∨ Overlaps base length g ∧ g < pmm.frameCount) ∧
      ((reserveRangeUnlocked pmm base length).allocatedBitmap.get g = true ↔
        pmm.allocatedBitmap.get g = true ∨ Overlaps base length g ∧ g < pmm.frameCount) := by
  have hlimit : pmm.managedLimit = pmm.frameCount * 4096 := h.limit
  have hsmall := h.small
  unfold reserveRangeUnlocked
  split_ifs with hskip
  · refine ⟨h, .refl pmm, fun g => ?_⟩
    have hno : ¬ (Overlaps base length g ∧ g < pmm.frameCount) := by
      rintro ⟨hover, hg⟩
      rcases hskip with rfl | hbase
      · exact not_overlaps_zero base g hover
      · obtain ⟨x, h1, h2, rfl⟩ := hover
        unfold nsPageSize at hg
        omega
    simp [hno]
  · obtain ⟨hlen, hbase⟩ : 0 < length ∧ base < pmm.managedLimit := by omega
    dsimp only
    rw [cutEnd_spec (by omega) hl hsmall, alignDownPage_eq (by omega),
      alignUpPageSaturating_eq (by omega)]
    obtain ⟨hok, hshape, hbits⟩ := h.markFrames (range' (base / 4096 * 4096 / nsPageSize)
      (min ((min (base + length) pmm.managedLimit + 4095) / 4096 * 4096 / nsPageSize)
        pmm.frameCount - base / 4096 * 4096 / nsPageSize))
    refine ⟨hok, hshape, fun g => ?_⟩
    have hmem : g < pmm.frameCount → (g ∈ range' (base / 4096 * 4096 / nsPageSize)
        (min ((min (base + length) pmm.managedLimit + 4095) / 4096 * 4096 / nsPageSize)
          pmm.frameCount - base / 4096 * 4096 / nsPageSize) ↔ Overlaps base length g) := by
      intro hg
      rw [overlaps_iff hlen, mem_range'_1]
      unfold nsPageSize
      constructor <;> intro hgr <;> omega
    rw [(hbits g).1, (hbits g).2, Bool.or_eq_true, Bool.or_eq_true, decide_eq_true_iff,
      and_congr_left hmem]
    exact ⟨Iff.rfl, Iff.rfl⟩

/-- Reserving a range strengthens what is known of the frames that are not reserved. -/
lemma Pmm.Ok.reserveRange_within (h : pmm.Ok) {P : ℕ → Prop} (hP : pmm.Within P)
    (hl : length < 2 ^ 64) :
    (reserveRangeUnlocked pmm base length).Within fun f => P f ∧ ¬ Overlaps base length f := by
  obtain ⟨-, hshape, hbits⟩ := h.reserveRange base hl
  intro f hf hclear
  rw [hshape.frames] at hf
  have hnot := mt (hbits f).1.mpr (by simp [hclear])
  rw [not_or] at hnot
  exact ⟨hP f hf (by simpa using hnot.1), fun hover => hnot.2 ⟨hover, hf⟩⟩

lemma Pmm.Marks.congr {P Q : ℕ → Prop} (h : pmm.Marks P) (hPQ : ∀ f < pmm.frameCount, P f ↔ Q f) :
    pmm.Marks Q :=
  ⟨fun f hf => (h.reserved f hf).trans (hPQ f hf), fun f hf => (h.allocated f hf).trans (hPQ f hf),
    h.tail⟩

/-- Reserving a range takes its frames out of the marked ones. -/
lemma Pmm.Ok.reserveRange_marks (h : pmm.Ok) {P : ℕ → Prop} (hP : pmm.Marks P)
    (hl : length < 2 ^ 64) :
    (reserveRangeUnlocked pmm base length).Marks fun f => P f ∧ ¬ Overlaps base length f := by
  obtain ⟨-, hshape, hbits⟩ := h.reserveRange base hl
  have hclear : ∀ {b b' : Bool} {f : ℕ}, f < pmm.frameCount →
      (b' = true ↔ b = true ∨ Overlaps base length f ∧ f < pmm.frameCount) → (b = false ↔ P f) →
      (b' = false ↔ P f ∧ ¬ Overlaps base length f) := by
    intro b b' f hf hb' hb
    rw [← hb, ← Bool.not_eq_true, ← Bool.not_eq_true, hb', not_or, and_iff_left hf]
  have htail : ∀ {b b' : Bool} {f : ℕ}, pmm.frameCount ≤ f →
      (b' = true ↔ b = true ∨ Overlaps base length f ∧ f < pmm.frameCount) → b' = b := by
    intro b b' f hf hb'
    rw [Bool.eq_iff_iff, hb']
    exact or_iff_left fun hin => Nat.not_lt.mpr hf hin.2
  refine ⟨fun f hf => ?_, fun f hf => ?_, fun f hf => ?_⟩
  · rw [hshape.frames] at hf
    exact hclear hf (hbits f).1 (hP.reserved f hf)
  · rw [hshape.frames] at hf
    exact hclear hf (hbits f).2 (hP.allocated f hf)
  · rw [hshape.frames] at hf
    rw [htail hf (hbits f).1, htail hf (hbits f).2, hshape.bytes]
    exact hP.tail f hf

/-- The same for a list of ranges. -/
lemma Pmm.Ok.reserveRanges (h : pmm.Ok) {P : ℕ → Prop} (hP : pmm.Marks P)
    {L : List (ℕ × ℕ)} (hl : ∀ r ∈ L, r.2 < 2 ^ 64) :
    (L.foldl (fun p r => reserveRangeUnlocked p r.1 r.2) pmm).Ok ∧
    pmm.SameShape (L.foldl (fun p r => reserveRangeUnlocked p r.1 r.2) pmm) ∧
    (L.foldl (fun p r => reserveRangeUnlocked p r.1 r.2) pmm).Marks
      fun f => P f ∧ ∀ r ∈ L, ¬ Overlaps r.1 r.2 f := by
  induction L generalizing pmm P with
  | nil => exact ⟨h, .refl pmm, hP.congr fun f _ => by simp⟩
  | cons r L ih =>
    have hr := hl r (by simp)
    obtain ⟨hok, hshape, -⟩ := h.reserveRange r.1 hr
    obtain ⟨hok', hshape', hin⟩ := ih hok (h.reserveRange_marks hP hr)
      fun r' hr' => hl r' (by simp [hr'])
    refine ⟨hok', hshape.trans hshape', hin.congr fun f _ => ?_⟩
    rw [forall_mem_cons, and_assoc]

/-! ### Building the allocator -/

/-- Freeing a frame at boot keeps the shape. -/
lemma markFrameFreeInitial_shape (pmm : Pmm) (f : ℕ) :
    pmm.SameShape (markFrameFreeInitial pmm f) := by
  unfold markFrameFreeInitial
  split_ifs <;> exact ⟨rfl, rfl, rfl, rfl⟩

/-- Freeing a frame at boot keeps the manager in order. -/
lemma Pmm.Ok.markFrameFreeInitial (h : pmm.Ok) (f : ℕ) : (markFrameFreeInitial pmm f).Ok := by
  unfold Northstar.markFrameFreeInitial
  split_ifs with hskip
  · exact h
  · obtain ⟨hf, hr⟩ : f < pmm.frameCount ∧ pmm.reservedBitmap.get f = true := by
      simpa using hskip
    have hcount := Bitmap.clearBits_clear hf (h.reserved f hf hr)
    refine ⟨h.bytes, h.limit, h.small, fun g h1 h2 => ?_, fun g hg => ?_, ?_⟩
    · have hg : pmm.frameCount ≤ g := h1
      rw [Bitmap.get_clear_of_ne _ (by omega)]
      exact h.tail g h1 h2
    · rw [Bitmap.get_clear, Bitmap.get_clear]
      simp only [Bool.and_eq_true]
      exact And.imp_left (h.reserved g hg)
    · simp only [hcount, h.free]

/-- `mark_frame_free_initial` adds one frame to the marked ones. -/
lemma Pmm.Marks.markFrameFreeInitial {P : ℕ → Prop} (hP : pmm.Marks P) (f : ℕ) :
    (markFrameFreeInitial pmm f).Marks fun g => P g ∨ g = f := by
  unfold Northstar.markFrameFreeInitial
  split_ifs with hskip
  · refine hP.congr fun g hg => (or_iff_left_of_imp ?_).symm
    rintro rfl
    exact (hP.reserved g hg).mp (hskip.resolve_left (by omega))
  · obtain ⟨hf, -⟩ := not_or.mp hskip
    have hclear : ∀ {b : Bitmap} {g : ℕ}, (b.get g = false ↔ P g) →
        ((b.clear f).get g = false ↔ P g ∨ g = f) := by
      intro b g hb
      rw [Bitmap.get_clear, Bool.and_eq_false_iff, hb, Bool.not_eq_false', decide_eq_true_iff,
        eq_comm]
    refine ⟨fun g hg => hclear (hP.reserved g hg), fun g hg => hclear (hP.allocated g hg),
      fun g hg => ?_⟩
    rw [Bitmap.get_clear_of_ne _ (by dsimp only at hg; omega),
      Bitmap.get_clear_of_ne _ (by dsimp only at hg; omega)]
    exact hP.tail g hg

/-- A fold of `mark_frame_free_initial` exposes the frames it visits. -/
lemma Pmm.Ok.exposeFrames (h : pmm.Ok) {P : ℕ → Prop} (hP : pmm.Marks P) (L : List ℕ) :
    (L.foldl Northstar.markFrameFreeInitial pmm).Ok ∧
    pmm.SameShape (L.foldl Northstar.markFrameFreeInitial pmm) ∧
    (L.foldl Northstar.markFrameFreeInitial pmm).Marks fun f => P f ∨ f ∈ L := by
  induction L generalizing pmm P with
  | nil => exact ⟨h, .refl pmm, hP.congr fun f _ => by simp⟩
  | cons f L ih =>
    obtain ⟨hok, hshape, hin⟩ := ih (h.markFrameFreeInitial f) (hP.markFrameFreeInitial f)
    refine ⟨hok, (markFrameFreeInitial_shape pmm f).trans hshape, hin.congr fun g _ => ?_⟩
    rw [mem_cons, or_assoc]

/-- The entry is usable memory and holds the frame. -/
def E820Entry.Exposes (entry : E820Entry) (f : ℕ) : Prop :=
  entryEnabled entry = true ∧ entry.type = e820Usable ∧ entry.Covers f

/-- The first pass exposes the frames that lie wholly inside an enabled usable entry. -/
lemma Pmm.Ok.exposeEntry (h : pmm.Ok) {P : ℕ → Prop} (hP : pmm.Marks P)
    {entry : E820Entry} (hb : entry.base < 2 ^ 64) (hl : entry.length < 2 ^ 64) :
    (exposeEntry pmm.managedLimit pmm entry).Ok ∧
    pmm.SameShape (exposeEntry pmm.managedLimit pmm entry) ∧
    (exposeEntry pmm.managedLimit pmm entry).Marks fun f => P f ∨ entry.Exposes f := by
  have hlimit : pmm.managedLimit = pmm.frameCount * 4096 := h.limit
  have hsmall := h.small
  unfold Northstar.exposeEntry E820Entry.Exposes E820Entry.Covers nsPageSize
  split_ifs with hskip
  · refine ⟨h, .refl pmm, hP.congr fun f _ => (or_iff_left ?_).symm⟩
    rintro ⟨hen, hty, hcov⟩
    simp only [hen, hty, Bool.not_true, ne_eq, not_true_eq_false, decide_false, Bool.or_self,
      Bool.false_or, decide_eq_true_eq] at hskip
    omega
  · simp only [Bool.or_eq_true, Bool.not_eq_true', decide_eq_true_eq, not_or,
      Bool.not_eq_false, not_not] at hskip
    obtain ⟨⟨hen, hty⟩, -⟩ := hskip
    obtain ⟨hok, hshape, hin⟩ := h.exposeFrames hP (range' _ _)
    refine ⟨hok, hshape, hin.congr fun f hf => or_congr_right ?_⟩
    rw [hshape.frames] at hf
    rw [cutEnd_spec hb hl hsmall, alignDownPage_eq (by omega), mem_range'_1]
    simp only [hen, hty, true_and]
    rcases Nat.lt_or_ge (2 ^ 64 - 4096) entry.base with hbig | hbig
    · rw [alignUpPageSaturating_eq_of_lt hbig]
      omega
    · rw [alignUpPageSaturating_eq hbig]
      omega

/-- The first pass as a whole. -/
lemma Pmm.Ok.exposeEntries (h : pmm.Ok) {P : ℕ → Prop} (hP : pmm.Marks P)
    (hlimit : pmm.managedLimit = limit) {L : List E820Entry}
    (hb : ∀ e ∈ L, e.base < 2 ^ 64 ∧ e.length < 2 ^ 64) :
    (L.foldl (Northstar.exposeEntry limit) pmm).Ok ∧
    pmm.SameShape (L.foldl (Northstar.exposeEntry limit) pmm) ∧
    (L.foldl (Northstar.exposeEntry limit) pmm).Marks fun f => P f ∨ ∃ e ∈ L, e.Exposes f := by
  induction L generalizing pmm P with
  | nil => exact ⟨h, .refl pmm, hP.congr fun f _ => by simp⟩
  | cons e L ih =>
    obtain ⟨hbe, hbL⟩ := forall_mem_cons.mp hb
    obtain ⟨hok, hshape, hin⟩ := h.exposeEntry hP hbe.1 hbe.2
    rw [hlimit] at hok hshape hin
    obtain ⟨hok', hshape', hin'⟩ := ih hok hin (hshape.limit.trans hlimit) hbL
    refine ⟨hok', hshape.trans hshape', hin'.congr fun f _ => ?_⟩
    simp only [mem_cons, exists_eq_or_imp, or_assoc]

/-- The second pass reserves the enabled entries that are not usable, one after the other. -/
lemma foldl_concealEntry (L : List E820Entry) (pmm : Pmm) :
    L.foldl concealEntry pmm =
      ((L.filter fun e => entryEnabled e && decide (e.type ≠ e820Usable)).map
        fun e => (e.base, e.length)).foldl (fun p r => reserveRangeUnlocked p r.1 r.2) pmm := by
  induction L generalizing pmm with
  | nil => rfl
  | cons e L ih =>
    rw [foldl_cons, ih, filter_cons]
    unfold concealEntry
    by_cases hen : entryEnabled e = true <;> by_cases hty : e.type = e820Usable <;>
      simp [hen, hty]

/-- The manager that `ns_pmm_init` starts from is in order. -/
lemma pmmBlank_ok (hmod : limit % 4096 = 0) (hlt : limit < 2 ^ 64) : (pmmBlank limit).Ok := by
  refine ⟨rfl, ?_, hlt, ?_, ?_, ?_⟩
  · unfold pmmBlank nsPageSize
    simp only
    omega
  · intro f _ hf
    unfold pmmBlank at hf ⊢
    simpa using hf
  · intro f hf _
    unfold pmmBlank nsPageSize at hf ⊢
    simp only at hf
    simp only [Bitmap.get_ones, decide_eq_true_eq]
    omega
  · refine (Bitmap.clearBits_eq_zero fun f hf => ?_).symm
    unfold pmmBlank nsPageSize at hf ⊢
    simp only at hf
    simp only [Bitmap.get_ones, decide_eq_true_eq]
    omega

/-- At first no frame is free. -/
lemma pmmBlank_marks (limit : ℕ) : (pmmBlank limit).Marks fun _ => False := by
  unfold pmmBlank nsPageSize
  refine ⟨fun f hf => ?_, fun f hf => ?_, fun f _ => ⟨Bitmap.get_ones _ f, Bitmap.get_ones _ f⟩⟩
  all_goals
    simp only [Bitmap.get_ones, decide_eq_false_iff_not, iff_false] at hf ⊢
    omega

/-- What the boot information says of a frame that may be handed out. -/
structure FrameSafe (boot : BootInfo) (entries : ℕ → UInt8) (bitmapPhys bitmapSize f : ℕ) :
    Prop where
  usable : ∃ i < boot.e820EntryCount, entryEnabled (entryAt boot entries i) = true ∧
    (entryAt boot entries i).type = e820Usable ∧ (entryAt boot entries i).Covers f
  firmware : ∀ i < boot.e820EntryCount, entryEnabled (entryAt boot entries i) = true →
    (entryAt boot entries i).type ≠ e820Usable →
    ¬ Overlaps (entryAt boot entries i).base (entryAt boot entries i).length f
  lowMemory : ¬ Overlaps 0 0x100000 f
  kernel : ¬ Overlaps boot.kernelPhysBase boot.kernelSize f
  bootloader : ¬ Overlaps boot.bootloaderPhysBase boot.bootloaderSize f
  pageTables : ¬ Overlaps boot.pageTablesPhysBase boot.pageTablesSize f
  pml4 : ¬ Overlaps boot.pml4Phys nsPageSize f
  bootInfo : ¬ Overlaps boot.bootInfoPhys boot.size f
  e820Table : ¬ Overlaps boot.e820EntriesPhys (boot.e820EntryCount * boot.e820EntrySize) f
  bitmap : ¬ Overlaps bitmapPhys bitmapSize f
  initrd : boot.flags.testBit bootFlagInitrd = true →
    ¬ Overlaps boot.initrdPhysBase boot.initrdSize f
  framebuffer : boot.flags.testBit bootFlagFramebuffer = true →
    ¬ Overlaps boot.framebufferPhysBase boot.framebufferSize f

/-- The storage asked for is a 64-bit word. -/
lemma nsPmmStorageRequired_lt (boot : BootInfo) (entries : ℕ → UInt8) :
    nsPmmStorageRequired boot entries < 2 ^ 64 := by
  unfold nsPmmStorageRequired uint64Max
  dsimp only
  split_ifs <;> omega

/-- The regions reserved at boot have 64-bit lengths. -/
lemma bootRegions_length_lt (boot : BootInfo) (bitmapPhys : ℕ) {bitmapSize : ℕ}
    (h : bitmapSize < 2 ^ 64) : ∀ r ∈ bootRegions boot bitmapPhys bitmapSize, r.2 < 2 ^ 64 := by
  have hle : ∀ off, boot.le off 8 < 2 ^ 64 := fun off => boot.le_lt off 8
  have hcount : boot.e820EntryCount < 2 ^ 32 := boot.le_lt 40 4
  have hentry : boot.e820EntrySize < 2 ^ 32 := boot.le_lt 44 4
  have hsize : boot.size < 2 ^ 32 := boot.le_lt 12 4
  have htable : boot.e820EntryCount * boot.e820EntrySize < 2 ^ 64 := by nlinarith
  intro r hr
  simp only [bootRegions, mem_append, mem_cons, not_mem_nil, or_false] at hr
  rcases hr with ((rfl | rfl | rfl | rfl | rfl | rfl | rfl | rfl) | hr) | hr
  · norm_num
  · exact hle 64
  · exact hle 112
  · exact hle 128
  · norm_num
  · exact hsize.trans (by norm_num)
  · exact htable
  · exact h
  · split_ifs at hr <;> simp only [mem_cons, not_mem_nil, or_false] at hr
    exact hr ▸ hle 88
  · split_ifs at hr <;> simp only [mem_cons, not_mem_nil, or_false] at hr
    exact hr ▸ hle 152

/-- A frame is safe if a usable entry exposes it and no range that is reserved meets it. -/
lemma frameSafe_iff {bitmapPhys bitmapSize f : ℕ} :
    FrameSafe boot entries bitmapPhys bitmapSize f ↔
      ((∃ i < boot.e820EntryCount, (entryAt boot entries i).Exposes f) ∧
        ∀ i < boot.e820EntryCount, entryEnabled (entryAt boot entries i) = true →
          (entryAt boot entries i).type ≠ e820Usable →
          ¬ Overlaps (entryAt boot entries i).base (entryAt boot entries i).length f) ∧
      ∀ r ∈ bootRegions boot bitmapPhys bitmapSize, ¬ Overlaps r.1 r.2 f := by
  constructor
  · intro h
    refine ⟨⟨h.usable, h.firmware⟩, fun r hr => ?_⟩
    simp only [bootRegions, mem_append, mem_cons, not_mem_nil, or_false] at hr
    rcases hr with ((rfl | rfl | rfl | rfl | rfl | rfl | rfl | rfl) | hr) | hr
    · exact h.lowMemory
    · exact h.kernel
    · exact h.bootloader
    · exact h.pageTables
    · exact h.pml4
    · exact h.bootInfo
    · exact h.e820Table
    · exact h.bitmap
    · split_ifs at hr with hflag <;> simp only [mem_cons, not_mem_nil, or_false] at hr
      exact hr ▸ h.initrd hflag
    · split_ifs at hr with hflag <;> simp only [mem_cons, not_mem_nil, or_false] at hr
      exact hr ▸ h.framebuffer hflag
  · rintro ⟨⟨husable, hfirm⟩, hboot⟩
    have hregion : ∀ base length, (base, length) ∈ bootRegions boot bitmapPhys bitmapSize →
        ¬ Overlaps base length f := fun base length hr => hboot (base, length) hr
    refine ⟨husable, hfirm, hregion _ _ (by simp [bootRegions]),
      hregion _ _ (by simp [bootRegions]), hregion _ _ (by simp [bootRegions]),
      hregion _ _ (by simp [bootRegions]), hregion _ _ (by simp [bootRegions]),
      hregion _ _ (by simp [bootRegions]), hregion _ _ (by simp [bootRegions]),
      hregion _ _ (by simp [bootRegions]), fun hflag => hregion _ _ (by simp [bootRegions, hflag]),
      fun hflag => hregion _ _ (by simp [bootRegions, hflag])⟩

/-- The passes of `ns_pmm_init` leave exactly the safe frames clear in the bitmaps. -/
lemma pmmScan_spec (boot : BootInfo) (entries : ℕ → UInt8) (bitmapPhys : ℕ) :
    (pmmScan boot entries bitmapPhys).Ok ∧
    (pmmScan boot entries bitmapPhys).managedLimit = discoverLimit boot entries ∧
    (pmmScan boot entries bitmapPhys).Marks
      (FrameSafe boot entries bitmapPhys (nsPmmStorageRequired boot entries)) := by
  obtain ⟨hmod, hlt⟩ : discoverLimit boot entries % 4096 = 0 ∧
    discoverLimit boot entries < 2 ^ 64 :=
    alignUpPageSaturating_spec _
  -- The three passes, each starting from what the one before it established.
  obtain ⟨hok1, hs1, hin1⟩ := (pmmBlank_ok hmod hlt).exposeEntries (pmmBlank_marks _) rfl
    (L := (range boot.e820EntryCount).map (entryAt boot entries))
    (by
      simp only [mem_map, mem_range, forall_exists_index, and_imp]
      rintro e i - rfl
      exact ⟨entryAt_base_lt boot entries i, entryAt_length_lt boot entries i⟩)
  obtain ⟨hok2, hs2, hin2⟩ := hok1.reserveRanges hin1
    (L := (((range boot.e820EntryCount).map (entryAt boot entries)).filter
      fun e => entryEnabled e && decide (e.type ≠ e820Usable)).map fun e => (e.base, e.length))
    (by
      simp only [mem_map, mem_filter, mem_range, forall_exists_index, and_imp]
      rintro r e i - rfl - rfl
      exact entryAt_length_lt boot entries i)
  rw [← foldl_concealEntry] at hok2 hs2 hin2
  obtain ⟨hok3, hs3, hin3⟩ := hok2.reserveRanges hin2
    (bootRegions_length_lt boot bitmapPhys (nsPmmStorageRequired_lt boot entries))
  refine ⟨hok3, ((hs1.trans hs2).trans hs3).limit, hin3.congr fun f _ => ?_⟩
  rw [frameSafe_iff]
  simp only [false_or, mem_map, mem_filter, mem_range, Bool.and_eq_true, decide_eq_true_eq,
    forall_exists_index, and_imp, exists_exists_and_eq_and, forall_apply_eq_imp_iff₂]
  refine and_congr_left fun _ => and_congr_right fun _ => ⟨fun h i hi hen hty => ?_, ?_⟩
  · exact h ((entryAt boot entries i).base, (entryAt boot entries i).length) i hi hen hty rfl
  · rintro h r i hi hen hty rfl
    exact h i hi hen hty

/-- An allocator accepted by `ns_pmm_init` satisfies the invariant, and only safe frames are
outside its reservation bitmap. -/
lemma nsPmmInit_spec {bitmapPhys storageSize : ℕ}
    (h : nsPmmInit boot entries bitmapPhys storageSize = .ok pmm) :
    pmm.Ok ∧ pmm.initialized = true ∧
    pmm.Within (FrameSafe boot entries bitmapPhys (nsPmmStorageRequired boot entries)) := by
  obtain ⟨hok, -, hin⟩ := pmmScan_spec boot entries bitmapPhys
  unfold nsPmmInit at h
  dsimp only at h
  split_ifs at h <;> obtain rfl := Except.ok.inj h <;>
    exact ⟨⟨hok.bytes, hok.limit, hok.small, hok.tail, hok.reserved, hok.free⟩, rfl,
      fun f hf => (hin.reserved f hf).mp⟩

/-- The direct map consists of pages and fits into the upper half of the address space. -/
lemma directMapSize_le (h : nsBootInfoValidate boot = true) :
    boot.directMapSize ≠ 0 ∧ boot.directMapSize % nsPageSize = 0 ∧
      boot.directMapSize ≤ 2 ^ 47 := by
  unfold nsBootInfoValidate at h
  simp only [Bool.and_eq_true, decide_eq_true_eq] at h
  obtain ⟨⟨⟨⟨⟨⟨⟨⟨⟨⟨⟨⟨⟨⟨⟨⟨-, hsize⟩, hmod⟩, hend⟩, -⟩, -⟩, -⟩, -⟩, -⟩, -⟩, hbase⟩, -⟩, -⟩, -⟩, -⟩,
    -⟩, -⟩ := h
  unfold uint64Max kernelHalfBase at *
  exact ⟨hsize, hmod, by omega⟩

/-- The frames below the limit fit into the upper half of the address space. -/
lemma discoverLimit_le (entries : ℕ → UInt8)
    (h : nsBootInfoValidate boot = true) : discoverLimit boot entries ≤ 2 ^ 47 := by
  obtain ⟨hne, hmod, hsize⟩ := directMapSize_le h
  unfold nsPageSize at hmod
  unfold discoverLimit
  dsimp only
  generalize foldl _ 0 (range boot.e820EntryCount) = highest
  split_ifs with hcut
  · rw [alignUpPageSaturating_eq (by omega)]
    omega
  · rw [alignUpPageSaturating_eq (by omega)]
    omega

/-- The managed memory ends within the direct map. -/
lemma nsPmmInit_limit {bitmapPhys storageSize : ℕ}
    (h : nsPmmInit boot entries bitmapPhys storageSize = .ok pmm) :
    pmm.managedLimit ≤ 2 ^ 47 := by
  obtain ⟨-, hlimit, -⟩ := pmmScan_spec boot entries bitmapPhys
  unfold nsPmmInit at h
  dsimp only at h
  split_ifs at h with hbad <;> obtain rfl := Except.ok.inj h <;>
  · rw [not_or, Bool.not_eq_false] at hbad
    exact hlimit.trans_le (discoverLimit_le entries hbad.2)

/-! ### Allocating and freeing -/

/-- A span that is reported free lies below the limit and is free. -/
lemma spanIsFree_iff (h : spanIsFree pmm first count limit = true) :
    first + count ≤ limit ∧
    ∀ f, first ≤ f → f < first + count → pmm.allocatedBitmap.get f = false := by
  unfold spanIsFree at h
  split_ifs at h with hskip
  refine ⟨by omega, fun f h1 h2 => ?_⟩
  have hbit := all_eq_true.mp h (f - first) (mem_range.mpr (by omega))
  rw [Nat.add_sub_of_le h1] at hbit
  simpa using hbit

/-- A run that the loop of `find_run` returns is an aligned candidate whose span is free. -/
lemma findRunFrom_sound {finish fuel frame : ℕ}
    (h : findRunFrom pmm finish count alignment fuel frame = some c)
    (hframe : ∃ x, frame = alignFrame x alignment) :
    (∃ x, c = alignFrame x alignment) ∧ c < finish ∧ spanIsFree pmm c count finish = true := by
  induction fuel generalizing frame with
  | zero => cases h
  | succ fuel ih =>
    unfold findRunFrom at h
    split_ifs at h with hin hfree
    · obtain rfl := Option.some.inj h
      exact ⟨hframe, hin.1, hfree⟩
    · exact ih h ⟨_, rfl⟩

/-- The skip of `find_run` stays inside the candidate. -/
lemma skipOccupied_le_max (pmm : Pmm) (frame count : ℕ) :
    skipOccupied pmm frame count ≤ max count 1 := by
  unfold skipOccupied
  split
  · next i hfind =>
    have hi := mem_range.mp (mem_of_find?_eq_some hfind)
    omega
  · exact le_max_right _ _

section

variable (ha : ∃ k, alignment = 2 ^ k)
include ha

/-- An aligned frame below the saturation value is a multiple of the alignment. -/
lemma dvd_alignFrame {x : ℕ}
    (h : alignFrame x alignment < uint64Max) : alignment ∣ alignFrame x alignment := by
  obtain ⟨k, rfl⟩ := ha
  unfold alignFrame at h ⊢
  dsimp only at h ⊢
  split_ifs at h ⊢ with hsat
  · exact absurd h (lt_irrefl _)
  · rw [and_not64_mask]
    exact Dvd.intro_left _ rfl

/-- Aligning a word does not move it down. -/
lemma le_alignFrame {x : ℕ} (hx : x ≤ uint64Max) : x ≤ alignFrame x alignment := by
  obtain ⟨k, rfl⟩ := ha
  have hpos : 0 < 2 ^ k := Nat.two_pow_pos k
  rcases Nat.eq_zero_or_pos x with rfl | hx0
  · exact Nat.zero_le _
  unfold alignFrame uint64Max at *
  dsimp only
  split_ifs with hsat
  · exact hx
  · rw [and_not64_mask, Nat.mod_eq_of_lt (by omega), mul_comm]
    have hrest := Nat.mod_lt (x + (2 ^ k - 1)) hpos
    have hsplit := Nat.div_add_mod (x + (2 ^ k - 1)) (2 ^ k)
    omega

/-- The loop of `find_run` finds nothing in front of its candidate. -/
lemma le_findRunFrom {finish fuel frame : ℕ} (hfin : finish < uint64Max)
    (h : findRunFrom pmm finish count alignment fuel frame = some c) : frame ≤ c := by
  induction fuel generalizing frame with
  | zero => cases h
  | succ fuel ih =>
    unfold findRunFrom at h
    split_ifs at h with hin
    · exact (Option.some.inj h).le
    · have hskip := skipOccupied_le_max pmm frame count
      have halign : frame + skipOccupied pmm frame count ≤ _ := le_alignFrame ha (by omega)
      have hrest := ih h
      omega

/-- What the search finds is an aligned free run. -/
lemma findRun_sound {start finish : ℕ} (hfin : finish ≤ uint64Max)
    (h : findRun pmm start finish count alignment = some c) :
    alignment ∣ c ∧ c + count ≤ finish ∧
    ∀ f, c ≤ f → f < c + count → pmm.allocatedBitmap.get f = false := by
  obtain ⟨⟨x, rfl⟩, hlt, hfree⟩ := findRunFrom_sound h ⟨_, rfl⟩
  exact ⟨dvd_alignFrame ha (hlt.trans_le hfin), spanIsFree_iff hfree⟩

/-- The search of `ns_pmm_alloc_pages` returns an aligned free run on one side of the hint. -/
lemma searchRun_sound {hint : ℕ} (hhint : hint ≤ limit) (hlimit : limit < uint64Max)
    (h : searchRun pmm hint limit count alignment = some c) :
    alignment ∣ c ∧ c + count ≤ limit ∧ (hint ≤ c ∨ c + count ≤ hint) ∧
    ∀ f, c ≤ f → f < c + count → pmm.allocatedBitmap.get f = false := by
  unfold searchRun at h
  split at h
  · next hfound =>
    obtain rfl := Option.some.inj h
    obtain ⟨hdvd, hle, hclear⟩ := findRun_sound ha hlimit.le hfound
    have habove := (le_alignFrame ha (by omega)).trans (le_findRunFrom ha hlimit hfound)
    exact ⟨hdvd, hle, .inl habove, hclear⟩
  · split_ifs at h
    obtain ⟨hdvd, hle, hclear⟩ := findRun_sound ha (hhint.trans hlimit.le) h
    exact ⟨hdvd, hle.trans hhint, .inr hle, hclear⟩

end

section Complete

variable {start finish k : ℕ} (hk : k < 64) (hcount : 0 < count) (hdvd : 2 ^ k ∣ first)
  (hclear : ∀ f, first ≤ f → f < first + count → pmm.allocatedBitmap.get f = false)

include hk hdvd in
/-- `align_frame` gives the least aligned frame that is not in front of the given one. -/
lemma alignFrame_bounds (hstart : start ≤ first) (hfirst : first < 2 ^ 63) :
    start ≤ alignFrame start (2 ^ k) ∧ alignFrame start (2 ^ k) ≤ first := by
  have hpow : 2 ^ k ≤ 2 ^ 63 := Nat.pow_le_pow_right (by norm_num) (Nat.le_of_lt_succ hk)
  have hpos : 0 < 2 ^ k := Nat.two_pow_pos k
  obtain ⟨q, rfl⟩ := hdvd
  refine ⟨le_alignFrame ⟨k, rfl⟩ (by unfold uint64Max; omega), ?_⟩
  unfold alignFrame uint64Max
  rw [if_neg (by omega), and_not64_mask, Nat.mod_eq_of_lt (by omega), mul_comm]
  refine Nat.mul_le_mul_left _ (Nat.lt_succ_iff.mp (Nat.div_lt_of_lt_mul ?_))
  rw [Nat.mul_succ]
  omega

include hclear

/-- The skip of `find_run` does not pass the start of a free run. -/
lemma skipOccupied_le (hfree : ¬ spanIsFree pmm start count finish = true) (hstart : start ≤ first)
    (hfinish : first + count ≤ finish) :
    0 < skipOccupied pmm start count ∧ start + skipOccupied pmm start count ≤ first := by
  unfold skipOccupied
  split
  · next i hfind =>
    have hi := mem_range.mp (mem_of_find?_eq_some hfind)
    have hset := find?_some hfind
    refine ⟨Nat.succ_pos i, ?_⟩
    by_contra hpast
    rw [hclear (start + i) (by omega) (by omega)] at hset
    cases hset
  · next hfind =>
    refine absurd ?_ hfree
    rw [spanIsFree, if_neg (by omega)]
    simpa using hfind

include hk hcount hdvd

/-- The loop of `find_run` finds a run if there is one. -/
lemma findRunFrom_complete {fuel : ℕ} (hsmall : finish < 2 ^ 63) (hfinish : first + count ≤ finish)
    (hstart : start ≤ first) (hfuel : finish ≤ start + fuel) :
    findRunFrom pmm finish count (2 ^ k) fuel start ≠ none := by
  induction fuel generalizing start with
  | zero => omega
  | succ fuel ih =>
    rw [findRunFrom, if_pos (by omega)]
    split_ifs with hfree
    · exact Option.some_ne_none _
    · obtain ⟨hmoves, hskip⟩ := skipOccupied_le hclear hfree hstart hfinish
      obtain ⟨hlow, hhigh⟩ := alignFrame_bounds hk hdvd hskip (by omega)
      exact ih hhigh (by omega)

/-- The search misses no run behind its start. -/
lemma findRun_complete (hsmall : finish < 2 ^ 63) (hstart : start ≤ first)
    (h : findRun pmm start finish count (2 ^ k) = none) : finish < first + count := by
  by_contra hin
  obtain ⟨hlow, hhigh⟩ := alignFrame_bounds hk hdvd hstart (by omega)
  exact findRunFrom_complete hk hcount hdvd hclear hsmall (by omega) hhigh (by omega) h

/-- The two searches of `ns_pmm_alloc_pages` miss only runs with frames on both sides of the hint.
-/
lemma searchRun_complete {hint : ℕ} (hsmall : limit < 2 ^ 63) (hhint : hint ≤ limit)
    (hlimit : first + count ≤ limit) (h : searchRun pmm hint limit count (2 ^ k) = none) :
    first < hint ∧ hint < first + count := by
  unfold searchRun at h
  split at h
  · cases h
  · next habove =>
    have hfirst : first < hint := by
      by_contra hge
      have := findRun_complete hk hcount hdvd hclear hsmall (by omega) habove
      omega
    rw [if_pos (by omega)] at h
    exact ⟨hfirst, findRun_complete hk hcount hdvd hclear (by omega) (Nat.zero_le first) h⟩

end Complete

/-- What a successful `ns_pmm_alloc_pages` returns and changes. -/
structure Pmm.Allocates (pmm pmm' : Pmm) (count alignment maxPhys first : ℕ) : Prop where
  pos : 0 < count
  aligned : alignment ∣ first
  below : maxPhys ≠ 0 → (first + count) * nsPageSize ≤ maxPhys
  tracked : first + count ≤ pmm.frameCount
  clear : ∀ f, first ≤ f → f < first + count → pmm.allocatedBitmap.get f = false
  oneSide : pmm.nextHint ≤ first ∨ first + count ≤ pmm.nextHint
  shape : pmm.SameShape pmm'
  reserved : pmm'.reservedBitmap = pmm.reservedBitmap
  allocated : pmm'.allocatedBitmap = pmm.allocatedBitmap.setRun first count
  free : pmm'.freeFrames = pmm.freeFrames - count

/-- The managed frames have 64-bit addresses. -/
lemma Pmm.Ok.frameCount_lt (h : pmm.Ok) : pmm.frameCount * 4096 < 2 ^ 64 := by
  have hlimit := h.limit
  have hsmall := h.small
  unfold nsPageSize at hlimit
  omega

/-- A successful `ns_pmm_alloc_pages` allocates a run. -/
lemma Pmm.Ok.allocPages (hok : pmm.Ok)
    (h : nsPmmAllocPages pmm count alignment maxPhys = (.ok phys, pmm')) :
    ∃ first, phys = first * nsPageSize ∧ pmm.Allocates pmm' count alignment maxPhys first := by
  have hsmall := hok.frameCount_lt
  unfold nsPmmAllocPages at h
  dsimp only at h
  split at h
  · cases h
  · next harg =>
    obtain ⟨-, hcount, halign, hpow⟩ : pmm.initialized = true ∧ count ≠ 0 ∧ alignment ≠ 0 ∧
        alignment &&& (alignment - 1) = 0 := by simpa [not_or] using harg
    split at h
    · cases h
    · split at h
      · cases h
      · next candidate hfound =>
        obtain ⟨rfl, rfl⟩ := Prod.mk.inj h |>.imp_left Except.ok.inj
        obtain ⟨hdvd, hle, hside, hclear⟩ :=
          searchRun_sound (exists_two_pow_of_and_pred halign hpow)
          (by unfold nsPageSize; split_ifs <;> omega) (by unfold uint64Max; split_ifs <;> omega)
          hfound
        refine ⟨candidate, rfl, by omega, hdvd, fun hmax => ?_, ?_, hclear, ?_,
          ⟨rfl, rfl, rfl, rfl⟩, rfl, rfl, rfl⟩
        · rw [if_pos hmax] at hle
          unfold nsPageSize at hle ⊢
          omega
        · split_ifs at hle <;> omega
        · -- a run below the limit is in front of a hint that is not
          by_cases hhint : pmm.nextHint <
              if maxPhys ≠ 0 then min (maxPhys / nsPageSize) pmm.frameCount else pmm.frameCount
          · rwa [if_pos hhint] at hside
          · exact .inr (hle.trans (Nat.le_of_not_lt hhint))

/-- A failed allocation changes nothing. -/
lemma nsPmmAllocPages_error {e : PmmError}
    (h : nsPmmAllocPages pmm count alignment maxPhys = (.error e, pmm')) : pmm' = pmm := by
  unfold nsPmmAllocPages at h
  dsimp only at h
  split at h
  · exact (Prod.mk.inj h).2.symm
  · split at h
    · exact (Prod.mk.inj h).2.symm
    · split at h
      · exact (Prod.mk.inj h).2.symm
      · cases h

/-- An aligned run of free frames below the limit of an allocation. -/
structure Pmm.FreeRun (pmm : Pmm) (count alignment maxPhys first : ℕ) : Prop where
  aligned : alignment ∣ first
  below : maxPhys ≠ 0 → (first + count) * nsPageSize ≤ maxPhys
  tracked : first + count ≤ pmm.frameCount
  clear : ∀ f, first ≤ f → f < first + count → pmm.allocatedBitmap.get f = false

/-- A successful allocation returns a free run, on one side of the hint. -/
lemma Pmm.Allocates.freeRun (h : pmm.Allocates pmm' count alignment maxPhys first) :
    pmm.FreeRun count alignment maxPhys first ∧
      ¬ (first < pmm.nextHint ∧ pmm.nextHint < first + count) := by
  have hside := h.oneSide
  exact ⟨⟨h.aligned, h.below, h.tracked, h.clear⟩, by omega⟩

/-- An allocation whose arguments are valid either succeeds or is refused for lack of space. -/
lemma nsPmmAllocPages_cases (pmm : Pmm) (maxPhys : ℕ) (hinit : pmm.initialized = true)
    (hcount : 0 < count) (halign : ∃ k, alignment = 2 ^ k) :
    (∃ phys pmm', nsPmmAllocPages pmm count alignment maxPhys = (.ok phys, pmm')) ∨
      (nsPmmAllocPages pmm count alignment maxPhys).1 = .error .enospc := by
  have hpow : alignment ≠ 0 ∧ alignment &&& (alignment - 1) = 0 := by
    obtain ⟨k, rfl⟩ := halign
    exact ⟨(Nat.two_pow_pos k).ne', (Nat.and_sub_one_eq_zero_iff_isPowerOfTwo
      (Nat.two_pow_pos k).ne').mpr ⟨k, rfl⟩⟩
  unfold nsPmmAllocPages
  rw [if_neg (by simp [hinit, hcount.ne', hpow])]
  dsimp only
  split_ifs
  · exact .inr rfl
  all_goals
    split
    · exact .inr rfl
    · exact .inl ⟨_, _, rfl⟩

/-- An allocation that is refused for lack of space has missed only runs on both sides of the
hint. -/
lemma Pmm.Ok.enospc (hok : pmm.Ok) (halign : alignment < 2 ^ 64)
    (h : (nsPmmAllocPages pmm count alignment maxPhys).1 = .error .enospc)
    (hrun : pmm.FreeRun count alignment maxPhys first) :
    first < pmm.nextHint ∧ pmm.nextHint < first + count := by
  have hframes := hok.frameCount_lt
  have htracked := hrun.tracked
  unfold nsPmmAllocPages at h
  split at h
  · cases h
  next harg =>
  obtain ⟨-, hcount, hzero, hpow⟩ : pmm.initialized = true ∧ count ≠ 0 ∧ alignment ≠ 0 ∧
      alignment &&& (alignment - 1) = 0 := by simpa [not_or] using harg
  obtain ⟨k, rfl⟩ := exists_two_pow_of_and_pred hzero hpow
  have hk : k < 64 := (Nat.pow_lt_pow_iff_right (by norm_num)).mp halign
  split at h
  · have hfree := Bitmap.clearBits_setRun htracked hrun.clear
    rw [← hok.free] at hfree
    omega
  dsimp only at h
  have hlimit : first + count ≤
      if maxPhys ≠ 0 then min (maxPhys / nsPageSize) pmm.frameCount else pmm.frameCount := by
    split_ifs with hmax
    · have hbelow := hrun.below hmax
      unfold nsPageSize at hbelow ⊢
      omega
    · exact htracked
  split at h
  · next hsearch =>
    have hmissed := searchRun_complete hk (Nat.pos_of_ne_zero hcount) hrun.aligned hrun.clear
      (by unfold nsPageSize; split_ifs <;> omega) (by unfold nsPageSize; split_ifs <;> omega)
      hlimit hsearch
    split_ifs at hmissed <;> omega
  · cases h

/-- An allocation keeps the manager in order. -/
lemma Pmm.Ok.allocates (hok : pmm.Ok)
    (h : pmm.Allocates pmm' count alignment maxPhys first) : pmm'.Ok := by
  refine hok.of_shape h.shape (fun f h1 h2 => ?_) (fun f hf hr => ?_) ?_
  · rw [h.allocated, Bitmap.get_setRun, hok.tail f h1 h2, Bool.true_or]
  · rw [h.reserved] at hr
    rw [h.allocated, Bitmap.get_setRun, hok.reserved f hf hr, Bool.true_or]
  · have hcount := Bitmap.clearBits_setRun h.tracked h.clear
    rw [h.free, hok.free, h.allocated]
    omega

/-- What a successful `ns_pmm_free_pages` changes. -/
structure Pmm.Frees (pmm pmm' : Pmm) (first count : ℕ) : Prop where
  pos : 0 < count
  tracked : first + count ≤ pmm.frameCount
  taken : ∀ f, first ≤ f → f < first + count →
    pmm.allocatedBitmap.get f = true ∧ pmm.reservedBitmap.get f = false
  shape : pmm.SameShape pmm'
  reserved : pmm'.reservedBitmap = pmm.reservedBitmap
  allocated : pmm'.allocatedBitmap = pmm.allocatedBitmap.clearRun first count
  free : pmm'.freeFrames = pmm.freeFrames + count

/-- A successful `ns_pmm_free_pages` frees a run. -/
lemma nsPmmFreePages_ok (h : nsPmmFreePages pmm phys count = (.ok (), pmm')) :
    phys % nsPageSize = 0 ∧ pmm.Frees pmm' (phys / nsPageSize) count := by
  unfold nsPmmFreePages at h
  dsimp only at h
  split at h
  · cases h
  · next harg =>
    obtain ⟨-, hcount, hphys⟩ : pmm.initialized = true ∧ count ≠ 0 ∧ phys % nsPageSize = 0 := by
      simpa [not_or] using harg
    split at h
    · cases h
    · split at h
      · cases h
      · next hnone =>
        obtain rfl := (Prod.mk.inj h).2
        refine ⟨hphys, by omega, by omega, fun f h1 h2 => ?_, ⟨rfl, rfl, rfl, rfl⟩, rfl, rfl, rfl⟩
        have hcheck := findSome?_eq_none_iff.mp hnone f (mem_range'_1.mpr ⟨h1, h2⟩)
        unfold freeCheck at hcheck
        split_ifs at hcheck with hr ha
        exact ⟨by simpa using ha, by simpa using hr⟩

/-- A failed free changes nothing. -/
lemma nsPmmFreePages_error {e : PmmError}
    (h : nsPmmFreePages pmm phys count = (.error e, pmm')) : pmm' = pmm := by
  unfold nsPmmFreePages at h
  dsimp only at h
  split at h
  · exact (Prod.mk.inj h).2.symm
  · split at h
    · exact (Prod.mk.inj h).2.symm
    · split at h
      · exact (Prod.mk.inj h).2.symm
      · cases h

/-- A free keeps the manager in order. -/
lemma Pmm.Ok.frees (hok : pmm.Ok) (h : pmm.Frees pmm' first count) : pmm'.Ok := by
  have htracked := h.tracked
  refine hok.of_shape h.shape (fun f h1 h2 => ?_) (fun f hf hr => ?_) ?_
  · have hout : ¬ (first ≤ f ∧ f < first + count) := by omega
    rw [h.allocated, Bitmap.get_clearRun, hok.tail f h1 h2]
    simp [hout]
  · rw [h.reserved] at hr
    have hout : ¬ (first ≤ f ∧ f < first + count) := by
      rintro ⟨h1, h2⟩
      simp [(h.taken f h1 h2).2] at hr
    rw [h.allocated, Bitmap.get_clearRun, hok.reserved f hf hr]
    simp [hout]
  · rw [h.free, hok.free, h.allocated,
      Bitmap.clearBits_clearRun h.tracked fun f h1 h2 => (h.taken f h1 h2).1]

/-- `ns_pmm_reserve_range`: a success reserves the range, a failure changes nothing. -/
lemma nsPmmReserveRange_cases (pmm : Pmm) (base length : ℕ) :
    (nsPmmReserveRange pmm base length).2 = pmm ∧
        (∃ e, (nsPmmReserveRange pmm base length).1 = .error e) ∨
      nsPmmReserveRange pmm base length = (.ok (), reserveRangeUnlocked pmm base length) := by
  unfold nsPmmReserveRange
  split_ifs
  · exact .inl ⟨rfl, _, rfl⟩
  · exact .inl ⟨rfl, _, rfl⟩
  · exact .inr rfl

end Northstar
