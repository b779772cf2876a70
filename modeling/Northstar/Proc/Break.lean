import Northstar.Lib.Trace
import Northstar.Mm.Vmm
import Northstar.Proc.Descriptor

/-! # The program break

A model of the system call `SBRK` (`syscall.c`) and of `ns_proc_runtime_adjust_break` (`runtime.c`).
The address space is seen as the system call sees it: a page is mapped, with some contents, or it is
not. `allocMap` and `unmapRange` say what `ns_vmm_alloc_map` and `ns_vmm_unmap_range` do to such a
view. Mapping a page needs frames for it and for the tables above it, and they may be missing at any
time; unmapping cannot fail. That the functions of `vmm.c` do this to the page tables of an owned
space is shown in `BreakPages`. -/

namespace Northstar

open Function

variable {Page : Type}

/-- The break of a `struct ns_process`, and the contents of its mapped pages by page number. -/
structure UserSpace (Page : Type) where
  userBrkBase : ℕ
  userBrk : ℕ
  userBrkLimit : ℕ
  pages : ℕ → Option Page

/-- What the loop of `ns_vmm_unmap_range` does to `count` pages; pages that are not mapped are
passed over. -/
def unmapLoop : ℕ → ℕ → (ℕ → Option Page) → ℕ → Option Page
  | 0, _, pages => pages
  | count + 1, first, pages => unmapLoop count (first + 1) (update pages first none)

/-- What the loop of `ns_vmm_alloc_map` does to `count` more pages, with `mapped` pages done. A page
without frames, or one that is mapped already, undoes what the loop has mapped. -/
def allocLoop (zero : Page) (available : ℕ → Bool) (first : ℕ) :
    ℕ → ℕ → (ℕ → Option Page) → Bool × (ℕ → Option Page)
  | 0, _, pages => (true, pages)
  | count + 1, mapped, pages =>
    if available (first + mapped) = true ∧ pages (first + mapped) = none then
      allocLoop zero available first count (mapped + 1)
        (update pages (first + mapped) (some zero))
    else (false, unmapLoop mapped first pages)

/-- `ns_vmm_alloc_map` on the pages, and whether it succeeds. -/
def allocMap (zero : Page) (available : ℕ → Bool) (virt length : ℕ) (pages : ℕ → Option Page) :
    Bool × (ℕ → Option Page) :=
  match validatePageRange virt length with
  | none => (false, pages)
  | some finish =>
    allocLoop zero available (virt / nsPageSize) ((finish - virt) / nsPageSize) 0 pages

/-- `ns_vmm_unmap_range` on the pages, and whether it succeeds. -/
def unmapRange (virt length : ℕ) (pages : ℕ → Option Page) : Bool × (ℕ → Option Page) :=
  if length = 0 then (true, pages)
  else match validatePageRange virt length with
    | none => (false, pages)
    | some finish => (true, unmapLoop ((finish - virt) / nsPageSize) (virt / nsPageSize) pages)

/-- A word rounded up to a page as `ns_proc_runtime_adjust_break` does it. -/
def pageCeil (address : ℕ) : ℕ := (address + nsPageSize - 1) &&& not64 (nsPageSize - 1)

/-- `ns_proc_runtime_adjust_break` on the pages. -/
def adjustBreak (zero : Page) (available : ℕ → Bool) (p : UserSpace Page) (oldBreak newBreak : ℕ) :
    ℤ × UserSpace Page :=
  if newBreak < p.userBrkBase ∨ newBreak > p.userBrkLimit then (-nsEinval, p)
  else
    let oldPage := pageCeil oldBreak
    let newPage := pageCeil newBreak
    if newPage > oldPage then
      let r := allocMap zero available oldPage (newPage - oldPage) p.pages
      (if r.1 then 0 else -nsEnomem, { p with pages := r.2 })
    else if newPage < oldPage then
      let r := unmapRange newPage (oldPage - newPage) p.pages
      (if r.1 then 0 else -nsEfault, { p with pages := r.2 })
    else (0, p)

/-- The rest of `SBRK`, once the new break is known. -/
def moveBreak (zero : Page) (available : ℕ → Bool) (p : UserSpace Page) (newBreak : ℕ) :
    ℤ × UserSpace Page :=
  if newBreak > p.userBrkLimit then (-nsEnomem, p)
  else
    let r := adjustBreak zero available p p.userBrk newBreak
    if r.1 = 0 then ((BitVec.ofNat 64 p.userBrk).toInt, { r.2 with userBrk := newBreak }) else r

/-- `SBRK` with the increment that stands in `rdi`. -/
def sbrk (zero : Page) (available : ℕ → Bool) (p : UserSpace Page) (rdi : BitVec 64) :
    ℤ × UserSpace Page :=
  let increment := rdi.toInt
  if 0 ≤ increment then
    if increment.toNat > uint64Max - p.userBrk then (-nsEnomem, p)
    else moveBreak zero available p (p.userBrk + increment.toNat)
  else
    let decrease := (-(increment + 1)).toNat + 1
    if decrease > p.userBrk - p.userBrkBase then (-nsEinval, p)
    else moveBreak zero available p (p.userBrk - decrease)

/-! ### Pages -/

section

variable (zero : Page) (available : ℕ → Bool) (c : Option Page) (first count : ℕ)
  (pages : ℕ → Option Page)

/-- `pages` with the contents `c` for `count` pages from `first`. -/
def fill (q : ℕ) : Option Page :=
  if first ≤ q ∧ q < first + count then c else pages q

/-- Filling no pages changes nothing. -/
lemma fill_zero : fill c first 0 pages = pages := by
  funext q
  exact if_neg (by omega)

/-- The loop of `ns_vmm_unmap_range` takes its pages away. -/
lemma unmapLoop_eq : unmapLoop count first pages = fill none first count pages := by
  induction count generalizing first pages with
  | zero => exact (fill_zero none first pages).symm
  | succ count ih =>
    rw [unmapLoop, ih]
    funext q
    unfold fill
    rcases eq_or_ne q first with rfl | hq
    · rw [if_neg (by omega), update_self, if_pos (by omega)]
    · rw [update_of_ne hq]
      exact if_congr (by omega) rfl rfl

lemma update_fill : update (fill c first count pages) (first + count) c =
    fill c first (count + 1) pages := by
  funext q
  unfold fill
  rcases eq_or_ne q (first + count) with rfl | hq
  · rw [update_self, if_pos (by omega)]
  · rw [update_of_ne hq]
    exact if_congr (by omega) rfl rfl

/-- The loop maps all its pages with zeroes, or it leaves the pages as they were before its first
iteration. -/
lemma allocLoop_cases (mapped : ℕ)
    (hfree : ∀ q, first ≤ q → q < first + mapped → pages q = none) :
    allocLoop zero available first count mapped (fill (some zero) first mapped pages) =
        (true, fill (some zero) first (mapped + count) pages) ∨
      allocLoop zero available first count mapped (fill (some zero) first mapped pages) =
        (false, pages) := by
  induction count generalizing mapped with
  | zero => exact .inl rfl
  | succ count ih =>
    have hhere : fill (some zero) first mapped pages (first + mapped) = pages (first + mapped) :=
      if_neg (by omega)
    rw [allocLoop, hhere]
    split_ifs with hstep
    · rw [update_fill, show mapped + (count + 1) = mapped + 1 + count by omega]
      refine ih (mapped + 1) fun q hlo hhi => ?_
      rcases eq_or_ne q (first + mapped) with rfl | hq
      · exact hstep.2
      · exact hfree q hlo (by omega)
    · rw [unmapLoop_eq]
      refine .inr (congrArg _ (funext fun q => ?_))
      unfold fill
      split_ifs with hq
      · exact (hfree q hq.1 hq.2).symm
      · rfl

section

variable {a b : ℕ} (hab : a < b) (hb : b * 4096 ≤ nsVmmUserTop)
include hab hb

/-- A range of whole pages below the end of the user half is valid, and the loops walk it. -/
lemma range_pages : validatePageRange (a * 4096) (b * 4096 - a * 4096) = some (b * 4096) ∧
    a * 4096 / nsPageSize = a ∧ (b * 4096 - a * 4096) / nsPageSize = b - a := by
  have hcan : ∀ v, v < b * 4096 → canonicalAddress v = true := fun v hv => by
    simp only [canonicalAddress, Bool.or_eq_true, decide_eq_true_eq]
    exact .inl (by omega)
  unfold nsVmmUserTop at hb
  have hround : (b * 4096 - a * 4096 + nsPageSize - 1) &&& not64 (nsPageSize - 1) =
      b * 4096 - a * 4096 := by
    refine (and_not64_mask _ 12).trans ?_
    unfold nsPageSize
    omega
  have hsum : addOverflowU64 (a * 4096) (b * 4096 - a * 4096) = (b * 4096, false) := by
    have hadd : a * 4096 + (b * 4096 - a * 4096) = b * 4096 := by omega
    rw [addOverflowU64_of_lt (by omega), hadd]
  unfold validatePageRange
  dsimp only
  rw [hround, hsum, hcan (a * 4096) (by omega), hcan (b * 4096 - 1) (by omega)]
  unfold uint64Max nsPageSize
  rw [if_neg (by simp; omega), if_neg (by simp; omega)]
  exact ⟨rfl, by omega, by omega⟩

/-- `ns_vmm_unmap_range` on whole pages takes them away. -/
lemma unmapRange_pages : unmapRange (a * 4096) (b * 4096 - a * 4096) pages =
    (true, fill none a (b - a) pages) := by
  obtain ⟨hrange, hfirst, hcount⟩ := range_pages hab hb
  rw [unmapRange, if_neg (by omega), hrange]
  dsimp only
  rw [hfirst, hcount, unmapLoop_eq]

/-- `ns_vmm_alloc_map` on whole pages maps them all, or none. -/
lemma allocMap_pages :
    allocMap zero available (a * 4096) (b * 4096 - a * 4096) pages =
        (true, fill (some zero) a (b - a) pages) ∨
      allocMap zero available (a * 4096) (b * 4096 - a * 4096) pages = (false, pages) := by
  obtain ⟨hrange, hfirst, hcount⟩ := range_pages hab hb
  have hrun := allocLoop_cases zero available a (b - a) pages 0 (by omega)
  rw [fill_zero, Nat.zero_add] at hrun
  rw [allocMap, hrange]
  dsimp only
  rwa [hfirst, hcount]

end

/-- The number of pages that start below an address. -/
def pageCount (address : ℕ) : ℕ := (address + 4095) / 4096

/-- Rounding an address of the user half up to a page. -/
lemma pageCeil_eq {address : ℕ} (h : address ≤ nsVmmUserTop) :
    pageCeil address = pageCount address * 4096 ∧ pageCount address * 4096 ≤ nsVmmUserTop := by
  unfold nsVmmUserTop at *
  refine ⟨(and_not64_mask (address + 4095) 12).trans ?_, ?_⟩ <;> unfold pageCount <;> omega

/-- `pages` with the contents `c` for the pages that start between two addresses. -/
def between (a b q : ℕ) : Option Page :=
  if a ≤ q * nsPageSize ∧ q * nsPageSize < b then c else pages q

/-- The pages between two addresses, by their numbers. -/
lemma fill_pageCount (a b : ℕ) :
    fill c (pageCount a) (pageCount b - pageCount a) pages = between c pages a b := by
  funext q
  unfold fill between pageCount nsPageSize
  exact if_congr (by omega) rfl rfl

/-- Up to an address with no more pages there are none in between. -/
lemma between_eq_self {a b : ℕ} (hba : pageCount b ≤ pageCount a) :
    between c pages a b = pages := by
  rw [← fill_pageCount, Nat.sub_eq_zero_of_le hba, fill_zero]

end

/-! ### Calls -/

/-- The break lies between its base and its limit, and the heap pages that are mapped are those that
the break covers. -/
structure BreakOk (p : UserSpace Page) : Prop where
  base_le : p.userBrkBase ≤ p.userBrk
  le_limit : p.userBrk ≤ p.userBrkLimit
  limit_le : p.userBrkLimit ≤ nsVmmUserTop
  mapped_iff : ∀ q, p.userBrkBase ≤ q * nsPageSize → q * nsPageSize < p.userBrkLimit →
    ((p.pages q).isSome ↔ q * nsPageSize < p.userBrk)

/-- The process after its break has moved: the pages that the break now covers are zero, and those
that it covers no more are gone. -/
def UserSpace.moved (zero : Page) (p : UserSpace Page) (new : ℕ) : UserSpace Page :=
  { p with
    userBrk := new
    pages := between none (between (some zero) p.pages p.userBrk new) new p.userBrk }

variable (zero : Page) (available : ℕ → Bool) {p : UserSpace Page}

/-- Between two breaks within the bounds, the pages between them are mapped or unmapped, or there is
an error and nothing changes. -/
lemma adjustBreak_cases (h : BreakOk p) {new : ℕ} (hbase : p.userBrkBase ≤ new)
    (hlimit : new ≤ p.userBrkLimit) :
    adjustBreak zero available p p.userBrk new =
        (0, { p with pages := (p.moved zero new).pages }) ∨
      adjustBreak zero available p p.userBrk new = (-nsEnomem, p) := by
  obtain ⟨hold, hold'⟩ := pageCeil_eq (h.le_limit.trans h.limit_le)
  obtain ⟨hnew, hnew'⟩ := pageCeil_eq (hlimit.trans h.limit_le)
  unfold adjustBreak UserSpace.moved
  rw [if_neg (by omega), hold, hnew]
  rcases lt_trichotomy (pageCount new) (pageCount p.userBrk) with hlt | heq | hgt
  · rw [if_neg (by omega), if_pos (by omega), unmapRange_pages p.pages hlt hold', fill_pageCount,
      between_eq_self (some zero) p.pages hlt.le]
    exact .inl rfl
  · rw [if_neg (by omega), if_neg (by omega), between_eq_self _ _ heq.ge,
      between_eq_self _ _ heq.le]
    exact .inl rfl
  · have hmap := allocMap_pages zero available p.pages hgt hnew'
    rw [fill_pageCount] at hmap
    rw [if_pos (by omega), between_eq_self none _ hgt.le]
    rcases hmap with hmap | hmap
    · rw [hmap]
      exact .inl rfl
    · rw [hmap]
      exact .inr rfl

/-- The break moves to where it is asked to, or there is an error and nothing changes. -/
lemma moveBreak_cases (h : BreakOk p) (new : ℕ) (hnew : p.userBrkBase ≤ new) :
    (new ≤ p.userBrkLimit ∧
        moveBreak zero available p new = ((p.userBrk : ℤ), p.moved zero new)) ∨
      ∃ e : ℤ, e < 0 ∧ moveBreak zero available p new = (e, p) := by
  have hold : (BitVec.ofNat 64 p.userBrk).toInt = p.userBrk := by
    have hbrk := h.le_limit.trans h.limit_le
    unfold nsVmmUserTop at hbrk
    have hnat : (BitVec.ofNat 64 p.userBrk).toNat = p.userBrk := Nat.mod_eq_of_lt (by omega)
    rw [BitVec.toInt_eq_toNat_of_lt (by omega), hnat]
  unfold moveBreak
  split_ifs with hlimit
  · exact .inr ⟨_, by decide, rfl⟩
  · rw [hold]
    have hle : new ≤ p.userBrkLimit := not_lt.1 hlimit
    rcases adjustBreak_cases zero available h hnew hle with hr | hr
    · rw [hr]
      exact .inl ⟨hle, rfl⟩
    · rw [hr]
      exact .inr ⟨_, by decide, rfl⟩

/-- A call moves the break by its increment and returns the old one, or it fails and changes
nothing. -/
lemma sbrk_cases (h : BreakOk p) (rdi : BitVec 64) :
    (∃ new : ℕ, (new : ℤ) = p.userBrk + rdi.toInt ∧ p.userBrkBase ≤ new ∧ new ≤ p.userBrkLimit ∧
      sbrk zero available p rdi = ((p.userBrk : ℤ), p.moved zero new)) ∨
      ∃ e : ℤ, e < 0 ∧ sbrk zero available p rdi = (e, p) := by
  have hbase := h.base_le
  have hmove := moveBreak_cases zero available h
  unfold sbrk
  rcases lt_or_ge rdi.toInt 0 with hneg | hpos
  · rw [if_neg (by omega)]
    by_cases hlow : (-(rdi.toInt + 1)).toNat + 1 > p.userBrk - p.userBrkBase
    · rw [if_pos hlow]
      exact .inr ⟨_, by decide, rfl⟩
    · rw [if_neg hlow]
      exact (hmove _ (by omega)).imp_left fun h => ⟨_, by omega, by omega, h⟩
  · rw [if_pos hpos]
    split_ifs with hover
    · exact .inr ⟨_, by decide, rfl⟩
    · exact (hmove _ (by omega)).imp_left fun h => ⟨_, by omega, by omega, h⟩

/-- What a call promises: it returns the old break and moves the break by the increment, or it fails
and changes nothing; and a page that stays mapped keeps its contents. -/
structure SbrkKeeps (p : UserSpace Page) (rdi : BitVec 64) (r : ℤ × UserSpace Page) : Prop where
  returns : 0 ≤ r.1 → r.1 = p.userBrk ∧ (r.2.userBrk : ℤ) = p.userBrk + rdi.toInt
  fails : r.1 < 0 → r.2 = p
  contents : ∀ q, (p.pages q).isSome → (r.2.pages q).isSome → r.2.pages q = p.pages q

/-- Moving the break keeps the process in order, and pages that stay mapped keep their contents. -/
lemma BreakOk.moved (h : BreakOk p) {new : ℕ} (hbase : p.userBrkBase ≤ new)
    (hlimit : new ≤ p.userBrkLimit) :
    BreakOk (p.moved zero new) ∧ ∀ q, (p.pages q).isSome → ((p.moved zero new).pages q).isSome →
      (p.moved zero new).pages q = p.pages q := by
  have hle := h.base_le
  refine ⟨⟨hbase, hlimit, h.limit_le, fun q hlo hhi => ?_⟩, fun q hq hq' => ?_⟩
  · have hiff := h.mapped_iff q hlo hhi
    simp only [UserSpace.moved, between]
    split_ifs with hdown hup
    · simpa using hdown.1
    · simpa using hup.2
    · rw [hiff]
      omega
  · have hheap := fun hlo hhi => (h.mapped_iff q hlo hhi).1 hq
    simp only [UserSpace.moved, between] at hq' ⊢
    split_ifs at hq' ⊢ with hdown hup
    · exact absurd hq' Bool.false_ne_true
    · exact absurd (hheap (by omega) (by omega)) (by omega)
    · rfl

/-! ### Runs -/

/-- A step of the process: it calls `SBRK` while the kernel can map the pages `available`, or it
stores to one of its pages. -/
inductive BreakEvent (Page : Type)
  | sbrk (available : ℕ → Bool) (rdi : BitVec 64)
  | store (q : ℕ) (contents : Page)

def UserSpace.step (p : UserSpace Page) : BreakEvent Page → UserSpace Page
  | .sbrk available rdi => (sbrk zero available p rdi).2
  | .store q contents =>
    { p with pages := update p.pages q ((p.pages q).map fun _ => contents) }

/-- If the step is a call, it does what calls promise. -/
def CallKeeps (p : UserSpace Page) : BreakEvent Page → Prop
  | .sbrk available rdi => SbrkKeeps p rdi (sbrk zero available p rdi)
  | .store _ _ => True

/-- An event keeps the process in order, and is as `CallKeeps` says. -/
lemma BreakOk.step (h : BreakOk p) (e : BreakEvent Page) :
    BreakOk (p.step zero e) ∧ CallKeeps zero p e := by
  cases e with
  | sbrk available rdi =>
    simp only [UserSpace.step, CallKeeps]
    rcases sbrk_cases zero available h rdi with ⟨new, hnew, hbase, hlimit, hr⟩ | ⟨e, he, hr⟩
    · obtain ⟨hok, hkeep⟩ := h.moved zero hbase hlimit
      rw [hr]
      exact ⟨hok, fun _ => ⟨rfl, hnew⟩, fun hneg => absurd hneg (by simp), hkeep⟩
    · rw [hr]
      exact ⟨h, fun hpos => absurd hpos (by simpa using he), fun _ => rfl, fun _ _ _ => rfl⟩
  | store q contents =>
    refine ⟨⟨h.base_le, h.le_limit, h.limit_le, fun r hlo hhi => ?_⟩, trivial⟩
    refine Iff.trans ?_ (h.mapped_iff r hlo hhi)
    rcases eq_or_ne r q with rfl | hr
    · simp [UserSpace.step]
    · simp [UserSpace.step, hr]

/-- The break of a new image, as `ns_proc_build_process_image` places it: at its base, with no page
of the heap mapped. -/
structure NewImage (p : UserSpace Page) : Prop where
  brk_eq : p.userBrk = p.userBrkBase
  base_le : p.userBrkBase ≤ p.userBrkLimit
  limit_le : p.userBrkLimit ≤ nsVmmUserTop
  unmapped : ∀ q, p.userBrkBase ≤ q * nsPageSize → q * nsPageSize < p.userBrkLimit →
    p.pages q = none

/-- A new image is in order. -/
lemma NewImage.ok (h : NewImage p) : BreakOk p where
  base_le := h.brk_eq.ge
  le_limit := h.brk_eq.trans_le h.base_le
  limit_le := h.limit_le
  mapped_iff q hlo hhi := by
    rw [h.unmapped q hlo hhi, h.brk_eq]
    simpa using hlo

/-- In every run from a new image, whatever the increments and whichever pages can be mapped at each
call, the break lies between its base and its limit, the heap pages that are mapped are those that
the break covers, and every call does what calls promise. -/
theorem break_kept_throughout (hp : NewImage p) (es : List (BreakEvent Page)) :
    Always (UserSpace.step zero) BreakOk p es ∧
      AllSteps (UserSpace.step zero) (CallKeeps zero) p es := by
  have halways := always_of_inv (fun _ e h => (h.step zero e).1) hp.ok es
  exact ⟨halways, halways.allSteps fun _ e h => (h.step zero e).2⟩

/-- A heap of two pages and a half. -/
def smallImage : UserSpace Bool :=
  { userBrkBase := 0x400000, userBrk := 0x400000, userBrkLimit := 0x402800, pages := fun _ => none }

/-- The second call finds no frame for its second page, and the last one gives a page back. -/
def smallCalls : List (BreakEvent Bool) :=
  [.sbrk (fun _ => true) 1, .store 0x400 true, .sbrk (fun q => q == 0x401) 0x2000,
    .sbrk (fun _ => true) 0x1000, .sbrk (fun _ => true) (-0x1001)]

theorem break_kept_throughout_smallCalls :
    NewImage smallImage ∧ Always (UserSpace.step false) BreakOk smallImage smallCalls ∧
      AllSteps (UserSpace.step false) (CallKeeps false) smallImage smallCalls := by
  have hp : NewImage smallImage := ⟨rfl, by decide, by decide, fun _ _ _ => rfl⟩
  exact ⟨hp, break_kept_throughout false hp smallCalls⟩

end Northstar
