import Northstar.Mm.PmmRun

/-! # Memory maps with short entries

`ns_boot_info_validate` accepts memory maps whose entries have fewer than 24 bytes, as older
firmware makes them. `entry_at` steps by the size that the boot information announces, but
`entry_enabled` reads the attributes at offset 20 of every entry, which are then bytes of the entry
behind it. An entry that reads as disabled for this reason is lost. `ns_pmm_init` comes to the
frames of the same map with entries of 24 bytes and no attributes exactly if all that the lost
entries say is said by the rest of the map (`Redundant`). -/

namespace Northstar

open List

/-- What is compared of two allocators: the bitmaps, the frame count and the free count. -/
def Pmm.outcome (pmm : Pmm) : Bitmap × Bitmap × ℕ × ℕ :=
  (pmm.allocatedBitmap, pmm.reservedBitmap, pmm.frameCount, pmm.freeFrames)

section Init

variable {boot : BootInfo} {entries : ℕ → UInt8} {bitmapPhys storageSize : ℕ}

/-- The tests of `ns_pmm_init` on its arguments. -/
def PmmStarts (boot : BootInfo) (entries : ℕ → UInt8) (bitmapPhys storageSize : ℕ) : Prop :=
  bitmapPhys % nsPageSize = 0 ∧ nsBootInfoValidate boot = true ∧
    nsPmmStorageRequired boot entries ≠ 0 ∧ nsPmmStorageRequired boot entries ≤ storageSize

/-- `ns_pmm_init` refuses what it cannot start with. -/
lemma nsPmmInit_of_not_starts (h : ¬ PmmStarts boot entries bitmapPhys storageSize) :
    (nsPmmInit boot entries bitmapPhys storageSize).toOption = none := by
  unfold nsPmmInit
  dsimp only
  split_ifs with harg hroom
  · rfl
  · rfl
  all_goals
    rw [not_or, not_not, Bool.not_eq_false] at harg
    rw [not_or, Nat.not_lt] at hroom
    exact absurd ⟨harg.1, harg.2, hroom.1, hroom.2⟩ h

/-- `ns_pmm_init` finds its own invariants to hold: if its arguments pass, it comes up with exactly
the safe frames free. -/
lemma PmmStarts.nsPmmInit (h : PmmStarts boot entries bitmapPhys storageSize) :
    ∃ pmm, nsPmmInit boot entries bitmapPhys storageSize = .ok pmm ∧ pmm.Ok ∧
      pmm.frameCount = discoverLimit boot entries / nsPageSize ∧
      pmm.Marks (FrameSafe boot entries bitmapPhys (nsPmmStorageRequired boot entries)) := by
  obtain ⟨hphys, hvalid, hpos, hroom⟩ := h
  obtain ⟨hok, hlimit, hmarks⟩ := pmmScan_spec boot entries bitmapPhys
  have hframes : (pmmScan boot entries bitmapPhys).frameCount =
      discoverLimit boot entries / nsPageSize := by
    rw [← hlimit, hok.limit, Nat.mul_div_cancel _ (by decide)]
  have hne : (pmmScan boot entries bitmapPhys).frameCount ≠ 0 := by
    rintro hzero
    rw [hframes] at hzero
    refine hpos ?_
    unfold nsPmmStorageRequired
    simp [hvalid, hzero]
  have hcheck : ∀ {pmm : Pmm}, pmm.Ok → pmm.frameCount ≠ 0 → nsPmmCheckInvariants pmm = true := by
    intro pmm hpmm hne
    unfold nsPmmCheckInvariants
    simp only [Bool.and_eq_true, decide_eq_true_eq, all_eq_true, mem_range, Bool.or_eq_true,
      Bool.not_eq_true']
    refine ⟨⟨⟨hne, hpmm.bytes⟩, fun f hf => ?_⟩, hpmm.free.symm⟩
    cases hres : pmm.reservedBitmap.get f with
    | false => exact .inl rfl
    | true => exact .inr (hpmm.reserved f hf hres)
  unfold Northstar.nsPmmInit
  rw [if_neg (by simp [hphys, hvalid]), if_neg (by omega)]
  dsimp only
  have hok' : Pmm.Ok { pmmScan boot entries bitmapPhys with
      nextHint := if nsPmmLowMemoryReserve / nsPageSize ≥
        (pmmScan boot entries bitmapPhys).frameCount then 0 else nsPmmLowMemoryReserve / nsPageSize
      initialized := true } :=
    ⟨hok.bytes, hok.limit, hok.small, hok.tail, hok.reserved, hok.free⟩
  exact ⟨_, if_pos (hcheck hok' hne), hok', hframes,
    ⟨hmarks.reserved, hmarks.allocated, hmarks.tail⟩⟩

/-- Allocators that track the same frames have the same bitmaps and counts if the same frames are
free. -/
lemma Pmm.Marks.outcome_eq_iff {P Q : ℕ → Prop} {pmm pmm' : Pmm} (hok : pmm.Ok) (hok' : pmm'.Ok)
    (hP : pmm.Marks P) (hQ : pmm'.Marks Q) (hframes : pmm'.frameCount = pmm.frameCount) :
    pmm'.outcome = pmm.outcome ↔ ∀ f < pmm.frameCount, Q f ↔ P f := by
  have hbytes : pmm'.bytesPerBitmap = pmm.bytesPerBitmap := by
    rw [hok.bytes, hok'.bytes, hframes]
  constructor
  · intro h f hf
    have halloc : pmm'.allocatedBitmap = pmm.allocatedBitmap := congrArg Prod.fst h
    rw [← hP.allocated f hf, ← hQ.allocated f (hframes ▸ hf), halloc]
  · intro h
    have hbit : ∀ {b b' : Bool} {f : ℕ}, f < pmm.frameCount → (b = false ↔ P f) →
        (b' = false ↔ Q f) → b' = b := by
      intro b b' f hf hb hb'
      rw [Bool.eq_iff_iff, ← not_iff_not, Bool.not_eq_true, Bool.not_eq_true, hb, hb', h f hf]
    have halloc : pmm'.allocatedBitmap = pmm.allocatedBitmap := by
      refine Nat.eq_of_testBit_eq fun f => ?_
      rcases Nat.lt_or_ge f pmm.frameCount with hf | hf
      · exact hbit hf (hP.allocated f hf) (hQ.allocated f (hframes ▸ hf))
      · refine ((hQ.tail f (hframes ▸ hf)).2.trans ?_).trans (hP.tail f hf).2.symm
        rw [hbytes]
    have hreserved : pmm'.reservedBitmap = pmm.reservedBitmap := by
      refine Nat.eq_of_testBit_eq fun f => ?_
      rcases Nat.lt_or_ge f pmm.frameCount with hf | hf
      · exact hbit hf (hP.reserved f hf) (hQ.reserved f (hframes ▸ hf))
      · refine ((hQ.tail f (hframes ▸ hf)).1.trans ?_).trans (hP.tail f hf).1.symm
        rw [hbytes]
    unfold Pmm.outcome
    rw [hok.free, hok'.free, halloc, hreserved, hframes]

end Init

/-! ### The end of the managed memory -/

section Limit

variable {boot : BootInfo} {entries : ℕ → UInt8}

/-- The frame behind the entry, cut at the end of the direct map. -/
def E820Entry.endFrame (entry : E820Entry) (directMapSize : ℕ) : ℕ :=
  (min (entry.base + entry.length) directMapSize + (nsPageSize - 1)) / nsPageSize

/-- The entry counts for the end of the managed memory. -/
def E820Entry.Extends (entry : E820Entry) : Prop :=
  entryEnabled entry = true ∧ entry.length ≠ 0

/-- A loop that keeps the largest of the values it does not skip. -/
lemma foldl_max_spec {α : Type} (skip : α → Bool) (value : α → ℕ) (L : List α) (a : ℕ) :
    let m := L.foldl (fun a x => if skip x then a else max a (value x)) a
    a ≤ m ∧ (∀ x ∈ L, skip x = false → value x ≤ m) ∧
      (m = a ∨ ∃ x ∈ L, skip x = false ∧ m = value x) := by
  induction L generalizing a with
  | nil => exact ⟨le_rfl, by simp, .inl rfl⟩
  | cons x L ih =>
    rw [foldl_cons]
    obtain ⟨hle, hall, hsome⟩ := ih (if skip x then a else max a (value x))
    refine ⟨?_, forall_mem_cons.mpr ⟨fun hx => ?_, hall⟩, ?_⟩
    · refine le_trans ?_ hle
      split_ifs
      · exact le_rfl
      · exact le_max_left _ _
    · refine le_trans ?_ hle
      rw [hx]
      exact le_max_right _ _
    · rcases hsome with heq | ⟨y, hy, hskip, heq⟩
      · by_cases hx : skip x = true
        · exact .inl (heq.trans (if_pos hx))
        · have hmax := heq.trans (if_neg hx)
          rcases le_total a (value x) with hle | hle
          · exact .inr ⟨x, mem_cons_self, by simpa using hx, hmax.trans (max_eq_right hle)⟩
          · exact .inl (hmax.trans (max_eq_left hle))
      · exact .inr ⟨y, mem_cons_of_mem _ hy, hskip, heq⟩

/-- The test of `discover_limit` for an entry that counts. -/
lemma E820Entry.extends_iff (entry : E820Entry) :
    (!entryEnabled entry || decide (entry.length = 0)) = false ↔ entry.Extends := by
  simp [E820Entry.Extends]

/-- The end of an entry as `discover_limit` has it: if the sum wraps, the last address. -/
lemma saturatedEnd_eq (boot : BootInfo) (entries : ℕ → UInt8) (i : ℕ) :
    (if (addOverflowU64 (entryAt boot entries i).base (entryAt boot entries i).length).2 then
        uint64Max
      else (addOverflowU64 (entryAt boot entries i).base (entryAt boot entries i).length).1) =
      min ((entryAt boot entries i).base + (entryAt boot entries i).length) uint64Max := by
  have hb := entryAt_base_lt boot entries i
  have hl := entryAt_length_lt boot entries i
  unfold uint64Max
  rcases Nat.lt_or_ge ((entryAt boot entries i).base + (entryAt boot entries i).length) (2 ^ 64)
    with h | h
  · rw [addOverflowU64_of_lt h]
    simp only [Bool.false_eq_true, if_false]
    omega
  · rw [addOverflowU64_of_le hb hl h]
    simp only [if_true]
    omega

/-- The number of managed frames, if the entries end at `m`. -/
lemma managedFrames_eq (hvalid : nsBootInfoValidate boot = true) (m : ℕ) :
    alignUpPageSaturating
        (if boot.directMapSize ≠ 0 ∧ m > boot.directMapSize then boot.directMapSize else m) /
        nsPageSize = (min m boot.directMapSize + (nsPageSize - 1)) / nsPageSize := by
  obtain ⟨hne, hmod, hmap⟩ := directMapSize_le hvalid
  unfold nsPageSize
  split_ifs with hcut
  · rw [alignUpPageSaturating_eq (by omega)]
    omega
  · rw [alignUpPageSaturating_eq (by omega)]
    omega

/-- The managed memory ends behind the entry that reaches farthest. -/
lemma discoverLimit_spec (entries : ℕ → UInt8) (hvalid : nsBootInfoValidate boot = true) :
    (∀ i < boot.e820EntryCount, (entryAt boot entries i).Extends →
      (entryAt boot entries i).endFrame boot.directMapSize ≤
        discoverLimit boot entries / nsPageSize) ∧
    (discoverLimit boot entries / nsPageSize = 0 ∨
      ∃ i < boot.e820EntryCount, (entryAt boot entries i).Extends ∧
        discoverLimit boot entries / nsPageSize =
          (entryAt boot entries i).endFrame boot.directMapSize) := by
  set g : ℕ → ℕ := fun i => min ((entryAt boot entries i).base + (entryAt boot entries i).length)
    uint64Max with hg
  obtain ⟨-, hall, hsome⟩ := foldl_max_spec (fun i => !entryEnabled (entryAt boot entries i) ||
    decide ((entryAt boot entries i).length = 0)) g (range boot.e820EntryCount) 0
  have hmin : ∀ i, min (g i) boot.directMapSize =
      min ((entryAt boot entries i).base + (entryAt boot entries i).length) boot.directMapSize := by
    intro i
    have hmap := (directMapSize_le hvalid).2.2
    rw [hg]
    unfold uint64Max
    dsimp only
    omega
  unfold discoverLimit
  dsimp only
  simp only [saturatedEnd_eq]
  rw [managedFrames_eq hvalid]
  constructor
  · intro i hi hext
    rw [E820Entry.endFrame, ← hmin]
    have hle := hall i (mem_range.mpr hi) ((E820Entry.extends_iff _).mpr hext)
    exact Nat.div_le_div_right (Nat.add_le_add_right (min_le_min_right _ hle) _)
  · rcases hsome with heq | ⟨i, hi, hext, heq⟩
    · refine .inl ?_
      rw [heq]
      simp
    · refine .inr ⟨i, mem_range.mp hi, (E820Entry.extends_iff _).mp hext, ?_⟩
      rw [heq, hmin, E820Entry.endFrame]

/-- A frame of an entry that counts is managed if it is in the direct map. -/
lemma lt_discoverLimit (hvalid : nsBootInfoValidate boot = true) {i f : ℕ}
    (hi : i < boot.e820EntryCount) (hen : entryEnabled (entryAt boot entries i) = true)
    (hcov : (entryAt boot entries i).Covers f) (hf : f < boot.directMapSize / nsPageSize) :
    f < discoverLimit boot entries / nsPageSize := by
  have hlast := (discoverLimit_spec entries hvalid).1 i hi
  unfold E820Entry.Covers nsPageSize at hcov
  have hlen : (entryAt boot entries i).length ≠ 0 := by omega
  refine lt_of_lt_of_le ?_ (hlast ⟨hen, hlen⟩)
  unfold E820Entry.endFrame nsPageSize at *
  omega

/-- The managed memory is inside the direct map. -/
lemma discoverLimit_div_le (hvalid : nsBootInfoValidate boot = true) :
    discoverLimit boot entries / nsPageSize ≤ boot.directMapSize / nsPageSize := by
  obtain ⟨-, hmod, -⟩ := directMapSize_le hvalid
  rcases (discoverLimit_spec entries hvalid).2 with hzero | ⟨i, -, -, heq⟩
  · rw [hzero]
    exact Nat.zero_le _
  · rw [heq]
    unfold E820Entry.endFrame nsPageSize at *
    omega

end Limit

/-! ### The same map with entries of 24 bytes -/

section Legacy

variable (boot : BootInfo) (entries : ℕ → UInt8) (checksum : ℕ)

/-- The table with entries of 24 bytes, without attributes. -/
def widenEntries (i : ℕ) : UInt8 :=
  if i % 24 < 20 then entries (i / 24 * boot.e820EntrySize + i % 24) else 0

/-- The boot information for that table. -/
def widenBoot : BootInfo := (boot.putLe 44 4 24).putLe 16 4 checksum

/-- The widened table has entries of 24 bytes. -/
lemma e820EntrySize_widenBoot : (widenBoot boot checksum).e820EntrySize = 24 :=
  (Bytes.le_putLe_of_disjoint).trans (Bytes.le_putLe (by omega) (by norm_num))

/-- The entries of the wide table are those of the narrow one without their attributes. -/
lemma entryAt_widen (i : ℕ) : entryAt (widenBoot boot checksum) (widenEntries boot entries) i =
    { entryAt boot entries i with attributes := 0 } := by
  have hfield : ∀ {off w}, off + w ≤ 20 →
      leNat (fun j => widenEntries boot entries (i * 24 + off + j)) w =
        leNat (fun j => entries (i * boot.e820EntrySize + off + j)) w := by
    intro off w h
    refine leNat_congr fun j hj => ?_
    have hdiv : (i * 24 + off + j) / 24 = i := by omega
    have hmod : (i * 24 + off + j) % 24 = off + j := by omega
    rw [widenEntries, hdiv, hmod, if_pos (by omega), Nat.add_assoc]
  have hzero : leNat (fun j => widenEntries boot entries (i * 24 + 20 + j)) 4 = 0 :=
    leNat_of_zero fun j hj => if_neg (by omega)
  simp only [entryAt, e820EntrySize_widenBoot, hzero]
  rw [hfield (by norm_num), hfield (by norm_num), hfield (by norm_num)]

variable {boot} {checksum}

/-- Only the entry size and the checksum differ. -/
lemma le_widenBoot {off w : ℕ} (h : off + w ≤ 16 ∨ 20 ≤ off ∧ off + w ≤ 44 ∨ 48 ≤ off) :
    (widenBoot boot checksum).le off w = boot.le off w :=
  (Bytes.le_putLe_of_disjoint).trans (Bytes.le_putLe_of_disjoint)

/-- The reserved ranges are the same but for the table itself. -/
lemma mem_bootRegions_widen {r : ℕ × ℕ} {bitmapPhys size : ℕ} :
    r ∈ bootRegions (widenBoot boot checksum) bitmapPhys size ↔
      r = (boot.e820EntriesPhys, boot.e820EntryCount * 24) ∨
        r ∈ (bootRegions boot bitmapPhys size).eraseIdx 6 := by
  unfold bootRegions
  simp (disch := omega) only [le_widenBoot, e820EntrySize_widenBoot, cons_append,
    eraseIdx_cons_succ, eraseIdx_cons_zero, mem_cons]
  tauto

/-- Of the regions reserved at boot, only that of the table depends on the size of its entries. -/
lemma mem_bootRegions {r : ℕ × ℕ} {bitmapPhys size : ℕ} :
    r ∈ bootRegions boot bitmapPhys size ↔
      r = (boot.e820EntriesPhys, boot.e820EntryCount * boot.e820EntrySize) ∨
        r ∈ (bootRegions boot bitmapPhys size).eraseIdx 6 := by
  unfold bootRegions
  simp only [cons_append, eraseIdx_cons_succ, eraseIdx_cons_zero, mem_cons]
  tauto

variable (boot) (checksum) (bitmapPhys : ℕ)

/-- The entry reads as disabled. -/
def Lost (i : ℕ) : Prop :=
  i < boot.e820EntryCount ∧ entryEnabled (entryAt boot entries i) = false

/-- An entry of the wide table that is not usable memory, or a range of the boot information,
meets the frame. -/
def Taken (f : ℕ) : Prop :=
  (∃ i < boot.e820EntryCount, (entryAt boot entries i).type ≠ e820Usable ∧
    Overlaps (entryAt boot entries i).base (entryAt boot entries i).length f) ∨
  ∃ r ∈ bootRegions (widenBoot boot checksum) bitmapPhys (nsPmmStorageRequired boot entries),
    Overlaps r.1 r.2 f

/-- The lost entries say nothing that the rest of the map does not say: another entry reaches as
far, the usable frames among theirs are usable or reserved without them, and their reserved frames,
and those of the longer table, are not free without them. -/
structure Redundant : Prop where
  accepted : nsBootInfoValidate (widenBoot boot checksum) = true
  ends : ∀ i, Lost boot entries i → (entryAt boot entries i).length ≠ 0 →
    ∃ j < boot.e820EntryCount, (entryAt boot entries j).Extends ∧
      (entryAt boot entries i).endFrame boot.directMapSize ≤
        (entryAt boot entries j).endFrame boot.directMapSize
  usable : ∀ i, Lost boot entries i → (entryAt boot entries i).type = e820Usable →
    ∀ f < boot.directMapSize / nsPageSize, (entryAt boot entries i).Covers f →
      FrameSafe boot entries bitmapPhys (nsPmmStorageRequired boot entries) f ∨
        Taken boot entries checksum bitmapPhys f
  firmware : ∀ i, Lost boot entries i → (entryAt boot entries i).type ≠ e820Usable →
    ∀ f < boot.directMapSize / nsPageSize,
      Overlaps (entryAt boot entries i).base (entryAt boot entries i).length f →
      ¬ FrameSafe boot entries bitmapPhys (nsPmmStorageRequired boot entries) f
  table : ∀ f < boot.directMapSize / nsPageSize,
    Overlaps boot.e820EntriesPhys (boot.e820EntryCount * 24) f →
    ¬ FrameSafe boot entries bitmapPhys (nsPmmStorageRequired boot entries) f

variable {boot entries checksum bitmapPhys}
  (hvalid : nsBootInfoValidate boot = true)
  (hvalid' : nsBootInfoValidate (widenBoot boot checksum) = true)

include hvalid hvalid' in
/-- Both tables have the same managed memory if no lost entry is the one that reaches farthest. -/
lemma discoverLimit_widen_iff :
    discoverLimit (widenBoot boot checksum) (widenEntries boot entries) / nsPageSize =
        discoverLimit boot entries / nsPageSize ↔
      ∀ i, Lost boot entries i → (entryAt boot entries i).length ≠ 0 →
        ∃ j < boot.e820EntryCount, (entryAt boot entries j).Extends ∧
          (entryAt boot entries i).endFrame boot.directMapSize ≤
            (entryAt boot entries j).endFrame boot.directMapSize := by
  obtain ⟨hall, hsome⟩ := discoverLimit_spec entries hvalid
  obtain ⟨hall', hsome'⟩ := discoverLimit_spec (widenEntries boot entries) hvalid'
  have hcount : (widenBoot boot checksum).e820EntryCount = boot.e820EntryCount :=
    le_widenBoot (by omega)
  have hmap : (widenBoot boot checksum).directMapSize = boot.directMapSize :=
    le_widenBoot (by omega)
  simp only [entryAt_widen, hcount, hmap] at hall' hsome'
  constructor
  · rintro heq i ⟨hi, -⟩ hlen
    have hlast : (entryAt boot entries i).endFrame boot.directMapSize ≤ _ := hall' i hi ⟨rfl, hlen⟩
    rw [heq] at hlast
    rcases hsome with hzero | ⟨j, hj, hext, hmax⟩
    · have hne := (directMapSize_le hvalid).1
      rw [hzero] at hlast
      unfold E820Entry.endFrame nsPageSize at hlast
      omega
    · exact ⟨j, hj, hext, hlast.trans_eq hmax⟩
  · intro hends
    refine le_antisymm ?_ ?_
    · rcases hsome' with hzero | ⟨i, hi, ⟨-, hlen⟩, hmax⟩
      · rw [hzero]
        exact Nat.zero_le _
      · rw [hmax]
        cases hen : entryEnabled (entryAt boot entries i) with
        | true => exact hall i hi ⟨hen, hlen⟩
        | false =>
          obtain ⟨j, hj, hext, hle⟩ := hends i ⟨hi, hen⟩ hlen
          exact hle.trans (hall j hj hext)
    · rcases hsome with hzero | ⟨i, hi, ⟨-, hlen⟩, hmax⟩
      · rw [hzero]
        exact Nat.zero_le _
      · rw [hmax]
        exact hall' i hi ⟨rfl, hlen⟩

/-- What is free with entries of 24 bytes. -/
lemma frameSafe_widen_iff {f : ℕ} :
    FrameSafe (widenBoot boot checksum) (widenEntries boot entries) bitmapPhys
        (nsPmmStorageRequired boot entries) f ↔
      (∃ i < boot.e820EntryCount, (entryAt boot entries i).type = e820Usable ∧
        (entryAt boot entries i).Covers f) ∧ ¬ Taken boot entries checksum bitmapPhys f := by
  have hcount : (widenBoot boot checksum).e820EntryCount = boot.e820EntryCount :=
    le_widenBoot (by omega)
  rw [frameSafe_iff, Taken, not_or]
  simp only [entryAt_widen, hcount, not_exists, not_and, and_assoc]
  refine and_congr ?_ (and_congr ?_ Iff.rfl)
  · exact ⟨fun ⟨i, hi, _, hty, hcov⟩ => ⟨i, hi, hty, hcov⟩,
      fun ⟨i, hi, hty, hcov⟩ => ⟨i, hi, rfl, hty, hcov⟩⟩
  · exact ⟨fun h i hi hty => h i hi rfl hty, fun h i hi _ hty => h i hi hty⟩

/-- A frame that an entry exposes, and that is not taken in the wide table, is free in the narrow
one. -/
lemma FrameSafe.of_not_taken (hsize : boot.e820EntrySize < 24) {i f : ℕ}
    (hi : i < boot.e820EntryCount) (hexp : (entryAt boot entries i).Exposes f)
    (hnot : ¬ Taken boot entries checksum bitmapPhys f) :
    FrameSafe boot entries bitmapPhys (nsPmmStorageRequired boot entries) f := by
  obtain ⟨hfirm, hregion⟩ := not_or.mp hnot
  refine frameSafe_iff.mpr ⟨⟨⟨i, hi, hexp⟩, fun j hj _ hty hover => ?_⟩, fun r hr hover => ?_⟩
  · exact hfirm ⟨j, hj, hty, hover⟩
  · rcases mem_bootRegions.mp hr with rfl | hr
    · refine hregion ⟨_, mem_bootRegions_widen.mpr (.inl rfl), ?_⟩
      obtain ⟨x, hlow, hhigh, hframe⟩ := hover
      exact ⟨x, hlow, hhigh.trans_le (Nat.add_le_add_left (Nat.mul_le_mul_left _ hsize.le) _),
        hframe⟩
    · exact hregion ⟨r, mem_bootRegions_widen.mpr (.inr hr), hover⟩

include hvalid in
/-- With the same managed memory, the same frames are free if the lost entries, and the longer
table, make no difference to a frame. -/
lemma frameSafe_alike_iff (hsize : boot.e820EntrySize < 24)
    (hends : ∀ i, Lost boot entries i → (entryAt boot entries i).length ≠ 0 →
      ∃ j < boot.e820EntryCount, (entryAt boot entries j).Extends ∧
        (entryAt boot entries i).endFrame boot.directMapSize ≤
          (entryAt boot entries j).endFrame boot.directMapSize)
    (hvalid' : nsBootInfoValidate (widenBoot boot checksum) = true) :
    (∀ f < discoverLimit boot entries / nsPageSize,
      FrameSafe (widenBoot boot checksum) (widenEntries boot entries) bitmapPhys
          (nsPmmStorageRequired boot entries) f ↔
        FrameSafe boot entries bitmapPhys (nsPmmStorageRequired boot entries) f) ↔
      Redundant boot entries checksum bitmapPhys := by
  constructor
  · intro halike
    -- a free frame is managed, so it is free in the wide table too and nothing takes it there
    have hfree : ∀ f < boot.directMapSize / nsPageSize,
        FrameSafe boot entries bitmapPhys (nsPmmStorageRequired boot entries) f →
        ¬ Taken boot entries checksum bitmapPhys f := by
      intro f hf hsafe
      obtain ⟨i, hi, hen, -, hcov⟩ := hsafe.usable
      exact (frameSafe_widen_iff.mp ((halike f (lt_discoverLimit hvalid hi hen hcov hf)).mpr
        hsafe)).2
    refine ⟨hvalid', hends, fun i hlost hty f hf hcov => ?_, fun i hlost hty f hf hover hsafe => ?_,
      fun f hf hover hsafe => ?_⟩
    · by_cases htaken : Taken boot entries checksum bitmapPhys f
      · exact .inr htaken
      · refine .inl ((halike f ?_).mp (frameSafe_widen_iff.mpr ⟨⟨i, hlost.1, hty, hcov⟩, htaken⟩))
        have hlen : (entryAt boot entries i).length ≠ 0 := by
          unfold E820Entry.Covers nsPageSize at hcov
          omega
        obtain ⟨j, hj, hext, hle⟩ := hends i hlost hlen
        have hlast := (discoverLimit_spec entries hvalid).1 j hj hext
        unfold E820Entry.Covers at hcov
        unfold E820Entry.endFrame nsPageSize at *
        omega
    · exact hfree f hf hsafe (.inl ⟨i, hlost.1, hty, hover⟩)
    · exact hfree f hf hsafe (.inr ⟨_, mem_bootRegions_widen.mpr (.inl rfl), hover⟩)
  · intro h f hf
    have hin : f < boot.directMapSize / nsPageSize := hf.trans_le (discoverLimit_div_le hvalid)
    rw [frameSafe_widen_iff]
    constructor
    · rintro ⟨⟨i, hi, hty, hcov⟩, hnot⟩
      cases hen : entryEnabled (entryAt boot entries i) with
      | true => exact .of_not_taken hsize hi ⟨hen, hty, hcov⟩ hnot
      | false => exact (h.usable i ⟨hi, hen⟩ hty f hin hcov).resolve_right hnot
    · intro hsafe
      obtain ⟨i, hi, hen, hty, hcov⟩ := hsafe.usable
      refine ⟨⟨i, hi, hty, hcov⟩, ?_⟩
      rintro (⟨j, hj, htyj, hover⟩ | ⟨r, hr, hover⟩)
      · cases henj : entryEnabled (entryAt boot entries j) with
        | true => exact hsafe.firmware j hj henj htyj hover
        | false => exact h.firmware j ⟨hj, henj⟩ htyj f hin hover hsafe
      · rcases mem_bootRegions_widen.mp hr with rfl | hr
        · exact h.table f hin hover hsafe
        · exact (frameSafe_iff.mp hsafe).2 r (mem_bootRegions.mpr (.inr hr)) hover

include hvalid hvalid' in
/-- With the same managed memory, both tables need the same storage. -/
lemma nsPmmStorageRequired_widen
    (hlimit : discoverLimit (widenBoot boot checksum) (widenEntries boot entries) / nsPageSize =
      discoverLimit boot entries / nsPageSize) :
    nsPmmStorageRequired (widenBoot boot checksum) (widenEntries boot entries) =
      nsPmmStorageRequired boot entries := by
  unfold nsPmmStorageRequired
  rw [hvalid, hvalid', hlimit]

include hvalid in
/-- For an accepted table of short entries `ns_pmm_init` comes to the bitmaps and counts of the same
table with entries of 24 bytes exactly if it refuses both, or what the lost entries say is said by
the rest of the map. -/
theorem pmm_legacy_entries_iff (hsize : boot.e820EntrySize < 24) (storageSize : ℕ) :
    (nsPmmInit (widenBoot boot checksum) (widenEntries boot entries) bitmapPhys
        storageSize).toOption.map Pmm.outcome =
      (nsPmmInit boot entries bitmapPhys storageSize).toOption.map Pmm.outcome ↔
    (¬ PmmStarts boot entries bitmapPhys storageSize ∧
      ¬ PmmStarts (widenBoot boot checksum) (widenEntries boot entries) bitmapPhys storageSize) ∨
    Redundant boot entries checksum bitmapPhys := by
  constructor
  · intro heq
    by_cases hstarts : PmmStarts boot entries bitmapPhys storageSize
    · refine .inr ?_
      obtain ⟨pmm, hinit, hok, hframes, hmarks⟩ := hstarts.nsPmmInit
      by_cases hstarts' : PmmStarts (widenBoot boot checksum) (widenEntries boot entries) bitmapPhys
          storageSize
      · obtain ⟨pmm', hinit', hok', hframes', hmarks'⟩ := hstarts'.nsPmmInit
        rw [hinit, hinit'] at heq
        have hout : pmm'.outcome = pmm.outcome := Option.some.inj heq
        have hcount : pmm'.frameCount = pmm.frameCount := congrArg (fun o => o.2.2.1) hout
        have hlimit := hframes'.symm.trans (hcount.trans hframes)
        have hends := (discoverLimit_widen_iff hvalid hstarts'.2.1).mp hlimit
        refine (frameSafe_alike_iff hvalid hsize hends hstarts'.2.1).mp ?_
        rw [nsPmmStorageRequired_widen hvalid hstarts'.2.1 hlimit] at hmarks'
        rw [← hframes]
        exact (hmarks.outcome_eq_iff hok hok' hmarks' hcount).mp hout
      · rw [nsPmmInit_of_not_starts hstarts', hinit] at heq
        cases heq
    · by_cases hstarts' : PmmStarts (widenBoot boot checksum) (widenEntries boot entries) bitmapPhys
          storageSize
      · obtain ⟨pmm', hinit', -⟩ := hstarts'.nsPmmInit
        rw [nsPmmInit_of_not_starts hstarts, hinit'] at heq
        cases heq
      · exact .inl ⟨hstarts, hstarts'⟩
  · rintro (⟨hstarts, hstarts'⟩ | h)
    · rw [nsPmmInit_of_not_starts hstarts, nsPmmInit_of_not_starts hstarts']
    · have hlimit := (discoverLimit_widen_iff hvalid h.accepted).mpr h.ends
      have hrequired := nsPmmStorageRequired_widen hvalid h.accepted hlimit
      by_cases hstarts : PmmStarts boot entries bitmapPhys storageSize
      · have hstarts' : PmmStarts (widenBoot boot checksum) (widenEntries boot entries) bitmapPhys
            storageSize := ⟨hstarts.1, h.accepted, by rw [hrequired]; exact hstarts.2.2⟩
        obtain ⟨pmm, hinit, hok, hframes, hmarks⟩ := hstarts.nsPmmInit
        obtain ⟨pmm', hinit', hok', hframes', hmarks'⟩ := hstarts'.nsPmmInit
        rw [hrequired] at hmarks'
        rw [hinit, hinit']
        refine congrArg some ((hmarks.outcome_eq_iff hok hok' hmarks'
          (hframes'.trans (hlimit.trans hframes.symm))).mpr ?_)
        rw [hframes]
        exact (frameSafe_alike_iff hvalid hsize h.ends h.accepted).mpr h
      · have hstarts' : ¬ PmmStarts (widenBoot boot checksum) (widenEntries boot entries) bitmapPhys
            storageSize := fun ⟨hphys, _, hroom⟩ => hstarts ⟨hphys, hvalid, hrequired ▸ hroom⟩
        rw [nsPmmInit_of_not_starts hstarts, nsPmmInit_of_not_starts hstarts']

/-- `smallBoot` with entries of 20 bytes. -/
def legacyBoot : BootInfo := smallBoot.putLe 44 4 20

/-- Its one entry reads as enabled, and the table is in low memory either way. -/
theorem pmm_legacy_entries_iff_smallBoot :
    (nsPmmInit (widenBoot legacyBoot 0) (widenEntries legacyBoot smallMap) 0x9000
        4096).toOption.map Pmm.outcome =
      (nsPmmInit legacyBoot smallMap 0x9000 4096).toOption.map Pmm.outcome := by
  have hlost : ∀ i, ¬ Lost legacyBoot smallMap i := by
    rintro i ⟨hi, hdisabled⟩
    have hone : legacyBoot.e820EntryCount = 1 := by decide +kernel
    obtain rfl : i = 0 := by omega
    exact absurd hdisabled (by decide +kernel)
  refine (pmm_legacy_entries_iff (by decide +kernel) (by decide +kernel) 4096).mpr
    (.inr ⟨by decide +kernel, ?_, ?_, ?_, ?_⟩)
  · exact fun i hi => absurd hi (hlost i)
  · exact fun i hi => absurd hi (hlost i)
  · exact fun i hi => absurd hi (hlost i)
  · rintro f - ⟨x, -, hx, hf⟩ hsafe
    have hend : legacyBoot.e820EntriesPhys + legacyBoot.e820EntryCount * 24 = 0x8018 := by
      decide +kernel
    exact hsafe.lowMemory ⟨x, Nat.zero_le x, by omega, hf⟩

/-- The entry of `smallMap` and behind it a reserved one, whose base is read as the attributes of
the first. -/
def legacyMap (i : ℕ) : UInt8 :=
  if i < 20 then smallMap i else if i < 28 then leByte 0x102000 (i - 20)
  else if i = 29 then 0x10 else if i = 36 then 2 else 0

/-- A map with entries of 20 bytes whose second, usable entry is ignored. -/
theorem pmm_legacy_entry_lost :
    let boot := legacyBoot.putLe 40 4 2
    nsBootInfoValidate boot = true ∧ nsBootInfoValidate (widenBoot boot 0) = true ∧
      (nsPmmInit (widenBoot boot 0) (widenEntries boot legacyMap) 0x9000 4096).toOption.map
        Pmm.freeFrames = some 1 ∧
      (nsPmmInit boot legacyMap 0x9000 4096).toOption.map Pmm.freeFrames = some 0 := by
  decide +kernel

end Legacy

end Northstar
