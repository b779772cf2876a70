import Northstar.Proc.Elf

/-! # What an accepted ELF image looks like

Every header field is any word, so each computation of the plan is either checked for overflow or
bounded by an earlier check. `ElfPlan.Ok` is the invariant of the loop over the program headers:
what has been planned lies inside the user range page by page, no two segments share a page, and
the sizes add up without loss. -/

namespace Northstar

/-! ### Helpers -/

section

variable {a b : ℕ}

/-- `elf_add` gives the sum, which fits, or it stops. -/
lemma elfAdd_spec (ha : a < 2 ^ 64) (hb : b < 2 ^ 64) :
    Exact (elfAdd a b) fun sum => sum = a + b ∧ a + b < 2 ^ 64 :=
  exact_addWord_check ha hb ElfError.overflow

/-- `elf_mul` gives the product, which fits, or it stops. -/
lemma elfMul_spec : Exact (elfMul a b) fun v => v = a * b ∧ a * b < 2 ^ 64 := by
  refine .require fun hfit => ?_
  have hlt : a * b < 2 ^ 64 := by
    rcases Nat.eq_zero_or_pos a with rfl | hpos
    · simp
    · have hb : b ≤ uint64Max / a := by
        by_contra hgt
        exact hfit ⟨hpos.ne', Nat.lt_of_not_le hgt⟩
      calc a * b ≤ a * (uint64Max / a) := Nat.mul_le_mul_left a hb
        _ ≤ uint64Max := Nat.mul_div_le uint64Max a
        _ < 2 ^ 64 := by decide
  exact (exact_mulWord hlt).mono fun v hv => ⟨hv, hlt⟩

/-- What `is_power_of_two` accepts is a power of two. -/
lemma isPowerOfTwo_spec {value : ℕ} (h : value < 2 ^ 64) :
    Exact (isPowerOfTwo value) fun power => power = true → ∃ k, value = 2 ^ k := by
  refine .ite (fun _ => .pure nofun) fun hne => ?_
  refine (exact_subWord (Nat.one_le_iff_ne_zero.mpr hne) h).bind ?_
  rintro below rfl
  exact .pure fun hzero => exists_two_pow_of_and_pred hne (of_decide_eq_true hzero)

/-- Rounding down to a power of two. -/
lemma and_not64_pred {k : ℕ} (ha : a < 2 ^ 64) : a &&& not64 (2 ^ k - 1) = a / 2 ^ k * 2 ^ k := by
  rw [and_not64_mask, Nat.mod_eq_of_lt ha]

/-- `elf_align_up` rounds up, or it stops. -/
lemma elfAlignUp_spec {value k : ℕ} (hk : 2 ^ k < 2 ^ 64) :
    Exact (elfAlignUp value (2 ^ k)) fun v =>
      v = (value + (2 ^ k - 1)) / 2 ^ k * 2 ^ k ∧ value + (2 ^ k - 1) < 2 ^ 64 := by
  have hpos : 0 < 2 ^ k := by positivity
  refine (exact_subWord hpos hk).bind ?_
  rintro mask rfl
  refine (exact_subWord (a := uint64Max) (b := 2 ^ k - 1) (by unfold uint64Max; omega)
    (by decide)).bind ?_
  rintro limit rfl
  refine .require fun hle => ?_
  have hlt : value + (2 ^ k - 1) < 2 ^ 64 := by
    unfold uint64Max at hle
    omega
  refine (exact_addWord hlt).bind ?_
  rintro sum rfl
  exact .pure ⟨and_not64_pred hlt, hlt⟩

end

/-- A range that `range_in_file` accepts lies in the file. -/
lemma rangeInFile_spec (source : ElfSource) (offset length : ℕ) :
    Exact (rangeInFile source offset length) fun inside =>
      inside = true → offset + length ≤ source.size := by
  refine .ite (fun hle => ?_) fun _ => .pure nofun
  refine (exact_subWord hle source.size_lt).bind ?_
  rintro rest rfl
  refine .pure fun hin => ?_
  have := of_decide_eq_true hin
  omega

/-- Reading from the source does not wrap. -/
lemma sourceRead_spec (source : ElfSource) (offset n : ℕ) :
    Exact (sourceRead source offset n) fun _ => True :=
  (rangeInFile_spec source offset n).bind fun _ _ => .require fun _ => .require fun _ =>
    .pure trivial

/-- A mapping is writable if the segment is. -/
lemma convertFlags_write (flags : ℕ) :
    (convertFlags flags).testBit elfMapWrite = flags.testBit pfW := by
  unfold convertFlags
  generalize flags.testBit pfR = readable, flags.testBit pfW = writable, flags.testBit pfX = exec
  revert readable writable exec
  decide

/-- A mapping is executable if the segment is. -/
lemma convertFlags_exec (flags : ℕ) :
    (convertFlags flags).testBit elfMapExec = flags.testBit pfX := by
  unfold convertFlags
  generalize flags.testBit pfR = readable, flags.testBit pfW = writable, flags.testBit pfX = exec
  revert readable writable exec
  decide

/-- A configuration that `valid_config` accepts. -/
structure ElfConfig.Valid (config : ElfConfig) : Prop where
  power : ∃ k, config.pageSize.toNat = 2 ^ k
  segments : config.maxSegments.toNat ≤ elfMaxLoadSegments

/-- What `valid_config` accepts is valid. -/
lemma validConfig_spec (config : ElfConfig) :
    Exact (validConfig config) fun valid => valid = true → config.Valid := by
  refine (isPowerOfTwo_spec config.pageSize.toNat_lt).bind fun power hpower =>
    .pure fun hvalid => ?_
  simp only [Bool.and_eq_true, decide_eq_true_eq] at hvalid
  exact ⟨hpower hvalid.1.1.1.1.1, hvalid.1.2⟩

/-! ### The invariant of the loop -/

/-- A segment that may be mapped. -/
structure ElfSegment.Ok (source : ElfSource) (config : ElfConfig) (segment : ElfSegment) :
    Prop where
  low : config.userMin.toNat ≤ segment.address
  high : segment.address + segment.memorySize ≤ config.userMax.toNat
  mapLow : segment.mapAddress =
    segment.address / config.pageSize.toNat * config.pageSize.toNat
  mapHigh : segment.mapAddress + segment.mapSize =
    (segment.address + segment.memorySize + (config.pageSize.toNat - 1)) / config.pageSize.toNat *
      config.pageSize.toNat
  mapFits : segment.mapAddress + segment.mapSize < 2 ^ 64
  file : segment.fileOffset + segment.fileSize ≤ source.size
  fileSize : segment.fileSize ≤ segment.memorySize
  permissions : segment.flags.testBit elfMapWrite = true →
    segment.flags.testBit elfMapExec = true → config.allowWritableExecutable = true

/-- The pages of two segments are apart. -/
def ElfSegment.Apart (a b : ElfSegment) : Prop :=
  a.mapAddress + a.mapSize ≤ b.mapAddress ∨ b.mapAddress + b.mapSize ≤ a.mapAddress

/-- What the loop has planned. -/
structure ElfPlan.Ok (source : ElfSource) (config : ElfConfig) (plan : ElfPlan) : Prop where
  segments : ∀ segment ∈ plan.segments, segment.Ok source config
  apart : plan.segments.Pairwise ElfSegment.Apart
  total : plan.totalMapped = (plan.segments.map ElfSegment.mapSize).sum
  room : plan.totalMapped ≤ config.maxImageSize.toNat

section

variable {source : ElfSource} {config : ElfConfig}

/-- A segment that passes the test overlaps none of the earlier ones. -/
lemma checkOverlap_spec {segment : ElfSegment} {memoryEnd mapEnd : ℕ} {priors : List ElfSegment}
    (hok : ∀ prior ∈ priors, prior.Ok source config) :
    Exact (checkOverlap segment memoryEnd mapEnd priors) fun _ => ∀ prior ∈ priors,
      ¬ (segment.mapAddress < prior.mapAddress + prior.mapSize ∧ prior.mapAddress < mapEnd) := by
  induction priors with
  | nil => exact .pure (by simp)
  | cons prior priors ih =>
    have hprior := hok prior (List.mem_cons_self ..)
    have hmax := config.userMax.toNat_lt
    have hfits : prior.address + prior.memorySize < 2 ^ 64 := by
      have := hprior.high
      omega
    refine (exact_addWord hfits).bind ?_
    rintro priorEnd rfl
    refine (exact_addWord hprior.mapFits).bind ?_
    rintro priorMapEnd rfl
    refine .require fun _ => .require fun hpages => ?_
    refine (ih fun p hp => hok p (List.mem_cons_of_mem _ hp)).mono fun _ hrest => ?_
    exact List.forall_mem_cons.mpr ⟨hpages, hrest⟩

/-- A segment that is planned keeps the plan in order. -/
lemma planSegment_spec (hvalid : config.Valid) {bias : ℕ} (hbias : bias < 2 ^ 64) (ph : Elf64Phdr)
    {plan : ElfPlan} (h : plan.Ok source config) :
    Exact (planSegment source config bias ph plan) fun plan' => plan'.Ok source config := by
  obtain ⟨k, hk⟩ := hvalid.power
  have hpage : 2 ^ k < 2 ^ 64 := hk ▸ config.pageSize.toNat_lt
  have hpos : 0 < 2 ^ k := by positivity
  have hoffset : ph.offset < 2 ^ 64 := ph.le_lt 8 8
  have hvaddr : ph.vaddr < 2 ^ 64 := ph.le_lt 16 8
  have hfilesz : ph.filesz < 2 ^ 64 := ph.le_lt 32 8
  have hmemsz : ph.memsz < 2 ^ 64 := ph.le_lt 40 8
  have halign : ph.align < 2 ^ 64 := ph.le_lt 48 8
  refine .require fun _ => .require fun hfile => ?_
  refine Exact.bind (P := fun _ => True) (.ite (fun _ => ?_) fun _ => .pure trivial)
    fun power _ => .require fun _ => ?_
  · exact (isPowerOfTwo_spec halign).mono fun _ _ => trivial
  have haligned : 1 ≤ (if ph.align > 1 then ph.align else 1) ∧
      (if ph.align > 1 then ph.align else 1) < 2 ^ 64 := by
    split_ifs <;> omega
  refine (exact_subWord haligned.1 haligned.2).bind fun low _ => .require fun _ => ?_
  refine (rangeInFile_spec source ph.offset ph.filesz).bind fun inside hinside => ?_
  refine .require fun hin => .require fun hperm => ?_
  refine (elfAdd_spec hvaddr hbias).bind ?_
  rintro address ⟨hsumAddr, hfitAddr⟩
  have haddr : address < 2 ^ 64 := hsumAddr ▸ hfitAddr
  refine (elfAdd_spec haddr hmemsz).bind ?_
  rintro memoryEnd ⟨rfl, hmem⟩
  refine (elfAdd_spec hoffset hfilesz).bind fun _ _ => .require fun hbounds => ?_
  rw [not_or, not_or] at hbounds
  obtain ⟨hlow, hhigh, -⟩ := hbounds
  rw [hk]
  refine (exact_subWord hpos hpage).bind ?_
  rintro pageMask rfl
  refine (elfAlignUp_spec hpage).bind ?_
  rintro mapEnd ⟨hmapEnd, hround⟩
  have hmapAddress : address &&& not64 (2 ^ k - 1) = address / 2 ^ k * 2 ^ k :=
    and_not64_pred haddr
  rw [hmapAddress]
  have hdown : address / 2 ^ k * 2 ^ k ≤ address := Nat.div_mul_le_self _ _
  have hup : address + ph.memsz ≤ mapEnd ∧ mapEnd < 2 ^ 64 := by
    have hmod := Nat.div_add_mod' (address + ph.memsz + (2 ^ k - 1)) (2 ^ k)
    omega
  refine (exact_subWord (a := mapEnd) (b := address / 2 ^ k * 2 ^ k) (by omega) hup.2).bind ?_
  rintro mapSize rfl
  have hsum : address / 2 ^ k * 2 ^ k + (mapEnd - address / 2 ^ k * 2 ^ k) = mapEnd := by omega
  refine (checkOverlap_spec h.segments).bind fun _ hpages => .require fun hsize => ?_
  have hmax := config.maxImageSize.toNat_lt
  refine (exact_subWord (Nat.le_of_not_lt hsize) hmax).bind ?_
  rintro room rfl
  refine .require fun hroom => ?_
  refine (exact_addWord (by omega)).bind ?_
  rintro totalMapped rfl
  refine .pure ⟨fun segment hseg => ?_, ?_, ?_, by dsimp only; omega⟩
  · rcases List.mem_append.mp hseg with hold | hnew
    · exact h.segments segment hold
    · obtain rfl := List.mem_singleton.mp hnew
      refine ⟨Nat.le_of_not_lt hlow, Nat.le_of_not_lt hhigh, by rw [hk], ?_, ?_, hinside hin, hfile,
        fun hwrite hexec => ?_⟩
      · rw [hk, hsum, hmapEnd]
      · rw [hsum]
        exact hup.2
      · rw [convertFlags_write] at hwrite
        rw [convertFlags_exec] at hexec
        by_contra hnot
        exact hperm ⟨hwrite, hexec, by simpa using hnot⟩
  · refine List.pairwise_append.mpr ⟨h.apart, List.pairwise_singleton .., fun prior hprior => ?_⟩
    intro segment hseg
    obtain rfl := List.mem_singleton.mp hseg
    have hnot := hpages prior hprior
    unfold ElfSegment.Apart
    dsimp only at hnot ⊢
    omega
  · simp [h.total]

/-- The loop over the program headers keeps the plan in order. -/
lemma planHeaders_spec (hvalid : config.Valid) {eh : Elf64Ehdr} {bias : ℕ} (hbias : bias < 2 ^ 64)
    (rounds : ℕ) {index : ℕ} (hindex : index + rounds < 2 ^ 16) {plan : ElfPlan}
    (h : plan.Ok source config) :
    Exact (planHeaders source config eh bias rounds index plan) fun plan' =>
      plan'.Ok source config := by
  induction rounds generalizing index plan with
  | zero => exact .pure h
  | succ rounds ih =>
    refine elfMul_spec.bind ?_
    rintro product ⟨rfl, hproduct⟩
    refine (elfAdd_spec (eh.le_lt 32 8) hproduct).bind fun phOffset _ => ?_
    refine (sourceRead_spec source phOffset 56).failAs.bind fun ph _ => .require fun _ => ?_
    refine Exact.bind (P := ElfPlan.Ok source config)
      (.ite (fun _ => .pure h) fun _ => planSegment_spec hvalid hbias ph h) fun plan' hplan => ?_
    refine (exact_addWord (by omega)).bind ?_
    rintro next rfl
    exact ih (by omega) hplan

/-- An entry that is found lies in an executable segment. -/
lemma findEntry_spec {entry : ℕ} {segments : List ElfSegment}
    (hok : ∀ segment ∈ segments, segment.Ok source config) :
    Exact (findEntry entry segments) fun found => found = true →
      ∃ segment ∈ segments, segment.flags.testBit elfMapExec = true ∧ segment.address ≤ entry ∧
        entry < segment.address + segment.memorySize := by
  induction segments with
  | nil => exact .pure nofun
  | cons segment segments ih =>
    have hrest : Exact (findEntry entry segments) fun found => found = true →
        ∃ segment' ∈ segment :: segments, segment'.flags.testBit elfMapExec = true ∧
          segment'.address ≤ entry ∧ entry < segment'.address + segment'.memorySize := by
      refine (ih fun s hs => hok s (List.mem_cons_of_mem _ hs)).mono fun found hfound htrue => ?_
      obtain ⟨s, hs, hprop⟩ := hfound htrue
      exact ⟨s, List.mem_cons_of_mem _ hs, hprop⟩
    refine .ite (fun hexec => ?_) fun _ => hrest
    have hhigh := (hok segment (List.mem_cons_self ..)).high
    have hmax := config.userMax.toNat_lt
    refine (exact_addWord (by omega)).bind ?_
    rintro finish rfl
    refine .ite (fun hlt => .pure fun _ => ?_) fun _ => hrest
    exact ⟨segment, List.mem_cons_self .., hexec.1, hexec.2, hlt⟩

/-- What `ns_elf64_plan` has established when it accepts an image. -/
lemma nsElf64Plan_spec (source : ElfSource) (config : ElfConfig) :
    Exact (nsElf64Plan source config) fun image => 0 < config.pageSize.toNat ∧
      (∀ segment ∈ image.segments, segment.Ok source config) ∧
      image.segments.Pairwise ElfSegment.Apart ∧
      (image.segments.map ElfSegment.mapSize).sum ≤ config.maxImageSize.toNat ∧
      ∃ segment ∈ image.segments, segment.flags.testBit elfMapExec = true ∧
        segment.address ≤ image.entry ∧ image.entry < segment.address + segment.memorySize := by
  refine (validConfig_spec config).bind fun valid hvalid => .require fun htrue => ?_
  have hconfig := hvalid htrue
  obtain ⟨k, hk⟩ := hconfig.power
  have hpos : 0 < config.pageSize.toNat := by
    rw [hk]
    positivity
  refine (sourceRead_spec source 0 64).failAs.bind fun (eh : Elf64Ehdr) _ => ?_
  have hheader : Exact (checkHeader config eh) fun _ => True :=
    .require fun _ => .require fun _ => .require fun _ => .require fun _ => .require fun _ =>
      .require fun _ => .require fun _ => Exact.check.mono fun _ _ => trivial
  refine hheader.bind fun _ _ => ?_
  have hsegments := hconfig.segments
  unfold elfMaxLoadSegments at hsegments
  refine (exact_addWord (by omega)).bind ?_
  rintro most rfl
  refine .require fun hphnum => elfMul_spec.bind ?_
  rintro phSize ⟨rfl, hphSize⟩
  refine (elfAdd_spec (eh.le_lt 32 8) hphSize).bind fun phEnd _ => .require fun _ => ?_
  have hbias : (if eh.etype = etDyn then config.dynamicBias.toNat else 0) < 2 ^ 64 := by
    split_ifs
    · exact config.dynamicBias.toNat_lt
    · positivity
  refine (exact_subWord hpos config.pageSize.toNat_lt).bind fun pageMask _ => .require fun _ => ?_
  have hstart : ElfPlan.Ok source config
      { segments := [], totalMapped := 0, imageStart := config.userMax.toNat,
        imageEnd := config.userMin.toNat } :=
    ⟨nofun, .nil, rfl, Nat.zero_le _⟩
  refine (planHeaders_spec hconfig hbias _ (by omega) hstart).bind fun plan hplan =>
    .require fun _ => ?_
  refine (elfAdd_spec (eh.le_lt 24 8) hbias).bind fun entry _ => ?_
  refine (findEntry_spec hplan.segments).bind fun found hfound => .require fun hin => ?_
  exact .pure ⟨hpos, hplan.segments, hplan.apart, hplan.total ▸ hplan.room, hfound hin⟩

/-- The pages of a segment lie inside a user range that is made of whole pages. -/
lemma ElfSegment.Ok.pages {segment : ElfSegment} (h : segment.Ok source config)
    (hpos : 0 < config.pageSize.toNat) (hmin : config.pageSize.toNat ∣ config.userMin.toNat)
    (hmax : config.pageSize.toNat ∣ config.userMax.toNat) :
    config.userMin.toNat ≤ segment.mapAddress ∧
      segment.mapAddress + segment.mapSize ≤ config.userMax.toNat ∧
      segment.mapAddress ≤ segment.address ∧
      segment.address + segment.memorySize ≤ segment.mapAddress + segment.mapSize := by
  obtain ⟨lo, hlo⟩ := hmin
  obtain ⟨hi, hhi⟩ := hmax
  have hlow := h.low
  have hhigh := h.high
  rw [h.mapHigh, h.mapLow]
  set page := config.pageSize.toNat
  set finish := segment.address + segment.memorySize
  have hdown : lo ≤ segment.address / page :=
    (Nat.le_div_iff_mul_le hpos).mpr (by rw [Nat.mul_comm, ← hlo]; exact hlow)
  have hup : (finish + (page - 1)) / page ≤ hi := by
    refine Nat.le_of_lt_succ ((Nat.div_lt_iff_lt_mul hpos).mpr ?_)
    rw [Nat.succ_mul, Nat.mul_comm hi page, ← hhi]
    omega
  refine ⟨?_, ?_, Nat.div_mul_le_self _ _, ?_⟩
  · rw [hlo, Nat.mul_comm]
    exact Nat.mul_le_mul_right page hdown
  · rw [hhi, Nat.mul_comm page hi]
    exact Nat.mul_le_mul_right page hup
  · have hmod := Nat.div_add_mod' (finish + (page - 1)) page
    have hlt := Nat.mod_lt (finish + (page - 1)) hpos
    omega

end

/-- For every source of bytes and every configuration whose user range is made of whole pages: if
`ns_elf64_plan` accepts the image, no computation has wrapped; the page ranges of the segments are
pairwise disjoint, lie inside the user range and hold the memory of their segments; no segment is
both writable and executable unless the configuration allows it; the file range of every segment
lies inside the bytes and is no longer than its memory; the mapped sizes add up to at most the
configured maximum; and the entry point lies inside an executable segment. -/
theorem elf_plan_admits_safe_images (source : ElfSource) (config : ElfConfig)
    (hmin : config.pageSize.toNat ∣ config.userMin.toNat)
    (hmax : config.pageSize.toNat ∣ config.userMax.toNat) {image : ElfImage} {wrapped : Bool}
    (h : nsElf64Plan source config false = .ok image wrapped) :
    wrapped = false ∧
    image.segments.Pairwise ElfSegment.Apart ∧
    (∀ segment ∈ image.segments,
      (config.userMin.toNat ≤ segment.mapAddress ∧
        segment.mapAddress + segment.mapSize ≤ config.userMax.toNat ∧
        segment.mapAddress ≤ segment.address ∧
        segment.address + segment.memorySize ≤ segment.mapAddress + segment.mapSize) ∧
      (config.allowWritableExecutable = false →
        ¬ (segment.flags.testBit elfMapWrite = true ∧ segment.flags.testBit elfMapExec = true)) ∧
      segment.fileOffset + segment.fileSize ≤ source.bytes.length ∧
      segment.fileSize ≤ segment.memorySize) ∧
    (image.segments.map ElfSegment.mapSize).sum ≤ config.maxImageSize.toNat ∧
    ∃ segment ∈ image.segments, segment.flags.testBit elfMapExec = true ∧
      segment.address ≤ image.entry ∧ image.entry < segment.address + segment.memorySize := by
  obtain ⟨hwrapped, hpos, hok, hapart, hroom, hentry⟩ := (nsElf64Plan_spec source config).ok h
  refine ⟨hwrapped, hapart, fun segment hseg => ?_, hroom, hentry⟩
  have hsegment := hok segment hseg
  refine ⟨hsegment.pages hpos hmin hmax, fun hnot hboth => ?_, hsegment.file, hsegment.fileSize⟩
  rw [hsegment.permissions hboth.1 hboth.2] at hnot
  cases hnot

/-- The configuration of `ns_proc_build_process_image`, with the default stack. -/
def imageConfig : ElfConfig :=
  { userMin := 0x10000, userMax := 0x7fffffdff000, pageSize := 4096, dynamicBias := 0x40000000,
    maxImageSize := 0x20000000, maxSegments := 32, allowDynamic := true,
    allowWritableExecutable := false }

/-- An image with one executable segment of 120 bytes, which holds the headers themselves. -/
def smallElf : ElfSource :=
  { bytes :=
      [0x7f, 69, 76, 70, 2, 1, 1, 0, 0, 0, 0, 0, 0, 0, 0, 0, 2, 0, 62, 0, 1, 0, 0, 0,
       0, 0, 1, 0, 0, 0, 0, 0, 64, 0, 0, 0, 0, 0, 0, 0, 0, 0, 0, 0, 0, 0, 0, 0,
       0, 0, 0, 0, 64, 0, 56, 0, 1, 0, 0, 0, 0, 0, 0, 0,
       1, 0, 0, 0, 5, 0, 0, 0, 0, 0, 0, 0, 0, 0, 0, 0, 0, 0, 1, 0, 0, 0, 0, 0,
       0, 0, 0, 0, 0, 0, 0, 0, 120, 0, 0, 0, 0, 0, 0, 0, 120, 0, 0, 0, 0, 0, 0, 0,
       0, 16, 0, 0, 0, 0, 0, 0]
    readable := fun _ _ => true
    size_lt := by decide }

/-- The plan of that image. -/
def smallElfPlan : Option ElfImage :=
  match nsElf64Plan smallElf imageConfig false with
  | .ok image _ => some image
  | .error _ _ => none

/-- An image of one segment. -/
theorem elf_plan_admits_safe_images_smallElf :
    ∃ image wrapped, nsElf64Plan smallElf imageConfig false = .ok image wrapped ∧
      wrapped = false ∧ image.entry = 0x10000 ∧
      ∃ segment ∈ image.segments, segment.flags.testBit elfMapExec = true := by
  have hplan : smallElfPlan = some
      { entry := 0x10000, imageStart := 0x10000, imageEnd := 0x11000, loadBias := 0,
        segments := [{ address := 0x10000, memorySize := 120, fileSize := 120, fileOffset := 0,
                       mapAddress := 0x10000, mapSize := 4096, flags := 13 }] } := by
    decide +kernel
  unfold smallElfPlan at hplan
  split at hplan
  · next image wrapped hcall =>
    obtain ⟨hwrapped, -, -, -, segment, hseg, hexec, -⟩ :=
      elf_plan_admits_safe_images smallElf imageConfig (by decide) (by decide) hcall
    exact ⟨image, wrapped, hcall, hwrapped, by rw [Option.some.inj hplan], segment, hseg, hexec⟩
  · cases hplan

end Northstar
