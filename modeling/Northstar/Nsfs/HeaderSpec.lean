import Northstar.Nsfs.Layout

/-! # Journal headers and superblock images

`HeaderOf state entries header` says what a header block made by `nsfs_make_journal_header`
contains. A COMMITTED header is accepted by `nsfs_validate_journal_header` exactly if its targets
are different blocks of the volume outside the journal, and an EMPTY one always is. A superblock
image is accepted by `nsfs_validate_superblock_image` if the superblock repeats a layout and its
counters are in range, and every superblock that is accepted repeats a layout. -/

namespace Northstar

open Bytes

variable {sb : Superblock} {l : Layout} {block header : Block} {entries : List (ℕ × Block)}
  {state txid : ℕ}

/-! ### Descriptors -/

/-- The `index`-th descriptor of a header block belongs to the redo image `e`. -/
structure DescriptorOf (block : Block) (index : ℕ) (e : ℕ × Block) : Prop where
  target : Journal.targetBlock block index = e.1
  checksum : Journal.dataChecksum block index = nsfsCrc32c e.2.toList
  flags : Journal.descriptorFlags block index = 0

lemma DescriptorOf.congr {block' : Block} {index : ℕ} {e : ℕ × Block}
    (h : DescriptorOf block index e)
    (heq : ∀ o w, 64 ≤ o → block'.le o w = block.le o w) : DescriptorOf block' index e where
  target := (heq _ _ (by omega)).trans h.target
  checksum := (heq _ _ (by omega)).trans h.checksum
  flags := (heq _ _ (by omega)).trans h.flags

/-- Storing descriptors changes nothing in front of them. -/
lemma le_putDescriptors {o w : ℕ} (entries : List (ℕ × Block)) :
    ∀ (block : Block) (index : ℕ), o + w ≤ 64 + 16 * index →
      (putDescriptors block index entries).le o w = block.le o w := by
  induction entries with
  | nil =>
    intro block index _
    rfl
  | cons e entries ih =>
    intro block index h
    rw [putDescriptors, ih _ _ (by omega), le_putLe_of_disjoint (by omega),
      le_putLe_of_disjoint (by omega), le_putLe_of_disjoint (by omega)]

/-- The descriptors that were put into a header. -/
lemma descriptorOf_putDescriptors (entries : List (ℕ × Block)) :
    ∀ (block : Block) (index : ℕ), 64 + 16 * (index + entries.length) ≤ 4096 →
      (∀ e ∈ entries, e.1 < 256 ^ 8) →
      ∀ k e, entries[k]? = some e → DescriptorOf (putDescriptors block index entries)
        (index + k) e := by
  induction entries with
  | nil =>
    intro block index _ _ k e hk
    simp at hk
  | cons e0 entries ih =>
    intro block index hroom htargets k e hk
    simp only [List.length_cons] at hroom
    rw [putDescriptors]
    cases k with
    | zero =>
      obtain rfl : e0 = e := by simpa using hk
      have hlt := htargets e0 List.mem_cons_self
      refine ⟨?_, ?_, ?_⟩
      · rw [Journal.targetBlock, Nat.add_zero index, le_putDescriptors _ _ _ (by omega),
          le_putLe_of_disjoint (by omega), le_putLe_of_disjoint (by omega),
          le_putLe (by omega) hlt]
      · rw [Journal.dataChecksum, Nat.add_zero index, le_putDescriptors _ _ _ (by omega),
          le_putLe_of_disjoint (by omega), le_putLe (by omega) (nsfsCrc32c_lt _)]
      · rw [Journal.descriptorFlags, Nat.add_zero index, le_putDescriptors _ _ _ (by omega),
          le_putLe (by omega) (by norm_num)]
    | succ k =>
      have htail := ih (((block.putLe (64 + 16 * index) 8 e0.1).putLe (64 + 16 * index + 8) 4
        (nsfsCrc32c e0.2.toList)).putLe (64 + 16 * index + 12) 4 0) (index + 1) (by omega)
        (fun e he => htargets e (List.mem_cons_of_mem _ he)) k e (by simpa using hk)
      rwa [Nat.add_assoc index 1 k, Nat.add_comm 1 k] at htail

/-! ### Headers -/

/-- What `nsfs_make_journal_header` puts into a header block. -/
structure HeaderOf (state : ℕ) (entries : List (ℕ × Block)) (header : Block) : Prop where
  magic : Journal.magic header = nsfsJournalMagic
  version : Journal.version header = 1
  headerSize : Journal.headerSize header = 64
  descriptorSize : Journal.descriptorSize header = 16
  state : Journal.state header = state
  entryCount : Journal.entryCount header = entries.length
  checksum : Journal.checksum header = nsfsCrc32c (Journal.setChecksum header 0).toList
  descriptor : ∀ k e, entries[k]? = some e → DescriptorOf header k e

section Base

variable (generation state txid count : ℕ)

/-- The fixed fields of a header. -/
lemma journalHeaderBase_fields (hstate : state < 256 ^ 4) (hcount : count < 256 ^ 4) :
    Journal.magic (journalHeaderBase generation state txid count) = nsfsJournalMagic ∧
    Journal.version (journalHeaderBase generation state txid count) = 1 ∧
    Journal.headerSize (journalHeaderBase generation state txid count) = 64 ∧
    Journal.descriptorSize (journalHeaderBase generation state txid count) = 16 ∧
    Journal.state (journalHeaderBase generation state txid count) = state ∧
    Journal.entryCount (journalHeaderBase generation state txid count) = count := by
  unfold journalHeaderBase Journal.magic Journal.version Journal.headerSize Journal.descriptorSize
    Journal.state Journal.entryCount
  refine ⟨?_, ?_, ?_, ?_, ?_, ?_⟩
  · simp (disch := norm_num) only [le_putLe_of_disjoint, le_putLe]
  · simp (disch := norm_num) only [le_putLe_of_disjoint, le_putLe]
  · simp (disch := norm_num) only [le_putLe_of_disjoint, le_putLe]
  · simp (disch := norm_num) only [le_putLe]
  · simp (disch := norm_num) only [le_putLe_of_disjoint]
    exact le_putLe (by norm_num) hstate
  · simp (disch := norm_num) only [le_putLe_of_disjoint]
    exact le_putLe (by norm_num) hcount

end Base

/-- `nsfs_make_journal_header` makes a header if there are not too many images. -/
lemma nsfsMakeJournalHeader_ok (hlen : entries.length ≤ sb.journalEntries)
    (hmax : entries.length ≤ 128)
    (hstate : state < 256 ^ 4) (htargets : ∀ e ∈ entries, e.1 < 256 ^ 8) :
    ∃ header, nsfsMakeJournalHeader sb state txid entries = .ok header ∧
      HeaderOf state entries header := by
  have hcount : entries.length < 256 ^ 4 := by
    omega
  obtain ⟨h1, h2, h3, h4, h5, h6⟩ :=
    journalHeaderBase_fields sb.generation state txid entries.length hstate hcount
  refine ⟨_, if_neg (by omega), ?_⟩
  have hfield : ∀ o w, o + w ≤ 44 ∨ 48 ≤ o → ∀ c : ℕ,
      Bytes.le ((Journal.setChecksum
          (putDescriptors (journalHeaderBase sb.generation state txid entries.length) 0 entries)
          0).putLe 44 4 c) o w =
        (putDescriptors (journalHeaderBase sb.generation state txid entries.length) 0 entries).le
          o w := by
    intro o w ho c
    rw [le_putLe_of_disjoint (by omega), le_putLe_of_disjoint (by omega)]
  have hfixed : ∀ o w, o + w ≤ 44 → ∀ c : ℕ,
      Bytes.le ((Journal.setChecksum
          (putDescriptors (journalHeaderBase sb.generation state txid entries.length) 0 entries)
          0).putLe 44 4 c) o w =
        (journalHeaderBase sb.generation state txid entries.length).le o w := by
    intro o w ho c
    rw [hfield o w (Or.inl ho) c, le_putDescriptors _ _ _ (by omega)]
  constructor
  · exact (hfixed 0 8 (by omega) _).trans h1
  · exact (hfixed 8 4 (by omega) _).trans h2
  · exact (hfixed 12 4 (by omega) _).trans h3
  · exact (hfixed 40 4 (by omega) _).trans h4
  · exact (hfixed 16 4 (by omega) _).trans h5
  · exact (hfixed 20 4 (by omega) _).trans h6
  · rw [Journal.checksum, le_putLe (by omega) (nsfsCrc32c_lt _), Journal.setChecksum,
      Journal.setChecksum, putLe_putLe, putLe_putLe]
  · intro k e hk
    have h := descriptorOf_putDescriptors entries
      (journalHeaderBase sb.generation state txid entries.length) 0 (by omega) htargets k e hk
    rw [Nat.zero_add] at h
    exact h.congr fun o w ho => hfield o w (Or.inr (by omega)) _

/-- A target that `nsfs_validate_journal_header` accepts. -/
def Superblock.Targets (sb : Superblock) (b : ℕ) : Prop :=
  b < sb.totalBlocks ∧ ¬ (sb.journalStart ≤ b ∧ b < sb.journalStart + sb.journalBlocks)

section

variable (h : HeaderOf state entries header)
include h

/-- The target of a descriptor. -/
lemma HeaderOf.target {k : ℕ} (hk : k < entries.length) :
    Journal.targetBlock header k = entries[k].1 :=
  (h.descriptor k entries[k] (List.getElem?_eq_getElem hk)).target

/-- The descriptors are accepted just if the targets are, and differ. -/
lemma HeaderOf.descriptorOk_iff :
    (∀ index < Journal.entryCount header, DescriptorOk sb header index) ↔
      (entries.map Prod.fst).Nodup ∧ ∀ e ∈ entries, sb.Targets e.1 := by
  rw [h.entryCount]
  constructor
  · intro hall
    constructor
    · rw [List.Nodup, List.pairwise_map, List.pairwise_iff_getElem]
      intro i j hi hj hij heq
      obtain ⟨-, -, -, hdistinct⟩ := hall j hj
      apply hdistinct i hij
      rw [h.target hi, h.target hj]
      exact heq
    · intro e he
      obtain ⟨k, hk, rfl⟩ := List.mem_iff_getElem.mp he
      obtain ⟨-, htotal, hjournal, -⟩ := hall k hk
      rw [h.target hk] at htotal hjournal
      exact ⟨htotal, hjournal⟩
  · rintro ⟨hnodup, htargets⟩ k hk
    obtain ⟨htotal, hjournal⟩ := htargets entries[k] (List.getElem_mem hk)
    have hflags := (h.descriptor k entries[k] (List.getElem?_eq_getElem hk)).flags
    refine ⟨hflags, ?_, ?_, ?_⟩
    · rw [h.target hk]
      exact htotal
    · rw [h.target hk]
      exact hjournal
    · intro prior hprior
      have hp : prior < entries.length := by omega
      rw [List.Nodup, List.pairwise_map, List.pairwise_iff_getElem] at hnodup
      rw [h.target hp, h.target hk]
      exact hnodup prior k hp hk hprior

/-- A header block with the right identification and checksum is judged by its state and its
descriptors. -/
lemma HeaderOf.validate_eq
    (hstate : state = nsfsJournalCommitted ∨ state = nsfsJournalEmpty ∧ entries = [])
    (hlen : entries.length ≤ sb.journalEntries) :
    nsfsValidateJournalHeader sb header =
      if ∀ index < Journal.entryCount header, DescriptorOk sb header index then .ok ()
      else .error .eio := by
  unfold nsfsValidateJournalHeader
  rw [if_neg, if_neg, if_neg]
  · rw [h.state, h.entryCount]
    rcases hstate with rfl | ⟨rfl, rfl⟩
    · rintro (⟨-, -, hne⟩ | hlong | ⟨h0, -⟩)
      · exact hne rfl
      · omega
      · exact absurd h0 (by decide)
    · rintro (⟨hne, -, -⟩ | hlong | ⟨-, hne⟩)
      · exact hne rfl
      · exact absurd hlong (by simp)
      · exact hne rfl
  · rw [not_not]
    exact h.checksum
  · rw [h.magic, h.version, h.headerSize, h.descriptorSize]
    simp

end

/-- A COMMITTED header is accepted exactly if its targets are different blocks of the volume outside
the journal. -/
lemma HeaderOf.validate_committed_iff (h : HeaderOf nsfsJournalCommitted entries header)
    (hlen : entries.length ≤ sb.journalEntries) :
    nsfsValidateJournalHeader sb header = .ok () ↔
      (entries.map Prod.fst).Nodup ∧ ∀ e ∈ entries, sb.Targets e.1 := by
  rw [h.validate_eq (Or.inl rfl) hlen, ← h.descriptorOk_iff]
  split
  · rename_i hall
    exact iff_of_true rfl hall
  · rename_i hnot
    exact iff_of_false (by simp) hnot

/-- An empty header is accepted. -/
lemma HeaderOf.validate_empty (h : HeaderOf nsfsJournalEmpty [] header) :
    nsfsValidateJournalHeader sb header = .ok () := by
  rw [h.validate_eq (Or.inr ⟨rfl, rfl⟩) (Nat.zero_le _), if_pos]
  rw [h.descriptorOk_iff]
  simp

/-! ### Superblocks -/

/-- The superblock of its image. -/
lemma slice_nsfsSuperblockImage (sb : Superblock) :
    ((nsfsSuperblockImage sb).slice 0 : Superblock) = nsfsSuperblockSeal sb :=
  slice_blit_self (by norm_num)

/-- A sealed superblock passes the checksum test. -/
lemma checksum_nsfsSuperblockSeal (sb : Superblock) :
    (nsfsSuperblockSeal sb).checksum =
      nsfsCrc32c ((nsfsSuperblockSeal sb).setChecksum 0).toList := by
  unfold nsfsSuperblockSeal Superblock.checksum Superblock.setChecksum
  rw [le_putLe (by norm_num) (nsfsCrc32c_lt _), putLe_putLe, putLe_putLe]

/-- Sealing changes the checksum only. -/
lemma le_nsfsSuperblockSeal (sb : Superblock) {o w : ℕ} (h : o + w ≤ 184) :
    Bytes.le (nsfsSuperblockSeal sb) o w = sb.le o w := by
  unfold nsfsSuperblockSeal Superblock.setChecksum
  rw [le_putLe_of_disjoint (by omega), le_putLe_of_disjoint (by omega)]

/-- Sealing a superblock leaves the layout alone. -/
lemma Superblock.Describes.seal (h : sb.Describes l) : (nsfsSuperblockSeal sb).Describes l :=
  Superblock.Describes.putLe (h.putLe (by simp [Superblock.Mutable])) (by simp [Superblock.Mutable])

/-- A superblock that repeats a layout passes the layout checks. -/
lemma Superblock.Describes.laidOut (h : sb.Describes l) (hl : l.Ok) : sb.LaidOut := by
  unfold Superblock.LaidOut
  rw [h.journalStart, h.journalBlocks, h.journalEntries, h.inodeBitmapStart, h.inodeBitmapBlocks,
    h.totalInodes, h.blockBitmapStart, h.blockBitmapBlocks, h.totalBlocks, h.inodeTableStart,
    h.inodeTableBlocks, h.dataStart]
  exact ⟨rfl, hl.journal, rfl, rfl, hl.inodeBitmap, rfl, hl.blockBitmap, rfl, hl.inodeTable, rfl,
    hl.data⟩

/-- The fields of a superblock that `nsfs_validate_superblock_image` checks besides the layout. -/
structure Superblock.Sound (sb : Superblock) (l : Layout) : Prop where
  state : sb.state = nsfsStateClean ∨ sb.state = nsfsStateDirty
  freeBlocks : sb.freeBlocks ≤ l.totalBlocks - l.dataStart
  freeInodes : sb.freeInodes ≤ l.inodeCount - 2

/-- The image of a superblock is accepted. -/
lemma validate_nsfsSuperblockImage (h : sb.Describes l) (hl : l.Ok) (hs : sb.Sound l) :
    nsfsValidateSuperblockImage (nsfsSuperblockImage sb) l.totalBlocks =
      .ok (nsfsSuperblockSeal sb) := by
  have hseal := h.seal
  have hstate : (nsfsSuperblockSeal sb).state = sb.state := le_nsfsSuperblockSeal sb (by norm_num)
  have hblocks : (nsfsSuperblockSeal sb).freeBlocks = sb.freeBlocks :=
    le_nsfsSuperblockSeal sb (by norm_num)
  have hinodes : (nsfsSuperblockSeal sb).freeInodes = sb.freeInodes :=
    le_nsfsSuperblockSeal sb (by norm_num)
  unfold nsfsValidateSuperblockImage
  simp only [slice_nsfsSuperblockImage]
  rw [if_neg (not_not.mpr hseal.identified),
    if_neg (not_not.mpr (checksum_nsfsSuperblockSeal sb)), if_neg, if_neg,
    if_neg (not_not.mpr (hseal.laidOut hl)), if_neg]
  · rw [hblocks, hinodes, hseal.totalBlocks, hseal.dataStart, hseal.totalInodes]
    have h1 := hs.freeBlocks
    have h2 := hs.freeInodes
    omega
  · rw [hstate]
    rcases hs.state with he | he <;> simp [he]
  · rw [hseal.totalBlocks, hseal.totalInodes]
    have h1 := hl.total
    have h2 := hl.inodes
    omega

/-- The layout that the fields of a superblock spell out. -/
def Superblock.layout (sb : Superblock) : Layout where
  totalBlocks := sb.totalBlocks
  inodeCount := sb.totalInodes
  journalBlocks := sb.journalBlocks
  inodeBitmapBlocks := sb.inodeBitmapBlocks
  blockBitmapBlocks := sb.blockBitmapBlocks
  inodeTableBlocks := sb.inodeTableBlocks

/-- The starts of the regions in the layout of a superblock that passes the layout checks. -/
lemma Superblock.LaidOut.starts (h : sb.LaidOut) :
    sb.inodeBitmapStart = sb.layout.inodeBitmapStart ∧
    sb.blockBitmapStart = sb.layout.blockBitmapStart ∧
    sb.inodeTableStart = sb.layout.inodeTableStart ∧ sb.dataStart = sb.layout.dataStart := by
  obtain ⟨hjournal, -, -, hi, -, hb, -, ht, -, hd, -⟩ := h
  have e1 : sb.inodeBitmapStart = sb.layout.inodeBitmapStart := by rw [hi, hjournal]; rfl
  have e2 : sb.blockBitmapStart = sb.layout.blockBitmapStart := by rw [hb, e1]; rfl
  have e3 : sb.inodeTableStart = sb.layout.inodeTableStart := by rw [ht, e2]; rfl
  exact ⟨e1, e2, e3, by rw [hd, e3]; rfl⟩

/-- A superblock that passes the checks repeats its own layout. -/
lemma Superblock.LaidOut.describes (h : sb.LaidOut) (hid : sb.Identified) :
    sb.Describes sb.layout := by
  obtain ⟨e1, e2, e3, e4⟩ := h.starts
  exact ⟨hid, rfl, rfl, h.1, rfl, h.2.2.1, e1, rfl, e2, rfl, e3, rfl, e4⟩

/-- The layout of a superblock that passes the checks is in order. -/
lemma Superblock.LaidOut.ok (h : sb.LaidOut) (hinodes : 2 ≤ sb.totalInodes)
    (htotal : sb.totalBlocks ≤ 0xffffffff) : sb.layout.Ok := by
  obtain ⟨-, -, -, e4⟩ := h.starts
  obtain ⟨-, hjournal, -, -, hi, -, hb, -, ht, -, hdata⟩ := h
  exact ⟨hjournal, hinodes, hi, hb, ht, e4 ▸ hdata, htotal⟩

/-- A superblock that `nsfs_validate_superblock_image` accepts repeats a layout of the device. -/
lemma describes_of_validate {n : ℕ} (h : nsfsValidateSuperblockImage block n = .ok sb) :
    ∃ l : Layout, l.Ok ∧ sb.Describes l ∧ l.totalBlocks = n ∧ sb.Sound l := by
  unfold nsfsValidateSuperblockImage at h
  simp only at h
  split_ifs at h with hid hsum hsize hstate hlaid hcount
  obtain rfl := Except.ok.inj h
  simp only [not_or, not_lt] at hsize hcount
  refine ⟨_, hlaid.ok hsize.2.2 hsize.2.1, hlaid.describes hid, not_not.mp hsize.1, ?_, ?_, ?_⟩
  · by_contra hnot
    rw [not_or] at hnot
    exact hstate hnot
  · rw [← hlaid.starts.2.2.2]
    exact hcount.1
  · exact hcount.2

end Northstar
