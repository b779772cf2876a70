import Northstar.Nsfs.Directory

/-! # The records of a directory block

`RecAt n block off r` says that the record `r` stands at offset `off` of a block, and
`Tiled n block off rs off'` that the records `rs` fill the block from `off` to `off'`. A record is
read from its own bytes only, so an edit of one record keeps the records before and behind it
(`Tiled.congr`), and a scan over a tiled block finds the first record that passes its test
(`direntScan_of_tiled`). The three edits of the source, placing, erasing and redirecting a record,
are then edits of the list. -/

namespace Northstar

open Bytes

/-- A directory record; a free one has inode number zero. -/
structure Rec where
  inode : ℕ
  recLen : ℕ
  type : ℕ
  name : Name
  deriving DecidableEq

/-- The entry type of a name in use is one of the three inode types. -/
def TypeOk (type : ℕ) : Prop :=
  type = nsfsInodeRegular ∨ type = nsfsInodeDirectory ∨ type = nsfsInodeSymlink

/-- A name that a directory record may carry. -/
def NameOk (name : Name) : Prop :=
  name ≠ [] ∧ name.length ≤ 255 ∧ ∀ character ∈ name, character ≠ 0 ∧ character ≠ 47

/-- A well-formed record of a volume with `n` inodes. -/
structure Rec.Ok (n : ℕ) (r : Rec) : Prop where
  room : nsfsAlign4 (8 + r.name.length) ≤ r.recLen
  aligned : r.recLen % 4 = 0
  free : r.inode = 0 → r.name = [] ∧ r.type = 0
  used : r.inode ≠ 0 → NameOk r.name ∧ r.inode < n ∧ TypeOk r.type

/-- The record `r` stands at offset `off`. -/
structure RecAt (n : ℕ) (block : Block) (off : ℕ) (r : Rec) : Prop where
  ok : r.Ok n
  fits : off + r.recLen ≤ 4096
  inode : block.le off 4 = r.inode
  recLen : block.le (off + 4) 2 = r.recLen
  nameLen : block.le (off + 6) 1 = r.name.length
  type : block.le (off + 7) 1 = r.type
  name : ∀ i < r.name.length, block.get (off + 8 + i) = r.name.getD i 0

/-- The records `rs` fill the block from `off` to `off'`. -/
def Tiled (n : ℕ) (block : Block) : ℕ → List Rec → ℕ → Prop
  | off, [], off' => off = off'
  | off, r :: rs, off' => RecAt n block off r ∧ Tiled n block (off + r.recLen) rs off'

/-- `nsfs_align4` does not round down. -/
lemma nsfsAlign4_ge (value : ℕ) : value ≤ nsfsAlign4 value := by
  unfold nsfsAlign4
  omega

/-- `nsfs_align4` gives a multiple of 4. -/
lemma nsfsAlign4_mod (value : ℕ) : nsfsAlign4 value % 4 = 0 := by
  unfold nsfsAlign4
  omega

/-- `nsfs_align4` adds less than 4. -/
lemma nsfsAlign4_lt (value : ℕ) : nsfsAlign4 value < value + 4 := by
  unfold nsfsAlign4
  omega

variable {n off off' : ℕ} {block block' : Block} {r : Rec} {rs : List Rec}

/-- A record has room for its name. -/
lemma Rec.Ok.ge (h : r.Ok n) : 8 + r.name.length ≤ r.recLen :=
  (nsfsAlign4_ge _).trans h.room

section

variable (h : RecAt n block off r)
include h

/-- The inode number of a record. -/
lemma RecAt.slice_inode : Dirent.inode (block.slice off) = r.inode :=
  (le_slice (by omega : 0 + 4 ≤ 8)).trans h.inode

lemma RecAt.slice_recLen : Dirent.recLen (block.slice off) = r.recLen :=
  (le_slice (by omega : 4 + 2 ≤ 8)).trans h.recLen

/-- The length of the name of a record. -/
lemma RecAt.slice_nameLen : Dirent.nameLen (block.slice off) = r.name.length :=
  (le_slice (by omega : 6 + 1 ≤ 8)).trans h.nameLen

lemma RecAt.slice_type : Dirent.type (block.slice off) = r.type :=
  (le_slice (by omega : 7 + 1 ≤ 8)).trans h.type

lemma RecAt.direntName : direntName block off r.name.length = r.name := by
  refine List.ext_getElem (by simp [Northstar.direntName]) fun i h1 h2 => ?_
  simp only [Northstar.direntName, List.getElem_map, List.getElem_range]
  rw [h.name i h2, List.getD_eq_getElem _ _ h2]

/-- A record is read from its own bytes. -/
lemma RecAt.congr (hb : ∀ i, off ≤ i → i < off + r.recLen → block'.get i = block.get i) :
    RecAt n block' off r := by
  have hge := h.ok.ge
  have hle : ∀ o w, off ≤ o → o + w ≤ off + 8 → block'.le o w = block.le o w := fun o w h1 h2 =>
    le_congr fun i hi => hb _ (by omega) (by omega)
  refine ⟨h.ok, h.fits, ?_, ?_, ?_, ?_, fun i hi => ?_⟩
  · rw [hle off 4 (by omega) (by omega), h.inode]
  · rw [hle (off + 4) 2 (by omega) (by omega), h.recLen]
  · rw [hle (off + 6) 1 (by omega) (by omega), h.nameLen]
  · rw [hle (off + 7) 1 (by omega) (by omega), h.type]
  · rw [hb _ (by omega) (by omega), h.name i hi]

/-- A well-formed record passes the checks of `nsfs_decode_dirent`. -/
lemma RecAt.decode : nsfsDecodeDirent n block off = .ok (block.slice off) := by
  have hge := h.ok.ge
  have hfits := h.fits
  unfold nsfsDecodeDirent
  simp only [h.slice_inode, h.slice_recLen, h.slice_nameLen, h.slice_type, h.direntName]
  rw [if_neg (by omega), if_neg (by have := h.ok.aligned; omega)]
  by_cases h0 : r.inode = 0
  · rw [if_pos h0]
  · obtain ⟨hname, hlt, htype⟩ := h.ok.used h0
    rw [if_neg h0, if_neg, if_neg]
    · rintro ⟨character, hmem, hbad⟩
      have := hname.2.2 character hmem
      tauto
    · have hlen : r.name.length ≠ 0 := fun he => hname.1 (List.length_eq_zero_iff.mp he)
      have hroom := h.ok.room
      unfold TypeOk at htype
      rintro (h1 | h1 | h1 | h1)
      · exact hlen h1
      · omega
      · omega
      · tauto

end

/-! ### Lists of records -/

/-- Two lists of records, one behind the other. -/
lemma tiled_append {rs' : List Rec} {off'' : ℕ} : Tiled n block off (rs ++ rs') off'' ↔
    ∃ off', Tiled n block off rs off' ∧ Tiled n block off' rs' off'' := by
  induction rs generalizing off with
  | nil => simp [Tiled]
  | cons r rs ih =>
    simp only [List.cons_append, Tiled, ih]
    constructor
    · rintro ⟨hr, off', h1, h2⟩
      exact ⟨off', ⟨hr, h1⟩, h2⟩
    · rintro ⟨off', ⟨hr, h1⟩, h2⟩
      exact ⟨hr, off', h1, h2⟩

lemma tiled_singleton :
    Tiled n block off [r] off' ↔ RecAt n block off r ∧ off + r.recLen = off' := by
  simp [Tiled]

/-- Records fill a block forwards. -/
lemma Tiled.le (h : Tiled n block off rs off') : off ≤ off' := by
  induction rs generalizing off with
  | nil => exact (show off = off' from h).le
  | cons r rs ih => exact (Nat.le_add_right _ _).trans (ih h.2)

/-- Records are read from the bytes they fill. -/
lemma Tiled.congr (h : Tiled n block off rs off')
    (hb : ∀ i, off ≤ i → i < off' → block'.get i = block.get i) : Tiled n block' off rs off' := by
  induction rs generalizing off with
  | nil => exact h
  | cons r rs ih =>
    have hle := h.2.le
    refine ⟨h.1.congr fun i h1 h2 => hb i h1 (by omega), ih h.2 fun i h1 h2 => hb i (by omega) h2⟩

/-- What a scan that finds a record reports. -/
structure Hit (n : ℕ) (block : Block) (off : ℕ) (rs : List Rec) (p : Rec → Bool)
    (previous : Option ℕ) (found : Found) (pre : List Rec) (r : Rec) (post : List Rec) : Prop where
  split : rs = pre ++ r :: post
  before : Tiled n block off pre found.offset
  at_ : RecAt n block found.offset r
  behind : Tiled n block (found.offset + r.recLen) post 4096
  skipped : ∀ x ∈ pre, p x = false
  passed : p r = true
  entry : found.entry = block.slice found.offset
  previous_nil : pre = [] → found.previous = previous
  previous_cons : ∀ pre' q, pre = pre' ++ [q] →
    ∃ o, found.previous = some o ∧ Tiled n block off pre' o ∧ RecAt n block o q ∧
      o + q.recLen = found.offset

variable {test : ℕ → Dirent → Bool} {p : Rec → Bool} {recLen : ℕ}

/-- A scan over a tiled block stops at the first record that passes the test. -/
lemma direntScan_of_tiled
    (htest : ∀ off r, RecAt n block off r → test off (block.slice off) = p r) (rs : List Rec) :
    ∀ (fuel off : ℕ) (previous : Option ℕ), Tiled n block off rs 4096 → 4096 ≤ off + 8 * fuel →
    ((∀ r ∈ rs, p r = false) ∧ direntScan n block test fuel off previous = .ok none) ∨
    ∃ found pre r post, direntScan n block test fuel off previous = .ok (some found) ∧
      Hit n block off rs p previous found pre r post := by
  induction rs with
  | nil =>
    intro fuel off previous h _
    have hoff : off = 4096 := h
    left
    refine ⟨by simp, ?_⟩
    cases fuel with
    | zero => rfl
    | succ fuel => rw [direntScan, if_pos (by omega)]
  | cons r rs ih =>
    intro fuel off previous h hfuel
    have hge := h.1.ok.ge
    have hfits := h.1.fits
    cases fuel with
    | zero => omega
    | succ fuel =>
      have hstep : direntScan n block test (fuel + 1) off previous =
          if p r then .ok (some ⟨off, block.slice off, previous⟩)
          else direntScan n block test fuel (off + r.recLen) (some off) := by
        rw [direntScan, if_neg (by omega), h.1.decode]
        simp only [htest off r h.1, h.1.slice_recLen]
      rw [hstep]
      by_cases hp : p r = true
      · right
        rw [if_pos hp]
        refine ⟨_, [], r, rs, rfl, rfl, rfl, h.1, h.2, by simp, hp, rfl, fun _ => rfl, ?_⟩
        intro pre' q hq
        simp at hq
      · rw [if_neg hp]
        rcases ih fuel (off + r.recLen) (some off) h.2 (by omega) with ⟨hnone, hscan⟩ |
          ⟨found, pre, x, post, hscan, hit⟩
        · left
          refine ⟨fun y hy => ?_, hscan⟩
          rcases List.mem_cons.mp hy with rfl | hy
          · exact Bool.eq_false_iff.mpr hp
          · exact hnone y hy
        · right
          refine ⟨found, r :: pre, x, post, hscan, by rw [hit.split]; rfl,
            ⟨h.1, hit.before⟩, hit.at_,
            hit.behind, fun y hy => ?_, hit.passed, hit.entry, by simp, fun pre' q hq => ?_⟩
          · rcases List.mem_cons.mp hy with rfl | hy
            · exact Bool.eq_false_iff.mpr hp
            · exact hit.skipped y hy
          · cases pre' with
            | nil =>
              obtain ⟨rfl, rfl⟩ : r = q ∧ pre = [] := by simpa using hq
              exact ⟨off, hit.previous_nil rfl, rfl, h.1, hit.before⟩
            | cons r' pre' =>
              obtain ⟨rfl, hpre⟩ : r = r' ∧ pre = pre' ++ [q] := by simpa using hq
              obtain ⟨o, ho, ht, hq', hlink⟩ := hit.previous_cons pre' q hpre
              exact ⟨o, ho, ⟨h.1, ht⟩, hq', hlink⟩

/-- The records `rs` fill a whole block. -/
def Fills (n : ℕ) (block : Block) (rs : List Rec) : Prop := Tiled n block 0 rs 4096

/-- A scan of a block finds the first record that passes the test, if there is one. -/
lemma scanBlock_of_fills (htest : ∀ off r, RecAt n block off r → test off (block.slice off) = p r)
    (h : Fills n block rs) :
    ((∀ r ∈ rs, p r = false) ∧ scanBlock n block test = .ok none) ∨
    ∃ found pre r post, scanBlock n block test = .ok (some found) ∧
      Hit n block 0 rs p none found pre r post :=
  direntScan_of_tiled htest rs 512 0 none h (by omega)

/-! ### Writing records -/

/-- A record from its header and its name. -/
lemma RecAt.of_slice {header : Dirent} (hok : r.Ok n) (hfits : off + r.recLen ≤ 4096)
    (hslice : (block.slice off : Dirent) = header) (hinode : header.inode = r.inode)
    (hrecLen : header.recLen = r.recLen) (hnameLen : header.nameLen = r.name.length)
    (htype : header.type = r.type)
    (hname : ∀ i < r.name.length, block.get (off + 8 + i) = r.name.getD i 0) :
    RecAt n block off r := by
  subst hslice
  exact ⟨hok, hfits, (le_slice (by omega : 0 + 4 ≤ 8)).symm.trans hinode,
    (le_slice (by omega : 4 + 2 ≤ 8)).symm.trans hrecLen,
    (le_slice (by omega : 6 + 1 ≤ 8)).symm.trans hnameLen,
    (le_slice (by omega : 7 + 1 ≤ 8)).symm.trans htype, hname⟩

/-- Replacing the header of a record and keeping its name. -/
lemma RecAt.blit_header {r' : Rec} {header : Dirent} (h : RecAt n block off r) (hok : r'.Ok n)
    (hfits : off + r'.recLen ≤ 4096) (hname : r'.name = r.name) (hinode : header.inode = r'.inode)
    (hrecLen : header.recLen = r'.recLen) (hnameLen : header.nameLen = r'.name.length)
    (htype : header.type = r'.type) : RecAt n (block.blit off 8 header.get) off r' := by
  have hge := h.ok.ge
  have hfits' := h.fits
  refine RecAt.of_slice hok hfits (slice_blit_self (by omega)) hinode hrecLen hnameLen htype ?_
  intro i hi
  rw [hname] at hi ⊢
  rw [get_blit_of_notMem (by omega), h.name i hi]

/-- `nsfs_write_dirent` changes the bytes of its record only. -/
lemma get_nsfsWriteDirent_of_notMem {inode type i : ℕ} {name : Name}
    (hlen : 8 + name.length ≤ recLen) (hi : i < off ∨ off + recLen ≤ i) :
    (nsfsWriteDirent block off inode recLen type name).get i = block.get i := by
  unfold nsfsWriteDirent
  rw [get_blit_of_notMem (by omega), get_blit_of_notMem (by omega), fill_eq,
    get_blit_of_notMem (by omega)]

/-- `nsfs_write_dirent` writes the record it is asked to write. -/
lemma recAt_nsfsWriteDirent (hn : n ≤ 256 ^ 4) (hok : r.Ok n) (hfits : off + r.recLen ≤ 4096) :
    RecAt n (nsfsWriteDirent block off r.inode r.recLen r.type r.name) off r := by
  have hge := hok.ge
  have hinode : r.inode < 256 ^ 4 := by
    by_cases h0 : r.inode = 0
    · omega
    · have := (hok.used h0).2.1
      omega
  have hlen : r.name.length < 256 ^ 1 := by
    by_cases h0 : r.inode = 0
    · simp [(hok.free h0).1]
    · have := (hok.used h0).1.2.1
      omega
  have htype : r.type < 256 ^ 1 := by
    by_cases h0 : r.inode = 0
    · simp [(hok.free h0).2]
    · rcases (hok.used h0).2.2 with h | h | h <;> rw [h] <;> decide
  refine RecAt.of_slice hok hfits ((slice_blit_of_disjoint (by omega)).trans
    (slice_blit_self (by omega))) ?_ ?_ ?_ ?_ fun i hi => ?_
  · exact ((le_putLe_of_disjoint).trans (le_putLe_of_disjoint)).trans
      ((le_putLe_of_disjoint).trans (le_putLe (by omega) hinode))
  · exact ((le_putLe_of_disjoint).trans (le_putLe_of_disjoint)).trans
      (le_putLe)
  · exact (le_putLe_of_disjoint).trans (le_putLe (by omega) hlen)
  · exact le_putLe (by omega) htype
  · exact get_blit_of_mem hi (by omega)

/-! ### Entries -/

/-- The entry of a record in use. -/
def Rec.entry (r : Rec) : Option DirEntry :=
  if r.inode = 0 then none else some ⟨r.inode, r.type, r.name⟩

/-- The entries of a list of records. -/
def entriesOf (rs : List Rec) : List DirEntry := rs.filterMap Rec.entry

@[simp] lemma entriesOf_nil : entriesOf [] = [] := rfl

/-- The entries of two lists of records. -/
@[simp] lemma entriesOf_append (rs rs' : List Rec) :
    entriesOf (rs ++ rs') = entriesOf rs ++ entriesOf rs' := List.filterMap_append

/-- The entries with one more record. -/
lemma entriesOf_cons (r : Rec) (rs : List Rec) :
    entriesOf (r :: rs) = r.entry.toList ++ entriesOf rs := by
  unfold entriesOf
  cases h : r.entry <;> simp [h]

/-- An entry that a directory of a volume with `n` inodes may have. -/
structure DirEntry.Ok (n : ℕ) (e : DirEntry) : Prop where
  inode_ne : e.inode ≠ 0
  inode_lt : e.inode < n
  type : TypeOk e.type
  name : NameOk e.name

/-- The record of an entry. -/
def DirEntry.toRec (e : DirEntry) (recLen : ℕ) : Rec := ⟨e.inode, recLen, e.type, e.name⟩

/-- The record of an entry is in order. -/
lemma DirEntry.Ok.toRec {e : DirEntry} (h : e.Ok n)
    (hroom : nsfsAlign4 (8 + e.name.length) ≤ recLen) (hmod : recLen % 4 = 0) :
    (e.toRec recLen).Ok n :=
  ⟨hroom, hmod, fun h0 => absurd h0 h.inode_ne, fun _ => ⟨h.name, h.inode_lt, h.type⟩⟩

/-- The record of an entry has that entry. -/
lemma DirEntry.Ok.entry {e : DirEntry} (h : e.Ok n) (recLen : ℕ) :
    (e.toRec recLen).entry = some e := by
  simp [Rec.entry, DirEntry.toRec, h.inode_ne]

/-- A free record. -/
lemma freeRec_ok (h8 : 8 ≤ recLen) (hmod : recLen % 4 = 0) :
    Rec.Ok n ⟨0, recLen, 0, []⟩ :=
  ⟨by simpa [nsfsAlign4] using h8, hmod, fun _ => ⟨rfl, rfl⟩, fun h => absurd rfl h⟩

/-! ### Edits of a block -/

section Edits

variable {p : Rec → Bool} {previous : Option ℕ} {found : Found} {pre post : List Rec} {e : DirEntry}

/-- The room of a record for another one. -/
def Rec.room (r : Rec) : ℕ :=
  if r.inode = 0 then r.recLen else r.recLen - nsfsAlign4 (8 + r.name.length)

lemma RecAt.direntRoom (h : RecAt n block off r) : direntRoom (block.slice off) = r.room := by
  unfold Northstar.direntRoom Rec.room
  rw [h.slice_inode, h.slice_recLen, h.slice_nameLen]

/-- Replacing one record by records that fill the same bytes. -/
lemma Hit.replace (hit : Hit n block 0 rs p previous found pre r post) (mid : List Rec)
    (hmid : Tiled n block' found.offset mid (found.offset + r.recLen))
    (hframe : ∀ i, i < found.offset ∨ found.offset + r.recLen ≤ i → block'.get i = block.get i) :
    Fills n block' (pre ++ (mid ++ post)) := by
  refine tiled_append.mpr ⟨found.offset, hit.before.congr fun i _ h2 => hframe i (Or.inl h2), ?_⟩
  exact tiled_append.mpr ⟨_, hmid, hit.behind.congr fun i h1 _ => hframe i (Or.inr h1)⟩

/-- The entries in front of the record that was found and behind it. -/
lemma Hit.entries (hit : Hit n block 0 rs p previous found pre r post) :
    entriesOf rs = entriesOf pre ++ (r.entry.toList ++ entriesOf post) := by
  rw [hit.split, entriesOf_append, entriesOf_cons]

/-- Placing an entry in the room of a record. -/
lemma placeDirent_fills (hn : n ≤ 256 ^ 4) (hit : Hit n block 0 rs p previous found pre r post)
    (he : e.Ok n) (hroom : nsfsAlign4 (8 + e.name.length) ≤ r.room) :
    ∃ rs', Fills n (placeDirent block found.offset found.entry e.inode e.type e.name) rs' ∧
      ∃ l1 l2, entriesOf rs = l1 ++ l2 ∧ entriesOf rs' = l1 ++ e :: l2 := by
  have hat := hit.at_
  have hfits := hat.fits
  have hge := hat.ok.ge
  have hmod := hat.ok.aligned
  have hmin := nsfsAlign4_mod (8 + e.name.length)
  have hmin' := nsfsAlign4_ge (8 + e.name.length)
  unfold placeDirent
  rw [hit.entry, hat.slice_inode, hat.slice_recLen, hat.slice_nameLen]
  by_cases h0 : r.inode = 0
  · have hentry : r.entry = none := by simp [Rec.entry, h0]
    have hroom' : nsfsAlign4 (8 + e.name.length) ≤ r.recLen := by simpa [Rec.room, h0] using hroom
    simp only [if_pos h0]
    by_cases hsplit : r.recLen - nsfsAlign4 (8 + e.name.length) ≥ 8
    · -- a free record is split: the entry, then what is left
      rw [if_pos hsplit]
      set needed := nsfsAlign4 (8 + e.name.length)
      have hrest : Rec.Ok n ⟨0, r.recLen - needed, 0, []⟩ := freeRec_ok hsplit (by omega)
      have hrestAt : RecAt n (nsfsWriteDirent block (found.offset + needed) 0
        (r.recLen - needed) 0 []) (found.offset + needed) ⟨0, r.recLen - needed, 0, []⟩ :=
        recAt_nsfsWriteDirent hn hrest (by simp only; omega)
      have hfree : Rec.entry ⟨0, r.recLen - needed, 0, []⟩ = none := rfl
      refine ⟨_, hit.replace [e.toRec needed, ⟨0, r.recLen - needed, 0, []⟩] ?_ ?_,
        entriesOf pre, entriesOf post, ?_, ?_⟩
      · refine ⟨recAt_nsfsWriteDirent hn (he.toRec le_rfl hmin)
          (by simp only [DirEntry.toRec]; omega),
          tiled_singleton.mpr ⟨hrestAt.congr fun i h1 _ => ?_, ?_⟩⟩
        · exact get_nsfsWriteDirent_of_notMem hmin' (Or.inr h1)
        · simp only [DirEntry.toRec]
          omega
      · intro i hi
        rw [get_nsfsWriteDirent_of_notMem hmin' (by omega),
          get_nsfsWriteDirent_of_notMem (by simp only [List.length_nil]; omega) (by omega)]
      · rw [hit.entries, hentry]
        simp
      · simp [entriesOf_cons, he.entry, hfree]
    · rw [if_neg hsplit]
      refine ⟨_, hit.replace [e.toRec r.recLen] ?_ ?_, entriesOf pre, entriesOf post, ?_, ?_⟩
      · exact tiled_singleton.mpr ⟨recAt_nsfsWriteDirent hn (he.toRec hroom' hmod) hfits, rfl⟩
      · exact fun i hi => get_nsfsWriteDirent_of_notMem (by omega) hi
      · rw [hit.entries, hentry]
        simp
      · simp [entriesOf_cons, he.entry]
  · -- the slack of a record in use becomes the new record
    have hroom' : nsfsAlign4 (8 + e.name.length) ≤
        r.recLen - nsfsAlign4 (8 + r.name.length) := by simpa [Rec.room, h0] using hroom
    have hmod' := nsfsAlign4_mod (8 + r.name.length)
    have hge' := nsfsAlign4_ge (8 + r.name.length)
    simp only [if_neg h0]
    set minimum := nsfsAlign4 (8 + r.name.length)
    have hok : Rec.Ok n { r with recLen := minimum } :=
      ⟨le_rfl, hmod', fun h => absurd h h0, hat.ok.used⟩
    have hhead : RecAt n (block.blit found.offset 8
        (Dirent.setRecLen (block.slice found.offset) minimum).get) found.offset
        { r with recLen := minimum } := by
      refine hat.blit_header hok (by simp only; omega) rfl ?_ ?_ ?_ ?_
      · exact (le_putLe_of_disjoint).trans hat.slice_inode
      · exact le_putLe
      · exact (le_putLe_of_disjoint).trans hat.slice_nameLen
      · exact (le_putLe_of_disjoint).trans hat.slice_type
    refine ⟨_, hit.replace [{ r with recLen := minimum }, e.toRec (r.recLen - minimum)] ?_ ?_,
      entriesOf pre ++ r.entry.toList, entriesOf post, ?_, ?_⟩
    · refine ⟨hhead.congr fun i _ h2 => get_nsfsWriteDirent_of_notMem (by omega) (Or.inl h2),
        tiled_singleton.mpr ⟨recAt_nsfsWriteDirent hn (he.toRec hroom' (by omega)) ?_, ?_⟩⟩
      · simp only [DirEntry.toRec]
        omega
      · simp only [DirEntry.toRec]
        omega
    · intro i hi
      rw [get_nsfsWriteDirent_of_notMem (by omega) (by omega), get_blit_of_notMem (by omega)]
    · rw [hit.entries]
      simp
    · have hsame : Rec.entry { r with recLen := minimum } = r.entry := rfl
      simp [entriesOf_cons, he.entry, hsame]

/-- Erasing an entry: its record is merged into the one before it, or becomes free. -/
lemma eraseDirent_fills (hit : Hit n block 0 rs p none found pre r post) :
    ∃ rs', Fills n (eraseDirent block found) rs' ∧
      entriesOf rs' = entriesOf pre ++ entriesOf post := by
  have hat := hit.at_
  have hfits := hat.fits
  have hge := hat.ok.ge
  have hmod := hat.ok.aligned
  rcases List.eq_nil_or_concat pre with hpre | ⟨pre', q, hpre⟩
  · -- the first record of the block becomes free
    have hblock : eraseDirent block found = (block.blit found.offset 8
        (((Dirent.setInode (block.slice found.offset) 0).setNameLen 0).setType 0).get).fill
          (found.offset + 8) (r.recLen - 8) 0 := by
      unfold eraseDirent
      rw [hit.previous_nil hpre, hit.entry, hat.slice_recLen]
    rw [hblock, fill_eq]
    refine ⟨_, hit.replace [⟨0, r.recLen, 0, []⟩] (tiled_singleton.mpr ⟨?_, rfl⟩) ?_,
      by simp [entriesOf_cons, Rec.entry]⟩
    · refine RecAt.of_slice (freeRec_ok (by omega) hmod) hfits
        ((slice_blit_of_disjoint (by omega)).trans (slice_blit_self (by omega)))
        ?_ ?_ ?_ ?_ (by simp)
      · exact ((le_putLe_of_disjoint).trans
          (le_putLe_of_disjoint)).trans (le_putLe)
      · exact ((le_putLe_of_disjoint).trans
          (le_putLe_of_disjoint)).trans
          ((le_putLe_of_disjoint).trans hat.slice_recLen)
      · exact (le_putLe_of_disjoint).trans (le_putLe (by omega) (by simp))
      · exact le_putLe (by omega) (by simp)
    · intro i hi
      rw [get_blit_of_notMem (by omega), get_blit_of_notMem (by omega)]
  · rw [List.concat_eq_append] at hpre
    obtain ⟨o, ho, hbefore, hq, hlink⟩ := hit.previous_cons pre' q hpre
    have hqge := hq.ok.ge
    have hqmod := hq.ok.aligned
    have hqroom := hq.ok.room
    have hblock : eraseDirent block found = (block.blit o 8
        (Dirent.setRecLen (block.slice o) (q.recLen + r.recLen)).get).fill
          found.offset r.recLen 0 := by
      unfold eraseDirent
      rw [ho, hit.entry, hat.slice_recLen]
      simp only [hq.slice_recLen]
    have hok : Rec.Ok n { q with recLen := q.recLen + r.recLen } :=
      ⟨by simp only; omega, by simp only; omega, hq.ok.free, hq.ok.used⟩
    have hhead : RecAt n (block.blit o 8
        (Dirent.setRecLen (block.slice o) (q.recLen + r.recLen)).get) o
        { q with recLen := q.recLen + r.recLen } := by
      refine hq.blit_header hok (by simp only; omega) rfl ?_ ?_ ?_ ?_
      · exact (le_putLe_of_disjoint).trans hq.slice_inode
      · exact le_putLe
      · exact (le_putLe_of_disjoint).trans hq.slice_nameLen
      · exact (le_putLe_of_disjoint).trans hq.slice_type
    have hout : ∀ i, i < o + 8 ∨ found.offset + r.recLen ≤ i →
        (eraseDirent block found).get i = (block.blit o 8
          (Dirent.setRecLen (block.slice o) (q.recLen + r.recLen)).get).get i := by
      intro i hi
      rw [hblock, fill_eq, get_blit_of_notMem (by omega)]
    refine ⟨pre' ++ { q with recLen := q.recLen + r.recLen } :: post, ?_, ?_⟩
    · refine tiled_append.mpr ⟨o, hbefore.congr fun i _ h2 => ?_, ?_, ?_⟩
      · rw [hout i (by omega), get_blit_of_notMem (by omega)]
      · -- the header moves, the name of the record before stays where it was
        refine RecAt.of_slice hok (by simp only; omega) ?_ hhead.slice_inode hhead.slice_recLen
          hhead.slice_nameLen hhead.slice_type fun i hi => ?_
        · rw [hblock, fill_eq]
          exact slice_blit_of_disjoint (by omega)
        · have hi' : i < q.name.length := hi
          rw [hblock, fill_eq, get_blit_of_notMem (by omega)]
          exact hhead.name i hi
      · have hend : o + (q.recLen + r.recLen) = found.offset + r.recLen := by omega
        simp only [hend]
        refine hit.behind.congr fun i h1 _ => ?_
        rw [hout i (by omega), get_blit_of_notMem (by omega)]
    · have hsame : Rec.entry { q with recLen := q.recLen + r.recLen } = q.entry := rfl
      rw [hpre]
      simp [entriesOf_cons, hsame]

/-- Redirecting an entry to another inode. -/
lemma redirect_fills (hn : n ≤ 256 ^ 4) (hit : Hit n block 0 rs p previous found pre r post)
    (h0 : r.inode ≠ 0) {parent : ℕ} (hparent : parent ≠ 0) (hlt : parent < n) :
    Fills n (block.blit found.offset 8 (found.entry.setInode parent).get)
      (pre ++ { r with inode := parent } :: post) := by
  have hat := hit.at_
  have hfits := hat.fits
  have hge := hat.ok.ge
  obtain ⟨hname, -, htype⟩ := hat.ok.used h0
  have hok : Rec.Ok n { r with inode := parent } :=
    ⟨hat.ok.room, hat.ok.aligned, fun h => absurd h hparent, fun _ => ⟨hname, hlt, htype⟩⟩
  rw [hit.entry]
  refine hit.replace [{ r with inode := parent }] (tiled_singleton.mpr ⟨?_, rfl⟩) ?_
  · refine hat.blit_header hok hfits rfl ?_ ?_ ?_ ?_
    · exact le_putLe
    · exact (le_putLe_of_disjoint).trans hat.slice_recLen
    · exact (le_putLe_of_disjoint).trans hat.slice_nameLen
    · exact (le_putLe_of_disjoint).trans hat.slice_type
  · intro i hi
    rw [get_blit_of_notMem (by omega)]

end Edits

end Northstar
