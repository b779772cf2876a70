import Northstar.Nsfs.Guard
import Northstar.Nsfs.Namespace

/-! # The bodies of transactions on arbitrary images

Every function that runs between `nsfs_tx_begin` and the commit keeps `Guarded`, if the inode
records it is given have their indirect blocks in the data area. The records it returns then have,
too. -/

namespace Northstar

open Maintains (seq check get_bind require_bind)

variable {env : Env} {l : Layout} {s0 s : St} {b i logical : ℕ} {r inode directory : DiskInode}
  {name : Name}

/-! ### Records -/

/-- A store beside the indirect pointer. -/
lemma Layout.Inside.putLe (h : l.Inside r.indirect) {off w v : ℕ}
    (hd : 116 ≤ off ∨ off + w ≤ 112) : l.Inside (DiskInode.indirect (r.putLe off w v)) := by
  have hkeep : DiskInode.indirect (r.putLe off w v) = r.indirect :=
    Bytes.le_putLe_of_disjoint
  rw [hkeep]
  exact h

/-- Counting a block leaves the indirect pointer alone. -/
lemma Layout.Inside.countBlock (h : l.Inside r.indirect) : l.Inside (countBlock r).indirect :=
  h.putLe (by omega)

/-- Stamping a directory leaves the indirect pointer alone. -/
lemma Layout.Inside.stampDirectory (h : l.Inside r.indirect) (now : ℕ) :
    l.Inside (stampDirectory r now).indirect :=
  Layout.Inside.putLe (h.putLe (by omega)) (by omega)

/-- A new inode has no indirect block. -/
lemma inside_newInode (mode type links now : ℕ) :
    l.Inside (newInode mode type links now).indirect := by
  left
  unfold newInode DiskInode.indirect
  simp

/-! ### Block maps -/

/-- What a lookup in a block map returns: a record with its indirect block in the data area, and a
block of the data area or none. -/
structure Mapping (l : Layout) (allocate : Bool) (r : DiskInode × ℕ) : Prop where
  record : l.Inside r.1.indirect
  block : l.Inside r.2
  present : allocate = true → r.2 ≠ 0

/-- A block that may be allocated is one of the data area. -/
lemma Mapping.dataStart_le {r : DiskInode × ℕ} (h : Mapping l true r) : l.dataStart ≤ r.2 :=
  h.block.resolve_left (h.present rfl)

/-- `nsfs_inode_data_block` returns no block in front of the data area. -/
lemma nsfsInodeDataBlock_maintains (inode : DiskInode) (logical : ℕ) :
    Maintains (Guarded env l s0) (nsfsInodeDataBlock inode logical) fun p => l.Inside p := by
  apply check
  apply Maintains.ite
  · intro _
    apply Maintains.bind (requireDataBlock_maintains _)
    intro _ hp
    exact .pure hp
  · intro _
    apply Maintains.ite
    · intro _
      exact .pure (Or.inl rfl)
    · intro _
      apply seq (requireDataBlock_maintains _)
      apply seq nsfsAllocate_maintains
      apply Maintains.bind (nsfsReadBlock_maintains _)
      intro _ _
      apply Maintains.bind (requireDataBlock_maintains _)
      intro _ hp
      exact .pure hp

/-- A new block as the slot of a map. -/
lemma mapping_of_new {allocate : Bool} (hr : l.Inside r.indirect) (hb : l.dataStart ≤ b)
    (hpos : 0 < l.dataStart) : Mapping l allocate (r, b) where
  record := hr
  block := Or.inr hb
  present := fun _ => by dsimp only; omega

/-- The data area does not begin at block 0. -/
lemma dataStart_pos (hs : Guarded env l s0 s) : 0 < l.dataStart := by
  have := hs.regions
  omega

lemma directDataBlock_maintains (hr : l.Inside inode.indirect) (hl : logical < 12)
    (allocate journalData : Bool) :
    Maintains (Guarded env l s0) (directDataBlock inode logical allocate journalData)
      (Mapping l allocate) := by
  apply Maintains.ite
  · intro _
    apply Maintains.bind (nsfsAllocateBlock_maintains journalData)
    intro physical hp
    apply Maintains.bind (requireDataBlock_maintains _)
    intro _ _ s hs
    have hset : l.Inside (inode.setDirect logical physical).indirect := hr.putLe (by omega)
    exact Maintains.pure (mapping_of_new hset.countBlock hp.1 (dataStart_pos hs)) s hs
  · intro hnot
    apply Maintains.bind (requireDataBlock_maintains _)
    intro _ hp
    exact .pure ⟨hr, hp, fun ha h0 => hnot ⟨h0, ha⟩⟩

lemma indirectBlock_maintains (hr : l.Inside inode.indirect) (allocate : Bool) :
    Maintains (Guarded env l s0) (indirectBlock inode allocate) (Mapping l allocate) := by
  apply Maintains.ite
  · intro h0
    apply Maintains.ite
    · intro _
      apply Maintains.bind (nsfsAllocateBlock_maintains true)
      intro indirect hp s hs
      have hreg := hs.regions
      have hset : l.Inside (inode.setIndirect indirect).indirect := by
        right
        unfold DiskInode.indirect DiskInode.setIndirect
        rw [Bytes.le_putLe (by omega) (by omega)]
        exact hp.1
      exact Maintains.pure (mapping_of_new hset.countBlock hp.1 (dataStart_pos hs)) s hs
    · intro hno
      exact .pure ⟨hr, Or.inl rfl, fun ha => absurd ha hno⟩
  · intro hne s hs
    have hin : l.dataStart ≤ inode.indirect := hr.resolve_left hne
    have hreg := hs.regions
    refine Maintains.bind (requireDataBlock_maintains _) (fun _ _ => ?_) s hs
    apply seq (nsfsTxImage_maintains (by omega))
    exact .pure ⟨hr, hr, fun _ => hne⟩

lemma indirectDataBlock_maintains (hr : l.Inside inode.indirect) {indirect : ℕ} (index : ℕ)
    (hb : l.dataStart ≤ indirect) (allocate journalData : Bool) :
    Maintains (Guarded env l s0) (indirectDataBlock inode indirect index allocate journalData)
      (Mapping l allocate) := by
  apply Maintains.bind (txLoad_maintains _)
  intro image _
  apply Maintains.ite
  · intro _
    apply Maintains.bind (nsfsAllocateBlock_maintains journalData)
    intro physical hp
    apply Maintains.bind (txLoad_maintains _)
    intro _ _
    apply seq (txStore_maintains (Or.inr hb) _)
    apply Maintains.bind (requireDataBlock_maintains _)
    intro _ _ s hs
    exact Maintains.pure (mapping_of_new hr.countBlock hp.1 (dataStart_pos hs)) s hs
  · intro hnot
    apply Maintains.bind (requireDataBlock_maintains _)
    intro _ hp
    exact .pure ⟨hr, hp, fun ha h0 => hnot ⟨h0, ha⟩⟩

section

variable (hr : l.Inside inode.indirect)
include hr

lemma nsfsTxInodeDataBlock_maintains (logical : ℕ) (allocate journalData : Bool) :
    Maintains (Guarded env l s0) (nsfsTxInodeDataBlock inode logical allocate journalData)
      (Mapping l allocate) := by
  apply check
  apply Maintains.ite
  · intro hl
    exact directDataBlock_maintains hr hl allocate journalData
  · intro _
    apply Maintains.bind (indirectBlock_maintains hr allocate)
    rintro ⟨inode', indirect⟩ h
    apply Maintains.ite
    · intro h0
      exact .pure ⟨h.record, Or.inl rfl, fun ha => absurd h0 (h.present ha)⟩
    · intro hne
      exact indirectDataBlock_maintains h.record _ (h.block.resolve_left hne) allocate journalData

lemma uncountBlock_maintains :
    Maintains (Guarded env l s0) (uncountBlock inode) fun r => l.Inside r.indirect := by
  apply check
  exact .pure (hr.putLe (by omega))

/-- The indirect block is loaded without a check; it is the invariant that keeps it off the journal.
-/
lemma indirectImage_maintains (hne : inode.indirect ≠ 0) :
    Maintains (Guarded env l s0) (nsfsTxImage inode.indirect) fun _ => True := by
  intro s hs
  have hreg := hs.regions
  have hin : l.dataStart ≤ inode.indirect := hr.resolve_left hne
  exact nsfsTxImage_maintains (by omega) s hs

lemma nsfsTxClearDataBlock_maintains (logical : ℕ) :
    Maintains (Guarded env l s0) (nsfsTxClearDataBlock inode logical) fun r =>
      l.Inside r.indirect := by
  apply check
  apply Maintains.ite
  · intro hl
    apply Maintains.ite
    · intro _
      exact .pure hr
    · intro _
      apply seq (nsfsFreeBlock_maintains _)
      exact uncountBlock_maintains (hr.putLe (by omega))
  · intro _
    apply Maintains.ite
    · intro _
      exact .pure hr
    · intro hne
      apply Maintains.bind (indirectImage_maintains hr hne)
      intro _ _
      apply Maintains.ite
      · intro _
        exact .pure hr
      · intro _
        apply seq (nsfsFreeBlock_maintains _)
        apply Maintains.bind (txLoad_maintains _)
        intro _ _
        apply seq (txStore_maintains (Or.inr (hr.resolve_left hne)) _)
        exact uncountBlock_maintains hr

lemma nsfsTxMaybeFreeIndirect_maintains :
    Maintains (Guarded env l s0) (nsfsTxMaybeFreeIndirect inode) fun r => l.Inside r.indirect := by
  apply Maintains.ite
  · intro _
    exact .pure hr
  · intro hne
    apply Maintains.bind (indirectImage_maintains hr hne)
    intro _ _
    apply Maintains.ite
    · intro _
      apply Maintains.bind (nsfsFreeBlock_maintains _)
      intro _ _
      have hset : l.Inside (inode.setIndirect 0).indirect := by
        left
        exact Bytes.le_putLe (by omega) (by norm_num)
      exact uncountBlock_maintains hset
    · intro _
      exact .pure hr

end

lemma clearDataBlocks_maintains (remaining : ℕ) :
    ∀ logical inode, l.Inside (DiskInode.indirect inode) →
    Maintains (Guarded env l s0) (clearDataBlocks remaining logical inode)
      fun r => l.Inside r.indirect := by
  induction remaining with
  | zero =>
    intro logical inode hr
    exact .pure hr
  | succ remaining ih =>
    intro logical inode hr
    apply Maintains.bind (nsfsTxClearDataBlock_maintains hr logical)
    intro inode' hr'
    exact ih (logical + 1) inode' hr'

lemma nsfsReleaseInodeContents_maintains (hr : l.Inside inode.indirect) :
    Maintains (Guarded env l s0) (nsfsReleaseInodeContents inode) fun r => l.Inside r.indirect := by
  apply Maintains.bind (clearDataBlocks_maintains 1036 0 inode hr)
  intro inode' hr'
  exact nsfsTxMaybeFreeIndirect_maintains hr'

/-! ### File data -/

lemma requireRegular_maintains (inode : DiskInode) :
    Maintains (Guarded env l s0) (requireRegular inode) fun _ => True :=
  Maintains.require fun _ => trivial

lemma writeChunk_maintains (hb : l.dataStart ≤ b) (start amount : ℕ) (data : List UInt8) :
    Maintains (Guarded env l s0) (writeChunk b start amount data) fun _ => True := by
  apply Maintains.ite
  · intro _
    apply Maintains.bind (nsfsReadBlock_maintains _)
    intro _ _
    exact nsfsWriteBlock_maintains hb _
  · intro _
    exact nsfsWriteBlock_maintains hb _

lemma writeLoop_maintains (fuel : ℕ) : ∀ inode position data, l.Inside (DiskInode.indirect inode) →
    Maintains (Guarded env l s0) (writeLoop fuel inode position data) fun r =>
      l.Inside r.indirect := by
  induction fuel with
  | zero =>
    intro inode position data hr
    exact .pure hr
  | succ fuel ih =>
    intro inode position data hr
    apply Maintains.ite
    · intro _
      exact .pure hr
    · intro _
      apply Maintains.bind (nsfsTxInodeDataBlock_maintains hr _ true false)
      rintro ⟨inode', physical⟩ h
      apply seq (writeChunk_maintains h.dataStart_le _ _ _)
      exact ih inode' _ _ h.record

/-- `touchInode` leaves the indirect pointer alone. -/
lemma touchInode_inside (hr : l.Inside inode.indirect) (now : ℕ) :
    l.Inside (touchInode inode now).indirect :=
  Layout.Inside.putLe (Layout.Inside.putLe (hr.putLe (by omega)) (by omega)) (by omega)

/-- The transaction of `nsfs_write` keeps the guard. -/
lemma writeBody_maintains (inodeNumber offset : ℕ) (data : List UInt8) :
    Maintains (Guarded env l s0) (writeBody inodeNumber offset data) fun _ => True := by
  apply Maintains.bind (nsfsReadInode_maintains inodeNumber)
  intro inode hr
  apply seq (requireRegular_maintains inode)
  apply seq nsfsAllocate_maintains
  apply Maintains.bind (writeLoop_maintains _ inode _ _ hr)
  intro grown hg
  apply seq nsBlockFlush_maintains
  apply Maintains.bind nsfsNow_maintains
  intro now _
  have hsized : l.Inside (DiskInode.indirect (if offset + data.length > grown.size then
      grown.setSize (offset + data.length) else grown)) := by
    split
    · exact hg.putLe (by omega)
    · exact hg
  apply seq (nsfsWriteInode_maintains _ (touchInode_inside hsized now))
  exact .pure trivial

lemma zeroTail_maintains (hb : l.Inside b) (tail : ℕ) :
    Maintains (Guarded env l s0) (zeroTail b tail) fun _ => True := by
  apply Maintains.ite
  · intro _
    exact .pure trivial
  · intro hne
    apply seq nsfsAllocate_maintains
    apply Maintains.bind (nsfsReadBlock_maintains _)
    intro _ _
    exact nsfsWriteBlock_maintains (hb.resolve_left hne) _

/-- The transaction of `nsfs_truncate` keeps the guard. -/
lemma truncateBody_maintains (inodeNumber size : ℕ) :
    Maintains (Guarded env l s0) (truncateBody inodeNumber size) fun _ => True := by
  apply Maintains.bind (nsfsReadInode_maintains inodeNumber)
  intro inode hr
  apply seq (requireRegular_maintains inode)
  apply Maintains.ite
  · intro _
    exact .pure trivial
  · intro _
    refine .bind (P := fun _ => True) (Maintains.ite (fun _ => ?_) fun _ => ?_) ?_
    · apply Maintains.bind (nsfsInodeDataBlock_maintains inode _)
      intro physical hp
      exact zeroTail_maintains hp _
    · exact .pure trivial
    · intro _ _
      apply Maintains.bind (clearDataBlocks_maintains _ _ inode hr)
      intro cleared hc
      apply Maintains.bind (nsfsTxMaybeFreeIndirect_maintains hc)
      intro freed hf
      apply seq nsBlockFlush_maintains
      apply Maintains.bind nsfsNow_maintains
      intro now _
      have hsized : l.Inside (freed.setSize size).indirect := hf.putLe (by omega)
      apply seq (nsfsWriteInode_maintains _ (touchInode_inside hsized now))
      exact .pure trivial

/-! ### Directories -/

/-- A block of a directory lies in the data area. -/
lemma directoryBlock_maintains (hr : l.Inside directory.indirect) (logical : ℕ) :
    Maintains (Guarded env l s0) (directoryBlock true directory logical)
      fun p => l.dataStart ≤ p := by
  refine .bind (P := fun p => l.Inside p) (Maintains.ite (fun _ => ?_) fun hno => ?_) ?_
  · apply Maintains.bind (nsfsTxInodeDataBlock_maintains hr logical false true)
    rintro ⟨_, physical⟩ h
    exact .pure h.block
  · exact absurd rfl hno
  · intro physical hp
    apply require_bind
    intro hne
    exact .pure (hp.resolve_left hne)

lemma directoryImage_maintains (hb : l.dataStart ≤ b) :
    Maintains (Guarded env l s0) (nsfsTxImage b) fun _ => True := by
  intro s hs
  have hreg := hs.regions
  exact nsfsTxImage_maintains (by omega) s hs

section

variable (hr : l.Inside directory.indirect)
include hr

section

variable {α β : Type} {P : α → Prop} {scan : St → Block → Except Errno β}

/-- What the operations on directories do with each block: look for a record in it and go on from
there. -/
lemma scannedBlock_maintains {next : ℕ → Block → β → NsM α} (logical : ℕ)
    (hnext : ∀ physical block found, l.dataStart ≤ physical →
      Maintains (Guarded env l s0) (next physical block found) P) :
    Maintains (Guarded env l s0) (do
      let physical ← directoryBlock true directory logical
      let block ← nsfsTxImage physical
      let s ← get
      let found ← liftExcept (scan s block)
      next physical block found) P := by
  apply Maintains.bind (directoryBlock_maintains hr logical)
  intro physical hp
  apply Maintains.bind (directoryImage_maintains hp)
  intro block _
  apply get_bind
  intro _ _
  apply Maintains.bind (P := fun _ => True) (Maintains.liftExcept fun _ _ => trivial)
  exact fun found _ => hnext physical block found hp

/-- The loops over the blocks of a directory. -/
lemma scannedBlocks_maintains {loop : ℕ → ℕ → NsM α} {next : ℕ → ℕ → ℕ → Block → β → NsM α}
    (hloop : ∀ remaining logical, loop (remaining + 1) logical = do
      let physical ← directoryBlock true directory logical
      let block ← nsfsTxImage physical
      let s ← get
      let found ← liftExcept (scan s block)
      next remaining logical physical block found)
    (hend : ∀ logical, Maintains (Guarded env l s0) (loop 0 logical) P)
    (hnext : ∀ remaining logical physical block found, l.dataStart ≤ physical →
      Maintains (Guarded env l s0) (loop remaining (logical + 1)) P →
      Maintains (Guarded env l s0) (next remaining logical physical block found) P)
    (remaining logical : ℕ) : Maintains (Guarded env l s0) (loop remaining logical) P := by
  induction remaining generalizing logical with
  | zero => exact hend logical
  | succ remaining ih =>
    rw [hloop]
    exact scannedBlock_maintains hr logical fun physical block found hp =>
      hnext remaining logical physical block found hp (ih (logical + 1))

end

variable (name : Name)

lemma nsfsDirectoryLookupLoaded_maintains :
    Maintains (Guarded env l s0) (nsfsDirectoryLookupLoaded true directory name) fun _ => True := by
  apply check
  apply check
  apply seq nsfsAllocate_maintains
  apply scannedBlocks_maintains hr (fun _ _ => rfl) fun _ => .throw _
  rintro _ _ _ _ (_ | record) _ ih
  · exact ih
  · exact .pure trivial

lemma addInNewBlock_maintains (inode type : ℕ) :
    Maintains (Guarded env l s0) (addInNewBlock directory name inode type)
      fun r => l.Inside r.indirect := by
  apply check
  apply Maintains.bind (nsfsTxInodeDataBlock_maintains hr _ true true)
  rintro ⟨grown, physical⟩ h
  apply Maintains.bind (directoryImage_maintains h.dataStart_le)
  intro block _
  apply seq (txStore_maintains (Or.inr h.dataStart_le) _)
  exact .pure (h.record.putLe (by omega))

lemma nsfsDirectoryAdd_maintains (inode type : ℕ) :
    Maintains (Guarded env l s0) (nsfsDirectoryAdd directory name inode type)
      fun r => l.Inside r.indirect := by
  apply Maintains.bind (nsfsDirectoryLookupLoaded_maintains hr name).observe
  rintro (e | found) _
  · apply check
    refine .bind (P := fun _ => True)
      (scannedBlocks_maintains hr (fun _ _ => rfl) (fun _ => .pure trivial) ?_ _ 0) ?_
    · rintro _ _ _ _ (_ | record) hp ih
      · exact ih
      · apply seq (txStore_maintains (Or.inr hp) _)
        exact .pure trivial
    · intro placed _
      apply Maintains.ite
      · intro _
        exact .pure hr
      · intro _
        exact addInNewBlock_maintains hr name inode type
  · exact .throw _

lemma nsfsDirectoryRemove_maintains :
    Maintains (Guarded env l s0) (nsfsDirectoryRemove directory name) fun _ => True := by
  apply scannedBlocks_maintains hr (fun _ _ => rfl) fun _ => .throw _
  rintro _ _ _ _ (_ | record) hp ih
  · exact ih
  · exact txStore_maintains (Or.inr hp) _

lemma nsfsDirectorySetDotdot_maintains (parent : ℕ) :
    Maintains (Guarded env l s0) (nsfsDirectorySetDotdot directory parent) fun _ => True := by
  apply scannedBlock_maintains hr 0
  rintro physical block (_ | record) hp
  · exact .throw _
  · exact txStore_maintains (Or.inr hp) _

end

/-! ### Creating and linking -/

lemma readDirectory_maintains (number : ℕ) :
    Maintains (Guarded env l s0) (readDirectory number) fun r => l.Inside r.indirect := by
  apply Maintains.bind (nsfsReadInode_maintains number)
  intro directory hr
  apply check
  exact .pure hr

lemma requireAbsent_maintains (hr : l.Inside directory.indirect) (name : Name) :
    Maintains (Guarded env l s0) (requireAbsent directory name) fun _ => True := by
  apply Maintains.bind (nsfsDirectoryLookupLoaded_maintains hr name).observe
  rintro (e | found) _
  · exact .require fun _ => trivial
  · exact .throw _

lemma populateDirectory_maintains (hr : l.Inside inode.indirect) (inodeNumber parent : ℕ) :
    Maintains (Guarded env l s0) (populateDirectory inode inodeNumber parent)
      fun r => l.Inside r.indirect := by
  apply Maintains.bind (nsfsTxInodeDataBlock_maintains hr 0 true true)
  rintro ⟨grown, physical⟩ h
  apply Maintains.bind (directoryImage_maintains h.dataStart_le)
  intro block _
  apply seq (txStore_maintains (Or.inr h.dataStart_le) _)
  exact .pure (h.record.putLe (by omega))

/-- The transaction of `nsfs_create_typed` keeps the guard. -/
lemma createBody_maintains (directoryNumber : ℕ) (name : Name) (mode type : ℕ) :
    Maintains (Guarded env l s0) (createBody directoryNumber name mode type) fun _ => True := by
  apply Maintains.bind (readDirectory_maintains directoryNumber)
  intro directory hr
  apply seq (requireAbsent_maintains hr name)
  apply Maintains.bind nsfsAllocateInode_maintains
  intro inodeNumber _
  apply Maintains.bind nsfsNow_maintains
  intro now _
  refine .bind (P := fun p => l.Inside p.1.indirect ∧ l.Inside p.2.indirect)
    (Maintains.ite (fun _ => ?_) fun _ => ?_) ?_
  · apply Maintains.bind (populateDirectory_maintains (inside_newInode _ _ _ _) inodeNumber _)
    intro inode hi
    exact .pure ⟨hi, hr.putLe (by omega)⟩
  · exact .pure ⟨inside_newInode _ _ _ _, hr⟩
  · rintro ⟨inode, directory'⟩ ⟨hi, hd⟩
    apply Maintains.bind (nsfsDirectoryAdd_maintains hd name inodeNumber type)
    intro grown hg
    apply seq (nsfsWriteInode_maintains _ hi)
    apply seq (nsfsWriteInode_maintains _ ((hg.stampDirectory now).putLe (by omega)))
    exact .pure trivial

/-- The transaction of `nsfs_link` keeps the guard. -/
lemma linkBody_maintains (targetNumber directoryNumber : ℕ) (name : Name) :
    Maintains (Guarded env l s0) (linkBody targetNumber directoryNumber name) fun _ => True := by
  apply Maintains.bind (nsfsReadInode_maintains targetNumber)
  intro target ht
  apply Maintains.bind (nsfsReadInode_maintains directoryNumber)
  intro directory hr
  apply check
  apply check
  apply check
  apply Maintains.bind (nsfsDirectoryAdd_maintains hr name targetNumber _)
  intro grown hg
  apply Maintains.bind nsfsNow_maintains
  intro now _
  have htarget : l.Inside ((target.setLinkCount (target.linkCount + 1)).setCtimeNs now).indirect :=
    Layout.Inside.putLe (ht.putLe (by omega)) (by omega)
  apply seq (nsfsWriteInode_maintains _ htarget)
  apply seq (nsfsWriteInode_maintains _ (hg.stampDirectory now))
  exact .pure trivial

/-- The transaction of `nsfs_symlink` keeps the guard. -/
lemma symlinkBody_maintains (directoryNumber : ℕ) (name target : Name) :
    Maintains (Guarded env l s0) (symlinkBody directoryNumber name target) fun _ => True := by
  apply Maintains.bind (readDirectory_maintains directoryNumber)
  intro directory hr
  apply seq (requireAbsent_maintains hr name)
  apply Maintains.bind nsfsAllocateInode_maintains
  intro inodeNumber _
  apply Maintains.bind nsfsNow_maintains
  intro now _
  have hfresh : l.Inside ((newInode 0o777 nsfsInodeSymlink 1 now).setSize target.length).indirect :=
    (inside_newInode _ _ _ _).putLe (by omega)
  apply Maintains.bind (nsfsTxInodeDataBlock_maintains hfresh 0 true false)
  rintro ⟨inode, physical⟩ h
  apply seq nsfsAllocate_maintains
  apply seq (nsfsWriteBlock_maintains h.dataStart_le _)
  apply seq nsBlockFlush_maintains
  apply Maintains.bind (nsfsDirectoryAdd_maintains hr name inodeNumber _)
  intro grown hg
  apply seq (nsfsWriteInode_maintains _ h.record)
  apply seq (nsfsWriteInode_maintains _ (hg.stampDirectory now))
  exact .pure trivial

/-! ### Removing -/

lemma lookupInode_maintains (hr : l.Inside directory.indirect) (name : Name) :
    Maintains (Guarded env l s0) (lookupInode directory name) fun p => l.Inside p.2.indirect := by
  apply Maintains.bind (nsfsDirectoryLookupLoaded_maintains hr name)
  rintro ⟨number, type⟩ _
  apply Maintains.bind (nsfsReadInode_maintains number)
  intro inode hi
  apply check
  exact .pure hi

lemma releaseInode_maintains (number : ℕ) (hr : l.Inside inode.indirect) :
    Maintains (Guarded env l s0) (releaseInode number inode) fun _ => True := by
  apply seq (nsfsReleaseInodeContents_maintains hr)
  exact nsfsReleaseInodeNumber_maintains number

lemma dropSubdirectory_maintains (hr : l.Inside directory.indirect) :
    Maintains (Guarded env l s0) (dropSubdirectory directory) fun r => l.Inside r.indirect := by
  apply check
  exact .pure (hr.putLe (by omega))

lemma requireEmpty_maintains (hr : l.Inside directory.indirect) :
    Maintains (Guarded env l s0) (requireEmpty directory) fun _ => True := by
  refine .bind (P := fun _ => True)
    (scannedBlocks_maintains hr (fun _ _ => rfl) (fun _ => .pure trivial) ?_ _ 0) ?_
  · rintro _ _ _ _ (_ | record) _ ih
    · exact ih
    · exact .pure trivial
  · intro _ _
    exact .require fun _ => trivial

lemma checkRemovable_maintains (hr : l.Inside inode.indirect) (removeDirectory : Bool) :
    Maintains (Guarded env l s0) (checkRemovable inode removeDirectory) fun _ => True := by
  apply Maintains.ite
  · intro _
    apply check
    exact requireEmpty_maintains hr
  · intro _
    exact .require fun _ => trivial

lemma dropTarget_maintains (hd : l.Inside directory.indirect) (number : ℕ)
    (hr : l.Inside inode.indirect) (removeDirectory : Bool) :
    Maintains (Guarded env l s0) (dropTarget directory number inode removeDirectory)
      fun r => l.Inside r.indirect := by
  apply Maintains.ite
  · intro _
    apply seq (releaseInode_maintains number hr)
    exact .ite (fun _ => dropSubdirectory_maintains hd) fun _ => Maintains.pure hd
  · intro _
    apply Maintains.bind nsfsNow_maintains
    intro now _
    have hless : l.Inside ((inode.setLinkCount (inode.linkCount - 1)).setCtimeNs now).indirect :=
      Layout.Inside.putLe (hr.putLe (by omega)) (by omega)
    apply seq (nsfsWriteInode_maintains _ hless)
    exact .pure hd

/-- The transaction of `nsfs_remove_common` keeps the guard. -/
lemma removeBody_maintains (directoryNumber : ℕ) (name : Name) (removeDirectory : Bool) :
    Maintains (Guarded env l s0) (removeBody directoryNumber name removeDirectory)
      fun _ => True := by
  apply Maintains.bind (readDirectory_maintains directoryNumber)
  intro directory hd
  apply Maintains.bind (lookupInode_maintains hd name)
  rintro ⟨targetNumber, target⟩ ht
  apply seq (checkRemovable_maintains ht removeDirectory)
  apply seq (nsfsDirectoryRemove_maintains hd name)
  apply Maintains.bind (dropTarget_maintains hd targetNumber ht removeDirectory)
  intro directory' hd'
  apply Maintains.bind nsfsNow_maintains
  intro now _
  apply seq (nsfsWriteInode_maintains _ ((hd'.stampDirectory now).putLe (by omega)))
  exact .pure trivial

/-! ### Renaming -/

lemma cycleCheckLoop_maintains (movedDirectory limit : ℕ) :
    ∀ current, Maintains (Guarded env l s0) (cycleCheckLoop movedDirectory limit current)
      fun _ => True := by
  induction limit with
  | zero =>
    intro current
    exact .throw _
  | succ limit ih =>
    intro current
    apply check
    apply Maintains.ite
    · intro _
      exact .pure trivial
    · intro _
      apply Maintains.bind (nsfsReadInode_maintains current)
      intro directory hd
      apply check
      apply Maintains.bind ((nsfsDirectoryLookupLoaded_maintains hd dotdotName).failAs .eio)
      rintro ⟨parent, type⟩ _
      apply check
      exact ih parent

lemma nsfsRenameCycleCheck_maintains (movedDirectory newParent : ℕ) :
    Maintains (Guarded env l s0) (nsfsRenameCycleCheck movedDirectory newParent) fun _ => True := by
  apply get_bind
  intro _ _
  exact cycleCheckLoop_maintains movedDirectory _ newParent

/-- The record of a destination that is to be replaced. -/
def Destination.Inside (l : Layout) : Destination → Prop
  | .replaced _ inode => l.Inside inode.indirect
  | _ => True

lemma checkDestination_maintains (source : DiskInode) (hr : l.Inside inode.indirect) :
    Maintains (Guarded env l s0) (checkDestination source inode) fun _ => True := by
  apply check
  apply check
  exact .ite (fun _ => requireEmpty_maintains hr) fun _ => Maintains.pure trivial

lemma findDestination_maintains (hd : l.Inside directory.indirect) (newName : Name)
    (noReplace : Bool) (sourceNumber : ℕ) (source : DiskInode) :
    Maintains (Guarded env l s0) (findDestination directory newName noReplace sourceNumber source)
      (Destination.Inside l) := by
  apply Maintains.bind (nsfsDirectoryLookupLoaded_maintains hd newName).observe
  rintro (e | ⟨number, type⟩) _
  · apply check
    exact .pure trivial
  · apply check
    apply Maintains.ite
    · intro _
      exact .pure trivial
    · intro _
      apply Maintains.bind (nsfsReadInode_maintains number)
      intro destination hr
      apply check
      apply seq (checkDestination_maintains source hr)
      exact .pure hr

lemma replaceDestination_maintains (hd : l.Inside directory.indirect) (newName : Name) (number : ℕ)
    (hr : l.Inside inode.indirect) :
    Maintains (Guarded env l s0) (replaceDestination directory newName number inode)
      fun r => l.Inside r.indirect := by
  apply seq (nsfsDirectoryRemove_maintains hd newName)
  refine .bind (P := fun _ => True) (Maintains.ite (fun _ => ?_) fun _ => ?_) ?_
  · exact releaseInode_maintains number hr
  · exact nsfsWriteInode_maintains _ (hr.putLe (by omega))
  · intro _ _
    exact .ite (fun _ => dropSubdirectory_maintains hd) fun _ => Maintains.pure hd

variable {oldDirectory newDirectory : DiskInode}

section

variable (ho : l.Inside oldDirectory.indirect) (hn : l.Inside newDirectory.indirect)
include ho hn

lemma moveSubdirectory_maintains {source : DiskInode}
    (newDirectoryNumber sourceNumber : ℕ) (hr : l.Inside source.indirect) :
    Maintains (Guarded env l s0)
      (moveSubdirectory oldDirectory newDirectory newDirectoryNumber sourceNumber source)
      fun p => l.Inside p.1.indirect ∧ l.Inside p.2.indirect := by
  apply check
  apply seq (nsfsDirectorySetDotdot_maintains hr _)
  apply seq (nsfsWriteInode_maintains _ hr)
  exact .pure ⟨ho.putLe (by omega), hn.putLe (by omega)⟩

lemma writeRenamed_maintains (oldDirectoryNumber newDirectoryNumber : ℕ) :
    Maintains (Guarded env l s0)
      (writeRenamed oldDirectoryNumber newDirectoryNumber oldDirectory newDirectory)
      fun _ => True := by
  apply Maintains.bind nsfsNow_maintains
  intro now _
  apply Maintains.ite
  · intro _
    exact nsfsWriteInode_maintains _ (hn.stampDirectory now)
  · intro _
    apply seq (nsfsWriteInode_maintains _ (ho.stampDirectory now))
    exact nsfsWriteInode_maintains _ (hn.stampDirectory now)

end

section

variable (oldDirectoryNumber : ℕ) (oldName : Name) (newDirectoryNumber : ℕ)

lemma renameMove_maintains {source : DiskInode} {destination : Destination} (newName : Name)
    (ho : l.Inside oldDirectory.indirect) (hn : l.Inside newDirectory.indirect) (sourceNumber : ℕ)
    (hr : l.Inside source.indirect) (hdest : destination.Inside l) :
    Maintains (Guarded env l s0)
      (renameMove oldDirectoryNumber oldName newDirectoryNumber newName oldDirectory newDirectory
        sourceNumber source destination) fun _ => True := by
  apply seq (nsfsDirectoryRemove_maintains ho oldName)
  refine .bind (P := fun r => l.Inside (DiskInode.indirect r)) ?_ ?_
  · cases destination with
    | absent => exact .pure hn
    | same => exact .pure hn
    | replaced number inode => exact replaceDestination_maintains hn newName number hdest
  · intro replaced hp
    apply Maintains.bind (nsfsDirectoryAdd_maintains hp newName sourceNumber _)
    intro grown hg
    refine .bind (P := fun p => l.Inside p.1.indirect ∧ l.Inside p.2.indirect)
      (Maintains.ite (fun _ => ?_) fun _ => ?_) ?_
    · exact moveSubdirectory_maintains ho hg newDirectoryNumber sourceNumber hr
    · exact .pure ⟨ho, hg⟩
    · rintro ⟨old, new⟩ ⟨h1, h2⟩
      exact writeRenamed_maintains h1 h2 oldDirectoryNumber newDirectoryNumber

/-- The transaction of `nsfs_rename` keeps the guard. -/
lemma renameBody_maintains (newName : Name) (noReplace : Bool) : Maintains (Guarded env l s0)
      (renameBody oldDirectoryNumber oldName newDirectoryNumber newName noReplace)
      fun _ => True := by
  apply Maintains.bind (readDirectory_maintains oldDirectoryNumber)
  intro oldDirectory ho
  refine .bind (P := fun r => l.Inside (DiskInode.indirect r))
    (Maintains.ite (fun _ => Maintains.pure ho) fun _ => readDirectory_maintains _) ?_
  intro newDirectory hn
  apply Maintains.bind (lookupInode_maintains ho oldName)
  rintro ⟨sourceNumber, source⟩ hr
  refine .bind (P := fun _ => True)
    (Maintains.ite (fun _ => nsfsRenameCycleCheck_maintains _ _) fun _ => Maintains.pure trivial) ?_
  intro _ _
  apply Maintains.bind (findDestination_maintains hn newName noReplace sourceNumber source)
  intro destination hdest
  have hmove : Maintains (Guarded env l s0) (do
      renameMove oldDirectoryNumber oldName newDirectoryNumber newName oldDirectory newDirectory
        sourceNumber source destination
      pure (some ())) fun _ => True := by
    apply seq (renameMove_maintains _ _ _ _ ho hn sourceNumber hr hdest)
    exact .pure trivial
  cases destination with
  | same => exact .pure trivial
  | absent => exact hmove
  | replaced number inode => exact hmove

end

end Northstar
