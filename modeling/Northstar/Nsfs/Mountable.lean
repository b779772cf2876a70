import Mathlib.Data.Nat.Count
import Mathlib.Order.Interval.Finset.Nat
import Northstar.Nsfs.MountSpec

/-! # Volumes that mount

`Mountable l sb d` lists what `nsfs_mount` checks on an image without a transaction to recover: one
of the two superblocks is selected, the journal header is EMPTY, the bitmaps agree with the free
counters, and the root inode is a directory. On such an image `nsfs_mount` succeeds unless the
environment fails, and `nsfsMount_ok` says in which state it ends. -/

namespace Northstar

open Bytes

variable {s s' s'' : St} {env : Env} {l : Layout} {sb : Superblock} {b i start reserved limit : ℕ}

/-- The errors that only the environment causes. -/
def Faulted (env : Env) (e : Errno) : Prop :=
  (e = .enomem ∧ ∃ t, env.allocates t = false) ∨ (e = .eio ∧ ∃ t, env.io t ≠ .done)

instance : Std.Refl Quiet := ⟨fun _ => ⟨rfl, rfl, rfl, rfl⟩⟩

instance : IsTrans St Quiet where
  trans _ _ _ h h' :=
    ⟨h'.env.trans h.env, h'.device.trans h.device, h'.fs.trans h.fs, h'.tx.trans h.tx⟩

/-- A healthy handle stays so. -/
lemma Quiet.ready (h : Quiet s s') (hr : Ready env l s) : Ready env l s' :=
  hr.of_eq h.env h.fs (by rw [h.device])

/-- `nsfs_allocate` works, or the environment is to blame. -/
lemma nsfsAllocate_quiet (h : Ready env l s) :
    Runs Quiet nsfsAllocate s (fun _ _ => True) (Faulted env) := by
  rw [Runs, sat_nsfsAllocate]
  refine ⟨fun _ => ⟨⟨rfl, rfl, rfl, rfl⟩, trivial⟩, fun hno =>
    ⟨⟨rfl, rfl, rfl, rfl⟩, Or.inl ⟨rfl, ?_⟩⟩⟩
  exact ⟨s.tick, by rw [← h.env]; simpa using hno⟩

/-- A read of a block of the device. -/
lemma nsfsBlockIoRead_quiet (hb : b < s.device.blocks) {E : Errno → Prop} :
    Runs Quiet (nsfsBlockIoRead b) s (fun x s' => s' = s ∧ x = s.device.current b) E :=
  Runs.get_bind (Runs.require_pos hb (Runs.pure ⟨rfl, rfl⟩))

/-- A read of a block of the volume. -/
lemma nsfsReadBlock_quiet (h : Ready env l s) (hb : b < l.totalBlocks) {E : Errno → Prop} :
    Runs Quiet (nsfsReadBlock b) s (fun x s' => s' = s ∧ x = s.device.current b) E := by
  have htotal : b < s.fs.superblock.totalBlocks := by rw [h.describes.totalBlocks]; exact hb
  have hdevice : b < s.device.blocks := by rw [h.deviceBlocks]; exact hb
  exact .get_bind (Runs.require_pos ⟨h.mounted, htotal⟩ (nsfsBlockIoRead_quiet hdevice))

/-! ### Counting free numbers -/

/-- `j` is a number of `[reserved, limit)` that is not taken. -/
def FreeAt (taken : ℕ → Bool) (reserved limit j : ℕ) : Prop :=
  reserved ≤ j ∧ j < limit ∧ taken j = false

instance (taken : ℕ → Bool) (reserved limit : ℕ) : DecidablePred (FreeAt taken reserved limit) :=
  fun _ => instDecidableAnd

/-- The count goes on from the numbers before the block. -/
lemma countFree_eq {taken : ℕ → Bool} {bitmap : Block} {base : ℕ} (remaining : ℕ) :
    ∀ bit, (∀ j, bit ≤ j → j < bit + remaining → nsfsBitmapGet bitmap j = taken (base + j)) →
      (∀ j, bit ≤ j → j < bit + remaining → base + j < reserved ∨ limit ≤ base + j →
        taken (base + j) = true) →
      countFree bitmap base reserved limit remaining bit
        (Nat.count (FreeAt taken reserved limit) (base + bit)) =
      .ok (Nat.count (FreeAt taken reserved limit) (base + bit + remaining)) := by
  induction remaining with
  | zero =>
    intro bit _ _
    rfl
  | succ remaining ih =>
    intro bit hget hmarked
    have hbit := hget bit le_rfl (by omega)
    have htail := ih (bit + 1) (fun j h1 h2 => hget j (by omega) (by omega))
      fun j h1 h2 => hmarked j (by omega) (by omega)
    rw [← Nat.add_assoc, Nat.count_succ, Nat.add_right_comm (base + bit) 1 remaining] at htail
    rw [countFree, hbit, ← Nat.add_assoc]
    by_cases hout : base + bit < reserved ∨ limit ≤ base + bit
    · have htaken := hmarked bit le_rfl (by omega) hout
      have hnot : ¬ FreeAt taken reserved limit (base + bit) := fun h => by
        simp [h.2.2] at htaken
      rw [if_neg hnot] at htail
      rw [if_pos (by omega), if_pos htaken]
      exact htail
    · rw [if_neg (by omega)]
      cases htaken : taken (base + bit) with
      | true =>
        have hnot : ¬ FreeAt taken reserved limit (base + bit) := fun h => by
          simp [h.2.2] at htaken
        rw [if_neg hnot] at htail
        exact htail
      | false =>
        rw [if_pos ⟨by omega, by omega, htaken⟩] at htail
        exact htail

/-- Counting the free numbers one by one. -/
lemma count_freeAt {taken : ℕ → Bool} {n : ℕ} (h : limit ≤ n) :
    Nat.count (FreeAt taken reserved limit) n =
      ((Finset.Ico reserved limit).filter fun j => taken j = false).card := by
  have hset : (Finset.range n).filter (FreeAt taken reserved limit) =
      (Finset.Ico reserved limit).filter fun j => taken j = false := by
    ext j
    rw [Finset.mem_filter, Finset.mem_filter, Finset.mem_range, Finset.mem_Ico, FreeAt, and_assoc]
    exact ⟨fun hj => hj.2, fun hj => ⟨by omega, hj⟩⟩
  rw [Nat.count_eq_card_filter_range, hset]

/-- A bitmap of `blocks` blocks in order: the numbers outside `[reserved, limit)` are marked, and
`free` of the others are not. -/
structure Charted (d : Disk) (start reserved limit blocks free : ℕ) : Prop where
  marked : ∀ j < blocks * 32768, j < reserved ∨ limit ≤ j → bitAt d start j = true
  free : free = ((Finset.Ico reserved limit).filter fun j => bitAt d start j = false).card

/-- Counting a bitmap in order gives the free numbers. -/
lemma countBitmap_quiet (h : Ready env l s) {E : Errno → Prop} (remaining : ℕ) :
    ∀ index, start + index + remaining ≤ l.totalBlocks →
      (∀ j < (index + remaining) * 32768, j < reserved ∨ limit ≤ j →
        bitAt s.device.current start j = true) →
      Runs Quiet (countBitmap start reserved limit remaining index
          (Nat.count (FreeAt (bitAt s.device.current start) reserved limit) (index * 32768))) s
        (fun n s' => s' = s ∧ n = Nat.count (FreeAt (bitAt s.device.current start) reserved limit)
          ((index + remaining) * 32768)) E := by
  induction remaining with
  | zero =>
    intro index _ _
    exact .pure ⟨rfl, rfl⟩
  | succ remaining ih =>
    intro index hroom hmarked
    refine .bind (nsfsReadBlock_quiet h (by omega)) ?_
    rintro block s ⟨-⟩ ⟨rfl, rfl⟩
    have hget : ∀ j, 0 ≤ j → j < 0 + 32768 →
        nsfsBitmapGet (s.device.current (start + index)) j =
          bitAt s.device.current start (index * 32768 + j) := by
      intro j _ hj
      rw [bitAt, show (index * 32768 + j) / 32768 = index by omega,
        show (index * 32768 + j) % 32768 = j by omega]
    have hblock := countFree_eq 32768 0 hget fun j _ hj hout => hmarked _ (by omega) hout
    rw [Nat.add_zero, show index * 32768 + 32768 = (index + 1) * 32768 by omega] at hblock
    refine .liftExcept_bind hblock ?_
    rw [show index + (remaining + 1) = index + 1 + remaining by omega] at hmarked ⊢
    exact ih (index + 1) (by omega) hmarked

/-- Counting a bitmap in order gives its free numbers. -/
lemma Charted.countBitmap_quiet {blocks free : ℕ}
    (hc : Charted s.device.current start reserved limit blocks free) (h : Ready env l s)
    (hroom : start + blocks ≤ l.totalBlocks) (hlimit : limit ≤ blocks * 32768) {E : Errno → Prop} :
    Runs Quiet (countBitmap start reserved limit blocks 0 0) s
      (fun n s' => s' = s ∧ n = free) E := by
  have hmarked : ∀ j < (0 + blocks) * 32768, j < reserved ∨ limit ≤ j →
      bitAt s.device.current start j = true := by
    rw [Nat.zero_add]
    exact hc.marked
  have hrun := Northstar.countBitmap_quiet h (E := E) blocks 0 (by omega) hmarked
  rw [Nat.zero_mul, Nat.count_zero, Nat.zero_add blocks, count_freeAt hlimit, ← hc.free] at hrun
  exact hrun

/-! ### Mounting -/

/-- What `nsfs_mount` requires of a device whose journal is empty. -/
structure Mountable (l : Layout) (sb : Superblock) (d : BlockDevice) : Prop where
  geometry : nsfsDeviceGeometry d = .ok l.totalBlocks
  layout : l.Ok
  describes : sb.Describes l
  selected : selectSuperblock (nsfsValidateSuperblockImage (d.current 0) l.totalBlocks)
    (nsfsValidateSuperblockImage (d.current 1) l.totalBlocks) = .ok sb
  header : HeaderOf nsfsJournalEmpty [] (d.current 2)
  inodes : Charted d.current l.inodeBitmapStart 2 l.inodeCount l.inodeBitmapBlocks sb.freeInodes
  blocks : Charted d.current l.blockBitmapStart l.dataStart l.totalBlocks l.blockBitmapBlocks
    sb.freeBlocks
  rootOk : InodeOk ((l.decode d.current).inode nsfsRootInode)
  rootDirectory : ((l.decode d.current).inode nsfsRootInode).type = nsfsInodeDirectory

section Mount

variable (h : Mountable l sb s.device)

include h

/-- The superblock of the volume is selected. -/
lemma Mountable.nsfsReadSuperblocks_sat : Sat (nsfsReadSuperblocks l.totalBlocks) s
    (fun sb' s' => s' = s ∧ sb' = sb) fun _ _ => False := by
  have hr := h.layout.regions
  have hblocks := nsfsDeviceGeometry_blocks h.geometry
  have hread : ∀ index < 2, Sat (observe (readCandidate l.totalBlocks index)) s
      (fun r s' => s' = s ∧
        r = nsfsValidateSuperblockImage (s.device.current index) l.totalBlocks)
      fun _ _ => False := by
    intro index hindex
    rw [sat_observe, readCandidate, nsfsBlockIoRead, sat_bind, sat_bind, sat_get]
    refine .require_pos (by omega) ?_
    rw [sat_pure, sat_liftExcept]
    exact ⟨fun x hx => ⟨rfl, hx.symm⟩, fun e he => ⟨rfl, he.symm⟩⟩
  rw [nsfsReadSuperblocks, sat_bind]
  refine (hread 0 (by omega)).mono ?_ fun _ _ he => he
  rintro first s ⟨rfl, rfl⟩
  rw [sat_bind]
  refine (hread 1 (by omega)).mono ?_ fun _ _ he => he
  rintro second s ⟨rfl, rfl⟩
  rw [h.selected, sat_liftExcept]
  exact ⟨fun x hx => ⟨rfl, (Except.ok.inj hx).symm⟩, fun e he => by cases he⟩

/-- There is nothing to recover. -/
lemma Mountable.nsfsRecoverJournal_quiet (hready : Ready env l s) :
    Runs Quiet nsfsRecoverJournal s (fun _ _ => True) (Faulted env) := by
  have hr := h.layout.regions
  refine .get_bind (Runs.bind (nsfsAllocate_quiet hready) ?_)
  rintro - s1 hq1 -
  refine .bind (nsfsAllocate_quiet (hq1.ready hready)) ?_
  rintro - s2 hq2 -
  rw [hready.describes.journalStart]
  refine .bind (nsfsReadBlock_quiet (hq2.ready (hq1.ready hready)) (by omega)) ?_
  rintro header s3 - ⟨rfl, rfl⟩
  have hheader : HeaderOf nsfsJournalEmpty [] (s3.device.current 2) := by
    rw [hq2.device, hq1.device]
    exact h.header
  refine .liftExcept_bind hheader.validate_empty ?_
  exact .ite (fun _ => Runs.pure trivial) fun hne => absurd hheader.state hne

/-- `nsfs_validate_bitmaps` accepts the bitmaps. -/
lemma Mountable.nsfsValidateBitmaps_quiet (hready : Ready env l s) (hsb : s.fs.superblock = sb) :
    Runs Quiet nsfsValidateBitmaps s (fun _ _ => True) (Faulted env) := by
  have hr := h.layout.regions
  have hd := h.describes
  refine .get_bind (Runs.bind (nsfsAllocate_quiet hready) ?_)
  rintro - s1 hq1 -
  have hready1 := hq1.ready hready
  have hinodes := h.inodes
  have hblocks := h.blocks
  rw [← hq1.device] at hinodes hblocks
  rw [hsb, hd.inodeBitmapStart, hd.totalInodes, hd.inodeBitmapBlocks,
    hd.blockBitmapStart, hd.dataStart, hd.totalBlocks, hd.blockBitmapBlocks]
  refine .bind (hinodes.countBitmap_quiet hready1 (by omega) (by omega)) ?_
  rintro freeInodes s2 - ⟨rfl, rfl⟩
  refine .require_pos rfl ?_
  refine .bind (hblocks.countBitmap_quiet hready1 (by omega) (by omega)) ?_
  rintro freeBlocks s3 - ⟨rfl, rfl⟩
  exact .check (fun hne => absurd rfl hne) fun _ => trivial

end Mount

/-- Outside a transaction `nsfs_read_inode` returns a good record of a marked inode. -/
lemma nsfsReadInode_quiet (hready : Ready env l s) (hi : 0 < i ∧ i < l.inodeCount)
    (hmarked : bitAt s.device.current l.inodeBitmapStart i = true)
    (hok : InodeOk ((l.decode s.device.current).inode i)) :
    Runs Quiet (nsfsReadInode false i) s (fun r _ => r = (l.decode s.device.current).inode i)
      (Faulted env) := by
  have hr := hready.layout.regions
  have hd := hready.describes
  have hbitmap := hready.layout.inodeBitmap_mem (show i < l.inodeBitmapBlocks * 32768 by omega)
  have htable := hready.layout.inodeTable_mem hi.2
  have htotal : i < s.fs.superblock.totalInodes := by rw [hd.totalInodes]; exact hi.2
  have hallocated : Runs Quiet (inodeAllocated false i) s (fun x _ => x = true) (Faulted env) := by
    refine .get_bind (Runs.bind (P := fun x _ => x = true) ?_ ?_)
    · refine .bind (nsfsAllocate_quiet hready) ?_
      rintro - s1 hq1 -
      rw [hd.inodeBitmapStart]
      refine .bind (nsfsReadBlock_quiet (hq1.ready hready) (by omega)) ?_
      rintro block s2 - ⟨rfl, rfl⟩
      rw [hq1.device]
      exact .pure hmarked
    · rintro x s1 - rfl
      exact .ite (fun hc => absurd hc.1 (by simp)) fun _ => Runs.pure rfl
  refine .get_bind (Runs.require_pos ⟨by omega, htotal⟩ (Runs.bind hallocated ?_))
  rintro x s1 hq1 rfl
  have hready1 := hq1.ready hready
  refine .require_pos rfl (Runs.bind (P := fun r s' => s' = s1 ∧
    r = (l.inodeTableStart + i * 128 / 4096, i * 128 % 4096)) ?_ ?_)
  · rw [← hready1.describes.inodeTableStart]
    refine .get_bind (Runs.require_pos ?_ (Runs.pure ⟨rfl, rfl⟩))
    rw [hq1.fs]
    exact htotal
  · rintro r s2 - ⟨rfl, rfl⟩
    refine .bind (P := fun block _ => block = s.device.current (l.inodeTableStart + i * 128 / 4096))
      (Runs.ite (fun hc => absurd hc (by simp)) fun _ =>
        Runs.bind (nsfsAllocate_quiet hready1) ?_) ?_
    · rintro - s3 hq3 -
      refine (nsfsReadBlock_quiet (hq3.ready hready1) (by omega)).mono ?_ fun _ he => he
      rintro block s4 - ⟨rfl, rfl⟩
      rw [hq3.device, hq1.device]
    · rintro block s3 - rfl
      have hrecord : (s.device.current (l.inodeTableStart + i * 128 / 4096)).slice
        (i * 128 % 4096) = (l.decode s.device.current).inode i := (if_pos hi.2).symm
      refine .require_pos ?_ (Runs.pure hrecord)
      rw [hrecord]
      exact hok

/-- The state in which `nsfs_mount` ends on an image in order. -/
structure MountedFrom (sb sb' : Superblock) (s s' : St) : Prop where
  env : s'.env = s.env
  device : s'.device = { s.device with log := s.device.log ++ pairCommands sb' }
  fs : s'.fs = ⟨sb', false, true, false⟩
  tx : s'.tx = s.tx
  stamped : ∃ now, sb' = stampedSuperblock sb nsfsStateDirty true now

/-- The checks of `nsfs_mount` after recovery and the publication of the superblock. -/
lemma Mountable.publish_sat (h : Mountable l sb s.device) (hfs : s.fs = ⟨sb, false, true, false⟩)
    (hw : s.device.readOnly = false) :
    Sat (do
        nsfsValidateBitmaps
        let root ← nsfsReadInode false nsfsRootInode
        require (root.type = nsfsInodeDirectory) .eio
        nsfsWriteSuperPair nsfsStateDirty true) s
      (fun _ s' => ∃ sb', MountedFrom sb sb' s s') fun e _ => Faulted s.env e := by
  have hready : Ready s.env l s := by
    refine ⟨rfl, h.layout, ?_, ?_, ?_, nsfsDeviceGeometry_blocks h.geometry⟩
    · rw [hfs]; exact h.describes
    · rw [hfs]
    · rw [hfs]
  have hr := h.layout.regions
  have hinodes := h.layout.inodes
  have hmarked : bitAt s.device.current l.inodeBitmapStart nsfsRootInode = true :=
    h.inodes.marked 1 (by omega) (Or.inl (by omega))
  rw [sat_bind]
  refine Sat.mono (h.nsfsValidateBitmaps_quiet hready (by rw [hfs])) ?_ fun _ _ he => he.2
  rintro - s1 ⟨hq1, -⟩
  have hread := nsfsReadInode_quiet (hq1.ready hready) ⟨Nat.one_pos, hinodes⟩
    (by rw [hq1.device]; exact hmarked) (by rw [hq1.device]; exact h.rootOk)
  rw [sat_bind]
  refine Sat.mono hread ?_ fun _ _ he => he.2
  rintro root s2 ⟨hq2, rfl⟩
  rw [hq1.device]
  refine .require_pos h.rootDirectory ?_
  have hq : Quiet s s2 := IsTrans.trans _ _ _ hq1 hq2
  have hwritable : Writable s.env l sb s2 := by
    refine ⟨hq.ready hready, ?_, ?_, ?_⟩
    · rw [hq.fs, hfs]
    · rw [hq.fs, hfs]
    · rw [hq.device]; exact hw
  refine (nsfsWriteSuperPair_sat hwritable nsfsStateDirty true).mono ?_ ?_
  · rintro - s3 ⟨sb', hp⟩
    obtain ⟨now, hsb'⟩ := hp.stamped
    refine ⟨sb', hp.env.trans hq.env, ?_, ?_, hp.tx.trans hq.tx, now, ?_⟩
    · rw [hp.device, hq.device]
    · rw [hp.fs, hq.fs, hfs]
    · rw [hsb', hq.fs, hfs]
  · rintro e s3 (⟨he, hmem, -⟩ | ⟨he, hio, -⟩)
    · exact .inl ⟨he, hmem⟩
    · exact .inr ⟨he, hio⟩

/-- The volume is mounted, or the environment is to blame. -/
lemma Mountable.mountVolume_sat {sb0 : Superblock} (h : Mountable l sb s.device)
    (hfs : s.fs = ⟨sb0, false, true, false⟩) (hw : s.device.readOnly = false) {requireClean : Bool}
    (hclean : requireClean = true → sb.state = nsfsStateClean) :
    Sat (mountVolume false requireClean l.totalBlocks) s
      (fun _ s' => ∃ sb', MountedFrom sb sb' s s') fun e _ => Faulted s.env e := by
  rw [mountVolume, sat_bind]
  refine h.nsfsReadSuperblocks_sat.mono ?_ fun _ _ he => he.elim
  rintro sb1 s ⟨rfl, rfl⟩
  rw [sat_bind, setSuperblock, sat_modify]
  refine .require_pos (fun hc => hc.2 (hclean hc.1)) ?_
  have hready : Ready s.env l { s with fs := { s.fs with superblock := sb1 } } := by
    rw [hfs]
    exact ⟨rfl, h.layout, h.describes, rfl, rfl, nsfsDeviceGeometry_blocks h.geometry⟩
  rw [sat_bind]
  refine Sat.mono (Mountable.nsfsRecoverJournal_quiet h hready) ?_ fun _ _ he => he.2
  rintro - s2 ⟨hq, -⟩
  have h₂ : Mountable l sb1 s2.device := by rw [hq.device]; exact h
  rw [sat_bind]
  refine h₂.nsfsReadSuperblocks_sat.mono ?_ fun _ _ he => he.elim
  rintro sb2 s2 ⟨rfl, rfl⟩
  have hpublish :=
    Mountable.publish_sat (s := { s2 with fs := { s2.fs with superblock := sb2 } }) h₂
    (by rw [hq.fs, hfs]) (hq.device ▸ hw)
  refine hpublish.mono ?_ ?_
  · rintro - s' ⟨sb', hm⟩
    refine ⟨sb', hm.env.trans hq.env, ?_, hm.fs, hm.tx.trans hq.tx, hm.stamped⟩
    rw [hm.device]
    exact congrArg (fun d : BlockDevice => { d with log := d.log ++ pairCommands sb' }) hq.device
  · intro e s' he
    exact hq.env ▸ he

/-- `nsfs_mount` without NSFS_MOUNT_READ_ONLY succeeds on an image in order. -/
lemma nsfsMount_ok (h : Mountable l sb s.device) (hw : s.device.readOnly = false) {flags : ℕ}
    (hflags : flags < 4) (hrw : flags % 2 = 0)
    (hclean : flags / 2 = 1 → sb.state = nsfsStateClean) :
    Sat (nsfsMount flags) s (fun _ s' => ∃ sb', MountedFrom sb sb' s s') fun e _ =>
      Faulted s.env e := by
  have hreadOnly : decide (flags % 2 = 1) = false := by simp [hrw]
  rw [nsfsMount]
  refine .require_pos hflags ?_
  rw [dropHandle, sat_bind, sat_modify, sat_bind, sat_get, sat_bind, sat_liftExcept]
  refine ⟨fun n hn => ?_, fun e he => ?_⟩
  · obtain rfl : l.totalBlocks = n := Except.ok.inj (h.geometry.symm.trans hn)
    refine .require_pos (fun hc => absurd hc.2 (by simp [hw])) ?_
    rw [sat_bind, sat_nsfsAllocate]
    refine ⟨fun _ => ?_, fun hno => Or.inl ⟨rfl, s.tick, by simpa using hno⟩⟩
    rw [sat_bind, sat_modify, sat_onFailure, hreadOnly]
    have hvolume := Mountable.mountVolume_sat
      (s := { s with tick := s.tick + 1, fs := ⟨Bytes.zero, false, true, false⟩ }) h rfl hw
      fun hc : decide (flags / 2 = 1) = true => hclean (by simpa using hc)
    refine hvolume.mono ?_ ?_
    · rintro - s' ⟨sb', hm⟩
      exact ⟨sb', hm.env, hm.device, hm.fs, hm.tx, hm.stamped⟩
    · exact fun e s' he => he
  · cases h.geometry.symm.trans he

/-! ### New superblocks -/

/-- The superblock of a new volume repeats its layout. -/
lemma formatSuperblock_describes (h : l.Ok) (hi : l.inodeCount < 2 ^ 32) (uuid : Bytes 16) :
    (formatSuperblock l uuid).Describes l := by
  have hr := h.regions
  unfold formatSuperblock
  constructor
  · refine ⟨?_, ?_, ?_, ?_, ?_, ?_, ?_⟩
    all_goals simp (disch := norm_num) only [le_blit_of_disjoint, le_putLe_of_disjoint,
      le_putLe]
  all_goals simp (disch := first | norm_num; done | omega) only [le_blit_of_disjoint,
    le_putLe_of_disjoint, le_putLe]
  rfl

/-- The counters and the state of a new superblock. -/
lemma formatSuperblock_fields (h : l.Ok) (hi : l.inodeCount < 2 ^ 32) (uuid : Bytes 16) :
    (formatSuperblock l uuid).state = nsfsStateClean ∧
      (formatSuperblock l uuid).freeBlocks = l.totalBlocks - l.dataStart - 1 ∧
      (formatSuperblock l uuid).freeInodes = l.inodeCount - 2 := by
  have hr := h.regions
  unfold formatSuperblock
  refine ⟨?_, ?_, ?_⟩
  all_goals simp (disch := first | norm_num; done | omega) only [le_blit_of_disjoint,
    le_putLe_of_disjoint, le_putLe]

end Northstar
