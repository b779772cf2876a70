import Northstar.Nsfs.AllocSpec
import Northstar.Nsfs.CommitSpec
import Northstar.Nsfs.Mount

/-! # Mounting and unmounting

What holds on arbitrary images: which commands `nsfs_mount`, `nsfs_unmount` and `nsfs_sync` can send
(`Issues`), and that a handle that is mounted always belongs to a superblock which repeats a layout
of the device (`Attached`). -/

namespace Northstar

open Maintains (get_bind require_bind)

/-! ### Commands on arbitrary images -/

/-- `s'` is reached from `s` by commands with the property `P`. -/
structure Issues (P : Cmd Block → Prop) (s s' : St) : Prop where
  env : s'.env = s.env
  device : ∃ cmds, s'.device = { s.device with log := s.device.log ++ cmds } ∧ ∀ c ∈ cmds, P c

/-- Commands with the property `P` were sent since `s₀`, and the handle is `fs`. -/
structure Works (P : Cmd Block → Prop) (fs : Nsfs) (s₀ s : St) : Prop where
  issues : Issues P s₀ s
  fs : s.fs = fs

variable {P : Cmd Block → Prop} {fs : Nsfs} {s₀ s s' s'' : St} {env : Env} {l : Layout} {b n : ℕ}
  {sb : Superblock}

namespace Issues

lemma refl (s : St) : Issues P s s := ⟨rfl, [], by simp, by simp⟩

lemma trans (h : Issues P s s') (h' : Issues P s' s'') : Issues P s s'' := by
  obtain ⟨cmds, hd, hc⟩ := h.device
  obtain ⟨cmds', hd', hc'⟩ := h'.device
  refine ⟨h'.env.trans h.env, cmds ++ cmds', by rw [hd', hd]; simp, ?_⟩
  intro c hmem
  rcases List.mem_append.mp hmem with hmem | hmem
  · exact hc c hmem
  · exact hc' c hmem

/-- Nothing was sent. -/
lemma of_eq (henv : s'.env = s.env) (hdevice : s'.device = s.device) : Issues P s s' :=
  ⟨henv, [], by rw [hdevice]; simp, by simp⟩

/-- The size of the device stays. -/
lemma blocks (h : Issues P s s') : s'.device.blocks = s.device.blocks := by
  obtain ⟨cmds, hd, -⟩ := h.device
  rw [hd]
  rfl

/-- A device stays read-only or writable. -/
lemma readOnly (h : Issues P s s') : s'.device.readOnly = s.device.readOnly := by
  obtain ⟨cmds, hd, -⟩ := h.device
  rw [hd]

end Issues

/-- `nsfs_allocate` sends nothing. -/
lemma nsfsAllocate_works : Maintains (Works P fs s₀) nsfsAllocate fun _ => True := by
  intro s hs
  have hquiet : Works P fs s₀ { s with tick := s.tick + 1 } :=
    ⟨hs.issues.trans (Issues.of_eq rfl rfl), hs.fs⟩
  rw [sat_nsfsAllocate]
  exact ⟨fun _ => ⟨hquiet, trivial⟩, fun _ => hquiet⟩

/-- A device command with the property. -/
lemma deviceCommand_works {cmd : Cmd Block} (hcmd : P cmd) :
    Maintains (Works P fs s₀) (deviceCommand cmd) fun _ => True := by
  intro s hs
  have hlost : Works P fs s₀ { s with tick := s.tick + 1 } :=
    ⟨hs.issues.trans (Issues.of_eq rfl rfl), hs.fs⟩
  have hone : Issues P s { s with tick := s.tick + 1, device := s.device.issue cmd } :=
    ⟨rfl, [cmd], rfl, by simpa using hcmd⟩
  have hdone : Works P fs s₀ { s with tick := s.tick + 1, device := s.device.issue cmd } :=
    ⟨hs.issues.trans hone, hs.fs⟩
  simp only [deviceCommand, sat_bind, sat_get]
  rcases s.env.io s.tick with _ | ⟨_ | _⟩
  · exact ⟨hdone, trivial⟩
  · exact hlost
  · exact hdone

/-- A write with the property. -/
lemma nsfsWriteBlock_works {x : Block} (hcmd : P (.write b x)) :
    Maintains (Works P fs s₀) (nsfsWriteBlock b x) fun _ => True := by
  apply get_bind
  intro _ _
  apply require_bind
  intro _
  apply require_bind
  intro _
  apply get_bind
  intro _ _
  apply require_bind
  intro _
  apply require_bind
  intro _
  exact deviceCommand_works hcmd

/-! ### Superblocks -/

/-- A read returns what the device shows, and changes nothing. -/
lemma nsfsBlockIoRead_sat (b : ℕ) : Sat (nsfsBlockIoRead b) s
    (fun x s' => s' = s ∧ x = s.device.current b) fun _ s' => s' = s := by
  rw [nsfsBlockIoRead, sat_bind, sat_get, sat_bind, sat_require]
  exact ⟨fun _ => ⟨rfl, rfl⟩, fun _ => rfl⟩

/-- A candidate is a superblock that was accepted. -/
lemma readCandidate_sat (n index : ℕ) : Sat (readCandidate n index) s
    (fun sb s' => s' = s ∧ ∃ block, nsfsValidateSuperblockImage block n = .ok sb)
    fun _ s' => s' = s := by
  rw [readCandidate, sat_bind]
  refine (nsfsBlockIoRead_sat index).mono ?_ fun _ _ h => h
  rintro block s' ⟨rfl, -⟩
  rw [sat_liftExcept]
  exact ⟨fun sb hsb => ⟨rfl, block, hsb⟩, fun _ _ => rfl⟩

/-- The superblock that is selected is one of the two. -/
lemma selectSuperblock_mem {first second : Except Errno Superblock}
    (h : selectSuperblock first second = .ok sb) : first = .ok sb ∨ second = .ok sb := by
  cases first with
  | ok x =>
    cases second with
    | ok y =>
      rw [selectSuperblock] at h
      split at h
      · exact .inr h
      · exact .inl h
    | error e => exact .inl h
  | error e =>
    cases second with
    | ok y => exact .inr h
    | error e' =>
      rw [selectSuperblock] at h
      split at h <;> simp at h

/-- The superblock that `nsfs_read_superblocks` selects was accepted. -/
lemma nsfsReadSuperblocks_sat (n : ℕ) : Sat (nsfsReadSuperblocks n) s
    (fun sb s' => s' = s ∧ ∃ block, nsfsValidateSuperblockImage block n = .ok sb)
    fun _ s' => s' = s := by
  rw [nsfsReadSuperblocks, sat_bind, sat_observe]
  have hcandidate : ∀ index, Sat (observe (readCandidate n index)) s
      (fun r s' => s' = s ∧ ∀ sb, r = .ok sb →
        ∃ block, nsfsValidateSuperblockImage block n = .ok sb)
      fun _ _ => False := by
    intro index
    rw [sat_observe]
    refine (readCandidate_sat n index).mono ?_ ?_
    · rintro sb s' ⟨rfl, block, hb⟩
      refine ⟨rfl, fun sb' hsb' => ⟨block, ?_⟩⟩
      rw [hb, hsb']
    · rintro e s' rfl
      exact ⟨rfl, fun sb hsb => nomatch hsb⟩
  have hrest : ∀ first,
    (∀ sb, first = .ok sb → ∃ block, nsfsValidateSuperblockImage block n = .ok sb) →
      Sat (do
        let second ← observe (readCandidate n 1)
        liftExcept (selectSuperblock first second)) s
      (fun sb s' => s' = s ∧ ∃ block, nsfsValidateSuperblockImage block n = .ok sb)
      fun _ s' => s' = s := by
    intro first hfirst
    rw [sat_bind]
    refine (hcandidate 1).mono ?_ fun _ _ h => h.elim
    rintro second s' ⟨rfl, hsecond⟩
    rw [sat_liftExcept]
    refine ⟨fun sb hsb => ⟨rfl, ?_⟩, fun _ _ => rfl⟩
    rcases selectSuperblock_mem hsb with h | h
    · exact hfirst sb h
    · exact hsecond sb h
  refine (sat_observe.mp (hcandidate 0)).mono ?_ ?_
  · rintro sb s' ⟨rfl, hsb⟩
    exact hrest _ hsb
  · rintro e s' ⟨rfl, hsb⟩
    exact hrest _ hsb

/-! ### Recovery -/

/-- Checking the redo images sends nothing. -/
lemma recoverCheck_works (header : Block) (journalStart remaining : ℕ) :
    ∀ index, Maintains (Works P fs s₀) (recoverCheck header journalStart index remaining)
      fun _ => True := by
  induction remaining with
  | zero =>
    intro index
    exact .pure trivial
  | succ remaining ih =>
    intro index
    apply Maintains.bind ((nsfsReadBlock_maintains _).failAs .eio)
    intro image _
    apply require_bind
    intro _
    exact ih (index + 1)

/-- The replay writes to the targets. -/
lemma recoverReplay_works {header : Block} {journalStart : ℕ} (remaining : ℕ) :
    ∀ index, (∀ k, index ≤ k → k < index + remaining →
        ∀ x, P (.write (Journal.targetBlock header k) x)) →
      Maintains (Works P fs s₀) (recoverReplay header journalStart index remaining)
        fun _ => True := by
  induction remaining with
  | zero =>
    intro index _
    exact .pure trivial
  | succ remaining ih =>
    intro index htargets
    apply Maintains.bind (nsfsReadBlock_maintains _)
    intro image _
    apply Maintains.bind (nsfsWriteBlock_works (htargets index le_rfl (by omega) image))
    intro _ _
    exact ih (index + 1) fun k h1 h2 => htargets k (by omega) (by omega)

/-- `nsfs_clear_journal` writes an empty header and flushes. -/
lemma nsfsClearJournal_works (txid : ℕ) (hflush : P .flush)
    (hclear : ∀ header, HeaderOf nsfsJournalEmpty [] header →
      P (.write fs.superblock.journalStart header)) :
    Maintains (Works P fs s₀) (nsfsClearJournal txid) fun _ => True := by
  apply get_bind
  intro s hs
  rw [hs.fs]
  obtain ⟨header, hmake, hheader⟩ := exists_emptyHeader fs.superblock txid
  rw [hmake]
  apply Maintains.bind (P := fun h => h = header) (Maintains.liftExcept fun a ha => ?_)
  · rintro h rfl
    apply Maintains.bind (nsfsWriteBlock_works (hclear _ hheader))
    intro _ _
    exact deviceCommand_works hflush
  · exact (Except.ok.inj ha).symm

/-- What recovery may write: the targets of an accepted header, and an EMPTY header. -/
lemma nsfsRecoverJournal_works (hflush : P .flush)
    (hclear : ∀ header, HeaderOf nsfsJournalEmpty [] header →
      P (.write fs.superblock.journalStart header))
    (hreplay : ∀ b, fs.superblock.Targets b → ∀ x, P (.write b x)) :
    Maintains (Works P fs s₀) nsfsRecoverJournal fun _ => True := by
  apply get_bind
  intro s hs
  rw [hs.fs]
  apply Maintains.bind nsfsAllocate_works
  intro _ _
  apply Maintains.bind nsfsAllocate_works
  intro _ _
  apply Maintains.bind (nsfsReadBlock_maintains _)
  intro header _
  apply Maintains.bind (P := fun _ => nsfsValidateJournalHeader fs.superblock header = .ok ())
    (Maintains.liftExcept fun _ h => h)
  intro _ hvalid
  apply Maintains.ite
  · intro _
    exact .pure trivial
  · intro _
    apply require_bind
    intro _
    have htargets : ∀ k < Journal.entryCount header,
        fs.superblock.Targets (Journal.targetBlock header k) := by
      unfold nsfsValidateJournalHeader at hvalid
      split_ifs at hvalid with h1 h2 h3 h4
      intro k hk
      exact ⟨(h4 k hk).2.1, (h4 k hk).2.2.1⟩
    have hclearing : Maintains (Works P fs s₀) (nsfsClearJournal (Journal.txid header))
        fun _ => True := nsfsClearJournal_works (Journal.txid header) hflush hclear
    have hcommitted : Maintains (Works P fs s₀)
        (recoverCommitted header fs.superblock.journalStart) fun _ => True := by
      apply Maintains.bind (recoverCheck_works header _ _ 0)
      intro _ _
      apply Maintains.bind (recoverReplay_works _ 0 fun k _ hk x =>
        hreplay _ (htargets k (by omega)) x)
      intro _ _
      exact deviceCommand_works hflush
    apply Maintains.ite
    · intro _
      exact hcommitted.bind fun _ _ => hclearing
    · intro _
      exact hclearing

/-! ### Checks that only read -/

/-- Counting a bitmap sends nothing. -/
lemma countBitmap_works (start reserved limit remaining : ℕ) :
    ∀ index free, Maintains (Works P fs s₀) (countBitmap start reserved limit remaining index free)
      fun _ => True := by
  induction remaining with
  | zero =>
    intro index free
    exact .pure trivial
  | succ remaining ih =>
    intro index free
    apply Maintains.bind (nsfsReadBlock_maintains _)
    intro block _
    apply Maintains.bind (P := fun _ => True) (Maintains.liftExcept fun _ _ => trivial)
    intro free' _
    exact ih (index + 1) free'

/-- `nsfs_validate_bitmaps` sends nothing. -/
lemma nsfsValidateBitmaps_works : Maintains (Works P fs s₀) nsfsValidateBitmaps fun _ => True := by
  apply get_bind
  intro s _
  apply Maintains.bind nsfsAllocate_works
  intro _ _
  apply Maintains.bind (countBitmap_works _ _ _ _ _ _)
  intro _ _
  apply require_bind
  intro _
  apply Maintains.bind (countBitmap_works _ _ _ _ _ _)
  intro _ _
  exact .require fun _ => trivial

/-- `nsfs_read_inode` sends nothing. -/
lemma nsfsReadInode_works (i : ℕ) :
    Maintains (Works P fs s₀) (nsfsReadInode false i) fun _ => True := by
  apply get_bind
  intro s _
  apply require_bind
  intro _
  apply Maintains.bind (P := fun _ => True)
  · apply get_bind
    intro s _
    apply Maintains.bind (P := fun _ => True)
    · apply Maintains.bind nsfsAllocate_works
      intro _ _
      apply Maintains.bind (nsfsReadBlock_maintains _)
      intro _ _
      exact .pure trivial
    · intro _ _
      exact .ite (fun h => absurd h.2 (by simp)) fun _ => Maintains.pure trivial
  · intro _ _
    apply require_bind
    intro _
    apply Maintains.bind (P := fun _ => True)
    · apply get_bind
      intro s _
      apply require_bind
      intro _
      exact .pure trivial
    · rintro ⟨blockNumber, offset⟩ _
      apply Maintains.bind (P := fun _ => True)
      · refine .ite (fun h => absurd h (by simp)) fun _ => ?_
        apply Maintains.bind nsfsAllocate_works
        intro _ _
        exact nsfsReadBlock_maintains _
      · intro block _
        apply require_bind
        intro _
        exact .pure trivial

/-! ### The pair of superblocks -/

/-- The superblock that `nsfs_write_super_pair` publishes, `now` being the time. -/
def stampedSuperblock (sb : Superblock) (state : ℕ) (incrementMountCount : Bool) (now : ℕ) :
    Superblock :=
  let sb := (sb.setGeneration (sb.generation + 1)).setState state
  if incrementMountCount then (sb.setMountCount (sb.mountCount + 1)).setLastMountNs now else sb

/-- The commands of `nsfs_write_super_pair`. -/
def pairCommands (sb : Superblock) : List (Cmd Block) :=
  [.write 1 (nsfsSuperblockImage sb)] ++ ([.flush] ++
    ([.write 0 (nsfsSuperblockImage sb)] ++ [.flush]))

/-- A stamp leaves the layout alone. -/
lemma stampedSuperblock_describes (h : sb.Describes l) (state : ℕ) (incrementMountCount : Bool)
    (now : ℕ) : (stampedSuperblock sb state incrementMountCount now).Describes l := by
  have hstate : ((sb.setGeneration (sb.generation + 1)).setState state).Describes l :=
    Superblock.Describes.putLe (h.putLe (by simp [Superblock.Mutable]))
      (by simp [Superblock.Mutable])
  cases incrementMountCount with
  | false => exact hstate
  | true =>
    exact Superblock.Describes.putLe (hstate.putLe (by simp [Superblock.Mutable]))
      (by simp [Superblock.Mutable])

/-- Stamping the superblock only takes time. -/
lemma stampSuperblock_sat (state : ℕ) (incrementMountCount : Bool) :
    Sat (stampSuperblock state incrementMountCount) s
      (fun sb s' => Quiet s s' ∧
        ∃ now, sb = stampedSuperblock s.fs.superblock state incrementMountCount now)
      fun _ _ => False := by
  cases incrementMountCount with
  | false => exact ⟨⟨rfl, rfl, rfl, rfl⟩, 0, rfl⟩
  | true => exact ⟨⟨rfl, rfl, rfl, rfl⟩, _, rfl⟩

/-- `nsfs_write_super_pair` sent `cmds` and left the handle with the superblock it stamped. -/
structure Paired (state : ℕ) (incrementMountCount poisoned : Bool) (sb : Superblock)
    (cmds : List (Cmd Block)) (s s' : St) : Prop where
  env : s'.env = s.env
  device : s'.device = { s.device with log := s.device.log ++ cmds }
  fs : s'.fs = { s.fs with superblock := sb, poisoned := poisoned }
  tx : s'.tx = s.tx
  stamped : ∃ now, sb = stampedSuperblock s.fs.superblock state incrementMountCount now

/-- The commands of a superblock pair. -/
lemma sends_pair (h : l.Ok) : Sends env l sb (do
    nsfsWriteBlock 1 (nsfsSuperblockImage sb)
    nsBlockFlush
    nsfsWriteBlock 0 (nsfsSuperblockImage sb)
    nsBlockFlush) (pairCommands sb) := by
  have hr := h.regions
  refine (sends_nsfsWriteBlock (by omega) _).bind (sends_nsBlockFlush.bind ?_)
  exact (sends_nsfsWriteBlock (by omega) _).bind sends_nsBlockFlush

/-- `nsfs_write_super_pair` sends its commands, or some of the first of them. -/
lemma nsfsWriteSuperPair_sat (h : Writable env l sb s) (state : ℕ) (incrementMountCount : Bool) :
    Sat (nsfsWriteSuperPair state incrementMountCount) s
      (fun _ s' => ∃ sb', Paired state incrementMountCount false sb' (pairCommands sb') s s')
      fun e s' => e = .enomem ∧ (∃ t, env.allocates t = false) ∧ Quiet s s' ∨
        e = .eio ∧ (∃ t, env.io t ≠ .done) ∧ ∃ sb' done, done <+: pairCommands sb' ∧
          Paired state incrementMountCount true sb' done s s' := by
  rw [nsfsWriteSuperPair, sat_bind, sat_get]
  refine .require_pos h.healthy ?_
  rw [sat_bind, sat_nsfsAllocate]
  constructor
  · intro _
    rw [sat_bind]
    refine (stampSuperblock_sat state incrementMountCount).mono ?_ fun _ _ h => h.elim
    rintro sb' s1 ⟨hq, now, hsb'⟩
    have hq' : Quiet s s1 := ⟨hq.env, hq.device, hq.fs, hq.tx⟩
    have hd : sb'.Describes l := by
      rw [hsb']
      exact stampedSuperblock_describes h.describes state incrementMountCount now
    rw [sat_bind, setSuperblock, sat_modify]
    have hw : Writable env l sb' { s1 with fs := { s1.fs with superblock := sb' } } := by
      refine ⟨⟨hq'.env.trans h.env, h.layout, hd, ?_, ?_, ?_⟩, rfl, ?_, ?_⟩
      · rw [hq'.fs]; exact h.mounted
      · rw [hq'.fs]; exact h.healthy
      · rw [hq'.device]; exact h.deviceBlocks
      · rw [hq'.fs]; exact h.writable
      · rw [hq'.device]; exact h.deviceWritable
    rw [sat_onFailure]
    refine (sends_pair h.layout _ hw).mono ?_ ?_
    · intro _ s2 h₂
      refine ⟨sb', h₂.env.trans hq'.env, ?_, ?_, h₂.tx.trans hq'.tx, now, hsb'⟩
      · rw [h₂.device, hq'.device]
      · rw [h₂.fs, hq'.fs, ← h.healthy]
    · rintro e s2 ⟨rfl, hio, done, hpre, h₂⟩
      refine .inr ⟨rfl, hio, sb', done, hpre, h₂.env.trans hq'.env, ?_, ?_, h₂.tx.trans hq'.tx, now,
        hsb'⟩
      · exact h₂.device.trans (by rw [hq'.device])
      · simp only [h₂.fs, hq'.fs]
  · intro hno
    refine .inl ⟨rfl, ⟨s.tick, ?_⟩, rfl, rfl, rfl, rfl⟩
    rw [← h.env]
    simpa using hno

/-! ### Handles -/

/-- The handle belongs to a superblock that repeats the layout `l` of its device. -/
structure Attached (l : Layout) (s : St) : Prop where
  layout : l.Ok
  describes : s.fs.superblock.Describes l
  blocks : s.device.blocks = l.totalBlocks
  writable : s.fs.mountReadOnly = false → s.device.readOnly = false

/-- Commands that mounting and unmounting need: no restriction but for the journal header. -/
structure Permits (P : Cmd Block → Prop) : Prop where
  flush : P .flush
  cleared : ∀ header, HeaderOf nsfsJournalEmpty [] header → P (.write 2 header)
  other : ∀ b x, b ≠ 2 → P (.write b x)

/-- Superblocks may be written by mounting and unmounting. -/
lemma Permits.pair (h : Permits P) {cmds : List (Cmd Block)} (hpre : cmds <+: pairCommands sb) :
    ∀ c ∈ cmds, P c := by
  intro c hc
  have hmem := hpre.subset hc
  simp only [pairCommands, List.mem_append, List.mem_singleton] at hmem
  rcases hmem with rfl | rfl | rfl | rfl
  · exact h.other _ _ (by omega)
  · exact h.flush
  · exact h.other _ _ (by omega)
  · exact h.flush

/-- Publishing the superblock keeps the handle attached. -/
lemma nsfsWriteSuperPair_attached (hP : Permits P) (ha : Attached l s) (hm : s.fs.mounted = true)
    (hh : s.fs.poisoned = false) (hw : s.fs.mountReadOnly = false) (state : ℕ)
    (incrementMountCount : Bool) :
    Sat (nsfsWriteSuperPair state incrementMountCount) s
      (fun _ s' => Issues P s s' ∧ Attached l s' ∧ s'.fs.mounted = true)
      fun _ s' => Issues P s s' ∧ Attached l s' := by
  have hready : Writable s.env l s.fs.superblock s :=
    ⟨⟨rfl, ha.layout, ha.describes, hm, hh, ha.blocks⟩, rfl, hw, ha.writable hw⟩
  have hpaired : ∀ {poisoned : Bool} {sb : Superblock} {cmds : List (Cmd Block)} {s' : St},
      cmds <+: pairCommands sb → Paired state incrementMountCount poisoned sb cmds s s' →
      Issues P s s' ∧ Attached l s' ∧ s'.fs.mounted = true := by
    intro poisoned sb cmds s' hpre h
    obtain ⟨now, hsb⟩ := h.stamped
    refine ⟨⟨h.env, cmds, h.device, hP.pair hpre⟩, ⟨ha.layout, ?_, ?_, ?_⟩, ?_⟩
    · rw [h.fs, hsb]
      exact stampedSuperblock_describes ha.describes state incrementMountCount now
    · rw [h.device]
      exact ha.blocks
    · rw [h.fs, h.device]
      exact ha.writable
    · rw [h.fs]
      exact hm
  refine (nsfsWriteSuperPair_sat hready state incrementMountCount).mono ?_ ?_
  · rintro - s' ⟨sb, h⟩
    exact hpaired List.prefix_rfl h
  · rintro e s' (⟨-, -, hq⟩ | ⟨-, -, sb, done, hpre, h⟩)
    · refine ⟨Issues.of_eq hq.env hq.device, ha.layout, ?_, ?_, ?_⟩
      · rw [hq.fs]; exact ha.describes
      · rw [hq.device]; exact ha.blocks
      · rw [hq.fs, hq.device]; exact ha.writable
    · obtain ⟨hi, hatt, -⟩ := hpaired hpre h
      exact ⟨hi, hatt⟩

/-- A target that is accepted is not the journal header. -/
lemma Attached.targets_ne (h : sb.Describes l) (hl : l.Ok) (hb : sb.Targets b) : b ≠ 2 := by
  have hj := hl.journal
  have hout := hb.2
  rw [h.journalStart, h.journalBlocks] at hout
  omega

/-- The part of `nsfs_mount` that works on the new handle, on an arbitrary image. -/
lemma mountVolume_sat (hP : Permits P) {readOnly : Bool} {sb0 : Superblock}
    (hfs : s.fs = ⟨sb0, readOnly, true, false⟩) (hblocks : s.device.blocks = n)
    (hw : readOnly = false → s.device.readOnly = false) (requireClean : Bool) :
    Sat (mountVolume readOnly requireClean n) s
      (fun _ s' => Issues P s s' ∧ ∃ l, Attached l s') fun _ s' => Issues P s s' := by
  rw [mountVolume, sat_bind]
  refine (nsfsReadSuperblocks_sat n).mono ?_ ?_
  · rintro sb1 s ⟨rfl, block1, hvalid1⟩
    obtain ⟨l1, hl1, hd1, -, -⟩ := describes_of_validate hvalid1
    rw [sat_bind, setSuperblock, sat_modify, sat_bind, sat_require]
    have hworks1 : ∀ {s' : St}, s' = { s with fs := { s.fs with superblock := sb1 } } →
        Works P ⟨sb1, readOnly, true, false⟩ s s' := by
      rintro s' rfl
      exact ⟨Issues.of_eq rfl rfl, by rw [hfs]⟩
    refine ⟨fun _ => ?_, fun _ => (hworks1 rfl).issues⟩
    have hrecover : Maintains (Works P ⟨sb1, readOnly, true, false⟩ s) nsfsRecoverJournal
        fun _ => True := by
      refine nsfsRecoverJournal_works hP.flush ?_ ?_
      · intro header hheader
        rw [hd1.journalStart]
        exact hP.cleared header hheader
      · exact fun b hb x => hP.other b x (Attached.targets_ne hd1 hl1 hb)
    rw [sat_bind]
    refine (hrecover _ (hworks1 rfl)).mono ?_ fun _ _ h => h.issues
    rintro - s2 ⟨hworks2, -⟩
    rw [sat_bind]
    refine (nsfsReadSuperblocks_sat n).mono ?_ ?_
    · rintro sb s2 ⟨rfl, block, hvalid⟩
      obtain ⟨l, hl, hd, htotal, -⟩ := describes_of_validate hvalid
      rw [sat_bind, setSuperblock, sat_modify]
      have hworks3 : Works P ⟨sb, readOnly, true, false⟩ s
          { s2 with fs := { s2.fs with superblock := sb } } :=
        ⟨hworks2.issues.trans (Issues.of_eq rfl rfl), by rw [hworks2.fs]⟩
      have hattached : ∀ {s' : St}, Works P ⟨sb, readOnly, true, false⟩ s s' → Attached l s' := by
        intro s' h
        refine ⟨hl, ?_, ?_, ?_⟩
        · rw [h.fs]; exact hd
        · rw [h.issues.blocks, hblocks, htotal]
        · rw [h.fs, h.issues.readOnly]; exact hw
      rw [sat_bind]
      refine (nsfsValidateBitmaps_works _ hworks3).mono ?_ fun _ _ h => h.issues
      rintro - s4 ⟨hworks4, -⟩
      rw [sat_bind]
      refine (nsfsReadInode_works nsfsRootInode _ hworks4).mono ?_ fun _ _ h => h.issues
      rintro root s5 ⟨hworks5, -⟩
      rw [sat_bind, sat_require]
      refine ⟨fun _ => ?_, fun _ => hworks5.issues⟩
      rw [sat_ite]
      refine ⟨fun _ => ⟨hworks5.issues, l, hattached hworks5⟩, fun hrw => ?_⟩
      have hro : readOnly = false := by simpa using hrw
      refine (nsfsWriteSuperPair_attached hP (hattached hworks5) (by rw [hworks5.fs])
        (by rw [hworks5.fs]) (by rw [hworks5.fs]; exact hro) _ _).mono ?_ ?_
      · rintro - s6 ⟨hi, ha, -⟩
        exact ⟨hworks5.issues.trans hi, l, ha⟩
      · rintro e s6 ⟨hi, -⟩
        exact hworks5.issues.trans hi
    · rintro e s2 rfl
      exact hworks2.issues
  · rintro e s rfl
    exact Issues.refl s

/-- The size that `nsfs_device_geometry` reports. -/
lemma nsfsDeviceGeometry_blocks {d : BlockDevice} (h : nsfsDeviceGeometry d = .ok n) :
    d.blocks = n := by
  unfold nsfsDeviceGeometry at h
  simp only [bind, Except.bind, throw, throwThe, MonadExceptOf.throw, pure, Except.pure] at h
  split_ifs at h
  exact Except.ok.inj h

/-- `nsfs_mount` on an arbitrary image: if it returns, the handle is attached, and if it stops after
it has dropped the old handle there is none. -/
lemma nsfsMount_sat (hP : Permits P) (flags : ℕ) :
    Sat (nsfsMount flags) s (fun _ s' => Issues P s s' ∧ ∃ l, Attached l s')
      fun _ s' => Issues P s s' ∧ (s' = s ∨ s'.fs.mounted = false) := by
  rw [nsfsMount, sat_bind, sat_require]
  refine ⟨fun _ => ?_, fun _ => ⟨Issues.refl s, Or.inl rfl⟩⟩
  rw [dropHandle, sat_bind, sat_modify, sat_bind, sat_get, sat_bind, sat_liftExcept]
  refine ⟨fun n hn => ?_, fun e _ => ⟨Issues.of_eq rfl rfl, Or.inr rfl⟩⟩
  rw [sat_bind, sat_require]
  refine ⟨fun hrw => ?_, fun _ => ⟨Issues.of_eq rfl rfl, Or.inr rfl⟩⟩
  rw [sat_bind, sat_nsfsAllocate]
  refine ⟨fun _ => ?_, fun _ => ⟨Issues.of_eq rfl rfl, Or.inr rfl⟩⟩
  rw [sat_bind, sat_modify, sat_onFailure]
  refine (mountVolume_sat hP rfl ?_ ?_ _).mono ?_ ?_
  · exact nsfsDeviceGeometry_blocks hn
  · intro hro
    simpa [hro] using hrw
  · rintro - s' ⟨hi, l, ha⟩
    refine ⟨Issues.trans (Issues.of_eq ?_ ?_) hi, l, ha⟩
    · rfl
    · rfl
  · intro e s' hi
    refine ⟨Issues.trans (Issues.trans (Issues.of_eq ?_ ?_) hi) (Issues.of_eq rfl rfl), Or.inr rfl⟩
    · rfl
    · rfl

/-! ### Unmounting -/

lemma Attached.of_eq (ha : Attached l s) (hfs : s'.fs = s.fs) (hi : Issues P s s') :
    Attached l s' where
  layout := ha.layout
  describes := by rw [hfs]; exact ha.describes
  blocks := by rw [hi.blocks]; exact ha.blocks
  writable := by rw [hfs, hi.readOnly]; exact ha.writable

/-- `ns_block_flush` sends a flush. -/
lemma nsBlockFlush_works (hP : Permits P) : Maintains (Works P fs s₀) nsBlockFlush fun _ => True :=
  deviceCommand_works hP.flush

/-- `nsfs_unmount` drops the handle or leaves it attached. -/
lemma nsfsUnmount_sat (hP : Permits P) (ha : s.fs.mounted = true → Attached l s) :
    Sat nsfsUnmount s (fun _ s' => Issues P s s' ∧ s'.fs.mounted = false)
      fun _ s' => Issues P s s' ∧ (s' = s ∨ Attached l s') := by
  rw [nsfsUnmount, sat_bind, sat_get, sat_bind, sat_require]
  refine ⟨fun hm => ?_, fun _ => ⟨Issues.refl s, Or.inl rfl⟩⟩
  rw [sat_bind, sat_require]
  refine ⟨fun hh => ?_, fun _ => ⟨Issues.refl s, Or.inl rfl⟩⟩
  have hend : ∀ s1, Issues P s s1 → Attached l s1 → Sat (do
      nsBlockFlush
      dropHandle) s1 (fun _ s' => Issues P s s' ∧ s'.fs.mounted = false)
      fun _ s' => Issues P s s' ∧ (s' = s ∨ Attached l s') := by
    intro s1 hi1 ha1
    rw [sat_bind]
    refine (nsBlockFlush_works hP s1 ⟨Issues.refl s1, rfl⟩).mono ?_ ?_
    · rintro - s2 ⟨h₂, -⟩
      exact ⟨(hi1.trans h₂.issues).trans (Issues.of_eq rfl rfl), rfl⟩
    · intro e s2 h₂
      exact ⟨hi1.trans h₂.issues, Or.inr (ha1.of_eq h₂.fs h₂.issues)⟩
  rw [sat_bind, sat_ite]
  refine ⟨fun _ => hend s (Issues.refl s) (ha hm), fun hrw => ?_⟩
  refine (nsfsWriteSuperPair_attached hP (ha hm) hm hh (by simpa using hrw) _ _).mono ?_ ?_
  · rintro - s1 ⟨hi1, ha1, -⟩
    exact hend s1 hi1 ha1
  · rintro e s1 ⟨hi1, ha1⟩
    exact ⟨hi1, Or.inr ha1⟩

/-- `nsfs_sync` sends permitted commands. -/
lemma nsfsSync_works (hP : Permits P) : Maintains (Works P fs s₀) nsfsSync fun _ => True := by
  apply get_bind
  intro s _
  apply require_bind
  intro _
  exact nsBlockFlush_works hP

end Northstar
