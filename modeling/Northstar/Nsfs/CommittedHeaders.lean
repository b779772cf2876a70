import Northstar.Lib.Trace
import Northstar.Nsfs.Content
import Northstar.Nsfs.GuardBodies
import Northstar.Nsfs.Mountable

/-! # The journal headers that a commit writes

Recovery after a crash trusts the journal only if `nsfs_validate_journal_header` accepts its header:
the targets have to be different blocks of the volume outside the journal. Here this is shown of
every COMMITTED header that an operation writes, on any image that `nsfs_mount` accepts, as long as
no inode record in the table has its indirect block in front of the data area. `nsfs_mount` does not
check that, nor does `nsfs_read_inode`, and without it the statement is false. -/

namespace Northstar

open Bytes List

variable {s s' : St} {env : Env} {l : Layout} {b i : ℕ} {α : Type}

/-! ### Commands -/

/-- The command is not the store of a COMMITTED header. -/
def NotCommitted (cmd : Cmd Block) : Prop :=
  ∀ header, cmd = .write 2 header → Journal.state header ≠ nsfsJournalCommitted

/-- If the command stores a COMMITTED header then the header is accepted on a volume with layout
`l`. -/
def Accepted (l : Layout) (cmd : Cmd Block) : Prop :=
  ∀ header, cmd = .write 2 header → Journal.state header = nsfsJournalCommitted →
    ∀ sb : Superblock, sb.Describes l → nsfsValidateJournalHeader sb header = .ok ()

/-- Mounting and unmounting may send what is not a COMMITTED header. -/
lemma permits_notCommitted : Permits NotCommitted where
  flush := by
    rintro header ⟨⟩
  cleared := by
    rintro header hheader _ ⟨⟩
    rw [hheader.state]
    decide
  other := by
    rintro b x hb header ⟨⟩
    exact absurd rfl hb

/-- What is not a COMMITTED header is accepted. -/
lemma NotCommitted.accepted {cmd : Cmd Block} (h : NotCommitted cmd) : Accepted l cmd :=
  fun header heq hstate => absurd hstate (h header heq)

lemma accepted_flush : Accepted l .flush := permits_notCommitted.flush.accepted

/-- A write to another block than the journal header is accepted. -/
lemma accepted_of_ne {b : ℕ} (hb : b ≠ 2) (x : Block) : Accepted l (.write b x) :=
  (permits_notCommitted.other b x hb).accepted

/-- The redo commands write behind the journal header. -/
lemma mem_redoCommands {journalStart : ℕ} {cmd : Cmd Block} (entries : List (ℕ × Block)) :
    ∀ index, cmd ∈ redoCommands journalStart index entries →
      ∃ b x, cmd = .write b x ∧ journalStart < b := by
  induction entries with
  | nil =>
    intro index h
    simp [redoCommands] at h
  | cons e entries ih =>
    intro index h
    rcases mem_cons.mp h with rfl | h
    · exact ⟨_, _, rfl, by omega⟩
    · exact ih (index + 1) h

section Commit

variable {sb : Superblock} {header cleared : Block}

section

variable (h : CommitPlan l s sb header cleared) (ha : Active env l s)
include h ha

/-- The header of a commit is accepted, and it is the only one among its commands up to there. -/
lemma CommitPlan.accepted_journal :
    ∀ c ∈ journalCommands sb.journalStart (commitEntries s.tx.entries sb) header, Accepted l c := by
  intro c hc
  simp only [journalCommands, mem_append, mem_singleton] at hc
  rcases hc with hc | rfl | rfl | rfl
  · obtain ⟨b, x, rfl, hb⟩ := mem_redoCommands _ _ hc
    rw [h.describes.journalStart] at hb
    exact accepted_of_ne (by omega) x
  · exact accepted_flush
  · rw [h.describes.journalStart]
    rintro _ ⟨⟩ - sb' hd'
    rw [h.header.validate_committed_iff]
    · exact ha.commitEntries_targets hd'
    · rw [hd'.journalEntries]
      exact ha.collected.commitEntries_length sb
  · exact accepted_flush

/-- The commands after the COMMITTED header are accepted. -/
lemma CommitPlan.accepted_home :
    ∀ c ∈ homeCommands sb.journalStart (commitEntries s.tx.entries sb) cleared, Accepted l c := by
  intro c hc
  simp only [homeCommands, mem_append, mem_singleton, mem_map] at hc
  rcases hc with ⟨e, he, rfl⟩ | rfl | rfl | rfl
  · have htarget : sb.Targets e.1 := (ha.commitEntries_targets h.describes).2 e he
    exact accepted_of_ne (Attached.targets_ne h.describes ha.layout htarget) e.2
  · exact accepted_flush
  · rw [h.describes.journalStart]
    exact (permits_notCommitted.cleared cleared h.cleared).accepted
  · exact accepted_flush

end

end Commit

/-! ### One transaction -/

/-- What a call leaves behind, whether it returns or stops: it refused at once, or it worked on the
mounted handle. -/
inductive CallStep (l : Layout) (s : St) : St → Prop where
  | refused : CallStep l s s
  | worked (s' : St) (hm : s.fs.mounted = true) (hi : Issues (Accepted l) s s')
      (ha : Attached l s') :
    CallStep l s s'

/-- Whether the code returns or stops, it makes such a step. -/
def Calls (l : Layout) (s : St) (m : NsM α) : Prop :=
  Sat m s (fun _ => CallStep l s) fun _ => CallStep l s

/-- The handle may be used: if it is mounted, it is attached, and the indirect blocks of the inode
table are where they should be. -/
def Usable (l : Layout) (s : St) : Prop :=
  s.fs.mounted = true → Attached l s ∧ (l.decode s.device.current).IndirectsInside l

/-- `nsfs_tx_begin` begins a transaction in which nothing has changed. -/
lemma nsfsTxBegin_sat (ha : Attached l s) (hm : s.fs.mounted = true) :
    Sat nsfsTxBegin s
      (fun _ s' => Active s.env l s' ∧ s'.device = s.device ∧ view s' = s.device.current ∧
        s'.fs = s.fs ∧ s'.tx.originalSuperblock = s.fs.superblock ∧ s'.tx.entries = [])
      fun e s' => s'.env = s.env ∧ s'.device = s.device ∧ s'.fs = s.fs ∧
        (s.fs.poisoned = false → s.fs.mountReadOnly = false → Faulted s.env e) := by
  rw [nsfsTxBegin, sat_bind, sat_get, sat_bind, sat_require]
  refine ⟨fun hh => ?_, fun hne => ⟨rfl, rfl, rfl, fun hh => absurd hh hne⟩⟩
  rw [sat_bind, sat_require]
  refine ⟨fun hw => ?_, fun hne => ⟨rfl, rfl, rfl, fun _ hw => absurd hw hne⟩⟩
  rw [sat_bind, sat_nsfsAllocate]
  refine ⟨fun _ => ?_, fun hno =>
    ⟨rfl, rfl, rfl, fun _ _ => Or.inl ⟨rfl, s.tick, by simpa using hno⟩⟩⟩
  have hjournal := ha.layout.journal
  refine ⟨?_, rfl, rfl, rfl, rfl, rfl⟩
  constructor
  · exact ⟨rfl, ha.layout, ha.describes, hm, hh, ha.blocks⟩
  · exact hw
  · exact ha.writable hw
  · exact nodup_nil
  · nofun
  · exact ha.describes.journalEntries
  · change 0 + 2 ≤ min (l.journalBlocks - 1) 128
    omega
  · rfl

/-- Direct writes of a transaction stay in the data area. -/
lemma Frame.issues_accepted (hl : l.Ok) (h : Frame {b | l.dataStart ≤ b} s s') :
    Issues (Accepted l) s s' := by
  have hr := hl.regions
  obtain ⟨cmds, hd, hw⟩ := h.device
  refine ⟨h.env, cmds, hd, ?_⟩
  intro c hc
  cases c with
  | flush => exact accepted_flush
  | write b x =>
    have hb : l.dataStart ≤ b := hw b x hc
    exact accepted_of_ne (by omega) x

/-- A transaction whose body keeps its guard. -/
lemma inTransaction_callStep {body : NsM (Option α)} {unchanged : α} (hu : Usable l s)
    (hm : s.fs.mounted = true)
    (hbody : ∀ s0, Maintains (Guarded s.env l s0) body fun _ => True) :
    Calls l s (inTransaction body unchanged) := by
  obtain ⟨ha, hindirects⟩ := hu hm
  rw [Calls, inTransaction, sat_bind]
  refine (nsfsTxBegin_sat ha hm).mono ?_ ?_
  · rintro - s1 ⟨hactive, hdevice, hview, hfs, horiginal, -⟩
    have hstart : Guarded s.env l s1 s1 := by
      refine ⟨Frame.refl _ s1, hactive, ?_⟩
      rw [vol, hview]
      exact hindirects
    have hi1 : Issues (Accepted l) s s1 := Issues.of_eq hactive.env hdevice
    -- Releasing a transaction that is not durable puts the superblock of the beginning back.
    have hrelease : ∀ s2, Guarded s.env l s1 s2 → ∀ E : Errno → St → Prop, ∀ Q : Unit → St → Prop,
        (∀ s', CallStep l s s' → Q () s') → Sat (nsfsTxRelease true) s2 Q E := by
      intro s2 h₂ E Q hQ
      refine hQ _ (CallStep.worked _ hm
        ((hi1.trans (h₂.frame.issues_accepted ha.layout)).trans (Issues.of_eq rfl rfl))
        ⟨ha.layout, ?_, ?_, ?_⟩)
      · have : s2.tx.originalSuperblock = s.fs.superblock := h₂.frame.original.trans horiginal
        simp only [h₂.active.fresh, this, and_self, if_true]
        exact ha.describes
      · exact h₂.active.deviceBlocks
      · exact fun _ => h₂.active.deviceWritable
    rw [sat_bind, sat_onFailure]
    refine (hbody s1 s1 hstart).mono ?_ ?_
    · rintro result s2 ⟨h₂, -⟩
      cases result with
      | none =>
        rw [sat_bind]
        exact hrelease s2 h₂ _ _ fun s' h => h
      | some a =>
        have hi2 : Issues (Accepted l) s s2 := hi1.trans (h₂.frame.issues_accepted ha.layout)
        obtain ⟨sb, header, cleared, hplan, hcommit⟩ := nsfsTxCommit_sat h₂.active.collected
        have hjournal := hplan.accepted_journal h₂.active
        have hhome := hplan.accepted_home h₂.active
        have hworked : ∀ {s'}, Issues (Accepted l) s2 s' → s'.fs.superblock.Describes l →
            CallStep l s s' := by
          intro s' hi hdescribes
          refine CallStep.worked _ hm (hi2.trans hi) ⟨ha.layout, hdescribes, ?_, ?_⟩
          all_goals
            obtain ⟨cmds, hdevice', -⟩ := hi.device
            rw [hdevice']
          · exact h₂.active.deviceBlocks
          · exact fun _ => h₂.active.deviceWritable
        have haborted : ∀ {cmds s'}, Aborted cmds s2 s' → (∀ c ∈ cmds, Accepted l c) →
            CallStep l s s' := by
          intro cmds s' h hc
          refine hworked ⟨h.env, cmds, h.device, hc⟩ ?_
          rw [h.fs]
          exact (h₂.frame.original.trans horiginal).symm ▸ ha.describes
        have hpublished : ∀ {cmds poisoned s'}, Published cmds sb poisoned s2 s' →
            (∀ c ∈ cmds, Accepted l c) → CallStep l s s' := by
          intro cmds poisoned s' h hc
          refine hworked ⟨h.env, cmds, h.device, hc⟩ ?_
          rw [h.fs]
          exact hplan.describes
        rw [sat_bind]
        refine hcommit.mono ?_ ?_
        · intro _ s' h
          refine hpublished h fun c hc => ?_
          exact (mem_append.mp hc).elim (hjournal c) (hhome c)
        · intro e s' h
          cases h with
          | memory _ _ h => exact haborted h (by simp)
          | before _ _ done hpre h => exact haborted h fun c hc => hjournal c (hpre.subset hc)
          | after _ _ done hpre h =>
            refine hpublished h fun c hc => ?_
            exact (mem_append.mp hc).elim (hjournal c) fun hc => hhome c (hpre.subset hc)
    · intro e s2 h₂
      exact hrelease s2 h₂ _ _ fun s' h => h
  · rintro e s1 ⟨henv, hdevice, hfs, -⟩
    have hi : Issues (Accepted l) s s1 := Issues.of_eq henv hdevice
    exact CallStep.worked _ hm hi (ha.of_eq hfs hi)

/-! ### The calls -/

section Calls

/-! A call looks at its arguments first, and does nothing if it refuses them. -/

variable {β : Type} {f : Unit → NsM α}

lemma Calls.get {f : St → NsM α} (h : Calls l s (f s)) : Calls l s (get >>= f) := h

/-- A test in front of the code. -/
lemma Calls.require {c : Prop} [Decidable c] {e : Errno} (h : c → Calls l s (f ())) :
    Calls l s (Northstar.require c e >>= f) := by
  rw [Calls, sat_bind, sat_require]
  exact ⟨h, fun _ => .refused⟩

/-- A call on a handle that is not mounted stops. -/
lemma Calls.healthy (h : s.fs.mounted = true → Calls l s (f ())) :
    Calls l s (requireHealthy >>= f) := by
  rw [Calls, requireHealthy, sat_bind, sat_bind, sat_get, sat_require]
  exact ⟨fun hm => h hm.1, fun _ => .refused⟩

/-- A result that may be an error. -/
lemma Calls.liftExcept {r : Except Errno β} {f : β → NsM α} (h : ∀ a, Calls l s (f a)) :
    Calls l s (Northstar.liftExcept r >>= f) := by
  rw [Calls, sat_bind, sat_liftExcept]
  exact ⟨fun a _ => h a, fun _ _ => .refused⟩

/-- A case in which nothing is done. -/
lemma Calls.unless {c : Prop} [Decidable c] {a : α} {m : NsM α} (h : Calls l s m) :
    Calls l s (if c then pure a else m) := by
  rw [Calls, sat_ite]
  exact ⟨fun _ => .refused, fun _ => h⟩

variable (hu : Usable l s)

include hu

/-- `nsfs_create_typed` makes such a step. -/
lemma nsfsCreateTyped_callStep (directory : ℕ) (name : Name) (mode type : ℕ) :
    Calls l s (nsfsCreateTyped directory name mode type) := by
  refine .healthy fun hm => .liftExcept fun _ => ?_
  exact inTransaction_callStep hu hm fun _ => createBody_maintains directory name mode type

/-- `nsfs_link` makes such a step. -/
lemma nsfsLink_callStep (target directory : ℕ) (name : Name) :
    Calls l s (nsfsLink target directory name) := by
  refine .liftExcept fun _ => .healthy fun hm => ?_
  exact inTransaction_callStep hu hm fun _ => linkBody_maintains target directory name

/-- `nsfs_remove_common` makes such a step. -/
lemma nsfsRemoveCommon_callStep (directory : ℕ) (name : Name) (removeDirectory : Bool) :
    Calls l s (nsfsRemoveCommon directory name removeDirectory) := by
  refine .liftExcept fun _ => .healthy fun hm => ?_
  exact inTransaction_callStep hu hm fun _ => removeBody_maintains directory name removeDirectory

/-- `nsfs_rename` makes such a step. -/
lemma nsfsRename_callStep (oldDirectory : ℕ) (oldName : Name) (newDirectory : ℕ) (newName : Name)
    (flags : ℕ) :
    Calls l s (nsfsRename oldDirectory oldName newDirectory newName flags) := by
  refine .get (.require fun hm => .liftExcept fun _ => .liftExcept fun _ => .unless ?_)
  exact inTransaction_callStep hu hm.1 fun _ => renameBody_maintains _ _ _ _ _

/-- `nsfs_symlink` makes such a step. -/
lemma nsfsSymlink_callStep (directory : ℕ) (name target : Name) :
    Calls l s (nsfsSymlink directory name target) := by
  refine .get (.require fun hm => .liftExcept fun _ => .require fun _ => .require fun _ => ?_)
  exact inTransaction_callStep hu hm.1 fun _ => symlinkBody_maintains directory name target

/-- `nsfs_write` makes such a step. -/
lemma nsfsWrite_callStep (inode offset : ℕ) (data : List UInt8) :
    Calls l s (nsfsWrite inode offset data) := by
  refine .get (.require fun hm => .unless (.require fun _ => .require fun _ => ?_))
  exact inTransaction_callStep hu hm.1 fun _ => writeBody_maintains inode offset data

/-- `nsfs_truncate` makes such a step. -/
lemma nsfsTruncate_callStep (inode size : ℕ) :
    Calls l s (nsfsTruncate inode size) := by
  refine .get (.require fun hm => .require fun _ => ?_)
  exact inTransaction_callStep hu hm.1 fun _ => truncateBody_maintains inode size

end Calls

/-! ### Runs -/

/-- Between calls a handle that is mounted is attached. -/
def Sane (s : St) : Prop := s.fs.mounted = true → ∃ l, Attached l s

/-- The commands that reached the device between `s` and `s'`. -/
def commandsSince (s s' : St) : List (Cmd Block) := s'.device.log.drop s.device.log.length

/-- Every COMMITTED header that was written between `s` and `s'` is accepted by
`nsfs_validate_journal_header`. The journal of a volume that `nsfs_mount` accepts starts at block 2.
-/
def HeadersAccepted (s s' : St) : Prop :=
  ∀ header, .write 2 header ∈ commandsSince s s' → Journal.state header = nsfsJournalCommitted →
    nsfsValidateJournalHeader s.fs.superblock header = .ok ()

/-- No record of the inode table that `nsfs_read_inode` accepts has its indirect block in front of
the data area. -/
def IndirectsInside (s : St) : Prop :=
  ∀ i < s.fs.superblock.totalInodes, ∀ r : DiskInode,
    r = (s.device.current (s.fs.superblock.inodeTableStart + i * 128 / 4096)).slice
      (i * 128 % 4096) →
    InodeOk r → r.indirect = 0 ∨ s.fs.superblock.dataStart ≤ r.indirect

/-- The state after a call, whether it returned or stopped. -/
abbrev applyOp (s : St) (op : Op) : St := after op.exec s

/-- The indirect blocks of the volume that is attached. -/
lemma IndirectsInside.decode (h : IndirectsInside s) (ha : Attached l s) :
    (l.decode s.device.current).IndirectsInside l := by
  intro i hok
  by_cases hi : i < l.inodeCount
  · have hrecord : (l.decode s.device.current).inode i =
        (s.device.current (l.inodeTableStart + i * 128 / 4096)).slice (i * 128 % 4096) := if_pos hi
    have hinside := h i (by rw [ha.describes.totalInodes]; exact hi) _ rfl
    rw [ha.describes.inodeTableStart, ha.describes.dataStart, ← hrecord] at hinside
    exact hinside hok
  · have hzero : (l.decode s.device.current).inode i = Bytes.zero := if_neg hi
    rw [hzero] at hok
    exact absurd hok not_inodeOk_zero

/-- The commands that were sent have the property. -/
lemma Issues.of_mem {P : Cmd Block → Prop} (h : Issues P s s') :
    ∀ c ∈ commandsSince s s', P c := by
  obtain ⟨cmds, hdevice, hall⟩ := h.device
  have hsince : commandsSince s s' = cmds := by
    rw [commandsSince, hdevice]
    simp
  exact hsince ▸ hall

/-- Accepted commands write accepted headers. -/
lemma Issues.headersAccepted (h : Issues (Accepted l) s s') (hd : s.fs.superblock.Describes l) :
    HeadersAccepted s s' :=
  fun header hmem hstate => h.of_mem _ hmem header rfl hstate _ hd

/-- Commands that are not COMMITTED headers write accepted headers. -/
lemma Issues.headersAccepted_of_notCommitted (h : Issues NotCommitted s s') :
    HeadersAccepted s s' :=
  fun header hmem hstate => absurd hstate (h.of_mem _ hmem header rfl)

lemma headersAccepted_refl (s : St) : HeadersAccepted s s :=
  (Issues.refl (P := NotCommitted) s).headersAccepted_of_notCommitted

variable {m : NsM α} {entries : List (ℕ × Block)}

/-- What holds after the code, whether it returns or stops. -/
lemma Sat.after {Q : St → Prop} (h : Sat m s (fun _ => Q) fun _ => Q) :
    Q (Northstar.after m s) := by
  unfold Northstar.after
  unfold Sat at h
  split <;> simp_all

/-- The code writes accepted headers only, and a handle that it leaves mounted is attached. -/
def Steps (s : St) (m : NsM α) : Prop :=
  Sat m s (fun _ s' => HeadersAccepted s s' ∧ Sane s') fun _ s' => HeadersAccepted s s' ∧ Sane s'

/-- A call that returns a number. -/
lemma Steps.returning (h : Steps s m) (n : ℕ) : Steps s (m >>= fun _ => pure n) := by
  rw [Steps, sat_bind]
  exact h

/-- A call that makes a `CallStep` on a usable handle. -/
lemma steps_of_callStep (hs : Sane s) (hi : IndirectsInside s)
    (h : ∀ l, Usable l s → Calls l s m) :
    Steps s m := by
  by_cases hm : s.fs.mounted = true
  · obtain ⟨l, ha⟩ := hs hm
    have hend : ∀ s', CallStep l s s' → HeadersAccepted s s' ∧ Sane s' := by
      intro s' hstep
      cases hstep with
      | refused => exact ⟨headersAccepted_refl s, hs⟩
      | worked _ _ hissues hend => exact ⟨hissues.headersAccepted ha.describes, fun _ => ⟨l, hend⟩⟩
    exact (h l fun _ => ⟨ha, hi.decode ha⟩).mono (fun _ => hend) fun _ => hend
  · -- On a handle that is not mounted every call refuses, whatever the layout.
    have hend : ∀ s', CallStep ⟨0, 0, 0, 0, 0, 0⟩ s s' → HeadersAccepted s s' ∧ Sane s' := by
      intro s' hstep
      cases hstep with
      | refused => exact ⟨headersAccepted_refl s, hs⟩
      | worked _ hmounted => exact absurd hmounted hm
    exact (h _ fun hmounted => absurd hmounted hm).mono (fun _ => hend) fun _ => hend

/-- `nsfs_mount` makes such a step. -/
lemma nsfsMount_steps (flags : ℕ) (hs : Sane s) : Steps s (nsfsMount flags) := by
  refine (nsfsMount_sat permits_notCommitted flags).mono ?_ ?_
  · rintro - s' ⟨hi, l, ha⟩
    exact ⟨hi.headersAccepted_of_notCommitted, fun _ => ⟨l, ha⟩⟩
  · rintro e s' ⟨hi, rfl | hm⟩
    · exact ⟨hi.headersAccepted_of_notCommitted, hs⟩
    · exact ⟨hi.headersAccepted_of_notCommitted, fun h => absurd h (by simp [hm])⟩

/-- `nsfs_unmount` makes such a step. -/
lemma nsfsUnmount_steps (hs : Sane s) : Steps s nsfsUnmount := by
  obtain ⟨l, hl⟩ : ∃ l, s.fs.mounted = true → Attached l s := by
    by_cases hm : s.fs.mounted = true
    · obtain ⟨l, ha⟩ := hs hm
      exact ⟨l, fun _ => ha⟩
    · exact ⟨⟨0, 0, 0, 0, 0, 0⟩, fun h => absurd h hm⟩
  refine (nsfsUnmount_sat permits_notCommitted hl).mono ?_ ?_
  · rintro - s' ⟨hi, hm⟩
    exact ⟨hi.headersAccepted_of_notCommitted, fun h => absurd h (by simp [hm])⟩
  · rintro e s' ⟨hi, rfl | ha⟩
    · exact ⟨hi.headersAccepted_of_notCommitted, hs⟩
    · exact ⟨hi.headersAccepted_of_notCommitted, fun _ => ⟨l, ha⟩⟩

/-- `nsfs_sync` makes such a step. -/
lemma nsfsSync_steps (hs : Sane s) : Steps s nsfsSync := by
  have hend : ∀ s', Works NotCommitted s.fs s s' → HeadersAccepted s s' ∧ Sane s' := by
    intro s' h
    refine ⟨h.issues.headersAccepted_of_notCommitted, fun hm => ?_⟩
    obtain ⟨l, ha⟩ := hs (by rw [← h.fs]; exact hm)
    exact ⟨l, ha.of_eq h.fs h.issues⟩
  refine (nsfsSync_works permits_notCommitted s ⟨Issues.refl s, rfl⟩).mono ?_ ?_
  · rintro - s' ⟨h, -⟩
    exact hend s' h
  · exact fun _ s' h => hend s' h

/-- Every operation makes such a step. -/
lemma exec_steps (op : Op) (hs : Sane s) (hi : IndirectsInside s) : Steps s op.exec := by
  cases op with
  | mount flags => exact (nsfsMount_steps flags hs).returning 0
  | unmount => exact (nsfsUnmount_steps hs).returning 0
  | sync => exact (nsfsSync_steps hs).returning 0
  | create directory name mode =>
    exact steps_of_callStep hs hi fun l hu => nsfsCreateTyped_callStep hu directory name mode _
  | mkdir directory name mode =>
    exact steps_of_callStep hs hi fun l hu => nsfsCreateTyped_callStep hu directory name mode _
  | symlink directory name target =>
    exact steps_of_callStep hs hi fun l hu => nsfsSymlink_callStep hu directory name target
  | link target directory name =>
    refine Steps.returning ?_ 0
    exact steps_of_callStep hs hi fun l hu => nsfsLink_callStep hu target directory name
  | unlink directory name =>
    refine Steps.returning ?_ 0
    exact steps_of_callStep hs hi fun l hu => nsfsRemoveCommon_callStep hu directory name false
  | rmdir directory name =>
    refine Steps.returning ?_ 0
    exact steps_of_callStep hs hi fun l hu => nsfsRemoveCommon_callStep hu directory name true
  | rename oldDirectory oldName newDirectory newName flags =>
    refine Steps.returning ?_ 0
    exact steps_of_callStep hs hi fun l hu => nsfsRename_callStep hu _ _ _ _ flags
  | write inode offset data =>
    exact steps_of_callStep hs hi fun l hu => nsfsWrite_callStep hu inode offset data
  | truncate inode size =>
    refine Steps.returning ?_ 0
    exact steps_of_callStep hs hi fun l hu => nsfsTruncate_callStep hu inode size

/-- One call writes accepted headers only and leaves a handle that is attached, if it is mounted. -/
lemma applyOp_step (op : Op) (hs : Sane s) (hi : IndirectsInside s) :
    HeadersAccepted s (applyOp s op) ∧ Sane (applyOp s op) :=
  Sat.after (Q := fun s' => HeadersAccepted s s' ∧ Sane s') (exec_steps op hs hi)

/-! ### A pointer into the journal -/

/-- The transaction holds the images `entries`; the handle is as before and commands may have been
sent. -/
structure Holding (entries : List (ℕ × Block)) (s s' : St) : Prop where
  env : s'.env = s.env
  fs : s'.fs = s.fs
  device : ∃ cmds, s'.device = { s.device with log := s.device.log ++ cmds } ∧
    ∀ c ∈ cmds, c = .flush
  tx : s'.tx = { s.tx with entries := entries }

namespace Holding

variable {entries entries' : List (ℕ × Block)} {s'' : St}

/-- The handle stays healthy. -/
lemma ready (h : Holding entries s s') (hr : Ready env l s) : Ready env l s' := by
  obtain ⟨cmds, hd, -⟩ := h.device
  exact hr.of_eq h.env h.fs (by rw [hd]; rfl)

/-- A step that only takes time. -/
lemma quiet (h : Holding entries s s') (hq : Quiet s' s'') : Holding entries s s'' where
  env := hq.env.trans h.env
  fs := hq.fs.trans h.fs
  device := hq.device ▸ h.device
  tx := hq.tx.trans h.tx

/-- The device shows the same blocks. -/
lemma current (h : Holding entries s s') : s'.device.current = s.device.current := by
  obtain ⟨cmds, hd, hflush⟩ := h.device
  funext b
  rw [hd]
  unfold BlockDevice.current BlockDevice.cache
  rw [Cache.run_append]
  refine Cache.current_run_of_avoids fun x hx => ?_
  exact absurd (hflush _ hx) (by simp)

end Holding

section

variable (h : Holding entries s s')
include h

lemma nsfsBitmapTest_holding {start item : ℕ} (hr : Ready env l s)
    (hb : start + item / 32768 < l.totalBlocks) :
    Sat (nsfsBitmapTest start item) s'
      (fun x s'' => x = bitAt s.device.current start item ∧ Holding entries s s'')
      fun e _ => Faulted env e := by
  rw [nsfsBitmapTest, sat_bind]
  refine Sat.mono (nsfsAllocate_quiet (h.ready hr)) ?_ fun _ _ he => he.2
  rintro - s1 ⟨hq, -⟩
  have h₁ := h.quiet hq
  rw [sat_bind]
  refine Sat.mono (nsfsReadBlock_quiet (h₁.ready hr) hb (E := fun _ => False)) ?_
    fun _ _ he => he.2.elim
  rintro block s2 ⟨-, rfl, rfl⟩
  rw [sat_pure, h₁.current]
  exact ⟨rfl, h₁⟩

/-- A block that the transaction does not hold yet is loaded. -/
lemma nsfsTxImage_holding (ha : Active env l s)
    (hb : b < l.totalBlocks) (hroom : entries.length + 2 < l.journalEntries)
    (hnone : entries.lookup b = none) :
    Sat (nsfsTxImage b) s'
      (fun x s'' => x = s.device.current b ∧ Holding (entries ++ [(b, x)]) s s'')
      fun e _ => Faulted env e := by
  have hr := ha.toReady
  have hready := h.ready hr
  rw [nsfsTxImage, sat_bind, sat_get]
  refine .require_pos (by rw [hready.describes.totalBlocks]; exact hb) ?_
  have hfind : s'.tx.find b = none := by rw [h.tx]; exact hnone
  rw [hfind]
  refine .require_pos ?_ ?_
  · rw [h.tx, ha.capacity]
    exact hroom
  · rw [sat_bind]
    refine Sat.mono (nsfsAllocate_quiet hready) ?_ fun _ _ he => he.2
    rintro - s1 ⟨hq, -⟩
    have h₁ := h.quiet hq
    rw [sat_bind]
    refine Sat.mono (nsfsReadBlock_quiet (h₁.ready hr) hb (E := fun _ => False)) ?_
      fun _ _ he => he.2.elim
    rintro block s2 ⟨-, rfl, rfl⟩
    rw [sat_bind, sat_modify, sat_pure, h₁.current]
    refine ⟨rfl, h₁.env, h₁.fs, h₁.device, ?_⟩
    rw [h₁.tx]

/-- `ns_block_flush` in a transaction that holds images. -/
lemma nsBlockFlush_holding (hr : Ready env l s) :
    Sat nsBlockFlush s' (fun _ s'' => Holding entries s s'') fun e _ => Faulted env e := by
  obtain ⟨cmds, hd, hflush⟩ := h.device
  have hio : ∀ r, s'.env.io s'.tick = .failed r → Faulted env .eio := by
    intro r hr'
    refine .inr ⟨rfl, s'.tick, ?_⟩
    rw [← hr.env, ← h.env, hr']
    simp
  have hdone : Holding entries s
      { s' with tick := s'.tick + 1, device := s'.device.issue .flush } := by
    refine ⟨h.env, h.fs, ⟨cmds ++ [.flush], ?_, ?_⟩, h.tx⟩
    · simp [BlockDevice.issue, hd]
    · intro c hc
      rcases mem_append.mp hc with hc | hc
      · exact hflush c hc
      · exact mem_singleton.mp hc
  simp only [nsBlockFlush, deviceCommand, sat_bind, sat_get]
  rcases hres : s'.env.io s'.tick with _ | ⟨_ | _⟩
  · exact hdone
  · exact hio _ hres
  · exact hio _ hres

/-- Storing the record of an inode whose table block the transaction holds. -/
lemma nsfsWriteInode_holding {image : Block} (hr : Ready env l s) (hi : i < l.inodeCount)
    (hfind : entries.lookup (l.inodeTableStart + i * 128 / 4096) = some image) (r : DiskInode) :
    Sat (nsfsWriteInode i r) s'
      (fun _ s'' => ∃ entries', Holding entries' s s'' ∧
        entries'.map Prod.fst = entries.map Prod.fst)
      fun _ _ => False := by
  have hready := h.ready hr
  have hregions := hr.layout.regions
  have htable := hr.layout.inodeTable_mem hi
  rw [nsfsWriteInode, sat_bind, nsfsInodeDiskLocation, sat_bind, sat_get,
    hready.describes.totalInodes]
  refine .require_pos hi ?_
  rw [sat_pure, hready.describes.inodeTableStart]
  rw [sat_bind, nsfsTxImage, sat_bind, sat_get, hready.describes.totalBlocks]
  refine .require_pos (by omega) ?_
  have hfound : s'.tx.find (l.inodeTableStart + i * 128 / 4096) = some image := by
    rw [h.tx]
    exact hfind
  rw [hfound]
  rw [sat_pure, txStore, sat_modify]
  refine ⟨_, ⟨h.env, h.fs, h.device, by rw [h.tx]⟩, ?_⟩
  rw [map_map]
  refine map_congr_left fun e _ => ?_
  simp only [Function.comp_apply]
  split
  · rename_i heq
    exact heq.symm
  · rfl

end

/-- A regular file of size 0 whose indirect block lies in front of the data area and is not all
zero. -/
structure Planted (l : Layout) (i : ℕ) (d : Disk) : Prop where
  number : 0 < i ∧ i < l.inodeCount
  marked : bitAt d l.inodeBitmapStart i = true
  recordOk : InodeOk ((l.decode d).inode i)
  regular : ((l.decode d).inode i).type = nsfsInodeRegular
  size : ((l.decode d).inode i).size = 0
  pointer : ((l.decode d).inode i).indirect ≠ 0
  outside : ((l.decode d).inode i).indirect < l.inodeBitmapStart
  notClear : indirectClear (d ((l.decode d).inode i).indirect) = false

section Planted

variable (hp : Planted l i s.device.current)

include hp

/-- `nsfs_read_inode` loads the table block of the record. -/
lemma Planted.nsfsReadInode_sat (ha : Active env l s) (hs : Holding [] s s') :
    Sat (nsfsReadInode true i) s'
      (fun r s'' => r = (l.decode s.device.current).inode i ∧
        ∃ image, Holding [(l.inodeTableStart + i * 128 / 4096, image)] s s'')
      fun e _ => Faulted env e := by
  have hr := ha.layout.regions
  have hmax := ha.layout.journalEntries_le
  have hready := hs.ready ha.toReady
  have htable := ha.layout.inodeTable_mem hp.number.2
  have hbitmap := ha.layout.inodeBitmap_mem (show i < l.inodeBitmapBlocks * 32768 by
    have := hp.number.2
    omega)
  have hjournal : 8 ≤ l.journalEntries := by
    unfold Layout.journalEntries
    omega
  have htotal : i < s'.fs.superblock.totalInodes := by
    rw [hready.describes.totalInodes]
    exact hp.number.2
  rw [nsfsReadInode, sat_bind, sat_get]
  refine .require_pos ⟨by have := hp.number.1; omega, htotal⟩ ?_
  rw [sat_bind, inodeAllocated, sat_bind, sat_get, sat_bind, hready.describes.inodeBitmapStart]
  refine (nsfsBitmapTest_holding hs ha.toReady (by omega)).mono ?_ fun _ _ he => he
  rintro _ s1 ⟨rfl, hs1⟩
  rw [hp.marked, sat_ite]
  refine ⟨fun hc => absurd hc.1 (by simp), fun _ => ?_⟩
  have hready1 := hs1.ready ha.toReady
  rw [sat_pure]
  refine .require_pos rfl ?_
  rw [sat_bind, nsfsInodeDiskLocation, sat_bind, sat_get, hready1.describes.totalInodes]
  refine .require_pos hp.number.2 ?_
  rw [sat_pure, hready1.describes.inodeTableStart, sat_bind]
  refine Sat.mono (nsfsTxImage_holding hs1 ha (by omega) (by simp; omega) rfl) ?_ fun _ _ he => he
  rintro _ s2 ⟨rfl, hs2⟩
  have hrecord : (s.device.current (l.inodeTableStart + i * 128 / 4096)).slice (i * 128 % 4096) =
      (l.decode s.device.current).inode i := (if_pos hp.number.2).symm
  rw [hrecord]
  exact .require_pos hp.recordOk ⟨rfl, _, hs2⟩

/-- Growing the file loads its indirect block into the transaction. -/
lemma Planted.truncateBody_sat (ha : Active env l s) (hempty : s.tx.entries = []) :
    Sat (truncateBody i 1) s
      (fun r s' => r = some () ∧ ∃ entries, Holding entries s s' ∧ entries.map Prod.fst =
        [l.inodeTableStart + i * 128 / 4096, ((l.decode s.device.current).inode i).indirect])
      fun e _ => Faulted env e := by
  have hr := ha.layout.regions
  have htable := ha.layout.inodeTable_mem hp.number.2
  have hpointer := hp.outside
  have hjournal : 8 ≤ l.journalEntries := by
    unfold Layout.journalEntries
    omega
  have hstart : Holding [] s s := ⟨rfl, rfl, ⟨[], by simp, by simp⟩, by rw [← hempty]⟩
  rw [truncateBody, sat_bind]
  refine (hp.nsfsReadInode_sat ha hstart).mono ?_ fun _ _ he => he
  rintro _ s1 ⟨rfl, image, hs1⟩
  refine .require_pos hp.regular ?_
  rw [hp.size, if_neg (by decide), if_neg (by simp), sat_bind, sat_pure]
  have hnone : nsfsDivCeil 0 4096 - nsfsDivCeil 1 4096 = 0 := by decide
  dsimp only
  rw [hnone, clearDataBlocks, sat_bind, sat_pure, sat_bind, nsfsTxMaybeFreeIndirect,
    if_neg hp.pointer, sat_bind]
  have hlookup : lookup ((l.decode s.device.current).inode i).indirect
      [(l.inodeTableStart + i * 128 / 4096, image)] = none := by
    rw [lookup_eq_none_iff]
    intro e he
    obtain rfl := mem_singleton.mp he
    simp only [bne_iff_ne, ne_eq]
    omega
  refine (nsfsTxImage_holding hs1 ha (by omega) (by simp; omega) hlookup).mono ?_ fun _ _ he => he
  rintro _ s2 ⟨rfl, hs2⟩
  rw [hp.notClear, if_neg (by simp), sat_pure, sat_bind]
  refine (nsBlockFlush_holding hs2 ha.toReady).mono ?_ fun _ _ he => he
  rintro - s3 hs3
  rw [sat_bind, nsfsNow, sat_bind, sat_get, sat_bind, sat_set, sat_pure, sat_bind]
  have hs4 : Holding _ s { s3 with tick := s3.tick + 1 } := hs3.quiet ⟨rfl, rfl, rfl, rfl⟩
  have hheld : lookup (l.inodeTableStart + i * 128 / 4096)
      ([(l.inodeTableStart + i * 128 / 4096, image)] ++
        [(((l.decode s.device.current).inode i).indirect,
          s.device.current ((l.decode s.device.current).inode i).indirect)]) = some image := by
    simp
  refine (nsfsWriteInode_holding hs4 ha.toReady hp.number.2 hheld _).mono ?_ fun _ _ he => he.elim
  rintro - s5 ⟨entries, hs5, hkeys⟩
  exact ⟨rfl, entries, hs5, hkeys.trans (by simp)⟩

/-- The commit of that transaction writes a header that is not accepted. -/
lemma Planted.nsfsTruncate_sat (ha : Attached l s) (hm : s.fs.mounted = true)
    (hh : s.fs.poisoned = false) (hw : s.fs.mountReadOnly = false) :
    Sat (nsfsTruncate i 1) s (fun _ s' => ¬ HeadersAccepted s s') fun e _ => Faulted s.env e := by
  have hr := ha.layout.regions
  have htable := ha.layout.inodeTable_mem hp.number.2
  have hpointer := hp.outside
  rw [nsfsTruncate, sat_bind, sat_get]
  refine .require_pos ⟨hm, hh⟩ (.require_pos (by norm_num) ?_)
  rw [inTransaction, sat_bind]
  refine (nsfsTxBegin_sat ha hm).mono ?_ fun _ _ he => he.2.2.2 hh hw
  rintro - s1 ⟨hactive, hdevice, -, hfs, -, hempty⟩
  have hp1 : Planted l i s1.device.current := by rw [hdevice]; exact hp
  rw [sat_bind, sat_onFailure]
  refine (hp1.truncateBody_sat hactive hempty).mono ?_ fun _ _ he => he
  rintro _ s2 ⟨rfl, entries, hs2, hkeys⟩
  have hlength : entries.length = 2 := by
    rw [← length_map (f := Prod.fst), hkeys]
    rfl
  have hcollected : Collected s.env l s2 := by
    obtain ⟨cmds, hd, -⟩ := hs2.device
    refine ⟨hs2.ready hactive.toReady, ?_, ?_, ?_, ?_, ?_, ?_⟩
    · rw [hs2.fs]; exact hactive.writable
    · rw [hd]; exact hactive.deviceWritable
    · rw [hs2.tx]
      intro e he
      have hmem : e.1 ∈ entries.map Prod.fst := mem_map_of_mem he
      rw [hkeys, hdevice] at hmem
      simp only [mem_cons, not_mem_nil, or_false] at hmem
      omega
    · rw [hs2.tx]; exact hactive.capacity
    · rw [hs2.tx]
      change entries.length + 2 ≤ l.journalEntries
      unfold Layout.journalEntries
      omega
    · rw [hs2.tx]; exact hactive.fresh
  obtain ⟨sb, header, cleared, hplan, hcommit⟩ := nsfsTxCommit_sat hcollected
  rw [sat_bind]
  refine hcommit.mono ?_ ?_
  · intro _ s3 hpublished haccepted
    have htargets : (commitEntries s2.tx.entries sb).map Prod.fst =
        [l.inodeTableStart + i * 128 / 4096,
          ((l.decode s.device.current).inode i).indirect, 1, 0] := by
      rw [hs2.tx, commitEntries, map_append, hkeys, hdevice]
      rfl
    have hvalid : nsfsValidateJournalHeader s.fs.superblock header = .ok () := by
      refine haccepted header ?_ hplan.header.state
      obtain ⟨cmds, hd, -⟩ := hs2.device
      rw [commandsSince, hpublished.device, hd, hdevice, hplan.describes.journalStart]
      simp [journalCommands]
    rw [hplan.header.validate_committed_iff (by
      rw [ha.describes.journalEntries]
      exact hcollected.commitEntries_length sb)] at hvalid
    obtain ⟨hnodup, hinside⟩ := hvalid
    -- The pointer is the backup superblock, which the commit adds, or it lies in the journal.
    rw [htargets] at hnodup
    have hne : ((l.decode s.device.current).inode i).indirect ≠ 1 := by
      intro heq
      rw [heq] at hnodup
      simp at hnodup
    obtain ⟨e, he, hkey⟩ : ∃ e ∈ commitEntries s2.tx.entries sb,
        e.1 = ((l.decode s.device.current).inode i).indirect := by
      have hmem : ((l.decode s.device.current).inode i).indirect ∈
          (commitEntries s2.tx.entries sb).map Prod.fst := by
        rw [htargets]
        simp
      exact mem_map.mp hmem
    have hout := (hinside e he).2
    rw [hkey, ha.describes.journalStart, ha.describes.journalBlocks] at hout
    have hzero := hp.pointer
    omega
  · intro e s3 hfailure
    cases hfailure with
    | memory _ hmem _ => exact .inl ⟨rfl, hmem⟩
    | before _ hio _ _ _ => exact .inr ⟨rfl, hio⟩
    | after _ hio _ _ _ => exact .inr ⟨rfl, hio⟩

end Planted

/-! ### A volume with a pointer of choice -/

section Planted

/-- A volume of 15 blocks with a journal of 9 blocks, 3 inodes and one data block. -/
def plantedLayout : Layout := ⟨15, 3, 9, 1, 1, 1⟩

def plantedSuperblock : Superblock := (formatSuperblock plantedLayout Bytes.zero).setFreeInodes 0

/-- An EMPTY journal header. -/
def plantedHeader : Block :=
  (nsfsMakeJournalHeader plantedSuperblock nsfsJournalEmpty 0 []).toOption.getD Bytes.zero

/-- An empty file with `pointer` as its indirect block. -/
def plantedFile (pointer : ℕ) : DiskInode :=
  nsfsInodeChecksum (((Bytes.zero.putLe 2 1 nsfsInodeRegular).putLe 12 4 1).putLe 112 4 pointer)

/-- The inode table: the root directory and the file. -/
def plantedTable (pointer : ℕ) : Block :=
  (Bytes.zero.blit 128 128 (rootInodeRecord 14 0).get).blit 256 128 (plantedFile pointer).get

def plantedImage (pointer : ℕ) : Disk := fun b =>
  if b < 2 then nsfsSuperblockImage plantedSuperblock
  else if b = 2 then plantedHeader
  else if b = 11 ∨ b = 12 then Bytes.ofFn fun _ => 255
  else if b = 13 then plantedTable pointer
  else Bytes.zero

/-- The device before it is mounted, in an environment without faults. -/
def plantedState (pointer : ℕ) : St where
  env := ⟨fun _ => true, fun _ => .done, fun _ => 0⟩
  tick := 0
  device := ⟨4096, 15, false, plantedImage pointer, []⟩
  fs := ⟨Bytes.zero, false, false, false⟩
  tx := Transaction.cleared

variable {pointer : ℕ}

/-- The layout of the small volume is in order. -/
lemma plantedLayout_ok : plantedLayout.Ok := by
  constructor <;> decide

/-- Its superblock repeats the layout. -/
lemma plantedSuperblock_describes : plantedSuperblock.Describes plantedLayout :=
  Superblock.Describes.putLe (formatSuperblock_describes plantedLayout_ok (by decide) _)
    (by simp [Superblock.Mutable])

/-- The state and the counters of its superblock. -/
lemma plantedSuperblock_fields : plantedSuperblock.state = nsfsStateClean ∧
    plantedSuperblock.freeBlocks = 0 ∧ plantedSuperblock.freeInodes = 0 := by
  obtain ⟨h1, h2, -⟩ := formatSuperblock_fields plantedLayout_ok (by decide) Bytes.zero
  refine ⟨?_, ?_, ?_⟩
  · exact (le_putLe_of_disjoint (by norm_num)).trans h1
  · exact (le_putLe_of_disjoint (by norm_num)).trans h2
  · exact le_putLe (by norm_num) (by norm_num)

lemma plantedHeader_of : HeaderOf nsfsJournalEmpty [] plantedHeader := by
  obtain ⟨header, hmake, hheader⟩ := exists_emptyHeader plantedSuperblock 0
  rw [plantedHeader, hmake]
  exact hheader

/-- In a block of ones every bit is set. -/
lemma nsfsBitmapGet_ones {bit : ℕ} (h : bit < 32768) :
    nsfsBitmapGet (Bytes.ofFn fun _ => 255) bit = true := by
  rw [nsfsBitmapGet_eq, get_ofFn (by omega)]
  have hbit : bit % 8 < 8 := Nat.mod_lt _ (by norm_num)
  interval_cases bit % 8 <;> rfl

/-- The records of the planted inode table. -/
lemma plantedTable_record (pointer : ℕ) {i : ℕ} (hi : i < 3) :
    (plantedLayout.decode (plantedImage pointer)).inode i =
      if i = 0 then Bytes.zero
      else if i = 1 then rootInodeRecord 14 0 else plantedFile pointer := by
  have htable : (plantedLayout.decode (plantedImage pointer)).inode i =
      (plantedTable pointer).slice (i * 128 % 4096) := by
    have hblock : plantedLayout.inodeTableStart + i * 128 / 4096 = 13 := by
      change 13 + i * 128 / 4096 = 13
      omega
    refine (if_pos hi).trans ?_
    rw [hblock]
    rfl
  rw [htable, plantedTable]
  interval_cases i
  · rw [slice_blit_of_disjoint (by norm_num), slice_blit_of_disjoint (by norm_num)]
    exact Bytes.ext fun j hj => by simp [get_slice _ _ hj]
  · rw [slice_blit_of_disjoint (by norm_num)]
    exact slice_blit_self (by norm_num)
  · exact slice_blit_self (by norm_num)

/-- A sealed record with fields in range passes the checks of `nsfs_read_inode`. -/
lemma inodeOk_nsfsInodeChecksum {r : DiskInode}
    (htype : r.type = nsfsInodeRegular ∨ r.type = nsfsInodeDirectory ∨ r.type = nsfsInodeSymlink)
    (hlinks : r.linkCount ≠ 0) (hsize : r.size ≤ 4243456) : InodeOk (nsfsInodeChecksum r) := by
  have hfield : ∀ {off w}, off + w ≤ 120 → (nsfsInodeChecksum r).le off w = r.le off w := fun hw =>
    DiskInode.le_of_body (DiskInode.body_nsfsInodeChecksum r) (Or.inl hw)
  refine ⟨DiskInode.checksum_nsfsInodeChecksum r, ?_, ?_, ?_⟩
  · rw [DiskInode.type, hfield (by norm_num)]
    exact htype
  · rw [DiskInode.linkCount, hfield (by norm_num)]
    exact hlinks
  · rw [DiskInode.size, hfield (by norm_num)]
    exact hsize

/-- The fields of the planted record in front of the checksum. -/
lemma le_plantedFile {off w : ℕ} (h : off + w ≤ 120) : (plantedFile pointer).le off w =
    (((Bytes.zero.putLe 2 1 nsfsInodeRegular).putLe 12 4 1).putLe 112 4 pointer :
      DiskInode).le off w :=
  DiskInode.le_of_body (DiskInode.body_nsfsInodeChecksum _) (Or.inl h)

/-- The root record passes the tests. -/
lemma rootInodeRecord_ok : InodeOk (rootInodeRecord 14 0) ∧
    (rootInodeRecord 14 0).type = nsfsInodeDirectory ∧ (rootInodeRecord 14 0).indirect = 0 := by
  have hfield : ∀ {off w}, off + w ≤ 120 → (rootInodeRecord 14 0).le off w = _ := fun hw =>
    DiskInode.le_of_body (DiskInode.body_nsfsInodeChecksum _) (Or.inl hw)
  refine ⟨inodeOk_nsfsInodeChecksum (Or.inr (Or.inl ?_)) ?_ ?_, ?_, ?_⟩
  · simp (disch := norm_num) only [le_putLe_of_disjoint, le_putLe]
  · simp (disch := norm_num) [le_putLe_of_disjoint, le_putLe]
  · simp (disch := norm_num) [le_putLe_of_disjoint, le_putLe]
  · rw [DiskInode.type, hfield (by norm_num)]
    simp (disch := norm_num) only [le_putLe_of_disjoint, le_putLe]
  · rw [DiskInode.indirect, hfield (by norm_num)]
    simp (disch := norm_num) only [le_putLe_of_disjoint, le_zero]

/-- The planted record passes the tests. -/
lemma plantedFile_ok (hlt : pointer < 256 ^ 4) : InodeOk (plantedFile pointer) ∧
    (plantedFile pointer).type = nsfsInodeRegular ∧ (plantedFile pointer).size = 0 ∧
    (plantedFile pointer).indirect = pointer := by
  refine ⟨inodeOk_nsfsInodeChecksum (Or.inl ?_) ?_ ?_, ?_, ?_, ?_⟩
  · simp (disch := norm_num) only [le_putLe_of_disjoint, le_putLe]
  · simp (disch := norm_num) [le_putLe_of_disjoint, le_putLe]
  · simp (disch := norm_num) [le_putLe_of_disjoint]
  · rw [DiskInode.type, le_plantedFile (by norm_num)]
    simp (disch := norm_num) only [le_putLe_of_disjoint, le_putLe]
  · rw [DiskInode.size, le_plantedFile (by norm_num)]
    simp (disch := norm_num) only [le_putLe_of_disjoint, le_zero]
  · rw [DiskInode.indirect, le_plantedFile (by norm_num)]
    exact le_putLe (by norm_num) hlt

/-- Every bit of the planted bitmaps is set. -/
lemma bitAt_plantedImage {start item : ℕ} (hstart : start = 11 ∨ start = 12)
    (hitem : item < 32768) :
    bitAt (plantedImage pointer) start item = true := by
  have hblock : plantedImage pointer (start + item / 32768) = Bytes.ofFn fun _ => 255 := by
    rw [show start + item / 32768 = start by omega]
    rcases hstart with rfl | rfl <;> rfl
  rw [bitAt, hblock]
  exact nsfsBitmapGet_ones (Nat.mod_lt _ (by norm_num))

/-- The planted bitmaps are in order. -/
lemma plantedImage_charted {start reserved limit : ℕ} (hstart : start = 11 ∨ start = 12)
    (hlimit : limit ≤ 32768) : Charted (plantedImage pointer) start reserved limit 1 0 where
  marked := fun j hj _ => bitAt_plantedImage hstart (by omega)
  free := by
    rw [eq_comm, Finset.card_eq_zero, Finset.filter_eq_empty_iff]
    intro j hj
    rw [bitAt_plantedImage hstart (by have := (Finset.mem_Ico.mp hj).2; omega)]
    simp

/-- The planted volume can be mounted. -/
lemma plantedState_mountable (pointer : ℕ) :
    Mountable plantedLayout (nsfsSuperblockSeal plantedSuperblock)
      (plantedState pointer).device := by
  obtain ⟨hstate, hblocks, hinodes⟩ := plantedSuperblock_fields
  have hvalid : nsfsValidateSuperblockImage (nsfsSuperblockImage plantedSuperblock) 15 =
      .ok (nsfsSuperblockSeal plantedSuperblock) :=
    validate_nsfsSuperblockImage plantedSuperblock_describes plantedLayout_ok
      ⟨Or.inl hstate, by omega, by omega⟩
  obtain ⟨hok, hdirectory, -⟩ := rootInodeRecord_ok
  refine ⟨?_, plantedLayout_ok, plantedSuperblock_describes.seal, ?_, plantedHeader_of,
    ?_, ?_, ?_, ?_⟩
  · have hpower : Nat.isPowerOfTwo 4096 := ⟨12, by norm_num⟩
    simp [nsfsDeviceGeometry, plantedState, plantedLayout, hpower]
    rfl
  · change selectSuperblock (nsfsValidateSuperblockImage (nsfsSuperblockImage plantedSuperblock) 15)
      (nsfsValidateSuperblockImage (nsfsSuperblockImage plantedSuperblock) 15) = _
    rw [hvalid, selectSuperblock, if_neg (lt_irrefl _)]
  · rw [show (nsfsSuperblockSeal plantedSuperblock).freeInodes = 0 from
      (le_nsfsSuperblockSeal _ (by norm_num)).trans hinodes]
    exact plantedImage_charted (Or.inl rfl) (by decide)
  · rw [show (nsfsSuperblockSeal plantedSuperblock).freeBlocks = 0 from
      (le_nsfsSuperblockSeal _ (by norm_num)).trans hblocks]
    exact plantedImage_charted (Or.inr rfl) (by decide)
  · change InodeOk ((plantedLayout.decode (plantedImage pointer)).inode 1)
    rw [plantedTable_record pointer (by norm_num)]
    exact hok
  · change ((plantedLayout.decode (plantedImage pointer)).inode 1).type = _
    rw [plantedTable_record pointer (by norm_num)]
    exact hdirectory

/-- Mounting changes the superblocks only. -/
lemma MountedFrom.current {sb sb' : Superblock} (h : MountedFrom sb sb' s s') (hb : 2 ≤ b) :
    s'.device.current b = s.device.current b := by
  rw [h.device]
  unfold BlockDevice.current BlockDevice.cache
  rw [Cache.run_append]
  refine Cache.current_run_of_avoids fun x hx => ?_
  simp only [pairCommands, mem_append, mem_singleton, Cmd.write.injEq, reduceCtorEq,
    false_or, or_false] at hx
  omega

/-- The volume mounts, and what is on it besides the superblocks is as before. -/
lemma plantedState_mounts (pointer : ℕ) :
    Succeeds (nsfsMount 0) (plantedState pointer) ∧
      Attached plantedLayout (after (nsfsMount 0) (plantedState pointer)) ∧
      (after (nsfsMount 0) (plantedState pointer)).fs.mounted = true ∧
      (after (nsfsMount 0) (plantedState pointer)).fs.poisoned = false ∧
      (after (nsfsMount 0) (plantedState pointer)).fs.mountReadOnly = false ∧
      (after (nsfsMount 0) (plantedState pointer)).env = (plantedState pointer).env ∧
      ∀ b, 2 ≤ b → (after (nsfsMount 0) (plantedState pointer)).device.current b =
        plantedImage pointer b := by
  have hmountable := plantedState_mountable pointer
  have hmount := nsfsMount_ok hmountable rfl (by norm_num : 0 < 4) rfl (by norm_num)
  cases hrun : nsfsMount 0 (plantedState pointer) with
  | error e s' =>
    have hfault := hmount.error hrun
    simp [Faulted, plantedState] at hfault
  | ok u s' =>
    obtain ⟨sb', h⟩ := hmount.ok hrun
    obtain ⟨now, hsb'⟩ := h.stamped
    have hafter : after (nsfsMount 0) (plantedState pointer) = s' := by rw [after, hrun]
    rw [hafter]
    refine ⟨⟨u, s', hrun⟩, ⟨plantedLayout_ok, ?_, ?_, ?_⟩, ?_, ?_, ?_, h.env,
      fun b hb => h.current hb⟩
    · rw [h.fs, hsb']
      exact stampedSuperblock_describes hmountable.describes nsfsStateDirty true now
    · rw [h.device]
      exact nsfsDeviceGeometry_blocks hmountable.geometry
    · rw [h.device]
      exact fun _ => rfl
    · rw [h.fs]
    · rw [h.fs]
    · rw [h.fs]

section Disk

variable {d : Disk} (hd : ∀ b, 2 ≤ b → d b = plantedImage pointer b)

include hd

/-- The records of a mounted device with the planted table. -/
lemma planted_record {i : ℕ} (hi : i < 3) : (plantedLayout.decode d).inode i =
    if i = 0 then Bytes.zero else if i = 1 then rootInodeRecord 14 0 else plantedFile pointer := by
  rw [← plantedTable_record pointer hi]
  refine (if_pos hi).trans (Eq.trans ?_ (if_pos hi).symm)
  rw [hd _ (le_trans (by decide : 2 ≤ plantedLayout.inodeTableStart) (Nat.le_add_right _ _))]

end Disk

/-- A file that points to the journal header. -/
lemma planted_of_eq {d : Disk} (hd : ∀ b, 2 ≤ b → d b = plantedImage 2 b) :
    Planted plantedLayout 2 d := by
  have hrecord : (plantedLayout.decode d).inode 2 = plantedFile 2 := planted_record hd (by norm_num)
  obtain ⟨hok, hregular, hsize, hpointer⟩ := plantedFile_ok (by norm_num : 2 < 256 ^ 4)
  constructor
  · decide
  · rw [bitAt, hd _ (by decide)]
    exact nsfsBitmapGet_ones (by norm_num)
  · rw [hrecord]
    exact hok
  · rw [hrecord]
    exact hregular
  · rw [hrecord]
    exact hsize
  · rw [hrecord, hpointer]
    norm_num
  · rw [hrecord, hpointer]
    decide
  · rw [hrecord, hpointer, hd 2 le_rfl]
    have hmagic : plantedHeader.le 0 8 = 0x314c4e4a534e := plantedHeader_of.magic
    rw [Bool.eq_false_iff]
    intro hclear
    have hzero : plantedHeader.le 0 4 = 0 := (indirectClear_iff _).mp hclear 0 (by norm_num)
    rw [Bytes.le, leNat_succ] at hmagic hzero
    omega

/-- With no pointer planted the indirect blocks are where they should be. -/
lemma planted_indirectsInside :
    IndirectsInside (after (nsfsMount 0) (plantedState 0)) := by
  obtain ⟨-, ha, -, -, -, -, hd⟩ := plantedState_mounts 0
  generalize after (nsfsMount 0) (plantedState 0) = s' at ha hd
  intro i hi r hr _
  rw [ha.describes.totalInodes] at hi
  rw [ha.describes.inodeTableStart] at hr
  have hrecord : r = (plantedLayout.decode s'.device.current).inode i := by
    rw [hr]
    exact (if_pos hi).symm
  rw [hrecord, planted_record hd hi]
  left
  split_ifs
  · exact le_zero _ _
  · exact rootInodeRecord_ok.2.2
  · exact (plantedFile_ok (by norm_num)).2.2.2

end Planted

/-- From a volume that `nsfs_mount` accepted, and as long as every call starts with the indirect
blocks of all inode records in the data area, every COMMITTED header is accepted. -/
theorem committed_headers_accepted (s : St) (flags : ℕ) (hmount : Succeeds (nsfsMount flags) s)
    (ops : List Op)
    (h : AllSteps applyOp (fun s _ => IndirectsInside s) (after (nsfsMount flags) s) ops) :
    AllSteps applyOp (fun s op => HeadersAccepted s (applyOp s op))
      (after (nsfsMount flags) s) ops := by
  have hsane : Sane (after (nsfsMount flags) s) := by
    obtain ⟨_, s', heq⟩ := hmount
    have hsat := Sat.ok (nsfsMount_sat permits_notCommitted flags) heq
    rw [after, heq]
    exact fun _ => hsat.2
  exact h.imp Sane (fun s op hs hi => applyOp_step op hs hi) hsane

/-- The theorem applied to a volume with an empty file. -/
theorem committed_headers_accepted_empty_file :
    Succeeds (nsfsMount 0) (plantedState 0) ∧
      AllSteps applyOp (fun s op => HeadersAccepted s (applyOp s op))
        (after (nsfsMount 0) (plantedState 0)) [.truncate 2 1] :=
  ⟨(plantedState_mounts 0).1, committed_headers_accepted (plantedState 0) 0
    (plantedState_mounts 0).1 [.truncate 2 1] ⟨planted_indirectsInside, trivial⟩⟩

/-- A volume on which an inode record points to the journal header mounts read-write, and growing
the file commits a header that is not accepted. -/
theorem committed_header_targets_journal :
    Succeeds (nsfsMount 0) (plantedState 2) ∧
      ¬ AllSteps applyOp (fun s op => HeadersAccepted s (applyOp s op))
        (after (nsfsMount 0) (plantedState 2)) [.truncate 2 1] := by
  obtain ⟨hmount, ha, hm, hh, hw, henv, hd⟩ := plantedState_mounts 2
  refine ⟨hmount, ?_⟩
  rintro ⟨haccepted, -⟩
  generalize after (nsfsMount 0) (plantedState 2) = s' at ha hm hh hw henv hd haccepted
  have hrun := (planted_of_eq hd).nsfsTruncate_sat ha hm hh hw
  have hend : ¬ HeadersAccepted s' (applyOp s' (.truncate 2 1)) := by
    refine Sat.after (Q := fun t => ¬ HeadersAccepted s' t) ?_
    rw [Op.exec, sat_bind]
    refine hrun.mono (fun _ _ h => h) ?_
    intro e t hfault
    rw [henv] at hfault
    simp [Faulted, plantedState] at hfault
  exact hend haccepted

end Northstar
