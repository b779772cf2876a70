import Northstar.Nsfs.HeaderSpec
import Northstar.Nsfs.TxView

/-! # Committing a transaction

A piece of code that only sends commands to the device is described by the list of its commands:
`Sends env l sb m cmds` says that `m` returns after all of them, or stops with `EIO` after some of
the first of them because the device reported a failure. The commit of a transaction is made of two
such pieces, `journalCommands` and `homeCommands`, with the point of no return between them. -/

namespace Northstar

open List

/-! ### Sending commands -/

/-- The commands `cmds` reached the device and nothing else changed but the clock. -/
structure Sent (cmds : List (Cmd Block)) (s s' : St) : Prop where
  env : s'.env = s.env
  device : s'.device = { s.device with log := s.device.log ++ cmds }
  fs : s'.fs = s.fs
  tx : s'.tx = s.tx

/-- A healthy handle with the superblock `sb` whose volume may be written. -/
structure Writable (env : Env) (l : Layout) (sb : Superblock) (s : St) :
    Prop extends Ready env l s where
  superblock : s.fs.superblock = sb
  writable : s.fs.mountReadOnly = false
  deviceWritable : s.device.readOnly = false

/-- The code sends `cmds`, or it stops after some of the first of them when the device fails. -/
def Sends (env : Env) (l : Layout) (sb : Superblock) (m : NsM Unit) (cmds : List (Cmd Block)) :
    Prop :=
  ∀ s, Writable env l sb s → Sat m s (fun _ s' => Sent cmds s s') fun e s' =>
    e = .eio ∧ (∃ t, env.io t ≠ .done) ∧ ∃ done, done <+: cmds ∧ Sent done s s'

variable {env : Env} {l : Layout} {sb : Superblock} {s s' s'' : St} {m m' : NsM Unit}
  {cmds cmds' : List (Cmd Block)} {entries : List (ℕ × Block)} {b : ℕ}

lemma Sent.refl (s : St) : Sent [] s s := ⟨rfl, by simp, rfl, rfl⟩

lemma Sent.trans (h : Sent cmds s s') (h' : Sent cmds' s' s'') : Sent (cmds ++ cmds') s s'' where
  env := h'.env.trans h.env
  device := by rw [h'.device, h.device]; simp
  fs := h'.fs.trans h.fs
  tx := h'.tx.trans h.tx

/-- A handle stays writable after commands. -/
lemma Sent.writable (h : Sent cmds s s') (hw : Writable env l sb s) : Writable env l sb s' where
  toReady := hw.toReady.of_eq h.env h.fs (by rw [h.device]; rfl)
  superblock := by rw [h.fs]; exact hw.superblock
  writable := by rw [h.fs]; exact hw.writable
  deviceWritable := by rw [h.device]; exact hw.deviceWritable

/-- Code that sends nothing. -/
lemma Sends.pure : Sends env l sb (pure ()) [] := fun s _ => Sent.refl s

/-- Code sends the commands of its parts. -/
lemma Sends.bind (h : Sends env l sb m cmds) (h' : Sends env l sb m' cmds') :
    Sends env l sb (m >>= fun _ => m') (cmds ++ cmds') := by
  intro s hw
  rw [sat_bind]
  refine (h s hw).mono (fun _ s1 h1 => ?_) ?_
  · refine (h' s1 (h1.writable hw)).mono (fun _ s2 h2 => h1.trans h2) ?_
    rintro e s2 ⟨he, hio, done, hpre, h2⟩
    exact ⟨he, hio, cmds ++ done, prefix_append_right_inj cmds |>.mpr hpre, h1.trans h2⟩
  · rintro e s1 ⟨he, hio, done, hpre, h1⟩
    exact ⟨he, hio, done, hpre.trans (prefix_append cmds cmds'), h1⟩

/-- A device command is sent. -/
lemma sends_deviceCommand (cmd : Cmd Block) : Sends env l sb (deviceCommand cmd) [cmd] := by
  intro s hw
  have hfail : s.env.io s.tick ≠ .done → ∃ t, env.io t ≠ .done := by
    intro hne
    exact ⟨s.tick, hw.env ▸ hne⟩
  simp only [deviceCommand, sat_bind, sat_get]
  rcases hio : s.env.io s.tick with _ | ⟨_ | _⟩
  · exact ⟨rfl, rfl, rfl, rfl⟩
  · exact ⟨rfl, hfail (by simp [hio]), [], nil_prefix, rfl, by simp, rfl, rfl⟩
  · exact ⟨rfl, hfail (by simp [hio]), [cmd], prefix_rfl, rfl, rfl, rfl, rfl⟩

/-- `ns_block_flush` sends a flush. -/
lemma sends_nsBlockFlush : Sends env l sb nsBlockFlush [.flush] := sends_deviceCommand .flush

/-- `nsfs_write_block` sends a write. -/
lemma sends_nsfsWriteBlock (hb : b < l.totalBlocks) (x : Block) :
    Sends env l sb (nsfsWriteBlock b x) [.write b x] := by
  intro s hw
  have htotal : b < s.fs.superblock.totalBlocks := by rw [hw.describes.totalBlocks]; exact hb
  have hdev : b < s.device.blocks := by rw [hw.deviceBlocks]; exact hb
  simp only [nsfsWriteBlock, nsfsBlockIoWrite, sat_bind, sat_get, sat_require]
  refine ⟨fun _ => ⟨fun _ => ⟨fun _ => ⟨fun _ => ?_, ?_⟩, ?_⟩, ?_⟩, ?_⟩
  · exact sends_deviceCommand (.write b x) s hw
  · exact fun hne => absurd hw.deviceWritable hne
  · exact fun hne => absurd hdev hne
  · exact fun hne => absurd hw.writable hne
  · exact fun hne => absurd ⟨hw.mounted, htotal⟩ hne

/-! ### The pieces of a commit -/

/-- The redo images in the journal, from the `index`-th on. -/
def redoCommands (journalStart : ℕ) : ℕ → List (ℕ × Block) → List (Cmd Block)
  | _, [] => []
  | index, e :: rest => .write (journalStart + 1 + index) e.2 :: redoCommands journalStart
      (index + 1) rest

/-- The redo images are sent to the journal. -/
lemma sends_writeRedo {journalStart : ℕ} (entries : List (ℕ × Block)) :
    ∀ index, journalStart + 1 + index + entries.length ≤ l.totalBlocks →
      Sends env l sb (writeRedo journalStart index entries)
        (redoCommands journalStart index entries) := by
  induction entries with
  | nil =>
    intro index _
    exact Sends.pure
  | cons e entries ih =>
    intro index hroom
    simp only [length_cons] at hroom
    exact (sends_nsfsWriteBlock (by omega) e.2).bind (ih (index + 1) (by omega))

/-- The images are sent to their blocks. -/
lemma sends_writeHome (entries : List (ℕ × Block)) (htargets : ∀ e ∈ entries, e.1 < l.totalBlocks) :
    Sends env l sb (writeHome entries) (entries.map fun e => .write e.1 e.2) := by
  induction entries with
  | nil => exact Sends.pure
  | cons e entries ih =>
    have htail := ih fun x hx => htargets x (mem_cons_of_mem _ hx)
    exact (sends_nsfsWriteBlock (htargets e mem_cons_self) e.2).bind htail

/-- The commands that make a transaction durable. -/
def journalCommands (journalStart : ℕ) (entries : List (ℕ × Block)) (header : Block) :
    List (Cmd Block) :=
  redoCommands journalStart 0 entries ++ ([.flush] ++ ([.write journalStart header] ++ [.flush]))

/-- The commands that install a durable transaction and clear the journal. -/
def homeCommands (journalStart : ℕ) (entries : List (ℕ × Block)) (cleared : Block) :
    List (Cmd Block) :=
  (entries.map fun e => .write e.1 e.2) ++ ([.flush] ++ ([.write journalStart cleared] ++ [.flush]))

/-- The commands up to the COMMITTED header. -/
lemma sends_commitJournal {header : Block}
    (hstart : sb.journalStart + 1 + entries.length ≤ l.totalBlocks)
    (hmake : nsfsMakeJournalHeader sb nsfsJournalCommitted sb.lastTxid entries = .ok header) :
    Sends env l sb (commitJournal sb entries) (journalCommands sb.journalStart entries header) := by
  unfold commitJournal
  rw [hmake]
  refine (sends_writeRedo entries 0 (by omega)).bind (sends_nsBlockFlush.bind ?_)
  exact (sends_nsfsWriteBlock (by omega) header).bind sends_nsBlockFlush

/-- The commands of `nsfs_clear_journal`. -/
lemma sends_nsfsClearJournal {cleared : Block} {txid : ℕ} (hstart : sb.journalStart < l.totalBlocks)
    (hmake : nsfsMakeJournalHeader sb nsfsJournalEmpty txid [] = .ok cleared) :
    Sends env l sb (nsfsClearJournal txid) ([.write sb.journalStart cleared] ++ [.flush]) := by
  intro s hw
  unfold nsfsClearJournal
  rw [sat_bind, sat_get, hw.superblock, hmake]
  exact ((sends_nsfsWriteBlock hstart cleared).bind sends_nsBlockFlush) s hw

/-- The commands after the COMMITTED header. -/
lemma sends_commitHome {cleared : Block} (htargets : ∀ e ∈ entries, e.1 < l.totalBlocks)
    (hstart : sb.journalStart < l.totalBlocks)
    (hmake : nsfsMakeJournalHeader sb nsfsJournalEmpty sb.lastTxid [] = .ok cleared) :
    Sends env l sb (commitHome sb entries) (homeCommands sb.journalStart entries cleared) := by
  refine (sends_writeHome entries htargets).bind (sends_nsBlockFlush.bind ?_)
  exact sends_nsfsClearJournal hstart hmake

/-! ### The entries of a commit -/

/-- The redo images of a commit: those of the transaction and the two copies of the superblock. -/
def commitEntries (entries : List (ℕ × Block)) (sb : Superblock) : List (ℕ × Block) :=
  entries ++ [(1, nsfsSuperblockImage sb), (0, nsfsSuperblockImage sb)]

/-- A transaction that can be committed: its blocks are blocks of the volume, and there is room for
the two superblocks. -/
structure Collected (env : Env) (l : Layout) (s : St) : Prop extends Ready env l s where
  writable : s.fs.mountReadOnly = false
  deviceWritable : s.device.readOnly = false
  below : ∀ e ∈ s.tx.entries, e.1 < l.totalBlocks
  capacity : s.tx.capacity = l.journalEntries
  room : s.tx.entries.length + 2 ≤ l.journalEntries
  fresh : s.tx.durableCommit = false

/-- A transaction in progress can be committed. -/
lemma Active.collected (h : Active env l s) : Collected env l s where
  toReady := h.toReady
  writable := h.writable
  deviceWritable := h.deviceWritable
  below := fun e he => (h.inside e he).2
  capacity := h.capacity
  room := h.room
  fresh := h.fresh

/-- The blocks of a commit are blocks of the volume. -/
lemma Collected.commitEntries_lt (h : Collected env l s) (sb : Superblock) :
    ∀ e ∈ commitEntries s.tx.entries sb, e.1 < l.totalBlocks := by
  have hr := h.layout.regions
  intro e he
  simp only [commitEntries, mem_append, mem_cons, not_mem_nil, or_false] at he
  rcases he with he | rfl | rfl
  · exact h.below e he
  · dsimp only
    omega
  · dsimp only
    omega

/-- The journal has room for the blocks of a commit. -/
lemma Collected.commitEntries_length (h : Collected env l s) (sb : Superblock) :
    (commitEntries s.tx.entries sb).length ≤ l.journalEntries := by
  have hroom := h.room
  simp only [commitEntries, length_append, length_cons, length_nil]
  omega

/-- The targets of a commit are different blocks outside the journal. -/
lemma Active.commitEntries_targets (h : Active env l s) {sb sb' : Superblock}
    (hd : sb'.Describes l) :
    ((commitEntries s.tx.entries sb).map Prod.fst).Nodup ∧
      ∀ e ∈ commitEntries s.tx.entries sb, sb'.Targets e.1 := by
  have hr := h.layout.regions
  have hsmall : ∀ b ∈ s.tx.entries.map Prod.fst, 2 ≤ b := by
    intro b hb
    obtain ⟨e, he, rfl⟩ := mem_map.mp hb
    have := (h.inside e he).1
    omega
  constructor
  · rw [commitEntries, map_append, nodup_append]
    refine ⟨h.nodup, by simp, ?_⟩
    intro b hb c hc
    have hb2 := hsmall b hb
    simp only [map_cons, map_nil, mem_cons, not_mem_nil, or_false] at hc
    omega
  · intro e he
    refine ⟨by rw [hd.totalBlocks]; exact h.collected.commitEntries_lt sb e he, ?_⟩
    rw [hd.journalStart, hd.journalBlocks]
    simp only [commitEntries, mem_append, mem_cons, not_mem_nil, or_false] at he
    rcases he with he | rfl | rfl
    · have := (h.inside e he).1
      omega
    · dsimp only
      omega
    · dsimp only
      omega

/-- The journal has at most 128 entries and ends in front of the bitmaps. -/
lemma Layout.Ok.journalEntries_le (h : l.Ok) :
    l.journalEntries ≤ 128 ∧ 3 + l.journalEntries ≤ l.inodeBitmapStart := by
  have hj := h.journal
  unfold Layout.journalEntries Layout.inodeBitmapStart
  omega

/-- A header can be made for the entries of a commit. -/
lemma Collected.commitHeader (h : Collected env l s) {sb : Superblock} (hd : sb.Describes l)
    (txid : ℕ) :
    ∃ header, nsfsMakeJournalHeader sb nsfsJournalCommitted txid (commitEntries s.tx.entries sb) =
      .ok header ∧ HeaderOf nsfsJournalCommitted (commitEntries s.tx.entries sb) header := by
  have hlen := h.commitEntries_length sb
  have hmax := h.layout.journalEntries_le
  have htotal := h.layout.total
  refine nsfsMakeJournalHeader_ok ?_ (by omega) (by norm_num) ?_
  · rw [hd.journalEntries]
    exact hlen
  · intro e he
    have hlt := h.commitEntries_lt sb e he
    omega

/-- An EMPTY header can always be made. -/
lemma exists_emptyHeader (sb : Superblock) (txid : ℕ) :
    ∃ cleared, nsfsMakeJournalHeader sb nsfsJournalEmpty txid [] = .ok cleared ∧
      HeaderOf nsfsJournalEmpty [] cleared :=
  nsfsMakeJournalHeader_ok (by simp) (by simp) (by norm_num) (by simp)

/-! ### The commit -/

/-- An allocation works or fails as the environment says. -/
lemma sat_nsfsAllocate {Q : Unit → St → Prop} {E : Errno → St → Prop} :
    Sat nsfsAllocate s Q E ↔
      (s.env.allocates s.tick = true → Q () { s with tick := s.tick + 1 }) ∧
        (¬ s.env.allocates s.tick = true → E .enomem { s with tick := s.tick + 1 }) := by
  rw [nsfsAllocate, sat_bind, sat_get, sat_bind, sat_set, sat_require]

/-- `nsfs_tx_append_super` appends an image of the superblock. -/
lemma nsfsTxAppendSuper_sat (h : Ready env l s) (b : ℕ) (sb : Superblock) :
    Sat (nsfsTxAppendSuper b sb) s
      (fun _ s' => s'.env = s.env ∧ s'.device = s.device ∧ s'.fs = s.fs ∧
        s'.tx = { s.tx with entries := s.tx.entries ++ [(b, nsfsSuperblockImage sb)] })
      fun e s' => (e = .enospc ∧ s.tx.capacity ≤ s.tx.entries.length ∨
        e = .enomem ∧ ∃ t, env.allocates t = false) ∧ Quiet s s' := by
  rw [nsfsTxAppendSuper, sat_bind, sat_get, sat_bind, sat_require]
  refine ⟨fun _ => ?_, fun hfull => ⟨Or.inl ⟨rfl, not_lt.mp hfull⟩, rfl, rfl, rfl, rfl⟩⟩
  rw [sat_bind, sat_nsfsAllocate]
  refine ⟨fun _ => ⟨rfl, rfl, rfl, rfl⟩, fun hno => ⟨Or.inr ⟨rfl, s.tick, ?_⟩, rfl, rfl, rfl, rfl⟩⟩
  rw [← h.env]
  simpa using hno

/-- How a commit can end. `now` is the time stamp, `header` and `cleared` are the two journal
headers of the commit. -/
structure CommitPlan (l : Layout) (s : St) (sb : Superblock) (header cleared : Block) : Prop where
  stamped : ∃ now, sb = commitSuperblock s.fs.superblock now
  describes : sb.Describes l
  header : HeaderOf nsfsJournalCommitted (commitEntries s.tx.entries sb) header
  cleared : HeaderOf nsfsJournalEmpty [] cleared

/-- The commit stopped before it was durable: the superblock of the handle is restored. -/
structure Aborted (cmds : List (Cmd Block)) (s s' : St) : Prop where
  env : s'.env = s.env
  device : s'.device = { s.device with log := s.device.log ++ cmds }
  fs : s'.fs = { s.fs with superblock := s.tx.originalSuperblock }
  tx : s'.tx = Transaction.cleared

/-- The commit was durable: the handle has the superblock that was published. -/
structure Published (cmds : List (Cmd Block)) (sb : Superblock) (poisoned : Bool) (s s' : St) :
    Prop where
  env : s'.env = s.env
  device : s'.device = { s.device with log := s.device.log ++ cmds }
  fs : s'.fs = { s.fs with superblock := sb, poisoned := poisoned }
  tx : s'.tx = Transaction.cleared

/-- The superblock of a commit repeats the layout. -/
lemma commitSuperblock_describes (h : sb.Describes l) (now : ℕ) :
    (commitSuperblock sb now).Describes l := by
  refine Superblock.Describes.putLe (Superblock.Describes.putLe (Superblock.Describes.putLe
    (Superblock.Describes.putLe h ?_) ?_) ?_) ?_
  all_goals simp [Superblock.Mutable]

/-- The three ways in which a commit fails: no memory before anything was written, a device failure
before the commit was durable, and a device failure after it. -/
inductive CommitFailure (env : Env) (s : St) (sb : Superblock) (header cleared : Block) :
    Errno → St → Prop where
  | memory (s' : St) (hmem : ∃ t, env.allocates t = false) (h : Aborted [] s s') :
    CommitFailure env s sb header cleared .enomem s'
  | before (s' : St) (hio : ∃ t, env.io t ≠ .done) (done : List (Cmd Block))
    (hdone : done <+: journalCommands sb.journalStart (commitEntries s.tx.entries sb) header)
    (h : Aborted done s s') : CommitFailure env s sb header cleared .eio s'
  | after (s' : St) (hio : ∃ t, env.io t ≠ .done) (done : List (Cmd Block))
    (hdone : done <+: homeCommands sb.journalStart (commitEntries s.tx.entries sb) cleared)
    (h : Published (journalCommands sb.journalStart (commitEntries s.tx.entries sb) header ++ done)
      sb true s s') : CommitFailure env s sb header cleared .eio s'

/-- The state of a commit between its steps: the superblock is stamped, `entries` are collected and
`cmds` were sent. -/
structure Committing (s : St) (sb : Superblock) (entries : List (ℕ × Block))
    (cmds : List (Cmd Block)) (durable : Bool) (s' : St) : Prop where
  env : s'.env = s.env
  device : s'.device = { s.device with log := s.device.log ++ cmds }
  fs : s'.fs = { s.fs with superblock := sb }
  tx : s'.tx = { s.tx with entries := entries, durableCommit := durable }

section Committing

variable {durable : Bool}

section

variable (h : Committing s sb entries cmds durable s')
include h

/-- The volume can be written while a commit is in progress. -/
lemma Committing.writable (ha : Collected env l s)
    (hd : sb.Describes l) : Writable env l sb s' where
  env := h.env.trans ha.env
  layout := ha.layout
  describes := by rw [h.fs]; exact hd
  mounted := by rw [h.fs]; exact ha.mounted
  healthy := by rw [h.fs]; exact ha.healthy
  deviceBlocks := by rw [h.device]; exact ha.deviceBlocks
  superblock := by rw [h.fs]
  writable := by rw [h.fs]; exact ha.writable
  deviceWritable := by rw [h.device]; exact ha.deviceWritable

/-- A commit that has sent more commands. -/
lemma Committing.sent (hs : Sent cmds' s' s'') :
    Committing s sb entries (cmds ++ cmds') durable s'' where
  env := hs.env.trans h.env
  device := by rw [hs.device, h.device]; simp
  fs := hs.fs.trans h.fs
  tx := hs.tx.trans h.tx

/-- A commit after a step that only takes time. -/
lemma Committing.quiet (hq : Quiet s' s'') : Committing s sb entries cmds durable s'' where
  env := hq.env.trans h.env
  device := hq.device.trans h.device
  fs := hq.fs.trans h.fs
  tx := hq.tx.trans h.tx

end

/-- Releasing the transaction of a commit that is not durable yet. -/
lemma Committing.abort (h : Committing s sb entries cmds false s') {E : Errno → St → Prop}
    {e : Errno} (hE : ∀ s'', Aborted cmds s s'' → E e s'') :
    Sat (nsfsTxRelease true) s' (fun _ => E e) fun _ => E e := by
  refine hE _ ⟨h.env, h.device, ?_, rfl⟩
  simp only [h.tx, h.fs, and_self, if_true]

end Committing

/-- The preparations of a commit: the two superblock images and the header buffer. -/
lemma prepareCommit_sat (h : Collected env l s) (hd : sb.Describes l)
    (hc : Committing s sb s.tx.entries [] false s') :
    Sat (do
        nsfsTxAppendSuper 1 sb
        nsfsTxAppendSuper 0 sb
        nsfsAllocate) s'
      (fun _ s'' => Committing s sb (commitEntries s.tx.entries sb) [] false s'')
      fun e s'' => e = .enomem ∧ (∃ t, env.allocates t = false) ∧
        ∃ es, Committing s sb es [] false s'' := by
  have hroom := h.room
  have hcap := h.capacity
  rw [sat_bind]
  refine Sat.mono (nsfsTxAppendSuper_sat (hc.writable h hd).toReady 1 sb) ?_ ?_
  · rintro - s1 ⟨henv1, hdev1, hfs1, htx1⟩
    have hc1 : Committing s sb (s.tx.entries ++ [(1, nsfsSuperblockImage sb)]) [] false s1 := by
      refine ⟨henv1.trans hc.env, hdev1.trans hc.device, hfs1.trans hc.fs, ?_⟩
      rw [htx1, hc.tx]
    rw [sat_bind]
    refine Sat.mono (nsfsTxAppendSuper_sat (hc1.writable h hd).toReady 0 sb) ?_ ?_
    · rintro - s2 ⟨henv2, hdev2, hfs2, htx2⟩
      have hc2 : Committing s sb (commitEntries s.tx.entries sb) [] false s2 := by
        refine ⟨henv2.trans hc1.env, hdev2.trans hc1.device, hfs2.trans hc1.fs, ?_⟩
        rw [htx2, hc1.tx, commitEntries]
        simp
      rw [sat_nsfsAllocate]
      refine ⟨fun _ => hc2.quiet ⟨rfl, rfl, rfl, rfl⟩, fun hno => ⟨rfl, ⟨s2.tick, ?_⟩, _,
        hc2.quiet ⟨rfl, rfl, rfl, rfl⟩⟩⟩
      rw [← (hc2.writable h hd).env]
      simpa using hno
    · rintro e s2 ⟨⟨-, hfull⟩ | ⟨he, hmem⟩, hq⟩
      · rw [hc1.tx] at hfull
        simp only [length_append, length_cons, length_nil] at hfull
        omega
      · exact ⟨he, hmem, _, hc1.quiet hq⟩
  · rintro e s1 ⟨⟨-, hfull⟩ | ⟨he, hmem⟩, hq⟩
    · rw [hc.tx] at hfull
      dsimp only at hfull
      omega
    · exact ⟨he, hmem, _, hc.quiet hq⟩

/-- What `nsfs_tx_commit` does with a transaction. -/
lemma nsfsTxCommit_sat (h : Collected env l s) :
    ∃ sb header cleared, CommitPlan l s sb header cleared ∧
      Sat nsfsTxCommit s
        (fun _ s' => Published
          (journalCommands sb.journalStart (commitEntries s.tx.entries sb) header ++
            homeCommands sb.journalStart (commitEntries s.tx.entries sb) cleared) sb
              s.fs.poisoned s s')
        (CommitFailure env s sb header cleared) := by
  obtain ⟨sb, hsb⟩ : ∃ sb, sb = commitSuperblock s.fs.superblock (s.env.nowNs s.tick) := ⟨_, rfl⟩
  have hd : sb.Describes l := hsb ▸ commitSuperblock_describes h.describes _
  obtain ⟨header, hmake, hheader⟩ := h.commitHeader hd sb.lastTxid
  obtain ⟨cleared, hclear, hcleared⟩ := exists_emptyHeader sb sb.lastTxid
  refine ⟨sb, header, cleared, ⟨⟨_, hsb⟩, hd, hheader, hcleared⟩, ?_⟩
  have hr := h.layout.regions
  have hlen := h.commitEntries_length sb
  have hmax := h.layout.journalEntries_le
  have hstart := hd.journalStart
  have hc : Committing s sb s.tx.entries [] false
      { s with tick := s.tick + 1, fs := { s.fs with superblock := sb } } := by
    refine ⟨rfl, by simp, rfl, ?_⟩
    rw [← h.fresh]
  unfold nsfsTxCommit
  simp only [nsfsNow, sat_bind, sat_get, sat_set, sat_pure, setSuperblock, sat_modify]
  rw [← hsb, sat_onFailure]
  refine Sat.mono (prepareCommit_sat h hd hc) ?_ ?_
  · intro _ s1 h1
    have hentries : s1.tx.entries = commitEntries s.tx.entries sb := by rw [h1.tx]
    rw [hentries, sat_onFailure]
    have hjournal : Sends env l sb (commitJournal sb (commitEntries s.tx.entries sb))
        (journalCommands sb.journalStart (commitEntries s.tx.entries sb) header) :=
      sends_commitJournal (by omega) hmake
    refine Sat.mono (hjournal s1 (h1.writable h hd)) ?_ ?_
    · intro _ s2 hs2
      have h2 := h1.sent hs2
      have h3 : Committing s sb (commitEntries s.tx.entries sb)
          (journalCommands sb.journalStart (commitEntries s.tx.entries sb) header) true
          { s2 with tx := { s2.tx with durableCommit := true } } :=
        ⟨h2.env, h2.device, h2.fs, by rw [h2.tx]⟩
      rw [sat_onFailure]
      have hhome : Sends env l sb (commitHome sb (commitEntries s.tx.entries sb))
          (homeCommands sb.journalStart (commitEntries s.tx.entries sb) cleared) :=
        sends_commitHome (h.commitEntries_lt sb) (by omega) hclear
      refine Sat.mono (hhome _ (h3.writable h hd)) ?_ ?_
      · intro _ s4 hs4
        have h4 := h3.sent hs4
        refine ⟨h4.env, h4.device, ?_, rfl⟩
        simp only [h4.tx, h4.fs]
        simp
      · rintro e s4 ⟨rfl, hio, done, hpre, hs4⟩
        have h4 := h3.sent hs4
        refine CommitFailure.after _ hio done hpre ⟨h4.env, h4.device, ?_, rfl⟩
        simp only [h4.tx, h4.fs]
        simp
    · rintro e s2 ⟨rfl, hio, done, hpre, hs2⟩
      have h2 := h1.sent hs2
      exact h2.abort fun s3 h3 => CommitFailure.before s3 hio done hpre h3
  · rintro e s1 ⟨rfl, hmem, es, h1⟩
    exact h1.abort fun s2 h2 => CommitFailure.memory s2 hmem h2

end Northstar
