import Northstar.Nsfs.File
import Northstar.Nsfs.Layout

/-! # What a transaction sees and what it leaves alone

Between `nsfs_tx_begin` and the commit an operation reads blocks through the images of its
transaction: `view s` is the disk with those images laid over it. `Active l s` says that a
transaction of a volume with layout `l` is in progress and its entries are well formed. `Frame U`
is what every piece of code inside a transaction guarantees, whether it returns or stops: only
blocks of `U` are written on the device, the handle changes in its superblock only, and the
transaction stays active. `Excuse` lists the errors that such code may stop with on a consistent
volume: the environment refused memory or failed a command, or the transaction or the volume is
full. -/

namespace Northstar

open Function List

/-- The disk as the transaction in progress sees it. -/
def view (s : St) : Disk := fun b => (s.tx.find b).getD (s.device.current b)

/-- The transaction holds an image of block `b`. -/
def Loaded (s : St) (b : ℕ) : Prop := (s.tx.find b).isSome

/-- A healthy handle of a volume with layout `l` on its device, in the environment `env`. -/
structure Ready (env : Env) (l : Layout) (s : St) : Prop where
  env : s.env = env
  layout : l.Ok
  describes : s.fs.superblock.Describes l
  mounted : s.fs.mounted = true
  healthy : s.fs.poisoned = false
  deviceBlocks : s.device.blocks = l.totalBlocks

/-- A transaction is in progress. -/
structure Active (env : Env) (l : Layout) (s : St) : Prop extends Ready env l s where
  writable : s.fs.mountReadOnly = false
  deviceWritable : s.device.readOnly = false
  nodup : (s.tx.entries.map Prod.fst).Nodup
  inside : ∀ e ∈ s.tx.entries, l.inodeBitmapStart ≤ e.1 ∧ e.1 < l.totalBlocks
  capacity : s.tx.capacity = l.journalEntries
  room : s.tx.entries.length + 2 ≤ l.journalEntries
  fresh : s.tx.durableCommit = false

/-- The journal has room for an image of every block that a transaction can change. -/
def Layout.Roomy (l : Layout) : Prop := l.totalBlocks - l.inodeBitmapStart + 2 ≤ l.journalEntries

/-- The errors that code may stop with on a consistent volume without a fault of its own. -/
def Excuse (env : Env) (l : Layout) (e : Errno) : Prop :=
  (e = .enomem ∧ ∃ t, env.allocates t = false) ∨ (e = .eio ∧ ∃ t, env.io t ≠ .done) ∨
    (e = .enospc ∧ ¬ l.Roomy)

/-- The errors of code that also needs free blocks. -/
def SpaceExcuse (env : Env) (l : Layout) (e : Errno) : Prop := Excuse env l e ∨ e = .enospc

/-- Code that also needs free blocks may stop with the same errors. -/
lemma Excuse.space {env : Env} {l : Layout} (e : Errno) (h : Excuse env l e) :
    SpaceExcuse env l e :=
  Or.inl h

/-- What code inside a transaction keeps, whether it returns or stops. -/
structure Frame (U : Set ℕ) (s s' : St) : Prop where
  env : s'.env = s.env
  device : ∃ cmds, s'.device = { s.device with log := s.device.log ++ cmds } ∧
    ∀ b x, Cmd.write b x ∈ cmds → b ∈ U
  fs : s'.fs = { s.fs with superblock := s'.fs.superblock }
  describes : ∀ l, s.fs.superblock.Describes l → s'.fs.superblock.Describes l
  original : s'.tx.originalSuperblock = s.tx.originalSuperblock
  active : ∀ env l, Active env l s → Active env l s'

variable {U : Set ℕ} {s s' : St} {env : Env} {l : Layout} {b : ℕ}

/-! ### Frames -/

lemma Ready.of_eq (h : Ready env l s) (henv : s'.env = s.env) (hfs : s'.fs = s.fs)
    (hblocks : s'.device.blocks = s.device.blocks) : Ready env l s' where
  env := henv.trans h.env
  layout := h.layout
  describes := hfs ▸ h.describes
  mounted := hfs ▸ h.mounted
  healthy := hfs ▸ h.healthy
  deviceBlocks := hblocks.trans h.deviceBlocks

lemma Active.of_eq (h : Active env l s) (henv : s'.env = s.env) (hfs : s'.fs = s.fs)
    (hblocks : s'.device.blocks = s.device.blocks)
    (hro : s'.device.readOnly = s.device.readOnly) (htx : s'.tx = s.tx) : Active env l s' where
  toReady := h.toReady.of_eq henv hfs hblocks
  writable := hfs ▸ h.writable
  deviceWritable := hro.trans h.deviceWritable
  nodup := htx ▸ h.nodup
  inside := htx ▸ h.inside
  capacity := htx ▸ h.capacity
  room := htx ▸ h.room
  fresh := htx ▸ h.fresh

/-- Only the environment was consulted. -/
lemma Frame.of_tick (U : Set ℕ) (s : St) (t : ℕ) : Frame U s { s with tick := t } where
  env := rfl
  device := ⟨[], by simp, by simp⟩
  fs := rfl
  describes := fun _ h => h
  original := rfl
  active := fun _ _ h => h.of_eq rfl rfl rfl rfl rfl

instance (U : Set ℕ) : Std.Refl (Frame U) := ⟨fun s => Frame.of_tick U s s.tick⟩

instance (U : Set ℕ) : IsTrans St (Frame U) where
  trans s s' s'' h h' := by
    obtain ⟨cmds, hd, hw⟩ := h.device
    obtain ⟨cmds', hd', hw'⟩ := h'.device
    refine ⟨h'.env.trans h.env, ⟨cmds ++ cmds', ?_, ?_⟩, ?_, fun l hl => h'.describes l
      (h.describes l hl), h'.original.trans h.original,
      fun env l ha => h'.active env l (h.active env l ha)⟩
    · rw [hd', hd]
      simp
    · intro b x hx
      rcases List.mem_append.mp hx with hx | hx
      · exact hw b x hx
      · exact hw' b x hx
    · rw [h'.fs, h.fs]

lemma Frame.refl (U : Set ℕ) (s : St) : Frame U s s := Std.Refl.refl s

lemma Frame.trans {s'' : St} (h : Frame U s s') (h' : Frame U s' s'') : Frame U s s'' :=
  IsTrans.trans s s' s'' h h'

/-- A healthy handle stays so. -/
lemma Frame.ready (h : Frame U s s') (hr : Ready env l s) : Ready env l s' where
  env := h.env.trans hr.env
  layout := hr.layout
  describes := h.describes l hr.describes
  mounted := by rw [h.fs]; exact hr.mounted
  healthy := by rw [h.fs]; exact hr.healthy
  deviceBlocks := by
    obtain ⟨cmds, hd, -⟩ := h.device
    rw [hd]
    exact hr.deviceBlocks

/-! ### Looking without changing -/

/-- Images of blocks of `B` may have been loaded; everything the transaction sees is as before. -/
structure Loads (B : Set ℕ) (s s' : St) : Prop where
  view : view s' = view s
  superblock : s'.fs.superblock = s.fs.superblock
  device : s'.device = s.device
  keep : ∀ b, Loaded s b → Loaded s' b
  only : ∀ b, Loaded s' b → Loaded s b ∨ b ∈ B

lemma Loads.refl (B : Set ℕ) (s : St) :
    Loads B s s := ⟨rfl, rfl, rfl, fun _ h => h, fun _ => Or.inl⟩

lemma Loads.trans {B : Set ℕ} {s'' : St} (h : Loads B s s') (h' : Loads B s' s'') :
    Loads B s s'' where
  view := h'.view.trans h.view
  superblock := h'.superblock.trans h.superblock
  device := h'.device.trans h.device
  keep := fun b hb => h'.keep b (h.keep b hb)
  only := fun b hb => (h'.only b hb).elim (h.only b) Or.inr

lemma Loads.mono {B B' : Set ℕ} (h : Loads B s s') (hB : B ⊆ B') : Loads B' s s' :=
  ⟨h.view, h.superblock, h.device, h.keep, fun b hb => (h.only b hb).imp_right fun hm => hB hm⟩

/-- Every field but the clock of the environment is as before. -/
structure Quiet (s s' : St) : Prop where
  env : s'.env = s.env
  device : s'.device = s.device
  fs : s'.fs = s.fs
  tx : s'.tx = s.tx

/-- A step that only takes time loads nothing. -/
lemma Quiet.loads (B : Set ℕ) (h : Quiet s s') : Loads B s s' where
  view := by unfold Northstar.view; rw [h.tx, h.device]
  superblock := by rw [h.fs]
  device := h.device
  keep := fun b hb => by unfold Loaded; rw [h.tx]; exact hb
  only := fun b hb => by left; unfold Loaded at hb ⊢; rwa [h.tx] at hb

/-- What code that only looks things up keeps, whether it returns or stops. -/
structure Looks (U : Set ℕ) (s s' : St) : Prop where
  frame : Frame U s s'
  loads : Loads Set.univ s s'

instance (U : Set ℕ) : Std.Refl (Looks U) := ⟨fun s => ⟨Frame.refl U s, Loads.refl _ s⟩⟩

instance (U : Set ℕ) : IsTrans St (Looks U) where
  trans _ _ _ h h' := ⟨h.frame.trans h'.frame, h.loads.trans h'.loads⟩

section

variable (U : Set ℕ)

lemma Looks.refl (s : St) : Looks U s s := Std.Refl.refl s

lemma Looks.of_tick (s : St) (t : ℕ) : Looks U s { s with tick := t } :=
  ⟨Frame.of_tick U s t, Quiet.loads Set.univ ⟨rfl, rfl, rfl, rfl⟩⟩

/-! ### Device access -/

/-- `nsfs_allocate` only takes time, or stops with an excuse. -/
lemma nsfsAllocate_looks (h : Ready env l s) :
    Runs (Looks U) nsfsAllocate s (fun _ s' => Quiet s s') (Excuse env l) := by
  have hf := Looks.of_tick U s (s.tick + 1)
  simp only [Runs, nsfsAllocate, sat_bind, sat_get, sat_set, sat_require]
  refine ⟨fun _ => ⟨hf, rfl, rfl, rfl, rfl⟩, fun hfail => ⟨hf, Or.inl ⟨rfl, s.tick, ?_⟩⟩⟩
  simpa [h.env] using hfail

/-- `nsfs_allocate` only takes time. -/
lemma nsfsAllocate_runs (h : Ready env l s) :
    Runs (Frame U) nsfsAllocate s (fun _ s' => Quiet s s') (Excuse env l) :=
  (nsfsAllocate_looks U h).frame fun _ hl => hl.frame

section

variable (h : Ready env l s) (hb : b < l.totalBlocks) (E : Errno → Prop)
include h hb

/-- A read of the volume sees the device. -/
lemma nsfsReadBlock_looks :
    Runs (Looks U) (nsfsReadBlock b) s (fun x s' => s' = s ∧ x = s.device.current b) E := by
  have htotal : b < s.fs.superblock.totalBlocks := by rw [h.describes.totalBlocks]; exact hb
  have hdev : b < s.device.blocks := by rw [h.deviceBlocks]; exact hb
  simp only [Runs, nsfsReadBlock, nsfsBlockIoRead, sat_bind, sat_get, sat_require,
    sat_pure, h.mounted, htotal, hdev]
  simp [Looks.refl]

/-- `nsfs_read_block` returns what the device shows. -/
lemma nsfsReadBlock_runs :
    Runs (Frame U) (nsfsReadBlock b) s (fun x s' => s' = s ∧ x = s.device.current b) E :=
  (nsfsReadBlock_looks U h hb E).frame fun _ hl => hl.frame

end

end

/-- Reading a block changes nothing. -/
lemma nsfsReadBlock_maintains {I : St → Prop} (b : ℕ) :
    Maintains I (nsfsReadBlock b) fun _ => True := by
  apply Maintains.get_bind
  intro _ _
  apply Maintains.require_bind
  intro _
  apply Maintains.get_bind
  intro _ _
  apply Maintains.require_bind
  intro _
  exact .pure trivial

/-- The device after a command that succeeded. -/
structure Issued (cmd : Cmd Block) (s s' : St) : Prop where
  env : s'.env = s.env
  device : s'.device = s.device.issue cmd
  fs : s'.fs = s.fs
  tx : s'.tx = s.tx

/-- A command may write blocks of `U`. -/
lemma Frame.of_issue (s : St) (t : ℕ) (cmd : Cmd Block) (hU : ∀ b x, cmd = .write b x → b ∈ U) :
    Frame U s { s with tick := t, device := s.device.issue cmd } where
  env := rfl
  device := ⟨[cmd], rfl, fun b x hx => hU b x (mem_singleton.mp hx).symm⟩
  fs := rfl
  describes := fun _ h => h
  original := rfl
  active := fun _ _ h => h.of_eq rfl rfl rfl rfl rfl

/-- A device command is issued, or stops with an excuse. -/
lemma deviceCommand_runs (h : Ready env l s) (cmd : Cmd Block)
    (hU : ∀ b x, cmd = .write b x → b ∈ U) :
    Runs (Frame U) (deviceCommand cmd) s (fun _ s' => Issued cmd s s') (Excuse env l) := by
  have hf := Frame.of_issue s (s.tick + 1) cmd hU
  have hfail : s.env.io s.tick ≠ .done → Excuse env l .eio := fun hne =>
    Or.inr (Or.inl ⟨rfl, s.tick, h.env ▸ hne⟩)
  simp only [Runs, deviceCommand, sat_bind, sat_get]
  rcases hio : s.env.io s.tick with _ | ⟨_ | _⟩
  · exact ⟨hf, rfl, rfl, rfl, rfl⟩
  · exact ⟨Frame.of_tick U s _, hfail (by simp [hio])⟩
  · exact ⟨hf, hfail (by simp [hio])⟩

/-- A direct write inside a transaction. -/
lemma nsfsWriteBlock_runs (h : Active env l s) (hb : b < l.totalBlocks) (hU : b ∈ U) (x : Block) :
    Runs (Frame U) (nsfsWriteBlock b x) s (fun _ s' => Issued (.write b x) s s')
      (Excuse env l) := by
  have htotal : b < s.fs.superblock.totalBlocks := by rw [h.describes.totalBlocks]; exact hb
  have hdev : b < s.device.blocks := by rw [h.deviceBlocks]; exact hb
  have hcmd := deviceCommand_runs (U := U) h.toReady (.write b x) (by
    rintro b' x' ⟨⟩
    exact hU)
  simp only [Runs, nsfsWriteBlock, nsfsBlockIoWrite, sat_bind, sat_get, sat_require, h.mounted,
    htotal, hdev, h.writable, h.deviceWritable]
  simpa [Runs] using hcmd

/-! ### Images -/

/-- Storing an image replaces the image of its block and no other. -/
lemma lookup_store (entries : List (ℕ × Block)) (b b' : ℕ) (x : Block) :
    (entries.map fun e => if e.1 = b then (b, x) else e).lookup b' =
      if b' = b then (entries.lookup b).map fun _ => x else entries.lookup b' := by
  induction entries with
  | nil => simp
  | cons e entries ih =>
    obtain ⟨c, y⟩ := e
    by_cases hcb : c = b
    · subst hcb
      by_cases hb' : b' = c
      · simp [hb']
      · have hne : (b' == c) = false := by simpa using hb'
        simp only [map_cons, if_true, lookup_cons, hne, ih, if_neg hb']
    · by_cases hb' : b' = c
      · subst hb'
        simp [hcb]
      · have hne : (b' == c) = false := by simpa using hb'
        have hne' : (b == c) = false := by simpa using fun h : b = c => hcb h.symm
        simp only [map_cons, if_neg hcb, lookup_cons, hne, hne', ih]

/-- Storing an image does not change the blocks of the entries. -/
lemma map_fst_store (entries : List (ℕ × Block)) (b : ℕ) (x : Block) :
    (entries.map fun e => if e.1 = b then (b, x) else e).map Prod.fst = entries.map Prod.fst := by
  rw [map_map]
  refine map_congr_left fun e _ => ?_
  by_cases h : e.1 = b <;> simp [h]

/-- A block has no image just if it is not among the entries. -/
lemma lookup_eq_none_iff_notMem {entries : List (ℕ × Block)} {b : ℕ} :
    entries.lookup b = none ↔ b ∉ entries.map Prod.fst := by
  rw [lookup_eq_none_iff]
  simp only [mem_map, bne_iff_ne, ne_eq, not_exists, not_and]
  constructor
  · rintro h e he rfl
    exact h e he rfl
  · intro h e he hb
    exact h e he hb.symm

/-- The image of a block is what the transaction sees. -/
lemma view_of_find {x : Block} (h : s.tx.find b = some x) : view s b = x := by
  simp [view, h]

/-- Without an image the transaction sees what the device shows. -/
lemma view_of_not_loaded (h : ¬ Loaded s b) : view s b = s.device.current b := by
  have : s.tx.find b = none := by simpa [Loaded] using h
  simp [view, this]

/-- The state after a new image was added for a block that had none. -/
def addImage (s : St) (b : ℕ) (x : Block) : St :=
  { s with tx := { s.tx with entries := s.tx.entries ++ [(b, x)] } }

@[simp] lemma addImage_device (s : St) (b : ℕ) (x : Block) : (addImage s b x).device = s.device :=
  rfl

/-- The images with a new one. -/
lemma find_addImage (s : St) (b b' : ℕ) (x : Block) :
    (addImage s b x).tx.find b' = (s.tx.find b').or (if b' = b then some x else none) := by
  by_cases h : b' = b
  · simp [addImage, Transaction.find, lookup_append, h]
  · have hne : (b' == b) = false := by simpa using h
    simp [addImage, Transaction.find, lookup_append, lookup_cons, h, hne]

/-- The blocks that have an image, with a new one. -/
lemma loaded_addImage (s : St) (b b' : ℕ) (x : Block) :
    Loaded (addImage s b x) b' ↔ Loaded s b' ∨ b' = b := by
  unfold Loaded
  rw [find_addImage]
  by_cases h : b' = b
  · cases s.tx.find b' <;> simp [h]
  · simp [h]

/-- Loading the device's copy of a block does not change the view. -/
lemma loads_addImage (hnone : s.tx.find b = none) :
    Loads {b} s (addImage s b (s.device.current b)) where
  view := by
    funext b'
    by_cases h : b' = b
    · subst h
      simp [Northstar.view, find_addImage, hnone]
    · simp [Northstar.view, find_addImage, h]
  superblock := rfl
  device := rfl
  keep := fun b' hb' => (loaded_addImage s b b' _).mpr (Or.inl hb')
  only := fun b' => (loaded_addImage s b b' _).mp

/-- A transaction with room takes a new image. -/
lemma Active.addImage (h : Active env l s) {x : Block} (hnone : s.tx.find b = none)
    (hb : l.inodeBitmapStart ≤ b ∧ b < l.totalBlocks)
    (hroom : s.tx.entries.length + 2 < s.tx.capacity) : Active env l (addImage s b x) where
  toReady := h.toReady.of_eq rfl rfl rfl
  writable := h.writable
  deviceWritable := h.deviceWritable
  nodup := by
    have hmem : b ∉ s.tx.entries.map Prod.fst := lookup_eq_none_iff_notMem.mp hnone
    simp only [Northstar.addImage, map_append, map_cons, map_nil]
    exact nodup_append.mpr ⟨h.nodup, by simp, by
      rintro c hc c' hc' rfl
      exact hmem (mem_singleton.mp hc' ▸ hc)⟩
  inside := by
    intro e he
    rcases mem_append.mp he with he | he
    · exact h.inside e he
    · rw [mem_singleton.mp he]
      exact hb
  capacity := h.capacity
  room := by
    have := h.capacity
    simp only [Northstar.addImage, length_append, length_singleton]
    omega
  fresh := h.fresh

/-- Loading an image. -/
lemma Looks.of_addImage (h : Active env l s) (hb : l.inodeBitmapStart ≤ b ∧ b < l.totalBlocks)
    (hnone : s.tx.find b = none) (hroom : s.tx.entries.length + 2 < s.tx.capacity) :
    Looks U s (addImage s b (s.device.current b)) := by
  refine ⟨⟨rfl, ⟨[], by simp, by simp⟩, rfl, fun _ hd => hd, rfl, ?_⟩,
    (loads_addImage hnone).mono (Set.subset_univ _)⟩
  intro env' l' hl'
  have hll : l' = l := hl'.describes.unique h.describes
  subst hll
  exact hl'.addImage hnone hb hroom

/-- A roomy journal always takes one more image: the blocks of a transaction are different. -/
lemma Active.lt_capacity (h : Active env l s) (hl : l.Roomy) (hnone : s.tx.find b = none)
    (hb : l.inodeBitmapStart ≤ b ∧ b < l.totalBlocks) :
    s.tx.entries.length + 2 < s.tx.capacity := by
  have hnodup : (b :: s.tx.entries.map Prod.fst).Nodup :=
    nodup_cons.mpr ⟨lookup_eq_none_iff_notMem.mp hnone, h.nodup⟩
  have hsub : (b :: s.tx.entries.map Prod.fst).toFinset ⊆
      Finset.Ico l.inodeBitmapStart l.totalBlocks := by
    intro x hx
    rw [Finset.mem_Ico]
    rcases mem_cons.mp (mem_toFinset.mp hx) with rfl | hx
    · exact hb
    · obtain ⟨e, he, rfl⟩ := mem_map.mp hx
      exact h.inside e he
  have hcard := Finset.card_le_card hsub
  rw [toFinset_card_of_nodup hnodup, Nat.card_Ico, length_cons, length_map] at hcard
  have hcap := h.capacity
  unfold Layout.Roomy at hl
  omega

section

variable (U : Set ℕ) (h : Active env l s) (hb : l.inodeBitmapStart ≤ b ∧ b < l.totalBlocks)
include h hb

/-- `nsfs_tx_image` returns what the transaction sees and loads the block. -/
lemma nsfsTxImage_looks : Runs (Looks U) (nsfsTxImage b) s
      (fun x s' => x = view s b ∧ Loads {b} s s' ∧ Loaded s' b)
      (Excuse env l) := by
  have htotal : b < s.fs.superblock.totalBlocks := by rw [h.describes.totalBlocks]; exact hb.2
  simp only [Runs, nsfsTxImage, sat_bind, sat_get, sat_require, htotal, forall_const,
    not_true_eq_false, IsEmpty.forall_iff, and_true]
  cases hfind : s.tx.find b with
  | some x =>
    refine ⟨Looks.refl U s, (view_of_find hfind).symm, Loads.refl _ s, ?_⟩
    simp [Loaded, hfind]
  | none =>
    simp only [sat_bind, sat_require]
    refine ⟨fun hroom => ?_, fun hfull =>
      ⟨Looks.refl U s, Or.inr (Or.inr ⟨rfl, fun hl => hfull (h.lt_capacity hl hfind hb)⟩)⟩⟩
    refine Sat.mono (nsfsAllocate_looks U h.toReady) ?_ fun e s' he => he
    rintro - s1 ⟨hk1, hq⟩
    have ha1 := hk1.frame.active env l h
    refine Sat.mono (nsfsReadBlock_looks U ha1.toReady hb.2 (Excuse env l)) ?_ ?_
    · rintro x s2 ⟨-, rfl, rfl⟩
      have hnone : s2.tx.find b = none := by rw [hq.tx]; exact hfind
      have hroom' : s2.tx.entries.length + 2 < s2.tx.capacity := by rw [hq.tx]; exact hroom
      refine ⟨IsTrans.trans _ _ _ hk1 (Looks.of_addImage ha1 hb hnone hroom'), ?_,
        (hq.loads {b}).trans (loads_addImage hnone), (loaded_addImage s2 b b _).mpr (Or.inr rfl)⟩
      rw [← (hq.loads ∅).view, view_of_not_loaded (by simp [Loaded, hnone])]
    · rintro e s2 ⟨hk2, he⟩
      exact ⟨IsTrans.trans _ _ _ hk1 hk2, he⟩

/-- `nsfs_tx_image` returns what the transaction sees, and loads the block. -/
lemma nsfsTxImage_runs : Runs (Frame U) (nsfsTxImage b) s
      (fun x s' => x = view s b ∧ Loads {b} s s' ∧ Loaded s' b)
      (Excuse env l) :=
  (nsfsTxImage_looks U h hb).frame fun _ hl => hl.frame

end

/-- The state after a store through the pointer of a loaded block. -/
def storeImage (s : St) (b : ℕ) (x : Block) : St :=
  { s with tx := { s.tx with
    entries := s.tx.entries.map fun e => if e.1 = b then (b, x) else e } }

/-- Storing an image changes what the transaction sees. -/
lemma view_storeImage (hb : Loaded s b) (x : Block) :
    view (storeImage s b x) = update (view s) b x := by
  funext b'
  have hfind : (storeImage s b x).tx.find b' =
      if b' = b then (s.tx.find b).map (fun _ => x) else s.tx.find b' :=
    lookup_store s.tx.entries b b' x
  obtain ⟨y, hy⟩ := Option.isSome_iff_exists.mp hb
  by_cases h : b' = b
  · subst h
    simp [view, hfind, hy]
  · simp only [view, hfind, if_neg h, update_of_ne h]
    rfl

/-- Storing an image loads nothing. -/
lemma loaded_storeImage (s : St) (b b' : ℕ) (x : Block) :
    Loaded (storeImage s b x) b' ↔ Loaded s b' := by
  have hfind : (storeImage s b x).tx.find b' =
      if b' = b then (s.tx.find b).map (fun _ => x) else s.tx.find b' :=
    lookup_store s.tx.entries b b' x
  by_cases h : b' = b
  · subst h
    simp [Loaded, hfind]
  · simp [Loaded, hfind, h]

/-- Storing an image changes the transaction only. -/
lemma Frame.of_storeImage (U : Set ℕ) (s : St) (b : ℕ) (x : Block) :
    Frame U s (storeImage s b x) where
  env := rfl
  device := ⟨[], by simp [storeImage], by simp⟩
  fs := rfl
  describes := fun _ h => h
  original := rfl
  active := fun env l h => {
    toReady := h.toReady.of_eq rfl rfl rfl
    writable := h.writable
    deviceWritable := h.deviceWritable
    nodup := by
      simp only [storeImage, map_fst_store]
      exact h.nodup
    inside := by
      intro e he
      obtain ⟨e', he', rfl⟩ := mem_map.mp he
      by_cases hb : e'.1 = b
      · simpa [hb] using hb ▸ h.inside e' he'
      · simpa [hb] using h.inside e' he'
    capacity := h.capacity
    room := by simpa [storeImage] using h.room
    fresh := h.fresh }

section

variable (U : Set ℕ) (hb : Loaded s b)
include hb

/-- `txStore` changes what the transaction sees at the block. -/
lemma txStore_runs (x : Block) (E : Errno → Prop) : Runs (Frame U) (txStore b x) s
      (fun _ s' => view s' = update (view s) b x ∧
        s'.fs.superblock = s.fs.superblock ∧ s'.device = s.device ∧
        ∀ b', Loaded s' b' ↔ Loaded s b') E :=
  ⟨Frame.of_storeImage U s b x, view_storeImage hb x, rfl, rfl, fun b' =>
    loaded_storeImage s b b' x⟩

/-- Dereferencing a pointer of the transaction. -/
lemma txLoad_looks (E : Errno → Prop) :
    Runs (Looks U) (txLoad b) s (fun x s' => s' = s ∧ x = view s b) E := by
  refine ⟨Looks.refl U s, rfl, ?_⟩
  obtain ⟨y, hy⟩ := Option.isSome_iff_exists.mp hb
  simp [view, hy]

/-- `txLoad` returns what the transaction sees. -/
lemma txLoad_runs (E : Errno → Prop) :
    Runs (Frame U) (txLoad b) s (fun x s' => s' = s ∧ x = view s b) E :=
  (txLoad_looks U hb E).frame fun _ hl => hl.frame

end

/-- A write past the transaction shows in the view of a block that has no image. -/
lemma Issued.view_write {x : Block} (h : Issued (.write b x) s s') (hb : ¬ Loaded s b) :
    view s' = update (view s) b x := by
  funext c
  by_cases hc : c = b
  · subst hc
    have hnone : s.tx.find c = none := by simpa [Loaded] using hb
    simp [view, h.tx, h.device, hnone]
  · simp [view, h.tx, h.device, hc]

/-- A command loads nothing. -/
lemma Issued.loaded {cmd : Cmd Block} (h : Issued cmd s s') (c : ℕ) : Loaded s' c ↔ Loaded s c := by
  unfold Loaded
  rw [h.tx]

/-- A store to a changing field of the handle's superblock. -/
lemma setSuperblock_runs (U : Set ℕ) (s : St) {off w v : ℕ} (hm : Superblock.Mutable off w)
    (E : Errno → Prop) :
    Runs (Frame U) (setSuperblock (Bytes.putLe s.fs.superblock off w v)) s
      (fun _ s' => view s' = view s ∧ s'.device = s.device ∧ (∀ b, Loaded s' b ↔ Loaded s b) ∧
        s'.fs.superblock = Bytes.putLe s.fs.superblock off w v) E := by
  refine ⟨⟨rfl, ⟨[], by simp, by simp⟩, rfl, fun _ hd => hd.putLe hm, rfl,
    fun env l h => ?_⟩, rfl, rfl, fun _ => Iff.rfl, rfl⟩
  exact ⟨⟨h.env, h.layout, h.describes.putLe hm, h.mounted, h.healthy, h.deviceBlocks⟩, h.writable,
    h.deviceWritable, h.nodup, h.inside, h.capacity, h.room, h.fresh⟩

end Northstar
