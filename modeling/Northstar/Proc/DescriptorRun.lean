import Northstar.Lib.Trace
import Northstar.Proc.Descriptor
import Northstar.Proc.SchedulerRun
import Northstar.Proc.SchedulerWakeup

/-! # Sleeping holders of a file lock

`ns_vfs_read` and `ns_vfs_write` hold the lock of the file while the operation of the pipe runs, and
that operation blocks its thread when the pipe is empty or full. So a thread sleeps with the lock of
a file, and other threads that share the descriptor wait for it. This is the only way: a thread that
no operation of a pipe makes block never sleeps with a lock. -/

namespace Northstar

open Function Option

namespace Scheduler

variable {s s' : Scheduler}

/-- No thread becomes blocked. -/
def Unblocks (s s' : Scheduler) : Prop :=
  ∀ thread, s'.state thread = .blocked → s.state thread = .blocked

/-- A thread that is given another state than blocked: nobody is newly blocked. -/
lemma unblocks_of_update {thread : Tid} {x : ThreadState}
    (h : s'.state = update s.state thread x) (hx : x ≠ .blocked) : Unblocks s s' := by
  intro other hblocked
  rw [h] at hblocked
  by_cases hother : other = thread
  · rw [hother, update_self] at hblocked
    exact absurd hblocked hx
  · rwa [update_of_ne hother] at hblocked

/-- `ns_sched_prepare_block` blocks the thread that runs, unless it is the idle one, and no other.
-/
lemma nsSchedPrepareBlock_state (s : Scheduler) (kind : WaitKind) (key : ℕ) :
    (s.nsSchedPrepareBlock kind key).state = s.state ∨
      ∃ thread, s.current = some thread ∧
        (s.nsSchedPrepareBlock kind key).state = update s.state thread .blocked := by
  unfold nsSchedPrepareBlock
  split
  · exact .inl rfl
  · rename_i thread hcurrent
    split_ifs
    · exact .inl rfl
    · exact .inr ⟨thread, hcurrent, rfl⟩

end Scheduler

namespace SchedRun

open Scheduler

variable {r : SchedRun}

/-- A step that its thread may take does one of the things that steps do. -/
lemma Ok.effect (h : r.Ok) {event : SchedEvent} (hallows : r.Allows event) :
    ∃ q q', Effect r.sched q (r.step event).sched q' (.event event) := by
  obtain ⟨q, hq⟩ := h.sched
  have htidy : r.Tidy q :=
    ⟨hq.toTidy, fun t ht hne => (h.current t ht hne).imp_right (.imp_right .inl)⟩
  have hstep : r.AllowsOp (.event event) →
      ∃ q q', Effect r.sched q (r.step event).sched q' (.event event) := fun hop =>
    let ⟨q', _, heffect⟩ := htidy.step hop
    ⟨q, q', heffect⟩
  cases event with
  | add thread =>
    obtain ⟨q', woken, hwakes, -⟩ := nsSchedAdd_wakes hq.toTidy thread
    exact ⟨q, q', .add thread woken hwakes⟩
  | commitBlock | sleepUntil _ => exact hstep ⟨hallows, hq.depth⟩
  | finish => exact hstep (.inl hq.depth)
  | _ => exact hstep hallows

/-- Of the steps of a scheduler only one makes a thread block. -/
lemma Ok.step_unblocks (h : r.Ok) {event : SchedEvent} (hallows : r.Allows event)
    (hevent : ∀ kind key, event ≠ .prepareBlock kind key) :
    Unblocks r.sched (r.step event).sched := by
  obtain ⟨q, q', heffect⟩ := h.effect hallows
  intro thread hblocked
  by_cases hleaves : r.sched.Leaves thread (.event event)
  · cases heffect with
    | still _ hstill => exact (congrFun hstill.state thread).symm.trans hblocked
    | block kind key => exact absurd rfl (hevent kind key)
    | sleep _ _ _ _ _ _ _ hstate => exact unblocks_of_update hstate nofun thread hblocked
    | terminate _ _ _ _ hstate => exact unblocks_of_update hstate nofun thread hblocked
    | switch event hswitch => rcases hswitch with rfl | rfl <;> exact hleaves.elim
    | _ => exact hleaves.elim
  · rcases heffect.state_cases hleaves with hsame | hready | hrun
    · exact hsame.symm.trans hblocked
    · cases hready.symm.trans hblocked
    · cases hrun.symm.trans hblocked

/-- A thread that is not in the middle of anything is not blocked. -/
lemma Ok.awake_of_free (h : r.Ok) (hfree : r.Free) {thread : Tid}
    (hcurrent : r.sched.current = some thread) : r.sched.state thread ≠ .blocked := by
  by_cases hidle : r.sched.idle = some thread
  · obtain ⟨q, hq⟩ := h.sched
    obtain ⟨idle, hsome, -, hadded⟩ := hq.idle
    obtain rfl := some.inj (hsome.symm.trans hidle)
    exact (hq.unadded _ hadded).1
  · rw [h.running_of_free hfree thread hcurrent hidle]
    nofun

end SchedRun

/-- The thread has prepared to block and has yet to commit. -/
def VfsPhase.committing : VfsPhase → Bool
  | .commit _ _ _ => true
  | _ => false

/-- The thread has yet to reschedule. -/
def VfsPhase.switching : VfsPhase → Bool
  | .switch _ _ _ => true
  | _ => false

/-- A thread that blocks waits for something. -/
lemma PipeCall.blocks_ne_none (call : PipeCall) (pipe : Pipe) : call.blocks pipe ≠ some .none := by
  cases call with
  | read count =>
    rw [PipeCall.blocks]
    split_ifs <;> simp
  | write data written =>
    rw [PipeCall.blocks]
    split_ifs <;> simp
  | writeFull data written =>
    rw [PipeCall.blocks]
    split_ifs <;> simp
  | returned result => exact (some_ne_none _).symm

namespace Vfs

variable {v v' : Vfs} {thread : Tid} {file : ℕ}

/-- No thread that is blocked holds the lock of a file. -/
def AwakeHolders (v : Vfs) : Prop :=
  ∀ thread file, (v.files file).lock = some thread → v.sched.sched.state thread ≠ .blocked

/-- The locks are held by the threads that are between taking and releasing them. -/
def LocksMatch (v : Vfs) : Prop :=
  ∀ thread file, (v.files file).lock = some thread ↔ (v.phase thread).holds = some file

/-- The scheduler is in order, the locks are held by the threads that have taken them, and a thread
in a call is not blocked and has with the scheduler what its phase says. -/
structure Ok (v : Vfs) : Prop where
  sched : v.sched.Ok
  locks : v.LocksMatch
  awake : ∀ thread, v.phase thread ≠ .outside → v.sched.sched.state thread ≠ .blocked
  marks : ∀ thread, v.phase thread ≠ .outside →
    v.sched.prepared thread = (v.phase thread).committing ∧
      v.sched.inCall thread = (v.phase thread).switching

/-- The holders of locks are not blocked. -/
lemma Ok.awakeHolders (h : v.Ok) : v.AwakeHolders := fun thread file hlock =>
  h.awake thread fun houtside => by
    have hholds := (h.locks thread file).1 hlock
    rw [houtside] at hholds
    exact some_ne_none file hholds.symm

variable {phase old : VfsPhase} {request : FileRequest} {call : PipeCall}

/-- A step that leaves the locks to those who hold them. -/
lemma LocksMatch.of_phase (h : v.LocksMatch)
    (hlocks : ∀ file, (v'.files file).lock = (v.files file).lock)
    (hphase : v'.phase = update v.phase thread phase) (hold : v.phase thread = old)
    (hholds : phase.holds = old.holds) : v'.LocksMatch := by
  intro other file
  rw [hlocks, h other file, hphase]
  by_cases hother : other = thread
  · rw [hother, update_self, hholds, hold]
  · rw [update_of_ne hother]

/-- The lock of one file passes between nobody and one thread. -/
lemma LocksMatch.set (h : v.LocksMatch) {lock : Option Tid}
    (hself : lock = some thread ↔ phase.holds = some file)
    (hother : ∀ other ≠ thread, lock ≠ some other ∧ (v.files file).lock ≠ some other)
    (helse : ∀ f ≠ file, phase.holds ≠ some f ∧ (v.phase thread).holds ≠ some f) :
    ((v.setLock file lock).setPhase thread phase).LocksMatch := by
  intro other f
  have hold := h other f
  change (update v.files file { v.files file with lock := lock } f).lock = some other ↔
    (update v.phase thread phase other).holds = some f
  by_cases hf : f = file
  · subst hf
    rw [update_self]
    by_cases hthread : other = thread
    · rw [hthread, update_self]
      exact hself
    · rw [update_of_ne hthread, ← hold]
      exact iff_of_false (hother other hthread).1 (hother other hthread).2
  · rw [update_of_ne hf, hold]
    by_cases hthread : other = thread
    · rw [hthread, update_self]
      exact iff_of_false (helse f hf).2 (helse f hf).1
    · rw [update_of_ne hthread]

/-- A thread without a lock takes a free one. -/
lemma LocksMatch.acquire (h : v.LocksMatch) (hphase : (v.phase thread).holds = none)
    (hfree : (v.files file).lock = none) (hholds : phase.holds = some file) :
    ((v.setLock file (some thread)).setPhase thread phase).LocksMatch := by
  refine h.set (iff_of_true rfl hholds) (fun other hne => ?_) fun f hne => ?_
  · rw [hfree]
    exact ⟨fun heq => hne (some.inj heq).symm, nofun⟩
  · rw [hholds, hphase]
    exact ⟨fun heq => hne (some.inj heq).symm, nofun⟩

/-- A thread releases the lock that it holds. -/
lemma LocksMatch.release (h : v.LocksMatch) (hphase : (v.phase thread).holds = some file)
    (hholds : phase.holds = none) :
    ((v.setLock file none).setPhase thread phase).LocksMatch := by
  refine h.set (by rw [hholds]; exact iff_of_false nofun nofun) (fun other hne => ?_)
    fun f hne => ?_
  · rw [(h thread file).2 hphase]
    exact ⟨nofun, fun heq => hne (some.inj heq).symm⟩
  · rw [hholds, hphase]
    exact ⟨nofun, fun heq => hne (some.inj heq).symm⟩

/-- A step of one thread to another phase. -/
lemma Ok.move (h : v.Ok) (hsched : v'.sched.Ok) (hlocks : v'.LocksMatch)
    (hphase : v'.phase = update v.phase thread phase)
    (hothers : ∀ other, other ≠ thread →
      (v'.sched.sched.state other = .blocked → v.sched.sched.state other = .blocked) ∧
        v'.sched.prepared other = v.sched.prepared other ∧
        v'.sched.inCall other = v.sched.inCall other)
    (hthread : phase ≠ .outside → v'.sched.sched.state thread ≠ .blocked ∧
      v'.sched.prepared thread = phase.committing ∧ v'.sched.inCall thread = phase.switching) :
    v'.Ok := by
  refine ⟨hsched, hlocks, fun other hother => ?_, fun other hother => ?_⟩
  · rw [hphase] at hother
    by_cases heq : other = thread
    · rw [heq, update_self] at hother
      exact heq ▸ (hthread hother).1
    · rw [update_of_ne heq] at hother
      exact fun hblocked => h.awake other hother ((hothers other heq).1 hblocked)
  · rw [hphase] at hother ⊢
    by_cases heq : other = thread
    · rw [heq, update_self] at hother ⊢
      exact (hthread hother).2
    · rw [update_of_ne heq] at hother ⊢
      rw [(hothers other heq).2.1, (hothers other heq).2.2]
      exact h.marks other hother

/-- The thread is not blocked and not in the middle of a call of the scheduler. -/
def Ready (v : Vfs) (thread : Tid) : Prop :=
  v.sched.sched.state thread ≠ .blocked ∧ v.sched.prepared thread = false ∧
    v.sched.inCall thread = false

/-- A thread in the middle of a call is ready, unless it is about to block or to switch. -/
lemma Ok.ready_of_phase (h : v.Ok) (hphase : v.phase thread = phase)
    (hcall : phase ≠ .outside) (hcommitting : phase.committing = false)
    (hswitching : phase.switching = false) : v.Ready thread := by
  subst hphase
  obtain ⟨hprepared, hinCall⟩ := h.marks thread hcall
  exact ⟨h.awake thread hcall, hprepared.trans hcommitting, hinCall.trans hswitching⟩

/-- A step of one thread that does not concern the scheduler. -/
lemma Ok.move_quiet (h : v.Ok) (hsched : v'.sched = v.sched) (hlocks : v'.LocksMatch)
    (hphase : v'.phase = update v.phase thread phase)
    (hready : v.Ready thread) (hcommitting : phase.committing = false)
    (hswitching : phase.switching = false) : v'.Ok := by
  refine h.move (hsched ▸ h.sched) hlocks hphase (fun other _ => ?_) fun _ => ?_
  · rw [hsched]
    exact ⟨id, rfl, rfl⟩
  · rw [hsched, hcommitting, hswitching]
    exact hready

/-- A step of one thread that makes others ready. -/
lemma Ok.move_wake (h : v.Ok) {kind : WaitKind} {key maximum : ℕ}
    (hsched : v'.sched = v.sched.step (.wake kind key maximum)) (hlocks : v'.LocksMatch)
    (hphase : v'.phase = update v.phase thread phase)
    (hready : v.Ready thread) (hcommitting : phase.committing = false)
    (hswitching : phase.switching = false) : v'.Ok := by
  have hallows : v.sched.Allows (.wake kind key maximum) := trivial
  have hunblocks := h.sched.step_unblocks hallows nofun
  refine h.move (hsched ▸ h.sched.step trivial) hlocks hphase (fun other _ => ?_) fun _ => ?_
  · rw [hsched]
    exact ⟨hunblocks other, rfl, rfl⟩
  · rw [hsched, hcommitting, hswitching]
    exact ⟨fun hblocked => hready.1 (hunblocks thread hblocked), hready.2⟩

/-! ### Calls -/

/-- Retaining a file does not change its lock. -/
lemma nsVfsFileRetain_lock (v : Vfs) (file f : ℕ) :
    ((v.nsVfsFileRetain file).files f).lock = (v.files f).lock := by
  by_cases hf : f = file
  · subst hf
    simp only [nsVfsFileRetain, setFile, update_self]
  · simp only [nsVfsFileRetain, setFile, update_of_ne hf]

/-- The loop of a clone changes only the numbers of references. -/
lemma retainLoop_spec (entries : ℕ → Option (ℕ × Bool)) (rounds : ℕ) (v : Vfs) :
    (retainLoop entries rounds v).sched = v.sched ∧
      (retainLoop entries rounds v).phase = v.phase ∧
      ∀ file, ((retainLoop entries rounds v).files file).lock = (v.files file).lock := by
  induction rounds with
  | zero => exact ⟨rfl, rfl, fun _ => rfl⟩
  | succ rounds ih =>
    rw [retainLoop]
    split
    · exact ih
    · exact ⟨ih.1, ih.2.1, fun file => (nsVfsFileRetain_lock _ _ file).trans (ih.2.2 file)⟩

/-- The beginning of a call takes no lock. -/
lemma begin_spec (v : Vfs) (thread : Tid) (request : VfsRequest)
    (houtside : v.phase thread = .outside) :
    (v.begin thread request).sched = v.sched ∧
      (∀ file, ((v.begin thread request).files file).lock = (v.files file).lock) ∧
      ∃ phase : VfsPhase, (v.begin thread request).phase = update v.phase thread phase ∧
        phase.holds = none ∧ phase.committing = false ∧ phase.switching = false := by
  have hsame : v.phase = update v.phase thread .outside :=
    houtside ▸ (update_eq_self thread v.phase).symm
  cases request with
  | file fd request =>
    unfold Vfs.begin beginFile
    dsimp only
    split_ifs
    · exact ⟨rfl, fun _ => rfl, .outside, rfl, rfl, rfl, rfl⟩
    · split
      · exact ⟨rfl, fun _ => rfl, .outside, rfl, rfl, rfl, rfl⟩
      · rename_i file _
        refine ⟨rfl, nsVfsFileRetain_lock v file, _, rfl, ?_⟩
        split_ifs
        · exact ⟨rfl, rfl, rfl⟩
        · exact ⟨rfl, rfl, rfl⟩
  | close fd =>
    unfold Vfs.begin beginClose
    dsimp only
    split
    · exact ⟨rfl, fun _ => rfl, .outside, rfl, rfl, rfl, rfl⟩
    · exact ⟨rfl, fun _ => rfl, _, rfl, rfl, rfl, rfl⟩
  | clone child copy closeOnExec =>
    unfold Vfs.begin nsVfsFdtableClone
    dsimp only
    split_ifs
    · exact ⟨rfl, fun _ => rfl, .outside, hsame, rfl, rfl, rfl⟩
    · obtain ⟨hsched, hphase, hlocks⟩ :=
        retainLoop_spec ((v.tables (v.tableOf thread)).copied closeOnExec
          (v.tables (v.tableOf thread)).maximum).entries (v.tables (v.tableOf thread)).maximum v
      refine ⟨hsched, hlocks, .outside, ?_, rfl, rfl, rfl⟩
      exact congrArg (fun phase => update phase thread VfsPhase.outside) hphase

/-- A section of an operation that has not returned. -/
lemma operate_of_ne (hcall : ∀ result, call ≠ .returned result) :
    v.operate thread file request call =
      match call.blocks (v.pipes (v.files file).pipe) with
      | some kind =>
        { v with sched := v.sched.step (.prepareBlock kind (v.files file).pipe) }.setPhase thread
          (.commit file request (call.section' (v.pipes (v.files file).pipe)).2.2)
      | none =>
        { v with
          pipes := update v.pipes (v.files file).pipe
            (call.section' (v.pipes (v.files file).pipe)).1 }.setPhase thread
          (if (call.section' (v.pipes (v.files file).pipe)).2.1 = [] then
            .inside file request (call.section' (v.pipes (v.files file).pipe)).2.2
          else .wake file request (call.section' (v.pipes (v.files file).pipe)).2.2
            call.wakes) := by
  cases call with
  | read count => rfl
  | write data written => rfl
  | writeFull data written => rfl
  | returned result => exact absurd rfl (hcall result)

/-- A mark is set for the thread that runs. -/
lemma mark_eq {run : SchedRun} (hcurrent : run.sched.current = some thread) (marks : Tid → Bool)
    (value : Bool) : run.mark marks value = update marks thread value := by
  rw [SchedRun.mark, hcurrent]

/-- The idle thread does not block. -/
lemma nsSchedPrepareBlock_idle {s : Scheduler} (hcurrent : s.current = some thread)
    (hidle : s.idle = some thread) (kind : WaitKind) (key : ℕ) :
    s.nsSchedPrepareBlock kind key = s := by
  unfold Scheduler.nsSchedPrepareBlock
  rw [hcurrent]
  exact if_pos (Or.inr hidle)

section

variable (h : v.Ok) (hcurrent : v.sched.sched.current = some thread)
include h hcurrent

/-- One section of the operation of a file, unless it makes the thread block. -/
lemma Ok.operate (hphase : v.phase thread = .inside file request call)
    (hkeeps : call.blocks (v.pipes (v.files file).pipe) = none ∨
      v.sched.sched.idle = some thread) : (v.operate thread file request call).Ok := by
  have hready := h.ready_of_phase hphase nofun rfl rfl
  by_cases hcall : ∃ result, call = .returned result
  · obtain ⟨result, rfl⟩ := hcall
    exact h.move_quiet rfl (h.locks.release (congrArg VfsPhase.holds hphase) rfl) rfl hready rfl rfl
  · rw [operate_of_ne fun result heq => hcall ⟨result, heq⟩]
    split
    · rename_i kind hblocks
      have hidle := hkeeps.resolve_left fun hnone => some_ne_none kind (hblocks.symm.trans hnone)
      have hallows : v.sched.Allows (.prepareBlock kind (v.files file).pipe) :=
        fun other hother => by
        obtain rfl := some.inj (hcurrent.symm.trans hother)
        exact hready.2
      have hsame := nsSchedPrepareBlock_idle hcurrent hidle kind (v.files file).pipe
      have hmark := mark_eq hcurrent v.sched.prepared true
      refine h.move (h.sched.step hallows) (h.locks.of_phase (fun _ => rfl) rfl hphase rfl) rfl
        (fun other hother => ⟨fun hblocked => ?_, ?_, rfl⟩) fun _ => ⟨fun hblocked => ?_, ?_, ?_⟩
      · exact hsame ▸ hblocked
      · exact (congrFun hmark other).trans (update_of_ne hother _ _)
      · exact hready.1 (hsame ▸ hblocked)
      · exact (congrFun hmark thread).trans (update_self ..)
      · exact hready.2.2
    · split_ifs
      · exact h.move_quiet rfl (h.locks.of_phase (fun _ => rfl) rfl hphase rfl) rfl hready rfl rfl
      · exact h.move_quiet rfl (h.locks.of_phase (fun _ => rfl) rfl hphase rfl) rfl hready rfl rfl

/-- A thread that has been woken already commits. -/
lemma Ok.commit (hphase : v.phase thread = .commit file request call) :
    ({ v with sched := v.sched.step .commitBlock }.setPhase thread
      (if (v.sched.step .commitBlock).inCall thread then .switch file request call
      else .inside file request call)).Ok := by
  have hcall : v.phase thread ≠ .outside := hphase ▸ nofun
  have hinCall : v.sched.inCall thread = false :=
    (h.marks thread hcall).2.trans (congrArg VfsPhase.switching hphase)
  have hallows : v.sched.Allows .commitBlock := fun other hother => by
    obtain rfl := some.inj (hcurrent.symm.trans hother)
    exact hinCall
  have hunblocks := h.sched.step_unblocks hallows nofun
  have hprepared : (v.sched.step .commitBlock).prepared =
      update v.sched.prepared thread false := mark_eq hcurrent _ _
  have hmark : (v.sched.step .commitBlock).inCall =
      update v.sched.inCall thread v.sched.sched.commitSection.1 := mark_eq hcurrent _ _
  refine h.move (h.sched.step hallows) (h.locks.of_phase (fun _ => rfl) rfl hphase ?_) rfl
    (fun other hother => ⟨hunblocks other, ?_, ?_⟩) fun _ => ⟨fun hblocked => ?_, ?_, ?_⟩
  · split_ifs
    · rfl
    · rfl
  · exact (congrFun hprepared other).trans (update_of_ne hother _ _)
  · exact (congrFun hmark other).trans (update_of_ne hother _ _)
  · exact h.awake thread hcall (hunblocks thread hblocked)
  · refine ((congrFun hprepared thread).trans (update_self ..)).trans ?_
    split_ifs
    · rfl
    · rfl
  · split_ifs with hswitch
    · exact hswitch
    · exact Bool.eq_false_iff.2 hswitch

/-- A thread that has switched away and back goes on. -/
lemma Ok.switch (hphase : v.phase thread = .switch file request call) :
    ({ v with sched := v.sched.step .finish }.setPhase thread (.inside file request call)).Ok := by
  have hcall : v.phase thread ≠ .outside := hphase ▸ nofun
  have hprepared : v.sched.prepared thread = false :=
    (h.marks thread hcall).1.trans (congrArg VfsPhase.committing hphase)
  have hallows : v.sched.Allows .finish := trivial
  have hunblocks := h.sched.step_unblocks hallows nofun
  have hmark : (v.sched.step .finish).inCall = update v.sched.inCall thread false :=
    mark_eq hcurrent _ _
  refine h.move (h.sched.step hallows) (h.locks.of_phase (fun _ => rfl) rfl hphase rfl) rfl
    (fun other hother => ⟨hunblocks other, rfl, ?_⟩) fun _ => ⟨fun hblocked => ?_, hprepared, ?_⟩
  · exact (congrFun hmark other).trans (update_of_ne hother _ _)
  · exact h.awake thread hcall (hunblocks thread hblocked)
  · exact (congrFun hmark thread).trans (update_self ..)

/-- The next step of a call, unless it makes the thread block. -/
lemma Ok.advance (hkeeps : ∀ file request call, v.phase thread = .inside file request call →
      call.blocks (v.pipes (v.files file).pipe) = none ∨ v.sched.sched.idle = some thread) :
    (v.advance thread).Ok := by
  unfold Vfs.advance
  split
  · exact h
  · rename_i file request hphase
    have hready := h.ready_of_phase hphase nofun rfl rfl
    split_ifs with hfree
    · exact h.move_quiet rfl (h.locks.acquire (congrArg VfsPhase.holds hphase) hfree rfl) rfl hready
        rfl rfl
    · exact h
  · rename_i file request call hphase
    exact h.operate hcurrent hphase (hkeeps file request call hphase)
  · rename_i file request call kind hphase
    exact h.move_wake rfl (h.locks.of_phase (fun _ => rfl) rfl hphase rfl) rfl
      (h.ready_of_phase hphase nofun rfl rfl) rfl rfl
  · rename_i file request call hphase
    exact h.commit hcurrent hphase
  · rename_i file request call hphase
    exact h.switch hcurrent hphase
  · rename_i file result hphase
    have hready := h.ready_of_phase hphase nofun rfl rfl
    have hlock : ∀ (references : UInt32) (f : ℕ),
        (update v.files file { v.files file with references := references } f).lock =
          (v.files f).lock := by
      intro references f
      by_cases hf : f = file
      · rw [hf, update_self]
      · rw [update_of_ne hf]
    dsimp only
    split_ifs
    · exact h.move_quiet rfl (h.locks.of_phase (hlock _) rfl hphase rfl) rfl hready rfl rfl
    · exact h.move_quiet rfl (h.locks.of_phase (hlock _) rfl hphase rfl) rfl hready rfl rfl
  · rename_i file result hphase
    exact h.move_quiet rfl (h.locks.of_phase (fun _ => rfl) rfl hphase rfl) rfl
      (h.ready_of_phase hphase nofun rfl rfl) rfl rfl
  · rename_i pipe kind result hphase
    exact h.move_wake rfl (h.locks.of_phase (fun _ => rfl) rfl hphase rfl) rfl
      (h.ready_of_phase hphase nofun rfl rfl) rfl rfl

end

/-! ### Runs -/

/-- The step is not one in which the operation of a pipe makes its thread block. -/
def Keeps (v : Vfs) : VfsEvent → Prop
  | .advance => ∀ thread, v.sched.sched.current = some thread → ∀ file request call,
      v.phase thread = .inside file request call →
        call.blocks (v.pipes (v.files file).pipe) = none ∨ v.sched.sched.idle = some thread
  | _ => True

/-- What the scheduler is told between the steps of the calls does not concern their threads. -/
lemma Ok.sched_step (h : v.Ok) {event : SchedEvent} (hallows : v.sched.Allows event)
    (hown : event.own = true → v.Outside) : ({ v with sched := v.sched.step event } : Vfs).Ok := by
  have hother : ∀ thread, v.phase thread ≠ .outside →
      ((v.sched.step event).sched.state thread = .blocked →
        v.sched.sched.state thread = .blocked) ∧
      (v.sched.step event).prepared thread = v.sched.prepared thread ∧
      (v.sched.step event).inCall thread = v.sched.inCall thread := by
    intro thread hcall
    -- the running thread is in no call, so it is another one
    have hne : event.own = true → ∀ current, v.sched.sched.current = some current →
        thread ≠ current := by
      rintro howned current hcurrent rfl
      exact hcall (hown howned thread hcurrent)
    have hmark : event.own = true → ∀ marks value,
        v.sched.mark marks value thread = marks thread := by
      intro howned marks value
      cases hcurrent : v.sched.sched.current with
      | none => rw [SchedRun.mark, hcurrent]
      | some current =>
        rw [mark_eq hcurrent]
        exact update_of_ne (hne howned current hcurrent) _ _
    by_cases hprepare : ∃ kind key, event = .prepareBlock kind key
    · obtain ⟨kind, key, rfl⟩ := hprepare
      refine ⟨fun hblocked => ?_, hmark rfl _ _, rfl⟩
      rcases v.sched.sched.nsSchedPrepareBlock_state kind key with
        hsame | ⟨current, hcurrent, hstate⟩
      · exact (congrFun hsame thread).symm.trans hblocked
      · exact (update_of_ne (hne rfl current hcurrent) _ _).symm.trans
          ((congrFun hstate thread).symm.trans hblocked)
    · refine ⟨h.sched.step_unblocks hallows (fun kind key heq => hprepare ⟨kind, key, heq⟩) thread,
        ?_, ?_⟩
      · cases event with
        | prepareBlock kind key => exact absurd ⟨kind, key, rfl⟩ hprepare
        | commitBlock => exact hmark rfl _ _
        | _ => rfl
      · cases event with
        | yield | commitBlock | sleepUntil _ | terminateCurrent | finish => exact hmark rfl _ _
        | _ => rfl
  refine ⟨h.sched.step hallows, h.locks, fun thread hcall hblocked => ?_, fun thread hcall => ?_⟩
  · exact h.awake thread hcall ((hother thread hcall).1 hblocked)
  · obtain ⟨-, hprepared, hinCall⟩ := hother thread hcall
    obtain ⟨hold, hold'⟩ := h.marks thread hcall
    exact ⟨hprepared.trans hold, hinCall.trans hold'⟩

/-- A step that keeps to the rules keeps the VFS in order. -/
lemma Ok.step (h : v.Ok) (event : VfsEvent) (hkeeps : v.Keeps event) : (v.step event).Ok := by
  cases event with
  | call request =>
    unfold Vfs.step
    dsimp only
    split
    · exact h
    · rename_i thread hcurrent
      split_ifs with hguard
      · obtain ⟨hsched, hlocks, phase, hphase, hholds, hcommitting, hswitching⟩ :=
          v.begin_spec thread request hguard.1
        have hready : v.Ready thread :=
          ⟨h.sched.awake_of_free hguard.2 hcurrent, hguard.2 thread hcurrent⟩
        exact h.move_quiet hsched (h.locks.of_phase hlocks hphase hguard.1 hholds) hphase hready
          hcommitting hswitching
      · exact h
  | advance =>
    unfold Vfs.step
    dsimp only
    split
    · exact h
    · rename_i thread hcurrent
      exact h.advance hcurrent (hkeeps thread hcurrent)
  | sched event =>
    unfold Vfs.step
    dsimp only
    split_ifs with hguard
    · exact h.sched_step hguard.1 hguard.2
    · exact h

/-- A thread that blocks in the operation of a pipe holds the lock of its file. -/
lemma Ok.not_awakeHolders_step (h : v.Ok) (event : VfsEvent) (hbreaks : ¬v.Keeps event) :
    ¬(v.step event).AwakeHolders := by
  cases event with
  | call request => exact absurd trivial hbreaks
  | sched event => exact absurd trivial hbreaks
  | advance =>
    simp only [Keeps, not_forall, not_or] at hbreaks
    obtain ⟨thread, hcurrent, file, request, call, hphase, hblocks, hidle⟩ := hbreaks
    obtain ⟨kind, hkind⟩ := ne_none_iff_exists'.1 hblocks
    have hcall : ∀ result, call ≠ .returned result := by
      rintro result rfl
      exact hblocks rfl
    have hlock : (v.files file).lock = some thread :=
      (h.locks thread file).2 (congrArg VfsPhase.holds hphase)
    have hnone : kind ≠ .none := fun heq => call.blocks_ne_none _ (heq ▸ hkind)
    have hstep : v.step .advance =
        { v with sched := v.sched.step (.prepareBlock kind (v.files file).pipe) }.setPhase thread
          (.commit file request (call.section' (v.pipes (v.files file).pipe)).2.2) := by
      unfold Vfs.step Vfs.advance
      simp only [hcurrent, hphase]
      rw [operate_of_ne hcall, hkind]
    have hblocked : (v.sched.sched.nsSchedPrepareBlock kind (v.files file).pipe).state thread =
        .blocked := by
      unfold Scheduler.nsSchedPrepareBlock
      rw [hcurrent]
      dsimp only
      rw [if_neg (not_or.2 ⟨hnone, hidle⟩)]
      exact update_self ..
    rw [hstep]
    exact fun hawake => hawake thread file hlock hblocked

lemma ok_start (idle : Tid) (quantumTicks : ℕ) (published flagged : Tid → Bool) (pipes : ℕ → Pipe)
    (files : ℕ → VfsFile) (tables : ℕ → FdTable) (usedTables : Finset ℕ) (tableOf : Tid → ℕ) :
    (start idle quantumTicks published flagged pipes files tables usedTables tableOf).Ok := by
  refine ⟨SchedRun.ok_start idle quantumTicks published flagged, fun thread file => ?_,
    fun thread hcall => absurd rfl hcall, fun thread hcall => absurd rfl hcall⟩
  exact iff_of_false (some_ne_none thread).symm (some_ne_none file).symm

end Vfs

/-- In a run of threads on descriptors of pipes, no thread that is blocked ever holds the lock of a
file exactly if in no step the operation of a pipe makes its thread block: a read from a pipe that
is empty but has writers, or a write to a pipe that has readers but not enough room. -/
theorem file_lock_holders_awake_iff (idle : Tid) (quantumTicks : ℕ) (published flagged : Tid → Bool)
    (pipes : ℕ → Pipe) (files : ℕ → VfsFile) (tables : ℕ → FdTable) (usedTables : Finset ℕ)
    (tableOf : Tid → ℕ) (events : List VfsEvent) :
    let v := Vfs.start idle quantumTicks published flagged pipes files tables usedTables tableOf
    Always Vfs.step Vfs.AwakeHolders v events ↔ AllSteps Vfs.step Vfs.Keeps v events :=
  always_iff_allSteps Vfs.Ok (fun _ h => h.awakeHolders) (fun _ event h => h.step event)
    (fun _ event h => h.not_awakeHolders_step event)
    (Vfs.ok_start idle quantumTicks published flagged pipes files tables usedTables tableOf) events

/-- A process with the two descriptors of a new pipe. -/
def sharedPipeStart : Vfs :=
  Vfs.start 0 5 (fun _ => true) (fun _ => false)
    (fun _ =>
      { buffer := fun _ => 0, capacity := nsPipeDefaultCapacity, head := 0, used := 0, readers := 1,
        writers := 1, canBlock := true })
    (fun file =>
      { references := 1, lock := none, statusFlags := if file = 0 then 0 else nsOWronly, pipe := 0,
        writable := decide (file ≠ 0) })
    (fun _ => { maximum := 64, entries := fun fd => if fd < 2 then some (fd, false) else none })
    {0} (fun _ => 0)

/-- Thread 1 clones the table for thread 2 and reads from the empty pipe; thread 2 asks for the
status of the same descriptor. -/
def sharedReadEvents : List VfsEvent :=
  [.sched (.add 1), .sched (.add 2), .sched .reschedule, .call (.clone 2 1 false),
    .call (.file 0 (.read false 1)), .advance, .advance, .advance, .advance,
    .call (.file 0 (.fstat false)), .advance]

/-- The reader is blocked with the lock of the file that the other thread waits for. -/
theorem reader_sleeps_with_file_lock :
    let v := sharedReadEvents.foldl Vfs.step sharedPipeStart
    v.sched.sched.state 1 = .blocked ∧ (v.files 0).lock = some 1 ∧
      v.sched.sched.current = some 2 ∧ v.phase 2 = .acquire 0 (.fstat false) ∧ ¬v.AwakeHolders := by
  have hrun : let v := sharedReadEvents.foldl Vfs.step sharedPipeStart
      v.sched.sched.state 1 = .blocked ∧ (v.files 0).lock = some 1 ∧
        v.sched.sched.current = some 2 ∧ v.phase 2 = .acquire 0 (.fstat false) := by
    decide +kernel
  obtain ⟨hblocked, hlock, hcurrent, hphase⟩ := hrun
  exact ⟨hblocked, hlock, hcurrent, hphase, fun hawake => hawake 1 0 hlock hblocked⟩

end Northstar
