import Northstar.Lib.Linked

/-! # The round-robin scheduler

A model of `scheduler.c`. The fields of the threads are columns: a function from threads to the
value of the field. `ready` is the circular list through `run_prev` and `run_next`, `blocked` and
`sleep` are the lists through `wait_next` and `sleep_next`.

The functions of the scheduler are critical sections, some of which are followed by a call of
`ns_sched_reschedule`. Anything that an interrupt handler does may come between the two, so the
steps of a run are single sections (`SchedEvent`). -/

namespace Northstar

open Function

/-- Threads are identified by a number. -/
abbrev Tid : Type := ℕ

/-- `enum ns_thread_state`. -/
inductive ThreadState
  | embryo | ready | running | blocked | sleeping | zombie
  deriving DecidableEq, Repr

/-- `enum ns_wait_kind`. -/
inductive WaitKind
  | none | child | pipeRead | pipeWrite | io
  deriving DecidableEq, Repr

/-- `struct ns_scheduler` and the fields of the threads that it uses. -/
structure Scheduler where
  current : Option Tid
  idle : Option Tid
  ready : Cycle Tid
  blocked : LinkedList Tid
  sleep : LinkedList Tid
  quantumTicks : ℕ
  preemptDisableDepth : ℕ
  reschedulePending : Bool
  state : Tid → ThreadState
  idleFlag : Tid → Bool
  onRunQueue : Tid → Bool
  waitKind : Tid → WaitKind
  waitKey : Tid → ℕ
  wakeDeadline : Tid → ℕ
  quantumLeft : Tid → ℕ
  /-- The threads that `ns_sched_add` has accepted. The lists hold no others, so the loops over them
  take no more rounds than there are threads here. -/
  added : Finset Tid

namespace Scheduler

/-! ### Lists -/

variable (s : Scheduler) (thread : Tid)

/-- `ready_insert_tail`. -/
def readyInsertTail : Scheduler :=
  { s with
    ready := s.ready.insertTail thread
    onRunQueue := update s.onRunQueue thread true }

/-- `ready_remove`. -/
def readyRemove : Scheduler :=
  if s.onRunQueue thread = false then s
  else
    { s with
      ready := s.ready.remove thread
      onRunQueue := update s.onRunQueue thread false }

/-- `ready_pop`. -/
def readyPop : Option Tid × Scheduler :=
  match s.ready.head with
  | none => (none, s)
  | some thread => (some thread, s.readyRemove thread)

/-- `blocked_remove` and `sleep_remove`. -/
def waitRemove : Scheduler :=
  { s with
    blocked := s.blocked.remove s.added.card thread
    sleep := s.sleep.remove s.added.card thread }

/-- Set the state of a thread. -/
def setState (state : ThreadState) : Scheduler :=
  { s with state := update s.state thread state }

/-! ### Switching -/

/-- `switch_to`, where the context switch itself is left to the processor. -/
def switchTo (next : Option Tid) : Scheduler :=
  match next.or s.idle with
  | none => s
  | some next =>
    let s' :=
      { s.setState next .running with
        quantumLeft := update s.quantumLeft next s.quantumTicks }
    if s.current = some next then s' else { s' with current := some next }

/-- What `ns_sched_reschedule` does with the thread that has run until now. -/
def requeue : Scheduler :=
  match s.current with
  | none => s
  | some previous =>
    if s.idle ≠ some previous ∧ s.state previous = .running then
      (s.setState previous .ready).readyInsertTail previous
    else if s.idle = some previous then s.setState previous .ready
    else s

/-- `ns_sched_reschedule`. -/
def nsSchedReschedule : Scheduler :=
  if s.preemptDisableDepth ≠ 0 then { s with reschedulePending := true }
  else
    let popped := s.requeue.readyPop
    { popped.2 with reschedulePending := false }.switchTo popped.1

/-! ### Sections -/

/-- `ns_sched_add`, and whether it accepts the thread. -/
def nsSchedAdd : Bool × Scheduler :=
  if s.onRunQueue thread = true ∨ s.state thread = .running ∨ s.state thread = .zombie ∨
      s.idleFlag thread = true then (false, s)
  else
    (true,
      { (({ s.waitRemove thread with
            waitKind := update s.waitKind thread .none
            waitKey := update s.waitKey thread 0 }).setState thread .ready).readyInsertTail
          thread with
        added := insert thread s.added })

/-- A sleeper whose deadline has passed becomes ready. -/
def wakeSleeper : Scheduler :=
  ({ s with
      sleep := s.sleep.unlink none thread
      wakeDeadline := update s.wakeDeadline thread 0 }.setState thread
    .ready).readyInsertTail thread

/-- The loop of `ns_sched_tick` over the sleepers. -/
def wakeSleepers (nowNs : ℕ) : ℕ → Scheduler → Scheduler
  | 0, s => s
  | rounds + 1, s =>
    match s.sleep.head with
    | none => s
    | some thread =>
      if s.wakeDeadline thread ≤ nowNs then wakeSleepers nowNs rounds (s.wakeSleeper thread) else s

/-- The accounting of `ns_sched_tick`. -/
def accountTick : Scheduler :=
  let s :=
    if s.current = s.idle ∧ s.ready.head ≠ none then { s with reschedulePending := true } else s
  if s.current = s.idle then s
  else match s.current with
    | none => s
    | some current =>
      let left := s.quantumLeft current - 1
      { s with
        quantumLeft := update s.quantumLeft current left
        reschedulePending := s.reschedulePending || left == 0 }

/-- The section of `ns_sched_tick`. -/
def tickSection (nowNs : ℕ) : Scheduler :=
  (wakeSleepers nowNs s.added.card s).accountTick

/-- `ns_sched_tick`. -/
def nsSchedTick (nowNs : ℕ) : Scheduler :=
  let s := s.tickSection nowNs
  if s.reschedulePending = true ∧ s.preemptDisableDepth = 0 then s.nsSchedReschedule else s

/-- The write with which `ns_sched_yield` begins. -/
def yieldSection : Scheduler := { s with reschedulePending := true }

/-- `ns_sched_yield`. -/
def nsSchedYield : Scheduler :=
  let s := s.yieldSection
  if s.preemptDisableDepth = 0 then s.nsSchedReschedule else s

/-- `ns_sched_prepare_block`. -/
def nsSchedPrepareBlock (kind : WaitKind) (key : ℕ) : Scheduler :=
  match s.current with
  | none => s
  | some thread =>
    if kind = .none ∨ s.idle = some thread then s
    else
      { s.setState thread .blocked with
        waitKind := update s.waitKind thread kind
        waitKey := update s.waitKey thread key
        blocked := s.blocked.link none thread }

/-- The section of `ns_sched_commit_block`, and whether a switch is required. -/
def commitSection : Bool × Scheduler :=
  match s.current with
  | none => (false, s)
  | some thread =>
    if s.state thread = .blocked then
      (decide (s.preemptDisableDepth = 0), { s with reschedulePending := true })
    else if s.state thread = .ready ∧ s.onRunQueue thread = true then
      -- a producer has satisfied the wait before the thread could switch away
      (false, (s.readyRemove thread).setState thread .running)
    else (false, s)

/-- `ns_sched_commit_block`. -/
def nsSchedCommitBlock : Scheduler :=
  let committed := s.commitSection
  if committed.1 then committed.2.nsSchedReschedule else committed.2

/-- `ns_sched_block`. -/
def nsSchedBlock (kind : WaitKind) (key : ℕ) : Scheduler :=
  (s.nsSchedPrepareBlock kind key).nsSchedCommitBlock

/-- The section of `ns_sched_sleep_until`, and whether the call goes on to reschedule. -/
def sleepSection (deadlineNs : ℕ) : Bool × Scheduler :=
  match s.current with
  | none => (false, s)
  | some thread =>
    if s.idle = some thread then (false, s)
    else
      let cursor := s.sleep.seek (fun t => deadlineNs < s.wakeDeadline t) s.added.card none
      (decide (s.preemptDisableDepth = 0),
        { s.setState thread .sleeping with
          wakeDeadline := update s.wakeDeadline thread deadlineNs
          sleep := s.sleep.link cursor thread
          reschedulePending := true })

/-- `ns_sched_sleep_until`. -/
def nsSchedSleepUntil (deadlineNs : ℕ) : Scheduler :=
  let slept := s.sleepSection deadlineNs
  if slept.1 then slept.2.nsSchedReschedule else slept.2

/-- A thread that waits for what has come becomes ready. -/
def wakeBlocked (cursor : Option Tid) (thread : Tid) : Scheduler :=
  ({ s with
      blocked := s.blocked.unlink cursor thread
      waitKind := update s.waitKind thread .none
      waitKey := update s.waitKey thread 0 }.setState thread .ready).readyInsertTail thread

/-- The loop of `ns_sched_wake`. -/
def wakeLoop (kind : WaitKind) (key maximum : ℕ) :
    ℕ → Scheduler → Option Tid → ℕ → ℕ × Scheduler
  | 0, s, _, count => (count, s)
  | rounds + 1, s, cursor, count =>
    match s.blocked.read cursor with
    | none => (count, s)
    | some thread =>
      if count < maximum then
        if s.waitKind thread = kind ∧ s.waitKey thread = key then
          wakeLoop kind key maximum rounds (s.wakeBlocked cursor thread) cursor (count + 1)
        else wakeLoop kind key maximum rounds s (some thread) count
      else (count, s)

/-- `ns_sched_wake`, and the number of threads it has woken. -/
def nsSchedWake (kind : WaitKind) (key maximum : ℕ) : ℕ × Scheduler :=
  if kind = .none ∨ maximum = 0 then (0, s)
  else wakeLoop kind key maximum s.added.card s none 0

/-- `ns_sched_wake_thread`, and whether there was a thread to wake. -/
def nsSchedWakeThread : Bool × Scheduler :=
  if s.state thread ≠ .blocked ∧ s.state thread ≠ .sleeping then (false, s)
  else
    (true,
      ({ s.waitRemove thread with
          waitKind := update s.waitKind thread .none
          waitKey := update s.waitKey thread 0
          wakeDeadline := update s.wakeDeadline thread 0 }.setState thread
        .ready).readyInsertTail thread)

/-- The section of `ns_sched_terminate_current`, and whether the call goes on to reschedule. -/
def terminateSection : Bool × Scheduler :=
  match s.current with
  | none => (false, s)
  | some thread =>
    if s.idle = some thread then (false, s)
    else
      (decide (s.preemptDisableDepth = 0),
        { s.setState thread .zombie with reschedulePending := true })

/-- `ns_sched_terminate_current`. -/
def nsSchedTerminateCurrent : Scheduler :=
  let terminated := s.terminateSection
  if terminated.1 then terminated.2.nsSchedReschedule else terminated.2

/-- `ns_sched_remove`. -/
def nsSchedRemove : Scheduler :=
  let s := (s.readyRemove thread).waitRemove thread
  if s.current = some thread then { s with reschedulePending := true } else s

/-- `ns_sched_preempt_disable`. -/
def nsSchedPreemptDisable : Scheduler :=
  { s with preemptDisableDepth := (s.preemptDisableDepth + 1) % 2 ^ 32 }

/-- The section of `ns_sched_preempt_enable`, and whether the call goes on to reschedule. -/
def preemptEnableSection : Bool × Scheduler :=
  let depth := s.preemptDisableDepth - 1
  (decide (depth = 0) && s.reschedulePending, { s with preemptDisableDepth := depth })

/-- `ns_sched_preempt_enable`. -/
def nsSchedPreemptEnable : Scheduler :=
  let enabled := s.preemptEnableSection
  if enabled.1 then enabled.2.nsSchedReschedule else enabled.2

end Scheduler

/-! ### Runs -/

/-- A scheduler with what its threads have yet to do: a prepared thread has to commit, and a thread
in a call has to reschedule. -/
structure SchedRun where
  sched : Scheduler
  prepared : Tid → Bool
  inCall : Tid → Bool

/-- The steps of a run. The thread that runs takes `yield`, `prepareBlock`, `commitBlock`,
`sleepUntil` and `terminateCurrent`, and `finish` to end such a call; the others may be taken at any
time. -/
inductive SchedEvent
  | add (thread : Tid)
  | tick (nowNs : ℕ)
  | yield
  | prepareBlock (kind : WaitKind) (key : ℕ)
  | commitBlock
  | sleepUntil (deadlineNs : ℕ)
  | wake (kind : WaitKind) (key maximum : ℕ)
  | wakeThread (thread : Tid)
  | terminateCurrent
  | reschedule
  | finish

variable (r : SchedRun)

namespace SchedRun

/-- The scheduler after `ns_sched_init` and `ns_sched_set_idle`. Of the threads to come some are
published already, and some are flagged as idle ones. -/
def start (idle : Tid) (quantumTicks : ℕ) (published flagged : Tid → Bool) : SchedRun :=
  { sched :=
      { current := none
        idle := some idle
        ready := { head := none, prev := fun _ => none, next := fun _ => none }
        blocked := { head := none, next := fun _ => none }
        sleep := { head := none, next := fun _ => none }
        quantumTicks := quantumTicks
        preemptDisableDepth := 0
        reschedulePending := false
        state := fun t => if t = idle ∨ published t = true then .ready else .embryo
        idleFlag := fun t => decide (t = idle) || flagged t
        onRunQueue := fun _ => false
        waitKind := fun _ => .none
        waitKey := fun _ => 0
        wakeDeadline := fun _ => 0
        quantumLeft := fun _ => quantumTicks
        added := ∅ }
    prepared := fun _ => false
    inCall := fun _ => false }

/-- Set a mark of the thread that runs. -/
def mark (marks : Tid → Bool) (value : Bool) : Tid → Bool :=
  match r.sched.current with
  | none => marks
  | some thread => update marks thread value

/-- The run after a section of the thread that runs, which goes on to reschedule or not. -/
def afterSection (section' : Bool × Scheduler) : SchedRun :=
  { r with sched := section'.2, inCall := r.mark r.inCall section'.1 }

/-- One step. -/
def step : SchedEvent → SchedRun
  | .add thread => { r with sched := (r.sched.nsSchedAdd thread).2 }
  | .tick nowNs => { r with sched := r.sched.tickSection nowNs }
  | .yield => r.afterSection (true, r.sched.yieldSection)
  | .prepareBlock kind key =>
    { r with
      sched := r.sched.nsSchedPrepareBlock kind key
      prepared := r.mark r.prepared true }
  | .commitBlock =>
    { r.afterSection r.sched.commitSection with prepared := r.mark r.prepared false }
  | .sleepUntil deadlineNs => r.afterSection (r.sched.sleepSection deadlineNs)
  | .wake kind key maximum => { r with sched := (r.sched.nsSchedWake kind key maximum).2 }
  | .wakeThread thread => { r with sched := (r.sched.nsSchedWakeThread thread).2 }
  | .terminateCurrent => r.afterSection r.sched.terminateSection
  | .reschedule => { r with sched := r.sched.nsSchedReschedule }
  | .finish => { r with sched := r.sched.nsSchedReschedule, inCall := r.mark r.inCall false }

/-- The thread that runs is not in the middle of anything. -/
def Free : Prop :=
  ∀ thread ∈ r.sched.current, r.prepared thread = false ∧ r.inCall thread = false

/-- A thread commits what it has prepared before it blocks again, sleeps, yields or terminates, and
ends a call before it begins another. -/
def Allows : SchedEvent → Prop
  | .yield | .prepareBlock _ _ | .sleepUntil _ | .terminateCurrent => r.Free
  | .commitBlock => ∀ thread ∈ r.sched.current, r.inCall thread = false
  | _ => True

/-- Every step of a run is one that its thread may take. -/
def Obeys : SchedRun → List SchedEvent → Prop
  | _, [] => True
  | r, event :: events => r.Allows event ∧ Obeys (r.step event) events

instance (r : SchedRun) : Decidable r.Free :=
  inferInstanceAs (Decidable (∀ thread ∈ r.sched.current, _))

instance (r : SchedRun) : (event : SchedEvent) → Decidable (r.Allows event)
  | .yield | .prepareBlock _ _ | .sleepUntil _ | .terminateCurrent =>
    inferInstanceAs (Decidable r.Free)
  | .commitBlock => inferInstanceAs (Decidable (∀ thread ∈ r.sched.current, _))
  | .add _ | .tick _ | .wake _ _ _ | .wakeThread _ | .reschedule | .finish => .isTrue trivial

instance decidableObeys : (r : SchedRun) → (events : List SchedEvent) → Decidable (r.Obeys events)
  | _, [] => .isTrue trivial
  | r, event :: events =>
    have := decidableObeys (r.step event) events
    inferInstanceAs (Decidable (_ ∧ _))

end SchedRun

/-- The steps of a run in which threads are removed and preemption is disabled as well. -/
inductive SchedOp
  | event (event : SchedEvent)
  | remove (thread : Tid)
  | preemptDisable
  | preemptEnable

namespace SchedRun

/-- One step. A reschedule that `ns_sched_preempt_enable` goes on to is a step of its own. -/
def stepOp : SchedOp → SchedRun
  | .event event => r.step event
  | .remove thread => { r with sched := r.sched.nsSchedRemove thread }
  | .preemptDisable => { r with sched := r.sched.nsSchedPreemptDisable }
  | .preemptEnable => { r with sched := r.sched.preemptEnableSection.2 }

/-- A thread does not give up the processor while preemption is disabled, and one that runs on after
it was removed is not added again before it is switched away from. -/
def AllowsOp : SchedOp → Prop
  | .event (.add thread) =>
    r.sched.current = some thread → r.sched.state thread = .ready →
      r.prepared thread = true ∨ r.inCall thread = true
  | .event .commitBlock => r.Allows .commitBlock ∧ r.sched.preemptDisableDepth = 0
  | .event (.sleepUntil deadlineNs) =>
    r.Allows (.sleepUntil deadlineNs) ∧ r.sched.preemptDisableDepth = 0
  | .event .finish =>
    r.sched.preemptDisableDepth = 0 ∨ ∀ thread ∈ r.sched.current, r.sched.state thread = .running
  | .event event => r.Allows event
  | .remove _ | .preemptDisable | .preemptEnable => True

instance (r : SchedRun) : (op : SchedOp) → Decidable (r.AllowsOp op)
  | .event (.add _) => inferInstanceAs (Decidable (_ → _ → _))
  | .event .commitBlock => inferInstanceAs (Decidable (_ ∧ _))
  | .event (.sleepUntil _) => inferInstanceAs (Decidable (_ ∧ _))
  | .event .finish => inferInstanceAs (Decidable (_ ∨ ∀ thread ∈ r.sched.current, _))
  | .event .yield | .event (.prepareBlock _ _) | .event .terminateCurrent =>
    inferInstanceAs (Decidable r.Free)
  | .event (.tick _) | .event (.wake _ _ _) | .event (.wakeThread _) | .event .reschedule =>
    .isTrue trivial
  | .remove _ | .preemptDisable | .preemptEnable => .isTrue trivial

/-! ### Calls are runs of their sections -/

section

variable (r : SchedRun)

/-- `ns_sched_tick` as a run of sections. -/
lemma nsSchedTick_run (nowNs : ℕ) : ∃ events ∈
    [[SchedEvent.tick nowNs], [SchedEvent.tick nowNs, .reschedule]],
    (events.foldl step r).sched = r.sched.nsSchedTick nowNs := by
  rw [Scheduler.nsSchedTick]
  split_ifs
  · exact ⟨[.tick nowNs, .reschedule], by simp, rfl⟩
  · exact ⟨[.tick nowNs], by simp, rfl⟩

/-- `ns_sched_yield` as a run of sections. -/
lemma nsSchedYield_run : ∃ events ∈ [[SchedEvent.yield], [SchedEvent.yield, .finish]],
    (events.foldl step r).sched = r.sched.nsSchedYield := by
  rw [Scheduler.nsSchedYield]
  split_ifs
  · exact ⟨[.yield, .finish], by simp, rfl⟩
  · exact ⟨[.yield], by simp, rfl⟩

/-- `ns_sched_commit_block` as a run of sections. -/
lemma nsSchedCommitBlock_run : ∃ events ∈
    [[SchedEvent.commitBlock], [SchedEvent.commitBlock, .finish]],
    (events.foldl step r).sched = r.sched.nsSchedCommitBlock := by
  rw [Scheduler.nsSchedCommitBlock]
  split_ifs
  · exact ⟨[.commitBlock, .finish], by simp, rfl⟩
  · exact ⟨[.commitBlock], by simp, rfl⟩

/-- `ns_sched_block` as a run of sections. -/
lemma nsSchedBlock_run (kind : WaitKind) (key : ℕ) : ∃ events ∈
    [[SchedEvent.commitBlock], [SchedEvent.commitBlock, .finish]],
    ((SchedEvent.prepareBlock kind key :: events).foldl step r).sched =
      r.sched.nsSchedBlock kind key :=
  nsSchedCommitBlock_run (r.step (.prepareBlock kind key))

/-- `ns_sched_sleep_until` as a run of sections. -/
lemma nsSchedSleepUntil_run (deadlineNs : ℕ) : ∃ events ∈
    [[SchedEvent.sleepUntil deadlineNs], [SchedEvent.sleepUntil deadlineNs, .finish]],
    (events.foldl step r).sched = r.sched.nsSchedSleepUntil deadlineNs := by
  rw [Scheduler.nsSchedSleepUntil]
  split_ifs
  · exact ⟨[.sleepUntil deadlineNs, .finish], by simp, rfl⟩
  · exact ⟨[.sleepUntil deadlineNs], by simp, rfl⟩

/-- `ns_sched_terminate_current` as a run of sections. -/
lemma nsSchedTerminateCurrent_run : ∃ events ∈
    [[SchedEvent.terminateCurrent], [SchedEvent.terminateCurrent, .finish]],
    (events.foldl step r).sched = r.sched.nsSchedTerminateCurrent := by
  rw [Scheduler.nsSchedTerminateCurrent]
  split_ifs
  · exact ⟨[.terminateCurrent, .finish], by simp, rfl⟩
  · exact ⟨[.terminateCurrent], by simp, rfl⟩

/-- `ns_sched_preempt_enable` as a run of sections. -/
lemma nsSchedPreemptEnable_run : ∃ ops ∈
    [[SchedOp.preemptEnable], [SchedOp.preemptEnable, .event .reschedule]],
    (ops.foldl stepOp r).sched = r.sched.nsSchedPreemptEnable := by
  rw [Scheduler.nsSchedPreemptEnable]
  split_ifs
  · exact ⟨[.preemptEnable, .event .reschedule], by simp, rfl⟩
  · exact ⟨[.preemptEnable], by simp, rfl⟩

end

end SchedRun

end Northstar
