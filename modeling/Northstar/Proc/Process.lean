import Northstar.Proc.Pipe
import Northstar.Proc.Scheduler

/-! # Processes

A model of `process.c` without the resources that a process holds: its address space, its files, its
name and the context of its thread. Processes and threads are identified by a number, their fields
are columns. A process has one thread, since nothing ever adds another to its list.

Callbacks fail or succeed as an outcome given from outside says. Memory that has been freed may be
allocated again. -/

namespace Northstar

open Function

/-- `enum ns_process_state`. -/
inductive ProcessState
  | embryo | alive | exiting | zombie | reaped
  deriving DecidableEq, Repr

/-- `NS_PROC_WAIT_ANY`. -/
abbrev nsProcWaitAny : UInt32 := 0xffffffff

/-- `NS_WNOHANG`. -/
abbrev nsWnohang : UInt32 := 1

abbrev nsEchild : ℤ := 10
abbrev nsEbusy : ℤ := 16
abbrev nsE2big : ℤ := 7

/-- `NS_ARG_MAX`. -/
abbrev nsArgMax : ℕ := 64

/-- `struct ns_process_manager` and the fields of its processes and threads. -/
structure ProcManager where
  allProcesses : LinkedList ℕ
  allThreads : LinkedList ℕ
  initProcess : Option ℕ
  nextPid : UInt32
  nextTid : UInt32
  pid : ℕ → UInt32
  parentPid : ℕ → UInt32
  processState : ℕ → ProcessState
  exitStatus : ℕ → ℤ
  liveThreads : ℕ → ℕ
  childCount : ℕ → ℕ
  threads : ℕ → Option ℕ
  parent : ℕ → Option ℕ
  children : ℕ → Option ℕ
  siblingNext : ℕ → Option ℕ
  tid : ℕ → UInt32
  threadState : ℕ → ThreadState
  kernelFlag : ℕ → Bool
  waitKind : ℕ → WaitKind
  waitKey : ℕ → ℕ
  waitPid : ℕ → UInt32
  process : ℕ → Option ℕ
  /-- The processes that have been published and not released, and their threads. The lists hold no
  others, so the loops over them take no more rounds than there are members here. -/
  unreaped : Finset ℕ
  unreapedThreads : Finset ℕ

variable (m : ProcManager)

namespace ProcManager

/-- `ns_proc_manager_init`. -/
def init : ProcManager :=
  { allProcesses := { head := none, next := fun _ => none }
    allThreads := { head := none, next := fun _ => none }
    initProcess := none
    nextPid := 1
    nextTid := 1
    pid := fun _ => 0
    parentPid := fun _ => 0
    processState := fun _ => .embryo
    exitStatus := fun _ => 0
    liveThreads := fun _ => 0
    childCount := fun _ => 0
    threads := fun _ => none
    parent := fun _ => none
    children := fun _ => none
    siblingNext := fun _ => none
    tid := fun _ => 0
    threadState := fun _ => .embryo
    kernelFlag := fun _ => false
    waitKind := fun _ => .none
    waitKey := fun _ => 0
    waitPid := fun _ => 0
    process := fun _ => none
    unreaped := ∅
    unreapedThreads := ∅ }

/-- The list of the children of a process. -/
def childList (p : ℕ) : LinkedList ℕ :=
  { head := m.children p, next := m.siblingNext }

/-- Replace the list of the children of a process. -/
def setChildList (p : ℕ) (list : LinkedList ℕ) : ProcManager :=
  { m with children := update m.children p list.head, siblingNext := list.next }

/-! ### Identifiers -/

/-- The loop of `ns_proc_find`. -/
def findLoop (m : ProcManager) (pid : UInt32) : ℕ → Option ℕ → Option ℕ
  | 0, _ => none
  | _ + 1, none => none
  | rounds + 1, some process =>
    if m.pid process = pid ∧ m.processState process ≠ .reaped then some process
    else m.findLoop pid rounds (m.allProcesses.next process)

/-- `ns_proc_find`. -/
def nsProcFind (pid : UInt32) : Option ℕ :=
  if pid = 0 then none else m.findLoop pid m.unreaped.card m.allProcesses.head

/-- The loop of `ns_proc_find_thread`. -/
def findThreadLoop (m : ProcManager) (tid : UInt32) : ℕ → Option ℕ → Option ℕ
  | 0, _ => none
  | _ + 1, none => none
  | rounds + 1, some thread =>
    if m.tid thread = tid ∧ m.threadState thread ≠ .zombie then some thread
    else m.findThreadLoop tid rounds (m.allThreads.next thread)

/-- `ns_proc_find_thread`. -/
def nsProcFindThread (tid : UInt32) : Option ℕ :=
  if tid = 0 then none else m.findThreadLoop tid m.unreapedThreads.card m.allThreads.head

/-- The loop of `allocate_pid` and `allocate_tid`: the first number from `next` on that is neither
of the two reserved ones nor taken, and the number after it. -/
def allocateLoop (taken : UInt32 → Bool) : ℕ → UInt32 → UInt32 × UInt32
  | 0, next => (0, next)
  | attempts + 1, next =>
    if next = 0 ∨ next = 0xffffffff then allocateLoop taken attempts (next + 1)
    else if taken next = false then (next, next + 1)
    else allocateLoop taken attempts (next + 1)

/-- The bound on the attempts of `allocate_pid` and `allocate_tid`. -/
def allocateAttempts : ℕ := 2 ^ 32 - 2

/-- `allocate_pid`. -/
def allocatePid : UInt32 × ProcManager :=
  let allocated :=
    allocateLoop (fun pid => (m.nsProcFind pid).isSome) allocateAttempts m.nextPid
  (allocated.1, { m with nextPid := allocated.2 })

/-- `allocate_tid`. -/
def allocateTid : UInt32 × ProcManager :=
  let allocated :=
    allocateLoop (fun tid => (m.nsProcFindThread tid).isSome) allocateAttempts m.nextTid
  (allocated.1, { m with nextTid := allocated.2 })

/-! ### Creation -/

/-- How the callbacks of a creation turn out: memory is short, a later callback fails, or all goes
well. -/
inductive Outcome
  | noMemory
  | failed (error : ℤ)
  | built
  deriving DecidableEq, Repr

/-- The fields of a new process and its thread, in memory that has been zeroed. -/
def initializeProcess (process thread : ℕ) (pid tid : UInt32) : ProcManager :=
  { m with
    pid := update m.pid process pid
    parentPid := update m.parentPid process 0
    processState := update m.processState process .embryo
    exitStatus := update m.exitStatus process 0
    liveThreads := update m.liveThreads process 1
    childCount := update m.childCount process 0
    threads := update m.threads process (some thread)
    parent := update m.parent process none
    children := update m.children process none
    siblingNext := update m.siblingNext process none
    tid := update m.tid thread tid
    threadState := update m.threadState thread .embryo
    kernelFlag := update m.kernelFlag thread false
    waitKind := update m.waitKind thread .none
    waitKey := update m.waitKey thread 0
    waitPid := update m.waitPid thread 0
    process := update m.process thread (some process) }

/-- `allocate_process_thread`, once there is memory: the result and the new state. -/
def allocateProcessThread (process thread : ℕ) (assignPid : Bool) : ℤ × ProcManager :=
  let allocated := if assignPid then m.allocatePid else (0, m)
  let allocatedTid := allocated.2.allocateTid
  if (assignPid = true ∧ allocated.1 = 0) ∨ allocatedTid.1 = 0 then (-nsEagain, allocatedTid.2)
  else (0, allocatedTid.2.initializeProcess process thread allocated.1 allocatedTid.1)

/-- The new child is put before its siblings. -/
def adopt (parent child : ℕ) : ProcManager :=
  let m :=
    { m with
      parent := update m.parent child (some parent)
      parentPid := update m.parentPid child (m.pid parent) }
  let m := m.setChildList parent ((m.childList parent).link none child)
  { m with
    childCount := update m.childCount parent ((m.childCount parent + 1) % 2 ^ 32) }

/-- `publish_process`. -/
def publishProcess (process thread : ℕ) (parent : Option ℕ) : ProcManager :=
  let m :=
    { m with
      processState := update m.processState process .alive
      threadState := update m.threadState thread .ready
      allProcesses := m.allProcesses.link none process
      allThreads := m.allThreads.link none thread
      initProcess :=
        if m.initProcess = none ∧ m.kernelFlag thread = false then some process else m.initProcess
      unreaped := insert process m.unreaped
      unreapedThreads := insert thread m.unreapedThreads }
  match parent with
  | none => m
  | some parent => m.adopt parent process

/-- `ns_proc_create_kernel`. -/
def nsProcCreateKernel (process thread : ℕ) (outcome : Outcome) : ℤ × ProcManager :=
  match outcome with
  | .noMemory => (-nsEnomem, m)
  | .failed error =>
    let allocated := m.allocateProcessThread process thread false
    (if allocated.1 ≠ 0 then allocated.1 else error, allocated.2)
  | .built =>
    let allocated := m.allocateProcessThread process thread false
    if allocated.1 ≠ 0 then allocated
    else
      let m := allocated.2
      (0, { m with kernelFlag := update m.kernelFlag thread true }.publishProcess process
        thread none)

/-- `ns_proc_spawn`. A later callback that fails may be the one for the actions of the request, or
that one may be missing. -/
def nsProcSpawn (parent : Option ℕ) (process thread actionCount : ℕ)
    (outcome : Outcome) : ℤ × ProcManager :=
  if actionCount > nsArgMax then (-nsE2big, m)
  else match outcome with
  | .noMemory => (-nsEnomem, m)
  | .failed error =>
    let allocated := m.allocateProcessThread process thread true
    (if allocated.1 ≠ 0 then allocated.1 else error, allocated.2)
  | .built =>
    let allocated := m.allocateProcessThread process thread true
    if allocated.1 ≠ 0 then allocated else (0, allocated.2.publishProcess process thread parent)

/-- `ns_proc_exec`, whose effects are all on what is not modelled. -/
def nsProcExec (caller actionCount : ℕ) (outcome : Outcome) : ℤ :=
  match m.process caller with
  | none => -nsEinval
  | some process =>
    if actionCount ≠ 0 then -nsEinval
    else if m.liveThreads process ≠ 1 ∨ m.processState process ≠ .alive then -nsEbusy
    else match outcome with
      | .noMemory => -nsEnomem
      | .failed error => error
      | .built => 0

/-! ### Exit -/

/-- One child of an exiting process is given to the init process. -/
def reparentChild (process child : ℕ) : ProcManager :=
  match m.initProcess with
  | none =>
    { m with
      parent := update m.parent child none
      parentPid := update m.parentPid child 0
      siblingNext := update m.siblingNext child none }
  | some initProcess =>
    if initProcess ≠ process then m.adopt initProcess child
    else
      { m with
        parent := update m.parent child (some initProcess)
        parentPid := update m.parentPid child (m.pid initProcess)
        siblingNext := update m.siblingNext child none }

/-- The loop of `ns_proc_exit` over the children. -/
def reparentLoop (process : ℕ) : ℕ → Option ℕ → ProcManager → ProcManager
  | 0, _, m => m
  | _ + 1, none, m => m
  | rounds + 1, some child, m =>
    reparentLoop process rounds (m.siblingNext child) (m.reparentChild process child)

/-- The loop of `ns_proc_exit` over the threads, for one that waits for the process. -/
def waiterLoop (m : ProcManager) (process : ℕ) : ℕ → Option ℕ → Option ℕ
  | 0, _ => none
  | _ + 1, none => none
  | rounds + 1, some waiter =>
    if m.process waiter = m.parent process ∧ m.threadState waiter = .blocked ∧
        m.waitKind waiter = .child ∧
        (m.waitPid waiter = nsProcWaitAny ∨ m.waitPid waiter = m.pid process) then some waiter
    else m.waiterLoop process rounds (m.allThreads.next waiter)

/-- The process becomes a zombie and gives its children away. -/
def endProcess (process : ℕ) (status : ℤ) : ProcManager :=
  let child := m.children process
  let m :=
    { m with
      processState := update m.processState process .zombie
      exitStatus := update m.exitStatus process status
      children := update m.children process none
      childCount := update m.childCount process 0 }
  reparentLoop process m.unreaped.card child m

/-- The thread becomes a zombie. -/
def endThread (caller process : ℕ) : ProcManager :=
  if m.threadState caller = .zombie then m
  else
    { m with
      threadState := update m.threadState caller .zombie
      liveThreads := update m.liveThreads process (m.liveThreads process - 1) }

/-- `ns_proc_exit`: the state after it, and the thread that it makes ready. -/
def nsProcExit (caller process : ℕ) (status : ℤ) : ProcManager × Option ℕ :=
  let m := m.endThread caller process
  if m.liveThreads process ≠ 0 then (m, none)
  else
    let m := m.endProcess process status
    (m, m.waiterLoop process m.unreapedThreads.card m.allThreads.head)

/-! ### Reaping -/

/-- `release_thread`. -/
def releaseThread (thread : ℕ) : ProcManager :=
  { m with
    allThreads := m.allThreads.remove m.unreapedThreads.card thread
    unreapedThreads := m.unreapedThreads.erase thread }

/-- `release_process`. -/
def releaseProcess (process : ℕ) : ProcManager :=
  let m := match m.threads process with
    | none => m
    | some thread => m.releaseThread thread
  { m with
    initProcess := if m.initProcess = some process then none else m.initProcess
    allProcesses := m.allProcesses.remove m.unreaped.card process
    processState := update m.processState process .reaped
    unreaped := m.unreaped.erase process }

/-- The cursor of `ns_proc_reap` in the list of children. -/
def reapCursor (parent child : ℕ) : Option ℕ :=
  (m.childList parent).seek (fun c => decide (c = child)) m.unreaped.card none

/-- `ns_proc_reap` gets as far as to take the child out of the list. -/
def Reaps (parent child : ℕ) : Prop :=
  m.parent child = some parent ∧ m.processState child = .zombie ∧
    (m.childList parent).read (m.reapCursor parent child) = some child

instance (m : ProcManager) (parent child : ℕ) : Decidable (m.Reaps parent child) :=
  inferInstanceAs (Decidable (_ ∧ _ ∧ _))

/-- `ns_proc_reap`: the result, the status of the child, and the state after it. -/
def nsProcReap (parent child : ℕ) : ℤ × Option ℤ × ProcManager :=
  if m.Reaps parent child then
    let status := m.exitStatus child
    let m := m.setChildList parent
      ((m.childList parent).unlink (m.reapCursor parent child) child)
    let m :=
      { m with
        parent := update m.parent child none
        childCount := update m.childCount parent (m.childCount parent - 1) }
    (0, some status, m.releaseProcess child)
  else (-nsEchild, none, m)

/-- The loop of `ns_proc_wait`: the first child it can reap, and whether any child matches. -/
def waitLoop (m : ProcManager) (pid : UInt32) : ℕ → Option ℕ → Bool → Option ℕ × Bool
  | 0, _, matching => (none, matching)
  | _ + 1, none, matching => (none, matching)
  | rounds + 1, some child, matching =>
    if pid = nsProcWaitAny ∨ m.pid child = pid then
      if m.processState child = .zombie then (some child, true)
      else m.waitLoop pid rounds (m.siblingNext child) true
    else m.waitLoop pid rounds (m.siblingNext child) matching

/-- The child that `ns_proc_wait` reaps, and whether any child matches. -/
def waitSearch (process : ℕ) (pid : UInt32) : Option ℕ × Bool :=
  m.waitLoop pid m.unreaped.card (m.children process) false

/-- The arguments of `ns_proc_wait` are refused. -/
def waitRefuses (pid options : UInt32) : Bool :=
  options &&& ~~~nsWnohang ≠ 0 ∨ pid = 0

/-- `ns_proc_wait`: the result, the status of the child, and the state after it. -/
def nsProcWait (caller process : ℕ) (pid options : UInt32) : ℤ × Option ℤ × ProcManager :=
  if waitRefuses pid options then (-nsEinval, none, m)
  else match m.waitSearch process pid with
    | (some child, _) =>
      let reaped := m.nsProcReap process child
      (if reaped.1 = 0 then (m.pid child).toNat else reaped.1, reaped.2)
    | (none, matching) =>
      if matching = false then (-nsEchild, none, m)
      else if options &&& nsWnohang ≠ 0 then (0, none, m)
      else
        (-nsEagain, none,
          { m with
            waitKind := update m.waitKind caller .child
            waitKey := update m.waitKey caller (m.pid process).toNat
            waitPid := update m.waitPid caller pid })

/-! ### Runs -/

/-- The memory for a new process and its thread is not in use. -/
def Fresh (process thread : ℕ) : Prop :=
  process ∉ m.unreaped ∧ thread ∉ m.unreapedThreads

instance (m : ProcManager) (process thread : ℕ) : Decidable (m.Fresh process thread) :=
  inferInstanceAs (Decidable (_ ∧ _))

/-- A process is live. -/
def Live (process : ℕ) : Prop :=
  process ∈ m.unreaped ∧ m.processState process = .alive

instance (m : ProcManager) (process : ℕ) : Decidable (m.Live process) :=
  inferInstanceAs (Decidable (_ ∧ _))

/-- The thread belongs to a live process. -/
def Calls (caller process : ℕ) : Prop :=
  m.process caller = some process ∧ m.Live process

instance (m : ProcManager) (caller process : ℕ) : Decidable (m.Calls caller process) :=
  inferInstanceAs (Decidable (_ ∧ _))

end ProcManager

/-- The calls, with the memory that they are given and how their callbacks turn out. Between them
the scheduler changes the state of a thread. -/
inductive ProcEvent
  | createKernel (process thread : ℕ) (outcome : ProcManager.Outcome)
  | spawn (parent : Option ℕ) (process thread actionCount : ℕ) (outcome : ProcManager.Outcome)
  | exec (caller actionCount : ℕ) (outcome : ProcManager.Outcome)
  | exit (caller process : ℕ) (status : ℤ)
  | wait (caller process : ℕ) (pid options : UInt32)
  | reap (parent child : ℕ)
  | schedule (thread : ℕ) (state : ThreadState)

/-- One call, if a live process can make it. -/
def ProcManager.step : ProcEvent → ProcManager
  | .createKernel process thread outcome =>
    if m.Fresh process thread then (m.nsProcCreateKernel process thread outcome).2 else m
  | .spawn parent process thread actionCount outcome =>
    if m.Fresh process thread ∧ ∀ p ∈ parent, m.Live p then
      (m.nsProcSpawn parent process thread actionCount outcome).2
    else m
  | .exec _ _ _ => m
  | .exit caller process status =>
    if m.Calls caller process then (m.nsProcExit caller process status).1 else m
  | .wait caller process pid options =>
    if m.Calls caller process then (m.nsProcWait caller process pid options).2.2 else m
  | .reap parent child =>
    if m.Live parent ∧ child ∈ m.unreaped then (m.nsProcReap parent child).2.2 else m
  | .schedule thread state => { m with threadState := update m.threadState thread state }

end Northstar
