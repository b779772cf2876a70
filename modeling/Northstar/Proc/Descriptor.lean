import Northstar.Proc.Pipe
import Northstar.Proc.Scheduler

/-! # Descriptors of pipes

A model of `ns_vfs_read`, `ns_vfs_write`, `ns_vfs_fstat`, `ns_vfs_close` and `ns_vfs_fdtable_clone`
of `vfs.c` on descriptors of pipes, down to the sections of `pipe.c` and the calls of the scheduler
that these make. The threads of several processes are in the middle of such calls at the same time;
the one that runs takes a step from one section to the next.

The lock of a file is held over several sections. The lock of a descriptor table is held over a
section that neither waits nor blocks, which is a single step here. The offset of a file does not
matter to a pipe and is left out, as is what becomes of the bytes that are moved. -/

namespace Northstar

open Function

abbrev nsEfault : ℤ := 14
abbrev nsEio : ℤ := 5

abbrev nsOWronly : UInt32 := 1
abbrev nsORdwr : UInt32 := 2

/-- `struct ns_vfs_file` for an endpoint of a pipe, with the thread that holds its lock. -/
structure VfsFile where
  references : UInt32
  lock : Option Tid
  statusFlags : UInt32
  pipe : ℕ
  writable : Bool

/-- `struct ns_vfs_fdtable`: the files, each with its `close_on_exec`. -/
structure FdTable where
  maximum : ℕ
  entries : ℕ → Option (ℕ × Bool)

namespace FdTable

variable (table : FdTable)

/-- The test of `fd_get`: the file of a descriptor, without the reference that it takes. -/
def fdGet (fd : ℤ) : Option ℕ :=
  if fd < 0 ∨ table.maximum ≤ fd.toNat then none else (table.entries fd.toNat).map Prod.fst

/-- An entry of a table is set. -/
def setEntry (fd : ℕ) (entry : Option (ℕ × Bool)) : FdTable :=
  { table with entries := update table.entries fd entry }

/-- What an entry is in the copy of its table. -/
def keptEntry (closeOnExec : Bool) : Option (ℕ × Bool) → Option (ℕ × Bool)
  | none => none
  | some (file, flag) => if closeOnExec && flag then none else some (file, flag)

/-- The copy that `ns_vfs_fdtable_clone` makes, after the first rounds of its loop. -/
def copied (closeOnExec : Bool) (rounds : ℕ) : FdTable :=
  ⟨table.maximum, fun fd =>
    if fd < rounds then keptEntry closeOnExec (table.entries fd) else none⟩

end FdTable

/-- `flags_allow_read`. -/
def flagsAllowRead (flags : UInt32) : Bool := flags &&& 3 == 0 || flags &&& 3 == nsORdwr

/-- `flags_allow_write`. -/
def flagsAllowWrite (flags : UInt32) : Bool := flags &&& 3 == nsOWronly || flags &&& 3 == nsORdwr

/-- What a call does to a file; a buffer may be `NULL`, and has its size all the same. -/
inductive FileRequest
  | read (isNull : Bool) (count : ℕ)
  | write (isNull : Bool) (data : List UInt8)
  | fstat (isNull : Bool)
  deriving DecidableEq, Repr

namespace FileRequest

/-- The calls refuse a buffer that is `NULL`, those that move bytes only if there are any to move.
-/
def faults : FileRequest → Bool
  | .read isNull count => isNull && count != 0
  | .write isNull data => isNull && data.length != 0
  | .fstat isNull => isNull

/-- The status flags of the file allow the call. -/
def allowed (request : FileRequest) (flags : UInt32) : Bool :=
  match request with
  | .read _ _ => flagsAllowRead flags
  | .write _ _ => flagsAllowWrite flags
  | .fstat _ => true

/-- What the operation of the endpoint does before its first section. The writable endpoint has no
operation to read and the other none to write. -/
def start (request : FileRequest) (writable : Bool) : PipeCall :=
  match request with
  | .read isNull count =>
    if writable then .returned (-nsEinval)
    else (PipeRequest.read writable (if isNull then none else some count)).start
  | .write isNull data =>
    if writable = false then .returned (-nsEinval)
    else (PipeRequest.write writable (if isNull then none else some data)).start
  | .fstat _ => .returned 0

/-- The check of the result of the operation. -/
def checkResult (request : FileRequest) (result : ℤ) : ℤ :=
  match request with
  | .read _ count => if result > 0 ∧ result > count then -nsEio else result
  | .write _ data => if result > 0 ∧ result > data.length then -nsEio else result
  | .fstat _ => result

end FileRequest

/-- Where a thread is in a call. -/
inductive VfsPhase
  /-- In no call. -/
  | outside
  /-- Before `lock_acquire`. -/
  | acquire (file : ℕ) (request : FileRequest)
  /-- With the lock of the file, before the next section of the operation. -/
  | inside (file : ℕ) (request : FileRequest) (call : PipeCall)
  /-- With the lock of the file, before `pipe_wake`. -/
  | wake (file : ℕ) (request : FileRequest) (call : PipeCall) (kind : WaitKind)
  /-- With the lock of the file, before `ns_sched_commit_block`. -/
  | commit (file : ℕ) (request : FileRequest) (call : PipeCall)
  /-- With the lock of the file, before the `ns_sched_reschedule` of `ns_sched_commit_block`. -/
  | switch (file : ℕ) (request : FileRequest) (call : PipeCall)
  /-- Before `ns_vfs_file_release`. -/
  | release (file : ℕ) (result : ℤ)
  /-- The last reference is gone, before `pipe_close`. -/
  | close (file : ℕ) (result : ℤ)
  /-- Before the `pipe_wake` of `pipe_close`. -/
  | closeWake (pipe : ℕ) (kind : WaitKind) (result : ℤ)
  deriving DecidableEq, Repr

/-- The file whose lock the thread holds. -/
def VfsPhase.holds : VfsPhase → Option ℕ
  | .inside file _ _ | .wake file _ _ _ | .commit file _ _ | .switch file _ _ => some file
  | .outside | .acquire _ _ | .release _ _ | .close _ _ | .closeWake _ _ _ => none

/-- The scheduler, the pipes, the files and the descriptor tables, with the table of each thread,
where it is and what its last call has returned. -/
structure Vfs where
  sched : SchedRun
  pipes : ℕ → Pipe
  files : ℕ → VfsFile
  tables : ℕ → FdTable
  usedTables : Finset ℕ
  tableOf : Tid → ℕ
  phase : Tid → VfsPhase
  returned : Tid → ℤ

/-- The calls of the VFS. -/
inductive VfsRequest
  | file (fd : ℤ) (request : FileRequest)
  | close (fd : ℤ)
  | clone (child : Tid) (copy : ℕ) (closeOnExec : Bool)

/-- The running thread makes a call or takes the next step of one, or something happens that the
scheduler is told. -/
inductive VfsEvent
  | call (request : VfsRequest)
  | advance
  | sched (event : SchedEvent)

/-- The event is a call of the running thread, not of an interrupt handler or another thread. -/
def SchedEvent.own : SchedEvent → Bool
  | .yield | .prepareBlock _ _ | .commitBlock | .sleepUntil _ | .terminateCurrent | .finish => true
  | .add _ | .tick _ | .wake _ _ _ | .wakeThread _ | .reschedule => false

/-- The wait for which the section of a call makes its thread block, if it does. -/
def PipeCall.blocks (pipe : Pipe) : PipeCall → Option WaitKind
  | .read _ =>
    if pipe.used = 0 ∧ pipe.writers ≠ 0 ∧ pipe.canBlock = true then some .pipeRead else none
  | .write data _ =>
    if pipe.readers ≠ 0 ∧ data.length ≤ nsPipeAtomicMax ∧ pipe.capacity - pipe.used < data.length ∧
      pipe.canBlock = true then some .pipeWrite else none
  | .writeFull _ _ => if pipe.capacity = pipe.used then some .pipeWrite else none
  | .returned _ => none

/-- The section of a call: the pipe after it, the bytes moved, and where the call is. -/
def PipeCall.section' (pipe : Pipe) : PipeCall → Pipe × List UInt8 × PipeCall
  | .read count => readSection pipe count
  | .write data written => writeSection pipe data written
  | .writeFull data written => (pipe, [], writeFullSection data written)
  | .returned result => (pipe, [], .returned result)

/-- The threads to wake once a call has moved bytes. -/
def PipeCall.wakes : PipeCall → WaitKind
  | .read _ => .pipeWrite
  | _ => .pipeRead

namespace Vfs

variable (v : Vfs) (thread : Tid)

def setPhase (phase : VfsPhase) : Vfs :=
  { v with phase := update v.phase thread phase }

/-- The thread returns from its call. -/
def finish (result : ℤ) : Vfs :=
  { v.setPhase thread .outside with returned := update v.returned thread result }

def setFile (file : ℕ) (value : VfsFile) : Vfs :=
  { v with files := update v.files file value }

def setLock (file : ℕ) (lock : Option Tid) : Vfs :=
  v.setFile file { v.files file with lock := lock }

/-- `ns_vfs_file_retain`. -/
def nsVfsFileRetain (file : ℕ) : Vfs :=
  v.setFile file { v.files file with references := (v.files file).references + 1 }

/-- `ns_vfs_read`, `ns_vfs_write` and `ns_vfs_fstat` up to the lock of the file. A call that fails
is over, but for the reference of a file that does not allow it. -/
def beginFile (fd : ℤ) (request : FileRequest) : Vfs :=
  if request.faults then v.finish thread (-nsEfault)
  else match (v.tables (v.tableOf thread)).fdGet fd with
    | none => v.finish thread (-nsEbadf)
    | some file =>
      (v.nsVfsFileRetain file).setPhase thread
        (if request.allowed (v.files file).statusFlags then .acquire file request
        else .release file (-nsEbadf))

/-- `ns_vfs_close` up to `ns_vfs_file_release`. -/
def beginClose (fd : ℤ) : Vfs :=
  let table := v.tableOf thread
  match (v.tables table).fdGet fd with
  | none => v.finish thread (-nsEbadf)
  | some file =>
    { v with
      tables := update v.tables table ((v.tables table).setEntry fd.toNat none) }.setPhase thread
      (.release file 0)

/-- The loop of `ns_vfs_fdtable_clone` that retains the files it copies. -/
def retainLoop (entries : ℕ → Option (ℕ × Bool)) : ℕ → Vfs → Vfs
  | 0, v => v
  | index + 1, v =>
    match entries index with
    | none => retainLoop entries index v
    | some entry => (retainLoop entries index v).nsVfsFileRetain entry.1

/-- `ns_vfs_fdtable_clone` for a new process, with memory for the copy that is not in use. -/
def nsVfsFdtableClone (thread child : Tid) (copy : ℕ) (closeOnExec : Bool) : Vfs :=
  if copy ∈ v.usedTables then v
  else
    let table := v.tables (v.tableOf thread)
    let copied := table.copied closeOnExec table.maximum
    let v := (retainLoop copied.entries table.maximum v).finish thread 0
    { v with
      tables := update v.tables copy copied
      usedTables := insert copy v.usedTables
      tableOf := update v.tableOf child copy }

/-- The thread that runs makes a call. -/
def begin : VfsRequest → Vfs
  | .file fd request => v.beginFile thread fd request
  | .close fd => v.beginClose thread fd
  | .clone child copy closeOnExec => v.nsVfsFdtableClone thread child copy closeOnExec

/-- One section of the operation of a file. -/
def operate (file : ℕ) (request : FileRequest) (call : PipeCall) : Vfs :=
  let pipe := (v.files file).pipe
  match call with
  | .returned result =>
    (v.setLock file none).setPhase thread (.release file (request.checkResult result))
  | call =>
    let after := call.section' (v.pipes pipe)
    match call.blocks (v.pipes pipe) with
    | some kind =>
      { v with sched := v.sched.step (.prepareBlock kind pipe) }.setPhase thread
        (.commit file request after.2.2)
    | none =>
      { v with pipes := update v.pipes pipe after.1 }.setPhase thread
        (if after.2.1 = [] then .inside file request after.2.2
        else .wake file request after.2.2 call.wakes)

/-- The next step of a call. -/
def advance : Vfs :=
  match v.phase thread with
  | .outside => v
  | .acquire file request =>
    if (v.files file).lock = none then
      (v.setLock file (some thread)).setPhase thread
        (.inside file request (request.start (v.files file).writable))
    else v
  | .inside file request call => v.operate thread file request call
  | .wake file request call kind =>
    { v with sched := v.sched.step (.wake kind (v.files file).pipe (2 ^ 64 - 1)) }.setPhase thread
      (.inside file request call)
  | .commit file request call =>
    let sched := v.sched.step .commitBlock
    { v with sched := sched }.setPhase thread
      (if sched.inCall thread then .switch file request call else .inside file request call)
  | .switch file request call =>
    { v with sched := v.sched.step .finish }.setPhase thread (.inside file request call)
  | .release file result =>
    let references := (v.files file).references - 1
    let v := v.setFile file { v.files file with references := references }
    if references = 0 then v.setPhase thread (.close file result) else v.finish thread result
  | .close file result =>
    let pipe := (v.files file).pipe
    { v with
      pipes := update v.pipes pipe
        (closeSection (v.pipes pipe) (v.files file).writable) }.setPhase thread
      (.closeWake pipe (if (v.files file).writable then .pipeRead else .pipeWrite) result)
  | .closeWake pipe kind result =>
    { v with sched := v.sched.step (.wake kind pipe (2 ^ 64 - 1)) }.finish thread result

/-- The thread that runs is in no call. -/
def Outside : Prop := ∀ thread ∈ v.sched.sched.current, v.phase thread = .outside

instance (v : Vfs) : Decidable v.Outside :=
  inferInstanceAs (Decidable (∀ thread ∈ v.sched.sched.current, _))

/-- One event. A thread makes a call when it is not in the middle of anything, and calls of the
scheduler other than those of a pipe when it is in no call of the VFS. -/
def step : VfsEvent → Vfs
  | .call request =>
    match v.sched.sched.current with
    | none => v
    | some thread =>
      if v.phase thread = .outside ∧ v.sched.Free then v.begin thread request else v
  | .advance =>
    match v.sched.sched.current with
    | none => v
    | some thread => v.advance thread
  | .sched event =>
    if v.sched.Allows event ∧ (event.own = true → v.Outside) then
      { v with sched := v.sched.step event }
    else v

/-- The state before any thread has been added: any pipes, and any tables with files whose locks are
free. -/
def start (idle : Tid) (quantumTicks : ℕ) (published flagged : Tid → Bool) (pipes : ℕ → Pipe)
    (files : ℕ → VfsFile) (tables : ℕ → FdTable) (usedTables : Finset ℕ) (tableOf : Tid → ℕ) :
    Vfs :=
  { sched := SchedRun.start idle quantumTicks published flagged
    pipes := pipes
    files := fun file => { files file with lock := none }
    tables := tables
    usedTables := usedTables
    tableOf := tableOf
    phase := fun _ => .outside
    returned := fun _ => 0 }

end Vfs

end Northstar
