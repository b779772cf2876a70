import Northstar.Lib.Ring

/-! # Pipes

A model of `pipe.c`. The fields of a pipe are only touched under its lock, so a call of `pipe_read`
or `pipe_write` is a sequence of lock-protected sections: a section looks at the pipe, moves bytes
or not, and either ends the call or leads to another section. A call that blocks is woken some time
later and runs its section again, and a call may be made to wait arbitrarily long between two
sections.

`PipeRun` is a pipe with any number of calls in progress, each of which an event may advance by one
section. It records which bytes every section has moved. -/

namespace Northstar

/-- `NS_PIPE_DEFAULT_CAPACITY`. -/
abbrev nsPipeDefaultCapacity : ℕ := 4096

/-- `NS_PIPE_ATOMIC_MAX`. -/
abbrev nsPipeAtomicMax : ℕ := 512

abbrev nsEbadf : ℤ := 9
abbrev nsEagain : ℤ := 11
abbrev nsEnomem : ℤ := 12
abbrev nsEinval : ℤ := 22
abbrev nsEpipe : ℤ := 32

/-- No object has this many bytes, since differences of pointers are signed. -/
abbrev objectMax : ℕ := 2 ^ 63

/-- `struct ns_pipe`; of its runtime only whether calls can block matters here. -/
structure Pipe where
  buffer : ℕ → UInt8
  capacity : ℕ
  head : ℕ
  used : ℕ
  readers : ℕ
  writers : ℕ
  canBlock : Bool

/-- `ns_pipe_create`, as far as the pipe itself is concerned; `contents` is what the allocated
buffer happens to hold, if it could be allocated. -/
def nsPipeCreate (runtimeCapacity : ℕ) (canBlock : Bool) (contents : Option (ℕ → UInt8)) :
    Except ℤ Pipe :=
  let capacity := if runtimeCapacity ≠ 0 then runtimeCapacity else nsPipeDefaultCapacity
  if capacity < nsPipeAtomicMax then .error (-nsEinval)
  else match contents with
    | none => .error (-nsEnomem)
    | some buffer =>
      if objectMax ≤ capacity then .error (-nsEnomem)
      else .ok
        { buffer := buffer, capacity := capacity, head := 0, used := 0, readers := 1, writers := 1,
          canBlock := canBlock }

/-- The cast of a count to the signed result. -/
def toInt64 (n : ℕ) : ℤ := if n < 2 ^ 63 then n else n - 2 ^ 64

/-! ### Sections -/

/-- Where a call is: before its next section, or done. -/
inductive PipeCall
  | read (count : ℕ)
  | write (data : List UInt8) (written : ℕ)
  | writeFull (data : List UInt8) (written : ℕ)
  | returned (result : ℤ)
  deriving DecidableEq, Repr

variable (pipe : Pipe)

/-- The loop of `pipe_read` that copies bytes out. -/
def Pipe.copyOut (copied : ℕ) : List UInt8 :=
  (List.range copied).map fun index => pipe.buffer ((pipe.head + index) % 2 ^ 64 % pipe.capacity)

/-- The loop of `pipe_write` that copies bytes in, from the given index on. -/
def Pipe.copyIn (pipe : Pipe) : List UInt8 → ℕ → (ℕ → UInt8) → ℕ → UInt8
  | [], _, buffer => buffer
  | x :: xs, index, buffer =>
    let tail := (pipe.head + pipe.used + index) % 2 ^ 64 % pipe.capacity
    pipe.copyIn xs (index + 1) (Function.update buffer tail x)

/-- The section of `pipe_read`: the pipe after it, the bytes copied out, and where the call is. -/
def readSection (count : ℕ) : Pipe × List UInt8 × PipeCall :=
  if pipe.used ≠ 0 then
    let copied := if count < pipe.used then count else pipe.used
    ({ pipe with
        head := (pipe.head + copied) % 2 ^ 64 % pipe.capacity
        used := pipe.used - copied },
     pipe.copyOut copied, .returned (toInt64 copied))
  else if pipe.writers = 0 then (pipe, [], .returned 0)
  else if pipe.canBlock = false then (pipe, [], .returned (-nsEagain))
  else (pipe, [], .read count)

/-- The section of `pipe_write`: the pipe after it, the bytes copied in, and where the call is. -/
def writeSection (data : List UInt8) (written : ℕ) : Pipe × List UInt8 × PipeCall :=
  let available := pipe.capacity - pipe.used
  if pipe.readers = 0 then
    (pipe, [], .returned (if written ≠ 0 then toInt64 written else -nsEpipe))
  else if data.length ≤ nsPipeAtomicMax ∧ available < data.length then
    if pipe.canBlock = false then (pipe, [], .returned (-nsEagain))
    else (pipe, [], .write data written)
  else if available = 0 then
    if written ≠ 0 then (pipe, [], .returned (toInt64 written))
    else if pipe.canBlock = false then (pipe, [], .returned (-nsEagain))
    else (pipe, [], .writeFull data written)
  else
    let chunk := if data.length - written > available then available else data.length - written
    let bytes := (data.drop written).take chunk
    let pipe' := { pipe with buffer := pipe.copyIn bytes 0 pipe.buffer, used := pipe.used + chunk }
    (pipe', bytes,
      if written + chunk < data.length then .write data (written + chunk)
      else .returned (toInt64 (written + chunk)))

/-- The second look of `pipe_write` at a full pipe: the call tries again at once if there is room
now, and once it is woken otherwise. -/
def writeFullSection (data : List UInt8) (written : ℕ) : PipeCall := .write data written

/-- The section of `pipe_close`, for the endpoint that is writable or not. -/
def closeSection (writable : Bool) : Pipe :=
  if writable then { pipe with writers := pipe.writers - 1 }
  else { pipe with readers := pipe.readers - 1 }

/-! ### Runs -/

/-- A call of `pipe_read` or `pipe_write`, with the endpoint it is made on and its buffer, which may
be `NULL`. -/
inductive PipeRequest
  | read (writable : Bool) (count : Option ℕ)
  | write (writable : Bool) (data : Option (List UInt8))
  deriving DecidableEq, Repr

/-- The buffer of a call is an object. -/
def PipeRequest.Fits : PipeRequest → Prop
  | .read _ count => count.getD 0 < objectMax
  | .write _ data => (data.getD []).length < objectMax

instance (request : PipeRequest) : Decidable request.Fits := by
  cases request <;> exact Nat.decLt _ _

/-- What `pipe_read` and `pipe_write` do before they take the lock. -/
def PipeRequest.start : PipeRequest → PipeCall
  | .read writable count =>
    match count with
    | none => .returned (-nsEbadf)
    | some count =>
      if writable then .returned (-nsEbadf)
      else if count = 0 then .returned 0
      else .read count
  | .write writable data =>
    match data with
    | none => .returned (-nsEbadf)
    | some data =>
      if writable = false then .returned (-nsEbadf)
      else if data.length = 0 then .returned 0
      else .write data 0

/-- A call in progress. -/
structure PipeThread where
  request : PipeRequest
  state : PipeCall

/-- A pipe with the calls made on it, and the bytes moved by their sections in the order of the
sections, each with the call that moved them. -/
structure PipeRun where
  pipe : Pipe
  freed : Bool
  calls : ℕ → Option PipeThread
  stored : List (ℕ × List UInt8)
  fetched : List (ℕ × List UInt8)

/-- A call is made, a call is advanced by a section, or an endpoint is closed. -/
inductive PipeEvent
  | call (id : ℕ) (request : PipeRequest)
  | advance (id : ℕ)
  | close (writable : Bool)

/-- Record the bytes that a section has moved, if it has moved any. -/
def record (id : ℕ) (bytes : List UInt8) (log : List (ℕ × List UInt8)) : List (ℕ × List UInt8) :=
  if bytes = [] then log else log ++ [(id, bytes)]

/-- The chunks that a log has of the call `id`. -/
def chunksOf (id : ℕ) (log : List (ℕ × List UInt8)) : List (List UInt8) :=
  (log.filter fun entry => entry.1 = id).map Prod.snd

namespace PipeRun

/-- A new pipe. -/
def start : PipeRun :=
  { pipe := pipe, freed := false, calls := fun _ => none, stored := [], fetched := [] }

/-- The run with the call `id` at `state`. -/
def setState (r : PipeRun) (id : ℕ) (thread : PipeThread) (state : PipeCall) : PipeRun :=
  { r with calls := Function.update r.calls id (some { thread with state := state }) }

/-- One section of a call. -/
def advance (r : PipeRun) (id : ℕ) (thread : PipeThread) : PipeRun :=
  match thread.state with
  | .read count =>
    let (pipe, bytes, state) := readSection r.pipe count
    { r.setState id thread state with pipe := pipe, fetched := record id bytes r.fetched }
  | .write data written =>
    let (pipe, bytes, state) := writeSection r.pipe data written
    { r.setState id thread state with pipe := pipe, stored := record id bytes r.stored }
  | .writeFull data written => r.setState id thread (writeFullSection data written)
  | .returned _ => r

/-- One event. Once both endpoints are closed the pipe is gone. -/
def step (r : PipeRun) : PipeEvent → PipeRun
  | .call id request =>
    match r.calls id with
    | some _ => r
    | none => if request.Fits then r.setState id ⟨request, request.start⟩ request.start else r
  | .advance id =>
    match r.calls id with
    | none => r
    | some thread => if r.freed then r else r.advance id thread
  | .close writable =>
    if r.freed then r
    else
      let pipe := closeSection r.pipe writable
      { r with pipe := pipe, freed := decide (pipe.readers = 0 ∧ pipe.writers = 0) }

/-- The chunks stored by the call `id`. -/
def storedBy (r : PipeRun) (id : ℕ) : List (List UInt8) :=
  chunksOf id r.stored

/-- The chunks fetched by the call `id`. -/
def fetchedBy (r : PipeRun) (id : ℕ) : List (List UInt8) :=
  chunksOf id r.fetched

end PipeRun

end Northstar
