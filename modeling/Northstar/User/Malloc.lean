import Northstar.Lib.Memory
import Northstar.Lib.Tiling
import Northstar.Lib.Trace

/-! # The allocator of the user library

A model of `malloc`, `calloc`, `realloc` and `free` of `libc.c`. The headers of the blocks are in
memory, and a block is found by following their links. Sizes and addresses are those of a 64-bit
machine, and what is computed of them is cut to 64 bits.

The break stays between its first value and its limit. Within these bounds `sbrk` may still be
refused, which is decided from outside for each call in turn (`refusals`). Where it is not, it
returns the break and moves it by the increment, a signed number. -/

namespace Northstar

open Function

abbrev allocMagic : ℕ := 0x4e53544152414c4c
abbrev allocGrowth : ℕ := 64 * 1024

/-- `sizeof(struct allocation)`. -/
abbrev allocHeader : ℕ := 40

abbrev sizeMax : ℕ := 2 ^ 64 - 1
abbrev libcEnomem : ℕ := 12
abbrev libcEinval : ℕ := 22

/-- What is computed in 64 bits. -/
def wrap64 (value : ℕ) : ℕ := value % 2 ^ 64

/-- The variables of the allocator, memory and the break. A call of `sbrk` for which `refusals` has
an error fails with it. `exited` is set by `_exit`. -/
structure Malloc where
  memory : Memory
  head : ℕ
  tail : ℕ
  base : ℕ
  brk : ℕ
  limit : ℕ
  refusals : ℕ → Option ℕ
  requests : ℕ
  errno : ℕ
  exited : Bool

/-! ### The fields of `struct allocation` -/

variable (s : Malloc) (block : ℕ)

namespace Malloc

def magic : ℕ := s.memory.load block 8
def size : ℕ := s.memory.load (block + 8) 8
def previous : ℕ := s.memory.load (block + 16) 8
def next : ℕ := s.memory.load (block + 24) 8
def isFree : ℕ := s.memory.load (block + 32) 4

/-- A field of a header is written. -/
def write (address width value : ℕ) : Malloc :=
  { s with memory := s.memory.store address width value }

def setMagic (block value : ℕ) : Malloc := s.write block 8 value
def setSize (block value : ℕ) : Malloc := s.write (block + 8) 8 value
def setPrevious (block value : ℕ) : Malloc := s.write (block + 16) 8 value
def setNext (block value : ℕ) : Malloc := s.write (block + 24) 8 value
def setFree (block value : ℕ) : Malloc := s.write (block + 32) 4 value

end Malloc

/-- `align_size`. -/
def alignSize (value : ℕ) : ℕ := if value > sizeMax - 15 then 0 else (value + 15) / 16 * 16

namespace Malloc

/-- `split_allocation`. -/
def splitAllocation (block size : ℕ) : Malloc :=
  if s.size block < wrap64 (size + allocHeader + 32) then s
  else
    let tail := wrap64 (block + allocHeader + size)
    let s := s.setMagic tail allocMagic
    let s := s.setSize tail (wrap64 (s.size block + 2 ^ 64 - size + 2 ^ 64 - allocHeader))
    let s := s.setPrevious tail block
    let s := s.setNext tail (s.next block)
    let s := s.setFree tail 1
    let s :=
      if s.next tail ≠ 0 then s.setPrevious (s.next tail) tail
      else { s with tail := tail }
    let s := s.setNext block tail
    s.setSize block size

/-- Where `NS_SYS_SBRK` moves the break, or its error. The increment is a signed number. -/
def newBreak (increment : ℕ) : Except ℕ ℕ :=
  if increment < 2 ^ 63 then
    if increment > 2 ^ 64 - 1 - s.brk ∨ s.brk + increment > s.limit then .error libcEnomem
    else .ok (s.brk + increment)
  else if 2 ^ 64 - increment > s.brk - s.base then .error libcEinval
  else if s.brk - (2 ^ 64 - increment) > s.limit then .error libcEnomem
  else .ok (s.brk - (2 ^ 64 - increment))

/-- `sbrk`. Only a break within its bounds is asked of the address space. -/
def sbrk (increment : ℕ) : Option ℕ × Malloc :=
  match s.newBreak increment with
  | .error e => (none, { s with errno := e })
  | .ok brk =>
    match s.refusals s.requests with
    | some e => (none, { s with requests := s.requests + 1, errno := e })
    | none => (some s.brk, { s with brk := brk, requests := s.requests + 1 })

/-- How much `grow_heap` asks for. -/
def growth (requested : ℕ) : ℕ :=
  let total := wrap64 (requested + allocHeader)
  let growth := if total < allocGrowth then allocGrowth else total
  wrap64 (growth + 4095) / 4096 * 4096

/-- `grow_heap`. -/
def growHeap (requested : ℕ) : Option ℕ × Malloc :=
  match s.sbrk (growth requested) with
  | (none, s) => (none, s)
  | (some block, s) =>
    let s := s.setMagic block allocMagic
    let s := s.setSize block (wrap64 (growth requested + 2 ^ 64 - allocHeader))
    let s := s.setPrevious block s.tail
    let s := s.setNext block 0
    let s := s.setFree block 1
    let s := if s.tail ≠ 0 then s.setNext s.tail block else { s with head := block }
    (some block, { s with tail := block })

/-- The loop of `malloc`: the first free block of the size, or 0. A list has fewer blocks than the
break has addresses below it. -/
def findFit (s : Malloc) (size : ℕ) : ℕ → ℕ → ℕ
  | 0, _ => 0
  | rounds + 1, block =>
    if block = 0 then 0
    else if s.isFree block = 0 ∨ s.size block < size then s.findFit size rounds (s.next block)
    else block

/-- The end of `malloc`. -/
def take (block size : ℕ) : ℕ × Malloc :=
  (wrap64 (block + allocHeader), (s.splitAllocation block size).setFree block 0)

/-- `malloc`, which returns 0 for `NULL`. -/
def malloc (size : ℕ) : ℕ × Malloc :=
  let size := alignSize (if size = 0 then 1 else size)
  if size = 0 then (0, { s with errno := libcEnomem })
  else
    let block := s.findFit size s.brk s.head
    if block ≠ 0 then s.take block size
    else match s.growHeap size with
      | (none, s) => (0, s)
      | (some block, s) => s.take block size

/-- `physically_adjacent`. -/
def physicallyAdjacent (left right : ℕ) : Bool :=
  wrap64 (left + allocHeader + s.size left) == right

/-- `merge_next`. -/
def mergeNext : Malloc :=
  let next := s.next block
  if next = 0 ∨ s.isFree next = 0 ∨ s.physicallyAdjacent block next = false then s
  else
    let s := s.setSize block (wrap64 (s.size block + allocHeader + s.size next))
    let s := s.setNext block (s.next next)
    let s :=
      if s.next block ≠ 0 then s.setPrevious (s.next block) block
      else { s with tail := block }
    s.setMagic next 0

/-- The header of a block that is returned by `malloc`. -/
def headerOf (pointer : ℕ) : ℕ := wrap64 (pointer + 2 ^ 64 - allocHeader)

/-- The block is not one that is in use. -/
def corrupt : Bool := s.magic block != allocMagic || s.isFree block != 0

/-- `free`. -/
def free (pointer : ℕ) : Malloc :=
  if pointer = 0 then s
  else
    let block := headerOf pointer
    if s.corrupt block then { s with exited := true }
    else
      let s := (s.setFree block 1).mergeNext block
      if s.previous block ≠ 0 ∧ s.isFree (s.previous block) ≠ 0 ∧
          s.physicallyAdjacent (s.previous block) block = true then
        s.mergeNext (s.previous block)
      else s

/-- `calloc`. -/
def calloc (count size : ℕ) : ℕ × Malloc :=
  if count ≠ 0 ∧ size > sizeMax / count then (0, { s with errno := libcEnomem })
  else
    let allocated := s.malloc (wrap64 (size * count))
    if allocated.1 = 0 then allocated
    else
      (allocated.1,
        { allocated.2 with
          memory := allocated.2.memory.fill allocated.1 (wrap64 (size * count)) 0 })

/-- The end of `realloc`: the contents move to another block. -/
def move (pointer size : ℕ) : ℕ × Malloc :=
  let replacement := s.malloc size
  if replacement.1 = 0 then replacement
  else
    let s := replacement.2
    let s := { s with memory := s.memory.copy replacement.1 pointer (s.size (headerOf pointer)) }
    (replacement.1, s.free pointer)

/-- The test of `realloc` for a free block after this one that makes it large enough. -/
def absorbs (block size : ℕ) : Bool :=
  s.next block ≠ 0 ∧ s.isFree (s.next block) ≠ 0 ∧
    s.physicallyAdjacent block (s.next block) = true ∧
    wrap64 (s.size block + allocHeader + s.size (s.next block)) ≥ size

/-- `realloc`. -/
def realloc (pointer size : ℕ) : ℕ × Malloc :=
  if pointer = 0 then s.malloc size
  else if size = 0 then (0, s.free pointer)
  else
    let block := headerOf pointer
    if s.corrupt block then (0, { s with errno := libcEinval })
    else
      let size := alignSize size
      if size = 0 then (0, s)
      else if s.size block ≥ size then (pointer, s.splitAllocation block size)
      else if s.absorbs block size then
        (pointer, ((s.mergeNext block).splitAllocation block size).setFree block 0)
      else s.move pointer size

end Malloc

/-! ### Runs -/

/-- The allocator with the blocks that its client has: the size that was asked for under each
pointer. -/
structure MallocRun where
  heap : Malloc
  live : ℕ → Option ℕ

/-- A call of the allocator, or a byte that the client writes. -/
inductive MallocEvent
  | malloc (size : ℕ)
  | calloc (count size : ℕ)
  | realloc (pointer size : ℕ)
  | free (pointer : ℕ)
  | write (pointer offset : ℕ) (byte : UInt8)

namespace MallocRun

variable (r : MallocRun)

/-- The client has got a block, unless the pointer is `NULL`. -/
def gain (result : ℕ × Malloc) (size : ℕ) : MallocRun :=
  if result.1 = 0 then { r with heap := result.2 }
  else { heap := result.2, live := update r.live result.1 (some size) }

/-- The client has given up a block. -/
def drop (pointer : ℕ) : MallocRun :=
  { r with live := update r.live pointer none }

/-- The pointer is one that a call may be made on. -/
def valid (pointer : ℕ) : Bool := pointer == 0 || (r.live pointer).isSome

/-- What a client does while the program runs. A size is one that a `size_t` can hold. A call on a
pointer that is not valid and a write outside the client's blocks are not made. -/
def act : MallocEvent → MallocRun
  | .malloc size => r.gain (r.heap.malloc (wrap64 size)) (wrap64 size)
  | .calloc count size =>
    r.gain (r.heap.calloc (wrap64 count) (wrap64 size)) (wrap64 size * wrap64 count)
  | .realloc pointer size =>
    if r.valid pointer then
      let result := r.heap.realloc pointer (wrap64 size)
      -- a `realloc` that fails leaves the client its block
      if result.1 = 0 ∧ wrap64 size ≠ 0 then { r with heap := result.2 }
      else (r.drop pointer).gain result (wrap64 size)
    else r
  | .free pointer =>
    if r.valid pointer then ({ r with heap := r.heap.free pointer }).drop pointer else r
  | .write pointer offset byte =>
    match r.live pointer with
    | none => r
    | some size =>
      if offset < size then
        { r with heap :=
            { r.heap with memory := update r.heap.memory (pointer + offset) byte } }
      else r

/-- One step of a run. Nothing happens after `_exit`. -/
def step (e : MallocEvent) : MallocRun := if r.heap.exited then r else r.act e

end MallocRun

end Northstar
