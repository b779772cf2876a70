import Northstar.Lib.Action
import Northstar.Lib.Trace
import Northstar.Lib.Window
import Northstar.Nsfs.Ondisk

/-! # Files of the bootstrap filesystem

A model of `ramfs_reserve`, `ramfs_truncate`, `ramfs_read` and `ramfs_write` of `vfs.c`. A file is a
buffer that grows by doubling and of which the first `size` bytes are the contents. A file that was
cut keeps its old bytes behind the new end, so whatever extends it again has to clear them. -/

namespace Northstar

open List

/-- The file types `NS_FT_*`. -/
inductive NsFileType where
  | unknown | regular | directory | char | block | pipe | socket
  deriving DecidableEq, Repr

abbrev nsSizeMax : ℕ := 2 ^ 64 - 1

/-- `struct ramfs_node` as far as the contents of a file are concerned. -/
structure RamfsNode where
  type : NsFileType
  data : List UInt8
  size : ℕ
  deriving DecidableEq, Repr

namespace RamfsNode

/-- The buffer has as many bytes as it has room for. -/
def capacity (node : RamfsNode) : ℕ := node.data.length

/-- The bytes that can be read. -/
def contents (node : RamfsNode) : List UInt8 := node.data.take node.size

end RamfsNode

abbrev RamfsM := EStateM Errno RamfsNode

/-! ### The code -/

/-- The loop of `ramfs_reserve`. -/
def growCapacity (required : ℕ) : ℕ → ℕ → ℕ
  | 0, capacity => capacity
  | rounds + 1, capacity =>
    if capacity < required then
      if nsSizeMax / 2 < capacity then required
      else growCapacity required rounds (capacity * 2)
    else capacity

/-- `ramfs_reserve`. The loop doubles a capacity that is not zero, so it ends within 65 rounds. -/
def ramfsReserve (required : ℕ) (allocates : Bool) : RamfsM Unit := do
  let node ← get
  if required ≤ node.capacity then return
  else
    let capacity := growCapacity required 65 (if node.capacity = 0 then 64 else node.capacity)
    require (allocates = true) .enomem
    set { node with
      data := node.data.take node.size ++ List.replicate (capacity - node.size) 0 }

/-- The bytes from the size to an end are cleared, if there are any. -/
def ramfsClear (bound : ℕ) : RamfsM Unit := modify fun node =>
  if node.size < bound then
    { node with data := overwrite node.data node.size (List.replicate (bound - node.size) 0) }
  else node

/-- `ramfs_truncate`. -/
def ramfsTruncate (length : ℕ) (allocates : Bool) : RamfsM Unit := do
  let node ← get
  require (node.type = .regular) (if node.type = .directory then .eisdir else .einval)
  require (length ≤ nsSizeMax) .eoverflow
  ramfsReserve length allocates
  ramfsClear length
  modify fun node => { node with size := length }

/-- `ramfs_read`: the bytes that are copied to the buffer of the caller. -/
def ramfsRead (offset count : ℕ) : RamfsM (List UInt8) := do
  let node ← get
  require (node.type ≠ .directory) .eisdir
  require (node.type = .regular) .enodev
  if node.size ≤ offset then return []
  else
    let available := node.size - offset
    let amount := if count < available then count else available
    return (node.data.drop offset).take amount

/-- `ramfs_write`. -/
def ramfsWrite (offset : ℕ) (buffer : List UInt8) (allocates : Bool) : RamfsM ℕ := do
  let node ← get
  require (node.type ≠ .directory) .eisdir
  require (node.type = .regular) .enodev
  require (offset ≤ nsSizeMax ∧ buffer.length ≤ nsSizeMax - offset) .eoverflow
  ramfsReserve (offset + buffer.length) allocates
  ramfsClear offset
  modify fun node => { node with
    data := overwrite node.data offset buffer
    size := if node.size < offset + buffer.length then offset + buffer.length else node.size }
  return buffer.length

/-! ### Calls and their meaning -/

/-- A call on an open file, with the answer of the allocator if it is asked. -/
inductive RamfsCall where
  | write (offset : ℕ) (buffer : List UInt8) (allocates : Bool)
  | truncate (length : ℕ) (allocates : Bool)
  | read (offset count : ℕ)
  deriving DecidableEq, Repr

/-- What a call returns if it does not fail. -/
inductive RamfsReply where
  | written (count : ℕ)
  | truncated
  | bytes (buffer : List UInt8)
  deriving DecidableEq, Repr

namespace RamfsCall

/-- The call as the filesystem makes it. -/
def run : RamfsCall → RamfsM RamfsReply
  | write offset buffer allocates => .written <$> ramfsWrite offset buffer allocates
  | truncate length allocates => (fun _ => .truncated) <$> ramfsTruncate length allocates
  | read offset count => .bytes <$> ramfsRead offset count

/-- The call on an array of bytes: what it returns and what the array is after it. -/
def meaning (contents : List UInt8) : RamfsCall → RamfsReply × List UInt8
  | write offset buffer _ =>
    (.written buffer.length,
      if buffer = [] then contents else overwrite (padTo 0 contents offset) offset buffer)
  | truncate length _ => (.truncated, (padTo 0 contents length).take length)
  | read offset count => (.bytes ((contents.drop offset).take count), contents)

/-- The end of the part of the file that the call needs, with the answer of the allocator. -/
def demand : RamfsCall → ℕ × Bool
  | write offset buffer allocates => (offset + buffer.length, allocates)
  | truncate length allocates => (length, allocates)
  | read _ _ => (0, true)

/-- The call fails with the error: its end is not a size, or the buffer has to grow and the
allocator refuses. -/
def Refused (node : RamfsNode) (call : RamfsCall) (e : Errno) : Prop :=
  e = .eoverflow ∧ nsSizeMax < call.demand.1 ∨
    e = .enomem ∧ node.capacity < call.demand.1 ∧ call.demand.2 = false

end RamfsCall

/-- A regular file, which is no larger than its buffer. -/
structure RamfsFile where
  node : RamfsNode
  regular : node.type = .regular
  size_le : node.size ≤ node.capacity

/-- The file does in a call what an array of bytes does, or the call fails and changes nothing. -/
def RamfsFile.Refines (file : RamfsFile) (call : RamfsCall) : Prop :=
  Sat call.run file.node
    (fun reply node' => (reply, node'.contents) = call.meaning file.node.contents)
    fun e node' => node' = file.node ∧ call.Refused file.node e

/-! ### The buffer -/

namespace RamfsNode

variable {node node' : RamfsNode}

/-- The contents are as long as the size says. -/
lemma length_contents (h : node.size ≤ node.capacity) : node.contents.length = node.size := by
  rw [contents, length_take]
  exact min_eq_left h

end RamfsNode

/-- The loop ends with the capacity that is required. Each round doubles the capacity, so that after
`k` rounds it is at least `2 ^ k`. -/
lemma le_growCapacity {required rounds capacity k : ℕ} (hcapacity : 2 ^ k ≤ capacity)
    (hrequired : required < 2 ^ (k + rounds)) :
    required ≤ growCapacity required rounds capacity := by
  induction rounds generalizing k capacity with
  | zero => exact (hrequired.trans_le hcapacity).le
  | succ rounds ih =>
    rw [growCapacity]
    by_cases hless : capacity < required
    · rw [if_pos hless]
      by_cases hlarge : nsSizeMax / 2 < capacity
      · rw [if_pos hlarge]
      · rw [if_neg hlarge]
        refine ih (k := k + 1) ?_ ?_
        · rw [pow_succ]
          omega
        · rwa [Nat.add_right_comm, Nat.add_assoc]
    · rw [if_neg hless]
      omega

/-- What a successful reservation changes is the room behind the contents. -/
structure RamfsNode.Reserved (node : RamfsNode) (required : ℕ) (node' : RamfsNode) : Prop where
  type : node'.type = node.type
  size : node'.size = node.size
  size_le : node'.size ≤ node'.capacity
  required_le : required ≤ node'.capacity
  contents : node'.contents = node.contents

/-- The reservation fails just if the buffer is too small and the allocator refuses. -/
lemma ramfsReserve_sat {node : RamfsNode} {required : ℕ} (allocates : Bool)
    (hsize : node.size ≤ node.capacity) (hrequired : required ≤ nsSizeMax) :
    Sat (ramfsReserve required allocates) node
      (fun _ node' => node.Reserved required node' ∧
        ¬(node.capacity < required ∧ allocates = false))
      fun e node' =>
        node' = node ∧ e = .enomem ∧ node.capacity < required ∧ allocates = false := by
  unfold ramfsReserve
  rw [sat_bind, sat_get, sat_ite]
  refine ⟨fun hle => ⟨⟨rfl, rfl, hsize, hle, rfl⟩, fun h => by omega⟩, fun hgrow => ?_⟩
  have hstart : 2 ^ 0 ≤ (if node.capacity = 0 then 64 else node.capacity) := by
    split_ifs <;> omega
  have hbound : required < 2 ^ (0 + 65) := hrequired.trans_lt (by norm_num)
  have hge := le_growCapacity hstart hbound
  rw [sat_bind, sat_require]
  refine ⟨fun hallocates => ?_, fun hrefused => ⟨rfl, rfl, by omega, by simpa using hrefused⟩⟩
  generalize growCapacity required 65 (if node.capacity = 0 then 64 else node.capacity) = capacity
    at hge
  have htake : (node.data.take node.size).length = node.size := node.length_contents hsize
  have hcapacity : (node.data.take node.size ++ replicate (capacity - node.size) 0).length =
      node.size + (capacity - node.size) := by
    rw [length_append, htake, length_replicate]
  refine ⟨⟨rfl, rfl, ?_, ?_, ?_⟩, fun h => by simp [hallocates] at h⟩
  · rw [RamfsNode.capacity, hcapacity]
    dsimp only
    omega
  · rw [RamfsNode.capacity, hcapacity]
    omega
  · change take node.size _ = node.contents
    rw [take_append_of_le_length htake.ge]
    exact take_of_length_le htake.le

/-- Clearing up to an end that there is room for extends the contents by zeros. -/
lemma ramfsClear_sat {node : RamfsNode} {bound : ℕ} (hsize : node.size ≤ node.capacity)
    (hbound : bound ≤ node.capacity) {Q : PUnit → RamfsNode → Prop} {E : Errno → RamfsNode → Prop}
    (h : ∀ data, data.length = node.capacity →
      data.take (max node.size bound) = padTo 0 node.contents bound →
      Q ⟨⟩ { node with data := data }) :
    Sat (ramfsClear bound) node Q E := by
  have hlength := node.length_contents hsize
  unfold ramfsClear
  rw [sat_modify]
  by_cases hless : node.size < bound
  · have hnew : (replicate (bound - node.size) (0 : UInt8)).length = bound - node.size :=
      length_replicate
    rw [if_pos hless]
    refine h _ (length_overwrite ?_) ?_
    · rw [hnew]
      unfold RamfsNode.capacity at hbound
      omega
    · rw [max_eq_right hless.le]
      exact take_overwrite_replicate hless.le hbound
  · rw [if_neg hless]
    refine h node.data rfl ?_
    rw [padTo_of_le (by omega), max_eq_left (by omega)]
    rfl

/-! ### The calls -/

section Calls

variable {node : RamfsNode} (hregular : node.type = .regular) (hsize : node.size ≤ node.capacity)

include hregular hsize

/-- `ramfs_truncate` cuts the contents, or fills them up with zeros. -/
lemma ramfsTruncate_sat (length : ℕ) (allocates : Bool) :
    Sat (ramfsTruncate length allocates) node
      (fun _ node' => node'.contents = (padTo 0 node.contents length).take length ∧
        (node'.type = .regular ∧ node'.size ≤ node'.capacity) ∧
        ∀ e, ¬(RamfsCall.truncate length allocates).Refused node e)
      fun e node' => node' = node ∧ (RamfsCall.truncate length allocates).Refused node e := by
  unfold ramfsTruncate
  rw [sat_bind, sat_get]
  refine .require_pos hregular ?_
  rw [sat_bind, sat_require]
  refine ⟨fun hlength => ?_, fun hlength => ⟨rfl, .inl ⟨rfl, Nat.lt_of_not_le hlength⟩⟩⟩
  rw [sat_bind]
  refine (ramfsReserve_sat allocates hsize hlength).mono ?_ fun e node' h => ⟨h.1, .inr h.2⟩
  rintro - reserved ⟨h, hserved⟩
  rw [sat_bind]
  refine ramfsClear_sat h.size_le h.required_le fun data hdata hcontents => ?_
  refine ⟨?_, ⟨h.type.trans hregular, h.required_le.trans_eq hdata.symm⟩, ?_⟩
  · rw [h.contents] at hcontents
    rw [← hcontents, take_take, min_eq_left (le_max_right _ _)]
    rfl
  · rintro e (⟨-, hlarge⟩ | ⟨-, hrefused⟩)
    · exact absurd hlength (Nat.not_le_of_lt hlarge)
    · exact hserved hrefused

/-- `ramfs_read` returns a piece of the contents. -/
lemma ramfsRead_sat (offset count : ℕ) :
    Sat (ramfsRead offset count) node
      (fun bytes node' => node' = node ∧ bytes = (node.contents.drop offset).take count)
      fun _ _ => False := by
  have hlength := node.length_contents hsize
  unfold ramfsRead
  rw [sat_bind, sat_get]
  refine .require_pos (by rw [hregular]; decide) (.require_pos hregular ?_)
  rw [sat_ite]
  refine ⟨fun hend => ⟨rfl, ?_⟩, fun hin => ⟨rfl, ?_⟩⟩
  · rw [drop_eq_nil_of_le (by omega), take_nil]
  · rw [RamfsNode.contents, drop_take, take_take]
    congr 1
    split_ifs <;> omega

/-- A write, of no bytes too, leaves the contents padded up to the offset with the bytes written
over them. -/
lemma ramfsWrite_sat (offset : ℕ) (buffer : List UInt8) (allocates : Bool) :
    Sat (ramfsWrite offset buffer allocates) node
      (fun count node' => count = buffer.length ∧
        node'.contents = overwrite (padTo 0 node.contents offset) offset buffer ∧
        (node'.type = .regular ∧ node'.size ≤ node'.capacity) ∧
        ∀ e, ¬(RamfsCall.write offset buffer allocates).Refused node e)
      fun e node' => node' = node ∧ (RamfsCall.write offset buffer allocates).Refused node e := by
  unfold ramfsWrite
  rw [sat_bind, sat_get]
  refine .require_pos (by rw [hregular]; decide) (.require_pos hregular ?_)
  rw [sat_bind, sat_require]
  refine ⟨fun hfits => ?_, fun hlarge => ⟨rfl, .inl ⟨rfl, ?_⟩⟩⟩
  rotate_left
  · dsimp only [RamfsCall.demand]
    omega
  rw [sat_bind]
  refine (ramfsReserve_sat allocates hsize (by omega)).mono ?_ fun e node' h => ⟨h.1, .inr h.2⟩
  rintro - reserved ⟨h, hserved⟩
  have hroom := h.required_le
  have hreserved := h.size_le
  rw [sat_bind]
  refine ramfsClear_sat hreserved (by omega) fun data hdata hcontents => ?_
  rw [h.contents] at hcontents
  have hwritten : (overwrite data offset buffer).length = data.length :=
    length_overwrite (by omega)
  have hend : (if reserved.size < offset + buffer.length then offset + buffer.length
      else reserved.size) = max (max reserved.size offset) (offset + buffer.length) := by
    split_ifs <;> omega
  refine ⟨rfl, ?_, ⟨h.type.trans hregular, ?_⟩, ?_⟩
  · rw [RamfsNode.contents]
    dsimp only
    rw [hend, take_overwrite (by omega) (by omega), hcontents]
  · rw [RamfsNode.capacity]
    dsimp only
    omega
  · rintro e (⟨-, hlarge⟩ | ⟨-, hrefused⟩)
    · dsimp only [RamfsCall.demand] at hlarge
      omega
    · exact hserved hrefused

end Calls

/-- What the code makes of a call: a write of no bytes is treated like any other. -/
def RamfsCall.outcome (contents : List UInt8) : RamfsCall → RamfsReply × List UInt8
  | write offset buffer _ =>
    (.written buffer.length, overwrite (padTo 0 contents offset) offset buffer)
  | call => call.meaning contents

namespace RamfsFile

variable (file : RamfsFile) (call : RamfsCall)

/-- A call has its outcome on the contents, or is refused. -/
lemma run_sat :
    Sat call.run file.node
      (fun reply node' => (reply, node'.contents) = call.outcome file.node.contents ∧
        (node'.type = .regular ∧ node'.size ≤ node'.capacity) ∧
        ∀ e, ¬call.Refused file.node e)
      fun e node' => node' = file.node ∧ call.Refused file.node e := by
  cases call with
  | write offset buffer allocates =>
    rw [RamfsCall.run, sat_map]
    refine (ramfsWrite_sat file.regular file.size_le offset buffer allocates).mono ?_
      fun _ _ h => h
    rintro count node' ⟨rfl, hcontents, hnode⟩
    exact ⟨congrArg _ hcontents, hnode⟩
  | truncate length allocates =>
    rw [RamfsCall.run, sat_map]
    refine (ramfsTruncate_sat file.regular file.size_le length allocates).mono ?_ fun _ _ h => h
    rintro - node' ⟨hcontents, hnode⟩
    exact ⟨congrArg _ hcontents, hnode⟩
  | read offset count =>
    rw [RamfsCall.run, sat_map]
    refine (ramfsRead_sat file.regular file.size_le offset count).mono ?_ fun _ _ h => h.elim
    rintro bytes node' ⟨rfl, rfl⟩
    refine ⟨rfl, ⟨file.regular, file.size_le⟩, ?_⟩
    rintro e (⟨-, h⟩ | ⟨-, -, h⟩)
    · exact absurd h (Nat.not_lt_zero _)
    · cases h

/-- A call leaves a regular file that is no larger than its buffer. -/
lemma stateAfter_run :
    (stateAfter call.run file.node).type = .regular ∧
      (stateAfter call.run file.node).size ≤ (stateAfter call.run file.node).capacity := by
  apply Sat.stateAfter (P := fun node' : RamfsNode =>
    node'.type = .regular ∧ node'.size ≤ node'.capacity)
  refine (file.run_sat call).mono (fun _ _ h => h.2.1) ?_
  rintro e node' ⟨rfl, -⟩
  exact ⟨file.regular, file.size_le⟩

/-- The file after a call. -/
def step : RamfsFile where
  node := stateAfter call.run file.node
  regular := (file.stateAfter_run call).1
  size_le := (file.stateAfter_run call).2

/-- The call is not a write of no bytes behind the end of the file, unless that fails. -/
def Tame : RamfsCall → Prop
  | .write offset buffer allocates =>
    buffer = [] → file.node.size < offset →
      ∃ e, (RamfsCall.write offset [] allocates).Refused file.node e
  | _ => True

/-- The code and the array differ at a write of no bytes behind the end only. -/
lemma outcome_eq_meaning_iff (contents : List UInt8) :
    call.outcome contents = call.meaning contents ↔
      ∀ offset allocates, call = .write offset [] allocates → offset ≤ contents.length := by
  cases call with
  | write offset buffer allocates =>
    rw [RamfsCall.outcome, RamfsCall.meaning, Prod.mk.injEq, and_iff_right rfl]
    by_cases hbuffer : buffer = []
    · subst hbuffer
      rw [if_pos rfl, overwrite_nil]
      constructor
      · rintro h offset' allocates' ⟨⟩
        have := congrArg length h
        rw [length_padTo] at this
        omega
      · intro h
        exact padTo_of_le (h offset allocates rfl)
    · rw [if_neg hbuffer]
      refine iff_of_true rfl fun offset' allocates' h => absurd ?_ hbuffer
      cases h
      rfl
  | truncate length allocates => exact iff_of_true rfl fun _ _ h => nomatch h
  | read offset count => exact iff_of_true rfl fun _ _ h => nomatch h

/-- The file refines the array in just the calls that are not such a write. -/
lemma refines_iff_tame : file.Refines call ↔ file.Tame call := by
  have hlength := file.node.length_contents file.size_le
  constructor
  · intro h
    cases call with
    | write offset buffer allocates =>
      rintro rfl hbehind
      -- the two outcomes would be the same contents, but the code has extended them
      apply Sat.stateAfter (P := fun _ => ∃ e,
        (RamfsCall.write offset [] allocates).Refused file.node e)
      refine (h.and (file.run_sat (.write offset [] allocates))).mono ?_
        fun e _ h => ⟨e, h.1.2⟩
      rintro reply node' ⟨hmeaning, houtcome, -⟩
      have hsame := (outcome_eq_meaning_iff (.write offset [] allocates) file.node.contents).mp
        (houtcome.symm.trans hmeaning) offset allocates rfl
      omega
    | truncate length allocates => trivial
    | read offset count => trivial
  · intro htame
    by_cases hbehind : ∃ offset allocates,
        call = .write offset [] allocates ∧ file.node.size < offset
    · obtain ⟨offset, allocates, rfl, hbehind⟩ := hbehind
      obtain ⟨e, he⟩ := htame rfl hbehind
      exact (file.run_sat _).mono (fun _ _ h => absurd he (h.2.2 e)) fun _ _ h => h
    · have hsame : call.outcome file.node.contents = call.meaning file.node.contents := by
        rw [outcome_eq_meaning_iff, hlength]
        intro offset allocates hcall
        by_contra hnot
        exact hbehind ⟨offset, allocates, hcall, by omega⟩
      exact (file.run_sat call).mono (fun _ _ h => h.1.trans hsame) fun _ _ h => h

/-- In every run of calls on a file, all calls are those of an array of bytes just if no write of no
bytes behind the end of the file goes through. -/
theorem ramfs_file_refines_iff (calls : List RamfsCall) :
    AllSteps step Refines file calls ↔ AllSteps step Tame file calls :=
  allSteps_iff_allSteps (fun _ => True) (fun _ _ _ _ => trivial)
    (fun file call _ => file.refines_iff_tame call) trivial calls

/-- A file as `ramfs_create` makes it. -/
def empty : RamfsFile where
  node := { type := .regular, data := [], size := 0 }
  regular := rfl
  size_le := le_rfl

/-- A write of no bytes at the offset 1 of an empty file leaves a file of one byte. -/
theorem ramfs_empty_write_extends :
    empty.node.contents = [] ∧ (empty.step (.write 1 [] true)).node.contents = [0] ∧
      ¬AllSteps step Refines empty [.write 1 [] true] := by
  refine ⟨rfl, rfl, ?_⟩
  rintro ⟨h, -⟩
  obtain ⟨e, ⟨-, hlarge⟩ | ⟨-, -, hrefused⟩⟩ := (empty.refines_iff_tame _).mp h rfl (by decide)
  · exact absurd hlarge (by decide)
  · cases hrefused

end RamfsFile

end Northstar
