import Northstar.Proc.Pipe

/-! # Pipes deliver what was written, in order

The bytes stored so far are the bytes fetched so far followed by what the ring holds, and every call
has moved exactly the bytes its progress says. Both survive every section of every call and every
close, in any order. -/

namespace Northstar

open Function List

/-! ### Sections of a pipe -/

/-- A pipe whose ring is within bounds. -/
structure Pipe.Ok (pipe : Pipe) : Prop where
  atomic : nsPipeAtomicMax ≤ pipe.capacity
  object : pipe.capacity < objectMax
  head : pipe.head < pipe.capacity
  used : pipe.used ≤ pipe.capacity

/-- What the ring holds, oldest byte first. -/
def Pipe.held (pipe : Pipe) : List UInt8 :=
  ringView pipe.capacity pipe.buffer pipe.head pipe.used

variable {pipe : Pipe} {n written : ℕ} {bytes data : List UInt8} {thread : PipeThread}
  {stored fetched : List (List UInt8)}

/-- A new pipe is in order and empty. -/
lemma nsPipeCreate_ok {runtimeCapacity : ℕ} {canBlock : Bool} {contents : Option (ℕ → UInt8)}
    (h : nsPipeCreate runtimeCapacity canBlock contents = .ok pipe) :
    pipe.Ok ∧ pipe.held = [] := by
  simp only [nsPipeCreate] at h
  generalize (if runtimeCapacity ≠ 0 then runtimeCapacity else nsPipeDefaultCapacity) =
    capacity at h
  split at h
  · cases h
  rename_i hatomic
  cases contents with
  | none => cases h
  | some buffer =>
    dsimp only at h
    split at h
    · cases h
    rename_i hobject
    cases h
    refine ⟨⟨?_, ?_, ?_, Nat.zero_le _⟩, rfl⟩
    · exact Nat.le_of_not_lt hatomic
    · exact Nat.lt_of_not_le hobject
    · exact lt_of_lt_of_le (by decide : 0 < nsPipeAtomicMax) (Nat.le_of_not_lt hatomic)

/-- Positions in the ring do not overflow. -/
lemma Pipe.Ok.position_lt (h : pipe.Ok) {i : ℕ} (hi : i ≤ pipe.capacity) :
    (pipe.head + i) % 2 ^ 64 = pipe.head + i := by
  have hobject : pipe.capacity < 2 ^ 63 := h.object
  have hhead := h.head
  exact Nat.mod_eq_of_lt (by omega)

/-- What is copied out is the front of what the ring holds. -/
lemma Pipe.Ok.copyOut_eq (h : pipe.Ok) (hn : n ≤ pipe.used) :
    pipe.copyOut n = ringView pipe.capacity pipe.buffer pipe.head n := by
  apply map_congr_left
  intro i hi
  have hi := mem_range.1 hi
  have hused := h.used
  rw [h.position_lt (by omega)]

/-- What is copied in is stored behind what the ring holds. -/
lemma Pipe.Ok.copyIn_eq (h : pipe.Ok) (xs : List UInt8) (index : ℕ)
    (buffer : ℕ → UInt8) (hfit : pipe.used + index + xs.length ≤ pipe.capacity) :
    pipe.copyIn xs index buffer
      = ringStore pipe.capacity xs (pipe.head + pipe.used + index) buffer := by
  induction xs generalizing index buffer with
  | nil => rfl
  | cons x xs ih =>
    rw [length_cons] at hfit
    rw [Pipe.copyIn, ringStore, Nat.add_assoc pipe.head, h.position_lt (by omega),
      ih (index + 1) _ (by omega)]
    simp only [Nat.add_assoc]

/-- A small number of bytes is itself as a result. -/
lemma toInt64_of_lt (h : n < objectMax) : toInt64 n = n := if_pos h

/-- Moving the head drops the bytes copied out. -/
lemma Pipe.Ok.fetch (hok : pipe.Ok) (hn : n ≤ pipe.used) :
    Pipe.Ok { pipe with
        head := (pipe.head + n) % 2 ^ 64 % pipe.capacity, used := pipe.used - n } ∧
      pipe.held = pipe.copyOut n ++ Pipe.held { pipe with
        head := (pipe.head + n) % 2 ^ 64 % pipe.capacity, used := pipe.used - n } := by
  have hused := hok.used
  have hhead := hok.head
  rw [hok.copyOut_eq hn, hok.position_lt (by omega)]
  refine ⟨⟨hok.atomic, hok.object, Nat.mod_lt _ (by omega), (Nat.sub_le _ _).trans hused⟩, ?_⟩
  rw [Pipe.held, Pipe.held, ← ringView_split, Nat.add_sub_cancel' hn]

/-- Bytes copied in are appended to the ring. -/
lemma Pipe.Ok.store (hok : pipe.Ok)
    (hlength : bytes.length = n) (hfit : pipe.used + n ≤ pipe.capacity) :
    Pipe.Ok { pipe with buffer := pipe.copyIn bytes 0 pipe.buffer, used := pipe.used + n } ∧
      Pipe.held { pipe with buffer := pipe.copyIn bytes 0 pipe.buffer, used := pipe.used + n }
        = pipe.held ++ bytes := by
  subst hlength
  refine ⟨⟨hok.atomic, hok.object, hok.head, hfit⟩, ?_⟩
  rw [Pipe.held, Pipe.held, hok.copyIn_eq bytes 0 pipe.buffer hfit]
  exact ringView_store bytes hfit pipe.buffer

/-- A section of `pipe_read` takes bytes off the front of the ring. It ends the call with their
number or with an error, or leaves the call where it is. -/
lemma readSection_spec {pipe' : Pipe} {count : ℕ} {state : PipeCall}
    (hok : pipe.Ok) (h : readSection pipe count = (pipe', bytes, state)) :
    pipe'.Ok ∧ pipe.held = bytes ++ pipe'.held ∧
      (state = .returned bytes.length ∨
        bytes = [] ∧ (state = .read count ∨ ∃ result < 0, state = .returned result)) := by
  rw [readSection] at h
  by_cases hused : pipe.used ≠ 0
  · rw [if_pos hused] at h
    generalize hcopied : (if count < pipe.used then count else pipe.used) = copied at h
    have hle : copied ≤ pipe.used := by
      split_ifs at hcopied <;> omega
    have hbound := hok.used
    have hobject := hok.object
    obtain ⟨hok', hheld⟩ := hok.fetch hle
    cases h
    refine ⟨hok', hheld, .inl ?_⟩
    rw [toInt64_of_lt (by omega), hok.copyOut_eq hle, length_ringView]
  · rw [if_neg hused] at h
    split_ifs at h with hwriters hblock
    · cases h
      exact ⟨hok, rfl, .inl rfl⟩
    · cases h
      exact ⟨hok, rfl, .inr ⟨rfl, .inr ⟨_, by decide, rfl⟩⟩⟩
    · cases h
      exact ⟨hok, rfl, .inr ⟨rfl, .inl rfl⟩⟩

/-- How a section of `pipe_write` that has stored `bytes` can end. -/
def WriteEnd (data : List UInt8) (written : ℕ) (bytes : List UInt8) (state : PipeCall) : Prop :=
  state = .returned (written + bytes.length : ℕ) ∨
  state = .write data (written + bytes.length) ∧ written + bytes.length < data.length ∨
  bytes = [] ∧ state = .writeFull data written ∨
  bytes = [] ∧ written = 0 ∧ ∃ result < 0, state = .returned result

/-- A section of `pipe_write` appends the next bytes of the buffer to the ring, all of them at once
if the write is an atomic one. It ends the call with the number of bytes written so far, or with an
error if there are none, or goes on from there. -/
lemma writeSection_spec {pipe' : Pipe}
    {state : PipeCall} (hok : pipe.Ok) (hwritten : written < data.length)
    (hdata : data.length < objectMax) (hatomic : data.length ≤ nsPipeAtomicMax → written = 0)
    (h : writeSection pipe data written = (pipe', bytes, state)) :
    pipe'.Ok ∧ pipe'.held = pipe.held ++ bytes ∧
      data.take written ++ bytes = data.take (written + bytes.length) ∧
      (data.length ≤ nsPipeAtomicMax → bytes = [] ∨ bytes = data) ∧
      WriteEnd data written bytes state := by
  -- the sections that store nothing differ only in how they end
  have hquiet : ∀ {state' : PipeCall}, WriteEnd data written [] state' →
      (pipe, ([] : List UInt8), state') = (pipe', bytes, state) →
      pipe'.Ok ∧ pipe'.held = pipe.held ++ bytes ∧
        data.take written ++ bytes = data.take (written + bytes.length) ∧
        (data.length ≤ nsPipeAtomicMax → bytes = [] ∨ bytes = data) ∧
        WriteEnd data written bytes state := by
    rintro state' hend heq
    cases heq
    exact ⟨hok, by simp, by simp, fun _ => .inl rfl, hend⟩
  have hint : toInt64 written = (written : ℤ) := toInt64_of_lt (hwritten.trans hdata)
  simp only [writeSection] at h
  by_cases hreaders : pipe.readers = 0
  · rw [if_pos hreaders] at h
    refine hquiet ?_ h
    by_cases hzero : written = 0
    · rw [if_neg (not_not.2 hzero)]
      exact .inr (.inr (.inr ⟨rfl, hzero, _, by decide, rfl⟩))
    · rw [if_pos hzero, hint]
      exact .inl rfl
  rw [if_neg hreaders] at h
  by_cases hsmall : data.length ≤ nsPipeAtomicMax ∧ pipe.capacity - pipe.used < data.length
  · rw [if_pos hsmall] at h
    split_ifs at h with hblock
    · exact hquiet (.inr (.inr (.inr ⟨rfl, hatomic hsmall.1, _, by decide, rfl⟩))) h
    · exact hquiet (.inr (.inl ⟨rfl, hwritten⟩)) h
  rw [if_neg hsmall] at h
  by_cases hfull : pipe.capacity - pipe.used = 0
  · rw [if_pos hfull] at h
    split_ifs at h with hzero hblock
    · rw [hint] at h
      exact hquiet (.inl rfl) h
    · exact hquiet (.inr (.inr (.inr ⟨rfl, not_not.1 hzero, _, by decide, rfl⟩))) h
    · exact hquiet (.inr (.inr (.inl ⟨rfl, rfl⟩))) h
  rw [if_neg hfull] at h
  generalize hchunk : (if data.length - written > pipe.capacity - pipe.used
    then pipe.capacity - pipe.used else data.length - written) = chunk at h
  have hused := hok.used
  have hle : chunk ≤ data.length - written ∧ chunk ≤ pipe.capacity - pipe.used := by
    split_ifs at hchunk <;> omega
  have hlength : ((data.drop written).take chunk).length = chunk := by
    rw [length_take, length_drop]
    exact min_eq_left hle.1
  obtain ⟨hok', hheld⟩ := hok.store hlength (by omega)
  cases h
  refine ⟨hok', hheld, ?_, ?_, ?_⟩
  · rw [hlength, take_add]
  · intro hsmall'
    have hzero := hatomic hsmall'
    have hroom : data.length ≤ pipe.capacity - pipe.used := by
      by_contra hlt
      exact hsmall ⟨hsmall', by omega⟩
    have hall : chunk = data.length := by
      split_ifs at hchunk <;> omega
    rw [hzero, drop_zero, hall, take_length]
    exact .inr rfl
  · rw [WriteEnd, hlength, toInt64_of_lt (by omega)]
    split_ifs with hmore
    · exact .inr (.inl ⟨rfl, hmore⟩)
    · exact .inl rfl

/-! ### Calls -/

/-- The result of a call is the number of bytes it has moved, or an error if it has moved none. -/
def ResultOf (result : ℤ) (moved : List (List UInt8)) : Prop :=
  result = moved.flatten.length ∨ result < 0 ∧ moved = []

/-- A write on its way has stored the first `written` bytes of its buffer, and none if it is an
atomic one. -/
structure Writing (request data : List UInt8) (written : ℕ) (stored : List (List UInt8)) :
    Prop where
  eq : data = request
  lt : written < data.length
  object : data.length < objectMax
  flatten : stored.flatten = data.take written
  start : written = 0 → stored = []
  atomic : data.length ≤ nsPipeAtomicMax → written = 0

/-- A call stands where the chunks it has stored and fetched say. -/
def PipeThread.Ok (thread : PipeThread) (stored fetched : List (List UInt8)) : Prop :=
  match thread.request, thread.state with
  | .read _ _, .read _ => stored = [] ∧ fetched = []
  | .read _ _, .returned result => stored = [] ∧ ResultOf result fetched
  | .read _ _, _ => False
  | .write _ request, .write data written =>
    fetched = [] ∧ Writing (request.getD []) data written stored
  | .write _ request, .writeFull data written =>
    fetched = [] ∧ Writing (request.getD []) data written stored
  | .write _ request, .returned result =>
    fetched = [] ∧ ResultOf result stored ∧ stored.flatten <+: request.getD [] ∧
      ((request.getD []).length ≤ nsPipeAtomicMax → stored = [] ∨ stored = [request.getD []])
  | .write _ _, .read _ => False

/-- A call has not moved anything when it begins. -/
lemma PipeRequest.start_ok (request : PipeRequest) (h : request.Fits) :
    PipeThread.Ok ⟨request, request.start⟩ [] [] := by
  cases request with
  | read writable count =>
    cases count with
    | none => exact ⟨rfl, .inr ⟨by decide, rfl⟩⟩
    | some count =>
      rw [PipeRequest.start]
      split_ifs
      · exact ⟨rfl, .inr ⟨by decide, rfl⟩⟩
      · exact ⟨rfl, .inl rfl⟩
      · exact ⟨rfl, rfl⟩
  | write writable data =>
    cases data with
    | none => exact ⟨rfl, .inr ⟨by decide, rfl⟩, nil_prefix, fun _ => .inl rfl⟩
    | some data =>
      rw [PipeRequest.start]
      split_ifs with hwritable hzero
      · exact ⟨rfl, .inr ⟨by decide, rfl⟩, nil_prefix, fun _ => .inl rfl⟩
      · exact ⟨rfl, .inl rfl, nil_prefix, fun _ => .inl rfl⟩
      · exact ⟨rfl, rfl, Nat.pos_of_ne_zero hzero, h, rfl, fun _ => rfl, fun _ => rfl⟩

/-- The chunks of a call after a section that has moved `bytes`. -/
def chunksAfter (bytes : List UInt8) (chunks : List (List UInt8)) : List (List UInt8) :=
  if bytes = [] then chunks else chunks ++ [bytes]

@[simp] lemma chunksAfter_nil (chunks : List (List UInt8)) : chunksAfter [] chunks = chunks :=
  if_pos rfl

/-- The pieces so far, with one more. -/
@[simp] lemma flatten_chunksAfter (bytes : List UInt8) (chunks : List (List UInt8)) :
    (chunksAfter bytes chunks).flatten = chunks.flatten ++ bytes := by
  rw [chunksAfter]
  split_ifs with h <;> simp [h]

/-- A section of a read keeps its call in order. -/
lemma PipeThread.Ok.read {count : ℕ} {state : PipeCall} (hthread : thread.Ok stored fetched)
    (hstate : thread.state = .read count)
    (hend : state = .returned bytes.length ∨
      bytes = [] ∧ (state = .read count ∨ ∃ result < 0, state = .returned result)) :
    PipeThread.Ok { thread with state := state } stored (chunksAfter bytes fetched) := by
  obtain ⟨request, state0⟩ := thread
  subst hstate
  cases request with
  | write writable data => exact hthread.elim
  | read writable request =>
    obtain ⟨rfl, rfl⟩ := hthread
    obtain rfl | ⟨rfl, rfl | ⟨result, hneg, rfl⟩⟩ := hend
    · exact ⟨rfl, .inl (by simp)⟩
    · exact ⟨rfl, by simp⟩
    · exact ⟨rfl, .inr ⟨hneg, by simp⟩⟩

/-- The bytes of a section of a write belong to the write, and an atomic write is stored in one
piece. -/
lemma Writing.chunksAfter {request : List UInt8} (h : Writing request data written stored)
    (hbytes : data.take written ++ bytes = data.take (written + bytes.length))
    (hatomic : data.length ≤ nsPipeAtomicMax → bytes = [] ∨ bytes = data) :
    (chunksAfter bytes stored).flatten = data.take (written + bytes.length) ∧
      (data.length ≤ nsPipeAtomicMax →
        chunksAfter bytes stored = [] ∨ chunksAfter bytes stored = [data]) := by
  refine ⟨by rw [flatten_chunksAfter, h.flatten, hbytes], fun hsmall => ?_⟩
  rw [h.start (h.atomic hsmall), Northstar.chunksAfter]
  split_ifs with hnil
  · exact .inl rfl
  · rw [(hatomic hsmall).resolve_left hnil]
    exact .inr rfl

section

variable (hthread : thread.Ok stored fetched)
include hthread

/-- A section of a write keeps its call in order. -/
lemma PipeThread.Ok.write {state : PipeCall} (hstate : thread.state = .write data written)
    (hbytes : data.take written ++ bytes = data.take (written + bytes.length))
    (hatomic : data.length ≤ nsPipeAtomicMax → bytes = [] ∨ bytes = data)
    (hend : WriteEnd data written bytes state) :
    PipeThread.Ok { thread with state := state } (chunksAfter bytes stored) fetched := by
  obtain ⟨request, state0⟩ := thread
  subst hstate
  cases request with
  | read writable request => exact hthread.elim
  | write writable request =>
    obtain ⟨rfl, hwriting⟩ := hthread
    obtain ⟨hflat, hpiece⟩ := hwriting.chunksAfter hbytes hatomic
    have hlength : written + bytes.length ≤ data.length := by
      have := congrArg length hbytes
      rw [length_append, length_take, length_take] at this
      have := hwriting.lt
      omega
    have hdata := hwriting.eq
    have hprefix : (Northstar.chunksAfter bytes stored).flatten <+: request.getD [] := by
      rw [hflat, ← hdata]
      exact take_prefix _ _
    rw [hdata] at hpiece
    obtain rfl | ⟨rfl, hmore⟩ | ⟨rfl, rfl⟩ | ⟨rfl, hzero, result, hneg, rfl⟩ := hend
    · refine ⟨rfl, .inl ?_, hprefix, hpiece⟩
      rw [hflat, length_take, min_eq_left hlength]
    · refine ⟨rfl, hdata, hmore, hwriting.object, hflat, fun hzero => ?_, fun hsmall => ?_⟩
      · have hnil : bytes = [] := eq_nil_of_length_eq_zero (by omega)
        rw [hnil, chunksAfter_nil]
        exact hwriting.start (by omega)
      · have hnil : bytes = [] := (hatomic hsmall).resolve_right fun hall => by
          rw [hall] at hmore
          omega
        rw [hnil]
        exact hwriting.atomic hsmall
    · rw [chunksAfter_nil]
      exact ⟨rfl, hwriting⟩
    · refine ⟨rfl, .inr ⟨hneg, ?_⟩, hprefix, hpiece⟩
      exact hwriting.start hzero

/-- What the section of a write relies on. -/
lemma PipeThread.Ok.writing (hstate : thread.state = .write data written) :
    written < data.length ∧ data.length < objectMax ∧
      (data.length ≤ nsPipeAtomicMax → written = 0) := by
  obtain ⟨request, state0⟩ := thread
  subst hstate
  cases request with
  | read writable request => exact hthread.elim
  | write writable request => exact ⟨hthread.2.lt, hthread.2.object, hthread.2.atomic⟩

/-- The second look at a full pipe moves nothing. -/
lemma PipeThread.Ok.writeFull (hstate : thread.state = .writeFull data written) :
    PipeThread.Ok { thread with state := writeFullSection data written } stored fetched := by
  obtain ⟨request, state0⟩ := thread
  subst hstate
  cases request with
  | read writable request => exact hthread.elim
  | write writable request => exact hthread

end

/-! ### Runs -/

/-- Recording bytes of a call appends them to those of the call. -/
lemma chunksOf_record_self (id : ℕ) (bytes : List UInt8) (log : List (ℕ × List UInt8)) :
    chunksOf id (record id bytes log) = chunksAfter bytes (chunksOf id log) := by
  rw [record, chunksAfter]
  split_ifs with h <;> simp [chunksOf, filter_append]

/-- Recording bytes of a call does not change those of another. -/
lemma chunksOf_record_of_ne {id id' : ℕ} (h : id' ≠ id) (bytes : List UInt8)
    (log : List (ℕ × List UInt8)) : chunksOf id' (record id bytes log) = chunksOf id' log := by
  rw [record]
  split_ifs with hnil
  · rfl
  · simp [chunksOf, filter_append, h.symm]

/-- Recording bytes appends them to all that was stored. -/
lemma flatMap_record (id : ℕ) (bytes : List UInt8) (log : List (ℕ × List UInt8)) :
    (record id bytes log).flatMap Prod.snd = log.flatMap Prod.snd ++ bytes := by
  rw [record]
  split_ifs with h <;> simp [h]

namespace PipeRun

/-- The call `id`, if it was made, stands where its chunks say. -/
def CallOk (r : PipeRun) (id : ℕ) : Prop :=
  match r.calls id with
  | none => r.storedBy id = [] ∧ r.fetchedBy id = []
  | some thread => thread.Ok (r.storedBy id) (r.fetchedBy id)

/-- What was stored is what was fetched and what the ring still holds, and all calls are in order.
-/
structure Ok (r : PipeRun) : Prop where
  pipe : r.pipe.Ok
  fifo : r.stored.flatMap Prod.snd = r.fetched.flatMap Prod.snd ++ r.pipe.held
  calls : ∀ id, r.CallOk id

/-- A new pipe with no calls is in order. -/
lemma ok_start {pipe : Pipe} (h : pipe.Ok) (hheld : pipe.held = []) : (start pipe).Ok :=
  ⟨h, by simp [start, hheld], fun _ => ⟨rfl, rfl⟩⟩

variable {r : PipeRun} {thread : PipeThread}

/-- A step that moves one call, and records its chunks, keeps all calls in order if it keeps this
one in order. -/
lemma Ok.calls_of {r' : PipeRun} (h : r.Ok) {id : ℕ}
    (hcalls : r'.calls = update r.calls id (some thread))
    (hother : ∀ id' ≠ id, r'.storedBy id' = r.storedBy id' ∧ r'.fetchedBy id' = r.fetchedBy id')
    (hself : thread.Ok (r'.storedBy id) (r'.fetchedBy id)) (id' : ℕ) : r'.CallOk id' := by
  rw [CallOk, hcalls]
  by_cases hid : id' = id
  · subst hid
    rw [update_self]
    exact hself
  · rw [update_of_ne hid, (hother id' hid).1, (hother id' hid).2]
    exact h.calls id'

/-- A thread that goes on keeps the run in order. -/
lemma Ok.advance (h : r.Ok) {id : ℕ}
    (hthread : r.calls id = some thread) : (r.advance id thread).Ok := by
  have hok : thread.Ok (r.storedBy id) (r.fetchedBy id) := by
    have := h.calls id
    rwa [CallOk, hthread] at this
  rw [PipeRun.advance]
  split
  case h_1 count hstate =>
    obtain ⟨⟨pipe, bytes, state⟩, hsection⟩ : ∃ result, readSection r.pipe count = result :=
      ⟨_, rfl⟩
    rw [hsection]
    obtain ⟨hpipe, hheld, hend⟩ := readSection_spec h.pipe hsection
    refine ⟨hpipe, ?_, h.calls_of rfl (fun id' hid => ⟨rfl, chunksOf_record_of_ne hid _ _⟩) ?_⟩
    · show r.stored.flatMap Prod.snd = (record id bytes r.fetched).flatMap Prod.snd ++ pipe.held
      rw [flatMap_record, append_assoc, ← hheld]
      exact h.fifo
    · show PipeThread.Ok _ (r.storedBy id) (chunksOf id (record id bytes r.fetched))
      rw [chunksOf_record_self]
      exact hok.read hstate hend
  case h_2 data written hstate =>
    obtain ⟨⟨pipe, bytes, state⟩, hsection⟩ : ∃ result, writeSection r.pipe data written = result :=
      ⟨_, rfl⟩
    rw [hsection]
    have hwriting := hok.writing hstate
    obtain ⟨hpipe, hheld, hbytes, hatomic, hend⟩ :=
      writeSection_spec h.pipe hwriting.1 hwriting.2.1 hwriting.2.2 hsection
    refine ⟨hpipe, ?_, h.calls_of rfl (fun id' hid => ⟨chunksOf_record_of_ne hid _ _, rfl⟩) ?_⟩
    · show (record id bytes r.stored).flatMap Prod.snd = r.fetched.flatMap Prod.snd ++ pipe.held
      rw [flatMap_record, hheld, ← append_assoc, h.fifo]
    · show PipeThread.Ok _ (chunksOf id (record id bytes r.stored)) (r.fetchedBy id)
      rw [chunksOf_record_self]
      exact hok.write hstate hbytes hatomic hend
  case h_3 data written hstate =>
    exact ⟨h.pipe, h.fifo, h.calls_of rfl (fun _ _ => ⟨rfl, rfl⟩) (hok.writeFull hstate)⟩
  case h_4 => exact h

/-- Every event keeps a run in order. -/
lemma Ok.step (h : r.Ok) (event : PipeEvent) : (r.step event).Ok := by
  cases event with
  | call id request =>
    rw [PipeRun.step]
    split
    case h_1 => exact h
    case h_2 hnone =>
      split_ifs with hfits
      · refine ⟨h.pipe, h.fifo, h.calls_of rfl (fun _ _ => ⟨rfl, rfl⟩) ?_⟩
        have hnew := h.calls id
        rw [CallOk, hnone] at hnew
        show PipeThread.Ok _ (r.storedBy id) (r.fetchedBy id)
        rw [hnew.1, hnew.2]
        exact request.start_ok hfits
      · exact h
  | advance id =>
    rw [PipeRun.step]
    split
    case h_1 => exact h
    case h_2 thread hthread =>
      split_ifs
      · exact h
      · exact h.advance hthread
  | close writable =>
    rw [PipeRun.step]
    split_ifs
    · exact h
    · have hsame : (closeSection r.pipe writable).Ok ∧
          (closeSection r.pipe writable).held = r.pipe.held := by
        rw [closeSection]
        split_ifs
        · exact ⟨⟨h.pipe.atomic, h.pipe.object, h.pipe.head, h.pipe.used⟩, rfl⟩
        · exact ⟨⟨h.pipe.atomic, h.pipe.object, h.pipe.head, h.pipe.used⟩, rfl⟩
      exact ⟨hsame.1, h.fifo.trans (congrArg _ hsame.2.symm), h.calls⟩

/-- A run keeps the calls in order. -/
lemma Ok.run (h : r.Ok) (events : List PipeEvent) : (events.foldl PipeRun.step r).Ok := by
  induction events generalizing r with
  | nil => exact h
  | cons event events ih => exact ih (h.step event)

end PipeRun

/-! ### The guarantee -/

/-- What a call has moved, in the words of its caller. -/
def PipeThread.Delivers (thread : PipeThread) (stored fetched : List (List UInt8)) : Prop :=
  match thread.request with
  | .read _ _ =>
    stored = [] ∧ ∀ result, thread.state = .returned result → ResultOf result fetched
  | .write _ data =>
    fetched = [] ∧ stored.flatten <+: data.getD [] ∧
      ((data.getD []).length ≤ nsPipeAtomicMax → stored = [] ∨ stored = [data.getD []]) ∧
      ∀ result, thread.state = .returned result → ResultOf result stored

/-- A call in order delivers what it says. -/
lemma PipeThread.Ok.delivers (h : thread.Ok stored fetched) : thread.Delivers stored fetched := by
  obtain ⟨request, state⟩ := thread
  cases request with
  | read writable count =>
    cases state with
    | read count' => exact ⟨h.1, nofun⟩
    | returned result => exact ⟨h.1, fun _ hresult => by cases hresult; exact h.2⟩
    | write data written => exact h.elim
    | writeFull data written => exact h.elim
  | write writable request =>
    have hwriting : ∀ {data written}, Writing (request.getD []) data written stored →
        stored.flatten <+: request.getD [] ∧
        ((request.getD []).length ≤ nsPipeAtomicMax → stored = [] ∨
          stored = [request.getD []]) := by
      intro data written hw
      refine ⟨?_, fun hsmall => .inl (hw.start (hw.atomic (hw.eq ▸ hsmall)))⟩
      rw [hw.flatten, ← hw.eq]
      exact take_prefix _ _
    cases state with
    | read count' => exact h.elim
    | returned result =>
      exact ⟨h.1, h.2.2.1, h.2.2.2, fun _ hresult => by cases hresult; exact h.2.1⟩
    | write data written =>
      exact ⟨h.1, (hwriting h.2).1, (hwriting h.2).2, nofun⟩
    | writeFull data written =>
      exact ⟨h.1, (hwriting h.2).1, (hwriting h.2).2, nofun⟩

/-- A pipe is a queue of bytes, whatever calls are made on it and however their sections are
interleaved. Reads return what writes have stored, in that order. A call that has ended has
returned the number of bytes it has moved, the chunks of a write are consecutive pieces of its
buffer from its beginning on, and those of an atomic write are one piece or none. -/
theorem pipe_delivers_in_order {runtimeCapacity : ℕ} {canBlock : Bool}
    {contents : Option (ℕ → UInt8)} {pipe : Pipe}
    (hcreate : nsPipeCreate runtimeCapacity canBlock contents = .ok pipe)
    (events : List PipeEvent) :
    let r := events.foldl PipeRun.step (PipeRun.start pipe)
    r.fetched.flatMap Prod.snd <+: r.stored.flatMap Prod.snd ∧
    r.pipe.used ≤ r.pipe.capacity ∧
    ∀ id thread, r.calls id = some thread → thread.Delivers (r.storedBy id) (r.fetchedBy id) := by
  obtain ⟨hpipe, hheld⟩ := nsPipeCreate_ok hcreate
  have hok := (PipeRun.ok_start hpipe hheld).run events
  refine ⟨⟨_, hok.fifo.symm⟩, hok.pipe.used, fun id thread hthread => ?_⟩
  have hcall := hok.calls id
  rw [PipeRun.CallOk, hthread] at hcall
  exact hcall.delivers

/-- A pipe of the smallest capacity. -/
def smallPipe : Pipe :=
  { buffer := fun _ => 0, capacity := 512, head := 0, used := 0, readers := 1, writers := 1,
    canBlock := true }

/-- A read that has to wait for a write, and then takes part of it. -/
def smallExchange : List PipeEvent :=
  [.call 0 (.read false (some 2)), .advance 0, .call 1 (.write true (some [1, 2, 3])), .advance 1,
    .advance 0]

/-- A read and a write through a small pipe. -/
theorem pipe_delivers_in_order_smallExchange :
    nsPipeCreate 512 true (some fun _ => 0) = .ok smallPipe ∧
    let r := smallExchange.foldl PipeRun.step (PipeRun.start smallPipe)
    r.fetched = [(0, [1, 2])] ∧ r.stored = [(1, [1, 2, 3])] ∧
    r.fetched.flatMap Prod.snd <+: r.stored.flatMap Prod.snd ∧
    r.pipe.used ≤ r.pipe.capacity ∧
    ∀ id thread, r.calls id = some thread → thread.Delivers (r.storedBy id) (r.fetchedBy id) := by
  have hcreate : nsPipeCreate 512 true (some fun _ => 0) = .ok smallPipe := rfl
  exact ⟨hcreate, by decide +kernel, by decide +kernel,
    pipe_delivers_in_order hcreate smallExchange⟩

end Northstar
