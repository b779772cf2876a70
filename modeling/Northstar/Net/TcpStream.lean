import Northstar.Net.Tcp

/-! # What TCP does to a connection

The functions of the TCP model change a connection in few ways as far as its user is concerned. It
keeps its number and its generation; the bytes that it has received in order are those it has
returned, followed by those in its buffer; and it is past the FIN of its peer only once it has
consumed that FIN.

Most functions leave all of this as it is (`Still`), others move the connection on (`Keeps`), and
two of them put a new connection into a free slot (`Moves`). There is one lemma for each function,
in the order of the model. -/

namespace Northstar

open Function

/-- The states that a connection is in once the FIN of its peer has been consumed. -/
def TcpState.pastFin : TcpState → Bool
  | .closeWait | .closing | .lastAck | .timeWait => true
  | _ => false

namespace TcpConnection

/-- The bytes received are those returned and those in the buffer, and a FIN has been consumed where
the state says so. -/
structure Stream (c : TcpConnection) : Prop where
  buffered : c.received = c.returned ++ c.rxBuffer
  fin : c.state.pastFin = true → c.finAfter.isSome = true

/-- Nothing that the user of the connection can see has changed. -/
structure Same (c c' : TcpConnection) : Prop where
  serial : c'.serial = c.serial
  generation : c'.generation = c.generation
  state : c'.state = c.state
  rxBuffer : c'.rxBuffer = c.rxBuffer
  received : c'.received = c.received
  returned : c'.returned = c.returned
  finAfter : c'.finAfter = c.finAfter

/-- The connection has moved on, and is still the same connection. -/
structure Evolves (c c' : TcpConnection) : Prop where
  serial : c'.serial = c.serial
  generation : c'.generation = c.generation
  stream : c.Stream → c'.Stream

lemma Same.refl (c : TcpConnection) : c.Same c := by constructor <;> rfl

variable {c c' c'' : TcpConnection}

lemma Same.trans (h : c.Same c') (h' : c'.Same c'') : c.Same c'' where
  serial := h'.serial.trans h.serial
  generation := h'.generation.trans h.generation
  state := h'.state.trans h.state
  rxBuffer := h'.rxBuffer.trans h.rxBuffer
  received := h'.received.trans h.received
  returned := h'.returned.trans h.returned
  finAfter := h'.finAfter.trans h.finAfter

/-- A connection that is the same has evolved. -/
lemma Same.evolves (h : c.Same c') : c.Evolves c' where
  serial := h.serial
  generation := h.generation
  stream hc :=
    { buffered := by rw [h.received, h.returned, h.rxBuffer]; exact hc.buffered
      fin := by rw [h.state, h.finAfter]; exact hc.fin }

lemma Evolves.trans (h : c.Evolves c') (h' : c'.Evolves c'') :
    c.Evolves c'' where
  serial := h'.serial.trans h.serial
  generation := h'.generation.trans h.generation
  stream hc := h'.stream (h.stream hc)

/-- A change of state alone, to one that is past the FIN only if the FIN has been consumed. -/
lemma Evolves.of_state (h : { c with state := c'.state }.Same c')
    (hfin : c.Stream → c'.state.pastFin = true → c.finAfter.isSome = true) : c.Evolves c' :=
  { h.evolves with stream := fun hc => h.evolves.stream ⟨hc.buffered, hfin hc⟩ }

end TcpConnection

/-- The generation that `allocate_connection` gives to a slot after `generation`. -/
def nextTcpGeneration (generation : UInt16) : UInt16 :=
  if generation + 1 = 0 then 1 else generation + 1

namespace TcpStack

/-- Nothing that the user of a connection can see has changed. -/
structure Still (s s' : TcpStack) : Prop where
  nextSerial : s'.nextSerial = s.nextSerial
  socket : ∀ slot, (s.sockets slot).Same (s'.sockets slot)

/-- Every connection is still the same connection. -/
def Keeps (s s' : TcpStack) : Prop := ∀ slot, (s.sockets slot).Evolves (s'.sockets slot)

/-- A slot holds the same connection as before, or has been given to a new one. -/
structure Moves (s s' : TcpStack) : Prop where
  ages : ∀ slot, (s'.sockets slot).generation = (s.sockets slot).generation ∧
      (s'.sockets slot).serial = (s.sockets slot).serial ∨
    (s'.sockets slot).generation = nextTcpGeneration (s.sockets slot).generation
  stream : ∀ slot, (s.sockets slot).Stream → (s'.sockets slot).Stream

variable {s s' s'' : TcpStack} {slot : TcpSlot} {f : TcpConnection → TcpConnection}
  {event : TcpEvent} {acknowledgment localIpv4 : UInt32} {payload bytes : List UInt8}
  {segment : TcpSegment}

lemma Still.refl (s : TcpStack) : s.Still s := ⟨rfl, fun _ => .refl _⟩

/-- A stack that stands still keeps its connections. -/
lemma Still.keeps (h : s.Still s') : s.Keeps s' := fun slot => (h.socket slot).evolves

lemma Keeps.refl (s : TcpStack) : s.Keeps s := (Still.refl s).keeps

lemma Keeps.trans (h : s.Keeps s') (h' : s'.Keeps s'') : s.Keeps s'' :=
  fun slot => (h slot).trans (h' slot)

/-- A stack that keeps its connections moves. -/
lemma Keeps.moves (h : s.Keeps s') : s.Moves s' :=
  ⟨fun slot => .inl ⟨(h slot).generation, (h slot).serial⟩, fun slot => (h slot).stream⟩

/-- Moving, and then keeping the connections. -/
lemma Moves.keeps (h : s.Moves s') (h' : s'.Keeps s'') : s.Moves s'' := by
  refine ⟨fun slot => ?_, fun slot hstream => (h' slot).stream (h.stream slot hstream)⟩
  rw [(h' slot).generation, (h' slot).serial]
  exact h.ages slot

/-- The slot that is modified. -/
@[simp] lemma modify_socket (s : TcpStack) (slot : TcpSlot) (f : TcpConnection → TcpConnection) :
    (s.modify slot f).sockets slot = f (s.sockets slot) := by
  simp only [TcpStack.modify, update_self]

/-- The other slots are as before. -/
lemma modify_socket_of_ne (s : TcpStack) {slot other : TcpSlot} (h : other ≠ slot)
    (f : TcpConnection → TcpConnection) : (s.modify slot f).sockets other = s.sockets other := by
  simp only [TcpStack.modify, update_of_ne h]

/-- A change that keeps a connection the same. -/
lemma Still.modify (h : s.Still s')
    (hf : ∀ c : TcpConnection, c.Same (f c)) : s.Still (s'.modify slot f) := by
  refine ⟨h.nextSerial, fun other => (h.socket other).trans ?_⟩
  by_cases hslot : other = slot
  · rw [hslot, modify_socket]
    exact hf _
  · rw [modify_socket_of_ne _ hslot]
    exact .refl _

/-- A change in which a connection evolves. -/
lemma Keeps.modify (h : s.Keeps s')
    (hf : (s'.sockets slot).Evolves (f (s'.sockets slot))) : s.Keeps (s'.modify slot f) := by
  refine fun other => (h other).trans ?_
  by_cases hslot : other = slot
  · rw [hslot, modify_socket]
    exact hf
  · rw [modify_socket_of_ne _ hslot]
    exact (TcpConnection.Same.refl _).evolves

/-! ### Transmission -/

section

variable (h : s.Still s')
include h

lemma Still.notifySavedHandle {handle : UInt32}
    {value : UInt32} : s.Still (s'.notifySavedHandle handle event value) :=
  ⟨h.nextSerial, h.socket⟩

lemma Still.notify {value : UInt32} : s.Still (s'.notify slot event value) :=
  ⟨h.nextSerial, h.socket⟩

lemma Still.transmit {c : TcpConnection} {sequence : UInt32} {flags : UInt8} {includeMss : Bool} :
    s.Still (s'.transmit c sequence acknowledgment flags payload includeMss).2 :=
  ⟨h.nextSerial, h.socket⟩

lemma Still.emitSegment {sequence : UInt32} {flags : UInt8} {includeMss : Bool} :
    s.Still (s'.emitSegment slot sequence acknowledgment flags payload includeMss).2 := by
  unfold TcpStack.emitSegment
  split
  · exact h
  · exact (h.modify fun c => by constructor <;> rfl).transmit

lemma Still.startRetransmitTimer : s.Still (s'.startRetransmitTimer slot) := by
  refine h.modify fun c => ?_
  split
  · constructor <;> rfl
  · exact .refl c

lemma Still.emitAck : s.Still (s'.emitAck slot) := by
  unfold TcpStack.emitAck
  dsimp only
  split
  · exact h.emitSegment.modify fun c => by constructor <;> rfl
  · exact h.emitSegment

lemma Still.queueDelayedAck {immediate : Bool} : s.Still (s'.queueDelayedAck slot immediate) := by
  unfold TcpStack.queueDelayedAck
  split
  · exact h.emitAck
  · exact h.modify fun c => by constructor <;> rfl

lemma Still.ephemeralLoop {attempts : ℕ} : s.Still (ephemeralLoop localIpv4 attempts s').2 := by
  induction attempts generalizing s' with
  | zero => exact h
  | succ attempts ih =>
    rw [TcpStack.ephemeralLoop]
    generalize (if s'.nextEphemeralPort < tcpEphemeralFirst then tcpEphemeralFirst
      else s'.nextEphemeralPort) = candidate
    generalize (if candidate = tcpEphemeralLast then tcpEphemeralFirst else candidate + 1) = next
    split
    · exact ⟨h.nextSerial, h.socket⟩
    · exact ih ⟨h.nextSerial, h.socket⟩

lemma Still.sendResetForSegment {source destination : UInt32}
    {incoming : TcpSegment} : s.Still (s'.sendResetForSegment source destination incoming) := by
  unfold TcpStack.sendResetForSegment
  split
  · exact h
  · dsimp only
    split
    · exact h.transmit
    · exact h.transmit

lemma Still.emitReset : s.Still (s'.emitReset slot) := h.emitSegment

/-! ### Acknowledgments and sending -/

/-- `apply_ack` leaves the received bytes alone. -/
lemma Still.applyAck : s.Still (s'.applyAck slot acknowledgment) := by
  unfold TcpStack.applyAck TcpStack.resetRetransmitAfterProgress
  split
  · exact h
  · refine (h.modify fun c => ?_).modify fun c => ?_
    · constructor <;> rfl
    · constructor <;> rfl

/-- The loop of `flush_send` leaves the received bytes alone. -/
lemma Still.flushLoop {rounds : ℕ} : s.Still (flushLoop slot rounds s') := by
  induction rounds generalizing s' with
  | zero => exact h
  | succ rounds ih =>
    rw [TcpStack.flushLoop]
    dsimp only
    split
    · split
      · exact ih (h.emitSegment.modify fun c => by constructor <;> rfl).startRetransmitTimer
      · exact h.emitSegment
    · exact h

lemma Still.flushPersist : s.Still (s'.flushPersist slot) := by
  unfold TcpStack.flushPersist
  dsimp only
  split
  · split
    · exact h.modify fun c => by constructor <;> rfl
    · exact h
  · split
    · exact h.modify fun c => by constructor <;> rfl
    · exact h

end

/-- Keeping the connections, and then standing still. -/
lemma Keeps.still (h : s.Keeps s') (h' : s'.Still s'') : s.Keeps s'' :=
  h.trans h'.keeps

/-- A part of a function that is only done in some case. -/
lemma Keeps.when {p : Prop} [Decidable p] {a b : TcpStack} (hb : s.Keeps a → s.Keeps b)
    (ha : s.Keeps a) : s.Keeps (if p then b else a) := by
  split
  · exact hb ha
  · exact ha

section

variable (h : s.Keeps s')
include h

/-- A FIN is sent from the states `ESTABLISHED` and `CLOSE_WAIT`; only the second is past the FIN of
the peer, and so is only what follows it. -/
lemma Keeps.flushFin : s.Keeps (s'.flushFin slot) := by
  unfold TcpStack.flushFin
  dsimp only
  split
  · rename_i hfin
    obtain ⟨-, -, -, -, hstate⟩ := hfin
    have hsent : s'.Still (s'.emitSegment slot (s'.sockets slot).sendNext
        (s'.sockets slot).receiveNext (tcpFin ||| tcpAck) [] false).2 := (Still.refl s').emitSegment
    split
    · refine ((h.still hsent).modify ?_).still (Still.refl _).startRetransmitTimer
      have hsame := (hsent.socket slot).state
      refine .of_state (by constructor <;> rfl) fun hstream hpast => hstream.fin ?_
      rw [hsame]
      rcases hstate with hstate | hstate
      · simp [hsame, hstate, TcpState.pastFin] at hpast
      · rw [hstate]
        rfl
    · exact h.still hsent
  · exact h

/-- `flush_send` keeps the connections. -/
lemma Keeps.flushSend : s.Keeps (s'.flushSend slot) := by
  unfold TcpStack.flushSend
  dsimp only
  refine Keeps.still (Keeps.flushFin ?_) (Still.refl _).flushPersist
  split
  · exact h.still (Still.refl s').flushLoop
  · exact h

/-! ### Changes of state -/

/-- A change to a state in front of the FIN keeps the connections. -/
lemma Keeps.setState
    (hf : { s'.sockets slot with state := (f (s'.sockets slot)).state }.Same (f (s'.sockets slot)))
    (hstate : (f (s'.sockets slot)).state.pastFin = false) : s.Keeps (s'.modify slot f) := by
  refine h.modify (.of_state hf fun _ hpast => ?_)
  rw [hstate] at hpast
  exact absurd hpast Bool.false_ne_true

/-- `release_connection` keeps the connections. -/
lemma Keeps.releaseConnection : s.Keeps (s'.releaseConnection slot) := by
  exact h.setState (by constructor <;> rfl) rfl

/-- `close_with_event` keeps the connections. -/
lemma Keeps.closeWithEvent : s.Keeps (s'.closeWithEvent slot event) :=
  h.releaseConnection.still (Still.refl _).notifySavedHandle

/-- `enter_time_wait` keeps the connections. -/
lemma Keeps.enterTimeWait
    (hfin : (s'.sockets slot).Stream → (s'.sockets slot).finAfter.isSome = true) :
    s.Keeps (s'.enterTimeWait slot) := by
  exact h.modify (.of_state (by constructor <;> rfl) fun hstream _ => hfin hstream)

end

lemma Still.queueAccept (h : s.Still s') {order nextOrder : UInt32} {parent : TcpSlot}
    {handle : UInt32} :
    s.Still ({ (s'.modify slot fun c => { c with acceptOrder := order }) with
      nextAcceptOrder := nextOrder }.notify parent .acceptReady handle) := by
  have horder : s.Still (s'.modify slot fun c => { c with acceptOrder := order }) :=
    h.modify fun c => by constructor <;> rfl
  exact ⟨horder.nextSerial, horder.socket⟩

/-- `connection_established` keeps the connections. -/
lemma Keeps.connectionEstablished (h : s.Keeps s') : s.Keeps (s'.connectionEstablished slot) := by
  unfold TcpStack.connectionEstablished
  dsimp only
  have hstate : s.Keeps (s'.modify slot fun c =>
      { c with
        state := .established
        txSequence := c.sendNext
        retransmitDeadlineMs := 0
        retransmitCount := 0 }) := h.setState (by constructor <;> rfl) rfl
  split
  · exact hstate.still (Still.refl _).queueAccept
  · exact hstate.still (Still.refl _).notify

/-- Establishing a connection keeps the connections. -/
lemma Keeps.establish (h : s.Keeps s') :
    s.Keeps (s'.establish slot segment) := by
  exact (h.still ((Still.refl s').modify fun c => by constructor <;> rfl)).connectionEstablished

/-- `process_syn_sent` keeps the connections. -/
lemma Keeps.processSynSent (h : s.Keeps s') :
    s.Keeps (s'.processSynSent slot segment) := by
  unfold TcpStack.processSynSent
  dsimp only
  split
  · split
    · exact h
    · exact h.still (Still.refl s').sendResetForSegment
  split
  · split
    · exact h.closeWithEvent
    · exact h
  split
  · exact h
  split
  · refine ((Keeps.connectionEstablished ?_).still (Still.refl _).emitAck).flushSend
    refine h.still (((Still.refl s').modify fun c => ?_).modify fun c => ?_)
    · constructor <;> rfl
    · constructor <;> rfl
  · refine (Keeps.setState (h.still ((Still.refl s').modify fun c => ?_)) ?_ rfl).still
      ((Still.refl _).emitSegment.modify fun c => ?_)
    · constructor <;> rfl
    · constructor <;> rfl
    · constructor <;> rfl

/-- `process_syn_received` keeps the connections. -/
lemma Keeps.processSynReceived (h : s.Keeps s') :
    s.Keeps (s'.processSynReceived slot segment) := by
  unfold TcpStack.processSynReceived
  dsimp only
  split
  · split
    · exact h.closeWithEvent
    · exact h
  split
  · split
    · exact h.establish.still (Still.refl _).emitAck
    · exact h.still (Still.refl s').emitSegment
  split
  · split
    · exact h.still (Still.refl s').sendResetForSegment
    · exact h
  · exact h.establish

/-! ### Payload and FIN -/

/-- Storing a segment out of order leaves the stream alone. -/
lemma Still.storeReordered (h : s.Still s') {rest : TcpRest} :
    s.Still (s'.storeReordered slot rest) := by
  unfold TcpStack.storeReordered
  dsimp only
  split
  · exact h
  split
  · exact h
  · exact h.modify fun c => by constructor <;> rfl

/-- `clear_reorder` leaves the stream alone. -/
lemma Still.clearReorder (h : s.Still s') : s.Still (s'.clearReorder slot) := by
  exact h.modify fun c => by constructor <;> rfl

section

variable (h : s.Keeps s')
include h

/-- `append_received` keeps the connections. -/
lemma Keeps.appendReceived : s.Keeps (s'.appendReceived slot bytes) := by
  refine h.modify
    { serial := rfl
      generation := rfl
      stream := fun hstream => ⟨?_, hstream.fin⟩ }
  dsimp only
  rw [hstream.buffered, List.append_assoc]

/-- The states that `consume_fin` enters are past the FIN. -/
lemma Keeps.consumeFinState
    (hfin : (s'.sockets slot).finAfter.isSome = true) : s.Keeps (s'.consumeFinState slot) := by
  unfold TcpStack.consumeFinState
  dsimp only
  split
  · refine (h.modify (.of_state ?_ fun _ _ => hfin)).still (Still.refl _).notify
    constructor <;> rfl
  · split
    · exact h.enterTimeWait fun _ => hfin
    · exact h.modify (.of_state (by constructor <;> rfl) fun _ _ => hfin)
  · exact h.enterTimeWait fun _ => hfin
  · exact h.still ((Still.refl s').modify fun c => by constructor <;> rfl)
  · exact h

/-- `consume_fin` keeps the connections. -/
lemma Keeps.consumeFin : s.Keeps (s'.consumeFin slot) := by
  have hsome : ∀ c : TcpConnection, (c.finAfter.or (some c.received.length)).isSome = true :=
    fun c => by simp
  refine (Keeps.consumeFinState ?_ ?_).still (Still.refl _).emitAck
  · exact h.modify
      { serial := rfl
        generation := rfl
        stream := fun hstream => ⟨hstream.buffered, fun _ => hsome _⟩ }
  · rw [modify_socket]
    exact hsome _

/-- `drain_reordered` keeps the connections. -/
lemma Keeps.drainReordered : s.Keeps (s'.drainReordered slot).2 := by
  unfold TcpStack.drainReordered
  dsimp only
  split
  · exact h
  split
  · exact h
  split
  · exact h.still (Still.refl s').clearReorder
  split
  · exact h
  · refine Keeps.still ?_ (Still.refl _).clearReorder
    split
    · exact h.appendReceived.consumeFin
    · exact h.appendReceived

/-- Delivering a segment keeps the connections. -/
lemma Keeps.deliver {rest : TcpRest} : s.Keeps (s'.deliver slot rest) := by
  have hdrained : s.Keeps ((s'.appendReceived slot rest.payload).drainReordered slot).2 :=
    h.appendReceived.drainReordered
  unfold TcpStack.deliver
  dsimp only
  generalize (s'.appendReceived slot rest.payload).drainReordered slot = drained at hdrained ⊢
  refine Keeps.when (fun hfin => hfin.still (Still.refl _).notify) ?_
  split
  · exact hdrained.consumeFin
  split
  · exact hdrained.still (Still.refl _).queueDelayedAck
  · exact hdrained

/-- `process_payload_and_fin` keeps the connections. -/
lemma Keeps.processPayloadAndFin : s.Keeps (s'.processPayloadAndFin slot segment) := by
  unfold TcpStack.processPayloadAndFin
  dsimp only
  split
  · exact h.still (Still.refl s').emitAck
  · split
    · exact h.still (Still.refl s').storeReordered.emitAck
    · exact h.deliver

end

/-! ### Segments of a connection -/

lemma Still.rejectSegment (h : s.Still s') :
    s.Still (s'.rejectSegment slot segment) := by
  unfold TcpStack.rejectSegment
  dsimp only
  split
  · exact (h.modify fun c => by constructor <;> rfl).emitAck
  split
  · exact h
  · exact h.emitAck

lemma Still.updateSendWindow (h : s.Still s') :
    s.Still (s'.updateSendWindow slot segment) := by
  unfold TcpStack.updateSendWindow
  dsimp only
  split
  · exact h.modify fun c => by constructor <;> rfl
  · exact h

/-- `CLOSING` is past the FIN, so `TIME_WAIT` may follow it. -/
lemma Keeps.processAcknowledged (h : s.Keeps s') :
    s.Keeps (s'.processAcknowledged slot segment) := by
  unfold TcpStack.processAcknowledged
  dsimp only
  generalize sequenceAfter (s'.sockets slot).sendUnacknowledged
    (s'.sockets slot).finSequence = acked
  split
  · exact h.closeWithEvent
  refine Keeps.when (fun hpayload => hpayload.flushSend) ?_
  refine Keeps.when (fun hstate => hstate.processPayloadAndFin) ?_
  split
  · exact h.setState (by constructor <;> rfl) rfl
  split
  · rename_i hclosing
    refine h.enterTimeWait fun hstream => hstream.fin ?_
    rw [hclosing.1]
    rfl
  · exact h

/-- `process_connected_segment` keeps the connections. -/
lemma Keeps.processConnectedSegment (h : s.Keeps s') :
    s.Keeps (s'.processConnectedSegment slot segment) := by
  unfold TcpStack.processConnectedSegment
  dsimp only
  split
  · exact h.still (Still.refl s').rejectSegment
  split
  · split
    · exact h.closeWithEvent
    · exact h.still (Still.refl s').emitAck
  split
  · exact h.still (Still.refl s').emitAck
  split
  · exact h
  split
  · exact h.still (Still.refl s').emitAck
  · refine Keeps.processAcknowledged (h.still (Still.updateSendWindow ?_))
    split
    · exact .refl s'
    · exact (Still.refl s').applyAck

/-- `process_segment` keeps the connections. -/
lemma Keeps.processSegment (h : s.Keeps s') :
    s.Keeps (s'.processSegment slot segment) := by
  unfold TcpStack.processSegment
  split
  · exact h.processSynSent
  · dsimp only
    split
    · exact h.processSynReceived.processConnectedSegment
    · exact h.processSynReceived
  · exact h.processConnectedSegment

/-! ### Timers -/

lemma Still.retransmitLoop (h : s.Still s') {rounds offset : ℕ} :
    s.Still (retransmitLoop slot rounds offset s') := by
  induction rounds generalizing s' offset with
  | zero => exact h
  | succ rounds ih =>
    rw [TcpStack.retransmitLoop]
    dsimp only
    split
    · exact ih h.emitSegment
    · exact h

lemma Still.retransmit (h : s.Still s') : s.Still (s'.retransmit slot) := by
  unfold TcpStack.retransmit
  dsimp only
  split
  · exact h.emitSegment
  split
  · exact h.emitSegment
  split
  · exact h.retransmitLoop.emitSegment
  · exact h.retransmitLoop

lemma Still.tickRetransmit (h : s.Still s') : s.Still (s'.tickRetransmit slot) := by
  exact h.retransmit.modify fun c => by constructor <;> rfl

lemma Still.tickPersist (h : s.Still s') : s.Still (s'.tickPersist slot) := by
  unfold TcpStack.tickPersist
  dsimp only
  split
  · split
    · exact h.emitSegment.modify fun c => by constructor <;> rfl
    · exact h.modify fun c => by constructor <;> rfl
  · exact h

/-- The timers of a connection keep the connections. -/
lemma Keeps.tickTimers (h : s.Keeps s') : s.Keeps (s'.tickTimers slot) := by
  unfold TcpStack.tickTimers
  dsimp only
  split
  · exact h.closeWithEvent
  refine Keeps.when (fun htimers => htimers.flushSend) (Keeps.still ?_ (Still.refl _).tickPersist)
  exact Keeps.when (fun h => h.still (Still.refl _).tickRetransmit) h

/-- The round of `ns_tcp_tick` for one slot keeps the connections. -/
lemma Keeps.tickSlot (h : s.Keeps s') : s.Keeps (tickSlot s' slot) := by
  unfold TcpStack.tickSlot
  dsimp only
  split
  · exact h
  split
  · exact h.closeWithEvent
  split
  · exact (h.still (Still.refl s').emitAck).tickTimers
  · exact h.tickTimers

/-- A loop over the slots keeps the connections if each round does. -/
lemma Keeps.foldl {f : TcpStack → TcpSlot → TcpStack}
    (hf : ∀ {s' : TcpStack} {slot : TcpSlot}, s.Keeps s' → s.Keeps (f s' slot)) (h : s.Keeps s')
    (slots : List TcpSlot) : s.Keeps (slots.foldl f s') := by
  induction slots generalizing s' with
  | nil => exact h
  | cons slot slots ih => exact ih (hf h)

/-- `ns_tcp_tick` keeps the connections. -/
lemma keeps_nsTcpTick (s : TcpStack) (nowMs : UInt64) : s.Keeps (s.nsTcpTick nowMs) := by
  have hstill : s.Still { s with nowMs := nowMs } := ⟨rfl, fun _ => .refl _⟩
  unfold nsTcpTick
  generalize List.finRange nsTcpMaxSockets = slots
  exact Keeps.foldl Keeps.tickSlot hstill.keeps slots

/-! ### Calls on a connection -/

section

variable (s : TcpStack) (handle : UInt32)
include handle

/-- `ns_tcp_send` keeps the connections. -/
lemma keeps_nsTcpSend (data : List UInt8) : s.Keeps (s.nsTcpSend handle data).2 := by
  unfold nsTcpSend
  split
  · exact .refl s
  dsimp only
  split
  · exact .refl s
  split
  · exact .refl s
  · refine Keeps.flushSend (Still.keeps ((Still.refl s).modify fun c => ?_))
    constructor <;> rfl

/-- `ns_tcp_abort` keeps the connections. -/
lemma keeps_nsTcpAbort : s.Keeps (s.nsTcpAbort handle).2 := by
  unfold nsTcpAbort
  split
  · exact .refl s
  · refine (Keeps.releaseConnection ?_).still (Still.refl _).notifySavedHandle
    exact Keeps.when (fun h => h.still (Still.refl _).emitReset) (.refl s)

/-- `ns_tcp_accept` keeps the connections. -/
lemma keeps_nsTcpAccept : s.Keeps (s.nsTcpAccept handle).2 := by
  unfold nsTcpAccept
  split
  · exact .refl s
  split
  · exact .refl s
  · dsimp only
    refine (Keeps.refl s).modify ?_
    exact ⟨rfl, rfl, fun hstream => ⟨hstream.buffered, hstream.fin⟩⟩

end

/-- Closing a child of a listener keeps the connections. -/
lemma Keeps.closeChild {listener : TcpSlot} (h : s.Keeps s') :
    s.Keeps (closeChild listener s' slot) := by
  unfold TcpStack.closeChild
  dsimp only
  split
  · exact h
  · exact (h.still (Still.refl s').emitReset).closeWithEvent

/-- `ns_tcp_close` keeps the connections. -/
lemma keeps_nsTcpClose (s : TcpStack) (handle : UInt32) : s.Keeps (s.nsTcpClose handle).2 := by
  unfold nsTcpClose
  split
  · exact .refl s
  dsimp only
  split
  · generalize List.finRange nsTcpMaxSockets = slots
    exact (Keeps.foldl Keeps.closeChild (.refl s) slots).closeWithEvent
  split
  · exact keeps_nsTcpAbort s handle
  split
  · exact .refl s
  · refine Keeps.flushSend (Still.keeps ((Still.refl s).modify fun c => ?_))
    constructor <;> rfl

/-- `ns_tcp_receive` hands over the front of the buffer. -/
lemma keeps_nsTcpReceive (s : TcpStack) (handle : UInt32) (capacity : ℕ) :
    s.Keeps (s.nsTcpReceive handle capacity).2 := by
  unfold nsTcpReceive
  split
  · exact .refl s
  rename_i slot hslot
  dsimp only
  split
  · exact .refl s
  have htaken : s.Keeps (s.modify slot fun c =>
      { c with
        rxBuffer := c.rxBuffer.drop capacity
        returned := c.returned ++ (s.sockets slot).rxBuffer.take capacity }) := by
    refine (Keeps.refl s).modify ⟨rfl, rfl, fun hstream => ⟨?_, hstream.fin⟩⟩
    rw [hstream.buffered, List.append_assoc, List.take_append_drop]
  split
  · exact htaken.still (Still.refl _).emitAck
  · exact htaken

/-! ### New connections -/

/-- A connection with a new number has been put into a slot. -/
structure Opens (s s' : TcpStack) (slot : TcpSlot) : Prop where
  nextSerial : s'.nextSerial = s.nextSerial + 1
  serial : (s'.sockets slot).serial = s.nextSerial
  generation : (s'.sockets slot).generation = nextTcpGeneration (s.sockets slot).generation
  stream : (s'.sockets slot).Stream
  other : ∀ other, other ≠ slot → (s.sockets other).Same (s'.sockets other)

/-- Opening a connection moves the stack. -/
lemma Opens.moves (h : s.Opens s' slot) : s.Moves s' := by
  refine ⟨fun other => ?_, fun other => ?_⟩ <;> by_cases hslot : other = slot
  · rw [hslot]
    exact .inr h.generation
  · have hsame := h.other other hslot
    exact .inl ⟨hsame.generation, hsame.serial⟩
  · rw [hslot]
    exact fun _ => h.stream
  · exact (h.other other hslot).evolves.stream

/-- Opening a connection, and then standing still. -/
lemma Opens.still (h : s.Opens s' slot) (h' : s'.Still s'') :
    s.Opens s'' slot where
  nextSerial := h'.nextSerial.trans h.nextSerial
  serial := (h'.socket slot).serial.trans h.serial
  generation := (h'.socket slot).generation.trans h.generation
  stream := (h'.socket slot).evolves.stream h.stream
  other other hne := (h.other other hne).trans (h'.socket other)

/-- Standing still, and then opening a connection. -/
lemma Still.opens (h : s.Still s') (h' : s'.Opens s'' slot) :
    s.Opens s'' slot where
  nextSerial := by rw [h'.nextSerial, h.nextSerial]
  serial := h'.serial.trans h.nextSerial
  generation := by rw [h'.generation, (h.socket slot).generation]
  stream := h'.stream
  other other hne := (h.socket other).trans (h'.other other hne)

/-- A new connection may still be given its endpoints and its state. -/
lemma Opens.modify (h : s.Opens s' slot)
    (hname : ∀ c : TcpConnection, (f c).serial = c.serial ∧ (f c).generation = c.generation)
    (hstream : ∀ c : TcpConnection, c.Stream → (f c).Stream) :
    s.Opens (s'.modify slot f) slot where
  nextSerial := h.nextSerial
  serial := by rw [modify_socket, (hname _).1, h.serial]
  generation := by rw [modify_socket, (hname _).2, h.generation]
  stream := by rw [modify_socket]; exact hstream _ h.stream
  other other hne := by rw [modify_socket_of_ne _ hne]; exact h.other other hne

/-- `allocate_connection` opens a connection in a free slot. -/
lemma allocateConnection_opens (h : s.allocateConnection = some (slot, s')) : s.Opens s' slot := by
  unfold allocateConnection at h
  split at h
  · exact absurd h.symm (Option.some_ne_none _)
  · simp only [Option.some.injEq, Prod.mk.injEq] at h
    obtain ⟨rfl, rfl⟩ := h
    exact
      { nextSerial := rfl
        serial := by simp only [update_self]
        generation := by simp only [update_self]; rfl
        stream := by
          simp only [update_self]
          exact ⟨rfl, fun hpast => absurd hpast Bool.false_ne_true⟩
        other := fun other hne => by
          simp only [update_of_ne hne]
          exact .refl _ }

/-- `ns_tcp_listen` does nothing, or it puts a listener into a free slot. -/
lemma moves_nsTcpListen (s : TcpStack) (localIpv4 : UInt32) (localPort : UInt16)
    (backlog : UInt8) : s.Moves (s.nsTcpListen localIpv4 localPort backlog).2 := by
  unfold nsTcpListen
  split
  · exact (Keeps.refl s).moves
  split
  · exact (Keeps.refl s).moves
  split
  · exact (Keeps.refl s).moves
  · rename_i slot s' halloc
    dsimp only
    refine ((allocateConnection_opens halloc).modify (fun _ => ?_) fun c hstream => ?_).moves
    · exact ⟨rfl, rfl⟩
    · exact ⟨hstream.buffered, fun hpast => absurd hpast Bool.false_ne_true⟩

lemma Still.newInitialSequence (h : s.Still s') {remoteIpv4 : UInt32}
    {localPort remotePort : UInt16} :
    s.Still (s'.newInitialSequence localIpv4 remoteIpv4 localPort remotePort).2 := by
  unfold TcpStack.newInitialSequence
  dsimp only
  exact ⟨h.nextSerial, h.socket⟩

/-- Filling in an active open. -/
lemma Opens.openActive (h : s.Opens s' slot) {remoteIpv4 : UInt32} {localPort remotePort : UInt16} :
    s.Opens (s'.openActive slot localIpv4 localPort remoteIpv4 remotePort) slot := by
  unfold TcpStack.openActive
  refine (h.still (Still.refl s').newInitialSequence).modify (fun _ => ⟨rfl, rfl⟩)
    fun c hstream => ?_
  exact ⟨hstream.buffered, fun hpast => absurd hpast Bool.false_ne_true⟩

/-- `ns_tcp_connect` fails, or it puts a connection to the peer into a free slot. -/
lemma moves_nsTcpConnect (s : TcpStack) (localIpv4 : UInt32) (localPort : UInt16)
    (remoteIpv4 : UInt32) (remotePort : UInt16) :
    s.Moves (s.nsTcpConnect localIpv4 localPort remoteIpv4 remotePort).2 := by
  unfold nsTcpConnect
  dsimp only
  split
  · exact (Keeps.refl s).moves
  have hchosen : s.Still
      (if localPort = 0 then s.allocateEphemeralPort localIpv4 else (localPort, s)).2 := by
    split
    · exact (Still.refl s).ephemeralLoop
    · exact .refl s
  generalize (if localPort = 0 then s.allocateEphemeralPort localIpv4 else (localPort, s)) = chosen
    at hchosen ⊢
  split
  · exact hchosen.keeps.moves
  split
  · exact hchosen.keeps.moves
  split
  · exact hchosen.keeps.moves
  rename_i slot s1 halloc
  have hopen : s.Opens (s1.openActive slot localIpv4 chosen.1 remoteIpv4 remotePort) slot :=
    (hchosen.opens (allocateConnection_opens halloc)).openActive
  generalize s1.openActive slot localIpv4 chosen.1 remoteIpv4 remotePort = s2 at hopen ⊢
  have hsent : s2.Still (s2.emitSegment slot (s2.sockets slot).initialSendSequence 0 tcpSyn []
      true).2 := (Still.refl s2).emitSegment
  split
  -- the SYN could not be sent, and the slot is given back
  · exact (hopen.still hsent).moves.keeps (Keeps.refl _).releaseConnection
  · exact (hopen.still hsent.startRetransmitTimer).moves

/-- Filling in a passive open. -/
lemma Opens.openPassive (h : s.Opens s' slot) {listener : TcpSlot} {source destination : UInt32} :
    s.Opens (s'.openPassive slot listener source destination segment) slot := by
  unfold TcpStack.openPassive
  refine (h.still (Still.refl s').newInitialSequence).modify (fun _ => ⟨rfl, rfl⟩)
    fun c hstream => ?_
  exact ⟨hstream.buffered, fun hpast => absurd hpast Bool.false_ne_true⟩

/-- A SYN for a listener is refused, or it puts a connection into a free slot. -/
lemma Still.handleListenSyn (h : s.Still s') (listener : TcpSlot) (source destination : UInt32)
    (segment : TcpSegment) : s.Moves (s'.handleListenSyn listener source destination segment) := by
  have hreset : s.Moves (s'.sendResetForSegment source destination segment) :=
    h.sendResetForSegment.keeps.moves
  unfold TcpStack.handleListenSyn
  split
  · exact hreset
  split
  · exact hreset
  split
  · exact hreset
  · rename_i child s'' halloc
    have hopen := h.opens (allocateConnection_opens halloc)
    exact (hopen.openPassive.still (Still.refl _).emitSegment.startRetransmitTimer).moves

/-- `ns_tcp_input` moves the stack. -/
lemma moves_nsTcpInput (s : TcpStack) (source destination : UInt32) (wire : List UInt8)
    (nowMs : UInt64) : s.Moves (s.nsTcpInput source destination wire nowMs) := by
  have hclock : s.Still { s with nowMs := nowMs } := ⟨rfl, fun _ => .refl _⟩
  unfold nsTcpInput
  dsimp only
  generalize { s with nowMs := nowMs } = s' at hclock ⊢
  split
  · exact hclock.keeps.moves
  split
  · exact hclock.keeps.moves
  split
  · exact hclock.keeps.processSegment.moves
  split
  · exact hclock.handleListenSyn ..
  · exact hclock.sendResetForSegment.keeps.moves

end TcpStack

end Northstar
