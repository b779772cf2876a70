import Northstar.Net.Dhcp

/-! # TCP

A model of `net_tcp.c`: the connections in their slots, the segments on the wire, the timers. A
buffer with its length is a list. Whether a segment can be transmitted is decided from outside, for
each transmission in turn (`channel`). The event callback only writes what the owner of the stack
keeps beside it, so the events are collected in order (`notices`).

A few fields are of the model alone: connections are numbered in the order in which they are
allocated, and each keeps the bytes that it has received in order, those that it has returned to its
user, and how many it had received when the FIN of its peer came. -/

namespace Northstar

abbrev tcpFin : UInt8 := 0x01
abbrev tcpSyn : UInt8 := 0x02
abbrev tcpRst : UInt8 := 0x04
abbrev tcpPsh : UInt8 := 0x08
abbrev tcpAck : UInt8 := 0x10

abbrev tcpHeaderLength : ℕ := 20
abbrev tcpSynHeaderLength : ℕ := 24
abbrev tcpNoParent : UInt8 := 0xff
abbrev tcpEphemeralFirst : UInt16 := 49152
abbrev tcpEphemeralLast : UInt16 := 65535

abbrev nsTcpMaxSockets : ℕ := 16
abbrev nsTcpListenBacklogMax : UInt8 := 8
abbrev nsTcpSendCapacity : ℕ := 4096
abbrev nsTcpRecvCapacity : ℕ := 4096
abbrev nsTcpReorderCapacity : ℕ := 1200
abbrev nsTcpLocalMss : UInt16 := 1200
abbrev nsTcpInitialRtoMs : UInt32 := 250
abbrev nsTcpMaxRtoMs : UInt32 := 4000
abbrev nsTcpRetryLimit : UInt8 := 6
abbrev nsTcpDelayedAckMs : UInt64 := 40
abbrev nsTcpTimeWaitMs : UInt64 := 30000
abbrev nsTcpPersistInitialMs : UInt32 := 500
abbrev nsTcpPersistMaxMs : UInt32 := 4000
abbrev nsTcpHandleInvalid : UInt32 := 0xffffffff

/-- `enum ns_tcp_error`, without `NS_TCP_OK`. -/
inductive TcpError
  | argument | noSpace | addressInUse | badHandle | badState | wouldBlock | transmit
  deriving DecidableEq, Repr

/-- `enum ns_tcp_state`. -/
inductive TcpState
  | closed | listen | synSent | synReceived | established | finWait1 | finWait2 | closeWait
  | closing | lastAck | timeWait
  deriving DecidableEq, Repr

/-- `enum ns_tcp_event`. -/
inductive TcpEvent
  | connected | acceptReady | data | peerClosed | reset | timeout | closed
  deriving DecidableEq, Repr

/-- `struct ns_tcp_connection`. -/
structure TcpConnection where
  state : TcpState
  generation : UInt16
  parentSlot : UInt8
  backlog : UInt8
  accepted : Bool
  activeOpen : Bool
  wantFin : Bool
  finSent : Bool
  ackPending : Bool
  reorderFin : Bool
  localIpv4 : UInt32
  remoteIpv4 : UInt32
  localPort : UInt16
  remotePort : UInt16
  initialSendSequence : UInt32
  initialReceiveSequence : UInt32
  sendUnacknowledged : UInt32
  sendNext : UInt32
  sendWindow : UInt32
  sendWindowSequence : UInt32
  sendWindowAck : UInt32
  receiveNext : UInt32
  receiveWindow : UInt32
  txSequence : UInt32
  finSequence : UInt32
  reorderSequence : UInt32
  peerMss : UInt16
  txSent : ℕ
  retransmitCount : UInt8
  retransmitTimeoutMs : UInt32
  persistTimeoutMs : UInt32
  retransmitDeadlineMs : UInt64
  persistDeadlineMs : UInt64
  delayedAckDeadlineMs : UInt64
  timeWaitDeadlineMs : UInt64
  acceptOrder : UInt32
  txBuffer : List UInt8
  rxBuffer : List UInt8
  reorderBuffer : List UInt8
  serial : ℕ
  received : List UInt8
  returned : List UInt8
  finAfter : Option ℕ

/-- A connection in memory that has been zeroed. -/
def TcpConnection.zero : TcpConnection :=
  { state := .closed, generation := 0, parentSlot := 0, backlog := 0, accepted := false
    activeOpen := false, wantFin := false, finSent := false, ackPending := false
    reorderFin := false, localIpv4 := 0, remoteIpv4 := 0, localPort := 0, remotePort := 0
    initialSendSequence := 0, initialReceiveSequence := 0, sendUnacknowledged := 0, sendNext := 0
    sendWindow := 0, sendWindowSequence := 0, sendWindowAck := 0, receiveNext := 0
    receiveWindow := 0, txSequence := 0, finSequence := 0, reorderSequence := 0, peerMss := 0
    txSent := 0, retransmitCount := 0, retransmitTimeoutMs := 0, persistTimeoutMs := 0
    retransmitDeadlineMs := 0, persistDeadlineMs := 0, delayedAckDeadlineMs := 0
    timeWaitDeadlineMs := 0, acceptOrder := 0, txBuffer := [], rxBuffer := [], reorderBuffer := []
    serial := 0, received := [], returned := [], finAfter := none }

/-- A call of the event callback. -/
structure TcpNotice where
  handle : UInt32
  event : TcpEvent
  value : UInt32
  deriving DecidableEq, Repr

/-- A segment handed to the network. -/
structure TcpPacket where
  source : UInt32
  destination : UInt32
  wire : List UInt8
  deriving DecidableEq, Repr

/-- The slots of the connections. -/
abbrev TcpSlot : Type := Fin nsTcpMaxSockets

/-- `struct ns_tcp_stack`. -/
structure TcpStack where
  sockets : TcpSlot → TcpConnection
  nowMs : UInt64
  nextInitialSequence : UInt32
  nextAcceptOrder : UInt32
  nextEphemeralPort : UInt16
  channel : ℕ → Bool
  transmissions : ℕ
  emitted : List TcpPacket
  notices : List TcpNotice
  nextSerial : ℕ

/-! ### Bytes and sequence numbers -/

/-- `read_be16`. -/
def readBe16 (bytes : List UInt8) (offset : ℕ) : UInt16 :=
  (bytes.getD offset 0).toUInt16 <<< 8 ||| (bytes.getD (offset + 1) 0).toUInt16

/-- `write_be16`. -/
def beBytes16 (value : UInt16) : List UInt8 := [(value >>> 8).toUInt8, value.toUInt8]

/-- `sequence_before`. -/
def sequenceBefore (a b : UInt32) : Bool := decide (0x80000000 ≤ a - b)

/-- `sequence_after`. -/
def sequenceAfter (a b : UInt32) : Bool := decide (a - b ≠ 0) && decide (a - b < 0x80000000)

/-- `sequence_at_or_before`. -/
def sequenceAtOrBefore (a b : UInt32) : Bool := decide (a - b = 0) || sequenceBefore a b

/-- `checksum_add`. -/
def checksumAdd (sum word : ℕ) : ℕ := (sum + word) % 2 ^ 16 + (sum + word) / 2 ^ 16

/-- The loop over the words of a segment, the last of which may be half a one. -/
def checksumWords : List UInt8 → ℕ → ℕ
  | [], sum => sum
  | [x], sum => checksumAdd sum (x.toNat * 2 ^ 8)
  | x :: y :: rest, sum => checksumWords rest (checksumAdd sum (x.toNat * 2 ^ 8 + y.toNat))

/-- The last loop of `ns_tcp_checksum_ipv4`. -/
def foldCarry : ℕ → ℕ → ℕ
  | 0, sum => sum
  | rounds + 1, sum =>
    if sum / 2 ^ 16 = 0 then sum else foldCarry rounds (sum % 2 ^ 16 + sum / 2 ^ 16)

/-- `ns_tcp_checksum_ipv4`. The carry of a sum of words is gone after two rounds. -/
def nsTcpChecksumIpv4 (source destination : UInt32) (segment : List UInt8) : UInt16 :=
  if segment.length > 65535 then 0xffff
  else
    let sum := [source.toNat / 2 ^ 16, source.toNat % 2 ^ 16, destination.toNat / 2 ^ 16,
      destination.toNat % 2 ^ 16, 6, segment.length].foldl checksumAdd 0
    ~~~(UInt16.ofNat (foldCarry 2 (checksumWords segment sum)))

/-! ### Handles and slots -/

/-- `socket_handle`. -/
def socketHandle (generation : UInt16) (slot : TcpSlot) : UInt32 :=
  generation.toUInt32 <<< 8 ||| UInt32.ofNat slot

variable (s : TcpStack) (slot : TcpSlot)

namespace TcpStack

/-- Change the connection in a slot. -/
def modify (f : TcpConnection → TcpConnection) : TcpStack :=
  { s with sockets := Function.update s.sockets slot (f (s.sockets slot)) }

/-- `connection_from_handle`. -/
def connectionFromHandle (handle : UInt32) : Option TcpSlot :=
  if handle = nsTcpHandleInvalid then none
  else if h : (handle &&& 0xff).toNat < nsTcpMaxSockets then
    let slot : TcpSlot := ⟨(handle &&& 0xff).toNat, h⟩
    if handle >>> 24 ≠ 0 then none
    else if (s.sockets slot).generation ≠ (handle >>> 8).toUInt16 ∨
        (s.sockets slot).state = .closed then none
    else some slot
  else none

/-- `notify_saved_handle`. -/
def notifySavedHandle (handle : UInt32) (event : TcpEvent) (value : UInt32) : TcpStack :=
  { s with notices := s.notices ++ [⟨handle, event, value⟩] }

/-- `notify`. -/
def notify (event : TcpEvent) (value : UInt32) : TcpStack :=
  s.notifySavedHandle (socketHandle (s.sockets slot).generation slot) event value

/-- `allocate_connection`: the slot, and the stack with a new connection in it. -/
def allocateConnection : Option (TcpSlot × TcpStack) :=
  match (List.finRange nsTcpMaxSockets).find? fun slot => (s.sockets slot).state = .closed with
  | none => none
  | some slot =>
    let generation := (s.sockets slot).generation + 1
    let connection :=
      { TcpConnection.zero with
        generation := if generation = 0 then 1 else generation
        parentSlot := tcpNoParent
        peerMss := nsTcpLocalMss
        receiveWindow := UInt32.ofNat nsTcpRecvCapacity
        retransmitTimeoutMs := nsTcpInitialRtoMs
        persistTimeoutMs := nsTcpPersistInitialMs
        serial := s.nextSerial }
    some (slot,
      { s with
        sockets := Function.update s.sockets slot connection
        nextSerial := s.nextSerial + 1 })

/-- `release_connection`. -/
def releaseConnection : TcpStack :=
  s.modify slot fun c =>
    { c with
      state := .closed
      ackPending := false
      retransmitDeadlineMs := 0
      persistDeadlineMs := 0
      delayedAckDeadlineMs := 0
      timeWaitDeadlineMs := 0 }

end TcpStack

/-- `current_receive_window`. -/
def TcpConnection.currentReceiveWindow (c : TcpConnection) : ℕ :=
  nsTcpRecvCapacity - c.rxBuffer.length

/-! ### Transmission -/

/-- The wire format of a segment, with its checksum. -/
def segmentWire (c : TcpConnection) (sequence acknowledgment : UInt32) (flags : UInt8)
    (payload : List UInt8) (includeMss : Bool) : List UInt8 :=
  let headerLength := if includeMss then tcpSynHeaderLength else tcpHeaderLength
  let front := beBytes16 c.localPort ++ beBytes16 c.remotePort ++ beBytes32 sequence ++
    beBytes32 acknowledgment ++ [UInt8.ofNat (headerLength / 4 * 16), flags] ++
    beBytes16 (UInt16.ofNat c.currentReceiveWindow)
  let rest := [0, 0] ++ (if includeMss then [2, 4] ++ beBytes16 nsTcpLocalMss else []) ++ payload
  let checksum := nsTcpChecksumIpv4 c.localIpv4 c.remoteIpv4 (front ++ [0, 0] ++ rest)
  front ++ beBytes16 (if checksum = 0 then 0xffff else checksum) ++ rest

namespace TcpStack

/-- The part of `emit_segment` that concerns the network: whether the segment is sent. -/
def transmit (c : TcpConnection) (sequence acknowledgment : UInt32) (flags : UInt8)
    (payload : List UInt8) (includeMss : Bool) : Bool × TcpStack :=
  let packet : TcpPacket :=
    ⟨c.localIpv4, c.remoteIpv4, segmentWire c sequence acknowledgment flags payload includeMss⟩
  (s.channel s.transmissions,
    { s with
      transmissions := s.transmissions + 1
      emitted := if s.channel s.transmissions then s.emitted ++ [packet] else s.emitted })

/-- `emit_segment` for the connection in a slot. -/
def emitSegment (sequence acknowledgment : UInt32) (flags : UInt8)
    (payload : List UInt8) (includeMss : Bool) : Bool × TcpStack :=
  if payload.length > nsTcpLocalMss.toNat then (false, s)
  else
    let s := s.modify slot fun c =>
      { c with receiveWindow := UInt32.ofNat c.currentReceiveWindow }
    s.transmit (s.sockets slot) sequence acknowledgment flags payload includeMss

/-- `start_retransmit_timer`. -/
def startRetransmitTimer : TcpStack :=
  s.modify slot fun c =>
    if c.retransmitDeadlineMs = 0 then
      { c with
        retransmitTimeoutMs := nsTcpInitialRtoMs
        retransmitCount := 0
        retransmitDeadlineMs := s.nowMs + nsTcpInitialRtoMs.toUInt64 }
    else c

/-- `emit_ack`. -/
def emitAck : TcpStack :=
  let c := s.sockets slot
  let sent := s.emitSegment slot c.sendNext c.receiveNext tcpAck [] false
  if sent.1 then sent.2.modify slot fun c =>
    { c with ackPending := false, delayedAckDeadlineMs := 0 }
  else sent.2

/-- `queue_delayed_ack`. -/
def queueDelayedAck (immediate : Bool) : TcpStack :=
  if immediate || (s.sockets slot).ackPending then s.emitAck slot
  else
    s.modify slot fun c =>
      { c with ackPending := true, delayedAckDeadlineMs := s.nowMs + nsTcpDelayedAckMs }

/-- `new_initial_sequence`. -/
def newInitialSequence (localIpv4 remoteIpv4 : UInt32)
    (localPort remotePort : UInt16) : UInt32 × TcpStack :=
  let mixed : UInt32 := localIpv4 + (remoteIpv4 <<< 7) + (localPort.toUInt32 <<< 16) +
    remotePort.toUInt32
  let value : UInt32 := (s.nextInitialSequence * (1664525 : UInt32) + 1013904223) ^^^ mixed
  (value, { s with nextInitialSequence := value + 64000 })

/-- `local_port_in_use`. -/
def localPortInUse (localIpv4 : UInt32) (localPort : UInt16) : Bool :=
  (List.finRange nsTcpMaxSockets).any fun slot =>
    let c := s.sockets slot
    decide (c.state ≠ .closed) && c.localPort == localPort &&
      (c.localIpv4 == 0 || localIpv4 == 0 || c.localIpv4 == localIpv4)

/-- The loop of `allocate_ephemeral_port`. -/
def ephemeralLoop (localIpv4 : UInt32) : ℕ → TcpStack → UInt16 × TcpStack
  | 0, s => (0, s)
  | attempts + 1, s =>
    let candidate :=
      if s.nextEphemeralPort < tcpEphemeralFirst then tcpEphemeralFirst else s.nextEphemeralPort
    let s :=
      { s with
        nextEphemeralPort :=
          if candidate = tcpEphemeralLast then tcpEphemeralFirst else candidate + 1 }
    if s.localPortInUse localIpv4 candidate = false then (candidate, s)
    else ephemeralLoop localIpv4 attempts s

/-- `allocate_ephemeral_port`. -/
def allocateEphemeralPort (localIpv4 : UInt32) : UInt16 × TcpStack :=
  ephemeralLoop localIpv4 (tcpEphemeralLast.toNat - tcpEphemeralFirst.toNat + 1) s

/-- `ns_tcp_init`. -/
def nsTcpInit (channel : ℕ → Bool) (initialSequenceSeed : UInt32) (nowMs : UInt64) : TcpStack :=
  { sockets := fun _ => { TcpConnection.zero with parentSlot := tcpNoParent }
    nowMs := nowMs
    nextInitialSequence := initialSequenceSeed
    nextAcceptOrder := 1
    nextEphemeralPort := tcpEphemeralFirst
    channel := channel
    transmissions := 0
    emitted := []
    notices := []
    nextSerial := 1 }

/-- `ns_tcp_listen`: the handle, and the stack after it. -/
def nsTcpListen (localIpv4 : UInt32) (localPort : UInt16) (backlog : UInt8) :
    Except TcpError UInt32 × TcpStack :=
  if localPort = 0 ∨ backlog = 0 ∨ backlog > nsTcpListenBacklogMax then (.error .argument, s)
  else if (List.finRange nsTcpMaxSockets).any fun slot =>
      let other := s.sockets slot
      decide (other.state = .listen) && other.localPort == localPort &&
        (other.localIpv4 == 0 || localIpv4 == 0 || other.localIpv4 == localIpv4) then
    (.error .addressInUse, s)
  else match s.allocateConnection with
    | none => (.error .noSpace, s)
    | some (slot, s) =>
      let s := s.modify slot fun c =>
        { c with
          state := .listen
          localIpv4 := localIpv4
          localPort := localPort
          backlog := backlog }
      (.ok (socketHandle (s.sockets slot).generation slot), s)

/-- The new connection of `ns_tcp_connect`. -/
def openActive (localIpv4 : UInt32) (localPort : UInt16)
    (remoteIpv4 : UInt32) (remotePort : UInt16) : TcpStack :=
  let initial := s.newInitialSequence localIpv4 remoteIpv4 localPort remotePort
  initial.2.modify slot fun c =>
    { c with
      state := .synSent
      activeOpen := true
      localIpv4 := localIpv4
      remoteIpv4 := remoteIpv4
      localPort := localPort
      remotePort := remotePort
      initialSendSequence := initial.1
      sendUnacknowledged := initial.1
      sendNext := initial.1 + 1
      txSequence := initial.1 + 1
      sendWindow := 1 }

/-- `ns_tcp_connect`: the handle, and the stack after it. -/
def nsTcpConnect (localIpv4 : UInt32) (localPort : UInt16) (remoteIpv4 : UInt32)
    (remotePort : UInt16) : Except TcpError UInt32 × TcpStack :=
  if localIpv4 = 0 ∨ remoteIpv4 = 0 ∨ remotePort = 0 then (.error .argument, s)
  else
    let chosen := if localPort = 0 then s.allocateEphemeralPort localIpv4 else (localPort, s)
    if chosen.1 = 0 then (.error .noSpace, chosen.2)
    else if (List.finRange nsTcpMaxSockets).any fun slot =>
        let other := chosen.2.sockets slot
        decide (other.state ≠ .closed) && other.localIpv4 == localIpv4 &&
          other.localPort == chosen.1 && other.remoteIpv4 == remoteIpv4 &&
          other.remotePort == remotePort then (.error .addressInUse, chosen.2)
    else match chosen.2.allocateConnection with
      | none => (.error .noSpace, chosen.2)
      | some (slot, s) =>
        let s := s.openActive slot localIpv4 chosen.1 remoteIpv4 remotePort
        let sent := s.emitSegment slot (s.sockets slot).initialSendSequence 0 tcpSyn [] true
        if sent.1 = false then (.error .transmit, sent.2.releaseConnection slot)
        else
          (.ok (socketHandle (sent.2.sockets slot).generation slot),
            sent.2.startRetransmitTimer slot)

end TcpStack

/-! ### Segments -/

/-- `struct tcp_segment`. -/
structure TcpSegment where
  sourcePort : UInt16
  destinationPort : UInt16
  sequence : UInt32
  acknowledgment : UInt32
  window : UInt16
  flags : UInt8
  payload : List UInt8
  mss : UInt16
  deriving DecidableEq, Repr

variable (segment : TcpSegment)

/-- The segment has a flag. -/
def TcpSegment.has (flag : UInt8) : Bool := segment.flags &&& flag != 0

/-- The loop of `parse_options`. Every round takes at least one byte. -/
def parseTcpOptions : ℕ → List UInt8 → UInt16 → Option UInt16
  | 0, _, mss => some mss
  | rounds + 1, options, mss =>
    match options with
    | [] => some mss
    | kind :: rest =>
      if kind = 0 then some mss
      else if kind = 1 then parseTcpOptions rounds rest mss
      else match rest with
        | [] => none
        | length :: _ =>
          if length < 2 ∨ length.toNat > options.length then none
          else if kind = 2 then
            if length ≠ 4 then none
            else if readBe16 options 2 = 0 then none
            else parseTcpOptions rounds (options.drop length.toNat)
              (if readBe16 options 2 < nsTcpLocalMss then readBe16 options 2 else nsTcpLocalMss)
          else parseTcpOptions rounds (options.drop length.toNat) mss

/-- `parse_segment`. -/
def parseSegment (wire : List UInt8) : Option TcpSegment :=
  let headerLength := (wire.getD 12 0 >>> 4).toNat * 4
  if wire.length < tcpHeaderLength ∨ wire.length > 65535 ∨ wire.getD 12 0 &&& 0x0f ≠ 0 then none
  else if headerLength < tcpHeaderLength ∨ headerLength > wire.length then none
  else if readBe16 wire 0 = 0 ∨ readBe16 wire 2 = 0 then none
  else
    let options := (wire.drop tcpHeaderLength).take (headerLength - tcpHeaderLength)
    (parseTcpOptions options.length options nsTcpLocalMss).map fun mss =>
      { sourcePort := readBe16 wire 0
        destinationPort := readBe16 wire 2
        sequence := readBe32 wire 4
        acknowledgment := readBe32 wire 8
        window := readBe16 wire 14
        flags := wire.getD 13 0
        payload := wire.drop headerLength
        mss := mss }

/-- `segment_sequence_length`. -/
def TcpSegment.sequenceLength : UInt32 :=
  UInt32.ofNat segment.payload.length + (if segment.has tcpSyn then 1 else 0) +
    (if segment.has tcpFin then 1 else 0)

/-- `segment_acceptable`. -/
def TcpConnection.segmentAcceptable (c : TcpConnection) (segment : TcpSegment) : Bool :=
  let length := segment.sequenceLength
  let first := segment.sequence
  let last := first + (if length = 0 then 0 else length - 1)
  let windowEnd := c.receiveNext + c.receiveWindow
  if c.receiveWindow = 0 then decide (length = 0) && decide (first = c.receiveNext)
  else if length = 0 then !sequenceBefore first c.receiveNext && sequenceBefore first windowEnd
  else (!sequenceBefore first c.receiveNext && sequenceBefore first windowEnd) ||
    (!sequenceBefore last c.receiveNext && sequenceBefore last windowEnd)

namespace TcpStack

/-- `find_connection`. -/
def findConnection (source destination : UInt32) (segment : TcpSegment) : Option TcpSlot :=
  (List.finRange nsTcpMaxSockets).find? fun slot =>
    let c := s.sockets slot
    decide (c.state ≠ .closed) && decide (c.state ≠ .listen) && c.localIpv4 == destination &&
      c.remoteIpv4 == source && c.localPort == segment.destinationPort &&
      c.remotePort == segment.sourcePort

/-- `find_listener`: a listener on the address, or else the last one on any address. -/
def findListener (destination : UInt32) (port : UInt16) : Option TcpSlot :=
  let listens := fun slot =>
    decide ((s.sockets slot).state = .listen) && (s.sockets slot).localPort == port
  ((List.finRange nsTcpMaxSockets).find? fun slot =>
      listens slot && (s.sockets slot).localIpv4 == destination).or
    ((List.finRange nsTcpMaxSockets).reverse.find? fun slot =>
      listens slot && (s.sockets slot).localIpv4 == 0)

/-- `listener_child_count`. -/
def listenerChildCount (listener : TcpSlot) : ℕ :=
  (List.finRange nsTcpMaxSockets).countP fun slot =>
    let c := s.sockets slot
    decide (c.state ≠ .closed) && c.parentSlot == UInt8.ofNat listener && !c.accepted

/-- `send_reset_for_segment`. -/
def sendResetForSegment (source destination : UInt32) (incoming : TcpSegment) : TcpStack :=
  if incoming.has tcpRst then s
  else
    let temporary :=
      { TcpConnection.zero with
        localIpv4 := destination
        remoteIpv4 := source
        localPort := incoming.destinationPort
        remotePort := incoming.sourcePort }
    if incoming.has tcpAck then
      (s.transmit temporary incoming.acknowledgment 0 tcpRst [] false).2
    else
      (s.transmit temporary 0 (incoming.sequence + incoming.sequenceLength) (tcpRst ||| tcpAck) []
        false).2

/-- `reset_retransmit_after_progress`. -/
def resetRetransmitAfterProgress : TcpStack :=
  s.modify slot fun c =>
    { c with
      retransmitCount := 0
      retransmitTimeoutMs := nsTcpInitialRtoMs
      retransmitDeadlineMs :=
        if c.sendUnacknowledged ≠ c.sendNext then s.nowMs + nsTcpInitialRtoMs.toUInt64 else 0 }

/-- The bytes of the send buffer that an acknowledgment covers. -/
def dataAcknowledged (c : TcpConnection) (acknowledgment : UInt32) : ℕ :=
  if sequenceAfter acknowledgment c.txSequence then
    if (acknowledgment - c.txSequence).toNat > c.txSent then c.txSent
    else (acknowledgment - c.txSequence).toNat
  else 0

/-- `apply_ack`. -/
def applyAck (acknowledgment : UInt32) : TcpStack :=
  if sequenceAfter acknowledgment (s.sockets slot).sendUnacknowledged = false then s
  else
    (s.modify slot fun c =>
      { c with
        txBuffer := c.txBuffer.drop (dataAcknowledged c acknowledgment)
        txSent := c.txSent - dataAcknowledged c acknowledgment
        txSequence := c.txSequence + UInt32.ofNat (dataAcknowledged c acknowledgment)
        sendUnacknowledged := acknowledgment }).resetRetransmitAfterProgress slot

/-- `enter_time_wait`. -/
def enterTimeWait : TcpStack :=
  s.modify slot fun c =>
    { c with
      state := .timeWait
      timeWaitDeadlineMs := s.nowMs + nsTcpTimeWaitMs
      retransmitDeadlineMs := 0
      ackPending := false }

/-- `close_with_event`. -/
def closeWithEvent (event : TcpEvent) : TcpStack :=
  (s.releaseConnection slot).notifySavedHandle
    (socketHandle (s.sockets slot).generation slot) event 0

/-- How much `flush_send` puts into its next segment. -/
def flushCount (c : TcpConnection) : ℕ :=
  let flight := c.sendNext - c.sendUnacknowledged
  if flight ≥ c.sendWindow then 0
  else min (min (c.txBuffer.length - c.txSent) c.peerMss.toNat) (c.sendWindow - flight).toNat

/-- The loop of `flush_send`. -/
def flushLoop (slot : TcpSlot) : ℕ → TcpStack → TcpStack
  | 0, s => s
  | rounds + 1, s =>
    let c := s.sockets slot
    let count := flushCount c
    if c.txSent < c.txBuffer.length ∧ count ≠ 0 then
      let sent := s.emitSegment slot c.sendNext c.receiveNext (tcpAck ||| tcpPsh)
        ((c.txBuffer.drop c.txSent).take count) false
      if sent.1 then
        flushLoop slot rounds ((sent.2.modify slot fun c =>
          { c with
            txSent := c.txSent + count
            sendNext := c.sendNext + UInt32.ofNat count }).startRetransmitTimer slot)
      else sent.2
    else s

/-- The part of `flush_send` that sends the FIN. -/
def flushFin : TcpStack :=
  let c := s.sockets slot
  if c.wantFin = true ∧ c.finSent = false ∧ c.txSent = c.txBuffer.length ∧
      c.sendNext - c.sendUnacknowledged < c.sendWindow ∧
      (c.state = .established ∨ c.state = .closeWait) then
    let sent := s.emitSegment slot c.sendNext c.receiveNext (tcpFin ||| tcpAck) [] false
    if sent.1 then
      (sent.2.modify slot fun c =>
        { c with
          finSequence := c.sendNext
          sendNext := c.sendNext + 1
          finSent := true
          state := if c.state = .established then .finWait1
            else .lastAck }).startRetransmitTimer slot
    else sent.2
  else s

/-- The part of `flush_send` that sets the persist timer. -/
def flushPersist : TcpStack :=
  let c := s.sockets slot
  if (c.txSent < c.txBuffer.length ∨ (c.wantFin = true ∧ c.finSent = false)) ∧ c.sendWindow = 0 ∧
      c.sendUnacknowledged = c.sendNext then
    if c.persistDeadlineMs = 0 then
      s.modify slot fun c =>
        { c with
          persistTimeoutMs := nsTcpPersistInitialMs
          persistDeadlineMs := s.nowMs + nsTcpPersistInitialMs.toUInt64 }
    else s
  else if c.sendWindow ≠ 0 ∨
      (c.txSent = c.txBuffer.length ∧ (c.wantFin = false ∨ c.finSent = true)) then
    s.modify slot fun c => { c with persistDeadlineMs := 0 }
  else s

/-- `flush_send`. -/
def flushSend : TcpStack :=
  let c := s.sockets slot
  let s :=
    if c.state = .established ∨ c.state = .closeWait ∨ c.state = .finWait1 ∨
      c.state = .finWait2 then
      flushLoop slot c.txBuffer.length s
    else s
  (s.flushFin slot).flushPersist slot

/-- `connection_established`. A parent is the slot of a listener, or `TCP_NO_PARENT`. -/
def connectionEstablished : TcpStack :=
  let parent := (s.sockets slot).parentSlot
  let s := s.modify slot fun c =>
    { c with
      state := .established
      txSequence := c.sendNext
      retransmitDeadlineMs := 0
      retransmitCount := 0 }
  if h : parent.toNat < nsTcpMaxSockets then
    let s := s.modify slot fun c => { c with acceptOrder := s.nextAcceptOrder }
    { s with nextAcceptOrder := s.nextAcceptOrder + 1 }.notify ⟨parent.toNat, h⟩ .acceptReady
      (socketHandle (s.sockets slot).generation slot)
  else s.notify slot .connected 0

/-- `process_syn_sent`. -/
def processSynSent : TcpStack :=
  let c := s.sockets slot
  if segment.has tcpAck = true ∧
      (sequenceAtOrBefore segment.acknowledgment c.initialSendSequence = true ∨
        sequenceAfter segment.acknowledgment c.sendNext = true) then
    if segment.has tcpRst then s else s.sendResetForSegment c.remoteIpv4 c.localIpv4 segment
  else if segment.has tcpRst then
    if segment.has tcpAck then s.closeWithEvent slot .reset else s
  else if segment.has tcpSyn = false then s
  else
    let s := s.modify slot fun c =>
      { c with
        initialReceiveSequence := segment.sequence
        receiveNext := segment.sequence + 1
        receiveWindow := UInt32.ofNat nsTcpRecvCapacity
        sendWindow := segment.window.toUInt32
        sendWindowSequence := segment.sequence
        sendWindowAck := segment.acknowledgment
        peerMss := segment.mss }
    if segment.has tcpAck then
      let s := s.modify slot fun c => { c with sendUnacknowledged := segment.acknowledgment }
      ((s.connectionEstablished slot).emitAck slot).flushSend slot
    else
      -- simultaneous open
      let s := s.modify slot fun c => { c with state := .synReceived }
      let c := s.sockets slot
      (s.emitSegment slot c.initialSendSequence c.receiveNext (tcpSyn ||| tcpAck) [] true).2.modify
        slot fun c => { c with retransmitDeadlineMs := s.nowMs + c.retransmitTimeoutMs.toUInt64 }

/-- The peer has acknowledged the SYN: its window is noted and the connection established. -/
def establish : TcpStack :=
  (s.modify slot fun c =>
    { c with
      sendUnacknowledged := segment.acknowledgment
      sendWindow := segment.window.toUInt32
      sendWindowSequence := segment.sequence
      sendWindowAck := segment.acknowledgment }).connectionEstablished slot

/-- `process_syn_received`. -/
def processSynReceived : TcpStack :=
  let c := s.sockets slot
  if segment.has tcpRst then
    if segment.sequence = c.receiveNext then s.closeWithEvent slot .reset else s
  else if segment.has tcpSyn = true ∧ segment.sequence = c.initialReceiveSequence then
    if segment.has tcpAck = true ∧ segment.acknowledgment = c.sendNext then
      (s.establish slot segment).emitAck slot
    else
      (s.emitSegment slot c.initialSendSequence c.receiveNext (tcpSyn ||| tcpAck) [] true).2
  else if segment.sequence ≠ c.receiveNext ∨ segment.has tcpAck = false ∨
      segment.acknowledgment ≠ c.sendNext then
    if segment.has tcpAck then s.sendResetForSegment c.remoteIpv4 c.localIpv4 segment else s
  else s.establish slot segment

end TcpStack

/-! ### Payload and FIN -/

/-- What is left of a segment: its payload, where that starts, and whether its FIN counts. -/
structure TcpRest where
  payload : List UInt8
  sequence : UInt32
  fin : Bool
  deriving DecidableEq, Repr

/-- The first part of `process_payload_and_fin`: what has been received before is cut off. There is
nothing left when even the FIN has been received before. -/
def TcpConnection.trimReceived (c : TcpConnection) (segment : TcpSegment) : Option TcpRest :=
  let fin := segment.has tcpFin
  if sequenceBefore segment.sequence c.receiveNext then
    let duplicate := (c.receiveNext - segment.sequence).toNat
    if duplicate ≥ segment.payload.length then
      if duplicate > segment.payload.length ∨ fin = false then none
      else some ⟨[], c.receiveNext, fin⟩
    else some ⟨segment.payload.drop duplicate, segment.sequence + UInt32.ofNat duplicate, fin⟩
  else some ⟨segment.payload, segment.sequence, fin⟩

/-- The second part: the right edge is clipped to the window that was advertised. -/
def TcpConnection.clipWindow (c : TcpConnection) (rest : TcpRest) : TcpRest :=
  let allowed := (c.receiveWindow - (rest.sequence - c.receiveNext)).toNat
  if rest.payload.length ≥ allowed then
    { rest with payload := rest.payload.take allowed, fin := false }
  else rest

/-- The third part: no more is taken than there is room for. -/
def TcpConnection.clipRoom (c : TcpConnection) (rest : TcpRest) : TcpRest :=
  let room := nsTcpRecvCapacity - c.rxBuffer.length
  if rest.payload.length > room then { rest with payload := rest.payload.take room, fin := false }
  else rest

namespace TcpStack

/-- `store_reordered`. -/
def storeReordered (rest : TcpRest) : TcpStack :=
  let c := s.sockets slot
  if rest.payload.length > nsTcpReorderCapacity then s
  else if c.reorderBuffer ≠ [] ∧ sequenceBefore rest.sequence c.reorderSequence = false then s
  else
    s.modify slot fun c =>
      { c with
        reorderBuffer := rest.payload
        reorderSequence := rest.sequence
        reorderFin := rest.fin }

/-- The `switch` of `consume_fin`. -/
def consumeFinState : TcpStack :=
  let c := s.sockets slot
  match c.state with
  | .established =>
    (s.modify slot fun c => { c with state := .closeWait }).notify slot .peerClosed 0
  | .finWait1 =>
    if sequenceAfter c.sendUnacknowledged c.finSequence then s.enterTimeWait slot
    else s.modify slot fun c => { c with state := .closing }
  | .finWait2 => s.enterTimeWait slot
  | .timeWait => s.modify slot fun c => { c with timeWaitDeadlineMs := s.nowMs + nsTcpTimeWaitMs }
  | _ => s

/-- `consume_fin`. The first FIN that is consumed ends the stream. -/
def consumeFin : TcpStack :=
  let s := s.modify slot fun c =>
    { c with
      receiveNext := c.receiveNext + 1
      finAfter := c.finAfter.or (some c.received.length) }
  (s.consumeFinState slot).emitAck slot

/-- Bytes received in order go to the end of the receive buffer. -/
def appendReceived (bytes : List UInt8) : TcpStack :=
  s.modify slot fun c =>
    { c with
      rxBuffer := c.rxBuffer ++ bytes
      receiveNext := c.receiveNext + UInt32.ofNat bytes.length
      received := c.received ++ bytes }

/-- The reorder slot is emptied. -/
def clearReorder : TcpStack :=
  s.modify slot fun c => { c with reorderBuffer := [], reorderFin := false }

/-- `drain_reordered`: how many bytes have been added, and the stack after it. -/
def drainReordered : ℕ × TcpStack :=
  let c := s.sockets slot
  let duplicate := (c.receiveNext - c.reorderSequence).toNat
  let bytes := c.reorderBuffer.drop duplicate
  if c.reorderBuffer = [] ∧ c.reorderFin = false then (0, s)
  else if sequenceAfter c.reorderSequence c.receiveNext then (0, s)
  else if duplicate > c.reorderBuffer.length ∨
      (duplicate = c.reorderBuffer.length ∧ c.reorderFin = false) then (0, s.clearReorder slot)
  else if c.rxBuffer.length + bytes.length > nsTcpRecvCapacity then (0, s)
  else
    let s := s.appendReceived slot bytes
    let s :=
      if c.reorderFin = true ∧ c.reorderSequence + UInt32.ofNat c.reorderBuffer.length =
          (s.sockets slot).receiveNext then s.consumeFin slot
      else s
    (bytes.length, s.clearReorder slot)

/-- The last part of `process_payload_and_fin`, for a segment that starts where the stream has got
to. -/
def deliver (rest : TcpRest) : TcpStack :=
  let drained := (s.appendReceived slot rest.payload).drainReordered slot
  let added := rest.payload.length + drained.1
  let s := drained.2
  let c := s.sockets slot
  let s :=
    if rest.fin = true ∧ rest.sequence + UInt32.ofNat rest.payload.length = c.receiveNext then
      s.consumeFin slot
    else if added ≠ 0 then
      s.queueDelayedAck slot
        (decide (c.reorderBuffer = []) && decide (added ≥ c.peerMss.toNat * 2))
    else s
  if added ≠ 0 then s.notify slot .data (UInt32.ofNat added) else s

/-- `process_payload_and_fin`. -/
def processPayloadAndFin : TcpStack :=
  let c := s.sockets slot
  match c.trimReceived segment with
  | none => s.emitAck slot
  | some rest =>
    let rest := c.clipWindow rest
    if sequenceAfter rest.sequence c.receiveNext then (s.storeReordered slot rest).emitAck slot
    else s.deliver slot (c.clipRoom rest)

/-! ### Segments of a connection -/

/-- The part of `process_connected_segment` for a segment outside the window. -/
def rejectSegment : TcpStack :=
  let c := s.sockets slot
  if c.state = .timeWait ∧ segment.has tcpFin = true ∧
      segment.sequence + UInt32.ofNat segment.payload.length + 1 = c.receiveNext then
    (s.modify slot fun c => { c with timeWaitDeadlineMs := s.nowMs + nsTcpTimeWaitMs }).emitAck slot
  else if segment.has tcpRst then s
  else s.emitAck slot

/-- The part of `process_connected_segment` that updates the send window. -/
def updateSendWindow : TcpStack :=
  let c := s.sockets slot
  if sequenceAfter segment.sequence c.sendWindowSequence = true ∨
      (segment.sequence = c.sendWindowSequence ∧
        sequenceBefore segment.acknowledgment c.sendWindowAck = false) then
    s.modify slot fun c =>
      { c with
        sendWindow := segment.window.toUInt32
        sendWindowSequence := segment.sequence
        sendWindowAck := segment.acknowledgment
        persistDeadlineMs := if segment.window ≠ 0 then 0 else c.persistDeadlineMs
        persistTimeoutMs :=
          if segment.window ≠ 0 then nsTcpPersistInitialMs else c.persistTimeoutMs }
  else s

/-- The rest of `process_connected_segment`, once the acknowledgment and the window are noted. -/
def processAcknowledged : TcpStack :=
  let c := s.sockets slot
  let finAcknowledged := sequenceAfter c.sendUnacknowledged c.finSequence
  if c.state = .lastAck ∧ finAcknowledged = true then s.closeWithEvent slot .closed
  else
    let s :=
      if c.state = .finWait1 ∧ c.finSent = true ∧ finAcknowledged = true then
        s.modify slot fun c => { c with state := .finWait2 }
      else if c.state = .closing ∧ finAcknowledged = true then s.enterTimeWait slot
      else s
    let s :=
      if segment.payload ≠ [] ∨ segment.has tcpFin = true then s.processPayloadAndFin slot segment
      else s
    if (s.sockets slot).state ≠ .closed ∧ (s.sockets slot).state ≠ .timeWait then s.flushSend slot
    else s

/-- `process_connected_segment`. -/
def processConnectedSegment : TcpStack :=
  let c := s.sockets slot
  if c.segmentAcceptable segment = false then s.rejectSegment slot segment
  else if segment.has tcpRst then
    -- an exact reset closes, any other is answered by a challenge ACK
    if segment.sequence = c.receiveNext then s.closeWithEvent slot .reset else s.emitAck slot
  else if segment.has tcpSyn then s.emitAck slot
  else if segment.has tcpAck = false then s
  else if sequenceAfter segment.acknowledgment c.sendNext then s.emitAck slot
  else
    let s :=
      if sequenceBefore segment.acknowledgment c.sendUnacknowledged then s
      else s.applyAck slot segment.acknowledgment
    (s.updateSendWindow slot segment).processAcknowledged slot segment

/-- The new connection of `handle_listen_syn`. -/
def openPassive (child listener : TcpSlot) (source destination : UInt32)
    (segment : TcpSegment) : TcpStack :=
  let initial := s.newInitialSequence destination source segment.destinationPort segment.sourcePort
  initial.2.modify child fun c =>
    { c with
      state := .synReceived
      parentSlot := UInt8.ofNat listener
      localIpv4 := destination
      remoteIpv4 := source
      localPort := segment.destinationPort
      remotePort := segment.sourcePort
      initialReceiveSequence := segment.sequence
      receiveNext := segment.sequence + 1
      initialSendSequence := initial.1
      sendUnacknowledged := initial.1
      sendNext := initial.1 + 1
      txSequence := initial.1 + 1
      sendWindow := segment.window.toUInt32
      sendWindowSequence := segment.sequence
      peerMss := segment.mss }

/-- `handle_listen_syn`. -/
def handleListenSyn (listener : TcpSlot) (source destination : UInt32)
    (segment : TcpSegment) : TcpStack :=
  if segment.has tcpSyn = false ∨ segment.has (tcpAck ||| tcpRst) = true then
    s.sendResetForSegment source destination segment
  else if s.listenerChildCount listener ≥ (s.sockets listener).backlog.toNat then
    s.sendResetForSegment source destination segment
  else match s.allocateConnection with
    | none => s.sendResetForSegment source destination segment
    | some (child, s) =>
      let s := s.openPassive child listener source destination segment
      let c := s.sockets child
      (s.emitSegment child c.initialSendSequence c.receiveNext (tcpSyn ||| tcpAck) []
        true).2.startRetransmitTimer child

/-- The part of `ns_tcp_input` for a segment of a connection. -/
def processSegment : TcpStack :=
  match (s.sockets slot).state with
  | .synSent => s.processSynSent slot segment
  | .synReceived =>
    let s := s.processSynReceived slot segment
    if (s.sockets slot).state = .established ∧
        (segment.payload ≠ [] ∨ segment.has tcpFin = true) then
      s.processConnectedSegment slot segment
    else s
  | _ => s.processConnectedSegment slot segment

/-- `ns_tcp_input`. -/
def nsTcpInput (source destination : UInt32) (wire : List UInt8) (nowMs : UInt64) : TcpStack :=
  let s := { s with nowMs := nowMs }
  match parseSegment wire with
  | none => s
  | some segment =>
    if nsTcpChecksumIpv4 source destination wire ≠ 0 then s
    else match s.findConnection source destination segment with
      | some slot => s.processSegment slot segment
      | none =>
        match s.findListener destination segment.destinationPort with
        | some listener => s.handleListenSyn listener source destination segment
        | none => s.sendResetForSegment source destination segment

/-! ### Calls -/

/-- The connection can be taken from the listener by `ns_tcp_accept`. -/
def acceptable (listener slot : TcpSlot) : Bool :=
  let c := s.sockets slot
  c.parentSlot == UInt8.ofNat listener && !c.accepted &&
    (decide (c.state = .established) || decide (c.state = .closeWait))

/-- The loop of `ns_tcp_accept`: the connection that was established first. -/
def selectAccept (listener : TcpSlot) : Option TcpSlot :=
  (List.finRange nsTcpMaxSockets).foldl (fun selected slot =>
    if s.acceptable listener slot then
      match selected with
      | none => some slot
      | some other =>
        if (s.sockets slot).acceptOrder < (s.sockets other).acceptOrder then some slot
        else some other
    else selected) none

/-- The listener that a handle stands for. -/
def listenerFromHandle (handle : UInt32) : Option TcpSlot :=
  (s.connectionFromHandle handle).filter fun slot => decide ((s.sockets slot).state = .listen)

/-- `ns_tcp_accept`. -/
def nsTcpAccept (handle : UInt32) : Except TcpError UInt32 × TcpStack :=
  match s.listenerFromHandle handle with
  | none => (.error .badHandle, s)
  | some listener =>
    match s.selectAccept listener with
    | none => (.error .wouldBlock, s)
    | some slot =>
      (.ok (socketHandle (s.sockets slot).generation slot),
        s.modify slot fun c => { c with accepted := true, parentSlot := tcpNoParent })

/-- `ns_tcp_accept_pending`. -/
def nsTcpAcceptPending (handle : UInt32) : ℕ :=
  match s.listenerFromHandle handle with
  | none => 0
  | some listener => (List.finRange nsTcpMaxSockets).countP (s.acceptable listener)

/-- `ns_tcp_send`: how many bytes have been accepted, and the stack after it. -/
def nsTcpSend (handle : UInt32) (data : List UInt8) : Except TcpError ℕ × TcpStack :=
  match s.connectionFromHandle handle with
  | none => (.error .badHandle, s)
  | some slot =>
    let c := s.sockets slot
    let accepted := min data.length (nsTcpSendCapacity - c.txBuffer.length)
    if c.state ≠ .established ∨ c.wantFin = true then (.error .badState, s)
    else if accepted = 0 ∧ data ≠ [] then (.error .wouldBlock, s)
    else
      let s := s.modify slot fun c =>
        { c with
          txSequence := if c.txBuffer = [] then c.sendNext else c.txSequence
          txBuffer := c.txBuffer ++ data.take accepted }
      (.ok accepted, s.flushSend slot)

/-- `ns_tcp_receive`: the bytes returned, and the stack after it. -/
def nsTcpReceive (handle : UInt32) (capacity : ℕ) : List UInt8 × TcpStack :=
  match s.connectionFromHandle handle with
  | none => ([], s)
  | some slot =>
    let bytes := (s.sockets slot).rxBuffer.take capacity
    if bytes = [] then ([], s)
    else
      let oldWindow := (s.sockets slot).receiveWindow.toUInt16
      let s := s.modify slot fun c =>
        { c with rxBuffer := c.rxBuffer.drop capacity, returned := c.returned ++ bytes }
      let c := s.sockets slot
      if (oldWindow = 0 ∨ c.currentReceiveWindow ≥ oldWindow.toNat + c.peerMss.toNat) ∧
          c.state ≠ .closed ∧ c.state ≠ .listen ∧ c.state ≠ .synSent then
        (bytes, s.emitAck slot)
      else (bytes, s)

/-- A reset is sent on a connection if the network lets it through. -/
def emitReset : TcpStack :=
  let c := s.sockets slot
  (s.emitSegment slot c.sendNext c.receiveNext (tcpRst ||| tcpAck) [] false).2

/-- One round of the loop of `ns_tcp_close` over the children of a listener. -/
def closeChild (listener : TcpSlot) (s : TcpStack) (slot : TcpSlot) : TcpStack :=
  let child := s.sockets slot
  if child.state = .closed ∨ child.parentSlot ≠ UInt8.ofNat listener then s
  else (s.emitReset slot).closeWithEvent slot .closed

/-- `ns_tcp_abort`. -/
def nsTcpAbort (handle : UInt32) : Except TcpError Unit × TcpStack :=
  match s.connectionFromHandle handle with
  | none => (.error .badHandle, s)
  | some slot =>
    let c := s.sockets slot
    let s := if c.state ≠ .listen ∧ c.state ≠ .synSent then s.emitReset slot else s
    (.ok (), (s.releaseConnection slot).notifySavedHandle handle .closed 0)

/-- `ns_tcp_close`. -/
def nsTcpClose (handle : UInt32) : Except TcpError Unit × TcpStack :=
  match s.connectionFromHandle handle with
  | none => (.error .badHandle, s)
  | some slot =>
    let c := s.sockets slot
    if c.state = .listen then
      (.ok (),
        ((List.finRange nsTcpMaxSockets).foldl (closeChild slot) s).closeWithEvent slot .closed)
    else if c.state = .synSent ∨ c.state = .synReceived then s.nsTcpAbort handle
    else if c.state ≠ .established ∧ c.state ≠ .closeWait then (.error .badState, s)
    else (.ok (), (s.modify slot fun c => { c with wantFin := true }).flushSend slot)

/-! ### Timers -/

/-- The loop of `retransmit` over the data that has been sent. -/
def retransmitLoop (slot : TcpSlot) : ℕ → ℕ → TcpStack → TcpStack
  | 0, _, s => s
  | rounds + 1, offset, s =>
    let c := s.sockets slot
    if offset < c.txSent then
      let count := min (c.txSent - offset) c.peerMss.toNat
      retransmitLoop slot rounds (offset + count)
        (s.emitSegment slot (c.txSequence + UInt32.ofNat offset) c.receiveNext (tcpAck ||| tcpPsh)
          ((c.txBuffer.drop offset).take count) false).2
    else s

/-- `retransmit`. -/
def retransmit : TcpStack :=
  let c := s.sockets slot
  if c.state = .synSent then (s.emitSegment slot c.initialSendSequence 0 tcpSyn [] true).2
  else if c.state = .synReceived then
    (s.emitSegment slot c.initialSendSequence c.receiveNext (tcpSyn ||| tcpAck) [] true).2
  else
    let s := retransmitLoop slot c.txSent 0 s
    if c.finSent = true ∧ sequenceAtOrBefore c.sendUnacknowledged c.finSequence = true then
      (s.emitSegment slot c.finSequence c.receiveNext (tcpFin ||| tcpAck) [] false).2
    else s

/-- A timeout is doubled up to a limit. -/
def backoff (timeout limit : UInt32) : UInt32 :=
  if timeout < limit then if timeout * 2 > limit then limit else timeout * 2 else timeout

/-- The part of `ns_tcp_tick` that retransmits. -/
def tickRetransmit : TcpStack :=
  (s.retransmit slot).modify slot fun c =>
    { c with
      retransmitCount := c.retransmitCount + 1
      retransmitTimeoutMs := backoff c.retransmitTimeoutMs nsTcpMaxRtoMs
      retransmitDeadlineMs := s.nowMs + (backoff c.retransmitTimeoutMs nsTcpMaxRtoMs).toUInt64 }

/-- The part of `ns_tcp_tick` that probes a zero window. -/
def tickPersist : TcpStack :=
  let c := s.sockets slot
  if c.persistDeadlineMs ≠ 0 ∧ s.nowMs ≥ c.persistDeadlineMs then
    if c.sendWindow = 0 ∧ c.sendUnacknowledged = c.sendNext ∧
        (c.txSent < c.txBuffer.length ∨ (c.wantFin = true ∧ c.finSent = false)) then
      (s.emitSegment slot (c.sendUnacknowledged - 1) c.receiveNext (tcpAck ||| tcpPsh) [0]
        false).2.modify slot fun c =>
          { c with
            persistTimeoutMs := backoff c.persistTimeoutMs nsTcpPersistMaxMs
            persistDeadlineMs := s.nowMs + (backoff c.persistTimeoutMs nsTcpPersistMaxMs).toUInt64 }
    else s.modify slot fun c => { c with persistDeadlineMs := 0 }
  else s

/-- The part of a round of `ns_tcp_tick` after the delayed acknowledgment. -/
def tickTimers : TcpStack :=
  let c := s.sockets slot
  let due := decide (c.retransmitDeadlineMs ≠ 0) && decide (s.nowMs ≥ c.retransmitDeadlineMs)
  if due = true ∧ c.retransmitCount ≥ nsTcpRetryLimit then s.closeWithEvent slot .timeout
  else
    let s := if due then s.tickRetransmit slot else s
    let s := s.tickPersist slot
    if (s.sockets slot).state ≠ .closed ∧ (s.sockets slot).state ≠ .timeWait then s.flushSend slot
    else s

/-- One round of the loop of `ns_tcp_tick`. -/
def tickSlot : TcpStack :=
  let c := s.sockets slot
  if c.state = .closed ∨ c.state = .listen then s
  else if c.state = .timeWait ∧ s.nowMs ≥ c.timeWaitDeadlineMs then s.closeWithEvent slot .closed
  else if c.ackPending = true ∧ s.nowMs ≥ c.delayedAckDeadlineMs then
    (s.emitAck slot).tickTimers slot
  else s.tickTimers slot

/-- `ns_tcp_tick`. -/
def nsTcpTick (nowMs : UInt64) : TcpStack :=
  (List.finRange nsTcpMaxSockets).foldl tickSlot { s with nowMs := nowMs }

/-! ### Queries -/

/-- `ns_tcp_get_state`. -/
def nsTcpGetState (handle : UInt32) : TcpState :=
  match s.connectionFromHandle handle with
  | none => .closed
  | some slot => (s.sockets slot).state

/-- `ns_tcp_send_buffered`. -/
def nsTcpSendBuffered (handle : UInt32) : ℕ :=
  match s.connectionFromHandle handle with
  | none => 0
  | some slot => (s.sockets slot).txBuffer.length

/-- `ns_tcp_receive_buffered`. -/
def nsTcpReceiveBuffered (handle : UInt32) : ℕ :=
  match s.connectionFromHandle handle with
  | none => 0
  | some slot => (s.sockets slot).rxBuffer.length

end TcpStack

end Northstar
