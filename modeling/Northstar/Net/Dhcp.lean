import Mathlib

/-! # The DHCP client

A model of `net_dhcp.c`. A payload is the list of its bytes. What the client hands to its transport
is returned beside the new client; whether the transport takes it does not change the client. -/

namespace Northstar

/-! ### Messages -/

/-- `read_be32`. -/
def readBe32 (bytes : List UInt8) (offset : ℕ) : UInt32 :=
  ((bytes.getD offset 0).toUInt32 <<< 24) ||| ((bytes.getD (offset + 1) 0).toUInt32 <<< 16) |||
    ((bytes.getD (offset + 2) 0).toUInt32 <<< 8) ||| (bytes.getD (offset + 3) 0).toUInt32

/-- `write_be32`, as the bytes written. -/
def beBytes32 (value : UInt32) : List UInt8 :=
  [(value >>> 24).toUInt8, (value >>> 16).toUInt8, (value >>> 8).toUInt8, value.toUInt8]

abbrev dhcpFixedLength : ℕ := 236
abbrev dhcpOptionsOffset : ℕ := 240
abbrev dhcpMinMessageLength : ℕ := 300
abbrev dhcpBroadcast : UInt32 := 0xffffffff
abbrev dhcpOpBootreply : UInt8 := 2
abbrev dhcpHtypeEthernet : UInt8 := 1
abbrev dhcpMagicCookie : UInt32 := 0x63825363

abbrev dhcpOptionPad : UInt8 := 0
abbrev dhcpOptionSubnetMask : UInt8 := 1
abbrev dhcpOptionRouter : UInt8 := 3
abbrev dhcpOptionDns : UInt8 := 6
abbrev dhcpOptionRequestedAddress : UInt8 := 50
abbrev dhcpOptionLeaseTime : UInt8 := 51
abbrev dhcpOptionMessageType : UInt8 := 53
abbrev dhcpOptionServerIdentifier : UInt8 := 54
abbrev dhcpOptionParameterRequest : UInt8 := 55
abbrev dhcpOptionMaxMessageSize : UInt8 := 57
abbrev dhcpOptionRenewalTime : UInt8 := 58
abbrev dhcpOptionRebindingTime : UInt8 := 59
abbrev dhcpOptionClientIdentifier : UInt8 := 61
abbrev dhcpOptionEnd : UInt8 := 255

abbrev dhcpDiscover : UInt8 := 1
abbrev dhcpOffer : UInt8 := 2
abbrev dhcpRequest : UInt8 := 3
abbrev dhcpAck : UInt8 := 5
abbrev dhcpNak : UInt8 := 6

/-- `NET_DHCP_MAX_DNS_SERVERS`. -/
abbrev netDhcpMaxDnsServers : ℕ := 2

/-- `struct dhcp_options`: the options of a message that matter, each at most once. -/
structure DhcpOptions where
  messageType : Option UInt8 := none
  subnetMask : Option UInt32 := none
  router : Option UInt32 := none
  dnsServers : Option (List UInt32) := none
  serverIdentifier : Option UInt32 := none
  leaseSeconds : Option UInt32 := none
  renewalSeconds : Option UInt32 := none
  rebindingSeconds : Option UInt32 := none
  deriving DecidableEq, Repr

/-- The value of an option that is one word and may be given once. -/
def wordOption (seen : Option UInt32) (value : List UInt8) : Option UInt32 :=
  if value.length ≠ 4 ∨ seen.isSome then none else some (readBe32 value 0)

/-- The words of an option that is a list of addresses and may be given once. -/
def addressesOption (seen : Bool) (value : List UInt8) : Option (List UInt32) :=
  if value.length = 0 ∨ value.length % 4 ≠ 0 ∨ seen then none
  else some ((List.range (value.length / 4)).map fun index => readBe32 value (4 * index))

/-- The switch of `parse_options`. -/
def parseOption (options : DhcpOptions) (code : UInt8) (value : List UInt8) : Option DhcpOptions :=
  if code = dhcpOptionMessageType then
    if value.length ≠ 1 ∨ options.messageType.isSome then none
    else some { options with messageType := some (value.getD 0 0) }
  else if code = dhcpOptionSubnetMask then
    (wordOption options.subnetMask value).map fun word => { options with subnetMask := some word }
  else if code = dhcpOptionRouter then
    (addressesOption options.router.isSome value).map fun words =>
      { options with router := some (words.getD 0 0) }
  else if code = dhcpOptionDns then
    (addressesOption options.dnsServers.isSome value).map fun words =>
      { options with dnsServers := some (words.take netDhcpMaxDnsServers) }
  else if code = dhcpOptionServerIdentifier then
    (wordOption options.serverIdentifier value).map fun word =>
      { options with serverIdentifier := some word }
  else if code = dhcpOptionLeaseTime then
    (wordOption options.leaseSeconds value).map fun word =>
      { options with leaseSeconds := some word }
  else if code = dhcpOptionRenewalTime then
    (wordOption options.renewalSeconds value).map fun word =>
      { options with renewalSeconds := some word }
  else if code = dhcpOptionRebindingTime then
    (wordOption options.rebindingSeconds value).map fun word =>
      { options with rebindingSeconds := some word }
  else some options

/-- The loop of `parse_options` over the bytes that are left, up to the end option. Every round
takes at least one byte, so as many rounds as there are bytes are enough. -/
def parseRounds : ℕ → List UInt8 → DhcpOptions → Option (DhcpOptions × List UInt8)
  | 0, _, _ => none
  | _ + 1, [], _ => none
  | rounds + 1, code :: rest, options =>
    if code = dhcpOptionPad then parseRounds rounds rest options
    else if code = dhcpOptionEnd then some (options, rest)
    else match rest with
      | [] => none
      | optionLength :: rest =>
        if optionLength.toNat > rest.length then none
        else match parseOption options code (rest.take optionLength.toNat) with
          | none => none
          | some options => parseRounds rounds (rest.drop optionLength.toNat) options

/-- More rounds than there are bytes make no difference. -/
lemma parseRounds_of_le {rounds : ℕ} {bytes : List UInt8} (h : bytes.length ≤ rounds)
    (options : DhcpOptions) :
    parseRounds rounds bytes options = parseRounds bytes.length bytes options := by
  induction hlength : bytes.length using Nat.strong_induction_on
    generalizing rounds bytes options with
  | _ length ih =>
    subst hlength
    cases bytes with
    | nil => cases rounds <;> rfl
    | cons code rest =>
      obtain ⟨rounds, rfl⟩ : ∃ n, rounds = n + 1 := ⟨rounds - 1, by simp at h; omega⟩
      have hrest : rest.length ≤ rounds := by simpa using h
      rw [List.length_cons]
      unfold parseRounds
      split_ifs with hpad hend
      · exact ih _ (by simp) hrest options rfl
      · rfl
      · cases rest with
        | nil => rfl
        | cons optionLength rest =>
          dsimp only
          split_ifs with hlong
          · rfl
          · cases parseOption options code (rest.take optionLength.toNat) with
            | none => rfl
            | some options =>
              have hdrop : (rest.drop optionLength.toNat).length ≤ rest.length := by simp
              rw [List.length_cons] at hrest
              have hshort : (rest.drop optionLength.toNat).length
                  < (code :: optionLength :: rest).length := by
                simp only [List.length_cons]
                omega
              exact (ih _ hshort (hdrop.trans (by omega)) options rfl).trans
                (ih _ hshort (hdrop.trans (by simp)) options rfl).symm

/-- `parse_options`. -/
def parseOptions (payload : List UInt8) : Option DhcpOptions :=
  let body := payload.drop dhcpOptionsOffset
  match parseRounds body.length body {} with
  | none => none
  | some (options, rest) =>
    if options.messageType = none then none
    -- only padding may follow the end option
    else if rest.all (· = 0) then some options
    else none

/-! ### The client -/

/-- `enum net_dhcp_state`. -/
inductive DhcpState
  | init | selecting | requesting | bound | renewing | rebinding | expired
  deriving DecidableEq, Repr

/-- `struct net_dhcp_config`: a lease. -/
structure DhcpConfig where
  address : UInt32 := 0
  subnetMask : UInt32 := 0
  router : UInt32 := 0
  dnsServers : List UInt32 := []
  serverIdentifier : UInt32 := 0
  leaseSeconds : UInt32 := 0
  renewalSeconds : UInt32 := 0
  rebindingSeconds : UInt32 := 0
  acquiredAtMs : UInt64 := 0
  renewalAtMs : UInt64 := 0
  rebindingAtMs : UInt64 := 0
  expiresAtMs : UInt64 := 0
  deriving DecidableEq, Repr

/-- `struct net_dhcp_client`. -/
structure DhcpClient where
  state : DhcpState
  hardwareAddress : List UInt8
  xid : UInt32
  xidSequence : UInt32
  config : DhcpConfig
  offer : DhcpConfig
  offeredAddress : UInt32
  nextRetryAtMs : UInt64
  retryIntervalMs : UInt64
  attempts : UInt8
  haveOffer : Bool
  deriving DecidableEq, Repr

/-- What the client hands to its transport. -/
structure DhcpDatagram where
  sourceAddress : UInt32
  destinationAddress : UInt32
  payload : List UInt8
  deriving DecidableEq, Repr

/-- `enum net_dhcp_receive_result`. -/
inductive DhcpReceiveResult
  | ignored | malformed | offerAccepted | bound | renewed | nak
  deriving DecidableEq, Repr

abbrev netDhcpInitialRetryMs : UInt64 := 1000
abbrev netDhcpMaxRetryMs : UInt64 := 64000
abbrev millisecondsMax : UInt64 := 0xffffffffffffffff

/-- `add_milliseconds_saturated`. -/
def addMillisecondsSaturated (value amount : UInt64) : UInt64 :=
  if amount > millisecondsMax - value then millisecondsMax else value + amount

/-- `seconds_deadline`. -/
def secondsDeadline (nowMs : UInt64) (seconds : UInt32) : UInt64 :=
  addMillisecondsSaturated nowMs (seconds.toUInt64 * 1000)

/-- `append_option`, on the bytes written so far. -/
def appendOption (packet : List UInt8) (code : UInt8) (value : List UInt8) : Option (List UInt8) :=
  if packet.length > dhcpMinMessageLength ∨
      dhcpMinMessageLength - packet.length < value.length + 2 then none
  else some (packet ++ code :: UInt8.ofNat value.length :: value)

/-- `finish_options`. -/
def finishOptions (packet : List UInt8) : Option (List UInt8) :=
  if packet.length ≥ dhcpMinMessageLength then none else some (packet ++ [dhcpOptionEnd])

variable (client : DhcpClient)

/-- The fields of a message up to its options. -/
def messageHeader (messageType : UInt8) (selectingRequest rebinding : Bool) : List UInt8 :=
  [1, dhcpHtypeEthernet, 6, 0] ++ beBytes32 client.xid ++ [0, 0] ++
    (if messageType = dhcpDiscover ∨ selectingRequest ∨ rebinding then [0x80, 0] else [0, 0]) ++
    (if messageType = dhcpRequest ∧ selectingRequest = false then beBytes32 client.config.address
      else [0, 0, 0, 0]) ++
    List.replicate 12 0 ++ client.hardwareAddress ++ List.replicate 202 0 ++
    beBytes32 dhcpMagicCookie

/-- `build_message`. -/
def buildMessage (messageType : UInt8) (selectingRequest rebinding : Bool) :
    Option (List UInt8) := do
  let packet := messageHeader client messageType selectingRequest rebinding
  let packet ← appendOption packet dhcpOptionMessageType [messageType]
  let packet ← appendOption packet dhcpOptionClientIdentifier
    (dhcpHtypeEthernet :: client.hardwareAddress)
  let packet ← (if selectingRequest then do
      let packet ← appendOption packet dhcpOptionRequestedAddress (beBytes32 client.offeredAddress)
      appendOption packet dhcpOptionServerIdentifier (beBytes32 client.offer.serverIdentifier)
    else some packet : Option (List UInt8))
  let packet ← appendOption packet dhcpOptionParameterRequest
    [dhcpOptionSubnetMask, dhcpOptionRouter, dhcpOptionDns, dhcpOptionLeaseTime,
      dhcpOptionServerIdentifier, dhcpOptionRenewalTime, dhcpOptionRebindingTime]
  let packet ← appendOption packet dhcpOptionMaxMessageSize [2, 0x40]
  let packet ← finishOptions packet
  return packet ++ List.replicate (dhcpMinMessageLength - packet.length) 0

/-- `reset_retry`. -/
def resetRetry : DhcpClient :=
  { client with attempts := 0, retryIntervalMs := netDhcpInitialRetryMs, nextRetryAtMs := 0 }

/-- The bookkeeping of `transmit_for_state` after a message. -/
def noteAttempt (nowMs : UInt64) : DhcpClient :=
  { client with
    attempts := if client.attempts ≠ 255 then client.attempts + 1 else client.attempts
    nextRetryAtMs := addMillisecondsSaturated nowMs client.retryIntervalMs
    retryIntervalMs :=
      if client.retryIntervalMs < netDhcpMaxRetryMs then
        if client.retryIntervalMs * 2 > netDhcpMaxRetryMs then netDhcpMaxRetryMs
        else client.retryIntervalMs * 2
      else client.retryIntervalMs }

/-- Noting an attempt keeps the state. -/
@[simp] lemma noteAttempt_state (client : DhcpClient) (nowMs : UInt64) :
    (noteAttempt client nowMs).state = client.state := by
  rw [noteAttempt]

/-- Noting an attempt keeps the lease. -/
@[simp] lemma noteAttempt_config (client : DhcpClient) (nowMs : UInt64) :
    (noteAttempt client nowMs).config = client.config := by
  rw [noteAttempt]

/-- Noting an attempt keeps the offer. -/
@[simp] lemma noteAttempt_offer (client : DhcpClient) (nowMs : UInt64) :
    (noteAttempt client nowMs).offer = client.offer := by
  rw [noteAttempt]

/-- The variables that `transmit_for_state` sets for a state in which it sends. -/
structure DhcpTransmission where
  messageType : UInt8
  sourceAddress : UInt32 := 0
  destinationAddress : UInt32 := dhcpBroadcast
  selectingRequest : Bool := false
  rebinding : Bool := false

/-- The switch of `transmit_for_state`. -/
def transmissionFor : Option DhcpTransmission :=
  match client.state with
  | .selecting => some { messageType := dhcpDiscover }
  | .requesting => some { messageType := dhcpRequest, selectingRequest := true }
  | .renewing => some
    { messageType := dhcpRequest
      sourceAddress := client.config.address
      destinationAddress := client.config.serverIdentifier }
  | .rebinding => some
    { messageType := dhcpRequest, sourceAddress := client.config.address, rebinding := true }
  | .init | .bound | .expired => none

/-- The message that `transmit_for_state` sends. -/
def datagramFor (transmission : DhcpTransmission) : Option DhcpDatagram :=
  (buildMessage client transmission.messageType transmission.selectingRequest
    transmission.rebinding).map fun payload =>
      { sourceAddress := transmission.sourceAddress
        destinationAddress := transmission.destinationAddress
        payload := payload }

/-- `transmit_for_state`. -/
def transmitForState (nowMs : UInt64) : DhcpClient × Option DhcpDatagram :=
  match transmissionFor client with
  | none => (client, none)
  | some transmission => (noteAttempt client nowMs, datagramFor client transmission)

/-- `copy_option_configuration`. -/
def copyOptionConfiguration (configuration : DhcpConfig) (options : DhcpOptions) : DhcpConfig :=
  { configuration with
    subnetMask := options.subnetMask.getD configuration.subnetMask
    router := options.router.getD configuration.router
    dnsServers := options.dnsServers.getD configuration.dnsServers
    serverIdentifier := options.serverIdentifier.getD configuration.serverIdentifier
    leaseSeconds := options.leaseSeconds.getD configuration.leaseSeconds
    renewalSeconds := options.renewalSeconds.getD configuration.renewalSeconds
    rebindingSeconds := options.rebindingSeconds.getD configuration.rebindingSeconds }

/-- The renewal and rebinding times of `bind_configuration` where the server gives none that can be
used. -/
def defaultTimes (leaseSeconds : UInt32) : UInt32 × UInt32 :=
  let renewal := if leaseSeconds / 2 = 0 then 1 else leaseSeconds / 2
  let rebinding := leaseSeconds - leaseSeconds / 8
  let rebinding := if rebinding ≤ renewal then renewal + 1 else rebinding
  (renewal,
    if rebinding ≥ leaseSeconds then
      if leaseSeconds > 1 then leaseSeconds - 1 else leaseSeconds
    else rebinding)

/-- The times of `bind_configuration`, or nothing if the lease is too short. -/
def leaseTimes (next : DhcpConfig) : Option (UInt32 × UInt32) :=
  if next.leaseSeconds < 3 ∨ next.renewalSeconds = 0 ∨ next.rebindingSeconds = 0 ∨
      next.renewalSeconds ≥ next.rebindingSeconds ∨ next.rebindingSeconds ≥ next.leaseSeconds then
    if next.leaseSeconds < 3 then none else some (defaultTimes next.leaseSeconds)
  else some (next.renewalSeconds, next.rebindingSeconds)

/-- The lease of `bind_configuration`, if the message gives one. -/
def boundConfiguration (options : DhcpOptions) (assignedAddress : UInt32)
    (nowMs : UInt64) : Option DhcpConfig :=
  let next := if client.state = .requesting then client.offer else client.config
  let next := copyOptionConfiguration next options
  let next := if assignedAddress ≠ 0 then { next with address := assignedAddress } else next
  if next.address = 0 ∨ next.serverIdentifier = 0 ∨ options.leaseSeconds.getD 0 = 0 then none
  else match leaseTimes next with
    | none => none
    | some (renewalSeconds, rebindingSeconds) => some
      { next with
        renewalSeconds := renewalSeconds
        rebindingSeconds := rebindingSeconds
        acquiredAtMs := nowMs
        renewalAtMs := secondsDeadline nowMs renewalSeconds
        rebindingAtMs := secondsDeadline nowMs rebindingSeconds
        expiresAtMs := secondsDeadline nowMs next.leaseSeconds }

/-- `bind_configuration`. -/
def bindConfiguration (options : DhcpOptions) (assignedAddress : UInt32)
    (nowMs : UInt64) : Option DhcpClient :=
  (boundConfiguration client options assignedAddress nowMs).map fun next =>
    resetRetry { client with config := next, state := .bound, haveOffer := false }

/-- `net_dhcp_init`. -/
def netDhcpInit (hardwareAddress : List UInt8) (xidSeed : UInt32) : DhcpClient :=
  { state := .init, hardwareAddress := hardwareAddress, xid := 0
    xidSequence := if xidSeed = 0 then 0x4e53544f else xidSeed
    config := {}, offer := {}, offeredAddress := 0, nextRetryAtMs := 0
    retryIntervalMs := netDhcpInitialRetryMs, attempts := 0, haveOffer := false }

/-- `net_dhcp_start`. -/
def netDhcpStart (nowMs : UInt64) : DhcpClient × Option DhcpDatagram :=
  let sequence := client.xidSequence + 0x9e3779b9
  transmitForState
    (resetRetry
      { client with
        config := {}
        offer := {}
        offeredAddress := 0
        haveOffer := false
        xid := client.xidSequence
        xidSequence := if sequence = 0 then sequence + 1 else sequence
        state := .selecting })
    nowMs

/-- The checks of `net_dhcp_receive` on any message, up to and including its options. -/
def readMessage (payload : List UInt8) : Except DhcpReceiveResult DhcpOptions :=
  if payload.length < dhcpOptionsOffset then .error .malformed
  else if payload.getD 0 0 ≠ dhcpOpBootreply ∨ payload.getD 1 0 ≠ dhcpHtypeEthernet ∨
      payload.getD 2 0 ≠ 6 then .error .ignored
  else if readBe32 payload dhcpFixedLength ≠ dhcpMagicCookie then .error .malformed
  else if readBe32 payload 4 ≠ client.xid ∨
      (payload.drop 28).take 6 ≠ client.hardwareAddress then .error .ignored
  else match parseOptions payload with
    | none => .error .malformed
    | some options => .ok options

/-- What `net_dhcp_receive` does with an offer. -/
def receiveOffer (options : DhcpOptions) (assignedAddress : UInt32)
    (nowMs : UInt64) : DhcpReceiveResult × DhcpClient × Option DhcpDatagram :=
  match options.serverIdentifier with
  | none => (.ignored, client, none)
  | some serverIdentifier =>
    if client.state ≠ .selecting then (.ignored, client, none)
    else if assignedAddress = 0 ∨ serverIdentifier = 0 then (.malformed, client, none)
    else
      (.offerAccepted, transmitForState
        (resetRetry
          { client with
            offer := copyOptionConfiguration { address := assignedAddress } options
            offeredAddress := assignedAddress
            haveOffer := true
            state := .requesting })
        nowMs)

/-- The checks of `net_dhcp_receive` on an answer to a request. -/
def checkAnswer (options : DhcpOptions) : Option DhcpReceiveResult :=
  if client.state ≠ .requesting ∧ client.state ≠ .renewing ∧ client.state ≠ .rebinding then
    some .ignored
  else match options.serverIdentifier with
    | none => some .malformed
    | some serverIdentifier =>
      if serverIdentifier = 0 then some .malformed
      else if client.state ≠ .rebinding ∧ serverIdentifier ≠ client.config.serverIdentifier ∧
          serverIdentifier ≠ client.offer.serverIdentifier then some .ignored
      else none

/-- What `net_dhcp_receive` does with an acknowledgement. -/
def receiveAck (options : DhcpOptions) (assignedAddress : UInt32)
    (nowMs : UInt64) : DhcpReceiveResult × DhcpClient × Option DhcpDatagram :=
  if client.state = .requesting ∧ assignedAddress = 0 then (.malformed, client, none)
  else if client.state = .requesting ∧ assignedAddress ≠ client.offeredAddress then
    (.ignored, client, none)
  else match bindConfiguration client options assignedAddress nowMs with
    | none => (.malformed, client, none)
    | some next => (if client.state = .requesting then .bound else .renewed, next, none)

/-- `net_dhcp_receive`. -/
def netDhcpReceive (payload : List UInt8) (nowMs : UInt64) :
    DhcpReceiveResult × DhcpClient × Option DhcpDatagram :=
  match readMessage client payload with
  | .error result => (result, client, none)
  | .ok options =>
    let assignedAddress := readBe32 payload 16
    if options.messageType = some dhcpOffer then receiveOffer client options assignedAddress nowMs
    else if options.messageType ≠ some dhcpAck ∧ options.messageType ≠ some dhcpNak then
      (.ignored, client, none)
    else match checkAnswer client options with
      | some result => (result, client, none)
      | none =>
        if options.messageType = some dhcpNak then (.nak, netDhcpStart client nowMs)
        else receiveAck client options assignedAddress nowMs

/-- The transition of `net_dhcp_poll` to another state, with a message for it. -/
def enterState (state : DhcpState) (nowMs : UInt64) : DhcpClient × Option DhcpDatagram :=
  transmitForState (resetRetry { client with state := state }) nowMs

/-- The expiry of the lease in `net_dhcp_poll`. -/
def expireLease : DhcpClient × Option DhcpDatagram :=
  ({ client with config := {}, state := .expired }, none)

/-- The repetition of a message in `net_dhcp_poll`. -/
def retryTransmit (nowMs : UInt64) : DhcpClient × Option DhcpDatagram :=
  if nowMs ≥ client.nextRetryAtMs then transmitForState client nowMs else (client, none)

/-- `net_dhcp_poll`. -/
def netDhcpPoll (nowMs : UInt64) : DhcpClient × Option DhcpDatagram :=
  match client.state with
  | .selecting | .requesting => retryTransmit client nowMs
  | .bound =>
    if nowMs ≥ client.config.expiresAtMs then expireLease client
    else if nowMs ≥ client.config.rebindingAtMs then enterState client .rebinding nowMs
    else if nowMs ≥ client.config.renewalAtMs then enterState client .renewing nowMs
    else (client, none)
  | .renewing =>
    if nowMs ≥ client.config.expiresAtMs then expireLease client
    else if nowMs ≥ client.config.rebindingAtMs then enterState client .rebinding nowMs
    else retryTransmit client nowMs
  | .rebinding =>
    if nowMs ≥ client.config.expiresAtMs then expireLease client
    else retryTransmit client nowMs
  | .init | .expired => (client, none)

/-- `net_dhcp_is_configured`. -/
def DhcpClient.isConfigured : Prop :=
  client.state = .bound ∨ client.state = .renewing ∨ client.state = .rebinding

instance (client : DhcpClient) : Decidable client.isConfigured :=
  inferInstanceAs (Decidable (_ ∨ _ ∨ _))

end Northstar
