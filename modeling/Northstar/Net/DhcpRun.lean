import Northstar.Lib.Trace
import Northstar.Net.Dhcp

/-! # Runs of the DHCP client

Whatever the client is sent, a lease that it has is well formed (`DhcpConfig.Valid`). Whose answers
it heeds is another matter: the offer that led to the lease stays beside it, so the server of that
offer is heeded even after another server has taken the lease over. -/

namespace Northstar

/-! ### Leases -/

variable {client next : DhcpClient} {options : DhcpOptions} {assignedAddress : UInt32}
  {nowMs : UInt64}

/-- A lease is for an address, from a server, and has its times in order. -/
structure DhcpConfig.Valid (lease : DhcpConfig) : Prop where
  address : lease.address ≠ 0
  server : lease.serverIdentifier ≠ 0
  seconds : 0 < lease.renewalSeconds ∧ lease.renewalSeconds < lease.rebindingSeconds ∧
    lease.rebindingSeconds < lease.leaseSeconds
  deadlines : lease.acquiredAtMs ≤ lease.renewalAtMs ∧ lease.renewalAtMs ≤ lease.rebindingAtMs ∧
    lease.rebindingAtMs ≤ lease.expiresAtMs

/-- The times of a lease come in order, before its end. -/
lemma leaseTimes_ordered {lease : DhcpConfig} {renewalSeconds rebindingSeconds : UInt32}
    (h : leaseTimes lease = some (renewalSeconds, rebindingSeconds)) :
    0 < renewalSeconds ∧ renewalSeconds < rebindingSeconds ∧
      rebindingSeconds < lease.leaseSeconds := by
  rw [leaseTimes] at h
  split_ifs at h with hbad hshort
  · obtain ⟨rfl, rfl⟩ := Prod.mk.inj (Option.some.inj h)
    grind [defaultTimes]
  · obtain ⟨rfl, rfl⟩ := Prod.mk.inj (Option.some.inj h)
    simp only [not_or, ge_iff_le, UInt32.not_le] at hbad
    exact ⟨UInt32.pos_iff_ne_zero.2 hbad.2.1, hbad.2.2.2⟩

/-- A deadline is the time and the seconds, or the last moment that there is. -/
lemma toNat_secondsDeadline (nowMs : UInt64) (seconds : UInt32) :
    (secondsDeadline nowMs seconds).toNat =
      min (nowMs.toNat + seconds.toNat * 1000) (2 ^ 64 - 1) := by
  have hnow := nowMs.toNat_lt
  have hseconds := seconds.toNat_lt
  have hmul : (seconds.toUInt64 * 1000).toNat = seconds.toNat * 1000 := by
    exact Nat.mod_eq_of_lt (by simp; omega)
  have hsub : (millisecondsMax - nowMs).toNat = 2 ^ 64 - 1 - nowMs.toNat :=
    UInt64.toNat_sub_of_le _ _ (UInt64.le_iff_toNat_le.2 (Nat.le_sub_one_of_lt hnow))
  rw [secondsDeadline, addMillisecondsSaturated]
  split_ifs with hlate
  · rw [gt_iff_lt, UInt64.lt_iff_toNat_lt, hsub, hmul] at hlate
    rw [min_eq_right (by omega)]
    rfl
  · rw [gt_iff_lt, UInt64.lt_iff_toNat_lt, hsub, hmul] at hlate
    rw [UInt64.toNat_add, hmul]
    omega

/-- Deadlines saturate, and come in the order of their distances. -/
lemma secondsDeadline_mono (nowMs : UInt64) {seconds later : UInt32} (h : seconds < later) :
    nowMs ≤ secondsDeadline nowMs seconds ∧
      secondsDeadline nowMs seconds ≤ secondsDeadline nowMs later := by
  have hnow := nowMs.toNat_lt
  simp only [UInt64.le_iff_toNat_le, UInt32.lt_iff_toNat_lt, toNat_secondsDeadline] at h ⊢
  omega

/-- A lease is for an address from a server, the one that the message names, with times that
`bind_configuration` has checked. -/
lemma boundConfiguration_cases {next : DhcpConfig}
    (h : boundConfiguration client options assignedAddress nowMs = some next) :
    ∃ lease renewalSeconds rebindingSeconds, lease.address ≠ 0 ∧ lease.serverIdentifier ≠ 0 ∧
      (∀ server ∈ options.serverIdentifier, lease.serverIdentifier = server) ∧
      leaseTimes lease = some (renewalSeconds, rebindingSeconds) ∧
      next = { lease with
        renewalSeconds := renewalSeconds
        rebindingSeconds := rebindingSeconds
        acquiredAtMs := nowMs
        renewalAtMs := secondsDeadline nowMs renewalSeconds
        rebindingAtMs := secondsDeadline nowMs rebindingSeconds
        expiresAtMs := secondsDeadline nowMs lease.leaseSeconds } := by
  rw [boundConfiguration] at h
  generalize hlease : (if assignedAddress ≠ 0 then _ else _ : DhcpConfig) = lease at h
  have hserver : ∀ server ∈ options.serverIdentifier, lease.serverIdentifier = server := by
    intro server hserver
    rw [← hlease, apply_ite DhcpConfig.serverIdentifier, copyOptionConfiguration, hserver, ite_self]
    rfl
  split_ifs at h with hnone
  rw [not_or, not_or] at hnone
  cases htimes : leaseTimes lease with
  | none =>
    rw [htimes] at h
    cases h
  | some times =>
    rw [htimes] at h
    exact ⟨lease, times.1, times.2, hnone.1, hnone.2.1, hserver, htimes, (Option.some.inj h).symm⟩

/-- A lease that is bound is valid. -/
lemma boundConfiguration_valid {lease : DhcpConfig}
    (h : boundConfiguration client options assignedAddress nowMs = some lease) : lease.Valid := by
  obtain ⟨lease, renewal, rebinding, haddress, hserver, -, htimes, rfl⟩ :=
    boundConfiguration_cases h
  obtain ⟨hpos, hrebinding, hlease⟩ := leaseTimes_ordered htimes
  have hfirst := secondsDeadline_mono nowMs hrebinding
  exact ⟨haddress, hserver, ⟨hpos, hrebinding, hlease⟩, hfirst.1, hfirst.2,
    (secondsDeadline_mono nowMs hlease).2⟩

/-! ### What a call can do -/

/-- Retransmission does not touch the state of the client, its lease, or the offer it took. -/
lemma transmitForState_same (client : DhcpClient) (nowMs : UInt64) :
    (transmitForState client nowMs).1.state = client.state ∧
      (transmitForState client nowMs).1.config = client.config ∧
      (transmitForState client nowMs).1.offer = client.offer := by
  rw [transmitForState]
  cases transmissionFor client with
  | none => exact ⟨rfl, rfl, rfl⟩
  | some transmission =>
    exact ⟨noteAttempt_state client nowMs, noteAttempt_config client nowMs,
      noteAttempt_offer client nowMs⟩

/-- A restart forgets the lease. -/
lemma netDhcpStart_spec (client : DhcpClient) (nowMs : UInt64) :
    (netDhcpStart client nowMs).1.state = .selecting ∧
    (netDhcpStart client nowMs).1.config = {} := by
  exact ⟨(transmitForState_same _ nowMs).1, (transmitForState_same _ nowMs).2.1⟩

/-- An acknowledgement that answers the request for an offer is for the address offered. -/
def AnswersOffer (client : DhcpClient) (assignedAddress : UInt32) : Prop :=
  client.state = .requesting → assignedAddress ≠ 0 ∧ assignedAddress = client.offeredAddress

/-- The clients that a datagram can leave. -/
inductive Received (client : DhcpClient) (payload : List UInt8) (nowMs : UInt64) :
    DhcpClient → Prop
  | kept : Received client payload nowMs client
  | offer {next : DhcpClient} (hselecting : client.state = .selecting)
      (hstate : next.state = .requesting) (hconfig : next.config = client.config) :
      Received client payload nowMs next
  | nak {options : DhcpOptions} (hread : readMessage client payload = .ok options)
      (hanswer : checkAnswer client options = none)
      (htype : options.messageType = some dhcpNak) :
      Received client payload nowMs (netDhcpStart client nowMs).1
  | ack {options : DhcpOptions} (hread : readMessage client payload = .ok options)
      (hanswer : checkAnswer client options = none)
      (htype : options.messageType = some dhcpAck)
      (hrequest : AnswersOffer client (readBe32 payload 16)) {next : DhcpClient}
      (hbind : bindConfiguration client options (readBe32 payload 16) nowMs = some next) :
      Received client payload nowMs next

/-- What `net_dhcp_receive` does to the client is one of the cases of `Received`. -/
lemma netDhcpReceive_received (client : DhcpClient) (payload : List UInt8) (nowMs : UInt64) :
    Received client payload nowMs (netDhcpReceive client payload nowMs).2.1 := by
  rw [netDhcpReceive]
  split
  case h_1 => exact .kept
  case h_2 options hread =>
    by_cases hoffer : options.messageType = some dhcpOffer
    · rw [if_pos hoffer, receiveOffer]
      split
      · exact .kept
      · split_ifs with hstate hzero
        · exact .kept
        · exact .kept
        · exact .offer (not_not.1 hstate) (transmitForState_same _ nowMs).1
            (transmitForState_same _ nowMs).2.1
    rw [if_neg hoffer]
    by_cases hother : options.messageType ≠ some dhcpAck ∧ options.messageType ≠ some dhcpNak
    · rw [if_pos hother]
      exact .kept
    rw [if_neg hother]
    split
    case h_1 => exact .kept
    case h_2 hanswer =>
      split_ifs with hnak
      · exact .nak hread hanswer hnak
      · rw [receiveAck]
        have hack : options.messageType = some dhcpAck := by
          by_contra hne
          exact hother ⟨hne, hnak⟩
        by_cases hzero : client.state = .requesting ∧ readBe32 payload 16 = 0
        · rw [if_pos hzero]
          exact .kept
        by_cases hwrong : client.state = .requesting ∧ readBe32 payload 16 ≠ client.offeredAddress
        · rw [if_neg hzero, if_pos hwrong]
          exact .kept
        rw [if_neg hzero, if_neg hwrong]
        split
        case h_1 => exact .kept
        case h_2 hbind =>
          have hrequest : AnswersOffer client (readBe32 payload 16) := fun hstate =>
            ⟨fun h => hzero ⟨hstate, h⟩, not_not.1 fun h => hwrong ⟨hstate, h⟩⟩
          exact .ack hread hanswer hack hrequest hbind

/-- The client has the lease, or lack of one, that it had before. -/
def DhcpClient.SameLease (client next : DhcpClient) : Prop :=
  next.config = client.config ∧ next.offer = client.offer ∧
    (next.isConfigured ↔ client.isConfigured)

/-- Time makes a client with a lease keep it or let it expire, and gives a lease to no other. -/
lemma netDhcpPoll_effect (client : DhcpClient) (nowMs : UInt64) :
    (netDhcpPoll client nowMs).1.state = .expired ∧ (netDhcpPoll client nowMs).1.config = {} ∧
        client.config.expiresAtMs ≤ nowMs ∨
      client.SameLease (netDhcpPoll client nowMs).1 ∧
        (client.isConfigured → nowMs < client.config.expiresAtMs) := by
  have hsend : client.SameLease (transmitForState client nowMs).1 := by
    obtain ⟨hstate, hconfig, hoffer⟩ := transmitForState_same client nowMs
    refine ⟨hconfig, hoffer, ?_⟩
    rw [DhcpClient.isConfigured, hstate, DhcpClient.isConfigured]
  have hretry : client.SameLease (retryTransmit client nowMs).1 := by
    rw [retryTransmit]
    split_ifs
    · exact hsend
    · exact ⟨rfl, rfl, Iff.rfl⟩
  have henter (state : DhcpState) (hstate : state = .renewing ∨ state = .rebinding)
      (hleased : client.isConfigured) : client.SameLease (enterState client state nowMs).1 := by
    obtain ⟨hnext, hconfig, hoffer⟩ :=
      transmitForState_same (resetRetry { client with state := state }) nowMs
    exact ⟨hconfig, hoffer, iff_of_true (.inr (hnext ▸ hstate)) hleased⟩
  rw [netDhcpPoll]
  cases hstate : client.state with
  | selecting | requesting => exact .inr ⟨hretry, by simp [DhcpClient.isConfigured, hstate]⟩
  | bound =>
    split_ifs with hexpires
    · exact .inl ⟨rfl, rfl, hexpires⟩
    · exact .inr ⟨henter _ (.inr rfl) (.inl hstate), fun _ => UInt64.not_le.1 hexpires⟩
    · exact .inr ⟨henter _ (.inl rfl) (.inl hstate), fun _ => UInt64.not_le.1 hexpires⟩
    · exact .inr ⟨⟨rfl, rfl, Iff.rfl⟩, fun _ => UInt64.not_le.1 hexpires⟩
  | renewing =>
    dsimp only
    split_ifs with hexpires
    · exact .inl ⟨rfl, rfl, hexpires⟩
    · exact .inr ⟨henter _ (.inr rfl) (.inr (.inl hstate)), fun _ => UInt64.not_le.1 hexpires⟩
    · exact .inr ⟨hretry, fun _ => UInt64.not_le.1 hexpires⟩
  | rebinding =>
    dsimp only
    split_ifs with hexpires
    · exact .inl ⟨rfl, rfl, hexpires⟩
    · exact .inr ⟨hretry, fun _ => UInt64.not_le.1 hexpires⟩
  | init | expired =>
    exact .inr ⟨⟨rfl, rfl, Iff.rfl⟩, by simp [DhcpClient.isConfigured, hstate]⟩

/-- In the other states there is no lease. -/
lemma not_isConfigured_of {state : DhcpState} (h : client.state = state)
    (hstate : ¬ (state = .bound ∨ state = .renewing ∨ state = .rebinding) := by decide) :
    ¬ client.isConfigured := by
  rw [← h] at hstate
  exact hstate

/-- What holds of every lease given to the client holds of the one that it has. -/
lemma receive_lease {p : DhcpConfig → Prop}
    (hgiven : ∀ {options assignedAddress nowMs lease},
      boundConfiguration client options assignedAddress nowMs = some lease → p lease)
    (h : client.isConfigured → p client.config) (payload : List UInt8) (nowMs : UInt64)
    (hleased : (netDhcpReceive client payload nowMs).2.1.isConfigured) :
    p (netDhcpReceive client payload nowMs).2.1.config := by
  have hreceived := netDhcpReceive_received client payload nowMs
  generalize (netDhcpReceive client payload nowMs).2.1 = next at hreceived hleased ⊢
  cases hreceived with
  | kept => exact h hleased
  | offer hselecting hstate => exact absurd hleased (not_isConfigured_of hstate)
  | nak => exact absurd hleased (not_isConfigured_of (netDhcpStart_spec client nowMs).1)
  | ack hread hanswer htype hrequest hbind =>
    obtain ⟨lease, hlease, rfl⟩ := Option.map_eq_some_iff.1 hbind
    exact hgiven hlease

/-- A property of the lease is kept by `net_dhcp_poll`. -/
lemma poll_lease {p : DhcpConfig → Prop} (h : client.isConfigured → p client.config)
    (nowMs : UInt64) (hleased : (netDhcpPoll client nowMs).1.isConfigured) :
    p (netDhcpPoll client nowMs).1.config := by
  rcases netDhcpPoll_effect client nowMs with ⟨hexpired, -⟩ | ⟨⟨hconfig, -, hiff⟩, -⟩
  · exact absurd hleased (not_isConfigured_of hexpired)
  · rw [hconfig]
    exact h (hiff.1 hleased)

/-! ### Runs -/

/-- The calls that others make to the client. -/
inductive DhcpCall
  | start (nowMs : UInt64)
  | receive (payload : List UInt8) (nowMs : UInt64)
  | poll (nowMs : UInt64)

namespace DhcpClient

def call (client : DhcpClient) : DhcpCall → DhcpClient
  | .start nowMs => (netDhcpStart client nowMs).1
  | .receive payload nowMs => (netDhcpReceive client payload nowMs).2.1
  | .poll nowMs => (netDhcpPoll client nowMs).1

/-- Every call keeps the lease valid. -/
lemma valid_call (h : client.isConfigured → client.config.Valid) (call : DhcpCall)
    (hleased : (client.call call).isConfigured) : (client.call call).config.Valid := by
  cases call with
  | start nowMs => exact absurd hleased (not_isConfigured_of (netDhcpStart_spec client nowMs).1)
  | receive payload nowMs => exact receive_lease boundConfiguration_valid h payload nowMs hleased
  | poll nowMs => exact poll_lease h nowMs hleased

end DhcpClient

/-- A lease that the client has after any calls is well formed, and has not expired at the time of
the last poll. -/
theorem dhcp_lease_valid (hardwareAddress : List UInt8) (xidSeed : UInt32)
    (calls : List DhcpCall) :
    let client := calls.foldl DhcpClient.call (netDhcpInit hardwareAddress xidSeed)
    (client.isConfigured → client.config.Valid) ∧
      ∀ nowMs, (client.call (.poll nowMs)).isConfigured →
        nowMs < (client.call (.poll nowMs)).config.expiresAtMs := by
  intro client
  constructor
  · have hinit : (netDhcpInit hardwareAddress xidSeed).isConfigured →
        (netDhcpInit hardwareAddress xidSeed).config.Valid := by
      simp [DhcpClient.isConfigured, netDhcpInit]
    exact List.foldlRecOn (motive := fun client => client.isConfigured → client.config.Valid) calls
      DhcpClient.call hinit fun client h call _ => DhcpClient.valid_call h call
  · intro nowMs hleased
    rcases netDhcpPoll_effect client nowMs with ⟨hexpired, -⟩ | ⟨⟨hconfig, -, hiff⟩, htime⟩
    · exact absurd hleased (not_isConfigured_of hexpired)
    · rw [DhcpClient.call, hconfig]
      exact htime (hiff.1 hleased)

/-! ### Whose answers are heeded -/

namespace DhcpClient

/-- The server that the outstanding request is addressed to. -/
def requestedServer (client : DhcpClient) : UInt32 :=
  if client.state = .requesting then client.offer.serverIdentifier
  else client.config.serverIdentifier

/-- While the client requests or renews a lease, an answer that changes its state or its lease names
the server that was asked. -/
def HeedsServer (client : DhcpClient) : DhcpCall → Prop
  | .receive payload nowMs =>
    client.state = .requesting ∨ client.state = .renewing → ∀ options,
      parseOptions payload = some options →
        options.messageType = some dhcpAck ∨ options.messageType = some dhcpNak →
          (client.call (.receive payload nowMs)).state ≠ client.state ∨
            (client.call (.receive payload nowMs)).config ≠ client.config →
          options.serverIdentifier = some client.requestedServer
  | .start _ | .poll _ => True

/-- A client that rebinds accepts an acknowledgement from any server. It gets none that gives it a
lease, unless from the server of the lease that it has. -/
def KeepsServer (client : DhcpClient) : DhcpCall → Prop
  | .receive payload nowMs =>
    client.state = .rebinding → ∀ options ∈ (readMessage client payload).toOption,
      checkAnswer client options = none → options.messageType = some dhcpAck →
        (boundConfiguration client options (readBe32 payload 16) nowMs).isSome = true →
          options.serverIdentifier = some client.config.serverIdentifier
  | .start _ | .poll _ => True

instance (client : DhcpClient) : (call : DhcpCall) → Decidable (client.KeepsServer call)
  | .receive _ _ => inferInstanceAs (Decidable (_ → ∀ _ ∈ _, _ → _ → _ → _))
  | .start _ | .poll _ => .isTrue trivial

/-- A lease is from the server whose offer was taken. -/
structure OneServer (client : DhcpClient) : Prop where
  leased : client.isConfigured → client.config.serverIdentifier = client.offer.serverIdentifier
  idle : ¬client.isConfigured → client.config.serverIdentifier = 0

/-- An answer that passes the checks is from a server that the client knows, unless any will do. -/
lemma checkAnswer_server (h : checkAnswer client options = none) :
    ∃ server, options.serverIdentifier = some server ∧ server ≠ 0 ∧
      (client.state = .requesting ∨ client.state = .renewing ∨ client.state = .rebinding) ∧
      (client.state ≠ .rebinding → server = client.config.serverIdentifier ∨
        server = client.offer.serverIdentifier) := by
  rw [checkAnswer] at h
  split_ifs at h with hstate
  cases hserver : options.serverIdentifier with
  | none => simp [hserver] at h
  | some server =>
    simp only [hserver] at h
    split_ifs at h with hzero hother
    exact ⟨server, rfl, hzero, by grind, by grind⟩

/-- What was read is what the options say. -/
lemma parseOptions_of_readMessage {payload : List UInt8}
    (h : readMessage client payload = .ok options) : parseOptions payload = some options := by
  rw [readMessage] at h
  split_ifs at h
  cases hparse : parseOptions payload with
  | none => simp [hparse] at h
  | some parsed => simpa [hparse] using h

namespace OneServer

/-- Without a lease there is no server to follow. -/
lemma of_idle (hidle : ¬client.isConfigured) (h : client.config.serverIdentifier = 0) :
    client.OneServer :=
  ⟨fun hleased => absurd hleased hidle, fun _ => h⟩

variable (h : client.OneServer)
include h

/-- The answers that the client heeds while it requests or renews. -/
lemma requested (hstate : client.state = .requesting ∨ client.state = .renewing)
    (hanswer : checkAnswer client options = none) :
    options.serverIdentifier = some client.requestedServer := by
  obtain ⟨server, hserver, hzero, -, hknown⟩ := checkAnswer_server hanswer
  rw [hserver, requestedServer]
  rcases hstate with hstate | hstate
  · have hidle := h.idle (not_isConfigured_of hstate)
    have hknown := hknown (by rw [hstate]; decide)
    rw [if_pos hstate, hknown.resolve_left (hidle ▸ hzero)]
  · have hknown := hknown (by rw [hstate]; decide)
    rw [h.leased (.inr (.inl hstate)), or_self] at hknown
    rw [if_neg (by rw [hstate]; decide), h.leased (.inr (.inl hstate)), hknown]

/-- A client with one server heeds it. -/
lemma heedsServer (call : DhcpCall) : client.HeedsServer call := by
  cases call with
  | start nowMs | poll nowMs => trivial
  | receive payload nowMs =>
    intro hstate options hparse htype hchanged
    have hreceived := netDhcpReceive_received client payload nowMs
    rw [DhcpClient.call] at hchanged
    generalize (netDhcpReceive client payload nowMs).2.1 = next at hreceived hchanged
    cases hreceived with
    | kept => exact absurd hchanged (by simp)
    | offer hselecting => simp [hselecting] at hstate
    | nak hread hanswer | ack hread hanswer =>
      cases Option.some.inj (hparse.symm.trans (parseOptions_of_readMessage hread))
      exact h.requested hstate hanswer

/-- An acknowledgement that gives a lease is from the server whose offer was taken. -/
lemma acknowledged {payload : List UInt8} (hkeeps : client.KeepsServer (.receive payload nowMs))
    (hread : readMessage client payload = .ok options) (hanswer : checkAnswer client options = none)
    (htype : options.messageType = some dhcpAck) {lease : DhcpConfig}
    (hbound : boundConfiguration client options (readBe32 payload 16) nowMs = some lease) :
    options.serverIdentifier = some client.offer.serverIdentifier := by
  obtain ⟨_, -, -, hstate, -⟩ := checkAnswer_server hanswer
  rcases hstate with hstate | hstate | hstate
  · have hserver := h.requested (.inl hstate) hanswer
    rwa [requestedServer, if_pos hstate] at hserver
  · have hserver := h.requested (.inr hstate) hanswer
    rwa [requestedServer, if_neg (by rw [hstate]; decide), h.leased (.inr (.inl hstate))] at hserver
  · rw [← h.leased (.inr (.inr hstate))]
    exact hkeeps hstate options (by rw [hread]; rfl) hanswer htype (by rw [hbound]; rfl)

/-- A call that keeps the server keeps it the only one. -/
lemma call (call : DhcpCall) (hkeeps : client.KeepsServer call) :
    (client.call call).OneServer := by
  cases call with
  | start nowMs =>
    obtain ⟨hstate, hconfig⟩ := netDhcpStart_spec client nowMs
    exact of_idle (not_isConfigured_of hstate) (congrArg DhcpConfig.serverIdentifier hconfig)
  | receive payload nowMs =>
    have hreceived := netDhcpReceive_received client payload nowMs
    rw [DhcpClient.call]
    generalize (netDhcpReceive client payload nowMs).2.1 = next at hreceived ⊢
    cases hreceived with
    | kept => exact h
    | offer hselecting hstate hconfig =>
      refine of_idle (not_isConfigured_of hstate) ?_
      rw [hconfig, h.idle (not_isConfigured_of hselecting)]
    | nak =>
      obtain ⟨hstate, hconfig⟩ := netDhcpStart_spec client nowMs
      exact of_idle (not_isConfigured_of hstate) (congrArg DhcpConfig.serverIdentifier hconfig)
    | ack hread hanswer htype hrequest hbind =>
      obtain ⟨config, hbound, rfl⟩ := Option.map_eq_some_iff.1 hbind
      have hserver := h.acknowledged hkeeps hread hanswer htype hbound
      obtain ⟨lease, _, _, -, -, hlease, -, rfl⟩ := boundConfiguration_cases hbound
      exact ⟨fun _ => hlease _ hserver, fun hidle => absurd (.inl rfl) hidle⟩
  | poll nowMs =>
    rcases netDhcpPoll_effect client nowMs with
      ⟨hexpired, hconfig, -⟩ | ⟨⟨hconfig, hoffer, hiff⟩, -⟩
    · exact of_idle (not_isConfigured_of hexpired) (congrArg DhcpConfig.serverIdentifier hconfig)
    · rw [DhcpClient.call]
      constructor
      · rw [hiff, hconfig, hoffer]
        exact h.leased
      · rw [hiff, hconfig]
        exact h.idle

end OneServer

end DhcpClient

/-- As long as no other server takes a lease over while the client rebinds, only the server that was
asked can change the state or the lease of a client that requests or renews it. -/
theorem dhcp_answers_heeded {hardwareAddress : List UInt8} {xidSeed : UInt32}
    {calls : List DhcpCall}
    (h : AllSteps DhcpClient.call DhcpClient.KeepsServer (netDhcpInit hardwareAddress xidSeed)
      calls) :
    AllSteps DhcpClient.call DhcpClient.HeedsServer
      (netDhcpInit hardwareAddress xidSeed) calls := by
  have hinit : (netDhcpInit hardwareAddress xidSeed).OneServer :=
    .of_idle (by simp [DhcpClient.isConfigured, netDhcpInit]) rfl
  exact h.imp DhcpClient.OneServer (fun client call hone hkeeps =>
    ⟨hone.heedsServer call, hone.call call hkeeps⟩) hinit

/-- A message from a server to the client with the hardware address `mac`. -/
def serverMessage (mac : List UInt8) (xid address : UInt32) (options : List UInt8) : List UInt8 :=
  [dhcpOpBootreply, dhcpHtypeEthernet, 6, 0] ++ beBytes32 xid ++ List.replicate 8 0 ++
    beBytes32 address ++ List.replicate 8 0 ++ mac ++ List.replicate 202 0 ++
    beBytes32 dhcpMagicCookie ++ options ++ [dhcpOptionEnd]

/-- The hardware address of the client in the runs below. -/
def clientMac : List UInt8 := [2, 0, 0, 0, 0, 1]

/-- The answer of the server 10.0.0.`server` for 10.0.0.2, for an hour. -/
def dhcpAnswer (server messageType : UInt8) : List UInt8 :=
  serverMessage clientMac 7 0x0a000002 [dhcpOptionMessageType, 1, messageType,
    dhcpOptionServerIdentifier, 4, 10, 0, 0, server, dhcpOptionLeaseTime, 4, 0, 0, 14, 16]

/-- The server 10.0.0.1 gives a lease. -/
def leaseCalls : List DhcpCall :=
  [.start 0, .receive (dhcpAnswer 1 dhcpOffer) 10, .receive (dhcpAnswer 1 dhcpAck) 20]

/-- The lease is renewed. -/
theorem dhcp_answers_heeded_renewal :
    AllSteps DhcpClient.call DhcpClient.HeedsServer (netDhcpInit clientMac 7)
      (leaseCalls ++ [.poll 1800020, .receive (dhcpAnswer 1 dhcpAck) 1800030]) :=
  dhcp_answers_heeded (by decide +kernel)

/-- The server 10.0.0.9 takes the lease over, and then is asked to renew it. -/
def takenOverCalls : List DhcpCall :=
  leaseCalls ++ [.poll 3150020, .receive (dhcpAnswer 9 dhcpAck) 3150030, .poll 4950030]

/-- A refusal from 10.0.0.1 ends the lease that 10.0.0.9 has been asked to renew. -/
theorem dhcp_answer_of_other_server :
    let client := takenOverCalls.foldl DhcpClient.call (netDhcpInit clientMac 7)
    client.state = .renewing ∧ client.requestedServer = 0x0a000009 ∧
      (parseOptions (dhcpAnswer 1 dhcpNak)).bind DhcpOptions.serverIdentifier = some 0x0a000001 ∧
      (client.call (.receive (dhcpAnswer 1 dhcpNak) 4950040)).state = .selecting := by
  decide +kernel

end Northstar
