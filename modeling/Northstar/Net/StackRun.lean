import Northstar.Net.DhcpRun
import Northstar.Net.Stack

/-! # Addresses and leases

The device is configured exactly when the stack has a configuration applied, and then with its
address (`Applied`). This holds whatever happens. That the address is that of the current lease
(`Leased`) does not: only a renewal or the expiry of the lease is followed by a change of the
configuration, so a restart of the client leaves the address in use. -/

namespace Northstar

/-! ### The client -/

variable {client : DhcpClient} {options : DhcpOptions} {payload : List UInt8}

/-- What a datagram can do to the client: nothing that matters, a restart, or a new lease. -/
inductive ReceiveEffect (client : DhcpClient) (payload : List UInt8) (nowMs : UInt64) :
    DhcpClient → Prop
  | same {next : DhcpClient} (hstate : next.state = client.state)
      (hconfig : next.config = client.config) : ReceiveEffect client payload nowMs next
  | offer {next : DhcpClient} (hselecting : client.state = .selecting)
      (hstate : next.state = .requesting) : ReceiveEffect client payload nowMs next
  | nak {next : DhcpClient} {options : DhcpOptions}
      (hread : readMessage client payload = .ok options)
      (hanswer : checkAnswer client options = none)
      (htype : options.messageType = some dhcpNak) (hstate : next.state = .selecting) :
      ReceiveEffect client payload nowMs next
  | ack {next : DhcpClient} {options : DhcpOptions}
      (hread : readMessage client payload = .ok options)
      (hanswer : checkAnswer client options = none)
      (htype : options.messageType = some dhcpAck)
      (hrequest : AnswersOffer client (readBe32 payload 16)) (hstate : next.state = .bound)
      (hbound : boundConfiguration client options (readBe32 payload 16) nowMs = some next.config) :
      ReceiveEffect client payload nowMs next

/-- What `net_dhcp_receive` does to the state and the lease of the client. -/
lemma netDhcpReceive_effect (client : DhcpClient) (payload : List UInt8) (nowMs : UInt64) :
    ReceiveEffect client payload nowMs (netDhcpReceive client payload nowMs).2.1 := by
  have h := netDhcpReceive_received client payload nowMs
  generalize (netDhcpReceive client payload nowMs).2.1 = next at h ⊢
  cases h with
  | kept => exact .same rfl rfl
  | offer hselecting hstate hconfig => exact .offer hselecting hstate
  | nak hread hanswer htype =>
    exact .nak hread hanswer htype (netDhcpStart_spec client nowMs).1
  | ack hread hanswer htype hrequest hbind =>
    obtain ⟨lease, hbound, rfl⟩ := Option.map_eq_some_iff.1 hbind
    exact .ack hread hanswer htype hrequest rfl hbound

section

variable (hread : readMessage client payload = .ok options)
  (hanswer : checkAnswer client options = none)
include hread hanswer

/-- A refusal restarts the client. -/
lemma netDhcpReceive_nak (htype : options.messageType = some dhcpNak) (nowMs : UInt64) :
    (netDhcpReceive client payload nowMs).2.1.state = .selecting := by
  rw [netDhcpReceive, hread]
  dsimp only
  rw [if_neg (by rw [htype]; decide), if_neg (fun h => h.2 htype), hanswer]
  rw [if_pos htype]
  exact (netDhcpStart_spec client nowMs).1

/-- An acknowledgement puts the new lease in place. -/
lemma netDhcpReceive_ack (htype : options.messageType = some dhcpAck) {nowMs : UInt64}
    (hrequest : AnswersOffer client (readBe32 payload 16)) {lease : DhcpConfig}
    (hbound : boundConfiguration client options (readBe32 payload 16) nowMs = some lease) :
    (netDhcpReceive client payload nowMs).2.1.state = .bound ∧
      (netDhcpReceive client payload nowMs).2.1.config = lease := by
  rw [netDhcpReceive, hread]
  dsimp only
  rw [if_neg (by rw [htype]; decide), if_neg (fun h => h.1 htype), hanswer]
  rw [if_neg (by rw [htype]; decide), receiveAck, if_neg (fun h => (hrequest h.1).1 h.2),
    if_neg (fun h => h.2 (hrequest h.1).2), bindConfiguration, hbound]
  exact ⟨rfl, rfl⟩

end

/-! ### The configuration -/

namespace NetStack

/-- The device is configured exactly as the stack remembers, and leases are for an address. -/
structure Ok (stack : NetStack) : Prop where
  configured : stack.device.ipv4.configured = stack.applied.valid
  address : stack.applied.valid = true → stack.device.ipv4.address = stack.applied.address
  lease : stack.dhcp.isConfigured → stack.dhcp.config.address ≠ 0

/-- An address of the device is that of the current lease. -/
def Leased (stack : NetStack) : Prop :=
  stack.device.ipv4.configured = true →
    stack.dhcp.isConfigured ∧ stack.device.ipv4.address = stack.dhcp.config.address

instance (stack : NetStack) : Decidable stack.Leased :=
  inferInstanceAs (Decidable (_ → _ ∧ _))

/-- What is left of the device once `apply_ipv4_config` has looked at its arguments. -/
def Configures (stack stack' : NetStack) (address : UInt32) : Prop :=
  stack'.dhcp = stack.dhcp ∧ stack'.device.ipv4.configured = stack'.applied.valid ∧
    (stack'.applied.valid = true →
      stack'.device.ipv4.address = address ∧ stack'.applied.address = address)

variable {address : UInt32} {stack stack' : NetStack}

/-- The routes are all in place at the end, or the device is cleared. -/
lemma applyRoutes_cases (stack : NetStack) (address netmask gateway dnsServer : UInt32) :
    ∃ routes, (stack.applyRoutes address netmask gateway dnsServer).2 =
        stack.commit routes address netmask gateway dnsServer ∨
      (stack.applyRoutes address netmask gateway dnsServer).2 = stack.abandon routes := by
  rw [applyRoutes]
  split
  · split_ifs
    · split
      · exact ⟨_, .inl rfl⟩
      · exact ⟨_, .inr rfl⟩
    · exact ⟨_, .inl rfl⟩
  · exact ⟨_, .inr rfl⟩

/-- `applyRoutes` configures the stack, or clears the device. -/
lemma applyRoutes_configures (stack : NetStack)
    (netmask gateway dnsServer : UInt32) (hconfigured : stack.device.ipv4.configured = true)
    (haddress : stack.device.ipv4.address = address) :
    Configures stack (stack.applyRoutes address netmask gateway dnsServer).2 address := by
  obtain ⟨routes, h | h⟩ := applyRoutes_cases stack address netmask gateway dnsServer
  · rw [h]
    exact ⟨rfl, hconfigured, fun _ => ⟨haddress, rfl⟩⟩
  · rw [h]
    exact ⟨rfl, rfl, nofun⟩

/-- A device that was configured has the address. -/
lemma netDeviceConfigureIpv4_ok {device device' : NetDevice} {netmask gateway : UInt32}
    (h : netDeviceConfigureIpv4 device address netmask gateway = (.ok, device')) :
    device'.ipv4.configured = true ∧ device'.ipv4.address = address := by
  rw [netDeviceConfigureIpv4] at h
  split_ifs at h
  · cases (Prod.mk.inj h).1
  · cases (Prod.mk.inj h).1
  · cases (Prod.mk.inj h).1
  · rw [← (Prod.mk.inj h).2]
    exact ⟨rfl, rfl⟩

/-- `applyIpv4Config` configures the stack, or leaves it without an address. -/
lemma applyIpv4Config_configures (hok : stack.Ok) {netmask : UInt32} (gateway dnsServer : UInt32)
    (hargs : ¬(address = 0 ∨ netmask = 0)) :
    Configures stack (stack.applyIpv4Config address netmask gateway dnsServer).2 address := by
  rw [applyIpv4Config, if_neg hargs]
  obtain ⟨cleared, hcleared⟩ :
      ∃ cleared, (if stack.applied.valid = true then stack.withdraw else stack) = cleared :=
    ⟨_, rfl⟩
  have hdhcp : cleared.dhcp = stack.dhcp ∧ cleared.device.ipv4.configured = false := by
    rw [← hcleared]
    split_ifs with hvalid
    · exact ⟨rfl, rfl⟩
    · exact ⟨rfl, by rw [hok.configured, Bool.eq_false_iff.2 hvalid]⟩
  dsimp only
  rw [hcleared]
  split
  case h_1 device hdevice =>
    obtain ⟨hconfigured, haddress⟩ := netDeviceConfigureIpv4_ok hdevice
    have hroutes := applyRoutes_configures { cleared with device := device } netmask gateway
      dnsServer hconfigured haddress
    exact ⟨hroutes.1.trans hdhcp.1, hroutes.2⟩
  case h_2 => exact ⟨hdhcp.1, hdhcp.2, nofun⟩

/-- What `synchronize_dhcp_config` makes of the device. -/
inductive SyncEffect (stack stack' : NetStack) : Prop
  | same (h : stack' = stack) (hstate : stack.dhcp.isConfigured →
      stack.device.ipv4.configured = true ∧
        stack.device.ipv4.address = stack.dhcp.config.address ∨ stack.dhcp.config.subnetMask = 0)
      (hexpired : stack.dhcp.state = .expired → stack.device.ipv4.configured = false)
  | cleared (hdhcp : stack'.dhcp = stack.dhcp) (hstate : stack.dhcp.state = .expired)
      (hdevice : stack'.device.ipv4.configured = false) (hvalid : stack'.applied.valid = false)
  | configured (hstate : stack.dhcp.isConfigured) (hmask : stack.dhcp.config.subnetMask ≠ 0)
      (h : Configures stack stack' stack.dhcp.config.address)

/-- Clearing the configuration of a lease that has expired. -/
lemma clearIpv4Config_effect (hok : stack.Ok)
    (hstate : stack.dhcp.state = .expired) : SyncEffect stack stack.clearIpv4Config := by
  rw [clearIpv4Config]
  split_ifs with hvalid
  · refine .same rfl (fun hconfigured => ?_) fun _ => hok.configured.trans hvalid
    simp [DhcpClient.isConfigured, hstate] at hconfigured
  · exact .cleared rfl hstate rfl rfl

/-- What following the client can do to the stack. -/
lemma synchronizeDhcpConfig_effect (hok : stack.Ok) :
    SyncEffect stack stack.synchronizeDhcpConfig := by
  rw [synchronizeDhcpConfig]
  by_cases hstate : stack.dhcp.isConfigured
  · have hexpired : stack.dhcp.state ≠ .expired := by
      intro h
      simp [DhcpClient.isConfigured, h] at hstate
    dsimp only
    split_ifs with happlied
    · refine .same rfl (fun _ => .inl ?_) fun h => absurd h hexpired
      have hvalid : stack.applied.valid = true := by rw [happlied]
      refine ⟨hok.configured.trans hvalid, (hok.address hvalid).trans ?_⟩
      rw [happlied]
    · by_cases hmask : stack.dhcp.config.subnetMask = 0
      · rw [applyIpv4Config, if_pos (.inr hmask)]
        exact .same rfl (fun _ => .inr hmask) fun h => absurd h hexpired
      · refine .configured hstate hmask (applyIpv4Config_configures hok _ _ ?_)
        exact fun h => h.elim (hok.lease hstate) hmask
  · rw [if_pos hstate]
    split_ifs with hexpired
    · exact clearIpv4Config_effect hok hexpired
    · exact .same rfl (fun h => absurd h hstate) fun h => absurd h hexpired

section

variable (h : SyncEffect stack stack')
include h

/-- Following the client does not change it. -/
lemma SyncEffect.dhcp : stack'.dhcp = stack.dhcp := by
  rcases h with ⟨rfl, -, -⟩ | ⟨hdhcp, -, -, -⟩ | ⟨-, -, hdhcp, -⟩
  · rfl
  · exact hdhcp
  · exact hdhcp

/-- Following the client keeps the stack in order. -/
lemma SyncEffect.ok (hok : stack.Ok) : stack'.Ok := by
  have hlease : stack'.dhcp.isConfigured → stack'.dhcp.config.address ≠ 0 := by
    rw [h.dhcp]
    exact hok.lease
  rcases h with ⟨rfl, -, -⟩ | ⟨-, -, hdevice, hvalid⟩ | ⟨-, -, -, hvalid, haddress⟩
  · exact hok
  · refine ⟨hdevice.trans hvalid.symm, fun h => ?_, hlease⟩
    rw [hvalid] at h
    cases h
  · exact ⟨hvalid, fun h => (haddress h).1.trans (haddress h).2.symm, hlease⟩

/-- Synchronisation ends with a leased address, unless the device has an address to which the client
has no lease, and keeps it because the client has not let a lease expire or has one with no
netmask. -/
lemma SyncEffect.leased_iff :
    stack'.Leased ↔ (stack.device.ipv4.configured = true → stack.dhcp.state = .expired ∨
      stack.dhcp.isConfigured ∧ (stack.device.ipv4.address = stack.dhcp.config.address ∨
        stack.dhcp.config.subnetMask ≠ 0)) := by
  rcases h with ⟨rfl, hstate, hexpired⟩ | ⟨-, hstate, hdevice, -⟩ |
    ⟨hstate, hmask, hdhcp, hvalid, haddress⟩
  · constructor
    · intro hleased hconfigured
      exact .inr ⟨(hleased hconfigured).1, .inl (hleased hconfigured).2⟩
    · intro h hconfigured
      rcases h hconfigured with hexp | ⟨hstate', haddress | hmask⟩
      · rw [hexpired hexp] at hconfigured
        cases hconfigured
      · exact ⟨hstate', haddress⟩
      · exact ⟨hstate', ((hstate hstate').resolve_right hmask).2⟩
  · constructor
    · exact fun _ _ => .inl hstate
    · intro _ hconfigured
      rw [hdevice] at hconfigured
      cases hconfigured
  · constructor
    · exact fun _ _ => .inr ⟨hstate, .inr hmask⟩
    · intro _ hconfigured
      rw [hdhcp]
      exact ⟨hstate, (haddress (hvalid ▸ hconfigured)).1⟩

end

/-! ### Runs -/

/-- A new state of the client keeps the stack in order if a lease has an address. -/
lemma ok_setDhcp (hok : stack.Ok) {dhcp : DhcpClient × Option DhcpDatagram}
    (hlease : dhcp.1.isConfigured → dhcp.1.config.address ≠ 0) : (stack.setDhcp dhcp).Ok :=
  ⟨hok.configured, hok.address, hlease⟩

/-- Receiving a datagram keeps the stack in order. -/
lemma Ok.setDhcp_receive (hok : stack.Ok) (payload : List UInt8) (nowMs : UInt64) :
    (stack.setDhcp (netDhcpReceive stack.dhcp payload nowMs).2).Ok :=
  ok_setDhcp hok (receive_lease (fun h => (boundConfiguration_valid h).address) hok.lease payload
    nowMs)

/-- Polling keeps the stack in order. -/
lemma Ok.setDhcp_poll (hok : stack.Ok) (nowMs : UInt64) :
    (stack.setDhcp (netDhcpPoll stack.dhcp nowMs)).Ok :=
  ok_setDhcp hok (poll_lease (p := (·.address ≠ 0)) hok.lease nowMs)

/-- A new stack is in order. -/
lemma ok_init (mac : List UInt8) (dhcpXidSeed : UInt32) : (netStackInit mac dhcpXidSeed).Ok := by
  refine ⟨rfl, fun h => Bool.noConfusion h, fun h => ?_⟩
  have hstate : (netStackInit mac dhcpXidSeed).dhcp.state = .init := rfl
  exact absurd h (not_isConfigured_of hstate)

/-- Every event keeps the device as the stack remembers it. -/
lemma Ok.step (hok : stack.Ok) (event : NetEvent) : (stack.step event).Ok := by
  cases event with
  | startDhcp nowMs =>
    rw [NetStack.step, startDhcp]
    split_ifs
    · exact hok
    · refine ok_setDhcp hok fun h => ?_
      exact absurd h (not_isConfigured_of (netDhcpStart_spec stack.dhcp nowMs).1)
  | frame datagram nowMs =>
    cases datagram with
    | none => exact hok
    | some payload =>
      rw [NetStack.step, receiveFrame]
      split_ifs
      · exact hok
      · have hset := hok.setDhcp_receive payload nowMs
        exact (synchronizeDhcpConfig_effect hset).ok hset
  | poll nowMs =>
    rw [NetStack.step, poll]
    split_ifs
    · exact hok
    · have hset := hok.setDhcp_poll nowMs
      exact (synchronizeDhcpConfig_effect hset).ok hset
  | shutdown => exact ⟨hok.configured, hok.address, hok.lease⟩

/-- The events that leave a leased address leased. While the device has an address, the client must
not be restarted, whether by the owner of the stack or by a refusal from the server, and an
acknowledgement that changes the address must come with a netmask. -/
def Keeps (stack : NetStack) : NetEvent → Prop
  | .startDhcp _ => stack.initialized = true → stack.device.ipv4.configured = false
  | .frame none _ => True
  | .frame (some payload) nowMs =>
    stack.device.registered = true → stack.device.ipv4.configured = true →
      ∀ options, readMessage stack.dhcp payload = .ok options →
        checkAnswer stack.dhcp options = none →
          options.messageType ≠ some dhcpNak ∧
          (options.messageType = some dhcpAck → ∀ lease,
            boundConfiguration stack.dhcp options (readBe32 payload 16) nowMs = some lease →
              lease.address = stack.dhcp.config.address ∨ lease.subnetMask ≠ 0)
  | .poll _ => True
  | .shutdown => True

/-- What a datagram does to a stack with a leased address, before it is synchronised. -/
lemma receive_leased_iff (hleased : stack.Leased) (payload : List UInt8)
    (nowMs : UInt64) (hregistered : stack.device.registered = true) :
    (stack.device.ipv4.configured = true →
      (netDhcpReceive stack.dhcp payload nowMs).2.1.state = .expired ∨
      (netDhcpReceive stack.dhcp payload nowMs).2.1.isConfigured ∧
        (stack.device.ipv4.address =
            (netDhcpReceive stack.dhcp payload nowMs).2.1.config.address ∨
          (netDhcpReceive stack.dhcp payload nowMs).2.1.config.subnetMask ≠ 0)) ↔
      stack.Keeps (.frame (some payload) nowMs) := by
  constructor
  · intro h _ hconfigured options hread hanswer
    obtain ⟨hlease, haddress⟩ := hleased hconfigured
    refine ⟨fun htype => ?_, fun htype lease hbound => ?_⟩
    · have hselecting := netDhcpReceive_nak hread hanswer htype nowMs
      rcases h hconfigured with hexpired | ⟨hconfigured', -⟩
      · rw [hselecting] at hexpired
        cases hexpired
      · exact (not_isConfigured_of hselecting) hconfigured'
    · have hrequest : AnswersOffer stack.dhcp (readBe32 payload 16) := fun hstate =>
        absurd hlease (not_isConfigured_of hstate)
      obtain ⟨hbound', hconfig⟩ := netDhcpReceive_ack hread hanswer htype hrequest hbound
      rcases h hconfigured with hexpired | ⟨-, hkept⟩
      · rw [hbound'] at hexpired
        cases hexpired
      · rw [hconfig, haddress] at hkept
        exact hkept.imp_left Eq.symm
  · intro hkeeps hconfigured
    obtain ⟨hlease, haddress⟩ := hleased hconfigured
    cases netDhcpReceive_effect stack.dhcp payload nowMs with
    | same hstate hconfig =>
      rw [DhcpClient.isConfigured, hstate, hconfig]
      exact .inr ⟨hlease, .inl haddress⟩
    | offer hselecting hstate =>
      exact absurd hlease (not_isConfigured_of hselecting)
    | nak hread hanswer htype hstate =>
      exact absurd htype (hkeeps hregistered hconfigured _ hread hanswer).1
    | ack hread hanswer htype hrequest hstate hbound =>
      have hkept := (hkeeps hregistered hconfigured _ hread hanswer).2 htype _ hbound
      rw [haddress]
      exact .inr ⟨.inl hstate, hkept.imp_left Eq.symm⟩

/-- An event leaves a leased address leased exactly if it is one of those that do. -/
lemma leased_step_iff (hok : stack.Ok) (hleased : stack.Leased)
    (event : NetEvent) : (stack.step event).Leased ↔ stack.Keeps event := by
  cases event with
  | startDhcp nowMs =>
    rw [NetStack.step, startDhcp, Keeps]
    split_ifs with hinit
    · simp [hleased, hinit]
    · have hstart := not_isConfigured_of (netDhcpStart_spec stack.dhcp nowMs).1
      constructor
      · intro h _
        by_contra hconfigured
        exact hstart (h (Bool.eq_true_of_not_eq_false hconfigured)).1
      · intro h hconfigured
        have hnone : stack.device.ipv4.configured = false := h (Bool.eq_true_of_not_eq_false hinit)
        have hsome : stack.device.ipv4.configured = true := hconfigured
        rw [hnone] at hsome
        cases hsome
  | frame datagram nowMs =>
    cases datagram with
    | none => exact iff_of_true hleased trivial
    | some payload =>
      rw [NetStack.step, receiveFrame]
      by_cases hregistered : stack.device.registered = false
      · rw [if_pos hregistered]
        refine iff_of_true hleased fun h => ?_
        rw [hregistered] at h
        cases h
      · rw [if_neg hregistered, ← receive_leased_iff hleased payload nowMs
          (Bool.eq_true_of_not_eq_false hregistered)]
        have hset := hok.setDhcp_receive payload nowMs
        exact (synchronizeDhcpConfig_effect hset).leased_iff
  | poll nowMs =>
    rw [NetStack.step, poll]
    split_ifs
    · exact iff_of_true hleased trivial
    · have hset := hok.setDhcp_poll nowMs
      refine iff_of_true ((synchronizeDhcpConfig_effect hset).leased_iff.2 fun hconfigured => ?_)
        trivial
      obtain ⟨hlease, haddress⟩ := hleased hconfigured
      rcases netDhcpPoll_effect stack.dhcp nowMs with ⟨hexpired, -⟩ | ⟨⟨hconfig, -, hiff⟩, -⟩
      · exact .inl hexpired
      · refine .inr ⟨hiff.2 hlease, .inl ?_⟩
        show stack.device.ipv4.address = (netDhcpPoll stack.dhcp nowMs).1.config.address
        rw [hconfig]
        exact haddress
  | shutdown => exact iff_of_true hleased trivial

end NetStack

/-- In a run of the stack that is never configured statically, the address of the device is that of
the current lease all along exactly if the client is never restarted, by its owner or by a refusal
from the server, while the device has an address, and no acknowledgement changes the address but
withholds the netmask. -/
theorem address_leased_throughout_iff (mac : List UInt8) (dhcpXidSeed : UInt32)
    (events : List NetEvent) :
    Always NetStack.step NetStack.Leased (netStackInit mac dhcpXidSeed) events ↔
      AllSteps NetStack.step NetStack.Keeps (netStackInit mac dhcpXidSeed) events := by
  have hinit : (netStackInit mac dhcpXidSeed).Ok ∧ (netStackInit mac dhcpXidSeed).Leased :=
    ⟨NetStack.ok_init mac dhcpXidSeed, fun h => Bool.noConfusion h⟩
  refine always_iff_allSteps (fun stack : NetStack => stack.Ok ∧ stack.Leased) (fun _ h => h.2)
    (fun stack event h hkeeps => ?_) (fun stack event h hnot hleased => ?_) hinit events
  · exact ⟨h.1.step event, (NetStack.leased_step_iff h.1 h.2 event).2 hkeeps⟩
  · exact hnot ((NetStack.leased_step_iff h.1 h.2 event).1 hleased)

/-- The server 10.0.0.1 leases 10.0.0.2 to the client for an hour. -/
def leaseEvents : List NetEvent :=
  let options (messageType : UInt8) : List UInt8 :=
    [dhcpOptionMessageType, 1, messageType, dhcpOptionServerIdentifier, 4, 10, 0, 0, 1,
      dhcpOptionSubnetMask, 4, 255, 255, 255, 0, dhcpOptionLeaseTime, 4, 0, 0, 14, 16]
  [.startDhcp 0, .frame (some (serverMessage clientMac 7 0x0a000002 (options dhcpOffer))) 10,
    .frame (some (serverMessage clientMac 7 0x0a000002 (options dhcpAck))) 20]

/-- A restart. -/
def restartEvents : List NetEvent := leaseEvents ++ [.startDhcp 1000]

/-- A renewal that the server refuses. -/
def refusalEvents : List NetEvent :=
  leaseEvents ++ [.poll 1800020, .frame (some (serverMessage clientMac 7 0
    [dhcpOptionMessageType, 1, dhcpNak, dhcpOptionServerIdentifier, 4, 10, 0, 0, 1])) 1800030]

/-- After a restart, and after a refused renewal, the device goes on using the address whose lease
is gone. -/
theorem address_outlives_lease :
    (let stack := restartEvents.foldl NetStack.step (netStackInit clientMac 7)
     stack.device.ipv4.configured = true ∧ stack.device.ipv4.address = 0x0a000002 ∧
       stack.dhcp.state = .selecting ∧ ¬ stack.Leased) ∧
    (let stack := refusalEvents.foldl NetStack.step (netStackInit clientMac 7)
     stack.device.ipv4.configured = true ∧ stack.device.ipv4.address = 0x0a000002 ∧
       stack.dhcp.state = .selecting ∧ ¬ stack.Leased) := by
  decide +kernel

end Northstar
