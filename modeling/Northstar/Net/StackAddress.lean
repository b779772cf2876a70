import Northstar.Net.StackRun
import Northstar.Lib.Trace

/-! # The local address in the layers above the device

A successful configuration tells its address to UDP, DNS and the sockets, and the expiry of a lease
takes it back from them. A configuration that is refused takes the previous one away from the device
only: the layers keep an address that the device no longer has. -/

namespace Northstar

/-- What can happen to the stack, and the calls that configure it statically. -/
inductive NetCall
  | event (event : NetEvent)
  | configureStatic (address netmask gateway dnsServer : UInt32)

namespace NetStack

variable (stack : NetStack)

/-- `net_stack_configure_static`. -/
def configureStatic (address netmask gateway dnsServer : UInt32) : NetStatus × NetStack :=
  if stack.initialized = false then (.invalid, stack)
  else stack.applyIpv4Config address netmask gateway dnsServer

/-- One call. -/
def call : NetCall → NetStack
  | .event event => stack.step event
  | .configureStatic address netmask gateway dnsServer =>
    (stack.configureStatic address netmask gateway dnsServer).2

/-- The address of the device, or 0. -/
def deviceAddress : UInt32 :=
  if stack.device.ipv4.configured then stack.device.ipv4.address else 0

/-- The local addresses of UDP, DNS and the sockets. -/
def localAddresses : List UInt32 :=
  [stack.udpLocalAddress, stack.dnsLocalAddress, stack.backendLocalAddress]

/-- All layers know the address of the device. -/
def Known : Prop := ∀ address ∈ stack.localAddresses, address = stack.deviceAddress

instance : Decidable stack.Known := inferInstanceAs (Decidable (∀ _ ∈ _, _))

/-- The tests of `net_device_configure_ipv4` on its arguments. -/
def Admits (address netmask gateway : UInt32) : Prop :=
  stack.device.registered = true ∧ isUnicast address = true ∧
    netmaskIsContiguous netmask = true ∧ netmask ≠ 0 ∧
    isReservedHost (~~~netmask) address = false ∧
    (gateway ≠ 0 → isUnicast gateway = true ∧ gateway ≠ address ∧
      address &&& netmask = gateway &&& netmask ∧ isReservedHost (~~~netmask) gateway = false)

/-- A configuration can take the place of another one, or `apply_ipv4_config` turns it away before
it touches anything. -/
def Replaceable (address netmask gateway : UInt32) : Prop :=
  address = 0 ∨ netmask = 0 ∨ stack.Admits address netmask gateway

/-- The lease is the configuration in place, or can take its place. -/
def Takes (lease : DhcpConfig) : Prop :=
  stack.applied =
      { address := lease.address, netmask := lease.subnetMask, gateway := lease.router
        dnsServer := leaseDnsServer lease, valid := true } ∨
    stack.Replaceable lease.address lease.subnetMask lease.router

end NetStack

/-- The datagram is an acknowledgement that the client accepts, and gives it the lease. -/
def Acknowledges (client : DhcpClient) (payload : List UInt8) (nowMs : UInt64)
    (lease : DhcpConfig) : Prop :=
  ∃ options, readMessage client payload = .ok options ∧ checkAnswer client options = none ∧
    options.messageType = some dhcpAck ∧ AnswersOffer client (readBe32 payload 16) ∧
    boundConfiguration client options (readBe32 payload 16) nowMs = some lease

/-- The datagram is a refusal that the client accepts. -/
def Refuses (client : DhcpClient) (payload : List UInt8) : Prop :=
  ∃ options, readMessage client payload = .ok options ∧ checkAnswer client options = none ∧
    options.messageType = some dhcpNak

namespace NetStack

variable (stack : NetStack)

/-- The calls that do not lose the configuration in place: whatever is to replace it can do so. The
caller gives that, or an acknowledgement, or the client has it as its lease and the stack has since
been configured otherwise. -/
def Retains : NetCall → Prop
  | .configureStatic address netmask gateway _ =>
    stack.applied.valid = true → stack.initialized = true →
      stack.Replaceable address netmask gateway
  | .event (.frame (some payload) nowMs) =>
    stack.applied.valid = true → stack.device.registered = true →
      (∀ lease, Acknowledges stack.dhcp payload nowMs lease → stack.Takes lease) ∧
      (stack.dhcp.isConfigured → ¬Refuses stack.dhcp payload →
        (∀ lease, ¬Acknowledges stack.dhcp payload nowMs lease) → stack.Takes stack.dhcp.config)
  | .event (.poll nowMs) =>
    stack.applied.valid = true → stack.initialized = true → stack.dhcp.isConfigured →
      nowMs < stack.dhcp.config.expiresAtMs → stack.Takes stack.dhcp.config
  | .event (.startDhcp _) | .event (.frame none _) | .event .shutdown => True

end NetStack

/-! ### Routes -/

/-- The table without routes. -/
def noRoutes : List (Option Ipv4Route) := List.replicate netIpv4MaxRoutes none

/-- The table with the routes of a configuration. -/
def routesFor (address netmask gateway : UInt32) : List (Option Ipv4Route) :=
  some { network := address &&& netmask &&& netmask, netmask := netmask, gateway := 0
         metric := 0 } ::
    (if gateway ≠ 0 then some { network := 0, netmask := 0, gateway := gateway, metric := 100 }
      else none) :: List.replicate 6 none

variable {address netmask gateway : UInt32}

/-- The routes of a configuration go with it. -/
lemma netIpv4RouteRemove_routesFor (h : netmaskIsContiguous netmask = true) :
    (netIpv4RouteRemove (netIpv4RouteRemove (routesFor address netmask gateway)
      (address &&& netmask) netmask).2 0 0).2 = noRoutes := by
  have hmask : netmaskPrefixLength netmask ≠ none := Option.isSome_iff_ne_none.1 h
  have hleads : Ipv4Route.leadsTo (address &&& netmask) netmask (some
      { network := address &&& netmask &&& netmask, netmask := netmask, gateway := 0
        metric := 0 }) = true := decide_eq_true ⟨rfl, rfl⟩
  have hfirst : (netIpv4RouteRemove (routesFor address netmask gateway)
      (address &&& netmask) netmask).2 = (routesFor address netmask gateway).set 0 none := by
    rw [netIpv4RouteRemove, if_neg hmask, routesFor, List.findIdx?_cons, if_pos hleads]
  rw [hfirst, netIpv4RouteRemove, if_neg (by decide), routesFor, List.set_cons_zero]
  by_cases hgateway : gateway = 0
  · rw [if_neg (not_not.2 hgateway)]
    rfl
  · rw [if_pos hgateway]
    rfl

/-! ### Configurations -/

namespace NetStack

variable {stack stack' : NetStack}

/-- `net_device_configure_ipv4` takes what passes its tests. -/
lemma netDeviceConfigureIpv4_of_admits (h : stack.Admits address netmask gateway) :
    netDeviceConfigureIpv4 stack.device address netmask gateway =
      (.ok, { stack.device with
        ipv4 :=
          { address := address, netmask := netmask, gateway := gateway,
            configured := true } }) := by
  obtain ⟨hregistered, hunicast, hmask, hzero, hhost, hgateway⟩ := h
  rw [netDeviceConfigureIpv4, if_neg (by simp [hregistered, hunicast, hmask, hzero]),
    if_neg (by simp [hhost]), if_neg fun h => ?_]
  obtain ⟨hgunicast, hother, hnet, hghost⟩ := hgateway h.1
  simp [hgunicast, hother, hnet, hghost] at h

/-- `net_device_configure_ipv4` refuses anything else and changes nothing. -/
lemma netDeviceConfigureIpv4_of_not_admits (h : ¬stack.Admits address netmask gateway) :
    netDeviceConfigureIpv4 stack.device address netmask gateway = (.invalid, stack.device) := by
  rw [netDeviceConfigureIpv4]
  split_ifs with hargs hhost hgateway
  · rfl
  · rfl
  · rfl
  · simp only [not_or, not_and, Bool.not_eq_false, Bool.not_eq_true,
      not_not] at hargs hhost hgateway
    exact absurd ⟨hargs.1, hargs.2.1, hargs.2.2.1, hargs.2.2.2, hhost, hgateway⟩ h

/-- The routes find their places in a table without any. -/
lemma applyRoutes_of_admits (h : stack.Admits address netmask gateway)
    (hroutes : stack.routes = noRoutes) (dnsServer : UInt32) {device : NetDevice}
    (hdevice : netDeviceConfigureIpv4 stack.device address netmask gateway = (.ok, device)) :
    (applyRoutes { stack with device := device } address netmask gateway dnsServer).2 =
      commit { stack with device := device } (routesFor address netmask gateway) address netmask
        gateway dnsServer := by
  rw [netDeviceConfigureIpv4_of_admits h] at hdevice
  obtain rfl := (Prod.mk.inj hdevice).2
  obtain ⟨hregistered, -, hmask, hzero, -, hgateway⟩ := h
  have hnetwork : netIpv4RouteAdd
      { stack.device with
        ipv4 := { address := address, netmask := netmask, gateway := gateway, configured := true } }
      noRoutes (address &&& netmask) netmask 0 0 = (.ok, routesFor address netmask 0) := by
    have hprefix : netmaskPrefixLength netmask ≠ none := Option.isSome_iff_ne_none.1 hmask
    rw [netIpv4RouteAdd, if_neg (by simp [hregistered, hprefix]), if_neg (by simp)]
    rfl
  rw [applyRoutes]
  dsimp only
  rw [hroutes, hnetwork]
  by_cases hnone : gateway = 0
  · rw [hnone]
    rfl
  · obtain ⟨hunicast, -, hnet, -⟩ := hgateway hnone
    have hdefault : netIpv4RouteAdd
        { stack.device with
          ipv4 :=
            { address := address, netmask := netmask, gateway := gateway, configured := true } }
        (routesFor address netmask 0) 0 0 gateway 100 =
          (.ok, routesFor address netmask gateway) := by
      rw [netIpv4RouteAdd, if_neg (by simp [hregistered, hunicast]; decide),
        if_neg (by simp [hnet]), if_neg (by simp [routesFor, Ipv4Route.leadsTo, hzero])]
      simp [routesFor, hnone, List.findIdx?_cons]
    simp only [hdefault, hnone, ne_eq, not_false_eq_true, if_true]

variable (stack) in
/-- The layers know the address, which is not 0 while there is a configuration, and the routes are
those of the configuration. -/
structure Told : Prop where
  configured : stack.device.ipv4.configured = stack.applied.valid
  address : stack.applied.valid = true → stack.device.ipv4.address ≠ 0
  known : stack.Known
  mask : stack.applied.valid = true → netmaskIsContiguous stack.applied.netmask = true
  routes : stack.routes =
    if stack.applied.valid = true then
      routesFor stack.applied.address stack.applied.netmask stack.applied.gateway
    else noRoutes

/-- What `apply_ipv4_config` does before it tries the device leaves no route. -/
lemma Told.cleared (h : stack.Told) :
    let cleared := if stack.applied.valid = true then stack.withdraw else stack
    cleared.dhcp = stack.dhcp ∧ cleared.localAddresses = stack.localAddresses ∧
      cleared.device.ipv4.configured = false ∧ cleared.routes = noRoutes ∧
      cleared.device.registered = stack.device.registered := by
  have hroutes := h.routes
  dsimp only
  split_ifs at hroutes ⊢ with hvalid
  · refine ⟨rfl, rfl, rfl, ?_, rfl⟩
    rw [withdraw]
    dsimp only
    rw [hroutes]
    exact netIpv4RouteRemove_routesFor (h.mask hvalid)
  · exact ⟨rfl, rfl, h.configured.trans (Bool.eq_false_iff.2 hvalid), hroutes, rfl⟩

/-- A configuration that passes the tests of the device is told to the layers. -/
lemma Told.admitted (h : stack.Told) (hadmits : stack.Admits address netmask gateway)
    (haddress : address ≠ 0) (dnsServer : UInt32) :
    (stack.applyIpv4Config address netmask gateway dnsServer).2.Told := by
  have hargs : ¬(address = 0 ∨ netmask = 0) := not_or.2 ⟨haddress, hadmits.2.2.2.1⟩
  obtain ⟨-, -, -, hroutes, hregistered⟩ := h.cleared
  rw [applyIpv4Config, if_neg hargs]
  dsimp only
  generalize (if stack.applied.valid = true then stack.withdraw else stack) = cleared at *
  have hcleared : cleared.Admits address netmask gateway := by
    rwa [Admits, hregistered]
  have hdevice := netDeviceConfigureIpv4_of_admits hcleared
  rw [hdevice]
  dsimp only
  rw [applyRoutes_of_admits hcleared hroutes dnsServer hdevice]
  refine ⟨rfl, fun _ => haddress, fun a ha => ?_, fun _ => hadmits.2.2.1, rfl⟩
  have hown : a = address := by simpa [commit, localAddresses] using ha
  exact hown

/-- A configuration that does not pass them takes away the one in place, of which the layers are not
told. -/
lemma Told.refused (h : stack.Told) (hargs : ¬(address = 0 ∨ netmask = 0))
    (hadmits : ¬stack.Admits address netmask gateway) (dnsServer : UInt32) :
    let stack' := (stack.applyIpv4Config address netmask gateway dnsServer).2
    stack'.device.ipv4.configured = false ∧ stack'.applied.valid = false ∧
      stack'.localAddresses = stack.localAddresses ∧ stack'.routes = noRoutes := by
  obtain ⟨-, hlocal, hconfigured, hroutes, hregistered⟩ := h.cleared
  rw [applyIpv4Config, if_neg hargs]
  dsimp only
  generalize (if stack.applied.valid = true then stack.withdraw else stack) = cleared at *
  have hcleared : ¬cleared.Admits address netmask gateway := by
    rwa [Admits, hregistered]
  rw [netDeviceConfigureIpv4_of_not_admits hcleared]
  exact ⟨hconfigured, rfl, hlocal, hroutes⟩

/-- After applying a configuration the layers still know the address, if it can replace the old
one. -/
lemma Told.apply (h : stack.Told)
    (hreplace : stack.applied.valid = true → stack.Replaceable address netmask gateway)
    (dnsServer : UInt32) :
    (stack.applyIpv4Config address netmask gateway dnsServer).2.Told := by
  by_cases hargs : address = 0 ∨ netmask = 0
  · rw [applyIpv4Config, if_pos hargs]
    exact h
  by_cases hadmits : stack.Admits address netmask gateway
  · exact h.admitted hadmits (fun hzero => hargs (.inl hzero)) dnsServer
  -- a refusal, with nothing in place that it could take away
  have hvalid : stack.applied.valid ≠ true := fun hvalid =>
    hargs ((or_assoc.2 (hreplace hvalid)).resolve_right hadmits)
  obtain ⟨hconfigured, hnone, hlocal, hroutes⟩ := h.refused hargs hadmits dnsServer
  refine ⟨hconfigured.trans hnone.symm, fun hv => ?_, fun a ha => ?_, fun hv => ?_, ?_⟩
  · exact absurd (hnone.symm.trans hv) (by decide)
  · have hzero : stack.deviceAddress = 0 := by
      rw [deviceAddress, h.configured, if_neg hvalid]
    rw [h.known a (hlocal ▸ ha), hzero, deviceAddress, hconfigured]
    rfl
  · exact absurd (hnone.symm.trans hv) (by decide)
  · rw [hroutes, hnone]
    rfl

/-- With a replacement that is refused the layers know an address that the device has not. -/
lemma Told.apply_lost (h : stack.Told) (hvalid : stack.applied.valid = true)
    (hreplace : ¬stack.Replaceable address netmask gateway) (dnsServer : UInt32) :
    ¬(stack.applyIpv4Config address netmask gateway dnsServer).2.Known := by
  have hargs : ¬(address = 0 ∨ netmask = 0) := fun hargs => hreplace (or_assoc.1 (.inl hargs))
  have hadmits : ¬stack.Admits address netmask gateway :=
    fun hadmits => hreplace (.inr (.inr hadmits))
  obtain ⟨hconfigured, -, hlocal, -⟩ := h.refused hargs hadmits dnsServer
  intro hknown
  -- the layers keep the address that the device had
  have hmem : stack.udpLocalAddress ∈ stack.localAddresses := List.mem_cons_self
  have hkept := h.known _ hmem
  have hgone := hknown _ (hlocal ▸ hmem)
  rw [deviceAddress, hconfigured] at hgone
  rw [hgone, deviceAddress, h.configured, if_pos hvalid] at hkept
  exact h.address hvalid hkept.symm

/-! ### Calls -/

/-- A new state of the client changes nothing for the layers. -/
lemma Told.setDhcp (h : stack.Told) (dhcp : DhcpClient × Option DhcpDatagram) :
    (stack.setDhcp dhcp).Told :=
  ⟨h.configured, h.address, h.known, h.mask, h.routes⟩

/-- An expired lease is taken back from the layers too. -/
lemma Told.clear (h : stack.Told) : stack.clearIpv4Config.Told := by
  rw [clearIpv4Config]
  split_ifs with hvalid
  · exact h
  · have hroutes := h.cleared.2.2.2.1
    rw [if_pos (Bool.eq_true_of_not_eq_false hvalid)] at hroutes
    refine ⟨rfl, fun hc => absurd hc Bool.false_ne_true, fun a ha => ?_,
      fun hc => absurd hc Bool.false_ne_true, hroutes⟩
    have hzero : a = 0 := by simpa [localAddresses] using ha
    exact hzero

/-- After following the client the layers still know the address, if its lease is taken. -/
lemma Told.synchronize (h : stack.Told)
    (htakes : stack.applied.valid = true → stack.dhcp.isConfigured →
      stack.Takes stack.dhcp.config) : stack.synchronizeDhcpConfig.Told := by
  rw [synchronizeDhcpConfig]
  dsimp only
  split_ifs with hstate hsame hexpired
  · exact h
  · exact h.apply (fun hvalid => (htakes hvalid hstate).resolve_left hsame) _
  · exact h.clear
  · exact h

/-- With a lease that is refused the layers know an address that the device has not. -/
lemma Told.synchronize_lost (h : stack.Told) (hvalid : stack.applied.valid = true)
    (hstate : stack.dhcp.isConfigured) (htakes : ¬stack.Takes stack.dhcp.config) :
    ¬stack.synchronizeDhcpConfig.Known := by
  rw [synchronizeDhcpConfig, if_neg (not_not.2 hstate)]
  dsimp only
  rw [if_neg fun hsame => htakes (.inl hsame)]
  exact h.apply_lost hvalid (fun hreplace => htakes (.inr hreplace)) _

/-- The lease that the client has once it has looked at a datagram. -/
lemma netDhcpReceive_lease (client : DhcpClient) (payload : List UInt8) (nowMs : UInt64)
    {p : DhcpConfig → Prop} :
    ((netDhcpReceive client payload nowMs).2.1.isConfigured →
        p (netDhcpReceive client payload nowMs).2.1.config) ↔
      (∀ lease, Acknowledges client payload nowMs lease → p lease) ∧
        (client.isConfigured → ¬Refuses client payload →
          (∀ lease, ¬Acknowledges client payload nowMs lease) → p client.config) := by
  have heffect := netDhcpReceive_effect client payload nowMs
  have hack : ∀ lease, Acknowledges client payload nowMs lease →
      (netDhcpReceive client payload nowMs).2.1.isConfigured ∧
        (netDhcpReceive client payload nowMs).2.1.config = lease := by
    rintro lease ⟨options, hread, hanswer, htype, hrequest, hbound⟩
    obtain ⟨hstate, hconfig⟩ := netDhcpReceive_ack hread hanswer htype hrequest hbound
    exact ⟨.inl hstate, hconfig⟩
  constructor
  · intro h
    refine ⟨fun lease hlease => (hack lease hlease).2 ▸ h (hack lease hlease).1, ?_⟩
    intro hconfigured hrefuses hnone
    cases heffect with
    | same hstate hconfig =>
      rw [DhcpClient.isConfigured, hstate, hconfig] at h
      exact h hconfigured
    | offer hselecting => exact absurd hconfigured (not_isConfigured_of hselecting)
    | nak hread hanswer htype => exact absurd ⟨_, hread, hanswer, htype⟩ hrefuses
    | ack hread hanswer htype hrequest _ hbound =>
      exact absurd ⟨_, hread, hanswer, htype, hrequest, hbound⟩ (hnone _)
  · rintro ⟨hgiven, hkept⟩ hconfigured
    by_cases hsome : ∃ lease, Acknowledges client payload nowMs lease
    · obtain ⟨lease, hlease⟩ := hsome
      rw [(hack lease hlease).2]
      exact hgiven lease hlease
    cases heffect with
    | same hstate hconfig =>
      rw [DhcpClient.isConfigured, hstate] at hconfigured
      rw [hconfig]
      refine hkept hconfigured ?_ (not_exists.1 hsome)
      rintro ⟨options, hread, hanswer, htype⟩
      have hselecting := netDhcpReceive_nak hread hanswer htype nowMs
      exact absurd hconfigured (not_isConfigured_of (hstate.symm.trans hselecting))
    | offer _ hstate => exact absurd hconfigured (not_isConfigured_of hstate)
    | nak _ _ _ hstate => exact absurd hconfigured (not_isConfigured_of hstate)
    | ack hread hanswer htype hrequest _ hbound =>
      exact absurd ⟨_, _, hread, hanswer, htype, hrequest, hbound⟩ hsome

/-- The lease that the client has after a poll. -/
lemma netDhcpPoll_lease (client : DhcpClient) (nowMs : UInt64) {p : DhcpConfig → Prop} :
    ((netDhcpPoll client nowMs).1.isConfigured → p (netDhcpPoll client nowMs).1.config) ↔
      (client.isConfigured → nowMs < client.config.expiresAtMs → p client.config) := by
  rcases netDhcpPoll_effect client nowMs with
    ⟨hexpired, -, htime⟩ | ⟨⟨hconfig, -, hiff⟩, htime⟩
  · exact iff_of_true (fun hconfigured => absurd hconfigured (not_isConfigured_of hexpired))
      fun _ hbefore => absurd hbefore (UInt64.not_lt.2 htime)
  · rw [hiff, hconfig]
    exact ⟨fun h hconfigured _ => h hconfigured, fun h hconfigured =>
      h hconfigured (htime hconfigured)⟩

/-- A call that retains the configuration in place tells the layers of what it does. -/
lemma Told.call (h : stack.Told) (call : NetCall) (hretains : stack.Retains call) :
    (stack.call call).Told := by
  cases call with
  | configureStatic address netmask gateway dnsServer =>
    rw [NetStack.call, configureStatic]
    split_ifs with hinit
    · exact h
    · exact h.apply (fun hvalid => hretains hvalid (Bool.eq_true_of_not_eq_false hinit)) dnsServer
  | event event =>
    rw [NetStack.call]
    cases event with
    | startDhcp nowMs =>
      rw [NetStack.step, startDhcp]
      split_ifs
      · exact h
      · exact h.setDhcp _
    | frame datagram nowMs =>
      cases datagram with
      | none => exact h
      | some payload =>
        rw [NetStack.step, receiveFrame]
        split_ifs with hregistered
        · exact h
        · refine (h.setDhcp _).synchronize fun hvalid => ?_
          exact (netDhcpReceive_lease stack.dhcp payload nowMs).2
            (hretains hvalid (Bool.eq_true_of_not_eq_false hregistered))
    | poll nowMs =>
      rw [NetStack.step, poll]
      split_ifs with hinit
      · exact h
      · refine (h.setDhcp _).synchronize fun hvalid => ?_
        exact (netDhcpPoll_lease stack.dhcp nowMs).2
          (hretains hvalid (Bool.eq_true_of_not_eq_false hinit))
    | shutdown => exact ⟨h.configured, h.address, h.known, h.mask, h.routes⟩

/-- A call that does not retain it leaves the layers with an address that the device has lost. -/
lemma Told.lost (h : stack.Told) (call : NetCall) (hlost : ¬stack.Retains call) :
    ¬(stack.call call).Known := by
  cases call with
  | configureStatic address netmask gateway dnsServer =>
    simp only [Retains, Classical.not_imp] at hlost
    obtain ⟨hvalid, hinit, hreplace⟩ := hlost
    rw [NetStack.call, configureStatic, if_neg (by rw [hinit]; decide)]
    exact h.apply_lost hvalid hreplace dnsServer
  | event event =>
    rw [NetStack.call]
    cases event with
    | startDhcp nowMs => exact absurd trivial hlost
    | frame datagram nowMs =>
      cases datagram with
      | none => exact absurd trivial hlost
      | some payload =>
        simp only [Retains, Classical.not_imp, ← netDhcpReceive_lease] at hlost
        obtain ⟨hvalid, hregistered, hconfigured, htakes⟩ := hlost
        rw [NetStack.step, receiveFrame, if_neg (by rw [hregistered]; decide)]
        exact (h.setDhcp _).synchronize_lost hvalid hconfigured htakes
    | poll nowMs =>
      simp only [Retains, ← netDhcpPoll_lease stack.dhcp nowMs, Classical.not_imp] at hlost
      obtain ⟨hvalid, hinit, hconfigured, htakes⟩ := hlost
      rw [NetStack.step, poll, if_neg (by rw [hinit]; decide)]
      exact (h.setDhcp _).synchronize_lost hvalid hconfigured htakes
    | shutdown => exact absurd trivial hlost

end NetStack

/-- The layers know the address of the device all along exactly if no configuration in place is lost
to one that does not pass the tests of the device. -/
theorem layers_know_address_iff (mac : List UInt8) (dhcpXidSeed : UInt32) (calls : List NetCall) :
    Always NetStack.call NetStack.Known (netStackInit mac dhcpXidSeed) calls ↔
      AllSteps NetStack.call NetStack.Retains (netStackInit mac dhcpXidSeed) calls := by
  have hinit : (netStackInit mac dhcpXidSeed).Told := by
    refine ⟨rfl, Bool.noConfusion, fun a ha => ?_, Bool.noConfusion, rfl⟩
    have hzero : a = 0 := by simpa [netStackInit, NetStack.localAddresses] using ha
    exact hzero
  exact always_iff_allSteps NetStack.Told (fun _ h => h.known) (fun _ call h => h.call call)
    (fun _ call h => h.lost call) hinit calls

/-- A configuration, and one with a netmask that has a hole. -/
def refusedCalls : List NetCall :=
  [.configureStatic 0x0a000002 0xffffff00 0 0, .configureStatic 0x0a000002 0xff00ff00 0 0]

/-- After a refused configuration the device has no address, and the layers have the old one. -/
theorem layers_keep_lost_address :
    let stack := refusedCalls.foldl NetStack.call (netStackInit clientMac 7)
    stack.deviceAddress = 0 ∧ stack.localAddresses = List.replicate 3 0x0a000002 := by
  decide +kernel

end Northstar
