import Northstar.Net.Dhcp

/-! # The address configuration of the network stack

A model of `net_stack.c` as far as it configures the device, with what it uses of `net_device.c`
and `net_ipv4.c`. The stack owns the only device, so routes do not name theirs. An IPv4 address is
its value as a host integer.

A received frame reaches the DHCP client as at most one datagram, and changes nothing else that is
modelled here. The frames that `net_stack_poll` takes from the driver are received one by one before
the rest of it runs, so they are events of their own. -/

namespace Northstar

/-- `enum net_status`. -/
inductive NetStatus
  | ok | invalid | noDevice | noRoute | noBuffer | tooLarge | again | io | notSupported
  | alreadyExists | notFound
  deriving DecidableEq, Repr

/-! ### Addresses -/

/-- `net_ipv4_addr_is_unicast`. -/
def isUnicast (address : UInt32) : Bool :=
  address >>> 24 ≠ 0 ∧ address >>> 24 ≠ 127 ∧ address >>> 24 < 224

/-- The bits of a mask, the highest first. -/
def maskBits (mask : UInt32) : List Bool :=
  (List.range 32).map fun bit => mask &&& UInt32.ofNat (2 ^ (31 - bit)) ≠ 0

/-- The loop of `netmask_prefix_length` over the bits that are left. -/
def prefixLengthFrom : List Bool → Bool → ℕ → Option ℕ
  | [], _, length => some length
  | true :: bits, sawZero, length =>
    if sawZero then none else prefixLengthFrom bits sawZero (length + 1)
  | false :: bits, _, length => prefixLengthFrom bits true length

/-- `netmask_prefix_length`. -/
def netmaskPrefixLength (mask : UInt32) : Option ℕ := prefixLengthFrom (maskBits mask) false 0

/-- `netmask_is_contiguous`, whose loop is that of `netmask_prefix_length` without the count. -/
def netmaskIsContiguous (mask : UInt32) : Bool := (netmaskPrefixLength mask).isSome

/-! ### The device -/

/-- `struct net_ipv4_config`. -/
structure Ipv4Config where
  address : UInt32
  netmask : UInt32
  gateway : UInt32
  configured : Bool
  deriving DecidableEq, Repr

/-- `struct net_device`. -/
structure NetDevice where
  ipv4 : Ipv4Config
  registered : Bool
  deriving DecidableEq, Repr

/-- The host part of an address is all zeros or all ones. -/
def isReservedHost (hostMask address : UInt32) : Bool :=
  hostMask > 1 ∧ (address &&& hostMask = 0 ∨ address &&& hostMask = hostMask)

/-- `net_device_configure_ipv4`. -/
def netDeviceConfigureIpv4 (device : NetDevice) (address netmask gateway : UInt32) :
    NetStatus × NetDevice :=
  if device.registered = false ∨ isUnicast address = false ∨ netmaskIsContiguous netmask = false ∨
      netmask = 0 then (.invalid, device)
  else if isReservedHost (~~~netmask) address then (.invalid, device)
  else if gateway ≠ 0 ∧ (isUnicast gateway = false ∨ gateway = address ∨
      address &&& netmask ≠ gateway &&& netmask ∨ isReservedHost (~~~netmask) gateway) then
    (.invalid, device)
  else
    (.ok, { device with
      ipv4 := { address := address, netmask := netmask, gateway := gateway, configured := true } })

/-- `net_device_clear_ipv4`. -/
def netDeviceClearIpv4 (device : NetDevice) : NetDevice :=
  { device with ipv4 := { address := 0, netmask := 0, gateway := 0, configured := false } }

/-! ### Routes -/

/-- `struct net_ipv4_route`. -/
structure Ipv4Route where
  network : UInt32
  netmask : UInt32
  gateway : UInt32
  metric : UInt16
  deriving DecidableEq, Repr

/-- `NET_IPV4_MAX_ROUTES`. -/
abbrev netIpv4MaxRoutes : ℕ := 8

/-- A route leads to the network. -/
def Ipv4Route.leadsTo (network netmask : UInt32) : Option Ipv4Route → Bool
  | none => false
  | some route => route.network = network &&& netmask ∧ route.netmask = netmask

/-- `net_ipv4_route_add`. -/
def netIpv4RouteAdd (device : NetDevice) (routes : List (Option Ipv4Route))
    (network netmask gateway : UInt32) (metric : UInt16) :
    NetStatus × List (Option Ipv4Route) :=
  if device.registered = false ∨ netmaskPrefixLength netmask = none ∨
      gateway ≠ 0 ∧ isUnicast gateway = false then (.invalid, routes)
  else if gateway ≠ 0 ∧ (device.ipv4.configured = false ∨
      gateway &&& device.ipv4.netmask ≠ device.ipv4.address &&& device.ipv4.netmask) then
    (.noRoute, routes)
  else if routes.any (Ipv4Route.leadsTo network netmask) then (.alreadyExists, routes)
  else match routes.findIdx? Option.isNone with
    | none => (.noBuffer, routes)
    | some index =>
      (.ok, routes.set index (some
        { network := network &&& netmask, netmask := netmask, gateway := gateway
          metric := metric }))

/-- `net_ipv4_route_remove`. -/
def netIpv4RouteRemove (routes : List (Option Ipv4Route)) (network netmask : UInt32) :
    NetStatus × List (Option Ipv4Route) :=
  if netmaskPrefixLength netmask = none then (.invalid, routes)
  else match routes.findIdx? (Ipv4Route.leadsTo network netmask) with
    | none => (.notFound, routes)
    | some index => (.ok, routes.set index none)

/-! ### The stack -/

/-- `struct net_stack_applied_config`. -/
structure AppliedConfig where
  address : UInt32
  netmask : UInt32
  gateway : UInt32
  dnsServer : UInt32
  valid : Bool
  deriving DecidableEq, Repr

/-- `struct net_stack`, with the routes, the addresses that the layers above know, and the datagrams
that the DHCP client has handed to its transport. -/
structure NetStack where
  device : NetDevice
  routes : List (Option Ipv4Route)
  dhcp : DhcpClient
  applied : AppliedConfig
  udpLocalAddress : UInt32
  dnsLocalAddress : UInt32
  dnsServerAddress : UInt32
  backendLocalAddress : UInt32
  initialized : Bool
  sent : List DhcpDatagram
  deriving DecidableEq, Repr

/-- `net_stack_init`, where it succeeds. -/
def netStackInit (mac : List UInt8) (dhcpXidSeed : UInt32) : NetStack :=
  { device :=
      { ipv4 := { address := 0, netmask := 0, gateway := 0, configured := false }
        registered := true }
    routes := List.replicate netIpv4MaxRoutes none
    dhcp := netDhcpInit mac dhcpXidSeed
    applied := { address := 0, netmask := 0, gateway := 0, dnsServer := 0, valid := false }
    udpLocalAddress := 0, dnsLocalAddress := 0, dnsServerAddress := 0, backendLocalAddress := 0
    initialized := true
    sent := [] }

variable (stack : NetStack)

namespace NetStack

/-- The removal of the applied configuration from routes and device, with which
`apply_ipv4_config` and `clear_ipv4_config` begin. -/
def withdraw : NetStack :=
  let network := stack.applied.address &&& stack.applied.netmask
  let routes := (netIpv4RouteRemove stack.routes network stack.applied.netmask).2
  { stack with
    routes := (netIpv4RouteRemove routes 0 0).2
    device := netDeviceClearIpv4 stack.device }

/-- The failure paths of `apply_ipv4_config` once the device has been configured. -/
def abandon (routes : List (Option Ipv4Route)) : NetStack :=
  { stack with
    routes := routes
    device := netDeviceClearIpv4 stack.device
    applied := { stack.applied with valid := false } }

/-- The end of `apply_ipv4_config`. -/
def commit (routes : List (Option Ipv4Route))
    (address netmask gateway dnsServer : UInt32) : NetStack :=
  { stack with
    routes := routes
    applied :=
      { address := address, netmask := netmask, gateway := gateway, dnsServer := dnsServer
        valid := true }
    udpLocalAddress := address
    dnsLocalAddress := address
    dnsServerAddress := dnsServer
    backendLocalAddress := address }

/-- `apply_ipv4_config` once the device has been configured: the routes. -/
def applyRoutes (address netmask gateway dnsServer : UInt32) : NetStatus × NetStack :=
  let network := address &&& netmask
  match netIpv4RouteAdd stack.device stack.routes network netmask 0 0 with
  | (.ok, routes) =>
    if gateway ≠ 0 then
      match netIpv4RouteAdd stack.device routes 0 0 gateway 100 with
      | (.ok, routes) => (.ok, stack.commit routes address netmask gateway dnsServer)
      | (result, routes) => (result, stack.abandon (netIpv4RouteRemove routes network netmask).2)
    else (.ok, stack.commit routes address netmask gateway dnsServer)
  | (result, routes) => (result, stack.abandon routes)

/-- `apply_ipv4_config`. -/
def applyIpv4Config (address netmask gateway dnsServer : UInt32) : NetStatus × NetStack :=
  if address = 0 ∨ netmask = 0 then (.invalid, stack)
  else
    let stack := if stack.applied.valid then stack.withdraw else stack
    match netDeviceConfigureIpv4 stack.device address netmask gateway with
    | (.ok, device) =>
      applyRoutes { stack with device := device } address netmask gateway dnsServer
    | (result, _) => (result, { stack with applied := { stack.applied with valid := false } })

/-- `clear_ipv4_config`. -/
def clearIpv4Config : NetStack :=
  if stack.applied.valid = false then stack
  else
    { stack.withdraw with
      udpLocalAddress := 0
      dnsLocalAddress := 0
      dnsServerAddress := 0
      backendLocalAddress := 0
      applied := { stack.applied with valid := false } }

/-- The server that `synchronize_dhcp_config` gives to the DNS client. -/
def leaseDnsServer (configuration : DhcpConfig) : UInt32 :=
  configuration.dnsServers.headD configuration.router

/-- `synchronize_dhcp_config`. -/
def synchronizeDhcpConfig : NetStack :=
  if ¬ stack.dhcp.isConfigured then
    if stack.dhcp.state = .expired then stack.clearIpv4Config else stack
  else
    let configuration := stack.dhcp.config
    let dnsServer := leaseDnsServer configuration
    if stack.applied =
        { address := configuration.address, netmask := configuration.subnetMask
          gateway := configuration.router, dnsServer := dnsServer, valid := true } then stack
    else
      (stack.applyIpv4Config configuration.address configuration.subnetMask configuration.router
        dnsServer).2

/-- The stack with a new DHCP client and what the client has sent. -/
def setDhcp (dhcp : DhcpClient × Option DhcpDatagram) : NetStack :=
  { stack with dhcp := dhcp.1, sent := stack.sent ++ dhcp.2.toList }

/-- The body of `dhcp_udp_notify`, for one datagram. -/
def receiveDatagram (payload : List UInt8) (nowMs : UInt64) : NetStack :=
  (stack.setDhcp (netDhcpReceive stack.dhcp payload nowMs).2).synchronizeDhcpConfig

/-- `net_stack_start_dhcp`. -/
def startDhcp (nowMs : UInt64) : NetStack :=
  if stack.initialized = false then stack else stack.setDhcp (netDhcpStart stack.dhcp nowMs)

/-- `net_stack_poll`, after the frames that the driver holds have been received. -/
def poll (nowMs : UInt64) : NetStack :=
  if stack.initialized = false then stack
  else (stack.setDhcp (netDhcpPoll stack.dhcp nowMs)).synchronizeDhcpConfig

/-- A received frame, with the datagram in it that is for the DHCP client, if there is one. -/
def receiveFrame (datagram : Option (List UInt8)) (nowMs : UInt64) : NetStack :=
  match datagram with
  | none => stack
  | some payload =>
    if stack.device.registered = false then stack else stack.receiveDatagram payload nowMs

/-- `net_stack_shutdown`. -/
def shutdown : NetStack :=
  { stack with initialized := false, device := { stack.device with registered := false } }

end NetStack

/-- What can happen to the stack, with the time at which it happens. -/
inductive NetEvent
  | startDhcp (nowMs : UInt64)
  | frame (datagram : Option (List UInt8)) (nowMs : UInt64)
  | poll (nowMs : UInt64)
  | shutdown

/-- One event. -/
def NetStack.step : NetEvent → NetStack
  | .startDhcp nowMs => stack.startDhcp nowMs
  | .frame datagram nowMs => stack.receiveFrame datagram nowMs
  | .poll nowMs => stack.poll nowMs
  | .shutdown => stack.shutdown

end Northstar
