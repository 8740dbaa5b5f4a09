/-
The host that a program runs on: which socket addresses it can bind, and which addresses its packets reach.
-/
import EdgeTunnel.Net.OsError
import EdgeTunnel.Net.SocketAddress

namespace EdgeTunnel

namespace Ip

/-- 127.0.0.1 -/
def loopback : Ip := ofNat .v4 (ofFields 8 [127, 0, 0, 1])

/-- the address that stands for every address of the host -/
def unspecified (f : Family) : Ip := ofNat f 0

/-- does the address belong to the host whatever its interfaces are? -/
def isOwn (a : Ip) : Bool := a == unspecified a.family || (a.isV4 && a.value / 2 ^ 24 == 127)

end Ip

/-- a loopback address whose port the host picks -/
def SocketAddress.ephemeral : SocketAddress := .of .loopback 0

structure Host where
  /-- the address of a socket bound here, with a port picked by the host in place of port zero -/
  bind : SocketAddress → Except OsError SocketAddress
  /-- may packets be sent to this address? -/
  reach : Ip → Except OsError Unit

namespace Host

/-- the address with a port: a port of zero is replaced by the first of those that hosts pick from -/
def withPort (a : SocketAddress) : SocketAddress :=
  if a.port = 0 then { a with port := 49152 } else a

/-- a host that can bind its own addresses and reach every address -/
def connected : Host where
  bind a := if a.ip.isOwn || a.ip == Ip.ofNat .v6 1 then .ok (withPort a) else .error .addressNotAvailable
  reach _ := .ok ()

/-- a host without any route: it can bind its own IPv4 addresses and reach none -/
def isolated : Host where
  bind a := if a.ip.isOwn then .ok (withPort a) else .error .addressNotAvailable
  reach _ := .error .unreachable

/-- the host with one socket address in use -/
def occupied (h : Host) (taken : SocketAddress) : Host :=
  { h with bind := fun a => if a = taken then .error .addressInUse else h.bind a }

/-- the socket address that a socket to a destination is bound to -/
def sourceFor (destination : Ip) : SocketAddress := .of (.unspecified destination.family) 0

/-- a datagram socket to a destination -/
def openUdp (h : Host) (destination : SocketAddress) : Except OsError Unit := do
  let _ ← h.bind (sourceFor destination.ip)
  h.reach destination.ip

end Host

end EdgeTunnel
