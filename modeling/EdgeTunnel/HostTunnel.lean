/-
Tunnels that are the host's own network.

A host tunnel dials whatever the host reaches until it is stopped. A destination is a socket address, or a name and a port
after the last colon.
-/
import EdgeTunnel.Net.Host
import EdgeTunnel.Text.Blank
import EdgeTunnel.Tunnel

namespace EdgeTunnel

structure HostTunnel where
  stopped : Bool := false
  deriving DecidableEq, Repr

namespace HostTunnel

/-- where a destination is; names other than the host's own are not known to it -/
def resolve (destination : String) : Except OsError SocketAddress :=
  match SocketAddress.parse destination.toList with
  | some a => .ok a
  | none =>
    match Text.splitAt? ':' destination.toList.reverse with
    | none => .error .invalidAddress
    | some (port, name) =>
      match Text.readUnsigned 65535 port.reverse with
      | none => .error .invalidAddress
      | some n => if name.reverse = "localhost".toList then .ok (.of .loopback (UInt16.ofNat n)) else .error .noName

/-- a stream dial, as far as the way to the destination; the address that answers or refuses -/
def dial (h : Host) (t : HostTunnel) (destination : String) : Except TunnelError SocketAddress :=
  if t.stopped then .error .stopped
  else
    match resolve destination with
    | .error e => .error (.io e)
    | .ok a =>
      match h.reach a.ip with
      | .error e => .error (.io e)
      | .ok () => .ok a

def dialUdp (h : Host) (t : HostTunnel) (destination : SocketAddress) : Except TunnelError Unit :=
  if t.stopped then .error .stopped
  else
    match h.openUdp destination with
    | .error e => .error (.io e)
    | .ok () => .ok ()

def stop (_ : HostTunnel) : HostTunnel := ⟨true⟩

end HostTunnel

end EdgeTunnel
