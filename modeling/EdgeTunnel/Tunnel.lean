/-
Tunnels: what one is started from, why its operations fail, and the handle on a running one.

A handle stops its tunnel once: the first stop goes to the tunnel, later ones do nothing.
-/
import EdgeTunnel.Key
import EdgeTunnel.Net.Cidr
import EdgeTunnel.Net.OsError
import EdgeTunnel.Net.SocketAddress
import EdgeTunnel.Span
import EdgeTunnel.Text.Quoted

namespace EdgeTunnel

structure PeerConfig where
  own : PrivateKey
  peer : PublicKey
  psk : Option PresharedKey
  /-- traffic routed through this peer -/
  allowed : List Cidr
  endpoint : SocketAddress
  keepalive : Span
  mtu : Nat
  /-- disguise the handshake traffic? -/
  obfuscate : Bool
  deriving DecidableEq

structure TunnelSpec where
  peer : PeerConfig
  addresses : List Ip
  dns : List Ip
  mtu : Nat
  deriving DecidableEq

inductive TunnelError where
  | startFailed (reason : String)
  | stopped
  | timeout (destination : String)
  | io (cause : OsError)
  deriving DecidableEq

namespace TunnelError

def message : TunnelError → String
  | .startFailed r => s!"Tunnel failed to start: {r}"
  | .stopped => "Tunnel is stopped"
  | .timeout d => s!"Dial to {d} timed out"
  | .io e => s!"IO error: {e.message}"

def chain (e : TunnelError) : List String :=
  e.message :: (match e with
    | .io c => [c.message]
    | _ => [])

end TunnelError

inductive TunnelState where
  | running
  | stopped
  deriving DecidableEq, Repr

def TunnelState.name : TunnelState → String
  | .running => "Running"
  | .stopped => "Stopped"

/-- a handle on a started tunnel; `id` is the tunnel's number -/
structure TunnelHandle where
  name : String
  mtu : Nat
  state : TunnelState
  id : Nat
  deriving DecidableEq, Repr

namespace TunnelHandle

/-- the handle of a tunnel that has just started -/
def started (name : String) (mtu id : Nat) : TunnelHandle := ⟨name, mtu, .running, id⟩

/-- is the tunnel up as far as the handle knows? -/
def isRunning (h : TunnelHandle) : Bool := h.state == .running

/-- the handle after a stop, and whether the stop goes to the tunnel -/
def stop (h : TunnelHandle) : Bool × TunnelHandle :=
  match h.state with
  | .running => (true, { h with state := .stopped })
  | .stopped => (false, h)

/-- how a handle is shown -/
def shown (h : TunnelHandle) : String :=
  "TunnelHandle \x7b name: " ++ Text.quoted h.name ++ ", mtu: " ++ toString h.mtu ++ ", state: " ++ h.state.name ++ " \x7d"

end TunnelHandle

end EdgeTunnel
