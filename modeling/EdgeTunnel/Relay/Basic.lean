/-
The datagram relay between the tunnels of a chain.

The inner tunnel sends to a local socket of the relay, and the relay forwards to the remote endpoint through the outer
tunnel. Answers go back to the most recent sender on the local socket. Two loops run side by side, one for each direction,
and each takes its datagram in steps: outbound a datagram is received, its sender is learned, and it is forwarded; inbound a
datagram is received, the learned sender is looked up, and it is delivered. A cancellation stops a loop when it would
receive again.
-/
import EdgeTunnel.Tunnel

namespace EdgeTunnel

inductive RelayError where
  | invalidMtu
  | dial (cause : TunnelError)
  | io (cause : OsError)
  deriving DecidableEq

namespace RelayError

def message : RelayError → String
  | .invalidMtu => "Relay MTU must be non-zero"
  | .dial e => s!"Outer tunnel dial failed: {e.message}"
  | .io e => s!"IO error: {e.message}"

def chain (e : RelayError) : List String :=
  e.message :: (match e with
    | .dial c => c.chain
    | .io c => [c.message]
    | .invalidMtu => [])

end RelayError

namespace Relay

/-- setting a relay up: the size is checked, the local socket is bound, the remote endpoint is dialed -/
def open? (mtu : Nat) (bound : Except OsError SocketAddress) (dialed : Except TunnelError Unit) :
    Except RelayError SocketAddress :=
  if mtu = 0 then .error .invalidMtu
  else
    match bound, dialed with
    | .error e, _ => .error (.io e)
    | .ok _, .error e => .error (.dial e)
    | .ok a, .ok () => .ok a

inductive Outbound (κ : Type) where
  | waiting
  /-- a datagram was received -/
  | received (data : List UInt8) (sender : κ)
  /-- its sender was learned -/
  | learned (data : List UInt8)
  | stopped
  deriving DecidableEq

inductive Inbound (κ : Type) where
  | waiting
  /-- a datagram was received -/
  | received (data : List UInt8)
  /-- a learned sender was found for it -/
  | addressed (data : List UInt8) (client : κ)
  | stopped
  deriving DecidableEq

/-- a running relay; `sent` and `delivered` are the datagrams that left it, in order -/
structure State (κ : Type) where
  learned : Option κ
  outbound : Outbound κ
  inbound : Inbound κ
  canceled : Bool
  sent : List (List UInt8)
  delivered : List (κ × List UInt8)

/-- what happens to a relay; the senders on its local socket are of type `κ` -/
inductive Event (κ : Type) where
  /-- a datagram arrives on the local socket -/
  | fromClient (data : List UInt8) (sender : κ)
  /-- reading the local socket fails -/
  | clientError
  /-- the sender of the received datagram is learned -/
  | learn
  /-- the received datagram is forwarded; the send may fail afterwards -/
  | forward
  /-- a datagram arrives from the remote endpoint -/
  | fromRemote (data : List UInt8)
  /-- reading from the remote endpoint fails -/
  | remoteError
  /-- the learned sender is looked up -/
  | lookup
  /-- the datagram is delivered; the send may fail afterwards -/
  | deliver
  | cancel
  /-- the outbound loop sees the cancellation -/
  | stopOutbound
  /-- the inbound loop sees the cancellation -/
  | stopInbound
  deriving DecidableEq

namespace State

variable {κ : Type}

/-- a relay that has just been set up -/
def new : State κ := ⟨none, .waiting, .waiting, false, [], []⟩

/-- one step; an event that does not fit the loops' places changes nothing. Received datagrams are cut to the relay's size,
and nothing is received after a cancellation. -/
def step (mtu : Nat) (s : State κ) (e : Event κ) : State κ :=
  match e, s.outbound, s.inbound with
  | .fromClient data sender, .waiting, _ =>
    if s.canceled then s else { s with outbound := .received (data.take mtu) sender }
  | .learn, .received data sender, _ => { s with learned := some sender, outbound := .learned data }
  | .forward, .learned data, _ => { s with sent := s.sent ++ [data], outbound := .waiting }
  | .fromRemote data, _, .waiting => if s.canceled then s else { s with inbound := .received (data.take mtu) }
  | .lookup, _, .received data =>
    match s.learned with
    | some client => { s with inbound := .addressed data client }
    | none => { s with inbound := .waiting }
  | .deliver, _, .addressed data client =>
    { s with delivered := s.delivered ++ [(client, data)], inbound := .waiting }
  | .cancel, _, _ => { s with canceled := true }
  | .stopOutbound, .waiting, _ => if s.canceled then { s with outbound := .stopped } else s
  | .stopInbound, _, .waiting => if s.canceled then { s with inbound := .stopped } else s
  | _, _, _ => s

def run (mtu : Nat) (s : State κ) (es : List (Event κ)) : State κ := es.foldl (step mtu) s

/-- have both loops stopped, so that the sockets are closed? -/
def isClosed (s : State κ) : Bool :=
  match s.outbound, s.inbound with
  | .stopped, .stopped => true
  | _, _ => false

/-- a datagram from a sender on the local socket goes all the way -/
def carryOut (mtu : Nat) (s : State κ) (data : List UInt8) (sender : κ) : State κ :=
  s.run mtu [.fromClient data sender, .learn, .forward]

/-- a datagram from the remote endpoint goes all the way -/
def carryIn (mtu : Nat) (s : State κ) (data : List UInt8) : State κ := s.run mtu [.fromRemote data, .lookup, .deliver]

/-- the relay is canceled and both loops come to their end -/
def close (mtu : Nat) (s : State κ) : State κ := s.run mtu [.cancel, .stopOutbound, .stopInbound]

end State

end Relay

end EdgeTunnel
