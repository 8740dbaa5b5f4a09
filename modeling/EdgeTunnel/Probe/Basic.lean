/-
Probes: measuring how fast an endpoint answers.

A probe is a handshake over datagrams or a plain stream connect. It ends with a round trip or with the reason why the
endpoint is unusable.
-/
import EdgeTunnel.Handshake.Initiator
import EdgeTunnel.Net.Host
import EdgeTunnel.Span

namespace EdgeTunnel.Probe

inductive Strategy where
  | plain
  | handshake
  deriving DecidableEq, Repr

def Strategy.name : Strategy → String
  | .plain => "tcp"
  | .handshake => "handshake"

/-- how long an answer is waited for -/
def timeout : Span := .ofSecs 5

inductive ProbeError where
  | timeout (limit : Span)
  | handshake (cause : Handshake.HandshakeError)
  | io (cause : OsError)
  deriving DecidableEq

def ProbeError.message : ProbeError → String
  | .timeout limit => s!"No response within {limit.text}"
  | .handshake e => s!"Handshake rejected: {e.message}"
  | .io e => s!"IO error: {e.message}"

/-- what a stream connect meets at its target -/
inductive Door where
  | accepts (after : Span)
  | refuses
  | silent
  deriving DecidableEq

/-- a plain probe: a stream connect within the limit -/
def connect (h : Host) (limit : Span) (target : SocketAddress) (door : Door) : Except ProbeError Span :=
  match h.reach target.ip with
  | .error e => .error (.io e)
  | .ok () =>
    match door with
    | .refuses => .error (.io .refused)
    | .silent => .error (.timeout limit)
    | .accepts after => if after ≤ limit then .ok after else .error (.timeout limit)

/-- does a stream connect succeed within the limit? -/
def isReachable (h : Host) (limit : Span) (target : SocketAddress) (door : Door) : Bool :=
  (connect h limit target door).isOk

end EdgeTunnel.Probe
