/-
Why a run does not come up.
-/
import EdgeTunnel.Profile.Basic
import EdgeTunnel.Proxy.Error
import EdgeTunnel.Relay.Basic
import EdgeTunnel.Scan.Machine
import EdgeTunnel.Settings.Error
import EdgeTunnel.Transport.Basic

namespace EdgeTunnel

inductive RunError where
  | settings (cause : SettingsError)
  | profile (cause : ProfileError)
  | missingProfile (name : String)
  | scan (cause : Scan.ScanError)
  | notEnoughEndpoints (needed got : Nat)
  | tunnel (cause : TunnelError)
  | relay (cause : RelayError)
  | proxy (cause : Proxy.ProxyError)
  | transport (cause : TransportError)
  | missingTransport
  deriving DecidableEq

namespace RunError

def message : RunError → String
  | .settings e => s!"Configuration error: {e.message}"
  | .profile e => s!"Profile error: {e.message}"
  | .missingProfile name => s!"Missing {name} profile"
  | .scan e => s!"Endpoint scan failed: {e.message}"
  | .notEnoughEndpoints needed got => s!"Topology needs {needed} endpoints, got {got}"
  | .tunnel e => s!"Tunnel error: {e.message}"
  | .relay e => s!"Relay error: {e.message}"
  | .proxy e => s!"Proxy error: {e.message}"
  | .transport e => s!"Obfuscation transport error: {e.message}"
  | .missingTransport => "Obfuscated topology without a transport"

/-- the message and those of its causes, outermost first -/
def chain (e : RunError) : List String :=
  e.message :: (match e with
    | .settings c => [c.message]
    | .profile c => c.chain
    | .scan c => c.chain
    | .tunnel c => c.chain
    | .relay c => c.chain
    | .proxy c => c.chain
    | .transport c => [c.message]
    | _ => [])

end RunError

end EdgeTunnel
