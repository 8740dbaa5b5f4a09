/-
Why settings are refused.
-/
import EdgeTunnel.Document.Json
import EdgeTunnel.FilePath
import EdgeTunnel.Net.OsError
import EdgeTunnel.Text.Quoted

namespace EdgeTunnel

inductive BadLimit where
  | scanRtt
  | scanConcurrency
  | scanPorts
  | proxySizes
  | proxyIdle
  deriving DecidableEq, Repr

def BadLimit.message : BadLimit → String
  | .scanRtt => "scan max_rtt_ms must be non-zero"
  | .scanConcurrency => "scan concurrency must be non-zero"
  | .scanPorts => "scan ports must not be empty"
  | .proxySizes => "proxy max_connections and buffer_size must be non-zero"
  | .proxyIdle => "proxy idle_timeout_secs must be non-zero"

inductive SettingsError where
  | conflictingModes
  | unsupportedRegion (text : String)
  | invalid (limit : BadLimit)
  | unsupportedFormat (extension : String)
  | read (path : FilePath) (cause : OsError)
  | malformed
  /-- the text stops inside a part, after so many lines and so many bytes of the last one -/
  | unfinished (inside : Json.Part) (line column : Nat)
  deriving DecidableEq

def SettingsError.message : SettingsError → String
  | .conflictingModes => "Obfuscation and chained mode cannot be used together"
  | .unsupportedRegion t => s!"Unsupported obfuscation region: {Text.quoted t}"
  | .invalid l => s!"Invalid configuration: {l.message}"
  | .unsupportedFormat e => s!"Unsupported config format: {Text.quoted e} (expected toml or json)"
  | .read p e => s!"Failed to read {p}: {e.message}"
  | .malformed => "Failed to parse config"
  | .unfinished p l c => s!"Failed to parse config: EOF while parsing {p.name} at line {l} column {c}"

end EdgeTunnel
