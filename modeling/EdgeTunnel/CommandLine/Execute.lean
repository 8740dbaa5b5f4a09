/-
The program: settings from a file, options applied, and a run until it is interrupted.
-/
import EdgeTunnel.CommandLine.Overrides
import EdgeTunnel.HostTunnel
import EdgeTunnel.Orchestrator.Run
import EdgeTunnel.Settings.Reader
import EdgeTunnel.Text.Inert
import EdgeTunnel.Transport.Basic

namespace EdgeTunnel.CommandLine

/-- what came of a call of the program: the exit status, the log as a terminal shows it, and what was written to the error
stream -/
structure Report where
  exit : Nat
  log : List (Level × String)
  errors : String

/-- why the program ends before it starts a run -/
inductive StartError where
  | usage (cause : UsageError)
  | settings (cause : SettingsError)
  | overrides (cause : OverrideError)
  deriving DecidableEq

def settings (files : Files) (argv : List String) : Except StartError Settings := do
  let o ← match parse argv with
    | .ok o => pure o
    | .error e => throw (.usage e)
  let base ← match o.config with
    | none => pure {}
    | some path =>
      match Settings.load files path with
      | .ok s => pure s
      | .error e => throw (.settings e)
  match o.apply base with
  | .ok s => pure s
  | .error e => throw (.overrides e)

/-- the outside of a program whose tunnels are the host's own network -/
def outside (h : Host) : Outside where
  startTunnel _ _ _ := .ok ()
  bindRelay _ a := h.bind a
  dialRelay _ _ remote := HostTunnel.dialUdp h {} remote
  bindProxy _ c := Proxy.Front.listen h c
  transport := none

/-- the transport that a program provides on a host where nothing but the program could accept on its behalf -/
def command (h : Host) (launch : Transport.Launcher) (accepts : SocketAddress → Bool) (program : String)
    (args : List String) (_ : Nat) (proxy listen : SocketAddress) (region : Region) (canceled : Bool) :
    Except TransportError (Option String) :=
  let isOpen := (h.reach listen.ip).isOk && accepts listen
  match (Transport.start launch program args proxy listen region isOpen canceled).outcome with
  | .ok () => .ok (some s!"Obfuscation transport ({region}) serving {listen} via {proxy}")
  | .error e => .error e

def logLines (deeds : List Deed) : List (Level × String) :=
  deeds.filterMap fun d =>
    match d with
    | .logged level text => some (level, Text.inert text)
    | .asked _ _ => none

/-- the last line of a run that is known before it is interrupted -/
def outcomeDeed : Except RunError Running → Deed
  | .ok up => .logged .info
    s!"Serving {up.orchestrator.topology} topology on {up.address} (endpoints {Orchestrator.addressList up.endpoints})"
  | .error e => .logged .error ("failed to start: " ++ String.intercalate ": " e.chain)

def runLog (r : RunReport) : List (Level × String) := logLines (r.deeds ++ [outcomeDeed r.outcome])

/-- a call of the program in a world, interrupted once it serves -/
def execute (w : World) (argv : List String) : Report :=
  match settings w.files argv with
  | .error (.usage .displayHelp) => ⟨0, [], ""⟩
  | .error (.usage .displayVersion) => ⟨0, [], ""⟩
  | .error (.usage _) => ⟨2, [], "usage"⟩
  | .error (.settings e) => ⟨1, [], s!"Error: {e.message}"⟩
  | .error (.overrides e) => ⟨1, [], s!"Error: {e.message}"⟩
  | .ok s =>
    let r := run w s
    ⟨if r.outcome.isOk then 0 else 1, (.info, "warpline starting...") :: runLog r, ""⟩

end EdgeTunnel.CommandLine
