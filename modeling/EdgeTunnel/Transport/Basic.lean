/-
The circumvention transport as a child process.

A transport is launched with its arguments filled in and is awaited until it accepts connections on the address it listens on.
It fails when it cannot be launched, when it exits first, and when it is not ready in time or the run is canceled.
-/
import EdgeTunnel.Arguments
import EdgeTunnel.Net.Host
import EdgeTunnel.Span

namespace EdgeTunnel

inductive ExitStatus where
  | code (n : Nat)
  | signal (n : Nat)
  deriving DecidableEq, Repr

namespace ExitStatus

def signalNames : List String := [
  "SIGHUP", "SIGINT", "SIGQUIT", "SIGILL", "SIGTRAP", "SIGABRT", "SIGBUS", "SIGFPE", "SIGKILL", "SIGUSR1", "SIGSEGV",
  "SIGUSR2", "SIGPIPE", "SIGALRM", "SIGTERM", "SIGSTKFLT", "SIGCHLD", "SIGCONT", "SIGSTOP", "SIGTSTP", "SIGTTIN",
  "SIGTTOU", "SIGURG", "SIGXCPU", "SIGXFSZ", "SIGVTALRM", "SIGPROF", "SIGWINCH", "SIGIO", "SIGPWR", "SIGSYS"]

def text : ExitStatus → String
  | .code n => s!"exit status: {n}"
  | .signal n =>
    match signalNames[n - 1]? with
    | some name => s!"signal: {n} ({name})"
    | none => s!"signal: {n}"

end ExitStatus

inductive TransportError where
  | unsupportedRegion (text : String)
  | spawn (program : String) (cause : OsError)
  | exited (program : String) (status : String)
  | notReady (program : String) (listen : SocketAddress)
  deriving DecidableEq

def TransportError.message : TransportError → String
  | .unsupportedRegion t => Region.unsupportedMessage t
  | .spawn p e => s!"Failed to launch {p}: {e.message}"
  | .exited p s => s!"{p} exited before serving: {s}"
  | .notReady p a => s!"{p} is not accepting on {a}"

namespace Transport

/-- how long a transport has to become ready -/
def readyTimeout : Span := .ofSecs 15

/-- the pause between two looks at a transport that is not ready -/
def readyPoll : Span := .ofMillis 100

/-- a launched process: when it ends by itself, and how -/
structure Life where
  ending : Option (Span × ExitStatus)
  deriving DecidableEq

/-- the processes a host can launch, by program and arguments -/
abbrev Launcher := String → List String → Except OsError Life

/-- the end of a wait, and when it came -/
structure Wait where
  outcome : Except TransportError Unit
  time : Span

def Life.endedBy (l : Life) (now : Nat) : Option ExitStatus :=
  match l.ending with
  | some (t, s) => if t.nanos ≤ now then some s else none
  | none => none

/-- waiting from a look on: the process may have exited, it may accept connections, or time may be up -/
def await (program : String) (listen : SocketAddress) (life : Life) (accepts canceled : Bool) (limit : Span)
    (now : Nat) : Wait :=
  match life.endedBy now with
  | some s => ⟨.error (.exited program s.text), ⟨now⟩⟩
  | none =>
    if accepts then ⟨.ok (), ⟨now⟩⟩
    else if canceled || decide (limit.nanos ≤ now) then ⟨.error (.notReady program listen), ⟨now⟩⟩
    else await program listen life accepts canceled limit (now + readyPoll.nanos)
termination_by limit.nanos - now
decreasing_by
  simp only [readyPoll, Span.ofMillis, Bool.or_eq_true, decide_eq_true_eq, not_or, Nat.not_le] at *
  omega

/-- launching a transport and waiting for it; `accepts` says whether it takes connections -/
def start (launch : Launcher) (program : String) (args : List String) (proxy listen : SocketAddress)
    (region : Region) (accepts canceled : Bool) (limit : Span := readyTimeout) : Wait :=
  match launch program (fillArguments proxy listen region args) with
  | .error e => ⟨.error (.spawn program e), ⟨0⟩⟩
  | .ok life => await program listen life accepts canceled limit 0

end Transport

end EdgeTunnel
