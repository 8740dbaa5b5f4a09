/-
The program itself: it reads the files that a call of it names, carries the call out, and prints the log.
-/
import EdgeTunnel.CommandLine.Execute
import EdgeTunnel.Transport.Programs

namespace EdgeTunnel.Program

def refusal : IO.Error → OsError
  | .permissionDenied .. => .permissionDenied
  | .inappropriateType _ 21 _ => .isDirectory
  | .inappropriateType .. => .notDirectory
  | .invalidArgument _ 36 _ => .nameTooLong
  | .invalidArgument .. => .nulInName
  | _ => .notFound

/-- what reading a path gives -/
def readFile (path : FilePath) : IO (FilePath × Except OsError ByteArray) := do
  match path.text? with
  | none => return (path, .error .notFound)
  | some name =>
    try
      return (path, .ok (← IO.FS.readBinFile name))
    catch e =>
      return (path, .error (refusal e))

/-- what was read from a list of paths -/
def filesOf (entries : List (FilePath × Except OsError ByteArray)) : Files := fun path =>
  (entries.lookup path).getD (.error .notFound)

/-- the settings file that a call names, and the profiles that the settings name -/
def gather (argv : List String) : IO Files := do
  let config ← match CommandLine.parse argv with
    | .ok o => o.config.toList.mapM readFile
    | .error _ => pure []
  match CommandLine.settings (filesOf config) argv with
  | .error _ => return filesOf config
  | .ok s =>
    let profiles ← [s.profiles.primary, s.profiles.secondary].mapM readFile
    return filesOf (config ++ profiles)

/-- a world on a host that reaches every address; no probe of a scan is answered -/
def world (files : Files) (seed : Nat) : World where
  files
  outside := CommandLine.outside .connected
  command := CommandLine.command .connected (Transport.Programs.launch .standard) fun _ => false
  ipv6 := false
  script _ := ⟨Probe.timeout, none⟩
  rng := .ofSeed (UInt64.ofNat seed)
  cancel := none

end EdgeTunnel.Program

def main (argv : List String) : IO UInt32 := do
  let files ← EdgeTunnel.Program.gather argv
  let seed ← IO.rand 0 (2 ^ 62)
  let report := EdgeTunnel.CommandLine.execute (EdgeTunnel.Program.world files seed) argv
  for (level, text) in report.log do
    IO.println s!"{level.name} {text}"
  unless report.errors.isEmpty do
    IO.eprintln report.errors
  return UInt32.ofNat report.exit
