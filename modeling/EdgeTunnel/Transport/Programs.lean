/-
A few programs that every host has, as far as a transport can tell: how long they run and how they end.

`true` and `false` end at once, `sleep` after the time that its arguments add up to, and `sh` as its script says. A program is
named by a path or, without a slash, looked for where programs are.
-/
import EdgeTunnel.Directory
import EdgeTunnel.Transport.Shell.Run

namespace EdgeTunnel.Transport.Programs

/-- how long a program takes that does nothing -/
def blink : Span := .ofMillis 1

/-! ## Pausing -/

/-- the units of a pause, in seconds -/
def units : List (Char × Nat) := [('s', 1), ('m', 60), ('h', 3600), ('d', 86400)]

/-- the longest pause in seconds that is told apart from waiting forever -/
def longest : Nat := 2 ^ 63

/-- a decimal number of seconds, with a point or not -/
def decimalSeconds? (s : List Char) : Option Span :=
  let whole := s.takeWhile Char.isDigit
  let part := match s.drop whole.length with
    | '.' :: r => some r
    | [] => some []
    | _ => none
  part.bind fun part =>
    if part.all Char.isDigit && !(whole ++ part).isEmpty then
      let nanos := part.take 9
      some ⟨(Text.valueOf 10 whole) * 1000000000 + (Text.valueOf 10 nanos) * 10 ^ (9 - nanos.length)⟩
    else none

/-- a pause: a decimal number with a unit or without, or one without an end -/
def pause? (s : String) : Option Span :=
  let cs := s.toList
  if ["inf", "infinity"].contains (String.ofList (Text.lower cs)) then some (.ofSecs longest)
  else
    match cs.getLast?.bind fun c => units.lookup c with
    | some unit => (decimalSeconds? cs.dropLast).map fun t => ⟨t.nanos * unit⟩
    | none => decimalSeconds? cs

/-- `sleep` with its arguments: their sum, if each of them is a pause -/
def sleep (args : List String) : Span × ExitStatus :=
  match (if args.head? = some "--" then args.tail else args).mapM pause? with
  | some (t :: ts) => (⟨max blink.nanos (ts.foldl (fun n t => n + t.nanos) t.nanos)⟩, .code 0)
  | _ => (blink, .code 1)

/-! ## Shells -/

/-- `sh` with its arguments: letters of options, and then a script's text with its name and arguments, or the path of a
script -/
def shell (m : Shell.Means) (careful command : Bool) : List String → Life
  | [] => ⟨some (blink, .code (if command then 2 else 0))⟩
  | arg :: args =>
    match arg.toList with
    | '-' :: d :: letters =>
      if arg ≠ "--" ∧ (d :: letters).all "cefhimnsuvx".toList.contains then
        shell m (careful || (d :: letters).contains 'e') (command || (d :: letters).contains 'c') args
      else ⟨some (blink, .code 2)⟩
    | _ =>
      if command then
        let arguments := if args.isEmpty then ["sh"] else args
        Shell.script m arg { time := blink.nanos, arguments, careful }
      else ⟨some (blink, .code 2)⟩

/-! ## Launching -/

inductive Utility where
  | succeed
  | fail
  | pause
  | runScript
  deriving DecidableEq

/-- the programs by name -/
def utilities : List (String × Utility) := [
  ("true", .succeed), ("echo", .succeed), ("false", .fail), ("sleep", .pause), ("sh", .runScript), ("dash", .runScript)]

/-- the process of a program with its arguments -/
def Utility.life (m : Shell.Means) (args : List String) : Utility → Life
  | .succeed => ⟨some (blink, .code 0)⟩
  | .fail => ⟨some (blink, .code 1)⟩
  | .pause => ⟨some (sleep args)⟩
  | .runScript => shell m false false args

/-- the directories in which programs are looked for by name -/
def searched : List (List String) := [["usr", "bin"], ["bin"]]

def installed : List (List String × Utility) := utilities.flatMap fun u => searched.map fun d => (d ++ [u.1], u.2)

/-- the program that a path leads to, or one that is looked for by name; other files cannot be launched -/
def find (d : Disk) (program : String) : Except OsError Utility := do
  if program = "" then throw .notFound
  let programs : List (List String × ByteArray) := installed.map fun u => (u.1, .empty)
  let place ← { d with files := programs ++ d.files }.locate (if program.contains '/' then program else "/usr/bin/" ++ program)
  match installed.lookup place with
  | some u => return u
  | none => throw .permissionDenied

/-- launching a program from a shell or from outside -/
def launchWith (d : Disk) (m : Shell.Means) : Launcher := fun program args => do
  if (program :: args).any fun s => s.contains '\x00' then throw .nulInArgument
  return (← find d program).life m args

/-- what a shell can do in which so many shells nest -/
def means (d : Disk) : Nat → Shell.Means
  | 0 => ⟨fun _ _ => .error .notFound, fun _ p _ => p⟩
  | n + 1 => ⟨launchWith d (means d n), Shell.perform (means d n)⟩

/-- the processes of a host with this disk; no more shells nest in a script than it has characters -/
def launch (d : Disk) : Launcher := fun program args =>
  launchWith d (means d (args.foldl (fun n a => n + a.length) 1)) program args

end EdgeTunnel.Transport.Programs
