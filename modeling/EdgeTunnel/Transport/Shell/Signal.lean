/-
Signals that a script sends to its own shell.

A signal ends the shell, halts it or does nothing, unless a text is trapped for it. No other process is there to be sent
one.
-/
import EdgeTunnel.Transport.Shell.Progress

namespace EdgeTunnel.Transport.Shell

/-- the number of a signal that has no name but by its distance from the first or the last such signal -/
def realTimeSignal? (name : List Char) : Option Nat :=
  match Text.stripStart? "RTMIN".toList name, Text.stripStart? "RTMAX".toList name with
  | some [], _ => some 34
  | some ('+' :: ds), _ => (Text.readUnsigned 15 ds).map (34 + ·)
  | _, some [] => some 64
  | _, some ('-' :: ds) => (Text.readUnsigned 14 ds).map (64 - ·)
  | _, _ => none

/-- the number of a signal from its number or its name without `SIG` -/
def signal? (s : String) : Option Nat :=
  match Text.readUnsigned 64 s.toList with
  | some n => some n
  | none =>
    let name := Text.upper s.toList
    let full := "SIG" ++ String.ofList name
    if full = "SIGSTKFLT" then none
    else ((ExitStatus.signalNames.idxOf? full).map (· + 1)).or (realTimeSignal? name)

/-- the signals that do nothing unless they are trapped -/
def harmless : List Nat := [17, 18, 23, 28]

/-- the signals that halt a process -/
def halting : List Nat := [19, 20, 21, 22]

/-- the signals that cannot be trapped -/
def untrappable : List Nat := [9, 19]

/-- a signal comes to the script's own shell, which runs what is trapped once no shell inside it is under way -/
def Progress.receive (m : Means) (p : Progress) (signal : Nat) : Progress :=
  let trap := if untrappable.contains signal then none else (p.outer.getD p.traps).lookup signal
  match trap with
  | some text =>
    if text = "" then p.done 0
    else if p.outer.isSome then { p with status := 0, waiting := p.waiting ++ [signal] }
    else { (m.perform false p text.toList) with status := 0 }
  | none =>
    if signal = 0 ∨ harmless.contains signal then p.done 0
    else if halting.contains signal then { p with time := p.time + forever.nanos }
    else { p with ended := some (.signal signal) }

/-- a signal is sent to each of some processes; only the shell itself is there -/
def send (m : Means) (signal : Nat) (p : Progress) : List String → Progress
  | [] => p
  | target :: rest =>
    if p.ended.isSome then p
    else if target = self then send m signal (p.receive m signal) rest
    else if (number? target).isSome then send m signal (p.done 1) rest
    else p.done 2

/-- `kill` with its arguments -/
def kill (m : Means) (p : Progress) (args : List String) : Progress :=
  let deliver (signal : Option Nat) (targets : List String) : Progress :=
    match signal with
    | some n => if targets.isEmpty then p.done 2 else send m n p targets
    | none => p.done 2
  match args with
  | [] => p.done 2
  | option :: rest =>
    match option.toList with
    | ['-', '-'] => deliver (some 15) rest
    | ['-', 's'] => deliver (rest.head?.bind signal?) rest.tail
    | '-' :: name =>
      match signal? (String.ofList name), name with
      | some n, _ => deliver (some n) rest
      | none, 'l' :: _ => p.done 0
      | none, 's' :: name => deliver (signal? (String.ofList name)) rest
      | none, _ => p.done 2
    | _ => deliver (some 15) args

/-- `trap` with its arguments: the text to run, or a dash to forget it, and the signals -/
def trap (p : Progress) : List String → Progress
  | [] => p.done 0
  | text :: names =>
    if text ≠ "-" ∧ text.startsWith "-" then p.done 2
    else
      match names.mapM fun s => if s = "EXIT" then some 0 else signal? s with
      | none => p.done 1
      | some signals =>
        let kept := p.traps.filter fun t => !signals.contains t.1
        { p with status := 0, traps := (if text = "-" then [] else signals.map fun n => (n, text)) ++ kept }

end EdgeTunnel.Transport.Shell
