/-
Running a command script, as far as a transport can tell: how long it takes and how it ends.

A script ends with the status of its last command, or as `exit` or a signal to the shell says. A command that the shell does
not know itself is launched and waited for. Output goes nowhere.
-/
import EdgeTunnel.Transport.Script.Command
import EdgeTunnel.Transport.Shell.Signal
import EdgeTunnel.Transport.Shell.Test

namespace EdgeTunnel.Transport.Shell

open Script

/-- a program is launched and waited for -/
def external (m : Means) (p : Progress) (name : String) (args : List String) : Progress :=
  match m.launch name args with
  | .error .permissionDenied => p.done 126
  | .error _ => p.done 127
  | .ok ⟨none⟩ => { p with time := p.time + forever.nanos }
  | .ok ⟨some (t, .code n)⟩ => { p with time := p.time + t.nanos, status := n }
  | .ok ⟨some (t, .signal n)⟩ => { p with time := p.time + t.nanos, status := 128 + n }

/-- a program takes the place of the shell -/
def replace (m : Means) (p : Progress) (name : String) (args : List String) : Progress :=
  match m.launch name args with
  | .ok ⟨some (t, s)⟩ => { p with time := p.time + t.nanos, traps := [], ended := some s }
  | _ => let q := external m p name args; q.leave q.status

def setOptions (p : Progress) : List String → Progress
  | [] => p.done 0
  | "--" :: rest => { p with status := 0, arguments := p.arguments.take 1 ++ rest }
  | s :: rest =>
    match s.toList with
    | '-' :: letters => setOptions { p with careful := p.careful || letters.contains 'e' } rest
    | '+' :: letters => setOptions { p with careful := p.careful && !letters.contains 'e' } rest
    | _ => { p with status := 0, arguments := p.arguments.take 1 ++ s :: rest }

/-- words that set variables, as `export` takes them -/
def setVariables (p : Progress) (args : List String) : Progress :=
  args.foldl (fun p s => match Text.splitAt? '=' s.toList with
    | some (name, value) => p.set (String.ofList name) (String.ofList value)
    | none => p) (p.done 0)

/-- `shift` by so many arguments -/
def shift (p : Progress) : Option Nat → Progress
  | none => p.leave 2
  | some n =>
    if n < p.arguments.length then { p with status := 0, arguments := p.arguments.take 1 ++ p.arguments.drop (n + 1) }
    else p.leave 2

/-- `eval` with its arguments as one text -/
def evaluate (m : Means) (tested : Bool) (p : Progress) (text : List Char) : Progress :=
  if text.all Text.isBlank then p.done 0 else m.perform tested p text

/-- the commands that do nothing that shows -/
def silent : List String := [":", "true", "echo", "cd", "umask", "unset", "wait", "times", "hash"]

/-- a command with its arguments -/
def call (m : Means) (tested : Bool) (p : Progress) (name : String) (args : List String) : Progress :=
  if silent.contains name then p.done 0
  else
    match name, args with
    | "false", _ => p.done 1
    | "exit", _ => p.leave (exitStatus p args)
    | "return", _ => p.leave (exitStatus p args)
    | "kill", _ => kill m p args
    | "trap", _ => trap p args
    | "set", _ => setOptions p args
    | "export", _ => setVariables p args
    | "readonly", _ => setVariables p args
    | "shift", _ => shift p ((args.head?.map number?).getD (some 1))
    | "eval", _ => evaluate m tested p (String.intercalate " " args).toList
    | "exec", name :: args => replace m p name args
    | "exec", [] => p.done 0
    | "command", name :: args => call m tested p name args
    | "printf", _ => p.done (if args.isEmpty then 2 else 0)
    | "test", _ => test p args
    | "[", _ => if args.getLast? = some "]" then test p args.dropLast else p.done 2
    | "read", _ => p.done 1
    | _, _ => external m p name args

/-- a simple command: words that set variables, and then a command with its arguments -/
def simple (m : Means) (tested : Bool) (p : Progress) (words : List Word) : Progress :=
  match words with
  | [] => p.done 0
  | w :: rest =>
    match assignment? w with
    | some (name, v) =>
      let q := simple m tested p rest
      if rest.all fun w => (assignment? w).isSome then q.set name (p.value v) else q
    | none =>
      match words.flatMap p.expand with
      | [] => p.done 0
      | name :: args => call m tested p name args

/-- the end of a script: what is trapped for it is run last -/
def finish (m : Means) (p : Progress) : Progress :=
  let status := match p.ended with
    | some s => s
    | none => .code p.status
  match status, p.traps.lookup 0 with
  | .code n, some text =>
    let q := m.perform false { p with ended := none, status := n, traps := [] } text.toList
    { q with ended := some (q.ended.getD (.code n)) }
  | s, _ => { p with ended := some s }

/-- signals that waited for a shell come to it -/
def wake (m : Means) (p : Progress) (signals : List Nat) : Progress :=
  signals.foldl (fun p n => if p.ended.isSome then p else { (p.receive m n) with status := p.status }) p

/-- a command in a shell of its own, where only what is to be ignored stays trapped -/
def inside (m : Means) (p : Progress) (body : Progress → Progress) : Progress :=
  let start := { p with
    traps := p.traps.filter fun t => t.1 != 0 && t.2 == ""
    outer := some (p.outer.getD p.traps)
    waiting := [] }
  let q := finish m (body start)
  if p.outer.isSome then { (p.after q) with waiting := p.waiting ++ q.waiting } else wake m (p.after q) q.waiting

/-- a command; `tested` says whether someone looks at its status -/
def run (m : Means) (tested : Bool) (p : Progress) (c : Command) : Progress :=
  if p.ended.isSome then p
  else
    match c with
    | .simple words => (simple m tested p words).heed tested
    | .seq a b => run m tested (run m tested p a) b
    | .andThen a b =>
      let p := run m true p a
      if p.status = 0 then run m tested p b else p
    | .orElse a b =>
      let p := run m true p a
      if p.status = 0 then p else run m tested p b
    | .pipe a b =>
      let first := inside m p fun p => run m true p a
      let second := inside m p fun p => run m tested p b
      let both := { second with time := max first.time second.time, ended := second.ended.or first.ended }
      both.heed tested
    | .negation a =>
      let p := run m true p a
      p.done (if p.status = 0 then 1 else 0)
    | .background _ => p.done 0
    | .subshell a => (inside m p fun p => run m tested p a).heed tested
    | .choice t yes no =>
      let p := run m true p t
      if p.status = 0 then run m tested p yes else run m tested p no

/-- a text in a shell under way: its lines in order; a text that breaks the rules ends the script -/
def perform (m : Means) (tested : Bool) (p : Progress) (text : List Char) : Progress :=
  let (lines, broken) := Script.read text
  let p := lines.foldl (run m tested) p
  if broken && p.ended.isNone then p.leave 2 else p

def script (m : Means) (text : String) (p : Progress) : Life :=
  let p := finish m (perform m false p text.toList)
  ⟨some (⟨p.time⟩, p.ended.getD (.code p.status))⟩

end EdgeTunnel.Transport.Shell
