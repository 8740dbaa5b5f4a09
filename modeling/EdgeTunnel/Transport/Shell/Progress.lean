/-
A command script under way: what it knows, how far it is, and what its words stand for.

A parameter that is not quoted is cut into fields at its blanks, and a word without fields is dropped.
-/
import EdgeTunnel.Text.Blank
import EdgeTunnel.Text.Decimal
import EdgeTunnel.Transport.Basic
import EdgeTunnel.Transport.Script.Token

namespace EdgeTunnel.Transport.Shell

open Script

/-- a script under way -/
structure Progress where
  /-- nanoseconds since the start -/
  time : Nat
  /-- the script's name and its arguments -/
  arguments : List String
  /-- the status of the last command -/
  status : Nat := 0
  /-- the variables with their values, the latest first -/
  bindings : List (String × String) := []
  /-- what to run when a signal comes; the end of the script counts as signal zero -/
  traps : List (Nat × String) := []
  /-- in a shell inside the script's own: the traps of the script's own shell, and the signals that wait for it -/
  outer : Option (List (Nat × String)) := none
  waiting : List Nat := []
  /-- does a command that fails end the script? -/
  careful : Bool := false
  ended : Option ExitStatus := none

/-- what a shell needs for a command it does not know -/
structure Means where
  launch : Launcher
  /-- runs a text in a shell under way; the first argument says whether someone looks at its status -/
  perform : Bool → Progress → List Char → Progress

/-! ## Words -/

/-- the shell's own number as a word; it never is a number in a text -/
def self : String := "$$"

/-- the fields that a parameter stands for -/
def Progress.valuesOf (p : Progress) (name : List Char) : List String :=
  match name with
  | ['@'] => p.arguments.drop 1
  | ['*'] => [String.intercalate " " (p.arguments.drop 1)]
  | ['#'] => [toString (p.arguments.length - 1)]
  | ['?'] => [toString p.status]
  | ['$'] => [self]
  | ['-'] => [if p.careful then "e" else ""]
  | name =>
    match Text.readUnsigned 1000 name with
    | some n => [p.arguments.getD n ""]
    | none => [(p.bindings.lookup (String.ofList name)).getD ""]

/-- what a word is made of once its parameters are filled in -/
inductive Atom where
  | char (c : Char)
  /-- the end of a field -/
  | gap
  /-- a field is here, even if it is empty -/
  | edge

/-- the atoms of a piece; a value that is not quoted is cut at its blanks -/
def Progress.atoms (p : Progress) : Piece → List Atom
  | .char c _ => [.char c]
  | .edge => [.edge]
  | .parameter name quoted =>
    let fields := (p.valuesOf name).map fun v =>
      v.toList.map fun c => if !quoted && [' ', '\t', '\n'].contains c then Atom.gap else .char c
    (fields.intersperse [.gap]).flatten

/-- the fields of a list of atoms; the first argument is the field so far, backwards -/
def fields : Option (List Char) → List Atom → List String
  | field, [] => (field.map fun cs => String.ofList cs.reverse).toList
  | field, .gap :: r => (field.map fun cs => String.ofList cs.reverse).toList ++ fields none r
  | field, .edge :: r => fields (some (field.getD [])) r
  | field, .char c :: r => fields (some (c :: field.getD [])) r

def Progress.expand (p : Progress) (w : Word) : List String := fields none (w.flatMap p.atoms)

/-- the value of a word that is not cut into fields -/
def Progress.value (p : Progress) (w : Word) : String := String.intercalate " " (p.expand w)

/-- the name and the value of a word that sets a variable -/
def assignment? (w : Word) : Option (String × Word) :=
  let name := (w.map Piece.bare?).takeWhile fun c => c.any isNameChar
  match w.drop name.length with
  | .char '=' false :: v =>
    let name := name.filterMap id
    if name.head?.any fun c => !c.isDigit then some (String.ofList name, v) else none
  | _ => none

/-! ## Ends -/

namespace Progress

def done (p : Progress) (status : Nat) : Progress := { p with status }

def set (p : Progress) (name value : String) : Progress := { p with bindings := (name, value) :: p.bindings }

/-- the script ends with this status -/
def leave (p : Progress) (status : Nat) : Progress := { p with status, ended := some (.code status) }

/-- what a command in a shell of its own leaves of the shell around it: a signal to the shell ends both -/
def after (p inner : Progress) : Progress :=
  match inner.ended with
  | some (.signal n) => { p with time := inner.time, ended := some (.signal n) }
  | some (.code n) => { p with time := inner.time, status := n }
  | none => { p with time := inner.time, status := inner.status }

/-- the script ends if a command failed that nobody looked at and the shell is careful -/
def heed (p : Progress) (tested : Bool) : Progress :=
  if p.careful && !tested && p.status != 0 && p.ended.isNone then p.leave p.status else p

end Progress

/-- so long that nobody waits for it -/
def forever : Span := .ofSecs (2 ^ 63)

/-- the number that the shell reads from a text -/
def number? (s : String) : Option Nat := Text.readUnsigned (2 ^ 31 - 1) (Text.trim s.toList)

/-- the status with which `exit` ends a script; a text that is no number is an error of its own -/
def exitStatus (p : Progress) : List String → Nat
  | [] => p.status
  | s :: _ => ((number? s).map (· % 256)).getD 2

end EdgeTunnel.Transport.Shell
