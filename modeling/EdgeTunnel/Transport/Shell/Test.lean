/-
Tests of texts and numbers in a script.

A test that is none has a status of its own. No file is there to be tested.
-/
import EdgeTunnel.Transport.Shell.Progress

namespace EdgeTunnel.Transport.Shell

/-- the whole number, with a sign or without, that a test reads from a text -/
def integer? (s : String) : Option Int :=
  match Text.trim s.toList with
  | '-' :: ds => if ds.head? = some '+' then none else (Text.readUnsigned (2 ^ 63) ds).map fun n => -(n : Int)
  | ds => (Text.readUnsigned (2 ^ 63 - 1) ds).map fun n => (n : Int)

/-- the truth of a test of two texts -/
def compare? (op a b : String) : Option Bool :=
  match op with
  | "=" => some (a = b)
  | "!=" => some (a ≠ b)
  | _ => do
    let x ← integer? a
    let y ← integer? b
    match op with
    | "-eq" => some (x = y)
    | "-ne" => some (x ≠ y)
    | "-lt" => some (x < y)
    | "-le" => some (x ≤ y)
    | "-gt" => some (y < x)
    | "-ge" => some (y ≤ x)
    | _ => none

/-- the truth of a test, if it is one; no file is there -/
def holds? : List String → Option Bool
  | [] => some false
  | "!" :: rest => (holds? rest).map not
  | [s] => some (s ≠ "")
  | ["-n", s] => some (s ≠ "")
  | ["-z", s] => some (s = "")
  | [op, _] => if ["-d", "-e", "-f", "-r", "-s", "-w", "-x"].contains op then some false else none
  | [a, op, b] => compare? op a b
  | _ => none

/-- `test` with its arguments -/
def test (p : Progress) (args : List String) : Progress :=
  p.done (match holds? args with
    | some true => 0
    | some false => 1
    | none => 2)

end EdgeTunnel.Transport.Shell
