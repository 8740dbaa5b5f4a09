/-
Writing JSON text.

A value is written without blanks. In strings a character is escaped only where it must be: quotes and backslashes, and
control characters, by their letter where they have one. A fraction, a moment and a text without characters have no written
form, nor has a number outside of 64 bits.
-/
import EdgeTunnel.Document.Data
import EdgeTunnel.Text.Decimal

namespace EdgeTunnel.Json

def escaped (c : Char) : List Char :=
  match c with
  | '"' => ['\\', '"']
  | '\\' => ['\\', '\\']
  | '\x08' => ['\\', 'b']
  | '\x0c' => ['\\', 'f']
  | '\n' => ['\\', 'n']
  | '\r' => ['\\', 'r']
  | '\t' => ['\\', 't']
  | c =>
    if c.toNat < 0x20 then ['\\', 'u', '0', '0', Nat.digitChar (c.toNat / 16), Nat.digitChar (c.toNat % 16)] else [c]

def quoted (s : String) : List Char := '"' :: (s.toList.flatMap escaped ++ ['"'])

def numeral : Int → Option (List Char)
  | .ofNat n => if n < 2 ^ 64 then some (Text.decimal n) else none
  | .negSucc n => if n < 2 ^ 63 then some ('-' :: Text.decimal (n + 1)) else none

mutual

/-- a value, when it has a written form -/
def write : Data → Option (List Char)
  | .null => some "null".toList
  | .bool true => some "true".toList
  | .bool false => some "false".toList
  | .integer n => numeral n
  | .text (some s) => some (quoted s)
  | .list xs => (writeElements xs).map fun t => '[' :: (t ++ [']'])
  | .record fs => (writeMembers fs).map fun t => '\x7b' :: (t ++ ['\x7d'])
  | _ => none

def writeElements : List Data → Option (List Char)
  | [] => some []
  | [x] => write x
  | x :: xs => do
    let t ← write x
    let r ← writeElements xs
    return t ++ ',' :: r

def writeMembers : List (Option String × Data) → Option (List Char)
  | [] => some []
  | [(k, x)] => do
    let k ← k
    let t ← write x
    return quoted k ++ ':' :: t
  | (k, x) :: fs => do
    let k ← k
    let t ← write x
    let r ← writeMembers fs
    return quoted k ++ ':' :: (t ++ ',' :: r)

end

end EdgeTunnel.Json
