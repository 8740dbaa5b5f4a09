/-
Text that no terminal acts on.

Characters that may start or be a command to a terminal are shown by number: the bell, the backspace, the form feed, the
escape and DEL with two hexadecimal digits, and U+0080 to U+009F with braces. All others stand as they are.
-/
import EdgeTunnel.Text.Decimal

namespace EdgeTunnel.Text

/-- one character of a text that no terminal acts on -/
def inertChar (c : Char) : List Char :=
  match c with
  | '\x07' => ['\\', 'x', '0', '7']
  | '\x08' => ['\\', 'x', '0', '8']
  | '\x0c' => ['\\', 'x', '0', 'c']
  | '\x1b' => ['\\', 'x', '1', 'b']
  | '\x7f' => ['\\', 'x', '7', 'f']
  | c =>
    if 0x80 ≤ c.toNat ∧ c.toNat < 0xA0 then ['\\', 'u', '\x7b'] ++ hexadecimal c.toNat ++ ['\x7d'] else [c]

/-- a text that no terminal acts on -/
def inert (s : String) : String := String.ofList (s.toList.flatMap inertChar)

end EdgeTunnel.Text
