/-
Quoted text, as messages show a text they were given.

The text stands between double quotes. A double quote and a backslash are written with a backslash before them, four
control characters by their letter or digit, and an unprintable character by its number in hexadecimal.
-/
import EdgeTunnel.Text.Decimal
import EdgeTunnel.Text.Unprintable

namespace EdgeTunnel.Text

/-- one character inside quotes -/
def quotedChar (c : Char) : List Char :=
  match c with
  | '\x00' => ['\\', '0']
  | '\t' => ['\\', 't']
  | '\n' => ['\\', 'n']
  | '\r' => ['\\', 'r']
  | '"' => ['\\', '"']
  | '\\' => ['\\', '\\']
  | c => if isUnprintable c then ['\\', 'u', '\x7b'] ++ hexadecimal c.toNat ++ ['\x7d'] else [c]

def quoted (s : String) : String := String.ofList ('"' :: (s.toList.flatMap quotedChar ++ ['"']))

end EdgeTunnel.Text
