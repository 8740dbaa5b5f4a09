/-
Bytes as hexadecimal text, two digits a byte.

`ofHex?` accepts either case and exactly whole bytes.
-/
import EdgeTunnel.Text.Decimal

namespace EdgeTunnel.Text

/-- two lower-case digits a byte -/
def toHex (bs : List UInt8) : List Char :=
  bs.flatMap fun b => [Nat.digitChar (b.toNat / 16), Nat.digitChar (b.toNat % 16)]

/-- the bytes a string of digit pairs writes -/
def ofHex? : List Char → Option (List UInt8)
  | [] => some []
  | [_] => none
  | a :: b :: r =>
    match digitValue? 16 a, digitValue? 16 b, ofHex? r with
    | some x, some y, some bs => some (UInt8.ofNat (x * 16 + y) :: bs)
    | _, _, _ => none

end EdgeTunnel.Text
