/-
Rounding to the nearest, a half to the even neighbour.
-/
import EdgeTunnel.Power

namespace EdgeTunnel.Rounding

/-- the quotient rounded to the nearest whole number -/
def divide (n d : Nat) : Nat :=
  let q := n / d
  let r := n % d
  if d < 2 * r ∨ (2 * r = d ∧ q % 2 = 1) then q + 1 else q

/-- a number rounded to so many binary digits -/
def toDigits (digits n : Nat) : Nat :=
  let unit := 2 ^ (n.log2 + 1 - digits)
  divide n unit * unit

end EdgeTunnel.Rounding
