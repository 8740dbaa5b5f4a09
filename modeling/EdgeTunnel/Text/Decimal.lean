/-
Whole numbers in text.

`readUnsigned` reads an unsigned number with an upper bound: an optional plus sign and at least one ASCII digit, leading
zeros allowed. `readDigits` reads the digits at the front of a text in a given base, as address text has them: at most
so many digits, and on request no leading zero.
-/
import EdgeTunnel.Power

namespace EdgeTunnel.Text

/-- the value of a digit in bases up to sixteen, either case -/
def digitValue? (base : Nat) (c : Char) : Option Nat :=
  let n := c.toNat
  let v :=
    if 48 ≤ n && n ≤ 57 then n - 48
    else if 97 ≤ n && n ≤ 102 then n - 87
    else if 65 ≤ n && n ≤ 70 then n - 55
    else 16
  if v < base then some v else none

def isDigitOf (base : Nat) (c : Char) : Bool := (digitValue? base c).isSome

/-- the number a string of digits writes, most significant digit first -/
def valueOf (base : Nat) (ds : List Char) : Nat :=
  ds.foldl (fun n c => n * base + (digitValue? base c).getD 0) 0

/-- a number no larger than `most`: an optional plus sign, then digits and nothing else -/
def readUnsigned (most : Nat) (s : List Char) : Option Nat :=
  let ds := match s with
    | '+' :: r => r
    | r => r
  if ds.isEmpty || !ds.all (isDigitOf 10) then none
  else if valueOf 10 ds ≤ most then some (valueOf 10 ds) else none

/-- how the digits of one number may be written -/
structure DigitRule where
  base : Nat
  /-- the most digits, when limited -/
  width : Option Nat
  /-- may a number of several digits start with zero? -/
  leadingZero : Bool
  /-- the largest value -/
  most : Nat

/-- the number at the front of a text and what follows its last digit -/
def readDigits (rule : DigitRule) (s : List Char) : Option (Nat × List Char) :=
  let ds := s.takeWhile (isDigitOf rule.base)
  let fits := match rule.width with
    | some w => ds.length ≤ w
    | none => true
  let zeroOk := rule.leadingZero || ds.head? != some '0' || ds.length ≤ 1
  if ds.isEmpty || !fits || !zeroOk || rule.most < valueOf rule.base ds then none
  else some (valueOf rule.base ds, s.drop ds.length)

/-- a number in decimal, without leading zeros -/
def decimal (n : Nat) : List Char := Nat.toDigits 10 n

/-- a number in lower-case hexadecimal, without leading zeros -/
def hexadecimal (n : Nat) : List Char := Nat.toDigits 16 n

end EdgeTunnel.Text
