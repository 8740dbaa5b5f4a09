/-
Lengths of time.

A span is a whole number of nanoseconds. Its text takes the largest unit that leaves a whole part (seconds, then
milliseconds, microseconds, nanoseconds) and writes the rest as a decimal fraction without trailing zeros.
-/
import EdgeTunnel.Text.Decimal

namespace EdgeTunnel

/-- a length of time in nanoseconds -/
structure Span where
  nanos : Nat
  deriving DecidableEq, Repr, Inhabited

namespace Span

instance : LE Span := ⟨fun a b => a.nanos ≤ b.nanos⟩
instance : LT Span := ⟨fun a b => a.nanos < b.nanos⟩
instance (a b : Span) : Decidable (a ≤ b) := inferInstanceAs (Decidable (a.nanos ≤ b.nanos))
instance (a b : Span) : Decidable (a < b) := inferInstanceAs (Decidable (a.nanos < b.nanos))

def ofMillis (n : Nat) : Span := ⟨n * 1000000⟩

def ofSecs (n : Nat) : Span := ⟨n * 1000000000⟩

def dropZeros (s : List Char) : List Char := (s.reverse.dropWhile (· == '0')).reverse

/-- a whole part, and a rest of so many digits as a fraction -/
def withFraction (whole rest digits : Nat) : List Char :=
  let ds := Text.decimal rest
  let fraction := dropZeros (List.replicate (digits - ds.length) '0' ++ ds)
  Text.decimal whole ++ (if fraction.isEmpty then [] else '.' :: fraction)

def text (t : Span) : String :=
  let n := t.nanos
  String.ofList <|
    if 1000000000 ≤ n then withFraction (n / 1000000000) (n % 1000000000) 9 ++ ['s']
    else if 1000000 ≤ n then withFraction (n / 1000000) (n % 1000000) 6 ++ ['m', 's']
    else if 1000 ≤ n then withFraction (n / 1000) (n % 1000) 3 ++ ['µ', 's']
    else Text.decimal n ++ ['n', 's']

end Span

end EdgeTunnel
