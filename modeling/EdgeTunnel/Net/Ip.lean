/-
IP addresses and their text.

An address is a family and a number below the family's size. IPv4 text is four decimal octets without leading zeros.
IPv6 text is eight hexadecimal groups; the longest run of at least two zero groups, the leftmost of equals, is written as
two colons, and an address that maps an IPv4 address shows that address in dotted form. Reading accepts every usual IPv6
form: two colons anywhere, upper case, leading zeros up to four digits, and dotted octets for the last two groups.
-/
import EdgeTunnel.Text.Decimal

namespace EdgeTunnel

inductive Family where
  | v4
  | v6
  deriving DecidableEq, Repr, Inhabited

def Family.width : Family → Nat
  | .v4 => 32
  | .v6 => 128

/-- an IP address: its bits as a number -/
structure Ip where
  family : Family
  value : Nat
  value_lt : value < 2 ^ family.width
  deriving DecidableEq

namespace Ip

instance : Inhabited Ip := ⟨⟨.v4, 0, by decide⟩⟩

/-- the address of a number, taken modulo the size of the family -/
def ofNat (f : Family) (n : Nat) : Ip := ⟨f, n % 2 ^ f.width, Nat.mod_lt _ (Nat.two_pow_pos _)⟩

def isV4 (a : Ip) : Bool := a.family == .v4

/-- IPv4 before IPv6, then by number -/
def key (a : Ip) : Nat × Nat := (if a.isV4 then 0 else 1, a.value)

/-- the number of octets or groups of so many bits, most significant first -/
def fields (bits count n : Nat) : List Nat :=
  (List.range count).map fun i => n / 2 ^ (bits * (count - 1 - i)) % 2 ^ bits

/-- the number that octets or groups of so many bits write -/
def ofFields (bits : Nat) (fs : List Nat) : Nat := fs.foldl (fun n f => n * 2 ^ bits + f) 0

/-- four decimal octets with dots -/
def dotted (n : Nat) : List Char := List.intercalate ['.'] ((fields 8 4 n).map Text.decimal)

/-- the length of the run of zeros at the front -/
def zeroRun : List Nat → Nat
  | 0 :: r => zeroRun r + 1
  | _ => 0

/-- where the longest run of zeros starts and how long it is: the leftmost of the longest -/
def longestZeroRun : List Nat → Nat × Nat
  | [] => (0, 0)
  | g :: r =>
    let here := zeroRun (g :: r)
    let (start, len) := longestZeroRun r
    if len ≤ here && 0 < here then (0, here) else (start + 1, len)

/-- groups in hexadecimal with colons between -/
def groupText (gs : List Nat) : List Char := List.intercalate [':'] (gs.map Text.hexadecimal)

/-- the text of an IPv6 number -/
def v6Text (n : Nat) : List Char :=
  if n / 2 ^ 32 = 0xffff then "::ffff:".toList ++ dotted (n % 2 ^ 32)
  else
    let gs := fields 16 8 n
    let (start, len) := longestZeroRun gs
    if 1 < len then groupText (gs.take start) ++ [':', ':'] ++ groupText (gs.drop (start + len)) else groupText gs

def text (a : Ip) : List Char :=
  match a.family with
  | .v4 => dotted a.value
  | .v6 => v6Text a.value

instance : ToString Ip := ⟨fun a => String.ofList a.text⟩

/-- an octet: up to three digits, no leading zero -/
def octetRule : Text.DigitRule := ⟨10, some 3, false, 255⟩

/-- a group: up to four hexadecimal digits -/
def groupRule : Text.DigitRule := ⟨16, some 4, true, 65535⟩

/-- the number of a dotted address at the front of a text, and the rest -/
def readDotted (s : List Char) : Option (Nat × List Char) := do
  let (a, '.' :: s) ← Text.readDigits octetRule s | none
  let (b, '.' :: s) ← Text.readDigits octetRule s | none
  let (c, '.' :: s) ← Text.readDigits octetRule s | none
  let (d, s) ← Text.readDigits octetRule s
  return (ofFields 8 [a, b, c, d], s)

/-- what follows a colon, except that the first group of a run has none before it -/
def afterColon (first : Bool) (s : List Char) : Option (List Char) :=
  if first then some s
  else
    match s with
    | ':' :: r => some r
    | _ => none

/-- at most `limit` groups at the front of a text: the groups, whether the last two were dotted, and the rest. Dotted
octets need room for two groups and end the run. -/
def readGroups (limit : Nat) (first : Bool) (s : List Char) : List Nat × Bool × List Char :=
  match limit with
  | 0 => ([], false, s)
  | limit + 1 =>
    match (if 0 < limit then (afterColon first s).bind readDotted else none) with
    | some (n, rest) => ([n / 65536, n % 65536], true, rest)
    | none =>
      match (afterColon first s).bind (Text.readDigits groupRule) with
      | some (g, rest) =>
        let (gs, dots, rest) := readGroups limit false rest
        (g :: gs, dots, rest)
      | none => ([], false, s)

/-- the number of an IPv6 address at the front of a text, and the rest -/
def readV6 (s : List Char) : Option (Nat × List Char) :=
  let (head, dots, rest) := readGroups 8 true s
  if head.length = 8 then some (ofFields 16 head, rest)
  else if dots then none
  else
    match rest with
    | ':' :: ':' :: r =>
      let (tail, _, rest) := readGroups (7 - head.length) true r
      some (ofFields 16 (head ++ List.replicate (8 - head.length - tail.length) 0 ++ tail), rest)
    | _ => none

def parse (s : List Char) : Option Ip :=
  match readDotted s with
  | some (n, []) => some (ofNat .v4 n)
  | some _ => none
  | none =>
    match readV6 s with
    | some (n, []) => some (ofNat .v6 n)
    | _ => none

end Ip

end EdgeTunnel
