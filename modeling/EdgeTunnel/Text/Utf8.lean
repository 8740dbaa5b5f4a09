/-
Text from bytes that may not be UTF-8.

Where a text is only shown, what is not UTF-8 in its bytes is shown as U+FFFD: one for each octet that starts nothing, and one
for each start of a character that breaks off, as long as it is.
-/
namespace EdgeTunnel.Text

/-- what follows a first octet: the lowest and the highest second octet, and the number of octets behind the first -/
def behind (b : UInt8) : Option (UInt8 × UInt8 × Nat) :=
  if b < 0x80 then some (0, 0, 0)
  else if b < 0xC2 then none
  else if b < 0xE0 then some (0x80, 0xBF, 1)
  else if b = 0xE0 then some (0xA0, 0xBF, 2)
  else if b = 0xED then some (0x80, 0x9F, 2)
  else if b < 0xF0 then some (0x80, 0xBF, 2)
  else if b = 0xF0 then some (0x90, 0xBF, 3)
  else if b < 0xF4 then some (0x80, 0xBF, 3)
  else if b = 0xF4 then some (0x80, 0x8F, 3)
  else none

/-- the octets that go on with a character, when the next one is in a range and so many are left -/
def continuing (low high : UInt8) : Nat → List UInt8 → List UInt8
  | 0, _ => []
  | _, [] => []
  | n + 1, b :: r => if low ≤ b ∧ b ≤ high then b :: continuing 0x80 0xBF n r else []

/-- the character of its octets -/
def assembled (first : UInt8) (more : List UInt8) : Char :=
  let mask : UInt8 := match more.length with
    | 0 => 0x7F
    | 1 => 0x1F
    | 2 => 0x0F
    | _ => 0x07
  Char.ofNat (more.foldl (fun n b => n * 64 + (b &&& 0x3F).toNat) (first &&& mask).toNat)

/-- the characters of bytes, with U+FFFD for what is not UTF-8 -/
def lossy (bytes : List UInt8) : List Char :=
  go bytes.length bytes
where
  go : Nat → List UInt8 → List Char
    | 0, _ => []
    | _ + 1, [] => []
    | n + 1, b :: r =>
      match behind b with
      | none => '\uFFFD' :: go n r
      | some (low, high, count) =>
        let more := continuing low high count r
        (if more.length = count then assembled b more else '\uFFFD') :: go n (r.drop more.length)

end EdgeTunnel.Text
