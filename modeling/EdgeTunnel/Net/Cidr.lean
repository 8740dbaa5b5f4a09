/-
Address prefixes in CIDR notation.

A prefix is a network address with its host bits cleared, and a length. `nth` numbers its addresses from the network
address, wrapping inside the prefix. A text is an address, or an address and a length after the first slash; an address
alone is the prefix of that one address.
-/
import EdgeTunnel.Net.Ip
import EdgeTunnel.Text.Blank

namespace EdgeTunnel

inductive CidrError where
  | parse (text : String)
  | invalidLength (len max : Nat)
  | noPrefixes
  deriving DecidableEq

def CidrError.message : CidrError → String
  | .parse t => s!"Invalid prefix: {t}"
  | .invalidLength n m => s!"Invalid prefix length {n} (maximum {m})"
  | .noPrefixes => "No prefixes left for the enabled address families"

namespace Ip

/-- the address with its lowest `h` bits cleared -/
def clearHost (a : Ip) (h : Nat) : Ip :=
  ⟨a.family, a.value / 2 ^ h * 2 ^ h, Nat.lt_of_le_of_lt (Nat.div_mul_le_self _ _) a.value_lt⟩

theorem clearHost_clearHost (a : Ip) (h : Nat) : (a.clearHost h).clearHost h = a.clearHost h := by
  simp [clearHost, Nat.mul_div_cancel _ (Nat.two_pow_pos h)]

end Ip

/-- a network address with cleared host bits, and a length -/
structure Cidr where
  network : Ip
  len : Nat
  len_le : len ≤ network.family.width
  cleared : network.clearHost (network.family.width - len) = network
  deriving DecidableEq

namespace Cidr

/-- the prefix of that length around an address -/
def around (a : Ip) (len : Nat) (h : len ≤ a.family.width) : Cidr :=
  ⟨a.clearHost (a.family.width - len), len, h, a.clearHost_clearHost _⟩

/-- the prefix of that length around an address, refused when the length is over the family's width -/
def new (a : Ip) (len : Nat) : Except CidrError Cidr :=
  if h : len ≤ a.family.width then .ok (around a len h) else .error (.invalidLength len a.family.width)

def isV4 (p : Cidr) : Bool := p.network.isV4

/-- the number of bits that differ inside the prefix -/
def hostBits (p : Cidr) : Nat := p.network.family.width - p.len

/-- the number of addresses, except that the prefix of all IPv6 addresses counts one less, the largest 128-bit number -/
def size (p : Cidr) : Nat := min (2 ^ p.hostBits) (2 ^ 128 - 1)

def contains (p : Cidr) (a : Ip) : Bool :=
  a.family == p.network.family && a.value / 2 ^ p.hostBits == p.network.value / 2 ^ p.hostBits

/-- the address at an offset from the network address, wrapping inside the prefix -/
def nth (p : Cidr) (offset : Nat) : Ip :=
  Ip.ofNat p.network.family (p.network.value + offset % 2 ^ p.hostBits)

def text (p : Cidr) : List Char := p.network.text ++ '/' :: Text.decimal p.len

instance : ToString Cidr := ⟨fun p => String.ofList p.text⟩

def parse (s : List Char) : Except CidrError Cidr :=
  let s := Text.trim s
  let bad : Except CidrError Cidr := .error (.parse (String.ofList s))
  match Text.splitAt? '/' s with
  | none =>
    match Ip.parse s with
    | some a => .ok (around a a.family.width (Nat.le_refl _))
    | none => bad
  | some (host, len) =>
    match Ip.parse host, Text.readUnsigned 255 len with
    | some a, some n => new a n
    | _, _ => bad

end Cidr

end EdgeTunnel
