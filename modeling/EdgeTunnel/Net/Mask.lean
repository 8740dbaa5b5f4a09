/-
Prefixes in the arithmetic of machine words.

An address is a word of its family's width. The mask of a prefix has its first `len` bits set: what an address has under
the mask is its network, the rest is its place inside the prefix. A difference below zero and a shift by the width of the
word or more have no value.
-/
import EdgeTunnel.Net.Cidr

namespace EdgeTunnel

namespace Word

/-- the difference of two numbers, unless it is below zero -/
def sub? (a b : Nat) : Option Nat := if b ≤ a then some (a - b) else none

/-- a word moved to the left by less than its width -/
def shiftLeft? {w : Nat} (x : BitVec w) (n : Nat) : Option (BitVec w) := if n < w then some (x <<< n) else none

/-- the word whose first `len` bits are set -/
def mask? (w len : Nat) : Option (BitVec w) :=
  if len = 0 then some 0 else (sub? w len).bind (shiftLeft? (BitVec.allOnes w))

end Word

namespace Ip

/-- the lowest `w` bits of an address -/
def word (a : Ip) (w : Nat) : BitVec w := BitVec.ofNat w a.value

/-- a bit of an address, counted from the most significant -/
def bit (a : Ip) (i : Nat) : Bool := (a.word a.family.width).getMsbD i

/-- the network that an address is in, for prefixes of this length -/
def network? (a : Ip) (len : Nat) : Option Ip :=
  let w := a.family.width
  (Word.mask? w len).map fun mask => ofNat a.family (a.word w &&& mask).toNat

end Ip

namespace Cidr

/-- the number of bits that differ inside the prefix -/
def hostBits? (p : Cidr) : Option Nat := Word.sub? p.network.family.width p.len

/-- the number of addresses in a word of 128 bits, all of them set when it does not fit -/
def size? (p : Cidr) : Option (BitVec 128) :=
  p.hostBits?.bind fun bits => if 128 ≤ bits then some (BitVec.allOnes 128) else Word.shiftLeft? 1 bits

def contains? (p : Cidr) (a : Ip) : Option Bool :=
  let w := p.network.family.width
  if a.family = p.network.family then
    (Word.mask? w p.len).map fun mask => a.word w &&& mask == p.network.word w
  else some false

/-- the address at an offset of 128 bits, cut to the width of the family -/
def nth? (p : Cidr) (offset : BitVec 128) : Option Ip :=
  let w := p.network.family.width
  (Word.mask? w p.len).map fun mask =>
    Ip.ofNat p.network.family (p.network.word w ||| (offset.setWidth w &&& ~~~mask)).toNat

end Cidr

end EdgeTunnel
