/-
Numbers as byte strings, lowest byte first, and the other way round highest byte first.
-/
import EdgeTunnel.Power

namespace EdgeTunnel.Crypto

/-- the number of a byte string, lowest byte first -/
def natOfBytes : List UInt8 → Nat
  | [] => 0
  | b :: r => b.toNat + 256 * natOfBytes r

/-- the lowest `len` bytes of a number, lowest first -/
def bytesOfNat : (len n : Nat) → List UInt8
  | 0, _ => []
  | k + 1, n => UInt8.ofNat (n % 256) :: bytesOfNat k (n / 256)

@[simp] theorem length_bytesOfNat (len n : Nat) : (bytesOfNat len n).length = len := by
  induction len generalizing n with
  | zero => rfl
  | succ k ih => simp [bytesOfNat, ih]

/-- the lowest `len` bytes of a number, highest first -/
def bigEndian (len n : Nat) : List UInt8 := (bytesOfNat len n).reverse

@[simp] theorem length_bigEndian (len n : Nat) : (bigEndian len n).length = len := by simp [bigEndian]

end EdgeTunnel.Crypto
