/-
Arithmetic in words of 64 bits that is checked: a sum or a product that does not fit has no value.

Each operation has a value exactly when the number it stands for is a word (`ofNat?_eq_some_iff`).
-/
import EdgeTunnel.Power

namespace EdgeTunnel.Word

/-- a number as a word, if it fits -/
def ofNat? (n : Nat) : Option UInt64 := if n < 2 ^ 64 then some (UInt64.ofNat n) else none

def mul? (a b : UInt64) : Option UInt64 := ofNat? (a.toNat * b.toNat)

def add? (a b : UInt64) : Option UInt64 := ofNat? (a.toNat + b.toNat)

variable {a b w : UInt64}

theorem ofNat?_eq_some_iff {n : Nat} : ofNat? n = some w ↔ n = w.toNat := by
  unfold ofNat?
  split
  next hfits => rw [Option.some_inj, ← UInt64.toNat_inj, UInt64.toNat_ofNat_of_lt' hfits]
  next hfits =>
    constructor
    · intro h
      cases h
    · rintro rfl
      exact absurd w.toNat_lt hfits

theorem mul?_eq_some_iff : mul? a b = some w ↔ a.toNat * b.toNat = w.toNat := ofNat?_eq_some_iff

theorem add?_eq_some_iff : add? a b = some w ↔ a.toNat + b.toNat = w.toNat := ofNat?_eq_some_iff

/-- a number is a word if it is less than 2^64 -/
theorem exists_toNat_iff {n : Nat} : (∃ w : UInt64, n = w.toNat) ↔ n < 2 ^ 64 := by
  constructor
  · rintro ⟨w, rfl⟩
    exact w.toNat_lt
  · intro h
    exact ⟨UInt64.ofNat n, (UInt64.toNat_ofNat_of_lt' h).symm⟩

end EdgeTunnel.Word
