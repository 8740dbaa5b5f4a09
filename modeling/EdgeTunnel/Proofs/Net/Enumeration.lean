/-
The addresses of a prefix, as a set and as a list.

`Cidr.addresses` is the set of the addresses that a prefix holds, said through `contains`. `nth` counts it through:
- `value_nth`: the address at an offset is the network address plus the offset, so no carry leaves the prefix;
- `nth_injOn`: different offsets inside the prefix are different addresses;
- `contains_iff_nth`: what the prefix holds is what `nth` reaches;
- `map_nth_range`: the offsets in order give every address of the prefix once.
-/
import EdgeTunnel.Net.Cidr
import Mathlib.Data.Fintype.Sigma
import Mathlib.Data.Multiset.Range
import Mathlib.Tactic

namespace EdgeTunnel

/-! ## All addresses -/

instance : Fintype Family := ⟨{.v4, .v6}, fun f => by cases f <;> decide⟩

/-- an address is a family and a number below the family's size -/
def Ip.equiv : Ip ≃ (f : Family) × Fin (2 ^ f.width) where
  toFun a := ⟨a.family, a.value, a.value_lt⟩
  invFun x := ⟨x.1, x.2.1, x.2.2⟩
  left_inv _ := rfl
  right_inv _ := rfl

instance : Fintype Ip := Fintype.ofEquiv _ Ip.equiv.symm

namespace Cidr

/-- the addresses that a prefix holds -/
def addresses (p : Cidr) : Finset Ip := Finset.univ.filter fun a => p.contains a = true

@[simp] theorem mem_addresses (p : Cidr) (a : Ip) : a ∈ p.addresses ↔ p.contains a = true := by simp [addresses]

/-! ## Counting through a prefix -/

theorem hostBits_le (p : Cidr) : p.hostBits ≤ p.network.family.width := Nat.sub_le _ _

/-- the network address is a multiple of the size of the prefix -/
theorem network_eq_mul (p : Cidr) : p.network.value / 2 ^ p.hostBits * 2 ^ p.hostBits = p.network.value := by
  have h := p.cleared
  simp only [Ip.clearHost] at h
  exact congrArg Ip.value h

/-- no carry leaves the prefix -/
theorem network_add_lt (p : Cidr) {o : Nat} (ho : o < 2 ^ p.hostBits) :
    p.network.value + o < 2 ^ p.network.family.width := by
  have hpow : 2 ^ p.network.family.width = 2 ^ (p.network.family.width - p.hostBits) * 2 ^ p.hostBits := by
    rw [← Nat.pow_add, Nat.sub_add_cancel p.hostBits_le]
  have hq : p.network.value / 2 ^ p.hostBits < 2 ^ (p.network.family.width - p.hostBits) := by
    rw [Nat.div_lt_iff_lt_mul (Nat.two_pow_pos _), ← hpow]
    exact p.network.value_lt
  calc p.network.value + o
      = p.network.value / 2 ^ p.hostBits * 2 ^ p.hostBits + o := by rw [network_eq_mul]
    _ < p.network.value / 2 ^ p.hostBits * 2 ^ p.hostBits + 2 ^ p.hostBits := by omega
    _ = (p.network.value / 2 ^ p.hostBits + 1) * 2 ^ p.hostBits := by rw [Nat.succ_mul]
    _ ≤ 2 ^ (p.network.family.width - p.hostBits) * 2 ^ p.hostBits := Nat.mul_le_mul_right _ hq
    _ = 2 ^ p.network.family.width := hpow.symm

@[simp] theorem family_nth (p : Cidr) (o : Nat) : (p.nth o).family = p.network.family := rfl

/-- the address at an offset is the network address plus the offset -/
theorem value_nth (p : Cidr) (o : Nat) : (p.nth o).value = p.network.value + o % 2 ^ p.hostBits :=
  Nat.mod_eq_of_lt (p.network_add_lt (Nat.mod_lt _ (Nat.two_pow_pos _)))

theorem contains_nth (p : Cidr) (o : Nat) : p.contains (p.nth o) = true := by
  have hpos : 0 < 2 ^ p.hostBits := Nat.two_pow_pos _
  simp only [contains, family_nth, value_nth, beq_self_eq_true, Bool.true_and, beq_iff_eq]
  conv_lhs => rw [← p.network_eq_mul, Nat.add_comm, Nat.add_mul_div_right _ _ hpos, Nat.mod_div_self, Nat.zero_add]

/-- **Different offsets, different addresses.** -/
theorem nth_injOn (p : Cidr) {o o' : Nat} (ho : o < 2 ^ p.hostBits) (ho' : o' < 2 ^ p.hostBits)
    (h : p.nth o = p.nth o') : o = o' := by
  have hv := congrArg Ip.value h
  rw [value_nth, value_nth, Nat.mod_eq_of_lt ho, Nat.mod_eq_of_lt ho'] at hv
  omega

/-- **A prefix holds what `nth` reaches.** -/
theorem contains_iff_nth (p : Cidr) (a : Ip) : p.contains a = true ↔ ∃ o < 2 ^ p.hostBits, p.nth o = a := by
  constructor
  · intro h
    simp only [contains, Bool.and_eq_true, beq_iff_eq] at h
    obtain ⟨hf, hv⟩ := h
    have hpos : 0 < 2 ^ p.hostBits := Nat.two_pow_pos _
    refine ⟨a.value % 2 ^ p.hostBits, Nat.mod_lt _ hpos, ?_⟩
    have hval : (p.nth (a.value % 2 ^ p.hostBits)).value = a.value := by
      rw [value_nth, Nat.mod_mod, ← p.network_eq_mul, ← hv, Nat.mul_comm]
      exact Nat.div_add_mod _ _
    have hfam : (p.nth (a.value % 2 ^ p.hostBits)).family = a.family := hf.symm
    generalize p.nth (a.value % 2 ^ p.hostBits) = b at hval hfam
    cases a; cases b; simp only at hval hfam
    subst hval hfam; rfl
  · rintro ⟨o, -, rfl⟩
    exact p.contains_nth o

/-- **Every address once.** The offsets in order give the addresses of the prefix. -/
theorem map_nth_range (p : Cidr) : (Multiset.range (2 ^ p.hostBits)).map p.nth = p.addresses.val := by
  have hnodup : ((Multiset.range (2 ^ p.hostBits)).map p.nth).Nodup := by
    refine Multiset.Nodup.map_on (fun o ho o' ho' h => ?_) (Multiset.nodup_range _)
    exact p.nth_injOn (Multiset.mem_range.1 ho) (Multiset.mem_range.1 ho') h
  refine (Multiset.Nodup.ext hnodup p.addresses.nodup).2 fun a => ?_
  rw [Finset.mem_val, mem_addresses, contains_iff_nth]
  simp only [Multiset.mem_map, Multiset.mem_range]

end Cidr

end EdgeTunnel
