/-
Prefixes as sets of addresses.

An address that a prefix holds gives the prefix back: clearing its host bits leaves the network (`new_of_contains`). Of two
prefixes with an address in common the longer one has no bit of its own to choose below the shorter one's length, so it lies
inside (`contains_of_shared`). And a prefix has a power of two addresses, which tells its length (`card_addresses`).

- `equality_of_address_sets`: prefixes are equal when they hold the same addresses; two prefixes are nested or disjoint.
-/
import EdgeTunnel.Proofs.Net.Masks

namespace EdgeTunnel.Cidr

variable {p q : Cidr} {a : Ip}

theorem family_of_contains (h : p.contains a = true) : a.family = p.network.family :=
  beq_iff_eq.1 ((Bool.and_eq_true ..).mp h).1

theorem div_of_contains (h : p.contains a = true) : a.value / 2 ^ p.hostBits = p.network.value / 2 ^ p.hostBits :=
  beq_iff_eq.1 ((Bool.and_eq_true ..).mp h).2

theorem contains_network (p : Cidr) : p.contains p.network = true := by simp [contains]

/-! ## The prefix around an address -/

/-- clearing the host bits of an address that a prefix holds leaves its network -/
theorem clearHost_of_contains (h : p.contains a = true) : a.clearHost p.hostBits = p.network := by
  have hvalue : (a.clearHost p.hostBits).value = p.network.value :=
    (congrArg (· * 2 ^ p.hostBits) (div_of_contains h)).trans p.network_eq_mul
  have hfamily : (a.clearHost p.hostBits).family = p.network.family := family_of_contains (a := a) h
  rw [← Ip.ofNat_value hfamily, hvalue, Ip.ofNat_value rfl]

/-- **A prefix is the one of its length around any address it holds.** -/
theorem new_of_contains (h : p.contains a = true) : new a p.len = .ok p := by
  have hfamily := family_of_contains h
  have hlen : p.len ≤ a.family.width := hfamily ▸ p.len_le
  have hnetwork : a.clearHost (a.family.width - p.len) = p.network := by
    rw [hfamily]
    exact clearHost_of_contains h
  rw [new, dif_pos hlen]
  obtain ⟨network, len, hle, hcleared⟩ := p
  simp only [around, hnetwork]

theorem eq_of_shared (hp : p.contains a = true) (hq : q.contains a = true) (hlen : p.len = q.len) : p = q := by
  have hnew := new_of_contains hp
  rw [hlen, new_of_contains hq] at hnew
  exact (Except.ok.inj hnew).symm

/-! ## Two prefixes -/

theorem hostBits_le_of_shared (hp : p.contains a = true) (hq : q.contains a = true) (hlen : p.len ≤ q.len) :
    q.hostBits ≤ p.hostBits := by
  have hpadd := p.hostBits_add_len
  have hqadd := q.hostBits_add_len
  rw [← family_of_contains hp] at hpadd
  rw [← family_of_contains hq] at hqadd
  omega

/-- **Of two prefixes with an address in common the longer one lies inside the shorter one.** -/
theorem contains_of_shared (hp : p.contains a = true) (hq : q.contains a = true) (hlen : p.len ≤ q.len) {b : Ip}
    (hb : q.contains b = true) : p.contains b = true := by
  have hbits := hostBits_le_of_shared hp hq hlen
  have hpow : 2 ^ p.hostBits = 2 ^ q.hostBits * 2 ^ (p.hostBits - q.hostBits) := by
    rw [← Nat.pow_add, Nat.add_sub_cancel' hbits]
  have hcoarse : b.value / 2 ^ p.hostBits = a.value / 2 ^ p.hostBits := by
    rw [hpow, ← Nat.div_div_eq_div_mul, ← Nat.div_div_eq_div_mul, div_of_contains hb, ← div_of_contains hq]
  rw [contains, Bool.and_eq_true, beq_iff_eq, beq_iff_eq]
  exact ⟨(family_of_contains hb).trans ((family_of_contains hq).symm.trans (family_of_contains hp)),
    hcoarse.trans (div_of_contains hp)⟩

theorem card_addresses (p : Cidr) : p.addresses.card = 2 ^ p.hostBits := by
  rw [Finset.card, ← p.map_nth_range, Multiset.card_map, Multiset.card_range]

theorem len_eq_of_addresses_eq (h : p.addresses = q.addresses) : p.len = q.len := by
  have hshared : q.contains p.network = true := by
    rw [← mem_addresses, ← h, mem_addresses]
    exact p.contains_network
  have hbits : p.hostBits = q.hostBits := by
    refine Nat.pow_right_injective (le_refl 2) ?_
    simp only [← card_addresses, h]
  have hpadd := p.hostBits_add_len
  have hqadd := q.hostBits_add_len
  rw [← family_of_contains hshared] at hqadd
  omega

theorem eq_of_addresses_eq (h : p.addresses = q.addresses) : p = q := by
  refine eq_of_shared p.contains_network ?_ (len_eq_of_addresses_eq h)
  rw [← mem_addresses, ← h, mem_addresses]
  exact p.contains_network

theorem subset_or_subset (hp : a ∈ p.addresses) (hq : a ∈ q.addresses) :
    p.addresses ⊆ q.addresses ∨ q.addresses ⊆ p.addresses := by
  simp only [mem_addresses, Finset.subset_iff] at hp hq ⊢
  rcases Nat.le_total p.len q.len with hlen | hlen
  · exact .inr fun _ hb => contains_of_shared hp hq hlen hb
  · exact .inl fun _ hb => contains_of_shared hq hp hlen hb

/-- **Equality of prefixes is equality of their address sets.**
- The addresses of a prefix are those that it holds, in numbers and in machine words alike.
- Prefixes are equal if and only if they have the same addresses.
- Prefixes with an address in common are nested.
- Around each of its addresses, a prefix is the only one of its length: masking the address gives its network. -/
theorem equality_of_address_sets (p q : Cidr) :
    (∀ a, p.contains? a = some (decide (a ∈ p.addresses))) ∧
    (p = q ↔ p.addresses = q.addresses) ∧
    (¬ Disjoint p.addresses q.addresses → p.addresses ⊆ q.addresses ∨ q.addresses ⊆ p.addresses) ∧
    ∀ a ∈ p.addresses, new a p.len = .ok p ∧ a.network? p.len = some p.network := by
  refine ⟨fun a => ?_, ⟨congrArg addresses, eq_of_addresses_eq⟩, fun hmeet => ?_, fun a ha => ?_⟩
  · rw [p.contains?_eq]
    simp only [mem_addresses, Bool.decide_eq_true]
  · obtain ⟨a, hp, hq⟩ := Finset.not_disjoint_iff.1 hmeet
    exact subset_or_subset hp hq
  · have hcontains := (p.mem_addresses a).1 ha
    have hfamily := family_of_contains hcontains
    refine ⟨new_of_contains hcontains, ?_⟩
    rw [a.network?_eq (hfamily ▸ p.len_le), hfamily]
    exact congrArg some (clearHost_of_contains hcontains)

/-- `10.16.0.0/12` and `10.20.30.0/24` share the address `10.20.30.40`, and the second lies inside the first -/
theorem equality_of_address_sets_nested :
    let shared : Ip := ⟨.v4, 0x0a141e28, by decide⟩
    let p := around shared 12 (by decide)
    let q := around shared 24 (by decide)
    ¬ Disjoint p.addresses q.addresses ∧ (p.addresses ⊆ q.addresses ∨ q.addresses ⊆ p.addresses) ∧
      p.addresses ≠ q.addresses ∧ shared ∈ p.addresses ∧ new shared p.len = .ok p ∧
      shared.network? p.len = some p.network := by
  intro shared p q
  obtain ⟨-, heq, hnested, haround⟩ := equality_of_address_sets p q
  have hp : shared ∈ p.addresses := (p.mem_addresses shared).2 (by decide +kernel)
  have hq : shared ∈ q.addresses := (q.mem_addresses shared).2 (by decide +kernel)
  have hmeet : ¬ Disjoint p.addresses q.addresses := Finset.not_disjoint_iff.2 ⟨shared, hp, hq⟩
  have hne : p ≠ q := fun h => absurd (congrArg len h) (by decide)
  exact ⟨hmeet, hnested hmeet, fun h => hne (heq.2 h), hp, haround shared hp⟩

end EdgeTunnel.Cidr
