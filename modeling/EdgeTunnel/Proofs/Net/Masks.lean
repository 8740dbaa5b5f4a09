/-
Prefixes in the arithmetic of machine words are prefixes in the arithmetic of numbers.

A mask cuts a word in two: `toNat_and_mask` is the part under it, a multiple of the size of the prefix, and `toNat_and_not`
the rest, the remainder. So masking, or-ing and comparing words come to dividing, adding and comparing numbers, and no
difference or shift on the way is without a value.

- `exists_mask`: a mask of every length up to the width exists.
- `div_eq_iff_bits`: two numbers have the same quotient when their first bits are the same.
- `enumeration`: a prefix is counted through by `nth`, in numbers and in words.
-/
import EdgeTunnel.Proofs.Net.Pools
import EdgeTunnel.Net.Mask

namespace EdgeTunnel

/-! ## Masks -/

namespace Word

variable {w len : Nat}

/-- **A mask of every length** up to the width exists: the lowest bits are cleared and the others set. -/
theorem exists_mask (hlen : len ≤ w) :
    ∃ mask, mask? w len = some mask ∧ ∀ i, mask.getLsbD i = (decide (i < w) && decide (w - len ≤ i)) := by
  rcases Nat.eq_zero_or_pos len with rfl | hpos
  · refine ⟨0, if_pos rfl, fun i => ?_⟩
    simp
  · refine ⟨BitVec.allOnes w <<< (w - len), ?_, fun i => ?_⟩
    · rw [mask?, if_neg (by omega), sub?, if_pos hlen, Option.bind_some, shiftLeft?, if_pos (by omega)]
    · rw [BitVec.getLsbD_shiftLeft, BitVec.getLsbD_allOnes]
      grind

variable {mask : BitVec w} (hmask : ∀ i, mask.getLsbD i = (decide (i < w) && decide (w - len ≤ i)))

include hmask

/-- the part of a word under a mask -/
theorem toNat_and_mask (x : BitVec w) : (x &&& mask).toNat = x.toNat / 2 ^ (w - len) * 2 ^ (w - len) := by
  refine Nat.eq_of_testBit_eq fun i => ?_
  rw [Nat.testBit_mul_two_pow, Nat.testBit_div_two_pow, BitVec.testBit_toNat, BitVec.testBit_toNat, BitVec.getLsbD_and, hmask]
  grind

/-- the rest of a word -/
theorem toNat_and_not (x : BitVec w) : (x &&& ~~~mask).toNat = x.toNat % 2 ^ (w - len) := by
  refine Nat.eq_of_testBit_eq fun i => ?_
  rw [Nat.testBit_mod_two_pow, BitVec.testBit_toNat, BitVec.testBit_toNat, BitVec.getLsbD_and, BitVec.getLsbD_not, hmask]
  grind

end Word

/-! ## First bits -/

/-- numbers of `w` bits have the same quotient when the bits it keeps are the same, counted from the most significant -/
theorem div_eq_iff_bits {w h : Nat} (hh : h ≤ w) {x y : Nat} (hx : x < 2 ^ w) (hy : y < 2 ^ w) :
    x / 2 ^ h = y / 2 ^ h ↔ ∀ i < w - h, (BitVec.ofNat w x).getMsbD i = (BitVec.ofNat w y).getMsbD i := by
  have hbit : ∀ z < 2 ^ w, ∀ i < w - h, (BitVec.ofNat w z).getMsbD i = (z / 2 ^ h).testBit (w - h - 1 - i) := by
    intro z _ i hi
    have hplace : w - h - 1 - i + h = w - 1 - i := by omega
    have hin : i < w ∧ w - 1 - i < w := by omega
    rw [BitVec.getMsbD_eq_getLsbD, BitVec.getLsbD_ofNat, Nat.testBit_div_two_pow, hplace]
    simp only [hin.1, hin.2, decide_true, Bool.true_and]
  constructor
  · intro heq i hi
    rw [hbit x hx i hi, hbit y hy i hi, heq]
  · intro hbits
    refine Nat.eq_of_testBit_eq fun j => ?_
    rcases Nat.lt_or_ge j (w - h) with hj | hj
    · have hi := hbits (w - h - 1 - j) (by omega)
      rw [hbit x hx _ (by omega), hbit y hy _ (by omega)] at hi
      rwa [show w - h - 1 - (w - h - 1 - j) = j by omega] at hi
    · -- above the width there are no bits
      have hhigh : ∀ z < 2 ^ w, (z / 2 ^ h).testBit j = false := fun z hz => by
        rw [Nat.testBit_div_two_pow]
        exact Nat.testBit_lt_two_pow (hz.trans_le (Nat.pow_le_pow_right Nat.two_pos (by omega)))
      rw [hhigh x hx, hhigh y hy]

namespace Ip

theorem toNat_word {a : Ip} {w : Nat} (h : a.family.width = w) : (a.word w).toNat = a.value := by
  subst h
  exact Nat.mod_eq_of_lt a.value_lt

theorem ofNat_value {a : Ip} {f : Family} (h : a.family = f) : ofNat f a.value = a := by
  subst h
  simp only [ofNat, Nat.mod_eq_of_lt a.value_lt]

/-- masking an address clears its host bits -/
theorem network?_eq (a : Ip) {len : Nat} (hlen : len ≤ a.family.width) :
    a.network? len = some (a.clearHost (a.family.width - len)) := by
  obtain ⟨mask, hmask, hbits⟩ := Word.exists_mask hlen
  rw [network?, hmask, Option.map_some, Word.toNat_and_mask hbits, toNat_word rfl]
  exact congrArg some (ofNat_value (a := a.clearHost (a.family.width - len)) rfl)

end Ip

namespace Cidr

/-! ## Prefixes in words -/

variable (p : Cidr)

theorem hostBits_add_len : p.hostBits + p.len = p.network.family.width := Nat.sub_add_cancel p.len_le

theorem hostBits?_eq : p.hostBits? = some p.hostBits := if_pos p.len_le

theorem hostBits_eq_iff : p.hostBits = 128 ↔ p.network.family = .v6 ∧ p.len = 0 := by
  have hadd := p.hostBits_add_len
  cases hf : p.network.family <;> simp only [hf, Family.width] at hadd <;> simp <;> omega

/-- the number of addresses, one less for the prefix of all IPv6 addresses -/
theorem size_eq_ite : p.size = if p.network.family = .v6 ∧ p.len = 0 then 2 ^ 128 - 1 else 2 ^ p.hostBits := by
  split_ifs with hall
  · rw [size, (p.hostBits_eq_iff).2 hall]
    rfl
  · exact p.size_eq fun h => hall ((p.hostBits_eq_iff).1 h)

theorem size?_eq : ∃ s, p.size? = some s ∧ s.toNat = p.size := by
  have hle : p.hostBits ≤ 128 := p.hostBits_le.trans (by cases p.network.family <;> decide)
  rw [size?, hostBits?_eq, Option.bind_some]
  split_ifs with hall
  · refine ⟨_, rfl, ?_⟩
    rw [size, Nat.le_antisymm hle hall]
    rfl
  · have hlt : 2 ^ p.hostBits < 2 ^ 128 := Nat.pow_lt_pow_right (by decide) (by omega)
    refine ⟨(1 : BitVec 128) <<< p.hostBits, if_pos (by omega), ?_⟩
    rw [BitVec.toNat_shiftLeft, p.size_eq (by omega), Nat.shiftLeft_eq]
    exact (congrArg (· % 2 ^ 128) (Nat.one_mul _)).trans (Nat.mod_eq_of_lt hlt)

theorem contains?_eq (a : Ip) : p.contains? a = some (p.contains a) := by
  obtain ⟨mask, hmask, hbits⟩ := Word.exists_mask p.len_le
  rw [contains?, contains]
  split_ifs with hf
  · have hunder := Word.toNat_and_mask hbits (a.word p.network.family.width)
    rw [Ip.toNat_word (congrArg Family.width hf), ← hostBits] at hunder
    have hnet : (p.network.word p.network.family.width).toNat = p.network.value / 2 ^ p.hostBits * 2 ^ p.hostBits := by
      rw [Ip.toNat_word rfl, p.network_eq_mul]
    rw [hmask, Option.map_some, hf, beq_self_eq_true, Bool.true_and, Option.some.injEq, Bool.eq_iff_iff, beq_iff_eq,
      beq_iff_eq, ← BitVec.toNat_inj, hunder, hnet]
    exact Nat.mul_left_inj (Nat.two_pow_pos p.hostBits).ne'
  · rw [beq_eq_false_iff_ne.2 hf, Bool.false_and]

theorem nth?_eq (o : BitVec 128) : p.nth? o = some (p.nth o.toNat) := by
  obtain ⟨mask, hmask, hbits⟩ := Word.exists_mask p.len_le
  have hnet : (p.network.word p.network.family.width).toNat = 2 ^ p.hostBits * (p.network.value / 2 ^ p.hostBits) := by
    rw [Ip.toNat_word rfl, Nat.mul_comm, p.network_eq_mul]
  have hplace : (o.setWidth p.network.family.width).toNat % 2 ^ p.hostBits = o.toNat % 2 ^ p.hostBits := by
    rw [BitVec.toNat_setWidth, Nat.mod_mod_of_dvd _ (Nat.pow_dvd_pow 2 p.hostBits_le)]
  have hor : (p.network.word p.network.family.width ||| (o.setWidth p.network.family.width &&& ~~~mask)).toNat =
      p.network.value + o.toNat % 2 ^ p.hostBits := by
    rw [BitVec.toNat_or, Word.toNat_and_not hbits, ← hostBits, hplace, hnet,
      ← Nat.two_pow_add_eq_or_of_lt (Nat.mod_lt _ (Nat.two_pow_pos _)), Nat.mul_comm, p.network_eq_mul]
  rw [nth?, hmask, Option.map_some, hor]
  rfl

/-! ## Counting through -/

/-- a prefix holds the addresses of its family with the same first bits -/
theorem contains_iff_bits (a : Ip) :
    p.contains a = true ↔ a.family = p.network.family ∧ ∀ i < p.len, a.bit i = p.network.bit i := by
  rw [contains, Bool.and_eq_true, beq_iff_eq, beq_iff_eq]
  refine and_congr_right fun hf => ?_
  have ha : a.value < 2 ^ p.network.family.width := hf ▸ a.value_lt
  have hlen : p.network.family.width - p.hostBits = p.len := by
    have := p.hostBits_add_len
    omega
  rw [div_eq_iff_bits p.hostBits_le ha p.network.value_lt, hlen]
  simp only [Ip.bit, Ip.word]
  rw [hf]

/-- each address of a prefix has one place in it -/
theorem contains_iff_existsUnique (a : Ip) : p.contains a = true ↔ ∃! o, o < 2 ^ p.hostBits ∧ p.nth o = a := by
  rw [contains_iff_nth]
  constructor
  · rintro ⟨o, ho, rfl⟩
    exact ⟨o, ⟨ho, rfl⟩, fun o' h => p.nth_injOn h.1 ho h.2⟩
  · rintro ⟨o, h, -⟩
    exact ⟨o, h⟩

theorem nth_mod (o : Nat) : p.nth o = p.nth (o % 2 ^ p.hostBits) := by rw [nth, nth, Nat.mod_mod]

/-- an address is in the prefix around it -/
theorem contains_around (a : Ip) {len : Nat} (h : len ≤ a.family.width) : (around a len h).contains a = true := by
  have hpos : 0 < 2 ^ (a.family.width - len) := Nat.two_pow_pos _
  simp only [contains, around, hostBits, Ip.clearHost, beq_self_eq_true, Bool.true_and, beq_iff_eq]
  rw [Nat.mul_div_cancel _ hpos]

/-- **A prefix is counted through by `nth`.**
- A length up to the width of the family gives the prefix of that length around an address, another length is refused.
- `nth` gives at every offset the address that is the network address plus the offset modulo the size; it reaches each
  address of the prefix once, and these are those with the same first bits.
- The size is the number of addresses, one less for the prefix of all IPv6 addresses.
- In words of the family's width all of this is computed without a difference below zero or a shift by the whole width, and
  it comes to the same. -/
theorem enumeration :
    (∀ (a : Ip) (len : Nat),
      if len ≤ a.family.width then
        ∃ p, new a len = .ok p ∧ p.len = len ∧ p.contains a = true ∧ a.network? len = some p.network
      else new a len = .error (.invalidLength len a.family.width)) ∧
    ∀ p : Cidr,
      p.hostBits + p.len = p.network.family.width ∧
      (∀ o, p.contains (p.nth o) = true ∧ p.nth o = p.nth (o % 2 ^ p.hostBits) ∧
        (p.nth o).value = p.network.value + o % 2 ^ p.hostBits) ∧
      (∀ a, p.contains a = true ↔ ∃! o, o < 2 ^ p.hostBits ∧ p.nth o = a) ∧
      (∀ a, p.contains a = true ↔ a.family = p.network.family ∧ ∀ i < p.len, a.bit i = p.network.bit i) ∧
      p.size = (if p.network.family = .v6 ∧ p.len = 0 then 2 ^ 128 - 1 else 2 ^ p.hostBits) ∧
      p.hostBits? = some p.hostBits ∧ (∃ s, p.size? = some s ∧ s.toNat = p.size) ∧
      (∀ a, p.contains? a = some (p.contains a)) ∧ ∀ o : BitVec 128, p.nth? o = some (p.nth o.toNat) := by
  refine ⟨fun a len => ?_, fun p => ⟨p.hostBits_add_len, fun o => ⟨p.contains_nth o, p.nth_mod o, p.value_nth o⟩,
    p.contains_iff_existsUnique, p.contains_iff_bits, p.size_eq_ite, p.hostBits?_eq, p.size?_eq, p.contains?_eq, p.nth?_eq⟩⟩
  split_ifs with hlen
  · exact ⟨around a len hlen, dif_pos hlen, rfl, contains_around a hlen, a.network?_eq hlen⟩
  · exact dif_neg hlen

/-- the prefix of twelve bits around `10.20.30.40`: its network, its last address, and an offset past its end -/
theorem enumeration_twelve_bits :
    let inside : Ip := ⟨.v4, 0x0a141e28, by decide⟩
    let last : Ip := ⟨.v4, 0x0a1fffff, by decide⟩
    let p := around inside 12 (by decide)
    p.network = ⟨.v4, 0x0a100000, by decide⟩ ∧ p.contains last = true ∧ 11 < p.len ∧ last.bit 11 = p.network.bit 11 ∧
      p.nth? (BitVec.allOnes 128) = some last ∧ p.nth (2 ^ 20 + 5) = p.nth 5 ∧
      new inside 33 = .error (.invalidLength 33 32) := by
  intro inside last p
  obtain ⟨-, hnth, -, hbits, -, -, -, -, hwords⟩ := enumeration.2 p
  have hcontains : p.contains last = true := by decide +kernel
  have hlast : p.nth (BitVec.allOnes 128).toNat = last := by decide +kernel
  have hwrapped : (2 ^ 20 + 5) % 2 ^ p.hostBits = 5 := by decide +kernel
  refine ⟨by decide +kernel, hcontains, by decide, ((hbits last).1 hcontains).2 11 (by decide), ?_, ?_,
    enumeration.1 inside 33⟩
  · rw [hwords, hlast]
  · rw [(hnth (2 ^ 20 + 5)).2.1, hwrapped]

end Cidr

end EdgeTunnel
