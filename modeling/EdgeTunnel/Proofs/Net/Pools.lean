/-
Pools of offsets: what a pool still has to give, and what a draw takes from it.

`Pool.toCome` is the multiset of the addresses that a pool still gives in its pass, for the list of a small pool and for
the set of a large one alike. `Pool.Fits` is what a pick has to satisfy: a place of the list, or an offset of the prefix
that is not gone.
- `pick_fits`: every pick of an open pool fits, whatever the random source yields;
- `toCome_take`: a fitting pick takes exactly its address out of what is to come;
- `toCome_ofCidr`: a filled pool gives every address of its prefix once;
- `toCome_eq_zero`: an exhausted pool has nothing to come, the pool of all IPv6 addresses apart, which stops one short.
-/
import EdgeTunnel.Net.Candidates
import EdgeTunnel.Proofs.Net.Enumeration

namespace EdgeTunnel

variable {σ : Type} [RandomSource σ]

/-! ## Random numbers -/

namespace Random

theorem word_lt (w : WordSize) (s : σ) : (word w s).1 < 2 ^ w.bits := by
  cases w with
  | w32 => exact UInt32.toNat_lt _
  | w64 => exact UInt64.toNat_lt _
  | w128 =>
    have hlo := (RandomSource.word64 s).1.toNat_lt
    have hhi := (RandomSource.word64 (RandomSource.word64 s).2).1.toNat_lt
    simp only [word, WordSize.bits]
    omega

theorem attempt_lt (w : WordSize) {n : Nat} (hn : 0 < n) (k : Nat) (s : σ) : (attempt w n k s).1 < n := by
  induction k generalizing s with
  | zero => exact hn
  | succ k ih =>
    simp only [attempt]
    split_ifs
    · rw [Nat.div_lt_iff_lt_mul (Nat.two_pow_pos _), Nat.mul_comm]
      exact Nat.mul_lt_mul_of_pos_left (word_lt w s) hn
    · exact ih _

theorem below_lt (w : WordSize) {n : Nat} (hn : 0 < n) (s : σ) : (below w n s).1 < n := attempt_lt w hn _ s

end Random

/-! ## Sets of offsets -/

/-- the elements of a hash set -/
def members (gone : Std.HashSet Nat) : Finset Nat := gone.toList.toFinset

@[simp] theorem mem_members (gone : Std.HashSet Nat) (o : Nat) : o ∈ members gone ↔ o ∈ gone := by
  simp [members]

theorem card_members (gone : Std.HashSet Nat) : (members gone).card = gone.size := by
  have hnodup : gone.toList.Nodup := by
    refine gone.distinct_toList.imp fun h => ?_
    simpa using h
  rw [members, List.toFinset_card_of_nodup hnodup, Std.HashSet.length_toList]

/-- among one more number than are gone, one is not gone -/
theorem exists_not_gone (gone : Std.HashSet Nat) : ∃ o < gone.size + 1, o ∉ gone := by
  by_contra h
  push Not at h
  have hsub : Finset.range (gone.size + 1) ⊆ members gone := fun o ho => by
    rw [mem_members]; exact h o (Finset.mem_range.1 ho)
  have hcard := Finset.card_le_card hsub
  rw [Finset.card_range, card_members] at hcard
  omega

/-- when as many are gone as there are, all are gone -/
theorem all_gone {gone : Std.HashSet Nat} {n : Nat} (hlt : ∀ o ∈ gone, o < n) (hn : n ≤ gone.size) :
    ∀ o < n, o ∈ gone := by
  have hsub : members gone ⊆ Finset.range n := fun o ho => Finset.mem_range.2 (hlt o ((mem_members gone o).1 ho))
  have heq : members gone = Finset.range n :=
    Finset.eq_of_subset_of_card_le hsub (by rw [Finset.card_range, card_members]; exact hn)
  intro o ho
  rw [← mem_members, heq]
  exact Finset.mem_range.2 ho

namespace Cidr

theorem size_le (p : Cidr) : p.size ≤ 2 ^ p.hostBits := Nat.min_le_left _ _

theorem size_pos (p : Cidr) : 0 < p.size := by
  have := Nat.two_pow_pos p.hostBits
  simp only [size]; omega

/-- the prefix of all IPv6 addresses apart, a prefix has 2^127 addresses at most -/
theorem two_pow_hostBits_le (p : Cidr) (h : p.hostBits ≠ 128) : 2 ^ p.hostBits ≤ 2 ^ 127 := by
  have hle : p.hostBits ≤ 128 := p.hostBits_le.trans (by cases p.network.family <;> decide)
  exact Nat.pow_le_pow_right (by decide) (by omega)

/-- the size is the number of addresses, the prefix of all IPv6 addresses apart -/
theorem size_eq (p : Cidr) (h : p.hostBits ≠ 128) : p.size = 2 ^ p.hostBits := by
  have hpow := p.two_pow_hostBits_le h
  simp only [size]; omega

end Cidr

namespace Pool

/-! ## What is to come -/

/-- the addresses that a pool still gives in its pass -/
def toCome (p : Pool) : Multiset Ip :=
  match p.remaining with
  | .dense left => (left.toList.map p.cidr.nth : List Ip)
  | .sparse gone => ((Multiset.range (2 ^ p.cidr.hostBits)).filter (· ∉ gone)).map p.cidr.nth

/-- are all offsets that are gone offsets of the prefix? -/
def Sound (p : Pool) : Prop :=
  match p.remaining with
  | .dense _ => True
  | .sparse gone => ∀ o ∈ gone, o < 2 ^ p.cidr.hostBits

/-- a place of the list, or an offset of the prefix that is not gone -/
def Fits (p : Pool) (i : Nat) : Prop :=
  match p.remaining with
  | .dense left => i < left.size
  | .sparse gone => i ∉ gone ∧ i < 2 ^ p.cidr.hostBits

theorem cidr_take (p : Pool) (i : Nat) : (p.take i).cidr = p.cidr := by
  rcases p with ⟨c, left | gone⟩ <;> rfl

/-- a pool gives nothing but addresses of its prefix -/
theorem contains_of_mem_toCome {p : Pool} {a : Ip} (h : a ∈ p.toCome) : p.cidr.contains a = true := by
  rcases p with ⟨c, left | gone⟩
  · simp only [toCome, Multiset.mem_coe] at h
    obtain ⟨o, -, rfl⟩ := List.mem_map.1 h
    exact c.contains_nth o
  · simp only [toCome] at h
    obtain ⟨o, -, rfl⟩ := Multiset.mem_map.1 h
    exact c.contains_nth o

/-! ## A full pool -/

theorem sound_ofCidr (c : Cidr) : (ofCidr c).Sound := by
  simp only [ofCidr, full, Sound]
  split_ifs <;> simp

theorem isExhausted_ofCidr (c : Cidr) : (ofCidr c).isExhausted = false := by
  have := c.size_pos
  simp only [ofCidr, full, isExhausted]
  split_ifs <;> simp <;> omega

/-- **A filled pool gives every address of its prefix once.** -/
theorem toCome_ofCidr (c : Cidr) : (ofCidr c).toCome = c.addresses.val := by
  rw [← c.map_nth_range]
  simp only [ofCidr, full, toCome]
  split_ifs with h
  · -- a listed pool is too small for the size to have been cut
    have hsize : c.size = 2 ^ c.hostBits := by
      refine c.size_eq fun h128 => ?_
      simp [Cidr.size, h128, denseLimit] at h
    simp only [Array.toList_range, hsize]
    rfl
  · simp

/-! ## A draw -/

theorem anyOffset_lt (c : Cidr) (s : σ) : (anyOffset c s).1 < 2 ^ c.hostBits := by
  simp only [anyOffset]
  split_ifs with h
  · rw [h]; exact Random.word_lt .w128 s
  · exact (Random.below_lt .w128 c.size_pos s).trans_le c.size_le

theorem freshOffset_fits (c : Cidr) {gone : Std.HashSet Nat} (h : gone.size < c.size) (k : Nat) (s : σ) :
    (freshOffset c gone k s).1 ∉ gone ∧ (freshOffset c gone k s).1 < 2 ^ c.hostBits := by
  induction k generalizing s with
  | zero =>
    simp only [freshOffset]
    obtain ⟨o, ho, hgone⟩ := exists_not_gone gone
    have hle := c.size_le
    cases hf : (List.range (gone.size + 1)).find? (!gone.contains ·) with
    | none =>
      rw [List.find?_eq_none] at hf
      exact absurd (by simpa using hgone) (hf o (List.mem_range.2 ho))
    | some x =>
      have hx := List.find?_some hf
      have hmem := List.mem_range.1 (List.mem_of_find?_eq_some hf)
      simp only [Option.getD_some]
      exact ⟨by simpa using hx, by omega⟩
  | succ k ih =>
    simp only [freshOffset]
    split_ifs with hc
    · exact ih _
    · exact ⟨by simpa using hc, anyOffset_lt c s⟩

/-- **Every pick of an open pool fits**, whatever the random source yields. -/
theorem pick_fits (p : Pool) (s : σ) (h : p.isExhausted = false) : p.Fits (p.pick s).1 := by
  rcases p with ⟨c, left | gone⟩
  · simp only [isExhausted, Array.isEmpty_eq_false_iff] at h
    exact Random.below_lt .w64 (Array.size_pos_iff.2 h) s
  · simp only [isExhausted, decide_eq_false_iff_not, not_le] at h
    exact freshOffset_fits c h _ s

theorem sound_take (p : Pool) {i : Nat} (hs : p.Sound) (hi : p.Fits i) : (p.take i).Sound := by
  rcases p with ⟨c, left | gone⟩
  · trivial
  · intro o ho
    rw [Std.HashSet.mem_insert, beq_iff_eq] at ho
    rcases ho with rfl | ho
    · exact hi.2
    · exact hs o ho

/-- taking an entry and moving the last one into its place loses exactly that entry -/
theorem swapRemove_perm (left : Array Nat) {i : Nat} (hi : i < left.size) :
    List.Perm left.toList (left.getD i 0 :: (swapRemove left i).toList) := by
  have hlast : left.size - 1 < left.size := by omega
  have hswap : left.swapIfInBounds i (left.size - 1) = left.swap i (left.size - 1) hi hlast := by
    simp [Array.swapIfInBounds, hi, hlast]
  have hback : (left.swap i (left.size - 1) hi hlast).toList =
      (left.swap i (left.size - 1) hi hlast).pop.toList ++ [left.getD i 0] := by
    have hne : (left.swap i (left.size - 1) hi hlast).toList ≠ [] := by
      intro h
      have := congrArg List.length h
      rw [Array.length_toList, Array.size_swap, List.length_nil] at this
      omega
    rw [Array.toList_pop]
    conv_lhs => rw [← List.dropLast_concat_getLast hne]
    congr 2
    rw [List.getLast_eq_getElem]
    simp [hi]
  have hperm := (Array.perm_iff_toList_perm.1 (Array.swap_perm hi hlast)).symm
  rw [hback] at hperm
  rw [swapRemove, hswap]
  exact hperm.trans (List.perm_append_singleton _ _)

/-- an offset that goes leaves the ones that are not gone, once -/
theorem filter_insert (n : Nat) {gone : Std.HashSet Nat} {i : Nat} (hgone : i ∉ gone) (hi : i < n) :
    (Multiset.range n).filter (· ∉ gone) = i ::ₘ (Multiset.range n).filter (· ∉ gone.insert i) := by
  refine (Multiset.Nodup.ext ((Multiset.nodup_range n).filter _) ?_).2 fun o => ?_
  · rw [Multiset.nodup_cons]
    exact ⟨by simp, (Multiset.nodup_range n).filter _⟩
  · simp only [Multiset.mem_cons, Multiset.mem_filter, Multiset.mem_range, Std.HashSet.mem_insert, beq_iff_eq, not_or]
    by_cases h : o = i
    · subst h; simp [hgone, hi]
    · have h' : i ≠ o := fun e => h e.symm
      simp [h, h']

/-- **A draw takes exactly its address** out of what is to come. -/
theorem toCome_take (p : Pool) {i : Nat} (hi : p.Fits i) : p.toCome = p.address i ::ₘ (p.take i).toCome := by
  rcases p with ⟨c, left | gone⟩
  · simp only [toCome, take, address, Multiset.cons_coe, Multiset.coe_eq_coe]
    simpa using (swapRemove_perm left hi).map c.nth
  · obtain ⟨hgone, hlt⟩ := hi
    simp only [toCome, take, address]
    rw [filter_insert _ hgone hlt, Multiset.map_cons]

/-- **An exhausted pool has nothing to come**, unless it is the pool of all IPv6 addresses. -/
theorem toCome_eq_zero (p : Pool) (hs : p.Sound) (h : p.isExhausted = true) (hall : p.cidr.hostBits ≠ 128) :
    p.toCome = 0 := by
  rcases p with ⟨c, left | gone⟩
  · simp only [isExhausted, Array.isEmpty_iff] at h
    simp [toCome, h]
  · simp only [isExhausted, decide_eq_true_eq, c.size_eq hall] at h
    simp only [toCome, Multiset.map_eq_zero, Multiset.filter_eq_nil, Multiset.mem_range, not_not]
    exact fun o ho => all_gone hs h o ho

end Pool

end EdgeTunnel
