/-
Sampling without replacement: what a source of candidates draws in each of its passes.

`draws` lists each draw with the number of passes completed after it, `inPass k` collects the addresses drawn in one pass,
and `supply` is what the prefixes hold together, an address as often as there are prefixes that hold it. `due k` is what
the draws of pass `k` may still be: nothing of a past pass, what is to come of the present one, everything of a later one.

- `next_spec`: a draw takes its address out of what is to come, or out of everything when it begins a new pass.
- `due_next_le`, `due_next_eq`: so a draw takes its address out of what is due in its pass. Nothing is lost at the end of a
  pass, unless the prefix of all IPv6 addresses is in the set.
- `inPass_draws_le`, `inPass_draws_eq`: by induction, what a pass draws.
- `draws_without_replacement`: the result for a source that has just been set up.
-/
import EdgeTunnel.Proofs.Net.Pools
import EdgeTunnel.Random.Words

namespace EdgeTunnel

namespace Candidates

/-! ## What is to come -/

/-- the addresses that prefixes hold, an address as often as there are prefixes that hold it -/
def supply (ps : List Cidr) : Multiset Ip := (ps.map fun p => p.addresses.val).sum

/-- the addresses that a source still gives in its pass -/
def toCome (c : Candidates) : Multiset Ip := (c.pools.map Pool.toCome).sum

/-- the source draws from these prefixes -/
structure Over (ps : List Cidr) (c : Candidates) : Prop where
  cidrs : c.pools.map (·.cidr) = ps
  sound : ∀ p ∈ c.pools, p.Sound

theorem count_supply (ps : List Cidr) (a : Ip) : (supply ps).count a = ps.countP (·.contains a) := by
  induction ps with
  | nil => rfl
  | cons p ps ih =>
    have hp : p.addresses.val.count a = if p.contains a = true then 1 else 0 := by
      rw [Multiset.count_eq_of_nodup p.addresses.nodup]
      simp only [Finset.mem_val, Cidr.mem_addresses]
    rw [supply, List.map_cons, List.sum_cons, Multiset.count_add, hp, List.countP_cons, Nat.add_comm]
    exact congrArg (· + _) ih

theorem toCome_ofCidrs (ps : List Cidr) : ((ps.map Pool.ofCidr).map Pool.toCome).sum = supply ps := by
  rw [supply, List.map_map]
  congr 1
  exact List.map_congr_left fun p _ => Pool.toCome_ofCidr p

theorem over_ofCidrs (ps : List Cidr) (k : Nat) : Over ps ⟨ps.map Pool.ofCidr, k⟩ where
  cidrs := by rw [List.map_map]; exact List.map_id'' (fun _ => rfl) ps
  sound p hp := by
    obtain ⟨c, -, rfl⟩ := List.mem_map.1 hp
    exact Pool.sound_ofCidr c

/-- a new pass begins with the pools of its prefixes, all full -/
theorem nextPass_eq {ps : List Cidr} {c : Candidates} (h : Over ps c) :
    c.nextPass = ⟨ps.map Pool.ofCidr, c.passes + 1⟩ := by
  simp only [nextPass, ← h.cidrs, List.map_map]
  rfl

/-! ## Open pools -/

theorem mem_openPools (c : Candidates) (i : Nat) :
    i ∈ c.openPools ↔ ∃ h : i < c.pools.length, c.pools[i].isExhausted = false := by
  simp only [openPools, List.mem_filter, List.mem_range]
  constructor
  · rintro ⟨hi, h⟩
    rw [List.getElem?_eq_getElem hi] at h
    exact ⟨hi, by simpa using h⟩
  · rintro ⟨hi, h⟩
    exact ⟨hi, by rw [List.getElem?_eq_getElem hi]; simpa using h⟩

theorem openPools_ofCidrs {ps : List Cidr} (hps : ps ≠ []) (k : Nat) :
    (Candidates.mk (ps.map Pool.ofCidr) k).openPools ≠ [] := by
  have hpos : 0 < (ps.map Pool.ofCidr).length := by rw [List.length_map]; exact List.length_pos_iff.2 hps
  refine List.ne_nil_of_mem ((mem_openPools _ 0).2 ⟨hpos, ?_⟩)
  simp only [List.getElem_map, Pool.isExhausted_ofCidr]

/-- no open pool, nothing to come -/
theorem toCome_eq_zero {ps : List Cidr} {c : Candidates} (h : Over ps c) (hall : ∀ p ∈ ps, p.hostBits ≠ 128)
    (hopen : c.openPools = []) : c.toCome = 0 := by
  refine List.sum_eq_zero fun m hm => ?_
  obtain ⟨p, hp, rfl⟩ := List.mem_map.1 hm
  obtain ⟨i, hi, rfl⟩ := List.getElem_of_mem hp
  refine Pool.toCome_eq_zero _ (h.sound _ hp) ?_ (hall _ (h.cidrs ▸ List.mem_map_of_mem hp))
  by_contra hex
  have : i ∈ c.openPools := (mem_openPools c i).2 ⟨hi, by simpa using hex⟩
  rw [hopen] at this
  exact List.not_mem_nil this

/-! ## One draw -/

theorem map_cidr_modify (pools : List Pool) (i o : Nat) :
    (pools.modify i (·.take o)).map (·.cidr) = pools.map (·.cidr) := by
  induction pools generalizing i with
  | nil => simp
  | cons p pools ih =>
    cases i with
    | zero => simp [Pool.cidr_take]
    | succ i => simp [ih]

theorem sound_modify {pools : List Pool} {i o : Nat} (hs : ∀ p ∈ pools, p.Sound) (hi : i < pools.length)
    (hf : pools[i].Fits o) : ∀ p ∈ pools.modify i (·.take o), p.Sound := by
  intro p hp
  rw [List.modify_eq_take_cons_drop hi] at hp
  rcases List.mem_append.1 hp with hp | hp
  · exact hs p (List.mem_of_mem_take hp)
  · rcases List.mem_cons.1 hp with rfl | hp
    · exact Pool.sound_take _ (hs _ (List.getElem_mem hi)) hf
    · exact hs p (List.mem_of_mem_drop hp)

/-- a draw from one pool takes its address out of what is to come of all -/
theorem toCome_modify {pools : List Pool} {i o : Nat} (hi : i < pools.length) (hf : pools[i].Fits o) :
    (pools.map Pool.toCome).sum =
      pools[i].address o ::ₘ ((pools.modify i (·.take o)).map Pool.toCome).sum := by
  rw [List.modify_eq_take_cons_drop hi]
  conv_lhs => rw [← List.take_append_drop i pools, List.drop_eq_getElem_cons hi]
  simp only [List.map_append, List.map_cons, List.sum_append, List.sum_cons, Pool.toCome_take _ hf,
    ← Multiset.singleton_add]
  abel

variable {σ : Type} [RandomSource σ]

/-- a draw takes its address out of what is to come, and out of nothing else -/
theorem drawFrom_spec {ps : List Cidr} {c : Candidates} (h : Over ps c) (hopen : c.openPools ≠ []) (s : σ) :
    let r := c.drawFrom c.openPools s
    Over ps r.2.1 ∧ r.2.1.passes = c.passes ∧ c.toCome = r.1 ::ₘ r.2.1.toCome := by
  have hk := Random.below_lt .w64 (List.length_pos_iff.2 hopen) s
  simp only [drawFrom]
  generalize Random.below .w64 c.openPools.length s = b at hk ⊢
  obtain ⟨k, s'⟩ := b
  have hget : c.openPools.getD k 0 = c.openPools[k] := by simp [show k < c.openPools.length from hk]
  obtain ⟨hi, hex⟩ := (mem_openPools c c.openPools[k]).1 (List.getElem_mem hk)
  have hf := Pool.pick_fits c.pools[c.openPools[k]] s' hex
  simp only [hget, List.getElem?_eq_getElem hi]
  refine ⟨⟨?_, ?_⟩, trivial, ?_⟩
  · rw [map_cidr_modify]; exact h.cidrs
  · exact sound_modify h.sound hi hf
  · exact toCome_modify hi hf

/-- **One draw.** It stays in the pass while a pool is open, and else begins a new pass with everything to come. -/
theorem next_spec {ps : List Cidr} {c : Candidates} (hps : ps ≠ []) (h : Over ps c) (s : σ) :
    let r := c.next s
    Over ps r.2.1 ∧
      ((r.2.1.passes = c.passes ∧ c.toCome = r.1 ::ₘ r.2.1.toCome) ∨
        (c.openPools = [] ∧ r.2.1.passes = c.passes + 1 ∧ supply ps = r.1 ::ₘ r.2.1.toCome)) := by
  simp only [next]
  split
  · rename_i hopen
    rw [nextPass_eq h]
    obtain ⟨h1, h2, h3⟩ := drawFrom_spec (over_ofCidrs ps (c.passes + 1)) (openPools_ofCidrs hps _) s
    exact ⟨h1, Or.inr ⟨hopen, h2, (toCome_ofCidrs ps).symm.trans h3⟩⟩
  · rename_i hopen
    obtain ⟨h1, h2, h3⟩ := drawFrom_spec h (fun e => hopen e) s
    exact ⟨h1, Or.inl ⟨h2, h3⟩⟩

/-- every draw is an address of one of the prefixes -/
theorem contains_next {ps : List Cidr} {c : Candidates} (hps : ps ≠ []) (h : Over ps c) (s : σ) :
    ∃ p ∈ ps, p.contains (c.next s).1 = true := by
  obtain ⟨-, ⟨-, hc⟩ | ⟨-, -, hc⟩⟩ := next_spec hps h s
  · have hmem : (c.next s).1 ∈ c.toCome := hc ▸ Multiset.mem_cons_self _ _
    rw [toCome, ← Multiset.sum_coe] at hmem
    obtain ⟨m, hm, ha⟩ := Multiset.mem_join.1 hmem
    obtain ⟨p, hp, rfl⟩ := List.mem_map.1 (Multiset.mem_coe.1 hm)
    exact ⟨p.cidr, h.cidrs ▸ List.mem_map_of_mem hp, Pool.contains_of_mem_toCome ha⟩
  · have hmem : (c.next s).1 ∈ supply ps := hc ▸ Multiset.mem_cons_self _ _
    rw [← Multiset.count_pos, count_supply, List.countP_pos_iff] at hmem
    exact hmem

/-! ## What is due -/

/-- what the draws of a pass may still be: nothing of a past pass, what is to come of the present one, all of a later one -/
def due (ps : List Cidr) (c : Candidates) (k : Nat) : Multiset Ip :=
  if k < c.passes then 0 else if k = c.passes then c.toCome else supply ps

/-- a draw adds its address to those of its pass -/
def addTo (k m : Nat) (a : Ip) (rest : Multiset Ip) : Multiset Ip := if m = k then a ::ₘ rest else rest

theorem due_next_le {ps : List Cidr} {c : Candidates} (hps : ps ≠ []) (h : Over ps c) (s : σ) (k : Nat) :
    addTo k (c.next s).2.1.passes (c.next s).1 (due ps (c.next s).2.1 k) ≤ due ps c k := by
  obtain ⟨-, ⟨hm, hc⟩ | ⟨-, hm, hc⟩⟩ := next_spec hps h s
  · simp only [addTo, due, hm]
    split_ifs <;> first | omega | simp [hc]
  · simp only [addTo, due, hm]
    split_ifs <;> first | omega | simp [hc]

theorem due_next_eq {ps : List Cidr} {c : Candidates} (hps : ps ≠ []) (h : Over ps c)
    (hall : ∀ p ∈ ps, p.hostBits ≠ 128) (s : σ) (k : Nat) :
    addTo k (c.next s).2.1.passes (c.next s).1 (due ps (c.next s).2.1 k) = due ps c k := by
  obtain ⟨-, ⟨hm, hc⟩ | ⟨hopen, hm, hc⟩⟩ := next_spec hps h s
  · simp only [addTo, due, hm]
    split_ifs <;> first | omega | simp [hc]
  · have h0 := toCome_eq_zero h hall hopen
    simp only [addTo, due, hm]
    split_ifs <;> first | omega | simp [hc, h0]

/-! ## Runs of draws -/

/-- so many draws, each with the number of passes completed after it -/
def draws : Nat → Candidates → σ → List (Ip × Nat)
  | 0, _, _ => []
  | n + 1, c, s =>
    let r := c.next s
    (r.1, r.2.1.passes) :: draws n r.2.1 r.2.2

/-- the addresses drawn in a pass -/
def inPass (k : Nat) : List (Ip × Nat) → Multiset Ip
  | [] => 0
  | d :: ds => addTo k d.2 d.1 (inPass k ds)

theorem addTo_mono (k m : Nat) (a : Ip) {x y : Multiset Ip} (h : x ≤ y) : addTo k m a x ≤ addTo k m a y := by
  simp only [addTo]
  split_ifs
  · exact (Multiset.cons_le_cons_iff a).2 h
  · exact h

/-- the number of completed passes goes up by at most one from draw to draw -/
theorem draws_chain {ps : List Cidr} (hps : ps ≠ []) (n : Nat) {c : Candidates} (h : Over ps c) (s : σ) :
    List.IsChain (fun m k => k = m ∨ k = m + 1) (c.passes :: (c.draws n s).map Prod.snd) := by
  induction n generalizing c s with
  | zero => exact List.isChain_singleton _
  | succ n ih =>
    obtain ⟨hover, hstep⟩ := next_spec hps h s
    rw [draws, List.map_cons, List.isChain_cons_cons]
    refine ⟨?_, ih hover _⟩
    rcases hstep with ⟨hm, -⟩ | ⟨-, hm, -⟩
    · exact Or.inl hm
    · exact Or.inr hm

/-- **A pass draws at most what is due in it.** -/
theorem inPass_draws_le {ps : List Cidr} (hps : ps ≠ []) (n : Nat) {c : Candidates} (h : Over ps c) (s : σ) (k : Nat) :
    inPass k (c.draws n s) ≤ due ps c k := by
  induction n generalizing c s with
  | zero => exact Multiset.zero_le _
  | succ n ih =>
    exact (addTo_mono k _ _ (ih (next_spec hps h s).1 _)).trans (due_next_le hps h s k)

/-- **A finished pass has drawn all that was due in it.** -/
theorem inPass_draws_eq {ps : List Cidr} (hps : ps ≠ []) (hall : ∀ p ∈ ps, p.hostBits ≠ 128) (n : Nat)
    {c : Candidates} (h : Over ps c) (s : σ) (k : Nat) (hk : ∃ d ∈ c.draws n s, k < d.2) :
    inPass k (c.draws n s) = due ps c k := by
  induction n generalizing c s with
  | zero => obtain ⟨d, hd, -⟩ := hk; exact absurd hd List.not_mem_nil
  | succ n ih =>
    have hover := (next_spec hps h s).1
    have hrest : inPass k ((c.next s).2.1.draws n (c.next s).2.2) = due ps (c.next s).2.1 k := by
      obtain ⟨d, hd, hlt⟩ := hk
      rcases List.mem_cons.1 hd with rfl | hd
      · -- the pass was over already at this draw: nothing is due in it any more
        have h0 : due ps (c.next s).2.1 k = 0 := if_pos hlt
        have hle := inPass_draws_le hps n hover (c.next s).2.2 k
        rw [h0] at hle ⊢
        exact Multiset.le_zero.1 hle
      · exact ih hover _ ⟨d, hd, hlt⟩
    rw [draws, inPass, hrest]
    exact due_next_eq hps h hall s k

/-! ## The result -/

theorem new_eq {prefixes : List Cidr} {families : Families} (h : ∃ p ∈ prefixes, families.allows p = true) :
    prefixes.filter families.allows ≠ [] ∧
      new prefixes families = .ok ⟨(prefixes.filter families.allows).map Pool.ofCidr, 0⟩ := by
  obtain ⟨p, hp, ha⟩ := h
  have hne : prefixes.filter families.allows ≠ [] := List.ne_nil_of_mem (List.mem_filter.2 ⟨hp, ha⟩)
  refine ⟨hne, ?_⟩
  rw [new, if_neg (by simpa using hne)]

/-- a source that is set up draws from the allowed prefixes, of which there are some -/
theorem over_of_new {prefixes : List Cidr} {families : Families} {c : Candidates} (h : new prefixes families = .ok c) :
    prefixes.filter families.allows ≠ [] ∧ Over (prefixes.filter families.allows) c := by
  simp only [new] at h
  split_ifs at h with hempty
  cases h
  exact ⟨by simpa using hempty, over_ofCidrs _ 0⟩

/-- a source that has just been set up has everything to come, in every pass -/
theorem due_new (ps : List Cidr) (k : Nat) : due ps ⟨ps.map Pool.ofCidr, 0⟩ k = supply ps := by
  simp only [due, Nat.not_lt_zero, if_false, toCome, toCome_ofCidrs, ite_self]

/-- of prefixes without common addresses, at most one holds an address -/
theorem countP_le_one {ps : List Cidr} (h : ps.Pairwise fun p q => ∀ a, ¬(p.contains a = true ∧ q.contains a = true))
    (a : Ip) : ps.countP (·.contains a) ≤ 1 := by
  induction h with
  | nil => exact Nat.zero_le _
  | @cons p ps hp _ ih =>
    rw [List.countP_cons]
    split_ifs with hc
    · have h0 : ps.countP (·.contains a) = 0 := List.countP_eq_zero.2 fun q hq hqa => hp q hq a ⟨hc, hqa⟩
      omega
    · exact ih

/-- what the draws from allowed prefixes are like; `inPass k` collects those of one pass -/
structure WithoutReplacement (allowed : List Cidr) (ds : List (Ip × Nat)) : Prop where
  /-- from draw to draw, and from the start to the first one, the number of completed passes stays or goes up by one -/
  steps : List.IsChain (fun m k => k = m ∨ k = m + 1) (0 :: ds.map Prod.snd)
  /-- a pass draws nothing but what the prefixes hold together -/
  within : ∀ k, inPass k ds ≤ supply allowed
  /-- so an address at most as often as there are prefixes that hold it -/
  atMost : ∀ k a, (inPass k ds).count a ≤ allowed.countP (·.contains a)
  /-- and only once when no two prefixes share an address -/
  once : (allowed.Pairwise fun p q => ∀ a, ¬(p.contains a = true ∧ q.contains a = true)) → ∀ k, (inPass k ds).Nodup
  /-- a pass that is over has drawn exactly that, unless `::/0` is among the prefixes -/
  whole : (∀ p ∈ allowed, ¬(p.network.family = .v6 ∧ p.len = 0)) →
    ∀ k, (∃ d ∈ ds, k < d.2) → inPass k ds = supply allowed

/-- only the prefix of all IPv6 addresses has more addresses than its size says -/
theorem hostBits_ne (p : Cidr) (h : ¬(p.network.family = .v6 ∧ p.len = 0)) : p.hostBits ≠ 128 := by
  intro hb
  have := p.len_le
  simp only [Cidr.hostBits] at hb
  cases hf : p.network.family <;> rw [hf] at hb this <;> simp only [Family.width] at hb this
  · omega
  · exact h ⟨hf, by omega⟩

/-- **Sampling without replacement.** A source with an allowed prefix is set up, and its draws are without replacement in
each pass, whatever the random source yields and however many they are. -/
theorem draws_without_replacement (prefixes : List Cidr) (families : Families)
    (h : ∃ p ∈ prefixes, families.allows p = true) :
    ∃ c, new prefixes families = .ok c ∧
      ∀ (s : σ) (n : Nat), WithoutReplacement (prefixes.filter families.allows) (c.draws n s) := by
  obtain ⟨hne, hnew⟩ := new_eq h
  refine ⟨_, hnew, fun s n => ?_⟩
  set allowed := prefixes.filter families.allows
  have hover := over_ofCidrs allowed 0
  set ds := (Candidates.mk (allowed.map Pool.ofCidr) 0).draws n s
  have hle : ∀ k, inPass k ds ≤ supply allowed := fun k =>
    (inPass_draws_le hne n hover s k).trans (due_new allowed k).le
  have hcount : ∀ k a, (inPass k ds).count a ≤ allowed.countP (·.contains a) := fun k a =>
    (Multiset.le_iff_count.1 (hle k) a).trans (count_supply allowed a).le
  refine ⟨draws_chain hne n hover s, hle, hcount, fun hdisj k => ?_, fun hall k hk => ?_⟩
  · exact Multiset.nodup_iff_count_le_one.2 fun a => (hcount k a).trans (countP_le_one hdisj a)
  · have hbits : ∀ p ∈ allowed, p.hostBits ≠ 128 := fun p hp => hostBits_ne p (hall p hp)
    exact (inPass_draws_eq hne hbits n hover s k hk).trans (due_new allowed k)

/-- a prefix of four addresses, half of it again, and all IPv6 addresses -/
def overlapping : List Cidr :=
  [.around (.ofNat .v4 0x0a000000) 30 (by decide), .around (.ofNat .v4 0x0a000002) 31 (by decide),
    .around (.ofNat .v6 0) 0 (by decide)]

/-- drawing IPv4 addresses from overlapping prefixes, with given random words -/
theorem draws_without_replacement_overlapping :
    (∃ p ∈ overlapping, (Families.mk true false).allows p = true) ∧
      ∃ c, new overlapping ⟨true, false⟩ = .ok c ∧ ∀ (s : Random.Words) (n : Nat),
        WithoutReplacement (overlapping.filter (Families.mk true false).allows) (c.draws n s) := by
  have h : ∃ p ∈ overlapping, (Families.mk true false).allows p = true := by decide
  exact ⟨h, draws_without_replacement overlapping ⟨true, false⟩ h⟩

end Candidates

end EdgeTunnel
