/-
What a scan may return, given what its cache holds.

`Selection` is what the returned endpoints satisfy, given what was reported and which entries the cache held when it was looked
at. `reports` lists what the probes of a run of the machine reported, as it was reported.

- `Answer.noLater_total`, `Answer.noLater_trans`: the ranking is an order, so `Cache.ranked` sorts the entries by round trip.
- `Inv`: the candidates come from the allowed prefixes, the probes in flight have eligible targets and different numbers,
  and the cache counts each address once, within the limit and as it was reported. `inv_start`, `inv_finish`.
- `selection_of_ranking`: the first entries of any ranking by round trip are such a selection; equal round trips may come
  in any order.
- `selection_of_found`: so is what a scan returns.
-/
import EdgeTunnel.Proofs.Net.Passes
import EdgeTunnel.Scan.Machine

namespace EdgeTunnel.Scan

/-! ## Ranking -/

namespace Answer

theorem noLater_total (xs ys : List Nat) : (noLater xs ys || noLater ys xs) = true := by
  induction xs generalizing ys with
  | nil => simp [noLater]
  | cons x xs ih =>
    cases ys with
    | nil => simp [noLater]
    | cons y ys =>
      have h := ih ys
      simp only [noLater, Bool.or_eq_true, Bool.and_eq_true, decide_eq_true_eq, beq_iff_eq] at h ⊢
      rcases Nat.lt_trichotomy x y with hlt | rfl | hlt
      · exact Or.inl (Or.inl hlt)
      · exact h.imp (fun h => Or.inr ⟨rfl, h⟩) fun h => Or.inr ⟨rfl, h⟩
      · exact Or.inr (Or.inl hlt)

theorem noLater_trans (xs ys zs : List Nat) (h1 : noLater xs ys = true) (h2 : noLater ys zs = true) :
    noLater xs zs = true := by
  induction xs generalizing ys zs with
  | nil => simp [noLater]
  | cons x xs ih =>
    cases ys with
    | nil => simp [noLater] at h1
    | cons y ys =>
      cases zs with
      | nil => simp [noLater] at h2
      | cons z zs =>
        have h := ih ys zs
        simp only [noLater, Bool.or_eq_true, Bool.and_eq_true, decide_eq_true_eq, beq_iff_eq] at h1 h2 ⊢
        rcases h1 with h1 | ⟨rfl, h1⟩
        · left; omega
        · rcases h2 with h2 | ⟨rfl, h2⟩
          · exact Or.inl h2
          · exact Or.inr ⟨rfl, h h1 h2⟩

/-- the round trip decides first -/
theorem rtt_le_of_le {a b : Answer} (h : a.le b = true) : a.rtt ≤ b.rtt := by
  simp only [le, rank, noLater, Bool.or_eq_true, Bool.and_eq_true, decide_eq_true_eq, beq_iff_eq] at h
  change a.rtt.nanos ≤ b.rtt.nanos
  omega

end Answer

namespace Cache

theorem ranked_perm (c : Cache) : c.ranked.Perm c.entries := List.mergeSort_perm _ _

theorem ranked_sorted (c : Cache) : c.ranked.Pairwise fun a b => a.rtt ≤ b.rtt := by
  have h : c.ranked.Pairwise fun a b => a.le b = true := List.pairwise_mergeSort
    (fun a b d => Answer.noLater_trans a.rank b.rank d.rank) (fun a b => Answer.noLater_total a.rank b.rank) c.entries
  exact h.imp fun hab => Answer.rtt_le_of_le hab

end Cache

/-! ## What is returned -/

/-- may the scan probe this target? -/
structure Eligible (c : ScanConfig) (target : SocketAddress) : Prop where
  ip : ∃ p ∈ c.prefixes, c.families.allows p = true ∧ p.contains target.ip = true
  port : target.port ∈ c.ports

/-- what a scan returns, when `reported` is what its probes reported and `entries` are those in the cache -/
structure Selection (c : ScanConfig) (reported : Answer → Prop) (entries chosen : List Answer) : Prop where
  length : chosen.length = c.wanted
  counted : ∀ a ∈ chosen, a ∈ entries
  sorted : chosen.Pairwise fun a b => a.rtt ≤ b.rtt
  distinct : chosen.Pairwise fun a b => a.target.ip ≠ b.target.ip
  inTime : ∀ a ∈ chosen, a.rtt ≤ c.maxRtt
  reported : ∀ a ∈ chosen, reported a
  eligible : ∀ a ∈ chosen, Eligible c a.target
  /-- no entry that is left out is faster -/
  fastest : ∀ a ∈ chosen, ∀ b ∈ entries, b ∉ chosen → a.rtt ≤ b.rtt

theorem Selection.mono {c : ScanConfig} {reported reported' : Answer → Prop} (hsub : ∀ a, reported a → reported' a)
    {entries chosen : List Answer} (h : Selection c reported entries chosen) : Selection c reported' entries chosen :=
  ⟨h.length, h.counted, h.sorted, h.distinct, h.inTime, fun a ha => hsub a (h.reported a ha), h.eligible, h.fastest⟩

/-! ## Counting answers -/

/-- the entries of a cache: each was reported by a probe of an eligible target, and each address counts once -/
structure Cache.Inv (c : ScanConfig) (reported : Answer → Prop) (cache : Cache) : Prop where
  reported : ∀ a ∈ cache.entries, reported a
  eligible : ∀ a ∈ cache.entries, Eligible c a.target
  inTime : ∀ a ∈ cache.entries, a.rtt ≤ c.maxRtt
  distinct : cache.entries.Pairwise fun a b => a.target.ip ≠ b.target.ip

theorem Cache.Inv.mono {c : ScanConfig} {reported reported' : Answer → Prop} (hsub : ∀ a, reported a → reported' a)
    {cache : Cache} (h : Cache.Inv c reported cache) : Cache.Inv c reported' cache :=
  ⟨fun a ha => hsub a (h.reported a ha), h.eligible, h.inTime, h.distinct⟩

theorem Cache.inv_empty (c : ScanConfig) (reported : Answer → Prop) : Cache.Inv c reported .empty where
  reported _ h := absurd h List.not_mem_nil
  eligible _ h := absurd h List.not_mem_nil
  inTime _ h := absurd h List.not_mem_nil
  distinct := List.Pairwise.nil

/-- what holds of the entries and of an answer that counts holds of the entries after its record -/
theorem Cache.forall_record {P : Answer → Prop} {cache : Cache} {limit : Span} {a : Answer}
    (hentries : ∀ b ∈ cache.entries, P b) (ha : cache.accepts limit a = true → P a) :
    ∀ b ∈ (cache.record limit a).2.entries, P b := by
  intro b hb
  simp only [record] at hb
  split_ifs at hb with hk
  · rcases List.mem_append.1 hb with hb | hb
    · exact hentries b hb
    · rw [List.mem_singleton.1 hb]
      exact ha hk
  · exact hentries b hb

/-- an answer that counts is in time and has a new address -/
theorem Cache.accepts_iff (cache : Cache) (limit : Span) (a : Answer) :
    cache.accepts limit a = true ↔ a.rtt ≤ limit ∧ ∀ b ∈ cache.entries, b.target.ip ≠ a.target.ip := by
  simp only [accepts, has, Bool.and_eq_true, decide_eq_true_eq, Bool.not_eq_true', List.any_eq_false, beq_iff_eq, ne_eq]

theorem Cache.inv_record {c : ScanConfig} {reported : Answer → Prop} {cache : Cache} (hi : Cache.Inv c reported cache)
    {a : Answer} (hr : reported a) (he : Eligible c a.target) : Cache.Inv c reported (cache.record c.maxRtt a).2 where
  reported := forall_record hi.reported fun _ => hr
  eligible := forall_record hi.eligible fun _ => he
  inTime := forall_record hi.inTime fun hk => ((accepts_iff cache c.maxRtt a).1 hk).1
  distinct := by
    simp only [record]
    split_ifs with hk
    · rw [List.pairwise_append]
      refine ⟨hi.distinct, List.pairwise_singleton _ _, fun b hb d hd => ?_⟩
      rw [List.mem_singleton.1 hd]
      exact ((accepts_iff cache c.maxRtt a).1 hk).2 b hb
    · exact hi.distinct

/-- **The first of a ranking.** Equal round trips may come in any order. -/
theorem selection_of_ranking {c : ScanConfig} {reported : Answer → Prop} {cache : Cache}
    (hi : Cache.Inv c reported cache) (ranking : List Answer) (hperm : ranking.Perm cache.entries)
    (hsorted : ranking.Pairwise fun a b => a.rtt ≤ b.rtt) (henough : c.wanted ≤ cache.size) :
    Selection c reported cache.entries (ranking.take c.wanted) := by
  have hmem : ∀ a ∈ ranking.take c.wanted, a ∈ cache.entries := fun a ha => hperm.subset (List.mem_of_mem_take ha)
  have hdistinct : ranking.Pairwise fun a b => a.target.ip ≠ b.target.ip :=
    hi.distinct.perm hperm.symm fun h => h.symm
  refine ⟨?_, hmem, hsorted.sublist (List.take_sublist _ _), hdistinct.sublist (List.take_sublist _ _),
    fun a ha => hi.inTime a (hmem a ha), fun a ha => hi.reported a (hmem a ha), fun a ha => hi.eligible a (hmem a ha), ?_⟩
  · rw [List.length_take, hperm.length_eq]
    exact Nat.min_eq_left henough
  · intro a ha b hb hleft
    have hdrop : b ∈ ranking.drop c.wanted := by
      have := hperm.symm.subset hb
      rw [← List.take_append_drop c.wanted ranking, List.mem_append] at this
      exact this.resolve_left hleft
    rw [← List.take_append_drop c.wanted ranking, List.pairwise_append] at hsorted
    exact hsorted.2.2 a ha b hdrop

namespace State

variable {σ : Type}

/-! ## Reports -/

/-- what is reported when a probe in flight ends, if it succeeded -/
def report? (s : State σ) : Event → Option Answer
  | .finish id (some rtt) => (s.flying.find? (·.id == id)).map fun p => ⟨p.target, rtt⟩
  | _ => none

/-- what the probes report in a run, in the order they end -/
def reports [RandomSource σ] (c : ScanConfig) (s : State σ) : List Event → List Answer
  | [] => []
  | e :: es => (s.report? e).toList ++ reports c (s.step c e) es

/-! ## The invariant -/

structure Inv (c : ScanConfig) (reported : Answer → Prop) (s : State σ) : Prop where
  source : Candidates.Over (c.prefixes.filter c.families.allows) s.source
  flying : ∀ p ∈ s.flying, Eligible c p.target
  ids : (s.flying.map (·.id)).Pairwise (· < ·)
  below : ∀ p ∈ s.flying, p.id < s.started
  cache : Cache.Inv c reported s.cache

theorem inv_new {c : ScanConfig} {source : Candidates} (hs : Candidates.Over (c.prefixes.filter c.families.allows) source)
    (reported : Answer → Prop) (rng : σ) : Inv c reported (new source rng) where
  source := hs
  flying _ h := absurd h List.not_mem_nil
  ids := List.Pairwise.nil
  below _ h := absurd h List.not_mem_nil
  cache := Cache.inv_empty c reported

/-- the end of a probe keeps the invariant if what it reports counts as reported -/
theorem inv_finish {c : ScanConfig} {reported : Answer → Prop} {s : State σ} (hi : Inv c reported s) {id : Nat}
    {rtt : Option Span} (hr : ∀ a, s.report? (.finish id rtt) = some a → reported a) :
    Inv c reported (s.finish c id rtt) := by
  unfold finish
  split
  · exact hi
  · rename_i p hp
    have hsub : (s.flying.filter (·.id != id)).Sublist s.flying := List.filter_sublist
    refine ⟨hi.source, fun q hq => hi.flying q (hsub.subset hq), hi.ids.sublist (hsub.map _),
      fun q hq => hi.below q (hsub.subset hq), ?_⟩
    cases rtt with
    | none => exact hi.cache
    | some rtt =>
      refine Cache.inv_record hi.cache (hr _ ?_) (hi.flying p (List.mem_of_find?_eq_some hp))
      simp only [report?, hp, Option.map_some]

/-- **What is found is a selection.** -/
theorem selection_of_found {c : ScanConfig} {reported : Answer → Prop} {s : State σ} (hi : Inv c reported s)
    {chosen : List Answer} (h : s.found? c = some chosen) : Selection c reported s.cache.entries chosen := by
  unfold found? at h
  split_ifs at h with henough
  cases h
  exact selection_of_ranking hi.cache _ s.cache.ranked_perm s.cache.ranked_sorted henough

/-! ## Steps and runs -/

variable [RandomSource σ]

/-- what is drawn for the next probe -/
theorem draw_spec {c : ScanConfig} (hports : c.ports ≠ []) (hps : c.prefixes.filter c.families.allows ≠ [])
    {s : State σ} (hs : Candidates.Over (c.prefixes.filter c.families.allows) s.source) :
    (s.draw c).1.id = s.started ∧ Eligible c (s.draw c).1.target ∧
      Candidates.Over (c.prefixes.filter c.families.allows) (s.draw c).2.1 := by
  refine ⟨rfl, ⟨?_, ?_⟩, (Candidates.next_spec hps hs s.rng).1⟩
  · obtain ⟨p, hp, hc⟩ := Candidates.contains_next hps hs s.rng
    obtain ⟨hp, ha⟩ := List.mem_filter.1 hp
    exact ⟨p, hp, ha, hc⟩
  · have hi := Random.below_lt .w64 (List.length_pos_iff.2 hports) (s.source.next s.rng).2.2
    simp only [draw, SocketAddress.of]
    rw [← List.getElem_eq_getD (h := hi)]
    exact List.getElem_mem hi

/-- a free slot is taken by the probe that is drawn -/
theorem start_eq {c : ScanConfig} {s : State σ} (h : s.hasSlot c = true) :
    s.start c = { s with
      source := (s.draw c).2.1
      rng := (s.draw c).2.2
      flying := s.flying ++ [(s.draw c).1]
      started := s.started + 1 } := by
  simp only [start, h, if_true]

theorem inv_start {c : ScanConfig} (hports : c.ports ≠ []) (hps : c.prefixes.filter c.families.allows ≠ [])
    {reported : Answer → Prop} {s : State σ} (hi : Inv c reported s) : Inv c reported (s.start c) := by
  by_cases hslot : s.hasSlot c = true
  · obtain ⟨hid, helig, hover⟩ := draw_spec hports hps hi.source
    rw [start_eq hslot]
    refine ⟨hover, fun q hq => ?_, ?_, fun q hq => ?_, hi.cache⟩
    · rcases List.mem_append.1 hq with hq | hq
      · exact hi.flying q hq
      · rw [List.mem_singleton.1 hq]; exact helig
    · rw [List.map_append, List.pairwise_append]
      refine ⟨hi.ids, List.pairwise_singleton _ _, fun x hx y hy => ?_⟩
      obtain ⟨q, hq, rfl⟩ := List.mem_map.1 hx
      have hnext : y = s.started := (List.mem_singleton.1 hy).trans hid
      rw [hnext]
      exact hi.below q hq
    · rcases List.mem_append.1 hq with hq | hq
      · exact (hi.below q hq).trans (Nat.lt_succ_self _)
      · rw [List.mem_singleton.1 hq, hid]; exact Nat.lt_succ_self _
  · simp only [start, hslot]
    exact hi

end State

end EdgeTunnel.Scan
