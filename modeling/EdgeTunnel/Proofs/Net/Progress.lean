/-
Every draw gets on.

The numbers of a random source are among those that a draw admits, and with them the draw is `Candidates.next`.

- `next_eq_follow`: a draw that ends gives what `next` gives.
- `exists_run_next`: what `next` gives is the end of a draw, so `next` leaves the reachable sources among themselves.
- `draw_gets_on`: the result, for every source that draws lead to.
-/
import EdgeTunnel.Proofs.Net.Rounds

namespace EdgeTunnel

variable {σ : Type} [RandomSource σ]

/-! ## Pools -/

namespace Pool

theorem number_lt (p : Pool) (hopen : p.isExhausted = false) (s : σ) : (p.number s).1 < p.choices := by
  rcases p with ⟨c, left | gone⟩
  · simp only [isExhausted, Array.isEmpty_eq_false_iff] at hopen
    exact Random.below_lt .w64 (Array.size_pos_iff.2 hopen) s
  · rw [choices_sparse]
    exact anyOffset_lt c s

/-- a pick that draws at most so many numbers -/
def pickWithin (p : Pool) (k : Nat) (s : σ) : Nat × σ :=
  match p.remaining with
  | .dense _ => p.number s
  | .sparse gone => freshOffset p.cidr gone k s

theorem pick_eq (p : Pool) (s : σ) : p.pick s = p.pickWithin (RandomSource.patience σ) s := by
  rcases p with ⟨c, left | gone⟩ <;> rfl

theorem pickWithin_succ (p : Pool) (k : Nat) (s : σ) :
    p.pickWithin (k + 1) s = if p.refuses (p.number s).1 then p.pickWithin k (p.number s).2 else p.number s := by
  rcases p with ⟨c, left | gone⟩ <;> rfl

end Pool

/-! ## Open pools -/

namespace Candidates

variable {c : Candidates}

theorem next_of_open (hopen : c.openPools ≠ []) (s : σ) : c.next s = c.drawFrom c.openPools s := by
  rw [next]
  split
  · rename_i hnone
    exact absurd hnone hopen
  · rfl

theorem next_of_not_open (hopen : c.openPools = []) (s : σ) : c.next s = c.nextPass.drawFrom c.nextPass.openPools s := by
  rw [next, hopen]

end Candidates

namespace Draw

variable {d : Draw} {c : Candidates} {p : Pool} {i : Nat}

/-! ## The numbers of a random source -/

theorem follow_succ (n : Nat) (d : Draw) (s : σ) :
    follow (n + 1) d s = follow n (d.step (d.number s).1) (d.number s).2 := rfl

/-- a random source yields numbers of the range that is asked for -/
theorem OnTrack.number_lt (h : d.OnTrack) (s : σ) : ∀ n ∈ d.range?, (d.number s).1 < n := by
  intro n hn
  have hpos := h.range_pos n hn
  cases hstage : d.stage with
  | choosing places =>
    rw [range?_choosing hstage, Option.mem_some_iff] at hn
    subst hn
    simp only [number, hstage]
    exact Random.below_lt .w64 hpos s
  | drawing i =>
    obtain ⟨p, hp, hopen⟩ := h.open_of_drawing hstage
    rw [range?_drawing hstage hp, Option.mem_some_iff] at hn
    subst hn
    simp only [number, hstage, hp]
    exact p.number_lt hopen s
  | round | asking _ | drawn _ | failed => simp [range?, hstage] at hn

/-- so the steps with its numbers are steps with numbers that it can yield -/
theorem exists_run_eq_follow (h : d.OnTrack) (n : Nat) (s : σ) :
    ∃ vs, d.Admits vs ∧ (follow n d s).1 = d.run vs := by
  induction n generalizing d s with
  | zero => exact ⟨[], trivial, rfl⟩
  | succ n ih =>
    have hv := h.number_lt s
    obtain ⟨vs, hvs, hrun⟩ := ih (h.step hv) (d.number s).2
    exact ⟨(d.number s).1 :: vs, ⟨hv, hvs⟩, hrun⟩

theorem follow_drawn {a : Ip} (hstage : d.stage = .drawn a) (n : Nat) (s : σ) : follow n d s = (d, s) := by
  induction n with
  | zero => rfl
  | succ n ih => simpa [follow_succ, number, hstage, step_drawn hstage] using ih

/-- a draw that ends with an offset of an open pool ends with the pick of that pool -/
theorem follow_drawing (hstage : d.stage = .drawing i) (hp : d.source.pools[i]? = some p) (hopen : p.isExhausted = false)
    {n k : Nat} (hn : n ≤ k) {s : σ} {a : Ip} (hend : (follow n d s).1.stage = .drawn a) :
    follow n d s = (d.finish i (p.pickWithin k s).1 p, (p.pickWithin k s).2) := by
  have hnumber (s : σ) : d.number s = p.number s := by simp only [number, hstage, hp]
  -- each step that does not end the draw uses up one of the numbers that the pick may draw
  induction n generalizing k s with
  | zero =>
    have hstill : d.stage = .drawn a := hend
    rw [hstage] at hstill
    cases hstill
  | succ n ih =>
    obtain ⟨k, rfl⟩ : ∃ j, k = j + 1 := ⟨k - 1, by omega⟩
    rw [follow_succ, hnumber, step_drawing hstage hp (p.number_lt hopen s)] at hend ⊢
    rw [Pool.pickWithin_succ]
    split_ifs at hend ⊢
    · exact ih (by omega) hend
    · exact follow_drawn rfl n _

/-- the draw at an offset of the pool that was chosen in its round -/
def atOffset (d : Draw) (i : Nat) : Draw := { d with stage := .drawing i, rounds := d.rounds + 1 }

/-- three steps lead from a round with open pools to an offset of the one that is chosen, and none of them ends the draw -/
theorem follow_round (hstage : d.stage = .round) (hopen : d.source.openPools ≠ []) (s : σ) :
    let chosen := Random.below .w64 d.source.openPools.length s
    ∃ i p, d.source.openPools.getD chosen.1 0 = i ∧ d.source.pools[i]? = some p ∧ p.isExhausted = false ∧
      (∀ n < 3, ∀ a, (follow n d s).1.stage ≠ .drawn a) ∧
      ∀ n, follow (n + 3) d s = follow n (d.atOffset i) chosen.2 := by
  intro chosen
  have hlt : chosen.1 < d.source.openPools.length := Random.below_lt .w64 (List.length_pos_iff.2 hopen) s
  have hplace : d.source.openPools[chosen.1]? = some d.source.openPools[chosen.1] := List.getElem?_eq_getElem hlt
  obtain ⟨p, hp, hpopen⟩ := Candidates.exists_open (List.getElem_mem hlt)
  have h₁ (n : Nat) : follow (n + 1) d s =
      follow n { d with stage := .choosing d.source.openPools, rounds := d.rounds + 1 } s := by
    rw [follow_succ, step_round hstage hopen]
    simp only [number, hstage]
  have h₂ (n : Nat) : follow (n + 2) d s =
      follow n { d with stage := .asking d.source.openPools[chosen.1], rounds := d.rounds + 1 } chosen.2 := by
    have hstep :=
      step_choosing (d := { d with stage := .choosing d.source.openPools, rounds := d.rounds + 1 }) rfl hplace
    rw [h₁, follow_succ]
    exact congrArg (follow n · chosen.2) hstep
  refine ⟨_, p, ?_, hp, hpopen, fun n hn a => ?_, fun n => ?_⟩
  · rw [List.getD_eq_getElem?_getD, hplace, Option.getD_some]
  · match n, hn with
    | 0, _ => simp [follow, hstage]
    | 1, _ =>
      rw [show follow 1 d s = _ from h₁ 0]
      simp [follow]
    | 2, _ =>
      rw [show follow 2 d s = _ from h₂ 0]
      simp [follow]
  · have hstep := step_asking (d := { d with stage := .asking _, rounds := d.rounds + 1 }) rfl hp hpopen 0
    rw [h₂, follow_succ]
    exact congrArg (follow n · chosen.2) hstep

/-- a draw that ends in a round with open pools is a draw from these -/
theorem drawFrom_eq_follow (hstage : d.stage = .round) (hopen : d.source.openPools ≠ []) {n : Nat}
    (hn : n ≤ RandomSource.patience σ) {s : σ} {a : Ip} (hend : (follow n d s).1.stage = .drawn a) :
    d.source.drawFrom d.source.openPools s = (a, (follow n d s).1.source, (follow n d s).2) := by
  obtain ⟨i, p, hi, hp, hpopen, hearly, hfollow⟩ := follow_round hstage hopen s
  obtain ⟨m, rfl⟩ : ∃ m, n = m + 3 := by
    have : ¬ n < 3 := fun hlt => hearly n hlt a hend
    exact ⟨n - 3, by omega⟩
  rw [hfollow] at hend ⊢
  have hpick := follow_drawing (d := d.atOffset i) rfl hp hpopen (show m ≤ RandomSource.patience σ by omega) hend
  rw [hpick] at hend ⊢
  obtain rfl := DrawStage.drawn.inj hend
  simp only [Candidates.drawFrom, hi, hp, Pool.pick_eq]
  rfl

/-- **With the numbers of a random source, a draw that ends is `Candidates.next`.** -/
theorem next_eq_follow {n : Nat} (hn : n ≤ RandomSource.patience σ) (hpools : c.pools ≠ []) {s : σ} {a : Ip}
    (hend : (follow n (new c) s).1.stage = .drawn a) :
    c.next s = (a, (follow n (new c) s).1.source, (follow n (new c) s).2) := by
  by_cases hopen : c.openPools = []
  · cases n with
    | zero => cases hend
    | succ n =>
      rw [follow_succ, step_round_full rfl hopen] at hend ⊢
      rw [Candidates.next_of_not_open hopen]
      exact drawFrom_eq_follow rfl (Candidates.openPools_nextPass hpools) (by omega) hend
  · rw [Candidates.next_of_open hopen]
    exact drawFrom_eq_follow rfl hopen hn hend

/-! ## Draws by `Candidates.next` -/

theorem admits_append {vs ws : List Nat} (hvs : d.Admits vs) (hws : (d.run vs).Admits ws) : d.Admits (vs ++ ws) := by
  induction vs generalizing d with
  | nil => exact hws
  | cons v vs ih => exact ⟨hvs.1, ih hvs.2 hws⟩

/-- a draw from open pools is the end of a run -/
theorem exists_run_drawFrom (h : d.OnTrack) (hstage : d.stage = .round) (hopen : d.source.openPools ≠ []) (s : σ) :
    ∃ vs, d.Admits vs ∧ (d.run vs).stage = .drawn (d.source.drawFrom d.source.openPools s).1 ∧
      (d.run vs).source = (d.source.drawFrom d.source.openPools s).2.1 := by
  obtain ⟨i, p, hi, hp, hpopen, -, hfollow⟩ := follow_round hstage hopen s
  obtain ⟨vs, hvs, hrun⟩ := exists_run_eq_follow h 3 s
  have hat : d.run vs = d.atOffset i := by rw [← hrun, hfollow 0]; rfl
  set s' := (Random.below .w64 d.source.openPools.length s).2 with hs'
  obtain ⟨hlt, hfresh⟩ := (p.fits_iff _).1 (p.pick_fits s' hpopen)
  have hend : (d.atOffset i).run [(p.pick s').1] = (d.atOffset i).finish i (p.pick s').1 p := by
    rw [run_cons, step_drawing (d := d.atOffset i) rfl hp hlt, hfresh]
    rfl
  refine ⟨vs ++ [(p.pick s').1], admits_append hvs ⟨?_, trivial⟩, ?_⟩
  · rw [hat]
    simpa [atOffset, range?, hp] using hlt
  · rw [run_append, hat, hend]
    simp only [Candidates.drawFrom, hi, hp, ← hs']
    exact ⟨rfl, rfl⟩

/-- **Every `Candidates.next` is the end of a run.** -/
theorem exists_run_next (hpools : c.pools ≠ []) (s : σ) :
    ∃ vs, (new c).Admits vs ∧ ((new c).run vs).stage = .drawn (c.next s).1 ∧
      ((new c).run vs).source = (c.next s).2.1 := by
  have htrack := onTrack_new hpools
  by_cases hopen : c.openPools = []
  · have hstep := step_round_full (d := new c) rfl hopen 0
    have hnone : ∀ n ∈ (new c).range?, 0 < n := by simp [range?, new]
    obtain ⟨vs, hvs, hrun⟩ := exists_run_drawFrom (htrack.step hnone) (by rw [hstep]; rfl)
      (by rw [hstep]; exact Candidates.openPools_nextPass hpools) s
    refine ⟨0 :: vs, ⟨hnone, hvs⟩, ?_⟩
    rw [Candidates.next_of_not_open hopen, run_cons]
    rw [hstep] at hrun ⊢
    exact hrun
  · rw [Candidates.next_of_open hopen]
    exact exists_run_drawFrom htrack rfl hopen s

theorem Reachable.pools_ne_nil {prefixes : List Cidr} {families : Families} (h : Reachable prefixes families c) :
    c.pools ≠ [] := by
  induction h with
  | new hnew =>
    obtain ⟨hne, hover⟩ := Candidates.over_of_new hnew
    intro hnil
    exact hne (by rw [← hover.cidrs, hnil]; rfl)
  | drawn _ hvs _ ih => exact ((onTrack_new ih).run hvs).pools

/-- the sources that `Candidates.next` turns reachable ones into are reachable -/
theorem Reachable.next {prefixes : List Cidr} {families : Families} (h : Reachable prefixes families c) (s : σ) :
    Reachable prefixes families (c.next s).2.1 := by
  obtain ⟨vs, hvs, hstage, hsource⟩ := exists_run_next h.pools_ne_nil s
  rw [← hsource]
  exact h.drawn hvs hstage

/-! ## The result -/

/-- what is so at every point of a draw -/
structure Advances (d : Draw) : Prop where
  /-- at most two rounds have started -/
  rounds_le : d.rounds ≤ 2
  /-- the pools were filled again at most once -/
  refills_le : d.refills ≤ 1
  /-- and after that some pool is open -/
  refilled : d.stage = .round → d.refills = 1 → d.source.openPools ≠ []
  /-- an open pool does not decline, and some number that it draws from is an offset that is not gone -/
  gives : ∀ p ∈ d.source.pools, p.isExhausted = false → p.declines = false ∧ ∃ o < p.choices, p.refuses o = false
  /-- a pool that is asked draws an offset -/
  asked : ∀ i, d.stage = .asking i → ∀ v, (d.step v).stage = .drawing i
  /-- no number is drawn from an empty range -/
  range_pos : ∀ n ∈ d.range?, 0 < n
  not_failed : d.stage ≠ .failed
  /-- the pool that draws is open; offsets that are gone change nothing, and the first one that is not ends the draw -/
  offset : ∀ i, d.stage = .drawing i → ∃ p, d.source.pools[i]? = some p ∧ p.isExhausted = false ∧
    ∀ gone, (∀ o ∈ gone, o < p.choices ∧ p.refuses o = true) → d.run gone = d ∧
      ∀ o < p.choices, p.refuses o = false → d.run (gone ++ [o]) = d.finish i o p

theorem OnTrack.advances (h : d.OnTrack) : d.Advances where
  rounds_le := by
    have hrounds := h.rounds_le
    have hrefills := h.refills
    omega
  refills_le := h.refills
  refilled hstage hfull := by
    have hat := h.stage
    rw [hstage] at hat
    exact hat.2.resolve_left (by omega)
  gives p _ hopen := ⟨by rw [p.declines_eq, hopen], p.exists_fresh hopen⟩
  asked i hstage v := by
    obtain ⟨p, hp, hopen⟩ := h.open_of_asking hstage
    rw [step_asking hstage hp hopen]
  range_pos := h.range_pos
  not_failed := h.not_failed
  offset i hstage := by
    obtain ⟨p, hp, hopen⟩ := h.open_of_drawing hstage
    exact ⟨p, hp, hopen, fun gone hgone =>
      ⟨run_refused hstage hp hgone, fun o ho hfresh => run_drawing hstage hp hgone ho hfresh⟩⟩

/-- what the draws from a source are like -/
structure GetsOn (c : Candidates) : Prop where
  /-- whatever numbers the random source yields, every point of a draw is as it should be -/
  advances : ∀ vs, (new c).Admits vs → ((new c).run vs).Advances
  /-- after four steps an offset is drawn, unless the draw has ended -/
  soon : ∀ vs, (new c).Admits vs → 4 ≤ vs.length →
    (∃ i, ((new c).run vs).stage = .drawing i) ∨ ∃ a, ((new c).run vs).stage = .drawn a
  /-- the numbers of a random source are among those -/
  followed : ∀ {σ : Type} [RandomSource σ] (s : σ) (n : Nat), ∃ vs, (new c).Admits vs ∧
    (follow n (new c) s).1 = (new c).run vs
  /-- with them, a draw that ends before the patience of the source does gives what `next` gives -/
  follow_eq : ∀ {σ : Type} [RandomSource σ] (s : σ) (n : Nat) (a : Ip), n ≤ RandomSource.patience σ →
    (follow n (new c) s).1.stage = .drawn a → c.next s = (a, (follow n (new c) s).1.source, (follow n (new c) s).2)
  /-- and whatever `next` gives is the end of a draw -/
  next_eq : ∀ {σ : Type} [RandomSource σ] (s : σ), ∃ vs, (new c).Admits vs ∧
    ((new c).run vs).stage = .drawn (c.next s).1 ∧ ((new c).run vs).source = (c.next s).2.1

/-- **Every draw gets on**, from every source that a prefix list gives and from all that draws turn it into. -/
theorem draw_gets_on {prefixes : List Cidr} {families : Families} (h : Reachable prefixes families c) : GetsOn c where
  advances vs hvs := ((onTrack_new h.pools_ne_nil).run hvs).advances
  soon vs hvs hlength := by
    have htrack := onTrack_new h.pools_ne_nil
    have hfirst := (new c).stepsLeft_le
    have hleft := stepsLeft_run htrack hvs
    exact (htrack.run hvs).drawing_or_drawn (by omega)
  followed s n := exists_run_eq_follow (onTrack_new h.pools_ne_nil) n s
  follow_eq s n a hn hend := next_eq_follow hn h.pools_ne_nil hend
  next_eq s := exists_run_next h.pools_ne_nil s

/-- the prefix of a single address -/
def single : Cidr := .around (.ofNat .v4 0x0a000001) 32 (Nat.le_refl 32)

/-- the prefix of all IPv6 addresses -/
def everyV6 : Cidr := .around (.ofNat .v6 1) 0 (Nat.zero_le _)

/-- the pool of a single address, with nothing left, is filled again in the first of two rounds -/
example :
    let d := (new ⟨[⟨single, .dense #[]⟩], 0⟩).run [0, 0, 0, 0, 0]
    d.stage = .drawn (.ofNat .v4 0x0a000001) ∧ d.rounds = 2 ∧ d.refills = 1 := by decide +kernel

/-- nothing is left of the single address, and of the others the offsets of this set are gone -/
def singleDrawn (gone : Std.HashSet Nat) : Candidates := ⟨[⟨single, .dense #[]⟩, ⟨everyV6, .sparse gone⟩], 0⟩

theorem reachable_singleDrawn : Reachable [single, everyV6] ⟨true, true⟩ (singleDrawn (Std.HashSet.insert ∅ 7)) := by
  have hnew : Reachable [single, everyV6] ⟨true, true⟩ ⟨[single, everyV6].map Pool.ofCidr, 0⟩ :=
    .new (Candidates.new_eq (by decide)).2
  have hfirst : Reachable [single, everyV6] ⟨true, true⟩ (singleDrawn ∅) :=
    hnew.drawn (show (new _).Admits [0, 0, 0, 0] by decide +kernel) (a := .ofNat .v4 0x0a000001) (by decide +kernel)
  have hrun : (new (singleDrawn ∅)).run [0, 0, 0, 7] =
      ⟨singleDrawn (Std.HashSet.insert ∅ 7), .drawn (.ofNat .v6 7), 1, 0⟩ := by
    have hstep := step_drawing (d := (new (singleDrawn ∅)).run [0, 0, 0]) (v := 7) rfl rfl (by decide +kernel)
    rw [show [0, 0, 0, 7] = [0, 0, 0] ++ [7] from rfl, run_append, run_cons, hstep, if_neg (by simp [Pool.refuses])]
    rfl
  have hsecond := hfirst.drawn (show (new _).Admits [0, 0, 0, 7] by decide +kernel) (a := .ofNat .v6 7) (by rw [hrun])
  rw [hrun] at hsecond
  exact hsecond

/-- drawing from a source whose pool of a single address is exhausted, with one offset gone of the pool of all IPv6 addresses,
which counts one address less than it has -/
theorem draw_gets_on_single_drawn :
    Reachable [single, everyV6] ⟨true, true⟩ (singleDrawn (Std.HashSet.insert ∅ 7)) ∧
      GetsOn (singleDrawn (Std.HashSet.insert ∅ 7)) :=
  ⟨reachable_singleDrawn, draw_gets_on reachable_singleDrawn⟩

end Draw

end EdgeTunnel
