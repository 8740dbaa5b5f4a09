/-
The rounds of a draw.

A draw starts two rounds at most and fills the pools again once at most. After four steps at most it stands before an offset.
From then on it is kept from its end only by offsets that are gone, and there is always one that is not.

- `OnTrack` is what a draw keeps at every step (`OnTrack.step`), and so in every run (`OnTrack.run`).
- `OnTrack.range_pos`: no number is drawn from an empty range.
- `stepsLeft_step`: a step before the offset brings the draw nearer to it.
- `run_drawing`: an offset that is gone changes nothing, and the first one that is not ends the draw.
-/
import EdgeTunnel.Net.Draw
import EdgeTunnel.Proofs.Net.Passes

namespace EdgeTunnel

/-! ## A pool that is asked -/

namespace Pool

/-- a pool that is asked finds what was found when it was listed -/
theorem declines_eq (p : Pool) : p.declines = p.isExhausted := by
  rcases p with ⟨c, left | gone⟩
  · simp [declines, isExhausted, Array.isEmpty]
  · rfl

/-- a large pool draws from all offsets of its prefix -/
theorem choices_sparse (c : Cidr) (gone : Std.HashSet Nat) : (Pool.mk c (.sparse gone)).choices = 2 ^ c.hostBits := by
  simp only [choices]
  by_cases hall : c.hostBits = 128
  · simp [Cidr.size, hall]
  · have hpow := c.two_pow_hostBits_le hall
    rw [c.size_eq hall, if_neg (by omega)]

/-- what fits a pool is what there is to draw and is not refused -/
theorem fits_iff (p : Pool) (i : Nat) : p.Fits i ↔ i < p.choices ∧ p.refuses i = false := by
  rcases p with ⟨c, left | gone⟩
  · simp [Fits, choices, refuses]
  · rw [choices_sparse]
    simp [Fits, refuses, and_comm]

/-- **An open pool always has a number to draw that it does not refuse.** -/
theorem exists_fresh (p : Pool) (hopen : p.isExhausted = false) : ∃ o < p.choices, p.refuses o = false := by
  rcases p with ⟨c, left | gone⟩
  · simp only [isExhausted, Array.isEmpty_eq_false_iff] at hopen
    exact ⟨0, Array.size_pos_iff.2 hopen, rfl⟩
  · simp only [isExhausted, decide_eq_false_iff_not, not_le] at hopen
    -- fewer offsets are gone than the size says, and the range is no smaller than that
    obtain ⟨o, ho, hgone⟩ := exists_not_gone gone
    have hsize := c.size_le
    exact ⟨o, by rw [choices_sparse]; omega, by simpa [refuses] using hgone⟩

end Pool

namespace Candidates

theorem exists_open {c : Candidates} {i : Nat} (h : i ∈ c.openPools) :
    ∃ p, c.pools[i]? = some p ∧ p.isExhausted = false := by
  obtain ⟨hi, hopen⟩ := (mem_openPools c i).1 h
  exact ⟨_, List.getElem?_eq_getElem hi, hopen⟩

/-- when all pools are filled again, one is open -/
theorem openPools_nextPass {c : Candidates} (h : c.pools ≠ []) : c.nextPass.openPools ≠ [] := by
  have hpos : 0 < c.nextPass.pools.length := by
    rw [nextPass, List.length_map]
    exact List.length_pos_iff.2 h
  refine List.ne_nil_of_mem ((mem_openPools _ 0).2 ⟨hpos, ?_⟩)
  simp only [nextPass, List.getElem_map, Pool.refill, Pool.isExhausted_ofCidr]

end Candidates

namespace Draw

variable {d : Draw} {c : Candidates} {p : Pool} {i v : Nat}

theorem run_cons (d : Draw) (v : Nat) (vs : List Nat) : d.run (v :: vs) = (d.step v).run vs := rfl

theorem run_append (d : Draw) (vs ws : List Nat) : d.run (vs ++ ws) = (d.run vs).run ws := List.foldl_append

/-! ## Single steps -/

theorem range?_choosing {places : List Nat} (hstage : d.stage = .choosing places) : d.range? = some places.length := by
  simp only [range?, hstage]

theorem range?_drawing (hstage : d.stage = .drawing i) (hp : d.source.pools[i]? = some p) : d.range? = some p.choices := by
  simp only [range?, hstage, hp, Option.map_some]

theorem step_round_full (hstage : d.stage = .round) (hopen : d.source.openPools = []) (v : Nat) :
    d.step v = { d with source := d.source.nextPass, rounds := d.rounds + 1, refills := d.refills + 1 } := by
  simp [step, range?, hstage, hopen]

theorem step_round (hstage : d.stage = .round) (hopen : d.source.openPools ≠ []) (v : Nat) :
    d.step v = { d with stage := .choosing d.source.openPools, rounds := d.rounds + 1 } := by
  simp only [step, range?, hstage, reduceCtorEq, if_false]

theorem step_choosing {places : List Nat} (hstage : d.stage = .choosing places) (hi : places[v]? = some i) :
    d.step v = { d with stage := .asking i } := by
  have hne : places ≠ [] := by
    rintro rfl
    simp at hi
  simp [step, range?, hstage, hi, hne]

theorem step_asking (hstage : d.stage = .asking i) (hp : d.source.pools[i]? = some p) (hopen : p.isExhausted = false)
    (v : Nat) : d.step v = { d with stage := .drawing i } := by
  simp [step, range?, hstage, hp, Pool.declines_eq, hopen]

theorem step_drawing (hstage : d.stage = .drawing i) (hp : d.source.pools[i]? = some p) (hv : v < p.choices) :
    d.step v = if p.refuses v then d else d.finish i v p := by
  have hne : p.choices ≠ 0 := by omega
  simp [step, range?, hstage, hp, hne]

theorem step_drawn {a : Ip} (hstage : d.stage = .drawn a) (v : Nat) : d.step v = d := by
  simp [step, range?, hstage]

/-! ## Every point of a draw -/

/-- a draw is on track: it has pools, and it stands at an open one of them or before the choice of one. Its pools are filled
again at most once, and only before its last round. -/
structure OnTrack (d : Draw) : Prop where
  pools : d.source.pools ≠ []
  refills : d.refills ≤ 1
  stage :
    match d.stage with
    | .round => d.rounds = d.refills ∧ (d.refills = 0 ∨ d.source.openPools ≠ [])
    | .choosing places => d.rounds = d.refills + 1 ∧ places = d.source.openPools ∧ places ≠ []
    | .asking i | .drawing i => d.rounds = d.refills + 1 ∧ i ∈ d.source.openPools
    | .drawn _ => d.rounds = d.refills + 1
    | .failed => False

theorem onTrack_new (h : c.pools ≠ []) : (new c).OnTrack := ⟨h, Nat.zero_le 1, rfl, .inl rfl⟩

/-- the pool that is asked is open -/
theorem OnTrack.open_of_asking (h : d.OnTrack) (hstage : d.stage = .asking i) :
    ∃ p, d.source.pools[i]? = some p ∧ p.isExhausted = false := by
  have hat := h.stage
  rw [hstage] at hat
  exact Candidates.exists_open hat.2

/-- and so is the pool that an offset is drawn of -/
theorem OnTrack.open_of_drawing (h : d.OnTrack) (hstage : d.stage = .drawing i) :
    ∃ p, d.source.pools[i]? = some p ∧ p.isExhausted = false := by
  have hat := h.stage
  rw [hstage] at hat
  exact Candidates.exists_open hat.2

theorem OnTrack.not_failed (h : d.OnTrack) : d.stage ≠ .failed := by
  intro hstage
  have hat := h.stage
  rw [hstage] at hat
  exact hat

theorem OnTrack.step (h : d.OnTrack) (hv : ∀ n ∈ d.range?, v < n) : (d.step v).OnTrack := by
  have hat := h.stage
  cases hstage : d.stage with
  | round =>
    rw [hstage] at hat
    obtain ⟨hrounds, hat⟩ := hat
    by_cases hopen : d.source.openPools = []
    · -- after a refill some pool would be open, so this is the first round
      have hfirst : d.refills = 0 := hat.resolve_right fun hne => hne hopen
      rw [step_round_full hstage hopen]
      refine ⟨by simpa [Candidates.nextPass] using h.pools, by simp [hfirst], ?_⟩
      simp only [hstage]
      exact ⟨by rw [hrounds], .inr (Candidates.openPools_nextPass h.pools)⟩
    · rw [step_round hstage hopen]
      exact ⟨h.pools, h.refills, by rw [hrounds], rfl, hopen⟩
  | choosing places =>
    rw [hstage] at hat
    obtain ⟨hrounds, rfl, -⟩ := hat
    have hlt : v < d.source.openPools.length := hv _ (range?_choosing hstage)
    rw [step_choosing hstage (List.getElem?_eq_getElem hlt)]
    exact ⟨h.pools, h.refills, hrounds, List.getElem_mem hlt⟩
  | asking i =>
    obtain ⟨p, hp, hopen⟩ := h.open_of_asking hstage
    rw [hstage] at hat
    rw [step_asking hstage hp hopen]
    exact ⟨h.pools, h.refills, hat⟩
  | drawing i =>
    obtain ⟨p, hp, -⟩ := h.open_of_drawing hstage
    rw [step_drawing hstage hp (hv _ (range?_drawing hstage hp))]
    split_ifs
    · exact h
    · rw [hstage] at hat
      exact ⟨by simpa [finish] using h.pools, h.refills, hat.1⟩
  | drawn a =>
    rw [step_drawn hstage]
    exact h
  | failed => exact absurd hstage h.not_failed

theorem OnTrack.run (h : d.OnTrack) {vs : List Nat} (hvs : d.Admits vs) : (d.run vs).OnTrack := by
  induction vs generalizing d with
  | nil => exact h
  | cons v vs ih => exact ih (h.step hvs.1) hvs.2

theorem OnTrack.rounds_le (h : d.OnTrack) : d.rounds ≤ d.refills + 1 := by
  obtain ⟨-, -, hat⟩ := h
  cases hstage : d.stage <;> rw [hstage] at hat <;> simp only at hat <;> omega

/-- no number is drawn from an empty range -/
theorem OnTrack.range_pos (h : d.OnTrack) : ∀ n ∈ d.range?, 0 < n := by
  intro n hn
  cases hstage : d.stage with
  | choosing places =>
    have hat := h.stage
    rw [hstage] at hat
    rw [range?_choosing hstage, Option.mem_some_iff] at hn
    exact hn ▸ List.length_pos_iff.2 hat.2.2
  | drawing i =>
    obtain ⟨p, hp, hopen⟩ := h.open_of_drawing hstage
    obtain ⟨o, ho, -⟩ := p.exists_fresh hopen
    rw [range?_drawing hstage hp, Option.mem_some_iff] at hn
    omega
  | round | asking _ | drawn _ | failed => simp [range?, hstage] at hn

/-! ## The way to an offset -/

/-- how many steps there are at most until an offset is drawn -/
def stepsLeft (d : Draw) : Nat :=
  match d.stage with
  | .round => if d.source.openPools = [] then 4 else 3
  | .choosing _ => 2
  | .asking _ => 1
  | _ => 0

theorem stepsLeft_le (d : Draw) : d.stepsLeft ≤ 4 := by
  unfold stepsLeft
  split
  · split_ifs <;> decide
  all_goals decide

theorem stepsLeft_step (h : d.OnTrack) (hv : ∀ n ∈ d.range?, v < n) : (d.step v).stepsLeft ≤ d.stepsLeft - 1 := by
  cases hstage : d.stage with
  | round =>
    by_cases hopen : d.source.openPools = []
    · rw [step_round_full hstage hopen]
      simp [stepsLeft, hstage, hopen, Candidates.openPools_nextPass h.pools]
    · rw [step_round hstage hopen]
      simp [stepsLeft, hstage, hopen]
  | choosing places =>
    rw [step_choosing hstage (List.getElem?_eq_getElem (hv _ (range?_choosing hstage)))]
    simp [stepsLeft, hstage]
  | asking i =>
    obtain ⟨p, hp, hopen⟩ := h.open_of_asking hstage
    rw [step_asking hstage hp hopen]
    simp [stepsLeft]
  | drawing i =>
    obtain ⟨p, hp, -⟩ := h.open_of_drawing hstage
    rw [step_drawing hstage hp (hv _ (range?_drawing hstage hp))]
    split_ifs <;> simp [stepsLeft, hstage, finish]
  | drawn a => simp [step_drawn hstage, stepsLeft, hstage]
  | failed => exact absurd hstage h.not_failed

theorem stepsLeft_run (h : d.OnTrack) {vs : List Nat} (hvs : d.Admits vs) :
    (d.run vs).stepsLeft ≤ d.stepsLeft - vs.length := by
  induction vs generalizing d with
  | nil => exact Nat.le_refl _
  | cons v vs ih =>
    have hfirst := stepsLeft_step h hvs.1
    have hrest := ih (h.step hvs.1) hvs.2
    rw [run_cons, List.length_cons]
    omega

/-- on track with no step left, an offset is drawn next or has been -/
theorem OnTrack.drawing_or_drawn (h : d.OnTrack) (hleft : d.stepsLeft = 0) :
    (∃ i, d.stage = .drawing i) ∨ ∃ a, d.stage = .drawn a := by
  cases hstage : d.stage with
  | drawing i => exact .inl ⟨i, rfl⟩
  | drawn a => exact .inr ⟨a, rfl⟩
  | failed => exact absurd hstage h.not_failed
  | round =>
    simp only [stepsLeft, hstage] at hleft
    split_ifs at hleft
  | choosing _ | asking _ => simp [stepsLeft, hstage] at hleft

/-! ## Offsets -/

/-- an offset that is gone changes nothing -/
theorem run_refused (hstage : d.stage = .drawing i) (hp : d.source.pools[i]? = some p) {refused : List Nat}
    (hrefused : ∀ o ∈ refused, o < p.choices ∧ p.refuses o = true) : d.run refused = d := by
  induction refused with
  | nil => rfl
  | cons o refused ih =>
    obtain ⟨hlt, hgone⟩ := hrefused o List.mem_cons_self
    rw [run_cons, step_drawing hstage hp hlt, if_pos hgone]
    exact ih fun x hx => hrefused x (List.mem_cons_of_mem _ hx)

/-- **The first offset that is not gone ends the draw.** -/
theorem run_drawing (hstage : d.stage = .drawing i) (hp : d.source.pools[i]? = some p) {refused : List Nat}
    (hrefused : ∀ o ∈ refused, o < p.choices ∧ p.refuses o = true) (hv : v < p.choices) (hfresh : p.refuses v = false) :
    d.run (refused ++ [v]) = d.finish i v p := by
  rw [run_append, run_refused hstage hp hrefused, run_cons, step_drawing hstage hp hv, hfresh]
  rfl

end Draw

end EdgeTunnel
