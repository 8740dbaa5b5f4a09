/-
The course of a scan: how it goes on at every instant as long as nothing ends it.

A scan on its clock jumps from one instant at which something may happen to the next. Here it is looked at in every instant,
so that what ends it can be told from its course alone.

- `State.course`, `State.heard`: the scan and what its probes have reported, by the instant, when the events between any two
  decisions are given. `cache_course`: the cache is that of what has been heard.
- `watch`: the first decision on a scan, when one is looked for at every instant.
- `Timed.pass`: what happens to a scan on its clock after an instant has not ended it. `state_pass`: it is a run of the
  machine, through `Timed.events`. `settled_pass`: no probe is due after it, and no slot is free.
- `play_eq_watch`: nothing is lost in the jumps, since nothing happens in between.
-/
import EdgeTunnel.Proofs.Scan.Tally
import EdgeTunnel.Scan.Clock

namespace EdgeTunnel.Scan

variable {σ : Type}

/-! ## Decisions -/

/-- the first decision on a scan on this course, from an instant on, and the instant of it -/
def watch (c : ScanConfig) (cancel : Option Nat) (course : Nat → State σ) (now : Nat) :
    Except ScanError (List Answer) × Nat :=
  match _h : (course now).verdict c cancel now with
  | some outcome => (outcome, now)
  | none => watch c cancel course (now + 1)
termination_by c.deadline.nanos - now
decreasing_by
  have := State.lt_deadline_of_verdict _h
  omega

theorem watch_of_some {c : ScanConfig} {cancel : Option Nat} {course : Nat → State σ} {now : Nat}
    {outcome : Except ScanError (List Answer)} (h : (course now).verdict c cancel now = some outcome) :
    watch c cancel course now = (outcome, now) := by
  rw [watch]
  split <;> simp_all

theorem watch_of_none {c : ScanConfig} {cancel : Option Nat} {course : Nat → State σ} {now : Nat}
    (h : (course now).verdict c cancel now = none) : watch c cancel course now = watch c cancel course (now + 1) := by
  rw [watch]
  split <;> simp_all

theorem watch_skip {c : ScanConfig} {cancel : Option Nat} {course : Nat → State σ} {now next : Nat} (hle : now ≤ next)
    (h : ∀ m, now ≤ m → m < next → (course m).verdict c cancel m = none) :
    watch c cancel course now = watch c cancel course next := by
  induction next, hle using Nat.le_induction with
  | base => rfl
  | succ m hm ih =>
    have hnone := h m hm (Nat.lt_succ_self m)
    rw [ih fun i hi hlt => h i hi (Nat.lt_succ_of_lt hlt), watch_of_none hnone]

namespace State

variable [RandomSource σ]

/-! ## The course of the machine -/

/-- the scan at each instant, when these are the events after the decision at an instant and before that at the next -/
def course (c : ScanConfig) (events : Nat → List Event) (s : State σ) : Nat → State σ
  | 0 => s
  | now + 1 => (course c events s now).run c (events now)

/-- what the probes have reported by each instant, in the order they ended -/
def heard (c : ScanConfig) (events : Nat → List Event) (s : State σ) : Nat → List Answer
  | 0 => []
  | now + 1 => heard c events s now ++ (course c events s now).reports c (events now)

theorem start_of_not_hasSlot {c : ScanConfig} {s : State σ} (h : s.hasSlot c = false) : s.start c = s := by
  simp only [start, h, Bool.false_eq_true, if_false]

end State

namespace Timed

/-- what is later than an instant that ends up smallest is later than all -/
theorem lt_of_lt_foldl_min {m b : Nat} {l : List Nat} (h : m < l.foldl min b) : m < b ∧ ∀ x ∈ l, m < x := by
  induction l generalizing b with
  | nil => exact ⟨h, fun x hx => absurd hx List.not_mem_nil⟩
  | cons y l ih =>
    obtain ⟨hmin, hl⟩ := ih h
    refine ⟨by omega, fun x hx => ?_⟩
    rcases List.mem_cons.1 hx with rfl | hx
    · omega
    · exact hl x hx

/-- nothing is planned for the instants before the next one -/
theorem lt_of_lt_nextInstant {c : ScanConfig} {cancel : Option Nat} {now m : Nat} {t : Timed σ} (hm : now < m)
    (h : m < nextInstant c cancel now t) :
    (∀ instant ∈ cancel, m < instant) ∧ (∀ a ∈ t.due, m < a.time) ∧ m < c.deadline.nanos ∧
      m < (now / period c + 1) * period c := by
  have hfold := lt_of_lt_foldl_min (m := m) (b := min c.deadline.nanos ((now / period c + 1) * period c))
    (l := cancel.toList ++ t.due.map (·.time)) (by simp only [nextInstant] at h; omega)
  obtain ⟨hmin, hall⟩ := hfold
  refine ⟨fun instant hi => hall instant (List.mem_append_left _ (Option.mem_toList.2 hi)),
    fun a ha => hall a.time (List.mem_append_right _ (List.mem_map_of_mem ha)), by omega, by omega⟩

/-- so no scan ends in them, in whatever state it is -/
theorem verdict_of_lt_nextInstant {c : ScanConfig} {cancel : Option Nat} {now m : Nat} {t : Timed σ} (hm : now < m)
    (h : m < nextInstant c cancel now t) (s : State σ) : s.verdict c cancel m = none := by
  obtain ⟨hcancel, -, hdeadline, hlook⟩ := lt_of_lt_nextInstant hm h
  have hlive : cancel.any (· ≤ m) = false := by
    rw [Option.any_eq_false]
    intro instant hi
    simpa using hcancel instant hi
  have hnolook : m % period c ≠ 0 := by
    intro hmod
    -- the only multiple of the period up to `m` and after `now` would be the next look
    have hdvd := Nat.div_mul_cancel (Nat.dvd_of_mod_eq_zero hmod)
    have hle : m / period c ≤ now / period c := by
      refine Nat.le_of_lt_succ (Nat.lt_of_mul_lt_mul_right (a := period c) ?_)
      rw [hdvd]
      exact hlook
    have := Nat.mul_le_mul_right (period c) hle
    have := Nat.div_mul_le_self now (period c)
    omega
  simp only [State.verdict, hlive, Nat.not_le.2 hdeadline, hnolook, if_false, Bool.false_eq_true]

variable [RandomSource σ]

/-! ## One instant -/

/-- what happens after an instant that has not ended the scan: the probes that are due end, and slots are filled -/
def pass (c : ScanConfig) (script : Script) (now : Nat) (t : Timed σ) : Timed σ :=
  (t.settle c now).fill c script now (c.concurrency - (t.settle c now).state.flying.length)

/-- the same as events of the machine -/
def events (c : ScanConfig) (now : Nat) (t : Timed σ) : List Event :=
  (t.due.filter fun a => decide (a.time ≤ now)).map (fun a => .finish a.id a.rtt) ++
    List.replicate (c.concurrency - (t.settle c now).state.flying.length) .start

theorem start_of_not_hasSlot {c : ScanConfig} {t : Timed σ} (h : t.state.hasSlot c = false) (script : Script) (now : Nat) :
    t.start c script now = t := by
  simp only [start, h, Bool.false_eq_true, if_false]

theorem fill_of_not_hasSlot {c : ScanConfig} {t : Timed σ} (h : t.state.hasSlot c = false) (script : Script) (now n : Nat) :
    t.fill c script now n = t := by
  induction n with
  | zero => rfl
  | succ n ih => rw [fill, start_of_not_hasSlot h, ih]

/-- a free slot is taken by a probe that takes at least a millisecond -/
theorem start_of_hasSlot {c : ScanConfig} {t : Timed σ} (h : t.state.hasSlot c = true) (script : Script) (now : Nat) :
    t.start c script now =
      let p := (t.state.draw c).1
      ⟨t.state.start c, t.due ++ [⟨now + max (script p.target).delay.nanos tick, p.id, (script p.target).rtt⟩], p :: t.log,
        max t.peak (t.state.flying.length + 1)⟩ := by
  simp only [start, State.start_eq h, h, if_true, List.getLast?_append, List.getLast?_singleton, Option.some_or,
    List.length_append, List.length_singleton]

theorem state_start (c : ScanConfig) (script : Script) (now : Nat) (t : Timed σ) :
    (t.start c script now).state = t.state.start c := by
  cases h : t.state.hasSlot c with
  | false => rw [start_of_not_hasSlot h, State.start_of_not_hasSlot h]
  | true => rw [start_of_hasSlot h]

theorem state_fill (c : ScanConfig) (script : Script) (now n : Nat) (t : Timed σ) :
    (t.fill c script now n).state = t.state.run c (List.replicate n .start) := by
  induction n generalizing t with
  | zero => rfl
  | succ n ih =>
    have hrun : t.state.run c (List.replicate (n + 1) .start) = (t.state.start c).run c (List.replicate n .start) := rfl
    rw [fill, ih, state_start, hrun]

theorem state_settle (c : ScanConfig) (now : Nat) (t : Timed σ) :
    (t.settle c now).state =
      t.state.run c ((t.due.filter fun a => decide (a.time ≤ now)).map fun a => .finish a.id a.rtt) := by
  simp only [settle, List.partition_eq_filter_filter, State.run, List.foldl_map]
  rfl

/-- **What happens at an instant is a run of the machine.** -/
theorem state_pass (c : ScanConfig) (script : Script) (now : Nat) (t : Timed σ) :
    (t.pass c script now).state = t.state.run c (t.events c now) := by
  rw [pass, state_fill, state_settle, events, State.run, State.run, State.run, List.foldl_append, state_settle]
  rfl

/-! ## Between two instants -/

/-- has nothing been left to do at this instant? -/
structure Settled (c : ScanConfig) (now : Nat) (t : Timed σ) : Prop where
  due : ∀ a ∈ t.due, now < a.time
  full : t.state.hasSlot c = false

theorem settled_fill {c : ScanConfig} (script : Script) {now : Nat} (n : Nat) {t : Timed σ}
    (hdue : ∀ a ∈ t.due, now < a.time) (hn : c.concurrency ≤ t.state.flying.length + n) :
    Settled c now (t.fill c script now n) := by
  induction n generalizing t with
  | zero =>
    have hfull : decide (t.state.flying.length < c.concurrency) = false := decide_eq_false (by omega)
    exact ⟨hdue, by rw [fill, State.hasSlot, hfull, Bool.and_false]⟩
  | succ n ih =>
    rw [fill]
    cases h : t.state.hasSlot c with
    | false =>
      rw [start_of_not_hasSlot h, fill_of_not_hasSlot h]
      exact ⟨hdue, h⟩
    | true =>
      refine ih (fun a ha => ?_) ?_
      · -- a probe that is started now ends at least a millisecond later
        rw [start_of_hasSlot h] at ha
        rcases List.mem_append.1 ha with ha | ha
        · exact hdue a ha
        · rw [List.mem_singleton.1 ha]
          have : 0 < tick := by decide
          simp only
          omega
      · rw [state_start, State.start_eq h, List.length_append, List.length_singleton]
        omega

/-- **After an instant** no probe is due and no slot is free. -/
theorem settled_pass (c : ScanConfig) (script : Script) (now : Nat) (t : Timed σ) :
    Settled c now (t.pass c script now) := by
  refine settled_fill script _ (fun a ha => ?_) (by omega)
  simp only [settle, List.partition_eq_filter_filter, List.mem_filter, Function.comp_apply, Bool.not_eq_true',
    decide_eq_false_iff_not] at ha
  omega

/-- nothing happens at an instant that has nothing left to do -/
theorem pass_of_settled {c : ScanConfig} {now : Nat} {t : Timed σ} (h : Settled c now t) (script : Script) :
    t.pass c script now = t := by
  have hdone : t.due.filter (fun a => decide (a.time ≤ now)) = [] := by
    rw [List.filter_eq_nil_iff]
    intro a ha
    simpa using h.due a ha
  have hdue : t.due.filter (fun a => !decide (a.time ≤ now)) = t.due := by
    rw [List.filter_eq_self]
    intro a ha
    simpa using h.due a ha
  have hsettle : t.settle c now = t := by
    simp only [settle, List.partition_eq_filter_filter, hdone, List.foldl_nil]
    exact congrArg (fun due => { t with due }) hdue
  rw [pass, hsettle, fill_of_not_hasSlot h.full]

/-! ## The course of a scan on its clock -/

/-- the scan as it comes to each instant, as long as nothing ends it -/
def course (c : ScanConfig) (script : Script) (t : Timed σ) : Nat → Timed σ
  | 0 => t
  | now + 1 => (course c script t now).pass c script now

/-- what happens on its course after the decision at each instant -/
def happens (c : ScanConfig) (script : Script) (t : Timed σ) (now : Nat) : List Event := (t.course c script now).events c now

/-- its course is one of the machine -/
theorem state_course (c : ScanConfig) (script : Script) (t : Timed σ) (now : Nat) :
    (t.course c script now).state = t.state.course c (t.happens c script) now := by
  induction now with
  | zero => rfl
  | succ now ih => rw [course, state_pass, ih, State.course, happens]

/-- the scan stays as it is up to the next instant at which something may happen -/
theorem course_eq {c : ScanConfig} {script : Script} {t : Timed σ} {cancel : Option Nat} {now m : Nat} (hm : now + 1 ≤ m)
    (h : m ≤ nextInstant c cancel now (t.course c script (now + 1))) :
    t.course c script m = t.course c script (now + 1) := by
  induction m, hm using Nat.le_induction with
  | base => rfl
  | succ m hm ih =>
    have hdue := (lt_of_lt_nextInstant hm h).2.1
    rw [course, ih (Nat.le_of_succ_le h)]
    exact pass_of_settled ⟨hdue, (settled_pass c script now _).full⟩ script

/-- **Nothing is lost in the jumps**: the scan ends as one that is looked at in every instant, and its cache is then that of
its course. -/
theorem play_eq_watch (c : ScanConfig) (script : Script) (cancel : Option Nat) (t : Timed σ) (now : Nat) :
    let r := (t.course c script now).play c script cancel now
    (r.outcome, r.time) = watch c cancel (t.state.course c (t.happens c script)) now ∧
      r.scan.state.cache = (t.state.course c (t.happens c script) r.time).cache := by
  generalize hu : t.course c script now = u
  fun_induction play c script cancel now u with
  | case1 now u outcome hv =>
    rw [← hu, state_course] at hv
    refine ⟨(watch_of_some hv).symm, ?_⟩
    simp only
    rw [← hu, ← state_course]
    rfl
  | case2 now u hv settled filled ih =>
    have hnext : filled = t.course c script (now + 1) := by rw [course, hu]; rfl
    have hlt : now + 1 ≤ nextInstant c cancel now filled := Nat.le_max_left _ _
    have hih := ih (by rw [hnext] at hlt ⊢; exact course_eq hlt (Nat.le_refl _))
    refine ⟨hih.1.trans (watch_skip (by omega) fun m hm hlt => ?_).symm, hih.2⟩
    -- no decision at the instant itself, and none before the next at which something may happen
    rcases Nat.eq_or_lt_of_le hm with rfl | hm
    · rwa [← state_course, hu]
    · exact verdict_of_lt_nextInstant hm hlt _

end Timed

end EdgeTunnel.Scan
