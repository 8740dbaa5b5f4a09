/-
The scans of an engine on its clock, as runs of their tasks.

On a clock the tasks wait for their turn: an event of the machine comes to its end before the next begins, and a scan is decided
between two of them. So when it is, each of its probes is about to look, and none is out. What such scans find in the cache is
therefore their own.

- `State.course_eq_run`, `verdict_of_watch`: what a scan on its clock is decided on is a state of a run of the machine.
- `Series.run_latest`: the steps of the tasks of the latest scan. `Series.exists_settle`: from a state that the scan is decided
  on, it comes to the same decision by its own steps. `Series.run_join`: it returns then.
- `Calm`: an engine between two scans. `reaches_scan`, `exists_run_scans`: the scans on the clock are a run of their tasks, in
  which no probe is ever out when a scan begins.
-/
import EdgeTunnel.Proofs.Scan.Series

namespace EdgeTunnel.Scan

/-! ## What a scan on its clock is decided on -/

theorem State.course_eq_run {σ : Type} [RandomSource σ] (c : ScanConfig) (events : Nat → List Event) (s : State σ)
    (now : Nat) : s.course c events now = s.run c ((List.range now).flatMap events) := by
  induction now with
  | zero => rfl
  | succ now ih =>
    rw [course, ih, List.range_succ, List.flatMap_append, List.flatMap_singleton, run, run, run, List.foldl_append]

theorem verdict_of_watch {σ : Type} {c : ScanConfig} {cancel : Option Nat} {course : Nat → State σ} {now time : Nat}
    {outcome : Except ScanError (List Answer)} (h : watch c cancel course now = (outcome, time)) :
    (course time).verdict c cancel time = some outcome := by
  fun_induction watch c cancel course now with
  | case1 now outcome hv =>
    cases h
    exact hv
  | case2 now hv ih => exact ih h

theorem Timed.stop_notMem_events {σ : Type} [RandomSource σ] (c : ScanConfig) (now : Nat) (t : Timed σ) :
    Event.stop ∉ t.events c now := by
  simp [events]

/-- **The tasks of a scan on its clock** come to a state in which each of them waits for its turn, and which the scan is decided
on. -/
theorem Tasks.exists_run_of_play {σ : Type} [RandomSource σ] (c : ScanConfig) (source : Candidates) (rng : σ) (script : Script)
    (cancel : Option Nat) :
    let r := (Timed.new source rng).play c script cancel 0
    ∃ es, .stop ∉ es ∧ Rested ((new c source rng).run c es) ∧ ((new c source rng).run c es).cache = r.scan.state.cache ∧
      ((new c source rng).run c es).toState.verdict c cancel r.time = some r.outcome := by
  intro r
  set t := Timed.new source rng
  set as := (List.range r.time).flatMap (t.happens c script)
  have has : Event.stop ∉ as := by
    simp only [as, List.mem_flatMap, not_exists, not_and]
    exact fun now _ => Timed.stop_notMem_events c now _
  obtain ⟨hrest, hstate⟩ := run_schedule (inv_new c source rng) (rested_new c source rng) has
  have hcourse : ((new c source rng).run c (as.flatMap schedule)).toState = t.state.course c (t.happens c script) r.time :=
    hstate.trans (State.course_eq_run c _ _ _).symm
  obtain ⟨hwatch, hcache⟩ := Timed.play_eq_watch c script cancel t 0
  exact ⟨as.flatMap schedule, stop_notMem_schedule as, hrest, (congrArg State.cache hcourse).trans hcache.symm,
    hcourse ▸ verdict_of_watch hwatch.symm⟩

namespace Series

variable {ρ σ : Type} [RandomSource ρ] [RandomSource σ] {c : ScanConfig} {seeded : UInt64 → σ} {s : Series ρ σ}

theorem run_append (c : ScanConfig) (seeded : UInt64 → σ) (s : Series ρ σ) (es fs : List SeriesEvent) :
    s.run c seeded (es ++ fs) = (s.run c seeded es).run c seeded fs := List.foldl_append

/-! ## The steps of one scan -/

omit [RandomSource ρ] [RandomSource σ] in
/-- the scan under way while it waits, when its tasks have come to `t` -/
abbrev under (s : Series ρ σ) (t : Tasks σ) (ts : List (Tasks σ)) : Series ρ σ :=
  { s with cache := t.cache, scans := t :: ts, runner := .waiting, canceled := false }

/-- **The tasks of the latest scan** make their steps as if they were alone. -/
theorem run_latest (c : ScanConfig) (seeded : UInt64 → σ) (s : Series ρ σ) (t : Tasks σ) (ts : List (Tasks σ))
    {es : List TasksEvent} (hes : .stop ∉ es) :
    (s.under t ts).run c seeded (es.map (.task 0)) = s.under (t.run c es) ts := by
  induction es generalizing t with
  | nil => rfl
  | cons e es ih =>
    rw [List.mem_cons, not_or] at hes
    have hstep : (s.under t ts).step c seeded (.task 0 e) = s.under (t.step c e) ts := if_neg (Ne.symm hes.1)
    rw [List.map_cons, run, List.foldl_cons, hstep]
    exact ih (t.step c e) hes.2

/-- a scan that finds enough is decided on the fastest -/
theorem run_rank {t : Tasks σ} {ts : List (Tasks σ)} {chosen : List Answer} (hfound : t.toState.found? c = some chosen)
    (last : Bool) :
    (s.under t ts).run c seeded [.wake last, .go, .rank t.cache.ranked] = (s.under t ts).settle (.ok chosen) := by
  have hranking : t.cache.IsRanking t.cache.ranked := ⟨t.cache.ranked_perm, t.cache.ranked_sorted⟩
  unfold State.found? at hfound
  split_ifs at hfound with henough
  cases hfound
  have hcount : c.wanted ≤ t.cache.size := henough
  simp only [run, List.foldl_cons, List.foldl_nil, step, go, Bool.false_eq_true, if_false, if_true, hcount, hranking,
    Tasks.toState]
  rfl

/-- a scan that finds too few by its deadline fails -/
theorem run_expire {t : Tasks σ} {ts : List (Tasks σ)} (hfound : t.toState.found? c = none) :
    (s.under t ts).run c seeded [.wake true, .go, .go] =
      (s.under t ts).settle (.error (.deadlineExceeded t.cache.size c.wanted t.cache.best)) := by
  unfold State.found? at hfound
  split_ifs at hfound with henough
  have hcount : ¬c.wanted ≤ t.cache.size := henough
  simp only [run, List.foldl_cons, List.foldl_nil, step, go, Bool.false_eq_true, if_false, if_true, hcount]
  rfl

/-- **A scan comes to the decision** of the state its tasks are in, by its own steps. -/
theorem exists_settle (seeded : UInt64 → σ) (s : Series ρ σ) {t : Tasks σ} (ts : List (Tasks σ)) {cancel : Option Nat}
    {now : Nat} {outcome : Except ScanError (List Answer)} (hrunning : t.stopped = false)
    (h : t.toState.verdict c cancel now = some outcome) :
    ∃ es d, ∃ canceled : Bool, d.outcome = outcome ∧ d.cache = t.cache ∧ d.out = s.out ∧
      (s.under t ts).run c seeded es =
        { s.under t ts with scans := { t with stopped := canceled } :: ts, canceled, runner := .stopping d } := by
  have hsame : ({ t with stopped := false } : Tasks σ) = t := by rw [← hrunning]
  have hsettled {o : Except ScanError (List Answer)} {es : List SeriesEvent}
      (hes : (s.under t ts).run c seeded es = (s.under t ts).settle o) :
      ∃ es d, ∃ canceled : Bool, d.outcome = o ∧ d.cache = t.cache ∧ d.out = s.out ∧ (s.under t ts).run c seeded es =
        { s.under t ts with scans := { t with stopped := canceled } :: ts, canceled, runner := .stopping d } := by
    refine ⟨es, (s.under t ts).decision o, false, rfl, rfl, rfl, ?_⟩
    rw [hes, hsame]
    rfl
  unfold State.verdict at h
  split_ifs at h
  · cases h
    exact ⟨[.cancel, .wake false], _, true, rfl, rfl, rfl, rfl⟩
  · cases hfound : t.toState.found? c with
    | some chosen =>
      rw [hfound] at h
      cases h
      exact hsettled (run_rank hfound true)
    | none =>
      rw [hfound] at h
      cases h
      exact hsettled (run_expire hfound)
  · cases hfound : t.toState.found? c with
    | some chosen =>
      rw [hfound] at h
      cases h
      exact hsettled (run_rank hfound false)
    | none =>
      rw [hfound] at h
      cases h

/-- **A scan that is decided** stops its tasks, and returns when its loop has seen that. -/
theorem run_join (c : ScanConfig) (seeded : UInt64 → σ) (s : Series ρ σ) {t : Tasks σ} (ts : List (Tasks σ)) (d : Decision)
    (hloop : t.loop = .idle) :
    ({ s with cache := t.cache, scans := t :: ts, runner := .stopping d } : Series ρ σ).run c seeded
        [.go, .task 0 .look, .go] =
      { s with
        cache := t.cache
        scans := { t with stopped := true, loop := .ended } :: ts
        runner := .resting
        returned := s.returned ++ [d] } := by
  simp [run, step, go, stopLatest, Tasks.step, hloop]

end Series

/-! ## Scan after scan -/

/-- is an engine between two scans the one on its clock, no probe of it being out? -/
structure Calm (e : Engine) (s : Series Random.Seeded Random.Seeded) : Prop where
  rng : s.rng = e.rng
  cache : s.cache = e.cache
  resting : s.runner = .resting
  waiting : ∀ t ∈ s.scans, ∀ x ∈ t.live, x.stage = .waiting

theorem calm_new (rng : Random.Seeded) : Calm (.new rng) (.new rng) :=
  ⟨rfl, rfl, rfl, fun _ ht => absurd ht List.not_mem_nil⟩

/-- no probe is out when the next scan begins -/
theorem Calm.out_eq_nil {e : Engine} {s : Series Random.Seeded Random.Seeded} (h : Calm e s) :
    (s.scans.flatMap fun t => (t.live.filter (·.isOut)).map (·.probe)) = [] := by
  rw [List.flatMap_eq_nil_iff]
  intro t ht
  rw [List.map_eq_nil_iff, List.filter_eq_nil_iff]
  intro x hx
  simp [Task.isOut, h.waiting t ht x hx]

/-- does an engine come, with all its tasks, to what a scan comes to on its clock? -/
def Reaches (c : ScanConfig) (s : Series Random.Seeded Random.Seeded) (r : Report × Engine) : Prop :=
  ∃ es d, Calm r.2 (s.run c Random.Seeded.ofSeed es) ∧ (s.run c Random.Seeded.ofSeed es).returned = s.returned ++ [d] ∧
    d.outcome = r.1.outcome ∧ d.cache = r.2.cache ∧ d.out = []

section

variable {c : ScanConfig} {e : Engine} {s : Series Random.Seeded Random.Seeded} (h : Calm e s)

include h

theorem Calm.run_call (canceled : Bool) :
    s.run c Random.Seeded.ofSeed [.call canceled] = s.call c Random.Seeded.ofSeed canceled := by
  simp [Series.run, Series.step, h.resting]

/-- a scan that is not even begun -/
theorem reaches_of_refuse {cache : Cache} {error : ScanError}
    (hcall : s.call c Random.Seeded.ofSeed false = { s with cache }.refuse error) :
    Reaches c s (⟨.error error, 0, 0, []⟩, { e with cache }) := by
  refine ⟨[.call false], ⟨s.scans.length, .error error, cache, [], [], []⟩, ?_, ?_, rfl, rfl, rfl⟩
  · rw [h.run_call, hcall]
    exact ⟨h.rng, rfl, h.resting, h.waiting⟩
  · rw [h.run_call, hcall]
    rfl

/-- a scan that has candidates -/
theorem reaches_of_play (husable : c.isUsable = true) {source : Candidates}
    (hsource : Candidates.new c.prefixes c.families = .ok source) (script : Script) (cancel : Option Nat) :
    let seed := RandomSource.word64 e.rng
    let r := (Timed.new source (Random.Seeded.ofSeed seed.1)).play c script cancel 0
    Reaches c s (⟨r.outcome, r.time, r.scan.peak, r.scan.log.reverse⟩, ⟨seed.2, r.scan.state.cache⟩) := by
  intro seed r
  obtain ⟨es, hes, hrest, hcache, hverdict⟩ :=
    Tasks.exists_run_of_play c source (Random.Seeded.ofSeed seed.1) script cancel
  set begun : Series Random.Seeded Random.Seeded := { s with rng := seed.2, out := [] }
  set t := (Tasks.new c source (Random.Seeded.ofSeed seed.1)).run c es
  have hcall : s.call c Random.Seeded.ofSeed false =
      begun.under (Tasks.new c source (Random.Seeded.ofSeed seed.1)) s.scans := by
    simp only [Series.call, husable, Bool.not_true, Bool.false_eq_true, if_false, hsource, h.out_eq_nil, h.rng]
    rfl
  have hlatest := Series.run_latest c Random.Seeded.ofSeed begun (Tasks.new c source (Random.Seeded.ofSeed seed.1)) s.scans hes
  obtain ⟨fs, d, canceled, houtcome, hdecided, hout, hsettled⟩ :=
    Series.exists_settle Random.Seeded.ofSeed begun s.scans hrest.running hverdict
  have hjoin := Series.run_join c Random.Seeded.ofSeed { begun with canceled } (t := { t with stopped := canceled }) s.scans d
    hrest.loop
  refine ⟨[.call false] ++ es.map (.task 0) ++ fs ++ [.go, .task 0 .look, .go], d, ?_, ?_, houtcome,
    hdecided.trans hcache, hout⟩
  · rw [Series.run_append, Series.run_append, Series.run_append, h.run_call, hcall, hlatest, hsettled, hjoin]
    exact ⟨rfl, hcache, rfl, List.forall_mem_cons.2 ⟨hrest.live, h.waiting⟩⟩
  · rw [Series.run_append, Series.run_append, Series.run_append, h.run_call, hcall, hlatest, hsettled, hjoin]

end

namespace Engine

variable (c : ScanConfig) (script : Script) (cancel : Option Nat)

/-- **A scan on the clock is a run of its tasks**, which leaves the engine as it leaves it on the clock. -/
theorem reaches_scan {e : Engine} {s : Series Random.Seeded Random.Seeded} (h : Calm e s) :
    Reaches c s (e.scan c script cancel) := by
  cases husable : c.isUsable with
  | false =>
    have hcall : s.call c Random.Seeded.ofSeed false = { s with cache := e.cache }.refuse .unusable := by
      simp [Series.call, husable, ← h.cache]
    have hscan : e.scan c script cancel = (⟨.error .unusable, 0, 0, []⟩, { e with cache := e.cache }) := by
      simp [scan, husable]
    rw [hscan]
    exact reaches_of_refuse h hcall
  | true =>
    cases hsource : Candidates.new c.prefixes c.families with
    | error cause =>
      have hcall : s.call c Random.Seeded.ofSeed false = { s with cache := .empty }.refuse (.candidates cause) := by
        simp [Series.call, husable, hsource]
      have hscan : e.scan c script cancel = (⟨.error (.candidates cause), 0, 0, []⟩, { e with cache := .empty }) := by
        simp [scan, husable, hsource]
      rw [hscan]
      exact reaches_of_refuse h hcall
    | ok source =>
      simp only [scan, husable, Bool.not_true, Bool.false_eq_true, if_false, hsource]
      exact reaches_of_play h husable hsource script cancel

/-- **Scans on the clock are a run of their tasks**, in which no probe is out when a scan begins. -/
theorem exists_run_scans (n : Nat) {e : Engine} {s : Series Random.Seeded Random.Seeded} (h : Calm e s) :
    ∃ es ds, (s.run c Random.Seeded.ofSeed es).returned = s.returned ++ ds ∧
      ds.map (fun d => (d.outcome, d.cache)) = (e.scans c script cancel n).map (fun r => (r.1.outcome, r.2.cache)) ∧
      ∀ d ∈ ds, d.out = [] := by
  induction n generalizing e s with
  | zero => exact ⟨[], [], by rw [List.append_nil]; rfl, rfl, fun _ hd => absurd hd List.not_mem_nil⟩
  | succ n ih =>
    obtain ⟨es, d, hcalm, hreturned, houtcome, hcache, hout⟩ := reaches_scan c script cancel h
    obtain ⟨es', ds, hreturned', hsame, houts⟩ := ih hcalm
    refine ⟨es ++ es', d :: ds, ?_, ?_, List.forall_mem_cons.2 ⟨hout, houts⟩⟩
    · rw [Series.run_append, hreturned', hreturned, List.append_assoc, List.singleton_append]
    · rw [scans, List.map_cons, List.map_cons, hsame, houtcome, hcache]

end Engine

end EdgeTunnel.Scan
