/-
The contract of a scan, for its tasks and on its clock.

The tasks of all scans of an engine take their steps in any order, and the probes report what they like. On a clock the script
says what a probe reports and when it ends, and `Timed.Inv` says that the clock ends each probe with the report of its own
target.

- `Timed.Inv`: the scan so far is sound, and the appointment of every probe in flight has its script's report.
  `inv_settle`, `inv_fill`.
- `selection_of_play`: so what the scan returns is a selection from what its own probes reported.
- `scan_contract`: the contract for every one of any number of scans of an engine, in every order of steps and on the clock.
- `late_answer_returned`: a scan that returns what no probe of its own has reported.
-/
import EdgeTunnel.Proofs.Scan.Engine

namespace EdgeTunnel.Scan

/-- did one of these probes report this, as the script has it? -/
def Scripted (script : Script) (probes : List Probe) (a : Answer) : Prop :=
  (∃ p ∈ probes, p.target = a.target) ∧ (script a.target).rtt = some a.rtt

theorem Scripted.mono {script : Script} {probes probes' : List Probe} (hsub : ∀ p ∈ probes, p ∈ probes') {a : Answer}
    (h : Scripted script probes a) : Scripted script probes' a := by
  obtain ⟨⟨p, hp, ht⟩, hr⟩ := h
  exact ⟨⟨p, hsub p hp, ht⟩, hr⟩

theorem State.Inv.mono {σ : Type} {c : ScanConfig} {reported reported' : Answer → Prop}
    (hsub : ∀ a, reported a → reported' a) {s : State σ} (h : State.Inv c reported s) : State.Inv c reported' s :=
  ⟨h.source, h.flying, h.ids, h.below, h.cache.mono hsub⟩

namespace State

variable {σ : Type}

/-! ## What the end of a probe does -/

/-- a report is that of the probe in flight with the number -/
theorem mem_of_report? {s : State σ} {id : Nat} {rtt : Option Span} {a : Answer}
    (h : s.report? (.finish id rtt) = some a) : ∃ p ∈ s.flying, p.id = id ∧ a.target = p.target ∧ rtt = some a.rtt := by
  cases rtt with
  | none => simp [report?] at h
  | some rtt =>
    simp only [report?, Option.map_eq_some_iff] at h
    obtain ⟨p, hp, rfl⟩ := h
    exact ⟨p, List.mem_of_find?_eq_some hp, by simpa using List.find?_some hp, rfl, rfl⟩

theorem flying_finish (c : ScanConfig) (s : State σ) (id : Nat) (rtt : Option Span) :
    (s.finish c id rtt).flying ⊆ s.flying := by
  unfold finish
  split
  · exact List.Subset.refl _
  · exact List.filter_sublist.subset

theorem started_finish (c : ScanConfig) (s : State σ) (id : Nat) (rtt : Option Span) :
    (s.finish c id rtt).started = s.started := by
  unfold finish
  split <;> rfl

end State

namespace Timed

variable {σ : Type}

/-! ## The invariant on a clock -/

structure Inv (c : ScanConfig) (script : Script) (t : Timed σ) : Prop where
  state : t.state.Inv c (Scripted script t.log)
  logged : ∀ p ∈ t.state.flying, p ∈ t.log
  /-- a probe in flight will report what the script says of its target -/
  due : ∀ a ∈ t.due, ∀ p ∈ t.state.flying, p.id = a.id → a.rtt = (script p.target).rtt
  /-- no appointment is made before its probe is started -/
  made : ∀ a ∈ t.due, a.id < t.state.started

theorem inv_new {c : ScanConfig} {source : Candidates}
    (hs : Candidates.Over (c.prefixes.filter c.families.allows) source) (script : Script) (rng : σ) :
    Inv c script (new source rng) where
  state := State.inv_new hs _ rng
  logged _ h := absurd h List.not_mem_nil
  due _ h := absurd h List.not_mem_nil
  made _ h := absurd h List.not_mem_nil

/-- the probes of some appointments end -/
theorem inv_finishes {c : ScanConfig} {script : Script} {t : Timed σ} (hi : Inv c script t) (as : List Appointment)
    (has : ∀ a ∈ as, a ∈ t.due) :
    Inv c script { t with state := as.foldl (fun s a => s.finish c a.id a.rtt) t.state } := by
  induction as generalizing t with
  | nil => exact hi
  | cons a as ih =>
    have hsub := State.flying_finish c t.state a.id a.rtt
    have hreport : ∀ b, t.state.report? (.finish a.id a.rtt) = some b → Scripted script t.log b := by
      intro b hb
      obtain ⟨p, hp, hid, htarget, hrtt⟩ := State.mem_of_report? hb
      refine ⟨⟨p, hi.logged p hp, htarget.symm⟩, ?_⟩
      rw [htarget, ← hi.due a (has a List.mem_cons_self) p hp hid, hrtt]
    refine ih (t := { t with state := t.state.finish c a.id a.rtt }) ⟨State.inv_finish hi.state hreport,
      fun p hp => hi.logged p (hsub hp), fun b hb p hp => hi.due b hb p (hsub hp), fun b hb => ?_⟩
      fun b hb => has b (List.mem_cons_of_mem _ hb)
    rw [State.started_finish]
    exact hi.made b hb

theorem inv_settle {c : ScanConfig} {script : Script} {t : Timed σ} (hi : Inv c script t) (now : Nat) :
    Inv c script (t.settle c now) := by
  have hdue : ∀ a ∈ t.due.filter fun a => !decide (a.time ≤ now), a ∈ t.due := fun a ha => (List.mem_filter.1 ha).1
  have h := inv_finishes hi (t.due.filter fun a => decide (a.time ≤ now)) fun a ha => (List.mem_filter.1 ha).1
  simp only [settle, List.partition_eq_filter_filter]
  exact ⟨h.state, h.logged, fun a ha => h.due a (hdue a ha), fun a ha => h.made a (hdue a ha)⟩

variable [RandomSource σ]

theorem inv_start {c : ScanConfig} (hports : c.ports ≠ []) (hps : c.prefixes.filter c.families.allows ≠ [])
    {script : Script} {t : Timed σ} (hi : Inv c script t) (now : Nat) : Inv c script (t.start c script now) := by
  by_cases hslot : t.state.hasSlot c = true
  · have hstate := State.inv_start hports hps hi.state
    have hid : (t.state.draw c).1.id = t.state.started := rfl
    simp only [start, State.start_eq hslot, hslot, if_true, List.getLast?_append, List.getLast?_singleton,
      Option.some_or] at hstate ⊢
    generalize (t.state.draw c).1 = p at hid hstate
    refine ⟨hstate.mono fun a h => h.mono fun q hq => List.mem_cons_of_mem _ hq, fun q hq => ?_, fun a ha q hq hqa => ?_,
      fun a ha => ?_⟩
    · rcases List.mem_append.1 hq with hq | hq
      · exact List.mem_cons_of_mem _ (hi.logged q hq)
      · rw [List.mem_singleton.1 hq]; exact List.mem_cons_self
    · -- the number of the new probe is not that of an earlier one
      rcases List.mem_append.1 ha with ha | ha <;> rcases List.mem_append.1 hq with hq | hq
      · exact hi.due a ha q hq hqa
      · have := hi.made a ha
        rw [List.mem_singleton.1 hq, hid] at hqa
        omega
      · have := hi.state.below q hq
        rw [List.mem_singleton.1 ha] at hqa
        simp only [hid] at hqa
        omega
      · rw [List.mem_singleton.1 ha, List.mem_singleton.1 hq]
    · rcases List.mem_append.1 ha with ha | ha
      · exact (hi.made a ha).trans (Nat.lt_succ_self _)
      · rw [List.mem_singleton.1 ha]
        exact hid.trans_lt (Nat.lt_succ_self _)
  · simp only [start, hslot]
    exact hi

theorem inv_fill {c : ScanConfig} (hports : c.ports ≠ []) (hps : c.prefixes.filter c.families.allows ≠ [])
    {script : Script} (now n : Nat) {t : Timed σ} (hi : Inv c script t) : Inv c script (t.fill c script now n) := by
  induction n generalizing t with
  | zero => exact hi
  | succ n ih => exact ih (inv_start hports hps hi now)

/-! ## The scan on a clock -/

omit [RandomSource σ] in
/-- a scan that ends well returns what is found -/
theorem found_of_verdict {c : ScanConfig} {cancel : Option Nat} {now : Nat} {t : Timed σ} {chosen : List Answer}
    (h : t.state.verdict c cancel now = some (.ok chosen)) : t.state.found? c = some chosen := by
  unfold State.verdict at h
  split_ifs at h
  · simp at h
  · split at h
    · rename_i hf
      simpa [hf] using h
    · simp at h
  · simpa using h

/-- **What a scan returns is a selection** from what its own probes reported. -/
theorem selection_of_play {c : ScanConfig} (hports : c.ports ≠ []) (hps : c.prefixes.filter c.families.allows ≠ [])
    {script : Script} (cancel : Option Nat) (now : Nat) {t : Timed σ} (hi : Inv c script t) {chosen : List Answer}
    (h : (t.play c script cancel now).outcome = .ok chosen) :
    Selection c (Scripted script (t.play c script cancel now).scan.log)
      (t.play c script cancel now).scan.state.cache.entries chosen := by
  fun_induction play c script cancel now t with
  | case1 now t outcome hv =>
    simp only at h
    rw [h] at hv
    exact State.selection_of_found hi.state (found_of_verdict hv)
  | case2 now t hv settled filled ih =>
    exact ih (inv_fill hports hps now _ (inv_settle hi now)) h

end Timed

/-! ## Scans of an engine -/

namespace Engine

theorem selection_of_scan (e : Engine) (c : ScanConfig) (script : Script) (cancel : Option Nat) {chosen : List Answer}
    (h : (e.scan c script cancel).1.outcome = .ok chosen) :
    Selection c (Scripted script (e.scan c script cancel).1.probes) (e.scan c script cancel).2.cache.entries chosen := by
  unfold scan at h ⊢
  split_ifs at h ⊢ with husable
  split at h
  · simp at h
  · rename_i source hsource
    obtain ⟨hps, hover⟩ := Candidates.over_of_new hsource
    have hports := ScanConfig.ports_ne_nil (by simpa using husable)
    have hsel := Timed.selection_of_play hports hps cancel 0 (Timed.inv_new hover script _) h
    exact hsel.mono fun a ha => ha.mono fun p hp => List.mem_reverse.2 hp

/-- one of several scans is a scan of the engine as the one before left it -/
theorem exists_of_mem_scans {c : ScanConfig} {script : Script} {cancel : Option Nat} {n : Nat} {e : Engine}
    {r : Report × Engine} (h : r ∈ e.scans c script cancel n) : ∃ e' : Engine, r = e'.scan c script cancel := by
  induction n generalizing e with
  | zero => exact absurd h List.not_mem_nil
  | succ n ih =>
    rcases List.mem_cons.1 h with h | h
    · exact ⟨e, h⟩
    · exact ih h

end Engine

/-! ## The result -/

/-- **The contract of a scan.** What a scan returns is a selection from what its own probes have reported, save for what those
of earlier scans report that were out when it began, and no entry left in the cache is faster:

- of every one of any number of scans of an engine, whatever its random source yields, in whatever order all its tasks take
  their steps, and whatever the probes report. With no probe out it is the probes of the scan alone, as for the first scan;
- of every one of any number of scans of an engine on its clock, whatever the engine did before: there the reports are those
  of the script, on targets of the scan's own probes;
- and these are scans as above, in which no probe is ever out when one begins. -/
theorem scan_contract (c : ScanConfig) :
    (∀ {ρ σ : Type} [RandomSource ρ] [RandomSource σ] (rng : ρ) (seeded : UInt64 → σ) (es : List SeriesEvent),
      ∀ d ∈ ((Series.new rng).run c seeded es).returned,
        (∀ chosen, d.outcome = .ok chosen → Selection c (Told d.reports d.earlier d.out) d.cache.entries chosen ∧
          (d.out = [] → Selection c (· ∈ d.reports) d.cache.entries chosen)) ∧
        (d.number = 0 → d.out = [])) ∧
    (∀ (e : Engine) (script : Script) (cancel : Option Nat) (n : Nat), ∀ r ∈ e.scans c script cancel n,
      ∀ chosen, r.1.outcome = .ok chosen → Selection c (Scripted script r.1.probes) r.2.cache.entries chosen) ∧
    ∀ (rng : Random.Seeded) (script : Script) (cancel : Option Nat) (n : Nat), ∃ es,
      let s : Series Random.Seeded Random.Seeded := (Series.new rng).run c Random.Seeded.ofSeed es
      s.returned.map (fun d => (d.outcome, d.cache)) =
          ((Engine.new rng).scans c script cancel n).map (fun r => (r.1.outcome, r.2.cache)) ∧
        ∀ d ∈ s.returned, d.out = [] := by
  refine ⟨?_, ?_, ?_⟩
  · intro ρ σ _ _ rng seeded es d hd
    have hsound := (Series.run_inv (Series.inv_new c rng) seeded es).returned d hd
    refine ⟨fun chosen hok => ⟨hsound.selection chosen hok, fun hout => ?_⟩, hsound.first⟩
    refine (hsound.selection chosen hok).mono fun a ha => ha.resolve_right ?_
    rintro ⟨p, hp, -⟩
    rw [hout] at hp
    exact absurd hp List.not_mem_nil
  · intro e script cancel n r hr chosen hok
    obtain ⟨e', rfl⟩ := Engine.exists_of_mem_scans hr
    exact e'.selection_of_scan c script cancel hok
  · intro rng script cancel n
    obtain ⟨es, ds, hreturned, hsame, hout⟩ := Engine.exists_run_scans c script cancel n (calm_new rng)
    have hall : ((Series.new rng).run c Random.Seeded.ofSeed es).returned = ds := hreturned
    exact ⟨es, by rw [hall, hsame], fun d hd => hout d (hall ▸ hd)⟩

/-- a scan of eight addresses for two endpoints -/
def eightAddresses : ScanConfig where
  prefixes := [.around (.ofNat .v4 0x0a000000) 29 (by decide)]
  ports := [2408, 500]

/-- a scan begins, starts so many probes, and then its tasks take these steps -/
def probing (n : Nat) (es : List TasksEvent) : List SeriesEvent :=
  .call false :: ((List.replicate n (Tasks.turn .idle)).flatten ++ es).map (.task 0)

/-- the steps of a scan that finds enough, from its look to its return -/
def returning (ranking : List Answer) : List SeriesEvent := [.wake false, .go, .rank ranking, .go, .task 0 .look, .go]

/-- the answers of three probes, the fastest first -/
def threeAnswers : List Answer := [
  ⟨.of (.ofNat .v4 0x0a000003) 2408, .ofMillis 10⟩, ⟨.of (.ofNat .v4 0x0a000005) 500, .ofMillis 20⟩,
  ⟨.of (.ofNat .v4 0x0a000000) 500, .ofMillis 30⟩]

/-- three probes, of which the last one started is the first to answer and the second one the fastest -/
def threeProbes : List SeriesEvent :=
  probing 3 (Tasks.leave 2 (some (.ofMillis 20)) ++ Tasks.leave 0 (some (.ofMillis 30)) ++
    Tasks.leave 1 (some (.ofMillis 10))) ++ returning threeAnswers

/-- a scan of which three probes answer, with given random words -/
theorem scan_contract_of_three_answers :
    let s : Series Random.Words Random.Words := (Series.new ⟨[], 7⟩).run eightAddresses (fun _ => ⟨[], 7⟩) threeProbes
    ∃ d ∈ s.returned, d.outcome = .ok (threeAnswers.take 2) ∧
      Selection eightAddresses (· ∈ d.reports) d.cache.entries (threeAnswers.take 2) := by
  intro s
  obtain ⟨d, hd, hok, hout⟩ : ∃ d ∈ s.returned, d.outcome = .ok (threeAnswers.take 2) ∧ d.out = [] := by decide +kernel
  exact ⟨d, hd, hok, (((scan_contract eightAddresses).1 _ _ threeProbes d hd).1 _ hok).2 hout⟩

/-- a scan for one endpoint -/
def hastyScan : ScanConfig := { eightAddresses with wanted := 1 }

/-- a scan that finds its endpoint while another probe has its round trip and has not recorded it yet, and the next scan, which
that probe is recorded in before any of its own is started -/
def twoScans : List SeriesEvent :=
  probing 2 (.task 1 .look :: .task 1 (.finish (some (.ofMillis 10))) :: Tasks.leave 0 (some (.ofMillis 30))) ++
    returning [⟨.of (.ofNat .v4 0x0a000000) 500, .ofMillis 30⟩] ++
    [.call false, .task 1 (.task 1 .record)] ++ returning [⟨.of (.ofNat .v4 0x0a000003) 2408, .ofMillis 10⟩]

/-- **A scan returns what a probe of an earlier one reports**: its own have not reported anything. -/
theorem late_answer_returned :
    let s : Series Random.Words Random.Words := (Series.new ⟨[], 7⟩).run hastyScan (fun _ => ⟨[], 7⟩) twoScans
    let late : Answer := ⟨.of (.ofNat .v4 0x0a000003) 2408, .ofMillis 10⟩
    ∃ d ∈ s.returned, d.number = 1 ∧ d.outcome = .ok [late] ∧ d.reports = [] ∧
      ∃ p ∈ d.out, p.target = late.target ∧ (p, .answered late.rtt) ∈ d.earlier := by decide +kernel

end EdgeTunnel.Scan
