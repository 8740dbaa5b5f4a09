/-
What the scans of one engine may return, however their tasks are interleaved.

The cache is cleared when a scan begins, but the probes of earlier scans need not have ended then. One that has not looked
since its scan was stopped is aborted; one that had looked before, and is out, may still be recorded.

- `Tasks.ProbeStep`, `Tasks.step_handle`: what a step of a probe does to its scan, and what it adds to the cache.
- `Tasks.Fit`, `Tasks.fit_step`: a scan probes eligible targets only. `Tasks.of_ended`: once its loop has ended nothing of it
  goes out any more.
- `Told`: what may stand in the cache of a scan: what its own probes have reported, and those that were out.
- `Series.Inv`: the cache holds nothing else, and every decision was taken on such a cache. `step_inv`, `run_inv`.
-/
import EdgeTunnel.Proofs.Scan.Replacement
import EdgeTunnel.Proofs.Scan.Selection
import EdgeTunnel.Scan.Series

namespace EdgeTunnel.Scan

namespace Tasks

variable {σ : Type} {c : ScanConfig} {s : Tasks σ} {t : Task}

/-! ## Steps of a probe -/

theorem mem_reports {p : Probe} {rtt : Span} (h : (p, .answered rtt) ∈ s.ends) : ⟨p.target, rtt⟩ ∈ s.reports :=
  List.mem_filterMap.2 ⟨_, h, rfl⟩

/-- what a step of the probe `t` does to its scan -/
structure ProbeStep (c : ScanConfig) (s : Tasks σ) (t : Task) (s' : Tasks σ) : Prop where
  source : s'.source = s.source
  loop : s'.loop = s.loop
  stopped : s'.stopped = s.stopped
  /-- no probe is new, and none goes out once the scan has been stopped -/
  live : ∀ x ∈ s'.live, ∃ y ∈ s.live, y.probe = x.probe ∧ (s.stopped = true → x.isOut = true → y.isOut = true)
  ends : s.ends ⊆ s'.ends
  recorded : s'.cache = s.cache ∨ ∃ rtt, t.isOut = true ∧ (t.probe, .answered rtt) ∈ s'.ends ∧
    s'.cache = (s.cache.record c.maxRtt ⟨t.probe.target, rtt⟩).2

theorem ProbeStep.refl (c : ScanConfig) (s : Tasks σ) (t : Task) : ProbeStep c s t s :=
  ⟨rfl, rfl, rfl, fun x hx => ⟨x, hx, rfl, fun _ h => h⟩, List.Subset.refl _, Or.inl rfl⟩

theorem live_move (ht : t ∈ s.live) {stage : Stage}
    (hout : s.stopped = true → ({ t with stage } : Task).isOut = true → t.isOut = true) :
    ∀ x ∈ (s.move t stage).live, ∃ y ∈ s.live,
      y.probe = x.probe ∧ (s.stopped = true → x.isOut = true → y.isOut = true) := by
  intro x hx
  obtain ⟨y, hy, rfl⟩ := List.mem_map.1 hx
  split_ifs
  · exact ⟨t, ht, rfl, hout⟩
  · exact ⟨y, hy, rfl, fun _ h => h⟩

theorem ProbeStep.move (ht : t ∈ s.live) {stage : Stage}
    (hout : s.stopped = true → ({ t with stage } : Task).isOut = true → t.isOut = true) :
    ProbeStep c s t (s.move t stage) :=
  ⟨rfl, rfl, rfl, live_move ht hout, List.Subset.refl _, Or.inl rfl⟩

theorem ProbeStep.close (ht : t ∈ s.live) (e : ProbeEnd) : ProbeStep c s t (s.close t e) :=
  ⟨rfl, rfl, rfl, live_move ht fun _ h => absurd h Bool.false_ne_true, List.subset_append_left _ _, Or.inl rfl⟩

/-- **What a step of a probe does to its scan.** -/
theorem step_handle (c : ScanConfig) (ht : t ∈ s.live) (e : TaskEvent) : ProbeStep c s t (s.handle c t e) := by
  cases e with
  | look =>
    simp only [handle]
    split_ifs with hstage hstopped
    · exact .close ht .aborted
    · exact .move ht fun h => absurd h hstopped
    · exact .refl c s t
  | wait =>
    simp only [handle]
    split_ifs
    · exact .move ht fun _ h => absurd h Bool.false_ne_true
    · exact .refl c s t
  | finish rtt =>
    simp only [handle]
    split_ifs with hstage
    · cases rtt with
      | some rtt => exact .move ht fun _ _ => by rw [Task.isOut, hstage]
      | none => exact .close ht .failed
    · exact .refl c s t
  | record =>
    simp only [handle]
    split
    · rename_i rtt hstage
      have hout : t.isOut = true := by rw [Task.isOut, hstage]
      have hends : (t.probe, .answered rtt) ∈ s.ends ++ [(t.probe, .answered rtt)] :=
        List.mem_append_right _ (List.mem_singleton_self _)
      exact ⟨rfl, rfl, rfl, live_move ht fun _ h => absurd h Bool.false_ne_true, List.subset_append_left _ _,
        Or.inr ⟨rtt, hout, hends, rfl⟩⟩
    · exact .refl c s t
  | release =>
    simp only [handle]
    split_ifs
    · refine ⟨rfl, rfl, rfl, fun x hx => ?_, List.Subset.refl _, Or.inl rfl⟩
      exact ⟨x, (List.mem_filter.1 hx).1, rfl, fun _ h => h⟩
    · exact .refl c s t

/-! ## Steps of a scan -/

/-- are all targets of a scan eligible, those of its probes and those to come? -/
structure Fit (c : ScanConfig) (s : Tasks σ) : Prop where
  ports : c.ports ≠ []
  prefixes : c.prefixes.filter c.families.allows ≠ []
  source : Candidates.Over (c.prefixes.filter c.families.allows) s.source
  targets : ∀ x ∈ s.live, Eligible c x.probe.target
  ended : s.loop = .ended → s.stopped = true

theorem fit_new (husable : c.isUsable = true) {source : Candidates}
    (hsource : Candidates.new c.prefixes c.families = .ok source) (rng : σ) (stopped : Bool) :
    Fit c { new c source rng with stopped } := by
  obtain ⟨hprefixes, hover⟩ := Candidates.over_of_new hsource
  exact ⟨ScanConfig.ports_ne_nil husable, hprefixes, hover, fun x hx => absurd hx List.not_mem_nil, fun h => by cases h⟩

variable [RandomSource σ]

theorem fit_step (h : Fit c s) (e : TasksEvent) : Fit c (s.step c e) := by
  cases e with
  | look =>
    simp only [step]
    split_ifs with hloop hstopped
    · exact ⟨h.ports, h.prefixes, h.source, h.targets, fun _ => hstopped⟩
    · exact ⟨h.ports, h.prefixes, h.source, h.targets, fun h => by cases h⟩
    · exact h
  | take =>
    simp only [step]
    split_ifs
    · exact ⟨h.ports, h.prefixes, h.source, h.targets, fun h => by cases h⟩
    · exact ⟨h.ports, h.prefixes, h.source, h.targets, fun h => by cases h⟩
    · exact h
  | start =>
    simp only [step]
    split_ifs
    · obtain ⟨-, htarget, hover⟩ := State.draw_spec h.ports h.prefixes (s := s.toState) h.source
      refine ⟨h.ports, h.prefixes, hover, fun x hx => ?_, fun h => by cases h⟩
      rcases List.mem_append.1 hx with hx | hx
      · exact h.targets x hx
      · rw [List.mem_singleton.1 hx]
        exact htarget
    · exact h
  | task n e =>
    simp only [step]
    split
    · rename_i t hf
      have hstep := step_handle c (List.mem_of_find?_eq_some hf) e
      refine ⟨h.ports, h.prefixes, hstep.source ▸ h.source, fun x hx => ?_, fun hended => ?_⟩
      · obtain ⟨y, hy, hprobe, -⟩ := hstep.live x hx
        exact hprobe ▸ h.targets y hy
      · rw [hstep.loop] at hended
        rw [hstep.stopped]
        exact h.ended hended
    · exact h
  | stop => exact ⟨h.ports, h.prefixes, h.source, h.targets, fun _ => rfl⟩

/-- **A scan whose loop has ended** has no new probes, and none of its probes goes out. -/
theorem of_ended (h : Fit c s) (hended : s.loop = .ended) {e : TasksEvent} (he : e ≠ .stop) :
    (s.step c e).loop = .ended ∧
      ∀ x ∈ (s.step c e).live, x.isOut = true → ∃ y ∈ s.live, y.probe = x.probe ∧ y.isOut = true := by
  have hsame : s.loop = .ended ∧ ∀ x ∈ s.live, x.isOut = true → ∃ y ∈ s.live, y.probe = x.probe ∧ y.isOut = true :=
    ⟨hended, fun x hx hout => ⟨x, hx, rfl, hout⟩⟩
  cases e with
  | look | take | start => simpa [step, hended] using hsame
  | task n e =>
    simp only [step]
    split
    · rename_i t hf
      have hstep := step_handle c (List.mem_of_find?_eq_some hf) e
      refine ⟨hstep.loop.trans hended, fun x hx hout => ?_⟩
      obtain ⟨y, hy, hprobe, hkept⟩ := hstep.live x hx
      exact ⟨y, hy, hprobe, hkept (h.ended hended) hout⟩
    · exact hsame
  | stop => exact absurd rfl he

/-- **What a step adds to the cache**: nothing, or what a probe that is out has reported. -/
theorem recorded_step (c : ScanConfig) (s : Tasks σ) (e : TasksEvent) :
    s.ends ⊆ (s.step c e).ends ∧ ((s.step c e).cache = s.cache ∨ ∃ x ∈ s.live, ∃ rtt, x.isOut = true ∧
      (x.probe, .answered rtt) ∈ (s.step c e).ends ∧
      (s.step c e).cache = (s.cache.record c.maxRtt ⟨x.probe.target, rtt⟩).2) := by
  cases e with
  | look | take | start =>
    simp only [step]
    split_ifs <;> exact ⟨List.Subset.refl _, Or.inl rfl⟩
  | task n e =>
    simp only [step]
    split
    · rename_i t hf
      have ht := List.mem_of_find?_eq_some hf
      have hstep := step_handle c ht e
      exact ⟨hstep.ends, hstep.recorded.imp_right fun h => ⟨t, ht, h⟩⟩
    · exact ⟨List.Subset.refl _, Or.inl rfl⟩
  | stop => exact ⟨List.Subset.refl _, Or.inl rfl⟩

end Tasks

theorem Cache.size_le_record (cache : Cache) (limit : Span) (a : Answer) :
    cache.size ≤ (cache.record limit a).2.size := by
  simp only [size, record]
  split_ifs
  · simp
  · exact le_rfl

/-! ## What may be counted -/

/-- may an answer stand in the cache of a scan, when its own probes have reported this, those of earlier scans have ended like
that, and these of them were out when it began? -/
def Told (reports : List Answer) (earlier : List (Probe × ProbeEnd)) (out : List Probe) (a : Answer) : Prop :=
  a ∈ reports ∨ ∃ p ∈ out, ∃ rtt, (p, .answered rtt) ∈ earlier ∧ a = ⟨p.target, rtt⟩

theorem Told.mono {reports reports' : List Answer} {earlier earlier' : List (Probe × ProbeEnd)} {out : List Probe}
    (hreports : reports ⊆ reports') (hearlier : earlier ⊆ earlier') {a : Answer} (h : Told reports earlier out a) :
    Told reports' earlier' out a := by
  rcases h with h | ⟨p, hp, rtt, hend, ha⟩
  · exact Or.inl (hreports h)
  · exact Or.inr ⟨p, hp, rtt, hearlier hend, ha⟩

/-- is a decision as it should be? -/
structure Decision.Sound (c : ScanConfig) (d : Decision) : Prop where
  selection : ∀ chosen, d.outcome = .ok chosen →
    Selection c (Told d.reports d.earlier d.out) d.cache.entries chosen
  first : d.number = 0 → d.out = []

theorem Decision.sound_error (c : ScanConfig) {d : Decision} {e : ScanError} (he : d.outcome = .error e) (hout : d.out = []) :
    d.Sound c :=
  ⟨fun chosen h => absurd (he.symm.trans h) (by simp), fun _ => hout⟩

/-- the decision that a scan has come to -/
def Runner.decision? : Runner → Option Decision
  | .stopping d => some d
  | .joining d => some d
  | _ => none

namespace Series

variable {ρ σ : Type} {c : ScanConfig} {s : Series ρ σ}

/-! ## The invariant -/

structure Inv (c : ScanConfig) (s : Series ρ σ) : Prop where
  fit : ∀ t ∈ s.scans, t.Fit c
  /-- an earlier scan has no loop, and its probes that are out are known -/
  earlier : ∀ t ∈ s.scans.drop 1, t.loop = .ended ∧ ∀ x ∈ t.live, x.isOut = true → x.probe ∈ s.out
  resting : s.runner = .resting → ∀ t ∈ s.scans, t.loop = .ended
  cache : s.cache.Inv c (Told s.reports s.earlier s.out)
  /-- enough have answered as long as a scan ranks -/
  enough : s.runner = .ranking → c.wanted ≤ s.cache.size
  first : s.scans.length ≤ 1 → s.out = []
  pending : ∀ d, s.runner.decision? = some d → d.Sound c
  returned : ∀ d ∈ s.returned, d.Sound c

theorem inv_new (c : ScanConfig) (rng : ρ) : Inv c (new rng : Series ρ σ) where
  fit _ h := absurd h List.not_mem_nil
  earlier _ h := absurd h List.not_mem_nil
  resting _ _ h := absurd h List.not_mem_nil
  cache := Cache.inv_empty c _
  enough h := by cases h
  first _ := rfl
  pending _ h := by cases h
  returned _ h := absurd h List.not_mem_nil

/-! ## Steps of a scan -/

theorem Inv.setRunner (hi : Inv c s) {runner : Runner} (hresting : runner = .resting → ∀ t ∈ s.scans, t.loop = .ended)
    (henough : runner = .ranking → c.wanted ≤ s.cache.size) (hpending : ∀ d, runner.decision? = some d → d.Sound c) :
    Inv c { s with runner } :=
  ⟨hi.fit, hi.earlier, hresting, hi.cache, henough, hi.first, hpending, hi.returned⟩

theorem inv_settle (hi : Inv c s) {outcome : Except ScanError (List Answer)}
    (h : ∀ chosen, outcome = .ok chosen → Selection c (Told s.reports s.earlier s.out) s.cache.entries chosen) :
    Inv c (s.settle outcome) := by
  refine hi.setRunner (fun h => by cases h) (fun h => by cases h) fun d hd => ?_
  cases hd
  exact ⟨h, fun hnumber => hi.first (Nat.sub_eq_zero_iff_le.1 hnumber)⟩

theorem inv_refuse (hi : Inv c s) (e : ScanError) : Inv c (s.refuse e) := by
  refine ⟨hi.fit, hi.earlier, hi.resting, hi.cache, hi.enough, hi.first, hi.pending, fun d hd => ?_⟩
  rcases List.mem_append.1 hd with hd | hd
  · exact hi.returned d hd
  · rw [List.mem_singleton.1 hd]
    exact Decision.sound_error c rfl rfl

theorem inv_stopLatest (hi : Inv c s) : Inv c s.stopLatest := by
  obtain ⟨rng, cache, scans, out, runner, canceled, returned⟩ := s
  cases scans with
  | nil => exact hi
  | cons t ts =>
    obtain ⟨hfit, hfits⟩ := List.forall_mem_cons.1 hi.fit
    refine ⟨List.forall_mem_cons.2 ⟨?_, hfits⟩, hi.earlier, fun h => ?_, hi.cache, hi.enough, hi.first, hi.pending,
      hi.returned⟩
    · exact ⟨hfit.ports, hfit.prefixes, hfit.source, hfit.targets, fun _ => rfl⟩
    · obtain ⟨hended, hall⟩ := List.forall_mem_cons.1 (hi.resting h)
      exact List.forall_mem_cons.2 ⟨hended, hall⟩

theorem inv_go (hi : Inv c s) : Inv c (s.go c) := by
  unfold go
  split
  · split_ifs with henough
    · exact hi.setRunner (fun h => by cases h) (fun _ => henough) fun d hd => by cases hd
    · exact hi.setRunner (fun h => by cases h) (fun h => by cases h) fun d hd => by cases hd
    · exact hi.setRunner (fun h => by cases h) (fun h => by cases h) fun d hd => by cases hd
  · exact inv_settle hi (by rintro _ ⟨⟩)
  · rename_i d hd
    refine (inv_stopLatest hi).setRunner (fun h => by cases h) (fun h => by cases h) ?_
    rintro _ ⟨⟩
    exact hi.pending d (by rw [hd]; rfl)
  · rename_i d hd
    split_ifs with hended
    · refine ⟨hi.fit, hi.earlier, fun _ t ht => ?_, hi.cache, fun h => ?_, hi.first, fun _ h => ?_, fun e he => ?_⟩
      · -- the loop of the latest scan has just ended, and the others had before
        rw [← List.take_append_drop 1 s.scans, List.mem_append, List.take_one] at ht
        rcases ht with ht | ht
        · simpa using (Option.all_eq_true _ _).1 hended t (Option.mem_toList.1 ht)
        · exact (hi.earlier t ht).1
      · cases h
      · cases h
      · rcases List.mem_append.1 he with he | he
        · exact hi.returned e he
        · rw [List.mem_singleton.1 he]
          exact hi.pending d (by rw [hd]; rfl)
    · exact hi
  · exact hi

theorem inv_rank (hi : Inv c s) (henough : c.wanted ≤ s.cache.size) {ranking : List Answer}
    (hranking : s.cache.IsRanking ranking) : Inv c (s.settle (.ok (ranking.take c.wanted))) := by
  refine inv_settle hi ?_
  rintro _ ⟨⟩
  exact selection_of_ranking hi.cache ranking hranking.1 hranking.2 henough

variable [RandomSource σ]

/-! ## Steps of the tasks -/

/-- the cache after a step of a task -/
theorem cache_step {t : Tasks σ} {told told' : Answer → Prop} (hfit : t.Fit c) (hi : t.cache.Inv c told) {e : TasksEvent}
    (hold : ∀ a, told a → told' a)
    (hnew : ∀ x ∈ t.live, x.isOut = true → ∀ rtt, (x.probe, .answered rtt) ∈ (t.step c e).ends →
      told' ⟨x.probe.target, rtt⟩) :
    (t.step c e).cache.Inv c told' := by
  rcases (t.recorded_step c e).2 with hcache | ⟨x, hx, rtt, hout, hend, hcache⟩
  · rw [hcache]
    exact hi.mono hold
  · rw [hcache]
    exact Cache.inv_record (hi.mono hold) (hnew x hx hout rtt hend) (hfit.targets x hx)

theorem size_le_step (t : Tasks σ) (e : TasksEvent) : t.cache.size ≤ (t.step c e).cache.size := by
  rcases (t.recorded_step c e).2 with hcache | ⟨x, -, rtt, -, -, hcache⟩
  · rw [hcache]
  · rw [hcache]
    exact Cache.size_le_record _ _ _

omit [RandomSource σ] in
/-- the ends of the probes of several scans grow with those of one of them -/
theorem ends_set {ts : List (Tasks σ)} {n : Nat} {t t' : Tasks σ} (ht : ts[n]? = some t) (h : t.ends ⊆ t'.ends) :
    ts.flatMap (·.ends) ⊆ (ts.set n t').flatMap (·.ends) := by
  intro x hx
  obtain ⟨u, hu, hx⟩ := List.mem_flatMap.1 hx
  obtain ⟨i, hi⟩ := List.mem_iff_getElem?.1 hu
  refine List.mem_flatMap.2 ?_
  by_cases hin : i = n
  · subst hin
    rw [hi] at ht
    cases ht
    exact ⟨t', List.mem_set (List.getElem?_eq_some_iff.1 hi).1 t', h hx⟩
  · have hother : (ts.set n t')[i]? = some u := by rw [List.getElem?_set_ne (Ne.symm hin), hi]
    exact ⟨u, List.mem_of_getElem? hother, hx⟩

omit [RandomSource σ] in
/-- the tasks of every scan record in the cache of the engine -/
theorem Inv.fit_shared (hi : Inv c s) {t : Tasks σ} (ht : t ∈ s.scans) : ({ t with cache := s.cache } : Tasks σ).Fit c :=
  have h := hi.fit t ht
  ⟨h.ports, h.prefixes, h.source, h.targets, h.ended⟩

section

variable {rng : ρ} {cache : Cache} {t u : Tasks σ} {ts : List (Tasks σ)} {out : List Probe} {runner : Runner}
  {canceled : Bool} {returned : List Decision}

/-- a step of a task of the latest scan -/
theorem inv_task_latest (hi : Inv c ⟨rng, cache, t :: ts, out, runner, canceled, returned⟩) {e : TasksEvent}
    (he : e ≠ .stop) :
    let t' := { t with cache }.step c e
    Inv c ⟨rng, t'.cache, t' :: ts, out, runner, canceled, returned⟩ := by
  intro t'
  have hfit : ({ t with cache } : Tasks σ).Fit c := hi.fit_shared List.mem_cons_self
  have hgrows : t.reports ⊆ t'.reports := List.filterMap_subset _ (Tasks.recorded_step c { t with cache } e).1
  refine ⟨List.forall_mem_cons.2 ⟨Tasks.fit_step hfit e, (List.forall_mem_cons.1 hi.fit).2⟩, hi.earlier, fun hresting => ?_,
    cache_step hfit hi.cache (fun a ha => ha.mono ?_ (List.Subset.refl _)) fun x _ _ rtt hend => ?_, fun hranking => ?_,
    hi.first, hi.pending, hi.returned⟩
  · obtain ⟨hended, hothers⟩ := List.forall_mem_cons.1 (hi.resting hresting)
    exact List.forall_mem_cons.2 ⟨(Tasks.of_ended hfit hended he).1, hothers⟩
  · simpa [reports] using hgrows
  · exact Or.inl (by simpa [reports] using Tasks.mem_reports hend)
  · exact (hi.enough hranking).trans (size_le_step { t with cache } e)

/-- a step of a task of an earlier scan: what it adds to the cache was out -/
theorem inv_task_earlier (hi : Inv c ⟨rng, cache, t :: ts, out, runner, canceled, returned⟩) {n : Nat}
    (hu : ts[n]? = some u) {e : TasksEvent} (he : e ≠ .stop) :
    let u' := { u with cache }.step c e
    Inv c ⟨rng, u'.cache, t :: ts.set n u', out, runner, canceled, returned⟩ := by
  intro u'
  have hmem : u ∈ ts := List.mem_of_getElem? hu
  have hfit : ({ u with cache } : Tasks σ).Fit c := hi.fit_shared (List.mem_cons_of_mem t hmem)
  have hgrows : ts.flatMap (·.ends) ⊆ (ts.set n u').flatMap (·.ends) :=
    ends_set hu (Tasks.recorded_step c { u with cache } e).1
  obtain ⟨hended, hout⟩ := hi.earlier u hmem
  obtain ⟨hended', hout'⟩ := Tasks.of_ended hfit hended he
  obtain ⟨hfitt, hfits⟩ := List.forall_mem_cons.1 hi.fit
  refine ⟨List.forall_mem_cons.2 ⟨hfitt, fun v hv => ?_⟩, fun v hv => ?_, fun hresting => ?_,
    cache_step hfit hi.cache (fun a ha => ha.mono (List.Subset.refl _) hgrows) fun x hx hxout rtt hend => ?_,
    fun hranking => ?_, fun hlength => hi.first (by simpa using hlength), hi.pending, hi.returned⟩
  · rcases List.mem_or_eq_of_mem_set hv with hv | rfl
    · exact hfits v hv
    · exact Tasks.fit_step hfit e
  · rcases List.mem_or_eq_of_mem_set hv with hv | rfl
    · exact hi.earlier v hv
    · refine ⟨hended', fun x hx hxout => ?_⟩
      obtain ⟨y, hy, hprobe, hyout⟩ := hout' x hx hxout
      exact hprobe ▸ hout y hy hyout
  · refine List.forall_mem_cons.2 ⟨(List.forall_mem_cons.1 (hi.resting hresting)).1, fun v hv => ?_⟩
    rcases List.mem_or_eq_of_mem_set hv with hv | rfl
    · exact (hi.earlier v hv).1
    · exact hended'
  · have hset : u' ∈ ts.set n u' := List.mem_set (List.getElem?_eq_some_iff.1 hu).1 u'
    exact Or.inr ⟨x.probe, hout x hx hxout, rtt, List.mem_flatMap.2 ⟨u', hset, hend⟩, rfl⟩
  · exact (hi.enough hranking).trans (size_le_step { u with cache } e)

end

/-- **A step of a task keeps the invariant**, whichever scan it belongs to. -/
theorem inv_task (hi : Inv c s) {n : Nat} {t : Tasks σ} (ht : s.scans[n]? = some t) {e : TasksEvent} (he : e ≠ .stop) :
    let t' := { t with cache := s.cache }.step c e
    Inv c { s with cache := t'.cache, scans := s.scans.set n t' } := by
  obtain ⟨rng, cache, scans, out, runner, canceled, returned⟩ := s
  cases scans with
  | nil => cases ht
  | cons u us =>
    cases n with
    | zero =>
      cases ht
      exact inv_task_latest hi he
    | succ n => exact inv_task_earlier hi ht he

/-! ## Steps of an engine -/

variable [RandomSource ρ]

omit [RandomSource σ] in
theorem inv_call (hi : Inv c s) (hresting : s.runner = .resting) (seeded : UInt64 → σ) (canceled : Bool) :
    Inv c (s.call c seeded canceled) := by
  unfold call
  split_ifs with husable
  · exact inv_refuse hi _
  · split
    · have hcleared : Inv c { s with cache := .empty } :=
        ⟨hi.fit, hi.earlier, hi.resting, Cache.inv_empty c _, fun h => absurd (hresting.symm.trans h) (by simp), hi.first,
          hi.pending, hi.returned⟩
      exact inv_refuse hcleared _
    · rename_i source hsource
      have hnew : ({ Tasks.new c source (seeded (RandomSource.word64 s.rng).1) with stopped := canceled } : Tasks σ).Fit c :=
        Tasks.fit_new (by simpa using husable) hsource _ canceled
      refine ⟨List.forall_mem_cons.2 ⟨hnew, hi.fit⟩, fun t ht => ?_, fun h => ?_, Cache.inv_empty c _, fun h => ?_,
        fun hlength => ?_, fun d hd => ?_, hi.returned⟩
      · refine ⟨hi.resting hresting t ht, fun x hx hout => ?_⟩
        exact List.mem_flatMap.2 ⟨t, ht, List.mem_map_of_mem (List.mem_filter.2 ⟨hx, hout⟩)⟩
      · cases h
      · cases h
      · -- the first scan has none before it
        have hnone : s.scans = [] := List.eq_nil_of_length_eq_zero (by simpa using hlength)
        rw [hnone]
        rfl
      · cases hd

/-- **One step of an engine keeps the invariant.** -/
theorem step_inv (hi : Inv c s) (seeded : UInt64 → σ) (e : SeriesEvent) : Inv c (s.step c seeded e) := by
  cases e with
  | call canceled =>
    simp only [step]
    split
    · rename_i hresting
      exact inv_call hi hresting seeded canceled
    · exact hi
  | cancel =>
    have h := inv_stopLatest hi
    exact ⟨h.fit, h.earlier, h.resting, h.cache, h.enough, h.first, h.pending, h.returned⟩
  | wake last =>
    simp only [step]
    split
    · split_ifs
      · exact inv_settle hi (by rintro _ ⟨⟩)
      · exact hi.setRunner (fun h => by cases h) (fun h => by cases h) fun d hd => by cases hd
    · exact hi
  | go => exact inv_go hi
  | rank ranking =>
    simp only [step]
    split
    · rename_i hranking
      split_ifs with horder
      · exact inv_rank hi (hi.enough hranking) horder
      · exact hi
    · exact hi
  | task n e =>
    simp only [step]
    split
    · rename_i t ht
      split_ifs with he
      · exact hi
      · exact inv_task hi ht he
    · exact hi

theorem run_inv (hi : Inv c s) (seeded : UInt64 → σ) (es : List SeriesEvent) : Inv c (s.run c seeded es) := by
  induction es generalizing s with
  | nil => exact hi
  | cons e es ih => exact ih (step_inv hi seeded e)

end Series

end EdgeTunnel.Scan
