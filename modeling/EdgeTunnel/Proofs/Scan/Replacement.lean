/-
How probes are replaced, and what a stop ends.

Until a scan is stopped its loop starts a probe whenever it has its turn and a slot is free, whatever the probes do meanwhile;
and no probe is started without a slot. So for each probe that gives its slot back there is one more, and no other.

- `Aside`: the steps of the probes leave the loop alone. `frame_task`.
- `turn_step`, `started_lt_run`: a turn of the loop starts a probe if there is a slot for it, however the turn is interleaved.
  `started_turns`: so do many turns, until no slot is free.
- `stopped_step`, `stopped_run`: after a stop one probe more is started at most, and `ended_run`: none once the loop has seen
  the stop.
- `aborted_unreported`: a probe that was aborted has reported nothing.
- `peak_le`: on the clock there are never more probes in flight than slots.
- `slots_kept`: the results.
-/
import EdgeTunnel.Proofs.Scan.Tasks

namespace EdgeTunnel.Scan

namespace Tasks

variable {σ : Type} {c : ScanConfig} {s : Tasks σ}

/-! ## Steps beside the loop -/

/-- does a step leave the loop alone, taking no slot? -/
structure Aside (s s' : Tasks σ) : Prop where
  loop : s'.loop = s.loop
  started : s'.started = s.started
  stopped : s'.stopped = s.stopped
  free : s.free ≤ s'.free
  released : s.released <+: s'.released

theorem Aside.refl (s : Tasks σ) : Aside s s := ⟨rfl, rfl, rfl, le_rfl, List.prefix_refl _⟩

theorem aside_move (s : Tasks σ) (t : Task) (stage : Stage) : Aside s (s.move t stage) :=
  ⟨rfl, rfl, rfl, le_rfl, List.prefix_refl _⟩

theorem aside_close (s : Tasks σ) (t : Task) (e : ProbeEnd) (cache : Cache) : Aside s { s.close t e with cache } :=
  ⟨rfl, rfl, rfl, le_rfl, List.prefix_refl _⟩

theorem frame_handle (c : ScanConfig) (s : Tasks σ) (t : Task) (e : TaskEvent) : Aside s (s.handle c t e) := by
  cases e with
  | look =>
    simp only [handle]
    split_ifs
    · exact aside_close s t .aborted s.cache
    · exact aside_move s t .going
    · exact .refl s
  | wait =>
    simp only [handle]
    split_ifs
    · exact aside_move s t .waiting
    · exact .refl s
  | finish rtt =>
    simp only [handle]
    split_ifs
    · cases rtt with
      | some rtt => exact aside_move s t (.answered rtt)
      | none => exact aside_close s t .failed s.cache
    · exact .refl s
  | record =>
    simp only [handle]
    split
    · exact aside_close s t _ _
    · exact .refl s
  | release =>
    simp only [handle]
    split_ifs
    · exact ⟨rfl, rfl, rfl, Nat.le_succ _, List.prefix_append _ _⟩
    · exact .refl s

variable [RandomSource σ]

/-- **The steps of a probe leave the loop alone.** -/
theorem frame_task (c : ScanConfig) (s : Tasks σ) (n : Nat) (e : TaskEvent) : Aside s (s.step c (.task n e)) := by
  simp only [step]
  cases s.live.find? (·.probe.id = n) with
  | none => exact .refl s
  | some t => exact s.frame_handle c t e

/-- what only grows -/
theorem grows_step (c : ScanConfig) (s : Tasks σ) (e : TasksEvent) :
    s.started ≤ (s.step c e).started ∧ s.released <+: (s.step c e).released := by
  cases e with
  | look =>
    simp only [step]
    split_ifs
    · exact ⟨le_rfl, List.prefix_refl _⟩
    · exact ⟨le_rfl, List.prefix_refl _⟩
    · exact ⟨le_rfl, List.prefix_refl _⟩
  | take =>
    simp only [step]
    split_ifs
    · exact ⟨le_rfl, List.prefix_refl _⟩
    · exact ⟨le_rfl, List.prefix_refl _⟩
    · exact ⟨le_rfl, List.prefix_refl _⟩
  | start =>
    simp only [step]
    split_ifs
    · exact ⟨Nat.le_succ _, List.prefix_refl _⟩
    · exact ⟨le_rfl, List.prefix_refl _⟩
  | task n e =>
    have h := s.frame_task c n e
    exact ⟨h.started.ge, h.released⟩
  | stop => exact ⟨le_rfl, List.prefix_refl _⟩

theorem run_cons (c : ScanConfig) (s : Tasks σ) (e : TasksEvent) (es : List TasksEvent) :
    s.run c (e :: es) = (s.step c e).run c es := rfl

theorem run_append (c : ScanConfig) (s : Tasks σ) (es fs : List TasksEvent) :
    s.run c (es ++ fs) = (s.run c es).run c fs := List.foldl_append

theorem grows_run (c : ScanConfig) (s : Tasks σ) (es : List TasksEvent) :
    s.started ≤ (s.run c es).started ∧ s.released <+: (s.run c es).released := by
  induction es generalizing s with
  | nil => exact ⟨le_rfl, List.prefix_refl _⟩
  | cons e es ih =>
    obtain ⟨hstarted, hreleased⟩ := s.grows_step c e
    obtain ⟨hstarted', hreleased'⟩ := ih (s.step c e)
    exact ⟨hstarted.trans hstarted', hreleased.trans hreleased'⟩

theorem stopped_eq_step {e : TasksEvent} (he : e ≠ .stop) : (s.step c e).stopped = s.stopped := by
  cases e with
  | look =>
    simp only [step]
    split_ifs <;> rfl
  | take =>
    simp only [step]
    split_ifs <;> rfl
  | start =>
    simp only [step]
    split_ifs <;> rfl
  | task n e => exact (s.frame_task c n e).stopped
  | stop => exact absurd rfl he

theorem stopped_eq_run {es : List TasksEvent} (hes : .stop ∉ es) : (s.run c es).stopped = s.stopped := by
  induction es generalizing s with
  | nil => rfl
  | cons e es ih =>
    rw [List.mem_cons, not_or] at hes
    obtain ⟨he, hes⟩ := hes
    rw [run_cons, ih hes]
    exact stopped_eq_step fun h => he h.symm

/-! ## Turns of the loop -/

/-- the steps that take the loop to the start of its next probe -/
def turn : StartLoop → List TasksEvent
  | .idle => [.look, .take, .start]
  | .taking => [.take, .start]
  | .holding => [.start]
  | .ended => []

/-- does the loop go on, with a slot for the next probe? -/
structure Spare (s : Tasks σ) : Prop where
  running : s.stopped = false
  loop : s.loop ≠ .ended
  slot : 0 < s.free + s.loop.slots

/-- where the next step of the turn fits -/
theorem head?_turn (l : StartLoop) :
    ((turn l).head? = some .look → l = .idle) ∧ ((turn l).head? = some .take → l = .taking) ∧
      ((turn l).head? = some .start → l = .holding) ∧ ∀ n e, (turn l).head? ≠ some (.task n e) := by
  cases l <;> simp [turn]

/-- a step that is not the next one of the turn leaves the turn to come -/
theorem turn_of_ne {l : StartLoop} {e : TasksEvent} {es : List TasksEvent} (h : (turn l).Sublist (e :: es))
    (hne : (turn l).head? ≠ some e) : (turn l).Sublist es := by
  cases l with
  | ended => exact List.nil_sublist es
  | _ => exact List.Sublist.of_cons_of_ne (fun heq => hne (congrArg some heq)) h

/-- **A step brings the start of the next probe nearer**, or leaves it as near as it was. -/
theorem turn_step (h : Spare s) {e : TasksEvent} (he : e ≠ .stop) {es : List TasksEvent}
    (hturn : (turn s.loop).Sublist (e :: es)) :
    s.started < (s.step c e).started ∨ Spare (s.step c e) ∧ (turn (s.step c e).loop).Sublist es := by
  cases e with
  | look =>
    right
    by_cases hloop : s.loop = .idle
    · have hslot := h.slot
      rw [hloop] at hturn hslot
      have hstep : s.step c .look = { s with loop := .taking } := by simp [step, hloop, h.running]
      rw [hstep]
      exact ⟨⟨h.running, by simp, hslot⟩, List.Sublist.tail hturn⟩
    · simp only [step, if_neg hloop]
      exact ⟨h, turn_of_ne hturn fun hhead => hloop ((head?_turn s.loop).1 hhead)⟩
  | take =>
    right
    by_cases hloop : s.loop = .taking
    · have hfree : 0 < s.free := by
        have hslot := h.slot
        rw [hloop] at hslot
        exact hslot
      rw [hloop] at hturn
      simp only [step, hloop, hfree, if_true]
      exact ⟨⟨h.running, by simp, Nat.succ_pos _⟩, List.Sublist.tail hturn⟩
    · simp only [step, if_neg hloop]
      exact ⟨h, turn_of_ne hturn fun hhead => hloop ((head?_turn s.loop).2.1 hhead)⟩
  | start =>
    by_cases hloop : s.loop = .holding
    · left
      simp only [step, hloop, if_true]
      exact Nat.lt_succ_self _
    · right
      simp only [step, if_neg hloop]
      exact ⟨h, turn_of_ne hturn fun hhead => hloop ((head?_turn s.loop).2.2.1 hhead)⟩
  | task n e =>
    right
    have haside := s.frame_task c n e
    refine ⟨⟨haside.stopped.trans h.running, haside.loop ▸ h.loop, ?_⟩, ?_⟩
    · rw [haside.loop]
      exact h.slot.trans_le (Nat.add_le_add_right haside.free _)
    · rw [haside.loop]
      exact turn_of_ne hturn ((head?_turn s.loop).2.2.2 n e)
  | stop => exact absurd rfl he

/-- **A turn of the loop starts a probe** when a slot is free for it, whatever comes between the steps of the turn. -/
theorem started_lt_run (h : Spare s) {es : List TasksEvent} (hes : .stop ∉ es) (hturn : (turn s.loop).Sublist es) :
    s.started < (s.run c es).started := by
  induction es generalizing s with
  | nil =>
    have hnone : turn s.loop = [] := List.sublist_nil.1 hturn
    cases hloop : s.loop with
    | ended => exact absurd hloop h.loop
    | _ => simp [hloop, turn] at hnone
  | cons e es ih =>
    rw [List.mem_cons, not_or] at hes
    obtain ⟨he, hes⟩ := hes
    rcases turn_step (c := c) h (fun heq => he heq.symm) hturn with hlt | ⟨hspare, hrest⟩
    · exact hlt.trans_le ((s.step c e).grows_run c es).1
    · exact (s.grows_step c e).1.trans_lt (ih hspare hes hrest)

omit [RandomSource σ] in
/-- what was started has a slot of its own, or has given it back -/
theorem Inv.started_eq (hi : Inv c s) : s.started = s.released.length + s.live.length := by
  have hlength := hi.once.length_eq
  rwa [List.length_append, List.length_map, List.length_range, eq_comm] at hlength

/-- **Many turns of the loop** start as many probes, as long as a slot is free. -/
theorem started_turns (hi : Inv c s) (hrunning : s.stopped = false) {es : List TasksEvent} (hes : .stop ∉ es) (n : Nat)
    (hturns : (List.replicate n (turn .idle)).flatten.Sublist es) :
    min (s.started + n) (c.concurrency + s.released.length) ≤ (s.run c es).started := by
  induction n generalizing s es with
  | zero => exact (Nat.min_le_left _ _).trans (s.grows_run c es).1
  | succ n ih =>
    rw [List.replicate_succ, List.flatten_cons, List.append_sublist_iff] at hturns
    obtain ⟨first, later, rfl, hfirst, hlater⟩ := hturns
    rw [List.mem_append, not_or] at hes
    obtain ⟨hes, hes'⟩ := hes
    have hrest := ih (run_inv hi first) ((stopped_eq_run hes).trans hrunning) hes' hlater
    have hreleased := (s.grows_run c first).2.length_le
    have hstarted := hi.started_eq
    have hslots := hi.slots
    rw [run_append]
    -- either all slots are taken, or the first turn starts a probe
    by_cases hfree : 0 < s.free + s.loop.slots
    · have hloop : s.loop ≠ .ended := fun h => by simp [hi.ended h] at hrunning
      have hturn : (turn s.loop).Sublist first := by
        refine List.Sublist.trans ?_ hfirst
        cases s.loop <;> decide
      have hnext := started_lt_run (c := c) ⟨hrunning, hloop, hfree⟩ hes hturn
      omega
    · have hgrows := (s.grows_run c first).1
      omega

/-! ## After a stop -/

/-- how many probes the loop may still start although the scan has been stopped: the one that it has a slot for, or asks for
one -/
def pending : StartLoop → Nat
  | .taking => 1
  | .holding => 1
  | _ => 0

theorem pending_le (l : StartLoop) : pending l ≤ 1 := by
  cases l <;> decide

/-- one step of a scan that has been stopped -/
theorem stopped_step (h : s.stopped = true) (e : TasksEvent) :
    (s.step c e).stopped = true ∧ (s.step c e).started + pending (s.step c e).loop ≤ s.started + pending s.loop := by
  cases e with
  | look =>
    simp only [step]
    split_ifs with hloop
    · exact ⟨h, Nat.le_add_right _ _⟩
    · exact ⟨h, le_rfl⟩
  | take =>
    simp only [step]
    split_ifs with hloop hfree
    · exact ⟨h, by rw [hloop]; exact le_rfl⟩
    · exact ⟨h, Nat.le_add_right _ _⟩
    · exact ⟨h, le_rfl⟩
  | start =>
    simp only [step]
    split_ifs with hloop
    · exact ⟨h, by rw [hloop]; exact le_rfl⟩
    · exact ⟨h, le_rfl⟩
  | task n e =>
    have haside := s.frame_task c n e
    rw [haside.loop, haside.started]
    exact ⟨haside.stopped.trans h, le_rfl⟩
  | stop => exact ⟨rfl, le_rfl⟩

/-- **After a stop** one more probe is started at most. -/
theorem stopped_run (h : s.stopped = true) (es : List TasksEvent) : (s.run c es).started ≤ s.started + pending s.loop := by
  induction es generalizing s with
  | nil => exact Nat.le_add_right _ _
  | cons e es ih =>
    obtain ⟨hstopped, hle⟩ := stopped_step (c := c) h e
    exact (ih hstopped).trans hle

theorem ended_step (h : s.loop = .ended) (e : TasksEvent) :
    (s.step c e).loop = .ended ∧ (s.step c e).started = s.started := by
  cases e with
  | task n e =>
    have haside := s.frame_task c n e
    exact ⟨haside.loop.trans h, haside.started⟩
  | stop => exact ⟨h, rfl⟩
  | _ => simp [step, h]

/-- **Once the loop has seen the stop** no probe is started. -/
theorem ended_run (h : s.loop = .ended) (es : List TasksEvent) : (s.run c es).started = s.started := by
  induction es generalizing s with
  | nil => rfl
  | cons e es ih =>
    obtain ⟨hloop, hstarted⟩ := ended_step (c := c) h e
    exact (ih hloop).trans hstarted

omit [RandomSource σ] in
/-- **A probe that was aborted has reported nothing.** -/
theorem Inv.aborted_unreported (hi : Inv c s) {p q : Probe} {rtt : Span} (hp : (p, .aborted) ∈ s.ends)
    (hq : (q, .answered rtt) ∈ s.ends) : q.id ≠ p.id := by
  intro hid
  have hnodup : (s.ends.map (·.1.id)).Nodup := (List.nodup_append.1 (hi.ends.nodup_iff.2 List.nodup_range)).1
  have heq := List.inj_on_of_nodup_map hnodup hq hp hid
  cases heq

end Tasks

/-! ## On the clock -/

namespace Timed

variable {σ : Type} [RandomSource σ] {c : ScanConfig}

theorem peak_start {t : Timed σ} (h : t.peak ≤ c.concurrency) (script : Script) (now : Nat) :
    (t.start c script now).peak ≤ c.concurrency := by
  cases hslot : t.state.hasSlot c with
  | false => rwa [start_of_not_hasSlot hslot]
  | true =>
    have hroom : t.state.flying.length < c.concurrency := by
      simp only [State.hasSlot, Bool.and_eq_true, decide_eq_true_eq] at hslot
      exact hslot.2
    rw [start_of_hasSlot hslot]
    exact max_le h hroom

theorem peak_fill {t : Timed σ} (h : t.peak ≤ c.concurrency) (script : Script) (now n : Nat) :
    (t.fill c script now n).peak ≤ c.concurrency := by
  induction n generalizing t with
  | zero => exact h
  | succ n ih => exact ih (peak_start h script now)

theorem peak_play {t : Timed σ} (h : t.peak ≤ c.concurrency) (script : Script) (cancel : Option Nat) (now : Nat) :
    (t.play c script cancel now).scan.peak ≤ c.concurrency := by
  fun_induction play c script cancel now t with
  | case1 now t outcome hv => exact h
  | case2 now t hv settled filled ih => exact ih (peak_fill (t := settled) h script now _)

end Timed

/-- **There are never more probes in flight than slots.** -/
theorem Engine.peak_le (e : Engine) (c : ScanConfig) (script : Script) (cancel : Option Nat) :
    (e.scan c script cancel).1.peak ≤ c.concurrency := by
  unfold scan
  split_ifs
  · exact Nat.zero_le _
  · split
    · exact Nat.zero_le _
    · exact Timed.peak_play (Nat.zero_le _) script cancel 0

/-! ## The results -/

namespace Tasks

variable {σ : Type} [RandomSource σ]

/-- what is known of the slots of a scan, whatever its tasks have done -/
structure Kept (c : ScanConfig) (s : Tasks σ) : Prop where
  inFlight : (s.live.filter (·.isUnderWay)).length ≤ c.concurrency
  /-- every slot is free, with the loop or with one probe -/
  slots : s.free + s.loop.slots + s.live.length = c.concurrency
  /-- whatever was started has its slot or has given it back, once -/
  once : (s.released ++ s.live.map (·.probe.id)).Perm (List.range s.started)
  /-- and it has ended, once, or is under way -/
  ends : (s.ends.map (·.1.id) ++ (s.live.filter (·.isUnderWay)).map (·.probe.id)).Perm (List.range s.started)
  /-- a probe gives its slot back by its own steps, whether it succeeds, fails or is aborted -/
  leaves : ∀ t ∈ s.live, ∀ rtt, (s.run c (leave t.probe.id rtt)).live = s.live.filter (·.probe.id ≠ t.probe.id) ∧
    (s.run c (leave t.probe.id rtt)).free = s.free + 1 ∧
    (s.run c (leave t.probe.id rtt)).released = s.released ++ [t.probe.id]
  /-- beyond the first ones, no more probes are started than have given their slots back -/
  noMore : s.started ≤ c.concurrency + s.released.length
  /-- and until a stop no fewer, once the loop has had its turns, whatever else happens between its steps -/
  noFewer : s.stopped = false → ∀ es n, .stop ∉ es → (List.replicate n (turn .idle)).flatten.Sublist es →
    min (s.started + n) (c.concurrency + s.released.length) ≤ (s.run c es).started
  /-- the loop ends at its next look after a stop, and no earlier -/
  seen : (s.loop = .ended → s.stopped = true) ∧ (s.stopped = true → s.loop = .idle → (s.step c .look).loop = .ended)
  /-- one more probe is started at most after a stop, and none once the loop has seen it -/
  stopped : s.stopped = true → ∀ es, (s.run c es).started ≤ s.started + 1
  ended : s.loop = .ended → ∀ es, (s.run c es).started = s.started
  /-- the cache is that of what has been reported, which a probe that was aborted has no part in -/
  cache : s.cache = .ofAnswers c.maxRtt s.reports
  aborted : ∀ p, (p, .aborted) ∈ s.ends → s.stopped = true ∧ ∀ q rtt, (q, .answered rtt) ∈ s.ends → q.id ≠ p.id

theorem Inv.kept {c : ScanConfig} {s : Tasks σ} (hi : Inv c s) : Kept c s where
  inFlight := by
    have hslots := hi.slots
    have hle := List.length_filter_le (·.isUnderWay) s.live
    omega
  slots := hi.slots
  once := hi.once
  ends := hi.ends
  leaves t ht rtt := by
    have hf := Numbered.find?_of_mem (fun t : Task => t.probe.id) hi.nodup ht
    obtain ⟨hlive, hfree, hreleased, -⟩ := Tasks.leaves c hf rtt
    exact ⟨hlive, hfree, hreleased⟩
  noMore := by
    have hslots := hi.slots
    have hstarted := hi.started_eq
    omega
  noFewer hrunning es n hes hturns := started_turns hi hrunning hes n hturns
  seen := ⟨hi.ended, fun hstopped hidle => by simp [step, hidle, hstopped]⟩
  stopped hstopped es := (stopped_run hstopped es).trans (Nat.add_le_add_left (pending_le _) _)
  ended hended es := ended_run hended es
  cache := hi.cache
  aborted p hp := ⟨hi.aborted _ hp rfl, fun q rtt hq => hi.aborted_unreported hp hq⟩

/-- are the tasks and the machine one scan? -/
structure SameScan (c : ScanConfig) (source : Candidates) (rng : σ) : Prop where
  onMachine : ∀ es, ∃ as, ((new c source rng).run c es).toState = (State.new source rng).run c as
  byTasks : ∀ as, .stop ∉ as → ∃ es, ((new c source rng).run c es).toState = (State.new source rng).run c as

theorem sameScan (c : ScanConfig) (source : Candidates) (rng : σ) : SameScan c source rng where
  onMachine es := exists_run (inv_new c source rng) es
  byTasks as has := ⟨as.flatMap schedule, (run_schedule (inv_new c source rng) (rested_new c source rng) has).2⟩

end Tasks

/-- **The slots of a scan are kept**, for any number of slots, whatever the random source yields, whatever the probes do and in
whatever order the tasks take their steps. The machine makes the same scans, and on the clock, where it runs, there are never
more probes in flight than slots. -/
theorem slots_kept (c : ScanConfig) :
    (∀ {σ : Type} [RandomSource σ] (source : Candidates) (rng : σ),
      (∀ es, Tasks.Kept c ((Tasks.new c source rng).run c es)) ∧ Tasks.SameScan c source rng) ∧
    ∀ (e : Engine) (script : Script) (cancel : Option Nat), (e.scan c script cancel).1.peak ≤ c.concurrency :=
  ⟨fun source rng => ⟨fun es => (Tasks.run_inv (Tasks.inv_new c source rng) es).kept, Tasks.sameScan c source rng⟩,
    fun e script cancel => e.peak_le c script cancel⟩

/-- two slots: the first probe fails and a third one takes its slot; the second one has its round trip before a stop and records
it after that, and the third one is aborted -/
example :
    let c : ScanConfig := { prefixes := [.around (.ofNat .v4 0x0a000000) 29 (by decide)], concurrency := 2 }
    let started : List TasksEvent := (List.replicate 3 (Tasks.turn .idle)).flatten
    let s := (Tasks.new c ⟨c.prefixes.map Pool.ofCidr, 0⟩ (⟨[], 7⟩ : Random.Words)).run c
      (started ++ Tasks.leave 0 none ++ Tasks.turn .idle ++
        [.task 1 .look, .task 1 (.finish (some (.ofMillis 10))), .stop, .look, .task 1 .record, .task 1 .release] ++
        Tasks.leave 2 (some (.ofMillis 5)))
    s.started = 3 ∧ s.ends.map (·.2) = [.failed, .answered (.ofMillis 10), .aborted] ∧ s.released = [0, 1, 2] ∧
      s.free = 2 ∧ s.loop = .ended ∧ s.cache.size = 1 := by decide +kernel

end EdgeTunnel.Scan
