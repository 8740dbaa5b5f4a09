/-
The tasks of a scan and its machine.

The machine knows of a probe only that it is in flight until it has ended. The stages on the way, the return of the slot and
the steps of the loop before a start are nothing to it.

- `acts`: what a step of the tasks is to the machine. `toState_step`, `exists_run`: so each run of the tasks is one of the
  machine.
- `schedule`: the steps of the tasks that make an event of the machine. `run_schedule`: so each run of the machine is one of
  the tasks, in which every event comes to its end before the next.
-/
import EdgeTunnel.Proofs.Scan.Slots
import EdgeTunnel.Proofs.Scan.Timeline

namespace EdgeTunnel.Scan

namespace Tasks

variable {σ : Type} [RandomSource σ] {c : ScanConfig} {s : Tasks σ} {t : Task} {n : Nat}

/-! ## From the tasks to the machine -/

/-- what a step of a probe is to the machine -/
def Task.acts (stopped : Bool) (t : Task) : TaskEvent → List Event
  | .look => if t.stage = .waiting ∧ stopped = true then [.finish t.probe.id none] else []
  | .finish none => if t.stage = .going then [.finish t.probe.id none] else []
  | .record =>
    match t.stage with
    | .answered rtt => [.finish t.probe.id (some rtt)]
    | _ => []
  | _ => []

/-- what a step of a scan is to the machine: a probe that is started, one that has ended, or nothing -/
def acts (s : Tasks σ) : TasksEvent → List Event
  | .start => if s.loop = .holding then [.start] else []
  | .task n e =>
    match s.live.find? (·.probe.id = n) with
    | some t => Task.acts s.stopped t e
    | none => []
  | _ => []

omit [RandomSource σ] in
theorem Inv.flying_find? (hi : Inv c s) (hf : s.live.find? (·.probe.id = n) = some t) (hunder : t.isUnderWay = true) :
    s.toState.flying.find? (·.id == n) = some t.probe := by
  obtain rfl : t.probe.id = n := by simpa using List.find?_some hf
  have hmem : t.probe ∈ s.toState.flying :=
    List.mem_map_of_mem (List.mem_filter.2 ⟨List.mem_of_find?_eq_some hf, hunder⟩)
  have hnodup : (s.toState.flying.map Probe.id).Nodup := by
    rw [toState, List.map_map]
    exact hi.nodup.sublist (List.filter_sublist.map _)
  exact Numbered.find?_of_mem Probe.id hnodup hmem

omit [RandomSource σ] in
/-- a stage that a probe is under way in makes no difference to the machine -/
theorem toState_move (hi : Inv c s) (hf : s.live.find? (·.probe.id = n) = some t) (hunder : t.isUnderWay = true) {stage : Stage}
    (hstage : stage ≠ .leaving) : (s.move t stage).toState = s.toState := by
  have hsame : ∀ x ∈ s.live, x.probe.id = t.probe.id → x = t := fun x hx hid =>
    List.inj_on_of_nodup_map hi.nodup hx (List.mem_of_find?_eq_some hf) hid
  have hflying : ∀ l : List Task, (∀ x ∈ l, x ∈ s.live) →
      ((l.map fun x => if x.probe.id = t.probe.id then { t with stage } else x).filter (·.isUnderWay)).map (·.probe) =
        (l.filter (·.isUnderWay)).map (·.probe) := by
    intro l hl
    induction l with
    | nil => rfl
    | cons x l ih =>
      have hrest := ih fun y hy => hl y (List.mem_cons_of_mem _ hy)
      rw [List.map_cons]
      by_cases hx : x.probe.id = t.probe.id
      · obtain rfl := hsame x (hl x List.mem_cons_self) hx
        rw [if_pos rfl, List.filter_cons_of_pos (by simpa [Task.isUnderWay] using hstage), List.filter_cons_of_pos hunder,
          List.map_cons, List.map_cons, hrest]
      · rw [if_neg hx]
        cases hlive : x.isUnderWay with
        | true => rw [List.filter_cons_of_pos hlive, List.filter_cons_of_pos hlive, List.map_cons, List.map_cons, hrest]
        | false => rw [List.filter_cons_of_neg (by simp [hlive]), List.filter_cons_of_neg (by simp [hlive]), hrest]
  simp only [toState, move, hflying s.live fun x hx => hx]

omit [RandomSource σ] in
/-- a probe that has ended is no longer in flight -/
theorem flying_move_leaving (s : Tasks σ) (t : Task) :
    (s.move t .leaving).toState.flying = s.toState.flying.filter (·.id != t.probe.id) := by
  simp only [toState, move]
  induction s.live with
  | nil => rfl
  | cons x l ih =>
    rw [List.map_cons]
    by_cases hx : x.probe.id = t.probe.id
    · rw [if_pos hx, List.filter_cons_of_neg (by simp [Task.isUnderWay]), ih]
      cases hlive : x.isUnderWay with
      | true => rw [List.filter_cons_of_pos hlive, List.map_cons, List.filter_cons_of_neg (by simp [hx])]
      | false => rw [List.filter_cons_of_neg (by simp [hlive])]
    · rw [if_neg hx]
      cases hlive : x.isUnderWay with
      | true =>
        rw [List.filter_cons_of_pos hlive, List.filter_cons_of_pos hlive, List.map_cons, List.map_cons,
          List.filter_cons_of_pos (by simpa using hx), ih]
      | false => rw [List.filter_cons_of_neg (by simp [hlive]), List.filter_cons_of_neg (by simp [hlive]), ih]

omit [RandomSource σ] in
/-- the end of a probe is its end on the machine, with its record if it has one -/
theorem toState_close (hi : Inv c s) (hf : s.live.find? (·.probe.id = n) = some t) (hunder : t.isUnderWay = true)
    (e : ProbeEnd) (rtt : Option Span) :
    ({ s.close t e with cache := State.record c t.probe s.cache rtt } : Tasks σ).toState =
      s.toState.finish c t.probe.id rtt := by
  obtain rfl : t.probe.id = n := by simpa using List.find?_some hf
  have hflying := flying_move_leaving s t
  simp only [State.finish, hi.flying_find? hf hunder, ← hflying]
  rfl

omit [RandomSource σ] in
theorem toState_release (hi : Inv c s) (hf : s.live.find? (·.probe.id = n) = some t) (hstage : t.stage = .leaving) :
    ({ s with free := s.free + 1, live := s.live.filter (·.probe.id ≠ t.probe.id), released := s.released ++ [t.probe.id] } :
      Tasks σ).toState = s.toState := by
  have hflying : ((s.live.filter (·.probe.id ≠ t.probe.id)).filter (·.isUnderWay)) = s.live.filter (·.isUnderWay) := by
    rw [List.filter_filter]
    refine List.filter_congr fun x hx => ?_
    -- the only probe with this number has ended
    by_cases hid : x.probe.id = t.probe.id
    · obtain rfl := List.inj_on_of_nodup_map hi.nodup hx (List.mem_of_find?_eq_some hf) hid
      simp [Task.isUnderWay, hstage]
    · simp [hid]
  simp only [toState, hflying]

/-- what a step of a probe is to the machine -/
theorem toState_handle (hi : Inv c s) (hf : s.live.find? (·.probe.id = n) = some t) (e : TaskEvent) :
    (s.handle c t e).toState = s.toState.run c (Task.acts s.stopped t e) := by
  cases e with
  | look =>
    simp only [handle, Task.acts]
    by_cases hstage : t.stage = .waiting
    · cases hstopped : s.stopped with
      | true =>
        simp only [hstage, and_self, if_true]
        exact toState_close hi hf (by simp [Task.isUnderWay, hstage]) .aborted none
      | false =>
        simp only [hstage, Bool.false_eq_true, and_false, if_true, if_false]
        exact toState_move hi hf (by simp [Task.isUnderWay, hstage]) (by simp)
    · simp only [hstage, false_and, if_false]
      rfl
  | wait =>
    simp only [handle, Task.acts]
    split_ifs with hstage
    · exact toState_move hi hf (by simp [Task.isUnderWay, hstage]) (by simp)
    · rfl
  | finish rtt =>
    by_cases hstage : t.stage = .going
    · cases rtt with
      | some rtt =>
        simp only [handle, Task.acts, hstage, if_true]
        exact toState_move hi hf (by simp [Task.isUnderWay, hstage]) (by simp)
      | none =>
        simp only [handle, Task.acts, hstage, if_true]
        exact toState_close hi hf (by simp [Task.isUnderWay, hstage]) .failed none
    · cases rtt with
      | some rtt => simp only [handle, Task.acts, hstage, if_false]; rfl
      | none => simp only [handle, Task.acts, hstage, if_false]; rfl
  | record =>
    cases hstage : t.stage with
    | answered rtt =>
      simp only [handle, Task.acts, hstage]
      exact toState_close hi hf (by simp [Task.isUnderWay, hstage]) (.answered rtt) (some rtt)
    | _ => simp only [handle, Task.acts, hstage]; rfl
  | release =>
    simp only [handle, Task.acts]
    split_ifs with hstage
    · exact toState_release hi hf hstage
    · rfl

omit [RandomSource σ] in
/-- a slot that the loop has is free on the machine -/
theorem hasSlot_of_holding (hi : Inv c s) (hloop : s.loop = .holding) : s.toState.hasSlot c = true := by
  have hlength : s.toState.flying.length ≤ s.live.length := by
    rw [toState, List.length_map]
    exact List.length_filter_le _ _
  have hroom : s.toState.flying.length < c.concurrency := by
    have hslots := hi.slots
    rw [hloop, StartLoop.slots] at hslots
    omega
  rw [State.hasSlot, decide_eq_true hroom]
  rfl

/-- **What a step of a scan is to the machine.** -/
theorem toState_step (hi : Inv c s) (e : TasksEvent) : (s.step c e).toState = s.toState.run c (s.acts e) := by
  cases e with
  | look =>
    simp only [step]
    split_ifs
    · rfl
    · rfl
    · rfl
  | take =>
    simp only [step]
    split_ifs
    · rfl
    · rfl
    · rfl
  | start =>
    simp only [step, acts]
    split_ifs with hloop
    · have hrun : s.toState.run c [.start] = s.toState.start c := rfl
      rw [hrun, State.start_eq (hasSlot_of_holding hi hloop)]
      simp only [toState, List.filter_append, List.map_append]
      rfl
    · rfl
  | task n e =>
    simp only [step, acts]
    cases hf : s.live.find? (·.probe.id = n) with
    | none => rfl
    | some t => exact toState_handle hi hf e
  | stop => rfl

/-- **A run of the tasks is a run of the machine.** -/
theorem exists_run (hi : Inv c s) (es : List TasksEvent) : ∃ as : List Event, (s.run c es).toState = s.toState.run c as := by
  induction es generalizing s with
  | nil => exact ⟨[], rfl⟩
  | cons e es ih =>
    obtain ⟨as, has⟩ := ih (step_inv hi e)
    refine ⟨s.acts e ++ as, ?_⟩
    rw [toState_step hi e] at has
    rw [State.run, List.foldl_append]
    exact has

/-! ## From the machine to the tasks -/

/-- the steps of the tasks that make an event of the machine, when each task waits for its turn -/
def schedule : Event → List TasksEvent
  | .start => [.look, .take, .start]
  | .finish id rtt => leave id rtt
  | .stop => []

theorem stop_notMem_schedule (as : List Event) : TasksEvent.stop ∉ as.flatMap schedule := by
  simp only [List.mem_flatMap, not_exists, not_and]
  intro a _ h
  cases a <;> simp [schedule, leave] at h

/-- does each task wait for its turn, of a scan that has not been stopped? -/
structure Rested (s : Tasks σ) : Prop where
  loop : s.loop = .idle
  live : ∀ t ∈ s.live, t.stage = .waiting
  running : s.stopped = false

omit [RandomSource σ] in
theorem rested_new (c : ScanConfig) (source : Candidates) (rng : σ) : Rested (new c source rng) :=
  ⟨rfl, fun _ ht => absurd ht List.not_mem_nil, rfl⟩

omit [RandomSource σ] in
theorem Rested.flying (hr : Rested s) : s.toState.flying = s.live.map (·.probe) := by
  have hall : s.live.filter (·.isUnderWay) = s.live :=
    List.filter_eq_self.2 fun t ht => by simp [Task.isUnderWay, hr.live t ht]
  rw [toState, hall]

theorem rested_start (hi : Inv c s) (hr : Rested s) :
    Rested (s.run c (schedule .start)) ∧ (s.run c (schedule .start)).toState = s.toState.start c := by
  have hlook : s.step c .look = { s with loop := .taking } := by simp [step, hr.loop, hr.running]
  by_cases hfree : 0 < s.free
  · have htake : (s.step c .look).step c .take = { s with free := s.free - 1, loop := .holding } := by
      rw [hlook]
      simp [step, hfree]
    have hstart := toState_step (step_inv (step_inv hi .look) .take) .start
    rw [htake] at hstart
    refine ⟨?_, ?_⟩
    · simp only [schedule, run, List.foldl_cons, List.foldl_nil, htake]
      refine ⟨rfl, fun t ht => ?_, hr.running⟩
      rcases List.mem_append.1 ht with ht | ht
      · exact hr.live t ht
      · rw [List.mem_singleton.1 ht]
    · simp only [schedule, run, List.foldl_cons, List.foldl_nil, htake]
      exact hstart
  · have htake : (s.step c .look).step c .take = s := by
      rw [hlook]
      simp only [step, if_true, if_neg hfree]
      rw [← hr.loop]
    have hstart : s.step c .start = s := by simp [step, hr.loop]
    have hfull : s.toState.hasSlot c = false := by
      have hslots := hi.slots
      rw [hr.loop] at hslots
      simp only [StartLoop.slots] at hslots
      rw [State.hasSlot, hr.flying, List.length_map, decide_eq_false (by omega), Bool.and_false]
    simp only [schedule, run, List.foldl_cons, List.foldl_nil, htake, hstart]
    exact ⟨hr, (State.start_of_not_hasSlot hfull).symm⟩

omit [RandomSource σ] in
theorem acts_release (s : Tasks σ) (n : Nat) : s.acts (.task n .release) = [] := by
  rw [acts]
  cases s.live.find? (·.probe.id = n) with
  | none => rfl
  | some t => rfl

theorem toState_leave (hi : Inv c s) (hr : Rested s) (hf : s.live.find? (·.probe.id = n) = some t) (rtt : Option Span) :
    (s.run c (leave n rtt)).toState = s.toState.finish c n rtt := by
  have hid : t.probe.id = n := by simpa using List.find?_some hf
  have hstage : t.stage = .waiting := hr.live t (List.mem_of_find?_eq_some hf)
  have hi₁ := step_inv hi (.task n .look)
  have hi₂ := step_inv hi₁ (.task n (.finish rtt))
  have hi₃ := step_inv hi₂ (.task n .record)
  simp only [leave, List.map_cons, List.map_nil, run, List.foldl_cons, List.foldl_nil]
  rw [toState_step hi₃, toState_step hi₂, toState_step hi₁, toState_step hi, acts_release]
  have hlook : s.acts (.task n .look) = [] := by simp [acts, hf, Task.acts, hr.running]
  have hgoes : s.step c (.task n .look) = s.move t .going := by simp [step, hf, handle, hstage, hr.running]
  have hf₁ := (comes_move hf .going).found
  rw [hlook, hgoes]
  cases rtt with
  | some rtt =>
    have hquiet : (s.move t .going).acts (.task n (.finish (some rtt))) = [] := by simp [acts, hf₁, Task.acts]
    have hanswers : (s.move t .going).step c (.task n (.finish (some rtt))) =
        (s.move t .going).move { t with stage := .going } (.answered rtt) := by simp [step, hf₁, handle]
    have hf₂ := (comes_move hf₁ (.answered rtt)).found
    rw [hquiet, hanswers]
    simp only [acts, hf₂, Task.acts, hid]
    rfl
  | none =>
    have hends : (s.move t .going).acts (.task n (.finish none)) = [.finish n none] := by simp [acts, hf₁, Task.acts, hid]
    have hfails : (s.move t .going).step c (.task n (.finish none)) =
        (s.move t .going).close { t with stage := .going } .failed := by simp [step, hf₁, handle]
    have hf₂ := (comes_close hf₁ .failed s.cache).found
    have hquiet : ((s.move t .going).close { t with stage := .going } .failed).acts (.task n .record) = [] := by
      rw [acts]
      have hfound : ((s.move t .going).close { t with stage := .going } .failed).live.find? (·.probe.id = n) =
        some { t with stage := .leaving } := hf₂
      rw [hfound]
      rfl
    rw [hends, hfails, hquiet]
    rfl

theorem rested_finish (hi : Inv c s) (hr : Rested s) (n : Nat) (rtt : Option Span) :
    Rested (s.run c (leave n rtt)) ∧ (s.run c (leave n rtt)).toState = s.toState.finish c n rtt := by
  cases hf : s.live.find? (·.probe.id = n) with
  | some t =>
    obtain ⟨hlive, -, -, hloop, hstopped⟩ := leaves c hf rtt
    refine ⟨⟨hloop.trans hr.loop, fun x hx => ?_, hstopped.trans hr.running⟩, toState_leave hi hr hf rtt⟩
    rw [hlive] at hx
    exact hr.live x (List.mem_filter.1 hx).1
  | none =>
    have hstays : ∀ e, s.step c (.task n e) = s := fun e => by simp only [step, hf]
    have hrun : s.run c (leave n rtt) = s := by
      simp only [leave, List.map_cons, List.map_nil, run, List.foldl_cons, List.foldl_nil, hstays]
    have hnone : s.toState.flying.find? (·.id == n) = none := by
      rw [List.find?_eq_none] at hf ⊢
      intro p hp
      rw [hr.flying] at hp
      obtain ⟨t, ht, rfl⟩ := List.mem_map.1 hp
      simpa using hf t ht
    rw [hrun, State.finish, hnone]
    exact ⟨hr, rfl⟩

/-- **A run of the machine is a run of the tasks**, with the scheduled steps of each event one after the other. -/
theorem run_schedule (hi : Inv c s) (hr : Rested s) {as : List Event} (has : .stop ∉ as) :
    Rested (s.run c (as.flatMap schedule)) ∧ (s.run c (as.flatMap schedule)).toState = s.toState.run c as := by
  induction as generalizing s with
  | nil => exact ⟨hr, rfl⟩
  | cons a as ih =>
    rw [List.mem_cons, not_or] at has
    obtain ⟨ha, has⟩ := has
    have hstep : Rested (s.run c (schedule a)) ∧ (s.run c (schedule a)).toState = s.toState.step c a := by
      cases a with
      | start => exact rested_start hi hr
      | finish n rtt => exact rested_finish hi hr n rtt
      | stop => exact absurd rfl ha
    have hrest := ih (run_inv hi (schedule a)) hstep.1 has
    rw [hstep.2] at hrest
    rw [List.flatMap_cons, run, List.foldl_append]
    exact hrest

end Tasks

end EdgeTunnel.Scan
