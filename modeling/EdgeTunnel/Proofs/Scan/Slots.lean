/-
Slots of a scan.

A slot is free, with the loop, or with one probe, at every moment of every run: the loop and the probes take their steps in
any order, and each probe succeeds, fails or is aborted.

- `Inv`: the invariant. `inv_move`, `inv_close`, `inv_release`: a probe goes on, ends, or gives its slot back. `step_inv`,
  `run_inv`: it holds after every step and every run.
- `leave`, `leaves`: a probe gives its slot back by its own steps, wherever it stands and however it ends.
-/
import EdgeTunnel.Proofs.Numbered
import EdgeTunnel.Proofs.Scan.Tally
import EdgeTunnel.Scan.Tasks

namespace EdgeTunnel.Scan

namespace Tasks

variable {σ : Type} {c : ScanConfig} {s : Tasks σ} {t : Task} {n : Nat}

/-! ## The invariant -/

structure Inv (c : ScanConfig) (s : Tasks σ) : Prop where
  /-- every slot is free, with the loop or with one probe -/
  slots : s.free + s.loop.slots + s.live.length = c.concurrency
  /-- whatever was started has its slot or has given it back, once -/
  once : (s.released ++ s.live.map (·.probe.id)).Perm (List.range s.started)
  /-- and it has ended, once, or is under way -/
  ends : (s.ends.map (·.1.id) ++ (s.live.filter (·.isUnderWay)).map (·.probe.id)).Perm (List.range s.started)
  cache : s.cache = .ofAnswers c.maxRtt s.reports
  aborted : ∀ x ∈ s.ends, x.2 = .aborted → s.stopped = true
  ended : s.loop = .ended → s.stopped = true

theorem inv_new (c : ScanConfig) (source : Candidates) (rng : σ) : Inv c (new c source rng) where
  slots := rfl
  once := List.Perm.refl _
  ends := List.Perm.refl _
  cache := rfl
  aborted _ hx := absurd hx List.not_mem_nil
  ended h := by cases h

/-- the order of the probes does not matter -/
theorem Inv.perm (hi : Inv c s) {live : List Task} (hp : s.live.Perm live) : Inv c { s with live } where
  slots := by
    have h := hi.slots
    rwa [hp.length_eq] at h
  once := ((hp.map _).append_left _).symm.trans hi.once
  ends := (((hp.filter _).map _).append_left _).symm.trans hi.ends
  cache := hi.cache
  aborted := hi.aborted
  ended := hi.ended

theorem Inv.nodup (hi : Inv c s) : (s.live.map (·.probe.id)).Nodup :=
  (List.nodup_append.1 (hi.once.nodup_iff.2 List.nodup_range)).2.1

/-- one probe comes to another stage or is taken out alone -/
theorem Inv.exists_others (hi : Inv c s) (hf : s.live.find? (·.probe.id = n) = some t) :
    ∃ others, s.live.Perm (t :: others) ∧ (s.live.filter (·.probe.id ≠ t.probe.id)).Perm others ∧
      ∀ stage, (s.move t stage).live.Perm ({ t with stage } :: others) := by
  obtain ⟨others, hperm, hkept, hreplaced⟩ := Numbered.exists_others (fun t : Task => t.probe.id) hi.nodup hf
  exact ⟨others, hperm, hkept, fun stage => hreplaced { t with stage } rfl⟩

/-! ## Steps of a probe -/

/-- a probe that is under way goes on -/
theorem inv_move (hi : Inv c s) (hf : s.live.find? (·.probe.id = n) = some t) (hunder : t.isUnderWay = true) {stage : Stage}
    (hstage : stage ≠ .leaving) : Inv c (s.move t stage) := by
  obtain ⟨others, hperm, -, hmoved⟩ := hi.exists_others hf
  have hall := hi.perm hperm
  have hinv : Inv c { s with live := { t with stage } :: others } := by
    refine ⟨hall.slots, hall.once, ?_, hall.cache, hall.aborted, hall.ended⟩
    have hends := hall.ends
    rw [List.filter_cons_of_pos hunder] at hends
    rw [List.filter_cons_of_pos (by simpa [Task.isUnderWay] using hstage)]
    exact hends
  exact hinv.perm (hmoved stage).symm

/-- a probe ends, and the cache is that of what has been reported then -/
theorem inv_close (hi : Inv c s) (hf : s.live.find? (·.probe.id = n) = some t) (hunder : t.isUnderWay = true) {e : ProbeEnd}
    (haborted : e = .aborted → s.stopped = true) {cache : Cache}
    (hcache : cache = .ofAnswers c.maxRtt (s.reports ++ (e.report? t.probe).toList)) :
    Inv c { s.close t e with cache } := by
  obtain ⟨others, hperm, -, hmoved⟩ := hi.exists_others hf
  have hall := hi.perm hperm
  have hinv : Inv c { s with live := { t with stage := .leaving } :: others, ends := s.ends ++ [(t.probe, e)], cache } := by
    refine ⟨hall.slots, hall.once, ?_, ?_, fun x hx => ?_, hall.ended⟩
    · have hends := hall.ends
      rw [List.filter_cons_of_pos hunder] at hends
      rw [List.filter_cons_of_neg (by simp [Task.isUnderWay]), List.map_append, List.append_assoc]
      exact hends
    · have hlast : [(t.probe, e)].filterMap (fun x => x.2.report? x.1) = (e.report? t.probe).toList := by cases e <;> rfl
      rw [hcache, reports, reports, List.filterMap_append, hlast]
    · rcases List.mem_append.1 hx with hx | hx
      · exact hi.aborted x hx
      · rw [List.mem_singleton.1 hx]
        exact haborted
  exact hinv.perm (hmoved .leaving).symm

/-- a probe ends without a report -/
theorem inv_close_silent (hi : Inv c s) (hf : s.live.find? (·.probe.id = n) = some t) (hunder : t.isUnderWay = true)
    {e : ProbeEnd} (haborted : e = .aborted → s.stopped = true) (hsilent : e.report? t.probe = none) : Inv c (s.close t e) := by
  refine inv_close hi hf hunder haborted ?_
  rw [hsilent, Option.toList_none, List.append_nil]
  exact hi.cache

theorem inv_release (hi : Inv c s) (hf : s.live.find? (·.probe.id = n) = some t) (hstage : t.stage = .leaving) :
    Inv c { s with
      free := s.free + 1
      live := s.live.filter (·.probe.id ≠ t.probe.id)
      released := s.released ++ [t.probe.id] } := by
  obtain ⟨others, hperm, hkept, -⟩ := hi.exists_others hf
  have hall := hi.perm hperm
  have hinv : Inv c { s with free := s.free + 1, live := others, released := s.released ++ [t.probe.id] } := by
    refine ⟨?_, ?_, ?_, hall.cache, hall.aborted, hall.ended⟩
    · have hslots := hall.slots
      simp only [List.length_cons] at hslots
      show s.free + 1 + s.loop.slots + others.length = _
      omega
    · show (s.released ++ [t.probe.id] ++ others.map (·.probe.id)).Perm (List.range s.started)
      rw [List.append_assoc]
      exact hall.once
    · have hends := hall.ends
      rwa [List.filter_cons_of_neg (by simp [Task.isUnderWay, hstage])] at hends
  exact hinv.perm hkept.symm

/-- **One step of a probe keeps the invariant.** -/
theorem inv_handle (hi : Inv c s) (hf : s.live.find? (·.probe.id = n) = some t) (e : TaskEvent) : Inv c (s.handle c t e) := by
  cases e with
  | look =>
    simp only [handle]
    split_ifs with hstage hstopped
    · exact inv_close_silent hi hf (by simp [Task.isUnderWay, hstage]) (fun _ => hstopped) rfl
    · exact inv_move hi hf (by simp [Task.isUnderWay, hstage]) (by simp)
    · exact hi
  | wait =>
    simp only [handle]
    split_ifs with hstage
    · exact inv_move hi hf (by simp [Task.isUnderWay, hstage]) (by simp)
    · exact hi
  | finish rtt =>
    simp only [handle]
    split_ifs with hstage
    · cases rtt with
      | some rtt => exact inv_move hi hf (by simp [Task.isUnderWay, hstage]) (by simp)
      | none => exact inv_close_silent hi hf (by simp [Task.isUnderWay, hstage]) (fun h => by cases h) rfl
    · exact hi
  | record =>
    simp only [handle]
    split
    · rename_i rtt hstage
      refine inv_close hi hf (by simp [Task.isUnderWay, hstage]) (fun h => by cases h) ?_
      rw [hi.cache]
      exact (Cache.ofAnswers_concat _ _ _).symm
    · exact hi
  | release =>
    simp only [handle]
    split_ifs with hstage
    · exact inv_release hi hf hstage
    · exact hi

/-! ## Steps of the loop -/

/-- the loop takes a slot or moves on -/
theorem Inv.setLoop (hi : Inv c s) {free : Nat} {loop : StartLoop} (hslots : free + loop.slots = s.free + s.loop.slots)
    (hended : loop = .ended → s.stopped = true) : Inv c { s with free, loop } where
  slots := by
    have h := hi.slots
    rwa [← hslots] at h
  once := hi.once
  ends := hi.ends
  cache := hi.cache
  aborted := hi.aborted
  ended := hended

theorem inv_start (hi : Inv c s) (hloop : s.loop = .holding) {p : Probe} (hp : p.id = s.started) (source : Candidates)
    (rng : σ) :
    Inv c { s with source, rng, loop := .idle, live := s.live ++ [⟨p, .waiting⟩], started := s.started + 1 } where
  slots := by
    have hslots := hi.slots
    rw [hloop] at hslots
    simp only [StartLoop.slots, List.length_append, List.length_singleton] at hslots ⊢
    omega
  once := by
    rw [List.map_append, ← List.append_assoc, List.range_succ, ← hp]
    exact (hp ▸ hi.once).append_right _
  ends := by
    rw [List.filter_append, List.map_append, ← List.append_assoc, List.range_succ, ← hp]
    exact (hp ▸ hi.ends).append_right _
  cache := hi.cache
  aborted := hi.aborted
  ended h := by cases h

variable [RandomSource σ]

/-- **One step of a scan keeps the invariant.** -/
theorem step_inv (hi : Inv c s) (e : TasksEvent) : Inv c (s.step c e) := by
  cases e with
  | look =>
    simp only [step]
    split_ifs with hloop hstopped
    · exact hi.setLoop (by rw [hloop]; rfl) fun _ => hstopped
    · exact hi.setLoop (by rw [hloop]; rfl) fun h => by cases h
    · exact hi
  | take =>
    simp only [step]
    split_ifs with hloop hfree
    · refine hi.setLoop ?_ fun h => by cases h
      rw [hloop]
      exact Nat.sub_add_cancel hfree
    · exact hi.setLoop (by rw [hloop]; rfl) fun h => by cases h
    · exact hi
  | start =>
    simp only [step]
    split_ifs with hloop
    · exact inv_start hi hloop rfl _ _
    · exact hi
  | task n e =>
    simp only [step]
    split
    · rename_i t hf
      exact inv_handle hi hf e
    · exact hi
  | stop => exact ⟨hi.slots, hi.once, hi.ends, hi.cache, fun _ _ _ => rfl, fun _ => rfl⟩

theorem run_inv (hi : Inv c s) (es : List TasksEvent) : Inv c (s.run c es) := by
  induction es generalizing s with
  | nil => exact hi
  | cons e es ih => exact ih (step_inv hi e)

/-! ## The end of a probe -/

/-- the steps that are left to a probe, when it is done with this round trip or without one -/
def leave (n : Nat) (rtt : Option Span) : List TasksEvent := [.look, .finish rtt, .record, .release].map (.task n)

/-- has the probe with a number come to `t` between two scans, the others and the loop being as they were? -/
structure Comes (s : Tasks σ) (n : Nat) (s' : Tasks σ) (t : Task) : Prop where
  found : s'.live.find? (·.probe.id = n) = some t
  others : s'.live.filter (·.probe.id ≠ n) = s.live.filter (·.probe.id ≠ n)
  free : s'.free = s.free
  released : s'.released = s.released
  loop : s'.loop = s.loop
  stopped : s'.stopped = s.stopped

omit [RandomSource σ] in
theorem Comes.refl (hf : s.live.find? (·.probe.id = n) = some t) : Comes s n s t := ⟨hf, rfl, rfl, rfl, rfl, rfl⟩

omit [RandomSource σ] in
theorem Comes.trans {s' s'' : Tasks σ} {t t' : Task} (a : Comes s n s' t) (b : Comes s' n s'' t') : Comes s n s'' t' :=
  ⟨b.found, b.others.trans a.others, b.free.trans a.free, b.released.trans a.released, b.loop.trans a.loop,
    b.stopped.trans a.stopped⟩

omit [RandomSource σ] in
theorem comes_move (hf : s.live.find? (·.probe.id = n) = some t) (stage : Stage) :
    Comes s n (s.move t stage) { t with stage } := by
  obtain rfl : t.probe.id = n := by simpa using List.find?_some hf
  let number (t : Task) : Nat := t.probe.id
  have hsame : number { t with stage } = number t := rfl
  exact ⟨Numbered.find?_replace number hsame hf, Numbered.filter_replace number hsame, rfl, rfl, rfl, rfl⟩

omit [RandomSource σ] in
theorem comes_close (hf : s.live.find? (·.probe.id = n) = some t) (e : ProbeEnd) (cache : Cache) :
    Comes s n { s.close t e with cache } { t with stage := .leaving } :=
  have h := comes_move hf .leaving
  ⟨h.found, h.others, h.free, h.released, h.loop, h.stopped⟩

section Leaving

variable (c) (hf : s.live.find? (·.probe.id = n) = some t)

include hf

/-- a probe that waits goes on or is aborted -/
theorem comes_look : ∃ t', Comes s n (s.step c (.task n .look)) t' ∧ t'.stage ≠ .waiting := by
  simp only [step, hf, handle]
  split_ifs with hstage
  · exact ⟨_, comes_close hf .aborted s.cache, by simp⟩
  · exact ⟨_, comes_move hf .going, by simp⟩
  · exact ⟨t, .refl hf, hstage⟩

theorem comes_finish (hstage : t.stage ≠ .waiting) (rtt : Option Span) :
    ∃ t', Comes s n (s.step c (.task n (.finish rtt))) t' ∧ t'.stage ≠ .waiting ∧ t'.stage ≠ .going := by
  simp only [step, hf, handle]
  split_ifs with hgoing
  · cases rtt with
    | some rtt => exact ⟨_, comes_move hf (.answered rtt), by simp, by simp⟩
    | none => exact ⟨_, comes_close hf .failed s.cache, by simp, by simp⟩
  · exact ⟨t, .refl hf, hstage, hgoing⟩

theorem comes_record (hwaiting : t.stage ≠ .waiting) (hgoing : t.stage ≠ .going) :
    ∃ t', Comes s n (s.step c (.task n .record)) t' ∧ t'.stage = .leaving := by
  simp only [step, hf, handle]
  cases hstage : t.stage with
  | waiting => exact absurd hstage hwaiting
  | going => exact absurd hstage hgoing
  | answered rtt => exact ⟨_, comes_close hf (.answered rtt) _, rfl⟩
  | leaving => exact ⟨t, .refl hf, hstage⟩

/-- **A probe gives its slot back by its own steps**, wherever it stands, whether it succeeds, fails or is aborted. -/
theorem leaves (rtt : Option Span) :
    (s.run c (leave n rtt)).live = s.live.filter (·.probe.id ≠ n) ∧ (s.run c (leave n rtt)).free = s.free + 1 ∧
      (s.run c (leave n rtt)).released = s.released ++ [n] ∧ (s.run c (leave n rtt)).loop = s.loop ∧
      (s.run c (leave n rtt)).stopped = s.stopped := by
  obtain ⟨t₁, h₁, hwaiting₁⟩ := comes_look c hf
  obtain ⟨t₂, h₂, hwaiting₂, hgoing₂⟩ := comes_finish c h₁.found hwaiting₁ rtt
  obtain ⟨t₃, h₃, hleaving⟩ := comes_record c h₂.found hwaiting₂ hgoing₂
  have h := h₁.trans (h₂.trans h₃)
  obtain rfl : t₃.probe.id = n := by simpa using List.find?_some h.found
  have hlast := h.found
  simp only [leave, List.map_cons, List.map_nil, run, List.foldl_cons, List.foldl_nil]
  generalize ((s.step c (.task t₃.probe.id .look)).step c (.task t₃.probe.id (.finish rtt))).step c
    (.task t₃.probe.id .record) = s' at h hlast
  simp only [step, hlast, handle, hleaving, if_true]
  exact ⟨h.others, by rw [h.free], by rw [h.released], h.loop, h.stopped⟩

end Leaving

end Tasks

end EdgeTunnel.Scan
