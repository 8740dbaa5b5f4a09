/-
The scans of one engine, task by task.

The scans follow one another, each asked for when the one before has returned. A scan that is decided stops its tasks but waits
for its loop only: its probes are tasks of their own, which look whether they have been stopped and end without a report if so.
All of them record in the cache of the engine, which the next scan clears when it begins. So a probe that had looked before it
was stopped may have its record among those of a later scan.

A scan itself is a task too. It waits until its token fires, its deadline comes or it is time to look; then it counts the
answers, and ranks them if they are enough, while the probes go on between one step and the next. Time is left open here: a
scan may be woken at any moment. `Engine.scans` are these scans on a clock.
-/
import EdgeTunnel.Scan.Tasks

namespace EdgeTunnel.Scan

/-- has the probe looked, so that it may still report whatever it finds at its next look? -/
def Task.isOut (t : Task) : Bool :=
  match t.stage with
  | .going => true
  | .answered _ => true
  | _ => false

/-- is this an order in which the entries of a cache may be ranked? Equal round trips may come in any order. -/
def Cache.IsRanking (cache : Cache) (ranking : List Answer) : Prop :=
  ranking.Perm cache.entries ∧ ranking.Pairwise fun a b => a.rtt ≤ b.rtt

instance (cache : Cache) (ranking : List Answer) : Decidable (cache.IsRanking ranking) :=
  inferInstanceAs (Decidable (_ ∧ _))

/-- how a scan was decided, and what was known then -/
structure Decision where
  /-- how many scans the engine had begun before -/
  number : Nat
  outcome : Except ScanError (List Answer)
  cache : Cache
  /-- what the probes of the scan had reported -/
  reports : List Answer
  /-- the probes of earlier scans that had ended, and how -/
  earlier : List (Probe × ProbeEnd)
  /-- the probes of earlier scans that were out when the scan began -/
  out : List Probe

inductive Runner where
  /-- there is none -/
  | resting
  /-- it waits for its token, its deadline or the time to look -/
  | waiting
  /-- it counts the answers, for the last time if its deadline has come -/
  | counting (last : Bool)
  /-- they are enough, and it ranks them -/
  | ranking
  /-- they are too few, and it asks for the best round trip -/
  | expiring (found : Nat)
  /-- it is decided, and stops its tasks -/
  | stopping (d : Decision)
  /-- it waits for its loop to end -/
  | joining (d : Decision)

/-- an engine with all its scans -/
structure Series (ρ σ : Type) where
  rng : ρ
  cache : Cache
  /-- the scans that have begun, the latest first -/
  scans : List (Tasks σ)
  /-- the probes of the other scans that were out when the latest one began -/
  out : List Probe
  runner : Runner
  /-- has the token of the scan under way fired? -/
  canceled : Bool
  /-- the decisions that were returned, in this order -/
  returned : List Decision

inductive SeriesEvent where
  /-- a scan is asked for, with a token that may have fired -/
  | call (canceled : Bool)
  /-- its token fires -/
  | cancel
  /-- its deadline comes, or it is time to look -/
  | wake (last : Bool)
  /-- it makes its next step -/
  | go
  /-- it finds the entries in this order -/
  | rank (ranking : List Answer)
  /-- a task of the scan so many before the latest makes a step -/
  | task (n : Nat) (e : TasksEvent)

namespace Series

variable {ρ σ : Type}

def new (rng : ρ) : Series ρ σ := ⟨rng, .empty, [], [], .resting, false, []⟩

/-- what the probes of the latest scan have reported -/
def reports (s : Series ρ σ) : List Answer := (s.scans.take 1).flatMap (·.reports)

/-- the probes of the other scans that have ended, and how -/
def earlier (s : Series ρ σ) : List (Probe × ProbeEnd) := (s.scans.drop 1).flatMap (·.ends)

def decision (s : Series ρ σ) (outcome : Except ScanError (List Answer)) : Decision :=
  ⟨s.scans.length - 1, outcome, s.cache, s.reports, s.earlier, s.out⟩

/-- the scan under way is decided -/
def settle (s : Series ρ σ) (outcome : Except ScanError (List Answer)) : Series ρ σ :=
  { s with runner := .stopping (s.decision outcome) }

/-- a scan is not even begun -/
def refuse (s : Series ρ σ) (e : ScanError) : Series ρ σ :=
  { s with returned := s.returned ++ [⟨s.scans.length, .error e, s.cache, [], [], []⟩] }

/-- the tasks of the latest scan are stopped -/
def stopLatest (s : Series ρ σ) : Series ρ σ := { s with scans := s.scans.modifyHead ({ · with stopped := true }) }

/-- the next step of the scan under way, when it neither waits nor ranks -/
def go (c : ScanConfig) (s : Series ρ σ) : Series ρ σ :=
  match s.runner with
  | .counting last =>
    if c.wanted ≤ s.cache.size then { s with runner := .ranking }
    else { s with runner := if last then .expiring s.cache.size else .waiting }
  | .expiring found => s.settle (.error (.deadlineExceeded found c.wanted s.cache.best))
  | .stopping d => { s.stopLatest with runner := .joining d }
  | .joining d =>
    if s.scans.head?.all (·.loop = .ended) then { s with runner := .resting, returned := s.returned ++ [d] } else s
  | _ => s

variable [RandomSource ρ] [RandomSource σ]

/-- a scan begins: the limits are checked, the cache is cleared, and the candidates are set up -/
def call (c : ScanConfig) (seeded : UInt64 → σ) (s : Series ρ σ) (canceled : Bool) : Series ρ σ :=
  if !c.isUsable then s.refuse .unusable
  else
    match Candidates.new c.prefixes c.families with
    | .error cause => { s with cache := .empty }.refuse (.candidates cause)
    | .ok source =>
      let (seed, rng) := RandomSource.word64 s.rng
      { s with
        rng
        canceled
        cache := .empty
        runner := .waiting
        scans := { Tasks.new c source (seeded seed) with stopped := canceled } :: s.scans
        out := s.scans.flatMap fun t => (t.live.filter (·.isOut)).map (·.probe) }

/-- one step; an event that does not fit changes nothing -/
def step (c : ScanConfig) (seeded : UInt64 → σ) (s : Series ρ σ) : SeriesEvent → Series ρ σ
  | .call canceled =>
    match s.runner with
    | .resting => s.call c seeded canceled
    | _ => s
  | .cancel => { s.stopLatest with canceled := true }
  | .wake last =>
    match s.runner with
    | .waiting => if s.canceled then s.settle (.error .canceled) else { s with runner := .counting last }
    | _ => s
  | .go => s.go c
  | .rank ranking =>
    match s.runner with
    | .ranking => if s.cache.IsRanking ranking then s.settle (.ok (ranking.take c.wanted)) else s
    | _ => s
  | .task n e =>
    match s.scans[n]? with
    | some t =>
      -- tasks are stopped by their scan alone, and all of them have one cache
      if e = .stop then s
      else
        let t := { t with cache := s.cache }.step c e
        { s with cache := t.cache, scans := s.scans.set n t }
    | none => s

def run (c : ScanConfig) (seeded : UInt64 → σ) (s : Series ρ σ) (es : List SeriesEvent) : Series ρ σ :=
  es.foldl (step c seeded) s

end Series

end EdgeTunnel.Scan
