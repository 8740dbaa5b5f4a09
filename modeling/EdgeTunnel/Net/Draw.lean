/-
A draw of a candidate, step by step.

A draw goes round a loop. At the start of a round the open pools are listed. When there is none, every pool is filled again
and the next round starts; else one of them is chosen at random and asked for an address. The pool looks for itself whether
it has anything left. If not, the next round starts, and else an offset is drawn, in a large pool again and again until one
is not gone.

Random numbers come from outside, one for each step; a step that needs none ignores its own. `Admits` says which numbers the
random source can yield. From an empty range it can yield none: there the draw fails, as it does at a pool that is not there.
-/
import EdgeTunnel.Net.Candidates

namespace EdgeTunnel

namespace Pool

/-- has a pool that is asked for an address nothing left? -/
def declines (p : Pool) : Bool :=
  match p.remaining with
  | .dense left => left.size = 0
  | .sparse gone => p.cidr.size ≤ gone.size

/-- how many numbers there are to draw: the places of the list, or the offsets below the size, which are all numbers of 128
bits when the size is the largest of these -/
def choices (p : Pool) : Nat :=
  match p.remaining with
  | .dense left => left.size
  | .sparse _ => if p.cidr.size = 2 ^ 128 - 1 then 2 ^ 128 else p.cidr.size

/-- is the number an offset that is gone, so that another one is drawn? -/
def refuses (p : Pool) (i : Nat) : Bool :=
  match p.remaining with
  | .dense _ => false
  | .sparse gone => gone.contains i

variable {σ : Type} [RandomSource σ]

/-- a number that a random source yields -/
def number (p : Pool) (s : σ) : Nat × σ :=
  match p.remaining with
  | .dense left => Random.below .w64 left.size s
  | .sparse _ => anyOffset p.cidr s

end Pool

inductive DrawStage where
  /-- a round starts -/
  | round
  /-- one of these places is chosen next -/
  | choosing (places : List Nat)
  /-- the pool at this place is asked for an address -/
  | asking (place : Nat)
  /-- an offset of the pool at this place is drawn next -/
  | drawing (place : Nat)
  | drawn (a : Ip)
  | failed
  deriving DecidableEq

/-- a draw under way: the pools as they are, where the draw stands, how many rounds have started, and how often all pools
were filled again -/
structure Draw where
  source : Candidates
  stage : DrawStage
  rounds : Nat
  refills : Nat

namespace Draw

/-- a draw before its first round -/
def new (c : Candidates) : Draw := ⟨c, .round, 0, 0⟩

/-- how many numbers the next step has to draw from, if it draws one -/
def range? (d : Draw) : Option Nat :=
  match d.stage with
  | .choosing places => some places.length
  | .drawing i => d.source.pools[i]?.map Pool.choices
  | _ => none

/-- the draw ends with this number from the pool at this place -/
def finish (d : Draw) (i v : Nat) (p : Pool) : Draw :=
  { d with source.pools := d.source.pools.modify i (·.take v), stage := .drawn (p.address v) }

/-- one step with a number -/
def step (d : Draw) (v : Nat) : Draw :=
  if d.range? = some 0 then { d with stage := .failed }
  else
    match d.stage with
    | .round =>
      match d.source.openPools with
      | [] => { d with source := d.source.nextPass, rounds := d.rounds + 1, refills := d.refills + 1 }
      | places => { d with stage := .choosing places, rounds := d.rounds + 1 }
    | .choosing places =>
      match places[v]? with
      | none => { d with stage := .failed }
      | some i => { d with stage := .asking i }
    | .asking i =>
      match d.source.pools[i]? with
      | none => { d with stage := .failed }
      | some p => if p.declines then { d with stage := .round } else { d with stage := .drawing i }
    | .drawing i =>
      match d.source.pools[i]? with
      | none => { d with stage := .failed }
      | some p => if p.refuses v then d else d.finish i v p
    | .drawn _ | .failed => d

def run (d : Draw) (vs : List Nat) : Draw := vs.foldl step d

/-- can the random source yield these numbers, one after the other? -/
def Admits : Draw → List Nat → Prop
  | _, [] => True
  | d, v :: vs => (∀ n ∈ d.range?, v < n) ∧ Admits (d.step v) vs

instance decidableAdmits : (d : Draw) → (vs : List Nat) → Decidable (d.Admits vs)
  | _, [] => inferInstanceAs (Decidable True)
  | d, v :: vs =>
    have := decidableAdmits (d.step v) vs
    inferInstanceAs (Decidable ((∀ n ∈ d.range?, v < n) ∧ Admits (d.step v) vs))

/-- the sources that a prefix list gives, and that draws turn these into -/
inductive Reachable (prefixes : List Cidr) (families : Families) : Candidates → Prop where
  | new {c : Candidates} (h : Candidates.new prefixes families = .ok c) : Reachable prefixes families c
  | drawn {c : Candidates} (h : Reachable prefixes families c) {vs : List Nat} (hvs : (Draw.new c).Admits vs) {a : Ip}
      (ha : ((Draw.new c).run vs).stage = .drawn a) : Reachable prefixes families ((Draw.new c).run vs).source

variable {σ : Type} [RandomSource σ]

/-- the number that a random source yields for the next step -/
def number (d : Draw) (s : σ) : Nat × σ :=
  match d.stage with
  | .choosing places => Random.below .w64 places.length s
  | .drawing i =>
    match d.source.pools[i]? with
    | none => (0, s)
    | some p => p.number s
  | _ => (0, s)

/-- so many steps with the numbers of a random source -/
def follow : Nat → Draw → σ → Draw × σ
  | 0, d, s => (d, s)
  | n + 1, d, s =>
    let (v, s) := d.number s
    follow n (d.step v) s

end Draw

end EdgeTunnel
