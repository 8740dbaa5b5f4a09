/-
Candidate addresses, drawn from a set of prefixes at random and without repetition.

Every prefix has a pool. A small pool is a list of the offsets still to come, from which one is taken and the last put in
its place; a large pool is the set of offsets that are gone, and offsets are drawn until one is not in it. An open pool is
picked at random for each draw. When no pool is open a pass is complete and every pool is filled again.
-/
import EdgeTunnel.Net.Cidr
import EdgeTunnel.Random.Source
import Std.Data.HashSet

namespace EdgeTunnel

structure Families where
  ipv4 : Bool
  ipv6 : Bool
  deriving DecidableEq

namespace Families

instance : Inhabited Families := ⟨⟨true, false⟩⟩

/-- may addresses of this prefix be drawn? -/
def allows (f : Families) (p : Cidr) : Bool := if p.isV4 then f.ipv4 else f.ipv6

end Families

/-- the offsets of a pool: those to come, or those gone -/
inductive Remaining where
  | dense (left : Array Nat)
  | sparse (gone : Std.HashSet Nat)

/-- a prefix and what is left of it in this pass -/
structure Pool where
  cidr : Cidr
  remaining : Remaining

namespace Pool

/-- pools of at most this many addresses list their offsets -/
def denseLimit : Nat := 2 ^ 16

def full (p : Cidr) : Remaining := if p.size ≤ denseLimit then .dense (Array.range p.size) else .sparse ∅

def ofCidr (p : Cidr) : Pool := ⟨p, full p⟩

/-- the pool with all offsets to come again -/
def refill (p : Pool) : Pool := ofCidr p.cidr

def isExhausted (p : Pool) : Bool :=
  match p.remaining with
  | .dense left => left.isEmpty
  | .sparse gone => p.cidr.size ≤ gone.size

/-- `left` without its entry `i`: the last entry takes its place -/
def swapRemove (left : Array Nat) (i : Nat) : Array Nat := (left.swapIfInBounds i (left.size - 1)).pop

variable {σ : Type} [RandomSource σ]

/-- a random offset of a large pool, whatever is gone -/
def anyOffset (p : Cidr) (s : σ) : Nat × σ :=
  if p.hostBits = 128 then Random.word .w128 s else Random.below .w128 p.size s

/-- the first of the random offsets that is not gone; after so many draws the least one that is not -/
def freshOffset (p : Cidr) (gone : Std.HashSet Nat) : Nat → σ → Nat × σ
  | 0, s => (((List.range (gone.size + 1)).find? (!gone.contains ·)).getD 0, s)
  | k + 1, s =>
    let (o, s) := anyOffset p s
    if gone.contains o then freshOffset p gone k s else (o, s)

/-- an offset for the next draw of an open pool, by its place in the list or by itself -/
def pick (p : Pool) (s : σ) : Nat × σ :=
  match p.remaining with
  | .dense left => Random.below .w64 left.size s
  | .sparse gone => freshOffset p.cidr gone (RandomSource.patience σ) s

/-- the address that a pick stands for -/
def address (p : Pool) (i : Nat) : Ip :=
  match p.remaining with
  | .dense left => p.cidr.nth (left.getD i 0)
  | .sparse _ => p.cidr.nth i

/-- the pool after a pick -/
def take (p : Pool) (i : Nat) : Pool :=
  match p with
  | ⟨cidr, .dense left⟩ => ⟨cidr, .dense (swapRemove left i)⟩
  | ⟨cidr, .sparse gone⟩ => ⟨cidr, .sparse (gone.insert i)⟩

end Pool

/-- the pools of a prefix set and the number of completed passes -/
structure Candidates where
  pools : List Pool
  passes : Nat

namespace Candidates

/-- the source of a prefix list, refused when no prefix is of an enabled family -/
def new (prefixes : List Cidr) (families : Families) : Except CidrError Candidates :=
  let pools := (prefixes.filter families.allows).map Pool.ofCidr
  if pools.isEmpty then .error .noPrefixes else .ok ⟨pools, 0⟩

/-- the places of the pools that are not exhausted -/
def openPools (c : Candidates) : List Nat :=
  (List.range c.pools.length).filter fun i => c.pools[i]?.any fun p => !p.isExhausted

/-- a new pass: every pool is filled again -/
def nextPass (c : Candidates) : Candidates := ⟨c.pools.map Pool.refill, c.passes + 1⟩

variable {σ : Type} [RandomSource σ]

/-- a draw while some pool is open -/
def drawFrom (c : Candidates) (places : List Nat) (s : σ) : Ip × Candidates × σ :=
  let (k, s) := Random.below .w64 places.length s
  let i := places.getD k 0
  match c.pools[i]? with
  | none => (default, c, s)
  | some p =>
    let (o, s) := p.pick s
    let a := p.address o
    (a, { c with pools := c.pools.modify i (·.take o) }, s)

/-- the next candidate; a new pass begins first when no pool is open -/
def next (c : Candidates) (s : σ) : Ip × Candidates × σ :=
  match c.openPools with
  | [] =>
    let c := c.nextPass
    c.drawFrom c.openPools s
  | places => c.drawFrom places s

def take : Nat → Candidates → σ → List Ip × Candidates × σ
  | 0, c, s => ([], c, s)
  | n + 1, c, s =>
    let (a, c, s) := c.next s
    let (as, c, s) := take n c s
    (a :: as, c, s)

end Candidates

end EdgeTunnel
