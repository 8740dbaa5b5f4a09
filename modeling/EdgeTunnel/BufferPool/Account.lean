/-
What a pool owes for its buffers.

A buffer is around while it is idle or on loan. The idle ones are a queue that only loans and returns change, and a history
of steps says which buffers joined that queue, which were taken from it, and what was written into each buffer.
-/
import EdgeTunnel.BufferPool.Loans

namespace EdgeTunnel

/-- the buffer with everything written that is to be written, in order -/
def Buffer.writes (b : Buffer) (ws : List (Nat × List UInt8)) : Buffer := ws.foldl (fun b w => b.write w.1 w.2) b

namespace BufferPool.Loans

/-- the buffers that are around: the idle ones, then those on loan -/
def buffers (l : Loans) : List Buffer := l.pool.idle ++ l.held.map (·.2)

/-! ## Histories -/

/-- what the steps of a history note down, in order -/
def log {α : Type} (note : Loans → LoanOp → List α) (l : Loans) : List LoanOp → List α
  | [] => []
  | op :: ops => note l op ++ log note (l.step op) ops

/-- the buffer that a step takes from the idle ones -/
def taken (l : Loans) : LoanOp → List Buffer
  | .get _ handle => if handle < l.sizes.length then l.pool.idle.head?.toList else []
  | .clone _ | .write .. | .drop _ => []

/-- the buffer that a step adds to the idle ones: the one that is returned, unless there is no room for it -/
def joined (l : Loans) : LoanOp → List Buffer
  | .get name handle => if handle < l.sizes.length then (l.held? name).toList else []
  | .drop name => if l.pool.idle.length < l.pool.capacity then (l.held? name).toList else []
  | .clone _ | .write .. => []

/-- what a step writes into the buffer with a number -/
def written (id : Nat) (l : Loans) : LoanOp → List (Nat × List UInt8)
  | .write name offset data => if (l.held? name).any (·.id = id) then [(offset, data)] else []
  | .clone _ | .get .. | .drop _ => []

/-! ## Steps -/

/-- `b` is what a pool lends, and `rest` is what stays idle: the buffer that has been idle longest, or, when none is idle, a
new one of zeros -/
def Lends (l : Loans) (size : Nat) (b : Buffer) (rest : List Buffer) : Prop :=
  l.pool.idle = b :: rest ∨
    l.pool.idle = [] ∧ rest = [] ∧ b.bytes = List.replicate size 0 ∧ ∀ c ∈ l.buffers, c.id ≠ b.id

/-- `l'` accounts for a step from `l` when there is room for `most` idle buffers: a clone is one more handle of the same size;
a loan, through any handle, gets what the pool lends; a write changes the buffer under its name; and a return puts the buffer
at the end of the idle ones if there is room. Whatever else is idle or on loan stays as it is. -/
def Accounts (most size : Nat) (l l' : Loans) : LoanOp → Prop
  | .clone handle =>
    l'.sizes = l.sizes ++ l.sizes[handle]?.toList ∧ l'.pool.idle = l.pool.idle ∧ ∀ other, l'.held? other = l.held? other
  | .get name handle =>
    if handle < l.sizes.length then
      ∃ b rest, l.Lends size b rest ∧ l'.held? name = some b ∧ (∀ other ≠ name, l'.held? other = l.held? other) ∧
        l'.pool.idle = rest ++ (l.held? name).toList
    else l' = l
  | .write name offset data =>
    l'.pool.idle = l.pool.idle ∧ l'.held? name = (l.held? name).map (·.write offset data) ∧
      ∀ other ≠ name, l'.held? other = l.held? other
  | .drop name =>
    l'.held? name = none ∧ (∀ other ≠ name, l'.held? other = l.held? other) ∧
      l'.pool.idle = l.pool.idle ++ (if l.pool.idle.length < most then (l.held? name).toList else [])

end BufferPool.Loans

end EdgeTunnel
