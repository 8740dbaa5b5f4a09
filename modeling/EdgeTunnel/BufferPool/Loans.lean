/-
A pool and the buffers that are out on loan.

A pool is used through handles: its own and those of its clones. All of them share one queue, and each has the size of a new
buffer with it. Every loan has a name. A new loan under a name in use returns the buffer that was held under it, after the
new one is taken.
-/
import EdgeTunnel.BufferPool.Basic

namespace EdgeTunnel.BufferPool

/-- a pool, the size of a new buffer for each handle on it, and the named buffers taken from it -/
structure Loans where
  pool : BufferPool
  sizes : List Nat
  held : List (String × Buffer)

/-- what is done with a pool; a handle is named by its number, and the pool's own is the first -/
inductive LoanOp where
  | clone (handle : Nat)
  | get (name : String) (handle : Nat := 0)
  | write (name : String) (offset : Nat) (data : List UInt8)
  | drop (name : String)

namespace Loans

def new (p : BufferPool) : Loans := ⟨p, [p.size], []⟩

def held? (l : Loans) (name : String) : Option Buffer := l.held.lookup name

/-- the loan under a name is returned, if there is one -/
def drop (l : Loans) (name : String) : Loans :=
  match l.held? name with
  | none => l
  | some b => { l with pool := l.pool.put b, held := l.held.filter (·.1 != name) }

/-- a buffer is taken through a handle with this size, and held under a name -/
def borrow (l : Loans) (size : Nat) (name : String) : Loans :=
  let (b, p) := { l.pool with size }.get
  let l := { l with pool := p }.drop name
  { l with held := (name, b) :: l.held }

/-- one step; without its handle there is none -/
def step (l : Loans) : LoanOp → Loans
  | .clone handle =>
    match l.sizes[handle]? with
    | none => l
    | some size => { l with sizes := l.sizes ++ [size] }
  | .get name handle =>
    match l.sizes[handle]? with
    | none => l
    | some size => l.borrow size name
  | .write name offset data =>
    { l with held := l.held.map fun e => if e.1 = name then (e.1, e.2.write offset data) else e }
  | .drop name => l.drop name

def run (l : Loans) (ops : List LoanOp) : Loans := ops.foldl step l

end Loans

end EdgeTunnel.BufferPool
