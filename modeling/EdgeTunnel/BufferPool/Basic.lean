/-
A pool of buffers of one size.

Idle buffers wait in a queue. Taking a buffer takes the one that has been idle longest, or makes a new one filled with
zeros; a returned buffer goes to the end of the queue, unless the queue is full, and then it is gone. A buffer keeps what
its last holder wrote.
-/
namespace EdgeTunnel

structure Buffer where
  id : Nat
  bytes : List UInt8
  deriving DecidableEq, Repr

/-- the buffer with `data` written at an offset; what does not fit is dropped -/
def Buffer.write (b : Buffer) (offset : Nat) (data : List UInt8) : Buffer :=
  { b with bytes := (b.bytes.take offset ++ data.take (b.bytes.length - offset)) ++ b.bytes.drop (offset + data.length) }

/-- the most idle buffers, the size of a buffer, the idle ones from the longest idle on, and how many were ever made -/
structure BufferPool where
  capacity : Nat
  size : Nat
  idle : List Buffer
  made : Nat
  deriving DecidableEq, Repr

namespace BufferPool

/-- a pool without buffers, with room for at least one -/
def new (capacity size : Nat) : BufferPool := ⟨max capacity 1, size, [], 0⟩

def get (p : BufferPool) : Buffer × BufferPool :=
  match p.idle with
  | b :: rest => (b, { p with idle := rest })
  | [] => (⟨p.made, List.replicate p.size 0⟩, { p with made := p.made + 1 })

def put (p : BufferPool) (b : Buffer) : BufferPool :=
  if p.idle.length < p.capacity then { p with idle := p.idle ++ [b] } else p

end BufferPool

end EdgeTunnel
