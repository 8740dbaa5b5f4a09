/-
Buffers of a pool.

- `Buffer.label_write`: a write leaves a buffer its number and its size.
- `BufferPool.get_eq`: a buffer comes from the head of the queue, or is made when there is none.
- `BufferPool.put_idle`: a returned buffer goes to the end of the queue, or nowhere when there is no room.
-/
import EdgeTunnel.BufferPool.Basic
import Mathlib.Tactic

namespace EdgeTunnel

/-- the number and the size of a buffer -/
def Buffer.label (b : Buffer) : Nat × Nat := (b.id, b.bytes.length)

theorem Buffer.label_write (b : Buffer) (offset : Nat) (data : List UInt8) : (b.write offset data).label = b.label := by
  simp only [label, write, List.length_append, List.length_take, List.length_drop, Prod.mk.injEq, true_and]
  omega

namespace BufferPool

/-- a buffer comes from the head of the queue, or is made when there is none -/
theorem get_eq (p : BufferPool) :
    (∃ b rest, p.idle = b :: rest ∧ p.get = (b, { p with idle := rest })) ∨
      p.idle = [] ∧ p.get = (⟨p.made, List.replicate p.size 0⟩, { p with made := p.made + 1 }) := by
  unfold get
  cases hidle : p.idle with
  | nil => exact .inr ⟨rfl, rfl⟩
  | cons b rest => exact .inl ⟨b, rest, rfl, rfl⟩

variable (p : BufferPool) (b : Buffer)

theorem put_idle : (p.put b).idle = p.idle ++ if p.idle.length < p.capacity then [b] else [] := by
  unfold put
  split_ifs
  · rfl
  · exact (List.append_nil _).symm

theorem put_capacity : (p.put b).capacity = p.capacity := by unfold put; split_ifs <;> rfl

theorem put_made : (p.put b).made = p.made := by unfold put; split_ifs <;> rfl

end BufferPool

end EdgeTunnel
