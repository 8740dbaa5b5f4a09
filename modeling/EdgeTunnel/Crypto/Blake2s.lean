/-
The BLAKE2s hash, plain, keyed and as an HMAC.

A message is cut into blocks of 64 bytes, the last one filled up with zeros; a key is a block of its own in front. Each
block is mixed into the eight words of the state in ten rounds, together with the number of bytes so far and a mark on
the last block. The mixing state is four rows of four words, mixed column by column and then diagonal by diagonal.
-/
import EdgeTunnel.Crypto.ChaCha

namespace EdgeTunnel.Crypto.Blake2s

/-- the first half of the initial words -/
def iv0 : Row := ⟨0x6A09E667, 0xBB67AE85, 0x3C6EF372, 0xA54FF53A⟩

/-- the second half of the initial words -/
def iv1 : Row := ⟨0x510E527F, 0x9B05688C, 0x1F83D9AB, 0x5BE0CD19⟩

/-- the order in which each round takes the message words -/
def schedule : List (List Nat) := [
  [0, 1, 2, 3, 4, 5, 6, 7, 8, 9, 10, 11, 12, 13, 14, 15],
  [14, 10, 4, 8, 9, 15, 13, 6, 1, 12, 0, 2, 11, 7, 5, 3],
  [11, 8, 12, 0, 5, 2, 15, 13, 10, 14, 3, 6, 7, 1, 9, 4],
  [7, 9, 3, 1, 13, 12, 11, 14, 2, 6, 5, 10, 4, 0, 15, 8],
  [9, 0, 5, 7, 2, 4, 10, 15, 14, 1, 11, 12, 6, 8, 3, 13],
  [2, 12, 6, 10, 0, 11, 8, 3, 4, 13, 7, 5, 15, 14, 1, 9],
  [12, 5, 1, 15, 14, 13, 4, 10, 0, 7, 6, 3, 9, 2, 8, 11],
  [13, 11, 7, 14, 12, 1, 3, 9, 5, 0, 15, 4, 8, 6, 2, 10],
  [6, 15, 14, 9, 11, 3, 0, 8, 12, 2, 13, 7, 1, 4, 10, 5],
  [10, 2, 8, 4, 7, 6, 1, 5, 15, 11, 9, 14, 3, 12, 13, 0]]

/-- the mixing of four columns, with two message words for each -/
def columns (x y : Row) (s : ChaCha.State) : ChaCha.State :=
  let a := (s.r0.zip (· + ·) s.r1).zip (· + ·) x
  let d := (s.r3.zip (· ^^^ ·) a).rotr 16
  let c := s.r2.zip (· + ·) d
  let b := (s.r1.zip (· ^^^ ·) c).rotr 12
  let a := (a.zip (· + ·) b).zip (· + ·) y
  let d := (d.zip (· ^^^ ·) a).rotr 8
  let c := c.zip (· + ·) d
  let b := (b.zip (· ^^^ ·) c).rotr 7
  ⟨a, b, c, d⟩

/-- one round over the message words `m`, taken in the order `p` -/
def round (m : Array UInt32) (s : ChaCha.State) (p : List Nat) : ChaCha.State :=
  let w := fun i => m.getD (p.getD i 0) 0
  let s := columns ⟨w 0, w 2, w 4, w 6⟩ ⟨w 1, w 3, w 5, w 7⟩ s
  let s := columns ⟨w 8, w 10, w 12, w 14⟩ ⟨w 9, w 11, w 13, w 15⟩
    ⟨s.r0, s.r1.turn, s.r2.turn.turn, s.r3.turn.turn.turn⟩
  ⟨s.r0, s.r1.turn.turn.turn, s.r2.turn.turn, s.r3.turn⟩

structure State where
  lo : Row
  hi : Row

/-- a block of 64 bytes mixed in; `count` bytes so far, this block's included -/
def compress (h : State) (block : List UInt8) (count : Nat) (last : Bool) : State :=
  let m := (words block).toArray
  let t : Row := ⟨UInt32.ofNat count, UInt32.ofNat (count / 2 ^ 32), if last then 0xFFFFFFFF else 0, 0⟩
  let v := schedule.foldl (round m) ⟨h.lo, h.hi, iv0, iv1.zip (· ^^^ ·) t⟩
  ⟨(h.lo.zip (· ^^^ ·) v.r0).zip (· ^^^ ·) v.r2, (h.hi.zip (· ^^^ ·) v.r1).zip (· ^^^ ·) v.r3⟩

def absorb (h : State) (count : Nat) (msg : List UInt8) : State :=
  if msg.length ≤ 64 then
    compress h (msg ++ List.replicate (64 - msg.length) 0) (count + msg.length) true
  else absorb (compress h (msg.take 64) (count + 64) false) (count + 64) (msg.drop 64)
termination_by msg.length

/-- the first `len` bytes of the state after a message, under a key of at most 32 bytes -/
def digest (len : Nat) (key msg : List UInt8) : List UInt8 :=
  let params := UInt32.ofNat (0x01010000 + key.length * 256 + len)
  let start : State := ⟨⟨iv0.a ^^^ params, iv0.b, iv0.c, iv0.d⟩, iv1⟩
  let msg := if key.isEmpty then msg else key ++ List.replicate (64 - key.length) 0 ++ msg
  let h := absorb start 0 msg
  ((h.lo.toList ++ h.hi.toList).flatMap bytesOfWord).take len

/-- the hash of a message, 32 bytes -/
def hash (msg : List UInt8) : List UInt8 := digest 32 [] msg

/-- the keyed hash of a message, 16 bytes -/
def mac (key msg : List UInt8) : List UInt8 := digest 16 key msg

/-- the HMAC of a message under a key of at most 64 bytes -/
def hmac (key msg : List UInt8) : List UInt8 :=
  let padded := key ++ List.replicate (64 - key.length) 0
  hash (padded.map (· ^^^ 0x5c) ++ hash (padded.map (· ^^^ 0x36) ++ msg))

@[simp] theorem length_mac (key msg : List UInt8) : (mac key msg).length = 16 := by
  simp [mac, digest, Row.toList, bytesOfWord]

end EdgeTunnel.Crypto.Blake2s
