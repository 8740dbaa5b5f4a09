/-
The ChaCha block function.

A state is four rows of four 32-bit words: constants, key, key, counter and nonce. A double round mixes the columns and
then the diagonals; a block is the state after some double rounds added to the state before. Words are little-endian.
-/
import EdgeTunnel.Power

namespace EdgeTunnel.Crypto

/-- four words that are mixed side by side -/
structure Row where
  a : UInt32
  b : UInt32
  c : UInt32
  d : UInt32

namespace Row

@[inline] def zip (f : UInt32 → UInt32 → UInt32) (x y : Row) : Row := ⟨f x.a y.a, f x.b y.b, f x.c y.c, f x.d y.d⟩

/-- the words moved left by one place -/
@[inline] def turn (x : Row) : Row := ⟨x.b, x.c, x.d, x.a⟩

@[inline] def rotl (x : Row) (n : UInt32) : Row :=
  let f := fun (w : UInt32) => (w <<< n) ||| (w >>> (32 - n))
  ⟨f x.a, f x.b, f x.c, f x.d⟩

@[inline] def rotr (x : Row) (n : UInt32) : Row := x.rotl (32 - n)

def toList (x : Row) : List UInt32 := [x.a, x.b, x.c, x.d]

end Row

/-- the word of four bytes, lowest first -/
def wordOfBytes (a b c d : UInt8) : UInt32 :=
  a.toUInt32 ||| (b.toUInt32 <<< 8) ||| (c.toUInt32 <<< 16) ||| (d.toUInt32 <<< 24)

/-- the words of a byte string, lowest byte first; bytes that do not fill a word are dropped -/
def words : List UInt8 → List UInt32
  | a :: b :: c :: d :: r => wordOfBytes a b c d :: words r
  | _ => []

/-- the four bytes of a word, lowest first -/
def bytesOfWord (w : UInt32) : List UInt8 := [w.toUInt8, (w >>> 8).toUInt8, (w >>> 16).toUInt8, (w >>> 24).toUInt8]

namespace ChaCha

structure State where
  r0 : Row
  r1 : Row
  r2 : Row
  r3 : Row

def columns (s : State) : State :=
  let a := s.r0.zip (· + ·) s.r1
  let d := (s.r3.zip (· ^^^ ·) a).rotl 16
  let c := s.r2.zip (· + ·) d
  let b := (s.r1.zip (· ^^^ ·) c).rotl 12
  let a := a.zip (· + ·) b
  let d := (d.zip (· ^^^ ·) a).rotl 8
  let c := c.zip (· + ·) d
  let b := (b.zip (· ^^^ ·) c).rotl 7
  ⟨a, b, c, d⟩

/-- columns, then diagonals -/
def doubleRound (s : State) : State :=
  let s := columns s
  let s := columns ⟨s.r0, s.r1.turn, s.r2.turn.turn, s.r3.turn.turn.turn⟩
  ⟨s.r0, s.r1.turn.turn.turn, s.r2.turn.turn, s.r3.turn⟩

def mix : Nat → State → State
  | 0, s => s
  | n + 1, s => mix n (doubleRound s)

/-- the first row of every state: "expand 32-byte k" -/
def constants : Row := ⟨0x61707865, 0x3320646e, 0x79622d32, 0x6b206574⟩

/-- a row from the front of a list of words, zero where it is short -/
def row (ws : List UInt32) : Row := ⟨ws.getD 0 0, ws.getD 1 0, ws.getD 2 0, ws.getD 3 0⟩

/-- the sixteen words of a block -/
def block (doubles : Nat) (key : List UInt32) (last : Row) : List UInt32 :=
  let s : State := ⟨constants, row key, row (key.drop 4), last⟩
  let t := mix doubles s
  (t.r0.zip (· + ·) s.r0).toList ++ (t.r1.zip (· + ·) s.r1).toList ++ (t.r2.zip (· + ·) s.r2).toList ++
    (t.r3.zip (· + ·) s.r3).toList

end ChaCha

end EdgeTunnel.Crypto
