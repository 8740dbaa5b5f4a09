/-
Authenticated encryption: the ChaCha20 stream with a Poly1305 tag, under a nonce of zeros.

The text is combined with the key stream from block one on; block zero gives the one-time key of the tag. The tag covers
the additional data and the combined text, each filled up to sixteen bytes, and their lengths. Opening checks the tag
before it combines again.
-/
import EdgeTunnel.Crypto.ChaCha
import EdgeTunnel.Crypto.LittleEndian

namespace EdgeTunnel.Crypto.Aead

/-- the 64 bytes of a block of the key stream -/
def streamBlock (key : List UInt8) (n : Nat) : List UInt8 :=
  (ChaCha.block 10 (words key) ⟨UInt32.ofNat n, 0, 0, 0⟩).flatMap bytesOfWord

/-- so many bytes of the key stream from block one on -/
def stream (key : List UInt8) (len : Nat) : List UInt8 :=
  ((List.range ((len + 63) / 64)).flatMap fun i => streamBlock key (i + 1)).take len

def combine (key text : List UInt8) : List UInt8 := List.zipWith (· ^^^ ·) text (stream key text.length)

def modulus : Nat := 2 ^ 130 - 5

/-- the value of a message at `r`: its blocks of sixteen bytes, each with a one above it, are the coefficients -/
def evaluate (r acc : Nat) (msg : List UInt8) : Nat :=
  if msg.isEmpty then acc
  else evaluate r ((acc + natOfBytes (msg.take 16 ++ [1])) * r % modulus) (msg.drop 16)
termination_by msg.length
decreasing_by
  cases msg
  · simp_all
  · simp only [List.length_drop, List.length_cons]; omega

/-- the tag of a message under a one-time key of 32 bytes -/
def poly1305 (key msg : List UInt8) : List UInt8 :=
  let r := natOfBytes (key.take 16) &&& 0x0ffffffc0ffffffc0ffffffc0fffffff
  bytesOfNat 16 (evaluate r 0 msg + natOfBytes (key.drop 16))

/-- a byte string filled up with zeros to whole blocks of sixteen -/
def pad16 (bs : List UInt8) : List UInt8 := bs ++ List.replicate ((16 - bs.length % 16) % 16) 0

/-- the tag of a combined text and its additional data -/
def tag (key data text : List UInt8) : List UInt8 :=
  poly1305 ((streamBlock key 0).take 32)
    (pad16 data ++ pad16 text ++ bytesOfNat 8 data.length ++ bytesOfNat 8 text.length)

/-- the combined text followed by its tag -/
def sealed (key text data : List UInt8) : List UInt8 :=
  let c := combine key text
  c ++ tag key data c

/-- the text of a sealed message, when its tag is right -/
def openSealed (key box data : List UInt8) : Option (List UInt8) :=
  if box.length < 16 then none
  else
    let c := box.take (box.length - 16)
    if tag key data c = box.drop (box.length - 16) then some (combine key c) else none

end EdgeTunnel.Crypto.Aead
