/-
The running state of a handshake.

Both sides keep a chaining key and a hash. The hash absorbs what is sent; the chaining key absorbs secrets and gives out
encryption keys. Keys are derived by an HMAC chain: the input is mixed in under the chaining key, and each output block is
the HMAC of the previous block and its number.
-/
import EdgeTunnel.Crypto.Aead
import EdgeTunnel.Crypto.Blake2s
import EdgeTunnel.Key

namespace EdgeTunnel.Handshake

def ascii (s : String) : List UInt8 := s.toList.map fun c => UInt8.ofNat c.toNat

/-- the name of the handshake pattern and its functions -/
def construction : List UInt8 := ascii "Noise_IKpsk2_25519_ChaChaPoly_BLAKE2s"

/-- the name of the framing -/
def identifier : List UInt8 := ascii "WireGuard v1 zx2c4 Jason@zx2c4.com"

/-- what the key of the first message tag is derived from, before the receiver's public key -/
def macLabel : List UInt8 := ascii "mac1----"

/-- so many blocks of an HMAC chain under `key`, after `before` with numbers from `i` on -/
def chainBlocks (key : List UInt8) : (count i : Nat) → (before : List UInt8) → List (List UInt8)
  | 0, _, _ => []
  | n + 1, i, before =>
    let b := Crypto.Blake2s.hmac key (before ++ [UInt8.ofNat i])
    b :: chainBlocks key n (i + 1) b

/-- the blocks derived from a chaining key and an input -/
def derive (count : Nat) (chain input : List UInt8) : List (List UInt8) :=
  chainBlocks (Crypto.Blake2s.hmac chain input) count 1 []

/-- a chaining key and a hash -/
structure Transcript where
  chain : List UInt8
  hash : List UInt8
  deriving DecidableEq

namespace Transcript

/-- the hash absorbs what is sent -/
def mixHash (t : Transcript) (sent : List UInt8) : Transcript := { t with hash := Crypto.Blake2s.hash (t.hash ++ sent) }

/-- the chaining key absorbs an input -/
def mixKey (t : Transcript) (input : List UInt8) : Transcript := { t with chain := (derive 1 t.chain input).getD 0 [] }

/-- the chaining key absorbs an input and gives out an encryption key -/
def mixKeyOut (t : Transcript) (input : List UInt8) : List UInt8 × Transcript :=
  let bs := derive 2 t.chain input
  (bs.getD 1 [], { t with chain := bs.getD 0 [] })

/-- the chaining key absorbs a preshared key, the hash a block of the derivation; an encryption key is given out -/
def mixPreshared (t : Transcript) (psk : PresharedKey) : List UInt8 × Transcript :=
  let bs := derive 3 t.chain psk.key.bytes
  (bs.getD 2 [], (Transcript.mk (bs.getD 0 []) t.hash).mixHash (bs.getD 1 []))

/-- the state before the first message to a receiver -/
def start (receiver : PublicKey) : Transcript :=
  let chain := Crypto.Blake2s.hash construction
  (Transcript.mk chain (Crypto.Blake2s.hash (chain ++ identifier))).mixHash receiver.key.bytes

/-- a text sealed under a key with the hash as additional data, and the state that has absorbed it -/
def sealHash (t : Transcript) (key text : List UInt8) : List UInt8 × Transcript :=
  let box := Crypto.Aead.sealed key text t.hash
  (box, t.mixHash box)

/-- a sealed text opened under a key with the hash as additional data, and the state that has absorbed it -/
def openHash (t : Transcript) (key box : List UInt8) : Option (List UInt8) × Transcript :=
  (Crypto.Aead.openSealed key box t.hash, t.mixHash box)

end Transcript

/-- the tag over the start of a message for a receiver -/
def messageTag (receiver : PublicKey) (start : List UInt8) : List UInt8 :=
  Crypto.Blake2s.mac (Crypto.Blake2s.hash (macLabel ++ receiver.key.bytes)) start

end EdgeTunnel.Handshake
