/-
Key material: private, public and preshared keys.

A key is 32 bytes and its text is their padded base64. A key agreement says how a public key and a shared secret come from
a private key; keys are used with the one on Curve25519. A shared secret of zeros means that the peer's key is a
low-order point, and is refused.
-/
import EdgeTunnel.Crypto.Curve25519
import EdgeTunnel.Random.Source
import EdgeTunnel.Text.Base64
import EdgeTunnel.Text.Blank

namespace EdgeTunnel

inductive KeyError where
  | invalidBase64
  | invalidLength (bytes : Nat)
  | lowOrderPoint
  deriving DecidableEq

def KeyError.message : KeyError → String
  | .invalidBase64 => "Invalid base64 encoding"
  | .invalidLength n => s!"Invalid key length {n} (expected 32 bytes)"
  | .lowOrderPoint => "Peer public key is a low-order point"

structure Key where
  bytes : List UInt8
  length_bytes : bytes.length = 32
  deriving DecidableEq

namespace Key

/-- the first 32 bytes, filled up with zeros -/
def ofPrefix (bs : List UInt8) : Key :=
  ⟨bs.take 32 ++ List.replicate (32 - (bs.take 32).length) 0, by
    simp only [List.length_append, List.length_replicate, List.length_take]; omega⟩

def zero : Key := ⟨List.replicate 32 0, by simp⟩

instance : Inhabited Key := ⟨zero⟩

/-- the padded base64 of a key -/
def text (k : Key) : List Char := Text.Base64.encode k.bytes

/-- the key a text writes, blanks around it aside -/
def parse (s : List Char) : Except KeyError Key :=
  match Text.Base64.decode (Text.trim s) with
  | none => .error .invalidBase64
  | some bs => if h : bs.length = 32 then .ok ⟨bs, h⟩ else .error (.invalidLength bs.length)

end Key

structure PrivateKey where
  key : Key
  deriving DecidableEq, Inhabited

structure PublicKey where
  key : Key
  deriving DecidableEq, Inhabited

/-- a key both sides know beforehand -/
structure PresharedKey where
  key : Key
  deriving DecidableEq

/-- the preshared key of sides that have agreed on none -/
def PresharedKey.zero : PresharedKey := ⟨Key.zero⟩

/-- how public keys and shared secrets come from private keys -/
structure Agreement where
  publicKey : PrivateKey → PublicKey
  shared : PrivateKey → PublicKey → Key

namespace Agreement

/-- the agreement on Curve25519 -/
def curve25519 : Agreement where
  publicKey k := ⟨⟨Crypto.Curve25519.publicKey k.key.bytes, by simp [Crypto.Curve25519.publicKey]⟩⟩
  shared k p := ⟨Crypto.Curve25519.shared k.key.bytes p.key.bytes, by simp [Crypto.Curve25519.shared]⟩

/-- the shared secret with a peer, refused when it is all zero -/
def secret (g : Agreement) (k : PrivateKey) (peer : PublicKey) : Except KeyError Key :=
  let s := g.shared k peer
  if s = Key.zero then .error .lowOrderPoint else .ok s

end Agreement

namespace PrivateKey

def publicKey (k : PrivateKey) : PublicKey := Agreement.curve25519.publicKey k

/-- 32 random bytes -/
def generate {σ : Type} [RandomSource σ] (s : σ) : PrivateKey × σ :=
  let (bs, s) := RandomSource.bytes 32 s
  (⟨Key.ofPrefix bs⟩, s)

/-- how a private key is shown: not at all -/
def shown (_ : PrivateKey) : String := "PrivateKey([redacted])"

end PrivateKey

/-- how a public key is shown: its first eight characters -/
def PublicKey.shown (k : PublicKey) : String := s!"PublicKey({String.ofList (k.key.text.take 8)}...)"

/-- how a preshared key is shown: not at all -/
def PresharedKey.shown (_ : PresharedKey) : String := "PresharedKey([redacted])"

/-- a private key with its public key -/
structure KeyPair where
  secret : PrivateKey
  shared : PublicKey

namespace KeyPair

def of (k : PrivateKey) : KeyPair := ⟨k, k.publicKey⟩

/-- how a pair is shown: by its public key -/
def shown (p : KeyPair) : String := "KeyPair \x7b public: " ++ p.shared.shown ++ " \x7d"

end KeyPair

structure ProbeKeys where
  own : PrivateKey
  peer : PublicKey
  psk : Option PresharedKey

/-- the probe keys of base64 texts: the private key's error before the peer's before the preshared key's -/
def ProbeKeys.parse (own peer : List Char) (psk : Option (List Char)) : Except KeyError ProbeKeys := do
  let own ← Key.parse own
  let peer ← Key.parse peer
  let psk ← psk.mapM Key.parse
  return ⟨⟨own⟩, ⟨peer⟩, psk.map (⟨·⟩)⟩

end EdgeTunnel
