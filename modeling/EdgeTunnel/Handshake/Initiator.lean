/-
The initiating side of the handshake.

An initiation is 148 bytes: type, sender index, ephemeral key, sealed static key, sealed timestamp, and two tags of which
the second stays zero. A response is 92 bytes: type, sender index, the initiator's index, ephemeral key, sealed empty
text, and two tags, which are not looked at. `consume` checks a response in that order and answers the responder's index.
-/
import EdgeTunnel.Handshake.Transcript

namespace EdgeTunnel.Handshake

inductive HandshakeError where
  | badLength (bytes : Nat)
  | unexpectedType (type : UInt8)
  | indexMismatch (expected got : UInt32)
  | decrypt
  | unexpectedPayload (bytes : Nat)
  | key (cause : KeyError)
  | crypto
  deriving DecidableEq

def HandshakeError.message : HandshakeError → String
  | .badLength n => s!"Response too short or oversized ({n} bytes, expected 92)"
  | .unexpectedType t => s!"Unexpected message type {t}"
  | .indexMismatch e g => s!"Receiver index {g} does not match sender index {e}"
  | .decrypt => "Response failed authentication"
  | .unexpectedPayload n => s!"Response carried a non-empty payload ({n} bytes)"
  | .key e => s!"Key error: {e.message}"
  | .crypto => "Crypto primitive error"

/-- the sender index of every probe -/
def probeIndex : UInt32 := 28

def initiationType : UInt8 := 1

def responseType : UInt8 := 2

def initiationLength : Nat := 148

def responseLength : Nat := 92

/-- the bytes of a message from place `a` up to place `b` -/
def slice (a b : Nat) (bs : List UInt8) : List UInt8 := (bs.take b).drop a

/-- the index in four bytes, lowest first -/
def indexAt (place : Nat) (bs : List UInt8) : UInt32 := UInt32.ofNat (Crypto.natOfBytes (slice place (place + 4) bs))

def keyAt (place : Nat) (bs : List UInt8) : PublicKey := ⟨Key.ofPrefix (slice place (place + 32) bs)⟩

/-- an initiator's own key, the responder's public key, and the preshared key -/
structure Initiator where
  own : PrivateKey
  peer : PublicKey
  psk : PresharedKey

/-- the initiator of some keys; without a preshared key the zero key stands in -/
def Initiator.new (own : PrivateKey) (peer : PublicKey) (psk : Option PresharedKey) : Initiator :=
  ⟨own, peer, psk.getD .zero⟩

/-- a built initiation and what is needed to check the response -/
structure Initiation where
  packet : List UInt8
  index : UInt32
  transcript : Transcript
  ephemeral : PrivateKey
  own : PrivateKey
  psk : PresharedKey

/-- a shared secret, or the handshake error of its refusal -/
def secret (g : Agreement) (k : PrivateKey) (peer : PublicKey) : Except HandshakeError (List UInt8) :=
  match g.secret k peer with
  | .ok s => .ok s.bytes
  | .error e => .error (.key e)

/-- the initiation with an ephemeral key, an index and a timestamp -/
def Initiator.initiate (g : Agreement) (i : Initiator) (ephemeral : PrivateKey) (index : UInt32)
    (stamp : List UInt8) : Except HandshakeError Initiation := do
  let e := (g.publicKey ephemeral).key.bytes
  let t := ((Transcript.start i.peer).mixKey e).mixHash e
  let es ← secret g ephemeral i.peer
  let (key, t) := t.mixKeyOut es
  let (boxedStatic, t) := t.sealHash key (g.publicKey i.own).key.bytes
  let ss ← secret g i.own i.peer
  let (key, t) := t.mixKeyOut ss
  let (boxedStamp, t) := t.sealHash key stamp
  let body := initiationType :: ([0, 0, 0] ++ Crypto.bytesOfNat 4 index.toNat ++ e ++ boxedStatic ++ boxedStamp)
  let packet := body ++ messageTag i.peer body ++ List.replicate 16 0
  return ⟨packet, index, t, ephemeral, i.own, i.psk⟩

/-- the state after the responder's ephemeral key, the two secrets with it and the preshared key, and the key that the
empty text is sealed under -/
def Initiation.answerState (g : Agreement) (i : Initiation) (peer : PublicKey) :
    Except HandshakeError (List UInt8 × Transcript) := do
  let t := (i.transcript.mixKey peer.key.bytes).mixHash peer.key.bytes
  let ee ← secret g i.ephemeral peer
  let se ← secret g i.own peer
  return ((t.mixKey ee).mixKey se).mixPreshared i.psk

/-- the responder's index, when a datagram is its valid response -/
def Initiation.consume (g : Agreement) (i : Initiation) (datagram : List UInt8) : Except HandshakeError UInt32 := do
  if datagram.length ≠ responseLength then throw (.badLength datagram.length)
  let type := datagram.headD 0
  if type ≠ responseType then throw (.unexpectedType type)
  let got := indexAt 8 datagram
  if got ≠ i.index then throw (.indexMismatch i.index got)
  let (key, t) ← i.answerState g (keyAt 12 datagram)
  match Crypto.Aead.openSealed key (slice 44 60 datagram) t.hash with
  | none => throw .decrypt
  | some text =>
    if text.isEmpty then return indexAt 4 datagram else throw (.unexpectedPayload text.length)

end EdgeTunnel.Handshake
