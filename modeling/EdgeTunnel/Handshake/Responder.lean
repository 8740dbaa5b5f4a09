/-
The responding side of the handshake.

`read` takes an initiation apart: its tag, the initiator's public key and the timestamp. `respond` writes the response to
it. Together with the initiator this is the whole exchange.
-/
import EdgeTunnel.Handshake.Initiator

namespace EdgeTunnel.Handshake

structure Responder where
  own : PrivateKey
  psk : PresharedKey
  index : UInt32

/-- what a responder learns from an initiation -/
structure Greeting where
  index : List UInt8
  ephemeral : PublicKey
  peer : PublicKey
  stamp : List UInt8
  transcript : Transcript

/-- an opened text, or the error of a failed opening -/
def opened (box : Option (List UInt8)) : Except HandshakeError (List UInt8) :=
  match box with
  | some text => .ok text
  | none => .error .decrypt

/-- an initiation taken apart -/
def Responder.read (g : Agreement) (r : Responder) (packet : List UInt8) : Except HandshakeError Greeting := do
  if packet.length ≠ initiationLength ∨ packet.headD 0 ≠ initiationType then throw (.badLength packet.length)
  let own := g.publicKey r.own
  if messageTag own (slice 0 116 packet) ≠ slice 116 132 packet then throw .decrypt
  let ephemeral := keyAt 8 packet
  let e := ephemeral.key.bytes
  let t := ((Transcript.start own).mixKey e).mixHash e
  let es ← secret g r.own ephemeral
  let (key, t) := t.mixKeyOut es
  let (text, t) := t.openHash key (slice 40 88 packet)
  let peer : PublicKey := ⟨Key.ofPrefix (← opened text)⟩
  let ss ← secret g r.own peer
  let (key, t) := t.mixKeyOut ss
  let (text, t) := t.openHash key (slice 88 116 packet)
  let stamp ← opened text
  return ⟨slice 4 8 packet, ephemeral, peer, stamp, t⟩

/-- the response to what was read, with an ephemeral key -/
def Responder.answer (g : Agreement) (r : Responder) (i : Greeting) (ephemeral : PrivateKey) :
    Except HandshakeError (List UInt8) := do
  let e := (g.publicKey ephemeral).key.bytes
  let t := (i.transcript.mixKey e).mixHash e
  let ee ← secret g ephemeral i.ephemeral
  let se ← secret g ephemeral i.peer
  let (key, t) := ((t.mixKey ee).mixKey se).mixPreshared r.psk
  let box := Crypto.Aead.sealed key [] t.hash
  let body := responseType :: ([0, 0, 0] ++ Crypto.bytesOfNat 4 r.index.toNat ++ i.index ++ e ++ box)
  return body ++ messageTag i.peer body ++ List.replicate 16 0

/-- the response to an initiation, with an ephemeral key -/
def Responder.respond (g : Agreement) (r : Responder) (packet : List UInt8) (ephemeral : PrivateKey) :
    Except HandshakeError (List UInt8) := do
  r.answer g (← r.read g packet) ephemeral

end EdgeTunnel.Handshake
