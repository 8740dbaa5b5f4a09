/-
The handshake probe.

A probe sends a handshake initiation from a fresh ephemeral key, after a few decoy datagrams of random length and content if
decoys are on, and waits for one datagram. Only the front of a long datagram is looked at, enough to see that it is too long
for a response.
-/
import EdgeTunnel.Probe.Basic
import EdgeTunnel.Random.Source

namespace EdgeTunnel.Probe

/-- a datagram sent to look like other traffic, and the pause after it -/
structure Decoy where
  bytes : List UInt8
  gap : Span
  deriving DecidableEq

namespace Decoys

/-- the least and the largest number of decoys -/
def count : Nat × Nat := (1, 2)

/-- the least and the largest length of a decoy -/
def length : Nat × Nat := (1, 100)

/-- the shortest and the longest pause after a decoy, in milliseconds -/
def gap : Nat × Nat := (200, 500)

variable {σ : Type} [RandomSource σ]

/-- a random decoy: its length, its bytes, its pause -/
def drawOne (s : σ) : Decoy × σ :=
  let (n, s) := Random.between .w64 length.1 length.2 s
  let (bytes, s) := RandomSource.bytes n s
  let (pause, s) := Random.between .w64 gap.1 gap.2 s
  (⟨bytes, .ofMillis pause⟩, s)

def drawMany : Nat → σ → List Decoy × σ
  | 0, s => ([], s)
  | n + 1, s =>
    let (d, s) := drawOne s
    let (ds, s) := drawMany n s
    (d :: ds, s)

def draw (s : σ) : List Decoy × σ :=
  let (n, s) := Random.between .w64 count.1 count.2 s
  drawMany n s

end Decoys

/-- the identity of a probe, how long it waits, and whether it sends decoys -/
structure Prober where
  keys : ProbeKeys
  limit : Span := timeout
  decoys : Bool := true

/-- the most bytes of an answer that are looked at -/
def answerRoom : Nat := 256

/-- what the endpoint does with a datagram: an answer after some time, or nothing -/
abbrev Endpoint := List UInt8 → Option (List UInt8 × Span)

/-- a finished probe: the decoys it sent, the initiation if it came to that, and how it ended -/
structure Attempt where
  decoys : List Decoy
  initiation : Option Handshake.Initiation
  outcome : Except ProbeError Span

namespace Prober

variable {σ : Type} [RandomSource σ]

/-- the initiation of a probe: the ephemeral key is drawn from the random source -/
def initiation (g : Agreement) (p : Prober) (stamp : List UInt8) (s : σ) :
    Except Handshake.HandshakeError Handshake.Initiation × σ :=
  let (ephemeral, s) := PrivateKey.generate s
  ((Handshake.Initiator.new p.keys.own p.keys.peer p.keys.psk).initiate g ephemeral Handshake.probeIndex stamp, s)

/-- how a probe ends once its initiation has been sent -/
def await (g : Agreement) (p : Prober) (i : Handshake.Initiation) (endpoint : Endpoint) : Except ProbeError Span :=
  match endpoint i.packet with
  | none => .error (.timeout p.limit)
  | some (answer, rtt) =>
    if p.limit < rtt then .error (.timeout p.limit)
    else
      match i.consume g (answer.take answerRoom) with
      | .ok _ => .ok rtt
      | .error e => .error (.handshake e)

/-- a probe of a target -/
def attempt (g : Agreement) (h : Host) (p : Prober) (target : SocketAddress) (stamp : List UInt8) (s : σ)
    (endpoint : Endpoint) : Attempt :=
  match h.openUdp target with
  | .error e => ⟨[], none, .error (.io e)⟩
  | .ok () =>
    match p.initiation g stamp s with
    | (.error e, _) => ⟨[], none, .error (.handshake e)⟩
    | (.ok i, s) => ⟨if p.decoys then (Decoys.draw s).1 else [], some i, p.await g i endpoint⟩

end Prober

end EdgeTunnel.Probe
