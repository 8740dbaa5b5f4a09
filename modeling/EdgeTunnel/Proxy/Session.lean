/-
A proxied connection, from its first byte to its end.

The request is read and its destination dialed; the client is answered; bytes that were read past the request are handed on;
then both directions are copied side by side, each through its own pooled buffer, until one of them ends. A direction reads
into its buffer and then writes what it has read, so at most one bufferful is between the two streams.
-/
import EdgeTunnel.BufferPool.Basic
import EdgeTunnel.Proxy.Http
import EdgeTunnel.Proxy.Socks

namespace EdgeTunnel.Proxy

/-- reading a request in the dialect that the first byte tells, when there is a first byte -/
def readRequest (pieces : List (List UInt8)) : Option Reading :=
  match pieces.flatten with
  | [] => none
  | first :: rest => some (if first = Socks.version then Socks.read (first :: rest) else Http.read pieces)

/-- the two directions of a connection: from the client up to the remote end, and down from there -/
inductive Direction where
  | up
  | down
  deriving DecidableEq, Repr

/-- one direction: what its source has still to give, its buffer, how much of it is read, and how much of that is written -/
structure Lane where
  source : List UInt8
  buffer : Buffer
  held : Nat
  written : Nat
  deriving DecidableEq

namespace Lane

/-- a lane through which nothing has come yet -/
def new : Lane := ⟨[], ⟨0, []⟩, 0, 0⟩

/-- at most `n` bytes are read into the buffer -/
def fill (l : Lane) (n : Nat) : Lane :=
  let piece := l.source.take (min n l.buffer.bytes.length)
  ⟨l.source.drop piece.length, l.buffer.write 0 piece, piece.length, 0⟩

/-- the bytes that are read and not yet written -/
def ready (l : Lane) : List UInt8 := (l.buffer.bytes.take l.held).drop l.written

/-- so many of them are written -/
def advance (l : Lane) (n : Nat) : Lane := { l with written := l.written + n }

/-- is all written that was read? -/
def isFree (l : Lane) : Bool := l.ready.isEmpty

/-- does a read bring no bytes? The source has ended, or the buffer has no room. -/
def isAtEnd (l : Lane) : Bool := l.source.isEmpty || l.buffer.bytes.isEmpty

end Lane

/-- where a connection stands; `left` are the bytes still to be written there -/
inductive Phase where
  | reading
  | dialing (request : Request)
  /-- the success answer is being written -/
  | answering (request : Request) (left : List UInt8)
  /-- the bytes read past the request are being handed on -/
  | handing (left : List UInt8)
  /-- the failure answer is being written -/
  | refusing (request : Request) (reason : String) (left : List UInt8)
  | copying
  | ended (cause : Option ProxyError)
  deriving DecidableEq

namespace Phase

/-- what comes after the answer: handing on these bytes, if there are any -/
def afterAnswer (pending : List UInt8) : Phase := if pending.isEmpty then .copying else .handing pending

/-- what comes after the dial: the success answer, if the dialect has one -/
def afterDial (q : Request) : Phase :=
  if q.dialect.success.isEmpty then afterAnswer q.pending else .answering q q.dialect.success

end Phase

/-- a connection; `toClient` and `toRemote` are the bytes handed to the two streams, `dialed` the destinations -/
structure Session where
  /-- the client's bytes in the pieces they are read in while the request is read -/
  pieces : List (List UInt8)
  phase : Phase
  up : Lane
  down : Lane
  toClient : List UInt8
  toRemote : List UInt8
  dialed : List String

inductive SessionEvent where
  /-- the request has been read, or cannot be -/
  | read
  /-- reading is given up when so many bytes of the answers meanwhile are out: nothing came for too long, a stream failed, or
  the front drops the connection -/
  | abandon (n : Nat) (cause : Option ProxyError)
  /-- the dial ends; the remote end will send these bytes -/
  | dialed (remote : Except String (List UInt8))
  /-- the stream takes so many of the bytes to be written -/
  | wrote (n : Nat)
  /-- a stream fails, or nothing came in a direction for too long -/
  | fault (cause : ProxyError)
  /-- a direction reads at most so many bytes -/
  | copyRead (d : Direction) (n : Nat)
  /-- the stream at the end of a direction takes so many of the bytes that were read -/
  | copyWrite (d : Direction) (n : Nat)
  /-- a direction reads no bytes -/
  | copyEnd (d : Direction)
  /-- the front drops the connection -/
  | drop

namespace Session

/-- a connection that has just been accepted, with buffers of its own still to be taken -/
def new (pieces : List (List UInt8)) : Session := ⟨pieces, .reading, .new, .new, [], [], []⟩

/-- the connection with the two buffers that a pool gives it -/
def withBuffers (s : Session) (up down : Buffer) : Session :=
  { s with up := { s.up with buffer := up }, down := { s.down with buffer := down } }

def lane (s : Session) : Direction → Lane
  | .up => s.up
  | .down => s.down

def setLane (s : Session) (d : Direction) (l : Lane) : Session :=
  match d with
  | .up => { s with up := l }
  | .down => { s with down := l }

/-- the bytes handed to the stream at the end of a direction -/
def handed (s : Session) : Direction → List UInt8
  | .up => s.toRemote
  | .down => s.toClient

def hand (s : Session) (d : Direction) (bytes : List UInt8) : Session :=
  match d with
  | .up => { s with toRemote := s.toRemote ++ bytes }
  | .down => { s with toClient := s.toClient ++ bytes }

def finish (s : Session) (cause : Option ProxyError) : Session := { s with phase := .ended cause }

/-- the request has been read, or cannot be -/
def readStep (s : Session) : Session :=
  match readRequest s.pieces with
  | none => s.finish none
  | some r =>
    let s := s.hand .down r.replies
    match r.outcome with
    | .error e => s.finish (some e)
    | .ok q => { s with phase := .dialing q, up := { s.up with source := r.rest } }

/-- reading is given up when so many bytes of the answers are out -/
def abandonStep (s : Session) (n : Nat) (cause : Option ProxyError) : Session :=
  match readRequest s.pieces with
  | none => s.finish cause
  | some r => (s.hand .down (r.replies.take n)).finish cause

def dialStep (s : Session) (q : Request) : Except String (List UInt8) → Session
  | .ok remote =>
    { s with phase := .afterDial q, dialed := s.dialed ++ [q.destination], down := { s.down with source := remote } }
  | .error reason => { s with phase := .refusing q reason q.dialect.failure, dialed := s.dialed ++ [q.destination] }

/-- the stream at the end of a direction takes so many bytes; the rest is written next, or it is all written -/
def writeStep (s : Session) (d : Direction) (left : List UInt8) (n : Nat) (more : List UInt8 → Phase) (done : Phase) :
    Session :=
  { s.hand d (left.take n) with phase := if n < left.length then more (left.drop n) else done }

/-- one step; an event that does not fit the phase changes nothing -/
def step (s : Session) (e : SessionEvent) : Session :=
  match s.phase, e with
  | .ended _, _ => s
  | _, .drop => s.finish none
  | .reading, .read => s.readStep
  | .reading, .abandon n cause => s.abandonStep n cause
  | .dialing q, .dialed remote => s.dialStep q remote
  | .answering q left, .wrote n => s.writeStep .down left n (.answering q) (.afterAnswer q.pending)
  | .answering _ _, .fault cause => s.finish (some cause)
  | .handing left, .wrote n => s.writeStep .up left n .handing .copying
  | .handing _, .fault cause => s.finish (some cause)
  | .refusing q reason left, .wrote n =>
    s.writeStep .down left n (.refusing q reason) (.ended (some (.connectionFailed q.destination reason)))
  | .refusing q reason _, .fault _ => s.finish (some (.connectionFailed q.destination reason))
  | .copying, .copyRead d n => if (s.lane d).isFree then s.setLane d ((s.lane d).fill n) else s
  | .copying, .copyWrite d n => (s.hand d ((s.lane d).ready.take n)).setLane d ((s.lane d).advance n)
  | .copying, .copyEnd d => if (s.lane d).isFree && (s.lane d).isAtEnd then s.finish none else s
  | .copying, .fault cause => s.finish (some cause)
  | _, _ => s

def run (s : Session) (es : List SessionEvent) : Session := es.foldl step s

end Session

end EdgeTunnel.Proxy
