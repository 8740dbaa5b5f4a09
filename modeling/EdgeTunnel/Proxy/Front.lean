/-
A proxy front: one listening socket, a bounded number of connections, and a pool of copy buffers.

The accept loop takes a permit, accepts a connection and starts a handler that keeps the permit until it ends. Before each
of these two steps it looks whether it was canceled, and if so it ends, which closes the listening socket; a cancellation
after the look is seen at the next one.

A handler counts as active from its first step on. It borrows a buffer for each direction when it begins to copy, one after
the other. When its connection is over, for whatever reason, it gives back what it has borrowed, the last first, then it no
longer counts as active, and at last it returns its permit.
-/
import EdgeTunnel.Net.Host
import EdgeTunnel.Proxy.Config
import EdgeTunnel.Proxy.Error
import EdgeTunnel.Proxy.Session

namespace EdgeTunnel.Proxy

inductive AcceptLoop where
  /-- it has no permit, and looks next -/
  | idle
  /-- it waits for a permit -/
  | acquiring
  /-- it has a permit, and looks next -/
  | ready
  /-- it has a permit and waits for a connection -/
  | accepting
  | ended
  deriving DecidableEq, Repr

/-- has the loop a permit of its own? -/
def AcceptLoop.hasPermit : AcceptLoop → Bool
  | .ready => true
  | .accepting => true
  | _ => false

inductive Stage where
  /-- it has made no step -/
  | waiting
  /-- it counts as active -/
  | counted
  /-- it no longer counts, but has its permit still -/
  | leaving
  deriving DecidableEq, Repr

/-- a handler: its number, where it stands, its connection, and how many buffers it has borrowed for that -/
structure Handler where
  id : Nat
  stage : Stage
  session : Session
  loans : Nat

inductive HandlerEvent where
  | begin
  /-- a buffer is borrowed for the next direction -/
  | borrow
  /-- something happens to the connection -/
  | session (e : SessionEvent)
  /-- the buffer that was borrowed last is given back -/
  | giveBack
  /-- the handler no longer counts as active -/
  | uncount
  /-- the permit is returned -/
  | release

namespace Handler

def new (id : Nat) (pieces : List (List UInt8)) : Handler := ⟨id, .waiting, .new pieces, 0⟩

/-- is its connection over? -/
def isOver (h : Handler) : Bool :=
  match h.session.phase with
  | .ended _ => true
  | _ => false

/-- the buffers it has borrowed -/
def buffers (h : Handler) : List Buffer := [h.session.up.buffer, h.session.down.buffer].take h.loans

/-- may it borrow a buffer? -/
def mayBorrow (h : Handler) : Bool := h.stage = .counted && h.session.phase = .copying && h.loans < 2

/-- the handler with a buffer for the next direction -/
def take (h : Handler) (b : Buffer) : Handler :=
  let s := h.session
  match h.loans with
  | 0 => { h with session := { s with up := { s.up with buffer := b } }, loans := 1 }
  | _ => { h with session := { s with down := { s.down with buffer := b } }, loans := 2 }

/-- may this happen to its connection? Copying needs both buffers, and only a cancellation makes the front drop it. -/
def admits (h : Handler) (canceled : Bool) (e : SessionEvent) : Bool :=
  h.stage = .counted && (match e with
    | .drop => canceled
    | _ => h.session.phase ≠ .copying || h.loans = 2)

end Handler

structure Front where
  limit : Nat
  permits : Nat
  loop : AcceptLoop
  handlers : List Handler
  /-- the number of connections that count as active -/
  active : Nat
  pool : BufferPool
  accepted : Nat
  canceled : Bool

inductive FrontEvent where
  /-- the loop looks whether it was canceled -/
  | look
  /-- the loop takes a permit -/
  | acquire
  /-- a connection is accepted; its client will send these bytes, in these pieces -/
  | accept (pieces : List (List UInt8))
  | acceptError
  /-- the handler with a number makes a step -/
  | handler (id : Nat) (e : HandlerEvent)
  | cancel

namespace Front

/-- the front of a configuration, listening; its token may have fired already -/
def new (c : Config) (canceled : Bool) : Front where
  limit := c.maxConnections.toNat
  permits := c.maxConnections.toNat
  loop := .idle
  handlers := []
  active := 0
  pool := .new (c.maxConnections.toNat * 2) c.bufferSize.toNat
  accepted := 0
  canceled

/-- the address that a front listens on -/
def listen (h : Host) (c : Config) : Except ProxyError SocketAddress :=
  match h.bind c.listen with
  | .ok a => .ok a
  | .error e => .error (.bind c.listen e)

/-- is the socket still listening? -/
def isListening (f : Front) : Bool := f.loop != .ended

/-- is the socket closed and no handler left? -/
def isClosed (f : Front) : Bool := !f.isListening && f.handlers.isEmpty

/-- the loop is over, and a permit of its own is returned -/
def closeLoop (f : Front) : Front :=
  { f with permits := if f.loop.hasPermit then f.permits + 1 else f.permits, loop := .ended }

/-- the loop looks: it ends if it was canceled, and else goes on to its next step -/
def look (f : Front) : Front :=
  if f.canceled then f.closeLoop
  else
    match f.loop with
    | .idle => { f with loop := .acquiring }
    | .ready => { f with loop := .accepting }
    | _ => f

def replace (f : Front) (h : Handler) : Front :=
  { f with handlers := f.handlers.map fun x => if x.id = h.id then h else x }

/-- one step of a handler; a step that does not fit changes nothing -/
def handle (f : Front) (h : Handler) : HandlerEvent → Front
  | .begin =>
    if h.stage = .waiting then { f.replace { h with stage := .counted } with active := f.active + 1 } else f
  | .borrow =>
    if h.mayBorrow then
      let (b, pool) := f.pool.get
      { f.replace (h.take b) with pool }
    else f
  | .session e => if h.admits f.canceled e then f.replace { h with session := h.session.step e } else f
  | .giveBack =>
    match h.isOver, h.buffers.getLast? with
    | true, some b => { f.replace { h with loans := h.loans - 1 } with pool := f.pool.put b }
    | _, _ => f
  | .uncount =>
    if h.stage = .counted ∧ h.isOver = true ∧ h.loans = 0 then
      { f.replace { h with stage := .leaving } with active := f.active - 1 }
    else f
  | .release =>
    if h.stage = .leaving then { f with handlers := f.handlers.filter (·.id ≠ h.id), permits := f.permits + 1 } else f

/-- one step; an event that does not fit changes nothing -/
def step (f : Front) : FrontEvent → Front
  | .look => f.look
  | .acquire => if f.loop = .acquiring ∧ 0 < f.permits then { f with permits := f.permits - 1, loop := .ready } else f
  | .accept pieces =>
    if f.loop = .accepting then
      { f with loop := .idle, handlers := f.handlers ++ [.new f.accepted pieces], accepted := f.accepted + 1 }
    else f
  | .acceptError => if f.loop = .accepting then { f with permits := f.permits + 1, loop := .idle } else f
  | .handler id e =>
    match f.handlers.find? (·.id = id) with
    | some h => f.handle h e
    | none => f
  | .cancel => { f with canceled := true }

def run (f : Front) (es : List FrontEvent) : Front := es.foldl step f

end Front

end EdgeTunnel.Proxy
