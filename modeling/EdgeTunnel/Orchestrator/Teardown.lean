/-
A teardown beside a running front.

The orchestrator fires its token, joins its relay and stops its tunnels, one call after another. The accept loop of its front
and the handlers run on meanwhile: each of them sees the token at a step of its own, which may come at any time after the
token has fired.
-/
import EdgeTunnel.Orchestrator.Basic

namespace EdgeTunnel

/-- the calls that a teardown of an orchestrator makes, in order -/
def Orchestrator.teardownCalls (o : Orchestrator) : List Call :=
  (if o.relay.isSome then [.joinRelay] else []) ++
    (o.handles.reverse.filter (·.isRunning)).map fun h => .stopTunnel h.id

/-- a teardown under way: the front as it is, whether the token has fired, the calls still to come, and those made -/
structure Teardown where
  front : Proxy.Front
  fired : Bool
  todo : List Call
  made : List Call

inductive TeardownEvent where
  /-- the token fires -/
  | fire
  /-- the next call is made -/
  | call
  /-- the front makes a step -/
  | front (e : Proxy.FrontEvent)

namespace Teardown

/-- the teardown of an orchestrator whose front is as given, before its first step -/
def new (o : Orchestrator) (front : Proxy.Front) : Teardown := ⟨front, false, o.teardownCalls, []⟩

/-- one step; no call is made before the token has fired -/
def step (t : Teardown) : TeardownEvent → Teardown
  | .fire => { t with fired := true, front := t.front.step .cancel }
  | .call =>
    match t.fired, t.todo with
    | true, c :: rest => { t with todo := rest, made := t.made ++ [c] }
    | _, _ => t
  | .front e => { t with front := t.front.step e }

def run (t : Teardown) (es : List TeardownEvent) : Teardown := es.foldl step t

def hasStopped (t : Teardown) : Bool :=
  t.made.any fun c =>
    match c with
    | .stopTunnel _ => true
    | _ => false

end Teardown

end EdgeTunnel
