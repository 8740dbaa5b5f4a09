/-
What a teardown settles about its front, and what it leaves open.

A teardown joins its relay, but of its front it only fires the token. The loop and the handlers see that at steps of their
own, which come in any order with the calls: nothing waits for them.

- `front_run`: to its front, a teardown is a run with a cancellation in it.
- `Inv`: the calls are those of a shutdown in their order, and none is made before the token has fired. `step_inv`, `run_inv`.
- `teardown_settles`: so when the first tunnel is stopped the token has fired and the relay is joined. From then on the front
  accepts one connection at most, its own steps close it, and once closed it stays closed.
- `run_calls`: every call may be made while the front makes no step at all.
- `front_outlives_stop`: so in each topology the first tunnel may be stopped while the socket listens, a connection is
  accepted, one handler dials and another one copies.
-/
import EdgeTunnel.Orchestrator.Teardown
import EdgeTunnel.Proofs.Orchestrator.History
import EdgeTunnel.Proofs.Proxy.AcceptLoop

namespace EdgeTunnel

/-- **The calls of a teardown are those that a shutdown makes.** -/
theorem Orchestrator.calls_teardown (o : Orchestrator) :
    calls o.shutdown.deeds = calls o.deeds ++ o.teardownCalls := by
  rw [shutdown_eq]
  simp only [calls_append, calls_farewell, calls_joining, teardownCalls, List.map_map]
  rfl

/-- what an event of a teardown is to its front -/
def TeardownEvent.toFront? : TeardownEvent → Option Proxy.FrontEvent
  | .fire => some .cancel
  | .call => none
  | .front e => some e

namespace Teardown

theorem run_cons (t : Teardown) (e : TeardownEvent) (es : List TeardownEvent) : t.run (e :: es) = (t.step e).run es := rfl

theorem front_call (t : Teardown) : (t.step .call).front = t.front := by
  simp only [step]
  split
  · rfl
  · rfl

/-- **To its front a teardown is a run**, with a cancellation in it. -/
theorem front_run (t : Teardown) (es : List TeardownEvent) : (t.run es).front = t.front.run (es.filterMap (·.toFront?)) := by
  induction es generalizing t with
  | nil => rfl
  | cons e es ih =>
    rw [run_cons, ih]
    cases e with
    | fire => rfl
    | call => rw [front_call]; rfl
    | front e => rfl

/-! ## The invariant -/

/-- the invariant of a teardown of an orchestrator -/
structure Inv (o : Orchestrator) (t : Teardown) : Prop where
  calls : t.made ++ t.todo = o.teardownCalls
  unfired : t.fired = false → t.made = []
  signaled : t.fired = true → t.front.canceled = true

variable {o : Orchestrator} {t : Teardown}

theorem inv_new (o : Orchestrator) (front : Proxy.Front) : Inv o (new o front) where
  calls := rfl
  unfired _ := rfl
  signaled h := absurd h Bool.false_ne_true

theorem step_inv (hi : Inv o t) (e : TeardownEvent) : Inv o (t.step e) := by
  cases e with
  | fire => exact ⟨hi.calls, fun h => absurd h.symm Bool.false_ne_true, fun _ => rfl⟩
  | call =>
    simp only [step]
    split
    · rename_i call rest hfired htodo
      refine ⟨?_, fun h => absurd (h.symm.trans hfired) Bool.false_ne_true, hi.signaled⟩
      have hcalls := hi.calls
      rw [htodo] at hcalls
      rw [← hcalls, List.append_assoc, List.singleton_append]
    · exact hi
  | front e => exact ⟨hi.calls, hi.unfired, fun h => (Proxy.Front.canceled_step (hi.signaled h) e).1⟩

theorem run_inv (hi : Inv o t) (es : List TeardownEvent) : Inv o (t.run es) := by
  induction es generalizing t with
  | nil => exact hi
  | cons e es ih => exact ih (step_inv hi e)

theorem made_ne_nil (h : t.hasStopped = true) : t.made ≠ [] := by
  intro hnone
  rw [hasStopped, hnone] at h
  cases h

theorem Inv.fired (hi : Inv o t) (h : t.hasStopped = true) : t.fired = true := by
  by_contra hnot
  exact made_ne_nil h (hi.unfired (by simpa using hnot))

/-- the relay is joined first -/
theorem Inv.joined (hi : Inv o t) (h : t.hasStopped = true) (hrelay : o.relay.isSome = true) : .joinRelay ∈ t.made := by
  have hcalls := hi.calls
  rw [Orchestrator.teardownCalls, if_pos hrelay, List.singleton_append] at hcalls
  obtain ⟨call, made, hmade⟩ := List.exists_cons_of_ne_nil (made_ne_nil h)
  rw [hmade, List.cons_append, List.cons.injEq] at hcalls
  rw [hmade, hcalls.1]
  exact List.mem_cons_self

/-! ## What is settled -/

/-- what a teardown settles about the front of its orchestrator -/
structure Settled (o : Orchestrator) (t : Teardown) : Prop where
  /-- the calls made are the first ones of a shutdown -/
  calls : t.made <+: o.teardownCalls
  /-- when a tunnel is stopped the token has fired and the relay, if there is one, is joined -/
  signaled : t.hasStopped = true → t.front.canceled = true ∧ (o.relay.isSome = true → .joinRelay ∈ t.made)
  /-- from then on one more connection is accepted at most, whatever happens -/
  accepts : t.front.canceled = true → ∀ es, (t.run es).front.accepted ≤ t.front.accepted + 1
  /-- the front's own steps close it -/
  closes : t.front.canceled = true → (t.front.run t.front.drain).isClosed = true
  /-- a front that is closed stays closed, without a handler -/
  stays : t.front.isClosed = true → ∀ es, (t.run es).front.isClosed = true

/-- **What a teardown settles about its front**, for every orchestrator, whatever its front did before and however its steps
come between the calls: they are the calls of a shutdown, and the first stop of a tunnel comes after the token has fired and
the relay is joined. The rest is up to the front. -/
theorem teardown_settles (o : Orchestrator) (c : Proxy.Config) (canceled : Bool) (before : List Proxy.FrontEvent)
    (es : List TeardownEvent) :
    Orchestrator.calls o.shutdown.deeds = Orchestrator.calls o.deeds ++ o.teardownCalls ∧
      Settled o ((new o ((Proxy.Front.new c canceled).run before)).run es) := by
  have hi : Inv o ((new o ((Proxy.Front.new c canceled).run before)).run es) := run_inv (inv_new o _) es
  refine ⟨o.calls_teardown, ⟨⟨_, hi.calls⟩, fun h => ⟨hi.signaled (hi.fired h), hi.joined h⟩, fun h later => ?_,
    fun h => ?_, fun h later => ?_⟩⟩
  · rw [front_run]
    have hle := (Proxy.Front.canceled_run h (later.filterMap (·.toFront?))).2
    have hone := Proxy.Front.pending_le ((new o ((Proxy.Front.new c canceled).run before)).run es).front
    omega
  · have hfront := Proxy.Front.run_inv (Proxy.Front.inv_new c canceled) (before ++ es.filterMap (·.toFront?))
    rw [Proxy.Front.run_append] at hfront
    rw [front_run] at h ⊢
    exact Proxy.Front.drain_closes hfront h
  · rw [front_run]
    exact Proxy.Front.closed_run h _

/-! ## What is left open -/

/-- so many calls after one another -/
theorem run_calls {t : Teardown} (hfired : t.fired = true) (n : Nat) :
    t.run (List.replicate n .call) = { t with todo := t.todo.drop n, made := t.made ++ t.todo.take n } := by
  induction n generalizing t with
  | zero => simp [run]
  | succ n ih =>
    obtain ⟨front, fired, todo, made⟩ := t
    obtain rfl : fired = true := hfired
    rw [List.replicate_succ, run_cons]
    cases todo with
    | nil =>
      have hstays : step ⟨front, true, [], made⟩ .call = ⟨front, true, [], made⟩ := rfl
      rw [hstays, ih rfl]
      simp
    | cons call rest =>
      have hmakes : step ⟨front, true, call :: rest, made⟩ .call = ⟨front, true, rest, made ++ [call]⟩ := rfl
      rw [hmakes, ih rfl]
      simp

/-- **The calls wait for nothing**: however many are made, the front need not have made a step. -/
theorem calls_beside_front (o : Orchestrator) (front : Proxy.Front) (n : Nat) :
    (new o front).run (.fire :: List.replicate n .call) =
      ⟨front.step .cancel, true, o.teardownCalls.drop n, o.teardownCalls.take n⟩ := by
  rw [run_cons, run_calls rfl]
  rfl

/-- a front that goes on: its socket listens and a connection is accepted, a handler dials, and a handler copies -/
structure GoesOn (f : Proxy.Front) : Prop where
  listens : f.isListening = true
  accepts : (f.step (.accept [])).accepted = f.accepted + 1
  dials : ∃ n, (f.step (.handler n (.session (.dialed (.ok []))))).handlers.map (·.session.dialed) ≠
    f.handlers.map (·.session.dialed)
  copies : ∃ n d k, (f.step (.handler n (.session (.copyWrite d k)))).handlers.map (·.session.handed d) ≠
    f.handlers.map (·.session.handed d)

/-- an outside where all is granted -/
def granting : Outside where
  startTunnel _ _ _ := .ok ()
  bindRelay _ a := .ok a
  dialRelay _ _ _ := .ok ()
  bindProxy _ c := .ok c.listen
  transport := some fun _ _ _ _ _ => .ok none

/-- the steps of a front that accepts two connections and waits for a third, of which the first one comes to its dial and the
second one to where it has read what it copies -/
def busySteps : List Proxy.FrontEvent := [
  .look, .acquire, .look, .accept ["CONNECT a:1 HTTP/1.1\r\n\r\n".toUTF8.toList],
  .look, .acquire, .look, .accept ["CONNECT b:2 HTTP/1.1\r\n\r\n".toUTF8.toList, [7, 8]],
  .look, .acquire, .look,
  .handler 0 .begin, .handler 0 (.session .read),
  .handler 1 .begin, .handler 1 (.session .read), .handler 1 (.session (.dialed (.ok []))),
  .handler 1 (.session (.wrote 100)), .handler 1 .borrow, .handler 1 .borrow, .handler 1 (.session (.copyRead .up 4))]

/-- a front with three connections at most, after these steps -/
def busyFront : Proxy.Front := (Proxy.Front.new { maxConnections := 3, bufferSize := 4 } false).run busySteps

theorem busyFront_goesOn : GoesOn (busyFront.step .cancel) where
  listens := by decide +kernel
  accepts := by decide +kernel
  dials := ⟨0, by decide +kernel⟩
  copies := ⟨1, .up, 4, by decide +kernel⟩

/-- **The first tunnel is stopped while the front goes on**, in each topology. -/
theorem front_outlives_stop :
    let started (topology : Topology) := ((Orchestrator.new topology {} false).start granting .standardBind
      [.of .loopback 2408, .of .loopback 2409] ⟨Orchestrator.zeroProfile, some Orchestrator.zeroProfile⟩).2
    ∀ x ∈ [(Topology.direct, [Call.stopTunnel 1]), (.obfuscated ⟨"DE", by decide⟩, [.stopTunnel 1]),
        (.chained, [.joinRelay, .stopTunnel 2])],
      let t := (new (started x.1) busyFront).run (.fire :: List.replicate x.2.length .call)
      t.made = x.2 ∧ t.hasStopped = true ∧ GoesOn t.front := by
  intro started x hx t
  have ht : t = ⟨busyFront.step .cancel, true, _, _⟩ := calls_beside_front (started x.1) busyFront x.2.length
  have hmade : (started x.1).teardownCalls.take x.2.length = x.2 ∧
      (⟨busyFront, true, [], x.2⟩ : Teardown).hasStopped = true := by
    simp only [List.mem_cons, List.not_mem_nil, or_false] at hx
    rcases hx with rfl | rfl | rfl
    · decide +kernel
    · decide +kernel
    · decide +kernel
  rw [hmade.1] at ht
  rw [ht]
  exact ⟨rfl, hmade.2, busyFront_goesOn⟩

end Teardown

end EdgeTunnel
