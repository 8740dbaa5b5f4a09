/-
The accept loop of a front before and after a cancellation.

Nothing but a look changes what the loop has seen of its token, so a cancellation divides the life of a front in two.

Before it, whatever else happens:
- `open_step`, `open_run`: the loop does not end.
- `accepts_next`: it accepts the next connection, unless as many as it may have are there.
- `serves_until_canceled`: so every front serves until it is canceled.

After it, whatever else happens:
- `canceled_step`, `canceled_run`: no more connections are accepted than the loop was waiting for, which is one at most.
- `ended_run`: the loop stays ended once it has ended, which the next look makes it do (`isListening_look`).
- `never_accepts`: a front that was canceled before it began accepts none.
- `drain_closes`: its own steps get it to where it is closed, and `closed_run`: it stays closed.
-/
import EdgeTunnel.Proofs.Proxy.Slots

namespace EdgeTunnel.Proxy.Front

/-! ## Handlers leave the loop alone -/

theorem frame_handle (f : Front) (h : Handler) (e : HandlerEvent) :
    (f.handle h e).loop = f.loop ∧ (f.handle h e).canceled = f.canceled ∧ (f.handle h e).accepted = f.accepted := by
  cases e with
  | begin =>
    simp only [handle]
    split_ifs
    · exact ⟨rfl, rfl, rfl⟩
    · exact ⟨rfl, rfl, rfl⟩
  | borrow =>
    simp only [handle]
    split_ifs
    · exact ⟨rfl, rfl, rfl⟩
    · exact ⟨rfl, rfl, rfl⟩
  | session e =>
    simp only [handle]
    split_ifs
    · exact ⟨rfl, rfl, rfl⟩
    · exact ⟨rfl, rfl, rfl⟩
  | giveBack =>
    simp only [handle]
    split
    · exact ⟨rfl, rfl, rfl⟩
    · exact ⟨rfl, rfl, rfl⟩
  | uncount =>
    simp only [handle]
    split_ifs
    · exact ⟨rfl, rfl, rfl⟩
    · exact ⟨rfl, rfl, rfl⟩
  | release =>
    simp only [handle]
    split_ifs
    · exact ⟨rfl, rfl, rfl⟩
    · exact ⟨rfl, rfl, rfl⟩

theorem frame_handler (f : Front) (n : Nat) (e : HandlerEvent) :
    (f.step (.handler n e)).loop = f.loop ∧ (f.step (.handler n e)).canceled = f.canceled ∧
      (f.step (.handler n e)).accepted = f.accepted := by
  simp only [step]
  cases f.handlers.find? (·.id = n) with
  | none => exact ⟨rfl, rfl, rfl⟩
  | some h => exact f.frame_handle h e

theorem run_cons (f : Front) (e : FrontEvent) (es : List FrontEvent) : f.run (e :: es) = (f.step e).run es := rfl

theorem run_append (f : Front) (es fs : List FrontEvent) : f.run (es ++ fs) = (f.run es).run fs := List.foldl_append

/-! ## Before a cancellation -/

/-- the loop goes on and has no reason not to -/
def IsOpen (f : Front) : Prop := f.canceled = false ∧ f.loop ≠ .ended

theorem open_step {f : Front} (h : f.IsOpen) {e : FrontEvent} (he : e ≠ .cancel) : (f.step e).IsOpen := by
  obtain ⟨hcanceled, hloop⟩ := h
  cases e with
  | look =>
    simp only [step, look, if_neg (show ¬ f.canceled = true by simp [hcanceled])]
    split
    · exact ⟨hcanceled, by simp⟩
    · exact ⟨hcanceled, by simp⟩
    · exact ⟨hcanceled, hloop⟩
  | acquire =>
    simp only [step]
    split_ifs
    · exact ⟨hcanceled, by simp⟩
    · exact ⟨hcanceled, hloop⟩
  | accept pieces =>
    simp only [step]
    split_ifs
    · exact ⟨hcanceled, by simp⟩
    · exact ⟨hcanceled, hloop⟩
  | acceptError =>
    simp only [step]
    split_ifs
    · exact ⟨hcanceled, by simp⟩
    · exact ⟨hcanceled, hloop⟩
  | handler n e =>
    obtain ⟨hsame, hstill, -⟩ := f.frame_handler n e
    exact ⟨hstill.trans hcanceled, hsame ▸ hloop⟩
  | cancel => exact absurd rfl he

/-- **The loop does not end** while nothing cancels it. -/
theorem open_run {f : Front} (h : f.IsOpen) {es : List FrontEvent} (hes : ∀ e ∈ es, e ≠ .cancel) : (f.run es).IsOpen := by
  induction es generalizing f with
  | nil => exact h
  | cons e es ih =>
    rw [List.forall_mem_cons] at hes
    exact ih (open_step h hes.1) hes.2

/-- the steps that take the loop to where it waits for a connection -/
def approach : AcceptLoop → List FrontEvent
  | .idle => [.look, .acquire, .look]
  | .acquiring => [.acquire, .look]
  | .ready => [.look]
  | .accepting => []
  | .ended => []

/-- the loop gets to where it waits for a connection when it has a permit or one is free -/
theorem accepting_approach {f : Front} (h : f.IsOpen) (hpermit : f.loop.hasPermit = true ∨ 0 < f.permits) :
    (f.run (approach f.loop)).loop = .accepting ∧ (f.run (approach f.loop)).handlers = f.handlers ∧
      (f.run (approach f.loop)).accepted = f.accepted := by
  obtain ⟨limit, permits, loop, handlers, active, pool, accepted, canceled⟩ := f
  obtain ⟨rfl, hloop⟩ := h
  cases loop with
  | idle =>
    have hpos : 0 < permits := hpermit.resolve_left (by simp [AcceptLoop.hasPermit])
    simp [approach, run, step, look, hpos]
  | acquiring =>
    have hpos : 0 < permits := hpermit.resolve_left (by simp [AcceptLoop.hasPermit])
    simp [approach, run, step, look, hpos]
  | ready => simp [approach, run, step, look]
  | accepting => simp [approach, run]
  | ended => exact absurd rfl hloop

/-- **The next connection is accepted.** -/
theorem accepts_next {f : Front} (h : f.IsOpen) (hpermit : f.loop.hasPermit = true ∨ 0 < f.permits)
    (pieces : List (List UInt8)) :
    (f.run (approach f.loop ++ [.accept pieces])).handlers = f.handlers ++ [.new f.accepted pieces] := by
  obtain ⟨hloop, hhandlers, haccepted⟩ := accepting_approach h hpermit
  rw [run_append, run_cons, step, if_pos hloop, hhandlers, haccepted]
  rfl

/-- a front serves: its loop goes on, the next connection is accepted unless as many as there may be are there, and no
connection is dropped -/
structure Serves (c : Config) (f : Front) : Prop where
  listening : f.isListening = true
  accepts : f.handlers.length < c.maxConnections.toNat → ∀ pieces,
    (f.run (approach f.loop ++ [.accept pieces])).handlers = f.handlers ++ [.new f.accepted pieces]
  keeps : ∀ h ∈ f.handlers, h.admits f.canceled .drop = false

/-- **A front serves until it is canceled.** -/
theorem serves_until_canceled (c : Config) {es : List FrontEvent} (hes : ∀ e ∈ es, e ≠ .cancel) :
    Serves c ((new c false).run es) := by
  have hopen : ((new c false).run es).IsOpen := open_run ⟨rfl, by simp [new]⟩ hes
  refine ⟨by simp [isListening, hopen.2], fun hroom pieces => accepts_next hopen ?_ pieces, fun h _ => ?_⟩
  · -- a permit that no handler has is free or the loop's own
    have hpermits := (run_inv (inv_new c false) es).permits
    by_cases hown : ((new c false).run es).loop.hasPermit = true
    · exact .inl hown
    · rw [ownPermit, if_neg hown] at hpermits
      exact .inr (by omega)
  · simp [Handler.admits, hopen.1]

/-! ## After a cancellation -/

/-- how many connections the loop may still accept although it was canceled: the one that it waits for -/
def pending (f : Front) : Nat := if f.loop = .accepting then 1 else 0

theorem pending_le (f : Front) : f.pending ≤ 1 := by
  unfold pending
  split_ifs
  · exact le_rfl
  · exact Nat.zero_le 1

theorem isListening_look {f : Front} (h : f.canceled = true) : (f.step .look).isListening = false := by
  simp [step, look, h, closeLoop, isListening]

/-- one step of a front that was canceled -/
theorem canceled_step {f : Front} (h : f.canceled = true) (e : FrontEvent) :
    (f.step e).canceled = true ∧ (f.step e).accepted + (f.step e).pending ≤ f.accepted + f.pending := by
  cases e with
  | look =>
    have hended : f.step .look = f.closeLoop := if_pos h
    rw [hended]
    exact ⟨h, by simp [closeLoop, pending]⟩
  | acquire =>
    simp only [step]
    split_ifs
    · exact ⟨h, by simp [pending]⟩
    · exact ⟨h, le_rfl⟩
  | accept pieces =>
    simp only [step]
    split_ifs with hloop
    · exact ⟨h, by simp [pending, hloop]⟩
    · exact ⟨h, le_rfl⟩
  | acceptError =>
    simp only [step]
    split_ifs
    · exact ⟨h, by simp [pending]⟩
    · exact ⟨h, le_rfl⟩
  | handler n e =>
    obtain ⟨hloop, hcanceled, haccepted⟩ := f.frame_handler n e
    refine ⟨hcanceled.trans h, ?_⟩
    rw [haccepted, pending, hloop, ← pending]
  | cancel => exact ⟨rfl, le_rfl⟩

/-- **After a cancellation no more is accepted than the loop was waiting for.** -/
theorem canceled_run {f : Front} (h : f.canceled = true) (es : List FrontEvent) :
    (f.run es).canceled = true ∧ (f.run es).accepted + (f.run es).pending ≤ f.accepted + f.pending := by
  induction es generalizing f with
  | nil => exact ⟨h, le_rfl⟩
  | cons e es ih =>
    obtain ⟨hcanceled, hle⟩ := canceled_step h e
    obtain ⟨hstill, hrest⟩ := ih hcanceled
    exact ⟨hstill, hrest.trans hle⟩

theorem ended_step {f : Front} (h : f.isListening = false) (e : FrontEvent) : (f.step e).isListening = false := by
  have hloop : f.loop = .ended := by simpa [isListening] using h
  cases e with
  | look =>
    simp only [step, look]
    split_ifs
    · simp [closeLoop, isListening]
    · simp only [hloop, isListening, bne_self_eq_false]
  | acquire => simp [step, hloop, isListening]
  | accept pieces => simp [step, hloop, isListening]
  | acceptError => simp [step, hloop, isListening]
  | handler n e => rw [isListening, (f.frame_handler n e).1, ← isListening, h]
  | cancel => exact h

/-- **A loop that has ended stays ended.** -/
theorem ended_run {f : Front} (h : f.isListening = false) (es : List FrontEvent) : (f.run es).isListening = false := by
  induction es generalizing f with
  | nil => exact h
  | cons e es ih => exact ih (ended_step h e)

/-- **A front that was canceled before it began accepts no connection**, and its socket is closed by the first look. -/
theorem never_accepts (c : Config) (es : List FrontEvent) :
    ((new c true).run es).accepted = 0 ∧ ((new c true).run es).handlers = [] ∧
      (((new c true).run es).step .look).isListening = false := by
  obtain ⟨hcanceled, hle⟩ := canceled_run (f := new c true) rfl es
  have hnone : ((new c true).run es).accepted = 0 := by
    have hbegin : (new c true).accepted + (new c true).pending = 0 := rfl
    omega
  refine ⟨hnone, ?_, isListening_look hcanceled⟩
  have honce := (run_inv (inv_new c true) es).once
  rw [hnone, List.range_zero, List.perm_nil, List.append_eq_nil_iff, List.map_eq_nil_iff] at honce
  exact honce.2

/-! ## Closing -/

/-- the steps that are left to a front after a cancellation -/
def drain (f : Front) : List FrontEvent := .look :: f.handlers.flatMap fun h => leave h.id

variable {c : Config} {returned : List Nat} {f : Front}

/-- the handlers leave one after the other -/
theorem all_leave (hi : Inv c returned f) (hcanceled : f.canceled = true) {hs : List Handler} (hall : f.handlers = hs) :
    (f.run (hs.flatMap fun h => leave h.id)).handlers = [] := by
  induction hs generalizing f returned with
  | nil => exact hall
  | cons h hs ih =>
    have hmem : h ∈ f.handlers := hall ▸ List.mem_cons_self
    have hnodup := hi.nodup
    rw [hall, List.map_cons, List.nodup_cons] at hnodup
    have hleft : (f.run (leave h.id)).handlers = hs := by
      rw [(leaves hi (hi.find?_of_mem hmem) (.inr hcanceled)).1, hall, List.filter_cons_of_neg (by simp),
        List.filter_eq_self]
      intro x hx
      simp only [decide_eq_true_eq]
      exact fun heq => hnodup.1 (heq ▸ List.mem_map_of_mem hx)
    rw [List.flatMap_cons, run_append]
    exact ih (run_inv hi (leave h.id)) (canceled_run hcanceled _).1 hleft

/-- **A front that was canceled gets to where it is closed by its own steps.** -/
theorem drain_closes (hi : Inv c returned f) (hcanceled : f.canceled = true) : (f.run f.drain).isClosed = true := by
  have hended : f.step .look = f.closeLoop := if_pos hcanceled
  have hlook : Inv c returned f.closeLoop := by
    have h := inv_look hi
    rwa [look, if_pos hcanceled] at h
  have hhandlers : (f.run f.drain).handlers = [] := by
    rw [drain, run_cons, hended]
    exact all_leave hlook hcanceled rfl
  have hsocket : (f.run f.drain).isListening = false := ended_run (isListening_look hcanceled) _
  rw [isClosed, hsocket, hhandlers]
  rfl

theorem closed_step (h : f.isClosed = true) (e : FrontEvent) : (f.step e).isClosed = true := by
  rw [isClosed, Bool.and_eq_true, Bool.not_eq_true', List.isEmpty_iff] at h
  obtain ⟨hsocket, hnone⟩ := h
  have hhandlers : (f.step e).handlers = [] := by
    have hloop : f.loop = .ended := by simpa [isListening] using hsocket
    cases e with
    | look =>
      simp only [step, look, hloop]
      split_ifs
      · exact hnone
      · exact hnone
    | acquire => simp [step, hloop, hnone]
    | accept pieces => simp [step, hloop, hnone]
    | acceptError => simp [step, hloop, hnone]
    | handler n e => simp [step, hnone]
    | cancel => exact hnone
  rw [isClosed, ended_step hsocket e, hhandlers]
  rfl

/-- **A front that is closed stays closed.** -/
theorem closed_run (h : f.isClosed = true) (es : List FrontEvent) : (f.run es).isClosed = true := by
  induction es generalizing f with
  | nil => exact h
  | cons e es ih => exact ih (closed_step h e)

end EdgeTunnel.Proxy.Front
