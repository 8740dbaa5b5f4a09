/-
What a relay forwards and delivers, for every interleaving of its two loops.

The past of a relay is the list of the events that fitted the places of its loops, the latest first. What ought to have been
forwarded and delivered is read off the past alone: `heard` and `answered` are the datagrams received on either side,
`latestLearned` is the sender learned last, and `fates` tells of every datagram that was looked up which client was found
for it.

- `Inv`: what has left the relay, with what its loops have in hand, is what the past asks for. `inv_step`, `inv_run`.
- `Known`: a relay that has learned a sender keeps one, and finds one at every look-up from then on. `known_step`,
  `known_run`.
- `relay_safe`: the results for every run.
-/
import EdgeTunnel.Relay.Basic
import Mathlib.Tactic

namespace EdgeTunnel.Relay

variable {κ : Type}

/-! ## The past -/

/-- does an event fit the places of the loops? -/
def State.fits (s : State κ) (e : Event κ) : Bool :=
  match e, s.outbound, s.inbound with
  | .fromClient _ _, .waiting, _ => !s.canceled
  | .clientError, .waiting, _ => true
  | .learn, .received _ _, _ => true
  | .forward, .learned _, _ => true
  | .fromRemote _, _, .waiting => !s.canceled
  | .remoteError, _, .waiting => true
  | .lookup, _, .received _ => true
  | .deliver, _, .addressed _ _ => true
  | .cancel, _, _ => true
  | .stopOutbound, .waiting, _ => s.canceled
  | .stopInbound, _, .waiting => s.canceled
  | _, _, _ => false

/-- an event that does not fit changes nothing -/
theorem step_of_not_fits (mtu : Nat) {s : State κ} {e : Event κ} (h : ¬ s.fits e = true) : s.step mtu e = s := by
  rcases s with ⟨slot, outbound, inbound, canceled, sent, delivered⟩
  cases e <;> cases outbound <;> cases inbound <;> cases canceled <;> first | rfl | exact absurd rfl h

/-- the past after an event -/
def State.note (s : State κ) (past : List (Event κ)) (e : Event κ) : List (Event κ) := if s.fits e then e :: past else past

/-- the past after a run -/
def State.history (mtu : Nat) (s : State κ) (past : List (Event κ)) : List (Event κ) → List (Event κ)
  | [] => past
  | e :: es => history mtu (s.step mtu e) (s.note past e) es

/-- the datagrams received on the local socket, oldest first -/
def heard : List (Event κ) → List (List UInt8)
  | [] => []
  | .fromClient data _ :: past => heard past ++ [data]
  | _ :: past => heard past

/-- the datagrams received from the remote endpoint, oldest first -/
def answered : List (Event κ) → List (List UInt8)
  | [] => []
  | .fromRemote data :: past => answered past ++ [data]
  | _ :: past => answered past

/-- the sender of the local datagram received last -/
def latestSender : List (Event κ) → Option κ
  | [] => none
  | .fromClient _ sender :: _ => some sender
  | _ :: past => latestSender past

/-- the sender of the local datagram learned last -/
def latestLearned : List (Event κ) → Option κ
  | [] => none
  | .learn :: past => latestSender past
  | _ :: past => latestLearned past

/-- every datagram that was looked up, with the sender of the local datagram learned last at its look-up, oldest first -/
def fates : List (Event κ) → List (List UInt8 × Option κ)
  | [] => []
  | .lookup :: past => fates past ++ [((answered past).getLastD [], latestLearned past)]
  | _ :: past => fates past

/-- what is delivered of a datagram, if a client is found for it -/
def delivery (mtu : Nat) (fate : List UInt8 × Option κ) : Option (κ × List UInt8) :=
  fate.2.map fun client => (client, fate.1.take mtu)

/-! ## What the loops have in hand -/

/-- the local datagram that is received and not forwarded yet, if there is one -/
def Outbound.inHand : Outbound κ → List (List UInt8)
  | .received data _ => [data]
  | .learned data => [data]
  | _ => []

/-- the datagram that has its client and is not delivered yet, if there is one -/
def Inbound.inHand : Inbound κ → List (κ × List UInt8)
  | .addressed data client => [(client, data)]
  | _ => []

/-- is a datagram waiting for its look-up, and cut to this? -/
def Inbound.Unseen (mtu : Nat) : Inbound κ → List (List UInt8) → Prop
  | .received data, ds => ∃ d, ds = [d] ∧ data = d.take mtu
  | _, ds => ds = []

/-! ## The invariant -/

structure Inv (mtu : Nat) (s : State κ) (past : List (Event κ)) : Prop where
  sent : s.sent ++ s.outbound.inHand = (heard past).map (·.take mtu)
  delivered : s.delivered ++ s.inbound.inHand = (fates past).filterMap (delivery mtu)
  looked : ∃ unseen, s.inbound.Unseen mtu unseen ∧ answered past = (fates past).map (·.1) ++ unseen
  learned : s.learned = latestLearned past
  sender : ∀ data sender, s.outbound = .received data sender → latestSender past = some sender

theorem inv_new (mtu : Nat) : Inv mtu (State.new : State κ) [] where
  sent := rfl
  delivered := rfl
  looked := ⟨[], rfl, rfl⟩
  learned := rfl
  sender _ _ h := by cases h

section
variable {mtu : Nat} {s : State κ} {past : List (Event κ)} (h : Inv mtu s past)

include h

theorem inv_fromClient {data : List UInt8} {sender : κ} (hfits : s.fits (.fromClient data sender) = true) :
    Inv mtu (s.step mtu (.fromClient data sender)) (.fromClient data sender :: past) := by
  rcases s with ⟨slot, outbound, inbound, canceled, sent, delivered⟩
  obtain ⟨hsent, hdelivered, hlooked, hlearned, hsender⟩ := h
  cases outbound with
  | waiting =>
    obtain rfl : canceled = false := by simpa [State.fits] using hfits
    refine ⟨?_, hdelivered, hlooked, hlearned, fun _ _ hout => by cases hout; rfl⟩
    simp only [Outbound.inHand, List.append_nil] at hsent
    change sent ++ [data.take mtu] = (heard past ++ [data]).map (·.take mtu)
    rw [List.map_append, ← hsent]
    rfl
  | _ => exact absurd hfits Bool.false_ne_true

theorem inv_learn (hfits : s.fits .learn = true) : Inv mtu (s.step mtu .learn) (.learn :: past) := by
  rcases s with ⟨slot, outbound, inbound, canceled, sent, delivered⟩
  obtain ⟨hsent, hdelivered, hlooked, hlearned, hsender⟩ := h
  cases outbound with
  | received data sender =>
    exact ⟨hsent, hdelivered, hlooked, (hsender data sender rfl).symm, fun _ _ hout => by cases hout⟩
  | _ => exact absurd hfits Bool.false_ne_true

theorem inv_forward (hfits : s.fits .forward = true) : Inv mtu (s.step mtu .forward) (.forward :: past) := by
  rcases s with ⟨slot, outbound, inbound, canceled, sent, delivered⟩
  obtain ⟨hsent, hdelivered, hlooked, hlearned, hsender⟩ := h
  cases outbound with
  | learned data =>
    refine ⟨?_, hdelivered, hlooked, hlearned, fun _ _ hout => by cases hout⟩
    simp only [State.step, Outbound.inHand, List.append_nil] at hsent ⊢
    exact hsent
  | _ => exact absurd hfits Bool.false_ne_true

theorem inv_fromRemote {data : List UInt8} (hfits : s.fits (.fromRemote data) = true) :
    Inv mtu (s.step mtu (.fromRemote data)) (.fromRemote data :: past) := by
  rcases s with ⟨slot, outbound, inbound, canceled, sent, delivered⟩
  obtain ⟨hsent, hdelivered, hlooked, hlearned, hsender⟩ := h
  cases inbound with
  | waiting =>
    obtain rfl : canceled = false := by simpa [State.fits] using hfits
    obtain ⟨unseen, hunseen, hanswered⟩ := hlooked
    simp only [Inbound.Unseen] at hunseen
    subst hunseen
    refine ⟨hsent, hdelivered, ⟨[data], ⟨data, rfl, rfl⟩, ?_⟩, hlearned, hsender⟩
    rw [List.append_nil] at hanswered
    exact congrArg (· ++ [data]) hanswered
  | _ => exact absurd hfits Bool.false_ne_true

/-- what the look-up finds is what is delivered next -/
theorem inv_lookup (hfits : s.fits .lookup = true) : Inv mtu (s.step mtu .lookup) (.lookup :: past) := by
  rcases s with ⟨slot, outbound, inbound, canceled, sent, delivered⟩
  obtain ⟨hsent, hdelivered, hlooked, hlearned, hsender⟩ := h
  cases inbound with
  | received data =>
    obtain ⟨unseen, ⟨d, rfl, rfl⟩, hanswered⟩ := hlooked
    have hlast : (answered past).getLastD [] = d := by rw [hanswered, List.getLastD_concat]
    have hfates : fates (Event.lookup :: past) = fates past ++ [(d, slot)] := by
      rw [fates, hlast, ← hlearned]
    have hall : answered (Event.lookup :: past) = (fates (Event.lookup :: past)).map (·.1) ++ [] := by
      rw [hfates, List.map_append, List.append_nil]
      exact hanswered
    simp only [Inbound.inHand, List.append_nil] at hdelivered
    cases slot with
    | none =>
      refine ⟨hsent, ?_, ⟨[], rfl, hall⟩, hlearned, hsender⟩
      change delivered ++ [] = (fates (Event.lookup :: past)).filterMap (delivery mtu)
      rw [hfates, List.filterMap_append, ← hdelivered]
      rfl
    | some client =>
      refine ⟨hsent, ?_, ⟨[], rfl, hall⟩, hlearned, hsender⟩
      change delivered ++ [(client, d.take mtu)] = (fates (Event.lookup :: past)).filterMap (delivery mtu)
      rw [hfates, List.filterMap_append, ← hdelivered]
      rfl
  | _ => exact absurd hfits Bool.false_ne_true

theorem inv_deliver (hfits : s.fits .deliver = true) : Inv mtu (s.step mtu .deliver) (.deliver :: past) := by
  rcases s with ⟨slot, outbound, inbound, canceled, sent, delivered⟩
  obtain ⟨hsent, hdelivered, hlooked, hlearned, hsender⟩ := h
  cases inbound with
  | addressed data client =>
    refine ⟨hsent, ?_, hlooked, hlearned, hsender⟩
    simp only [State.step, Inbound.inHand, List.append_nil] at hdelivered ⊢
    exact hdelivered
  | _ => exact absurd hfits Bool.false_ne_true

theorem inv_stopOutbound (hfits : s.fits .stopOutbound = true) :
    Inv mtu (s.step mtu .stopOutbound) (.stopOutbound :: past) := by
  rcases s with ⟨slot, outbound, inbound, canceled, sent, delivered⟩
  obtain ⟨hsent, hdelivered, hlooked, hlearned, hsender⟩ := h
  cases outbound with
  | waiting =>
    obtain rfl : canceled = true := hfits
    exact ⟨hsent, hdelivered, hlooked, hlearned, fun _ _ hout => by cases hout⟩
  | _ => exact absurd hfits Bool.false_ne_true

theorem inv_stopInbound (hfits : s.fits .stopInbound = true) :
    Inv mtu (s.step mtu .stopInbound) (.stopInbound :: past) := by
  rcases s with ⟨slot, outbound, inbound, canceled, sent, delivered⟩
  obtain ⟨hsent, hdelivered, hlooked, hlearned, hsender⟩ := h
  cases inbound with
  | waiting =>
    obtain rfl : canceled = true := hfits
    exact ⟨hsent, hdelivered, hlooked, hlearned, hsender⟩
  | _ => exact absurd hfits Bool.false_ne_true

/-- **One step of a relay keeps the invariant**, and an event that does not fit is not part of the past. -/
theorem inv_step (e : Event κ) : Inv mtu (s.step mtu e) (s.note past e) := by
  by_cases hfits : s.fits e = true
  · rw [State.note, if_pos hfits]
    cases e with
    | fromClient data sender => exact inv_fromClient h hfits
    | learn => exact inv_learn h hfits
    | forward => exact inv_forward h hfits
    | fromRemote data => exact inv_fromRemote h hfits
    | lookup => exact inv_lookup h hfits
    | deliver => exact inv_deliver h hfits
    | stopOutbound => exact inv_stopOutbound h hfits
    | stopInbound => exact inv_stopInbound h hfits
    -- the rest is not looked at again
    | clientError => exact ⟨h.sent, h.delivered, h.looked, h.learned, h.sender⟩
    | remoteError => exact ⟨h.sent, h.delivered, h.looked, h.learned, h.sender⟩
    | cancel => exact ⟨h.sent, h.delivered, h.looked, h.learned, h.sender⟩
  · rw [step_of_not_fits mtu hfits, State.note, if_neg hfits]
    exact h

end

theorem inv_run {mtu : Nat} {s : State κ} {past : List (Event κ)} (h : Inv mtu s past) (es : List (Event κ)) :
    Inv mtu (s.run mtu es) (s.history mtu past es) := by
  induction es generalizing s past with
  | nil => exact h
  | cons e es ih => exact ih (inv_step h e)

theorem history_append (mtu : Nat) (s : State κ) (past es es' : List (Event κ)) :
    s.history mtu past (es ++ es') = (s.run mtu es).history mtu (s.history mtu past es) es' := by
  induction es generalizing s past with
  | nil => rfl
  | cons e es ih => exact ih (s.step mtu e) (s.note past e)

/-! ## Learned senders -/

/-- a step leaves the slot alone or puts a sender into it -/
theorem slot_step (mtu : Nat) (s : State κ) (e : Event κ) :
    (s.step mtu e).learned = s.learned ∨ (s.step mtu e).learned.isSome = true := by
  rcases s with ⟨slot, outbound, inbound, canceled, sent, delivered⟩
  cases e with
  | learn => cases outbound <;> first | exact .inl rfl | exact .inr rfl
  | lookup => cases inbound <;> cases slot <;> exact .inl rfl
  | _ => cases outbound <;> cases inbound <;> cases canceled <;> exact .inl rfl

/-- a relay keeps a learned sender -/
theorem learned_step (mtu : Nat) {s : State κ} (h : s.learned.isSome = true) (e : Event κ) :
    (s.step mtu e).learned.isSome = true := by
  rcases slot_step mtu s e with hs | hs
  · rwa [hs]
  · exact hs

theorem learned_run (mtu : Nat) {s : State κ} (h : s.learned.isSome = true) (es : List (Event κ)) :
    (s.run mtu es).learned.isSome = true := by
  induction es generalizing s with
  | nil => exact h
  | cons e es ih => exact ih (learned_step mtu h e)

/-- nothing is forwarded before a sender is learned -/
structure Known (s : State κ) : Prop where
  learned : ∀ data, s.outbound = .learned data → s.learned.isSome = true
  sent : s.sent ≠ [] → s.learned.isSome = true

theorem known_new : Known (State.new : State κ) where
  learned _ h := by cases h
  sent h := absurd rfl h

theorem known_step (mtu : Nat) {s : State κ} (h : Known s) (e : Event κ) : Known (s.step mtu e) := by
  by_cases hfits : s.fits e = true
  swap
  · rw [step_of_not_fits mtu hfits]
    exact h
  rcases s with ⟨slot, outbound, inbound, canceled, sent, delivered⟩
  obtain ⟨hlearned, hsent⟩ := h
  cases e with
  | fromClient _ _ =>
    cases outbound with
    | waiting =>
      obtain rfl : canceled = false := by simpa [State.fits] using hfits
      exact ⟨fun _ hout => (by cases hout), hsent⟩
    | _ => exact absurd hfits Bool.false_ne_true
  | learn =>
    cases outbound with
    | received data sender => exact ⟨fun _ _ => rfl, fun _ => rfl⟩
    | _ => exact absurd hfits Bool.false_ne_true
  | forward =>
    cases outbound with
    | learned data => exact ⟨fun _ hout => (by cases hout), fun _ => hlearned data rfl⟩
    | _ => exact absurd hfits Bool.false_ne_true
  | stopOutbound =>
    cases outbound with
    | waiting =>
      obtain rfl : canceled = true := hfits
      exact ⟨fun _ hout => (by cases hout), hsent⟩
    | _ => exact absurd hfits Bool.false_ne_true
  -- the inbound loop touches neither the slot nor what was forwarded
  | fromRemote _ => cases inbound <;> cases canceled <;> exact ⟨hlearned, hsent⟩
  | lookup => cases inbound <;> cases slot <;> exact ⟨hlearned, hsent⟩
  | deliver => cases inbound <;> exact ⟨hlearned, hsent⟩
  | stopInbound => cases inbound <;> cases canceled <;> exact ⟨hlearned, hsent⟩
  | clientError => exact ⟨hlearned, hsent⟩
  | remoteError => exact ⟨hlearned, hsent⟩
  | cancel => exact ⟨hlearned, hsent⟩

theorem known_run (mtu : Nat) {s : State κ} (h : Known s) (es : List (Event κ)) : Known (s.run mtu es) := by
  induction es generalizing s with
  | nil => exact h
  | cons e es ih => exact ih (known_step mtu h e)

/-- with a sender learned, a look-up finds a client -/
theorem fates_note {mtu : Nat} {s : State κ} {past : List (Event κ)} (h : Inv mtu s past) (hk : s.learned.isSome = true)
    (e : Event κ) : ∃ found, fates (s.note past e) = fates past ++ found ∧ ∀ f ∈ found, f.2.isSome = true := by
  unfold State.note
  split_ifs
  · cases e with
    | lookup =>
      refine ⟨_, rfl, fun f hf => ?_⟩
      rw [List.mem_singleton.1 hf, ← h.learned]
      exact hk
    | _ => exact ⟨[], (List.append_nil _).symm, fun _ hf => absurd hf List.not_mem_nil⟩
  · exact ⟨[], (List.append_nil _).symm, fun _ hf => absurd hf List.not_mem_nil⟩

theorem fates_history {mtu : Nat} {s : State κ} {past : List (Event κ)} (h : Inv mtu s past) (hk : s.learned.isSome = true)
    (es : List (Event κ)) :
    ∃ found, fates (s.history mtu past es) = fates past ++ found ∧ ∀ f ∈ found, f.2.isSome = true := by
  induction es generalizing s past with
  | nil => exact ⟨[], (List.append_nil _).symm, fun _ hf => absurd hf List.not_mem_nil⟩
  | cons e es ih =>
    obtain ⟨now, hnow, hfound⟩ := fates_note h hk e
    obtain ⟨later, hlater, hfound'⟩ := ih (inv_step h e) (learned_step mtu hk e)
    refine ⟨now ++ later, ?_, fun f hf => ?_⟩
    · rw [State.history, hlater, hnow, List.append_assoc]
    · exact (List.mem_append.1 hf).elim (hfound f) (hfound' f)

/-! ## The result -/

/-- **What a relay forwards and delivers**, in every run of its loops:

- the datagrams forwarded, with the one still in hand, are the local datagrams received, each once, in order and cut to the
  relay's size;
- the datagrams delivered, with the one still in hand, are those for which a look-up found a client, each once, in order, cut
  to the size and for the sender of the local datagram learned last at the look-up; every datagram received from the remote
  endpoint is looked up once, but for the last one, which may still wait for it;
- the learned client is the sender of the local datagram learned last, and once there is one there is always one;
- after a datagram has been forwarded, every look-up finds a client. -/
theorem relay_safe (mtu : Nat) (es : List (Event κ)) :
    let s := (State.new : State κ).run mtu es
    let past := (State.new : State κ).history mtu [] es
    (s.sent ++ s.outbound.inHand = (heard past).map (·.take mtu)) ∧
    (s.delivered ++ s.inbound.inHand = (fates past).filterMap (delivery mtu) ∧
      ∃ unseen, s.inbound.Unseen mtu unseen ∧ answered past = (fates past).map (·.1) ++ unseen) ∧
    (s.learned = latestLearned past ∧ ∀ later, s.learned.isSome = true → (s.run mtu later).learned.isSome = true) ∧
    (s.sent ≠ [] → ∀ later, ∃ found,
      fates ((State.new : State κ).history mtu [] (es ++ later)) = fates past ++ found ∧
        ∀ f ∈ found, f.2.isSome = true) := by
  intro s past
  have hi : Inv mtu s past := inv_run (inv_new mtu) es
  have hk : Known s := known_run mtu known_new es
  refine ⟨hi.sent, ⟨hi.delivered, hi.looked⟩, ⟨hi.learned, fun later h => learned_run mtu h later⟩,
    fun hsent later => ?_⟩
  rw [history_append]
  exact fates_history hi (hk.sent hsent) later

/-- a reply that comes too early, and a sender that changes while a reply is looked up -/
def twoSenders : List (Event Char) :=
  [.fromRemote [9], .lookup, .fromClient [1, 2, 3] 'a', .learn, .fromRemote [4, 5, 6], .forward, .fromClient [] 'b', .lookup,
    .learn, .deliver]

/-- the first reply is dropped, the second goes to the first sender, and none is dropped after that -/
theorem relay_safe_of_two_senders :
    let s := (State.new : State Char).run 2 twoSenders
    s.sent = [[1, 2]] ∧ s.delivered = [('a', [4, 5])] ∧ s.learned = some 'b' ∧
      ∃ found, fates ((State.new : State Char).history 2 [] (twoSenders ++ [.fromRemote [7], .lookup])) =
        [([9], none), ([4, 5, 6], some 'a')] ++ found ∧ ∀ f ∈ found, f.2.isSome = true := by
  have h := (relay_safe 2 twoSenders).2.2.2 (by decide) [.fromRemote [7], .lookup]
  exact ⟨by decide, by decide, by decide, h⟩

end EdgeTunnel.Relay
