/-
What passes through a proxied connection, byte by byte.

The client's bytes come in any pieces, both directions are copied in any interleaving and written in any portions, and the
two buffers hold whatever their last holders left in them.

- `Lane.Carries`: what a direction has handed on, what it holds and what it has not read yet make up the whole.
  `Carries.fill`, `Carries.advance`.
- `Handed`: what the two streams have been handed, given how the dial was answered.
- `Stands`: what is handed on and what is still to come, for each place where a connection may stand. `stands_step`,
  `stands_run`.
- `byte_exact`: so each stream is handed the right bytes from the right place on, and all of them when a direction reads to
  the end.
-/
import EdgeTunnel.Proofs.Proxy.Opening

namespace EdgeTunnel.Proxy

/-! ## A direction -/

namespace Lane

/-- has a lane handed on the beginning of these bytes, and does it have the rest? -/
def Carries (l : Lane) (given whole : List UInt8) : Prop := given ++ (l.ready ++ l.source) = whole

theorem ready_fill (l : Lane) (n : Nat) : (l.fill n).ready ++ (l.fill n).source = l.source := by
  have hroom : (l.source.take (min n l.buffer.bytes.length)).length ≤ l.buffer.bytes.length := by
    rw [List.length_take]
    omega
  have hready : (l.fill n).ready = l.source.take (min n l.buffer.bytes.length) := by
    simp only [ready, fill, Buffer.write, List.take_zero, List.nil_append, Nat.sub_zero, List.drop_zero]
    rw [List.take_of_length_le hroom, List.take_left]
  rw [hready]
  simp only [fill, List.length_take]
  rw [List.take_eq_take_min, List.take_append_drop]

theorem ready_advance (l : Lane) (n : Nat) : (l.advance n).ready = l.ready.drop n := by
  simp only [ready, advance, List.drop_drop]

theorem Carries.fill {l : Lane} {given whole : List UInt8} (h : l.Carries given whole) (hfree : l.isFree = true) (n : Nat) :
    (l.fill n).Carries given whole := by
  have hnone : l.ready = [] := List.isEmpty_iff.1 hfree
  rw [Carries, ready_fill, ← h, hnone, List.nil_append]

theorem Carries.advance {l : Lane} {given whole : List UInt8} (h : l.Carries given whole) (n : Nat) :
    (l.advance n).Carries (given ++ l.ready.take n) whole := by
  have hsource : (l.advance n).source = l.source := rfl
  rw [Carries, ready_advance, hsource, ← h, List.append_assoc, ← List.append_assoc (l.ready.take n),
    List.take_append_drop]

theorem Carries.given_prefix {l : Lane} {given whole : List UInt8} (h : l.Carries given whole) : given <+: whole :=
  ⟨_, h⟩

/-- a direction that reads nothing into a buffer with room has handed on everything -/
theorem Carries.eq_whole {l : Lane} {given whole : List UInt8} (h : l.Carries given whole)
    (hend : (l.isFree && l.isAtEnd) = true) (hroom : l.buffer.bytes ≠ []) : given = whole := by
  simp only [isFree, isAtEnd, Bool.and_eq_true, Bool.or_eq_true, List.isEmpty_iff] at hend
  obtain ⟨hready, hsource⟩ := hend
  rw [← h, hready, hsource.resolve_right hroom, List.append_nil, List.append_nil]

end Lane

/-! ## The dial -/

namespace Session

/-- how the dial is answered by an event, if it is -/
def answer? (s : Session) : SessionEvent → Option (Except String (List UInt8))
  | .dialed remote =>
    match s.phase with
    | .dialing _ => some remote
    | _ => none
  | _ => none

/-- how the dial of a connection was answered, if it was -/
def dialAnswer (s : Session) : List SessionEvent → Option (Except String (List UInt8))
  | [] => none
  | e :: es => (s.answer? e).or (dialAnswer (s.step e) es)

theorem run_append (s : Session) (es es' : List SessionEvent) : s.run (es ++ es') = (s.run es).run es' :=
  List.foldl_append

theorem dialAnswer_append (s : Session) (es es' : List SessionEvent) :
    s.dialAnswer (es ++ es') = (s.dialAnswer es).or ((s.run es).dialAnswer es') := by
  induction es generalizing s with
  | nil => rfl
  | cons e es ih => rw [List.cons_append, dialAnswer, dialAnswer, ih, Option.or_assoc]; rfl

theorem step_ended {s : Session} {cause : Option ProxyError} (h : s.phase = .ended cause) (e : SessionEvent) :
    s.step e = s := by
  simp only [step, h]

theorem run_ended {s : Session} {cause : Option ProxyError} (h : s.phase = .ended cause) (es : List SessionEvent) :
    s.run es = s := by
  induction es with
  | nil => rfl
  | cons e es ih =>
    have hstep : s.run (e :: es) = (s.step e).run es := rfl
    rw [hstep, step_ended h, ih]

/-- does a direction end at a place because its source has? A read into a buffer with room brings nothing. -/
def EndsBySource (s : Session) (d : Direction) : Prop :=
  s.phase = .copying ∧ (s.lane d).buffer.bytes ≠ [] ∧ (s.step (.copyEnd d)).phase = .ended none

end Session

/-! ## What is handed on -/

/-- what a client is answered up to the first byte of the remote end -/
def Dialect.prologue (d : Dialect) : List UInt8 := d.greeting ++ d.success

/-- all that there is to be handed on in a direction -/
def whole (q : Request) (payload remote : List UInt8) : Direction → List UInt8
  | .up => payload
  | .down => q.dialect.prologue ++ remote

/-- what the streams of a connection have been handed, given how the dial was answered: without a dial that succeeded nothing
goes to a remote end and no success is reported; with one, the remote end gets what follows the opening, but no byte of it
before the client has its whole answer -/
def Handed (q : Request) (payload : List UInt8) (s : Session) : Option (Except String (List UInt8)) → Prop
  | none => s.toRemote = [] ∧ s.toClient <+: q.dialect.greeting
  | some (.error _) => s.toRemote = [] ∧ s.toClient <+: q.dialect.greeting ++ q.dialect.failure
  | some (.ok remote) =>
    (∀ d, s.handed d <+: whole q payload remote d) ∧ (s.toRemote ≠ [] → q.dialect.prologue <+: s.toClient)

/-- where a connection stands, what it has handed on there and what is still to come -/
inductive Stands (pieces : List (List UInt8)) (r : Reading) (q : Request) :
    Option (Except String (List UInt8)) → Session → Prop
  | reading {up down : Buffer} :
      Stands pieces r q none ⟨pieces, .reading, ⟨[], up, 0, 0⟩, ⟨[], down, 0, 0⟩, [], [], []⟩
  | dialing {up down : Buffer} :
      Stands pieces r q none ⟨pieces, .dialing q, ⟨r.rest, up, 0, 0⟩, ⟨[], down, 0, 0⟩, q.dialect.greeting, [], []⟩
  | answering {up down : Buffer} {remote left given : List UInt8} {ds : List String}
      (rest : given ++ left = q.dialect.prologue) :
      Stands pieces r q (some (.ok remote))
        ⟨pieces, .answering q left, ⟨r.rest, up, 0, 0⟩, ⟨remote, down, 0, 0⟩, given, [], ds⟩
  | handing {up down : Buffer} {remote left given : List UInt8} {ds : List String} (rest : given ++ left = q.pending) :
      Stands pieces r q (some (.ok remote))
        ⟨pieces, .handing left, ⟨r.rest, up, 0, 0⟩, ⟨remote, down, 0, 0⟩, q.dialect.prologue, given, ds⟩
  | refusing {up down : Lane} {reason : String} {left given : List UInt8} {ds : List String}
      (rest : given ++ left = q.dialect.greeting ++ q.dialect.failure) :
      Stands pieces r q (some (.error reason)) ⟨pieces, .refusing q reason left, up, down, given, [], ds⟩
  | copying {up down : Lane} {remote toClient toRemote : List UInt8} {ds : List String}
      (upward : up.Carries toRemote (q.pending ++ r.rest)) (downward : down.Carries toClient remote) :
      Stands pieces r q (some (.ok remote))
        ⟨pieces, .copying, up, down, q.dialect.prologue ++ toClient, toRemote, ds⟩
  | ended {answer : Option (Except String (List UInt8))} {s : Session} {cause : Option ProxyError}
      (phase : s.phase = .ended cause) (handed : Handed q (q.pending ++ r.rest) s answer) : Stands pieces r q answer s

section Standing

variable {pieces : List (List UInt8)} {r : Reading} {q : Request} {answer : Option (Except String (List UInt8))} {s : Session}

theorem Stands.handed (h : Stands pieces r q answer s) : Handed q (q.pending ++ r.rest) s answer := by
  cases h with
  | reading => exact ⟨rfl, List.nil_prefix⟩
  | dialing => exact ⟨rfl, List.prefix_rfl⟩
  | answering rest =>
    refine ⟨fun d => ?_, fun hne => absurd rfl hne⟩
    cases d with
    | up => exact List.nil_prefix
    | down => exact (List.IsPrefix.trans ⟨_, rest⟩ (List.prefix_append _ _))
  | handing rest =>
    refine ⟨fun d => ?_, fun _ => List.prefix_rfl⟩
    cases d with
    | up => exact (List.IsPrefix.trans ⟨_, rest⟩ (List.prefix_append _ _))
    | down => exact List.prefix_append _ _
  | refusing rest => exact ⟨rfl, ⟨_, rest⟩⟩
  | copying upward downward =>
    refine ⟨fun d => ?_, fun _ => List.prefix_append _ _⟩
    cases d with
    | up => exact upward.given_prefix
    | down => exact (List.prefix_append_right_inj _).2 downward.given_prefix
  | ended _ handed => exact handed

/-- a connection may end at any place -/
theorem Stands.finish (h : Stands pieces r q answer s) (cause : Option ProxyError) :
    Stands pieces r q answer (s.finish cause) :=
  .ended rfl <| by
    have hh := h.handed
    cases answer with
    | none => exact hh
    | some a => cases a <;> exact hh

/-- with the answer given and the bytes read past the request handed on, the rest is copied -/
theorem Stands.copies {up down : Buffer} {remote : List UInt8} {ds : List String} :
    Stands pieces r q (some (.ok remote))
      ⟨pieces, .copying, ⟨r.rest, up, 0, 0⟩, ⟨remote, down, 0, 0⟩, q.dialect.prologue, q.pending, ds⟩ := by
  have h : Stands pieces r q (some (.ok remote))
      ⟨pieces, .copying, ⟨r.rest, up, 0, 0⟩, ⟨remote, down, 0, 0⟩, q.dialect.prologue ++ [], q.pending, ds⟩ :=
    .copying rfl rfl
  rwa [List.append_nil] at h

/-- with the answer given, the bytes read past the request are next -/
theorem Stands.afterAnswer {up down : Buffer} {remote : List UInt8} {ds : List String} :
    Stands pieces r q (some (.ok remote))
      ⟨pieces, .afterAnswer q.pending, ⟨r.rest, up, 0, 0⟩, ⟨remote, down, 0, 0⟩, q.dialect.prologue, [], ds⟩ := by
  unfold Phase.afterAnswer
  split_ifs with hp
  · have hnone : q.pending = [] := List.isEmpty_iff.1 hp
    rw [← hnone]
    exact .copies
  · exact .handing rfl

theorem Stands.afterDial {up down : Buffer} {remote : List UInt8} {ds : List String} :
    Stands pieces r q (some (.ok remote))
      ⟨pieces, .afterDial q, ⟨r.rest, up, 0, 0⟩, ⟨remote, down, 0, 0⟩, q.dialect.greeting, [], ds⟩ := by
  unfold Phase.afterDial
  split_ifs with hs
  · have hnone : q.dialect.success = [] := List.isEmpty_iff.1 hs
    have hall : q.dialect.greeting = q.dialect.prologue := by rw [Dialect.prologue, hnone, List.append_nil]
    rw [hall]
    exact .afterAnswer
  · exact .answering rfl

/-- what is left to be written is less by what the stream takes -/
theorem append_take_drop (given left : List UInt8) (n : Nat) : given ++ left.take n ++ left.drop n = given ++ left := by
  rw [List.append_assoc, List.take_append_drop]

theorem append_take_of_le (given : List UInt8) {left : List UInt8} {n : Nat} (h : ¬ n < left.length) :
    given ++ left.take n = given ++ left := by
  rw [List.take_of_length_le (Nat.le_of_not_lt h)]

/-! ## One event -/

section Live

variable (hlive : ∀ cause, s.phase ≠ .ended cause) (h : Stands pieces r q answer s)

include hlive h

theorem Stands.read (hr : readRequest pieces = some r) (hq : r.outcome = .ok q) (hg : r.replies = q.dialect.greeting) :
    Stands pieces r q answer (s.step .read) := by
  have hsame := h
  cases h with
  | reading =>
    simp only [Session.step, Session.readStep, hr, hq]
    simp only [Session.hand, hg, List.nil_append]
    exact .dialing
  | ended phase _ => exact absurd phase (hlive _)
  | _ => exact hsame

/-- any beginning of the greeting may be out when reading is given up -/
theorem Stands.abandon (hr : readRequest pieces = some r) (hg : r.replies = q.dialect.greeting) (n : Nat)
    (cause : Option ProxyError) : Stands pieces r q answer (s.step (.abandon n cause)) := by
  have hsame := h
  cases h with
  | reading =>
    simp only [Session.step, Session.abandonStep, hr]
    exact .ended rfl ⟨rfl, hg ▸ List.take_prefix n r.replies⟩
  | ended phase _ => exact absurd phase (hlive _)
  | _ => exact hsame

theorem Stands.dial (remote : Except String (List UInt8)) :
    Stands pieces r q (answer.or (s.answer? (.dialed remote))) (s.step (.dialed remote)) := by
  have hsame := h
  cases h with
  | dialing =>
    cases remote with
    | ok remote => exact .afterDial
    | error reason => exact .refusing rfl
  | ended phase _ => exact absurd phase (hlive _)
  | _ => exact hsame

theorem Stands.wrote (n : Nat) : Stands pieces r q answer (s.step (.wrote n)) := by
  have hsame := h
  cases h with
  | @answering up down remote left given ds rest =>
    simp only [Session.step, Session.writeStep, Session.hand]
    split_ifs with hn
    · exact .answering ((append_take_drop given left n).trans rest)
    · rw [append_take_of_le given hn, rest]
      exact .afterAnswer
  | @handing up down remote left given ds rest =>
    simp only [Session.step, Session.writeStep, Session.hand]
    split_ifs with hn
    · exact .handing ((append_take_drop given left n).trans rest)
    · rw [append_take_of_le given hn, rest]
      exact .copies
  | @refusing up down reason left given ds rest =>
    simp only [Session.step, Session.writeStep, Session.hand]
    split_ifs with hn
    · exact .refusing ((append_take_drop given left n).trans rest)
    · rw [append_take_of_le given hn, rest]
      exact .ended rfl ⟨rfl, List.prefix_rfl⟩
  | ended phase _ => exact absurd phase (hlive _)
  | _ => exact hsame

theorem Stands.fault (cause : ProxyError) : Stands pieces r q answer (s.step (.fault cause)) := by
  have hsame := h
  have hfinish := h.finish
  cases h with
  | reading => exact hsame
  | dialing => exact hsame
  | ended phase _ => exact absurd phase (hlive _)
  | _ => exact hfinish _

theorem Stands.copyRead (d : Direction) (n : Nat) : Stands pieces r q answer (s.step (.copyRead d n)) := by
  have hsame := h
  cases h with
  | copying upward downward =>
    simp only [Session.step]
    split_ifs with hfree
    · cases d with
      | up => exact .copying (upward.fill hfree n) downward
      | down => exact .copying upward (downward.fill hfree n)
    · exact hsame
  | ended phase _ => exact absurd phase (hlive _)
  | _ => exact hsame

theorem Stands.copyWrite (d : Direction) (n : Nat) : Stands pieces r q answer (s.step (.copyWrite d n)) := by
  have hsame := h
  cases h with
  | copying upward downward =>
    cases d with
    | up => exact .copying (upward.advance n) downward
    | down =>
      simp only [Session.step, Session.hand, Session.setLane, Session.lane, List.append_assoc]
      exact .copying upward (downward.advance n)
  | ended phase _ => exact absurd phase (hlive _)
  | _ => exact hsame

theorem Stands.copyEnd (d : Direction) : Stands pieces r q answer (s.step (.copyEnd d)) := by
  have hsame := h
  have hfinish := h.finish
  cases h with
  | copying upward downward =>
    simp only [Session.step]
    split_ifs
    · exact hfinish none
    · exact hsame
  | ended phase _ => exact absurd phase (hlive _)
  | _ => exact hsame

theorem Stands.drop : Stands pieces r q answer (s.step .drop) := by
  have hfinish := h.finish
  cases h with
  | ended phase _ => exact absurd phase (hlive _)
  | _ => exact hfinish none

end Live

/-! ## Steps and runs -/

/-- **One step.** -/
theorem stands_step (hr : readRequest pieces = some r) (hq : r.outcome = .ok q) (hg : r.replies = q.dialect.greeting)
    (h : Stands pieces r q answer s) (e : SessionEvent) : Stands pieces r q (answer.or (s.answer? e)) (s.step e) := by
  by_cases hend : ∃ cause, s.phase = .ended cause
  · -- a dial that is answered later is no longer waited for
    obtain ⟨cause, phase⟩ := hend
    have hnone : s.answer? e = none := by cases e <;> simp [Session.answer?, phase]
    rwa [hnone, Option.or_none, Session.step_ended phase]
  · have hlive : ∀ cause, s.phase ≠ .ended cause := fun cause phase => hend ⟨cause, phase⟩
    have hsilent {s' : Session} (h' : Stands pieces r q answer s') : Stands pieces r q (answer.or none) s' := by
      rwa [Option.or_none]
    cases e with
    | dialed remote => exact h.dial hlive remote
    | read => exact hsilent (h.read hlive hr hq hg)
    | abandon n cause => exact hsilent (h.abandon hlive hr hg n cause)
    | wrote n => exact hsilent (h.wrote hlive n)
    | fault cause => exact hsilent (h.fault hlive cause)
    | copyRead d n => exact hsilent (h.copyRead hlive d n)
    | copyWrite d n => exact hsilent (h.copyWrite hlive d n)
    | copyEnd d => exact hsilent (h.copyEnd hlive d)
    | drop => exact hsilent (h.drop hlive)

/-- **A whole run.** -/
theorem stands_run (hr : readRequest pieces = some r) (hq : r.outcome = .ok q) (hg : r.replies = q.dialect.greeting)
    (h : Stands pieces r q answer s) (es : List SessionEvent) :
    Stands pieces r q (answer.or (s.dialAnswer es)) (s.run es) := by
  induction es generalizing s answer with
  | nil =>
    rw [Session.dialAnswer, Option.or_none]
    exact h
  | cons e es ih =>
    rw [Session.dialAnswer, ← Option.or_assoc]
    exact ih (stands_step hr hq hg h e)

/-- a direction that ends because its source has ended has handed on everything -/
theorem Stands.eq_whole {remote : List UInt8} (h : Stands pieces r q (some (.ok remote)) s) {d : Direction}
    (hend : s.EndsBySource d) : (s.step (.copyEnd d)).handed d = whole q (q.pending ++ r.rest) remote d := by
  obtain ⟨hphase, hroom, hfinal⟩ := hend
  cases h with
  | copying upward downward =>
    simp only [Session.step] at hfinal ⊢
    split_ifs at hfinal ⊢ with hd
    · cases d with
      | up => exact upward.eq_whole hd hroom
      | down => exact congrArg (q.dialect.prologue ++ ·) (downward.eq_whole hd hroom)
  | ended phase _ => rw [phase] at hphase; cases hphase
  | answering _ => cases hphase
  | handing _ => cases hphase

/-- a connection that copies has dialed with success -/
theorem Stands.dialed (h : Stands pieces r q answer s) (hphase : s.phase = .copying) :
    ∃ remote, answer = some (.ok remote) := by
  cases h with
  | copying _ _ => exact ⟨_, rfl⟩
  | ended phase _ => rw [phase] at hphase; cases hphase
  | _ => cases hphase

end Standing

/-! ## The result -/

/-- **Byte-exact passage.** Of a client whose request is read, in whatever pieces its bytes come and whatever the buffers held
before: its bytes have an opening and only one; and at the end of any run

- the streams have been handed what `Handed` says: the remote end a beginning of what follows the opening, the client its
  answers and then a beginning of what the remote end sends, and nothing of it unless the dial succeeded;
- a direction that ended because its source has ended has handed on all. -/
theorem byte_exact {pieces : List (List UInt8)} {r : Reading} {q : Request} (hr : readRequest pieces = some r)
    (hq : r.outcome = .ok q) (up down : Buffer) :
    (∃ opening payload, Opening q.dialect opening ∧ pieces.flatten = opening ++ payload) ∧
    ∀ opening payload, Opening q.dialect opening → pieces.flatten = opening ++ payload → ∀ es : List SessionEvent,
      let s := (Session.new pieces).withBuffers up down
      Handed q payload (s.run es) (s.dialAnswer es) ∧
      ∀ d before after remote, es = before ++ .copyEnd d :: after → (s.run before).EndsBySource d →
        s.dialAnswer es = some (.ok remote) → (s.run es).handed d = whole q payload remote d := by
  obtain ⟨hg, opening₀, hopening₀, hbytes₀⟩ := opening_of_readRequest hr hq
  refine ⟨⟨opening₀, _, hopening₀, hbytes₀⟩, fun opening payload hopening hbytes es => ?_⟩
  intro s
  have heq : opening ++ payload = opening₀ ++ (q.pending ++ r.rest) := hbytes.symm.trans hbytes₀
  obtain rfl : opening = opening₀ := hopening.unique hopening₀ heq
  obtain rfl : payload = q.pending ++ r.rest := List.append_cancel_left heq
  have hstands : ∀ es, Stands pieces r q (s.dialAnswer es) (s.run es) :=
    stands_run hr hq hg .reading
  refine ⟨(hstands es).handed, fun d before after remote hes hend hanswer => ?_⟩
  obtain ⟨remote', hbefore⟩ := (hstands before).dialed hend.1
  obtain rfl : remote' = remote := by
    rw [hes, Session.dialAnswer_append, hbefore, Option.some_or] at hanswer
    simpa using hanswer
  have hfinal := (hbefore ▸ hstands before).eq_whole hend
  have hrun : s.run es = (s.run before).step (.copyEnd d) := by
    rw [hes, Session.run_append]
    exact Session.run_ended hend.2.2 after
  rw [hrun, hfinal]

/-- a request to connect that ends in the second piece, which has more bytes, and bytes that come later -/
def earlyConnect : List (List UInt8) :=
  ["CONNECT h:1 HTTP/1.1\r\n\r", "\nearly", " data"].map fun piece => piece.toList.map (·.toUInt8)

/-- the answer, the bytes read past the head and both directions, in portions -/
def inPortions : List SessionEvent :=
  [.read, .dialed (.ok [7, 7]), .wrote 20, .wrote 19, .wrote 3, .wrote 2, .copyRead .up 2, .copyRead .down 9,
    .copyWrite .up 1, .copyWrite .down 1, .copyWrite .up 1, .copyRead .up 9, .copyWrite .up 9]

/-- a client that sends early and then closes, and buffers that were used before -/
theorem byte_exact_of_early_connect :
    ∃ r q, readRequest earlyConnect = some r ∧ r.outcome = .ok q ∧
      let s := (Session.new earlyConnect).withBuffers ⟨0, [1, 2, 3]⟩ ⟨1, [4]⟩
      (s.run inPortions).EndsBySource .up ∧
        (s.run (inPortions ++ [.copyEnd .up])).handed .up = "early data".toList.map (·.toUInt8) := by
  have hr : readRequest earlyConnect = some (Http.read earlyConnect) := rfl
  have hq : (Http.read earlyConnect).outcome = .ok ⟨.httpConnect, "h:1", "early".toList.map (·.toUInt8)⟩ := by
    decide +kernel
  refine ⟨_, _, hr, hq, ?_⟩
  intro s
  have hend : (s.run inPortions).EndsBySource .up := ⟨by decide +kernel, by decide +kernel, by decide +kernel⟩
  have hopening : Opening .httpConnect (earlyConnect.flatten.take 24) := Http.opening_of_headEnd? (by decide +kernel)
  have h := ((byte_exact hr hq ⟨0, [1, 2, 3]⟩ ⟨1, [4]⟩).2 _ _ hopening (List.take_append_drop 24 _).symm
    (inPortions ++ [.copyEnd .up])).2 .up inPortions [] [7, 7] rfl hend (by decide +kernel)
  refine ⟨hend, h.trans ?_⟩
  decide +kernel

end EdgeTunnel.Proxy
