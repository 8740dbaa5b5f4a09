/-
Slots and buffers of a proxy front.

A permit is free, with the accept loop, or with one handler, and a buffer that was ever made is idle or with one handler, at
every moment of every run: the loop and the handlers take their steps in any order, and the connections do what they like.
A new buffer is made only while none is idle, so there are never more than the handlers can hold.

- `Session.label_step`: what happens to a connection leaves its buffers their numbers and sizes.
- `Inv`: the invariant. `Inv.perm`: the order of the handlers does not matter to it.
- `inv_handle`, `step_inv`, `run_inv`: it holds after every step and every run.
- `leave`, `leaves`: a handler whose connection is over, or any handler after a cancellation, gets to its end by its own
  steps, whatever it holds.
- `slots_conserved`: the results.
-/
import EdgeTunnel.Proofs.BufferPool.Buffers
import EdgeTunnel.Proofs.Numbered
import EdgeTunnel.Proxy.Front

namespace EdgeTunnel

namespace Proxy

/-! ## Buffers of a connection -/

namespace Session

theorem label_setLane {s : Session} {d : Direction} {l : Lane} (h : l.buffer.label = (s.lane d).buffer.label) (d' : Direction) :
    ((s.setLane d l).lane d').buffer.label = (s.lane d').buffer.label := by
  cases d <;> cases d' <;> first | exact h | rfl

theorem lane_hand (s : Session) (d : Direction) (bytes : List UInt8) (d' : Direction) :
    (s.hand d bytes).lane d' = s.lane d' := by
  cases d <;> cases d' <;> rfl

theorem label_readStep (s : Session) (d : Direction) : (s.readStep.lane d).buffer.label = (s.lane d).buffer.label := by
  unfold readStep
  split
  · cases d <;> rfl
  · dsimp only
    split
    · cases d <;> rfl
    · cases d <;> rfl

theorem lane_abandonStep (s : Session) (n : Nat) (cause : Option ProxyError) (d : Direction) :
    (s.abandonStep n cause).lane d = s.lane d := by
  unfold abandonStep
  split <;> cases d <;> rfl

theorem label_dialStep (s : Session) (q : Request) (remote : Except String (List UInt8)) (d : Direction) :
    ((s.dialStep q remote).lane d).buffer.label = (s.lane d).buffer.label := by
  cases remote <;> cases d <;> rfl

theorem lane_writeStep (s : Session) (d : Direction) (left : List UInt8) (n : Nat) (more : List UInt8 → Phase) (done : Phase)
    (d' : Direction) : (s.writeStep d left n more done).lane d' = s.lane d' := by
  cases d <;> cases d' <;> rfl

theorem label_fill (l : Lane) (n : Nat) : (l.fill n).buffer.label = l.buffer.label := Buffer.label_write ..

/-- **What happens to a connection leaves its buffers their numbers and sizes.** -/
theorem label_step (s : Session) (e : SessionEvent) (d : Direction) :
    ((s.step e).lane d).buffer.label = (s.lane d).buffer.label := by
  unfold step
  split
  · rfl
  · cases d <;> rfl
  · exact label_readStep s d
  · rw [lane_abandonStep]
  · exact label_dialStep ..
  · rw [lane_writeStep]
  · cases d <;> rfl
  · rw [lane_writeStep]
  · cases d <;> rfl
  · rw [lane_writeStep]
  · cases d <;> rfl
  · split
    · exact label_setLane (label_fill _ _) d
    · rfl
  · rw [label_setLane _ d, lane_hand]
    rw [lane_hand]
    rfl
  · split
    · cases d <;> rfl
    · rfl
  · cases d <;> rfl
  · rfl

end Session

namespace Handler

theorem length_buffers {h : Handler} (hle : h.loans ≤ 2) : h.buffers.length = h.loans := by
  rw [buffers, List.length_take]
  exact Nat.min_eq_left hle

theorem buffers_take {h : Handler} (hlt : h.loans < 2) (b : Buffer) : (h.take b).buffers = h.buffers ++ [b] := by
  rcases h with ⟨id, stage, session, _ | _ | n⟩
  · rfl
  · rfl
  · simp at hlt

theorem take_spec (h : Handler) (b : Buffer) :
    (h.take b).id = h.id ∧ (h.take b).stage = h.stage ∧ (h.take b).loans ≤ 2 := by
  unfold take
  split <;> simp

theorem label_buffers_step (h : Handler) (e : SessionEvent) :
    ({ h with session := h.session.step e } : Handler).buffers.map Buffer.label = h.buffers.map Buffer.label := by
  have hup := h.session.label_step e .up
  have hdown := h.session.label_step e .down
  simp only [Session.lane] at hup hdown
  simp only [buffers, List.map_take, List.map_cons, List.map_nil, hup, hdown]

/-- a handler that has borrowed something, with its last loan apart -/
theorem buffers_eq_append {h : Handler} (hle : h.loans ≤ 2) {b : Buffer} (hb : h.buffers.getLast? = some b) :
    h.buffers = ({ h with loans := h.loans - 1 } : Handler).buffers ++ [b] := by
  rcases h with ⟨id, stage, session, _ | _ | _ | n⟩
  · simp [buffers] at hb
  · simpa [buffers] using hb
  · simpa [buffers] using hb
  · simp at hle

end Handler

/-! ## The invariant -/

namespace Front

/-- the buffers that are with handlers -/
def borrowed (f : Front) : List Buffer := f.handlers.flatMap Handler.buffers

/-- the permit that the loop has for itself -/
def ownPermit (f : Front) : Nat := if f.loop.hasPermit then 1 else 0

/-- the invariant of a front whose handlers with these numbers have returned their permits -/
structure Inv (c : Config) (returned : List Nat) (f : Front) : Prop where
  permits : f.permits + f.ownPermit + f.handlers.length = c.maxConnections.toNat
  /-- whoever was accepted is there or has returned its permit, once -/
  once : (returned ++ f.handlers.map (·.id)).Perm (List.range f.accepted)
  counted : f.active = f.handlers.countP fun h => h.stage = .counted
  loans : ∀ h ∈ f.handlers, h.loans ≤ 2 ∧ (h.stage ≠ .counted → h.loans = 0)
  /-- every buffer that was made is idle or with one handler, and has its full size -/
  buffers : ((f.pool.idle ++ f.borrowed).map Buffer.label).Perm
    ((List.range f.pool.made).map fun n => (n, c.bufferSize.toNat))
  made : f.pool.made ≤ 2 * c.maxConnections.toNat
  size : f.pool.size = c.bufferSize.toNat
  capacity : f.pool.capacity = max (c.maxConnections.toNat * 2) 1

theorem inv_new (c : Config) (canceled : Bool) : Inv c [] (new c canceled) where
  permits := rfl
  once := List.Perm.refl _
  counted := rfl
  loans _ h := absurd h List.not_mem_nil
  buffers := List.Perm.refl _
  made := Nat.zero_le _
  size := rfl
  capacity := rfl

variable {c : Config} {returned : List Nat} {f : Front}

/-- the order of the handlers does not matter -/
theorem Inv.perm (hi : Inv c returned f) {hs : List Handler} (hp : f.handlers.Perm hs) :
    Inv c returned { f with handlers := hs } where
  permits := by
    have h := hi.permits
    rwa [hp.length_eq] at h
  once := ((hp.map _).append_left _).symm.trans hi.once
  counted := hi.counted.trans (hp.countP_eq _)
  loans h hh := hi.loans h (hp.mem_iff.2 hh)
  buffers := (((hp.flatMap_right _).append_left _).map _).symm.trans hi.buffers
  made := hi.made
  size := hi.size
  capacity := hi.capacity

theorem Inv.nodup (hi : Inv c returned f) : (f.handlers.map (·.id)).Nodup :=
  (List.nodup_append.1 (hi.once.nodup_iff.2 List.nodup_range)).2.1

theorem Inv.find?_of_mem (hi : Inv c returned f) {h : Handler} (hh : h ∈ f.handlers) :
    f.handlers.find? (·.id = h.id) = some h :=
  Numbered.find?_of_mem Handler.id hi.nodup hh

/-- one handler is replaced or taken out alone -/
theorem Inv.exists_others (hi : Inv c returned f) {n : Nat} {h : Handler}
    (hf : f.handlers.find? (·.id = n) = some h) :
    ∃ others, f.handlers.Perm (h :: others) ∧ (f.handlers.filter (·.id ≠ h.id)).Perm others ∧
      ∀ h' : Handler, h'.id = h.id → (f.replace h').handlers.Perm (h' :: others) :=
  Numbered.exists_others Handler.id hi.nodup hf

/-! ## Buffers of a front -/

/-- no buffer is lost -/
theorem Inv.length_idle_add (hi : Inv c returned f) : f.pool.idle.length + f.borrowed.length = f.pool.made := by
  have h := hi.buffers.length_eq
  rwa [List.length_map, List.length_append, List.length_map, List.length_range] at h

theorem length_flatMap_buffers_le {hs : List Handler} (h : ∀ x ∈ hs, x.loans ≤ 2) :
    (hs.flatMap Handler.buffers).length ≤ 2 * hs.length := by
  induction hs with
  | nil => exact Nat.zero_le _
  | cons x hs ih =>
    have hx := h x List.mem_cons_self
    have hrest := ih fun y hy => h y (List.mem_cons_of_mem _ hy)
    rw [List.flatMap_cons, List.length_append, Handler.length_buffers hx, List.length_cons]
    omega

/-- while a handler may borrow, there is a buffer that has not been made -/
theorem Inv.length_borrowed_lt (hi : Inv c returned f) {n : Nat} {h : Handler}
    (hf : f.handlers.find? (·.id = n) = some h) (hlt : h.loans < 2) :
    f.borrowed.length < 2 * c.maxConnections.toNat := by
  obtain ⟨others, hperm, -⟩ := hi.exists_others hf
  have hothers : ∀ x ∈ others, x.loans ≤ 2 := fun x hx => (hi.loans x (hperm.mem_iff.2 (List.mem_cons_of_mem _ hx))).1
  have hlength := (hperm.flatMap_right Handler.buffers).length_eq
  rw [List.flatMap_cons, List.length_append, Handler.length_buffers hlt.le] at hlength
  have hrest := length_flatMap_buffers_le hothers
  have hpermits := hi.permits
  rw [hperm.length_eq, List.length_cons] at hpermits
  rw [borrowed, hlength]
  omega

/-- while a handler holds a buffer, the pool has room for it -/
theorem Inv.room (hi : Inv c returned f) (hborrowed : f.borrowed ≠ []) : f.pool.idle.length < f.pool.capacity := by
  have hall := hi.length_idle_add
  have hmade := hi.made
  have hpos := List.length_pos_iff.2 hborrowed
  rw [hi.capacity]
  omega

/-! ## Steps of handlers -/

/-- a handler takes a step, and with it the counter and the pool -/
theorem Inv.replace (hi : Inv c returned f) {n : Nat} {h : Handler} (hf : f.handlers.find? (·.id = n) = some h)
    (h' : Handler) (hid : h'.id = h.id) {active : Nat} {pool : BufferPool}
    (hactive : active + (if h.stage = .counted then 1 else 0) = f.active + if h'.stage = .counted then 1 else 0)
    (hloans : h'.loans ≤ 2 ∧ (h'.stage ≠ .counted → h'.loans = 0))
    (hbuffers : ∀ rest : List Buffer,
      ((f.pool.idle ++ (h.buffers ++ rest)).map Buffer.label).Perm
        ((List.range f.pool.made).map fun n => (n, c.bufferSize.toNat)) →
      ((pool.idle ++ (h'.buffers ++ rest)).map Buffer.label).Perm
        ((List.range pool.made).map fun n => (n, c.bufferSize.toNat)))
    (hmade : pool.made ≤ 2 * c.maxConnections.toNat) (hsize : pool.size = c.bufferSize.toNat)
    (hcapacity : pool.capacity = max (c.maxConnections.toNat * 2) 1) :
    Inv c returned { f.replace h' with active, pool } := by
  obtain ⟨others, hperm, -, hreplaced⟩ := hi.exists_others hf
  have hall := hi.perm hperm
  have hinv : Inv c returned { f with handlers := h' :: others, active, pool } := by
    constructor
    · exact hall.permits
    · have honce := hall.once
      rwa [List.map_cons, ← hid] at honce
    · have hcounted := hall.counted
      simp only [List.countP_cons, decide_eq_true_eq] at hcounted ⊢
      omega
    · intro x hx
      rcases List.mem_cons.1 hx with rfl | hx
      · exact hloans
      · exact hall.loans x (List.mem_cons_of_mem _ hx)
    · exact hbuffers _ hall.buffers
    · exact hmade
    · exact hsize
    · exact hcapacity
  exact hinv.perm (hreplaced h' hid).symm

/-- a handler takes a step that leaves its buffers and the pool alone -/
theorem Inv.replace_of_label (hi : Inv c returned f) {n : Nat} {h : Handler}
    (hf : f.handlers.find? (·.id = n) = some h) (h' : Handler) (hid : h'.id = h.id) {active : Nat}
    (hactive : active + (if h.stage = .counted then 1 else 0) = f.active + if h'.stage = .counted then 1 else 0)
    (hloans : h'.loans ≤ 2 ∧ (h'.stage ≠ .counted → h'.loans = 0))
    (hlabel : h'.buffers.map Buffer.label = h.buffers.map Buffer.label) :
    Inv c returned { f.replace h' with active } := by
  refine hi.replace hf _ hid hactive hloans (fun rest hrest => ?_) hi.made hi.size hi.capacity
  rw [List.map_append, List.map_append] at hrest ⊢
  rwa [hlabel]

theorem inv_borrow (hi : Inv c returned f) {n : Nat} {h : Handler} (hf : f.handlers.find? (·.id = n) = some h)
    (hlt : h.loans < 2) (hstage : h.stage = .counted) :
    Inv c returned { f.replace (h.take f.pool.get.1) with pool := f.pool.get.2 } := by
  have hall := hi.length_idle_add
  have hborrowed := hi.length_borrowed_lt hf hlt
  obtain ⟨hid, hsame, hloans⟩ := h.take_spec f.pool.get.1
  have hactive : f.active + (if h.stage = .counted then 1 else 0) =
      f.active + if (h.take f.pool.get.1).stage = .counted then 1 else 0 := by rw [hsame]
  have hfew : (h.take f.pool.get.1).loans ≤ 2 ∧
      ((h.take f.pool.get.1).stage ≠ .counted → (h.take f.pool.get.1).loans = 0) :=
    ⟨hloans, fun hne => absurd (hsame.trans hstage) hne⟩
  obtain ⟨b, rest, hidle, hget⟩ | ⟨hidle, hget⟩ := f.pool.get_eq
  · rw [hget] at hid hactive hfew ⊢
    refine hi.replace hf _ hid hactive hfew (fun more hmore => (List.Perm.map _ ?_).trans hmore) hi.made hi.size hi.capacity
    -- the buffer goes from the head of the queue to the loans of the handler
    rw [Handler.buffers_take hlt, hidle, List.append_assoc, List.singleton_append, ← List.append_assoc]
    refine List.perm_middle.trans ?_
    rw [List.append_assoc, List.cons_append]
  · rw [hget] at hid hactive hfew ⊢
    rw [hidle, List.length_nil] at hall
    refine hi.replace hf _ hid hactive hfew (fun more hmore => ?_) (by dsimp only; omega) hi.size hi.capacity
    have hlabel : Buffer.label ⟨f.pool.made, List.replicate f.pool.size 0⟩ = (f.pool.made, c.bufferSize.toNat) := by
      rw [Buffer.label, List.length_replicate, hi.size]
    have hrange : (List.range (f.pool.made + 1)).map (fun n => (n, c.bufferSize.toNat)) =
        (List.range f.pool.made).map (fun n => (n, c.bufferSize.toNat)) ++ [(f.pool.made, c.bufferSize.toNat)] := by
      rw [List.range_succ, List.map_append]
      rfl
    rw [hidle, List.nil_append] at hmore ⊢
    rw [Handler.buffers_take hlt, List.append_assoc, List.singleton_append, hrange]
    refine (List.perm_middle.map Buffer.label).trans ?_
    rw [List.map_cons, hlabel]
    exact (hmore.cons _).trans (List.perm_append_singleton _ _).symm

theorem inv_giveBack (hi : Inv c returned f) {n : Nat} {h : Handler} (hf : f.handlers.find? (·.id = n) = some h)
    {b : Buffer} (hb : h.buffers.getLast? = some b) :
    Inv c returned { f.replace { h with loans := h.loans - 1 } with pool := f.pool.put b } := by
  have hmem : h ∈ f.handlers := List.mem_of_find?_eq_some hf
  obtain ⟨hle, hnone⟩ := hi.loans h hmem
  have hsplit := Handler.buffers_eq_append hle hb
  have hroom : f.pool.idle.length < f.pool.capacity := by
    refine hi.room (List.ne_nil_of_mem (a := b) (List.mem_flatMap.2 ⟨h, hmem, ?_⟩))
    exact List.mem_of_getLast? hb
  rw [BufferPool.put, if_pos hroom]
  refine hi.replace hf { h with loans := h.loans - 1 } rfl rfl ⟨(Nat.sub_le _ _).trans hle, fun hne => ?_⟩
    (fun more hmore => (List.Perm.map _ ?_).trans hmore) hi.made hi.size hi.capacity
  · dsimp only
    rw [hnone hne]
  · -- and back from the loans to the end of the queue
    rw [hsplit, List.append_assoc, List.append_assoc]
    exact (List.Perm.append_left _ (List.perm_append_comm_assoc ..))

theorem inv_release (hi : Inv c returned f) {n : Nat} {h : Handler} (hf : f.handlers.find? (·.id = n) = some h)
    (hstage : h.stage = .leaving) :
    Inv c (returned ++ [h.id]) { f with handlers := f.handlers.filter (·.id ≠ h.id), permits := f.permits + 1 } := by
  obtain ⟨others, hperm, hkept, -⟩ := hi.exists_others hf
  have hall := hi.perm hperm
  have hnone : h.buffers = [] := by
    have hloans := (hi.loans h (List.mem_of_find?_eq_some hf)).2 (by simp [hstage])
    rw [Handler.buffers, hloans, List.take_zero]
  have hinv : Inv c (returned ++ [h.id]) { f with handlers := others, permits := f.permits + 1 } := by
    constructor
    · have hpermits := hall.permits
      simp only [List.length_cons] at hpermits
      show f.permits + 1 + f.ownPermit + others.length = _
      have hown : ownPermit { f with handlers := h :: others } = f.ownPermit := rfl
      omega
    · have honce := hall.once
      rwa [List.map_cons, ← List.singleton_append, ← List.append_assoc] at honce
    · have hcounted := hall.counted
      rw [List.countP_cons_of_neg (by simp [hstage])] at hcounted
      exact hcounted
    · exact fun x hx => hall.loans x (List.mem_cons_of_mem _ hx)
    · have hbuffers := hall.buffers
      rw [borrowed, List.flatMap_cons, hnone, List.nil_append] at hbuffers
      exact hbuffers
    · exact hall.made
    · exact hall.size
    · exact hall.capacity
  exact hinv.perm hkept.symm

/-- the handler whose permit a step returns, if there is one -/
def returned? (f : Front) : FrontEvent → Option Nat
  | .handler n .release =>
    match f.handlers.find? (·.id = n) with
    | some h => if h.stage = .leaving then some h.id else none
    | none => none
  | _ => none

/-- the handlers whose permits a run returns, in order -/
def returns (f : Front) : List FrontEvent → List Nat
  | [] => []
  | e :: es => (f.returned? e).toList ++ returns (f.step e) es

/-- **One step of a handler keeps the invariant.** -/
theorem inv_handle (hi : Inv c returned f) {n : Nat} {h : Handler} (hf : f.handlers.find? (·.id = n) = some h)
    (e : HandlerEvent) : Inv c (returned ++ (f.returned? (.handler n e)).toList) (f.handle h e) := by
  obtain ⟨hle, hnone⟩ := hi.loans h (List.mem_of_find?_eq_some hf)
  cases e with
  | release =>
    simp only [returned?, hf, handle]
    split_ifs with hstage
    · exact inv_release hi hf hstage
    · simpa using hi
  | begin =>
    simp only [returned?, handle, Option.toList_none, List.append_nil]
    split_ifs with hstage
    · have hzero := hnone (by simp [hstage])
      exact hi.replace_of_label hf { h with stage := .counted } rfl (by simp [hstage]) ⟨hle, fun hne => hzero⟩ rfl
    · exact hi
  | borrow =>
    simp only [returned?, handle, Option.toList_none, List.append_nil]
    split_ifs with hmay
    · simp only [Handler.mayBorrow, Bool.and_eq_true, decide_eq_true_eq] at hmay
      exact inv_borrow hi hf hmay.2 hmay.1.1
    · exact hi
  | session e =>
    simp only [returned?, handle, Option.toList_none, List.append_nil]
    split_ifs with hadmits
    · exact hi.replace_of_label hf { h with session := h.session.step e } rfl rfl ⟨hle, hnone⟩ (h.label_buffers_step e)
    · exact hi
  | giveBack =>
    simp only [returned?, handle, Option.toList_none, List.append_nil]
    split
    · rename_i b hover hb
      exact inv_giveBack hi hf hb
    · exact hi
  | uncount =>
    simp only [returned?, handle, Option.toList_none, List.append_nil]
    split_ifs with hdone
    · obtain ⟨hstage, -, hzero⟩ := hdone
      have hpos : 0 < f.active := by
        rw [hi.counted]
        exact List.countP_pos_iff.2 ⟨h, List.mem_of_find?_eq_some hf, by simp [hstage]⟩
      refine hi.replace_of_label hf { h with stage := .leaving } rfl ?_ ⟨hle, fun _ => hzero⟩ rfl
      simp only [hstage, if_true]
      rw [if_neg (by simp)]
      omega
    · exact hi

/-! ## Steps of the loop -/

/-- the loop takes a permit, returns one, or moves on -/
theorem Inv.setLoop (hi : Inv c returned f) {permits : Nat} {loop : AcceptLoop}
    (h : permits + (if loop.hasPermit then 1 else 0) = f.permits + f.ownPermit) :
    Inv c returned { f with permits, loop } where
  permits := by
    have hpermits := hi.permits
    rw [← h] at hpermits
    exact hpermits
  once := hi.once
  counted := hi.counted
  loans := hi.loans
  buffers := hi.buffers
  made := hi.made
  size := hi.size
  capacity := hi.capacity

theorem inv_look (hi : Inv c returned f) : Inv c returned f.look := by
  unfold look
  split_ifs
  · refine hi.setLoop ?_
    rw [ownPermit]
    cases f.loop <;> rfl
  · split
    · rename_i hloop
      exact hi.setLoop (by rw [ownPermit, hloop]; rfl)
    · rename_i hloop
      exact hi.setLoop (by rw [ownPermit, hloop]; rfl)
    · exact hi

theorem inv_accept (hi : Inv c returned f) (hloop : f.loop = .accepting) (pieces : List (List UInt8)) :
    Inv c returned { f with
      loop := .idle, handlers := f.handlers ++ [.new f.accepted pieces], accepted := f.accepted + 1 } where
  permits := by
    have hpermits := hi.permits
    have hown : f.ownPermit = 1 := by rw [ownPermit, hloop]; rfl
    rw [hown] at hpermits
    rw [List.length_append, List.length_singleton]
    show f.permits + 0 + (f.handlers.length + 1) = _
    omega
  once := by
    rw [List.map_append, ← List.append_assoc, List.range_succ]
    exact hi.once.append_right _
  counted := by
    rw [List.countP_append]
    exact hi.counted
  loans x hx := by
    rcases List.mem_append.1 hx with hx | hx
    · exact hi.loans x hx
    · rw [List.mem_singleton.1 hx]
      exact ⟨Nat.zero_le _, fun _ => rfl⟩
  buffers := by
    have hnone : (Handler.new f.accepted pieces).buffers = [] := rfl
    rw [borrowed, List.flatMap_append, List.flatMap_singleton, hnone, List.append_nil]
    exact hi.buffers
  made := hi.made
  size := hi.size
  capacity := hi.capacity

/-- **One step of a front keeps the invariant.** -/
theorem step_inv (hi : Inv c returned f) (e : FrontEvent) : Inv c (returned ++ (f.returned? e).toList) (f.step e) := by
  cases e with
  | handler n e =>
    simp only [step]
    split
    · rename_i h hf
      exact inv_handle hi hf e
    · rename_i hf
      have hnone : f.returned? (.handler n e) = none := by
        cases e <;> simp [returned?, hf]
      simpa [hnone] using hi
  | look =>
    simp only [returned?, Option.toList_none, List.append_nil, step]
    exact inv_look hi
  | acquire =>
    simp only [returned?, Option.toList_none, List.append_nil, step]
    split_ifs with h
    · obtain ⟨hloop, hpos⟩ := h
      refine hi.setLoop ?_
      rw [ownPermit, hloop]
      exact Nat.sub_add_cancel hpos
    · exact hi
  | accept pieces =>
    simp only [returned?, Option.toList_none, List.append_nil, step]
    split_ifs with hloop
    · exact inv_accept hi hloop pieces
    · exact hi
  | acceptError =>
    simp only [returned?, Option.toList_none, List.append_nil, step]
    split_ifs with hloop
    · exact hi.setLoop (by rw [ownPermit, hloop]; rfl)
    · exact hi
  | cancel =>
    simp only [returned?, Option.toList_none, List.append_nil, step]
    exact ⟨hi.permits, hi.once, hi.counted, hi.loans, hi.buffers, hi.made, hi.size, hi.capacity⟩

theorem run_inv (hi : Inv c returned f) (es : List FrontEvent) : Inv c (returned ++ f.returns es) (f.run es) := by
  induction es generalizing returned f with
  | nil => simpa [returns, run] using hi
  | cons e es ih =>
    have h := ih (step_inv hi e)
    rwa [List.append_assoc] at h

/-! ## Ends of handlers -/

/-- the steps that are left to a handler whose connection is over, or is dropped -/
def leave (n : Nat) : List FrontEvent :=
  [.begin, .session .drop, .giveBack, .giveBack, .uncount, .release].map (.handler n)

/-- has the handler with a number come to `h` between two fronts, the others and the loop being as they were? -/
structure Comes (f : Front) (n : Nat) (f' : Front) (h : Handler) : Prop where
  found : f'.handlers.find? (·.id = n) = some h
  others : f'.handlers.filter (·.id ≠ n) = f.handlers.filter (·.id ≠ n)
  loop : f'.loop = f.loop
  canceled : f'.canceled = f.canceled

theorem Comes.refl {n : Nat} {h : Handler} (hf : f.handlers.find? (·.id = n) = some h) : Comes f n f h :=
  ⟨hf, rfl, rfl, rfl⟩

theorem Comes.trans {n : Nat} {f' f'' : Front} {h h' : Handler} (a : Comes f n f' h) (b : Comes f' n f'' h') :
    Comes f n f'' h' :=
  ⟨b.found, b.others.trans a.others, b.loop.trans a.loop, b.canceled.trans a.canceled⟩

theorem comes_replace {n : Nat} {h : Handler} (hf : f.handlers.find? (·.id = n) = some h) (h' : Handler)
    (hid : h'.id = h.id) (active : Nat) (pool : BufferPool) : Comes f n { f.replace h' with active, pool } h' := by
  obtain rfl : h.id = n := by simpa using List.find?_some hf
  constructor
  · exact Numbered.find?_replace Handler.id hid hf
  · exact Numbered.filter_replace Handler.id hid
  · rfl
  · rfl

section Leaving

variable {n : Nat} {h : Handler}

theorem comes_begin (hf : f.handlers.find? (·.id = n) = some h) :
    Comes f n (f.step (.handler n .begin)) (if h.stage = .waiting then { h with stage := .counted } else h) := by
  simp only [step, hf, handle]
  split_ifs
  · exact comes_replace hf { h with stage := .counted } rfl _ _
  · exact .refl hf

theorem isOver_drop (h : Handler) : ({ h with session := h.session.step .drop } : Handler).isOver = true := by
  cases hphase : h.session.phase <;> simp [Handler.isOver, Session.step, Session.finish, hphase]

theorem comes_drop (hf : f.handlers.find? (·.id = n) = some h) (hstage : h.stage = .counted)
    (hover : h.isOver = true ∨ f.canceled = true) :
    ∃ h' : Handler, Comes f n (f.step (.handler n (.session .drop))) h' ∧ h'.isOver = true ∧ h'.stage = .counted ∧
      h'.loans = h.loans := by
  have hadmits : h.admits f.canceled .drop = f.canceled := by simp [Handler.admits, hstage]
  simp only [step, hf, handle, hadmits]
  split_ifs with hcanceled
  · exact ⟨_, comes_replace hf { h with session := h.session.step .drop } rfl _ _, isOver_drop h, hstage, rfl⟩
  · exact ⟨h, .refl hf, hover.resolve_right hcanceled, hstage, rfl⟩

theorem comes_giveBack (hf : f.handlers.find? (·.id = n) = some h) (hover : h.isOver = true) :
    Comes f n (f.step (.handler n .giveBack)) { h with loans := h.loans - 1 } := by
  simp only [step, hf, handle, hover]
  cases hlast : h.buffers.getLast? with
  | some b => exact comes_replace hf { h with loans := h.loans - 1 } rfl _ _
  | none =>
    rcases h with ⟨id, stage, session, loans⟩
    obtain rfl : loans = 0 := by
      rw [List.getLast?_eq_none_iff, Handler.buffers, List.take_eq_nil_iff] at hlast
      simpa using hlast
    exact .refl hf

theorem comes_uncount (hf : f.handlers.find? (·.id = n) = some h) (hstage : h.stage = .counted) (hover : h.isOver = true)
    (hloans : h.loans = 0) : Comes f n (f.step (.handler n .uncount)) { h with stage := .leaving } := by
  simp only [step, hf, handle, if_pos (And.intro hstage (And.intro hover hloans))]
  exact comes_replace hf { h with stage := .leaving } rfl _ _

/-- a handler that no longer counts has nothing left but its permit -/
theorem step_of_leaving (hf : f.handlers.find? (·.id = n) = some h) (hstage : h.stage = .leaving) (hloans : h.loans = 0)
    {e : HandlerEvent} (he : e ≠ .release) : f.step (.handler n e) = f := by
  have hbuffers : h.buffers.getLast? = none := by rw [Handler.buffers, hloans]; rfl
  cases e with
  | release => exact absurd rfl he
  | giveBack =>
    simp only [step, hf, handle, hbuffers]
    cases h.isOver <;> rfl
  | _ => simp [step, hf, handle, Handler.mayBorrow, Handler.admits, hstage]

theorem comes_leaving (hi : Inv c returned f) (hf : f.handlers.find? (·.id = n) = some h)
    (hover : h.isOver = true ∨ f.canceled = true) :
    ∃ h' : Handler, h'.stage = .leaving ∧
      Comes f n (f.run ([.begin, .session .drop, .giveBack, .giveBack, .uncount].map (.handler n))) h' := by
  obtain ⟨hle, hnone⟩ := hi.loans h (List.mem_of_find?_eq_some hf)
  simp only [List.map_cons, List.map_nil, run, List.foldl_cons, List.foldl_nil]
  by_cases hstage : h.stage = .leaving
  · have hzero : h.loans = 0 := hnone (by simp [hstage])
    have hstays : ∀ {e : HandlerEvent}, e ≠ .release → f.step (.handler n e) = f := step_of_leaving hf hstage hzero
    rw [hstays (by simp), hstays (by simp), hstays (by simp), hstays (by simp), hstays (by simp)]
    exact ⟨h, hstage, .refl hf⟩
  · obtain ⟨h₁, c₁, hstage₁, hover₁, hloans₁⟩ : ∃ h₁ : Handler, Comes f n (f.step (.handler n .begin)) h₁ ∧
        h₁.stage = .counted ∧ (h₁.isOver = true ∨ f.canceled = true) ∧ h₁.loans = h.loans := by
      refine ⟨_, comes_begin hf, ?_⟩
      split_ifs with hwaiting
      · exact ⟨rfl, hover, rfl⟩
      · cases hs : h.stage with
        | waiting => exact absurd hs hwaiting
        | counted => exact ⟨rfl, hover, rfl⟩
        | leaving => exact absurd hs hstage
    obtain ⟨h₂, c₂, hover₂, hstage₂, hloans₂⟩ := comes_drop c₁.found hstage₁ (c₁.canceled ▸ hover₁)
    have c₃ := comes_giveBack c₂.found hover₂
    have c₄ := comes_giveBack c₃.found hover₂
    have c₅ := comes_uncount c₄.found hstage₂ hover₂ (by dsimp only; omega)
    exact ⟨_, rfl, c₁.trans (c₂.trans (c₃.trans (c₄.trans c₅)))⟩

/-- **A handler gets to its end by its own steps**, whatever it holds, once its connection is over or the front was
canceled. -/
theorem leaves (hi : Inv c returned f) (hf : f.handlers.find? (·.id = n) = some h)
    (hover : h.isOver = true ∨ f.canceled = true) :
    (f.run (leave n)).handlers = f.handlers.filter (·.id ≠ n) ∧ (f.run (leave n)).loop = f.loop := by
  obtain ⟨h', hstage, hcomes⟩ := comes_leaving hi hf hover
  have hid : h'.id = n := by simpa using List.find?_some hcomes.found
  have hsplit : f.run (leave n) = (f.run ([.begin, .session .drop, .giveBack, .giveBack, .uncount].map (.handler n))).step
      (.handler n .release) := rfl
  rw [hsplit, step, hcomes.found]
  simp only [handle, hstage, if_true, hid]
  exact ⟨hcomes.others, hcomes.loop⟩

end Leaving

/-! ## The result -/

/-- what is known of a front whose handlers with these numbers have returned their permits -/
structure Conserved (c : Config) (returned : List Nat) (f : Front) : Prop where
  live : f.handlers.length ≤ c.maxConnections.toNat
  active : f.active = f.handlers.countP (fun h => h.stage = .counted) ∧ f.active ≤ f.handlers.length
  /-- every permit is free, with the loop or with one handler -/
  permits : f.permits + f.ownPermit + f.handlers.length = c.maxConnections.toNat
  /-- whoever was accepted is there or has returned its permit, once -/
  once : (returned ++ f.handlers.map (·.id)).Perm (List.range f.accepted)
  /-- a handler whose connection is over, or any handler after a cancellation, returns its permit by its own steps -/
  leaves : ∀ h ∈ f.handlers, h.isOver = true ∨ f.canceled = true →
    (f.run (leave h.id)).handlers = f.handlers.filter (·.id ≠ h.id) ∧ (f.run (leave h.id)).permits = f.permits + 1 ∧
      (f.run (leave h.id)).borrowed.length + h.loans = f.borrowed.length
  /-- every buffer that was made is idle or with one handler, and has its full size -/
  buffers : ((f.pool.idle ++ f.borrowed).map Buffer.label).Perm
    ((List.range f.pool.made).map fun n => (n, c.bufferSize.toNat))
  existing : f.pool.idle.length + f.borrowed.length ≤ 2 * c.maxConnections.toNat
  /-- a buffer that is given back finds room -/
  room : f.borrowed ≠ [] → f.pool.idle.length < f.pool.capacity
  memory : ((f.pool.idle ++ f.borrowed).map fun b => b.bytes.length).sum ≤
    2 * c.maxConnections.toNat * c.bufferSize.toNat

theorem Inv.memory (hi : Inv c returned f) :
    ((f.pool.idle ++ f.borrowed).map fun b => b.bytes.length).sum ≤ 2 * c.maxConnections.toNat * c.bufferSize.toNat := by
  have hsizes := hi.buffers.map Prod.snd
  rw [List.map_map, List.map_map] at hsizes
  have hsum : ((f.pool.idle ++ f.borrowed).map fun b => b.bytes.length).sum = f.pool.made * c.bufferSize.toNat := by
    refine hsizes.sum_eq.trans ?_
    simp [Function.comp_def]
  rw [hsum]
  exact Nat.mul_le_mul_right _ hi.made

theorem Inv.conserved (hi : Inv c returned f) : Conserved c returned f where
  live := by
    have hpermits := hi.permits
    omega
  active := ⟨hi.counted, hi.counted ▸ List.countP_le_length⟩
  permits := hi.permits
  once := hi.once
  leaves h hh hover := by
    have hf := hi.find?_of_mem hh
    obtain ⟨others, hperm, hkept, -⟩ := hi.exists_others hf
    obtain ⟨hhandlers, hloop⟩ := leaves hi hf hover
    have hbefore := hi.permits
    have hafter := (run_inv hi (leave h.id)).permits
    have hlength := hperm.length_eq
    rw [hhandlers, hkept.length_eq, ownPermit, hloop, ← ownPermit] at hafter
    rw [List.length_cons] at hlength
    refine ⟨hhandlers, by omega, ?_⟩
    rw [borrowed, borrowed, hhandlers, (hkept.flatMap_right _).length_eq, (hperm.flatMap_right _).length_eq,
      List.flatMap_cons, List.length_append, Handler.length_buffers (hi.loans h hh).1, Nat.add_comm]
  buffers := hi.buffers
  existing := hi.length_idle_add.trans_le hi.made
  room := hi.room
  memory := hi.memory

/-- **Slots and buffers are conserved**, whatever steps the loop and the handlers take and in whatever order: a connection is
accepted, fails to be accepted, is parsed, refused, copied, dropped or ends, and buffers and permits go back one by one. -/
theorem slots_conserved (c : Config) (canceled : Bool) (es : List FrontEvent) :
    Conserved c ((new c canceled).returns es) ((new c canceled).run es) :=
  (run_inv (inv_new c canceled) es).conserved

/-- one connection at a time, which is parsed and copied until its client has sent everything -/
example :
    let opening : List UInt8 := "CONNECT h:1 HTTP/1.1\r\n\r\n".toUTF8.toList
    let handled : List FrontEvent := [.begin, .session .read, .session (.dialed (.ok [7])), .session (.wrote 100), .borrow,
      .borrow, .session (.copyRead .down 1), .session (.copyWrite .down 1), .session (.copyEnd .down)].map (.handler 0)
    let f := (new { maxConnections := 1, bufferSize := 4 } false).run
      ([.look, .acquire, .look, .accept [opening]] ++ handled)
    f.permits = 0 ∧ f.borrowed.map (·.bytes) = [[0, 0, 0, 0], [7, 0, 0, 0]] ∧
      (f.run (leave 0)).permits = 1 ∧ (f.run (leave 0)).pool.idle.map (·.id) = [1, 0] := by decide +kernel

end Front

end Proxy

end EdgeTunnel
