/-
A pool accounts for its buffers.

A buffer that is around is idle or on loan. Whatever the handles of the pool and the holders of its buffers do, it is there once
and has its size (`Inv`, `step_inv`, `run_inv`), and each step does to it what it should and nothing else (`accounts_step`).
Two laws of whole histories follow.

- `queue_run`: the idle buffers are a queue, first in, first out.
- `contents_run`: a buffer has what all its holders wrote into it.
- `pool_accounting`: all of it, for a new pool and any steps.
-/
import EdgeTunnel.BufferPool.Account
import EdgeTunnel.Proofs.BufferPool.Buffers

namespace EdgeTunnel.BufferPool.Loans

/-! ## Loans by name -/

section
variable {held : List (String × Buffer)} {name other : String} {b : Buffer}

theorem lookup_cons_eq (k : String) (c : Buffer) (held : List (String × Buffer)) (other : String) :
    ((k, c) :: held).lookup other = if other = k then some c else held.lookup other := by
  by_cases h : other = k
  · rw [h, List.lookup_cons_self, if_pos rfl]
  · rw [List.lookup_cons, beq_false_of_ne h, if_neg h]

theorem lookup_filter (held : List (String × Buffer)) (name other : String) :
    (held.filter (·.1 != name)).lookup other = if other = name then none else held.lookup other := by
  induction held with
  | nil => simp
  | cons e held ih =>
    obtain ⟨k, c⟩ := e
    by_cases hk : k = name
    · rw [List.filter_cons_of_neg (by simpa using hk), ih, lookup_cons_eq, hk]
      split_ifs <;> rfl
    · rw [List.filter_cons_of_pos (by simpa using hk), lookup_cons_eq, lookup_cons_eq, ih]
      split_ifs with hother hname
      · exact absurd (hother.symm.trans hname) hk
      · rfl
      · rfl
      · rfl

theorem lookup_write (held : List (String × Buffer)) (name other : String) (offset : Nat) (data : List UInt8) :
    (held.map fun e => if e.1 = name then (e.1, e.2.write offset data) else e).lookup other =
      if other = name then (held.lookup other).map (·.write offset data) else held.lookup other := by
  induction held with
  | nil => simp
  | cons e held ih =>
    obtain ⟨k, c⟩ := e
    rw [List.map_cons]
    by_cases hk : k = name
    · rw [if_pos hk, lookup_cons_eq, lookup_cons_eq, ih, hk]
      split_ifs <;> rfl
    · rw [if_neg hk, lookup_cons_eq, lookup_cons_eq, ih]
      split_ifs with hother hname
      · exact absurd (hother.symm.trans hname) hk
      · rfl
      · rfl
      · rfl

theorem perm_of_lookup (hnames : (held.map Prod.fst).Nodup) (h : held.lookup name = some b) :
    held.Perm ((name, b) :: held.filter (·.1 != name)) := by
  induction held with
  | nil => cases h
  | cons e held ih =>
    obtain ⟨k, c⟩ := e
    obtain ⟨hk, hnames⟩ := List.nodup_cons.1 hnames
    rw [lookup_cons_eq] at h
    split_ifs at h with hname
    · obtain rfl := hname
      obtain rfl := Option.some.inj h
      have hall : ∀ e ∈ held, (e.1 != name) = true := by
        intro e he
        rw [bne_iff_ne]
        intro heq
        exact hk (List.mem_map.2 ⟨e, he, heq⟩)
      rw [List.filter_cons_of_neg (by simp), List.filter_eq_self.2 hall]
    · rw [List.filter_cons_of_pos (by simpa using Ne.symm hname)]
      exact ((ih hnames h).cons _).trans (.swap ..)

end

/-! ## A loan is returned -/

section
variable {l : Loans} {name : String}

/-- what is left of the loans -/
theorem held_drop (l : Loans) (name : String) : (l.drop name).held = l.held.filter (·.1 != name) := by
  unfold drop
  cases h : l.held? name with
  | none =>
    have hall : ∀ e ∈ l.held, (e.1 != name) = true := fun e he => by
      have hne := List.lookup_eq_none_iff.1 h e he
      rwa [bne_comm]
    exact (List.filter_eq_self.2 hall).symm
  | some b => rfl

theorem held?_drop (l : Loans) (name other : String) :
    (l.drop name).held? other = if other = name then none else l.held? other := by
  rw [held?, held_drop]
  exact lookup_filter l.held name other

/-- what joins the idle buffers -/
theorem idle_drop (l : Loans) (name : String) : (l.drop name).pool.idle =
    l.pool.idle ++ if l.pool.idle.length < l.pool.capacity then (l.held? name).toList else [] := by
  unfold drop
  cases h : l.held? name with
  | none => rw [Option.toList_none, ite_self, List.append_nil]
  | some b => exact put_idle l.pool b

/-- and what stays as it is -/
theorem frame_drop (l : Loans) (name : String) : (l.drop name).pool.capacity = l.pool.capacity ∧
    (l.drop name).pool.made = l.pool.made ∧ (l.drop name).sizes = l.sizes := by
  unfold drop
  cases h : l.held? name with
  | none => exact ⟨rfl, rfl, rfl⟩
  | some b => exact ⟨put_capacity l.pool b, put_made l.pool b, rfl⟩

/-- a buffer that is returned is idle or gone, and the others are where they were -/
theorem buffers_drop (hnames : (l.held.map Prod.fst).Nodup) (name : String) : (l.drop name).buffers.Subperm l.buffers := by
  rw [buffers, buffers, idle_drop, held_drop]
  cases h : l.held? name with
  | none =>
    rw [Option.toList_none, ite_self, List.append_nil]
    exact (List.Sublist.append (.refl _) (List.Sublist.map _ List.filter_sublist)).subperm
  | some b =>
    have hheld : (l.held.map Prod.snd).Perm (b :: (l.held.filter (·.1 != name)).map Prod.snd) :=
      (perm_of_lookup hnames h).map Prod.snd
    have hjoined : (if l.pool.idle.length < l.pool.capacity then (some b).toList else []).Sublist [b] := by
      split_ifs
      · exact .refl _
      · exact List.nil_sublist _
    rw [List.append_assoc]
    exact (List.Sublist.append (.refl l.pool.idle) (hjoined.append (.refl _))).subperm.trans
      (hheld.symm.append_left _).subperm
end

/-! ## A loan is taken -/

/-- the pool as it is when a buffer has left it -/
def leaving (l : Loans) (size : Nat) (rest : List Buffer) (made : Nat) : Loans :=
  { l with pool := { l.pool with size, idle := rest, made } }

/-- **A buffer is taken from the idle ones or made**, and then the loan under its name is returned. -/
theorem borrow_cases (l : Loans) (size : Nat) (name : String) : ∃ b rest made,
    (l.pool.idle = b :: rest ∧ made = l.pool.made ∨
      l.pool.idle = [] ∧ rest = [] ∧ made = l.pool.made + 1 ∧ b = ⟨l.pool.made, List.replicate size 0⟩) ∧
    l.borrow size name =
      { (l.leaving size rest made).drop name with held := (name, b) :: ((l.leaving size rest made).drop name).held } := by
  obtain ⟨b, rest, hidle, hget⟩ | ⟨hidle, hget⟩ := ({ l.pool with size } : BufferPool).get_eq
  · refine ⟨b, rest, l.pool.made, .inl ⟨hidle, rfl⟩, ?_⟩
    rw [borrow, hget]
    rfl
  · refine ⟨⟨l.pool.made, List.replicate size 0⟩, [], l.pool.made + 1, .inr ⟨hidle, rfl, rfl, rfl⟩, ?_⟩
    rw [borrow, hget, leaving]
    dsimp only at hidle ⊢
    rw [← hidle]

/-! ## Invariant -/

/-- every buffer has the size of the pool's and was made, and no two have the same number -/
structure Sound (size made : Nat) (bs : List Buffer) : Prop where
  size : ∀ b ∈ bs, b.bytes.length = size
  made : ∀ b ∈ bs, b.id < made
  nodup : (bs.map Buffer.id).Nodup

namespace Sound

variable {size made made' : Nat} {as bs : List Buffer}

theorem subperm (h : Sound size made bs) (hsub : as.Subperm bs) : Sound size made as where
  size b hb := h.size b (hsub.subset hb)
  made b hb := h.made b (hsub.subset hb)
  nodup := by
    obtain ⟨cs, hperm, hsublist⟩ := hsub
    exact (hperm.map Buffer.id).nodup_iff.1 ((hsublist.map Buffer.id).nodup h.nodup)

/-- only the numbers and the sizes of the buffers matter -/
theorem congr (h : Sound size made bs) (hlabel : as.map Buffer.label = bs.map Buffer.label) : Sound size made as := by
  have hids : as.map Buffer.id = bs.map Buffer.id := by
    have hfst := congrArg (List.map Prod.fst) hlabel
    rwa [List.map_map, List.map_map] at hfst
  have hmem : ∀ a ∈ as, ∃ b ∈ bs, a.label = b.label := fun a ha => by
    have hin := List.mem_map_of_mem (f := Buffer.label) ha
    rw [hlabel] at hin
    obtain ⟨b, hb, heq⟩ := List.mem_map.1 hin
    exact ⟨b, hb, heq.symm⟩
  refine ⟨fun a ha => ?_, fun a ha => ?_, hids ▸ h.nodup⟩
  · obtain ⟨b, hb, heq⟩ := hmem a ha
    exact (congrArg Prod.snd heq).trans (h.size b hb)
  · obtain ⟨b, hb, heq⟩ := hmem a ha
    have hid : a.id = b.id := congrArg Prod.fst heq
    exact hid ▸ h.made b hb

/-- a new buffer has a number of its own -/
theorem cons (h : Sound size made bs) : Sound size (made + 1) (⟨made, List.replicate size 0⟩ :: bs) where
  size := List.forall_mem_cons.2 ⟨List.length_replicate, h.size⟩
  made := List.forall_mem_cons.2 ⟨Nat.lt_succ_self made, fun b hb => Nat.lt_succ_of_lt (h.made b hb)⟩
  nodup := by
    rw [List.map_cons, List.nodup_cons]
    refine ⟨fun hmem => ?_, h.nodup⟩
    obtain ⟨b, hb, hid⟩ := List.mem_map.1 hmem
    exact absurd (h.made b hb) (by rw [hid]; exact Nat.lt_irrefl made)

end Sound

/-- the invariant of a pool with room for `most` idle buffers of one size -/
structure Inv (most size : Nat) (l : Loans) : Prop where
  pos : 0 < most
  capacity : l.pool.capacity = most
  sizes : ∀ s ∈ l.sizes, s = size
  room : l.pool.idle.length ≤ most
  sound : Sound size l.pool.made l.buffers
  names : (l.held.map Prod.fst).Nodup

section
variable {most size : Nat} {l : Loans}

theorem inv_new (capacity size : Nat) : Inv (max capacity 1) size (new (.new capacity size)) where
  pos := Nat.lt_of_lt_of_le Nat.one_pos (Nat.le_max_right capacity 1)
  capacity := rfl
  sizes := by simp [new, BufferPool.new]
  room := Nat.zero_le _
  sound := ⟨List.forall_mem_nil _, List.forall_mem_nil _, List.nodup_nil⟩
  names := List.nodup_nil

theorem inv_drop (hi : Inv most size l) (name : String) : Inv most size (l.drop name) := by
  obtain ⟨hcapacity, hmade, hsizes⟩ := l.frame_drop name
  have hsound := hi.sound.subperm (buffers_drop hi.names name)
  refine ⟨hi.pos, hcapacity.trans hi.capacity, hsizes ▸ hi.sizes, ?_, hmade ▸ hsound, ?_⟩
  · have hone : (l.held? name).toList.length ≤ 1 := by cases l.held? name <;> simp
    have hroom := hi.room
    rw [idle_drop, List.length_append, hi.capacity]
    split_ifs with hlt
    · omega
    · simpa using hroom
  · rw [held_drop]
    exact (List.filter_sublist.map _).nodup hi.names

/-- what is left when a buffer is taken, with and without that buffer -/
theorem inv_leaving (hi : Inv most size l) {b : Buffer} {rest : List Buffer} {made : Nat}
    (h : l.pool.idle = b :: rest ∧ made = l.pool.made ∨
      l.pool.idle = [] ∧ rest = [] ∧ made = l.pool.made + 1 ∧ b = ⟨l.pool.made, List.replicate size 0⟩) :
    Inv most size (l.leaving size rest made) ∧ Sound size made (b :: (l.leaving size rest made).buffers) ∧
      rest.length < most := by
  have hroom := hi.room
  have hsound : Sound size made (b :: (l.leaving size rest made).buffers) ∧ rest.length < most := by
    obtain ⟨hidle, rfl⟩ | ⟨hidle, rfl, rfl, rfl⟩ := h
    · have hbuffers : b :: (l.leaving size rest l.pool.made).buffers = l.buffers := by rw [buffers, buffers, hidle]; rfl
      rw [hidle, List.length_cons] at hroom
      exact ⟨hbuffers ▸ hi.sound, hroom⟩
    · have hbuffers : (l.leaving size [] (l.pool.made + 1)).buffers = l.buffers := by rw [buffers, buffers, hidle]; rfl
      exact ⟨hbuffers ▸ hi.sound.cons, hi.pos⟩
  have hleft := hsound.1.subperm (List.sublist_cons_self b _).subperm
  exact ⟨⟨hi.pos, hi.capacity, hi.sizes, hsound.2.le, hleft, hi.names⟩, hsound⟩

/-- a buffer that is held after the one before it was returned is around together with those that were -/
theorem buffers_held (hnames : (l.held.map Prod.fst).Nodup) (name : String) (b : Buffer) :
    { l.drop name with held := (name, b) :: (l.drop name).held }.buffers.Subperm (b :: l.buffers) :=
  List.perm_middle.subperm.trans ((List.subperm_cons b).2 (buffers_drop hnames name))

theorem inv_borrow (hi : Inv most size l) (name : String) : Inv most size (l.borrow size name) := by
  obtain ⟨b, rest, made, htaken, heq⟩ := l.borrow_cases size name
  obtain ⟨hleft, hsound, -⟩ := inv_leaving hi htaken
  have hdropped := inv_drop hleft name
  have hmade : ((l.leaving size rest made).drop name).pool.made = made := (frame_drop _ name).2.1
  rw [heq]
  refine ⟨hi.pos, hdropped.capacity, hdropped.sizes, hdropped.room, ?_, ?_⟩
  · rw [hmade]
    exact hsound.subperm (buffers_held hleft.names name b)
  · rw [List.map_cons, List.nodup_cons]
    refine ⟨fun hmem => ?_, hdropped.names⟩
    obtain ⟨e, he, hname⟩ := List.mem_map.1 hmem
    rw [held_drop] at he
    simpa [hname] using (List.mem_filter.1 he).2

theorem inv_write (hi : Inv most size l) (name : String) (offset : Nat) (data : List UInt8) :
    Inv most size (l.step (.write name offset data)) := by
  have hlabel : (l.step (.write name offset data)).buffers.map Buffer.label = l.buffers.map Buffer.label := by
    simp only [buffers, step, List.map_append, List.map_map]
    congr 1
    refine List.map_congr_left fun e _ => ?_
    simp only [Function.comp_apply]
    split_ifs
    · exact Buffer.label_write ..
    · rfl
  have hnames : (l.step (.write name offset data)).held.map Prod.fst = l.held.map Prod.fst := by
    simp only [step, List.map_map]
    refine List.map_congr_left fun e _ => ?_
    simp only [Function.comp_apply]
    split_ifs <;> rfl
  exact ⟨hi.pos, hi.capacity, hi.sizes, hi.room, hi.sound.congr hlabel, hnames ▸ hi.names⟩

/-- a loan through any handle is one of the pool's size -/
theorem step_get (hi : Inv most size l) (name : String) (handle : Nat) :
    l.step (.get name handle) = if handle < l.sizes.length then l.borrow size name else l := by
  rw [step]
  split_ifs with hhandle
  · rw [List.getElem?_eq_getElem hhandle, hi.sizes _ (List.getElem_mem hhandle)]
  · rw [List.getElem?_eq_none (Nat.not_lt.1 hhandle)]

theorem step_inv (hi : Inv most size l) (op : LoanOp) : Inv most size (l.step op) := by
  cases op with
  | clone handle =>
    rw [step]
    split
    · exact hi
    · next s hs =>
      refine ⟨hi.pos, hi.capacity, ?_, hi.room, hi.sound, hi.names⟩
      intro t ht
      rcases List.mem_append.1 ht with ht | ht
      · exact hi.sizes t ht
      · rw [List.mem_singleton.1 ht]
        exact hi.sizes s (List.mem_of_getElem? hs)
  | get name handle =>
    rw [step_get hi]
    split_ifs
    · exact inv_borrow hi name
    · exact hi
  | write name offset data => exact inv_write hi name offset data
  | drop name => exact inv_drop hi name

theorem run_inv (hi : Inv most size l) (ops : List LoanOp) : Inv most size (l.run ops) := by
  induction ops generalizing l with
  | nil => exact hi
  | cons op ops ih => exact ih (step_inv hi op)

/-! ## Steps -/

/-- **What a loan does**: a buffer is taken or made, what was held under its name goes to the end of the queue, and the other
loans stay. -/
theorem accounts_borrow (hi : Inv most size l) (name : String) : ∃ b rest, l.Lends size b rest ∧
    (l.borrow size name).held? name = some b ∧
    (∀ other ≠ name, (l.borrow size name).held? other = l.held? other) ∧
    (l.borrow size name).pool.idle = rest ++ (l.held? name).toList := by
  obtain ⟨b, rest, made, htaken, heq⟩ := l.borrow_cases size name
  obtain ⟨hleft, -, hroom⟩ := inv_leaving hi htaken
  refine ⟨b, rest, ?_, ?_, fun other hother => ?_, ?_⟩
  · obtain ⟨hidle, -⟩ | ⟨hidle, hrest, -, rfl⟩ := htaken
    · exact .inl hidle
    · exact .inr ⟨hidle, hrest, rfl, fun c hc => (hi.sound.made c hc).ne⟩
  · rw [heq, held?]
    exact (lookup_cons_eq ..).trans (if_pos rfl)
  · rw [heq, held?]
    refine (lookup_cons_eq ..).trans ?_
    rw [if_neg hother, ← held?, held?_drop, if_neg hother]
    rfl
  · have hlt : (l.leaving size rest made).pool.idle.length < (l.leaving size rest made).pool.capacity :=
      hleft.capacity ▸ hroom
    rw [heq]
    dsimp only
    rw [idle_drop, if_pos hlt]
    rfl

theorem accounts_step (hi : Inv most size l) (op : LoanOp) : Accounts most size l (l.step op) op := by
  cases op with
  | clone handle =>
    simp only [Accounts, step]
    split
    next hnone => exact ⟨by rw [hnone, Option.toList_none, List.append_nil], rfl, fun _ => rfl⟩
    next size hsize => exact ⟨by rw [hsize, Option.toList_some], rfl, fun _ => rfl⟩
  | get name handle =>
    rw [step_get hi, Accounts]
    split_ifs
    · exact accounts_borrow hi name
    · rfl
  | write name offset data =>
    refine ⟨rfl, ?_, fun other hother => ?_⟩
    · exact (lookup_write ..).trans (if_pos rfl)
    · exact (lookup_write ..).trans (if_neg hother)
  | drop name =>
    refine ⟨?_, fun other hother => ?_, ?_⟩
    · exact (held?_drop ..).trans (if_pos rfl)
    · exact (held?_drop ..).trans (if_neg hother)
    · rw [step, idle_drop, hi.capacity]

/-! ## Histories -/

theorem run_concat (l : Loans) (ops : List LoanOp) (op : LoanOp) : l.run (ops ++ [op]) = (l.run ops).step op := by
  rw [run, List.foldl_append]
  rfl

theorem log_concat {α : Type} (note : Loans → LoanOp → List α) (l : Loans) (ops : List LoanOp) (op : LoanOp) :
    l.log note (ops ++ [op]) = l.log note ops ++ note (l.run ops) op := by
  induction ops generalizing l with
  | nil => exact List.append_nil _
  | cons o ops ih =>
    rw [List.cons_append, log, ih, log, List.append_assoc]
    rfl

/-- **The idle buffers are a queue**: what is taken was idle longest, and what is returned comes last. -/
theorem queue_step (hi : Inv most size l) (op : LoanOp) :
    l.pool.idle ++ l.joined op = l.taken op ++ (l.step op).pool.idle := by
  have haccounts := accounts_step hi op
  cases op with
  | clone handle => rw [joined, taken, List.append_nil, haccounts.2.1, List.nil_append]
  | get name handle =>
    simp only [Accounts] at haccounts
    rw [joined, taken]
    split_ifs at haccounts ⊢ with hhandle
    · obtain ⟨b, rest, hlends, -, -, hidle⟩ := haccounts
      rw [hidle]
      obtain hfirst | ⟨hnone, rfl, -⟩ := hlends
      · rw [hfirst]
        rfl
      · rw [hnone]
        rfl
    · rw [haccounts, List.append_nil, List.nil_append]
  | write name offset data => rw [joined, taken, List.append_nil, haccounts.1, List.nil_append]
  | drop name => rw [joined, taken, haccounts.2.2, hi.capacity, List.nil_append]

theorem queue_run (hi : Inv most size l) (ops : List LoanOp) :
    l.pool.idle ++ l.log joined ops = l.log taken ops ++ (l.run ops).pool.idle := by
  induction ops using List.reverseRecOn with
  | nil => exact List.append_nil _
  | append_singleton ops op ih =>
    rw [log_concat, log_concat, run_concat, ← List.append_assoc, ih, List.append_assoc, List.append_assoc,
      queue_step (run_inv hi ops)]

/-! ## Contents -/

theorem mem_of_held? {name : String} {b : Buffer} (h : l.held? name = some b) : (name, b) ∈ l.held := by
  obtain ⟨before, after, heq, -⟩ := List.lookup_eq_some_iff.1 h
  rw [heq]
  simp

/-- no two buffers have the same number, whether idle or on loan -/
theorem Inv.ids_nodup (hi : Inv most size l) : (l.pool.idle.map Buffer.id ++ l.held.map fun e => e.2.id).Nodup := by
  have hnodup := hi.sound.nodup
  rwa [buffers, List.map_append, List.map_map] at hnodup

/-- a write goes into the buffer held under its name, and no other loan has that number -/
theorem written_held (hi : Inv most size l) {e : String × Buffer} (he : e ∈ l.held) (name : String) (offset : Nat)
    (data : List UInt8) :
    l.written e.2.id (.write name offset data) = if e.1 = name then [(offset, data)] else [] := by
  have hids : (l.held.map fun e => e.2.id).Nodup := (List.nodup_append.1 hi.ids_nodup).2.1
  rw [written]
  cases h : l.held? name with
  | none =>
    have hne : e.1 ≠ name := fun heq => by simpa [heq] using List.lookup_eq_none_iff.1 h e he
    rw [if_neg hne]
    rfl
  | some c =>
    have hc := mem_of_held? h
    have hiff : c.id = e.2.id ↔ e.1 = name := by
      constructor
      · intro hid
        rw [← List.inj_on_of_nodup_map hids hc he hid]
      · intro hname
        rw [← List.inj_on_of_nodup_map hi.names hc he hname.symm]
    simp only [Option.any_some, decide_eq_true_eq, hiff]

/-- and no idle buffer has it either -/
theorem written_idle (hi : Inv most size l) {b : Buffer} (hb : b ∈ l.pool.idle) (name : String) (offset : Nat)
    (data : List UInt8) : l.written b.id (.write name offset data) = [] := by
  rw [written]
  cases h : l.held? name with
  | none => rfl
  | some c =>
    have hne : c.id ≠ b.id := fun heq =>
      (List.nodup_append.1 hi.ids_nodup).2.2 _ (List.mem_map_of_mem hb) _ (List.mem_map_of_mem (mem_of_held? h)) heq.symm
    simp [hne]

/-- nothing is written into a buffer that is not made yet -/
theorem written_of_made_le (hi : Inv most size l) {id : Nat} (h : l.pool.made ≤ id) (op : LoanOp) : l.written id op = [] := by
  cases op with
  | clone handle => rfl
  | get name handle => rfl
  | drop name => rfl
  | write name offset data =>
    rw [written]
    cases hname : l.held? name with
    | none => rfl
    | some c =>
      have hmem : c ∈ l.buffers := List.mem_append_right _ (List.mem_map_of_mem (mem_of_held? hname))
      have hne : c.id ≠ id := (Nat.lt_of_lt_of_le (hi.sound.made c hmem) h).ne
      simp [hne]

theorem buffers_write (hi : Inv most size l) (name : String) (offset : Nat) (data : List UInt8) :
    (l.step (.write name offset data)).buffers =
      l.buffers.map fun b => b.writes (l.written b.id (.write name offset data)) := by
  simp only [buffers, step, List.map_append, List.map_map]
  congr 1
  · rw [List.map_congr_left fun b hb => by rw [written_idle hi hb]]
    exact (List.map_id _).symm
  · refine List.map_congr_left fun e he => ?_
    simp only [Function.comp_apply, written_held hi he]
    split_ifs <;> rfl

theorem made_le_step (hi : Inv most size l) (op : LoanOp) : l.pool.made ≤ (l.step op).pool.made := by
  cases op with
  | clone handle =>
    rw [step]
    split <;> exact Nat.le_refl _
  | get name handle =>
    rw [step_get hi]
    split_ifs
    · obtain ⟨b, rest, made, htaken, heq⟩ := l.borrow_cases size name
      rw [heq]
      dsimp only
      rw [(frame_drop _ name).2.1, leaving]
      obtain ⟨-, rfl⟩ | ⟨-, -, rfl, -⟩ := htaken
      · exact Nat.le_refl _
      · exact Nat.le_succ _
    · exact Nat.le_refl _
  | write name offset data => exact Nat.le_refl _
  | drop name => exact (l.frame_drop name).2.1.ge

theorem mem_buffers_borrow (hi : Inv most size l) {name : String} {b : Buffer} (hb : b ∈ (l.borrow size name).buffers) :
    b ∈ l.buffers ∨ b = ⟨l.pool.made, List.replicate size 0⟩ := by
  obtain ⟨c, rest, made, htaken, heq⟩ := l.borrow_cases size name
  obtain ⟨hleft, -, -⟩ := inv_leaving hi htaken
  rw [heq] at hb
  have hmem := (buffers_held hleft.names name c).subset hb
  obtain ⟨hidle, rfl⟩ | ⟨hidle, rfl, rfl, rfl⟩ := htaken
  · left
    rw [buffers, hidle]
    exact hmem
  · rw [buffers, hidle]
    exact (List.mem_cons.1 hmem).symm

/-- **Only writes change what is in a buffer**: one that is around after a step was around before it, with what the step
writes into it, or it is new and has zeros. -/
theorem contents_step (hi : Inv most size l) (op : LoanOp) {b : Buffer} (hb : b ∈ (l.step op).buffers) :
    (∃ a ∈ l.buffers, b = a.writes (l.written a.id op)) ∨
      b = ⟨l.pool.made, List.replicate size 0⟩ ∧ l.written b.id op = [] := by
  cases op with
  | clone handle =>
    refine .inl ⟨b, ?_, rfl⟩
    rw [step] at hb
    split at hb <;> exact hb
  | get name handle =>
    rw [step_get hi] at hb
    split_ifs at hb
    · obtain hold | hnew := mem_buffers_borrow hi hb
      · exact .inl ⟨b, hold, rfl⟩
      · exact .inr ⟨hnew, rfl⟩
    · exact .inl ⟨b, hb, rfl⟩
  | write name offset data =>
    rw [buffers_write hi] at hb
    obtain ⟨a, ha, rfl⟩ := List.mem_map.1 hb
    exact .inl ⟨a, ha, rfl⟩
  | drop name => exact .inl ⟨b, (buffers_drop hi.names name).subset hb, rfl⟩

theorem id_writes (b : Buffer) (ws : List (Nat × List UInt8)) : (b.writes ws).id = b.id := by
  induction ws generalizing b with
  | nil => rfl
  | cons w ws ih => exact ih _

theorem writes_append (b : Buffer) (ws vs : List (Nat × List UInt8)) : b.writes (ws ++ vs) = (b.writes ws).writes vs :=
  List.foldl_append

/-- **A buffer has what was written into it**, whoever held it, over the zeros it was made with. -/
theorem contents_run (capacity size : Nat) (ops : List LoanOp) :
    (∀ b ∈ ((new (.new capacity size)).run ops).buffers,
      b = (⟨b.id, List.replicate size 0⟩ : Buffer).writes ((new (.new capacity size)).log (written b.id) ops)) ∧
    ∀ id, ((new (.new capacity size)).run ops).pool.made ≤ id → (new (.new capacity size)).log (written id) ops = [] := by
  induction ops using List.reverseRecOn with
  | nil => exact ⟨List.forall_mem_nil _, fun _ _ => rfl⟩
  | append_singleton ops op ih =>
    obtain ⟨hcontents, hlater⟩ := ih
    have hi := run_inv (inv_new capacity size) ops
    rw [run_concat]
    constructor
    · intro b hb
      rw [log_concat, writes_append]
      obtain ⟨a, ha, rfl⟩ | ⟨hb, hnone⟩ := contents_step hi op hb
      · rw [id_writes, ← hcontents a ha]
      · have hid : b.id = ((new (.new capacity size)).run ops).pool.made := congrArg Buffer.id hb
        rw [hnone, hlater _ hid.ge, hb]
        rfl
    · intro id hid
      have hmade := (made_le_step hi op).trans hid
      rw [log_concat, hlater id hmade, written_of_made_le hi hmade, List.append_nil]

/-- **A pool accounts for its buffers**, after any steps of its handles and of the holders of its buffers.
- Every buffer that is around has the size of the pool's, as every handle has, and none is idle and on loan or there twice;
  there are never more idle buffers than there is room for.
- First in, first out: the buffers that joined the idle ones are those that were taken from them and then those that are idle.
- A buffer has what all its holders wrote into it, over zeros.
- And the next step: a loan gets the buffer that has been idle longest, or a new one of zeros when none is idle; a return puts
  the buffer at the end of the idle ones, or nowhere when there is no room; a write changes the buffer it goes to and nothing
  else, and only loans and returns change the idle ones. -/
theorem pool_accounting (capacity size : Nat) (ops : List LoanOp) :
    let start := new (.new capacity size)
    let l := start.run ops
    (∀ s ∈ l.sizes, s = size) ∧ (∀ b ∈ l.buffers, b.bytes.length = size) ∧
    (l.buffers.map Buffer.id).Nodup ∧ (l.held.map Prod.fst).Nodup ∧ l.pool.idle.length ≤ max capacity 1 ∧
    start.log joined ops = start.log taken ops ++ l.pool.idle ∧
    (∀ b ∈ l.buffers, b = (⟨b.id, List.replicate size 0⟩ : Buffer).writes (start.log (written b.id) ops)) ∧
    ∀ op, Accounts (max capacity 1) size l (l.step op) op := by
  intro start l
  have hstart : Inv (max capacity 1) size start := inv_new capacity size
  have hi : Inv (max capacity 1) size l := run_inv hstart ops
  exact ⟨hi.sizes, hi.sound.size, hi.sound.nodup, hi.names, hi.room, queue_run hstart ops, (contents_run capacity size ops).1,
    fun op => accounts_step hi op⟩

/-- two holders, one of them by a clone, and room for one of their buffers: the first to be returned is lent again -/
theorem pool_accounting_two_holders :
    let ops : List LoanOp := [.clone 0, .get "a", .get "b" 1, .write "a" 1 [7], .write "b" 0 [8], .drop "a", .drop "b",
      .get "c" 1, .get "d"]
    let start := new (.new 0 2)
    let l := start.run ops
    let b : Buffer := ⟨0, [0, 7]⟩
    l.held? "c" = some b ∧ l.held? "d" = some ⟨2, [0, 0]⟩ ∧ start.log taken ops = [b] ∧ start.log joined ops = [b] ∧
      2 ∈ l.sizes ∧ b ∈ l.buffers ∧ b.bytes.length = 2 ∧
      b = (⟨0, List.replicate 2 0⟩ : Buffer).writes [(1, [7])] := by
  intro ops start l b
  obtain ⟨-, hlength, -, -, -, hqueue, hcontents, -⟩ := pool_accounting 0 2 ops
  have hsize : 2 ∈ l.sizes := by decide
  have hmem : b ∈ l.buffers := by decide
  have htaken : start.log taken ops = [b] := by decide
  have hwritten : start.log (written 0) ops = [(1, [7])] := by decide
  have hc : l.held? "c" = some b := by decide
  have hd : l.held? "d" = some ⟨2, [0, 0]⟩ := by decide
  refine ⟨hc, hd, htaken, ?_, hsize, hmem, hlength b hmem, ?_⟩
  · rw [hqueue, htaken]
    rfl
  · rw [← hwritten]
    exact hcontents b hmem

end

end EdgeTunnel.BufferPool.Loans
