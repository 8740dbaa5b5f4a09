/-
What a cache is after any records and clears.

A cache forgets nothing it needs: its state is a function of the records since it was cleared. Of each address it holds the
first record in time, and of the round trips the shortest of all records.

- `Cache.run_eq`: only the records since the last clear matter.
- `filter_entries`, `accepts_iff_first`: the entries are the first records in time, and a record is kept when it is one.
- `size_ofRecords`, `isShortest_ofRecords`: the number of entries and the best round trip.
- `perm_of_reordered`: records of different addresses may come in any order.
- `recording_meaning`: all of it over any sequence of records and clears.
-/
import EdgeTunnel.Proofs.Scan.Selection

namespace EdgeTunnel.Scan

/-! ## Records -/

/-- an answer, and the limit that it is recorded under -/
structure Record where
  answer : Answer
  limit : Span
  deriving DecidableEq

def Record.ip (r : Record) : Ip := r.answer.target.ip

/-- is this a record of this address within its limit? -/
def Record.isInTime (ip : Ip) (r : Record) : Bool := decide (r.ip = ip) && decide (r.answer.rtt ≤ r.limit)

/-- the first record of an address within its limit -/
def firstInTime (rs : List Record) (ip : Ip) : Option Record := rs.find? (·.isInTime ip)

/-- the addresses with a record within its limit, each once -/
def qualifiedIn (rs : List Record) : Finset Ip := ((rs.filter fun r => decide (r.answer.rtt ≤ r.limit)).map (·.ip)).toFinset

/-- is this the shortest round trip of some answers? There is none only if nothing has answered. -/
def IsShortest (as : List Answer) : Option Span → Prop
  | none => as = []
  | some best => (∃ a ∈ as, a.rtt = best) ∧ ∀ a ∈ as, best ≤ a.rtt

inductive CacheOp where
  | record (r : Record)
  | clear

/-- the records since the last clear -/
def sinceClear (ops : List CacheOp) : List Record :=
  ops.foldl (fun rs op => match op with
    | .record r => rs ++ [r]
    | .clear => []) []

namespace Cache

def apply (c : Cache) : CacheOp → Cache
  | .record r => (c.record r.limit r.answer).2
  | .clear => .empty

def run (c : Cache) (ops : List CacheOp) : Cache := ops.foldl apply c

def ofRecords (rs : List Record) : Cache := rs.foldl (fun c r => (c.record r.limit r.answer).2) .empty

theorem ofRecords_concat (rs : List Record) (r : Record) :
    ofRecords (rs ++ [r]) = ((ofRecords rs).record r.limit r.answer).2 := by
  simp only [ofRecords, List.foldl_append, List.foldl_cons, List.foldl_nil]

theorem sinceClear_concat_record (ops : List CacheOp) (r : Record) :
    sinceClear (ops ++ [.record r]) = sinceClear ops ++ [r] := by
  simp only [sinceClear, List.foldl_append, List.foldl_cons, List.foldl_nil]

/-- **Only the records since the last clear matter.** -/
theorem run_eq (ops : List CacheOp) : run .empty ops = ofRecords (sinceClear ops) := by
  induction ops using List.reverseRecOn with
  | nil => rfl
  | append_singleton ops op ih =>
    have hrun : run .empty (ops ++ [op]) = (run .empty ops).apply op := by
      simp only [run, List.foldl_append, List.foldl_cons, List.foldl_nil]
    rw [hrun, ih]
    cases op with
    | record r => rw [sinceClear_concat_record, ofRecords_concat]; rfl
    | clear => simp only [sinceClear, List.foldl_append, List.foldl_cons, List.foldl_nil]; rfl

/-! ## Entries -/

theorem firstInTime_concat (rs : List Record) (r : Record) (ip : Ip) :
    firstInTime (rs ++ [r]) ip = (firstInTime rs ip).or (if r.isInTime ip then some r else none) := by
  rw [firstInTime, firstInTime, List.find?_append, List.find?_singleton]

/-- a record is kept when it is in time and the first such of its address -/
theorem accepts_iff_first {rs : List Record}
    (hentries : ∀ ip, (ofRecords rs).entries.filter (fun a => decide (a.target.ip = ip)) =
      ((firstInTime rs ip).map (·.answer)).toList) (r : Record) :
    (ofRecords rs).accepts r.limit r.answer = true ↔ r.answer.rtt ≤ r.limit ∧ firstInTime rs r.ip = none := by
  have hnone : firstInTime rs r.ip = none ↔ ∀ a ∈ (ofRecords rs).entries, a.target.ip ≠ r.ip := by
    rw [← Option.map_eq_none_iff (f := (·.answer)), ← Option.toList_eq_nil_iff, ← hentries, List.filter_eq_nil_iff]
    simp only [decide_eq_true_eq, ne_eq]
  rw [accepts_iff, hnone]
  rfl

/-- **The entries** are the first records in time, one of each address that has any. -/
theorem filter_entries (rs : List Record) (ip : Ip) :
    (ofRecords rs).entries.filter (fun a => decide (a.target.ip = ip)) =
      ((firstInTime rs ip).map (·.answer)).toList := by
  induction rs using List.reverseRecOn generalizing ip with
  | nil => rfl
  | append_singleton rs r ih =>
    rw [ofRecords_concat, firstInTime_concat, record]
    by_cases hip : r.ip = ip
    · subst hip
      by_cases hk : (ofRecords rs).accepts r.limit r.answer = true
      · obtain ⟨hr, hfirst⟩ := (accepts_iff_first ih r).1 hk
        simp only [hk, if_true, List.filter_append, ih, hfirst]
        simp [Record.isInTime, Record.ip, hr]
      · -- a record that is not kept is too late, or not the first of its address
        have hold : (firstInTime rs r.ip).or (if r.isInTime r.ip then some r else none) = firstInTime rs r.ip := by
          cases hfirst : firstInTime rs r.ip with
          | some q => rfl
          | none =>
            have hr : ¬ r.answer.rtt ≤ r.limit := fun hr => hk ((accepts_iff_first ih r).2 ⟨hr, hfirst⟩)
            simp [Record.isInTime, hr]
        rw [hold, ← ih]
        simp only [hk, Bool.false_eq_true, if_false]
    · -- a record of another address changes nothing for this one
      have hother : r.isInTime ip = false := by simp [Record.isInTime, hip]
      have hentries : ((if (ofRecords rs).accepts r.limit r.answer then (ofRecords rs).entries ++ [r.answer]
          else (ofRecords rs).entries).filter fun a => decide (a.target.ip = ip)) =
            (ofRecords rs).entries.filter fun a => decide (a.target.ip = ip) := by
        split_ifs
        · rw [List.filter_append, List.filter_singleton]
          simp [show r.answer.target.ip ≠ ip from hip]
        · rfl
      simp only [hother, Bool.false_eq_true, if_false, Option.or_none, hentries, ih]

/-- **A record is kept** when its address had no record in time and this is now the first. -/
theorem record_iff_first (rs : List Record) (r : Record) :
    ((ofRecords rs).record r.limit r.answer).1 = true ↔
      firstInTime rs r.ip = none ∧ firstInTime (rs ++ [r]) r.ip = some r := by
  rw [show ((ofRecords rs).record r.limit r.answer).1 = (ofRecords rs).accepts r.limit r.answer from rfl,
    accepts_iff_first (filter_entries rs), and_comm]
  refine and_congr_right fun hfirst => ?_
  rw [firstInTime_concat, hfirst, Option.none_or]
  simp [Record.isInTime]

theorem mem_entries (rs : List Record) (a : Answer) :
    a ∈ (ofRecords rs).entries ↔ (firstInTime rs a.target.ip).map (·.answer) = some a := by
  rw [← Option.mem_toList, ← filter_entries, List.mem_filter]
  simp

/-- an address has at most one entry -/
theorem nodup_ips (rs : List Record) : ((ofRecords rs).entries.map (·.target.ip)).Nodup := by
  refine List.nodup_iff_count_le_one.2 fun ip => ?_
  have hcount : ((ofRecords rs).entries.map (·.target.ip)).count ip =
      ((ofRecords rs).entries.filter fun a => decide (a.target.ip = ip)).length := by
    rw [List.count, List.countP_map, List.countP_eq_length_filter]
    rfl
  rw [hcount, filter_entries]
  exact Option.length_toList_le

theorem mem_qualifiedIn {rs : List Record} {ip : Ip} : ip ∈ qualifiedIn rs ↔ ∃ r, firstInTime rs ip = some r := by
  rw [← Option.isSome_iff_exists, firstInTime, List.find?_isSome]
  simp only [qualifiedIn, List.mem_toFinset, List.mem_map, List.mem_filter, Record.isInTime, Bool.and_eq_true,
    decide_eq_true_eq]
  constructor
  · rintro ⟨r, ⟨hr, hlimit⟩, hip⟩
    exact ⟨r, hr, hip, hlimit⟩
  · rintro ⟨r, hr, hip, hlimit⟩
    exact ⟨r, ⟨hr, hlimit⟩, hip⟩

/-- the addresses with an entry are those with a record in time -/
theorem toFinset_ips (rs : List Record) : ((ofRecords rs).entries.map (·.target.ip)).toFinset = qualifiedIn rs := by
  ext ip
  rw [mem_qualifiedIn, List.mem_toFinset, List.mem_map]
  constructor
  · rintro ⟨a, ha, rfl⟩
    obtain ⟨r, hr, -⟩ := Option.map_eq_some_iff.1 ((mem_entries rs a).1 ha)
    exact ⟨r, hr⟩
  · rintro ⟨r, hr⟩
    have hip : r.answer.target.ip = ip := by
      have hfound := List.find?_some hr
      simp only [Record.isInTime, Bool.and_eq_true, decide_eq_true_eq] at hfound
      exact hfound.1
    exact ⟨r.answer, (mem_entries rs r.answer).2 (by rw [hip, hr]; rfl), hip⟩

/-- **The number of entries** is that of the addresses with a record in time. -/
theorem size_ofRecords (rs : List Record) : (ofRecords rs).size = (qualifiedIn rs).card := by
  rw [← toFinset_ips, List.toFinset_card_of_nodup (nodup_ips rs), List.length_map]
  rfl

/-! ## The best round trip -/

theorem isShortest_shorter {as : List Answer} {best : Option Span} (h : IsShortest as best) (a : Answer) :
    IsShortest (as ++ [a]) (shorter best a.rtt) := by
  cases best with
  | none =>
    obtain rfl : as = [] := h
    exact ⟨⟨a, List.mem_singleton_self a, rfl⟩, fun b hb => by rw [List.mem_singleton.1 hb]; exact Nat.le_refl _⟩
  | some best =>
    obtain ⟨⟨b, hmem, hrtt⟩, hleast⟩ := h
    simp only [shorter]
    split_ifs with hle
    · refine ⟨⟨b, List.mem_append_left _ hmem, hrtt⟩, fun d hd => ?_⟩
      rcases List.mem_append.1 hd with hd | hd
      · exact hleast d hd
      · rwa [List.mem_singleton.1 hd]
    · refine ⟨⟨a, List.mem_append_right _ (List.mem_singleton_self a), rfl⟩, fun d hd => ?_⟩
      rcases List.mem_append.1 hd with hd | hd
      · exact Nat.le_trans (Nat.le_of_not_le hle) (hleast d hd)
      · rw [List.mem_singleton.1 hd]
        exact Nat.le_refl _

/-- **The best round trip** is the shortest of all records, kept or not. -/
theorem isShortest_ofRecords (rs : List Record) : IsShortest (rs.map (·.answer)) (ofRecords rs).best := by
  induction rs using List.reverseRecOn with
  | nil => rfl
  | append_singleton rs r ih =>
    rw [ofRecords_concat, List.map_append, List.map_singleton]
    exact isShortest_shorter ih r.answer

/-- there is one shortest round trip, in whatever order the answers came -/
theorem IsShortest.unique {as bs : List Answer} (hperm : as.Perm bs) {x y : Option Span} (hx : IsShortest as x)
    (hy : IsShortest bs y) : x = y := by
  cases x with
  | none =>
    obtain rfl : as = [] := hx
    obtain rfl : bs = [] := hperm.nil_eq.symm
    cases y with
    | none => rfl
    | some y => obtain ⟨⟨b, hb, -⟩, -⟩ := hy; exact absurd hb List.not_mem_nil
  | some x =>
    obtain ⟨⟨a, ha, rfl⟩, hleast⟩ := hx
    cases y with
    | none =>
      obtain rfl : bs = [] := hy
      exact absurd (hperm.subset ha) List.not_mem_nil
    | some y =>
      obtain ⟨⟨b, hb, rfl⟩, hleast'⟩ := hy
      have hle : a.rtt.nanos ≤ b.rtt.nanos := hleast b (hperm.symm.subset hb)
      have hge : b.rtt.nanos ≤ a.rtt.nanos := hleast' a (hperm.subset ha)
      exact congrArg some (congrArg Span.mk (Nat.le_antisymm hle hge))

/-! ## Reordering -/

/-- of records of different addresses at most one is of this address -/
theorem firstInTime_perm {block block' : List Record} (hperm : block.Perm block')
    (hdistinct : block.Pairwise fun r q => r.ip ≠ q.ip) (ip : Ip) : firstInTime block ip = firstInTime block' ip := by
  have hone : ∀ rs : List Record, (rs.Pairwise fun r q => r.ip ≠ q.ip) →
      (rs.filter (·.isInTime ip)).Pairwise fun _ _ => False := by
    intro rs hrs
    refine (hrs.filter _).imp_of_mem fun hr hq hne => hne ?_
    have hr := (List.mem_filter.1 hr).2
    have hq := (List.mem_filter.1 hq).2
    simp only [Record.isInTime, Bool.and_eq_true, decide_eq_true_eq] at hr hq
    exact hr.1.trans hq.1.symm
  have heq : block.filter (·.isInTime ip) = block'.filter (·.isInTime ip) :=
    (hperm.filter _).eq_of_pairwise (fun _ _ _ _ h _ => h.elim) (hone block hdistinct)
      (hone block' (hdistinct.perm hperm fun h => h.symm))
  rw [firstInTime, firstInTime, ← List.head?_filter, ← List.head?_filter, heq]

theorem sinceClear_records (ops : List CacheOp) (rs : List Record) :
    sinceClear (ops ++ rs.map .record) = sinceClear ops ++ rs := by
  induction rs using List.reverseRecOn with
  | nil => simp
  | append_singleton rs r ih =>
    rw [List.map_append, List.map_singleton, ← List.append_assoc, sinceClear_concat_record, ih, List.append_assoc]

/-- what comes later adds to the records, or begins anew -/
theorem sinceClear_later (later : List CacheOp) :
    (∃ rs, ∀ ops, sinceClear (ops ++ later) = sinceClear ops ++ rs) ∨ ∃ rs, ∀ ops, sinceClear (ops ++ later) = rs := by
  induction later using List.reverseRecOn with
  | nil => exact .inl ⟨[], fun ops => by rw [List.append_nil, List.append_nil]⟩
  | append_singleton later op ih =>
    cases op with
    | clear =>
      refine .inr ⟨[], fun ops => ?_⟩
      simp only [sinceClear, List.foldl_append, List.foldl_cons, List.foldl_nil]
    | record r =>
      rcases ih with ⟨rs, hrs⟩ | ⟨rs, hrs⟩
      · exact .inl ⟨rs ++ [r], fun ops => by
          rw [← List.append_assoc, sinceClear_concat_record, hrs, List.append_assoc]⟩
      · exact .inr ⟨rs ++ [r], fun ops => by rw [← List.append_assoc, sinceClear_concat_record, hrs]⟩

theorem firstInTime_append (rs qs : List Record) (ip : Ip) :
    firstInTime (rs ++ qs) ip = (firstInTime rs ip).or (firstInTime qs ip) := List.find?_append

/-- the same first records in time, and the same records up to their order, make the same cache up to the order -/
theorem ofRecords_perm {rs qs : List Record} (hfirst : ∀ ip, firstInTime rs ip = firstInTime qs ip) (hperm : rs.Perm qs) :
    (ofRecords rs).entries.Perm (ofRecords qs).entries ∧ (ofRecords rs).best = (ofRecords qs).best := by
  constructor
  · refine (List.perm_ext_iff_of_nodup (nodup_ips rs).of_map (nodup_ips qs).of_map).2 fun a => ?_
    rw [mem_entries, mem_entries, hfirst]
  · exact IsShortest.unique (hperm.map _) (isShortest_ofRecords rs) (isShortest_ofRecords qs)

/-- **Records of different addresses** may come in any order. -/
theorem perm_of_reordered (before later : List CacheOp) {block block' : List Record} (hperm : block.Perm block')
    (hdistinct : block.Pairwise fun r q => r.ip ≠ q.ip) :
    let c := run .empty (before ++ block.map .record ++ later)
    let c' := run .empty (before ++ block'.map .record ++ later)
    c.entries.Perm c'.entries ∧ c.best = c'.best := by
  intro c c'
  simp only [c, c', run_eq]
  rcases sinceClear_later later with ⟨rs, hrs⟩ | ⟨rs, hrs⟩
  · rw [hrs, hrs, sinceClear_records, sinceClear_records]
    refine ofRecords_perm (fun ip => ?_) ((hperm.append_left _).append_right _)
    rw [firstInTime_append, firstInTime_append, firstInTime_append, firstInTime_append, firstInTime_perm hperm hdistinct]
  · rw [hrs, hrs]
    exact ⟨.refl _, rfl⟩

/-- **What a cache is after any records and clears.** Of the records since the last clear,
- the entries of an address are the first in time, if there is one, and nothing else;
- another record is kept exactly when it becomes that first;
- the size is the number of addresses with a record in time;
- the ranking is the entries by their round trips, and the best round trip is the shortest of all records.
And when a run of records of different addresses is reordered, the entries and the best round trip stay the same, whatever
was done before and is done later. -/
theorem recording_meaning :
    (∀ ops : List CacheOp,
      let c := run .empty ops
      let rs := sinceClear ops
      (∀ ip, c.entries.filter (fun a => decide (a.target.ip = ip)) = ((firstInTime rs ip).map (·.answer)).toList) ∧
      (∀ r, (c.record r.limit r.answer).1 = true ↔
        firstInTime rs r.ip = none ∧ firstInTime (sinceClear (ops ++ [.record r])) r.ip = some r) ∧
      c.size = (qualifiedIn rs).card ∧
      (c.ranked.Perm c.entries ∧ c.ranked.Pairwise fun a b => a.rtt ≤ b.rtt) ∧
      IsShortest (rs.map (·.answer)) c.best) ∧
    ∀ (before later : List CacheOp) (block block' : List Record), block.Perm block' →
      (block.Pairwise fun r q => r.ip ≠ q.ip) →
      let c := run .empty (before ++ block.map .record ++ later)
      let c' := run .empty (before ++ block'.map .record ++ later)
      c.entries.Perm c'.entries ∧ c.best = c'.best := by
  refine ⟨fun ops => ?_, fun before later block block' hperm hdistinct => perm_of_reordered before later hperm hdistinct⟩
  intro c rs
  have hc : c = ofRecords rs := run_eq ops
  refine ⟨?_, fun r => ?_, ?_, ⟨c.ranked_perm, c.ranked_sorted⟩, ?_⟩
  · rw [hc]
    exact filter_entries rs
  · rw [hc, sinceClear_concat_record]
    exact record_iff_first rs r
  · rw [hc, size_ofRecords]
  · rw [hc]
    exact isShortest_ofRecords rs

/-- a slow answer and a fast one, in either order, after a clear and before a second answer of the fast address -/
theorem recording_meaning_swapped :
    let ip (n : Fin 256) : Ip := .ofNat .v4 n.val
    let fast : Record := ⟨⟨.of (ip 1) 2408, ⟨40⟩⟩, ⟨100⟩⟩
    let slow : Record := ⟨⟨.of (ip 2) 2408, ⟨300⟩⟩, ⟨100⟩⟩
    let again : Record := ⟨⟨.of (ip 1) 500, ⟨10⟩⟩, ⟨100⟩⟩
    let before : List CacheOp := [.record again, .clear]
    let later : List CacheOp := [.record again]
    let c := run .empty (before ++ [fast, slow].map .record ++ later)
    let c' := run .empty (before ++ [slow, fast].map .record ++ later)
    [fast, slow].Perm [slow, fast] ∧ ([fast, slow].Pairwise fun r q => r.ip ≠ q.ip) ∧
      c.entries.Perm c'.entries ∧ c.best = c'.best ∧ c.entries = [fast.answer] ∧ c.best = some ⟨10⟩ := by
  intro ip fast slow again before later c c'
  have hperm : [fast, slow].Perm [slow, fast] := .swap _ _ _
  have hdistinct : [fast, slow].Pairwise fun r q => r.ip ≠ q.ip := by decide
  obtain ⟨hentries, hbest⟩ := recording_meaning.2 before later _ _ hperm hdistinct
  exact ⟨hperm, hdistinct, hentries, hbest, by decide, by decide⟩

end Cache

end EdgeTunnel.Scan
