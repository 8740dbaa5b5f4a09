/-
Labels are in the order of their times.

Byte strings of one length are in the order of their numbers (`lt_iff_number_lt`). The number of a label is its nanoseconds and
2^32 times its seconds (`number_timestamp`), so labels compare as their times do, those before the epoch as the epoch
(`timestamp_lt_iff`).

- `timestamps_in_order`: labels are in the order of their times and hold them, and no sum overflows.
-/
import EdgeTunnel.Handshake.SystemTime
import EdgeTunnel.Proofs.Crypto.Sealing

namespace EdgeTunnel

/-! ## Byte strings in order -/

namespace Crypto

theorem natOfBytes_append (as bs : List UInt8) :
    natOfBytes (as ++ bs) = natOfBytes as + 256 ^ as.length * natOfBytes bs := by
  induction as with
  | nil => simp [natOfBytes]
  | cons a as ih =>
    rw [List.cons_append, natOfBytes, ih, natOfBytes, List.length_cons, Nat.pow_succ]
    ring

/-- numbers with a last digit are in the order of their other digits, then of the last one -/
theorem digits_lt_iff {b m n x y : Nat} (hm : m < b) (hn : n < b) :
    m + b * x < n + b * y ↔ x < y ∨ x = y ∧ m < n := by
  rcases Nat.lt_trichotomy x y with hlt | rfl | hgt
  · have hstep : b * x + b ≤ b * y := by
      calc b * x + b = b * (x + 1) := by ring
        _ ≤ b * y := Nat.mul_le_mul_left b hlt
    exact iff_of_true (by omega) (.inl hlt)
  · omega
  · have hstep : b * y + b ≤ b * x := by
      calc b * y + b = b * (y + 1) := by ring
        _ ≤ b * x := Nat.mul_le_mul_left b hgt
    exact iff_of_false (by omega) (by omega)

/-- **Byte strings of one length are in the order of their numbers**, read highest byte first. -/
theorem lt_iff_number_lt {as bs : List UInt8} (h : as.length = bs.length) :
    as < bs ↔ natOfBytes as.reverse < natOfBytes bs.reverse := by
  induction as generalizing bs with
  | nil =>
    rw [List.eq_nil_of_length_eq_zero h.symm]
    exact iff_of_false (List.lt_irrefl _) (Nat.lt_irrefl _)
  | cons a as ih =>
    cases bs with
    | nil => cases h
    | cons b bs =>
      have hlength : as.length = bs.length := Nat.succ.inj h
      have ha := natOfBytes_lt as.reverse
      have hb := natOfBytes_lt bs.reverse
      rw [List.length_reverse] at ha hb
      rw [← hlength] at hb
      have hnumber : ∀ c, natOfBytes [c] = c.toNat := fun c => by simp [natOfBytes]
      rw [List.cons_lt_cons_iff, ih hlength, List.reverse_cons, List.reverse_cons, natOfBytes_append, natOfBytes_append,
        List.length_reverse, List.length_reverse, ← hlength, hnumber, hnumber, digits_lt_iff ha hb, UInt8.lt_iff_toNat_lt,
        UInt8.toNat_inj]

end Crypto

namespace Handshake

open Crypto

/-! ## Labels of moments -/

section
variable {s t : Moment}

/-- the seconds of a label fit into eight bytes -/
theorem seconds_lt (h : t.nanos < 2 ^ 63 * 1000000000) : epochLabel + t.nanos.toNat / 1000000000 < 2 ^ 64 := by
  rw [epochLabel]
  omega

/-- **A label holds its moment**: the seconds in the first eight bytes, the nanoseconds in the last four. -/
theorem parts_timestamp (h : t.nanos < 2 ^ 63 * 1000000000) :
    natOfBytes ((timestamp t).take 8).reverse = epochLabel + t.nanos.toNat / 1000000000 ∧
      natOfBytes ((timestamp t).drop 8).reverse = t.nanos.toNat % 1000000000 := by
  have hnanos : t.nanos.toNat % 1000000000 < 256 ^ 4 := by omega
  rw [timestamp, List.take_left' (length_bigEndian 8 _), List.drop_left' (length_bigEndian 8 _),
    natOfBytes_bigEndian 8 _ (seconds_lt h), natOfBytes_bigEndian 4 _ hnanos]
  exact ⟨rfl, rfl⟩

/-- **The number of a label** has the nanoseconds in its lowest four bytes and the seconds above them. -/
theorem number_timestamp (h : t.nanos < 2 ^ 63 * 1000000000) : natOfBytes (timestamp t).reverse =
    t.nanos.toNat % 1000000000 + 256 ^ 4 * (epochLabel + t.nanos.toNat / 1000000000) := by
  have hdrop : ((timestamp t).drop 8).reverse.length = 4 := by
    rw [List.length_reverse, List.length_drop, length_timestamp]
  obtain ⟨hseconds, hnanos⟩ := parts_timestamp h
  rw [← List.take_append_drop 8 (timestamp t), List.reverse_append, natOfBytes_append, hdrop, hnanos, hseconds]

/-- **Labels compare as their moments do**, those before the epoch as the epoch. -/
theorem timestamp_lt_iff (hs : s.nanos < 2 ^ 63 * 1000000000) (ht : t.nanos < 2 ^ 63 * 1000000000) :
    timestamp s < timestamp t ↔ s.nanos.toNat < t.nanos.toNat := by
  have hlength : (timestamp s).length = (timestamp t).length := by rw [length_timestamp, length_timestamp]
  rw [lt_iff_number_lt hlength, number_timestamp hs, number_timestamp ht]
  omega

/-- a moment that is not after the epoch has the label of the epoch -/
theorem timestamp_of_nonpos (h : t.nanos ≤ 0) : timestamp t = timestamp ⟨0⟩ := by
  rw [timestamp, timestamp, Int.toNat_of_nonpos h]
  rfl

end

/-! ## Labels of times -/

namespace SystemTime

variable {s t : SystemTime}

theorem lt_iff : s < t ↔ s.moment.nanos < t.moment.nanos := by
  have hs := s.nanos.isLt
  have ht := t.nanos.isLt
  change s.seconds < t.seconds ∨ s.seconds = t.seconds ∧ s.nanos < t.nanos ↔ _
  rw [Int64.lt_iff_toInt_lt, ← Int64.toInt_inj, Fin.lt_def, moment, moment, Moment.of, Moment.of]
  dsimp only
  omega

theorem eq_iff : s = t ↔ s.moment.nanos = t.moment.nanos := by
  have hs := s.nanos.isLt
  have ht := t.nanos.isLt
  obtain ⟨seconds, nanos⟩ := s
  obtain ⟨seconds', nanos'⟩ := t
  rw [mk.injEq, ← Int64.toInt_inj, Fin.ext_iff, moment, moment, Moment.of, Moment.of]
  dsimp only at hs ht ⊢
  omega

/-- **Times are in the order of their moments.** -/
theorem le_iff : s ≤ t ↔ s.moment.nanos ≤ t.moment.nanos := by
  change s < t ∨ s = t ↔ _
  rw [lt_iff, eq_iff, Int.le_iff_lt_or_eq]

theorem moment_lt (t : SystemTime) : t.moment.nanos < 2 ^ 63 * 1000000000 := by
  have hseconds := t.seconds.toInt_lt
  have hnanos := t.nanos.isLt
  rw [moment, Moment.of]
  dsimp only
  omega

theorem nanos_epoch : epoch.moment.nanos = 0 := rfl

/-- what a time not before the epoch holds has passed since the epoch -/
theorem toNat_moment (h : epoch ≤ t) : 0 ≤ t.seconds.toInt ∧
    t.moment.nanos.toNat / 1000000000 = t.seconds.toInt.toNat ∧ t.moment.nanos.toNat % 1000000000 = t.nanos := by
  have hnanos := t.nanos.isLt
  rw [le_iff, nanos_epoch, moment, Moment.of] at h
  rw [moment, Moment.of]
  dsimp only at h ⊢
  omega

/-- the words since the epoch are the moment's seconds and nanoseconds -/
theorem toNat_sinceEpoch (t : SystemTime) : t.sinceEpoch.1.toNat = t.moment.nanos.toNat / 1000000000 ∧
    t.sinceEpoch.2.toNat = t.moment.nanos.toNat % 1000000000 := by
  by_cases h : t < epoch
  · have hneg : t.moment.nanos.toNat = 0 := Int.toNat_of_nonpos (lt_iff.1 h).le
    rw [sinceEpoch, if_pos h, hneg]
    exact ⟨rfl, rfl⟩
  · have hle : epoch ≤ t := by rwa [le_iff, ← Int.not_lt, ← lt_iff]
    obtain ⟨hnonneg, hseconds, hnanos⟩ := toNat_moment hle
    rw [sinceEpoch, if_neg h, hseconds, hnanos]
    refine ⟨?_, UInt32.toNat_ofNat_of_lt' (t.nanos.isLt.trans (by decide))⟩
    rw [Int64.toNat_toUInt64_of_le (Int64.le_iff_toInt_le.2 hnonneg), Int64.toNat_toInt]

/-- **The sum fits into a word** whatever the time. -/
theorem sum_lt (t : SystemTime) : epochLabel + t.sinceEpoch.1.toNat < 2 ^ 64 := by
  rw [t.toNat_sinceEpoch.1]
  exact seconds_lt t.moment_lt

/-- so the label in words is the label -/
theorem label?_eq (t : SystemTime) : t.label? = some (timestamp t.moment) := by
  obtain ⟨sum, hsum⟩ := Word.exists_toNat_iff.2 t.sum_lt
  have hadd : t.labelSeconds? = some sum := Word.add?_eq_some_iff.2 hsum
  obtain ⟨hseconds, hnanos⟩ := t.toNat_sinceEpoch
  rw [label?, hadd, Option.map_some, ← hsum, hseconds, hnanos, timestamp]

end SystemTime

/-- **Labels are in the order of their times.**
- A time that is not later has a label that is not greater, as byte strings; from the epoch on, an earlier time has a label
  that is less.
- From the epoch on, the first eight bytes are the label of the epoch and the seconds, the last four are the nanoseconds.
- A time before the epoch has the label of the epoch.
- The sum of the seconds fits into a word whatever the time, so the label in words is this one. -/
theorem timestamps_in_order (s t : SystemTime) :
    (s ≤ t → timestamp s.moment ≤ timestamp t.moment) ∧
    (SystemTime.epoch ≤ s → s < t → timestamp s.moment < timestamp t.moment) ∧
    (SystemTime.epoch ≤ t →
      natOfBytes ((timestamp t.moment).take 8).reverse = epochLabel + t.seconds.toInt.toNat ∧
      natOfBytes ((timestamp t.moment).drop 8).reverse = t.nanos) ∧
    (t < SystemTime.epoch → timestamp t.moment = timestamp SystemTime.epoch.moment) ∧
    epochLabel + t.sinceEpoch.1.toNat < 2 ^ 64 ∧ t.label? = some (timestamp t.moment) := by
  have hs := s.moment_lt
  have ht := t.moment_lt
  refine ⟨fun hle => ?_, fun hepoch hlt => ?_, fun hepoch => ?_, fun hlt => ?_, t.sum_lt, t.label?_eq⟩
  · rw [SystemTime.le_iff] at hle
    rw [← List.not_lt, timestamp_lt_iff ht hs]
    omega
  · rw [SystemTime.le_iff, SystemTime.nanos_epoch] at hepoch
    rw [SystemTime.lt_iff] at hlt
    rw [timestamp_lt_iff hs ht]
    omega
  · obtain ⟨-, hseconds, hnanos⟩ := SystemTime.toNat_moment hepoch
    rw [← hseconds, ← hnanos]
    exact parts_timestamp ht
  · rw [SystemTime.lt_iff, SystemTime.nanos_epoch] at hlt
    rw [timestamp_of_nonpos hlt.le, timestamp_of_nonpos SystemTime.nanos_epoch.le]

/-- the labels of a second and of the nanosecond before it, and of a time a second before the epoch -/
theorem timestamps_in_order_at_second :
    let before : SystemTime := ⟨-1, 5⟩
    let s : SystemTime := ⟨0, 999999999⟩
    let t : SystemTime := ⟨1, 0⟩
    (SystemTime.epoch ≤ s ∧ s ≤ t ∧ s < t ∧ SystemTime.epoch ≤ t ∧ before < SystemTime.epoch) ∧
      timestamp s.moment ≤ timestamp t.moment ∧ timestamp s.moment < timestamp t.moment ∧
      natOfBytes ((timestamp t.moment).take 8).reverse = epochLabel + 1 ∧
      natOfBytes ((timestamp t.moment).drop 8).reverse = 0 ∧
      timestamp before.moment = timestamp SystemTime.epoch.moment := by
  intro before s t
  have hs : SystemTime.epoch ≤ s := .inl (by decide)
  have hlt : s < t := by decide
  have ht : SystemTime.epoch ≤ t := .inl (by decide)
  have hbefore : before < SystemTime.epoch := by decide
  obtain ⟨hle, hstrict, hparts, -⟩ := timestamps_in_order s t
  exact ⟨⟨hs, .inl hlt, hlt, ht, hbefore⟩, hle (.inl hlt), hstrict hs hlt, (hparts ht).1, (hparts ht).2,
    (timestamps_in_order s before).2.2.2.1 hbefore⟩

end Handshake

end EdgeTunnel
