/-
Digits that are written and read back.

- `valueOf_toDigits`: the digits of a number have its value, in every base up to sixteen.
- `takeWhile_append`: a reader that takes digits stops where the digits of a number end.
- `readDigits_toDigits`: so a number is read back from the front of a text.
- `readUnsigned_decimal`: and as a text of its own.
- `readUnsigned_eq_some_iff`: which texts are numbers, with leading zeros and a plus sign.
-/
import EdgeTunnel.Text.Decimal
import Mathlib.Data.Nat.Digits.Defs
import Mathlib.Tactic

namespace EdgeTunnel.Text

variable {base : Nat}

theorem digitValue?_digitChar {d : Nat} (hbase : base ≤ 16) (hd : d < base) :
    digitValue? base (Nat.digitChar d) = some d := by
  have hall : ∀ d < 16, digitValue? 16 (Nat.digitChar d) = some d := by decide
  have h16 := hall d (by omega)
  simp only [digitValue?, Option.ite_none_right_eq_some, Option.some.injEq] at h16 ⊢
  exact ⟨by omega, h16.2⟩

theorem isDigitOf_digitChar {d : Nat} (hbase : base ≤ 16) (hd : d < base) : isDigitOf base (Nat.digitChar d) = true := by
  rw [isDigitOf, digitValue?_digitChar hbase hd, Option.isSome_some]

theorem valueOf_append_singleton (ds : List Char) (c : Char) :
    valueOf base (ds ++ [c]) = valueOf base ds * base + (digitValue? base c).getD 0 := by
  rw [valueOf, List.foldl_append]
  rfl

/-- **The digits of a number have its value.** -/
theorem valueOf_toDigits (hone : 1 < base) (hbase : base ≤ 16) (n : Nat) : valueOf base (Nat.toDigits base n) = n := by
  induction n using Nat.strongRecOn with
  | ind n ih =>
    rw [Nat.toDigits_eq_if hone]
    split_ifs with hlt
    · rw [← List.nil_append [_], valueOf_append_singleton, digitValue?_digitChar hbase hlt]
      simp [valueOf]
    · have hmod : n % base < base := Nat.mod_lt _ (by omega)
      rw [valueOf_append_singleton, ih _ (Nat.div_lt_self (by omega) hone), digitValue?_digitChar hbase hmod,
        Option.getD_some, Nat.mul_comm, Nat.div_add_mod]

theorem isDigitOf_of_mem_toDigits (hone : 1 < base) (hbase : base ≤ 16) {n : Nat} :
    ∀ c ∈ Nat.toDigits base n, isDigitOf base c = true := by
  induction n using Nat.strongRecOn with
  | ind n ih =>
    intro c hc
    rw [Nat.toDigits_eq_if hone] at hc
    split_ifs at hc with hlt
    · rw [List.mem_singleton.1 hc]
      exact isDigitOf_digitChar hbase hlt
    · rcases List.mem_append.1 hc with hc | hc
      · exact ih _ (Nat.div_lt_self (by omega) hone) c hc
      · rw [List.mem_singleton.1 hc]
        exact isDigitOf_digitChar hbase (Nat.mod_lt _ (by omega))

theorem toDigits_ne_nil (hone : 1 < base) (n : Nat) : Nat.toDigits base n ≠ [] := by
  rw [Nat.toDigits_eq_if hone]
  split_ifs <;> simp

/-- the digits of a number do not start with a zero, unless it is zero -/
theorem head?_toDigits (hone : 1 < base) {n : Nat} (hn : n ≠ 0) : (Nat.toDigits base n).head? ≠ some '0' := by
  induction n using Nat.strongRecOn with
  | ind n ih =>
    rw [Nat.toDigits_eq_if hone]
    split_ifs with hlt
    · simpa using hn
    · have hdiv : n / base ≠ 0 := (Nat.div_pos (by omega) (by omega)).ne'
      have hhead := ih _ (Nat.div_lt_self (by omega) hone) hdiv
      rwa [List.head?_append_of_ne_nil _ (toDigits_ne_nil hone _)]

theorem toDigits_zero (hone : 1 < base) : Nat.toDigits base 0 = ['0'] := Nat.toDigits_of_lt_base (by omega)

/-! ## Decimal numbers -/

theorem isDigitOf_of_mem_decimal (n : Nat) : ∀ c ∈ decimal n, isDigitOf 10 c = true :=
  isDigitOf_of_mem_toDigits (by decide) (by decide)

theorem not_mem_decimal {c : Char} (hc : isDigitOf 10 c = false) (n : Nat) : c ∉ decimal n := fun hmem => by
  rw [isDigitOf_of_mem_decimal n c hmem] at hc
  cases hc

theorem exists_decimal_cons (n : Nat) : ∃ d ds, decimal n = d :: ds ∧ isDigitOf 10 d = true ∧ (n ≠ 0 → d ≠ '0') := by
  cases h : decimal n with
  | nil => exact absurd h (toDigits_ne_nil (by decide) n)
  | cons d ds =>
    refine ⟨d, ds, rfl, isDigitOf_of_mem_decimal n d (h ▸ List.mem_cons_self), fun hn hd => ?_⟩
    have hhead : (decimal n).head? ≠ some '0' := head?_toDigits (by decide) hn
    rw [h, hd] at hhead
    exact hhead rfl

theorem toList_repr (n : Nat) : (Nat.repr n).toList = decimal n := by
  rw [Nat.repr_eq_ofList_toDigits, String.toList_ofList, decimal]

/-- characters of which one only is of a kind -/
theorem ne_of_kind {p : Char → Bool} {c d : Char} (hc : p c = true) (hd : p d = false) : c ≠ d := by
  rintro rfl
  rw [hc] at hd
  cases hd

/-! ## Reading -/

/-- does a text not go on with a digit? -/
def EndsDigits (base : Nat) (rest : List Char) : Prop := ∀ c ∈ rest.head?, isDigitOf base c = false

theorem endsDigits_cons {c : Char} {rest : List Char} (h : isDigitOf base c = false) : EndsDigits base (c :: rest) := by
  rintro d hd
  rwa [← Option.some.inj hd]

theorem takeWhile_append {ds rest : List Char} {p : Char → Bool} (hds : ∀ c ∈ ds, p c = true)
    (hrest : ∀ c ∈ rest.head?, p c = false) : (ds ++ rest).takeWhile p = ds := by
  rw [List.takeWhile_append_of_pos hds]
  cases rest with
  | nil => simp
  | cons c rest => simp [hrest c rfl]

theorem EndsDigits.mono {base' : Nat} (hle : base ≤ base') {rest : List Char} (h : EndsDigits base' rest) :
    EndsDigits base rest := by
  intro c hc
  have hnone := h c hc
  simp only [isDigitOf, digitValue?, Option.isSome_eq_false_iff, Option.isNone_iff_eq_none, ite_eq_right_iff, reduceCtorEq,
    imp_false, not_lt] at hnone ⊢
  exact hle.trans hnone

theorem readDigits_eq_none {rule : DigitRule} {s : List Char} (h : EndsDigits rule.base s) : readDigits rule s = none := by
  have hnone : s.takeWhile (isDigitOf rule.base) = [] := by
    have htake : ([] ++ s).takeWhile (isDigitOf rule.base) = [] :=
      takeWhile_append (fun _ hc => absurd hc List.not_mem_nil) h
    rwa [List.nil_append] at htake
  simp [readDigits, hnone]

/-- **A number is read back** from the front of a text that does not go on with a digit. -/
theorem readDigits_toDigits (rule : DigitRule) (hone : 1 < rule.base) (hbase : rule.base ≤ 16) {n : Nat}
    (hmost : n ≤ rule.most) (hwidth : ∀ w ∈ rule.width, 0 < w ∧ n < rule.base ^ w) {rest : List Char}
    (hrest : EndsDigits rule.base rest) :
    readDigits rule (Nat.toDigits rule.base n ++ rest) = some (n, rest) := by
  have htake : (Nat.toDigits rule.base n ++ rest).takeWhile (isDigitOf rule.base) = Nat.toDigits rule.base n :=
    takeWhile_append (isDigitOf_of_mem_toDigits hone hbase) hrest
  have hfits : ∀ w ∈ rule.width, (Nat.toDigits rule.base n).length ≤ w := fun w hw =>
    (Nat.length_toDigits_le_iff hone (hwidth w hw).1).2 (hwidth w hw).2
  have hzero : (rule.leadingZero || (Nat.toDigits rule.base n).head? != some '0' ||
      decide ((Nat.toDigits rule.base n).length ≤ 1)) = true := by
    by_cases hn : n = 0
    · rw [hn, toDigits_zero hone]
      simp
    · simp [head?_toDigits hone hn]
  have hempty : (Nat.toDigits rule.base n).isEmpty = false := by simp [toDigits_ne_nil hone n]
  simp only [readDigits, htake, hzero, hempty, valueOf_toDigits hone hbase, List.drop_left]
  cases hw : rule.width with
  | none => simpa using hmost
  | some w => simpa [hfits w hw] using hmost

/-- what follows the number that is read -/
theorem readDigits_rest {rule : DigitRule} {s rest : List Char} {n : Nat} (h : readDigits rule s = some (n, rest)) :
    rest = s.dropWhile (isDigitOf rule.base) := by
  simp only [readDigits] at h
  split_ifs at h
  rw [← (Prod.mk.inj (Option.some.inj h)).2]
  calc s.drop (s.takeWhile (isDigitOf rule.base)).length
      = (s.takeWhile (isDigitOf rule.base) ++ s.dropWhile (isDigitOf rule.base)).drop
          (s.takeWhile (isDigitOf rule.base)).length := by rw [List.takeWhile_append_dropWhile]
    _ = s.dropWhile (isDigitOf rule.base) := List.drop_left

/-- **A number on its own is read back**, when it is not too large. -/
theorem readUnsigned_decimal {most n : Nat} (h : n ≤ most) : readUnsigned most (decimal n) = some n := by
  have hdigits : (decimal n).all (isDigitOf 10) = true := List.all_eq_true.mpr (isDigitOf_of_mem_decimal n)
  have hvalue : valueOf 10 (decimal n) = n := valueOf_toDigits (by decide) (by decide) n
  obtain ⟨d, ds, hcons, hd, -⟩ := exists_decimal_cons n
  have hplus : d ≠ '+' := ne_of_kind hd (by decide)
  have hempty : (decimal n).isEmpty = false := by rw [hcons]; rfl
  unfold readUnsigned
  split
  · rename_i heq
    rw [hcons] at heq
    exact absurd (List.cons.inj heq).1 hplus
  · simp only [hempty, hdigits, hvalue, Bool.not_true, Bool.or_false, Bool.false_eq_true, if_false, h, if_true]

/-! ## Numerals -/

/-- does a text write a number in decimal digits, most significant first? -/
def IsDecimal (s : List Char) (n : Nat) : Prop :=
  ∃ ds : List Nat, ds ≠ [] ∧ (∀ d ∈ ds, d < 10) ∧ s = ds.map Nat.digitChar ∧ Nat.ofDigits 10 ds.reverse = n

/-- does a text write a number in decimal digits, with or without a plus sign before them? -/
def IsNumeral (s : List Char) (n : Nat) : Prop := IsDecimal s n ∨ ∃ r, s = '+' :: r ∧ IsDecimal r n

theorem valueOf_digitChars {ds : List Nat} (h : ∀ d ∈ ds, d < 10) :
    valueOf 10 (ds.map Nat.digitChar) = Nat.ofDigits 10 ds.reverse := by
  induction ds using List.reverseRecOn with
  | nil => rfl
  | append_singleton ds d ih =>
    rw [List.forall_mem_append, List.forall_mem_singleton] at h
    rw [List.map_append, List.map_singleton, valueOf_append_singleton, ih h.1, digitValue?_digitChar (by decide) h.2,
      Option.getD_some, List.reverse_append, List.reverse_singleton, List.singleton_append, Nat.ofDigits_cons,
      Nat.add_comm, Nat.mul_comm]

theorem all_digitChars {ds : List Nat} (h : ∀ d ∈ ds, d < 10) : (ds.map Nat.digitChar).all (isDigitOf 10) = true := by
  rw [List.all_eq_true, List.forall_mem_map]
  exact fun d hd => isDigitOf_digitChar (by decide) (h d hd)

theorem exists_digitChar {c : Char} (h : isDigitOf 10 c = true) : ∃ d < 10, c = Nat.digitChar d := by
  have hrange : 48 ≤ c.toNat ∧ c.toNat ≤ 57 := by
    simp only [isDigitOf, digitValue?, Bool.and_eq_true, decide_eq_true_eq] at h
    split_ifs at h
    all_goals first
      | omega
      | cases h
  have hchars : ∀ d < 10, (Nat.digitChar d).toNat = 48 + d := by decide
  refine ⟨c.toNat - 48, by omega, Char.toNat_inj.1 ?_⟩
  rw [hchars _ (by omega)]
  omega

theorem exists_digitChars {s : List Char} (h : s.all (isDigitOf 10) = true) :
    ∃ ds : List Nat, (∀ d ∈ ds, d < 10) ∧ s = ds.map Nat.digitChar := by
  induction s with
  | nil => exact ⟨[], fun _ hd => absurd hd List.not_mem_nil, rfl⟩
  | cons c s ih =>
    rw [List.all_cons, Bool.and_eq_true] at h
    obtain ⟨d, hd, rfl⟩ := exists_digitChar h.1
    obtain ⟨ds, hds, rfl⟩ := ih h.2
    exact ⟨d :: ds, List.forall_mem_cons.2 ⟨hd, hds⟩, rfl⟩

/-- which texts are digits with a value up to a bound -/
theorem isDecimal_iff {most n : Nat} {s : List Char} :
    (n ≤ most ∧ IsDecimal s n) ↔
      (if s.isEmpty || !s.all (isDigitOf 10) then none
        else if valueOf 10 s ≤ most then some (valueOf 10 s) else none) = some n := by
  constructor
  · rintro ⟨hmost, ds, hne, hds, rfl, rfl⟩
    have hempty : (ds.map Nat.digitChar).isEmpty = false := by simp [hne]
    simp only [hempty, all_digitChars hds, valueOf_digitChars hds, Bool.not_true, Bool.or_false, Bool.false_eq_true, if_false,
      hmost, if_true]
  · intro h
    split_ifs at h with hbad hmost
    simp only [Bool.or_eq_true, Bool.not_eq_true', not_or, Bool.not_eq_false, Bool.not_eq_true] at hbad
    obtain ⟨ds, hds, rfl⟩ := exists_digitChars hbad.2
    rw [valueOf_digitChars hds] at h hmost
    obtain rfl := Option.some.inj h
    refine ⟨hmost, ds, ?_, hds, rfl, rfl⟩
    rintro rfl
    exact absurd hbad.1 (by decide)

theorem IsDecimal.head?_ne_plus {s : List Char} {n : Nat} (h : IsDecimal s n) : s.head? ≠ some '+' := by
  obtain ⟨ds, -, hds, rfl, -⟩ := h
  intro hplus
  have hdigit := List.all_eq_true.1 (all_digitChars hds) _ (List.mem_of_mem_head? hplus)
  exact absurd hdigit (by decide)

/-- **What is read as a number** up to a bound are the numerals that are not larger. -/
theorem readUnsigned_eq_some_iff {most n : Nat} {s : List Char} :
    readUnsigned most s = some n ↔ n ≤ most ∧ IsNumeral s n := by
  unfold readUnsigned IsNumeral
  split
  · rename_i r
    have hplus : ¬ IsDecimal ('+' :: r) n := fun h => h.head?_ne_plus rfl
    simp only [hplus, false_or, List.cons.injEq, true_and, exists_eq_left', isDecimal_iff]
  · rename_i hplus
    have hnone : ¬ ∃ r, s = '+' :: r ∧ IsDecimal r n := fun ⟨r, hr, _⟩ => hplus r hr
    simp only [hnone, or_false, isDecimal_iff]

end EdgeTunnel.Text
