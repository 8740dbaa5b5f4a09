/-
JSON strings and numbers that are read back from every text that spells them.

- `pieces_piece`, `pieces_pieces`, `string_spelled`: a string is read up to its closing quote, piece by piece.
- `fraction_spelled`, `exponent_spelled`, `number_spelled`: a number is read as far as it goes, and it ends where neither a
  digit nor the sign of a fraction or an exponent follows (`EndsNumber`).
- `spellsString_quoted`, `spells_numeral`: what is written is a spelling.
-/
import EdgeTunnel.Document.Json.Grammar
import EdgeTunnel.Document.Json.Writer
import EdgeTunnel.Proofs.Text.Digits

namespace EdgeTunnel.Json

open Text

/-! ## Strings -/

theorem pieces_letter {e c : Char} (h : (e, c) ∈ letters) (r : List Char) :
    pieces ('\\' :: e :: r) = (pieces r).map fun q => (.char c :: q.1, q.2) := by
  simp only [letters, List.mem_cons, Prod.mk.injEq, List.not_mem_nil, or_false] at h
  rcases h with ⟨rfl, rfl⟩ | ⟨rfl, rfl⟩ | ⟨rfl, rfl⟩ | ⟨rfl, rfl⟩ | ⟨rfl, rfl⟩ | ⟨rfl, rfl⟩ |
    ⟨rfl, rfl⟩ | ⟨rfl, rfl⟩
  all_goals rw [pieces]

/-- a piece is read from the front of a string -/
theorem pieces_piece {p : Piece} {t : List Char} (h : SpellsPiece p t) (r : List Char) :
    pieces (t ++ r) = (pieces r).map fun q => (p :: q.1, q.2) := by
  cases h with
  | plain low quote slash =>
    rw [List.singleton_append, pieces]
    · rw [if_neg (Nat.not_lt.2 low)]
    · exact quote
    · intro e r' hslash
      exact absurd hslash slash
  | letter known => exact pieces_letter known r
  | unit digits =>
    rename_i a b c d
    have hall : [a, b, c, d].all (isDigitOf 16) = true := List.all_eq_true.2 digits
    have hunit : unit? a b c d = some (valueOf 16 [a, b, c, d]) := if_pos hall
    simp only [List.cons_append, List.nil_append, pieces, hunit]

/-- **The pieces of a string are read up to its closing quote.** -/
theorem pieces_pieces {ps : List Piece} {t : List Char} (h : SpellsPieces ps t) (rest : List Char) :
    pieces (t ++ '"' :: rest) = .ok (ps, rest) := by
  induction h with
  | nil => rfl
  | cons first _ ih =>
    rw [List.append_assoc, pieces_piece first, ih]
    rfl

theorem string_spelled {s : Option String} {t : List Char} (h : SpellsString s t) (rest : List Char) :
    ∃ body, t ++ rest = '"' :: body ∧ string body = .ok (s, rest) := by
  obtain ⟨hpieces⟩ := h
  rename_i ps t
  have hbody : ('"' :: (t ++ ['"'])) ++ rest = '"' :: (t ++ '"' :: rest) := by simp
  refine ⟨t ++ '"' :: rest, hbody, ?_⟩
  rw [string, pieces_pieces hpieces]
  rfl

/-! ## Numbers -/

/-- does a text not go on with a digit or the sign of a fraction or an exponent? -/
def EndsNumber (rest : List Char) : Prop := EndsDigits 10 rest ∧ ∀ c ∈ rest.head?, c ≠ '.' ∧ c ≠ 'e' ∧ c ≠ 'E'

theorem endsNumber_cons {c : Char} {rest : List Char} (h : isDigitOf 10 c = false ∧ c ≠ '.' ∧ c ≠ 'e' ∧ c ≠ 'E') :
    EndsNumber (c :: rest) := by
  refine ⟨endsDigits_cons h.1, ?_⟩
  rintro d ⟨⟩
  exact h.2

theorem digits_append {ds : List Char} (h : Digits ds) {rest : List Char} (hrest : EndsDigits 10 rest) :
    digits (ds ++ rest) = .ok (ds, rest) := by
  have htake : (ds ++ rest).takeWhile (isDigitOf 10) = ds := takeWhile_append h.2 hrest
  have hsome : ds.isEmpty = false := by simp [h.1]
  simp only [digits, htake, hsome, Bool.false_eq_true, if_false, List.drop_left]

theorem digits_decimal (n : Nat) : Digits (decimal n) :=
  ⟨toDigits_ne_nil (by decide) n, isDigitOf_of_mem_decimal n⟩

theorem fraction_spelled {f : Bool} {t : List Char} (h : SpellsFraction f t) {rest : List Char}
    (hrest : EndsDigits 10 rest) (hdot : rest.head? ≠ some '.') : fraction (t ++ rest) = .ok (f, rest) := by
  cases h with
  | absent =>
    rw [List.nil_append, fraction]
    rintro r rfl
    exact hdot rfl
  | present hdigits =>
    rw [List.cons_append, fraction, digits_append hdigits hrest]
    rfl

/-- what follows a fraction -/
theorem ends_exponent {e : Bool} {t : List Char} (h : SpellsExponent e t) {rest : List Char} (hrest : EndsNumber rest) :
    EndsDigits 10 (t ++ rest) ∧ (t ++ rest).head? ≠ some '.' := by
  cases h with
  | absent => exact ⟨hrest.1, fun hdot => (hrest.2 _ hdot).1 rfl⟩
  | present marked _ _ =>
    rcases marked with rfl | rfl
    · exact ⟨endsDigits_cons (by decide), by simp⟩
    · exact ⟨endsDigits_cons (by decide), by simp⟩

theorem exponent_spelled {e : Bool} {t : List Char} (h : SpellsExponent e t) {rest : List Char}
    (hrest : EndsNumber rest) : exponent (t ++ rest) = .ok (e, rest) := by
  cases h with
  | absent =>
    cases rest with
    | nil => rfl
    | cons c rest =>
      obtain ⟨-, hlower, hupper⟩ := hrest.2 c rfl
      simp only [List.nil_append, exponent, hlower, hupper, or_self, if_false]
  | present marked signed hdigits =>
    rename_i mark sign ds
    have hread := digits_append hdigits hrest.1
    obtain ⟨d, ds, rfl⟩ := List.exists_cons_of_ne_nil hdigits.1
    have hdigit : isDigitOf 10 d = true := hdigits.2 d List.mem_cons_self
    have hplus : d ≠ '+' := ne_of_kind hdigit (by decide)
    have hminus : d ≠ '-' := ne_of_kind hdigit (by decide)
    rw [List.cons_append] at hread
    simp only [List.cons_append, List.append_assoc, exponent, if_pos marked]
    rcases signed with rfl | rfl | rfl
    · rw [List.nil_append]
      split
      · rename_i heq
        exact absurd (List.cons.inj heq).1 hplus
      · rename_i heq
        exact absurd (List.cons.inj heq).1 hminus
      · rw [hread]
        rfl
    · simp only [List.cons_append, List.nil_append, hread]
      rfl
    · simp only [List.cons_append, List.nil_append, hread]
      rfl

/-- **A number is read as far as it goes.** -/
theorem number_spelled {f e : Bool} {fractionText exponentText : List Char} (negative : Bool) (n : Nat)
    (hf : SpellsFraction f fractionText) (he : SpellsExponent e exponentText) {rest : List Char} (hrest : EndsNumber rest) :
    number negative (decimal n ++ (fractionText ++ (exponentText ++ rest))) =
      .ok (if f || e then .real else whole negative n, rest) := by
  obtain ⟨hends, hdot⟩ := ends_exponent he hrest
  have hdigits : EndsDigits 10 (fractionText ++ (exponentText ++ rest)) := by
    cases hf with
    | absent => exact hends
    | present _ => exact endsDigits_cons (by decide)
  have hzero : ¬ ((decimal n).head? = some '0' ∧ 1 < (decimal n).length) := by
    rintro ⟨hhead, hlength⟩
    have hn : n = 0 := by
      by_contra hn
      exact head?_toDigits (by decide) hn hhead
    rw [hn, decimal, toDigits_zero (by decide)] at hlength
    exact absurd hlength (by decide)
  have hvalue : valueOf 10 (decimal n) = n := valueOf_toDigits (by decide) (by decide) n
  rw [number, digits_append (digits_decimal n) hdigits]
  simp only [bind, Except.bind, if_neg hzero, fraction_spelled hf hends hdot, exponent_spelled he hrest, hvalue, pure,
    Except.pure]

/-! ## Written strings and numbers -/

theorem join_unit {n : Nat} (h : n < 0xD800) (ps : List Piece) :
    Piece.join (.unit n :: ps) = (Piece.join ps).map (Char.ofNat n :: ·) := by
  have hhigh : ¬ (0xD800 ≤ n ∧ n < 0xDC00) := by omega
  have hlow : ¬ (0xDC00 ≤ n ∧ n < 0xE000) := by omega
  have hboth : ¬ (0xD800 ≤ n ∧ n < 0xE000) := by omega
  cases ps with
  | nil => simp [Piece.join, hboth]
  | cons p ps =>
    cases p with
    | char c => simp [Piece.join, hboth]
    | unit m => simp [Piece.join, hhigh, hlow]

/-- the digits of a character that has no letter -/
theorem hexDigits_spec {n : Nat} (h : n < 0x20) :
    (∀ x ∈ ['0', '0', Nat.digitChar (n / 16), Nat.digitChar (n % 16)], isDigitOf 16 x = true) ∧
      valueOf 16 ['0', '0', Nat.digitChar (n / 16), Nat.digitChar (n % 16)] = n := by
  have hall : ∀ n < 0x20, ['0', '0', Nat.digitChar (n / 16), Nat.digitChar (n % 16)].all (isDigitOf 16) = true ∧
      valueOf 16 ['0', '0', Nat.digitChar (n / 16), Nat.digitChar (n % 16)] = n := by decide
  exact ⟨List.all_eq_true.mp (hall n h).1, (hall n h).2⟩

/-- **A character is written as it may be spelled**: alone, by its letter or by its number. -/
theorem spellsPiece_escaped (c : Char) :
    ∃ p, SpellsPiece p (escaped c) ∧ ∀ ps, Piece.join (p :: ps) = (Piece.join ps).map (c :: ·) := by
  unfold escaped
  split
  · exact ⟨_, .letter (by decide), fun _ => rfl⟩
  · exact ⟨_, .letter (by decide), fun _ => rfl⟩
  · exact ⟨_, .letter (by decide), fun _ => rfl⟩
  · exact ⟨_, .letter (by decide), fun _ => rfl⟩
  · exact ⟨_, .letter (by decide), fun _ => rfl⟩
  · exact ⟨_, .letter (by decide), fun _ => rfl⟩
  · exact ⟨_, .letter (by decide), fun _ => rfl⟩
  · rename_i hquote hslash _ _ _ _ _
    split_ifs with hlow
    · obtain ⟨hdigits, hvalue⟩ := hexDigits_spec hlow
      refine ⟨_, .unit hdigits, fun ps => ?_⟩
      rw [hvalue, join_unit (by omega), Char.ofNat_toNat]
    · exact ⟨.char c, .plain (Nat.le_of_not_lt hlow) hquote hslash, fun _ => rfl⟩

theorem spellsPieces_escaped (cs : List Char) :
    ∃ ps, SpellsPieces ps (cs.flatMap escaped) ∧ Piece.join ps = some cs := by
  induction cs with
  | nil => exact ⟨[], .nil, rfl⟩
  | cons c cs ih =>
    obtain ⟨ps, hps, hjoin⟩ := ih
    obtain ⟨p, hp, hcons⟩ := spellsPiece_escaped c
    exact ⟨p :: ps, .cons hp hps, by rw [hcons, hjoin, Option.map_some]⟩

/-- **A written string spells its text.** -/
theorem spellsString_quoted (s : String) : SpellsString (some s) (quoted s) := by
  obtain ⟨ps, hps, hjoin⟩ := spellsPieces_escaped s.toList
  have h := SpellsString.quoted hps
  rwa [hjoin, Option.map_some, String.ofList_toList] at h

/-- **A written number spells its value.** -/
theorem spells_numeral {n : Int} {t : List Char} (h : numeral n = some t) : Spells (.integer n) t := by
  cases n with
  | ofNat n =>
    simp only [numeral, Option.ite_none_right_eq_some, Option.some.injEq] at h
    obtain ⟨hn, rfl⟩ := h
    have hs := Spells.number false n .absent .absent
    have hvalue : whole false n = .integer n := by rw [whole]; simp [hn]
    simpa [hvalue] using hs
  | negSucc n =>
    simp only [numeral, Option.ite_none_right_eq_some, Option.some.injEq] at h
    obtain ⟨hn, rfl⟩ := h
    have hs := Spells.number true (n + 1) .absent .absent
    have hvalue : whole true (n + 1) = .integer (Int.negSucc n) := by
      have hlarge : ¬ (n + 1 = 0 ∨ 2 ^ 63 < n + 1) := by omega
      rw [whole, if_pos rfl, if_neg hlarge]
      rfl
    simpa [hvalue] using hs

end EdgeTunnel.Json
