/-
TOML values that are written and read back.

What follows a value in a written document is a line ending, a comma or a closing bracket (`EndsAtom`), and none of these
goes on with a number, a moment or a text.

- `numeric_decimal`, `numeric_minus`: whole numbers are read back, and not taken for dates or times.
- `value_atom`: so are truth values and texts.
- `elements_lines`: so are lists with a line for each item.
- `value_line`: so is every value that stands on a key's line.
-/
import EdgeTunnel.Document.Toml.Reader
import EdgeTunnel.Proofs.Document.TomlText
import EdgeTunnel.Proofs.Text.Digits

namespace EdgeTunnel.Toml

open Text

/-! ## What follows a value -/

/-- does a text go on with a line ending, a comma or a closing bracket? -/
def EndsAtom (rest : List Char) : Prop := ∃ c r, rest = c :: r ∧ (c = '\n' ∨ c = ',' ∨ c = ']')

theorem EndsAtom.endsText {rest : List Char} (h : EndsAtom rest) : EndsText rest := by
  obtain ⟨c, r, rfl, rfl | rfl | rfl⟩ := h <;> exact ⟨by simp, by simp⟩

theorem EndsAtom.endsDigits {rest : List Char} (h : EndsAtom rest) : EndsDigits 10 rest := by
  obtain ⟨c, r, rfl, rfl | rfl | rfl⟩ := h <;> exact endsDigits_cons (by decide)

/-! ## Numbers -/

theorem spacedDigits_append {ds : List Char} (hne : ds ≠ []) (hds : ∀ c ∈ ds, isDigitOf 10 c = true) {rest : List Char}
    (hrest : EndsAtom rest) : spacedDigits 10 (ds ++ rest) = some (ds, rest) := by
  induction ds with
  | nil => exact absurd rfl hne
  | cons c ds ih =>
    have hc := hds c List.mem_cons_self
    cases ds with
    | nil =>
      obtain ⟨d, r, rfl, hd⟩ := hrest
      have hend : isDigitOf 10 d = false := EndsAtom.endsDigits ⟨d, r, rfl, hd⟩ d rfl
      have hunderscore : d ≠ '_' := by
        rintro rfl
        revert hd
        decide
      rw [List.singleton_append, spacedDigits.eq_def]
      simp only [hc, if_true]
      split <;> simp_all
    | cons d ds =>
      have hd := hds d (by simp)
      have hunderscore : d ≠ '_' := by
        rintro rfl
        exact absurd hd (by decide)
      have hnext := ih (by simp) fun x hx => hds x (List.mem_cons_of_mem _ hx)
      rw [List.cons_append] at hnext
      rw [List.cons_append, List.cons_append, spacedDigits.eq_def]
      simp only [hc, if_true]
      split <;> simp_all

theorem wholeDigits_decimal (n : Nat) {rest : List Char} (hrest : EndsAtom rest) :
    wholeDigits (decimal n ++ rest) = some (decimal n, rest) := by
  by_cases hn : n = 0
  · rw [hn, decimal, toDigits_zero (by decide)]
    rfl
  · have hspaced := spacedDigits_append (toDigits_ne_nil (by decide) n) (isDigitOf_of_mem_decimal n) hrest
    obtain ⟨d, ds, hd, -, hzero⟩ := exists_decimal_cons n
    rw [← decimal, hd] at hspaced
    rw [hd, List.cons_append, wholeDigits]
    · exact hspaced
    · rintro r ⟨⟩
      exact hzero hn rfl

theorem decimalNumber_decimal (minus : Bool) (n : Nat) {rest : List Char} (hrest : EndsAtom rest) :
    decimalNumber minus (decimal n ++ rest) =
      if minus then (if n ≤ 2 ^ 63 then some (.integer (-(n : Int)), rest) else none)
      else if n < 2 ^ 63 then some (.integer n, rest) else none := by
  have hwhole := wholeDigits_decimal n hrest
  have hvalue : valueOf 10 (decimal n) = n := valueOf_toDigits (by decide) (by decide) n
  obtain ⟨c, r, rfl, hc⟩ := hrest
  have hfraction : fraction (c :: r) = some (false, [], c :: r) := by
    rcases hc with rfl | rfl | rfl <;> rfl
  have hexponent : exponent (c :: r) = some (false, 0, c :: r) := by
    rcases hc with rfl | rfl | rfl <;> rfl
  simp only [decimalNumber, hwhole, hfraction, hexponent, hvalue, bind, Option.bind, Bool.or_self, Bool.false_eq_true,
    if_false, pure]

theorem dropWhile_decimal (n : Nat) {rest : List Char} (hrest : EndsAtom rest) :
    (decimal n ++ rest).dropWhile (isDigitOf 10) = rest := by
  have hend := hrest.endsDigits
  obtain ⟨c, r, rfl, -⟩ := hrest
  rw [List.dropWhile_append_of_pos (isDigitOf_of_mem_decimal n)]
  exact List.dropWhile_cons_of_neg (by simpa using hend c rfl)

/-- a number is not the year of a date -/
theorem year?_decimal (n : Nat) {rest : List Char} (hrest : EndsAtom rest) : year? (decimal n ++ rest) = none := by
  have hdrop := dropWhile_decimal n hrest
  obtain ⟨c, r, rfl, hc⟩ := hrest
  rw [year?.eq_def]
  split
  · rename_i a b d e r' heq
    split_ifs with hall
    · simp only [List.all_cons, List.all_nil, Bool.and_true, Bool.and_eq_true] at hall
      obtain ⟨ha, hb, hd, he⟩ := hall
      rw [heq] at hdrop
      simp only [List.dropWhile_cons, ha, hb, hd, he, if_true] at hdrop
      have hdash : c = '-' := (List.cons.inj hdrop).1.symm
      revert hc
      rw [hdash]
      decide
    · rfl
  · rfl

/-- nor are they the hours of a time -/
theorem hours_decimal (n : Nat) {rest : List Char} (hrest : EndsAtom rest) : hours (decimal n ++ rest) = none := by
  have hdrop := dropWhile_decimal n hrest
  obtain ⟨c, r, rfl, hc⟩ := hrest
  simp only [hours, bind]
  rw [Option.bind_eq_none_iff]
  rintro ⟨k, s⟩ hpair
  rw [pair.eq_def] at hpair
  split at hpair
  · rename_i a b r' heq
    split_ifs at hpair with hall
    rw [Bool.and_eq_true] at hall
    dsimp only at hpair
    split_ifs at hpair
    obtain rfl : r' = s := (Prod.mk.inj (Option.some.inj hpair)).2
    rw [heq] at hdrop
    simp only [List.dropWhile_cons, hall.1, hall.2, if_true] at hdrop
    cases r' with
    | nil => rfl
    | cons d r' =>
      by_cases hd : ':' = d
      · subst hd
        have hcolon : c = ':' := (List.cons.inj hdrop).1.symm
        subst hcolon
        simp at hc
      · simp [expect, hd]
  · cases hpair

theorem number_decimal {n : Nat} (hn : n < 2 ^ 63) {rest : List Char} (hrest : EndsAtom rest) :
    number (decimal n ++ rest) = some (.integer n, rest) := by
  have hread := decimalNumber_decimal false n hrest
  rw [if_neg (by decide), if_pos hn] at hread
  obtain ⟨d, ds, hd, hdigit, hzero⟩ := exists_decimal_cons n
  by_cases hn0 : n = 0
  · obtain ⟨c, r, rfl, hc⟩ := hrest
    subst hn0
    rcases hc with rfl | rfl | rfl <;> exact hread
  · have hne : d ≠ '0' := hzero hn0
    have hsign : sign (d :: (ds ++ rest)) = (false, d :: (ds ++ rest)) := by
      have hplus : d ≠ '+' := ne_of_kind hdigit (by decide)
      have hminus : d ≠ '-' := ne_of_kind hdigit (by decide)
      rw [sign.eq_def]
      split <;> simp_all
    have hi : d ≠ 'i' := ne_of_kind hdigit (by decide)
    have hn : d ≠ 'n' := ne_of_kind hdigit (by decide)
    rw [hd, List.cons_append] at hread ⊢
    rw [number.eq_def]
    split
    · simp_all
    · simp_all
    · simp_all
    · rw [hsign]
      dsimp only
      split <;> simp_all

theorem number_minus {n : Nat} (hn : n ≤ 2 ^ 63) {rest : List Char} (hrest : EndsAtom rest) :
    number ('-' :: (decimal n ++ rest)) = some (.integer (-(n : Int)), rest) := by
  have hread := decimalNumber_decimal true n hrest
  rw [if_pos rfl, if_pos hn] at hread
  obtain ⟨d, ds, hd, hdigit, -⟩ := exists_decimal_cons n
  have hi : d ≠ 'i' := ne_of_kind hdigit (by decide)
  have hn : d ≠ 'n' := ne_of_kind hdigit (by decide)
  rw [hd, List.cons_append] at hread ⊢
  rw [number.eq_def]
  simp only [sign]
  split <;> simp_all

/-- **Whole numbers are read back**, and not taken for dates or times. -/
theorem numeric_decimal {n : Nat} (hn : n < 2 ^ 63) {rest : List Char} (hrest : EndsAtom rest) :
    numeric (decimal n ++ rest) = some (.integer n, rest) := by
  simp only [numeric, year?_decimal n hrest, hours_decimal n hrest]
  exact number_decimal hn hrest

theorem numeric_minus {n : Nat} (hn : n ≤ 2 ^ 63) {rest : List Char} (hrest : EndsAtom rest) :
    numeric ('-' :: (decimal n ++ rest)) = some (.integer (-(n : Int)), rest) := by
  have hyear : year? ('-' :: (decimal n ++ rest)) = none := by
    rw [year?.eq_def]
    split
    · rename_i heq
      rw [if_neg]
      rw [← (List.cons.inj heq).1]
      simp [isDigitOf, digitValue?]
    · rfl
  have hhours : hours ('-' :: (decimal n ++ rest)) = none := by
    obtain ⟨d, ds, hd, -⟩ := exists_decimal_cons n
    simp [hours, hd, pair, isDigitOf, digitValue?]
  simp only [numeric, hyear, hhours]
  exact number_minus hn hrest

/-! ## Atoms -/

theorem toList_toString_nat (n : Nat) : (toString (n : Int)).toList = decimal n := toList_repr n

theorem toList_toString_negSucc (n : Nat) : (toString (Int.negSucc n)).toList = '-' :: decimal (n + 1) := by
  have h : toString (Int.negSucc n) = "-" ++ Nat.repr (n + 1) := rfl
  rw [h, String.toList_append, toList_repr]
  rfl

theorem exists_textValue_cons (s : List Char) : ∃ r, textValue s = '"' :: r ∨ textValue s = '\'' :: r := by
  unfold textValue
  dsimp only
  split_ifs
  · exact ⟨_, .inl rfl⟩
  · exact ⟨_, .inr rfl⟩
  · exact ⟨_, .inl rfl⟩
  · exact ⟨_, .inr rfl⟩
  · exact ⟨_, .inl rfl⟩
  · exact ⟨_, .inl rfl⟩

theorem of_atomValue {x : Data} {v : List Char} (h : atomValue x = some v) :
    (∃ b, x = .bool b ∧ v = if b then "true".toList else "false".toList) ∨
      (∃ n : Nat, n < 2 ^ 63 ∧ x = .integer n ∧ v = decimal n) ∨
      (∃ n : Nat, n ≤ 2 ^ 63 ∧ x = .integer (-n) ∧ v = '-' :: decimal n) ∨
      ∃ s : String, x = .ofString s ∧ v = textValue s.toList := by
  cases x with
  | bool b => exact .inl ⟨b, rfl, (Option.some.inj h).symm⟩
  | integer n =>
    simp only [atomValue, Option.ite_none_right_eq_some, Option.some.injEq] at h
    obtain ⟨⟨hleast, hmost⟩, rfl⟩ := h
    cases n with
    | ofNat n => exact .inr (.inl ⟨n, by simpa using hmost, rfl, toList_toString_nat n⟩)
    | negSucc n => exact .inr (.inr (.inl ⟨n + 1, by omega, rfl, toList_toString_negSucc n⟩))
  | text s =>
    cases s with
    | none => cases h
    | some s => exact .inr (.inr (.inr ⟨s, rfl, (Option.some.inj h).symm⟩))
  | null => cases h
  | real => cases h
  | moment => cases h
  | list xs => cases h
  | record fs => cases h

/-- is nothing skipped in front of this character? It is not a blank, a line ending or the start of a comment. -/
def Stays (c : Char) : Prop := isSpace c = false ∧ c ≠ '#' ∧ c ≠ '\n' ∧ c ≠ '\r'

instance (c : Char) : Decidable (Stays c) := inferInstanceAs (Decidable (_ ∧ _))

theorem stays_of_digit {c : Char} (hc : isDigitOf 10 c = true) : Stays c := by
  refine ⟨?_, ne_of_kind hc (by decide), ne_of_kind hc (by decide), ne_of_kind hc (by decide)⟩
  simp [isSpace, ne_of_kind hc (d := ' ') (by decide), ne_of_kind hc (d := '\t') (by decide)]

theorem exists_atomValue_cons {x : Data} {v : List Char} (h : atomValue x = some v) :
    ∃ c r, v = c :: r ∧ Stays c ∧ c ≠ ']' := by
  obtain ⟨b, -, rfl⟩ | ⟨n, -, -, rfl⟩ | ⟨n, -, -, rfl⟩ | ⟨s, -, rfl⟩ := of_atomValue h
  · cases b
    · exact ⟨'f', _, rfl, by decide, by decide⟩
    · exact ⟨'t', _, rfl, by decide, by decide⟩
  · obtain ⟨d, ds, hd, hdigit, -⟩ := exists_decimal_cons n
    exact ⟨d, ds, hd, stays_of_digit hdigit, ne_of_kind hdigit (by decide)⟩
  · exact ⟨'-', _, rfl, by decide, by decide⟩
  · obtain ⟨r, hr | hr⟩ := exists_textValue_cons s.toList
    · exact ⟨_, _, hr, by decide, by decide⟩
    · exact ⟨_, _, hr, by decide, by decide⟩

theorem value_text (room : Nat) (s : List Char) {rest : List Char} (hrest : EndsText rest) :
    value room (textValue s ++ rest) = some (.ofString (String.ofList s), rest) := by
  have hread := string_textValue hrest s
  obtain ⟨r, hr | hr⟩ := exists_textValue_cons s
  · rw [hr, List.cons_append] at hread ⊢
    rw [value, hread]
    rfl
  · rw [hr, List.cons_append] at hread ⊢
    rw [value, hread]
    rfl

/-- a value that starts with a digit or a minus is a number or a moment -/
theorem value_numeric (room : Nat) {c : Char} (hc : isDigitOf 10 c = true ∨ c = '-') (t : List Char) :
    value room (c :: t) = numeric (c :: t) := by
  have hne : ∀ d, isDigitOf 10 d = false → d ≠ '-' → c ≠ d := by
    rintro d hd hminus rfl
    rcases hc with hc | rfl
    · rw [hc] at hd
      cases hd
    · exact hminus rfl
  have hquote := hne '"' (by decide) (by decide)
  have hsingle := hne '\'' (by decide) (by decide)
  have hbracket := hne '[' (by decide) (by decide)
  have hbrace := hne '\x7b' (by decide) (by decide)
  have htrue := hne 't' (by decide) (by decide)
  have hfalse := hne 'f' (by decide) (by decide)
  rw [value]
  · rintro r ⟨⟩
    exact hquote rfl
  · rintro r ⟨⟩
    exact hsingle rfl
  · rintro r ⟨⟩
    exact hbracket rfl
  · rintro r ⟨⟩
    exact hbrace rfl
  · rintro r ⟨⟩
    exact htrue rfl
  · rintro r ⟨⟩
    exact hfalse rfl

/-- **Truth values, whole numbers and texts are read back.** -/
theorem value_atom {x : Data} {v : List Char} (h : atomValue x = some v) (room : Nat) {rest : List Char}
    (hrest : EndsAtom rest) : value room (v ++ rest) = some (x, rest) := by
  obtain ⟨b, rfl, rfl⟩ | ⟨n, hn, rfl, rfl⟩ | ⟨n, hn, rfl, rfl⟩ | ⟨s, rfl, rfl⟩ := of_atomValue h
  · cases b
    · exact value.eq_def room _
    · exact value.eq_def room _
  · have hread := numeric_decimal hn hrest
    obtain ⟨d, ds, hd, hdigit, -⟩ := exists_decimal_cons n
    rw [← hread, hd, List.cons_append]
    exact value_numeric room (.inl hdigit) _
  · rw [List.cons_append, value_numeric room (.inr rfl), numeric_minus hn hrest]
  · have hread := value_text room s.toList hrest.endsText
    rw [String.ofList_toList] at hread
    exact hread

/-! ## Lists -/

theorem skipSpace_of_not {c : Char} (hc : isSpace c = false) (s : List Char) : skipSpace (c :: s) = c :: s :=
  List.dropWhile_cons_of_neg (by simpa using hc)

theorem skipLines_stays {c : Char} (hc : Stays c) (n : Nat) (s : List Char) : skipLines n (c :: s) = some (c :: s) := by
  obtain ⟨hspace, hcomment, hfeed, hreturn⟩ := hc
  cases n with
  | zero => rfl
  | succ n =>
    have hnewline : newline? (c :: s) = none := by
      rw [newline?.eq_def]
      split <;> simp_all
    rw [skipLines, skipSpace_of_not hspace]
    split
    · simp_all
    · simp [hnewline, hreturn]

theorem skipLines_feed (n : Nat) (s : List Char) : skipLines (n + 1) ('\n' :: s) = skipLines n s := by
  rw [skipLines, skipSpace_of_not (by decide)]
  rfl

/-- the indentation of an item is skipped -/
theorem skipLines_indent {c : Char} (hc : Stays c) (s : List Char) :
    skipLines ("\n    ".toList ++ c :: s).length ("\n    ".toList ++ c :: s) = some (c :: s) := by
  have hindent : "\n    ".toList ++ c :: s = '\n' :: ' ' :: ' ' :: ' ' :: ' ' :: c :: s := rfl
  have hskip : skipSpace (' ' :: ' ' :: ' ' :: ' ' :: c :: s) = c :: s := by
    have h := skipSpace_of_not hc.1 s
    simpa [skipSpace, isSpace] using h
  have hstays := skipLines_stays hc (s.length + 5) s
  rw [skipLines, skipSpace_of_not hc.1] at hstays
  rw [hindent, List.length_cons, skipLines_feed, List.length_cons, skipLines, hskip]
  exact hstays

/-- an item on a line of its own, with a comma after it -/
theorem elements_item {x : Data} {v : List Char} (h : atomValue x = some v) (room n : Nat) (rest : List Char) :
    elements (value room) (n + 1) ("\n    ".toList ++ (v ++ ',' :: rest)) =
      (elements (value room) n rest).map fun p => (x :: p.1, p.2) := by
  obtain ⟨c, t, rfl, hc, hbracket⟩ := exists_atomValue_cons h
  have hvalue : value room (c :: (t ++ ',' :: rest)) = some (x, ',' :: rest) := value_atom h room ⟨_, _, rfl, by simp⟩
  have hcomma := skipLines_stays (c := ',') (by decide) (rest.length + 1) rest
  rw [elements, List.cons_append]
  simp only [skipLines_indent hc, bind, Option.bind]
  split
  · rename_i heq
    exact absurd (List.cons.inj heq).1 hbracket
  · simp only [hvalue, List.length_cons, hcomma]
    cases elements (value room) n rest <;> rfl

/-- an item on the key's line, with the closing bracket after it -/
theorem elements_single {x : Data} {v : List Char} (h : atomValue x = some v) (room n : Nat) (rest : List Char) :
    elements (value room) (n + 1) (v ++ ']' :: rest) = some ([x], rest) := by
  obtain ⟨c, t, rfl, hc, hbracket⟩ := exists_atomValue_cons h
  have hvalue : value room (c :: (t ++ ']' :: rest)) = some (x, ']' :: rest) := value_atom h room ⟨_, _, rfl, by simp⟩
  have hclose := skipLines_stays (c := ']') (by decide) (rest.length + 1) rest
  rw [elements, List.cons_append]
  simp only [skipLines_stays hc, bind, Option.bind]
  split
  · rename_i heq
    exact absurd (List.cons.inj heq).1 hbracket
  · simp only [hvalue, List.length_cons, hclose, pure]

theorem elements_nil (room n : Nat) (rest : List Char) : elements (value room) (n + 1) (']' :: rest) = some ([], rest) := by
  have hclose := skipLines_stays (c := ']') (by decide) (rest.length + 1) rest
  rw [elements]
  simp only [List.length_cons, hclose, bind, Option.bind, pure]

/-- the closing bracket on a line of its own -/
theorem elements_end (room n : Nat) (rest : List Char) :
    elements (value room) (n + 1) ("\n]".toList ++ rest) = some ([], rest) := by
  have hclose := skipLines_stays (c := ']') (by decide) (rest.length + 1) rest
  have hfeed : "\n]".toList ++ rest = '\n' :: ']' :: rest := rfl
  rw [elements, hfeed]
  simp only [List.length_cons, skipLines_feed, hclose, bind, Option.bind, pure]

/-- the lines of a list's items -/
def itemLines (items : List (List Char)) : List Char := items.flatMap fun v => "\n    ".toList ++ v ++ [',']

theorem itemLines_cons (v : List Char) (items : List (List Char)) :
    itemLines (v :: items) = "\n    ".toList ++ v ++ [','] ++ itemLines items := List.flatMap_cons

theorem length_le_itemLines {xs : List Data} {items : List (List Char)} (h : xs.mapM atomValue = some items) :
    xs.length ≤ (itemLines items).length := by
  induction xs generalizing items with
  | nil => exact Nat.zero_le _
  | cons x xs ih =>
    simp only [List.mapM_cons, bind, Option.bind_eq_some_iff, pure, Option.some.injEq] at h
    obtain ⟨v, -, vs, hvs, rfl⟩ := h
    have hle := ih hvs
    rw [itemLines_cons, List.length_append, List.length_append, List.length_cons, List.length_singleton]
    omega

/-- **Lists with a line for each item are read back.** -/
theorem elements_lines (room : Nat) {xs : List Data} {items : List (List Char)} (h : xs.mapM atomValue = some items)
    {n : Nat} (hn : xs.length < n) (rest : List Char) :
    elements (value room) n (itemLines items ++ "\n]".toList ++ rest) = some (xs, rest) := by
  induction xs generalizing items n with
  | nil =>
    obtain rfl : items = [] := by simpa using h.symm
    obtain ⟨n, rfl⟩ := Nat.exists_eq_succ_of_ne_zero hn.ne'
    exact elements_end room n rest
  | cons x xs ih =>
    obtain ⟨n, rfl⟩ := Nat.exists_eq_succ_of_ne_zero (Nat.ne_of_gt (Nat.zero_lt_of_lt hn))
    simp only [List.mapM_cons, bind, Option.bind_eq_some_iff, pure, Option.some.injEq] at h
    obtain ⟨v, hv, vs, hvs, rfl⟩ := h
    have hnext := ih hvs (n := n) (by simpa using hn)
    have hitem := elements_item hv room n (itemLines vs ++ "\n]".toList ++ rest)
    rw [hnext] at hitem
    rw [itemLines_cons]
    simpa using hitem

theorem value_bracket {body rest : List Char} {xs : List Data}
    (h : elements (value 78) (body.length + 1) body = some (xs, rest)) :
    value maxDepth ('[' :: body) = some (.list xs, rest) := by
  rw [maxDepth, value, h]
  rfl

/-- **Lists are read back**, in each of their three layouts. -/
theorem value_list {xs : List Data} {v : List Char} (h : lineValue (.list xs) = some v) (rest : List Char) :
    value maxDepth (v ++ rest) = some (.list xs, rest) := by
  match xs with
  | [] =>
    obtain rfl := Option.some.inj h
    exact value_bracket (elements_nil 78 (rest.length + 1) rest)
  | [x] =>
    cases hx : atomValue x with
    | none => simp [lineValue, hx] at h
    | some t =>
      obtain rfl : ['['] ++ t ++ [']'] = v := by simpa [lineValue, hx] using h
      have hread := elements_single hx 78 (t ++ ']' :: rest).length rest
      simpa using value_bracket hread
  | x :: y :: xs =>
    simp only [lineValue, bind, Option.bind_eq_some_iff] at h
    obtain ⟨items, hitems, h⟩ := h
    have hlines : v = '[' :: (itemLines items ++ "\n]".toList) := by
      simp only [List.mapM_cons, bind, Option.bind_eq_some_iff, pure, Option.some.injEq] at hitems
      obtain ⟨a, -, _, ⟨b, -, bs, -, rfl⟩, rfl⟩ := hitems
      exact (Option.some.inj h).symm
    have hread := elements_lines 78 hitems (n := (itemLines items ++ "\n]".toList ++ rest).length + 1)
      (by
        have hle := length_le_itemLines hitems
        rw [List.length_append, List.length_append]
        omega) rest
    rw [hlines, List.cons_append]
    exact value_bracket hread

theorem atomValue_of_lineValue {x : Data} {v : List Char} (h : lineValue x = some v) :
    (∃ xs, x = .list xs) ∨ atomValue x = some v := by
  cases x with
  | list xs => exact .inl ⟨xs, rfl⟩
  | null => exact .inr h
  | bool b => exact .inr h
  | integer n => exact .inr h
  | real => exact .inr h
  | moment => exact .inr h
  | text s => exact .inr h
  | record fs => exact .inr h

/-- **A value on a key's line is read back.** -/
theorem value_line {x : Data} {v : List Char} (h : lineValue x = some v) (rest : List Char) :
    value maxDepth (v ++ '\n' :: rest) = some (x, '\n' :: rest) := by
  obtain ⟨xs, rfl⟩ | hatom := atomValue_of_lineValue h
  · exact value_list h _
  · exact value_atom hatom maxDepth ⟨_, _, rfl, .inl rfl⟩

theorem exists_lineValue_cons {x : Data} {v : List Char} (h : lineValue x = some v) :
    ∃ c r, v = c :: r ∧ isSpace c = false := by
  obtain ⟨xs, rfl⟩ | hatom := atomValue_of_lineValue h
  · simp only [lineValue, bind, Option.bind_eq_some_iff] at h
    obtain ⟨items, -, h⟩ := h
    split at h
    · exact ⟨'[', _, (Option.some.inj h).symm, by decide⟩
    · exact ⟨'[', _, (Option.some.inj h).symm, by decide⟩
    · exact ⟨'[', _, (Option.some.inj h).symm, by decide⟩
  · obtain ⟨c, r, hv, hc, -⟩ := exists_atomValue_cons hatom
    exact ⟨c, r, hv, hc.1⟩

end EdgeTunnel.Toml
