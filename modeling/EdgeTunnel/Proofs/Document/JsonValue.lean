/-
JSON values that are read back from every text that spells them.

A reading goes as deep as its bound allows, and a text is never deeper than it is long: whoever may read twice as deep as a
text has characters reads the whole of it (`Reads`). One level of the reading is `value_step`, `elements_step` and
`members_step`, which rest on the level below; `reads` is the induction over the bound.

- `parse_spelled`: every text that spells a value means that value.
- `spells_write`: a written text spells the value it was written from.
- `parse_write`: a written text means the value it was written from.
-/
import EdgeTunnel.Proofs.Document.JsonText
import Mathlib.Data.List.DropRight

namespace EdgeTunnel.Json

open Text

/-! ## Blanks -/

theorem skip_blanks {b : List Char} (h : Blanks b) (s : List Char) : skip (b ++ s) = skip s := by
  rw [skip, List.dropWhile_append_of_pos, ← skip]
  intro c hc
  rcases h c hc with rfl | rfl | rfl | rfl
  · rfl
  · rfl
  · rfl
  · rfl

theorem skip_skip (s : List Char) : skip (skip s) = skip s := List.dropWhile_idempotent _ s

theorem value_skip (n : Nat) (s : List Char) : value n (skip s) = value n s := by
  cases n with
  | zero => rfl
  | succ n => rw [value, value, skip_skip]

theorem value_blanks (n : Nat) {b : List Char} (h : Blanks b) (s : List Char) : value n (b ++ s) = value n s := by
  rw [← value_skip, skip_blanks h, value_skip]

theorem elements_skip (n : Nat) (s : List Char) : elements n (skip s) = elements n s := by
  cases n with
  | zero => rfl
  | succ n => rw [elements, elements, value_skip]

theorem members_skip (n : Nat) (s : List Char) : members n (skip s) = members n s := by
  cases n with
  | zero => rfl
  | succ n => rw [members, members, skip_skip]

/-- a number ends at a blank -/
theorem endsNumber_blanks {b : List Char} (h : Blanks b) {rest : List Char} (hrest : EndsNumber rest) :
    EndsNumber (b ++ rest) := by
  cases b with
  | nil => exact hrest
  | cons c b =>
    apply endsNumber_cons
    rcases h c List.mem_cons_self with rfl | rfl | rfl | rfl
    · decide
    · decide
    · decide
    · decide

/-! ## How texts begin -/

/-- can a value begin with a character? -/
def Opens (c : Char) : Prop := isDigitOf 10 c = true ∨ c ∈ ['n', 't', 'f', '"', '-', '[', '\x7b']

theorem Opens.skip_cons {c : Char} (h : Opens c) (r : List Char) : skip (c :: r) = c :: r := by
  rw [skip, List.dropWhile_cons, if_neg]
  rcases h with h | h
  · have hspace : c ≠ ' ' := ne_of_kind h (by decide)
    have htab : c ≠ '\t' := ne_of_kind h (by decide)
    have hline : c ≠ '\n' := ne_of_kind h (by decide)
    have hreturn : c ≠ '\r' := ne_of_kind h (by decide)
    simp [hspace, htab, hline, hreturn]
  · simp only [List.mem_cons, List.not_mem_nil, or_false] at h
    rcases h with rfl | rfl | rfl | rfl | rfl | rfl | rfl <;> simp

theorem Opens.ne_bracket {c : Char} (h : Opens c) : c ≠ ']' := by
  rintro rfl
  exact absurd h (by unfold Opens; decide)

theorem spells_opens {x : Data} {t : List Char} (h : Spells x t) : ∃ c r, t = c :: r ∧ Opens c := by
  cases h with
  | number negative n hf he =>
    obtain ⟨c, r, hcons, hc, -⟩ := exists_decimal_cons n
    cases negative with
    | true => exact ⟨'-', _, rfl, .inr (by decide)⟩
    | false => exact ⟨c, _, by rw [hcons]; rfl, .inl hc⟩
  | text string =>
    obtain ⟨hpieces⟩ := string
    exact ⟨'"', _, rfl, .inr (by decide)⟩
  | null => exact ⟨'n', _, rfl, .inr (by decide)⟩
  | yes => exact ⟨'t', _, rfl, .inr (by decide)⟩
  | no => exact ⟨'f', _, rfl, .inr (by decide)⟩
  | noElements blanks => exact ⟨'[', _, rfl, .inr (by decide)⟩
  | list elements => exact ⟨'[', _, rfl, .inr (by decide)⟩
  | noMembers blanks => exact ⟨'\x7b', _, rfl, .inr (by decide)⟩
  | record members => exact ⟨'\x7b', _, rfl, .inr (by decide)⟩

/-- the text of elements does not begin as the end of a list does -/
theorem skip_elements {xs : List Data} {t : List Char} (h : SpellsElements xs t) (s : List Char) :
    ∃ c r, skip (t ++ s) = c :: r ∧ c ≠ ']' := by
  have hpadded : ∀ {x u}, SpellsPadded x u → ∀ s, ∃ c r, skip (u ++ s) = c :: r ∧ c ≠ ']' := by
    rintro x u ⟨hb, hvalue, -⟩ s
    obtain ⟨c, r, rfl, hopens⟩ := spells_opens hvalue
    rename_i after
    refine ⟨c, r ++ after ++ s, ?_, hopens.ne_bracket⟩
    rw [List.append_assoc, skip_blanks hb]
    exact hopens.skip_cons _
  cases h with
  | last hx => exact hpadded hx s
  | next hx _ =>
    rw [List.append_assoc]
    exact hpadded hx _

/-- the text of members begins with the quote of a key -/
theorem skip_members {fs : List (Option String × Data)} {t : List Char} (h : SpellsMembers fs t) (s : List Char) :
    ∃ r, skip (t ++ s) = '"' :: r := by
  have hmember : ∀ {m u}, SpellsMember m u → ∀ s, ∃ r, skip (u ++ s) = '"' :: r := by
    rintro m u ⟨hb, hkey, -, -⟩ s
    obtain ⟨body, hbody, -⟩ := string_spelled hkey (_ ++ s)
    refine ⟨body, ?_⟩
    rw [List.append_assoc, skip_blanks hb, List.append_assoc, hbody]
    exact Opens.skip_cons (.inr (by decide)) body
  cases h with
  | last hm => exact hmember hm s
  | next hm _ =>
    rw [List.append_assoc]
    exact hmember hm _

/-! ## One level of a reading -/

/-- a reading that may go `n` levels deep reads what is at most half as long -/
structure Reads (n : Nat) : Prop where
  value : ∀ {x t rest}, Spells x t → EndsNumber rest → 2 * t.length ≤ n → value n (t ++ rest) = .ok (x, rest)
  elements : ∀ {xs t rest}, SpellsElements xs t → 2 * t.length < n → elements n (t ++ ']' :: rest) = .ok (xs, rest)
  members : ∀ {fs t rest}, SpellsMembers fs t → 2 * t.length < n → members n (t ++ '\x7d' :: rest) = .ok (fs, rest)

/-- a value with blanks around it is read up to the blanks after it -/
theorem Reads.padded {n : Nat} (h : Reads n) {x : Data} {t rest : List Char} (hx : SpellsPadded x t)
    (hrest : EndsNumber rest) (hlength : 2 * t.length ≤ n) :
    ∃ after, Blanks after ∧ Json.value n (t ++ rest) = .ok (x, after ++ rest) := by
  obtain ⟨hb, hvalue, ha⟩ := hx
  rename_i before u after
  refine ⟨after, ha, ?_⟩
  simp only [List.length_append] at hlength
  rw [List.append_assoc, value_blanks n hb, List.append_assoc]
  exact h.value hvalue (endsNumber_blanks ha hrest) (by omega)

theorem value_digit (n : Nat) {c : Char} (hc : isDigitOf 10 c = true) (r : List Char) :
    value (n + 1) (c :: r) = number false (c :: r) := by
  have hskip : skip (c :: r) = c :: r := Opens.skip_cons (.inl hc) r
  rw [value, hskip]
  split
  all_goals first
    | rfl
    | rename_i heq
      cases heq
      exact absurd hc (by decide)

theorem value_number (n : Nat) {f e : Bool} {fractionText exponentText rest : List Char} (negative : Bool) (k : Nat)
    (hf : SpellsFraction f fractionText) (he : SpellsExponent e exponentText) (hrest : EndsNumber rest) :
    value (n + 1) (((if negative then ['-'] else []) ++ (decimal k ++ (fractionText ++ exponentText))) ++ rest) =
      .ok (if f || e then .real else whole negative k, rest) := by
  have hnumber := number_spelled negative k hf he hrest
  cases negative with
  | true =>
    simp only [if_true, List.append_assoc, List.cons_append, List.nil_append]
    have hskip := Opens.skip_cons (c := '-') (.inr (by decide)) (decimal k ++ (fractionText ++ (exponentText ++ rest)))
    rw [value, hskip]
    exact hnumber
  | false =>
    obtain ⟨c, r, hcons, hc, -⟩ := exists_decimal_cons k
    simp only [Bool.false_eq_true, if_false, List.append_assoc, List.nil_append]
    rw [hcons, List.cons_append] at hnumber ⊢
    rw [value_digit n hc]
    exact hnumber

theorem value_step {n : Nat} (h : Reads n) {x : Data} {t rest : List Char} (hx : Spells x t) (hrest : EndsNumber rest)
    (hlength : 2 * t.length ≤ n + 1) : value (n + 1) (t ++ rest) = .ok (x, rest) := by
  cases hx with
  | null => rfl
  | yes => rfl
  | no => rfl
  | number negative k hf he => exact value_number n negative k hf he hrest
  | text string =>
    obtain ⟨body, hbody, hread⟩ := string_spelled string rest
    have hskip : skip ('"' :: body) = '"' :: body := Opens.skip_cons (.inr (by decide)) body
    rw [hbody, value, hskip]
    simp only [hread, Except.map]
  | noElements blanks =>
    rename_i b
    have hskip : skip (b ++ ']' :: rest) = ']' :: rest := by rw [skip_blanks blanks]; rfl
    rw [List.cons_append, List.append_assoc, value, Opens.skip_cons (.inr (by decide))]
    simp only [List.singleton_append, hskip]
  | list elements =>
    rename_i xs t
    obtain ⟨c, r, hskip, hc⟩ := skip_elements elements (']' :: rest)
    have hread : Json.elements n (c :: r) = .ok (xs, rest) := by
      rw [← hskip, elements_skip]
      refine h.elements elements ?_
      simp only [List.length_cons, List.length_append, List.length_nil] at hlength
      omega
    rw [List.cons_append, List.append_assoc, value, Opens.skip_cons (.inr (by decide))]
    simp only [List.singleton_append, hskip]
    split
    · rename_i heq
      cases heq
    · rename_i heq
      exact absurd (List.cons.inj heq).1 hc
    · rw [hread]
      rfl
  | noMembers blanks =>
    rename_i b
    have hskip : skip (b ++ '\x7d' :: rest) = '\x7d' :: rest := by rw [skip_blanks blanks]; rfl
    rw [List.cons_append, List.append_assoc, value, Opens.skip_cons (.inr (by decide))]
    simp only [List.singleton_append, hskip]
  | record members =>
    rename_i fs t
    obtain ⟨r, hskip⟩ := skip_members members ('\x7d' :: rest)
    have hread : Json.members n ('"' :: r) = .ok (fs, rest) := by
      rw [← hskip, members_skip]
      refine h.members members ?_
      simp only [List.length_cons, List.length_append, List.length_nil] at hlength
      omega
    rw [List.cons_append, List.append_assoc, value, Opens.skip_cons (.inr (by decide))]
    simp only [List.singleton_append, hskip]
    change (Json.members n ('"' :: r)).map _ = _
    rw [hread]
    rfl

theorem elements_step {n : Nat} (h : Reads n) {xs : List Data} {t rest : List Char} (hx : SpellsElements xs t)
    (hlength : 2 * t.length < n + 1) : elements (n + 1) (t ++ ']' :: rest) = .ok (xs, rest) := by
  cases hx with
  | last hvalue =>
    have hends : EndsNumber (']' :: rest) := endsNumber_cons (by decide)
    obtain ⟨after, hafter, hread⟩ := h.padded hvalue hends (Nat.le_of_lt_succ hlength)
    have hskip : skip (after ++ ']' :: rest) = ']' :: rest := by rw [skip_blanks hafter]; rfl
    rw [elements, hread]
    simp only [bind, Except.bind, hskip]
  | next hvalue hmore =>
    rename_i x xs u r
    simp only [List.length_append, List.length_cons] at hlength
    have hends : EndsNumber (',' :: (r ++ ']' :: rest)) := endsNumber_cons (by decide)
    obtain ⟨after, hafter, hread⟩ := h.padded hvalue hends (by omega)
    have hskip : skip (after ++ ',' :: (r ++ ']' :: rest)) = ',' :: (r ++ ']' :: rest) := by rw [skip_blanks hafter]; rfl
    have hrest : elements n (r ++ ']' :: rest) = .ok (xs, rest) := h.elements hmore (by omega)
    rw [List.append_assoc, List.cons_append, elements, hread]
    simp only [bind, Except.bind, hskip, hrest, Except.map]

theorem members_step {n : Nat} (h : Reads n) {fs : List (Option String × Data)} {t rest : List Char}
    (hx : SpellsMembers fs t) (hlength : 2 * t.length < n + 1) : members (n + 1) (t ++ '\x7d' :: rest) = .ok (fs, rest) := by
  -- what a member comes to, whatever follows it
  have hmember : ∀ {k : Option String} {x : Data} {u s : List Char}, SpellsMember (k, x) u → EndsNumber s →
      2 * u.length ≤ n →
      ∃ body r colon after, skip (u ++ s) = '"' :: body ∧ string body = .ok (k, r) ∧ skip r = ':' :: colon ∧
        Blanks after ∧ value n colon = .ok (x, after ++ s) := by
    rintro k x u s ⟨hb, hkey, ha, hvalue⟩ hs hu
    rename_i before q between v
    obtain ⟨body, hbody, hread⟩ := string_spelled hkey (between ++ ':' :: (v ++ s))
    simp only [List.length_append, List.length_cons] at hu
    obtain ⟨after, hafter, hv⟩ := h.padded hvalue hs (by omega)
    refine ⟨body, _, v ++ s, after, ?_, hread, ?_, hafter, hv⟩
    · rw [List.append_assoc, skip_blanks hb, List.append_assoc, List.append_assoc, List.cons_append, hbody]
      exact Opens.skip_cons (.inr (by decide)) body
    · rw [skip_blanks ha]
      rfl
  cases hx with
  | last m =>
    rename_i m
    obtain ⟨body, r, colon, after, hskip, hstring, hcolon, hafter, hv⟩ :=
      hmember (s := '\x7d' :: rest) m (endsNumber_cons (by decide)) (Nat.le_of_lt_succ hlength)
    have hend : skip (after ++ '\x7d' :: rest) = '\x7d' :: rest := by rw [skip_blanks hafter]; rfl
    rw [members, hskip]
    simp only [hstring, bind, Except.bind, hcolon, hv, hend]
  | next m hmore =>
    rename_i m ms u w
    simp only [List.length_append, List.length_cons] at hlength
    obtain ⟨body, r, colon, after, hskip, hstring, hcolon, hafter, hv⟩ :=
      hmember (s := ',' :: (w ++ '\x7d' :: rest)) m (endsNumber_cons (by decide)) (by omega)
    have hend : skip (after ++ ',' :: (w ++ '\x7d' :: rest)) = ',' :: (w ++ '\x7d' :: rest) := by
      rw [skip_blanks hafter]; rfl
    have hrest : Json.members n (w ++ '\x7d' :: rest) = .ok (ms, rest) := h.members hmore (by omega)
    rw [List.append_assoc, List.cons_append, members, hskip]
    simp only [hstring, bind, Except.bind, hcolon, hv, hend, hrest, Except.map]

/-! ## Whole texts -/

/-- **Every spelling is read to its end**, however deep its values are nested. -/
theorem reads (n : Nat) : Reads n := by
  induction n with
  | zero =>
    -- no text is empty, so none is read at no depth
    refine ⟨fun hx _ hlength => ?_, fun _ h => absurd h (Nat.not_lt_zero _), fun _ h => absurd h (Nat.not_lt_zero _)⟩
    obtain ⟨c, r, rfl, -⟩ := spells_opens hx
    simp at hlength
  | succ n ih => exact ⟨value_step ih, elements_step ih, members_step ih⟩

/-- **Every text that spells a value means that value.** -/
theorem parse_spelled {x : Data} {s : String} (h : SpellsPadded x s.toList) : parse s = .ok x := by
  have hends : EndsNumber [] := ⟨by simp [EndsDigits], by simp⟩
  obtain ⟨after, hafter, hread⟩ := (reads (2 * s.toList.length + 2)).padded h hends (by omega)
  have hskip : skip (after ++ []) = [] := skip_blanks hafter []
  rw [List.append_nil] at hread
  rw [parse]
  simp only [hread, bind, Except.bind, hskip, List.isEmpty_nil, if_true]
  rfl

/-! ## Written texts -/

theorem Spells.alone {x : Data} {t : List Char} (h : Spells x t) : SpellsPadded x t := by
  have hnone : Blanks [] := fun _ hc => absurd hc List.not_mem_nil
  have hpadded := SpellsPadded.padded hnone h hnone
  rwa [List.append_nil, List.nil_append] at hpadded

theorem spellsMember_quoted {k : String} {x : Data} {t : List Char} (h : Spells x t) :
    SpellsMember (some k, x) (quoted k ++ ':' :: t) := by
  have hnone : Blanks [] := fun _ hc => absurd hc List.not_mem_nil
  exact .member hnone (spellsString_quoted k) hnone h.alone

mutual

/-- **What is written spells the value it was written from.** -/
theorem spells_write : ∀ {x : Data} {t : List Char}, write x = some t → Spells x t
  | .null, _, h => by
    cases h
    exact .null
  | .bool true, _, h => by
    cases h
    exact .yes
  | .bool false, _, h => by
    cases h
    exact .no
  | .integer n, t, h => spells_numeral h
  | .text (some s), _, h => by
    cases h
    exact .text (spellsString_quoted s)
  | .list xs, t, h => by
    obtain ⟨u, hu, rfl⟩ := Option.map_eq_some_iff.mp h
    cases xs with
    | nil =>
      cases hu
      exact .noElements (b := []) fun _ hc => absurd hc List.not_mem_nil
    | cons x xs => exact .list (spellsElements_write (List.cons_ne_nil x xs) hu)
  | .record fs, t, h => by
    obtain ⟨u, hu, rfl⟩ := Option.map_eq_some_iff.mp h
    cases fs with
    | nil =>
      cases hu
      exact .noMembers (b := []) fun _ hc => absurd hc List.not_mem_nil
    | cons m fs => exact .record (spellsMembers_write (List.cons_ne_nil m fs) hu)

theorem spellsElements_write : ∀ {xs : List Data} {t : List Char},
    xs ≠ [] → writeElements xs = some t → SpellsElements xs t
  | [x], t, _, h => .last (spells_write h).alone
  | x :: y :: ys, t, _, h => by
    simp only [writeElements, Option.bind_eq_bind, Option.bind_eq_some_iff, Option.pure_def, Option.some.injEq] at h
    obtain ⟨u, hu, r, hr, rfl⟩ := h
    exact .next (spells_write hu).alone (spellsElements_write (List.cons_ne_nil y ys) hr)

theorem spellsMembers_write : ∀ {fs : List (Option String × Data)} {t : List Char},
    fs ≠ [] → writeMembers fs = some t → SpellsMembers fs t
  | [(k, x)], t, _, h => by
    simp only [writeMembers, Option.bind_eq_bind, Option.bind_eq_some_iff, Option.pure_def, Option.some.injEq] at h
    obtain ⟨k, rfl, u, hu, rfl⟩ := h
    exact .last (spellsMember_quoted (spells_write hu))
  | (k, x) :: m :: fs, t, _, h => by
    simp only [writeMembers, Option.bind_eq_bind, Option.bind_eq_some_iff, Option.pure_def, Option.some.injEq] at h
    obtain ⟨k, rfl, u, hu, r, hr, rfl⟩ := h
    have hnext := SpellsMembers.next (spellsMember_quoted (k := k) (spells_write hu))
      (spellsMembers_write (List.cons_ne_nil m fs) hr)
    rwa [List.append_assoc] at hnext

end

/-- **What is written means the value it was written from.** -/
theorem parse_write {x : Data} {t : List Char} (h : write x = some t) : parse (String.ofList t) = .ok x :=
  parse_spelled (by rw [String.toList_ofList]; exact (spells_write h).alone)

end EdgeTunnel.Json
