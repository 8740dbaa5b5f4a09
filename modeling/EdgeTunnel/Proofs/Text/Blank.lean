/-
Texts that are trimmed and cut.

- `trim_eq`: a trimmed text is left as it is; `trim_padded`: blanks around a text do not matter.
- `trim_lower`: a text in lower case has its blanks where it had them.
- `splitAt?_append`, `pieces_append`: a text is cut at the first separator.
- `words_append`: a word ends at the first blank.
- `lines_terminated`: the lines of a text are read back when each was ended by a line feed; `headD_lines`: so is the first one
  of any text.
-/
import EdgeTunnel.Text.Blank
import Mathlib.Data.List.TakeWhile
import Mathlib.Tactic

namespace EdgeTunnel.Text

/-! ## Trimming -/

/-- what stands before a character that is no blank stays -/
theorem trimRight_append_cons {c : Char} (hc : isBlank c = false) (a b : List Char) :
    trimRight (a ++ c :: b) = a ++ c :: trimRight b := by
  rw [trimRight, trimRight, List.reverse_append, List.reverse_cons, List.append_assoc, List.dropWhile_append]
  split_ifs with hempty
  · have hnil : b.reverse.dropWhile isBlank = [] := List.isEmpty_iff.mp hempty
    rw [hnil, List.singleton_append, List.dropWhile_cons_of_neg (by simp [hc])]
    simp
  · simp

theorem trimRight_eq {s : List Char} (h : ∀ c ∈ s.getLast?, isBlank c = false) : trimRight s = s := by
  rcases List.eq_nil_or_concat s with rfl | ⟨a, c, rfl⟩
  · rfl
  · rw [List.concat_eq_append] at h ⊢
    exact trimRight_append_cons (h c (by simp)) a []

/-- **A trimmed text is left as it is.** -/
theorem trim_eq {s : List Char} (h : Trimmed s) : trim s = s := by
  have hdrop : s.dropWhile isBlank = s := by
    cases s with
    | nil => rfl
    | cons c s => exact List.dropWhile_cons_of_neg (by simp [h.1 c rfl])
  rw [trim, hdrop, trimRight_eq h.2]

theorem trim_cons {b : Char} (hb : isBlank b = true) (s : List Char) : trim (b :: s) = trim s := by
  rw [trim, List.dropWhile_cons_of_pos hb, ← trim]

theorem trim_append_singleton {b : Char} (hb : isBlank b = true) (s : List Char) : trim (s ++ [b]) = trim s := by
  have hright : ∀ t, trimRight (t ++ [b]) = trimRight t := by
    intro t
    rw [trimRight, List.reverse_append, List.reverse_singleton, List.singleton_append, List.dropWhile_cons_of_pos hb,
      ← trimRight]
  rw [trim, trim, List.dropWhile_append]
  split_ifs with hempty
  · rw [List.isEmpty_iff.mp hempty, List.dropWhile_cons_of_pos hb]
    rfl
  · exact hright _

theorem blanks_nil : Blanks [] := List.forall_mem_nil _

theorem trim_append_blanks {after : List Char} (h : Blanks after) (s : List Char) : trim (s ++ after) = trim s := by
  induction after generalizing s with
  | nil => rw [List.append_nil]
  | cons b after ih =>
    obtain ⟨hb, hafter⟩ := List.forall_mem_cons.1 h
    rw [← List.singleton_append, ← List.append_assoc, ih hafter, trim_append_singleton hb]

theorem trim_blanks_append {before : List Char} (h : Blanks before) (s : List Char) : trim (before ++ s) = trim s := by
  induction before with
  | nil => rfl
  | cons b before ih =>
    obtain ⟨hb, hbefore⟩ := List.forall_mem_cons.1 h
    rw [List.cons_append, trim_cons hb, ih hbefore]

/-- **Blanks around a text do not matter.** -/
theorem trim_padded {before after : List Char} (hb : Blanks before) (ha : Blanks after) (s : List Char) :
    trim (before ++ s ++ after) = trim s := by rw [trim_append_blanks ha, trim_blanks_append hb]

theorem exists_trimRight (s : List Char) : ∃ after, Blanks after ∧ s = trimRight s ++ after := by
  refine ⟨(s.reverse.takeWhile isBlank).reverse, fun c hc => ?_, ?_⟩
  · exact List.mem_takeWhile_imp (List.mem_reverse.1 hc)
  · rw [trimRight, ← List.reverse_append, List.takeWhile_append_dropWhile, List.reverse_reverse]

/-- a text is its trimmed part with blanks around it -/
theorem exists_padding (s : List Char) : ∃ before after, Blanks before ∧ Blanks after ∧ s = before ++ trim s ++ after := by
  obtain ⟨after, hafter, hs⟩ := exists_trimRight (s.dropWhile isBlank)
  refine ⟨s.takeWhile isBlank, after, fun c hc => List.mem_takeWhile_imp hc, hafter, ?_⟩
  rw [trim, List.append_assoc, ← hs, List.takeWhile_append_dropWhile]

theorem isBlank_of_mem_head?_dropWhile {s : List Char} {c : Char} (h : c ∈ (s.dropWhile isBlank).head?) :
    isBlank c = false := by
  have hhead := List.head?_dropWhile_not isBlank s
  rw [Option.mem_def.1 h] at hhead
  exact hhead

theorem trimmed_trim (s : List Char) : Trimmed (trim s) := by
  refine ⟨fun c hc => ?_, fun c hc => ?_⟩
  · obtain ⟨after, -, hs⟩ := exists_trimRight (s.dropWhile isBlank)
    refine isBlank_of_mem_head?_dropWhile (s := s) ?_
    rw [hs]
    exact List.mem_head?_append_of_mem_head? hc
  · rw [trim, trimRight, List.getLast?_reverse] at hc
    exact isBlank_of_mem_head?_dropWhile hc

theorem trimRight_blanks {s : List Char} (h : Blanks s) : trimRight s = [] := by
  have hall : s.reverse.dropWhile isBlank = [] := List.dropWhile_eq_nil_iff.2 fun c hc => h c (List.mem_reverse.1 hc)
  rw [trimRight, hall, List.reverse_nil]

theorem head?_trim (s : List Char) : (trim s).head? = (s.dropWhile isBlank).head? := by
  rw [trim]
  cases hdrop : s.dropWhile isBlank with
  | nil => rfl
  | cons c r =>
    have hc : isBlank c = false := isBlank_of_mem_head?_dropWhile (s := s) (by rw [hdrop]; rfl)
    have hright : trimRight (c :: r) = c :: trimRight r := trimRight_append_cons hc [] r
    rw [hright, List.head?_cons, List.head?_cons]

theorem trim_dropWhile (s : List Char) : trim (s.dropWhile isBlank) = trim s := by
  have hblanks : Blanks (s.takeWhile isBlank) := fun c hc => List.mem_takeWhile_imp hc
  have h := trim_blanks_append hblanks (s.dropWhile isBlank)
  rwa [List.takeWhile_append_dropWhile, eq_comm] at h

theorem trim_trimRight (s : List Char) : trim (trimRight s) = trim s := by
  obtain ⟨after, hafter, hs⟩ := exists_trimRight s
  conv_rhs => rw [hs, trim_append_blanks hafter]

theorem getLast?_trim (s : List Char) : (trim s).getLast? = (trimRight s).getLast? := by
  obtain ⟨before, after, hbefore, hafter, hs⟩ := exists_padding s
  rcases List.eq_nil_or_concat (trim s) with hnil | ⟨t, c, hconcat⟩
  · have hblanks : Blanks s := by
      rw [hs, hnil, List.append_nil]
      exact List.forall_mem_append.2 ⟨hbefore, hafter⟩
    rw [hnil, trimRight_blanks hblanks]
  · rw [List.concat_eq_append] at hconcat
    have hc : isBlank c = false := (trimmed_trim s).2 c (Option.mem_def.2 (by rw [hconcat, List.getLast?_concat]))
    have hright : trimRight s = before ++ t ++ [c] := by
      rw [hs, hconcat, ← List.append_assoc, List.append_assoc, List.singleton_append, trimRight_append_cons hc,
        trimRight_blanks hafter]
    rw [hconcat, hright, List.getLast?_concat, List.getLast?_concat]

/-- what stands around a character that is no blank is trimmed on its outer side -/
theorem trim_append_cons {c : Char} (hc : isBlank c = false) (a b : List Char) :
    trim (a ++ c :: b) = a.dropWhile isBlank ++ c :: trimRight b := by
  have hdrop : (a ++ c :: b).dropWhile isBlank = a.dropWhile isBlank ++ c :: b := by
    rw [List.dropWhile_append]
    split_ifs with hempty
    · rw [List.isEmpty_iff.1 hempty, List.dropWhile_cons_of_neg (by simp [hc]), List.nil_append]
    · rfl
  rw [trim, hdrop, trimRight_append_cons hc]

theorem isBlank_eq_false_of_alpha {c : Char} (h : c.isAlpha = true) : isBlank c = false := by
  have hrange : (65 ≤ c.toNat ∧ c.toNat ≤ 90) ∨ (97 ≤ c.toNat ∧ c.toNat ≤ 122) := by
    rcases (Bool.or_eq_true ..).mp h with hupper | hlower
    · obtain ⟨hfrom, hto⟩ : 65 ≤ c.val ∧ c.val ≤ 90 := of_decide_eq_true hupper
      exact .inl ⟨UInt32.le_iff_toNat_le.mp hfrom, UInt32.le_iff_toNat_le.mp hto⟩
    · obtain ⟨hfrom, hto⟩ := (Bool.and_eq_true ..).mp hlower
      exact .inr ⟨UInt32.le_iff_toNat_le.mp (of_decide_eq_true hfrom), UInt32.le_iff_toNat_le.mp (of_decide_eq_true hto)⟩
  simp only [isBlank, Bool.or_eq_false_iff, Bool.and_eq_false_iff, decide_eq_false_iff_not, beq_eq_false_iff_ne]
  omega

theorem trimmed_of_noBlank {s : List Char} (h : ∀ c ∈ s, isBlank c = false) : Trimmed s :=
  ⟨fun c hc => h c (List.mem_of_mem_head? hc), fun c hc => h c (List.mem_of_getLast? hc)⟩

/-! ## Lower case -/

/-- an upper-case letter is thirty-two before its lower case; nothing else changes -/
theorem toLower_cases (c : Char) :
    (65 ≤ c.toNat ∧ c.toNat ≤ 90 ∧ c.toLower.toNat = c.toNat + 32) ∨
      (¬ (65 ≤ c.toNat ∧ c.toNat ≤ 90) ∧ c.toLower = c) := by
  have hval : c.val.toNat = c.toNat := rfl
  unfold Char.toLower
  split_ifs with h
  · have hfrom : 65 ≤ c.toNat := UInt32.le_iff_toNat_le.1 h.1
    have hto : c.toNat ≤ 90 := UInt32.le_iff_toNat_le.1 h.2
    refine .inl ⟨hfrom, hto, ?_⟩
    have hshift : ('a'.val - 'A'.val).toNat = 32 := by decide
    have hsum : (c.val + ('a'.val - 'A'.val)).toNat = c.val.toNat + 32 := by
      rw [UInt32.toNat_add, hshift]
      exact Nat.mod_eq_of_lt (by omega)
    exact hsum
  · exact .inr ⟨fun hrange => h ⟨UInt32.le_iff_toNat_le.2 hrange.1, UInt32.le_iff_toNat_le.2 hrange.2⟩, rfl⟩

theorem isBlank_toLower (c : Char) : isBlank c.toLower = isBlank c := by
  rcases toLower_cases c with ⟨hfrom, hto, hlower⟩ | ⟨-, hsame⟩
  · have hnone : ∀ d : Char, 65 ≤ d.toNat → d.toNat ≤ 122 → isBlank d = false := fun d hd hd' => by
      simp only [isBlank, Bool.or_eq_false_iff, Bool.and_eq_false_iff, decide_eq_false_iff_not, beq_eq_false_iff_ne]
      omega
    rw [hnone c hfrom (by omega), hnone c.toLower (by omega) (by omega)]
  · rw [hsame]

/-- a character that is no letter is in lower case what it was -/
theorem toLower_eq_iff {c d : Char} (hd : d.toNat < 65 ∨ (90 < d.toNat ∧ d.toNat < 97)) : c.toLower = d ↔ c = d := by
  rcases toLower_cases c with ⟨hfrom, hto, hlower⟩ | ⟨-, hsame⟩
  · constructor
    · rintro rfl
      omega
    · rintro rfl
      omega
  · rw [hsame]

theorem toLower_toLower (c : Char) : c.toLower.toLower = c.toLower := by
  rcases toLower_cases c with ⟨hfrom, hto, hlower⟩ | ⟨-, hsame⟩
  · rcases toLower_cases c.toLower with ⟨hfrom', hto', -⟩ | ⟨-, hsame⟩
    · omega
    · exact hsame
  · rw [hsame, hsame]

theorem lower_lower (s : List Char) : lower (lower s) = lower s := by
  rw [lower, lower, List.map_map]
  exact List.map_congr_left fun c _ => toLower_toLower c

/-- **Lower case leaves the blanks** where they are. -/
theorem trim_lower (s : List Char) : trim (lower s) = lower (trim s) := by
  have hdrop : ∀ t, (lower t).dropWhile isBlank = lower (t.dropWhile isBlank) := fun t => by
    rw [lower, lower, List.dropWhile_map]
    exact congrArg (List.map _ <| List.dropWhile · t) (funext fun c => isBlank_toLower c)
  have hreverse : ∀ t, (lower t).reverse = lower t.reverse := fun t => List.map_reverse.symm
  rw [trim, trim, trimRight, trimRight, hdrop, hreverse, hdrop, hreverse]

theorem mem_lower_iff {s : List Char} {d : Char} (hd : d.toNat < 65 ∨ (90 < d.toNat ∧ d.toNat < 97)) :
    d ∈ lower s ↔ d ∈ s := by
  rw [lower, List.mem_map]
  constructor
  · rintro ⟨c, hc, hcd⟩
    rwa [← (toLower_eq_iff hd).1 hcd]
  · exact fun h => ⟨d, h, (toLower_eq_iff hd).2 rfl⟩

theorem head?_lower_iff {s : List Char} {d : Char} (hd : d.toNat < 65 ∨ (90 < d.toNat ∧ d.toNat < 97)) :
    (lower s).head? = some d ↔ s.head? = some d := by
  cases s with
  | nil => exact Iff.rfl
  | cons c s =>
    rw [lower, List.map_cons, List.head?_cons, List.head?_cons, Option.some.injEq, Option.some.injEq, toLower_eq_iff hd]

/-! ## Cutting -/

theorem splitAt?_append {c : Char} {s : List Char} (h : c ∉ s) (rest : List Char) :
    splitAt? c (s ++ c :: rest) = some (s, rest) := by
  induction s with
  | nil => rw [List.nil_append, splitAt?, if_pos rfl]
  | cons d s ih =>
    rw [List.mem_cons, not_or] at h
    rw [List.cons_append, splitAt?, if_neg (Ne.symm h.1), ih h.2, Option.map_some]

theorem splitAt?_eq_none {c : Char} {s : List Char} (h : c ∉ s) : splitAt? c s = none := by
  induction s with
  | nil => rfl
  | cons d s ih =>
    rw [List.mem_cons, not_or] at h
    rw [splitAt?, if_neg (Ne.symm h.1), ih h.2, Option.map_none]

theorem pieces_append {c : Char} {s : List Char} (h : c ∉ s) (rest : List Char) :
    pieces c (s ++ c :: rest) = s :: pieces c rest := by
  induction s with
  | nil => rw [List.nil_append, pieces, if_pos rfl]
  | cons d s ih =>
    rw [List.mem_cons, not_or] at h
    rw [List.cons_append, pieces, if_neg (Ne.symm h.1), ih h.2]

theorem pieces_eq_singleton {c : Char} {s : List Char} (h : c ∉ s) : pieces c s = [s] := by
  induction s with
  | nil => rfl
  | cons d s ih =>
    rw [List.mem_cons, not_or] at h
    rw [pieces, if_neg (Ne.symm h.1), ih h.2]

theorem pieces_ne_nil {α : Type} [DecidableEq α] (c : α) (s : List α) : pieces c s ≠ [] := by
  cases s with
  | nil => exact List.cons_ne_nil _ _
  | cons d s =>
    rw [pieces]
    split_ifs
    · exact List.cons_ne_nil _ _
    · split
      · exact List.cons_ne_nil _ _
      · exact List.cons_ne_nil _ _

/-! ## Words -/

/-- a character begins a word of its own before a blank, and is the first of the next word before any other -/
theorem words_cons_cons (c d : Char) (s : List Char) :
    words (c :: d :: s) =
      if isBlank c then words (d :: s)
      else if isBlank d then [c] :: words (d :: s)
      else match words (d :: s) with
        | [] => [[c]]
        | w :: rest => (c :: w) :: rest := Eq.refl _

theorem words_blank {b : Char} (hb : isBlank b = true) (s : List Char) : words (b :: s) = words s := if_pos hb

/-- **A word** ends at the first blank. -/
theorem words_append {w : List Char} (hne : w ≠ []) (hw : ∀ c ∈ w, isBlank c = false) {b : Char} (hb : isBlank b = true)
    (s : List Char) : words (w ++ b :: s) = w :: words s := by
  induction w with
  | nil => exact absurd rfl hne
  | cons c w ih =>
    obtain ⟨hc, hw⟩ := List.forall_mem_cons.1 hw
    cases w with
    | nil => rw [List.singleton_append, words_cons_cons, hc, hb, words_blank hb]; rfl
    | cons d w =>
      have hd : isBlank d = false := hw d List.mem_cons_self
      rw [List.cons_append, List.cons_append, words_cons_cons, hc, hd, ← List.cons_append, ih (List.cons_ne_nil d w) hw]
      rfl

/-! ## Lines -/

/-- the first line ends at the first line feed -/
theorem headD_lines {l : List Char} (h : '\n' ∉ l) (rest : List Char) :
    (lines (l ++ '\n' :: rest)).headD [] = dropReturn l := by
  obtain ⟨ended, last, hlast⟩ := (List.eq_nil_or_concat (pieces '\n' rest)).resolve_left (pieces_ne_nil _ _)
  rw [lines, pieces_append h, hlast, List.concat_eq_append, List.reverse_cons, List.reverse_append, List.reverse_singleton,
    List.singleton_append, List.cons_append]
  simp only [List.map_append, List.map_singleton, List.reverse_append, List.reverse_singleton, List.singleton_append]
  split_ifs <;> rfl

theorem pieces_terminated {ls : List (List Char)} (h : ∀ l ∈ ls, '\n' ∉ l) : pieces '\n' (terminated ls) = ls ++ [[]] := by
  induction ls with
  | nil => rfl
  | cons l ls ih =>
    rw [List.forall_mem_cons] at h
    rw [terminated, List.flatMap_cons, List.append_assoc, List.singleton_append, pieces_append h.1, ← terminated, ih h.2,
      List.cons_append]

theorem dropReturn_eq {l : List Char} (h : l.getLast? ≠ some '\r') : dropReturn l = l := by
  rw [dropReturn]
  split
  · rename_i heq
    rw [← List.head?_reverse, heq] at h
    exact absurd rfl h
  · rfl

/-- a carriage return before the line feed is not part of the line -/
theorem dropReturn_append (l : List Char) : dropReturn (l ++ ['\r']) = l := by
  simp [dropReturn]

/-- **Lines are read back** when each was ended by a line feed. -/
theorem lines_terminated {ls : List (List Char)} (h : ∀ l ∈ ls, '\n' ∉ l ∧ l.getLast? ≠ some '\r') :
    lines (terminated ls) = ls := by
  have hmap : ls.map dropReturn = ls := by
    rw [List.map_congr_left fun l hl => dropReturn_eq (h l hl).2, List.map_id']
  rw [lines, pieces_terminated fun l hl => (h l hl).1, List.reverse_append, List.reverse_singleton, List.singleton_append]
  simp only [List.isEmpty_nil, if_true, List.map_reverse, List.reverse_reverse, hmap]

/-! ## The start of a text -/

theorem stripStart?_append (p s : List Char) : stripStart? p (p ++ s) = some s := by
  induction p with
  | nil => rfl
  | cons c p ih => rw [List.cons_append, stripStart?, if_pos rfl, ih]

end EdgeTunnel.Text
