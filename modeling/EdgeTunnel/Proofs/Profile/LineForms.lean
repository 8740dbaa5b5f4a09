/-
What a line of a profile is, told from its trimmed text.

- `of_eq_iff`: a line is what the form of its trimmed text says.
- `of_equals`: a line with an equals sign is told from the trimmed texts on its two sides.
- `of_brackets`: so is a line in brackets, from the trimmed name.
-/
import EdgeTunnel.Profile.Meaning
import EdgeTunnel.Proofs.Text.Blank

namespace EdgeTunnel.Profile

open Text

theorem bracketed?_eq_some_iff {t name : List Char} : bracketed? t = some name ↔ t = '[' :: (name ++ [']']) := by
  constructor
  · intro h
    unfold bracketed? at h
    split at h
    · rename_i r
      split at h
      · rename_i inner heq
        obtain rfl := Option.some.inj h
        rw [← List.reverse_eq_iff.2 heq.symm]
        simp
      · cases h
    · cases h
  · rintro rfl
    simp [bracketed?]

theorem Plain.bracketed? {t : List Char} (h : Plain t) : bracketed? t = none := by
  rw [Option.eq_none_iff_forall_not_mem]
  exact fun name hname => h.2.2.2 name (bracketed?_eq_some_iff.1 hname)

/-- a plain text is a pair or malformed -/
theorem of_plain {raw t : List Char} (ht : trim raw = t) (h : Plain t) :
    Line.of raw = ((splitAt? '=' t).map fun p => Line.pair (trim p.1) (trim p.2)).getD .malformed := by
  have hbrackets := h.bracketed?
  obtain ⟨hne, hhash, hsemicolon, -⟩ := h
  rw [Line.of]
  simp only [ht]
  split
  · exact absurd rfl hne
  · exact absurd rfl hhash
  · exact absurd rfl hsemicolon
  · rw [hbrackets]
    cases splitAt? '=' t <;> rfl

theorem of_form {raw : List Char} {l : Line} (h : Line.Form (trim raw) l) : Line.of raw = l := by
  generalize ht : trim raw = t at h
  cases h with
  | blank => rw [Line.of, ht]
  | comment mark =>
    rw [Line.of, ht]
    rcases mark with rfl | rfl <;> rfl
  | @header name =>
    have hbrackets : bracketed? ('[' :: (name ++ [']'])) = some name := bracketed?_eq_some_iff.2 rfl
    rw [Line.of, ht]
    simp only [hbrackets]
    rfl
  | pair plain first => rw [of_plain ht plain, splitAt?_append first, Option.map_some, Option.getD_some]
  | malformed plain unequal => rw [of_plain ht plain, splitAt?_eq_none unequal, Option.map_none, Option.getD_none]

theorem exists_form (t : List Char) : ∃ l, Line.Form t l := by
  by_cases hplain : Plain t
  · by_cases hequals : '=' ∈ t
    · obtain ⟨key, value, rfl, first⟩ := List.eq_append_cons_of_mem hequals
      exact ⟨_, .pair hplain first⟩
    · exact ⟨_, .malformed hplain hequals⟩
  · by_cases hname : ∃ name, t = '[' :: (name ++ [']'])
    · obtain ⟨name, rfl⟩ := hname
      exact ⟨_, .header⟩
    · cases t with
      | nil => exact ⟨_, .blank⟩
      | cons c r =>
        refine ⟨_, .comment (r := r) (c := c) ?_⟩
        by_contra hmark
        rw [not_or] at hmark
        exact hplain ⟨List.cons_ne_nil _ _, by simpa using hmark.1, by simpa using hmark.2, fun name h => hname ⟨name, h⟩⟩

/-- **A line is what the form of its trimmed text says.** -/
theorem of_eq_iff {raw : List Char} {l : Line} : Line.of raw = l ↔ Line.Form (trim raw) l := by
  refine ⟨?_, of_form⟩
  rintro rfl
  obtain ⟨l, hl⟩ := exists_form (trim raw)
  rwa [of_form hl]

/-! ## Names and keys -/

theorem mem_trim {s : List Char} {c : Char} (hc : isBlank c = false) (h : c ∈ s) : c ∈ trim s := by
  obtain ⟨before, after, hbefore, hafter, hs⟩ := exists_padding s
  have hout : ∀ {t}, Blanks t → c ∉ t := fun ht hmem => by
    rw [ht c hmem] at hc
    cases hc
  rw [hs, List.append_assoc, List.mem_append, List.mem_append] at h
  exact (h.resolve_left (hout hbefore)).resolve_right (hout hafter)

/-- a name with an equals sign is that of another section -/
theorem ofName_equals {name : List Char} (h : '=' ∈ name) : Place.ofName name = .other := by
  have hmem : '=' ∈ lower (trim name) := (mem_lower_iff (by decide)).2 (mem_trim (by decide) h)
  have hne : ∀ s : List Char, '=' ∉ s → lower (trim name) ≠ s := fun s hs heq => hs (heq ▸ hmem)
  rw [Place.ofName]
  simp only [if_neg (hne "interface".toList (by decide)), if_neg (hne "peer".toList (by decide))]

/-- a section is known by its name in lower case without the blanks around it -/
theorem ofName_congr {name name' : List Char} (h : lower (trim name) = lower (trim name')) :
    Place.ofName name = Place.ofName name' := by
  rw [Place.ofName, Place.ofName]
  simp only [h]

/-- **A line in brackets** is the header of the section of its name. -/
theorem of_brackets {before after : List Char} (hb : Blanks before) (ha : Blanks after) (name : List Char) :
    Line.of (before ++ ('[' :: (name ++ [']'])) ++ after) = .header (.ofName name) := by
  refine of_form ?_
  have htrimmed : Trimmed ('[' :: (name ++ [']'])) := by
    refine ⟨fun c hc => ?_, fun c hc => ?_⟩
    · obtain rfl := Option.some.inj hc
      rfl
    · rw [← List.cons_append, List.getLast?_concat] at hc
      obtain rfl := Option.some.inj hc
      rfl
  rw [trim_padded hb ha, trim_eq htrimmed]
  exact .header

theorem head?_append_equals {c : Char} (hc : c ≠ '=') {a b : List Char} :
    (a ++ '=' :: b).head? = some c ↔ a.head? = some c := by
  cases a with
  | nil => simp [hc.symm]
  | cons d a => simp

theorem getLast?_append_equals {c : Char} (hc : c ≠ '=') {a b : List Char} :
    (a ++ '=' :: b).getLast? = some c ↔ b.getLast? = some c := by
  rcases List.eq_nil_or_concat b with rfl | ⟨b, d, rfl⟩
  · simp [hc.symm]
  · rw [List.concat_eq_append, ← List.cons_append, ← List.append_assoc, List.getLast?_concat, List.getLast?_concat]

theorem plain_equals {a b : List Char} (hmark : ¬ (a.head? = some '#' ∨ a.head? = some ';'))
    (hbrackets : ¬ (a.head? = some '[' ∧ b.getLast? = some ']')) : Plain (a ++ '=' :: b) := by
  rw [not_or] at hmark
  refine ⟨by simp, ?_, ?_, fun name hname => hbrackets ⟨?_, ?_⟩⟩
  · rw [Ne, head?_append_equals (by decide)]
    exact hmark.1
  · rw [Ne, head?_append_equals (by decide)]
    exact hmark.2
  · rw [← head?_append_equals (b := b) (by decide), hname]
    rfl
  · rw [← getLast?_append_equals (a := a) (by decide), hname, ← List.cons_append, List.getLast?_concat]

/-- the form of a line whose first equals sign stands between texts that are trimmed on the outer side -/
theorem form_equals {a : List Char} (first : '=' ∉ a) (b : List Char) :
    Line.Form (a ++ '=' :: b)
      (if a.head? = some '#' ∨ a.head? = some ';' then .skipped
      else if a.head? = some '[' ∧ b.getLast? = some ']' then .header .other
      else .pair (trim a) (trim b)) := by
  split_ifs with hmark hbrackets
  · cases a with
    | nil => simp at hmark
    | cons c a =>
      refine .comment (hmark.imp ?_ ?_)
      · exact fun h => Option.some.inj h
      · exact fun h => Option.some.inj h
  · obtain ⟨a, rfl⟩ := List.head?_eq_some_iff.1 hbrackets.1
    obtain ⟨b, rfl⟩ := List.getLast?_eq_some_iff.1 hbrackets.2
    have hname : '[' :: a ++ '=' :: (b ++ [']']) = '[' :: ((a ++ '=' :: b) ++ [']']) := by simp
    have hother : Place.ofName (a ++ '=' :: b) = .other := ofName_equals (by simp)
    rw [hname, ← hother]
    exact .header
  · exact .pair (plain_equals hmark hbrackets) first

/-- **A line with an equals sign** is told from the texts before and after the first one, without the blanks around them. -/
theorem of_equals {key : List Char} (first : '=' ∉ key) (value : List Char) :
    Line.of (key ++ '=' :: value) =
      if (trim key).head? = some '#' ∨ (trim key).head? = some ';' then .skipped
      else if (trim key).head? = some '[' ∧ (trim value).getLast? = some ']' then .header .other
      else .pair (trim key) (trim value) := by
  have hfirst : '=' ∉ key.dropWhile isBlank := fun hmem => first ((List.dropWhile_suffix _).subset hmem)
  refine of_form ?_
  rw [trim_append_cons (by decide), head?_trim, getLast?_trim, ← trim_dropWhile key, ← trim_trimRight value]
  exact form_equals hfirst _

end EdgeTunnel.Profile
