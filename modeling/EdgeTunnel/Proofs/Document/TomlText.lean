/-
TOML texts that are written and read back.

The writer picks one of six forms for a text, and the reader tells them by their opening quotes. Between double quotes a
character is spelled alone (`spelled`), except that up to two double quotes in a row stand for themselves in the multi-line
form; these may touch the closing quotes, which the reader counts back.

- `basic_escaped`, `multiBasic_escaped`: what is escaped is read back, whatever the text.
- `literal_append`, `multiLiteral_append`: what stands for itself is read back, when it may stand.
- `string_textValue`: so every text is read back in the form it was written in.
-/
import EdgeTunnel.Document.Toml.Scalar
import EdgeTunnel.Document.Toml.Writer
import Mathlib.Tactic

namespace EdgeTunnel.Toml

/-! ## Escapes -/

/-- how a character other than a double quote is spelled between double quotes -/
def spelled (multiline : Bool) (c : Char) : List Char :=
  match c with
  | '\x08' => ['\\', 'b']
  | '\t' => ['\\', 't']
  | '\n' => if multiline then ['\n'] else ['\\', 'n']
  | '\x0c' => ['\\', 'f']
  | '\r' => ['\\', 'r']
  | '\\' => ['\\', '\\']
  | c => if isCode c then ['\\', 'u'] ++ fourDigits c.toNat else [c]

theorem escaped_cons {c : Char} (hc : c ≠ '"') (multiline : Bool) (most run : Nat) (r : List Char) :
    escaped multiline most run (c :: r) = spelled multiline c ++ escaped multiline most 0 r := by
  unfold spelled
  split
  · rfl
  · rfl
  · cases multiline <;> rfl
  · rfl
  · rfl
  · rfl
  · rw [escaped] <;> first | assumption | skip
    split_ifs <;> rfl

theorem escaped_quote (multiline : Bool) (most run : Nat) (r : List Char) :
    escaped multiline most run ('"' :: r) =
      if run < most then '"' :: escaped multiline most (run + 1) r else '\\' :: '"' :: escaped multiline most 0 r := by
  rw [escaped]

/-- four digits read back as the character they number -/
theorem fourDigits_spec {c : Char} (hc : isCode c = true) :
    ∃ a b d e, fourDigits c.toNat = [a, b, d, e] ∧ scalar? [a, b, d, e] = some c := by
  have hlt : c.toNat < 128 := by
    simp only [isCode, Bool.or_eq_true, Bool.and_eq_true, decide_eq_true_eq, beq_iff_eq] at hc
    omega
  have hall : ∀ n < 128, (fourDigits n).length = 4 ∧ scalar? (fourDigits n) = some (Char.ofNat n) := by decide +kernel
  obtain ⟨hlength, hscalar⟩ := hall _ hlt
  obtain ⟨a, b, d, e, heq⟩ := List.length_eq_four.1 hlength
  rw [Char.ofNat_toNat, heq] at hscalar
  exact ⟨a, b, d, e, heq, hscalar⟩

theorem isPlain_of_not_isCode {c : Char} (hcode : isCode c = false) (hfeed : c ≠ '\n') : isPlain c = true := by
  simp only [isCode, Bool.or_eq_false_iff, Bool.and_eq_false_iff, decide_eq_false_iff_not, bne_eq_false_iff_eq,
    beq_eq_false_iff_ne] at hcode
  simp only [isPlain, Bool.or_eq_true, Bool.and_eq_true, decide_eq_true_eq, bne_iff_ne, beq_iff_eq]
  obtain ⟨(hlow | rfl) | rfl, hdel⟩ := hcode
  · exact .inr ⟨by omega, hdel⟩
  · exact .inl rfl
  · exact absurd rfl hfeed

/-- what is spelled is not a double quote -/
theorem head?_spelled {c : Char} (hc : c ≠ '"') (multiline : Bool) : ∃ d r, spelled multiline c = d :: r ∧ d ≠ '"' := by
  unfold spelled
  split
  · exact ⟨_, _, rfl, by decide⟩
  · exact ⟨_, _, rfl, by decide⟩
  · split_ifs <;> exact ⟨_, _, rfl, by decide⟩
  · exact ⟨_, _, rfl, by decide⟩
  · exact ⟨_, _, rfl, by decide⟩
  · exact ⟨_, _, rfl, by decide⟩
  · split_ifs
    · exact ⟨_, _, rfl, by decide⟩
    · exact ⟨_, _, rfl, hc⟩

/-- and of what may stand for itself, only a line feed starts a line -/
theorem head?_spelled_multiline {c : Char} (hc : c ≠ '\n') :
    ∃ d r, spelled true c = d :: r ∧ d ≠ '\n' ∧ d ≠ '\r' := by
  unfold spelled
  split
  · exact ⟨_, _, rfl, by decide⟩
  · exact ⟨_, _, rfl, by decide⟩
  · exact absurd rfl hc
  · exact ⟨_, _, rfl, by decide⟩
  · exact ⟨_, _, rfl, by decide⟩
  · exact ⟨_, _, rfl, by decide⟩
  · rename_i hreturn _
    split_ifs
    · exact ⟨_, _, rfl, by decide⟩
    · exact ⟨_, _, rfl, hc, hreturn⟩

section Spelled

variable {c : Char} {t s rest : List Char}

theorem basic_spelled (hc : c ≠ '"') (h : basic t = some (s, rest)) :
    basic (spelled false c ++ t) = some (c :: s, rest) := by
  unfold spelled
  split
  · simp [basic, escaped?, h]
  · simp [basic, escaped?, h]
  · simp [basic, escaped?, h]
  · simp [basic, escaped?, h]
  · simp [basic, escaped?, h]
  · simp [basic, escaped?, h]
  · rename_i hfeed _ _ hslash
    split_ifs with hcode
    · obtain ⟨a, b, d, e, hdigits, hscalar⟩ := fourDigits_spec hcode
      simp [hdigits, basic, hscalar, h]
    · have hplain : isPlain c = true := isPlain_of_not_isCode (by simpa using hcode) hfeed
      rw [List.singleton_append, basic] <;> simp_all

theorem multiBasic_spelled (hc : c ≠ '"') (h : multiBasic false t = some (s, rest)) :
    multiBasic false (spelled true c ++ t) = some (c :: s, rest) := by
  unfold spelled
  split
  · simp [multiBasic, escaped?, h]
  · simp [multiBasic, escaped?, h]
  · simp [multiBasic, h]
  · simp [multiBasic, escaped?, h]
  · simp [multiBasic, escaped?, h]
  · simp [multiBasic, escaped?, h]
  · rename_i hfeed _ hreturn hslash
    split_ifs with hcode
    · obtain ⟨a, b, d, e, hdigits, hscalar⟩ := fourDigits_spec hcode
      simp [hdigits, multiBasic, hscalar, h]
    · have hplain : isPlain c = true := isPlain_of_not_isCode (by simpa using hcode) hfeed
      rw [List.singleton_append, multiBasic] <;> simp_all

/-- up to two double quotes that something else follows stand for themselves -/
theorem multiBasic_quote (ht : t.head? ≠ some '"') (h : multiBasic false t = some (s, rest)) :
    multiBasic false ('"' :: t) = some ('"' :: s, rest) ∧
      multiBasic false ('"' :: '"' :: t) = some ('"' :: '"' :: s, rest) := by
  have hne : ∀ r, t ≠ '"' :: r := by
    rintro r rfl
    exact ht rfl
  have hone : multiBasic false ('"' :: t) = some ('"' :: s, rest) := by
    rw [multiBasic] <;> simp_all [isPlain]
  refine ⟨hone, ?_⟩
  rw [multiBasic] <;> simp_all [isPlain]

end Spelled

/-! ## Between double quotes -/

theorem closing_of_ne {q : Char} {rest : List Char} (hrest : rest.head? ≠ some q) :
    closing q rest = ([], rest) ∧ closing q (q :: rest) = ([q], rest) ∧ closing q (q :: q :: rest) = ([q, q], rest) := by
  rcases rest with _ | ⟨a, _ | ⟨b, rest⟩⟩
  · simp [closing]
  · simp_all [closing]
  · simp_all [closing]

theorem basic_escaped (s rest : List Char) : basic (escaped false 0 0 s ++ '"' :: rest) = some (s, rest) := by
  induction s with
  | nil => rfl
  | cons c s ih =>
    by_cases hc : c = '"'
    · subst hc
      simp [escaped_quote, basic, escaped?, ih]
    · rw [escaped_cons hc, List.append_assoc]
      exact basic_spelled hc ih

theorem head?_escaped {c : Char} (hc : c ≠ '"') (multiline : Bool) (most run : Nat) (s rest : List Char) :
    (escaped multiline most run (c :: s) ++ rest).head? ≠ some '"' := by
  obtain ⟨d, r, hspelled, hd⟩ := head?_spelled hc multiline
  rw [escaped_cons hc, hspelled]
  simpa using hd

theorem multiBasic_escaped {rest : List Char} (hrest : rest.head? ≠ some '"') (s : List Char) :
    multiBasic false (escaped true 2 0 s ++ '"' :: '"' :: '"' :: rest) = some (s, rest) := by
  obtain ⟨hclose, hclose₁, hclose₂⟩ := closing_of_ne hrest
  induction hn : s.length using Nat.strongRecOn generalizing s with
  | ind n ih =>
    subst hn
    rcases s with _ | ⟨c, s⟩
    · simp [escaped, multiBasic, hclose]
    by_cases hc : c = '"'
    swap
    · rw [escaped_cons hc, List.append_assoc]
      exact multiBasic_spelled hc (ih _ (Nat.lt_succ_self _) s rfl)
    subst hc
    -- one quote: at the end it touches the closing quotes, else the next character decides
    rcases s with _ | ⟨d, s⟩
    · simp [escaped, multiBasic, hclose₁]
    by_cases hd : d = '"'
    swap
    · have hnext := ih _ (Nat.lt_succ_self _) (d :: s) rfl
      have hhead := head?_escaped hd true 2 0 s ('"' :: '"' :: '"' :: rest)
      have hquote := (multiBasic_quote hhead hnext).1
      rw [escaped_cons hd] at hquote
      rw [escaped_quote, if_pos (by decide), escaped_cons hd]
      exact hquote
    subst hd
    -- two quotes: a third one is escaped
    rcases s with _ | ⟨e, s⟩
    · simp [escaped, multiBasic, hclose₂]
    by_cases he : e = '"'
    · subst he
      have hnext := ih s.length (by simp; omega) s rfl
      have hescaped : multiBasic false ('\\' :: '"' :: (escaped true 2 0 s ++ '"' :: '"' :: '"' :: rest)) =
          some ('"' :: s, rest) := by simp [multiBasic, escaped?, hnext]
      rw [escaped_quote, if_pos (by decide), escaped_quote, if_pos (by decide), escaped_quote, if_neg (by decide)]
      exact (multiBasic_quote (by simp) hescaped).2
    · have hnext := ih (s.length + 1) (by simp) (e :: s) rfl
      have hhead := head?_escaped he true 2 0 s ('"' :: '"' :: '"' :: rest)
      have hquotes := (multiBasic_quote hhead hnext).2
      rw [escaped_cons he] at hquotes
      rw [escaped_quote, if_pos (by decide), escaped_quote, if_pos (by decide), escaped_cons he]
      exact hquotes

/-! ## Between single quotes -/

theorem literal_append {s : List Char} (hs : ∀ c ∈ s, isPlain c = true ∧ c ≠ '\'') (rest : List Char) :
    literal (s ++ '\'' :: rest) = some (s, rest) := by
  induction s with
  | nil => rfl
  | cons c s ih =>
    obtain ⟨hplain, hc⟩ := hs c List.mem_cons_self
    have hnext := ih fun d hd => hs d (List.mem_cons_of_mem _ hd)
    rw [List.cons_append, literal] <;> simp_all

/-! ### Runs -/

theorem le_longestRun_go (q : Char) (s : List Char) (best run : Nat) :
    best ≤ longestRun.go q best run s ∧ run ≤ longestRun.go q best run s := by
  induction s generalizing best run with
  | nil => exact ⟨Nat.le_max_left .., Nat.le_max_right ..⟩
  | cons c s ih =>
    rw [longestRun.go]
    split_ifs
    · exact ⟨(ih best (run + 1)).1, (Nat.le_succ _).trans (ih best (run + 1)).2⟩
    · have h := (ih (max best run) 0).1
      exact ⟨(Nat.le_max_left ..).trans h, (Nat.le_max_right ..).trans h⟩

theorem longestRun_go_mono (q : Char) (s : List Char) {best best' run run' : Nat} (hbest : best ≤ best')
    (hrun : run ≤ run') :
    longestRun.go q best run s ≤ longestRun.go q best' run' s := by
  induction s generalizing best best' run run' with
  | nil => exact max_le_max hbest hrun
  | cons c s ih =>
    rw [longestRun.go, longestRun.go]
    split_ifs
    · exact ih hbest (Nat.succ_le_succ hrun)
    · exact ih (max_le_max hbest hrun) le_rfl

theorem longestRun_le_cons (q c : Char) (s : List Char) : longestRun q s ≤ longestRun q (c :: s) := by
  rw [longestRun, longestRun, longestRun.go]
  split_ifs
  · exact longestRun_go_mono q s le_rfl (Nat.zero_le _)
  · exact longestRun_go_mono q s (Nat.zero_le _) le_rfl

theorem three_le_longestRun (q : Char) (s : List Char) : 3 ≤ longestRun q (q :: q :: q :: s) := by
  simp only [longestRun, longestRun.go, if_true]
  exact (le_longestRun_go q s 0 3).2

section Literal

variable {c : Char} {t s rest : List Char}

theorem multiLiteral_cons (hcode : isCode c = false) (hc : c ≠ '\'') (h : multiLiteral t = some (s, rest)) :
    multiLiteral (c :: t) = some (c :: s, rest) := by
  have hreturn : c ≠ '\r' := by
    rintro rfl
    exact absurd hcode (by decide)
  have hstands : (c == '\n' || isPlain c) = true := by
    by_cases hfeed : c = '\n'
    · simp [hfeed]
    · simp [isPlain_of_not_isCode hcode hfeed]
  rw [multiLiteral] <;> simp_all

/-- up to two single quotes that something else follows stand for themselves -/
theorem multiLiteral_quote (ht : t.head? ≠ some '\'') (h : multiLiteral t = some (s, rest)) :
    multiLiteral ('\'' :: t) = some ('\'' :: s, rest) ∧
      multiLiteral ('\'' :: '\'' :: t) = some ('\'' :: '\'' :: s, rest) := by
  have hne : ∀ r, t ≠ '\'' :: r := by
    rintro r rfl
    exact ht rfl
  have hone : multiLiteral ('\'' :: t) = some ('\'' :: s, rest) := by
    rw [multiLiteral] <;> simp_all [isPlain]
  refine ⟨hone, ?_⟩
  rw [multiLiteral] <;> simp_all [isPlain]

end Literal

theorem multiLiteral_append {rest : List Char} (hrest : rest.head? ≠ some '\'') {s : List Char}
    (hs : ∀ c ∈ s, isCode c = false) (hrun : longestRun '\'' s ≤ 2) :
    multiLiteral (s ++ '\'' :: '\'' :: '\'' :: rest) = some (s, rest) := by
  obtain ⟨hclose, hclose₁, hclose₂⟩ := closing_of_ne hrest
  induction hn : s.length using Nat.strongRecOn generalizing s with
  | ind n ih =>
    subst hn
    rcases s with _ | ⟨c, s⟩
    · simp [multiLiteral, hclose]
    have hcode := hs c List.mem_cons_self
    have hs₁ : ∀ x ∈ s, isCode x = false := fun x hx => hs x (List.mem_cons_of_mem _ hx)
    have hrun₁ := (longestRun_le_cons '\'' c s).trans hrun
    by_cases hc : c = '\''
    swap
    · exact multiLiteral_cons hcode hc (ih _ (Nat.lt_succ_self _) hs₁ hrun₁ rfl)
    subst hc
    rcases s with _ | ⟨d, s⟩
    · simp [multiLiteral, hclose₁]
    by_cases hd : d = '\''
    swap
    · have hnext := ih (d :: s).length (Nat.lt_succ_self _) hs₁ hrun₁ rfl
      exact (multiLiteral_quote (by simpa using hd) hnext).1
    subst hd
    rcases s with _ | ⟨e, s⟩
    · simp [multiLiteral, hclose₂]
    have he : e ≠ '\'' := by
      rintro rfl
      have hthree := three_le_longestRun '\'' s
      omega
    have hs₂ : ∀ x ∈ e :: s, isCode x = false := fun x hx => hs₁ x (List.mem_cons_of_mem _ hx)
    have hrun₂ := (longestRun_le_cons '\'' '\'' (e :: s)).trans hrun₁
    have hnext := ih (e :: s).length (by simp) hs₂ hrun₂ rfl
    exact (multiLiteral_quote (by simpa using he) hnext).2

/-! ## Every form -/

/-- does a text go on with something other than a quote? -/
def EndsText (rest : List Char) : Prop := rest.head? ≠ some '"' ∧ rest.head? ≠ some '\''

theorem string_basic {rest : List Char} (hrest : EndsText rest) (s : List Char) :
    string (between ['"'] false s (escaped false 0 0 s) ++ rest) = some (s, rest) := by
  have hread := basic_escaped s rest
  have hbetween : between ['"'] false s (escaped false 0 0 s) ++ rest = '"' :: (escaped false 0 0 s ++ '"' :: rest) := by
    simp [between]
  rw [hbetween]
  -- the quote is not the first of three
  have hone : ∀ r, escaped false 0 0 s ++ '"' :: rest ≠ '"' :: '"' :: r := by
    intro r heq
    cases s with
    | nil =>
      simp only [escaped, List.nil_append, List.cons.injEq, true_and] at heq
      exact hrest.1 (by rw [heq]; rfl)
    | cons c s =>
      by_cases hc : c = '"'
      · subst hc
        simp [escaped_quote] at heq
      · have hhead := head?_escaped hc false 0 0 s ('"' :: rest)
        rw [heq] at hhead
        exact hhead rfl
  rw [string] <;> simp_all

theorem string_literal {rest : List Char} (hrest : EndsText rest) {s : List Char}
    (hs : ∀ c ∈ s, isPlain c = true ∧ c ≠ '\'') : string (between ['\''] false s s ++ rest) = some (s, rest) := by
  have hread := literal_append hs rest
  have hbetween : between ['\''] false s s ++ rest = '\'' :: (s ++ '\'' :: rest) := by simp [between]
  rw [hbetween]
  have hone : ∀ r, s ++ '\'' :: rest ≠ '\'' :: '\'' :: r := by
    intro r heq
    cases s with
    | nil =>
      simp only [List.nil_append, List.cons.injEq, true_and] at heq
      exact hrest.2 (by rw [heq]; rfl)
    | cons c s =>
      simp only [List.cons_append, List.cons.injEq] at heq
      exact (hs c List.mem_cons_self).2 heq.1
  rw [string] <;> simp_all

/-- the line feed at the start of a multi-line form is dropped, and nothing else -/
theorem dropNewline_feed {feeds : Bool} {t : List Char} (ht : feeds = false → newline? t = none) :
    dropNewline ((if feeds then ['\n'] else []) ++ t) = t := by
  cases feeds with
  | true => rfl
  | false => simp [dropNewline, ht rfl]

theorem string_multiBasic {rest : List Char} (hrest : EndsText rest) (s : List Char) :
    string (between ['"', '"', '"'] true s (escaped true 2 0 s) ++ rest) = some (s, rest) := by
  have hread := multiBasic_escaped hrest.1 s
  have hfeed : s.contains '\n' = false → newline? (escaped true 2 0 s ++ '"' :: '"' :: '"' :: rest) = none := by
    intro hnone
    cases s with
    | nil => rfl
    | cons c s =>
      by_cases hc : c = '"'
      · subst hc
        rfl
      · have hne : c ≠ '\n' := by
          rintro rfl
          simp at hnone
        obtain ⟨d, r, hspelled, hd, hr⟩ := head?_spelled_multiline hne
        rw [escaped_cons hc, hspelled, List.cons_append, List.cons_append, newline?.eq_def]
        split <;> simp_all
  have hdrop := dropNewline_feed hfeed
  simp only [between, Bool.true_and, List.append_assoc, List.cons_append, List.nil_append, string]
  rw [hdrop, hread]

theorem string_multiLiteral {rest : List Char} (hrest : EndsText rest) {s : List Char} (hs : ∀ c ∈ s, isCode c = false)
    (hrun : longestRun '\'' s ≤ 2) : string (between ['\'', '\'', '\''] true s s ++ rest) = some (s, rest) := by
  have hread := multiLiteral_append hrest.2 hs hrun
  have hfeed : s.contains '\n' = false → newline? (s ++ '\'' :: '\'' :: '\'' :: rest) = none := by
    intro hnone
    cases s with
    | nil => rfl
    | cons c s =>
      have hc := hs c List.mem_cons_self
      rw [newline?.eq_def]
      split
      · simp_all
      · simp_all [isCode]
      · rfl
  have hdrop := dropNewline_feed hfeed
  simp only [between, Bool.true_and, List.append_assoc, List.cons_append, List.nil_append, string]
  rw [hdrop, hread]

/-- **Every text is read back** in the form it was written in. -/
theorem string_textValue {rest : List Char} (hrest : EndsText rest) (s : List Char) :
    string (textValue s ++ rest) = some (s, rest) := by
  unfold textValue
  dsimp only
  split_ifs with hquotes hsingle hdouble hsingles hfeeds
  · exact string_basic hrest s
  · simp only [Bool.and_eq_true, Bool.not_eq_true', List.any_eq_false, List.contains_eq_mem,
      decide_eq_false_iff_not] at hsingle
    obtain ⟨⟨hcodes, hfeed⟩, hnone⟩ := hsingle
    refine string_literal hrest fun c hc => ⟨isPlain_of_not_isCode (by simpa using hcodes c hc) ?_, ?_⟩
    · rintro rfl
      exact hfeed hc
    · rintro rfl
      exact hnone hc
  · exact string_multiBasic hrest s
  · simp only [Bool.and_eq_true, Bool.not_eq_true', List.any_eq_false, decide_eq_true_eq] at hsingles
    exact string_multiLiteral hrest (fun c hc => by simpa using hsingles.1 c hc) hsingles.2
  · exact string_multiBasic hrest s
  · exact string_basic hrest s

end EdgeTunnel.Toml
