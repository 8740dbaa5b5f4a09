/-
The layout of a profile does not matter.

A change within a line leaves what the line is, up to the case of its key (`folded_of_edit`), and reading asks for a key in
lower case only. A line that says nothing is skipped wherever it stands, so lines that are put between others change nothing
but the numbers of those after them (`readLines_spaced`).

- `layout_free`: both for whole texts.
-/
import EdgeTunnel.Profile.Layout
import EdgeTunnel.Proofs.Profile.Meaning

namespace EdgeTunnel.Profile

open Text

/-! ## Lines up to the case of their keys -/

/-- a line with its key in lower case -/
def Line.folded : Line → Line
  | .pair key value => .pair (lower key) value
  | l => l

theorem step_folded (place : Place) (p : Profile) (n : Nat) (l : Line) : step place p n l.folded = step place p n l := by
  cases l with
  | pair key value => cases place <;> simp only [Line.folded, step, setInterface, setPeer, lower_lower]
  | _ => rfl

/-- reading looks at lines up to the case of their keys -/
theorem readLines_congr {ls ls' : List (List Char)}
    (h : List.Forall₂ (fun l l' => (Line.of l).folded = (Line.of l').folded) ls ls')
    (place : Place) (p : Profile) (n : Nat) : readLines place p n ls = readLines place p n ls' := by
  induction h generalizing place p n with
  | nil => rfl
  | cons hline _ ih =>
    rw [readLines, readLines, ← step_folded, hline, step_folded]
    simp only [ih]

theorem of_trim {raw raw' : List Char} (h : trim raw = trim raw') : Line.of raw = Line.of raw' := by
  rw [of_eq_iff, h, ← of_eq_iff]

theorem notMem_append_blanks {c : Char} (hc : isBlank c = false) {s b : List Char} (h : c ∉ s) (hb : Blanks b) :
    c ∉ s ++ b := by
  rw [List.mem_append, not_or]
  refine ⟨h, fun hmem => ?_⟩
  rw [hb c hmem] at hc
  cases hc

theorem folded_of_keyCase {key key' : List Char} (first : '=' ∉ key) (same : lower key = lower key') (value : List Char) :
    (Line.of (key ++ '=' :: value)).folded = (Line.of (key' ++ '=' :: value)).folded := by
  have first' : '=' ∉ key' := by rwa [← mem_lower_iff (by decide), ← same, mem_lower_iff (by decide)]
  have htrim : lower (trim key) = lower (trim key') := by rw [← trim_lower, same, trim_lower]
  have hhead : ∀ {d : Char}, d.toNat < 65 ∨ (90 < d.toNat ∧ d.toNat < 97) →
      ((trim key).head? = some d ↔ (trim key').head? = some d) := fun hd => by
    rw [← head?_lower_iff hd, htrim, head?_lower_iff hd]
  have hhash := hhead (d := '#') (by decide)
  have hsemicolon := hhead (d := ';') (by decide)
  have hbracket := hhead (d := '[') (by decide)
  rw [of_equals first, of_equals first']
  simp only [hhash, hsemicolon, hbracket]
  split_ifs
  · rfl
  · rfl
  · simp only [Line.folded, htrim]

/-- **A change within a line** leaves what the line is, up to the case of its key. -/
theorem folded_of_edit {l l' : List Char} (h : LineEdit l l') : (Line.of l).folded = (Line.of l').folded := by
  cases h with
  | ends hb ha => rw [of_trim (trim_padded hb ha l)]
  | @equals key value before after first hb ha =>
    have first' : '=' ∉ key ++ before := notMem_append_blanks (by decide) first hb
    rw [of_equals first, of_equals first', trim_append_blanks hb, trim_blanks_append ha]
  | @brackets u v name before after hu hv hb ha =>
    rw [of_brackets hu hv, of_brackets hu hv, ofName_congr (congrArg lower (trim_padded hb ha name))]
  | keyCase first same => exact folded_of_keyCase first same _
  | @nameCase u v name name' hu hv same =>
    have hname : Place.ofName name = Place.ofName name' := ofName_congr (by rw [← trim_lower, same, trim_lower])
    rw [of_brackets hu hv, of_brackets hu hv, hname]

theorem folded_of_edits {l l' : List Char} (h : Relation.ReflTransGen LineEdit l l') :
    (Line.of l).folded = (Line.of l').folded := by
  induction h with
  | refl => rfl
  | tail _ hedit ih => rw [ih, folded_of_edit hedit]

/-! ## Lines that say nothing -/

theorem Idle.skipped {l : List Char} (h : Idle l) : Line.of l = .skipped := by
  refine of_form ?_
  cases h with
  | blank h =>
    have hnil : trim l = [] := by
      rw [← List.append_nil l, trim_blanks_append h]
      rfl
    rw [hnil]
    exact .blank
  | @comment before rest mark hb hash =>
    have hmark : isBlank mark = false := by rcases hash with rfl | rfl <;> decide
    rw [trim_append_cons hmark, List.dropWhile_eq_nil_iff.2 hb]
    exact .comment hash

theorem readLines_skipped {l : List Char} (h : Line.of l = .skipped) (place : Place) (p : Profile) (n : Nat)
    (ls : List (List Char)) : readLines place p n (l :: ls) = readLines place p (n + 1) ls := by
  rw [readLines, h]
  rfl

theorem readLines_extra {extra : List (List Char)} (h : ∀ l ∈ extra, Idle l) (place : Place) (p : Profile) (n : Nat)
    (ls : List (List Char)) : readLines place p n (extra ++ ls) = readLines place p (n + extra.length) ls := by
  induction extra generalizing n with
  | nil => rfl
  | cons l extra ih =>
    obtain ⟨hl, hextra⟩ := List.forall_mem_cons.1 h
    rw [List.cons_append, readLines_skipped hl.skipped, ih hextra, List.length_cons, Nat.add_assoc, Nat.add_comm 1]

theorem readLines_atEnd {extra : List (List Char)} (h : ∀ l ∈ extra, Idle l) (ls : List (List Char)) (place : Place)
    (p : Profile) (n : Nat) : readLines place p n (ls ++ extra) = readLines place p n ls := by
  induction ls generalizing place p n with
  | nil =>
    have hskip := readLines_extra h place p n []
    rwa [List.append_nil] at hskip
  | cons l ls ih => simp only [List.cons_append, readLines, ih]

/-! ## Numbers of lines -/

/-- the error of a line carries the number of the line -/
theorem fault?_renumbered (f : Nat → Nat) (n : Nat) (place : Place) (l : Line) :
    Placed.fault? ⟨f n, place, l⟩ = (Placed.fault? ⟨n, place, l⟩).map (·.renumbered f) := by
  cases l with
  | pair key value =>
    simp only [Placed.fault?]
    split_ifs
    · rfl
    · rw [Option.map_map]
      rfl
  | malformed => rfl
  | _ => rfl

theorem step_renumbered (f : Nat → Nat) (place : Place) (p : Profile) (n : Nat) (l : Line) :
    step place p (f n) l = (step place p n l).mapError (·.renumbered f) := by
  rw [step_eq, step_eq, fault?_renumbered]
  cases Placed.fault? ⟨n, place, l⟩ <;> rfl

/-- **Lines that say nothing** change the numbers of the lines after them, and nothing else. -/
theorem readLines_spaced {ls : List Preceded} {atEnd : List (List Char)} (hextra : ∀ l ∈ ls, ∀ x ∈ l.extra, Idle x)
    (hend : ∀ x ∈ atEnd, Idle x) {f : Nat → Nat} {n n' : Nat} (hf : ∀ i, f (n + i) = n' + i + putBefore ls (i + 1))
    (place : Place) (p : Profile) :
    readLines place p n' (spaced ls atEnd) = (readLines place p n (ls.map (·.line))).mapError (·.renumbered f) := by
  induction ls generalizing place p n n' with
  | nil => exact readLines_atEnd hend [] ..
  | cons l ls ih =>
    obtain ⟨hl, hls⟩ := List.forall_mem_cons.1 hextra
    have hspaced : spaced (l :: ls) atEnd = l.extra ++ l.line :: spaced ls atEnd := by
      simp [spaced]
    have hcount : ∀ i, putBefore (l :: ls) (i + 1) = l.extra.length + putBefore ls i := fun i => by
      simp [putBefore]
    have hhere : n' + l.extra.length = f n := by
      have h := hf 0
      simp only [Nat.add_zero, hcount] at h
      simpa [putBefore] using h.symm
    have hnext : ∀ i, f (n + 1 + i) = f n + 1 + i + putBefore ls (i + 1) := fun i => by
      have h := hf (i + 1)
      rw [hcount] at h
      rw [Nat.add_assoc, Nat.add_comm 1, h, ← hhere]
      omega
    rw [hspaced, readLines_extra hl, hhere, readLines, step_renumbered, List.map_cons, readLines]
    cases step place p n (Line.of l.line) with
    | error e => rfl
    | ok next => exact ih hls hnext ..

/-! ## Whole texts -/

theorem lines_eq {s : List Char} {ended : List (List Char)} {last : List Char} (h : pieces '\n' s = ended ++ [last]) :
    lines s = ended.map dropReturn ++ if last.isEmpty then [] else [last] := by
  rw [lines, h, List.reverse_append, List.reverse_singleton, List.singleton_append]
  simp only [List.map_reverse, List.reverse_reverse]
  split_ifs
  · rw [List.append_nil]
  · rfl

theorem exists_dropReturn (l : List Char) : ∃ r, Blanks r ∧ l = dropReturn l ++ r := by
  by_cases hlast : l.getLast? = some '\r'
  · obtain ⟨t, rfl⟩ := List.getLast?_eq_some_iff.1 hlast
    exact ⟨['\r'], List.forall_mem_singleton.2 rfl, by rw [dropReturn_append]⟩
  · exact ⟨[], blanks_nil, by rw [dropReturn_eq hlast, List.append_nil]⟩

theorem folded_dropReturn (l : List Char) : (Line.of (dropReturn l)).folded = (Line.of l).folded := by
  obtain ⟨r, hr, hl⟩ := exists_dropReturn l
  conv_rhs => rw [hl, of_trim (trim_append_blanks hr _)]

/-- reading goes over what stands between line feeds: neither a carriage return nor an empty end matters -/
theorem readLines_lines (place : Place) (p : Profile) (n : Nat) (s : List Char) :
    readLines place p n (lines s) = readLines place p n (pieces '\n' s) := by
  obtain ⟨ended, last, hpieces⟩ := (List.eq_nil_or_concat (pieces '\n' s)).resolve_left (pieces_ne_nil _ _)
  rw [List.concat_eq_append] at hpieces
  have hended : List.Forall₂ (fun l l' => (Line.of l).folded = (Line.of l').folded) (ended.map dropReturn) ended :=
    List.forall₂_map_left_iff.2 (List.forall₂_same.2 fun l _ => folded_dropReturn l)
  rw [lines_eq hpieces, hpieces]
  split_ifs with hempty
  · have hidle : ∀ l ∈ [last], Idle l := by
      rw [List.forall_mem_singleton, List.isEmpty_iff.1 hempty]
      exact .blank blanks_nil
    rw [List.append_nil, readLines_atEnd hidle, readLines_congr hended]
  · exact readLines_congr (List.rel_append hended (List.forall₂_same.2 fun _ _ => rfl)) ..

theorem parse_eq (text : String) : parse text = (readLines .outside {} 1 (pieces '\n' text.toList)).bind complete := by
  rw [parse, readLines_lines]
  rfl

theorem parse_relaid {text text' : String} (h : Relaid text.toList text'.toList) : parse text' = parse text := by
  rw [parse_eq, parse_eq, readLines_congr (h.imp fun _ _ hedits => folded_of_edits hedits)]

/-- carriage returns are blanks at the ends of lines -/
theorem forall₂_withReturns (s : List Char) :
    List.Forall₂ (fun l l' => ∃ r, Blanks r ∧ l' = l ++ r) (pieces '\n' s) (pieces '\n' (withReturns s)) := by
  induction s with
  | nil => exact .cons ⟨[], blanks_nil, rfl⟩ .nil
  | cons c s ih =>
    by_cases hc : c = '\n'
    · subst hc
      have hreturn : withReturns ('\n' :: s) = ['\r'] ++ '\n' :: withReturns s := rfl
      rw [hreturn, pieces_append (by decide), pieces, if_pos rfl]
      exact .cons ⟨['\r'], List.forall_mem_singleton.2 rfl, rfl⟩ ih
    · have hsame : withReturns (c :: s) = c :: withReturns s := by
        rw [withReturns, List.flatMap_cons, if_neg hc]
        rfl
      rw [hsame, pieces, pieces, if_neg hc, if_neg hc]
      generalize pieces '\n' s = xs, pieces '\n' (withReturns s) = ys at ih
      cases ih with
      | nil => exact .cons ⟨[], blanks_nil, rfl⟩ .nil
      | cons hline hrest =>
        obtain ⟨r, hr, rfl⟩ := hline
        exact .cons ⟨r, hr, rfl⟩ hrest

theorem relaid_withReturns (s : List Char) : Relaid s (withReturns s) := by
  refine (forall₂_withReturns s).imp ?_
  rintro l _ ⟨r, hr, rfl⟩
  exact .single (.ends blanks_nil hr)

/-- an error about a missing key has no line -/
theorem bind_complete_renumbered (f : Nat → Nat) (r : Except ProfileError Profile) :
    (r.mapError (·.renumbered f)).bind complete = (r.bind complete).mapError (·.renumbered f) := by
  cases r with
  | error e => rfl
  | ok p =>
    simp only [Except.mapError, Except.bind, complete]
    split_ifs <;> rfl

/-- **The layout of a profile does not matter.**
- Line feeds and carriage returns before them end a line alike.
- Blanks at the ends of lines, around the first equals sign and inside the brackets of a header change nothing, nor does the
  case of the names of sections and of keys.
- Blank lines and comments that are put anywhere change nothing but the number of the line that an error is in, by as many
  as are put before that line. -/
theorem layout_free (text : String) :
    parse (String.ofList (withReturns text.toList)) = parse text ∧
    (∀ text' : String, Relaid text.toList text'.toList → parse text' = parse text) ∧
    ∀ (ls : List Preceded) (atEnd : List (List Char)) (text' : String), pieces '\n' text.toList = ls.map (·.line) →
      pieces '\n' text'.toList = spaced ls atEnd → (∀ l ∈ ls, ∀ x ∈ l.extra, Idle x) → (∀ x ∈ atEnd, Idle x) →
      parse text' = (parse text).mapError (·.renumbered fun n => n + putBefore ls n) := by
  refine ⟨parse_relaid ?_, fun _ h => parse_relaid h, fun ls atEnd text' hlines hlines' hextra hend => ?_⟩
  · rw [String.toList_ofList]
    exact relaid_withReturns text.toList
  · have hnumbers : ∀ i, (fun n => n + putBefore ls n) (1 + i) = 1 + i + putBefore ls (i + 1) := fun i => by
      rw [Nat.add_comm 1 i]
    rw [parse_eq, parse_eq, hlines, hlines',
      readLines_spaced (f := fun n => n + putBefore ls n) (n := 1) hextra hend hnumbers, bind_complete_renumbered]

/-- a number that cannot be read, in the second line; with other blanks and another case; and with three lines more, one of
them at the end -/
theorem layout_free_of_bad_number :
    let text := "[Interface]\nMTU=big"
    let relaid := "[INTERFACE]\t\nmtu = big"
    let longer := "[Interface]\n# size\n\nMTU=big\n;"
    let ls : List Preceded := [⟨[], "[Interface]".toList⟩, ⟨["# size".toList, []], "MTU=big".toList⟩]
    Relaid text.toList relaid.toList ∧ pieces '\n' text.toList = ls.map (·.line) ∧
      pieces '\n' longer.toList = spaced ls [";".toList] ∧ (∀ l ∈ ls, ∀ x ∈ l.extra, Idle x) ∧
      (∀ x ∈ [";".toList], Idle x) ∧
      parse text = .error (.value 2 "big") ∧ parse (String.ofList (withReturns text.toList)) = .error (.value 2 "big") ∧
      parse relaid = .error (.value 2 "big") ∧ parse longer = .error (.value 4 "big") := by
  intro text relaid longer ls
  have hblank : ∀ {b : Char}, isBlank b = true → Blanks [b] := fun hb => List.forall_mem_singleton.2 hb
  have hheader : Relation.ReflTransGen LineEdit "[Interface]".toList "[INTERFACE]\t".toList := by
    have hname : LineEdit "[Interface]".toList "[INTERFACE]".toList :=
      @LineEdit.nameCase [] [] "Interface".toList "INTERFACE".toList blanks_nil blanks_nil (by decide)
    have hend : LineEdit "[INTERFACE]".toList "[INTERFACE]\t".toList :=
      @LineEdit.ends "[INTERFACE]".toList [] ['\t'] blanks_nil (hblank (by decide))
    exact (Relation.ReflTransGen.single hname).tail hend
  have hnumber : Relation.ReflTransGen LineEdit "MTU=big".toList "mtu = big".toList := by
    have hkey : LineEdit "MTU=big".toList "mtu=big".toList :=
      @LineEdit.keyCase "MTU".toList "mtu".toList "big".toList (by decide) (by decide)
    have hspaces : LineEdit "mtu=big".toList "mtu = big".toList :=
      @LineEdit.equals "mtu".toList "big".toList [' '] [' '] (by decide) (hblank (by decide)) (hblank (by decide))
    exact (Relation.ReflTransGen.single hkey).tail hspaces
  have hlines : pieces '\n' text.toList = ls.map (·.line) := by decide
  have hrelaidLines : pieces '\n' relaid.toList = ["[INTERFACE]\t".toList, "mtu = big".toList] := by decide
  have hlongerLines : pieces '\n' longer.toList = spaced ls [";".toList] := by decide
  have hrelaid : Relaid text.toList relaid.toList := by
    rw [Relaid, hlines, hrelaidLines]
    exact .cons hheader (.cons hnumber .nil)
  have hsize : Idle "# size".toList := @Idle.comment [] " size".toList '#' blanks_nil (.inl rfl)
  have hsemicolon : Idle ";".toList := @Idle.comment [] [] ';' blanks_nil (.inr rfl)
  have hextra : ∀ l ∈ ls, ∀ x ∈ l.extra, Idle x := by
    simp only [ls, List.forall_mem_cons]
    exact ⟨List.forall_mem_nil _, ⟨hsize, .blank blanks_nil, List.forall_mem_nil _⟩, List.forall_mem_nil _⟩
  have hend : ∀ x ∈ [";".toList], Idle x := List.forall_mem_singleton.2 hsemicolon
  have hread : parse text = .error (.value 2 "big") := by decide +kernel
  obtain ⟨hreturns, hedits, hspaced⟩ := layout_free text
  have hlonger := hspaced ls [";".toList] longer hlines hlongerLines hextra hend
  rw [hread] at hlonger
  exact ⟨hrelaid, hlines, hlongerLines, hextra, hend, hread, hreturns.trans hread, (hedits relaid hrelaid).trans hread,
    hlonger⟩

end EdgeTunnel.Profile
