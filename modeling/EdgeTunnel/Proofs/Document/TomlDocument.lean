/-
TOML documents that are written and read back.

A written document is its plain values and then its tables. Reading it line by line, `Reads` says that the text so far has
brought one document to the next; each kind of line has its own lemma, and a whole section follows by induction on its lines.

- `reads_plainLines`, `reads_tables`: the plain values of a record, and its tables.
- `parse_write`: a written record is read back, less its absent values and with its tables at the end.
- `written_of_write`: a record is written only when each of its values is.
-/
import EdgeTunnel.Document.Toml.Writer
import EdgeTunnel.Proofs.Document.TomlValue

namespace EdgeTunnel.Toml

open Text

/-! ## What a record writes -/

/-- can the key be written without quotes? -/
def Bare (k : String) : Prop := k.toList ≠ [] ∧ k.toList.all isBare = true

instance (k : String) : Decidable (Bare k) := inferInstanceAs (Decidable (_ ∧ _))

/-- the plain values of a record -/
def plain : List (Option String × Data) → List (String × Data)
  | [] => []
  | (_, .null) :: r => plain r
  | (_, .record _) :: r => plain r
  | (some k, x) :: r => (k, x) :: plain r
  | (none, _) :: r => plain r

/-- the tables of a record, each with its plain values -/
def sections : List (Option String × Data) → List (String × List (String × Data))
  | [] => []
  | (some k, .record fs) :: r => (k, plain fs) :: sections r
  | _ :: r => sections r

/-- the fields of a record of plain values -/
def fieldsOf (ps : List (String × Data)) : List (Option String × Data) := ps.map fun p => (some p.1, p.2)

theorem fieldsOf_nil : fieldsOf [] = [] := rfl

theorem fieldsOf_cons (p : String × Data) (ps : List (String × Data)) :
    fieldsOf (p :: ps) = (some p.1, p.2) :: fieldsOf ps := rfl

theorem isSome_of_mem_fieldsOf {ps : List (String × Data)} {p : Option String × Data} (h : p ∈ fieldsOf ps) :
    p.1.isSome = true := by
  obtain ⟨q, -, rfl⟩ := List.mem_map.mp h
  rfl

theorem nodup_fieldsOf {ps : List (String × Data)} (h : (ps.map Prod.fst).Nodup) : ((fieldsOf ps).map Prod.fst).Nodup := by
  have hmap : (fieldsOf ps).map Prod.fst = (ps.map Prod.fst).map some := by simp [fieldsOf]
  rw [hmap]
  exact h.map (Option.some_injective _)

/-- what is left of a record once written: the plain values, and then the tables -/
def kept (fields : List (Option String × Data)) : List (String × Data) :=
  plain fields ++ (sections fields).map fun p => (p.1, .record (fieldsOf p.2))

/-- can the record be read back? Its keys are bare, and no key is there twice. -/
structure Readable (fields : List (Option String × Data)) : Prop where
  plain_bare : ∀ p ∈ plain fields, Bare p.1
  sections_bare : ∀ p ∈ sections fields, Bare p.1 ∧ ∀ q ∈ p.2, Bare q.1
  nodup : ((plain fields).map Prod.fst ++ (sections fields).map Prod.fst).Nodup
  sections_nodup : ∀ p ∈ sections fields, (p.2.map Prod.fst).Nodup

theorem Readable.kept_nodup {fields : List (Option String × Data)} (h : Readable fields) :
    ((kept fields).map Prod.fst).Nodup := by
  have hmap : (kept fields).map Prod.fst = (plain fields).map Prod.fst ++ (sections fields).map Prod.fst := by simp [kept]
  rw [hmap]
  exact h.nodup

/-- do all lines have a written form? -/
def Written (ls : List (String × Data)) : Prop := ∀ p ∈ ls, (lineValue p.2).isSome = true

theorem written_nil : Written [] := List.forall_mem_nil _

theorem written_cons {p : String × Data} {ls : List (String × Data)} :
    Written (p :: ls) ↔ (lineValue p.2).isSome = true ∧ Written ls := List.forall_mem_cons

/-- does the record have a written form? Every field has a key, and every plain value is one that TOML can write. -/
structure Writable (fields : List (Option String × Data)) : Prop where
  plain_named : ∀ p ∈ fields, p.1.isSome = true
  sections_named : ∀ k fs, (k, .record fs) ∈ fields → ∀ q ∈ fs, q.1.isSome = true
  plain_written : Written (plain fields)
  sections_written : ∀ p ∈ sections fields, Written p.2

theorem exists_plainLines {fields : List (Option String × Data)} (hnamed : ∀ p ∈ fields, p.1.isSome = true)
    (hwritten : Written (plain fields)) : ∃ text, plainLines fields = some text := by
  fun_induction plain fields with
  | case1 => exact ⟨[], rfl⟩
  | case2 k r ih => exact ih (List.forall_mem_cons.mp hnamed).2 hwritten
  | case3 k fs r ih => exact ih (List.forall_mem_cons.mp hnamed).2 hwritten
  | case4 k x r hnull hrecord ih =>
    obtain ⟨hvalue, hothers⟩ := written_cons.mp hwritten
    obtain ⟨rest, hrest⟩ := ih (List.forall_mem_cons.mp hnamed).2 hothers
    obtain ⟨v, hv⟩ := Option.isSome_iff_exists.mp hvalue
    refine ⟨k.toList ++ " = ".toList ++ v ++ ['\n'] ++ rest, ?_⟩
    rw [plainLines]
    · simp only [hv, hrest, bind, Option.bind]
    · exact hnull
    · exact hrecord
  | case5 x r hnull hrecord ih =>
    cases hnamed _ List.mem_cons_self

theorem exists_tables {fields : List (Option String × Data)} (hnamed : ∀ p ∈ fields, p.1.isSome = true)
    (hinner : ∀ k fs, (k, .record fs) ∈ fields → ∀ q ∈ fs, q.1.isSome = true)
    (hwritten : ∀ p ∈ sections fields, Written p.2) : ∃ text, tables fields = some text := by
  fun_induction sections fields with
  | case1 => exact ⟨[], rfl⟩
  | case2 k fs r ih =>
    obtain ⟨hlines, hothers⟩ := List.forall_mem_cons.mp hwritten
    obtain ⟨rest, hrest⟩ := ih (List.forall_mem_cons.mp hnamed).2
      (fun k fs hp => hinner k fs (List.mem_cons_of_mem _ hp)) hothers
    obtain ⟨body, hbody⟩ := exists_plainLines (hinner _ _ List.mem_cons_self) hlines
    exact ⟨"\n[".toList ++ k.toList ++ "]\n".toList ++ body ++ rest, by simp only [tables, hbody, hrest, bind, Option.bind]⟩
  | case3 p r hrecord ih =>
    have hrest := ih (List.forall_mem_cons.mp hnamed).2 (fun k fs hp => hinner k fs (List.mem_cons_of_mem _ hp)) hwritten
    rw [tables]
    · exact hrest
    · rintro k fs rfl
      obtain ⟨k, rfl⟩ := Option.isSome_iff_exists.mp (hnamed _ List.mem_cons_self)
      exact hrecord k fs rfl

theorem exists_write {fields : List (Option String × Data)} (h : Writable fields) : ∃ s, write fields = some s := by
  obtain ⟨text, htext⟩ := exists_plainLines h.plain_named h.plain_written
  obtain ⟨rest, hrest⟩ := exists_tables h.plain_named h.sections_named h.sections_written
  exact ⟨String.ofList (text ++ rest), by simp only [write, htext, hrest, bind, Option.bind]⟩

/-! ## Tables that grow at their end -/

namespace Table

theorem get?_of_not_mem {o : Origin} {es : List (String × Node)} {k : String} (h : k ∉ es.map Prod.fst) :
    (mk o es).get? k = none := by
  rw [get?, entries, List.lookup_eq_none_iff]
  intro e he
  simpa using fun hk => h (List.mem_map.mpr ⟨e, he, hk.symm⟩)

theorem get?_last {o : Origin} {es : List (String × Node)} {k : String} (h : k ∉ es.map Prod.fst) (x : Node) :
    (mk o (es ++ [(k, x)])).get? k = some x := by
  have hnone := get?_of_not_mem (o := o) h
  rw [get?, entries] at hnone ⊢
  rw [List.lookup_append, hnone]
  simp

theorem put_of_not_mem {o : Origin} {es : List (String × Node)} {k : String} (h : k ∉ es.map Prod.fst) (x : Node) :
    (mk o es).put k x = mk o (es ++ [(k, x)]) := by
  have hany : es.any (·.1 == k) = false := by
    rw [List.any_eq_false]
    exact fun e he => by simpa using fun hk => h (List.mem_map.mpr ⟨e, he, hk⟩)
  simp [put, origin, entries, hany]

theorem put_last {o : Origin} {es : List (String × Node)} {k : String} (h : k ∉ es.map Prod.fst) (x y : Node) :
    (mk o (es ++ [(k, x)])).put k y = mk o (es ++ [(k, y)]) := by
  have hsame : es.map (fun e => if e.1 == k then (k, y) else e) = es := by
    refine (List.map_congr_left fun e he => ?_).trans es.map_id
    rw [if_neg (by simpa using fun hk => h (List.mem_map.mpr ⟨e, he, hk⟩)), id]
  have hany : (es ++ [(k, x)]).any (·.1 == k) = true := by simp
  rw [put, entries, hany, if_pos rfl, List.map_append, hsame]
  simp [origin]

end Table

/-- a value and its key as an entry -/
def leaf (p : String × Data) : String × Node := (p.1, .leaf p.2)

/-- the document whose plain values are still being read -/
def atRoot (es : List (String × Node)) : Document := ⟨.mk .explicit es, []⟩

/-- the document whose last table is still being read -/
def atTable (es : List (String × Node)) (h : String) (us : List (String × Node)) : Document :=
  ⟨.mk .explicit (es ++ [(h, .table (.mk .explicit us))]), [h]⟩

/-- do documents take a new key with its value at the end of their entries? -/
def Grows (place : List (String × Node) → Document) : Prop :=
  ∀ us k x, k ∉ us.map Prod.fst → ∃ t, (place us).root.addUnder (place us).header [] k x = some t ∧
    place (us ++ [leaf (k, x)]) = ⟨t, (place us).header⟩

theorem addKey_explicit {us : List (String × Node)} {k : String} (h : k ∉ us.map Prod.fst) (x : Data) :
    (Table.mk .explicit us).addKey false k x = some (.mk .explicit (us ++ [leaf (k, x)])) := by
  have horigin : (false != ((Table.mk .explicit us).origin == .dotted)) = false := rfl
  simp only [Table.addKey, horigin, Table.get?_of_not_mem h, Table.put_of_not_mem h, Bool.false_eq_true, if_false, leaf]

theorem grows_atRoot : Grows atRoot := fun _ _ x h => ⟨_, addKey_explicit h x, rfl⟩

theorem grows_atTable {es : List (String × Node)} {h : String} (hfresh : h ∉ es.map Prod.fst) : Grows (atTable es h) := by
  intro us k x hk
  refine ⟨.mk .explicit (es ++ [(h, .table (.mk .explicit (us ++ [leaf (k, x)])))]), ?_, rfl⟩
  simp only [atTable, Table.addUnder, Table.get?_last hfresh, Table.put_last hfresh, Table.addDotted, addKey_explicit hk x,
    Option.map_some]

theorem openTable_fresh {es : List (String × Node)} {h : String} (hfresh : h ∉ es.map Prod.fst) :
    (Table.mk .explicit es).openTable [h] = some (atTable es h []).root := by
  simp only [Table.openTable, Table.get?_of_not_mem hfresh, Table.put_of_not_mem hfresh, atTable, Table.empty]

/-! ## Lines -/

/-- has reading come from one document and text to another? Lines are counted, and the characters left are always enough
to count with. -/
def Reads (d : Document) (s : List Char) (d' : Document) (s' : List Char) : Prop :=
  ∀ n, s.length ≤ n → ∃ m, s'.length ≤ m ∧ docLines n d s = docLines m d' s'

theorem Reads.refl (d : Document) (s : List Char) : Reads d s d s := fun n hn => ⟨n, hn, rfl⟩

theorem Reads.trans {d d' d'' : Document} {s s' s'' : List Char} (a : Reads d s d' s') (b : Reads d' s' d'' s'') :
    Reads d s d'' s'' := by
  intro n hn
  obtain ⟨m, hm, hread⟩ := a n hn
  obtain ⟨l, hl, hread'⟩ := b m hm
  exact ⟨l, hl, hread.trans hread'⟩

/-- a line that is read in one step leaves enough to count with -/
theorem Reads.of_step {d d' : Document} {c : Char} {s s' : List Char} (hlength : s'.length ≤ s.length)
    (h : ∀ n, docLines (n + 1) d (c :: s) = docLines n d' s') : Reads d (c :: s) d' s' := by
  intro n hn
  obtain ⟨n, rfl⟩ := Nat.exists_eq_succ_of_ne_zero (Nat.ne_of_gt (Nat.zero_lt_of_lt hn))
  exact ⟨n, hlength.trans (Nat.le_of_succ_le_succ hn), h n⟩

theorem reads_blank (d : Document) (s : List Char) : Reads d ('\n' :: s) d s := by
  refine .of_step le_rfl fun n => ?_
  rw [docLines, skipSpace_of_not (by decide)]
  rfl

theorem lineEnd_feed (s : List Char) : lineEnd ('\n' :: s) = some s := by
  rw [lineEnd, skipSpace_of_not (by decide)]
  rfl

theorem isSpace_of_bare {c : Char} (hc : isBare c = true) : isSpace c = false := by
  rw [Bool.eq_false_iff]
  intro hspace
  have hcases : c = ' ' ∨ c = '\t' := by simpa [isSpace] using hspace
  rcases hcases with rfl | rfl
  · exact absurd hc (by decide)
  · exact absurd hc (by decide)

theorem Bare.exists_cons {k : String} (hk : Bare k) : ∃ c r, k.toList = c :: r ∧ isBare c = true := by
  obtain ⟨hne, hbare⟩ := hk
  cases h : k.toList with
  | nil => exact absurd h hne
  | cons c r => exact ⟨c, r, rfl, List.all_eq_true.mp hbare c (h ▸ List.mem_cons_self)⟩

theorem keyPart_bare {k : String} (hk : Bare k) {s : List Char} (hs : ∀ d ∈ s.head?, isBare d = false) :
    keyPart (k.toList ++ s) = some (k, s) := by
  have htake : (k.toList ++ s).takeWhile isBare = k.toList := Text.takeWhile_append (List.all_eq_true.mp hk.2) hs
  obtain ⟨c, r, hcons, hc⟩ := hk.exists_cons
  have hquote : c ≠ '"' := ne_of_kind hc (by decide)
  have hsingle : c ≠ '\'' := ne_of_kind hc (by decide)
  have hempty : k.toList.isEmpty = false := by rw [hcons]; rfl
  rw [keyPart]
  · simp only [htake, hempty, List.drop_left, String.ofList_toList, Bool.false_eq_true, if_false]
  · intro t ht
    rw [hcons] at ht
    exact hquote (List.cons.inj ht).1
  · intro t ht
    rw [hcons] at ht
    exact hsingle (List.cons.inj ht).1

/-- a bare key in front of something that is not a dot -/
theorem key_bare {k : String} (hk : Bare k) {s r : List Char} {c : Char} (hs : ∀ d ∈ s.head?, isBare d = false)
    (hskip : skipSpace s = c :: r) (hc : c ≠ '.') : key (k.toList ++ s) = some ([k], c :: r) := by
  have hpart := keyPart_bare hk hs
  obtain ⟨d, t, hcons, hd⟩ := hk.exists_cons
  have hstart : skipSpace (k.toList ++ s) = k.toList ++ s := by
    rw [hcons]
    exact skipSpace_of_not (isSpace_of_bare hd) _
  rw [key, maxDepth, keyParts, hstart, hpart]
  simp only [bind, Option.bind, hskip, pure]
  split
  · rename_i heq
    exact absurd (List.cons.inj heq).1 hc
  · rfl

theorem pairLine_write {k : String} (hk : Bare k) {x : Data} {v : List Char} (hv : lineValue x = some v) {d : Document}
    {t : Table} (hadd : d.root.addUnder d.header [] k x = some t) (s : List Char) :
    pairLine d (k.toList ++ (" = ".toList ++ (v ++ '\n' :: s))) = some (⟨t, d.header⟩, s) := by
  have hkey : key (k.toList ++ (" = ".toList ++ (v ++ '\n' :: s))) = some ([k], '=' :: ' ' :: (v ++ '\n' :: s)) :=
    key_bare hk (by simp; decide) rfl (by decide)
  have hskip : skipSpace (' ' :: (v ++ '\n' :: s)) = v ++ '\n' :: s := by
    obtain ⟨c, r, rfl, hc⟩ := exists_lineValue_cons hv
    exact skipSpace_of_not hc _
  simp only [pairLine, hkey, bind, Option.bind, expect, if_true, hskip, value_line hv, lineEnd_feed, List.dropLast,
    List.getLastD, List.getLast_singleton, hadd, pure]

/-- **A key with its value** is one more entry. -/
theorem reads_pair {k : String} (hk : Bare k) {x : Data} {v : List Char} (hv : lineValue x = some v) {d : Document}
    {t : Table} (hadd : d.root.addUnder d.header [] k x = some t) (s : List Char) :
    Reads d (k.toList ++ (" = ".toList ++ (v ++ '\n' :: s))) ⟨t, d.header⟩ s := by
  have hpair := pairLine_write hk hv hadd s
  obtain ⟨c, r, hcons, hc⟩ := hk.exists_cons
  rw [hcons, List.cons_append] at hpair ⊢
  refine .of_step (by simp only [List.length_append, List.length_cons]; omega) fun n => ?_
  have hcomment : c ≠ '#' := ne_of_kind hc (by decide)
  have hbracket : c ≠ '[' := ne_of_kind hc (by decide)
  have hfeed : c ≠ '\n' := ne_of_kind hc (by decide)
  have hreturn : c ≠ '\r' := ne_of_kind hc (by decide)
  have hnewline : newline? (c :: (r ++ (" = ".toList ++ (v ++ '\n' :: s)))) = none := by
    rw [newline?]
    · intro t ht
      exact hfeed (List.cons.inj ht).1
    · intro t ht
      exact hreturn (List.cons.inj ht).1
  rw [docLines, skipSpace_of_not (isSpace_of_bare hc)]
  split
  · cases ‹_ = []›
  · rename_i heq
    exact absurd (List.cons.inj heq).1 hcomment
  · rename_i heq
    exact absurd (List.cons.inj heq).1 hbracket
  · simp only [hnewline, hpair]

/-- **A header** opens a table. -/
theorem reads_header {k : String} (hk : Bare k) {d : Document} {t : Table} (hopen : d.root.openTable [k] = some t)
    (s : List Char) : Reads d ('[' :: (k.toList ++ ("]\n".toList ++ s))) ⟨t, [k]⟩ s := by
  have hkey : key (k.toList ++ ("]\n".toList ++ s)) = some ([k], ']' :: '\n' :: s) :=
    key_bare hk (by simp; decide) (skipSpace_of_not (by decide) _) (by decide)
  obtain ⟨c, r, hcons, hc⟩ := hk.exists_cons
  have hbracket : c ≠ '[' := ne_of_kind hc (by decide)
  have hline : headerLine d (k.toList ++ ("]\n".toList ++ s)) = some (⟨t, [k]⟩, s) := by
    rw [headerLine]
    · simp only [hkey, bind, Option.bind, expect, if_true, lineEnd_feed, hopen, pure]
    · intro t ht
      rw [hcons] at ht
      exact hbracket (List.cons.inj ht).1
  refine .of_step (by simp only [List.length_append]; omega) fun n => ?_
  rw [docLines, skipSpace_of_not (by decide)]
  simp only [hline]

/-! ## Sections -/

theorem of_plainLines_cons {k : Option String} {x : Data} {r : List (Option String × Data)} {text : List Char}
    (hnull : x ≠ .null) (hrecord : ∀ fs, x ≠ .record fs) (h : plainLines ((k, x) :: r) = some text) :
    ∃ key v rest, k = some key ∧ lineValue x = some v ∧ plainLines r = some rest ∧
      text = key.toList ++ (" = ".toList ++ (v ++ '\n' :: rest)) := by
  rw [plainLines] at h
  · simp only [bind, Option.bind_eq_some_iff, Option.some.injEq] at h
    obtain ⟨key, hkey, v, hv, rest, hrest, htext⟩ := h
    exact ⟨key, v, rest, hkey, hv, hrest, by rw [← htext]; simp only [List.append_assoc, List.singleton_append]⟩
  · exact hnull
  · exact hrecord

/-- **The plain values of a record are read back.** -/
theorem reads_plainLines {place : List (String × Node) → Document} (hgrows : Grows place)
    {fields : List (Option String × Data)} {text : List Char} (htext : plainLines fields = some text)
    (hbare : ∀ p ∈ plain fields, Bare p.1) {us : List (String × Node)}
    (hnodup : (us.map Prod.fst ++ (plain fields).map Prod.fst).Nodup) (s : List Char) :
    Reads (place us) (text ++ s) (place (us ++ (plain fields).map leaf)) s := by
  -- along the fields, with the entries so far general: each value is one more of them
  fun_induction plain fields generalizing us text with
  | case1 =>
    obtain rfl := Option.some.inj htext
    rw [List.map_nil, List.append_nil]
    exact .refl _ _
  | case2 k r ih => exact ih htext hbare hnodup
  | case3 k fs r ih => exact ih htext hbare hnodup
  | case4 k x r hnull hrecord ih =>
    obtain ⟨key, v, rest, hkey, hv, hrest, rfl⟩ := of_plainLines_cons hnull hrecord htext
    obtain rfl := Option.some.inj hkey
    obtain ⟨hk, hothers⟩ := List.forall_mem_cons.mp hbare
    have hfresh : k ∉ us.map Prod.fst := fun hmem =>
      List.disjoint_of_nodup_append hnodup hmem (List.mem_map_of_mem List.mem_cons_self)
    obtain ⟨t, hadd, hplace⟩ := hgrows us k x hfresh
    have hnodup' : ((us ++ [leaf (k, x)]).map Prod.fst ++ (plain r).map Prod.fst).Nodup := by
      simpa [leaf] using hnodup
    have hpair := reads_pair hk hv hadd (rest ++ s)
    have hnext := ih hrest hothers hnodup'
    rw [hplace, List.append_assoc] at hnext
    simp only [List.append_assoc, List.cons_append] at hpair ⊢
    exact hpair.trans hnext
  | case5 x r hnull hrecord ih =>
    obtain ⟨key, -, -, hkey, -⟩ := of_plainLines_cons hnull hrecord htext
    cases hkey

/-- a table of plain values as an entry -/
def tableOf (p : String × List (String × Data)) : String × Node := (p.1, .table (.mk .explicit (p.2.map leaf)))

/-- one table: a blank line, its header and its lines -/
theorem reads_table {k : String} (hk : Bare k) {es : List (String × Node)} (hfresh : k ∉ es.map Prod.fst)
    {fs : List (Option String × Data)} {body : List Char} (hbody : plainLines fs = some body)
    (hbare : ∀ q ∈ plain fs, Bare q.1) (hnodup : ((plain fs).map Prod.fst).Nodup) (header : List String) (s : List Char) :
    Reads ⟨.mk .explicit es, header⟩ ('\n' :: '[' :: (k.toList ++ ("]\n".toList ++ (body ++ s))))
      ⟨.mk .explicit (es ++ [tableOf (k, plain fs)]), [k]⟩ s := by
  have hblank := reads_blank ⟨.mk .explicit es, header⟩ ('[' :: (k.toList ++ ("]\n".toList ++ (body ++ s))))
  have hopen := reads_header hk (d := ⟨.mk .explicit es, header⟩) (openTable_fresh hfresh) (body ++ s)
  have hdistinct : ((List.nil : List (String × Node)).map Prod.fst ++ (plain fs).map Prod.fst).Nodup := hnodup
  have hlines := reads_plainLines (grows_atTable hfresh) hbody hbare hdistinct s
  exact hblank.trans (hopen.trans hlines)

/-- **The tables of a record are read back.** -/
theorem reads_tables {fields : List (Option String × Data)} {text : List Char} (htext : tables fields = some text)
    (hbare : ∀ p ∈ sections fields, Bare p.1 ∧ ∀ q ∈ p.2, Bare q.1) {es : List (String × Node)}
    (hnodup : (es.map Prod.fst ++ (sections fields).map Prod.fst).Nodup)
    (hsections : ∀ p ∈ sections fields, (p.2.map Prod.fst).Nodup) (header : List String) (s : List Char) :
    ∃ header', Reads ⟨.mk .explicit es, header⟩ (text ++ s)
      ⟨.mk .explicit (es ++ (sections fields).map tableOf), header'⟩ s := by
  -- along the fields, with the entries so far and the last header general: each table changes both
  fun_induction sections fields generalizing es text header with
  | case1 =>
    obtain rfl := Option.some.inj htext
    rw [List.map_nil, List.append_nil]
    exact ⟨header, .refl _ _⟩
  | case2 k fs r ih =>
    simp only [tables, bind, Option.bind_eq_some_iff, Option.some.injEq, exists_eq_left'] at htext
    obtain ⟨body, hbody, rest, hrest, rfl⟩ := htext
    obtain ⟨⟨hk, hkeys⟩, hothers⟩ := List.forall_mem_cons.mp hbare
    obtain ⟨hdistinct, hdistinct'⟩ := List.forall_mem_cons.mp hsections
    have hfresh : k ∉ es.map Prod.fst := fun hmem =>
      List.disjoint_of_nodup_append hnodup hmem (List.mem_map_of_mem List.mem_cons_self)
    have hnodup' : ((es ++ [tableOf (k, plain fs)]).map Prod.fst ++ (sections r).map Prod.fst).Nodup := by
      simpa [tableOf] using hnodup
    have htable := reads_table hk hfresh hbody hkeys hdistinct header (rest ++ s)
    obtain ⟨header', hnext⟩ := ih hrest hothers hnodup' hdistinct' [k]
    refine ⟨header', ?_⟩
    have hread := htable.trans hnext
    simp only [List.append_assoc] at hread ⊢
    exact hread
  | case3 p r hrecord ih =>
    refine ih ?_ hbare hnodup hsections header
    rw [tables] at htext
    · exact htext
    · rintro k fs rfl
      cases k with
      | some k => exact hrecord k fs rfl
      | none => cases htext

/-! ## Documents -/

theorem docLines_nil (n : Nat) (d : Document) : docLines n d [] = some d := by
  cases n <;> rfl

theorem entriesToData_leaf (ps : List (String × Data)) : Table.entriesToData (ps.map leaf) = fieldsOf ps := by
  induction ps with
  | nil => rfl
  | cons p ps ih => simpa [Table.entriesToData, Table.nodeToData, fieldsOf, leaf] using ih

theorem entriesToData_tableOf (ps : List (String × List (String × Data))) :
    Table.entriesToData (ps.map tableOf) = fieldsOf (ps.map fun p => (p.1, .record (fieldsOf p.2))) := by
  induction ps with
  | nil => rfl
  | cons p ps ih =>
    simpa [Table.entriesToData, Table.nodeToData, Table.toData, entriesToData_leaf, fieldsOf, tableOf] using ih

theorem entriesToData_append (es us : List (String × Node)) :
    Table.entriesToData (es ++ us) = Table.entriesToData es ++ Table.entriesToData us := by
  induction es with
  | nil => rfl
  | cons e es ih => simp [Table.entriesToData, ih]

/-- no line starts with a byte order mark -/
theorem docLines_mark (n : Nat) (d : Document) (r : List Char) : docLines n d ('\uFEFF' :: r) = none := by
  cases n with
  | zero => rfl
  | succ n =>
    rw [docLines, skipSpace_of_not (by decide)]
    rfl

theorem parse_of_docLines {cs : List Char} {d : Document} (h : docLines cs.length ⟨.empty .explicit, []⟩ cs = some d) :
    parse (String.ofList cs) = some d.root.toData := by
  rw [parse, String.toList_ofList]
  split
  · rw [docLines_mark] at h
    cases h
  · rw [h, Option.map_some]

/-- **A written record is read back**, less its absent values and with its tables at the end. -/
theorem parse_write {fields : List (Option String × Data)} (hfields : Readable fields) {s : String}
    (h : write fields = some s) : parse s = some (.record (fieldsOf (kept fields))) := by
  simp only [write, bind, Option.bind_eq_some_iff, Option.some.injEq] at h
  obtain ⟨text, htext, rest, hrest, rfl⟩ := h
  have hdistinct : ((List.nil : List (String × Node)).map Prod.fst ++ (plain fields).map Prod.fst).Nodup :=
    (List.nodup_append.mp hfields.nodup).1
  have hlines := reads_plainLines grows_atRoot htext hfields.plain_bare hdistinct rest
  have hnodup : (((plain fields).map leaf).map Prod.fst ++ (sections fields).map Prod.fst).Nodup := by
    have hfst : ((plain fields).map leaf).map Prod.fst = (plain fields).map Prod.fst := by simp [leaf]
    rw [hfst]
    exact hfields.nodup
  obtain ⟨header, htables⟩ := reads_tables hrest hfields.sections_bare hnodup hfields.sections_nodup [] []
  rw [List.append_nil] at htables
  obtain ⟨m, -, hread⟩ := hlines.trans htables (text ++ rest).length le_rfl
  rw [docLines_nil] at hread
  have hdata : (Table.mk .explicit ((plain fields).map leaf ++ (sections fields).map tableOf)).toData =
      .record (fieldsOf (kept fields)) := by
    rw [Table.toData, entriesToData_append, entriesToData_leaf, entriesToData_tableOf, kept, fieldsOf, fieldsOf, fieldsOf,
      List.map_append]
  rw [parse_of_docLines hread]
  exact congrArg some hdata

/-! ## Records without a written form -/

theorem written_of_plainLines {fields : List (Option String × Data)} {text : List Char}
    (h : plainLines fields = some text) : Written (plain fields) := by
  fun_induction plain fields generalizing text with
  | case1 => exact written_nil
  | case2 k r ih => exact ih h
  | case3 k fs r ih => exact ih h
  | case4 k x r hnull hrecord ih =>
    obtain ⟨-, v, rest, -, hv, hrest, -⟩ := of_plainLines_cons hnull hrecord h
    exact written_cons.mpr ⟨Option.isSome_of_eq_some hv, ih hrest⟩
  | case5 x r hnull hrecord ih =>
    obtain ⟨key, -, -, hkey, -⟩ := of_plainLines_cons hnull hrecord h
    cases hkey

theorem written_of_tables {fields : List (Option String × Data)} {text : List Char} (h : tables fields = some text) :
    ∀ p ∈ sections fields, Written p.2 := by
  fun_induction sections fields generalizing text with
  | case1 => exact List.forall_mem_nil _
  | case2 k fs r ih =>
    simp only [tables, bind, Option.bind_eq_some_iff] at h
    obtain ⟨-, -, body, hbody, rest, hrest, -⟩ := h
    exact List.forall_mem_cons.mpr ⟨written_of_plainLines hbody, ih hrest⟩
  | case3 p r hrecord ih =>
    rw [tables] at h
    · exact ih h
    · rintro k fs rfl
      cases k with
      | some k => exact hrecord k fs rfl
      | none => cases h

/-- **One value without a written form** leaves the whole record without one. -/
theorem written_of_write {fields : List (Option String × Data)} {s : String} (h : write fields = some s) :
    Written (plain fields) ∧ ∀ p ∈ sections fields, Written p.2 := by
  simp only [write, bind, Option.bind_eq_some_iff] at h
  obtain ⟨text, htext, rest, hrest, -⟩ := h
  exact ⟨written_of_plainLines htext, written_of_tables hrest⟩

/-- a record with a plain value is not written as nothing -/
theorem write_ne_empty {k : Option String} {x : Data} {r : List (Option String × Data)} {s : String} (hnull : x ≠ .null)
    (hrecord : ∀ fs, x ≠ .record fs) (h : write ((k, x) :: r) = some s) : s ≠ "" := by
  simp only [write, bind, Option.bind_eq_some_iff, Option.some.injEq] at h
  obtain ⟨text, htext, rest, -, rfl⟩ := h
  obtain ⟨key, v, lines, -, -, -, rfl⟩ := of_plainLines_cons hnull hrecord htext
  rw [ne_eq, ← String.toList_inj, String.toList_ofList]
  simp

end EdgeTunnel.Toml
