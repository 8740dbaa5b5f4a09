/-
The limit on the head of a request.

The reader looks at the limit after a read in which the head has not ended, and not when it finds the end of the head. So a
head longer than the limit is refused exactly when one of the reads ends past the limit and inside the head, and is read as
a shorter one is when none does.

- `headEnd?_eq_none_iff`: the end of a head is missed exactly where there is no empty line.
- `readHead_tooLarge`: a read that ends past the limit, with no empty line before its end, is refused.
- `exists_reads_past`: the first read that ends past the limit goes at most one read beyond it.
- `head_limit`: which heads are refused, in which reads.
- `long_head_accepted`: a head that is longer than the limit by a byte is read, in whatever pieces it comes.
-/
import EdgeTunnel.Proofs.Proxy.RequestLine
import EdgeTunnel.Proofs.Proxy.Segmentation

namespace EdgeTunnel.Proxy.Http

open Socks (utf8)

/-- a head has no end exactly when no empty line stands in what was read -/
theorem headEnd?_eq_none_iff {s : List UInt8} : headEnd? s = none ↔ ¬ emptyLine <:+: s := by
  constructor
  · rintro hnone ⟨before, behind, hs⟩
    obtain ⟨n, hn⟩ := exists_headEnd? ⟨behind, hs⟩ ⟨before, rfl⟩
    rw [hnone] at hn
    cases hn
  · intro hnone
    cases hn : headEnd? s with
    | none => rfl
    | some n => exact absurd ((take_headEnd? hn).2.isInfix.trans (List.take_prefix n s).isInfix) hnone

/-! ## Reads past the limit -/

/-- may each of these pieces be the bytes of one read? -/
def AreReads (pieces : List (List UInt8)) : Prop := ∀ piece ∈ pieces, 1 ≤ piece.length ∧ piece.length ≤ readSize

/-- does one of the reads end past the limit and inside a head of this length? -/
def Overruns (pieces : List (List UInt8)) (length : Nat) : Prop :=
  ∃ reads, reads <+: pieces ∧ headLimit < reads.flatten.length ∧ reads.flatten.length < length

/-- no read ends inside a head that is longer than the limit by a byte -/
theorem not_overruns_next (pieces : List (List UInt8)) : ¬ Overruns pieces (headLimit + 1) := by
  rintro ⟨reads, -, hpast, hinside⟩
  exact absurd hpast (not_lt.2 (Nat.le_of_lt_succ hinside))

/-- **A read that ends past the limit**, with no empty line before its end, is refused: it is the first such read, or an
earlier one was. The induction is on the pieces; what was read before them is within the limit. -/
theorem readHead_tooLarge {before : List UInt8} {pieces reads : List (List UInt8)} (hbefore : before.length ≤ headLimit)
    (hreads : reads <+: pieces) (hover : headLimit < (before ++ reads.flatten).length)
    (hnone : ¬ emptyLine <:+: before ++ reads.flatten) :
    ∃ rest, readHead before pieces = (.error (.badRequest .tooLarge), rest) := by
  induction pieces generalizing before reads with
  | nil =>
    rw [List.prefix_nil.1 hreads, List.flatten_nil, List.append_nil] at hover
    omega
  | cons piece pieces ih =>
    cases reads with
    | nil =>
      rw [List.flatten_nil, List.append_nil] at hover
      omega
    | cons first reads =>
      obtain ⟨rfl, hlater⟩ := List.cons_prefix_cons.1 hreads
      rw [List.flatten_cons, ← List.append_assoc] at hover hnone
      have hfirst : headEnd? (before ++ first) = none :=
        headEnd?_eq_none_iff.2 fun hline => hnone (hline.trans (List.prefix_append _ reads.flatten).isInfix)
      simp only [readHead, hfirst]
      split_ifs with hlimit
      · exact ⟨pieces, rfl⟩
      · exact ih (by omega) hlater hover hnone

/-- the first read that ends past the limit goes at most one read beyond it -/
theorem exists_reads_past {before : List UInt8} {pieces : List (List UInt8)} (hpieces : AreReads pieces)
    (hbefore : before.length ≤ headLimit) (hover : headLimit < (before ++ pieces.flatten).length) :
    ∃ reads, reads <+: pieces ∧ headLimit < (before ++ reads.flatten).length ∧
      (before ++ reads.flatten).length ≤ headLimit + readSize := by
  induction pieces generalizing before with
  | nil =>
    rw [List.flatten_nil, List.append_nil] at hover
    omega
  | cons piece pieces ih =>
    obtain ⟨⟨-, hsize⟩, hpieces⟩ := List.forall_mem_cons.1 hpieces
    have hlength : (before ++ piece).length = before.length + piece.length := List.length_append
    rw [List.flatten_cons, ← List.append_assoc] at hover
    by_cases hpast : headLimit < (before ++ piece).length
    · refine ⟨[piece], List.cons_prefix_cons.2 ⟨rfl, List.nil_prefix⟩, ?_⟩
      rw [List.flatten_cons, List.flatten_nil, List.append_nil]
      omega
    · obtain ⟨reads, hreads, hpast⟩ := ih hpieces (by omega) hover
      refine ⟨piece :: reads, List.cons_prefix_cons.2 ⟨rfl, hreads⟩, ?_⟩
      rwa [List.flatten_cons, ← List.append_assoc]

/-- before the first read -/
theorem nil_le_headLimit : ([] : List UInt8).length ≤ headLimit := Nat.zero_le _

/-- without an empty line the stream is refused when it goes past the limit, and else it has ended in its head -/
theorem read_without_end {pieces : List (List UInt8)} (hnone : ¬ emptyLine <:+: pieces.flatten) :
    (read pieces).outcome = .error (.badRequest (if headLimit < pieces.flatten.length then .tooLarge else .closed)) := by
  split_ifs with hover
  · obtain ⟨rest, hread⟩ := readHead_tooLarge nil_le_headLimit (List.prefix_refl pieces) hover hnone
    simp only [read, hread]
  · have hread : readHead [] pieces = (.error (.badRequest .closed), []) :=
      readHead_closed (not_lt.1 hover) fun part hpart hends => hnone (hends.isInfix.trans hpart.isInfix)
    simp only [read, hread]

section Opening

variable {head : List UInt8} (h : Opening .httpConnect head) {pieces : List (List UInt8)} (hs : head <+: pieces.flatten)

include h hs

/-- a head is refused when a read ends past the limit and inside it -/
theorem read_of_overruns (hover : Overruns pieces head.length) :
    (read pieces).outcome = .error (.badRequest .tooLarge) := by
  obtain ⟨reads, hreads, hpast, hinside⟩ := hover
  obtain ⟨later, hlater⟩ := hreads
  have hbytes : reads.flatten <+: pieces.flatten := ⟨later.flatten, by rw [← hlater, List.flatten_append]⟩
  have hpart : reads.flatten <+: head := List.prefix_of_prefix_length_le hbytes hs hinside.le
  have hnone := headEnd?_eq_none_iff.1 (headEnd?_before h hpart hinside)
  obtain ⟨rest, hread⟩ := readHead_tooLarge nil_le_headLimit ⟨later, hlater⟩ hpast hnone
  simp only [read, hread]

/-- a head is read when no read ends past the limit and inside it, however long it is -/
theorem read_of_not_overruns (hover : ¬ Overruns pieces head.length) :
    (∃ all rest, readHead [] pieces = (.ok (all, head.length), rest) ∧ head <+: all) ∧
      verdict (read pieces).outcome = verdict (ofHead head head.length) := by
  have hnil : ([] : List UInt8).length < head.length := Nat.lt_of_lt_of_le (by decide) (length_opening h)
  obtain ⟨all, rest, hread, hall⟩ := readHead_of_reads h hnil hs fun reads hreads hpast => not_lt.1 fun hinside =>
    hover ⟨reads, hreads, hpast, hinside⟩
  refine ⟨⟨all, rest, hread, hall⟩, ?_⟩
  simp only [read, hread]
  exact verdict_ofHead hall

end Opening

/-! ## Divisions into reads -/

/-- a stream that comes byte by byte -/
def singly (s : List UInt8) : List (List UInt8) := s.map fun b => [b]

theorem flatten_singly (s : List UInt8) : (singly s).flatten = s := by
  rw [singly, ← List.flatMap_def, List.flatMap_singleton']

theorem areReads_singly (s : List UInt8) : AreReads (singly s) := by
  intro piece hpiece
  obtain ⟨b, -, rfl⟩ := List.mem_map.1 hpiece
  exact ⟨le_rfl, (by decide : 1 ≤ readSize)⟩

/-- byte by byte, a read ends past the limit and inside every head that is longer than the limit by more than a byte -/
theorem overruns_singly {s head : List UInt8} (hs : head <+: s) (hlength : headLimit + 1 < head.length) :
    Overruns (singly s) head.length := by
  have hle := hs.length_le
  refine ⟨singly (s.take (headLimit + 1)), ?_, ?_⟩
  · rw [singly, List.map_take]
    exact List.take_prefix _ _
  · rw [flatten_singly, List.length_take]
    omega

/-- a head whose bytes past the limit come in one read -/
def atOnce (head : List UInt8) : List (List UInt8) := singly (head.take headLimit) ++ [head.drop headLimit]

theorem flatten_atOnce (head : List UInt8) : (atOnce head).flatten = head := by
  rw [atOnce, List.flatten_append, flatten_singly, List.flatten_singleton, List.take_append_drop]

theorem areReads_atOnce {head : List UInt8} (hpast : headLimit < head.length)
    (hlength : head.length ≤ headLimit + readSize) : AreReads (atOnce head) := by
  intro piece hpiece
  rcases List.mem_append.1 hpiece with hpiece | hpiece
  · exact areReads_singly _ piece hpiece
  · rw [List.mem_singleton.1 hpiece, List.length_drop]
    omega

/-- no read ends past the limit and inside the head when its bytes past the limit come at once, whatever follows -/
theorem not_overruns_atOnce (head : List UInt8) (more : List (List UInt8)) :
    ¬ Overruns (atOnce head ++ more) head.length := by
  rintro ⟨reads, hreads, hpast, hinside⟩
  -- these reads end within those of the head, or cover them all; a proper part of the latter stays within the limit
  rcases List.prefix_or_prefix_of_prefix hreads (List.prefix_append (atOnce head) more) with hreads | ⟨later, hlater⟩
  · rcases List.prefix_concat_iff.1 hreads with hwhole | ⟨later, hlater⟩
    · rw [hwhole, ← atOnce, flatten_atOnce] at hinside
      exact lt_irrefl _ hinside
    · have hlength := congrArg (fun reads => (List.flatten reads).length) hlater
      simp only [List.flatten_append, List.length_append, flatten_singly, List.length_take] at hlength
      omega
  · rw [← hlater, List.flatten_append, flatten_atOnce, List.length_append] at hinside
    omega

/-! ## Long heads -/

/-- where no byte is a carriage return the head does not end -/
theorem headEnd?_append {s : List UInt8} (h : 13 ∉ s) (rest : List UInt8) :
    headEnd? (s ++ rest) = (headEnd? rest).map (· + s.length) := by
  induction s with
  | nil => simp
  | cons c s ih =>
    have hline : ¬ emptyLine <+: c :: (s ++ rest) := fun hline =>
      h (List.mem_cons.2 (.inl (List.cons_prefix_cons.1 hline).1))
    rw [List.cons_append, headEnd?_cons, if_neg hline, ih fun hin => h (List.mem_cons_of_mem c hin), Option.map_map,
      List.length_cons]
    rfl

/-- a line break that no other follows does not end the head -/
theorem headEnd?_lineBreak {c : UInt8} (hc : c ≠ 13) (rest : List UInt8) :
    headEnd? (13 :: 10 :: c :: rest) = (headEnd? (c :: rest)).map (· + 2) := by
  have hfirst : ¬ emptyLine <+: 13 :: 10 :: c :: rest := fun hline => by
    simp only [emptyLine, List.cons_prefix_cons] at hline
    exact hc hline.2.2.1.symm
  have hsecond : ¬ emptyLine <+: 10 :: c :: rest := fun hline => by
    simp [emptyLine, List.cons_prefix_cons] at hline
  rw [headEnd?_cons, if_neg hfirst, headEnd?_cons, if_neg hsecond, Option.map_map]
  rfl

theorem utf8_append (s t : String) : utf8 (s ++ t) = utf8 s ++ utf8 t := by
  simp [utf8]

theorem utf8_replicate (n : Nat) : utf8 (String.ofList (List.replicate n 'a')) = List.replicate n 97 := by
  induction n with
  | zero => rfl
  | succ n ih =>
    have hcons : String.ofList (['a'] ++ List.replicate n 'a') = "a" ++ String.ofList (List.replicate n 'a') :=
      String.ofList_append
    rw [List.replicate_succ, ← List.singleton_append, hcons, utf8_append, ih, List.replicate_succ]
    rfl

/-- the head of a request for `h:1`, with a header of some length -/
def headOf (n : Nat) : List UInt8 :=
  utf8 ("CONNECT h:1 HTTP/1.1\r\nX: " ++ String.ofList (List.replicate n 'a') ++ "\r\n\r\n")

section HeadOf

variable (n : Nat)

theorem headOf_eq :
    headOf n = utf8 "CONNECT h:1 HTTP/1.1" ++ 13 :: 10 :: 88 :: (58 :: 32 :: List.replicate n 97 ++ emptyLine) := by
  have hstart : utf8 "CONNECT h:1 HTTP/1.1\r\nX: " = utf8 "CONNECT h:1 HTTP/1.1" ++ [13, 10, 88, 58, 32] := by
    decide +kernel
  have hlast : utf8 "\r\n\r\n" = emptyLine := by decide +kernel
  rw [headOf, utf8_append, utf8_append, utf8_replicate, hstart, hlast, List.append_assoc, List.append_assoc]
  rfl

theorem headEnd?_headOf : headEnd? (headOf n) = some (n + 29) := by
  have hline : 13 ∉ utf8 "CONNECT h:1 HTTP/1.1" ∧ (utf8 "CONNECT h:1 HTTP/1.1").length = 20 := by decide +kernel
  have hheader : 13 ∉ 88 :: 58 :: 32 :: List.replicate n (97 : UInt8) := by simp [List.mem_replicate]
  have hlast : headEnd? emptyLine = some 4 := by decide
  rw [headOf_eq, headEnd?_append hline.1, headEnd?_lineBreak (by decide), ← List.cons_append, headEnd?_append hheader,
    hlast, hline.2]
  simp only [Option.map_some, List.length_cons, List.length_replicate, Option.some.injEq]
  omega

@[simp] theorem length_headOf : (headOf n).length = n + 29 := by
  have hline : (utf8 "CONNECT h:1 HTTP/1.1").length = 20 := by decide +kernel
  rw [headOf_eq, List.length_append, hline]
  simp only [emptyLine, List.length_cons, List.length_append, List.length_replicate, List.length_nil]
  omega

theorem opening_headOf : Opening .httpConnect (headOf n) := by
  have h := opening_of_headEnd? (headEnd?_headOf n)
  rwa [← length_headOf, List.take_length] at h

theorem ofHead_headOf : ofHead (headOf n) (headOf n).length = .ok ⟨.httpConnect, "h:1", []⟩ := by
  have hasks : Asks (headOf n) "CONNECT".toList "h:1".toList := by
    have htext : "CONNECT h:1 HTTP/1.1\r\nX: " ++ String.ofList (List.replicate n 'a') ++ "\r\n\r\n" =
        String.ofList ("CONNECT".toList ++ ' ' :: ("h:1".toList ++ ' ' :: ("HTTP/1.1".toList ++
          '\r' :: '\n' :: ("X: ".toList ++ List.replicate n 'a' ++ "\r\n\r\n".toList)))) := by
      rw [← String.toList_inj]
      simp
    rw [headOf, htext]
    exact asks_of_line (by decide) (by decide) (by decide) (by decide) (by decide)
  rw [ofHead_of_asks (by rwa [List.take_length]), if_pos (by decide), List.drop_length]
  rfl

end HeadOf

/-! ## The limit -/

/-- **Which heads are refused.** Of a stream in which no empty line ends within the limit, in whatever pieces it comes:
- Without an empty line it is refused when it goes past the limit; else it has ended in its head.
- With one, its head is refused as too large when a read ends past the limit and inside it; else the head is read, and the
  verdict is that on the head.
- A head longer than the limit by more than a read is refused in all reads, and one longer by a byte in none; every other one
  is refused in some reads of the same stream and not in others. -/
theorem head_limit (pieces : List (List UInt8))
    (hpast : ∀ part, part <+: pieces.flatten → emptyLine <:+ part → 8192 < part.length) :
    (¬ emptyLine <:+: pieces.flatten →
      (read pieces).outcome = .error (.badRequest (if 8192 < pieces.flatten.length then .tooLarge else .closed))) ∧
    (emptyLine <:+: pieces.flatten → ∃ head, Opening .httpConnect head ∧ head <+: pieces.flatten ∧ 8192 < head.length ∧
      (Overruns pieces head.length → (read pieces).outcome = .error (.badRequest .tooLarge)) ∧
      (¬ Overruns pieces head.length →
        (∃ all rest, readHead [] pieces = (.ok (all, head.length), rest) ∧ head <+: all) ∧
          verdict (read pieces).outcome = verdict (ofHead head head.length)) ∧
      (9216 < head.length → AreReads pieces → Overruns pieces head.length) ∧
      (head.length = 8193 → ¬ Overruns pieces head.length) ∧
      (8193 < head.length →
        ∃ others, AreReads others ∧ others.flatten = pieces.flatten ∧ Overruns others head.length) ∧
      (head.length ≤ 9216 →
        ∃ others, AreReads others ∧ others.flatten = pieces.flatten ∧ ¬ Overruns others head.length)) := by
  refine ⟨read_without_end, fun hline => ?_⟩
  obtain ⟨head, ⟨h, hs⟩, -⟩ := existsUnique_opening hline
  have hlong : headLimit < head.length := hpast head hs (emptyLine_opening h)
  refine ⟨head, h, hs, hlong, read_of_overruns h hs, read_of_not_overruns h hs, ?_, ?_, ?_, ?_⟩
  · intro hlength hpieces
    obtain ⟨reads, hreads, hover, hwithin⟩ :=
      exists_reads_past hpieces nil_le_headLimit (Nat.lt_of_lt_of_le hlong hs.length_le)
    exact ⟨reads, hreads, hover, Nat.lt_of_le_of_lt hwithin hlength⟩
  · intro hlength
    exact hlength ▸ not_overruns_next pieces
  · intro hlength
    exact ⟨singly pieces.flatten, areReads_singly _, flatten_singly _, overruns_singly hs hlength⟩
  · intro hlength
    obtain ⟨more, hmore⟩ := hs
    refine ⟨atOnce head ++ singly more, ?_, ?_, not_overruns_atOnce head _⟩
    · exact List.forall_mem_append.2 ⟨areReads_atOnce hlong hlength, areReads_singly more⟩
    · rw [List.flatten_append, flatten_atOnce, flatten_singly, hmore]

/-- a head longer than the limit by two bytes that comes byte by byte and is refused, the same one when it comes at once and
is read, and a stream that is cut off -/
theorem head_limit_of_reads :
    let head := headOf 8165
    let cut : List (List UInt8) := [[13, 10], [13]]
    (∀ part, part <+: head → emptyLine <:+ part → 8192 < part.length) ∧ emptyLine <:+: head ∧
      AreReads (singly head) ∧ (singly head).flatten = head ∧ Overruns (singly head) head.length ∧
      (read (singly head)).outcome = .error (.badRequest .tooLarge) ∧
      AreReads (atOnce head) ∧ (atOnce head).flatten = head ∧ ¬ Overruns (atOnce head) head.length ∧
      verdict (read (atOnce head)).outcome = .ok (.httpConnect, "h:1") ∧
      (∀ part, part <+: cut.flatten → emptyLine <:+ part → 8192 < part.length) ∧ ¬ emptyLine <:+: cut.flatten ∧
      (read cut).outcome = .error (.badRequest .closed) := by
  intro head cut
  have h : Opening .httpConnect head := opening_headOf 8165
  have hlength : head.length = 8194 := length_headOf 8165
  have hasked : verdict (ofHead head head.length) = .ok (.httpConnect, "h:1") := by rw [ofHead_headOf]; rfl
  have hpast : ∀ part, part <+: head → emptyLine <:+ part → 8192 < part.length := fun part hpart hends => by
    rw [eq_of_opening h hpart hends]
    omega
  have hline : emptyLine <:+: head := (emptyLine_opening h).isInfix
  have hover : Overruns (singly head) head.length := overruns_singly (List.prefix_refl head) (by rw [hlength]; decide)
  have hnoOver : ¬ Overruns (atOnce head) head.length := by
    simpa using not_overruns_atOnce head []
  have hnone : ¬ emptyLine <:+: cut.flatten := by decide +kernel
  have hcut : ∀ part, part <+: cut.flatten → emptyLine <:+ part → 8192 < part.length := fun part hpart hends =>
    absurd (hends.isInfix.trans hpart.isInfix) hnone
  obtain ⟨-, hrefused⟩ := head_limit (singly head) (by rwa [flatten_singly])
  obtain ⟨-, hread⟩ := head_limit (atOnce head) (by rwa [flatten_atOnce])
  rw [flatten_singly] at hrefused
  rw [flatten_atOnce] at hread
  obtain ⟨refused, h', hs', -, htooLarge, -⟩ := hrefused hline
  obtain ⟨found, h'', hs'', -, -, hverdict, -⟩ := hread hline
  rw [eq_of_opening h hs' (emptyLine_opening h')] at htooLarge
  rw [eq_of_opening h hs'' (emptyLine_opening h'')] at hverdict
  have hatOnce : AreReads (atOnce head) :=
    areReads_atOnce (by rw [hlength]; decide) (by rw [hlength]; decide)
  exact ⟨hpast, hline, areReads_singly head, flatten_singly head, hover, htooLarge hover, hatOnce, flatten_atOnce head,
    hnoOver, (hverdict hnoOver).2.trans hasked, hcut, hnone, (head_limit cut hcut).1 hnone⟩

/-- **A head that is longer than the limit by a byte is read**, in whatever pieces it comes. -/
theorem long_head_accepted :
    let head := headOf 8164
    (∀ part, part <+: head → emptyLine <:+ part → 8192 < part.length) ∧
      AreReads (singly head) ∧ (singly head).flatten = head ∧
      ∀ pieces : List (List UInt8), pieces.flatten = head →
        verdict (read pieces).outcome = .ok (.httpConnect, "h:1") := by
  intro head
  have hlength : head.length = headLimit + 1 := length_headOf 8164
  have hasked : verdict (ofHead head head.length) = .ok (.httpConnect, "h:1") := by rw [ofHead_headOf]; rfl
  refine ⟨fun part hpart hends => ?_, areReads_singly head, flatten_singly head, fun pieces hpieces => ?_⟩
  · rw [eq_of_opening (opening_headOf 8164) hpart hends, hlength]
    decide
  · have hover : ¬ Overruns pieces head.length := hlength ▸ not_overruns_next pieces
    exact (read_of_not_overruns (opening_headOf 8164) (by rw [hpieces]) hover).2.trans hasked

end EdgeTunnel.Proxy.Http
