/-
Reading an HTTP request does not depend on the pieces its bytes come in.

The reader looks for the end of the head again after every read, over all it has so far. The end of a head is stable: once it
stands in what has been read, more bytes do not move it (`headEnd?_opening`), and before it there is none
(`headEnd?_before`). So whatever the pieces, the loop stops with the head that a look at the whole stream finds.

- `readHead_of_reads`: the loop finds the end of the head, unless a read ends past the limit and inside the head.
- `readHead_opening`: the end of a head within the limit is found.
- `readHead_closed`: without an empty line it goes on to the end of the stream.
- `http_segmentation`: the verdict is a function of the head.
-/
import EdgeTunnel.Proofs.Proxy.Opening

namespace EdgeTunnel.Proxy.Http

/-! ## The end of a head -/

/-- a head has an end when an empty line stands anywhere in what was read -/
theorem exists_headEnd? {s part : List UInt8} (hpart : part <+: s) (hends : emptyLine <:+ part) :
    ∃ n, headEnd? s = some n := by
  induction s generalizing part with
  | nil =>
    have hnil : part = [] := List.prefix_nil.1 hpart
    subst hnil
    exact absurd hends (by simp [emptyLine])
  | cons c r ih =>
    rw [headEnd?_cons]
    by_cases hline : emptyLine <+: c :: r
    · exact ⟨4, if_pos hline⟩
    · rw [if_neg hline]
      cases part with
      | nil => exact absurd hends (by simp [emptyLine])
      | cons c' part =>
        rcases List.suffix_cons_iff.1 hends with hwhole | hends
        · exact absurd (hwhole ▸ hpart) hline
        · obtain ⟨n, hn⟩ := ih (List.cons_prefix_cons.1 hpart).2 hends
          exact ⟨n + 1, by rw [hn]; rfl⟩

section Opening

variable {head : List UInt8} (h : Opening .httpConnect head)

include h

theorem emptyLine_opening : emptyLine <:+ head := by
  cases h with
  | connect ends first => exact ends

/-- no shorter part of a head ends with an empty line -/
theorem eq_of_opening {part : List UInt8} (hpart : part <+: head) (hends : emptyLine <:+ part) : part = head := by
  cases h with
  | connect ends first => exact first part hpart hends

theorem length_opening : 4 ≤ head.length := (emptyLine_opening h).length_le

/-- what follows a head does not move its end -/
theorem headEnd?_opening {s : List UInt8} (hs : head <+: s) : headEnd? s = some head.length := by
  obtain ⟨n, hn⟩ := exists_headEnd? hs (emptyLine_opening h)
  obtain ⟨hle, hends⟩ := take_headEnd? hn
  have hn' : n ≤ head.length := le_of_emptyLine hn hs (emptyLine_opening h)
  have hpart : s.take n <+: head := List.prefix_of_prefix_length_le (List.take_prefix n s) hs (by simp [hn'])
  rw [hn, ← eq_of_opening h hpart hends, List.length_take_of_le hle]

/-- there is no end before that of the head -/
theorem headEnd?_before {part : List UInt8} (hpart : part <+: head) (hlen : part.length < head.length) :
    headEnd? part = none := by
  cases hn : headEnd? part with
  | none => rfl
  | some n =>
    obtain ⟨hle, hends⟩ := take_headEnd? hn
    have heq := eq_of_opening h ((List.take_prefix n part).trans hpart) hends
    have hlength := congrArg List.length heq
    rw [List.length_take] at hlength
    omega

/-- **The loop finds the end of the head**, in whatever pieces the bytes come, unless one of them ends past the limit and
inside the head. The induction is on the pieces; what was read before them is shorter than the head. -/
theorem readHead_of_reads {before : List UInt8} {pieces : List (List UInt8)} (hbefore : before.length < head.length)
    (hs : head <+: before ++ pieces.flatten)
    (hreads : ∀ reads, reads <+: pieces → headLimit < (before ++ reads.flatten).length →
      head.length ≤ (before ++ reads.flatten).length) :
    ∃ all rest, readHead before pieces = (.ok (all, head.length), rest) ∧ head <+: all := by
  induction pieces generalizing before with
  | nil =>
    have hle := hs.length_le
    simp only [List.flatten_nil, List.append_nil] at hle
    omega
  | cons piece pieces ih =>
    rw [List.flatten_cons, ← List.append_assoc] at hs
    simp only [readHead]
    by_cases hread : head.length ≤ (before ++ piece).length
    · have hall := List.prefix_of_prefix_length_le hs (List.prefix_append (before ++ piece) pieces.flatten) hread
      rw [headEnd?_opening h hall]
      exact ⟨before ++ piece, pieces, rfl, hall⟩
    · have hpart := List.prefix_of_prefix_length_le (List.prefix_append (before ++ piece) pieces.flatten) hs (by omega)
      have hfirst := hreads [piece] (List.cons_prefix_cons.2 ⟨rfl, List.nil_prefix⟩)
      rw [List.flatten_cons, List.flatten_nil, List.append_nil] at hfirst
      rw [headEnd?_before h hpart (by omega)]
      simp only
      rw [if_neg fun hover => hread (hfirst hover)]
      refine ih (by omega) hs fun reads hprefix hover => ?_
      have hlater := hreads (piece :: reads) (List.cons_prefix_cons.2 ⟨rfl, hprefix⟩)
      rw [List.flatten_cons, ← List.append_assoc] at hlater
      exact hlater hover

/-- the end of a head within the limit is found, in whatever pieces the bytes come -/
theorem readHead_opening (hlimit : head.length ≤ headLimit) {before : List UInt8} {pieces : List (List UInt8)}
    (hbefore : before.length < head.length) (hs : head <+: before ++ pieces.flatten) :
    ∃ all rest, readHead before pieces = (.ok (all, head.length), rest) ∧ head <+: all :=
  readHead_of_reads h hbefore hs fun _ _ hover => hlimit.trans hover.le

end Opening

/-- **Without an empty line** the loop goes on to the end of the stream, when the limit allows it. -/
theorem readHead_closed {before : List UInt8} {pieces : List (List UInt8)}
    (hlimit : (before ++ pieces.flatten).length ≤ headLimit)
    (hnone : ∀ part, part <+: before ++ pieces.flatten → ¬ emptyLine <:+ part) :
    readHead before pieces = (.error (.badRequest .closed), []) := by
  induction pieces generalizing before with
  | nil => rfl
  | cons piece pieces ih =>
    rw [List.flatten_cons, ← List.append_assoc] at hlimit hnone
    have hread : headEnd? (before ++ piece) = none := by
      cases hn : headEnd? (before ++ piece) with
      | none => rfl
      | some n =>
        have hpart := (List.take_prefix n (before ++ piece)).trans (List.prefix_append _ pieces.flatten)
        exact absurd (take_headEnd? hn).2 (hnone _ hpart)
    have hlen : (before ++ piece).length ≤ headLimit :=
      (List.prefix_append (before ++ piece) pieces.flatten).length_le.trans hlimit
    simp only [readHead, hread]
    rw [if_neg (by omega)]
    exact ih hlimit hnone

/-! ## The verdict -/

/-- the verdict of a reading: the error, or the dialect and the destination of the request -/
def verdict (outcome : Except ProxyError Request) : Except ProxyError (Dialect × String) :=
  outcome.map fun q => (q.dialect, q.destination)

/-- the verdict on a head does not depend on what was read past it -/
theorem verdict_ofHead {head all : List UInt8} (h : head <+: all) :
    verdict (ofHead all head.length) = verdict (ofHead head head.length) := by
  have htake : all.take head.length = head.take head.length := by
    rw [List.take_length]
    exact (List.prefix_iff_eq_take.1 h).symm
  unfold ofHead
  rw [htake]
  split
  · rfl
  · split
    · split_ifs
      · rfl
      · split <;> rfl
    · rfl

theorem ofHead_ne_tooLarge (head : List UInt8) (n : Nat) : ofHead head n ≠ .error (.badRequest .tooLarge) := by
  unfold ofHead
  split
  · simp
  · split
    · split_ifs
      · simp
      · split <;> simp
    · simp

/-- a stream with an empty line has exactly one head -/
theorem existsUnique_opening {s : List UInt8} (h : emptyLine <:+: s) : ∃! head, Opening .httpConnect head ∧ head <+: s := by
  obtain ⟨before, behind, hs⟩ := h
  obtain ⟨n, hn⟩ := exists_headEnd? ⟨behind, hs⟩ ⟨before, rfl⟩
  refine ⟨s.take n, ⟨opening_of_headEnd? hn, List.take_prefix n s⟩, ?_⟩
  rintro head ⟨hhead, r, hr⟩
  exact hhead.unique (opening_of_headEnd? hn) (hr.trans (List.take_append_drop n s).symm)

/-- a client whose first byte is not the version is read as an HTTP request -/
theorem readRequest_http {pieces : List (List UInt8)} (hne : pieces.flatten ≠ []) (hfirst : pieces.flatten.head? ≠ some 5) :
    readRequest pieces = some (read pieces) := by
  unfold readRequest
  split
  next hnil => exact absurd hnil hne
  next first rest hbytes =>
    rw [hbytes] at hfirst
    rw [if_neg (by simpa [Socks.version] using hfirst)]

/-- **Reading does not depend on the pieces.**
- A stream with an empty line has exactly one head, the bytes up to and with the first one.
- When the head is within the limit and does not start with the version, then in whatever pieces a stream with this head
  comes, the loop finds the end of the head, the limit is not met, and the verdict is a function of the head.
- A stream within the limit that has no empty line has ended in its head, whatever the pieces. -/
theorem http_segmentation :
    (∀ s, emptyLine <:+: s → ∃! head, Opening .httpConnect head ∧ head <+: s) ∧
    (∀ head, Opening .httpConnect head → head.length ≤ 8192 → head.head? ≠ some 5 →
      ∀ pieces : List (List UInt8), head <+: pieces.flatten →
        (∃ all rest, readHead [] pieces = (.ok (all, head.length), rest) ∧ head <+: all) ∧
        ∃ r, readRequest pieces = some r ∧ r.replies = [] ∧ r.outcome ≠ .error (.badRequest .tooLarge) ∧
          verdict r.outcome = verdict (ofHead head head.length)) ∧
    ∀ pieces : List (List UInt8), ¬ emptyLine <:+: pieces.flatten → pieces.flatten.length ≤ 8192 →
      (read pieces).outcome = .error (.badRequest .closed) ∧
        (pieces.flatten ≠ [] → pieces.flatten.head? ≠ some 5 → readRequest pieces = some (read pieces)) := by
  refine ⟨fun s => existsUnique_opening, ?_, ?_⟩
  · intro head hhead hlimit hfirst pieces hs
    have hlen := length_opening hhead
    have hnil : ([] : List UInt8).length < head.length := by
      rw [List.length_nil]
      omega
    obtain ⟨all, rest, hread, hall⟩ := readHead_opening hhead hlimit hnil (by simpa using hs)
    have hne : pieces.flatten ≠ [] := by
      intro hempty
      have hle := hs.length_le
      rw [hempty, List.length_nil] at hle
      omega
    have hstart : pieces.flatten.head? ≠ some 5 := by
      obtain ⟨r, hr⟩ := hs
      rwa [← hr, List.head?_append_of_ne_nil _ (List.length_pos_iff.1 (by omega))]
    have hvalue : read pieces = ⟨[], ofHead all head.length, rest.flatten⟩ := by simp only [read, hread]
    refine ⟨⟨all, rest, hread, hall⟩, read pieces, readRequest_http hne hstart, ?_⟩
    rw [hvalue]
    exact ⟨rfl, ofHead_ne_tooLarge all head.length, verdict_ofHead hall⟩
  · intro pieces hnone hlimit
    have hclosed : readHead [] pieces = (.error (.badRequest .closed), []) := by
      refine readHead_closed hlimit fun part hpart hends => ?_
      exact hnone (hends.isInfix.trans hpart.isInfix)
    exact ⟨by simp only [read, hclosed], readRequest_http⟩

/-- a head whose empty line is split over three pieces, with a byte behind it, and a head that is cut off -/
theorem http_segmentation_split :
    let line : List UInt8 := "CONNECT h:1 HTTP/1.1".toUTF8.data.toList
    let head := line ++ emptyLine
    let pieces : List (List UInt8) := [line ++ [13], [10, 13], [10, 22]]
    let cut : List (List UInt8) := [line, [13, 10], [13]]
    Opening .httpConnect head ∧ head.length ≤ 8192 ∧ head.head? ≠ some 5 ∧ head <+: pieces.flatten ∧
      (∃ r, readRequest pieces = some r ∧ verdict r.outcome = .ok (.httpConnect, "h:1")) ∧
      ¬ emptyLine <:+: cut.flatten ∧ cut.flatten.length ≤ 8192 ∧ (read cut).outcome = .error (.badRequest .closed) := by
  intro line head pieces cut
  have hend : headEnd? head = some head.length := by decide +kernel
  have hhead : Opening .httpConnect head := by simpa using opening_of_headEnd? hend
  have hlen : head.length ≤ 8192 := by decide +kernel
  have hfirst : head.head? ≠ some 5 := by decide +kernel
  have hs : head <+: pieces.flatten := by decide +kernel
  have hnone : ¬ emptyLine <:+: cut.flatten := by decide +kernel
  have hcut : cut.flatten.length ≤ 8192 := by decide +kernel
  obtain ⟨-, r, hr, -, -, hverdict⟩ := http_segmentation.2.1 head hhead hlen hfirst pieces hs
  have hasked : verdict (ofHead head head.length) = .ok (.httpConnect, "h:1") := by decide +kernel
  exact ⟨hhead, hlen, hfirst, hs, ⟨r, hr, hverdict.trans hasked⟩, hnone, hcut, (http_segmentation.2.2 cut hnone hcut).1⟩

end EdgeTunnel.Proxy.Http
