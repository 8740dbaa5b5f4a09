/-
Which texts are prefixes, and what the others are refused for.

`Verdict` goes through a text without blanks around it: an address alone, or what stands before and after the first slash.
Texts that are refused are told apart by what is wrong first. It does not speak of the reader, and of the prefixes that are
read it says only which address they hold and how long they are; that makes out the prefix.

- `parse_of_verdict`, `exists_verdict`: the reader gives the verdict on every text, and every text has one.
- `prefix_grammar`: all of it for a text with blanks around it, and every prefix is read back from its own text.
-/
import EdgeTunnel.Proofs.Net.AddressSets
import EdgeTunnel.Proofs.Net.PrefixText

namespace EdgeTunnel.Cidr

open Text

/-- the verdict on a text without blanks around it -/
inductive Verdict : List Char → Except CidrError Cidr → Prop
  | address {t : List Char} {a : Ip} {p : Cidr} (alone : '/' ∉ t) (read : Ip.parse t = some a)
      (whole : p.len = a.family.width) (holds : p.contains a = true) : Verdict t (.ok p)
  | noAddress {t : List Char} (alone : '/' ∉ t) (unread : Ip.parse t = none) :
      Verdict t (.error (.parse (String.ofList t)))
  | network {host len : List Char} {a : Ip} {p : Cidr} (first : '/' ∉ host) (read : Ip.parse host = some a)
      (number : IsNumeral len p.len) (holds : p.contains a = true) : Verdict (host ++ '/' :: len) (.ok p)
  | noHost {host len : List Char} (first : '/' ∉ host) (unread : Ip.parse host = none) :
      Verdict (host ++ '/' :: len) (.error (.parse (String.ofList (host ++ '/' :: len))))
  /-- a length is a byte -/
  | noLength {host len : List Char} (first : '/' ∉ host) (unread : ∀ n ≤ 255, ¬ IsNumeral len n) :
      Verdict (host ++ '/' :: len) (.error (.parse (String.ofList (host ++ '/' :: len))))
  | tooLong {host len : List Char} {a : Ip} {n : Nat} (first : '/' ∉ host) (read : Ip.parse host = some a)
      (number : IsNumeral len n) (byte : n ≤ 255) (exceeds : a.family.width < n) :
      Verdict (host ++ '/' :: len) (.error (.invalidLength n a.family.width))

theorem width_le_byte (f : Family) : f.width ≤ 255 := by cases f <;> decide

theorem readUnsigned_eq_none {most : Nat} {s : List Char} (h : ∀ n ≤ most, ¬ IsNumeral s n) :
    readUnsigned most s = none := by
  rw [Option.eq_none_iff_forall_not_mem]
  intro n hn
  obtain ⟨hmost, hnumeral⟩ := readUnsigned_eq_some_iff.1 hn
  exact h n hmost hnumeral

theorem parse_trim (s : List Char) : parse (trim s) = parse s := by
  rw [parse, parse, trim_eq (trimmed_trim s)]

/-- **The reader gives the verdict.** -/
theorem parse_of_verdict {t : List Char} {r : Except CidrError Cidr} (ht : trim t = t) (h : Verdict t r) : parse t = r := by
  rw [parse, ht]
  cases h with
  | @address t a p alone read whole holds =>
    have hnew := new_of_contains holds
    rw [new, dif_pos whole.le] at hnew
    simp only [whole] at hnew
    simp only [splitAt?_eq_none alone, read, hnew]
  | noAddress alone unread => simp only [splitAt?_eq_none alone, unread]
  | @network host len a p first read number holds =>
    have hbyte : p.len ≤ 255 := p.len_le.trans (width_le_byte _)
    simp only [splitAt?_append first, read, readUnsigned_eq_some_iff.2 ⟨hbyte, number⟩, new_of_contains holds]
  | noHost first unread => simp only [splitAt?_append first, unread]
  | @noLength host len first unread =>
    simp only [splitAt?_append first, readUnsigned_eq_none unread]
    cases Ip.parse host <;> rfl
  | @tooLong host len a n first read number byte exceeds =>
    have hnew : new a n = .error (.invalidLength n a.family.width) := dif_neg (Nat.not_le.2 exceeds)
    simp only [splitAt?_append first, read, readUnsigned_eq_some_iff.2 ⟨byte, number⟩, hnew]

theorem exists_verdict_alone {t : List Char} (alone : '/' ∉ t) : ∃ r, Verdict t r := by
  cases hread : Ip.parse t with
  | none => exact ⟨_, .noAddress alone hread⟩
  | some a => exact ⟨_, .address alone hread rfl (contains_around a (Nat.le_refl _))⟩

theorem exists_verdict_cut {host : List Char} (first : '/' ∉ host) (len : List Char) :
    ∃ r, Verdict (host ++ '/' :: len) r := by
  by_cases hnumber : ∃ n ≤ 255, IsNumeral len n
  · obtain ⟨n, hbyte, hnumber⟩ := hnumber
    cases hread : Ip.parse host with
    | none => exact ⟨_, .noHost first hread⟩
    | some a =>
      by_cases hn : n ≤ a.family.width
      · exact ⟨.ok (around a n hn), .network first hread hnumber (contains_around a hn)⟩
      · exact ⟨_, .tooLong first hread hnumber hbyte (Nat.lt_of_not_le hn)⟩
  · exact ⟨_, .noLength first fun n hbyte hn => hnumber ⟨n, hbyte, hn⟩⟩

/-- **Every text has a verdict.** -/
theorem exists_verdict (t : List Char) : ∃ r, Verdict t r := by
  by_cases hslash : '/' ∈ t
  · obtain ⟨host, len, rfl, first⟩ := List.eq_append_cons_of_mem hslash
    exact exists_verdict_cut first len
  · exact exists_verdict_alone hslash

theorem verdict_iff {t : List Char} (ht : trim t = t) (r : Except CidrError Cidr) : Verdict t r ↔ parse t = r := by
  refine ⟨parse_of_verdict ht, ?_⟩
  rintro rfl
  obtain ⟨r, hr⟩ := exists_verdict t
  rwa [parse_of_verdict ht hr]

/-- **Which texts are prefixes.**
- Every prefix is read back from its text.
- A text is read as its part without the blanks around it, by the verdict on that part: an address alone is the prefix of its
  whole length; an address and a number after the first slash are the prefix of that length that holds the address; what is
  no address, or no number up to 255 after the slash, is no prefix; a number over the width of the address is refused as a
  length. -/
theorem prefix_grammar :
    (∀ p : Cidr, parse p.text = .ok p) ∧
    ∀ (s : List Char) (r : Except CidrError Cidr),
      parse s = r ↔
        ∃ before t after, Blanks before ∧ Blanks after ∧ Trimmed t ∧ s = before ++ t ++ after ∧ Verdict t r := by
  refine ⟨text_read, fun s r => ⟨fun h => ?_, ?_⟩⟩
  · obtain ⟨before, after, hbefore, hafter, hs⟩ := exists_padding s
    have htrim : trim (trim s) = trim s := trim_eq (trimmed_trim s)
    exact ⟨before, trim s, after, hbefore, hafter, trimmed_trim s, hs, (verdict_iff htrim r).2 (by rw [parse_trim, h])⟩
  · rintro ⟨before, t, after, hbefore, hafter, htrimmed, rfl, hverdict⟩
    rw [← parse_trim, trim_padded hbefore hafter, parse_trim]
    exact parse_of_verdict (trim_eq htrimmed) hverdict

example : parse " 10.1.2.3/+08 ".toList = .ok (around ⟨.v4, 0x0a010203, by decide⟩ 8 (by decide)) ∧
    parse "10.1.2.3/33".toList = .error (.invalidLength 33 32) ∧
    parse "10.1.2.3/256".toList = .error (.parse "10.1.2.3/256") := by decide +kernel

end EdgeTunnel.Cidr
