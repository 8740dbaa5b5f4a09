/-
Addresses and prefixes that are written and read back, each as a text of its own.

- `Ip.text_read`: an address is read back from its text.
- `Cidr.text_read`: so is a prefix.
- `Ip.isAddressChar_of_mem_text`: the text of an address is made of digits, colons and dots.
- `Ip.isAddressChar_of_parse`: so is every other text that is read as an address.
-/
import EdgeTunnel.Net.Cidr
import EdgeTunnel.Proofs.Net.AddressText
import EdgeTunnel.Proofs.Text.Blank

namespace EdgeTunnel

open Text

namespace Ip

/-! ## The characters of an address -/

/-- can a character stand in the text of an address? -/
def IsAddressChar (c : Char) : Prop := isDigitOf 16 c = true ∨ c = ':' ∨ c = '.'

theorem isDigitOf_mono {a b : Nat} (hle : a ≤ b) {c : Char} (h : isDigitOf a c = true) : isDigitOf b c = true := by
  by_contra hb
  have hends : EndsDigits b [c] := endsDigits_cons (Bool.eq_false_of_not_eq_true hb)
  have hnone := hends.mono hle c rfl
  rw [h] at hnone
  cases hnone

theorem isBlank_eq_false_of_digit {c : Char} (h : isDigitOf 16 c = true) : isBlank c = false := by
  have hrange : (48 ≤ c.toNat ∧ c.toNat ≤ 57) ∨ (65 ≤ c.toNat ∧ c.toNat ≤ 102) := by
    simp only [isDigitOf, digitValue?, Bool.and_eq_true, decide_eq_true_eq] at h
    split_ifs at h
    all_goals first
      | omega
      | cases h
  simp only [isBlank, Bool.or_eq_false_iff, Bool.and_eq_false_iff, decide_eq_false_iff_not, beq_eq_false_iff_ne]
  omega

theorem IsAddressChar.isBlank_eq_false {c : Char} (h : IsAddressChar c) : isBlank c = false := by
  rcases h with h | rfl | rfl
  · exact isBlank_eq_false_of_digit h
  · decide
  · decide

theorem mem_dotted (n : Nat) : ∀ c ∈ dotted n, IsAddressChar c := by
  obtain ⟨a, b, d, e, -, -, -, -, -, htext⟩ := dotted_eq n
  have hdecimal : ∀ m, ∀ c ∈ decimal m, IsAddressChar c := fun m c hc =>
    .inl (isDigitOf_mono (by decide) (isDigitOf_of_mem_decimal m c hc))
  have hdot : IsAddressChar '.' := .inr (.inr rfl)
  rw [htext]
  simp only [List.forall_mem_append, List.forall_mem_cons]
  exact ⟨hdecimal a, hdot, hdecimal b, hdot, hdecimal d, hdot, hdecimal e⟩

theorem mem_groupText (gs : List Nat) : ∀ c ∈ groupText gs, isDigitOf 16 c = true ∨ c = ':' := by
  have hgroup : ∀ g, ∀ c ∈ hexadecimal g, isDigitOf 16 c = true ∨ c = ':' := fun g c hc =>
    .inl (isDigitOf_of_mem_toDigits (by decide) (by decide) c hc)
  cases gs with
  | nil => exact fun c hc => absurd hc List.not_mem_nil
  | cons g gs =>
    rw [groupText_cons, List.forall_mem_append]
    refine ⟨hgroup g, fun c hc => ?_⟩
    obtain ⟨h, -, hch⟩ := List.mem_flatMap.mp hc
    rcases List.mem_cons.mp hch with rfl | hch
    · exact .inr rfl
    · exact hgroup h c hch

/-- an IPv6 text without dotted octets -/
theorem mem_v6Text {n : Nat} (h : n / 2 ^ 32 ≠ 0xffff) : ∀ c ∈ v6Text n, isDigitOf 16 c = true ∨ c = ':' := by
  unfold v6Text
  rw [if_neg h]
  dsimp only
  split_ifs
  · have hcolons : ∀ c ∈ [':', ':'], isDigitOf 16 c = true ∨ c = ':' := fun c hc => .inr (by simpa using hc)
    exact List.forall_mem_append.mpr ⟨List.forall_mem_append.mpr ⟨mem_groupText _, hcolons⟩, mem_groupText _⟩
  · exact mem_groupText _

/-- **The text of an address is made of digits, colons and dots.** -/
theorem isAddressChar_of_mem_text (a : Ip) : ∀ c ∈ a.text, IsAddressChar c := by
  obtain ⟨family, n, hn⟩ := a
  cases family with
  | v4 => exact mem_dotted n
  | v6 =>
    by_cases hmapped : n / 2 ^ 32 = 0xffff
    · have hhead : ∀ c ∈ "::ffff:".toList, IsAddressChar c := by
        have hchars : ∀ c ∈ "::ffff:".toList, c = ':' ∨ c = 'f' := by simp
        intro c hc
        rcases hchars c hc with rfl | rfl
        · exact .inr (.inl rfl)
        · exact .inl rfl
      have htext : text ⟨.v6, n, hn⟩ = "::ffff:".toList ++ dotted (n % 2 ^ 32) := if_pos hmapped
      rw [htext]
      exact List.forall_mem_append.mpr ⟨hhead, mem_dotted _⟩
    · intro c hc
      rcases mem_v6Text hmapped c hc with hdigit | hcolon
      · exact .inl hdigit
      · exact .inr (.inl hcolon)

/-! ## Addresses -/

theorem readDotted_v6Text (n : Nat) : readDotted (v6Text n) = none := by
  apply readDotted_eq_none
  by_cases hmapped : n / 2 ^ 32 = 0xffff
  · have htext : v6Text n = ':' :: (":ffff:".toList ++ dotted (n % 2 ^ 32)) := if_pos hmapped
    rw [htext, List.dropWhile_cons_of_neg (by decide)]
    simp
  · intro hdot
    have hmem := (List.dropWhile_suffix _).subset (List.mem_of_mem_head? hdot)
    rcases mem_v6Text hmapped _ hmem with hdigit | hcolon
    · exact absurd hdigit (by decide)
    · cases hcolon

/-- **An address is read back from its text.** -/
theorem text_read (a : Ip) : parse a.text = some a := by
  obtain ⟨family, n, hn⟩ := a
  have hip : ofNat family n = ⟨family, n, hn⟩ := by simp [ofNat, Nat.mod_eq_of_lt hn]
  cases family with
  | v4 =>
    have hends : EndsDigits 10 [] := fun c hc => absurd hc (by simp)
    have hread := readDotted_dotted hn hends
    rw [List.append_nil] at hread
    simp only [parse, text, hread, hip]
  | v6 =>
    have hends : EndsGroups [] := .inr fun c hc => absurd hc (by simp)
    have hread := readV6_v6Text hn hends
    rw [List.append_nil] at hread
    simp only [parse, text, readDotted_v6Text, hread, hip]

theorem text_ne_nil (a : Ip) : a.text ≠ [] := by
  intro hnil
  have hread := a.text_read
  rw [hnil] at hread
  cases hread

end Ip

/-! ## Texts of addresses -/

namespace Ip

/-- has a reader gone over characters of an address only, down to the rest? -/
def GoesOver (s rest : List Char) : Prop := ∃ front, s = front ++ rest ∧ ∀ c ∈ front, IsAddressChar c

theorem GoesOver.refl (s : List Char) : GoesOver s s := ⟨[], rfl, fun _ hc => absurd hc List.not_mem_nil⟩

theorem GoesOver.trans {s t rest : List Char} (h : GoesOver s t) (h' : GoesOver t rest) : GoesOver s rest := by
  obtain ⟨front, rfl, hfront⟩ := h
  obtain ⟨middle, rfl, hmiddle⟩ := h'
  exact ⟨front ++ middle, (List.append_assoc ..).symm, List.forall_mem_append.2 ⟨hfront, hmiddle⟩⟩

theorem goesOver_cons {c : Char} (hc : IsAddressChar c) (rest : List Char) : GoesOver (c :: rest) rest :=
  ⟨[c], rfl, List.forall_mem_singleton.2 hc⟩

theorem goesOver_readDigits {rule : DigitRule} (hbase : rule.base ≤ 16) {s rest : List Char} {n : Nat}
    (h : readDigits rule s = some (n, rest)) : GoesOver s rest := by
  rw [readDigits_rest h]
  exact ⟨_, List.takeWhile_append_dropWhile.symm, fun c hc => .inl (isDigitOf_mono hbase (List.mem_takeWhile_imp hc))⟩

/-- three octets with a dot after each, and one more -/
theorem readDotted_eq_some {s rest : List Char} {n : Nat} (h : readDotted s = some (n, rest)) :
    ∃ a b c d, ∃ s₁ s₂ s₃, readDigits octetRule s = some (a, '.' :: s₁) ∧
      readDigits octetRule s₁ = some (b, '.' :: s₂) ∧
      readDigits octetRule s₂ = some (c, '.' :: s₃) ∧ readDigits octetRule s₃ = some (d, rest) := by
  simp only [readDotted, bind, Option.bind_eq_some_iff] at h
  obtain ⟨⟨a, t₁⟩, ha, h⟩ := h
  split at h
  case h_2 => cases h
  case h_1 heq =>
    obtain ⟨rfl, rfl⟩ := Prod.mk.inj heq
    obtain ⟨⟨b, t₂⟩, hb, h⟩ := Option.bind_eq_some_iff.1 h
    split at h
    case h_2 => cases h
    case h_1 heq =>
      obtain ⟨rfl, rfl⟩ := Prod.mk.inj heq
      obtain ⟨⟨c, t₃⟩, hc, h⟩ := Option.bind_eq_some_iff.1 h
      split at h
      case h_2 => cases h
      case h_1 heq =>
        obtain ⟨rfl, rfl⟩ := Prod.mk.inj heq
        obtain ⟨⟨d, t₄⟩, hd, h⟩ := Option.bind_eq_some_iff.1 h
        obtain rfl := (Prod.mk.inj (Option.some.inj h)).2
        exact ⟨_, _, _, d, _, _, _, ha, hb, hc, hd⟩

theorem goesOver_readDotted {s rest : List Char} {n : Nat} (h : readDotted s = some (n, rest)) : GoesOver s rest := by
  have hoctet : ∀ {s rest : List Char} {m : Nat}, readDigits octetRule s = some (m, rest) → GoesOver s rest :=
    goesOver_readDigits (by decide)
  have hdot : ∀ rest, GoesOver ('.' :: rest) rest := goesOver_cons (.inr (.inr rfl))
  obtain ⟨a, b, c, d, s₁, s₂, s₃, ha, hb, hc, hd⟩ := readDotted_eq_some h
  exact (hoctet ha).trans ((hdot _).trans ((hoctet hb).trans ((hdot _).trans ((hoctet hc).trans ((hdot _).trans (hoctet hd))))))

theorem goesOver_afterColon {first : Bool} {s r : List Char} (h : afterColon first s = some r) : GoesOver s r := by
  unfold afterColon at h
  split_ifs at h
  · obtain rfl := Option.some.inj h
    exact .refl _
  · split at h
    · obtain rfl := Option.some.inj h
      exact goesOver_cons (.inr (.inl rfl)) _
    · cases h

theorem goesOver_readGroups (limit : Nat) (first : Bool) (s : List Char) : GoesOver s (readGroups limit first s).2.2 := by
  induction limit generalizing first s with
  | zero => exact .refl s
  | succ limit ih =>
    rw [readGroups]
    split
    · rename_i hdotted
      split_ifs at hdotted
      obtain ⟨r, hr, hread⟩ := Option.bind_eq_some_iff.1 hdotted
      exact (goesOver_afterColon hr).trans (goesOver_readDotted hread)
    · split
      · rename_i hdigits
        obtain ⟨r, hr, hread⟩ := Option.bind_eq_some_iff.1 hdigits
        exact (goesOver_afterColon hr).trans ((goesOver_readDigits (by decide) hread).trans (ih _ _))
      · exact .refl s

theorem goesOver_readV6 {s rest : List Char} {n : Nat} (h : readV6 s = some (n, rest)) : GoesOver s rest := by
  have hcolon : ∀ rest, GoesOver (':' :: rest) rest := goesOver_cons (.inr (.inl rfl))
  have hhead := goesOver_readGroups 8 true s
  simp only [readV6] at h
  split_ifs at h
  · rwa [(Prod.mk.inj (Option.some.inj h)).2] at hhead
  · split at h
    · rename_i hrest
      rw [hrest] at hhead
      rw [← (Prod.mk.inj (Option.some.inj h)).2]
      exact hhead.trans ((hcolon _).trans ((hcolon _).trans (goesOver_readGroups ..)))
    · cases h

/-- **A text that is read as an address is made of digits, colons and dots.** -/
theorem isAddressChar_of_parse {s : List Char} {a : Ip} (h : parse s = some a) : ∀ c ∈ s, IsAddressChar c := by
  have hall : GoesOver s [] → ∀ c ∈ s, IsAddressChar c := by
    rintro ⟨front, rfl, hfront⟩
    rwa [List.append_nil]
  unfold parse at h
  split at h
  · rename_i hread
    exact hall (goesOver_readDotted hread)
  · cases h
  · split at h
    · rename_i hread
      exact hall (goesOver_readV6 hread)
    · cases h

end Ip

/-! ## Prefixes -/

namespace Cidr

theorem slash_notMem_text (a : Ip) : '/' ∉ a.text := by
  intro hmem
  rcases a.isAddressChar_of_mem_text _ hmem with hdigit | hcolon | hdot
  · exact absurd hdigit (by decide)
  · cases hcolon
  · cases hdot

theorem trim_text (a : Ip) : trim a.text = a.text :=
  trim_eq (trimmed_of_noBlank fun c hc => (a.isAddressChar_of_mem_text c hc).isBlank_eq_false)

theorem noBlank_slash (a : Ip) (n : Nat) : ∀ c ∈ a.text ++ '/' :: decimal n, isBlank c = false := by
  simp only [List.forall_mem_append, List.forall_mem_cons]
  refine ⟨fun c hc => (a.isAddressChar_of_mem_text c hc).isBlank_eq_false, by decide, fun c hc => ?_⟩
  exact Ip.isBlank_eq_false_of_digit (Ip.isDigitOf_mono (by decide) (isDigitOf_of_mem_decimal n c hc))

/-- an address with a length, whatever its host bits -/
theorem parse_slash (a : Ip) {n : Nat} (h : n ≤ a.family.width) : parse (a.text ++ '/' :: decimal n) = .ok (around a n h) := by
  have hwidth : n ≤ 255 := h.trans (by cases a.family <;> decide)
  rw [parse, trim_eq (trimmed_of_noBlank (noBlank_slash a n))]
  simp only [splitAt?_append (slash_notMem_text a), a.text_read, readUnsigned_decimal hwidth, new, dif_pos h]

/-- an address alone -/
theorem parse_address (a : Ip) : parse a.text = .ok (around a a.family.width (Nat.le_refl _)) := by
  rw [parse, trim_text]
  simp only [splitAt?_eq_none (slash_notMem_text a), a.text_read]

/-- **A prefix is read back from its text.** -/
theorem text_read (p : Cidr) : parse p.text = .ok p := by
  obtain ⟨network, len, hlen, hcleared⟩ := p
  rw [text, parse_slash network hlen]
  simp only [around, hcleared]

end Cidr

end EdgeTunnel
