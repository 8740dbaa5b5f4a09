/-
Base64 that is written and read back.

A group of three bytes is read back from its four symbols (`decode_group`), of which none is the padding, and so is what is
left at the end from its padded group.

- `decode_encode`: every byte string is read back from its text; `encode_of_decode`: no other text reads as it.
- `exists_digits`: the text of a byte string is its bits, six at a time.
- `isSymbol_of_mem_encode`: the text has no characters but those of the alphabet and the padding.
-/
import EdgeTunnel.Power
import EdgeTunnel.Text.Base64
import Mathlib.Tactic

namespace EdgeTunnel.Text.Base64

theorem value?_symbol : ∀ n < 64, value? (symbol n) = some n := by decide

theorem symbol_ne_pad : ∀ n < 64, symbol n ≠ '=' := by decide

/-- the byte that two parts of symbols make -/
theorem ofNat_eq {a : UInt8} {n : Nat} (h : n = a.toNat) : UInt8.ofNat n = a := by rw [h, UInt8.ofNat_toNat]

theorem decode_group (a b c : UInt8) (r : List Char) :
    decode (symbol (a.toNat / 4) :: symbol (a.toNat % 4 * 16 + b.toNat / 16) ::
      symbol (b.toNat % 16 * 4 + c.toNat / 64) :: symbol (c.toNat % 64) :: r) = (decode r).map fun bs => a :: b :: c :: bs := by
  have ha := a.toNat_lt
  have hb := b.toNat_lt
  have hc := c.toNat_lt
  have hpad : symbol (c.toNat % 64) ≠ '=' := symbol_ne_pad _ (by omega)
  rw [decode]
  · rw [value?_symbol _ (by omega), value?_symbol _ (by omega), value?_symbol _ (by omega), value?_symbol _ (by omega)]
    cases decode r with
    | none => rfl
    | some bs =>
      have hfirst : UInt8.ofNat (a.toNat / 4 * 4 + (a.toNat % 4 * 16 + b.toNat / 16) / 16) = a := ofNat_eq (by omega)
      have hsecond : UInt8.ofNat ((a.toNat % 4 * 16 + b.toNat / 16) % 16 * 16 + (b.toNat % 16 * 4 + c.toNat / 64) / 4) = b :=
        ofNat_eq (by omega)
      have hthird : UInt8.ofNat ((b.toNat % 16 * 4 + c.toNat / 64) % 4 * 64 + c.toNat % 64) = c := ofNat_eq (by omega)
      simp only [hfirst, hsecond, hthird, Option.map_some]
  · intro _ hlast
    exact absurd hlast hpad
  · intro hlast
    exact absurd hlast hpad

/-- **Every byte string is read back from its text.** -/
theorem decode_encode (bs : List UInt8) : decode (encode bs) = some bs := by
  induction bs using encode.induct with
  | case1 => rfl
  | case2 a =>
    have ha := a.toNat_lt
    have hbyte : UInt8.ofNat (a.toNat / 4 * 4 + a.toNat % 4 * 16 / 16) = a := ofNat_eq (by omega)
    have hrest : a.toNat % 4 * 16 % 16 = 0 := by omega
    rw [encode, decode, value?_symbol _ (by omega), value?_symbol _ (by omega)]
    simp only [hrest, if_true, hbyte]
  | case3 a b =>
    have ha := a.toNat_lt
    have hb := b.toNat_lt
    have hfirst : UInt8.ofNat (a.toNat / 4 * 4 + (a.toNat % 4 * 16 + b.toNat / 16) / 16) = a := ofNat_eq (by omega)
    have hsecond : UInt8.ofNat ((a.toNat % 4 * 16 + b.toNat / 16) % 16 * 16 + b.toNat % 16 * 4 / 4) = b :=
      ofNat_eq (by omega)
    have hrest : b.toNat % 16 * 4 % 4 = 0 := by omega
    have hpad : symbol (b.toNat % 16 * 4) ≠ '=' := symbol_ne_pad _ (by omega)
    rw [encode, decode]
    · rw [value?_symbol _ (by omega), value?_symbol _ (by omega), value?_symbol _ (by omega)]
      simp only [hrest, if_true, hfirst, hsecond]
    · exact hpad
  | case4 a b c r ih => rw [encode, decode_group, ih, Option.map_some]

/-- is it a character of the alphabet, or the padding? -/
def IsSymbol (c : Char) : Prop := c = '=' ∨ ∃ n < 64, c = symbol n

theorem isSymbol_of_mem_encode {bs : List UInt8} : ∀ c ∈ encode bs, IsSymbol c := by
  induction bs using encode.induct with
  | case1 => exact fun c hc => absurd hc List.not_mem_nil
  | case2 a =>
    have ha := a.toNat_lt
    simp only [encode, List.forall_mem_cons]
    exact ⟨.inr ⟨_, by omega, rfl⟩, .inr ⟨_, by omega, rfl⟩, .inl rfl, .inl rfl,
      fun c hc => absurd hc List.not_mem_nil⟩
  | case3 a b =>
    have ha := a.toNat_lt
    have hb := b.toNat_lt
    simp only [encode, List.forall_mem_cons]
    exact ⟨.inr ⟨_, by omega, rfl⟩, .inr ⟨_, by omega, rfl⟩, .inr ⟨_, by omega, rfl⟩, .inl rfl,
      fun c hc => absurd hc List.not_mem_nil⟩
  | case4 a b c r ih =>
    have ha := a.toNat_lt
    have hb := b.toNat_lt
    have hc := c.toNat_lt
    simp only [encode, List.forall_mem_cons]
    exact ⟨.inr ⟨_, by omega, rfl⟩, .inr ⟨_, by omega, rfl⟩, .inr ⟨_, by omega, rfl⟩,
      .inr ⟨_, by omega, rfl⟩, ih⟩

/-! ## Texts that are read and written again -/

theorem toNat_byte {n : Nat} (h : n < 256) : (UInt8.ofNat n).toNat = n := UInt8.toNat_ofNat_of_lt' h

theorem symbol_of_value? {c : Char} {n : Nat} (h : value? c = some n) : n < 64 ∧ symbol n = c := by
  unfold value? at h
  dsimp only at h
  split_ifs at h with hupper hlower hdigit hplus hslash
  all_goals obtain rfl := Option.some.inj h
  · have hn : 65 + (c.toNat - 65) = c.toNat := by omega
    refine ⟨by omega, ?_⟩
    rw [symbol, if_pos (by omega), hn, Char.ofNat_toNat]
  · have hn : 71 + (c.toNat - 71) = c.toNat := by omega
    refine ⟨by omega, ?_⟩
    rw [symbol, if_neg (by omega), if_pos (by omega), hn, Char.ofNat_toNat]
  · refine ⟨by omega, ?_⟩
    rw [symbol, if_neg (by omega), if_neg (by omega), if_pos (by omega), Nat.add_sub_cancel, Char.ofNat_toNat]
  · exact ⟨by decide, hplus.symm⟩
  · exact ⟨by decide, hslash.symm⟩

/-- **What is read is written as it was**: no other text reads as the same bytes. -/
theorem encode_of_decode {s : List Char} {bs : List UInt8} (h : decode s = some bs) : encode bs = s := by
  fun_induction decode s generalizing bs with
  | case1 =>
    obtain rfl := Option.some.inj h
    rfl
  | case2 a b x y hb ha hrest =>
    obtain ⟨hx, rfl⟩ := symbol_of_value? ha
    obtain ⟨hy, rfl⟩ := symbol_of_value? hb
    obtain rfl := Option.some.inj h
    have hbyte : (UInt8.ofNat (x * 4 + y / 16)).toNat = x * 4 + y / 16 := toNat_byte (by omega)
    have hfirst : (x * 4 + y / 16) / 4 = x := by omega
    have hsecond : (x * 4 + y / 16) % 4 * 16 = y := by omega
    rw [encode, hbyte, hfirst, hsecond]
  | case5 a b c _ x y z hc hb ha hrest =>
    obtain ⟨hx, rfl⟩ := symbol_of_value? ha
    obtain ⟨hy, rfl⟩ := symbol_of_value? hb
    obtain ⟨hz, rfl⟩ := symbol_of_value? hc
    obtain rfl := Option.some.inj h
    have hbyte : (UInt8.ofNat (x * 4 + y / 16)).toNat = x * 4 + y / 16 := toNat_byte (by omega)
    have hbyte' : (UInt8.ofNat (y % 16 * 16 + z / 4)).toNat = y % 16 * 16 + z / 4 := toNat_byte (by omega)
    have hfirst : (x * 4 + y / 16) / 4 = x := by omega
    have hsecond : (x * 4 + y / 16) % 4 * 16 + (y % 16 * 16 + z / 4) / 16 = y := by omega
    have hthird : (y % 16 * 16 + z / 4) % 16 * 4 = z := by omega
    rw [encode, hbyte, hbyte', hfirst, hsecond, hthird]
  | case8 a b c d r _ _ x y z w bytes hr hd hc hb ha ih =>
    obtain ⟨hx, rfl⟩ := symbol_of_value? ha
    obtain ⟨hy, rfl⟩ := symbol_of_value? hb
    obtain ⟨hz, rfl⟩ := symbol_of_value? hc
    obtain ⟨hw, rfl⟩ := symbol_of_value? hd
    obtain rfl := Option.some.inj h
    have hbyte : (UInt8.ofNat (x * 4 + y / 16)).toNat = x * 4 + y / 16 := toNat_byte (by omega)
    have hbyte' : (UInt8.ofNat (y % 16 * 16 + z / 4)).toNat = y % 16 * 16 + z / 4 := toNat_byte (by omega)
    have hbyte'' : (UInt8.ofNat (z % 4 * 64 + w)).toNat = z % 4 * 64 + w := toNat_byte (by omega)
    have hfirst : (x * 4 + y / 16) / 4 = x := by omega
    have hsecond : (x * 4 + y / 16) % 4 * 16 + (y % 16 * 16 + z / 4) / 16 = y := by omega
    have hthird : (y % 16 * 16 + z / 4) % 16 * 4 + (z % 4 * 64 + w) / 64 = z := by omega
    have hfourth : (z % 4 * 64 + w) % 64 = w := by omega
    rw [encode, hbyte, hbyte', hbyte'', hfirst, hsecond, hthird, hfourth, ih hr]
  | case3 | case4 | case6 | case7 | case9 | case10 => cases h

theorem decode_eq_some_iff {s : List Char} {bs : List UInt8} : decode s = some bs ↔ s = encode bs :=
  ⟨fun h => (encode_of_decode h).symm, fun h => h ▸ decode_encode bs⟩

/-! ## The bits of a text -/

/-- the alphabet in order -/
example : (List.range 64).map symbol = "ABCDEFGHIJKLMNOPQRSTUVWXYZabcdefghijklmnopqrstuvwxyz0123456789+/".toList := by decide

/-- the padding: as many characters as bytes are missing from the last group -/
def padding (bs : List UInt8) : Nat := (3 - bs.length % 3) % 3

/-- **The text is the bits of the bytes, six at a time**, with two zero bits for each character of padding: read to the base
of 64, its symbols are the number that the bytes are to the base of 256, shifted by those bits. -/
theorem exists_digits (bs : List UInt8) :
    ∃ ds : List Nat, (∀ d ∈ ds, d < 64) ∧ 6 * ds.length = 8 * bs.length + 2 * padding bs ∧
      encode bs = ds.map symbol ++ List.replicate (padding bs) '=' ∧
      Nat.ofDigits 64 ds.reverse = 4 ^ padding bs * Nat.ofDigits 256 (bs.map UInt8.toNat).reverse := by
  induction bs using encode.induct with
  | case1 => exact ⟨[], List.forall_mem_nil _, rfl, rfl, rfl⟩
  | case2 a =>
    have ha := a.toNat_lt
    refine ⟨[a.toNat / 4, a.toNat % 4 * 16], ?_, rfl, rfl, ?_⟩
    · simp only [List.forall_mem_cons]
      exact ⟨by omega, by omega, List.forall_mem_nil _⟩
    · change Nat.ofDigits 64 [a.toNat % 4 * 16, a.toNat / 4] = 4 ^ 2 * Nat.ofDigits 256 [a.toNat]
      simp only [Nat.ofDigits_cons, Nat.ofDigits_nil]
      omega
  | case3 a b =>
    have ha := a.toNat_lt
    have hb := b.toNat_lt
    refine ⟨[a.toNat / 4, a.toNat % 4 * 16 + b.toNat / 16, b.toNat % 16 * 4], ?_, rfl, rfl, ?_⟩
    · simp only [List.forall_mem_cons]
      exact ⟨by omega, by omega, by omega, List.forall_mem_nil _⟩
    · change Nat.ofDigits 64 [b.toNat % 16 * 4, a.toNat % 4 * 16 + b.toNat / 16, a.toNat / 4] =
        4 ^ 1 * Nat.ofDigits 256 [b.toNat, a.toNat]
      simp only [Nat.ofDigits_cons, Nat.ofDigits_nil]
      omega
  | case4 a b c r ih =>
    have ha := a.toNat_lt
    have hb := b.toNat_lt
    have hc := c.toNat_lt
    obtain ⟨ds, hds, hlength, htext, hnumber⟩ := ih
    have hpad : padding (a :: b :: c :: r) = padding r := by
      simp only [padding, List.length_cons]
      omega
    refine ⟨[a.toNat / 4, a.toNat % 4 * 16 + b.toNat / 16, b.toNat % 16 * 4 + c.toNat / 64, c.toNat % 64] ++ ds,
      ?_, ?_, ?_, ?_⟩
    · simp only [List.cons_append, List.nil_append, List.forall_mem_cons]
      exact ⟨by omega, by omega, by omega, by omega, hds⟩
    · rw [hpad]
      simp only [List.length_append, List.length_cons, List.length_nil]
      omega
    · rw [encode, htext, hpad]
      rfl
    · have hshift : 64 ^ ds.length = 4 ^ padding r * 256 ^ r.length := by
        rw [show 64 = 2 ^ 6 from rfl, show 4 = 2 ^ 2 from rfl, show 256 = 2 ^ 8 from rfl, ← pow_mul, ← pow_mul, ← pow_mul,
          ← pow_add, hlength, Nat.add_comm]
      have hgroup : Nat.ofDigits 64
          [c.toNat % 64, b.toNat % 16 * 4 + c.toNat / 64, a.toNat % 4 * 16 + b.toNat / 16, a.toNat / 4] =
            Nat.ofDigits 256 [c.toNat, b.toNat, a.toNat] := by
        simp only [Nat.ofDigits_cons, Nat.ofDigits_nil]
        omega
      have hbytes : ((a :: b :: c :: r).map UInt8.toNat).reverse =
          (r.map UInt8.toNat).reverse ++ [c.toNat, b.toNat, a.toNat] := by simp
      rw [hpad, hbytes, List.reverse_append, Nat.ofDigits_append, Nat.ofDigits_append, hnumber, List.length_reverse,
        List.length_reverse, List.length_map, hshift, mul_add, mul_assoc]
      exact congrArg _ (congrArg _ (congrArg _ hgroup))

end EdgeTunnel.Text.Base64
