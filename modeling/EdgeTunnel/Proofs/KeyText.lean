/-
The texts of keys.

A key has one text: 43 symbols with its 256 bits, six at a time, and one character of padding. A text is read as a key exactly
when it is that one, blanks around it aside; what is refused tells the texts of other byte strings from the rest.

- `parse_eq_ok_iff`, `parse_eq_invalidLength_iff`, `parse_eq_invalidBase64_iff`: each verdict on a text.
- `key_text_canonical`: all of them, for a key by itself and for the keys of a probe.
-/
import EdgeTunnel.Key
import EdgeTunnel.Proofs.Text.Base64
import EdgeTunnel.Proofs.Text.Blank

namespace EdgeTunnel

open Text

namespace Key

/-! ## The text of a key -/

theorem noBlank_text (k : Key) : ∀ c ∈ k.text, isBlank c = false := by
  have hsymbol : ∀ n < 64, isBlank (Base64.symbol n) = false := by decide
  intro c hc
  rcases Base64.isSymbol_of_mem_encode c hc with rfl | ⟨n, hn, rfl⟩
  · decide
  · exact hsymbol n hn

theorem trim_text (k : Key) : trim k.text = k.text := trim_eq (trimmed_of_noBlank (noBlank_text k))

/-- **The text of a key is its bits, six at a time**: 43 symbols for 256 bits and two zero bits, then one character of
padding. -/
theorem text_eq_symbols (k : Key) :
    ∃ ds : List Nat, ds.length = 43 ∧ (∀ d ∈ ds, d < 64) ∧ k.text = ds.map Base64.symbol ++ ['='] ∧
      Nat.ofDigits 64 ds.reverse = 4 * Nat.ofDigits 256 (k.bytes.map UInt8.toNat).reverse := by
  obtain ⟨ds, hds, hlength, htext, hnumber⟩ := Base64.exists_digits k.bytes
  have hpadding : Base64.padding k.bytes = 1 := by rw [Base64.padding, k.length_bytes]
  rw [k.length_bytes, hpadding] at hlength
  rw [hpadding] at htext hnumber
  exact ⟨ds, by omega, hds, htext, hnumber⟩

theorem length_text (k : Key) : k.text.length = 44 := by
  obtain ⟨ds, hlength, -, htext, -⟩ := text_eq_symbols k
  rw [htext, List.length_append, List.length_map, hlength]
  rfl

theorem text_ne_nil (k : Key) : k.text ≠ [] := by
  intro hnil
  have hlength := k.length_text
  rw [hnil] at hlength
  cases hlength

/-! ## Verdicts on a text -/

section
variable {s : List Char} {k : Key}

/-- a text is the text of no bytes, of 32, or of another number of them -/
theorem parse_cases (s : List Char) :
    Base64.decode (trim s) = none ∧ parse s = .error .invalidBase64 ∨
      (∃ k : Key, Base64.decode (trim s) = some k.bytes ∧ parse s = .ok k) ∨
      ∃ bs, bs.length ≠ 32 ∧ Base64.decode (trim s) = some bs ∧ parse s = .error (.invalidLength bs.length) := by
  rw [parse]
  cases hdecode : Base64.decode (trim s) with
  | none => exact .inl ⟨rfl, rfl⟩
  | some bs =>
    right
    by_cases hbs : bs.length = 32
    · exact .inl ⟨⟨bs, hbs⟩, rfl, dif_pos hbs⟩
    · exact .inr ⟨bs, hbs, rfl, dif_neg hbs⟩

/-- **A text is read as a key exactly when it is the key's text**, blanks around it aside. -/
theorem parse_eq_ok_iff : parse s = .ok k ↔ trim s = k.text := by
  rw [text, ← Base64.decode_eq_some_iff]
  obtain ⟨hdecode, hparse⟩ | ⟨k', hdecode, hparse⟩ | ⟨bs, hbs, hdecode, hparse⟩ := parse_cases s
  · simp [hdecode, hparse]
  · have hkey : k' = k ↔ k'.bytes = k.bytes := by rw [Key.mk.injEq]
    simp [hdecode, hparse, hkey]
  · have hne : bs ≠ k.bytes := fun heq => hbs (heq ▸ k.length_bytes)
    simp [hdecode, hparse, hne]

/-- **The bytes of a key are read back from its text.** -/
theorem parse_text (k : Key) : parse k.text = .ok k := parse_eq_ok_iff.2 k.trim_text

/-- a text is refused for its length exactly when it is the text of so many bytes -/
theorem parse_eq_invalidLength_iff {n : Nat} :
    parse s = .error (.invalidLength n) ↔ n ≠ 32 ∧ ∃ bs, bs.length = n ∧ trim s = Base64.encode bs := by
  simp only [← Base64.decode_eq_some_iff]
  obtain ⟨hdecode, hparse⟩ | ⟨k, hdecode, hparse⟩ | ⟨bs, hbs, hdecode, hparse⟩ := parse_cases s
  · simp [hdecode, hparse]
  · have hlength := k.length_bytes
    simp only [hdecode, hparse, reduceCtorEq, false_iff, not_and, not_exists]
    rintro hn bs rfl heq
    exact hn (Option.some.inj heq ▸ hlength)
  · rw [hdecode, hparse]
    simp only [Except.error.injEq, KeyError.invalidLength.injEq, Option.some.injEq, exists_eq_right']
    constructor
    · rintro rfl
      exact ⟨hbs, rfl⟩
    · exact fun h => h.2

/-- a text is refused as base64 exactly when it is the text of no bytes -/
theorem parse_eq_invalidBase64_iff : parse s = .error .invalidBase64 ↔ ∀ bs, trim s ≠ Base64.encode bs := by
  simp only [ne_eq, ← Base64.decode_eq_some_iff]
  obtain ⟨hdecode, hparse⟩ | ⟨k, hdecode, hparse⟩ | ⟨bs, hbs, hdecode, hparse⟩ := parse_cases s
  · simp [hdecode, hparse]
  · simp [hdecode, hparse]
  · simp [hdecode, hparse]

theorem parse_ne_lowOrderPoint (s : List Char) : parse s ≠ .error .lowOrderPoint := by
  obtain ⟨-, hparse⟩ | ⟨k, -, hparse⟩ | ⟨bs, -, -, hparse⟩ := parse_cases s
  · simp [hparse]
  · simp [hparse]
  · simp [hparse]

end

end Key

/-! ## The keys of a probe -/

section
variable {α β : Type} {x : Except KeyError α} {f : α → Except KeyError β}

theorem bind_eq_ok_iff {b : β} : x >>= f = .ok b ↔ ∃ a, x = .ok a ∧ f a = .ok b := by
  cases x with
  | error e => simp [bind, Except.bind]
  | ok a => simp [bind, Except.bind]

/-- the first reader that fails gives the error -/
theorem bind_eq_error_iff {e : KeyError} : x >>= f = .error e ↔ x = .error e ∨ ∃ a, x = .ok a ∧ f a = .error e := by
  cases x with
  | error e => simp [bind, Except.bind]
  | ok a => simp [bind, Except.bind]

end

namespace ProbeKeys

variable {own peer : List Char} {psk : Option (List Char)}

theorem mapM_eq_ok_iff {k : Option Key} : psk.mapM Key.parse = .ok k ↔ psk.map trim = k.map Key.text := by
  cases psk with
  | none => cases k <;> simp [pure, Except.pure]
  | some t =>
    have hmap : (some t).mapM Key.parse = Key.parse t >>= fun k => .ok (some k) := by
      rw [Option.mapM_some]
      cases Key.parse t <;> rfl
    rw [hmap, bind_eq_ok_iff]
    constructor
    · rintro ⟨a, ha, heq⟩
      obtain rfl := Except.ok.inj heq
      exact congrArg some (Key.parse_eq_ok_iff.1 ha)
    · intro htext
      obtain ⟨a, rfl, ha⟩ := Option.map_eq_some_iff.1 htext.symm
      exact ⟨a, Key.parse_eq_ok_iff.2 ha.symm, rfl⟩

theorem mapM_eq_error_iff {e : KeyError} : psk.mapM Key.parse = .error e ↔ ∃ t ∈ psk, Key.parse t = .error e := by
  cases psk with
  | none => simp [pure, Except.pure]
  | some t => cases h : Key.parse t <;> simp [h, Functor.map, Except.map]

/-- **Private, public and preshared keys are read alike**: each exactly from its own text, blanks around it aside. -/
theorem parse_eq_ok_iff {keys : ProbeKeys} : parse own peer psk = .ok keys ↔
    trim own = keys.own.key.text ∧ trim peer = keys.peer.key.text ∧ psk.map trim = keys.psk.map (·.key.text) := by
  obtain ⟨⟨o⟩, ⟨p⟩, k⟩ := keys
  obtain ⟨k, rfl⟩ : ∃ k', k = Option.map PresharedKey.mk k' := ⟨k.map (·.key), by cases k <;> rfl⟩
  have htexts : (k.map PresharedKey.mk).map (·.key.text) = k.map Key.text := Option.map_map ..
  have hinj : Function.Injective (Option.map PresharedKey.mk) :=
    Option.map_injective fun _ _ heq => congrArg PresharedKey.key heq
  rw [parse, htexts, ← Key.parse_eq_ok_iff, ← Key.parse_eq_ok_iff, ← mapM_eq_ok_iff]
  simp only [bind_eq_ok_iff]
  constructor
  · rintro ⟨o', ho, p', hp, k', hk, heq⟩
    obtain ⟨rfl, rfl, rfl⟩ : o' = o ∧ p' = p ∧ k' = k := by simpa [pure, Except.pure, hinj.eq_iff] using heq
    exact ⟨ho, hp, hk⟩
  · rintro ⟨ho, hp, hk⟩
    exact ⟨o, ho, p, hp, k, hk, rfl⟩

/-- the private key's error goes before the peer's, and that before the preshared key's -/
theorem parse_eq_error_iff {e : KeyError} : parse own peer psk = .error e ↔
    Key.parse own = .error e ∨ (∃ k, Key.parse own = .ok k) ∧
      (Key.parse peer = .error e ∨ (∃ k, Key.parse peer = .ok k) ∧ ∃ t ∈ psk, Key.parse t = .error e) := by
  rw [parse, bind_eq_error_iff, ← mapM_eq_error_iff]
  simp only [bind_eq_error_iff, pure, Except.pure, reduceCtorEq, and_false, exists_false, or_false, exists_and_right]

end ProbeKeys

/-- **Key text is canonical.**
- A text is read as a key exactly when it is the key's text, blanks around it aside; the text of a key has 44 characters and is
  read as that key.
- That text is the key's bits, six at a time, with two zero bits and one character of padding.
- Every other text is refused: for its length when it is the text of another number of bytes, else as base64.
- The private, public and preshared keys of a probe are read alike, and the first text that is refused gives the error. -/
theorem key_text_canonical (s : List Char) (k : Key) :
    (Key.parse s = .ok k ↔ trim s = k.text) ∧ k.text.length = 44 ∧ Key.parse k.text = .ok k ∧
    (∃ ds : List Nat, ds.length = 43 ∧ (∀ d ∈ ds, d < 64) ∧ k.text = ds.map Base64.symbol ++ ['='] ∧
      Nat.ofDigits 64 ds.reverse = 4 * Nat.ofDigits 256 (k.bytes.map UInt8.toNat).reverse) ∧
    (∀ n, Key.parse s = .error (.invalidLength n) ↔ n ≠ 32 ∧ ∃ bs, bs.length = n ∧ trim s = Base64.encode bs) ∧
    (Key.parse s = .error .invalidBase64 ↔ ∀ bs, trim s ≠ Base64.encode bs) ∧ Key.parse s ≠ .error .lowOrderPoint ∧
    ∀ (own peer : List Char) (psk : Option (List Char)),
      (∀ keys, ProbeKeys.parse own peer psk = .ok keys ↔
        trim own = keys.own.key.text ∧ trim peer = keys.peer.key.text ∧ psk.map trim = keys.psk.map (·.key.text)) ∧
      ∀ e, ProbeKeys.parse own peer psk = .error e ↔
        Key.parse own = .error e ∨ (∃ k, Key.parse own = .ok k) ∧
          (Key.parse peer = .error e ∨ (∃ k, Key.parse peer = .ok k) ∧ ∃ t ∈ psk, Key.parse t = .error e) :=
  ⟨Key.parse_eq_ok_iff, k.length_text, k.parse_text, k.text_eq_symbols, fun _ => Key.parse_eq_invalidLength_iff,
    Key.parse_eq_invalidBase64_iff, Key.parse_ne_lowOrderPoint s,
    fun _ _ _ => ⟨fun _ => ProbeKeys.parse_eq_ok_iff, fun _ => ProbeKeys.parse_eq_error_iff⟩⟩

end EdgeTunnel
