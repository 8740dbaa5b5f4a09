/-
Numbers as bytes and sealed texts: what was written is read back.

- `natOfBytes_bytesOfNat`: a number below the size of its field is read back from its bytes.
- `bytesOfNat_natOfBytes`: bytes are written back from their number.
- `openSealed_sealed`: a sealed text opens to the text, under the key and the additional data of its sealing. Nothing is
  assumed of the stream cipher or of the tag: the tag is recomputed from the same bytes, and the key stream cancels itself.
- `openSealed_eq_some`: nothing else opens to the text. A box as long as a tag opens to the empty text or not at all.
-/
import EdgeTunnel.Crypto.Aead
import Mathlib.Tactic

namespace EdgeTunnel.Crypto

/-! ## Numbers as bytes -/

theorem natOfBytes_bytesOfNat (len n : Nat) (h : n < 256 ^ len) : natOfBytes (bytesOfNat len n) = n := by
  induction len generalizing n with
  | zero => simp only [Nat.pow_zero] at h; simp only [bytesOfNat, natOfBytes]; omega
  | succ k ih =>
    have hd : n / 256 < 256 ^ k := by
      rw [Nat.div_lt_iff_lt_mul (by decide)]
      rwa [← Nat.pow_succ]
    have hb : (UInt8.ofNat (n % 256)).toNat = n % 256 := by simp
    simp only [bytesOfNat, natOfBytes, ih _ hd, hb]
    omega

theorem natOfBytes_lt (bs : List UInt8) : natOfBytes bs < 256 ^ bs.length := by
  induction bs with
  | nil => simp [natOfBytes]
  | cons b r ih =>
    have hb : b.toNat < 256 := b.toNat_lt
    calc natOfBytes (b :: r) < 256 + 256 * natOfBytes r := by simp only [natOfBytes]; omega
      _ ≤ 256 * 256 ^ r.length := by omega
      _ = 256 ^ (b :: r).length := by rw [List.length_cons, Nat.pow_succ, Nat.mul_comm]

theorem bytesOfNat_natOfBytes (bs : List UInt8) : bytesOfNat bs.length (natOfBytes bs) = bs := by
  induction bs with
  | nil => rfl
  | cons b r ih =>
    have hb : b.toNat < 256 := b.toNat_lt
    have hlow : (b.toNat + 256 * natOfBytes r) % 256 = b.toNat := by omega
    have hhigh : (b.toNat + 256 * natOfBytes r) / 256 = natOfBytes r := by omega
    simp only [List.length_cons, natOfBytes, bytesOfNat, hlow, hhigh, ih, UInt8.ofNat_toNat]

theorem natOfBytes_bigEndian (len n : Nat) (h : n < 256 ^ len) : natOfBytes (bigEndian len n).reverse = n := by
  rw [bigEndian, List.reverse_reverse, natOfBytes_bytesOfNat len n h]

theorem bigEndian_natOfBytes (bs : List UInt8) : bigEndian bs.length (natOfBytes bs.reverse) = bs := by
  rw [bigEndian, ← List.length_reverse, bytesOfNat_natOfBytes, List.reverse_reverse]

/-! ## Sealed texts -/

namespace Aead

theorem length_block (doubles : Nat) (key : List UInt32) (last : Row) : (ChaCha.block doubles key last).length = 16 := by
  simp [ChaCha.block, Row.toList]

theorem length_streamBlock (key : List UInt8) (n : Nat) : (streamBlock key n).length = 64 := by
  have h : ∀ w ∈ ChaCha.block 10 (words key) ⟨UInt32.ofNat n, 0, 0, 0⟩, (bytesOfWord w).length = 4 := fun w _ => rfl
  simp only [streamBlock, List.length_flatMap]
  rw [List.map_congr_left h]
  simp [length_block]

@[simp] theorem length_stream (key : List UInt8) (len : Nat) : (stream key len).length = len := by
  simp only [stream, List.length_take, List.length_flatMap, length_streamBlock, List.map_const', List.length_range,
    List.sum_replicate, smul_eq_mul]
  omega

@[simp] theorem length_combine (key text : List UInt8) : (combine key text).length = text.length := by
  simp [combine]

theorem zipWith_xor_cancel (text pad : List UInt8) (h : text.length ≤ pad.length) :
    List.zipWith (· ^^^ ·) (List.zipWith (· ^^^ ·) text pad) pad = text := by
  induction text generalizing pad with
  | nil => simp
  | cons x xs ih =>
    cases pad with
    | nil => simp at h
    | cons y ys =>
      simp only [List.zipWith_cons_cons, List.cons.injEq]
      refine ⟨?_, ih ys (by simpa using h)⟩
      rw [UInt8.xor_assoc, UInt8.xor_self, UInt8.xor_zero]

/-- combining twice gives the text again: both times the key stream is the one for the text's length -/
theorem combine_combine (key text : List UInt8) : combine key (combine key text) = text := by
  rw [combine, length_combine]
  exact zipWith_xor_cancel text _ (by simp)

@[simp] theorem length_tag (key data text : List UInt8) : (tag key data text).length = 16 := by
  simp [tag, poly1305]

@[simp] theorem length_sealed (key text data : List UInt8) : (sealed key text data).length = text.length + 16 := by
  simp [sealed]

/-- **Open of seal.** A sealed text opens to the text. -/
theorem openSealed_sealed (key text data : List UInt8) : openSealed key (sealed key text data) data = some text := by
  have hlen : (sealed key text data).length - 16 = (combine key text).length := by simp
  simp only [openSealed, hlen]
  rw [if_neg (by simp)]
  simp only [sealed, List.take_left, List.drop_left, if_true, combine_combine]

/-- only the sealing of a text opens to it -/
theorem openSealed_eq_some (key text data box : List UInt8) :
    openSealed key box data = some text ↔ box = sealed key text data := by
  constructor
  · intro h
    simp only [openSealed] at h
    split at h
    · cases h
    · split at h
      next htag =>
        -- the key stream cancels itself, so the text combines to the start of the box again
        have hc : combine key text = box.take (box.length - 16) := by rw [← Option.some.inj h, combine_combine]
        simp only [sealed, hc, htag, List.take_append_drop]
      · cases h
  · rintro rfl
    exact openSealed_sealed key text data

/-- a box as long as a tag opens when it seals the empty text, and to nothing else -/
theorem openSealed_tag {box : List UInt8} (key data : List UInt8) (hbox : box.length = 16) :
    openSealed key box data = if sealed key [] data = box then some [] else none := by
  split
  next h => exact (openSealed_eq_some key [] data box).2 h.symm
  next h =>
    cases hopen : openSealed key box data with
    | none => rfl
    | some text =>
      have heq := (openSealed_eq_some key text data box).1 hopen
      have hlen : text.length = 0 := by
        have := congrArg List.length heq
        simp only [hbox, length_sealed] at this
        omega
      rw [List.eq_nil_of_length_eq_zero hlen] at heq
      exact absurd heq.symm h

end Aead

end EdgeTunnel.Crypto
