/-
What an initiator says to a datagram.

A datagram of 92 bytes is a `Frame`: each byte string of that length is the bytes of exactly one (`frame_of_length`).
`consume_frame` is the check as a ladder over the fields of the frame: type, receiver index, shared secrets, tag. What no
rung looks at is free: the reserved bytes, the two tags at the end, and the sender index up to its place in the answer.

- `consume_exact`: which datagrams get which answer, the answers that are never given, and the bytes that do not matter.
- `consume_exact_twins`: two datagrams that differ in all of those bytes.
-/
import EdgeTunnel.Proofs.Handshake.Exchange

namespace EdgeTunnel.Handshake

/-! ## Frames -/

/-- the fields of a datagram of 92 bytes -/
structure Frame where
  type : UInt8
  reserved : List UInt8
  sender : UInt32
  receiver : UInt32
  point : PublicKey
  tag : List UInt8
  macs : List UInt8
  length_reserved : reserved.length = 3
  length_tag : tag.length = 16
  length_macs : macs.length = 32

/-- slices that meet are one slice -/
theorem slice_append_slice {a b c : Nat} (bs : List UInt8) (hab : a ≤ b) (hbc : b ≤ c) :
    slice a b bs ++ slice b c bs = slice a c bs := by
  simp only [slice, List.drop_take]
  rw [show c - a = b - a + (c - b) by omega, List.take_add, List.drop_drop, show a + (b - a) = b by omega]

theorem length_slice {a b : Nat} {bs : List UInt8} (h : b ≤ bs.length) : (slice a b bs).length = b - a := by
  simp only [slice, List.length_drop, List.length_take]
  omega

theorem slice_slice {a b c d : Nat} (bs : List UInt8) (h : a + d ≤ b) :
    slice c d (slice a b bs) = slice (a + c) (a + d) bs := by
  simp only [slice, List.drop_take, List.take_take, List.drop_drop]
  rw [show min d (b - a) - c = a + d - (a + c) by omega]

/-- an index is written back from where it is read -/
theorem bytesOfNat_indexAt (i : Nat) (bs : List UInt8) (h : i + 4 ≤ bs.length) :
    Crypto.bytesOfNat 4 (indexAt i bs).toNat = slice i (i + 4) bs := by
  have hlen : (slice i (i + 4) bs).length = 4 := by rw [length_slice h]; omega
  have hlt := Crypto.natOfBytes_lt (slice i (i + 4) bs)
  have hback := Crypto.bytesOfNat_natOfBytes (slice i (i + 4) bs)
  rw [hlen] at hlt hback
  rw [indexAt, UInt32.toNat_ofNat', Nat.mod_eq_of_lt (by simpa using hlt), hback]

/-- a key is written back from where it is read -/
theorem bytes_keyAt (i : Nat) (bs : List UInt8) (h : i + 32 ≤ bs.length) :
    (keyAt i bs).key.bytes = slice i (i + 32) bs := by
  have hlen : (slice i (i + 32) bs).length = 32 := by rw [length_slice h]; omega
  simp [keyAt, Key.ofPrefix, hlen, List.take_of_length_le]

namespace Frame

/-- the datagram of a frame -/
def bytes (m : Frame) : List UInt8 :=
  m.type :: (m.reserved ++ Crypto.bytesOfNat 4 m.sender.toNat ++ Crypto.bytesOfNat 4 m.receiver.toNat ++
    m.point.key.bytes ++ m.tag ++ m.macs)

/-- where the fields of a frame stand -/
theorem parts (m : Frame) :
    m.bytes.length = 92 ∧ m.bytes.headD 0 = m.type ∧ slice 1 4 m.bytes = m.reserved ∧
      slice 4 8 m.bytes = Crypto.bytesOfNat 4 m.sender.toNat ∧
      slice 8 12 m.bytes = Crypto.bytesOfNat 4 m.receiver.toNat ∧ slice 12 44 m.bytes = m.point.key.bytes ∧
      slice 44 60 m.bytes = m.tag ∧ slice 60 92 m.bytes = m.macs := by
  have hr := m.length_reserved
  have ht := m.length_tag
  have hm := m.length_macs
  have hk := m.point.key.length_bytes
  refine ⟨by simp [bytes, hr, ht, hm, hk], rfl, ?_, ?_, ?_, ?_, ?_, ?_⟩
  all_goals simp only [bytes]
  all_goals simp [slice, hr, ht, hm, hk, List.take_append, List.drop_append, List.drop_eq_nil_of_le,
    List.take_of_length_le]

def ofBytes (d : List UInt8) (h : d.length = 92) : Frame where
  type := d.headD 0
  reserved := slice 1 4 d
  sender := indexAt 4 d
  receiver := indexAt 8 d
  point := keyAt 12 d
  tag := slice 44 60 d
  macs := slice 60 92 d
  length_reserved := length_slice (by omega)
  length_tag := length_slice (by omega)
  length_macs := length_slice (by omega)

theorem bytes_ofBytes (d : List UInt8) (h : d.length = 92) : (ofBytes d h).bytes = d := by
  cases d with
  | nil => cases h
  | cons b r =>
    have hsender := bytesOfNat_indexAt 4 (b :: r) (by omega)
    have hreceiver := bytesOfNat_indexAt 8 (b :: r) (by omega)
    have hpoint := bytes_keyAt 12 (b :: r) (by omega)
    have hjoin : slice 1 4 (b :: r) ++ slice 4 8 (b :: r) ++ slice 8 12 (b :: r) ++ slice 12 44 (b :: r) ++
        slice 44 60 (b :: r) ++ slice 60 92 (b :: r) = slice 1 92 (b :: r) := by
      repeat rw [slice_append_slice _ (by decide) (by decide)]
    have htail : slice 1 92 (b :: r) = r := by simp [slice, ← h]
    rw [bytes, ofBytes, hsender, hreceiver, hpoint, hjoin, htail]
    rfl

theorem ofBytes_bytes (m : Frame) (h : m.bytes.length = 92) : ofBytes m.bytes h = m := by
  obtain ⟨-, htype, hreserved, hsender, hreceiver, hpoint, htag, hmacs⟩ := m.parts
  simp only [ofBytes, htype, hreserved, indexAt_of_slice hsender, indexAt_of_slice hreceiver, keyAt_of_slice hpoint,
    htag, hmacs]

end Frame

/-- a datagram of 92 bytes is the bytes of exactly one frame -/
theorem frame_of_length {d : List UInt8} (h : d.length = 92) : ∃! m : Frame, m.bytes = d := by
  refine ⟨.ofBytes d h, Frame.bytes_ofBytes d h, ?_⟩
  rintro m rfl
  exact (m.ofBytes_bytes h).symm

/-! ## The ladder -/

namespace Frame

variable (g : Agreement) (i : Initiation) (m : Frame)

/-- a response to this initiation, as far as its first fields say -/
def Addressed : Prop := m.type = 2 ∧ m.receiver = i.index

/-- one of the two shared secrets with the point is all zero -/
def Degenerate : Prop := g.shared i.ephemeral m.point = Key.zero ∨ g.shared i.own m.point = Key.zero

/-- the tag seals the empty text, under the key and the hash that the point, the two secrets and the preshared key lead to -/
def Authentic : Prop :=
  let k := (i.transcript.meet m.point.key.bytes).settle (g.shared i.ephemeral m.point).bytes
    (g.shared i.own m.point).bytes i.psk
  Crypto.Aead.sealed k.1 [] k.2.hash = m.tag

instance : Decidable (m.Degenerate g i) := by unfold Degenerate; infer_instance

instance : Decidable (m.Authentic g i) := by unfold Authentic; infer_instance

end Frame

section Ladder

variable {g : Agreement} {i : Initiation} {m : Frame}

theorem answerState_degenerate (h : m.Degenerate g i) : i.answerState g m.point = .error (.key .lowOrderPoint) := by
  simp only [Initiation.answerState, secret, Agreement.secret]
  by_cases hee : g.shared i.ephemeral m.point = Key.zero
  · simp only [if_pos hee]; rfl
  · simp only [if_neg hee, if_pos (h.resolve_left hee)]; rfl

theorem answerState_ok (h : ¬ m.Degenerate g i) :
    i.answerState g m.point = .ok ((i.transcript.meet m.point.key.bytes).settle (g.shared i.ephemeral m.point).bytes
      (g.shared i.own m.point).bytes i.psk) := by
  obtain ⟨hee, hse⟩ := not_or.mp h
  simp only [Initiation.answerState, secret, Agreement.secret, if_neg hee, if_neg hse]
  rfl

/-- the check of a frame: each field is looked at when those before it were right -/
theorem consume_frame (g : Agreement) (i : Initiation) (m : Frame) :
    i.consume g m.bytes =
      if m.type ≠ 2 then .error (.unexpectedType m.type)
      else if m.receiver ≠ i.index then .error (.indexMismatch i.index m.receiver)
      else if m.Degenerate g i then .error (.key .lowOrderPoint)
      else if m.Authentic g i then .ok m.sender
      else .error .decrypt := by
  obtain ⟨hlen, htype, -, hsender, hreceiver, hpoint, htag, -⟩ := m.parts
  simp only [Initiation.consume, hlen, htype, indexAt_of_slice hreceiver, keyAt_of_slice hpoint,
    indexAt_of_slice hsender, htag, responseLength, responseType]
  by_cases ht : m.type = 2
  swap; · simp only [ne_eq, ht, not_true_eq_false, not_false_eq_true, if_true, if_false]; rfl
  by_cases hr : m.receiver = i.index
  swap; · simp only [ne_eq, ht, hr, not_true_eq_false, not_false_eq_true, if_true, if_false]; rfl
  simp only [ne_eq, ht, hr, not_true_eq_false, if_false]
  by_cases hd : m.Degenerate g i
  · simp only [answerState_degenerate hd, if_pos hd]; rfl
  · simp only [answerState_ok hd, if_neg hd, bind, Except.bind, pure, Except.pure]
    rw [Crypto.Aead.openSealed_tag _ _ m.length_tag]
    by_cases ha : m.Authentic g i
    · simp only [if_pos ha, if_pos (show _ = _ from ha)]; rfl
    · simp only [if_neg ha, if_neg (show ¬ _ = _ from ha)]; rfl

end Ladder

/-! ## The verdict -/

/-- which answer a frame gets: each when the ones before it do not apply -/
structure Frame.Verdict (g : Agreement) (i : Initiation) (m : Frame) (r : Except HandshakeError UInt32) : Prop where
  type : ∀ b, r = .error (.unexpectedType b) ↔ m.type = b ∧ b ≠ 2
  index : ∀ e n, r = .error (.indexMismatch e n) ↔ m.type = 2 ∧ i.index = e ∧ m.receiver = n ∧ n ≠ e
  key : ∀ cause, r = .error (.key cause) ↔ m.Addressed i ∧ m.Degenerate g i ∧ cause = .lowOrderPoint
  decrypt : r = .error .decrypt ↔ m.Addressed i ∧ ¬ m.Degenerate g i ∧ ¬ m.Authentic g i
  accepted : ∀ n, r = .ok n ↔ m.Addressed i ∧ ¬ m.Degenerate g i ∧ m.Authentic g i ∧ m.sender = n

theorem verdict_frame (g : Agreement) (i : Initiation) (m : Frame) : m.Verdict g i (i.consume g m.bytes) := by
  rw [consume_frame]
  by_cases ht : m.type = 2
  swap
  · rw [if_pos ht]
    constructor <;> simp [Frame.Addressed, ht]
  by_cases hr : m.receiver = i.index
  swap
  · rw [if_neg (not_not.mpr ht), if_pos hr]
    constructor <;> simp [Frame.Addressed, ht, hr]
  -- from here on the frame is addressed to this initiation, so the first two errors are out
  have ha : m.Addressed i := ⟨ht, hr⟩
  have htype : ∀ b, ¬ (m.type = b ∧ b ≠ 2) := by
    rintro b ⟨rfl, hb⟩
    exact hb ht
  have hindex : ∀ e n, ¬ (m.type = 2 ∧ i.index = e ∧ m.receiver = n ∧ n ≠ e) := by
    rintro e n ⟨-, rfl, rfl, hne⟩
    exact hne hr
  rw [if_neg (not_not.mpr ht), if_neg (not_not.mpr hr)]
  by_cases hd : m.Degenerate g i
  · rw [if_pos hd]
    constructor <;> simp [ha, hd, htype, hindex]
    exact fun cause => eq_comm
  rw [if_neg hd]
  by_cases hs : m.Authentic g i
  · rw [if_pos hs]
    constructor <;> simp [ha, hd, hs, htype, hindex]
  · rw [if_neg hs]
    constructor <;> simp [ha, hd, hs, htype, hindex]

theorem consume_badLength (g : Agreement) (i : Initiation) {d : List UInt8} (h : d.length ≠ 92) :
    i.consume g d = .error (.badLength d.length) := by
  simp only [Initiation.consume, responseLength, ne_eq, h, not_false_eq_true, if_true]
  rfl

/-- the errors that no frame gets -/
theorem consume_frame_ne (g : Agreement) (i : Initiation) (m : Frame) :
    (∀ n, i.consume g m.bytes ≠ .error (.badLength n)) ∧ (∀ n, i.consume g m.bytes ≠ .error (.unexpectedPayload n)) ∧
      i.consume g m.bytes ≠ .error .crypto := by
  rw [consume_frame]
  split_ifs <;> simp

/-- every datagram has the wrong length or is a frame -/
theorem length_or_frame (d : List UInt8) : d.length ≠ 92 ∨ ∃ m : Frame, m.bytes = d := by
  by_cases h : d.length = 92
  · exact .inr (frame_of_length h).exists
  · exact .inl h

theorem consume_badLength_iff (g : Agreement) (i : Initiation) (d : List UInt8) (n : Nat) :
    i.consume g d = .error (.badLength n) ↔ d.length = n ∧ n ≠ 92 := by
  rcases length_or_frame d with h | ⟨m, rfl⟩
  · rw [consume_badLength g i h]
    constructor
    · rintro ⟨⟩
      exact ⟨rfl, h⟩
    · rintro ⟨rfl, -⟩
      rfl
  · refine iff_of_false ((consume_frame_ne g i m).1 n) ?_
    rintro ⟨rfl, h⟩
    exact h m.parts.1

/-- no response carries a payload, and nothing fails but the checks -/
theorem consume_ne (g : Agreement) (i : Initiation) (d : List UInt8) :
    (∀ n, i.consume g d ≠ .error (.unexpectedPayload n)) ∧ i.consume g d ≠ .error .crypto := by
  rcases length_or_frame d with h | ⟨m, rfl⟩
  · rw [consume_badLength g i h]
    exact ⟨fun n hn => (nomatch hn), fun hn => (nomatch hn)⟩
  · exact (consume_frame_ne g i m).2

/-! ## Bytes that do not matter -/

/-- the fields that are looked at -/
def Frame.Alike (m m' : Frame) : Prop :=
  m.type = m'.type ∧ m.receiver = m'.receiver ∧ m.point = m'.point ∧ m.tag = m'.tag

/-- frames are alike when their datagrams agree on the type and on bytes 8 to 60 -/
theorem alike_of_slices {m m' : Frame} (htype : slice 0 1 m.bytes = slice 0 1 m'.bytes)
    (hfields : slice 8 60 m.bytes = slice 8 60 m'.bytes) : m.Alike m' := by
  have hpart : ∀ a b, 8 + b ≤ 60 → slice (8 + a) (8 + b) m.bytes = slice (8 + a) (8 + b) m'.bytes := by
    intro a b h
    rw [← slice_slice m.bytes h, ← slice_slice m'.bytes h, hfields]
  obtain ⟨-, -, -, -, hreceiver, hpoint, htag, -⟩ := m.parts
  obtain ⟨-, -, -, -, hreceiver', hpoint', htag', -⟩ := m'.parts
  refine ⟨List.head_eq_of_cons_eq htype, ?_, ?_, ?_⟩
  · rw [← indexAt_of_slice hreceiver, ← indexAt_of_slice ((hpart 0 4 (by decide)).trans hreceiver')]
  · rw [← keyAt_of_slice hpoint, ← keyAt_of_slice ((hpart 4 36 (by decide)).trans hpoint')]
  · exact htag.symm.trans ((hpart 36 52 (by decide)).trans htag')

/-- alike frames get the same answer, up to the index in it -/
theorem consume_alike (g : Agreement) (i : Initiation) {m m' : Frame} (h : m.Alike m') :
    i.consume g m.bytes = (i.consume g m'.bytes).map fun _ => m.sender := by
  obtain ⟨htype, hreceiver, hpoint, htag⟩ := h
  have hdegenerate : m.Degenerate g i ↔ m'.Degenerate g i := by rw [Frame.Degenerate, Frame.Degenerate, hpoint]
  have hauthentic : m.Authentic g i ↔ m'.Authentic g i := by rw [Frame.Authentic, Frame.Authentic, hpoint, htag]
  rw [consume_frame, consume_frame]
  simp only [htype, hreceiver, hdegenerate, hauthentic]
  split_ifs <;> rfl

/-- **The exact verdict.** For every initiation and every datagram:
- the length is wrong exactly when it is not 92, and a datagram of 92 bytes is exactly one frame;
- the answer to a frame is the one that `Frame.Verdict` says;
- no answer is about a payload or a failure of the primitives;
- of two datagrams of 92 bytes that agree on the type and on bytes 8 to 60, one is accepted when the other is, and both
  get the same error otherwise. When they agree on bytes 4 to 8 too, the index they give is the same. -/
theorem consume_exact (g : Agreement) (i : Initiation) :
    (∀ d n, i.consume g d = .error (.badLength n) ↔ d.length = n ∧ n ≠ 92) ∧
    (∀ d, d.length = 92 ↔ ∃! m : Frame, m.bytes = d) ∧
    (∀ m : Frame, m.Verdict g i (i.consume g m.bytes)) ∧
    (∀ d, (∀ n, i.consume g d ≠ .error (.unexpectedPayload n)) ∧ i.consume g d ≠ .error .crypto) ∧
    ∀ d d', d.length = 92 → d'.length = 92 → slice 0 1 d = slice 0 1 d' → slice 8 60 d = slice 8 60 d' →
      ((∃ n, i.consume g d = .ok n) ↔ ∃ n, i.consume g d' = .ok n) ∧
      (∀ e, i.consume g d = .error e ↔ i.consume g d' = .error e) ∧
      (slice 4 8 d = slice 4 8 d' → i.consume g d = i.consume g d') := by
  refine ⟨consume_badLength_iff g i, ?_, verdict_frame g i, consume_ne g i, ?_⟩
  · intro d
    constructor
    · exact frame_of_length
    · rintro ⟨m, rfl, -⟩
      exact m.parts.1
  · intro d d' hd hd' htype hfields
    obtain ⟨m, rfl, -⟩ := frame_of_length hd
    obtain ⟨m', rfl, -⟩ := frame_of_length hd'
    have h := consume_alike g i (alike_of_slices htype hfields)
    have hsender : slice 4 8 m.bytes = slice 4 8 m'.bytes → m.sender = m'.sender := by
      intro hs
      obtain ⟨-, -, -, hm, -⟩ := m.parts
      obtain ⟨-, -, -, hm', -⟩ := m'.parts
      rw [← indexAt_of_slice hm, ← indexAt_of_slice (hs.trans hm')]
    cases hc : i.consume g m'.bytes with
    | error e => simp [h, hc, Except.map]
    | ok n =>
      have hn : m'.sender = n := (((verdict_frame g i m').accepted n).1 hc).2.2.2
      simp only [h, hc, Except.map]
      refine ⟨by simp, by simp, ?_⟩
      intro hs
      rw [hsender hs, hn]

/-- an initiation with the index of the probes, to a responder of whom no message has been read -/
def openInitiation : Initiation :=
  ⟨[], probeIndex, .start (Agreement.curve25519.publicKey (uniformKey 2)), uniformKey 3, uniformKey 1, .zero⟩

/-- the response to it, with one value in all the bytes that nothing looks at -/
def filledAnswer (b : UInt8) : Frame where
  type := 2
  reserved := List.replicate 3 b
  sender := b.toUInt32
  receiver := probeIndex
  point := Agreement.curve25519.publicKey (uniformKey 4)
  tag :=
    let g := Agreement.curve25519
    let point := g.publicKey (uniformKey 4)
    let k := (openInitiation.transcript.meet point.key.bytes).settle (g.shared (uniformKey 3) point).bytes
      (g.shared (uniformKey 1) point).bytes .zero
    Crypto.Aead.sealed k.1 [] k.2.hash
  macs := List.replicate 32 b
  length_reserved := List.length_replicate
  length_tag := Crypto.Aead.length_sealed _ _ _
  length_macs := List.length_replicate

/-- a response is accepted, and so is the one that has other reserved bytes, another sender index and other tags -/
theorem consume_exact_twins :
    let g := Agreement.curve25519
    let d := (filledAnswer 0).bytes
    let d' := (filledAnswer 9).bytes
    d.length = 92 ∧ d'.length = 92 ∧ slice 0 1 d = slice 0 1 d' ∧ slice 8 60 d = slice 8 60 d' ∧
      slice 1 8 d ≠ slice 1 8 d' ∧ slice 60 92 d ≠ slice 60 92 d' ∧
      openInitiation.consume g d = .ok 0 ∧ ∃ n, openInitiation.consume g d' = .ok n := by
  intro g d d'
  have hd : d.length = 92 := (filledAnswer 0).parts.1
  have hd' : d'.length = 92 := (filledAnswer 9).parts.1
  have htype : slice 0 1 d = slice 0 1 d' := rfl
  have hfields : slice 8 60 d = slice 8 60 d' := rfl
  have hsecrets : ¬ (filledAnswer 0).Degenerate g openInitiation := by decide +kernel
  have hok : openInitiation.consume g d = .ok 0 :=
    (((consume_exact g openInitiation).2.2.1 (filledAnswer 0)).accepted 0).2 ⟨⟨rfl, rfl⟩, hsecrets, rfl, rfl⟩
  have hmacs : slice 60 92 d ≠ slice 60 92 d' := by
    rw [(filledAnswer 0).parts.2.2.2.2.2.2.2, (filledAnswer 9).parts.2.2.2.2.2.2.2]
    decide
  have htwins := (consume_exact g openInitiation).2.2.2.2 d d' hd hd' htype hfields
  exact ⟨hd, hd', htype, hfields, by decide, hmacs, hok, htwins.1.1 ⟨0, hok⟩⟩

end EdgeTunnel.Handshake
