/-
The whole exchange: a responder that holds the preshared key accepts what an initiator sends, and the initiator accepts
what it answers.

Both sides walk through one sequence of states. `Transcript.sealAfter` and `Transcript.openAfter` are one step of it for
the side that writes and the side that reads, and `openAfter_sealAfter` keeps them together. `initiation_parts` and
`response_parts` say where the parts of the two messages stand.

- `initiate_eq`, `read_initiation`: the first message, and the responder in the initiator's state after it.
- `answer_eq`, `consume_response`: the second message, and its check.
- `exchange_completes`: the exchange, for all keys, indices and timestamps.

Nothing is assumed of the hash, and of the key agreement only that the two sides of each of the four secrets agree on
something that is not zero.
-/
import EdgeTunnel.Handshake.Responder
import EdgeTunnel.Handshake.Timestamp
import EdgeTunnel.Proofs.Crypto.Sealing
import Mathlib.Tactic

namespace EdgeTunnel

/-- both owners come to the same secret, and it is not refused -/
def Agreement.Agrees (g : Agreement) (a b : PrivateKey) : Prop :=
  g.shared a (g.publicKey b) = g.shared b (g.publicKey a) ∧ g.shared a (g.publicKey b) ≠ Key.zero

instance (g : Agreement) (a b : PrivateKey) : Decidable (g.Agrees a b) := by
  unfold Agreement.Agrees; infer_instance

namespace Handshake

/-! ## Parts of a message -/

theorem ofPrefix_bytes (k : Key) : Key.ofPrefix k.bytes = k := by
  cases k with
  | mk bs hbs => simp [Key.ofPrefix, hbs, List.take_of_length_le]

/-- a key is read back from where it was written -/
theorem keyAt_of_slice {bs : List UInt8} {i : Nat} {k : PublicKey} (h : slice i (i + 32) bs = k.key.bytes) :
    keyAt i bs = k := by
  rw [keyAt, h, ofPrefix_bytes]

/-- an index is read back from where it was written -/
theorem indexAt_of_slice {bs : List UInt8} {i : Nat} {n : UInt32}
    (h : slice i (i + 4) bs = Crypto.bytesOfNat 4 n.toNat) : indexAt i bs = n := by
  rw [indexAt, h, Crypto.natOfBytes_bytesOfNat 4 n.toNat n.toNat_lt, UInt32.ofNat_toNat]

@[simp] theorem length_messageTag (receiver : PublicKey) (start : List UInt8) :
    (messageTag receiver start).length = 16 := by
  simp [messageTag]

/-- a body with the tag for its receiver and the empty second tag -/
def tagged (receiver : PublicKey) (body : List UInt8) : List UInt8 :=
  body ++ messageTag receiver body ++ List.replicate 16 0

/-- an initiation up to its tags -/
def initiationBody (index : UInt32) (e boxedStatic boxedStamp : List UInt8) : List UInt8 :=
  initiationType :: ([0, 0, 0] ++ Crypto.bytesOfNat 4 index.toNat ++ e ++ boxedStatic ++ boxedStamp)

/-- a response up to its tags -/
def responseBody (index : UInt32) (echo e box : List UInt8) : List UInt8 :=
  responseType :: ([0, 0, 0] ++ Crypto.bytesOfNat 4 index.toNat ++ echo ++ e ++ box)

section Parts

variable (receiver : PublicKey) (index : UInt32) {e boxedStatic boxedStamp echo box : List UInt8}

/-- where the parts of an initiation stand -/
theorem initiation_parts (he : e.length = 32) (hs : boxedStatic.length = 48) (ht : boxedStamp.length = 28) :
    let m := tagged receiver (initiationBody index e boxedStatic boxedStamp)
    m.length = initiationLength ∧ m.headD 0 = initiationType ∧
      messageTag receiver (slice 0 116 m) = slice 116 132 m ∧ slice 4 8 m = Crypto.bytesOfNat 4 index.toNat ∧
      slice 8 40 m = e ∧ slice 40 88 m = boxedStatic ∧ slice 88 116 m = boxedStamp := by
  intro m
  have hb : (initiationBody index e boxedStatic boxedStamp).length = 116 := by simp [initiationBody, he, hs, ht]
  have hm : m.length = initiationLength := by simp [m, tagged, hb, initiationLength]
  refine ⟨hm, rfl, ?_, ?_, ?_, ?_, ?_⟩
  · simp [m, tagged, slice, hb, List.take_append]
  all_goals simp only [m, tagged, initiationBody]
  all_goals simp [slice, he, hs, ht, List.take_append, List.drop_append, List.drop_eq_nil_of_le]

/-- where the parts of a response stand -/
theorem response_parts (hc : echo.length = 4) (he : e.length = 32) (hx : box.length = 16) :
    let m := tagged receiver (responseBody index echo e box)
    m.length = responseLength ∧ m.headD 0 = responseType ∧ slice 4 8 m = Crypto.bytesOfNat 4 index.toNat ∧
      slice 8 12 m = echo ∧ slice 12 44 m = e ∧ slice 44 60 m = box := by
  intro m
  refine ⟨by simp [m, tagged, responseBody, hc, he, hx, responseLength], rfl, ?_, ?_, ?_, ?_⟩
  all_goals simp only [m, tagged, responseBody]
  all_goals simp [slice, hc, he, hx, List.take_append, List.drop_append, List.drop_eq_nil_of_le]

end Parts

/-! ## Secrets -/

section Secrets

variable {g : Agreement} {a b : PrivateKey}

theorem secret_left (h : g.Agrees a b) : secret g a (g.publicKey b) = .ok (g.shared a (g.publicKey b)).bytes := by
  simp only [secret, Agreement.secret, if_neg h.2]

theorem secret_right (h : g.Agrees a b) : secret g b (g.publicKey a) = .ok (g.shared a (g.publicKey b)).bytes := by
  simp only [secret, Agreement.secret, ← h.1, if_neg h.2]

end Secrets

/-! ## One walk for both sides -/

namespace Transcript

/-- a secret is mixed in, and a text sealed under the key that comes out -/
def sealAfter (t : Transcript) (secret text : List UInt8) : List UInt8 × Transcript :=
  (t.mixKeyOut secret).2.sealHash (t.mixKeyOut secret).1 text

/-- a secret is mixed in, and a box opened under the key that comes out -/
def openAfter (t : Transcript) (secret box : List UInt8) : Option (List UInt8) × Transcript :=
  (t.mixKeyOut secret).2.openHash (t.mixKeyOut secret).1 box

/-- whoever opens in the state of the sealing gets the text and comes to the same state -/
theorem openAfter_sealAfter (t : Transcript) (secret text : List UInt8) :
    t.openAfter secret (t.sealAfter secret text).1 = (some text, (t.sealAfter secret text).2) := by
  simp only [openAfter, sealAfter, openHash, sealHash, Crypto.Aead.openSealed_sealed]

theorem length_sealAfter (t : Transcript) (secret text : List UInt8) :
    (t.sealAfter secret text).1.length = text.length + 16 := by
  simp [sealAfter, sealHash]

/-- an ephemeral key is mixed in -/
def meet (t : Transcript) (e : List UInt8) : Transcript := (t.mixKey e).mixHash e

/-- the secrets of the answer and the preshared key are mixed in -/
def settle (t : Transcript) (ee se : List UInt8) (psk : PresharedKey) : List UInt8 × Transcript :=
  ((t.mixKey ee).mixKey se).mixPreshared psk

end Transcript

/-- the sealed static key, the sealed timestamp, and the state after both -/
def firstWalk (peer : PublicKey) (e es ss static stamp : List UInt8) : List UInt8 × List UInt8 × Transcript :=
  let s := ((Transcript.start peer).meet e).sealAfter es static
  let t := s.2.sealAfter ss stamp
  (s.1, t.1, t.2)

theorem length_firstWalk (peer : PublicKey) (e es ss static stamp : List UInt8) :
    let w := firstWalk peer e es ss static stamp
    w.1.length = static.length + 16 ∧ w.2.1.length = stamp.length + 16 :=
  ⟨Transcript.length_sealAfter _ _ _, Transcript.length_sealAfter _ _ _⟩

/-- the first message: the walk's two boxes in their frame -/
theorem initiate_eq {g : Agreement} {i : Initiator} {ephemeral : PrivateKey} {es ss : List UInt8} (index : UInt32)
    (stamp : List UInt8) (hes : secret g ephemeral i.peer = .ok es) (hss : secret g i.own i.peer = .ok ss) :
    let e := (g.publicKey ephemeral).key.bytes
    let w := firstWalk i.peer e es ss (g.publicKey i.own).key.bytes stamp
    i.initiate g ephemeral index stamp =
      .ok ⟨tagged i.peer (initiationBody index e w.1 w.2.1), index, w.2.2, ephemeral, i.own, i.psk⟩ := by
  simp only [Initiator.initiate, hes, hss]
  rfl

/-- reading a well-framed initiation: two boxes are opened, with a secret before each of them -/
theorem read_eq {g : Agreement} {r : Responder} {packet es : List UInt8} {e : PublicKey}
    (hlen : packet.length = initiationLength) (htype : packet.headD 0 = initiationType)
    (htag : messageTag (g.publicKey r.own) (slice 0 116 packet) = slice 116 132 packet) (he : keyAt 8 packet = e)
    (hes : secret g r.own e = .ok es) :
    let o := ((Transcript.start (g.publicKey r.own)).meet e.key.bytes).openAfter es (slice 40 88 packet)
    r.read g packet = (do
      let peer : PublicKey := ⟨Key.ofPrefix (← opened o.1)⟩
      let ss ← secret g r.own peer
      let o' := o.2.openAfter ss (slice 88 116 packet)
      return ⟨slice 4 8 packet, e, peer, ← opened o'.1, o'.2⟩) := by
  simp only [Responder.read, hlen, htype, htag, he, hes, ne_eq, not_true_eq_false, or_self, if_false]
  rfl

/-- **The first message is read.** A responder whose secrets are those of the walk comes to the sender's state. -/
theorem read_initiation {g : Agreement} {r : Responder} {e own : PublicKey} {es ss stamp : List UInt8} (index : UInt32)
    (hstamp : stamp.length = 12) (hes : secret g r.own e = .ok es) (hss : secret g r.own own = .ok ss) :
    let w := firstWalk (g.publicKey r.own) e.key.bytes es ss own.key.bytes stamp
    r.read g (tagged (g.publicKey r.own) (initiationBody index e.key.bytes w.1 w.2.1)) =
      .ok ⟨Crypto.bytesOfNat 4 index.toNat, e, own, stamp, w.2.2⟩ := by
  intro w
  have hw := length_firstWalk (g.publicKey r.own) e.key.bytes es ss own.key.bytes stamp
  rw [own.key.length_bytes, hstamp] at hw
  obtain ⟨hlen, htype, htag, hindex, hkey, hstatic, hbox⟩ :=
    initiation_parts (g.publicKey r.own) index e.key.length_bytes hw.1 hw.2
  rw [read_eq hlen htype htag (keyAt_of_slice hkey) hes]
  simp only [hindex, hstatic, hbox]
  simp only [w, firstWalk, Transcript.openAfter_sealAfter, opened, bind, Except.bind, ofPrefix_bytes, hss, pure,
    Except.pure]

/-- the second message: an empty text sealed in the state after the answer's secrets -/
theorem answer_eq {g : Agreement} {r : Responder} {i : Greeting} {ephemeral : PrivateKey} {ee se : List UInt8}
    (hee : secret g ephemeral i.ephemeral = .ok ee) (hse : secret g ephemeral i.peer = .ok se) :
    let e := (g.publicKey ephemeral).key.bytes
    let k := (i.transcript.meet e).settle ee se r.psk
    r.answer g i ephemeral =
      .ok (tagged i.peer (responseBody r.index i.index e (Crypto.Aead.sealed k.1 [] k.2.hash))) := by
  simp only [Responder.answer, hee, hse]
  rfl

/-- **The answer is accepted.** An initiator whose secrets are those of the answer takes the responder's index. -/
theorem consume_response {g : Agreement} {i : Initiation} {e : PublicKey} {ee se : List UInt8} (peer : PublicKey)
    (index : UInt32) (hee : secret g i.ephemeral e = .ok ee) (hse : secret g i.own e = .ok se) :
    let k := (i.transcript.meet e.key.bytes).settle ee se i.psk
    i.consume g (tagged peer (responseBody index (Crypto.bytesOfNat 4 i.index.toNat) e.key.bytes
      (Crypto.Aead.sealed k.1 [] k.2.hash))) = .ok index := by
  intro k
  obtain ⟨hlen, htype, hindex, hecho, hkey, hbox⟩ := response_parts peer index
    (Crypto.length_bytesOfNat 4 i.index.toNat) e.key.length_bytes (Crypto.Aead.length_sealed k.1 [] k.2.hash)
  have hstate : i.answerState g e = .ok k := by
    simp only [Initiation.answerState, hee, hse]; rfl
  simp only [Initiation.consume, hlen, htype, indexAt_of_slice hecho, keyAt_of_slice hkey, hbox, hstate,
    indexAt_of_slice hindex, ne_eq, not_true_eq_false, if_false, bind, Except.bind, pure, Except.pure]
  rw [Crypto.Aead.openSealed_sealed]
  rfl

/-! ## The exchange -/

/-- **The exchange completes.** For all keys, indices and timestamps: the initiation is built, the responder reads off
it exactly the initiator's public key and the timestamp and is then in the initiator's state, and its answer is
accepted with the responder's index. -/
theorem exchange_completes (g : Agreement) (own ephemeral : PrivateKey) (psk : Option PresharedKey) (index : UInt32)
    (stamp : List UInt8) (r : Responder) (answering : PrivateKey) (hpsk : r.psk = psk.getD .zero)
    (hstamp : stamp.length = 12) (hes : g.Agrees ephemeral r.own) (hss : g.Agrees own r.own)
    (hee : g.Agrees ephemeral answering) (hse : g.Agrees own answering) :
    ∃ sent greeting response,
      (Initiator.new own (g.publicKey r.own) psk).initiate g ephemeral index stamp = .ok sent ∧
      sent.packet.length = initiationLength ∧ r.read g sent.packet = .ok greeting ∧
      greeting.peer = g.publicKey own ∧ greeting.stamp = stamp ∧ greeting.transcript = sent.transcript ∧
      r.respond g sent.packet answering = .ok response ∧ response.length = responseLength ∧
      sent.consume g response = .ok r.index := by
  set e := (g.publicKey ephemeral).key.bytes
  set w := firstWalk (g.publicKey r.own) e (g.shared ephemeral (g.publicKey r.own)).bytes
    (g.shared own (g.publicKey r.own)).bytes (g.publicKey own).key.bytes stamp
  set sent : Initiation :=
    ⟨tagged (g.publicKey r.own) (initiationBody index e w.1 w.2.1), index, w.2.2, ephemeral, own, psk.getD .zero⟩
  set greeting : Greeting :=
    ⟨Crypto.bytesOfNat 4 index.toNat, g.publicKey ephemeral, g.publicKey own, stamp, w.2.2⟩
  have hsent : (Initiator.new own (g.publicKey r.own) psk).initiate g ephemeral index stamp = .ok sent :=
    initiate_eq index stamp (secret_left hes) (secret_left hss)
  have hread : r.read g sent.packet = .ok greeting :=
    read_initiation index hstamp (secret_right hes) (secret_right hss)
  have hw := length_firstWalk (g.publicKey r.own) e (g.shared ephemeral (g.publicKey r.own)).bytes
    (g.shared own (g.publicKey r.own)).bytes (g.publicKey own).key.bytes stamp
  have hlen : sent.packet.length = initiationLength := by
    simp [sent, w, e, tagged, initiationBody, hw, hstamp, Key.length_bytes, initiationLength]
  -- the responder walks on from the initiator's state, with the same secrets and the same preshared key
  have hanswer := answer_eq (r := r) (i := greeting) (secret_right hee) (secret_right hse)
  have hconsume := consume_response (i := sent) (g.publicKey own) r.index (secret_left hee) (secret_left hse)
  rw [hpsk] at hanswer
  refine ⟨sent, greeting, _, hsent, hlen, hread, rfl, rfl, rfl, ?_, ?_, hconsume⟩
  · rw [Responder.respond, hread]
    exact hanswer
  · simp [tagged, responseBody, Key.length_bytes, responseLength]

/-- a private key of equal bytes -/
def uniformKey (b : UInt8) : PrivateKey := ⟨Key.ofPrefix (List.replicate 32 b)⟩

/-- the exchange on Curve25519, with a preshared key, the index of the probes and a timestamp a second after the epoch -/
theorem exchange_completes_curve25519 :
    let g := Agreement.curve25519
    let psk : Option PresharedKey := some ⟨Key.ofPrefix [9]⟩
    let r : Responder := ⟨uniformKey 2, ⟨Key.ofPrefix [9]⟩, 0x0a0b0c0d⟩
    (g.Agrees (uniformKey 3) (uniformKey 2) ∧ g.Agrees (uniformKey 1) (uniformKey 2) ∧
      g.Agrees (uniformKey 3) (uniformKey 4) ∧ g.Agrees (uniformKey 1) (uniformKey 4)) ∧
    ∃ sent greeting response,
      (Initiator.new (uniformKey 1) (g.publicKey (uniformKey 2)) psk).initiate g (uniformKey 3) probeIndex
        (timestamp (.of 1 5)) = .ok sent ∧
      sent.packet.length = initiationLength ∧ r.read g sent.packet = .ok greeting ∧
      greeting.peer = g.publicKey (uniformKey 1) ∧ greeting.stamp = timestamp (.of 1 5) ∧
      greeting.transcript = sent.transcript ∧ r.respond g sent.packet (uniformKey 4) = .ok response ∧
      response.length = responseLength ∧ sent.consume g response = .ok r.index := by
  intro g psk r
  have h : g.Agrees (uniformKey 3) (uniformKey 2) ∧ g.Agrees (uniformKey 1) (uniformKey 2) ∧
      g.Agrees (uniformKey 3) (uniformKey 4) ∧ g.Agrees (uniformKey 1) (uniformKey 4) := by decide +kernel
  exact ⟨h, exchange_completes g _ _ psk probeIndex _ r _ rfl (length_timestamp _) h.1 h.2.1 h.2.2.1 h.2.2.2⟩

end Handshake

end EdgeTunnel
