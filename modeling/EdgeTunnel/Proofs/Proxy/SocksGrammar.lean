/-
Which byte streams are SOCKS requests, and what the others are answered.

`Verdict` and `Asked` go through a stream phase by phase, greeting and request, and say for each phase where a reading
stops there, with what answers, what outcome and how much of the stream. `Destination` says which text an address and a port
stand for. None of them speaks of the reader.

- `read_of_verdict`, `exists_verdict`: the reader gives the verdict on every stream, and every stream has one.
- `destination_parses`: the text of an address is read back to exactly that address and port.
- `socks_grammar`: all of it for a connection whose bytes come in any pieces.
-/
import EdgeTunnel.Proofs.Crypto.Sealing
import EdgeTunnel.Proofs.Net.AddressText
import EdgeTunnel.Proofs.Proxy.Opening
import EdgeTunnel.Proofs.Text.Utf8

namespace EdgeTunnel.Proxy.Socks

/-! ## The grammar -/

def utf8 (s : String) : List UInt8 := s.toUTF8.data.toList

/-- has an address the form of its kind, and is it a text where it is a name? The first byte of a name is its length. -/
def Legible (kind : UInt8) (address : List UInt8) : Prop :=
  AddressForm kind address ∧ (kind = 3 → ∃ name, utf8 name = address.tail)

/-- the text of a destination, from the kind, the address and the port of a request -/
inductive Destination : (kind : UInt8) → (address port : List UInt8) → (text : List Char) → Prop
  | ipv4 {a : SocketAddress} {address port : List UInt8} (family : a.ip.family = .v4)
      (octets : Crypto.bigEndian 4 a.ip.value = address) (ends : Crypto.bigEndian 2 a.port.toNat = port) :
      Destination 1 address port a.text
  | name {n : UInt8} {name : String} {p : UInt16} {port : List UInt8} (counted : (utf8 name).length = n.toNat)
      (ends : Crypto.bigEndian 2 p.toNat = port) :
      Destination 3 (n :: utf8 name) port (name.toList ++ ':' :: Text.decimal p.toNat)
  | ipv6 {a : SocketAddress} {address port : List UInt8} (family : a.ip.family = .v6) (scope : a.scope = 0)
      (octets : Crypto.bigEndian 16 a.ip.value = address) (ends : Crypto.bigEndian 2 a.port.toNat = port) :
      Destination 4 address port a.text

/-- the verdict on what follows a greeting that was accepted -/
inductive Asked : List UInt8 → Reading → Prop
  /-- the stream ends before the kind of the address -/
  | cutHeader {part : List UInt8} (short : part.length < 4) : Asked part ⟨[5, 0], .error .endOfStream, []⟩
  | version {version command reserved kind : UInt8} {rest : List UInt8} (wrong : version ≠ 5) :
      Asked (version :: command :: reserved :: kind :: rest) ⟨[5, 0], .error .invalidVersion, rest⟩
  | command {command reserved kind : UInt8} {rest : List UInt8} (wrong : command ≠ 1) :
      Asked (5 :: command :: reserved :: kind :: rest)
        ⟨[5, 0] ++ [5, 7, 0, 1, 0, 0, 0, 0, 0, 0], .error .unsupportedCommand, rest⟩
  | kind {reserved kind : UInt8} {rest : List UInt8} (wrong : kind ∉ [1, 3, 4]) :
      Asked (5 :: 1 :: reserved :: kind :: rest)
        ⟨[5, 0] ++ [5, 8, 0, 1, 0, 0, 0, 0, 0, 0], .error .invalidAddress, rest⟩
  /-- the stream ends within the address -/
  | cutAddress {reserved kind : UInt8} {part more : List UInt8} (missing : more ≠ [])
      (form : AddressForm kind (part ++ more)) :
      Asked (5 :: 1 :: reserved :: kind :: part) ⟨[5, 0], .error .endOfStream, []⟩
  /-- the name is no text -/
  | name {reserved kind : UInt8} {address rest : List UInt8} (form : AddressForm kind address)
      (wrong : ¬ Legible kind address) :
      Asked (5 :: 1 :: reserved :: kind :: address ++ rest) ⟨[5, 0], .error .invalidAddress, rest⟩
  /-- the stream ends within the port -/
  | cutPort {reserved kind : UInt8} {address part : List UInt8} (legible : Legible kind address) (short : part.length < 2) :
      Asked (5 :: 1 :: reserved :: kind :: address ++ part) ⟨[5, 0], .error .endOfStream, []⟩
  | request {reserved kind a b : UInt8} {address rest : List UInt8} {text : List Char}
      (destination : Destination kind address [a, b] text) :
      Asked (5 :: 1 :: reserved :: kind :: address ++ a :: b :: rest)
        ⟨[5, 0], .ok ⟨.socks, String.ofList text, []⟩, rest⟩

/-- the verdict on a stream that starts with the version -/
inductive Verdict : List UInt8 → Reading → Prop
  /-- the stream ends before the number of the methods -/
  | cutGreeting : Verdict [5] ⟨[], .error .endOfStream, []⟩
  /-- the stream ends within the methods -/
  | cutMethods {count : UInt8} {methods : List UInt8} (short : methods.length < count.toNat) :
      Verdict (5 :: count :: methods) ⟨[], .error .endOfStream, []⟩
  | methods {count : UInt8} {methods rest : List UInt8} (counted : methods.length = count.toNat) (wrong : 0 ∉ methods) :
      Verdict (5 :: count :: methods ++ rest) ⟨[5, 0xff], .error .authNotSupported, rest⟩
  | greeted {count : UInt8} {methods s : List UInt8} {r : Reading} (counted : methods.length = count.toNat)
      (offered : 0 ∈ methods) (asked : Asked s r) : Verdict (5 :: count :: methods ++ s) r

/-! ## Numbers and texts -/

theorem utf8_eq_iff (name : String) (bs : List UInt8) : utf8 name = bs ↔ String.fromUTF8? ⟨bs.toArray⟩ = some name :=
  (Text.fromUTF8?_eq_some_iff name bs).symm

theorem ofFields_octets (bs : List UInt8) : Ip.ofFields 8 (bs.map (·.toNat)) = Crypto.natOfBytes bs.reverse := by
  induction bs using List.reverseRecOn with
  | nil => rfl
  | append_singleton bs b ih =>
    rw [List.map_append, List.map_singleton, Ip.ofFields_append, ih, List.reverse_append, List.reverse_singleton,
      List.singleton_append, Crypto.natOfBytes]
    omega

/-- an address is the number of its octets -/
theorem ip_of_octets {f : Family} {n : Nat} (hn : 256 ^ n = 2 ^ f.width) {a : Ip} {bs : List UInt8} (hf : a.family = f)
    (h : Crypto.bigEndian n a.value = bs) : Ip.ofNat f (Ip.ofFields 8 (bs.map (·.toNat))) = a := by
  subst hf h
  have hlt : a.value < 256 ^ n := hn ▸ a.value_lt
  rw [ofFields_octets, Crypto.natOfBytes_bigEndian n a.value hlt]
  cases a with
  | mk family value hvalue => simp only [Ip.ofNat, Nat.mod_eq_of_lt hvalue]

/-- octets are those of an address -/
theorem exists_ip (f : Family) (bs : List UInt8) (hn : 256 ^ bs.length = 2 ^ f.width) :
    ∃ a : Ip, a.family = f ∧ Crypto.bigEndian bs.length a.value = bs := by
  refine ⟨Ip.ofNat f (Crypto.natOfBytes bs.reverse), rfl, ?_⟩
  have hlt := Crypto.natOfBytes_lt bs.reverse
  rw [List.length_reverse, hn] at hlt
  simp only [Ip.ofNat, Nat.mod_eq_of_lt hlt, Crypto.bigEndian_natOfBytes]

theorem port_of_bytes {p : UInt16} {a b : UInt8} (h : Crypto.bigEndian 2 p.toNat = [a, b]) :
    a.toNat * 256 + b.toNat = p.toNat := by
  have hp := Crypto.natOfBytes_bigEndian 2 p.toNat p.toNat_lt
  rw [h] at hp
  simp only [List.reverse_cons, List.reverse_nil, List.nil_append, List.singleton_append, Crypto.natOfBytes] at hp
  omega

theorem exists_port (a b : UInt8) : ∃ p : UInt16, Crypto.bigEndian 2 p.toNat = [a, b] := by
  refine ⟨UInt16.ofNat (Crypto.natOfBytes [a, b].reverse), ?_⟩
  have hlt : Crypto.natOfBytes [a, b].reverse < 2 ^ 16 := by
    have h := Crypto.natOfBytes_lt [a, b].reverse
    simp only [List.length_reverse, List.length_cons, List.length_nil] at h
    omega
  rw [UInt16.toNat_ofNat', Nat.mod_eq_of_lt hlt]
  exact Crypto.bigEndian_natOfBytes [a, b]

/-! ## Parts of a stream -/

theorem takeExact_append {n : Nat} {t rest : List UInt8} (h : t.length = n) : takeExact n (t ++ rest) = some (t, rest) := by
  subst h
  simp [takeExact]

theorem takeExact_short {n : Nat} {s : List UInt8} (h : s.length < n) : takeExact n s = none := by
  rw [takeExact, if_neg (by omega)]

/-- a stream has so many bytes, or would have with some more -/
theorem split_or_fill (n : Nat) (s : List UInt8) :
    (∃ t rest, s = t ++ rest ∧ t.length = n) ∨ ∃ more, more ≠ [] ∧ (s ++ more).length = n := by
  by_cases h : n ≤ s.length
  · exact .inl ⟨s.take n, s.drop n, (List.take_append_drop n s).symm, List.length_take_of_le h⟩
  · refine .inr ⟨List.replicate (n - s.length) 0, ?_, ?_⟩
    · rw [Ne, List.replicate_eq_nil_iff]
      omega
    · rw [List.length_append, List.length_replicate]
      omega

/-- a stream starts with an address of a kind, or is the beginning of one -/
theorem form_or_cut {kind : UInt8} (hkind : kind ∈ [1, 3, 4]) (s : List UInt8) :
    (∃ address rest, s = address ++ rest ∧ AddressForm kind address) ∨
      ∃ more, more ≠ [] ∧ AddressForm kind (s ++ more) := by
  simp only [List.mem_cons, List.not_mem_nil, or_false] at hkind
  rcases hkind with rfl | rfl | rfl
  · rcases split_or_fill 4 s with ⟨t, rest, hs, ht⟩ | ⟨more, hmore, hlen⟩
    · exact .inl ⟨t, rest, hs, .ipv4 ht⟩
    · exact .inr ⟨more, hmore, .ipv4 hlen⟩
  · cases s with
    | nil => exact .inr ⟨[0], by simp, .name rfl⟩
    | cons n s =>
      rcases split_or_fill n.toNat s with ⟨t, rest, hs, ht⟩ | ⟨more, hmore, hlen⟩
      · exact .inl ⟨n :: t, rest, by rw [hs, List.cons_append], .name ht⟩
      · exact .inr ⟨more, hmore, .name hlen⟩
  · rcases split_or_fill 16 s with ⟨t, rest, hs, ht⟩ | ⟨more, hmore, hlen⟩
    · exact .inl ⟨t, rest, hs, .ipv6 ht⟩
    · exact .inr ⟨more, hmore, .ipv6 hlen⟩

/-! ## The address -/

theorem readAddress_cut {replies : List UInt8} {kind : UInt8} {part more : List UInt8} (hmore : more ≠ [])
    (h : AddressForm kind (part ++ more)) : readAddress replies kind part = cut replies := by
  have hpos := List.length_pos_iff.2 hmore
  generalize hs : part ++ more = s at h
  have hlen : part.length + more.length = s.length := by rw [← hs, List.length_append]
  cases h with
  | ipv4 length => simp [readAddress, takeExact_short (show part.length < 4 by omega)]
  | ipv6 length => simp [readAddress, takeExact_short (show part.length < 16 by omega)]
  | @name n name length =>
    cases part with
    | nil => rfl
    | cons m part =>
      obtain ⟨rfl, -⟩ := List.cons.inj hs
      simp only [List.length_cons] at hlen
      simp [readAddress, takeExact_short (show part.length < m.toNat by omega)]

theorem readAddress_kind {replies : List UInt8} {kind : UInt8} (h : kind ∉ [1, 3, 4]) (s : List UInt8) :
    readAddress replies kind s = fails (replies ++ socksReply 8) .invalidAddress s := by
  simp only [List.mem_cons, List.not_mem_nil, or_false, not_or] at h
  unfold readAddress
  rw [if_neg h.1, if_neg h.2.1, if_neg h.2.2]

/-- a name that is no text is refused before the port is read -/
theorem readAddress_illegible {replies : List UInt8} {kind : UInt8} {address : List UInt8} (hform : AddressForm kind address)
    (h : ¬ Legible kind address) (rest : List UInt8) :
    readAddress replies kind (address ++ rest) = fails replies .invalidAddress rest := by
  have hname : kind = 3 ∧ ¬ ∃ name, utf8 name = address.tail := by
    by_contra hn
    refine h ⟨hform, fun hkind => ?_⟩
    by_contra hno
    exact hn ⟨hkind, hno⟩
  obtain ⟨rfl, hno⟩ := hname
  cases hform with
  | @name n name length =>
    cases hutf8 : String.fromUTF8? ⟨name.toArray⟩ with
    | some text => exact absurd ⟨text, (utf8_eq_iff text name).2 hutf8⟩ hno
    | none => simp [readAddress, takeExact_append length, hutf8]

/-- the host that the reader takes from an address before it reads the port -/
theorem readAddress_destination {kind a b : UInt8} {address : List UInt8} {text : List Char}
    (h : Destination kind address [a, b] text) :
    ∃ host, text = host ++ ':' :: Text.decimal (a.toNat * 256 + b.toNat) ∧
      ∀ replies rest, readAddress replies kind (address ++ rest) = readPort replies host rest := by
  generalize hport : [a, b] = port at h
  cases h with
  | @ipv4 sa _ _ family octets ends =>
    subst hport
    refine ⟨sa.ip.text, ?_, ?_⟩
    · rw [SocketAddress.text, family, port_of_bytes ends]
    · intro replies rest
      have hlen : address.length = 4 := by rw [← octets, Crypto.length_bigEndian]
      simp [readAddress, takeExact_append hlen, ip_of_octets (f := .v4) (n := 4) rfl family octets]
  | @name n name p _ counted ends =>
    subst hport
    refine ⟨name.toList, by rw [port_of_bytes ends], ?_⟩
    intro replies rest
    simp [readAddress, takeExact_append counted, (utf8_eq_iff name _).1 rfl]
  | @ipv6 sa _ _ family scope octets ends =>
    subst hport
    refine ⟨'[' :: sa.ip.text ++ [']'], ?_, ?_⟩
    · simp [SocketAddress.text, family, scope, port_of_bytes ends]
    · intro replies rest
      have hlen : address.length = 16 := by rw [← octets, Crypto.length_bigEndian]
      simp [readAddress, takeExact_append hlen, ip_of_octets (f := .v6) (n := 16) rfl family octets]

/-- every address and port have a destination -/
theorem exists_destination {kind : UInt8} {address : List UInt8} (h : Legible kind address) (a b : UInt8) :
    ∃ text, Destination kind address [a, b] text := by
  obtain ⟨hform, hname⟩ := h
  obtain ⟨p, hp⟩ := exists_port a b
  cases hform with
  | ipv4 length =>
    obtain ⟨ip, hip, hoctets⟩ := exists_ip .v4 address (by rw [length]; rfl)
    exact ⟨_, .ipv4 (a := .of ip p) hip (length ▸ hoctets) hp⟩
  | @name n name length =>
    obtain ⟨text, rfl⟩ := hname rfl
    exact ⟨_, .name length hp⟩
  | ipv6 length =>
    obtain ⟨ip, hip, hoctets⟩ := exists_ip .v6 address (by rw [length]; rfl)
    exact ⟨_, .ipv6 (a := .of ip p) hip rfl (length ▸ hoctets) hp⟩

/-- an address with a destination is legible -/
theorem Destination.legible {kind : UInt8} {address port : List UInt8} {text : List Char}
    (h : Destination kind address port text) : Legible kind address := by
  cases h with
  | ipv4 family octets ends => exact ⟨.ipv4 (by rw [← octets, Crypto.length_bigEndian]), fun hkind => nomatch hkind⟩
  | @name n name p _ counted ends => exact ⟨.name counted, fun _ => ⟨name, rfl⟩⟩
  | ipv6 family scope octets ends => exact ⟨.ipv6 (by rw [← octets, Crypto.length_bigEndian]), fun hkind => nomatch hkind⟩

/-- **The text of an address is read back** to exactly the octets and the port of the request. -/
theorem destination_parses {kind : UInt8} {address port : List UInt8} {text : List Char}
    (h : Destination kind address port text) (hkind : kind ≠ 3) :
    ∃ a, SocketAddress.parse text = some a ∧ a.ip.family = (if kind = 1 then .v4 else .v6) ∧ a.scope = 0 ∧
      Crypto.bigEndian address.length a.ip.value = address ∧ Crypto.bigEndian 2 a.port.toNat = port := by
  cases h with
  | @ipv4 a _ _ family octets ends =>
    have hlen : address.length = 4 := by rw [← octets, Crypto.length_bigEndian]
    exact ⟨a.withoutFlow, SocketAddress.parse_text a, family, a.scope_v4 family, hlen ▸ octets, ends⟩
  | name counted ends => exact absurd rfl hkind
  | @ipv6 a _ _ family scope octets ends =>
    have hlen : address.length = 16 := by rw [← octets, Crypto.length_bigEndian]
    exact ⟨a.withoutFlow, SocketAddress.parse_text a, family, scope, hlen ▸ octets, ends⟩

/-! ## The reader gives the verdict -/

theorem readPort_cut {replies : List UInt8} {host : List Char} {part : List UInt8} (h : part.length < 2) :
    readPort replies host part = cut replies := by
  unfold readPort
  split
  · simp only [List.length_cons] at h
    omega
  · rfl

/-- the command to connect leads on to the address -/
theorem readCommand_connect (reserved kind : UInt8) (s : List UInt8) :
    readCommand methodTaken (5 :: 1 :: reserved :: kind :: s) = readAddress methodTaken kind s := by
  simp only [readCommand, version, connectCommand, ne_eq, not_true_eq_false, if_false]

theorem readCommand_of_asked {s : List UInt8} {r : Reading} (h : Asked s r) : readCommand methodTaken s = r := by
  cases h with
  | cutHeader short =>
    unfold readCommand
    split
    · simp only [List.length_cons] at short
      omega
    · rfl
  | version wrong =>
    simp only [readCommand, version, ne_eq, wrong, not_false_eq_true, if_true]
    rfl
  | command wrong =>
    simp only [readCommand, version, connectCommand, ne_eq, wrong, not_true_eq_false, not_false_eq_true, if_true, if_false]
    rfl
  | kind wrong => rw [readCommand_connect, readAddress_kind wrong]; rfl
  | cutAddress missing form => rw [readCommand_connect, readAddress_cut missing form]; rfl
  | name form wrong =>
    simp only [List.cons_append]
    rw [readCommand_connect, readAddress_illegible form wrong]
    rfl
  | cutPort legible short =>
    -- any port would do: the address is read before it
    obtain ⟨text, hdestination⟩ := exists_destination legible 0 0
    obtain ⟨host, -, hread⟩ := readAddress_destination hdestination
    simp only [List.cons_append]
    rw [readCommand_connect, hread, readPort_cut short]
    rfl
  | request destination =>
    obtain ⟨host, rfl, hread⟩ := readAddress_destination destination
    simp only [List.cons_append]
    rw [readCommand_connect, hread]
    rfl

/-- a complete greeting leads on to the command, when it offers the method without authentication -/
theorem read_greeting {count : UInt8} {methods : List UInt8} (counted : methods.length = count.toNat) (s : List UInt8) :
    read (5 :: count :: methods ++ s) =
      if 0 ∈ methods then readCommand methodTaken s else fails noMethod .authNotSupported s := by
  simp only [List.cons_append, read, version, ne_eq, not_true_eq_false, if_false, takeExact_append counted,
    List.contains_eq_mem, decide_eq_true_eq, noAuthentication]

/-- **The reader gives the verdict.** -/
theorem read_of_verdict {client : List UInt8} {r : Reading} (h : Verdict client r) : read client = r := by
  cases h with
  | cutGreeting => rfl
  | cutMethods short =>
    simp only [read, version, ne_eq, not_true_eq_false, if_false, takeExact_short short]
    rfl
  | methods counted wrong => rw [read_greeting counted, if_neg wrong]; rfl
  | greeted counted offered asked => rw [read_greeting counted, if_pos offered, readCommand_of_asked asked]

/-- what follows an accepted greeting has a verdict -/
theorem exists_asked (s : List UInt8) : ∃ r, Asked s r := by
  by_cases hlen : s.length < 4
  · exact ⟨_, .cutHeader hlen⟩
  obtain ⟨version, command, reserved, kind, rest, rfl⟩ :
      ∃ version command reserved kind rest, s = version :: command :: reserved :: kind :: rest := by
    match s with
    | [] | [_] | [_, _] | [_, _, _] => simp at hlen
    | version :: command :: reserved :: kind :: rest => exact ⟨version, command, reserved, kind, rest, rfl⟩
  by_cases hversion : version = 5
  swap; · exact ⟨_, .version hversion⟩
  subst hversion
  by_cases hcommand : command = 1
  swap; · exact ⟨_, .command hcommand⟩
  subst hcommand
  by_cases hkind : kind ∈ [1, 3, 4]
  swap; · exact ⟨_, .kind hkind⟩
  rcases form_or_cut hkind rest with ⟨address, rest, rfl, hform⟩ | ⟨more, hmore, hform⟩
  swap; · exact ⟨_, .cutAddress hmore hform⟩
  by_cases hlegible : Legible kind address
  swap; · exact ⟨_, .name hform hlegible⟩
  match rest with
  | [] => exact ⟨_, .cutPort hlegible Nat.zero_lt_two⟩
  | [a] => exact ⟨_, .cutPort hlegible Nat.one_lt_two⟩
  | a :: b :: rest =>
    obtain ⟨text, hdestination⟩ := exists_destination hlegible a b
    exact ⟨_, .request hdestination⟩

/-- **Every stream has a verdict.** -/
theorem exists_verdict (s : List UInt8) : ∃ r, Verdict (5 :: s) r := by
  cases s with
  | nil => exact ⟨_, .cutGreeting⟩
  | cons count s =>
    by_cases hlen : s.length < count.toNat
    · exact ⟨_, .cutMethods hlen⟩
    have hcounted : (s.take count.toNat).length = count.toNat := List.length_take_of_le (by omega)
    rw [← List.take_append_drop count.toNat s]
    by_cases hoffered : 0 ∈ s.take count.toNat
    · obtain ⟨r, hr⟩ := exists_asked (s.drop count.toNat)
      exact ⟨r, .greeted hcounted hoffered hr⟩
    · exact ⟨_, .methods hcounted hoffered⟩

theorem verdict_iff (s : List UInt8) (r : Reading) : Verdict (5 :: s) r ↔ read (5 :: s) = r := by
  constructor
  · exact read_of_verdict
  · rintro rfl
    obtain ⟨r, hr⟩ := exists_verdict s
    rwa [read_of_verdict hr]

/-! ## Requests -/

/-- a stream is a request: a greeting that offers the method without authentication, the command to connect to a legible
address, a port, and what follows -/
def IsRequest (client : List UInt8) (kind : UInt8) (address port rest : List UInt8) : Prop :=
  ∃ (count reserved : UInt8) (methods : List UInt8), methods.length = count.toNat ∧ 0 ∈ methods ∧
    Legible kind address ∧ port.length = 2 ∧
    client = 5 :: count :: methods ++ 5 :: 1 :: reserved :: kind :: address ++ port ++ rest

/-- a request has the verdict of a destination -/
theorem IsRequest.verdict {client : List UInt8} {kind : UInt8} {address port rest : List UInt8}
    (h : IsRequest client kind address port rest) :
    ∃ text, Destination kind address port text ∧
      Verdict client ⟨[5, 0], .ok ⟨.socks, String.ofList text, []⟩, rest⟩ := by
  obtain ⟨count, reserved, methods, hcounted, hoffered, hlegible, hport, rfl⟩ := h
  obtain ⟨a, b, rfl⟩ := List.length_eq_two.1 hport
  obtain ⟨text, hdestination⟩ := exists_destination hlegible a b
  have hasked := @Asked.request reserved kind a b address rest text hdestination
  exact ⟨text, hdestination, by simpa using Verdict.greeted hcounted hoffered hasked⟩

/-- no other verdict is a request -/
theorem Verdict.isRequest {client : List UInt8} {r : Reading} (h : Verdict client r) {q : Request} (hq : r.outcome = .ok q) :
    ∃ kind address port rest, IsRequest client kind address port rest := by
  cases h with
  | cutGreeting | cutMethods _ | methods _ _ => cases hq
  | @greeted count methods s r counted offered asked =>
    cases asked with
    | cutHeader _ | version _ | command _ | kind _ | cutAddress _ _ | name _ _ | cutPort _ _ => cases hq
    | @request reserved kind a b address rest text destination =>
      exact ⟨kind, address, [a, b], rest, count, reserved, methods, counted, offered, destination.legible, rfl, by simp⟩

/-- **The grammar of requests.** A client whose first byte is the version, in whatever pieces its bytes come, gets exactly
the reading that `Verdict` says.
- It is a request exactly when the stream is one by `IsRequest`. Then the bytes up to the port are read and no more, the
  method without authentication is answered and nothing else, and nothing is pending.
- The text of an IPv4 or IPv6 destination is read back to exactly the octets and the port of the request. -/
theorem socks_grammar {pieces : List (List UInt8)} {s : List UInt8} (h : pieces.flatten = 5 :: s) :
    ∃ r, readRequest pieces = some r ∧ (∀ r', Verdict (5 :: s) r' ↔ r' = r) ∧
      ((∃ q, r.outcome = .ok q) ↔ ∃ kind address port rest, IsRequest (5 :: s) kind address port rest) ∧
      ∀ kind address port rest, IsRequest (5 :: s) kind address port rest →
        ∃ text, Destination kind address port text ∧ r = ⟨[5, 0], .ok ⟨.socks, String.ofList text, []⟩, rest⟩ ∧
          (kind ≠ 3 → ∃ a, SocketAddress.parse text = some a ∧ a.ip.family = (if kind = 1 then .v4 else .v6) ∧
            a.scope = 0 ∧ Crypto.bigEndian address.length a.ip.value = address ∧
            Crypto.bigEndian 2 a.port.toNat = port) := by
  have hread : readRequest pieces = some (read (5 :: s)) := by
    rw [readRequest, h]
    rfl
  refine ⟨read (5 :: s), hread, ?_, ?_, ?_⟩
  · intro r
    rw [verdict_iff, eq_comm]
  · constructor
    · rintro ⟨q, hq⟩
      exact ((verdict_iff s _).2 rfl).isRequest hq
    · rintro ⟨kind, address, port, rest, hrequest⟩
      obtain ⟨text, -, hverdict⟩ := hrequest.verdict
      rw [read_of_verdict hverdict]
      exact ⟨_, rfl⟩
  · intro kind address port rest hrequest
    obtain ⟨text, hdestination, hverdict⟩ := hrequest.verdict
    exact ⟨text, hdestination, read_of_verdict hverdict, destination_parses hdestination⟩

/-- a request for an address that maps an IPv4 address, in three pieces and with two bytes behind it -/
theorem socks_grammar_mapped :
    let address : List UInt8 := [0, 0, 0, 0, 0, 0, 0, 0, 0, 0, 0xff, 0xff, 10, 0, 0, 1]
    let pieces : List (List UInt8) := [[5, 2, 1], [0, 5, 1, 0, 4], address ++ [1, 187, 22, 3]]
    pieces.flatten = 5 :: pieces.flatten.tail ∧ IsRequest pieces.flatten 4 address [1, 187] [22, 3] ∧
      ∃ text a, readRequest pieces = some ⟨[5, 0], .ok ⟨.socks, String.ofList text, []⟩, [22, 3]⟩ ∧
        SocketAddress.parse text = some a ∧ Crypto.bigEndian 16 a.ip.value = address := by
  intro address pieces
  have hstart : pieces.flatten = 5 :: pieces.flatten.tail := rfl
  have hrequest : IsRequest pieces.flatten 4 address [1, 187] [22, 3] :=
    ⟨2, 0, [1, 0], rfl, by decide, ⟨.ipv6 rfl, fun hkind => absurd hkind (by decide)⟩, rfl, rfl⟩
  obtain ⟨r, hr, -, -, hgrammar⟩ := socks_grammar hstart
  obtain ⟨text, -, rfl, hparse⟩ := hgrammar 4 address [1, 187] [22, 3] hrequest
  obtain ⟨a, ha, -, -, hoctets, -⟩ := hparse (by decide)
  exact ⟨hstart, hrequest, text, a, hr, ha, hoctets⟩

end EdgeTunnel.Proxy.Socks
