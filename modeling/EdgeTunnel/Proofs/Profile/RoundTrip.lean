/-
Profiles that are written and read back, down to the bytes of their keys.

Every value of a profile is trimmed and on one line (`IsValue`), so each line of the text is read as it was written. A section
is then read line by line: `takes_interfaceLines` and `takes_peerLines` say what its lines make of any profile.

- `identity_read`: the text of an identity is read as its profile, and a probe and a tunnel get the bytes of its keys.
-/
import EdgeTunnel.Proofs.KeyText
import EdgeTunnel.Proofs.Net.PrefixText
import EdgeTunnel.Proofs.Profile.Lines

namespace EdgeTunnel.Profile

open Identity Text

/-! ## Values -/

/-- can a text be the value of a line? -/
def IsValue (v : List Char) : Prop := Trimmed v ∧ '\n' ∉ v

theorem isValue_of_noBlank {v : List Char} (h : ∀ c ∈ v, isBlank c = false) : IsValue v :=
  ⟨trimmed_of_noBlank h, fun hmem => absurd (h _ hmem) (by decide)⟩

theorem isValue_decimal (n : Nat) : IsValue (decimal n) :=
  isValue_of_noBlank fun c hc =>
    Ip.isBlank_eq_false_of_digit (Ip.isDigitOf_mono (by decide) (isDigitOf_of_mem_decimal n c hc))

theorem isValue_key (k : Key) : IsValue k.text := isValue_of_noBlank k.noBlank_text

theorem isItem_address (a : Ip) : IsItem a.text := by
  refine ⟨a.text_ne_nil, fun c hc => ?_⟩
  have hchar := a.isAddressChar_of_mem_text c hc
  refine ⟨hchar.isBlank_eq_false, ?_⟩
  rintro rfl
  rcases hchar with hdigit | hcolon | hdot
  · exact absurd hdigit (by decide)
  · cases hcolon
  · cases hdot

theorem isItem_slash (a : Ip) (n : Nat) : IsItem (a.text ++ '/' :: decimal n) := by
  refine ⟨by simp, fun c hc => ⟨Cidr.noBlank_slash a n c hc, ?_⟩⟩
  rintro rfl
  rcases List.mem_append.mp hc with haddress | hlength
  · exact ((isItem_address a).2 _ haddress).2 rfl
  · rcases List.mem_cons.mp hlength with hslash | hdigit
    · cases hslash
    · exact absurd (isDigitOf_of_mem_decimal n _ hdigit) (by decide)

theorem isItem_prefix (p : Cidr) : IsItem p.text := isItem_slash p.network p.len

theorem isItem_device (a : DeviceAddress) : IsItem a.text := by
  unfold DeviceAddress.text
  split
  · exact isItem_address a.ip
  · exact isItem_slash a.ip _

theorem isItem_map {α : Type} {text : α → List Char} (h : ∀ x, IsItem (text x)) (xs : List α) :
    ∀ t ∈ xs.map text, IsItem t := by
  rw [List.forall_mem_map]
  exact fun x _ => h x

/-! ## Lists -/

theorem mapM_ok {α β ε : Type} {read : List Char → Except ε β} {text : α → List Char} {g : α → β}
    (h : ∀ x, read (text x) = .ok (g x)) (xs : List α) : (xs.map text).mapM read = .ok (xs.map g) := by
  induction xs with
  | nil => rfl
  | cons x xs ih =>
    rw [List.map_cons, List.mapM_cons, h, ih]
    rfl

/-- **An address of the device keeps its host bits**, and its length is dropped. -/
theorem deviceAddress?_text (a : DeviceAddress) : deviceAddress? a.text = some a.ip := by
  obtain ⟨ip, len, hlen⟩ := a
  cases len with
  | none =>
    have htext : DeviceAddress.text ⟨ip, none, hlen⟩ = ip.text := rfl
    rw [htext, deviceAddress?, Cidr.parse_address]
    simp only [splitAt?_eq_none (Cidr.slash_notMem_text ip), Cidr.trim_text, ip.text_read]
  | some n =>
    have htext : DeviceAddress.text ⟨ip, some n, hlen⟩ = ip.text ++ '/' :: decimal n := rfl
    rw [htext, deviceAddress?, Cidr.parse_slash ip (hlen n rfl)]
    simp only [splitAt?_append (Cidr.slash_notMem_text ip), Cidr.trim_text, ip.text_read]

theorem deviceAddresses_joined (line : Nat) (as : List DeviceAddress) :
    deviceAddresses line (joined (as.map (·.text))) = .ok (as.map (·.ip)) := by
  rw [deviceAddresses, items_joined (isItem_map isItem_device as)]
  exact mapM_ok (fun a => by rw [deviceAddress?_text]) as

theorem cidrs_joined (line : Nat) (ps : List Cidr) : cidrs line (joined (ps.map (·.text))) = .ok ps := by
  rw [cidrs, items_joined (isItem_map isItem_prefix ps)]
  refine (mapM_ok (g := id) (fun p => ?_) ps).trans (by rw [List.map_id])
  rw [p.text_read]
  rfl

theorem dns_joined (as : List Ip) : (items (joined (as.map (·.text)))).filterMap Ip.parse = as := by
  have hread : (Ip.parse ∘ fun a : Ip => a.text) = some := funext fun a => a.text_read
  rw [items_joined (isItem_map isItem_address as), List.filterMap_map, hread, List.filterMap_some]

/-! ## Sections -/

def keys : List String :=
  ["PrivateKey", "Address", "DNS", "MTU", "PublicKey", "PresharedKey", "AllowedIPs", "Endpoint", "PersistentKeepalive"]

theorem isKey_of_mem {key : String} (h : key ∈ keys) : IsKey key.toList := by
  have hletters : ∀ k ∈ keys, k.toList ≠ [] ∧ k.toList.all Char.isAlpha = true := by decide
  obtain ⟨hne, hall⟩ := hletters key h
  exact isKey_of_letters hne (List.all_eq_true.mp hall)

/-! ### The interface section -/

theorem takes_privateKey (p : Profile) (k : Key) :
    Takes .interface p [entry "PrivateKey" k.text] .interface
      { p with interface := { p.interface with privateKey := String.ofList k.text } } :=
  takes_interface (isKey_of_mem (by simp [keys])) (isValue_key k).1 fun _ => rfl

theorem takes_addresses (omitEmpty : Bool) (p : Profile) (as : List DeviceAddress) :
    Takes .interface p (entries omitEmpty "Address" (as.map (·.text))) .interface
      { p with interface := { p.interface with addresses := p.interface.addresses ++ as.map (·.ip) } } := by
  have hvalue := (joined_value (isItem_map isItem_device as)).1
  refine takes_entries (takes_interface (isKey_of_mem (by simp [keys])) hvalue fun line => ?_) ?_
  · have hset : setInterface p.interface line "Address".toList (joined (as.map (·.text))) =
        (deviceAddresses line (joined (as.map (·.text)))).map fun bs =>
          { p.interface with addresses := p.interface.addresses ++ bs } := rfl
    rw [hset, deviceAddresses_joined]
    rfl
  · intro hnil
    rw [List.map_eq_nil_iff.mp hnil, List.map_nil, List.append_nil]

theorem takes_dns (omitEmpty : Bool) (p : Profile) (as : List Ip) :
    Takes .interface p (entries omitEmpty "DNS" (as.map (·.text))) .interface
      { p with interface := { p.interface with dns := p.interface.dns ++ as } } := by
  have hvalue := (joined_value (isItem_map isItem_address as)).1
  refine takes_entries (takes_interface (isKey_of_mem (by simp [keys])) hvalue fun line => ?_) ?_
  · have hset : setInterface p.interface line "DNS".toList (joined (as.map (·.text))) =
        .ok { p.interface with dns := p.interface.dns ++ (items (joined (as.map (·.text)))).filterMap Ip.parse } := rfl
    rw [hset, dns_joined]
  · intro hnil
    rw [List.map_eq_nil_iff.mp hnil, List.append_nil]

theorem takes_mtu (p : Profile) (mtu : Option UInt64) :
    Takes .interface p (optionalEntry "MTU" (mtu.map fun n => decimal n.toNat)) .interface
      { p with interface := { p.interface with mtu := (mtu.map UInt64.toNat).or p.interface.mtu } } := by
  refine takes_optionalEntry (fun v hv => ?_) fun hnone => ?_
  · obtain ⟨n, rfl, rfl⟩ := Option.map_eq_some_iff.mp hv
    refine takes_interface (isKey_of_mem (by simp [keys])) (isValue_decimal _).1 fun line => ?_
    have hset : setInterface p.interface line "MTU".toList (decimal n.toNat) =
        (number line (2 ^ 64 - 1) (decimal n.toNat)).map fun m => { p.interface with mtu := some m } := rfl
    rw [hset, number, readUnsigned_decimal (Nat.le_of_lt_succ n.toNat_lt)]
    rfl
  · rw [Option.map_eq_none_iff.mp hnone]
    rfl

/-- **What the lines of an interface section make of a profile.** -/
theorem takes_interfaceLines (omitEmpty : Bool) (i : Identity) (p : Profile) :
    Takes .interface p (i.interfaceLines omitEmpty) .interface { p with
      interface := {
        privateKey := String.ofList i.own.key.text
        addresses := p.interface.addresses ++ i.addresses.map (·.ip)
        dns := p.interface.dns ++ i.dns
        mtu := (i.mtu.map UInt64.toNat).or p.interface.mtu } } :=
  (takes_privateKey _ _).cons ((takes_addresses _ _ _).append ((takes_dns _ _ _).append (takes_mtu _ _)))

/-! ### The peer section -/

theorem takes_publicKey (p : Profile) (k : Key) :
    Takes .peer p [entry "PublicKey" k.text] .peer
      { p with peer := { p.peer with publicKey := String.ofList k.text } } :=
  takes_peer (isKey_of_mem (by simp [keys])) (isValue_key k).1 fun _ => rfl

theorem takes_presharedKey (p : Profile) (psk : Option PresharedKey) :
    Takes .peer p (optionalEntry "PresharedKey" (psk.map (·.key.text))) .peer
      { p with peer := { p.peer with
        presharedKey := (psk.map fun k => String.ofList k.key.text).or p.peer.presharedKey } } := by
  refine takes_optionalEntry (fun v hv => ?_) fun hnone => ?_
  · obtain ⟨k, rfl, rfl⟩ := Option.map_eq_some_iff.mp hv
    exact takes_peer (isKey_of_mem (by simp [keys])) (isValue_key k.key).1 fun _ => rfl
  · rw [Option.map_eq_none_iff.mp hnone]
    rfl

theorem takes_allowed (omitEmpty : Bool) (p : Profile) (ps : List Cidr) :
    Takes .peer p (entries omitEmpty "AllowedIPs" (ps.map (·.text))) .peer
      { p with peer := { p.peer with allowed := p.peer.allowed ++ ps } } := by
  have hvalue := (joined_value (isItem_map isItem_prefix ps)).1
  refine takes_entries (takes_peer (isKey_of_mem (by simp [keys])) hvalue fun line => ?_) ?_
  · have hset : setPeer p.peer line "AllowedIPs".toList (joined (ps.map (·.text))) =
        (cidrs line (joined (ps.map (·.text)))).map fun qs => { p.peer with allowed := p.peer.allowed ++ qs } := rfl
    rw [hset, cidrs_joined]
    rfl
  · intro hnil
    rw [List.map_eq_nil_iff.mp hnil, List.append_nil]

theorem takes_endpoint (p : Profile) (endpoint : Option ValueText) :
    Takes .peer p (optionalEntry "Endpoint" (endpoint.map (·.chars))) .peer
      { p with peer := { p.peer with endpoint := (endpoint.map fun t => String.ofList t.chars).or p.peer.endpoint } } := by
  refine takes_optionalEntry (fun v hv => ?_) fun hnone => ?_
  · obtain ⟨t, rfl, rfl⟩ := Option.map_eq_some_iff.mp hv
    exact takes_peer (isKey_of_mem (by simp [keys])) t.trimmed fun _ => rfl
  · rw [Option.map_eq_none_iff.mp hnone]
    rfl

theorem takes_keepalive (p : Profile) (keepalive : Option UInt16) :
    Takes .peer p (optionalEntry "PersistentKeepalive" (keepalive.map fun n => decimal n.toNat)) .peer
      { p with peer := { p.peer with keepalive := (keepalive.map UInt16.toNat).or p.peer.keepalive } } := by
  refine takes_optionalEntry (fun v hv => ?_) fun hnone => ?_
  · obtain ⟨n, rfl, rfl⟩ := Option.map_eq_some_iff.mp hv
    refine takes_peer (isKey_of_mem (by simp [keys])) (isValue_decimal _).1 fun line => ?_
    have hset : setPeer p.peer line "PersistentKeepalive".toList (decimal n.toNat) =
        (number line 65535 (decimal n.toNat)).map fun m => { p.peer with keepalive := some m } := rfl
    rw [hset, number, readUnsigned_decimal (Nat.le_of_lt_succ n.toNat_lt)]
    rfl
  · rw [Option.map_eq_none_iff.mp hnone]
    rfl

/-- **What the lines of a peer section make of a profile.** -/
theorem takes_peerLines (omitEmpty : Bool) (i : Identity) (p : Profile) :
    Takes .peer p (i.peerLines omitEmpty) .peer { p with
      peer := {
        publicKey := String.ofList i.peer.key.text
        presharedKey := (i.psk.map fun k => String.ofList k.key.text).or p.peer.presharedKey
        allowed := p.peer.allowed ++ i.allowed
        endpoint := (i.endpoint.map fun t => String.ofList t.chars).or p.peer.endpoint
        keepalive := (i.keepalive.map UInt16.toNat).or p.peer.keepalive } } :=
  (takes_publicKey _ _).cons ((takes_presharedKey _ _).append ((takes_allowed _ _ _).append
    ((takes_endpoint _ _).append (takes_keepalive _ _))))

/-! ## Whole profiles -/

theorem takes_lines (omitEmpty : Bool) (i : Identity) : Takes .outside {} (i.lines omitEmpty) .peer i.profile := by
  have hinterface : Takes .outside {} ["[Interface]".toList] .interface {} := takes_line fun _ => rfl
  have hblank : ∀ p, Takes .interface p [[]] .interface p := fun p => takes_line fun _ => rfl
  have hpeer : ∀ p, Takes .interface p ["[Peer]".toList] .peer p := fun p => takes_line fun _ => rfl
  have hlines := hinterface.cons ((takes_interfaceLines omitEmpty i _).append
    ((hblank _).cons ((hpeer _).cons (takes_peerLines omitEmpty i _))))
  simpa [Identity.lines, Identity.profile] using hlines

/-- is a text a line of its own? -/
def IsLine (l : List Char) : Prop := '\n' ∉ l ∧ l.getLast? ≠ some '\r'

theorem isLine_optionalEntry {key : String} {value : Option (List Char)} (hkey : IsKey key.toList)
    (h : ∀ v ∈ value, IsValue v) : ∀ l ∈ optionalEntry key value, IsLine l := by
  intro l hl
  obtain ⟨v, hv, rfl⟩ := Option.map_eq_some_iff.mp (Option.mem_toList.mp hl)
  exact entry_oneLine hkey (h v hv).1 (h v hv).2

theorem isLine_entries {omitEmpty : Bool} {key : String} {ts : List (List Char)} (hkey : IsKey key.toList)
    (h : ∀ t ∈ ts, IsItem t) : ∀ l ∈ entries omitEmpty key ts, IsLine l := by
  obtain ⟨htrimmed, hline⟩ := joined_value h
  unfold entries
  split_ifs
  · exact fun l hl => absurd hl List.not_mem_nil
  · rw [List.forall_mem_singleton]
    exact entry_oneLine hkey htrimmed hline

theorem isLine_of_mem_lines (omitEmpty : Bool) (i : Identity) : ∀ l ∈ i.lines omitEmpty, IsLine l := by
  have hinterface : ∀ l ∈ i.interfaceLines omitEmpty, IsLine l := by
    simp only [Identity.interfaceLines, List.forall_mem_cons, List.forall_mem_append]
    refine ⟨entry_oneLine (isKey_of_mem (by simp [keys])) (isValue_key _).1 (isValue_key _).2,
      isLine_entries (isKey_of_mem (by simp [keys])) (isItem_map isItem_device _),
      isLine_entries (isKey_of_mem (by simp [keys])) (isItem_map isItem_address _),
      isLine_optionalEntry (isKey_of_mem (by simp [keys])) ?_⟩
    rintro v hv
    obtain ⟨n, -, rfl⟩ := Option.map_eq_some_iff.mp hv
    exact isValue_decimal _
  have hpeer : ∀ l ∈ i.peerLines omitEmpty, IsLine l := by
    simp only [Identity.peerLines, List.forall_mem_cons, List.forall_mem_append]
    refine ⟨entry_oneLine (isKey_of_mem (by simp [keys])) (isValue_key _).1 (isValue_key _).2,
      isLine_optionalEntry (isKey_of_mem (by simp [keys])) ?_,
      isLine_entries (isKey_of_mem (by simp [keys])) (isItem_map isItem_prefix _),
      isLine_optionalEntry (isKey_of_mem (by simp [keys])) ?_,
      isLine_optionalEntry (isKey_of_mem (by simp [keys])) ?_⟩
    · rintro v hv
      obtain ⟨k, -, rfl⟩ := Option.map_eq_some_iff.mp hv
      exact isValue_key _
    · rintro v hv
      obtain ⟨t, -, rfl⟩ := Option.map_eq_some_iff.mp hv
      exact ⟨t.trimmed, t.oneLine⟩
    · rintro v hv
      obtain ⟨n, -, rfl⟩ := Option.map_eq_some_iff.mp hv
      exact isValue_decimal _
  have hplain : ∀ l ∈ ["[Interface]".toList, [], "[Peer]".toList], IsLine l := by
    unfold IsLine
    decide
  simp only [Identity.lines, List.forall_mem_cons, List.forall_mem_append] at hplain ⊢
  exact ⟨hplain.1, hinterface, hplain.2.1, hplain.2.2.1, hpeer⟩

/-- **The text of an identity is read as its profile.** -/
theorem parse_write_identity (omitEmpty : Bool) (i : Identity) : parse (i.write omitEmpty) = .ok i.profile := by
  have hread := takes_lines omitEmpty i 1 []
  rw [List.append_nil, readLines] at hread
  have hown : i.profile.interface.privateKey.isEmpty = false := by
    simp [Identity.profile, Key.text_ne_nil]
  have hpeer : i.profile.peer.publicKey.isEmpty = false := by
    simp [Identity.profile, Key.text_ne_nil]
  rw [parse, Identity.write, String.toList_ofList, lines_terminated (isLine_of_mem_lines omitEmpty i), hread]
  simp only [bind, Except.bind, complete, hown, hpeer, Bool.false_eq_true, if_false]

/-- the keys for a probe are those of the identity -/
theorem probeKeys_profile (i : Identity) : i.profile.probeKeys = .ok ⟨i.own, i.peer, i.psk⟩ := by
  obtain ⟨⟨own⟩, ⟨peer⟩, psk, addresses, dns, mtu, allowed, endpoint, keepalive⟩ := i
  have hpsk : ((psk.map fun k => String.ofList k.key.text).map String.toList).mapM Key.parse = .ok (psk.map (·.key)) := by
    cases psk with
    | none => rfl
    | some k =>
      simp only [Option.map_some, String.toList_ofList, Option.mapM_some, Key.parse_text]
      rfl
  have hback : (psk.map (·.key)).map (PresharedKey.mk ·) = psk := by
    cases psk with
    | none => rfl
    | some k => rfl
  rw [probeKeys, ProbeKeys.parse]
  simp only [Identity.profile, String.toList_ofList, Key.parse_text, bind, Except.bind, hpsk, hback, pure, Except.pure]

/-- **A profile that is written is read back, down to the bytes of its keys.** The text of an identity is read as a profile
with its addresses, prefixes, numbers and endpoint in order, and both a probe and a tunnel get its keys. -/
theorem identity_read (omitEmpty : Bool) (i : Identity) :
    parse (i.write omitEmpty) = .ok i.profile ∧
      i.profile.probeKeys = .ok ⟨i.own, i.peer, i.psk⟩ ∧
      ∀ endpoint mtu keepalive obfuscate, i.profile.tunnelSpec endpoint mtu keepalive obfuscate = .ok {
        peer := ⟨i.own, i.peer, i.psk, i.allowed, endpoint, keepalive, mtu, obfuscate⟩
        addresses := i.addresses.map (·.ip)
        dns := i.dns
        mtu } := by
  refine ⟨parse_write_identity omitEmpty i, probeKeys_profile i, fun endpoint mtu keepalive obfuscate => ?_⟩
  rw [tunnelSpec, probeKeys_profile]
  rfl

end EdgeTunnel.Profile
