/-
Lists of a profile, item by item.

A list of addresses and a list of prefixes fail at the same item, the first one that is no prefix: an item that is a prefix
has an address, since what is before its slash is one as it stands (`deviceAddress?_of_prefixOf?`).

- `deviceAddresses_eq`, `cidrs_eq`: both lists are read up to their first bad item.
-/
import EdgeTunnel.Profile.Meaning
import EdgeTunnel.Proofs.Net.PrefixGrammar

namespace EdgeTunnel.Profile

open Text

theorem trimmed_of_mem_items {value item : List Char} (h : item ∈ items value) : Trimmed item := by
  obtain ⟨piece, -, rfl⟩ := List.mem_map.1 (List.mem_filter.1 h).1
  exact trimmed_trim piece

/-- a list is read up to its first bad item -/
theorem mapM_items {β : Type} {xs : List (List Char)} {read : List Char → Except ProfileError β} {bad : List Char → Bool}
    {value : List Char → Option β} {error : List Char → ProfileError}
    (hbad : ∀ item ∈ xs, bad item = true → read item = .error (error item))
    (hgood : ∀ item ∈ xs, bad item = false → ∃ b, read item = .ok b ∧ value item = some b) :
    xs.mapM read = match xs.find? bad with
      | some item => .error (error item)
      | none => .ok (xs.filterMap value) := by
  induction xs with
  | nil => rfl
  | cons item xs ih =>
    rw [List.forall_mem_cons] at hbad hgood
    rw [List.mapM_cons, ih hbad.2 hgood.2]
    cases hitem : bad item with
    | true =>
      rw [hbad.1 hitem, List.find?_cons_of_pos hitem]
      rfl
    | false =>
      obtain ⟨b, hread, hvalue⟩ := hgood.1 hitem
      rw [hread, List.find?_cons_of_neg (by simp [hitem]), List.filterMap_cons_some hvalue]
      cases xs.find? bad <;> rfl

theorem parse_of_prefixOf? {item : List Char} {p : Cidr} (h : prefixOf? item = some p) : Cidr.parse item = .ok p := by
  unfold prefixOf? at h
  split at h
  · rename_i hparse
    rw [hparse, Option.some.inj h]
  · cases h

theorem parse_of_prefixOf?_eq_none {item : List Char} (h : prefixOf? item = none) : ∃ e, Cidr.parse item = .error e := by
  unfold prefixOf? at h
  split at h
  · cases h
  · rename_i e hparse
    exact ⟨e, hparse⟩

theorem trim_of_parse {s : List Char} {a : Ip} (h : Ip.parse s = some a) : trim s = s :=
  trim_eq (trimmed_of_noBlank fun c hc => (Ip.isAddressChar_of_parse h c hc).isBlank_eq_false)

theorem takeWhile_slash {host : List Char} (h : '/' ∉ host) (len : List Char) :
    (host ++ '/' :: len).takeWhile (· ≠ '/') = host := by
  refine takeWhile_append (fun c hc => decide_eq_true fun heq => h (heq ▸ hc)) ?_
  rintro c ⟨⟩
  rfl

/-- **An item that is a prefix has an address**: the text before its slash is one as it stands. -/
theorem deviceAddress?_of_prefixOf? {item : List Char} (hitem : Trimmed item) {p : Cidr} (h : prefixOf? item = some p) :
    ∃ a, deviceAddress? item = some a ∧ hostOf? item = some a := by
  have hparse := parse_of_prefixOf? h
  have hverdict := (Cidr.verdict_iff (trim_eq hitem) _).2 hparse
  rw [deviceAddress?, hparse, hostOf?]
  cases hverdict with
  | @address _ a _ alone read =>
    have hwhole : item.takeWhile (· ≠ '/') = item := by
      rw [List.takeWhile_eq_self_iff]
      exact fun c hc => decide_eq_true fun heq => alone (heq ▸ hc)
    simp only [splitAt?_eq_none alone, trim_eq hitem, hwhole, read]
    exact ⟨a, rfl, rfl⟩
  | @network host len a _ first read =>
    simp only [splitAt?_append first, trim_of_parse read, takeWhile_slash first, read]
    exact ⟨a, rfl, rfl⟩

theorem deviceAddresses_eq (line : Nat) (value : List Char) :
    deviceAddresses line value = match (items value).find? fun item => (prefixOf? item).isNone with
      | some item => .error (.value line (String.ofList item))
      | none => .ok ((items value).filterMap hostOf?) := by
  refine mapM_items (fun item _ hbad => ?_) fun item hmem hgood => ?_
  · obtain ⟨e, he⟩ := parse_of_prefixOf?_eq_none (Option.isNone_iff_eq_none.1 hbad)
    rw [deviceAddress?, he]
  · obtain ⟨p, hp⟩ := Option.isSome_iff_exists.1 (Option.isNone_eq_false_iff.1 hgood)
    obtain ⟨a, ha, hhost⟩ := deviceAddress?_of_prefixOf? (trimmed_of_mem_items hmem) hp
    exact ⟨a, by rw [ha], hhost⟩

theorem cidrs_eq (line : Nat) (value : List Char) :
    cidrs line value = match (items value).find? fun item => (prefixOf? item).isNone with
      | some item => .error (.value line (String.ofList item))
      | none => .ok ((items value).filterMap prefixOf?) := by
  refine mapM_items (fun item _ hbad => ?_) fun item _ hgood => ?_
  · obtain ⟨e, he⟩ := parse_of_prefixOf?_eq_none (Option.isNone_iff_eq_none.1 hbad)
    rw [he]
  · obtain ⟨p, hp⟩ := Option.isSome_iff_exists.1 (Option.isNone_eq_false_iff.1 hgood)
    exact ⟨p, by rw [parse_of_prefixOf? hp], hp⟩

end EdgeTunnel.Profile
