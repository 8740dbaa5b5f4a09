/-
A list of device addresses and a list of prefixes accept the same values.

`Writes` says which address and which length an item writes, and speaks of no reader. Both readers take the items that write
something and refuse the others: the one keeps the address with its host bits, the other the prefix of that length around it.

- `prefixOf?_eq_some_iff`, `hostOf?_of_writes`: what each reader takes of an item.
- `exists_pairs`: so lists of good items come out item by item.
- `lists_agree`: on every value both fail with the same error, or both succeed and agree at every place.
-/
import EdgeTunnel.Proofs.Profile.Items

namespace EdgeTunnel.Profile

open Text

/-! ## Items -/

/-- the address and the length that an item writes: a length that is a numeral after the first slash, or the whole width -/
inductive Writes : List Char → Ip → Nat → Prop
  | alone {item : List Char} {a : Ip} (uncut : '/' ∉ item) (read : Ip.parse item = some a) : Writes item a a.family.width
  | sized {host len : List Char} {a : Ip} {n : Nat} (first : '/' ∉ host) (read : Ip.parse host = some a)
      (number : IsNumeral len n) (fits : n ≤ a.family.width) : Writes (host ++ '/' :: len) a n

theorem Writes.le_width {item : List Char} {a : Ip} {n : Nat} (h : Writes item a n) : n ≤ a.family.width := by
  cases h with
  | alone _ _ => exact Nat.le_refl _
  | sized _ _ _ fits => exact fits

/-- **The prefixes that are read** are those around an address that the item writes, with the length it writes. -/
theorem prefixOf?_eq_some_iff {item : List Char} (hitem : Trimmed item) {p : Cidr} :
    prefixOf? item = some p ↔ ∃ a, Writes item a p.len ∧ p.contains a = true := by
  constructor
  · intro h
    have hverdict := (Cidr.verdict_iff (trim_eq hitem) _).2 (parse_of_prefixOf? h)
    cases hverdict with
    | @address _ a _ alone read whole holds =>
      refine ⟨a, ?_, holds⟩
      rw [whole]
      exact .alone alone read
    | @network host len a _ first read number holds =>
      have hfits : p.len ≤ a.family.width := Cidr.family_of_contains holds ▸ p.len_le
      exact ⟨a, .sized first read number hfits, holds⟩
  · rintro ⟨a, hwrites, hholds⟩
    have hverdict : Cidr.Verdict item (.ok p) := by
      generalize hlen : p.len = n at hwrites
      cases hwrites with
      | alone uncut read => exact .address uncut read hlen hholds
      | sized first read number _ => exact .network first read (hlen ▸ number) hholds
    rw [prefixOf?, (Cidr.verdict_iff (trim_eq hitem) _).1 hverdict]

/-- an item is a prefix as soon as it writes an address and a length -/
theorem prefixOf?_of_writes {item : List Char} (hitem : Trimmed item) {a : Ip} {n : Nat} (h : Writes item a n) :
    prefixOf? item = some (.around a n h.le_width) :=
  (prefixOf?_eq_some_iff hitem).2 ⟨a, h, Cidr.contains_around a h.le_width⟩

theorem prefixOf?_eq_none_iff {item : List Char} (hitem : Trimmed item) :
    prefixOf? item = none ↔ ∀ a n, ¬ Writes item a n := by
  constructor
  · intro hnone a n hwrites
    rw [prefixOf?_of_writes hitem hwrites] at hnone
    cases hnone
  · intro hsilent
    rw [Option.eq_none_iff_forall_not_mem]
    intro p hp
    obtain ⟨a, hwrites, -⟩ := (prefixOf?_eq_some_iff hitem).1 hp
    exact hsilent a p.len hwrites

/-- the address is what stands before the first slash -/
theorem hostOf?_of_writes {item : List Char} {a : Ip} {n : Nat} (h : Writes item a n) : hostOf? item = some a := by
  cases h with
  | alone uncut read =>
    have hwhole : item.takeWhile (· ≠ '/') = item := by
      rw [List.takeWhile_eq_self_iff]
      intro c hc
      exact decide_eq_true fun heq => uncut (heq ▸ hc)
    rw [hostOf?, hwhole, read]
  | sized first read _ _ => rw [hostOf?, takeWhile_slash first, read]

/-- an item is refused as a device address for no other reason than that it is no prefix -/
theorem deviceAddress?_eq_none_iff {item : List Char} (hitem : Trimmed item) :
    deviceAddress? item = none ↔ ∃ e, Cidr.parse item = .error e := by
  constructor
  · intro hnone
    apply parse_of_prefixOf?_eq_none
    cases hp : prefixOf? item with
    | none => rfl
    | some p =>
      obtain ⟨a, ha, -⟩ := deviceAddress?_of_prefixOf? hitem hp
      rw [hnone] at ha
      cases ha
  · rintro ⟨e, he⟩
    rw [deviceAddress?, he]

/-! ## Lists -/

/-- a device address and a prefix as the readers take them from one item -/
structure Pair (item : List Char) (a : Ip) (p : Cidr) : Prop where
  writes : Writes item a p.len
  around : Cidr.new a p.len = .ok p
  holds : p.contains a = true

theorem exists_pair {item : List Char} (hitem : Trimmed item) {p : Cidr} (hp : prefixOf? item = some p) :
    ∃ a, hostOf? item = some a ∧ Pair item a p := by
  obtain ⟨a, hwrites, hholds⟩ := (prefixOf?_eq_some_iff hitem).1 hp
  exact ⟨a, hostOf?_of_writes hwrites, hwrites, Cidr.new_of_contains hholds, hholds⟩

/-- **Good items** give an address and a prefix each, in order. -/
theorem exists_pairs {xs : List (List Char)} (htrimmed : ∀ item ∈ xs, Trimmed item)
    (hgood : ∀ item ∈ xs, ∃ p, prefixOf? item = some p) :
    ∃ entries : List (Ip × Cidr), xs.filterMap hostOf? = entries.map Prod.fst ∧
      xs.filterMap prefixOf? = entries.map Prod.snd ∧ List.Forall₂ (fun item e => Pair item e.1 e.2) xs entries := by
  induction xs with
  | nil => exact ⟨[], rfl, rfl, .nil⟩
  | cons item xs ih =>
    rw [List.forall_mem_cons] at htrimmed hgood
    obtain ⟨p, hp⟩ := hgood.1
    obtain ⟨a, ha, hpair⟩ := exists_pair htrimmed.1 hp
    obtain ⟨entries, hhosts, hprefixes, hentries⟩ := ih htrimmed.2 hgood.2
    refine ⟨(a, p) :: entries, ?_, ?_, .cons hpair hentries⟩
    · rw [List.filterMap_cons_some ha, hhosts, List.map_cons]
    · rw [List.filterMap_cons_some hp, hprefixes, List.map_cons]

/-- **The two lists of a value agree.**
- Both fail with the same error, which names the first item that writes no address with a length, or both succeed, with as many
  addresses as prefixes and as items: each prefix is the one around its address with the length that the item writes, which
  is the whole width without one, and so holds the address.
- No item that is a prefix is refused as a device address. -/
theorem lists_agree (line : Nat) (value : List Char) :
    ((∃ before item after, items value = before ++ item :: after ∧ (∀ i ∈ before, ∃ a n, Writes i a n) ∧
        (∀ a n, ¬ Writes item a n) ∧ deviceAddresses line value = .error (.value line (String.ofList item)) ∧
        cidrs line value = .error (.value line (String.ofList item))) ∨
      ∃ as ps, deviceAddresses line value = .ok as ∧ cidrs line value = .ok ps ∧ as.length = ps.length ∧
        List.Forall₂ (fun item e => Pair item e.1 e.2) (items value) (as.zip ps)) ∧
    ∀ item ∈ items value, deviceAddress? item = none ↔ ∃ e, Cidr.parse item = .error e := by
  have htrimmed : ∀ item ∈ items value, Trimmed item := fun item hitem => trimmed_of_mem_items hitem
  refine ⟨?_, fun item hitem => deviceAddress?_eq_none_iff (htrimmed item hitem)⟩
  rw [deviceAddresses_eq, cidrs_eq]
  cases hfind : (items value).find? fun item => (prefixOf? item).isNone with
  | some item =>
    left
    obtain ⟨hbad, before, after, hitems, hbefore⟩ := List.find?_eq_some_iff_append.1 hfind
    rw [hitems, List.forall_mem_append, List.forall_mem_cons] at htrimmed
    refine ⟨before, item, after, hitems, ?_, ?_, rfl, rfl⟩
    · intro i hi
      have hsome : (prefixOf? i).isSome = true := (Option.not_isNone _).symm.trans (hbefore i hi)
      obtain ⟨p, hp⟩ := Option.isSome_iff_exists.1 hsome
      obtain ⟨a, hwrites, -⟩ := (prefixOf?_eq_some_iff (htrimmed.1 i hi)).1 hp
      exact ⟨a, p.len, hwrites⟩
    · exact (prefixOf?_eq_none_iff htrimmed.2.1).1 (Option.isNone_iff_eq_none.1 hbad)
  | none =>
    right
    have hgood : ∀ item ∈ items value, ∃ p, prefixOf? item = some p := by
      intro item hitem
      exact Option.ne_none_iff_exists'.1 fun hnone => List.find?_eq_none.1 hfind item hitem (hnone ▸ rfl)
    obtain ⟨entries, hhosts, hprefixes, hentries⟩ := exists_pairs htrimmed hgood
    refine ⟨entries.map Prod.fst, entries.map Prod.snd, by rw [hhosts], by rw [hprefixes], ?_, ?_⟩
    · rw [List.length_map, List.length_map]
    · rwa [List.zip_map', List.map_id']

/-- a blank before the slash is no part of an address: the second item is refused by both -/
theorem lists_agree_blank_before_slash :
    let item := "10.0.0.2 /24".toList
    let value := "10.0.0.1/8, 10.0.0.2 /24, fd01::5".toList
    item ∈ items value ∧ (∃ e, Cidr.parse item = .error e) ∧ deviceAddress? item = none ∧
      deviceAddresses 3 value = .error (.value 3 "10.0.0.2 /24") := by
  intro item value
  have hmem : item ∈ items value := by decide +kernel
  have hparse : Cidr.parse item = .error (.parse "10.0.0.2 /24") := by decide +kernel
  exact ⟨hmem, ⟨_, hparse⟩, ((lists_agree 3 value).2 item hmem).2 ⟨_, hparse⟩, by decide +kernel⟩

end EdgeTunnel.Profile
