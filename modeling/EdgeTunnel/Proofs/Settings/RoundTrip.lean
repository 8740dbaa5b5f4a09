/-
Settings that are written as TOML and read back.

Settings are written with at most the keys in `keys`, each section with the keys of its own in `sectionKeys`: all of them are
bare and distinct, so what is written can be read (`readable_fields`). Everything has a written form while the 64-bit numbers
are at most the largest signed one and the paths are text (`Storable`, `writable_fields`). What is left of the fields once
absent sections are dropped means the same settings (`ofData_kept`), save the flow information of their addresses.

- `parse_written`, `parse_toToml`: the text of settings is read back as the same settings.
- `raw_path_lost`: a path that is not text is not.
-/
import EdgeTunnel.Proofs.Document.TomlDocument
import EdgeTunnel.Proofs.Settings.Sections

namespace EdgeTunnel.Settings

open Toml

/-! ## What settings are written as -/

def linesOf : Data → List (String × Data)
  | .record fs => plain fs
  | _ => []

theorem plain_fields (c : Settings) : plain c.fields =
    ("bind", ofAddress c.bind) :: ((c.endpoint.map fun a => ("endpoint", ofAddress a)).toList ++
      [("log_level", .ofString c.logLevel), ("gool", .bool c.gool)]) := by
  obtain ⟨bind, endpoint, logLevel, gool, obfuscation, scan, profiles, proxy⟩ := c
  cases endpoint <;> cases obfuscation <;> cases scan <;> rfl

theorem sections_fields (c : Settings) : sections c.fields =
    (c.obfuscation.map fun o => ("obfuscation", linesOf (obfuscationData o))).toList ++
      ((c.scan.map fun s => ("scan", linesOf (scanData s))).toList ++
        [("profiles", linesOf (profilesData c.profiles)), ("proxy", linesOf (proxyData c.proxy))]) := by
  obtain ⟨bind, endpoint, logLevel, gool, obfuscation, scan, profiles, proxy⟩ := c
  cases endpoint <;> cases obfuscation <;> cases scan <;> rfl

theorem kept_fields (c : Settings) : kept c.fields =
    ("bind", ofAddress c.bind) :: ((c.endpoint.map fun a => ("endpoint", ofAddress a)).toList ++
      ([("log_level", .ofString c.logLevel), ("gool", .bool c.gool)] ++
        ((c.obfuscation.map fun o => ("obfuscation", obfuscationData o)).toList ++
          ((c.scan.map fun s => ("scan", scanData s)).toList ++
            [("profiles", profilesData c.profiles), ("proxy", proxyData c.proxy)])))) := by
  obtain ⟨bind, endpoint, logLevel, gool, obfuscation, scan, profiles, proxy⟩ := c
  cases endpoint <;> cases obfuscation <;> cases scan <;> rfl

/-! ## Keys -/

def keys : List String := ["bind", "endpoint", "log_level", "gool", "obfuscation", "scan", "profiles", "proxy"]

def sectionKeys : List (List String) := [
  ["region", "program", "args"],
  ["max_rtt_ms", "deadline_secs", "concurrency", "poll_interval_ms", "ipv4", "ipv6", "decoys", "ports"],
  ["primary", "secondary"], ["idle_timeout_secs", "max_connections", "buffer_size"]]

theorem sublist_option {α β : Type} (x : Option α) (k : String) (f : α → β) :
    ((x.map fun a => (k, f a)).toList.map Prod.fst).Sublist [k] := by
  cases x with
  | none => simp
  | some a => simp

theorem sublist_keys (c : Settings) : ((plain c.fields).map Prod.fst ++ (sections c.fields).map Prod.fst).Sublist keys := by
  have hplain := (sublist_option c.endpoint "endpoint" ofAddress).append (.refl ["log_level", "gool"])
  have hsections := (sublist_option c.obfuscation "obfuscation" fun o => linesOf (obfuscationData o)).append
    ((sublist_option c.scan "scan" fun s => linesOf (scanData s)).append (.refl ["profiles", "proxy"]))
  rw [plain_fields, sections_fields]
  simp only [List.map_cons, List.map_append]
  exact (hplain.cons_cons "bind").append hsections

theorem mem_sectionKeys {c : Settings} {p : String × List (String × Data)} (hp : p ∈ sections c.fields) :
    p.2.map Prod.fst ∈ sectionKeys := by
  simp only [sections_fields, List.mem_append, Option.mem_toList, Option.map_eq_some_iff, List.mem_cons, List.not_mem_nil,
    or_false] at hp
  rcases hp with ⟨o, -, rfl⟩ | ⟨s, -, rfl⟩ | rfl | rfl
  · exact .head _
  · exact .tail _ (.head _)
  · exact .tail _ (.tail _ (.head _))
  · exact .tail _ (.tail _ (.tail _ (.head _)))

theorem bare_keys : ∀ k ∈ keys, Bare k := by decide

theorem bare_sectionKeys : ∀ ks ∈ sectionKeys, ks.Nodup ∧ ∀ k ∈ ks, Bare k := by decide

/-- **What is written can be read**: no key needs quotes, and none is there twice. -/
theorem readable_fields (c : Settings) : Readable c.fields where
  plain_bare p hp := bare_keys _ ((sublist_keys c).subset (List.mem_append_left _ (List.mem_map_of_mem hp)))
  sections_bare p hp := by
    refine ⟨bare_keys _ ((sublist_keys c).subset (List.mem_append_right _ (List.mem_map_of_mem hp))), fun q hq => ?_⟩
    exact (bare_sectionKeys _ (mem_sectionKeys hp)).2 _ (List.mem_map_of_mem hq)
  nodup := (sublist_keys c).nodup (by decide)
  sections_nodup p hp := (bare_sectionKeys _ (mem_sectionKeys hp)).1

/-! ## Written forms -/

theorem atomValue_ofNat {n : Nat} (h : n < 2 ^ 63) : (atomValue (.ofNat n)).isSome = true := by
  have hrange : -(2 ^ 63) ≤ (n : Int) ∧ (n : Int) < 2 ^ 63 := by omega
  rw [Data.ofNat, atomValue, if_pos hrange]
  rfl

theorem lineValue_ofWord {n : UInt64} (h : n.toNat < 2 ^ 63) : (lineValue (ofWord n)).isSome = true := by
  have hline : lineValue (ofWord n) = atomValue (.ofNat n.toNat) := by
    rw [ofWord, Data.ofNat, lineValue]
    rintro xs ⟨⟩
  rw [hline]
  exact atomValue_ofNat h

theorem lineValue_list {α : Type} {write : α → Data} (h : ∀ x, (atomValue (write x)).isSome = true) (xs : List α) :
    (lineValue (.list (xs.map write))).isSome = true := by
  have hitems : ∃ items, (xs.map write).mapM atomValue = some items := by
    induction xs with
    | nil => exact ⟨[], rfl⟩
    | cons x xs ih =>
      obtain ⟨items, hitems⟩ := ih
      obtain ⟨v, hv⟩ := Option.isSome_iff_exists.mp (h x)
      exact ⟨v :: items, by simp [hv, hitems]⟩
  obtain ⟨items, hitems⟩ := hitems
  rw [lineValue, hitems, Option.bind_eq_bind, Option.bind_some]
  split
  · rfl
  · rfl
  · rfl

theorem lineValue_ofString (t : String) : (lineValue (.ofString t)).isSome = true := rfl

theorem lineValue_bool (b : Bool) : (lineValue (.bool b)).isSome = true := rfl

theorem written_obfuscationData (o : ObfuscationSettings) : Written (linesOf (obfuscationData o)) := by
  have hlines : linesOf (obfuscationData o) = [("region", .ofString o.region), ("program", .ofString o.program),
    ("args", .list (o.args.map .ofString))] := rfl
  have hargs : (lineValue (.list (o.args.map .ofString))).isSome = true := lineValue_list (fun _ => rfl) o.args
  rw [hlines]
  simp only [written_cons, written_nil, lineValue_ofString, hargs, and_self]

def scanWords (s : ScanSettings) : List UInt64 := [s.maxRttMs, s.deadlineSecs, s.concurrency, s.pollMs]

theorem written_scanData {s : ScanSettings} (h : ∀ n ∈ scanWords s, n.toNat < 2 ^ 63) : Written (linesOf (scanData s)) := by
  have hlines : linesOf (scanData s) = [("max_rtt_ms", ofWord s.maxRttMs), ("deadline_secs", ofWord s.deadlineSecs),
    ("concurrency", ofWord s.concurrency), ("poll_interval_ms", ofWord s.pollMs), ("ipv4", .bool s.ipv4),
    ("ipv6", .ofString (modeName s.ipv6)), ("decoys", .bool s.decoys),
    ("ports", .list (s.ports.map fun p => .ofNat p.toNat))] := rfl
  have hports := lineValue_list (fun p : UInt16 => atomValue_ofNat (p.toNat_lt.trans (by decide))) s.ports
  simp only [scanWords, List.forall_mem_cons] at h
  obtain ⟨hrtt, hdeadline, hconcurrency, hpoll, -⟩ := h
  rw [hlines]
  simp only [written_cons, written_nil, lineValue_ofWord hrtt, lineValue_ofWord hdeadline, lineValue_ofWord hconcurrency,
    lineValue_ofWord hpoll, lineValue_bool, lineValue_ofString, hports, and_self]

theorem lineValue_ofPath (p : FilePath) : (lineValue (ofPath p)).isSome = p.isText := by
  rw [ofPath, FilePath.isText]
  cases p.text? with
  | none => rfl
  | some s => rfl

theorem written_profilesData {p : ProfilePaths} (hprimary : p.primary.isText = true) (hsecondary : p.secondary.isText = true) :
    Written (linesOf (profilesData p)) := by
  have hlines : linesOf (profilesData p) = [("primary", ofPath p.primary), ("secondary", ofPath p.secondary)] := rfl
  rw [hlines]
  simp only [written_cons, written_nil, lineValue_ofPath, hprimary, hsecondary, and_self]

def proxyWords (p : ProxySettings) : List UInt64 := [p.idleSecs, p.maxConnections, p.bufferSize]

theorem written_proxyData {p : ProxySettings} (h : ∀ n ∈ proxyWords p, n.toNat < 2 ^ 63) :
    Written (linesOf (proxyData p)) := by
  have hlines : linesOf (proxyData p) = [("idle_timeout_secs", ofWord p.idleSecs),
    ("max_connections", ofWord p.maxConnections), ("buffer_size", ofWord p.bufferSize)] := rfl
  simp only [proxyWords, List.forall_mem_cons] at h
  obtain ⟨hidle, hconnections, hbuffer, -⟩ := h
  rw [hlines]
  simp only [written_cons, written_nil, lineValue_ofWord hidle, lineValue_ofWord hconnections,
    lineValue_ofWord hbuffer, and_self]

/-- the 64-bit numbers in settings -/
def words (c : Settings) : List UInt64 := (c.scan.map scanWords).getD [] ++ proxyWords c.proxy

/-- has everything in settings a written form? -/
structure Storable (c : Settings) : Prop where
  words : ∀ n ∈ c.words, n.toNat < 2 ^ 63
  paths : ∀ p ∈ c.paths, p.isText = true

theorem Storable.primary {c : Settings} (h : c.Storable) : c.profiles.primary.isText = true := h.paths _ (.head _)

theorem Storable.secondary {c : Settings} (h : c.Storable) : c.profiles.secondary.isText = true :=
  h.paths _ (.tail _ (.head _))

/-- **Everything has a written form** while no number is above the largest signed one and the paths are text. -/
theorem writable_fields {c : Settings} (h : c.Storable) : Writable c.fields where
  plain_named := by simp [fields]
  sections_named := by
    intro k fs hfs
    simp only [fields, List.mem_cons, Prod.mk.injEq, List.not_mem_nil, or_false] at hfs
    rcases hfs with ⟨-, hfs⟩ | ⟨-, hfs⟩ | ⟨-, hfs⟩ | ⟨-, hfs⟩ | ⟨-, hfs⟩ | ⟨-, hfs⟩ | ⟨-, hfs⟩ |
      ⟨-, hfs⟩
    · cases hfs
    · cases hc : c.endpoint <;> rw [hc] at hfs <;> cases hfs
    · cases hfs
    · cases hfs
    · cases hc : c.obfuscation <;> rw [hc] at hfs <;> cases hfs
      simp
    · cases hc : c.scan <;> rw [hc] at hfs <;> cases hfs
      simp
    · cases hfs
      simp
    · cases hfs
      simp
  plain_written := by
    have hbind : (lineValue (ofAddress c.bind)).isSome = true := rfl
    have hendpoint : Written (c.endpoint.map fun a => ("endpoint", ofAddress a)).toList := by
      cases c.endpoint with
      | none => exact written_nil
      | some a => exact written_cons.mpr ⟨rfl, written_nil⟩
    rw [plain_fields]
    refine written_cons.mpr ⟨hbind, List.forall_mem_append.mpr ⟨hendpoint, ?_⟩⟩
    exact written_cons.mpr ⟨lineValue_ofString _, written_cons.mpr ⟨lineValue_bool _, written_nil⟩⟩
  sections_written := by
    intro p hp
    simp only [sections_fields, List.mem_append, Option.mem_toList, Option.map_eq_some_iff, List.mem_cons, List.not_mem_nil,
      or_false] at hp
    rcases hp with ⟨o, -, rfl⟩ | ⟨s, hs, rfl⟩ | rfl | rfl
    · exact written_obfuscationData o
    · refine written_scanData fun n hn => h.words n (List.mem_append_left _ ?_)
      rw [hs]
      exact hn
    · exact written_profilesData h.primary h.secondary
    · exact written_proxyData fun n hn => h.words n (List.mem_append_right _ hn)

/-! ## Reading back -/

theorem field_option_of_ne {α β : Type} {x : Option β} {write : β → Data} {r : List (String × Data)} {j k : String}
    {read : Data → Option α} {standard : α} (h : j ≠ k) :
    field (given (fieldsOf ((x.map fun a => (j, write a)).toList ++ r))) k read standard =
      field (given (fieldsOf r)) k read standard := by
  cases x with
  | none => rfl
  | some a => exact field_cons_of_ne h

theorem field_option_self {β γ : Type} {x : Option β} {write : β → Data} {g : β → γ} {r : List (String × Data)}
    {k : String} {read : Data → Option (Option γ)} (hread : ∀ a, read (write a) = some (some (g a)))
    (hr : field (given (fieldsOf r)) k read none = some none) :
    field (given (fieldsOf ((x.map fun a => (k, write a)).toList ++ r))) k read none = some (x.map g) := by
  cases x with
  | none => exact hr
  | some a => exact field_cons_self.trans (hread a)

/-- **What is written means the same settings**, save the flow information of their addresses. -/
theorem ofData_kept {c : Settings} (h : c.Storable) :
    ofData .toml (.record (fieldsOf (kept c.fields))) = some c.withoutFlow := by
  have hendpoint : ∀ a, optional address (ofAddress a) = some (some a.withoutFlow) := fun a => by
    rw [optional_of_ne (by rintro ⟨⟩), address_ofAddress, Option.map_some]
  have hobfuscation : ∀ o, optional (obfuscationSection .toml) (obfuscationData o) = some (some (id o)) := fun o => by
    rw [optional_of_ne (by rintro ⟨⟩), obfuscationSection_obfuscationData, Option.map_some, id]
  have hscan : ∀ s, optional (scanSection .toml) (scanData s) = some (some (id s)) := fun s => by
    rw [optional_of_ne (by rintro ⟨⟩), scanSection_scanData, Option.map_some, id]
  have hprofiles : profilesSection .toml (profilesData c.profiles) = some c.profiles :=
    profilesSection_profilesData .toml h.primary h.secondary
  rw [ofData, section?_record .toml _ (fun _ => isSome_of_mem_fieldsOf) (nodup_fieldsOf (readable_fields c).kept_nodup),
    kept_fields]
  simp -implicitDefEqProofs [fieldsOf_cons, fieldsOf_nil, field_nil, field_cons_self, field_cons_of_ne,
    field_option_self hendpoint, field_option_self hobfuscation, field_option_self hscan, field_option_of_ne,
    address_ofAddress, hprofiles, proxySection_proxyData, text, Data.ofString, flag, withoutFlow]

theorem parse_written {c : Settings} {s : String} (h : c.Storable) (hs : write c.fields = some s) :
    parse .toml s = .ok c.withoutFlow := by
  have hparse : Toml.parse s = some (.record (fieldsOf (kept c.fields))) := parse_write (readable_fields c) hs
  rw [parse, SettingsFormat.parse, hparse]
  simp only [Bind.bind, Except.bind, ofData_kept h, pure, Except.pure]

/-- **The text of settings is read back as the same settings**, whatever their texts, lists, addresses and sections, while no
number is above the largest signed one, the paths are text and no address has flow information. -/
theorem parse_toToml (c : Settings) (hwords : ∀ n ∈ c.words, n.toNat ≤ 2 ^ 63 - 1)
    (hpaths : ∀ p ∈ c.paths, p.isText = true) (hflow : ∀ a ∈ c.addresses, a.flow = 0) : parse .toml c.toToml = .ok c := by
  have hstorable : c.Storable := ⟨fun n hn => Nat.lt_of_le_sub_one (by decide) (hwords n hn), hpaths⟩
  obtain ⟨s, hs⟩ := exists_write (writable_fields hstorable)
  rw [toToml, hs, Option.getD_some, parse_written hstorable hs, withoutFlow_eq_self_iff.mpr hflow]

/-- settings with every section, an address with a scope, texts that need each way of quoting, and the largest number -/
def awkward : Settings where
  endpoint := some ⟨.ofNat .v6 0xfe800000000000000000000000000001, 2408, 7, 0, (nomatch ·), fun _ => rfl⟩
  logLevel := "say \"debug\""
  obfuscation := some {
    region := "two\nlines, it's \"\"\" and '''", program := "\x00\x7f\\", args := ["'", "", "C:\\program", "\t\r\n"] }
  scan := some { maxRttMs := 9223372036854775807, ipv6 := .off, ports := [0, 443, 65535] }

theorem parse_toToml_awkward :
    (∀ n ∈ awkward.words, n.toNat ≤ 2 ^ 63 - 1) ∧ (∀ p ∈ awkward.paths, p.isText = true) ∧
      (∀ a ∈ awkward.addresses, a.flow = 0) ∧ parse .toml awkward.toToml = .ok awkward := by
  have hwords : ∀ n ∈ awkward.words, n.toNat ≤ 2 ^ 63 - 1 := by simp [awkward, words, scanWords, proxyWords]
  have hpaths : ∀ p ∈ awkward.paths, p.isText = true := by decide
  have hflow : ∀ a ∈ awkward.addresses, a.flow = 0 := by decide
  exact ⟨hwords, hpaths, hflow, parse_toToml awkward hwords hpaths hflow⟩

/-- settings whose primary identity file is named by a byte that no text has, `ini` after a dot -/
def rawlyNamed : Settings := { profiles := { primary := ⟨[0xff, 0x2e, 0x69, 0x6e, 0x69]⟩ } }

/-- **A path that is not text is lost**, and everything else with it: the text of such settings is empty, though every number
of them is small and no address has flow information. -/
theorem raw_path_lost :
    (∀ n ∈ rawlyNamed.words, n.toNat ≤ 2 ^ 63 - 1) ∧ (∀ a ∈ rawlyNamed.addresses, a.flow = 0) ∧
      rawlyNamed.toToml = "" ∧ parse .toml rawlyNamed.toToml = .ok {} ∧ ({} : Settings).same rawlyNamed = false := by
  have hempty : rawlyNamed.toToml = "" := by decide +kernel
  exact ⟨by simp [rawlyNamed, words, proxyWords], by decide, hempty, by rw [hempty]; rfl, by decide +kernel⟩

end EdgeTunnel.Settings
