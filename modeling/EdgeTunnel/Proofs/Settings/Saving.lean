/-
What saved settings load as.

A 64-bit number above the largest signed one has no TOML form, nor has a path that is not text, and one of them leaves the
settings without any: they are saved as the empty text (`toToml_eq_empty_iff`). The empty text is settings too, all of them
standard (`parse_empty`), and no limit refuses the large numbers. So saved settings always load, and they load as others
exactly when something in them has no written form, or an address has flow information.

- `saved_settings_load`: what the text of any settings is read as.
- `accepted_settings_lost`: settings that pass their limits and load as the standard ones.
-/
import EdgeTunnel.Proofs.Settings.RoundTrip

namespace EdgeTunnel.Settings

open Toml

/-! ## What has no written form -/

theorem lt_of_lineValue_ofWord {n : UInt64} (h : (lineValue (ofWord n)).isSome = true) : n.toNat < 2 ^ 63 := by
  by_contra hlarge
  have hrange : ¬(-(2 ^ 63) ≤ (n.toNat : Int) ∧ (n.toNat : Int) < 2 ^ 63) := by omega
  have hline : lineValue (ofWord n) = none := by
    rw [ofWord, Data.ofNat, lineValue, atomValue, if_neg hrange]
    rintro xs ⟨⟩
  rw [hline] at h
  cases h

theorem exists_line_of_scanWords {s : ScanSettings} {n : UInt64} (h : n ∈ scanWords s) :
    ∃ k, (k, ofWord n) ∈ linesOf (scanData s) := by
  simp only [scanWords, List.mem_cons, List.not_mem_nil, or_false] at h
  rcases h with rfl | rfl | rfl | rfl
  · exact ⟨"max_rtt_ms", .head _⟩
  · exact ⟨"deadline_secs", .tail _ (.head _)⟩
  · exact ⟨"concurrency", .tail _ (.tail _ (.head _))⟩
  · exact ⟨"poll_interval_ms", .tail _ (.tail _ (.tail _ (.head _)))⟩

theorem exists_line_of_proxyWords {p : ProxySettings} {n : UInt64} (h : n ∈ proxyWords p) :
    ∃ k, (k, ofWord n) ∈ linesOf (proxyData p) := by
  simp only [proxyWords, List.mem_cons, List.not_mem_nil, or_false] at h
  rcases h with rfl | rfl | rfl
  · exact ⟨"idle_timeout_secs", .head _⟩
  · exact ⟨"max_connections", .tail _ (.head _)⟩
  · exact ⟨"buffer_size", .tail _ (.tail _ (.head _))⟩

/-- every number of settings stands on a line of its own in some section -/
theorem exists_section_of_words {c : Settings} {n : UInt64} (h : n ∈ c.words) :
    ∃ p ∈ sections c.fields, ∃ k, (k, ofWord n) ∈ p.2 := by
  rw [sections_fields]
  rcases List.mem_append.mp h with hscan | hproxy
  · cases hc : c.scan with
    | none =>
      rw [hc] at hscan
      cases hscan
    | some s =>
      rw [hc] at hscan
      refine ⟨("scan", linesOf (scanData s)), ?_, exists_line_of_scanWords hscan⟩
      exact List.mem_append_right _ (List.mem_append_left _ (.head _))
  · refine ⟨("proxy", linesOf (proxyData c.proxy)), ?_, exists_line_of_proxyWords hproxy⟩
    exact List.mem_append_right _ (List.mem_append_right _ (.tail _ (.head _)))

theorem profilesData_of_written {p : ProfilePaths} (h : Written (linesOf (profilesData p))) :
    p.primary.isText = true ∧ p.secondary.isText = true := by
  rw [← lineValue_ofPath, ← lineValue_ofPath]
  exact ⟨h ("primary", ofPath p.primary) (.head _), h ("secondary", ofPath p.secondary) (.tail _ (.head _))⟩

/-! ## The text of settings -/

/-- **Settings have a written form** just when each of their numbers and paths has one. -/
theorem isSome_write_iff (c : Settings) : (write c.fields).isSome = true ↔ c.Storable := by
  constructor
  · intro h
    obtain ⟨s, hs⟩ := Option.isSome_iff_exists.mp h
    have hsections := (written_of_write hs).2
    refine ⟨fun n hn => ?_, ?_⟩
    · obtain ⟨p, hp, k, hk⟩ := exists_section_of_words hn
      exact lt_of_lineValue_ofWord (hsections p hp (k, ofWord n) hk)
    · have hprofiles : ("profiles", linesOf (profilesData c.profiles)) ∈ sections c.fields := by simp [sections_fields]
      obtain ⟨hprimary, hsecondary⟩ := profilesData_of_written (hsections _ hprofiles)
      simp [paths, hprimary, hsecondary]
  · intro h
    obtain ⟨s, hs⟩ := exists_write (writable_fields h)
    exact Option.isSome_of_eq_some hs

theorem toToml_eq_empty_iff (c : Settings) : c.toToml = "" ↔ ¬c.Storable := by
  rw [← isSome_write_iff, Option.not_isSome_iff_eq_none]
  cases h : write c.fields with
  | none => simp [toToml, h]
  | some s =>
    have hne : s ≠ "" := write_ne_empty (by rintro ⟨⟩) (by rintro fs ⟨⟩) h
    simp [toToml, h, hne]

/-! ## The same settings -/

theorem with_profiles_of_same {a b : Settings} (h : a.same b = true) : { a with profiles := b.profiles } = b := by
  simp only [same, Bool.and_eq_true, decide_eq_true_eq] at h
  exact h.2

theorem words_of_same {a b : Settings} (h : a.same b = true) : a.words = b.words := by
  rw [← with_profiles_of_same h]
  rfl

theorem same_iff_of_profiles {a b : Settings} (h : a.profiles = b.profiles) : a.same b = true ↔ a = b := by
  constructor
  · intro hsame
    have hrest := with_profiles_of_same hsame
    rwa [← h] at hrest
  · rintro rfl
    simp [same]

/-- **Settings that mean the same have a written form together**, though their paths may be spelled in two ways. -/
theorem Storable.of_same {a b : Settings} (h : a.same b = true) (hwords : ∀ n ∈ a.words, n.toNat < 2 ^ 63)
    (htext : ∀ p ∈ a.paths, ∀ piece ∈ p.components, FilePath.isText ⟨piece⟩ = true) : b.Storable := by
  refine ⟨words_of_same h ▸ hwords, ?_⟩
  simp only [same, Bool.and_eq_true, beq_iff_eq] at h
  obtain ⟨⟨hprimary, hsecondary⟩, -⟩ := h
  have hb : ∀ p ∈ b.paths, ∀ piece ∈ p.components, FilePath.isText ⟨piece⟩ = true := by
    simpa [Settings.paths, hprimary, hsecondary] using htext
  exact fun p hp => FilePath.isText_of_components (hb p hp)

/-! ## What it loads as -/

/-- **The empty text is the standard settings.** -/
theorem parse_empty : parse .toml "" = .ok {} := rfl

/-- nothing in the standard settings is too large or no text -/
theorem storable_of_standard_same {c : Settings} (h : ({} : Settings).same c = true) : c.Storable :=
  .of_same h (by simp [words, proxyWords]) (by decide +kernel)

/-- **What saved settings load as.** The text of settings always loads. While every number is at most the largest signed one
and the paths are text it gives the settings themselves, save the flow information of their addresses. Otherwise the text is
empty, and it gives the standard settings. So the same settings come back exactly when everything has a written form and no
address has flow information. -/
theorem saved_settings_load (c : Settings) :
    (c.Storable → parse .toml c.toToml = .ok c.withoutFlow) ∧
      (¬c.Storable → c.toToml = "" ∧ parse .toml c.toToml = .ok {}) ∧
      ∃ c', parse .toml c.toToml = .ok c' ∧ (c'.same c = true ↔ c.Storable ∧ ∀ a ∈ c.addresses, a.flow = 0) := by
  have hstored (h : c.Storable) : parse .toml c.toToml = .ok c.withoutFlow := by
    obtain ⟨s, hs⟩ := Option.isSome_iff_exists.mp ((isSome_write_iff c).mpr h)
    rw [toToml, hs, Option.getD_some]
    exact parse_written h hs
  have hlost (h : ¬c.Storable) : c.toToml = "" ∧ parse .toml c.toToml = .ok {} := by
    have hempty := (toToml_eq_empty_iff c).mpr h
    exact ⟨hempty, by rw [hempty, parse_empty]⟩
  refine ⟨hstored, hlost, ?_⟩
  by_cases h : c.Storable
  · have hprofiles : c.withoutFlow.profiles = c.profiles := rfl
    refine ⟨_, hstored h, ?_⟩
    rw [same_iff_of_profiles hprofiles, withoutFlow_eq_self_iff, and_iff_right h]
  · exact ⟨_, (hlost h).2, fun hsame => absurd (storable_of_standard_same hsame) h, fun hc => absurd hc.1 h⟩

/-- settings with an idle limit -/
def idling (n : UInt64) : Settings := { proxy := { idleSecs := n } }

theorem saved_settings_load_at_bound :
    (idling 0x7fffffffffffffff).Storable ∧
      parse .toml (idling 0x7fffffffffffffff).toToml = .ok (idling 0x7fffffffffffffff) ∧
      ¬(idling 0x8000000000000000).Storable ∧ (idling 0x8000000000000000).toToml = "" ∧
      parse .toml (idling 0x8000000000000000).toToml = .ok {} ∧ ¬rawlyNamed.Storable ∧ rawlyNamed.toToml = "" := by
  have hpaths : ∀ p ∈ (idling 0).paths, p.isText = true := by decide
  have hfits : (idling 0x7fffffffffffffff).Storable := ⟨by simp [idling, words, proxyWords], hpaths⟩
  have hlarge : ¬(idling 0x8000000000000000).Storable := fun h => absurd (h.words _ (.head _)) (by decide)
  have hraw : ¬rawlyNamed.Storable := fun h => absurd h.primary (by decide)
  obtain ⟨hempty, hstandard⟩ := (saved_settings_load (idling 0x8000000000000000)).2.1 hlarge
  exact ⟨hfits, (saved_settings_load _).1 hfits, hlarge, hempty, hstandard, hraw, ((saved_settings_load _).2.1 hraw).1⟩

/-- settings whose round trip limit is one above the largest signed number -/
def patient : Settings := { scan := some { maxRttMs := 0x8000000000000000 } }

/-- **Accepted settings are lost**: they pass every limit, their text is empty, and it is read as settings without a scan,
which pass every limit too. -/
theorem accepted_settings_lost :
    patient.validate = .ok .direct ∧ patient.toToml = "" ∧ parse .toml patient.toToml = .ok {} ∧
      ({} : Settings).same patient = false ∧ ({} : Settings).validate = .ok .direct := by
  have hempty : patient.toToml = "" := by
    refine (toToml_eq_empty_iff patient).mpr fun h => absurd (h.words _ (.head _)) (by decide)
  have hother : ({} : Settings).same patient = false := by
    rw [Bool.eq_false_iff]
    intro hsame
    exact absurd (words_of_same hsame) (by decide)
  exact ⟨rfl, hempty, by rw [hempty, parse_empty], hother, rfl⟩

end EdgeTunnel.Settings
