/-
What the options of the command line change in the settings.

`Applied` says it setting by setting, for those that an option may change and for those that none does. It speaks of no order
in which the options are looked at, and of the two sections by what is in them, whether they were there or are made. Options
that do not fit the settings (`Misfit`) change nothing: the program ends.

- `apply_eq_error_iff`, `apply_eq_ok_iff`: options are refused for a misfit and for nothing else, and otherwise the settings are
  those that `Applied` describes.
- `Applied.again`: what options have changed, they do not change again.
- `options_change_what_they_name`: all of it.
-/
import EdgeTunnel.CommandLine.Overrides

namespace EdgeTunnel.CommandLine

/-- why do options not fit an obfuscation section? -/
inductive Misfit (o : Overrides) (old : Option ObfuscationSettings) : OverrideError → Prop
  | cfonNeedsCountry (on : o.cfon = true) (unnamed : o.country = none) (fresh : old = none) :
      Misfit o old .cfonNeedsCountry
  | countryNeedsCfon {c : String} (named : o.country = some c) (off : o.cfon = false) : Misfit o old .countryNeedsCfon

/-- what options make of the obfuscation section: what none of them names is as before, or as it is by default -/
structure ObfuscationChanged (o : Overrides) (old new : Option ObfuscationSettings) : Prop where
  present : new.isSome = (o.cfon || old.isSome)
  region : ∀ n ∈ new, some n.region = o.country.or (old.map (·.region))
  program : ∀ n ∈ new, n.program = o.obfsProgram.getD (old.getD { region := n.region }).program
  args : ∀ n ∈ new, n.args = (old.getD { region := n.region }).args

/-- what options make of the scan section -/
structure ScanChanged (o : Overrides) (old new : Option ScanSettings) : Prop where
  present : new.isSome = (o.scan || o.rtt.isSome || old.isSome)
  maxRtt : ∀ n ∈ new, n.maxRttMs = o.rtt.getD (old.getD {}).maxRttMs
  rest : ∀ n ∈ new, ∃ maxRttMs, n = { old.getD {} with maxRttMs }

/-- what options make of the settings -/
structure Applied (o : Overrides) (s t : Settings) : Prop where
  bind : t.bind = o.bind.getD s.bind
  endpoint : t.endpoint = o.endpoint.or s.endpoint
  logLevel : t.logLevel = if o.verbose then "debug" else s.logLevel
  gool : t.gool = (o.gool || s.gool)
  obfuscation : ObfuscationChanged o s.obfuscation t.obfuscation
  scan : ScanChanged o s.scan t.scan
  primary : t.profiles.primary = o.primaryProfile.getD s.profiles.primary
  secondary : t.profiles.secondary = o.secondaryProfile.getD s.profiles.secondary
  proxy : t.proxy = s.proxy

variable {o : Overrides}

/-- what was taken from an option is taken from it again -/
theorem getD_again {α : Type} {given : Option α} {a b : α} (h : b = given.getD a) : b = given.getD b := by
  cases given with
  | none => rfl
  | some v => exact h

/-! ## The obfuscation section -/

section Obfuscation

variable {old new new' : Option ObfuscationSettings}

theorem Misfit.refused {e : OverrideError} (h : Misfit o old e) : o.obfuscation old = .error e := by
  cases h with
  | cfonNeedsCountry on unnamed fresh => simp only [Overrides.obfuscation, on, unnamed, fresh, if_true]
  | countryNeedsCfon named off =>
    simp only [Overrides.obfuscation, off, named, Bool.false_eq_true, if_false, Option.isSome_some, if_true]

/-- with the option for it there is a section, in the country that is given or else the one it had -/
theorem obfuscation_of_cfon (on : o.cfon = true) {region : String} (h : o.country.or (old.map (·.region)) = some region) :
    o.obfuscation old = .ok (some {
      region
      program := o.obfsProgram.getD (old.getD { region }).program
      args := (old.getD { region }).args }) := by
  simp only [Overrides.obfuscation, on, if_true]
  cases hcountry : o.country with
  | none =>
    rw [hcountry, Option.none_or] at h
    cases old with
    | none => cases h
    | some s =>
      cases h
      rfl
  | some c =>
    rw [hcountry, Option.some_or] at h
    cases h
    cases old <;> rfl

/-- without it the section is as it was, with the program that is given -/
theorem obfuscation_of_not_cfon (off : o.cfon = false) (unnamed : o.country = none) :
    o.obfuscation old = .ok (old.map fun s => { s with program := o.obfsProgram.getD s.program }) := by
  simp only [Overrides.obfuscation, off, unnamed, Bool.false_eq_true, if_false, Option.isSome_none]
  cases old <;> rfl

/-- **The obfuscation section** is refused for a misfit, or changed. -/
theorem obfuscation_verdict (o : Overrides) (old : Option ObfuscationSettings) :
    (∃ e, Misfit o old e) ∨ ∃ new, o.obfuscation old = .ok new ∧ ObfuscationChanged o old new := by
  cases hcfon : o.cfon with
  | true =>
    cases hregion : o.country.or (old.map (·.region)) with
    | none =>
      left
      obtain ⟨hcountry, hold⟩ := Option.or_eq_none_iff.1 hregion
      exact ⟨_, .cfonNeedsCountry hcfon hcountry (Option.map_eq_none_iff.1 hold)⟩
    | some region =>
      right
      refine ⟨_, obfuscation_of_cfon hcfon hregion, ?_, ?_, ?_, ?_⟩
      · rw [hcfon, Bool.true_or, Option.isSome_some]
      all_goals
        rintro n ⟨⟩
      · exact hregion.symm
      · rfl
      · rfl
  | false =>
    cases hcountry : o.country with
    | some c => exact .inl ⟨_, .countryNeedsCfon hcountry hcfon⟩
    | none =>
      right
      refine ⟨_, obfuscation_of_not_cfon hcfon hcountry, ?_, ?_, ?_, ?_⟩
      · rw [hcfon, Bool.false_or, Option.isSome_map]
      all_goals
        intro n hn
        obtain ⟨s, rfl, rfl⟩ := Option.map_eq_some_iff.1 hn
      · rw [hcountry, Option.none_or, Option.map_some]
      · rfl
      · rfl

/-- a change has one result -/
theorem ObfuscationChanged.unique (h : ObfuscationChanged o old new) (h' : ObfuscationChanged o old new') : new = new' := by
  have hpresent : new.isSome = new'.isSome := h.present.trans h'.present.symm
  rcases new with _ | n <;> rcases new' with _ | n'
  · rfl
  · cases hpresent
  · cases hpresent
  · have hregion : n.region = n'.region := Option.some.inj ((h.region n rfl).trans (h'.region n' rfl).symm)
    have hprogram : n.program = n'.program := by rw [h.program n rfl, h'.program n' rfl, hregion]
    have hargs : n.args = n'.args := by rw [h.args n rfl, h'.args n' rfl, hregion]
    cases n
    cases n'
    cases hregion
    cases hprogram
    cases hargs
    rfl

/-- what options have changed they leave as it is -/
theorem ObfuscationChanged.again (h : ObfuscationChanged o old new) : ObfuscationChanged o new new := by
  refine ⟨?_, ?_, ?_, ?_⟩
  · rw [h.present, ← Bool.or_assoc, Bool.or_self]
  · intro n hn
    have hregion := h.region n hn
    rw [Option.mem_def.1 hn, Option.map_some]
    cases hcountry : o.country with
    | none => rw [Option.none_or]
    | some c => rwa [hcountry, Option.some_or] at hregion
  · intro n hn
    rw [Option.mem_def.1 hn, Option.getD_some]
    exact getD_again (h.program n hn)
  · intro n hn
    rw [Option.mem_def.1 hn, Option.getD_some]

/-- options that fitted a section fit what they made of it -/
theorem Misfit.of_changed {e : OverrideError} (hchanged : ObfuscationChanged o old new) (h : Misfit o new e) :
    Misfit o old e := by
  cases h with
  | cfonNeedsCountry on unnamed fresh =>
    have hpresent := hchanged.present
    rw [on, fresh, Bool.true_or] at hpresent
    cases hpresent
  | countryNeedsCfon named off => exact .countryNeedsCfon named off

end Obfuscation

/-! ## The scan section -/

section Scan

variable {old new new' : Option ScanSettings}

/-- **The scan section** is never refused. -/
theorem scanSection_changed (o : Overrides) (old : Option ScanSettings) : ScanChanged o old (o.scanSection old) := by
  cases hasked : o.scan || o.rtt.isSome with
  | true =>
    have hsection : o.scanSection old = some { old.getD {} with maxRttMs := o.rtt.getD (old.getD {}).maxRttMs } := by
      rw [Overrides.scanSection, hasked, if_pos rfl]
    rw [hsection]
    refine ⟨?_, ?_, ?_⟩
    · rw [hasked, Bool.true_or, Option.isSome_some]
    all_goals
      rintro n ⟨⟩
    · rfl
    · exact ⟨_, rfl⟩
  | false =>
    have hsection : o.scanSection old = old := by
      rw [Overrides.scanSection, hasked, if_neg Bool.false_ne_true]
    have hrtt : o.rtt = none := Option.isNone_iff_eq_none.1 (Option.isSome_eq_false_iff.1 (Bool.or_eq_false_iff.1 hasked).2)
    rw [hsection]
    refine ⟨?_, ?_, ?_⟩
    · rw [hasked, Bool.false_or]
    all_goals
      rintro n ⟨⟩
    · rw [hrtt, Option.getD_none, Option.getD_some]
    · exact ⟨n.maxRttMs, rfl⟩

theorem ScanChanged.unique (h : ScanChanged o old new) (h' : ScanChanged o old new') : new = new' := by
  have hpresent : new.isSome = new'.isSome := h.present.trans h'.present.symm
  rcases new with _ | n <;> rcases new' with _ | n'
  · rfl
  · cases hpresent
  · cases hpresent
  · obtain ⟨rtt, hrest⟩ := h.rest n rfl
    obtain ⟨rtt', hrest'⟩ := h'.rest n' rfl
    have hmaxRtt : n.maxRttMs = n'.maxRttMs := (h.maxRtt n rfl).trans (h'.maxRtt n' rfl).symm
    subst hrest hrest'
    obtain rfl : rtt = rtt' := hmaxRtt
    rfl

theorem ScanChanged.again (h : ScanChanged o old new) : ScanChanged o new new := by
  refine ⟨?_, ?_, ?_⟩
  · rw [h.present, ← Bool.or_assoc, Bool.or_self]
  · intro n hn
    rw [Option.mem_def.1 hn, Option.getD_some]
    exact getD_again (h.maxRtt n hn)
  · intro n hn
    rw [Option.mem_def.1 hn, Option.getD_some]
    exact ⟨n.maxRttMs, rfl⟩

end Scan

/-! ## The settings -/

variable {s t t' : Settings}

theorem Applied.unique (h : Applied o s t) (h' : Applied o s t') : t = t' := by
  rcases t with ⟨bind, endpoint, logLevel, gool, obfuscation, scan, ⟨primary, secondary⟩, proxy⟩
  rcases t' with ⟨bind', endpoint', logLevel', gool', obfuscation', scan', ⟨primary', secondary'⟩, proxy'⟩
  obtain rfl : bind = bind' := h.bind.trans h'.bind.symm
  obtain rfl : endpoint = endpoint' := h.endpoint.trans h'.endpoint.symm
  obtain rfl : logLevel = logLevel' := h.logLevel.trans h'.logLevel.symm
  obtain rfl : gool = gool' := h.gool.trans h'.gool.symm
  obtain rfl : obfuscation = obfuscation' := h.obfuscation.unique h'.obfuscation
  obtain rfl : scan = scan' := h.scan.unique h'.scan
  obtain rfl : primary = primary' := h.primary.trans h'.primary.symm
  obtain rfl : secondary = secondary' := h.secondary.trans h'.secondary.symm
  obtain rfl : proxy = proxy' := h.proxy.trans h'.proxy.symm
  rfl

/-- **What options have changed** they do not change again. -/
theorem Applied.again (h : Applied o s t) : Applied o t t where
  bind := getD_again h.bind
  endpoint := by
    rw [h.endpoint, ← Option.or_assoc, Option.or_self]
  logLevel := by
    have hlevel := h.logLevel
    cases hverbose : o.verbose with
    | true => rwa [hverbose, if_pos rfl] at hlevel
    | false => rfl
  gool := by
    rw [h.gool, ← Bool.or_assoc, Bool.or_self]
  obfuscation := h.obfuscation.again
  scan := h.scan.again
  primary := getD_again h.primary
  secondary := getD_again h.secondary
  proxy := rfl

/-- **What comes of options**: settings that they changed, unless they do not fit. -/
theorem apply_verdict (o : Overrides) (s : Settings) :
    (∃ e, Misfit o s.obfuscation e ∧ o.apply s = .error e) ∨ ∃ t, o.apply s = .ok t ∧ Applied o s t := by
  rcases obfuscation_verdict o s.obfuscation with ⟨e, hmisfit⟩ | ⟨new, hnew, hchanged⟩
  · left
    refine ⟨e, hmisfit, ?_⟩
    rw [Overrides.apply, hmisfit.refused]
  · right
    rw [Overrides.apply, hnew]
    exact ⟨_, rfl, rfl, rfl, rfl, rfl, hchanged, scanSection_changed o s.scan, rfl, rfl, rfl⟩

theorem apply_eq_error_iff {e : OverrideError} : o.apply s = .error e ↔ Misfit o s.obfuscation e := by
  constructor
  · intro h
    rcases apply_verdict o s with ⟨e', hmisfit, he'⟩ | ⟨t, ht, -⟩
    · cases he'.symm.trans h
      exact hmisfit
    · cases ht.symm.trans h
  · intro hmisfit
    rw [Overrides.apply, hmisfit.refused]

theorem apply_eq_ok_iff : o.apply s = .ok t ↔ (∀ e, ¬ Misfit o s.obfuscation e) ∧ Applied o s t := by
  constructor
  · intro h
    refine ⟨?_, ?_⟩
    · intro e hmisfit
      cases h.symm.trans (apply_eq_error_iff.2 hmisfit)
    · rcases apply_verdict o s with ⟨e, -, he⟩ | ⟨t', ht', happlied⟩
      · cases he.symm.trans h
      · cases ht'.symm.trans h
        exact happlied
  · rintro ⟨hfits, happlied⟩
    rcases apply_verdict o s with ⟨e, hmisfit, -⟩ | ⟨t', ht', happlied'⟩
    · exact absurd hmisfit (hfits e)
    · rw [ht', happlied'.unique happlied]

/-- **Options change exactly what they name.**
- They are refused if an obfuscation is asked for whose country is named nowhere, or a country is named without asking for
  one, and in no other case.
- Otherwise every setting is as before or as an option that was given says, and no other settings are so.
- The same options fit what they made of the settings, and change nothing in it. -/
theorem options_change_what_they_name (o : Overrides) (s : Settings) :
    (∀ e, o.apply s = .error e ↔
        (e = .cfonNeedsCountry ∧ o.cfon = true ∧ o.country = none ∧ s.obfuscation = none) ∨
        (e = .countryNeedsCfon ∧ o.country.isSome = true ∧ o.cfon = false)) ∧
    (∀ t, o.apply s = .ok t ↔ (∀ e, o.apply s ≠ .error e) ∧ Applied o s t) ∧
    ∀ t, o.apply s = .ok t → o.apply t = .ok t := by
  refine ⟨?_, ?_, ?_⟩
  · intro e
    rw [apply_eq_error_iff]
    constructor
    · intro hmisfit
      cases hmisfit with
      | cfonNeedsCountry on unnamed fresh => exact .inl ⟨rfl, on, unnamed, fresh⟩
      | countryNeedsCfon named off => exact .inr ⟨rfl, Option.isSome_iff_exists.2 ⟨_, named⟩, off⟩
    · rintro (⟨rfl, on, unnamed, fresh⟩ | ⟨rfl, named, off⟩)
      · exact .cfonNeedsCountry on unnamed fresh
      · obtain ⟨c, hc⟩ := Option.isSome_iff_exists.1 named
        exact .countryNeedsCfon hc off
  · intro t
    rw [apply_eq_ok_iff]
    simp only [ne_eq, apply_eq_error_iff]
  · intro t h
    obtain ⟨hfits, happlied⟩ := apply_eq_ok_iff.1 h
    refine apply_eq_ok_iff.2 ⟨?_, happlied.again⟩
    intro e hmisfit
    exact hfits e (hmisfit.of_changed happlied.obfuscation)

/-- options that make both sections -/
theorem options_change_what_they_name_fresh :
    let o : Overrides :=
      { verbose := true, cfon := true, country := some "SE", obfsProgram := some "client", rtt := some 300 }
    let t : Settings := { logLevel := "debug", obfuscation := some { region := "SE", program := "client" },
                          scan := some { maxRttMs := 300 } }
    o.apply {} = .ok t ∧ o.apply t = .ok t := by
  intro o t
  have h : o.apply {} = .ok t := rfl
  exact ⟨h, (options_change_what_they_name o {}).2.2 t h⟩

end EdgeTunnel.CommandLine
