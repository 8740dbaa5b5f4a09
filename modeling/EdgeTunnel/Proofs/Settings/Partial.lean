/-
Settings that are read from a JSON text that gives some of them only.

What a record gives is told by its members alone, whatever their order and whatever else is there: what is left of a known
field when it was kept, and nothing when it was removed (`section?_edited`). So a field is read as it was written, or as its
default (`Gives.field_eq`), which makes one lemma for each section, and the whole file the same way (`ofData_edited`).

- `isSome_write_toData_iff`: settings have a JSON text when their paths are text.
- `parse_edited`: a JSON text of settings with keys removed, added and reordered means those settings without the removed
  ones, and the text that is written of settings means these settings.
- `flow_lost`: flow information does not come back.
-/
import EdgeTunnel.Proofs.Document.JsonValue
import EdgeTunnel.Proofs.Settings.Sections
import EdgeTunnel.Settings.Overlay

namespace EdgeTunnel.Settings

/-! ## Keys -/

theorem given_eq_none {gs : List (Option String × Data)} {k : String} (h : some k ∉ gs.map Prod.fst) : given gs k = none := by
  have hfind : gs.find? (·.1 == some k) = none := by
    rw [List.find?_eq_none]
    rintro g hg hkey
    exact h (beq_iff_eq.mp hkey ▸ List.mem_map_of_mem hg)
  rw [given, hfind, Option.map_none]

theorem given_of_mem {gs : List (Option String × Data)} {k : String} {y : Data}
    (hcount : gs.countP (·.1 == some k) ≤ 1) (hmem : (some k, y) ∈ gs) : given gs k = some y := by
  obtain ⟨before, after, rfl⟩ := List.append_of_mem hmem
  have hbefore : before.find? (·.1 == some k) = none := by
    rw [List.find?_eq_none]
    intro g hg hkey
    have hpos : 0 < before.countP (·.1 == some k) := List.countP_pos_iff.mpr ⟨g, hg, hkey⟩
    rw [List.countP_append, List.countP_cons_of_pos (by simp)] at hcount
    omega
  rw [given, List.find?_append, hbefore, Option.none_or, List.find?_cons_of_pos (by simp)]
  rfl

section
variable {removed : List (List String)} {path : List String}

/-! ## Records -/

theorem eq_of_edited {x y : Data} (hx : ∀ fs, x ≠ .record fs) (h : Edited removed path x y) : y = x := by
  cases h with
  | leaf _ => rfl
  | record _ _ _ => exact absurd rfl (hx _)

theorem keys_kept {fs kept : List (Option String × Data)} (h : EditedMembers removed path fs kept) :
    (kept.map Prod.fst).Sublist (fs.map Prod.fst) := by
  -- the relation goes on into values, which do not matter here: the induction is on the members
  induction fs generalizing kept with
  | nil =>
    cases h
    exact .refl _
  | cons f fs ih =>
    cases h with
    | drop gone more => exact (ih more).cons _
    | keep stays value more => exact (ih more).cons_cons _

theorem notMem_kept {fs kept : List (Option String × Data)} (h : EditedMembers removed path fs kept) {k : String}
    (gone : path ++ [k] ∈ removed) : some k ∉ kept.map Prod.fst := by
  induction fs generalizing kept with
  | nil =>
    cases h
    exact List.not_mem_nil
  | cons f fs ih =>
    cases h with
    | drop _ more => exact ih more
    | keep stays value more =>
      rw [List.map_cons, List.mem_cons, not_or]
      refine ⟨?_, ih more⟩
      rintro ⟨⟩
      exact stays gone

theorem exists_mem_kept {fs kept : List (Option String × Data)} (h : EditedMembers removed path fs kept) {k : String}
    {x : Data} (hx : (some k, x) ∈ fs) (stays : path ++ [k] ∉ removed) :
    ∃ y, (some k, y) ∈ kept ∧ Edited removed (path ++ [k]) x y := by
  induction fs generalizing kept with
  | nil => exact absurd hx List.not_mem_nil
  | cons f fs ih =>
    cases h with
    | drop gone more =>
      rcases List.mem_cons.mp hx with heq | hx
      · cases heq
        exact absurd gone stays
      · exact ih more hx
    | keep _ value more =>
      rcases List.mem_cons.mp hx with heq | hx
      · cases heq
        exact ⟨_, .head _, value⟩
      · obtain ⟨y, hy, hedited⟩ := ih more hx
        exact ⟨y, .tail _ hy, hedited⟩

/-- what a section gives when it was left of the members `fs` -/
structure Gives (removed : List (List String)) (path : List String) (fs : List (Option String × Data))
    (get : String → Option Data) : Prop where
  gone : ∀ {k x}, (some k, x) ∈ fs → path ++ [k] ∈ removed → get k = none
  stays : ∀ {k x}, (some k, x) ∈ fs → path ++ [k] ∉ removed → ∃ y, get k = some y ∧ Edited removed (path ++ [k]) x y

/-- the unknown keys are none of those that a section has -/
theorem notMem_others {names : List String} {fs others : List (Option String × Data)}
    (hkeys : fs.map Prod.fst = names.map some) (unknown : ∀ m ∈ others, ∃ k, m.1 = some k ∧ ∀ f ∈ fs, f.1 ≠ some k)
    {n : String} (hn : n ∈ names) : some n ∉ others.map Prod.fst := by
  intro hmem
  obtain ⟨g, hg, hgn⟩ := List.mem_map.mp hmem
  obtain ⟨k, hk, hfresh⟩ := unknown g hg
  have hfs : some n ∈ fs.map Prod.fst := hkeys ▸ List.mem_map_of_mem hn
  obtain ⟨f, hf, hfn⟩ := List.mem_map.mp hfs
  exact hfresh f hf (hfn.trans (hgn.symm.trans hk))

/-- a section that was edited has texts for its keys -/
theorem all_isSome_edited {names : List String} {fs kept others gs : List (Option String × Data)}
    (hkeys : fs.map Prod.fst = names.map some) (members : EditedMembers removed path fs kept)
    (unknown : ∀ m ∈ others, ∃ k, m.1 = some k ∧ ∀ f ∈ fs, f.1 ≠ some k) (order : gs.Perm (kept ++ others)) :
    gs.all (·.1.isSome) = true := by
  rw [List.all_eq_true]
  intro g hg
  rcases List.mem_append.mp (order.mem_iff.mp hg) with hkept | hother
  · have hkey := (keys_kept members).subset (List.mem_map_of_mem hkept)
    rw [hkeys] at hkey
    obtain ⟨n, -, hn⟩ := List.mem_map.mp hkey
    rw [← hn, Option.isSome_some]
  · obtain ⟨k, hk, -⟩ := unknown g hother
    rw [hk, Option.isSome_some]

/-- no key of a section stands twice after it was edited -/
theorem countP_edited_le {names : List String} {fs kept others gs : List (Option String × Data)}
    (hkeys : fs.map Prod.fst = names.map some) (hnodup : names.Nodup) (members : EditedMembers removed path fs kept)
    (unknown : ∀ m ∈ others, ∃ k, m.1 = some k ∧ ∀ f ∈ fs, f.1 ≠ some k) (order : gs.Perm (kept ++ others))
    {n : String} (hn : n ∈ names) : gs.countP (·.1 == some n) ≤ 1 := by
  have hkept : (kept.map Prod.fst).count (some n) ≤ 1 := by
    refine List.nodup_iff_count_le_one.mp ((keys_kept members).nodup ?_) (some n)
    rw [hkeys]
    exact hnodup.map (Option.some_injective _)
  have hnone : (others.map Prod.fst).count (some n) = 0 := List.count_eq_zero.mpr (notMem_others hkeys unknown hn)
  rw [List.count, List.countP_map] at hkept hnone
  calc gs.countP (·.1 == some n)
    _ = kept.countP (·.1 == some n) + others.countP (·.1 == some n) := by rw [order.countP_eq, List.countP_append]
    _ ≤ 1 + 0 := Nat.add_le_add hkept hnone.le

/-- **A section gives what is left of its members**, in whatever order they stand and whatever stands between them. -/
theorem section?_edited (f : SettingsFormat) (names : List String) {fs : List (Option String × Data)} {y : Data}
    (hkeys : fs.map Prod.fst = names.map some) (hnodup : names.Nodup) (h : Edited removed path (.record fs) y) :
    ∃ get, section? f names y = some get ∧ Gives removed path fs get := by
  cases h with
  | leaf hleaf => exact absurd rfl (hleaf fs)
  | record members unknown order =>
    rename_i kept others gs
    have hcount : ∀ n ∈ names, gs.countP (·.1 == some n) ≤ 1 := fun n hn =>
      countP_edited_le hkeys hnodup members unknown order hn
    have hsection : section? f names (.record gs) = some (given gs) := by
      have hall : names.all (fun n => gs.countP (·.1 == some n) ≤ 1) = true :=
        List.all_eq_true.mpr fun n hn => decide_eq_true (hcount n hn)
      simp only [section?, all_isSome_edited hkeys members unknown order, hall, Bool.and_self, if_true]
      rfl
    have hname : ∀ {k x}, (some k, x) ∈ fs → k ∈ names := by
      intro k x hx
      have hkey : some k ∈ fs.map Prod.fst := List.mem_map.mpr ⟨_, hx, rfl⟩
      rw [hkeys] at hkey
      obtain ⟨n, hn, hsome⟩ := List.mem_map.mp hkey
      exact Option.some.inj hsome ▸ hn
    refine ⟨given gs, hsection, fun hx hgone => ?_, fun hx hstays => ?_⟩
    · apply given_eq_none
      rw [(order.map Prod.fst).mem_iff, List.map_append, List.mem_append, not_or]
      exact ⟨notMem_kept members hgone, notMem_others hkeys unknown (hname hx)⟩
    · obtain ⟨z, hz, hedited⟩ := exists_mem_kept members hx hstays
      exact ⟨z, given_of_mem (hcount _ (hname hx)) (order.mem_iff.mpr (List.mem_append_left _ hz)), hedited⟩

/-! ## Fields -/

section
variable {fs : List (Option String × Data)} {get : String → Option Data} {k : String}

/-- **A field is read as it was written, or as its default** when its key is gone. -/
theorem Gives.field_eq (h : Gives removed path fs get) {α : Type} {x : Data} {read : Data → Option α} {v standard : α}
    (hx : (some k, x) ∈ fs) (hread : ∀ y, Edited removed (path ++ [k]) x y → read y = some v) :
    field get k read standard = some (keptOr removed (path ++ [k]) v standard) := by
  unfold field keptOr
  split_ifs with hmem
  · rw [h.gone hx hmem]
  · obtain ⟨y, hy, hedited⟩ := h.stays hx hmem
    rw [hy]
    exact hread y hedited

theorem Gives.leaf_eq (h : Gives removed path fs get) {α : Type} {x : Data} {read : Data → Option α} {v standard : α}
    (hx : (some k, x) ∈ fs) (hleaf : ∀ fs, x ≠ .record fs) (hread : read x = some v) :
    field get k read standard = some (keptOr removed (path ++ [k]) v standard) :=
  h.field_eq hx fun y hy => by rw [eq_of_edited hleaf hy, hread]

theorem Gives.word_eq (h : Gives removed path fs get) {n standard : UInt64} (hx : (some k, ofWord n) ∈ fs) :
    field get k number64 standard = some (keptOr removed (path ++ [k]) n standard) :=
  h.leaf_eq hx (by rintro _ ⟨⟩) (number64_ofWord n)

theorem Gives.text_eq (h : Gives removed path fs get) {t standard : String} (hx : (some k, .ofString t) ∈ fs) :
    field get k text standard = some (keptOr removed (path ++ [k]) t standard) :=
  h.leaf_eq hx (by rintro _ ⟨⟩) rfl

theorem Gives.path_eq (h : Gives removed path fs get) {p standard : FilePath} (hp : p.isText = true)
    (hx : (some k, ofPath p) ∈ fs) :
    field get k Settings.path standard = some (keptOr removed (path ++ [k]) p standard) :=
  h.leaf_eq hx (by rintro _ ⟨⟩) (path_ofPath hp)

theorem Gives.flag_eq (h : Gives removed path fs get) {b standard : Bool} (hx : (some k, .bool b) ∈ fs) :
    field get k flag standard = some (keptOr removed (path ++ [k]) b standard) :=
  h.leaf_eq hx (by rintro _ ⟨⟩) rfl

end

/-! ## Sections -/

theorem obfuscationSection_edited (f : SettingsFormat) (o : ObfuscationSettings) {y : Data}
    (hregion : ["obfuscation", "region"] ∉ removed) (h : Edited removed ["obfuscation"] (obfuscationData o) y) :
    obfuscationSection f y = some (obfuscationWithout removed o) := by
  obtain ⟨get, hget, hgives⟩ := section?_edited f ["region", "program", "args"] rfl (by decide) h
  obtain ⟨r, hr, hedited⟩ := hgives.stays (.head _) hregion
  have hr' : r = .ofString o.region := eq_of_edited (by rintro _ ⟨⟩) hedited
  have htext : ∀ t, text (.ofString t) = some t := fun _ => rfl
  have hargs := listOf_map htext o.args
  rw [obfuscationSection, hget]
  simp only [Option.bind_eq_bind, Option.bind_some, hr, hr', Data.ofString, text]
  rw [hgives.text_eq (k := "program") (t := o.program) (by simp),
    hgives.leaf_eq (k := "args") (x := .list (o.args.map .ofString)) (by simp) (by rintro _ ⟨⟩) hargs]
  rfl

theorem scanSection_edited (f : SettingsFormat) (s : ScanSettings) {y : Data}
    (h : Edited removed ["scan"] (scanData s) y) : scanSection f y = some (scanWithout removed s) := by
  obtain ⟨get, hget, hgives⟩ := section?_edited f
    ["max_rtt_ms", "deadline_secs", "concurrency", "poll_interval_ms", "ipv4", "ipv6", "decoys", "ports"] rfl (by decide) h
  have hports : listOf (fun p => (number 65536 p).map UInt16.ofNat) (.list (s.ports.map fun p => .ofNat p.toNat)) =
      some s.ports :=
    listOf_map (fun p => by rw [number_ofNat p.toNat_lt, Option.map_some, UInt16.ofNat_toNat]) s.ports
  rw [scanSection, hget]
  simp only [Option.bind_eq_bind, Option.bind_some]
  rw [hgives.word_eq (k := "max_rtt_ms") (n := s.maxRttMs) (by simp),
    hgives.word_eq (k := "deadline_secs") (n := s.deadlineSecs) (by simp),
    hgives.word_eq (k := "concurrency") (n := s.concurrency) (by simp),
    hgives.word_eq (k := "poll_interval_ms") (n := s.pollMs) (by simp),
    hgives.flag_eq (k := "ipv4") (b := s.ipv4) (by simp),
    hgives.leaf_eq (k := "ipv6") (x := .ofString (modeName s.ipv6)) (by simp) (by rintro _ ⟨⟩) (mode_ofString f s.ipv6),
    hgives.flag_eq (k := "decoys") (b := s.decoys) (by simp),
    hgives.leaf_eq (k := "ports") (x := .list (s.ports.map fun p => .ofNat p.toNat)) (by simp) (by rintro _ ⟨⟩) hports]
  rfl

theorem profilesSection_edited (f : SettingsFormat) {p : ProfilePaths} {y : Data} (hprimary : p.primary.isText = true)
    (hsecondary : p.secondary.isText = true) (h : Edited removed ["profiles"] (profilesData p) y) :
    profilesSection f y = some (profilesWithout removed p) := by
  obtain ⟨get, hget, hgives⟩ := section?_edited f ["primary", "secondary"] rfl (by decide) h
  rw [profilesSection, hget]
  simp only [Option.bind_eq_bind, Option.bind_some]
  rw [hgives.path_eq hprimary (k := "primary") (by simp), hgives.path_eq hsecondary (k := "secondary") (by simp)]
  rfl

theorem proxySection_edited (f : SettingsFormat) (p : ProxySettings) {y : Data}
    (h : Edited removed ["proxy"] (proxyData p) y) : proxySection f y = some (proxyWithout removed p) := by
  obtain ⟨get, hget, hgives⟩ := section?_edited f ["idle_timeout_secs", "max_connections", "buffer_size"] rfl (by decide) h
  rw [proxySection, hget]
  simp only [Option.bind_eq_bind, Option.bind_some]
  rw [hgives.word_eq (k := "idle_timeout_secs") (n := p.idleSecs) (by simp),
    hgives.word_eq (k := "max_connections") (n := p.maxConnections) (by simp),
    hgives.word_eq (k := "buffer_size") (n := p.bufferSize) (by simp)]
  rfl

/-- a value that may be absent, from what is left of it -/
theorem optional_edited {α β : Type} {read : Data → Option β} {write : α → Data} {g : α → β}
    (hwrite : ∀ a, ∃ fs, write a = .record fs) (hread : ∀ a y, Edited removed path (write a) y → read y = some (g a))
    (o : Option α) {y : Data} (h : Edited removed path (ofOption write o) y) : optional read y = some (o.map g) := by
  cases o with
  | none =>
    rw [eq_of_edited (by rintro _ ⟨⟩) h]
    rfl
  | some a =>
    obtain ⟨fs, hfs⟩ := hwrite a
    have hnull : y ≠ .null := by
      rintro rfl
      rw [ofOption, Option.map_some, Option.getD_some, hfs] at h
      cases h
    rw [optional_of_ne hnull, hread a y h]
    rfl

/-- **What is left of settings means the settings without the removed ones**, save the flow information of addresses. -/
theorem ofData_edited (f : SettingsFormat) {c : Settings} {y : Data} (hpaths : ∀ p ∈ c.paths, p.isText = true)
    (hregion : ["obfuscation", "region"] ∉ removed) (h : Edited removed [] c.toData y) :
    ofData f y = some (c.withoutFlow.without removed) := by
  obtain ⟨get, hget, hgives⟩ := section?_edited f
    ["bind", "endpoint", "log_level", "gool", "obfuscation", "scan", "profiles", "proxy"] rfl (by decide) h
  have hbind : field get "bind" address ({} : Settings).bind =
      some (keptOr removed ["bind"] c.bind.withoutFlow ({} : Settings).bind) :=
    hgives.leaf_eq (by simp [fields]) (by rintro _ ⟨⟩) (address_ofAddress c.bind)
  have hendpoint : optional address (ofOption ofAddress c.endpoint) = some (c.endpoint.map (·.withoutFlow)) := by
    cases c.endpoint with
    | none => rfl
    | some a => rw [ofOption, Option.map_some, Option.getD_some, optional_of_ne (by rintro ⟨⟩), address_ofAddress]; rfl
  have hleaf : ∀ fs, ofOption ofAddress c.endpoint ≠ .record fs := by
    cases c.endpoint with
    | none => rintro _ ⟨⟩
    | some a => rintro _ ⟨⟩
  have hobfuscation (y : Data) (hy : Edited removed ["obfuscation"] (ofOption obfuscationData c.obfuscation) y) :=
    optional_edited (fun o => ⟨_, rfl⟩) (fun o _ => obfuscationSection_edited f o hregion) c.obfuscation hy
  have hscan (y : Data) (hy : Edited removed ["scan"] (ofOption scanData c.scan) y) :=
    optional_edited (fun s => ⟨_, rfl⟩) (fun s _ => scanSection_edited f s) c.scan hy
  have hprofiles (y : Data) (hy : Edited removed ["profiles"] (profilesData c.profiles) y) :=
    profilesSection_edited f (hpaths _ (.head _)) (hpaths _ (.tail _ (.head _))) hy
  rw [ofData, hget]
  simp only [Option.bind_eq_bind, Option.bind_some]
  rw [hbind, hgives.leaf_eq (k := "endpoint") (by simp [fields]) hleaf hendpoint,
    hgives.text_eq (k := "log_level") (t := c.logLevel) (by simp [fields]),
    hgives.flag_eq (k := "gool") (b := c.gool) (by simp [fields]),
    hgives.field_eq (k := "obfuscation") (by simp [fields]) hobfuscation,
    hgives.field_eq (k := "scan") (by simp [fields]) hscan,
    hgives.field_eq (k := "profiles") (by simp [fields]) hprofiles,
    hgives.field_eq (k := "proxy") (by simp [fields]) (fun y => proxySection_edited f c.proxy)]
  rfl

/-- the same text, whatever is around and between its keys and values -/
theorem parse_of_edited {c : Settings} {x : Data} {s : String} (hpaths : ∀ p ∈ c.paths, p.isText = true)
    (hregion : ["obfuscation", "region"] ∉ removed) (hx : Edited removed [] c.toData x)
    (hs : Json.SpellsPadded x s.toList) : parse .json s = .ok (c.withoutFlow.without removed) := by
  rw [parse, SettingsFormat.parse, Json.parse_spelled hs]
  simp only [Bind.bind, Except.bind, ofData_edited .json hpaths hregion hx, pure, Except.pure]

end

/-! ## Nothing removed -/

/-- a record stays as it is when none of its keys is removed and its values stay as they are -/
theorem edited_record {removed : List (List String)} {path : List String} {fs : List (Option String × Data)}
    (h : ∀ m ∈ fs, ∃ k, m.1 = some k ∧ path ++ [k] ∉ removed ∧ Edited removed (path ++ [k]) m.2 m.2) :
    Edited removed path (.record fs) (.record fs) := by
  have hmembers : EditedMembers removed path fs fs := by
    induction fs with
    | nil => exact .nil
    | cons m fs ih =>
      obtain ⟨k, x⟩ := m
      rw [List.forall_mem_cons] at h
      obtain ⟨⟨k, rfl, hstays, hvalue⟩, hmore⟩ := h
      exact .keep hstays hvalue (ih hmore)
  have horder : fs.Perm (fs ++ []) := by rw [List.append_nil]
  exact .record hmembers (fun _ hm => absurd hm List.not_mem_nil) horder

/-- a section has no sections of its own -/
theorem edited_flat {path : List String} {fs : List (Option String × Data)}
    (h : ∀ m ∈ fs, m.1.isSome = true ∧ ∀ gs, m.2 ≠ .record gs) : Edited [] path (.record fs) (.record fs) := by
  refine edited_record fun m hm => ?_
  obtain ⟨hnamed, hleaf⟩ := h m hm
  obtain ⟨k, hk⟩ := Option.isSome_iff_exists.mp hnamed
  exact ⟨k, hk, List.not_mem_nil, .leaf hleaf⟩

theorem edited_toData (c : Settings) : Edited [] [] c.toData c.toData := by
  refine edited_record ?_
  simp only [fields, List.forall_mem_cons, List.not_mem_nil, not_false_eq_true, true_and, false_implies, implies_true,
    and_true, Option.some.injEq, exists_eq_left']
  refine ⟨.leaf (by rintro _ ⟨⟩), ?_, .leaf (by rintro _ ⟨⟩), .leaf (by rintro _ ⟨⟩), ?_, ?_, ?_, ?_⟩
  · cases c.endpoint with
    | none => exact .leaf (by rintro _ ⟨⟩)
    | some a => exact .leaf (by rintro _ ⟨⟩)
  · cases c.obfuscation with
    | none => exact .leaf (by rintro _ ⟨⟩)
    | some o => exact edited_flat (by simp [Data.ofString])
  · cases c.scan with
    | none => exact .leaf (by rintro _ ⟨⟩)
    | some s => exact edited_flat (by simp [Data.ofString, ofWord, Data.ofNat])
  · exact edited_flat (by simp [ofPath])
  · exact edited_flat (by simp [ofWord, Data.ofNat])

theorem without_nil (c : Settings) : c.without [] = c := by
  have hobfuscation : obfuscationWithout [] = id := by
    funext o
    simp [obfuscationWithout, keptOr]
  have hscan : scanWithout [] = id := by
    funext s
    simp [scanWithout, keptOr]
  simp [without, profilesWithout, proxyWithout, keptOr, hobfuscation, hscan]

/-! ## Written forms -/

theorem isSome_numeral {n : Nat} (h : n < 2 ^ 64) : (Json.write (.ofNat n)).isSome = true := by
  have hnumeral : Json.write (.ofNat n) = if n < 2 ^ 64 then some (Text.decimal n) else none := rfl
  rw [hnumeral, if_pos h, Option.isSome_some]

theorem isSome_writeElements {xs : List Data} (h : ∀ x ∈ xs, (Json.write x).isSome = true) :
    (Json.writeElements xs).isSome = true := by
  induction xs with
  | nil => rfl
  | cons x xs ih =>
    rw [List.forall_mem_cons] at h
    obtain ⟨t, ht⟩ := Option.isSome_iff_exists.mp h.1
    obtain ⟨r, hr⟩ := Option.isSome_iff_exists.mp (ih h.2)
    cases xs with
    | nil => rw [Json.writeElements, ht, Option.isSome_some]
    | cons y ys => simp [Json.writeElements, ht, hr]

theorem isSome_writeMembers_iff {fs : List (Option String × Data)} : (Json.writeMembers fs).isSome = true ↔
    ∀ m ∈ fs, m.1.isSome = true ∧ (Json.write m.2).isSome = true := by
  induction fs with
  | nil => simp [Json.writeMembers]
  | cons m fs ih =>
    obtain ⟨k, x⟩ := m
    rw [List.forall_mem_cons, ← ih]
    cases fs with
    | nil => cases k <;> cases hx : Json.write x <;> simp [Json.writeMembers, hx]
    | cons m fs =>
      cases k <;> cases hx : Json.write x <;> cases hr : Json.writeMembers (m :: fs) <;> simp [Json.writeMembers, hx, hr]

theorem isSome_write_record_iff {fs : List (Option String × Data)} : (Json.write (.record fs)).isSome = true ↔
    ∀ m ∈ fs, m.1.isSome = true ∧ (Json.write m.2).isSome = true := by
  rw [Json.write, Option.isSome_map, isSome_writeMembers_iff]

theorem isSome_write_ofPath (p : FilePath) : (Json.write (ofPath p)).isSome = p.isText := by
  rw [ofPath, FilePath.isText]
  cases p.text? with
  | none => rfl
  | some t => rfl

/-- **Settings have a JSON text**, whatever their numbers, just when their paths are text. -/
theorem isSome_write_toData_iff (c : Settings) :
    (Json.write c.toData).isSome = true ↔ ∀ p ∈ c.paths, p.isText = true := by
  have hword : ∀ n, (Json.write (ofWord n)).isSome = true := fun n => isSome_numeral n.toNat_lt
  have htext : ∀ t, (Json.write (.ofString t)).isSome = true := fun _ => rfl
  have hflag : ∀ b, (Json.write (.bool b)).isSome = true := by decide
  have hlist : ∀ {α : Type} {write : α → Data} (xs : List α), (∀ x, (Json.write (write x)).isSome = true) →
      (Json.write (.list (xs.map write))).isSome = true := by
    intro α write xs h
    rw [Json.write, Option.isSome_map]
    refine isSome_writeElements ?_
    rw [List.forall_mem_map]
    exact fun x _ => h x
  have hendpoint : (Json.write (ofOption ofAddress c.endpoint)).isSome = true := by
    cases c.endpoint with
    | none => rfl
    | some a => rfl
  have hobfuscation : (Json.write (ofOption obfuscationData c.obfuscation)).isSome = true := by
    cases c.obfuscation with
    | none => rfl
    | some o => exact isSome_write_record_iff.mpr (by simp [htext, hlist])
  have hscan : (Json.write (ofOption scanData c.scan)).isSome = true := by
    cases c.scan with
    | none => rfl
    | some s =>
      have hports := hlist s.ports fun p => isSome_numeral (p.toNat_lt.trans (by decide))
      exact isSome_write_record_iff.mpr (by simp [htext, hword, hflag, hports])
  have hprofiles : (Json.write (profilesData c.profiles)).isSome = true ↔ ∀ p ∈ c.paths, p.isText = true := by
    rw [profilesData, isSome_write_record_iff]
    simp [isSome_write_ofPath, paths]
  have hproxy : (Json.write (proxyData c.proxy)).isSome = true := isSome_write_record_iff.mpr (by simp [hword])
  rw [toData, isSome_write_record_iff]
  simp only [fields, List.forall_mem_cons, List.not_mem_nil, false_implies, implies_true, and_true, Option.isSome_some,
    true_and, ofAddress, htext, hflag, hendpoint, hobfuscation, hscan, hproxy, hprofiles]

/-! ## Whole files -/

theorem spells_written {x : Data} {t : List Char} (h : Json.write x = some t) :
    Json.SpellsPadded x (String.ofList t).toList := by
  rw [String.toList_ofList]
  exact (Json.spells_write h).alone

/-- **A JSON text that gives some settings only means those settings, and the defaults of the rest.** Keys may be removed at
the top and in every section, save the region of an obfuscation section; what is left may stand in any order and with any
unknown keys, in any spelling that the format allows. With nothing removed the settings come back, and the text that is
written of them is such a text. The flow information of addresses alone is lost, where there is any. -/
theorem parse_edited (c : Settings) {removed : List (List String)} {x : Data} {s : String}
    (hpaths : ∀ p ∈ c.paths, p.isText = true) (hregion : ["obfuscation", "region"] ∉ removed)
    (hx : Edited removed [] c.toData x) (hs : Json.SpellsPadded x s.toList) :
    parse .json s = .ok (c.withoutFlow.without removed) ∧ c.without [] = c ∧
      (c.withoutFlow = c ↔ ∀ a ∈ c.addresses, a.flow = 0) ∧
      ∃ t, Json.write c.toData = some t ∧ parse .json (String.ofList t) = .ok c.withoutFlow := by
  refine ⟨parse_of_edited hpaths hregion hx hs, without_nil c, withoutFlow_eq_self_iff, ?_⟩
  obtain ⟨t, ht⟩ := Option.isSome_iff_exists.mp ((isSome_write_toData_iff c).mpr hpaths)
  have hparse := parse_of_edited hpaths List.not_mem_nil (edited_toData c) (spells_written ht)
  rw [without_nil] at hparse
  exact ⟨t, ht, hparse⟩

/-- settings with an address and a section -/
def sample : Settings where
  endpoint := some (.of (.ofNat .v4 0xa29fc0b1) 2408)
  logLevel := "debug"
  scan := some { maxRttMs := 250, ipv6 := .off }

/-- keys at the top and in a section -/
def gone : List (List String) := [["log_level"], ["proxy"], ["scan", "ipv6"], ["scan", "ports"]]

def keptOfScan : List (Option String × Data) := [
  (some "max_rtt_ms", ofWord 250), (some "deadline_secs", ofWord 120), (some "concurrency", ofWord 32),
  (some "poll_interval_ms", ofWord 1000), (some "ipv4", .bool true), (some "decoys", .bool true)]

/-- the members backwards, after one with an unknown key -/
def turned (fs : List (Option String × Data)) : Data := .record ((some "comment", .list [.null, .bool false]) :: fs.reverse)

def keptOfSample : List (Option String × Data) := [
  (some "bind", ofAddress .standardBind), (some "endpoint", ofOption ofAddress sample.endpoint), (some "gool", .bool false),
  (some "obfuscation", .null), (some "scan", turned keptOfScan), (some "profiles", profilesData {})]

def textOfSample : String := String.ofList ((Json.write (turned keptOfSample)).getD [])

theorem edited_turned {path : List String} {fs kept : List (Option String × Data)} (h : EditedMembers gone path fs kept)
    (hfresh : ∀ f ∈ fs, f.1 ≠ some "comment") : Edited gone path (.record fs) (turned kept) := by
  have horder : ((some "comment", .list [.null, .bool false]) :: kept.reverse).Perm
      (kept ++ [(some "comment", .list [.null, .bool false])]) :=
    ((List.reverse_perm kept).cons _).trans (List.perm_append_singleton _ kept).symm
  refine .record h (fun m hm => ?_) horder
  rw [List.mem_singleton.mp hm]
  exact ⟨"comment", rfl, hfresh⟩

theorem parse_edited_sample :
    (∀ p ∈ sample.paths, p.isText = true) ∧ ["obfuscation", "region"] ∉ gone ∧
      Edited gone [] sample.toData (turned keptOfSample) ∧ Json.SpellsPadded (turned keptOfSample) textOfSample.toList ∧
      parse .json textOfSample = .ok { endpoint := sample.endpoint, scan := some { maxRttMs := 250 } } := by
  have hpaths : ∀ p ∈ sample.paths, p.isText = true := by decide
  have hregion : ["obfuscation", "region"] ∉ gone := by decide
  have hscan : Edited gone ["scan"] (scanData { maxRttMs := 250, ipv6 := .off }) (turned keptOfScan) := by
    refine edited_turned ?_ (by simp)
    repeat' first
      | exact .nil
      | refine .keep (by decide) (.leaf (by rintro _ ⟨⟩)) ?_
      | refine .drop (by decide) ?_
  have hprofiles : Edited gone ["profiles"] (profilesData {}) (profilesData {}) := by
    refine edited_record ?_
    simp only [List.forall_mem_cons, List.not_mem_nil, false_implies, implies_true, and_true, Option.some.injEq,
      exists_eq_left']
    exact ⟨⟨by decide, .leaf (by rintro _ ⟨⟩)⟩, by decide, .leaf (by rintro _ ⟨⟩)⟩
  have hedited : Edited gone [] sample.toData (turned keptOfSample) := by
    refine edited_turned ?_ (by simp [fields])
    repeat' first
      | exact .nil
      | refine .keep (by decide) hscan ?_
      | refine .keep (by decide) hprofiles ?_
      | refine .keep (by decide) (.leaf (by rintro _ ⟨⟩)) ?_
      | refine .drop (by decide) ?_
  have hspelled : Json.SpellsPadded (turned keptOfSample) textOfSample.toList := by
    have hwrite : (Json.write (turned keptOfSample)).isSome = true := by decide
    obtain ⟨t, ht⟩ := Option.isSome_iff_exists.mp hwrite
    rw [textOfSample, ht, Option.getD_some]
    exact spells_written ht
  exact ⟨hpaths, hregion, hedited, hspelled, (parse_edited sample hpaths hregion hedited hspelled).1⟩

/-- settings that bind an address with flow information -/
def flowing : Settings := { bind := ⟨.ofNat .v6 1, 80, 0, 5, fun _ => rfl, (nomatch ·)⟩ }

/-- **Flow information does not come back**: the text of such settings, with nothing removed, means others. -/
theorem flow_lost :
    ∃ t, Json.write flowing.toData = some t ∧ Edited [] [] flowing.toData flowing.toData ∧
      Json.SpellsPadded flowing.toData (String.ofList t).toList ∧
      parse .json (String.ofList t) = .ok { bind := .of (.ofNat .v6 1) 80 } ∧
      parse .json (String.ofList t) ≠ .ok (flowing.without []) := by
  have hpaths : ∀ p ∈ flowing.paths, p.isText = true := by decide
  obtain ⟨t, ht⟩ := Option.isSome_iff_exists.mp ((isSome_write_toData_iff flowing).mpr hpaths)
  have hspelled := spells_written ht
  have hparse : parse .json (String.ofList t) = .ok { bind := .of (.ofNat .v6 1) 80 } :=
    parse_of_edited hpaths List.not_mem_nil (edited_toData flowing) hspelled
  refine ⟨t, ht, edited_toData flowing, hspelled, hparse, ?_⟩
  rw [hparse, without_nil]
  rintro ⟨⟩

end EdgeTunnel.Settings
