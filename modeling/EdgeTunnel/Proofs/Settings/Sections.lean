/-
Settings that are read back from their document values.

Two things are lost on the way: the flow information of an address (`withoutFlow`), and a path that is not text, which has no
written form at all (`paths`). A record with distinct keys gives each key its value (`section?_record`), and a field of it is
found by walking along the record (`field_cons_self`, `field_cons_of_ne`). Every section is then read back from the value it is
written as, in both formats.
-/
import EdgeTunnel.Proofs.Net.AddressText
import EdgeTunnel.Proofs.Text.Utf8
import EdgeTunnel.Settings.Reader

namespace EdgeTunnel.Settings

/-! ## Values -/

theorem number_ofNat {limit n : Nat} (h : n < limit) : number limit (.ofNat n) = some n := by
  have hlt : (n : Int) < limit := by exact_mod_cast h
  rw [Data.ofNat, number, if_pos ⟨Int.natCast_nonneg n, hlt⟩, Int.toNat_natCast]

theorem number64_ofWord (n : UInt64) : number64 (ofWord n) = some n := by
  rw [number64, ofWord, number_ofNat n.toNat_lt, Option.map_some, UInt64.ofNat_toNat]

theorem mode_ofString (f : SettingsFormat) (m : Ipv6Mode) : mode f (.ofString (modeName m)) = some m := by
  cases m with
  | auto => rfl
  | on => rfl
  | off => rfl

theorem address_ofAddress (a : SocketAddress) : address (ofAddress a) = some a.withoutFlow := by
  have htext : (toString a).toList = a.text := String.toList_ofList
  simp [address, ofAddress, text, Data.ofString, htext, SocketAddress.parse_text]

theorem path_ofPath {p : FilePath} (h : p.isText = true) : path (ofPath p) = some p := by
  obtain ⟨s, rfl⟩ := FilePath.isText_iff.mp h
  rw [ofPath, FilePath.text?_ofString]
  rfl

theorem listOf_map {α : Type} {read : Data → Option α} {write : α → Data} (h : ∀ x, read (write x) = some x)
    (xs : List α) : listOf read (.list (xs.map write)) = some xs := by
  rw [listOf]
  induction xs with
  | nil => rfl
  | cons x xs ih => simp [h, ih]

theorem optional_of_ne {α : Type} {read : Data → Option α} {x : Data} (h : x ≠ .null) :
    optional read x = (read x).map some := by
  rw [optional]
  exact h

/-! ## What no value holds -/

def paths (c : Settings) : List FilePath := [c.profiles.primary, c.profiles.secondary]

def addresses (c : Settings) : List SocketAddress := c.bind :: c.endpoint.toList

/-- the same settings without the flow information of their addresses -/
def withoutFlow (c : Settings) : Settings :=
  { c with bind := c.bind.withoutFlow, endpoint := c.endpoint.map (·.withoutFlow) }

theorem withoutFlow_eq_self_iff {c : Settings} : c.withoutFlow = c ↔ ∀ a ∈ c.addresses, a.flow = 0 := by
  obtain ⟨bind, endpoint, logLevel, gool, obfuscation, scan, profiles, proxy⟩ := c
  cases endpoint with
  | none => simp [withoutFlow, addresses, SocketAddress.withoutFlow_eq_self_iff]
  | some a => simp [withoutFlow, addresses, SocketAddress.withoutFlow_eq_self_iff]

/-! ## Fields -/

/-- what a record has for each key -/
def given (fs : List (Option String × Data)) (n : String) : Option Data := (fs.find? (·.1 == some n)).map (·.2)

/-- a record with distinct keys gives each of them its value -/
theorem section?_record (f : SettingsFormat) (names : List String) {fs : List (Option String × Data)}
    (hnamed : ∀ p ∈ fs, p.1.isSome = true)
    (hnodup : (fs.map Prod.fst).Nodup) : section? f names (.record fs) = some (given fs) := by
  have hall : fs.all (·.1.isSome) = true := List.all_eq_true.mpr hnamed
  have hcount : names.all (fun n => fs.countP (·.1 == some n) ≤ 1) = true := by
    rw [List.all_eq_true]
    intro n _
    have hone := List.nodup_iff_count_le_one.mp hnodup (some n)
    rw [List.count, List.countP_map] at hone
    exact decide_eq_true hone
  simp only [section?, hall, hcount, Bool.and_self, if_true]
  rfl

section
variable {α : Type} {j k : String} {x : Data} {r : List (Option String × Data)} {read : Data → Option α} {standard : α}

theorem field_nil : field (given []) k read standard = some standard := rfl

theorem field_cons_self : field (given ((some k, x) :: r)) k read standard = read x := by
  have hget : given ((some k, x) :: r) k = some x := by simp [given]
  rw [field, hget]

theorem field_cons_of_ne (h : j ≠ k) :
    field (given ((some j, x) :: r)) k read standard = field (given r) k read standard := by
  have hget : given ((some j, x) :: r) k = given r k := by simp [given, h]
  rw [field, hget, ← field]

end

/-! ## Sections -/

theorem obfuscationSection_obfuscationData (f : SettingsFormat) (o : ObfuscationSettings) :
    obfuscationSection f (obfuscationData o) = some o := by
  have htext : ∀ t, text (.ofString t) = some t := fun _ => rfl
  have hargs := listOf_map htext o.args
  rw [obfuscationSection, obfuscationData, section?_record f _ (by simp) (by simp)]
  simp [field_cons_self, field_cons_of_ne, hargs, given, text, Data.ofString]

theorem scanSection_scanData (f : SettingsFormat) (s : ScanSettings) : scanSection f (scanData s) = some s := by
  have hports : listOf (fun p => (number 65536 p).map UInt16.ofNat) (.list (s.ports.map fun p => .ofNat p.toNat)) =
      some s.ports :=
    listOf_map (fun p => by rw [number_ofNat p.toNat_lt, Option.map_some, UInt16.ofNat_toNat]) s.ports
  rw [scanSection, scanData, section?_record f _ (by simp) (by simp)]
  -- every step keeps its proof: where one is left to computation, the kernel counts down from 2 ^ 64
  simp -implicitDefEqProofs [field_cons_self, field_cons_of_ne, hports, number64_ofWord, mode_ofString, flag]

theorem profilesSection_profilesData (f : SettingsFormat) {p : ProfilePaths} (hprimary : p.primary.isText = true)
    (hsecondary : p.secondary.isText = true) : profilesSection f (profilesData p) = some p := by
  rw [profilesSection, profilesData, section?_record f _ (by simp) (by simp)]
  simp [field_cons_self, field_cons_of_ne, path_ofPath hprimary, path_ofPath hsecondary]

theorem proxySection_proxyData (f : SettingsFormat) (p : ProxySettings) : proxySection f (proxyData p) = some p := by
  rw [proxySection, proxyData, section?_record f _ (by simp) (by simp)]
  simp -implicitDefEqProofs [field_cons_self, field_cons_of_ne, number64_ofWord]

end EdgeTunnel.Settings
