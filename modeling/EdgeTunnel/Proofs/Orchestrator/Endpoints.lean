/-
Which endpoints a run uses.

A scan section decides it alone. The fixed endpoint is looked at only where there is no scan section, whether the section
comes from the settings or from an option of the command line.

- `Course`: how far a run gets, and its report in each case. `course`.
- `pair_of_scanned`: a scan leaves two endpoints under different addresses, the faster one first.
- `run_ignores_endpoint`, `scanSection_eq_none_iff`: what a scan section hides, and when there is none.
- `scan_hides_endpoint`: so a fixed endpoint does not go before a scan section.
- `endpoint_counts_without_scan`: when it is used, and when it is not.
-/
import EdgeTunnel.CommandLine.Overrides
import EdgeTunnel.Orchestrator.Run
import EdgeTunnel.Proofs.Orchestrator.History
import EdgeTunnel.Proofs.Scan.Contract

namespace EdgeTunnel.Run

open EdgeTunnel.Scan

/-! ## The course of a run -/

/-- how far a run gets, with its report -/
inductive Course (w : World) (s : Settings) : RunReport → Prop where
  /-- the settings are refused -/
  | refused {e : SettingsError} (invalid : s.validate = .error e) : Course w s ⟨.error (.settings e), [], []⟩
  /-- a profile is not read -/
  | unread {t : Topology} {e : ProfileError} (valid : s.validate = .ok t)
    (unread : profiles w.files s t = .error (.profile e)) : Course w s ⟨.error (.profile e), [], []⟩
  /-- there are no endpoints -/
  | stranded {t : Topology} {p : Profiles} {e : RunError} (valid : s.validate = .ok t) (read : profiles w.files s t = .ok p)
    (nowhere : (endpoints w s p.primary).outcome = .error e) :
    Course w s ⟨.error e, (endpoints w s p.primary).probes, (endpoints w s p.primary).deeds⟩
  /-- the topology is built -/
  | launched {t : Topology} {p : Profiles} {as : List SocketAddress} {outcome : Except RunError Running} {ds : List Deed}
    (valid : s.validate = .ok t) (read : profiles w.files s t = .ok p)
    (found : (endpoints w s p.primary).outcome = .ok as)
    (built : bringUp w s t p as (endpoints w s p.primary).time = (outcome, ds)) :
    Course w s ⟨outcome, (endpoints w s p.primary).probes, (endpoints w s p.primary).deeds ++ ds⟩

theorem topology_eq (s : Settings) :
    topology s = match s.validate with
      | .ok t => .ok t
      | .error e => .error (.settings e) := rfl

/-- profiles that are not all read fail with what is wrong with one of them -/
theorem exists_of_profiles_error {files : Files} {s : Settings} {t : Topology} {e : RunError}
    (h : profiles files s t = .error e) : ∃ cause, e = .profile cause := by
  have hone : ∀ {path : FilePath} {e : RunError}, profile files path = .error e → ∃ cause, e = .profile cause := by
    intro path e he
    unfold profile at he
    split at he
    · cases he
    · exact ⟨_, (Except.error.inj he).symm⟩
  simp only [profiles, bind, Except.bind, pure, Except.pure] at h
  split at h
  · rename_i hprimary
    exact Except.error.inj h ▸ hone hprimary
  · split_ifs at h
    split at h
    · rename_i hsecondary
      exact Except.error.inj h ▸ hone hsecondary
    · cases h

/-- **The course of a run.** -/
theorem course (w : World) (s : Settings) : Course w s (run w s) := by
  unfold run
  rw [topology_eq]
  cases hvalid : s.validate with
  | error e => exact .refused hvalid
  | ok t =>
    cases hread : profiles w.files s t with
    | error e =>
      obtain ⟨cause, rfl⟩ := exists_of_profiles_error hread
      simp only [bind, Except.bind, hread]
      exact .unread hvalid hread
    | ok p =>
      simp only [bind, Except.bind, pure, Except.pure, hread]
      split
      · rename_i e hnone
        exact .stranded hvalid hread hnone
      · rename_i as hfound
        exact .launched hvalid hread hfound rfl

/-- a run that comes up does so on the endpoints that were found -/
theorem endpoints_of_bringUp {w : World} {s : Settings} {t : Topology} {p : Profiles} {as : List SocketAddress} {time : Nat}
    {up : Running} (h : (bringUp w s t p as time).1 = .ok up) : up.endpoints = as := by
  simp only [bringUp] at h
  split at h
  · exact (Except.ok.inj h).symm ▸ rfl
  · cases h

/-- the endpoints of a run that comes up -/
theorem endpoints_of_run {w : World} {s : Settings} {up : Running} (h : (run w s).outcome = .ok up) :
    ∃ p, (endpoints w s p).outcome = .ok up.endpoints ∧ (run w s).probes = (endpoints w s p).probes := by
  have hc := course w s
  generalize run w s = r at h hc ⊢
  cases hc with
  | refused _ => cases h
  | unread _ _ => cases h
  | stranded _ _ _ => cases h
  | launched _ _ found built =>
    obtain rfl := h
    rw [endpoints_of_bringUp (congrArg Prod.fst built)]
    exact ⟨_, found, rfl⟩

/-! ## Scans -/

theorem endpoints_of_scan {w : World} {s : Settings} {scan : ScanSettings} (h : s.scan = some scan) (primary : Profile) :
    endpoints w s primary = scanned w scan primary := by
  simp only [endpoints, h]

/-- **What a scan leaves to a run**: two endpoints under different addresses, as its probes reported them, the faster one
first. -/
theorem pair_of_scanned {w : World} {scan : ScanSettings} {primary : Profile} {as : List SocketAddress}
    (h : (scanned w scan primary).outcome = .ok as) :
    ∃ first second : Answer, as = [first.target, second.target] ∧ first.target.ip ≠ second.target.ip ∧
      first.rtt ≤ second.rtt ∧ Scripted w.script (scanned w scan primary).probes first ∧
      Scripted w.script (scanned w scan primary).probes second := by
  unfold scanned at h ⊢
  split at h
  · cases h
  · rename_i keys hkeys
    dsimp only at h ⊢
    split at h
    · cases h
    · rename_i chosen hchosen
      have hs := Engine.selection_of_scan _ _ _ _ hchosen
      obtain ⟨first, second, rfl⟩ : ∃ first second, chosen = [first, second] := List.length_eq_two.1 hs.length
      have hdistinct := hs.distinct
      have hsorted := hs.sorted
      simp only [List.pairwise_cons, List.mem_singleton, forall_eq] at hdistinct hsorted
      exact ⟨first, second, (Except.ok.inj h).symm, hdistinct.1, hsorted.1, hs.reported _ (by simp), hs.reported _ (by simp)⟩

/-! ## Fixed endpoints -/

/-- without a scan section there are two endpoints, the same one twice, and nothing is probed -/
theorem endpoints_of_no_scan {w : World} {s : Settings} (h : s.scan = none) (primary : Profile) :
    endpoints w s primary =
      ⟨.ok (List.replicate 2 (s.endpoint.getD (Catalogue.randomEndpoint w.rng).1)), [], [], 0⟩ := by
  simp only [endpoints, h]
  rfl

/-- **A scan section hides the fixed endpoint**: the run is the same whatever it is. -/
theorem run_ignores_endpoint (w : World) {s : Settings} {scan : ScanSettings} (h : s.scan = some scan)
    (endpoint : Option SocketAddress) : run w { s with endpoint } = run w s := by
  rcases s with ⟨bind, old, logLevel, gool, obfuscation, section?, profiles, proxy⟩
  obtain rfl : section? = some scan := h
  rfl

/-- an endpoint on the command line is that of the settings -/
theorem endpoint_apply {o : CommandLine.Overrides} {base s : Settings} (h : o.apply base = .ok s) :
    s.endpoint = o.endpoint.or base.endpoint ∧ s.scan = o.scanSection base.scan := by
  unfold CommandLine.Overrides.apply at h
  split at h
  · cases h
  · cases h
    exact ⟨rfl, rfl⟩

/-- there is no scan section after the options if there was none before and no option asks for one -/
theorem scanSection_eq_none_iff (o : CommandLine.Overrides) (old : Option ScanSettings) :
    o.scanSection old = none ↔ old = none ∧ o.scan = false ∧ o.rtt = none := by
  unfold CommandLine.Overrides.scanSection
  cases hscan : o.scan <;> cases hrtt : o.rtt <;> simp

/-- does a run use this endpoint alone, for every profile it may have, and probe nothing? -/
def UsesOnly (w : World) (s : Settings) (e : SocketAddress) : Prop :=
  (run w s).probes = [] ∧ ∀ primary, (endpoints w s primary).outcome = .ok [e, e]

/-- a world without files, where nothing is refused -/
def emptyWorld : World where
  files _ := .error .notFound
  outside := Orchestrator.withoutFront
  command _ _ _ _ _ _ _ := .ok none
  ipv6 := false
  script _ := ⟨.ofMillis 1, none⟩
  rng := .ofSeed 0
  cancel := none

/-- settings whose scan section has no family to scan -/
def familyless : Settings := { scan := some { ipv4 := false, ipv6 := .off } }

/-- a scan without a family has no candidates -/
theorem endpoints_of_familyless (endpoint : Option SocketAddress) :
    (endpoints emptyWorld { familyless with endpoint } Orchestrator.zeroProfile).outcome =
      .error (.scan (.candidates .noPrefixes)) := by
  rfl

/-- **A fixed endpoint does not go before a scan section**, neither one of the settings nor one of the command line. -/
theorem scan_hides_endpoint :
    (¬ ∀ (w : World) (s : Settings) (e : SocketAddress), s.endpoint = some e → UsesOnly w s e) ∧
    ¬ ∀ (w : World) (o : CommandLine.Overrides) (base s : Settings) (e : SocketAddress), o.endpoint = some e →
      o.apply base = .ok s → UsesOnly w s e := by
  have hscan : ¬ UsesOnly emptyWorld { familyless with endpoint := some .standardBind } .standardBind := by
    intro h
    have hok := h.2 Orchestrator.zeroProfile
    rw [endpoints_of_familyless] at hok
    cases hok
  exact ⟨fun h => hscan (h _ _ _ rfl), fun h => hscan (h _ { endpoint := some .standardBind } familyless _ _ rfl rfl)⟩

/-- **When a fixed endpoint is used.** With a scan section it changes nothing, and no run that comes up uses one endpoint
alone. Without one, the endpoint is used alone and nothing is probed. An endpoint on the command line counts as one of the
settings; after the options there is no scan section if there was none before and neither a scan nor a limit for its round
trips is asked for. -/
theorem endpoint_counts_without_scan (w : World) (s : Settings) :
    (s.scan ≠ none → (∀ endpoint, run w { s with endpoint } = run w s) ∧
      ∀ up, (run w s).outcome = .ok up → ∀ e, up.endpoints ≠ [e, e]) ∧
    (s.scan = none → ∀ e, s.endpoint = some e → UsesOnly w s e ∧
      ∀ up, (run w s).outcome = .ok up → up.endpoints = [e, e]) ∧
    ∀ (o : CommandLine.Overrides) (base : Settings), o.apply base = .ok s →
      (∀ e, o.endpoint = some e → s.endpoint = some e) ∧
      (s.scan = none ↔ base.scan = none ∧ o.scan = false ∧ o.rtt = none) := by
  refine ⟨fun hscan => ?_, fun hscan e he => ?_, fun o base h => ?_⟩
  · obtain ⟨scan, hscan⟩ := Option.ne_none_iff_exists'.1 hscan
    refine ⟨run_ignores_endpoint w hscan, fun up hup e heq => ?_⟩
    obtain ⟨p, hfound, -⟩ := endpoints_of_run hup
    rw [endpoints_of_scan hscan] at hfound
    obtain ⟨first, second, hpair, hne, -⟩ := pair_of_scanned hfound
    rw [heq, List.cons.injEq, List.cons.injEq] at hpair
    exact hne (hpair.1 ▸ hpair.2.1 ▸ rfl)
  · have hpair : ∀ p, endpoints w s p = ⟨.ok [e, e], [], [], 0⟩ := fun p => by
      rw [endpoints_of_no_scan hscan, he]
      rfl
    refine ⟨⟨?_, fun p => by rw [hpair p]⟩, fun up hup => ?_⟩
    · have hc := course w s
      generalize run w s = r at hc
      cases hc with
      | refused _ => rfl
      | unread _ _ => rfl
      | stranded _ _ _ => rw [hpair]
      | launched _ _ _ _ => rw [hpair]
    · obtain ⟨p, hfound, -⟩ := endpoints_of_run hup
      rw [hpair] at hfound
      exact (Except.ok.inj hfound).symm
  · obtain ⟨hendpoint, hsection⟩ := endpoint_apply h
    refine ⟨fun e he => by rw [hendpoint, he]; rfl, ?_⟩
    rw [hsection]
    exact scanSection_eq_none_iff o base.scan

/-- settings without a scan section, with an endpoint of the command line -/
theorem endpoint_counts_of_commandLine :
    ({ endpoint := some .standardBind } : CommandLine.Overrides).apply {} = .ok { endpoint := some .standardBind } ∧
      UsesOnly emptyWorld { endpoint := some .standardBind } .standardBind ∧
      run emptyWorld { familyless with endpoint := some .standardBind } = run emptyWorld familyless :=
  ⟨rfl, ((endpoint_counts_without_scan emptyWorld _).2.1 rfl _
      (((endpoint_counts_without_scan emptyWorld _).2.2 { endpoint := some .standardBind } {} rfl).1 _ rfl)).1,
    ((endpoint_counts_without_scan emptyWorld familyless).1 (by simp [familyless])).1 _⟩

end EdgeTunnel.Run
