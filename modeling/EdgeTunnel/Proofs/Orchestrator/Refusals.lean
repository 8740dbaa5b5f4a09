/-
The errors of a run, stage by stage.

A run validates its settings, reads its profiles, finds its endpoints and builds its topology. Each stage has errors of its
own, and what one stage has checked is what the next relies on: a scan has limits that can be used, an obfuscated topology
has a program, a chain has its second profile, and there are two endpoints for the tunnels.

- `RunError.OfSearch`, `RunError.OfLaunch`: the errors of the last two stages.
- `isUsable_of_validate`, `transport_of_validate`, `secondary_of_profiles`, `length_endpoints`: what a stage leaves to the
  next.
- `Carried.exists_fails`: the error of a plan that is carried out is that of one of its steps. `ofLaunch_of_plan`.
- `ofSearch_of_endpoints`, `ofLaunch_of_bringUp`: so these two stages have no other errors.
- `scanned_eq_noPrefixes_iff`, `noPrefixes_iff`: when there is nothing to scan.
- `run_refusals`: which errors a run has, and what was done before each.
-/
import EdgeTunnel.Proofs.Orchestrator.Endpoints
import EdgeTunnel.Proofs.Orchestrator.Wiring

namespace EdgeTunnel

/-! ## The errors of the stages -/

namespace RunError

/-- may finding the endpoints fail with this error? -/
inductive OfSearch : RunError → Prop where
  | key (cause : KeyError) : OfSearch (.profile (.key cause))
  | canceled : OfSearch (.scan .canceled)
  | expired (found wanted : Nat) (best : Option Span) : OfSearch (.scan (.deadlineExceeded found wanted best))
  | nowhere : OfSearch (.scan (.candidates .noPrefixes))

/-- may building the topology fail with this error? -/
inductive OfLaunch : RunError → Prop where
  | key (cause : KeyError) : OfLaunch (.profile (.key cause))
  | tunnel (cause : TunnelError) : OfLaunch (.tunnel cause)
  | bind (cause : OsError) : OfLaunch (.relay (.io cause))
  | dial (cause : TunnelError) : OfLaunch (.relay (.dial cause))
  | proxy (cause : Proxy.ProxyError) : OfLaunch (.proxy cause)
  | transport (cause : TransportError) : OfLaunch (.transport cause)

/-- can a run fail with this error? -/
def isPossible : RunError → Bool
  | .notEnoughEndpoints _ _ => false
  | .missingProfile _ => false
  | .missingTransport => false
  | .scan .unusable => false
  | .relay .invalidMtu => false
  | _ => true

/-- is this error about the settings, or about a profile that cannot be read or parsed? -/
def isEarly : RunError → Bool
  | .settings _ => true
  | .profile (.key _) => false
  | .profile _ => true
  | _ => false

theorem OfSearch.possible_late {e : RunError} (h : e.OfSearch) : e.isPossible = true ∧ e.isEarly = false := by
  cases h <;> exact ⟨rfl, rfl⟩

theorem OfLaunch.possible_late {e : RunError} (h : e.OfLaunch) : e.isPossible = true ∧ e.isEarly = false := by
  cases h <;> exact ⟨rfl, rfl⟩

end RunError

theorem Profile.key_of_probeKeys {p : Profile} {e : ProfileError} (h : p.probeKeys = .error e) : ∃ cause, e = .key cause := by
  unfold probeKeys at h
  split at h
  · cases h
  · exact ⟨_, (Except.error.inj h).symm⟩

/-! ## What a stage leaves to the next -/

namespace Settings

/-- settings that are valid have no limit out of range, and a topology that their modes ask for -/
theorem of_validate {s : Settings} {t : Topology} (h : s.validate = .ok t) :
    s.badLimit? = none ∧ ∃ r, s.region = .ok r ∧ Topology.select s.gool r = .ok t := by
  unfold validate at h
  cases hbad : s.badLimit? with
  | some l => rw [hbad] at h; cases h
  | none =>
    rw [hbad] at h
    cases hr : s.region with
    | error e => rw [hr] at h; cases h
    | ok r => rw [hr] at h; exact ⟨rfl, r, rfl, h⟩

/-- **A scan of valid settings has limits that can be used.** -/
theorem isUsable_of_validate {s : Settings} {t : Topology} (h : s.validate = .ok t) {scan : ScanSettings}
    (hscan : s.scan = some scan) (ipv6 : Bool) : (scan.config ipv6).isUsable = true := by
  have hlimit : scanLimit? scan = none := by
    have hbad := (of_validate h).1
    rw [badLimit?, hscan, Option.bind_some] at hbad
    cases hl : scanLimit? scan with
    | none => rfl
    | some l => rw [hl] at hbad; cases hbad
  unfold scanLimit? at hlimit
  split_ifs at hlimit with hrtt hconcurrency hports
  have hne : scan.concurrency.toNat ≠ 0 := fun h0 => hconcurrency (UInt64.toNat_inj.1 h0)
  simp [ScanConfig.isUsable, ScanSettings.config, hne, hports]

/-- **Valid settings for an obfuscated topology have an obfuscation section.** -/
theorem obfuscation_of_validate {s : Settings} {region : Region} (h : s.validate = .ok (.obfuscated region)) :
    s.obfuscation ≠ none := by
  obtain ⟨-, r, hr, hselect⟩ := of_validate h
  intro hnone
  rw [Settings.region, hnone] at hr
  obtain rfl := Except.ok.inj hr
  cases hg : s.gool <;> simp [Topology.select, hg] at hselect

end Settings

/-! ## The steps of a plan -/

namespace Orchestrator

/-- may a planned step fail with this error? -/
def Fails (w : Outside) (e : RunError) (x : Planned) : Prop :=
  x = .error e ∨ ∃ call k, x = .ok call ∧ answer w k call = .error e

/-- **The error of a plan that is carried out** is that of one of its steps. -/
theorem Carried.exists_fails {w : Outside} {relay front : SocketAddress} {k : Nat} {plan : List Planned} {ds : List Deed}
    {e : RunError} (h : Carried w relay front k plan ds (some e)) : ∃ x ∈ plan, Fails w e x := by
  generalize hsome : some e = fault at h
  induction h with
  | finished => cases hsome
  | impossible =>
    cases hsome
    exact ⟨_, List.mem_cons_self, .inl rfl⟩
  | refused answered =>
    cases hsome
    exact ⟨_, List.mem_cons_self, .inr ⟨_, _, rfl, answered⟩⟩
  | granted _ _ ih =>
    obtain ⟨x, hx, hfails⟩ := ih hsome
    exact ⟨x, List.mem_cons_of_mem _ hx, hfails⟩
  | logged _ ih => exact ih hsome

/-- the error of a start with enough endpoints is that of a step of its plan -/
theorem exists_fails_of_start {w : Outside} {o : Orchestrator} {bind : SocketAddress} {endpoints : List SocketAddress}
    {p : Profiles} (henough : o.topology.endpointsNeeded ≤ endpoints.length) {e : RunError}
    (h : (o.start w bind endpoints p).1 = .error e) :
    ∃ relay front, ∃ x ∈ plan w o bind endpoints p relay front, Fails w e x := by
  simp only [start, if_neg (Nat.not_lt.2 henough)] at h
  generalize s!"Starting {o.topology} topology via {addressList (endpoints.take o.topology.endpointsNeeded)}" = text at h
  have henough' : (o.log .info text).topology.endpointsNeeded ≤ endpoints.length := henough
  obtain ⟨relay, front, ⟨ds, -, hc⟩, -⟩ := follows_build w bind p henough'
  cases hb : (o.log .info text).build w bind endpoints p with
  | mk result before =>
    rw [hb] at h hc
    cases result with
    | ok a => cases h
    | error e' =>
      cases h
      exact ⟨relay, front, hc.exists_fails⟩

variable {w : Outside} {e : RunError}

/-- a call that is refused is refused with an error of its own kind, if there is a transport when it is for one -/
theorem ofLaunch_of_answer {k : Nat} {call : Call} (h : answer w k call = .error e)
    (htransport : ∀ proxy listen region canceled,
      call = .startTransport proxy listen region canceled → w.transport ≠ none) :
    e.OfLaunch := by
  cases call with
  | startTransport proxy listen region canceled =>
    obtain ⟨transport, hsome⟩ := Option.ne_none_iff_exists'.1 (htransport _ _ _ _ rfl)
    simp only [answer, hsome] at h
    split at h <;> cases h
    constructor
  | joinRelay => cases h
  | stopTunnel id => cases h
  | _ =>
    simp only [answer] at h
    split at h <;> cases h
    constructor

theorem ofLaunch_of_call {call : Call} (h : Fails w e (.ok call))
    (htransport : ∀ proxy listen region canceled,
      call = .startTransport proxy listen region canceled → w.transport ≠ none) :
    e.OfLaunch := by
  obtain h | ⟨_, k, h, hanswer⟩ := h
  · cases h
  · cases h
    exact ofLaunch_of_answer hanswer htransport

theorem ofLaunch_of_plannedTunnel {id : Nat} {profile : Profile} {endpoint : SocketAddress} {mtu : Nat} {keepalive : Span}
    {obfuscate : Bool} (h : Fails w e (plannedTunnel id profile endpoint mtu keepalive obfuscate)) : e.OfLaunch := by
  unfold plannedTunnel at h
  split at h
  · rename_i cause hkeys
    obtain ⟨key, rfl⟩ := Profile.key_of_probeKeys hkeys
    obtain h | ⟨_, _, h, -⟩ := h
    · cases h
      exact .key _
    · cases h
  · exact ofLaunch_of_call h (by simp)

/-- **The errors of a plan**, when an obfuscated topology has a transport and a chain its second profile. -/
theorem ofLaunch_of_plan {o : Orchestrator} {bind : SocketAddress} {endpoints : List SocketAddress} {p : Profiles}
    {relay front : SocketAddress} (htransport : ∀ region, o.topology = .obfuscated region → w.transport ≠ none)
    (hsecondary : o.topology = .chained → p.secondary ≠ none) {x : Planned}
    (hx : x ∈ plan w o bind endpoints p relay front) (h : Fails w e x) : e.OfLaunch := by
  unfold plan at hx
  split at hx
  · simp only [List.mem_cons, List.not_mem_nil, or_false] at hx
    rcases hx with rfl | rfl
    · exact ofLaunch_of_plannedTunnel h
    · exact ofLaunch_of_call h (by simp)
  · rename_i region first rest htopology
    have hsome := htransport region htopology
    rw [if_neg (by simpa using hsome)] at hx
    simp only [List.mem_cons, List.not_mem_nil, or_false] at hx
    rcases hx with rfl | rfl | rfl
    · exact ofLaunch_of_plannedTunnel h
    · exact ofLaunch_of_call h (by simp)
    · exact ofLaunch_of_call h fun _ _ _ _ _ => hsome
  · rename_i first second rest htopology
    obtain ⟨secondary, hsome⟩ := Option.ne_none_iff_exists'.1 (hsecondary htopology)
    rw [hsome] at hx
    simp only [List.mem_cons, List.not_mem_nil, or_false] at hx
    rcases hx with rfl | rfl | rfl | rfl | rfl
    · exact ofLaunch_of_plannedTunnel h
    · exact ofLaunch_of_call h (by simp)
    · exact ofLaunch_of_call h (by simp)
    · exact ofLaunch_of_plannedTunnel h
    · exact ofLaunch_of_call h (by simp)
  · cases hx

end Orchestrator

namespace Run

open EdgeTunnel.Scan EdgeTunnel.Orchestrator

/-- so a run with an obfuscated topology has a transport -/
theorem transport_of_validate (w : World) {s : Settings} {region : Region} (h : s.validate = .ok (.obfuscated region)) :
    (outside w s).transport ≠ none := by
  obtain ⟨o, ho⟩ := Option.ne_none_iff_exists'.1 (Settings.obfuscation_of_validate h)
  rw [outside, ho]
  cases hw : w.outside.transport with
  | none => exact Option.some_ne_none _
  | some transport => simp [hw]

/-- **The profiles of a chain are both there.** -/
theorem secondary_of_profiles {files : Files} {s : Settings} {p : Profiles} (h : profiles files s .chained = .ok p) :
    p.secondary ≠ none := by
  simp only [profiles, bind, Except.bind, pure, Except.pure, if_true] at h
  split at h
  · cases h
  · split at h
    · cases h
    · exact Except.ok.inj h ▸ Option.some_ne_none _

/-- **Endpoints that are found are two.** -/
theorem length_endpoints {w : World} {s : Settings} {primary : Profile} {as : List SocketAddress}
    (h : (endpoints w s primary).outcome = .ok as) : as.length = 2 := by
  cases hscan : s.scan with
  | none =>
    rw [endpoints_of_no_scan hscan] at h
    exact Except.ok.inj h ▸ List.length_replicate
  | some scan =>
    rw [endpoints_of_scan hscan] at h
    obtain ⟨first, second, rfl, -⟩ := pair_of_scanned h
    rfl

/-! ## The search for endpoints -/

/-- while a scan goes on, only a cancellation and the deadline end it with an error -/
theorem eq_of_play_error {σ : Type} [RandomSource σ] (c : ScanConfig) (script : Script) (cancel : Option Nat) (now : Nat)
    (t : Timed σ) {e : ScanError} (h : (t.play c script cancel now).outcome = .error e) :
    e = .canceled ∨ ∃ found wanted best, e = .deadlineExceeded found wanted best := by
  fun_induction Timed.play c script cancel now t with
  | case1 now t outcome hv =>
    dsimp only at h
    subst h
    unfold State.verdict at hv
    split_ifs at hv
    · cases hv
      exact .inl rfl
    · split at hv
      · cases hv
      · cases hv
        exact .inr ⟨_, _, _, rfl⟩
    · simp at hv
  | case2 now t hv settled filled ih => exact ih h

/-- a scan with usable limits that ends with an error: it had nothing to scan, was canceled or ran out of time -/
theorem eq_of_scan_error {engine : Engine} {c : ScanConfig} {script : Script} {cancel : Option Nat}
    (husable : c.isUsable = true) {e : ScanError} (h : (engine.scan c script cancel).1.outcome = .error e) :
    Candidates.new c.prefixes c.families = .error .noPrefixes ∧ e = .candidates .noPrefixes ∨
      e = .canceled ∨ ∃ found wanted best, e = .deadlineExceeded found wanted best := by
  simp only [Engine.scan, husable, Bool.not_true, Bool.false_eq_true, if_false] at h
  split at h
  · rename_i cause hnew
    obtain rfl : cause = .noPrefixes := by
      simp only [Candidates.new] at hnew
      split_ifs at hnew
      exact (Except.error.inj hnew).symm
    exact .inl ⟨hnew, (Except.error.inj h).symm⟩
  · exact .inr (eq_of_play_error _ _ _ _ _ h)

/-- **The errors of the search**, for valid settings. -/
theorem ofSearch_of_endpoints {w : World} {s : Settings} {t : Topology} (hvalid : s.validate = .ok t) {primary : Profile}
    {e : RunError} (h : (endpoints w s primary).outcome = .error e) : e.OfSearch := by
  cases hscan : s.scan with
  | none =>
    rw [endpoints_of_no_scan hscan] at h
    cases h
  | some scan =>
    rw [endpoints_of_scan hscan] at h
    unfold scanned at h
    split at h
    · rename_i cause hkeys
      obtain ⟨key, rfl⟩ := Profile.key_of_probeKeys hkeys
      cases h
      exact .key _
    · dsimp only at h
      split at h
      · rename_i cause hcause
        cases h
        obtain ⟨-, rfl⟩ | rfl | ⟨_, _, _, rfl⟩ := eq_of_scan_error (Settings.isUsable_of_validate hvalid hscan _) hcause
        · exact .nowhere
        · exact .canceled
        · exact .expired ..
      · cases h

/-- the catalogue has prefixes of both families -/
theorem new_all_eq_error_iff (f : Families) :
    Candidates.new Catalogue.all f = .error .noPrefixes ↔ f.ipv4 = false ∧ f.ipv6 = false := by
  have hempty : (Catalogue.all.filter f.allows).isEmpty = true ↔ f.ipv4 = false ∧ f.ipv6 = false := by
    rcases f with ⟨_ | _, _ | _⟩ <;> decide
  simp only [Candidates.new, List.isEmpty_map]
  split_ifs with h
  · exact iff_of_true rfl (hempty.1 h)
  · exact iff_of_false (by simp) fun hoff => h (hempty.2 hoff)

/-- **When there is nothing to scan**: the keys are decoded, and both families are off. -/
theorem scanned_eq_noPrefixes_iff {w : World} {scan : ScanSettings} {primary : Profile}
    (husable : (scan.config (wantsIpv6 w scan.ipv6)).isUsable = true) :
    (scanned w scan primary).outcome = .error (.scan (.candidates .noPrefixes)) ↔
      (∃ keys, primary.probeKeys = .ok keys) ∧ scan.ipv4 = false ∧ wantsIpv6 w scan.ipv6 = false := by
  have hall : (scan.config (wantsIpv6 w scan.ipv6)).prefixes = Catalogue.all := rfl
  have hnew := new_all_eq_error_iff (scan.config (wantsIpv6 w scan.ipv6)).families
  rw [← hall] at hnew
  constructor
  · intro h
    unfold scanned at h
    split at h
    · cases h
    · rename_i keys hkeys
      dsimp only at h
      split at h
      · rename_i cause hcause
        cases h
        obtain ⟨hnone, -⟩ | h | ⟨_, _, _, h⟩ := eq_of_scan_error husable hcause
        · exact ⟨⟨keys, hkeys⟩, hnew.1 hnone⟩
        · cases h
        · cases h
      · cases h
  · rintro ⟨⟨keys, hkeys⟩, hoff⟩
    simp only [scanned, hkeys, Engine.scan, husable, Bool.not_true, Bool.false_eq_true, if_false, hnew.2 hoff]

/-! ## The building of the topology -/

/-- **The errors of the building**, for valid settings whose profiles are read, on two endpoints. -/
theorem ofLaunch_of_bringUp {w : World} {s : Settings} {t : Topology} {p : Profiles} {as : List SocketAddress} {time : Nat}
    (hvalid : s.validate = .ok t) (hread : profiles w.files s t = .ok p) (has : as.length = 2) {e : RunError}
    (h : (bringUp w s t p as time).1 = .error e) : e.OfLaunch := by
  simp only [bringUp] at h
  split at h
  · cases h
  · rename_i e' o hstart
    obtain rfl : e' = e := Except.error.inj h
    have henough : t.endpointsNeeded ≤ as.length := by
      rw [has]
      cases t <;> simp [Topology.endpointsNeeded]
    obtain ⟨relay, front, x, hx, hfails⟩ := exists_fails_of_start henough (congrArg Prod.fst hstart)
    refine ofLaunch_of_plan (fun region htopology => ?_) (fun htopology => ?_) hx hfails
    · obtain rfl : t = .obfuscated region := htopology
      exact transport_of_validate w hvalid
    · obtain rfl : t = .chained := htopology
      exact secondary_of_profiles hread

/-! ## The result -/

/-- what is known of the errors and the endpoints of a run -/
structure Refusals (w : World) (s : Settings) (r : RunReport) : Prop where
  possible : ∀ e, r.outcome = .error e → e.isPossible = true
  two : ∀ up, r.outcome = .ok up → up.endpoints.length = 2
  /-- after a scan they are addresses that its probes have reported, and the faster one is first -/
  scanned : ∀ up, r.outcome = .ok up → s.scan ≠ none → ∃ first second : Answer,
    up.endpoints = [first.target, second.target] ∧ first.target.ip ≠ second.target.ip ∧ first.rtt ≤ second.rtt ∧
    Scripted w.script r.probes first ∧ Scripted w.script r.probes second
  /-- nothing is probed and nothing is asked of the outside before the settings are valid and the profiles read -/
  early : ∀ e, r.outcome = .error e → e.isEarly = true → r.probes = [] ∧ r.deeds = []
  noPrefixes : ∀ scan, s.scan = some scan → (r.outcome = .error (.scan (.candidates .noPrefixes)) ↔
    ∃ t p keys, s.validate = .ok t ∧ profiles w.files s t = .ok p ∧ p.primary.probeKeys = .ok keys ∧
      scan.ipv4 = false ∧ wantsIpv6 w scan.ipv6 = false)

theorem noPrefixes_iff {w : World} {s : Settings} {scan : ScanSettings} (hscan : s.scan = some scan) :
    (run w s).outcome = .error (.scan (.candidates .noPrefixes)) ↔
      ∃ t p keys, s.validate = .ok t ∧ profiles w.files s t = .ok p ∧ p.primary.probeKeys = .ok keys ∧
        scan.ipv4 = false ∧ wantsIpv6 w scan.ipv6 = false := by
  have hc := course w s
  generalize run w s = r at hc ⊢
  cases hc with
  | refused hinvalid =>
    refine iff_of_false (by simp) ?_
    rintro ⟨t, p, keys, hvalid, -⟩
    rw [hinvalid] at hvalid
    cases hvalid
  | unread hvalid hunread =>
    refine iff_of_false (by simp) ?_
    rintro ⟨t, p, keys, hvalid', hread, -⟩
    obtain rfl := Except.ok.inj (hvalid.symm.trans hvalid')
    rw [hunread] at hread
    cases hread
  | @stranded t p e hvalid hread hnowhere =>
    have hsame : (.error e : Except RunError Running) = .error (.scan (.candidates .noPrefixes)) ↔
        (Run.scanned w scan p.primary).outcome = .error (.scan (.candidates .noPrefixes)) := by
      rw [← endpoints_of_scan hscan, hnowhere, Except.error.injEq, Except.error.injEq]
    rw [hsame, scanned_eq_noPrefixes_iff (Settings.isUsable_of_validate hvalid hscan _)]
    constructor
    · rintro ⟨⟨keys, hkeys⟩, hoff⟩
      exact ⟨t, p, keys, hvalid, hread, hkeys, hoff⟩
    · rintro ⟨t', p', keys, hvalid', hread', hkeys, hoff⟩
      obtain rfl := Except.ok.inj (hvalid.symm.trans hvalid')
      obtain rfl := Except.ok.inj (hread.symm.trans hread')
      exact ⟨⟨keys, hkeys⟩, hoff⟩
  | @launched t p as outcome ds hvalid hread hfound hbuilt =>
    refine iff_of_false (fun h => ?_) ?_
    · have hlaunch := ofLaunch_of_bringUp hvalid hread (length_endpoints hfound) ((congrArg Prod.fst hbuilt).trans h)
      cases hlaunch
    · rintro ⟨t', p', keys, hvalid', hread', hkeys, hoff⟩
      obtain rfl := Except.ok.inj (hvalid.symm.trans hvalid')
      obtain rfl := Except.ok.inj (hread.symm.trans hread')
      have hnone := (scanned_eq_noPrefixes_iff (Settings.isUsable_of_validate hvalid hscan _)).2 ⟨⟨keys, hkeys⟩, hoff⟩
      rw [← endpoints_of_scan hscan, hfound] at hnone
      cases hnone

/-- an error of a run is possible, and if it is an early one nothing has been done -/
theorem possible_of_run {w : World} {s : Settings} {e : RunError} (h : (run w s).outcome = .error e) :
    e.isPossible = true ∧ (e.isEarly = true → (run w s).probes = [] ∧ (run w s).deeds = []) := by
  have hc := course w s
  generalize run w s = r at h hc ⊢
  cases hc with
  | refused _ =>
    cases h
    exact ⟨rfl, fun _ => ⟨rfl, rfl⟩⟩
  | unread _ _ =>
    cases h
    exact ⟨rfl, fun _ => ⟨rfl, rfl⟩⟩
  | stranded hvalid _ hnowhere =>
    cases h
    obtain ⟨hpossible, hlate⟩ := (ofSearch_of_endpoints hvalid hnowhere).possible_late
    exact ⟨hpossible, fun hearly => by rw [hlate] at hearly; cases hearly⟩
  | launched hvalid hread hfound hbuilt =>
    have hlaunch := ofLaunch_of_bringUp hvalid hread (length_endpoints hfound) ((congrArg Prod.fst hbuilt).trans h)
    obtain ⟨hpossible, hlate⟩ := hlaunch.possible_late
    exact ⟨hpossible, fun hearly => by rw [hlate] at hearly; cases hearly⟩

/-- **Which errors a run has, and what was done before each.** -/
theorem run_refusals (w : World) (s : Settings) : Refusals w s (run w s) where
  possible _ he := (possible_of_run he).1
  two up hup := by
    obtain ⟨p, hfound, -⟩ := endpoints_of_run hup
    exact length_endpoints hfound
  scanned up hup hscan := by
    obtain ⟨scan, hscan⟩ := Option.ne_none_iff_exists'.1 hscan
    obtain ⟨p, hfound, hprobes⟩ := endpoints_of_run hup
    rw [endpoints_of_scan hscan] at hfound hprobes
    rw [hprobes]
    exact pair_of_scanned hfound
  early _ he := (possible_of_run he).2
  noPrefixes scan hscan := noPrefixes_iff hscan

/-- the text of a profile whose keys are all zero -/
def zeroText : String :=
  let key := "AAAAAAAAAAAAAAAAAAAAAAAAAAAAAAAAAAAAAAAAAAA="
  "[Interface]\nPrivateKey = " ++ key ++ "\n[Peer]\nPublicKey = " ++ key ++ "\n"

/-- a world in which every file is this profile -/
def profiledWorld : World := { emptyWorld with files := fun _ => .ok zeroText.toUTF8 }

/-- there the profile is read and its keys are decoded, and a scan without a family finds nothing to scan; in a world without
files the run is over before that -/
theorem run_refusals_of_familyless :
    (run profiledWorld familyless).outcome = .error (.scan (.candidates .noPrefixes)) ∧
      (run emptyWorld familyless).probes = [] ∧ (run emptyWorld familyless).deeds = [] := by
  have hread : (match profiles profiledWorld.files familyless .direct with
      | .ok p => p.primary.probeKeys.isOk
      | .error _ => false) = true := by decide +kernel
  refine ⟨((run_refusals profiledWorld familyless).noPrefixes _ rfl).2 ?_,
    (run_refusals emptyWorld familyless).early (.profile (.read "stuff/primary/wgcf-profile.ini" .notFound)) rfl rfl⟩
  split at hread
  · rename_i p hp
    cases hkeys : p.primary.probeKeys with
    | ok keys => exact ⟨.direct, p, keys, rfl, hp, hkeys, rfl, rfl⟩
    | error e => rw [hkeys] at hread; cases hread
  · cases hread

end Run

end EdgeTunnel
