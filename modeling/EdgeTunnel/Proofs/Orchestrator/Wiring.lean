/-
What a start asks of the outside, step by step.

`plan` lists the steps of each topology with everything that is asked in them: whose keys, which endpoint, which packet size
and keepalive, which tunnel and which addresses. It takes the addresses of the relay and of the front as given, since they
are only known once their sockets are bound. The outside answers each call as it likes.

- `Carried`: these deeds carry out a plan, up to its first step that fails, and this is the error of that step.
  `Carried.append`, `Carried.cut`, `Carried.calls_prefix`.
- `Follows`: a step of building carries out a plan and fails with the error of it. `follows_andThen`;
  `follows_startTunnel`, `follows_startRelay` and `follows_startProxy` for the steps themselves.
- `tunnelAt_of_startTunnel`: the place that a start of a tunnel returns is that of the tunnel it has started.
- `start_follows_plan`: so does the start of every topology.
-/
import EdgeTunnel.Proofs.Orchestrator.History

namespace EdgeTunnel.Orchestrator

/-! ## Plans -/

/-- a step that is planned: a call, or why there can be none -/
abbrev Planned := Except RunError Call

/-- a tunnel to an endpoint, with the keys of a profile if they can be read -/
def plannedTunnel (id : Nat) (profile : Profile) (endpoint : SocketAddress) (mtu : Nat) (keepalive : Span)
    (obfuscate : Bool) : Planned :=
  match profile.probeKeys with
  | .error e => .error (.profile e)
  | .ok keys => .ok (.startTunnel id {
      peer := {
        own := keys.own
        peer := keys.peer
        psk := keys.psk
        allowed := profile.peer.allowed
        endpoint, keepalive, mtu, obfuscate }
      addresses := profile.interface.addresses
      dns := profile.interface.dns
      mtu })

/-- a front that listens at an address, over a tunnel -/
def plannedProxy (settings : ProxySettings) (listen : SocketAddress) (tunnel : Nat) : Planned :=
  .ok (.bindProxy {
    listen
    maxConnections := settings.maxConnections
    bufferSize := settings.bufferSize
    idle := .ofSecs settings.idleSecs.toNat } tunnel)

/-- the steps of a start, when its relay has one of these addresses and its front the other -/
def plan (w : Outside) (o : Orchestrator) (bind : SocketAddress) (endpoints : List SocketAddress) (p : Profiles)
    (relay front : SocketAddress) : List Planned :=
  match o.topology, endpoints with
  | .direct, first :: _ =>
    [plannedTunnel (o.starts + 1) p.primary first 1400 (.ofSecs 3) true, plannedProxy o.proxy bind (o.starts + 1)]
  | .obfuscated region, first :: _ =>
    if w.transport.isNone then [.error .missingTransport]
    else
      [plannedTunnel (o.starts + 1) p.primary first 1400 (.ofSecs 3) true,
        plannedProxy o.proxy (.of .loopback 0) (o.starts + 1), .ok (.startTransport front bind region o.canceled)]
  | .chained, first :: second :: _ =>
    match p.secondary with
    | none => [.error (.missingProfile "secondary")]
    | some secondary =>
      [plannedTunnel (o.starts + 1) secondary first 1400 (.ofSecs 3) true, .ok (.bindRelay (.of .loopback 0) 1400),
        .ok (.dialRelay (o.starts + 1) second),
        plannedTunnel (o.starts + 2) p.primary relay 1320 (.ofSecs 10) false, plannedProxy o.proxy bind (o.starts + 2)]
  | _, _ => []

/-- where users connect -/
def entrance (t : Topology) (bind front : SocketAddress) : SocketAddress :=
  match t with
  | .obfuscated _ => bind
  | _ => front

/-! ## Carrying out a plan -/

/-- how a call is answered after so many deeds: with an address where it yields one, or with the error of the start -/
def answer (w : Outside) (k : Nat) : Call → Except RunError (Option SocketAddress)
  | .startTunnel id spec =>
    match w.startTunnel k id spec with
    | .error e => .error (.tunnel e)
    | .ok () => .ok none
  | .bindRelay address _ =>
    match w.bindRelay k address with
    | .error e => .error (.relay (.io e))
    | .ok a => .ok (some a)
  | .dialRelay tunnel remote =>
    match w.dialRelay k tunnel remote with
    | .error e => .error (.relay (.dial e))
    | .ok () => .ok none
  | .bindProxy config _ =>
    match w.bindProxy k config with
    | .error e => .error (.proxy e)
    | .ok a => .ok (some a)
  | .startTransport proxy listen region canceled =>
    match w.transport with
    | none => .error .missingTransport
    | some transport =>
      match transport k proxy listen region canceled with
      | .error e => .error (.transport e)
      | .ok _ => .ok none
  | _ => .ok none

/-- the address that a call yields -/
def yields (relay front : SocketAddress) : Call → Option SocketAddress
  | .bindRelay _ _ => some relay
  | .bindProxy _ _ => some front
  | _ => none

/-- do these deeds, after so many others, carry out a plan up to the first step that fails, with this error if one does? -/
inductive Carried (w : Outside) (relay front : SocketAddress) :
    Nat → List Planned → List Deed → Option RunError → Prop where
  /-- nothing is left to do -/
  | finished {k : Nat} : Carried w relay front k [] [] none
  /-- no call can be made -/
  | impossible {k : Nat} {e : RunError} {rest : List Planned} : Carried w relay front k (.error e :: rest) [] (some e)
  | refused {k : Nat} {call : Call} {e : RunError} {rest : List Planned} (answered : answer w k call = .error e) :
    Carried w relay front k (.ok call :: rest) [.asked call false] (some e)
  | granted {k : Nat} {call : Call} {rest : List Planned} {ds : List Deed} {fault : Option RunError}
    (answered : answer w k call = .ok (yields relay front call)) (more : Carried w relay front (k + 1) rest ds fault) :
    Carried w relay front k (.ok call :: rest) (.asked call true :: ds) fault
  | logged {k : Nat} {level : Level} {text : String} {plan : List Planned} {ds : List Deed} {fault : Option RunError}
    (more : Carried w relay front (k + 1) plan ds fault) :
    Carried w relay front k plan (.logged level text :: ds) fault

section Carrying

variable {w : Outside} {relay front : SocketAddress} {k : Nat} {plan rest : List Planned} {ds ds' : List Deed}

/-- a plan that is finished is carried on by the next -/
theorem Carried.append {fault : Option RunError} (h : Carried w relay front k plan ds none)
    (h' : Carried w relay front (k + ds.length) rest ds' fault) :
    Carried w relay front k (plan ++ rest) (ds ++ ds') fault := by
  generalize hnone : none = fault₀ at h
  induction h with
  | finished => exact h'
  | impossible => cases hnone
  | refused _ => cases hnone
  | granted answered _ ih =>
    refine .granted answered (ih ?_ hnone)
    rwa [List.length_cons, Nat.add_comm _ 1, ← Nat.add_assoc] at h'
  | logged _ ih =>
    refine .logged (ih ?_ hnone)
    rwa [List.length_cons, Nat.add_comm _ 1, ← Nat.add_assoc] at h'

/-- a plan that has failed is not carried on -/
theorem Carried.cut {e : RunError} (h : Carried w relay front k plan ds (some e)) (rest : List Planned) :
    Carried w relay front k (plan ++ rest) ds (some e) := by
  generalize hsome : some e = fault at h
  induction h with
  | finished => cases hsome
  | impossible => exact .impossible
  | refused answered => exact .refused answered
  | granted answered _ ih => exact .granted answered (ih hsome)
  | logged _ ih => exact .logged (ih hsome)

/-- **The calls that are made** are the first of the plan, and all of it if nothing fails. -/
theorem Carried.calls_prefix {fault : Option RunError} (h : Carried w relay front k plan ds fault) :
    (calls ds).map .ok <+: plan ∧ (fault = none → (calls ds).map .ok = plan) := by
  induction h with
  | finished => exact ⟨List.prefix_rfl, fun _ => rfl⟩
  | impossible => exact ⟨List.nil_prefix, fun h => by cases h⟩
  | refused _ => exact ⟨(List.prefix_cons_inj _).2 List.nil_prefix, fun h => by cases h⟩
  | granted _ _ ih => exact ⟨(List.prefix_cons_inj _).2 ih.1, fun h => congrArg _ (ih.2 h)⟩
  | logged _ ih => exact ih

end Carrying

/-! ## Steps of building -/

/-- the error of a step that failed -/
def fault? {α : Type} : Except RunError α → Option RunError
  | .ok _ => none
  | .error e => some e

/-- does a step of building from `o` carry out a plan, failing with the error of the first step that fails? `result` holds of
what it returns otherwise. -/
structure Follows {α : Type} (w : Outside) (relay front : SocketAddress) (o : Orchestrator) (plan : List Planned)
    (result : α → Prop) (s : Step α) : Prop where
  carried : ∃ ds, s.2.deeds = o.deeds ++ ds ∧ Carried w relay front o.deeds.length plan ds (fault? s.1)
  returned : ∀ a, s.1 = .ok a → result a

theorem Follows.of_error {α : Type} {w : Outside} {relay front : SocketAddress} {o o' : Orchestrator} {plan : List Planned}
    {result : α → Prop} {e : RunError} {ds : List Deed} (hd : o'.deeds = o.deeds ++ ds)
    (hc : Carried w relay front o.deeds.length plan ds (some e)) : Follows w relay front o plan result (.error e, o') :=
  ⟨⟨ds, hd, hc⟩, fun _ h => by cases h⟩

theorem Follows.of_ok {α : Type} {w : Outside} {relay front : SocketAddress} {o o' : Orchestrator} {plan : List Planned}
    {result : α → Prop} {a : α} {ds : List Deed} (hd : o'.deeds = o.deeds ++ ds)
    (hc : Carried w relay front o.deeds.length plan ds none) (ha : result a) :
    Follows w relay front o plan result (.ok a, o') :=
  ⟨⟨ds, hd, hc⟩, fun _ h => Except.ok.inj h ▸ ha⟩

theorem follows_andThen {α β : Type} {w : Outside} {relay front : SocketAddress} {o : Orchestrator}
    {plan rest : List Planned} {result : α → Prop} {result' : β → Prop} {s : Step α}
    {next : α → Orchestrator → Step β}
    (hs : Follows w relay front o plan result s)
    (hn : ∀ a o', s = (.ok a, o') → result a → Follows w relay front o' rest result' (next a o')) :
    Follows w relay front o (plan ++ rest) result' (andThen s next) := by
  obtain ⟨⟨ds, hd, hc⟩, hresult⟩ := hs
  rcases s with ⟨e | a, o'⟩
  · exact ⟨⟨ds, hd, hc.cut rest⟩, fun _ h => by cases h⟩
  · obtain ⟨⟨ds', hd', hc'⟩, hresult'⟩ := hn a o' rfl (hresult a rfl)
    refine ⟨⟨ds ++ ds', ?_, hc.append ?_⟩, hresult'⟩
    · rw [andThen, hd', hd, List.append_assoc]
    · rwa [hd, List.length_append] at hc'

/-- what three deeds add -/
theorem append_three (ds a b c : List Deed) : ds ++ a ++ b ++ c = ds ++ (a ++ (b ++ c)) := by
  rw [List.append_assoc, List.append_assoc]

section Building

variable (w : Outside) (relay front : SocketAddress) (o : Orchestrator)

theorem follows_startTunnel (name : String) (profile : Profile) (endpoint : SocketAddress) (mtu : Nat) (keepalive : Span)
    (obfuscate : Bool) :
    Follows w relay front o [plannedTunnel (o.starts + 1) profile endpoint mtu keepalive obfuscate]
      (· = o.handles.length) (o.startTunnel w name profile endpoint mtu keepalive obfuscate) := by
  simp only [startTunnel, Profile.tunnelSpec, plannedTunnel]
  cases profile.probeKeys with
  | error e => exact .of_error (List.append_nil _).symm .impossible
  | ok keys =>
    simp only [bind, Except.bind, pure, Except.pure]
    split
    · rename_i e hw
      refine .of_error rfl (.refused ?_)
      simp only [answer, hw]
    · rename_i hw
      refine .of_ok (List.append_assoc _ _ _) (.granted ?_ (.logged .finished)) rfl
      simp only [answer, hw, yields]

/-- what a tunnel that was started leaves to the next steps: its handle is where the start says -/
theorem tunnelAt_of_startTunnel {w : Outside} {o o' : Orchestrator} {name : String} {profile : Profile}
    {endpoint : SocketAddress} {mtu : Nat} {keepalive : Span} {obfuscate : Bool} {index : Nat}
    (h : o.startTunnel w name profile endpoint mtu keepalive obfuscate = (.ok index, o')) :
    o'.tunnelAt index = o.starts + 1 ∧ o'.starts = o.starts + 1 ∧ o'.proxy = o.proxy ∧ o'.canceled = o.canceled := by
  simp only [startTunnel] at h
  split at h
  · cases h
  · split at h
    · cases h
    · simp only [Prod.mk.injEq, Except.ok.injEq] at h
      obtain ⟨rfl, rfl⟩ := h
      refine ⟨?_, rfl, rfl, rfl⟩
      simp only [tunnelAt, ask, log, List.getElem?_concat_length, Option.map_some, Option.getD_some, TunnelHandle.started]

theorem follows_startRelay (index : Nat) (remote : SocketAddress) {mtu : Nat} (hmtu : mtu ≠ 0)
    (hrelay : ∀ a, w.bindRelay o.deeds.length .ephemeral = .ok a → a = relay) :
    Follows w relay front o [.ok (.bindRelay (.of .loopback 0) mtu), .ok (.dialRelay (o.tunnelAt index) remote)]
      (· = relay) (o.startRelay w index remote mtu) := by
  cases hbind : w.bindRelay o.deeds.length .ephemeral with
  | error e =>
    simp only [startRelay, if_neg hmtu, hbind]
    refine .of_error rfl (.refused ?_)
    rw [answer, ← SocketAddress.ephemeral, hbind]
  | ok a =>
    obtain rfl := hrelay a hbind
    have hgranted : answer w o.deeds.length (.bindRelay (.of .loopback 0) mtu) = .ok (some a) := by
      rw [answer, ← SocketAddress.ephemeral, hbind]
    have hk : (o.ask (.bindRelay .ephemeral mtu) true).deeds.length = o.deeds.length + 1 := List.length_append
    cases hdial : w.dialRelay (o.deeds.length + 1) (o.tunnelAt index) remote with
    | error e =>
      simp only [startRelay, if_neg hmtu, hbind, hk, hdial]
      refine .of_error (List.append_assoc _ _ _) (.granted hgranted (.refused ?_))
      simp only [answer, hdial]
    | ok done =>
      simp only [startRelay, if_neg hmtu, hbind, hk, hdial]
      refine .of_ok (append_three _ _ _ _) (.granted hgranted (.granted ?_ (.logged .finished))) rfl
      simp only [answer, hdial, yields]

/-- what a relay that was set up leaves to the next steps -/
theorem eq_of_startRelay {w : Outside} {o o' : Orchestrator} {index : Nat} {remote a : SocketAddress} {mtu : Nat}
    (h : o.startRelay w index remote mtu = (.ok a, o')) : o'.starts = o.starts ∧ o'.proxy = o.proxy := by
  simp only [startRelay] at h
  split_ifs at h
  · cases h
  · split at h
    · cases h
    · split at h
      · cases h
      · cases h
        exact ⟨rfl, rfl⟩

theorem follows_startProxy (listen : SocketAddress) (index : Nat)
    (hfront : ∀ a, w.bindProxy o.deeds.length (o.proxy.config listen) = .ok a → a = front) :
    Follows w relay front o [plannedProxy o.proxy listen (o.tunnelAt index)] (· = front) (o.startProxy w listen index) := by
  have hplanned : plannedProxy o.proxy listen (o.tunnelAt index) =
      .ok (.bindProxy (o.proxy.config listen) (o.tunnelAt index)) := rfl
  rw [hplanned]
  cases hw : w.bindProxy o.deeds.length (o.proxy.config listen) with
  | error e =>
    simp only [startProxy, hw]
    refine .of_error rfl (.refused ?_)
    simp only [answer, hw]
  | ok a =>
    obtain rfl := hfront a hw
    simp only [startProxy, hw]
    refine .of_ok (List.append_assoc _ _ _) (.granted ?_ (.logged .finished)) rfl
    simp only [answer, hw, yields]

/-- the start of a front leaves the token as it is -/
theorem canceled_startProxy (w : Outside) (o : Orchestrator) (listen : SocketAddress) (index : Nat) :
    (o.startProxy w listen index).2.canceled = o.canceled := by
  simp only [startProxy]
  split
  · rfl
  · rfl

end Building

/-! ## Topologies -/

theorem exists_address {ε : Type} (r : Except ε SocketAddress) : ∃ address, ∀ a, r = .ok a → a = address := by
  cases r with
  | error e => exact ⟨.ephemeral, fun _ h => by cases h⟩
  | ok a => exact ⟨a, fun _ h => (Except.ok.inj h).symm⟩

section Topologies

variable (w : Outside) {o : Orchestrator} (bind first : SocketAddress) (rest : List SocketAddress) (p : Profiles)

theorem follows_direct (ht : o.topology = .direct) (relay : SocketAddress) :
    ∃ front, Follows w relay front o (plan w o bind (first :: rest) p relay front) (· = front)
      (o.buildDirect w bind first p) := by
  simp only [plan, ht]
  obtain ⟨front, hfront⟩ := exists_address
    (w.bindProxy (o.startTunnel w "primary" p.primary first 1400 (.ofSecs 3) true).2.deeds.length (o.proxy.config bind))
  refine ⟨front, follows_andThen (follows_startTunnel ..) fun index o' h _ => ?_⟩
  obtain ⟨hat, -, hproxy, -⟩ := tunnelAt_of_startTunnel h
  rw [h, ← hproxy] at hfront
  rw [← hat, ← hproxy]
  exact follows_startProxy w relay front o' bind index hfront

theorem follows_obfuscated {region : Region} (ht : o.topology = .obfuscated region) (relay : SocketAddress) :
    ∃ front, Follows w relay front o (plan w o bind (first :: rest) p relay front) (· = bind)
      (o.buildObfuscated w region bind first p) := by
  simp only [plan, ht]
  cases hw : w.transport with
  | none =>
    simp only [buildObfuscated, hw]
    exact ⟨.ephemeral, .of_error (List.append_nil _).symm .impossible⟩
  | some transport =>
    simp only [buildObfuscated, hw]
    obtain ⟨front, hfront⟩ := exists_address (w.bindProxy
      (o.startTunnel w "primary" p.primary first 1400 (.ofSecs 3) true).2.deeds.length (o.proxy.config .ephemeral))
    refine ⟨front, follows_andThen (follows_startTunnel ..) fun index o₁ h _ => ?_⟩
    obtain ⟨hat, -, hproxy, hcanceled⟩ := tunnelAt_of_startTunnel h
    rw [h, ← hproxy] at hfront
    rw [← hat, ← hproxy]
    refine follows_andThen (follows_startProxy w relay front o₁ .ephemeral index hfront) fun a o₂ h₂ ha => ?_
    obtain rfl := ha
    have hkept := canceled_startProxy w o₁ .ephemeral index
    rw [h₂] at hkept
    rw [← hcanceled, ← hkept]
    cases hr : transport o₂.deeds.length a bind region o₂.canceled with
    | error e =>
      refine .of_error rfl (.refused ?_)
      simp only [answer, hw, hr]
    | ok remark =>
      have hgranted : answer w o₂.deeds.length (.startTransport a bind region o₂.canceled) = .ok none := by
        simp only [answer, hw, hr]
      cases remark with
      | none => exact .of_ok (List.append_assoc _ _ _) (.granted hgranted (.logged .finished)) rfl
      | some text => exact .of_ok (append_three _ _ _ _) (.granted hgranted (.logged (.logged .finished))) rfl

theorem follows_chained (second : SocketAddress) (ht : o.topology = .chained) :
    ∃ relay front, Follows w relay front o (plan w o bind (first :: second :: rest) p relay front) (· = front)
      (o.buildChained w bind first second p) := by
  simp only [plan, ht]
  cases hs : p.secondary with
  | none =>
    simp only [buildChained, hs]
    exact ⟨.ephemeral, .ephemeral, .of_error (List.append_nil _).symm .impossible⟩
  | some secondary =>
    simp only [buildChained, hs]
    have houter : o.startOuter w "outer" secondary first = o.startTunnel w "outer" secondary first 1400 (.ofSecs 3) true :=
      rfl
    have hinner : ∀ (o : Orchestrator) (relay : SocketAddress),
        o.startTunnel w "inner" p.primary relay Topology.innerMtu Topology.innerKeepalive false =
          o.startTunnel w "inner" p.primary relay 1320 (.ofSecs 10) false := fun _ _ => rfl
    have hmtu : Topology.outerMtu = 1400 := rfl
    simp only [houter, hinner, hmtu]
    -- the addresses in the plan are those that the two sockets get when their turn comes
    obtain ⟨relay, hrelay⟩ := exists_address (w.bindRelay
      (o.startTunnel w "outer" secondary first 1400 (.ofSecs 3) true).2.deeds.length .ephemeral)
    obtain ⟨front, hfront⟩ := exists_address (w.bindProxy
      (andThen (o.startTunnel w "outer" secondary first 1400 (.ofSecs 3) true) fun outer o =>
        andThen (o.startRelay w outer second 1400) fun relay o =>
          o.startTunnel w "inner" p.primary relay 1320 (.ofSecs 10) false).2.deeds.length (o.proxy.config bind))
    refine ⟨relay, front, follows_andThen (follows_startTunnel ..) fun outer o₁ h₁ _ => ?_⟩
    obtain ⟨hat₁, hstarts₁, hproxy₁, -⟩ := tunnelAt_of_startTunnel h₁
    rw [h₁] at hrelay hfront
    rw [← hat₁]
    refine follows_andThen (follows_startRelay w relay front o₁ outer second (by decide) hrelay)
      fun a o₂ h₂ ha => ?_
    subst ha
    obtain ⟨hstarts₂, hproxy₂⟩ := eq_of_startRelay h₂
    -- the relay takes no number, so the inner tunnel has the one after the outer tunnel's
    have hnext : o.starts + 2 = o₂.starts + 1 := by omega
    rw [hnext]
    refine follows_andThen (follows_startTunnel ..) fun inner o₃ h₃ _ => ?_
    obtain ⟨hat₃, -, hproxy₃, -⟩ := tunnelAt_of_startTunnel h₃
    have hproxy : o.proxy = o₃.proxy := by rw [hproxy₃, hproxy₂, hproxy₁]
    rw [← hat₃, hproxy]
    simp only [andThen, h₂, h₃, hproxy] at hfront
    exact follows_startProxy w a front o₃ bind inner hfront

/-- with enough endpoints, building a topology carries out its plan -/
theorem follows_build {endpoints : List SocketAddress} (h : o.topology.endpointsNeeded ≤ endpoints.length) :
    ∃ relay front, Follows w relay front o (plan w o bind endpoints p relay front)
      (· = entrance o.topology bind front) (o.build w bind endpoints p) := by
  simp only [build, entrance]
  cases ht : o.topology with
  | direct =>
    cases endpoints with
    | nil => simp [ht, Topology.endpointsNeeded] at h
    | cons first rest => exact ⟨.ephemeral, follows_direct w bind first rest p ht .ephemeral⟩
  | obfuscated region =>
    cases endpoints with
    | nil => simp [ht, Topology.endpointsNeeded] at h
    | cons first rest => exact ⟨.ephemeral, follows_obfuscated w bind first rest p ht .ephemeral⟩
  | chained =>
    rcases endpoints with _ | ⟨first, _ | ⟨second, rest⟩⟩
    · simp [ht, Topology.endpointsNeeded] at h
    · simp [ht, Topology.endpointsNeeded] at h
    · exact follows_chained w bind first rest p second ht

end Topologies

/-! ## The result -/

/-- **The wiring of every topology.** With enough endpoints, whatever was done before and whatever the outside answers: what
a start does up to a teardown carries out the plan of its topology. The calls are the first of the plan, and all of them if
nothing fails; the error is that of the first step that fails, after which all is torn down. -/
theorem start_follows_plan (w : Outside) (o : Orchestrator) (bind : SocketAddress) (endpoints : List SocketAddress)
    (p : Profiles) (h : o.topology.endpointsNeeded ≤ endpoints.length) :
    1400 = 1320 + Topology.layerOverhead ∧
    ∃ (before : Orchestrator) (relay front : SocketAddress) (ds : List Deed) (fault : Option RunError),
      before.deeds = o.deeds ++ ds ∧
      Carried w relay front o.deeds.length (plan w o bind endpoints p relay front) ds fault ∧
      (calls ds).map .ok <+: plan w o bind endpoints p relay front ∧
      (fault = none → (calls ds).map .ok = plan w o bind endpoints p relay front) ∧
      o.start w bind endpoints p = match fault with
        | none => (.ok (entrance o.topology bind front), before)
        | some e => (.error e, (before.log .warn s!"Topology setup failed: {e.message}").shutdown) := by
  refine ⟨rfl, ?_⟩
  simp only [start, if_neg (Nat.not_lt.2 h)]
  generalize s!"Starting {o.topology} topology via {addressList (endpoints.take o.topology.endpointsNeeded)}" = text
  have henough : (o.log .info text).topology.endpointsNeeded ≤ endpoints.length := h
  obtain ⟨relay, front, ⟨ds, hd, hc⟩, hresult⟩ := follows_build w bind p henough
  have hdeeds : ((o.log .info text).build w bind endpoints p).2.deeds = o.deeds ++ .logged .info text :: ds := by
    rw [hd, log, List.append_assoc, List.singleton_append]
  have hk : (o.log .info text).deeds.length = o.deeds.length + 1 := List.length_append
  rw [hk] at hc
  have hcarried : Carried w relay front o.deeds.length (plan w o bind endpoints p relay front) (.logged .info text :: ds)
      (fault? ((o.log .info text).build w bind endpoints p).1) := .logged hc
  obtain ⟨hcalls, hall⟩ := hcarried.calls_prefix
  refine ⟨_, relay, front, _, _, hdeeds, hcarried, hcalls, hall, ?_⟩
  cases hb : (o.log .info text).build w bind endpoints p with
  | mk result before =>
    cases result with
    | ok a => rw [hb] at hresult; rw [hresult a rfl]; rfl
    | error e => rfl

/-- an outside where all is granted except a dial through a tunnel -/
def withoutDial : Outside where
  startTunnel _ _ _ := .ok ()
  bindRelay _ a := .ok a
  dialRelay _ _ _ := .error .stopped
  bindProxy _ c := .ok c.listen
  transport := none

/-- a chain whose relay cannot dial: its inner tunnel is not started -/
theorem start_of_chain_without_dial :
    let o := new .chained {} false
    let endpoints : List SocketAddress := [.of .loopback 2408, .of .loopback 500]
    let p : Profiles := ⟨zeroProfile, some zeroProfile⟩
    o.topology.endpointsNeeded ≤ endpoints.length ∧ ∃ relay front ds,
      Carried withoutDial relay front 0 (plan withoutDial o .standardBind endpoints p relay front) ds
        (some (.relay (.dial .stopped))) ∧
      (o.start withoutDial .standardBind endpoints p).1 = .error (.relay (.dial .stopped)) ∧
      handedOut (o.start withoutDial .standardBind endpoints p).2.deeds = [1] := by
  intro o endpoints p
  obtain ⟨-, before, relay, front, ds, fault, -, hcarried, -, -, hstart⟩ :=
    start_follows_plan withoutDial o .standardBind endpoints p (by decide)
  have herror : (o.start withoutDial .standardBind endpoints p).1 = .error (.relay (.dial .stopped)) := rfl
  have hfault : fault = some (.relay (.dial .stopped)) := by
    rw [hstart] at herror
    cases fault with
    | none => cases herror
    | some e => exact congrArg some (Except.error.inj herror)
  exact ⟨by decide, relay, front, ds, hfault ▸ hcarried, herror, by decide +kernel⟩

end EdgeTunnel.Orchestrator
