/-
Teardown over any history of an orchestrator.

Everything is said on the deeds, which list what was asked of the outside and how it was answered: `handedOut` are the
tunnels that were granted, `stops` the stops that were called. The outside answers each call as it likes.

- `shutdown_eq`: what a teardown does, field by field.
- `Inv`: the handles are the tunnels handed out, in their order and under different numbers, and the stops that were
  called are those of the stopped handles. `inv_shutdown`, `step_inv`, `run_inv`.
- `Builds`: what a step of building does. It keeps the invariant, calls for no teardown, and never fails for want of
  endpoints; `buildDirect`, `buildObfuscated` and `buildChained` are such steps, wherever they fail.
- `start_cases`: a start does nothing, builds, or builds up to some step and then tears down.
- `tornDown_shutdown`, `calls_shutdown`: what a teardown leaves, and what it calls in which order.
- `teardown_over_any_history`: the results for every reachable orchestrator.
-/
import EdgeTunnel.Orchestrator.Basic
import Mathlib.Tactic

namespace EdgeTunnel

/-! ## Histories -/

/-- does a call belong to a teardown? -/
def Call.isTeardown : Call → Bool
  | .joinRelay => true
  | .stopTunnel _ => true
  | _ => false

namespace Deed

def call? : Deed → Option Call
  | .asked c _ => some c
  | .logged _ _ => none

def handedOut? : Deed → Option Nat
  | .asked (.startTunnel id _) true => some id
  | _ => none

def stopped? : Deed → Option Nat
  | .asked (.stopTunnel id) _ => some id
  | _ => none

end Deed

namespace Orchestrator

def calls (ds : List Deed) : List Call := ds.filterMap Deed.call?

/-- the tunnels that were handed out, in order -/
def handedOut (ds : List Deed) : List Nat := ds.filterMap Deed.handedOut?

/-- the tunnels whose stop was called, in order -/
def stops (ds : List Deed) : List Nat := ds.filterMap Deed.stopped?

@[simp] theorem calls_append (a b : List Deed) : calls (a ++ b) = calls a ++ calls b := List.filterMap_append

@[simp] theorem handedOut_append (a b : List Deed) : handedOut (a ++ b) = handedOut a ++ handedOut b :=
  List.filterMap_append

@[simp] theorem stops_append (a b : List Deed) : stops (a ++ b) = stops a ++ stops b := List.filterMap_append

/-! ## Teardowns -/

/-- what is done to stop tunnels -/
def farewell (hs : List TunnelHandle) : List Deed :=
  (hs.filter (·.isRunning)).flatMap fun h =>
    [.logged .info s!"Stopping {h.name} tunnel", .asked (.stopTunnel h.id) true]

/-- what is done to join a relay -/
def joining (relay : Option SocketAddress) : List Deed := if relay.isSome then [.asked .joinRelay true] else []

theorem stopTunnels_eq (o : Orchestrator) (hs : List TunnelHandle) :
    o.stopTunnels hs = { o with deeds := o.deeds ++ farewell hs } := by
  induction hs generalizing o with
  | nil => simp [stopTunnels, farewell]
  | cons h hs ih =>
    rcases h with ⟨name, mtu, state, id⟩
    cases state with
    | running => simp [stopTunnels, TunnelHandle.stop, ih, farewell, log, ask, TunnelHandle.isRunning]
    | stopped => simp [stopTunnels, TunnelHandle.stop, ih, farewell, TunnelHandle.isRunning]

/-- **What a teardown does**, field by field. -/
theorem shutdown_eq (o : Orchestrator) :
    o.shutdown = { o with
      canceled := true
      front := none
      relay := none
      handles := o.handles.map fun h => h.stop.2
      deeds := o.deeds ++ (joining o.relay ++ farewell o.handles.reverse) } := by
  simp only [shutdown, stopTunnels_eq, joining]
  cases hr : o.relay <;> simp [ask]

theorem handedOut_farewell (hs : List TunnelHandle) : handedOut (farewell hs) = [] := by
  simp [handedOut, farewell, Deed.handedOut?, List.filterMap_flatMap]

theorem stops_farewell (hs : List TunnelHandle) : stops (farewell hs) = (hs.filter (·.isRunning)).map (·.id) := by
  simp only [stops, farewell, List.filterMap_flatMap]
  exact List.flatMap_pure_eq_map _ _

theorem calls_farewell (hs : List TunnelHandle) :
    calls (farewell hs) = ((hs.filter (·.isRunning)).map (·.id)).map Call.stopTunnel := by
  simp only [calls, farewell, List.filterMap_flatMap, List.map_map]
  exact List.flatMap_pure_eq_map _ _

theorem handedOut_joining (relay : Option SocketAddress) : handedOut (joining relay) = [] := by
  cases relay <;> rfl

theorem stops_joining (relay : Option SocketAddress) : stops (joining relay) = [] := by
  cases relay <;> rfl

theorem calls_joining (relay : Option SocketAddress) :
    calls (joining relay) = if relay.isSome then [.joinRelay] else [] := by
  cases relay <;> rfl

theorem state_stop (h : TunnelHandle) : h.stop.2.state = .stopped := by
  rcases h with ⟨name, mtu, _ | _, id⟩ <;> rfl

theorem id_stop (h : TunnelHandle) : h.stop.2.id = h.id := by
  rcases h with ⟨name, mtu, _ | _, id⟩ <;> rfl

theorem isRunning_stop (h : TunnelHandle) : h.stop.2.isRunning = false := by
  simp [TunnelHandle.isRunning, state_stop]

/-! ## The invariant -/

structure Inv (o : Orchestrator) : Prop where
  /-- every tunnel that was handed out has its handle, in the order of the starts -/
  ids : o.handles.map (·.id) = handedOut o.deeds
  sorted : (o.handles.map (·.id)).Pairwise (· < ·)
  below : ∀ h ∈ o.handles, h.id ≤ o.starts
  /-- a stop was called for the stopped handles, once for each -/
  stops : (stops o.deeds).Perm ((o.handles.filter (!·.isRunning)).map (·.id))

theorem inv_new (topology : Topology) (proxy : ProxySettings) (canceled : Bool) : Inv (new topology proxy canceled) where
  ids := rfl
  sorted := List.Pairwise.nil
  below _ h := absurd h List.not_mem_nil
  stops := List.Perm.refl _

/-- a handle of a reachable orchestrator was stopped when its tunnel's stop was called -/
theorem mem_stops_iff {o : Orchestrator} (hi : Inv o) {h : TunnelHandle} (hh : h ∈ o.handles) :
    h.id ∈ stops o.deeds ↔ h.isRunning = false := by
  rw [hi.stops.mem_iff, List.mem_map]
  constructor
  · rintro ⟨h', hm, hid⟩
    obtain ⟨hm, hr⟩ := List.mem_filter.1 hm
    have : h' = h := List.inj_on_of_nodup_map (hi.sorted.imp Nat.ne_of_lt) hm hh hid
    rw [← this]; simpa using hr
  · intro hr
    exact ⟨h, List.mem_filter.2 ⟨hh, by simp [hr]⟩, rfl⟩

/-- the running tunnels are those that were handed out and not stopped -/
theorem running_eq {o : Orchestrator} (hi : Inv o) :
    (o.handles.filter (·.isRunning)).map (·.id) = (handedOut o.deeds).filter (· ∉ stops o.deeds) := by
  rw [← hi.ids, List.filter_map]
  congr 1
  refine List.filter_congr fun h hh => ?_
  have := mem_stops_iff hi hh
  cases hr : h.isRunning <;> simp [this, hr]

theorem inv_shutdown {o : Orchestrator} (hi : Inv o) : Inv o.shutdown := by
  rw [shutdown_eq]
  have hids : (o.handles.map fun h => h.stop.2).map (·.id) = o.handles.map (·.id) := by
    rw [List.map_map]; exact List.map_congr_left fun h _ => id_stop h
  refine ⟨?_, ?_, ?_, ?_⟩
  · simp [hids, hi.ids, handedOut_joining, handedOut_farewell]
  · simp only [hids]; exact hi.sorted
  · intro h hh
    obtain ⟨h', hh', rfl⟩ := List.mem_map.1 hh
    rw [id_stop]; exact hi.below h' hh'
  · have hall : (o.handles.map fun h => h.stop.2).filter (!·.isRunning) = o.handles.map fun h => h.stop.2 := by
      rw [List.filter_eq_self]
      intro h hh
      obtain ⟨h', -, rfl⟩ := List.mem_map.1 hh
      simp [isRunning_stop]
    simp only [hall, hids, stops_append, stops_joining, stops_farewell, List.nil_append, List.filter_reverse,
      List.map_reverse]
    -- those stopped before and those running make up all handles
    refine (hi.stops.append (List.reverse_perm _)).trans ?_
    rw [← List.map_append]
    exact (List.perm_append_comm.trans (List.filter_append_perm _ _)).map _

/-- deeds that neither hand out nor stop a tunnel keep the invariant -/
theorem Inv.extend {o o' : Orchestrator} (hi : Inv o) (ds : List Deed) (hd : o'.deeds = o.deeds ++ ds)
    (hh : o'.handles = o.handles) (hs : o.starts ≤ o'.starts) (hout : handedOut ds = []) (hstop : Orchestrator.stops ds = []) :
    Inv o' where
  ids := by rw [hh, hd, handedOut_append, hout, List.append_nil]; exact hi.ids
  sorted := by rw [hh]; exact hi.sorted
  below h hm := (hi.below h (hh ▸ hm)).trans hs
  stops := by rw [hh, hd, stops_append, hstop, List.append_nil]; exact hi.stops

/-! ## Building -/

/-- a step of building from `o`: it keeps the invariant, calls for no teardown and does not fail for want of endpoints -/
structure Builds {α : Type} (o : Orchestrator) (s : Step α) : Prop where
  inv : Inv o → Inv s.2
  deeds : ∃ ds, s.2.deeds = o.deeds ++ ds ∧ ∀ c ∈ calls ds, c.isTeardown = false
  enough : ∀ needed got, s.1 ≠ .error (.notEnoughEndpoints needed got)

theorem stops_eq_nil {ds : List Deed} (h : ∀ c ∈ calls ds, c.isTeardown = false) : stops ds = [] := by
  refine List.filterMap_eq_nil_iff.2 fun d hd => ?_
  cases d with
  | logged level text => rfl
  | asked c granted =>
    have hc := h c (List.mem_filterMap.2 ⟨_, hd, rfl⟩)
    cases c <;> first | rfl | exact absurd hc (by simp [Call.isTeardown])

/-- a step that hands out nothing -/
theorem Builds.quiet {α : Type} {o : Orchestrator} {s : Step α} (ds : List Deed) (hd : s.2.deeds = o.deeds ++ ds)
    (hh : s.2.handles = o.handles) (hs : o.starts ≤ s.2.starts) (hout : handedOut ds = [])
    (hc : ∀ c ∈ calls ds, c.isTeardown = false) (he : ∀ n m, s.1 ≠ .error (.notEnoughEndpoints n m)) : Builds o s where
  inv hi := hi.extend ds hd hh hs hout (stops_eq_nil hc)
  deeds := ⟨ds, hd, hc⟩
  enough := he

theorem builds_andThen {α β : Type} {o : Orchestrator} {s : Step α} {next : α → Orchestrator → Step β}
    (hs : Builds o s) (hn : ∀ a o', Builds o' (next a o')) : Builds o (andThen s next) := by
  rcases s with ⟨e | a, o'⟩
  · refine ⟨hs.inv, hs.deeds, fun n m h => hs.enough n m ?_⟩
    simp only [andThen, Except.error.injEq] at h
    rw [h]
  · have hb := hn a o'
    obtain ⟨ds, hd, hc⟩ := hs.deeds
    obtain ⟨ds', hd', hc'⟩ := hb.deeds
    refine ⟨fun hi => hb.inv (hs.inv hi), ⟨ds ++ ds', ?_, ?_⟩, hb.enough⟩
    · simp only [andThen]
      rw [hd', hd, List.append_assoc]
    · intro c hm
      rw [calls_append] at hm
      rcases List.mem_append.1 hm with hm | hm
      · exact hc c hm
      · exact hc' c hm

/-- a tunnel that is handed out gets the next number and a running handle -/
theorem Inv.hand {o o' : Orchestrator} (hi : Inv o) {name : String} {mtu : Nat} {spec : TunnelSpec} {level : Level}
    {text : String} (hs : o'.starts = o.starts + 1) (hh : o'.handles = o.handles ++ [.started name mtu (o.starts + 1)])
    (hd : o'.deeds = o.deeds ++ [.asked (.startTunnel (o.starts + 1) spec) true, .logged level text]) : Inv o' where
  ids := by rw [hh, hd, handedOut_append, List.map_append, hi.ids]; rfl
  sorted := by
    rw [hh, List.map_append, List.pairwise_append]
    refine ⟨hi.sorted, List.pairwise_singleton _ _, fun x hx y hy => ?_⟩
    obtain ⟨h, hm, rfl⟩ := List.mem_map.1 hx
    have hb := hi.below h hm
    simp only [List.map_cons, List.map_nil, List.mem_singleton, TunnelHandle.started] at hy
    omega
  below h hm := by
    rw [hh] at hm
    rcases List.mem_append.1 hm with hm | hm
    · exact (hi.below h hm).trans (hs ▸ Nat.le_succ _)
    · rw [List.mem_singleton.1 hm, hs]; exact le_rfl
  stops := by
    have hnone : Orchestrator.stops [.asked (.startTunnel (o.starts + 1) spec) true, .logged level text] = [] := rfl
    have hrun : (TunnelHandle.started name mtu (o.starts + 1)).isRunning = true := rfl
    rw [hh, hd, stops_append, hnone, List.append_nil, List.filter_append, List.filter_cons_of_neg (by simp [hrun]),
      List.filter_nil, List.append_nil]
    exact hi.stops

theorem builds_startTunnel (w : Outside) (o : Orchestrator) (name : String) (profile : Profile)
    (endpoint : SocketAddress) (mtu : Nat) (keepalive : Span) (obfuscate : Bool) :
    Builds o (o.startTunnel w name profile endpoint mtu keepalive obfuscate) := by
  simp only [startTunnel]
  split
  · exact .quiet [] (by simp) rfl le_rfl rfl (by simp [calls]) (by simp)
  · split
    · exact .quiet _ rfl rfl (Nat.le_succ _) rfl (by simp [calls, Deed.call?, Call.isTeardown]) (by simp)
    · refine ⟨fun hi => hi.hand rfl rfl (by simp only [ask, log, List.append_assoc]; rfl),
        ⟨_, by simp only [ask, log, List.append_assoc]; rfl, ?_⟩, by simp⟩
      simp [calls, Deed.call?, Call.isTeardown]

theorem builds_startRelay (w : Outside) (o : Orchestrator) (tunnel : Nat) (remote : SocketAddress) (mtu : Nat) :
    Builds o (o.startRelay w tunnel remote mtu) := by
  simp only [startRelay]
  split
  · exact .quiet [] (by simp) rfl le_rfl rfl (by simp [calls]) (by simp)
  · split
    · exact .quiet _ rfl rfl le_rfl rfl (by simp [calls, Deed.call?, Call.isTeardown]) (by simp)
    · split
      · exact .quiet _ (by simp only [ask, List.append_assoc]; rfl) rfl le_rfl rfl
          (by simp [calls, Deed.call?, Call.isTeardown]) (by simp)
      · exact .quiet _ (by simp only [ask, log, List.append_assoc]; rfl) rfl le_rfl rfl
          (by simp [calls, Deed.call?, Call.isTeardown]) (by simp)

theorem builds_startProxy (w : Outside) (o : Orchestrator) (listen : SocketAddress) (tunnel : Nat) :
    Builds o (o.startProxy w listen tunnel) := by
  simp only [startProxy]
  split
  · exact .quiet _ rfl rfl le_rfl rfl (by simp [calls, Deed.call?, Call.isTeardown]) (by simp)
  · exact .quiet _ (by simp only [ask, log, List.append_assoc]; rfl) rfl le_rfl rfl
      (by simp [calls, Deed.call?, Call.isTeardown]) (by simp)

theorem builds_direct (w : Outside) (o : Orchestrator) (bind endpoint : SocketAddress) (p : Profiles) :
    Builds o (o.buildDirect w bind endpoint p) :=
  builds_andThen (builds_startTunnel ..) fun _ _ => builds_startProxy ..

theorem builds_obfuscated (w : Outside) (o : Orchestrator) (region : Region) (bind endpoint : SocketAddress)
    (p : Profiles) : Builds o (o.buildObfuscated w region bind endpoint p) := by
  simp only [buildObfuscated]
  split
  · exact .quiet [] (by simp) rfl le_rfl rfl (by simp [calls]) (by simp)
  · refine builds_andThen (builds_startTunnel ..) fun _ _ => builds_andThen (builds_startProxy ..) fun proxy o' => ?_
    split
    · exact .quiet _ rfl rfl le_rfl rfl (by simp [calls, Deed.call?, Call.isTeardown]) (by simp)
    · rename_i remark _
      cases remark with
      | none =>
        exact .quiet _ (by simp only [remark, ask, log, List.append_assoc]; rfl) rfl le_rfl rfl
          (by simp [calls, Deed.call?, Call.isTeardown]) (by simp)
      | some text =>
        exact .quiet _ (by simp only [remark, ask, log, List.append_assoc]; rfl) rfl le_rfl rfl
          (by simp [calls, Deed.call?, Call.isTeardown]) (by simp)

theorem builds_chained (w : Outside) (o : Orchestrator) (bind first second : SocketAddress) (p : Profiles) :
    Builds o (o.buildChained w bind first second p) := by
  simp only [buildChained]
  split
  · exact .quiet [] (by simp) rfl le_rfl rfl (by simp [calls]) (by simp)
  · exact builds_andThen (builds_startTunnel ..) fun _ _ => builds_andThen (builds_startRelay ..) fun _ _ =>
      builds_andThen (builds_startTunnel ..) fun _ _ => builds_startProxy ..

/-- with enough endpoints, a topology is built by steps of building -/
theorem builds_build (w : Outside) (o : Orchestrator) (bind : SocketAddress) {endpoints : List SocketAddress}
    (p : Profiles) (h : o.topology.endpointsNeeded ≤ endpoints.length) : Builds o (o.build w bind endpoints p) := by
  simp only [build]
  cases ht : o.topology with
  | direct =>
    cases endpoints with
    | nil => simp [ht, Topology.endpointsNeeded] at h
    | cons first rest => exact builds_direct ..
  | obfuscated region =>
    cases endpoints with
    | nil => simp [ht, Topology.endpointsNeeded] at h
    | cons first rest => exact builds_obfuscated ..
  | chained =>
    match endpoints with
    | [] => simp [ht, Topology.endpointsNeeded] at h
    | [_] => simp [ht, Topology.endpointsNeeded] at h
    | first :: second :: rest => exact builds_chained ..

/-! ## Starts -/

theorem Builds.after_log {α : Type} {o : Orchestrator} {s : Step α} {level : Level} {text : String}
    (hs : Builds (o.log level text) s) : Builds o s where
  inv hi := hs.inv (hi.extend _ rfl rfl le_rfl rfl rfl)
  deeds := by
    obtain ⟨ds, hd, hc⟩ := hs.deeds
    exact ⟨.logged level text :: ds, by simpa [log] using hd, hc⟩
  enough := hs.enough

theorem Builds.then_log {α : Type} {o o' : Orchestrator} {r : Except RunError α} (level : Level) (text : String)
    (hs : Builds o (r, o')) : Builds o (r, o'.log level text) where
  inv hi := (hs.inv hi).extend _ rfl rfl le_rfl rfl rfl
  deeds := by
    obtain ⟨ds, hd, hc⟩ := hs.deeds
    refine ⟨ds ++ [.logged level text], ?_, ?_⟩
    · simp only [log] at hd ⊢
      rw [hd, List.append_assoc]
    · intro c hm
      rw [calls_append] at hm
      exact hc c (by simpa [calls, Deed.call?] using hm)
  enough := hs.enough

/-- **What a start does.** It does nothing, or it builds, or it builds up to some step and tears everything down. -/
theorem start_cases (w : Outside) (o : Orchestrator) (bind : SocketAddress) (endpoints : List SocketAddress)
    (p : Profiles) :
    (o.start w bind endpoints p = (.error (.notEnoughEndpoints o.topology.endpointsNeeded endpoints.length), o)) ∨
    (∃ a o', Builds o (.ok a, o') ∧ o.start w bind endpoints p = (.ok a, o')) ∨
    (∃ e before, Builds (α := SocketAddress) o (.error e, before) ∧
      o.start w bind endpoints p = (.error e, before.shutdown)) := by
  unfold start
  dsimp only
  split
  · exact .inl rfl
  · rename_i hn
    right
    have hb := (builds_build w (o.log .info
      s!"Starting {o.topology} topology via {addressList (endpoints.take o.topology.endpointsNeeded)}") bind p
      (Nat.le_of_not_lt hn)).after_log
    split <;> rename_i hbuild <;> rw [hbuild] at hb
    · exact .inl ⟨_, _, hb, rfl⟩
    · exact .inr ⟨_, _, hb.then_log _ _, rfl⟩

/-! ## Steps and runs -/

theorem step_inv (w : Outside) {o : Orchestrator} (hi : Inv o) (op : Op) : Inv (o.step w op) := by
  cases op with
  | start bind endpoints p =>
    simp only [step]
    rcases start_cases w o bind endpoints p with h | ⟨a, o', hb, h⟩ | ⟨e, before, hb, h⟩ <;> rw [h]
    · exact hi
    · exact hb.inv hi
    · exact inv_shutdown (hb.inv hi)
  | shutdown => exact inv_shutdown hi
  | cancel => exact hi.extend [] (by simp [step]) rfl le_rfl rfl rfl

theorem run_inv (w : Outside) {o : Orchestrator} (hi : Inv o) (ops : List Op) : Inv (o.run w ops) := by
  induction ops generalizing o with
  | nil => exact hi
  | cons op ops ih => exact ih (step_inv w hi op)

/-! ## What is left after a teardown -/

/-- does a step build anything? -/
def Op.isStart : Op → Bool
  | .start _ _ _ => true
  | _ => false

/-- the calls of a teardown: the relay is joined, then the tunnels handed out and not stopped yet are stopped, the one
started last first -/
def farewells (o : Orchestrator) : List Call :=
  (if o.relay.isSome then [.joinRelay] else []) ++
    ((handedOut o.deeds).filter (· ∉ stops o.deeds)).reverse.map .stopTunnel

/-- everything is torn down -/
structure TornDown (o : Orchestrator) : Prop where
  once : ∀ id ∈ handedOut o.deeds, (stops o.deeds).count id = 1
  handles : o.handles.map (·.id) = handedOut o.deeds ∧ ∀ h ∈ o.handles, h.state = .stopped
  front : o.front = none
  relay : o.relay = none
  /-- nothing more is done until the next start, however often it is shut down -/
  quiet : ∀ (w : Outside) (ops : List Op), (∀ op ∈ ops, op.isStart = false) → (o.run w ops).deeds = o.deeds

theorem nodup_handedOut {o : Orchestrator} (hi : Inv o) : (handedOut o.deeds).Nodup := by
  rw [← hi.ids]
  exact hi.sorted.imp Nat.ne_of_lt

theorem nodup_stops {o : Orchestrator} (hi : Inv o) : (stops o.deeds).Nodup := by
  rw [hi.stops.nodup_iff]
  refine List.Nodup.sublist (List.filter_sublist.map _) ?_
  rw [hi.ids]
  exact nodup_handedOut hi

theorem calls_shutdown {o : Orchestrator} (hi : Inv o) : calls o.shutdown.deeds = calls o.deeds ++ o.farewells := by
  rw [shutdown_eq]
  simp only [calls_append, calls_farewell, calls_joining, farewells, List.filter_reverse, List.map_reverse, running_eq hi]

/-- nothing is left to a second teardown -/
theorem shutdown_idle {o : Orchestrator} (hr : o.relay = none) (hs : ∀ h ∈ o.handles, h.state = .stopped) :
    o.shutdown.deeds = o.deeds ∧ o.shutdown.handles = o.handles := by
  rw [shutdown_eq]
  have hno : o.handles.reverse.filter (·.isRunning) = [] := by
    refine List.filter_eq_nil_iff.2 fun h hh => ?_
    simp [TunnelHandle.isRunning, hs h (List.mem_reverse.1 hh)]
  refine ⟨by simp [joining, hr, farewell, hno], ?_⟩
  refine (List.map_congr_left fun h hh => ?_).trans (List.map_id _)
  simp [TunnelHandle.stop, hs h hh]

theorem run_idle (w : Outside) {o : Orchestrator} (hr : o.relay = none) (hs : ∀ h ∈ o.handles, h.state = .stopped)
    {ops : List Op} (hops : ∀ op ∈ ops, op.isStart = false) : (o.run w ops).deeds = o.deeds := by
  induction ops generalizing o with
  | nil => rfl
  | cons op ops ih =>
    have hrest : ∀ op ∈ ops, op.isStart = false := fun op hm => hops op (List.mem_cons_of_mem _ hm)
    cases op with
    | start bind endpoints p => exact absurd (hops _ List.mem_cons_self) (by simp [Op.isStart])
    | cancel => exact ih (o := { o with canceled := true }) hr hs hrest
    | shutdown =>
      obtain ⟨hd, hh⟩ := shutdown_idle hr hs
      have hrun := ih (o := o.shutdown) (by rw [shutdown_eq]) (by rw [hh]; exact hs) hrest
      exact hrun.trans hd

theorem tornDown_shutdown {o : Orchestrator} (hi : Inv o) : TornDown o.shutdown := by
  have hi' := inv_shutdown hi
  have hs : ∀ h ∈ o.shutdown.handles, h.state = .stopped := by
    rw [shutdown_eq]
    rintro h hh
    obtain ⟨h', -, rfl⟩ := List.mem_map.1 hh
    exact state_stop h'
  have hr : o.shutdown.relay = none := by rw [shutdown_eq]
  refine ⟨fun id hm => ?_, ⟨hi'.ids, hs⟩, by rw [shutdown_eq], hr, fun w ops => run_idle w hr hs⟩
  rw [← hi'.ids] at hm
  obtain ⟨h, hh, rfl⟩ := List.mem_map.1 hm
  refine List.count_eq_one_of_mem (nodup_stops hi') ((mem_stops_iff hi' hh).2 ?_)
  simp [TunnelHandle.isRunning, hs h hh]

/-! ## The results -/

/-- **Teardown over any history.** Of every orchestrator that was started, shut down and canceled in any order, whatever
the outside answered:

- the tunnels handed out are different ones, and none was stopped twice;
- a shutdown leaves everything torn down, and its calls join the relay and then stop the tunnels in reverse order;
- a start that fails for want of endpoints changes nothing, so that nothing was called;
- a start that fails in another way has built up to some step, calling for no teardown, and was then shut down. -/
theorem teardown_over_any_history (w : Outside) (topology : Topology) (proxy : ProxySettings) (canceled : Bool)
    (ops : List Op) :
    let o := (new topology proxy canceled).run w ops
    ((handedOut o.deeds).Nodup ∧ ∀ id, (stops o.deeds).count id ≤ 1) ∧
    (TornDown o.shutdown ∧ calls o.shutdown.deeds = calls o.deeds ++ o.farewells) ∧
    ∀ bind endpoints p e o', o.start w bind endpoints p = (.error e, o') →
      ((∃ needed got, e = .notEnoughEndpoints needed got) → o' = o) ∧
      ((∀ needed got, e ≠ .notEnoughEndpoints needed got) →
        TornDown o' ∧ ∃ (before : Orchestrator) (built : List Call), o' = before.shutdown ∧
          calls before.deeds = calls o.deeds ++ built ∧ (∀ c ∈ built, c.isTeardown = false) ∧
          calls o'.deeds = calls before.deeds ++ before.farewells) := by
  intro o
  have hi : Inv o := run_inv w (inv_new topology proxy canceled) ops
  refine ⟨⟨nodup_handedOut hi, List.nodup_iff_count_le_one.1 (nodup_stops hi)⟩,
    ⟨tornDown_shutdown hi, calls_shutdown hi⟩, ?_⟩
  intro bind endpoints p e o' hfail
  rcases start_cases w o bind endpoints p with h | ⟨a, o'', hb, h⟩ | ⟨e', before, hb, h⟩ <;> rw [h] at hfail <;>
    simp only [Prod.mk.injEq, Except.error.injEq, reduceCtorEq, false_and] at hfail
  · obtain ⟨rfl, rfl⟩ := hfail
    exact ⟨fun _ => rfl, fun hne => absurd rfl (hne _ _)⟩
  · obtain ⟨rfl, rfl⟩ := hfail
    refine ⟨fun ⟨n, m, he⟩ => absurd (congrArg Except.error he) (hb.enough n m), fun _ => ?_⟩
    obtain ⟨ds, hd, hc⟩ := hb.deeds
    refine ⟨tornDown_shutdown (hb.inv hi), before, calls ds, rfl, ?_, hc, calls_shutdown (hb.inv hi)⟩
    rw [← calls_append, ← hd]

/-- a profile whose keys are all zero -/
def zeroProfile : Profile where
  interface := { privateKey := String.ofList Key.zero.text }
  peer := { publicKey := String.ofList Key.zero.text }

/-- an outside where all is granted except the socket of a front -/
def withoutFront : Outside where
  startTunnel _ _ _ := .ok ()
  bindRelay _ a := .ok a
  dialRelay _ _ _ := .ok ()
  bindProxy _ c := .error (.bind c.listen .addressInUse)
  transport := none

/-- a chain whose front is refused: both tunnels are up by then, the relay is joined and they are stopped -/
theorem teardown_of_chain_without_front :
    let o := (new .chained {} false).start withoutFront .standardBind [.standardBind, .standardBind]
      ⟨zeroProfile, some zeroProfile⟩
    TornDown o.2 ∧ handedOut o.2.deeds = [1, 2] ∧
      (calls o.2.deeds).drop 5 = [.joinRelay, .stopTunnel 2, .stopTunnel 1] := by
  intro o
  have he : o.1 = .error (.proxy (.bind .standardBind .addressInUse)) := by rfl
  have h := (teardown_over_any_history withoutFront .chained {} false []).2.2 .standardBind
    [.standardBind, .standardBind] ⟨zeroProfile, some zeroProfile⟩ _ o.2 (Prod.ext he rfl)
  exact ⟨(h.2 (by simp)).1, by decide +kernel, by decide +kernel⟩

end Orchestrator

end EdgeTunnel
