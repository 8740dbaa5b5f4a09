/-
When a start that succeeds also serves.

A start looks at everything but its token. Building leaves the token as it is (`canceled_build`), so a front begins with the
token as the history before it has left it: `fires` says which operation fires it, and it stays fired (`canceled_run`).

- `start_serves`: a start that succeeds leaves a front, which serves until the next cancellation when nothing has fired the
  token so far, and never accepts a connection otherwise.
- `start_without_service`: after a shutdown, after a start that failed, and under a run that was canceled before, a start
  succeeds and nothing is served.
-/
import EdgeTunnel.Proofs.Orchestrator.Wiring
import EdgeTunnel.Proofs.Proxy.AcceptLoop

namespace EdgeTunnel.Orchestrator

/-! ## Building leaves the token alone -/

theorem canceled_andThen {α β : Type} {o : Orchestrator} {s : Step α} {next : α → Orchestrator → Step β}
    (hs : s.2.canceled = o.canceled) (hn : ∀ a o', (next a o').2.canceled = o'.canceled) :
    (andThen s next).2.canceled = o.canceled := by
  rcases s with ⟨e | a, o'⟩
  · exact hs
  · exact (hn a o').trans hs

section
variable (w : Outside) (o : Orchestrator)

theorem canceled_startTunnel (name : String) (profile : Profile) (endpoint : SocketAddress) (mtu : Nat) (keepalive : Span)
    (obfuscate : Bool) : (o.startTunnel w name profile endpoint mtu keepalive obfuscate).2.canceled = o.canceled := by
  simp only [startTunnel]
  split
  · rfl
  · split
    · rfl
    · rfl

theorem canceled_startRelay (index : Nat) (remote : SocketAddress) (mtu : Nat) :
    (o.startRelay w index remote mtu).2.canceled = o.canceled := by
  simp only [startRelay]
  split_ifs
  · rfl
  · split
    · rfl
    · split
      · rfl
      · rfl

theorem canceled_obfuscated (region : Region) (bind endpoint : SocketAddress) (p : Profiles) :
    (o.buildObfuscated w region bind endpoint p).2.canceled = o.canceled := by
  simp only [buildObfuscated]
  split
  · rfl
  · refine canceled_andThen (canceled_startTunnel ..) fun _ o₁ => canceled_andThen (canceled_startProxy ..) fun _ o₂ => ?_
    split
    · rfl
    · rename_i remark _
      cases remark with
      | none => rfl
      | some text => rfl

theorem canceled_chained (bind first second : SocketAddress) (p : Profiles) :
    (o.buildChained w bind first second p).2.canceled = o.canceled := by
  simp only [buildChained]
  split
  · rfl
  · exact canceled_andThen (canceled_startTunnel ..) fun _ _ => canceled_andThen (canceled_startRelay ..) fun _ _ =>
      canceled_andThen (canceled_startTunnel ..) fun _ _ => canceled_startProxy ..

/-- **Building leaves the token as it is**, whether it succeeds or not. -/
theorem canceled_build (bind : SocketAddress) (endpoints : List SocketAddress) (p : Profiles) :
    (o.build w bind endpoints p).2.canceled = o.canceled := by
  unfold build
  split
  · exact canceled_andThen (canceled_startTunnel ..) fun _ _ => canceled_startProxy ..
  · exact canceled_obfuscated ..
  · exact canceled_chained ..
  · rfl

end

/-! ## Building ends with a front -/

theorem andThen_ok {α β : Type} {s : Step α} {next : α → Orchestrator → Step β} {b : β} {o' : Orchestrator}
    (h : andThen s next = (.ok b, o')) : ∃ a o₁, s = (.ok a, o₁) ∧ next a o₁ = (.ok b, o') := by
  rcases s with ⟨e | a, o₁⟩
  · cases h
  · exact ⟨a, o₁, rfl, h⟩

theorem front_startProxy {w : Outside} {o o' : Orchestrator} {listen a : SocketAddress} {index : Nat}
    (h : o.startProxy w listen index = (.ok a, o')) : o'.front = some a := by
  simp only [startProxy] at h
  split at h
  · cases h
  · cases h
    rfl

theorem front_remark (o : Orchestrator) (text : Option String) : (o.remark text).front = o.front := by
  cases text with
  | none => rfl
  | some text => rfl

/-- **A topology that is built has a front.** -/
theorem front_build {w : Outside} {o o' : Orchestrator} {bind a : SocketAddress} {endpoints : List SocketAddress}
    {p : Profiles} (h : o.build w bind endpoints p = (.ok a, o')) : o'.front.isSome = true := by
  unfold build at h
  split at h
  · obtain ⟨tunnel, o₁, -, hproxy⟩ := andThen_ok h
    rw [front_startProxy hproxy, Option.isSome_some]
  · simp only [buildObfuscated] at h
    split at h
    · cases h
    · obtain ⟨tunnel, o₁, -, h⟩ := andThen_ok h
      obtain ⟨proxy, o₂, hproxy, h⟩ := andThen_ok h
      split at h
      · cases h
      · cases h
        rw [log, front_remark, ask, front_startProxy hproxy, Option.isSome_some]
  · simp only [buildChained] at h
    split at h
    · cases h
    · obtain ⟨outer, o₁, -, h⟩ := andThen_ok h
      obtain ⟨relay, o₂, -, h⟩ := andThen_ok h
      obtain ⟨inner, o₃, -, hproxy⟩ := andThen_ok h
      rw [front_startProxy hproxy, Option.isSome_some]
  · cases h

theorem start_ok {w : Outside} {o o' : Orchestrator} {bind a : SocketAddress} {endpoints : List SocketAddress}
    {p : Profiles} (h : o.start w bind endpoints p = (.ok a, o')) :
    o'.front.isSome = true ∧ o'.canceled = o.canceled := by
  unfold start at h
  dsimp only at h
  split at h
  · cases h
  · split at h
    · rename_i hbuild
      cases h
      refine ⟨front_build hbuild, ?_⟩
      have hcanceled := canceled_build w (o.log .info
        s!"Starting {o.topology} topology via {addressList (endpoints.take o.topology.endpointsNeeded)}") bind endpoints p
      rw [hbuild] at hcanceled
      exact hcanceled
    · cases h

/-! ## What fires the token -/

/-- does an operation fire the token? A start does when it fails, except for want of endpoints. -/
def fires (w : Outside) (o : Orchestrator) : Op → Bool
  | .start bind endpoints p =>
    match (o.start w bind endpoints p).1 with
    | .ok _ => false
    | .error (.notEnoughEndpoints _ _) => false
    | .error _ => true
  | .shutdown => true
  | .cancel => true

/-- does one of these operations, from the first on, fire the token? -/
def firesAny (w : Outside) (o : Orchestrator) : List Op → Bool
  | [] => false
  | op :: ops => o.fires w op || firesAny w (o.step w op) ops

theorem canceled_step (w : Outside) (o : Orchestrator) (op : Op) :
    (o.step w op).canceled = (o.canceled || o.fires w op) := by
  cases op with
  | start bind endpoints p =>
    rcases start_cases w o bind endpoints p with h | ⟨a, o', -, h⟩ | ⟨e, before, hb, h⟩
    · simp only [step, fires, h, Bool.or_false]
    · simp only [step, fires, h, Bool.or_false, (start_ok h).2]
    · have hfires : o.fires w (.start bind endpoints p) = true := by
        simp only [fires, h]
        split
        · rename_i heq
          cases heq
        · rename_i n m heq
          exact absurd heq (hb.enough n m)
        · rfl
      simp only [step, h, hfires, Bool.or_true, shutdown_eq]
  | shutdown => simp only [step, fires, shutdown_eq, Bool.or_true]
  | cancel => simp only [step, fires, Bool.or_true]

/-- **The token is as its history has left it**: fired once, it stays fired. -/
theorem canceled_run (w : Outside) (o : Orchestrator) (ops : List Op) :
    (o.run w ops).canceled = (o.canceled || o.firesAny w ops) := by
  induction ops generalizing o with
  | nil => rw [firesAny, Bool.or_false]; rfl
  | cons op ops ih =>
    have hrun : o.run w (op :: ops) = (o.step w op).run w ops := rfl
    rw [hrun, ih, canceled_step, firesAny, Bool.or_assoc]

/-! ## The results -/

/-- **When a start that succeeds also serves.** After every history of starts, shutdowns and cancellations, whatever the
outside answers, a start that succeeds leaves a front. When the run was not canceled before and nothing in that history has
fired the token, the front serves until it is canceled; otherwise it never accepts a connection and closes its socket as soon
as it looks. -/
theorem start_serves (w : Outside) (topology : Topology) (proxy : ProxySettings) (canceled : Bool) (ops : List Op)
    {bind a : SocketAddress} {endpoints : List SocketAddress} {p : Profiles} {o' : Orchestrator}
    (hstart : ((new topology proxy canceled).run w ops).start w bind endpoints p = (.ok a, o')) :
    let fired := canceled || (new topology proxy canceled).firesAny w ops
    o'.front.isSome = true ∧ o'.canceled = fired ∧ o'.isServing = !fired ∧
      (fired = false → ∀ (c : Proxy.Config) (es : List Proxy.FrontEvent), (∀ e ∈ es, e ≠ .cancel) →
        Proxy.Front.Serves c ((Proxy.Front.new c o'.canceled).run es)) ∧
      (fired = true → ∀ (c : Proxy.Config) (es : List Proxy.FrontEvent),
        ((Proxy.Front.new c o'.canceled).run es).accepted = 0 ∧
          (((Proxy.Front.new c o'.canceled).run es).step .look).isListening = false) := by
  intro fired
  obtain ⟨hfront, hkept⟩ := start_ok hstart
  have hcanceled : o'.canceled = fired := hkept.trans (canceled_run w _ ops)
  refine ⟨hfront, hcanceled, by rw [isServing, hfront, hcanceled, Bool.true_and], fun hfired c es hes => ?_,
    fun hfired c es => ?_⟩
  · rw [hcanceled, hfired]
    exact Proxy.Front.serves_until_canceled c hes
  · rw [hcanceled, hfired]
    obtain ⟨haccepted, -, hclosed⟩ := Proxy.Front.never_accepts c es
    exact ⟨haccepted, hclosed⟩

/-- the first start of an orchestrator serves -/
theorem first_start_serves :
    let s := (new .direct {} false).start withoutDial .standardBind [.of .loopback 2408] ⟨zeroProfile, none⟩
    s.1 = .ok .standardBind ∧ s.2.isServing = true ∧
      Proxy.Front.Serves {} ((Proxy.Front.new {} s.2.canceled).run [.look, .acquire]) := by
  intro s
  have hok : s.1 = .ok .standardBind := by decide +kernel
  obtain ⟨-, -, hserving, hserves, -⟩ := start_serves withoutDial .direct {} false [] (Prod.ext hok (rfl : s.2 = s.2))
  exact ⟨hok, hserving, hserves rfl {} [.look, .acquire] (by simp)⟩

/-- an outside where all is granted, except the socket of a front at first -/
def lateFront : Outside where
  startTunnel _ _ _ := .ok ()
  bindRelay _ a := .ok a
  dialRelay _ _ _ := .ok ()
  bindProxy k c := if k < 5 then .error (.bind c.listen .addressInUse) else .ok c.listen
  transport := none

/-- **A start that succeeds and does not serve**: after a shutdown, after a start that failed, and under a run that was
canceled before. No event makes its front accept a connection. -/
theorem start_without_service :
    let start : Op := .start .standardBind [.of .loopback 2408] ⟨zeroProfile, none⟩
    let again (w : Outside) (canceled : Bool) (ops : List Op) :=
      ((new .direct {} canceled).run w ops).start w .standardBind [.of .loopback 2408] ⟨zeroProfile, none⟩
    ∀ s ∈ [again withoutDial false [start, .shutdown], again lateFront false [start], again withoutDial true []],
      s.1 = .ok .standardBind ∧ s.2.front = some .standardBind ∧ s.2.isServing = false ∧
        ∀ (c : Proxy.Config) (es : List Proxy.FrontEvent), ((Proxy.Front.new c s.2.canceled).run es).accepted = 0 := by
  intro start again s hs
  have hfired : s.1 = .ok .standardBind ∧ s.2.front = some .standardBind ∧ s.2.canceled = true := by
    simp only [List.mem_cons, List.not_mem_nil, or_false] at hs
    rcases hs with rfl | rfl | rfl
    · decide +kernel
    · decide +kernel
    · decide +kernel
  obtain ⟨hok, hfront, hcanceled⟩ := hfired
  refine ⟨hok, hfront, by rw [isServing, hcanceled, Bool.not_true, Bool.and_false], fun c es => ?_⟩
  rw [hcanceled]
  exact (Proxy.Front.never_accepts c es).1

end EdgeTunnel.Orchestrator
