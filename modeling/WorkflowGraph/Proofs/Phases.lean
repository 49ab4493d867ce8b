import WorkflowGraph.Proofs.Bindings
import WorkflowGraph.Proofs.RunnerChronicle

/-!
# The phases of an order

Whatever a runner is told, it works on its machine first and changes what it has on the bus last:
a start ends with the registration of the bindings, a stop with the end of the registrations.
`Order.phases_perform` says so for all orders, and what is preserved by the work on the machine
(`Runner.Tends`), by enabling and by disabling is preserved by every order.
-/

namespace WorkflowGraph

open Command

variable {g : Graph} {Allowed : Deed → Prop}

namespace Command

lemma manages_of_tends {d : Deed}
    (h : d.Tends ∨ (∃ n, d = .releaseNode n) ∨ (∃ n, d = .place n) ∨ d = .dispose) :
    d.Manages := by
  rcases h with htends | ⟨n, rfl⟩ | ⟨n, rfl⟩ | rfl
  · cases d <;> trivial
  · trivial
  · trivial
  · trivial

lemma manages_of_mem_ownChronicle {m : Machine} (settled : Settled g m) (p : g.Conduct Allowed)
    {commands : List Command} (own : ∀ d, .host d ∈ commands → d.Manages) {d : Deed}
    (h : .managed d ∈ ownChronicle p.deeds commands m) : d.Manages :=
  (of_managed_mem_ownChronicle settled p h).elim (own d) manages_of_tends

end Command

namespace Runner

/-- By the moments the runner comes to the next one without touching its bindings. -/
inductive Tends (r : Runner) (moments : List Moment) : Runner → Prop
  | mk {m : Machine} {paused : Bool} {timeScale : Float32}
      (session : m.session = Moment.replayAll moments r.machine.session)
      (manages : ∀ d, .managed d ∈ moments → d.Manages) :
      Tends r moments { r with machine := m, paused, timeScale }

lemma Tends.refl (r : Runner) : r.Tends [] r := ⟨rfl, nofun⟩

lemma Tends.address_eq {r next : Runner} {moments : List Moment} (tends : r.Tends moments next) :
    next.address = r.address := by
  obtain ⟨-, -⟩ := tends
  rfl

/-- By the moments the runner comes to the next one, and its bindings are enabled or disabled at
the end only. -/
inductive Phases (deeds : Guid → Phase → Session → List Deed) (r : Runner) :
    List Moment → Runner → Prop
  | tends {moments : List Moment} {next : Runner} (tends : r.Tends moments next) :
      Phases deeds r moments next
  | enables {moments : List Moment} {next : Runner} (tends : r.Tends moments next) :
      Phases deeds r (moments ++ ownChronicle deeds next.enableCommands next.machine) next.enable
  | disables {moments : List Moment} {next : Runner} (tends : r.Tends moments next) :
      Phases deeds r (moments ++ ownChronicle deeds next.disableCommands next.machine) next.disable

/-- The runner whose machine has been given commands. -/
def commanded (r : Runner) (commands : List Command) : Runner :=
  { r with machine := performAll commands r.machine }

lemma tends_commanded {r : Runner} (settled : Settled g r.machine) (p : g.Conduct Allowed)
    {commands : List Command} (own : ∀ d, .host d ∈ commands → d.Manages) :
    r.Tends (ownChronicle p.deeds commands r.machine) (r.commanded commands) :=
  ⟨(session_ownChronicle settled p commands).2,
    fun _ hd => manages_of_mem_ownChronicle settled p own hd⟩

/-- What a runner does of its own to the session of its machine. -/
inductive Arranges (r : Runner) : Deed → Prop
  | seed : Arranges r (.seed (Entry.overlay r.machine.graph.defaults r.overrides))
  | reset : Arranges r .reset
  | clearQueue : Arranges r (.clearQueue r.address)
  /-- A binding is registered. -/
  | connect (b : Binding) : Arranges r (.connect b.event (.enqueue r.address b.target))
  /-- A registration of a binding is ended. -/
  | disposeToken (token : Token) : Arranges r (.disposeToken token)

/-- A start ends with the registration of the bindings, if the machine has been started. -/
lemma start_eq {r : Runner} (resting : r.machine.isRunning = false) :
    ∃ last : List Command, r.startCommands = r.seedCommands ++ [.start] ++ last ∧
      ((last = r.enableCommands ∧
          r.start.2 = (r.commanded (r.seedCommands ++ [.start])).enable) ∨
        (last = [] ∧ r.start.2 = r.commanded (r.seedCommands ++ [.start]))) := by
  have hmachine : performAll (r.seedCommands ++ [.start]) r.machine =
      r.seeded.machine.start.toOption.getD r.seeded.machine := by
    rw [Command.performAll_append, ← machine_seeded]
    rfl
  unfold startCommands
  simp only [resting, Bool.false_eq_true, if_false]
  -- The bindings are enabled at the end of a start that succeeds, and of no other.
  cases hstart : r.seeded.machine.start with
  | ok machine =>
      rw [hstart] at hmachine
      refine ⟨r.enableCommands, ?_, .inl ⟨rfl, ?_⟩⟩
      · rw [start_of_ok resting hstart, List.append_assoc]
        rfl
      · have hstarted : { r.seeded with machine } = r.commanded (r.seedCommands ++ [.start]) := by
          rw [commanded, hmachine]
          rfl
        rw [start_of_ok resting hstart, hstarted]
  | error e =>
      rw [hstart] at hmachine
      refine ⟨[], ?_, .inr ⟨rfl, ?_⟩⟩
      · rw [start_of_error resting hstart, List.append_nil]
      · rw [start_of_error resting hstart, commanded, hmachine]
        rfl

lemma manages_seedCommands (r : Runner) :
    ∀ d, .host d ∈ r.seedCommands ++ [Command.start] → d.Manages := by
  intro d hd
  simp only [seedCommands, List.cons_append, List.nil_append, List.mem_cons, Command.host.injEq,
    reduceCtorEq, List.not_mem_nil, or_self, or_false] at hd
  rcases hd with rfl | rfl | rfl <;> trivial

lemma manages_stepCommands (r : Runner) (deltaTime : Float32) :
    ∀ d, .host d ∈ r.stepCommands deltaTime → d.Manages := by
  intro d hd
  simp only [stepCommands, List.cons_append, List.mem_cons, Command.host.injEq, List.mem_append,
    List.mem_map, reduceCtorEq, and_false, exists_false, List.not_mem_nil, or_self, or_false] at hd
  subst hd
  trivial

lemma exists_of_mem_enableCommands {r : Runner} {c : Command} (h : c ∈ r.enableCommands) :
    ∃ b : Binding, c = .host (.connect b.event (.enqueue r.address b.target)) := by
  unfold enableCommands at h
  split at h
  · cases h
  · obtain ⟨b, -, rfl⟩ := List.mem_map.mp h
    exact ⟨b, rfl⟩

lemma exists_of_mem_disableCommands {r : Runner} {c : Command} (h : c ∈ r.disableCommands) :
    ∃ token, c = .host (.disposeToken token) := by
  unfold disableCommands at h
  split at h
  · obtain ⟨token, -, rfl⟩ := List.mem_map.mp h
    exact ⟨token, rfl⟩
  · cases h

/-! ## Enabling and disabling -/

/-- Registering the handlers of bindings: the new registrations, of which there were none
before. -/
lemma exists_subscribeAll (address : Nat) (h : Hub) (bindings : List Binding) :
    ∃ new : List (Registration Handler),
      (subscribeAll address h bindings).2 =
        { h with bus :=
          { registrations := h.bus.registrations ++ new
            nextId := h.bus.nextId + bindings.length } } ∧
      (subscribeAll address h bindings).1 = new.map (·.token) ∧
      (new.filterMap fun r =>
        (r.handler.target? address).map fun target => (⟨r.token.event, target⟩ : Binding)) =
          bindings ∧
      ∀ r ∈ new, (r.handler.target? address).isSome ∧ h.bus.nextId ≤ r.token.id ∧
        r.token.id < h.bus.nextId + bindings.length := by
  induction bindings generalizing h with
  | nil => exact ⟨[], by simp [subscribeAll], rfl, rfl, nofun⟩
  | cons b rest ih =>
      -- The others are registered on the hub that this registration leaves, with ids from the next
      -- one on.
      obtain ⟨new, hhub, htokens, hbindings, hnew⟩ :=
        ih (h.subscribe b.event (.enqueue address b.target)).2
      have htarget : (Handler.enqueue address b.target).target? address = some b.target :=
        if_pos rfl
      refine ⟨⟨⟨h.bus.nextId, b.event⟩, .enqueue address b.target⟩ :: new, ?_, ?_, ?_, ?_⟩
      · rw [subscribeAll]
        simp only [hhub]
        simp [Hub.subscribe, Bus.subscribe, Nat.add_comm, Nat.add_left_comm]
      · rw [subscribeAll]
        simp only [htokens]
        rfl
      · rw [List.filterMap_cons, htarget, hbindings]
        rfl
      · intro r hr
        rw [List.length_cons]
        rcases List.mem_cons.mp hr with rfl | hr
        · refine ⟨by rw [htarget]; rfl, ?_, ?_⟩
          · exact Nat.le_refl h.bus.nextId
          · show h.bus.nextId < h.bus.nextId + (rest.length + 1)
            omega
        · obtain ⟨hsome, hlow, hhigh⟩ := hnew r hr
          have hnext : (h.subscribe b.event (.enqueue address b.target)).2.bus.nextId =
              h.bus.nextId + 1 := rfl
          rw [hnext] at hlow hhigh
          exact ⟨hsome, by omega, by omega⟩

lemma enable_of_enabled {r : Runner} (enabled : r.enabled = true) : r.enable = r := by
  rw [Runner.enable, if_pos enabled]

lemma disable_of_disabled {r : Runner} (disabled : r.enabled = false) : r.disable = r := by
  rw [Runner.disable, if_neg (by simp [disabled])]

/-- Enabling makes a registration for each binding and changes nothing else. -/
lemma exists_enable {r : Runner} (disabled : r.enabled = false) :
    ∃ new : List (Registration Handler),
      r.enable =
        { r with
          machine := r.machine.onSession fun s => s.onHub fun _ =>
            { r.hub with bus :=
              { registrations := r.hub.bus.registrations ++ new
                nextId := r.hub.bus.nextId + r.bindings.length } }
          tokens := r.tokens ++ new.map (·.token)
          enabled := true } ∧
      (new.filterMap fun r' =>
        (r'.handler.target? r.address).map fun target => (⟨r'.token.event, target⟩ : Binding)) =
          r.bindings ∧
      ∀ r' ∈ new, (r'.handler.target? r.address).isSome ∧ r.hub.bus.nextId ≤ r'.token.id ∧
        r'.token.id < r.hub.bus.nextId + r.bindings.length := by
  obtain ⟨new, hhub, htokens, hbindings, hnew⟩ := exists_subscribeAll r.address r.hub r.bindings
  refine ⟨new, ?_, hbindings, hnew⟩
  rw [Runner.enable, if_neg (by simp [disabled])]
  simp only [hhub, htokens]
  rfl

/-- Disabling ends the registrations of the runner and changes nothing else. -/
lemma disable_eq {r : Runner} (enabled : r.enabled = true) :
    r.disable =
      { r with
        machine := r.machine.onSession fun s => s.onHub fun _ =>
          { r.hub with bus := { r.hub.bus with
            registrations := r.hub.bus.registrations.filter fun r' =>
              !r.tokens.contains r'.token } }
        tokens := []
        enabled := false } := by
  have hended := Hub.disposeEach_eq r.hub r.tokens
  rw [Runner.disable, if_pos enabled]
  simp only [← hended]
  rfl

end Runner

namespace Order

open Runner

/-- What has been set about a runner stays as it is. -/
lemma setup_perform (o : Order) (r : Runner) :
    (o.perform r).address = r.address ∧ (o.perform r).bindings = r.bindings ∧
      (o.perform r).overrides = r.overrides := by
  have henable : ∀ r : Runner, r.enable.address = r.address ∧ r.enable.bindings = r.bindings ∧
      r.enable.overrides = r.overrides := by
    intro r
    unfold Runner.enable
    split <;> exact ⟨rfl, rfl, rfl⟩
  have hdisable : ∀ r : Runner, r.disable.address = r.address ∧
      r.disable.bindings = r.bindings ∧ r.disable.overrides = r.overrides := by
    intro r
    unfold Runner.disable
    split <;> exact ⟨rfl, rfl, rfl⟩
  cases o with
  | start =>
      cases hrunning : r.machine.isRunning with
      | true => simp [perform, Runner.start, hrunning]
      | false =>
          obtain ⟨last, -, ⟨-, hperform⟩ | ⟨-, hperform⟩⟩ := start_eq hrunning
          · rw [perform, hperform]
            exact henable _
          · rw [perform, hperform]
            exact ⟨rfl, rfl, rfl⟩
  | stop => exact hdisable _
  | enable => exact henable r
  | disable => exact hdisable r
  | tick deltaTime =>
      simp only [perform, Runner.tick]
      split <;> exact ⟨rfl, rfl, rfl⟩
  | tickFixed fixedDeltaTime =>
      simp only [perform, Runner.tickFixed]
      split <;> exact ⟨rfl, rfl, rfl⟩
  | step | stepFixed | pause | resume | scaleTime | machine => exact ⟨rfl, rfl, rfl⟩

lemma arranges_of_mem_stepCommands {r : Runner} {deltaTime : Float32} {d : Deed}
    (h : .host d ∈ r.stepCommands deltaTime) : r.Arranges d := by
  rcases List.mem_cons.mp h with hclear | hrest
  · cases hclear
    exact .clearQueue
  · simp at hrest

lemma arranges_of_mem_enableCommands {r : Runner} {d : Deed} (h : .host d ∈ r.enableCommands) :
    r.Arranges d := by
  obtain ⟨b, hb⟩ := exists_of_mem_enableCommands h
  exact Command.host.inj hb ▸ .connect b

lemma arranges_of_mem_disableCommands {r : Runner} {d : Deed} (h : .host d ∈ r.disableCommands) :
    r.Arranges d := by
  obtain ⟨token, htoken⟩ := exists_of_mem_disableCommands h
  exact Command.host.inj htoken ▸ .disposeToken token

lemma arranges_of_mem_startCommands {r : Runner} {d : Deed} (h : .host d ∈ r.startCommands) :
    r.Arranges d := by
  cases hrunning : r.machine.isRunning with
  | true => simp [startCommands, hrunning] at h
  | false =>
      obtain ⟨last, hcommands, hlast⟩ := start_eq hrunning
      rw [hcommands] at h
      rcases List.mem_append.mp h with hseed | hend
      · simp only [seedCommands, List.mem_append, List.mem_cons, List.not_mem_nil, or_false,
          Command.host.injEq, reduceCtorEq] at hseed
        rcases hseed with rfl | rfl | rfl
        · exact .seed
        · exact .reset
        · exact .clearQueue
      · rcases hlast with ⟨rfl, -⟩ | ⟨rfl, -⟩
        · exact arranges_of_mem_enableCommands hend
        · cases hend

/-- Unless the host asks for it, nothing is done to the session of a machine but what its runner
does of its own. -/
lemma arranges_of_mem_commands {o : Order} {r : Runner} {d : Deed} (h : .host d ∈ o.commands r) :
    o = .machine (.host d) ∨ r.Arranges d := by
  cases o with
  | machine c =>
      rw [commands, List.mem_singleton] at h
      exact .inl (h ▸ rfl)
  | start => exact .inr (arranges_of_mem_startCommands h)
  | stop =>
      rcases List.mem_cons.mp h with hstop | hrest
      · cases hstop
      · rcases List.mem_cons.mp hrest with hclear | hend
        · cases hclear
          exact .inr .clearQueue
        · exact .inr (arranges_of_mem_disableCommands hend)
  | enable => exact .inr (arranges_of_mem_enableCommands h)
  | disable => exact .inr (arranges_of_mem_disableCommands h)
  | step deltaTime => exact .inr (arranges_of_mem_stepCommands h)
  | tick deltaTime =>
      simp only [commands] at h
      split at h
      · cases h
      · exact .inr (arranges_of_mem_stepCommands h)
  | tickFixed fixedDeltaTime =>
      simp only [commands] at h
      split at h
      · cases h
      · cases List.mem_singleton.mp h
  | stepFixed fixedDeltaTime => cases List.mem_singleton.mp h
  | pause | resume | scaleTime => cases h

lemma setup_performAll (orders : List Order) (r : Runner) :
    (performAll orders r).address = r.address ∧ (performAll orders r).bindings = r.bindings ∧
      (performAll orders r).overrides = r.overrides := by
  induction orders generalizing r with
  | nil => exact ⟨rfl, rfl, rfl⟩
  | cons o rest ih =>
      obtain ⟨haddress, hbindings, hoverrides⟩ := setup_perform o r
      obtain ⟨haddress', hbindings', hoverrides'⟩ := ih (o.perform r)
      exact ⟨haddress'.trans haddress, hbindings'.trans hbindings, hoverrides'.trans hoverrides⟩

/-- At a start the machine is started first, and then the bindings are enabled. -/
lemma phases_start {r : Runner} (settled : Settled g r.machine) (p : g.Conduct Allowed) :
    r.Phases p.deeds (Order.start.moments p.deeds r) (Order.start.perform r) := by
  cases hrunning : r.machine.isRunning with
  | true =>
      have hstays : Order.start.perform r = r := by simp [perform, Runner.start, hrunning]
      have hmoments : Order.start.moments p.deeds r = [] := by
        simp [moments, commands, startCommands, hrunning, ownChronicle]
      rw [hstays, hmoments]
      exact .tends (.refl r)
  | false =>
      obtain ⟨last, hcommands, hlast⟩ := start_eq hrunning
      have hbegun := tends_commanded settled p (manages_seedCommands r)
      have hmoments : Order.start.moments p.deeds r =
          ownChronicle p.deeds (r.seedCommands ++ [.start]) r.machine ++
            ownChronicle p.deeds last (r.commanded (r.seedCommands ++ [.start])).machine := by
        show ownChronicle p.deeds r.startCommands r.machine = _
        rw [hcommands, ownChronicle_append]
        rfl
      rw [hmoments, perform]
      rcases hlast with ⟨rfl, hperform⟩ | ⟨rfl, hperform⟩
      · rw [hperform]
        exact .enables hbegun
      · rw [hperform, ownChronicle, List.append_nil]
        exact .tends hbegun

/-- At a stop the machine is stopped first, and then the bindings are disabled. -/
lemma phases_stop {r : Runner} (settled : Settled g r.machine) (p : g.Conduct Allowed) :
    r.Phases p.deeds (Order.stop.moments p.deeds r) (Order.stop.perform r) := by
  let stopping : List Command := [.stop, .host (.clearQueue r.address)]
  have hmoments : Order.stop.moments p.deeds r =
      ownChronicle p.deeds stopping r.machine ++
        ownChronicle p.deeds r.disableCommands (r.commanded stopping).machine :=
    ownChronicle_append p.deeds stopping r.disableCommands r.machine
  have hown : ∀ d, .host d ∈ stopping → d.Manages := by
    intro d hd
    simp only [stopping, List.mem_cons, reduceCtorEq, Command.host.injEq, List.not_mem_nil,
      or_false, false_or] at hd
    subst hd
    trivial
  rw [hmoments]
  exact .disables (tends_commanded settled p hown)

/-- The work on the machine comes first, whatever a runner is told. -/
lemma phases_perform {r : Runner} (settled : Settled g r.machine) (p : g.Conduct Allowed)
    (o : Order) : r.Phases p.deeds (o.moments p.deeds r) (o.perform r) := by
  have hfixed : ∀ t, r.Tends (ownChronicle p.deeds [Command.tickFixed t] r.machine)
      (r.commanded [Command.tickFixed t]) := by
    refine fun t => tends_commanded settled p fun d hd => ?_
    cases List.mem_singleton.mp hd
  have hstep : ∀ deltaTime, r.Tends (ownChronicle p.deeds (r.stepCommands deltaTime) r.machine)
      (r.step deltaTime).2 := by
    intro deltaTime
    have hcommanded := tends_commanded settled p (manages_stepCommands r deltaTime)
    rw [commanded, ← machine_step] at hcommanded
    exact hcommanded
  cases o with
  | start => exact phases_start settled p
  | stop => exact phases_stop settled p
  | enable => exact .enables (.refl r)
  | disable => exact .disables (.refl r)
  | step deltaTime => exact .tends (hstep deltaTime)
  | tick deltaTime =>
      simp only [perform, moments, commands, Runner.tick]
      split
      · exact .tends (.refl r)
      · exact .tends (hstep deltaTime)
  | tickFixed fixedDeltaTime =>
      simp only [perform, moments, commands, Runner.tickFixed]
      split
      · exact .tends (.refl r)
      · exact .tends (hfixed _)
  | stepFixed fixedDeltaTime => exact .tends (hfixed _)
  | pause | resume | scaleTime => exact .tends ⟨rfl, by rintro d ⟨⟩⟩
  | machine c =>
      exact .tends ⟨Command.session_perform settled p c,
        fun _ hd => manages_of_tends (of_managed_mem_moments settled p hd)⟩

end Order
end WorkflowGraph
