import WorkflowGraph.Proofs.Mirroring

/-!
# Runners that mirror each other

Two runners are `Runner.Twins` if their machines are and they differ in nothing else but their
addresses.  Nobody can tell twins apart (`Runner.Twins.indistinct`).  Whatever they are told, they
report the same and stay twins, and the chronicle of one is that of the other with the addresses
renamed (`Mirror.order` for one order, `Mirror.orders` for a sequence of them).
-/

namespace WorkflowGraph

variable {σ : Nat → Nat} {g : Graph} {n : Nat} {p : g.Conduct (Deed.Foreign n)}

/-! ## What can be seen of a runner -/

/-- Nothing that a host can see of a runner, its histories and its times apart, is different in the
other one. -/
structure Runner.Indistinct (r r' : Runner) : Prop where
  isRunning : r'.machine.isRunning = r.machine.isRunning
  current : r'.machine.current = r.machine.current
  previous : r'.machine.previous = r.machine.previous
  frame : r'.machine.frame = r.machine.frame
  blackboard : r'.machine.session.context.blackboard = r.machine.session.context.blackboard
  requested : r'.machine.session.context.requested = r.machine.session.context.requested
  subscriptions :
    r'.machine.session.context.subscriptions = r.machine.session.context.subscriptions
  pending : r'.pending = r.pending
  enabled : r'.enabled = r.enabled
  paused : r'.paused = r.paused
  timeScale : r'.timeScale = r.timeScale
  count : ∀ event, r'.hub.bus.count event = r.hub.bus.count event
  total : r'.hub.bus.total = r.hub.bus.total
  journal : r'.hub.journal = r.hub.journal

namespace Order

/-- What a runner reports when it is told something, if that is a tick. -/
def report : Order → Runner → Option Report
  | .tick deltaTime, r => (r.tick deltaTime).1
  | .step deltaTime, r => some (r.step deltaTime).1
  | .machine (.tick deltaTime), r => some (r.machine.tick deltaTime).1
  | _, _ => none

/-- What a runner reports when it is told one thing after the other. -/
def reports : List Order → Runner → List (Option Report)
  | [], _ => []
  | o :: rest, r => o.report r :: reports rest (o.perform r)

/-- The order given for the renamed contexts and runners. -/
def rename (σ : Nat → Nat) : Order → Order
  | .machine c => .machine (c.rename σ)
  | o => o

lemma HostMay.rename_eq (fixes : ∀ k < n, σ k = k) {o : Order}
    (host : o.HostMay (Deed.Foreign n)) : o.rename σ = o := by
  cases o with
  | machine c =>
      cases c with
      | host d => rw [rename, Command.rename, Deed.Foreign.rename_eq fixes host]
      | _ => rfl
  | _ => rfl

end Order

/-- The second runner is the first one at another address, with a twin of its machine. -/
inductive Runner.Twins (g : Graph) (σ : Nat → Nat) (r : Runner) : Runner → Prop
  | mk {m' : Machine} (machine : r.machine.Twins g σ False m') :
      Runner.Twins g σ r { r with machine := m', address := σ r.address }

namespace Runner.Twins

variable {r r' : Runner}

lemma of_eq (machine : r.machine.Twins g σ False r'.machine) (haddress : r'.address = σ r.address)
    (hbindings : r'.bindings = r.bindings) (hoverrides : r'.overrides = r.overrides)
    (htokens : r'.tokens = r.tokens) (henabled : r'.enabled = r.enabled)
    (hpaused : r'.paused = r.paused) (htimeScale : r'.timeScale = r.timeScale) :
    r.Twins g σ r' := by
  obtain ⟨_, _, _, _, _, _, _, _⟩ := r'
  subst haddress hbindings hoverrides htokens henabled hpaused htimeScale
  exact ⟨machine⟩

lemma machine_twins (twins : r.Twins g σ r') : r.machine.Twins g σ False r'.machine := by
  obtain ⟨machine⟩ := twins
  exact machine

lemma setup_eq (twins : r.Twins g σ r') :
    r'.address = σ r.address ∧ r'.bindings = r.bindings ∧ r'.overrides = r.overrides ∧
      r'.tokens = r.tokens ∧ r'.enabled = r.enabled := by
  obtain ⟨-⟩ := twins
  exact ⟨rfl, rfl, rfl, rfl, rfl⟩

lemma hub_twins (twins : r.Twins g σ r') : r.hub.Twins σ r'.hub :=
  twins.machine_twins.session_twins.hub_twins

lemma pending_eq (twins : r.Twins g σ r') : r'.pending = r.pending := by
  have hub := twins.hub_twins
  obtain ⟨machine⟩ := twins
  exact hub.queue r.address

lemma indistinct (twins : r.Twins g σ r') : r.Indistinct r' := by
  have hpending := twins.pending_eq
  have hub := twins.hub_twins
  obtain ⟨⟨graph, session⟩⟩ := twins
  obtain ⟨-, -⟩ := id session
  exact ⟨rfl, rfl, rfl, rfl, rfl, rfl, rfl, hpending, rfl, rfl, rfl, hub.count, hub.total,
    hub.journal⟩

lemma withMachine (twins : r.Twins g σ r') {m m' : Machine} (machine : m.Twins g σ False m') :
    { r with machine := m }.Twins g σ { r' with machine := m' } := by
  obtain ⟨-⟩ := twins
  exact ⟨machine⟩

/-! ## Enabling and disabling -/

lemma subscribeAll {h h' : Hub} (hub : h.Twins σ h') (address : Nat) (bindings : List Binding) :
    (Runner.subscribeAll (σ address) h' bindings).1 = (Runner.subscribeAll address h bindings).1 ∧
      (Runner.subscribeAll address h bindings).2.Twins σ
        (Runner.subscribeAll (σ address) h' bindings).2 := by
  induction bindings generalizing h h' with
  | nil => exact ⟨rfl, hub⟩
  | cons b rest ih =>
      obtain ⟨htoken, hhub⟩ := hub.subscribe b.event (.enqueue address b.target)
      obtain ⟨htokens, hlast⟩ := ih hhub
      exact ⟨congrArg₂ List.cons htoken htokens, hlast⟩

lemma onSession (twins : r.Twins g σ r') {f f' : Session → Session}
    (session : (f r.machine.session).Twins σ False (f' r'.machine.session)) :
    (r.onSession f).Twins g σ (r'.onSession f') := by
  obtain ⟨machine⟩ := twins
  exact ⟨machine.onSession session⟩

lemma onHub (twins : r.Twins g σ r') {f f' : Hub → Hub} (hub : (f r.hub).Twins σ (f' r'.hub)) :
    (r.onSession fun s => s.onHub f).Twins g σ (r'.onSession fun s => s.onHub f') :=
  twins.onSession (twins.machine_twins.session_twins.onHub hub)

lemma withTokens (twins : r.Twins g σ r') {tokens tokens' : List Token} (same : tokens' = tokens)
    (enabled : Bool) :
    { r with tokens, enabled }.Twins g σ { r' with tokens := tokens', enabled } := by
  subst same
  obtain ⟨machine⟩ := twins
  exact ⟨machine⟩

lemma enable (twins : r.Twins g σ r') : r.enable.Twins g σ r'.enable := by
  obtain ⟨haddress, hbindings, -, htokens, henabled⟩ := twins.setup_eq
  obtain ⟨hnew, hhub⟩ := subscribeAll twins.hub_twins r.address r.bindings
  rw [Runner.enable, Runner.enable, henabled]
  split
  · exact twins
  · rw [haddress, hbindings, htokens]
    exact (twins.onHub hhub).withTokens (congrArg (r.tokens ++ ·) hnew) true

lemma disable (twins : r.Twins g σ r') : r.disable.Twins g σ r'.disable := by
  obtain ⟨-, -, -, htokens, henabled⟩ := twins.setup_eq
  rw [Runner.disable, Runner.disable, henabled]
  split
  · rw [htokens]
    exact (twins.onHub (twins.hub_twins.disposeEach r.tokens)).withTokens rfl false
  · exact twins

end Runner.Twins

namespace Mirror

open Machine Runner

variable {m m' : Machine} {r r' : Runner}

/-! ## What runners report -/

lemma enterAll (mirror : Mirror p σ) (twins : m.Twins g σ False m') (queued : List Guid) :
    (Runner.enterAll m' queued).1 = (Runner.enterAll m queued).1 ∧
      (Runner.enterAll m queued).2.Twins g σ False (Runner.enterAll m' queued).2 := by
  induction queued generalizing m m' with
  | nil => exact ⟨rfl, twins⟩
  | cons guid rest ih =>
      obtain ⟨-, hentered, hmachine⟩ := mirror.force twins guid .externalEvent
      obtain ⟨hcount, hlast⟩ := ih hmachine
      exact ⟨congrArg₂ (Bool.toNat · + ·) hentered hcount, hlast⟩

lemma clearPending (mirror : Mirror p σ) (twins : r.Twins g σ r') :
    r.clearPending.Twins g σ r'.clearPending := by
  rw [Runner.clearPending, Runner.clearPending, twins.setup_eq.1]
  exact twins.onHub (twins.hub_twins.clearQueue mirror.injective r.address)

lemma step (mirror : Mirror p σ) (twins : r.Twins g σ r') (deltaTime : Float32) :
    (r'.step deltaTime).1 = (r.step deltaTime).1 ∧
      (r.step deltaTime).2.Twins g σ (r'.step deltaTime).2 := by
  have hpending := twins.pending_eq
  have hcleared := mirror.clearPending twins
  have hentered := mirror.enterAll hcleared.machine_twins r.pending
  obtain ⟨hcount, hmachine⟩ := hentered
  obtain ⟨-, hreport, hticked⟩ := mirror.tick hmachine (deltaTime * r.timeScale)
  obtain ⟨machine⟩ := twins
  simp only [Runner.step, Runner.drainPending, hpending]
  refine ⟨?_, ⟨hticked⟩⟩
  exact congrArg₂ (fun (report : Report) entered =>
    { report with transitions := report.transitions + entered }) hreport hcount

lemma seeded (mirror : Mirror p σ) (twins : r.Twins g σ r') : r.seeded.Twins g σ r'.seeded := by
  refine mirror.clearPending (twins.onSession ?_)
  obtain ⟨-, -, hoverrides, -⟩ := twins.setup_eq
  obtain ⟨hgraph, hgraph'⟩ := twins.machine_twins.graph_eq
  have hseeded := (twins.machine_twins.session_twins.perform mirror.injective
    (.seed (Entry.overlay r.machine.graph.defaults r.overrides))).perform mirror.injective .reset
  rw [hoverrides, hgraph', ← hgraph]
  exact hseeded

/-- Both runners are started, or run already. -/
lemma startRunner (mirror : Mirror p σ) (twins : r.Twins g σ r') :
    (r.start.1 = .ok () ∧ r'.start.1 = .ok ()) ∧ r.start.2.Twins g σ r'.start.2 := by
  have hrunning := twins.machine_twins.isRunning_eq
  cases hstate : r.machine.isRunning with
  | true =>
      rw [hstate] at hrunning
      simp only [Runner.start, hstate, hrunning, if_true]
      exact ⟨⟨trivial, trivial⟩, twins⟩
  | false =>
      rw [hstate] at hrunning
      have hseeded := mirror.seeded twins
      obtain ⟨-, started, started', hstart, hstart', hmachine⟩ :=
        mirror.start hseeded.machine_twins
      rw [start_of_ok hstate hstart, start_of_ok hrunning hstart']
      refine ⟨⟨rfl, rfl⟩, Runner.Twins.enable ?_⟩
      exact hseeded.withMachine hmachine

/-! ## What runners do to their machines -/

lemma enableCommands_eq (twins : r.Twins g σ r') :
    r'.enableCommands = r.enableCommands.map (Command.rename σ) := by
  obtain ⟨-⟩ := twins
  simp only [enableCommands]
  split
  · rfl
  · rw [List.map_map]
    rfl

lemma disableCommands_eq (twins : r.Twins g σ r') :
    r'.disableCommands = r.disableCommands.map (Command.rename σ) := by
  obtain ⟨-⟩ := twins
  simp only [disableCommands]
  split
  · rw [List.map_map]
    rfl
  · rfl

lemma stepCommands_eq (twins : r.Twins g σ r') (deltaTime : Float32) :
    r'.stepCommands deltaTime = (r.stepCommands deltaTime).map (Command.rename σ) := by
  have hpending := twins.pending_eq
  obtain ⟨-⟩ := twins
  rw [stepCommands, stepCommands, hpending, List.map_append, List.map_cons, List.map_map]
  rfl

lemma seedCommands_eq (twins : r.Twins g σ r') :
    r'.seedCommands = r.seedCommands.map (Command.rename σ) := by
  obtain ⟨haddress, -, hoverrides, -⟩ := twins.setup_eq
  obtain ⟨hgraph, hgraph'⟩ := twins.machine_twins.graph_eq
  rw [seedCommands, seedCommands, haddress, hoverrides, hgraph, hgraph']
  rfl

lemma startCommands_eq (mirror : Mirror p σ) (twins : r.Twins g σ r') :
    r'.startCommands = r.startCommands.map (Command.rename σ) := by
  obtain ⟨⟨hok, hok'⟩, -⟩ := mirror.startRunner twins
  have hseed := seedCommands_eq twins
  have henable := enableCommands_eq twins
  rcases hstart : r.start with ⟨result, started⟩
  rcases hstart' : r'.start with ⟨result', started'⟩
  rw [hstart] at hok
  rw [hstart'] at hok'
  subst hok
  subst hok'
  simp only [startCommands, hstart, hstart', twins.machine_twins.isRunning_eq, hseed, henable]
  split
  · rfl
  · rw [List.map_append, List.map_cons]
    rfl

/-- The second runner does the same to its machine as the first one, but for names. -/
lemma commands_eq (mirror : Mirror p σ) (twins : r.Twins g σ r') (o : Order) :
    (o.rename σ).commands r' = (o.commands r).map (Command.rename σ) := by
  have hstep := stepCommands_eq twins
  have hpaused : r'.paused = r.paused ∧ r'.timeScale = r.timeScale := by
    obtain ⟨-⟩ := twins
    exact ⟨rfl, rfl⟩
  cases o with
  | start => exact mirror.startCommands_eq twins
  | stop =>
      have hdisable := disableCommands_eq twins
      have haddress := twins.setup_eq.1
      simp only [Order.rename, Order.commands, stopCommands, hdisable, haddress]
      rfl
  | tick deltaTime =>
      simp only [Order.rename, Order.commands, hstep, hpaused]
      split <;> rfl
  | step deltaTime => exact hstep deltaTime
  | tickFixed fixedDeltaTime =>
      simp only [Order.rename, Order.commands, hpaused]
      split <;> rfl
  | stepFixed fixedDeltaTime =>
      simp only [Order.rename, Order.commands, hpaused]
      rfl
  | enable => exact enableCommands_eq twins
  | disable => exact disableCommands_eq twins
  | pause | resume | scaleTime => rfl
  | machine c => rfl

/-! ## Orders -/

lemma report_eq (mirror : Mirror p σ) (twins : r.Twins g σ r') (o : Order) :
    (o.rename σ).report r' = o.report r := by
  have hstep := fun deltaTime => (mirror.step twins deltaTime).1
  have hpaused : r'.paused = r.paused := by
    obtain ⟨-⟩ := twins
    rfl
  cases o with
  | tick deltaTime =>
      simp only [Order.rename, Order.report, Runner.tick, hpaused]
      split
      · rfl
      · exact congrArg some (hstep deltaTime)
  | step deltaTime => exact congrArg some (hstep deltaTime)
  | machine c =>
      cases c with
      | tick deltaTime => exact congrArg some (mirror.tick twins.machine_twins deltaTime).2.1
      | _ => rfl
  | _ => rfl

/-- Whatever twins are told, they stay twins. -/
lemma order (mirror : Mirror p σ) (twins : r.Twins g σ r')
    (settled : Command.Settled g r.machine) (o : Order) :
    (o.perform r).Twins g σ ((o.rename σ).perform r') := by
  have hpaused : r'.paused = r.paused := by
    obtain ⟨-⟩ := twins
    rfl
  have hfixed : ∀ t, (r.stepFixed t).Twins g σ (r'.stepFixed t) := by
    intro t
    obtain ⟨machine⟩ := twins
    exact ⟨(mirror.tickFixed machine (t * r.timeScale)).2⟩
  cases o with
  | start => exact (mirror.startRunner twins).2
  -- The machine is torn down first, then the queue is emptied, then the bindings are disabled.
  | stop =>
      have hstopped := twins.withMachine (mirror.stop twins.machine_twins).2
      exact (mirror.clearPending hstopped).disable
  | enable => exact twins.enable
  | disable => exact twins.disable
  | step deltaTime => exact (mirror.step twins deltaTime).2
  | stepFixed fixedDeltaTime => exact hfixed fixedDeltaTime
  | tick deltaTime =>
      simp only [Order.rename, Order.perform, Runner.tick, hpaused]
      split
      · exact twins
      · exact (mirror.step twins deltaTime).2
  | tickFixed fixedDeltaTime =>
      simp only [Order.rename, Order.perform, Runner.tickFixed, hpaused]
      split
      · exact twins
      · exact hfixed fixedDeltaTime
  | pause | resume | scaleTime =>
      obtain ⟨machine⟩ := twins
      exact ⟨machine⟩
  | machine c => exact twins.withMachine (mirror.command twins.machine_twins settled c).2

lemma moments_eq (mirror : Mirror p σ) (twins : r.Twins g σ r')
    (settled : Command.Settled g r.machine) (o : Order) :
    (o.rename σ).moments p.deeds r' = (o.moments p.deeds r).map (Moment.rename σ) := by
  have hcommands := mirror.commands_eq twins o
  have hown := (mirror.ownChronicle twins.machine_twins settled (o.commands r)).1
  rw [← hcommands] at hown
  cases o with
  | machine c => exact (mirror.command twins.machine_twins settled c).1
  | _ => exact hown

/-- Whatever twins are told one after the other, the calls of nodes and what they find, the reports,
and in the end what can be seen of the runners are the same.  By induction on the orders. -/
lemma orders (mirror : Mirror p σ) (twins : r.Twins g σ r')
    (settled : Command.Settled g r.machine) (orders : List Order)
    (host : ∀ o ∈ orders, o.HostMay (Deed.Foreign n)) :
    Order.chronicle p.deeds orders r' = (Order.chronicle p.deeds orders r).map (Moment.rename σ) ∧
      Order.reports orders r' = Order.reports orders r ∧
      (Order.performAll orders r).Twins g σ (Order.performAll orders r') := by
  induction orders generalizing r r' with
  | nil => exact ⟨rfl, rfl, twins⟩
  | cons o rest ih =>
      -- Orders name no address but those of others, so both runners are told the same.
      have hsame : o.rename σ = o :=
        Order.HostMay.rename_eq mirror.fixes (host o List.mem_cons_self)
      have hmoments := mirror.moments_eq twins settled o
      have hreport := mirror.report_eq twins o
      have hnext := mirror.order twins settled o
      rw [hsame] at hmoments hreport hnext
      obtain ⟨hchronicle, hreports, hlast⟩ := ih hnext (Order.session_perform settled p o).1
        fun k hk => host k (List.mem_cons_of_mem o hk)
      refine ⟨?_, congrArg₂ List.cons hreport hreports, hlast⟩
      rw [Order.chronicle, Order.chronicle, List.map_append, hmoments, hchronicle]

end Mirror
end WorkflowGraph
