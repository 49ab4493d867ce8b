import WorkflowGraph.Proofs.Coherence
import WorkflowGraph.Proofs.Holdings
import WorkflowGraph.Proofs.RunnerMirroring

/-!
# Restarts

A runner that has been stopped and is started again cannot be told from a new one in its place
(`Order.restart_like_fresh`).

A start empties and overwrites what a run has left in the session, and sets the frame and the
current node before any node is called.  So what a start makes of a runner only depends on the
runner that is `Runner.ready` for it.  Where everything that a stopped runner has on the hub is
accounted for, its tokens and what its context tracks are all there is; with these gone, the runner
that is ready and its ready successor are twins under the renaming that makes room for the old
addresses.  Twins go on alike, whatever they are told.
-/

namespace WorkflowGraph

open Machine

/-- Makes room for two addresses, `n` and `n + 1`. -/
def shift (n k : Nat) : Nat := if k < n then k else k + 2

lemma shift_injective (n : Nat) : Function.Injective (shift n) := by
  intro a b h
  unfold shift at h
  split at h <;> split at h <;> omega

lemma shift_of_lt {n : Nat} : ∀ k < n, shift n k = k := fun _ h => if_pos h

lemma shift_of_le {n k : Nat} (h : n ≤ k) : shift n k = k + 2 := if_neg (Nat.not_lt.mpr h)

/-- A hub on which there is nothing from the address `n` on but an inbox and a queue that are
emptied, is renamed by making room. -/
lemma Hub.Tidy.twins {n : Nat} {h : Hub} (tidy : h.Tidy n)
    (foreign : ∀ r ∈ h.bus.registrations, r.handler.Foreign n) (next : Nat) :
    ((h.clearInbox (n + 1)).clearQueue n).Twins (shift n)
      (({ h with nextAddress := next }.clearInbox (n + 3)).clearQueue (n + 2)) := by
  refine ⟨?_, rfl, fun a => ?_, fun a => ?_, rfl⟩
  · have hfixed : ∀ r ∈ h.bus.registrations, r.rename (shift n) = r := by
      intro r hr
      rw [Registration.rename, (foreign r hr).rename_eq shift_of_lt]
    show h.bus.registrations = h.bus.registrations.map (Registration.rename (shift n))
    rw [List.map_congr_left hfixed, List.map_id']
  · show ({ h with nextAddress := next }.clearInbox (n + 3)).inbox (shift n a) =
      (h.clearInbox (n + 1)).inbox a
    rw [Hub.inbox_clearInbox, Hub.inbox_clearInbox]
    show (if n + 3 = shift n a then ∅ else h.inbox (shift n a)) = _
    -- Below the addresses of the runner nothing is shifted; from there on everything is empty.
    rcases Nat.lt_or_ge a n with hlow | hhigh
    · rw [shift_of_lt a hlow, if_neg (by omega), if_neg (by omega)]
    · rw [shift_of_le hhigh, tidy.inboxes (a + 2) (by omega) (by omega), ite_self]
      split
      · rfl
      · exact (tidy.inboxes a hhigh (by omega)).symm
  · show ({ h with nextAddress := next }.clearQueue (n + 2)).queue (shift n a) =
      (h.clearQueue n).queue a
    rw [Hub.queue_clearQueue, Hub.queue_clearQueue]
    show (if n + 2 = shift n a then [] else h.queue (shift n a)) = _
    rcases Nat.lt_or_ge a n with hlow | hhigh
    · rw [shift_of_lt a hlow, if_neg (by omega), if_neg (by omega)]
    · rw [shift_of_le hhigh, tidy.queues (a + 2) (by omega) (by omega), ite_self]
      split
      · rfl
      · exact (tidy.queues a hhigh (by omega)).symm

/-! ## What a start depends on -/

namespace Machine

/-- The machine as its start finds it: what is overwritten at once is blank. -/
def ready (m : Machine) : Machine :=
  { m.onSession (Deed.place none).perform with frame := 0 }

variable {m : Machine}

/-- The entry node is entered in the same way, whatever the context has called current. -/
lemma enter?_ready (rests : m.current = none) (entry : Guid) :
    m.ready.opened.enter? entry .start none = m.opened.enter? entry .start none := by
  obtain ⟨_, _, current, _⟩ := m
  obtain rfl : current = none := rests
  rfl

variable {g : Graph}

/-- On a graph without defects a start places the entry node first, and nothing else depends on
what is blank. -/
lemma start_ready (resting : Resting g m) (valid : g.defects = []) :
    ∃ started, m.start = .ok started ∧ m.ready.start = .ok started ∧
      ∀ deeds, ∃ entry rest, m.startMoments deeds = .managed (.place (some entry)) :: rest ∧
        m.ready.startMoments deeds = .managed (.place (some entry)) :: rest := by
  obtain ⟨hgraph, hoff, hnone⟩ := resting
  rw [← hgraph] at valid
  obtain ⟨entry, entered, hentry, hentered, hstart, hmoments⟩ :=
    exists_entered_of_start hoff hnone valid
  obtain ⟨entry', entered', hentry', hentered', hstart', hmoments'⟩ :=
    exists_entered_of_start (m := m.ready) hoff hnone valid
  obtain rfl : entry = entry' := Option.some.inj (hentry.symm.trans hentry')
  rw [enter?_ready hnone entry, hentered] at hentered'
  obtain rfl := Option.some.inj hentered'
  refine ⟨entered, hstart, hstart', fun deeds => ⟨entry, callMoments deeds .enter entry
    ((Deed.place (some entry)).perform m.session), ?_, ?_⟩⟩
  · rw [hmoments, enterMoments, departed, show m.opened.current = none from hnone]
    rfl
  · rw [hmoments', enterMoments, departed, show m.ready.opened.current = none from hnone]
    rfl

end Machine

/-- The context that a start makes of another one: only the address, the owner and the times
stay. -/
def Context.seeded (c : Context) (initial : List Entry) : Context :=
  { c with
    initial
    requested := none
    blackboard := (∅ : Blackboard).writeAll initial
    subscriptions := []
    currentNode := none }

namespace Runner

/-- What a start does to the session before the machine is started. -/
def seedSession (r : Runner) (s : Session) : Session :=
  Deed.performAll [.seed (Entry.overlay r.machine.graph.defaults r.overrides), .reset,
    .clearQueue r.address] s

/-- The runner as the start of its machine finds it. -/
def ready (r : Runner) : Runner := { r with machine := (r.machine.onSession r.seedSession).ready }

variable {r : Runner} {g : Graph}

/-- Runners that agree in what is set up are twins when they are ready, if their sessions are. -/
lemma ready_twins_of_eq {r r' : Runner} {σ : Nat → Nat}
    (session : r.ready.machine.session.Twins σ False r'.ready.machine.session)
    (graph : r.machine.graph = g) (hgraph : r'.machine.graph = r.machine.graph)
    (hcurrent : r'.machine.current = r.machine.current)
    (hprevious : r'.machine.previous = r.machine.previous)
    (hmode : r'.machine.mode = r.machine.mode) (hbudget : r'.machine.budget = r.machine.budget)
    (hstate : r'.machine.state = r.machine.state) (haddress : r'.address = σ r.address)
    (hbindings : r'.bindings = r.bindings) (hoverrides : r'.overrides = r.overrides)
    (htokens : r'.tokens = r.tokens) (henabled : r'.enabled = r.enabled)
    (hpaused : r'.paused = r.paused) (htimeScale : r'.timeScale = r.timeScale) :
    r.ready.Twins g σ r'.ready := by
  simp only [ready, Machine.ready, Machine.onSession] at session ⊢
  exact .of_eq (.of_eq graph session hgraph hcurrent hprevious hmode hbudget hstate rfl) haddress
    hbindings hoverrides htokens henabled hpaused htimeScale

/-- A start is the start of a machine that is ready for it, and then the bindings are enabled. -/
lemma start_eq_of_ready (resting : Resting g r.machine) (valid : g.defects = [])
    (deeds : Guid → Phase → Session → List Deed) :
    Order.start.perform r = Order.performAll [.machine .start, .enable] r.ready ∧
      Moment.witnessed (Order.start.moments deeds r) r.machine.session =
        Moment.witnessed (Order.chronicle deeds [.machine .start, .enable] r.ready)
          r.ready.machine.session := by
  have hseeded : Resting g r.seeded.machine := ⟨resting.graph, resting.isRunning, resting.current⟩
  obtain ⟨started, hstart, hready, hmoments⟩ := start_ready hseeded valid
  obtain ⟨entry, rest, hfirst, hfirst'⟩ := hmoments deeds
  have hruns := start_of_ok resting.isRunning hstart
  have hperform : (Order.machine .start).perform r.ready =
      { r.seeded with machine := started } := by
    simp only [Order.perform, Command.perform, onMachine, show r.ready.machine.start = .ok started
      from hready]
    rfl
  have hcommands : r.startCommands = r.seedCommands ++ .start :: r.enableCommands := by
    rw [startCommands, resting.isRunning, hruns]
    rfl
  have hmachine : Command.start.perform r.seeded.machine = started := by
    simp only [Command.perform, hstart]
    rfl
  refine ⟨?_, ?_⟩
  · show r.start.2 = ((Order.machine .start).perform r.ready).enable
    rw [hruns, hperform]
  · have hown : Order.start.moments deeds r = Command.ownChronicle deeds r.seedCommands r.machine ++
        (r.seeded.machine.startMoments deeds ++
          Command.ownChronicle deeds r.enableCommands started) := by
      show Command.ownChronicle deeds r.startCommands r.machine = _
      rw [hcommands, Command.ownChronicle_append, ← machine_seeded, Command.ownChronicle, hmachine]
      rfl
    have hready : Order.chronicle deeds [.machine .start, .enable] r.ready =
        r.ready.machine.startMoments deeds ++
          Command.ownChronicle deeds r.enableCommands started := by
      rw [Order.chronicle, Order.chronicle, Order.chronicle, List.append_nil, hperform]
      rfl
    -- Seeding calls nobody, so the witnessed calls begin with those of the machine.
    rw [hown, hready, show r.ready.machine.startMoments deeds = _ from hfirst', hfirst]
    rfl

/-! ## What a stop leaves -/

/-- A runner that does not run, lets no events through and has nothing on the hub that is not
accounted for. -/
structure Halted (g : Graph) (settings : RunnerSettings) (n : Nat) (r : Runner) : Prop where
  housed : r.Housed n
  resting : Resting g r.machine
  previous : r.machine.previous = none
  mode : r.machine.mode = settings.machine.mode
  budget : r.machine.budget = max settings.machine.budget 1
  bindings : r.bindings = settings.bindings
  overrides : r.overrides = settings.overrides
  disabled : r.enabled = false

/-- A new runner in place of another one: on what is left of its hub when it has been given up,
with the same owner, as paused and as fast. -/
def successor (g : Graph) (settings : RunnerSettings) (r : Runner) : Runner :=
  let new := (create g r.close settings).onSession
    (Deed.attach r.machine.session.context.owner).perform
  { new with paused := r.paused, timeScale := r.timeScale }

variable {settings : RunnerSettings} {n : Nat}

lemma Halted.tokens (halted : r.Halted g settings n) : r.tokens = [] :=
  halted.housed.disabled halted.disabled

/-- What the context tracks is all that a runner that has been stopped may have left on the bus. -/
lemma Halted.close_eq (halted : r.Halted g settings n) :
    r.close = r.hub.disposeEach (r.machine.session.context.subscriptions.map (·.token)) := by
  rw [close, disable_of_disabled halted.disabled]
  rfl

/-- With what is tracked gone, there are registrations of others only. -/
lemma Halted.foreign (halted : r.Halted g settings n) :
    ∀ r' ∈ r.close.bus.registrations, r'.handler.Foreign n := by
  intro r' hr'
  rw [halted.close_eq, Hub.disposeEach_eq] at hr'
  obtain ⟨hold, hother⟩ := List.mem_filter.mp hr'
  have hholds := halted.housed.holds
  have hplaced := hholds.placed r' hold
  -- The bindings and watches of a runner that has halted are gone, so what is left is foreign.
  generalize hhandler : r'.handler = handler at hplaced ⊢
  cases hplaced with
  | foreign foreign => exact foreign
  | binding =>
      have htoken := hholds.bindings r' hold _ hhandler
      rw [halted.tokens] at htoken
      cases htoken
  | watch =>
      obtain ⟨sub, hsub, htoken⟩ := hholds.watches r' hold _ hhandler
      have htracked : r'.token ∈ r.machine.session.context.subscriptions.map (·.token) :=
        htoken ▸ List.mem_map_of_mem hsub
      simp [htracked] at hother

lemma Halted.ready_session (halted : r.Halted g settings n) :
    r.ready.machine.session =
      ⟨r.machine.session.context.seeded (Entry.overlay g.defaults settings.overrides),
        (r.close.clearInbox (n + 1)).clearQueue n⟩ := by
  have hready : r.ready.machine.session =
      ⟨r.machine.session.context.seeded (Entry.overlay r.machine.graph.defaults r.overrides),
        ((r.hub.disposeEach (r.machine.session.context.subscriptions.map (·.token))).clearInbox
          r.machine.session.context.address).clearQueue r.address⟩ := rfl
  rw [hready, halted.resting.graph, halted.overrides, halted.housed.holds.address,
    halted.housed.address, halted.close_eq]

lemma Halted.tidy_close (halted : r.Halted g settings n) : r.close.Tidy n := by
  rw [halted.close_eq]
  exact halted.housed.holds.tidy.disposeEach _

/-- The session of a runner that is ready and that of its ready successor are twins: by what is
left on the hub and by what the start writes. -/
lemma Halted.ready_session_twins (halted : r.Halted g settings n) :
    r.ready.machine.session.Twins (shift n) False
      (r.successor g settings).ready.machine.session := by
  have hnext : r.close.nextAddress = n + 2 := halted.tidy_close.next
  have hsuccessor : (r.successor g settings).ready.machine.session =
      ⟨({ address := r.close.nextAddress + 1, owner := r.machine.session.context.owner } :
          Context).seeded (Entry.overlay g.defaults settings.overrides),
        (({ r.close with nextAddress := r.close.nextAddress + 2 }.disposeEach []).clearInbox
          (r.close.nextAddress + 1)).clearQueue r.close.nextAddress⟩ := rfl
  -- The successor gets the next two addresses, which is what the shift does.
  have hmoved : shift n r.machine.session.context.address = n + 3 := by
    rw [halted.housed.holds.address, shift_of_le (Nat.le_succ n)]
  have htwins : Session.Twins (shift n) False
      ⟨r.machine.session.context.seeded (Entry.overlay g.defaults settings.overrides),
        (r.close.clearInbox (n + 1)).clearQueue n⟩
      ⟨(r.machine.session.context.seeded (Entry.overlay g.defaults settings.overrides)).moved
        (shift n r.machine.session.context.address) 0.0 0.0, _⟩ :=
    ⟨halted.tidy_close.twins halted.foreign (n + 4), False.elim⟩
  rw [hmoved] at htwins
  rw [halted.ready_session, hsuccessor, hnext]
  exact htwins

/-- A runner that is ready and its ready successor are twins. -/
lemma Halted.ready_twins (halted : r.Halted g settings n) :
    r.ready.Twins g (shift n) (r.successor g settings).ready := by
  have haddress : (r.successor g settings).address = shift n r.address := by
    rw [halted.housed.address, shift_of_le (Nat.le_refl n)]
    exact halted.tidy_close.next
  have hstate : r.machine.state = .stopped := by
    have hoff := halted.resting.isRunning
    unfold isRunning at hoff
    cases hstate : r.machine.state with
    | stopped => rfl
    | running => simp [hstate] at hoff
  refine ready_twins_of_eq halted.ready_session_twins halted.resting.graph ?_ ?_ ?_ ?_ ?_ ?_
    haddress ?_ ?_ ?_ ?_ rfl rfl
  · exact halted.resting.graph.symm
  · exact halted.resting.current.symm
  · exact halted.previous.symm
  · exact halted.mode.symm
  · exact halted.budget.symm
  · exact hstate.symm
  · exact halted.bindings.symm
  · exact halted.overrides.symm
  · exact halted.tokens.symm
  · exact halted.disabled.symm

/-! ### Stopping -/

lemma enabled_stop (r : Runner) : r.stop.enabled = false := by
  rw [stop, disable]
  split
  · rfl
  · rename_i hoff
    exact Bool.eq_false_iff.mpr hoff

lemma isRunning_stop (r : Runner) : r.stop.machine.isRunning = false := by
  have hmachine : r.machine.stop.isRunning = false := by
    unfold Machine.stop
    split
    · rfl
    · rename_i hoff
      exact Bool.eq_false_iff.mpr hoff
  rw [stop, disable]
  split
  · exact hmachine
  · exact hmachine

/-- Whatever a new runner has been told, when it is stopped it has come to a halt. -/
lemma halted_stop {h : Hub} (regular : h.Regular) (p : g.Conduct (Deed.Foreign h.nextAddress))
    (settings : RunnerSettings) {before : List Order}
    (hosts : ∀ o ∈ before, o.HostMay (Deed.Foreign h.nextAddress)) :
    (Order.performAll before (create g h settings)).stop.Halted g settings h.nextAddress := by
  let orders := before ++ [.stop]
  have hstop : Order.performAll orders (create g h settings) =
      (Order.performAll before (create g h settings)).stop := List.foldl_append
  have hhosts : ∀ o ∈ orders, o.HostMay (Deed.Foreign h.nextAddress) := by
    intro o ho
    rcases List.mem_append.mp ho with hbefore | hlast
    · exact hosts o hbefore
    · rw [List.mem_singleton.mp hlast]
      trivial
  have hhoused := Order.housed_performAll (housed_create g regular settings)
    (settled_create g h settings) p hhosts
  have hmachine := Order.machine_performAll orders (create g h settings)
  have hcoherent := Command.coherent_performAll
    (Order.commandsAll orders (create g h settings))
    (.stopped ⟨rfl, rfl, rfl⟩ rfl : Coherent g (create g h settings).machine)
  have halike := Command.alike_performAll (Order.commandsAll orders (create g h settings))
    (create g h settings).machine
  obtain ⟨-, hbindings, hoverrides⟩ := Order.setup_performAll orders (create g h settings)
  rw [← hmachine] at hcoherent halike
  rw [hstop] at hhoused hcoherent halike hbindings hoverrides
  have hoff := isRunning_stop (Order.performAll before (create g h settings))
  cases hcoherent with
  | running underway =>
      rw [underway.isRunning] at hoff
      cases hoff
  | stopped resting fresh =>
      exact ⟨hhoused, resting, fresh, halike.mode, halike.budget, hbindings, hoverrides,
        enabled_stop _⟩

end Runner

/-! ### What a stop leaves on the bus -/

/-- The deed makes no registration that the context tracks. -/
def Deed.Untracked (d : Deed) : Prop := ∀ s, d.tracked s = none

namespace Command

variable {g : Graph} {Allowed : Deed → Prop} {m : Machine}

/-- While nobody but nodes makes registrations that are tracked, a machine that does not run has
none. -/
lemma untracked_perform (p : g.Conduct Allowed) (settled : Settled g m)
    (untracked : m.isRunning = false → m.session.context.subscriptions = []) {c : Command}
    (host : ∀ d, c = .host d → d.Untracked) (rests : (c.perform m).isRunning = false) :
    (c.perform m).session.context.subscriptions = [] := by
  rcases settled with underway | resting
  · obtain ⟨hstate, -⟩ := path_moments_of_underway (p := p) (H := fun _ => True) underway c
      fun _ _ => trivial
    -- Of the commands to a machine that runs, only a stop leaves one that rests.
    rcases hstate with ⟨rfl, -⟩ | ⟨-, hunderway⟩
    · simp only [perform, Machine.stop, underway.isRunning, if_true]
      rfl
    · rw [hunderway.isRunning] at rests
      cases rests
  · have hoff := resting.isRunning
    have hnone := untracked hoff
    cases c with
    | start =>
        rcases leads_startMoments (p := p) (H := fun _ => True) resting with hleads | ⟨-, hstays⟩
        · rw [perform, hleads.underway.isRunning] at rests
          cases rests
        · rwa [perform, hstays]
    | stop => simpa [perform, Machine.stop, hoff] using hnone
    | tick deltaTime => simpa [perform, Machine.tick, hoff] using hnone
    | tickFixed fixedDeltaTime => simpa [perform, Machine.tickFixed, hoff] using hnone
    | enter guid => simpa [perform, Machine.enter, force, hoff] using hnone
    | enterFromEvent guid => simpa [perform, Machine.enterFromEvent, force, hoff] using hnone
    | setClock clock => exact hnone
    | host d =>
        refine List.eq_nil_iff_forall_not_mem.mpr fun sub hsub => ?_
        rcases Deed.of_mem_subscriptions_perform hsub with hold | hnew
        · rw [hnone] at hold
          cases hold
        · rw [host d rfl] at hnew
          cases hnew

/-- A machine that rests holds no subscription, as long as its host makes none through the
context. -/
lemma untracked_performAll (p : g.Conduct Allowed) (settled : Settled g m)
    (untracked : m.isRunning = false → m.session.context.subscriptions = [])
    {commands : List Command} (hosts : HostAllowed Deed.Untracked commands)
    (rests : (performAll commands m).isRunning = false) :
    (performAll commands m).session.context.subscriptions = [] := by
  induction commands generalizing m with
  | nil => exact untracked rests
  | cons c rest ih =>
      -- The hypothesis is stated for a machine that rests, so what is carried on is the
      -- implication.
      refine ih (exists_path_moments settled p c).1 ?_
        (fun d hd => hosts d (List.mem_cons_of_mem c hd)) rests
      exact untracked_perform p settled untracked fun d hd => hosts d (hd ▸ List.mem_cons_self)

end Command

namespace Order

open Command Runner

/-- A runner makes no registrations through the context. -/
lemma untracked_of_mem_commands {o : Order} (host : o.HostMay Deed.Untracked) (r : Runner) :
    HostAllowed Deed.Untracked (o.commands r) := by
  intro d hd
  rcases arranges_of_mem_commands hd with rfl | arranges
  · exact host
  · cases arranges <;> exact fun _ => rfl

lemma untracked_of_mem_commandsAll {orders : List Order}
    (hosts : ∀ o ∈ orders, o.HostMay Deed.Untracked) (r : Runner) :
    HostAllowed Deed.Untracked (commandsAll orders r) := by
  induction orders generalizing r with
  | nil => exact nofun
  | cons o rest ih =>
      intro d hd
      rcases List.mem_append.mp hd with hfirst | hrest
      · exact untracked_of_mem_commands (hosts o List.mem_cons_self) r d hfirst
      · exact ih (fun k hk => hosts k (List.mem_cons_of_mem o hk)) (o.perform r) d hrest

/-! ## The main result -/

variable {g : Graph} {n : Nat} {settings : RunnerSettings}

/-- A start after a halt and the start of the successor call the same nodes, and leave twins. -/
lemma start_like_successor {p : g.Conduct (Deed.Foreign n)} (mirror : Mirror p (shift n))
    {r : Runner} (halted : r.Halted g settings n) :
    let fresh := r.successor g settings
    Moment.witnessed (Order.start.moments p.deeds fresh) fresh.machine.session =
        Moment.witnessed (Order.start.moments p.deeds r) r.machine.session ∧
      (Order.start.perform r).Twins g (shift n) (Order.start.perform fresh) := by
  intro fresh
  have hfresh : Machine.Resting g fresh.machine := ⟨rfl, rfl, rfl⟩
  have hready : Settled g r.ready.machine :=
    .inr ⟨halted.resting.graph, halted.resting.isRunning, halted.resting.current⟩
  obtain ⟨hperform, hcalls⟩ := start_eq_of_ready halted.resting mirror.valid p.deeds
  obtain ⟨hperform', hcalls'⟩ := start_eq_of_ready hfresh mirror.valid p.deeds
  have hosts : ∀ o ∈ [Order.machine .start, .enable], o.HostMay (Deed.Foreign n) := by
    simp [HostMay]
  obtain ⟨hmoments, -, hstarted⟩ := mirror.orders halted.ready_twins hready _ hosts
  rw [hperform, hperform', hcalls, hcalls', hmoments]
  exact ⟨halted.ready_twins.machine_twins.session_twins.witnessed_eq mirror.injective _, hstarted⟩

/-- If the host has registered nothing through the context, a stop leaves nothing tracked. -/
lemma subscriptions_stop (p : g.Conduct (Deed.Foreign n)) (h : Hub) {before : List Order}
    (hosts : ∀ o ∈ before, o.HostMay Deed.Untracked) :
    (performAll before (create g h settings)).stop.machine.session.context.subscriptions = [] := by
  let orders := before ++ [.stop]
  have hstop : performAll orders (create g h settings) =
      (performAll before (create g h settings)).stop := List.foldl_append
  have hhosts : ∀ o ∈ orders, o.HostMay Deed.Untracked := by
    intro o ho
    rcases List.mem_append.mp ho with hbefore | hlast
    · exact hosts o hbefore
    · rw [List.mem_singleton.mp hlast]
      trivial
  have hoff := isRunning_stop (performAll before (create g h settings))
  rw [← hstop, machine_performAll] at hoff ⊢
  exact untracked_performAll p (settled_create g h settings) (fun _ => rfl)
    (untracked_of_mem_commandsAll hhosts _) hoff

/-- **A restart is like a fresh start.**  Take a graph without defects, and a new runner for it on
a hub on which everything is there for somebody with an address.  Nodes and the host may do
anything but make handlers for the two addresses that the runner is given or empty its queue;
nodes look at the time of a frame only while they are called for that frame, and conditions do not
look at the time of fixed frames.  Whatever the runner has been told, let it be stopped, started
again and told anything else.  Put a new runner for the same graph with the same settings in its
place instead, when it has been stopped: on the bus that it leaves when it is given up, with the
same owner, as paused and as fast.  Start it and tell it the same.  Then for both runners

* the same nodes are called on the same occasions, and each call finds the same blackboard;
* the ticks report the same;
* and in the end all that can be seen of them is the same: the current and the previous node, the
  frame, the blackboard, the mailbox, the registrations that are tracked, what waits in the queue,
  whether the runner runs, is enabled or paused, its time scale, the journal, and the number of
  handlers on the bus, for every event and in all.

If the host has made no registrations through the context, the bus that the stopped runner leaves
is just the one that it is on. -/
theorem restart_like_fresh {g : Graph} (valid : g.defects = []) {h : Hub} (regular : h.Regular)
    (p : g.Conduct (Deed.Foreign h.nextAddress)) (nodes : ∀ guid, Blind (p.deeds guid))
    (edges : g.BlindEdges) (settings : RunnerSettings) {before after : List Order}
    (hosts : ∀ o ∈ before ++ after, o.HostMay (Deed.Foreign h.nextAddress)) :
    let stopped := (performAll before (create g h settings)).stop
    let fresh := stopped.successor g settings
    let again := .start :: after
    Moment.witnessed (chronicle p.deeds again fresh) fresh.machine.session =
        Moment.witnessed (chronicle p.deeds again stopped) stopped.machine.session ∧
      reports again fresh = reports again stopped ∧
      (performAll again stopped).Indistinct (performAll again fresh) ∧
      ((∀ o ∈ before, o.HostMay Deed.Untracked) → stopped.close = stopped.hub) := by
  intro stopped fresh again
  have halted : stopped.Halted g settings h.nextAddress :=
    halted_stop regular p settings fun o ho => hosts o (List.mem_append_left _ ho)
  have mirror : Mirror p (shift h.nextAddress) :=
    ⟨valid, shift_injective _, shift_of_lt, nodes, edges⟩
  obtain ⟨hcalls, hstarted⟩ := start_like_successor mirror halted
  have hfresh : Settled g fresh.machine := .inr ⟨rfl, rfl, rfl⟩
  obtain ⟨hsettled, hsession⟩ := session_perform (.inr halted.resting) p .start
  obtain ⟨-, hsession'⟩ := session_perform hfresh p .start
  obtain ⟨hmoments, hreports, hlast⟩ := mirror.orders hstarted hsettled after
    fun o ho => hosts o (List.mem_append_right _ ho)
  -- The first order is the start, which has been compared on its own; the others mirror each other.
  refine ⟨?_, congrArg (none :: ·) hreports, hlast.indistinct, fun untracked => ?_⟩
  · have hrest := hstarted.machine_twins.session_twins.witnessed_eq mirror.injective
      (chronicle p.deeds after (Order.start.perform stopped))
    rw [← hmoments] at hrest
    rw [chronicle, chronicle, Moment.witnessed_append, Moment.witnessed_append, ← hsession,
      ← hsession', hcalls]
    exact congrArg (_ ++ ·) hrest
  · rw [halted.close_eq, subscriptions_stop p h untracked]
    rfl

/-! ### A door that opens to a bell -/

/-- In the porch one waits for the bell; who comes to the hall opens the door. -/
def house : Cast Deed.KeepsPlace :=
  [("porch", BuiltinNode.actor (.waitEvent "bell")),
    ("hall", BuiltinNode.actor (.publishEvent "door"))]

/-- The bell leads into the hall. -/
def housePaths : List Edge :=
  [(Edge.make "in" "porch" "" "hall").guardedBy
    (some (BuiltinCondition.eventFired "bell" 1).condition)]

lemma foreign_of_mem_house (guid : Guid) (a : Actor Deed.KeepsPlace) (ha : (guid, a) ∈ house) :
    ∀ phase s, ∀ d ∈ a.deeds phase s, d.Foreign 0 := by
  simp only [house, List.mem_cons, Prod.mk.injEq, List.not_mem_nil, or_false] at ha
  rcases ha with ⟨-, rfl⟩ | ⟨-, rfl⟩ <;> exact BuiltinNode.foreign _ 0

lemma blind_of_mem_house (guid : Guid) (a : Actor Deed.KeepsPlace) (ha : (guid, a) ∈ house) :
    Blind a.deeds := by
  simp only [house, List.mem_cons, Prod.mk.injEq, List.not_mem_nil, or_false] at ha
  rcases ha with ⟨-, rfl⟩ | ⟨-, rfl⟩ <;> exact BuiltinNode.blind _

/-- What happens in the house. -/
def houseConduct : (house.graph housePaths none).Conduct (Deed.Foreign 0) :=
  (house.conduct housePaths none).within
    (house.forall_mem_deeds housePaths none foreign_of_mem_house)

/-- The door leads back to the porch. -/
def door : RunnerSettings where
  bindings := [⟨"door", "porch"⟩]

/-- The bell rings, and the door is opened. -/
def visiting : List Order := [.start, .machine (.host (.publish "bell")), .tick 0.5]

/-- When the runner is stopped, someone is in the hall and the door leads back.  After a restart all
that is forgotten, as for a new runner: the bell has not rung, and nobody leaves the porch. -/
theorem restart_like_fresh_house :
    let g := house.graph housePaths none
    let visited := performAll visiting (create g {} door)
    let fresh := visited.stop.successor g door
    let again : List Order := [.start, .tick 0.5]
    visited.machine.current = some "hall" ∧ visited.pending = ["porch"] ∧
      (Moment.witnessed (chronicle houseConduct.deeds again fresh) fresh.machine.session).map
        (fun call => (call.1, call.2.1)) = [(.enter, "porch"), (.update, "porch")] ∧
      reports again fresh = [none, some {}] ∧
      (performAll again fresh).machine.current = some "porch" ∧
      (performAll again fresh).pending = [] ∧ visited.stop.close = visited.stop.hub := by
  intro g visited fresh again
  have valid : g.defects = [] := by decide +kernel
  have nodes : ∀ guid, Blind (houseConduct.deeds guid) :=
    Cast.blind house housePaths none blind_of_mem_house
  have edges : g.BlindEdges := by
    intro e he c hc
    obtain rfl := List.mem_singleton.mp he
    cases hc
    exact BuiltinCondition.blind _
  have hosts : ∀ o ∈ visiting ++ [.tick 0.5], o.HostMay (Deed.Foreign 0) := by
    simp [visiting, HostMay, Deed.Foreign]
  have untracked : ∀ o ∈ visiting, o.HostMay Deed.Untracked := by
    simp [visiting, HostMay, Deed.Untracked, Deed.tracked]
  obtain ⟨hcalls, hreports, hend, hhub⟩ :=
    restart_like_fresh valid Hub.regular_empty houseConduct nodes edges door hosts
  refine ⟨by decide +kernel, by decide +kernel, ?_, ?_, ?_, ?_, hhub untracked⟩
  · rw [hcalls]
    decide +kernel
  · rw [hreports]
    decide +kernel
  · rw [hend.current]
    decide +kernel
  · rw [hend.pending]
    decide +kernel

/-- Only after a fixed frame the porch leads into the hall. -/
def timedPaths : List Edge :=
  [(Edge.make "in" "porch" "" "hall").guardedBy
    (some ⟨"Timed", fun s => 0 < s.context.fixedDeltaTime⟩)]

/-- What happens there. -/
def timedConduct : (house.graph timedPaths none).Conduct (Deed.Foreign 0) :=
  (house.conduct timedPaths none).within
    (house.forall_mem_deeds timedPaths none foreign_of_mem_house)

/-- A condition that looks at the time of fixed frames tells a restart from a fresh start, although
nothing else is amiss: the time of the last fixed frame outlives the stop, so that the restarted
runner goes into the hall at once, and the fresh one stays in the porch. -/
theorem fixed_time_outlives_restart :
    let g := house.graph timedPaths none
    let before : List Order := [.start, .tickFixed 0.5]
    let after : List Order := [.tick 0.5]
    let stopped := (performAll before (create g {} door)).stop
    let fresh := stopped.successor g door
    g.defects = [] ∧ ({} : Hub).Regular ∧ (∀ guid, Blind (timedConduct.deeds guid)) ∧
      (∀ o ∈ before ++ after, o.HostMay (Deed.Foreign 0)) ∧
      (performAll (.start :: after) fresh).machine.current = some "porch" ∧
      (performAll (.start :: after) stopped).machine.current = some "hall" ∧
      reports (.start :: after) fresh ≠ reports (.start :: after) stopped :=
  ⟨by decide +kernel, Hub.regular_empty, Cast.blind house timedPaths none blind_of_mem_house,
    by simp [HostMay], by decide +kernel, by decide +kernel, by decide +kernel⟩

end Order

end WorkflowGraph
