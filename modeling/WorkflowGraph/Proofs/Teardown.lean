import WorkflowGraph.Proofs.Addresses
import WorkflowGraph.Proofs.Lifecycle

/-!
# Tearing a run down

A stop calls the current node for the last time, and that call may do anything: it may register
handlers, publish what it has just begun to watch or what the runner is bound to, or ask for a
node.  Nothing of this is left but what the call writes on the blackboard.  The machine disposes of
its context after the call, the runner empties its queue after that, and the bindings are disabled
last; in between nobody is called (`Order.stops_perform`).

That nothing comes back afterwards is a matter of the bus.  No handler on it leads to the inbox of a
context that tracks nothing, nor to the queue of a runner that is disabled
(`World.Addressed.unaddressed`), so whatever is published goes elsewhere.  This needs to know of
every handler on the bus who has registered it, and so the whole history of the hub: nobody disposes
of a token of a runner's bindings (`Move.Discreet`), and nobody hands over a handler for an inbox or
a queue (`Move.Plain`).
-/

namespace WorkflowGraph

open Command

namespace Hub

/-- A queue that is not kept need not be emptied. -/
lemma clearQueue_of_absent {h : Hub} {a : Nat} (absent : h.queues[a]? = none) :
    h.clearQueue a = h := by
  have hsame : h.queues.erase a = h.queues := by
    apply Std.ExtTreeMap.ext_getElem?
    intro k
    rw [Std.ExtTreeMap.getElem?_erase]
    split
    · rename_i hk
      rw [← Nat.compare_eq_eq.mp hk, absent]
    · rfl
  simp only [clearQueue, hsame]

end Hub

/-! ## What a stop leaves -/

/-- Nothing is left of the run of a machine but what is written on the blackboard. -/
structure Machine.Closed (m : Machine) : Prop where
  stopped : m.isRunning = false
  current : m.current = none
  previous : m.previous = none
  node : m.session.context.currentNode = none
  mailbox : m.session.context.requested = none
  untracked : m.session.context.subscriptions = []
  inbox : m.session.inbox = ∅

/-- Nothing is left of the run of a runner either. -/
structure Runner.Closed (r : Runner) : Prop extends Machine.Closed r.machine where
  pending : r.pending = []
  disabled : r.enabled = false

namespace Machine

variable {m : Machine} {n : Guid} {b : Behaviour}

lemma stop_of_behaviour? (running : m.isRunning = true) (hn : m.current = some n)
    (hb : m.graph.behaviour? n = some b) :
    m.stop =
      { m with
        current := none
        previous := none
        state := .stopped
        session := ((b.onExit m.session).releaseNode n).2.dispose } := by
  simp only [stop, running, if_true, hn, leave, hb, onSession]

lemma stop_of_stopped (stopped : m.isRunning = false) : m.stop = m := by
  simp [stop, stopped]

/-- Whatever the last call of the current node has done is undone, but for what it has written on
the blackboard. -/
lemma closed_stop (running : m.isRunning = true) (hn : m.current = some n)
    (hb : m.graph.behaviour? n = some b) :
    m.stop.Closed ∧
      m.stop.session.context.blackboard = (b.onExit m.session).context.blackboard := by
  rw [stop_of_behaviour? running hn hb]
  refine ⟨⟨rfl, rfl, rfl, rfl, rfl, rfl, ?_⟩, rfl⟩
  exact (Hub.inbox_clearInbox _ _ _).trans (if_pos rfl)

lemma calls_stopMoments (running : m.isRunning = true) (hn : m.current = some n)
    (hb : m.graph.behaviour? n = some b) (deeds : Guid → Phase → Session → List Deed) :
    calls (m.stopMoments deeds) = [⟨.exit, n⟩] := by
  simp only [stopMoments, running, if_true, hn, leaveMoments, hb, callMoments]
  rw [calls_snoc_of_call?_eq_none _ rfl, calls_snoc_of_call?_eq_none _ rfl]
  exact congrArg (_ :: ·) (calls_dids (deeds n .exit m.session))

end Machine

namespace Runner

variable {r : Runner} {n : Guid} {b : Behaviour}

/-- Disabling changes nothing but the bus. -/
lemma exists_disable_eq (r : Runner) :
    ∃ bus tokens, r.disable =
      { r with
        machine := r.machine.onSession fun s => s.onHub fun h => { h with bus }
        tokens
        enabled := false } := by
  cases henabled : r.enabled with
  | true => exact ⟨_, [], disable_eq henabled⟩
  | false =>
      refine ⟨r.hub.bus, r.tokens, ?_⟩
      rw [disable_of_disabled henabled, ← henabled]
      rfl

/-- A stop leaves what the stop of the machine leaves, and no queue. -/
lemma closed_stop (running : r.machine.isRunning = true) (hn : r.machine.current = some n)
    (hb : r.machine.graph.behaviour? n = some b) :
    r.stop.Closed ∧ r.stop.hub.queues[r.stop.address]? = none ∧
      r.stop.machine.session.context.blackboard =
        (b.onExit r.machine.session).context.blackboard := by
  obtain ⟨hclosed, hblackboard⟩ := Machine.closed_stop running hn hb
  obtain ⟨bus, tokens, hstop⟩ := exists_disable_eq (r.onMachine Machine.stop).clearPending
  rw [stop, hstop]
  have hqueue : (r.machine.stop.session.hub.clearQueue r.address).queue r.address = [] :=
    (Hub.queue_clearQueue _ _ _).trans (if_pos rfl)
  refine ⟨⟨⟨hclosed.stopped, hclosed.current, hclosed.previous, hclosed.node, hclosed.mailbox,
    hclosed.untracked, hclosed.inbox⟩, hqueue, rfl⟩, ?_, hblackboard⟩
  exact Std.ExtTreeMap.getElem?_erase_self

/-- The only call is the last one of the current node. -/
lemma calls_stop (running : r.machine.isRunning = true) (hn : r.machine.current = some n)
    (hb : r.machine.graph.behaviour? n = some b) (deeds : Guid → Phase → Session → List Deed) :
    calls (Order.stop.moments deeds r) = [⟨.exit, n⟩] := by
  have hdisable : calls (ownChronicle deeds r.disableCommands
      ((r.onMachine Machine.stop).clearPending).machine) = [] := by
    unfold disableCommands
    split
    · rw [Ledger.ownChronicle_host]
      simp [calls, Moment.call?]
    · rfl
  have hmoments : Order.stop.moments deeds r = r.machine.stopMoments deeds ++
      .managed (.clearQueue r.address) :: ownChronicle deeds r.disableCommands
        ((r.onMachine Machine.stop).clearPending).machine := rfl
  have hstop := Machine.calls_stopMoments running hn hb deeds
  rw [hmoments, calls, List.filterMap_append]
  exact congrArg₂ (· ++ ·) hstop hdisable

/-- A runner that has been stopped, and for which nothing waits, does nothing when it is stopped
once more. -/
lemma Closed.stop_eq (closed : r.Closed) (absent : r.hub.queues[r.address]? = none) :
    r.stop = r := by
  have hmachine : r.onMachine Machine.stop = r := by
    rw [onMachine, Machine.stop_of_stopped closed.stopped]
  have hqueue : r.clearPending = r := by
    have hhub := Hub.clearQueue_of_absent absent
    simp only [clearPending, onSession, onMachine, Machine.onSession, Session.onHub]
    rw [show r.machine.session.hub.clearQueue r.address = r.machine.session.hub from hhub]
  rw [stop, hmachine, hqueue, disable_of_disabled closed.disabled]

end Runner

/-- What a running runner does when it or its machine is stopped. -/
lemma Order.stops_perform {g : Graph} {r : Runner} (underway : Machine.Underway g r.machine)
    (deeds : Guid → Phase → Session → List Deed) {o : Order}
    (stops : o = .stop ∨ o = .machine .stop) :
    (∃ n b, r.machine.current = some n ∧ g.behaviour? n = some b ∧
      calls (o.moments deeds r) = [⟨.exit, n⟩] ∧
      (o.perform r).machine.session.context.blackboard =
        (b.onExit r.machine.session).context.blackboard) ∧
    (o.perform r).machine.Closed ∧
    (o = .stop →
      (o.perform r).Closed ∧ (o.perform r).hub.queues[(o.perform r).address]? = none) := by
  obtain ⟨rfl, running, n, b, hn, hb⟩ := underway
  rcases stops with rfl | rfl
  · obtain ⟨hclosed, habsent, hblackboard⟩ := Runner.closed_stop running hn hb
    exact ⟨⟨n, b, hn, hb, Runner.calls_stop running hn hb deeds, hblackboard⟩, hclosed.toClosed,
      fun _ => ⟨hclosed, habsent⟩⟩
  · obtain ⟨hclosed, hblackboard⟩ := Machine.closed_stop running hn hb
    exact ⟨⟨n, b, hn, hb, Machine.calls_stopMoments running hn hb deeds, hblackboard⟩, hclosed,
      nofun⟩

/-! ## What is published afterwards -/

/-- Publishing past an address, any number of times. -/
lemma Hub.foldl_publish_unaddressed {h : Hub} {a : Nat}
    (elsewhere : ∀ r ∈ h.bus.registrations, r.handler.address? ≠ some a) (events : List String) :
    (events.foldl publish h).inboxes[a]? = h.inboxes[a]? ∧
      (events.foldl publish h).queues[a]? = h.queues[a]? := by
  induction events generalizing h with
  | nil => exact ⟨rfl, rfl⟩
  | cons event rest ih =>
      obtain ⟨hinbox, hqueue⟩ := publish_unaddressed elsewhere event
      obtain ⟨hinboxes, hqueues⟩ := ih (h := h.publish event) (by rwa [bus_publish])
      exact ⟨hinboxes.trans hinbox, hqueues.trans hqueue⟩

namespace Runner

variable {r : Runner} {h : Hub}

lemma closed_machine_resumedOn (closed : r.machine.Closed)
    (inbox : h.inboxes[r.machine.session.context.address]? =
      r.hub.inboxes[r.machine.session.context.address]?) : (r.resumedOn h).machine.Closed := by
  refine ⟨closed.stopped, closed.current, closed.previous, closed.node, closed.mailbox,
    closed.untracked, ?_⟩
  refine Eq.trans ?_ closed.inbox
  show h.inboxes.getD _ ∅ = r.hub.inboxes.getD _ ∅
  rw [Std.ExtTreeMap.getD_eq_getD_getElem?, Std.ExtTreeMap.getD_eq_getD_getElem?]
  exact congrArg (·.getD ∅) inbox

lemma Closed.resumedOn (closed : r.Closed)
    (inbox : h.inboxes[r.machine.session.context.address]? =
      r.hub.inboxes[r.machine.session.context.address]?)
    (absent : h.queues[r.address]? = none) : (r.resumedOn h).Closed := by
  refine ⟨closed_machine_resumedOn closed.toClosed inbox, ?_, closed.disabled⟩
  show h.queues.getD r.address [] = []
  rw [Std.ExtTreeMap.getD_eq_getD_getElem?, absent]
  rfl

end Runner

namespace Move

lemma performAll_publish (events : List String) (w : World) :
    performAll (events.map .publish) w = { w with hub := events.foldl Hub.publish w.hub } := by
  induction events generalizing w with
  | nil => rfl
  | cons event rest ih => exact ih ((publish event).perform w)

lemma discreetAll_append {before after : List Move} {w : World} :
    DiscreetAll (before ++ after) w ↔
      DiscreetAll before w ∧ DiscreetAll after (performAll before w) := by
  induction before generalizing w with
  | nil => simp [DiscreetAll, performAll]
  | cons m rest ih => simp only [List.cons_append, DiscreetAll, ih, and_assoc]; rfl

lemma plainAll_append {before after : List Move} {w : World} :
    PlainAll (before ++ after) w ↔ PlainAll before w ∧ PlainAll after (performAll before w) := by
  induction before generalizing w with
  | nil => simp [PlainAll, performAll]
  | cons m rest ih => simp only [List.cons_append, PlainAll, ih, and_assoc]; rfl

end Move

namespace World

variable {w : World} {i : Nat} {graph : Graph} {conduct : graph.Conduct fun _ => True} {r : Runner}

lemma Sound.held_of_untracked (sound : w.Sound) {party : Party} (h : w.parties[i]? = some party)
    (untracked : party.context.subscriptions = []) : w.ledger.held (.context i) = [] := by
  refine List.eq_nil_iff_forall_not_mem.mpr fun x hx => ?_
  have htracked := (sound.tracks i party h).complete x hx
  rw [untracked] at htracked
  cases htracked

lemma Sound.registrationsBy_eq_nil (sound : w.Sound) {maker : Maker}
    (holdsNone : w.ledger.held maker = []) : w.registrationsBy maker = [] := by
  rw [registrationsBy, ← sound.mirrors.held_eq, holdsNone]

/-- What is published afterwards does not reach a machine that has been torn down. -/
lemma Addressed.machine_closed_later (addressed : w.Addressed) (sound : w.Sound)
    (h : w.parties[i]? = some (.runner graph conduct r)) (hub : w.hub = r.hub)
    (closed : r.machine.Closed) (events : List String) :
    (r.resumedOn (Move.performAll (events.map .publish) w).hub).machine.Closed := by
  have howns : w.addressOf (.context i) = some r.machine.session.context.address := by
    simp [addressOf, h, Party.context]
  have hnone := addressed.unaddressed sound howns (sound.held_of_untracked h closed.untracked)
  rw [Move.performAll_publish]
  apply Runner.closed_machine_resumedOn closed
  rw [← hub]
  exact (Hub.foldl_publish_unaddressed hnone events).1

/-- Nor does it reach a runner, which may be stopped once more without effect. -/
lemma Addressed.closed_later (addressed : w.Addressed) (sound : w.Sound)
    (h : w.parties[i]? = some (.runner graph conduct r)) (hub : w.hub = r.hub)
    (closed : r.Closed) (absent : r.hub.queues[r.address]? = none) (events : List String) :
    let later := r.resumedOn (Move.performAll (events.map .publish) w).hub
    later.Closed ∧ later.stop = later := by
  intro later
  have hinbox : w.addressOf (.context i) = some r.machine.session.context.address := by
    simp [addressOf, h, Party.context]
  have hqueue : w.addressOf (.bindings i) = some r.address := by
    simp [addressOf, h, Party.address?]
  -- Nothing on the bus leads to the inbox or the queue any more.
  have hwatches := addressed.unaddressed sound hinbox (sound.held_of_untracked h closed.untracked)
  have hbindings := addressed.unaddressed sound hqueue
    (Ledger.Binds.held_of_disabled (sound.bound i _ h) closed.disabled)
  have hlater : later = r.resumedOn (events.foldl Hub.publish w.hub) := by
    simp only [later, Move.performAll_publish]
  have habsent : (events.foldl Hub.publish w.hub).queues[r.address]? = none := by
    rw [(Hub.foldl_publish_unaddressed hbindings events).2, hub, absent]
  have hclosed : later.Closed := by
    rw [hlater]
    refine closed.resumedOn ?_ habsent
    rw [(Hub.foldl_publish_unaddressed hwatches events).1, hub]
  exact ⟨hclosed, hclosed.stop_eq (hlater ▸ habsent)⟩

end World

/-- **A stop tears a run down, whatever the last call does.**  Take a runner that runs, after any
moves of any parties that share its hub, with any nodes; a machine that nobody drives is the machine
of a runner that is only told what to do with it.  The runner is stopped, or its machine alone.
While it is, the node that is current then may do any deeds.  Then:

* that node has been called once, for the last time, and nothing else has been called; the
  blackboard is as the node has left it;
* the machine has no current and no previous node, and its context has none; the mailbox and the
  inbox are empty; nothing that has been registered through the context is left on the bus;
* if the runner has been stopped, its queue is empty, it is disabled, and nothing that has been
  registered for its bindings is left on the bus;
* whatever is published afterwards, all of this stays so, the parties stay as they are, and to stop
  once more changes nothing, on the hub neither. -/
theorem Move.stop_tears_down {moves : List Move} {i : Nat} {o : Order}
    (stops : o = .stop ∨ o = .machine .stop)
    (discreet : DiscreetAll (moves ++ [.order i o]) {})
    (plain : PlainAll (moves ++ [.order i o]) {}) {graph : Graph}
    {conduct : graph.Conduct fun _ => True} {r : Runner}
    (h : (performAll moves {}).parties[i]? = some (.runner graph conduct r))
    (running : r.machine.isRunning = true) :
    let w := performAll moves {}
    let before := r.resumedOn w.hub
    let after := o.perform before
    let w' := (order i o).perform w
    (∃ n b, before.machine.current = some n ∧ graph.behaviour? n = some b ∧
      calls (o.moments conduct.deeds before) = [⟨.exit, n⟩] ∧
      after.machine.session.context.blackboard =
        (b.onExit before.machine.session).context.blackboard) ∧
    (w'.parties[i]? = some (.runner graph conduct after) ∧ w'.hub = after.hub) ∧
    (after.machine.Closed ∧ w'.registrationsBy (.context i) = []) ∧
    (o = .stop → after.Closed ∧ w'.registrationsBy (.bindings i) = []) ∧
    ∀ events : List String,
      let later := performAll (events.map .publish) w'
      let still := after.resumedOn later.hub
      later.parties = w'.parties ∧ still.machine.Closed ∧ (o = .stop → still.Closed) ∧
        o.perform still = still := by
  intro w before after w'
  obtain ⟨hdiscreet, hdiscreetStop, -⟩ := discreetAll_append.mp discreet
  obtain ⟨hplain, hplainStop, -⟩ := plainAll_append.mp plain
  have hsound : w.Sound := World.sound_empty.performAll hdiscreet
  have hsound' : w'.Sound := hsound.perform hdiscreetStop
  have haddressed' : w'.Addressed :=
    (World.addressed_empty.performAll World.sound_empty hdiscreet hplain).perform hsound hplainStop
  have hw' : w' =
      { hub := after.hub
        parties := w.parties.set i (.runner graph conduct after)
        ledger := w.ledger.noteAll i (o.moments conduct.deeds before) before.machine.session } := by
    simp only [w', perform, show w.parties[i]? = _ from h]
    rfl
  have hhub : w'.hub = after.hub := by rw [hw']
  have hparty : w'.parties[i]? = some (.runner graph conduct after) := by
    have hlt : i < w.parties.length := (List.getElem?_eq_some_iff.mp h).1
    rw [hw', List.getElem?_set_self hlt]
  -- The machine ran, so it is settled at a node that it can exit.
  have hunderway : Machine.Underway graph before.machine := by
    rcases Party.settled_resumedOn (hsound.settled i _ h) w.hub with underway | resting
    · exact underway
    · exact absurd (resting.isRunning.symm.trans running) Bool.false_ne_true
  obtain ⟨hlast, hmachine, hrunner⟩ := Order.stops_perform hunderway conduct.deeds stops
  refine ⟨hlast, ⟨hparty, hhub⟩, ⟨hmachine, ?_⟩, fun hstop => ⟨(hrunner hstop).1, ?_⟩, ?_⟩
  · exact hsound'.registrationsBy_eq_nil (hsound'.held_of_untracked hparty hmachine.untracked)
  · exact hsound'.registrationsBy_eq_nil
      (Ledger.Binds.held_of_disabled (hsound'.bound i _ hparty) (hrunner hstop).1.disabled)
  · intro events later still
    have hparties : later.parties = w'.parties := by simp only [later, performAll_publish]
    have hstill := haddressed'.machine_closed_later hsound' hparty hhub hmachine events
    refine ⟨hparties, hstill, fun hstop => ?_, ?_⟩
    · obtain ⟨hclosed, habsent⟩ := hrunner hstop
      exact (haddressed'.closed_later hsound' hparty hhub hclosed habsent events).1
    -- A second stop finds a machine that is stopped already, and bindings that are disabled.
    · rcases stops with rfl | rfl
      · obtain ⟨hclosed, habsent⟩ := hrunner rfl
        exact (haddressed'.closed_later hsound' hparty hhub hclosed habsent events).2
      · have hstop : still.machine.stop = still.machine := Machine.stop_of_stopped hstill.stopped
        exact congrArg (fun machine => { still with machine }) hstop

/-- What the porch does when it is left: it registers in every way that there is, publishes what it
has just begun to watch and what the runner is bound to, asks for itself, and writes something
down. -/
def porch : Script where
  exit := [.watch "knock", .listen "chime", .listenWhileActive "chime", .publish "knock",
    .publish "doorbell", .request "porch", .set "left" (.seed (.bool true))]

/-- A runner on the porch, with a binding that has been used. -/
def Move.visitToPorch : List Move :=
  let cast : Cast Deed.KeepsPlace := [("porch", porch.actor)]
  [.create (cast.graph [] none) ((cast.conduct [] none).weaken fun _ _ => trivial)
      { bindings := [⟨"doorbell", "porch"⟩] },
    .order 0 .start, .publish "doorbell"]

/-- The runner is stopped while an event waits for it and its node makes ready for more. -/
theorem Move.stop_tears_down_porch :
    let w := performAll visitToPorch {}
    DiscreetAll (visitToPorch ++ [.order 0 .stop]) {} ∧
      PlainAll (visitToPorch ++ [.order 0 .stop]) {} ∧
      ∃ graph conduct r, w.parties[0]? = some (.runner graph conduct r) ∧
        r.machine.isRunning = true ∧ w.hub.queue r.address = ["porch"] ∧
        (r.resumedOn w.hub).stop.Closed ∧
        ∀ events : List String,
          let later := performAll (events.map .publish) ((order 0 .stop).perform w)
          let still := (r.resumedOn w.hub).stop.resumedOn later.hub
          still.Closed ∧ still.stop = still := by
  intro w
  have discreet : DiscreetAll (visitToPorch ++ [.order 0 .stop]) {} := by decide +kernel
  have plain : PlainAll (visitToPorch ++ [.order 0 .stop]) {} := by decide +kernel
  refine ⟨discreet, plain, _, _, _, rfl, by decide +kernel, by decide +kernel, ?_⟩
  obtain ⟨-, -, -, hstopped, hlater⟩ :=
    stop_tears_down (.inl rfl) discreet plain rfl (by decide +kernel)
  refine ⟨(hstopped rfl).1, fun events => ?_⟩
  obtain ⟨-, -, hclosed, hstop⟩ := hlater events
  exact ⟨hclosed rfl, hstop⟩

end WorkflowGraph
