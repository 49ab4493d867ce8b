import WorkflowGraph.Proofs.Coherence
import WorkflowGraph.Proofs.Waiting

/-!
# How a runner takes up what waits for it

At the beginning of a step a runner empties its queue and sends the machine to the nodes that
were in it, one after the other.  `Machine.entriesFrom` lists the changes of node that this should
make: a node that is current already or unknown is passed over.  `Machine.enterAll_spec` says that
it does make them, whatever the nodes do while they are called, and that nothing else gets into
the history.

The main result `Order.entries_in_order` puts this together with what is known of the queue.
-/

namespace WorkflowGraph

/-- The node that is called for the first time at a moment. -/
def Moment.entered? : Moment → Option Guid
  | .called .enter n => some n
  | _ => none

/-- The targets that a deed leads to. -/
def Deed.targets (bindings : List Binding) : Deed → List Guid
  | .publish event => Binding.targets bindings event
  | _ => []

/-- The targets that a moment leads to. -/
def Moment.targets (bindings : List Binding) : Moment → List Guid
  | .did d | .managed d => d.targets bindings
  | .called .. | .compared => []

namespace Machine

/-- The changes of node that external events should make, one after the other. -/
def entriesFrom (m : Machine) : Option Guid → List Guid → List Transition
  | _, [] => []
  | current, guid :: rest =>
    if current = some guid ∨ m.graph.contains guid = false then m.entriesFrom current rest
    else
      { time := m.clock.now
        frame := m.frame
        source := current
        target := guid
        reason := .externalEvent
        edge := none
        port := none } :: m.entriesFrom (some guid) rest

lemma entriesFrom_congr {m m' : Machine} (hgraph : m'.graph = m.graph)
    (hclock : m'.clock = m.clock) (hframe : m'.frame = m.frame) (current : Option Guid)
    (queued : List Guid) : m'.entriesFrom current queued = m.entriesFrom current queued := by
  induction queued generalizing current with
  | nil => rfl
  | cons guid rest ih => rw [entriesFrom, entriesFrom, hgraph, hclock, hframe, ih, ih]

variable {g : Graph} (deeds : Guid → Phase → Session → List Deed)

/-! ## One node -/

/-- Whether a running machine goes where an event leads to. -/
lemma isSome_enter?_iff {m : Machine} (underway : Underway g m) (valid : g.defects = [])
    (guid : Guid) (reason : Reason) (edge : Option Edge) :
    (m.enter? guid reason edge).isSome ↔
      ¬ (m.current = some guid ∨ m.graph.contains guid = false) := by
  have hknown := Graph.contains_iff_isSome_behaviour? valid guid
  rw [isSome_enter?, underway.graph, Bool.and_eq_true, ← hknown, not_or, bne_iff_ne,
    Bool.not_eq_false]

lemma filterMap_entered?_dids (own : List Deed) :
    (own.map Moment.did).filterMap Moment.entered? = [] := by
  rw [List.filterMap_map]
  exact List.filterMap_eq_nil_iff.mpr fun _ _ => rfl

lemma filterMap_leaveMoments (m : Machine) (guid : Guid) :
    (m.leaveMoments deeds guid).filterMap Moment.entered? = [] := by
  unfold leaveMoments
  split
  · rw [List.filterMap_append, callMoments, List.filterMap_cons, filterMap_entered?_dids]
    rfl
  · rfl

/-- In entering a node, it is the only one that is called for the first time. -/
lemma filterMap_enterMoments (m : Machine) (target : Guid) :
    (m.enterMoments deeds target).filterMap Moment.entered? = [target] := by
  have hcall : ∀ s, (callMoments deeds .enter target s).filterMap Moment.entered? = [target] := by
    intro s
    rw [callMoments, List.filterMap_cons, filterMap_entered?_dids]
    rfl
  unfold enterMoments
  rw [List.filterMap_append, List.filterMap_cons, hcall]
  cases m.current with
  | none => rfl
  | some guid =>
      rw [filterMap_leaveMoments]
      rfl

/-- An event leads a running machine to a node, or the node is current already or unknown and the
machine stays where it is. -/
lemma enterFromEvent_cases {m : Machine} (underway : Underway g m) (valid : g.defects = [])
    (guid : Guid) :
    (¬ (m.current = some guid ∨ m.graph.contains guid = false) ∧
        ∃ entered, m.enter? guid .externalEvent none = some entered ∧
          m.enterFromEvent guid = (true, entered) ∧
          m.forceMoments deeds guid .externalEvent = m.enterMoments deeds guid) ∨
      ((m.current = some guid ∨ m.graph.contains guid = false) ∧
        m.enterFromEvent guid = (false, m) ∧ m.forceMoments deeds guid .externalEvent = []) := by
  have hattempt := isSome_enter?_iff underway valid guid .externalEvent none
  simp only [enterFromEvent, force, forceMoments, attemptMoments, underway.isRunning, if_true]
  cases hentered : m.enter? guid .externalEvent none with
  | some entered =>
      rw [hentered] at hattempt
      exact .inl ⟨hattempt.mp rfl, entered, rfl, rfl, rfl⟩
  | none =>
      rw [hentered] at hattempt
      refine .inr ⟨?_, rfl, rfl⟩
      by_cases h : m.current = some guid ∨ m.graph.contains guid = false
      · exact h
      · exact absurd (hattempt.mpr h) Bool.false_ne_true

/-! ## All nodes of a queue -/

/-- What there is to say about a machine that has been sent to the nodes of a queue. -/
structure Visited (g : Graph) (m : Machine) (queued : List Guid) (m' : Machine) : Prop where
  underway : Underway g m'
  clock : m'.clock = m.clock
  frame : m'.frame = m.frame
  history : m'.history = m.history.pushAll (m.entriesFrom m.current queued)
  current : m'.current = (queued.filter g.contains).getLast?.or m.current

/-- A machine that goes to the first node of a queue. -/
lemma Visited.cons {m entered m' : Machine} {guid : Guid} {rest : List Guid}
    (underway : Underway g m)
    (goes : ¬ (m.current = some guid ∨ m.graph.contains guid = false))
    (hentered : m.enter? guid .externalEvent none = some entered)
    (visited : Visited g entered rest m') : Visited g m (guid :: rest) m' := by
  obtain ⟨-, hcurrent, -, hhistory, hframe, hclock, -⟩ := fields_of_enter? hentered
  have hgraph := (enter?_eq_some hentered).2.1
  have hknown : g.contains guid = true := by
    rw [← underway.graph, ← Bool.not_eq_false]
    exact fun h => goes (.inr h)
  refine ⟨visited.underway, visited.clock.trans hclock, visited.frame.trans hframe, ?_, ?_⟩
  · rw [visited.history, hcurrent, entriesFrom_congr hgraph hclock hframe, hhistory, entriesFrom,
      if_neg goes]
    rfl
  · rw [visited.current, hcurrent, List.filter_cons_of_pos hknown, List.getLast?_cons]
    cases (rest.filter g.contains).getLast? <;> rfl

/-- A machine that passes over the first node of a queue. -/
lemma Visited.skip {m m' : Machine} {guid : Guid} {rest : List Guid} (underway : Underway g m)
    (stays : m.current = some guid ∨ m.graph.contains guid = false)
    (visited : Visited g m rest m') : Visited g m (guid :: rest) m' := by
  refine ⟨visited.underway, visited.clock, visited.frame, ?_, ?_⟩
  · rw [visited.history, entriesFrom, if_pos stays]
  · rw [visited.current]
    cases hknown : g.contains guid with
    | false => rw [List.filter_cons_of_neg (by simp [hknown])]
    | true =>
        have hcurrent : m.current = some guid := by
          refine stays.resolve_right fun h => ?_
          rw [underway.graph, hknown] at h
          cases h
        rw [List.filter_cons_of_pos hknown, List.getLast?_cons, hcurrent]
        cases (rest.filter g.contains).getLast? <;> rfl

/-- A running machine makes the changes of node that the queue asks for, in the order of the queue,
and no other ones. -/
lemma enterAll_spec {m : Machine} (underway : Underway g m) (valid : g.defects = [])
    (queued : List Guid) :
    Visited g m queued (Runner.enterAll m queued).2 ∧
      (Runner.enterAll m queued).1 = (m.entriesFrom m.current queued).length ∧
      (Command.ownChronicle deeds (queued.map .enterFromEvent) m).filterMap Moment.entered? =
        (m.entriesFrom m.current queued).map (·.target) := by
  -- Each entry is forced on the machine that the entries before it have left; what would be entered
  -- is told from the node that is current by then.
  induction queued generalizing m with
  | nil => exact ⟨⟨underway, rfl, rfl, rfl, rfl⟩, rfl, rfl⟩
  | cons guid rest ih =>
      have hmoments : Command.ownChronicle deeds ((guid :: rest).map .enterFromEvent) m =
          m.forceMoments deeds guid .externalEvent ++
            Command.ownChronicle deeds (rest.map .enterFromEvent) (m.enterFromEvent guid).2 := rfl
      have hall : Runner.enterAll m (guid :: rest) =
          ((m.enterFromEvent guid).1.toNat + (Runner.enterAll (m.enterFromEvent guid).2 rest).1,
            (Runner.enterAll (m.enterFromEvent guid).2 rest).2) := rfl
      rw [hmoments, hall, entriesFrom, List.filterMap_append]
      rcases enterFromEvent_cases deeds underway valid guid with
        ⟨goes, entered, hentered, hforce, hcalled⟩ | ⟨stays, hforce, hcalled⟩
      · obtain ⟨-, hcurrent, -, -, hframe, hclock, -⟩ := fields_of_enter? hentered
        have hgraph := (enter?_alike hentered).graph
        have hunderway : Underway g entered :=
          underway_of_enter? underway.graph underway.isRunning hentered
        obtain ⟨hvisited, hcount, hrest⟩ := ih hunderway
        rw [hcurrent, entriesFrom_congr hgraph hclock hframe] at hcount hrest
        rw [hforce, hcalled, if_neg goes, filterMap_enterMoments]
        refine ⟨hvisited.cons underway goes hentered, ?_, ?_⟩
        · rw [hcount, List.length_cons]
          exact Nat.add_comm _ _
        · rw [hrest]
          rfl
      · obtain ⟨hvisited, hcount, hrest⟩ := ih underway
        rw [hforce, hcalled, if_pos stays]
        refine ⟨hvisited.skip underway stays, ?_, hrest⟩
        rw [hcount]
        exact Nat.zero_add _

end Machine

/-! ## A step -/

namespace Runner

variable (deeds : Guid → Phase → Session → List Deed)

/-- A runner that takes a step sends its machine to the nodes that wait, by which it becomes `m`,
and then lets it tick.  While it is `entering` the nodes, exactly those are entered that should be,
and the tick enters none on behalf of an event. -/
structure TakesUp (r : Runner) (deltaTime : Float32) (m : Machine) (entering : List Moment) :
    Prop where
  moments : (Order.step deltaTime).moments deeds r =
    .managed (.clearQueue r.address) ::
      (entering ++ m.tickMoments deeds (deltaTime * r.timeScale))
  entered : entering.filterMap Moment.entered? =
    (r.machine.entriesFrom r.machine.current r.pending).map (·.target)
  history : m.history =
    r.machine.history.pushAll (r.machine.entriesFrom r.machine.current r.pending)
  current : m.current = (r.pending.filter r.machine.graph.contains).getLast?.or r.machine.current
  machine : (r.step deltaTime).2.machine = (m.tick (deltaTime * r.timeScale)).2
  report : (r.step deltaTime).1 =
    { (m.tick (deltaTime * r.timeScale)).1 with
      transitions := (m.tick (deltaTime * r.timeScale)).1.transitions +
        (r.machine.entriesFrom r.machine.current r.pending).length }
  inside : ∃ ts, (m.tick (deltaTime * r.timeScale)).2.history = m.history.pushAll ts ∧
    ts.length = (m.tick (deltaTime * r.timeScale)).1.transitions ∧
    ∀ t ∈ ts, t.reason ≠ .externalEvent

/-- The machine that has been sent to the nodes that wait. -/
def afterEntries (r : Runner) : Machine := (enterAll r.clearPending.machine r.pending).2

/-- What happens while the machine is sent to the nodes that wait. -/
def enteringMoments (r : Runner) : List Moment :=
  Command.ownChronicle deeds (r.pending.map .enterFromEvent) r.clearPending.machine

lemma takesUp_step {g : Graph} {r : Runner} (underway : Machine.Underway g r.machine)
    (valid : g.defects = []) (deltaTime : Float32) :
    r.TakesUp deeds deltaTime r.afterEntries (r.enteringMoments deeds) := by
  have hcleared : Machine.Underway g r.clearPending.machine :=
    underway.onSession fun s => s.onHub fun h => h.clearQueue r.address
  -- Taking the entries out of the queue is nothing that they depend on.
  have hentries : r.clearPending.machine.entriesFrom r.clearPending.machine.current r.pending =
      r.machine.entriesFrom r.machine.current r.pending := by
    apply Machine.entriesFrom_congr <;> rfl
  obtain ⟨visited, hcount, hentered⟩ := Machine.enterAll_spec deeds hcleared valid r.pending
  have hhistory := visited.history
  rw [hentries] at hcount hentered hhistory
  obtain ⟨hwalk, hlength⟩ :=
    Machine.walk_tick visited.underway.isRunning (deltaTime * r.timeScale)
  refine ⟨?_, hentered, hhistory, ?_, rfl, ?_, _, hwalk.history, hlength, ?_⟩
  · have hlast : Command.performAll
        (.host (.clearQueue r.address) :: r.pending.map .enterFromEvent) r.machine =
          r.afterEntries := performAll_enterFromEvent r.pending r.clearPending.machine
    have htick : Command.ownChronicle deeds [.tick (deltaTime * r.timeScale)] r.afterEntries =
        r.afterEntries.tickMoments deeds (deltaTime * r.timeScale) := List.append_nil _
    show Command.ownChronicle deeds (r.stepCommands deltaTime) r.machine = _
    rw [stepCommands, Command.ownChronicle_append, hlast, htick]
    rfl
  · rw [underway.graph]
    exact visited.current
  · rw [← hcount]
    rfl
  · intro t ht
    rcases hwalk.reason_of_mem ht with hreason | hreason <;> rw [hreason] <;> rintro ⟨⟩

/-- After it has been emptied at the beginning of a step, the queue is not emptied again. -/
lemma managed_clearQueue_not_mem {g : Graph} {Allowed : Deed → Prop} {r : Runner}
    (p : g.Conduct Allowed) (underway : Machine.Underway g r.machine) (deltaTime : Float32) :
    .managed (.clearQueue r.address) ∉
      r.enteringMoments p.deeds ++
        r.afterEntries.tickMoments p.deeds (deltaTime * r.timeScale) := by
  have hcleared : Command.Settled g r.clearPending.machine :=
    .inl (underway.onSession fun s => s.onHub fun h => h.clearQueue r.address)
  have hlast : Command.performAll (r.pending.map .enterFromEvent) r.clearPending.machine =
      r.afterEntries := performAll_enterFromEvent r.pending r.clearPending.machine
  have htick : Command.ownChronicle p.deeds [.tick (deltaTime * r.timeScale)] r.afterEntries =
      r.afterEntries.tickMoments p.deeds (deltaTime * r.timeScale) := List.append_nil _
  rw [← htick, enteringMoments, ← hlast, ← Command.ownChronicle_append]
  intro h
  rcases Command.of_managed_mem_ownChronicle hcleared p h with
    hhost | htends | ⟨n, hn⟩ | ⟨n, hn⟩ | hdispose
  · simp at hhost
  · exact htends
  · cases hn
  · cases hn
  · cases hdispose

end Runner

/-! ## What waits after a step -/

namespace Moment

/-- If the queue is not emptied, everything that is led to it is put in. -/
lemma foldl_arrive {runner : Nat} {bindings : List Binding} {moments : List Moment}
    (keeps : .did (.clearQueue runner) ∉ moments ∧ .managed (.clearQueue runner) ∉ moments)
    (waiting : List Guid) :
    moments.foldl (arrive runner bindings) waiting =
      waiting ++ moments.flatMap (targets bindings) := by
  induction moments generalizing waiting with
  | nil => exact (List.append_nil waiting).symm
  | cons m rest ih =>
      -- Only a publication leads anything to the queue, and only an emptying takes anything out.
      have hdeed : ∀ d : Deed, d ≠ .clearQueue runner →
          d.arrive runner bindings waiting = waiting ++ d.targets bindings := by
        intro d hd
        cases d with
        | publish event => rfl
        | clearQueue address =>
            have hother : address ≠ runner := fun h => hd (h ▸ rfl)
            rw [Deed.arrive, if_neg hother]
            exact (List.append_nil waiting).symm
        | _ => exact (List.append_nil waiting).symm
      have hfirst : m.arrive runner bindings waiting = waiting ++ targets bindings m := by
        cases m with
        | did d => exact hdeed d fun h => keeps.1 (h ▸ List.mem_cons_self)
        | managed d => exact hdeed d fun h => keeps.2 (h ▸ List.mem_cons_self)
        | called | compared => exact (List.append_nil waiting).symm
      have hrest := ih ⟨fun h => keeps.1 (List.mem_cons_of_mem _ h),
        fun h => keeps.2 (List.mem_cons_of_mem _ h)⟩ (m.arrive runner bindings waiting)
      rw [List.foldl_cons, hrest, hfirst, List.flatMap_cons, List.append_assoc]

lemma not_mem_of_leaveAlone {runner : Nat} {moments : List Moment} {s : Session}
    (alone : LeaveAlone runner moments s) : .did (.clearQueue runner) ∉ moments := by
  induction moments generalizing s with
  | nil => exact List.not_mem_nil
  | cons m rest ih =>
      rw [List.mem_cons, not_or]
      cases m with
      | did d => exact ⟨fun h => alone.1.2 (Moment.did.inj h).symm, ih alone.2⟩
      | managed | called | compared => exact ⟨nofun, ih alone⟩

end Moment

namespace Order

open Command Runner

variable {g : Graph} {Allowed : Deed → Prop}

/-- **External entries are applied in order, and only at the start of a step.**  Take a new runner
on a hub and any orders, in which nodes and the host leave alone what the runner has on the hub.

* Its queue holds the last of what has been led to it since it was emptied: for each publication
  the targets of the enabled bindings for the event, in the order of the bindings.
* A step of a running runner first goes through the queue: it enters each node that is known and
  not current at the time, in the order of the queue, and passes over the others.  Just these
  changes of node get into the history on behalf of events, and are added to the report.  The tick
  begins at the last known node of the queue.
* What the nodes lead to the runner during the step waits for the next one. -/
theorem entries_in_order (p : g.Conduct Allowed) {h : Hub} (regular : h.Regular)
    (settings : RunnerSettings) (orders : List Order)
    (alone : Moment.LeaveAlone h.nextAddress
      (chronicle p.deeds orders (Runner.create g h settings))
      (Runner.create g h settings).machine.session) :
    let r := performAll orders (Runner.create g h settings)
    r.pending =
        (arrivals p.deeds orders (Runner.create g h settings) []).rtake Hub.queueLimit ∧
      (r.machine.isRunning = true → ∀ deltaTime, ∃ m entering,
        r.TakesUp p.deeds deltaTime m entering ∧
        (Moment.LeaveAlone r.address ((Order.step deltaTime).moments p.deeds r)
            r.machine.session →
          (r.step deltaTime).2.pending =
            ((entering ++ m.tickMoments p.deeds (deltaTime * r.timeScale)).flatMap
              (Moment.targets r.active)).rtake Hub.queueLimit)) := by
  intro r
  have hsettled := Runner.settled_create g h settings
  have htied : r.Tied (arrivals p.deeds orders (Runner.create g h settings) []) :=
    tied_performAll (tied_create g regular settings) hsettled p orders alone
  refine ⟨htied.pending_eq, fun running deltaTime => ?_⟩
  have hcoherent : Machine.Coherent g r.machine := by
    show Machine.Coherent g (performAll orders (Runner.create g h settings)).machine
    rw [machine_performAll]
    exact coherent_performAll _ (.stopped ⟨rfl, rfl, rfl⟩ rfl)
  cases hcoherent with
  | stopped resting fresh =>
      rw [resting.isRunning] at running
      cases running
  | running underway valid moved =>
      have htakes := r.takesUp_step p.deeds underway valid deltaTime
      refine ⟨_, _, htakes, fun aloneStep => ?_⟩
      have hstep := tied_perform htied (.inl underway) p (.step deltaTime) aloneStep
      have hpending : (r.step deltaTime).2.pending =
          (((Order.step deltaTime).moments p.deeds r).foldl (Moment.arrive r.address r.active)
            (arrivals p.deeds orders (Runner.create g h settings) [])).rtake Hub.queueLimit :=
        hstep.pending_eq
      rw [htakes.moments] at aloneStep hpending
      -- The queue is emptied as the first thing, so that what waited before is gone and what
      -- arrives later stays.
      have hkeeps := r.managed_clearQueue_not_mem p underway deltaTime
      have hemptied : Moment.arrive r.address r.active
          (arrivals p.deeds orders (Runner.create g h settings) [])
            (.managed (.clearQueue r.address)) = [] := if_pos rfl
      have hnobody : .did (.clearQueue r.address) ∉ r.enteringMoments p.deeds ++
          r.afterEntries.tickMoments p.deeds (deltaTime * r.timeScale) :=
        fun hmem => Moment.not_mem_of_leaveAlone aloneStep (List.mem_cons_of_mem _ hmem)
      rw [hpending, List.foldl_cons, hemptied, Moment.foldl_arrive ⟨hnobody, hkeeps⟩,
        List.nil_append]

/-! ### A house with a bell -/

/-- Three rooms; whoever comes to the attic knocks. -/
def rooms : Cast Deed.KeepsPlace :=
  [("hall", Actor.idle), ("cellar", Actor.idle),
    ("attic", BuiltinNode.actor (.publishEvent "knock"))]

/-- What happens in the rooms. -/
def roomsConduct : (rooms.graph [] none).Conduct Deed.KeepsPlace := rooms.conduct [] none

/-- The bell leads through the house, a knock back to the hall. -/
def bells : RunnerSettings where
  bindings := [⟨"bell", "cellar"⟩, ⟨"bell", "garden"⟩, ⟨"bell", "attic"⟩, ⟨"knock", "hall"⟩]

/-- The bell is rung in a house that has been opened. -/
def ringing : List Order := [.start, .machine (.host (.publish "bell"))]

/-- The house after that. -/
def rung : Runner := performAll ringing (Runner.create (rooms.graph [] none) {} bells)

/-- What happens up to then. -/
def openingAndBell : List Moment :=
  [.managed (.seed []), .managed .reset, .managed (.clearQueue 0), .managed (.place (some "hall")),
    .called .enter "hall", .managed (.connect "bell" (.enqueue 0 "cellar")),
    .managed (.connect "bell" (.enqueue 0 "garden")),
    .managed (.connect "bell" (.enqueue 0 "attic")),
    .managed (.connect "knock" (.enqueue 0 "hall")), .did (.publish "bell")]

/-- What happens in a step then. -/
def takingUp : List Moment :=
  [.called .exit "hall", .managed (.releaseNode "hall"), .managed (.place (some "cellar")),
    .called .enter "cellar", .called .exit "cellar", .managed (.releaseNode "cellar"),
    .managed (.place (some "attic")), .called .enter "attic", .did (.publish "knock"),
    .managed .flush, .managed .takeRequest, .managed (.elapse (0.5 * rung.timeScale)),
    .called .update "attic", .managed .flush, .compared]

/-- The bell leads to the cellar and to the attic, since there is no garden, and the knock in the
attic waits for the next step. -/
theorem entries_in_order_bell :
    rung.machine.isRunning = true ∧ rung.pending = ["cellar", "garden", "attic"] ∧
      ∃ m entering, rung.TakesUp roomsConduct.deeds 0.5 m entering ∧
        entering.filterMap Moment.entered? = ["cellar", "attic"] ∧
        m.current = some "attic" ∧ (rung.step 0.5).2.pending = ["hall"] := by
  have hrunning : rung.machine.isRunning = true := by decide +kernel
  have hmoments : (Order.step 0.5).moments roomsConduct.deeds rung =
      .managed (.clearQueue 0) :: takingUp := by rfl
  have hopening : chronicle roomsConduct.deeds ringing
      (Runner.create (rooms.graph [] none) {} bells) = openingAndBell := by rfl
  have alone : Moment.LeaveAlone 0
      (chronicle roomsConduct.deeds ringing (Runner.create (rooms.graph [] none) {} bells))
      (Runner.create (rooms.graph [] none) {} bells).machine.session := by
    rw [hopening]
    exact ⟨⟨trivial, nofun⟩, trivial⟩
  have aloneStep : Moment.LeaveAlone rung.address
      ((Order.step 0.5).moments roomsConduct.deeds rung) rung.machine.session := by
    rw [hmoments]
    exact ⟨⟨trivial, nofun⟩, trivial⟩
  obtain ⟨hpending, hsteps⟩ :=
    entries_in_order roomsConduct Hub.regular_empty bells ringing alone
  have hqueue : rung.pending = ["cellar", "garden", "attic"] := by
    refine hpending.trans ?_
    decide +kernel
  obtain ⟨m, entering, htakes, hafter⟩ := hsteps hrunning 0.5
  have hduring : entering ++ m.tickMoments roomsConduct.deeds (0.5 * rung.timeScale) = takingUp :=
    (List.cons.inj (htakes.moments.symm.trans hmoments)).2
  refine ⟨hrunning, hqueue, m, entering, htakes, ?_, ?_, ?_⟩
  · exact htakes.entered.trans (by decide +kernel)
  · exact htakes.current.trans (by decide +kernel)
  · have hlast : (rung.step 0.5).2.pending =
        ((entering ++ m.tickMoments roomsConduct.deeds (0.5 * rung.timeScale)).flatMap
          (Moment.targets rung.active)).rtake Hub.queueLimit := hafter aloneStep
    rw [hlast, hduring]
    rfl

end Order
end WorkflowGraph
