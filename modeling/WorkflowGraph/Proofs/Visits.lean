import WorkflowGraph.Proofs.DoorRuns
import WorkflowGraph.Proofs.Entries
import WorkflowGraph.Proofs.Trail

/-!
# What a summary tells of the nodes visited

A node is entered when it is called for the first time, and each time this leaves one record, so
that the nodes entered in a run are the targets of its records (`Order.entered_chronicle`).  This
holds of any machine, operation by operation, whatever its nodes do.

A scenario reads the nodes visited back from the history of its machine when it is over.  The
history keeps as many records as it has room for, and so the summary lists the nodes entered last,
which are all of them only as long as there is room (`Scenario.summary_tells_last_visits`).
-/

namespace List

variable {α : Type} {l : List α} {n : Nat}

/-- The last items of a list end as the list does, if there are any. -/
lemma getLast?_rtake_eq_iff (some : l ≠ []) : (l.rtake n).getLast? = l.getLast? ↔ n ≠ 0 := by
  have hlength : 0 < l.length := length_pos_of_ne_nil some
  rw [rtake, getLast?_drop]
  split
  · have hnone : l.getLast? ≠ none := mt getLast?_eq_none_iff.mp some
    have hzero : n = 0 := by omega
    simp [hzero, hnone.symm]
  · have hpos : n ≠ 0 := by omega
    simp [hpos]

end List

namespace WorkflowGraph

namespace Machine

variable (deeds : Guid → Phase → Session → List Deed)

/-! ## Nodes entered and records made -/

lemma entered_attemptMoments (m : Machine) (target : Guid) (reason : Reason)
    (edge : Option Edge) :
    (m.attemptMoments deeds target reason edge).filterMap Moment.entered? =
      (m.attemptRecords target reason edge).map (·.target) := by
  unfold attemptMoments attemptRecords
  split
  · exact filterMap_enterMoments deeds m target
  · rfl

lemma entered_drainMoments (m : Machine) :
    (m.drainMoments deeds).filterMap Moment.entered? = m.drainRecords.map (·.target) := by
  unfold drainMoments drainRecords
  cases m.session.context.requested with
  | none => rfl
  | some guid => exact entered_attemptMoments deeds m.withoutRequest guid .requested none

lemma entered_followMoments (m : Machine) :
    (m.followMoments deeds).filterMap Moment.entered? = m.followRecords.map (·.target) := by
  unfold followMoments followRecords
  cases m.bestEdge with
  | none => rfl
  | some e => exact entered_attemptMoments deeds m e.target .autoEdge (some e)

lemma entered_settleMoments (budget : Nat) (m : Machine) :
    (settleMoments deeds budget m).filterMap Moment.entered? =
      (settleRecords budget m).map (·.target) := by
  induction budget generalizing m with
  | zero =>
      unfold settleMoments
      split
      · rfl
      · rfl
  | succ budget ih =>
      rw [settleMoments, settleRecords, List.filterMap_append, List.map_append,
        entered_drainMoments]
      congr 1
      rcases m.drain with ⟨honoured, rest⟩
      -- A request that was honoured takes up the round; otherwise an edge may be followed in it.
      cases honoured with
      | true => exact ih rest
      | false =>
          simp only [List.filterMap_append, List.map_append, entered_followMoments]
          congr 1
          cases rest.follow? with
          | none => rfl
          | some next => exact ih next

lemma entered_resolveMoments (m : Machine) :
    (m.resolveMoments deeds).filterMap Moment.entered? = m.resolveRecords.map (·.target) := by
  unfold resolveMoments resolveRecords
  cases m.mode with
  | single => exact entered_followMoments deeds m
  | untilStable => exact entered_settleMoments deeds m.budget m

/-- A node that is called in a frame is not entered. -/
lemma entered_currentMoments (m : Machine) {phase : Phase} (later : phase ≠ .enter) :
    (m.currentMoments deeds phase).filterMap Moment.entered? = [] := by
  have hcall : ∀ guid, Moment.entered? (.called phase guid) = none := by
    cases phase with
    | enter => exact absurd rfl later
    | update | fixedUpdate | exit => exact fun _ => rfl
  unfold currentMoments
  split
  · split
    · rw [callMoments, List.filterMap_cons, hcall, filterMap_entered?_dids]
    · rfl
  · rfl

lemma entered_tickMoments (m : Machine) (deltaTime : Float32) :
    (m.advanceMoments deeds deltaTime ++
        (m.advance deltaTime).2.resolveMoments deeds).filterMap Moment.entered? =
      (m.tickRecords deltaTime).map (·.target) := by
  have hadvance : (m.advanceMoments deeds deltaTime).filterMap Moment.entered? =
      m.nextFrame.flush.drainRecords.map (·.target) := by
    simp only [advanceMoments, List.filterMap_append, List.filterMap_cons, Moment.entered?,
      entered_drainMoments, entered_currentMoments deeds _ (show Phase.update ≠ .enter by decide),
      List.filterMap_nil, List.append_nil]
    rfl
  rw [List.filterMap_append, hadvance, entered_resolveMoments, tickRecords, List.map_append]

end Machine

namespace Command

open Machine

variable (deeds : Guid → Phase → Session → List Deed)

/-- The nodes that a command enters are the targets of its records. -/
lemma entered_moments (c : Command) (m : Machine) :
    (c.moments deeds m).filterMap Moment.entered? = (c.transitions m).map (·.target) := by
  have hforce : ∀ guid reason, (m.forceMoments deeds guid reason).filterMap Moment.entered? =
      (m.forceRecords guid reason).map (·.target) := by
    intro guid reason
    unfold forceMoments forceRecords
    split
    · exact entered_attemptMoments deeds m guid reason none
    · rfl
  cases c with
  | start =>
      simp only [moments, transitions, startMoments, startRecords]
      split
      · rfl
      · cases m.graph.defects with
        | cons d rest => rfl
        | nil =>
            cases m.graph.resolvedEntry with
            | none => rfl
            | some entry => exact entered_attemptMoments deeds m.opened entry .start none
  | stop =>
      simp only [moments, transitions, stopMoments]
      split
      · rw [List.filterMap_append]
        cases m.current with
        | none => rfl
        | some guid =>
            simp only [filterMap_leaveMoments]
            rfl
      · rfl
  | tick deltaTime =>
      simp only [moments, transitions, tickMoments]
      split
      · exact entered_tickMoments deeds m deltaTime
      · rfl
  | tickFixed fixedDeltaTime =>
      simp only [moments, transitions, tickFixedMoments]
      split
      · exact entered_currentMoments deeds
          (m.onSession (Deed.elapseFixed fixedDeltaTime).perform)
          (show Phase.fixedUpdate ≠ .enter by decide)
      · rfl
  | enter guid => exact hforce guid .manual
  | enterFromEvent guid => exact hforce guid .externalEvent
  | setClock clock => rfl
  | host d => rfl

lemma entered_ownChronicle (commands : List Command) (m : Machine) :
    (ownChronicle deeds commands m).filterMap Moment.entered? =
      (transitionsAll commands m).map (·.target) := by
  induction commands generalizing m with
  | nil => rfl
  | cons c rest ih =>
      have hown : (c.ownMoments deeds m).filterMap Moment.entered? =
          (c.transitions m).map (·.target) := by
        have hmoments := entered_moments deeds c m
        cases c with
        | host d => rfl
        | _ => exact hmoments
      rw [ownChronicle, transitionsAll, List.filterMap_append, List.map_append, hown, ih]

lemma transitionsAll_append (before after : List Command) (m : Machine) :
    transitionsAll (before ++ after) m =
      transitionsAll before m ++ transitionsAll after (performAll before m) := by
  induction before generalizing m with
  | nil => rfl
  | cons c rest ih =>
      rw [List.cons_append, transitionsAll, transitionsAll, ih, List.append_assoc,
        performAll_cons]

end Command

namespace Order

/-- **The nodes that are entered are the targets of the records.**  Whatever a runner is told and
whatever its nodes do, in the order in which they are entered. -/
lemma entered_chronicle (deeds : Guid → Phase → Session → List Deed) (orders : List Order)
    (r : Runner) :
    (chronicle deeds orders r).filterMap Moment.entered? =
      (Command.transitionsAll (commandsAll orders r) r.machine).map (·.target) := by
  induction orders generalizing r with
  | nil => rfl
  | cons o rest ih =>
      have hfirst : (o.moments deeds r).filterMap Moment.entered? =
          (Command.transitionsAll (o.commands r) r.machine).map (·.target) := by
        cases o with
        | machine c =>
            rw [moments, Command.entered_moments, commands, Command.transitionsAll,
              Command.transitionsAll, List.append_nil]
        | _ => exact Command.entered_ownChronicle deeds _ r.machine
      rw [chronicle, commandsAll, Command.transitionsAll_append, List.filterMap_append,
        List.map_append, hfirst, ← machine_perform, ih]

end Order

/-! ## Runs that are started once -/

namespace Command

open Machine

variable {g : Graph} {m : Machine}

/-- Only a start leaves the record of a start. -/
lemma reason_of_mem_transitions {c : Command} (starts : c ≠ .start) {t : Transition}
    (h : t ∈ c.transitions m) : t.reason ≠ .start := by
  have hforce : ∀ guid reason, reason ≠ .start → t ∈ m.forceRecords guid reason →
      t.reason ≠ .start := by
    intro guid reason hreason ht
    unfold forceRecords attemptRecords at ht
    split at ht
    · split at ht
      · rw [List.mem_singleton.mp ht]
        exact hreason
      · cases ht
    · cases ht
  cases c with
  | start => exact absurd rfl starts
  | tick deltaTime =>
      rw [transitions] at h
      split at h
      · rename_i running
        rcases (walk_tick running deltaTime).1.reason_of_mem h with hreason | hreason
        · simp [hreason]
        · simp [hreason]
      · cases h
  | enter guid => exact hforce guid .manual (by decide) h
  | enterFromEvent guid => exact hforce guid .externalEvent (by decide) h
  | stop | tickFixed | setClock | host => cases h

lemma reason_of_mem_transitionsAll {commands : List Command} (starts : .start ∉ commands)
    {t : Transition} (h : t ∈ transitionsAll commands m) : t.reason ≠ .start := by
  induction commands generalizing m with
  | nil => cases h
  | cons c rest ih =>
      rcases List.mem_append.mp h with hfirst | hrest
      · exact reason_of_mem_transitions (fun hc => starts (hc ▸ List.mem_cons_self)) hfirst
      · exact ih (fun hc => starts (List.mem_cons_of_mem c hc)) hrest

lemma underway_performAll (underway : Underway g m) {commands : List Command}
    (stops : .stop ∉ commands) : Underway g (performAll commands m) := by
  induction commands generalizing m with
  | nil => exact underway
  | cons c rest ih =>
      have hfirst := underway_perform underway (c := c) fun hc => stops (hc ▸ List.mem_cons_self)
      exact ih hfirst fun hc => stops (List.mem_cons_of_mem c hc)

end Command

namespace Order

/-- The order is one of those that a scenario is made of. -/
def Plays (o : Order) : Prop := (∃ event, o = .machine (.host (.publish event))) ∨ ∃ t, o = .tick t

lemma plays_scenarioOrders (cues : List Cue) (deltaTime : Float32) (count frame : Nat) :
    ∀ o ∈ Door.scenarioOrders cues deltaTime count frame, o.Plays := by
  induction count generalizing frame with
  | zero => exact nofun
  | succ count ih =>
      intro o ho
      rcases List.mem_append.mp ho with hcue | hrest
      · obtain ⟨c, -, rfl⟩ := List.mem_map.mp hcue
        exact .inl ⟨c.event, rfl⟩
      · rcases List.mem_cons.mp hrest with rfl | hlater
        · exact .inr ⟨deltaTime, rfl⟩
        · exact ih (frame + 1) o hlater

/-- In a scenario the machine is neither started again nor stopped. -/
lemma goesOn_of_plays {orders : List Order} (plays : ∀ o ∈ orders, o.Plays) (r : Runner) :
    .start ∉ commandsAll orders r ∧ .stop ∉ commandsAll orders r := by
  induction orders generalizing r with
  | nil => exact ⟨List.not_mem_nil, List.not_mem_nil⟩
  | cons o rest ih =>
      obtain ⟨hstart, hstop⟩ := ih (fun o ho => plays o (List.mem_cons_of_mem _ ho)) (o.perform r)
      have hown : .start ∉ o.commands r ∧ .stop ∉ o.commands r := by
        rcases plays o List.mem_cons_self with ⟨event, rfl⟩ | ⟨deltaTime, rfl⟩
        · simp [commands]
        · simp only [commands]
          split
          · exact ⟨List.not_mem_nil, List.not_mem_nil⟩
          · simp [Runner.stepCommands]
      simp only [commandsAll, List.mem_append, not_or]
      exact ⟨⟨hown.1, hstart⟩, hown.2, hstop⟩

end Order

namespace Machine

variable {g : Graph} {m : Machine}

lemma length_startRecords_le (m : Machine) : m.startRecords.length ≤ 1 := by
  unfold startRecords attemptRecords
  split
  · exact Nat.zero_le 1
  · split
    · split
      · exact Nat.le_refl 1
      · exact Nat.zero_le 1
    · exact Nat.zero_le 1

/-- A machine that has been started runs. -/
lemma underway_of_start {started : Machine} (resting : Resting g m)
    (h : m.start = .ok started) : Underway g started := by
  by_cases valid : m.graph.defects = []
  · obtain ⟨entry, entered, -, hentered, hok, -⟩ :=
      exists_entered_of_start resting.isRunning resting.current valid
    rw [hok] at h
    cases h
    exact underway_of_enter? (m := m.opened) resting.graph rfl hentered
  · rw [(start_of_defects resting.isRunning valid fun _ _ _ => []).1] at h
    cases h

end Machine

namespace Command

open Machine

variable {g : Graph} {capacity : Nat} {m : Machine} {later : List Command}

/-- If a machine is started once, at most the first record is that of a start. -/
lemma reason_of_mem_tail_transitionsAll (starts : .start ∉ later) {t : Transition}
    (h : t ∈ (transitionsAll (.start :: later) m).tail) : t.reason ≠ .start := by
  have hshort : m.startRecords.length ≤ 1 := length_startRecords_le m
  rw [transitionsAll, transitions] at h
  refine reason_of_mem_transitionsAll starts (m := Command.start.perform m) ?_
  cases hrecords : m.startRecords with
  | nil =>
      rw [hrecords] at h
      exact List.mem_of_mem_tail h
  | cons first rest =>
      obtain rfl : rest = [] := by simpa [hrecords] using hshort
      rw [hrecords] at h
      exact h

/-- The records of a machine that has been started once and still runs: they lead from the entry
to the current node, and each to another node than the one before. -/
lemma targets_of_started (traced : Traced g capacity [] m) (starts : .start ∉ later)
    (running : (performAll (.start :: later) m).isRunning = true) :
    let targets := (transitionsAll (.start :: later) m).map (·.target)
    targets ≠ [] ∧ targets.head? = g.resolvedEntry ∧ targets.IsChain (· ≠ ·) ∧
      targets.getLast? = (performAll (.start :: later) m).current := by
  intro targets
  have htraced := traced_performAll traced (.start :: later)
  rw [List.nil_append] at htraced
  obtain ⟨-, last, hlast, hcurrent, -⟩ := htraced.running running
  have hsome : transitionsAll (.start :: later) m ≠ [] := by
    intro hnil
    rw [hnil] at hlast
    cases hlast
  refine ⟨by simpa [targets] using hsome, ?_, ?_, ?_⟩
  · obtain ⟨first, hfirst⟩ := Option.ne_none_iff_exists'.mp (mt List.head?_eq_none_iff.mp hsome)
    have hreason := htraced.linked.first first hfirst
    obtain ⟨-, hentry, -⟩ := htraced.linked.start first (List.mem_of_head? hfirst) hreason
    rw [List.head?_map, hfirst, hentry]
    rfl
  · rw [List.isChain_map]
    -- Entries after the first come from somewhere else, as only a start may enter anew.
    refine htraced.linked.next.imp_of_mem_tail_imp fun t u _ hu hlink => ?_
    obtain ⟨-, hother, -⟩ := hlink (reason_of_mem_tail_transitionsAll starts hu)
    exact hother.symm
  · rw [hcurrent, List.getLast?_map, hlast]
    rfl

end Command

/-- A runner whose start succeeds has started its machine. -/
lemma Runner.underway_of_start {g : Graph} {r : Runner} (resting : Machine.Resting g r.machine)
    (starts : r.start.1 = .ok ()) :
    Machine.Underway g (Command.start.perform r.seeded.machine) := by
  have hseeded : Machine.Resting g r.seeded.machine :=
    ⟨resting.graph, resting.isRunning, resting.current⟩
  cases hmachine : r.seeded.machine.start with
  | ok started =>
      have hstarted : Command.start.perform r.seeded.machine = started := by
        show r.seeded.machine.start.toOption.getD _ = started
        rw [hmachine]
        rfl
      rw [hstarted]
      exact Machine.underway_of_start hseeded hmachine
  | error e =>
      rw [start_of_error resting.isRunning hmachine] at starts
      cases starts

namespace Order

open Command

/-- A scenario starts the machine once, after the seeding, and does not stop it. -/
lemma exists_commands_of_plays {r : Runner} (resting : r.machine.isRunning = false)
    {orders : List Order} (plays : ∀ o ∈ orders, o.Plays) :
    ∃ later, commandsAll (.start :: orders) r = r.seedCommands ++ .start :: later ∧
      .start ∉ later ∧ .stop ∉ later := by
  obtain ⟨last, hcommands, hlast⟩ := Runner.start_eq resting
  obtain ⟨hstart, hstop⟩ := goesOn_of_plays plays (Order.start.perform r)
  have hown : ∀ c ∈ last, c ≠ .start ∧ c ≠ .stop := by
    intro c hc
    rcases hlast with ⟨rfl, -⟩ | ⟨rfl, -⟩
    · obtain ⟨b, rfl⟩ := Runner.exists_of_mem_enableCommands hc
      exact ⟨nofun, nofun⟩
    · cases hc
  refine ⟨last ++ commandsAll orders (Order.start.perform r), ?_, ?_, ?_⟩
  · rw [commandsAll, commands, hcommands]
    simp
  · exact fun h => (List.mem_append.mp h).elim (fun hc => (hown _ hc).1 rfl) hstart
  · exact fun h => (List.mem_append.mp h).elim (fun hc => (hown _ hc).2 rfl) hstop

end Order

/-! ## Summaries -/

namespace Scenario

open Command (performAll transitionsAll)

variable (deeds : Guid → Phase → Session → List Deed) (cues : List Cue) (count : Nat)
  (deltaTime : Float32)

/-- What a runner is told in a scenario. -/
def orders : List Order := .start :: Door.scenarioOrders cues deltaTime count 1

/-- The nodes that are entered in a scenario, oldest first.  What the nodes are said to do there
makes no difference to it. -/
def visits (r : Runner) : List Guid :=
  (Order.chronicle deeds (orders cues count deltaTime) r).filterMap Moment.entered?

lemma exists_create {graph settings : Option String} {r : Runner}
    (loads : runner graph settings = .ok r) :
    ∃ g s, r = Runner.create g {} s := by
  unfold runner at loads
  cases graph with
  | none | some =>
      obtain ⟨g, -, h⟩ := bind_eq_ok loads
      cases settings with
      | none | some =>
          obtain ⟨s, -, h⟩ := bind_eq_ok h
          exact ⟨g, s, (Except.ok.inj h).symm⟩

/-- At the end of a scenario the current node and the history are those of the nodes entered. -/
lemma visits_eq (g : Graph) (s : RunnerSettings)
    (starts : (Runner.create g {} s).start.1 = .ok ()) :
    let r := Runner.create g {} s
    let m := (Order.performAll (orders cues count deltaTime) r).machine
    let visits := visits deeds cues count deltaTime r
    visits ≠ [] ∧ visits.head? = g.resolvedEntry ∧ visits.IsChain (· ≠ ·) ∧
      visits.getLast? = m.current ∧ m.history.total = visits.length ∧
      m.history.records.map (·.target) = visits.rtake s.machine.historyCapacity := by
  intro r m visits
  have hplays := Order.plays_scenarioOrders cues deltaTime count 1
  obtain ⟨later, hcommands, hstart, hstop⟩ :=
    Order.exists_commands_of_plays (r := r) rfl hplays
  have hmachine : m = performAll (.start :: later) r.seeded.machine := by
    show (Order.performAll (.start :: _) r).machine = _
    rw [Order.machine_performAll, hcommands, Command.performAll_append, Runner.machine_seeded]
  have hvisits : visits =
      (transitionsAll (.start :: later) r.seeded.machine).map (·.target) := by
    show (Order.chronicle deeds (.start :: _) r).filterMap Moment.entered? = _
    rw [Order.entered_chronicle, hcommands, Command.transitionsAll_append]
    rfl
  have htraced : Machine.Traced g s.machine.historyCapacity [] r.seeded.machine :=
    Command.traced_performAll (Command.traced_outset g _ s.machine) r.seedCommands
  -- None of the orders of a scenario stops the machine.
  have hrunning : m.isRunning = true := by
    have hstarted := Runner.underway_of_start (r := r) ⟨rfl, rfl, rfl⟩ starts
    rw [hmachine, Command.performAll_cons]
    exact (Command.underway_performAll hstarted hstop).isRunning
  have hhistory := (Command.traced_performAll htraced (.start :: later)).history
  rw [← hmachine, List.nil_append, History.pushAll_empty] at hhistory
  obtain ⟨hsome, hhead, hchain, hlast⟩ :=
    Command.targets_of_started htraced hstart (hmachine ▸ hrunning)
  rw [← hvisits] at hsome hhead hchain hlast
  rw [← hmachine] at hlast
  refine ⟨hsome, hhead, hchain, hlast, ?_, ?_⟩
  · rw [hhistory, hvisits, List.length_map]
  · rw [hhistory, hvisits, List.rtake, List.rtake, List.map_drop, List.length_map]

/-- **A summary tells which nodes were entered last.**  Take any texts of a graph and of settings
that load and start, any events, and any number of frames of any length.  The nodes that are entered
begin with the entry of the graph; each is another one than the one before; and there are as many of
them as there have been changes of node.

The scenario runs, and its summary ends at the node that was entered last.  It lists as many of the
nodes entered last as the history has room for: hence it lists every node exactly if there is room
for all of them, and its list ends at the final node exactly if there is room for one. -/
theorem summary_tells_last_visits {graph settings : Option String} {r : Runner}
    (loads : runner graph settings = .ok r) (starts : r.start.1 = .ok ()) :
    let visits := visits deeds cues count deltaTime r
    let capacity := r.machine.history.capacity
    visits ≠ [] ∧ visits.head? = r.machine.graph.resolvedEntry ∧ visits.IsChain (· ≠ ·) ∧
    visits.length =
      (Order.performAll (orders cues count deltaTime) r).machine.history.total ∧
    ∃ summary, run graph settings cues count deltaTime = .ok summary ∧
      summary.finalNode = visits.getLast? ∧
      summary.visited = visits.rtake capacity ∧
      (summary.visited = visits ↔ visits.length ≤ capacity) ∧
      (summary.visited.getLast? = summary.finalNode ↔ capacity ≠ 0) := by
  intro visits capacity
  obtain ⟨g, s, rfl⟩ := exists_create loads
  obtain ⟨hsome, hhead, hchain, hlast, htotal, hrecords⟩ :=
    visits_eq deeds cues count deltaTime g s starts
  have hrun := Door.run_of_start loads starts cues count deltaTime
  have hframes := Door.frames_eq cues deltaTime count 1 (Runner.create g {} s).start.2
  have hfinal : (play cues count deltaTime (Runner.create g {} s).start.2).finalNode =
      visits.getLast? := by
    rw [play, hframes]
    exact hlast.symm
  have hvisited : (play cues count deltaTime (Runner.create g {} s).start.2).visited =
      visits.rtake capacity := by
    rw [play, hframes]
    exact hrecords
  refine ⟨hsome, hhead, hchain, htotal.symm, _, hrun, hfinal, hvisited, ?_, ?_⟩
  · rw [hvisited]
    exact List.rtake_eq_self_iff
  · rw [hvisited, hfinal]
    exact List.getLast?_rtake_eq_iff hsome

/-- Somebody knocks at the door, and there is room for all nodes entered. -/
theorem summary_tells_last_visits_knock :
    let r := Runner.create Door.graph {} Door.settings
    runner none none = .ok r ∧ r.start.1 = .ok () ∧
      ∃ summary, run none none [⟨1, "knock"⟩] 2 0.5 = .ok summary ∧
        summary.visited = ["closed", "greet", "opening"] ∧ summary.finalNode = some "opening" := by
  intro r
  have starts : r.start.1 = .ok () := (Door.Kept.create Hub.regular_empty).start.1
  have hvisits : visits (fun _ _ _ => []) [⟨1, "knock"⟩] 2 0.5 r =
      ["closed", "greet", "opening"] := by decide +kernel
  obtain ⟨-, -, -, -, summary, hrun, hfinal, -, hall, -⟩ :=
    summary_tells_last_visits (fun _ _ _ => []) [⟨1, "knock"⟩] 2 0.5 Door.runner_none starts
  rw [hvisits] at hfinal hall
  exact ⟨Door.runner_none, starts, summary, hrun, hall.mpr (by decide), hfinal⟩

/-- Two nodes that lead to each other. -/
def seesaw : String :=
  "\x7b\"nodes\":[\x7b\"guid\":\"a\",\"node\":[\"Empty\"]\x7d," ++
    "\x7b\"guid\":\"b\",\"node\":[\"Empty\"]\x7d]," ++
    "\"edges\":[[\"e\",\"a\",\"\",\"b\"],[\"f\",\"b\",\"\",\"a\"]]\x7d"

/-- The graph of the seesaw. -/
def seesawGraph : Graph :=
  .assemble [{ guid := "a", behaviour := some .empty }, { guid := "b", behaviour := some .empty }]
    [.make "e" "a" "" "b", .make "f" "b" "" "a"] none []

set_option maxRecDepth 20000 in
lemma load_seesaw : Registry.builtin.load seesaw = .ok seesawGraph := by
  let document : Document :=
    { nodes := [{ guid := "a", node := some ⟨"Empty", .null⟩ },
        { guid := "b", node := some ⟨"Empty", .null⟩ }]
      edges := [{ guid := "e", source := "a", target := "b" },
        { guid := "f", source := "b", target := "a" }] }
  have htext : Document.ofText seesaw = .ok document := rfl
  have hnodes : document.nodes.mapM Registry.builtin.makeNode = .ok seesawGraph.nodes :=
    mapM_eq_ok_iff.mpr <|
      .cons (Registry.makeNode_of_maker rfl rfl rfl) <|
      .cons (Registry.makeNode_of_maker rfl rfl rfl) .nil
  rw [Registry.load, htext]
  show Registry.builtin.graphOf document = _
  rw [Registry.graphOf, hnodes]
  rfl

/-- With the settings of the door eight frames enter 65 nodes, from the entry on.  The history has
room for 64, so that the list of the summary does not begin with the entry. -/
theorem earliest_visit_is_lost :
    (runner (some seesaw) none).toOption.map (fun r =>
        (r.machine.graph.resolvedEntry, (visits (fun _ _ _ => []) [] 8 0.5 r).length)) =
      some (some "a", 65) ∧
    (run (some seesaw) none [] 8 0.5).toOption.map (fun s => (s.visited.head?, s.visited.length)) =
      some (some "b", 64) := by
  simp only [runner, run, load_seesaw]
  decide +kernel

end Scenario

end WorkflowGraph
