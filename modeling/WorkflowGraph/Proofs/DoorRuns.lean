import WorkflowGraph.Proofs.DoorPosture
import WorkflowGraph.Proofs.Overlay
import WorkflowGraph.Proofs.Waiting

/-!
# Runs of the door

The runner of the door is operated from outside: started and stopped, ticked, paused, enabled and
disabled, while anybody publishes any events.  Its bindings lead to `greet` and `locked` and nowhere
else, so that nothing but these waits for it, and its machine stays honest (`Door.Kept`).  Hence the
door never lies about being open, in no run and in no scenario (`Door.never_lies`).
-/

namespace WorkflowGraph.Door

open Command (Settled)

/-- The nodes that the bindings of the door lead to. -/
def calls : List Guid := settings.bindings.map (·.target)

lemma posture_of_mem_calls : ∀ guid ∈ calls, posture guid = none ∧ sets guid = none := by decide

lemma Modest.leavesAlone {d : Deed} (modest : Modest d) (runner : Nat) (s : Session) :
    d.LeavesAlone runner s := by
  cases d with
  | edit | watch | publish | note => exact ⟨trivial, nofun⟩
  | _ => exact modest.elim

/-! ## What the runner does to its machine -/

namespace Honest

variable {m : Machine}

lemma performAll (honest : Honest m) {commands : List Command}
    (unrelated : ∀ c ∈ commands, ∃ d, c = .host d ∧ Unrelated d) :
    Honest (Command.performAll commands m) := by
  induction commands generalizing m with
  | nil => exact honest
  | cons c rest ih =>
      obtain ⟨d, rfl, hd⟩ := unrelated c List.mem_cons_self
      have hfirst := honest.onSession (hd.perform m.session)
      exact ih hfirst fun c hc => unrelated c (List.mem_cons_of_mem _ hc)

lemma enterAll (honest : Honest m) {queued : List Guid} (called : ∀ guid ∈ queued, guid ∈ calls) :
    Honest (Runner.enterAll m queued).2 := by
  induction queued generalizing m with
  | nil => exact honest
  | cons guid rest ih =>
      obtain ⟨hposture, hsets⟩ := posture_of_mem_calls guid (called guid List.mem_cons_self)
      have hfirst := honest.force hposture hsets .externalEvent
      exact ih hfirst fun guid hguid => called guid (List.mem_cons_of_mem _ hguid)

end Honest

/-! ## The runner between two operations -/

/-- The orders that the door is operated with: whatever a runner can be told, and publications.
Nobody sends the machine anywhere or writes to its context. -/
def Operates : Order → Prop
  | .machine (.host (.publish _)) => True
  | .machine _ => False
  | _ => True

lemma Operates.exists_publish {c : Command} (operates : Operates (.machine c)) :
    ∃ event, c = .host (.publish event) := by
  cases c with
  | host d =>
      cases d with
      | publish event => exact ⟨event, rfl⟩
      | _ => exact operates.elim
  | _ => exact operates.elim

lemma Operates.hostMay {o : Order} (operates : Operates o) : o.HostMay Modest := by
  cases o with
  | machine c =>
      obtain ⟨event, rfl⟩ := operates.exists_publish
      trivial
  | _ => trivial

/-- A runner of the door whose machine is honest, and for which nothing waits but calls. -/
structure Kept (r : Runner) : Prop where
  honest : Honest r.machine
  settled : Settled graph r.machine
  bindings : r.bindings = settings.bindings
  overrides : r.overrides = []
  tied : ∃ waiting, r.Tied waiting ∧ ∀ guid ∈ waiting, guid ∈ calls

namespace Kept

open Runner

variable {r : Runner}

lemma create {h : Hub} (regular : h.Regular) : Kept (Runner.create graph h settings) where
  honest := ⟨rfl, rfl, rfl, rfl, nofun⟩
  settled := settled_create graph h settings
  bindings := rfl
  overrides := rfl
  tied := ⟨[], tied_create graph regular settings, nofun⟩

lemma honest_enable {r : Runner} (honest : Honest r.machine) : Honest r.enable.machine := by
  rw [machine_enable]
  apply honest.performAll
  intro c hc
  obtain ⟨b, rfl⟩ := exists_of_mem_enableCommands hc
  exact ⟨_, rfl, trivial⟩

lemma honest_disable {r : Runner} (honest : Honest r.machine) : Honest r.disable.machine := by
  rw [machine_disable]
  apply honest.performAll
  intro c hc
  obtain ⟨token, rfl⟩ := exists_of_mem_disableCommands hc
  exact ⟨_, rfl, trivial⟩

lemma honest_clearPending {r : Runner} (honest : Honest r.machine) :
    Honest r.clearPending.machine :=
  honest.onSession (Unrelated.perform (d := .clearQueue r.address) trivial r.machine.session)

lemma shown_seeded (kept : Kept r) : shown r.seeded.machine.session = some (told false) := by
  have hinitial :
      Entry.overlay r.machine.graph.defaults r.overrides = [⟨openKey, .bool false⟩] := by
    rw [kept.honest.plan, kept.overrides, Entry.overlay_eq_foldl]
    rfl
  show ((∅ : Blackboard).writeAll
    (Entry.overlay r.machine.graph.defaults r.overrides))[openKey]? = _
  rw [hinitial]
  exact Std.ExtTreeMap.getElem?_insert_self

/-- The door starts, and its machine is honest then. -/
lemma start (kept : Kept r) : r.start.1 = .ok () ∧ Honest r.start.2.machine := by
  rcases kept.settled with underway | resting
  -- a runner that runs stays as it is
  · simpa [Runner.start, underway.isRunning] using kept.honest
  · have hcurrent : r.seeded.machine.current = none := resting.current
    have hseeded : Honest r.seeded.machine :=
      ⟨kept.honest.plan, kept.honest.mode, kept.honest.budget, rfl, by simp [hcurrent]⟩
    obtain ⟨started, hstart, hstarted⟩ := hseeded.exists_start resting.isRunning kept.shown_seeded
    rw [start_of_ok resting.isRunning hstart]
    exact ⟨rfl, honest_enable hstarted⟩

lemma step (kept : Kept r) (deltaTime : Float32) :
    Honest (r.step deltaTime).2.machine ∧ (r.step deltaTime).1.capped = false := by
  have hpending : ∀ guid ∈ r.pending, guid ∈ calls := by
    intro guid hguid
    obtain ⟨waiting, htied, hcalls⟩ := kept.tied
    rw [htied.pending_eq] at hguid
    exact hcalls guid (List.mem_of_mem_drop hguid)
  have hdrained := (honest_clearPending kept.honest).enterAll hpending
  exact hdrained.tick (deltaTime * r.timeScale)

lemma honest_perform (kept : Kept r) {o : Order} (operates : Operates o) :
    Honest (o.perform r).machine := by
  cases o with
  | start => exact kept.start.2
  | stop =>
      apply honest_disable
      exact honest_clearPending (r := r.onMachine Machine.stop) kept.honest.stop
  | step deltaTime => exact (kept.step deltaTime).1
  | tick deltaTime =>
      simp only [Order.perform, Runner.tick]
      split
      · exact kept.honest
      · exact (kept.step deltaTime).1
  | stepFixed fixedDeltaTime => exact kept.honest.tickFixed _
  | tickFixed fixedDeltaTime =>
      simp only [Order.perform, Runner.tickFixed]
      split
      · exact kept.honest
      · exact kept.honest.tickFixed _
  | enable => exact honest_enable kept.honest
  | disable => exact honest_disable kept.honest
  | pause | resume | scaleTime => exact kept.honest
  | machine c =>
      obtain ⟨event, rfl⟩ := operates.exists_publish
      exact kept.honest.onSession
        (Unrelated.perform (d := .publish event) trivial r.machine.session)

/-- Nothing but calls comes to wait for the runner. -/
lemma tied_perform (kept : Kept r) {o : Order} (operates : Operates o) :
    ∃ waiting, (o.perform r).Tied waiting ∧ ∀ guid ∈ waiting, guid ∈ calls := by
  obtain ⟨waiting, htied, hcalls⟩ := kept.tied
  have halone : Moment.LeaveAlone r.address (o.moments conduct.deeds r) r.machine.session := by
    apply Moment.leaveAlone_of_forall
    intro d hd
    have hmodest : Modest d :=
      Order.allowed_of_did_mem_moments kept.settled conduct operates.hostMay hd
    exact hmodest.leavesAlone r.address
  refine ⟨_, Order.tied_perform htied kept.settled conduct o halone, ?_⟩
  intro guid hguid
  rcases Moment.of_mem_foldl_arrive hguid with hold | hnew
  · exact hcalls guid hold
  · unfold Runner.active at hnew
    split at hnew
    · rwa [kept.bindings] at hnew
    · cases hnew

lemma perform (kept : Kept r) {o : Order} (operates : Operates o) : Kept (o.perform r) := by
  obtain ⟨-, hbindings, hoverrides⟩ := Order.setup_perform o r
  exact ⟨kept.honest_perform operates, (Order.session_perform kept.settled conduct o).1,
    hbindings.trans kept.bindings, hoverrides.trans kept.overrides, kept.tied_perform operates⟩

lemma performAll (kept : Kept r) {orders : List Order} (operate : ∀ o ∈ orders, Operates o) :
    Kept (Order.performAll orders r) := by
  induction orders generalizing r with
  | nil => exact kept
  | cons o rest ih =>
      have hfirst := kept.perform (operate o List.mem_cons_self)
      exact ih hfirst fun o ho => operate o (List.mem_cons_of_mem _ ho)

end Kept

/-! ## Scenarios -/

/-- What is done with the runner in a scenario from a frame on. -/
def scenarioOrders (cues : List Cue) (deltaTime : Float32) : Nat → Nat → List Order
  | 0, _ => []
  | count + 1, frame =>
    (cues.filter fun c => c.frame == frame).map (fun c => .machine (.host (.publish c.event))) ++
      .tick deltaTime :: scenarioOrders cues deltaTime count (frame + 1)

lemma operates_scenarioOrders (cues : List Cue) (deltaTime : Float32) (count frame : Nat) :
    ∀ o ∈ scenarioOrders cues deltaTime count frame, Operates o := by
  induction count generalizing frame with
  | zero => exact nofun
  | succ count ih =>
      intro o ho
      rcases List.mem_append.mp ho with hcue | hrest
      · obtain ⟨c, -, rfl⟩ := List.mem_map.mp hcue
        trivial
      · rcases List.mem_cons.mp hrest with rfl | hlater
        · trivial
        · exact ih (frame + 1) o hlater

lemma frames_eq (cues : List Cue) (deltaTime : Float32) (count frame : Nat) (r : Runner) :
    Scenario.frames cues deltaTime count frame r =
      Order.performAll (scenarioOrders cues deltaTime count frame) r := by
  induction count generalizing frame r with
  | zero => rfl
  | succ count ih =>
      have hcue : Order.performAll (((cues.filter fun c => c.frame == frame).map fun c =>
          .machine (.host (.publish c.event)))) r = Scenario.cue cues frame r := List.foldl_map
      rw [Scenario.frames, ih, scenarioOrders]
      rw [Order.performAll, Order.performAll, List.foldl_append]
      rw [← hcue]
      rfl

lemma runner_none : Scenario.runner none none = .ok (Runner.create graph {} settings) := by
  simp only [Scenario.runner, graphOf_document]
  rfl

/-- The runner of the door when it has been started. -/
def started : Runner := (Runner.create graph {} settings).start.2

lemma start_create : (Runner.create graph {} settings).start = (.ok (), started) :=
  Prod.ext (Kept.create Hub.regular_empty).start.1 rfl

lemma kept_frames (cues : List Cue) (deltaTime : Float32) (count : Nat) :
    Kept (Scenario.frames cues deltaTime count 1 started) := by
  have hstarted : Kept started := (Kept.create Hub.regular_empty).perform (o := .start) trivial
  rw [frames_eq]
  exact hstarted.performAll (operates_scenarioOrders cues deltaTime count 1)

lemma run_of_start {graph settings : Option String} {r : Runner}
    (loads : Scenario.runner graph settings = .ok r) (starts : r.start.1 = .ok ())
    (cues : List Cue) (count : Nat) (deltaTime : Float32) :
    Scenario.run graph settings cues count deltaTime =
      .ok (Scenario.play cues count deltaTime r.start.2) := by
  obtain ⟨started, hstart⟩ : ∃ started, r.start = (.ok (), started) :=
    ⟨r.start.2, Prod.ext starts rfl⟩
  simp only [Scenario.run, loads, bind, Except.bind, hstart]
  rfl

lemma run_eq (cues : List Cue) (count : Nat) (deltaTime : Float32) :
    Scenario.run none none cues count deltaTime =
      .ok (Scenario.play cues count deltaTime started) :=
  run_of_start runner_none (congrArg Prod.fst start_create) cues count deltaTime

lemma Honest.flag_eq {m : Machine} (honest : Honest m) {guid : Guid} {isOpen : Bool}
    (hcurrent : m.current = some guid) (hposture : posture guid = some isOpen) :
    m.session.context.blackboard.flag openKey = isOpen := by
  have hshown : m.session.context.blackboard[openKey]? = some (told isOpen) :=
    honest.truthful guid hcurrent isOpen hposture
  rw [Blackboard.flag, hshown]
  rfl

/-- **The door never lies about being open.**  Its document builds a graph, and a runner of that
graph with the settings of the door, on any hub, may be started, stopped, ticked, paused, enabled
and disabled while anybody publishes any events; nobody else sends it to nodes or writes to its
context.  Then after each operation

* the blackboard tells that the door is closed if `closed` is current, and that it is open if `open`
  or `hold` is;
* a start succeeds, and the next tick is not capped, whatever time it is told.

So every scenario of the door runs, and its summary tells that the door is closed if it ends at
`closed`, and open if it ends at `hold`. -/
theorem never_lies :
    Registry.builtin.graphOf document = .ok graph ∧
      (∀ h : Hub, h.Regular → ∀ orders : List Order, (∀ o ∈ orders, Operates o) →
        let r := Order.performAll orders (Runner.create graph h settings)
        let blackboard := r.machine.session.context.blackboard
        (r.machine.current = some "closed" →
          blackboard[openKey]? = some (.seed (.bool false))) ∧
        (r.machine.current = some "open" ∨ r.machine.current = some "hold" →
          blackboard[openKey]? = some (.seed (.bool true))) ∧
        r.start.1 = .ok () ∧
        ∀ deltaTime, (r.step deltaTime).1.capped = false ∧
          ∀ report, (r.tick deltaTime).1 = some report → report.capped = false) ∧
      ∀ (cues : List Cue) (count : Nat) (deltaTime : Float32),
        ∃ summary, Scenario.run none none cues count deltaTime = .ok summary ∧
          (summary.finalNode = some "closed" → summary.doorOpen = false) ∧
          (summary.finalNode = some "hold" → summary.doorOpen = true) := by
  refine ⟨graphOf_document, ?_, ?_⟩
  · intro h regular orders operate r blackboard
    have kept : Kept r := (Kept.create regular).performAll operate
    refine ⟨?_, ?_, kept.start.1, ?_⟩
    · intro hcurrent
      exact kept.honest.truthful "closed" hcurrent false rfl
    · rintro (hcurrent | hcurrent)
      · exact kept.honest.truthful "open" hcurrent true rfl
      · exact kept.honest.truthful "hold" hcurrent true rfl
    · intro deltaTime
      refine ⟨(kept.step deltaTime).2, ?_⟩
      intro report hreport
      unfold Runner.tick at hreport
      split at hreport
      · cases hreport
      · cases hreport
        exact (kept.step deltaTime).2
  · intro cues count deltaTime
    have honest := (kept_frames cues deltaTime count).honest
    refine ⟨_, run_eq cues count deltaTime, ?_, ?_⟩
    · intro hcurrent
      exact honest.flag_eq hcurrent rfl
    · intro hcurrent
      exact honest.flag_eq hcurrent rfl

/-- A visit that is announced by the bell and ends with a lockdown while the runner is paused. -/
def visit : List Order :=
  [.start, .machine (.host (.publish "doorbell")), .tick 0.5, .pause,
    .machine (.host (.publish "lockdown")), .tick 1, .resume]

/-- Before the visit, when nothing but the bell has been rung, and after it. -/
theorem never_lies_visit :
    let rung := Order.performAll (visit.take 2) (Runner.create graph {} settings)
    rung.machine.current = some "closed" ∧
      rung.machine.session.context.blackboard[openKey]? = some (.seed (.bool false)) ∧
      (∀ deltaTime, ((Order.performAll visit
        (Runner.create graph {} settings)).step deltaTime).1.capped = false) ∧
      ∃ summary, Scenario.run none none Scenario.doorCues 300 0.1 = .ok summary ∧
        (summary.finalNode = some "hold" → summary.doorOpen = true) := by
  intro rung
  have hoperate : ∀ o ∈ visit, Operates o := by simp [visit, Operates]
  have hcurrent : rung.machine.current = some "closed" := by decide +kernel
  obtain ⟨-, hruns, hscenarios⟩ := never_lies
  obtain ⟨hclosed, -⟩ := hruns {} Hub.regular_empty (visit.take 2)
    fun o ho => hoperate o (List.mem_of_mem_take ho)
  obtain ⟨-, -, -, hticks⟩ := hruns {} Hub.regular_empty visit hoperate
  obtain ⟨summary, hrun, -, hhold⟩ := hscenarios Scenario.doorCues 300 0.1
  exact ⟨hcurrent, hclosed hcurrent, fun deltaTime => (hticks deltaTime).1, summary, hrun, hhold⟩

end WorkflowGraph.Door
