import WorkflowGraph.Proofs.Chronicle
import WorkflowGraph.Runner

/-!
# Runners as hosts

A runner is a host like any other: whatever it is told to do, it does to its machine by commands
(`Order.machine_performAll`).  So what holds of all runs of a machine holds of the machine of a
runner.
-/

namespace WorkflowGraph

/-- What can be done to a runner. -/
inductive Order where
  | start
  | stop
  | tick (deltaTime : Float32)
  | step (deltaTime : Float32)
  | tickFixed (fixedDeltaTime : Float32)
  | stepFixed (fixedDeltaTime : Float32)
  | enable
  | disable
  | pause
  | resume
  | scaleTime (timeScale : Float32)
  /-- Something is done to the machine behind the back of the runner. -/
  | machine (command : Command)

namespace Runner

/-! ## What a runner does to its machine -/

/-- The commands of `Runner.enable`. -/
def enableCommands (r : Runner) : List Command :=
  if r.enabled then []
  else r.bindings.map fun b => .host (.connect b.event (.enqueue r.address b.target))

/-- The commands of `Runner.disable`. -/
def disableCommands (r : Runner) : List Command :=
  if r.enabled then r.tokens.map fun token => .host (.disposeToken token) else []

/-- What `Runner.start` does to the session before it starts the machine. -/
def seedCommands (r : Runner) : List Command :=
  [.host (.seed (Entry.overlay r.machine.graph.defaults r.overrides)), .host .reset,
    .host (.clearQueue r.address)]

/-- The commands of `Runner.start`. -/
def startCommands (r : Runner) : List Command :=
  if r.machine.isRunning then []
  else
    r.seedCommands ++ .start ::
      match r.start with
      | (.ok (), _) => r.enableCommands
      | (.error _, _) => []

/-- The commands of `Runner.stop`. -/
def stopCommands (r : Runner) : List Command :=
  .stop :: .host (.clearQueue r.address) :: r.disableCommands

/-- The commands of `Runner.step`. -/
def stepCommands (r : Runner) (deltaTime : Float32) : List Command :=
  .host (.clearQueue r.address) :: r.pending.map .enterFromEvent ++
    [.tick (deltaTime * r.timeScale)]

/-! ## These are the commands -/

open Command (performAll)

lemma performAll_connect (bindings : List Binding) (address : Nat) (m : Machine) :
    performAll (bindings.map fun b => .host (.connect b.event (.enqueue address b.target))) m =
      m.onSession fun s => s.onHub fun h => (subscribeAll address h bindings).2 := by
  induction bindings generalizing m with
  | nil => rfl
  | cons b rest ih => exact ih _

lemma performAll_disposeToken (tokens : List Token) (m : Machine) :
    performAll (tokens.map fun token => .host (.disposeToken token)) m =
      m.onSession fun s => s.onHub fun h => h.disposeEach tokens := by
  induction tokens generalizing m with
  | nil => rfl
  | cons token rest ih => exact ih _

lemma performAll_enterFromEvent (queued : List Guid) (m : Machine) :
    performAll (queued.map .enterFromEvent) m = (enterAll m queued).2 := by
  induction queued generalizing m with
  | nil => rfl
  | cons guid rest ih => exact ih _

lemma machine_enable (r : Runner) :
    r.enable.machine = performAll r.enableCommands r.machine := by
  unfold enable enableCommands
  split
  · rfl
  · rw [performAll_connect]
    rfl

lemma machine_disable (r : Runner) :
    r.disable.machine = performAll r.disableCommands r.machine := by
  unfold disable disableCommands
  split
  · rw [performAll_disposeToken]
    rfl
  · rfl

lemma machine_stop (r : Runner) : r.stop.machine = performAll r.stopCommands r.machine := by
  unfold stop
  rw [machine_disable]
  rfl

lemma machine_step (r : Runner) (deltaTime : Float32) :
    (r.step deltaTime).2.machine = performAll (r.stepCommands deltaTime) r.machine := by
  unfold stepCommands
  rw [List.cons_append, Command.performAll_cons, Command.performAll_append,
    performAll_enterFromEvent]
  rfl

/-- The runner whose machine is about to be started. -/
def seeded (r : Runner) : Runner :=
  (r.onSession fun s => (s.onContext fun c =>
    { c with initial := Entry.overlay r.machine.graph.defaults r.overrides }).reset).clearPending

lemma machine_seeded (r : Runner) : r.seeded.machine = performAll r.seedCommands r.machine := rfl

lemma start_of_ok {r : Runner} {machine : Machine} (resting : r.machine.isRunning = false)
    (h : r.seeded.machine.start = .ok machine) :
    r.start = (.ok (), { r.seeded with machine }.enable) := by
  unfold seeded at h
  simp [start, resting, h, seeded]

lemma start_of_error {r : Runner} {e : StartError} (resting : r.machine.isRunning = false)
    (h : r.seeded.machine.start = .error e) : r.start = (.error e, r.seeded) := by
  unfold seeded at h
  simp [start, resting, h, seeded]

/-- A start that fails leaves the machine as it has been seeded; otherwise the bindings are
registered when the machine has been started. -/
lemma machine_start (r : Runner) :
    r.start.2.machine = performAll r.startCommands r.machine := by
  unfold startCommands
  cases hrunning : r.machine.isRunning with
  | true => simp [start, hrunning]
  | false =>
      simp only [Bool.false_eq_true, if_false, Command.performAll_append,
        Command.performAll_cons, ← machine_seeded, Command.perform]
      cases hmachine : r.seeded.machine.start with
      | ok machine =>
          rw [start_of_ok hrunning hmachine]
          exact machine_enable { r.seeded with machine }
      | error e =>
          rw [start_of_error hrunning hmachine]
          rfl

end Runner

namespace Order

/-- The runner after it has been told to do something. -/
def perform : Order → Runner → Runner
  | .start, r => r.start.2
  | .stop, r => r.stop
  | .tick deltaTime, r => (r.tick deltaTime).2
  | .step deltaTime, r => (r.step deltaTime).2
  | .tickFixed fixedDeltaTime, r => (r.tickFixed fixedDeltaTime).2
  | .stepFixed fixedDeltaTime, r => r.stepFixed fixedDeltaTime
  | .enable, r => r.enable
  | .disable, r => r.disable
  | .pause, r => r.pause
  | .resume, r => r.resume
  | .scaleTime timeScale, r => r.scaleTime timeScale
  | .machine command, r => r.onMachine command.perform

/-- The runner after it has been told to do one thing after the other. -/
def performAll (orders : List Order) (r : Runner) : Runner :=
  orders.foldl (fun r o => o.perform r) r

/-- What the runner does to its machine then. -/
def commands : Order → Runner → List Command
  | .start, r => r.startCommands
  | .stop, r => r.stopCommands
  | .tick deltaTime, r => if r.paused then [] else r.stepCommands deltaTime
  | .step deltaTime, r => r.stepCommands deltaTime
  | .tickFixed fixedDeltaTime, r =>
    if r.paused then [] else [.tickFixed (fixedDeltaTime * r.timeScale)]
  | .stepFixed fixedDeltaTime, r => [.tickFixed (fixedDeltaTime * r.timeScale)]
  | .enable, r => r.enableCommands
  | .disable, r => r.disableCommands
  | .pause, _ | .resume, _ | .scaleTime _, _ => []
  | .machine command, _ => [command]

/-- What the runner does to its machine in all. -/
def commandsAll : List Order → Runner → List Command
  | [], _ => []
  | o :: rest, r => o.commands r ++ commandsAll rest (o.perform r)

lemma machine_perform (o : Order) (r : Runner) :
    (o.perform r).machine = Command.performAll (o.commands r) r.machine := by
  cases o with
  | start => exact r.machine_start
  | stop => exact r.machine_stop
  | step deltaTime => exact r.machine_step deltaTime
  | enable => exact r.machine_enable
  | disable => exact r.machine_disable
  | tick deltaTime =>
      simp only [perform, commands, Runner.tick]
      split
      · rfl
      · exact r.machine_step deltaTime
  | tickFixed fixedDeltaTime =>
      simp only [perform, commands, Runner.tickFixed]
      split
      · rfl
      · rfl
  | stepFixed | pause | resume | scaleTime | machine => rfl

/-- Whatever a runner is told, its machine is that of the commands it amounts to. -/
theorem machine_performAll (orders : List Order) (r : Runner) :
    (performAll orders r).machine = Command.performAll (commandsAll orders r) r.machine := by
  induction orders generalizing r with
  | nil => rfl
  | cons o rest ih =>
      rw [commandsAll, Command.performAll_append, ← machine_perform]
      exact ih (o.perform r)

end Order
end WorkflowGraph
