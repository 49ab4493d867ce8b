import WorkflowGraph.Proofs.Course

/-!
# Operations as paths

Whatever the commands of a host, the chronicle of the run is a path of single steps, from the
session that the machine was created with to the one that it ends with (`Command.path_chronicle`).
This is shown for one operation after the other, each from those it is made of.  A machine that runs
has a current node that can be called (`Machine.Underway`), and every operation but a stop leaves it
so.
-/

namespace WorkflowGraph

namespace Machine

open Course

variable {g : Graph} {Allowed H : Deed → Prop} {p : g.Conduct Allowed}

/-- Where a machine is between two operations. -/
def config (m : Machine) : Config :=
  ⟨match m.current with
    | some n => .active n
    | none => .stopped, [], m.session⟩

lemma config_of_current {m : Machine} {n : Guid} (h : m.current = some n) :
    m.config = ⟨.active n, [], m.session⟩ := by
  simp [config, h]

lemma config_of_none {m : Machine} (h : m.current = none) :
    m.config = ⟨.stopped, [], m.session⟩ := by
  simp [config, h]

/-- A machine for the graph that runs: its current node can be called. -/
structure Underway (g : Graph) (m : Machine) : Prop where
  graph : m.graph = g
  isRunning : m.isRunning = true
  current : ∃ n b, m.current = some n ∧ g.behaviour? n = some b

lemma Underway.onSession {m : Machine} (underway : Underway g m) (f : Session → Session) :
    Underway g (m.onSession f) :=
  ⟨underway.graph, underway.isRunning, underway.current⟩

/-- A machine for the graph that does not run. -/
structure Resting (g : Graph) (m : Machine) : Prop where
  graph : m.graph = g
  isRunning : m.isRunning = false
  current : m.current = none

/-- The moments lead from one machine to another that runs. -/
structure Leads (p : g.Conduct Allowed) (H : Deed → Prop) (m : Machine) (moments : List Moment)
    (m' : Machine) : Prop where
  underway : Underway g m'
  path : Path p H m.config moments m'.config

namespace Leads

lemma refl {m : Machine} (underway : Underway g m) : Leads p H m [] m := ⟨underway, .nil⟩

lemma trans {a b c : Machine} {ms ns : List Moment} (hab : Leads p H a ms b)
    (hbc : Leads p H b ns c) : Leads p H a (ms ++ ns) c :=
  ⟨hbc.underway, hab.path.trans hbc.path⟩

lemma session_eq {a b : Machine} {ms : List Moment} (leads : Leads p H a ms b) :
    b.session = Moment.replayAll ms a.session := leads.path.session_eq

lemma tend {m : Machine} {d : Deed} (underway : Underway g m) (tends : d.Tends) :
    Leads p H m [.managed d] (m.onSession d.perform) := by
  obtain ⟨n, b, hn, -⟩ := underway.current
  refine ⟨underway.onSession _, ?_⟩
  rw [config_of_current hn, config_of_current (m := m.onSession d.perform) hn]
  exact .single (.tend tends)

lemma compare {m : Machine} (underway : Underway g m) : Leads p H m [.compared] m := by
  obtain ⟨n, b, hn, -⟩ := underway.current
  refine ⟨underway, ?_⟩
  rw [config_of_current hn]
  exact .single .compare

end Leads

/-! ## Changing node -/

/-- A step in which a node is called, and what the node does then. -/
lemma path_callMoments {place place' : Place} {phase : Phase} {n : Guid} {s : Session}
    {b : Behaviour} (hb : g.behaviour? n = some b)
    (step : Step p H ⟨place, [], s⟩ (.called phase n) ⟨place', p.deeds n phase s, s⟩) :
    Path p H ⟨place, [], s⟩ (callMoments p.deeds phase n s)
      ⟨place', [], b.onPhase phase s⟩ := by
  have hdeeds : Path p H ⟨place', p.deeds n phase s, s⟩ ((p.deeds n phase s).map .did)
      ⟨place', [], Deed.performAll (p.deeds n phase s) s⟩ := Path.act_all (p.allowed n phase s)
  rw [← p.onPhase_eq n b hb] at hdeeds
  exact hdeeds.cons step

lemma path_leaveMoments {m : Machine} {n : Guid} {b : Behaviour} (hgraph : m.graph = g)
    (hb : g.behaviour? n = some b) :
    Path p H ⟨.active n, [], m.session⟩ (m.leaveMoments p.deeds n)
      ⟨.left n, [], (m.leave n).session⟩ := by
  have hexit : Path p H ⟨.active n, [], m.session⟩ (callMoments p.deeds .exit n m.session)
      ⟨.leaving n, [], b.onExit m.session⟩ := path_callMoments hb .exit
  simp only [leaveMoments, leave, hgraph, hb]
  exact hexit.snoc .release

/-- What is known of the machine that has entered a node. -/
lemma enter?_eq_some {m entered : Machine} {target : Guid} {reason : Reason}
    {edge : Option Edge} (h : m.enter? target reason edge = some entered) :
    m.current ≠ some target ∧ entered.graph = m.graph ∧ entered.state = m.state ∧
      entered.current = some target ∧
      ∃ next, m.graph.behaviour? target = some next ∧ entered.session =
        next.onPhase .enter ((Deed.place (some target)).perform m.departed.session) := by
  unfold enter? at h
  split at h
  · cases h
  · rename_i hother
    split at h
    · cases h
    · rename_i next hnext
      cases h
      refine ⟨hother, ?_, ?_, rfl, next, hnext, ?_⟩
      · cases m.current <;> rfl
      · cases m.current <;> rfl
      · unfold departed
        cases m.current <;> rfl

lemma underway_of_enter? {m entered : Machine} {target : Guid} {reason : Reason}
    {edge : Option Edge} (hgraph : m.graph = g) (running : m.isRunning = true)
    (h : m.enter? target reason edge = some entered) : Underway g entered := by
  obtain ⟨-, hgraph', hstate, hcurrent, next, hnext, -⟩ := enter?_eq_some h
  refine ⟨hgraph'.trans hgraph, ?_, target, next, hcurrent, hgraph ▸ hnext⟩
  rw [isRunning, hstate]
  exact running

/-- Entering a node is a path.  Where no node is active, it has to be the start of a run. -/
lemma leads_enterMoments {m entered : Machine} {target : Guid} {reason : Reason}
    {edge : Option Edge} (hgraph : m.graph = g) (running : m.isRunning = true)
    (known : ∀ n, m.current = some n → ∃ b, g.behaviour? n = some b)
    (starts : m.current = none → g.defects = [] ∧ g.resolvedEntry = some target)
    (h : m.enter? target reason edge = some entered) :
    Leads p H m (m.enterMoments p.deeds target) entered := by
  obtain ⟨hother, -, -, hcurrent, next, hnext, hsession⟩ := enter?_eq_some h
  rw [hgraph] at hnext
  refine ⟨underway_of_enter? hgraph running h, ?_⟩
  have hlast : ∀ s : Session, Path p H ⟨.arriving target, [], s⟩
      (callMoments p.deeds .enter target s) ⟨.active target, [], next.onPhase .enter s⟩ :=
    fun s => path_callMoments hnext .enter
  rw [config_of_current hcurrent, hsession]
  -- Without a node to leave this is the entry of a start, which needs a valid graph.
  cases hfrom : m.current with
  | none =>
      obtain ⟨valid, hentry⟩ := starts hfrom
      rw [config_of_none hfrom]
      simp only [enterMoments, departed, hfrom, List.nil_append]
      exact (hlast _).cons (.start valid hentry)
  | some n =>
      obtain ⟨b, hb⟩ := known n hfrom
      have hne : n ≠ target := fun heq => hother (heq ▸ hfrom)
      rw [config_of_current hfrom]
      simp only [enterMoments, departed, hfrom]
      exact (path_leaveMoments hgraph hb).trans ((hlast _).cons (.move hne))

/-- An attempt of a running machine to enter a node, whether it succeeds or not. -/
lemma leads_attemptMoments {m : Machine} (underway : Underway g m) (target : Guid)
    (reason : Reason) (edge : Option Edge) :
    Leads p H m (m.attemptMoments p.deeds target reason edge)
      ((m.enter? target reason edge).getD m) := by
  unfold attemptMoments
  cases hentered : m.enter? target reason edge with
  | none => exact .refl underway
  | some entered =>
      obtain ⟨n, b, hn, hb⟩ := underway.current
      refine leads_enterMoments underway.graph underway.isRunning ?_ ?_ hentered
      · intro k hk
        obtain rfl : n = k := Option.some.inj (hn.symm.trans hk)
        exact ⟨b, hb⟩
      · intro hnone
        rw [hn] at hnone
        cases hnone

/-! ## Resolution -/

lemma leads_drainMoments {m : Machine} (underway : Underway g m) :
    Leads p H m (m.drainMoments p.deeds) m.drain.2 := by
  have htake : Leads p H m [.managed .takeRequest] m.withoutRequest := .tend underway trivial
  rw [drain_eq]
  cases hrequested : m.session.context.requested with
  | none =>
      simp only [drainMoments, hrequested]
      exact htake
  | some guid =>
      have hattempt := leads_attemptMoments (p := p) (H := H) htake.underway guid .requested none
      simp only [drainMoments, hrequested, Option.bind_some]
      cases hentered : m.withoutRequest.enter? guid .requested none with
      | none =>
          rw [hentered] at hattempt
          exact htake.trans hattempt
      | some entered =>
          rw [hentered] at hattempt
          exact htake.trans hattempt

lemma leads_followMoments {m : Machine} (underway : Underway g m) :
    Leads p H m (m.followMoments p.deeds) (m.follow?.getD m) := by
  have hcompare : Leads p H m [.compared] m := .compare underway
  cases hbest : m.bestEdge with
  | none =>
      have hfollow : m.follow? = none := by simp [follow?, hbest]
      simp only [followMoments, hbest, hfollow]
      exact hcompare
  | some e =>
      have hfollow : m.follow? = m.enter? e.target .autoEdge (some e) := by
        simp [follow?, hbest]
      simp only [followMoments, hbest, hfollow]
      exact hcompare.trans (leads_attemptMoments underway e.target .autoEdge (some e))

lemma leads_settleMoments (budget : Nat) {m : Machine} (underway : Underway g m) :
    Leads p H m (settleMoments p.deeds budget m) (settle budget m).machine := by
  -- After each round the machine still runs, which is all that the next round asks for.
  induction budget generalizing m with
  | zero =>
      simp only [settleMoments, settle]
      split
      · exact .refl underway
      · exact .compare underway
  | succ budget ih =>
      have hdrain := leads_drainMoments (p := p) (H := H) underway
      unfold settle settleMoments
      rcases hm : m.drain with ⟨entered, rest⟩
      rw [hm] at hdrain
      cases entered with
      | true => exact hdrain.trans (ih hdrain.underway)
      | false =>
          have hfollow := leads_followMoments (p := p) (H := H) hdrain.underway
          cases hmoved : rest.follow? with
          | none =>
              rw [hmoved] at hfollow
              simpa [hmoved] using hdrain.trans hfollow
          | some moved =>
              rw [hmoved] at hfollow
              have hround := hdrain.trans hfollow
              simpa [hmoved, Resolution.afterMove] using hround.trans (ih hround.underway)

lemma leads_resolveMoments {m : Machine} (underway : Underway g m) :
    Leads p H m (m.resolveMoments p.deeds) m.resolve.machine := by
  unfold resolveMoments resolve
  cases m.mode with
  | single =>
      have hfollow := leads_followMoments (p := p) (H := H) underway
      cases hmoved : m.follow? with
      | none => simpa [hmoved] using hfollow
      | some moved => simpa [hmoved] using hfollow
  | untilStable => exact leads_settleMoments m.budget underway

/-! ## Ticks -/

lemma call_of_current {m : Machine} {n : Guid} {b : Behaviour} (hn : m.current = some n)
    (hb : m.graph.behaviour? n = some b) (phase : Phase) :
    m.call phase = m.onSession (b.onPhase phase) := by
  simp [call, hn, hb]

lemma currentMoments_of_current {m : Machine} {n : Guid} {b : Behaviour}
    (hn : m.current = some n) (hb : m.graph.behaviour? n = some b) (phase : Phase)
    (deeds : Guid → Phase → Session → List Deed) :
    m.currentMoments deeds phase = callMoments deeds phase n m.session := by
  simp [currentMoments, hn, hb]

lemma leads_currentMoments {m : Machine} (underway : Underway g m) {phase : Phase}
    (stays : phase = .update ∨ phase = .fixedUpdate) :
    Leads p H m (m.currentMoments p.deeds phase) (m.call phase) := by
  obtain ⟨n, b, hn, hb⟩ := underway.current
  have hown : m.graph.behaviour? n = some b := underway.graph.symm ▸ hb
  rw [call_of_current hn hown, currentMoments_of_current hn hown]
  refine ⟨underway.onSession _, ?_⟩
  rw [config_of_current hn, config_of_current (m := m.onSession (b.onPhase phase)) hn]
  exact path_callMoments hb (.update stays)

lemma leads_advanceMoments {m : Machine} (underway : Underway g m) (deltaTime : Float32) :
    Leads p H m (m.advanceMoments p.deeds deltaTime) (m.advance deltaTime).2 := by
  have hframe : Underway g { m with frame := m.frame + 1 } :=
    ⟨underway.graph, underway.isRunning, underway.current⟩
  have htend := Leads.tend (p := p) (H := H) hframe (d := .flush) trivial
  have hflush : Leads p H m [.managed .flush] { m with frame := m.frame + 1 }.flush :=
    ⟨htend.underway, htend.path⟩
  have hdrain := leads_drainMoments (p := p) (H := H) hflush.underway
  have htime := Leads.tend (p := p) (H := H) hdrain.underway (d := .elapse deltaTime) trivial
  have hcall := leads_currentMoments (p := p) (H := H) htime.underway (.inl rfl)
  have hlast := Leads.tend (p := p) (H := H) hcall.underway (d := .flush) trivial
  exact ((hflush.trans hdrain).trans (htime.trans hcall)).trans hlast

lemma leads_tickMoments {m : Machine} (underway : Underway g m) (deltaTime : Float32) :
    Leads p H m (m.tickMoments p.deeds deltaTime) (m.tick deltaTime).2 := by
  have hadvance := leads_advanceMoments (p := p) (H := H) underway deltaTime
  simp only [tickMoments, tick, underway.isRunning, if_true]
  exact hadvance.trans (leads_resolveMoments hadvance.underway)

lemma leads_tickFixedMoments {m : Machine} (underway : Underway g m) (fixedDeltaTime : Float32) :
    Leads p H m (m.tickFixedMoments p.deeds fixedDeltaTime) (m.tickFixed fixedDeltaTime) := by
  have htime := Leads.tend (p := p) (H := H) underway (d := .elapseFixed fixedDeltaTime) trivial
  simp only [tickFixedMoments, tickFixed, underway.isRunning, if_true]
  exact htime.trans (leads_currentMoments htime.underway (.inr rfl))

lemma leads_forceMoments {m : Machine} (underway : Underway g m) (guid : Guid)
    (reason : Reason) :
    Leads p H m (m.forceMoments p.deeds guid reason) (m.force guid reason).2 := by
  have hattempt := leads_attemptMoments (p := p) (H := H) underway guid reason none
  simp only [forceMoments, force, underway.isRunning, if_true]
  cases hentered : m.enter? guid reason none with
  | none => simpa [hentered] using hattempt
  | some entered => simpa [hentered] using hattempt

/-! ## Starting and stopping -/

/-- The machine whose run has begun and that has no current node yet. -/
def opened (m : Machine) : Machine := { m with state := .running, frame := 0 }

lemma start_of_valid {m : Machine} {entry : Guid} (resting : m.isRunning = false)
    (valid : m.graph.defects = []) (hentry : m.graph.resolvedEntry = some entry) :
    m.start = .ok ((m.opened.enter? entry .start none).getD m.opened) := by
  simp only [start, resting, valid, hentry]
  rfl

lemma startMoments_of_valid {m : Machine} {entry : Guid} (resting : m.isRunning = false)
    (valid : m.graph.defects = []) (hentry : m.graph.resolvedEntry = some entry)
    (deeds : Guid → Phase → Session → List Deed) :
    m.startMoments deeds = m.opened.attemptMoments deeds entry .start none := by
  simp only [startMoments, resting, valid, hentry]
  rfl

/-- On a graph without defects a machine that does not run enters the entry node. -/
lemma exists_entered_of_start {m : Machine} (resting : m.isRunning = false)
    (nowhere : m.current = none) (valid : m.graph.defects = []) :
    ∃ entry entered, m.graph.resolvedEntry = some entry ∧
      m.opened.enter? entry .start none = some entered ∧ m.start = .ok entered ∧
      ∀ deeds, m.startMoments deeds = m.opened.enterMoments deeds entry := by
  obtain ⟨entry, hentry, hknown⟩ := Graph.exists_resolvedEntry valid
  have hnone : m.opened.current = none := nowhere
  have henters : (m.opened.enter? entry .start none).isSome := by
    rw [isSome_enter?, hnone]
    exact hknown
  obtain ⟨entered, hentered⟩ := Option.isSome_iff_exists.mp henters
  refine ⟨entry, entered, hentry, hentered, ?_, fun deeds => ?_⟩
  · rw [start_of_valid resting valid hentry, hentered, Option.getD_some]
  · rw [startMoments_of_valid resting valid hentry, attemptMoments, if_pos henters]

/-- With a defective graph nothing starts and nothing happens. -/
lemma start_of_defects {m : Machine} (resting : m.isRunning = false)
    (invalid : m.graph.defects ≠ []) (deeds : Guid → Phase → Session → List Deed) :
    m.start = .error (.invalidGraph m.graph.defects) ∧ m.startMoments deeds = [] := by
  unfold start startMoments
  cases hdefects : m.graph.defects with
  | nil => exact absurd hdefects invalid
  | cons d rest => simp [resting]

/-- A machine that rests starts, or it stays as it is if there is something wrong with the
graph. -/
lemma leads_startMoments {m : Machine} (resting : Resting g m) :
    Leads p H m (m.startMoments p.deeds) (m.start.toOption.getD m) ∨
      (m.startMoments p.deeds = [] ∧ m.start.toOption.getD m = m) := by
  by_cases valid : m.graph.defects = []
  · left
    obtain ⟨entry, entered, hentry, hentered, hstart, hmoments⟩ :=
      exists_entered_of_start resting.isRunning resting.current valid
    have hnone : m.opened.current = none := resting.current
    have hleads : Leads p H m.opened (m.opened.enterMoments p.deeds entry) entered := by
      refine leads_enterMoments resting.graph rfl ?_ ?_ hentered
      · intro n hn
        rw [hnone] at hn
        cases hn
      · rw [← resting.graph]
        exact fun _ => ⟨valid, hentry⟩
    rw [hstart, hmoments]
    exact ⟨hleads.underway, hleads.path⟩
  · right
    obtain ⟨hstart, hmoments⟩ := start_of_defects resting.isRunning valid p.deeds
    rw [hstart, hmoments]
    exact ⟨rfl, rfl⟩

lemma path_stopMoments {m : Machine} (underway : Underway g m) :
    Resting g m.stop ∧ Path p H m.config (m.stopMoments p.deeds) m.stop.config := by
  obtain ⟨n, b, hn, hb⟩ := underway.current
  have hstop : m.stop = { { m with current := none }.leave n with
      previous := none
      session := ({ m with current := none }.leave n).session.dispose
      state := .stopped } := by
    simp [stop, underway.isRunning, hn]
  -- The node is left by a machine that is nowhere already, which is neither underway nor resting.
  have hleave : Path p H ⟨.active n, [], m.session⟩
      (leaveMoments p.deeds { m with current := none } n)
      ⟨.left n, [], ({ m with current := none }.leave n).session⟩ :=
    path_leaveMoments (m := { m with current := none }) underway.graph hb
  refine ⟨?_, ?_⟩
  · rw [hstop]
    exact ⟨underway.graph, rfl, rfl⟩
  · rw [hstop, config_of_current hn, config_of_none rfl]
    simp only [stopMoments, underway.isRunning, if_true, hn]
    exact hleave.snoc .stop

end Machine

/-! ## Whole runs -/

namespace Command

open Course Machine

variable {g : Graph} {Allowed H : Deed → Prop} {p : g.Conduct Allowed}

/-- The deeds that the host does itself are allowed. -/
def HostAllowed (Allowed : Deed → Prop) (commands : List Command) : Prop :=
  ∀ d, .host d ∈ commands → Allowed d

lemma HostAllowed.of_append {before after : List Command}
    (allowed : HostAllowed Allowed (before ++ after)) : HostAllowed Allowed before :=
  fun d hd => allowed d (List.mem_append_left after hd)

/-- Between two commands a machine for the graph runs or rests. -/
def Settled (g : Graph) (m : Machine) : Prop := Underway g m ∨ Resting g m

/-- The machine that a run begins with. -/
def outset (g : Graph) (s : Session) (settings : MachineSettings) : Machine :=
  (Machine.create g s).withSettings settings

lemma settled_outset (g : Graph) (s : Session) (settings : MachineSettings) :
    Settled g (outset g s settings) := .inr ⟨rfl, rfl, rfl⟩

/-- An operation of a machine that runs.  Only a stop ends the run. -/
lemma path_moments_of_underway {m : Machine} (underway : Underway g m) (c : Command)
    (hosts : ∀ d, c = .host d → H d) :
    ((c = .stop ∧ Resting g (c.perform m)) ∨ (c ≠ .stop ∧ Underway g (c.perform m))) ∧
      Path p H m.config (c.moments p.deeds m) (c.perform m).config := by
  cases c with
  | start =>
      have hstart : m.start.toOption.getD m = m := by
        simp [Machine.start, underway.isRunning, Except.toOption]
      have hmoments : m.startMoments p.deeds = [] := by
        simp [startMoments, underway.isRunning]
      rw [moments, perform, hstart, hmoments]
      exact ⟨.inr ⟨nofun, underway⟩, .nil⟩
  | stop =>
      obtain ⟨hresting, hpath⟩ := path_stopMoments (p := p) (H := H) underway
      exact ⟨.inl ⟨rfl, hresting⟩, hpath⟩
  | tick deltaTime =>
      have hleads := leads_tickMoments (p := p) (H := H) underway deltaTime
      exact ⟨.inr ⟨nofun, hleads.underway⟩, hleads.path⟩
  | tickFixed fixedDeltaTime =>
      have hleads := leads_tickFixedMoments (p := p) (H := H) underway fixedDeltaTime
      exact ⟨.inr ⟨nofun, hleads.underway⟩, hleads.path⟩
  | enter guid =>
      have hleads := leads_forceMoments (p := p) (H := H) underway guid .manual
      exact ⟨.inr ⟨nofun, hleads.underway⟩, hleads.path⟩
  | enterFromEvent guid =>
      have hleads := leads_forceMoments (p := p) (H := H) underway guid .externalEvent
      exact ⟨.inr ⟨nofun, hleads.underway⟩, hleads.path⟩
  | setClock clock =>
      exact ⟨.inr ⟨nofun, underway.graph, underway.isRunning, underway.current⟩, .nil⟩
  | host d =>
      obtain ⟨n, b, hn, -⟩ := underway.current
      refine ⟨.inr ⟨nofun, underway.onSession _⟩, ?_⟩
      rw [perform, config_of_current hn, config_of_current (m := m.onSession d.perform) hn]
      exact .single (.host (hosts d rfl) trivial)

/-- An operation of a machine that rests: only a start and the deeds of the host have an
effect. -/
lemma path_moments_of_resting {m : Machine} (resting : Resting g m) (c : Command)
    (hosts : ∀ d, c = .host d → H d) :
    Settled g (c.perform m) ∧ Path p H m.config (c.moments p.deeds m) (c.perform m).config := by
  have hstays : Settled g m ∧ Path p H m.config [] m.config := ⟨.inr resting, .nil⟩
  have hoff := resting.isRunning
  cases c with
  | start =>
      rcases leads_startMoments (p := p) (H := H) resting with hleads | ⟨hmoments, hstart⟩
      · exact ⟨.inl hleads.underway, hleads.path⟩
      · rw [moments, perform, hstart, hmoments]
        exact hstays
  -- A machine that rests ignores every command but a start and the deeds of its host.
  | stop => simpa [perform, moments, Machine.stop, stopMoments, hoff] using hstays
  | tick deltaTime => simpa [perform, moments, Machine.tick, tickMoments, hoff] using hstays
  | tickFixed fixedDeltaTime =>
      simpa [perform, moments, Machine.tickFixed, tickFixedMoments, hoff] using hstays
  | enter guid =>
      simpa [perform, moments, Machine.enter, force, forceMoments, hoff] using hstays
  | enterFromEvent guid =>
      simpa [perform, moments, Machine.enterFromEvent, force, forceMoments, hoff] using hstays
  | setClock clock => exact ⟨.inr ⟨resting.graph, resting.isRunning, resting.current⟩, .nil⟩
  | host d =>
      refine ⟨.inr ⟨resting.graph, resting.isRunning, resting.current⟩, ?_⟩
      rw [perform, config_of_none resting.current,
        config_of_none (m := m.onSession d.perform) resting.current]
      exact .single (.host (hosts d rfl) trivial)

/-- What a settled machine chronicles is a path of small steps, and it leaves a settled machine. -/
theorem path_chronicle {m : Machine} (settled : Settled g m) (commands : List Command)
    (hosts : HostAllowed H commands) :
    Settled g (performAll commands m) ∧
      Path p H m.config (chronicle p.deeds commands m) (performAll commands m).config := by
  induction commands generalizing m with
  | nil => exact ⟨settled, .nil⟩
  | cons c rest ih =>
      have hc : ∀ d, c = .host d → H d := fun d hd => hosts d (hd ▸ List.mem_cons_self)
      have hfirst : Settled g (c.perform m) ∧
          Path p H m.config (c.moments p.deeds m) (c.perform m).config := by
        -- The statement is about settled machines; a step is proved for running and resting ones
        -- apart.
        rcases settled with underway | resting
        · obtain ⟨hstate, hpath⟩ := path_moments_of_underway (p := p) (H := H) underway c hc
          rcases hstate with ⟨-, hresting⟩ | ⟨-, hunderway⟩
          · exact ⟨.inr hresting, hpath⟩
          · exact ⟨.inl hunderway, hpath⟩
        · exact path_moments_of_resting resting c hc
      have hrest := ih hfirst.1 fun d hd => hosts d (List.mem_cons_of_mem c hd)
      exact ⟨hrest.1, hfirst.2.trans hrest.2⟩

end Command
end WorkflowGraph
