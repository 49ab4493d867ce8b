import WorkflowGraph.Proofs.Lifecycle
import WorkflowGraph.Proofs.Ownership
import WorkflowGraph.Proofs.Walk

/-!
# The state of a machine between two commands

That a machine runs is said in four places: by its state, by its current and its previous node,
and by the current node of the context.  Different operations change them at different moments,
with callbacks in between, and yet they agree whenever a command has been carried out
(`Coherent`).  What the context says comes from the path of the run (`Course.Path.aware` and
`Course.Path.owned`), the rest from walks.

A machine only runs on a graph without defects, where every edge leads to a node.  So resolution
never chooses an edge to nowhere: it stays where it is only because no edge can be taken, or
because the chosen one leads back.
-/

namespace WorkflowGraph

namespace Machine

/-! ## The chosen edge -/

lemma bestEdge_of_behaviour? {m : Machine} {n : Guid} {b : Behaviour} (hn : m.current = some n)
    (hb : m.graph.behaviour? n = some b) :
    m.bestEdge =
      (b.resolvedPorts.findSome? fun port =>
        ((m.graph.outgoing n).filter fun e => e.port == port).find? fun e => e.passes m.session).or
      (((m.graph.outgoing n).filter fun e => !b.resolvedPorts.contains e.port).find? fun e =>
        e.passes m.session) := by
  simp only [bestEdge, hn, hb, Option.bind_eq_bind, Option.bind_some]
  exact Option.orElse_eq_or

/-- The chosen edge leaves the current node and can be taken. -/
lemma passing_of_bestEdge {m : Machine} {e : Edge} (h : m.bestEdge = some e) :
    ∃ n, m.current = some n ∧ e ∈ m.graph.outgoing n ∧ e.passes m.session = true := by
  obtain ⟨n, hn, hbehaviour⟩ := Option.bind_eq_some_iff.mp h
  obtain ⟨b, hb, -⟩ := Option.bind_eq_some_iff.mp hbehaviour
  refine ⟨n, hn, ?_⟩
  rw [bestEdge_of_behaviour? hn hb] at h
  have hfound : ∀ keep : Edge → Bool,
      ((m.graph.outgoing n).filter keep).find? (fun e => e.passes m.session) = some e →
        e ∈ m.graph.outgoing n ∧ e.passes m.session = true := by
    intro keep hfind
    have hpasses := List.find?_some hfind
    exact ⟨(List.mem_filter.mp (List.mem_of_find?_eq_some hfind)).1, hpasses⟩
  rcases Option.or_eq_some_iff.mp h with hport | ⟨-, hother⟩
  · obtain ⟨port, -, hfind⟩ := List.exists_of_findSome?_eq_some hport
    exact hfound _ hfind
  · exact hfound _ hother

/-- No edge is chosen exactly if none that leaves the current node can be taken. -/
lemma bestEdge_eq_none_iff {m : Machine} {n : Guid} {b : Behaviour} (hn : m.current = some n)
    (hb : m.graph.behaviour? n = some b) :
    m.bestEdge = none ↔ ∀ e ∈ m.graph.outgoing n, e.passes m.session = false := by
  constructor
  · intro hnone e he
    rw [bestEdge_of_behaviour? hn hb, Option.or_eq_none_iff] at hnone
    obtain ⟨hports, hothers⟩ := hnone
    rw [List.findSome?_eq_none_iff] at hports
    rw [← Bool.not_eq_true]
    intro hpasses
    by_cases hport : e.port ∈ b.resolvedPorts
    · have hdeclared := List.find?_eq_none.mp (hports e.port hport) e
      exact hdeclared (List.mem_filter.mpr ⟨he, by simp⟩) hpasses
    · have hundeclared := List.find?_eq_none.mp hothers e
      exact hundeclared (List.mem_filter.mpr ⟨he, by simpa using hport⟩) hpasses
  · intro hfails
    rw [Option.eq_none_iff_forall_ne_some]
    intro e hbest
    obtain ⟨k, hk, hmem, hpasses⟩ := passing_of_bestEdge hbest
    obtain rfl : n = k := Option.some.inj (hn.symm.trans hk)
    rw [hfails e hmem] at hpasses
    cases hpasses

lemma behaviour?_target_of_bestEdge {m : Machine} (valid : m.graph.defects = []) {e : Edge}
    (h : m.bestEdge = some e) : (m.graph.behaviour? e.target).isSome = true := by
  obtain ⟨n, -, hmem, -⟩ := passing_of_bestEdge h
  obtain ⟨-, htarget⟩ := Graph.contains_ends_of_defects valid e (List.mem_filter.mp hmem).1
  exact (Graph.contains_iff_isSome_behaviour? valid e.target).mp htarget

/-- On a graph without defects resolution only stays where it is if no edge is chosen or the
chosen one leads back. -/
lemma follow?_eq_none_iff {m : Machine} (valid : m.graph.defects = []) :
    m.follow? = none ↔
      m.bestEdge = none ∨ ∃ e, m.bestEdge = some e ∧ m.current = some e.target := by
  rw [← Option.not_isSome_iff_eq_none, isSome_follow?]
  cases hbest : m.bestEdge with
  | none => simp
  | some e =>
      have htarget := behaviour?_target_of_bestEdge valid hbest
      simp [isSome_enter?, htarget]

/-! ## The fields of a machine agree -/

/-- The fields of a machine for the graph tell the same about whether it runs. -/
inductive Coherent (g : Graph) (m : Machine) : Prop
  | running (underway : Underway g m) (valid : g.defects = []) (moved : m.previous ≠ m.current)
  | stopped (resting : Resting g m) (fresh : m.previous = none)

lemma previous_ne_current_of_enter? {m entered : Machine} {target : Guid} {reason : Reason}
    {edge : Option Edge} (h : m.enter? target reason edge = some entered) :
    entered.previous ≠ entered.current := by
  obtain ⟨hother, hcurrent, hprevious, -⟩ := fields_of_enter? h
  rwa [hprevious, hcurrent]

lemma Walk.underway {g : Graph} {a b : Machine} {ts : List Transition} (walk : Walk a ts b)
    (underway : Underway g a) : Underway g b := by
  exact walk.preserves (P := Underway g) (fun _ f h => h.onSession f)
    (fun henters h => underway_of_enter? h.graph h.isRunning henters) underway

end Machine

namespace Command

open Course Machine

variable {g : Graph} {m : Machine}

/-- A start puts the machine at the entry node, or leaves it as it is. -/
lemma coherent_start (resting : Resting g m) (fresh : m.previous = none) :
    Coherent g (Command.start.perform m) := by
  by_cases valid : m.graph.defects = []
  · obtain ⟨entry, entered, -, hentered, hok, -⟩ :=
      exists_entered_of_start resting.isRunning resting.current valid
    have hstart : Command.start.perform m = entered := by
      show m.start.toOption.getD m = entered
      rw [hok]
      rfl
    rw [hstart]
    exact .running (underway_of_enter? (m := m.opened) resting.graph rfl hentered)
      (resting.graph ▸ valid) (previous_ne_current_of_enter? hentered)
  · have hstays : Command.start.perform m = m := by
      show m.start.toOption.getD m = m
      rw [(start_of_defects resting.isRunning valid fun _ _ _ => []).1]
      rfl
    rw [hstays]
    exact .stopped resting fresh

/-- What neither the session, the clock and the frame nor entering a node can break holds after
every command of a machine that runs, other than a stop. -/
lemma preserves_perform {P : Machine → Prop}
    (tends : ∀ (m : Machine) f, P m → P (m.onSession f))
    (times : ∀ (m : Machine) clock frame, P m → P { m with clock, frame })
    (enters : ∀ {m entered : Machine} {target : Guid} {reason : Reason} {edge : Option Edge},
      m.enter? target reason edge = some entered → P m → P entered)
    (running : m.isRunning = true) {c : Command} (goesOn : c ≠ .stop) (h : P m) :
    P (c.perform m) := by
  have hforce : ∀ guid reason, P (m.force guid reason).2 := by
    intro guid reason
    simp only [force, running, if_true]
    cases henters : m.enter? guid reason none with
    | none => exact h
    | some entered => exact enters henters h
  cases c with
  | stop => exact absurd rfl goesOn
  | start =>
      have hstays : Command.start.perform m = m := by
        simp [perform, Machine.start, running, Except.toOption]
      rwa [hstays]
  | tick deltaTime =>
      obtain ⟨hwalk, -⟩ := walk_tick running deltaTime
      exact hwalk.preserves tends enters (times m m.clock (m.frame + 1) h)
  -- No edge is looked at in a fixed frame: the time is set and one node is called.
  | tickFixed fixedDeltaTime =>
      have hwalk := (Walk.nil.tend (Deed.elapseFixed fixedDeltaTime).perform).trans
        (walk_call (m.onSession (Deed.elapseFixed fixedDeltaTime).perform) .fixedUpdate)
      have hperform : (Command.tickFixed fixedDeltaTime).perform m =
          (m.onSession (Deed.elapseFixed fixedDeltaTime).perform).call .fixedUpdate := by
        simp only [perform, Machine.tickFixed, running, if_true]
        rfl
      rw [hperform]
      exact hwalk.preserves tends enters h
  | enter guid => exact hforce guid .manual
  | enterFromEvent guid => exact hforce guid .externalEvent
  | setClock clock => exact times m clock m.frame h
  | host d => exact tends m d.perform h

lemma previous_ne_current_perform (running : m.isRunning = true) (moved : m.previous ≠ m.current)
    {c : Command} (goesOn : c ≠ .stop) : (c.perform m).previous ≠ (c.perform m).current :=
  preserves_perform (P := fun m => m.previous ≠ m.current) (fun _ _ h => h) (fun _ _ _ h => h)
    (fun henters _ => previous_ne_current_of_enter? henters) running goesOn moved

lemma underway_perform (underway : Underway g m) {c : Command} (goesOn : c ≠ .stop) :
    Underway g (c.perform m) :=
  preserves_perform (fun _ f h => h.onSession f)
    (fun _ _ _ h => ⟨h.graph, h.isRunning, h.current⟩)
    (fun henters h => underway_of_enter? h.graph h.isRunning henters) underway.isRunning goesOn
    underway

lemma resting_stop (underway : Underway g m) : Resting g m.stop := by
  obtain ⟨n, -, hn, -⟩ := underway.current
  simp only [Machine.stop, underway.isRunning, if_true, hn]
  exact ⟨underway.graph, rfl, rfl⟩

lemma previous_stop (running : m.isRunning = true) : m.stop.previous = none := by
  simp [Machine.stop, running]

/-- Every command leaves the fields in agreement. -/
lemma coherent_perform (coherent : Coherent g m) (c : Command) : Coherent g (c.perform m) := by
  cases coherent with
  | running underway valid moved =>
      by_cases hstop : c = .stop
      · subst hstop
        exact .stopped (resting_stop underway) (previous_stop underway.isRunning)
      · exact .running (underway_perform underway hstop) valid
          (previous_ne_current_perform underway.isRunning moved hstop)
  | stopped resting fresh =>
      have hoff := resting.isRunning
      have hstays : Coherent g m := .stopped resting fresh
      cases c with
      | start => exact coherent_start resting fresh
      | stop => simpa [perform, Machine.stop, hoff] using hstays
      | tick deltaTime => simpa [perform, Machine.tick, hoff] using hstays
      | tickFixed fixedDeltaTime => simpa [perform, Machine.tickFixed, hoff] using hstays
      | enter guid => simpa [perform, Machine.enter, force, hoff] using hstays
      | enterFromEvent guid => simpa [perform, Machine.enterFromEvent, force, hoff] using hstays
      | setClock | host => exact .stopped ⟨resting.graph, resting.isRunning, resting.current⟩ fresh

lemma coherent_performAll (commands : List Command) (coherent : Coherent g m) :
    Coherent g (performAll commands m) := by
  induction commands generalizing m with
  | nil => exact coherent
  | cons c rest ih => exact ih (coherent_perform coherent c)

/-- If a machine runs after some commands, its current node can be called and its graph has no
defects. -/
lemma underway_of_isRunning {s : Session} {settings : MachineSettings} {commands : List Command}
    (running : (performAll commands (outset g s settings)).isRunning = true) :
    Underway g (performAll commands (outset g s settings)) ∧ g.defects = [] := by
  have hcoherent : Coherent g (performAll commands (outset g s settings)) :=
    coherent_performAll commands (.stopped ⟨rfl, rfl, rfl⟩ rfl)
  cases hcoherent with
  | running underway valid moved => exact ⟨underway, valid⟩
  | stopped resting fresh =>
      rw [resting.isRunning] at running
      cases running

/-- No command touches what has been set up before a run. -/
lemma alike_perform (c : Command) (m : Machine) : Alike m (c.perform m) := by
  have hforce : ∀ guid reason, Alike m (m.force guid reason).2 := by
    intro guid reason
    unfold force
    split
    · cases henters : m.enter? guid reason none with
      | none => exact .refl m
      | some entered => exact enter?_alike henters
    · exact .refl m
  cases c with
  | start =>
      simp only [perform, Machine.start]
      split
      · exact .refl m
      · split
        · rename_i entry _ _
          cases henters : m.opened.enter? entry .start none with
          | none =>
              rw [opened] at henters
              rw [henters]
              exact ⟨rfl, rfl, rfl⟩
          | some entered =>
              have hentered := enter?_alike henters
              rw [opened] at henters
              rw [henters]
              exact ⟨hentered.graph, hentered.mode, hentered.budget⟩
        · exact .refl m
        · exact .refl m
  | stop =>
      simp only [perform, Machine.stop]
      split
      · cases m.current <;> exact ⟨rfl, rfl, rfl⟩
      · exact .refl m
  | tick deltaTime =>
      cases hrunning : m.isRunning with
      | true =>
          obtain ⟨hwalk, -⟩ := walk_tick hrunning deltaTime
          exact ⟨hwalk.alike.graph, hwalk.alike.mode, hwalk.alike.budget⟩
      | false =>
          simp only [perform, Machine.tick, hrunning]
          exact .refl m
  -- A walk would need a running machine; here it may rest.
  | tickFixed fixedDeltaTime =>
      simp only [perform, Machine.tickFixed]
      split
      · exact (onSession_alike m _).trans (call_alike _ .fixedUpdate)
      · exact .refl m
  | enter guid => exact hforce guid .manual
  | enterFromEvent guid => exact hforce guid .externalEvent
  | setClock | host => exact ⟨rfl, rfl, rfl⟩

lemma alike_performAll (commands : List Command) (m : Machine) :
    Alike m (performAll commands m) := by
  induction commands generalizing m with
  | nil => exact .refl m
  | cons c rest ih => exact (alike_perform c m).trans (ih (c.perform m))

/-- Between two commands the context calls that node current which the machine does. -/
lemma currentNode_eq_current (p : g.Conduct Deed.KeepsPlace) (h : Hub)
    (settings : MachineSettings) (commands : List Command)
    (hosts : HostAllowed Deed.KeepsPlace commands) :
    let m := performAll commands (outset g (.attach h) settings)
    m.session.context.currentNode = m.current := by
  intro m
  have hsettled : Settled g (outset g (.attach h) settings) := settled_outset g (.attach h) settings
  obtain ⟨-, hpath⟩ := path_chronicle (p := p) hsettled commands hosts
  have hkept := hpath.aware rfl fun d hd => (hpath.may_of_mem hd).elim id id
  cases hcurrent : m.current with
  | some n =>
      have hactive : m.config.place.node = some n := by rw [config_of_current hcurrent]; rfl
      exact hkept n hactive
  | none =>
      have hneverHosts : HostAllowed Deed.NeverPlaces commands :=
        fun d hd => (hosts d hd).neverPlaces
      obtain ⟨-, hnever⟩ := path_chronicle
        (p := p.weaken fun _ keeps => keeps.neverPlaces) hsettled commands hneverHosts
      have hshows := hnever.owned.shows
      rw [config_of_none hcurrent] at hshows
      exact hshows

/-- **The fields of a machine agree.**  Take a machine with a new context on any graph, and any
commands of the host, where neither callbacks nor the host move the current node of the context
or tear it down.  Then, after all the commands:

* the machine runs exactly if it has a current node;
* while it runs, its graph has no defects, its current node is one of the graph and can be called,
  the context calls the same node current, and the previous node is another one;
* while it does not run, it has neither a current nor a previous node, and nor has the context;
* while it runs, wherever a tick leads it on the way, every edge that is chosen leads to a node of
  the graph that can be called.  So a step of resolution stays where it is exactly if no edge that
  leaves the current node can be taken, or if the chosen edge leads back to the current node. -/
theorem fields_agree (p : g.Conduct Deed.KeepsPlace) (h : Hub) (settings : MachineSettings)
    (commands : List Command) (hosts : HostAllowed Deed.KeepsPlace commands) :
    let m := performAll commands (outset g (.attach h) settings)
    (m.isRunning = true ↔ m.current.isSome = true) ∧
    (m.isRunning = true →
      g.defects = [] ∧
      (∃ n node, m.current = some n ∧ g.node? n = some node ∧ node.behaviour.isSome = true) ∧
      m.session.context.currentNode = m.current ∧ m.previous ≠ m.current) ∧
    (m.isRunning = false →
      m.current = none ∧ m.previous = none ∧ m.session.context.currentNode = none) ∧
    (m.isRunning = true → ∀ ts other, Walk m.nextFrame ts other →
      ∃ n, other.current = some n ∧
        (∀ e, other.bestEdge = some e →
          g.contains e.target = true ∧ (g.behaviour? e.target).isSome = true) ∧
        (other.follow? = none ↔
          (∀ e ∈ g.outgoing n, e.passes other.session = false) ∨
            ∃ e, other.bestEdge = some e ∧ e.target = n)) := by
  intro m
  have hshown : m.session.context.currentNode = m.current :=
    currentNode_eq_current p h settings commands hosts
  have hcoherent : Coherent g m :=
    coherent_performAll commands (.stopped ⟨rfl, rfl, rfl⟩ rfl)
  cases hcoherent with
  | stopped resting fresh =>
      have hoff := resting.isRunning
      have hnone := resting.current
      refine ⟨by simp [hoff, hnone], by simp [hoff], ?_, by simp [hoff]⟩
      exact fun _ => ⟨hnone, fresh, hshown.trans hnone⟩
  | running underway valid moved =>
      have hrunning := underway.isRunning
      obtain ⟨n, b, hn, hb⟩ := underway.current
      refine ⟨by simp [hrunning, hn], ?_, by simp [hrunning], ?_⟩
      · obtain ⟨node, hnode, hbehaviour⟩ := Option.bind_eq_some_iff.mp hb
        exact fun _ => ⟨valid, ⟨n, node, hn, hnode, by simp [hbehaviour]⟩, hshown, moved⟩
      · intro _ ts other hwalk
        have hnext : Underway g m.nextFrame := ⟨underway.graph, hrunning, n, b, hn, hb⟩
        obtain ⟨hgraph, -, k, c, hk, hc⟩ := hwalk.underway hnext
        have hvalid : other.graph.defects = [] := hgraph ▸ valid
        -- Without defects the graph that the index knows and the nodes with a behaviour are the
        -- same.
        refine ⟨k, hk, ?_, ?_⟩
        · intro e hbest
          have htarget := behaviour?_target_of_bestEdge hvalid hbest
          rw [hgraph] at htarget
          exact ⟨(Graph.contains_iff_isSome_behaviour? valid e.target).mpr htarget, htarget⟩
        · rw [follow?_eq_none_iff hvalid, bestEdge_eq_none_iff hk (hgraph ▸ hc), hgraph, hk]
          simp only [Option.some.injEq, eq_comm]

/-! ### A bell that rings on -/

/-- From the bell an edge leads back to it, in front of one that leads out. -/
def belfryEdges : List Edge :=
  [.make "round" "bell" "" "bell", .make "out" "bell" "" "hall"]

/-- What the visitors of the hall and the bell do. -/
def belfryConduct : (visitors.graph belfryEdges none).Conduct Deed.KeepsPlace :=
  visitors.conduct belfryEdges none

/-- After a tick the machine is at the bell, where it comes from the hall, and it stays there. -/
theorem fields_agree_belfry :
    let run := [.start, .tick 0.5]
    let m := performAll run (outset (visitors.graph belfryEdges none) (.attach {}) {})
    HostAllowed Deed.KeepsPlace run ∧ m.isRunning = true ∧ m.previous = some "hall" ∧
      m.session.context.currentNode = some "bell" ∧ m.previous ≠ m.current ∧
      m.nextFrame.follow? = none := by
  intro run m
  have hosts : HostAllowed Deed.KeepsPlace run := by
    intro d hd
    simp [run] at hd
  have running : m.isRunning = true := by decide +kernel
  have hcurrent : m.current = some "bell" := by decide +kernel
  have hbest : ∃ e, m.nextFrame.bestEdge = some e ∧ e.target = "bell" :=
    ⟨.make "round" "bell" "" "bell", rfl, rfl⟩
  obtain ⟨-, hfields, -, hwalk⟩ := fields_agree belfryConduct {} {} run hosts
  obtain ⟨-, -, hshown, hmoved⟩ := hfields running
  obtain ⟨n, hn, -, hstays⟩ := hwalk running [] m.nextFrame .nil
  obtain rfl : "bell" = n := Option.some.inj (hcurrent.symm.trans hn)
  exact ⟨hosts, running, by decide +kernel, hshown.trans hcurrent, hmoved, hstays.mpr (.inr hbest)⟩

end Command
end WorkflowGraph
