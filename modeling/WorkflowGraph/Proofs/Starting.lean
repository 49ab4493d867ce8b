import WorkflowGraph.Proofs.Accounts

/-!
# What a start does

A start inspects the graph first and touches nothing unless the inspection finds nothing.  After
that it cannot fail any more: a graph without defects has an entry node that can be called, and a
machine that does not run has no current node, so that the entry is never refused.

`Machine.startedAt` is the machine after a start in closed form: nothing has happened to its
session but the first call of the entry node, and one record has gone into its history.
`Command.start_outcome` says of every machine that a host can have what a start makes of it.
-/

namespace WorkflowGraph

namespace Machine

/-- The machine that has started at the entry node, which acts by the behaviour. -/
def startedAt (m : Machine) (entry : Guid) (b : Behaviour) : Machine :=
  { m with
    state := .running
    frame := 0
    current := some entry
    previous := none
    history := m.history.push
      { time := m.clock.now
        frame := 0
        source := none
        target := entry
        reason := .start
        edge := none
        port := none }
    session := b.onEnter (m.session.onContext fun c => { c with currentNode := some entry }) }

variable {g : Graph} {m : Machine} {entry : Guid} {b : Behaviour}

/-- If nothing else is wrong with a graph, it has an entry. -/
lemma start_ne_noEntryNode (m : Machine) : m.start ≠ .error .noEntryNode := by
  unfold start
  split
  · rintro ⟨⟩
  · cases hdefects : m.graph.defects with
    | nil =>
        obtain ⟨entry, hentry, -⟩ := Graph.exists_resolvedEntry hdefects
        rw [hentry]
        rintro ⟨⟩
    | cons d rest => rintro ⟨⟩

lemma start_of_running (running : m.isRunning = true) : m.start = .ok m := by
  simp [start, running]

lemma enter?_opened (nowhere : m.current = none) (hb : m.graph.behaviour? entry = some b) :
    m.opened.enter? entry .start none = some (m.startedAt entry b) := by
  obtain ⟨graph, session, current, _⟩ := m
  obtain rfl : current = none := nowhere
  simp only [enter?, opened, startedAt, reduceCtorEq, if_false] at hb ⊢
  rw [hb]
  rfl

/-- All that happens is that the entry node is called for the first time. -/
lemma unfolds_enter_opened (nowhere : m.current = none)
    (hb : m.graph.behaviour? entry = some b) (deeds : Guid → Phase → Session → List Deed) :
    Unfolds m.graph m.session (m.opened.enterMoments deeds entry) [⟨.enter, entry⟩]
      (m.startedAt entry b).session := by
  have hnowhere : m.opened.current = none := nowhere
  simp only [enterMoments, departed, hnowhere, List.nil_append]
  exact (Unfolds.manage (.place (some entry)) m.session).trans (.call hb .enter deeds _)

/-- On a graph without defects a machine that rests starts at the entry node. -/
lemma start_of_resting (resting : Resting g m) (valid : g.defects = []) :
    ∃ entry b, g.resolvedEntry = some entry ∧ g.behaviour? entry = some b ∧
      m.start = .ok (m.startedAt entry b) ∧
      ∀ deeds, Unfolds g m.session (m.startMoments deeds) [⟨.enter, entry⟩]
        (m.startedAt entry b).session := by
  obtain ⟨rfl, hoff, hnone⟩ := resting
  obtain ⟨entry, entered, hentry, hentered, hstart, hmoments⟩ :=
    exists_entered_of_start hoff hnone valid
  obtain ⟨-, -, -, -, b, hb, -⟩ := enter?_eq_some hentered
  rw [enter?_opened hnone hb] at hentered
  obtain rfl := Option.some.inj hentered
  refine ⟨entry, b, hentry, hb, hstart, fun deeds => ?_⟩
  rw [hmoments]
  exact unfolds_enter_opened hnone hb deeds

end Machine

namespace Command

open Machine

/-- **A start succeeds exactly on graphs without defects, and one that fails leaves no trace.**
Take a machine on any graph after any commands of the host, whatever the nodes do.

* A start is never refused for want of an entry, and to a running machine it does nothing.
* To a machine that does not run it succeeds exactly if the graph has no defects.  Then the machine
  runs, in frame 0, at the entry of the graph; of all callbacks only the first call of the entry
  node has been run, and one record has been made.
* Otherwise the start fails with the defects of the graph.  The machine stays as it is, and nothing
  happens. -/
theorem start_outcome (g : Graph) (s : Session) (settings : MachineSettings)
    (commands : List Command) :
    let m := performAll commands (outset g s settings)
    m.start ≠ .error .noEntryNode ∧
    (m.isRunning = true → m.start = .ok m ∧ ∀ deeds, m.startMoments deeds = []) ∧
    (m.isRunning = false →
      ((∃ started, m.start = .ok started) ↔ g.defects = []) ∧
      (g.defects = [] →
        ∃ entry b, g.resolvedEntry = some entry ∧ g.behaviour? entry = some b ∧
          m.start = .ok (m.startedAt entry b) ∧
          ∀ deeds, Unfolds g m.session (m.startMoments deeds) [⟨.enter, entry⟩]
            (m.startedAt entry b).session) ∧
      (g.defects ≠ [] →
        m.start = .error (.invalidGraph g.defects) ∧ Command.start.perform m = m ∧
          ∀ deeds, m.startMoments deeds = [])) := by
  intro m
  refine ⟨start_ne_noEntryNode m, ?_, ?_⟩
  · intro running
    exact ⟨start_of_running running, fun deeds => by simp [startMoments, running]⟩
  · intro stopped
    -- Whatever has been commanded, a machine that does not run is at no node.
    have hcoherent : Coherent g m := coherent_performAll commands (.stopped ⟨rfl, rfl, rfl⟩ rfl)
    have hresting : Resting g m := by
      cases hcoherent with
      | running underway valid moved =>
          rw [underway.isRunning] at stopped
          cases stopped
      | stopped resting fresh => exact resting
    have hfails : g.defects ≠ [] → m.start = .error (.invalidGraph g.defects) ∧
        ∀ deeds, m.startMoments deeds = [] := by
      intro invalid
      rw [← hresting.graph] at invalid ⊢
      exact ⟨(start_of_defects stopped invalid fun _ _ _ => []).1,
        fun deeds => (start_of_defects stopped invalid deeds).2⟩
    refine ⟨⟨?_, ?_⟩, start_of_resting hresting, ?_⟩
    · rintro ⟨started, hstarted⟩
      by_contra invalid
      rw [(hfails invalid).1] at hstarted
      cases hstarted
    · intro valid
      obtain ⟨entry, b, -, -, hstart, -⟩ := start_of_resting hresting valid
      exact ⟨m.startedAt entry b, hstart⟩
    · intro invalid
      obtain ⟨hstart, hmoments⟩ := hfails invalid
      refine ⟨hstart, ?_, hmoments⟩
      show m.start.toOption.getD m = m
      rw [hstart]
      rfl

/-- The visitors start at the hall again after a stop; while they are about, a start does nothing;
and a graph without nodes is refused. -/
theorem start_outcome_visitors :
    let g := visitors.graph [] none
    let back := performAll [.start, .tick 0.5, .stop] (outset g .alone {})
    let there := performAll [.start, .tick 0.5] (outset g .alone {})
    let bare := performAll [.stop] (outset .empty .alone {})
    (back.isRunning = false ∧ g.defects = [] ∧ ∃ b, back.start = .ok (back.startedAt "hall" b)) ∧
      (there.isRunning = true ∧ there.start = .ok there) ∧
      bare.isRunning = false ∧ bare.start = .error (.invalidGraph [.noNodes]) := by
  intro g back there bare
  have hback : back.isRunning = false := by decide +kernel
  have hthere : there.isRunning = true := by decide +kernel
  have hbare : bare.isRunning = false := rfl
  have hvalid : g.defects = [] := by decide +kernel
  have hhall : g.resolvedEntry = some "hall" := rfl
  obtain ⟨-, -, hstopped⟩ := start_outcome g .alone {} [.start, .tick 0.5, .stop]
  obtain ⟨-, hrunning, -⟩ := start_outcome g .alone {} [.start, .tick 0.5]
  obtain ⟨-, -, hempty⟩ := start_outcome .empty .alone {} [.stop]
  obtain ⟨-, hstarts, -⟩ := hstopped hback
  obtain ⟨entry, b, hentry, -, hstart, -⟩ := hstarts hvalid
  obtain rfl : "hall" = entry := Option.some.inj (hhall.symm.trans hentry)
  obtain ⟨-, -, hrefused⟩ := hempty hbare
  obtain ⟨hfails, -, -⟩ := hrefused nofun
  exact ⟨⟨hback, hvalid, b, hstart⟩, ⟨hthere, (hrunning hthere).1⟩, hbare, hfails⟩

end Command

end WorkflowGraph
