import Mathlib.Tactic.Lemma
import WorkflowGraph.Machine
import WorkflowGraph.Proofs.Validity

/-!
# What a change of node needs and what it leaves alone

A node can be entered unless it is current or there is nothing to call under its guid
(`isSome_enter?`).  Nothing that a machine does in a tick touches its graph, its mode or its
budget (`Alike`), so that what has been found out about them once holds for the whole tick.
-/

namespace WorkflowGraph
namespace Machine

/-- The machines agree in what is set up before a run and stays. -/
structure Alike (m m' : Machine) : Prop where
  graph : m'.graph = m.graph
  mode : m'.mode = m.mode
  budget : m'.budget = m.budget

namespace Alike

lemma refl (m : Machine) : Alike m m := ⟨rfl, rfl, rfl⟩

lemma trans {a b c : Machine} (hab : Alike a b) (hbc : Alike b c) : Alike a c :=
  ⟨hbc.graph.trans hab.graph, hbc.mode.trans hab.mode, hbc.budget.trans hab.budget⟩

end Alike

lemma onSession_alike (m : Machine) (f : Session → Session) : Alike m (m.onSession f) :=
  ⟨rfl, rfl, rfl⟩

/-! ## Entering a node -/

lemma isSome_enter? (m : Machine) (target : Guid) (reason : Reason) (edge : Option Edge) :
    (m.enter? target reason edge).isSome =
      (m.current != some target && (m.graph.behaviour? target).isSome) := by
  unfold enter?
  by_cases hcurrent : m.current = some target
  · simp [hcurrent]
  · rw [if_neg hcurrent]
    cases m.graph.behaviour? target <;> simp [hcurrent]

lemma enter?_alike {m entered : Machine} {target : Guid} {reason : Reason}
    {edge : Option Edge} (h : m.enter? target reason edge = some entered) :
    Alike m entered := by
  unfold enter? at h
  split at h
  · cases h
  · split at h
    · cases h
    · cases h
      cases m.current <;> exact ⟨rfl, rfl, rfl⟩

/-! ## Honouring a request -/

/-- The machine whose mailbox has been emptied. -/
def withoutRequest (m : Machine) : Machine := m.onSession fun s => s.onContext Context.forgetRequest

lemma withoutRequest_alike (m : Machine) : Alike m m.withoutRequest := onSession_alike m _

lemma withoutRequest_of_none {m : Machine} (h : m.session.context.requested = none) :
    m.withoutRequest = m := by
  obtain ⟨graph, ⟨context, hub⟩⟩ := m
  obtain ⟨address, owner, currentNode, deltaTime, fixedDeltaTime, blackboard, initial,
    requested, subscriptions⟩ := context
  subst h
  rfl

/-- A request is taken out of the mailbox in any case; whether it is honoured is the question
whether the node it names can be entered. -/
lemma drain_eq (m : Machine) :
    m.drain =
      match m.session.context.requested.bind fun guid =>
        m.withoutRequest.enter? guid .requested none with
      | some entered => (true, entered)
      | none => (false, m.withoutRequest) := by
  unfold drain
  cases hrequested : m.session.context.requested with
  | none => simp [withoutRequest_of_none hrequested]
  | some guid => rfl

/-- A request moves the machine exactly when the node it names can be entered. -/
lemma drain_fst (m : Machine) :
    m.drain.1 = m.session.context.requested.any fun guid =>
      (m.enter? guid .requested none).isSome := by
  rw [drain_eq]
  cases m.session.context.requested with
  | none => rfl
  | some guid =>
      have hsame : (m.withoutRequest.enter? guid .requested none).isSome =
          (m.enter? guid .requested none).isSome := by
        rw [isSome_enter?, isSome_enter?]
        rfl
      simp only [Option.bind_some, Option.any_some, ← hsame]
      cases m.withoutRequest.enter? guid .requested none <;> rfl

/-- What is left when no request is honoured: the same machine with an empty mailbox. -/
lemma eq_of_drain_false {m rest : Machine} (h : m.drain = (false, rest)) :
    rest = m.withoutRequest := by
  rw [drain_eq] at h
  split at h
  · cases h
  · exact (Prod.mk.inj h).2.symm

lemma drain_alike (m : Machine) : Alike m m.drain.2 := by
  rw [drain_eq]
  split
  · rename_i hentered
    obtain ⟨guid, -, hguid⟩ := Option.bind_eq_some_iff.mp hentered
    exact (withoutRequest_alike m).trans (enter?_alike hguid)
  · exact withoutRequest_alike m

/-! ## Following an edge, and a tick up to resolution -/

lemma isSome_follow? (m : Machine) :
    m.follow?.isSome =
      m.bestEdge.any fun e => (m.enter? e.target .autoEdge (some e)).isSome := by
  unfold follow?
  cases m.bestEdge <;> rfl

lemma follow?_alike {m moved : Machine} (h : m.follow? = some moved) : Alike m moved := by
  obtain ⟨e, -, hentered⟩ := Option.bind_eq_some_iff.mp h
  exact enter?_alike hentered

lemma call_alike (m : Machine) (phase : Phase) : Alike m (m.call phase) := by
  unfold call
  split
  · exact onSession_alike m _
  · exact .refl m

lemma advance_alike (m : Machine) (deltaTime : Float32) : Alike m (m.advance deltaTime).2 := by
  have hframe : Alike m { m with frame := m.frame + 1 }.flush := ⟨rfl, rfl, rfl⟩
  have htime := (hframe.trans (drain_alike _)).trans
    (onSession_alike _ fun s => s.onContext fun c => { c with deltaTime })
  have hcall := htime.trans (call_alike _ .update)
  exact ⟨hcall.graph, hcall.mode, hcall.budget⟩

end Machine
end WorkflowGraph
