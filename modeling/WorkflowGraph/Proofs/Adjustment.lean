import WorkflowGraph.Proofs.Chronicle
import WorkflowGraph.Proofs.Resolution
import WorkflowGraph.Proofs.Walk

/-!
# What mode and budget decide

The mode and the budget of a machine are looked at by resolution and by nothing else.  A machine
that is set to another mode and another budget (`Machine.adjusted`) enters the same nodes, honours
the same requests and follows the same edges as before, and it gets through the first part of a
tick in the same way, with the same records and the same moments.

So a tick in any mode and with any budget is the same tick up to resolution
(`tick_adjusted_single`, `tick_adjusted_untilStable`), and what two ticks differ in is a matter of
`follow?` and `settle` on one machine.
-/

namespace WorkflowGraph
namespace Machine

variable {m : Machine}

/-- The machine in another mode and with another budget, which is one at the least. -/
def adjusted (m : Machine) (mode : Mode) (budget : Nat) : Machine :=
  { m.withBudget budget with mode }

lemma budget_adjusted {budget : Nat} (h : 1 ≤ budget) (mode : Mode) :
    (m.adjusted mode budget).budget = budget :=
  Nat.max_eq_left h

lemma withBudget_eq_adjusted {mode : Mode} (h : m.mode = mode) (budget : Nat) :
    m.withBudget budget = m.adjusted mode budget := by
  subst h
  rfl

variable (mode : Mode) (budget : Nat)

/-! ## Changes of node -/

lemma adjusted_enter? (target : Guid) (reason : Reason) (edge : Option Edge) :
    (m.adjusted mode budget).enter? target reason edge =
      (m.enter? target reason edge).map (·.adjusted mode budget) := by
  unfold enter?
  have hcurrent : (m.adjusted mode budget).current = m.current := rfl
  have hgraph : (m.adjusted mode budget).graph = m.graph := rfl
  rw [hcurrent, hgraph]
  by_cases hsame : m.current = some target
  · simp only [hsame, if_true, Option.map_none]
  · rw [if_neg hsame, if_neg hsame]
    cases m.graph.behaviour? target with
    | none => rfl
    | some next => cases m.current <;> rfl

lemma isSome_adjusted_enter? (target : Guid) (reason : Reason) (edge : Option Edge) :
    ((m.adjusted mode budget).enter? target reason edge).isSome =
      (m.enter? target reason edge).isSome := by
  rw [adjusted_enter?, Option.isSome_map]

lemma adjusted_drain :
    (m.adjusted mode budget).drain = (m.drain.1, m.drain.2.adjusted mode budget) := by
  have hsession : (m.adjusted mode budget).session = m.session := rfl
  have hforget : (m.adjusted mode budget).withoutRequest =
      m.withoutRequest.adjusted mode budget := rfl
  rw [drain_eq, drain_eq, hsession, hforget]
  cases m.session.context.requested with
  | none => rfl
  | some guid =>
      simp only [Option.bind_some, adjusted_enter?]
      cases m.withoutRequest.enter? guid .requested none <;> rfl

lemma adjusted_follow? :
    (m.adjusted mode budget).follow? = m.follow?.map (·.adjusted mode budget) := by
  have hbest : (m.adjusted mode budget).bestEdge = m.bestEdge := rfl
  simp only [follow?, hbest, adjusted_enter?]
  cases m.bestEdge <;> rfl

lemma adjusted_pass :
    (m.adjusted mode budget).pass = (m.pass.1, m.pass.2.adjusted mode budget) := by
  unfold pass
  rw [adjusted_drain]
  cases m.drain with
  | mk entered rest =>
      cases entered with
      | true => rfl
      | false =>
          simp only [adjusted_follow?]
          cases rest.follow? <;> rfl

/-- How long resolution may go on is said by its argument, not by the machine. -/
lemma adjusted_settle (rounds : Nat) (m : Machine) :
    settle rounds (m.adjusted mode budget) =
      { settle rounds m with machine := (settle rounds m).machine.adjusted mode budget } := by
  induction rounds generalizing m with
  | zero => rfl
  | succ rounds ih =>
      rw [settle_succ, settle_succ, adjusted_pass]
      simp only
      split
      · rw [ih]
        rfl
      · rfl

lemma settle_alike (rounds : Nat) (m : Machine) : Alike m (settle rounds m).machine := by
  obtain ⟨last, walk, ⟨-, hlast, -⟩ | ⟨-, hlast, -⟩⟩ := settle_walk rounds m
  · rw [hlast]
    exact walk.alike
  · have hpass := pass_alike last
    rw [hlast] at hpass
    exact walk.alike.trans hpass

/-! ## A tick up to resolution -/

lemma adjusted_call (phase : Phase) :
    (m.adjusted mode budget).call phase = (m.call phase).adjusted mode budget := by
  unfold call
  have hcurrent : (m.adjusted mode budget).current = m.current := rfl
  have hgraph : (m.adjusted mode budget).graph = m.graph := rfl
  rw [hcurrent, hgraph]
  cases m.current.bind m.graph.behaviour? <;> rfl

lemma adjusted_advance (deltaTime : Float32) :
    (m.adjusted mode budget).advance deltaTime =
      ((m.advance deltaTime).1, (m.advance deltaTime).2.adjusted mode budget) := by
  have hframe : { m.adjusted mode budget with frame := (m.adjusted mode budget).frame + 1 }.flush =
      ({ m with frame := m.frame + 1 }.flush).adjusted mode budget := rfl
  unfold advance
  rw [hframe, adjusted_drain]
  generalize ({ m with frame := m.frame + 1 } : Machine).flush.drain = drained
  have hcall := adjusted_call (m := drained.2.onSession fun s =>
    s.onContext fun c => { c with deltaTime }) mode budget .update
  exact congrArg (fun called : Machine => (drained.1, called.flush)) hcall

/-- A tick that takes one edge at the most. -/
lemma tick_adjusted_single (running : m.isRunning = true) (deltaTime : Float32) :
    (m.adjusted .single budget).tick deltaTime =
      let resolving := (m.advance deltaTime).2
      let moved := resolving.follow?.isSome.toNat
      (⟨moved + (m.advance deltaTime).1.toNat, moved, false⟩,
        (resolving.follow?.getD resolving).adjusted .single budget) := by
  have hrunning : (m.adjusted .single budget).isRunning = true := running
  simp only [tick, hrunning, if_true, adjusted_advance]
  have hmode : ((m.advance deltaTime).2.adjusted .single budget).mode = .single := rfl
  simp only [resolve, hmode, adjusted_follow?]
  cases (m.advance deltaTime).2.follow? <;> rfl

lemma tick_adjusted_untilStable (running : m.isRunning = true) (deltaTime : Float32)
    {budget : Nat} (hpos : 1 ≤ budget) :
    (m.adjusted .untilStable budget).tick deltaTime =
      let r := settle budget (m.advance deltaTime).2
      (⟨r.moved + (m.advance deltaTime).1.toNat, r.moved, r.capped⟩,
        r.machine.adjusted .untilStable budget) := by
  have hrunning : (m.adjusted .untilStable budget).isRunning = true := running
  rw [tick_of_untilStable hrunning rfl, budget_adjusted hpos, adjusted_advance]
  simp only [adjusted_settle]

/-- With another budget a tick only resolves for longer, or for less long. -/
lemma tick_withBudget_eq (running : m.isRunning = true) (untilStable : m.mode = .untilStable)
    (deltaTime : Float32) {budget : Nat} (hpos : 1 ≤ budget) :
    (m.withBudget budget).tick deltaTime =
      let r := settle budget (m.advance deltaTime).2
      (⟨r.moved + (m.advance deltaTime).1.toNat, r.moved, r.capped⟩,
        r.machine.withBudget budget) := by
  have hlast : (settle budget (m.advance deltaTime).2).machine.mode = .untilStable :=
    ((advance_alike m deltaTime).trans (settle_alike budget _)).mode.trans untilStable
  rw [withBudget_eq_adjusted untilStable, tick_adjusted_untilStable running deltaTime hpos]
  simp only [withBudget_eq_adjusted hlast]

/-! ## The records of a tick -/

lemma adjusted_attemptRecords (target : Guid) (reason : Reason) (edge : Option Edge) :
    (m.adjusted mode budget).attemptRecords target reason edge =
      m.attemptRecords target reason edge := by
  unfold attemptRecords
  rw [isSome_adjusted_enter?]
  rfl

lemma adjusted_drainRecords : (m.adjusted mode budget).drainRecords = m.drainRecords := by
  have hsession : (m.adjusted mode budget).session = m.session := rfl
  have hforget : (m.adjusted mode budget).withoutRequest =
      m.withoutRequest.adjusted mode budget := rfl
  unfold drainRecords
  simp only [hsession, hforget, adjusted_attemptRecords]

lemma adjusted_followRecords : (m.adjusted mode budget).followRecords = m.followRecords := by
  have hbest : (m.adjusted mode budget).bestEdge = m.bestEdge := rfl
  unfold followRecords
  simp only [hbest, adjusted_attemptRecords]

end Machine
end WorkflowGraph
