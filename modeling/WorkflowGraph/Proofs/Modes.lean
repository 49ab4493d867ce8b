import WorkflowGraph.Proofs.Adjustment
import WorkflowGraph.Proofs.Lifecycle

/-!
# One edge at a time, or one round

A tick that follows one edge at the most is not the same as a tick that resolves with a budget of
one: the round that the latter may make honours a request first.  Where no request is waiting when
resolution begins, the round is an edge as well, and the two ticks agree
(`Machine.single_agrees_with_round`).

They agree whatever is done by the nodes that the edge leads from and to.  A request made there
waits in both cases: for the one mode resolution is over, and the other one has spent its budget
and only looks at the mailbox, to tell whether it was cut short.  The flag for that is the one
thing in which the reports can differ.
-/

namespace WorkflowGraph
namespace Machine

variable {m : Machine}

/-! ## Neither mode nor budget decides what happens before resolution -/

section
variable (deeds : Guid → Phase → Session → List Deed) (mode : Mode) (budget : Nat)

lemma adjusted_enterMoments (target : Guid) :
    (m.adjusted mode budget).enterMoments deeds target = m.enterMoments deeds target := by
  have hcurrent : (m.adjusted mode budget).current = m.current := rfl
  unfold enterMoments departed
  rw [hcurrent]
  cases m.current <;> rfl

lemma adjusted_attemptMoments (target : Guid) (reason : Reason) (edge : Option Edge) :
    (m.adjusted mode budget).attemptMoments deeds target reason edge =
      m.attemptMoments deeds target reason edge := by
  unfold attemptMoments
  rw [isSome_adjusted_enter?, adjusted_enterMoments]

lemma adjusted_drainMoments :
    (m.adjusted mode budget).drainMoments deeds = m.drainMoments deeds := by
  have hsession : (m.adjusted mode budget).session = m.session := rfl
  have hforget : (m.adjusted mode budget).withoutRequest =
      m.withoutRequest.adjusted mode budget := rfl
  unfold drainMoments
  simp only [hsession, hforget, adjusted_attemptMoments]

lemma adjusted_followMoments :
    (m.adjusted mode budget).followMoments deeds = m.followMoments deeds := by
  have hbest : (m.adjusted mode budget).bestEdge = m.bestEdge := rfl
  unfold followMoments
  simp only [hbest, adjusted_attemptMoments]

lemma adjusted_advanceMoments (deltaTime : Float32) :
    (m.adjusted mode budget).advanceMoments deeds deltaTime =
      m.advanceMoments deeds deltaTime := by
  have hframe : { m.adjusted mode budget with frame := (m.adjusted mode budget).frame + 1 }.flush =
      ({ m with frame := m.frame + 1 }.flush).adjusted mode budget := rfl
  unfold advanceMoments
  simp only [hframe, adjusted_drain, adjusted_drainMoments]
  rfl

/-- A tick is the same one up to resolution. -/
lemma tickMoments_adjusted (running : m.isRunning = true) (deltaTime : Float32) :
    (m.adjusted mode budget).tickMoments deeds deltaTime =
      m.advanceMoments deeds deltaTime ++
        ((m.advance deltaTime).2.adjusted mode budget).resolveMoments deeds := by
  have hrunning : (m.adjusted mode budget).isRunning = true := running
  rw [tickMoments, if_pos hrunning, adjusted_advanceMoments, adjusted_advance]

lemma tickRecords_adjusted (deltaTime : Float32) :
    (m.adjusted mode budget).tickRecords deltaTime =
      m.nextFrame.flush.drainRecords ++
        ((m.advance deltaTime).2.adjusted mode budget).resolveRecords := by
  have hframe : (m.adjusted mode budget).nextFrame.flush =
      m.nextFrame.flush.adjusted mode budget := rfl
  rw [tickRecords, hframe, adjusted_drainRecords, adjusted_advance]

end

/-! ## A round without a request is an edge -/

lemma drain_of_empty (empty : m.session.context.requested = none) : m.drain = (false, m) := by
  rw [drain_eq, empty, withoutRequest_of_none empty]
  rfl

lemma settle_one_of_empty (empty : m.session.context.requested = none) :
    settle 1 m =
      ⟨m.follow?.isSome.toNat, m.follow?.any canMove, m.follow?.getD m⟩ := by
  rw [settle, drain_of_empty empty]
  cases hfollow : m.follow? <;> simp [hfollow, settle, Resolution.afterMove]

lemma settleRecords_one_of_empty (empty : m.session.context.requested = none) :
    settleRecords 1 m = m.followRecords := by
  have hdrain : m.drainRecords = [] := by simp [drainRecords, empty]
  rw [settleRecords, drain_of_empty empty, hdrain]
  cases hfollow : m.follow? <;> simp [hfollow, settleRecords]

lemma calls_settleMoments_zero (deeds : Guid → Phase → Session → List Deed) (m : Machine) :
    calls (settleMoments deeds 0 m) = [] := by
  unfold settleMoments
  split <;> rfl

lemma calls_settleMoments_one_of_empty (deeds : Guid → Phase → Session → List Deed)
    (empty : m.session.context.requested = none) :
    calls (settleMoments deeds 1 m) = calls (m.followMoments deeds) := by
  have hdrain : m.drainMoments deeds = [.managed .takeRequest] := by
    simp [drainMoments, empty]
  rw [settleMoments, drain_of_empty empty, hdrain]
  cases hfollow : m.follow? <;> simp [hfollow, calls_settleMoments_zero]

/-! ## Two ticks -/

/-- **The two modes agree on one step.**  Take a running machine on any graph, whatever its nodes
do.  If no request is waiting when resolution begins, which is when the current node has been
called, then the tick that follows one edge at the most and the tick that resolves with a budget of
one

* call the same nodes, in the same order,
* make the same changes of node, so that they add the same records to the history,
* lead to the same machine with the same session, its mode and its budget apart,
* and report the same numbers of transitions.

A tick that follows one edge at the most is never capped, with or without a request. -/
theorem single_agrees_with_round (running : m.isRunning = true) (deltaTime : Float32)
    (budget : Nat) (deeds : Guid → Phase → Session → List Deed) :
    let once := m.adjusted .single budget
    let round := m.adjusted .untilStable 1
    (∀ other : Machine, other.mode = .single → (other.tick deltaTime).1.capped = false) ∧
    ((m.advance deltaTime).2.session.context.requested = none →
      calls (once.tickMoments deeds deltaTime) = calls (round.tickMoments deeds deltaTime) ∧
      once.tickRecords deltaTime = round.tickRecords deltaTime ∧
      (round.tick deltaTime).2 = (once.tick deltaTime).2.adjusted .untilStable 1 ∧
      (once.tick deltaTime).1.transitions = (round.tick deltaTime).1.transitions ∧
      (once.tick deltaTime).1.resolved = (round.tick deltaTime).1.resolved) := by
  intro once round
  refine ⟨fun other single => ?_, fun empty => ?_⟩
  · cases hother : other.isRunning with
    | false => simp [tick, hother]
    | true =>
        -- A machine in this mode is its own adjustment, so the lemma on adjusted ones applies.
        have hsame : other = other.adjusted .single other.budget := by
          rw [← withBudget_eq_adjusted single]
          simp only [withBudget, Nat.max_eq_left other.budget_pos]
        rw [hsame, tick_adjusted_single _ hother]
  · have hempty : ((m.advance deltaTime).2.adjusted .untilStable 1).session.context.requested =
        none := empty
    have hmoments : ((m.advance deltaTime).2.adjusted .untilStable 1).resolveMoments deeds =
        settleMoments deeds 1 ((m.advance deltaTime).2.adjusted .untilStable 1) := rfl
    have hrecords : ((m.advance deltaTime).2.adjusted .untilStable 1).resolveRecords =
        settleRecords 1 ((m.advance deltaTime).2.adjusted .untilStable 1) := rfl
    simp only [once, round, tick_adjusted_single budget running,
      tick_adjusted_untilStable running deltaTime (Nat.le_refl 1), settle_one_of_empty empty]
    refine ⟨?_, ?_, rfl, trivial, trivial⟩
    · rw [tickMoments_adjusted deeds _ _ running, tickMoments_adjusted deeds _ _ running, hmoments,
        calls_append, calls_append, calls_settleMoments_one_of_empty deeds hempty,
        adjusted_followMoments]
      exact congrArg (calls (m.advanceMoments deeds deltaTime) ++ calls ·)
        (adjusted_followMoments deeds .single budget)
    · rw [tickRecords_adjusted, tickRecords_adjusted, hrecords,
        settleRecords_one_of_empty hempty, adjusted_followRecords]
      exact congrArg (m.nextFrame.flush.drainRecords ++ ·)
        (adjusted_followRecords .single budget)

/-! ### A way to the bell -/

/-- From the hall an edge leads to a gate, and whoever comes to the gate asks for the bell. -/
def gatehouse : Cast Deed.KeepsPlace :=
  [("hall", Actor.idle), ("gate", BuiltinNode.actor (.jump "bell")), ("bell", Actor.idle)]

/-- What happens there. -/
def gatehouseConduct : (gatehouse.graph [.make "way" "hall" "" "gate"] none).Conduct
    Deed.KeepsPlace :=
  gatehouse.conduct [.make "way" "hall" "" "gate"] none

/-- A machine that has been started in the hall. -/
def inHall : Machine :=
  let m := create (gatehouse.graph [.make "way" "hall" "" "gate"] none) .alone
  m.start.toOption.getD m

/-- In both modes the gate is entered and the bell is asked for.  Only the round tells that it
could go on. -/
theorem single_agrees_with_round_gate :
    let once := inHall.adjusted .single 32
    let round := inHall.adjusted .untilStable 1
    inHall.isRunning = true ∧ (inHall.advance 0.5).2.session.context.requested = none ∧
      calls (once.tickMoments gatehouseConduct.deeds 0.5) =
        [⟨.update, "hall"⟩, ⟨.exit, "hall"⟩, ⟨.enter, "gate"⟩] ∧
      calls (round.tickMoments gatehouseConduct.deeds 0.5) =
        [⟨.update, "hall"⟩, ⟨.exit, "hall"⟩, ⟨.enter, "gate"⟩] ∧
      (once.tick 0.5).2.session.context.requested = some "bell" ∧
      (round.tick 0.5).2 = (once.tick 0.5).2.adjusted .untilStable 1 ∧
      (once.tick 0.5).1 = ⟨1, 1, false⟩ ∧ (round.tick 0.5).1 = ⟨1, 1, true⟩ := by
  intro once round
  have running : inHall.isRunning = true := by decide +kernel
  have empty : (inHall.advance 0.5).2.session.context.requested = none := by decide +kernel
  have hcalls : calls (once.tickMoments gatehouseConduct.deeds 0.5) =
      [⟨.update, "hall"⟩, ⟨.exit, "hall"⟩, ⟨.enter, "gate"⟩] := by decide +kernel
  obtain ⟨-, hagree⟩ := single_agrees_with_round running 0.5 32 gatehouseConduct.deeds
  obtain ⟨hsame, -, hlast, -⟩ := hagree empty
  exact ⟨running, empty, hcalls, hsame.symm.trans hcalls, by decide +kernel, hlast,
    by decide +kernel, by decide +kernel⟩

end Machine
end WorkflowGraph
