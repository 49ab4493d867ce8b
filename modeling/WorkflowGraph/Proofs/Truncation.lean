import WorkflowGraph.Proofs.Budget
import WorkflowGraph.Proofs.Rounds

/-!
# Ticks that are cut short

Two budgets make two ticks out of one walk.  Up to resolution the budget plays no part, and in
resolution it is only counted down, once for each round.  So the smaller budget stops the walk that
the larger one goes on with (`Machine.tick_cut_short`): the transitions made with the smaller one
are the first of those made with the larger one.

That a tick is capped is another matter.  Resolution does not try the round that it has no budget
for, it predicts whether it would move.  If the larger budget has been spent and more was to come,
then the smaller one was spent in front of a round that does move, as the longer walk shows, and the
prediction was that it does.  Only this part needs the premise that no condition looks at the
mailbox: a round empties the mailbox before it chooses an edge, and the prediction does not.

Each of these facts follows the rounds of `settle`, with both budgets counted down at once.
-/

namespace WorkflowGraph
namespace Machine

/-! ## Neither mode nor budget decides what a round leaves -/

lemma adjusted_passRecords (m : Machine) (mode : Mode) (budget : Nat) :
    (m.adjusted mode budget).passRecords = m.passRecords := by
  unfold passRecords
  rw [adjusted_drain, adjusted_drainRecords, adjusted_followRecords]

lemma adjusted_settleRecords (mode : Mode) (budget rounds : Nat) (m : Machine) :
    settleRecords rounds (m.adjusted mode budget) = settleRecords rounds m := by
  induction rounds generalizing m with
  | zero => rfl
  | succ rounds ih =>
      rw [settleRecords_succ, settleRecords_succ, adjusted_passRecords, adjusted_pass, ih]

/-- The budget of a tick is the number of rounds in its records. -/
lemma tickRecords_withBudget {m : Machine} (mode : m.mode = .untilStable) (deltaTime : Float32)
    {budget : Nat} (pos : 1 ≤ budget) :
    (m.withBudget budget).tickRecords deltaTime =
      m.nextFrame.flush.drainRecords ++ settleRecords budget (m.advance deltaTime).2 := by
  have hframe : (m.adjusted .untilStable budget).nextFrame.flush =
      m.nextFrame.flush.adjusted .untilStable budget := rfl
  have hresolve : ((m.advance deltaTime).2.adjusted .untilStable budget).resolveRecords =
      settleRecords (max budget 1) ((m.advance deltaTime).2.adjusted .untilStable budget) := rfl
  rw [withBudget_eq_adjusted mode, tickRecords, hframe, adjusted_drainRecords, adjusted_advance,
    hresolve, adjusted_settleRecords, Nat.max_eq_left pos]

/-! ## Two budgets on one walk -/

/-- With less to spend the same rounds are made, and fewer of them. -/
lemma settleRecords_prefix {few many : Nat} (le : few ≤ many) (m : Machine) :
    settleRecords few m <+: settleRecords many m := by
  induction few generalizing many m with
  | zero => exact List.nil_prefix
  | succ few ih =>
      obtain ⟨many, rfl⟩ : ∃ k, many = k + 1 := ⟨many - 1, by omega⟩
      rw [settleRecords_succ, settleRecords_succ, List.prefix_append_right_inj]
      split
      · exact ih (by omega) m.pass.2
      · exact List.prefix_rfl

/-- Resolution makes all the rounds that it would make with more to spend, or as many as it
may. -/
lemma moved_settle_eq_min {few many : Nat} (le : few ≤ many) (m : Machine) :
    (settle few m).moved = min few (settle many m).moved := by
  induction few generalizing many m with
  | zero => exact (Nat.zero_min _).symm
  | succ few ih =>
      obtain ⟨many, rfl⟩ : ∃ k, many = k + 1 := ⟨many - 1, by omega⟩
      rw [settle_succ, settle_succ]
      split
      · have hrest := ih (by omega : few ≤ many) m.pass.2
        simp only [Resolution.afterMove]
        omega
      · exact (Nat.min_zero _).symm

/-- What stops in front of a round that moves is predicted to move. -/
lemma canMove_of_pass {m : Machine} (blind : m.graph.IgnoresRequests) (moves : m.pass.1 = true) :
    m.canMove = true := by
  by_contra hstill
  have hsettle := settle_of_still_of_blind blind (Bool.not_eq_true _ ▸ hstill) 0
  have hmoved := (settle_moved_pos (Nat.le_refl 1) m).mpr moves
  rw [hsettle] at hmoved
  exact absurd hmoved (Nat.not_succ_le_zero 0)

/-- A larger budget that is spent too early is not spent too early by being larger. -/
lemma capped_settle {few many : Nat} (le : few ≤ many) {m : Machine}
    (blind : m.graph.IgnoresRequests) (capped : (settle many m).capped = true) :
    (settle few m).capped = true := by
  induction few generalizing many m with
  | zero =>
      cases many with
      | zero => exact capped
      | succ many =>
          -- The larger budget makes the round that the smaller one stops in front of.
          rw [settle_succ] at capped
          split at capped
          · exact canMove_of_pass blind ‹_›
          · cases capped
  | succ few ih =>
      obtain ⟨many, rfl⟩ : ∃ k, many = k + 1 := ⟨many - 1, by omega⟩
      rw [settle_succ] at capped ⊢
      split at capped
      · rename_i moves
        have hnext : m.pass.2.graph.IgnoresRequests := (pass_alike m).graph ▸ blind
        rw [if_pos moves]
        exact ih (by omega) hnext capped
      · cases capped

/-! ## Two ticks -/

/-- **A smaller budget only cuts the same walk short.**  Take a running machine that resolves until
nothing moves, on any graph and whatever its nodes do, and two budgets.  Of the two ticks from this
machine

* the transitions made with the smaller budget are the first of those made with the larger one,
  each of them in the same frame, from and to the same node, for the same reason and along the same
  edge and port, if any; they are what the tick adds to the history, and as many as it reports;
* the one with the smaller budget makes as many transitions in resolution as the other one, or as
  many as it may;
* the one with the smaller budget is capped if the other one is, as long as no condition of the
  graph looks at the mailbox. -/
theorem tick_cut_short {m : Machine} (running : m.isRunning = true) (mode : m.mode = .untilStable)
    (deltaTime : Float32) {few many : Nat} (pos : 1 ≤ few) (le : few ≤ many) :
    let made (budget : Nat) := (m.withBudget budget).tickRecords deltaTime
    let short := (m.withBudget few).tick deltaTime
    let long := (m.withBudget many).tick deltaTime
    made few <+: made many ∧
    (short.2.history = m.history.pushAll (made few) ∧
      short.1.transitions = (made few).length) ∧
    (long.2.history = m.history.pushAll (made many) ∧
      long.1.transitions = (made many).length) ∧
    short.1.resolved = min few long.1.resolved ∧
    (m.graph.IgnoresRequests → long.1.capped = true → short.1.capped = true) := by
  intro made short long
  have hmany : 1 ≤ many := Nat.le_trans pos le
  -- Each tick on its own: what it records is what it appends to the history.
  have hmade : ∀ budget, ((m.withBudget budget).tick deltaTime).2.history =
      m.history.pushAll (made budget) ∧
        ((m.withBudget budget).tick deltaTime).1.transitions = (made budget).length := by
    intro budget
    have hrunning : (m.withBudget budget).isRunning = true := running
    obtain ⟨hwalk, hlength⟩ := walk_tick hrunning deltaTime
    exact ⟨hwalk.history, hlength.symm⟩
  refine ⟨?_, hmade few, hmade many, ?_⟩
  · simp only [made, tickRecords_withBudget mode deltaTime pos,
      tickRecords_withBudget mode deltaTime hmany, List.prefix_append_right_inj]
    exact settleRecords_prefix le _
  · simp only [short, long, tick_withBudget_eq running mode deltaTime pos,
      tick_withBudget_eq running mode deltaTime hmany]
    refine ⟨moved_settle_eq_min le _, fun blind capped => ?_⟩
    exact capped_settle le ((advance_alike m deltaTime).graph ▸ blind) capped

/-- On the ring both budgets are spent, and more would move: with two transitions the machine is
back where it was, with three it is on the other side. -/
theorem tick_cut_short_circling :
    let made (budget : Nat) := (circling.withBudget budget).tickRecords 0.5
    (made 2).map (fun t => (t.target, t.reason, t.edge, t.port)) =
        [("back", .autoEdge, some "forth", some "Next"),
          ("there", .autoEdge, some "return", some "Next")] ∧
      made 2 <+: made 3 ∧ ((circling.withBudget 3).tick 0.5).1.resolved = 3 ∧
      ((circling.withBudget 2).tick 0.5).1.resolved = 2 ∧
      ((circling.withBudget 3).tick 0.5).1.capped = true ∧
      ((circling.withBudget 2).tick 0.5).1.capped = true := by
  intro made
  have running : circling.isRunning = true := by decide +kernel
  have hthree : ((circling.withBudget 3).tick 0.5).1.resolved = 3 := by decide +kernel
  have hcapped : ((circling.withBudget 3).tick 0.5).1.capped = true := by decide +kernel
  obtain ⟨hfirst, -, -, hresolved, hflag⟩ :=
    tick_cut_short running rfl 0.5 (by decide : 1 ≤ 2) (by decide : 2 ≤ 3)
  refine ⟨by decide +kernel, hfirst, hthree, ?_, hcapped, hflag ring_ignoresRequests hcapped⟩
  rw [hresolved, hthree]
  rfl

end Machine
end WorkflowGraph
