import WorkflowGraph.Catalog.Nodes
import WorkflowGraph.Proofs.Adjustment

/-!
# What the budget of a tick decides

A tick that is not capped has not been cut short, so a larger budget should lead to the same
place.  It does but for the mailbox (`Machine.tick_withBudget`).  Resolution can end in two ways
without moving on.  With budget left, its last round takes the request out of the mailbox and
refuses it.  With the budget spent to the last transition there is no such round: whether one
would move is only predicted, and the refused request stays behind.

So the two ticks agree in full if resolution ends before its budget, or if no request is left.
Otherwise they differ: the larger budget has the mailbox emptied, and where conditions look at the
mailbox it may even move on.  A request that has been left behind is for a node that cannot be
entered from where the machine is, but it can be once the host has moved the machine elsewhere
(`Machine.refused_request_outlives_tick`).
-/

namespace WorkflowGraph
namespace Machine

variable {m : Machine}

/-! ## More to spend -/

/-- What ends before its budget ends the same way with a larger one. -/
lemma settle_of_moved_lt {budget more : Nat} (hle : budget ≤ more) (m : Machine)
    (hleft : (settle budget m).moved < budget) : settle more m = settle budget m := by
  induction budget generalizing m more with
  | zero => simp at hleft
  | succ budget ih =>
      obtain ⟨more, rfl⟩ : ∃ k, more = k + 1 := ⟨more - 1, by omega⟩
      rw [settle_succ] at hleft
      rw [settle_succ, settle_succ]
      cases hmoves : m.pass.1 with
      | false => rfl
      | true =>
          rw [hmoves, if_pos rfl] at hleft
          have hrest : (settle budget m.pass.2).moved < budget := by
            simpa [Resolution.afterMove] using hleft
          rw [if_pos rfl, if_pos rfl, ih (by omega) m.pass.2 hrest]

/-- What spends its budget goes on, with a larger one, from where it has stopped. -/
lemma settle_of_moved_eq {budget : Nat} (further : Nat) (m : Machine)
    (hspent : (settle budget m).moved = budget) :
    settle (budget + further) m =
      let rest := settle further (settle budget m).machine
      { rest with moved := budget + rest.moved } := by
  induction budget generalizing m with
  | zero => simp [settle]
  | succ budget ih =>
      rw [settle_succ] at hspent
      rw [Nat.succ_add, settle_succ, settle_succ]
      cases hmoves : m.pass.1 with
      | false =>
          rw [hmoves] at hspent
          simp at hspent
      | true =>
          rw [hmoves, if_pos rfl] at hspent
          have hrest : (settle budget m.pass.2).moved = budget := by
            simpa [Resolution.afterMove] using hspent
          rw [if_pos rfl, if_pos rfl, ih m.pass.2 hrest]
          simp only [Resolution.afterMove, Resolution.mk.injEq, and_true]
          omega

/-! ## Where nothing is predicted to move -/

lemma enter?_of_moves {target : Guid} (stays : m.moves target = false) (reason : Reason)
    (edge : Option Edge) : m.enter? target reason edge = none := by
  by_contra henters
  have hsome : (m.enter? target reason edge).isSome = true := Option.isSome_iff_ne_none.mpr henters
  rw [isSome_enter?, Bool.and_eq_true] at hsome
  obtain ⟨hother, hknown⟩ := hsome
  obtain ⟨b, hb⟩ := Option.isSome_iff_exists.mp hknown
  simp [moves, hother, Graph.contains_of_behaviour? hb] at stays

lemma moves_of_still (still : m.canMove = false) :
    (∀ guid, m.session.context.requested = some guid → m.moves guid = false) ∧
      ∀ e, m.bestEdge = some e → m.moves e.target = false := by
  obtain ⟨hrequest, hedge⟩ := Bool.or_eq_false_iff.mp still
  refine ⟨fun guid hguid => ?_, fun e he => ?_⟩
  · simpa [hguid] using hrequest
  · simpa [he] using hedge

lemma drain_of_still (still : m.canMove = false) : m.drain = (false, m.withoutRequest) := by
  rw [drain_eq]
  cases hrequested : m.session.context.requested with
  | none => rfl
  | some guid =>
      have hstays : m.withoutRequest.moves guid = false := (moves_of_still still).1 guid hrequested
      simp only [Option.bind_some, enter?_of_moves hstays]

lemma follow?_of_still (still : m.canMove = false) : m.follow? = none := by
  cases hbest : m.bestEdge with
  | none => simp [follow?, hbest]
  | some e =>
      have hstays : m.moves e.target = false := (moves_of_still still).2 e hbest
      simp [follow?, hbest, enter?_of_moves hstays]

lemma settle_of_still (still : m.canMove = false)
    (hmailbox : m.session.context.requested = none) (budget : Nat) :
    settle budget m = ⟨0, false, m⟩ := by
  cases budget with
  | zero => rw [settle, still]
  | succ budget =>
      rw [settle_succ, pass_of_empty hmailbox (follow?_of_still still)]
      rfl

/-- If no condition looks at the mailbox, all that happens to a machine that is predicted to stay
is that its mailbox is emptied. -/
lemma settle_of_still_of_blind (blind : m.graph.IgnoresRequests) (still : m.canMove = false)
    (budget : Nat) : settle (budget + 1) m = ⟨0, false, m.withoutRequest⟩ := by
  have hstill : m.withoutRequest.canMove = false := by
    have hedge : (m.bestEdge.any fun e => m.moves e.target) = false :=
      (Bool.or_eq_false_iff.mp still).2
    rw [← bestEdge_forgetRequest blind] at hedge
    exact hedge
  have hpass : m.pass = (false, m.withoutRequest) := by
    unfold pass
    rw [drain_of_still still]
    simp only [follow?_of_still hstill]
  rw [settle_succ, hpass]
  rfl

/-! ## Two budgets -/

/-- How resolution ends when it is not capped: with budget to spare and an empty mailbox, or with
a machine that is predicted to stay. -/
lemma settle_uncapped {budget : Nat} (uncapped : (settle budget m).capped = false) :
    ((settle budget m).moved < budget ∧
        (settle budget m).machine.session.context.requested = none) ∨
      ((settle budget m).moved = budget ∧ (settle budget m).machine.canMove = false) := by
  obtain ⟨last, -, ⟨hspent, hlast, hcapped⟩ | ⟨hleft, hlast, -⟩⟩ := settle_walk budget m
  · refine .inr ⟨hspent, ?_⟩
    rw [hlast, ← hcapped, uncapped]
  · exact .inl ⟨hleft, (stable_of_pass_false hlast).1⟩

/-- A resolution that moves no further but has something to spend empties the mailbox. -/
lemma requested_of_settle_zero {budget : Nat} (hstays : (settle (budget + 1) m).moved = 0) :
    (settle (budget + 1) m).machine.session.context.requested = none := by
  have hmoves : m.pass.1 = false := by
    have hpos := settle_moved_pos (Nat.le_add_left 1 budget) m
    rw [← Bool.not_eq_true, ← hpos]
    omega
  rw [settle_succ, hmoves, if_neg Bool.false_ne_true]
  exact (stable_of_pass_false (Prod.ext hmoves rfl)).1

/-- **What an uncapped tick owes to its budget.**  Take a running machine that resolves until
nothing moves, on any graph, and the same machine with a budget that is not smaller.  If the tick
with the smaller budget is not capped, then:

* the tick with the larger one gives the same report and the same machine, with the same session
  in every respect, exactly if the budgets are the same, or resolution ends before it has spent
  the smaller one, or no request is left in the mailbox;
* a request is left only if the smaller budget is spent to the last transition, and it is for a
  node that cannot be entered from where the machine is: the current one, or an unknown one;
* if no condition of the graph looks at the mailbox and the larger budget is larger indeed, then
  the mailbox is all that can differ: the tick with the larger budget leaves it empty. -/
theorem tick_withBudget (running : m.isRunning = true) (mode : m.mode = .untilStable)
    (deltaTime : Float32) {budget : Nat} (larger : m.budget ≤ budget)
    (uncapped : (m.tick deltaTime).1.capped = false) :
    let few := m.tick deltaTime
    let many := (m.withBudget budget).tick deltaTime
    (many = (few.1, few.2.withBudget budget) ↔
      budget = m.budget ∨ few.1.resolved < m.budget ∨
        few.2.session.context.requested = none) ∧
    (∀ guid, few.2.session.context.requested = some guid →
      few.1.resolved = m.budget ∧ few.2.moves guid = false) ∧
    (m.graph.IgnoresRequests → m.budget < budget →
      many = (few.1, few.2.withoutRequest.withBudget budget)) := by
  have hpos : 1 ≤ budget := Nat.le_trans m.budget_pos larger
  have hgraph : (settle m.budget (m.advance deltaTime).2).machine.graph = m.graph :=
    ((advance_alike m deltaTime).trans (settle_alike _ _)).graph
  rw [tick_withBudget_eq running mode deltaTime hpos]
  rw [tick_of_untilStable running mode] at uncapped ⊢
  generalize (m.advance deltaTime).1.toNat = entered at uncapped ⊢
  generalize (m.advance deltaTime).2 = resolving at uncapped hgraph ⊢
  -- Either the smaller budget has not been used up, and then the larger one makes no difference, or
  -- the machine stands still where it has been, and only the mailbox may be emptied further.
  obtain ⟨hleft, hmailbox⟩ | ⟨hspent, hstill⟩ := settle_uncapped uncapped
  · have hsame : settle budget resolving = settle m.budget resolving :=
      settle_of_moved_lt larger resolving hleft
    have hempty : (settle m.budget resolving).machine.withoutRequest =
        (settle m.budget resolving).machine := withoutRequest_of_none hmailbox
    simp [hsame, hmailbox, hempty]
  · obtain ⟨further, rfl⟩ := Nat.exists_eq_add_of_le larger
    have hfurther := settle_of_moved_eq further resolving hspent
    have hcapped : (settle m.budget resolving).capped = false := uncapped
    simp only [hfurther, hspent, hcapped]
    generalize (settle m.budget resolving).machine = last at hstill hgraph ⊢
    refine ⟨⟨fun hequal => ?_, ?_⟩,
      fun guid hguid => ⟨trivial, (moves_of_still hstill).1 guid hguid⟩, fun blind hlarger => ?_⟩
    · cases further with
      | zero => exact .inl rfl
      | succ further =>
          obtain ⟨hreport, hmachine⟩ := Prod.mk.inj hequal
          -- Equal reports leave no room for another move; but resolution that goes on without one
          -- takes the request out of the mailbox.
          have hmoved : (settle (further + 1) last).moved = 0 := by
            have hresolved := congrArg Report.resolved hreport
            simpa using hresolved
          have hrequested := congrArg (·.session.context.requested) hmachine
          exact .inr (.inr (hrequested.symm.trans (requested_of_settle_zero hmoved)))
    · rintro (hzero | hless | hmailbox)
      · obtain rfl : further = 0 := by omega
        simp [settle, hstill]
      · exact absurd hless (Nat.lt_irrefl _)
      · simp [settle_of_still hstill hmailbox]
    · obtain ⟨further, rfl⟩ : ∃ k, further = k + 1 := ⟨further - 1, by omega⟩
      simp [settle_of_still_of_blind (hgraph ▸ blind) hstill]

/-! ### An echo -/

/-- The echo asks for itself as soon as it is entered. -/
def echoing : Machine :=
  let nodes : List Node := [⟨"hall", {}, some .empty⟩,
    ⟨"echo", {}, some (BuiltinNode.jump "echo").behaviour⟩, ⟨"yard", {}, some .empty⟩]
  let graph := Graph.assemble nodes [.make "call" "hall" "" "echo"] none []
  let m := (create graph .alone).withSettings { mode := .untilStable, budget := 1 }
  m.start.toOption.getD m

lemma echoing_ignoresRequests : echoing.graph.IgnoresRequests := by
  intro e he c hc
  obtain rfl : e = .make "call" "hall" "" "echo" := List.mem_singleton.mp he
  cases hc

/-- One transition is all the budget of the echo, and no more is needed.  With a budget of two the
tick differs in that it empties the mailbox. -/
theorem tick_withBudget_echo :
    echoing.isRunning = true ∧ echoing.mode = .untilStable ∧ echoing.budget ≤ 2 ∧
      (echoing.tick 0.5).1.capped = false ∧
      (echoing.withBudget 2).tick 0.5 =
        ((echoing.tick 0.5).1, (echoing.tick 0.5).2.withoutRequest.withBudget 2) := by
  have running : echoing.isRunning = true := by decide +kernel
  have uncapped : (echoing.tick 0.5).1.capped = false := by decide +kernel
  have larger : echoing.budget ≤ 2 := by decide +kernel
  obtain ⟨-, -, hblind⟩ := tick_withBudget running rfl 0.5 larger uncapped
  exact ⟨running, rfl, larger, uncapped, hblind echoing_ignoresRequests (by decide +kernel)⟩

/-- **A refused request outlives an uncapped tick.**  The echo asks for itself, which is refused,
and the tick is not capped.  With a budget of one the request stays: when the host has moved the
machine to the yard, the next tick goes back to the echo.  With a budget of two, in the same
place, the machine stays in the yard. -/
theorem refused_request_outlives_tick :
    let few := echoing.tick 0.5
    let many := (echoing.withBudget 2).tick 0.5
    few.1.capped = false ∧ many ≠ (few.1, few.2.withBudget 2) ∧
      few.2.session.context.requested = some "echo" ∧
      ((few.2.enter "yard").2.tick 0.5).2.current = some "echo" ∧
      ((many.2.enter "yard").2.tick 0.5).2.current = some "yard" := by
  intro few many
  have hfew : few.2.session.context.requested = some "echo" := by decide +kernel
  have hmany : many.2.session.context.requested = none := by decide +kernel
  refine ⟨by decide +kernel, fun hequal => ?_, hfew, by decide +kernel, by decide +kernel⟩
  have hrequested := congrArg (fun result => result.2.session.context.requested) hequal
  simp [withBudget, hfew, hmany] at hrequested

end Machine
end WorkflowGraph
