import Mathlib.Data.List.Find
import WorkflowGraph.Proofs.Transition

/-!
# When resolution stops

Resolution is a walk in rounds.  A round (`Machine.pass`) honours the request in the mailbox if
it can, and otherwise follows the best edge; it moves if either leads to another node.  A
machine is *stable* if neither does.

* `settle_walk` describes resolution by its walk alone: it makes as many rounds as it reports,
  and it ends either because the budget is spent or with a round that does not move.
* `canMove_eq_pass` is what the flag for a spent budget rests on.  Whether a round would move is
  predicted from the mailbox and the best edge, without emptying the one or running the other.
  The prediction is right for every machine on a graph without defects whose conditions do not
  look at the mailbox: a round empties the mailbox before it chooses an edge, and the choice
  must not depend on that.

The section on ticks puts this together for a tick of a running machine.
-/

namespace WorkflowGraph

/-- The condition does not look at the mailbox. -/
def Condition.IgnoresRequest (c : Condition) : Prop :=
  ∀ (s : Session) (request : Option Guid),
    c.holds (s.onContext fun x => { x with requested := request }) = c.holds s

/-- No condition of the graph looks at the mailbox. -/
def Graph.IgnoresRequests (g : Graph) : Prop :=
  ∀ e ∈ g.edges, ∀ c, e.condition = some c → c.IgnoresRequest

namespace Machine

/-! ## Rounds -/

/-- One round of resolution: a request that can be honoured, or else an edge.  Tells whether the
node changed.  A request that is refused is gone all the same. -/
def pass (m : Machine) : Bool × Machine :=
  match m.drain with
  | (true, m) => (true, m)
  | (false, m) =>
    match m.follow? with
    | some m => (true, m)
    | none => (false, m)

/-- `Rounds n m m'`: from `m`, `n` rounds that all change the node lead to `m'`. -/
inductive Rounds : Nat → Machine → Machine → Prop
  | zero (m : Machine) : Rounds 0 m m
  | succ {n : Nat} {m next last : Machine} (moved : m.pass = (true, next))
      (rest : Rounds n next last) : Rounds (n + 1) m last

/-- Nothing moves: the request that may be waiting is refused, and no edge leads to another
node. -/
def Stable (m : Machine) : Prop :=
  (∀ guid, m.session.context.requested = some guid → m.enter? guid .requested none = none) ∧
    m.follow? = none

/-! ## What a round leaves alone -/

lemma pass_alike (m : Machine) : Alike m m.pass.2 := by
  have hdrain := drain_alike m
  unfold pass
  split
  · rename_i h
    rwa [h] at hdrain
  · rename_i rest h
    rw [h] at hdrain
    cases hfollow : rest.follow? with
    | none => exact hdrain
    | some moved => exact hdrain.trans (follow?_alike hfollow)

lemma Rounds.alike {n : Nat} {m last : Machine} (walk : Rounds n m last) : Alike m last := by
  induction walk with
  | zero m => exact .refl m
  | @succ n m next last moved rest ih =>
      have hnext := pass_alike m
      rw [moved] at hnext
      exact hnext.trans ih

/-! ## The choice of an edge does not depend on the mailbox -/

lemma passes_forgetRequest {g : Graph} (blind : g.IgnoresRequests) {e : Edge}
    (he : e ∈ g.edges) (s : Session) :
    e.passes (s.onContext Context.forgetRequest) = e.passes s := by
  unfold Edge.passes
  cases hc : e.condition with
  | none => rfl
  | some c => exact blind e he c hc s none

lemma bestEdge_forgetRequest {m : Machine} (blind : m.graph.IgnoresRequests) :
    m.withoutRequest.bestEdge = m.bestEdge := by
  have hpasses : ∀ guid, ∀ e ∈ m.graph.outgoing guid,
      e.passes (m.session.onContext Context.forgetRequest) = e.passes m.session :=
    fun guid e he => passes_forgetRequest blind (List.mem_filter.mp he |>.1) m.session
  have hfind : ∀ guid (keep : Edge → Bool),
      ((m.graph.outgoing guid).filter keep).find?
          (fun e => e.passes (m.session.onContext Context.forgetRequest)) =
        ((m.graph.outgoing guid).filter keep).find? fun e => e.passes m.session :=
    fun guid keep => List.find?_congr fun e he => hpasses guid e (List.mem_filter.mp he |>.1)
  unfold bestEdge
  simp only [withoutRequest, onSession, hfind]

/-! ## The prediction -/

/-- Whether going to a node would change the node is the question whether it can be entered. -/
lemma moves_eq_isSome_enter? {m : Machine} (valid : m.graph.defects = []) (target : Guid)
    (reason : Reason) (edge : Option Edge) :
    m.moves target = (m.enter? target reason edge).isSome := by
  rw [isSome_enter?, moves, Bool.eq_iff_iff.mpr (Graph.contains_iff_isSome_behaviour? valid target)]

/-- **The prediction is right.**  Whether a further round would move is told by the mailbox and
the best edge, before either is acted upon. -/
lemma canMove_eq_pass {m : Machine} (valid : m.graph.defects = [])
    (blind : m.graph.IgnoresRequests) : m.canMove = m.pass.1 := by
  have hrequest : m.session.context.requested.any m.moves = m.drain.1 := by
    rw [drain_fst]
    congr 1
    funext guid
    exact moves_eq_isSome_enter? valid guid .requested none
  -- A refused request is taken out all the same, which edges that ignore requests cannot tell.
  have hedge : ∀ rest, m.drain = (false, rest) →
      (m.bestEdge.any fun e => m.moves e.target) = rest.follow?.isSome := by
    rintro rest hrest
    obtain rfl := eq_of_drain_false hrest
    rw [isSome_follow?, bestEdge_forgetRequest blind]
    congr 1
    funext e
    exact moves_eq_isSome_enter?
      (m := m.withoutRequest) valid e.target .autoEdge (some e)
  unfold canMove pass
  rw [hrequest]
  split
  · rename_i h
    simp [h]
  · rename_i rest h
    rw [h, hedge rest h]
    cases rest.follow? <;> rfl

/-! ## Stable machines -/

/-- A round that does not move leaves a stable machine with an empty mailbox. -/
lemma stable_of_pass_false {m rest : Machine} (h : m.pass = (false, rest)) :
    rest.session.context.requested = none ∧ rest.follow? = none := by
  unfold pass at h
  split at h
  · cases h
  · rename_i left hleft
    cases hfollow : left.follow? with
    | some moved => simp [hfollow] at h
    | none =>
        simp only [hfollow, Prod.mk.injEq, true_and] at h
        subst h
        exact ⟨by rw [eq_of_drain_false hleft]; rfl, hfollow⟩

lemma Stable.of_empty {m : Machine} (hmailbox : m.session.context.requested = none)
    (hedge : m.follow? = none) : m.Stable :=
  ⟨fun _ h => by simp [hmailbox] at h, hedge⟩

lemma pass_of_empty {m : Machine} (hmailbox : m.session.context.requested = none)
    (hedge : m.follow? = none) : m.pass = (false, m) := by
  have hdrain : m.drain = (false, m) := by
    rw [drain_eq, hmailbox, withoutRequest_of_none hmailbox]
    rfl
  unfold pass
  rw [hdrain]
  simp [hedge]

/-! ## The walk -/

/-- Resolution with something left to spend begins with a round and ends there if that does not
move. -/
lemma settle_succ (budget : Nat) (m : Machine) :
    settle (budget + 1) m =
      if m.pass.1 then (settle budget m.pass.2).afterMove else ⟨0, false, m.pass.2⟩ := by
  rw [settle, pass]
  cases m.drain with
  | mk entered rest =>
      cases entered with
      | true => rfl
      | false => cases hfollow : rest.follow? <;> simp [hfollow]

/-- Resolution moves at least once exactly when its first round does, whatever it may spend. -/
lemma settle_moved_pos {budget : Nat} (hbudget : 1 ≤ budget) (m : Machine) :
    1 ≤ (settle budget m).moved ↔ m.pass.1 = true := by
  obtain ⟨k, rfl⟩ := Nat.exists_eq_add_of_le' hbudget
  rw [settle_succ]
  cases m.pass.1 <;> simp [Resolution.afterMove]

/-- **Resolution is a walk.**  It makes as many rounds as it reports.  Either that is all the
budget allows, and the flag is the prediction at the place it has reached; or the budget is not
spent, and the next round did not move. -/
lemma settle_walk (budget : Nat) (m : Machine) :
    ∃ last, Rounds (settle budget m).moved m last ∧
      ((settle budget m).moved = budget ∧ (settle budget m).machine = last ∧
          (settle budget m).capped = last.canMove ∨
        (settle budget m).moved < budget ∧ last.pass = (false, (settle budget m).machine) ∧
          (settle budget m).capped = false) := by
  induction budget generalizing m with
  | zero => exact ⟨m, .zero m, .inl ⟨rfl, rfl, rfl⟩⟩
  | succ budget ih =>
      rw [settle_succ]
      cases hpass : m.pass with
      | mk moved next =>
          cases moved with
          -- A round that comes to nothing ends the walk before it is spent.
          | false => exact ⟨m, .zero m, .inr ⟨Nat.succ_pos budget, hpass, rfl⟩⟩
          | true =>
              obtain ⟨last, walk, hend⟩ := ih next
              refine ⟨last, .succ hpass walk, ?_⟩
              simp only [if_true, Resolution.afterMove]
              rcases hend with ⟨hspent, hlast, hcapped⟩ | ⟨hleft, hlast, hcapped⟩
              · exact .inl ⟨by rw [hspent], hlast, hcapped⟩
              · exact .inr ⟨by omega, hlast, hcapped⟩

/-! ## A tick -/

/-- Every step of resolution changes the node, so that a tick reports its rounds and one change
more if a request was honoured before them. -/
lemma tick_of_untilStable {m : Machine} (running : m.isRunning = true)
    (mode : m.mode = .untilStable) (deltaTime : Float32) :
    m.tick deltaTime =
      let r := settle m.budget (m.advance deltaTime).2
      (⟨r.moved + (m.advance deltaTime).1.toNat, r.moved, r.capped⟩, r.machine) := by
  have halike := advance_alike m deltaTime
  simp only [tick, running, if_true, resolve, halike.mode, mode, halike.budget]

/-- **When resolution stops.**  In a tick of a running machine that resolves until nothing moves,
on any graph without defects whose conditions do not look at the mailbox, resolution makes a
finite walk of `resolved` rounds from the machine that the callback left behind.  The walk ends
when the budget, which is one at the least, is spent, or else with a round that does not move.

* It never exceeds the budget, and a machine that it leaves with budget to spare is stable.
* The report is capped exactly when resolution would move on from there, given anything to spend.
* What decides that, `canMove`, is right about the next round of every machine on the graph. -/
theorem tick_resolution (m : Machine) (deltaTime : Float32) (running : m.isRunning = true)
    (mode : m.mode = .untilStable) (valid : m.graph.defects = [])
    (blind : m.graph.IgnoresRequests) :
    let report := (m.tick deltaTime).1
    let final := (m.tick deltaTime).2
    (∃ last, Rounds report.resolved (m.advance deltaTime).2 last ∧
      (report.resolved = m.budget ∧ final = last ∨
        report.resolved < m.budget ∧ last.pass = (false, final))) ∧
    report.resolved ≤ m.budget ∧
    (1 ≤ m.budget ∧ ∀ configured, 1 ≤ (m.withBudget configured).budget) ∧
    (report.resolved < m.budget → final.Stable) ∧
    (∀ fresh, 1 ≤ fresh → (report.capped = true ↔ 1 ≤ (settle fresh final).moved)) ∧
    ∀ other : Machine, other.graph = m.graph → other.canMove = other.pass.1 := by
  have hpredict : ∀ other : Machine, other.graph = m.graph → other.canMove = other.pass.1 :=
    fun other hgraph => canMove_eq_pass (hgraph ▸ valid) (hgraph ▸ blind)
  obtain ⟨last, walk, hend⟩ := settle_walk m.budget (m.advance deltaTime).2
  have hgraph : last.graph = m.graph :=
    walk.alike.graph.trans (advance_alike m deltaTime).graph
  simp only [tick_of_untilStable running mode]
  refine ⟨⟨last, walk, ?_⟩, ?_, ⟨m.budget_pos, fun configured => Nat.le_max_right _ _⟩, ?_, ?_,
    hpredict⟩
  · exact hend.imp (fun h => ⟨h.1, h.2.1⟩) fun h => ⟨h.1, h.2.1⟩
  · rcases hend with ⟨hspent, -, -⟩ | ⟨hleft, -, -⟩ <;> omega
  · rintro hleft
    rcases hend with ⟨hspent, -, -⟩ | ⟨-, hlast, -⟩
    · omega
    · obtain ⟨hmailbox, hedge⟩ := stable_of_pass_false hlast
      exact .of_empty hmailbox hedge
  -- Any fresh budget moves if and only if its first round does.
  · intro fresh hfresh
    rw [settle_moved_pos hfresh]
    rcases hend with ⟨-, hlast, hcapped⟩ | ⟨-, hlast, hcapped⟩
    · rw [hcapped, hlast, hpredict last hgraph]
    · obtain ⟨hmailbox, hedge⟩ := stable_of_pass_false hlast
      rw [hcapped, pass_of_empty hmailbox hedge]

/-! ### A ring that never comes to rest -/

/-- Two junctions that lead to each other. -/
def ring : Graph :=
  .assemble [⟨"there", {}, some .empty⟩, ⟨"back", {}, some .empty⟩]
    [.make "forth" "there" "" "back", .make "return" "back" "" "there"] none []

/-- A machine that has been started on the ring and may make three transitions in a tick. -/
def circling : Machine :=
  let m := (create ring .alone).withSettings { mode := .untilStable, budget := 3 }
  m.start.toOption.getD m

lemma ring_ignoresRequests : ring.IgnoresRequests := by
  intro e he c hc
  have hnone : e.condition = none := by
    simp only [ring, Graph.assemble, List.mem_cons, List.not_mem_nil, or_false] at he
    rcases he with rfl | rfl <;> rfl
  simp [hnone] at hc

/-- On the ring the budget is spent, and resolution would go on. -/
theorem tick_resolution_circling :
    circling.isRunning = true ∧ circling.mode = .untilStable ∧ circling.graph.defects = [] ∧
      circling.graph.IgnoresRequests ∧ (circling.tick 0.016).1.resolved ≤ 3 ∧
      ((circling.tick 0.016).1.capped = true ↔
        1 ≤ (settle 3 (circling.tick 0.016).2).moved) := by
  have running : circling.isRunning = true := by decide +kernel
  have valid : circling.graph.defects = [] := by decide +kernel
  have blind : circling.graph.IgnoresRequests := ring_ignoresRequests
  obtain ⟨-, hbudget, -, -, hcapped, -⟩ :=
    tick_resolution circling 0.016 running rfl valid blind
  exact ⟨running, rfl, valid, blind, hbudget, hcapped 3 (by decide)⟩

end Machine
end WorkflowGraph
