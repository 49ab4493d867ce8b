import WorkflowGraph.Proofs.Blind
import WorkflowGraph.Proofs.Budget
import WorkflowGraph.Proofs.Coherence
import WorkflowGraph.Proofs.Rounds

/-!
# Requests come first

A machine looks into its mailbox at the beginning of a tick and, if it resolves until nothing moves,
in front of every edge.  A request that it finds there is taken out, and it is honoured if it names
a node other than the current one (`drain_of_moves`); otherwise nothing else comes of it
(`drain_of_refused`).  So a request is the next thing that a tick begins with, and no edge is chosen
while one is waiting.  If the budget is spent in front of a request, the tick says so.

A machine that follows one edge at the most looks no further when the current node has been called.
From then on the mailbox is a matter of the callbacks: what is asked for last is still asked for
when the tick is over (`Moment.Defers`).

The headline is `Command.requests_come_first`.  Of the callbacks it is assumed that they do not
empty the mailbox themselves and do not tear the context down.
-/

namespace WorkflowGraph

namespace Deed

/-- The deed neither takes the request out of the mailbox nor tears the context down. -/
def NeverTakes : Deed → Prop
  | .takeRequest | .dispose => False
  | _ => True

/-- The deed leaves the mailbox alone. -/
def SparesRequest : Deed → Prop
  | .request _ | .takeRequest | .reset | .dispose => False
  | _ => True

lemma SparesRequest.requested_perform {d : Deed} (spares : d.SparesRequest) (s : Session) :
    (d.perform s).context.requested = s.context.requested := by
  cases d with
  | request | takeRequest | reset | dispose => exact spares.elim
  | flush =>
      obtain ⟨blackboard, hcontext⟩ := exists_flush_context s
      exact congrArg (·.requested) hcontext
  | _ => rfl

end Deed

lemma BuiltinNode.neverTakes (node : BuiltinNode) (phase : Phase) (s : Session) :
    ∀ d ∈ node.deeds phase s, d.NeverTakes := by
  intro d hd
  cases node <;> cases phase <;> simp only [deeds, List.mem_cons, List.not_mem_nil, or_false] at hd
  all_goals
    rcases hd with rfl | rfl <;> trivial

namespace Moment

/-- What happens when the machine takes no request any more: it leaves the mailbox alone, and nodes
only ask for other nodes. -/
def Defers : Moment → Prop
  | .did d => d.NeverTakes
  | .managed d => d.SparesRequest
  | .called .. | .compared => True

/-- What leaves the mailbox alone leaves the request in it. -/
lemma requested_replayAll {moments : List Moment} (defers : ∀ x ∈ moments, x.Defers)
    (spare : ∀ d, .did d ∈ moments → d.SparesRequest) (s : Session) :
    (replayAll moments s).context.requested = s.context.requested := by
  induction moments generalizing s with
  | nil => rfl
  | cons x rest ih =>
      have hrest := ih (fun y hy => defers y (List.mem_cons_of_mem x hy))
        (fun d hd => spare d (List.mem_cons_of_mem x hd)) (x.replay s)
      refine hrest.trans ?_
      cases x with
      | called | compared => rfl
      | did d => exact (spare d List.mem_cons_self).requested_perform s
      | managed d =>
          have hspares : d.SparesRequest := defers (.managed d) List.mem_cons_self
          exact hspares.requested_perform s

/-- What has been asked for is still asked for when nothing has got in between. -/
lemma requested_of_last {before after : List Moment} {guid : Guid}
    (defers : ∀ x ∈ after, x.Defers) (spare : ∀ d, .did d ∈ after → d.SparesRequest)
    (s : Session) :
    (replayAll (before ++ .did (.request guid) :: after) s).context.requested = some guid := by
  rw [replayAll_append, replayAll_cons, requested_replayAll defers spare]
  rfl

/-- A moment of two stretches lies in the first or in the second one. -/
lemma split_append {x : Moment} {first second before after : List Moment}
    (h : first ++ second = before ++ x :: after) :
    (∃ rest, first = before ++ x :: rest ∧ after = rest ++ second) ∨
      ∃ tail, before = first ++ tail ∧ second = tail ++ x :: after := by
  rcases List.append_eq_append_iff.mp h with hlater | ⟨rest, hfirst, hafter⟩
  · exact .inr hlater
  · cases rest with
    | nil => exact .inr ⟨[], by simp [hfirst], hafter.symm⟩
    | cons y rest =>
        obtain ⟨rfl, hrest⟩ := List.cons.inj hafter
        exact .inl ⟨rest, hfirst, hrest⟩

lemma exists_tail_of_notMem {x : Moment} {first second before after : List Moment}
    (never : x ∉ first) (h : first ++ second = before ++ x :: after) :
    ∃ tail, before = first ++ tail ∧ second = tail ++ x :: after := by
  refine (split_append h).resolve_left ?_
  rintro ⟨rest, rfl, -⟩
  exact never (by simp)

end Moment

namespace Machine

variable {g : Graph} {m : Machine}

/-! ## The request in the mailbox -/

/-- A request for another node of the graph is honoured. -/
lemma drain_of_moves (valid : m.graph.defects = []) {guid : Guid}
    (waits : m.session.context.requested = some guid) (moves : m.moves guid = true) :
    ∃ entered, m.withoutRequest.enter? guid .requested none = some entered ∧
      m.drain = (true, entered) := by
  have henters := moves_eq_isSome_enter? (m := m.withoutRequest) valid guid .requested none
  have hsame : m.withoutRequest.moves guid = m.moves guid := rfl
  rw [hsame, moves] at henters
  obtain ⟨entered, hentered⟩ := Option.isSome_iff_exists.mp henters.symm
  refine ⟨entered, hentered, ?_⟩
  rw [drain_eq, waits]
  simp only [Option.bind_some, hentered]

/-- A request for the current node, or for none of the graph, is forgotten, and that is all. -/
lemma drain_of_refused (refused : m.session.context.requested.any m.moves = false)
    (deeds : Guid → Phase → Session → List Deed) :
    m.drain = (false, m.withoutRequest) ∧ m.drainMoments deeds = [.managed .takeRequest] := by
  rw [drain_eq, drainMoments]
  cases hrequested : m.session.context.requested with
  | none => exact ⟨rfl, rfl⟩
  | some guid =>
      rw [hrequested, Option.any_some] at refused
      have hstays : m.withoutRequest.moves guid = false := refused
      simp [attemptMoments, enter?_of_moves hstays]

/-! ## Resolution with requests -/

lemma pass_of_moves (valid : m.graph.defects = []) {guid : Guid}
    (waits : m.session.context.requested = some guid) (moves : m.moves guid = true) :
    ∃ entered, m.withoutRequest.enter? guid .requested none = some entered ∧
      m.pass = (true, entered) := by
  obtain ⟨entered, hentered, hdrain⟩ := drain_of_moves valid waits moves
  exact ⟨entered, hentered, by rw [pass, hdrain]⟩

/-- The next record that resolution leaves then is that of the request. -/
lemma getElem?_settleRecords (valid : m.graph.defects = []) {k budget : Nat} (left : k < budget)
    {a : Machine} (rounds : Rounds k m a) {guid : Guid}
    (waits : a.session.context.requested = some guid) (moves : a.moves guid = true) :
    (settleRecords budget m)[k]? = some (a.transition guid .requested none) := by
  have hvalid : a.graph.defects = [] := rounds.alike.graph.symm ▸ valid
  obtain ⟨entered, hentered, hdrain⟩ := drain_of_moves hvalid waits moves
  have hrecord : a.passRecords = [a.transition guid .requested none] := by
    simp only [passRecords, drainRecords, waits, attemptRecords, hentered, hdrain]
    rfl
  obtain ⟨rest, hrest⟩ : ∃ rest, budget - k = rest + 1 := ⟨budget - k - 1, by omega⟩
  have hdrop := drop_settleRecords rounds (Nat.le_of_lt left)
  rw [hrest, settleRecords_succ, hrecord] at hdrop
  have hfirst : ((settleRecords budget m).drop k)[0]? = (settleRecords budget m)[k]? := by
    rw [List.getElem?_drop, Nat.add_zero]
  rw [hdrop] at hfirst
  exact hfirst.symm

/-- If a request for another node waits when resolution is over, or when it has made its last
transition, the budget has been spent. -/
lemma capped_of_moves (valid : m.graph.defects = []) {budget : Nat} {last : Machine}
    (ended : last = (settle budget m).machine ∨ Rounds (settle budget m).moved m last)
    {guid : Guid} (waits : last.session.context.requested = some guid)
    (moves : last.moves guid = true) : (settle budget m).capped = true := by
  obtain ⟨stop, walk, ⟨-, hstop, hcapped⟩ | ⟨-, hpass, -⟩⟩ := settle_walk budget m
  · obtain rfl : last = stop := ended.elim (fun h => h.trans hstop) fun rounds => rounds.unique walk
    rw [hcapped, canMove, waits, Option.any_some, moves]
    rfl
  · -- Had there been something left to spend, the last round would have honoured the request.
    rcases ended with rfl | rounds
    · rw [(stable_of_pass_false hpass).1] at waits
      cases waits
    · obtain rfl := rounds.unique walk
      have hvalid : last.graph.defects = [] := walk.alike.graph.symm ▸ valid
      obtain ⟨entered, -, hmoved⟩ := pass_of_moves hvalid waits moves
      rw [hpass] at hmoved
      cases hmoved

/-! ## Moments of entering a node -/

section
variable {P : Moment → Prop} {deeds : Guid → Phase → Session → List Deed}
  (calls : ∀ phase n, P (.called phase n))
  (dids : ∀ phase n s, ∀ d ∈ deeds n phase s, P (.did d))
include calls dids

lemma forall_mem_callMoments (phase : Phase) (n : Guid) (s : Session) :
    ∀ x ∈ callMoments deeds phase n s, P x := by
  intro x hx
  rcases List.mem_cons.mp hx with rfl | hdid
  · exact calls phase n
  · obtain ⟨d, hd, rfl⟩ := List.mem_map.mp hdid
    exact dids phase n s d hd

/-- When a node is entered nodes are called and act, the registrations of the node that is left
come to an end, and the current node is set. -/
lemma forall_mem_attemptMoments (releases : ∀ n, P (.managed (.releaseNode n)))
    (places : ∀ n, P (.managed (.place n))) (m : Machine) (target : Guid) (reason : Reason)
    (edge : Option Edge) : ∀ x ∈ m.attemptMoments deeds target reason edge, P x := by
  have hleave : ∀ guid, ∀ x ∈ m.leaveMoments deeds guid, P x := by
    intro guid x hx
    rcases List.mem_append.mp hx with hcall | hrelease
    · cases hb : m.graph.behaviour? guid with
      | none => simp [hb] at hcall
      | some b =>
          rw [hb] at hcall
          exact forall_mem_callMoments calls dids .exit guid m.session x hcall
    · rw [List.mem_singleton.mp hrelease]
      exact releases guid
  -- Where there is something to leave, its exit comes first, then the place, then the entry.
  intro x hx
  unfold attemptMoments at hx
  split at hx
  · rcases List.mem_append.mp hx with hleft | hrest
    · cases hn : m.current with
      | none => simp [hn] at hleft
      | some guid =>
          rw [hn] at hleft
          exact hleave guid x hleft
    · rcases List.mem_cons.mp hrest with rfl | hcall
      · exact places (some target)
      · exact forall_mem_callMoments calls dids .enter target _ x hcall
  · cases hx

end

lemma compared_notMem_attemptMoments (m : Machine) (target : Guid) (reason : Reason)
    (edge : Option Edge) (deeds : Guid → Phase → Session → List Deed) :
    .compared ∉ m.attemptMoments deeds target reason edge := by
  intro h
  exact forall_mem_attemptMoments (P := (· ≠ .compared)) (by simp) (by simp) (by simp) (by simp)
    m target reason edge _ h rfl

/-- Taking the request out of the mailbox comes first, and then the node is entered. -/
lemma compared_notMem_drainMoments (m : Machine) (deeds : Guid → Phase → Session → List Deed) :
    .compared ∉ m.drainMoments deeds := by
  intro h
  rcases List.mem_cons.mp h with htake | hattempt
  · cases htake
  · split at hattempt
    · exact compared_notMem_attemptMoments _ _ _ _ deeds hattempt
    · cases hattempt

lemma exists_followMoments (m : Machine) (deeds : Guid → Phase → Session → List Deed) :
    ∃ entering, m.followMoments deeds = .compared :: entering ∧ .compared ∉ entering := by
  refine ⟨_, rfl, fun h => ?_⟩
  split at h
  · exact compared_notMem_attemptMoments _ _ _ _ deeds h
  · cases h

lemma compared_notMem_advanceMoments (m : Machine) (deltaTime : Float32)
    (deeds : Guid → Phase → Session → List Deed) :
    .compared ∉ m.advanceMoments deeds deltaTime := by
  have hcurrent : ∀ timed : Machine, .compared ∉ timed.currentMoments deeds .update := by
    intro timed h
    unfold currentMoments at h
    split at h
    · split at h
      · exact forall_mem_callMoments (P := (· ≠ .compared)) (by simp) (by simp) _ _ _ _ h rfl
      · cases h
    · cases h
  have hdrain := compared_notMem_drainMoments m.nextFrame.flush deeds
  unfold advanceMoments
  simp only [List.mem_append, List.mem_cons, List.not_mem_nil, or_false, not_or]
  exact ⟨⟨⟨by simp, hdrain⟩, by simp, hcurrent _⟩, by simp⟩

lemma defers_followMoments (p : g.Conduct Deed.NeverTakes) (m : Machine) :
    ∀ x ∈ m.followMoments p.deeds, x.Defers := by
  intro x hx
  rcases List.mem_cons.mp hx with rfl | hattempt
  · trivial
  · split at hattempt
    · exact forall_mem_attemptMoments (P := Moment.Defers) (fun _ _ => trivial)
        (fun phase n s => p.allowed n phase s) (fun _ => trivial) (fun _ => trivial) _ _ _ _ x
        hattempt
    · cases hattempt

/-! ## Edges are looked at without a request -/

lemma unasked_pass {deeds : Guid → Phase → Session → List Deed} {before after : List Moment}
    (drained : m.drain.2.session = Moment.replayAll (m.drainMoments deeds) m.session)
    (h : m.passMoments deeds = before ++ .compared :: after) :
    (Moment.replayAll before m.session).context.requested = none := by
  obtain ⟨tail, rfl, hedge⟩ :=
    Moment.exists_tail_of_notMem (compared_notMem_drainMoments m deeds) h
  rw [Moment.replayAll_append, ← drained]
  rcases hm : m.drain with ⟨honoured, rest⟩
  rw [hm] at hedge
  cases honoured with
  | true => simp at hedge
  | false =>
      obtain ⟨entering, hfollow, hquiet⟩ := exists_followMoments rest deeds
      simp only [hfollow] at hedge
      cases tail with
      -- The drain that moved nothing took the request, whatever it was.
      | nil =>
          rw [eq_of_drain_false hm]
          rfl
      | cons x tail =>
          have hentering := (List.cons.inj hedge).2
          exact absurd (by simp [hentering]) hquiet

/-- Wherever the edges are looked at in resolution, the mailbox is empty, or what is looked at is
the prediction that ends a budget spent to the last move. -/
lemma unasked_settle {Allowed : Deed → Prop} (p : g.Conduct Allowed) (budget : Nat)
    (underway : Underway g m) {before after : List Moment}
    (h : settleMoments p.deeds budget m = before ++ .compared :: after) :
    (Moment.replayAll before m.session).context.requested = none ∨
      (after = [] ∧ (settle budget m).moved = budget) := by
  induction budget generalizing m before with
  | zero =>
      -- There is nothing left to spend, so the edges are only looked at for the prediction.
      right
      unfold settleMoments at h
      split at h
      · simp at h
      · cases before with
        | nil => exact ⟨(List.cons.inj h).2.symm, rfl⟩
        | cons x before => simp at h
  -- The edges are looked at in this round, right after a drain, or in the rounds that follow it.
  | succ budget ih =>
      rw [settleMoments_succ] at h
      rcases Moment.split_append h with ⟨rest, hround, -⟩ | ⟨tail, rfl, hlater⟩
      · have hdrain := leads_drainMoments (p := p) (H := fun _ => True) underway
        exact .inl (unasked_pass hdrain.session_eq hround)
      · have hpass := leads_passMoments (p := p) (H := fun _ => True) underway
        rw [Moment.replayAll_append, ← hpass.session_eq, settle_succ]
        cases hmoved : m.pass.1 with
        | false => simp [hmoved] at hlater
        | true =>
            rw [hmoved, if_pos rfl] at hlater
            exact (ih hpass.underway hlater).imp id fun hlast =>
              ⟨hlast.1, congrArg (· + 1) hlast.2⟩

/-! ## A tick -/

/-- How a tick deals with the mailbox before resolution.  It takes the request, and it is
`honouring` it, before it calls the node `n`; the `rest` is what happens afterwards. -/
structure Opens (m : Machine) (deeds : Guid → Phase → Session → List Deed) (deltaTime : Float32)
    (honouring : List Moment) (n : Guid) (rest : List Moment) : Prop where
  moments : m.tickMoments deeds deltaTime = .managed .flush :: .managed .takeRequest ::
    (honouring ++ .managed (.elapse deltaTime) :: .called .update n :: rest)
  /-- A request for another node is honoured: the node is entered, and that is the first record that
  the tick leaves. -/
  honoured : ∀ guid, m.session.context.requested = some guid → m.moves guid = true →
    n = guid ∧ honouring = m.nextFrame.flush.withoutRequest.enterMoments deeds guid ∧
      ∃ ts, (m.tick deltaTime).2.history =
        m.history.pushAll (m.nextFrame.transition guid .requested none :: ts)
  /-- Without such a request the current node stays the same. -/
  refused : m.session.context.requested.any m.moves = false →
    honouring = [] ∧ m.current = some n
  /-- With one edge at the most nothing is taken any more, and what is asked for last is left. -/
  deferred : m.mode = .single → .managed .takeRequest ∉ rest ∧ .did .takeRequest ∉ rest ∧
    ∀ before guid after, rest = before ++ .did (.request guid) :: after →
      (∀ d, .did d ∈ after → d.SparesRequest) →
        (m.tick deltaTime).2.session.context.requested = some guid

/-- The moments of a tick, before and after the call of the current node. -/
lemma exists_tickMoments {Allowed : Deed → Prop} (p : g.Conduct Allowed)
    (underway : Underway g m) (deltaTime : Float32) :
    ∃ n, ∃ own : List Deed,
      m.nextFrame.flush.drain.2.current = some n ∧ (∀ d ∈ own, Allowed d) ∧
      m.tickMoments p.deeds deltaTime =
        (.managed .flush :: m.nextFrame.flush.drainMoments p.deeds) ++
          .managed (.elapse deltaTime) :: .called .update n ::
            (own.map .did ++
              .managed .flush :: (m.advance deltaTime).2.resolveMoments p.deeds) := by
  have hflushed : Underway g m.nextFrame.flush :=
    ⟨underway.graph, underway.isRunning, underway.current⟩
  have hdrained := (walk_drain m.nextFrame.flush).1.underway hflushed
  obtain ⟨n, b, hn, hb⟩ := hdrained.current
  let timed := m.nextFrame.flush.drain.2.onSession (Deed.elapse deltaTime).perform
  have hcalled : timed.currentMoments p.deeds .update =
      callMoments p.deeds .update n timed.session :=
    currentMoments_of_current (m := timed) hn (hdrained.graph.symm ▸ hb) .update p.deeds
  have hadvance : m.advanceMoments p.deeds deltaTime =
      (.managed .flush :: m.nextFrame.flush.drainMoments p.deeds ++
        .managed (.elapse deltaTime) :: timed.currentMoments p.deeds .update) ++
          [.managed .flush] := rfl
  refine ⟨n, p.deeds n .update timed.session, hn, p.allowed n .update timed.session, ?_⟩
  rw [tickMoments, if_pos underway.isRunning, hadvance, hcalled, callMoments]
  simp only [List.cons_append, List.append_assoc, List.nil_append]

lemma requested_flush (m : Machine) :
    m.nextFrame.flush.session.context.requested = m.session.context.requested :=
  Deed.SparesRequest.requested_perform (d := .flush) trivial m.session

/-- The first thing that comes of a request for another node is its record. -/
lemma exists_history_tick (running : m.isRunning = true) (valid : m.graph.defects = [])
    (deltaTime : Float32) {guid : Guid} (waits : m.session.context.requested = some guid)
    (moves : m.moves guid = true) :
    ∃ ts, (m.tick deltaTime).2.history =
      m.history.pushAll (m.nextFrame.transition guid .requested none :: ts) := by
  have hwaits := (requested_flush m).trans waits
  obtain ⟨entered, hentered, -⟩ := drain_of_moves (m := m.nextFrame.flush) valid hwaits moves
  have hrecords : m.nextFrame.flush.drainRecords =
      [m.nextFrame.transition guid .requested none] := by
    simp only [drainRecords, hwaits, attemptRecords, hentered]
    rfl
  obtain ⟨hwalk, -⟩ := walk_tick running deltaTime
  refine ⟨(m.advance deltaTime).2.resolveRecords, ?_⟩
  rw [hwalk.history, tickRecords, hrecords]
  rfl

/-- When the current node has been called, a machine that follows one edge at the most takes no
request any more. -/
lemma defers_rest (p : g.Conduct Deed.NeverTakes) {own : List Deed}
    (allowed : ∀ d ∈ own, d.NeverTakes) (single : m.mode = .single) (deltaTime : Float32) :
    ∀ x ∈ own.map .did ++ .managed .flush :: (m.advance deltaTime).2.resolveMoments p.deeds,
      x.Defers := by
  have hmode : (m.advance deltaTime).2.mode = .single :=
    (advance_alike m deltaTime).mode.trans single
  intro x hx
  rcases List.mem_append.mp hx with hdid | hrest
  · obtain ⟨d, hd, rfl⟩ := List.mem_map.mp hdid
    exact allowed d hd
  · rcases List.mem_cons.mp hrest with rfl | hfollow
    · trivial
    · rw [resolveMoments, hmode] at hfollow
      exact defers_followMoments p _ x hfollow

lemma exists_opens (p : g.Conduct Deed.NeverTakes) (underway : Underway g m)
    (valid : g.defects = []) (deltaTime : Float32) :
    ∃ honouring n rest, m.Opens p.deeds deltaTime honouring n rest := by
  obtain ⟨n, own, hn, hown, hmoments⟩ := exists_tickMoments p underway deltaTime
  obtain ⟨honouring, hdrain⟩ : ∃ honouring,
      m.nextFrame.flush.drainMoments p.deeds = .managed .takeRequest :: honouring := ⟨_, rfl⟩
  rw [hdrain] at hmoments
  refine ⟨honouring, n, _, hmoments, fun guid waits moves => ?_, fun stays => ?_, fun single => ?_⟩
  -- A request for somewhere else: its node is current by the time of the update.
  · have hvalid : m.graph.defects = [] := underway.graph.symm ▸ valid
    have hwaits := (requested_flush m).trans waits
    obtain ⟨entered, hentered, hentering⟩ :=
      drain_of_moves (m := m.nextFrame.flush) hvalid hwaits moves
    obtain ⟨-, hcurrent, -⟩ := fields_of_enter? hentered
    rw [hentering, hcurrent] at hn
    simp only [drainMoments, hwaits, attemptMoments, hentered] at hdrain
    exact ⟨(Option.some.inj hn).symm, (List.cons.inj hdrain).2.symm,
      exists_history_tick underway.isRunning hvalid deltaTime waits moves⟩
  -- A request that leads nowhere costs no call.
  · have hrefused : m.nextFrame.flush.session.context.requested.any m.nextFrame.flush.moves =
        false := by
      rw [requested_flush]
      exact stays
    obtain ⟨hstays, htake⟩ := drain_of_refused hrefused p.deeds
    rw [hstays] at hn
    exact ⟨(List.cons.inj (hdrain.symm.trans htake)).2, hn⟩
  -- In this mode nothing after the update looks at the mailbox, so the last request in it stays.
  · have hdefers := defers_rest p hown single deltaTime
    refine ⟨fun h => hdefers _ h, fun h => hdefers _ h, fun before guid after hrest spare => ?_⟩
    have hleads := leads_tickMoments (p := p) (H := fun _ => True) underway deltaTime
    have hafter : ∀ x ∈ after, x.Defers := by
      intro x hx
      refine hdefers x ?_
      rw [hrest]
      simp [hx]
    rw [hleads.session_eq, hmoments, hrest, ← List.cons_append, ← List.cons_append,
      ← List.append_assoc]
    exact Moment.requested_of_last hafter spare m.session

/-- What can be relied on when a request is made to a machine that is about to tick. -/
structure RequestsFirst (m : Machine) (deeds : Guid → Phase → Session → List Deed)
    (deltaTime : Float32) : Prop where
  /-- What happens accounts for the session. -/
  session : (m.tick deltaTime).2.session =
    Moment.replayAll (m.tickMoments deeds deltaTime) m.session
  opens : ∃ honouring n rest, m.Opens deeds deltaTime honouring n rest
  /-- If a request for another node waits when resolution has made some transitions, and may make
  more of them, the next one is to this node. -/
  next : m.mode = .untilStable → ∀ k a guid, k < m.budget →
    Rounds k (m.advance deltaTime).2 a → a.session.context.requested = some guid →
      a.moves guid = true →
        (m.advance deltaTime).2.resolveRecords[k]? = some (a.transition guid .requested none)
  /-- When the edges are looked at, no request is waiting, unless nothing is chosen any more. -/
  unasked : m.mode = .untilStable → ∀ before after,
    m.tickMoments deeds deltaTime = before ++ .compared :: after →
      (Moment.replayAll before m.session).context.requested = none ∨
        (after = [] ∧ (m.tick deltaTime).1.resolved = m.budget)
  /-- A request for another node that is waiting at the end, or when resolution has made its last
  transition, has been too late for the budget. -/
  capped : m.mode = .untilStable → ∀ last guid,
    last = (m.tick deltaTime).2 ∨
        Rounds (m.tick deltaTime).1.resolved (m.advance deltaTime).2 last →
      last.session.context.requested = some guid → last.moves guid = true →
        (m.tick deltaTime).1.capped = true

lemma requestsFirst (p : g.Conduct Deed.NeverTakes) (underway : Underway g m)
    (valid : g.defects = []) (deltaTime : Float32) : m.RequestsFirst p.deeds deltaTime := by
  have hleads := leads_tickMoments (p := p) (H := fun _ => True) underway deltaTime
  have hadvance := leads_advanceMoments (p := p) (H := fun _ => True) underway deltaTime
  have hvalid : (m.advance deltaTime).2.graph.defects = [] := hadvance.underway.graph.symm ▸ valid
  have halike := advance_alike m deltaTime
  refine ⟨hleads.session_eq, exists_opens p underway valid deltaTime, ?_, ?_, ?_⟩
  · intro mode k a guid left rounds waits moves
    rw [resolveRecords, halike.mode, mode, halike.budget]
    exact getElem?_settleRecords hvalid left rounds waits moves
  · intro mode before after h
    rw [tickMoments, if_pos underway.isRunning] at h
    obtain ⟨tail, rfl, hresolve⟩ :=
      Moment.exists_tail_of_notMem (compared_notMem_advanceMoments m deltaTime p.deeds) h
    rw [resolveMoments, halike.mode, mode, halike.budget] at hresolve
    rw [Moment.replayAll_append, ← hadvance.session_eq, tick_of_untilStable underway.isRunning mode]
    exact unasked_settle p m.budget hadvance.underway hresolve
  · intro mode last guid ended waits moves
    rw [tick_of_untilStable underway.isRunning mode] at ended ⊢
    exact capped_of_moves hvalid ended waits moves

end Machine

namespace Command

open Machine

variable {g : Graph}

/-- **Requests come first, and are honoured at the next opportunity.**  Take a graph whose callbacks
neither empty the mailbox nor tear the context down, and any commands of a host.  If the machine
runs then, the following holds of its next tick.

* A request that is waiting is taken out of the mailbox before the current node is called.  If it
  names another node of the graph, this node is entered on request, and it is the one that is called
  (`Machine.Opens`).
* If the machine resolves until nothing moves, then a request for another node is what the next
  transition is for.  The edges are only looked at while the mailbox is empty, except when
  resolution is over and it is told whether it could go on; and it is told that it could if such a
  request is waiting then.
* If the machine follows one edge at the most, nothing is taken out of the mailbox any more when
  the current node has been called.  What is asked for from then on is still asked for after the
  tick, unless it is replaced or reset.

A request for the current node or for an unknown one calls nobody, and nothing is changed by it but
the mailbox. -/
theorem requests_come_first (p : g.Conduct Deed.NeverTakes) (s : Session)
    (settings : MachineSettings) (commands : List Command) (deltaTime : Float32) :
    let m := performAll commands (outset g s settings)
    (m.isRunning = true → m.RequestsFirst p.deeds deltaTime) ∧
      ∀ (a : Machine) guid, a.session.context.requested = some guid → a.moves guid = false →
        a.drain = (false, a.withoutRequest) ∧ a.drainMoments p.deeds = [.managed .takeRequest] := by
  intro m
  refine ⟨fun running => ?_, fun a guid waits stays => ?_⟩
  · obtain ⟨underway, valid⟩ := underway_of_isRunning running
    exact requestsFirst p underway valid deltaTime
  · exact drain_of_refused (by rw [waits, Option.any_some, stays]) p.deeds

/-! ### Two players -/

/-- Two nodes that ask for each other whenever they are entered. -/
def players : Cast Deed.KeepsPlace :=
  [("ping", BuiltinNode.actor (.jump "pong")), ("pong", BuiltinNode.actor (.jump "ping"))]

lemma neverTakes_players : ∀ guid phase s, ∀ d ∈ (players.conduct [] none).deeds guid phase s,
    d.NeverTakes := by
  refine Cast.forall_mem_deeds players [] none fun guid a ha => ?_
  simp only [players, List.mem_cons, Prod.mk.injEq, List.not_mem_nil, or_false] at ha
  rcases ha with ⟨-, rfl⟩ | ⟨-, rfl⟩ <;> exact BuiltinNode.neverTakes _

/-- The first player has asked for the second one, to which the tick goes at once.  Two more strokes
are all that the budget allows, and the next one has to wait. -/
theorem requests_come_first_players :
    let m := performAll [.start] (outset (players.graph [] none) .alone
      { mode := .untilStable, budget := 2 })
    m.isRunning = true ∧ m.session.context.requested = some "pong" ∧
      (∃ ts, (m.tick 0.5).2.history =
        m.history.pushAll (m.nextFrame.transition "pong" .requested none :: ts)) ∧
      (m.tick 0.5).1.resolved = 2 ∧ (m.tick 0.5).1.capped = true ∧
      (m.onSession (Deed.request "ping").perform).drain =
        (false, (m.onSession (Deed.request "ping").perform).withoutRequest) := by
  intro m
  let p := (players.conduct [] none).within neverTakes_players
  have running : m.isRunning = true := by decide +kernel
  have waits : m.session.context.requested = some "pong" := by decide +kernel
  have moves : m.moves "pong" = true := by decide +kernel
  have later : (m.tick 0.5).2.session.context.requested = some "ping" := by decide +kernel
  have movesLater : (m.tick 0.5).2.moves "ping" = true := by decide +kernel
  have stays : (m.onSession (Deed.request "ping").perform).moves "ping" = false := by
    decide +kernel
  obtain ⟨hfirst, hrefused⟩ := requests_come_first p .alone { mode := .untilStable, budget := 2 }
    [.start] 0.5
  have hrequests := hfirst running
  obtain ⟨honouring, n, rest, hopens⟩ := hrequests.opens
  obtain ⟨-, -, hhistory⟩ := hopens.honoured "pong" waits moves
  exact ⟨running, waits, hhistory, by decide +kernel,
    hrequests.capped rfl _ "ping" (.inl rfl) later movesLater, (hrefused _ "ping" rfl stays).1⟩

end Command
end WorkflowGraph
