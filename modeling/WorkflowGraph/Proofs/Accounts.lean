import WorkflowGraph.Proofs.Entries
import WorkflowGraph.Proofs.Rounds

/-!
# What a report accounts for

The transitions of a tick are counted where they are made: when a request is honoured, in each round
of resolution, and when a runner works off its queue.  The history counts them somewhere else, when
a node is entered, and the nodes only see that they are called.  These counts agree, and a tick
calls the current node once, after the request has been honoured and before resolution begins
(`Order.reports_account`).

Nothing is assumed of the nodes here, neither what they do nor that it can be told by deeds.  So
the calls of a node have to be taken for what they are, its callbacks (`Moment.enact`): with them
and with what the machine does itself, the moments of an operation account for the session.  That
is shown for one operation after the other, together with the calls that are made in it
(`Machine.Unfolds`); for each record there are two of them at the most, and their order is that of
the records.
-/

namespace WorkflowGraph

namespace Moment

variable {g : Graph}

/-- What a moment does to the session when the nodes are those of a graph.  What a node does is done
by its callback. -/
def enact (g : Graph) : Moment → Session → Session
  | .called phase n, s =>
    match g.behaviour? n with
    | some b => b.onPhase phase s
    | none => s
  | .managed d, s => d.perform s
  | .did _, s | .compared, s => s

/-- The session after some moments. -/
def enactAll (g : Graph) (moments : List Moment) (s : Session) : Session :=
  moments.foldl (fun s m => m.enact g s) s

@[simp] lemma enactAll_nil (s : Session) : enactAll g [] s = s := rfl

@[simp] lemma enactAll_cons (m : Moment) (rest : List Moment) (s : Session) :
    enactAll g (m :: rest) s = enactAll g rest (m.enact g s) := rfl

@[simp] lemma enactAll_append (before after : List Moment) (s : Session) :
    enactAll g (before ++ after) s = enactAll g after (enactAll g before s) :=
  List.foldl_append

@[simp] lemma enactAll_dids (own : List Deed) (s : Session) :
    enactAll g (own.map .did) s = s := by
  induction own with
  | nil => rfl
  | cons d rest ih => exact ih

end Moment

/-- The calls that a change of node makes. -/
def Transition.calls (t : Transition) : List Call :=
  t.source.toList.map (⟨.exit, ·⟩) ++ [⟨.enter, t.target⟩]

/-- The number of nodes that are called for the first time. -/
def entered (cs : List Call) : Nat := cs.countP fun c => c.phase = .enter

lemma entered_append (cs ds : List Call) : entered (cs ++ ds) = entered cs + entered ds :=
  List.countP_append

lemma entered_flatMap_calls (ts : List Transition) :
    entered (ts.flatMap (·.calls)) = ts.length := by
  induction ts with
  | nil => rfl
  | cons t rest ih =>
      have hone : entered t.calls = 1 := by
        unfold Transition.calls
        cases t.source <;> rfl
      rw [List.flatMap_cons, entered_append, hone, ih, List.length_cons, Nat.add_comm]

lemma filter_update_flatMap_calls (ts : List Transition) :
    (ts.flatMap (·.calls)).filter (fun c => c.phase = .update) = [] := by
  induction ts with
  | nil => rfl
  | cons t rest ih =>
      have hnone : t.calls.filter (fun c => c.phase = .update) = [] := by
        unfold Transition.calls
        cases t.source <;> rfl
      rw [List.flatMap_cons, List.filter_append, hnone, ih, List.append_nil]

namespace History

/-- The history counts all records, whether it has room for them or not. -/
lemma total_pushAll (h : History) (ts : List Transition) :
    (h.pushAll ts).total = h.total + ts.length := by
  induction ts generalizing h with
  | nil => rfl
  | cons t rest ih =>
      have hpush : (h.push t).total = h.total + 1 := by
        unfold push
        split <;> rfl
      have hrest := ih (h.push t)
      rw [hpush] at hrest
      rw [List.length_cons, ← Nat.add_assoc, Nat.add_right_comm]
      exact hrest

end History

namespace Machine

variable {g : Graph}

/-- The moments lead from one session to another.  In them the callbacks of these nodes are run, in
this order, and no other ones. -/
structure Unfolds (g : Graph) (s : Session) (moments : List Moment) (cs : List Call)
    (s' : Session) : Prop where
  session : s' = Moment.enactAll g moments s
  calls : calls moments = cs
  known : ∀ c ∈ cs, (g.behaviour? c.node).isSome

namespace Unfolds

variable {s s' s'' : Session} {ms ns : List Moment} {cs ds : List Call}

lemma refl (s : Session) : Unfolds g s [] [] s := ⟨rfl, rfl, nofun⟩

lemma trans (first : Unfolds g s ms cs s') (second : Unfolds g s' ns ds s'') :
    Unfolds g s (ms ++ ns) (cs ++ ds) s'' := by
  refine ⟨?_, ?_, fun c hc => ?_⟩
  · rw [second.session, first.session, Moment.enactAll_append]
  · rw [calls_append, first.calls, second.calls]
  · exact (List.mem_append.mp hc).elim (first.known c) (second.known c)

lemma manage (d : Deed) (s : Session) : Unfolds g s [.managed d] [] (d.perform s) :=
  ⟨rfl, rfl, nofun⟩

lemma compare (s : Session) : Unfolds g s [.compared] [] s := ⟨rfl, rfl, nofun⟩

lemma call {n : Guid} {b : Behaviour} (hb : g.behaviour? n = some b) (phase : Phase)
    (deeds : Guid → Phase → Session → List Deed) (s : Session) :
    Unfolds g s (callMoments deeds phase n s) [⟨phase, n⟩] (b.onPhase phase s) := by
  refine ⟨?_, ?_, fun c hc => ?_⟩
  · rw [callMoments, Moment.enactAll_cons, Moment.enactAll_dids, Moment.enact, hb]
  · exact congrArg (_ :: ·) (calls_dids (deeds n phase s))
  · rw [List.mem_singleton.mp hc, hb]
    rfl

end Unfolds

variable (deeds : Guid → Phase → Session → List Deed)

/-! ## Changes of node -/

lemma unfolds_leave {m : Machine} {n : Guid} {b : Behaviour} (hgraph : m.graph = g)
    (hb : g.behaviour? n = some b) :
    Unfolds g m.session (m.leaveMoments deeds n) [⟨.exit, n⟩] (m.leave n).session := by
  have hexit := Unfolds.call hb .exit deeds m.session
  simp only [leaveMoments, leave, hgraph, hb]
  exact hexit.trans (.manage (.releaseNode n) _)

/-- The current node is left, and the other one is entered. -/
lemma unfolds_enter {m entered : Machine} {target : Guid} {reason : Reason}
    {edge : Option Edge} (underway : Underway g m)
    (h : m.enter? target reason edge = some entered) :
    Unfolds g m.session (m.enterMoments deeds target) (m.transition target reason edge).calls
      entered.session := by
  obtain ⟨-, -, -, -, next, hnext, hsession⟩ := enter?_eq_some h
  obtain ⟨n, b, hn, hb⟩ := underway.current
  have hcalls : (m.transition target reason edge).calls = [⟨.exit, n⟩] ++ [⟨.enter, target⟩] := by
    rw [Transition.calls, transition, hn]
    rfl
  have hleave := unfolds_leave deeds underway.graph hb
  rw [underway.graph] at hnext
  rw [hsession, hcalls]
  simp only [enterMoments, departed, hn]
  exact hleave.trans ((Unfolds.manage (.place (some target)) _).trans
    (Unfolds.call hnext .enter deeds _))

lemma unfolds_attempt {m : Machine} (underway : Underway g m) (target : Guid) (reason : Reason)
    (edge : Option Edge) :
    Unfolds g m.session (m.attemptMoments deeds target reason edge)
      ((m.attemptRecords target reason edge).flatMap (·.calls))
      ((m.enter? target reason edge).getD m).session := by
  unfold attemptMoments attemptRecords
  cases hentered : m.enter? target reason edge with
  | none => exact .refl m.session
  | some entered =>
      have henters := unfolds_enter deeds underway hentered
      simpa using henters

lemma unfolds_drain {m : Machine} (underway : Underway g m) :
    Unfolds g m.session (m.drainMoments deeds) (m.drainRecords.flatMap (·.calls))
      m.drain.2.session := by
  have htake : Unfolds g m.session [.managed .takeRequest] [] m.withoutRequest.session :=
    .manage .takeRequest m.session
  rw [drain_eq]
  cases hrequested : m.session.context.requested with
  | none =>
      simp only [drainMoments, drainRecords, hrequested]
      exact htake
  | some guid =>
      have hforgot : Underway g m.withoutRequest := underway.onSession _
      have hboth := htake.trans (unfolds_attempt deeds hforgot guid .requested none)
      simp only [drainMoments, drainRecords, hrequested, Option.bind_some]
      cases hentered : m.withoutRequest.enter? guid .requested none with
      | none =>
          rw [hentered] at hboth
          exact hboth
      | some entered =>
          rw [hentered] at hboth
          exact hboth

lemma unfolds_follow {m : Machine} (underway : Underway g m) :
    Unfolds g m.session (m.followMoments deeds) (m.followRecords.flatMap (·.calls))
      (m.follow?.getD m).session := by
  have hcompare : Unfolds g m.session [.compared] [] m.session := .compare m.session
  cases hbest : m.bestEdge with
  | none =>
      have hfollow : m.follow? = none := by simp [follow?, hbest]
      simp only [followMoments, followRecords, hbest, hfollow]
      exact hcompare
  | some e =>
      have hfollow : m.follow? = m.enter? e.target .autoEdge (some e) := by
        simp [follow?, hbest]
      simp only [followMoments, followRecords, hbest, hfollow]
      exact hcompare.trans (unfolds_attempt deeds underway e.target .autoEdge (some e))

/-! ## Resolution -/

lemma unfolds_pass {m : Machine} (underway : Underway g m) :
    Unfolds g m.session (m.passMoments deeds) (m.passRecords.flatMap (·.calls))
      m.pass.2.session := by
  have hdrain := unfolds_drain deeds underway
  have hdrained := (walk_drain m).1.underway underway
  rw [passMoments, passRecords, pass_eq]
  cases m.drain.1 with
  | true => simpa using hdrain
  | false => simpa using hdrain.trans (unfolds_follow deeds hdrained)

lemma unfolds_settle (budget : Nat) {m : Machine} (underway : Underway g m) :
    Unfolds g m.session (settleMoments deeds budget m)
      ((settleRecords budget m).flatMap (·.calls)) (settle budget m).machine.session := by
  induction budget generalizing m with
  | zero =>
      simp only [settleMoments, settleRecords, settle]
      split
      · exact .refl m.session
      · exact .compare m.session
  | succ budget ih =>
      have hpass := unfolds_pass deeds underway
      rw [settleMoments_succ, settleRecords_succ, settle_succ]
      -- One round after the other: a round that does not move is the last.
      cases m.pass.1 with
      | true =>
          simpa [Resolution.afterMove] using hpass.trans (ih ((walk_pass m).1.underway underway))
      | false => simpa using hpass

lemma unfolds_resolve {m : Machine} (underway : Underway g m) :
    Unfolds g m.session (m.resolveMoments deeds) (m.resolveRecords.flatMap (·.calls))
      m.resolve.machine.session := by
  unfold resolveMoments resolveRecords resolve
  cases m.mode with
  | single =>
      have hfollow := unfolds_follow deeds underway
      cases hmoved : m.follow? with
      | none => simpa [hmoved] using hfollow
      | some moved => simpa [hmoved] using hfollow
  | untilStable => exact unfolds_settle deeds m.budget underway

/-! ## Ticks -/

lemma unfolds_current {m : Machine} {n : Guid} {b : Behaviour} (hn : m.current = some n)
    (hb : m.graph.behaviour? n = some b) (phase : Phase) :
    Unfolds m.graph m.session (m.currentMoments deeds phase) [⟨phase, n⟩]
      (m.call phase).session := by
  rw [call_of_current hn hb, currentMoments_of_current hn hb]
  exact .call hb phase deeds m.session

/-- Up to resolution the request is honoured, and then the current node is called. -/
lemma unfolds_advance {m : Machine} (underway : Underway g m) (deltaTime : Float32) :
    ∃ n, m.nextFrame.flush.drain.2.current = some n ∧
      Unfolds g m.session (m.advanceMoments deeds deltaTime)
        (m.nextFrame.flush.drainRecords.flatMap (·.calls) ++ [⟨.update, n⟩])
        (m.advance deltaTime).2.session := by
  have hflushed : Underway g m.nextFrame.flush :=
    ⟨underway.graph, underway.isRunning, underway.current⟩
  have hdrained := (walk_drain m.nextFrame.flush).1.underway hflushed
  obtain ⟨n, b, hn, hb⟩ := hdrained.current
  have htimed := hdrained.onSession (Deed.elapse deltaTime).perform
  have hbegin := (Unfolds.manage .flush m.session).trans (unfolds_drain deeds hflushed)
  have hcall := unfolds_current deeds (m := m.nextFrame.flush.drain.2.onSession
    (Deed.elapse deltaTime).perform) hn (htimed.graph.symm ▸ hb) .update
  rw [htimed.graph] at hcall
  have hupdate := (Unfolds.manage (.elapse deltaTime) m.nextFrame.flush.drain.2.session).trans hcall
  have hadvance : Unfolds g m.session (m.advanceMoments deeds deltaTime) _
      (m.advance deltaTime).2.session := (hbegin.trans hupdate).trans (.manage .flush _)
  rw [List.nil_append, List.nil_append, List.append_nil] at hadvance
  exact ⟨n, hn, hadvance⟩

lemma unfolds_tick {m : Machine} (underway : Underway g m) (deltaTime : Float32) :
    ∃ n, m.nextFrame.flush.drain.2.current = some n ∧
      Unfolds g m.session (m.tickMoments deeds deltaTime)
        (m.nextFrame.flush.drainRecords.flatMap (·.calls) ++
          ⟨.update, n⟩ :: (m.advance deltaTime).2.resolveRecords.flatMap (·.calls))
        (m.tick deltaTime).2.session := by
  obtain ⟨n, hn, hadvance⟩ := unfolds_advance deeds underway deltaTime
  have hnext : Underway g m.nextFrame := ⟨underway.graph, underway.isRunning, underway.current⟩
  have hadvanced := (walk_advance m deltaTime).1.underway hnext
  have hresolve := unfolds_resolve deeds hadvanced
  simp only [tickMoments, tick, underway.isRunning, if_true]
  exact ⟨n, hn, by simpa using hadvance.trans hresolve⟩

/-- Draining the queue calls the nodes of the entries that are made, and nobody else. -/
lemma unfolds_entries {m : Machine} (underway : Underway g m) (valid : g.defects = [])
    (queued : List Guid) :
    Unfolds g m.session (Command.ownChronicle deeds (queued.map .enterFromEvent) m)
      ((m.entriesFrom m.current queued).flatMap (·.calls))
      (Runner.enterAll m queued).2.session := by
  -- The machine of the induction is the one after the entry, so that what is current and the
  -- session vary; the graph, the clock and the frame do not.
  induction queued generalizing m with
  | nil => exact .refl m.session
  | cons guid rest ih =>
      have hmoments : Command.ownChronicle deeds ((guid :: rest).map .enterFromEvent) m =
          m.forceMoments deeds guid .externalEvent ++
            Command.ownChronicle deeds (rest.map .enterFromEvent) (m.enterFromEvent guid).2 := rfl
      have hall : (Runner.enterAll m (guid :: rest)).2 =
          (Runner.enterAll (m.enterFromEvent guid).2 rest).2 := rfl
      rw [hmoments, hall, entriesFrom]
      rcases enterFromEvent_cases deeds underway valid guid with
        ⟨goes, entered, hentered, hforce, hcalled⟩ | ⟨stays, hforce, hcalled⟩
      · obtain ⟨-, hcurrent, -, -, hframe, hclock, -⟩ := fields_of_enter? hentered
        have hgraph := (enter?_alike hentered).graph
        have hunderway := underway_of_enter? underway.graph underway.isRunning hentered
        have hrest := ih hunderway
        rw [hcurrent, entriesFrom_congr hgraph hclock hframe] at hrest
        rw [hforce, hcalled, if_neg goes, List.flatMap_cons]
        exact (unfolds_enter deeds underway hentered).trans hrest
      · rw [hforce, hcalled, if_pos stays]
        exact ih underway

/-! ## Accounts -/

/-- How a frame of a running machine is accounted for.  Before the tick the machine is sent to some
nodes, by which it becomes `begun` and of which `sent` are the records. -/
structure Account (g : Graph) (m : Machine) (sent : List Transition) (begun : Machine)
    (deltaTime : Float32) (moments : List Moment) (report : Report) (m' : Machine) : Prop where
  /-- The callbacks that are run, and what is done besides, make up the session. -/
  session : m'.session = Moment.enactAll g moments m.session
  /-- There is a callback for each call. -/
  known : ∀ c ∈ calls moments, (g.behaviour? c.node).isSome
  /-- One node is called to update itself.  It is the current one when the request has been
  honoured, and resolution has not entered any node yet. -/
  calls : ∃ n, begun.nextFrame.flush.drain.2.current = some n ∧
    calls moments = (sent ++ begun.nextFrame.flush.drainRecords).flatMap (·.calls) ++
      ⟨.update, n⟩ :: (begun.advance deltaTime).2.resolveRecords.flatMap (·.calls)
  updates : ((WorkflowGraph.calls moments).filter fun c => c.phase = .update).length = 1
  entered : entered (WorkflowGraph.calls moments) = report.transitions
  records : m'.history = m.history.pushAll (sent ++ begun.tickRecords deltaTime)
  total : m'.history.total = m.history.total + report.transitions
  /-- What has not been made by resolution has been made before the tick or, if the current node is
  another one then, on request. -/
  transitions : report.transitions = report.resolved +
    (if begun.nextFrame.flush.drain.2.current = begun.current then 0 else 1) + sent.length
  resolved : report.resolved = (begun.advance deltaTime).2.resolveRecords.length
  frame : m'.frame = m.frame + 1

/-- A request changes the current node exactly if it is honoured. -/
lemma toNat_drain (m : Machine) :
    m.drain.1.toNat = if m.drain.2.current = m.current then 0 else 1 := by
  rw [drain_eq]
  cases hattempt : m.session.context.requested.bind fun guid =>
      m.withoutRequest.enter? guid .requested none with
  | none => exact (if_pos rfl).symm
  | some entered =>
      obtain ⟨guid, -, hentered⟩ := Option.bind_eq_some_iff.mp hattempt
      obtain ⟨hother, hcurrent, -⟩ := fields_of_enter? hentered
      exact (if_neg (hcurrent ▸ Ne.symm hother)).symm

/-- What a tick is accounted for, when the machine has been sent to some nodes before. -/
lemma account_of_unfolds {m begun : Machine} {sent : List Transition} {entering : List Moment}
    (underway : Underway g begun) (deltaTime : Float32)
    (unfolds : Unfolds g m.session entering (sent.flatMap (·.calls)) begun.session)
    (history : begun.history = m.history.pushAll sent) (frame : begun.frame = m.frame) :
    Account g m sent begun deltaTime (entering ++ begun.tickMoments deeds deltaTime)
      { (begun.tick deltaTime).1 with
        transitions := (begun.tick deltaTime).1.transitions + sent.length }
      (begun.tick deltaTime).2 := by
  obtain ⟨n, hn, htick⟩ := unfolds_tick deeds underway deltaTime
  obtain ⟨hwalk, hlength⟩ := walk_tick underway.isRunning deltaTime
  obtain ⟨-, hhonoured⟩ := walk_advance begun deltaTime
  obtain ⟨-, hmoved⟩ := walk_resolve (begun.advance deltaTime).2
  have hresolved : (begun.tick deltaTime).1.resolved =
      (begun.advance deltaTime).2.resolve.moved := by
    simp [tick, underway.isRunning]
  have hall := unfolds.trans htick
  have hcalls : calls (entering ++ begun.tickMoments deeds deltaTime) =
      (sent ++ begun.nextFrame.flush.drainRecords).flatMap (·.calls) ++
        ⟨.update, n⟩ :: (begun.advance deltaTime).2.resolveRecords.flatMap (·.calls) := by
    rw [hall.calls, List.flatMap_append, List.append_assoc]
  have hreport : (begun.tick deltaTime).1.transitions + sent.length =
      begun.nextFrame.flush.drainRecords.length +
        (begun.advance deltaTime).2.resolveRecords.length + sent.length := by
    rw [← hlength, tickRecords, List.length_append]
  have hrecords : (begun.tick deltaTime).2.history =
      m.history.pushAll (sent ++ begun.tickRecords deltaTime) := by
    rw [hwalk.history, History.pushAll_append, ← history]
    rfl
  -- The calls split into those before the update, the update, and those of resolution; all the
  -- counts are read off this split.
  refine ⟨hall.session, ?_, ⟨n, hn, hcalls⟩, ?_, ?_, hrecords, ?_, ?_, ?_, ?_⟩
  · rw [hall.calls]
    exact hall.known
  · rw [hcalls, List.filter_append, filter_update_flatMap_calls, List.nil_append,
      List.filter_cons_of_pos (by simp), filter_update_flatMap_calls]
    rfl
  · -- The update is not the first call of its node.
    have hupdate : ∀ cs, entered (⟨.update, n⟩ :: cs) = entered cs :=
      fun cs => List.countP_cons_of_neg (by simp)
    show _ = (begun.tick deltaTime).1.transitions + sent.length
    rw [hcalls, entered_append, hupdate, entered_flatMap_calls, entered_flatMap_calls, hreport,
      List.length_append]
    omega
  · show _ = _ + ((begun.tick deltaTime).1.transitions + sent.length)
    rw [hrecords, History.total_pushAll, List.length_append, hlength, Nat.add_comm sent.length]
  · have hdrained : (begun.advance deltaTime).1.toNat =
        if begun.nextFrame.flush.drain.2.current = begun.current then 0 else 1 :=
      toNat_drain begun.nextFrame.flush
    show (begun.tick deltaTime).1.transitions + sent.length =
      (begun.tick deltaTime).1.resolved + _ + _
    rw [hreport, ← hdrained, hresolved, hmoved, hhonoured]
    omega
  · exact hresolved.trans hmoved.symm
  · rw [hwalk.frame, ← frame]
    rfl

/-- A fixed tick changes nothing but the session. -/
lemma tickFixed_eq (m : Machine) (fixedDeltaTime : Float32) :
    m.tickFixed fixedDeltaTime = { m with session := (m.tickFixed fixedDeltaTime).session } := by
  have hcall : ∀ timed : Machine, timed.call .fixedUpdate =
      { timed with session := (timed.call .fixedUpdate).session } := by
    intro timed
    unfold Machine.call
    split <;> rfl
  unfold tickFixed
  split
  · exact hcall _
  · rfl

end Machine

/-- A step of a runner is a tick after some external entries. -/
lemma Runner.account_step {g : Graph} {r : Runner} (underway : Machine.Underway g r.machine)
    (valid : g.defects = []) (deeds : Guid → Phase → Session → List Deed) (deltaTime : Float32) :
    Machine.Account g r.machine (r.machine.entriesFrom r.machine.current r.pending) r.afterEntries
      (deltaTime * r.timeScale) ((Order.step deltaTime).moments deeds r) (r.step deltaTime).1
      (r.step deltaTime).2.machine := by
  have htakes := r.takesUp_step deeds underway valid deltaTime
  have hcleared : Machine.Underway g r.clearPending.machine :=
    underway.onSession fun s => s.onHub fun h => h.clearQueue r.address
  have hentries : r.clearPending.machine.entriesFrom r.clearPending.machine.current r.pending =
      r.machine.entriesFrom r.machine.current r.pending := by
    apply Machine.entriesFrom_congr <;> rfl
  obtain ⟨visited, -⟩ := Machine.enterAll_spec deeds hcleared valid r.pending
  have hentering := Machine.unfolds_entries deeds hcleared valid r.pending
  rw [hentries] at hentering
  have hunfolds := (Machine.Unfolds.manage (.clearQueue r.address) r.machine.session).trans
    hentering
  rw [htakes.moments, htakes.machine, htakes.report]
  exact Machine.account_of_unfolds deeds visited.underway _ hunfolds htakes.history visited.frame

namespace Order

open Machine

/-- **Reports account for every change of node, and each tick updates exactly once.**  On any graph,
whatever its nodes do, and after any commands and orders of a host:

* A tick of a machine that runs calls one node to update itself: the one that is current when the
  request in the mailbox has been honoured, before resolution enters another one.  It reports as
  many transitions as it calls nodes for the first time and as it adds records to the history.
  Those not made by resolution are one if the request has changed the current node, and none
  otherwise.  The frame grows by one.
* The same holds of a step of a runner, whose report counts the external entries as well that the
  runner has sent the machine to before the tick.
* A machine that does not run is left as it is by ticks, by fixed ticks and by entries, nothing is
  reported, and nothing happens.
* A fixed tick changes neither the nodes of a machine nor its history nor its frame, but only the
  session. -/
theorem reports_account (g : Graph) (deeds : Guid → Phase → Session → List Deed)
    (deltaTime : Float32) :
    (∀ s settings commands, let m := Command.performAll commands (Command.outset g s settings)
      m.isRunning = true →
        Account g m [] m deltaTime (m.tickMoments deeds deltaTime) (m.tick deltaTime).1
          (m.tick deltaTime).2) ∧
    (∀ h settings orders, let r := performAll orders (Runner.create g h settings)
      r.machine.isRunning = true →
        Account g r.machine (r.machine.entriesFrom r.machine.current r.pending) r.afterEntries
          (deltaTime * r.timeScale) ((Order.step deltaTime).moments deeds r)
          (r.step deltaTime).1 (r.step deltaTime).2.machine) ∧
    (∀ m : Machine, m.isRunning = false → ∀ guid reason,
      m.tick deltaTime = ({}, m) ∧ m.tickMoments deeds deltaTime = [] ∧
      m.tickFixed deltaTime = m ∧ m.tickFixedMoments deeds deltaTime = [] ∧
      m.force guid reason = (false, m) ∧ m.forceMoments deeds guid reason = []) ∧
    ∀ m : Machine,
      m.tickFixed deltaTime = { m with session := (m.tickFixed deltaTime).session } := by
  refine ⟨?_, ?_, ?_, ?_⟩
  · intro s settings commands m running
    obtain ⟨underway, -⟩ := Command.underway_of_isRunning running
    have hnowhere : Unfolds g m.session [] (([] : List Transition).flatMap (·.calls)) m.session :=
      .refl m.session
    exact account_of_unfolds deeds underway deltaTime hnowhere rfl rfl
  · intro h settings orders r running
    have hmachine : r.machine = Command.performAll (commandsAll orders _) _ :=
      machine_performAll orders (Runner.create g h settings)
    rw [hmachine] at running
    obtain ⟨underway, valid⟩ := Command.underway_of_isRunning running
    have hunderway : Underway g r.machine := by
      rw [hmachine]
      exact underway
    exact r.account_step hunderway valid deeds deltaTime
  · intro m resting guid reason
    simp [Machine.tick, tickMoments, Machine.tickFixed, tickFixedMoments, force, forceMoments,
      resting]
  · exact fun m => m.tickFixed_eq deltaTime

/-- A visitor of the hall asks for the bell, to which the next tick goes first.  In a step of the
house whose bell has been rung two rooms are entered before the tick.  A house that has been left
stays as it is. -/
theorem reports_account_rung :
    let visited := Command.visitors.graph [] none
    let own := (Command.visitors.conduct [] none).deeds
    let hall := Command.performAll [.start] (Command.outset visited .alone {})
    let called := calls ((Order.step 0.5).moments roomsConduct.deeds rung)
    hall.isRunning = true ∧
      Account visited hall [] hall 0.5 (hall.tickMoments own 0.5) ⟨1, 0, false⟩
        (hall.tick 0.5).2 ∧
      rung.machine.isRunning = true ∧ entered called = 2 ∧
      (called.filter fun c => c.phase = .update).length = 1 ∧
      (rung.step 0.5).2.machine.history.total = rung.machine.history.total + 2 ∧
      (rung.step 0.5).2.machine.frame = rung.machine.frame + 1 ∧
      rung.stop.machine.isRunning = false ∧
      rung.stop.machine.tick 0.5 = ({}, rung.stop.machine) := by
  intro visited own hall called
  have hopen : hall.isRunning = true := by decide +kernel
  have hrung : rung.machine.isRunning = true := by decide +kernel
  have hclosed : rung.stop.machine.isRunning = false := by decide +kernel
  have hreport : (hall.tick 0.5).1 = ⟨1, 0, false⟩ := by decide +kernel
  have htwo : (rung.step 0.5).1.transitions = 2 := by decide +kernel
  obtain ⟨hticks, -, -, -⟩ := reports_account visited own 0.5
  obtain ⟨-, hsteps, hrests, -⟩ := reports_account (rooms.graph [] none) roomsConduct.deeds 0.5
  have hstep := hsteps {} bells ringing hrung
  obtain ⟨hstays, -⟩ := hrests rung.stop.machine hclosed "hall" .manual
  refine ⟨hopen, hreport ▸ hticks .alone {} [.start] hopen, hrung, ?_, hstep.updates, ?_,
    hstep.frame, hclosed, hstays⟩
  · rw [← htwo]
    exact hstep.entered
  · rw [← htwo]
    exact hstep.total

end Order
end WorkflowGraph
