import Mathlib.Data.List.Find
import WorkflowGraph.Proofs.Blind
import WorkflowGraph.Proofs.RunnerChronicle

/-!
# Machines that mirror each other

Two machines for one graph are `Machine.Twins` if they differ in nothing but the addresses and
times of their sessions, their histories and their clocks.  Whatever is done to both, they stay
twins, report the same and go through the same moments, as long as nobody looks at what differs:
conditions not at all, and nodes at the time of a frame only while they are called for it
(`Mirror`).

A tick sets the time of the frame in both before the first condition is looked at.  So twins need
not agree in it before a tick, and do agree while the tick is resolved: this is what the parameter
`timed` of `Machine.Twins` keeps track of.
-/

namespace WorkflowGraph

variable {σ : Nat → Nat} {timed : Prop}

/-! ## Twins -/

/-- In a graph without defects, nothing that nodes do or edges ask for tells a session from one
that is renamed along `σ`. -/
structure Mirror {g : Graph} {n : Nat} (p : g.Conduct (Deed.Foreign n)) (σ : Nat → Nat) : Prop where
  valid : g.defects = []
  injective : Function.Injective σ
  fixes : ∀ k < n, σ k = k
  nodes : ∀ guid, Blind (p.deeds guid)
  edges : g.BlindEdges

/-- The second machine is the first one with a session that is renamed along `σ`, and with
whatever history and clock. -/
inductive Machine.Twins (g : Graph) (σ : Nat → Nat) (timed : Prop) (m : Machine) : Machine → Prop
  | mk {s' : Session} {history : History} {clock : Clock} (graph : m.graph = g)
      (session : m.session.Twins σ timed s') :
      Machine.Twins g σ timed m { m with session := s', history, clock }

variable {g : Graph} {n : Nat} {p : g.Conduct (Deed.Foreign n)}

namespace Machine.Twins

variable {m m' : Machine}

lemma of_eq (graph : m.graph = g) (session : m.session.Twins σ timed m'.session)
    (hgraph : m'.graph = m.graph) (hcurrent : m'.current = m.current)
    (hprevious : m'.previous = m.previous) (hmode : m'.mode = m.mode)
    (hbudget : m'.budget = m.budget) (hstate : m'.state = m.state) (hframe : m'.frame = m.frame) :
    m.Twins g σ timed m' := by
  obtain ⟨_, _, _, _, _, _, _, _, _, _, _⟩ := m'
  subst hgraph hcurrent hprevious hmode hbudget hstate hframe
  exact ⟨graph, session⟩

lemma session_twins (twins : m.Twins g σ timed m') : m.session.Twins σ timed m'.session := by
  obtain ⟨-, session⟩ := twins
  exact session

lemma untimed (twins : m.Twins g σ timed m') : m.Twins g σ False m' := by
  obtain ⟨graph, session⟩ := twins
  exact ⟨graph, session.untimed⟩

lemma graph_eq (twins : m.Twins g σ timed m') : m.graph = g ∧ m'.graph = g := by
  obtain ⟨graph, -⟩ := twins
  exact ⟨graph, graph⟩

lemma isRunning_eq (twins : m.Twins g σ timed m') : m'.isRunning = m.isRunning := by
  obtain ⟨-, -⟩ := twins
  rfl

lemma onSession (twins : m.Twins g σ timed m') {f f' : Session → Session} {timed' : Prop}
    (session : (f m.session).Twins σ timed' (f' m'.session)) :
    (m.onSession f).Twins g σ timed' (m'.onSession f') := by
  obtain ⟨graph, -⟩ := twins
  exact ⟨graph, session⟩

lemma elapse (twins : m.Twins g σ timed m') (deltaTime : Float32) :
    (m.onSession (Deed.elapse deltaTime).perform).Twins g σ True
      (m'.onSession (Deed.elapse deltaTime).perform) :=
  twins.onSession (twins.session_twins.elapse deltaTime)

end Machine.Twins

namespace Mirror

open Machine

variable {s s' : Session} {m m' : Machine}

/-! ## Sessions -/

/-- A deed for others, done to twins. -/
lemma perform (mirror : Mirror p σ) (twins : s.Twins σ timed s') {d : Deed}
    (foreign : d.Foreign n) : (d.perform s).Twins σ timed (d.perform s') := by
  have hperform := twins.perform mirror.injective d
  rwa [foreign.rename_eq mirror.fixes] at hperform

/-- A call does the same to twins. -/
lemma called (mirror : Mirror p σ) (twins : s.Twins σ timed s') {guid : Guid} {b : Behaviour}
    (known : g.behaviour? guid = some b) (phase : Phase)
    (time : phase = .update → s'.context.deltaTime = s.context.deltaTime)
    (fixedTime : phase = .fixedUpdate → s'.context.fixedDeltaTime = s.context.fixedDeltaTime) :
    callMoments p.deeds phase guid s' = callMoments p.deeds phase guid s ∧
      (b.onPhase phase s).Twins σ timed (b.onPhase phase s') := by
  have hdeeds : p.deeds guid phase s' = p.deeds guid phase s :=
    mirror.nodes guid σ s s' phase mirror.injective twins.untimed time fixedTime
  have hall : ∀ (deeds : List Deed) {s s' : Session}, s.Twins σ timed s' →
      (∀ d ∈ deeds, d.Foreign n) →
      (Deed.performAll deeds s).Twins σ timed (Deed.performAll deeds s') := by
    intro deeds
    induction deeds with
    | nil => exact fun twins _ => twins
    | cons d rest ih =>
        intro s s' twins foreign
        exact ih (mirror.perform twins (foreign d List.mem_cons_self))
          fun k hk => foreign k (List.mem_cons_of_mem d hk)
  -- The deeds are the same ones on both sides, and each of them is done for others.
  refine ⟨by rw [callMoments, callMoments, hdeeds], ?_⟩
  rw [p.onPhase_eq guid b known, p.onPhase_eq guid b known, hdeeds]
  exact hall _ twins (p.allowed guid phase s)

/-! ## Changing node -/

lemma leave (mirror : Mirror p σ) (twins : m.Twins g σ timed m') (guid : Guid) :
    m'.leaveMoments p.deeds guid = m.leaveMoments p.deeds guid ∧
      (m.leave guid).Twins g σ timed (m'.leave guid) := by
  obtain ⟨graph, session⟩ := twins
  simp only [leaveMoments, Machine.leave]
  cases hb : m.graph.behaviour? guid with
  | none =>
      exact ⟨rfl, graph, session.perform mirror.injective (.releaseNode guid)⟩
  | some b =>
      obtain ⟨hmoments, hexit⟩ := mirror.called session (graph ▸ hb) .exit (by simp) (by simp)
      refine ⟨?_, graph, hexit.perform mirror.injective (.releaseNode guid)⟩
      exact congrArg (· ++ _) hmoments

lemma departed (mirror : Mirror p σ) (twins : m.Twins g σ timed m') :
    m.departed.Twins g σ timed m'.departed := by
  have hleave := fun guid => (mirror.leave twins guid).2
  obtain ⟨graph, session⟩ := twins
  obtain ⟨_, _, current, _⟩ := m
  cases current with
  | none => exact ⟨graph, session⟩
  | some guid => exact hleave guid

/-- Both machines enter a node, and what happens then is the same, or both refuse it. -/
lemma attempt (mirror : Mirror p σ) (twins : m.Twins g σ timed m') (target : Guid)
    (reason : Reason) (edge : Option Edge) :
    m'.attemptMoments p.deeds target reason edge = m.attemptMoments p.deeds target reason edge ∧
      Option.Rel (Machine.Twins g σ timed) (m.enter? target reason edge)
        (m'.enter? target reason edge) := by
  have hleave := fun guid => (mirror.leave twins guid).1
  have hdeparted := mirror.departed twins
  have hplaced := hdeparted.session_twins.perform mirror.injective (.place (some target))
  obtain ⟨graph, session⟩ := twins
  simp only [attemptMoments, Machine.enter?]
  split
  · exact ⟨rfl, .none⟩
  · cases hb : m.graph.behaviour? target with
    | none => exact ⟨rfl, .none⟩
    | some next =>
        obtain ⟨hcall, henter⟩ := mirror.called hplaced (graph ▸ hb) .enter (by simp) (by simp)
        obtain ⟨_, _, current, _⟩ := m
        cases current with
        | none =>
            refine ⟨congrArg (Moment.managed _ :: ·) hcall, .some ⟨graph, henter⟩⟩
        | some guid =>
            refine ⟨congrArg₂ (· ++ Moment.managed _ :: ·) (hleave guid) hcall, .some ⟨?_, henter⟩⟩
            exact graph

lemma drain (mirror : Mirror p σ) (twins : m.Twins g σ timed m') :
    m'.drainMoments p.deeds = m.drainMoments p.deeds ∧ m'.drain.1 = m.drain.1 ∧
      m.drain.2.Twins g σ timed m'.drain.2 := by
  have htaken : m.withoutRequest.Twins g σ timed m'.withoutRequest :=
    twins.onSession (twins.session_twins.perform mirror.injective .takeRequest)
  have hrequested : m'.session.context.requested = m.session.context.requested :=
    twins.session_twins.requested_eq
  rw [drain_eq, drain_eq]
  simp only [drainMoments, hrequested]
  cases m.session.context.requested with
  | none => exact ⟨rfl, rfl, htaken⟩
  | some guid =>
      obtain ⟨hmoments, hrel⟩ := mirror.attempt htaken guid .requested none
      refine ⟨congrArg (Moment.managed .takeRequest :: ·) hmoments, ?_⟩
      simp only [Option.bind_some]
      -- What the two attempts come to is related as options; only that is split.
      generalize m.withoutRequest.enter? guid .requested none = entered,
        m'.withoutRequest.enter? guid .requested none = entered' at hrel ⊢
      cases hrel with
      | none => exact ⟨rfl, htaken⟩
      | some hentered => exact ⟨rfl, hentered⟩

/-! ## Resolution -/

/-- Both choose the same edge, if the frame lasts equally long in both. -/
lemma bestEdge_eq (mirror : Mirror p σ) (twins : m.Twins g σ True m') :
    m'.bestEdge = m.bestEdge := by
  cases twins with
  | @mk s' history clock graph session =>
      have hfind : ∀ n (keep : Edge → Bool),
          ((m.graph.outgoing n).filter keep).find? (fun e => e.passes s') =
            ((m.graph.outgoing n).filter keep).find? fun e => e.passes m.session := by
        refine fun n keep => List.find?_congr fun e he => ?_
        have hedge : e ∈ m.graph.edges :=
          (List.mem_filter.mp (List.mem_filter.mp he).1).1
        exact mirror.edges.passes_eq mirror.injective session (graph ▸ hedge)
      simp only [bestEdge, hfind]

lemma follow (mirror : Mirror p σ) (twins : m.Twins g σ True m') :
    m'.followMoments p.deeds = m.followMoments p.deeds ∧
      Option.Rel (Machine.Twins g σ True) m.follow? m'.follow? := by
  simp only [followMoments, follow?, mirror.bestEdge_eq twins]
  cases m.bestEdge with
  | none => exact ⟨rfl, .none⟩
  | some e =>
      obtain ⟨hmoments, hrel⟩ := mirror.attempt twins e.target .autoEdge (some e)
      exact ⟨congrArg (Moment.compared :: ·) hmoments, hrel⟩

/-- Resolutions that mirror each other. -/
structure Resolved (g : Graph) (σ : Nat → Nat) (r r' : Resolution) : Prop where
  moved : r'.moved = r.moved
  capped : r'.capped = r.capped
  machine : r.machine.Twins g σ True r'.machine

lemma any_moves_eq (twins : m.Twins g σ timed m') :
    m'.session.context.requested.any m'.moves = m.session.context.requested.any m.moves := by
  rw [twins.session_twins.requested_eq]
  obtain ⟨-, -⟩ := twins
  rfl

lemma canMove_eq (mirror : Mirror p σ) (twins : m.Twins g σ True m') :
    m'.canMove = m.canMove := by
  rw [canMove, canMove, any_moves_eq twins, mirror.bestEdge_eq twins]
  obtain ⟨-, -⟩ := twins
  rfl

/-- Resolution mirrors itself: the same moments, and the same outcome up to the renaming. -/
lemma settle (mirror : Mirror p σ) (budget : Nat) (twins : m.Twins g σ True m') :
    settleMoments p.deeds budget m' = settleMoments p.deeds budget m ∧
      Resolved g σ (Machine.settle budget m) (Machine.settle budget m') := by
  induction budget generalizing m m' with
  -- Nothing is left to spend: the prediction alone is compared, on both sides the same one.
  | zero =>
      refine ⟨?_, rfl, mirror.canMove_eq twins, twins⟩
      rw [settleMoments, settleMoments, any_moves_eq twins]
  | succ budget ih =>
      obtain ⟨hdrained, hmoved, hmachine⟩ := mirror.drain twins
      rcases hd : m.drain with ⟨moved, next⟩
      rcases hd' : m'.drain with ⟨moved', next'⟩
      rw [hd, hd'] at hmoved hmachine
      obtain rfl : moved' = moved := hmoved
      have hnext : next.Twins g σ True next' := hmachine
      simp only [settleMoments, Machine.settle, hd, hd', hdrained]
      cases moved' with
      | true =>
          obtain ⟨hmoments, hresolved⟩ := ih hnext
          refine ⟨congrArg (_ ++ ·) hmoments, congrArg (· + 1) hresolved.moved, ?_, ?_⟩
          · exact hresolved.capped
          · exact hresolved.machine
      | false =>
          obtain ⟨hfollowed, hrel⟩ := mirror.follow hnext
          simp only [hfollowed]
          generalize next.follow? = followed, next'.follow? = followed' at hrel ⊢
          cases hrel with
          | none => exact ⟨rfl, rfl, rfl, hnext⟩
          | some hlast =>
              obtain ⟨hmoments, hresolved⟩ := ih hlast
              refine ⟨?_, congrArg (· + 1) hresolved.moved, hresolved.capped, hresolved.machine⟩
              simp only [hmoments]

lemma resolve (mirror : Mirror p σ) (twins : m.Twins g σ True m') :
    m'.resolveMoments p.deeds = m.resolveMoments p.deeds ∧
      Resolved g σ m.resolve m'.resolve := by
  have hsettle := mirror.settle m.budget twins
  obtain ⟨hfollowed, hrel⟩ := mirror.follow twins
  have hmode : m'.mode = m.mode ∧ m'.budget = m.budget := by
    obtain ⟨-, -⟩ := twins
    exact ⟨rfl, rfl⟩
  simp only [resolveMoments, Machine.resolve, hmode]
  cases m.mode with
  | untilStable => exact hsettle
  | single =>
      refine ⟨hfollowed, ?_⟩
      generalize m.follow? = followed, m'.follow? = followed' at hrel ⊢
      cases hrel with
      | none => exact ⟨rfl, rfl, twins⟩
      | some hnext => exact ⟨rfl, rfl, hnext⟩

/-! ## The life of a run -/

/-- The current node is called, if there is one. -/
lemma call (mirror : Mirror p σ) (twins : m.Twins g σ timed m') (phase : Phase)
    (time : phase = .update →
      m'.session.context.deltaTime = m.session.context.deltaTime)
    (fixedTime : phase = .fixedUpdate →
      m'.session.context.fixedDeltaTime = m.session.context.fixedDeltaTime) :
    m'.currentMoments p.deeds phase = m.currentMoments p.deeds phase ∧
      (m.call phase).Twins g σ timed (m'.call phase) := by
  obtain ⟨graph, session⟩ := twins
  obtain ⟨own, _, current, _⟩ := m
  cases current with
  | none => exact ⟨rfl, graph, session⟩
  | some guid =>
      simp only [currentMoments, Machine.call, Option.bind_some]
      cases hb : own.behaviour? guid with
      | none => exact ⟨rfl, graph, session⟩
      | some b =>
          have hown : own = g := graph
          obtain ⟨hmoments, hcall⟩ := mirror.called session (hown ▸ hb) phase time fixedTime
          exact ⟨hmoments, graph, hcall⟩

lemma tend (mirror : Mirror p σ) (twins : m.Twins g σ timed m') (d : Deed) :
    (m.onSession d.perform).Twins g σ timed (m'.onSession (d.rename σ).perform) :=
  twins.onSession (twins.session_twins.perform mirror.injective d)

/-- After the first part of a tick the frame lasts equally long in both. -/
lemma advance (mirror : Mirror p σ) (twins : m.Twins g σ timed m') (deltaTime : Float32) :
    m'.advanceMoments p.deeds deltaTime = m.advanceMoments p.deeds deltaTime ∧
      (m'.advance deltaTime).1 = (m.advance deltaTime).1 ∧
      (m.advance deltaTime).2.Twins g σ True (m'.advance deltaTime).2 := by
  have hframe : { m with frame := m.frame + 1 }.Twins g σ timed
      { m' with frame := m'.frame + 1 } := by
    obtain ⟨graph, session⟩ := twins
    exact ⟨graph, session⟩
  have hflushed := mirror.tend hframe .flush
  obtain ⟨hdrained, hentered, hmachine⟩ := mirror.drain hflushed
  have htimed := hmachine.elapse deltaTime
  obtain ⟨hupdated, hcalled⟩ := mirror.call htimed .update
    (fun _ => htimed.session_twins.deltaTime_eq trivial) nofun
  refine ⟨?_, hentered, mirror.tend hcalled .flush⟩
  exact congrArg₂ (.managed .flush :: · ++ .managed (.elapse deltaTime) :: · ++
    [.managed .flush]) hdrained hupdated

lemma tick (mirror : Mirror p σ) (twins : m.Twins g σ timed m') (deltaTime : Float32) :
    m'.tickMoments p.deeds deltaTime = m.tickMoments p.deeds deltaTime ∧
      (m'.tick deltaTime).1 = (m.tick deltaTime).1 ∧
      (m.tick deltaTime).2.Twins g σ False (m'.tick deltaTime).2 := by
  obtain ⟨hadvanced, hentered, hmachine⟩ := mirror.advance twins deltaTime
  obtain ⟨hmoments, hresolved⟩ := mirror.resolve hmachine
  have hrunning := twins.isRunning_eq
  simp only [tickMoments, Machine.tick, hrunning]
  cases m.isRunning with
  | false => exact ⟨rfl, rfl, twins.untimed⟩
  | true =>
      simp only [if_true, hadvanced, hmoments, hentered, hresolved.moved, hresolved.capped]
      exact ⟨trivial, trivial, hresolved.machine.untimed⟩

lemma tickFixed (mirror : Mirror p σ) (twins : m.Twins g σ timed m')
    (fixedDeltaTime : Float32) :
    m'.tickFixedMoments p.deeds fixedDeltaTime = m.tickFixedMoments p.deeds fixedDeltaTime ∧
      (m.tickFixed fixedDeltaTime).Twins g σ timed (m'.tickFixed fixedDeltaTime) := by
  have htimed := mirror.tend twins (.elapseFixed fixedDeltaTime)
  obtain ⟨hmoments, hcalled⟩ := mirror.call htimed .fixedUpdate nofun fun _ => rfl
  have hrunning := twins.isRunning_eq
  simp only [tickFixedMoments, Machine.tickFixed, hrunning]
  cases m.isRunning with
  | false => exact ⟨rfl, twins⟩
  | true => exact ⟨congrArg (Moment.managed (.elapseFixed fixedDeltaTime) :: ·) hmoments, hcalled⟩

lemma force (mirror : Mirror p σ) (twins : m.Twins g σ timed m') (guid : Guid)
    (reason : Reason) :
    m'.forceMoments p.deeds guid reason = m.forceMoments p.deeds guid reason ∧
      (m'.force guid reason).1 = (m.force guid reason).1 ∧
      (m.force guid reason).2.Twins g σ timed (m'.force guid reason).2 := by
  obtain ⟨hmoments, hrel⟩ := mirror.attempt twins guid reason none
  have hrunning := twins.isRunning_eq
  simp only [forceMoments, Machine.force, hrunning]
  cases m.isRunning with
  | false => exact ⟨rfl, rfl, twins⟩
  | true =>
      refine ⟨hmoments, ?_⟩
      simp only [if_true]
      generalize m.enter? guid reason none = entered,
        m'.enter? guid reason none = entered' at hrel ⊢
      cases hrel with
      | none => exact ⟨rfl, twins⟩
      | some hentered => exact ⟨rfl, hentered⟩

lemma stop (mirror : Mirror p σ) (twins : m.Twins g σ timed m') :
    m'.stopMoments p.deeds = m.stopMoments p.deeds ∧ m.stop.Twins g σ timed m'.stop := by
  have hended : ∀ {left left' : Machine}, left.Twins g σ timed left' →
      Machine.Twins g σ timed
        { left with previous := none, session := left.session.dispose, state := .stopped }
        { left' with previous := none, session := left'.session.dispose, state := .stopped } := by
    rintro left _ ⟨graph, session⟩
    exact ⟨graph, session.perform mirror.injective .dispose⟩
  have hwithout : { m with current := none }.Twins g σ timed { m' with current := none } := by
    obtain ⟨graph, session⟩ := twins
    exact ⟨graph, session⟩
  -- The machine forgets its node before the node is left, so the node is left by that machine.
  have hleft := fun guid => mirror.leave hwithout guid
  obtain ⟨graph, session⟩ := twins
  obtain ⟨_, _, current, _, _, _, _, _, _, state, _⟩ := m
  cases state with
  | stopped => exact ⟨rfl, graph, session⟩
  | running =>
      cases current with
      | none => exact ⟨rfl, hended ⟨graph, session⟩⟩
      | some guid => exact ⟨congrArg (· ++ _) (hleft guid).1, hended (hleft guid).2⟩

/-- Both machines are started, or run already. -/
lemma start (mirror : Mirror p σ) (twins : m.Twins g σ timed m') :
    m'.startMoments p.deeds = m.startMoments p.deeds ∧
      ∃ started started', m.start = .ok started ∧ m'.start = .ok started' ∧
        started.Twins g σ timed started' := by
  have hrunning := twins.isRunning_eq
  have hgraph := twins.graph_eq
  cases hstate : m.isRunning with
  | true =>
      rw [hstate] at hrunning
      simp only [startMoments, Machine.start, hstate, hrunning]
      exact ⟨rfl, m, m', rfl, rfl, twins⟩
  | false =>
      rw [hstate] at hrunning
      obtain ⟨entry, hentry, -⟩ := Graph.exists_resolvedEntry mirror.valid
      have hopened : m.opened.Twins g σ timed m'.opened := by
        obtain ⟨graph, session⟩ := twins
        exact ⟨graph, session⟩
      obtain ⟨hmoments, hrel⟩ := mirror.attempt hopened entry .start none
      have hvalid : m.graph.defects = [] ∧ m.graph.resolvedEntry = some entry := by
        rw [hgraph.1]
        exact ⟨mirror.valid, hentry⟩
      have hvalid' : m'.graph.defects = [] ∧ m'.graph.resolvedEntry = some entry := by
        rw [hgraph.2]
        exact ⟨mirror.valid, hentry⟩
      refine ⟨?_, _, _, start_of_valid hstate hvalid.1 hvalid.2,
        start_of_valid hrunning hvalid'.1 hvalid'.2, ?_⟩
      · rw [startMoments_of_valid hstate hvalid.1 hvalid.2,
          startMoments_of_valid hrunning hvalid'.1 hvalid'.2, hmoments]
      · generalize m.opened.enter? entry .start none = entered,
          m'.opened.enter? entry .start none = entered' at hrel ⊢
        cases hrel with
        | none => exact hopened
        | some hentered => exact hentered

end Mirror

/-! ## Commands -/

/-- The command given for the renamed contexts and runners. -/
def Command.rename (σ : Nat → Nat) : Command → Command
  | .host d => .host (d.rename σ)
  | c => c

namespace Mirror

open Command

variable {m m' : Machine}

/-- A machine left to itself does nothing for the renamed. -/
lemma rename_moments (mirror : Mirror p σ) (settled : Settled g m) {c : Command}
    (own : ∀ d, c ≠ .host d) :
    (c.moments p.deeds m).map (Moment.rename σ) = c.moments p.deeds m := by
  -- A renaming fixes the addresses of others, and a machine manages nothing with an address in it.
  have hfixed : ∀ k ∈ c.moments p.deeds m, k.rename σ = k := by
    intro k hk
    cases k with
    | called | compared => rfl
    | did d =>
        have hforeign : d.Foreign n :=
          allowed_of_did_mem_moments settled p (fun d hd => absurd hd (own d)) hk
        rw [Moment.rename, hforeign.rename_eq mirror.fixes]
    | managed d =>
        rcases of_managed_mem_moments settled p hk with htends | ⟨k, rfl⟩ | ⟨k, rfl⟩ | rfl
        · cases d with
          | flush | takeRequest | elapse | elapseFixed => rfl
          | _ => exact htends.elim
        · rfl
        · rfl
        · rfl
  rw [List.map_congr_left hfixed, List.map_id']

/-- Whatever twins are told, what happens is the same but for names, and they stay twins. -/
lemma command (mirror : Mirror p σ) (twins : m.Twins g σ False m') (settled : Settled g m)
    (c : Command) :
    (c.rename σ).moments p.deeds m' = (c.moments p.deeds m).map (Moment.rename σ) ∧
      (c.perform m).Twins g σ False ((c.rename σ).perform m') := by
  have hfixed := mirror.rename_moments settled (c := c)
  cases c with
  | host d => exact ⟨rfl, mirror.tend twins d⟩
  | start =>
      obtain ⟨hmoments, started, started', hstart, hstart', hstarted⟩ := mirror.start twins
      rw [hfixed (by simp)]
      refine ⟨hmoments, ?_⟩
      simp only [rename, Command.perform, hstart, hstart']
      exact hstarted
  | stop =>
      rw [hfixed (by simp)]
      exact mirror.stop twins
  | tick deltaTime =>
      obtain ⟨hmoments, -, hticked⟩ := mirror.tick twins deltaTime
      rw [hfixed (by simp)]
      exact ⟨hmoments, hticked⟩
  | tickFixed fixedDeltaTime =>
      rw [hfixed (by simp)]
      exact mirror.tickFixed twins fixedDeltaTime
  | enter guid =>
      obtain ⟨hmoments, -, hentered⟩ := mirror.force twins guid .manual
      rw [hfixed (by simp)]
      exact ⟨hmoments, hentered⟩
  | enterFromEvent guid =>
      obtain ⟨hmoments, -, hentered⟩ := mirror.force twins guid .externalEvent
      rw [hfixed (by simp)]
      exact ⟨hmoments, hentered⟩
  | setClock clock =>
      obtain ⟨graph, session⟩ := twins
      exact ⟨rfl, graph, session⟩

lemma ownMoments (mirror : Mirror p σ) (twins : m.Twins g σ False m') (settled : Settled g m)
    (c : Command) :
    (c.rename σ).ownMoments p.deeds m' = (c.ownMoments p.deeds m).map (Moment.rename σ) := by
  have hmoments := (mirror.command twins settled c).1
  cases c with
  | host d => rfl
  | _ => exact hmoments

lemma ownChronicle (mirror : Mirror p σ) (twins : m.Twins g σ False m') (settled : Settled g m)
    (commands : List Command) :
    Command.ownChronicle p.deeds (commands.map (Command.rename σ)) m' =
        (Command.ownChronicle p.deeds commands m).map (Moment.rename σ) ∧
      (performAll commands m).Twins g σ False
        (performAll (commands.map (Command.rename σ)) m') := by
  induction commands generalizing m m' with
  | nil => exact ⟨rfl, twins⟩
  | cons c rest ih =>
      obtain ⟨hrest, hlast⟩ :=
        ih (mirror.command twins settled c).2 (exists_path_moments settled p c).1
      refine ⟨?_, hlast⟩
      rw [List.map_cons, Command.ownChronicle, Command.ownChronicle, List.map_append, hrest,
        mirror.ownMoments twins settled c]

end Mirror
end WorkflowGraph
