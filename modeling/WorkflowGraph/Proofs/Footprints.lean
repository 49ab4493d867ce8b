import WorkflowGraph.Proofs.Counting
import WorkflowGraph.Proofs.Deliveries
import WorkflowGraph.Proofs.Instantiation
import WorkflowGraph.Proofs.Lifecycle
import WorkflowGraph.Proofs.Overlay

/-!
# Footprints

Nodes keep what they have to remember on the blackboard that they share, under keys made from
their guids and events.  What a built-in node can write is read off the node, the guid it is called
under and the occasion (`BuiltinNode.writes`), and the keys made for guids and for events are all
different.  So the changes of a key over a run can be laid at somebody's door (`Overwrites`): at
that of the node that is being called, or of the flush that moves deliveries to a counter.

A node finds its guid in the context, as the current node.  As long as the host leaves that to the
machine, it is the guid that the node is called under.

The graphs are those of built-in nodes under any guids (`Graph.MadeOf`).  What the registry of the
built-in types makes of documents is of this kind (`Registry.exists_madeOf_of_graphOf`).
-/

namespace WorkflowGraph

/-! ## The keys -/

lemma waitKey_injective : Function.Injective waitKey := by
  intro guid other h
  simpa [waitKey] using h

lemma firedKey_injective : Function.Injective firedKey := fun _ _ => firedKey_inj.mp

lemma waitKey_ne_firedKey (guid : Guid) (event : String) : waitKey guid ≠ firedKey event := by
  intro h
  have hfirst := congrArg (fun key : String => key.toList.head?) h
  simp [waitKey, firedKey] at hfirst

/-! ## What deeds write -/

/-- What the blackboard holds under a key. -/
def Session.under (s : Session) (key : String) : Option Stored := s.context.blackboard[key]?

namespace Deed

/-- The deed leaves what is under the key as it is, whatever that is. -/
def SparesKey (key : String) : Deed → Prop
  | .edit f => ∀ b : Blackboard, (f b)[key]? = b[key]?
  | .flush | .reset => False
  | _ => True

/-- The deed does not write the blackboard, unless by moving counted events there. -/
def WritesNothing : Deed → Prop
  | .edit _ | .reset => False
  | _ => True

variable {d : Deed} {key : String}

lemma SparesKey.under_perform (spares : d.SparesKey key) (s : Session) :
    (d.perform s).under key = s.under key := by
  cases d with
  | edit f => exact spares s.context.blackboard
  | flush | reset => exact spares.elim
  | _ => rfl

lemma WritesNothing.sparesKey (nothing : d.WritesNothing) (other : d ≠ .flush) (key : String) :
    d.SparesKey key := by
  cases d with
  | edit | reset => exact nothing.elim
  | flush => exact absurd rfl other
  | _ => trivial

lemma Tends.writesNothing (tends : d.Tends) : d.WritesNothing := by
  cases d with
  | flush | takeRequest | elapse | elapseFixed => trivial
  | _ => exact tends.elim

lemma sparesKey_set {other : String} (h : other ≠ key) (value : Stored) :
    (Deed.edit fun b => b.set other value).SparesKey key := by
  intro b
  simp [Blackboard.set, Std.ExtTreeMap.getElem?_insert, h]

lemma sparesKey_writeAll {entries : List Entry} (h : key ∉ Entry.keys entries) :
    (Deed.edit fun b => b.writeAll entries).SparesKey key := by
  intro b
  have hnone : Entry.valueOf? entries key = none := by
    rwa [← Option.not_isSome_iff_eq_none, Entry.isSome_valueOf?_iff]
  rw [Blackboard.getElem?_writeAll, hnone, Option.map_none, Option.none_or]

/-- Events come into the inbox by publications. -/
lemma mem_inbox_perform {event : String} {s : Session} (h : event ∈ (d.perform s).inbox) :
    event ∈ s.inbox ∨ d.deliveries event s ≠ 0 := by
  cases d with
  | publish published => exact (s.mem_inbox_publish published event).mp h
  | flush => exact absurd h (s.not_mem_inbox_flush event)
  | releaseNode | release =>
      left
      simpa [perform, Session.releaseNode, Session.release, Hub.disposeEach_eq, Session.inbox,
        Hub.inbox] using h
  | reset | dispose =>
      simp [perform, Session.reset, Session.dispose, Session.release, Session.inbox, Hub.inbox,
        Hub.clearInbox] at h
  | _ => exact .inl h

end Deed

namespace BuiltinNode

/-- The keys that a node writes when it is called under a guid. -/
def writes : BuiltinNode → Guid → Phase → List String
  | .wait _, guid, .enter | .wait _, guid, .update => [waitKey guid]
  | .waitEvent event, _, .enter => [firedKey event]
  | .setBlackboard entries, _, .enter => Entry.keys entries
  | _, _, _ => []

/-- What a node does when it is called leaves all other keys alone. -/
lemma sparesKey_of_mem_deeds {n : BuiltinNode} {phase : Phase} {s : Session} {key : String}
    {d : Deed} (hd : d ∈ n.deeds phase s) (other : key ∉ n.writes (here s) phase) :
    d.SparesKey key := by
  cases n <;> cases phase <;>
    simp only [deeds, List.mem_cons, List.not_mem_nil, or_false] at hd
  -- These are the nodes that write; the deeds of all others leave the blackboard alone.
  case wait.enter | wait.update =>
    subst hd
    exact Deed.sparesKey_set (Ne.symm (by simpa [writes] using other)) _
  case waitEvent.enter =>
    rcases hd with rfl | rfl
    · exact Deed.sparesKey_set (Ne.symm (by simpa [writes] using other)) _
    · trivial
  case setBlackboard.enter =>
    subst hd
    exact Deed.sparesKey_writeAll other
  all_goals
    subst hd
    trivial

end BuiltinNode

/-! ## Graphs that are made of built-in nodes -/

/-- What a built-in node does, or the node that does nothing. -/
def Actor.ofKind : Option BuiltinNode → Actor Deed.KeepsPlace
  | some n => n.actor
  | none => .idle

/-- Under every guid, if there is a behaviour at all, is that of a built-in node of the given kind,
or of the node that does nothing. -/
def Graph.MadeOf (g : Graph) (kinds : Guid → Option BuiltinNode) : Prop :=
  ∀ guid b, g.behaviour? guid = some b → b = (Actor.ofKind (kinds guid)).behaviour

variable {g : Graph} {kinds : Guid → Option BuiltinNode}

/-- What the nodes do. -/
def Graph.MadeOf.conduct (made : g.MadeOf kinds) : g.Conduct Deed.KeepsPlace where
  deeds guid := (Actor.ofKind (kinds guid)).deeds
  allowed guid := (Actor.ofKind (kinds guid)).allowed
  onPhase_eq guid b hb phase s := by
    rw [made guid b hb]
    exact (Actor.ofKind (kinds guid)).onPhase_eq phase s

/-- The graph of built-in nodes under their guids. -/
def Graph.ofKinds (nodes : List (Guid × BuiltinNode)) (edges : List Edge) (entry : Option Guid) :
    Graph :=
  Cast.graph (nodes.map fun (guid, n) => (guid, n.actor)) edges entry

lemma lookup_actors (nodes : List (Guid × BuiltinNode)) (guid : Guid) :
    (nodes.map fun (guid, n) => (guid, n.actor)).lookup guid =
      (nodes.lookup guid).map BuiltinNode.actor := by
  induction nodes with
  | nil => rfl
  | cons head rest ih =>
      obtain ⟨own, n⟩ := head
      by_cases h : guid = own
      · simp [h]
      · have hother : (guid == own) = false := by simpa using h
        simpa [List.lookup_cons, hother] using ih

lemma Graph.madeOf_ofKinds (nodes : List (Guid × BuiltinNode)) (edges : List Edge)
    (entry : Option Guid) : (ofKinds nodes edges entry).MadeOf fun guid => nodes.lookup guid := by
  intro guid b hb
  rw [ofKinds, Cast.behaviour?_graph, lookup_actors, Option.map_map] at hb
  obtain ⟨n, hn, rfl⟩ := Option.map_eq_some_iff.mp hb
  simp [hn, Actor.ofKind]

namespace Registry

/-- The types of nodes that the registry knows are built-in ones. -/
def MakesKinds (r : Registry) : Prop :=
  ∀ (type : String) maker, r.nodes[type]? = some maker →
    ∀ data, ∃ result, maker data = .done result ∧
      ∀ b, result = .ok b → ∃ kind, b = (Actor.ofKind kind).behaviour

lemma MakesKinds.addNodeMaker {r : Registry} (makes : r.MakesKinds) (type : String)
    {maker : NodeMaker} (own : ∀ data, ∃ result, maker data = .done result ∧
      ∀ b, result = .ok b → ∃ kind, b = (Actor.ofKind kind).behaviour) :
    (r.addNodeMaker type maker).MakesKinds := by
  intro other found hfound
  rw [Registry.addNodeMaker, Std.ExtTreeMap.getElem?_insert] at hfound
  split at hfound
  · exact Option.some.inj hfound ▸ own
  · exact makes other found hfound

lemma MakesKinds.addNode {r : Registry} (makes : r.MakesKinds) (type : String)
    (d : Json.Decoder BuiltinNode) : (r.addNode type d BuiltinNode.behaviour).MakesKinds := by
  refine makes.addNodeMaker type fun data => ⟨_, rfl, fun b hb => ?_⟩
  obtain ⟨n, -, rfl⟩ := map_eq_ok hb
  exact ⟨some n, rfl⟩

lemma makesKinds_builtin : builtin.MakesKinds := by
  have hbase : base.MakesKinds := by
    refine MakesKinds.addNodeMaker (r := {}) (by simp [MakesKinds]) "Empty" ?_
    refine fun data => ⟨_, rfl, ?_⟩
    rintro b ⟨⟩
    exact ⟨none, rfl⟩
  have hnodes : (BuiltinNode.register base).MakesKinds := by
    unfold BuiltinNode.register
    iterate 7 apply MakesKinds.addNode
    exact hbase
  exact hnodes

lemma MakesKinds.exists_kind {r : Registry} (makes : r.MakesKinds) {guid : Guid} {s : Spec}
    {b : Behaviour} (made : r.MakesBehaviour guid s (.ok b)) :
    ∃ kind, b = (Actor.ofKind kind).behaviour := by
  cases found : r.nodes[s.type]? with
  | none => cases (makesBehaviour_iff_of_unknown found).mp made
  | some maker =>
    obtain ⟨result, hresult, hkind⟩ := makes _ maker found s.data
    have hyields := (makesBehaviour_iff_of_maker found).mp made
    rw [hresult] at hyields
    cases hyields
    exact hkind b rfl

/-- What the registry of the built-in types makes of documents are graphs of built-in nodes. -/
lemma exists_madeOf_of_graphOf {d : Document} (h : builtin.graphOf d = .ok g) :
    ∃ kinds, g.MadeOf kinds := by
  have hkind : ∀ guid, ∃ kind, ∀ b, g.behaviour? guid = some b →
      b = (Actor.ofKind kind).behaviour := by
    intro guid
    cases hb : g.behaviour? guid with
    | none => exact ⟨none, nofun⟩
    | some b =>
        rw [Graph.behaviour?, Graph.node?_eq_find?] at hb
        obtain ⟨n, hn, hbehaviour⟩ := Option.bind_eq_some_iff.mp hb
        obtain ⟨a, -, ha⟩ := exists_of_forall₂ (R := fun n a => builtin.RealizesNode a n)
          (realizes_of_graphOf h).nodes.flip n (List.mem_of_find?_eq_some hn)
        have hrel := ha.behaviour
        rw [hbehaviour] at hrel
        generalize a.node = spec at hrel
        cases hrel with
        | some hmade =>
            obtain ⟨kind, rfl⟩ := makesKinds_builtin.exists_kind hmade
            refine ⟨kind, ?_⟩
            rintro _ ⟨⟩
            rfl
  -- A guid that occurs twice is no obstacle: lookups find its first node, whose kind is taken.
  choose kinds hkinds using hkind
  exact ⟨kinds, hkinds⟩

end Registry

/-! ## Deliveries since the last flush -/

/-- What is in the inbox has been delivered since the last flush, or was there at the beginning and
has not been flushed. -/
lemma delivered_of_mem_inbox {event : String} {moments : List Moment} {s : Session}
    (h : event ∈ (Moment.replayAll moments s).inbox) :
    deliveries event (flushed moments) s < deliveries event moments s ∨
      flushed moments = [] ∧ event ∈ s.inbox := by
  induction moments using List.reverseRecOn with
  | nil => exact .inr ⟨rfl, h⟩
  | append_singleton moments m ih =>
      rw [Moment.replayAll_append] at h
      have hcount : deliveries event (moments ++ [m]) s =
          deliveries event moments s + m.deliveries event (Moment.replayAll moments s) := by
        simp [deliveries_append, deliveries]
      have hgrows : deliveries event (flushed moments) s ≤ deliveries event moments s := by
        obtain ⟨since, hsince⟩ := flushed_prefix moments
        conv_rhs => rw [← hsince, deliveries_append]
        exact Nat.le_add_right _ _
      cases hm : m.flushes with
      -- A flush empties the inbox, so nothing can wait right after it.
      | true =>
          obtain ⟨hflush, -⟩ :=
            @Moment.replay_of_flushes event m hm (Moment.replayAll moments s)
          have hmem : event ∈ (m.replay (Moment.replayAll moments s)).inbox := h
          rw [hflush] at hmem
          exact absurd hmem (Session.not_mem_inbox_flush _ event)
      | false =>
          rw [flushed_snoc_of_not_flushes moments hm, hcount]
          have hmem : event ∈ (Moment.replayAll moments s).inbox ∨
              m.deliveries event (Moment.replayAll moments s) ≠ 0 := by
            cases m with
            | did d | managed d => exact Deed.mem_inbox_perform h
            | called | compared => exact .inl h
          rcases hmem with hold | hnew
          · exact (ih hold).imp_left fun hless => by omega
          · exact .inl (by omega)

/-! ## Who changes a key -/

/-- After some moments of a run that began with the session `s`, the moment may change what is under
the key. -/
inductive Overwrites (kinds : Guid → Option BuiltinNode) (s : Session) (moments : List Moment) :
    Moment → String → Prop
  /-- A node is being called that writes the key, and the deed is the next one it does. -/
  | node {before : List Moment} {phase : Phase} {n : Guid} {own rest : List Deed} {d : Deed}
    {kind : BuiltinNode} {key : String} (hkind : kinds n = some kind)
    (hmoments : moments = before ++ .called phase n :: own.map .did)
    (hdeeds : kind.deeds phase (Moment.replayAll before s) = own ++ d :: rest)
    (writes : key ∈ kind.writes (BuiltinNode.here (Moment.replayAll before s)) phase)
    (position : (∀ d, .did d ∈ before → d.KeepsPlace) →
      BuiltinNode.here (Moment.replayAll before s) = n) :
    Overwrites kinds s moments (.did d) key
  /-- Deliveries of an event are moved to its counter. -/
  | flush {m : Moment} {event : String} (flushes : m.flushes = true)
    (delivered : deliveries event (flushed moments) s < deliveries event moments s ∨
      flushed moments = [] ∧ event ∈ s.inbox) :
    Overwrites kinds s moments m (firedKey event)

namespace Course

variable {made : g.MadeOf kinds}

/-- The deeds that are still to be done belong to the call made last. -/
def Config.Owes (c : Config) (kinds : Guid → Option BuiltinNode) (s : Session)
    (moments : List Moment) : Prop :=
  c.pending = [] ∨ ∃ before phase n kind own, kinds n = some kind ∧
    moments = before ++ .called phase n :: own.map .did ∧
      kind.deeds phase (Moment.replayAll before s) = own ++ c.pending

/-- A call leaves the deeds of the node to be done. -/
lemma owes_of_called (place : Place) (n : Guid) (phase : Phase) (s : Session)
    (moments : List Moment) :
    Config.Owes ⟨place, made.conduct.deeds n phase (Moment.replayAll moments s),
      Moment.replayAll moments s⟩ kinds s (moments ++ [.called phase n]) := by
  cases hkind : kinds n with
  | none =>
      left
      simp [Graph.MadeOf.conduct, hkind, Actor.ofKind, Actor.idle]
  | some kind =>
      right
      refine ⟨moments, phase, n, kind, [], hkind, rfl, ?_⟩
      simp [Graph.MadeOf.conduct, hkind, Actor.ofKind, BuiltinNode.actor]

lemma Step.owes {H : Deed → Prop} {c c' : Config} {m : Moment} {s : Session}
    {moments : List Moment} (step : Step made.conduct H c m c') (owes : c.Owes kinds s moments)
    (hsession : c.session = Moment.replayAll moments s) : c'.Owes kinds s (moments ++ [m]) := by
  cases step with
  | @act place d rest _ =>
      rcases owes with hnone | ⟨before, phase, n, kind, own, hkind, rfl, hdeeds⟩
      · cases hnone
      · right
        refine ⟨before, phase, n, kind, own ++ [d], hkind, ?_, ?_⟩
        · simp
        · simpa using hdeeds
  | host | tend | compare | release | move | start | stop => exact .inl rfl
  | update | exit | enter =>
      obtain rfl : _ = Moment.replayAll moments s := hsession
      exact owes_of_called _ _ _ s moments

lemma Path.owes {H : Deed → Prop} {c c' : Config} {moments : List Moment}
    (path : Path made.conduct H c moments c') (idle : c.pending = []) :
    c'.Owes kinds c.session moments := by
  induction path with
  | nil => exact .inl idle
  | snoc before step ih => exact step.owes ih before.session_eq

/-- A node that is called finds the guid that it is called under, as long as nobody moves the
place. -/
lemma Path.here_of_called {H : Deed → Prop} {c c' : Config} {before own : List Moment}
    {phase : Phase} {n : Guid} (path : Path made.conduct H c (before ++ .called phase n :: own) c')
    (stopped : c.place = .stopped) (keeps : ∀ d, .did d ∈ before → d.KeepsPlace) :
    BuiltinNode.here (Moment.replayAll before c.session) = n := by
  have hpath : Path made.conduct H c
      (before ++ .called phase n :: (([] : List Deed).map .did ++ own)) c' := path
  have hcurrent := hpath.currentNode_of_called stopped (by simpa using keeps)
  have hsame : Moment.replayAll (before ++ [.called phase n]) c.session =
      Moment.replayAll before c.session := Moment.replayAll_append ..
  rw [List.map_nil, hsame] at hcurrent
  rw [BuiltinNode.here, hcurrent, Option.getD_some]

/-- What a step does to a key can be laid at somebody's door. -/
lemma Path.overwrites {c mid next : Config} {moments : List Moment} {m : Moment} {key : String}
    (path : Path made.conduct Deed.WritesNothing c moments mid) (stopped : c.place = .stopped)
    (idle : c.pending = []) (step : Step made.conduct Deed.WritesNothing mid m next)
    (changed : (m.replay mid.session).under key ≠ mid.session.under key) :
    Overwrites kinds c.session moments m key := by
  have howes := path.owes idle
  have hspares : ∀ d : Deed, m.replay mid.session = d.perform mid.session → ¬ d.SparesKey key :=
    fun d hd spares => changed (hd ▸ spares.under_perform mid.session)
  -- Only two things write to a context: flushes, and deeds that the conduct lets through.
  cases hm : m.flushes with
  | true =>
      obtain ⟨hflush, -⟩ := @Moment.replay_of_flushes "" m hm mid.session
      have hfired : ∃ x ∈ mid.session.inbox.toList, firedKey x.1 = key := by
        by_contra hnone
        push Not at hnone
        rw [hflush] at changed
        exact changed (mid.session.context.getElem?_foldl_countEvent hnone)
      obtain ⟨x, hx, rfl⟩ := hfired
      have hmem : x.1 ∈ mid.session.inbox := Session.mem_inbox_iff.mpr ⟨x, hx, rfl⟩
      rw [path.session_eq] at hmem
      exact .flush hm (delivered_of_mem_inbox hmem)
  | false =>
      cases step with
      | @act place d rest s =>
          rcases howes with hnone | ⟨before, phase, n, kind, own, hkind, hmoments, hdeeds⟩
          · cases hnone
          · subst hmoments
            refine .node hkind rfl hdeeds ?_ fun keeps => path.here_of_called stopped keeps
            -- A deed that the node does not list as its own writing leaves the key alone.
            by_contra hother
            refine hspares d rfl (kind.sparesKey_of_mem_deeds ?_ hother)
            rw [hdeeds]
            exact List.mem_append_right own List.mem_cons_self
      | @host place d s allowed =>
          have hother : d ≠ .flush := by
            rintro rfl
            cases hm
          exact absurd (allowed.sparesKey hother key) (hspares d rfl)
      | @tend n d s tends =>
          have hother : d ≠ .flush := by
            rintro rfl
            cases hm
          exact absurd (tends.writesNothing.sparesKey hother key) (hspares d rfl)
      | compare | update | exit | enter => exact absurd rfl changed
      | release | move | start | stop => exact absurd rfl changed

/-! ## A node that has been left -/

/-- A node that is not active is not updated before it is entered. -/
lemma Path.not_updated {H : Deed → Prop} {c c' : Config} {moments : List Moment} {guid : Guid}
    (path : Path made.conduct H c moments c') (away : c.place ≠ .active guid)
    (absent : .called .enter guid ∉ moments) :
    c'.place ≠ .active guid ∧ .called .update guid ∉ moments := by
  induction path with
  | nil => exact ⟨away, List.not_mem_nil⟩
  | @snoc moments mid last m before step ih =>
      obtain ⟨hbefore, hlast⟩ : .called .enter guid ∉ moments ∧ m ≠ .called .enter guid := by
        simpa [eq_comm] using absent
      obtain ⟨hplace, hnone⟩ := ih hbefore
      have hstep : last.place ≠ .active guid ∧ m ≠ .called .update guid := by
        cases step with
        | act | host | tend | compare => exact ⟨hplace, nofun⟩
        | @update n =>
            refine ⟨hplace, ?_⟩
            rintro ⟨⟩
            exact hplace rfl
        | exit => exact ⟨nofun, nofun⟩
        | release | move | start | stop => exact ⟨nofun, nofun⟩
        | @enter n =>
            refine ⟨?_, nofun⟩
            rintro ⟨⟩
            exact hlast rfl
      refine ⟨hstep.1, ?_⟩
      simpa [hnone] using Ne.symm hstep.2

end Course

/-- The key of a timer is written when its node is entered or updated. -/
lemma Overwrites.calls_of_waitKey {s : Session} {moments : List Moment} {m : Moment} {guid : Guid}
    (overwrites : Overwrites kinds s moments m (waitKey guid))
    (unlisted : ∀ n entries, kinds n = some (.setBlackboard entries) →
      waitKey guid ∉ Entry.keys entries)
    (keeps : ∀ d, .did d ∈ moments → d.KeepsPlace) :
    ∃ before phase, calls moments = calls before ++ [⟨phase, guid⟩] ∧
      (phase = .enter ∨ phase = .update) := by
  generalize hkey : waitKey guid = key at overwrites
  cases overwrites with
  | flush => exact absurd hkey (waitKey_ne_firedKey guid _)
  | @node before phase n own rest d kind _ hkind hmoments hdeeds writes position =>
      subst hmoments hkey
      have hhere := position fun d hd => keeps d (List.mem_append_left _ hd)
      rw [hhere] at writes
      have hcalls : calls (before ++ .called phase n :: own.map .did) =
          calls before ++ [⟨phase, n⟩] := by
        rw [List.append_cons, calls_append, calls_snoc_called, calls_dids, List.append_nil]
      -- Of all that a node may write, a timer is found under its key for waiting and nowhere else.
      have hown : n = guid ∧ (phase = .enter ∨ phase = .update) := by
        cases kind <;> cases phase <;>
          simp only [BuiltinNode.writes, List.mem_cons, List.not_mem_nil, or_false] at writes
        case wait.enter => exact ⟨(waitKey_injective writes).symm, .inl rfl⟩
        case wait.update => exact ⟨(waitKey_injective writes).symm, .inr rfl⟩
        case waitEvent.enter => exact absurd writes (waitKey_ne_firedKey guid _)
        case setBlackboard.enter => exact absurd writes (unlisted n _ hkind)
      obtain ⟨rfl, hphase⟩ := hown
      exact ⟨before, phase, hcalls, hphase⟩

namespace Course

variable {made : g.MadeOf kinds}

/-- As long as a node that has been left is not entered, its timer stands still. -/
lemma Path.under_waitKey {c c' : Config} {before between : List Moment} {guid : Guid}
    (path : Path made.conduct Deed.WritesNothing c (before ++ .called .exit guid :: between) c')
    (stopped : c.place = .stopped) (idle : c.pending = [])
    (absent : .called .enter guid ∉ between)
    (keeps : ∀ d, .did d ∈ before ++ between → d.KeepsPlace)
    (unlisted : ∀ n entries, kinds n = some (.setBlackboard entries) →
      waitKey guid ∉ Entry.keys entries) :
    c'.session.under (waitKey guid) = (Moment.replayAll before c.session).under (waitKey guid) := by
  induction between using List.reverseRecOn generalizing c' with
  | nil =>
      rw [path.session_eq, Moment.replayAll_append]
      rfl
  | append_singleton between m ih =>
      rw [← List.cons_append, ← List.append_assoc] at path
      obtain ⟨mid, hpath, step⟩ := path.of_snoc
      have habsent : .called .enter guid ∉ between :=
        fun h => absent (List.mem_append_left _ h)
      rw [← List.append_assoc] at keeps
      have hkeeps : ∀ d, .did d ∈ before ++ between → d.KeepsPlace :=
        fun d hd => keeps d (List.mem_append_left _ hd)
      rw [← ih hpath habsent hkeeps, step.session_eq]
      by_contra changed
      have hwrites := hpath.overwrites stopped idle step changed
      obtain ⟨earlier, phase, hcalls, hphase⟩ :=
        hwrites.calls_of_waitKey unlisted (by simpa using hkeeps)
      obtain ⟨_, _, -, hexit, hbetween⟩ := hpath.split_cons
      have haway : .called .update guid ∉ between := by
        cases hexit with
        | update stays => rcases stays with h | h <;> cases h
        | exit => exact (hbetween.not_updated nofun habsent).2
      rw [List.append_cons, calls_append, calls_snoc_called] at hcalls
      -- the call that is being made is the last one: the exit itself, or one after it
      rcases List.eq_nil_or_concat (calls between) with hnone | ⟨init, last, hlast⟩
      · rw [hnone, List.append_nil] at hcalls
        obtain ⟨-, hsame⟩ := List.append_inj' hcalls rfl
        rcases hphase with rfl | rfl <;> cases hsame
      · rw [hlast, List.concat_eq_append, ← List.append_assoc] at hcalls
        obtain ⟨-, hsame⟩ := List.append_inj' hcalls rfl
        obtain rfl : last = ⟨phase, guid⟩ := by simpa using hsame
        have hcalled : .called phase guid ∈ between := mem_calls.mp (by simp [hlast])
        rcases hphase with rfl | rfl
        · exact habsent hcalled
        · exact haway hcalled

end Course

namespace Command

open Course

lemma keepsPlace_of_mem_chronicle (made : g.MadeOf kinds) (s : Session)
    (settings : MachineSettings) {commands : List Command}
    (hosts : HostAllowed Deed.KeepsPlace commands) {d : Deed}
    (hd : .did d ∈ chronicle made.conduct.deeds commands (outset g s settings)) : d.KeepsPlace := by
  obtain ⟨-, hpath⟩ := path_chronicle (p := made.conduct) (settled_outset g s settings) commands
    hosts
  exact (hpath.may_of_mem hd).elim id id

/-- **Nodes do not clobber each other's keys.**  The keys made for guids and for events are all
different.  In every run over built-in nodes in which the host does not write the blackboard:

* what happens accounts for the blackboard, and each change of a key is made by the node that is
  being called and writes that key, or by a flush that moves to its counter an event delivered since
  the last flush (or one that was in the inbox at the beginning and has not been flushed);
* from the exit of a node until it is entered again its timer keeps its value, whatever happens in
  between, if no node lists the key of the timer among its entries and the host does not move the
  place of the machine. -/
theorem keys_kept_apart (made : g.MadeOf kinds) (s : Session) (settings : MachineSettings)
    {commands : List Command} (hosts : HostAllowed Deed.WritesNothing commands) :
    let m := outset g s settings
    let moments := chronicle made.conduct.deeds commands m
    (Function.Injective waitKey ∧ Function.Injective firedKey ∧
      ∀ guid event, waitKey guid ≠ firedKey event) ∧
    (performAll commands m).session = Moment.replayAll moments s ∧
    (∀ before now after key, moments = before ++ now :: after →
      (Moment.replayAll (before ++ [now]) s).under key ≠ (Moment.replayAll before s).under key →
      Overwrites kinds s before now key) ∧
    ∀ guid before between after,
      moments = before ++ .called .exit guid :: (between ++ after) →
      .called .enter guid ∉ between →
      (∀ d, .did d ∈ before ++ between → d.KeepsPlace) →
      (∀ n entries, kinds n = some (.setBlackboard entries) →
        waitKey guid ∉ Entry.keys entries) →
      (Moment.replayAll (before ++ .called .exit guid :: between) s).under (waitKey guid) =
        (Moment.replayAll before s).under (waitKey guid) := by
  intro m moments
  obtain ⟨-, hpath⟩ : Settled g (performAll commands m) ∧
      Path made.conduct Deed.WritesNothing m.config moments (performAll commands m).config :=
    path_chronicle (settled_outset g s settings) commands hosts
  refine ⟨⟨waitKey_injective, firedKey_injective, waitKey_ne_firedKey⟩, hpath.session_eq, ?_, ?_⟩
  · intro before now after key hmoments changed
    rw [hmoments] at hpath
    obtain ⟨mid, next, hbefore, step, -⟩ := hpath.split_cons
    refine hbefore.overwrites rfl rfl step ?_
    rw [hbefore.session_eq]
    rwa [Moment.replayAll_append] at changed
  · intro guid before between after hmoments absent keeps unlisted
    rw [hmoments, ← List.cons_append, ← List.append_assoc] at hpath
    obtain ⟨mid, hbefore, -⟩ := hpath.split
    have hstill := hbefore.under_waitKey rfl rfl absent keeps unlisted
    rw [hbefore.session_eq] at hstill
    exact hstill

/-! ### A household -/

/-- Two nodes that wait, one that sets an entry, and one that waits for a knock. -/
def household : List (Guid × BuiltinNode) :=
  [("porch", .wait 2.0), ("hall", .wait 1.0), ("sign", .setBlackboard [⟨"open", .bool true⟩]),
    ("ear", .waitEvent "knock")]

/-- Every node of the household has its turn, and there is a knock. -/
def turns : List Command :=
  [.start, .tick 0.5, .enter "hall", .tick 0.5, .enter "sign", .enter "ear",
    .host (.publish "knock"), .tick 0.5]

/-- What happens then. -/
def turnMoments : List Moment :=
  chronicle (Graph.madeOf_ofKinds household [] none).conduct.deeds turns
    (outset (.ofKinds household [] none) .alone {})

/-- The porch is left after half a second.  When the hall, the sign and the ear have had their turns
and a knock has been counted, the timer of the porch still shows what it showed then. -/
theorem keys_kept_apart_household :
    let last := (performAll turns (outset (.ofKinds household [] none) .alone {})).session
    HostAllowed Deed.WritesNothing turns ∧
      turnMoments = turnMoments.take 10 ++
        .called .exit "porch" :: (turnMoments.drop 11 ++ []) ∧
      last.under (waitKey "porch") = some (.seed (.float 1.5)) ∧
      last.under (waitKey "hall") = some (.seed (.float 0.5)) ∧
      last.under (firedKey "knock") = some (.seed (.int 1)) := by
  intro last
  have hosts : HostAllowed (fun d => d.WritesNothing ∧ d.KeepsPlace) turns := by
    intro d hd
    have hknock : d = .publish "knock" := by simpa [turns] using hd
    rw [hknock]
    exact ⟨trivial, trivial⟩
  have hmoments : turnMoments = turnMoments.take 10 ++
      .called .exit "porch" :: (turnMoments.drop 11 ++ []) := rfl
  have habsent : .called .enter "porch" ∉ turnMoments.drop 11 :=
    mem_calls.not.mp (by decide +kernel)
  have hkeeps : ∀ d, .did d ∈ turnMoments.take 10 ++ turnMoments.drop 11 → d.KeepsPlace := by
    intro d hd
    have hmem : .did d ∈ turnMoments := by
      rcases List.mem_append.mp hd with hd | hd
      · exact List.mem_of_mem_take hd
      · exact List.mem_of_mem_drop hd
    exact keepsPlace_of_mem_chronicle _ _ _ (fun d hd => (hosts d hd).2) hmem
  have hunlisted : ∀ n entries, household.lookup n = some (.setBlackboard entries) →
      waitKey "porch" ∉ Entry.keys entries := by
    intro n entries h
    obtain ⟨before, after, hsplit, -⟩ := List.lookup_eq_some_iff.mp h
    have hmem : (n, .setBlackboard entries) ∈ household := by simp [hsplit]
    obtain ⟨-, rfl⟩ : n = "sign" ∧ entries = [⟨"open", .bool true⟩] := by
      simpa [household] using hmem
    decide
  obtain ⟨-, hsession, -, htimer⟩ := keys_kept_apart (Graph.madeOf_ofKinds household [] none)
    .alone {} fun d hd => (hosts d hd).1
  have hporch := htimer "porch" _ _ _ hmoments habsent hkeeps hunlisted
  have hlast : last = Moment.replayAll turnMoments .alone := hsession
  refine ⟨fun d hd => (hosts d hd).1, hmoments, ?_, ?_, ?_⟩
  · rw [hlast, hmoments, List.append_nil, hporch]
    rfl
  · rfl
  · rfl

end Command

end WorkflowGraph
