import WorkflowGraph.Proofs.Operations
import WorkflowGraph.Proofs.Registrations

/-!
# Registrations of nodes

A registration that a node makes for as long as it is active belongs to the node, and the owner is
taken from the current node of the context.  That is right at every moment of a run, whoever
registers: a callback, the last one of a node included, or the host between two commands.

* Whatever the context tracks belongs to the current node or to nobody (`Config.Owned`), so that
  nothing that belongs to a node is left once the node has been left.
* Changing node ends nothing else: what belongs to nobody stays until somebody ends it, or the
  context is reset or torn down.

Callbacks and hosts may do anything but set the current node themselves.
-/

namespace WorkflowGraph

namespace Deed

/-- Only a deed that sets the current node makes a node current; tearing the context down leaves
none. -/
lemma NeverPlaces.currentNode_perform {d : Deed} (never : d.NeverPlaces) (s : Session) :
    (d.perform s).context.currentNode = s.context.currentNode ∨
      d = .dispose ∧ (d.perform s).context.currentNode = none := by
  cases d with
  | place node => exact never.elim
  | dispose => exact .inr ⟨rfl, rfl⟩
  | flush =>
      obtain ⟨blackboard, hflush⟩ := exists_flush_context s
      simp [perform, hflush]
  | _ => exact .inl rfl

lemma NeverPlaces.keepsPlace {d : Deed} (never : d.NeverPlaces) (keeps : d ≠ .dispose) :
    d.KeepsPlace := by
  cases d with
  | place node => exact never.elim
  | dispose => exact absurd rfl keeps
  | _ => trivial

/-- A registration is made for nobody or for the current node. -/
lemma node_of_tracked {d : Deed} {s : Session} {sub : Subscription} (h : d.tracked s = some sub) :
    sub.node = none ∨ sub.node = s.context.currentNode := by
  cases d with
  | subscribe event handler =>
      cases h
      exact .inl rfl
  | subscribeForNode event handler =>
      cases h
      exact .inr rfl
  | watch event =>
      cases h
      exact .inr rfl
  | _ => cases h

end Deed

/-- What the context tracks belongs to the current node or to nobody. -/
def Session.Owned (s : Session) : Prop :=
  ∀ sub ∈ s.context.subscriptions, sub.node = none ∨ sub.node = s.context.currentNode

/-- What the context tracks belongs to nobody. -/
def Session.Unowned (s : Session) : Prop := ∀ sub ∈ s.context.subscriptions, sub.node = none

lemma Deed.NeverPlaces.owned_perform {d : Deed} (never : d.NeverPlaces) {s : Session}
    (owned : s.Owned) : (d.perform s).Owned := by
  intro sub hsub
  rcases never.currentNode_perform s with hcurrent | ⟨rfl, -⟩
  · rw [hcurrent]
    rcases of_mem_subscriptions_perform hsub with hold | hnew
    · exact owned sub hold
    · exact node_of_tracked hnew
  · cases hsub

namespace Course

variable {g : Graph}

/-- The current node of the context at a place, where the context may have been torn down by a node
or by the host. -/
def Place.Shows : Place → Option Guid → Prop
  | .stopped, current => current = none
  | .active n, current | .leaving n, current | .left n, current => current = none ∨ current = some n
  | .arriving n, current => current = some n

/-- Nothing belongs to a node at a place between two nodes. -/
def Place.Between : Place → Prop
  | .left _ | .arriving _ => True
  | _ => False

/-- The current node of the context fits the place, and so do the owners of registrations. -/
structure Config.Owned (c : Config) : Prop where
  shows : c.place.Shows c.session.context.currentNode
  owned : c.session.Owned
  unowned : c.place.Between → c.session.Unowned
  idle : c.place.Between → c.pending = []

/-- What nodes and the host do at a node, or while nothing runs, keeps the owners right. -/
lemma Config.Owned.perform {place : Place} {pending pending' : List Deed} {s : Session}
    {d : Deed} (owned : Config.Owned ⟨place, pending, s⟩) (never : d.NeverPlaces)
    (here : ¬ place.Between) : Config.Owned ⟨place, pending', d.perform s⟩ := by
  refine ⟨?_, never.owned_perform owned.owned, fun h => absurd h here, fun h => absurd h here⟩
  have hshows := owned.shows
  rcases never.currentNode_perform s with hsame | ⟨-, hnone⟩
  · simpa only [hsame] using hshows
  · cases place with
    | stopped => exact hnone
    | active n | leaving n => exact .inl hnone
    | left n | arriving n => exact absurd trivial here

/-- When the registrations of the current node have ended, none belongs to a node. -/
lemma unowned_releaseNode {s : Session} {n : Guid} (owned : s.Owned)
    (hcurrent : s.context.currentNode = none ∨ s.context.currentNode = some n) :
    ((Deed.releaseNode n).perform s).Unowned := by
  intro sub hsub
  simp only [Deed.perform, Session.releaseNode, List.partition_eq_filter_filter] at hsub
  obtain ⟨hold, hother⟩ := List.mem_filter.mp hsub
  have hne : sub.node ≠ some n := by simpa using hother
  rcases owned sub hold with hnode | hnode
  · exact hnode
  · rcases hcurrent with hcurrent | hcurrent
    · exact hnode.trans hcurrent
    · exact absurd (hnode.trans hcurrent) hne

lemma Step.owned {p : g.Conduct Deed.NeverPlaces} {c c' : Config} {m : Moment}
    (step : Step p Deed.NeverPlaces c m c') (owned : c.Owned) : c'.Owned := by
  cases step with
  | @act place d rest s allowed =>
      have here : ¬ place.Between := by
        intro hbetween
        have hidle := owned.idle hbetween
        cases hidle
      exact owned.perform allowed here
  | @host place d s allowed rests =>
      have here : ¬ place.Between := by
        intro hbetween
        cases place with
        | stopped | active => exact hbetween
        | leaving | left | arriving => exact rests
      exact owned.perform allowed here
  | tend tends => exact owned.perform tends.keepsPlace.neverPlaces id
  | compare => exact owned
  | update => exact ⟨owned.shows, owned.owned, False.elim, False.elim⟩
  | exit => exact ⟨owned.shows, owned.owned, False.elim, False.elim⟩
  | @release n s =>
      have hnever : (Deed.releaseNode n).NeverPlaces := trivial
      exact ⟨owned.shows, hnever.owned_perform owned.owned,
        fun _ => unowned_releaseNode owned.owned owned.shows, fun _ => rfl⟩
  -- The node was released right before, so what is left belongs to nobody.
  | move =>
      have hunowned := owned.unowned trivial
      exact ⟨rfl, fun sub hsub => .inl (hunowned sub hsub), fun _ => hunowned, fun _ => rfl⟩
  | @start entry s =>
      have hcurrent : s.context.currentNode = none := owned.shows
      have hunowned : s.Unowned := by
        intro sub hsub
        rcases owned.owned sub hsub with hnode | hnode
        · exact hnode
        · exact hnode.trans hcurrent
      exact ⟨rfl, fun sub hsub => .inl (hunowned sub hsub), fun _ => hunowned, fun _ => rfl⟩
  | enter => exact ⟨.inr owned.shows, owned.owned, False.elim, False.elim⟩
  | stop => exact ⟨rfl, nofun, False.elim, False.elim⟩

lemma Path.owned {p : g.Conduct Deed.NeverPlaces} {h : Hub} {c : Config} {moments : List Moment}
    (path : Path p Deed.NeverPlaces ⟨.stopped, [], .attach h⟩ moments c) : c.Owned := by
  refine path.invariant (fun _ c => c.Owned) ?_ fun owned step => step.owned owned
  exact ⟨rfl, nofun, False.elim, False.elim⟩

end Course

/-! ## What ends a registration -/

namespace Deed

/-- The deed registers a handler for an event on behalf of the current node. -/
def IsForNode (event : String) : Deed → Prop
  | .subscribeForNode e _ | .watch e => e = event
  | _ => False

/-- The deed ends the registration of a token, or all registrations of the context. -/
def Ends (t : Token) : Deed → Prop
  | .disposeToken token => token = t
  | .release | .reset | .dispose => True
  | _ => False

lemma Tends.not_ends {d : Deed} (tends : d.Tends) (t : Token) : ¬ d.Ends t := by
  cases d with
  | flush | takeRequest | elapse | elapseFixed => exact id
  | _ => exact tends.elim

/-- The token of the next registration. -/
lemma tracked_of_isForNode {d : Deed} {event : String} (h : d.IsForNode event) (s : Session) :
    d.tracked s = some ⟨⟨s.hub.bus.nextId, event⟩, s.context.currentNode⟩ := by
  cases d with
  | subscribeForNode e handler =>
      cases h
      rfl
  | watch e =>
      cases h
      rfl
  | _ => exact h.elim

/-- Only a deed that is meant to ends a registration that belongs to nobody. -/
lemma ends_of_mem_ended {d : Deed} {s : Session} {t : Token} (held : HeldOnly t none s)
    (h : t ∈ d.ended s) : d.Ends t := by
  cases d with
  | disposeToken token => exact (List.mem_singleton.mp h).symm
  | releaseNode n =>
      obtain ⟨sub, hsub, htoken⟩ := List.mem_map.mp h
      obtain ⟨hmem, hnode⟩ := List.mem_filter.mp hsub
      rw [held.sole sub hmem htoken] at hnode
      cases hnode
  | release | reset | dispose => trivial
  | _ => cases h

end Deed

/-- What belongs to nobody stays until it is ended on purpose. -/
lemma mem_registrations_of_forall_not_ends {moments : List Moment} {s : Session}
    {r : Registration Handler} (held : HeldOnly r.token none s)
    (mem : r ∈ s.hub.bus.registrations)
    (keeps : ∀ d, .did d ∈ moments ∨ .managed d ∈ moments → ¬ d.Ends r.token) :
    r ∈ (Moment.replayAll moments s).hub.bus.registrations := by
  induction moments generalizing s with
  | nil => exact mem
  | cons m rest ih =>
      have hrest : ∀ d, .did d ∈ rest ∨ .managed d ∈ rest → ¬ d.Ends r.token :=
        fun d hd => keeps d (hd.imp (List.mem_cons_of_mem m) (List.mem_cons_of_mem m))
      have hstep : ∀ d : Deed, ¬ d.Ends r.token →
          r ∈ (Moment.replayAll rest (d.perform s)).hub.bus.registrations := by
        intro d hd
        have hkept : r ∈ (d.perform s).hub.bus.registrations :=
          Deed.mem_registrations_perform.mpr
            (.inl ⟨mem, fun hended => hd (Deed.ends_of_mem_ended held hended)⟩)
        exact ih (d.heldOnly_perform s held) hkept hrest
      cases m with
      | did d => exact hstep d (keeps d (.inl List.mem_cons_self))
      | managed d => exact hstep d (keeps d (.inr List.mem_cons_self))
      | called | compared => exact ih held mem hrest

namespace Course

variable {g : Graph} {p : g.Conduct Deed.NeverPlaces} {h : Hub} {c : Config}

/-- Once a node has been left, nothing is live that was registered on its behalf. -/
lemma Path.not_isLive_of_left {before since : List Moment} {d : Deed} {event : String} {n : Guid}
    (path : Path p Deed.NeverPlaces ⟨.stopped, [], .attach h⟩ (before ++ .did d :: since) c)
    (forNode : d.IsForNode event)
    (hcurrent : (Moment.replayAll before (.attach h)).context.currentNode = some n)
    (left : .managed (.releaseNode n) ∈ since ∨ c.session.context.currentNode ≠ some n) :
    ¬ c.session.hub.bus.isLive
      ⟨(Moment.replayAll before (.attach h)).hub.bus.nextId, event⟩ := by
  intro live
  have hsession := path.session_eq
  rw [Moment.replayAll_append, Moment.replayAll_cons] at hsession
  generalize hs : Moment.replayAll before (.attach h) = s at hcurrent live hsession
  have htracked := Deed.tracked_of_isForNode forNode s
  rw [hcurrent] at htracked
  have held : Held ⟨s.hub.bus.nextId, event⟩ (some n) (d.perform s) := Deed.held_of_tracked htracked
  -- The release of a node disposes of its tokens; without one, only the owner of a token could keep
  -- it.
  rcases left with hreleased | hother
  · obtain ⟨stay, later, rfl⟩ := List.append_of_mem hreleased
    have hleaving := Moment.held_replayAll stay held
    rw [hsession] at live
    simp only [Moment.replayAll_append, Moment.replayAll_cons] at live
    refine Deed.not_isLive_perform_of_ended hleaving ?_ (Moment.isLive_of_replayAll
      (Deed.held_perform (.releaseNode n) _ hleaving).old live)
    intro hmem
    exact List.mem_map.mpr ⟨_, List.mem_filter.mpr ⟨hmem, by simp⟩, rfl⟩
  · have hlast : Held ⟨s.hub.bus.nextId, event⟩ (some n) c.session := by
      rw [hsession]
      exact Moment.held_replayAll since held
    rcases path.owned.owned _ (hlast.tracked live) with hnone | hsame
    · cases hnone
    · exact hother hsame.symm

/-- What is registered for the whole run stays until it is ended on purpose. -/
lemma Path.mem_registrations_of_subscribe {before since : List Moment} {event : String}
    {handler : Handler}
    (path : Path p Deed.NeverPlaces ⟨.stopped, [], .attach h⟩
      (before ++ .did (.subscribe event handler) :: since) c)
    (keeps : ∀ d, .did d ∈ since →
      ¬ d.Ends ⟨(Moment.replayAll before (.attach h)).hub.bus.nextId, event⟩)
    (runs : .managed .dispose ∉ since) :
    ⟨⟨(Moment.replayAll before (.attach h)).hub.bus.nextId, event⟩, handler⟩ ∈
      c.session.hub.bus.registrations := by
  have hsession := path.session_eq
  rw [Moment.replayAll_append, Moment.replayAll_cons] at hsession
  have horderly : (Moment.replayAll before (.attach h)).Orderly :=
    Moment.orderly_replayAll before nofun
  generalize hs : Moment.replayAll before (.attach h) = s at keeps hsession horderly ⊢
  have htracked : (Deed.subscribe event handler).tracked s =
      some ⟨⟨s.hub.bus.nextId, event⟩, none⟩ := rfl
  have hmem : ⟨⟨s.hub.bus.nextId, event⟩, handler⟩ ∈
      ((Deed.subscribe event handler).perform s).hub.bus.registrations :=
    Deed.mem_registrations_perform.mpr (.inr rfl)
  rw [hsession]
  refine mem_registrations_of_forall_not_ends (Deed.heldOnly_of_tracked horderly htracked) hmem ?_
  intro d hd
  -- What nodes and hosts do is in the hypothesis; what the machine does ends nothing but the run.
  rcases hd with hd | hd
  · exact keeps d hd
  · obtain ⟨mid, next, step⟩ := path.exists_step_of_mem (m := .managed d) (by simp [hd])
    intro hends
    rcases step.of_managed with htends | ⟨n, rfl⟩ | ⟨n, rfl⟩ | rfl
    · exact htends.not_ends _ hends
    · exact hends
    · exact hends
    · exact runs hd

/-- Unless the context has been torn down, a node is current all the time in which it is called and
acts. -/
lemma Path.currentNode_while_called {before after : List Moment} {phase : Phase} {n : Guid}
    {own : List Deed}
    (path : Path p Deed.NeverPlaces ⟨.stopped, [], .attach h⟩
      (before ++ .called phase n :: (own.map .did ++ after)) c)
    (upBefore : .did .dispose ∉ before) (upOwn : .dispose ∉ own) :
    (Moment.replayAll (before ++ .called phase n :: own.map .did)
      (.attach h)).context.currentNode = some n := by
  refine path.currentNode_of_called rfl ?_
  intro d hd
  have hmem : .did d ∈ before ++ .called phase n :: (own.map .did ++ after) := by
    rw [← List.cons_append, ← List.append_assoc]
    exact List.mem_append_left _ hd
  refine ((path.may_of_mem hmem).elim id id).keepsPlace ?_
  -- A teardown would be one of those before the call or one of the deeds of the node.
  rintro rfl
  rcases List.mem_append.mp hd with hbefore | hcall
  · exact upBefore hbefore
  · rcases List.mem_cons.mp hcall with hcalled | hown
    · cases hcalled
    · obtain ⟨d, hd, hdispose⟩ := List.mem_map.mp hown
      cases hdispose
      exact upOwn hd

end Course

/-! ## Whole runs -/

namespace Command

open Course Machine

variable {g : Graph}

/-- Between two commands what is tracked belongs to the current node of the machine, if to any. -/
lemma owner_of_owned {m : Machine} (owned : m.config.Owned) :
    ∀ sub ∈ m.session.context.subscriptions, sub.node = none ∨ sub.node = m.current := by
  intro sub hsub
  have hshows := owned.shows
  rcases owned.owned sub hsub with hnode | hnode
  · exact .inl hnode
  · rw [hnode]
    cases hcurrent : m.current with
    | none =>
        rw [config_of_none hcurrent] at hshows
        exact .inl hshows
    | some n =>
        rw [config_of_current hcurrent] at hshows
        exact hshows

/-- **Registrations of nodes end with their node, and others do not.**  Take a machine with a new
context, on any graph, and any commands of the host, where neither callbacks nor the host set the
current node.

* At every moment, what is live and tracked belongs to nobody or to the current node of the
  context, and between commands to nobody or to the current node of the machine.
* What is registered while a node is current, on behalf of the current node, is not live any more
  once the node has been left, whatever was current since.
* Unless the context has been torn down, a node is current whenever it is called and as long as it
  acts.
* What is registered for the whole run stays on the bus, whatever nodes are left and entered, until
  its token is disposed of, the context is reset, released or torn down, or the machine stops. -/
theorem registrations_end_with_their_node (p : g.Conduct Deed.NeverPlaces) (h : Hub)
    (settings : MachineSettings) (commands : List Command)
    (hosts : HostAllowed Deed.NeverPlaces commands) :
    let m := outset g (.attach h) settings
    let moments := chronicle p.deeds commands m
    let last := performAll commands m
    let session (part : List Moment) := Moment.replayAll part (.attach h)
    (∀ before after, moments = before ++ after →
      ∀ sub ∈ (session before).context.subscriptions, (session before).hub.bus.isLive sub.token →
        sub.node = none ∨ sub.node = (session before).context.currentNode) ∧
    (last.session = session moments ∧
      ∀ sub ∈ last.session.context.subscriptions, last.session.hub.bus.isLive sub.token →
        sub.node = none ∨ sub.node = last.current) ∧
    (∀ before d event n since after, moments = before ++ .did d :: (since ++ after) →
      d.IsForNode event → (session before).context.currentNode = some n →
      .managed (.releaseNode n) ∈ since ∨
          (session (before ++ .did d :: since)).context.currentNode ≠ some n →
        ¬ (session (before ++ .did d :: since)).hub.bus.isLive
          ⟨(session before).hub.bus.nextId, event⟩) ∧
    (∀ before phase n (own : List Deed) after,
      moments = before ++ .called phase n :: (own.map .did ++ after) →
      .did .dispose ∉ before → .dispose ∉ own →
        (session (before ++ .called phase n :: own.map .did)).context.currentNode = some n) ∧
    ∀ before event handler since after,
      moments = before ++ .did (.subscribe event handler) :: (since ++ after) →
      let token := ⟨(session before).hub.bus.nextId, event⟩
      (∀ d, .did d ∈ since → ¬ d.Ends token) → .managed .dispose ∉ since →
        ⟨token, handler⟩ ∈
          (session (before ++ .did (.subscribe event handler) :: since)).hub.bus.registrations := by
  intro m moments last session
  have hsettled : Settled g m := settled_outset g (.attach h) settings
  obtain ⟨-, hpath⟩ := path_chronicle (p := p) hsettled commands hosts
  change Path p Deed.NeverPlaces ⟨.stopped, [], .attach h⟩ moments last.config at hpath
  -- What has happened up to a moment is a path as well, and it leaves the session of that moment.
  have hpart : ∀ part rest, moments = part ++ rest →
      ∃ mid, Path p Deed.NeverPlaces ⟨.stopped, [], .attach h⟩ part mid ∧
        mid.session = session part := by
    intro part rest hmoments
    rw [hmoments] at hpath
    obtain ⟨mid, hbefore, -⟩ := hpath.split
    exact ⟨mid, hbefore, hbefore.session_eq⟩
  refine ⟨?_, ⟨hpath.session_eq, fun sub hsub _ => owner_of_owned hpath.owned sub hsub⟩, ?_, ?_, ?_⟩
  · intro before after hmoments sub hsub _
    obtain ⟨mid, hbefore, hsession⟩ := hpart before after hmoments
    rw [← hsession] at hsub ⊢
    exact hbefore.owned.owned sub hsub
  · intro before d event n since after hmoments forNode hcurrent left
    obtain ⟨mid, hbefore, hsession⟩ :=
      hpart (before ++ .did d :: since) after (by simpa using hmoments)
    rw [← hsession] at left ⊢
    exact hbefore.not_isLive_of_left forNode hcurrent left
  · intro before phase n own after hmoments hbefore hown
    rw [hmoments] at hpath
    exact hpath.currentNode_while_called hbefore hown
  · intro before event handler since after hmoments token keeps runs
    obtain ⟨mid, hbefore, hsession⟩ :=
      hpart (before ++ .did (.subscribe event handler) :: since) after (by simpa using hmoments)
    rw [← hsession]
    exact hbefore.mem_registrations_of_subscribe keeps runs

/-! ### A porter -/

/-- A node that listens for the rest of the run and for as long as it is active, and starts to
watch an event when it is left already. -/
def lodge : Cast Deed.KeepsPlace :=
  [("porter", Script.actor
      { enter := [.listen "bell", .listenWhileActive "knock"], exit := [.watch "knock"] }),
    ("garden", .idle)]

/-- What the nodes do. -/
def lodgeConduct : (lodge.graph [] none).Conduct Deed.NeverPlaces :=
  (lodge.conduct [] none).weaken fun _ keeps => keeps.neverPlaces

/-- The porter is entered; so far it has only left its entry in the journal. -/
def arrival : List Moment :=
  [.managed (.place (some "porter")), .called .enter "porter",
    .did (.note (.callback .enter (some "porter")))]

/-- The porter is called for the last time. -/
def farewell : List Moment :=
  [.called .exit "porter", .did (.note (.callback .exit (some "porter")))]

/-- The garden is entered when the porter has done its last deed. -/
def departure : List Moment :=
  [.managed (.releaseNode "porter"), .managed (.place (some "garden")), .called .enter "garden"]

/-- What the porter registers for the whole run. -/
def listenToBell : Deed := .subscribe "bell" (.notify "run:bell")

/-- What the porter registers for as long as it is active. -/
def listenToKnock : Deed := .subscribeForNode "knock" (.notify "node:knock")

/-- When the porter has been left, of what it has registered there is only the registration for
the whole run. -/
theorem registrations_end_with_their_node_porter :
    let run := [.start, .enter "garden"]
    let session := (performAll run (outset (lodge.graph [] none) (.attach {}) {})).session
    HostAllowed Deed.NeverPlaces run ∧
      ⟨⟨0, "bell"⟩, .notify "run:bell"⟩ ∈ session.hub.bus.registrations ∧
      ¬ session.hub.bus.isLive ⟨1, "knock"⟩ ∧ ¬ session.hub.bus.isLive ⟨2, "knock"⟩ := by
  intro run session
  have hosts : HostAllowed Deed.NeverPlaces run := by
    intro d hd
    simp [run] at hd
  have hmoments : chronicle lodgeConduct.deeds run (outset (lodge.graph [] none) (.attach {}) {}) =
      arrival ++ .did listenToBell :: .did listenToKnock ::
        (farewell ++ .did (.watch "knock") :: departure) := by
    rfl
  obtain ⟨-, ⟨hsession, -⟩, hforNode, -, hforRun⟩ :=
    registrations_end_with_their_node lodgeConduct {} {} run hosts
  rw [hmoments] at hsession hforNode hforRun
  have hfinal : session = Moment.replayAll (arrival ++ .did listenToBell :: .did listenToKnock ::
      (farewell ++ .did (.watch "knock") :: departure)) (.attach {}) := hsession
  refine ⟨hosts, ?_, ?_, ?_⟩
  · have hbell := hforRun arrival "bell" (.notify "run:bell")
      (.did listenToKnock :: (farewell ++ .did (.watch "knock") :: departure)) []
      (by rw [List.append_nil]; rfl)
    rw [hfinal]
    refine hbell ?_ (by simp [listenToKnock, farewell, departure])
    intro d hd
    simp only [listenToKnock, farewell, departure, List.cons_append, List.nil_append,
      List.mem_cons, Moment.did.injEq, reduceCtorEq, List.not_mem_nil, or_false, false_or] at hd
    rcases hd with rfl | rfl | rfl <;> exact id
  · have hknock := hforNode (arrival ++ [.did listenToBell]) listenToKnock "knock" "porter"
      (farewell ++ .did (.watch "knock") :: departure) [] (by simp) rfl (by decide +kernel)
      (.inl (by simp [departure]))
    have hid : (Moment.replayAll (arrival ++ [.did listenToBell])
      (.attach {})).hub.bus.nextId = 1 := rfl
    rw [hfinal]
    rw [hid] at hknock
    simpa using hknock
  · have hknock := hforNode (arrival ++ .did listenToBell :: .did listenToKnock :: farewell)
      (.watch "knock") "knock" "porter" departure [] (by simp) rfl (by decide +kernel)
      (.inl (by simp [departure]))
    have hid : (Moment.replayAll (arrival ++ .did listenToBell :: .did listenToKnock :: farewell)
      (.attach {})).hub.bus.nextId = 2 := rfl
    rw [hfinal]
    rw [hid] at hknock
    simpa using hknock

end Command
end WorkflowGraph
