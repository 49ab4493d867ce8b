import WorkflowGraph.Proofs.Overlay
import WorkflowGraph.Proofs.Phases
import WorkflowGraph.Proofs.Starting

/-!
# What a run starts from

A start replaces the entries that the context is reset to by the overrides laid over the defaults of
the graph, and resets the context, before it starts the machine.  So when the entry node is called
for the first time, the session is as these entries say (`Session.SeededBy`), and nothing is left of
what was there before.

Only a start and somebody who seeds the context behind the back of the runner ever replace the
entries (`Order.seed_of_managed_mem_chronicle`).  As long as nobody does the latter, every reset
brings back what the run has started from: `Runner.runs_start_from_seeds`.
-/

namespace WorkflowGraph

/-! ## Sessions that are seeded -/

/-- The session is as the overrides laid over the defaults say: they are what is on the blackboard,
and there is nothing that a run could have left. -/
structure Session.SeededBy (defaults overrides : List Entry) (s : Session) : Prop where
  /-- The blackboard holds the keys that occur, and no others. -/
  keys : ∀ key, key ∈ s.context.blackboard ↔
    key ∈ Entry.keys defaults ∨ key ∈ Entry.keys overrides
  /-- Each key has the value that it has last, in the overrides if it occurs there. -/
  seeds : ∀ key, s.context.blackboard.seed? key =
    (Entry.valueOf? overrides key).or (Entry.valueOf? defaults key)
  /-- Whoever reads a key gets this value if it has the type asked for, and the default
  otherwise. -/
  reads : ∀ key default, s.context.blackboard.read key default =
    match (Entry.valueOf? overrides key).or (Entry.valueOf? defaults key) with
    | some value => if (Stored.seed value).type = default.type then .seed value else default
    | none => default
  requested : s.context.requested = none
  inbox : s.inbox = ∅
  subscriptions : s.context.subscriptions = []
  liveCount : s.liveCount = 0

namespace Session

variable {defaults overrides : List Entry}

/-- What there is to say of a session that has been seeded. -/
lemma seededBy_of_getElem? {s : Session}
    (values : ∀ key, s.context.blackboard[key]? =
      ((Entry.valueOf? overrides key).or (Entry.valueOf? defaults key)).map .seed)
    (requested : s.context.requested = none) (inbox : s.inbox = ∅)
    (subscriptions : s.context.subscriptions = []) : s.SeededBy defaults overrides where
  keys key := by
    rw [Std.ExtTreeMap.mem_iff_isSome_getElem?, values, Option.isSome_map, Option.isSome_or,
      Bool.or_eq_true, Entry.isSome_valueOf?_iff, Entry.isSome_valueOf?_iff, or_comm]
  seeds key := by
    rw [Blackboard.seed?, values]
    cases (Entry.valueOf? overrides key).or (Entry.valueOf? defaults key) <;> rfl
  reads key default := by
    rw [Blackboard.read, Blackboard.typed?, values]
    cases (Entry.valueOf? overrides key).or (Entry.valueOf? defaults key) with
    | none => rfl
    | some value =>
        by_cases htype : (Stored.seed value).type = default.type
        · simp [Option.filter, htype]
        · simp [Option.filter, htype]
  requested := requested
  inbox := inbox
  subscriptions := subscriptions
  liveCount := by simp [liveCount, subscriptions]

lemma SeededBy.of_eq {s s' : Session} (seeded : s.SeededBy defaults overrides)
    (blackboard : s'.context.blackboard = s.context.blackboard)
    (requested : s'.context.requested = s.context.requested) (inbox : s'.inbox = s.inbox)
    (subscriptions : s'.context.subscriptions = s.context.subscriptions) :
    s'.SeededBy defaults overrides where
  keys := blackboard ▸ seeded.keys
  seeds := blackboard ▸ seeded.seeds
  reads := blackboard ▸ seeded.reads
  requested := requested.trans seeded.requested
  inbox := inbox.trans seeded.inbox
  subscriptions := subscriptions.trans seeded.subscriptions
  liveCount := by simp [Session.liveCount, subscriptions, seeded.subscriptions]

lemma seededBy_reset {s : Session} (h : s.context.initial = Entry.overlay defaults overrides) :
    s.reset.SeededBy defaults overrides := by
  refine seededBy_of_getElem? (fun key => ?_) rfl ?_ rfl
  · show ((∅ : Blackboard).writeAll s.context.initial)[key]? = _
    rw [Blackboard.getElem?_writeAll, h, Entry.valueOf?_overlay, Entry.valueOf?_append,
      Std.ExtTreeMap.getElem?_empty, Option.or_none]
  · exact (Hub.inbox_clearInbox _ _ _).trans (if_pos rfl)

/-- What has been reset is left as it is by another reset. -/
lemma reset_reset (s : Session) : s.reset.reset = s.reset := by
  have hinboxes : ∀ h : Hub, ∀ address, (h.clearInbox address).clearInbox address =
      h.clearInbox address := by
    intro h address
    have herase : (h.inboxes.erase address).erase address = h.inboxes.erase address := by
      apply Std.ExtTreeMap.ext_getElem?
      intro a
      rw [Std.ExtTreeMap.getElem?_erase, Std.ExtTreeMap.getElem?_erase]
      split <;> rfl
    simp only [Hub.clearInbox, herase]
  have hreset : s.reset.reset =
      ⟨s.reset.context, s.reset.hub.clearInbox s.context.address⟩ := rfl
  rw [hreset]
  exact congrArg (Session.mk s.reset.context) (hinboxes _ _)

/-- What a reset has ended does not come back to life. -/
lemma not_isLive_reset (s : Session) {sub : Subscription} (h : sub ∈ s.context.subscriptions) :
    ¬ s.reset.hub.bus.isLive sub.token := by
  have hhub : s.reset.hub.bus =
      (s.hub.disposeEach (s.context.subscriptions.map (·.token))).bus := rfl
  rw [hhub, Hub.disposeEach_eq, Bus.isLive_iff]
  rintro ⟨r, hr, htoken⟩
  have hother := (List.mem_filter.mp hr).2
  simp [htoken, List.mem_map_of_mem h] at hother

end Session

/-! ## The entries stay -/

/-- If the deed replaces the entries that the context is reset to, it does so by these. -/
def Deed.SeedsOnly (entries : List Entry) : Deed → Prop
  | .seed other => other = entries
  | _ => True

/-- If the moment replaces the entries that the context is reset to, it does so by these. -/
def Moment.SeedsOnly (entries : List Entry) : Moment → Prop
  | .did d | .managed d => d.SeedsOnly entries
  | .called .. | .compared => True

variable {entries : List Entry}

lemma Deed.SeedsOnly.initial_perform {d : Deed} (only : d.SeedsOnly entries) {s : Session}
    (h : s.context.initial = entries) : (d.perform s).context.initial = entries := by
  cases d with
  | seed other => exact only
  | flush =>
      obtain ⟨blackboard, hcontext⟩ := exists_flush_context s
      exact (congrArg (·.initial) hcontext).trans h
  | _ => exact h

lemma Moment.initial_replayAll {moments : List Moment} (only : ∀ x ∈ moments, x.SeedsOnly entries)
    {s : Session} (h : s.context.initial = entries) :
    (replayAll moments s).context.initial = entries := by
  induction moments generalizing s with
  | nil => exact h
  | cons x rest ih =>
      refine ih (fun y hy => only y (List.mem_cons_of_mem x hy)) ?_
      have hfirst := only x List.mem_cons_self
      cases x with
      | called | compared => exact h
      | did d | managed d => exact Deed.SeedsOnly.initial_perform hfirst h

namespace Order

open Command Runner

variable {g : Graph} {Allowed : Deed → Prop}

/-- What a runner seeds its context with is the overrides laid over the defaults. -/
lemma seed_of_mem_commands {o : Order} {r : Runner} (h : .host (.seed entries) ∈ o.commands r) :
    o = .machine (.host (.seed entries)) ∨
      entries = Entry.overlay r.machine.graph.defaults r.overrides := by
  rcases arranges_of_mem_commands h with hhost | arranges
  · exact .inl hhost
  · cases arranges with
    | seed => exact .inr rfl

lemma seed_of_managed_mem_moments {r : Runner} (settled : Settled g r.machine)
    (p : g.Conduct Allowed) {o : Order} (h : .managed (.seed entries) ∈ o.moments p.deeds r) :
    entries = Entry.overlay r.machine.graph.defaults r.overrides := by
  have hmachine : ¬ ((Deed.seed entries).Tends ∨ (∃ n, Deed.seed entries = .releaseNode n) ∨
      (∃ n, Deed.seed entries = .place n) ∨ Deed.seed entries = .dispose) := by
    simp [Deed.Tends]
  cases o with
  | machine c => exact absurd (Command.of_managed_mem_moments settled p h) hmachine
  | _ =>
      have hhost := (of_managed_mem_ownChronicle settled p h).resolve_right hmachine
      exact (seed_of_mem_commands hhost).resolve_left nofun

/-- Whatever a runner is told, it only seeds its context with the overrides laid over the
defaults. -/
lemma seed_of_managed_mem_chronicle {r : Runner} (settled : Settled g r.machine)
    (p : g.Conduct Allowed) {orders : List Order}
    (h : .managed (.seed entries) ∈ chronicle p.deeds orders r) :
    entries = Entry.overlay g.defaults r.overrides := by
  induction orders generalizing r with
  | nil => cases h
  | cons o rest ih =>
      rcases List.mem_append.mp h with hfirst | hrest
      · rw [seed_of_managed_mem_moments settled p hfirst]
        exact congrArg (Entry.overlay ·.defaults r.overrides) (settled.elim (·.graph) (·.graph))
      · rw [ih (session_perform settled p o).1 hrest, (setup_perform o r).2.2]

/-- The first thing that happens at a start is that the context is seeded. -/
lemma exists_chronicle_start {r : Runner} (stopped : r.machine.isRunning = false)
    (deeds : Guid → Phase → Session → List Deed) (orders : List Order) :
    ∃ rest, chronicle deeds (.start :: orders) r =
      .managed (.seed (Entry.overlay r.machine.graph.defaults r.overrides)) :: rest := by
  obtain ⟨last, hcommands, -⟩ := start_eq stopped
  have hmoments : Order.start.moments deeds r =
      ownChronicle deeds (r.seedCommands ++ [.start] ++ last) r.machine :=
    congrArg (ownChronicle deeds · r.machine) hcommands
  rw [chronicle, hmoments]
  exact ⟨_, rfl⟩

/-- What a runner has been started with is still what its context is reset to, unless somebody else
has seeded it. -/
lemma initial_of_started {r : Runner} (settled : Settled g r.machine) (p : g.Conduct Allowed)
    (stopped : r.machine.isRunning = false) {orders : List Order} {before after : List Moment}
    {d : Deed} (h : chronicle p.deeds (.start :: orders) r = before ++ .did d :: after)
    (kept : ∀ entries, .did (.seed entries) ∉ before) (s : Session) :
    (Moment.replayAll before s).context.initial = Entry.overlay g.defaults r.overrides := by
  have hseeds : ∀ entries, .managed (.seed entries) ∈ before →
      entries = Entry.overlay g.defaults r.overrides := fun entries hentries =>
    seed_of_managed_mem_chronicle settled p (h ▸ List.mem_append_left _ hentries)
  obtain ⟨rest, hrest⟩ := exists_chronicle_start stopped p.deeds orders
  rw [hrest] at h
  cases before with
  | nil => cases (List.cons.inj h).1
  | cons x before =>
      obtain ⟨rfl, -⟩ := List.cons.inj h
      have hfirst := hseeds _ List.mem_cons_self
      rw [Moment.replayAll_cons]
      -- A start begins with the seeding, and whatever is seeded later is seeded with the same.
      refine Moment.initial_replayAll (fun x hx => ?_) hfirst
      cases x with
      | called | compared => trivial
      | did own =>
          cases own with
          | seed entries => exact absurd (List.mem_cons_of_mem _ hx) (kept entries)
          | _ => trivial
      | managed own =>
          cases own with
          | seed entries => exact hseeds entries (List.mem_cons_of_mem _ hx)
          | _ => trivial

end Order

namespace Runner

open Command

variable {g : Graph} {Allowed : Deed → Prop}

/-- The session with which a start calls the entry node for the first time. -/
def entering (r : Runner) (entry : Guid) : Session :=
  r.seeded.machine.session.onContext fun c => { c with currentNode := some entry }

lemma seededBy_entering (r : Runner) (entry : Guid) :
    (r.entering entry).SeededBy r.machine.graph.defaults r.overrides := by
  let initial := Entry.overlay r.machine.graph.defaults r.overrides
  have hreset : ((Deed.seed initial).perform r.machine.session).reset.SeededBy
      r.machine.graph.defaults r.overrides := Session.seededBy_reset rfl
  exact hreset.of_eq rfl rfl rfl rfl

/-- **Every run starts from what has been seeded.**  Take a runner on a graph without defects, with
any overrides, after any orders that leave it stopped, and put any session in the place of its own.
A start succeeds.  When it calls the entry node, the session is seeded by the defaults of the graph
and the overrides (`Session.SeededBy`), and no registration that the context had made is left.

Whatever the runner is told then, when a node or the host resets the context, it is as seeded as
before and has the same blackboard, provided that nobody but the runner has replaced the entries
that it is reset to; and another reset changes nothing. -/
theorem runs_start_from_seeds (p : g.Conduct Allowed) (valid : g.defects = []) (h : Hub)
    (settings : RunnerSettings) (earlier : List Order) (s : Session)
    (stopped : (Order.performAll earlier (create g h settings)).machine.isRunning = false) :
    let r := (Order.performAll earlier (create g h settings)).onSession fun _ => s
    ∃ entry b, g.resolvedEntry = some entry ∧ g.behaviour? entry = some b ∧
      (r.start = (.ok (), { r.seeded with machine := r.seeded.machine.startedAt entry b }.enable) ∧
        (r.seeded.machine.startedAt entry b).session = b.onEnter (r.entering entry)) ∧
      (r.entering entry).context.currentNode = some entry ∧
      (r.entering entry).SeededBy g.defaults settings.overrides ∧
      (∀ sub ∈ s.context.subscriptions, ¬ (r.entering entry).hub.bus.isLive sub.token) ∧
      ∀ orders before after,
        Order.chronicle p.deeds (.start :: orders) r = before ++ .did .reset :: after →
        (∀ entries, .did (.seed entries) ∉ before) →
          let restored := Moment.replayAll (before ++ [.did .reset]) s
          restored.SeededBy g.defaults settings.overrides ∧
            restored.context.blackboard = (r.entering entry).context.blackboard ∧
            restored.reset = restored := by
  intro r
  have hresting : Machine.Resting g r.machine := by
    rcases (Order.session_performAll (settled_create g h settings) p earlier).1 with
      underway | resting
    · rw [underway.isRunning] at stopped
      cases stopped
    · exact ⟨resting.graph, resting.isRunning, resting.current⟩
  have hoverrides : r.overrides = settings.overrides :=
    (Order.setup_performAll earlier (create g h settings)).2.2
  obtain ⟨entry, b, hentry, hb, hstart, -⟩ := Machine.start_of_resting
    (m := r.seeded.machine) ⟨hresting.graph, hresting.isRunning, hresting.current⟩ valid
  have hseeded := r.seededBy_entering entry
  rw [hresting.graph, hoverrides] at hseeded
  refine ⟨entry, b, hentry, hb, ⟨start_of_ok hresting.isRunning hstart, rfl⟩, rfl, hseeded, ?_, ?_⟩
  · intro sub hsub
    exact Session.not_isLive_reset
      ((Deed.seed (Entry.overlay r.machine.graph.defaults r.overrides)).perform s) hsub
  · intro orders before after hmoments kept restored
    have hinitial := Order.initial_of_started (.inr hresting) p hresting.isRunning hmoments kept s
    rw [hoverrides] at hinitial
    have hrestored : restored = (Moment.replayAll before s).reset := Moment.replayAll_append _ _ _
    have hagain : restored.SeededBy g.defaults settings.overrides := by
      rw [hrestored]
      exact Session.seededBy_reset hinitial
    refine ⟨hagain, ?_, by rw [hrestored, Session.reset_reset]⟩
    -- The blackboard of the entry was written from the seeds, as a reset writes it.
    have hentering : (r.entering entry).context.blackboard =
        (∅ : Blackboard).writeAll (Entry.overlay r.machine.graph.defaults r.overrides) := rfl
    rw [hentering, hresting.graph, hoverrides, ← hinitial, hrestored]
    rfl

/-! ### A front desk -/

/-- A node that takes down the hour and listens to the bell when it is entered, and forgets
everything when it is called again. -/
def frontDesk : Cast Deed.KeepsPlace :=
  [("desk", Script.actor
      { enter := [.set "hour" (.long 12), .request "cellar", .watch "bell"]
        fixed := [.reset] })]

/-- The graph of the desk, with an hour that is set twice. -/
def deskGraph : Graph :=
  [⟨"hour", .int 9⟩, ⟨"bell", .bool true⟩, ⟨"hour", .int 10⟩].foldl Graph.addDefault
    (frontDesk.graph [] none)

/-- What the desk does. -/
def deskConduct : deskGraph.Conduct Deed.KeepsPlace :=
  { frontDesk.conduct [] none with onPhase_eq := (frontDesk.conduct [] none).onPhase_eq }

/-- What happens at the desk before it forgets everything. -/
def deskMoments : List Moment :=
  [.managed (.seed [⟨"hour", .int 10⟩, ⟨"bell", .string "loud"⟩]), .managed .reset,
    .managed (.clearQueue 0), .managed (.place (some "desk")), .called .enter "desk",
    .did (.note (.callback .enter (some "desk"))), .did (.edit fun b => b.set "hour" (.long 12)),
    .did (.request "cellar"), .did (.watch "bell"), .managed (.elapseFixed 0.5),
    .called .fixedUpdate "desk", .did (.note (.callback .fixedUpdate (some "desk")))]

/-- A guest, a request and a bell from before are gone when the desk is entered: the hour is the
later one, and the bell is that of the override.  The reset at the desk brings this back. -/
theorem runs_start_from_seeds_desk :
    let settings : RunnerSettings := { overrides := [⟨"bell", .string "loud"⟩] }
    let old := Deed.performAll [.edit fun b => b.set "guest" (.long 7), .request "cellar",
      .watch "bell", .publish "bell"] .alone
    let r := (create deskGraph {} settings).onSession fun _ => old
    let restored := Moment.replayAll (deskMoments ++ [.did .reset]) old
    deskGraph.defects = [] ∧ (create deskGraph {} settings).machine.isRunning = false ∧
      (r.entering "desk").SeededBy deskGraph.defaults settings.overrides ∧
      (r.entering "desk").context.blackboard.seed? "hour" = some (.int 10) ∧
      (r.entering "desk").context.blackboard.read "bell" (.seed (.bool false)) =
        .seed (.bool false) ∧
      "guest" ∉ (r.entering "desk").context.blackboard ∧
      Order.chronicle deskConduct.deeds [.start, .machine (.tickFixed 0.5)] r =
        deskMoments ++ .did .reset :: [] ∧
      restored.context.blackboard = (r.entering "desk").context.blackboard ∧
      restored.reset = restored := by
  intro settings old r restored
  have hvalid : deskGraph.defects = [] := by decide +kernel
  have hstopped : (create deskGraph {} settings).machine.isRunning = false := rfl
  have hmoments : Order.chronicle deskConduct.deeds [.start, .machine (.tickFixed 0.5)] r =
      deskMoments ++ .did .reset :: [] := by
    rfl
  have hkept : ∀ entries, .did (.seed entries) ∉ deskMoments := by
    intro entries hentries
    simp [deskMoments] at hentries
  have hdesk : deskGraph.resolvedEntry = some "desk" := rfl
  obtain ⟨entry, b, hentry, -, -, -, hseeded, -, hresets⟩ :=
    runs_start_from_seeds deskConduct hvalid {} settings [] old hstopped
  obtain rfl : "desk" = entry := Option.some.inj (hdesk.symm.trans hentry)
  obtain ⟨-, hrestored, hagain⟩ := hresets _ deskMoments [] hmoments hkept
  have hguest : ¬ ("guest" ∈ Entry.keys deskGraph.defaults ∨
      "guest" ∈ Entry.keys settings.overrides) := by decide +kernel
  exact ⟨hvalid, hstopped, hseeded, hseeded.seeds "hour",
    hseeded.reads "bell" (.seed (.bool false)), fun h => hguest ((hseeded.keys "guest").mp h),
    hmoments, hrestored, hagain⟩

end Runner
end WorkflowGraph
