import WorkflowGraph.Proofs.Coherence
import WorkflowGraph.Proofs.Teardown
import WorkflowGraph.Proofs.Waiting

/-!
# Starts that fail

A graph with defects is never started.  A runner that is told to start it seeds and resets its
context and empties its queue, is refused, and leaves it at that: nobody is called, and its machine
is as it was.  Nothing that has been registered through its context is left.

Its bindings are another matter.  A start that succeeds ends with enabling them, and a start that
fails does not touch them; so what a host has enabled before goes on letting events through to a
queue that no run will work off (`Move.start_of_defects_spares_bindings`).  The runner is inert
afterwards (`World.Inert`) exactly if its bindings were disabled before.

As in `Move.stop_tears_down` it matters for this who has registered which handler, so nobody may
dispose of a token of a runner's bindings or hand over a handler for an inbox or a queue.
-/

namespace WorkflowGraph

open Command

/-! ## What waits after any number of publications -/

namespace Hub

lemma bound_publish (h : Hub) (event : String) (runner : Nat) :
    (h.publish event).bound runner = h.bound runner := by
  rw [bound, ties, bus_publish]
  rfl

/-- What is published is led to the queue, event by event. -/
lemma queue_foldl_publish (events : List String) (h : Hub) (runner : Nat)
    (short : (h.queue runner).length ≤ queueLimit) :
    (events.foldl publish h).queue runner =
      (h.queue runner ++ events.flatMap (Binding.targets (h.bound runner))).rtake queueLimit := by
  induction events generalizing h with
  | nil => rw [List.foldl_nil, List.flatMap_nil, List.append_nil, List.rtake_eq_self_iff.mpr short]
  | cons event rest ih =>
      have hfirst := queue_publish h event runner short
      have hshort : ((h.publish event).queue runner).length ≤ queueLimit := by
        rw [hfirst]
        exact List.length_rtake_le _ _
      -- Keeping the last entries after each event or once at the end comes to the same.
      rw [List.foldl_cons, ih _ hshort, hfirst, bound_publish, List.rtake_rtake_append,
        List.append_assoc, List.flatMap_cons]

end Hub

/-! ## The machines of those who share a hub -/

lemma Runner.coherent_resumedOn {g : Graph} {r : Runner} (coherent : Machine.Coherent g r.machine)
    (h : Hub) : Machine.Coherent g (r.resumedOn h).machine := by
  cases coherent with
  | running underway valid moved =>
      exact .running ⟨underway.graph, underway.isRunning, underway.current⟩ valid moved
  | stopped resting fresh =>
      exact .stopped ⟨resting.graph, resting.isRunning, resting.current⟩ fresh

/-- The machine of a party that is a runner runs only if its graph has no defects. -/
def Party.Coherent : Party → Prop
  | .alone _ => True
  | .runner graph _ r => Machine.Coherent graph r.machine

/-- A party stays coherent whatever it is told. -/
lemma Party.coherent_perform {party : Party} (coherent : party.Coherent) (o : Order) (h : Hub) :
    (party.perform o h).1.Coherent := by
  cases party with
  | alone c =>
      unfold perform
      cases o.hosted with
      | none => trivial
      | some d => trivial
  | runner graph conduct r =>
      have hperformed := Command.coherent_performAll (o.commands (r.resumedOn h))
        (Runner.coherent_resumedOn coherent h)
      rwa [← Order.machine_perform] at hperformed

namespace World

variable {w : World} {i : Nat} {graph : Graph} {conduct : graph.Conduct fun _ => True} {r : Runner}

/-- A world of coherent parties stays one through every move. -/
lemma coherent_perform (coherent : ∀ party ∈ w.parties, party.Coherent) (m : Move) :
    ∀ party ∈ (m.perform w).parties, party.Coherent := by
  have hjoin : ∀ new : Party, new.Coherent → ∀ party ∈ w.parties ++ [new], party.Coherent := by
    intro new hnew party hparty
    rcases List.mem_append.mp hparty with hold | hlast
    · exact coherent party hold
    · rw [List.mem_singleton.mp hlast]
      exact hnew
  cases m with
  | attach => exact hjoin (.alone _) trivial
  | create graph conduct settings =>
      exact hjoin (.runner graph conduct _) (Machine.Coherent.stopped ⟨rfl, rfl, rfl⟩ rfl)
  | order i o =>
      simp only [Move.perform]
      cases h : w.parties[i]? with
      | none => exact coherent
      | some own =>
          intro party hparty
          rcases List.mem_or_eq_of_mem_set hparty with hold | rfl
          · exact coherent party hold
          · exact Party.coherent_perform (coherent own (List.mem_of_getElem? h)) o w.hub
  | subscribe | dispose | publish => exact coherent

lemma coherent_performAll (coherent : ∀ party ∈ w.parties, party.Coherent) (moves : List Move) :
    ∀ party ∈ (Move.performAll moves w).parties, party.Coherent := by
  induction moves generalizing w with
  | nil => exact coherent
  | cons m rest ih => exact ih (coherent_perform coherent m)

/-- A runner for a graph with defects is stopped, whatever has happened so far. -/
lemma resting_of_defects {moves : List Move}
    (h : (Move.performAll moves {}).parties[i]? = some (.runner graph conduct r))
    (invalid : graph.defects ≠ []) (hub : Hub) :
    Machine.Resting graph (r.resumedOn hub).machine := by
  have hparties : ∀ party ∈ (Move.performAll moves {}).parties, party.Coherent :=
    coherent_performAll (fun party hparty => by cases hparty) moves
  have hcoherent : (Party.runner graph conduct r).Coherent := hparties _ (List.mem_of_getElem? h)
  cases Runner.coherent_resumedOn hcoherent hub with
  | running underway valid => exact absurd valid invalid
  | stopped resting => exact resting

/-- The handlers that lead to the queue of a runner are those that it has registered. -/
lemma Addressed.ties_eq (addressed : w.Addressed) (sound : w.Sound)
    (h : w.parties[i]? = some (.runner graph conduct r)) :
    w.hub.ties r.address = w.ledger.held (.bindings i) := by
  have howns : w.addressOf (.bindings i) = some r.address := by
    simp [addressOf, h, Party.address?]
  have hbinds : w.ledger.Binds i r := sound.bound i _ h
  rw [Hub.ties, sound.mirrors.registrations, List.filter_map, Ledger.held]
  congr 1
  apply List.filter_congr
  intro e he
  rw [Bool.eq_iff_iff, beq_iff_eq, Function.comp_apply]
  constructor
  -- A handler that leads there has the address of the queue, and the address has one owner only.
  · intro leads
    obtain ⟨target, htarget⟩ := Handler.exists_of_isSome_target? leads
    have haddress : e.registration.handler.address? = some r.address := by
      rw [htarget]
      rfl
    have howner := addressed.owned e (List.mem_filter.mp he).1 _ haddress
    exact addressed.once _ _ _ howner howns
  · intro hmaker
    have hheld : e.registration ∈ w.ledger.held (.bindings i) :=
      List.mem_map_of_mem (List.mem_filter.mpr ⟨he, by simpa using hmaker⟩)
    have hmem := List.mem_map_of_mem
      (f := fun x : Registration Handler => (x.token.event, x.handler)) hheld
    rw [hbinds.bindings] at hmem
    cases henabled : r.enabled with
    | false => simp [henabled] at hmem
    | true =>
        rw [henabled, if_pos rfl] at hmem
        obtain ⟨b, -, hb⟩ := List.mem_map.mp hmem
        rw [← (Prod.mk.inj hb).2]
        simp [Handler.target?]

/-- The registrations of a runner are those of its bindings, while they are enabled. -/
lemma Addressed.bound_eq (addressed : w.Addressed) (sound : w.Sound)
    (h : w.parties[i]? = some (.runner graph conduct r)) :
    w.hub.bound r.address = r.active := by
  have hbinds : w.ledger.Binds i r := sound.bound i _ h
  let binding (x : String × Handler) : Option Binding :=
    (x.2.target? r.address).map fun target => ⟨x.1, target⟩
  have hbound : w.hub.bound r.address =
      ((w.ledger.held (.bindings i)).map fun x => (x.token.event, x.handler)).filterMap
        binding := by
    rw [Hub.bound, addressed.ties_eq sound h, List.filterMap_map]
    rfl
  rw [hbound, hbinds.bindings, Runner.active]
  cases r.enabled with
  | false => rfl
  | true =>
      simp only [if_true, List.filterMap_map]
      refine (List.filterMap_congr fun b _ => ?_).trans List.filterMap_some
      simp [binding, Handler.target?]

/-- What is published is led to the empty queue of a runner by the bindings that are enabled. -/
lemma Addressed.queue_performAll_publish (addressed : w.Addressed) (sound : w.Sound)
    (h : w.parties[i]? = some (.runner graph conduct r)) (empty : w.hub.queue r.address = [])
    (events : List String) :
    (Move.performAll (events.map .publish) w).hub.queue r.address =
      (events.flatMap (Binding.targets r.active)).rtake Hub.queueLimit := by
  have hshort : (w.hub.queue r.address).length ≤ Hub.queueLimit := by
    rw [empty]
    exact Nat.zero_le _
  rw [Move.performAll_publish, Hub.queue_foldl_publish events w.hub r.address hshort, empty,
    addressed.bound_eq sound h, List.nil_append]

end World

lemma Move.perform_order {w : World} {i : Nat} {graph : Graph}
    {conduct : graph.Conduct fun _ => True} {r : Runner}
    (h : w.parties[i]? = some (.runner graph conduct r)) (o : Order) :
    ((order i o).perform w).parties[i]? =
        some (.runner graph conduct (o.perform (r.resumedOn w.hub))) ∧
      ((order i o).perform w).hub = (o.perform (r.resumedOn w.hub)).hub := by
  have hlt : i < w.parties.length := (List.getElem?_eq_some_iff.mp h).1
  simp only [perform, h, List.getElem?_set_self hlt]
  exact ⟨rfl, rfl⟩

/-! ## Starting a graph with defects -/

namespace Runner

variable {g : Graph} {r : Runner}

/-- A runner that has been seeded is where it was, nothing is tracked in its context, and nothing
waits in its mailbox, in its inbox or in its queue. -/
lemma empty_seeded (resting : Machine.Resting g r.machine) :
    Machine.Resting g r.seeded.machine ∧
      r.seeded.machine.session.context.subscriptions = [] ∧
      r.seeded.machine.session.context.requested = none ∧
      r.seeded.machine.session.inbox = ∅ ∧ r.seeded.pending = [] := by
  refine ⟨⟨resting.graph, resting.isRunning, resting.current⟩, rfl, rfl, ?_, ?_⟩
  · exact (Hub.inbox_clearInbox _ _ _).trans (if_pos rfl)
  · exact (Hub.queue_clearQueue _ _ _).trans (if_pos rfl)

/-- The runner is left as it has been seeded, and nobody is called. -/
lemma start_of_defects (resting : Machine.Resting g r.machine) (invalid : g.defects ≠ []) :
    r.start = (.error (.invalidGraph g.defects), r.seeded) ∧
      ∀ deeds, Order.start.moments deeds r =
        [.managed (.seed (Entry.overlay g.defaults r.overrides)), .managed .reset,
          .managed (.clearQueue r.address)] := by
  obtain ⟨rfl, hstopped, -⟩ := resting
  have hmachine := fun deeds =>
    Machine.start_of_defects (m := r.seeded.machine) hstopped invalid deeds
  have hstart := start_of_error hstopped (hmachine fun _ _ _ => []).1
  refine ⟨hstart, fun deeds => ?_⟩
  have hcommands : r.startCommands = r.seedCommands ++ [.start] := by
    rw [startCommands, hstopped, hstart]
    rfl
  have hmoments : Order.start.moments deeds r =
      Command.ownChronicle deeds r.seedCommands r.machine ++
        Command.ownChronicle deeds [.start] r.seeded.machine := by
    show Command.ownChronicle deeds r.startCommands r.machine = _
    rw [hcommands, Command.ownChronicle_append, ← machine_seeded]
  have hnothing : Command.ownChronicle deeds [.start] r.seeded.machine = [] := by
    rw [Command.ownChronicle, Command.ownChronicle, List.append_nil]
    exact (hmachine deeds).2
  rw [hmoments, hnothing, List.append_nil]
  rfl

end Runner

/-- The runner has nothing on the bus and lets nothing through, whatever is published, and its
machine is nowhere. -/
structure World.Inert (w : World) (i : Nat) (r : Runner) : Prop where
  disabled : r.enabled = false
  bindings : w.registrationsBy (.bindings i) = []
  context : w.registrationsBy (.context i) = []
  pending : r.pending = []
  deaf : ∀ events : List String,
    (Move.performAll (events.map .publish) w).hub.queue r.address = []
  stopped : r.machine.isRunning = false
  current : r.machine.current = none

/-- Among those runners whose contexts and queues are empty it is the bindings that tell which of
them are inert. -/
lemma World.Sound.inert_iff {w : World} {i : Nat} {graph : Graph}
    {conduct : graph.Conduct fun _ => True} {r : Runner} (sound : w.Sound)
    (addressed : w.Addressed) (h : w.parties[i]? = some (.runner graph conduct r))
    (hub : w.hub = r.hub) (resting : Machine.Resting graph r.machine)
    (untracked : r.machine.session.context.subscriptions = []) (pending : r.pending = []) :
    w.Inert i r ↔ r.enabled = false := by
  refine ⟨Inert.disabled, fun disabled => ?_⟩
  have hbindings : w.ledger.held (.bindings i) = [] :=
    Ledger.Binds.held_of_disabled (sound.bound i _ h) disabled
  have hactive : r.active = [] := by simp [Runner.active, disabled]
  have hempty : w.hub.queue r.address = [] := hub ▸ pending
  constructor
  case disabled => exact disabled
  case bindings => exact sound.registrationsBy_eq_nil hbindings
  case context => exact sound.registrationsBy_eq_nil (sound.held_of_untracked h untracked)
  case pending => exact pending
  case deaf =>
      intro events
      have hnone : events.flatMap (Binding.targets r.active) = [] := by
        rw [hactive]
        exact List.flatMap_eq_nil_iff.mpr fun event _ => rfl
      rw [addressed.queue_performAll_publish sound h hempty, hnone]
      rfl
  case stopped => exact resting.isRunning
  case current => exact resting.current

/-- **A start that fails does not touch the bindings.**  Take a runner for a graph with defects,
after any moves of any parties that share its hub, with any nodes.  When it is told to start:

* it is refused with the defects; nobody is called, and its machine is as it was, which is stopped,
  except for the session;
* nothing that has been registered through its context is left on the bus, the mailbox and the inbox
  are empty, and so is its queue;
* its bindings are enabled afterwards exactly if they were so before, and whatever is published then
  is led to its queue by those that are;
* so it is inert exactly if its bindings were disabled. -/
theorem Move.start_of_defects_spares_bindings {moves : List Move} {i : Nat}
    (discreet : DiscreetAll (moves ++ [.order i .start]) {})
    (plain : PlainAll (moves ++ [.order i .start]) {}) {graph : Graph}
    {conduct : graph.Conduct fun _ => True} {r : Runner}
    (h : (performAll moves {}).parties[i]? = some (.runner graph conduct r))
    (invalid : graph.defects ≠ []) :
    let w := performAll moves {}
    let before := r.resumedOn w.hub
    let after := before.start.2
    let w' := (order i .start).perform w
    (w'.parties[i]? = some (.runner graph conduct after) ∧ w'.hub = after.hub) ∧
    (before.start.1 = .error (.invalidGraph graph.defects) ∧
      calls (Order.start.moments conduct.deeds before) = [] ∧
      after.machine = before.machine.onSession (fun _ => after.machine.session) ∧
      after.machine.isRunning = false ∧ after.machine.current = none) ∧
    (w'.registrationsBy (.context i) = [] ∧ after.machine.session.context.requested = none ∧
      after.machine.session.inbox = ∅ ∧ after.pending = []) ∧
    (after.enabled = r.enabled ∧
      ∀ events : List String, (performAll (events.map .publish) w').hub.queue after.address =
        (events.flatMap (Binding.targets r.active)).rtake Hub.queueLimit) ∧
    (w'.Inert i after ↔ r.enabled = false) := by
  intro w before after w'
  obtain ⟨hdiscreet, hdiscreetStart, -⟩ := discreetAll_append.mp discreet
  obtain ⟨hplain, hplainStart, -⟩ := plainAll_append.mp plain
  have hsound : w.Sound := World.sound_empty.performAll hdiscreet
  have hsound' : w'.Sound := hsound.perform hdiscreetStart
  have haddressed' : w'.Addressed :=
    (World.addressed_empty.performAll World.sound_empty hdiscreet hplain).perform hsound hplainStart
  obtain ⟨hparty, hhub⟩ : w'.parties[i]? = some (.runner graph conduct after) ∧
      w'.hub = after.hub := perform_order h .start
  have hresting : Machine.Resting graph before.machine := World.resting_of_defects h invalid w.hub
  obtain ⟨hstart, hmoments⟩ := Runner.start_of_defects hresting invalid
  -- The machine refuses, so that the start comes to no more than the seeding before it.
  have hafter : after = before.seeded := congrArg Prod.snd hstart
  obtain ⟨hrests, huntracked, hrequested, hinbox, hpending⟩ := Runner.empty_seeded hresting
  rw [← hafter] at hrests huntracked hrequested hinbox hpending
  have hcontext : w'.registrationsBy (.context i) = [] :=
    hsound'.registrationsBy_eq_nil (hsound'.held_of_untracked hparty huntracked)
  have henabled : after.enabled = r.enabled := by rw [hafter]; rfl
  have hactive : after.active = r.active := by rw [hafter]; rfl
  refine ⟨⟨hparty, hhub⟩, ⟨congrArg Prod.fst hstart, ?_, ?_, hrests.isRunning, hrests.current⟩,
    ⟨hcontext, hrequested, hinbox, hpending⟩, ⟨henabled, fun events => ?_⟩, ?_⟩
  · rw [hmoments]
    rfl
  · rw [hafter]
    rfl
  · rw [haddressed'.queue_performAll_publish hsound' hparty (hhub ▸ hpending), hactive]
  · rw [hsound'.inert_iff haddressed' hparty hhub hrests huntracked hpending, henabled]

/-! ### A gate -/

/-- A gate that a way leaves for a moor that is not in the graph, and a runner whose bindings are
enabled before it is started. -/
def Move.watchedGate : List Move :=
  let cast : Cast Deed.KeepsPlace := [("gate", .idle)]
  let ways := [.make "way" "gate" "Next" "moor"]
  [.create (cast.graph ways none) ((cast.conduct ways none).weaken fun _ _ => trivial)
      { bindings := [⟨"intruder", "gate"⟩] },
    .order 0 .enable, .publish "intruder"]

/-- A start that fails forgets the intruder who waits, and lets the next ones through; if the
bindings are disabled before it, the runner is inert. -/
theorem Move.start_of_defects_spares_bindings_gate :
    let watched := performAll watchedGate {}
    let unwatched := performAll (watchedGate ++ [.order 0 .disable]) {}
    (DiscreetAll (watchedGate ++ [.order 0 .start]) {} ∧
      PlainAll (watchedGate ++ [.order 0 .start]) {} ∧
      ∃ graph conduct r, watched.parties[0]? = some (.runner graph conduct r) ∧
        graph.defects ≠ [] ∧ watched.hub.queue r.address = ["gate"] ∧
        (r.resumedOn watched.hub).start.2.pending = [] ∧
        (performAll (["intruder", "intruder"].map .publish)
          ((order 0 .start).perform watched)).hub.queue r.address = ["gate", "gate"]) ∧
    ∃ graph conduct r, unwatched.parties[0]? = some (.runner graph conduct r) ∧
      graph.defects ≠ [] ∧
      ((order 0 .start).perform unwatched).Inert 0 (r.resumedOn unwatched.hub).start.2 := by
  intro watched unwatched
  have discreet : DiscreetAll (watchedGate ++ [.order 0 .start]) {} := by decide +kernel
  have plain : PlainAll (watchedGate ++ [.order 0 .start]) {} := by decide +kernel
  have discreet' : DiscreetAll ((watchedGate ++ [.order 0 .disable]) ++ [.order 0 .start]) {} := by
    decide +kernel
  have plain' : PlainAll ((watchedGate ++ [.order 0 .disable]) ++ [.order 0 .start]) {} := by
    decide +kernel
  obtain ⟨-, -, ⟨-, -, -, hpending⟩, ⟨-, hqueue⟩, -⟩ :=
    start_of_defects_spares_bindings discreet plain rfl (by decide +kernel)
  obtain ⟨-, -, -, -, hinert⟩ :=
    start_of_defects_spares_bindings discreet' plain' rfl (by decide +kernel)
  refine ⟨⟨discreet, plain, _, _, _, rfl, by decide +kernel, by decide +kernel, hpending, ?_⟩,
    _, _, _, rfl, by decide +kernel, hinert.mpr rfl⟩
  exact (hqueue ["intruder", "intruder"]).trans (by decide +kernel)

/-- After the start has been refused, the bindings are still enabled, and the next intruder is led
to the queue. -/
theorem Move.failed_start_lets_events_through :
    let watched := performAll watchedGate {}
    let later := performAll [.order 0 .start, .publish "intruder"] watched
    ∃ graph conduct r r', watched.parties[0]? = some (.runner graph conduct r) ∧
      (r.resumedOn watched.hub).start.1.isOk = false ∧
      later.parties[0]? = some (.runner graph conduct r') ∧
      r'.machine.isRunning = false ∧ r'.enabled = true ∧
      (later.registrationsBy (.bindings 0)).length = 1 ∧
      later.hub.queue r'.address = ["gate"] := by
  refine ⟨_, _, _, _, rfl, ?_, rfl, ?_, ?_, ?_, ?_⟩
  · decide +kernel
  · decide +kernel
  · decide +kernel
  · decide +kernel
  · decide +kernel

end WorkflowGraph
