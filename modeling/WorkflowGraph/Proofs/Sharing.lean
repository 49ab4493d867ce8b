import WorkflowGraph.Proofs.BindingLeases
import WorkflowGraph.Proofs.Conduct

/-!
# Sharing a bus

Any number of contexts and runners may work on one hub, beside others who have nothing but its bus.
A `World` is such a hub with its parties, and a `Move` is one thing that one of them does: something
in the session of a party, an order given to a runner, or something on the bus itself.  Moves come
in any order.  The nodes of a runner may do any deeds, and what a handler does on the bus while an
event is published counts as done by whoever publishes, between two of his deeds.

No registration leaks (`Move.registrations_accounted`).  The premise is that nobody disposes of a
token that a runner has for its bindings; a runner hands none of them out.
-/

namespace WorkflowGraph

open Command

/-! ## Parties -/

/-- Who shares a hub: a context, or a runner for a graph whose nodes act by deeds. -/
inductive Party where
  | alone (c : Context)
  | runner (graph : Graph) (conduct : graph.Conduct fun _ => True) (r : Runner)

/-- The runner at its turn, on the hub as the others have left it. -/
def Runner.resumedOn (r : Runner) (h : Hub) : Runner := r.onSession fun s => s.onHub fun _ => h

/-- The deed of a host that an order amounts to. -/
def Order.hosted : Order → Option Deed
  | .machine (.host d) => some d
  | _ => none

namespace Party

/-- The context of a party. -/
def context : Party → Context
  | .alone c => c
  | .runner _ _ r => r.machine.session.context

/-- The session in which a party works at its turn. -/
def session (party : Party) (h : Hub) : Session := ⟨party.context, h⟩

/-- The party and the hub after an order.  With a context of its own there is nothing to do but the
deeds of a host. -/
def perform (o : Order) (h : Hub) : Party → Party × Hub
  | .alone c =>
    match o.hosted with
    | some d => (.alone (d.perform ⟨c, h⟩).context, (d.perform ⟨c, h⟩).hub)
    | none => (.alone c, h)
  | .runner graph conduct r =>
    (.runner graph conduct (o.perform (r.resumedOn h)), (o.perform (r.resumedOn h)).hub)

/-- What happens while a party carries out an order. -/
def moments (o : Order) (h : Hub) : Party → List Moment
  | .alone _ => o.hosted.toList.map .did
  | .runner _ conduct r => o.moments conduct.deeds (r.resumedOn h)

/-- The machine of a party that is a runner runs its graph or rests. -/
def Settled : Party → Prop
  | .alone _ => True
  | .runner graph _ r => Command.Settled graph r.machine

/-- What stands for the bindings of a party that is a runner is in order. -/
def Bound (l : Ledger) (i : Nat) : Party → Prop
  | .alone _ => True
  | .runner _ _ r => l.Binds i r

lemma settled_resumedOn {g : Graph} {r : Runner} (settled : Command.Settled g r.machine) (h : Hub) :
    Command.Settled g (r.resumedOn h).machine := by
  rcases settled with underway | resting
  · exact .inl ⟨underway.graph, underway.isRunning, underway.current⟩
  · exact .inr ⟨resting.graph, resting.isRunning, resting.current⟩

/-- The session after an order is the replay of what has happened. -/
lemma session_perform {party : Party} (settled : party.Settled) (o : Order) (h : Hub) :
    (party.perform o h).1.Settled ∧
      (party.perform o h).1.session (party.perform o h).2 =
        Moment.replayAll (party.moments o h) (party.session h) := by
  cases party with
  | alone c =>
      unfold perform moments
      cases o.hosted with
      | none => exact ⟨trivial, rfl⟩
      | some d => exact ⟨trivial, rfl⟩
  | runner graph conduct r => exact o.session_perform (settled_resumedOn settled h) conduct

lemma Bound.congr {party : Party} {l next : Ledger} {i : Nat} (bound : party.Bound l i)
    (held : next.held (.bindings i) = l.held (.bindings i)) : party.Bound next i := by
  cases party with
  | alone c => trivial
  | runner graph conduct r => exact ⟨held ▸ bound.tokens, held ▸ bound.bindings⟩

/-- Whatever a party is told, what stands for its bindings stays in order, and what stands for those
of others stays as it is. -/
lemma bound_perform {party : Party} {l : Ledger} {i : Nat} {h : Hub} (settled : party.Settled)
    (mirrors : l.Mirrors h.bus) (tracks : l.Tracks i party.context.subscriptions)
    (bound : party.Bound l i) (o : Order)
    (spared : ∀ t, .did (.disposeToken t) ∈ party.moments o h →
      ∀ runner, t ∉ l.tokens (.bindings runner)) :
    let next := l.noteAll i (party.moments o h) (party.session h)
    (party.perform o h).1.Bound next i ∧
      ∀ runner, runner ≠ i → next.held (.bindings runner) = l.held (.bindings runner) := by
  -- A party without a runner holds no bindings, and touches nobody else's.
  cases party with
  | alone c =>
      refine ⟨?_, fun runner _ => ?_⟩
      · unfold perform
        cases o.hosted with
        | none => trivial
        | some d => trivial
      · refine (Ledger.kept_noteAll runner mirrors tracks (fun t ht => spared t ht runner) ?_).2
        intro d hd
        simp [moments] at hd
  | runner graph conduct r =>
      exact Ledger.Binds.perform (r := r.resumedOn h) mirrors tracks ⟨bound.tokens, bound.bindings⟩
        (settled_resumedOn settled h) conduct o spared

end Party

/-! ## Worlds -/

/-- A hub, who shares it, and who has made which registration on its bus. -/
structure World where
  hub : Hub := {}
  parties : List Party := []
  ledger : Ledger := []

/-- Something that one of those who share a hub does. -/
inductive Move where
  /-- A new context comes to the hub. -/
  | attach
  /-- A new runner comes to the hub. -/
  | create (graph : Graph) (conduct : graph.Conduct fun _ => True) (settings : RunnerSettings)
  /-- A party is told to do something. -/
  | order (party : Nat) (o : Order)
  /-- Somebody registers a handler on the bus. -/
  | subscribe (event : String) (handler : Handler)
  /-- Somebody disposes of a token. -/
  | dispose (token : Token)
  | publish (event : String)

namespace Move

def perform : Move → World → World
  | .attach, w =>
    let s := Session.attach w.hub
    { w with hub := s.hub, parties := w.parties ++ [.alone s.context] }
  | .create graph conduct settings, w =>
    let r := Runner.create graph w.hub settings
    { w with hub := r.hub, parties := w.parties ++ [.runner graph conduct r] }
  | .order i o, w =>
    match w.parties[i]? with
    | some party =>
      { hub := (party.perform o w.hub).2
        parties := w.parties.set i (party.perform o w.hub).1
        ledger := w.ledger.noteAll i (party.moments o w.hub) (party.session w.hub) }
    | none => w
  | .subscribe event handler, w =>
    let (token, hub) := w.hub.subscribe event handler
    { w with hub, ledger := w.ledger.after [] (some ⟨.outside, ⟨token, handler⟩, false⟩) }
  | .dispose token, w =>
    { w with hub := w.hub.dispose token, ledger := w.ledger.after [token] none }
  | .publish event, w => { w with hub := w.hub.publish event }

def performAll (moves : List Move) (w : World) : World := moves.foldl (fun w m => m.perform w) w

/-- The tokens that somebody disposes of by a move, one by one. -/
def disposals : Move → World → List Token
  | .order i o, w =>
    match w.parties[i]? with
    | some party => (party.moments o w.hub).filterMap fun
      | .did (.disposeToken t) => some t
      | _ => none
    | none => []
  | .dispose token, _ => [token]
  | _, _ => []

/-- Nobody disposes of a token that a runner has for its bindings. -/
def Discreet (m : Move) (w : World) : Prop :=
  ∀ e ∈ w.ledger, e.token ∈ m.disposals w → e.maker.isBindings = false

instance (m : Move) (w : World) : Decidable (m.Discreet w) :=
  inferInstanceAs (Decidable (∀ e ∈ w.ledger, _))

/-- Nobody does so in a run. -/
def DiscreetAll : List Move → World → Prop
  | [], _ => True
  | m :: rest, w => m.Discreet w ∧ DiscreetAll rest (m.perform w)

instance decidableDiscreetAll : (moves : List Move) → (w : World) → Decidable (DiscreetAll moves w)
  | [], _ => isTrue trivial
  | m :: rest, w =>
    have := decidableDiscreetAll rest (m.perform w)
    inferInstanceAs (Decidable (m.Discreet w ∧ DiscreetAll rest (m.perform w)))

end Move

/-- The ledger tells how the parties and the bus are: every registration on the bus is accounted
for, every context tracks what it has made, and every runner has what its bindings need. -/
structure World.Sound (w : World) : Prop where
  mirrors : w.ledger.Mirrors w.hub.bus
  known : ∀ e ∈ w.ledger, ∀ i, e.maker = .context i ∨ e.maker = .bindings i → i < w.parties.length
  settled : ∀ (i : Nat) (party : Party), w.parties[i]? = some party → party.Settled
  tracks : ∀ (i : Nat) (party : Party), w.parties[i]? = some party →
    w.ledger.Tracks i party.context.subscriptions
  bound : ∀ (i : Nat) (party : Party), w.parties[i]? = some party → party.Bound w.ledger i

namespace World

variable {w : World}

lemma sound_empty : Sound {} where
  mirrors := .empty
  known e he := absurd he List.not_mem_nil
  settled i party hparty := by simp at hparty
  tracks i party hparty := by simp at hparty
  bound i party hparty := by simp at hparty

/-- A party is one of those there have been, or it is the new one. -/
lemma of_getElem?_concat {parties : List Party} {party other : Party} {i : Nat}
    (h : (parties ++ [party])[i]? = some other) :
    parties[i]? = some other ∨ (i = parties.length ∧ other = party) := by
  rw [List.getElem?_append] at h
  by_cases hlt : i < parties.length
  · rw [if_pos hlt] at h
    exact .inl h
  · rw [if_neg hlt, List.getElem?_singleton] at h
    obtain ⟨hzero, hparty⟩ := Option.ite_none_right_eq_some.mp h
    exact .inr ⟨by omega, (Option.some.inj hparty).symm⟩

/-- A party is the one that has been replaced, or it is as it was. -/
lemma of_getElem?_set {parties : List Party} {party other : Party} {i j : Nat}
    (h : (parties.set i party)[j]? = some other) :
    (j = i ∧ other = party) ∨ (i ≠ j ∧ parties[j]? = some other) := by
  rw [List.getElem?_set] at h
  by_cases hij : i = j
  · rw [if_pos hij] at h
    obtain ⟨-, hparty⟩ := Option.ite_none_right_eq_some.mp h
    exact .inl ⟨hij.symm, (Option.some.inj hparty).symm⟩
  · rw [if_neg hij] at h
    exact .inr ⟨hij, h⟩

/-- Somebody new has made nothing yet. -/
lemma Sound.join (sound : w.Sound) (h : Hub) (hbus : h.bus = w.hub.bus) (party : Party)
    (settled : party.Settled) (untracked : party.context.subscriptions = [])
    (unbound : ∀ l : Ledger, l.held (.bindings w.parties.length) = [] →
      party.Bound l w.parties.length) :
    Sound { w with hub := h, parties := w.parties ++ [party] } := by
  -- Nobody has registered anything under a number that has not been given out.
  have hnew : ∀ e ∈ w.ledger, e.maker ≠ .context w.parties.length ∧
      e.maker ≠ .bindings w.parties.length := by
    intro e he
    refine ⟨fun hmaker => ?_, fun hmaker => ?_⟩
    · exact Nat.lt_irrefl _ (sound.known e he _ (.inl hmaker))
    · exact Nat.lt_irrefl _ (sound.known e he _ (.inr hmaker))
  refine ⟨hbus ▸ sound.mirrors, ?_, ?_, ?_, ?_⟩
  · intro e he i hi
    have hknown := sound.known e he i hi
    simp only [List.length_append, List.length_singleton]
    omega
  · intro i other hi
    rcases of_getElem?_concat hi with hold | ⟨-, rfl⟩
    · exact sound.settled i other hold
    · exact settled
  · intro i other hi
    rcases of_getElem?_concat hi with hold | ⟨rfl, rfl⟩
    · exact sound.tracks i other hold
    · rw [untracked]
      exact .nil fun e he => (hnew e he).1
  · intro i other hi
    rcases of_getElem?_concat hi with hold | ⟨rfl, rfl⟩
    · exact sound.bound i other hold
    · apply unbound
      rw [Ledger.held, List.map_eq_nil_iff]
      refine List.filter_eq_nil_iff.mpr fun e he => ?_
      simpa using (hnew e (List.mem_filter.mp he).1).2

lemma not_mem_tokens_of_discreet {m : Move} (discreet : m.Discreet w) {t : Token}
    (h : t ∈ m.disposals w) (runner : Nat) : t ∉ w.ledger.tokens (.bindings runner) := by
  intro htokens
  obtain ⟨e, he, hmaker, rfl⟩ := Ledger.mem_tokens.mp htokens
  have hnot := discreet e he h
  rw [hmaker] at hnot
  cases hnot

/-- The ledger goes on telling the truth whatever a party is told. -/
lemma Sound.order (sound : w.Sound) {i : Nat} {o : Order}
    (discreet : (Move.order i o).Discreet w) : ((Move.order i o).perform w).Sound := by
  simp only [Move.perform]
  cases hparty : w.parties[i]? with
  | none => exact sound
  | some party =>
      have hlt : i < w.parties.length := (List.getElem?_eq_some_iff.mp hparty).1
      obtain ⟨hsettled, hsession⟩ := Party.session_perform (sound.settled i party hparty) o w.hub
      have hspared : ∀ t, .did (.disposeToken t) ∈ party.moments o w.hub →
          ∀ runner, t ∉ w.ledger.tokens (.bindings runner) := by
        intro t ht
        apply not_mem_tokens_of_discreet discreet
        simp only [Move.disposals, hparty]
        exact List.mem_filterMap.mpr ⟨_, ht, rfl⟩
      have htracks := sound.tracks i party hparty
      obtain ⟨hbound, hothers⟩ := Party.bound_perform (sound.settled i party hparty) sound.mirrors
        htracks (sound.bound i party hparty) o hspared
      refine ⟨?_, ?_, ?_, ?_, ?_⟩
      · have hmirrors := Ledger.Mirrors.noteAll (s := party.session w.hub) sound.mirrors i
          (party.moments o w.hub)
        rwa [← hsession] at hmirrors
      · intro e he j hj
        rw [List.length_set]
        -- What is new in the ledger has been made by the party that was told something, or by
        -- nobody.
        rcases Ledger.maker_of_mem_noteAll he with ⟨e', he', hmaker⟩ | hmaker | hmaker | hmaker
        · exact sound.known e' he' j (hmaker ▸ hj)
        · rw [hmaker] at hj
          rcases hj with h | h <;> cases h
          exact hlt
        · rw [hmaker] at hj
          rcases hj with h | h <;> cases h
        · rw [hmaker] at hj
          rcases hj with h | h <;> cases h
          exact hlt
      · intro j other hj
        rcases of_getElem?_set hj with ⟨rfl, rfl⟩ | ⟨-, hold⟩
        · exact hsettled
        · exact sound.settled j other hold
      · intro j other hj
        rcases of_getElem?_set hj with ⟨rfl, rfl⟩ | ⟨hne, hold⟩
        · have hlast := Ledger.Tracks.noteAll (s := party.session w.hub) sound.mirrors htracks
            (party.moments o w.hub)
          rwa [← hsession] at hlast
        · exact (sound.tracks j other hold).noteAll_other hne _ _
      · intro j other hj
        rcases of_getElem?_set hj with ⟨rfl, rfl⟩ | ⟨hne, hold⟩
        · exact hbound
        · exact (sound.bound j other hold).congr (hothers j hne.symm)

/-- The ledger goes on telling the truth whatever others do to the bus. -/
lemma Sound.outside (sound : w.Sound) {h : Hub} {ended : List Token} {opened : Option Lease}
    (mirrors : (w.ledger.after ended opened).Mirrors h.bus)
    (spared : ∀ t ∈ ended, ∀ runner, t ∉ w.ledger.tokens (.bindings runner))
    (outside : ∀ e ∈ opened, e.disposed = false ∧ e.maker = .outside) :
    Sound { w with hub := h, ledger := w.ledger.after ended opened } := by
  have hother : ∀ maker, maker ≠ .outside → ∀ e ∈ opened, e.disposed = false ∧ e.maker ≠ maker :=
    fun maker ne e he => ⟨(outside e he).1, (outside e he).2 ▸ ne.symm⟩
  refine ⟨mirrors, ?_, sound.settled, ?_, ?_⟩
  · intro e he i hi
    rcases List.mem_append.mp he with hold | hnew
    · obtain ⟨e', he', rfl⟩ := List.mem_map.mp hold
      exact sound.known e' he' i hi
    · rw [(outside e (Option.mem_toList.mp hnew)).2] at hi
      rcases hi with h | h <;> cases h
  · intro i party hparty
    exact (sound.tracks i party hparty).after ended (hother _ nofun)
  · intro i party hparty
    apply (sound.bound i party hparty).congr
    exact (Ledger.kept_after (fun t ht => spared t ht i) (hother _ nofun)).2

/-- The ledger tells the truth after every move. -/
lemma Sound.perform (sound : w.Sound) {m : Move} (discreet : m.Discreet w) :
    (m.perform w).Sound := by
  cases m with
  | attach =>
      let s := Session.attach w.hub
      exact sound.join s.hub rfl (.alone s.context) trivial rfl fun _ _ => trivial
  | create graph conduct settings =>
      let r := Runner.create graph w.hub settings
      refine sound.join r.hub rfl (.runner graph conduct r)
        (Runner.settled_create graph w.hub settings) rfl fun l hnone => ⟨?_, ?_⟩
      · rw [hnone]
        rfl
      · rw [hnone]
        rfl
  | order i o => exact sound.order discreet
  | subscribe event handler =>
      -- Registrations and disposals from outside are entries of nobody.
      refine sound.outside ?_ nofun fun e he => ?_
      · let opened : Lease := ⟨.outside, ⟨⟨w.hub.bus.nextId, event⟩, handler⟩, false⟩
        have hfresh : ∀ e ∈ some opened, e.disposed = false ∧ e.token.id = w.hub.bus.nextId := by
          intro e he
          cases he
          exact ⟨rfl, rfl⟩
        have hmirrors := sound.mirrors.after [] hfresh
        simpa [List.filter_eq_self.mpr] using hmirrors
      · cases he
        exact ⟨rfl, rfl⟩
  | dispose token =>
      refine sound.outside ?_ ?_ (by simp)
      · have hnone : ∀ e ∈ (none : Option Lease),
            e.disposed = false ∧ e.token.id = w.hub.bus.nextId := nofun
        have hmirrors := sound.mirrors.after [token] hnone
        simpa [Hub.dispose, Bus.dispose, bne, Bool.beq_eq_decide_eq] using hmirrors
      · intro t ht
        rw [List.mem_singleton.mp ht]
        exact not_mem_tokens_of_discreet discreet List.mem_cons_self
  | publish event =>
      exact ⟨(Hub.bus_publish w.hub event).symm ▸ sound.mirrors, sound.known, sound.settled,
        sound.tracks, sound.bound⟩

lemma Sound.performAll (sound : w.Sound) {moves : List Move}
    (discreet : Move.DiscreetAll moves w) : (Move.performAll moves w).Sound := by
  induction moves generalizing w with
  | nil => exact sound
  | cons m rest ih => exact ih (sound.perform discreet.1) discreet.2

/-! ## Whose registrations there are -/

/-- The registrations on the bus that a maker has made. -/
def registrationsBy (w : World) (maker : Maker) : List (Registration Handler) :=
  w.hub.bus.registrations.filter fun r => (w.ledger.tokens maker).contains r.token

/-- The registrations on the bus that others have made. -/
def registrationsBeside (w : World) (maker : Maker) : List (Registration Handler) :=
  w.hub.bus.registrations.filter fun r => !(w.ledger.tokens maker).contains r.token

variable {i : Nat} {party : Party}

/-- To end what is under some tokens is to end what a maker has made, if these are the tokens of all
that the maker holds, and all of them have been given to it. -/
lemma Sound.filter_eq_registrationsBeside (sound : w.Sound) {maker : Maker} {tokens : List Token}
    (given : ∀ t ∈ tokens, t ∈ w.ledger.tokens maker)
    (complete : ∀ r ∈ w.ledger.held maker, r.token ∈ tokens) :
    (w.hub.bus.registrations.filter fun r => !tokens.contains r.token) =
      w.registrationsBeside maker := by
  apply List.filter_congr
  intro r hr
  congr 1
  rw [Bool.eq_iff_iff, List.contains_iff_mem, List.contains_iff_mem]
  constructor
  · exact given r.token
  · intro hmaker
    apply complete r
    rw [sound.mirrors.held_eq]
    exact List.mem_filter.mpr ⟨hr, by simpa using hmaker⟩

/-- Ending what a context tracks ends all that has been made through it, and nothing else. -/
lemma Sound.registrations_release (sound : w.Sound) (h : w.parties[i]? = some party) {d : Deed}
    (ends : d = .release ∨ d = .reset ∨ d = .dispose) :
    ((Move.order i (.machine (.host d))).perform w).hub.bus.registrations =
      w.registrationsBeside (.context i) := by
  have hhub : ((Move.order i (.machine (.host d))).perform w).hub =
      (d.perform (party.session w.hub)).hub := by
    simp only [Move.perform, h]
    cases party <;> rfl
  have hended : d.ended (party.session w.hub) = party.context.subscriptions.map (·.token) ∧
      d.opened (party.session w.hub) = none := by
    rcases ends with rfl | rfl | rfl <;> exact ⟨rfl, rfl⟩
  have htracks := sound.tracks i party h
  rw [hhub, Deed.bus_perform, hended.1, hended.2, Option.toList_none, List.append_nil]
  apply sound.filter_eq_registrationsBeside
  · exact fun t ht => htracks.sublist.subset ht
  · exact htracks.complete

/-- Disabling a runner ends all that it has made for its bindings, and nothing else. -/
lemma Sound.registrations_disable (sound : w.Sound) {graph : Graph}
    {conduct : graph.Conduct fun _ => True} {r : Runner}
    (h : w.parties[i]? = some (.runner graph conduct r)) :
    ((Move.order i .disable).perform w).hub.bus.registrations =
      w.registrationsBeside (.bindings i) := by
  have hbinds : w.ledger.Binds i r := sound.bound i _ h
  have hdisable : ((Move.order i .disable).perform w).hub.bus.registrations =
      w.hub.bus.registrations.filter fun x => !r.tokens.contains x.token := by
    simp only [Move.perform, h, Party.perform, Order.perform]
    cases henabled : r.enabled with
    | true =>
        rw [Runner.disable_eq (r := r.resumedOn w.hub) henabled]
        rfl
    | false =>
        -- A runner whose bindings are disabled holds no tokens, so that nothing is filtered out.
        have hnone : r.tokens = [] := by
          rw [← hbinds.tokens, hbinds.held_of_disabled henabled, List.map_nil]
        rw [Runner.disable_of_disabled (r := r.resumedOn w.hub) henabled, hnone]
        exact (List.filter_eq_self.mpr fun x _ => rfl).symm
  rw [hdisable, ← hbinds.tokens]
  apply sound.filter_eq_registrationsBeside
  · intro t ht
    obtain ⟨x, hx, rfl⟩ := List.mem_map.mp ht
    exact Ledger.mem_tokens_of_mem_held hx
  · exact fun x hx => List.mem_map_of_mem hx

end World

/-- **No registration leaks, and nobody touches what others have made.**  After any moves of any
parties the bus holds what has been made and not disposed of.  What has been made through a context
corresponds to the tokens that it tracks and that have not been disposed of, so it counts them; what
a runner has made for its bindings is one registration for each of them while it is enabled, and
nothing otherwise.  Releasing, resetting and disposing of a context end what has been made through
it, disabling a runner ends what it has made for its bindings, and all else stays. -/
theorem Move.registrations_accounted (moves : List Move) (discreet : DiscreetAll moves {}) :
    let w := performAll moves {}
    w.hub.bus.registrations = w.ledger.standing.map (·.registration) ∧
      ∀ (i : Nat) (party : Party), w.parties[i]? = some party →
        ((w.registrationsBy (.context i)).map (·.token) =
            (party.context.subscriptions.map (·.token)).filter (fun t => !w.ledger.isDisposed t) ∧
          ((w.registrationsBy (.context i)).map (·.token)).Nodup ∧
          (party.session w.hub).liveCount = (w.registrationsBy (.context i)).length ∧
          ∀ d, d = .release ∨ d = .reset ∨ d = .dispose →
            ((order i (.machine (.host d))).perform w).hub.bus.registrations =
              w.registrationsBeside (.context i)) ∧
        ∀ graph conduct r, party = .runner graph conduct r →
          (w.registrationsBy (.bindings i)).map (fun x => (x.token.event, x.handler)) =
              (if r.enabled then r.bindings.map fun b => (b.event, .enqueue r.address b.target)
                else []) ∧
            ((order i .disable).perform w).hub.bus.registrations =
              w.registrationsBeside (.bindings i) := by
  intro w
  have sound : w.Sound := World.sound_empty.performAll discreet
  have hby : ∀ maker, w.registrationsBy maker = w.ledger.held maker :=
    fun maker => (sound.mirrors.held_eq maker).symm
  refine ⟨sound.mirrors.registrations, fun i party h => ⟨⟨?_, ?_, ?_, ?_⟩, ?_⟩⟩
  · have htracks := sound.tracks i party h
    rw [hby, htracks.undisposed_eq sound.mirrors, htracks.live_eq sound.mirrors]
  · rw [hby, sound.mirrors.map_token_held]
    exact (sound.mirrors.nodup_tokens _).filter _
  · have hlive := congrArg List.length ((sound.tracks i party h).live_eq sound.mirrors)
    rw [List.filter_map, List.length_map, List.length_map] at hlive
    rw [hby]
    exact hlive
  · exact fun d ends => sound.registrations_release h ends
  · rintro graph conduct r rfl
    refine ⟨?_, sound.registrations_disable h⟩
    rw [hby]
    exact Ledger.Binds.bindings (sound.bound i _ h)

/-- The hall waits for a knock. -/
def hall : Cast Deed.KeepsPlace := [("hall", (BuiltinNode.waitEvent "knock").actor)]

/-- A context, a runner with a binding and somebody outside share a bus.  The context makes two
registrations, and its host disposes of the first one early; then the runner is started. -/
def Move.household : List Move :=
  [.attach,
    .create (hall.graph [] none) ((hall.conduct [] none).weaken fun _ _ => trivial)
      { bindings := [⟨"doorbell", "hall"⟩] },
    .order 0 (.machine (.host (.subscribe "knock" (.notify "first")))),
    .order 0 (.machine (.host (.subscribe "knock" (.notify "second")))),
    .subscribe "knock" (.notify "outside"),
    .dispose ⟨0, "knock"⟩,
    .order 1 .start,
    .publish "doorbell"]

/-- What the context has made, what the runner has made for its binding, and what is left when the
context is released or the runner is disabled. -/
theorem Move.registrations_accounted_household :
    let w := performAll household {}
    DiscreetAll household {} ∧
      (w.registrationsBy (.context 0)).map (·.token) = [⟨1, "knock"⟩] ∧
      (w.registrationsBy (.bindings 1)).map (fun x => (x.token.event, x.handler)) =
        [("doorbell", .enqueue 1 "hall")] ∧
      (((order 0 (.machine (.host .release))).perform w).hub.bus.registrations.map (·.token)) =
        [⟨2, "knock"⟩, ⟨3, "knock"⟩, ⟨4, "doorbell"⟩] ∧
      (((order 1 .disable).perform w).hub.bus.registrations.map (·.token)) =
        [⟨1, "knock"⟩, ⟨2, "knock"⟩, ⟨3, "knock"⟩] := by
  have discreet : DiscreetAll household {} := by decide
  obtain ⟨-, hparties⟩ := registrations_accounted household discreet
  obtain ⟨⟨hcontext, -, -, hrelease⟩, -⟩ := hparties 0 _ rfl
  obtain ⟨-, hrunner⟩ := hparties 1 _ rfl
  obtain ⟨hbindings, hdisable⟩ := hrunner _ _ _ rfl
  refine ⟨discreet, hcontext.trans (by decide), hbindings.trans (by decide), ?_, ?_⟩
  · rw [hrelease .release (.inl rfl)]
    decide
  · rw [hdisable]
    decide

end WorkflowGraph
