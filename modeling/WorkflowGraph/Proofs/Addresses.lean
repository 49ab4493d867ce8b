import WorkflowGraph.Proofs.Sharing

/-!
# Whom the handlers on a bus are for

A handler that counts for a context or that fills the queue of a runner carries an address, and the
hub gives no address out twice.  Contexts register handlers of the first kind when they watch, and
runners register handlers of the second kind for their bindings; nobody else can make one, since
nobody else has the inbox or the queue in hand.  What others hand to the bus leads elsewhere
(`Move.Plain`).

So a handler with an address has been registered by whoever the address belongs to
(`World.Addressed`).  What a party does not hold on the bus itself cannot reach it:
`Hub.publish_unaddressed` says that publishing changes neither an inbox nor a queue to which no
handler leads.
-/

namespace WorkflowGraph

open Command

/-! ## Publishing past an address -/

namespace Hub

variable {h : Hub} {a : Nat}

/-- A handler that is not for an address leaves what is kept there as it is. -/
lemma run_unaddressed {handler : Handler} (elsewhere : handler.address? ≠ some a) :
    (h.run handler).inboxes[a]? = h.inboxes[a]? ∧ (h.run handler).queues[a]? = h.queues[a]? := by
  cases handler with
  | tally context event =>
      have hne : context ≠ a := fun hsame => elsewhere (congrArg some hsame)
      simp [run, tally, Std.ExtTreeMap.getElem?_insert, hne]
  | enqueue runner target =>
      have hne : runner ≠ a := fun hsame => elsewhere (congrArg some hsame)
      simp [run, enqueue, Std.ExtTreeMap.getElem?_insert, hne]
  | notify label => exact ⟨rfl, rfl⟩

/-- Where no handler on the bus leads, nothing arrives. -/
lemma publish_unaddressed (elsewhere : ∀ r ∈ h.bus.registrations, r.handler.address? ≠ some a)
    (event : String) :
    (h.publish event).inboxes[a]? = h.inboxes[a]? ∧
      (h.publish event).queues[a]? = h.queues[a]? := by
  refine publish_preserves
    (P := fun h' => h'.inboxes[a]? = h.inboxes[a]? ∧ h'.queues[a]? = h.queues[a]?)
    ⟨rfl, rfl⟩ event ?_
  rintro r hr h' ⟨hinbox, hqueue⟩
  obtain ⟨hinbox', hqueue'⟩ := run_unaddressed (h := h') (elsewhere r hr)
  exact ⟨hinbox'.trans hinbox, hqueue'.trans hqueue⟩

lemma nextAddress_run (h : Hub) (handler : Handler) :
    (h.run handler).nextAddress = h.nextAddress := by
  cases handler <;> rfl

lemma nextAddress_publish (h : Hub) (event : String) :
    (h.publish event).nextAddress = h.nextAddress :=
  publish_preserves (P := fun h' => h'.nextAddress = h.nextAddress) rfl event fun r _ h' hnext =>
    (h'.nextAddress_run r.handler).trans hnext

end Hub

/-! ## What is handed to the bus -/

/-- The handler that somebody gives to the bus by a deed. -/
def Deed.handed? : Deed → Option Handler
  | .subscribe _ handler | .subscribeForNode _ handler | .connect _ handler => some handler
  | _ => none

/-- What a deed registers has been handed over, or it is what the context watches with. -/
lemma Deed.handed?_of_opened {d : Deed} {s : Session} {r : Registration Handler}
    (h : d.opened s = some r) :
    d.handed? = some r.handler ∨
      (d.tracked s).isSome = true ∧ ∃ event, r.handler = .tally s.context.address event := by
  cases d with
  | subscribe | subscribeForNode | connect =>
      cases h
      exact .inl rfl
  | watch event =>
      cases h
      exact .inr ⟨rfl, event, rfl⟩
  | _ => cases h

lemma Deed.nextAddress_perform (d : Deed) (s : Session) :
    (d.perform s).hub.nextAddress = s.hub.nextAddress := by
  cases d with
  | publish event => exact s.hub.nextAddress_publish event
  | releaseNode | release | reset | dispose =>
      simp [perform, Session.releaseNode, Session.release, Session.reset, Session.dispose,
        Hub.disposeEach_eq, Hub.clearInbox]
  | _ => rfl

lemma Moment.nextAddress_replayAll (moments : List Moment) (s : Session) :
    (replayAll moments s).hub.nextAddress = s.hub.nextAddress :=
  replayAll_preserves (P := fun s' => s'.hub.nextAddress = s.hub.nextAddress)
    (fun d s' h => (d.nextAddress_perform s').trans h) moments rfl

namespace Move

/-- The handlers that somebody gives to the bus by a move. -/
def handed : Move → World → List Handler
  | .order i o, w =>
    match w.parties[i]? with
    | some party => (party.moments o w.hub).filterMap fun
      | .did d => d.handed?
      | _ => none
    | none => []
  | .subscribe _ handler, _ => [handler]
  | _, _ => []

/-- Nobody has somebody else's inbox or queue in hand. -/
def Plain (m : Move) (w : World) : Prop := ∀ handler ∈ m.handed w, handler.address? = none

instance (m : Move) (w : World) : Decidable (m.Plain w) :=
  inferInstanceAs (Decidable (∀ handler ∈ m.handed w, _))

/-- Nobody has in a run. -/
def PlainAll : List Move → World → Prop
  | [], _ => True
  | m :: rest, w => m.Plain w ∧ PlainAll rest (m.perform w)

instance decidablePlainAll : (moves : List Move) → (w : World) → Decidable (PlainAll moves w)
  | [], _ => isTrue trivial
  | m :: rest, w =>
    have := decidablePlainAll rest (m.perform w)
    inferInstanceAs (Decidable (m.Plain w ∧ PlainAll rest (m.perform w)))

end Move

/-! ## Whose address it is -/

/-- Where a party that is a runner receives events. -/
def Party.address? : Party → Option Nat
  | .alone _ => none
  | .runner _ _ r => some r.address

/-- The address that the handlers of a maker carry, if they carry one. -/
def World.addressOf (w : World) : Maker → Option Nat
  | .context i => w.parties[i]?.map (·.context.address)
  | .bindings i => w.parties[i]?.bind Party.address?
  | .outside => none

/-- Addresses are given out once, and a handler with an address has been registered by whoever the
address belongs to. -/
structure World.Addressed (w : World) : Prop where
  given : ∀ maker a, w.addressOf maker = some a → a < w.hub.nextAddress
  once : ∀ maker other a, w.addressOf maker = some a → w.addressOf other = some a → maker = other
  owned : ∀ e ∈ w.ledger, ∀ a, e.registration.handler.address? = some a →
    w.addressOf e.maker = some a

namespace Order

variable {g : Graph} {Allowed : Deed → Prop}

/-- What a runner registers of its own while it carries out an order is a handler for its queue. -/
lemma enqueues_of_managed {r : Runner} (settled : Settled g r.machine) (p : g.Conduct Allowed)
    {o : Order} {d : Deed} (h : .managed d ∈ o.moments p.deeds r) :
    (∀ s, d.opened s = none) ∨
      ∃ b : Binding, d = .connect b.event (.enqueue r.address b.target) := by
  have htends : d.Tends ∨ (∃ n, d = .releaseNode n) ∨ (∃ n, d = .place n) ∨ d = .dispose →
      ∀ s, d.opened s = none := fun htends => (manages_of_tends htends).opened_eq_none
  by_cases hmachine : ∃ c, o = .machine c
  · obtain ⟨c, rfl⟩ := hmachine
    exact .inl (htends (of_managed_mem_moments settled p h))
  · have hown : .managed d ∈ ownChronicle p.deeds (o.commands r) r.machine := by
      cases o with
      | machine c => exact absurd ⟨c, rfl⟩ hmachine
      | _ => exact h
    rcases of_managed_mem_ownChronicle settled p hown with hhost | hrest
    · rcases arranges_of_mem_commands hhost with rfl | arranges
      · exact absurd ⟨_, rfl⟩ hmachine
      · cases arranges with
        | connect b => exact .inr ⟨b, rfl⟩
        | seed | reset | clearQueue | disposeToken => exact .inl fun s => rfl
    · exact .inl (htends hrest)

end Order

namespace Party

/-- An order leaves a party at its addresses, and gives none out. -/
lemma addresses_perform {party : Party} (settled : party.Settled) (o : Order) (h : Hub) :
    (party.perform o h).1.context.address = party.context.address ∧
      (party.perform o h).1.address? = party.address? ∧
      (party.perform o h).2.nextAddress = h.nextAddress := by
  have hsession := (session_perform settled o h).2
  refine ⟨?_, ?_, ?_⟩
  · have haddress := Moment.address_replayAll (party.moments o h) (party.session h)
    rwa [← hsession] at haddress
  · cases party with
    | alone c => simp only [perform]; split <;> rfl
    | runner graph conduct r =>
        exact congrArg some (o.setup_perform (r.resumedOn h)).1
  · have hnext := Moment.nextAddress_replayAll (party.moments o h) (party.session h)
    rwa [← hsession] at hnext

/-- What a runner does of its own while a party is told something; a context of its own has no
runner. -/
lemma enqueues_of_managed {party : Party} (settled : party.Settled) {o : Order} {h : Hub} {d : Deed}
    (hd : .managed d ∈ party.moments o h) :
    (∀ s, d.opened s = none) ∨
      ∃ (a : Nat) (b : Binding), party.address? = some a ∧
        d = .connect b.event (.enqueue a b.target) := by
  cases party with
  | alone c => simp [moments] at hd
  | runner graph conduct r =>
      have howns := Order.enqueues_of_managed (settled_resumedOn settled h) conduct hd
      apply howns.imp_right
      rintro ⟨b, hb⟩
      exact ⟨r.address, b, rfl, hb⟩

end Party

namespace Ledger

variable {l : Ledger} {i : Nat} {s : Session} {e : Lease}

/-- An entry of the ledger has been there before, or a moment has put it there. -/
lemma exists_lease_of_mem_noteAll {moments : List Moment} (he : e ∈ l.noteAll i moments s) :
    (∃ e' ∈ l, e'.maker = e.maker ∧ e'.registration = e.registration) ∨
      ∃ m ∈ moments, ∃ s' : Session, s'.context.address = s.context.address ∧
        ∃ e' ∈ m.lease i s', e'.maker = e.maker ∧ e'.registration = e.registration := by
  induction moments generalizing l s with
  | nil => exact .inl ⟨e, he, rfl, rfl⟩
  | cons m rest ih =>
      rcases ih he with ⟨e', he', hmaker, hregistration⟩ | ⟨m', hm', s', haddress, hlease⟩
      · rcases List.mem_append.mp he' with hold | hnew
        · obtain ⟨e'', he'', rfl⟩ := List.mem_map.mp hold
          exact .inl ⟨e'', he'', hmaker, hregistration⟩
        · exact .inr ⟨m, List.mem_cons_self, s, rfl, e', Option.mem_toList.mp hnew, hmaker,
            hregistration⟩
      · have hfirst : (m.replay s).context.address = s.context.address :=
          Moment.address_replayAll [m] s
        exact .inr ⟨m', List.mem_cons_of_mem m hm', s', haddress.trans hfirst, hlease⟩

/-- What comes into the ledger while a party is told something carries an address of its own, if
nobody hands over somebody else's. -/
lemma owned_noteAll {party : Party} (settled : party.Settled) {o : Order} {h : Hub}
    (plain : ∀ d, .did d ∈ party.moments o h → ∀ handler, d.handed? = some handler →
      handler.address? = none)
    (he : e ∈ l.noteAll i (party.moments o h) (party.session h)) :
    (∃ e' ∈ l, e'.maker = e.maker ∧ e'.registration = e.registration) ∨
      ∀ a, e.registration.handler.address? = some a →
        (e.maker = .context i ∧ a = party.context.address) ∨
          (e.maker = .bindings i ∧ party.address? = some a) := by
  rcases exists_lease_of_mem_noteAll he with hold | ⟨m, hm, s, haddress, e', he', hmaker, hsame⟩
  · exact .inl hold
  refine .inr fun a ha => ?_
  rw [← hmaker]
  rw [← hsame] at ha
  -- What nodes and the host do is theirs unless a token is tracked; what the runner manages are its
  -- bindings.
  cases m with
  | did d =>
      obtain ⟨r, hr, rfl⟩ := Option.map_eq_some_iff.mp he'
      rcases Deed.handed?_of_opened hr with hhanded | ⟨htracked, event, hevent⟩
      · rw [plain d hm r.handler hhanded] at ha
        cases ha
      · rw [show r.handler = _ from hevent] at ha
        refine .inl ⟨if_pos htracked, ?_⟩
        rw [← Option.some.inj ha]
        exact haddress
  | managed d =>
      obtain ⟨r, hr, rfl⟩ := Option.map_eq_some_iff.mp he'
      rcases party.enqueues_of_managed settled hm with hnone | ⟨own, b, hown, rfl⟩
      · rw [hnone s] at hr
        cases hr
      · cases hr
        cases ha
        exact .inr ⟨rfl, hown⟩
  | called | compared => cases he'

end Ledger

namespace World

variable {w : World}

lemma addressed_empty : Addressed {} where
  given maker a h := by cases maker <;> simp [addressOf] at h
  once maker other a h := by cases maker <;> simp [addressOf] at h
  owned := nofun

/-- An address belongs to whom it has belonged before, or to somebody new. -/
lemma addressOf_join {h : Hub} {party : Party} {maker : Maker} {a : Nat}
    (ha : addressOf { w with hub := h, parties := w.parties ++ [party] } maker = some a) :
    w.addressOf maker = some a ∨
      (maker = .context w.parties.length ∧ a = party.context.address) ∨
      (maker = .bindings w.parties.length ∧ party.address? = some a) := by
  cases maker with
  | context i =>
      obtain ⟨other, hother, rfl⟩ := Option.map_eq_some_iff.mp ha
      rcases of_getElem?_concat hother with hold | ⟨rfl, rfl⟩
      · exact .inl (Option.map_eq_some_iff.mpr ⟨other, hold, rfl⟩)
      · exact .inr (.inl ⟨rfl, rfl⟩)
  | bindings i =>
      obtain ⟨other, hother, hown⟩ := Option.bind_eq_some_iff.mp ha
      rcases of_getElem?_concat hother with hold | ⟨rfl, rfl⟩
      · exact .inl (Option.bind_eq_some_iff.mpr ⟨other, hold, hown⟩)
      · exact .inr (.inr ⟨rfl, hown⟩)
  | outside => cases ha

lemma addressOf_of_join {h : Hub} {party : Party} {maker : Maker} {a : Nat}
    (ha : w.addressOf maker = some a) :
    addressOf { w with hub := h, parties := w.parties ++ [party] } maker = some a := by
  have hkept : ∀ {i : Nat} {other : Party}, w.parties[i]? = some other →
      (w.parties ++ [party])[i]? = some other := by
    intro i other hi
    rw [List.getElem?_append_left (List.getElem?_eq_some_iff.mp hi).1]
    exact hi
  cases maker with
  | context i =>
      obtain ⟨other, hother, hown⟩ := Option.map_eq_some_iff.mp ha
      exact Option.map_eq_some_iff.mpr ⟨other, hkept hother, hown⟩
  | bindings i =>
      obtain ⟨other, hother, hown⟩ := Option.bind_eq_some_iff.mp ha
      exact Option.bind_eq_some_iff.mpr ⟨other, hkept hother, hown⟩
  | outside => cases ha

/-- Somebody new comes with addresses that have just been given out. -/
lemma Addressed.join (addressed : w.Addressed) {h : Hub} {party : Party}
    (later : w.hub.nextAddress ≤ h.nextAddress)
    (fresh : w.hub.nextAddress ≤ party.context.address ∧ party.context.address < h.nextAddress)
    (own : ∀ a, party.address? = some a →
      w.hub.nextAddress ≤ a ∧ a < h.nextAddress ∧ a ≠ party.context.address) :
    Addressed { w with hub := h, parties := w.parties ++ [party] } := by
  refine ⟨fun maker a ha => ?_, fun maker other a ha hother => ?_, fun e he a ha => ?_⟩
  · rcases addressOf_join ha with hold | ⟨-, rfl⟩ | ⟨-, hown⟩
    · exact Nat.lt_of_lt_of_le (addressed.given maker a hold) later
    · exact fresh.2
    · exact (own a hown).2.1
  -- Addresses that have been given out are lower than those of the new party.
  · have hnew : ∀ {maker a}, w.addressOf maker = some a → a ≠ party.context.address ∧
        party.address? ≠ some a := by
      intro maker a hold
      have hlow := addressed.given maker a hold
      exact ⟨by omega, fun hown => by have hhigh := (own a hown).1; omega⟩
    rcases addressOf_join ha with hold | ⟨rfl, hcontext⟩ | ⟨rfl, hown⟩ <;>
      rcases addressOf_join hother with hold' | ⟨rfl, hcontext'⟩ | ⟨rfl, hown'⟩
    · exact addressed.once maker other a hold hold'
    · exact absurd hcontext' (hnew hold).1
    · exact absurd hown' (hnew hold).2
    · exact absurd hcontext (hnew hold').1
    · rfl
    · exact absurd hcontext (own a hown').2.2
    · exact absurd hown (hnew hold').2
    · exact absurd hcontext' (own a hown).2.2
    · rfl
  · exact addressOf_of_join (addressed.owned e he a ha)

/-- Whatever a party is told, no address comes to have two owners. -/
lemma Addressed.order (addressed : w.Addressed) (sound : w.Sound) {i : Nat} {o : Order}
    (plain : (Move.order i o).Plain w) : ((Move.order i o).perform w).Addressed := by
  simp only [Move.perform]
  cases hparty : w.parties[i]? with
  | none => exact addressed
  | some party =>
      have hsettled := sound.settled i party hparty
      obtain ⟨hcontext, hown, hnext⟩ := Party.addresses_perform hsettled o w.hub
      -- No address changes hands by an order, so that only the new entries of the ledger need a
      -- look.
      have hsame : ∀ maker, addressOf
          { hub := (party.perform o w.hub).2
            parties := w.parties.set i (party.perform o w.hub).1
            ledger := w.ledger.noteAll i (party.moments o w.hub) (party.session w.hub) } maker =
          w.addressOf maker := by
        have hlt : i < w.parties.length := (List.getElem?_eq_some_iff.mp hparty).1
        intro maker
        cases maker with
        | context j | bindings j =>
            simp only [addressOf, List.getElem?_set]
            by_cases hij : i = j
            · subst hij
              simp only [if_true, if_pos hlt, hparty, Option.map_some, Option.bind_some, hcontext,
                hown]
            · rw [if_neg hij]
        | outside => rfl
      refine ⟨fun maker a ha => ?_, fun maker other a ha hother => ?_, fun e he a ha => ?_⟩
      · rw [hsame] at ha
        exact hnext ▸ addressed.given maker a ha
      · rw [hsame] at ha hother
        exact addressed.once maker other a ha hother
      · have hplain : ∀ d, .did d ∈ party.moments o w.hub → ∀ handler,
            d.handed? = some handler → handler.address? = none := by
          intro d hd handler hhanded
          apply plain handler
          simp only [Move.handed, hparty]
          exact List.mem_filterMap.mpr ⟨_, hd, hhanded⟩
        rw [hsame]
        rcases Ledger.owned_noteAll hsettled hplain he with ⟨e', he', hmaker, hregistration⟩ | hnew
        · rw [← hmaker]
          exact addressed.owned e' he' a (hregistration ▸ ha)
        · rcases hnew a ha with ⟨hmaker, rfl⟩ | ⟨hmaker, hown⟩
          · simp [hmaker, addressOf, hparty]
          · simp [hmaker, addressOf, hparty, hown]

/-- Whatever others do to the bus, no address comes to have two owners. -/
lemma Addressed.outside (addressed : w.Addressed) {h : Hub} {ended : List Token}
    {opened : Option Lease} (next : h.nextAddress = w.hub.nextAddress)
    (plain : ∀ e ∈ opened, e.registration.handler.address? = none) :
    Addressed { w with hub := h, ledger := w.ledger.after ended opened } := by
  refine ⟨?_, addressed.once, fun e he a ha => ?_⟩
  · intro maker a ha
    exact next ▸ addressed.given maker a ha
  · rcases List.mem_append.mp he with hold | hnew
    · obtain ⟨e', he', rfl⟩ := List.mem_map.mp hold
      exact addressed.owned e' he' a ha
    · rw [plain e (Option.mem_toList.mp hnew)] at ha
      cases ha

/-- No move gives an address to a second owner, or to a handler of somebody else. -/
lemma Addressed.perform (addressed : w.Addressed) (sound : w.Sound) {m : Move} (plain : m.Plain w) :
    (m.perform w).Addressed := by
  cases m with
  | attach =>
      have hnext : (Session.attach w.hub).hub.nextAddress = w.hub.nextAddress + 1 := rfl
      have hcontext : (Session.attach w.hub).context.address = w.hub.nextAddress := rfl
      refine addressed.join ?_ ⟨?_, ?_⟩ nofun
      · omega
      · exact Nat.le_of_eq hcontext.symm
      · exact hcontext ▸ hnext ▸ Nat.lt_succ_self _
  | create graph conduct settings =>
      have hnext : (Runner.create graph w.hub settings).hub.nextAddress = w.hub.nextAddress + 2 :=
        rfl
      have hcontext : (Runner.create graph w.hub settings).machine.session.context.address =
          w.hub.nextAddress + 1 := rfl
      refine addressed.join ?_ ⟨?_, ?_⟩ fun a ha => ?_
      · omega
      · exact hcontext ▸ Nat.le_succ _
      · exact hcontext ▸ hnext ▸ Nat.lt_succ_self _
      · obtain rfl : w.hub.nextAddress = a := Option.some.inj ha
        refine ⟨Nat.le_refl _, by omega, ?_⟩
        exact hcontext ▸ Nat.ne_of_lt (Nat.lt_succ_self _)
  | order i o => exact addressed.order sound plain
  | subscribe event handler =>
      refine addressed.outside rfl fun e he => ?_
      cases he
      exact plain handler List.mem_cons_self
  | dispose token => exact addressed.outside rfl nofun
  -- A publication changes neither the parties nor the ledger.
  | publish event =>
      have hnext : (w.hub.publish event).nextAddress = w.hub.nextAddress :=
        w.hub.nextAddress_publish event
      refine ⟨?_, addressed.once, addressed.owned⟩
      intro maker a ha
      exact hnext.symm ▸ addressed.given maker a ha

lemma Addressed.performAll (addressed : w.Addressed) (sound : w.Sound) {moves : List Move}
    (discreet : Move.DiscreetAll moves w) (plain : Move.PlainAll moves w) :
    (Move.performAll moves w).Addressed := by
  induction moves generalizing w with
  | nil => exact addressed
  | cons m rest ih =>
      exact ih (addressed.perform sound plain.1) (sound.perform discreet.1) discreet.2 plain.2

/-- Nothing on the bus leads to an address whose owner holds nothing there. -/
lemma Addressed.unaddressed (addressed : w.Addressed) (sound : w.Sound) {maker : Maker} {a : Nat}
    (ha : w.addressOf maker = some a) (holdsNone : w.ledger.held maker = []) :
    ∀ r ∈ w.hub.bus.registrations, r.handler.address? ≠ some a := by
  intro r hr hleads
  rw [sound.mirrors.registrations] at hr
  obtain ⟨e, he, rfl⟩ := List.mem_map.mp hr
  have howner := addressed.owned e (List.mem_filter.mp he).1 a hleads
  have hmaker : e.maker = maker := addressed.once e.maker maker a howner ha
  have hheld : e.registration ∈ w.ledger.held maker :=
    List.mem_map_of_mem (List.mem_filter.mpr ⟨he, by simpa using hmaker⟩)
  rw [holdsNone] at hheld
  cases hheld

end World
end WorkflowGraph
