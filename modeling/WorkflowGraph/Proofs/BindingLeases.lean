import WorkflowGraph.Proofs.Ledger

/-!
# The leases of bindings

What a runner registers for its bindings is in the ledger of the bus as well.  As nobody else has
the tokens, what stands for the bindings of a runner stays as it is whatever nodes, hosts and other
parties do (`Ledger.kept_noteAll`), and so there is one registration per binding while the runner is
enabled, and none otherwise (`Ledger.Binds`).
-/

namespace WorkflowGraph

open Command

/-! ## What others leave as it is -/

namespace Ledger

variable {l : Ledger} {party : Nat} {s : Session}

lemma mem_tokens_of_mem_held {maker : Maker} {r : Registration Handler} (h : r ∈ l.held maker) :
    r.token ∈ l.tokens maker := by
  obtain ⟨e, he, rfl⟩ := List.mem_map.mp h
  obtain ⟨hstands, hmaker⟩ := List.mem_filter.mp he
  exact mem_tokens.mpr ⟨e, (List.mem_filter.mp hstands).1, by simpa using hmaker, rfl⟩

/-- What a maker has stays as it is when somebody else disposes of tokens of his and makes a
registration. -/
lemma kept_after {ended : List Token} {opened : Option Lease} {maker : Maker}
    (spared : ∀ t ∈ ended, t ∉ l.tokens maker)
    (other : ∀ e ∈ opened, e.disposed = false ∧ e.maker ≠ maker) :
    (l.after ended opened).tokens maker = l.tokens maker ∧
      (l.after ended opened).held maker = l.held maker := by
  have hnone : (opened.toList.filter fun e => e.maker == maker) = [] := by
    refine List.filter_eq_nil_iff.mpr fun e he => ?_
    simpa using (other e (Option.mem_toList.mp he)).2
  refine ⟨?_, ?_⟩
  · rw [tokens_after, tokens.eq_def opened.toList, hnone, List.map_nil, List.append_nil]
  · rw [held_after fun e he => (other e he).1, hnone, List.map_nil, List.append_nil]
    refine List.filter_eq_self.mpr fun r hr => ?_
    simp only [Bool.not_eq_true', ← Bool.not_eq_true, List.contains_iff_mem]
    exact fun hended => spared r.token hended (mem_tokens_of_mem_held hr)

/-- What the bindings of runners have stays as it is while nodes, the host and machines act, if
nobody disposes of a token of theirs. -/
lemma kept_noteAll (runner : Nat) {moments : List Moment} (mirrors : l.Mirrors s.hub.bus)
    (tracks : l.Tracks party s.context.subscriptions)
    (spared : ∀ t, .did (.disposeToken t) ∈ moments → t ∉ l.tokens (.bindings runner))
    (manages : ∀ d, .managed d ∈ moments → d.Manages) :
    (l.noteAll party moments s).tokens (.bindings runner) = l.tokens (.bindings runner) ∧
      (l.noteAll party moments s).held (.bindings runner) = l.held (.bindings runner) := by
  induction moments generalizing l s with
  | nil => exact ⟨rfl, rfl⟩
  | cons m rest ih =>
      -- What a moment ends has been named by a node, or the context has tracked it; and no token is
      -- both tracked and a binding of a runner.
      have hended : ∀ t ∈ m.ended s, t ∉ l.tokens (.bindings runner) := by
        have hne : Maker.context party ≠ .bindings runner := nofun
        have htracked : ∀ t ∈ s.context.subscriptions.map (·.token),
            t ∉ l.tokens (.bindings runner) :=
          fun t ht => mirrors.not_mem_tokens hne (tracks.sublist.subset ht)
        intro t ht
        cases m with
        | did d =>
            rcases Deed.of_mem_ended ht with rfl | hsub
            · exact spared t List.mem_cons_self
            · exact htracked t hsub
        | managed d =>
            rcases Deed.of_mem_ended ht with rfl | hsub
            · have hmanages : False := manages _ List.mem_cons_self
              exact hmanages.elim
            · exact htracked t hsub
        | called | compared => cases ht
      -- What a moment makes belongs to a context or to nobody, since the machine itself registers
      -- no bindings.
      have hlease : ∀ e ∈ m.lease party s, e.disposed = false ∧ e.maker ≠ .bindings runner := by
        intro e he
        refine ⟨(Moment.of_mem_lease he).1, ?_⟩
        cases m with
        | did d =>
            obtain ⟨r, -, rfl⟩ := Option.map_eq_some_iff.mp he
            by_cases htracked : (d.tracked s).isSome <;> simp [htracked]
        | managed d =>
            obtain ⟨r, hr, -⟩ := Option.map_eq_some_iff.mp he
            rw [(manages d List.mem_cons_self).opened_eq_none s] at hr
            cases hr
        | called | compared => cases he
      obtain ⟨htokens, hheld⟩ := kept_after hended hlease
      have hrest := ih (mirrors.note party m) (tracks.note mirrors m)
        (fun t ht => by
          rw [note, htokens]
          exact spared t (List.mem_cons_of_mem m ht))
        fun d hd => manages d (List.mem_cons_of_mem m hd)
      exact ⟨hrest.1.trans htokens, hrest.2.trans hheld⟩

lemma ownChronicle_host {α : Type} (deeds : Guid → Phase → Session → List Deed) (f : α → Deed)
    (xs : List α) (m : Machine) :
    ownChronicle deeds (xs.map fun x => .host (f x)) m = xs.map fun x => .managed (f x) := by
  induction xs generalizing m with
  | nil => rfl
  | cons x rest ih => exact congrArg (_ :: ·) (ih _)

/-- Registering the handlers of bindings puts an entry for each of them into the ledger. -/
lemma exists_noteAll_connect (l : Ledger) (party address : Nat) (bindings : List Binding)
    (s : Session) :
    ∃ new : Ledger,
      l.noteAll party
        (bindings.map fun b => .managed (.connect b.event (.enqueue address b.target))) s =
          l ++ new ∧
      new.map (·.token) = (Runner.subscribeAll address s.hub bindings).1 ∧
      new.map (fun e => (e.token.event, e.registration.handler)) =
        bindings.map (fun b => (b.event, .enqueue address b.target)) ∧
      ∀ e ∈ new, e.maker = .bindings party ∧ e.disposed = false := by
  induction bindings generalizing l s with
  | nil => exact ⟨[], (List.append_nil l).symm, rfl, rfl, nofun⟩
  | cons b rest ih =>
      let connect : Deed := .connect b.event (.enqueue address b.target)
      let first : Lease :=
        ⟨.bindings party, ⟨⟨s.hub.bus.nextId, b.event⟩, .enqueue address b.target⟩, false⟩
      have hnote : l.note party (.managed connect) s = l ++ [first] := by
        show l.close [] ++ [first] = l ++ [first]
        simp [close]
      obtain ⟨new, hall, htokens, hbindings, hnew⟩ := ih (l ++ [first]) (connect.perform s)
      refine ⟨first :: new, ?_, ?_, ?_, ?_⟩
      · rw [List.map_cons, noteAll, hnote, List.append_cons l first new]
        exact hall
      · exact congrArg (first.token :: ·) htokens
      · exact congrArg (_ :: ·) hbindings
      · intro e he
        rcases List.mem_cons.mp he with rfl | he
        · exact ⟨rfl, rfl⟩
        · exact hnew e he

lemma noteAll_disposeToken (l : Ledger) (party : Nat) (tokens : List Token) (s : Session) :
    l.noteAll party (tokens.map fun t => .managed (.disposeToken t)) s = l.after tokens none := by
  induction tokens generalizing l s with
  | nil => simp [noteAll, after, close]
  | cons t rest ih =>
      rw [List.map_cons, noteAll, ih]
      simp [note, after, Moment.ended, Deed.ended, Moment.lease, Deed.opened, close, Lease.token,
        Bool.or_assoc]

end Ledger

/-- A runner has the tokens of what stands for its bindings, and there is one registration for each
of them while the runner is enabled, and none otherwise. -/
structure Ledger.Binds (l : Ledger) (party : Nat) (r : Runner) : Prop where
  tokens : (l.held (.bindings party)).map (·.token) = r.tokens
  bindings : (l.held (.bindings party)).map (fun x => (x.token.event, x.handler)) =
    if r.enabled then r.bindings.map fun b => (b.event, .enqueue r.address b.target) else []

namespace Ledger.Binds

variable {l : Ledger} {party : Nat} {r : Runner}

lemma held_of_disabled (binds : l.Binds party r) (disabled : r.enabled = false) :
    l.held (.bindings party) = [] := by
  have hbindings := binds.bindings
  rw [disabled] at hbindings
  exact List.map_eq_nil_iff.mp hbindings

/-- Enabling a runner makes a registration for each of its bindings, and does nothing to what others
have. -/
lemma enable (binds : l.Binds party r) (deeds : Guid → Phase → Session → List Deed) :
    let next := l.noteAll party (ownChronicle deeds r.enableCommands r.machine) r.machine.session
    next.Binds party r.enable ∧
      ∀ maker, maker ≠ .bindings party → next.held maker = l.held maker := by
  intro next
  cases henabled : r.enabled with
  | true =>
      have hnext : next = l := by
        simp [next, Runner.enableCommands, henabled, ownChronicle, noteAll]
      rw [hnext, Runner.enable_of_enabled henabled]
      exact ⟨binds, fun _ _ => rfl⟩
  | false =>
      obtain ⟨new, hall, htokens, hbindings, hnew⟩ :=
        exists_noteAll_connect l party r.address r.bindings r.machine.session
      have hnext : next = l ++ new := by
        have hmoments := ownChronicle_host deeds
          (fun b : Binding => .connect b.event (.enqueue r.address b.target)) r.bindings r.machine
        simp only [next, Runner.enableCommands, henabled, Bool.false_eq_true, if_false, hmoments]
        exact hall
      -- The new entries are all live and all of the one maker, so that each maker has what he had
      -- before and those that are his.
      have hstanding : ∀ maker, held (l ++ new) maker =
          l.held maker ++ (new.filter fun e => e.maker == maker).map (·.registration) := by
        intro maker
        have hnone : new.filter (fun e => !e.disposed) = new :=
          List.filter_eq_self.mpr fun e he => by simp [(hnew e he).2]
        simp [held, standing, hnone]
      have hown : held (l ++ new) (.bindings party) = new.map (·.registration) := by
        have hself : new.filter (fun e => e.maker == .bindings party) = new :=
          List.filter_eq_self.mpr fun e he => by simp [(hnew e he).1]
        rw [hstanding, binds.held_of_disabled henabled, hself, List.nil_append]
      have hnone : r.tokens = [] := by
        rw [← binds.tokens, binds.held_of_disabled henabled, List.map_nil]
      have henable : r.enable.enabled = true ∧ r.enable.bindings = r.bindings ∧
          r.enable.address = r.address ∧
          r.enable.tokens = (Runner.subscribeAll r.address r.machine.session.hub r.bindings).1 := by
        simp [Runner.enable, henabled, hnone, Runner.hub, Runner.onSession, Runner.onMachine]
      rw [hnext]
      refine ⟨⟨?_, ?_⟩, ?_⟩
      · rw [hown, henable.2.2.2, ← htokens, List.map_map]
        rfl
      · rw [hown, henable.1, henable.2.1, henable.2.2.1, if_pos rfl, ← hbindings, List.map_map]
        rfl
      · intro maker ne
        have hother : new.filter (fun e => e.maker == maker) = [] := by
          refine List.filter_eq_nil_iff.mpr fun e he => ?_
          simpa [(hnew e he).1] using Ne.symm ne
        rw [hstanding, hother, List.map_nil, List.append_nil]

/-- Disabling a runner disposes of the tokens of its bindings, and of nothing else. -/
lemma disable {b : Bus Handler} (mirrors : l.Mirrors b) (binds : l.Binds party r)
    (deeds : Guid → Phase → Session → List Deed) :
    let next := l.noteAll party (ownChronicle deeds r.disableCommands r.machine) r.machine.session
    next.Binds party r.disable ∧
      ∀ maker, maker ≠ .bindings party → next.held maker = l.held maker := by
  intro next
  cases henabled : r.enabled with
  | false =>
      have hnext : next = l := by
        simp [next, Runner.disableCommands, henabled, ownChronicle, noteAll]
      rw [hnext, Runner.disable_of_disabled henabled]
      exact ⟨binds, fun _ _ => rfl⟩
  | true =>
      have hnext : next = l.after r.tokens none := by
        have hmoments := ownChronicle_host deeds Deed.disposeToken r.tokens r.machine
        simp only [next, Runner.disableCommands, henabled, if_true, hmoments]
        exact noteAll_disposeToken l party r.tokens r.machine.session
      -- The tokens that are disposed of are all that the runner has for its bindings.
      have hown : (l.after r.tokens none).held (.bindings party) = [] := by
        rw [held_after (by simp), Option.toList_none, List.filter_nil, List.map_nil,
          List.append_nil]
        refine List.filter_eq_nil_iff.mpr fun x hx => ?_
        have hmem : x.token ∈ r.tokens := binds.tokens ▸ List.mem_map_of_mem hx
        simpa using hmem
      have hdisable : r.disable.enabled = false ∧ r.disable.tokens = [] := by
        simp [Runner.disable, henabled]
      rw [hnext]
      refine ⟨⟨?_, ?_⟩, ?_⟩
      · rw [hown, hdisable.2, List.map_nil]
      · rw [hown, hdisable.1]
        rfl
      · intro maker ne
        refine (kept_after ?_ (by simp)).2
        intro t ht
        rw [← binds.tokens] at ht
        obtain ⟨x, hx, rfl⟩ := List.mem_map.mp ht
        exact mirrors.not_mem_tokens ne.symm (mem_tokens_of_mem_held hx)

/-- Whatever a runner is told, it has one registration for each of its bindings while it is enabled,
and what others have for theirs stays as it is. -/
lemma perform {g : Graph} {Allowed : Deed → Prop} (mirrors : l.Mirrors r.machine.session.hub.bus)
    (tracks : l.Tracks party r.machine.session.context.subscriptions) (binds : l.Binds party r)
    (settled : Settled g r.machine) (p : g.Conduct Allowed) (o : Order)
    (spared : ∀ t, .did (.disposeToken t) ∈ o.moments p.deeds r →
      ∀ runner, t ∉ l.tokens (.bindings runner)) :
    let next := l.noteAll party (o.moments p.deeds r) r.machine.session
    next.Binds party (o.perform r) ∧
      ∀ runner, runner ≠ party → next.held (.bindings runner) = l.held (.bindings runner) := by
  intro next
  have hphases := o.phases_perform settled p
  -- An order looks after the session first, in all three cases, and enables or disables then if at
  -- all.
  have htends : ∀ {moments : List Moment} {mid : Runner}, r.Tends moments mid →
      (∀ t, .did (.disposeToken t) ∈ moments → ∀ runner, t ∉ l.tokens (.bindings runner)) →
      (l.noteAll party moments r.machine.session).Mirrors mid.machine.session.hub.bus ∧
        (l.noteAll party moments r.machine.session).Binds party mid ∧
        Moment.replayAll moments r.machine.session = mid.machine.session ∧
        ∀ runner, (l.noteAll party moments r.machine.session).held (.bindings runner) =
          l.held (.bindings runner) := by
    intro moments mid tends spared
    cases tends with
    | @mk m paused timeScale session manages =>
        have hheld := fun runner =>
          (kept_noteAll runner mirrors tracks (fun t ht => spared t ht runner) manages).2
        refine ⟨?_, ⟨?_, ?_⟩, session.symm, hheld⟩
        · have hmirrors := mirrors.noteAll party moments
          rwa [← session] at hmirrors
        · rw [hheld]
          exact binds.tokens
        · rw [hheld]
          exact binds.bindings
  have hne : ∀ runner, runner ≠ party → Maker.bindings runner ≠ .bindings party :=
    fun runner ne h => ne (Maker.bindings.inj h)
  simp only [next]
  generalize o.moments p.deeds r = moments, o.perform r = last at hphases spared ⊢
  cases hphases with
  | tends tends =>
      obtain ⟨-, hbinds, -, hheld⟩ := htends tends spared
      exact ⟨hbinds, fun runner _ => hheld runner⟩
  | enables tends =>
      obtain ⟨-, hbinds, hsession, hheld⟩ :=
        htends tends fun t ht => spared t (List.mem_append_left _ ht)
      rw [noteAll_append, hsession]
      obtain ⟨henabled, hothers⟩ := hbinds.enable p.deeds
      exact ⟨henabled, fun runner ne => (hothers _ (hne runner ne)).trans (hheld runner)⟩
  | disables tends =>
      obtain ⟨hmirrors, hbinds, hsession, hheld⟩ :=
        htends tends fun t ht => spared t (List.mem_append_left _ ht)
      rw [noteAll_append, hsession]
      obtain ⟨hdisabled, hothers⟩ := hbinds.disable hmirrors p.deeds
      exact ⟨hdisabled, fun runner ne => (hothers _ (hne runner ne)).trans (hheld runner)⟩

end Ledger.Binds
end WorkflowGraph
