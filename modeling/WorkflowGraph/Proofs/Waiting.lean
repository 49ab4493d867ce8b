import WorkflowGraph.Proofs.Phases

/-!
# What waits for a runner

`Order.arrivals` tells from the chronicle of a runner what has been led to it since its queue was
emptied last: for each publication the targets of the bindings that are enabled at the time.  As
long as nodes and the host leave the runner alone, its queue holds the last of these
(`Order.tied_performAll`).

The invariant is `Runner.Tied`: the registrations of the runner are those of its bindings if it is
enabled, and none otherwise.  An order changes them only after everything else that it does, in
the last commands of a start or a stop.
-/

namespace WorkflowGraph

open Command

variable {g : Graph} {Allowed : Deed → Prop} {p : g.Conduct Allowed}

namespace Command

/-- A runner that neither publishes nor empties its queue leaves what waits as it is. -/
lemma foldl_arrive_ownChronicle (deeds : Guid → Phase → Session → List Deed) {runner : Nat}
    {bindings : List Binding} {waiting : List Guid} {commands : List Command}
    (quiet : ∀ c ∈ commands, ∃ d, c = .host d ∧ d.arrive runner bindings waiting = waiting)
    (m : Machine) :
    (ownChronicle deeds commands m).foldl (Moment.arrive runner bindings) waiting = waiting := by
  induction commands generalizing m with
  | nil => rfl
  | cons c rest ih =>
      obtain ⟨d, rfl, hd⟩ := quiet c List.mem_cons_self
      show (ownChronicle deeds rest (m.onSession d.perform)).foldl (Moment.arrive runner bindings)
        (d.arrive runner bindings waiting) = waiting
      rw [hd]
      exact ih (fun c hc => quiet c (List.mem_cons_of_mem _ hc)) _

end Command

namespace Runner

/-- The bindings that are enabled. -/
def active (r : Runner) : List Binding := if r.enabled then r.bindings else []

/-- The registrations of the runner are those of its enabled bindings, and its queue holds the
last of what waits. -/
structure Tied (r : Runner) (waiting : List Guid) : Prop where
  apart : r.machine.session.Apart r.address
  bound_eq : r.hub.bound r.address = r.active
  tokens_eq : r.tokens = (r.hub.ties r.address).map (·.token)
  pending_eq : r.pending = waiting.rtake Hub.queueLimit

/-! ## New runners -/

/-- On a regular hub a new runner has no registrations, and nothing waits for it. -/
lemma tied_create (g : Graph) {h : Hub} (regular : h.Regular) (settings : RunnerSettings) :
    (create g h settings).Tied [] := by
  have hties : h.ties h.nextAddress = [] := regular.ties_eq_nil (Nat.le_refl _)
  have hnone : (create g h settings).hub.ties (create g h settings).address = [] := hties
  refine ⟨⟨regular.registered, nofun, nofun⟩, ?_, ?_, ?_⟩
  · rw [Hub.bound, hnone]
    rfl
  · rw [hnone]
    rfl
  · exact regular.queues h.nextAddress (Nat.le_refl _)

/-! ## Enabling and disabling -/

lemma ties_eq_nil_of_bound {h : Hub} {address : Nat} (hbound : h.bound address = []) :
    h.ties address = [] := by
  cases hties : h.ties address with
  | nil => rfl
  | cons r rest =>
      have hsome : (r.handler.target? address).isSome :=
        (List.mem_filter.mp (hties ▸ List.mem_cons_self : r ∈ h.ties address)).2
      obtain ⟨target, htarget⟩ := Option.isSome_iff_exists.mp hsome
      rw [Hub.bound, hties, List.filterMap_cons, htarget] at hbound
      cases hbound

lemma Tied.enable {r : Runner} {waiting : List Guid} (tied : r.Tied waiting) :
    r.enable.Tied waiting := by
  cases henabled : r.enabled with
  | true => rwa [enable_of_enabled henabled]
  | false =>
      have hnone : r.hub.ties r.address = [] := by
        refine ties_eq_nil_of_bound (tied.bound_eq.trans ?_)
        rw [active, henabled]
        rfl
      obtain ⟨new, henable, hbindings, hnew⟩ := exists_enable henabled
      -- As long as the bindings are disabled nothing leads to the queue, so all of it is new.
      have hties : r.enable.hub.ties r.address = new := by
        rw [henable]
        show ((r.hub.bus.registrations ++ new).filter
          fun r' => (r'.handler.target? r.address).isSome) = new
        rw [List.filter_append, List.filter_eq_self.mpr fun r' hr' => (hnew r' hr').1]
        rw [Hub.ties] at hnone
        rw [hnone, List.nil_append]
      have haddress : r.enable.address = r.address := by rw [henable]
      refine ⟨?_, ?_, ?_, ?_⟩
      · rw [henable]
        exact tied.apart.register fun r' hr' => (hnew r' hr').2
      · have hactive : r.enable.active = r.bindings := by
          rw [henable]
          rfl
        rw [hactive, haddress, Hub.bound, hties, hbindings]
      · have htokens' : r.enable.tokens = r.tokens ++ new.map (·.token) := by rw [henable]
        rw [haddress, hties, htokens', tied.tokens_eq, hnone]
        rfl
      · rw [henable]
        exact tied.pending_eq

lemma Tied.disable {r : Runner} {waiting : List Guid} (tied : r.Tied waiting) :
    r.disable.Tied waiting := by
  cases henabled : r.enabled with
  | false => rwa [disable_of_disabled henabled]
  | true =>
      have hdisable := disable_eq henabled
      have hhub : r.disable.hub =
          { r.hub with bus := { r.hub.bus with
            registrations := r.hub.bus.registrations.filter
              (fun r' => !r.tokens.contains r'.token) } } := by
        rw [hdisable]
        rfl
      -- Every handler for the queue has a token that the runner keeps.
      have hties : r.disable.hub.ties r.address = [] := by
        rw [hhub]
        refine List.filter_eq_nil_iff.mpr fun r' hr' leads => ?_
        obtain ⟨hr', hended⟩ := List.mem_filter.mp hr'
        have htoken : r'.token ∈ r.tokens := by
          rw [tied.tokens_eq]
          exact List.mem_map_of_mem (List.mem_filter.mpr ⟨hr', leads⟩)
        simp [htoken] at hended
      have haddress : r.disable.address = r.address := by
        rw [hdisable]
      refine ⟨?_, ?_, ?_, ?_⟩
      · rw [hdisable]
        exact tied.apart.unregister _
      · rw [haddress, Hub.bound, hties, hdisable]
        rfl
      · rw [haddress, hties, hdisable]
        rfl
      · show r.disable.hub.queue r.disable.address = _
        rw [hhub, haddress]
        exact tied.pending_eq

/-! ## Operating a runner -/

/-- While a runner is left alone and does nothing to its bindings, they stay registered, and its
queue holds the last of what waits. -/
lemma Tied.tends {r next : Runner} {waiting : List Guid} (tied : r.Tied waiting)
    {moments : List Moment} (tends : r.Tends moments next)
    (alone : Moment.LeaveAlone r.address moments r.machine.session) :
    next.Tied (moments.foldl (Moment.arrive r.address r.active) waiting) := by
  cases tends with
  | @mk m paused timeScale session manages =>
      obtain ⟨hapart, hties, hqueue⟩ := tied.apart.replayAll alone manages tied.pending_eq
      have hbound : r.machine.session.hub.bound r.address = r.active := tied.bound_eq
      rw [← session] at hapart hties hqueue
      rw [hbound] at hqueue
      refine ⟨hapart, ?_, ?_, hqueue⟩
      · refine Eq.trans ?_ tied.bound_eq
        show m.session.hub.bound r.address = r.machine.session.hub.bound r.address
        rw [Hub.bound, Hub.bound, hties]
      · show r.tokens = (m.session.hub.ties r.address).map (·.token)
        rw [hties]
        exact tied.tokens_eq

lemma quiet_enableCommands (r : Runner) (bindings : List Binding) (waiting : List Guid) :
    ∀ c ∈ r.enableCommands, ∃ d, c = .host d ∧ d.arrive r.address bindings waiting = waiting := by
  intro c hc
  obtain ⟨b, rfl⟩ := exists_of_mem_enableCommands hc
  exact ⟨_, rfl, rfl⟩

lemma quiet_disableCommands (r : Runner) (bindings : List Binding) (waiting : List Guid) :
    ∀ c ∈ r.disableCommands, ∃ d, c = .host d ∧ d.arrive r.address bindings waiting = waiting := by
  intro c hc
  obtain ⟨token, rfl⟩ := exists_of_mem_disableCommands hc
  exact ⟨_, rfl, rfl⟩

end Runner

/-! ## The queue of a runner -/

namespace Order

open Runner

/-- What has been led to a runner since its queue was emptied last, on top of what waited for it:
each publication puts in the targets of the bindings that are enabled. -/
def arrivals (deeds : Guid → Phase → Session → List Deed) :
    List Order → Runner → List Guid → List Guid
  | [], _, waiting => waiting
  | o :: rest, r, waiting =>
    arrivals deeds rest (o.perform r)
      ((o.moments deeds r).foldl (Moment.arrive r.address r.active) waiting)

/-- Whatever a runner is told, its registrations are those of its enabled bindings and its queue
holds the last of what waits. -/
lemma tied_perform {r : Runner} {waiting : List Guid} (tied : r.Tied waiting)
    (settled : Settled g r.machine) (p : g.Conduct Allowed) (o : Order)
    (alone : Moment.LeaveAlone r.address (o.moments p.deeds r) r.machine.session) :
    (o.perform r).Tied
      ((o.moments p.deeds r).foldl (Moment.arrive r.address r.active) waiting) := by
  have hphases := o.phases_perform settled p
  generalize o.moments p.deeds r = moments, o.perform r = next at hphases alone ⊢
  cases hphases with
  | tends tends => exact tied.tends tends alone
  | @enables own mid tends =>
      have hmid := tied.tends tends (Moment.leaveAlone_append.mp alone).1
      rw [List.foldl_append, ← tends.address_eq,
        foldl_arrive_ownChronicle p.deeds (quiet_enableCommands mid _ _)]
      rw [tends.address_eq]
      exact hmid.enable
  | @disables own mid tends =>
      have hmid := tied.tends tends (Moment.leaveAlone_append.mp alone).1
      rw [List.foldl_append, ← tends.address_eq,
        foldl_arrive_ownChronicle p.deeds (quiet_disableCommands mid _ _)]
      rw [tends.address_eq]
      exact hmid.disable

/-- The inbox of a runner is told by what has arrived since, whatever orders come. -/
lemma tied_performAll {r : Runner} {waiting : List Guid} (tied : r.Tied waiting)
    (settled : Settled g r.machine) (p : g.Conduct Allowed) (orders : List Order)
    (alone : Moment.LeaveAlone r.address (chronicle p.deeds orders r) r.machine.session) :
    (performAll orders r).Tied (arrivals p.deeds orders r waiting) := by
  induction orders generalizing r waiting with
  | nil => exact tied
  | cons o rest ih =>
      obtain ⟨hsettled, hsession⟩ := session_perform settled p o
      obtain ⟨hfirst, hrest⟩ := Moment.leaveAlone_append.mp alone
      rw [← hsession, ← (setup_perform o r).1] at hrest
      exact ih (tied_perform tied settled p o hfirst) hsettled hrest

end Order
end WorkflowGraph
