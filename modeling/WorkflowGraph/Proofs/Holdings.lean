import WorkflowGraph.Proofs.Phases
import WorkflowGraph.Proofs.Renaming

/-!
# What a runner has on a hub

A runner is given two addresses of its hub, `n` for itself and `n + 1` for its context.  As long as
nodes and the host do nothing for these addresses themselves, everything there is for them is
accounted for (`Runner.Housed`): the handlers of the runner are those whose tokens it has, the
handlers of its context are tracked, and nothing else has come to an address of `n` or more.  So
whoever ends what is tracked and what the runner has tokens for, and empties one inbox and one
queue, has left nothing of the runner on the hub.
-/

namespace WorkflowGraph

variable {n : Nat}

/-! ## Hubs -/

/-- A handler of somebody with an address below `n`, of the runner with the address `n` or of the
context with the address `n + 1`. -/
inductive Handler.Placed (n : Nat) : Handler → Prop
  | foreign {handler : Handler} (foreign : handler.Foreign n) : Placed n handler
  | binding {target : Guid} : Placed n (.enqueue n target)
  | watch {event : String} : Placed n (.tally (n + 1) event)

/-- From the address `n` on there are one queue and one inbox. -/
structure Hub.Tidy (n : Nat) (h : Hub) : Prop where
  next : h.nextAddress = n + 2
  inboxes : ∀ a, n ≤ a → a ≠ n + 1 → h.inbox a = ∅
  queues : ∀ a, n ≤ a → a ≠ n → h.queue a = []

namespace Hub.Tidy

variable {h : Hub}

lemma run (tidy : h.Tidy n) {handler : Handler} (placed : handler.Placed n) :
    (h.run handler).Tidy n := by
  cases handler with
  | notify label => exact ⟨tidy.next, tidy.inboxes, tidy.queues⟩
  | tally context event =>
      refine ⟨tidy.next, fun a ha hother => ?_, tidy.queues⟩
      have hne : context ≠ a := by
        cases placed with
        | foreign foreign =>
            have hlow := foreign context rfl
            omega
        | watch => omega
      have hinbox := tidy.inboxes a ha hother
      simp only [Hub.inbox] at hinbox
      simp [Hub.run, Hub.inbox, Hub.tally, Std.ExtTreeMap.getD_insert, hne, hinbox]
  | enqueue runner target =>
      refine ⟨tidy.next, tidy.inboxes, fun a ha hother => ?_⟩
      have hne : runner ≠ a := by
        cases placed with
        | foreign foreign =>
            have hlow := foreign runner rfl
            omega
        | binding => omega
      have hqueue := tidy.queues a ha hother
      simp only [Hub.queue] at hqueue
      simp [Hub.run, Hub.queue, Hub.enqueue, Std.ExtTreeMap.getD_insert, hne, hqueue]

lemma publish (tidy : h.Tidy n) (placed : ∀ r ∈ h.bus.registrations, r.handler.Placed n)
    (event : String) : (h.publish event).Tidy n :=
  publish_preserves (P := fun h' => h'.Tidy n) tidy event fun r hr _ tidy' =>
    tidy'.run (placed r hr)

lemma clearInbox (tidy : h.Tidy n) (context : Nat) : (h.clearInbox context).Tidy n := by
  refine ⟨tidy.next, fun a ha hother => ?_, tidy.queues⟩
  rw [inbox_clearInbox, tidy.inboxes a ha hother, ite_self]

lemma clearQueue (tidy : h.Tidy n) (runner : Nat) : (h.clearQueue runner).Tidy n := by
  refine ⟨tidy.next, tidy.inboxes, fun a ha hother => ?_⟩
  rw [queue_clearQueue, tidy.queues a ha hother, ite_self]

lemma disposeEach (tidy : h.Tidy n) (tokens : List Token) : (h.disposeEach tokens).Tidy n := by
  rw [disposeEach_eq]
  exact ⟨tidy.next, tidy.inboxes, tidy.queues⟩

end Hub.Tidy

/-! ## Sessions -/

/-- What there is on the hub from the address `n` on is accounted for: the runner has the tokens of
its handlers, and the context tracks its own. -/
structure Session.Holds (n : Nat) (tokens : List Token) (s : Session) : Prop where
  address : s.context.address = n + 1
  tidy : s.hub.Tidy n
  placed : ∀ r ∈ s.hub.bus.registrations, r.handler.Placed n
  bindings : ∀ r ∈ s.hub.bus.registrations, ∀ target, r.handler = .enqueue n target →
    r.token ∈ tokens
  watches : ∀ r ∈ s.hub.bus.registrations, ∀ event, r.handler = .tally (n + 1) event →
    ∃ sub ∈ s.context.subscriptions, sub.token = r.token

namespace Session.Holds

variable {tokens : List Token} {s : Session}

lemma tidy_perform (holds : s.Holds n tokens) (d : Deed) : (d.perform s).hub.Tidy n := by
  have tidy := holds.tidy
  cases d with
  | publish event => exact tidy.publish holds.placed event
  | flush => exact tidy.clearInbox s.context.address
  | reset | dispose => exact (tidy.disposeEach _).clearInbox s.context.address
  | release => exact tidy.disposeEach _
  | releaseNode guid => exact tidy.disposeEach _
  | clearQueue runner => exact tidy.clearQueue runner
  | _ => exact ⟨tidy.next, tidy.inboxes, tidy.queues⟩

/-- What a deed registers is for somebody else, or it is tracked. -/
lemma of_opened (holds : s.Holds n tokens) {d : Deed} (may : d.Foreign n ∨ d.Manages)
    {r : Registration Handler} (h : d.opened s = some r) :
    r.handler.Foreign n ∨ (∃ event, r.handler = .tally (n + 1) event) ∧
      ∃ sub, d.tracked s = some sub ∧ sub.token = r.token := by
  cases d with
  | subscribe | subscribeForNode | connect =>
      cases h
      exact .inl (may.elim id False.elim)
  | watch event =>
      cases h
      exact .inr ⟨⟨event, by rw [holds.address]⟩, _, rfl, rfl⟩
  | _ => cases h

/-- Deeds for others and deeds by which a machine or a runner looks after its session leave
everything accounted for. -/
lemma perform (holds : s.Holds n tokens) {d : Deed} (may : d.Foreign n ∨ d.Manages) :
    (d.perform s).Holds n tokens := by
  refine ⟨(d.address_perform s).trans holds.address, holds.tidy_perform d, ?_, ?_, ?_⟩
  · intro r hr
    rcases Deed.mem_registrations_perform.mp hr with ⟨hold, -⟩ | hnew
    · exact holds.placed r hold
    · rcases holds.of_opened may hnew with hforeign | ⟨⟨event, hwatch⟩, -⟩
      · exact .foreign hforeign
      · rw [hwatch]
        exact .watch
  · intro r hr target htarget
    rcases Deed.mem_registrations_perform.mp hr with ⟨hold, -⟩ | hnew
    · exact holds.bindings r hold target htarget
    · rcases holds.of_opened may hnew with hforeign | ⟨⟨event, hwatch⟩, -⟩
      · have hlow := hforeign n (by rw [htarget]; rfl)
        exact absurd hlow (Nat.lt_irrefl n)
      · rw [hwatch] at htarget
        cases htarget
  · intro r hr event hevent
    rcases Deed.mem_registrations_perform.mp hr with ⟨hold, hended⟩ | hnew
    · obtain ⟨sub, hsub, htoken⟩ := holds.watches r hold event hevent
      have hlive : s.hub.bus.isLive sub.token := (Bus.isLive_iff _ _).mpr ⟨r, hold, htoken.symm⟩
      exact ⟨sub, Deed.mem_subscriptions_perform hsub hlive (htoken ▸ hended), htoken⟩
    · rcases holds.of_opened may hnew with hforeign | ⟨-, sub, hsub, htoken⟩
      · have hlow := hforeign (n + 1) (by rw [hevent]; rfl)
        omega
      · exact ⟨sub, Deed.mem_subscriptions_of_tracked hsub, htoken⟩

lemma replayAll (holds : s.Holds n tokens) {moments : List Moment}
    (did : ∀ d, .did d ∈ moments → d.Foreign n)
    (manages : ∀ d, .managed d ∈ moments → d.Manages) :
    (Moment.replayAll moments s).Holds n tokens := by
  induction moments generalizing s with
  | nil => exact holds
  | cons m rest ih =>
      have hnext : (m.replay s).Holds n tokens := by
        cases m with
        | called | compared => exact holds
        | did d => exact holds.perform (.inl (did d List.mem_cons_self))
        | managed d => exact holds.perform (.inr (manages d List.mem_cons_self))
      exact ih hnext (fun d hd => did d (List.mem_cons_of_mem m hd))
        fun d hd => manages d (List.mem_cons_of_mem m hd)

end Session.Holds

/-! ## Runners -/

/-- The runner has the address `n`, and what there is on the hub from there on is accounted for. -/
structure Runner.Housed (n : Nat) (r : Runner) : Prop where
  address : r.address = n
  holds : r.machine.session.Holds n r.tokens
  disabled : r.enabled = false → r.tokens = []

namespace Runner

open Command

variable {r : Runner}

/-- A new runner has nothing on the hub but its addresses. -/
lemma housed_create (g : Graph) {h : Hub} (regular : h.Regular) (settings : RunnerSettings) :
    (create g h settings).Housed h.nextAddress := by
  have hplaced : ∀ r ∈ h.bus.registrations, r.handler.Foreign h.nextAddress := regular.addressed
  refine ⟨rfl, ⟨rfl, ⟨rfl, ?_, ?_⟩, fun r hr => .foreign (hplaced r hr), ?_, ?_⟩, fun _ => rfl⟩
  · exact fun a ha _ => regular.inboxes a ha
  · exact fun a ha _ => regular.queues a ha
  · intro r hr target htarget
    have hlow := hplaced r hr h.nextAddress (by rw [htarget]; rfl)
    exact absurd hlow (Nat.lt_irrefl _)
  · intro r hr event hevent
    have hlow := hplaced r hr (h.nextAddress + 1) (by rw [hevent]; rfl)
    omega

lemma Housed.tends (housed : r.Housed n) {moments : List Moment} {next : Runner}
    (tends : r.Tends moments next) (did : ∀ d, .did d ∈ moments → d.Foreign n) :
    next.Housed n := by
  cases tends with
  | @mk m paused timeScale session manages =>
      have hholds := housed.holds.replayAll did manages
      rw [← session] at hholds
      exact ⟨housed.address, hholds, housed.disabled⟩

lemma Housed.enable (housed : r.Housed n) : r.enable.Housed n := by
  cases henabled : r.enabled with
  | true => rwa [enable_of_enabled henabled]
  | false =>
      obtain ⟨new, henable, -, hnew⟩ := exists_enable henabled
      have hown : ∀ r' ∈ new, ∃ target, r'.handler = .enqueue n target := by
        intro r' hr'
        have hsome := (hnew r' hr').1
        rw [housed.address] at hsome
        exact Handler.exists_of_isSome_target? hsome
      obtain ⟨haddress, htidy, hplaced, hbindings, hwatches⟩ := housed.holds
      rw [henable]
      refine ⟨housed.address, ⟨haddress, ⟨htidy.next, htidy.inboxes, htidy.queues⟩, ?_, ?_, ?_⟩,
        nofun⟩
      · intro r' hr'
        rcases List.mem_append.mp hr' with hold | hfresh
        · exact hplaced r' hold
        · obtain ⟨target, htarget⟩ := hown r' hfresh
          rw [htarget]
          exact .binding
      · intro r' hr' target htarget
        rcases List.mem_append.mp hr' with hold | hfresh
        · exact List.mem_append_left _ (hbindings r' hold target htarget)
        · exact List.mem_append_right _ (List.mem_map_of_mem hfresh)
      · intro r' hr' event hevent
        rcases List.mem_append.mp hr' with hold | hfresh
        · exact hwatches r' hold event hevent
        · obtain ⟨target, htarget⟩ := hown r' hfresh
          rw [htarget] at hevent
          cases hevent

lemma Housed.disable (housed : r.Housed n) : r.disable.Housed n := by
  cases henabled : r.enabled with
  | false => rwa [disable_of_disabled henabled]
  | true =>
      obtain ⟨haddress, htidy, hplaced, hbindings, hwatches⟩ := housed.holds
      have hkept : ∀ r' ∈ r.hub.bus.registrations.filter fun r' => !r.tokens.contains r'.token,
          r' ∈ r.hub.bus.registrations ∧ r'.token ∉ r.tokens := by
        intro r' hr'
        obtain ⟨hold, hother⟩ := List.mem_filter.mp hr'
        exact ⟨hold, by simpa using hother⟩
      rw [disable_eq henabled]
      refine ⟨housed.address, ⟨haddress, ⟨htidy.next, htidy.inboxes, htidy.queues⟩, ?_, ?_, ?_⟩,
        fun _ => rfl⟩
      · exact fun r' hr' => hplaced r' (hkept r' hr').1
      · intro r' hr' target htarget
        obtain ⟨hold, hother⟩ := hkept r' hr'
        exact absurd (hbindings r' hold target htarget) hother
      · exact fun r' hr' => hwatches r' (hkept r' hr').1

end Runner

namespace Order

open Runner

variable {g : Graph} {r : Runner}

/-- Whatever a runner is told, what it has on the hub stays accounted for. -/
lemma housed_perform (housed : r.Housed n) (settled : Command.Settled g r.machine)
    (p : g.Conduct (Deed.Foreign n)) {o : Order} (host : o.HostMay (Deed.Foreign n)) :
    (o.perform r).Housed n := by
  have hdid : ∀ d, .did d ∈ o.moments p.deeds r → d.Foreign n :=
    fun d hd => allowed_of_did_mem_moments settled p host hd
  have hphases := o.phases_perform settled p
  generalize o.moments p.deeds r = moments, o.perform r = next at hphases hdid ⊢
  cases hphases with
  | tends tends => exact housed.tends tends hdid
  | enables tends =>
      exact (housed.tends tends fun d hd => hdid d (List.mem_append_left _ hd)).enable
  | disables tends =>
      exact (housed.tends tends fun d hd => hdid d (List.mem_append_left _ hd)).disable

lemma housed_performAll (housed : r.Housed n) (settled : Command.Settled g r.machine)
    (p : g.Conduct (Deed.Foreign n)) {orders : List Order}
    (host : ∀ o ∈ orders, o.HostMay (Deed.Foreign n)) : (performAll orders r).Housed n := by
  induction orders generalizing r with
  | nil => exact housed
  | cons o rest ih =>
      exact ih (housed_perform housed settled p (host o List.mem_cons_self))
        (session_perform settled p o).1 fun k hk => host k (List.mem_cons_of_mem o hk)

end Order
end WorkflowGraph
