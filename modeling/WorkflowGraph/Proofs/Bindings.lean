import Mathlib.Data.List.DropRight
import WorkflowGraph.Proofs.Registrations
import WorkflowGraph.Runner

/-!
# The bindings of a runner on the bus

A runner that is enabled has a registration for each of its bindings (`Hub.ties`), and what is
published is led to its queue by them.  The registrations are the runner's own: no node and no
host has their tokens, or a handler of the same kind (`Deed.LeavesAlone`).  So they stay as they
are while nodes and the machine act (`Session.Apart.perform`), and all that happens to the queue is
that targets are appended, and that it is emptied (`Deed.queue_perform`).

What waits is said without the limit of the queue: `Deed.arrive` keeps all targets, and the queue
holds the last of them.
-/

namespace List

variable {α : Type}

lemma rtake_rtake_append (l after : List α) (n : Nat) :
    (l.rtake n ++ after).rtake n = (l ++ after).rtake n := by
  have hmin : min (n - after.length) n = n - after.length := Nat.min_eq_left (Nat.sub_le _ _)
  simp only [rtake_eq_reverse_take_reverse, reverse_append, take_append, reverse_reverse,
    take_take, length_reverse, hmin]

lemma length_rtake_le (l : List α) (n : Nat) : (l.rtake n).length ≤ n := by
  simp only [rtake, length_drop]
  omega

lemma rtake_eq_self_iff {l : List α} {n : Nat} : l.rtake n = l ↔ l.length ≤ n := by
  constructor
  · intro h
    rw [← h]
    exact length_rtake_le l n
  · intro h
    rw [rtake, Nat.sub_eq_zero_of_le h, drop_zero]

end List

namespace WorkflowGraph

/-- Where a handler leads, if it is one of the runner's. -/
def Handler.target? (runner : Nat) : Handler → Option Guid
  | .enqueue address target => if address = runner then some target else none
  | _ => none

lemma Handler.exists_of_isSome_target? {runner : Nat} {handler : Handler}
    (leads : (handler.target? runner).isSome) : ∃ target, handler = .enqueue runner target := by
  cases handler with
  | enqueue address target =>
      rw [target?] at leads
      by_cases hsame : address = runner
      · exact ⟨target, by rw [hsame]⟩
      · simp [hsame] at leads
  | tally | notify => simp [target?] at leads

/-- The targets that bindings have for an event, in their order. -/
def Binding.targets (bindings : List Binding) (event : String) : List Guid :=
  (bindings.filter fun b => b.event == event).map (·.target)

namespace Hub

/-- The registrations of a runner. -/
def ties (h : Hub) (runner : Nat) : List (Registration Handler) :=
  h.bus.registrations.filter fun r => (r.handler.target? runner).isSome

/-- The bindings that the registrations of a runner amount to. -/
def bound (h : Hub) (runner : Nat) : List Binding :=
  (h.ties runner).filterMap fun r =>
    (r.handler.target? runner).map fun target => ⟨r.token.event, target⟩

/-! ## The queue -/

/-- Making room for one more is to keep the last ones. -/
lemma make_room (waiting : List Guid) (target : Guid) (short : waiting.length ≤ queueLimit) :
    (if queueLimit ≤ waiting.length then waiting.drop 1 else waiting) ++ [target] =
      (waiting ++ [target]).rtake queueLimit := by
  rw [List.rtake, List.length_append, List.length_singleton]
  split
  · rename_i hfull
    have hone : waiting.length + 1 - queueLimit = 1 := by omega
    have hpos : 1 ≤ waiting.length := by
      have hlimit : 1 ≤ queueLimit := by decide
      omega
    rw [hone, List.drop_append_of_le_length hpos]
  · have hzero : waiting.length + 1 - queueLimit = 0 := by omega
    rw [hzero, List.drop_zero]

lemma queue_enqueue (h : Hub) (address runner : Nat) (target : Guid)
    (short : (h.queue runner).length ≤ queueLimit) :
    (h.enqueue address target).queue runner =
      if address = runner then (h.queue runner ++ [target]).rtake queueLimit
      else h.queue runner := by
  by_cases hsame : address = runner
  · subst hsame
    rw [if_pos rfl, ← make_room _ target short]
    simp [enqueue, queue]
  · simp [enqueue, queue, Std.ExtTreeMap.getD_insert, hsame]

lemma queue_run (h : Hub) (handler : Handler) (runner : Nat)
    (short : (h.queue runner).length ≤ queueLimit) :
    (h.run handler).queue runner =
      (h.queue runner ++ (handler.target? runner).toList).rtake queueLimit := by
  cases handler with
  | enqueue address target =>
      rw [run, queue_enqueue h address runner target short, Handler.target?]
      split
      · rfl
      · rw [Option.toList_none, List.append_nil, List.rtake_eq_self_iff.mpr short]
  | tally | notify =>
      simp only [Handler.target?, Option.toList_none, List.append_nil,
        List.rtake_eq_self_iff.mpr short]
      rfl

/-- Handlers that are run one after the other put their targets into the queue in their order. -/
lemma queue_foldl_run (handlers : List Handler) (h : Hub) (runner : Nat)
    (short : (h.queue runner).length ≤ queueLimit) :
    (handlers.foldl run h).queue runner =
      (h.queue runner ++ handlers.filterMap (·.target? runner)).rtake queueLimit := by
  induction handlers generalizing h with
  | nil =>
      rw [List.foldl_nil, List.filterMap_nil, List.append_nil, List.rtake_eq_self_iff.mpr short]
  | cons handler rest ih =>
      have hrun := queue_run h handler runner short
      have hshort : ((h.run handler).queue runner).length ≤ queueLimit := by
        rw [hrun]
        exact List.length_rtake_le _ _
      rw [List.foldl_cons, ih _ hshort, hrun, List.rtake_rtake_append, List.append_assoc]
      cases htarget : handler.target? runner with
      | none => simp [htarget]
      | some target => simp [htarget]

/-- The handlers of a runner for an event lead to the targets of its bindings. -/
lemma targets_bound (h : Hub) (runner : Nat) (event : String) :
    (h.bus.handlersOf event).filterMap (·.target? runner) =
      Binding.targets (h.bound runner) event := by
  simp only [Bus.handlersOf, bound, ties, Binding.targets]
  induction h.bus.registrations with
  | nil => rfl
  | cons r rest ih =>
      cases htarget : r.handler.target? runner with
      | none => by_cases hevent : r.token.event = event <;> simp_all
      | some target => by_cases hevent : r.token.event = event <;> simp_all

lemma queue_publish (h : Hub) (event : String) (runner : Nat)
    (short : (h.queue runner).length ≤ queueLimit) :
    (h.publish event).queue runner =
      (h.queue runner ++ Binding.targets (h.bound runner) event).rtake queueLimit := by
  rw [publish, queue_foldl_run _ h runner short, targets_bound]

lemma inbox_clearInbox (h : Hub) (address context : Nat) :
    (h.clearInbox address).inbox context = if address = context then ∅ else h.inbox context := by
  by_cases hsame : address = context
  · subst hsame
    simp [clearInbox, inbox]
  · simp [clearInbox, inbox, Std.ExtTreeMap.getD_erase, hsame]

lemma queue_clearQueue (h : Hub) (address runner : Nat) :
    (h.clearQueue address).queue runner = if address = runner then [] else h.queue runner := by
  by_cases hsame : address = runner
  · subst hsame
    simp [clearQueue, queue]
  · simp [clearQueue, queue, Std.ExtTreeMap.getD_erase, hsame]

end Hub

/-! ## What leaves a runner alone -/

/-- Tokens are told apart from those of the runner: registrations and tracked tokens have been
given out, and the context tracks none of the runner's. -/
structure Session.Apart (s : Session) (runner : Nat) : Prop where
  registered : ∀ r ∈ s.hub.bus.registrations, r.token.id < s.hub.bus.nextId
  tracked : s.Orderly
  apart : ∀ sub ∈ s.context.subscriptions, ∀ r ∈ s.hub.ties runner, r.token ≠ sub.token

namespace Deed

/-- The deed neither registers a handler of the runner's nor disposes of one of its tokens. -/
def SparesTies (runner : Nat) : Deed → Session → Prop
  | .subscribe _ handler, _ | .subscribeForNode _ handler, _ | .connect _ handler, _ =>
    handler.target? runner = none
  | .disposeToken token, s => ∀ r ∈ s.hub.ties runner, r.token ≠ token
  | _, _ => True

/-- The deed does nothing to what the runner has on the hub. -/
def LeavesAlone (runner : Nat) (d : Deed) (s : Session) : Prop :=
  d.SparesTies runner s ∧ d ≠ .clearQueue runner

/-- Deeds by which a machine or a runner looks after its session, its bindings apart. -/
def Manages : Deed → Prop
  | .subscribe .. | .subscribeForNode .. | .watch _ | .connect .. | .disposeToken _
  | .publish _ => False
  | _ => True

variable {runner : Nat} {d : Deed} {s : Session}

lemma Manages.sparesTies (manages : d.Manages) (s : Session) : d.SparesTies runner s := by
  cases d with
  | subscribe | subscribeForNode | connect | disposeToken => exact manages.elim
  | _ => trivial

lemma SparesTies.not_mem_ended (spares : d.SparesTies runner s) (apart : s.Apart runner)
    {r : Registration Handler} (hr : r ∈ s.hub.ties runner) : r.token ∉ d.ended s := by
  have htracked : r.token ∉ s.context.subscriptions.map (·.token) := by
    intro h
    obtain ⟨sub, hsub, htoken⟩ := List.mem_map.mp h
    exact apart.apart sub hsub r hr htoken.symm
  cases d with
  | disposeToken token =>
      intro h
      exact spares r hr (List.mem_singleton.mp h)
  | releaseNode guid =>
      intro h
      obtain ⟨sub, hsub, htoken⟩ := List.mem_map.mp h
      exact htracked (List.mem_map.mpr ⟨sub, (List.mem_filter.mp hsub).1, htoken⟩)
  | release | reset | dispose => exact htracked
  | _ => exact List.not_mem_nil

lemma SparesTies.target?_of_opened (spares : d.SparesTies runner s) {r : Registration Handler}
    (h : d.opened s = some r) : r.handler.target? runner = none := by
  cases d with
  | subscribe | subscribeForNode | connect =>
      cases h
      exact spares
  | watch event =>
      cases h
      rfl
  | _ => cases h

/-- A deed that spares the registrations of a runner leaves them as they are. -/
lemma SparesTies.ties_perform (spares : d.SparesTies runner s) (apart : s.Apart runner) :
    (d.perform s).hub.ties runner = s.hub.ties runner := by
  have hopened : (d.opened s).toList.filter (fun r => (r.handler.target? runner).isSome) = [] := by
    cases hd : d.opened s with
    | none => rfl
    | some r => simp [spares.target?_of_opened hd]
  have hended : ∀ r ∈ s.hub.ties runner, (!(d.ended s).contains r.token) = true := by
    intro r hr
    simpa using spares.not_mem_ended apart hr
  simp only [Hub.ties, bus_perform, List.filter_append, hopened, List.append_nil,
    List.filter_filter]
  refine Eq.trans ?_ (List.filter_eq_self.mpr hended)
  simp only [List.filter_filter, Bool.and_comm]

end Deed

namespace Session.Apart

variable {runner : Nat} {d : Deed} {s : Session}

/-- A deed that spares the registrations of a runner leaves tokens told apart. -/
lemma perform (apart : s.Apart runner) (spares : d.SparesTies runner s) :
    (d.perform s).Apart runner := by
  have hnext := d.nextId_le_perform s
  have hties := spares.ties_perform apart
  refine ⟨?_, d.orderly_perform s apart.tracked, ?_⟩
  · intro r hr
    rcases Deed.mem_registrations_perform.mp hr with ⟨hold, -⟩ | hnew
    · exact Nat.lt_of_lt_of_le (apart.registered r hold) hnext
    · rw [Deed.id_of_opened hnew, Deed.bus_perform, hnew]
      exact Nat.lt_succ_self _
  · intro sub hsub r hr
    rw [hties] at hr
    rcases Deed.of_mem_subscriptions_perform hsub with hold | hnew
    · exact apart.apart sub hold r hr
    · intro htoken
      have hid := apart.registered r (List.mem_filter.mp hr).1
      rw [htoken, Deed.id_of_tracked hnew] at hid
      exact Nat.lt_irrefl _ hid

/-- New registrations, with ids that have not been given out, leave tokens told apart. -/
lemma register (apart : s.Apart runner) {new : List (Registration Handler)} {count : Nat}
    (fresh : ∀ r ∈ new, s.hub.bus.nextId ≤ r.token.id ∧ r.token.id < s.hub.bus.nextId + count) :
    (s.onHub fun h =>
      { h with bus := ⟨h.bus.registrations ++ new, h.bus.nextId + count⟩ }).Apart runner := by
  refine ⟨?_, ?_, ?_⟩
  · intro r hr
    rcases List.mem_append.mp hr with hold | hnew
    · exact Nat.lt_of_lt_of_le (apart.registered r hold) (Nat.le_add_right _ _)
    · exact (fresh r hnew).2
  · exact fun sub hsub => Nat.lt_of_lt_of_le (apart.tracked sub hsub) (Nat.le_add_right _ _)
  · intro sub hsub r hr htoken
    obtain ⟨hr, hleads⟩ := List.mem_filter.mp hr
    rcases List.mem_append.mp hr with hold | hnew
    · exact apart.apart sub hsub r (List.mem_filter.mpr ⟨hold, hleads⟩) htoken
    · have htracked : r.token.id < s.hub.bus.nextId := htoken ▸ apart.tracked sub hsub
      exact Nat.not_lt.mpr (fresh r hnew).1 htracked

lemma unregister (apart : s.Apart runner) (keeps : Registration Handler → Bool) :
    (s.onHub fun h => { h with bus := { h.bus with
      registrations := h.bus.registrations.filter keeps } }).Apart runner := by
  refine ⟨fun r hr => apart.registered r (List.mem_filter.mp hr).1, apart.tracked, ?_⟩
  intro sub hsub r hr
  obtain ⟨hr, hleads⟩ := List.mem_filter.mp hr
  exact apart.apart sub hsub r (List.mem_filter.mpr ⟨(List.mem_filter.mp hr).1, hleads⟩)

end Session.Apart

/-! ## What waits -/

/-- What waits for a runner after a deed, if the bindings lead to it what is published. -/
def Deed.arrive (runner : Nat) (bindings : List Binding) (waiting : List Guid) :
    Deed → List Guid
  | .publish event => waiting ++ Binding.targets bindings event
  | .clearQueue address => if address = runner then [] else waiting
  | _ => waiting

/-- What waits for a runner has waited before, or a binding leads to it. -/
lemma Deed.of_mem_arrive {runner : Nat} {bindings : List Binding} {waiting : List Guid}
    {guid : Guid} (d : Deed) (h : guid ∈ d.arrive runner bindings waiting) :
    guid ∈ waiting ∨ guid ∈ bindings.map (·.target) := by
  cases d with
  | publish event =>
      apply (List.mem_append.mp h).imp_right
      intro htarget
      obtain ⟨b, hb, rfl⟩ := List.mem_map.mp htarget
      exact List.mem_map_of_mem (List.mem_filter.mp hb).1
  | clearQueue address =>
      rw [arrive] at h
      split at h
      · cases h
      · exact .inl h
  | _ => exact .inl h

/-- The queue of a runner holds the last of what waits, before and after a deed. -/
lemma Deed.queue_perform {runner : Nat} {waiting : List Guid} (d : Deed) {s : Session}
    (h : s.hub.queue runner = waiting.rtake Hub.queueLimit) :
    (d.perform s).hub.queue runner =
      (d.arrive runner (s.hub.bound runner) waiting).rtake Hub.queueLimit := by
  have hshort : (s.hub.queue runner).length ≤ Hub.queueLimit := by
    rw [h]
    exact List.length_rtake_le _ _
  have hdispose : ∀ tokens, (s.hub.disposeEach tokens).queue runner = s.hub.queue runner := by
    intro tokens
    rw [Hub.disposeEach_eq]
    rfl
  cases d with
  | publish event =>
      refine (Hub.queue_publish s.hub event runner hshort).trans ?_
      rw [h, List.rtake_rtake_append]
      rfl
  | clearQueue address =>
      refine (Hub.queue_clearQueue s.hub address runner).trans ?_
      rw [arrive, h]
      split <;> rfl
  | releaseNode guid | release | reset | dispose => exact (hdispose _).trans h
  | _ => exact h

namespace Moment

/-- What waits for a runner after a moment. -/
def arrive (runner : Nat) (bindings : List Binding) (waiting : List Guid) : Moment → List Guid
  | .did d | .managed d => d.arrive runner bindings waiting
  | .called .. | .compared => waiting

lemma of_mem_foldl_arrive {runner : Nat} {bindings : List Binding} {moments : List Moment}
    {waiting : List Guid} {guid : Guid}
    (h : guid ∈ moments.foldl (arrive runner bindings) waiting) :
    guid ∈ waiting ∨ guid ∈ bindings.map (·.target) := by
  induction moments generalizing waiting with
  | nil => exact .inl h
  | cons m rest ih =>
      rcases ih h with hfirst | hrest
      · cases m with
        | did d | managed d => exact d.of_mem_arrive hfirst
        | called | compared => exact .inl hfirst
      · exact .inr hrest

/-- Nodes and the host leave alone what the runner has on the hub. -/
def LeaveAlone (runner : Nat) : List Moment → Session → Prop
  | [], _ => True
  | .did d :: rest, s => d.LeavesAlone runner s ∧ LeaveAlone runner rest (d.perform s)
  | m :: rest, s => LeaveAlone runner rest (m.replay s)

lemma leaveAlone_append {runner : Nat} {before after : List Moment} {s : Session} :
    LeaveAlone runner (before ++ after) s ↔
      LeaveAlone runner before s ∧ LeaveAlone runner after (replayAll before s) := by
  induction before generalizing s with
  | nil => exact ⟨fun h => ⟨trivial, h⟩, fun h => h.2⟩
  | cons m rest ih =>
      cases m with
      | did d =>
          rw [List.cons_append, LeaveAlone, LeaveAlone, ih, and_assoc]
          rfl
      | managed d => exact ih
      | called phase n => exact ih
      | compared => exact ih

/-- Whoever does only deeds that leave a runner alone leaves it alone. -/
lemma leaveAlone_of_forall {runner : Nat} {moments : List Moment}
    (alone : ∀ d, .did d ∈ moments → ∀ s, d.LeavesAlone runner s) (s : Session) :
    LeaveAlone runner moments s := by
  induction moments generalizing s with
  | nil => trivial
  | cons m rest ih =>
      have hrest := ih fun d hd => alone d (List.mem_cons_of_mem m hd)
      cases m with
      | did d => exact ⟨alone d List.mem_cons_self s, hrest _⟩
      | managed | called | compared => exact hrest _

end Moment

/-- While nodes and the host leave a runner alone, and the machine and the runner do nothing to its
bindings, the registrations of the runner stay and its queue holds the last of what waits. -/
lemma Session.Apart.replayAll {runner : Nat} {waiting : List Guid} {moments : List Moment}
    {s : Session} (apart : s.Apart runner) (alone : Moment.LeaveAlone runner moments s)
    (manages : ∀ d, .managed d ∈ moments → d.Manages)
    (h : s.hub.queue runner = waiting.rtake Hub.queueLimit) :
    (Moment.replayAll moments s).Apart runner ∧
      (Moment.replayAll moments s).hub.ties runner = s.hub.ties runner ∧
      (Moment.replayAll moments s).hub.queue runner =
        (moments.foldl (Moment.arrive runner (s.hub.bound runner)) waiting).rtake
          Hub.queueLimit := by
  induction moments generalizing s waiting with
  | nil => exact ⟨apart, rfl, h⟩
  | cons m rest ih =>
      have hrest : ∀ d, .managed d ∈ rest → d.Manages :=
        fun d hd => manages d (List.mem_cons_of_mem m hd)
      -- Where the bindings lead is fixed at the beginning, so a deed must leave them as they are
      -- before the rest can follow.
      have hdeed : ∀ d : Deed, d.SparesTies runner s →
          Moment.LeaveAlone runner rest (d.perform s) →
          (Moment.replayAll rest (d.perform s)).Apart runner ∧
            (Moment.replayAll rest (d.perform s)).hub.ties runner = s.hub.ties runner ∧
            (Moment.replayAll rest (d.perform s)).hub.queue runner =
              (rest.foldl (Moment.arrive runner (s.hub.bound runner))
                (d.arrive runner (s.hub.bound runner) waiting)).rtake Hub.queueLimit := by
        intro d spares aloneRest
        have hties := spares.ties_perform apart
        have hbound : (d.perform s).hub.bound runner = s.hub.bound runner := by
          rw [Hub.bound, Hub.bound, hties]
        have hlast := ih (apart.perform spares) aloneRest hrest (d.queue_perform h)
        rwa [hties, hbound] at hlast
      cases m with
      | did d => exact hdeed d alone.1.1 alone.2
      | managed d => exact hdeed d ((manages d List.mem_cons_self).sparesTies s) alone
      | called | compared => exact ih apart alone hrest h

/-! ## Hubs -/

/-- Whom a handler is for. -/
def Handler.address? : Handler → Option Nat
  | .tally address _ | .enqueue address _ => some address
  | .notify _ => none

/-- Everything on the hub is there for somebody who has been given an address, and under a token
that has been given out. -/
structure Hub.Regular (h : Hub) : Prop where
  registered : ∀ r ∈ h.bus.registrations, r.token.id < h.bus.nextId
  addressed : ∀ r ∈ h.bus.registrations, ∀ a, r.handler.address? = some a → a < h.nextAddress
  inboxes : ∀ a, h.nextAddress ≤ a → h.inbox a = ∅
  queues : ∀ a, h.nextAddress ≤ a → h.queue a = []

namespace Hub

lemma regular_empty : ({} : Hub).Regular where
  registered := nofun
  addressed := nofun
  inboxes a _ := by simp [inbox]
  queues a _ := by simp [queue]

lemma Regular.ties_eq_nil {h : Hub} (regular : h.Regular) {a : Nat} (new : h.nextAddress ≤ a) :
    h.ties a = [] := by
  refine List.filter_eq_nil_iff.mpr fun r hr leads => ?_
  obtain ⟨target, htarget⟩ := Handler.exists_of_isSome_target? leads
  have haddress : r.handler.address? = some a := by
    rw [htarget]
    rfl
  have hold := regular.addressed r hr a haddress
  omega

end Hub

end WorkflowGraph
