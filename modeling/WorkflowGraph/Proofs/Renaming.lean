import Mathlib.Logic.Function.Defs
import WorkflowGraph.Proofs.Bindings

/-!
# Sessions that differ in addresses

Where on a hub a context has its inbox and a runner its queue is nothing that anybody can see.
`Session.Twins σ timed s s'` says that `s'` is `s` with the addresses renamed along `σ`, and with
whatever times, as far as `timed` leaves them open: the same tokens are out, the same events wait
under the new addresses, and the contexts agree.  What `s'` has under addresses that `σ` does not
lead to is left open, so that somebody else may be there.

A deed done to a session and the renamed deed done to its twin leave twins behind
(`Session.Twins.perform`), and so do moments (`Session.Twins.replay`).  The calls of nodes on
the way are the same, with the same blackboards (`Session.Twins.witnessed_eq`).
-/

namespace WorkflowGraph

variable {σ : Nat → Nat}

/-! ## Renaming -/

/-- The handler of the renamed context or runner. -/
def Handler.rename (σ : Nat → Nat) : Handler → Handler
  | .tally context event => .tally (σ context) event
  | .enqueue runner target => .enqueue (σ runner) target
  | .notify label => .notify label

def Registration.rename (σ : Nat → Nat) (r : Registration Handler) : Registration Handler :=
  { r with handler := r.handler.rename σ }

/-- The deed done for the renamed contexts and runners. -/
def Deed.rename (σ : Nat → Nat) : Deed → Deed
  | .subscribe event handler => .subscribe event (handler.rename σ)
  | .subscribeForNode event handler => .subscribeForNode event (handler.rename σ)
  | .connect event handler => .connect event (handler.rename σ)
  | .clearQueue runner => .clearQueue (σ runner)
  | d => d

def Moment.rename (σ : Nat → Nat) : Moment → Moment
  | .did d => .did (d.rename σ)
  | .managed d => .managed (d.rename σ)
  | m => m

/-! ## Hubs -/

/-- The hub `h'` is the hub `h` with the addresses renamed. -/
structure Hub.Twins (σ : Nat → Nat) (h h' : Hub) : Prop where
  registrations : h'.bus.registrations = h.bus.registrations.map (Registration.rename σ)
  nextId : h'.bus.nextId = h.bus.nextId
  inbox : ∀ a, h'.inbox (σ a) = h.inbox a
  queue : ∀ a, h'.queue (σ a) = h.queue a
  journal : h'.journal = h.journal

namespace Hub.Twins

variable {h h' : Hub}

lemma isLive (twins : h.Twins σ h') (t : Token) : h'.bus.isLive t = h.bus.isLive t := by
  rw [Bus.isLive, Bus.isLive, twins.registrations, List.any_map]
  rfl

lemma handlersOf (twins : h.Twins σ h') (event : String) :
    h'.bus.handlersOf event = (h.bus.handlersOf event).map (Handler.rename σ) := by
  rw [Bus.handlersOf, Bus.handlersOf, twins.registrations, List.filter_map, List.map_map,
    List.map_map]
  rfl

lemma count (twins : h.Twins σ h') (event : String) : h'.bus.count event = h.bus.count event := by
  rw [Bus.count, Bus.count, twins.handlersOf, List.length_map]

lemma total (twins : h.Twins σ h') : h'.bus.total = h.bus.total := by
  rw [Bus.total, Bus.total, twins.registrations, List.length_map]

/-! ### What is done to a hub -/

lemma note (twins : h.Twins σ h') (n : Notice) : (h.note n).Twins σ (h'.note n) := by
  refine ⟨twins.registrations, twins.nextId, twins.inbox, twins.queue, ?_⟩
  rw [Hub.note, Hub.note, twins.journal]

lemma subscribe (twins : h.Twins σ h') (event : String) (handler : Handler) :
    (h'.subscribe event (handler.rename σ)).1 = (h.subscribe event handler).1 ∧
      (h.subscribe event handler).2.Twins σ (h'.subscribe event (handler.rename σ)).2 := by
  refine ⟨?_, ?_, ?_, twins.inbox, twins.queue, twins.journal⟩
  · simp [Hub.subscribe, Bus.subscribe, twins.nextId]
  · simp [Hub.subscribe, Bus.subscribe, twins.registrations, twins.nextId, Registration.rename]
  · simp [Hub.subscribe, Bus.subscribe, twins.nextId]

lemma disposeEach (twins : h.Twins σ h') (tokens : List Token) :
    (h.disposeEach tokens).Twins σ (h'.disposeEach tokens) := by
  rw [disposeEach_eq, disposeEach_eq]
  refine ⟨?_, twins.nextId, twins.inbox, twins.queue, twins.journal⟩
  rw [twins.registrations, List.filter_map]
  rfl

lemma dispose (twins : h.Twins σ h') (t : Token) : (h.dispose t).Twins σ (h'.dispose t) :=
  twins.disposeEach [t]

lemma clearInbox (inj : Function.Injective σ) (twins : h.Twins σ h') (a : Nat) :
    (h.clearInbox a).Twins σ (h'.clearInbox (σ a)) := by
  refine ⟨twins.registrations, twins.nextId, fun b => ?_, twins.queue, twins.journal⟩
  simp only [inbox_clearInbox, inj.eq_iff, twins.inbox b]

lemma clearQueue (inj : Function.Injective σ) (twins : h.Twins σ h') (a : Nat) :
    (h.clearQueue a).Twins σ (h'.clearQueue (σ a)) := by
  refine ⟨twins.registrations, twins.nextId, twins.inbox, fun b => ?_, twins.journal⟩
  simp only [queue_clearQueue, inj.eq_iff, twins.queue b]

lemma tally (inj : Function.Injective σ) (twins : h.Twins σ h') (a : Nat) (event : String) :
    (h.tally a event).Twins σ (h'.tally (σ a) event) := by
  refine ⟨twins.registrations, twins.nextId, fun b => ?_, twins.queue, twins.journal⟩
  have hinbox := twins.inbox b
  by_cases hsame : a = b
  · subst hsame
    simp only [Hub.tally, hinbox]
    simp [Hub.inbox]
  · have hother : σ a ≠ σ b := fun h => hsame (inj h)
    simp only [Hub.inbox] at hinbox
    simp [Hub.inbox, Hub.tally, Std.ExtTreeMap.getD_insert, hsame, hother, hinbox]

lemma enqueue (inj : Function.Injective σ) (twins : h.Twins σ h') (a : Nat) (target : Guid) :
    (h.enqueue a target).Twins σ (h'.enqueue (σ a) target) := by
  refine ⟨twins.registrations, twins.nextId, twins.inbox, fun b => ?_, twins.journal⟩
  have hqueue := twins.queue b
  by_cases hsame : a = b
  · subst hsame
    simp only [Hub.enqueue, hqueue]
    simp [Hub.queue]
  · have hother : σ a ≠ σ b := fun h => hsame (inj h)
    simp only [Hub.queue] at hqueue
    simp [Hub.queue, Hub.enqueue, Std.ExtTreeMap.getD_insert, hsame, hother, hqueue]

lemma run (inj : Function.Injective σ) (twins : h.Twins σ h') (handler : Handler) :
    (h.run handler).Twins σ (h'.run (handler.rename σ)) := by
  cases handler with
  | tally context event => exact twins.tally inj context event
  | enqueue runner target => exact twins.enqueue inj runner target
  | notify label => exact twins.note _

lemma publish (inj : Function.Injective σ) (twins : h.Twins σ h') (event : String) :
    (h.publish event).Twins σ (h'.publish event) := by
  have hruns : ∀ (handlers : List Handler) {h h' : Hub}, h.Twins σ h' →
      (handlers.foldl Hub.run h).Twins σ ((handlers.map (Handler.rename σ)).foldl Hub.run h') := by
    intro handlers
    induction handlers with
    | nil => exact fun twins => twins
    | cons handler rest ih => exact fun twins => ih (twins.run inj handler)
  -- The handlers are read off the bus once, before the first of them runs.
  rw [Hub.publish, Hub.publish, twins.handlersOf]
  exact hruns _ twins

end Hub.Twins

/-! ## Sessions -/

/-- A context under another address and at other times. -/
def Context.moved (c : Context) (address : Nat) (deltaTime fixedDeltaTime : Float32) : Context :=
  { c with address, deltaTime, fixedDeltaTime }

lemma Context.foldl_countEvent_moved (fired : List (String × Nat)) (c : Context) (address : Nat)
    (deltaTime fixedDeltaTime : Float32) :
    fired.foldl (fun c (event, times) => c.countEvent event times)
        (c.moved address deltaTime fixedDeltaTime) =
      (fired.foldl (fun c (event, times) => c.countEvent event times) c).moved address deltaTime
        fixedDeltaTime := by
  induction fired generalizing c with
  | nil => rfl
  | cons head rest ih => exact ih (c.countEvent head.1 head.2)

/-- The second session is the first one with the addresses renamed, at whatever times.  If they
are `timed`, the frames last equally long in both. -/
inductive Session.Twins (σ : Nat → Nat) (timed : Prop) (s : Session) : Session → Prop
  | mk {deltaTime fixedDeltaTime : Float32} {h' : Hub} (hub : s.hub.Twins σ h')
      (time : timed → deltaTime = s.context.deltaTime) :
      Session.Twins σ timed s
        ⟨s.context.moved (σ s.context.address) deltaTime fixedDeltaTime, h'⟩

namespace Session.Twins

variable {timed : Prop} {s s' : Session}

lemma hub_twins (twins : s.Twins σ timed s') : s.hub.Twins σ s'.hub := by
  obtain ⟨hub, -⟩ := twins
  exact hub

lemma blackboard_eq (twins : s.Twins σ timed s') :
    s'.context.blackboard = s.context.blackboard := by
  obtain ⟨-, -⟩ := twins
  rfl

lemma requested_eq (twins : s.Twins σ timed s') :
    s'.context.requested = s.context.requested := by
  obtain ⟨-, -⟩ := twins
  rfl

lemma deltaTime_eq (twins : s.Twins σ timed s') (h : timed) :
    s'.context.deltaTime = s.context.deltaTime := by
  obtain ⟨-, time⟩ := twins
  exact time h

lemma untimed (twins : s.Twins σ timed s') : s.Twins σ False s' := by
  obtain ⟨hub, -⟩ := twins
  exact ⟨hub, False.elim⟩

lemma onHub (twins : s.Twins σ timed s') {f f' : Hub → Hub}
    (hub : (f s.hub).Twins σ (f' s'.hub)) : (s.onHub f).Twins σ timed (s'.onHub f') := by
  obtain ⟨-, time⟩ := twins
  exact ⟨hub, time⟩

lemma register (twins : s.Twins σ timed s') (event : String) (handler : Handler)
    (node : Option Guid) :
    (s.register event handler node).2.Twins σ timed
      (s'.register event (handler.rename σ) node).2 := by
  obtain ⟨hub, time⟩ := twins
  obtain ⟨htoken, hhub⟩ := hub.subscribe event handler
  simp only [Session.register, Context.moved, htoken, hub.isLive]
  exact ⟨hhub, time⟩

lemma release (twins : s.Twins σ timed s') : s.release.Twins σ timed s'.release := by
  obtain ⟨hub, time⟩ := twins
  exact ⟨hub.disposeEach _, time⟩

lemma flush (inj : Function.Injective σ) (twins : s.Twins σ timed s') :
    s.flush.2.Twins σ timed s'.flush.2 := by
  cases twins with
  | @mk deltaTime fixedDeltaTime h' hub time =>
      have hinbox : h'.inbox (σ s.context.address) = s.inbox := hub.inbox _
      have hcounted := Context.foldl_countEvent_moved s.inbox.toList s.context
        (σ s.context.address) deltaTime fixedDeltaTime
      obtain ⟨blackboard, hcontext⟩ := Deed.exists_flush_context s
      have haddress : s.flush.2.context.address = s.context.address := by rw [hcontext]
      have htime : timed → deltaTime = s.flush.2.context.deltaTime := by
        rw [hcontext]
        exact time
      have htwins : s.flush.2.Twins σ timed
          ⟨s.flush.2.context.moved (σ s.flush.2.context.address) deltaTime fixedDeltaTime,
            h'.clearInbox (σ s.context.address)⟩ := ⟨hub.clearInbox inj _, htime⟩
      rw [haddress] at htwins
      -- The inbox is the same under the other address, and so are the counters that it goes to.
      have hflush : (Session.mk (s.context.moved (σ s.context.address) deltaTime fixedDeltaTime)
          h').flush.2 = ⟨s.flush.2.context.moved (σ s.context.address) deltaTime fixedDeltaTime,
            h'.clearInbox (σ s.context.address)⟩ := by
        refine congrArg (Session.mk · (h'.clearInbox (σ s.context.address))) ?_
        refine Eq.trans ?_ hcounted
        show (h'.inbox (σ s.context.address)).toList.foldl _ _ = _
        rw [hinbox]
      rwa [hflush]

/-- A deed done to a session, and the renamed deed done to its twin. -/
lemma perform (inj : Function.Injective σ) (twins : s.Twins σ timed s') (d : Deed) :
    (d.perform s).Twins σ timed ((d.rename σ).perform s') := by
  have hregister := twins.register
  have hflush := twins.flush inj
  have hrelease := twins.release
  obtain ⟨hub, time⟩ := twins
  cases d with
  | subscribe event handler => exact hregister event handler none
  | subscribeForNode event handler => exact hregister event handler s.context.currentNode
  | watch event =>
      exact hregister event (.tally s.context.address event) s.context.currentNode
  | flush => exact hflush
  | release => exact hrelease
  | reset | dispose => exact ⟨(hub.disposeEach _).clearInbox inj _, time⟩
  | releaseNode guid => exact ⟨hub.disposeEach _, time⟩
  | disposeToken token => exact ⟨hub.dispose token, time⟩
  | connect event handler => exact ⟨(hub.subscribe event handler).2, time⟩
  | publish event => exact ⟨hub.publish inj event, time⟩
  | note notice => exact ⟨hub.note notice, time⟩
  | clearQueue runner => exact ⟨hub.clearQueue inj runner, time⟩
  | elapse deltaTime => exact ⟨hub, fun _ => rfl⟩
  | _ => exact ⟨hub, time⟩

lemma elapse (twins : s.Twins σ timed s') (deltaTime : Float32) :
    ((Deed.elapse deltaTime).perform s).Twins σ True ((Deed.elapse deltaTime).perform s') := by
  obtain ⟨hub, -⟩ := twins
  exact ⟨hub, fun _ => rfl⟩

end Session.Twins

/-! ## Along a run -/

namespace Moment

/-- The calls of nodes, each with the blackboard that the node finds. -/
def witnessed : List Moment → Session → List (Phase × Guid × Blackboard)
  | [], _ => []
  | .called phase n :: rest, s => (phase, n, s.context.blackboard) :: witnessed rest s
  | m :: rest, s => witnessed rest (m.replay s)

lemma witnessed_append (before after : List Moment) (s : Session) :
    witnessed (before ++ after) s = witnessed before s ++ witnessed after (replayAll before s) := by
  induction before generalizing s with
  | nil => rfl
  | cons m rest ih =>
      cases m with
      | called phase n => exact congrArg _ (ih s)
      | did d | managed d => exact ih (d.perform s)
      | compared => exact ih s

end Moment

namespace Session.Twins

variable {timed : Prop} {s s' : Session}

lemma replay (inj : Function.Injective σ) (twins : s.Twins σ timed s') (m : Moment) :
    (m.replay s).Twins σ timed ((m.rename σ).replay s') := by
  cases m with
  | called | compared => exact twins
  | did d | managed d => exact twins.perform inj d

/-- The calls are the same and so is what the nodes find. -/
lemma witnessed_eq (inj : Function.Injective σ) (twins : s.Twins σ timed s')
    (moments : List Moment) :
    Moment.witnessed (moments.map (Moment.rename σ)) s' = Moment.witnessed moments s := by
  induction moments generalizing s s' with
  | nil => rfl
  | cons m rest ih =>
      have hrest := ih (twins.replay inj m)
      cases m with
      | called phase n =>
          refine congrArg₂ List.cons ?_ hrest
          rw [twins.blackboard_eq]
      | did d | managed d => exact hrest
      | compared => exact hrest

end Session.Twins

/-! ## What the renaming leaves alone -/

/-- The handler is for nobody with an address of `n` or more. -/
def Handler.Foreign (n : Nat) (handler : Handler) : Prop :=
  ∀ a, handler.address? = some a → a < n

/-- The deed is done for nobody with an address of `n` or more. -/
def Deed.Foreign (n : Nat) : Deed → Prop
  | .subscribe _ handler | .subscribeForNode _ handler | .connect _ handler => handler.Foreign n
  | .clearQueue runner => runner < n
  | _ => True

lemma Handler.Foreign.rename_eq {n : Nat} (fixes : ∀ k < n, σ k = k) {handler : Handler}
    (foreign : handler.Foreign n) : handler.rename σ = handler := by
  cases handler with
  | tally context event => rw [rename, fixes context (foreign context rfl)]
  | enqueue runner target => rw [rename, fixes runner (foreign runner rfl)]
  | notify label => rfl

/-- Where the addresses below `n` keep their names, so does what is done for those. -/
lemma Deed.Foreign.rename_eq {n : Nat} (fixes : ∀ k < n, σ k = k) {d : Deed}
    (foreign : d.Foreign n) : d.rename σ = d := by
  cases d with
  | subscribe event handler | subscribeForNode event handler | connect event handler =>
      rw [rename, Handler.Foreign.rename_eq fixes foreign]
  | clearQueue runner => rw [rename, fixes runner foreign]
  | _ => rfl

end WorkflowGraph
