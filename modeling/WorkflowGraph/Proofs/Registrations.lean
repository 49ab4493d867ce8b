import WorkflowGraph.Proofs.Chronicle

/-!
# What becomes of registrations

Every deed has two effects on the registrations of a bus: it ends some of them and makes at most
one (`Deed.ended`, `Deed.opened`).  `Deed.mem_registrations_perform` says that there is nothing more
to it, and `Deed.mem_subscriptions_perform` does the same for what the context keeps track of.
Everything else follows from these two, without looking at the deeds again.

* A registration that has ended has ended for good, because no token is given out twice
  (`isLive_of_replayAll`).
* A registration made through the context is tracked as long as it is live, under the owner it was
  made for (`Held`).
-/

namespace WorkflowGraph

/-! ## The bus -/

namespace Hub

/-- Ending registrations one after the other ends them all and changes nothing else. -/
lemma disposeEach_eq (h : Hub) (tokens : List Token) :
    h.disposeEach tokens =
      { h with bus :=
        { h.bus with
          registrations := h.bus.registrations.filter fun r => !tokens.contains r.token } } := by
  induction tokens generalizing h with
  | nil => simp [disposeEach, List.filter_eq_self.mpr]
  | cons t rest ih =>
      have hfirst : h.disposeEach (t :: rest) = (h.dispose t).disposeEach rest := rfl
      rw [hfirst, ih]
      simp [dispose, Bus.dispose, List.filter_filter, bne, Bool.beq_eq_decide_eq, Bool.and_comm]

@[simp] lemma bus_run (h : Hub) (handler : Handler) : (h.run handler).bus = h.bus := by
  cases handler <;> rfl

/-- What holds of a hub holds after a publication, if no handler on the bus breaks it. -/
lemma publish_preserves {P : Hub → Prop} {h : Hub} (holds : P h) (event : String)
    (runs : ∀ r ∈ h.bus.registrations, ∀ h', P h' → P (h'.run r.handler)) :
    P (h.publish event) := by
  refine List.foldlRecOn (h.bus.handlersOf event) run holds fun h' hh handler hhandler => ?_
  obtain ⟨r, hr, rfl⟩ := List.mem_map.mp hhandler
  exact runs r (List.mem_filter.mp hr).1 h' hh

@[simp] lemma bus_publish (h : Hub) (event : String) : (h.publish event).bus = h.bus :=
  publish_preserves (P := fun h' => h'.bus = h.bus) rfl event fun r _ h' hbus =>
    (h'.bus_run r.handler).trans hbus

end Hub

namespace Deed

/-! ## The effect of a deed -/

/-- The registration that a deed makes. -/
def opened : Deed → Session → Option (Registration Handler)
  | .subscribe event handler, s | .subscribeForNode event handler, s | .connect event handler, s =>
    some ⟨⟨s.hub.bus.nextId, event⟩, handler⟩
  | .watch event, s => some ⟨⟨s.hub.bus.nextId, event⟩, .tally s.context.address event⟩
  | _, _ => none

/-- The tokens whose registrations a deed ends. -/
def ended : Deed → Session → List Token
  | .disposeToken token, _ => [token]
  | .releaseNode guid, s =>
    (s.context.subscriptions.filter fun sub => sub.node == some guid).map (·.token)
  | .release, s | .reset, s | .dispose, s => s.context.subscriptions.map (·.token)
  | _, _ => []

/-- What a deed does to the bus. -/
lemma bus_perform (d : Deed) (s : Session) :
    (d.perform s).hub.bus =
      { registrations := (s.hub.bus.registrations.filter fun r =>
          !(d.ended s).contains r.token) ++ (d.opened s).toList
        nextId := s.hub.bus.nextId + (d.opened s).toList.length } := by
  have hkeep : s.hub.bus.registrations.filter (fun r => !([] : List Token).contains r.token) =
      s.hub.bus.registrations := by
    simp [List.filter_eq_self.mpr]
  cases d with
  | disposeToken token =>
      simp [perform, Session.onHub, Hub.dispose, Bus.dispose, ended, opened, bne,
        Bool.beq_eq_decide_eq]
  | releaseNode guid =>
      simp [perform, Session.releaseNode, Hub.disposeEach_eq, ended, opened,
        List.partition_eq_filter_filter]
  | release => simp [perform, Session.release, Hub.disposeEach_eq, ended, opened]
  | reset =>
      simp [perform, Session.reset, Session.release, Hub.disposeEach_eq, Hub.clearInbox, ended,
        opened]
  | dispose =>
      simp [perform, Session.dispose, Session.release, Hub.disposeEach_eq, Hub.clearInbox, ended,
        opened]
  | publish event =>
      simp only [ended, opened, hkeep, Option.toList_none, List.append_nil]
      exact Hub.bus_publish s.hub event
  | _ =>
      simp only [ended, opened, hkeep, Option.toList_none, List.append_nil]
      rfl

lemma id_of_opened {d : Deed} {s : Session} {r : Registration Handler}
    (h : d.opened s = some r) : r.token.id = s.hub.bus.nextId := by
  cases d <;> cases h <;> rfl

lemma nextId_le_perform (d : Deed) (s : Session) :
    s.hub.bus.nextId ≤ (d.perform s).hub.bus.nextId := by
  rw [bus_perform]
  exact Nat.le_add_right _ _

lemma mem_registrations_perform {d : Deed} {s : Session} {r : Registration Handler} :
    r ∈ (d.perform s).hub.bus.registrations ↔
      (r ∈ s.hub.bus.registrations ∧ r.token ∉ d.ended s) ∨ d.opened s = some r := by
  simp [bus_perform]

/-- A token that was given out before is live after a deed if it was live and has not been ended. -/
lemma isLive_perform {d : Deed} {s : Session} {t : Token} (old : t.id < s.hub.bus.nextId) :
    (d.perform s).hub.bus.isLive t ↔ s.hub.bus.isLive t ∧ t ∉ d.ended s := by
  simp only [Bus.isLive_iff, mem_registrations_perform]
  constructor
  · rintro ⟨r, ⟨hr, hended⟩ | hopened, rfl⟩
    · exact ⟨⟨r, hr, rfl⟩, hended⟩
    · rw [id_of_opened hopened] at old
      exact absurd old (Nat.lt_irrefl _)
  · rintro ⟨⟨r, hr, rfl⟩, hended⟩
    exact ⟨r, .inl ⟨hr, hended⟩, rfl⟩

/-! ### What the context keeps track of -/

/-- The registration that the context begins to track, and the node it belongs to. -/
def tracked : Deed → Session → Option Subscription
  | .subscribe event _, s => some ⟨⟨s.hub.bus.nextId, event⟩, none⟩
  | .subscribeForNode event _, s | .watch event, s =>
    some ⟨⟨s.hub.bus.nextId, event⟩, s.context.currentNode⟩
  | _, _ => none

lemma id_of_tracked {d : Deed} {s : Session} {sub : Subscription} (h : d.tracked s = some sub) :
    sub.token.id = s.hub.bus.nextId := by
  cases d <;> cases h <;> rfl

lemma nextId_perform_of_tracked {d : Deed} {s : Session} {sub : Subscription}
    (h : d.tracked s = some sub) : (d.perform s).hub.bus.nextId = s.hub.bus.nextId + 1 := by
  rw [bus_perform]
  cases d <;> cases h <;> rfl

lemma subscriptions_flush (s : Session) :
    s.flush.2.context.subscriptions = s.context.subscriptions := by
  obtain ⟨blackboard, hflush⟩ := exists_flush_context s
  rw [hflush]

/-- What is tracked after a deed has been tracked before, or has just been made. -/
lemma of_mem_subscriptions_perform {d : Deed} {s : Session} {sub : Subscription}
    (h : sub ∈ (d.perform s).context.subscriptions) :
    sub ∈ s.context.subscriptions ∨ d.tracked s = some sub := by
  cases d with
  | subscribe | subscribeForNode | watch =>
      rcases List.mem_append.mp h with hkept | hnew
      · exact .inl ((List.mem_filter.mp hkept).1)
      · exact .inr (congrArg some (List.mem_singleton.mp hnew).symm)
  | releaseNode guid =>
      simp only [perform, Session.releaseNode, List.partition_eq_filter_filter] at h
      exact .inl ((List.mem_filter.mp h).1)
  | flush => exact .inl (subscriptions_flush s ▸ h)
  | release | reset | dispose => cases h
  | _ => exact .inl h

/-- What is tracked stays so unless it has ended. -/
lemma mem_subscriptions_perform {d : Deed} {s : Session} {sub : Subscription}
    (h : sub ∈ s.context.subscriptions) (live : s.hub.bus.isLive sub.token)
    (kept : sub.token ∉ d.ended s) : sub ∈ (d.perform s).context.subscriptions := by
  cases d with
  | subscribe | subscribeForNode | watch =>
      exact List.mem_append_left _ (List.mem_filter.mpr ⟨h, live⟩)
  | releaseNode guid =>
      simp only [perform, Session.releaseNode, List.partition_eq_filter_filter]
      refine List.mem_filter.mpr ⟨h, ?_⟩
      simp only [Function.comp, Bool.not_eq_true', beq_eq_false_iff_ne]
      intro howned
      exact kept (List.mem_map.mpr ⟨sub, List.mem_filter.mpr ⟨h, by simp [howned]⟩, rfl⟩)
  | flush => exact (subscriptions_flush s).symm ▸ h
  | release | reset | dispose => exact absurd (List.mem_map_of_mem h) kept
  | _ => exact h

lemma mem_subscriptions_of_tracked {d : Deed} {s : Session} {sub : Subscription}
    (h : d.tracked s = some sub) : sub ∈ (d.perform s).context.subscriptions := by
  cases d with
  | subscribe | subscribeForNode | watch =>
      cases h
      exact List.mem_append_right _ List.mem_cons_self
  | _ => cases h

end Deed

/-! ## Along a run -/

namespace Moment

lemma replayAll_preserves {P : Session → Prop} (preserved : ∀ (d : Deed) s, P s → P (d.perform s))
    (moments : List Moment) {s : Session} (h : P s) : P (replayAll moments s) := by
  induction moments generalizing s with
  | nil => exact h
  | cons m rest ih =>
      refine ih ?_
      cases m with
      | called | compared => exact h
      | did d | managed d => exact preserved d s h

end Moment

/-- The token has been given out, and is tracked for its owner as long as it is live. -/
structure Held (t : Token) (owner : Option Guid) (s : Session) : Prop where
  old : t.id < s.hub.bus.nextId
  tracked : s.hub.bus.isLive t → ⟨t, owner⟩ ∈ s.context.subscriptions

/-- The token has been given out, and is tracked for no other owner. -/
structure HeldOnly (t : Token) (owner : Option Guid) (s : Session) : Prop where
  old : t.id < s.hub.bus.nextId
  sole : ∀ sub ∈ s.context.subscriptions, sub.token = t → sub.node = owner

/-- The token of the registration has been given out, and as long as it is live, the registration is
there as it was made. -/
structure Kept (r : Registration Handler) (s : Session) : Prop where
  old : r.token.id < s.hub.bus.nextId
  mem : s.hub.bus.isLive r.token → r ∈ s.hub.bus.registrations

/-- All tokens that the context tracks have been given out. -/
def Session.Orderly (s : Session) : Prop :=
  ∀ sub ∈ s.context.subscriptions, sub.token.id < s.hub.bus.nextId

namespace Deed

variable {s : Session} {t : Token} {owner : Option Guid}

lemma orderly_perform (d : Deed) (s : Session) (h : s.Orderly) : (d.perform s).Orderly := by
  intro sub hsub
  have hnext := nextId_le_perform d s
  rcases of_mem_subscriptions_perform hsub with hold | hnew
  · exact Nat.lt_of_lt_of_le (h sub hold) hnext
  · rw [nextId_perform_of_tracked hnew, id_of_tracked hnew]
    exact Nat.lt_succ_self _

lemma held_perform (d : Deed) (s : Session) (h : Held t owner s) :
    Held t owner (d.perform s) := by
  refine ⟨Nat.lt_of_lt_of_le h.old (nextId_le_perform d s), ?_⟩
  intro live
  obtain ⟨hlive, hkept⟩ := (isLive_perform h.old).mp live
  exact mem_subscriptions_perform (h.tracked hlive) hlive hkept

/-- Whatever is done, nobody else comes to own the token. -/
lemma heldOnly_perform (d : Deed) (s : Session) (h : HeldOnly t owner s) :
    HeldOnly t owner (d.perform s) := by
  refine ⟨Nat.lt_of_lt_of_le h.old (nextId_le_perform d s), ?_⟩
  intro sub hsub htoken
  rcases of_mem_subscriptions_perform hsub with hold | hnew
  · exact h.sole sub hold htoken
  · have hid := id_of_tracked hnew
    have hold := h.old
    rw [htoken] at hid
    omega

lemma kept_perform {r : Registration Handler} (d : Deed) (s : Session) (h : Kept r s) :
    Kept r (d.perform s) := by
  refine ⟨Nat.lt_of_lt_of_le h.old (nextId_le_perform d s), ?_⟩
  intro live
  obtain ⟨hlive, hended⟩ := (isLive_perform h.old).mp live
  exact mem_registrations_perform.mpr (.inl ⟨h.mem hlive, hended⟩)

/-- A registration is held by whom it is made for. -/
lemma held_of_tracked {d : Deed} {sub : Subscription} (h : d.tracked s = some sub) :
    Held sub.token sub.node (d.perform s) := by
  refine ⟨?_, fun _ => mem_subscriptions_of_tracked h⟩
  rw [nextId_perform_of_tracked h, id_of_tracked h]
  exact Nat.lt_succ_self _

lemma heldOnly_of_tracked {d : Deed} {sub : Subscription} (orderly : s.Orderly)
    (h : d.tracked s = some sub) : HeldOnly sub.token sub.node (d.perform s) := by
  refine ⟨(held_of_tracked h).old, ?_⟩
  intro other hother htoken
  rcases of_mem_subscriptions_perform hother with hold | hnew
  · have hid := orderly other hold
    rw [htoken, id_of_tracked h] at hid
    exact absurd hid (Nat.lt_irrefl _)
  · rw [Option.some.inj (h.symm.trans hnew)]

lemma not_isLive_perform_of_ended {d : Deed} (h : Held t owner s)
    (ends : ⟨t, owner⟩ ∈ s.context.subscriptions → t ∈ d.ended s) :
    ¬ (d.perform s).hub.bus.isLive t := by
  intro live
  obtain ⟨hbefore, hkept⟩ := (isLive_perform h.old).mp live
  exact hkept (ends (h.tracked hbefore))

/-- A token that is live after a deed was live before. -/
lemma isLive_of_perform {d : Deed} (old : t.id < s.hub.bus.nextId)
    (live : (d.perform s).hub.bus.isLive t) : s.hub.bus.isLive t :=
  ((isLive_perform old).mp live).1

end Deed

namespace Moment

/-- A registration that has ended has ended for good. -/
lemma isLive_of_replayAll {moments : List Moment} {s : Session} {t : Token}
    (old : t.id < s.hub.bus.nextId) (live : (replayAll moments s).hub.bus.isLive t) :
    s.hub.bus.isLive t := by
  have hdead : ∀ (d : Deed) s, t.id < s.hub.bus.nextId ∧ ¬ s.hub.bus.isLive t →
      t.id < (d.perform s).hub.bus.nextId ∧ ¬ (d.perform s).hub.bus.isLive t := by
    rintro d s ⟨hold, hdead⟩
    exact ⟨Nat.lt_of_lt_of_le hold (Deed.nextId_le_perform d s),
      fun hlive => hdead (Deed.isLive_of_perform hold hlive)⟩
  by_cases hlive : s.hub.bus.isLive t
  · exact hlive
  · exact absurd live (replayAll_preserves hdead moments ⟨old, hlive⟩).2

lemma kept_replayAll (moments : List Moment) {s : Session} {r : Registration Handler}
    (h : Kept r s) : Kept r (replayAll moments s) :=
  replayAll_preserves Deed.kept_perform moments h

lemma address_replayAll (moments : List Moment) (s : Session) :
    (replayAll moments s).context.address = s.context.address :=
  replayAll_preserves (P := fun s' => s'.context.address = s.context.address)
    (fun d s' h => (Deed.address_perform d s').trans h) moments rfl

lemma held_replayAll (moments : List Moment) {s : Session} {t : Token} {owner : Option Guid}
    (h : Held t owner s) : Held t owner (replayAll moments s) :=
  replayAll_preserves Deed.held_perform moments h

lemma orderly_replayAll (moments : List Moment) {s : Session} (h : s.Orderly) :
    (replayAll moments s).Orderly :=
  replayAll_preserves Deed.orderly_perform moments h

end Moment
end WorkflowGraph
