import WorkflowGraph.Proofs.Registrations

/-!
# How events come to be counted

An event that is watched is counted twice over: its deliveries gather in the inbox of the context,
and a flush moves them to the counter on the blackboard.  Both have a limit, of which that of the
inbox is the greater one, so everything is said up to the limit of the counter (`capped`).

A publication adds to the inbox as many deliveries as there are watches (`capped_waiting_publish`),
and a flush adds what has gathered to the counter (`counted_flush`).  No other deed touches the
inbox, and only edits and resets touch the counter.
-/

namespace WorkflowGraph

open Context

/-- A number, or the greatest number that a counter reaches. -/
def capped (times : Nat) : Int := min (times : Int) countLimit

@[simp] lemma capped_zero : capped 0 = 0 := by decide

lemma capped_add_congr {a b : Nat} (h : capped a = capped b) (k : Nat) :
    capped (a + k) = capped (b + k) := by
  simp only [capped, countLimit] at h ⊢
  omega

namespace Session

/-- The deliveries of an event that have gathered in the inbox. -/
def waiting (s : Session) (event : String) : Nat := s.inbox.getD event 0

/-- The number on the counter of an event. -/
def counted (s : Session) (event : String) : Int := (s.context.countOf event).toInt

/-- The live watches on an event: the registrations that count it for this context. -/
def watches (s : Session) (event : String) : List Token :=
  (s.hub.bus.registrations.filter fun r => r.handler == .tally s.context.address event).map
    (·.token)

/-- How many deliveries of an event a publication makes. -/
def deliveries (s : Session) (published event : String) : Nat :=
  (s.hub.bus.handlersOf published).count (.tally s.context.address event)

end Session

/-! ## The inbox -/

namespace Hub

/-- A handler counts an event if it is a watch on it. -/
lemma capped_inbox_run (h : Hub) (handler : Handler) (address : Nat) (event : String) :
    capped (((h.run handler).inbox address).getD event 0) =
      capped ((h.inbox address).getD event 0 +
        if handler = .tally address event then 1 else 0) := by
  cases handler with
  | tally context counted =>
      simp only [run, tally, inbox, Std.ExtTreeMap.getD_insert, Handler.tally.injEq]
      by_cases hcontext : context = address
      · subst hcontext
        by_cases hevent : counted = event
        · subst hevent
          simp only [Std.ReflCmp.compare_self, if_true, Std.ExtTreeMap.getD_insert, and_self]
          -- The inbox is capped higher than the counters, so capping twice is capping once.
          simp only [capped, countLimit, inboxLimit]
          omega
        · simp [Std.ExtTreeMap.getD_insert, hevent]
      · simp [hcontext]
  | enqueue runner target => simp [run, enqueue, inbox]
  | notify label => simp [run, note, inbox]

/-- Handlers that are run one after the other count an event as often as there are watches on it
among them. -/
lemma capped_inbox_foldl_run (handlers : List Handler) (h : Hub) (address : Nat)
    (event : String) :
    capped (((handlers.foldl run h).inbox address).getD event 0) =
      capped ((h.inbox address).getD event 0 + handlers.count (.tally address event)) := by
  induction handlers generalizing h with
  | nil => simp
  | cons handler rest ih =>
      rw [List.foldl_cons, ih, capped_add_congr (h.capped_inbox_run handler address event),
        List.count_cons]
      congr 1
      simp only [beq_iff_eq]
      omega

end Hub

namespace Session

lemma capped_waiting_publish (s : Session) (published event : String) :
    capped ((s.publish published).waiting event) =
      capped (s.waiting event + s.deliveries published event) :=
  s.hub.capped_inbox_foldl_run _ s.context.address event

end Session

/-! ## Watches -/

namespace Session

lemma mem_watches {s : Session} {event : String} {t : Token}
    (h : ⟨t, .tally s.context.address event⟩ ∈ s.hub.bus.registrations) :
    t ∈ s.watches event :=
  List.mem_map.mpr ⟨_, List.mem_filter.mpr ⟨h, by simp⟩, rfl⟩

/-- A publication makes a delivery to each watch that is registered for it. -/
lemma deliveries_eq_countP (s : Session) (published event : String) :
    s.deliveries published event =
      (s.watches event).countP fun t => t.event == published := by
  simp only [deliveries, watches, Bus.handlersOf, List.count, List.countP_map,
    List.countP_filter]
  congr 1
  funext r
  simp [Bool.and_comm]

lemma deliveries_of_watches_eq {s : Session} {event : String} {t : Token}
    (only : s.watches event = [t]) (ht : t.event = event) (published : String) :
    s.deliveries published event = if published = event then 1 else 0 := by
  rw [deliveries_eq_countP, only]
  by_cases h : published = event
  · simp [h, ht]
  · simp [h, ht, Ne.symm h]

lemma deliveries_pos {s : Session} {event : String} {t : Token} (watch : t ∈ s.watches event)
    (ht : t.event = event) : 1 ≤ s.deliveries event event := by
  rw [deliveries_eq_countP]
  exact List.countP_pos_iff.mpr ⟨t, watch, by simp [ht]⟩

end Session

/-! ## The counter -/

lemma firedKey_inj {event other : String} : firedKey event = firedKey other ↔ event = other := by
  simp [firedKey]

namespace Blackboard

lemma int_write_self (b : Blackboard) (key : String) (n default : Int32) :
    (b.write key (.int n)).int key default = n := by
  simp [write, set, int]

lemma int_write_of_ne (b : Blackboard) {key other : String} (h : other ≠ key) (value : Seed)
    (default : Int32) : (b.write other value).int key default = b.int key default := by
  simp [write, set, int, Std.ExtTreeMap.getElem?_insert, h]

end Blackboard

namespace Context

lemma countOf_countEvent_of_ne (c : Context) {event other : String} (h : other ≠ event)
    (times : Nat) : (c.countEvent other times).countOf event = c.countOf event :=
  c.blackboard.int_write_of_ne (fun hkey => h (firedKey_inj.mp hkey)) _ 0

lemma countOf_countEvent_self (c : Context) (event : String) (times : Nat)
    (nonneg : 0 ≤ (c.countOf event).toInt) :
    ((c.countEvent event times).countOf event).toInt =
      min ((c.countOf event).toInt + capped times) countLimit := by
  simp only [countEvent]
  rw [countOf, Blackboard.int_write_self, Int32.toInt_ofInt_of_le]
  · rfl
  · simp only [countLimit]
    omega
  · simp only [countLimit]
    omega

/-- Counting events writes nothing but their counters. -/
lemma getElem?_foldl_countEvent {fired : List (String × Nat)} {key : String} (c : Context)
    (others : ∀ x ∈ fired, firedKey x.1 ≠ key) :
    (fired.foldl (fun c (event, times) => c.countEvent event times) c).blackboard[key]? =
      c.blackboard[key]? := by
  induction fired generalizing c with
  | nil => rfl
  | cons head rest ih =>
      rw [List.foldl_cons, ih _ fun x hx => others x (List.mem_cons_of_mem head hx)]
      have hhead := others head List.mem_cons_self
      simp [countEvent, Blackboard.write, Blackboard.set, Std.ExtTreeMap.getElem?_insert, hhead]

variable {event : String}

lemma countOf_foldl_of_forall_ne {fired : List (String × Nat)} (c : Context)
    (others : ∀ x ∈ fired, x.1 ≠ event) :
    (fired.foldl (fun c (event, times) => c.countEvent event times) c).countOf event =
      c.countOf event := by
  rw [countOf, countOf, Blackboard.int, Blackboard.int, c.getElem?_foldl_countEvent]
  exact fun x hx hkey => others x hx (firedKey_inj.mp hkey)

/-- Where every event is named once, the counter is moved on by the number under its event. -/
lemma countOf_foldl_of_mem {fired : List (String × Nat)} {times : Nat} (c : Context)
    (distinct : fired.Pairwise fun a b => a.1 ≠ b.1) (mem : (event, times) ∈ fired)
    (nonneg : 0 ≤ (c.countOf event).toInt) :
    ((fired.foldl (fun c (event, times) => c.countEvent event times) c).countOf event).toInt =
      min ((c.countOf event).toInt + capped times) countLimit := by
  induction fired generalizing c with
  | nil => cases mem
  | cons head rest ih =>
      obtain ⟨hhead, hrest⟩ := List.pairwise_cons.mp distinct
      rw [List.foldl_cons]
      rcases List.mem_cons.mp mem with rfl | hmem
      · rw [countOf_foldl_of_forall_ne _ fun x hx => (hhead x hx).symm]
        exact c.countOf_countEvent_self event times nonneg
      · have hother := c.countOf_countEvent_of_ne (hhead _ hmem) head.2
        rw [ih _ hrest hmem (by rwa [hother]), hother]

end Context

namespace Session

/-- A flush moves what has gathered to the counter. -/
lemma counted_flush (s : Session) (event : String) (nonneg : 0 ≤ s.counted event) :
    s.flush.2.counted event = min (s.counted event + capped (s.waiting event)) countLimit := by
  have hdistinct : s.inbox.toList.Pairwise fun a b => a.1 ≠ b.1 := by
    refine Std.ExtTreeMap.distinct_keys_toList.imp ?_
    intro a b hne heq
    exact hne (heq ▸ Std.ReflCmp.compare_self)
  cases hinbox : s.inbox[event]? with
  | some times =>
      have hwaiting : s.waiting event = times := by
        simp [waiting, Std.ExtTreeMap.getD_eq_getD_getElem?, hinbox]
      rw [hwaiting]
      exact countOf_foldl_of_mem _ hdistinct
        (Std.ExtTreeMap.mem_toList_iff_getElem?_eq_some.mpr hinbox) nonneg
  -- No delivery waits: the counter stays, and it was never above the limit.
  | none =>
      have hwaiting : s.waiting event = 0 := by
        simp [waiting, Std.ExtTreeMap.getD_eq_getD_getElem?, hinbox]
      have hothers : ∀ x ∈ s.inbox.toList, x.1 ≠ event := by
        rintro ⟨other, times⟩ hx rfl
        rw [Std.ExtTreeMap.mem_toList_iff_getElem?_eq_some, hinbox] at hx
        cases hx
      have hsame : s.flush.2.counted event = s.counted event :=
        congrArg Int32.toInt (countOf_foldl_of_forall_ne _ hothers)
      have hlimit : s.counted event < 2 ^ 31 := Int32.toInt_lt _
      rw [hsame, hwaiting]
      simp only [capped, countLimit]
      omega

lemma not_mem_inbox_flush (s : Session) (event : String) : event ∉ s.flush.2.inbox := by
  have haddress : s.flush.2.context.address = s.context.address := Deed.flush.address_perform s
  have hhub : s.flush.2.hub = s.hub.clearInbox s.context.address := rfl
  simp [inbox, haddress, hhub, Hub.clearInbox, Hub.inbox]

lemma waiting_flush (s : Session) (event : String) : s.flush.2.waiting event = 0 :=
  Std.ExtTreeMap.getD_eq_fallback (s.not_mem_inbox_flush event)

end Session

/-! ## Deeds -/

namespace Deed

/-- The deed does not write the counter of an event: if it edits the blackboard, then elsewhere,
and it does not reset the context. -/
def SparesCount (event : String) : Deed → Prop
  | .edit f => ∀ b, (f b).int (firedKey event) 0 = b.int (firedKey event) 0
  | .reset => False
  | _ => True

/-- The number of deliveries of an event that the deed makes to the inbox. -/
def deliveries (event : String) : Deed → Session → Nat
  | .publish published, s => s.deliveries published event
  | _, _ => 0

/-- The deed is a flush. -/
def IsFlush : Deed → Prop
  | .flush => True
  | _ => False

variable {event : String} {d : Deed}

/-- Only a flush, and what writes the counter, moves the counter. -/
lemma counted_perform (spares : d.SparesCount event) (other : ¬ d.IsFlush) (s : Session) :
    (d.perform s).counted event = s.counted event := by
  cases d with
  | edit f => exact congrArg Int32.toInt (spares s.context.blackboard)
  | reset => exact spares.elim
  | flush => exact absurd trivial other
  | _ => rfl

/-- Only a flush, and what tears the context down, takes deliveries out of the inbox. -/
lemma capped_waiting_perform (spares : d.SparesCount event) (other : ¬ d.IsFlush)
    (keeps : d ≠ .dispose) (s : Session) :
    capped ((d.perform s).waiting event) = capped (s.waiting event + d.deliveries event s) := by
  cases d with
  | publish published => exact s.capped_waiting_publish published event
  | reset => exact spares.elim
  | dispose => exact absurd rfl keeps
  | flush => exact absurd trivial other
  | releaseNode guid =>
      simp [perform, Session.releaseNode, Hub.disposeEach_eq, Session.waiting, Session.inbox,
        Hub.inbox, deliveries]
  | release =>
      simp [perform, Session.release, Hub.disposeEach_eq, Session.waiting, Session.inbox,
        Hub.inbox, deliveries]
  | _ => rfl

end Deed
end WorkflowGraph
