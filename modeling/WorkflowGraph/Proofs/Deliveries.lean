import WorkflowGraph.Proofs.Tally

/-!
# Deliveries that are flushed now and then

Publications fill the inbox of a context and flushes empty it, and how the two alternate is left to
whoever drives the context.  Here they alternate in any way (`Session.Bustle`), and each flush goes
through the inbox in any order, since a flush writes counters of different events, and those do not
touch one another (`Session.flushAlong_eq_flush`).

What is kept all along (`Session.Gathered`) is the sum of a counter and of what waits for it in the
inbox, up to the limit of the counter, together with where the events are that have been delivered:
in the inbox or on the blackboard.  After a last flush nothing waits any more, so that the counters
have everything (`Session.counts_deliveries`).

A counter has to start from a number that is not negative.  From a negative one, a flush of more
deliveries than the limit does not come as far as two flushes of half as many.
-/

namespace WorkflowGraph

open Context

/-! ## The order of a flush -/

namespace Context

/-- Events are counted independently of one another. -/
lemma countEvent_comm (c : Context) {event other : String} (h : event ≠ other) (m n : Nat) :
    (c.countEvent event m).countEvent other n = (c.countEvent other n).countEvent event m := by
  have hkey : firedKey event ≠ firedKey other := fun heq => h (firedKey_inj.mp heq)
  have hother := c.countOf_countEvent_of_ne h m
  have hevent := c.countOf_countEvent_of_ne (Ne.symm h) n
  rw [countEvent, hother]
  conv_rhs => rw [countEvent, hevent]
  simp only [countEvent, Blackboard.write, Blackboard.set]
  congr 1
  refine Std.ExtTreeMap.ext_getElem? fun key => ?_
  simp only [Std.ExtTreeMap.getElem?_insert, Std.LawfulEqCmp.compare_eq_iff_eq]
  by_cases hfirst : firedKey event = key
  · simp [hfirst ▸ hkey.symm, hfirst]
  · simp [hfirst]

end Context

namespace Session

/-- A flush that goes through the inbox in the given order. -/
def flushAlong (s : Session) (fired : List (String × Nat)) : Session :=
  ⟨fired.foldl (fun c (event, times) => c.countEvent event times) s.context,
    s.hub.clearInbox s.context.address⟩

/-- The order in which a flush goes through the inbox does not matter. -/
lemma flushAlong_eq_flush (s : Session) {fired : List (String × Nat)}
    (order : fired.Perm s.inbox.toList) : s.flushAlong fired = s.flush.2 := by
  have hsame : fired.foldl (fun c (event, times) => c.countEvent event times) s.context =
      s.inbox.toList.foldl (fun c (event, times) => c.countEvent event times) s.context := by
    refine order.foldl_eq' (fun x hx y hy c => ?_) s.context
    by_cases hevent : x.1 = y.1
    · have hfound := Std.ExtTreeMap.mem_toList_iff_getElem?_eq_some.mp (order.mem_iff.mp hx)
      have hfound' := Std.ExtTreeMap.mem_toList_iff_getElem?_eq_some.mp (order.mem_iff.mp hy)
      rw [hevent, hfound'] at hfound
      rw [Prod.ext hevent (Option.some.inj hfound).symm]
    · exact c.countEvent_comm hevent x.2 y.2
  rw [flushAlong, hsame]
  rfl

/-! ## Publications and flushes -/

/-- What publications, of which the events are given, and flushes in between make of a session. -/
inductive Bustle (s : Session) : List String → Session → Prop
  | nil : Bustle s [] s
  | publish {events : List String} {mid : Session} (before : Bustle s events mid)
    (event : String) : Bustle s (events ++ [event]) (mid.publish event)
  | flush {events : List String} {mid : Session} (before : Bustle s events mid)
    {fired : List (String × Nat)} (order : fired.Perm mid.inbox.toList) :
    Bustle s events (mid.flushAlong fired)

/-- How often an event is delivered when these are published: each publication goes to every live
watch on the event that is registered for what is published. -/
def delivered (s : Session) (events : List String) (event : String) : Nat :=
  (events.flatMap fun published => (s.watches event).filter fun t => t.event == published).length

/-- The event is in the inbox or is delivered. -/
def Stirred (s : Session) (events : List String) (event : String) : Prop :=
  event ∈ s.inbox ∨ s.delivered events event ≠ 0

variable {s mid : Session} {events : List String}

lemma delivered_nil (s : Session) (event : String) : s.delivered [] event = 0 := rfl

lemma delivered_concat (s : Session) (events : List String) (published event : String) :
    s.delivered (events ++ [published]) event =
      s.delivered events event + s.deliveries published event := by
  rw [deliveries_eq_countP, List.countP_eq_length_filter, delivered, delivered,
    List.flatMap_append, List.length_append, List.flatMap_singleton]

lemma delivered_perm (s : Session) {events events' : List String} (same : events.Perm events')
    (event : String) : s.delivered events event = s.delivered events' event :=
  (same.flatMap_right _).length_eq

/-- Watches that are registered for the event that they count are each given all its
publications. -/
lemma delivered_of_watches {event : String} (own : ∀ t ∈ s.watches event, t.event = event)
    (events : List String) :
    s.delivered events event = (s.watches event).length * events.count event := by
  induction events with
  | nil => rfl
  | cons published rest ih =>
      have hcons : s.delivered (published :: rest) event =
          ((s.watches event).filter fun t => t.event == published).length +
            s.delivered rest event := by
        rw [delivered, List.flatMap_cons, List.length_append]
        rfl
      rw [hcons, ih, List.count_cons]
      by_cases h : published = event
      · have hall : (s.watches event).filter (fun t => t.event == published) = s.watches event :=
          List.filter_eq_self.mpr fun t ht => by simp [own t ht, h]
        rw [hall, h, beq_self_eq_true, if_pos rfl, Nat.mul_succ, Nat.add_comm]
      · have hnone : (s.watches event).filter (fun t => t.event == published) = [] :=
          List.filter_eq_nil_iff.mpr fun t ht => by simp [own t ht, Ne.symm h]
        simp [hnone, h]

end Session

/-! ## Where deliveries are -/

namespace Hub

/-- What is in an inbox was there before, or the handler has put it there. -/
lemma mem_inbox_run (h : Hub) (handler : Handler) (address : Nat) (event : String) :
    event ∈ (h.run handler).inbox address ↔
      event ∈ h.inbox address ∨ handler = .tally address event := by
  cases handler with
  | tally context counted =>
      by_cases hcontext : context = address
      · subst hcontext
        simp [run, tally, inbox, or_comm]
      · simp [run, tally, inbox, Std.ExtTreeMap.getD_insert, hcontext]
  | enqueue runner target => simp [run, enqueue, inbox]
  | notify label => simp [run, note, inbox]

lemma mem_inbox_foldl_run (handlers : List Handler) (h : Hub) (address : Nat) (event : String) :
    event ∈ (handlers.foldl run h).inbox address ↔
      event ∈ h.inbox address ∨ .tally address event ∈ handlers := by
  induction handlers generalizing h with
  | nil => simp
  | cons handler rest ih =>
      rw [List.foldl_cons, ih, mem_inbox_run, List.mem_cons, or_assoc, @eq_comm _ handler]

end Hub

namespace Context

/-- The counter of the event holds a number. -/
def Counts (c : Context) (event : String) : Prop :=
  ∃ n, c.blackboard[firedKey event]? = some (.seed (.int n))

lemma counts_countEvent_self (c : Context) (event : String) (times : Nat) :
    (c.countEvent event times).Counts event := by
  simp [Counts, countEvent, Blackboard.write, Blackboard.set]

lemma Counts.countEvent {c : Context} {event : String} (counts : c.Counts event) (other : String)
    (times : Nat) : (c.countEvent other times).Counts event := by
  by_cases h : other = event
  · exact h ▸ c.counts_countEvent_self other times
  · obtain ⟨n, hn⟩ := counts
    have hkey : firedKey other ≠ firedKey event := fun heq => h (firedKey_inj.mp heq)
    refine ⟨n, ?_⟩
    simpa [Context.countEvent, Blackboard.write, Blackboard.set,
      Std.ExtTreeMap.getElem?_insert, hkey] using hn

/-- When events have been counted, those counters hold numbers that have done so before, and those
of the events. -/
lemma counts_foldl {fired : List (String × Nat)} {event : String} {c : Context}
    (h : c.Counts event ∨ ∃ x ∈ fired, x.1 = event) :
    (fired.foldl (fun c (event, times) => c.countEvent event times) c).Counts event := by
  induction fired generalizing c with
  | nil => simpa using h
  | cons head rest ih =>
      refine ih ?_
      rcases h with hcounts | ⟨x, hx, hevent⟩
      · exact .inl (hcounts.countEvent head.1 head.2)
      · rcases List.mem_cons.mp hx with rfl | hrest
        · exact .inl (hevent ▸ c.counts_countEvent_self x.1 x.2)
        · exact .inr ⟨x, hrest, hevent⟩

end Context

namespace Session

variable {s mid : Session} {events : List String}

lemma mem_inbox_publish (s : Session) (published event : String) :
    event ∈ (s.publish published).inbox ↔
      event ∈ s.inbox ∨ s.deliveries published event ≠ 0 := by
  rw [deliveries, ← Nat.pos_iff_ne_zero, List.count_pos_iff]
  exact s.hub.mem_inbox_foldl_run _ s.context.address event

lemma mem_inbox_iff {s : Session} {event : String} :
    event ∈ s.inbox ↔ ∃ x ∈ s.inbox.toList, x.1 = event := by
  rw [← Std.ExtTreeMap.mem_keys, ← Std.ExtTreeMap.map_fst_toList_eq_keys, List.mem_map]

/-! ## What is kept -/

/-- What publications and flushes keep: the deliveries are in the inbox or on the counters, and
nothing else has happened to the context. -/
structure Gathered (s : Session) (events : List String) (mid : Session) : Prop where
  bus : mid.hub.bus = s.hub.bus
  context : ∃ blackboard, mid.context = { s.context with blackboard }
  spared : ∀ key, (∀ event, key = firedKey event → ¬ s.Stirred events event) →
    mid.context.blackboard[key]? = s.context.blackboard[key]?
  stirred : ∀ event, event ∈ mid.inbox → s.Stirred events event
  placed : ∀ event, s.Stirred events event → event ∈ mid.inbox ∨ mid.context.Counts event
  counted : ∀ event, 0 ≤ s.counted event → 0 ≤ mid.counted event ∧
    min (mid.counted event + capped (mid.waiting event)) countLimit =
      min (s.counted event + capped (s.waiting event + s.delivered events event)) countLimit

namespace Gathered

lemma refl (s : Session) : Gathered s [] s := by
  have hstirred (event : String) : s.Stirred [] event ↔ event ∈ s.inbox := by
    simp [Stirred, delivered_nil]
  refine ⟨rfl, ⟨_, rfl⟩, fun _ _ => rfl, ?_, ?_, ?_⟩
  · exact fun event h => (hstirred event).mpr h
  · exact fun event h => .inl ((hstirred event).mp h)
  · intro event nonneg
    rw [delivered_nil]
    exact ⟨nonneg, rfl⟩

lemma address (gathered : Gathered s events mid) : mid.context.address = s.context.address := by
  obtain ⟨blackboard, hcontext⟩ := gathered.context
  rw [hcontext]

lemma deliveries_eq (gathered : Gathered s events mid) (published event : String) :
    mid.deliveries published event = s.deliveries published event := by
  rw [deliveries, deliveries, gathered.bus, gathered.address]

/-- A publication puts its deliveries into the inbox. -/
lemma publish (gathered : Gathered s events mid) (published : String) :
    Gathered s (events ++ [published]) (mid.publish published) := by
  have hstirred (event : String) : s.Stirred (events ++ [published]) event ↔
      s.Stirred events event ∨ s.deliveries published event ≠ 0 := by
    simp only [Stirred, delivered_concat, ne_eq, Nat.add_eq_zero_iff, not_and_or, or_assoc]
  refine ⟨?_, gathered.context, ?_, ?_, ?_, ?_⟩
  · exact (mid.hub.bus_publish published).trans gathered.bus
  · intro key hspared
    exact gathered.spared key fun event hkey h => hspared event hkey ((hstirred event).mpr (.inl h))
  · intro event hmem
    rw [mem_inbox_publish, gathered.deliveries_eq] at hmem
    exact (hstirred event).mpr (hmem.imp_left (gathered.stirred event))
  · intro event h
    rw [mem_inbox_publish, gathered.deliveries_eq]
    rcases (hstirred event).mp h with hbefore | hnow
    · exact (gathered.placed event hbefore).imp_left .inl
    · exact .inl (.inr hnow)
  · intro event nonneg
    obtain ⟨hnonneg, hsum⟩ := gathered.counted event nonneg
    refine ⟨hnonneg, ?_⟩
    -- The two caps are the same, so that it does not matter which of them is reached first.
    have hwaiting := mid.capped_waiting_publish published event
    rw [gathered.deliveries_eq] at hwaiting
    have hsame : (mid.publish published).counted event = mid.counted event := rfl
    rw [hsame, hwaiting, delivered_concat]
    simp only [capped, countLimit] at hsum ⊢
    omega

/-- A flush moves what is in the inbox to the counters. -/
lemma flush (gathered : Gathered s events mid) : Gathered s events mid.flush.2 := by
  have hempty (event : String) : event ∉ mid.flush.2.inbox := mid.not_mem_inbox_flush event
  refine ⟨gathered.bus, ?_, ?_, ?_, ?_, ?_⟩
  · obtain ⟨before, hbefore⟩ := gathered.context
    obtain ⟨after, hafter⟩ := Deed.exists_flush_context mid
    exact ⟨after, by rw [hafter, hbefore]⟩
  · intro key hspared
    rw [← gathered.spared key hspared]
    refine mid.context.getElem?_foldl_countEvent fun x hx hkey => ?_
    have hmem : x.1 ∈ mid.inbox := mem_inbox_iff.mpr ⟨x, hx, rfl⟩
    exact hspared x.1 hkey.symm (gathered.stirred x.1 hmem)
  · exact fun event hmem => absurd hmem (hempty event)
  · intro event h
    exact .inr (counts_foldl ((gathered.placed event h).symm.imp_right mem_inbox_iff.mp))
  · intro event nonneg
    obtain ⟨hnonneg, hsum⟩ := gathered.counted event nonneg
    rw [mid.counted_flush event hnonneg, mid.waiting_flush event]
    simp only [capped, countLimit] at hsum ⊢
    omega

end Gathered

lemma Bustle.gathered (bustle : Bustle s events mid) : Gathered s events mid := by
  induction bustle with
  | nil => exact .refl s
  | publish _ event ih => exact ih.publish event
  | flush _ order ih => exact (flushAlong_eq_flush _ order).symm ▸ ih.flush

/-- After a last flush everything is on the counters. -/
lemma counted_flushAlong (bustle : Bustle s events mid) {fired : List (String × Nat)}
    (order : fired.Perm mid.inbox.toList) {event : String} (nonneg : 0 ≤ s.counted event) :
    (mid.flushAlong fired).counted event =
      min (s.counted event + (s.waiting event + s.delivered events event : Nat)) countLimit := by
  obtain ⟨-, hsum⟩ := (bustle.flush order).gathered.counted event nonneg
  have hlimit : (mid.flushAlong fired).counted event < 2 ^ 31 := Int32.toInt_lt _
  rw [flushAlong_eq_flush mid order] at hlimit hsum ⊢
  rw [waiting_flush] at hsum
  simp only [capped, countLimit] at hsum ⊢
  omega

lemma counted_of_counts {n : Int32} {event : String}
    (hn : s.context.blackboard[firedKey event]? = some (.seed (.int n))) :
    s.counted event = n.toInt := by
  simp [counted, countOf, Blackboard.int, hn]

/-- The order of the publications and the places of the flushes do not matter, provided that the
counters that are written start from numbers that are not negative. -/
lemma context_flushAlong_congr {mid' : Session} {events' : List String}
    (bustle : Bustle s events mid) (bustle' : Bustle s events' mid')
    (same : events'.Perm events) {fired fired' : List (String × Nat)}
    (order : fired.Perm mid.inbox.toList) (order' : fired'.Perm mid'.inbox.toList)
    (nonneg : ∀ event, s.Stirred events event → 0 ≤ s.counted event) :
    (mid'.flushAlong fired').context = (mid.flushAlong fired).context := by
  have hgathered := (bustle.flush order).gathered
  have hgathered' := (bustle'.flush order').gathered
  have hstirred (event : String) : s.Stirred events' event ↔ s.Stirred events event := by
    rw [Stirred, Stirred, s.delivered_perm same]
  have hboards : (mid'.flushAlong fired').context.blackboard =
      (mid.flushAlong fired).context.blackboard := by
    refine Std.ExtTreeMap.ext_getElem? fun key => ?_
    -- The blackboards are compared key by key: a counter that has been stirred holds the capped sum
    -- in both, all other keys what they held before.
    by_cases hkey : ∃ event, key = firedKey event ∧ s.Stirred events event
    · obtain ⟨event, rfl, hevent⟩ := hkey
      have hcounted := counted_flushAlong bustle order (nonneg event hevent)
      have hcounted' := counted_flushAlong bustle' order' (nonneg event hevent)
      rw [s.delivered_perm same, ← hcounted] at hcounted'
      obtain ⟨n, hn⟩ := (hgathered.placed event hevent).resolve_left fun hmem =>
        not_mem_inbox_flush mid event (flushAlong_eq_flush mid order ▸ hmem)
      obtain ⟨n', hn'⟩ := (hgathered'.placed event ((hstirred event).mpr hevent)).resolve_left
        fun hmem => not_mem_inbox_flush mid' event (flushAlong_eq_flush mid' order' ▸ hmem)
      rw [counted_of_counts hn, counted_of_counts hn', Int32.toInt_inj] at hcounted'
      rw [hn, hn', hcounted']
    · have hspared (event : String) (heq : key = firedKey event) : ¬ s.Stirred events event :=
        fun h => hkey ⟨event, heq, h⟩
      rw [hgathered.spared key hspared,
        hgathered'.spared key fun event heq h => hspared event heq ((hstirred event).mp h)]
  obtain ⟨board, hcontext⟩ := hgathered.context
  obtain ⟨board', hcontext'⟩ := hgathered'.context
  rw [hcontext, hcontext'] at hboards ⊢
  exact congrArg (fun blackboard => { s.context with blackboard }) hboards

/-- **Watched events are counted without loss, duplication or dependence on order.**  Let events be
published and the inbox be flushed any number of times in between, each time going through it in any
order, and once more at last.

* A counter that has not been negative moves on by what was waiting at first and by the deliveries,
  up to its limit; and an event is delivered once to each live watch on it for each publication.
* Nothing else happens to the context: its counters of events that neither were waiting nor have
  been delivered, and all other keys of the blackboard, hold what they have held.
* The same events published in another order, with flushes at other places, leave the same context,
  provided that no counter has been negative of an event that was waiting or is delivered. -/
theorem counts_deliveries (bustle : Bustle s events mid) {fired : List (String × Nat)}
    (order : fired.Perm mid.inbox.toList) :
    let last := mid.flushAlong fired
    (∀ event, 0 ≤ s.counted event → last.counted event =
      min (s.counted event + (s.waiting event + s.delivered events event : Nat)) countLimit) ∧
    (∀ event, (∀ t ∈ s.watches event, t.event = event) →
      s.delivered events event = (s.watches event).length * events.count event) ∧
    (∃ blackboard, last.context = { s.context with blackboard }) ∧
    (∀ key, (∀ event, key = firedKey event → ¬ s.Stirred events event) →
      last.context.blackboard[key]? = s.context.blackboard[key]?) ∧
    ∀ events' mid' fired', Bustle s events' mid' → fired'.Perm mid'.inbox.toList →
      events'.Perm events → (∀ event, s.Stirred events event → 0 ≤ s.counted event) →
      (mid'.flushAlong fired').context = last.context := by
  intro last
  have hgathered : Gathered s events last := (bustle.flush order).gathered
  refine ⟨fun event nonneg => counted_flushAlong bustle order nonneg,
    fun event own => delivered_of_watches own events, hgathered.context, hgathered.spared, ?_⟩
  intro events' mid' fired' bustle' order' same nonneg
  exact context_flushAlong_congr bustle bustle' same order order' nonneg

/-! ### Two listeners at the door -/

/-- A context that watches knocks twice and rings once. -/
def porch : Session := ((alone.watch "knock").2.watch "knock").2.watch "ring" |>.2

/-- Two knocks and a ring, with a flush after the first knock, count four and one; and it does not
matter whether it is rung first, nor in which order the inbox is gone through. -/
theorem counts_deliveries_porch :
    let mid := ((porch.publish "knock").flush.2.publish "ring").publish "knock"
    let other := ((porch.publish "ring").publish "knock").publish "knock"
    mid.flush.2.counted "knock" = 4 ∧ mid.flush.2.counted "ring" = 1 ∧
      (other.flushAlong other.inbox.toList.reverse).context = mid.flush.2.context := by
  intro mid other
  have hbustle : Bustle porch ["knock", "ring", "knock"] mid :=
    ((Bustle.nil.publish "knock").flush (.refl _)).publish "ring" |>.publish "knock"
  have hother : Bustle porch ["ring", "knock", "knock"] other :=
    ((Bustle.nil.publish "ring").publish "knock").publish "knock"
  have hnonneg (event : String) : 0 ≤ porch.counted event := by
    have hempty : porch.context.blackboard = ∅ := rfl
    simp [counted, countOf, Blackboard.int, hempty]
  obtain ⟨hcounted, -, -, -, horder⟩ := counts_deliveries hbustle (.refl _)
  refine ⟨?_, ?_, horder _ _ _ hother (List.reverse_perm _) ?_ fun event _ => hnonneg event⟩
  · exact (hcounted "knock" (hnonneg "knock")).trans (by decide +kernel)
  · exact (hcounted "ring" (hnonneg "ring")).trans (by decide +kernel)
  · decide

end Session

end WorkflowGraph
