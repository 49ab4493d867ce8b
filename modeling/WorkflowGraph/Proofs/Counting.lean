import Mathlib.Data.List.DropRight
import WorkflowGraph.Proofs.Driving
import WorkflowGraph.Proofs.Operations
import WorkflowGraph.Proofs.Tally

/-!
# What a waiting node counts

A node that waits for an event clears the counter of the event and watches it when it is entered.
From then on deliveries gather in the inbox, and flushes move them to the counter
(`tallied_of_spares`).

What is not cleared is the inbox.  It is shared by all watches on an event and outlives them, so
that deliveries to a node that has been left since are counted for the next one, unless they have
been flushed in between.  `Counts.counted_eq_iff` says when this shows: whenever something was
waiting in the inbox, or a publication was delivered more than once, until the limit of the counter
hides it.
-/

namespace WorkflowGraph

open Context

namespace Moment

/-- Whether counted events are moved to the blackboard. -/
def flushes : Moment → Bool
  | .did .flush | .managed .flush => true
  | _ => false

/-- The number of deliveries of an event to the inbox. -/
def deliveries (event : String) : Moment → Session → Nat
  | .did d, s | .managed d, s => d.deliveries event s
  | .called .., _ | .compared, _ => 0

/-- The number of publications of an event. -/
def publications (event : String) : Moment → Nat
  | .did (.publish published) | .managed (.publish published) =>
    if published = event then 1 else 0
  | _ => 0

/-- The moment leaves the counter of an event to the flushes, and the inbox as well. -/
def SparesCount (event : String) : Moment → Prop
  | .did d | .managed d => d.SparesCount event ∧ d ≠ .dispose
  | .called .. | .compared => True

end Moment

/-- The moments up to the last flush. -/
def flushed (moments : List Moment) : List Moment := moments.rdropWhile fun m => !m.flushes

/-- The number of deliveries of an event to the inbox, counted over all watches. -/
def deliveries (event : String) : List Moment → Session → Nat
  | [], _ => 0
  | m :: rest, s => m.deliveries event s + deliveries event rest (m.replay s)

/-- The number of publications of an event. -/
def publications (event : String) : List Moment → Nat
  | [] => 0
  | m :: rest => m.publications event + publications event rest

/-- How many deliveries have reached the counter after some moments: none before the first flush,
and afterwards those that were waiting at the beginning with those made up to the last flush. -/
def settled (event : String) (moments : List Moment) (s : Session) : Nat :=
  if flushed moments = [] then 0 else s.waiting event + deliveries event (flushed moments) s

/-! ## The counter in the course of a run -/

lemma flushed_snoc_of_flushes (moments : List Moment) {m : Moment} (h : m.flushes = true) :
    flushed (moments ++ [m]) = moments ++ [m] := by
  simp [flushed, h]

lemma flushed_snoc_of_not_flushes (moments : List Moment) {m : Moment} (h : m.flushes = false) :
    flushed (moments ++ [m]) = flushed moments := by
  simp [flushed, h]

lemma flushed_prefix (moments : List Moment) : flushed moments <+: moments :=
  List.rdropWhile_prefix _ _

lemma deliveries_append (event : String) (before after : List Moment) (s : Session) :
    deliveries event (before ++ after) s =
      deliveries event before s + deliveries event after (Moment.replayAll before s) := by
  induction before generalizing s with
  | nil => simp [deliveries]
  | cons m rest ih =>
      simp only [List.cons_append, deliveries, ih, Moment.replayAll_cons]
      omega

namespace Moment

variable {event : String} {m : Moment}

lemma replay_of_flushes (h : m.flushes = true) (s : Session) :
    m.replay s = s.flush.2 ∧ m.deliveries event s = 0 := by
  cases m with
  | did d | managed d =>
      cases d with
      | flush => exact ⟨rfl, rfl⟩
      | _ => cases h
  | called | compared => cases h

/-- A moment that is no flush leaves the counter alone, and adds its deliveries to the inbox. -/
lemma replay_of_not_flushes (spares : m.SparesCount event) (h : m.flushes = false)
    (s : Session) :
    (m.replay s).counted event = s.counted event ∧
      capped ((m.replay s).waiting event) = capped (s.waiting event + m.deliveries event s) := by
  cases m with
  | did d | managed d =>
      have hother : ¬ d.IsFlush := by
        intro hd
        cases d with
        | flush => cases h
        | _ => exact hd
      exact ⟨d.counted_perform spares.1 hother s,
        d.capped_waiting_perform spares.1 hother spares.2 s⟩
  | called | compared => exact ⟨rfl, rfl⟩

end Moment

/-- After some moments the counter shows what has reached it, and the rest is waiting. -/
structure Tallied (event : String) (moments : List Moment) (s : Session) : Prop where
  counted : (Moment.replayAll moments s).counted event = capped (settled event moments s)
  waiting : ∃ rest, settled event moments s + rest = s.waiting event + deliveries event moments s ∧
    capped ((Moment.replayAll moments s).waiting event) = capped rest

namespace Tallied

variable {event : String} {moments : List Moment} {s : Session} {m : Moment}

/-- A flush moves the rest to the counter. -/
lemma snoc_of_flushes (tallied : Tallied event moments s) (h : m.flushes = true) :
    Tallied event (moments ++ [m]) s := by
  obtain ⟨hcounted, rest, htotal, hwaiting⟩ := tallied
  generalize hlast : Moment.replayAll moments s = last at hcounted hwaiting
  obtain ⟨hflush, hnone⟩ : m.replay last = last.flush.2 ∧ m.deliveries event last = 0 :=
    m.replay_of_flushes h last
  have hreplay : Moment.replayAll (moments ++ [m]) s = last.flush.2 := by
    simp [hlast, hflush]
  have hdelivered : deliveries event (moments ++ [m]) s = deliveries event moments s := by
    simp [deliveries_append, deliveries, hlast, hnone]
  have hsettled : settled event (moments ++ [m]) s =
      s.waiting event + deliveries event moments s := by
    simp [settled, flushed_snoc_of_flushes moments h, hdelivered]
  -- A counter that started from zero and is capped is not negative, so that the flush adds to it as
  -- to a natural number.
  have hnonneg : 0 ≤ last.counted event := by
    rw [hcounted]
    simp only [capped, countLimit]
    omega
  constructor
  · rw [hreplay, last.counted_flush event hnonneg, hcounted, hwaiting, hsettled, ← htotal]
    simp only [capped, countLimit]
    omega
  · refine ⟨0, ?_, ?_⟩
    · rw [hsettled, hdelivered, Nat.add_zero]
    · rw [hreplay, last.waiting_flush]

/-- Any other moment adds its deliveries to the rest. -/
lemma snoc_of_not_flushes (tallied : Tallied event moments s) (spares : m.SparesCount event)
    (h : m.flushes = false) : Tallied event (moments ++ [m]) s := by
  obtain ⟨hcounted, rest, htotal, hwaiting⟩ := tallied
  generalize hlast : Moment.replayAll moments s = last at hcounted hwaiting
  obtain ⟨hcount, hwait⟩ := m.replay_of_not_flushes spares h last
  have hreplay : Moment.replayAll (moments ++ [m]) s = m.replay last := by
    simp [hlast]
  have hsettled : settled event (moments ++ [m]) s = settled event moments s := by
    simp [settled, flushed_snoc_of_not_flushes moments h]
  constructor
  · rw [hreplay, hcount, hcounted, hsettled]
  · refine ⟨rest + m.deliveries event last, ?_, ?_⟩
    · simp only [hsettled, deliveries_append, deliveries, hlast]
      omega
    · rw [hreplay, hwait]
      exact capped_add_congr hwaiting _

end Tallied

/-- From a counter that has been cleared on, the tally and the deliveries agree as long as nothing
clears it again. -/
lemma tallied_of_spares {event : String} {moments : List Moment} {s : Session}
    (cleared : s.counted event = 0) (spares : ∀ m ∈ moments, m.SparesCount event) :
    Tallied event moments s := by
  -- The list grows at its end: whether the last moment flushes decides what has been counted.
  induction moments using List.reverseRecOn with
  | nil =>
      constructor
      · simp [settled, flushed, cleared]
      · exact ⟨s.waiting event, by simp [settled, flushed, deliveries], rfl⟩
  | append_singleton moments m ih =>
      have hbefore : Tallied event moments s :=
        ih fun k hk => spares k (List.mem_append_left _ hk)
      cases h : m.flushes with
      | true => exact hbefore.snoc_of_flushes h
      | false => exact hbefore.snoc_of_not_flushes (spares m (by simp)) h

/-! ## Publications and deliveries -/

/-- While a watch is live, every publication is delivered. -/
lemma publications_le_deliveries {event : String} {moments : List Moment} {s : Session}
    (heard : ∀ a b, moments = a ++ b → 1 ≤ (Moment.replayAll a s).deliveries event event) :
    publications event moments ≤ deliveries event moments s := by
  induction moments generalizing s with
  | nil => exact Nat.le_refl 0
  | cons m rest ih =>
      have hrest : publications event rest ≤ deliveries event rest (m.replay s) :=
        ih fun a b hab => heard (m :: a) b (by rw [hab]; rfl)
      have hfirst : m.publications event ≤ m.deliveries event s := by
        -- Somebody hears the event at every moment, at this one as well.
        have hone := heard [] (m :: rest) rfl
        rw [Moment.replayAll_nil] at hone
        unfold Moment.publications
        split
        · split
          · rename_i hpublished
            subst hpublished
            exact hone
          · exact Nat.zero_le _
        · split
          · rename_i hpublished
            subst hpublished
            exact hone
          · exact Nat.zero_le _
        · exact Nat.zero_le _
      simp only [publications, deliveries]
      omega

/-- While one watch is live and no other one, every publication is delivered once. -/
lemma deliveries_eq_publications {event : String} {moments : List Moment} {s : Session}
    {t : Token} (ht : t.event = event)
    (only : ∀ a b, moments = a ++ b → (Moment.replayAll a s).watches event = [t]) :
    deliveries event moments s = publications event moments := by
  induction moments generalizing s with
  | nil => rfl
  | cons m rest ih =>
      have hrest : deliveries event rest (m.replay s) = publications event rest :=
        ih fun a b hab => only (m :: a) b (by rw [hab]; rfl)
      have hfirst : m.deliveries event s = m.publications event := by
        have hone := Session.deliveries_of_watches_eq (only [] (m :: rest) rfl) ht
        cases m with
        | did d | managed d =>
            cases d with
            | publish published => exact hone published
            | _ => rfl
        | called | compared => rfl
      rw [deliveries, publications, hfirst, hrest]

/-! ## The stay of a waiting node -/

namespace Session

/-- The session when a node that waits for an event has been entered. -/
def listening (s : Session) (event : String) : Session :=
  (Deed.watch event).perform ((Deed.clearCount event).perform s)

/-- The token of the next registration. -/
def nextToken (s : Session) (event : String) : Token := ⟨s.hub.bus.nextId, event⟩

lemma counted_listening (s : Session) (event : String) : (s.listening event).counted event = 0 := by
  have hcount : (s.listening event).context.countOf event = 0 :=
    Blackboard.int_write_self s.context.blackboard (firedKey event) 0 0
  rw [counted, hcount]
  rfl

lemma waiting_listening (s : Session) (event : String) :
    (s.listening event).waiting event = s.waiting event := rfl

lemma mem_registrations_listening (s : Session) (event : String) :
    ⟨s.nextToken event, .tally s.context.address event⟩ ∈
      (s.listening event).hub.bus.registrations :=
  Deed.mem_registrations_perform.mpr (.inr rfl)

lemma held_listening (s : Session) (event : String) :
    Held (s.nextToken event) s.context.currentNode (s.listening event) :=
  Deed.held_of_tracked (d := .watch event) (s := (Deed.clearCount event).perform s) rfl

end Session

/-- While something that has been held from the beginning is live, the context has not been torn
down. -/
lemma not_mem_dispose {moments : List Moment} {s : Session} {t : Token} {owner : Option Guid}
    (held : Held t owner s) (live : (Moment.replayAll moments s).hub.bus.isLive t) :
    .did .dispose ∉ moments := by
  intro hmem
  obtain ⟨before, after, rfl⟩ := List.append_of_mem hmem
  have hheld := Moment.held_replayAll before held
  rw [Moment.replayAll_append, Moment.replayAll_cons] at live
  have hafter := Moment.isLive_of_replayAll (Deed.held_perform .dispose _ hheld).old live
  refine Deed.not_isLive_perform_of_ended hheld ?_ hafter
  intro htracked
  exact List.mem_map.mpr ⟨_, htracked, rfl⟩

/-- As long as the watch of the node is live, it counts. -/
lemma nextToken_mem_watches {event : String} {entered : Session} {moments : List Moment}
    (live : (Moment.replayAll moments (entered.listening event)).hub.bus.isLive
      (entered.nextToken event)) :
    entered.nextToken event ∈
      (Moment.replayAll moments (entered.listening event)).watches event := by
  have kept : Kept ⟨entered.nextToken event, .tally entered.context.address event⟩
      (entered.listening event) :=
    ⟨(entered.held_listening event).old, fun _ => entered.mem_registrations_listening event⟩
  have hmem := (Moment.kept_replayAll moments kept).mem live
  have haddress : (Moment.replayAll moments (entered.listening event)).context.address =
      entered.context.address := Moment.address_replayAll _ _
  rw [← haddress] at hmem
  exact Session.mem_watches hmem

/-- What the counter of an event shows when the edges are looked at, where a node that waits for
the event has been entered and `rest` has happened since. -/
structure Counts (event : String) (entered : Session) (rest : List Moment) : Prop where
  /-- What was waiting and what has been delivered, up to the last flush. -/
  counted : (Moment.replayAll rest (entered.listening event)).counted event =
    capped (settled event rest (entered.listening event))
  /-- No publication has been missed. -/
  heard : publications event (flushed rest) ≤
    deliveries event (flushed rest) (entered.listening event)

namespace Counts

variable {event : String} {entered : Session} {rest : List Moment}

/-- A node counts as long as its watch is live and nobody else writes the counter. -/
lemma of_isLive (spares : ∀ m ∈ rest, m.SparesCount event)
    (live : (Moment.replayAll rest (entered.listening event)).hub.bus.isLive
      (entered.nextToken event)) :
    Counts event entered rest := by
  have hcounted := (tallied_of_spares (entered.counted_listening event) spares).counted
  refine ⟨hcounted, publications_le_deliveries ?_⟩
  intro a b hab
  obtain ⟨since, hsince⟩ := flushed_prefix rest
  have hrest : rest = a ++ (b ++ since) := by
    rw [← List.append_assoc, ← hab, hsince]
  rw [hrest, Moment.replayAll_append] at live
  have hold : (entered.nextToken event).id <
      (Moment.replayAll a (entered.listening event)).hub.bus.nextId :=
    (Moment.held_replayAll a (entered.held_listening event)).old
  exact Session.deliveries_pos (nextToken_mem_watches (Moment.isLive_of_replayAll hold live)) rfl

/-- The counter shows the number of publications exactly if nothing has been flushed, or the
limit has been reached, or nothing was waiting and every publication was delivered once. -/
lemma counted_eq_iff (counts : Counts event entered rest) :
    (Moment.replayAll rest (entered.listening event)).counted event =
        capped (publications event (flushed rest)) ↔
      flushed rest = [] ∨ countLimit ≤ publications event (flushed rest) ∨
        entered.waiting event = 0 ∧
          deliveries event (flushed rest) (entered.listening event) =
            publications event (flushed rest) := by
  have hheard := counts.heard
  rw [counts.counted, settled, entered.waiting_listening]
  by_cases hnone : flushed rest = []
  · simp [hnone, publications]
  · simp only [hnone, if_false, false_or, capped, countLimit]
    omega

end Counts

lemma Deed.Tends.sparesCount {d : Deed} (tends : d.Tends) (event : String) :
    d.SparesCount event ∧ d ≠ .dispose := by
  cases d with
  | flush | takeRequest | elapse | elapseFixed => exact ⟨trivial, nofun⟩
  | _ => exact tends.elim

/-! ## Whole runs -/

variable {g : Graph} {Allowed : Deed → Prop}

/-- In the run with these moments, waiting nodes count what they should count whenever the edges
are looked at.  Take a node that waits for an event, with `between` the moments since it was
entered last; they begin with what it does then.  Suppose nobody else has written the counter and
the watch of the node is live.  Then:

* the counter shows the deliveries made since, up to the last flush, and with them those that were
  waiting in the inbox when the node was entered;
* that is the number of publications since exactly if nothing was waiting and every publication was
  delivered once, unless nothing has been flushed or the limit has been reached;
* where the watch of the node is the only one, every publication is delivered once. -/
def CountsDeliveries (p : g.Conduct Allowed) (s : Session) (moments : List Moment) : Prop :=
  ∀ before n event between after,
    moments = before ++ .called .enter n :: (between ++ .compared :: after) →
    (∀ k, .called .enter k ∉ between) →
    (∀ s, p.deeds n .enter s = (BuiltinNode.waitEvent event).deeds .enter s) →
    ∃ rest, between = .did (.clearCount event) :: .did (.watch event) :: rest ∧
      let entered := Moment.replayAll before s
      let now := Moment.replayAll (before ++ .called .enter n :: between) s
      let published := publications event (flushed rest)
      let delivered := deliveries event (flushed rest) (entered.listening event)
      (∀ d, .did d ∈ rest → d.SparesCount event) →
      now.hub.bus.isLive (entered.nextToken event) →
      now.counted event =
          capped (if flushed rest = [] then 0 else entered.waiting event + delivered) ∧
        (now.counted event = capped published ↔
          flushed rest = [] ∨ countLimit ≤ published ∨
            entered.waiting event = 0 ∧ delivered = published) ∧
        ((∀ a b, rest = a ++ b → (Moment.replayAll a (entered.listening event)).watches event =
            [entered.nextToken event]) →
          delivered = published)

namespace Course

variable {p : g.Conduct Allowed} {H : Deed → Prop}

/-- What a waiting node does when it is entered, and what can happen until the edges are looked
at. -/
lemma Path.stay {c c' : Config} {before between after : List Moment} {n : Guid} {event : String}
    (path : Path p H c (before ++ .called .enter n :: (between ++ .compared :: after)) c')
    (latest : ∀ k, .called .enter k ∉ between)
    (waits : ∀ s, p.deeds n .enter s = (BuiltinNode.waitEvent event).deeds .enter s) :
    ∃ rest, between = .did (.clearCount event) :: .did (.watch event) :: rest ∧
      ∀ d, .managed d ∈ rest → d.Tends := by
  obtain ⟨mid, next, -, hcall, hafter⟩ := path.split_cons
  cases hcall with
  | update stays => rcases stays with h | h <;> cases h
  | enter =>
      rw [waits] at hafter
      obtain ⟨here, there, hbetween, hcompare, -⟩ := hafter.split_cons
      cases hcompare with
      | compare =>
          obtain ⟨-, htends⟩ := hbetween.stays rfl latest
          obtain ⟨most, rfl, hmost⟩ := hbetween.uncons_of_pending rfl
          obtain ⟨rest, rfl, -⟩ := hmost.uncons_of_pending rfl
          exact ⟨rest, rfl, fun d hd => htends d (by simp [hd])⟩

lemma Path.countsDeliveries {c c' : Config} {moments : List Moment}
    (path : Path p H c moments c') : CountsDeliveries p c.session moments := by
  intro before n event between after hmoments latest waits
  subst hmoments
  obtain ⟨rest, rfl, htends⟩ := path.stay latest waits
  refine ⟨rest, rfl, ?_⟩
  intro entered now published delivered spares live
  have hnow : now = Moment.replayAll rest (entered.listening event) := by
    simp [now, entered, Session.listening, Moment.replay]
  rw [hnow] at live ⊢
  have hspares : ∀ m ∈ rest, m.SparesCount event := by
    intro m hm
    -- Only a node may take the registration away, and it has not done so, because it is live in the
    -- end.
    cases m with
    | did d =>
        refine ⟨spares d hm, ?_⟩
        rintro rfl
        exact not_mem_dispose (entered.held_listening event) live hm
    | managed d => exact (htends d hm).sparesCount event
    | called | compared => trivial
  have hcounts := Counts.of_isLive hspares live
  refine ⟨hcounts.counted, hcounts.counted_eq_iff, ?_⟩
  intro only
  obtain ⟨since, hsince⟩ := flushed_prefix rest
  exact deliveries_eq_publications rfl fun a b hab =>
    only a (b ++ since) (by rw [← List.append_assoc, ← hab, hsince])

end Course

namespace Command

open Course

variable (p : g.Conduct Allowed)

/-- Whatever the host does, waiting nodes count what they should count. -/
lemma countsDeliveries_chronicle (s : Session) (settings : MachineSettings)
    (commands : List Command) :
    CountsDeliveries p s (chronicle p.deeds commands (outset g s settings)) := by
  have hsettled := settled_outset g s settings
  obtain ⟨-, hpath⟩ := path_chronicle (p := p) (H := fun _ => True) hsettled commands
    fun _ _ => trivial
  exact hpath.countsDeliveries

/-- **What a waiting node counts.**  Whenever the edges are looked at while a node is current that
waits for an event, its counter shows the deliveries since the node was entered, together with
those that were in the inbox already: in every run of a machine, and in every run of a runner,
whose machine goes through the run of its commands. -/
theorem count_at_comparison :
    (∀ s settings commands,
      CountsDeliveries p s (chronicle p.deeds commands (outset g s settings))) ∧
    ∀ h settings orders,
      let r := Runner.create g h settings
      let commands := Order.commandsAll orders r
      (Order.performAll orders r).machine = performAll commands r.machine ∧
        CountsDeliveries p r.machine.session (chronicle p.deeds commands r.machine) := by
  refine ⟨countsDeliveries_chronicle p, ?_⟩
  intro h settings orders r commands
  exact ⟨Order.machine_performAll orders r,
    countsDeliveries_chronicle p r.machine.session settings.machine commands⟩

/-! ### Two ears -/

/-- Two nodes that wait for the same event. -/
def ears : Cast Deed.KeepsPlace :=
  [("left", BuiltinNode.actor (.waitEvent "knock")),
    ("right", BuiltinNode.actor (.waitEvent "knock"))]

/-- What the nodes do. -/
def earsConduct : (ears.graph [] none).Conduct Deed.KeepsPlace := ears.conduct [] none

/-- What a waiting node does when it is entered. -/
def listens : List Moment := [.did (.clearCount "knock"), .did (.watch "knock")]

/-- What happens in a tick up to the comparison of edges, while a waiting node is current. -/
def quietTick (guid : Guid) : List Moment :=
  [.managed .flush, .managed .takeRequest, .managed (.elapse 0.5), .called .update guid,
    .managed .flush]

/-- Two knocks while the node is active, and a tick: both are counted. -/
theorem count_at_comparison_knocks :
    let run := [.start, .host (.publish "knock"), .host (.publish "knock"), .tick 0.5]
    let before := [.managed (.place (some "left"))]
    let between :=
      listens ++ [.did (.publish "knock"), .did (.publish "knock")] ++ quietTick "left"
    chronicle earsConduct.deeds run (outset (ears.graph [] none) .alone {}) =
        before ++ .called .enter "left" :: (between ++ .compared :: []) ∧
      (Moment.replayAll (before ++ .called .enter "left" :: between) .alone).counted "knock" =
        2 := by
  intro run before between
  have hmoments : chronicle earsConduct.deeds run (outset (ears.graph [] none) .alone {}) =
      before ++ .called .enter "left" :: (between ++ .compared :: []) := by
    rfl
  refine ⟨hmoments, ?_⟩
  have hcounts := (count_at_comparison earsConduct).1 .alone {} run before "left" "knock" between []
    hmoments (by simp [between, listens, quietTick]) (fun s => rfl)
  obtain ⟨rest, hrest, hcounted⟩ := hcounts
  obtain rfl : _ = rest := (List.cons.inj (List.cons.inj hrest).2).2
  have spares : ∀ d, Moment.did d ∈
      [.did (.publish "knock"), .did (.publish "knock")] ++ quietTick "left" →
        d.SparesCount "knock" := by
    intro d hd
    simp only [quietTick, List.cons_append, List.nil_append, List.mem_cons, Moment.did.injEq,
      List.not_mem_nil, reduceCtorEq, or_self, or_false] at hd
    subst hd
    trivial
  obtain ⟨hnow, -, -⟩ := hcounted spares (by decide +kernel)
  rw [hnow]
  decide +kernel

/-- A knock that the left node has heard is counted for the right one, which has been entered since
and is the only one that listens: there has been no knock for it to count. -/
theorem knock_before_enter_is_counted :
    let run := [.start, .host (.publish "knock"), .enter "right", .tick 0.5]
    let before := [.managed (.place (some "left")), .called .enter "left"] ++ listens ++
      [.did (.publish "knock"), .called .exit "left", .managed (.releaseNode "left"),
        .managed (.place (some "right"))]
    let between := listens ++ quietTick "right"
    let entered := Moment.replayAll before .alone
    let now := Moment.replayAll (before ++ .called .enter "right" :: between) .alone
    chronicle earsConduct.deeds run (outset (ears.graph [] none) .alone {}) =
        before ++ .called .enter "right" :: (between ++ .compared :: []) ∧
      now.watches "knock" = [entered.nextToken "knock"] ∧
      publications "knock" between = 0 ∧
      now.counted "knock" = 1 := by
  refine ⟨rfl, ?_, ?_, ?_⟩
  · decide +kernel
  · decide +kernel
  · decide +kernel

end Command

end WorkflowGraph
