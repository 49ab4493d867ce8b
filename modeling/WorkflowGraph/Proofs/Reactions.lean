import WorkflowGraph.Bus.Exchange
import WorkflowGraph.Proofs.Traffic

/-!
# Exchanges as traffic

Whatever is done to an exchange, and whatever its handlers do then, is traffic on its bus:
`Exchange.calls` are the calls that an act amounts to, those of the handlers that it sets off
included.  If the act can be carried out at all, that is if the publications that handlers nest in
each other come to an end, the exchange has the bus of that traffic, and its journal has the labels
of the handlers that the traffic has run (`Exchange.leads_calls`).

The number of levels only bounds how deep publications nest.  When they suffice, more of them change
nothing (`Exchange.perform_of_le`).
-/

namespace WorkflowGraph

namespace Exchange

/-- Carries out acts one after the other. -/
def performAll (level : Nat) (acts : List Act) (x : Exchange) : Option Exchange :=
  acts.foldlM (fun x act => return (← perform level act x).2) x

/-- The exchange when a handler is run, before it acts. -/
def entered (x : Exchange) (r : Reaction) : Exchange := { x with journal := x.journal ++ [r.label] }

/-- Runs handlers one after the other. -/
def reactAll (level : Nat) (handlers : List Reaction) (x : Exchange) : Option Exchange :=
  handlers.foldlM (fun x r => performAll level r.acts (x.entered r)) x

lemma performAll_cons (level : Nat) (act : Act) (rest : List Act) (x : Exchange) :
    performAll level (act :: rest) x =
      (perform level act x).bind fun told => performAll level rest told.2 := by
  rw [performAll, List.foldlM_cons]
  cases perform level act x <;> rfl

lemma reactAll_cons (level : Nat) (r : Reaction) (rest : List Reaction) (x : Exchange) :
    reactAll level (r :: rest) x =
      (performAll level r.acts (x.entered r)).bind (reactAll level rest) := by
  rw [reactAll, List.foldlM_cons]
  rfl

lemma perform_publish (level : Nat) (event : String) (x : Exchange) :
    perform (level + 1) (.publish event) x =
      (reactAll level (if x.isOpen then x.bus.snapshot event else []) x).bind
        fun x => some (.nothing, x) := by
  rw [perform]
  rfl

/-! ## Levels -/

variable {level : Nat}

/-- If one more level changes no act, it changes no acts that follow each other. -/
lemma performAll_of_perform {more : Nat}
    (one : ∀ {act x told}, perform level act x = some told → perform more act x = some told)
    {acts : List Act} {x next : Exchange} (h : performAll level acts x = some next) :
    performAll more acts x = some next := by
  induction acts generalizing x with
  | nil => exact h
  | cons act rest ih =>
      rw [performAll_cons] at h ⊢
      obtain ⟨told, hact, hrest⟩ := Option.bind_eq_some_iff.mp h
      rw [one hact]
      exact ih hrest

lemma reactAll_of_perform {more : Nat}
    (one : ∀ {act x told}, perform level act x = some told → perform more act x = some told)
    {handlers : List Reaction} {x next : Exchange} (h : reactAll level handlers x = some next) :
    reactAll more handlers x = some next := by
  induction handlers generalizing x with
  | nil => exact h
  | cons r rest ih =>
      rw [reactAll_cons] at h ⊢
      obtain ⟨acted, hacts, hrest⟩ := Option.bind_eq_some_iff.mp h
      rw [performAll_of_perform one hacts]
      exact ih hrest

/-- With one more level the result is the same. -/
lemma perform_succ {act : Act} {x : Exchange} {told : Answer × Exchange}
    (h : perform level act x = some told) : perform (level + 1) act x = some told := by
  induction level generalizing act x told with
  | zero =>
      cases act with
      | publish event => cases h
      | subscribe | dispose | count | info | describe | close => exact h
  | succ level ih =>
      cases act with
      | publish event =>
          rw [perform_publish] at h ⊢
          obtain ⟨next, hreact, htold⟩ := Option.bind_eq_some_iff.mp h
          rw [reactAll_of_perform ih hreact]
          exact htold
      | subscribe | dispose | count | info | describe | close => exact h

/-- More levels change nothing when they suffice. -/
theorem perform_of_le {more : Nat} (le : level ≤ more) {act : Act} {x : Exchange}
    {told : Answer × Exchange} (h : perform level act x = some told) :
    perform more act x = some told := by
  induction le with
  | refl => exact h
  | step _ ih => exact perform_succ ih

/-! ## The calls of an act -/

/-- The calls of acts that follow each other, if `one` gives those of each. -/
def callsAlong (one : Act → Exchange → List (BusCall Reaction)) (level : Nat) :
    List Act → Exchange → List (BusCall Reaction)
  | [], _ => []
  | act :: rest, x =>
    one act x ++
      match perform level act x with
      | some (_, x) => callsAlong one level rest x
      | none => []

/-- The calls of handlers that are run one after the other. -/
def callsOf (one : Act → Exchange → List (BusCall Reaction)) (level : Nat) :
    List Reaction → Exchange → List (BusCall Reaction)
  | [], _ => []
  | r :: rest, x =>
    .deliver :: callsAlong one level r.acts (x.entered r) ++
      match performAll level r.acts (x.entered r) with
      | some x => callsOf one level rest x
      | none => []

/-- The calls that an act amounts to, with those of the handlers that it sets off. -/
def calls : Nat → Act → Exchange → List (BusCall Reaction)
  | _, .subscribe label event acts, x => if x.isOpen then [.subscribe event ⟨label, acts⟩] else []
  | _, .dispose label, x => (x.tokens.lookup label).toList.map .dispose
  | level + 1, .publish event, x =>
    if x.isOpen then
      .publish event :: callsOf (calls level) level (x.bus.snapshot event) x ++ [.finish]
    else []
  | _, _, _ => []

/-- The calls that some acts amount to. -/
def callsAll (level : Nat) (acts : List Act) (x : Exchange) : List (BusCall Reaction) :=
  callsAlong (calls level) level acts x

/-- The labels of the handlers that have been run. -/
def labels (log : List (Incident Reaction)) : List String :=
  log.filterMap fun
    | .ran _ r => some r.label
    | _ => none

lemma labels_append (log rest : List (Incident Reaction)) :
    labels (log ++ rest) = labels log ++ labels rest := List.filterMap_append

lemma labels_concat {i : Incident Reaction} (silent : labels [i] = [])
    (log : List (Incident Reaction)) : labels (log ++ [i]) = labels log := by
  rw [labels_append, silent, List.append_nil]

/-- The exchange has the bus of the traffic, and its journal tells what the traffic has run. -/
structure Follows (x : Exchange) (w : Traffic Reaction) : Prop where
  bus : w.bus = x.bus
  journal : x.journal = labels w.log

/-- The calls lead from one exchange to the next, and publications in flight stay as they are. -/
def Leads (calls : List (BusCall Reaction)) (x next : Exchange) : Prop :=
  ∀ w : Traffic Reaction, x.Follows w →
    next.Follows (BusCall.performAll calls w) ∧ (BusCall.performAll calls w).flights = w.flights

lemma Leads.refl (x : Exchange) : Leads [] x x := fun _ follows => ⟨follows, rfl⟩

lemma Leads.trans {before after : List (BusCall Reaction)} {x y z : Exchange}
    (first : Leads before x y) (second : Leads after y z) : Leads (before ++ after) x z := by
  intro w follows
  obtain ⟨hy, hflights⟩ := first w follows
  obtain ⟨hz, hflights'⟩ := second _ hy
  rw [BusCall.performAll_append]
  exact ⟨hz, hflights'.trans hflights⟩

lemma leads_along
    (one : ∀ {act : Act} {x : Exchange} {told : Answer × Exchange},
      perform level act x = some told → Leads (calls level act x) x told.2)
    {acts : List Act} {x next : Exchange} (h : performAll level acts x = some next) :
    Leads (callsAlong (calls level) level acts x) x next := by
  induction acts generalizing x with
  | nil =>
      cases h
      exact .refl _
  | cons act rest ih =>
      rw [performAll_cons] at h
      obtain ⟨told, hact, hrest⟩ := Option.bind_eq_some_iff.mp h
      rw [callsAlong, hact]
      exact (one hact).trans (ih hrest)

/-- Running handlers uses up what the innermost publication has to run. -/
lemma follows_callsOf
    (one : ∀ {act : Act} {x : Exchange} {told : Answer × Exchange},
      perform level act x = some told → Leads (calls level act x) x told.2)
    {left : List Reaction} {x next : Exchange} (h : reactAll level left x = some next)
    {w : Traffic Reaction} (follows : x.Follows w) {n : Nat} {outer : List (Flight Reaction)}
    (flights : w.flights = ⟨n, left⟩ :: outer) :
    let last := BusCall.performAll (callsOf (calls level) level left x) w
    next.Follows last ∧ last.flights = ⟨n, []⟩ :: outer := by
  induction left generalizing x w with
  | nil =>
      cases h
      exact ⟨follows, flights⟩
  | cons r rest ih =>
      rw [reactAll_cons] at h
      obtain ⟨acted, hacts, hrest⟩ := Option.bind_eq_some_iff.mp h
      have hdeliver := BusCall.perform_deliver flights
      -- The handler is in the log from the moment in which it is entered, before it acts.
      have hentered : (x.entered r).Follows (BusCall.deliver.perform w) := by
        rw [hdeliver]
        refine ⟨follows.bus, ?_⟩
        show x.journal ++ [r.label] = labels (w.log ++ [.ran n r])
        rw [follows.journal, labels_append]
        rfl
      obtain ⟨hacted, hflights⟩ := leads_along one hacts _ hentered
      have hleft := hflights.trans (congrArg Traffic.flights hdeliver)
      rw [callsOf, hacts]
      simp only [List.cons_append]
      have hcalls := ih hrest hacted hleft
      rw [← BusCall.performAll_append] at hcalls
      exact hcalls

/-- An act that is no publication is a call at most. -/
lemma leads_of_no_publication {act : Act} (other : ∀ event, act ≠ .publish event) {x : Exchange}
    {told : Answer × Exchange} (h : perform level act x = some told) :
    Leads (calls level act x) x told.2 := by
  cases act with
  | publish event => exact absurd rfl (other event)
  | subscribe label event acts =>
      simp only [perform, Option.some.injEq] at h
      subst h
      simp only [calls, subscribe]
      split
      · intro w follows
        refine ⟨⟨?_, ?_⟩, rfl⟩
        · exact congrArg (fun b : Switchboard Reaction => (b.subscribe event ⟨label, acts⟩).2)
            follows.bus
        · exact follows.journal.trans (labels_concat rfl w.log).symm
      · exact .refl x
  | dispose label =>
      simp only [perform, Option.some.injEq] at h
      subst h
      simp only [calls, dispose]
      cases x.tokens.lookup label with
      | none => exact .refl x
      | some address =>
          intro w follows
          refine ⟨⟨?_, follows.journal.trans ?_⟩, rfl⟩
          · exact congrArg (fun b : Switchboard Reaction => b.dispose address) follows.bus
          · simp only [Option.toList_some, List.map_cons, List.map_nil, BusCall.performAll_cons,
              BusCall.perform]
            split
            · exact (labels_concat rfl w.log).symm
            · rfl
  | count | info | describe | close =>
      simp only [perform, Option.some.injEq] at h
      subst h
      intro w follows
      simp only [calls]
      exact ⟨⟨follows.bus, follows.journal⟩, rfl⟩

/-- A publication runs the handlers that there are when it begins, and nothing if the bus has been
given up. -/
lemma leads_publication
    (one : ∀ {act : Act} {x : Exchange} {told : Answer × Exchange},
      perform level act x = some told → Leads (calls level act x) x told.2)
    {event : String} {x : Exchange} {told : Answer × Exchange}
    (h : perform (level + 1) (.publish event) x = some told) :
    Leads (calls (level + 1) (.publish event) x) x told.2 := by
  rw [perform_publish] at h
  obtain ⟨next, hreact, htold⟩ := Option.bind_eq_some_iff.mp h
  cases htold
  rw [calls]
  by_cases hopen : x.isOpen
  · rw [if_pos hopen] at hreact ⊢
    intro w follows
    let begun := (BusCall.publish event).perform w
    have hleft : w.bus.snapshot event = x.bus.snapshot event := by rw [follows.bus]
    -- The reactions are those that were live when the event was published, on both sides.
    have hbegun : x.Follows begun :=
      ⟨follows.bus, follows.journal.trans (labels_concat rfl w.log).symm⟩
    rw [← hleft] at hreact ⊢
    obtain ⟨hnext, hflights⟩ := follows_callsOf one hreact hbegun rfl
    have hfinish := BusCall.perform_finish hflights
    rw [List.cons_append, BusCall.performAll_cons, BusCall.performAll_append]
    show next.Follows (BusCall.finish.perform _) ∧ (BusCall.finish.perform _).flights = w.flights
    rw [hfinish]
    exact ⟨⟨hnext.bus, hnext.journal.trans (labels_concat rfl _).symm⟩, rfl⟩
  · rw [if_neg hopen] at hreact ⊢
    cases hreact
    exact .refl x

/-- An exchange follows the traffic that an act amounts to, if the act can be carried out. -/
lemma leads_calls {act : Act} {x : Exchange} {told : Answer × Exchange}
    (h : perform level act x = some told) : Leads (calls level act x) x told.2 := by
  induction level generalizing act x told with
  | zero =>
      refine leads_of_no_publication ?_ h
      rintro event rfl
      cases h
  | succ level ih =>
      by_cases hpublish : ∃ event, act = .publish event
      · obtain ⟨event, rfl⟩ := hpublish
        exact leads_publication ih h
      · exact leads_of_no_publication (fun event heq => hpublish ⟨event, heq⟩) h

end Exchange

/-- **A bus is the list of its live registrations.**  Whoever calls it, in whatever order, handlers
that run included: its tables stand for the list of what has been made and not been disposed of, in
the order in which it was made, and a publication runs what was there for its event when it began,
each registration once and in order (`Traffic.Faithful`).  In particular this is so for exchanges:
whenever acts can be carried out, the bus and the journal are those of the traffic that they amount
to, and all publications have ended. -/
theorem Switchboard.refines_live_registrations :
    (∀ (H : Type) (calls : List (BusCall H)), (BusCall.performAll calls {}).Faithful) ∧
      ∀ (level : Nat) (acts : List Act) (x : Exchange),
        Exchange.performAll level acts {} = some x →
          let w := BusCall.performAll (Exchange.callsAll level acts {}) {}
          w.bus = x.bus ∧ w.flights = [] ∧ x.journal = Exchange.labels w.log := by
  refine ⟨fun H calls => Traffic.faithful_performAll calls, ?_⟩
  intro level acts x h w
  obtain ⟨hfollows, hflights⟩ := Exchange.leads_along Exchange.leads_calls h {} ⟨rfl, rfl⟩
  exact ⟨hfollows.bus, hflights, hfollows.journal⟩

/-- The first of two bells adds a third one, takes the second one off and sets off an echo. -/
def bells : List Act :=
  [.subscribe "first" "ring" [.subscribe "third" "ring" [], .dispose "second", .publish "echo"],
    .subscribe "second" "ring" [],
    .subscribe "wall" "echo" [],
    .publish "ring"]

/-- The second bell still rings, and the third one does not; afterwards it is the other way
round. -/
theorem Switchboard.refines_live_registrations_bells :
    ∃ x, Exchange.performAll 2 bells {} = some x ∧ x.journal = ["first", "wall", "second"] ∧
      (x.bus.snapshot "ring").map (·.label) = ["first", "third"] ∧ x.bus.total = 3 ∧
      x.bus.isDisposed 1 = true := by
  obtain ⟨hfaithful, hexchanges⟩ := refines_live_registrations
  let calls := Exchange.callsAll 2 bells {}
  obtain ⟨x, hx⟩ :=
    Option.isSome_iff_exists.mp (by decide +kernel : (Exchange.performAll 2 bells {}).isSome)
  obtain ⟨hbus, -, hjournal⟩ := hexchanges 2 bells x hx
  have hrefines := (hfaithful Reaction calls).refines
  refine ⟨x, hx, hjournal.trans (by decide +kernel), ?_, ?_, ?_⟩
  · rw [← hbus, hrefines.snapshot_eq]
    decide +kernel
  · rw [← hbus, hrefines.total_eq]
    decide +kernel
  · rw [← hbus]
    decide +kernel

end WorkflowGraph
