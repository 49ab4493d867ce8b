import WorkflowGraph.Proofs.Reactions
import WorkflowGraph.Proofs.Registrations

/-!
# Hubs whose handlers act on the bus

When an event is published on a hub, `Hub.publish` runs the handlers of the event one after the
other, and nothing else happens meanwhile.  Handlers of outside parties may well use the bus when
they are run.  `Hub.hearAll` lets a hub hear of the traffic on its bus, one incident after the
other, if each handler is told by what it does to the hub itself: what else it does is part of the
traffic.

The bus of the hub is then the list that the tables of the bus stand for (`Hub.bus_hearAll`), and a
publication during which nothing else happens is `Hub.publish` (`Hub.hearAll_publication`).  An
exchange is a hub on which every handler only notifies somebody, apart from what it does to the bus
(`Hub.journal_of_exchange`).
-/

namespace WorkflowGraph

variable {H K : Type}

open Incident

namespace Bus

/-- The same registrations, with other handlers. -/
def map (f : H → K) (b : Bus H) : Bus K :=
  ⟨b.registrations.map fun r => ⟨r.token, f r.handler⟩, b.nextId⟩

lemma map_subscribe (f : H → K) (b : Bus H) (event : String) (handler : H) :
    (b.subscribe event handler).2.map f = ((b.map f).subscribe event (f handler)).2 := by
  simp [map, subscribe]

lemma map_dispose (f : H → K) (b : Bus H) (token : Token) :
    (b.dispose token).map f = (b.map f).dispose token := by
  simp only [map, dispose, List.filter_map]
  rfl

lemma handlersOf_map (f : H → K) (b : Bus H) (event : String) :
    (b.map f).handlersOf event = (b.handlersOf event).map f := by
  simp only [handlersOf, map, List.filter_map, List.map_map]
  rfl

end Bus

namespace Hub

/-- What an incident on the bus of a hub does to it. -/
def hear (effect : H → Handler) (h : Hub) : Incident H → Hub
  | .subscribed r => (h.subscribe r.token.event (effect r.handler)).2
  | .disposed token => h.dispose token
  | .ran _ handler => h.run (effect handler)
  | .began _ _ | .ended _ => h

def hearAll (effect : H → Handler) (log : List (Incident H)) (h : Hub) : Hub :=
  log.foldl (hear effect) h

variable (effect : H → Handler)

lemma hearAll_append (log rest : List (Incident H)) (h : Hub) :
    hearAll effect (log ++ rest) h = hearAll effect rest (hearAll effect log h) :=
  List.foldl_append

/-- A hub that hears what a call adds to the log keeps the bus that the log lists. -/
lemma bus_hearAll_perform {w : Traffic H} (registers : w.Registers) {h : Hub}
    (bus : (hearAll effect w.log h).bus = (listed w.log).map effect) (c : BusCall H) :
    (hearAll effect (c.perform w).log h).bus = (listed (c.perform w).log).map effect := by
  -- Most incidents make no registration and end none, and leave the bus alone.
  have hquiet : ∀ i : Incident H, made [i] = [] → disposals [i] = [] →
      (∀ h : Hub, (hear effect h i).bus = h.bus) →
      (hearAll effect (w.log ++ [i]) h).bus = (listed (w.log ++ [i])).map effect := by
    intro i unmade undisposed silent
    rw [hearAll_append, listed_concat unmade undisposed, ← bus]
    exact silent _
  cases c with
  | subscribe event handler =>
    show (hearAll effect (w.log ++ [_]) h).bus = (listed (w.log ++ [_])).map effect
    rw [registers.listed_subscribe, Bus.map_subscribe, ← bus, hearAll_append]
    rfl
  | dispose address =>
    simp only [BusCall.perform]
    cases w.bus.cells[address]? with
    | none => exact bus
    | some cell =>
      show (hearAll effect (w.log ++ [_]) h).bus = (listed (w.log ++ [_])).map effect
      rw [listed_dispose, Bus.map_dispose, ← bus, hearAll_append]
      rfl
  | publish event => exact hquiet _ rfl rfl fun _ => rfl
  | deliver =>
    simp only [BusCall.perform]
    split
    · exact hquiet _ rfl rfl fun h => bus_run h _
    · exact bus
  | finish =>
    simp only [BusCall.perform]
    split
    · exact hquiet _ rfl rfl fun _ => rfl
    · exact bus

lemma bus_hearAll_performAll {w : Traffic H} (registers : w.Registers) {h : Hub}
    (bus : (hearAll effect w.log h).bus = (listed w.log).map effect) (calls : List (BusCall H)) :
    (hearAll effect (BusCall.performAll calls w).log h).bus =
      (listed (BusCall.performAll calls w).log).map effect := by
  induction calls generalizing w with
  | nil => exact bus
  | cons c rest ih => exact ih (registers.perform c) (bus_hearAll_perform effect registers bus c)

/-- The bus of a hub that hears of all traffic from the beginning is the list that the tables stand
for. -/
theorem bus_hearAll {h : Hub} (empty : h.bus = {}) (calls : List (BusCall H)) :
    let w := BusCall.performAll calls {}
    (hearAll effect w.log h).bus = (listed w.log).map effect :=
  bus_hearAll_performAll effect Traffic.registers_empty empty calls

/-- What a publication still has to run, it runs if it is left to itself. -/
lemma performAll_delivers {n : Nat} {left : List H} {outer : List (Flight H)} {w : Traffic H}
    (flights : w.flights = ⟨n, left⟩ :: outer) :
    BusCall.performAll (left.map fun _ => .deliver) w =
      { w with flights := ⟨n, []⟩ :: outer, log := w.log ++ left.map (.ran n) } := by
  induction left generalizing w with
  | nil => simp [BusCall.performAll, ← flights]
  | cons handler left ih =>
    rw [List.map_cons, BusCall.performAll_cons, BusCall.perform_deliver flights, ih rfl]
    simp

lemma hearAll_ran (n : Nat) (handlers : List H) (h : Hub) :
    hearAll effect (handlers.map (.ran n)) h = (handlers.map effect).foldl run h := by
  rw [hearAll, List.foldl_map, List.foldl_map]
  rfl

/-- A publication that nothing comes between does to a hub what `Hub.publish` does. -/
theorem hearAll_publication {h : Hub} (empty : h.bus = {}) (calls : List (BusCall H))
    (event : String) :
    let w := BusCall.performAll calls {}
    let deliveries := (w.bus.snapshot event).map fun _ => BusCall.deliver
    let next := BusCall.performAll (.publish event :: deliveries ++ [.finish]) w
    next.bus = w.bus ∧ next.flights = w.flights ∧
      hearAll effect next.log h = (hearAll effect w.log h).publish event := by
  intro w deliveries next
  let begun := (BusCall.publish event).perform w
  let delivered : Traffic H := { begun with
    flights := ⟨w.published, []⟩ :: w.flights
    log := begun.log ++ (w.bus.snapshot event).map (.ran w.published) }
  have hdelivered : BusCall.performAll deliveries begun = delivered := performAll_delivers rfl
  have hfinish := BusCall.perform_finish (w := delivered) rfl
  have hnext : next = BusCall.finish.perform delivered := by
    show BusCall.performAll (.publish event :: (deliveries ++ [.finish])) w = _
    rw [BusCall.performAll_cons, BusCall.performAll_append, hdelivered]
    rfl
  rw [hnext, hfinish]
  refine ⟨rfl, rfl, ?_⟩
  have hbus : (hearAll effect w.log h).bus = (listed w.log).map effect :=
    bus_hearAll effect empty calls
  have hrefines : w.bus.Refines (listed w.log) := (Traffic.faithful_performAll calls).refines
  have hbegun : hearAll effect begun.log h = hearAll effect w.log h := hearAll_append effect _ _ _
  -- The snapshot of the tables is what the list has for the event at that moment.
  rw [Hub.publish, hbus, Bus.handlersOf_map, ← hrefines.snapshot_eq,
    ← hearAll_ran effect w.published, ← hbegun, ← hearAll_append]
  exact hearAll_append effect _ _ _

/-- What handlers that only notify leave in the journal. -/
lemma journal_hearAll (log : List (Incident Reaction)) (h : Hub) :
    (hearAll (fun r : Reaction => .notify r.label) log h).journal =
      h.journal ++ (Exchange.labels log).map .delivery := by
  induction log generalizing h with
  | nil => simp [hearAll, Exchange.labels]
  | cons i rest ih =>
    have hrest := ih (hear (fun r : Reaction => .notify r.label) h i)
    rw [← List.singleton_append, Exchange.labels_append]
    refine hrest.trans ?_
    cases i <;> simp [hear, Exchange.labels, run, note, subscribe, dispose]

/-- The journal and the bus of an exchange are those of a hub whose handlers do nothing to it but
note their labels, whatever they do to the bus. -/
theorem journal_of_exchange {level : Nat} {acts : List Act} {x : Exchange}
    (h : Exchange.performAll level acts {} = some x) :
    let w := BusCall.performAll (Exchange.callsAll level acts {}) {}
    let hub := hearAll (fun r : Reaction => .notify r.label) w.log {}
    hub.journal = x.journal.map .delivery ∧
      ∃ b : Bus Reaction, x.bus.Refines b ∧ hub.bus = b.map fun r => .notify r.label := by
  intro w hub
  obtain ⟨hfollows, -⟩ := Exchange.leads_along Exchange.leads_calls h {} ⟨rfl, rfl⟩
  refine ⟨?_, listed w.log, ?_, bus_hearAll _ rfl _⟩
  · rw [hfollows.journal]
    exact journal_hearAll w.log {}
  · rw [← hfollows.bus]
    exact (Traffic.faithful_performAll _).refines

end Hub

end WorkflowGraph
