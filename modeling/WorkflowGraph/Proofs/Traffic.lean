import Mathlib.Data.List.Nodup
import Mathlib.Tactic.Lemma
import WorkflowGraph.Proofs.Tables

/-!
# Traffic on a bus

What a handler does when it is run is up to the user of a bus, and it may use the bus itself:
subscribe, dispose of tokens, publish.  So `Traffic` leaves it open.  Between any two calls of
handlers anybody may call the bus, and a publication goes on only when those begun after it have
ended: `BusCall.deliver` runs the next handler of the innermost publication in flight, and
`BusCall.finish` ends it when no handler is left.  A publication runs the handlers that
`Switchboard.snapshot` gives when it begins.

The *log* tells what has happened, and `Traffic.Faithful` says what the log makes of the tables of
the bus: they stand for the list of the registrations made and not disposed of, in the order in
which they were made, and every publication runs those which were there for its event when it began,
each of them once and in order, whatever happens meanwhile.  `Traffic.faithful_performAll` shows it
for all calls in any order.
-/

namespace WorkflowGraph

variable {H : Type}

/-- Something that has happened on a bus.  A token is known by its address and its event, and
publications are numbered. -/
inductive Incident (H : Type) where
  | subscribed (r : Registration H)
  | disposed (token : Token)
  | began (number : Nat) (event : String)
  /-- A publication has run a handler. -/
  | ran (number : Nat) (handler : H)
  | ended (number : Nat)

namespace Incident

/-- The number of the publication that an incident belongs to. -/
def number? : Incident H → Option Nat
  | .subscribed _ | .disposed _ => none
  | .began n _ | .ran n _ | .ended n => some n

/-- The registrations that have been made, oldest first. -/
def made (log : List (Incident H)) : List (Registration H) :=
  log.filterMap fun
    | .subscribed r => some r
    | _ => none

/-- The tokens that have been disposed of. -/
def disposals (log : List (Incident H)) : List Token :=
  log.filterMap fun
    | .disposed token => some token
    | _ => none

/-- The handlers that a publication has run, in their order. -/
def runs (n : Nat) (log : List (Incident H)) : List H :=
  log.filterMap fun
    | .ran k handler => if k = n then some handler else none
    | _ => none

/-- The registrations that have been made and not disposed of, oldest first. -/
def live (log : List (Incident H)) : List (Registration H) :=
  (made log).filter fun r => !(disposals log).contains r.token

/-- Those of them that are for an event. -/
def liveFor (log : List (Incident H)) (event : String) : List (Registration H) :=
  (live log).filter fun r => r.token.event == event

/-- What they do when they are run. -/
def handlersFor (log : List (Incident H)) (event : String) : List H :=
  (liveFor log event).map (·.handler)

/-- The bus that is nothing but the list of them. -/
def listed (log : List (Incident H)) : Bus H := ⟨live log, (made log).length⟩

lemma runs_append (n : Nat) (log rest : List (Incident H)) :
    runs n (log ++ rest) = runs n log ++ runs n rest := List.filterMap_append

lemma made_append (log rest : List (Incident H)) : made (log ++ rest) = made log ++ made rest :=
  List.filterMap_append

lemma disposals_append (log rest : List (Incident H)) :
    disposals (log ++ rest) = disposals log ++ disposals rest := List.filterMap_append

/-- What is neither a registration nor the end of one is no matter for the list. -/
lemma listed_concat {i : Incident H} (unmade : made [i] = []) (undisposed : disposals [i] = [])
    (log : List (Incident H)) : listed (log ++ [i]) = listed log := by
  rw [listed, live, made_append, unmade, List.append_nil, disposals_append, undisposed,
    List.append_nil]
  rfl

lemma listed_dispose (log : List (Incident H)) (token : Token) :
    listed (log ++ [.disposed token]) = (listed log).dispose token := by
  have hmade : made (log ++ [.disposed token]) = made log := by
    rw [made_append]
    exact List.append_nil _
  have hdisposals : disposals (log ++ [.disposed token]) = disposals log ++ [token] :=
    disposals_append _ _
  rw [listed, live, hmade, hdisposals, Bus.dispose, listed, live, List.filter_filter]
  congr 1
  refine List.filter_congr fun r _ => ?_
  simp [Bool.and_comm, bne, Bool.beq_eq_decide_eq]

lemma runs_eq_nil {n : Nat} {log : List (Incident H)} (h : ∀ i ∈ log, i.number? ≠ some n) :
    runs n log = [] := by
  refine List.filterMap_eq_nil_iff.mpr fun i hi => ?_
  have hne := h i hi
  cases i with
  | ran k r =>
      have hother : k ≠ n := fun heq => hne (congrArg some heq)
      exact if_neg hother
  | subscribed | disposed | began | ended => rfl

end Incident

/-- A publication in flight, and the handlers that it has still to run. -/
structure Flight (H : Type) where
  number : Nat
  left : List H

/-- A bus in use: the publications in flight, innermost first, the number of the next one, and what
has happened. -/
structure Traffic (H : Type) where
  bus : Switchboard H := {}
  flights : List (Flight H) := []
  published : Nat := 0
  log : List (Incident H) := []

/-- What is called next. -/
inductive BusCall (H : Type) where
  | subscribe (event : String) (handler : H)
  /-- Some clone of the token with the address is disposed of. -/
  | dispose (address : Nat)
  | publish (event : String)
  /-- The innermost publication runs its next handler. -/
  | deliver
  /-- The innermost publication has no handler left and ends. -/
  | finish

open Incident

namespace BusCall

/-- The bus after a call.  What cannot be called at the moment changes nothing, such as to dispose
of a token that has not been given out. -/
def perform : BusCall H → Traffic H → Traffic H
  | .subscribe event handler, w =>
    let (address, bus) := w.bus.subscribe event handler
    { w with bus, log := w.log ++ [.subscribed ⟨⟨address, event⟩, handler⟩] }
  | .dispose address, w =>
    { w with
      bus := w.bus.dispose address
      log := match w.bus.cells[address]? with
        | some cell => w.log ++ [.disposed ⟨address, cell.event⟩]
        | none => w.log }
  | .publish event, w =>
    { w with
      flights := ⟨w.published, w.bus.snapshot event⟩ :: w.flights
      published := w.published + 1
      log := w.log ++ [.began w.published event] }
  | .deliver, w =>
    match w.flights with
    | ⟨n, handler :: left⟩ :: outer =>
      { w with flights := ⟨n, left⟩ :: outer, log := w.log ++ [.ran n handler] }
    | _ => w
  | .finish, w =>
    match w.flights with
    | ⟨n, []⟩ :: outer => { w with flights := outer, log := w.log ++ [.ended n] }
    | _ => w

def performAll (calls : List (BusCall H)) (w : Traffic H) : Traffic H :=
  calls.foldl (fun w c => c.perform w) w

lemma performAll_cons (c : BusCall H) (rest : List (BusCall H)) (w : Traffic H) :
    performAll (c :: rest) w = performAll rest (c.perform w) := rfl

lemma performAll_append (before after : List (BusCall H)) (w : Traffic H) :
    performAll (before ++ after) w = performAll after (performAll before w) := List.foldl_append

lemma perform_deliver {w : Traffic H} {n : Nat} {handler : H} {left : List H}
    {outer : List (Flight H)} (flights : w.flights = ⟨n, handler :: left⟩ :: outer) :
    deliver.perform w =
      { w with flights := ⟨n, left⟩ :: outer, log := w.log ++ [.ran n handler] } := by
  simp only [perform, flights]

lemma perform_finish {w : Traffic H} {n : Nat} {outer : List (Flight H)}
    (flights : w.flights = ⟨n, []⟩ :: outer) :
    finish.perform w = { w with flights := outer, log := w.log ++ [.ended n] } := by
  simp only [perform, flights]

end BusCall

/-! ## The registrations -/

/-- The tables stand for the list of what has been made and not been disposed of, and the tokens
have been given out one after the other. -/
structure Traffic.Registers (w : Traffic H) : Prop where
  refines : w.bus.Refines (listed w.log)
  tokens : ∀ address : Nat, ((made w.log)[address]?).map (·.token) =
    ((w.bus.cells.map Cell.event)[address]?).map (Token.mk address)
  given : ∀ t ∈ disposals w.log, t ∈ (made w.log).map (·.token)

namespace Traffic.Registers

variable {w : Traffic H}

/-- The token of a registration has the address that the registration has among all that have been
made. -/
lemma id_eq (registers : w.Registers) {address : Nat} {r : Registration H}
    (h : (made w.log)[address]? = some r) : r.token.id = address := by
  have htoken := registers.tokens address
  rw [h, Option.map_some] at htoken
  obtain ⟨event, -, heq⟩ := Option.map_eq_some_iff.mp htoken.symm
  rw [← heq]

lemma nodup (registers : w.Registers) : ((made w.log).map (·.token)).Nodup := by
  apply List.Nodup.of_map Token.id
  rw [List.map_map, List.nodup_iff_getElem?_ne_getElem?]
  intro i j hlt hj heq
  rw [List.length_map] at hj
  have hi := List.getElem?_eq_getElem (hlt.trans hj)
  have hj := List.getElem?_eq_getElem hj
  rw [List.getElem?_map, List.getElem?_map, hi, hj] at heq
  have hids : (made w.log)[i].token.id = (made w.log)[j].token.id := Option.some.inj heq
  rw [registers.id_eq hi, registers.id_eq hj] at hids
  exact Nat.ne_of_lt hlt hids

lemma mem_tokens (registers : w.Registers) {address : Nat} {cell : Cell}
    (found : w.bus.cells[address]? = some cell) :
    (⟨address, cell.event⟩ : Token) ∈ (made w.log).map (·.token) := by
  have htoken := registers.tokens address
  rw [List.getElem?_map, found, Option.map_some, Option.map_some] at htoken
  obtain ⟨r, hr, hcell⟩ := Option.map_eq_some_iff.mp htoken
  exact hcell ▸ List.mem_map_of_mem (List.mem_of_getElem? hr)

lemma exists_cell (registers : w.Registers) {r : Registration H} (hr : r ∈ made w.log) :
    ∃ cell, w.bus.cells[r.token.id]? = some cell ∧ cell.event = r.token.event := by
  obtain ⟨address, h⟩ := List.mem_iff_getElem?.mp hr
  have htoken := registers.tokens address
  rw [h, Option.map_some] at htoken
  obtain ⟨event, hevent, heq⟩ := Option.map_eq_some_iff.mp htoken.symm
  rw [List.getElem?_map] at hevent
  obtain ⟨cell, hcell, rfl⟩ := Option.map_eq_some_iff.mp hevent
  exact ⟨cell, registers.id_eq h ▸ hcell, congrArg Token.event heq⟩

lemma dispose_own (registers : w.Registers) {before after : List (Registration H)}
    {r : Registration H} (h : live w.log = before ++ r :: after) :
    (w.bus.dispose r.token.id).Refines ⟨before ++ after, (made w.log).length⟩ := by
  have hmem : r ∈ live w.log := h ▸ List.mem_append_right _ List.mem_cons_self
  obtain ⟨cell, hcell, hevent⟩ := registers.exists_cell (List.mem_of_mem_filter hmem)
  have hrefines := registers.refines.dispose hcell
  have hnodup : ((live w.log).map (·.token)).Nodup :=
    registers.nodup.sublist (List.filter_sublist.map _)
  rw [h, List.map_append, List.map_cons, List.nodup_append] at hnodup
  obtain ⟨-, hafter, hbefore⟩ := hnodup
  -- No other registration has the token, so that the filter of `Bus.dispose` takes off just one.
  have hother : ∀ r' ∈ before ++ after, (r'.token != r.token) = true := by
    intro r' hr'
    apply bne_iff_ne.mpr
    rcases List.mem_append.mp hr' with hl | hr
    · exact hbefore _ (List.mem_map_of_mem hl) _ List.mem_cons_self
    · intro heq
      exact (List.nodup_cons.mp hafter).1 (heq ▸ List.mem_map_of_mem hr)
  have hkept := List.filter_eq_self.mpr hother
  have hrest : (live w.log).filter (fun r' => r'.token != r.token) = before ++ after := by
    rw [← hkept, h, List.filter_append, List.filter_cons_of_neg (by simp), List.filter_append]
  have hlist : (listed w.log).dispose ⟨r.token.id, cell.event⟩ =
      ⟨before ++ after, (made w.log).length⟩ := by
    rw [hevent]
    exact congrArg (Bus.mk · _) hrest
  exact hlist ▸ hrefines

lemma dispose_again (registers : w.Registers) {address : Nat}
    (dead : ∀ r ∈ live w.log, r.token.id ≠ address) : w.bus.dispose address = w.bus := by
  cases found : w.bus.cells[address]? with
  | none => exact Switchboard.dispose_of_absent found
  | some cell =>
    refine Switchboard.dispose_of_used found ?_
    rw [registers.refines.disposer address cell found, if_neg]
    rw [Bus.isLive_iff]
    rintro ⟨r, hr, htoken⟩
    exact dead r hr (congrArg Token.id htoken)

lemma isDisposed_iff (registers : w.Registers) {r : Registration H} (hr : r ∈ made w.log) :
    w.bus.isDisposed r.token.id = true ↔ r.token ∈ disposals w.log := by
  obtain ⟨cell, hcell, hevent⟩ := registers.exists_cell hr
  rw [registers.refines.isDisposed_eq hcell, hevent, Bool.not_eq_true', ← Bool.not_eq_true,
    Bus.isLive_iff]
  constructor
  · intro dead
    by_contra hnot
    exact dead ⟨r, List.mem_filter.mpr ⟨hr, by simpa using hnot⟩, rfl⟩
  · rintro hdisposed ⟨r', hr', htoken⟩
    have hkept := (List.mem_filter.mp hr').2
    rw [htoken] at hkept
    simp [hdisposed] at hkept

lemma listed_subscribe (registers : w.Registers) (event : String) (handler : H) :
    listed (w.log ++ [.subscribed ⟨⟨w.bus.cells.length, event⟩, handler⟩]) =
      ((listed w.log).subscribe event handler).2 := by
  let r : Registration H := ⟨⟨w.bus.cells.length, event⟩, handler⟩
  have hmade : made (w.log ++ [.subscribed r]) = made w.log ++ [r] := made_append _ _
  have hdisposals : disposals (w.log ++ [.subscribed r]) = disposals w.log := by
    rw [disposals_append]
    exact List.append_nil _
  -- The address is new, and only tokens that have been given out are disposed of.
  have hnew : r.token ∉ disposals w.log := by
    intro h
    obtain ⟨r', hr', htoken⟩ := List.mem_map.mp (registers.given _ h)
    obtain ⟨cell, hcell, -⟩ := registers.exists_cell hr'
    rw [htoken] at hcell
    exact Nat.lt_irrefl _ (List.getElem?_eq_some_iff.mp hcell).1
  have hkept : [r].filter (fun r => !(disposals w.log).contains r.token) = [r] := by
    simp [hnew]
  have hr : r = ⟨⟨(made w.log).length, event⟩, handler⟩ := by
    rw [← show w.bus.cells.length = (made w.log).length from registers.refines.length_cells]
  rw [listed, live, hmade, hdisposals, List.filter_append, hkept, List.length_append, hr]
  rfl

lemma subscribe (registers : w.Registers) (event : String) (handler : H) :
    ((BusCall.subscribe event handler).perform w).Registers := by
  have hlength : w.bus.cells.length = (made w.log).length := registers.refines.length_cells
  let r : Registration H := ⟨⟨w.bus.cells.length, event⟩, handler⟩
  have hmade : made (w.log ++ [.subscribed r]) = made w.log ++ [r] := made_append _ _
  have hdisposals : disposals (w.log ++ [.subscribed r]) = disposals w.log := by
    rw [disposals_append]
    exact List.append_nil _
  refine ⟨?_, ?_, ?_⟩
  · exact registers.listed_subscribe event handler ▸ registers.refines.subscribe event handler
  · intro address
    have hevents : (w.bus.subscribe event handler).2.cells.map Cell.event =
        w.bus.cells.map Cell.event ++ [event] := List.map_append
    show ((made (w.log ++ [.subscribed r]))[address]?).map _ =
      (((w.bus.subscribe event handler).2.cells.map Cell.event)[address]?).map _
    rw [hmade, hevents, List.getElem?_append, List.getElem?_append, List.length_map, hlength]
    split
    · exact registers.tokens address
    · next hge =>
      cases hlast : address - (made w.log).length with
      | zero =>
        have haddress : address = w.bus.cells.length := by omega
        rw [haddress]
        rfl
      | succ k => rfl
  · intro t ht
    show t ∈ (made (w.log ++ [.subscribed r])).map (·.token)
    rw [hmade, List.map_append]
    exact List.mem_append_left _ (registers.given t (hdisposals ▸ ht))

lemma dispose (registers : w.Registers) (address : Nat) :
    ((BusCall.dispose address).perform w).Registers := by
  cases found : w.bus.cells[address]? with
  | none =>
    simp only [BusCall.perform, found, Switchboard.dispose_of_absent found]
    exact registers
  | some cell =>
    let token : Token := ⟨address, cell.event⟩
    have hmade : made (w.log ++ [.disposed token]) = made w.log := by
      rw [made_append]
      exact List.append_nil _
    have hdisposals : disposals (w.log ++ [.disposed token]) = disposals w.log ++ [token] :=
      disposals_append _ _
    simp only [BusCall.perform, found]
    refine ⟨?_, ?_, ?_⟩
    · exact listed_dispose w.log token ▸ registers.refines.dispose found
    · intro other
      rw [hmade, Switchboard.events_dispose]
      exact registers.tokens other
    · intro t ht
      rw [hmade]
      rcases List.mem_append.mp (hdisposals ▸ ht) with hold | hnew
      · exact registers.given t hold
      · rw [List.mem_singleton.mp hnew]
        exact registers.mem_tokens found

/-- Publications leave the registrations alone. -/
lemma concat (registers : w.Registers) {next : Traffic H} {i : Incident H}
    (hbus : next.bus = w.bus) (hlog : next.log = w.log ++ [i]) (unmade : made [i] = [])
    (undisposed : disposals [i] = []) : next.Registers := by
  have hmade : made next.log = made w.log := by
    rw [hlog, made_append, unmade, List.append_nil]
  have hdisposals : disposals next.log = disposals w.log := by
    rw [hlog, disposals_append, undisposed, List.append_nil]
  have hlisted : listed next.log = listed w.log := by rw [hlog, listed_concat unmade undisposed]
  refine ⟨?_, ?_, ?_⟩
  · rw [hbus, hlisted]
    exact registers.refines
  · rw [hbus, hmade]
    exact registers.tokens
  · exact hmade ▸ hdisposals ▸ registers.given

lemma publish (registers : w.Registers) (event : String) :
    ((BusCall.publish event).perform w).Registers :=
  registers.concat rfl rfl rfl rfl

lemma deliver (registers : w.Registers) : (BusCall.deliver.perform w).Registers := by
  simp only [BusCall.perform]
  split
  · exact registers.concat rfl rfl rfl rfl
  · exact registers

lemma finish (registers : w.Registers) : (BusCall.finish.perform w).Registers := by
  simp only [BusCall.perform]
  split
  · exact registers.concat rfl rfl rfl rfl
  · exact registers

lemma perform (registers : w.Registers) (c : BusCall H) : (c.perform w).Registers := by
  cases c with
  | subscribe event handler => exact registers.subscribe event handler
  | dispose token => exact registers.dispose token
  | publish event => exact registers.publish event
  | deliver => exact registers.deliver
  | finish => exact registers.finish

end Traffic.Registers

/-! ## The publications -/

namespace Incident

lemma runs_concat {n : Nat} {i : Incident H} (silent : runs n [i] = []) (log : List (Incident H)) :
    runs n (log ++ [i]) = runs n log := by
  rw [runs_append, silent, List.append_nil]

/-- An incident of a log that has grown by one is an old one, or it is the last. -/
lemma split_concat {log before after : List (Incident H)} {i c : Incident H}
    (h : log ++ [i] = before ++ c :: after) :
    (∃ rest, after = rest ++ [i] ∧ log = before ++ c :: rest) ∨
      (after = [] ∧ i = c ∧ log = before) := by
  rcases List.eq_nil_or_concat after with rfl | ⟨rest, last, rfl⟩
  · obtain ⟨hlog, hi⟩ := List.append_inj' h rfl
    exact .inr ⟨rfl, List.head_eq_of_cons_eq hi, hlog⟩
  · rw [List.concat_eq_append, ← List.cons_append, ← List.append_assoc] at h
    obtain ⟨hlog, hi⟩ := List.append_inj' h rfl
    refine .inl ⟨rest, ?_, hlog⟩
    rw [List.concat_eq_append, List.head_eq_of_cons_eq hi]

end Incident

/-- How far a publication is that began after some incidents: it is in flight, and has still to run
the rest of what was registered then, or it has ended and run all of it. -/
inductive Traffic.Airs (w : Traffic H) (before : List (Incident H)) (n : Nat) (event : String)
    (after : List (Incident H)) : Prop
  | inFlight {f : Flight H} (mem : f ∈ w.flights) (number : f.number = n)
      (runs : runs n after ++ f.left = handlersFor before event)
  | landed (ended : .ended n ∈ after) (runs : runs n after = handlersFor before event)

/-- Publications have numbers of their own, and each of them is as far as its runs. -/
structure Traffic.Broadcasts (w : Traffic H) : Prop where
  numbered : ∀ i ∈ w.log, ∀ n, i.number? = some n → n < w.published
  distinct : (w.flights.map (·.number)).Nodup
  inFlight : ∀ f ∈ w.flights, (∃ event, .began f.number event ∈ w.log) ∧ .ended f.number ∉ w.log
  attributed : ∀ n r, .ran n r ∈ w.log → ∃ event, .began n event ∈ w.log
  fresh : ∀ before n event after, w.log = before ++ .began n event :: after →
    ∀ i ∈ before, i.number? ≠ some n
  airs : ∀ before n event after, w.log = before ++ .began n event :: after →
    w.Airs before n event after

namespace Traffic.Broadcasts

variable {w : Traffic H}

/-- When the log grows by an incident, it remains to see what becomes of the flights, and how far
each publication is then. -/
lemma grow (broadcasts : w.Broadcasts) {next : Traffic H} {i : Incident H}
    (hlog : next.log = w.log ++ [i]) (hpublished : w.published ≤ next.published)
    (number : ∀ n, i.number? = some n → n < next.published)
    (distinct : (next.flights.map (·.number)).Nodup)
    (inFlight : ∀ f ∈ next.flights,
      (∃ event, .began f.number event ∈ next.log) ∧ .ended f.number ∉ next.log)
    (attributed : ∀ n r, i = .ran n r → ∃ event, .began n event ∈ w.log)
    (begins : ∀ n event, i = .began n event → n = w.published ∧ next.Airs w.log n event [])
    (airs : ∀ before n event after, w.log = before ++ .began n event :: after →
      w.Airs before n event after → next.Airs before n event (after ++ [i])) :
    next.Broadcasts := by
  refine ⟨?_, distinct, inFlight, ?_, ?_, ?_⟩
  · intro i' hi' n hn
    rw [hlog] at hi'
    rcases List.mem_append.mp hi' with hold | hnew
    · exact Nat.lt_of_lt_of_le (broadcasts.numbered i' hold n hn) hpublished
    · exact number n (List.mem_singleton.mp hnew ▸ hn)
  · intro n r h
    rw [hlog] at h ⊢
    have hbegan : ∃ event, .began n event ∈ w.log := by
      rcases List.mem_append.mp h with hold | hnew
      · exact broadcasts.attributed n r hold
      · exact attributed n r (List.mem_singleton.mp hnew).symm
    obtain ⟨event, hevent⟩ := hbegan
    exact ⟨event, List.mem_append_left _ hevent⟩
  -- Numbers are given out in order, so a publication that begins now has none of what was before.
  · intro before n event after h
    rw [hlog] at h
    rcases split_concat h with ⟨rest, -, hold⟩ | ⟨-, hi, rfl⟩
    · exact broadcasts.fresh before n event rest hold
    · intro i' hi' hn
      have hlt := broadcasts.numbered i' hi' n hn
      have hlast := (begins n event hi).1
      omega
  -- A publication that began earlier has the new incident behind it; the last one has nothing.
  · intro before n event after h
    rw [hlog] at h
    rcases split_concat h with ⟨rest, rfl, hold⟩ | ⟨rfl, hi, rfl⟩
    · exact airs before n event rest hold (broadcasts.airs before n event rest hold)
    · exact (begins n event hi).2

/-- What is in flight stays so when the log grows by something else than its end. -/
lemma inFlight_concat (broadcasts : w.Broadcasts) {i : Incident H} {f : Flight H}
    (hf : f ∈ w.flights) {n : Nat} (number : f.number = n) (other : i ≠ .ended n) :
    (∃ event, .began n event ∈ w.log ++ [i]) ∧ .ended n ∉ w.log ++ [i] := by
  obtain ⟨⟨event, hbegan⟩, hended⟩ := broadcasts.inFlight f hf
  rw [number] at hbegan hended
  refine ⟨⟨event, List.mem_append_left _ hbegan⟩, ?_⟩
  intro h
  rcases List.mem_append.mp h with hold | hnew
  · exact hended hold
  · exact other (List.mem_singleton.mp hnew).symm

/-- What does not belong to a publication does nothing to publications. -/
lemma quiet (broadcasts : w.Broadcasts) {i : Incident H} (quiet : i.number? = none)
    (bus : Switchboard H) :
    Broadcasts { w with bus, log := w.log ++ [i] } := by
  have hother : ∀ c : Incident H, c.number? ≠ none → i ≠ c := by
    rintro c hc rfl
    exact hc quiet
  refine broadcasts.grow rfl (Nat.le_refl _) ?_ broadcasts.distinct ?_ ?_ ?_ ?_
  · intro n hn
    rw [quiet] at hn
    cases hn
  · exact fun f hf => broadcasts.inFlight_concat hf rfl (hother _ nofun)
  · exact fun n r h => absurd h (hother _ nofun)
  · exact fun n event h => absurd h (hother _ nofun)
  · intro before n event after _ airs
    have hsilent : runs n [i] = [] := runs_eq_nil (by simp [quiet])
    have hruns := runs_concat hsilent after
    cases airs with
    | inFlight mem number runs => exact .inFlight mem number (by rwa [hruns])
    | landed ended runs => exact .landed (List.mem_append_left _ ended) (by rwa [hruns])

lemma publish (broadcasts : w.Broadcasts) (registers : w.Registers) (event : String) :
    ((BusCall.publish event).perform w).Broadcasts := by
  have hold : ∀ f ∈ w.flights, f.number < w.published := by
    intro f hf
    obtain ⟨⟨e, hbegan⟩, -⟩ := broadcasts.inFlight f hf
    exact broadcasts.numbered _ hbegan _ rfl
  refine broadcasts.grow (i := .began w.published event) rfl (Nat.le_succ _) ?_ ?_ ?_ nofun ?_ ?_
  · intro n hn
    cases hn
    exact Nat.lt_succ_self _
  · refine List.nodup_cons.mpr ⟨?_, broadcasts.distinct⟩
    intro hmem
    obtain ⟨f, hf, hnumber⟩ := List.mem_map.mp hmem
    have hlt := hold f hf
    rw [show f.number = w.published from hnumber] at hlt
    exact Nat.lt_irrefl _ hlt
  · intro f hf
    rcases List.mem_cons.mp hf with rfl | hf
    · refine ⟨⟨event, List.mem_append_right _ List.mem_cons_self⟩, ?_⟩
      intro h
      rcases List.mem_append.mp h with hended | hlast
      · exact Nat.lt_irrefl _ (broadcasts.numbered _ hended _ rfl)
      · cases List.mem_singleton.mp hlast
    · exact broadcasts.inFlight_concat hf rfl nofun
  · rintro n e h
    cases h
    refine ⟨rfl, .inFlight List.mem_cons_self rfl ?_⟩
    exact registers.refines.snapshot_eq event
  · intro before n e after _ airs
    -- The beginning of a publication runs nothing, for this publication or another.
    have hruns := runs_concat (i := .began w.published event) (n := n) rfl after
    cases airs with
    | inFlight mem number runs =>
        exact .inFlight (List.mem_cons_of_mem _ mem) number (by rwa [hruns])
    | landed ended runs => exact .landed (List.mem_append_left _ ended) (by rwa [hruns])

lemma deliver (broadcasts : w.Broadcasts) : (BusCall.deliver.perform w).Broadcasts := by
  simp only [BusCall.perform]
  split
  · rename_i n r left outer hflights
    have hmem : ∀ f ∈ outer, f ∈ w.flights := fun f hf => hflights ▸ List.mem_cons_of_mem _ hf
    have htop : (⟨n, r :: left⟩ : Flight H) ∈ w.flights := hflights ▸ List.mem_cons_self
    have hdistinct := broadcasts.distinct
    rw [hflights] at hdistinct
    obtain ⟨⟨e, hbegan⟩, hended⟩ := broadcasts.inFlight _ htop
    refine broadcasts.grow (i := .ran n r) rfl (Nat.le_refl _) ?_ hdistinct ?_ ?_ nofun ?_
    · rintro k hk
      cases hk
      exact broadcasts.numbered _ hbegan _ rfl
    · intro f hf
      rcases List.mem_cons.mp hf with rfl | hf
      · exact broadcasts.inFlight_concat htop rfl nofun
      · exact broadcasts.inFlight_concat (hmem f hf) rfl nofun
    · rintro k r' h
      cases h
      exact ⟨e, hbegan⟩
    · intro before k event after hlog airs
      -- Only the publication on top runs its handler; the others have other numbers.
      have hother : k ≠ n → runs k (after ++ [.ran n r]) = runs k after := by
        intro ne
        apply runs_concat
        simp [Incident.runs, ne.symm]
      cases airs with
      | @inFlight f mem number runs =>
          rw [hflights] at mem
          rcases List.mem_cons.mp mem with rfl | hf
          · refine .inFlight List.mem_cons_self number ?_
            subst number
            rw [runs_append, ← runs, List.append_assoc]
            congr 1
            simp [Incident.runs]
          · have hne : k ≠ n := by
              rintro rfl
              exact (List.nodup_cons.mp hdistinct).1 (List.mem_map.mpr ⟨f, hf, number⟩)
            exact .inFlight (List.mem_cons_of_mem _ hf) number (by rwa [hother hne])
      | landed ends runs =>
          have hne : k ≠ n := by
            rintro rfl
            exact hended (hlog ▸ List.mem_append_right _ (List.mem_cons_of_mem _ ends))
          exact .landed (List.mem_append_left _ ends) (by rwa [hother hne])
  · exact broadcasts

lemma finish (broadcasts : w.Broadcasts) : (BusCall.finish.perform w).Broadcasts := by
  simp only [BusCall.perform]
  split
  · rename_i n outer hflights
    have hmem : ∀ f ∈ outer, f ∈ w.flights := fun f hf => hflights ▸ List.mem_cons_of_mem _ hf
    have htop : (⟨n, []⟩ : Flight H) ∈ w.flights := hflights ▸ List.mem_cons_self
    have hdistinct := broadcasts.distinct
    rw [hflights, List.map_cons, List.nodup_cons] at hdistinct
    have hne : ∀ f ∈ outer, f.number ≠ n := by
      rintro f hf rfl
      exact hdistinct.1 (List.mem_map.mpr ⟨f, hf, rfl⟩)
    obtain ⟨⟨e, hbegan⟩, -⟩ := broadcasts.inFlight _ htop
    refine broadcasts.grow (i := .ended n) rfl (Nat.le_refl _) ?_ hdistinct.2 ?_ nofun nofun ?_
    · rintro k hk
      cases hk
      exact broadcasts.numbered _ hbegan _ rfl
    · intro f hf
      refine broadcasts.inFlight_concat (hmem f hf) rfl fun h => ?_
      cases h
      exact hne f hf rfl
    · intro before k event after _ airs
      have hruns := runs_concat (i := .ended n) (n := k) rfl after
      cases airs with
      -- The publication on top has no handler left, so all that it had to run has been run.
      | @inFlight f mem number runs =>
          rw [hflights] at mem
          rcases List.mem_cons.mp mem with rfl | hf
          · subst number
            refine .landed (List.mem_append_right _ List.mem_cons_self) ?_
            rw [hruns, ← runs]
            exact (List.append_nil _).symm
          · exact .inFlight hf number (by rwa [hruns])
      | landed ended runs => exact .landed (List.mem_append_left _ ended) (by rwa [hruns])
  · exact broadcasts

/-- No call breaks the broadcasts that are under way. -/
lemma perform (broadcasts : w.Broadcasts) (registers : w.Registers) (c : BusCall H) :
    (c.perform w).Broadcasts := by
  cases c with
  | subscribe event handler => exact broadcasts.quiet rfl _
  | dispose address =>
      simp only [BusCall.perform]
      cases found : w.bus.cells[address]? with
      | some cell => exact broadcasts.quiet rfl _
      | none =>
          rw [Switchboard.dispose_of_absent found]
          exact broadcasts
  | publish event => exact broadcasts.publish registers event
  | deliver => exact broadcasts.deliver
  | finish => exact broadcasts.finish

end Traffic.Broadcasts

/-! ## What the log makes of the bus -/

/-- The tables of the bus are what the log makes of them. -/
structure Traffic.Faithful (w : Traffic H) : Prop where
  /-- They stand for the list of what has been made and not been disposed of, oldest first. -/
  refines : w.bus.Refines (listed w.log)
  /-- No token has been given out twice. -/
  distinct : ((made w.log).map (·.token)).Nodup
  /-- The handlers stored for an event, each with the number of its registration. -/
  handlers : ∀ event, w.bus.handlers.getD event [] =
    (liveFor w.log event).map fun r => (r.token.id, r.handler)
  count : ∀ event, w.bus.count event = (liveFor w.log event).length
  total : w.bus.total = (live w.log).length
  /-- A token tells whether it has been disposed of, through whichever clone. -/
  disposed : ∀ r ∈ made w.log,
    (w.bus.isDisposed r.token.id = true ↔ r.token ∈ disposals w.log)
  /-- To dispose of a token ends its own registration and leaves the others in their order. -/
  own : ∀ before r after, live w.log = before ++ r :: after →
    (w.bus.dispose r.token.id).Refines ⟨before ++ after, (made w.log).length⟩
  /-- To dispose of a token whose registration has ended changes nothing. -/
  again : ∀ address, (∀ r ∈ live w.log, r.token.id ≠ address) → w.bus.dispose address = w.bus
  /-- A publication runs what was registered for its event when it began, each registration once and
  in order, and nothing else; it has run all of it when it has ended, and all publications have
  ended when none is in flight. -/
  deliveries : ∀ before n event after, w.log = before ++ .began n event :: after →
    runs n before = [] ∧ runs n after <+: handlersFor before event ∧
      ((liveFor before event).map (·.token)).Nodup ∧
      (.ended n ∈ after → runs n after = handlersFor before event) ∧
      (w.flights = [] → .ended n ∈ after)
  /-- Handlers are run by publications only. -/
  attributed : ∀ n handler, .ran n handler ∈ w.log → ∃ event, .began n event ∈ w.log

namespace Traffic

variable {w : Traffic H}

lemma registers_empty : Registers ({} : Traffic H) where
  refines := Switchboard.refines_empty
  tokens _ := rfl
  given _ ht := absurd ht List.not_mem_nil

lemma broadcasts_empty : Broadcasts ({} : Traffic H) where
  numbered i hi := absurd hi List.not_mem_nil
  distinct := .nil
  inFlight f hf := absurd hf List.not_mem_nil
  attributed n r h := absurd h List.not_mem_nil
  fresh before n event after h := by simp at h
  airs before n event after h := by simp at h

lemma sound_performAll (registers : w.Registers) (broadcasts : w.Broadcasts)
    (calls : List (BusCall H)) :
    (BusCall.performAll calls w).Registers ∧ (BusCall.performAll calls w).Broadcasts := by
  induction calls generalizing w with
  | nil => exact ⟨registers, broadcasts⟩
  | cons c rest ih => exact ih (registers.perform c) (broadcasts.perform registers c)

lemma Broadcasts.delivery (broadcasts : w.Broadcasts) (registers : w.Registers)
    {before after : List (Incident H)} {n : Nat} {event : String}
    (h : w.log = before ++ .began n event :: after) :
    runs n before = [] ∧ runs n after <+: handlersFor before event ∧
      ((liveFor before event).map (·.token)).Nodup ∧
      (.ended n ∈ after → runs n after = handlersFor before event) ∧
      (w.flights = [] → .ended n ∈ after) := by
  have hmade : (made before).Sublist (made w.log) := by
    rw [h, made_append]
    exact List.sublist_append_left _ _
  have hlive : (liveFor before event).Sublist (made before) :=
    List.filter_sublist.trans List.filter_sublist
  refine ⟨runs_eq_nil (broadcasts.fresh before n event after h), ?_, ?_, ?_, ?_⟩
  · cases broadcasts.airs before n event after h with
    -- What is still in flight has run the handlers in front of those that are left.
    | inFlight mem number runs => exact runs ▸ List.prefix_append _ _
    | landed ended runs => exact runs ▸ List.prefix_refl _
  · exact registers.nodup.sublist ((hlive.trans hmade).map _)
  · intro ended
    cases broadcasts.airs before n event after h with
    | inFlight mem number runs =>
        subst number
        exact absurd (h ▸ List.mem_append_right _ (List.mem_cons_of_mem _ ended))
          (broadcasts.inFlight _ mem).2
    | landed ended runs => exact runs
  · intro idle
    cases broadcasts.airs before n event after h with
    | inFlight mem number runs => exact absurd (idle ▸ mem) List.not_mem_nil
    | landed ended runs => exact ended

/-- Whatever is called, in whatever order, the tables are what the log makes of them. -/
lemma faithful_performAll (calls : List (BusCall H)) : (BusCall.performAll calls {}).Faithful := by
  obtain ⟨registers, broadcasts⟩ := sound_performAll registers_empty broadcasts_empty calls
  have hrefines := registers.refines
  refine ⟨hrefines, registers.nodup, fun event => hrefines.handlers event, ?_, ?_, ?_, ?_, ?_, ?_,
    broadcasts.attributed⟩
  · intro event
    rw [hrefines.count_eq, Bus.count, Bus.handlersOf, List.length_map]
    rfl
  · exact hrefines.total_eq
  · exact fun r hr => registers.isDisposed_iff hr
  · exact fun before r after h => registers.dispose_own h
  · exact fun address dead => registers.dispose_again dead
  · exact fun before n event after h => broadcasts.delivery registers h

end Traffic
end WorkflowGraph
