import Mathlib.Data.List.Chain
import Mathlib.Data.List.DropRight
import WorkflowGraph.Proofs.Coherence

/-!
# The trail of a machine

Every change of node leaves a record, whoever has made it: a start, the host, an event, a request or
an edge.  `Command.transitions` lists the records of a command, along the machines that the command
goes through, and `Linked` says how the records of any number of runs fit together.

A record is put together from fields of the machine that change from one operation to the next.
What keeps it right is `Machine.Traced`: while the machine runs, its current node is where the last
record leads to, its previous node is where that record comes from, and its frame is not earlier.
One change of node preserves this (`Traced.enter`), and hence so does a walk, a command and a run.

The history holds the last of the records (`History.pushAll_empty`).
-/

namespace WorkflowGraph

/-! ## What a history holds -/

/-- A history that has been empty holds the last of the records that were pushed, as many as there
is room for, and has counted all of them. -/
lemma History.pushAll_empty (capacity : Nat) (ts : List Transition) :
    (empty capacity).pushAll ts =
      { records := ts.rtake capacity, capacity, total := ts.length } := by
  induction ts using List.reverseRecOn with
  | nil => simp [empty]
  | append_singleton ts t ih =>
      rw [pushAll_append, pushAll_singleton, ih, push, List.length_append, List.length_singleton]
      -- Nothing is kept without capacity, which the eviction has a case of its own for.
      by_cases hzero : capacity = 0
      · simp [hzero]
      · have hroom : ts.length + 1 - capacity ≤ ts.length := by omega
        have hdrop : ts.length - capacity + ((ts.rtake capacity).length + 1 - capacity) =
            ts.length + 1 - capacity := by
          rw [List.rtake, List.length_drop]
          omega
        have hlast : (ts ++ [t]).rtake capacity = ts.drop (ts.length + 1 - capacity) ++ [t] := by
          rw [List.rtake, List.length_append, List.length_singleton,
            List.drop_append_of_le_length hroom]
        rw [if_neg hzero, hlast, ← hdrop, ← List.drop_drop]
        rfl

/-! ## How records fit together -/

/-- The record names an edge and a port exactly if an edge was taken.  Then it is the edge of the
graph with that guid, and it leads from the port of the node that was left to the one entered. -/
def Transition.Authored (g : Graph) (t : Transition) : Prop :=
  (t.reason = .autoEdge ∧ ∃ e, g.edge? e.guid = some e ∧ t.edge = some e.guid ∧
      t.port = some e.port ∧ t.source = some e.source ∧ t.target = e.target) ∨
    (t.reason ≠ .autoEdge ∧ t.edge = none ∧ t.port = none)

/-- How the records of all runs of a machine for the graph fit together. -/
structure Linked (g : Graph) (records : List Transition) : Prop where
  /-- The first record is that of a start. -/
  first : ∀ t ∈ records.head?, t.reason = .start
  /-- A run starts at the entry node, from nowhere and before its first frame. -/
  start : ∀ t ∈ records, t.reason = .start →
    t.source = none ∧ g.resolvedEntry = some t.target ∧ t.frame = 0
  /-- Every other record goes on where the one before has led to, and leads to another node, not
  in an earlier frame. -/
  next : records.IsChain fun t u => u.reason ≠ .start →
    u.source = some t.target ∧ u.target ≠ t.target ∧ t.frame ≤ u.frame
  edges : ∀ t ∈ records, t.Authored g

namespace Linked

variable {g : Graph} {records : List Transition}

lemma nil : Linked g [] := ⟨nofun, nofun, .nil, nofun⟩

lemma snoc (linked : Linked g records) {t : Transition}
    (starts : t.reason = .start →
      t.source = none ∧ g.resolvedEntry = some t.target ∧ t.frame = 0)
    (goesOn : t.reason ≠ .start → ∃ last, records.getLast? = some last ∧
      t.source = some last.target ∧ t.target ≠ last.target ∧ last.frame ≤ t.frame)
    (authored : t.Authored g) : Linked g (records ++ [t]) := by
  refine ⟨?_, ?_, ?_, ?_⟩
  · intro u hu
    cases hrecords : records.head? with
    | some v =>
        rw [List.head?_append, hrecords] at hu
        exact linked.first u (hrecords ▸ hu)
    -- The first record of all: it cannot go on from one before it, so it is the record of a start.
    | none =>
        obtain rfl := List.head?_eq_none_iff.mp hrecords
        obtain rfl : t = u := by simpa using hu
        by_contra hreason
        obtain ⟨last, hlast, -⟩ := goesOn hreason
        cases hlast
  · intro u hu
    rcases List.mem_append.mp hu with hold | hnew
    · exact linked.start u hold
    · rw [List.mem_singleton.mp hnew]
      exact starts
  · refine linked.next.append (.singleton t) fun last hlast u hu hreason => ?_
    obtain rfl : t = u := by simpa using hu
    obtain ⟨last', hlast', hlink⟩ := goesOn hreason
    rw [Option.mem_def, hlast'] at hlast
    exact Option.some.inj hlast ▸ hlink
  · intro u hu
    rcases List.mem_append.mp hu with hold | hnew
    · exact linked.edges u hold
    · rw [List.mem_singleton.mp hnew]
      exact authored

lemma frames_le (linked : Linked g records) {stretch : List Transition}
    (part : stretch <:+: records) (same : ∀ t ∈ stretch.tail, t.reason ≠ .start) :
    stretch.Pairwise fun t u => t.frame ≤ u.frame := by
  have hlinks := List.IsChain.infix linked.next part
  have hchain : stretch.IsChain fun t u => t.frame ≤ u.frame :=
    hlinks.imp_of_mem_tail_imp fun t u _ hu hlink => (hlink (same u hu)).2.2
  have htrans : IsTrans Transition fun t u => t.frame ≤ u.frame :=
    ⟨fun _ _ _ htu huv => Nat.le_trans htu huv⟩
  exact hchain.pairwise

end Linked

/-! ## Operations of a machine -/

namespace Machine

def startRecords (m : Machine) : List Transition :=
  if m.isRunning then []
  else
    match m.graph.defects, m.graph.resolvedEntry with
    | [], some entry => m.opened.attemptRecords entry .start none
    | _, _ => []

def forceRecords (m : Machine) (guid : Guid) (reason : Reason) : List Transition :=
  if m.isRunning then m.attemptRecords guid reason none else []

/-- All records are linked, the history has been made from them, and the fields of the machine are
those of the last record. -/
structure Traced (g : Graph) (capacity : Nat) (records : List Transition) (m : Machine) :
    Prop where
  graph : m.graph = g
  linked : Linked g records
  history : m.history = (History.empty capacity).pushAll records
  running : m.isRunning = true → g.defects = [] ∧ ∃ t, records.getLast? = some t ∧
    m.current = some t.target ∧ m.previous = t.source ∧ t.frame ≤ m.frame
  stopped : m.isRunning = false → m.current = none

namespace Traced

variable {g : Graph} {capacity : Nat} {records : List Transition} {m : Machine}

lemma onSession (traced : Traced g capacity records m) (f : Session → Session) :
    Traced g capacity records (m.onSession f) :=
  ⟨traced.graph, traced.linked, traced.history, traced.running, traced.stopped⟩

lemma nextFrame (traced : Traced g capacity records m) :
    Traced g capacity records m.nextFrame := by
  refine ⟨traced.graph, traced.linked, traced.history, fun running => ?_, traced.stopped⟩
  obtain ⟨valid, t, hlast, hcurrent, hprevious, hframe⟩ := traced.running running
  exact ⟨valid, t, hlast, hcurrent, hprevious, Nat.le_succ_of_le hframe⟩

/-- A change of node leaves its record, and the fields are those of this record. -/
lemma enter (traced : Traced g capacity records m) (running : m.isRunning = true)
    {entered : Machine} {target : Guid} {reason : Reason} {edge : Option Edge}
    (goesOn : reason ≠ .start) (authored : (m.transition target reason edge).Authored g)
    (h : m.enter? target reason edge = some entered) :
    Traced g capacity (records ++ [m.transition target reason edge]) entered := by
  obtain ⟨hother, hcurrent, hprevious, hhistory, hframe, -, hstate⟩ := fields_of_enter? h
  obtain ⟨valid, last, hlast, hfrom, -, hearlier⟩ := traced.running running
  have hrunning : entered.isRunning = true := by
    rw [isRunning, hstate]
    exact running
  refine ⟨(enter?_alike h).graph.trans traced.graph, ?_, ?_, ?_, ?_⟩
  · refine traced.linked.snoc (fun hstart => absurd hstart goesOn) (fun _ => ?_) authored
    exact ⟨last, hlast, hfrom, fun hsame => hother (hfrom.trans (hsame ▸ rfl)), hearlier⟩
  · rw [hhistory, traced.history, History.pushAll_append, History.pushAll_singleton]
  · intro _
    -- The new record is the last one, and it is the source of what comes next.
    refine ⟨valid, m.transition target reason edge, List.getLast?_concat, hcurrent, hprevious, ?_⟩
    exact hframe ▸ Nat.le_refl _
  · intro stopped
    rw [hrunning] at stopped
    cases stopped

/-- The record of an edge that has been chosen names it. -/
lemma authored_of_bestEdge (traced : Traced g capacity records m) (running : m.isRunning = true)
    {e : Edge} (best : m.bestEdge = some e) :
    (m.transition e.target .autoEdge (some e)).Authored g := by
  obtain ⟨valid, -⟩ := traced.running running
  obtain ⟨n, hn, hmem, -⟩ := passing_of_bestEdge best
  rw [traced.graph] at hmem
  obtain ⟨hedge, hsource⟩ := List.mem_filter.mp hmem
  have hfrom : m.current = some e.source := by
    rw [hn, eq_of_beq hsource]
  exact .inl ⟨rfl, e, Graph.edge?_of_mem valid hedge, rfl, rfl, hfrom, rfl⟩

/-- The records of a walk extend the trail, and the machine goes on running. -/
lemma walk (traced : Traced g capacity records m) (running : m.isRunning = true)
    {ts : List Transition} {m' : Machine} (walk : Walk m ts m') :
    Traced g capacity (records ++ ts) m' ∧ m'.isRunning = true := by
  have hruns : ∀ {mid entered : Machine} {target : Guid} {reason : Reason} {edge : Option Edge},
      mid.enter? target reason edge = some entered → mid.isRunning = true →
        entered.isRunning = true := by
    intro mid entered target reason edge henters hmid
    -- An entry leaves the lifecycle alone, so the machine of every prefix runs.
    obtain ⟨-, -, -, -, -, -, hstate⟩ := fields_of_enter? henters
    rw [isRunning, hstate]
    exact hmid
  induction walk with
  | nil =>
      rw [List.append_nil]
      exact ⟨traced, running⟩
  | tend before f ih => exact ⟨ih.1.onSession f, ih.2⟩
  | request before henters ih =>
      rw [← List.append_assoc]
      exact ⟨ih.1.enter ih.2 (by simp) (.inr ⟨by rintro ⟨⟩, rfl, rfl⟩) henters, hruns henters ih.2⟩
  | edge before best henters ih =>
      rw [← List.append_assoc]
      exact ⟨ih.1.enter ih.2 (by simp) (ih.1.authored_of_bestEdge ih.2 best) henters,
        hruns henters ih.2⟩

/-- A run starts with a record of its own, or it does not start. -/
lemma start (traced : Traced g capacity records m) :
    Traced g capacity (records ++ m.startRecords) (m.start.toOption.getD m) := by
  cases hrunning : m.isRunning with
  | true =>
      have hstays : m.start.toOption.getD m = m := by
        simp [Machine.start, hrunning, Except.toOption]
      have hnone : m.startRecords = [] := by simp [startRecords, hrunning]
      rwa [hstays, hnone, List.append_nil]
  | false =>
      by_cases valid : m.graph.defects = []
      · have hnowhere : m.opened.current = none := traced.stopped hrunning
        obtain ⟨entry, entered, hentry, hentered, hok, -⟩ :=
          exists_entered_of_start hrunning hnowhere valid
        obtain ⟨-, hcurrent, hprevious, hhistory, hframe, -, hstate⟩ := fields_of_enter? hentered
        have hstart : m.start.toOption.getD m = entered := by
          rw [hok]
          rfl
        have hrecords : m.startRecords = [m.opened.transition entry .start none] := by
          simp [startRecords, hrunning, valid, hentry, attemptRecords, hentered]
        rw [hstart, hrecords]
        rw [traced.graph] at valid hentry
        refine ⟨(enter?_alike hentered).graph.trans traced.graph, ?_, ?_, fun _ => ?_, ?_⟩
        · exact traced.linked.snoc (fun _ => ⟨hnowhere, hentry, rfl⟩) (fun h => absurd rfl h)
            (.inr ⟨by rintro ⟨⟩, rfl, rfl⟩)
        · rw [hhistory, History.pushAll_append, ← traced.history]
          rfl
        · refine ⟨valid, _, List.getLast?_concat, hcurrent, hprevious, ?_⟩
          exact hframe ▸ Nat.le_refl _
        · intro stopped
          rw [isRunning, hstate] at stopped
          cases stopped
      · have hstays : m.start.toOption.getD m = m := by
          rw [(start_of_defects hrunning valid fun _ _ _ => []).1]
          rfl
        have hnone : m.startRecords = [] := by
          unfold startRecords
          cases hdefects : m.graph.defects with
          | nil => exact absurd hdefects valid
          | cons d rest => simp
        rwa [hstays, hnone, List.append_nil]

lemma stop (traced : Traced g capacity records m) : Traced g capacity records m.stop := by
  unfold Machine.stop
  split
  · cases hcurrent : m.current with
    | none => exact ⟨traced.graph, traced.linked, traced.history, by rintro ⟨⟩, fun _ => hcurrent⟩
    | some guid => exact ⟨traced.graph, traced.linked, traced.history, by rintro ⟨⟩, fun _ => rfl⟩
  · exact traced

lemma force (traced : Traced g capacity records m) (guid : Guid) (reason : Reason)
    (forced : reason ≠ .start) (edgeless : reason ≠ .autoEdge) :
    Traced g capacity (records ++ m.forceRecords guid reason) (m.force guid reason).2 := by
  cases hrunning : m.isRunning with
  | false =>
      simp only [Machine.force, forceRecords, hrunning, Bool.false_eq_true, if_false,
        List.append_nil]
      exact traced
  | true =>
      simp only [Machine.force, forceRecords, attemptRecords, hrunning, if_true]
      cases hentered : m.enter? guid reason none with
      | none => simpa using traced
      | some entered =>
          exact traced.enter hrunning forced (.inr ⟨edgeless, rfl, rfl⟩) hentered

lemma call (traced : Traced g capacity records m) (phase : Phase) :
    Traced g capacity records (m.call phase) := by
  unfold Machine.call
  split
  · exact traced.onSession _
  · exact traced

end Traced

end Machine

/-! ## Whole runs -/

namespace Command

open Machine

/-- The records of the changes of node that a command makes. -/
def transitions : Command → Machine → List Transition
  | .start, m => m.startRecords
  | .tick deltaTime, m => if m.isRunning then m.tickRecords deltaTime else []
  | .enter guid, m => m.forceRecords guid .manual
  | .enterFromEvent guid, m => m.forceRecords guid .externalEvent
  | .stop, _ | .tickFixed _, _ | .setClock _, _ | .host _, _ => []

/-- The records of all changes of node, oldest first. -/
def transitionsAll : List Command → Machine → List Transition
  | [], _ => []
  | c :: rest, m => c.transitions m ++ transitionsAll rest (c.perform m)

variable {g : Graph} {capacity : Nat} {records : List Transition} {m : Machine}

lemma traced_perform (traced : Traced g capacity records m) (c : Command) :
    Traced g capacity (records ++ c.transitions m) (c.perform m) := by
  have hsilent : ∀ {m' : Machine}, Traced g capacity records m' →
      Traced g capacity (records ++ []) m' := by
    intro m' traced'
    rwa [List.append_nil]
  cases c with
  | start => exact traced.start
  | stop => exact hsilent traced.stop
  | tick deltaTime =>
      cases hrunning : m.isRunning with
      | false =>
          simp only [transitions, perform, Machine.tick, hrunning, Bool.false_eq_true, if_false]
          exact hsilent traced
      | true =>
          simp only [transitions, perform, hrunning, if_true]
          exact (traced.nextFrame.walk hrunning (walk_tick hrunning deltaTime).1).1
  | tickFixed fixedDeltaTime =>
      simp only [transitions, perform, Machine.tickFixed]
      split
      · exact hsilent ((traced.onSession _).call .fixedUpdate)
      · exact hsilent traced
  | enter guid => exact traced.force guid .manual (by simp) (by simp)
  | enterFromEvent guid => exact traced.force guid .externalEvent (by simp) (by simp)
  | setClock =>
      exact hsilent ⟨traced.graph, traced.linked, traced.history, traced.running, traced.stopped⟩
  | host d => exact hsilent (traced.onSession d.perform)

lemma traced_performAll (traced : Traced g capacity records m) (commands : List Command) :
    Traced g capacity (records ++ transitionsAll commands m) (performAll commands m) := by
  induction commands generalizing records m with
  | nil =>
      rw [transitionsAll, List.append_nil]
      exact traced
  | cons c rest ih =>
      rw [transitionsAll, ← List.append_assoc]
      exact ih (traced_perform traced c)

lemma traced_outset (g : Graph) (s : Session) (settings : MachineSettings) :
    Traced g settings.historyCapacity [] (outset g s settings) :=
  ⟨rfl, .nil, rfl, nofun, fun _ => rfl⟩

/-- **The history is a chain of records.**  Take any graph, whatever its nodes do, and any commands
of a host, over any number of starts and stops.  Of the records of all changes of node

* those of starts come from nowhere and lead to the entry node before the first frame, every other
  one goes on where the one before has led to and leads to another node, and a record names an edge
  and its port exactly if an edge was taken: the edge of the graph that leads from the node and the
  port left to the node entered (`Linked`);
* between two starts, frames never decrease.

While the machine runs and its history has room for a record, the last record leads from the
previous node to the current one.  The history has been made by adding one record after the other,
and holds exactly the last of them, as many as it has room for. -/
theorem history_linked (g : Graph) (s : Session) (settings : MachineSettings)
    (commands : List Command) :
    let m := performAll commands (outset g s settings)
    let records := transitionsAll commands (outset g s settings)
    Linked g records ∧
    (∀ stretch, stretch <:+: records → (∀ t ∈ stretch.tail, t.reason ≠ .start) →
      stretch.Pairwise fun t u => t.frame ≤ u.frame) ∧
    (m.isRunning = true → 0 < m.history.capacity →
      ∃ t, m.history.last? = some t ∧ m.current = some t.target ∧ m.previous = t.source) ∧
    m.history = (History.empty settings.historyCapacity).pushAll records ∧
    m.history.capacity = settings.historyCapacity ∧ m.history.total = records.length ∧
    m.history.records = records.rtake (min m.history.capacity m.history.total) := by
  intro m records
  have htraced : Traced g settings.historyCapacity records m :=
    traced_performAll (traced_outset g s settings) commands
  have hhistory := htraced.history
  have hheld := hhistory
  rw [History.pushAll_empty] at hheld
  refine ⟨htraced.linked, fun _ => htraced.linked.frames_le, ?_, hhistory, by rw [hheld],
    by rw [hheld], ?_⟩
  · intro running room
    obtain ⟨-, t, hlast, hcurrent, hprevious, -⟩ := htraced.running running
    have hcapacity : m.history.capacity = settings.historyCapacity := by rw [hheld]
    have hpos : settings.historyCapacity = settings.historyCapacity - 1 + 1 := by omega
    obtain ⟨before, hrecords⟩ := List.getLast?_eq_some_iff.mp hlast
    refine ⟨t, ?_, hcurrent, hprevious⟩
    rw [History.last?, hheld, hrecords, hpos, List.rtake_concat_succ, List.getLast?_concat]
  · have hmin : records.length - min settings.historyCapacity records.length =
        records.length - settings.historyCapacity := by omega
    rw [hheld, List.rtake, List.rtake, hmin]

/-- With room for two records, the one of the first start is lost. -/
example :
    let m := performAll [.start, .tick 0.5, .stop, .start]
      (outset (visitors.graph [] none) .alone { historyCapacity := 2 })
    m.history.records.map (fun t => (t.source, t.target, t.reason, t.frame)) =
        [(some "hall", "bell", .requested, 1), (none, "hall", .start, 0)] ∧
      m.history.total = 3 := by
  decide +kernel

end Command
end WorkflowGraph
