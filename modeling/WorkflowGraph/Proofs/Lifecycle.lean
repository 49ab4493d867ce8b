import WorkflowGraph.Proofs.Operations
import WorkflowGraph.Proofs.Registrations

/-!
# The life of nodes

The calls that the nodes of a graph receive over a whole run of a host's making are bracketed.
They fall into stretches from a start to a stop; each stretch begins with the first call of the
entry node, goes on with calls of the node entered last, and moves from one node to another by a
last call of the one and a first call of the other (`OpenStretch`, `Bracketed`).

What carries this is that the calls so far fit the place at which the run is (`Place.Fits`).  That
is a matter of single steps, so that no operation of the machine has to be looked at.  For the same
reason the journal shows the calls where callbacks enter them (`Path.told`).

The callbacks may do what they like with the context except to move its current node or to tear it
down, and so may the host between its commands.
-/

namespace WorkflowGraph

/-! ## Calls -/

/-- A call of a node. -/
structure Call where
  phase : Phase
  node : Guid
deriving DecidableEq, Repr

/-- The call that a moment is. -/
def Moment.call? : Moment → Option Call
  | .called phase node => some ⟨phase, node⟩
  | _ => none

/-- The calls among some moments. -/
def calls (moments : List Moment) : List Call := moments.filterMap Moment.call?

@[simp] lemma calls_nil : calls [] = [] := rfl

@[simp] lemma calls_append (before after : List Moment) :
    calls (before ++ after) = calls before ++ calls after := List.filterMap_append

@[simp] lemma calls_cons_managed (d : Deed) (rest : List Moment) :
    calls (.managed d :: rest) = calls rest := rfl

@[simp] lemma calls_cons_compared (rest : List Moment) :
    calls (.compared :: rest) = calls rest := rfl

lemma calls_dids (own : List Deed) : calls (own.map .did) = [] := by
  induction own with
  | nil => rfl
  | cons d rest ih => exact ih

lemma calls_snoc (moments : List Moment) (m : Moment) :
    calls (moments ++ [m]) = calls moments ++ m.call?.toList := by
  rw [calls_append]
  cases m <;> rfl

lemma calls_snoc_called (moments : List Moment) (phase : Phase) (node : Guid) :
    calls (moments ++ [.called phase node]) = calls moments ++ [⟨phase, node⟩] :=
  calls_snoc moments _

lemma calls_snoc_of_call?_eq_none (moments : List Moment) {m : Moment} (h : m.call? = none) :
    calls (moments ++ [m]) = calls moments := by
  rw [calls_snoc, h, Option.toList_none, List.append_nil]

lemma mem_calls {moments : List Moment} {phase : Phase} {n : Guid} :
    ⟨phase, n⟩ ∈ calls moments ↔ .called phase n ∈ moments := by
  rw [calls, List.mem_filterMap]
  constructor
  · rintro ⟨m, hm, hcall⟩
    cases m with
    | called =>
        cases hcall
        exact hm
    | did | managed | compared => cases hcall
  · exact fun h => ⟨_, h, rfl⟩

/-- The calls since a start at the entry node, and the node that is active after them. -/
inductive OpenStretch (entry : Guid) : List Call → Guid → Prop
  /-- The entry node is entered. -/
  | entered : OpenStretch entry [⟨.enter, entry⟩] entry
  /-- The active node is called in a frame. -/
  | updated {cs : List Call} {n : Guid} (before : OpenStretch entry cs n) :
      OpenStretch entry (cs ++ [⟨.update, n⟩]) n
  /-- The active node is called in a fixed frame. -/
  | updatedFixed {cs : List Call} {n : Guid} (before : OpenStretch entry cs n) :
      OpenStretch entry (cs ++ [⟨.fixedUpdate, n⟩]) n
  /-- The active node is left, and at once a different node is entered. -/
  | moved {cs : List Call} {n target : Guid} (before : OpenStretch entry cs n)
      (other : n ≠ target) :
      OpenStretch entry (cs ++ [⟨.exit, n⟩, ⟨.enter, target⟩]) target

/-- Calls of a whole run: stretches that are closed by a last call of the node entered last, and
then possibly one that is still open, with its active node. -/
inductive Bracketed (g : Graph) : List Call → Option Guid → Prop
  | nil : Bracketed g [] none
  | opened {before cs : List Call} {entry n : Guid} (closed : Bracketed g before none)
      (hentry : g.resolvedEntry = some entry) (stretch : OpenStretch entry cs n) :
      Bracketed g (before ++ cs) (some n)
  | closed {cs : List Call} {n : Guid} (running : Bracketed g cs (some n)) :
      Bracketed g (cs ++ [⟨.exit, n⟩]) none

lemma Bracketed.extend {g : Graph} {cs last : List Call} {n n' : Guid}
    (running : Bracketed g cs (some n))
    (next : ∀ entry cs, OpenStretch entry cs n → OpenStretch entry (cs ++ last) n') :
    Bracketed g (cs ++ last) (some n') := by
  cases running with
  | opened closed hentry stretch =>
      rw [List.append_assoc]
      exact .opened closed hentry (next _ _ stretch)

namespace Course

variable {g : Graph} {Allowed H : Deed → Prop} {p : g.Conduct Allowed}

/-! ## The calls fit the place -/

/-- What the calls so far have to be at a place. -/
def Place.Fits (g : Graph) : Place → List Call → Prop
  | .stopped, cs => Bracketed g cs none
  | .active n, cs => Bracketed g cs (some n)
  | .leaving n, cs | .left n, cs =>
    ∃ before, cs = before ++ [⟨.exit, n⟩] ∧ Bracketed g before (some n)
  | .arriving target, cs =>
    (Bracketed g cs none ∧ g.resolvedEntry = some target) ∨
      ∃ before n, cs = before ++ [⟨.exit, n⟩] ∧ n ≠ target ∧ Bracketed g before (some n)

/-- A step keeps the calls fitting. -/
lemma Step.fits {ms : List Moment} {c c' : Config} {m : Moment} (step : Step p H c m c')
    (fits : c.place.Fits g (calls ms)) : c'.place.Fits g (calls (ms ++ [m])) := by
  cases step with
  | act | host | tend | compare | release =>
      rw [calls_snoc_of_call?_eq_none ms rfl]
      exact fits
  | update stays =>
      rw [calls_snoc_called]
      rcases stays with rfl | rfl
      · exact Bracketed.extend fits fun _ _ => .updated
      · exact Bracketed.extend fits fun _ _ => .updatedFixed
  | exit =>
      rw [calls_snoc_called]
      exact ⟨_, rfl, fits⟩
  -- Between two visits nobody is inside, and the node that was left is not the one to be entered.
  | move other =>
      obtain ⟨before, hcalls, hopen⟩ := fits
      rw [calls_snoc_of_call?_eq_none ms rfl]
      exact .inr ⟨before, _, hcalls, other, hopen⟩
  | start valid hentry =>
      rw [calls_snoc_of_call?_eq_none ms rfl]
      exact .inl ⟨fits, hentry⟩
  | enter =>
      rw [calls_snoc_called]
      rcases fits with ⟨hclosed, hentry⟩ | ⟨before, n, hcalls, other, hopen⟩
      · exact .opened hclosed hentry .entered
      · rw [hcalls, List.append_assoc]
        exact hopen.extend fun _ _ stretch => stretch.moved other
  | stop =>
      obtain ⟨before, hcalls, hopen⟩ := fits
      rw [calls_snoc_of_call?_eq_none ms rfl, hcalls]
      exact .closed hopen

lemma Path.fits {c c' : Config} {ms : List Moment} (path : Path p H c ms c')
    (stopped : c.place = .stopped) : c'.place.Fits g (calls ms) := by
  refine path.invariant (fun ms c => c.place.Fits g (calls ms)) ?_ ?_
  · rw [stopped]
    exact .nil
  · exact fun fits step => step.fits fits

end Course

/-! ## Calls in the journal -/

/-- The call that an entry of the journal tells of. -/
def Notice.call? : Notice → Option Call
  | .callback phase (some node) => some ⟨phase, node⟩
  | _ => none

/-- The calls that the journal tells of. -/
def Session.recorded (s : Session) : List Call := s.hub.journal.filterMap Notice.call?

/-- The call that a deed enters into the journal. -/
def Deed.call? : Deed → Option Call
  | .note notice => notice.call?
  | _ => none

/-- Each callback enters its call into the journal, and no other one. -/
def Graph.Conduct.Records {g : Graph} {Allowed : Deed → Prop} (p : g.Conduct Allowed) : Prop :=
  ∀ n phase s, s.context.currentNode = some n →
    (p.deeds n phase s).filterMap Deed.call? = [⟨phase, n⟩]

lemma Graph.Conduct.records_observed {g : Graph} {Allowed : Deed → Prop} (p : g.Conduct Allowed)
    (notes : ∀ notice, Allowed (.note notice))
    (silent : ∀ n phase s, ∀ d ∈ p.deeds n phase s, d.call? = none) :
    (p.observed notes).Records := by
  intro n phase s hcurrent
  have hown := List.filterMap_eq_nil_iff.mpr (silent n phase (s.note (.callback phase (some n))))
  simp [Graph.Conduct.observed, hcurrent, hown, Deed.call?, Notice.call?]

lemma BuiltinNode.call?_eq_none (n : BuiltinNode) (phase : Phase) (s : Session) :
    ∀ d ∈ n.deeds phase s, d.call? = none := by
  intro d hd
  cases n <;> cases phase <;> simp only [deeds, List.mem_cons, List.not_mem_nil, or_false] at hd
  all_goals
    rcases hd with rfl | rfl <;> rfl

lemma Hub.calls_journal_foldl_run (handlers : List Handler) (h : Hub) :
    (handlers.foldl run h).journal.filterMap Notice.call? =
      h.journal.filterMap Notice.call? := by
  induction handlers generalizing h with
  | nil => rfl
  | cons handler rest ih =>
      rw [List.foldl_cons, ih]
      cases handler with
      | notify label => simp [run, note, Notice.call?]
      | tally | enqueue => rfl

lemma Deed.recorded_perform (d : Deed) (s : Session) :
    (d.perform s).recorded = s.recorded ++ d.call?.toList := by
  cases d with
  | note notice =>
      cases h : notice.call? <;>
        simp [perform, Session.note, Session.onHub, Hub.note, Session.recorded, call?, h]
  | publish event =>
      simp only [call?, Option.toList_none, List.append_nil]
      exact Hub.calls_journal_foldl_run (s.hub.bus.handlersOf event) s.hub
  | releaseNode n =>
      simp [perform, Session.releaseNode, Hub.disposeEach_eq, Session.recorded, call?]
  | release => simp [perform, Session.release, Hub.disposeEach_eq, Session.recorded, call?]
  | reset =>
      simp [perform, Session.reset, Session.release, Hub.disposeEach_eq, Hub.clearInbox,
        Session.recorded, call?]
  | dispose =>
      simp [perform, Session.dispose, Session.release, Hub.disposeEach_eq, Hub.clearInbox,
        Session.recorded, call?]
  | _ =>
      simp only [call?, Option.toList_none, List.append_nil]
      rfl

lemma Deed.Tends.call?_eq_none {d : Deed} (tends : d.Tends) : d.call? = none := by
  cases d with
  | note => exact tends.elim
  | _ => rfl

namespace Course

variable {g : Graph} {p : g.Conduct Deed.KeepsPlace} {H : Deed → Prop}

/-- What has been recorded, and what the node called last has still to record. -/
def Config.told (c : Config) : List Call :=
  c.session.recorded ++ c.pending.filterMap Deed.call?

lemma told_config (m : Machine) : m.config.told = m.session.recorded := by
  simp [Config.told, Machine.config]

lemma Step.told {c c' : Config} {m : Moment} (step : Step p H c m c') (records : p.Records)
    (silent : ∀ d, H d → d.call? = none) (aware : c.Aware) :
    c'.told = c.told ++ m.call?.toList := by
  have hsilent : ∀ {place place' : Place} {d : Deed} {s : Session}, d.call? = none →
      Config.told ⟨place', [], d.perform s⟩ = Config.told ⟨place, [], s⟩ := by
    intro place place' d s hd
    simp [Config.told, d.recorded_perform, hd]
  have hcalled : ∀ {place place' : Place} {phase : Phase} {n : Guid} {s : Session},
      s.context.currentNode = some n →
        Config.told ⟨place', p.deeds n phase s, s⟩ =
          Config.told ⟨place, [], s⟩ ++ [⟨phase, n⟩] := by
    intro place place' phase n s hcurrent
    simp [Config.told, records n phase s hcurrent]
  cases step with
  -- What a node still owes counts as told, so a deed that is done moves from one list to the other.
  | @act place d rest s =>
      cases h : d.call? <;> simp [Config.told, d.recorded_perform, h, Moment.call?]
  | host allowed => simpa [Moment.call?] using hsilent (silent _ allowed)
  | tend tends => simpa [Moment.call?] using hsilent tends.call?_eq_none
  | compare => simp [Moment.call?]
  | update | exit | enter => exact hcalled (aware _ rfl)
  | release | move | start | stop => simpa [Moment.call?] using hsilent rfl

lemma Path.told {c c' : Config} {ms : List Moment} (path : Path p H c ms c')
    (stopped : c.place = .stopped) (records : p.Records)
    (hosts : ∀ d, H d → d.KeepsPlace ∧ d.call? = none) : c'.told = c.told ++ calls ms := by
  induction path with
  | nil => simp [calls]
  | snoc before step ih =>
      have aware : Config.Aware _ := before.aware stopped fun d hd =>
        (before.may_of_mem hd).elim id fun h => (hosts d h).1
      rw [step.told records (fun d hd => (hosts d hd).2) aware, ih, calls_snoc, List.append_assoc]

end Course

/-! ## Whole runs -/

namespace Command

open Course Machine

variable {g : Graph}

/-- Between two commands the calls are bracketed, with the current node of the machine as the
active one. -/
lemma bracketed_of_fits {m : Machine} {cs : List Call} (fits : m.config.place.Fits g cs) :
    Bracketed g cs m.current := by
  cases hcurrent : m.current with
  | none => rwa [config_of_none hcurrent] at fits
  | some n => rwa [config_of_current hcurrent] at fits

/-- The run of a machine is ended by a stop and by no other command. -/
lemma current_eq_none_iff (p : g.Conduct Deed.KeepsPlace) {m : Machine}
    (underway : Underway g m) (c : Command) (allowed : ∀ d, c = .host d → d.KeepsPlace) :
    (c.perform m).current = none ↔ c = .stop := by
  obtain ⟨hstate, -⟩ := path_moments_of_underway (p := p) underway c allowed
  rcases hstate with ⟨hstop, hresting⟩ | ⟨hother, hunderway⟩
  · simp [hstop, hstop ▸ hresting.current]
  · obtain ⟨n, b, hn, -⟩ := hunderway.current
    simp [hn, hother]

/-- **The calls of a run are bracketed.**  Take any graph whose callbacks, and any commands of a
host whose own deeds, leave the current node of the context alone.  Then, after all the commands:

* the chronicle accounts for everything that has happened to the session, and where callbacks enter
  their calls into the journal, and nobody else does, the journal shows the calls of the chronicle;
* its calls are bracketed, and the node that is active after them is the machine's current one;
* a stretch that is open is closed by a stop and by no other command;
* whenever a node is called, and as long as it acts, the context calls it the current one. -/
theorem lifecycle_bracketed (p : g.Conduct Deed.KeepsPlace) (s : Session)
    (settings : MachineSettings) (commands : List Command)
    (hosts : HostAllowed Deed.KeepsPlace commands) :
    let m := outset g s settings
    let moments := chronicle p.deeds commands m
    (performAll commands m).session = Moment.replayAll moments s ∧
      (p.Records → (∀ d, .host d ∈ commands → d.call? = none) →
        (performAll commands m).session.recorded = s.recorded ++ calls moments) ∧
      Bracketed g (calls moments) (performAll commands m).current ∧
      (∀ before c after, commands = before ++ c :: after →
        (performAll before m).current.isSome →
        ((performAll (before ++ [c]) m).current = none ↔ c = .stop)) ∧
      ∀ before phase node (deeds : List Deed) after,
        moments = before ++ .called phase node :: (deeds.map .did ++ after) →
        (Moment.replayAll (before ++ .called phase node :: deeds.map .did)
          s).context.currentNode = some node := by
  intro m moments
  have hsettled : Settled g m := settled_outset g s settings
  obtain ⟨-, hpath⟩ := path_chronicle (p := p) hsettled commands hosts
  refine ⟨hpath.session_eq, ?_, bracketed_of_fits (hpath.fits rfl), ?_, ?_⟩
  · intro records silent
    have hquiet : HostAllowed (fun d => d.KeepsPlace ∧ d.call? = none) commands :=
      fun d hd => ⟨hosts d hd, silent d hd⟩
    obtain ⟨-, hquietPath⟩ := path_chronicle (p := p) hsettled commands hquiet
    have htold := hquietPath.told rfl records fun _ h => h
    rw [told_config, told_config] at htold
    exact htold
  · intro before c after hcommands hopen
    subst hcommands
    obtain ⟨hbefore, -⟩ := path_chronicle (p := p) hsettled before hosts.of_append
    have hc : ∀ d, c = .host d → d.KeepsPlace := fun d hd => hosts d (by simp [hd])
    rw [performAll_append]
    rcases hbefore with underway | resting
    · exact current_eq_none_iff p underway c hc
    · rw [resting.current] at hopen
      cases hopen
  · intro before phase node deeds after hmoments
    change Path p Deed.KeepsPlace m.config moments _ at hpath
    rw [hmoments] at hpath
    refine hpath.currentNode_of_called rfl ?_
    intro d hd
    refine (hpath.may_of_mem ?_).elim id id
    rw [← List.cons_append, ← List.append_assoc]
    exact List.mem_append_left after hd

/-! ### A visit -/

/-- A node that leaves at once for another one, which publishes an event. -/
def visitors : Cast Deed.KeepsPlace :=
  [("hall", BuiltinNode.actor (.jump "bell")), ("bell", BuiltinNode.actor (.publishEvent "rung"))]

/-- What the visitors do, with their calls entered into the journal. -/
def visitorsConduct : (visitors.graph [] none).observed.Conduct Deed.KeepsPlace :=
  (visitors.conduct [] none).observed fun _ => trivial

/-- A run in which the first node asks for the second one, a stop, and another start. -/
def visit : List Command :=
  [.start, .host (.publish "knock"), .tick 0.5, .tickFixed 0.5, .stop, .tick 0.5, .start]

/-- The calls of the run: two stretches, of which the second one is open. -/
def visitCalls : List Call :=
  [⟨.enter, "hall"⟩, ⟨.exit, "hall"⟩, ⟨.enter, "bell"⟩, ⟨.update, "bell"⟩,
    ⟨.fixedUpdate, "bell"⟩, ⟨.exit, "bell"⟩, ⟨.enter, "hall"⟩]

lemma records_visitorsConduct : visitorsConduct.Records := by
  refine Graph.Conduct.records_observed _ _ (Cast.forall_mem_deeds visitors [] none ?_)
  intro guid a ha
  simp only [visitors, List.mem_cons, Prod.mk.injEq, List.not_mem_nil, or_false] at ha
  rcases ha with ⟨-, rfl⟩ | ⟨-, rfl⟩ <;> exact BuiltinNode.call?_eq_none _

/-- The journal of the run shows its calls, which are bracketed. -/
theorem lifecycle_bracketed_visit :
    let last := performAll visit (outset (visitors.graph [] none).observed .alone {})
    HostAllowed Deed.KeepsPlace visit ∧ last.session.recorded = visitCalls ∧
      Bracketed (visitors.graph [] none).observed visitCalls (some "hall") := by
  intro last
  have hdeed : ∀ d, .host d ∈ visit → d = .publish "knock" := by
    intro d hd
    simpa [visit] using hd
  have hosts : HostAllowed Deed.KeepsPlace visit := by
    intro d hd
    rw [hdeed d hd]
    trivial
  have silent : ∀ d, .host d ∈ visit → d.call? = none := by
    intro d hd
    rw [hdeed d hd]
    rfl
  obtain ⟨-, hrecorded, hcalls, -⟩ := lifecycle_bracketed visitorsConduct .alone {} visit hosts
  have hlist : calls (chronicle visitorsConduct.deeds visit
      (outset (visitors.graph [] none).observed .alone {})) = visitCalls := by
    decide +kernel
  have hcurrent : last.current = some "hall" := by
    decide +kernel
  refine ⟨hosts, ?_, ?_⟩
  · rw [hrecorded records_visitorsConduct silent, hlist]
    rfl
  · rw [← hlist, ← hcurrent]
    exact hcalls

end Command
end WorkflowGraph
