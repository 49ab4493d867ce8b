import WorkflowGraph.Proofs.Driving
import WorkflowGraph.Proofs.Operations

/-!
# The chronicle of a runner

What happens while a runner is operated, moment by moment.  The commands that a runner gives to
its machine are those of a host, but what it does to the session by them it does of its own: in
the chronicle of a runner a deed that somebody *did* is one of a node or of the host behind the
runner, and a deed that was *managed* is one of the machine or of the runner.

The sessions that a runner goes through are replays of its chronicle (`Order.session_performAll`).
-/

namespace WorkflowGraph

namespace Command

variable (deeds : Guid → Phase → Session → List Deed)

/-- What happens while a runner gives a command to its machine. -/
def ownMoments : Command → Machine → List Moment
  | .host d, _ => [.managed d]
  | c, m => c.moments deeds m

/-- What happens while a runner gives commands to its machine. -/
def ownChronicle : List Command → Machine → List Moment
  | [], _ => []
  | c :: rest, m => c.ownMoments deeds m ++ ownChronicle rest (c.perform m)

lemma ownChronicle_append (before after : List Command) (m : Machine) :
    ownChronicle deeds (before ++ after) m =
      ownChronicle deeds before m ++ ownChronicle deeds after (performAll before m) := by
  induction before generalizing m with
  | nil => rfl
  | cons c rest ih =>
      rw [List.cons_append, ownChronicle, ownChronicle, ih, List.append_assoc, performAll_cons]

end Command

namespace Order

variable (deeds : Guid → Phase → Session → List Deed)

/-- What happens while a runner carries out an order. -/
def moments : Order → Runner → List Moment
  | .machine c, r => c.moments deeds r.machine
  | o, r => Command.ownChronicle deeds (o.commands r) r.machine

/-- What happens while a runner carries out one order after the other. -/
def chronicle : List Order → Runner → List Moment
  | [], _ => []
  | o :: rest, r => o.moments deeds r ++ chronicle rest (o.perform r)

end Order

/-! ## The sessions of a runner -/

namespace Command

open Machine Course

variable {g : Graph} {Allowed : Deed → Prop}

lemma exists_path_moments {m : Machine} (settled : Settled g m) (p : g.Conduct Allowed)
    (c : Command) :
    Settled g (c.perform m) ∧
      Path p (fun _ => True) m.config (c.moments p.deeds m) (c.perform m).config := by
  have hpath := path_chronicle (p := p) settled [c] (H := fun _ => True) fun _ _ => trivial
  rwa [chronicle, chronicle, List.append_nil] at hpath

lemma session_perform {m : Machine} (settled : Settled g m) (p : g.Conduct Allowed) (c : Command) :
    (c.perform m).session = Moment.replayAll (c.moments p.deeds m) m.session :=
  (exists_path_moments settled p c).2.session_eq

lemma session_ownMoments {m : Machine} (settled : Settled g m) (p : g.Conduct Allowed)
    (c : Command) :
    (c.perform m).session = Moment.replayAll (c.ownMoments p.deeds m) m.session := by
  cases c with
  | host d => rfl
  | _ => exact session_perform settled p _

lemma session_ownChronicle {m : Machine} (settled : Settled g m) (p : g.Conduct Allowed)
    (commands : List Command) :
    Settled g (performAll commands m) ∧ (performAll commands m).session =
      Moment.replayAll (ownChronicle p.deeds commands m) m.session := by
  induction commands generalizing m with
  | nil => exact ⟨settled, rfl⟩
  | cons c rest ih =>
      obtain ⟨hsettled, hrest⟩ := ih (exists_path_moments settled p c).1
      refine ⟨hsettled, ?_⟩
      rw [performAll_cons, hrest, session_ownMoments settled p c, ownChronicle,
        Moment.replayAll_append]

lemma of_managed_mem_moments {m : Machine} (settled : Settled g m) (p : g.Conduct Allowed)
    {c : Command} {d : Deed} (h : .managed d ∈ c.moments p.deeds m) :
    d.Tends ∨ (∃ n, d = .releaseNode n) ∨ (∃ n, d = .place n) ∨ d = .dispose := by
  obtain ⟨mid, next, step⟩ := (exists_path_moments settled p c).2.exists_step_of_mem h
  exact step.of_managed

lemma allowed_of_did_mem_moments {m : Machine} (settled : Settled g m) (p : g.Conduct Allowed)
    {c : Command} (host : ∀ d, c = .host d → Allowed d) {d : Deed}
    (h : .did d ∈ c.moments p.deeds m) : Allowed d := by
  obtain ⟨-, hpath⟩ := path_chronicle (p := p) settled [c] (H := Allowed)
    fun d hd => host d (List.mem_singleton.mp hd).symm
  rw [chronicle, chronicle, List.append_nil] at hpath
  exact (hpath.may_of_mem h).elim id id

/-- What nodes do while a runner gives commands to its machine is allowed. -/
lemma allowed_of_did_mem_ownChronicle {m : Machine} (settled : Settled g m)
    (p : g.Conduct Allowed) {commands : List Command} {d : Deed}
    (h : .did d ∈ ownChronicle p.deeds commands m) : Allowed d := by
  induction commands generalizing m with
  | nil => cases h
  | cons c rest ih =>
      rcases List.mem_append.mp h with hfirst | hrest
      · have hmachine := allowed_of_did_mem_moments (c := c) (d := d) settled p
        cases c with
        | host own => cases List.mem_singleton.mp hfirst
        | _ => exact hmachine nofun hfirst
      · exact ih (exists_path_moments settled p c).1 hrest

/-- What a runner and its machine do of their own while commands are carried out. -/
lemma of_managed_mem_ownChronicle {m : Machine} (settled : Settled g m) (p : g.Conduct Allowed)
    {commands : List Command} {d : Deed} (h : .managed d ∈ ownChronicle p.deeds commands m) :
    .host d ∈ commands ∨
      d.Tends ∨ (∃ n, d = .releaseNode n) ∨ (∃ n, d = .place n) ∨ d = .dispose := by
  induction commands generalizing m with
  | nil => cases h
  | cons c rest ih =>
      rcases List.mem_append.mp h with hfirst | hrest
      · have hmachine := of_managed_mem_moments (c := c) (d := d) settled p
        cases c with
        | host own =>
            cases List.mem_singleton.mp hfirst
            exact .inl List.mem_cons_self
        | _ => exact .inr (hmachine hfirst)
      · exact (ih (exists_path_moments settled p c).1 hrest).imp_left (List.mem_cons_of_mem c)

end Command

namespace Order

open Command

variable {g : Graph} {Allowed : Deed → Prop}

/-- The session after an order is the replay of its moments. -/
lemma session_perform {r : Runner} (settled : Settled g r.machine) (p : g.Conduct Allowed)
    (o : Order) :
    Settled g (o.perform r).machine ∧ (o.perform r).machine.session =
      Moment.replayAll (o.moments p.deeds r) r.machine.session := by
  have hown := session_ownChronicle settled p (o.commands r)
  rw [← machine_perform] at hown
  cases o with
  | machine c =>
      exact ⟨(exists_path_moments settled p c).1, Command.session_perform settled p c⟩
  | _ => exact hown

/-- What the host does itself, behind the back of the runner, is allowed. -/
def HostMay (Allowed : Deed → Prop) : Order → Prop
  | .machine (.host d) => Allowed d
  | _ => True

lemma allowed_of_did_mem_moments {r : Runner} (settled : Settled g r.machine)
    (p : g.Conduct Allowed) {o : Order} (host : o.HostMay Allowed) {d : Deed}
    (h : .did d ∈ o.moments p.deeds r) : Allowed d := by
  cases o with
  | machine c =>
      refine Command.allowed_of_did_mem_moments settled p ?_ h
      rintro own rfl
      exact host
  | _ => exact allowed_of_did_mem_ownChronicle settled p h

/-- The sessions that a runner goes through are replays of its chronicle. -/
lemma session_performAll {r : Runner} (settled : Settled g r.machine) (p : g.Conduct Allowed)
    (orders : List Order) :
    Settled g (performAll orders r).machine ∧ (performAll orders r).machine.session =
      Moment.replayAll (chronicle p.deeds orders r) r.machine.session := by
  induction orders generalizing r with
  | nil => exact ⟨settled, rfl⟩
  | cons o rest ih =>
      obtain ⟨hsettled, hfirst⟩ := session_perform settled p o
      obtain ⟨hlast, hrest⟩ := ih hsettled
      refine ⟨hlast, ?_⟩
      rw [chronicle, Moment.replayAll_append, ← hfirst]
      exact hrest

end Order

lemma Runner.settled_create (g : Graph) (h : Hub) (settings : RunnerSettings) :
    Command.Settled g (Runner.create g h settings).machine :=
  Command.settled_outset g _ settings.machine

end WorkflowGraph
