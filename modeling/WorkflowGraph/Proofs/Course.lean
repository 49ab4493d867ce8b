import WorkflowGraph.Proofs.Chronicle
import WorkflowGraph.Proofs.Conduct

/-!
# The course of a run

A run goes through *places*: nothing is active, a node is active, it is being left, it has been
left, the next one is about to be entered.  `Course.Step` says which moment can come at which
place, what the nodes and the host still have to do there, and which place comes next.  This is
all that the life of a machine allows, and it says nothing about how an operation chooses what
to do.

`Course.Path.session_eq` and `Course.Path.split` are what makes paths useful.  The session after any
part of a run is the replay of that part, and every moment of a run has a place.  So a property of
all runs needs to be looked at for one step only (`Course.Path.invariant`).
-/

namespace WorkflowGraph

/-- The deeds by which a machine tends its session while a node is active. -/
def Deed.Tends : Deed → Prop
  | .flush | .takeRequest | .elapse _ | .elapseFixed _ => True
  | _ => False

lemma Deed.Tends.keepsPlace {d : Deed} (tends : d.Tends) : d.KeepsPlace := by
  cases d with
  | place | dispose => exact tends.elim
  | _ => trivial

namespace Course

/-- How far a run is. -/
inductive Place where
  /-- Nothing runs. -/
  | stopped
  /-- The node has been called for the first time and not for the last time. -/
  | active (node : Guid)
  /-- The node has been called for the last time. -/
  | leaving (node : Guid)
  /-- The registrations of the node have ended. -/
  | left (node : Guid)
  /-- The node is current, but has not been called yet. -/
  | arriving (node : Guid)
deriving DecidableEq, Repr

namespace Place

/-- Whether the machine is between two operations, or may be: the host can act. -/
def Rests : Place → Prop
  | .stopped | .active _ => True
  | _ => False

/-- The node that the place is about. -/
def node : Place → Option Guid
  | .stopped => none
  | .active n | .leaving n | .left n | .arriving n => some n

end Place

/-- A place, the deeds that the node called last still has to do, and the session. -/
structure Config where
  place : Place
  pending : List Deed
  session : Session

variable {g : Graph} {Allowed : Deed → Prop}

/-- The moments of a run, and where they are possible.  The nodes act as `p` says, and what the host
does itself is bounded by `H`. -/
inductive Step (p : g.Conduct Allowed) (H : Deed → Prop) : Config → Moment → Config → Prop
  /-- The node that is being called does its next deed. -/
  | act {place : Place} {d : Deed} {rest : List Deed} {s : Session} (allowed : Allowed d) :
      Step p H ⟨place, d :: rest, s⟩ (.did d) ⟨place, rest, d.perform s⟩
  /-- The host does something between two operations. -/
  | host {place : Place} {d : Deed} {s : Session} (allowed : H d) (rests : place.Rests) :
      Step p H ⟨place, [], s⟩ (.did d) ⟨place, [], d.perform s⟩
  /-- The machine looks after its session. -/
  | tend {n : Guid} {d : Deed} {s : Session} (tends : d.Tends) :
      Step p H ⟨.active n, [], s⟩ (.managed d) ⟨.active n, [], d.perform s⟩
  /-- The edges of the active node are looked at. -/
  | compare {n : Guid} {s : Session} :
      Step p H ⟨.active n, [], s⟩ .compared ⟨.active n, [], s⟩
  /-- The active node is called and stays active. -/
  | update {n : Guid} {phase : Phase} {s : Session}
      (stays : phase = .update ∨ phase = .fixedUpdate) :
      Step p H ⟨.active n, [], s⟩ (.called phase n) ⟨.active n, p.deeds n phase s, s⟩
  /-- The active node is called for the last time. -/
  | exit {n : Guid} {s : Session} :
      Step p H ⟨.active n, [], s⟩ (.called .exit n) ⟨.leaving n, p.deeds n .exit s, s⟩
  /-- The registrations of the node end. -/
  | release {n : Guid} {s : Session} :
      Step p H ⟨.leaving n, [], s⟩ (.managed (.releaseNode n))
        ⟨.left n, [], (Deed.releaseNode n).perform s⟩
  /-- Another node becomes current. -/
  | move {n target : Guid} {s : Session} (other : n ≠ target) :
      Step p H ⟨.left n, [], s⟩ (.managed (.place (some target)))
        ⟨.arriving target, [], (Deed.place (some target)).perform s⟩
  /-- A run starts: the entry node becomes current. -/
  | start {entry : Guid} {s : Session} (valid : g.defects = [])
      (hentry : g.resolvedEntry = some entry) :
      Step p H ⟨.stopped, [], s⟩ (.managed (.place (some entry)))
        ⟨.arriving entry, [], (Deed.place (some entry)).perform s⟩
  /-- The node that has become current is called for the first time. -/
  | enter {n : Guid} {s : Session} :
      Step p H ⟨.arriving n, [], s⟩ (.called .enter n) ⟨.active n, p.deeds n .enter s, s⟩
  /-- The run ends: the context is disposed of. -/
  | stop {n : Guid} {s : Session} :
      Step p H ⟨.left n, [], s⟩ (.managed .dispose) ⟨.stopped, [], Deed.dispose.perform s⟩

/-- Moments that follow each other. -/
inductive Path (p : g.Conduct Allowed) (H : Deed → Prop) (c : Config) :
    List Moment → Config → Prop
  | nil : Path p H c [] c
  | snoc {moments : List Moment} {mid last : Config} {m : Moment} (before : Path p H c moments mid)
      (step : Step p H mid m last) : Path p H c (moments ++ [m]) last

variable {p : g.Conduct Allowed} {H : Deed → Prop}

/-! ## Steps and paths -/

lemma Step.session_eq {c c' : Config} {m : Moment} (step : Step p H c m c') :
    c'.session = m.replay c.session := by
  cases step <;> rfl

lemma Step.node_of_called {c c' : Config} {phase : Phase} {n : Guid}
    (step : Step p H c (.called phase n) c') : c'.place.node = some n := by
  cases step <;> rfl

lemma Step.of_managed {c c' : Config} {d : Deed} (step : Step p H c (.managed d) c') :
    d.Tends ∨ (∃ n, d = .releaseNode n) ∨ (∃ n, d = .place n) ∨ d = .dispose := by
  cases step with
  | tend tends => exact .inl tends
  | release => exact .inr (.inl ⟨_, rfl⟩)
  | move => exact .inr (.inr (.inl ⟨_, rfl⟩))
  | start => exact .inr (.inr (.inl ⟨_, rfl⟩))
  | stop => exact .inr (.inr (.inr rfl))

lemma Step.allowed_of_did {c c' : Config} {d : Deed} (step : Step p H c (.did d) c') :
    Allowed d ∨ H d := by
  cases step with
  | act allowed => exact .inl allowed
  | host allowed => exact .inr allowed

lemma Step.place_of_did {c c' : Config} {d : Deed} (step : Step p H c (.did d) c') :
    c'.place = c.place := by
  cases step <;> rfl

namespace Path

lemma single {c c' : Config} {m : Moment} (step : Step p H c m c') : Path p H c [m] c' :=
  .snoc .nil step

lemma trans {a b c : Config} {ms ns : List Moment} (hab : Path p H a ms b) (hbc : Path p H b ns c) :
    Path p H a (ms ++ ns) c := by
  induction hbc with
  | nil => simpa using hab
  | snoc before step ih => simpa [List.append_assoc] using ih.snoc step

lemma cons {a b c : Config} {m : Moment} {ns : List Moment} (step : Step p H a m b)
    (hbc : Path p H b ns c) : Path p H a (m :: ns) c := (single step).trans hbc

lemma session_eq {c c' : Config} {ms : List Moment} (path : Path p H c ms c') :
    c'.session = Moment.replayAll ms c.session := by
  induction path with
  | nil => rfl
  | snoc before step ih => simp [step.session_eq, ih]

/-- Each part of a path is a path. -/
lemma split {c c' : Config} {before after : List Moment}
    (path : Path p H c (before ++ after) c') :
    ∃ mid, Path p H c before mid ∧ Path p H mid after c' := by
  generalize hms : before ++ after = ms at path
  induction path generalizing after with
  | nil =>
      obtain ⟨rfl, rfl⟩ := List.append_eq_nil_iff.mp hms
      exact ⟨c, .nil, .nil⟩
  | @snoc moments mid last m hbefore step ih =>
      rcases List.eq_nil_or_concat after with rfl | ⟨init, m', rfl⟩
      · rw [List.append_nil] at hms
        exact ⟨last, hms ▸ hbefore.snoc step, .nil⟩
      · rw [List.concat_eq_append, ← List.append_assoc] at hms
        obtain ⟨hinit, hm⟩ := List.append_inj' hms rfl
        obtain ⟨between, hfirst, hrest⟩ := ih hinit
        obtain rfl : m' = m := by simpa using hm
        exact ⟨between, hfirst, by simpa using hrest.snoc step⟩

/-- The last step of a path. -/
lemma of_snoc {c c' : Config} {before : List Moment} {m : Moment}
    (path : Path p H c (before ++ [m]) c') :
    ∃ mid, Path p H c before mid ∧ Step p H mid m c' := by
  generalize hms : before ++ [m] = ms at path
  cases path with
  | nil => simp at hms
  | @snoc moments mid _ m' hbefore step =>
      obtain ⟨rfl, hm⟩ := List.append_inj' hms rfl
      obtain rfl : m = m' := by simpa using hm
      exact ⟨mid, hbefore, step⟩

lemma split_cons {c c' : Config} {before after : List Moment} {m : Moment}
    (path : Path p H c (before ++ m :: after) c') :
    ∃ mid next, Path p H c before mid ∧ Step p H mid m next ∧ Path p H next after c' := by
  rw [List.append_cons] at path
  obtain ⟨next, hfirst, hafter⟩ := path.split
  obtain ⟨mid, hbefore, step⟩ := hfirst.of_snoc
  exact ⟨mid, next, hbefore, step, hafter⟩

lemma uncons {c c' : Config} {m : Moment} {rest : List Moment} (path : Path p H c (m :: rest) c') :
    ∃ next, Step p H c m next ∧ Path p H next rest c' := by
  have hpath : Path p H c ([] ++ m :: rest) c' := path
  obtain ⟨mid, next, hnil, step, hrest⟩ := hpath.split_cons
  generalize hms : ([] : List Moment) = ms at hnil
  cases hnil with
  | nil => exact ⟨next, step, hrest⟩
  | snoc => simp at hms

lemma exists_step_of_mem {c c' : Config} {moments : List Moment} (path : Path p H c moments c')
    {m : Moment} (hm : m ∈ moments) : ∃ mid next, Step p H mid m next := by
  obtain ⟨before, after, rfl⟩ := List.append_of_mem hm
  obtain ⟨mid, next, -, step, -⟩ := path.split_cons
  exact ⟨mid, next, step⟩

lemma may_of_mem {c c' : Config} {moments : List Moment} (path : Path p H c moments c') {d : Deed}
    (hd : .did d ∈ moments) : Allowed d ∨ H d := by
  obtain ⟨mid, next, step⟩ := path.exists_step_of_mem hd
  exact step.allowed_of_did

/-- A node that owes deeds does them before anything else happens. -/
lemma uncons_of_pending {place : Place} {d : Deed} {deeds : List Deed} {s : Session}
    {c' : Config} {moments : List Moment} (path : Path p H ⟨place, d :: deeds, s⟩ moments c')
    (paid : c'.pending = []) :
    ∃ rest, moments = .did d :: rest ∧ Path p H ⟨place, deeds, d.perform s⟩ rest c' := by
  cases moments with
  | nil =>
      generalize hms : ([] : List Moment) = ms at path
      cases path with
      | nil => cases paid
      | snoc => simp at hms
  | cons m rest =>
      obtain ⟨next, step, hrest⟩ := path.uncons
      cases step with
      | act => exact ⟨rest, rfl, hrest⟩

/-- As long as no node is entered, a run that is at an active node has been there all the time,
and the machine has only looked after its session. -/
lemma stays {c c' : Config} {moments : List Moment} {n : Guid} (path : Path p H c moments c')
    (active : c'.place = .active n) (latest : ∀ k, .called .enter k ∉ moments) :
    c.place = .active n ∧ ∀ d, .managed d ∈ moments → d.Tends := by
  induction path with
  | nil => exact ⟨active, by simp⟩
  | @snoc moments mid last m before step ih =>
      have hbefore : ∀ k, .called .enter k ∉ moments :=
        fun k hk => latest k (List.mem_append_left _ hk)
      have hlast : mid.place = .active n ∧ ∀ d, m = .managed d → d.Tends := by
        cases step with
        | tend tends =>
            refine ⟨active, ?_⟩
            rintro d ⟨⟩
            exact tends
        | act | host | compare | update => exact ⟨active, nofun⟩
        | enter => exact absurd (List.mem_append_right _ List.mem_cons_self) (latest _)
        | exit | release | move | start | stop => cases active
      obtain ⟨hplace, htends⟩ := ih hlast.1 hbefore
      refine ⟨hplace, fun d hd => ?_⟩
      rcases List.mem_append.mp hd with hd | hd
      · exact htends d hd
      · exact hlast.2 d (List.mem_singleton.mp hd).symm

/-- Deeds of nodes and of the host leave the place as it is. -/
lemma place_of_dids {c c' : Config} {deeds : List Deed} (path : Path p H c (deeds.map .did) c') :
    c'.place = c.place := by
  generalize hms : deeds.map Moment.did = ms at path
  induction path generalizing deeds with
  | nil => rfl
  | @snoc moments mid last m before step ih =>
      rcases List.eq_nil_or_concat deeds with rfl | ⟨init, d, rfl⟩
      · simp at hms
      · rw [List.concat_eq_append, List.map_append] at hms
        obtain ⟨hinit, hd⟩ := List.append_inj' hms rfl
        obtain rfl : Moment.did d = m := by simpa using hd
        exact step.place_of_did.trans (ih hinit)

/-- What holds at the beginning and is preserved by every step holds all along a path. -/
lemma invariant {c c' : Config} {ms : List Moment} (Inv : List Moment → Config → Prop)
    (init : Inv [] c)
    (preserved : ∀ {ms c m c'}, Inv ms c → Step p H c m c' → Inv (ms ++ [m]) c')
    (path : Path p H c ms c') : Inv ms c' := by
  induction path with
  | nil => exact init
  | snoc before step ih => exact preserved ih step

lemma act_all {place : Place} {deeds : List Deed} {s : Session}
    (allowed : ∀ d ∈ deeds, Allowed d) :
    Path p H ⟨place, deeds, s⟩ (deeds.map .did) ⟨place, [], Deed.performAll deeds s⟩ := by
  induction deeds generalizing s with
  | nil => exact .nil
  | cons d rest ih =>
      have hrest := ih (s := d.perform s) fun k hk => allowed k (List.mem_cons_of_mem d hk)
      exact .cons (.act (allowed d List.mem_cons_self)) hrest

end Path

/-! ## The current node is the node of the place -/

/-- The context calls that node current which the place is about. -/
def Config.Aware (c : Config) : Prop :=
  ∀ n, c.place.node = some n → c.session.context.currentNode = some n

lemma Step.aware {c c' : Config} {m : Moment} (step : Step p H c m c')
    (keeps : ∀ d, m = .did d → d.KeepsPlace) (aware : c.Aware) : c'.Aware := by
  have hkeeps : ∀ {place : Place} {d : Deed} {pending pending' : List Deed} {s : Session},
      d.KeepsPlace → Config.Aware ⟨place, pending, s⟩ →
        Config.Aware ⟨place, pending', d.perform s⟩ :=
    fun keeps aware n hn => (keeps.currentNode_perform _).trans (aware n hn)
  cases step with
  | act => exact hkeeps (keeps _ rfl) aware
  | host => exact hkeeps (keeps _ rfl) aware
  | tend tends => exact hkeeps tends.keepsPlace aware
  | compare | update | exit | enter => exact aware
  | release =>
      intro n hn
      exact aware n hn
  | move | start =>
      intro n hn
      exact hn
  | stop => exact nofun

/-- As long as nobody moves the place, the current node is right. -/
lemma Path.aware {c c' : Config} {ms : List Moment} (path : Path p H c ms c')
    (stopped : c.place = .stopped) (keeps : ∀ d, .did d ∈ ms → d.KeepsPlace) : c'.Aware := by
  induction path with
  | nil =>
      intro n hn
      rw [stopped] at hn
      cases hn
  | snoc before step ih =>
      refine step.aware ?_ (ih fun d hd => keeps d (List.mem_append_left _ hd))
      rintro d rfl
      exact keeps d (List.mem_append_right _ List.mem_cons_self)

/-- All the time in which a node is called and acts, it is the current one. -/
lemma Path.currentNode_of_called {c c' : Config} {before after : List Moment} {phase : Phase}
    {node : Guid} {deeds : List Deed}
    (path : Path p H c (before ++ .called phase node :: (deeds.map .did ++ after)) c')
    (stopped : c.place = .stopped)
    (keeps : ∀ d, .did d ∈ before ++ .called phase node :: deeds.map .did → d.KeepsPlace) :
    (Moment.replayAll (before ++ .called phase node :: deeds.map .did)
      c.session).context.currentNode = some node := by
  obtain ⟨mid, next, hbefore, hcall, hrest⟩ := path.split_cons
  obtain ⟨last, hdeeds, -⟩ := hrest.split
  have hwhole : Path p H c (before ++ .called phase node :: deeds.map .did) last :=
    hbefore.trans (hdeeds.cons hcall)
  have hnode : last.place.node = some node := by
    rw [hdeeds.place_of_dids]
    exact hcall.node_of_called
  rw [← hwhole.session_eq]
  exact hwhole.aware stopped keeps node hnode

end Course

end WorkflowGraph
