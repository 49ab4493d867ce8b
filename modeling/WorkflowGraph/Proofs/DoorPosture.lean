import WorkflowGraph.Proofs.Coherence
import WorkflowGraph.Proofs.DoorPlan
import WorkflowGraph.Proofs.Operations
import WorkflowGraph.Proofs.Tally

/-!
# The posture of the door

Some nodes of the door tell by themselves whether it is open (`Door.posture`), and two of them set
the blackboard accordingly when they are entered (`Door.sets`).  A machine is *honest* if the
blackboard agrees with the posture of its current node.  Each way of the door leads from an honest
machine to an honest one, since its target sets the posture or shares it with the source; and so
does whatever takes the machine to `greet` or `locked`, nodes without a posture.

Resolution ends before its budget is spent: each way leads closer to `closed`, which is left only
after a knock and forgets all knocks when it is entered (`Door.stepsAhead`).
-/

namespace WorkflowGraph.Door

/-! ## What is shown of the door -/

/-- What the blackboard holds under the key of the door. -/
def shown (s : Session) : Option Stored := s.context.blackboard[openKey]?

/-- What it holds when it tells whether the door is open. -/
def told (isOpen : Bool) : Stored := .seed (.bool isOpen)

/-- What is shown of the door stays as it is, and so does the mailbox. -/
structure Unmoved (s s' : Session) : Prop where
  shown : shown s' = shown s
  requested : s'.context.requested = s.context.requested

namespace Unmoved

lemma refl (s : Session) : Unmoved s s := ⟨rfl, rfl⟩

lemma trans {a b c : Session} (hab : Unmoved a b) (hbc : Unmoved b c) : Unmoved a c :=
  ⟨hbc.shown.trans hab.shown, hbc.requested.trans hab.requested⟩

end Unmoved

lemma getElem?_set_of_ne (b : Blackboard) {key : String} (other : key ≠ openKey)
    (value : Stored) : (b.set key value)[openKey]? = b[openKey]? := by
  simp [Blackboard.set, Std.ExtTreeMap.getElem?_insert, other]

lemma firedKey_ne (event : String) : firedKey event ≠ openKey := by
  intro h
  have hfirst := congrArg (fun key : String => key.toList.head?) h
  simp [firedKey, openKey] at hfirst

lemma waitKey_ne (guid : Guid) : waitKey guid ≠ openKey := by
  intro h
  have hfirst := congrArg (fun key : String => key.toList.head?) h
  simp [waitKey, openKey] at hfirst

/-- The deed has nothing to do with what is shown of the door, nor with the mailbox. -/
def Unrelated : Deed → Prop
  | .edit f => ∀ b : Blackboard, (f b)[openKey]? = b[openKey]?
  | .request _ | .takeRequest | .reset | .dispose => False
  | _ => True

lemma Unrelated.perform {d : Deed} (unrelated : Unrelated d) (s : Session) :
    Unmoved s (d.perform s) := by
  cases d with
  | edit f => exact ⟨unrelated s.context.blackboard, rfl⟩
  | request | takeRequest | reset | dispose => exact unrelated.elim
  | flush =>
      obtain ⟨blackboard, hflush⟩ := Deed.exists_flush_context s
      refine ⟨s.context.getElem?_foldl_countEvent fun x _ => firedKey_ne x.1, ?_⟩
      simp [Deed.perform, hflush]
  | _ => exact ⟨rfl, rfl⟩

/-! ## What the nodes show -/

/-- Whether the door is open while a node is current, where that is settled. -/
def posture : Guid → Option Bool
  | "closed" | "closing" => some false
  | "open" | "hold" => some true
  | _ => none

/-- What a node sets when it is entered. -/
def sets : Guid → Option Bool
  | "open" => some true
  | "closing" => some false
  | _ => none

/-- What nodes of the kinds that the door is made of set when they are entered. -/
inductive Sets : BuiltinNode → Option Bool → Prop
  | setBlackboard (isOpen : Bool) : Sets (.setBlackboard [⟨openKey, .bool isOpen⟩]) (some isOpen)
  | log (message : String) (severity : Severity) : Sets (.log message severity) none
  | wait (seconds : Float32) : Sets (.wait seconds) none
  | waitEvent (event : String) : Sets (.waitEvent event) none

lemma sets_of_mem {f : Fixture} (hf : f ∈ fixtures) : Sets f.kind (sets f.guid) := by
  simp only [fixtures, List.mem_cons, List.not_mem_nil, or_false] at hf
  rcases hf with rfl | rfl | rfl | rfl | rfl | rfl | rfl
  · exact .waitEvent "knock"
  · exact .log "who's there?" .info
  · exact .wait _
  · exact .setBlackboard true
  · exact .wait _
  · exact .setBlackboard false
  · exact .wait _

lemma unrelated_setRemaining (guid : Guid) (value : Stored) :
    Unrelated (.edit fun b => b.set (waitKey guid) value) :=
  fun b => getElem?_set_of_ne b (waitKey_ne guid) value

lemma unrelated_clearCount (event : String) : Unrelated (.clearCount event) :=
  fun b => getElem?_set_of_ne b (firedKey_ne event) _

lemma Sets.requested_onEnter {kind : BuiltinNode} {value : Option Bool} (h : Sets kind value)
    (s : Session) : (kind.behaviour.onEnter s).context.requested = s.context.requested := by
  cases h <;> rfl

lemma Sets.shown_onEnter {kind : BuiltinNode} {value : Option Bool} (h : Sets kind value)
    (s : Session) : shown (kind.behaviour.onEnter s) = (value.map told).or (shown s) := by
  cases h with
  | setBlackboard isOpen => exact Std.ExtTreeMap.getElem?_insert_self
  | log message severity => rfl
  | wait seconds => exact ((unrelated_setRemaining _ _).perform s).shown
  | waitEvent event => exact ((unrelated_clearCount event).perform s).shown

/-- When it has been entered, no built-in node has anything to do with the door. -/
lemma unmoved_later (phase : Phase) (later : phase ≠ .enter) (kind : BuiltinNode) (s : Session) :
    Unmoved s (kind.behaviour.onPhase phase s) := by
  cases phase with
  | enter => exact absurd rfl later
  | update =>
      cases kind with
      | wait seconds => exact (unrelated_setRemaining _ _).perform s
      | _ => exact .refl s
  | fixedUpdate | exit => exact .refl s

/-! ## Honest machines -/

/-- The blackboard agrees with the posture of a node. -/
def Agrees (s : Session) (guid : Guid) : Prop :=
  ∀ isOpen, posture guid = some isOpen → shown s = some (told isOpen)

/-- A machine that walks the door, has not been asked for a node, and whose blackboard agrees with
the posture of the current node. -/
structure Honest (m : Machine) : Prop where
  plan : m.graph = graph
  mode : m.mode = .untilStable
  budget : m.budget = 8
  unasked : m.session.context.requested = none
  truthful : ∀ guid, m.current = some guid → Agrees m.session guid

namespace Honest

open Machine

variable {m : Machine}

lemma onSession (honest : Honest m) {f : Session → Session}
    (unmoved : Unmoved m.session (f m.session)) : Honest (m.onSession f) where
  plan := honest.plan
  mode := honest.mode
  budget := honest.budget
  unasked := unmoved.requested.trans honest.unasked
  truthful guid hcurrent isOpen hposture :=
    unmoved.shown.trans (honest.truthful guid hcurrent isOpen hposture)

end Honest

/-! ## Changing node -/

section

open Machine

variable {m entered : Machine} {target : Guid} {reason : Reason} {edge : Option Edge}

lemma unmoved_departed (hgraph : m.graph = graph) : Unmoved m.session m.departed.session := by
  have hrelease : ∀ guid s, Unmoved s (Deed.perform (.releaseNode guid) s) :=
    fun guid s => Unrelated.perform (d := .releaseNode guid) trivial s
  cases hcurrent : m.current with
  | none =>
      simp only [departed, hcurrent]
      exact .refl _
  | some guid =>
      simp only [departed, hcurrent, leave, hgraph]
      cases hb : graph.behaviour? guid with
      | none => exact hrelease guid m.session
      | some b =>
          obtain ⟨f, -, -, rfl⟩ := exists_fixture hb
          have hexit := unmoved_later .exit (by decide) f.kind m.session
          exact hexit.trans (hrelease guid _)

lemma exists_onEnter (hgraph : m.graph = graph)
    (h : m.enter? target reason edge = some entered) :
    ∃ f ∈ fixtures, f.guid = target ∧
      ∃ s, Unmoved m.session s ∧ entered.session = f.kind.behaviour.onEnter s := by
  obtain ⟨-, -, -, -, next, hnext, hsession⟩ := enter?_eq_some h
  rw [hgraph] at hnext
  obtain ⟨f, hf, hguid, rfl⟩ := exists_fixture hnext
  have hplace := Unrelated.perform (d := .place (some target)) trivial m.departed.session
  exact ⟨f, hf, hguid, _, (unmoved_departed hgraph).trans hplace, hsession⟩

/-- A machine that goes to another node stays honest if that node sets its posture, or sets nothing
and the blackboard agrees with it already. -/
lemma Honest.enter? (honest : Honest m) (h : m.enter? target reason edge = some entered)
    (fits : sets target = posture target ∨ sets target = none ∧ Agrees m.session target) :
    Honest entered := by
  obtain ⟨hplan, hmode, hbudget⟩ := enter?_alike h
  obtain ⟨-, -, -, hcurrent, -⟩ := enter?_eq_some h
  obtain ⟨f, hf, rfl, s, hs, hsession⟩ := exists_onEnter honest.plan h
  have hkind := sets_of_mem hf
  refine ⟨hplan.trans honest.plan, hmode.trans honest.mode, hbudget.trans honest.budget, ?_, ?_⟩
  · rw [hsession, hkind.requested_onEnter, hs.requested]
    exact honest.unasked
  · intro guid hguid isOpen hposture
    obtain rfl : f.guid = guid := Option.some.inj (hcurrent.symm.trans hguid)
    rw [hsession, hkind.shown_onEnter, hs.shown]
    -- the first call sets the posture itself, or it leaves alone what agrees with it
    rcases fits with hown | ⟨hnone, hagrees⟩
    · rw [hown, hposture]
      rfl
    · rw [hnone]
      exact hagrees isOpen hposture

end

/-! ## Following the ways -/

/-- There has been a knock since the counter was set to zero last. -/
def heard (s : Session) : Bool := (BuiltinCondition.eventFired "knock" 1).holds s

/-- How many ways lead on from a node at the most, until a closed door that has heard nothing. -/
def ahead (heard : Bool) : Guid → Nat
  | "closed" => if heard then 6 else 0
  | "greet" => 5
  | "opening" => 4
  | "open" => 3
  | "hold" | "locked" => 2
  | "closing" => 1
  | _ => 0

/-- How many ways the machine can go at the most. -/
def stepsAhead (m : Machine) : Nat := m.current.elim 0 (ahead (heard m.session))

lemma ahead_le (heard : Bool) (guid : Guid) : ahead heard guid ≤ 6 := by
  unfold ahead
  split
  · split <;> omega
  all_goals omega

/-- The ends of the ways. -/
def ends : List (Guid × Guid) :=
  [("closed", "greet"), ("greet", "opening"), ("opening", "open"), ("open", "hold"),
    ("hold", "closing"), ("closing", "closed"), ("locked", "closing")]

lemma mem_ends {e : Edge} (he : e ∈ ways) : (e.source, e.target) ∈ ends := by
  have hends : ways.map (fun e => (e.source, e.target)) = ends := rfl
  rw [← hends]
  exact List.mem_map_of_mem he

/-- The target of a way sets its posture, or it sets nothing and shares the posture of the
source. -/
lemma sets_or_shares : ∀ p ∈ ends, sets p.2 = posture p.2 ∨
    sets p.2 = none ∧ posture p.1 = posture p.2 := by
  decide

/-- A way leads closer to the closed door; from there it leads on if there has been a knock, which
is forgotten at the latest when the door is closed again. -/
lemma ahead_lt : ∀ p ∈ ends, ∀ before after, (p.1 = "closed" → before = true) →
    (p.2 = "closed" → after = false) → ahead after p.2 < ahead before p.1 := by
  decide

section

open Machine

variable {m entered : Machine}

lemma condition_of_closed {e : Edge} (he : e ∈ ways) (hclosed : e.source = "closed") :
    e.condition = some knocked := by
  simp only [ways, List.mem_cons, List.not_mem_nil, or_false] at he
  rcases he with rfl | rfl | rfl | rfl | rfl | rfl | rfl
  · rfl
  all_goals exact absurd hclosed (by decide)

lemma heard_of_knocked {s : Session} (h : knocked.holds s = true) : heard s = true := by
  have hparts : ((BuiltinCondition.eventFired "knock" 1).holds s && _) = true := h
  exact (Bool.and_eq_true_iff.mp hparts).1

lemma heard_onEnter {f : Fixture} (hf : f ∈ fixtures) (hclosed : f.guid = "closed")
    (s : Session) : heard (f.kind.behaviour.onEnter s) = false := by
  obtain rfl : f = ⟨"closed", ⟨0, 0⟩, .waitEvent "knock"⟩ :=
    fixture_unique hf List.mem_cons_self hclosed
  have hcount := Blackboard.int_write_self s.context.blackboard (firedKey "knock") 0 0
  show decide ((1 : Int32) ≤
    (s.context.blackboard.write (firedKey "knock") (.int 0)).int (firedKey "knock") 0) = false
  rw [hcount]
  decide

/-- The way that is taken leaves the current node, and it leaves the closed door after a knock
only. -/
lemma way_of_bestEdge (hgraph : m.graph = graph) {e : Edge} (h : m.bestEdge = some e) :
    m.current = some e.source ∧ (e.source, e.target) ∈ ends ∧
      (e.source = "closed" → heard m.session = true) := by
  obtain ⟨guid, hcurrent, hmem, hpasses⟩ := passing_of_bestEdge h
  rw [hgraph] at hmem
  obtain ⟨hway, hsource⟩ := List.mem_filter.mp hmem
  obtain rfl : e.source = guid := by simpa using hsource
  refine ⟨hcurrent, mem_ends hway, ?_⟩
  intro hclosed
  rw [Edge.passes, condition_of_closed hway hclosed] at hpasses
  exact heard_of_knocked hpasses

/-- Following a way keeps the machine honest and leads it closer to the closed door. -/
lemma Honest.follow? (honest : Honest m) (h : m.follow? = some entered) :
    Honest entered ∧ stepsAhead entered < stepsAhead m := by
  obtain ⟨e, hbest, henter⟩ := Option.bind_eq_some_iff.mp h
  obtain ⟨hcurrent, hends, hheard⟩ := way_of_bestEdge honest.plan hbest
  obtain ⟨-, -, -, hentered, -⟩ := enter?_eq_some henter
  constructor
  · apply honest.enter? henter
    apply (sets_or_shares _ hends).imp_right
    rintro ⟨hnone, hshares⟩
    refine ⟨hnone, fun isOpen hposture => ?_⟩
    exact honest.truthful e.source hcurrent isOpen (hshares.trans hposture)
  · obtain ⟨f, hf, hguid, s, -, hsession⟩ := exists_onEnter honest.plan henter
    have hforgets : e.target = "closed" → heard entered.session = false := by
      intro hclosed
      rw [hsession]
      exact heard_onEnter hf (hguid.trans hclosed) s
    simp only [stepsAhead, hcurrent, hentered, Option.elim_some]
    exact ahead_lt _ hends _ _ hheard hforgets

end

/-! ## The operations of the machine -/

namespace Honest

open Machine

variable {m : Machine}

lemma stepsAhead_lt_budget (honest : Honest m) : stepsAhead m < m.budget := by
  rw [honest.budget, stepsAhead]
  cases m.current with
  | none => exact Nat.zero_lt_succ 7
  | some guid =>
      have hbound := ahead_le (heard m.session) guid
      rw [Option.elim_some]
      omega

lemma drain_eq (honest : Honest m) : m.drain = (false, m) := by
  simp [drain, honest.unasked]

/-- A budget larger than the number of steps ahead is never spent: resolution ends uncapped. -/
lemma settle (honest : Honest m) {budget : Nat} (enough : stepsAhead m < budget) :
    Honest (Machine.settle budget m).machine ∧ (Machine.settle budget m).capped = false := by
  induction budget generalizing m with
  | zero => omega
  | succ budget ih =>
      rw [Machine.settle, honest.drain_eq]
      cases hfollow : m.follow? with
      | none => simpa [hfollow] using honest
      | some moved =>
          obtain ⟨hmoved, hcloser⟩ := honest.follow? hfollow
          -- A move brings the door one step closer, so the budget stays ahead of what is left.
          simp only [hfollow]
          exact ih hmoved (by omega)

lemma resolve (honest : Honest m) : Honest m.resolve.machine ∧ m.resolve.capped = false := by
  rw [Machine.resolve, honest.mode]
  exact honest.settle honest.stepsAhead_lt_budget

lemma flush (honest : Honest m) : Honest m.flush :=
  honest.onSession (Unrelated.perform (d := .flush) trivial m.session)

lemma call (honest : Honest m) (phase : Phase) (later : phase ≠ .enter) :
    Honest (m.call phase) := by
  unfold Machine.call
  rw [honest.plan]
  cases hb : m.current.bind graph.behaviour? with
  | none => exact honest
  | some b =>
      obtain ⟨guid, -, hguid⟩ := Option.bind_eq_some_iff.mp hb
      obtain ⟨f, -, -, rfl⟩ := exists_fixture hguid
      exact honest.onSession (unmoved_later phase later f.kind m.session)

lemma advance (honest : Honest m) (deltaTime : Float32) : Honest (m.advance deltaTime).2 := by
  have hframe : Honest { m with frame := m.frame + 1 } :=
    ⟨honest.plan, honest.mode, honest.budget, honest.unasked, honest.truthful⟩
  have htime := hframe.flush.onSession
    (Unrelated.perform (d := .elapse deltaTime) trivial _)
  have hcall := (htime.call .update (by decide)).flush
  rw [Machine.advance, hframe.flush.drain_eq]
  exact hcall

lemma tick (honest : Honest m) (deltaTime : Float32) :
    Honest (m.tick deltaTime).2 ∧ (m.tick deltaTime).1.capped = false := by
  rw [Machine.tick]
  split
  · exact (honest.advance deltaTime).resolve
  · exact ⟨honest, rfl⟩

lemma tickFixed (honest : Honest m) (fixedDeltaTime : Float32) :
    Honest (m.tickFixed fixedDeltaTime) := by
  rw [Machine.tickFixed]
  split
  · have htime := honest.onSession
      (Unrelated.perform (d := .elapseFixed fixedDeltaTime) trivial m.session)
    exact htime.call .fixedUpdate (by decide)
  · exact honest

lemma force (honest : Honest m) {guid : Guid} (noPosture : posture guid = none)
    (setsNone : sets guid = none) (reason : Reason) : Honest (m.force guid reason).2 := by
  rw [Machine.force]
  split
  · cases hentered : m.enter? guid reason none with
    | none => exact honest
    | some entered => exact honest.enter? hentered (.inl (setsNone.trans noPosture.symm))
  · exact honest

lemma stop (honest : Honest m) : Honest m.stop := by
  unfold Machine.stop
  split
  · cases hcurrent : m.current with
    | none => exact ⟨honest.plan, honest.mode, honest.budget, rfl, by simp [hcurrent]⟩
    | some guid => exact ⟨honest.plan, honest.mode, honest.budget, rfl, by rintro _ ⟨⟩⟩
  · exact honest

/-- A machine that rests starts and is honest then, if the door is shown to be closed. -/
lemma exists_start (honest : Honest m) (resting : m.isRunning = false)
    (closed : shown m.session = some (told false)) :
    ∃ started, m.start = .ok started ∧ Honest started := by
  have hopened : Honest m.opened :=
    ⟨honest.plan, honest.mode, honest.budget, honest.unasked, honest.truthful⟩
  have hvalid : m.graph.defects = [] := by
    rw [honest.plan]
    exact defects_graph
  have hentry : m.graph.resolvedEntry = some "closed" := by
    rw [honest.plan]
    exact resolvedEntry_graph
  refine ⟨_, start_of_valid resting hvalid hentry, ?_⟩
  cases hentered : m.opened.enter? "closed" .start none with
  | none => exact hopened
  | some entered =>
      refine hopened.enter? hentered (.inr ⟨rfl, fun isOpen hposture => ?_⟩)
      cases hposture
      exact closed

end Honest

end WorkflowGraph.Door
