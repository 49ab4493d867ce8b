import WorkflowGraph.Proofs.Transition

/-!
# Walks

Within a tick a machine does three things, over and over: something happens to its session, a
request is honoured, or the best edge is followed.  `Walk m ts m'` says that these lead from `m`
to `m'`, and that `ts` are the records of the changes of node, in their order.

A tick is a walk (`walk_tick`) of as many changes of node as it reports.  So whatever a single
change of node does to the fields of a machine need not be looked at again for a whole tick:
`Walk.preserves` is the induction, and `Walk.history` and `Walk.reason_of_mem` are what it says
about the history.
-/

namespace WorkflowGraph

/-- The history after some more transitions. -/
def History.pushAll (h : History) (ts : List Transition) : History := ts.foldl push h

@[simp] lemma History.pushAll_nil (h : History) : h.pushAll [] = h := rfl

@[simp] lemma History.pushAll_append (h : History) (ts us : List Transition) :
    h.pushAll (ts ++ us) = (h.pushAll ts).pushAll us := List.foldl_append

@[simp] lemma History.pushAll_singleton (h : History) (t : Transition) :
    h.pushAll [t] = h.push t := rfl

namespace Machine

/-- The record of a change of node. -/
def transition (m : Machine) (target : Guid) (reason : Reason) (edge : Option Edge) :
    Transition where
  time := m.clock.now
  frame := m.frame
  source := m.current
  target := target
  reason := reason
  edge := edge.map (·.guid)
  port := edge.map (·.port)

/-- What entering a node does to the machine, its session apart. -/
lemma fields_of_enter? {m entered : Machine} {target : Guid} {reason : Reason}
    {edge : Option Edge} (h : m.enter? target reason edge = some entered) :
    m.current ≠ some target ∧ entered.current = some target ∧ entered.previous = m.current ∧
      entered.history = m.history.push (m.transition target reason edge) ∧
      entered.frame = m.frame ∧ entered.clock = m.clock ∧ entered.state = m.state := by
  unfold enter? at h
  split at h
  · cases h
  · rename_i other
    split at h
    · cases h
    · cases h
      refine ⟨other, rfl, rfl, rfl, ?_⟩
      cases m.current <;> exact ⟨rfl, rfl, rfl⟩

/-- From a machine, changes of the session, requests and edges lead to another one. -/
inductive Walk (m : Machine) : List Transition → Machine → Prop
  | nil : Walk m [] m
  | tend {ts : List Transition} {mid : Machine} (before : Walk m ts mid)
      (f : Session → Session) : Walk m ts (mid.onSession f)
  | request {ts : List Transition} {mid entered : Machine} {target : Guid}
      (before : Walk m ts mid) (enters : mid.enter? target .requested none = some entered) :
      Walk m (ts ++ [mid.transition target .requested none]) entered
  | edge {ts : List Transition} {mid entered : Machine} {e : Edge} (before : Walk m ts mid)
      (best : mid.bestEdge = some e)
      (enters : mid.enter? e.target .autoEdge (some e) = some entered) :
      Walk m (ts ++ [mid.transition e.target .autoEdge (some e)]) entered

namespace Walk

variable {a b c : Machine} {ts us : List Transition}

lemma trans (hab : Walk a ts b) (hbc : Walk b us c) : Walk a (ts ++ us) c := by
  induction hbc with
  | nil => simpa using hab
  | tend before f ih => exact ih.tend f
  | request before enters ih =>
      rw [← List.append_assoc]
      exact ih.request enters
  | edge before best enters ih =>
      rw [← List.append_assoc]
      exact ih.edge best enters

/-- What neither the session nor entering a node can break holds at the end of a walk. -/
lemma preserves {P : Machine → Prop} (walk : Walk a ts b)
    (tends : ∀ (m : Machine) f, P m → P (m.onSession f))
    (enters : ∀ {m entered : Machine} {target : Guid} {reason : Reason} {edge : Option Edge},
      m.enter? target reason edge = some entered → P m → P entered) (h : P a) : P b := by
  induction walk with
  | nil => exact h
  | tend before f ih => exact tends _ f ih
  | request before hentered ih => exact enters hentered ih
  | edge before best hentered ih => exact enters hentered ih

lemma alike (walk : Walk a ts b) : Alike a b :=
  walk.preserves (P := Alike a) (fun m f h => h.trans (onSession_alike m f))
    (fun henters h => h.trans (enter?_alike henters)) (.refl a)

/-- The history at the end of a walk. -/
lemma history (walk : Walk a ts b) : b.history = a.history.pushAll ts := by
  induction walk with
  | nil => rfl
  | tend before f ih => exact ih
  | request before enters ih =>
      obtain ⟨-, -, -, hhistory, -⟩ := fields_of_enter? enters
      rw [hhistory, ih, History.pushAll_append, History.pushAll_singleton]
  | edge before best enters ih =>
      obtain ⟨-, -, -, hhistory, -⟩ := fields_of_enter? enters
      rw [hhistory, ih, History.pushAll_append, History.pushAll_singleton]

/-- A walk stays within its frame. -/
lemma frame (walk : Walk a ts b) : b.frame = a.frame := by
  refine walk.preserves (P := fun m => m.frame = a.frame) (fun _ _ h => h) ?_ rfl
  intro m entered target reason edge henters h
  obtain ⟨-, -, -, -, hframe, -⟩ := fields_of_enter? henters
  exact hframe.trans h

/-- Nodes are entered on request or along an edge, and for no other reason. -/
lemma reason_of_mem (walk : Walk a ts b) {t : Transition} (ht : t ∈ ts) :
    t.reason = .requested ∨ t.reason = .autoEdge := by
  induction walk with
  | nil => cases ht
  | tend before f ih => exact ih ht
  | request before enters ih =>
      rcases List.mem_append.mp ht with hold | hnew
      · exact ih hold
      · rw [List.mem_singleton.mp hnew]
        exact .inl rfl
  | edge before best enters ih =>
      rcases List.mem_append.mp ht with hold | hnew
      · exact ih hold
      · rw [List.mem_singleton.mp hnew]
        exact .inr rfl

end Walk

/-! ## What a tick is made of -/

/-- The records of an attempt to enter a node: one if it succeeds. -/
def attemptRecords (m : Machine) (target : Guid) (reason : Reason) (edge : Option Edge) :
    List Transition :=
  if (m.enter? target reason edge).isSome then [m.transition target reason edge] else []

def drainRecords (m : Machine) : List Transition :=
  match m.session.context.requested with
  | some guid => m.withoutRequest.attemptRecords guid .requested none
  | none => []

def followRecords (m : Machine) : List Transition :=
  match m.bestEdge with
  | some e => m.attemptRecords e.target .autoEdge (some e)
  | none => []

/-- The records of `Machine.settle`, round by round. -/
def settleRecords : Nat → Machine → List Transition
  | 0, _ => []
  | budget + 1, m =>
    m.drainRecords ++
      match m.drain with
      | (true, m) => settleRecords budget m
      | (false, m) =>
        m.followRecords ++
          match m.follow? with
          | some m => settleRecords budget m
          | none => []

def resolveRecords (m : Machine) : List Transition :=
  match m.mode with
  | .single => m.followRecords
  | .untilStable => settleRecords m.budget m

/-- The machine in its next frame. -/
def nextFrame (m : Machine) : Machine := { m with frame := m.frame + 1 }

/-- The records of a tick of a running machine. -/
def tickRecords (m : Machine) (deltaTime : Float32) : List Transition :=
  m.nextFrame.flush.drainRecords ++ (m.advance deltaTime).2.resolveRecords

lemma walk_drain (m : Machine) :
    Walk m m.drainRecords m.drain.2 ∧ m.drainRecords.length = m.drain.1.toNat := by
  have hempty : Walk m [] m.withoutRequest := Walk.nil.tend _
  rw [drain_eq]
  cases hrequested : m.session.context.requested with
  | none =>
      simp only [drainRecords, hrequested, Option.bind_none]
      exact ⟨hempty, rfl⟩
  | some guid =>
      simp only [drainRecords, hrequested, Option.bind_some, attemptRecords]
      cases hentered : m.withoutRequest.enter? guid .requested none with
      | none => exact ⟨hempty, rfl⟩
      | some entered => exact ⟨hempty.request hentered, rfl⟩

lemma walk_follow (m : Machine) :
    Walk m m.followRecords (m.follow?.getD m) ∧
      m.followRecords.length = m.follow?.isSome.toNat := by
  cases best : m.bestEdge with
  | none =>
      have hfollow : m.follow? = none := by simp [follow?, best]
      simp only [followRecords, best, hfollow]
      exact ⟨.nil, rfl⟩
  | some e =>
      have hfollow : m.follow? = m.enter? e.target .autoEdge (some e) := by simp [follow?, best]
      simp only [followRecords, best, hfollow, attemptRecords]
      cases hentered : m.enter? e.target .autoEdge (some e) with
      | none => exact ⟨.nil, rfl⟩
      | some entered => exact ⟨Walk.nil.edge best hentered, rfl⟩

/-- Resolution is a walk, and it reports one move for each record on it. -/
lemma walk_settle (budget : Nat) (m : Machine) :
    Walk m (settleRecords budget m) (settle budget m).machine ∧
      (settleRecords budget m).length = (settle budget m).moved := by
  induction budget generalizing m with
  | zero => exact ⟨.nil, rfl⟩
  | succ budget ih =>
      obtain ⟨hdrain, hlength⟩ := walk_drain m
      unfold settle settleRecords
      rcases hm : m.drain with ⟨entered, rest⟩
      rw [hm] at hdrain hlength
      cases entered with
      | true =>
          obtain ⟨hrest, hmoved⟩ := ih rest
          refine ⟨hdrain.trans hrest, ?_⟩
          simp [Resolution.afterMove, hlength, hmoved, Nat.add_comm]
      | false =>
          obtain ⟨hmoves, hcount⟩ := walk_follow rest
          have hround := hdrain.trans hmoves
          cases hfollow : rest.follow? with
          | none =>
              rw [hfollow] at hround hcount
              exact ⟨by simpa [hfollow] using hround, by simp [hfollow, hlength, hcount]⟩
          | some moved =>
              rw [hfollow] at hround hcount
              obtain ⟨hrest, hmoved⟩ := ih moved
              constructor
              · simpa [hfollow, Resolution.afterMove] using hround.trans hrest
              · simp [hfollow, Resolution.afterMove, hlength, hcount, hmoved, Nat.add_comm]

lemma walk_resolve (m : Machine) :
    Walk m m.resolveRecords m.resolve.machine ∧ m.resolveRecords.length = m.resolve.moved := by
  unfold resolve resolveRecords
  cases m.mode with
  | single =>
      obtain ⟨hmoves, hcount⟩ := walk_follow m
      cases hfollow : m.follow? with
      | none =>
          rw [hfollow] at hmoves hcount
          exact ⟨by simpa [hfollow] using hmoves, by simpa [hfollow] using hcount⟩
      | some moved =>
          rw [hfollow] at hmoves hcount
          exact ⟨by simpa [hfollow] using hmoves, by simpa [hfollow] using hcount⟩
  | untilStable => exact walk_settle m.budget m

lemma walk_call (m : Machine) (phase : Phase) : Walk m [] (m.call phase) := by
  unfold call
  split
  · exact Walk.nil.tend _
  · exact .nil

lemma walk_advance (m : Machine) (deltaTime : Float32) :
    Walk m.nextFrame m.nextFrame.flush.drainRecords (m.advance deltaTime).2 ∧
      m.nextFrame.flush.drainRecords.length = (m.advance deltaTime).1.toNat := by
  have hflush : Walk m.nextFrame [] m.nextFrame.flush := Walk.nil.tend _
  obtain ⟨hdrain, hlength⟩ := walk_drain m.nextFrame.flush
  have htime := (hflush.trans hdrain).tend fun s => s.onContext fun c => { c with deltaTime }
  have hcall := htime.trans (walk_call _ .update)
  rw [List.nil_append, List.append_nil] at hcall
  exact ⟨hcall.tend fun s => s.flush.2, hlength⟩

/-- A tick of a running machine is a walk, of as many changes of node as it reports. -/
lemma walk_tick {m : Machine} (running : m.isRunning = true) (deltaTime : Float32) :
    Walk m.nextFrame (m.tickRecords deltaTime) (m.tick deltaTime).2 ∧
      (m.tickRecords deltaTime).length = (m.tick deltaTime).1.transitions := by
  obtain ⟨hadvance, hentered⟩ := walk_advance m deltaTime
  obtain ⟨hresolve, hmoved⟩ := walk_resolve (m.advance deltaTime).2
  simp only [tick, running, if_true]
  refine ⟨hadvance.trans hresolve, ?_⟩
  rw [tickRecords, List.length_append, hentered, hmoved, Nat.add_comm]

end Machine
end WorkflowGraph
