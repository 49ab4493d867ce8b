import Mathlib.Tactic.Lemma
import WorkflowGraph.Context

/-!
# Deeds

A callback may do anything that the context offers, and so may a host between two operations of
the machine.  Each single thing of that kind is a *deed*: one call of a method of the context, of
a token, or of the bus behind it.  Edits of the blackboard are not told apart, since nothing but
the blackboard depends on them.

A machine acts on its session by deeds as well: it flushes, empties the mailbox, sets the current
node, ends the registrations of a node that is left.  So a session changes by deeds only, whoever
does them.
-/

namespace WorkflowGraph

/-- One thing that a node or a host does to a session. -/
inductive Deed where
  /-- Changes the blackboard. -/
  | edit (f : Blackboard → Blackboard)
  | seed (entries : List Entry)
  | request (guid : Guid)
  | takeRequest
  | attach (owner : Option Owner)
  | elapse (deltaTime : Float32)
  | elapseFixed (fixedDeltaTime : Float32)
  | place (node : Option Guid)
  /-- Registers a handler for the rest of the run. -/
  | subscribe (event : String) (handler : Handler)
  /-- Registers a handler for as long as the current node is active. -/
  | subscribeForNode (event : String) (handler : Handler)
  /-- Counts an event for as long as the current node is active. -/
  | watch (event : String)
  /-- Registers a handler on the bus, without the context knowing. -/
  | connect (event : String) (handler : Handler)
  /-- Ends one registration. -/
  | disposeToken (token : Token)
  /-- Ends the registrations that belong to a node. -/
  | releaseNode (guid : Guid)
  /-- Ends all registrations of the context. -/
  | release
  | publish (event : String)
  /-- Moves the counts of watched events to the blackboard. -/
  | flush
  | reset
  /-- Tears the context down. -/
  | dispose
  | note (notice : Notice)
  | clearQueue (runner : Nat)

namespace Deed

def perform : Deed → Session → Session
  | .edit f, s => s.onContext fun c => { c with blackboard := f c.blackboard }
  | .seed entries, s => s.onContext fun c => { c with initial := entries }
  | .request guid, s => s.onContext fun c => c.request guid
  | .takeRequest, s => s.onContext Context.forgetRequest
  | .attach owner, s => s.onContext fun c => { c with owner }
  | .elapse deltaTime, s => s.onContext fun c => { c with deltaTime }
  | .elapseFixed fixedDeltaTime, s => s.onContext fun c => { c with fixedDeltaTime }
  | .place currentNode, s => s.onContext fun c => { c with currentNode }
  | .subscribe event handler, s => (s.subscribe event handler).2
  | .subscribeForNode event handler, s => (s.subscribeForNode event handler).2
  | .watch event, s => (s.watch event).2
  | .connect event handler, s => s.onHub fun h => (h.subscribe event handler).2
  | .disposeToken token, s => s.onHub fun h => h.dispose token
  | .releaseNode guid, s => (s.releaseNode guid).2
  | .release, s => s.release
  | .publish event, s => s.publish event
  | .flush, s => s.flush.2
  | .reset, s => s.reset
  | .dispose, s => s.dispose
  | .note notice, s => s.note notice
  | .clearQueue runner, s => s.onHub fun h => h.clearQueue runner

def performAll (deeds : List Deed) (s : Session) : Session :=
  deeds.foldl (fun s d => d.perform s) s

@[simp] lemma performAll_nil (s : Session) : performAll [] s = s := rfl

@[simp] lemma performAll_cons (d : Deed) (deeds : List Deed) (s : Session) :
    performAll (d :: deeds) s = performAll deeds (d.perform s) := rfl

/-- The deed does not set the current node. -/
def NeverPlaces : Deed → Prop
  | .place _ => False
  | _ => True

/-- The deed leaves the current node as it is: it neither sets it nor tears the context down. -/
def KeepsPlace : Deed → Prop
  | .place _ | .dispose => False
  | _ => True

lemma KeepsPlace.neverPlaces {d : Deed} (keeps : d.KeepsPlace) : d.NeverPlaces := by
  cases d with
  | place node => exact keeps.elim
  | _ => trivial

/-- The deed sets the count of an event to zero. -/
def clearCount (event : String) : Deed := .edit fun b => b.write (firedKey event) (.int 0)

/-! ## What deeds leave alone -/

lemma exists_foldl_countEvent (fired : List (String × Nat)) (c : Context) :
    ∃ blackboard, fired.foldl (fun c (event, times) => c.countEvent event times) c =
      { c with blackboard } := by
  induction fired generalizing c with
  | nil => exact ⟨c.blackboard, rfl⟩
  | cons head rest ih => exact ih (c.countEvent head.1 head.2)

lemma exists_flush_context (s : Session) :
    ∃ blackboard, s.flush.2.context = { s.context with blackboard } :=
  exists_foldl_countEvent s.inbox.toList s.context

@[simp] lemma address_perform (d : Deed) (s : Session) :
    (d.perform s).context.address = s.context.address := by
  cases d with
  | flush =>
      obtain ⟨blackboard, hflush⟩ := exists_flush_context s
      simp [perform, hflush]
  | _ => rfl

lemma KeepsPlace.currentNode_perform {d : Deed} (keeps : d.KeepsPlace) (s : Session) :
    (d.perform s).context.currentNode = s.context.currentNode := by
  cases d with
  | place node => exact keeps.elim
  | dispose => exact keeps.elim
  | flush =>
      obtain ⟨blackboard, hflush⟩ := exists_flush_context s
      simp [perform, hflush]
  | _ => rfl

end Deed
end WorkflowGraph
