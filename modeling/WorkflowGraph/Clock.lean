/-!
# The clock

The clock that stamps transitions counts milliseconds from its start and moves only when its
host moves it.
-/

namespace WorkflowGraph

/-- A clock, by the milliseconds since its start. -/
structure Clock where
  now : Nat := 0
deriving DecidableEq, Repr

namespace Clock

/-- The clock after some time has passed. -/
def advance (c : Clock) (ms : Nat) : Clock := ⟨c.now + ms⟩

/-- The clock set to a time. -/
def set (_ : Clock) (ms : Nat) : Clock := ⟨ms⟩

/-- The time since an earlier moment; nothing has passed since a later one. -/
def since (c : Clock) (earlier : Nat) : Nat := c.now - earlier

end Clock

end WorkflowGraph
