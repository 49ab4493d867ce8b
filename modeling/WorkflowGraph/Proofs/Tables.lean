import Mathlib.Algebra.BigOperators.Group.List.Lemmas
import Mathlib.Tactic.Lemma
import WorkflowGraph.Bus
import WorkflowGraph.Bus.Switchboard

/-!
# The list behind the tables of a bus

A `Switchboard` keeps handlers by their events, and takes them off by their numbers, through cells
that the clones of a token share.  `Switchboard.Refines` says that it stands for a `Bus`, which is
one list of registrations: the list of each event is that part of the registrations, no list is
empty, and the cell of a token can still be used exactly while its registration is there.

Subscribing and disposing keep it so (`Refines.subscribe`, `Refines.dispose`), and what can be asked
of the tables has the same answer on the list (`Refines.snapshot_eq`, `Refines.count_eq`,
`Refines.total_eq`, `Refines.isDisposed_eq`).
-/

namespace WorkflowGraph

variable {H : Type}

namespace Bus

/-- What is registered for an event, with the numbers of the registrations. -/
def numbered (b : Bus H) (event : String) : List (Nat × H) :=
  (b.registrations.filter fun r => r.token.event == event).map fun r => (r.token.id, r.handler)

lemma isLive_subscribe (b : Bus H) (event : String) (handler : H) (token : Token) :
    (b.subscribe event handler).2.isLive token =
      (b.isLive token || decide (token = ⟨b.nextId, event⟩)) := by
  simp [isLive, subscribe, Bool.beq_eq_decide_eq, eq_comm]

lemma isLive_dispose (b : Bus H) (token other : Token) :
    (b.dispose token).isLive other = (b.isLive other && decide (other ≠ token)) := by
  rw [Bool.eq_iff_iff, Bool.and_eq_true, decide_eq_true_iff, isLive_iff, isLive_iff]
  constructor
  · rintro ⟨r, hr, rfl⟩
    obtain ⟨hmem, hne⟩ := List.mem_filter.mp hr
    exact ⟨⟨r, hmem, rfl⟩, bne_iff_ne.mp hne⟩
  · rintro ⟨⟨r, hr, rfl⟩, hne⟩
    exact ⟨r, List.mem_filter.mpr ⟨hr, bne_iff_ne.mpr hne⟩, rfl⟩

lemma dispose_of_not_live {b : Bus H} {token : Token} (dead : b.isLive token = false) :
    b.dispose token = b := by
  have hkept : (b.registrations.filter fun r => r.token != token) = b.registrations := by
    refine List.filter_eq_self.mpr fun r hr => bne_iff_ne.mpr ?_
    rintro rfl
    rw [(isLive_iff b r.token).mpr ⟨r, hr, rfl⟩] at dead
    cases dead
  rw [dispose, hkept]

lemma numbered_subscribe (b : Bus H) (event : String) (handler : H) (other : String) :
    (b.subscribe event handler).2.numbered other =
      b.numbered other ++ if event = other then [(b.nextId, handler)] else [] := by
  show ((b.registrations ++ [_]).filter _).map _ = _
  rw [List.filter_append, List.map_append]
  by_cases h : event = other <;> simp [h, numbered]

/-- Only the list of its own event is changed when a token is disposed of. -/
lemma numbered_dispose (b : Bus H) (id : Nat) (event other : String) :
    (b.dispose ⟨id, event⟩).numbered other =
      if event = other then (b.numbered other).filter fun (own, _) => own != id
      else b.numbered other := by
  rw [numbered, dispose, List.filter_filter]
  split
  · next h =>
    subst h
    rw [numbered, List.filter_map, List.filter_filter]
    congr 1
    refine List.filter_congr fun r _ => ?_
    obtain ⟨⟨own, _⟩, _⟩ := r
    rw [Bool.eq_iff_iff]
    simp only [Bool.and_eq_true, beq_iff_eq, bne_iff_ne, Function.comp_apply, ne_eq,
      Token.mk.injEq]
    -- With the event fixed, tokens differ if and only if their ids do.
    tauto
  · next h =>
    rw [numbered]
    congr 1
    refine List.filter_congr fun r _ => ?_
    rw [Bool.eq_iff_iff]
    simp only [Bool.and_eq_true, beq_iff_eq, bne_iff_ne, ne_eq]
    refine ⟨fun ⟨hevent, _⟩ => hevent, fun hevent => ⟨hevent, ?_⟩⟩
    intro heq
    exact h (by rw [← hevent, heq])

end Bus

namespace Switchboard

/-! ## Taking handlers off -/

section Remove

variable (t : Switchboard H) (event : String) (id : Nat)

lemma cells_remove : (t.remove event id).cells = t.cells := by
  unfold remove
  split
  · dsimp only
    split <;> rfl
  · rfl

lemma nextId_remove : (t.remove event id).nextId = t.nextId := by
  unfold remove
  split
  · dsimp only
    split <;> rfl
  · rfl

/-- A list that has become empty is dropped, so that it reads like one that never was. -/
lemma handlers_remove (other : String) : (t.remove event id).handlers.getD other [] =
    if event = other then (t.handlers.getD other []).filter fun (own, _) => own != id
    else t.handlers.getD other [] := by
  simp only [Std.ExtTreeMap.getD_eq_getD_getElem?]
  unfold remove
  cases hfound : t.handlers[event]? with
  | none =>
    by_cases h : event = other
    · subst h
      simp [hfound]
    · simp [h]
  | some list =>
    by_cases h : event = other
    · subst h
      dsimp only
      -- An empty list is dropped from the table, which reads as the empty list all the same.
      split
      · next hempty =>
        simp [hfound, List.isEmpty_iff.mp hempty]
      · simp [hfound]
    · dsimp only
      split
      · simp [Std.ExtTreeMap.getElem?_erase, h]
      · simp [Std.ExtTreeMap.getElem?_insert, h]

lemma kept_remove (kept : ∀ event : String, t.handlers[event]? ≠ some []) (other : String) :
    (t.remove event id).handlers[other]? ≠ some [] := by
  unfold remove
  split
  · dsimp only
    split
    · rw [Std.ExtTreeMap.getElem?_erase]
      split
      · nofun
      · exact kept other
    -- What is put back is what was found not to be empty.
    · next hnonempty =>
      rw [Std.ExtTreeMap.getElem?_insert]
      split
      · intro hnil
        rw [Option.some.inj hnil] at hnonempty
        exact hnonempty rfl
      · exact kept other
  · exact kept other

end Remove

lemma dispose_of_absent {t : Switchboard H} {address : Nat} (absent : t.cells[address]? = none) :
    t.dispose address = t := by
  rw [dispose, absent]

lemma dispose_of_used {t : Switchboard H} {address : Nat} {cell : Cell}
    (found : t.cells[address]? = some cell) (used : cell.disposer = none) :
    t.dispose address = t := by
  obtain ⟨event, disposer⟩ := cell
  obtain rfl : disposer = none := used
  rw [dispose, found]

lemma dispose_of_usable {t : Switchboard H} {address : Nat} {cell : Cell} {event : String}
    {id : Nat} (found : t.cells[address]? = some cell) (usable : cell.disposer = some (event, id)) :
    t.dispose address =
      { t with cells := t.cells.set address ⟨cell.event, none⟩ }.remove event id := by
  obtain ⟨own, disposer⟩ := cell
  obtain rfl : disposer = some (event, id) := usable
  rw [dispose, found]

lemma events_dispose (t : Switchboard H) (address : Nat) :
    (t.dispose address).cells.map Cell.event = t.cells.map Cell.event := by
  cases found : t.cells[address]? with
  | none => rw [dispose_of_absent found]
  | some cell =>
    cases hdisposer : cell.disposer with
    | none => rw [dispose_of_used found hdisposer]
    | some target =>
      obtain ⟨event, id⟩ := target
      rw [dispose_of_usable found hdisposer, cells_remove, List.map_set]
      obtain ⟨hlt, rfl⟩ := List.getElem?_eq_some_iff.mp found
      rw [← List.getElem_map Cell.event (h := by simpa using hlt)]
      exact List.set_getElem_self _

/-! ## The list behind the tables -/

/-- The tables stand for a bus. -/
structure Refines (t : Switchboard H) (b : Bus H) : Prop where
  handlers : ∀ event, t.handlers.getD event [] = b.numbered event
  kept : ∀ event : String, t.handlers[event]? ≠ some []
  nextId : t.nextId = b.nextId
  length_cells : t.cells.length = b.nextId
  /-- The cell of a token can be used while its registration is there, and takes that off. -/
  disposer : ∀ (address : Nat) cell, t.cells[address]? = some cell →
    cell.disposer = if b.isLive ⟨address, cell.event⟩ then some (cell.event, address) else none
  /-- Every registration has a cell. -/
  given : ∀ r ∈ b.registrations, ∃ cell, t.cells[r.token.id]? = some cell ∧
    cell.event = r.token.event

lemma refines_empty : Refines ({} : Switchboard H) {} where
  handlers event := by simp [Bus.numbered]
  kept event := by simp
  nextId := rfl
  length_cells := rfl
  disposer address cell h := by simp at h
  given r hr := absurd hr List.not_mem_nil

namespace Refines

variable {t : Switchboard H} {b : Bus H}

/-- What is stored for an event is what is registered for it, if that is anything. -/
lemma getElem?_eq (refines : t.Refines b) (event : String) :
    t.handlers[event]? = if b.numbered event = [] then none else some (b.numbered event) := by
  have hget := refines.handlers event
  rw [Std.ExtTreeMap.getD_eq_getD_getElem?] at hget
  have hkept := refines.kept event
  cases hfound : t.handlers[event]? with
  | none =>
    rw [hfound] at hget
    exact (if_pos hget.symm).symm
  | some list =>
    rw [hfound] at hget hkept
    obtain rfl : list = b.numbered event := hget
    rw [if_neg fun hnil => hkept (congrArg some hnil)]

/-- The cells after a registration: the old ones, and one for the new token. -/
lemma cell_subscribe (refines : t.Refines b) {event : String} {handler : H} {address : Nat}
    {cell : Cell} (h : (t.subscribe event handler).2.cells[address]? = some cell) :
    (address < b.nextId ∧ t.cells[address]? = some cell) ∨
      (address = b.nextId ∧ cell = ⟨event, some (event, b.nextId)⟩) := by
  change (t.cells ++ [⟨event, some (event, t.nextId)⟩])[address]? = some cell at h
  rw [List.getElem?_append, refines.length_cells, refines.nextId] at h
  split at h
  · next hlt => exact .inl ⟨hlt, h⟩
  · next hge =>
    obtain ⟨hlt, heq⟩ := List.getElem?_eq_some_iff.mp h
    have hlast : address - b.nextId = 0 := by simpa using hlt
    simp only [hlast, List.getElem_cons_zero] at heq
    exact .inr ⟨by omega, heq.symm⟩

/-- A registration on the tables is one on the list, and its token has the address of the cell. -/
lemma subscribe (refines : t.Refines b) (event : String) (handler : H) :
    (t.subscribe event handler).2.Refines (b.subscribe event handler).2 where
  handlers other := by
    show (t.handlers.insert event (t.handlers.getD event [] ++ [(t.nextId, handler)])).getD other []
      = _
    rw [Bus.numbered_subscribe, Std.ExtTreeMap.getD_insert]
    by_cases h : event = other
    · subst h
      simp [refines.handlers, refines.nextId]
    · simp [h, refines.handlers]
  kept other := by
    show (t.handlers.insert event (t.handlers.getD event [] ++ [(t.nextId, handler)]))[other]? ≠ _
    rw [Std.ExtTreeMap.getElem?_insert]
    split
    · simp
    · exact refines.kept other
  nextId := congrArg (· + 1) refines.nextId
  length_cells := by
    show (t.cells ++ [_]).length = b.nextId + 1
    rw [List.length_append, refines.length_cells]
    rfl
  disposer address cell h := by
    rw [Bus.isLive_subscribe]
    rcases refines.cell_subscribe h with ⟨hlt, hold⟩ | ⟨rfl, rfl⟩
    · have hother : (⟨address, cell.event⟩ : Token) ≠ ⟨b.nextId, event⟩ := by
        rintro ⟨⟩
        exact Nat.lt_irrefl _ hlt
      rw [decide_eq_false hother, Bool.or_false]
      exact refines.disposer address cell hold
    · simp
  given r hr := by
    show ∃ cell, (t.cells ++ [⟨event, some (event, t.nextId)⟩])[r.token.id]? = some cell ∧ _
    rcases List.mem_append.mp hr with hold | hlast
    · obtain ⟨cell, hcell, hevent⟩ := refines.given r hold
      exact ⟨cell, (List.getElem?_append_left (List.getElem?_eq_some_iff.mp hcell).1).trans hcell,
        hevent⟩
    · obtain rfl := List.mem_singleton.mp hlast
      refine ⟨⟨event, some (event, t.nextId)⟩, ?_, rfl⟩
      simp [← refines.length_cells]

/-- To dispose of the token at an address is to dispose of the token on the list. -/
lemma dispose (refines : t.Refines b) {address : Nat} {cell : Cell}
    (found : t.cells[address]? = some cell) :
    (t.dispose address).Refines (b.dispose ⟨address, cell.event⟩) := by
  have hdisposer := refines.disposer address cell found
  -- A cell that has been taken belongs to a registration that is gone, and then nothing happens.
  cases hlive : b.isLive ⟨address, cell.event⟩ with
  | false =>
    rw [hlive] at hdisposer
    rw [dispose_of_used found hdisposer, Bus.dispose_of_not_live hlive]
    exact refines
  | true =>
    rw [hlive] at hdisposer
    rw [dispose_of_usable found hdisposer]
    have hset : ∀ (other : Nat), (t.cells.set address ⟨cell.event, none⟩)[other]? =
        if address = other then some ⟨cell.event, none⟩ else t.cells[other]? := by
      intro other
      rw [List.getElem?_set]
      split
      · rw [if_pos (List.getElem?_eq_some_iff.mp found).1]
      · rfl
    constructor
    · intro other
      rw [handlers_remove, Bus.numbered_dispose, refines.handlers]
    · exact kept_remove _ _ _ refines.kept
    · exact (nextId_remove _ _ _).trans refines.nextId
    · rw [cells_remove]
      exact List.length_set.trans refines.length_cells
    · intro other found' hfound'
      rw [cells_remove, hset] at hfound'
      rw [Bus.isLive_dispose]
      split at hfound'
      · next heq =>
        obtain rfl := heq
        obtain rfl := Option.some.inj hfound'
        simp
      · next hne =>
        have hother : (⟨other, found'.event⟩ : Token) ≠ ⟨address, cell.event⟩ :=
          fun heq => hne (congrArg Token.id heq).symm
        rw [decide_eq_true hother, Bool.and_true]
        exact refines.disposer other found' hfound'
    · intro r hr
      obtain ⟨hmem, -⟩ := List.mem_filter.mp hr
      obtain ⟨own, hown, hevent⟩ := refines.given r hmem
      rw [cells_remove, hset]
      split
      · next heq =>
        rw [← heq, found] at hown
        obtain rfl := Option.some.inj hown
        exact ⟨_, rfl, hevent⟩
      · exact ⟨own, hown, hevent⟩

/-! ## What can be asked of the tables -/

lemma snapshot_eq (refines : t.Refines b) (event : String) :
    t.snapshot event = b.handlersOf event := by
  rw [snapshot, refines.handlers, Bus.numbered, List.map_map]
  rfl

lemma count_eq (refines : t.Refines b) (event : String) : t.count event = b.count event := by
  have hlength : (b.numbered event).length = b.count event := by
    simp [Bus.numbered, Bus.count, Bus.handlersOf]
  rw [count, refines.getElem?_eq, ← hlength]
  by_cases h : b.numbered event = [] <;> simp [h]

/-- Every registration is in the list of its event, and there is one list for each event. -/
lemma total_eq (refines : t.Refines b) : t.total = b.total := by
  let events := b.registrations.map (·.token.event)
  have hcount : ∀ event, (b.numbered event).length = events.count event := by
    intro event
    rw [Bus.numbered, List.length_map, List.count_eq_countP, List.countP_map,
      List.countP_eq_length_filter]
    rfl
  have hkeys : ∀ event, event ∈ t.handlers.keys ↔ event ∈ events := by
    intro event
    rw [Std.ExtTreeMap.mem_keys, Std.ExtTreeMap.mem_iff_isSome_getElem?, refines.getElem?_eq,
      ← List.count_pos_iff, ← hcount, List.length_pos_iff]
    by_cases h : b.numbered event = [] <;> simp [h]
  -- Each event with a registration has one row, so that summing over rows counts every registration
  -- once.
  have hperm : t.handlers.keys.Perm events.dedup := by
    refine (List.perm_ext_iff_of_nodup Std.ExtTreeMap.nodup_keys (List.nodup_dedup _)).mpr ?_
    intro event
    rw [hkeys, List.mem_dedup]
  have hlengths : (t.handlers.toList.map fun entry => entry.2.length) =
      t.handlers.keys.map fun event => events.count event := by
    rw [← Std.ExtTreeMap.map_fst_toList_eq_keys, List.map_map]
    refine List.map_congr_left fun entry hentry => ?_
    have hfound := Std.ExtTreeMap.mem_toList_iff_getElem?_eq_some.mp hentry
    rw [refines.getElem?_eq] at hfound
    split at hfound
    · cases hfound
    · obtain ⟨event, list⟩ := entry
      have hlist : b.numbered event = list := Option.some.inj hfound
      exact hlist ▸ hcount event
  rw [total, hlengths, ← List.sum_eq_foldr, (hperm.map _).sum_eq,
    List.sum_map_count_dedup_eq_length]
  exact List.length_map _

lemma isDisposed_eq (refines : t.Refines b) {address : Nat} {cell : Cell}
    (found : t.cells[address]? = some cell) :
    t.isDisposed address = !b.isLive ⟨address, cell.event⟩ := by
  rw [isDisposed, found, Option.any_some, refines.disposer address cell found]
  cases b.isLive ⟨address, cell.event⟩ <;> rfl

end Refines

end Switchboard

end WorkflowGraph
