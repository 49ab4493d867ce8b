import WorkflowGraph.Proofs.Operations
import WorkflowGraph.Proofs.Resolution
import WorkflowGraph.Proofs.Walk

/-!
# Resolution, round by round

Resolution that goes on until nothing moves makes one round after the other (`settle_succ`).  The
records that it leaves and the moments that it goes through come in rounds as well
(`settleRecords_succ`, `settleMoments_succ`).  So what is shown of a round by looking at its two
halves, the request and the edge, need not be looked at again for all of resolution.
-/

namespace WorkflowGraph
namespace Machine

/-- From a machine a number of rounds leads to one other machine only. -/
lemma Rounds.unique {n : Nat} {m a b : Machine} (first : Rounds n m a) (second : Rounds n m b) :
    a = b := by
  induction first with
  | zero =>
      cases second
      rfl
  | succ moved rest ih =>
      cases second with
      | succ moved' rest' =>
          obtain rfl := (Prod.mk.inj (moved.symm.trans moved')).2
          exact ih rest'

lemma pass_eq (m : Machine) :
    m.pass =
      if m.drain.1 then (true, m.drain.2)
      else (m.drain.2.follow?.isSome, m.drain.2.follow?.getD m.drain.2) := by
  unfold pass
  rcases m.drain with ⟨honoured, rest⟩
  cases honoured with
  | true => rfl
  | false => cases hfollow : rest.follow? <;> simp [hfollow]

/-! ## Records -/

/-- The records of a round of resolution: one if it moves. -/
def passRecords (m : Machine) : List Transition :=
  m.drainRecords ++ if m.drain.1 then [] else m.drain.2.followRecords

lemma settleRecords_succ (budget : Nat) (m : Machine) :
    settleRecords (budget + 1) m =
      m.passRecords ++ if m.pass.1 then settleRecords budget m.pass.2 else [] := by
  rw [settleRecords, passRecords, pass_eq, List.append_assoc]
  rcases m.drain with ⟨honoured, rest⟩
  cases honoured with
  | true => rfl
  | false => cases hfollow : rest.follow? <;> simp [hfollow]

lemma walk_pass (m : Machine) :
    Walk m m.passRecords m.pass.2 ∧ m.passRecords.length = m.pass.1.toNat := by
  obtain ⟨hdrain, hlength⟩ := walk_drain m
  obtain ⟨hfollow, hcount⟩ := walk_follow m.drain.2
  rw [passRecords, pass_eq]
  cases hm : m.drain.1 with
  | true =>
      rw [hm] at hlength
      exact ⟨by simpa using hdrain, by simpa using hlength⟩
  | false =>
      rw [hm] at hlength
      exact ⟨hdrain.trans hfollow, by simp [hlength, hcount]⟩

/-- Each round that moves leaves one record, and what comes after some rounds is what resolution
would leave from there with the rest of the budget. -/
lemma drop_settleRecords {k : Nat} {m a : Machine} (rounds : Rounds k m a) {budget : Nat}
    (le : k ≤ budget) : (settleRecords budget m).drop k = settleRecords (budget - k) a := by
  induction rounds generalizing budget with
  | zero => rfl
  | @succ k m next last moved rest ih =>
      obtain ⟨budget, rfl⟩ : ∃ j, budget = j + 1 := ⟨budget - 1, by omega⟩
      have hone : m.passRecords.length = 1 := by rw [(walk_pass m).2, moved]; rfl
      have hdrop : (m.passRecords ++ settleRecords budget next).drop (k + 1) =
          (settleRecords budget next).drop k := by
        rw [List.drop_append, hone, List.drop_eq_nil_of_le (by omega)]
        rfl
      rw [settleRecords_succ, moved, if_pos rfl, hdrop, ih (by omega), Nat.add_sub_add_right]

/-! ## Moments -/

/-- What happens in a round of resolution. -/
def passMoments (deeds : Guid → Phase → Session → List Deed) (m : Machine) : List Moment :=
  m.drainMoments deeds ++ if m.drain.1 then [] else m.drain.2.followMoments deeds

lemma settleMoments_succ (deeds : Guid → Phase → Session → List Deed) (budget : Nat)
    (m : Machine) :
    settleMoments deeds (budget + 1) m =
      m.passMoments deeds ++ if m.pass.1 then settleMoments deeds budget m.pass.2 else [] := by
  rw [settleMoments, passMoments, pass_eq, List.append_assoc]
  rcases m.drain with ⟨honoured, rest⟩
  cases honoured with
  | true => rfl
  | false => cases hfollow : rest.follow? <;> simp [hfollow]

lemma leads_passMoments {g : Graph} {Allowed H : Deed → Prop} {p : g.Conduct Allowed}
    {m : Machine} (underway : Underway g m) : Leads p H m (m.passMoments p.deeds) m.pass.2 := by
  have hdrain := leads_drainMoments (p := p) (H := H) underway
  rw [passMoments, pass_eq]
  cases m.drain.1 with
  | true => simpa using hdrain
  | false => exact hdrain.trans (leads_followMoments hdrain.underway)

end Machine
end WorkflowGraph
