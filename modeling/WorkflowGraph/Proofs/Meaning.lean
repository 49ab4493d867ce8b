import Mathlib.Tactic.Lemma
import WorkflowGraph.Proofs.Reading

/-!
# What the specs of built-in conditions mean

`Spec.Within` says which specs the tree of a spec is made of, and `Spec.value` is the truth value
that the tree stands for, defined by recursion on it.

The main result `Registry.condition_meaning` says that building a spec ends, that it succeeds for
exactly the trees in which every spec is of a registered type and has data of that type, and that
the condition it gives has the value of the tree.  The laws of negation, conjunction and
disjunction follow for the conditions that are built, however their specs are spelled.
`Spec.negation`, `Spec.conjunction` and `Spec.disjunction` are one spelling.
-/

namespace WorkflowGraph

open Json

namespace Spec

/-! ## The value of a tree -/

/-- The spec `t` occurs in the tree of a spec. -/
inductive Within (t : Spec) : Spec → Prop
  | self : Within t t
  | part {s p : Spec} {r : Reading} (hread : s.reading = .ok r) (hp : p ∈ r.parts)
    (h : Within t p) : Within t s

/-- The truth value of a spec in a session: a conjunction is as true as all of its parts, a
disjunction as any of them, a negation as its part is not, and every other spec as the condition
that is read from its data.  Specs that cannot be read have no value of their own. -/
def value (s : Spec) (x : Session) : Bool :=
  match hread : s.reading with
  | .ok (.leaf c) => c.holds x
  | .ok (.not inner) =>
    have := weight_lt_of_reading hread inner (List.mem_singleton.mpr rfl)
    !inner.value x
  | .ok (.all parts) => parts.attach.all fun p =>
    have := weight_lt_of_reading hread p.1 p.2
    p.1.value x
  | .ok (.any parts) => parts.attach.any fun p =>
    have := weight_lt_of_reading hread p.1 p.2
    p.1.value x
  | .error _ => false
termination_by s.data.weight

/-- The condition that a spec stands for. -/
def meant (s : Spec) : Condition := ⟨s.type, s.value⟩

/-- Every spec in the tree can be read. -/
def Sound (s : Spec) : Prop := ∀ t, Within t s → ∃ r, t.reading = .ok r

lemma value_leaf {s : Spec} {c : BuiltinCondition} (h : s.reading = .ok (.leaf c)) :
    s.value = c.holds := by
  funext x
  rw [value]
  split <;> simp_all

lemma value_not {s inner : Spec} (h : s.reading = .ok (.not inner)) :
    s.value = fun x => !inner.value x := by
  funext x
  rw [value]
  split <;> simp_all

lemma value_all {s : Spec} {parts : List Spec} (h : s.reading = .ok (.all parts)) :
    s.value = fun x => parts.all fun p => p.value x := by
  funext x
  rw [value]
  split <;> simp_all

lemma value_any {s : Spec} {parts : List Spec} (h : s.reading = .ok (.any parts)) :
    s.value = fun x => parts.any fun p => p.value x := by
  funext x
  rw [value]
  split <;> simp_all

/-! ## Building a tree -/

lemma sound_of_part {s p : Spec} {r : Reading} (h : s.Sound) (hread : s.reading = .ok r)
    (hp : p ∈ r.parts) : p.Sound :=
  fun t ht => h t (.part hread hp ht)

/-- A tree is sound if its topmost spec can be read and the trees of the parts are sound. -/
lemma sound_iff {s : Spec} {r : Reading} (hread : s.reading = .ok r) :
    s.Sound ↔ ∀ p ∈ r.parts, p.Sound := by
  constructor
  · intro h p hp
    exact sound_of_part h hread hp
  · intro h t ht
    cases ht with
    | self => exact ⟨r, hread⟩
    | part hread' hp ht =>
      rw [hread] at hread'
      cases hread'
      exact h _ hp t ht

/-- A sound tree is built, and the condition is what the tree stands for. -/
lemma makeCondition_of_sound {s : Spec} (h : s.Sound) :
    Registry.builtin.makeCondition s = .ok s.meant := by
  obtain ⟨r, hread⟩ := h s .self
  have hparts : ∀ p ∈ r.parts, Registry.builtin.makeCondition p = .ok p.meant := by
    intro p hp
    -- The parts of a spec lie inside its data, so the recursion goes down in weight.
    have hlighter := weight_lt_of_reading hread p hp
    exact makeCondition_of_sound (sound_of_part h hread hp)
  have htype : s.meant = ⟨r.typeName, s.value⟩ := by rw [meant, (type_of_reading hread).2]
  rw [makeCondition_of_reading hread, htype]
  cases r with
  | leaf c => rw [value_leaf hread]; rfl
  | not inner =>
    rw [value_not hread, Reading.build, hparts inner (List.mem_singleton.mpr rfl)]
    rfl
  | all parts =>
    have hbuilt : parts.mapM Registry.builtin.makeCondition = .ok (parts.map meant) :=
      mapM_eq_map hparts
    have hvalue : (Combination.all (parts.map meant)).condition.holds =
        fun x => parts.all fun p => p.value x := by
      funext x
      exact List.all_map
    rw [value_all hread, Reading.build, hbuilt, ← hvalue]
    rfl
  | any parts =>
    have hbuilt : parts.mapM Registry.builtin.makeCondition = .ok (parts.map meant) :=
      mapM_eq_map hparts
    have hvalue : (Combination.any (parts.map meant)).condition.holds =
        fun x => parts.any fun p => p.value x := by
      funext x
      exact List.any_map
    rw [value_any hread, Reading.build, hbuilt, ← hvalue]
    rfl
termination_by s.data.weight

/-- A spec that was built is sound. -/
lemma sound_of_makeCondition {s : Spec} {c : Condition}
    (h : Registry.builtin.makeCondition s = .ok c) : s.Sound := by
  rw [makeCondition_eq] at h
  obtain ⟨r, hread, h⟩ := bind_eq_ok h
  have hparts : ∀ p ∈ r.parts, ∃ c, Registry.builtin.makeCondition p = .ok c := by
    cases r with
    | leaf c =>
      intro p hp
      cases hp
    | not inner =>
      intro p hp
      obtain rfl := List.mem_singleton.mp hp
      obtain ⟨c, hc, -⟩ := bind_eq_ok h
      exact ⟨c, hc⟩
    | all parts | any parts =>
      obtain ⟨cs, hcs, -⟩ := bind_eq_ok h
      exact result_of_mapM hcs
  rw [sound_iff hread]
  intro p hp
  have hlighter := weight_lt_of_reading hread p hp
  obtain ⟨c, hc⟩ := hparts p hp
  exact sound_of_makeCondition hc
termination_by s.data.weight

/-- A spec that was not built has a flaw somewhere in its tree, and is rejected for it. -/
lemma flaw_of_makeCondition {s : Spec} {e : BuildError}
    (h : Registry.builtin.makeCondition s = .error e) : ∃ t, Within t s ∧ t.Flaw e := by
  cases hread : s.reading with
  | error e' =>
    rw [makeCondition_eq, hread] at h
    cases h
    exact ⟨s, .self, flaw_of_reading hread⟩
  | ok r =>
    rw [makeCondition_of_reading hread] at h
    -- It fails on its own, which is above, or because of the first part that fails.
    have hpart : ∃ p ∈ r.parts, Registry.builtin.makeCondition p = .error e := by
      cases r with
      | leaf c => cases h
      | not inner =>
        refine ⟨inner, List.mem_singleton.mpr rfl, ?_⟩
        rw [Reading.build] at h
        cases hinner : Registry.builtin.makeCondition inner with
        | error e' =>
          rw [hinner] at h
          cases h
          rfl
        | ok c =>
          rw [hinner] at h
          cases h
      | all parts | any parts =>
        rw [Reading.build] at h
        cases hparts : parts.mapM Registry.builtin.makeCondition with
        | error e' =>
          rw [hparts] at h
          cases h
          exact failure_of_mapM hparts
        | ok cs =>
          rw [hparts] at h
          cases h
    obtain ⟨p, hp, hfail⟩ := hpart
    have hlighter := weight_lt_of_reading hread p hp
    obtain ⟨t, ht, hflaw⟩ := flaw_of_makeCondition hfail
    exact ⟨t, .part hread hp ht, hflaw⟩
termination_by s.data.weight

lemma not_sound_of_flaw {s t : Spec} {e : BuildError} (ht : Within t s) (hflaw : t.Flaw e) :
    ¬ s.Sound := by
  intro h
  obtain ⟨r, hread⟩ := h t ht
  cases hflaw with
  | unregistered hnone =>
    rw [(type_of_reading hread).1] at hnone
    cases hnone
  | unfit _ cause hreading =>
    rw [hreading] at hread
    cases hread

/-! ## Laws -/

/-- The truth value of the condition that is built from a spec, if one is built. -/
def verdict (s : Spec) : Option (Session → Bool) :=
  (Registry.builtin.makeCondition s).toOption.map Condition.holds

lemma verdict_of_sound {s : Spec} (h : s.Sound) : s.verdict = some s.value := by
  rw [verdict, makeCondition_of_sound h]
  rfl

lemma verdict_of_not_sound {s : Spec} (h : ¬ s.Sound) : s.verdict = none := by
  rw [verdict]
  cases hc : Registry.builtin.makeCondition s with
  | error e => rfl
  | ok c => exact absurd (sound_of_makeCondition hc) h

lemma verdict_congr {s t : Spec} (hsound : s.Sound ↔ t.Sound) (hvalue : s.value = t.value) :
    s.verdict = t.verdict := by
  by_cases h : s.Sound
  · rw [verdict_of_sound h, verdict_of_sound (hsound.mp h), hvalue]
  · rw [verdict_of_not_sound h, verdict_of_not_sound fun ht => h (hsound.mpr ht)]

/-- The specs of one list are the negations of those of another. -/
def Negations (negs parts : List Spec) : Prop :=
  negs.map reading = parts.map fun p => .ok (.not p)

lemma Negations.cons {neg p : Spec} {negs parts : List Spec}
    (h : Negations (neg :: negs) (p :: parts)) :
    neg.reading = .ok (.not p) ∧ Negations negs parts := by
  rw [Negations, List.map_cons, List.map_cons, List.cons.injEq] at h
  exact h

/-- Negations are sound, and false, together with what they negate. -/
lemma Negations.dual {negs parts : List Spec} (h : Negations negs parts) :
    ((∀ n ∈ negs, n.Sound) ↔ ∀ p ∈ parts, p.Sound) ∧
      ∀ x, (negs.any fun n => n.value x) = !(parts.all fun p => p.value x) ∧
        (negs.all fun n => n.value x) = !(parts.any fun p => p.value x) := by
  induction parts generalizing negs with
  | nil =>
    obtain rfl := List.map_eq_nil_iff.mp h
    exact ⟨Iff.rfl, fun x => ⟨rfl, rfl⟩⟩
  | cons p parts ih =>
    cases negs with
    | nil => cases h
    | cons neg negs =>
      obtain ⟨hneg, hrest⟩ := h.cons
      obtain ⟨hsound, hvalue⟩ := ih hrest
      have hfirst : neg.Sound ↔ p.Sound := by
        rw [sound_iff hneg]
        exact List.forall_mem_singleton
      refine ⟨?_, fun x => ?_⟩
      · rw [List.forall_mem_cons, List.forall_mem_cons, hfirst, hsound]
      · obtain ⟨hany, hall⟩ := hvalue x
        rw [List.any_cons, List.all_cons, List.all_cons, List.any_cons, hany, hall, value_not hneg,
          Bool.not_and, Bool.not_or]
        exact ⟨rfl, rfl⟩

section Laws

variable {s t inner : Spec} {parts negs before after : List Spec}

/-- The negation of a conjunction is the disjunction of the negations. -/
lemma verdict_not_all (hs : s.reading = .ok (.not inner))
    (hinner : inner.reading = .ok (.all parts)) (ht : t.reading = .ok (.any negs))
    (hnegs : Negations negs parts) : s.verdict = t.verdict := by
  obtain ⟨hsound, hvalue⟩ := hnegs.dual
  refine verdict_congr ?_ ?_
  · rw [sound_iff hs, sound_iff ht]
    refine List.forall_mem_singleton.trans ?_
    rw [sound_iff hinner]
    exact hsound.symm
  · rw [value_not hs, value_all hinner, value_any ht]
    funext x
    exact (hvalue x).1.symm

/-- The negation of a disjunction is the conjunction of the negations. -/
lemma verdict_not_any (hs : s.reading = .ok (.not inner))
    (hinner : inner.reading = .ok (.any parts)) (ht : t.reading = .ok (.all negs))
    (hnegs : Negations negs parts) : s.verdict = t.verdict := by
  obtain ⟨hsound, hvalue⟩ := hnegs.dual
  refine verdict_congr ?_ ?_
  · rw [sound_iff hs, sound_iff ht]
    refine List.forall_mem_singleton.trans ?_
    rw [sound_iff hinner]
    exact hsound.symm
  · rw [value_not hs, value_any hinner, value_all ht]
    funext x
    exact (hvalue x).2.symm

lemma sound_flatten {r : Reading} (hinner : inner.reading = .ok r) :
    (∀ p ∈ before ++ inner :: after, p.Sound) ↔ ∀ p ∈ before ++ r.parts ++ after, p.Sound := by
  rw [List.forall_mem_append, List.forall_mem_cons, List.forall_mem_append, List.forall_mem_append,
    sound_iff hinner, and_assoc]

/-- A conjunction inside a conjunction may be replaced by its parts. -/
lemma verdict_all_flatten (hs : s.reading = .ok (.all (before ++ inner :: after)))
    (hinner : inner.reading = .ok (.all parts))
    (ht : t.reading = .ok (.all (before ++ parts ++ after))) : s.verdict = t.verdict := by
  refine verdict_congr ?_ ?_
  · rw [sound_iff hs, sound_iff ht]
    exact sound_flatten hinner
  · rw [value_all hs, value_all ht]
    funext x
    rw [List.all_append, List.all_cons, List.all_append, List.all_append, value_all hinner,
      Bool.and_assoc]

/-- A disjunction inside a disjunction may be replaced by its parts. -/
lemma verdict_any_flatten (hs : s.reading = .ok (.any (before ++ inner :: after)))
    (hinner : inner.reading = .ok (.any parts))
    (ht : t.reading = .ok (.any (before ++ parts ++ after))) : s.verdict = t.verdict := by
  refine verdict_congr ?_ ?_
  · rw [sound_iff hs, sound_iff ht]
    exact sound_flatten hinner
  · rw [value_any hs, value_any ht]
    funext x
    rw [List.any_append, List.any_cons, List.any_append, List.any_append, value_any hinner,
      Bool.or_assoc]

end Laws

/-! ## Trees that are written down -/

/-- The spec of a negation. -/
def negation (s : Spec) : Spec := ⟨"Not", .object [("inner", s.toJson)]⟩

/-- The spec of a conjunction. -/
def conjunction (parts : List Spec) : Spec :=
  ⟨"All", .object [("conditions", .array (parts.map toJson))]⟩

/-- The spec of a disjunction. -/
def disjunction (parts : List Spec) : Spec :=
  ⟨"Any", .object [("conditions", .array (parts.map toJson))]⟩

lemma reading_negation (s : Spec) : s.negation.reading = .ok (.not s) := by
  obtain ⟨type, data⟩ := s
  cases data <;> rfl

lemma mapM_toJson (parts : List Spec) : (parts.map toJson).mapM ofCondition.json = .ok parts := by
  induction parts with
  | nil => rfl
  | cons p parts ih =>
    rw [List.map_cons, List.mapM_cons, ofCondition, decoder_toJson, ← ofCondition, ih]
    rfl

lemma json_partsDecoder (parts : List Spec) :
    Combination.partsDecoder.json (.object [("conditions", .array (parts.map toJson))]) =
      .ok parts := by
  let field : Json.Field (List Spec) := .spare "conditions" (.list ofCondition) fun _ parts => parts
  have hfield : field.json [] (.array (parts.map toJson)) = .ok parts := by
    change ((parts.map toJson).mapM ofCondition.json).map (fun parts => parts) = .ok parts
    rw [mapM_toJson]
    rfl
  change (do
    let record ← field.json [] (.array (parts.map toJson)) >>= pure
    Decoder.allSeen [field] ["conditions"]
    pure record) = .ok parts
  rw [hfield]
  rfl

lemma decodeData_parts (type : String) (parts : List Spec) :
    Registry.decodeData type Combination.partsDecoder
      (.object [("conditions", .array (parts.map toJson))]) = .ok parts := by
  unfold Registry.decodeData
  dsimp only
  rw [json_partsDecoder]

lemma reading_conjunction (parts : List Spec) : (conjunction parts).reading = .ok (.all parts) := by
  change (Registry.decodeData "All" Combination.partsDecoder _).map Reading.all = _
  rw [conjunction, decodeData_parts]
  rfl

lemma reading_disjunction (parts : List Spec) : (disjunction parts).reading = .ok (.any parts) := by
  change (Registry.decodeData "Any" Combination.partsDecoder _).map Reading.any = _
  rw [disjunction, decodeData_parts]
  rfl

end Spec

open Spec in
/-- **Specs of conditions mean what they say.**  Building a spec ends: it is done by reading its
data and building its parts, which have less data than the spec.  The condition that is built
has the type of the spec and the value of its tree.  A spec is rejected if and only if some spec
of its tree is of an unregistered type or has data that does not fit its type, and the error is
the one of such a spec.  Negations move inside conjunctions and disjunctions, and nested
conjunctions and disjunctions may be flattened, without a change of what is built. -/
theorem Registry.condition_meaning :
    (∀ s : Spec, builtin.condition? s = some (builtin.makeCondition s) ∧
      builtin.makeCondition s = s.reading >>= Reading.build builtin.makeCondition ∧
      ∀ r, s.reading = .ok r → ∀ p ∈ r.parts, p.data.weight < s.data.weight) ∧
    (∀ s c, builtin.makeCondition s = .ok c → c.typeName = s.type ∧ ∀ x, c.holds x = s.value x) ∧
    (∀ s, (∃ e, builtin.makeCondition s = .error e) ↔ ∃ t, Within t s ∧ ∃ e, t.Flaw e) ∧
    (∀ s e, builtin.makeCondition s = .error e → ∃ t, Within t s ∧ t.Flaw e) ∧
    (∀ (s t inner : Spec) (parts negs : List Spec), s.reading = .ok (.not inner) →
      Negations negs parts →
      (inner.reading = .ok (.all parts) → t.reading = .ok (.any negs) → s.verdict = t.verdict) ∧
      (inner.reading = .ok (.any parts) → t.reading = .ok (.all negs) → s.verdict = t.verdict)) ∧
    (∀ (s t inner : Spec) (parts before after : List Spec),
      (s.reading = .ok (.all (before ++ inner :: after)) → inner.reading = .ok (.all parts) →
        t.reading = .ok (.all (before ++ parts ++ after)) → s.verdict = t.verdict) ∧
      (s.reading = .ok (.any (before ++ inner :: after)) → inner.reading = .ok (.any parts) →
        t.reading = .ok (.any (before ++ parts ++ after)) → s.verdict = t.verdict)) := by
  refine ⟨fun s => ⟨?_, makeCondition_eq s, fun r hread => weight_lt_of_reading hread⟩, ?_, ?_,
    fun s e => flaw_of_makeCondition, ?_, ?_⟩
  · rw [makeCondition_eq]
    exact condition?_eq s
  · intro s c hc
    have hmeant := makeCondition_of_sound (sound_of_makeCondition hc)
    rw [hc] at hmeant
    cases hmeant
    exact ⟨rfl, fun x => rfl⟩
  · intro s
    constructor
    · rintro ⟨e, he⟩
      obtain ⟨t, ht, hflaw⟩ := flaw_of_makeCondition he
      exact ⟨t, ht, e, hflaw⟩
    · rintro ⟨t, ht, e, hflaw⟩
      -- The maker always answers, so what cannot succeed fails.
      cases hc : builtin.makeCondition s with
      | error e' => exact ⟨e', rfl⟩
      | ok c => exact absurd (sound_of_makeCondition hc) (not_sound_of_flaw ht hflaw)
  · intro s t inner parts negs hs hnegs
    exact ⟨fun hinner ht => verdict_not_all hs hinner ht hnegs,
      fun hinner ht => verdict_not_any hs hinner ht hnegs⟩
  · intro s t inner parts before after
    exact ⟨verdict_all_flatten, verdict_any_flatten⟩

/-- The spec of two knocks at least. -/
def Spec.twoKnocks : Spec :=
  ⟨"EventFired", .object [("event", .string "knock"), ("min_count", .number (.integer 2))]⟩

open Spec in
/-- The negation of a disjunction of two knocks and of nothing is built, holds up to the second
knock, and moves inside; the disjunction of nothing may be left out.  The negation of a spec of an
unknown type is rejected. -/
theorem Registry.condition_meaning_knocks :
    (∃ c, builtin.makeCondition (disjunction [twoKnocks, disjunction []]).negation = .ok c ∧
      ∀ x, c.holds x = !decide (2 ≤ x.context.countOf "knock")) ∧
    (disjunction [twoKnocks, disjunction []]).negation.verdict =
      (conjunction [twoKnocks.negation, (disjunction []).negation]).verdict ∧
    (disjunction [twoKnocks, disjunction []]).verdict = (disjunction [twoKnocks]).verdict ∧
    ∃ e, builtin.makeCondition (Spec.mk "Nowhere" .null).negation = .error e := by
  obtain ⟨-, hvalue, hfails, -, hdual, hflat⟩ := Registry.condition_meaning
  have hknocks : twoKnocks.reading = .ok (.leaf (.eventFired "knock" 2)) := rfl
  have hleaf : twoKnocks.Sound := (sound_iff hknocks).mpr fun p hp => by cases hp
  have hnone : (disjunction []).Sound :=
    (sound_iff (reading_disjunction [])).mpr fun p hp => by cases hp
  refine ⟨?_, ?_, ?_, ?_⟩
  · cases hc : builtin.makeCondition (disjunction [twoKnocks, disjunction []]).negation with
    | error e =>
      obtain ⟨t, ht, e, hflaw⟩ := (hfails _).mp ⟨e, hc⟩
      refine absurd ?_ (not_sound_of_flaw ht hflaw)
      rw [sound_iff (reading_negation _)]
      refine List.forall_mem_singleton.mpr ?_
      rw [sound_iff (reading_disjunction _)]
      exact List.forall_mem_cons.mpr ⟨hleaf, List.forall_mem_singleton.mpr hnone⟩
    | ok c =>
      refine ⟨c, rfl, fun x => ?_⟩
      rw [(hvalue _ c hc).2 x, value_not (reading_negation _), value_any (reading_disjunction _)]
      simp [value_leaf hknocks, value_any (reading_disjunction []), BuiltinCondition.holds]
  · refine (hdual _ _ _ [twoKnocks, disjunction []] _ (reading_negation _) ?_).2
      (reading_disjunction _) (reading_conjunction _)
    rw [Negations, List.map_cons, List.map_cons, reading_negation, reading_negation]
    rfl
  · exact (hflat _ _ _ [] [twoKnocks] []).2 (reading_disjunction _) (reading_disjunction [])
      (reading_disjunction _)
  · rw [hfails]
    refine ⟨⟨"Nowhere", .null⟩, .part (reading_negation _) (List.mem_singleton.mpr rfl) .self, _,
      .unregistered ?_⟩
    rw [hasCondition_eq]
    rfl

end WorkflowGraph
