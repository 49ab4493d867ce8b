import Mathlib.Tactic.Lemma
import WorkflowGraph.Catalog.Conditions
import WorkflowGraph.Proofs.Decoding
import WorkflowGraph.Proofs.Recipes

/-!
# Reading the specs of built-in conditions

A spec of a built-in condition is a tree that is written down as data: the data of a negation, a
conjunction or a disjunction holds the specs of its parts.  `Spec.reading` opens one layer of that
tree, and `Spec.Flaw` says what may be wrong with a layer.

The recipe for a spec asks for its parts.  Parts that are read from the data of a built-in type have
less data than the whole (`Spec.weight_lt_of_reading`), so that building always ends
(`Spec.condition?_eq`), and it is reading followed by building the parts (`Spec.makeCondition_eq`).
-/

namespace WorkflowGraph

open Json

/-- A spec of a built-in condition with its data read. -/
inductive Reading where
  | leaf (c : BuiltinCondition)
  | not (inner : Spec)
  | all (parts : List Spec)
  | any (parts : List Spec)

namespace Reading

/-- The specs that the data holds. -/
def parts : Reading → List Spec
  | .leaf _ => []
  | .not inner => [inner]
  | .all parts | .any parts => parts

/-- The name of the type. -/
def typeName : Reading → String
  | .leaf c => c.typeName
  | .not _ => "Not"
  | .all _ => "All"
  | .any _ => "Any"

/-- The condition, given how those of the parts are built. -/
def build (part : Spec → Except BuildError Condition) : Reading → Except BuildError Condition
  | .leaf c => pure c.condition
  | .not inner => do pure (Combination.not (← part inner)).condition
  | .all parts => do pure (Combination.all (← parts.mapM part)).condition
  | .any parts => do pure (Combination.any (← parts.mapM part)).condition

/-- The recipe for the condition. -/
def recipe : Reading → Recipe Condition
  | .leaf c => pure c.condition
  | .not inner => do pure (Combination.not (← Recipe.build inner)).condition
  | .all parts => do pure (Combination.all (← Recipe.buildAll parts)).condition
  | .any parts => do pure (Combination.any (← Recipe.buildAll parts)).condition

/-- If building the parts ends, the recipe comes to what is built from them. -/
lemma follow_recipe {registry : Registry} {r : Reading} {part : Spec → Except BuildError Condition}
    (h : ∀ p ∈ r.parts, registry.condition? p = some (part p)) :
    registry.follow r.recipe = some (r.build part) := by
  cases r with
  | leaf c => exact Registry.follow_done _
  | not inner =>
    rw [recipe, build, Registry.follow_bind, Registry.follow_build, h inner List.mem_cons_self]
    cases part inner with
    | error e => rfl
    | ok c => exact Registry.follow_done _
  | all parts | any parts =>
    have hparts : registry.follow (.buildAll parts) = some (parts.mapM part) :=
      Registry.follow_buildAll h
    rw [recipe, build, Registry.follow_bind, hparts]
    cases parts.mapM part with
    | error e => rfl
    | ok cs => exact Registry.follow_done _

end Reading

namespace Spec

/-- Reads the data of a spec as its type demands. -/
def reading (s : Spec) : Except BuildError Reading :=
  match s.type with
  | "WaitElapsed" =>
    (Registry.decodeData s.type BuiltinCondition.waitElapsedDecoder s.data).map .leaf
  | "EventFired" =>
    (Registry.decodeData s.type BuiltinCondition.eventFiredDecoder s.data).map .leaf
  | "Compare" => (Registry.decodeData s.type BuiltinCondition.compareDecoder s.data).map .leaf
  | "Not" => (Registry.decodeData s.type Combination.innerDecoder s.data).map .not
  | "All" => (Registry.decodeData s.type Combination.partsDecoder s.data).map .all
  | "Any" => (Registry.decodeData s.type Combination.partsDecoder s.data).map .any
  | type => .error (.unknownCondition type)

/-- What is wrong with the spec, apart from its parts: its type is not registered, or it is and
the data does not fit it. -/
inductive Flaw (s : Spec) : BuildError → Prop
  | unregistered (h : Registry.builtin.hasCondition s.type = false) :
    Flaw s (.unknownCondition s.type)
  | unfit (h : Registry.builtin.hasCondition s.type = true) (cause : Mismatch)
    (hreading : s.reading = .error (.invalidData s.type cause)) :
    Flaw s (.invalidData s.type cause)

/-! ## One layer of a tree -/

/-- The data of a type is read by its decoder, from a value as heavy as the data. -/
lemma decodeData_eq {α : Type} (type : String) (d : Decoder α) (data : Json) :
    ∃ v, v.weight = data.weight ∧
      Registry.decodeData type d data = (d.json v).mapError (.invalidData type) := by
  have hgiven : ∀ v, v ≠ .null →
      Registry.decodeData type d v = (d.json v).mapError (.invalidData type) := by
    intro v hv
    cases hjson : d.json v with
    | ok value =>
      simp only [Registry.decodeData, hjson]
      rfl
    | error cause =>
      simp only [Registry.decodeData, hjson]
      rfl
  by_cases hnull : data = .null
  · subst hnull
    exact ⟨.object [], rfl, hgiven (.object []) (by simp)⟩
  · exact ⟨data, rfl, hgiven data hnull⟩

lemma json_of_decodeData {α : Type} {type : String} {d : Decoder α} {data : Json} {a : α}
    (h : Registry.decodeData type d data = .ok a) :
    ∃ v, d.json v = .ok a ∧ v.weight = data.weight := by
  obtain ⟨v, hweight, hv⟩ := decodeData_eq type d data
  rw [hv] at h
  cases hjson : d.json v with
  | error cause =>
    rw [hjson] at h
    cases h
  | ok value =>
    rw [hjson] at h
    cases h
    exact ⟨v, hjson, hweight⟩

lemma error_of_decodeData {α : Type} {type : String} {d : Decoder α} {data : Json} {e : BuildError}
    (h : Registry.decodeData type d data = .error e) : ∃ cause, e = .invalidData type cause := by
  obtain ⟨v, -, hv⟩ := decodeData_eq type d data
  rw [hv] at h
  cases hjson : d.json v with
  | error cause =>
    rw [hjson] at h
    cases h
    exact ⟨cause, rfl⟩
  | ok value =>
    rw [hjson] at h
    cases h

lemma weight_lt_of_innerDecoder {v : Json} {inner : Spec}
    (h : Combination.innerDecoder.json v = .ok inner) : inner.data.weight < v.weight := by
  refine Decoder.record_induction (P := fun s => s.data.weight < v.weight) h ?_ ?_
  · exact Decoder.one_lt_weight_of_record rfl h
  · intro field hfield r r' part hpart _ hr'
    obtain rfl := List.mem_singleton.mp hfield
    obtain ⟨spec, hspec, rfl⟩ := Decoder.make_json_eq_ok hr'
    exact Nat.lt_of_le_of_lt (weight_le_of_decoder hspec) hpart

/-- The parts of a conjunction or disjunction have less data than the whole. -/
lemma weight_lt_of_partsDecoder {v : Json} {parts : List Spec}
    (h : Combination.partsDecoder.json v = .ok parts) :
    ∀ p ∈ parts, p.data.weight < v.weight := by
  refine Decoder.record_induction (P := fun parts => ∀ p ∈ parts, p.data.weight < v.weight) h ?_ ?_
  · intro p hp
    cases hp
  · intro field hfield r r' list hlist _ hr' p hp
    obtain rfl := List.mem_singleton.mp hfield
    obtain ⟨specs, hspecs, rfl⟩ := Decoder.make_json_eq_ok hr'
    cases list with
    | array items =>
      obtain ⟨item, hitem, hread⟩ := exists_of_mem_mapM hspecs p hp
      have hle := weight_le_of_decoder hread
      have hlt := weight_lt_array hitem
      omega
    | null => cases hspecs
    | boolean b => cases hspecs
    | number n => cases hspecs
    | string s => cases hspecs
    | object members => cases hspecs

/-- The parts of a spec have less data than the spec. -/
lemma weight_lt_of_reading {s : Spec} {r : Reading} (h : s.reading = .ok r) :
    ∀ p ∈ r.parts, p.data.weight < s.data.weight := by
  have hleaf : ∀ {d : Decoder BuiltinCondition},
      (Registry.decodeData s.type d s.data).map .leaf = .ok r →
        ∀ p ∈ r.parts, p.data.weight < s.data.weight := by
    intro d h p hp
    obtain ⟨c, -, rfl⟩ := map_eq_ok h
    cases hp
  have hlist : ∀ {make : List Spec → Reading}, (∀ parts, (make parts).parts = parts) →
      (Registry.decodeData s.type Combination.partsDecoder s.data).map make = .ok r →
        ∀ p ∈ r.parts, p.data.weight < s.data.weight := by
    intro make hmake h p hp
    obtain ⟨parts, hparts, rfl⟩ := map_eq_ok h
    obtain ⟨v, hv, hweight⟩ := json_of_decodeData hparts
    rw [hmake] at hp
    -- The data that was decoded weighs as much as the data of the spec.
    rw [← hweight]
    exact weight_lt_of_partsDecoder hv p hp
  unfold reading at h
  split at h
  · exact hleaf h
  · exact hleaf h
  · exact hleaf h
  · intro p hp
    obtain ⟨inner, hinner, rfl⟩ := map_eq_ok h
    obtain ⟨v, hv, hweight⟩ := json_of_decodeData hinner
    obtain rfl := List.mem_singleton.mp hp
    rw [← hweight]
    exact weight_lt_of_innerDecoder hv
  · exact hlist (fun _ => rfl) h
  · exact hlist (fun _ => rfl) h
  · cases h

/-! ## The registry of the built-in conditions -/

/-- The makers of the registry. -/
lemma builtin_maker (type : String) : Registry.builtin.conditions[type]? =
    if "Any" = type then some (Combination.listMaker "Any" .any)
    else if "All" = type then some (Combination.listMaker "All" .all)
    else if "Not" = type then some Combination.notMaker
    else if "Compare" = type then some fun data =>
      .done ((Registry.decodeData "Compare" BuiltinCondition.compareDecoder data).map (·.condition))
    else if "EventFired" = type then some fun data => .done
      ((Registry.decodeData "EventFired" BuiltinCondition.eventFiredDecoder data).map (·.condition))
    else if "WaitElapsed" = type then some fun data => .done
      ((Registry.decodeData "WaitElapsed" BuiltinCondition.waitElapsedDecoder data).map
        (·.condition))
    else none := by
  have hnodes : (BuiltinNode.register Registry.base).conditions = ∅ := rfl
  simp only [Registry.builtin, Registry.withBuiltins, registerConditions, Registry.addCondition,
    Registry.addConditionMaker, Std.ExtTreeMap.getElem?_insert, Std.LawfulEqCmp.compare_eq_iff_eq,
    hnodes, Std.ExtTreeMap.getElem?_empty]

/-- The registered types. -/
lemma hasCondition_eq (type : String) : Registry.builtin.hasCondition type =
    ["WaitElapsed", "EventFired", "Compare", "Not", "All", "Any"].contains type := by
  rw [Registry.hasCondition, Std.ExtTreeMap.contains_eq_isSome_getElem?, builtin_maker]
  -- The registry is a map, so each of its six keys is looked up on its own.
  by_cases hany : type = "Any"
  · subst hany
    rfl
  by_cases hall : type = "All"
  · subst hall
    rfl
  by_cases hnot : type = "Not"
  · subst hnot
    rfl
  by_cases hcompare : type = "Compare"
  · subst hcompare
    rfl
  by_cases hfired : type = "EventFired"
  · subst hfired
    rfl
  by_cases hwait : type = "WaitElapsed"
  · subst hwait
    rfl
  simp [hany, hall, hnot, hcompare, hfired, hwait, Ne.symm]

/-- The recipe for a spec: its data is read, and then its parts are built. -/
def recipe (s : Spec) : Recipe Condition :=
  match s.reading with
  | .error e => .done (.error e)
  | .ok r => r.recipe

/-- The maker of a spec's type has the recipe for the spec. -/
lemma maker_eq (s : Spec) :
    (match Registry.builtin.conditions[s.type]? with
      | none => .done (.error (.unknownCondition s.type))
      | some maker => maker s.data) = s.recipe := by
  have hleaf : ∀ (type : String) (d : Decoder BuiltinCondition),
      Recipe.done ((Registry.decodeData type d s.data).map (·.condition)) =
        match (Registry.decodeData type d s.data).map Reading.leaf with
        | .error e => .done (.error e)
        | .ok r => r.recipe := by
    intro type d
    cases Registry.decodeData type d s.data <;> rfl
  have hnot : Combination.notMaker s.data =
      match (Registry.decodeData "Not" Combination.innerDecoder s.data).map Reading.not with
      | .error e => .done (.error e)
      | .ok r => r.recipe := by
    unfold Combination.notMaker
    cases Registry.decodeData "Not" Combination.innerDecoder s.data <;> rfl
  have hlist : ∀ (type : String) (make : List Condition → Combination)
      (read : List Spec → Reading),
      (∀ parts, (read parts).recipe = do pure (make (← Recipe.buildAll parts)).condition) →
        Combination.listMaker type make s.data =
          match (Registry.decodeData type Combination.partsDecoder s.data).map read with
          | .error e => .done (.error e)
          | .ok r => r.recipe := by
    intro type make read hread
    unfold Combination.listMaker
    cases Registry.decodeData type Combination.partsDecoder s.data with
    | error e => rfl
    | ok parts => exact (hread parts).symm
  have hall := hlist "All" .all .all fun _ => rfl
  have hany := hlist "Any" .any .any fun _ => rfl
  rw [builtin_maker, recipe]
  fun_cases reading s with
  | case1 htype => simp [htype, hleaf]
  | case2 htype => simp [htype, hleaf]
  | case3 htype => simp [htype, hleaf]
  | case4 htype => simp [htype, hnot]
  | case5 htype => simp [htype, hall]
  | case6 htype => simp [htype, hany]
  | case7 hwait hfired hcompare hnot hall hany =>
    simp only [if_neg (Ne.symm hwait), if_neg (Ne.symm hfired), if_neg (Ne.symm hcompare),
      if_neg (Ne.symm hnot), if_neg (Ne.symm hall), if_neg (Ne.symm hany)]

lemma condition?_eq_follow (s : Spec) :
    Registry.builtin.condition? s = Registry.builtin.follow s.recipe := by
  rw [← maker_eq]
  cases found : Registry.builtin.conditions[s.type]? with
  | none => rw [Registry.condition?_of_unknown found, Registry.follow_done]
  | some maker => rw [Registry.condition?_of_maker found]

/-- Building a spec always ends, and it is reading followed by building the parts in the same
way. -/
theorem condition?_eq (s : Spec) :
    Registry.builtin.condition? s =
      some (s.reading >>= Reading.build Registry.builtin.makeCondition) := by
  rw [condition?_eq_follow, recipe]
  cases hr : s.reading with
  | error e => exact Registry.follow_done _
  | ok r =>
    refine Reading.follow_recipe fun p hp => ?_
    have hlighter := weight_lt_of_reading hr p hp
    rw [Registry.makeCondition, condition?_eq p]
    rfl
termination_by s.data.weight

/-- A spec is built by reading it and then building its parts in the same way. -/
theorem makeCondition_eq (s : Spec) :
    Registry.builtin.makeCondition s =
      s.reading >>= Reading.build Registry.builtin.makeCondition := by
  rw [Registry.makeCondition, condition?_eq]
  rfl

lemma makeCondition_of_reading {s : Spec} {r : Reading} (h : s.reading = .ok r) :
    Registry.builtin.makeCondition s = r.build Registry.builtin.makeCondition := by
  rw [makeCondition_eq, h]
  rfl

/-- A spec that can be read is of a registered type, which the reading has as well. -/
lemma type_of_reading {s : Spec} {r : Reading} (h : s.reading = .ok r) :
    Registry.builtin.hasCondition s.type = true ∧ s.type = r.typeName := by
  rw [hasCondition_eq]
  unfold reading at h
  split at h
  case h_1 htype | h_2 htype | h_3 htype =>
    obtain ⟨c, hc, rfl⟩ := map_eq_ok h
    obtain ⟨v, hv, -⟩ := json_of_decodeData hc
    obtain ⟨_, -, rfl⟩ := Decoder.json_map_eq_ok hv
    exact ⟨by rw [htype]; rfl, htype⟩
  case h_4 htype | h_5 htype | h_6 htype =>
    obtain ⟨_, -, rfl⟩ := map_eq_ok h
    exact ⟨by rw [htype]; rfl, htype⟩
  case h_7 => cases h

/-- What a spec that cannot be read is rejected with is a flaw of its own. -/
lemma flaw_of_reading {s : Spec} {e : BuildError} (h : s.reading = .error e) : s.Flaw e := by
  have hdata : ∀ {α : Type} {d : Decoder α} {f : α → Reading},
      Registry.builtin.hasCondition s.type = true →
        (Registry.decodeData s.type d s.data).map f = .error e → s.Flaw e := by
    intro α d f hregistered hd
    obtain ⟨cause, rfl⟩ := error_of_decodeData (map_eq_error hd)
    exact .unfit hregistered cause h
  have hread := h
  unfold reading at hread
  split at hread
  case h_7 hwait hfired hcompare hnot hall hany =>
    cases hread
    refine .unregistered ?_
    rw [hasCondition_eq]
    simp only [List.contains_eq_mem, List.mem_cons, List.not_mem_nil, or_false,
      decide_eq_false_iff_not, not_or]
    exact ⟨hwait, hfired, hcompare, hnot, hall, hany⟩
  all_goals
    rename_i htype
    exact hdata (by rw [hasCondition_eq, htype]; rfl) hread

end Spec

end WorkflowGraph
