import Mathlib.Tactic.Lemma
import WorkflowGraph.Registry

/-!
# What recipes come to

`Registry.Yields` is the meaning of recipes, apart from how they are followed: every question is
answered by the maker that is registered for the type, or by the error that there is none, and the
recipe goes on with the answer.  `Registry.MakesCondition` and `Registry.MakesBehaviour` say so of a
single spec.

The registry follows recipes to these results and to no others (`Registry.follow_eq_some_iff`), so
that a build has no result exactly if there is none that its recipe could come to.
-/

namespace WorkflowGraph

namespace Registry

/-- A recipe comes to a result, when its questions are answered by the makers of the registry. -/
inductive Yields (r : Registry) : {α : Type} → Recipe α → Except BuildError α → Prop
  | done {α : Type} (result : Except BuildError α) : Yields r (.done result) result
  | condition {α : Type} {s : Spec} {maker : ConditionMaker}
    {next : Except BuildError Condition → Recipe α} {answer : Except BuildError Condition}
    {result : Except BuildError α} (known : r.conditions[s.type]? = some maker)
    (asked : Yields r (maker s.data) answer) (rest : Yields r (next answer) result) :
    Yields r (.condition s next) result
  | unknownCondition {α : Type} {s : Spec} {next : Except BuildError Condition → Recipe α}
    {result : Except BuildError α} (unknown : r.conditions[s.type]? = none)
    (rest : Yields r (next (.error (.unknownCondition s.type))) result) :
    Yields r (.condition s next) result
  | behaviour {α : Type} {guid : Guid} {s : Spec} {maker : NodeMaker}
    {next : Except BuildError Behaviour → Recipe α} {answer : Except BuildError Behaviour}
    {result : Except BuildError α} (known : r.nodes[s.type]? = some maker)
    (asked : Yields r (maker s.data) answer) (rest : Yields r (next answer) result) :
    Yields r (.behaviour guid s next) result
  | unknownNode {α : Type} {guid : Guid} {s : Spec} {next : Except BuildError Behaviour → Recipe α}
    {result : Except BuildError α} (unknown : r.nodes[s.type]? = none)
    (rest : Yields r (next (.error (.unknownNode guid s.type))) result) :
    Yields r (.behaviour guid s next) result
  | types {α : Type} {next : List String → List String → Recipe α} {result : Except BuildError α}
    (rest : Yields r (next r.nodeTypes r.conditionTypes) result) : Yields r (.types next) result

/-- Building the condition of a spec comes to a result: that of the maker which is registered for
its type, or the error that none is. -/
def MakesCondition (r : Registry) (s : Spec) (result : Except BuildError Condition) : Prop :=
  match r.conditions[s.type]? with
  | none => result = .error (.unknownCondition s.type)
  | some maker => r.Yields (maker s.data) result

/-- Building the behaviour of a node comes to a result. -/
def MakesBehaviour (r : Registry) (guid : Guid) (s : Spec) (result : Except BuildError Behaviour) :
    Prop :=
  match r.nodes[s.type]? with
  | none => result = .error (.unknownNode guid s.type)
  | some maker => r.Yields (maker s.data) result

variable {r : Registry} {α β : Type}

/-! ## Questions and their answers -/

lemma makesCondition_iff_of_maker {s : Spec} {maker : ConditionMaker}
    (known : r.conditions[s.type]? = some maker) {result : Except BuildError Condition} :
    r.MakesCondition s result ↔ r.Yields (maker s.data) result := by
  rw [MakesCondition, known]

lemma makesCondition_iff_of_unknown {s : Spec} (unknown : r.conditions[s.type]? = none)
    {result : Except BuildError Condition} :
    r.MakesCondition s result ↔ result = .error (.unknownCondition s.type) := by
  rw [MakesCondition, unknown]

lemma makesBehaviour_iff_of_maker {s : Spec} {maker : NodeMaker}
    (known : r.nodes[s.type]? = some maker) {guid : Guid} {result : Except BuildError Behaviour} :
    r.MakesBehaviour guid s result ↔ r.Yields (maker s.data) result := by
  rw [MakesBehaviour, known]

lemma makesBehaviour_iff_of_unknown {s : Spec} (unknown : r.nodes[s.type]? = none) {guid : Guid}
    {result : Except BuildError Behaviour} :
    r.MakesBehaviour guid s result ↔ result = .error (.unknownNode guid s.type) := by
  rw [MakesBehaviour, unknown]

lemma Yields.of_makesCondition {s : Spec} {next : Except BuildError Condition → Recipe α}
    {answer : Except BuildError Condition} {result : Except BuildError α}
    (asked : r.MakesCondition s answer) (rest : r.Yields (next answer) result) :
    r.Yields (.condition s next) result := by
  cases found : r.conditions[s.type]? with
  | none => exact .unknownCondition found ((makesCondition_iff_of_unknown found).mp asked ▸ rest)
  | some maker => exact .condition found ((makesCondition_iff_of_maker found).mp asked) rest

lemma Yields.of_makesBehaviour {guid : Guid} {s : Spec}
    {next : Except BuildError Behaviour → Recipe α} {answer : Except BuildError Behaviour}
    {result : Except BuildError α} (asked : r.MakesBehaviour guid s answer)
    (rest : r.Yields (next answer) result) : r.Yields (.behaviour guid s next) result := by
  cases found : r.nodes[s.type]? with
  | none => exact .unknownNode found ((makesBehaviour_iff_of_unknown found).mp asked ▸ rest)
  | some maker => exact .behaviour found ((makesBehaviour_iff_of_maker found).mp asked) rest

/-! ## Following recipes -/

/-- Whatever is reached by following is what the recipe comes to. -/
lemma yields_of_follow {x : Recipe α} {result : Except BuildError α}
    (h : r.follow x = some result) : r.Yields x result := by
  refine follow.partial_correctness r (fun x result => r.Yields x result) ?_ x result h
  clear h
  -- What is shown for the fixed point is shown for one unfolding, given it for what it calls.
  intro follow hfollow α x result h
  cases x with
  | done result' =>
    cases h
    exact .done _
  | condition s next =>
    dsimp only at h
    cases found : r.conditions[s.type]? with
    | none =>
      rw [found] at h
      exact .unknownCondition found (hfollow _ _ h)
    | some maker =>
      rw [found] at h
      obtain ⟨answer, hanswer, hrest⟩ := Option.bind_eq_some_iff.mp h
      exact .condition found (hfollow _ _ hanswer) (hfollow _ _ hrest)
  | behaviour guid s next =>
    dsimp only at h
    cases found : r.nodes[s.type]? with
    | none =>
      rw [found] at h
      exact .unknownNode found (hfollow _ _ h)
    | some maker =>
      rw [found] at h
      obtain ⟨answer, hanswer, hrest⟩ := Option.bind_eq_some_iff.mp h
      exact .behaviour found (hfollow _ _ hanswer) (hfollow _ _ hrest)
  | types next => exact .types (hfollow _ _ h)

lemma follow_done (result : Except BuildError α) : r.follow (.done result) = some result := by
  rw [follow]

lemma condition?_of_maker {s : Spec} {maker : ConditionMaker}
    (known : r.conditions[s.type]? = some maker) : r.condition? s = r.follow (maker s.data) := by
  rw [condition?, follow, known]
  simp only [follow_done]
  exact Option.bind_fun_some _

lemma condition?_of_unknown {s : Spec} (unknown : r.conditions[s.type]? = none) :
    r.condition? s = some (.error (.unknownCondition s.type)) := by
  rw [condition?, follow, unknown]
  exact follow_done _

lemma behaviour?_of_maker {s : Spec} {maker : NodeMaker} (known : r.nodes[s.type]? = some maker)
    (guid : Guid) : r.behaviour? guid s = r.follow (maker s.data) := by
  rw [behaviour?, follow, known]
  simp only [follow_done]
  exact Option.bind_fun_some _

lemma behaviour?_of_unknown {s : Spec} (unknown : r.nodes[s.type]? = none) (guid : Guid) :
    r.behaviour? guid s = some (.error (.unknownNode guid s.type)) := by
  rw [behaviour?, follow, unknown]
  exact follow_done _

lemma follow_condition (s : Spec) (next : Except BuildError Condition → Recipe α) :
    r.follow (.condition s next) = (r.condition? s).bind fun answer => r.follow (next answer) := by
  rw [follow]
  cases found : r.conditions[s.type]? with
  | none => rw [condition?_of_unknown found, Option.bind_some]
  | some maker =>
    rw [condition?_of_maker found]
    rfl

lemma follow_behaviour (guid : Guid) (s : Spec) (next : Except BuildError Behaviour → Recipe α) :
    r.follow (.behaviour guid s next) =
      (r.behaviour? guid s).bind fun answer => r.follow (next answer) := by
  rw [follow]
  cases found : r.nodes[s.type]? with
  | none => rw [behaviour?_of_unknown found, Option.bind_some]
  | some maker =>
    rw [behaviour?_of_maker found]
    rfl

lemma follow_of_yields {x : Recipe α} {result : Except BuildError α} (h : r.Yields x result) :
    r.follow x = some result := by
  induction h with
  | done result => exact follow_done result
  | condition known _ _ hasked hrest =>
    rw [follow_condition, condition?_of_maker known, hasked]
    exact hrest
  | unknownCondition unknown _ hrest =>
    rw [follow_condition, condition?_of_unknown unknown]
    exact hrest
  | behaviour known _ _ hasked hrest =>
    rw [follow_behaviour, behaviour?_of_maker known, hasked]
    exact hrest
  | unknownNode unknown _ hrest =>
    rw [follow_behaviour, behaviour?_of_unknown unknown]
    exact hrest
  | types _ hrest =>
    rw [follow]
    exact hrest

/-- A registry follows recipes to what they come to. -/
theorem follow_eq_some_iff {x : Recipe α} {result : Except BuildError α} :
    r.follow x = some result ↔ r.Yields x result :=
  ⟨yields_of_follow, follow_of_yields⟩

lemma condition?_eq_some_iff {s : Spec} {result : Except BuildError Condition} :
    r.condition? s = some result ↔ r.MakesCondition s result := by
  cases found : r.conditions[s.type]? with
  | none =>
    rw [condition?_of_unknown found, makesCondition_iff_of_unknown found, Option.some.injEq,
      eq_comm]
  | some maker =>
    rw [condition?_of_maker found, makesCondition_iff_of_maker found, follow_eq_some_iff]

lemma behaviour?_eq_some_iff {guid : Guid} {s : Spec} {result : Except BuildError Behaviour} :
    r.behaviour? guid s = some result ↔ r.MakesBehaviour guid s result := by
  cases found : r.nodes[s.type]? with
  | none =>
    rw [behaviour?_of_unknown found, makesBehaviour_iff_of_unknown found, Option.some.injEq,
      eq_comm]
  | some maker =>
    rw [behaviour?_of_maker found, makesBehaviour_iff_of_maker found, follow_eq_some_iff]

/-- A node is what its maker makes, if that asks nothing. -/
lemma makeNode_of_maker {a : AuthoredNode} {s : Spec} {maker : NodeMaker} {b : Behaviour}
    (given : a.node = some s) (known : r.nodes[s.type]? = some maker)
    (made : maker s.data = .done (.ok b)) :
    r.makeNode a = .ok { guid := a.guid, position := a.position, behaviour := some b } := by
  rw [makeNode, given, whenGiven, makeBehaviour, behaviour?_of_maker known, made, follow_done]
  rfl

lemma MakesCondition.unique {s : Spec} {x y : Except BuildError Condition}
    (hx : r.MakesCondition s x) (hy : r.MakesCondition s y) : x = y :=
  Option.some.inj ((condition?_eq_some_iff.mpr hx).symm.trans (condition?_eq_some_iff.mpr hy))

lemma MakesBehaviour.unique {guid : Guid} {s : Spec} {x y : Except BuildError Behaviour}
    (hx : r.MakesBehaviour guid s x) (hy : r.MakesBehaviour guid s y) : x = y :=
  Option.some.inj ((behaviour?_eq_some_iff.mpr hx).symm.trans (behaviour?_eq_some_iff.mpr hy))

/-! ## Results -/

lemma settle_eq_ok_iff {type : String} {outcome : Option (Except BuildError α)} {a : α} :
    settle type outcome = .ok a ↔ outcome = some (.ok a) := by
  cases outcome with
  | none => exact ⟨nofun, nofun⟩
  | some result => exact ⟨congrArg some, Option.some.inj⟩

lemma makeCondition_eq_ok_iff {s : Spec} {c : Condition} :
    r.makeCondition s = .ok c ↔ r.MakesCondition s (.ok c) :=
  settle_eq_ok_iff.trans condition?_eq_some_iff

lemma makeBehaviour_eq_ok_iff {guid : Guid} {s : Spec} {b : Behaviour} :
    r.makeBehaviour guid s = .ok b ↔ r.MakesBehaviour guid s (.ok b) :=
  settle_eq_ok_iff.trans behaviour?_eq_some_iff

/-! ## Recipes one after the other -/

/-- What is done after a recipe is done with its result, unless that is an error. -/
lemma follow_bind (x : Recipe α) (f : α → Recipe β) :
    r.follow (x >>= f) = (r.follow x).bind fun
      | .ok a => r.follow (f a)
      | .error e => some (.error e) := by
  induction x with
  | done result =>
    rw [follow_done]
    cases result with
    | ok a => rfl
    | error e => exact follow_done _
  | condition s next ih =>
    rw [follow_condition, Option.bind_assoc]
    refine (follow_condition s _).trans ?_
    exact congrArg _ (funext ih)
  | behaviour guid s next ih =>
    rw [follow_behaviour, Option.bind_assoc]
    refine (follow_behaviour guid s _).trans ?_
    exact congrArg _ (funext ih)
  | types next ih =>
    have hrest := ih r.nodeTypes r.conditionTypes
    rw [follow]
    show r.follow (Recipe.bind (.types next) f) = _
    rw [Recipe.bind, follow]
    exact hrest

lemma follow_build (s : Spec) : r.follow (.build s) = r.condition? s := by
  rw [Recipe.build, follow_condition]
  simp only [follow_done]
  exact Option.bind_fun_some _

/-- If the parts of a list can be built, in the sense that this ends, so can the list. -/
lemma follow_buildAll {parts : List Spec} {g : Spec → Except BuildError Condition}
    (h : ∀ p ∈ parts, r.condition? p = some (g p)) :
    r.follow (.buildAll parts) = some (parts.mapM g) := by
  induction parts with
  | nil => exact follow_done _
  | cons p rest ih =>
    have hrest := ih fun q hq => h q (List.mem_cons_of_mem _ hq)
    rw [Recipe.buildAll, follow_bind, follow_build, h p List.mem_cons_self, List.mapM_cons]
    cases g p with
    | error e => rfl
    | ok c =>
      show r.follow (Recipe.buildAll rest >>= fun cs => pure (c :: cs)) = _
      rw [follow_bind, hrest]
      cases rest.mapM g with
      | error e => rfl
      | ok cs => exact follow_done _

end Registry

end WorkflowGraph
