import Mathlib.Data.List.Nodup
import WorkflowGraph.Proofs.Decoding

/-!
# What is inside a value, and objects in order

An object that is read has its members in increasing order of their keys, whatever order they were
written in.  `Json.arranged` puts the members of every object inside a value in that order.  Under
distinct keys this is what entering them one by one comes to (`ofMembers_eq`), nothing is lost by
it (`byKey_perm`), and where the order is there already nothing moves (`arranged_eq`).

`Json.numbers` and `Json.keyLists` list what a premise about a value may have to speak of: the
numbers inside it and, object by object, the keys.
-/

namespace WorkflowGraph.Json

/-! ## The parts of a value -/

/-- Induction on the parts of a value. -/
@[elab_as_elim]
theorem inductionOn {motive : Json → Prop} (v : Json) (null : motive .null)
    (boolean : ∀ b, motive (.boolean b)) (number : ∀ n, motive (.number n))
    (string : ∀ s, motive (.string s))
    (array : ∀ items, (∀ item ∈ items, motive item) → motive (.array items))
    (object : ∀ members, (∀ m ∈ members, motive m.2) → motive (.object members)) : motive v :=
  match v with
  | .null => null
  | .boolean b => boolean b
  | .number n => number n
  | .string s => string s
  | .array items => array items fun item hitem =>
      have := weight_lt_array hitem
      inductionOn item null boolean number string array object
  | .object members => object members fun m hm =>
      have := weight_lt_object hm
      inductionOn m.2 null boolean number string array object
termination_by v.weight

mutual

/-- How many containers are open at a time in the text of a value. -/
def nesting : Json → Nat
  | .array items => listNesting items + 1
  | .object members => memberNesting members + 1
  | _ => 0

/-- How deep the items of an array nest. -/
def listNesting : List Json → Nat
  | [] => 0
  | item :: rest => max item.nesting (listNesting rest)

/-- How deep the members of an object nest. -/
def memberNesting : List (String × Json) → Nat
  | [] => 0
  | (_, value) :: rest => max value.nesting (memberNesting rest)

end

lemma nesting_le_of_array {items : List Json} {limit : Nat}
    (h : (Json.array items).nesting ≤ limit + 1) : ∀ item ∈ items, item.nesting ≤ limit := by
  rw [nesting, Nat.add_le_add_iff_right] at h
  induction items with
  | nil => exact List.forall_mem_nil _
  | cons first rest ih =>
    rw [listNesting, Nat.max_le] at h
    exact List.forall_mem_cons.mpr ⟨h.1, ih h.2⟩

lemma nesting_le_of_object {members : List (String × Json)} {limit : Nat}
    (h : (Json.object members).nesting ≤ limit + 1) : ∀ m ∈ members, m.2.nesting ≤ limit := by
  rw [nesting, Nat.add_le_add_iff_right] at h
  induction members with
  | nil => exact List.forall_mem_nil _
  | cons first rest ih =>
    rw [memberNesting, Nat.max_le] at h
    exact List.forall_mem_cons.mpr ⟨h.1, ih h.2⟩

mutual

/-- The value and all values inside it. -/
def parts : Json → List Json
  | .array items => .array items :: listParts items
  | .object members => .object members :: memberParts members
  | v => [v]

/-- The items of an array and all values inside them. -/
def listParts : List Json → List Json
  | [] => []
  | item :: rest => item.parts ++ listParts rest

/-- The values of the members of an object and all values inside them. -/
def memberParts : List (String × Json) → List Json
  | [] => []
  | (_, value) :: rest => value.parts ++ memberParts rest

end

lemma listParts_eq (items : List Json) : listParts items = items.flatMap parts := by
  induction items with
  | nil => rfl
  | cons item rest ih => rw [listParts, ih, List.flatMap_cons]

lemma memberParts_eq (members : List (String × Json)) :
    memberParts members = members.flatMap (·.2.parts) := by
  induction members with
  | nil => rfl
  | cons m rest ih => rw [memberParts, ih, List.flatMap_cons]

/-- The numbers inside a value. -/
def numbers (v : Json) : List Number :=
  v.parts.filterMap fun
    | .number n => some n
    | _ => none

/-- The keys of the objects inside a value, object by object. -/
def keyLists (v : Json) : List (List String) :=
  v.parts.filterMap fun
    | .object members => some (members.map (·.1))
    | _ => none

@[simp] lemma numbers_array (items : List Json) :
    (Json.array items).numbers = items.flatMap numbers := by
  rw [numbers, parts, List.filterMap_cons, listParts_eq, List.filterMap_flatMap]
  rfl

@[simp] lemma numbers_object (members : List (String × Json)) :
    (Json.object members).numbers = members.flatMap (·.2.numbers) := by
  rw [numbers, parts, List.filterMap_cons, memberParts_eq, List.filterMap_flatMap]
  rfl

@[simp] lemma keyLists_array (items : List Json) :
    (Json.array items).keyLists = items.flatMap keyLists := by
  rw [keyLists, parts, List.filterMap_cons, listParts_eq, List.filterMap_flatMap]
  rfl

@[simp] lemma keyLists_object (members : List (String × Json)) :
    (Json.object members).keyLists = members.map (·.1) :: members.flatMap (·.2.keyLists) := by
  rw [keyLists, parts, List.filterMap_cons, memberParts_eq, List.filterMap_flatMap]
  rfl

/-! ## Objects in order -/

/-- Members in increasing order of their keys. -/
def byKey (members : List (String × Json)) : List (String × Json) :=
  members.mergeSort fun m m' => decide (m.1 ≤ m'.1)

mutual

/-- The value with the members of all its objects in increasing order of their keys. -/
def arranged : Json → Json
  | .array items => .array (arrangedItems items)
  | .object members => .object (byKey (arrangedMembers members))
  | v => v

/-- The items of an array, arranged. -/
def arrangedItems : List Json → List Json
  | [] => []
  | item :: rest => item.arranged :: arrangedItems rest

/-- The members of an object with arranged values. -/
def arrangedMembers : List (String × Json) → List (String × Json)
  | [] => []
  | (key, value) :: rest => (key, value.arranged) :: arrangedMembers rest

end

lemma arrangedItems_eq (items : List Json) : arrangedItems items = items.map arranged := by
  induction items with
  | nil => rfl
  | cons item rest ih => rw [arrangedItems, ih, List.map_cons]

lemma arrangedMembers_eq (members : List (String × Json)) :
    arrangedMembers members = members.map fun (key, value) => (key, value.arranged) := by
  induction members with
  | nil => rfl
  | cons m rest ih => rw [arrangedMembers, ih, List.map_cons]

/-- The keys of the members do not decrease. -/
def Ascending (members : List (String × Json)) : Prop :=
  members.Pairwise fun m m' => m.1 ≤ m'.1

lemma enter_perm {key : String} {members : List (String × Json)}
    (fresh : key ∉ members.map (·.1)) (value : Json) :
    (enter key value members).Perm ((key, value) :: members) := by
  induction members with
  | nil => exact .refl _
  | cons m rest ih =>
    obtain ⟨k, v⟩ := m
    rw [List.map_cons, List.mem_cons, not_or] at fresh
    by_cases hlt : key < k
    · rw [enter, if_pos hlt]
    · rw [enter, if_neg hlt, if_neg fresh.1]
      exact ((ih fresh.2).cons (k, v)).trans (.swap _ _ _)

lemma Ascending.enter {key : String} {value : Json} {members : List (String × Json)}
    (ascending : Ascending members) (fresh : key ∉ members.map (·.1)) :
    Ascending (enter key value members) := by
  induction members with
  | nil => exact List.pairwise_singleton _ _
  | cons m rest ih =>
    obtain ⟨k, v⟩ := m
    obtain ⟨hfirst, hrest⟩ := List.pairwise_cons.mp ascending
    rw [List.map_cons, List.mem_cons, not_or] at fresh
    by_cases hlt : key < k
    · rw [Json.enter, if_pos hlt]
      refine List.pairwise_cons.mpr ⟨fun m hm => ?_, ascending⟩
      have hle : key ≤ k := String.not_lt.mp (String.lt_asymm hlt)
      rcases List.mem_cons.mp hm with rfl | hm
      · exact hle
      · exact String.le_trans hle (hfirst m hm)
    · rw [Json.enter, if_neg hlt, if_neg fresh.1]
      refine List.pairwise_cons.mpr ⟨fun m hm => ?_, ih hrest fresh.2⟩
      rcases List.mem_cons.mp ((enter_perm fresh.2 value).mem_iff.mp hm) with rfl | hm
      · exact String.not_lt.mp hlt
      · exact hfirst m hm

/-- Entering members under distinct keys keeps them all, in increasing order. -/
lemma foldl_enter (members entered : List (String × Json))
    (distinct : ((entered ++ members).map (·.1)).Nodup) (ascending : Ascending entered) :
    (members.foldl (fun entered (k, v) => enter k v entered) entered).Perm (entered ++ members) ∧
      Ascending (members.foldl (fun entered (k, v) => enter k v entered) entered) := by
  induction members generalizing entered with
  | nil => exact ⟨by rw [List.append_nil]; rfl, ascending⟩
  | cons m rest ih =>
    obtain ⟨k, v⟩ := m
    have hperm : (entered ++ (k, v) :: rest).Perm ((k, v) :: entered ++ rest) :=
      List.perm_middle
    have hnodup := (hperm.map (·.1)).nodup_iff.mp distinct
    have fresh : k ∉ entered.map (·.1) := by
      rw [List.cons_append, List.map_cons, List.nodup_cons, List.map_append] at hnodup
      exact fun h => hnodup.1 (List.mem_append_left _ h)
    have hentered := (enter_perm fresh v).append_right rest
    obtain ⟨hrest, hascending⟩ := ih _ ((hentered.map (·.1)).nodup_iff.mpr hnodup)
      (ascending.enter fresh)
    exact ⟨hrest.trans (hentered.trans hperm.symm), hascending⟩

lemma byKey_perm (members : List (String × Json)) : (byKey members).Perm members :=
  List.mergeSort_perm _ _

lemma ascending_byKey (members : List (String × Json)) : Ascending (byKey members) := by
  refine (List.pairwise_mergeSort ?_ ?_ members).imp of_decide_eq_true
  · intro a b c hab hbc
    exact decide_eq_true (String.le_trans (of_decide_eq_true hab) (of_decide_eq_true hbc))
  · intro a b
    simpa using String.le_total a.1 b.1

lemma eq_of_ascending {members members' : List (String × Json)}
    (distinct : (members.map (·.1)).Nodup) (hperm : members.Perm members')
    (h : Ascending members) (h' : Ascending members') : members = members' := by
  refine hperm.eq_of_pairwise (fun m m' hm hm' hle hge => ?_) h h'
  have hkey : m.1 = m'.1 := String.le_antisymm hle hge
  exact List.inj_on_of_nodup_map distinct hm (hperm.mem_iff.mpr hm') hkey

lemma ofMembers_eq {members : List (String × Json)} (distinct : (members.map (·.1)).Nodup) :
    ofMembers members = .object (byKey members) := by
  obtain ⟨hperm, hascending⟩ := foldl_enter members [] distinct List.Pairwise.nil
  have hnodup := (hperm.map (·.1)).nodup_iff.mpr distinct
  exact congrArg Json.object (eq_of_ascending hnodup (hperm.trans (byKey_perm members).symm)
    hascending (ascending_byKey members))

/-- Nothing moves in a value whose objects have their keys in increasing order. -/
lemma arranged_eq {v : Json} (increasing : ∀ keys ∈ v.keyLists, keys.Pairwise (· < ·)) :
    v.arranged = v := by
  induction v using inductionOn with
  | null => rfl
  | boolean b => rfl
  | number n => rfl
  | string s => rfl
  | array items ih =>
    rw [keyLists_array, List.forall_mem_flatMap] at increasing
    have hitems : items.map arranged = items.map id :=
      List.map_congr_left fun item hitem => ih item hitem (increasing item hitem)
    rw [arranged, arrangedItems_eq, hitems, List.map_id]
  | object members ih =>
    rw [keyLists_object, List.forall_mem_cons, List.forall_mem_flatMap] at increasing
    obtain ⟨hkeys, hvalues⟩ := increasing
    have hmembers : arrangedMembers members = members := by
      rw [arrangedMembers_eq]
      refine Eq.trans (List.map_congr_left fun m hm => ?_) (List.map_id members)
      exact congrArg (m.1, ·) (ih m hm (hvalues m hm))
    have hascending : Ascending members := (List.pairwise_map.mp hkeys).imp fun hlt =>
      String.not_lt.mp (String.lt_asymm hlt)
    rw [arranged, hmembers, byKey, List.mergeSort_of_pairwise]
    exact hascending.imp decide_eq_true

end WorkflowGraph.Json
