import Mathlib.Data.List.Forall2
import Mathlib.Tactic.Lemma
import WorkflowGraph.Document

/-!
# What decoders take from a value

A record is filled in from parts of the value it is read from, and parts weigh less than the
whole.  So a property that the blank record has and that no field destroys, when it is read from
something lighter, holds of every record that is read (`Decoder.record_induction`).  With it the
specs found inside the data of a spec have less data than that spec, which is what makes building
conditions end.
-/

namespace WorkflowGraph

namespace Json

lemma weight_pos (v : Json) : 0 < v.weight := by
  cases v <;> simp only [weight] <;> omega

lemma weight_le_listWeight {items : List Json} {v : Json} (h : v ∈ items) :
    v.weight ≤ listWeight items := by
  induction items with
  | nil => cases h
  | cons item rest ih =>
    rw [listWeight]
    rcases List.mem_cons.mp h with rfl | h
    · omega
    · have := ih h
      omega

lemma weight_le_memberWeight {members : List (String × Json)} {member : String × Json}
    (h : member ∈ members) : member.2.weight ≤ memberWeight members := by
  induction members with
  | nil => cases h
  | cons other rest ih =>
    rw [memberWeight]
    rcases List.mem_cons.mp h with rfl | h
    · omega
    · have := ih h
      omega

lemma weight_lt_array {items : List Json} {v : Json} (h : v ∈ items) :
    v.weight < (Json.array items).weight := by
  have := weight_le_listWeight h
  rw [weight]
  omega

lemma weight_lt_object {members : List (String × Json)} {member : String × Json}
    (h : member ∈ members) : member.2.weight < (Json.object members).weight := by
  have := weight_le_memberWeight h
  rw [weight]
  omega

end Json

/-! ## Lists whose items may fail -/

section Results

variable {α β ε : Type} {f : α → Except ε β}

lemma bind_eq_ok {x : Except ε α} {b : β} (h : x >>= f = .ok b) :
    ∃ a, x = .ok a ∧ f a = .ok b := by
  cases x with
  | error e => cases h
  | ok a => exact ⟨a, rfl, h⟩

lemma bind_eq_error {x : Except ε α} {e : ε} (h : x >>= f = .error e) :
    x = .error e ∨ ∃ a, x = .ok a ∧ f a = .error e := by
  cases x with
  | error _ =>
    cases h
    exact .inl rfl
  | ok a => exact .inr ⟨a, rfl, h⟩

lemma map_eq_ok {x : Except ε α} {g : α → β} {b : β} (h : x.map g = .ok b) :
    ∃ a, x = .ok a ∧ b = g a := by
  cases x with
  | error e => cases h
  | ok a =>
    cases h
    exact ⟨a, rfl, rfl⟩

lemma map_eq_error {x : Except ε α} {g : α → β} {e : ε} (h : x.map g = .error e) :
    x = .error e := by
  cases x with
  | error _ =>
    cases h
    rfl
  | ok a => cases h

lemma mapM_eq_map {g : α → β} {xs : List α} (h : ∀ x ∈ xs, f x = .ok (g x)) :
    xs.mapM f = .ok (xs.map g) := by
  induction xs with
  | nil => rfl
  | cons x xs ih =>
    rw [List.mapM_cons, h x List.mem_cons_self, ih fun y hy => h y (List.mem_cons_of_mem _ hy)]
    rfl

/-- A list gives results if its items give them one by one. -/
lemma mapM_eq_ok_iff {xs : List α} {ys : List β} :
    xs.mapM f = .ok ys ↔ List.Forall₂ (fun x y => f x = .ok y) xs ys := by
  -- The results are peeled off along with the items.
  induction xs generalizing ys with
  | nil =>
    rw [List.forall₂_nil_left_iff]
    exact ⟨fun h => (Except.ok.inj h).symm, fun h => congrArg Except.ok h.symm⟩
  | cons x xs ih =>
    rw [List.mapM_cons, List.forall₂_cons_left_iff]
    constructor
    · intro h
      obtain ⟨y, hy, h⟩ := bind_eq_ok h
      obtain ⟨rest, hrest, h⟩ := bind_eq_ok h
      exact ⟨y, rest, hy, ih.mp hrest, (Except.ok.inj h).symm⟩
    · rintro ⟨y, rest, hy, hrest, rfl⟩
      rw [hy, ih.mpr hrest]
      rfl

/-- In lists that are related item by item, each item on the left is related to one on the
right. -/
lemma exists_of_forall₂ {R : α → β → Prop} {xs : List α} {ys : List β}
    (h : List.Forall₂ R xs ys) : ∀ x ∈ xs, ∃ y ∈ ys, R x y := by
  intro x hx
  obtain ⟨i, hi, rfl⟩ := List.mem_iff_getElem.mp hx
  have hy : i < ys.length := h.length_eq ▸ hi
  exact ⟨ys[i], List.getElem_mem hy, h.get hi hy⟩

lemma exists_of_mem_mapM {xs : List α} {ys : List β} (h : xs.mapM f = .ok ys) :
    ∀ y ∈ ys, ∃ x ∈ xs, f x = .ok y :=
  exists_of_forall₂ (R := fun y x => f x = .ok y) (mapM_eq_ok_iff.mp h).flip

lemma result_of_mapM {xs : List α} {ys : List β} (h : xs.mapM f = .ok ys) :
    ∀ x ∈ xs, ∃ y, f x = .ok y := by
  intro x hx
  obtain ⟨y, -, hy⟩ := exists_of_forall₂ (mapM_eq_ok_iff.mp h) x hx
  exact ⟨y, hy⟩

/-- If a list failed, it failed the way its first failing item does. -/
lemma first_failure_of_mapM {xs : List α} {e : ε} (h : xs.mapM f = .error e) :
    ∃ before x after, xs = before ++ x :: after ∧ (∀ y ∈ before, ∃ z, f y = .ok z) ∧
      f x = .error e := by
  induction xs with
  | nil => cases h
  | cons x xs ih =>
    rw [List.mapM_cons] at h
    rcases bind_eq_error h with hx | ⟨y, hy, h⟩
    · exact ⟨[], x, xs, rfl, nofun, hx⟩
    · rcases bind_eq_error h with hxs | ⟨ys, -, h⟩
      · obtain ⟨before, z, after, rfl, hbefore, hz⟩ := ih hxs
        exact ⟨x :: before, z, after, rfl, List.forall_mem_cons.mpr ⟨⟨y, hy⟩, hbefore⟩, hz⟩
      · cases h

lemma failure_of_mapM {xs : List α} {e : ε} (h : xs.mapM f = .error e) :
    ∃ x ∈ xs, f x = .error e := by
  obtain ⟨before, x, after, rfl, -, hx⟩ := first_failure_of_mapM h
  exact ⟨x, List.mem_append_right _ List.mem_cons_self, hx⟩

end Results

/-! ## Records -/

namespace Json.Decoder

variable {σ : Type} {P : σ → Prop} {bound : Nat}

/-- Reading a field of the list from something below the bound keeps the property. -/
def Keeps (P : σ → Prop) (bound : Nat) (fields : List (Field σ)) : Prop :=
  ∀ field ∈ fields, ∀ r r' v, v.weight < bound → P r → field.json r v = .ok r' → P r'

lemma Keeps.positions {fields : List (Field σ)} (hkeeps : Keeps P bound fields)
    {expected : String} {index : Nat} {r r' : σ} {items : List Json} {complete : Bool}
    (hitems : ∀ v ∈ items, v.weight < bound) (hr : P r)
    (h : positions expected fields index r items = .ok (r', complete)) : P r' := by
  induction fields generalizing index r items with
  | nil =>
    cases h
    exact hr
  | cons field fields ih =>
    cases items with
    | nil =>
      obtain ⟨_, -, h⟩ := bind_eq_ok h
      cases h
      exact hr
    | cons item items =>
      obtain ⟨next, hnext, h⟩ := bind_eq_ok h
      have hfirst : P next :=
        hkeeps field List.mem_cons_self r next item (hitems item List.mem_cons_self) hr hnext
      exact ih (fun f hf => hkeeps f (List.mem_cons_of_mem _ hf))
        (fun v hv => hitems v (List.mem_cons_of_mem _ hv)) hfirst h

lemma Keeps.members {fields : List (Field σ)} (hkeeps : Keeps P bound fields) {r r' : σ}
    {members : List (String × Json)} (hmembers : ∀ m ∈ members, m.2.weight < bound) (hr : P r)
    (h : members.foldlM (enterMember fields) r = .ok r') : P r' := by
  induction members generalizing r with
  | nil =>
    cases h
    exact hr
  | cons member members ih =>
    rw [List.foldlM_cons] at h
    obtain ⟨next, hnext, h⟩ := bind_eq_ok h
    refine ih (fun m hm => hmembers m (List.mem_cons_of_mem _ hm)) ?_ h
    rw [enterMember] at hnext
    split at hnext
    · rename_i field hfield
      exact hkeeps field (List.mem_of_find?_eq_some hfield) r next member.2
        (hmembers member List.mem_cons_self) hr hnext
    · cases hnext
      exact hr

/-- A property that the blank record has, and that no field destroys when it is read from
something lighter than the value, holds of the record that is read from the value. -/
lemma record_induction {name : String} {blank r : σ} {fields : List (Field σ)} {v : Json}
    (h : (record name blank fields).json v = .ok r) (hblank : P blank)
    (hkeeps : Keeps P v.weight fields) : P r := by
  cases v with
  | array items =>
    obtain ⟨⟨last, complete⟩, hlast, h⟩ := bind_eq_ok h
    have hP := hkeeps.positions (fun v hv => weight_lt_array hv) hblank hlast
    cases complete with
    | true =>
      cases h
      exact hP
    | false => cases h
  | object members =>
    obtain ⟨last, hlast, h⟩ := bind_eq_ok h
    obtain ⟨_, -, h⟩ := bind_eq_ok h
    cases h
    exact hkeeps.members (fun m hm => weight_lt_object hm) hblank hlast
  | null => cases h
  | boolean b => cases h
  | number n => cases h
  | string s => cases h

/-- A record whose first field has to be there is not read from a value without parts. -/
lemma one_lt_weight_of_record {name : String} {blank r : σ} {field : Field σ}
    {fields : List (Field σ)} {v : Json} (hrequired : field.required = true)
    (h : (record name blank (field :: fields)).json v = .ok r) : 1 < v.weight := by
  -- Without items or members the required field would be missing.
  cases v with
  | array items =>
    cases items with
    | nil =>
      obtain ⟨_, hlast, -⟩ := bind_eq_ok h
      obtain ⟨_, hnone, -⟩ := bind_eq_ok hlast
      rw [noneNeeded, if_pos hrequired] at hnone
      cases hnone
    | cons item items =>
      have := weight_lt_array (List.mem_cons_self (a := item) (l := items))
      have := weight_pos item
      omega
  | object members =>
    cases members with
    | nil =>
      obtain ⟨_, -, h⟩ := bind_eq_ok h
      obtain ⟨_, hseen, -⟩ := bind_eq_ok h
      rw [allSeen, List.find?_cons_of_pos (by simp [hrequired])] at hseen
      cases hseen
    | cons member members =>
      have := weight_lt_object (List.mem_cons_self (a := member) (l := members))
      have := weight_pos member.2
      omega
  | null => cases h
  | boolean b => cases h
  | number n => cases h
  | string s => cases h

lemma json_map_eq_ok {α β : Type} {f : α → β} {d : Decoder α} {v : Json} {b : β}
    (h : (d.map f).json v = .ok b) : ∃ a, d.json v = .ok a ∧ f a = b := by
  change (d.json v).map f = .ok b at h
  cases ha : d.json v with
  | error e =>
    rw [ha] at h
    cases h
  | ok a =>
    rw [ha] at h
    cases h
    exact ⟨a, rfl, rfl⟩

lemma make_json_eq_ok {α : Type} {required : Bool} {name : String} {d : Decoder α}
    {set : σ → α → σ} {r r' : σ} {v : Json}
    (h : (Field.make required name d set).json r v = .ok r') :
    ∃ a, d.json v = .ok a ∧ r' = set r a := by
  obtain ⟨a, ha, rfl⟩ := json_map_eq_ok (d := d) (f := set r) h
  exact ⟨a, ha, rfl⟩

end Json.Decoder

/-! ## Specs -/

namespace Spec

open Json

/-- The data of a spec weighs no more than what the spec is read from. -/
lemma weight_le_of_decoder {shape : String} {v : Json} {s : Spec}
    (h : (decoder shape).json v = .ok s) : s.data.weight ≤ v.weight := by
  refine Decoder.record_induction (P := fun s => s.data.weight ≤ v.weight) h ?_ ?_
  · exact weight_pos v
  · intro field hfield r r' part hpart hr hr'
    rcases List.mem_cons.mp hfield with rfl | hfield
    · obtain ⟨_, -, rfl⟩ := Decoder.make_json_eq_ok hr'
      exact hr
    · obtain rfl := List.mem_singleton.mp hfield
      obtain ⟨data, hdata, rfl⟩ := Decoder.make_json_eq_ok hr'
      cases hdata
      exact Nat.le_of_lt hpart

lemma decoder_toJson (shape : String) (s : Spec) : (decoder shape).json s.toJson = .ok s := by
  obtain ⟨type, data⟩ := s
  cases data <;> rfl

end Spec

end WorkflowGraph
