import Mathlib.Data.List.Induction
import Mathlib.Data.List.Nodup
import Mathlib.Tactic.Lemma
import WorkflowGraph.Blackboard

/-!
# Laying entries over entries

A list of entries says two things: in which order its keys come up, and which value a key has where
it occurs last (`Entry.valueOf?`).  Laying one list over another keeps both of the two lists put
one behind the other, and leaves no key twice (`Entry.keys_overlay`, `Entry.valueOf?_overlay`).
A list without a key twice is nothing but these two (`Entry.eq_of_valueOf?`), and so every law of
overlays is one of the order in which keys come up and one of the values
(`Entry.overlay_lawful`).
-/

namespace List

variable {α : Type} [DecidableEq α]

lemma eraseDups_concat (l : List α) (a : α) :
    (l ++ [a]).eraseDups = if a ∈ l then l.eraseDups else l.eraseDups ++ [a] := by
  rw [eraseDups_append]
  by_cases h : a ∈ l
  · simp [removeAll, h]
  · simp [removeAll, h, eraseDups_cons]

lemma nodup_eraseDups (l : List α) : l.eraseDups.Nodup := by
  induction l using reverseRecOn with
  | nil => simp
  | append_singleton l a ih =>
      rw [eraseDups_concat]
      by_cases h : a ∈ l
      · rwa [if_pos h]
      · rw [if_neg h, ← concat_eq_append]
        exact ih.concat (by simpa using h)

lemma eraseDups_of_nodup {l : List α} (nodup : l.Nodup) : l.eraseDups = l := by
  induction l using reverseRecOn with
  | nil => simp
  | append_singleton l a ih =>
      have hsplit := nodup_append.mp nodup
      have hnew : a ∉ l := fun h => hsplit.2.2 a h a mem_cons_self rfl
      rw [eraseDups_concat, if_neg hnew, ih hsplit.1]

/-- What comes up twice in the second part may be left out there already. -/
lemma eraseDups_append_eraseDups (l l' : List α) :
    (l ++ l'.eraseDups).eraseDups = (l ++ l').eraseDups := by
  induction l' using reverseRecOn with
  | nil => simp
  | append_singleton l' a ih =>
      rw [eraseDups_concat, ← append_assoc, eraseDups_concat]
      by_cases hown : a ∈ l'
      · rw [if_pos hown, ih, if_pos (mem_append_right l hown)]
      · have hmem : a ∈ l ++ l'.eraseDups ↔ a ∈ l ++ l' := by simp
        rw [if_neg hown, ← append_assoc, eraseDups_concat, ih]
        exact if_congr hmem rfl rfl

lemma eraseDups_eraseDups_append (l l' : List α) :
    (l.eraseDups ++ l').eraseDups = (l ++ l').eraseDups := by
  induction l' using reverseRecOn with
  | nil => simpa using eraseDups_append_eraseDups [] l
  | append_singleton l' a ih =>
      have hmem : a ∈ l.eraseDups ++ l' ↔ a ∈ l ++ l' := by simp
      rw [← append_assoc, ← append_assoc, eraseDups_concat, eraseDups_concat, ih]
      exact if_congr hmem rfl rfl

lemma eraseDups_append_self (l : List α) : (l ++ l).eraseDups = l.eraseDups := by
  have hnone : l.removeAll l = [] := filter_eq_nil_iff.mpr fun a ha => by simp [ha]
  rw [eraseDups_append, hnone, eraseDups_nil, append_nil]

end List

namespace WorkflowGraph

namespace Entry

/-- The keys of entries, in their order. -/
def keys (entries : List Entry) : List String := entries.map (·.key)

/-- The value that a key has where it occurs last. -/
def valueOf? (entries : List Entry) (key : String) : Option Seed :=
  (entries.findRev? fun e => e.key == key).map (·.value)

variable {entries : List Entry}

/-! ## Keys and values of a list -/

lemma keys_append (d o : List Entry) : keys (d ++ o) = keys d ++ keys o := List.map_append

lemma valueOf?_append (d o : List Entry) (key : String) :
    valueOf? (d ++ o) key = (valueOf? o key).or (valueOf? d key) := by
  simp only [valueOf?, List.findRev?_eq_find?_reverse, List.reverse_append, List.find?_append]
  cases o.reverse.find? fun e => e.key == key <;> rfl

lemma valueOf?_concat (entries : List Entry) (e : Entry) (key : String) :
    valueOf? (entries ++ [e]) key = if e.key = key then some e.value else valueOf? entries key := by
  by_cases h : e.key = key
  · simp [valueOf?, List.findRev?_eq_find?_reverse, h]
  · simp [valueOf?, List.findRev?_eq_find?_reverse, h]

lemma isSome_valueOf?_iff (key : String) : (valueOf? entries key).isSome ↔ key ∈ keys entries := by
  simp [valueOf?, keys, List.findRev?_eq_find?_reverse]

lemma valueOf?_of_mem (nodup : (keys entries).Nodup) {e : Entry} (he : e ∈ entries) :
    valueOf? entries e.key = some e.value := by
  obtain ⟨v, hv⟩ := Option.isSome_iff_exists.mp
    ((isSome_valueOf?_iff e.key).mpr (List.mem_map_of_mem he))
  rw [valueOf?, List.findRev?_eq_find?_reverse] at hv
  obtain ⟨found, hfound, rfl⟩ := Option.map_eq_some_iff.mp hv
  have hmem : found ∈ entries := List.mem_reverse.mp (List.mem_of_find?_eq_some hfound)
  have hkey : found.key = e.key := by simpa using List.find?_some hfound
  obtain rfl := List.inj_on_of_nodup_map nodup hmem he hkey
  rw [valueOf?, List.findRev?_eq_find?_reverse, hfound]
  rfl

lemma filterMap_valueOf? (nodup : (keys entries).Nodup) :
    (keys entries).filterMap (fun key => (valueOf? entries key).map (Entry.mk key)) = entries := by
  rw [keys, List.filterMap_map]
  refine Eq.trans (List.filterMap_congr fun e he => ?_) List.filterMap_some
  rw [Function.comp_apply, valueOf?_of_mem nodup he]
  rfl

lemma eq_of_valueOf? {entries' : List Entry} (nodup : (keys entries).Nodup)
    (hkeys : keys entries = keys entries')
    (values : ∀ key, valueOf? entries key = valueOf? entries' key) : entries = entries' := by
  have hown := filterMap_valueOf? nodup
  have hother := filterMap_valueOf? (hkeys ▸ nodup)
  simp only [hkeys, values] at hown
  exact hown.symm.trans hother

/-! ## Places -/

/-- Enters a value: in place of the first one with the same key, or at the end. -/
def place : List Entry → Entry → List Entry
  | [], e => [e]
  | x :: xs, e => if x.key = e.key then { x with value := e.value } :: xs else x :: place xs e

lemma place_of_findIdx? {e : Entry} {i : Nat}
    (found : entries.findIdx? (fun x => x.key == e.key) = some i) :
    place entries e = entries.modify i fun x => { x with value := e.value } := by
  induction entries generalizing i with
  | nil => cases found
  | cons x rest ih =>
      rw [List.findIdx?_cons] at found
      by_cases h : x.key = e.key
      · simp only [beq_iff_eq, h, if_true, Option.some.injEq] at found
        subst found
        rw [place, if_pos h, List.modify_zero_cons]
      · simp only [beq_iff_eq, h, if_false, Option.map_eq_some_iff] at found
        obtain ⟨j, hj, rfl⟩ := found
        rw [place, if_neg h, List.modify_succ_cons, ih hj]

lemma place_of_new {e : Entry} (new : entries.findIdx? (fun x => x.key == e.key) = none) :
    place entries e = entries ++ [e] := by
  induction entries with
  | nil => rfl
  | cons x rest ih =>
      rw [List.findIdx?_cons] at new
      by_cases h : x.key = e.key
      · simp [h] at new
      · simp only [beq_iff_eq, h, if_false, Option.map_eq_none_iff] at new
        rw [place, if_neg h, ih new, List.cons_append]

/-- The index finds the place of a key that a search through the list would find. -/
lemma entries_put (m : Merging) (e : Entry) : (m.put e).entries = place m.entries e := by
  unfold Merging.put
  split
  · next i found => exact (place_of_findIdx? (m.places_eq e.key ▸ found)).symm
  · next new => exact (place_of_new (m.places_eq e.key ▸ new)).symm

lemma overlay_eq_foldl (d o : List Entry) : overlay d o = (d ++ o).foldl place [] :=
  (List.foldl_hom Merging.entries fun m e => (entries_put m e).symm).symm

/-! ## Keys and values of an overlay -/

/-- Placing an entry adds its key at the end, unless it is there. -/
lemma keys_place (entries : List Entry) (e : Entry) :
    keys (place entries e) =
      if e.key ∈ keys entries then keys entries else keys entries ++ [e.key] := by
  induction entries with
  | nil => rfl
  | cons x rest ih =>
      by_cases h : x.key = e.key
      · simp [place, keys, h]
      · have hother : e.key ≠ x.key := Ne.symm h
        simp only [keys] at ih
        by_cases hrest : e.key ∈ rest.map (·.key)
        · simp [place, keys, h, hrest, ih]
        · simp [place, keys, h, hother, hrest, ih]

/-- Placing an entry changes the value of its key and no other. -/
lemma valueOf?_place (nodup : (keys entries).Nodup) (e : Entry) (key : String) :
    valueOf? (place entries e) key =
      if e.key = key then some e.value else valueOf? entries key := by
  induction entries with
  | nil => exact valueOf?_concat [] e key
  | cons x rest ih =>
      obtain ⟨hnew, hrest⟩ := List.nodup_cons.mp nodup
      -- Read from the front, so that a later entry for the key wins.
      have hcons : ∀ (y : Entry) (l : List Entry), valueOf? (y :: l) key =
          (valueOf? l key).or (if y.key = key then some y.value else none) := by
        intro y l
        have hone := valueOf?_concat [] y key
        rw [← List.singleton_append, valueOf?_append]
        exact congrArg _ hone
      by_cases h : x.key = e.key
      · rw [place, if_pos h, hcons, hcons]
        by_cases hkey : e.key = key
        · -- The key does not come up a second time.
          have hnone : valueOf? rest key = none := by
            rw [← Option.not_isSome_iff_eq_none, isSome_valueOf?_iff]
            rwa [← hkey, ← h]
          simp [h, hkey, hnone]
        · simp [h, hkey]
      · rw [place, if_neg h, hcons, hcons, ih hrest]
        by_cases hkey : e.key = key
        · simp [hkey]
        · simp [hkey]

lemma overlay_eq (d o : List Entry) : overlay d o = overlay [] (d ++ o) := rfl

lemma overlay_concat (entries : List Entry) (e : Entry) :
    overlay [] (entries ++ [e]) = place (overlay [] entries) e := by
  rw [overlay_eq_foldl, overlay_eq_foldl]
  exact List.foldl_concat place [] e entries

lemma keys_overlay (d o : List Entry) : keys (overlay d o) = (keys d ++ keys o).eraseDups := by
  rw [overlay_eq, ← keys_append]
  induction d ++ o using List.reverseRecOn with
  | nil => rfl
  | append_singleton entries e ih =>
      have hmem : e.key ∈ (keys entries).eraseDups ↔ e.key ∈ keys entries := List.mem_eraseDups
      have hone : keys [e] = [e.key] := rfl
      rw [overlay_concat, keys_place, ih, keys_append, hone, List.eraseDups_concat]
      exact if_congr hmem rfl rfl

lemma nodup_keys_overlay (d o : List Entry) : (keys (overlay d o)).Nodup := by
  rw [keys_overlay]
  exact List.nodup_eraseDups _

lemma valueOf?_overlay (d o : List Entry) (key : String) :
    valueOf? (overlay d o) key = valueOf? (d ++ o) key := by
  rw [overlay_eq]
  induction d ++ o using List.reverseRecOn with
  | nil => rfl
  | append_singleton entries e ih =>
      rw [overlay_concat, valueOf?_place (nodup_keys_overlay [] entries), ih, valueOf?_concat]

/-- A list is an overlay if it has no key twice, and the keys and values of the two lists. -/
lemma eq_overlay {d o : List Entry} (nodup : (keys entries).Nodup)
    (hkeys : keys entries = (keys d ++ keys o).eraseDups)
    (values : ∀ key, valueOf? entries key = (valueOf? o key).or (valueOf? d key)) :
    entries = overlay d o := by
  apply eq_of_valueOf? nodup
  · rw [hkeys, keys_overlay]
  · intro key
    rw [values, valueOf?_overlay, valueOf?_append]

/-! ## The laws -/

lemma overlay_assoc (d o p : List Entry) :
    overlay (overlay d o) p = overlay d (overlay o p) := by
  apply eq_overlay (nodup_keys_overlay _ p)
  · rw [keys_overlay, keys_overlay, keys_overlay, List.eraseDups_eraseDups_append,
      List.eraseDups_append_eraseDups, List.append_assoc]
  · intro key
    rw [valueOf?_overlay, valueOf?_append, valueOf?_overlay, valueOf?_append, valueOf?_overlay,
      valueOf?_append, Option.or_assoc]

/-- Entries without a key twice are left as they are by nothing, and by themselves. -/
lemma overlay_self (nodup : (keys entries).Nodup) :
    overlay entries [] = entries ∧ overlay [] entries = entries ∧
      overlay entries entries = entries := by
  have hdups : keys entries = (keys entries).eraseDups := (List.eraseDups_of_nodup nodup).symm
  refine ⟨(eq_overlay nodup ?_ ?_).symm, (eq_overlay nodup ?_ ?_).symm,
    (eq_overlay nodup ?_ ?_).symm⟩
  · rwa [keys.eq_def [], List.map_nil, List.append_nil]
  · exact fun key => rfl
  · exact hdups
  · exact fun key => (Option.or_none).symm
  · rwa [List.eraseDups_append_self]
  · exact fun key => (Option.or_self).symm

end Entry

namespace Blackboard

/-- Entries that are written one after the other leave the value of each key where it occurs last,
and all else as it is. -/
lemma getElem?_writeAll (b : Blackboard) (entries : List Entry) (key : String) :
    (b.writeAll entries)[key]? = ((Entry.valueOf? entries key).map .seed).or b[key]? := by
  induction entries using List.reverseRecOn with
  | nil => rfl
  | append_singleton entries e ih =>
      rw [writeAll, List.foldl_concat, Entry.valueOf?_concat]
      show (((b.writeAll entries).insert e.key (.seed e.value)) : Blackboard)[key]? = _
      rw [Std.ExtTreeMap.getElem?_insert]
      by_cases h : e.key = key
      · simp [h]
      · simp [h, ih]

lemma writeAll_append (b : Blackboard) (d o : List Entry) :
    b.writeAll (d ++ o) = (b.writeAll d).writeAll o := List.foldl_append

lemma writeAll_overlay (b : Blackboard) (d o : List Entry) :
    b.writeAll (Entry.overlay d o) = (b.writeAll d).writeAll o := by
  rw [← writeAll_append]
  apply Std.ExtTreeMap.ext_getElem?
  intro key
  rw [getElem?_writeAll, getElem?_writeAll, Entry.valueOf?_overlay]

end Blackboard

/-- **Overlays are well-behaved.**  For all lists of entries

* the keys of an overlay are those of the two lists, in the order in which they first come up and
  each of them once; each has the value of its last occurrence;
* overlays are associative, and an overlay is left as it is by laying nothing over it, by laying it
  over nothing, and by laying it over itself;
* writing the overlay of two lists into a blackboard comes to the same as writing the one and then
  the other. -/
theorem Entry.overlay_lawful (d o p : List Entry) :
    ((keys (overlay d o)).Nodup ∧ keys (overlay d o) = (keys (d ++ o)).eraseDups ∧
      ∀ e ∈ overlay d o, valueOf? (d ++ o) e.key = some e.value) ∧
    overlay (overlay d o) p = overlay d (overlay o p) ∧
    (overlay (overlay d o) [] = overlay d o ∧ overlay [] (overlay d o) = overlay d o ∧
      overlay (overlay d o) (overlay d o) = overlay d o) ∧
    ∀ b : Blackboard, b.writeAll (overlay d o) = (b.writeAll d).writeAll o := by
  have hnodup := nodup_keys_overlay d o
  refine ⟨⟨hnodup, ?_, ?_⟩, overlay_assoc d o p, overlay_self hnodup, ?_⟩
  · rw [keys_append, keys_overlay]
  · intro e he
    rw [← valueOf?_overlay]
    exact valueOf?_of_mem hnodup he
  · exact fun b => b.writeAll_overlay d o

/-- A key that is set twice and a key that is overridden keep their places and take the values that
they have last. -/
theorem Entry.overlay_lawful_hours :
    let d : List Entry := [⟨"hour", .int 9⟩, ⟨"bell", .bool true⟩, ⟨"hour", .int 10⟩]
    let o : List Entry := [⟨"bell", .string "loud"⟩, ⟨"guest", .int 1⟩]
    let merged : List Entry := [⟨"hour", .int 10⟩, ⟨"bell", .string "loud"⟩, ⟨"guest", .int 1⟩]
    overlay d o = merged ∧ valueOf? (d ++ o) "hour" = some (.int 10) ∧
      overlay merged merged = merged ∧
      ∀ b : Blackboard, b.writeAll merged = (b.writeAll d).writeAll o := by
  intro d o merged
  have hmerged : overlay d o = merged := by
    rw [overlay_eq_foldl]
    rfl
  obtain ⟨⟨-, -, hvalues⟩, -, ⟨-, -, hself⟩, hwrites⟩ := overlay_lawful d o []
  have hhour : (⟨"hour", .int 10⟩ : Entry) ∈ overlay d o := by
    rw [hmerged]
    exact List.mem_cons_self
  rw [hmerged] at hself hwrites
  exact ⟨hmerged, hvalues _ hhour, hself, hwrites⟩

end WorkflowGraph
