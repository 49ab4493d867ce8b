import WorkflowGraph.Proofs.Rereading

/-!
# Documents read back

A document that is saved and loaded again is the document it was (`Document.ofText_toText`).

Decoders are put together from decoders of the parts of a type, and so are the lemmas about them:
each says of one decoder what it takes the text of a value for (`Decoder.Reads`).  For a record this
goes member by member.  `Fills` lists what the members of an object do to a record under
construction, among them that what is left out was not needed: an absent entry, absent data and an
absent condition are written as no member at all, and come back as what the blank record has.

Two things are taken from outside.  A floating-point number has to be read back by the reader of
numbers (`Number.ReadsBack`), which it is not always.  And data holds what such values can hold:
integers of at most 64 bits, finite numbers, and objects without a key twice.
-/

namespace WorkflowGraph

namespace Json

variable {α β σ : Type}

namespace Decoder

/-! ## Plain values -/

lemma string_reads (s : String) : string.Reads (.string s) s := by
  intro limit _ gap rest depth hgap _
  rw [List.append_assoc, string_text, string]
  dsimp only
  rw [skipSpace_append hgap (by decide)]
  exact readString_quote s rest

lemma boolean_reads (b : Bool) : boolean.Reads (.boolean b) b := by
  intro limit _ gap rest depth hgap _
  cases b with
  | true =>
    rw [List.append_assoc, true_text, boolean]
    dsimp only
    rw [skipSpace_append hgap (by decide)]
    change expect ['r', 'u', 'e'] _ >>= _ = _
    rw [expect_append]
    rfl
  | false =>
    rw [List.append_assoc, false_text, boolean]
    dsimp only
    rw [skipSpace_append hgap (by decide)]
    change expect ['a', 'l', 's', 'e'] _ >>= _ = _
    rw [expect_append]
    rfl

/-- A number is taken for what the decoder accepts its text as. -/
lemma number_reads {expected : String} {accept : Number → Except Mismatch α} {n read : Number}
    {a : α} (hread : n.reread = some read) (ha : accept read = .ok a) :
    (number expected accept).Reads (.number n) a := by
  intro limit _ gap rest depth hgap hrest
  obtain ⟨c, cs, htext, hc, hnumber⟩ := number_text hread depth hrest
  have hspace : isSpace c = false := by
    rcases hc with rfl | hc
    · rfl
    · exact isSpace_of_isDigit hc
  rw [List.append_assoc, htext, number]
  dsimp only
  rw [skipSpace_append hgap hspace]
  dsimp only
  rw [if_pos hc, hnumber]
  simp only [bind, Except.bind, ha]
  rfl

lemma map_reads {d : Decoder α} {v : Json} {a : α} (h : d.Reads v a) (f : α → β) :
    (d.map f).Reads v (f a) := by
  intro limit hlimit gap rest depth hgap hrest
  change (d.text limit _).map _ = _
  rw [h hlimit depth hgap hrest]
  rfl

lemma int32_reads (n : Int32) : int32.Reads (.number (.integer n.toInt)) n := by
  have hlow := n.le_toInt
  have hhigh := n.toInt_lt
  have hinteger : (integer "i32" (-2147483648) 2147483647).Reads (.number (.integer n.toInt))
      n.toInt :=
    number_reads (Number.reread_integer (by omega) (by omega)) (if_pos (by omega))
  have := map_reads hinteger Int32.ofInt
  rwa [Int32.ofInt_toInt] at this

lemma single_reads {x : Float32} (h : (Number.single x).ReadsBack) :
    single.Reads (.number (.single x)) x := by
  obtain ⟨read, hread, hx⟩ := Number.reread_single h
  exact number_reads hread (congrArg _ hx)

lemma variant_reads {options : List (String × α)} {name : String} {a : α}
    (h : variantOf options name = .ok a) : (variant options).Reads (.string name) a := by
  intro limit _ gap rest depth hgap _
  rw [List.append_assoc, string_text, variant]
  dsimp only
  rw [skipSpace_append hgap (by decide)]
  change readString _ >>= _ = _
  rw [readString_quote]
  simp only [bind, Except.bind, h]

/-! ## Lists and absent values -/

lemma list_reads {d : Decoder α} {f : β → Json} {g : β → α} {xs : List β}
    (hbegins : ∀ x ∈ xs, (f x).Begins) (hreads : ∀ x ∈ xs, d.Reads (f x) (g x)) :
    (list d).Reads (.array (xs.map f)) (xs.map g) := by
  intro limit hlimit gap rest depth hgap _
  obtain ⟨limit, rfl⟩ := Nat.exists_eq_add_one.mpr (Nat.zero_lt_of_lt hlimit)
  have hinside : ∀ x ∈ xs, ReadsAs (d.text limit) (f x) (g x) := fun x hx =>
    hreads x hx (nesting_le_of_array hlimit (f x) (List.mem_map_of_mem hx))
  rw [List.append_assoc, array_text, list]
  dsimp only
  rw [skipSpace_append hgap (by decide)]
  exact readItems_continuation hbegins hinside true depth rest (Nat.lt_add_one _)

lemma optional_none (d : Decoder α) : (optional d).Reads .null none := by
  intro limit _ gap rest depth hgap _
  rw [List.append_assoc, null_text, optional]
  dsimp only
  rw [skipSpace_append hgap (by decide)]
  change expect ['u', 'l', 'l'] _ >>= _ = _
  rw [expect_append]
  rfl

lemma optional_some {d : Decoder α} {v : Json} {a : α} {c : Char} (hopens : v.Opens c)
    (hspace : isSpace c = false) (hc : c ≠ 'n') (h : d.Reads v a) :
    (optional d).Reads v (some a) := by
  intro limit hlimit gap rest depth hgap hrest
  obtain ⟨cs, htext⟩ := hopens depth
  have hinside := h hlimit depth blank_nil hrest
  rw [htext, List.nil_append, List.cons_append] at hinside
  rw [List.append_assoc, htext, List.cons_append]
  simp [optional, skipSpace_append hgap hspace, hc, hinside, Except.map]

end Decoder

/-! ## Records -/

/-- The field takes the text of `v` for what makes the record `r` into `r'`. -/
def Field.Reads (field : Field σ) (r : σ) (v : Json) (r' : σ) : Prop :=
  ∀ ⦃limit : Nat⦄, v.nesting ≤ limit → ReadsAs (field.text limit r) v r'

lemma Field.make_reads {d : Decoder α} {v : Json} {a : α} (h : d.Reads v a) (required : Bool)
    (name : String) (set : σ → α → σ) (r : σ) :
    (Field.make required name d set).Reads r v (set r a) := by
  intro limit hlimit gap rest depth hgap hrest
  change (d.text limit _).map _ = _
  rw [h hlimit depth hgap hrest]
  rfl

/-- The members fill a record in, from what it is when the listed names have been seen.  Each is
read by the field of its name, no field is filled in twice and none that is needed is left out. -/
inductive Fills (fields : List (Field σ)) : List String → σ → List (String × Json) → σ → Prop
  | done {seen : List String} {r : σ} (complete : Decoder.allSeen fields seen = .ok ()) :
    Fills fields seen r [] r
  | enter {seen : List String} {r r' last : σ} {name : String} {v : Json} {field : Field σ}
    {members : List (String × Json)} (named : fields.find? (·.name == name) = some field)
    (fresh : seen.contains name = false) (reads : field.Reads r v r')
    (others : Fills fields (name :: seen) r' members last) :
    Fills fields seen r ((name, v) :: members) last

namespace Decoder

lemma readFields_continuation {fields : List (Field σ)} {seen : List String} {r last : σ}
    {members : List (String × Json)} (fills : Fills fields seen r members last) {limit : Nat}
    (hlimit : ∀ m ∈ members, m.2.nesting ≤ limit) {fuel : Nat} (first : Bool) (depth : Nat)
    (rest : List Char)
    (hfuel : (continuation '\x7d' depth first (prettyMembers (depth + 1) members) ++ rest).length <
      fuel) :
    readFields fields limit fuel seen r
        (continuation '\x7d' depth first (prettyMembers (depth + 1) members) ++ rest) first =
      .ok (last, rest) := by
  obtain ⟨fuel, rfl⟩ := Nat.exists_eq_add_one.mpr (Nat.zero_lt_of_lt hfuel)
  induction fills generalizing fuel first with
  -- The brace that closes the object: all fields have been seen, or have a default.
  | done complete =>
    rw [readFields, prettyMembers, nextKey_stop]
    change faulty (allSeen fields _) >>= _ = _
    rw [complete]
    rfl
  | @enter seen r r' last name v field members named fresh reads others ih =>
    rw [List.forall_mem_cons] at hlimit
    have hvalue := reads hlimit.1 (depth + 1) blank_space
      (stops_continuation '\x7d' depth (prettyMembers (depth + 1) members) rest)
    have hless := length_continuation_lt hfuel
    obtain ⟨fuel, rfl⟩ := Nat.exists_eq_add_one.mpr (Nat.zero_lt_of_lt hless)
    have hrest := ih hlimit.2 false fuel hless
    rw [readFields, continuation_member, nextKey_next]
    simp only [bind, Except.bind, named, fresh, Bool.false_eq_true, if_false]
    change field.text limit r _ >>= _ = _
    rw [hvalue]
    exact hrest

/-- A record is taken for what the members of its object fill in. -/
lemma record_reads {name : String} {blank r : σ} {fields : List (Field σ)}
    {members : List (String × Json)} (fills : Fills fields [] blank members r) :
    (record name blank fields).Reads (.object members) r := by
  intro limit hlimit gap rest depth hgap _
  obtain ⟨limit, rfl⟩ := Nat.exists_eq_add_one.mpr (Nat.zero_lt_of_lt hlimit)
  rw [List.append_assoc, object_text, record]
  dsimp only
  rw [skipSpace_append hgap (by decide)]
  exact readFields_continuation fills (nesting_le_of_object hlimit) true depth rest
    (Nat.lt_add_one _)

lemma fromText_pretty {d : Decoder α} {v : Json} {a : α} (h : d.Reads v a)
    (hnests : v.nesting ≤ depthLimit) : d.fromText v.pretty = .ok a := by
  have htext := h hnests 0 blank_nil stops_nil
  rw [List.append_nil, List.nil_append] at htext
  rw [fromText, pretty, String.toList_ofList, htext]
  rfl

end Decoder

end Json

/-! ## Seeds and entries -/

namespace Seed

open Json

lemma plainJson_reads {s : Seed} (h : ∀ x, s = .float x → (Number.single x).ReadsBack) :
    ∃ k, Decoder.variantOf kinds s.kind = .ok k ∧ (ofKind k).Reads s.plainJson s := by
  cases s with
  | int n => exact ⟨.int, rfl, Decoder.map_reads (Decoder.int32_reads n) _⟩
  | float x => exact ⟨.float, rfl, Decoder.map_reads (Decoder.single_reads (h x rfl)) _⟩
  | bool b => exact ⟨.bool, rfl, Decoder.map_reads (Decoder.boolean_reads b) _⟩
  | string s => exact ⟨.string, rfl, Decoder.map_reads (Decoder.string_reads s) _⟩

lemma readMembers_type {name : String} {k : Kind} (h : Decoder.variantOf kinds name = .ok k)
    (limit fuel : Nat) (first : Bool) (depth : Nat) (members : List (String × Json))
    (rest : List Char) :
    readMembers limit (fuel + 1) .nothing
        (continuation '\x7d' depth first
          (prettyMembers (depth + 1) (("type", .string name) :: members)) ++ rest) first =
      readMembers limit fuel (.kind k)
        (continuation '\x7d' depth false (prettyMembers (depth + 1) members) ++ rest) false := by
  have htype := Decoder.variant_reads h (Nat.zero_le limit) (depth + 1) blank_space
    (stops_continuation '\x7d' depth (prettyMembers (depth + 1) members) rest)
  rw [readMembers, continuation_member, nextKey_next]
  change (Decoder.variant kinds).text limit _ >>= _ = _
  rw [htype]
  rfl

lemma readMembers_value {k : Kind} {v : Json} {s : Seed} (h : (ofKind k).Reads v s) {limit : Nat}
    (hlimit : v.nesting ≤ limit) (fuel : Nat) (first : Bool) (depth : Nat)
    (members : List (String × Json)) (rest : List Char) :
    readMembers limit (fuel + 1) (.kind k)
        (continuation '\x7d' depth first (prettyMembers (depth + 1) (("value", v) :: members)) ++
          rest) first =
      readMembers limit fuel (.seed s)
        (continuation '\x7d' depth false (prettyMembers (depth + 1) members) ++ rest) false := by
  have hvalue := h hlimit (depth + 1) blank_space
    (stops_continuation '\x7d' depth (prettyMembers (depth + 1) members) rest)
  rw [readMembers, continuation_member, nextKey_next]
  change (ofKind k).text limit _ >>= _ = _
  rw [hvalue]
  rfl

/-- The two members of a seed are read one after the other. -/
lemma readMembers_pair {name : String} {k : Kind} {v : Json} {s : Seed}
    (hkind : Decoder.variantOf kinds name = .ok k) (hplain : (ofKind k).Reads v s) {limit : Nat}
    (hlimit : v.nesting ≤ limit) {fuel : Nat} (depth : Nat) (rest : List Char)
    (hfuel : (continuation '\x7d' depth true
      (prettyMembers (depth + 1) [("type", .string name), ("value", v)]) ++ rest).length < fuel) :
    readMembers limit fuel .nothing
        (continuation '\x7d' depth true
          (prettyMembers (depth + 1) [("type", .string name), ("value", v)]) ++ rest) true =
      .ok (s, rest) := by
  obtain ⟨fuel, rfl⟩ := Nat.exists_eq_add_one.mpr (Nat.zero_lt_of_lt hfuel)
  have hsecond := length_continuation_lt hfuel
  obtain ⟨fuel, rfl⟩ := Nat.exists_eq_add_one.mpr (Nat.zero_lt_of_lt hsecond)
  have hlast := length_continuation_lt hsecond
  obtain ⟨fuel, rfl⟩ := Nat.exists_eq_add_one.mpr (Nat.zero_lt_of_lt hlast)
  rw [readMembers_type hkind, readMembers_value hplain hlimit, readMembers, prettyMembers,
    nextKey_stop]
  rfl

lemma decoder_reads {s : Seed} (h : ∀ x, s = .float x → (Number.single x).ReadsBack) :
    decoder.Reads s.toJson s := by
  intro limit hlimit gap rest depth hgap _
  obtain ⟨limit, rfl⟩ := Nat.exists_eq_add_one.mpr (Nat.zero_lt_of_lt hlimit)
  obtain ⟨k, hkind, hplain⟩ := plainJson_reads h
  have hvalue : s.plainJson.nesting ≤ limit :=
    nesting_le_of_object hlimit ("value", s.plainJson) (List.mem_cons_of_mem _ List.mem_cons_self)
  rw [List.append_assoc, toJson, object_text, decoder]
  dsimp only
  rw [skipSpace_append hgap (by decide)]
  exact readMembers_pair hkind hplain hvalue depth rest (Nat.lt_add_one _)

end Seed

namespace Entry

open Json

lemma decoder_reads {e : Entry} (h : ∀ x, e.value = .float x → (Number.single x).ReadsBack) :
    decoder.Reads e.toJson e :=
  Decoder.record_reads <| .enter rfl rfl (Field.make_reads (Decoder.string_reads e.key) ..) <|
    .enter rfl rfl (Field.make_reads (Seed.decoder_reads h) ..) (.done rfl)

end Entry

/-! ## Specs, nodes and edges -/

namespace Position

open Json

/-- A position can be written when its coordinates are read back. -/
def ReadsBack (p : Position) : Prop :=
  (Number.single p.x).ReadsBack ∧ (Number.single p.y).ReadsBack

lemma decoder_reads {p : Position} (h : p.ReadsBack) : decoder.Reads p.toJson p :=
  Decoder.record_reads <| .enter rfl rfl (Field.make_reads (Decoder.single_reads h.1) ..) <|
    .enter rfl rfl (Field.make_reads (Decoder.single_reads h.2) ..) (.done rfl)

end Position

namespace Spec

open Json

/-- The spec with arranged data. -/
def arranged (s : Spec) : Spec := { s with data := s.data.arranged }

lemma decoder_reads {s : Spec} (h : s.data.Legible) (shape : String) :
    (decoder shape).Reads s.toJson s.arranged := by
  obtain ⟨type, data⟩ := s
  have hdata := Json.any_reads h
  cases data with
  | null =>
    exact Decoder.record_reads <|
      .enter rfl rfl (Field.make_reads (Decoder.string_reads type) ..) (.done rfl)
  | _ =>
    exact Decoder.record_reads <|
      .enter rfl rfl (Field.make_reads (Decoder.string_reads type) ..) <|
        .enter rfl rfl (Field.make_reads hdata ..) (.done rfl)

lemma optional_reads {s : Spec} (h : s.data.Legible) (shape : String) :
    (Decoder.optional (decoder shape)).Reads s.toJson (some s.arranged) := by
  have hopens : s.toJson.Opens '\x7b' := by
    rw [toJson]
    split <;> exact opens_object _
  exact Decoder.optional_some hopens (by decide) (by decide) (decoder_reads h shape)

end Spec

namespace AuthoredNode

open Json

/-- The node with arranged data. -/
def arranged (d : AuthoredNode) : AuthoredNode := { d with node := d.node.map Spec.arranged }

lemma node_reads {spec : Option Spec} (h : ∀ s ∈ spec, s.data.Legible) :
    (Decoder.optional Spec.ofNode).Reads ((spec.map Spec.toJson).getD .null)
      (spec.map Spec.arranged) := by
  cases spec with
  | none => exact Decoder.optional_none _
  | some s => exact Spec.optional_reads (h s rfl) _

lemma decoder_reads {d : AuthoredNode} (hposition : d.position.ReadsBack)
    (hnode : ∀ s ∈ d.node, s.data.Legible) : decoder.Reads d.toJson d.arranged :=
  Decoder.record_reads <| .enter rfl rfl (Field.make_reads (Decoder.string_reads d.guid) ..) <|
    .enter rfl rfl (Field.make_reads (Position.decoder_reads hposition) ..) <|
      .enter rfl rfl (Field.make_reads (node_reads hnode) ..) (.done rfl)

end AuthoredNode

namespace AuthoredEdge

open Json

/-- The edge with arranged data. -/
def arranged (d : AuthoredEdge) : AuthoredEdge :=
  { d with condition := d.condition.map Spec.arranged }

lemma decoder_reads {d : AuthoredEdge} (h : ∀ s ∈ d.condition, s.data.Legible) :
    decoder.Reads d.toJson d.arranged := by
  obtain ⟨guid, source, port, target, condition⟩ := d
  have hguid := Decoder.string_reads guid
  have hsource := Decoder.string_reads source
  have hport := Decoder.string_reads port
  have htarget := Decoder.string_reads target
  cases condition with
  | none =>
    exact Decoder.record_reads <| .enter rfl rfl (Field.make_reads hguid ..) <|
      .enter rfl rfl (Field.make_reads hsource ..) <|
        .enter rfl rfl (Field.make_reads hport ..) <|
          .enter rfl rfl (Field.make_reads htarget ..) (.done rfl)
  | some s =>
    have hcondition := Spec.optional_reads (h s rfl) "ConditionSpec"
    exact Decoder.record_reads <| .enter rfl rfl (Field.make_reads hguid ..) <|
      .enter rfl rfl (Field.make_reads hsource ..) <|
        .enter rfl rfl (Field.make_reads hport ..) <|
          .enter rfl rfl (Field.make_reads htarget ..) <|
            .enter rfl rfl (Field.make_reads hcondition ..) (.done rfl)

end AuthoredEdge

/-! ## Documents -/

/-- A number as the data of a spec can hold it: an integer of at most 64 bits or a finite 64-bit
floating-point number. -/
def Number.Storable : Number → Prop
  | .integer n => -9223372036854775808 ≤ n ∧ n < 18446744073709551616
  | .single _ => False
  | .double x => x.isFinite = true

instance : DecidablePred Number.Storable
  | .integer n => inferInstanceAs (Decidable (_ ≤ n ∧ n < _))
  | .single _ => inferInstanceAs (Decidable False)
  | .double x => inferInstanceAs (Decidable (x.isFinite = true))

/-- Whether the number is a finite floating-point number. -/
def Number.isFiniteFloat : Number → Bool
  | .integer _ => false
  | .single x => x.isFinite
  | .double x => x.isFinite

namespace Document

open Json

/-- The document with the members of all objects inside its data in increasing order of their
keys. -/
def arranged (d : Document) : Document :=
  { d with
    nodes := d.nodes.map AuthoredNode.arranged
    edges := d.edges.map AuthoredEdge.arranged }

/-- The 32-bit numbers of a document: its positions and the floating-point defaults. -/
def singles (d : Document) : List Float32 :=
  d.nodes.flatMap (fun node => [node.position.x, node.position.y]) ++
    d.defaults.filterMap fun e =>
      match e.value with
      | .float x => some x
      | _ => none

/-- The data of the nodes and conditions of a document. -/
def payloads (d : Document) : List Json :=
  (d.nodes.filterMap (·.node) ++ d.edges.filterMap (·.condition)).map (·.data)

/-- The numbers of a document, its integer defaults apart. -/
def numbers (d : Document) : List Number :=
  d.singles.map .single ++ d.payloads.flatMap Json.numbers

section Contents

variable {d : Document} {node : AuthoredNode} {edge : AuthoredEdge} {e : Entry} {s : Spec}

lemma coordinates_mem_singles (hnode : node ∈ d.nodes) :
    node.position.x ∈ d.singles ∧ node.position.y ∈ d.singles := by
  have hmem : ∀ x ∈ [node.position.x, node.position.y], x ∈ d.singles := fun x hx =>
    List.mem_append_left _ (List.mem_flatMap_of_mem hnode hx)
  exact ⟨hmem _ List.mem_cons_self, hmem _ (List.mem_cons_of_mem _ List.mem_cons_self)⟩

lemma float_mem_singles {x : Float32} (he : e ∈ d.defaults) (hx : e.value = .float x) :
    x ∈ d.singles :=
  List.mem_append_right _ (List.mem_filterMap.mpr ⟨e, he, by rw [hx]⟩)

lemma data_mem_of_node (hnode : node ∈ d.nodes) (hs : s ∈ node.node) : s.data ∈ d.payloads :=
  List.mem_map_of_mem (List.mem_append_left _ (List.mem_filterMap.mpr ⟨node, hnode, hs⟩))

lemma data_mem_of_edge (hedge : edge ∈ d.edges) (hs : s ∈ edge.condition) :
    s.data ∈ d.payloads :=
  List.mem_map_of_mem (List.mem_append_right _ (List.mem_filterMap.mpr ⟨edge, hedge, hs⟩))

end Contents

lemma decoder_reads {d : Document} (hsingles : ∀ x ∈ d.singles, (Number.single x).ReadsBack)
    (hdata : ∀ v ∈ d.payloads, v.Legible) : decoder.Reads d.toJson d.arranged := by
  have hnodes : (Decoder.list AuthoredNode.decoder).Reads
      (.array (d.nodes.map AuthoredNode.toJson)) (d.nodes.map AuthoredNode.arranged) :=
    Decoder.list_reads (fun _ _ => begins_object _) fun node hnode =>
      AuthoredNode.decoder_reads
        ⟨hsingles _ (coordinates_mem_singles hnode).1, hsingles _ (coordinates_mem_singles hnode).2⟩
        fun s hs => hdata _ (data_mem_of_node hnode hs)
  have hedges : (Decoder.list AuthoredEdge.decoder).Reads
      (.array (d.edges.map AuthoredEdge.toJson)) (d.edges.map AuthoredEdge.arranged) :=
    Decoder.list_reads (fun _ _ => begins_object _) fun edge hedge =>
      AuthoredEdge.decoder_reads fun s hs => hdata _ (data_mem_of_edge hedge hs)
  have hdefaults : (Decoder.list Entry.decoder).Reads
      (.array (d.defaults.map Entry.toJson)) (d.defaults.map id) :=
    Decoder.list_reads (fun _ _ => begins_object _) fun e he =>
      Entry.decoder_reads fun x hx => hsingles x (float_mem_singles he hx)
  rw [List.map_id] at hdefaults
  -- An entry that is not given is left out of the text, so the text has two shapes.
  obtain ⟨entry, nodes, edges, defaults⟩ := d
  cases entry with
  | none =>
    exact Decoder.record_reads <| .enter rfl rfl (Field.make_reads hnodes ..) <|
      .enter rfl rfl (Field.make_reads hedges ..) <|
        .enter rfl rfl (Field.make_reads hdefaults ..) (.done rfl)
  | some entry =>
    have hentry : (Decoder.optional .string).Reads (.string entry) (some entry) :=
      Decoder.optional_some (opens_string entry) (by decide) (by decide)
        (Decoder.string_reads entry)
    exact Decoder.record_reads <| .enter rfl rfl (Field.make_reads hentry ..) <|
      .enter rfl rfl (Field.make_reads hnodes ..) <|
        .enter rfl rfl (Field.make_reads hedges ..) <|
          .enter rfl rfl (Field.make_reads hdefaults ..) (.done rfl)

/-- Nothing moves in a document whose data has its keys in increasing order. -/
lemma arranged_eq {d : Document}
    (increasing : ∀ v ∈ d.payloads, ∀ keys ∈ v.keyLists, keys.Pairwise (· < ·)) :
    d.arranged = d := by
  have hspecs : ∀ spec : Option Spec, (∀ s ∈ spec, s.data ∈ d.payloads) →
      spec.map Spec.arranged = spec := by
    intro spec hspec
    cases spec with
    | none => rfl
    | some s =>
      have hdata : s.data.arranged = s.data := Json.arranged_eq (increasing _ (hspec s rfl))
      simp [Spec.arranged, hdata]
  have hnodes : d.nodes.map AuthoredNode.arranged = d.nodes.map id := by
    refine List.map_congr_left fun node hnode => ?_
    rw [AuthoredNode.arranged, hspecs node.node fun s hs => data_mem_of_node hnode hs]
    rfl
  have hedges : d.edges.map AuthoredEdge.arranged = d.edges.map id := by
    refine List.map_congr_left fun edge hedge => ?_
    rw [AuthoredEdge.arranged, hspecs edge.condition fun s hs => data_mem_of_edge hedge hs]
    rfl
  rw [arranged, hnodes, hedges, List.map_id, List.map_id]

/-- **A document is read back as it was written.**  A number that is no finite one is written
`null`, and a reader may be off in the last place of a floating-point number, so both are premises.
Objects inside data come back with their members in increasing order of keys, which is how they are
held in the first place. -/
theorem ofText_toText (d : Document) (finite : ∀ x ∈ d.singles, x.isFinite = true)
    (stored : ∀ v ∈ d.payloads, ∀ n ∈ v.numbers, n.Storable)
    (distinct : ∀ v ∈ d.payloads, ∀ keys ∈ v.keyLists, keys.Nodup)
    (nests : d.toJson.nesting ≤ 127)
    (readsBack : ∀ n ∈ d.numbers, n.isFiniteFloat = true → n.ReadsBack) :
    ofText d.toText = .ok d.arranged ∧
      ((∀ v ∈ d.payloads, ∀ keys ∈ v.keyLists, keys.Pairwise (· < ·)) → d.arranged = d) := by
  have hsingles : ∀ x ∈ d.singles, (Number.single x).ReadsBack := fun x hx =>
    readsBack _ (List.mem_append_left _ (List.mem_map_of_mem hx)) (finite x hx)
  -- Integers are read back digit by digit; for doubles this is the assumption.
  have hnumbers : ∀ v ∈ d.payloads, ∀ n ∈ v.numbers, n.reread = some n := by
    intro v hv n hn
    have hstored := stored v hv n hn
    cases n with
    | integer n => exact Number.reread_integer hstored.1 hstored.2
    | single x => exact hstored.elim
    | double x =>
      exact Number.reread_double
        (readsBack _ (List.mem_append_right _ (List.mem_flatMap_of_mem hv hn)) hstored)
  have hdata : ∀ v ∈ d.payloads, v.Legible := fun v hv => ⟨hnumbers v hv, distinct v hv⟩
  exact ⟨Decoder.fromText_pretty (decoder_reads hsingles hdata) nests, arranged_eq⟩

/-- A greenhouse: a node without anything in it, one with data, an edge with a condition and one
without, and a default of every type. -/
def greenhouse : Document where
  entry := some "idle"
  nodes :=
    [{ guid := "idle" },
      { guid := "vent", position := ⟨1.5, -0.25⟩, node := some
          { type := "Log", data := .object
              [("levels", .array [.number (.integer (-3)), .number (.double 0.5), .null]),
                ("message", .string "\"auf\"\n\x01"), ("öffnen", .boolean true)] } }]
  edges :=
    [{ guid := "rise", source := "idle", port := "Hot", target := "vent",
       condition := some { type := "Above", data := .array [] } },
      { guid := "fall", source := "vent", target := "idle" }]
  defaults :=
    [⟨"limit", .int (-30)⟩, ⟨"factor", .float 0.1⟩, ⟨"open", .bool false⟩,
      ⟨"label", .string "Gewächshaus \\ 1"⟩]

theorem ofText_toText_greenhouse :
    (∀ x ∈ greenhouse.singles, x.isFinite = true) ∧
      (∀ v ∈ greenhouse.payloads, ∀ n ∈ v.numbers, n.Storable) ∧
      (∀ v ∈ greenhouse.payloads, ∀ keys ∈ v.keyLists, keys.Nodup) ∧
      greenhouse.toJson.nesting ≤ 127 ∧
      (∀ n ∈ greenhouse.numbers, n.isFiniteFloat = true → n.ReadsBack) ∧
      ofText greenhouse.toText = .ok greenhouse := by
  have finite : ∀ x ∈ greenhouse.singles, x.isFinite = true := by decide +kernel
  have stored : ∀ v ∈ greenhouse.payloads, ∀ n ∈ v.numbers, n.Storable := by decide +kernel
  have distinct : ∀ v ∈ greenhouse.payloads, ∀ keys ∈ v.keyLists, keys.Nodup := by decide +kernel
  have nests : greenhouse.toJson.nesting ≤ 127 := by decide +kernel
  have readsBack : ∀ n ∈ greenhouse.numbers, n.isFiniteFloat = true → n.ReadsBack := by
    decide +kernel
  have increasing : ∀ v ∈ greenhouse.payloads, ∀ keys ∈ v.keyLists, keys.Pairwise (· < ·) := by
    decide +kernel
  obtain ⟨hread, hsame⟩ := ofText_toText greenhouse finite stored distinct nests readsBack
  rw [hsame increasing] at hread
  exact ⟨finite, stored, distinct, nests, readsBack, hread⟩

end Document

end WorkflowGraph
