import WorkflowGraph.Proofs.Arrangement
import WorkflowGraph.Proofs.Scanning

/-!
# Values read back from their text

The printer writes a container part by part, each on a line of its own; the reader takes it apart
with one unit of fuel for a part.  Both are brought to one form, the text of a container from some
part on (`continuation`), and a reader of items or members is followed along it by induction on the
parts that are left.

`ReadsAs` is what is proved of a reader and a value: it takes the text of the value for something,
at any depth and behind any space, and leaves what stands behind.  `Decoder.Reads` is the same of a
decoder that may open as many containers as the value nests.  The main result is `any_reads`: any
value is read back with its objects arranged.
-/

namespace WorkflowGraph.Json

/-! ## The text of containers -/

/-- The text between a part of a container and what stands before it. -/
def lead (first : Bool) (depth : Nat) : List Char :=
  (if first then [] else [',']) ++ newline (depth + 1)

/-- The text of a container at the given depth from its first part on, or from a later one. -/
def continuation (closing : Char) (depth : Nat) : Bool → List (List Char) → List Char
  | first, [] => (if first then [] else newline depth) ++ [closing]
  | first, part :: parts => lead first depth ++ part ++ continuation closing depth false parts

lemma separate_cons (closing : Char) (depth : Nat) (part : List Char) (parts : List (List Char)) :
    separate (',' :: newline (depth + 1)) (part :: parts) ++ newline depth ++ [closing] =
      part ++ continuation closing depth false parts := by
  induction parts generalizing part with
  | nil => simp [separate, continuation]
  | cons next parts ih =>
    let comma := ',' :: newline (depth + 1)
    calc separate comma (part :: next :: parts) ++ newline depth ++ [closing]
        = part ++ comma ++ separate comma (next :: parts) ++ newline depth ++ [closing] := rfl
      _ = part ++ comma ++ (separate comma (next :: parts) ++ newline depth ++ [closing]) := by
          simp
      _ = part ++ continuation closing depth false (next :: parts) := by
          rw [ih]
          simp [comma, continuation, lead]

lemma enclose_eq (opening closing : Char) (depth : Nat) (parts : List (List Char)) :
    enclose opening closing depth parts = opening :: continuation closing depth true parts := by
  cases parts with
  | nil => rfl
  | cons part parts =>
    rw [enclose, if_neg (by simp), List.append_assoc, List.append_assoc,
      ← List.append_assoc _ _ [closing], separate_cons]
    simp [continuation, lead]

lemma length_continuation_lt {closing : Char} {depth fuel : Nat} {first : Bool} {part : List Char}
    {parts : List (List Char)} {rest : List Char}
    (h : (continuation closing depth first (part :: parts) ++ rest).length < fuel + 1) :
    (continuation closing depth false parts ++ rest).length < fuel := by
  simp only [continuation, lead, newline, List.length_append, List.length_cons] at h ⊢
  omega

lemma stops_continuation (closing : Char) (depth : Nat) (parts : List (List Char))
    (rest : List Char) : Stops (continuation closing depth false parts ++ rest) := by
  cases parts with
  | nil => exact stops_cons (by decide)
  | cons part parts => exact stops_cons (by decide)

/-- The text of the value starts with the character, at any depth. -/
def Opens (v : Json) (c : Char) : Prop := ∀ depth, ∃ cs, v.prettyChars depth = c :: cs

lemma opens_array (items : List Json) : (Json.array items).Opens '[' := fun depth =>
  ⟨_, by rw [prettyChars, enclose_eq]⟩

lemma opens_object (members : List (String × Json)) : (Json.object members).Opens '\x7b' :=
  fun depth => ⟨_, by rw [prettyChars, enclose_eq]⟩

lemma opens_string (s : String) : (Json.string s).Opens '"' := fun _ => ⟨_, rfl⟩

lemma ne_of_isDigit {c d : Char} (hc : c.isDigit = true) (hd : d.isDigit = false) : c ≠ d := by
  rintro rfl
  rw [hd] at hc
  cases hc

lemma isSpace_of_isDigit {c : Char} (hc : c.isDigit = true) : isSpace c = false := by
  simp only [isSpace, Bool.or_eq_false_iff, beq_eq_false_iff_ne]
  exact ⟨⟨⟨ne_of_isDigit hc rfl, ne_of_isDigit hc rfl⟩, ne_of_isDigit hc rfl⟩,
    ne_of_isDigit hc rfl⟩

lemma opens_number {n read : Number} (h : n.reread = some read) :
    ∃ c, (Json.number n).Opens c ∧ (c = '-' ∨ c.isDigit = true) := by
  obtain ⟨c, cs, htext, hc⟩ := head_of_readNumber (Number.readNumber_of_reread h)
  exact ⟨c, fun _ => ⟨cs, htext⟩, hc⟩

/-- The text of the value starts with a character that neither is space nor ends an array. -/
def Begins (v : Json) : Prop := ∃ c, v.Opens c ∧ isSpace c = false ∧ c ≠ ']'

lemma begins_object (members : List (String × Json)) : (Json.object members).Begins :=
  ⟨_, opens_object members, by decide, by decide⟩

lemma begins {v : Json} (h : ∀ n ∈ v.numbers, n.reread = some n) : v.Begins := by
  cases v with
  | null => exact ⟨'n', fun _ => ⟨_, rfl⟩, by decide, by decide⟩
  | boolean b => cases b with
    | true => exact ⟨'t', fun _ => ⟨_, rfl⟩, by decide, by decide⟩
    | false => exact ⟨'f', fun _ => ⟨_, rfl⟩, by decide, by decide⟩
  | number n =>
    obtain ⟨c, hopens, hc⟩ := opens_number (h n (List.mem_singleton.mpr rfl))
    rcases hc with rfl | hc
    · exact ⟨'-', hopens, by decide, by decide⟩
    · exact ⟨c, hopens, isSpace_of_isDigit hc, ne_of_isDigit hc rfl⟩
  | string s => exact ⟨_, opens_string s, by decide, by decide⟩
  | array items => exact ⟨_, opens_array items, by decide, by decide⟩
  | object members => exact begins_object members

/-! ## Steps through a container -/

lemma skipSpace_stop {closing : Char} (hclosing : isSpace closing = false) (first : Bool)
    (depth : Nat) (rest : List Char) :
    skipSpace (continuation closing depth first [] ++ rest) = closing :: rest := by
  cases first with
  | true => exact skipSpace_cons hclosing
  | false =>
    rw [continuation, if_neg Bool.false_ne_true, List.append_assoc]
    exact skipSpace_append (blank_newline depth) hclosing

lemma nextItem_stop (first : Bool) (depth : Nat) (rest : List Char) :
    nextItem first (continuation ']' depth first [] ++ rest) = .ok (.stop rest) := by
  rw [nextItem, skipSpace_stop (by decide)]
  rfl

lemma nextItem_next {c : Char} (hspace : isSpace c = false) (hend : c ≠ ']') (first : Bool)
    (depth : Nat) (cs : List Char) :
    nextItem first (lead first depth ++ c :: cs) = .ok (.next () (c :: cs)) := by
  have hgap : skipSpace (newline (depth + 1) ++ c :: cs) = c :: cs :=
    skipSpace_append (blank_newline _) hspace
  cases first with
  | true =>
    rw [lead, if_pos rfl, List.nil_append, nextItem, hgap]
    simp
  | false =>
    rw [lead, if_neg (by decide), List.append_assoc, List.singleton_append, nextItem,
      skipSpace_cons (by decide)]
    simp [hgap, hend]

lemma nextKey_stop (first : Bool) (depth : Nat) (rest : List Char) :
    nextKey first (continuation '\x7d' depth first [] ++ rest) = .ok (.stop rest) := by
  rw [nextKey, skipSpace_stop (by decide)]
  rfl

lemma nextKey_next (first : Bool) (depth : Nat) (key : String) (rest : List Char) :
    nextKey first (lead first depth ++ quote key ++ rest) = .ok (.next key rest) := by
  let text := key.toList.flatMap escape ++ '"' :: rest
  have hquote : quote key ++ rest = '"' :: text := by simp [quote, text]
  have hgap : skipSpace (newline (depth + 1) ++ '"' :: text) = '"' :: text :=
    skipSpace_append (blank_newline _) (by decide)
  have htext : readString text = .ok (key, rest) := readString_quote key rest
  rw [List.append_assoc, hquote]
  cases first with
  | true =>
    rw [lead, if_pos rfl, List.nil_append, nextKey, hgap]
    simp [htext, Except.map]
  | false =>
    rw [lead, if_neg (by decide), List.append_assoc, List.singleton_append, nextKey,
      skipSpace_cons (by decide)]
    simp [hgap, htext, Except.map]

/-! ## What a reader takes the text of a value for -/

variable {α β σ : Type}

/-- The reader takes the text of `v` for `a`, at any depth and behind any space, and leaves what
stands behind it. -/
def ReadsAs (read : List Char → Except Fault (Scanned α)) (v : Json) (a : α) : Prop :=
  ∀ ⦃gap rest : List Char⦄ (depth : Nat), Blank gap → Stops rest →
    read (gap ++ v.prettyChars depth ++ rest) = .ok (a, rest)

/-- The decoder takes the text of `v` for `a` when as many containers may be opened as `v` nests. -/
def Decoder.Reads (d : Decoder α) (v : Json) (a : α) : Prop :=
  ∀ ⦃limit : Nat⦄, v.nesting ≤ limit → ReadsAs (d.text limit) v a

/-- A reader of items takes the text of an array for what it takes its items for. -/
lemma readItems_continuation {item : List Char → Except Fault (Scanned α)} {f : β → Json}
    {g : β → α} {xs : List β} (hbegins : ∀ x ∈ xs, (f x).Begins)
    (hreads : ∀ x ∈ xs, ReadsAs item (f x) (g x)) {fuel : Nat} (first : Bool) (depth : Nat)
    (rest : List Char)
    (hfuel : (continuation ']' depth first (prettyItems (depth + 1) (xs.map f)) ++ rest).length <
      fuel) :
    readItems item fuel first
        (continuation ']' depth first (prettyItems (depth + 1) (xs.map f)) ++ rest) =
      .ok (xs.map g, rest) := by
  -- The fuel is one more than it has to be; each item gives up at least one character of it.
  obtain ⟨fuel, rfl⟩ := Nat.exists_eq_add_one.mpr (Nat.zero_lt_of_lt hfuel)
  induction xs generalizing fuel first with
  | nil =>
    rw [readItems, List.map_nil, prettyItems, nextItem_stop]
    rfl
  | cons x xs ih =>
    rw [List.forall_mem_cons] at hbegins hreads
    obtain ⟨c, hopens, hspace, hend⟩ := hbegins.1
    obtain ⟨cs, htext⟩ := hopens (depth + 1)
    have hitem := hreads.1 (depth + 1) blank_nil
      (stops_continuation ']' depth (prettyItems (depth + 1) (xs.map f)) rest)
    have hless := length_continuation_lt hfuel
    obtain ⟨fuel, rfl⟩ := Nat.exists_eq_add_one.mpr (Nat.zero_lt_of_lt hless)
    have hrest := ih hbegins.2 hreads.2 false fuel hless
    rw [htext, List.nil_append, List.cons_append] at hitem
    rw [readItems, List.map_cons, prettyItems, continuation, htext, List.append_assoc,
      List.append_assoc, List.cons_append, nextItem_next hspace hend]
    change item _ >>= _ = _
    rw [hitem]
    change readItems item (fuel + 1) false _ >>= _ = _
    rw [hrest]
    rfl

/-! ## Steps through an object -/

/-- The text of an object from its next member on: the key, the colon, a space and the value. -/
lemma continuation_member (first : Bool) (depth : Nat) (key : String) (value : Json)
    (members : List (String × Json)) (rest : List Char) :
    continuation '\x7d' depth first (prettyMembers (depth + 1) ((key, value) :: members)) ++ rest =
      lead first depth ++ quote key ++ ':' :: ([' '] ++ value.prettyChars (depth + 1) ++
        (continuation '\x7d' depth false (prettyMembers (depth + 1) members) ++ rest)) := by
  simp [prettyMembers, continuation]

lemma blank_space : Blank [' '] := by
  intro c hc
  rw [List.mem_singleton.mp hc]
  rfl

/-- A reader of values takes the text of an object for what it takes its members for. -/
lemma readMembers_continuation {value : List Char → Except Fault (Scanned α)} {g : Json → α}
    {members : List (String × Json)} (hreads : ∀ m ∈ members, ReadsAs value m.2 (g m.2))
    {fuel : Nat} (first : Bool) (depth : Nat) (rest : List Char)
    (hfuel : (continuation '\x7d' depth first (prettyMembers (depth + 1) members) ++ rest).length <
      fuel) :
    readMembers value fuel first
        (continuation '\x7d' depth first (prettyMembers (depth + 1) members) ++ rest) =
      .ok (members.map fun (key, value) => (key, g value), rest) := by
  obtain ⟨fuel, rfl⟩ := Nat.exists_eq_add_one.mpr (Nat.zero_lt_of_lt hfuel)
  induction members generalizing fuel first with
  | nil =>
    rw [readMembers, prettyMembers, nextKey_stop]
    rfl
  | cons m members ih =>
    obtain ⟨key, v⟩ := m
    rw [List.forall_mem_cons] at hreads
    have hvalue := hreads.1 (depth + 1) blank_space
      (stops_continuation '\x7d' depth (prettyMembers (depth + 1) members) rest)
    have hless := length_continuation_lt hfuel
    obtain ⟨fuel, rfl⟩ := Nat.exists_eq_add_one.mpr (Nat.zero_lt_of_lt hless)
    have hrest := ih hreads.2 false fuel hless
    rw [readMembers, continuation_member, nextKey_next]
    -- The reader goes on behind the colon, where a blank is left to skip.
    change value _ >>= _ = _
    rw [hvalue]
    change readMembers value (fuel + 1) false _ >>= _ = _
    rw [hrest]
    rfl

/-! ## Any value -/

lemma expect_append (word rest : List Char) : expect word (word ++ rest) = .ok rest := by
  have hword : word.isPrefixOf (word ++ rest) = true := by simp
  rw [expect, if_pos hword, List.drop_left]

/-- A text that opens no container is read by the reader of values without parts. -/
lemma readJson_leaf {gap cs : List Char} {c : Char} (hgap : Blank gap) (hspace : isSpace c = false)
    (harray : c ≠ '[') (hobject : c ≠ '\x7b') (limit : Nat) :
    readJson limit (gap ++ c :: cs) = readLeaf (c :: cs) := by
  simp [readJson, skipSpace_append hgap hspace, harray, hobject]

lemma readJson_array {gap : List Char} (hgap : Blank gap) (limit : Nat) (cs : List Char) :
    readJson (limit + 1) (gap ++ '[' :: cs) =
      (readItems (readJson limit) (cs.length + 1) true cs).map fun (items, rest) =>
        (.array items, rest) := by
  rw [readJson, skipSpace_append hgap (by decide)]
  rfl

lemma readJson_object {gap : List Char} (hgap : Blank gap) (limit : Nat) (cs : List Char) :
    readJson (limit + 1) (gap ++ '\x7b' :: cs) =
      (readMembers (readJson limit) (cs.length + 1) true cs).map fun (members, rest) =>
        (ofMembers members, rest) := by
  rw [readJson, skipSpace_append hgap (by decide)]
  rfl

lemma readLeaf_number {cs : List Char} {c : Char} (hc : c = '-' ∨ c.isDigit = true) :
    readLeaf (c :: cs) = readNumber (c :: cs) >>= fun (n, rest) => pure (.number n, rest) := by
  have hother : c ≠ '"' ∧ c ≠ 'n' ∧ c ≠ 't' ∧ c ≠ 'f' := by
    rcases hc with rfl | hc
    · decide
    · exact ⟨ne_of_isDigit hc rfl, ne_of_isDigit hc rfl, ne_of_isDigit hc rfl, ne_of_isDigit hc rfl⟩
  obtain ⟨hquote, hn, ht, hf⟩ := hother
  simp [readLeaf, hquote, hn, ht, hf]

lemma null_text (depth : Nat) (rest : List Char) :
    Json.null.prettyChars depth ++ rest = 'n' :: (['u', 'l', 'l'] ++ rest) := by
  simp [prettyChars, leaf]

lemma true_text (depth : Nat) (rest : List Char) :
    (Json.boolean true).prettyChars depth ++ rest = 't' :: (['r', 'u', 'e'] ++ rest) := by
  simp [prettyChars, leaf]

lemma false_text (depth : Nat) (rest : List Char) :
    (Json.boolean false).prettyChars depth ++ rest = 'f' :: (['a', 'l', 's', 'e'] ++ rest) := by
  simp [prettyChars, leaf]

lemma string_text (s : String) (depth : Nat) (rest : List Char) :
    (Json.string s).prettyChars depth ++ rest =
      '"' :: (s.toList.flatMap escape ++ '"' :: rest) := by
  simp [prettyChars, leaf, quote]

lemma number_text {n read : Number} (h : n.reread = some read) (depth : Nat) {rest : List Char}
    (hrest : Stops rest) : ∃ c cs, (Json.number n).prettyChars depth ++ rest = c :: cs ∧
      (c = '-' ∨ c.isDigit = true) ∧ readNumber (c :: cs) = .ok (read, rest) := by
  obtain ⟨c, cs, htext, hc⟩ := head_of_readNumber (Number.readNumber_text h hrest)
  refine ⟨c, cs, htext, hc, ?_⟩
  rw [← htext]
  exact Number.readNumber_text h hrest

lemma array_text (items : List Json) (depth : Nat) (rest : List Char) :
    (Json.array items).prettyChars depth ++ rest =
      '[' :: (continuation ']' depth true (prettyItems (depth + 1) items) ++ rest) := by
  rw [prettyChars, enclose_eq, List.cons_append]

lemma object_text (members : List (String × Json)) (depth : Nat) (rest : List Char) :
    (Json.object members).prettyChars depth ++ rest =
      '\x7b' :: (continuation '\x7d' depth true (prettyMembers (depth + 1) members) ++ rest) := by
  rw [prettyChars, enclose_eq, List.cons_append]

lemma null_reads : Decoder.any.Reads .null .null := by
  intro limit _ gap rest depth hgap _
  rw [List.append_assoc, null_text]
  refine (readJson_leaf hgap (by decide) (by decide) (by decide) limit).trans ?_
  rw [readLeaf, expect_append]
  rfl

lemma boolean_reads (b : Bool) : Decoder.any.Reads (.boolean b) (.boolean b) := by
  intro limit _ gap rest depth hgap _
  cases b with
  | true =>
    rw [List.append_assoc, true_text]
    refine (readJson_leaf hgap (by decide) (by decide) (by decide) limit).trans ?_
    rw [readLeaf, expect_append]
    rfl
  | false =>
    rw [List.append_assoc, false_text]
    refine (readJson_leaf hgap (by decide) (by decide) (by decide) limit).trans ?_
    rw [readLeaf, expect_append]
    rfl

lemma number_reads {n read : Number} (h : n.reread = some read) :
    Decoder.any.Reads (.number n) (.number read) := by
  intro limit _ gap rest depth hgap hrest
  obtain ⟨c, cs, htext, hc, hread⟩ := number_text h depth hrest
  have hplain : isSpace c = false ∧ c ≠ '[' ∧ c ≠ '\x7b' := by
    rcases hc with rfl | hc
    · decide
    · exact ⟨isSpace_of_isDigit hc, ne_of_isDigit hc rfl, ne_of_isDigit hc rfl⟩
  rw [List.append_assoc, htext]
  refine (readJson_leaf hgap hplain.1 hplain.2.1 hplain.2.2 limit).trans ?_
  rw [readLeaf_number hc, hread]
  rfl

lemma string_reads (s : String) : Decoder.any.Reads (.string s) (.string s) := by
  intro limit _ gap rest depth hgap _
  rw [List.append_assoc, string_text]
  refine (readJson_leaf hgap (by decide) (by decide) (by decide) limit).trans ?_
  rw [readLeaf, readString_quote]
  rfl

lemma array_reads {items : List Json} (hbegins : ∀ item ∈ items, item.Begins)
    (hreads : ∀ item ∈ items, Decoder.any.Reads item item.arranged) :
    Decoder.any.Reads (.array items) (Json.array items).arranged := by
  intro limit hlimit gap rest depth hgap _
  obtain ⟨limit, rfl⟩ := Nat.exists_eq_add_one.mpr (Nat.zero_lt_of_lt hlimit)
  have hinside : ∀ item ∈ items, ReadsAs (readJson limit) item item.arranged := fun item hitem =>
    hreads item hitem (nesting_le_of_array hlimit item hitem)
  have hitems := readItems_continuation (f := id) hbegins hinside true depth rest (Nat.lt_add_one _)
  rw [List.map_id] at hitems
  rw [List.append_assoc, array_text]
  refine (readJson_array hgap limit _).trans ?_
  rw [hitems, arranged, arrangedItems_eq]
  rfl

lemma object_reads {members : List (String × Json)} (hdistinct : (members.map (·.1)).Nodup)
    (hreads : ∀ m ∈ members, Decoder.any.Reads m.2 m.2.arranged) :
    Decoder.any.Reads (.object members) (Json.object members).arranged := by
  intro limit hlimit gap rest depth hgap _
  obtain ⟨limit, rfl⟩ := Nat.exists_eq_add_one.mpr (Nat.zero_lt_of_lt hlimit)
  have hinside : ∀ m ∈ members, ReadsAs (readJson limit) m.2 m.2.arranged := fun m hm =>
    hreads m hm (nesting_le_of_object hlimit m hm)
  have hmembers := readMembers_continuation hinside true depth rest (Nat.lt_add_one _)
  have harranged : ((arrangedMembers members).map (·.1)).Nodup := by
    rw [arrangedMembers_eq, List.map_map]
    exact hdistinct
  rw [List.append_assoc, object_text]
  refine (readJson_object hgap limit _).trans ?_
  rw [hmembers, arranged, ← ofMembers_eq harranged, arrangedMembers_eq]
  rfl

/-- Nothing of the value is lost in its text: its numbers are read back, and no object inside it
has a key twice. -/
structure Legible (v : Json) : Prop where
  numbers : ∀ n ∈ v.numbers, n.reread = some n
  distinct : ∀ keys ∈ v.keyLists, keys.Nodup

lemma legible_array {items : List Json} (h : (Json.array items).Legible) :
    ∀ item ∈ items, item.Legible := by
  obtain ⟨hnumbers, hkeys⟩ := h
  rw [numbers_array, List.forall_mem_flatMap] at hnumbers
  rw [keyLists_array, List.forall_mem_flatMap] at hkeys
  exact fun item hitem => ⟨hnumbers item hitem, hkeys item hitem⟩

lemma legible_object {members : List (String × Json)} (h : (Json.object members).Legible) :
    (members.map (·.1)).Nodup ∧ ∀ m ∈ members, m.2.Legible := by
  obtain ⟨hnumbers, hkeys⟩ := h
  rw [numbers_object, List.forall_mem_flatMap] at hnumbers
  rw [keyLists_object, List.forall_mem_cons, List.forall_mem_flatMap] at hkeys
  exact ⟨hkeys.1, fun m hm => ⟨hnumbers m hm, hkeys.2 m hm⟩⟩

/-- **A value is read back from its text, with its objects arranged.** -/
theorem any_reads {v : Json} (h : v.Legible) : Decoder.any.Reads v v.arranged := by
  induction v using inductionOn with
  | null => exact null_reads
  | boolean b => exact boolean_reads b
  | number n => exact number_reads (h.numbers n (List.mem_singleton.mpr rfl))
  | string s => exact string_reads s
  | array items ih =>
    have hitems := legible_array h
    exact array_reads (fun item hitem => begins (hitems item hitem).numbers) fun item hitem =>
      ih item hitem (hitems item hitem)
  | object members ih =>
    obtain ⟨hkeys, hmembers⟩ := legible_object h
    exact object_reads hkeys fun m hm => ih m hm (hmembers m hm)

end WorkflowGraph.Json
