import Mathlib.Data.List.TakeWhile
import Mathlib.Tactic.SplitIfs
import WorkflowGraph.Json.Printer
import WorkflowGraph.Proofs.Decoding

/-!
# Scanning what was printed

The scanners give back what the printer wrote and leave what stands behind it.  Strings are taken
apart escape by escape (`readString_quote`) and end at their closing quote, whatever follows.  A
number has no such end: it goes on as long as it can, so what stands behind it has to be nothing
that a number could go on with (`Stops`).  Under that premise its own text alone decides what it is
read as (`readNumber_append`).

Integers are read back exactly (`readNumber_integer`).  Whether a floating-point number is depends
on the number, since the reader may be off by one in the last place; `Number.ReadsBack` says that
it is not.
-/

namespace WorkflowGraph.Json

/-! ## Space -/

/-- Nothing but space. -/
def Blank (gap : List Char) : Prop := ∀ c ∈ gap, isSpace c = true

lemma blank_nil : Blank [] := List.forall_mem_nil _

lemma blank_newline (depth : Nat) : Blank (newline depth) := by
  intro c hc
  rcases List.mem_cons.mp hc with rfl | hc
  · rfl
  · rw [List.eq_of_mem_replicate hc]
    rfl

lemma skipSpace_append {gap cs : List Char} {c : Char} (hgap : Blank gap)
    (hc : isSpace c = false) : skipSpace (gap ++ c :: cs) = c :: cs := by
  rw [skipSpace, List.dropWhile_append_of_pos hgap, List.dropWhile_cons_of_neg (by simp [hc])]

lemma skipSpace_cons {cs : List Char} {c : Char} (hc : isSpace c = false) :
    skipSpace (c :: cs) = c :: cs :=
  skipSpace_append blank_nil hc

/-! ## Strings -/

lemma hexUnit?_digitChar :
    ∀ n < 0x20, hexUnit? '0' '0' (n / 16).digitChar (n % 16).digitChar = some n := by
  decide

/-- An escaped character is read as the character. -/
lemma scanString_escape (c : Char) (cs : List Char) :
    scanString (escape c ++ cs) = (scanString cs).map fun (read, rest) => (c :: read, rest) := by
  unfold escape
  split_ifs with hquote hback hn hr ht hb hf hcontrol
  all_goals try subst c
  all_goals try rfl
  · -- a control character without a letter of its own goes by its code
    have hunit := hexUnit?_digitChar c.toNat hcontrol
    have hlow : ¬(0xDC00 ≤ c.toNat ∧ c.toNat ≤ 0xDFFF) := by omega
    have hhigh : ¬(0xD800 ≤ c.toNat ∧ c.toNat ≤ 0xDBFF) := by omega
    simp only [List.cons_append, List.nil_append, scanString, hunit, if_neg hlow, if_neg hhigh,
      Char.ofNat_toNat]
  · rw [List.singleton_append, scanString]
    · rw [if_neg (by simp [hcontrol, hback])]
    · exact fun h => hquote h
    · exact fun a b d e rest h => (hback h).elim
    · exact fun d rest h => (hback h).elim

/-- A string is read back, whatever stands behind its closing quote. -/
lemma readString_quote (s : String) (rest : List Char) :
    readString (s.toList.flatMap escape ++ '"' :: rest) = .ok (s, rest) := by
  have hscan : ∀ cs : List Char,
      scanString (cs.flatMap escape ++ '"' :: rest) = .ok (cs, rest) := by
    intro cs
    induction cs with
    | nil => rfl
    | cons c cs ih =>
      rw [List.flatMap_cons, List.append_assoc, scanString_escape, ih]
      rfl
  rw [readString, hscan]
  change Except.ok (String.ofList s.toList, rest) = _
  rw [String.ofList_toList]

/-! ## Numbers end where nothing of them can follow -/

/-- What may stand behind a number: nothing that it could go on with. -/
def Stops (rest : List Char) : Prop :=
  ∀ c ∈ rest.head?, c.isDigit = false ∧ c ≠ '.' ∧ c ≠ 'e' ∧ c ≠ 'E'

lemma stops_nil : Stops [] := by
  intro c hc
  cases hc

lemma stops_cons {c : Char} {rest : List Char}
    (hc : c.isDigit = false ∧ c ≠ '.' ∧ c ≠ 'e' ∧ c ≠ 'E') : Stops (c :: rest) := by
  intro d hd
  cases hd
  exact hc

/-- A scanner of a part of a number does not look past it. -/
def Local {α : Type} (scan : List Char → Except Fault (Scanned α)) : Prop :=
  ∀ ⦃cs : List Char⦄ ⦃a : α⦄ ⦃left rest : List Char⦄,
    scan cs = .ok (a, left) → Stops rest → scan (cs ++ rest) = .ok (a, left ++ rest)

lemma digits_append {rest : List Char} (hrest : Stops rest) (cs : List Char) :
    digits (cs ++ rest) = ((digits cs).1, (digits cs).2 ++ rest) := by
  induction cs with
  | nil =>
    cases rest with
    | nil => rfl
    | cons c rest =>
      have hc := (hrest c rfl).1
      simp [digits, hc]
  | cons c cs ih =>
    by_cases hc : c.isDigit
    · simp only [digits, List.cons_append, List.takeWhile_cons_of_pos hc,
        List.dropWhile_cons_of_pos hc, List.map_cons, Prod.mk.injEq] at ih ⊢
      exact ⟨congrArg _ ih.1, ih.2⟩
    · simp [digits, hc]

lemma local_someDigits : Local someDigits := by
  intro cs ds left rest h hrest
  rw [someDigits] at h
  rw [someDigits, digits_append hrest]
  rcases hfound : digits cs with ⟨_ | ⟨d, ds⟩, left⟩
  · rw [hfound] at h
    cases h
  · rw [hfound] at h
    cases h
    rfl

lemma scanFraction_of_ne {cs : List Char} (h : ∀ c ∈ cs.head?, c ≠ '.') :
    scanFraction cs = .ok (none, cs) := by
  rw [scanFraction]
  rintro rest rfl
  exact h '.' rfl rfl

lemma local_scanFraction : Local scanFraction := by
  intro cs fraction left rest h hrest
  cases cs with
  | nil =>
    cases h
    exact scanFraction_of_ne fun c hc => (hrest c hc).2.1
  | cons c cs =>
    by_cases hc : c = '.'
    · subst hc
      rw [scanFraction] at h
      rw [List.cons_append, scanFraction]
      cases hds : someDigits cs with
      | error e =>
        rw [hds] at h
        cases h
      | ok found =>
        rw [hds] at h
        cases h
        rw [local_someDigits hds hrest]
        rfl
    -- Nothing starts here, and what follows a number does not start it either.
    · have hhead : ∀ cs, ∀ d ∈ (c :: cs).head?, d ≠ '.' := by simp [hc]
      rw [scanFraction_of_ne (hhead cs)] at h
      cases h
      exact scanFraction_of_ne (hhead (cs ++ rest))

/-- The sign of a power of ten and the text behind it. -/
def powerSign : List Char → Bool × List Char
  | '+' :: rest => (false, rest)
  | '-' :: rest => (true, rest)
  | rest => (false, rest)

lemma powerSign_append (c : Char) (cs rest : List Char) :
    powerSign (c :: cs ++ rest) = ((powerSign (c :: cs)).1, (powerSign (c :: cs)).2 ++ rest) := by
  by_cases hplus : c = '+'
  · subst hplus
    rfl
  by_cases hminus : c = '-'
  · subst hminus
    rfl
  simp [powerSign, hplus, hminus]

lemma scanExponent_cons {c : Char} (hc : c = 'e' ∨ c = 'E') (cs : List Char) :
    scanExponent (c :: cs) = (someDigits (powerSign cs).2).map fun (ds, rest) =>
      (some ((powerSign cs).1, ds), rest) := by
  rcases hc with rfl | rfl <;> rfl

lemma scanExponent_of_ne {cs : List Char} (h : ∀ c ∈ cs.head?, ¬(c = 'e' ∨ c = 'E')) :
    scanExponent cs = .ok (none, cs) := by
  rw [scanExponent]
  · rintro rest rfl
    exact h 'e' rfl (.inl rfl)
  · rintro rest rfl
    exact h 'E' rfl (.inr rfl)

lemma local_scanExponent : Local scanExponent := by
  intro cs exponent left rest h hrest
  cases cs with
  | nil =>
    cases h
    exact scanExponent_of_ne fun c hc => not_or.mpr (hrest c hc).2.2
  | cons c cs =>
    by_cases hc : c = 'e' ∨ c = 'E'
    · rw [scanExponent_cons hc] at h
      rw [List.cons_append, scanExponent_cons hc]
      cases hds : someDigits (powerSign cs).2 with
      | error e =>
        rw [hds] at h
        cases h
      | ok found =>
        rw [hds] at h
        cases h
        cases cs with
        | nil => cases hds
        | cons d cs =>
          rw [powerSign_append, local_someDigits hds hrest]
          rfl
    · have hhead : ∀ cs, ∀ d ∈ (c :: cs).head?, ¬(d = 'e' ∨ d = 'E') := by simpa [not_or] using hc
      rw [scanExponent_of_ne (hhead cs)] at h
      cases h
      exact scanExponent_of_ne (hhead (cs ++ rest))

/-- The parts of a numeral that was read. -/
lemma scanNumeral_eq_ok {negative : Bool} {cs left : List Char} {numeral : Decimal.Numeral} :
    scanNumeral negative cs = .ok (numeral, left) ↔
      ∃ whole cs₁ fraction cs₂ exponent, someDigits cs = .ok (whole, cs₁) ∧
        ¬(whole.head? = some 0 ∧ 1 < whole.length) ∧ scanFraction cs₁ = .ok (fraction, cs₂) ∧
        scanExponent cs₂ = .ok (exponent, left) ∧
        numeral = ⟨negative, whole, fraction, exponent⟩ := by
  constructor
  · intro h
    obtain ⟨⟨whole, cs₁⟩, hwhole, h⟩ := bind_eq_ok h
    dsimp only at h
    -- A zero in front is refused before anything behind the digits is looked at.
    by_cases hzero : whole.head? = some 0 ∧ 1 < whole.length
    · rw [if_pos hzero] at h
      cases h
    · rw [if_neg hzero] at h
      obtain ⟨⟨fraction, cs₂⟩, hfraction, h⟩ := bind_eq_ok h
      obtain ⟨⟨exponent, cs₃⟩, hexponent, h⟩ := bind_eq_ok h
      cases h
      exact ⟨whole, cs₁, fraction, cs₂, exponent, hwhole, hzero, hfraction, hexponent, rfl⟩
  · rintro ⟨whole, cs₁, fraction, cs₂, exponent, hwhole, hzero, hfraction, hexponent, rfl⟩
    rw [scanNumeral, hwhole]
    change ite _ _ _ = _
    rw [if_neg hzero, hfraction]
    change scanExponent cs₂ >>= _ = _
    rw [hexponent]
    rfl

lemma local_scanNumeral (negative : Bool) : Local (scanNumeral negative) := by
  intro cs numeral left rest h hrest
  obtain ⟨whole, cs₁, fraction, cs₂, exponent, hwhole, hzero, hfraction, hexponent, rfl⟩ :=
    scanNumeral_eq_ok.mp h
  exact scanNumeral_eq_ok.mpr ⟨whole, cs₁ ++ rest, fraction, cs₂ ++ rest, exponent,
    local_someDigits hwhole hrest, hzero, local_scanFraction hfraction hrest,
    local_scanExponent hexponent hrest, rfl⟩

/-- The numeral at the start of a text, with its sign. -/
def scanSigned : List Char → Except Fault (Scanned Decimal.Numeral)
  | '-' :: rest => scanNumeral true rest
  | cs => scanNumeral false cs

lemma scanSigned_of_ne {cs : List Char} (h : ∀ c ∈ cs.head?, c ≠ '-') :
    scanSigned cs = scanNumeral false cs := by
  rw [scanSigned]
  rintro rest rfl
  exact h '-' rfl rfl

lemma local_scanSigned : Local scanSigned := by
  intro cs numeral left rest h hrest
  cases cs with
  | nil => cases h
  | cons c cs =>
    by_cases hc : c = '-'
    · subst hc
      exact local_scanNumeral true h hrest
    · have hhead : ∀ cs, ∀ d ∈ (c :: cs).head?, d ≠ '-' := by simp [hc]
      rw [scanSigned_of_ne (hhead cs)] at h
      exact (scanSigned_of_ne (hhead (cs ++ rest))).trans (local_scanNumeral false h hrest)

lemma readNumber_eq_ok {cs left : List Char} {n : Number} :
    readNumber cs = .ok (n, left) ↔
      ∃ numeral, scanSigned cs = .ok (numeral, left) ∧ numberOf numeral = .ok n := by
  have hsigned : readNumber cs = scanSigned cs >>= fun scanned =>
      numberOf scanned.1 >>= fun n => pure (n, scanned.2) := by
    cases cs with
    | nil => rfl
    | cons c cs =>
      by_cases hc : c = '-'
      · subst hc
        rfl
      · simp [readNumber, scanSigned, hc]
  rw [hsigned]
  constructor
  · intro h
    obtain ⟨⟨numeral, cs₁⟩, hscan, h⟩ := bind_eq_ok h
    obtain ⟨m, hm, h⟩ := bind_eq_ok h
    cases h
    exact ⟨numeral, hscan, hm⟩
  · rintro ⟨numeral, hscan, hn⟩
    rw [hscan]
    change numberOf numeral >>= _ = _
    rw [hn]
    rfl

/-- What a number is read as is decided by its own text. -/
lemma readNumber_append {cs rest : List Char} {n : Number} (h : readNumber cs = .ok (n, []))
    (hrest : Stops rest) : readNumber (cs ++ rest) = .ok (n, rest) := by
  obtain ⟨numeral, hscan, hn⟩ := readNumber_eq_ok.mp h
  exact readNumber_eq_ok.mpr ⟨numeral, local_scanSigned hscan hrest, hn⟩

lemma head_of_someDigits {cs left : List Char} {ds : List Nat}
    (h : someDigits cs = .ok (ds, left)) : ∃ c cs', cs = c :: cs' ∧ c.isDigit = true := by
  cases cs with
  | nil => cases h
  | cons c cs =>
    cases hc : c.isDigit with
    | true => exact ⟨c, cs, rfl, hc⟩
    | false => simp [someDigits, digits, hc] at h

/-- A number starts with its sign or its first digit. -/
lemma head_of_readNumber {cs left : List Char} {n : Number} (h : readNumber cs = .ok (n, left)) :
    ∃ c cs', cs = c :: cs' ∧ (c = '-' ∨ c.isDigit = true) := by
  obtain ⟨numeral, hscan, -⟩ := readNumber_eq_ok.mp h
  by_cases hminus : ∀ c ∈ cs.head?, c ≠ '-'
  · rw [scanSigned_of_ne hminus] at hscan
    obtain ⟨whole, cs₁, _, _, _, hwhole, -⟩ := scanNumeral_eq_ok.mp hscan
    obtain ⟨c, cs', rfl, hc⟩ := head_of_someDigits hwhole
    exact ⟨c, cs', rfl, .inr hc⟩
  · cases cs with
    | nil => exact absurd (fun c hc => nomatch hc) hminus
    | cons c cs => exact ⟨c, cs, rfl, .inl (by simpa using hminus)⟩

/-! ## Integers -/

section

open Decimal.Numeral (absorb words)

/-- The values of decimal digits. -/
def digitValues (cs : List Char) : List Nat := cs.map fun c => c.toNat - '0'.toNat

lemma ofDigitChars_eq_foldl (cs : List Char) (s : Nat) :
    Nat.ofDigitChars 10 cs s = (digitValues cs).foldl (fun n d => 10 * n + d) s := by
  rw [digitValues, List.foldl_map]
  rfl

lemma le_foldl_digits (ds : List Nat) (s : Nat) : s ≤ ds.foldl (fun n d => 10 * n + d) s := by
  induction ds generalizing s with
  | nil => exact Nat.le_refl s
  | cons d ds ih =>
    have := ih (10 * s + d)
    rw [List.foldl_cons]
    omega

lemma absorb_eq {ds : List Nat} {s : Nat} (h : ds.foldl (fun n d => 10 * n + d) s < words) :
    absorb s ds = (ds.foldl (fun n d => 10 * n + d) s, []) := by
  induction ds generalizing s with
  | nil => rfl
  | cons d ds ih =>
    have hfits : 10 * s + d < words := Nat.lt_of_le_of_lt (le_foldl_digits ds _) h
    rw [absorb, if_pos hfits, ih h]
    rfl

lemma foldl_digitValues (n : Nat) :
    (digitValues (Nat.toDigits 10 n)).foldl (fun n d => 10 * n + d) 0 = n := by
  rw [← ofDigitChars_eq_foldl]
  exact Nat.ofDigitChars_toDigits (by decide) (by decide)

lemma head_toDigits {n : Nat} (hn : 0 < n) :
    (digitValues (Nat.toDigits 10 n)).head? ≠ some 0 := by
  induction n using Nat.strongRecOn with
  | ind n ih =>
    by_cases hlt : n < 10
    · have hvalue := Nat.toNat_digitChar_of_lt_ten hlt
      rw [Nat.toDigits_of_lt_base hlt]
      simp only [digitValues, List.map_cons, hvalue, List.head?_cons, ne_eq, Option.some.injEq]
      change ¬48 + n - 48 = 0
      omega
    · rw [Nat.toDigits_of_base_le (by decide) (Nat.le_of_not_lt hlt), digitValues, List.map_append,
        List.head?_append, Option.or_of_isSome (by simp)]
      exact ih (n / 10) (by omega) (by omega)

/-- A number in decimal is scanned as its digits. -/
lemma scanNumeral_toDigits (negative : Bool) (n : Nat) :
    scanNumeral negative (Nat.toDigits 10 n) =
      .ok (⟨negative, digitValues (Nat.toDigits 10 n), none, none⟩, []) := by
  have hdigits : ∀ c ∈ Nat.toDigits 10 n, c.isDigit = true := fun c hc =>
    Nat.isDigit_of_mem_toDigits (by decide) (by decide) hc
  refine scanNumeral_eq_ok.mpr ⟨_, [], none, [], none, ?_, ?_, rfl, rfl, rfl⟩
  · have hfound : digits (Nat.toDigits 10 n) = (digitValues (Nat.toDigits 10 n), []) := by
      rw [digits, List.takeWhile_eq_self_iff.mpr hdigits, List.dropWhile_eq_nil_iff.mpr hdigits]
      rfl
    have hsome : digitValues (Nat.toDigits 10 n) ≠ [] := by simp [digitValues]
    rw [someDigits, hfound]
    cases hds : digitValues (Nat.toDigits 10 n) with
    | nil => exact absurd hds hsome
    | cons d ds => rfl
  · rintro ⟨hzero, hlength⟩
    -- Only zero itself begins with a zero, and it has one digit.
    rcases Nat.eq_zero_or_pos n with rfl | hn
    · exact absurd hlength (by decide)
    · exact head_toDigits hn hzero

lemma readNumber_natural {n : Nat} (hn : n < words) :
    readNumber (Nat.toDigits 10 n) = .ok (.integer n, []) := by
  have hhead : ∀ c ∈ (Nat.toDigits 10 n).head?, c ≠ '-' := by
    rintro c hc rfl
    have := Nat.isDigit_of_mem_toDigits (b := 10) (by decide) (by decide) (List.mem_of_head? hc)
    exact absurd this (by decide)
  have habsorb := absorb_eq (s := 0) ((foldl_digitValues n).symm ▸ hn)
  rw [foldl_digitValues] at habsorb
  refine readNumber_eq_ok.mpr ⟨_, (scanSigned_of_ne hhead).trans (scanNumeral_toDigits false n), ?_⟩
  rw [numberOf, Decimal.Numeral.value?, habsorb]
  rfl

lemma readNumber_negative {n : Nat} (hpos : 0 < n) (hn : 2 * n ≤ words) :
    readNumber ('-' :: Nat.toDigits 10 n) = .ok (.integer (-n), []) := by
  have hlt : n < words := by unfold words at hn ⊢; omega
  have habsorb := absorb_eq (s := 0) ((foldl_digitValues n).symm ▸ hlt)
  rw [foldl_digitValues] at habsorb
  refine readNumber_eq_ok.mpr ⟨_, scanNumeral_toDigits true n, ?_⟩
  simp only [numberOf, Decimal.Numeral.value?, habsorb]
  simp [hpos, hn]

/-- **Integers are read back.**  This takes all of a reader's 64 bits, and no more. -/
lemma readNumber_integer {n : Int} (hlow : -9223372036854775808 ≤ n)
    (hhigh : n < 18446744073709551616) :
    readNumber (numberText (.integer n)) = .ok (.integer n, []) := by
  cases n with
  | ofNat n =>
    have htext : numberText (.integer (.ofNat n)) = Nat.toDigits 10 n := Nat.toList_repr
    rw [htext]
    exact readNumber_natural (Int.ofNat_lt.mp hhigh)
  | negSucc n =>
    have htext : numberText (.integer (.negSucc n)) = '-' :: Nat.toDigits 10 (n + 1) := by
      change ("-" ++ (n + 1).repr).toList = _
      rw [String.toList_append, Nat.toList_repr]
      rfl
    rw [htext]
    exact readNumber_negative (Nat.succ_pos n) (by unfold words; omega)

end

end WorkflowGraph.Json

/-! ## Floating-point numbers -/

namespace WorkflowGraph

namespace Number

/-- What the text of the number is read as, all of it. -/
def reread (n : Number) : Option Number :=
  match Json.readNumber (Json.numberText n) with
  | .ok (read, []) => some read
  | _ => none

/-- A number that was read, at the width of `n`. -/
def atWidth (n read : Number) : Number :=
  match n with
  | .single _ => .single read.toSingle
  | _ => read

/-- The number is read back from its text.  There are only 64-bit numbers in what is read, so a
32-bit one is what its text rounds to. -/
def ReadsBack (n : Number) : Prop := n.reread.map n.atWidth = some n

instance (n : Number) : Decidable n.ReadsBack := inferInstanceAs (Decidable (_ = _))

example : (Number.single 0.1).ReadsBack := by decide +kernel

-- 10 ^ 23 is no 64-bit number, and dividing by the nearest one misses
example : ¬(Number.double 1e-23).ReadsBack := by decide +kernel

lemma readNumber_of_reread {n read : Number} (h : n.reread = some read) :
    Json.readNumber (Json.numberText n) = .ok (read, []) := by
  rw [reread] at h
  split at h
  · cases h
    assumption
  · cases h

lemma reread_integer {n : Int} (hlow : -9223372036854775808 ≤ n)
    (hhigh : n < 18446744073709551616) : (integer n).reread = some (.integer n) := by
  rw [reread, Json.readNumber_integer hlow hhigh]

lemma reread_double {x : Float} (h : (double x).ReadsBack) :
    (double x).reread = some (.double x) := by
  obtain ⟨read, hread, hx⟩ := Option.map_eq_some_iff.mp h
  rw [hread]
  exact congrArg some hx

lemma reread_single {x : Float32} (h : (single x).ReadsBack) :
    ∃ read, (single x).reread = some read ∧ read.toSingle = x := by
  obtain ⟨read, hread, hx⟩ := Option.map_eq_some_iff.mp h
  cases hx
  exact ⟨read, hread, rfl⟩

lemma readNumber_text {n read : Number} (h : n.reread = some read) {rest : List Char}
    (hrest : Json.Stops rest) :
    Json.readNumber (Json.numberText n ++ rest) = .ok (read, rest) :=
  Json.readNumber_append (readNumber_of_reread h) hrest

end Number

end WorkflowGraph
