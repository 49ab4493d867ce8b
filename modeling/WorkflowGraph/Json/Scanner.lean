import WorkflowGraph.Json.Fault
import WorkflowGraph.Decimal.Numeral

/-!
# Scanning JSON text

The pieces from which readers of JSON text are made.  A reader takes the characters still to be
read and gives what it read together with the rest.  Text is read from left to right and the
first thing that is wrong decides, so containers are taken apart step by step: `nextItem` and
`nextKey` stop at the end of a container or get to the next item or member, and what happens
with it is up to the reader.

Values of no interest are passed over by `skipValue`, which checks less than `readJson`: it
neither bounds how deep they nest nor looks at the size of numbers or at the code points of
escapes.
-/

namespace WorkflowGraph.Json

/-- What was read and the rest of the text. -/
abbrev Scanned (α : Type) := α × List Char

/-- The space that may stand between the tokens of a text. -/
def isSpace (c : Char) : Bool := c == ' ' || c == '\n' || c == '\t' || c == '\r'

/-- The text from the next token on. -/
def skipSpace (cs : List Char) : List Char := cs.dropWhile isSpace

/-- Reads the given characters. -/
def expect (word : List Char) (cs : List Char) : Except Fault (List Char) :=
  if word.isPrefixOf cs then .ok (cs.drop word.length) else .error .malformed

/-! ## Strings -/

/-- The value of a hexadecimal digit. -/
def hexDigit? (c : Char) : Option Nat :=
  if '0' ≤ c ∧ c ≤ '9' then some (c.toNat - '0'.toNat)
  else if 'a' ≤ c ∧ c ≤ 'f' then some (c.toNat - 'a'.toNat + 10)
  else if 'A' ≤ c ∧ c ≤ 'F' then some (c.toNat - 'A'.toNat + 10)
  else none

/-- The value of four hexadecimal digits. -/
def hexUnit? (a b c d : Char) : Option Nat := do
  pure ((((← hexDigit? a) * 16 + (← hexDigit? b)) * 16 + (← hexDigit? c)) * 16 + (← hexDigit? d))

/-- The character that an escape of one letter stands for. -/
def unescape? : Char → Option Char
  | '"' => some '"'
  | '\\' => some '\\'
  | '/' => some '/'
  | 'b' => some '\x08'
  | 'f' => some '\x0c'
  | 'n' => some '\n'
  | 'r' => some '\r'
  | 't' => some '\t'
  | _ => none

/-- Reads the characters of a string up to its closing quote, which is read as well.  A pair of
escaped surrogates is one character; one that stands alone is none. -/
def scanString : List Char → Except Fault (Scanned (List Char))
  | [] => .error .malformed
  | '"' :: rest => .ok ([], rest)
  | '\\' :: 'u' :: a :: b :: c :: d :: rest =>
    match hexUnit? a b c d with
    | none => .error .malformed
    | some unit =>
      if 0xDC00 ≤ unit ∧ unit ≤ 0xDFFF then .error .malformed
      else if 0xD800 ≤ unit ∧ unit ≤ 0xDBFF then
        match rest with
        | '\\' :: 'u' :: e :: f :: g :: h :: rest =>
          match hexUnit? e f g h with
          | none => .error .malformed
          | some low =>
            if 0xDC00 ≤ low ∧ low ≤ 0xDFFF then
              let n := 0x10000 + (unit - 0xD800) * 0x400 + (low - 0xDC00)
              (scanString rest).map fun (cs, rest) => (Char.ofNat n :: cs, rest)
            else .error .malformed
        | _ => .error .malformed
      else (scanString rest).map fun (cs, rest) => (Char.ofNat unit :: cs, rest)
  | '\\' :: c :: rest =>
    match unescape? c with
    | some c => (scanString rest).map fun (cs, rest) => (c :: cs, rest)
    | none => .error .malformed
  | c :: rest =>
    if c.toNat < 0x20 || c == '\\' then .error .malformed
    else (scanString rest).map fun (cs, rest) => (c :: cs, rest)

/-- Reads a string from behind its opening quote. -/
def readString (cs : List Char) : Except Fault (Scanned String) :=
  (scanString cs).map fun (s, rest) => (String.ofList s, rest)

/-- Passes over a string from behind its opening quote. -/
def skipString : List Char → Except Fault (List Char)
  | [] => .error .malformed
  | '"' :: rest => .ok rest
  | '\\' :: 'u' :: a :: b :: c :: d :: rest =>
    if (hexUnit? a b c d).isSome then skipString rest else .error .malformed
  | '\\' :: c :: rest =>
    if (unescape? c).isSome then skipString rest else .error .malformed
  | c :: rest => if c.toNat < 0x20 || c == '\\' then .error .malformed else skipString rest

/-! ## Numbers -/

/-- The digits at the start of a text, by their values, and the rest. -/
def digits (cs : List Char) : List Nat × List Char :=
  ((cs.takeWhile Char.isDigit).map fun c => c.toNat - '0'.toNat, cs.dropWhile Char.isDigit)

/-- The digits at the start of a text, of which there has to be one. -/
def someDigits (cs : List Char) : Except Fault (Scanned (List Nat)) :=
  match digits cs with
  | ([], _) => .error .malformed
  | found => .ok found

/-- Reads the digits behind a point, if there is one. -/
def scanFraction : List Char → Except Fault (Scanned (Option (List Nat)))
  | '.' :: rest => (someDigits rest).map fun (ds, rest) => (some ds, rest)
  | cs => .ok (none, cs)

/-- Reads a power of ten, if there is one. -/
def scanExponent : List Char → Except Fault (Scanned (Option (Bool × List Nat)))
  | 'e' :: rest | 'E' :: rest =>
    let (negative, rest) := match rest with
      | '+' :: rest => (false, rest)
      | '-' :: rest => (true, rest)
      | rest => (false, rest)
    (someDigits rest).map fun (ds, rest) => (some (negative, ds), rest)
  | cs => .ok (none, cs)

/-- Reads a number from its first digit on.  No digit follows a leading zero. -/
def scanNumeral (negative : Bool) (cs : List Char) : Except Fault (Scanned Decimal.Numeral) := do
  let (whole, rest) ← someDigits cs
  if whole.head? = some 0 ∧ 1 < whole.length then throw .malformed
  let (fraction, rest) ← scanFraction rest
  let (exponent, rest) ← scanExponent rest
  pure (⟨negative, whole, fraction, exponent⟩, rest)

/-- The number a numeral stands for. -/
def numberOf (numeral : Decimal.Numeral) : Except Fault Number :=
  match numeral.value? with
  | some (.integer n) => .ok (.integer n)
  | some (.double x) => .ok (.double x)
  | none => .error .malformed

/-! ## Values without items or members -/

/-- Reads a number from its sign or first digit on. -/
def readNumber (cs : List Char) : Except Fault (Scanned Number) := do
  let (numeral, rest) ← match cs with
    | '-' :: rest => scanNumeral true rest
    | cs => scanNumeral false cs
  pure (← numberOf numeral, rest)

/-- Reads a value that is neither an array nor an object. -/
def readLeaf : List Char → Except Fault (Scanned Json)
  | '"' :: rest => do
    let (s, rest) ← readString rest
    pure (.string s, rest)
  | 'n' :: rest => do pure (.null, ← expect ['u', 'l', 'l'] rest)
  | 't' :: rest => do pure (.boolean true, ← expect ['r', 'u', 'e'] rest)
  | 'f' :: rest => do pure (.boolean false, ← expect ['a', 'l', 's', 'e'] rest)
  | cs => do
    let (n, rest) ← readNumber cs
    pure (.number n, rest)

/-- The fault of a value that is not what was expected.  The value is read first if it is no
container, and may turn out to be malformed. -/
def unexpected (expected : String) (cs : List Char) : Fault :=
  match skipSpace cs with
  | '[' :: _ => .mismatch (.wrongType .sequence expected)
  | '\x7b' :: _ => .mismatch (.wrongType .map expected)
  | cs =>
    match readLeaf cs with
    | .ok (value, _) => .mismatch (.wrongType (Found.of value) expected)
    | .error fault => fault

/-! ## Containers -/

/-- A step through a container: its closing bracket has been read, or the next item or member
has been reached. -/
inductive Step (α : Type) where
  | stop (rest : List Char)
  | next (value : α) (rest : List Char)

/-- Gets to the next item of an array, past the comma unless it is the first one. -/
def nextItem (first : Bool) (cs : List Char) : Except Fault (Step Unit) :=
  match skipSpace cs with
  | [] => .error .malformed
  | ']' :: rest => .ok (.stop rest)
  | c :: rest =>
    if first then .ok (.next () (c :: rest))
    else if c = ',' then
      match skipSpace rest with
      | [] | ']' :: _ => .error .malformed
      | rest => .ok (.next () rest)
    else .error .malformed

/-- Gets to the next member of an object, past the comma unless it is the first one, and reads
its key. -/
def nextKey (first : Bool) (cs : List Char) : Except Fault (Step String) :=
  let key (cs : List Char) : Except Fault (Step String) :=
    match cs with
    | '"' :: rest => (readString rest).map fun (s, rest) => .next s rest
    | _ => .error .malformed
  match skipSpace cs with
  | '\x7d' :: rest => .ok (.stop rest)
  | ',' :: rest => if first then .error .malformed else key (skipSpace rest)
  | cs => if first then key cs else .error .malformed

/-- Reads the colon between a key and its value. -/
def colon (cs : List Char) : Except Fault (List Char) :=
  match skipSpace cs with
  | ':' :: rest => .ok rest
  | _ => .error .malformed

/-- The depth left inside a container, if there is any. -/
def deeper : Nat → Except Fault Nat
  | 0 => .error .malformed
  | depth + 1 => .ok depth

/-- Reads the items of an array from behind its opening bracket. -/
def readItems {α : Type} (item : List Char → Except Fault (Scanned α)) :
    Nat → Bool → List Char → Except Fault (Scanned (List α))
  | 0, _, _ => .error .malformed
  | fuel + 1, first, cs => do
    match ← nextItem first cs with
    | .stop rest => pure ([], rest)
    | .next _ rest =>
      let (value, rest) ← item rest
      let (values, rest) ← readItems item fuel false rest
      pure (value :: values, rest)

/-- Reads the members of an object from behind its opening bracket. -/
def readMembers {α : Type} (value : List Char → Except Fault (Scanned α)) :
    Nat → Bool → List Char → Except Fault (Scanned (List (String × α)))
  | 0, _, _ => .error .malformed
  | fuel + 1, first, cs => do
    match ← nextKey first cs with
    | .stop rest => pure ([], rest)
    | .next key rest =>
      let (read, rest) ← value (← colon rest)
      let (members, rest) ← readMembers value fuel false rest
      pure ((key, read) :: members, rest)

/-- Reads any value in which at most `depth` containers are open at a time. -/
def readJson (depth : Nat) (cs : List Char) : Except Fault (Scanned Json) :=
  match skipSpace cs with
  | '[' :: rest =>
    match depth with
    | 0 => .error .malformed
    | depth + 1 =>
      (readItems (readJson depth) (rest.length + 1) true rest).map fun (items, rest) =>
        (.array items, rest)
  | '\x7b' :: rest =>
    match depth with
    | 0 => .error .malformed
    | depth + 1 =>
      (readMembers (readJson depth) (rest.length + 1) true rest).map fun (members, rest) =>
        (ofMembers members, rest)
  | cs => readLeaf cs

/-! ## Passing over values -/

/-- Passes over a value that is neither an array nor an object. -/
def skipLeaf : List Char → Except Fault (List Char)
  | '"' :: rest => skipString rest
  | 'n' :: rest => expect ['u', 'l', 'l'] rest
  | 't' :: rest => expect ['r', 'u', 'e'] rest
  | 'f' :: rest => expect ['a', 'l', 's', 'e'] rest
  | '-' :: rest => (scanNumeral true rest).map (·.2)
  | cs => (scanNumeral false cs).map (·.2)

mutual

/-- Passes over any value. -/
def skipValueWithin : Nat → List Char → Except Fault (List Char)
  | 0, _ => .error .malformed
  | fuel + 1, cs =>
    match skipSpace cs with
    | '[' :: rest => skipItems fuel true rest
    | '\x7b' :: rest => skipMembers fuel true rest
    | cs => skipLeaf cs

/-- Passes over the items of an array. -/
def skipItems : Nat → Bool → List Char → Except Fault (List Char)
  | 0, _, _ => .error .malformed
  | fuel + 1, first, cs => do
    match ← nextItem first cs with
    | .stop rest => pure rest
    | .next _ rest => skipItems fuel false (← skipValueWithin fuel rest)

/-- Passes over the members of an object. -/
def skipMembers : Nat → Bool → List Char → Except Fault (List Char)
  | 0, _, _ => .error .malformed
  | fuel + 1, first, cs => do
    let value (rest : List Char) : Except Fault (List Char) := do
      skipMembers fuel false (← skipValueWithin fuel (← colon rest))
    match skipSpace cs with
    | '\x7d' :: rest => pure rest
    | ',' :: rest =>
      match first, skipSpace rest with
      | false, '"' :: rest => value (← skipString rest)
      | _, _ => .error .malformed
    | '"' :: rest => if first then value (← skipString rest) else .error .malformed
    | _ => .error .malformed

end

/-- Passes over any value; every step of the scan reads at least one character. -/
def skipValue (cs : List Char) : Except Fault (List Char) :=
  skipValueWithin (2 * cs.length + 2) cs

end WorkflowGraph.Json
