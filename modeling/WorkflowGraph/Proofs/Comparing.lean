import WorkflowGraph.Catalog.Conditions
import WorkflowGraph.Proofs.Widening

/-!
# Comparisons

A comparison looks at what the blackboard holds under a key and at a constant.  When both are
numbers, both truth values or both texts, they are ordered, by their exact values, with false before
true, and by the bytes of the texts; and the six operators say how (`Seed.Before`, `Seed.Same`,
`Comparison.Reports`).  Otherwise no operator holds, not even the one for different values.

Numbers are compared as multiples of a small unit.  This is comparing their exact values, and so it
is comparing the numbers with 64 bits that they are converted to (`Seed.compare?_of_number?`).
-/

namespace WorkflowGraph

/-! ## Texts as bytes -/

/-- The bytes of a text. -/
def bytesOf (s : String) : List UInt8 := s.toUTF8.data.toList

lemma bytesOf_eq (s : String) : bytesOf s = s.toList.flatMap String.utf8EncodeChar := by
  rw [bytesOf, String.toUTF8_eq_toByteArray, ← String.utf8Encode_toList, List.utf8Encode,
    List.toList_data_toByteArray]

/-- The bytes of a greater character are greater, whatever follows. -/
lemma encode_append_lt {c d : Char} (h : c < d) (x y : List UInt8) :
    String.utf8EncodeChar c ++ x < String.utf8EncodeChar d ++ y := by
  have hlt : c.val.toNat < d.val.toNat := h
  have hmax : d.val.toNat < 0x110000 := d.valid.elim (fun h => by omega) fun h => h.2
  have hsixth (n : ℕ) : n / 4096 = n / 64 / 64 := (Nat.div_div_eq_div_mul n 64 64).symm
  have heighteenth (n : ℕ) : n / 262144 = n / 64 / 64 / 64 := by
    rw [Nat.div_div_eq_div_mul, Nat.div_div_eq_div_mul]
  unfold String.utf8EncodeChar
  simp only [hsixth, heighteenth]
  generalize c.val.toNat = a at hlt
  generalize d.val.toNat = b at hlt hmax
  -- one case for each pair of lengths; the leading bytes tell the lengths apart
  split_ifs
  all_goals
    simp (disch := omega) only [List.cons_append, List.nil_append, List.cons_lt_cons_iff,
      UInt8.lt_iff_toNat_lt, ← UInt8.toNat_inj, UInt8.toNat_ofNat', Nat.mod_eq_of_lt]
    omega

/-- A greater list of characters has greater bytes. -/
lemma flatMap_encode_lt {l m : List Char} (h : l < m) :
    l.flatMap String.utf8EncodeChar < m.flatMap String.utf8EncodeChar := by
  induction h with
  | @nil d m =>
      obtain ⟨byte, rest, hcons⟩ :=
        List.exists_cons_of_ne_nil (String.utf8EncodeChar_ne_nil (c := d))
      rw [List.flatMap_nil, List.flatMap_cons, hcons]
      exact List.nil_lt_cons _ _
  | @cons c l m _ ih =>
      rw [List.flatMap_cons, List.flatMap_cons]
      exact List.append_left_lt ih
  | @rel c l d m hcd =>
      rw [List.flatMap_cons, List.flatMap_cons]
      exact encode_append_lt hcd _ _

/-- Texts are ordered by their bytes. -/
lemma lt_iff_bytesOf_lt (s t : String) : s < t ↔ bytesOf s < bytesOf t := by
  rw [bytesOf_eq, bytesOf_eq]
  refine ⟨flatMap_encode_lt, fun h => ?_⟩
  rcases lt_trichotomy s t with hst | rfl | hts
  · exact hst
  · exact absurd h (List.lt_irrefl _)
  · exact absurd (flatMap_encode_lt hts) (List.lt_asymm h)

lemma compare_eq_lt_iff_bytesOf (s t : String) : compare s t = .lt ↔ bytesOf s < bytesOf t := by
  rw [← lt_iff_bytesOf_lt]
  exact compareOfLessAndEq_eq_lt

/-! ## Numbers as multiples of a unit -/

namespace Decimal

/-- The exact value of a quantity. -/
noncomputable def Quantity.value : Quantity → EReal
  | .negativeInfinity => ⊥
  | .units n => ((n * dyadic .positive 1 (-149) : ℝ) : EReal)
  | .positiveInfinity => ⊤

/-- Quantities are ordered by their exact values. -/
lemma Quantity.compare_eq (a b : Quantity) : a.compare b = cmp a.value b.value := by
  cases a with
  | negativeInfinity =>
      cases b with
      | negativeInfinity => exact (cmp_self_eq_eq _).symm
      | units n => exact (EReal.bot_lt_coe _).cmp_eq_lt.symm
      | positiveInfinity => exact bot_lt_top.cmp_eq_lt.symm
  | units n =>
      cases b with
      | negativeInfinity => exact (EReal.bot_lt_coe _).cmp_eq_gt.symm
      | units k =>
          have hunit : 0 < dyadic .positive 1 (-149) := dyadic_positive_pos one_pos
          rw [Quantity.value, Quantity.value, EReal.coe_strictMono.cmp_map_eq,
            cmp_mul_pos_right hunit, Int.cast_strictMono.cmp_map_eq, cmp_eq_compare]
          rfl
      | positiveInfinity => exact (EReal.coe_lt_top _).cmp_eq_lt.symm
  | positiveInfinity =>
      cases b with
      | negativeInfinity => exact bot_lt_top.cmp_eq_gt.symm
      | units n => exact (EReal.coe_lt_top _).cmp_eq_gt.symm
      | positiveInfinity => exact (cmp_self_eq_eq _).symm

lemma Quantity.value_ofInt (n : ℤ) : (Quantity.ofInt n).value = ((n : ℝ) : EReal) := by
  have hone : ((Quantity.one : ℤ) : ℝ) * dyadic .positive 1 (-149) = 1 := by
    have hcast : ((Quantity.one : ℤ) : ℝ) = 2 ^ (149 : ℤ) := by
      rw [Quantity.one, twoTo_eq]
      norm_num
    rw [hcast, dyadic_positive, Nat.cast_one, one_mul, ← zpow_add₀ two_ne_zero, add_neg_cancel,
      zpow_zero]
  rw [Quantity.ofInt, Quantity.value, Int.cast_mul, mul_assoc, hone, mul_one]

/-- The quantity of a number with 32 bits has its exact value. -/
lemma Quantity.value_ofSingle? (x : Float32) :
    (Quantity.ofSingle? x).map Quantity.value = exactSingle x := by
  rw [exactSingle_eq, Quantity.ofSingle?]
  cases hx : Magnitude.ofSingle x with
  | nan => rfl
  | infinite negative => cases negative <;> rfl
  | finite negative m q narrow =>
      obtain ⟨-, hleast, -⟩ := bounds_of_decode_single hx
      have hplace : q - (q + 149).toNat = -149 := by omega
      rw [Magnitude.value?, ← dyadic_shifted _ m (q + 149).toNat, hplace]
      cases negative <;> simp [Quantity.ofMagnitude?, Quantity.value, signOf, dyadic_positive,
        dyadic_negative, twoTo_eq]

lemma exists_exactSingle_iff (x : Float32) : (∃ r, exactSingle x = some r) ↔ x.isNaN = false := by
  rw [exactSingle, show x.isNaN = x.toModel.unpack.isNaN from rfl]
  cases x.toModel.unpack with
  | notANumber => simp [exactOf, Float.Model.UnpackedFloat.isNaN]
  | infinity sign => cases sign <;> simp [exactOf, Float.Model.UnpackedFloat.isNaN]
  | zero sign => simp [exactOf, Float.Model.UnpackedFloat.isNaN]
  | finite sign m e pos => simp [exactOf, Float.Model.UnpackedFloat.isNaN]

end Decimal

/-! ## The order of seeds -/

namespace Seed

open Decimal (exactSingle exactDouble)

/-- The exact value of a numeric seed. -/
noncomputable def value? : Seed → Option EReal
  | .int n => some ((n.toInt : ℝ) : EReal)
  | .float x => exactSingle x
  | .bool _ | .string _ => none

/-- The seed is a number. -/
def IsNumber : Seed → Prop
  | .int _ => True
  | .float x => x.isNaN = false
  | .bool _ | .string _ => False

/-- The seeds are of one kind: numbers, truth values or texts. -/
inductive Comparable : Seed → Seed → Prop
  | number {a b : Seed} (ha : a.IsNumber) (hb : b.IsNumber) : Comparable a b
  | bool (p q : Bool) : Comparable (.bool p) (.bool q)
  | string (s t : String) : Comparable (.string s) (.string t)

/-- The first seed comes before the second: it is a smaller number, false and the other is true, or
a text with smaller bytes. -/
inductive Before : Seed → Seed → Prop
  | number {a b : Seed} {x y : EReal} (ha : a.value? = some x) (hb : b.value? = some y)
      (h : x < y) : Before a b
  | bool : Before (.bool false) (.bool true)
  | string {s t : String} (h : bytesOf s < bytesOf t) : Before (.string s) (.string t)

/-- The seeds are the same number, truth value or text. -/
inductive Same : Seed → Seed → Prop
  | number {a b : Seed} {x : EReal} (ha : a.value? = some x) (hb : b.value? = some x) : Same a b
  | bool (p : Bool) : Same (.bool p) (.bool p)
  | string (s : String) : Same (.string s) (.string s)

variable {a b c : Seed}

lemma isNumber_iff : a.IsNumber ↔ ∃ x, a.value? = some x := by
  cases a with
  | int n => simp [IsNumber, value?]
  | float x => exact (Decimal.exists_exactSingle_iff x).symm
  | bool p => simp [IsNumber, value?]
  | string s => simp [IsNumber, value?]

lemma quantity?_map_value (a : Seed) : a.quantity?.map Decimal.Quantity.value = a.value? := by
  cases a with
  | int n => exact congrArg some (Decimal.Quantity.value_ofInt n.toInt)
  | float x => exact Decimal.Quantity.value_ofSingle? x
  | bool p => rfl
  | string s => rfl

lemma map₂_compare_quantity? (a b : Seed) :
    Option.map₂ Decimal.Quantity.compare a.quantity? b.quantity? =
      Option.map₂ cmp a.value? b.value? := by
  have hcompare : Decimal.Quantity.compare = fun q r => cmp q.value r.value :=
    funext₂ Decimal.Quantity.compare_eq
  rw [← quantity?_map_value, ← quantity?_map_value, Option.map₂_map_left, Option.map₂_map_right,
    hcompare]

/-- Seeds that are not both truth values or both texts are compared as numbers. -/
lemma compare?_cases (a b : Seed) :
    (∃ p q, a = .bool p ∧ b = .bool q) ∨ (∃ s t, a = .string s ∧ b = .string t) ∨
      a.compare? b = Option.map₂ cmp a.value? b.value? := by
  rw [← map₂_compare_quantity?]
  cases a <;> cases b
  case bool.bool p q => exact .inl ⟨p, q, rfl, rfl⟩
  case string.string s t => exact .inr (.inl ⟨s, t, rfl, rfl⟩)
  all_goals
    refine .inr (.inr ?_)
    simp only [compare?, Option.map₂, Option.map_eq_bind]
    rfl

lemma compare?_of_value? {x y : EReal} (ha : a.value? = some x) (hb : b.value? = some y) :
    a.compare? b = some (cmp x y) := by
  rcases compare?_cases a b with ⟨p, q, rfl, rfl⟩ | ⟨s, t, rfl, rfl⟩ | hcompare
  · cases ha
  · cases ha
  · rw [hcompare, ha, hb]
    rfl

/-- Seeds that are ordered are both numbers, both truth values or both texts. -/
lemma exists_of_compare? {o : Ordering} (h : a.compare? b = some o) :
    (∃ x y, a.value? = some x ∧ b.value? = some y ∧ cmp x y = o) ∨
      (∃ p q, a = .bool p ∧ b = .bool q ∧ compare p q = o) ∨
      ∃ s t, a = .string s ∧ b = .string t ∧ compare s t = o := by
  rcases compare?_cases a b with ⟨p, q, rfl, rfl⟩ | ⟨s, t, rfl, rfl⟩ | hcompare
  · exact .inr (.inl ⟨p, q, rfl, rfl, Option.some.inj h⟩)
  · exact .inr (.inr ⟨s, t, rfl, rfl, Option.some.inj h⟩)
  · rw [hcompare] at h
    obtain ⟨x, y, hx, hy, ho⟩ := Option.map₂_eq_some_iff.mp h
    exact .inl ⟨x, y, hx, hy, ho⟩

/-- A seed counts as less exactly when it comes before the other. -/
lemma compare?_eq_lt_iff : a.compare? b = some .lt ↔ a.Before b := by
  constructor
  · intro h
    obtain ⟨x, y, hx, hy, ho⟩ | ⟨p, q, rfl, rfl, ho⟩ | ⟨s, t, rfl, rfl, ho⟩ := exists_of_compare? h
    · exact .number hx hy ((cmp_eq_lt_iff _ _).mp ho)
    · obtain ⟨rfl, rfl⟩ : p = false ∧ q = true := Bool.lt_iff.mp (compare_lt_iff_lt.mp ho)
      exact .bool
    · exact .string ((compare_eq_lt_iff_bytesOf s t).mp ho)
  · intro h
    cases h with
    | number ha hb h => rw [compare?_of_value? ha hb, h.cmp_eq_lt]
    | bool => rfl
    | string h => exact congrArg some ((compare_eq_lt_iff_bytesOf _ _).mpr h)

/-- Two seeds count as equal exactly when they are the same. -/
lemma compare?_eq_eq_iff : a.compare? b = some .eq ↔ a.Same b := by
  constructor
  · intro h
    obtain ⟨x, y, hx, hy, ho⟩ | ⟨p, q, rfl, rfl, ho⟩ | ⟨s, t, rfl, rfl, ho⟩ := exists_of_compare? h
    · obtain rfl : x = y := (cmp_eq_eq_iff _ _).mp ho
      exact .number hx hy
    · obtain rfl : p = q := compare_eq_iff_eq.mp ho
      exact .bool p
    · obtain rfl : s = t := Std.LawfulEqOrd.eq_of_compare ho
      exact .string s
  · intro h
    cases h with
    | number ha hb => rw [compare?_of_value? ha hb, cmp_self_eq_eq]
    | bool p => exact congrArg some (compare_eq_iff_eq.mpr rfl)
    | string s => exact congrArg some Std.ReflOrd.compare_self

lemma compare?_swap (a b : Seed) : b.compare? a = (a.compare? b).map Ordering.swap := by
  rcases compare?_cases a b with ⟨p, q, rfl, rfl⟩ | ⟨s, t, rfl, rfl⟩ | hcompare
  · exact congrArg some Std.OrientedOrd.eq_swap
  · exact congrArg some Std.OrientedOrd.eq_swap
  · rcases compare?_cases b a with ⟨p, q, rfl, rfl⟩ | ⟨s, t, rfl, rfl⟩ | hback
    · exact congrArg some Std.OrientedOrd.eq_swap
    · exact congrArg some Std.OrientedOrd.eq_swap
    · rw [hcompare, hback, Option.map_map₂, Option.map₂_swap]
      simp only [cmp_swap]

lemma compare?_eq_gt_iff : a.compare? b = some .gt ↔ b.Before a := by
  rw [← compare?_eq_lt_iff, compare?_swap a b]
  cases a.compare? b with
  | none => simp
  | some o => cases o <;> simp

/-- Seeds are ordered exactly when they can be compared. -/
lemma exists_compare?_iff : (∃ o, a.compare? b = some o) ↔ a.Comparable b := by
  constructor
  · rintro ⟨o, h⟩
    obtain ⟨x, y, hx, hy, -⟩ | ⟨p, q, rfl, rfl, -⟩ | ⟨s, t, rfl, rfl, -⟩ := exists_of_compare? h
    · exact .number (isNumber_iff.mpr ⟨x, hx⟩) (isNumber_iff.mpr ⟨y, hy⟩)
    · exact .bool p q
    · exact .string s t
  · intro h
    cases h with
    | number ha hb =>
        obtain ⟨x, hx⟩ := isNumber_iff.mp ha
        obtain ⟨y, hy⟩ := isNumber_iff.mp hb
        exact ⟨_, compare?_of_value? hx hy⟩
    | bool p q => exact ⟨_, rfl⟩
    | string s t => exact ⟨_, rfl⟩

/-- Coming before is a strict order. -/
instance isStrictOrder_before : IsStrictOrder Seed Before where
  irrefl a h := by
    cases h with
    | number ha hb h =>
        obtain rfl := Option.some.inj (ha.symm.trans hb)
        exact lt_irrefl _ h
    | string h => exact List.lt_irrefl _ h
  trans a b c hab hbc := by
    cases hab with
    | number ha hb h =>
        cases hbc with
        | number hb' hc h' =>
            obtain rfl := Option.some.inj (hb.symm.trans hb')
            exact .number ha hc (h.trans h')
        | bool | string => cases hb
    | bool =>
        cases hbc with
        | number hb => cases hb
    | string h =>
        cases hbc with
        | number hb => cases hb
        | string h' => exact .string (List.lt_trans h h')

lemma Same.symm (h : a.Same b) : b.Same a := by
  cases h with
  | number ha hb => exact .number hb ha
  | bool p => exact .bool p
  | string s => exact .string s

/-- The same seeds are ordered alike. -/
lemma Same.compare?_eq (h : a.Same b) (c : Seed) : a.compare? c = b.compare? c := by
  cases h with
  | number ha hb =>
      rcases compare?_cases a c with ⟨p, q, rfl, rfl⟩ | ⟨s, t, rfl, rfl⟩ | hac
      · cases ha
      · cases ha
      · rcases compare?_cases b c with ⟨p, q, rfl, rfl⟩ | ⟨s, t, rfl, rfl⟩ | hbc
        · cases hb
        · cases hb
        · rw [hac, hbc, ha, hb]
  | bool p => rfl
  | string s => rfl

lemma Same.trans (h : a.Same b) (h' : b.Same c) : a.Same c := by
  rw [← compare?_eq_eq_iff, h.compare?_eq, compare?_eq_eq_iff]
  exact h'

lemma Same.before_iff (h : a.Same b) (c : Seed) : a.Before c ↔ b.Before c := by
  rw [← compare?_eq_lt_iff, h.compare?_eq, compare?_eq_lt_iff]

lemma Same.after_iff (h : a.Same b) (c : Seed) : c.Before a ↔ c.Before b := by
  rw [← compare?_eq_gt_iff, h.compare?_eq, compare?_eq_gt_iff]

lemma before_int_iff (m n : Int32) : (int m).Before (.int n) ↔ m < n := by
  rw [Int32.lt_iff_toInt_lt]
  constructor
  · rintro (⟨⟨⟩, ⟨⟩, h⟩)
    simpa using h
  · intro h
    exact .number rfl rfl (by simpa using h)

lemma same_int_iff (m n : Int32) : (int m).Same (.int n) ↔ m = n := by
  rw [← Int32.toInt_inj]
  constructor
  · rintro (⟨ha, hb⟩)
    simpa [value?] using ha.trans hb.symm
  · intro h
    exact .number rfl (by simp [value?, h])

/-- Numbers are widened exactly. -/
lemma exactDouble_of_number? {x : Float} (h : a.number? = some x) : exactDouble x = a.value? := by
  cases a with
  | int n =>
      cases h
      have hlow := n.le_toInt
      have hhigh := n.toInt_lt
      exact Decimal.exactDouble_ofInt (by omega)
  | float y =>
      cases h
      exact Decimal.exactDouble_widen y
  | bool p => cases h
  | string s => cases h

lemma compare?_of_number? {x y : Float} (ha : a.number? = some x) (hb : b.number? = some y) :
    a.compare? b = x.toModel.compare y.toModel := by
  rw [Decimal.compare_eq_cmp, exactDouble_of_number? ha, exactDouble_of_number? hb]
  rcases compare?_cases a b with ⟨p, q, rfl, rfl⟩ | ⟨s, t, rfl, rfl⟩ | hcompare
  · cases ha
  · cases ha
  · exact hcompare

end Seed

namespace Comparison

/-- The operator that says the same once the two sides are exchanged. -/
def mirrored : Comparison → Comparison
  | .eq => .eq
  | .ne => .ne
  | .lt => .gt
  | .le => .ge
  | .gt => .lt
  | .ge => .le

lemma accepts_mirrored (op : Comparison) (o : Ordering) :
    op.mirrored.accepts o.swap = op.accepts o := by
  cases op <;> cases o <;> rfl

/-- The operators that pass report one order: exactly one of "less", "equal" and "greater" passes,
and the other operators pass accordingly. -/
structure Reports (passes : Comparison → Bool) (before same after : Prop) : Prop where
  lt : passes .lt ↔ before
  eq : passes .eq ↔ same
  gt : passes .gt ↔ after
  one : [Comparison.lt, .eq, .gt].countP passes = 1
  ne : passes .ne ↔ ¬ passes .eq
  le : passes .le ↔ passes .lt ∨ passes .eq
  ge : passes .ge ↔ passes .gt ∨ passes .eq

lemma reports_accepts (o : Ordering) : Reports (accepts · o) (o = .lt) (o = .eq) (o = .gt) where
  lt := by cases o <;> decide
  eq := by cases o <;> decide
  gt := by cases o <;> decide
  one := by cases o <;> rfl
  ne := by cases o <;> decide
  le := by cases o <;> decide
  ge := by cases o <;> decide

end Comparison

/-! ## Comparisons on the blackboard -/

namespace BuiltinCondition

variable {s : Session} {key : String} {a b : Seed} {op : Comparison}

lemma holds_compare (held : s.context.blackboard[key]? = some (.seed a)) :
    (compare key op b).holds s = (a.compare? b).any op.accepts := by
  simp only [holds, Blackboard.seed?, held]

/-- Only seeds that can be compared pass. -/
lemma comparable_of_holds (h : (compare key op b).holds s = true) :
    ∃ a, s.context.blackboard[key]? = some (.seed a) ∧ a.Comparable b := by
  cases hheld : s.context.blackboard[key]? with
  | none => simp [holds, Blackboard.seed?, hheld] at h
  | some stored =>
      cases stored with
      | seed a =>
          rw [holds_compare hheld, Option.any_eq_true] at h
          obtain ⟨o, ho, -⟩ := h
          exact ⟨a, rfl, Seed.exists_compare?_iff.mp ⟨o, ho⟩⟩
      | long n => simp [holds, Blackboard.seed?, hheld] at h

lemma reports_holds (held : s.context.blackboard[key]? = some (.seed a))
    (comparable : a.Comparable b) :
    Comparison.Reports (fun op => (compare key op b).holds s) (a.Before b) (a.Same b)
      (b.Before a) := by
  obtain ⟨o, ho⟩ := Seed.exists_compare?_iff.mpr comparable
  rw [← Seed.compare?_eq_lt_iff, ← Seed.compare?_eq_eq_iff, ← Seed.compare?_eq_gt_iff]
  simp only [holds_compare held, ho, Option.some.injEq]
  exact Comparison.reports_accepts o

lemma any_accepts_mirrored (a b : Seed) (op : Comparison) :
    (b.compare? a).any op.mirrored.accepts = (a.compare? b).any op.accepts := by
  rw [Seed.compare?_swap a b]
  cases a.compare? b with
  | none => rfl
  | some o => exact Comparison.accepts_mirrored op o

/-- **Comparisons report one order.**  "Before" is a strict order in which the same seeds stand at
the same place.  Numbers are ordered by their exact values, so that integers are ordered as usual,
and converting numbers to 64 bits does not change these values; false is before true, and texts are
ordered by their bytes.

When the key holds nothing that can be compared with the value, no operator passes.  When it does,
the operators that pass say whether what it holds is before the value, the same, or after it, and no
two of these.  The operators that pass are those that accept how the numbers with 64 bits compare,
and exchanging the two sides mirrors the operators. -/
theorem compare_reports_order :
    (IsStrictOrder Seed Seed.Before ∧
      (∀ a b c : Seed, a.Same b →
        b.Same a ∧ (b.Same c → a.Same c) ∧ (a.Before c ↔ b.Before c) ∧
          (c.Before a ↔ c.Before b)) ∧
      (∀ m n : Int32, ((Seed.int m).Before (.int n) ↔ m < n) ∧
        ((Seed.int m).Same (.int n) ↔ m = n)) ∧
      ∀ (a : Seed) (x : Float), a.number? = some x → Decimal.exactDouble x = a.value?) ∧
    ∀ (s : Session) (key : String) (value : Seed),
      ((¬ ∃ held, s.context.blackboard[key]? = some (.seed held) ∧ held.Comparable value) →
        ∀ op, (compare key op value).holds s = false) ∧
      ∀ held, s.context.blackboard[key]? = some (.seed held) → held.Comparable value →
        Comparison.Reports (fun op => (compare key op value).holds s)
          (held.Before value) (held.Same value) (value.Before held) ∧
        (∀ x y, held.number? = some x → value.number? = some y →
          ∀ op, (compare key op value).holds s =
            (x.toModel.compare y.toModel).any op.accepts) ∧
        ∀ (t : Session) (other : String), t.context.blackboard[other]? = some (.seed value) →
          ∀ op, (compare other op.mirrored held).holds t = (compare key op value).holds s := by
  refine ⟨⟨inferInstance, ?_, ?_, fun a x => Seed.exactDouble_of_number?⟩, ?_⟩
  · intro a b c h
    exact ⟨h.symm, h.trans, h.before_iff c, h.after_iff c⟩
  · exact fun m n => ⟨Seed.before_int_iff m n, Seed.same_int_iff m n⟩
  · intro s key value
    refine ⟨fun incomparable op => ?_, fun held hheld comparable => ⟨?_, ?_, ?_⟩⟩
    · rw [Bool.eq_false_iff]
      exact fun passes => incomparable (comparable_of_holds passes)
    · exact reports_holds hheld comparable
    · intro x y hx hy op
      rw [holds_compare hheld, Seed.compare?_of_number? hx hy]
    · intro t other hother op
      rw [holds_compare hother, holds_compare hheld, any_accepts_mirrored]

/-- A guest with ten coins and a price of nine and a half: all there is to say of the two numbers,
in both directions, and nothing of a number and a text. -/
theorem compare_reports_order_coins :
    let price : Seed := .float (.ofBits 0x41180000)
    let s : Session := Session.alone.onContext fun c =>
      { c with blackboard := c.blackboard.write "coins" (.int 10) }
    let t : Session := Session.alone.onContext fun c =>
      { c with blackboard := c.blackboard.write "price" price }
    (compare "coins" .gt price).holds s = true ∧ (compare "coins" .ne price).holds s = true ∧
      (compare "coins" .le price).holds s = false ∧
      (compare "price" .lt (.int 10)).holds t = true ∧
      (compare "coins" .ne (.string "10")).holds s = false := by
  intro price s t
  have hcoins : s.context.blackboard["coins"]? = some (.seed (.int 10)) :=
    Std.ExtTreeMap.getElem?_insert_self
  have hprice : t.context.blackboard["price"]? = some (.seed price) :=
    Std.ExtTreeMap.getElem?_insert_self
  -- The single is 9.5, that is 9961472 times the power of two with exponent -20.
  have hbelow : price.Before (.int 10) := by
    refine .number (x := ((Decimal.dyadic .positive 9961472 (-20) : ℝ) : EReal)) rfl rfl ?_
    have hten : (10 : Int32).toInt = 10 := rfl
    rw [EReal.coe_lt_coe_iff, Decimal.dyadic_positive, hten]
    norm_num
  obtain ⟨⟨strict, hsame, -⟩, hconditions⟩ := compare_reports_order
  have hnotSame : ¬ (Seed.int 10).Same price := fun same =>
    strict.irrefl _ ((hsame _ _ _ same).2.2.2.mp hbelow)
  have hnotBelow : ¬ (Seed.int 10).Before price := fun h =>
    strict.irrefl _ (strict.trans _ _ _ hbelow h)
  obtain ⟨reports, -, hmirrored⟩ :=
    (hconditions s "coins" price).2 (.int 10) hcoins (.number trivial rfl)
  have hgreater : (compare "coins" .gt price).holds s = true := reports.gt.mpr hbelow
  have hdifferent : (compare "coins" .ne price).holds s = true :=
    reports.ne.mpr fun h => hnotSame (reports.eq.mp h)
  have hnotLess : (compare "coins" .le price).holds s = false := by
    rw [Bool.eq_false_iff]
    exact fun h => (reports.le.mp h).elim (hnotBelow ∘ reports.lt.mp) (hnotSame ∘ reports.eq.mp)
  refine ⟨hgreater, hdifferent, hnotLess, (hmirrored t "price" hprice .gt).trans hgreater, ?_⟩
  refine (hconditions s "coins" (.string "10")).1 ?_ .ne
  rintro ⟨held, hheld, comparable⟩
  obtain rfl : .int 10 = held := by simpa [hcoins] using hheld
  rcases comparable with ⟨-, ⟨⟩⟩

end BuiltinCondition

end WorkflowGraph
