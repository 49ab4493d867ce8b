import WorkflowGraph.Proofs.Floats
import WorkflowGraph.Seed

/-!
# Widening

A number with 32 bits, and an integer that is not too large, is converted to the number with 64 bits
that stands for exactly the same number: shifting its mantissa to the left until it fills the wider
field loses nothing, and there is always an exponent for it.
-/

namespace WorkflowGraph.Decimal

open Float.Model (Format UnpackedFloat)
open Float.Model.UnpackedFloat (Sign unpack)

/-! ## From 32 bits to 64 -/

/-- A mantissa that is shifted so far to the left that it fills its field. -/
lemma shifted_bounds {m : ℕ} (pos : 0 < m) (hlog : m.log2 ≤ 52) :
    2 ^ 52 ≤ m * 2 ^ (52 - m.log2) ∧ m * 2 ^ (52 - m.log2) < 2 ^ 53 := by
  have hlow : 2 ^ m.log2 ≤ m := Nat.log2_self_le pos.ne'
  have hhigh : m < 2 ^ (m.log2 + 1) := Nat.lt_log2_self
  have hpos : 0 < 2 ^ (52 - m.log2) := Nat.two_pow_pos _
  constructor
  · calc 2 ^ 52 = 2 ^ m.log2 * 2 ^ (52 - m.log2) := by rw [← pow_add]; congr 1; omega
      _ ≤ m * 2 ^ (52 - m.log2) := Nat.mul_le_mul_right _ hlow
  · calc m * 2 ^ (52 - m.log2) < 2 ^ (m.log2 + 1) * 2 ^ (52 - m.log2) :=
          Nat.mul_lt_mul_of_pos_right hhigh hpos
      _ = 2 ^ 53 := by rw [← pow_add]; congr 1; omega

lemma dyadic_shifted (sign : Sign) (m k : ℕ) (e : ℤ) :
    dyadic sign (m * 2 ^ k) (e - k) = dyadic sign m e := by
  have hpow : (2 : ℝ) ^ e = 2 ^ k * 2 ^ (e - k) := by
    rw [← zpow_natCast, ← zpow_add₀ two_ne_zero, add_sub_cancel]
  have happly : (sign.apply ((m * 2 ^ k : ℕ) : ℤ) : ℤ) = sign.apply m * 2 ^ k := by
    cases sign <;> simp [Sign.apply]
  rw [dyadic, dyadic, happly, hpow]
  push_cast
  ring

/-- The 32-bit format has short mantissas and moderate exponents. -/
lemma bounds_of_decode_single {bits m : ℕ} {q : ℤ} {negative narrow : Bool}
    (h : Width.single.decode bits = .finite negative m q narrow) :
    m < 2 ^ 24 ∧ -149 ≤ q ∧ q ≤ 104 := by
  have hfloor : Width.single.floorExponent = -149 := rfl
  have hleading : twoTo Width.single.fraction = 2 ^ 23 := rfl
  have hallOnes : twoTo Width.single.exponent - 1 = 255 := rfl
  have hfraction : bits % twoTo Width.single.fraction < 2 ^ 23 := Nat.mod_lt _ (by decide)
  have hexponent : bits / twoTo Width.single.fraction % twoTo Width.single.exponent < 256 :=
    Nat.mod_lt _ (by decide)
  simp only [Width.decode, hfloor, hallOnes] at h
  generalize bits / twoTo Width.single.fraction % twoTo Width.single.exponent = x at *
  generalize bits % twoTo Width.single.fraction = f at *
  split_ifs at h with hmax _ hmin
  · obtain ⟨-, rfl, rfl, -⟩ := Magnitude.finite.inj h
    omega
  · obtain ⟨-, rfl, rfl, -⟩ := Magnitude.finite.inj h
    omega

/-- What a 64-bit pattern denotes that has a sign, an exponent that is not extreme and a
fraction. -/
lemma decode_double (negative : Bool) {x f : ℕ} (hx : x < 2046) (hf : f < 2 ^ 52) :
    (Width.double.decode (Width.double.sign negative + ((x + 1) * 2 ^ 52 + f))).value? =
      some ((dyadic (signOf negative) (2 ^ 52 + f) (x - 1074) : ℝ) : EReal) := by
  have hfloor : Width.double.floorExponent = -1074 := rfl
  obtain ⟨s, hs, hsign, hnegative⟩ : ∃ s < 2, Width.double.sign negative = s * 2 ^ 63 ∧
      (s == 1) = negative := by
    cases negative
    · exact ⟨0, by decide, rfl, rfl⟩
    · exact ⟨1, by decide, rfl, rfl⟩
  have hfraction : (s * 2 ^ 63 + ((x + 1) * 2 ^ 52 + f)) % 2 ^ 52 = f := by omega
  have hexponent : (s * 2 ^ 63 + ((x + 1) * 2 ^ 52 + f)) / 2 ^ 52 % 2 ^ 11 = x + 1 := by omega
  have hlead : (s * 2 ^ 63 + ((x + 1) * 2 ^ 52 + f)) / 2 ^ 63 % 2 = s := by omega
  have hplace : (-1074 : ℤ) + (x + 1 : ℕ) - 1 = x - 1074 := by omega
  simp only [Width.decode, hfloor, hsign]
  simp only [Width.double, twoTo_eq, hfraction, hexponent, hlead, hnegative, hplace]
  rw [if_neg (by omega), if_neg (by omega), Magnitude.value?]

/-- In 64 bits there is an exact pattern for a short mantissa with a moderate exponent. -/
lemma encodePositive_double (sign : Sign) {m : ℕ} {q : ℤ} (pos : 0 < m) (hm : m < 2 ^ 24)
    (least : -149 ≤ q) (greatest : q ≤ 104) :
    ∃ x < 2046, ∃ f < 2 ^ 52, Width.double.encodePositive m q = (x + 1) * 2 ^ 52 + f ∧
      dyadic sign (2 ^ 52 + f) (x - 1074) = dyadic sign m q := by
  have hlog : m.log2 < 24 := (Nat.log2_lt pos.ne').mpr hm
  have hbounds := shifted_bounds pos (by omega)
  obtain ⟨f, hf⟩ : ∃ f, m * 2 ^ (52 - m.log2) = 2 ^ 52 + f := Nat.exists_eq_add_of_le hbounds.1
  obtain ⟨x, hx⟩ : ∃ x : ℕ, q + m.log2 + 1022 = x := Int.eq_ofNat_of_zero_le (by omega)
  have hx' : x < 2046 := by omega
  have hf' : f < 2 ^ 52 := by omega
  refine ⟨x, hx', f, hf', ?_, ?_⟩
  · have hbelow : (x + 1) * 2 ^ 52 + f ≤ 2047 * 2 ^ 52 := by omega
    -- The leading bit, added to the row of the exponent, is what carries it to the next one.
    have hcarry : x * 2 ^ 52 + (2 ^ 52 + f) = (x + 1) * 2 ^ 52 + f := by ring
    have hplace : max Width.double.floorExponent (q + m.log2 - Width.double.fraction) =
        x - 1074 := by
      show max (-1074) (q + m.log2 - 52) = x - 1074
      omega
    have hrow : (x - 1074 - Width.double.floorExponent).toNat = x := by
      show (x - 1074 - -1074 : ℤ).toNat = x
      omega
    have hshift : (q - (x - 1074)).toNat = 52 - m.log2 := by omega
    -- Twenty-four bits fit into fifty-three, so nothing is rounded away.
    have hunit : (x - 1074 - q).toNat = 0 := by omega
    have hnearest : Width.nearest m q (x - 1074) = 2 ^ 52 + f := by
      simp [Width.nearest, hshift, hunit, twoTo_eq, Nat.mod_one, hf]
    have hinfinity : Width.double.infinity = 2047 * 2 ^ 52 := by decide
    have hfraction : twoTo Width.double.fraction = 2 ^ 52 := rfl
    simp only [Width.encodePositive, hplace, hrow, hnearest, hinfinity, hfraction, hcarry]
    exact min_eq_left hbelow
  · have hexponent : (x - 1074 : ℤ) = q - (52 - m.log2 : ℕ) := by omega
    rw [← hf, hexponent, dyadic_shifted]

/-- What the 64-bit pattern of a 32-bit number denotes. -/
lemma decode_encode_double (negative narrow : Bool) {m : ℕ} {q : ℤ} (hm : m < 2 ^ 24)
    (least : -149 ≤ q) (greatest : q ≤ 104) :
    Width.double.encode (.finite negative m q narrow) < 2 ^ 64 ∧
      (Width.double.decode (Width.double.encode (.finite negative m q narrow))).value? =
        (Magnitude.finite negative m q narrow).value? := by
  have hsign : Width.double.sign negative ≤ 2 ^ 63 := by cases negative <;> decide
  -- Zero keeps its sign but has no leading bit to shift to.
  rcases Nat.eq_zero_or_pos m with rfl | pos
  · rw [Width.encode, if_pos rfl, Magnitude.value?, dyadic_zero]
    refine ⟨by omega, ?_⟩
    obtain ⟨q', hzero⟩ : ∃ q', Width.double.decode (Width.double.sign negative + 0) =
        .finite negative 0 q' false := by
      cases negative <;> exact ⟨-1074, by decide⟩
    rw [hzero, Magnitude.value?, dyadic_zero]
  · obtain ⟨x, hx, f, hf, hpattern, hvalue⟩ :=
      encodePositive_double (signOf negative) pos hm least greatest
    rw [Width.encode, if_neg pos.ne', hpattern, decode_double negative hx hf, hvalue,
      Magnitude.value?]
    exact ⟨by omega, rfl⟩

/-- Widening is exact. -/
lemma exactDouble_widen (x : Float32) : exactDouble (widen x) = exactSingle x := by
  rw [exactSingle_eq, widen, exactDouble_ofBits]
  cases hx : Magnitude.ofSingle x with
  | nan => rfl
  | infinite negative => cases negative <;> rfl
  | finite negative m q narrow =>
      obtain ⟨hm, hleast, hgreatest⟩ := bounds_of_decode_single hx
      obtain ⟨hlt, hdecode⟩ := decode_encode_double negative narrow hm hleast hgreatest
      have hkept : (Width.double.encode (.finite negative m q narrow)).toUInt64.toNat =
          Width.double.encode (.finite negative m q narrow) := Nat.mod_eq_of_lt hlt
      rw [hkept, hdecode]

/-! ## Integers -/

section Rounding

open Float.Model (totalExponent)
open Float.Model.UnpackedFloat (ExtendedMantissa shiftToTargetExponent shiftToExponent
  roundWithAccuracy round decreaseExponent mul neg)

lemma shiftRight_exact (m k : ℕ) :
    ExtendedMantissa.ofMantissaAndAccuracy (m * 2 ^ k) .exact >>> k = ⟨m, false, false⟩ := by
  change k.repeat ExtendedMantissa.shiftRightOne _ = _
  induction k generalizing m with
  | zero => rw [pow_zero, mul_one]; rfl
  | succ k ih =>
      have hsplit : m * 2 ^ (k + 1) = m * 2 * 2 ^ k := by ring
      rw [Nat.repeat, hsplit, ih]
      simp [ExtendedMantissa.shiftRightOne]

lemma log2_mul_two_pow {m : ℕ} (pos : 0 < m) (k : ℕ) : (m * 2 ^ k).log2 = m.log2 + k := by
  induction k with
  | zero => rw [pow_zero, mul_one, add_zero]
  | succ k ih =>
      have hdouble : m * 2 ^ (k + 1) = 2 * (m * 2 ^ k) := by ring
      rw [hdouble, Nat.log2_two_mul (by positivity), ih, add_assoc]

lemma targetExponent_of_fits {m : ℕ} {e : ℤ} (pos : 0 < m) (fits : Fits m e) :
    Format.binary64.targetExponent (totalExponent m e) = e := by
  obtain ⟨hsmall, hleast, -, hleading⟩ := fits
  have hlog : m.log2 < 53 := (Nat.log2_lt pos.ne').mpr hsmall
  show max (m.log2 + 1 + e - 53) (-1074) = e
  rcases hleading with hleading | rfl
  · have : 52 ≤ m.log2 := (Nat.le_log2 pos.ne').mpr hleading
    omega
  · omega

/-- A number that is exact once zeros are shifted out of its mantissa is rounded to itself. -/
lemma roundWithAccuracy_of_fits (sign : Sign) {m : ℕ} {e : ℤ} (pos : 0 < m) (fits : Fits m e)
    (k : ℕ) :
    roundWithAccuracy .binary64 sign (m * 2 ^ k) (e - k) .exact = .finite sign m e pos := by
  have hshift (k : ℕ) : shiftToTargetExponent .binary64 (m * 2 ^ k) (e - k) .exact =
      (⟨m, false, false⟩, e) := by
    have htotal : totalExponent (m * 2 ^ k) (e - k) = totalExponent m e := by
      rw [totalExponent, totalExponent, log2_mul_two_pow pos]
      push_cast
      ring
    have hamount : (e - (e - k)).toNat = k := by omega
    rw [shiftToTargetExponent, htotal, targetExponent_of_fits pos fits, shiftToExponent]
    simp only [hamount, shiftRight_exact, sub_add_cancel]
  have hagain := hshift 0
  rw [pow_zero, mul_one, Nat.cast_zero, sub_zero] at hagain
  have hrounded : (ExtendedMantissa.mk m false false).roundedMantissa = m := rfl
  simp only [roundWithAccuracy, hshift, hrounded, hagain, dif_neg pos.ne']

lemma fits_of_log2 {m : ℕ} (pos : 0 < m) (hm : m < 2 ^ 53) :
    Fits (m * 2 ^ (52 - m.log2)) (m.log2 - 52) := by
  have hlog : m.log2 < 53 := (Nat.log2_lt pos.ne').mpr hm
  have hbounds := shifted_bounds pos (by omega)
  exact ⟨hbounds.2, by omega, by omega, .inl hbounds.1⟩

/-- A positive integer that has a mantissa of its own is rounded to itself. -/
lemma round_ofNat {m : ℕ} (pos : 0 < m) (hm : m < 2 ^ 53) :
    round .binary64 .positive m 0 =
      .finite .positive (m * 2 ^ (52 - m.log2)) (m.log2 - 52)
        (Nat.mul_pos pos (Nat.two_pow_pos _)) := by
  have hlog : m.log2 < 53 := (Nat.log2_lt pos.ne').mpr hm
  have htarget : Format.binary64.targetExponent (totalExponent m 0) = m.log2 - 52 := by
    show max ((m.log2 : ℤ) + 1 + 0 - 53) (-1074) = m.log2 - 52
    omega
  have hdecrease : decreaseExponent m 0 (m.log2 - 52) =
      (m * 2 ^ (52 - m.log2) * 2 ^ 0, (m.log2 - 52 : ℤ) - (0 : ℕ)) := by
    have hamount : (0 - ((m.log2 : ℤ) - 52)).toNat = 52 - m.log2 := by omega
    simp only [decreaseExponent, hamount, Nat.shiftLeft_eq, Prod.mk.injEq]
    omega
  rw [Float.Model.UnpackedFloat.round, htarget, hdecrease]
  exact roundWithAccuracy_of_fits .positive (by positivity) (fits_of_log2 pos hm) 0

lemma unpack_toFloat {m : ℕ} (pos : 0 < m) (hm : m < 2 ^ 53) :
    m.toUInt64.toFloat.toModel.unpack =
      .finite .positive (m * 2 ^ (52 - m.log2)) (m.log2 - 52)
        (Nat.mul_pos pos (Nat.two_pow_pos _)) := by
  have hkept : m.toUInt64.toNat = m := Nat.mod_eq_of_lt (by omega)
  have hcompare : compare (m.toUInt64.toNat : ℤ) 0 = .gt := by
    rw [hkept]
    exact compare_gt_iff_gt.mpr (by omega)
  refine unpack_pack_of_eq ?_ (fits_of_log2 pos hm)
  rw [Float.Model.UnpackedFloat.ofUInt64, Float.Model.UnpackedFloat.ofNat,
    Float.Model.UnpackedFloat.ofInt, Float.Model.UnpackedFloat.normalize, hcompare, hkept]
  exact round_ofNat pos hm

/-- The number that a small positive integer is converted to. -/
lemma unpack_ofNat {m : ℕ} (pos : 0 < m) (hm : m < 2 ^ 53) :
    (Float.ofNat m).toModel.unpack =
      .finite .positive (m * 2 ^ (52 - m.log2)) (m.log2 - 52)
        (Nat.mul_pos pos (Nat.two_pow_pos _)) := by
  -- an integer is read as a decimal numeral, so it is multiplied by the power of ten that is one
  have hmul : Float.ofNat m = m.toUInt64.toFloat * Float.ofBits 0x3FF0000000000000 := by
    show Float.ofScientific m false 0 = _
    rw [Float.ofScientific, dif_pos ⟨hm, by decide⟩]
    rfl
  have hone : (Float.ofBits 0x3FF0000000000000).toModel.unpack =
      .finite .positive (2 ^ 52) (-52) (by decide) := rfl
  have hfits := fits_of_log2 pos hm
  rw [hmul]
  refine unpack_pack_of_eq ?_ hfits
  rw [unpack_toFloat pos hm, hone]
  exact roundWithAccuracy_of_fits .positive (by positivity) hfits 52

lemma exactOf_neg (u : UnpackedFloat) : exactOf (neg u) = (exactOf u).map fun r => -r := by
  cases u with
  | notANumber => rfl
  | infinity sign => cases sign <;> rfl
  | zero sign => exact congrArg some neg_zero.symm
  | finite sign m e pos => exact congrArg (fun r : ℝ => some (r : EReal)) (dyadic_neg sign m e)

lemma Canonical.neg {u : UnpackedFloat} (canonical : Canonical u) : Canonical (neg u) := by
  cases u <;> exact canonical

lemma exactDouble_neg (x : Float) : exactDouble x.neg = (exactDouble x).map fun r => -r :=
  (exactDouble_pack (canonical_unpack _).neg).trans (exactOf_neg _)

lemma exactDouble_ofNat {m : ℕ} (hm : m < 2 ^ 53) :
    exactDouble (Float.ofNat m) = some ((m : ℝ) : EReal) := by
  rcases Nat.eq_zero_or_pos m with rfl | pos
  · have hzero : (Float.ofNat 0).toModel.unpack = .zero .positive := rfl
    rw [exactDouble, hzero, exactOf, Nat.cast_zero, EReal.coe_zero]
  · have hlog : m.log2 < 53 := (Nat.log2_lt pos.ne').mpr hm
    have hexponent : (m.log2 - 52 : ℤ) = 0 - (52 - m.log2 : ℕ) := by omega
    rw [exactDouble, unpack_ofNat pos hm, exactOf, hexponent, dyadic_shifted]
    simp [dyadic, Sign.apply]

lemma exactDouble_ofInt {n : ℤ} (hn : n.natAbs < 2 ^ 53) :
    exactDouble (Float.ofInt n) = some ((n : ℝ) : EReal) := by
  cases n with
  | ofNat m => exact exactDouble_ofNat hn
  | negSucc m =>
      have habs : exactDouble (Float.ofNat m.succ) = some ((m.succ : ℝ) : EReal) :=
        exactDouble_ofNat hn
      rw [Float.ofInt, exactDouble_neg, habs, Int.cast_negSucc]
      rfl

end Rounding

end WorkflowGraph.Decimal
