import Mathlib
import WorkflowGraph.Decimal.Magnitude

/-!
# What floating-point numbers stand for

A floating-point number that is a number stands for an exact one: a signed multiple of a power of
two, or an infinity.  Two readings of bit patterns are at hand, the exact magnitudes of this
development and the unpacked numbers of the standard library, and they agree (`value?_decode`).

With 64 bits the unpacked numbers are canonical: the mantissa fills its field unless the exponent
is the least one.  Canonical numbers are packed without loss, and comparing them constructor by
constructor is comparing their exact values (`compare_eq_cmp`).
-/

namespace WorkflowGraph.Decimal

open Float.Model (Format UnpackedFloat)
open Float.Model.UnpackedFloat (Sign unpack pack unpackMantissa unpackExponent unpackSign)

lemma twoTo_eq (n : ℕ) : twoTo n = 2 ^ n := rfl

/-- The number `m * 2 ^ e` with a sign. -/
noncomputable def dyadic (sign : Sign) (m : ℕ) (e : ℤ) : ℝ := (sign.apply m : ℤ) * 2 ^ e

lemma dyadic_zero (sign : Sign) (e : ℤ) : dyadic sign 0 e = 0 := by
  cases sign <;> simp [dyadic, Sign.apply]

lemma dyadic_neg (sign : Sign) (m : ℕ) (e : ℤ) : dyadic (-sign) m e = -dyadic sign m e := by
  have happly : (-sign).apply m = -sign.apply m := by
    cases sign
    · exact (neg_neg _).symm
    · rfl
  rw [dyadic, dyadic, happly, Int.cast_neg, neg_mul]

/-- The exact value of an unpacked floating-point number.  What is no number has none. -/
noncomputable def exactOf : UnpackedFloat → Option EReal
  | .notANumber => none
  | .infinity .negative => some ⊥
  | .infinity .positive => some ⊤
  | .zero _ => some 0
  | .finite sign m e _ => some (dyadic sign m e : ℝ)

/-- The sign that is negative or not. -/
def signOf (negative : Bool) : Sign := if negative then .negative else .positive

/-- The exact value of a magnitude. -/
noncomputable def Magnitude.value? : Magnitude → Option EReal
  | .nan => none
  | .infinite negative => some (if negative then ⊥ else ⊤)
  | .finite negative m q _ => some (dyadic (signOf negative) m q : ℝ)

/-- The widths of the fields of a format. -/
def Width.ofFormat (spec : Format) : Width := ⟨spec.mantissaBitsWithoutImplicit, spec.exponentBits⟩

section Fields

variable {spec : Format} (b : BitVec spec.numBits)

lemma toNat_unpackMantissa :
    (unpackMantissa b).toNat = b.toNat % 2 ^ spec.mantissaBitsWithoutImplicit := by
  have hm := spec.hm
  have hwidth : spec.mantissaBitsWithoutImplicit - 1 + 1 = spec.mantissaBitsWithoutImplicit := by
    omega
  simp [unpackMantissa, hwidth]

lemma toNat_unpackExponent :
    (unpackExponent b).toNat =
      b.toNat / 2 ^ spec.mantissaBitsWithoutImplicit % 2 ^ spec.exponentBits := by
  have he := spec.he
  have hwidth : spec.mantissaBitsWithoutImplicit + spec.exponentBits - 1 -
      spec.mantissaBitsWithoutImplicit + 1 = spec.exponentBits := by omega
  simp [unpackExponent, hwidth, Nat.shiftRight_eq_div_pow]

lemma toNat_unpackSign :
    (unpackSign b).toNat =
      b.toNat / 2 ^ (spec.mantissaBitsWithoutImplicit + spec.exponentBits) % 2 := by
  simp [unpackSign, Nat.shiftRight_eq_div_pow]

lemma ofBitVec_unpackSign :
    Sign.ofBitVec (unpackSign b) =
      signOf (b.toNat / 2 ^ (spec.mantissaBitsWithoutImplicit + spec.exponentBits) % 2 == 1) := by
  rw [← toNat_unpackSign]
  generalize unpackSign b = v
  obtain rfl | rfl : v = 0#1 ∨ v = 1#1 := by
    revert v
    decide
  · rfl
  · rfl

lemma append_leading {n : ℕ} (m : BitVec n) : (1#1 ++ m).toNat = 2 ^ n + m.toNat := by
  rw [BitVec.toNat_append, ← Nat.shiftLeft_add_eq_or_of_lt m.isLt]
  simp [Nat.shiftLeft_eq]

lemma eq_neg_one_iff {n : ℕ} (v : BitVec n) : v = -1#n ↔ v.toNat = 2 ^ n - 1 := by
  rw [← BitVec.toNat_inj, BitVec.neg_one_eq_allOnes, BitVec.toNat_allOnes]

lemma eq_zero_iff {n : ℕ} (v : BitVec n) : v = 0#n ↔ v.toNat = 0 := by
  rw [← BitVec.toNat_inj, BitVec.toNat_zero]

lemma cast_exponentBias (spec : Format) :
    (spec.exponentBias : ℤ) = 2 ^ (spec.exponentBits - 1) - 1 := by
  rw [Format.exponentBias, Nat.cast_sub Nat.one_le_two_pow]
  push_cast
  rfl

lemma floorExponent_ofFormat (spec : Format) :
    (Width.ofFormat spec).floorExponent =
      1 - (spec.exponentBias + spec.mantissaBitsWithoutImplicit : ℤ) := by
  simp only [Width.floorExponent, Width.ofFormat, cast_exponentBias, twoTo_eq]
  push_cast
  ring

/-- Both readings of a bit pattern give the same value. -/
lemma value?_decode :
    ((Width.ofFormat spec).decode b.toNat).value? = exactOf (unpack spec b) := by
  -- The five cases of a format, in the order in which both sides tell them apart: infinity, not a
  -- number, zero, subnormal, normal.
  unfold Width.decode unpack
  simp only [floorExponent_ofFormat]
  simp only [Width.ofFormat, twoTo_eq, ← toNat_unpackMantissa, ← toNat_unpackExponent,
    ofBitVec_unpackSign, eq_neg_one_iff, eq_zero_iff, append_leading]
  split_ifs with hmax hfraction hleast hfraction
  · generalize (b.toNat / _ % 2 == 1) = negative
    cases negative <;> rfl
  · rfl
  · rw [Magnitude.value?, hfraction, dyadic_zero]
    rfl
  · rw [Magnitude.value?, exactOf, hleast]
    refine congrArg (fun e => some ((dyadic _ _ e : ℝ) : EReal)) ?_
    omega
  · rw [Magnitude.value?, exactOf]
    refine congrArg (fun e => some ((dyadic _ _ e : ℝ) : EReal)) ?_
    omega

end Fields

/-! ## Canonical numbers -/

/-- A mantissa and an exponent as numbers with 64 bits have them: the mantissa fills its field, or
the exponent is the least one. -/
structure Fits (m : ℕ) (e : ℤ) : Prop where
  small : m < 2 ^ 53
  least : -1074 ≤ e
  greatest : e ≤ 971
  leading : 2 ^ 52 ≤ m ∨ e = -1074

/-- The number is unpacked as numbers with 64 bits are. -/
def Canonical : UnpackedFloat → Prop
  | .finite _ m e _ => Fits m e
  | _ => True

lemma canonical_unpack (b : BitVec 64) : Canonical (unpack .binary64 b) := by
  have hmantissa : (@unpackMantissa .binary64 b).toNat < 2 ^ 52 := BitVec.isLt _
  have hexponent : (@unpackExponent .binary64 b).toNat < 2 ^ 11 := BitVec.isLt _
  have hbias : Format.binary64.exponentBias = 1023 := rfl
  have hallOnes : @unpackExponent .binary64 b = -1#_ ↔
      (@unpackExponent .binary64 b).toNat = 2047 := eq_neg_one_iff _
  unfold unpack
  simp only [append_leading, eq_zero_iff]
  split_ifs with hmax hfraction hleast hfraction
  · trivial
  · trivial
  · trivial
  · refine ⟨by omega, ?_, ?_, .inr ?_⟩ <;> rw [hleast, hbias] <;> decide
  · rw [hallOnes] at hmax
    refine ⟨by omega, ?_, ?_, .inl (Nat.le_add_right _ _)⟩ <;> rw [hbias] <;> omega

section Packing

open Float.Model.UnpackedFloat (packComponents)

lemma unpackSign_packComponents (spec : Format) (sign : Sign) (e : BitVec spec.exponentBits)
    (m : BitVec spec.mantissaBitsWithoutImplicit) :
    Sign.ofBitVec (unpackSign (packComponents spec sign e m)) = sign := by
  have hbits : unpackSign (packComponents spec sign e m) = sign.toBitVec := by
    ext i hi
    obtain rfl : i = 0 := by omega
    simp [unpackSign, packComponents, BitVec.getLsbD_append, BitVec.getElem_append]
  rw [hbits]
  cases sign <;> rfl

/-- The number that three fields make. -/
lemma unpack_packComponents (sign : Sign) (e : BitVec 11) (m : BitVec 52) :
    unpack .binary64 (packComponents .binary64 sign e m) =
      if e = -1#11 then if m = 0#52 then .infinity sign else .notANumber
      else if e = 0#11 then
        if h : m = 0#52 then .zero sign
        else
          .finite sign m.toNat (-1074)
            (Nat.pos_of_ne_zero fun zero => h ((eq_zero_iff m).mpr zero))
      else
        .finite sign (2 ^ 52 + m.toNat) (e.toNat - 1075)
          (Nat.add_pos_left (Nat.two_pow_pos 52) m.toNat) := by
  unfold unpack
  simp only [Float.Model.UnpackedFloat.unpackMantissa_packComponents,
    Float.Model.UnpackedFloat.unpackExponent_packComponents, unpackSign_packComponents,
    append_leading]
  split_ifs with hmax hfraction hleast hfraction
  · rfl
  · rfl
  · rfl
  · subst hleast
    rfl
  · rfl

/-- The fields of a finite number that fits: the first bit of a mantissa that fills its field is
left out, and the exponent says so. -/
lemma pack_finite (sign : Sign) {m : ℕ} {e : ℤ} (pos : 0 < m) (fits : Fits m e) :
    pack .binary64 (.finite sign m e pos) =
      packComponents .binary64 sign (if 2 ^ 52 ≤ m then BitVec.ofNat 11 (e + 1075).toNat else 0#11)
        (BitVec.ofNat 52 m) := by
  have hbiased : (e + Format.binary64.exponentBias +
      Format.binary64.mantissaBitsWithoutImplicit).toNat = (e + 1075).toNat := by
    rw [add_assoc]
    rfl
  -- No exponent that fits comes out as the one that is kept for infinity.
  have hfinite : ¬ 2 ^ 11 ≤ (e + 1075).toNat + 1 := by
    have hgreatest := fits.greatest
    omega
  have hwidth : m.log2 + 1 = Format.binary64.mantissaBits ↔ 2 ^ 52 ≤ m := by
    have hsmall : m.log2 < 53 := (Nat.log2_lt pos.ne').mpr fits.small
    show m.log2 + 1 = 53 ↔ 2 ^ 52 ≤ m
    rw [← Nat.le_log2 pos.ne']
    omega
  simp only [pack, hbiased, if_neg hfinite, hwidth]
  split_ifs <;> rfl

/-- What is canonical is packed without loss. -/
lemma unpack_pack {u : UnpackedFloat} (canonical : Canonical u) :
    unpack .binary64 (pack .binary64 u) = u := by
  cases u with
  | notANumber => rfl
  | infinity sign => cases sign <;> rfl
  | zero sign => cases sign <;> rfl
  | finite sign m e pos =>
      have fits : Fits m e := canonical
      obtain ⟨hsmall, hleast, hgreatest, hleading⟩ := fits
      rw [pack_finite sign pos canonical]
      -- Whether the leading bit is set decides if it is left out of the fraction.
      by_cases hnormal : 2 ^ 52 ≤ m
      · have hexponent : (BitVec.ofNat 11 (e + 1075).toNat).toNat = (e + 1075).toNat := by
          rw [BitVec.toNat_ofNat, Nat.mod_eq_of_lt (by omega)]
        have hmantissa : 2 ^ 52 + (BitVec.ofNat 52 m).toNat = m := by
          rw [BitVec.toNat_ofNat]
          omega
        have hmax : BitVec.ofNat 11 (e + 1075).toNat ≠ -1#11 := by
          rw [Ne, eq_neg_one_iff, hexponent]
          omega
        have hmin : BitVec.ofNat 11 (e + 1075).toNat ≠ 0#11 := by
          rw [Ne, eq_zero_iff, hexponent]
          omega
        have hplace : ((e + 1075).toNat : ℤ) - 1075 = e := by omega
        rw [if_pos hnormal, unpack_packComponents, if_neg hmax, if_neg hmin]
        simp only [hexponent, hmantissa, hplace]
      · obtain rfl : e = -1074 := hleading.resolve_left hnormal
        have hmantissa : (BitVec.ofNat 52 m).toNat = m := by
          rw [BitVec.toNat_ofNat, Nat.mod_eq_of_lt (by omega)]
        have hnonzero : BitVec.ofNat 52 m ≠ 0#52 := by
          rw [Ne, eq_zero_iff, hmantissa]
          exact pos.ne'
        rw [if_neg hnormal, unpack_packComponents, if_neg (by decide), if_pos rfl,
          dif_neg hnonzero]
        simp only [hmantissa]

lemma unpack_pack_of_eq {u v : UnpackedFloat} (h : u = v) (canonical : Canonical v) :
    unpack .binary64 (pack .binary64 u) = v := by
  rw [h, unpack_pack canonical]

end Packing

/-- The exact value of a number with 32 bits. -/
noncomputable def exactSingle (x : Float32) : Option EReal := exactOf x.toModel.unpack

/-- The exact value of a number with 64 bits. -/
noncomputable def exactDouble (x : Float) : Option EReal := exactOf x.toModel.unpack

lemma exactSingle_eq (x : Float32) : exactSingle x = (Magnitude.ofSingle x).value? :=
  (@value?_decode .binary32 x.toModel.toBits.toBitVec).symm

lemma exactDouble_pack {u : UnpackedFloat} (canonical : Canonical u) :
    exactDouble (.ofModel (.pack u)) = exactOf u :=
  congrArg exactOf (unpack_pack canonical)

lemma exactDouble_ofBits (bits : UInt64) :
    exactDouble (.ofBits bits) = (Width.double.decode bits.toNat).value? := by
  rw [Float.ofBits, Float.Model.ofBits, exactDouble_pack (canonical_unpack _)]
  exact (@value?_decode .binary64 bits.toBitVec).symm

/-! ## Comparing -/

/-- Of two numbers in canonical form the one with the greater exponent is greater. -/
lemma lt_of_exponent_lt {m m' : ℕ} {e e' : ℤ} (fits : Fits m e) (fits' : Fits m' e')
    (h : e < e') : (m : ℝ) * 2 ^ e < m' * 2 ^ e' := by
  have hsmall : (m : ℝ) < 2 ^ 53 := by exact_mod_cast fits.small
  have hleading : (2 : ℝ) ^ 52 ≤ m' := by
    have hleast := fits.least
    have hnormal : 2 ^ 52 ≤ m' := fits'.leading.resolve_right (by omega)
    exact_mod_cast hnormal
  have hpow : (2 : ℝ) ^ (e + 1) ≤ 2 ^ e' := zpow_le_zpow_right₀ one_le_two h
  calc (m : ℝ) * 2 ^ e < 2 ^ 53 * 2 ^ e := by gcongr
    _ = 2 ^ 52 * 2 ^ (e + 1) := by rw [zpow_add_one₀ two_ne_zero]; ring
    _ ≤ m' * 2 ^ e' := by gcongr

/-- Positive numbers in canonical form are ordered by their exponents and then by their
mantissas. -/
lemma cmp_of_fits {m m' : ℕ} {e e' : ℤ} (fits : Fits m e) (fits' : Fits m' e') :
    cmp ((m : ℝ) * 2 ^ e) (m' * 2 ^ e') = (compare e e').then (compare m m') := by
  rcases lt_trichotomy e e' with h | rfl | h
  · rw [compare_lt_iff_lt.mpr h]
    exact (lt_of_exponent_lt fits fits' h).cmp_eq_lt
  · rw [compare_eq_iff_eq.mpr rfl, cmp_mul_pos_right (by positivity),
      Nat.strictMono_cast.cmp_map_eq, cmp_eq_compare]
    rfl
  · rw [compare_gt_iff_gt.mpr h]
    exact (lt_of_exponent_lt fits' fits h).cmp_eq_gt

lemma dyadic_positive (m : ℕ) (e : ℤ) : dyadic .positive m e = m * 2 ^ e := by
  rw [dyadic, Sign.apply, Int.cast_natCast]

lemma dyadic_negative (m : ℕ) (e : ℤ) : dyadic .negative m e = -(m * 2 ^ e) := by
  rw [dyadic, Sign.apply, Int.cast_neg, Int.cast_natCast, neg_mul]

section Signs

variable {m m' : ℕ} {e e' : ℤ}

lemma dyadic_positive_pos (pos : 0 < m) : 0 < dyadic .positive m e := by
  rw [dyadic_positive]
  positivity

lemma dyadic_negative_neg (pos : 0 < m) : dyadic .negative m e < 0 := by
  rw [dyadic_negative, neg_lt_zero]
  positivity

/-- Finite numbers in canonical form are compared by their exact values. -/
lemma compare_finite (s t : Sign) (pos : 0 < m) (pos' : 0 < m') (fits : Fits m e)
    (fits' : Fits m' e') :
    UnpackedFloat.compare (.finite s m e pos) (.finite t m' e' pos') =
      some (cmp (dyadic s m e) (dyadic t m' e')) := by
  cases s <;> cases t
  · have hneg : StrictAnti fun r : ℝ => -r := fun _ _ => neg_lt_neg
    rw [dyadic_negative, dyadic_negative, hneg.cmp_map_eq, ← cmp_swap, cmp_of_fits fits fits']
    rfl
  · rw [((dyadic_negative_neg pos).trans (dyadic_positive_pos pos')).cmp_eq_lt]
    rfl
  · rw [((dyadic_negative_neg pos').trans (dyadic_positive_pos pos)).cmp_eq_gt]
    rfl
  · rw [dyadic_positive, dyadic_positive, cmp_of_fits fits fits']
    rfl

end Signs

/-- Numbers in canonical form are compared by their exact values. -/
lemma compare_of_canonical {u v : UnpackedFloat} (hu : Canonical u) (hv : Canonical v) :
    u.compare v = Option.map₂ cmp (exactOf u) (exactOf v) := by
  cases u with
  | notANumber => cases v <;> rfl
  | infinity s =>
      cases v with
      | notANumber => cases s <;> rfl
      | infinity t =>
        cases s <;> cases t
        · exact congrArg some (cmp_self_eq_eq _).symm
        · exact congrArg some bot_lt_top.cmp_eq_lt.symm
        · exact congrArg some bot_lt_top.cmp_eq_gt.symm
        · exact congrArg some (cmp_self_eq_eq _).symm
      | zero t =>
        cases s
        · exact congrArg some EReal.bot_lt_zero.cmp_eq_lt.symm
        · exact congrArg some EReal.zero_lt_top.cmp_eq_gt.symm
      | finite t m' e' pos' =>
        cases s
        · cases t <;> exact congrArg some (EReal.bot_lt_coe _).cmp_eq_lt.symm
        · exact congrArg some (EReal.coe_lt_top _).cmp_eq_gt.symm
  | zero s =>
      cases v with
      | notANumber => rfl
      | infinity t =>
        cases t
        · exact congrArg some EReal.bot_lt_zero.cmp_eq_gt.symm
        · exact congrArg some EReal.zero_lt_top.cmp_eq_lt.symm
      | zero t => exact congrArg some (cmp_self_eq_eq _).symm
      | finite t m' e' pos' =>
        cases t
        · exact congrArg some (EReal.coe_neg'.mpr (dyadic_negative_neg pos')).cmp_eq_gt.symm
        · exact congrArg some (EReal.coe_pos.mpr (dyadic_positive_pos pos')).cmp_eq_lt.symm
  | finite s m e pos =>
      cases v with
      | notANumber => rfl
      | infinity t =>
        cases t
        · cases s <;> exact congrArg some (EReal.bot_lt_coe _).cmp_eq_gt.symm
        · cases s <;> exact congrArg some (EReal.coe_lt_top _).cmp_eq_lt.symm
      | zero t =>
        cases s
        · exact congrArg some (EReal.coe_neg'.mpr (dyadic_negative_neg pos)).cmp_eq_lt.symm
        · exact congrArg some (EReal.coe_pos.mpr (dyadic_positive_pos pos)).cmp_eq_gt.symm
      | finite t m' e' pos' =>
        -- The only case with arithmetic in it: two finite numbers compare as the reals they stand
        -- for.
        rw [compare_finite s t pos pos' hu hv, ← EReal.coe_strictMono.cmp_map_eq]
        rfl

lemma compare_eq_cmp (x y : Float) :
    x.toModel.compare y.toModel = Option.map₂ cmp (exactDouble x) (exactDouble y) :=
  compare_of_canonical (canonical_unpack _) (canonical_unpack _)

end WorkflowGraph.Decimal
