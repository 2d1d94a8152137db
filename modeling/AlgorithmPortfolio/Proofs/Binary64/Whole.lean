import AlgorithmPortfolio.Arith
import Mathlib

/-!
# Whole numbers in 64 bits

Floating point is exact on whole numbers below 2 ^ 53. They are held with a mantissa of 53 bits,
that is shifted to the left as far as it has room, and neither their products nor the way back
to an integer are rounded.

- `slack`, `whole`: the room that a whole number has in a mantissa, and the form in which it is
  held.
- `roundWithAccuracy_whole`: a whole number that was shifted further is rounded to this form
  exactly.
- `unpack_pack_whole`: the form survives being stored.
- `view_eq`: the parts that are read off the bits are those that arithmetic works with.
- `Holds`: whether a floating-point number is a whole number.
- `holds_ofInt`, `Holds.mul`, `Holds.nearest`: whole numbers as floating-point numbers, their
  products, and the integers nearest to them.
-/

namespace AlgorithmPortfolio.Binary64

open Float.Model (Format UnpackedFloat totalExponent)
open Float.Model.UnpackedFloat

/-! ## Mantissas -/

/-- The room to the left that a whole number has in a mantissa of 53 bits. -/
def slack (n : Nat) : Nat := 52 - n.log2

/-- The form in which a whole number below 2 ^ 53 is held. -/
def whole (n : Nat) : UnpackedFloat :=
  if h : 0 < n then .finite .positive (n * 2 ^ slack n) (-slack n)
    (Nat.mul_pos h (Nat.two_pow_pos _))
  else .zero .positive

theorem log2_mul_two_pow {n : Nat} (h : n ≠ 0) (k : Nat) : (n * 2 ^ k).log2 = n.log2 + k := by
  induction k with
  | zero => rw [Nat.pow_zero, Nat.mul_one, Nat.add_zero]
  | succ k ih =>
    have hne : n * 2 ^ k ≠ 0 := Nat.mul_ne_zero h (Nat.ne_of_gt (Nat.two_pow_pos k))
    rw [Nat.pow_succ, ← Nat.mul_assoc, Nat.mul_comm _ 2, Nat.log2_two_mul hne, ih, Nat.add_assoc]

theorem log2_lt_of_lt {n : Nat} (h : n ≠ 0) (hn : n < 2 ^ 53) : n.log2 ≤ 52 :=
  Nat.le_of_lt_succ ((Nat.log2_lt h).mpr hn)

/-- A mantissa is shifted by as many places as it has too many bits. -/
theorem targetExponent_whole {n : Nat} (h : n ≠ 0) (hn : n < 2 ^ 53) (k : Nat) :
    Format.binary64.targetExponent (totalExponent (n * 2 ^ k) (-k)) = -slack n := by
  have hlog := log2_lt_of_lt h hn
  simp only [Format.targetExponent, totalExponent, log2_mul_two_pow h, Format.mantissaBits,
    Format.minExponent, slack]
  omega

/-- Zeros that are shifted out leave no rest. -/
theorem shiftRight_exact (m k : Nat) :
    (ExtendedMantissa.ofMantissaAndAccuracy (m * 2 ^ k) .exact >>> k) =
      ExtendedMantissa.ofMantissaAndAccuracy m .exact := by
  show Nat.repeat ExtendedMantissa.shiftRightOne k _ = _
  induction k generalizing m with
  | zero => rw [Nat.pow_zero, Nat.mul_one, Nat.repeat]
  | succ k ih =>
    have hshift : m * 2 ^ (k + 1) = m * 2 * 2 ^ k := by rw [Nat.pow_succ', Nat.mul_assoc]
    rw [Nat.repeat, hshift, ih]
    simp [ExtendedMantissa.shiftRightOne, ExtendedMantissa.ofMantissaAndAccuracy]

/-- The shift to the target exponent is exact. -/
theorem shiftToTargetExponent_whole {n : Nat} (h : n ≠ 0) (hn : n < 2 ^ 53) {k : Nat}
    (hk : slack n ≤ k) :
    shiftToTargetExponent Format.binary64 (n * 2 ^ k) (-k) .exact =
      (ExtendedMantissa.ofMantissaAndAccuracy (n * 2 ^ slack n) .exact, -(slack n : Int)) := by
  have hshift : (-(slack n : Int) - -(k : Int)).toNat = k - slack n := by omega
  have hpow : n * 2 ^ k = n * 2 ^ slack n * 2 ^ (k - slack n) := by
    rw [Nat.mul_assoc, ← Nat.pow_add, Nat.add_sub_cancel' hk]
  rw [shiftToTargetExponent, targetExponent_whole h hn, shiftToExponent, hshift, hpow,
    shiftRight_exact, Prod.mk.injEq]
  exact ⟨rfl, by omega⟩

/-- A whole number that was shifted to the left is not rounded. -/
theorem roundWithAccuracy_whole {n : Nat} (h : 0 < n) (hn : n < 2 ^ 53) {k : Nat}
    (hk : slack n ≤ k) :
    roundWithAccuracy Format.binary64 .positive (n * 2 ^ k) (-k) .exact = whole n := by
  have hn0 : n ≠ 0 := Nat.ne_of_gt h
  have hne : n * 2 ^ slack n ≠ 0 := Nat.ne_of_gt (Nat.mul_pos h (Nat.two_pow_pos _))
  rw [roundWithAccuracy, shiftToTargetExponent_whole hn0 hn hk]
  simp only [ExtendedMantissa.ofMantissaAndAccuracy, ExtendedMantissa.roundedMantissa,
    ExtendedMantissa.accuracy, Accuracy.roundToNearestEven,
    shiftToTargetExponent_whole hn0 hn (Nat.le_refl _)]
  rw [dif_neg hne, whole, dif_pos h]

/-! ## Bits -/

section Bits

variable (bits : BitVec Format.binary64.numBits)

theorem toNat_unpackMantissa : (unpackMantissa bits).toNat = bits.toNat % fractionCount := by
  rw [unpackMantissa, BitVec.toNat_cast, BitVec.extractLsb_toNat]
  rfl

theorem toNat_unpackExponent : (unpackExponent bits).toNat = bits.toNat / fractionCount % 2048 := by
  rw [unpackExponent, BitVec.toNat_cast, BitVec.extractLsb_toNat, Nat.shiftRight_eq_div_pow]
  rfl

theorem toNat_unpackSign : (unpackSign bits).toNat = bits.toNat / signPlace := by
  have hlt : bits.toNat / signPlace < 2 := Nat.div_lt_of_lt_mul bits.isLt
  rw [unpackSign, BitVec.toNat_cast, BitVec.extractLsb_toNat, Nat.shiftRight_eq_div_pow]
  exact Nat.mod_eq_of_lt hlt

theorem negative_unpackSign :
    (Sign.ofBitVec (unpackSign bits) == Sign.negative) = decide (bits.toNat / signPlace = 1) := by
  rw [← toNat_unpackSign]
  generalize @unpackSign Format.binary64 bits = sign
  revert sign
  decide

/-- The implicit bit of a normal mantissa. -/
theorem toNat_implicit (mantissa : BitVec 52) :
    (1#1 ++ mantissa).toNat = mantissa.toNat + fractionCount := by
  rw [BitVec.toNat_append, ← Nat.shiftLeft_add_eq_or_of_lt mantissa.isLt, Nat.add_comm]
  rfl

end Bits

/-- The parts of a number as arithmetic works with them. -/
def View.ofUnpacked : UnpackedFloat → View
  | .notANumber => .nan
  | .infinity sign => .infinite (sign == .negative)
  | .zero sign => .finite (sign == .negative) 0 (-1074)
  | .finite sign mantissa exponent _ => .finite (sign == .negative) mantissa exponent

/-- The parts that a view shows are those that arithmetic works with. -/
theorem view_eq (x : Float) : view x = .ofUnpacked x.toModel.unpack := by
  show viewBits x.toModel.toBits = .ofUnpacked (unpack Format.binary64 x.toModel.toBits.toBitVec)
  rcases x.toModel.toBits with ⟨bits⟩
  show viewBits ⟨bits⟩ = .ofUnpacked (unpack Format.binary64 bits)
  have hexponent := toNat_unpackExponent bits
  have hmantissa := toNat_unpackMantissa bits
  have hsign := negative_unpackSign bits
  -- the exponent and the mantissa are read as bits there and as numbers here
  have hfull : @unpackExponent Format.binary64 bits = -1#_ ↔
      bits.toNat / fractionCount % 2048 = 2047 := by
    rw [← BitVec.toNat_inj, hexponent]
    rfl
  have hnone : @unpackExponent Format.binary64 bits = 0#_ ↔
      bits.toNat / fractionCount % 2048 = 0 := by
    rw [← BitVec.toNat_inj, hexponent]
    rfl
  have hempty : @unpackMantissa Format.binary64 bits = 0#_ ↔ bits.toNat % fractionCount = 0 := by
    rw [← BitVec.toNat_inj, hmantissa]
    rfl
  unfold viewBits unpack
  dsimp only [UInt64.toNat]
  -- a full exponent is not finite
  by_cases full : @unpackExponent Format.binary64 bits = -1#_
  · rw [if_pos (hfull.mp full), if_pos full]
    by_cases empty : @unpackMantissa Format.binary64 bits = 0#_
    · rw [if_pos (hempty.mp empty), if_pos empty, View.ofUnpacked, hsign]
    · rw [if_neg (mt hempty.mpr empty), if_neg empty, View.ofUnpacked]
  rw [if_neg (mt hfull.mpr full), if_neg full]
  -- a zero exponent is subnormal, without the leading bit
  by_cases none : @unpackExponent Format.binary64 bits = 0#_
  · rw [if_pos (hnone.mp none), if_pos none]
    by_cases empty : @unpackMantissa Format.binary64 bits = 0#_
    · rw [dif_pos empty, hempty.mp empty, View.ofUnpacked, hsign]
    · rw [dif_neg empty, View.ofUnpacked, hsign, hmantissa, none]
      rfl
  · rw [if_neg (mt hnone.mpr none), if_neg none, View.ofUnpacked, hsign, hexponent, toNat_implicit,
      hmantissa]
    rfl

/-! ## Storing -/

/-- A normal number is read back from its parts. -/
theorem unpack_packComponents {exponent : BitVec 11} (hnone : exponent ≠ 0#11)
    (hfull : exponent ≠ -1#11) (sign : Sign) (mantissa : BitVec 52) :
    unpack Format.binary64 (packComponents Format.binary64 sign exponent mantissa) =
      .finite sign (mantissa.toNat + fractionCount) ((exponent.toNat : Int) - 1075)
        (Nat.add_pos_right _ (by decide)) := by
  unfold unpack
  dsimp only
  rw [unpackExponent_packComponents, if_neg hfull, if_neg hnone, UnpackedFloat.finite.injEq,
    unpackSign_packComponents, Sign.ofBitVec_toBitVec, unpackMantissa_packComponents,
    toNat_implicit]
  exact ⟨rfl, rfl, rfl⟩

/-- A mantissa without room has its highest bit set. -/
theorem whole_bounds {n : Nat} (h : n ≠ 0) (hn : n < 2 ^ 53) :
    (n * 2 ^ slack n).log2 = 52 ∧ 2 ^ 52 ≤ n * 2 ^ slack n ∧ n * 2 ^ slack n < 2 ^ 53 := by
  have hlog : (n * 2 ^ slack n).log2 = 52 := by
    have := log2_lt_of_lt h hn
    rw [log2_mul_two_pow h, slack]
    omega
  have hne : n * 2 ^ slack n ≠ 0 := Nat.mul_ne_zero h (Nat.ne_of_gt (Nat.two_pow_pos _))
  exact ⟨hlog, (Nat.log2_eq_iff hne).mp hlog⟩

/-- The parts of a positive whole number as they are stored. -/
theorem pack_whole {n : Nat} (h : 0 < n) (hn : n < 2 ^ 53) :
    pack Format.binary64 (whole n) =
      packComponents Format.binary64 .positive (BitVec.ofNat 11 (1075 - slack n))
        (BitVec.ofNat 52 (n * 2 ^ slack n)) := by
  obtain ⟨hlog, -, -⟩ := whole_bounds (Nat.ne_of_gt h) hn
  have hslack : slack n ≤ 52 := Nat.sub_le 52 _
  -- the least bit of a whole number stands `slack` below the first
  have hbiased : (-(slack n : Int) + Format.binary64.exponentBias +
      Format.binary64.mantissaBitsWithoutImplicit).toNat = 1075 - slack n := by
    show (-(slack n : Int) + 1023 + 52).toNat = _
    omega
  rw [whole, dif_pos h, pack, hbiased]
  dsimp only
  rw [if_neg (show ¬ 2 ^ 11 ≤ 1075 - slack n + 1 by omega), hlog,
    if_pos (show 52 + 1 = Format.binary64.mantissaBits from rfl)]

/-- A whole number comes back as it was stored. -/
theorem unpack_pack_whole {n : Nat} (hn : n < 2 ^ 53) :
    unpack Format.binary64 (pack Format.binary64 (whole n)) = whole n := by
  by_cases h : 0 < n
  · obtain ⟨-, hlow, hhigh⟩ := whole_bounds (Nat.ne_of_gt h) hn
    have hslack : slack n ≤ 52 := Nat.sub_le 52 _
    -- neither field overflows, and the exponent is neither full nor zero
    have hexponent : (BitVec.ofNat 11 (1075 - slack n)).toNat = 1075 - slack n := by
      rw [BitVec.toNat_ofNat]
      omega
    have hmantissa : (BitVec.ofNat 52 (n * 2 ^ slack n)).toNat + fractionCount =
        n * 2 ^ slack n := by
      rw [BitVec.toNat_ofNat, fractionCount]
      omega
    have hfull : BitVec.ofNat 11 (1075 - slack n) ≠ -1#11 := by
      rw [Ne, ← BitVec.toNat_inj, hexponent]
      show 1075 - slack n ≠ 2047
      omega
    have hnone : BitVec.ofNat 11 (1075 - slack n) ≠ 0#11 := by
      rw [Ne, ← BitVec.toNat_inj, hexponent]
      show 1075 - slack n ≠ 0
      omega
    rw [pack_whole h hn, unpack_packComponents hnone hfull, whole, dif_pos h,
      UnpackedFloat.finite.injEq]
    exact ⟨rfl, hmantissa, by omega⟩
  · rw [whole, dif_neg h]
    rfl

/-! ## Arithmetic -/

/-- Whether a floating-point number is a whole number. -/
def Holds (x : Float) (n : Nat) : Prop := x.toModel.unpack = whole n

/-- Products of whole numbers are not rounded while they are small enough. -/
theorem mul_whole {a b : Nat} (hab : a * b < 2 ^ 53) :
    UnpackedFloat.mul Format.binary64 (whole a) (whole b) = whole (a * b) := by
  by_cases ha : 0 < a
  · by_cases hb : 0 < b
    · -- the product is exact, since its bits are those of the product of the mantissas
      have hne : a * b ≠ 0 := Nat.ne_of_gt (Nat.mul_pos ha hb)
      have hlog : a.log2 + b.log2 ≤ (a * b).log2 := by
        rw [Nat.le_log2 hne, Nat.pow_add]
        exact Nat.mul_le_mul (Nat.log2_self_le (Nat.ne_of_gt ha))
          (Nat.log2_self_le (Nat.ne_of_gt hb))
      have hslack : slack (a * b) ≤ slack a + slack b := by
        unfold slack
        omega
      have hmantissa : a * 2 ^ slack a * (b * 2 ^ slack b) = a * b * 2 ^ (slack a + slack b) := by
        rw [Nat.pow_add, Nat.mul_mul_mul_comm]
      have hexponent : -(slack a : Int) + -(slack b : Int) =
          -((slack a + slack b : Nat) : Int) := by
        omega
      rw [whole, dif_pos ha, whole, dif_pos hb,
        ← roundWithAccuracy_whole (Nat.mul_pos ha hb) hab hslack, ← hmantissa, ← hexponent]
      rfl
    · obtain rfl : b = 0 := by omega
      rw [whole, dif_pos ha]
      rfl
  · -- nothing times a number is nothing, whatever the number
    obtain rfl : a = 0 := by omega
    rw [Nat.zero_mul]
    by_cases hb : 0 < b
    · rw [whole, whole, dif_pos hb]
      rfl
    · rw [whole, whole, dif_neg hb]
      rfl

theorem Holds.mul {x y : Float} {a b : Nat} (hx : Holds x a) (hy : Holds y b)
    (hab : a * b < 2 ^ 53) : Holds (x * y) (a * b) := by
  show unpack Format.binary64 (pack Format.binary64
    (UnpackedFloat.mul Format.binary64 x.toModel.unpack y.toModel.unpack)) = whole (a * b)
  rw [hx, hy, mul_whole hab, unpack_pack_whole hab]

/-- A whole number that is small enough is not rounded. -/
theorem normalize_whole {n : Nat} (hn : n < 2 ^ 53) :
    UnpackedFloat.normalize Format.binary64 n 0 .positive = whole n := by
  by_cases h : 0 < n
  · have hne : n ≠ 0 := Nat.ne_of_gt h
    have hcompare : compare (n : Int) 0 = .gt := Int.compare_eq_gt.mpr (Int.natCast_pos.mpr h)
    have htarget : Format.binary64.targetExponent (totalExponent n 0) = -slack n := by
      simpa using targetExponent_whole hne hn 0
    -- the number is shifted up until its first bit is the leading one
    have hshift : (0 - -(slack n : Int)).toNat = slack n := by omega
    rw [UnpackedFloat.normalize, hcompare]
    dsimp only
    rw [Int.toNat_natCast, UnpackedFloat.round, htarget, decreaseExponent, hshift,
      Nat.shiftLeft_eq, Int.zero_sub]
    exact roundWithAccuracy_whole h hn (Nat.le_refl _)
  · obtain rfl : n = 0 := by omega
    rfl

/-- Small whole numbers are floating-point numbers. -/
theorem holds_ofInt {n : Nat} (hn : n < 2 ^ 53) : Holds (Arith.ofInt (n : Int)) n := by
  have hword : n.toUInt64.toNat = n := Nat.mod_eq_of_lt (by omega)
  have hone : Holds (Float.ofBits 0x3FF0000000000000) 1 := rfl
  -- the word is converted first and then scaled by one
  have hn' : Holds n.toUInt64.toFloat n := by
    show unpack Format.binary64 (pack Format.binary64
      (UnpackedFloat.normalize Format.binary64 (n.toUInt64.toNat : Int) 0 .positive)) = whole n
    rw [hword, normalize_whole hn, unpack_pack_whole hn]
  have hscaled : Arith.ofInt (n : Int) = n.toUInt64.toFloat * Float.ofBits 0x3FF0000000000000 := by
    show Float.ofScientific n false 0 = _
    rw [Float.ofScientific, dif_pos ⟨hn, by decide⟩]
    rfl
  have := hn'.mul hone (by omega)
  rwa [← hscaled, Nat.mul_one] at this

/-! ## Back to integers -/

theorem nearestOfRatio_mul (n : Nat) {d : Nat} (hd : 0 < d) : nearestOfRatio (n * d) d = n := by
  have hnum : 2 * (n * d) + d = (2 * n + 1) * d := by
    rw [Nat.add_mul, Nat.one_mul, Nat.mul_assoc]
  rw [nearestOfRatio, hnum, Nat.mul_div_mul_right _ _ hd]
  omega

/-- A whole number is a ratio whose denominator divides its numerator. -/
theorem nearestOfRatio_magnitude (n k : Nat) :
    nearestOfRatio (magnitude (n * 2 ^ k) (-k)).1 (magnitude (n * 2 ^ k) (-k)).2 = n := by
  rw [magnitude]
  by_cases h : 0 ≤ -(k : Int)
  · obtain rfl : k = 0 := by omega
    rw [if_pos h]
    exact nearestOfRatio_mul n Nat.one_pos
  · rw [if_neg h, Int.neg_neg, Int.toNat_natCast, Nat.one_shiftLeft]
    exact nearestOfRatio_mul n (Nat.two_pow_pos k)

/-- The integer nearest to a whole number is that number. -/
theorem Holds.nearest {x : Float} {n : Nat} (h : Holds x n) (hn : n < 2 ^ 53) : nearest x = n := by
  have hgreatest : greatestWord = 2 ^ 63 - 1 := rfl
  have hleast : leastWord = -2 ^ 63 := rfl
  rw [Binary64.nearest, view_eq, h, whole]
  by_cases hpos : 0 < n
  · rw [dif_pos hpos]
    show max leastWord (min ((nearestOfRatio _ _ : Nat) : Int) greatestWord) = n
    rw [nearestOfRatio_magnitude]
    omega
  · -- zero is held with the exponent of the least numbers
    obtain rfl : n = 0 := by omega
    rw [dif_neg hpos]
    rfl

end AlgorithmPortfolio.Binary64
