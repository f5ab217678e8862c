import DownloadQueue.Json.Float
import DownloadQueue.Proofs.ContentRange
import Mathlib

/-!
# Whole numbers in double precision

A whole number that fits into a word is not too large for double precision. The exponents of all
numbers on the way are followed from above; the bounds are generous, since those of words are far
from the largest there are.
-/

namespace DownloadQueue.Numeral

open Float.Model Float.Model.UnpackedFloat

theorem mantissa_shiftRight_le (em : ExtendedMantissa) (n : Nat) :
    (em >>> n).mantissa ≤ em.mantissa := by
  change (Nat.repeat ExtendedMantissa.shiftRightOne n em).mantissa ≤ em.mantissa
  induction n with
  | zero => exact Nat.le_refl _
  | succ n ih => exact Nat.le_trans (Nat.div_le_self _ 2) ih

theorem roundedMantissa_le (em : ExtendedMantissa) : em.roundedMantissa ≤ em.mantissa + 1 := by
  obtain ⟨mantissa, roundBit, stickyBit⟩ := em
  have hparity : mantissa % 2 < 2 := Nat.mod_lt _ (by decide)
  cases roundBit <;> cases stickyBit <;>
    simp only [ExtendedMantissa.roundedMantissa, ExtendedMantissa.accuracy,
      Accuracy.roundToNearestEven] <;> omega

theorem log2_le {m k : Nat} (h : m < 2 ^ k) : m.log2 ≤ k := by
  by_cases hzero : m = 0
  · rw [hzero, Nat.log2_zero]
    exact Nat.zero_le k
  · exact Nat.le_of_lt ((Nat.log2_lt hzero).mpr h)

/-- Dropping bits makes the mantissa no larger, and the exponent by no more than there are bits. -/
theorem shiftToTargetExponent_le {m k : Nat} {x e : Int} (hm : m < 2 ^ k) (hx : x ≤ e)
    (he : -1074 ≤ e) :
    (shiftToTargetExponent .binary64 m x .exact).1.mantissa ≤ m ∧
      (shiftToTargetExponent .binary64 m x .exact).2 ≤ e + k := by
  refine ⟨mantissa_shiftRight_le _ _, ?_⟩
  have hlog := log2_le hm
  have hmin : Format.binary64.minExponent = -1074 := rfl
  have hbits : Format.binary64.mantissaBits = 53 := rfl
  simp only [shiftToTargetExponent, shiftToExponent, Format.targetExponent, totalExponent, hmin,
    hbits]
  omega

def Small (e : Int) : UnpackedFloat → Prop
  | .zero _ => True
  | .finite _ _ x _ => x ≤ e
  | _ => False

theorem small_roundWithAccuracy {m k : Nat} {x e : Int} (hm : m < 2 ^ k) (hx : x ≤ e)
    (he : -1074 ≤ e) (sign : Sign) :
    Small (e + k + (k + 1)) (roundWithAccuracy .binary64 sign m x .exact) := by
  obtain ⟨hmantissa, hexponent⟩ := shiftToTargetExponent_le hm hx he
  have hrounded := roundedMantissa_le (shiftToTargetExponent .binary64 m x .exact).1
  have hpower : 2 ^ (k + 1) = 2 ^ k * 2 := Nat.pow_succ 2 k
  obtain ⟨-, hfinal⟩ := shiftToTargetExponent_le (k := k + 1)
    (m := (shiftToTargetExponent .binary64 m x .exact).1.roundedMantissa) (by omega) hexponent
    (by omega)
  simp only [roundWithAccuracy]
  split
  · trivial
  · exact_mod_cast hfinal

/-- A machine word has far less than the largest exponent. -/
theorem small_ofUInt64 (n : UInt64) : Small 233 (UnpackedFloat.ofUInt64 .binary64 n) := by
  have hlt : n.toNat < 2 ^ 64 := n.toNat_lt
  have hmin : Format.binary64.minExponent = -1074 := rfl
  have hbits : Format.binary64.mantissaBits = 53 := rfl
  simp only [UnpackedFloat.ofUInt64, UnpackedFloat.ofNat, UnpackedFloat.ofInt,
    UnpackedFloat.normalize]
  split
  · next hneg =>
    rw [Int.compare_eq_lt] at hneg
    omega
  · trivial
  · simp only [UnpackedFloat.round, decreaseExponent, Int.toNat_natCast, Format.targetExponent,
      totalExponent, hmin, hbits]
    -- a whole number is moved to the left by at most as many bits as there are behind the point
    refine small_roundWithAccuracy (k := 116) (e := 0) ?_ (by omega) (by decide) .positive
    rw [Nat.shiftLeft_eq]
    have hshift : (0 - max ((n.toNat.log2 : Int) + 1 + 0 - (53 : Nat)) (-1074)).toNat ≤ 52 := by
      omega
    calc n.toNat * 2 ^ _ ≤ n.toNat * 2 ^ 52 :=
          Nat.mul_le_mul_left _ (Nat.pow_le_pow_right (by decide) hshift)
      _ < 2 ^ 64 * 2 ^ 52 := Nat.mul_lt_mul_of_pos_right hlt (by decide)
      _ = 2 ^ 116 := by decide

inductive Unpacked (e : Int) : UnpackedFloat → Prop
  | zero (sign : Sign) : Unpacked e (.zero sign)
  | finite {sign : Sign} {m : Nat} {x : Int} {hm : 0 < m} (hbits : m < 2 ^ 53) (hx : x ≤ e) :
    Unpacked e (.finite sign m x hm)

/-- Bits with such an exponent are read as a number that is just as small. -/
theorem unpacked_packComponents {e : Int} (biased : Nat) (hbiased : biased < 2047)
    (hx : (biased : Int) - 1075 ≤ e) (hlow : -1074 ≤ e) (sign : Sign) (mantissa : BitVec 52) :
    Unpacked e (UnpackedFloat.unpack .binary64
      (packComponents .binary64 sign (BitVec.ofNat 11 biased) mantissa)) := by
  have hnat : (BitVec.ofNat 11 biased).toNat = biased := by
    rw [BitVec.toNat_ofNat]
    omega
  have hfinite : BitVec.ofNat 11 biased ≠ -1#11 := by
    intro heq
    rw [heq] at hnat
    have hones : (-1#11).toNat = 2047 := by decide
    omega
  have hbias : ((Format.binary64.exponentBias : Nat) : Int) = 1023 := rfl
  rw [UnpackedFloat.unpack]
  simp only [unpackMantissa_packComponents, unpackExponent_packComponents]
  rw [if_neg hfinite]
  split
  · next hsubnormal =>
    have hzero : biased = 0 := by
      rw [← hnat, hsubnormal]
      rfl
    split
    · exact .zero _
    · refine .finite (Nat.lt_trans mantissa.isLt (by decide)) ?_
      rw [hnat, hbias]
      omega
  · refine .finite (1#1 ++ mantissa).isLt ?_
    rw [hnat, hbias]
    omega

/-- A small number that was packed is read as one that is just as small. -/
theorem unpacked_pack {e : Int} {f : UnpackedFloat} (h : Small e f) (hlow : -1074 ≤ e)
    (hhigh : e ≤ 971) : Unpacked e (Float.Model.pack f).unpack := by
  change Unpacked e (UnpackedFloat.unpack .binary64 (UnpackedFloat.pack .binary64 f))
  cases f with
  | infinity sign => exact absurd h id
  | notANumber => exact absurd h id
  | zero sign => exact unpacked_packComponents 0 (by decide) (by omega) hlow sign 0
  | finite sign m x hm =>
    have hx : x ≤ e := h
    have hbias : ((Format.binary64.exponentBias : Nat) : Int) = 1023 := rfl
    simp only [UnpackedFloat.pack, hbias]
    rw [if_neg (by omega)]
    split
    · exact unpacked_packComponents _ (by omega) (by omega) hlow sign _
    · exact unpacked_packComponents 0 (by decide) (by omega) hlow sign _

theorem Unpacked.isFinite {e : Int} {f : UnpackedFloat} (h : Unpacked e f) : f.isFinite = true := by
  cases h with
  | zero sign => rfl
  | finite hbits hx => rfl

theorem unpack_tenPower_zero :
    (tenPower 0).toModel.unpack = .finite .positive (2 ^ 52) (-52) (by decide) :=
  rfl

/-- No whole number overflows when it is read as a fraction. -/
theorem isFinite_toFloat_mul (n : UInt64) : (n.toFloat * tenPower 0).isFinite = true := by
  have hword : Unpacked 233 n.toFloat.toModel.unpack :=
    unpacked_pack (small_ofUInt64 n) (by decide) (by decide)
  have hproduct : Small 500
      (UnpackedFloat.mul .binary64 n.toFloat.toModel.unpack (tenPower 0).toModel.unpack) := by
    rw [unpack_tenPower_zero]
    generalize n.toFloat.toModel.unpack = word at hword
    cases hword with
    | zero sign => trivial
    | @finite sign m x hm hbits hx =>
      refine small_roundWithAccuracy (k := 105) (e := 289) ?_ (by omega) (by decide) _
      calc m * 2 ^ 52 < 2 ^ 53 * 2 ^ 52 := Nat.mul_lt_mul_of_pos_right hbits (by decide)
        _ = 2 ^ 105 := by decide
  exact (unpacked_pack hproduct (by decide) (by decide)).isFinite

/-- No digit of a number that fits into a word is dropped. -/
theorem scaleWhole_eq (ds : List Nat) (significand : Nat)
    (h : ds.foldl (fun n d => n * 10 + d) significand < UInt64.size) :
    scaleWhole significand ds = ⟨ds.foldl (fun n d => n * 10 + d) significand, 0⟩ := by
  induction ds generalizing significand with
  | nil => rfl
  | cons d ds ih =>
    rw [List.foldl_cons] at h ⊢
    have hnext : significand * 10 + d < UInt64.size :=
      Nat.lt_of_le_of_lt (Decimal.le_foldl ds _) h
    rw [scaleWhole, if_pos hnext, ih _ h]

/-- A whole number that fits into a word is no float out of range. -/
theorem isSome_toFloat?_ofNat {n : Nat} (h : n < UInt64.size) : (ofNat n).toFloat?.isSome = true := by
  have hvalue : (Decimal.digits n).foldl (fun n d => n * 10 + d) 0 = n := Decimal.value_digits n
  have hscaled : scaleWhole 0 (Decimal.digits n) = ⟨n, 0⟩ := by
    rw [scaleWhole_eq _ _ (by rwa [hvalue]), hvalue]
  have hmagnitude : (ofNat n).magnitude? = Scaled.toFloat? ⟨n, 0⟩ := by
    change (scaleWhole 0 (Decimal.digits n)).toFloat? = _
    rw [hscaled]
  rw [toFloat?, Option.isSome_map, hmagnitude]
  by_cases hzero : n = 0
  · rw [hzero]
    rfl
  · have hproduct : Scaled.toFloat? ⟨n, 0⟩ = some ((UInt64.ofNat n).toFloat * tenPower 0) :=
      (if_neg hzero).trans (if_pos (isFinite_toFloat_mul (UInt64.ofNat n)))
    rw [hproduct]
    rfl

end DownloadQueue.Numeral
