import Mathlib
import RecordFilter.Json.NumberReader

/-!
# Finite — arithmetic that stays finite

A float is computed by rounding a significand at an exponent.  Rounding leaves at most 53 bits and
raises the exponent by one at most (`round_eq`), so an exponent that was well below the greatest does
not overflow (`within_round`, `within_unpack_pack`).  Hence a significand of 64 bits makes a finite
float (`isFinite_ofNat`), a finite float divided by two or more stays finite (`isFinite_div`), and a
product is finite or infinite (`isFinite_mul`).
-/

namespace RecordFilter
namespace Number

open Float.Model (Format UnpackedFloat totalExponent)
open Float.Model.UnpackedFloat

/-! ## Rounding -/

theorem mantissa_shift (em : ExtendedMantissa) (k : Nat) :
    (em >>> k).mantissa = em.mantissa / 2 ^ k := by
  induction k with
  | zero => exact (Nat.div_one _).symm
  | succ k ih =>
      calc
        (em >>> (k + 1)).mantissa = (em >>> k).mantissa / 2 := rfl
        _ = em.mantissa / 2 ^ (k + 1) := by rw [ih, Nat.div_div_eq_div_mul, ← Nat.pow_succ]

theorem mantissa_of_accuracy (m : Nat) (a : Accuracy) :
    (ExtendedMantissa.ofMantissaAndAccuracy m a).mantissa = m := by
  cases a with
  | exact => rfl
  | inexact o =>
      cases o with
      | lt => rfl
      | eq => rfl
      | gt => rfl

theorem roundedMantissa_cases (em : ExtendedMantissa) :
    em.roundedMantissa = em.mantissa ∨ em.roundedMantissa = em.mantissa + 1 := by
  unfold ExtendedMantissa.roundedMantissa
  cases em.accuracy with
  | exact => exact Or.inl rfl
  | inexact o =>
      cases o with
      | lt => exact Or.inl rfl
      | gt => exact Or.inr rfl
      | eq =>
          simp only [Accuracy.roundToNearestEven]
          omega

/-- The exponent at which 53 bits of a significand remain, or the least there is. -/
theorem targetExponent_eq (m : Nat) (e : Int) :
    Format.binary64.targetExponent (totalExponent m e) = max ((m.log2 : Int) + e - 52) (-1074) := by
  simp only [Format.targetExponent, totalExponent, Format.mantissaBits, Format.minExponent]
  omega

theorem log2_le_of_lt {m k : Nat} (h : m < 2 ^ (k + 1)) : m.log2 ≤ k := by
  rcases Nat.eq_zero_or_pos m with rfl | hpos
  · rw [Nat.log2_zero]
    exact Nat.zero_le k
  · have := (Nat.log2_lt (Nat.ne_of_gt hpos)).2 h
    omega

theorem div_pow_lt {m k : Nat} (h : m.log2 ≤ 52 + k) : m / 2 ^ k < 2 ^ 53 := by
  rw [Nat.div_lt_iff_lt_mul (Nat.two_pow_pos k), ← Nat.pow_add]
  exact Nat.lt_of_lt_of_le Nat.lt_log2_self (Nat.pow_le_pow_right (by decide) (by omega))

theorem le_div_pow {m k : Nat} (h : m.log2 = 52 + k) : 2 ^ 52 ≤ m / 2 ^ k := by
  have hm : m ≠ 0 := by
    intro hzero
    rw [hzero, Nat.log2_zero] at h
    omega
  rw [Nat.le_div_iff_mul_le (Nat.two_pow_pos k), ← Nat.pow_add, ← h]
  exact Nat.log2_self_le hm

/-- Shifting drops as many bits as the exponent lacks. -/
theorem shift_eq {m k : Nat} {e : Int} (a : Accuracy)
    (hk : (max ((m.log2 : Int) + e - 52) (-1074) - e).toNat = k) :
    (shiftToTargetExponent Format.binary64 m e a).1.mantissa = m / 2 ^ k ∧
      (shiftToTargetExponent Format.binary64 m e a).2 = e + k := by
  subst hk
  rw [← targetExponent_eq]
  constructor
  · calc
      (shiftToTargetExponent Format.binary64 m e a).1.mantissa
          = (ExtendedMantissa.ofMantissaAndAccuracy m a >>>
              (Format.binary64.targetExponent (totalExponent m e) - e).toNat).mantissa := rfl
      _ = m / 2 ^ (Format.binary64.targetExponent (totalExponent m e) - e).toNat := by
        rw [mantissa_shift, mantissa_of_accuracy]
  · rfl

/-- A rounded significand of at most 54 bits is brought down to 53. -/
theorem shift_of_rounded {r : Nat} {e : Int} (hr : r ≤ 2 ^ 53) (he : -1074 ≤ e) :
    ∃ k : Nat, (shiftToTargetExponent Format.binary64 r e .exact).1.mantissa = r / 2 ^ k ∧
      (shiftToTargetExponent Format.binary64 r e .exact).2 = e + k ∧
      (k = 0 ∧ r < 2 ^ 53 ∨ k = 1 ∧ r = 2 ^ 53) := by
  rcases Nat.lt_or_eq_of_le hr with hsmall | rfl
  · have hlog : r.log2 ≤ 52 := log2_le_of_lt hsmall
    rcases shift_eq (m := r) (e := e) (k := 0) .exact (by omega) with ⟨hmantissa, hexponent⟩
    exact ⟨0, hmantissa, hexponent, Or.inl ⟨rfl, hsmall⟩⟩
  · rcases shift_eq (m := 2 ^ 53) (e := e) (k := 1) .exact (by rw [Nat.log2_two_pow]; omega)
      with ⟨hmantissa, hexponent⟩
    exact ⟨1, hmantissa, hexponent, Or.inr ⟨rfl, rfl⟩⟩

/-- The exponent at which a significand is rounded: that at which 53 bits remain, unless it is less
than the given one or the least there is. -/
def roundingExponent (m : Nat) (e : Int) : Int := max e (max ((m.log2 : Int) + e - 52) (-1074))

/-- A rounded significand has at most 53 bits, at the exponent of rounding or one more, and as many
bits as remain before rounding. -/
theorem round_eq (sign : Sign) (m : Nat) (e : Int) (a : Accuracy) :
    ∃ f k, roundWithAccuracy Format.binary64 sign m e a =
        (if h : f = 0 then .zero sign else .finite sign f k (Nat.pos_of_ne_zero h)) ∧
      f < 2 ^ 53 ∧ roundingExponent m e ≤ k ∧ k ≤ roundingExponent m e + 1 ∧
      (52 ≤ m.log2 → -1074 ≤ (m.log2 : Int) + e - 52 → 2 ^ 52 ≤ f) := by
  obtain ⟨k, hk⟩ : ∃ k, (max ((m.log2 : Int) + e - 52) (-1074) - e).toNat = k := ⟨_, rfl⟩
  have hrounding : roundingExponent m e = e + k := by
    unfold roundingExponent
    omega
  rcases shift_eq a hk with ⟨hmantissa, hexponent⟩
  cases hfirst : shiftToTargetExponent Format.binary64 m e a with
  | mk em e₁ =>
      rw [hfirst] at hmantissa hexponent
      dsimp only at hmantissa hexponent
      -- rounding up may carry into a 54th bit, which the second shift takes off again
      have hremaining : m / 2 ^ k < 2 ^ 53 := div_pow_lt (by omega)
      have hrounded : em.mantissa ≤ em.roundedMantissa ∧ em.roundedMantissa ≤ em.mantissa + 1 := by
        rcases roundedMantissa_cases em with h | h
        · omega
        · omega
      have hle : em.roundedMantissa ≤ 2 ^ 53 := by
        rw [hmantissa] at hrounded
        omega
      have hlow : -1074 ≤ e₁ := by
        rw [hexponent]
        unfold roundingExponent at hrounding
        omega
      rcases shift_of_rounded hle hlow with ⟨j, hfinal, hlast, hj⟩
      refine ⟨em.roundedMantissa / 2 ^ j, e₁ + j, ?_, ?_, ?_, ?_, ?_⟩
      · simp only [roundWithAccuracy, hfirst, hfinal, hlast]
      · rcases hj with ⟨rfl, hsmall⟩ | ⟨rfl, hcarry⟩
        · rwa [Nat.pow_zero, Nat.div_one]
        · rw [hcarry]
          decide
      · rw [hrounding, ← hexponent]
        omega
      · rw [hrounding, ← hexponent]
        omega
      · intro hbits hnormal
        have hkeeps : 2 ^ 52 ≤ em.mantissa := by
          rw [hmantissa]
          exact le_div_pow (by omega)
        rcases hj with ⟨rfl, hsmall⟩ | ⟨rfl, hcarry⟩
        · rw [Nat.pow_zero, Nat.div_one]
          omega
        · rw [hcarry]
          decide

/-- Where 53 bits are there and the exponent is not too small, there are 53 bits after rounding. -/
theorem round_normal {m : Nat} {e : Int} (hbits : 52 ≤ m.log2)
    (hnormal : -1074 ≤ (m.log2 : Int) + e - 52) (sign : Sign) (a : Accuracy) :
    ∃ f k h, roundWithAccuracy Format.binary64 sign m e a = .finite sign f k h ∧ 2 ^ 52 ≤ f ∧
      f < 2 ^ 53 ∧ (m.log2 : Int) + e - 52 ≤ k ∧ k ≤ (m.log2 : Int) + e - 51 := by
  rcases round_eq sign m e a with ⟨f, k, hround, hsmall, hlow, hhigh, hlarge⟩
  have hf : 2 ^ 52 ≤ f := hlarge hbits hnormal
  have hexponent : roundingExponent m e = (m.log2 : Int) + e - 52 := by
    unfold roundingExponent
    omega
  rw [dif_neg (by omega)] at hround
  exact ⟨f, k, _, hround, hf, hsmall, by omega, by omega⟩

/-! ## Bounded values -/

/-- Zero, or a significand of at most 53 bits at an exponent of at most `bound`. -/
inductive Within (bound : Int) : UnpackedFloat → Prop
  | zero (s : Sign) : Within bound (.zero s)
  | finite (s : Sign) {m : Nat} {e : Int} (hm : 0 < m) (hsmall : m < 2 ^ 53) (he : e ≤ bound) :
      Within bound (.finite s m e hm)

theorem within_round {m : Nat} {e bound : Int} (h : roundingExponent m e + 1 ≤ bound) (sign : Sign)
    (a : Accuracy) : Within bound (roundWithAccuracy Format.binary64 sign m e a) := by
  rcases round_eq sign m e a with ⟨f, k, hround, hsmall, -, hhigh, -⟩
  rw [hround]
  split
  case isTrue => exact .zero sign
  case isFalse => exact .finite sign _ hsmall (by omega)

/-! ## Packing and unpacking -/

theorem biased_eq (e : Int) :
    (e + Format.binary64.exponentBias + Format.binary64.mantissaBitsWithoutImplicit).toNat =
      (e + 1075).toNat := by
  change (e + 1023 + 52).toNat = (e + 1075).toNat
  omega

/-- The exponent field of a finite value, which is zero where fewer than 53 bits are there. -/
theorem unpackExponent_pack (s : Sign) {m : Nat} {e : Int} (hm : 0 < m) (he : e ≤ 971) :
    (unpackExponent (pack Format.binary64 (.finite s m e hm))).toNat =
      if m.log2 = 52 then (e + 1075).toNat else 0 := by
  have hfits : ¬2 ^ Format.binary64.exponentBits ≤ (e + 1075).toNat + 1 := by
    change ¬2048 ≤ (e + 1075).toNat + 1
    omega
  have hbits : m.log2 + 1 = Format.binary64.mantissaBits ↔ m.log2 = 52 := by
    change m.log2 + 1 = 53 ↔ _
    omega
  unfold pack
  rw [biased_eq, if_neg hfits]
  simp only [hbits]
  split
  case isTrue =>
    rw [unpackExponent_packComponents, BitVec.toNat_ofNat]
    change (e + 1075).toNat % 2048 = _
    omega
  case isFalse => rw [unpackExponent_packComponents]; rfl

theorem unpackExponent_pack_lt (s : Sign) {m : Nat} {e : Int} (hm : 0 < m) (he : e ≤ 971) :
    (unpackExponent (pack Format.binary64 (.finite s m e hm))).toNat < 2047 := by
  rw [unpackExponent_pack s hm he]
  split
  case isTrue => omega
  case isFalse => decide

/-- Bits whose exponent is not the greatest are those of a finite value. -/
theorem unpack_bits_cases {bits : BitVec Format.binary64.numBits}
    (h : (unpackExponent bits).toNat < 2047) :
    (∃ s, unpack Format.binary64 bits = .zero s ∧ (unpackExponent bits).toNat = 0) ∨
      ∃ s m e hm, unpack Format.binary64 bits = .finite s m e hm ∧ m < 2 ^ 53 ∧
        e = max ((unpackExponent bits).toNat : Int) 1 - 1075 ∧
        (0 < (unpackExponent bits).toNat → 2 ^ 52 ≤ m) := by
  obtain ⟨u, hu⟩ : ∃ u, unpack Format.binary64 bits = u := ⟨_, rfl⟩
  rw [hu]
  simp only [unpack] at hu
  split at hu
  case isTrue hgreatest =>
    rw [hgreatest] at h
    exact absurd h (by decide)
  case isFalse =>
    split at hu
    case isTrue hleast =>
      have hzero : (unpackExponent bits).toNat = 0 := by
        rw [hleast]
        rfl
      split at hu
      case isTrue => exact Or.inl ⟨_, hu.symm, hzero⟩
      case isFalse =>
        have hmantissa : (unpackMantissa bits).toNat < 2 ^ 52 := (unpackMantissa bits).isLt
        refine Or.inr ⟨_, _, _, _, hu.symm, by omega, ?_, fun hpositive => by omega⟩
        rw [hzero]
        rfl
    case isFalse hnormal =>
      have hmantissa : (1#1 ++ unpackMantissa bits).toNat < 2 ^ 53 := (1#1 ++ unpackMantissa bits).isLt
      have hpositive : (unpackExponent bits).toNat ≠ 0 := by
        intro hnat
        exact hnormal (BitVec.eq_of_toNat_eq hnat)
      refine Or.inr ⟨_, _, _, _, hu.symm, hmantissa, ?_, fun _ => ?_⟩
      · change ((unpackExponent bits).toNat : Int) - (1023 + 52) = _
        omega
      · rw [BitVec.toNat_append]
        exact Nat.left_le_or

theorem Within.isFinite {bound : Int} {u : UnpackedFloat} (h : Within bound u) :
    u.isFinite = true := by
  cases h with
  | zero s => rfl
  | finite s hm hsmall he => rfl

theorem isFinite_of_within {bound : Int} {x : Float.Model} (h : Within bound x.unpack) :
    x.isFinite = true := h.isFinite

theorem within_unpack {bits : BitVec Format.binary64.numBits}
    (h : (unpack Format.binary64 bits).isFinite = true) : Within 971 (unpack Format.binary64 bits) := by
  have hfield : (unpackExponent bits).toNat < 2048 := (unpackExponent bits).isLt
  rcases Nat.lt_or_ge (unpackExponent bits).toNat 2047 with hless | hgreatest
  · rcases unpack_bits_cases hless with ⟨s, hu, -⟩ | ⟨s, m, e, hm, hu, hsmall, he, -⟩
    · rw [hu]
      exact .zero s
    · rw [hu]
      exact .finite s hm hsmall (by omega)
  · -- the greatest exponent is that of the infinities and NaNs
    have hones : unpackExponent bits = -1#11 := by
      refine BitVec.eq_of_toNat_eq ?_
      change _ = 2047
      omega
    simp only [unpack] at h
    rw [if_pos hones] at h
    split at h
    case isTrue => cases h
    case isFalse => cases h

theorem within_of_isFinite {x : Float.Model} (h : x.isFinite = true) : Within 971 x.unpack :=
  within_unpack h

/-- A value that is not too large stays within its bound when it is packed. -/
theorem within_unpack_pack {bound : Int} {u : UnpackedFloat} (hlow : -1074 ≤ bound)
    (hhigh : bound ≤ 971) (h : Within bound u) : Within bound (Float.Model.pack u).unpack := by
  cases h with
  | zero s =>
      cases s with
      | positive => exact .zero .positive
      | negative => exact .zero .negative
  | @finite s m e hm hsmall he =>
      have hexponent := unpackExponent_pack s hm (Int.le_trans he hhigh)
      change Within bound (unpack Format.binary64 (pack Format.binary64 (.finite s m e hm)))
      rcases unpack_bits_cases (unpackExponent_pack_lt s hm (Int.le_trans he hhigh)) with
        ⟨t, hu, -⟩ | ⟨t, n, k, hn, hu, hsmall, hk, -⟩
      · rw [hu]
        exact .zero t
      · rw [hu]
        refine .finite t hn hsmall ?_
        rw [hexponent] at hk
        split at hk
        case isTrue => omega
        case isFalse => omega

/-- A significand of 53 bits and its exponent are found again. -/
theorem unpack_pack_normal (s : Sign) {m : Nat} {e : Int} (hm : 0 < m) (hbits : 2 ^ 52 ≤ m)
    (hsmall : m < 2 ^ 53) (hlow : -1074 ≤ e) (hhigh : e ≤ 971) :
    ∃ t n hn, (Float.Model.pack (.finite s m e hm)).unpack = .finite t n e hn ∧ 52 ≤ n.log2 := by
  have hlog : m.log2 = 52 := by
    have := (Nat.le_log2 (Nat.ne_of_gt hm)).2 hbits
    have := log2_le_of_lt hsmall
    omega
  have hexponent := unpackExponent_pack s hm hhigh
  rw [if_pos hlog] at hexponent
  rcases unpack_bits_cases (unpackExponent_pack_lt s hm hhigh) with
    ⟨t, -, hzero⟩ | ⟨t, n, k, hn, hu, -, hk, hlarge⟩
  · omega
  · have hke : k = e := by omega
    subst hke
    exact ⟨t, n, hn, hu, (Nat.le_log2 (Nat.ne_of_gt hn)).2 (hlarge (by omega))⟩

/-- A finite value is packed as a finite one, or as an infinite one where it is too large. -/
theorem isFinite_pack {u : UnpackedFloat} (h : u.isFinite = true)
    (hnot : (Float.Model.pack u).isInf = false) : (Float.Model.pack u).isFinite = true := by
  cases u with
  | notANumber => cases h
  | infinity s => cases h
  | zero s =>
      cases s with
      | positive => rfl
      | negative => rfl
  | finite s m e hm =>
      change (unpack Format.binary64 (pack Format.binary64 (.finite s m e hm))).isFinite = true
      change (unpack Format.binary64 (pack Format.binary64 (.finite s m e hm))).isInf = false at hnot
      -- an exponent that does not fit is packed as that of an infinity
      rcases Decidable.em (e ≤ 971) with hfits | hlarge
      · rcases unpack_bits_cases (unpackExponent_pack_lt s hm hfits) with
          ⟨t, hu, -⟩ | ⟨t, n, k, hn, hu, -⟩
        · rw [hu]
          rfl
        · rw [hu]
          rfl
      · have hpacked : pack Format.binary64 (.finite s m e hm) = packedInfinity Format.binary64 s := by
          unfold pack
          rw [biased_eq, if_pos]
          change 2048 ≤ _
          omega
        rw [hpacked] at hnot
        cases s with
        | positive => cases hnot
        | negative => cases hnot

/-! ## Products and quotients -/

theorem within_mul {a b : Int} {u v : UnpackedFloat} (h : -1127 ≤ a + b) (hu : Within a u)
    (hv : Within b v) : Within (a + b + 54) (UnpackedFloat.mul Format.binary64 u v) := by
  cases hu with
  | zero s =>
      cases hv with
      | zero t => exact .zero (s * t)
      | finite t hn hn53 hk => exact .zero (s * t)
  | @finite s m e hm hm53 he =>
      cases hv with
      | zero t => exact .zero (s * t)
      | @finite t n k hn hn53 hk =>
          have hsmall : m * n < 2 ^ 53 * 2 ^ 53 := Nat.mul_lt_mul'' hm53 hn53
          have hlog : (m * n).log2 ≤ 105 := log2_le_of_lt hsmall
          refine within_round ?_ (s * t) .exact
          unfold roundingExponent
          omega

/-- A product of finite floats is finite unless it is too large. -/
theorem isFinite_mul {x y : Float} (hx : x.isFinite = true) (hy : y.isFinite = true)
    (h : (x * y).isInf = false) : (x * y).isFinite = true :=
  isFinite_pack
    (within_mul (by decide) (within_of_isFinite hx) (within_of_isFinite hy)).isFinite h

/-- A value of at least two in amount. -/
inductive AtLeastTwo : UnpackedFloat → Prop
  | finite (s : Sign) {m : Nat} {e : Int} (hm : 0 < m) (h : 1 ≤ (m.log2 : Int) + e) :
      AtLeastTwo (.finite s m e hm)

instance : DecidablePred AtLeastTwo
  | .finite s m e hm =>
      decidable_of_iff (1 ≤ (m.log2 : Int) + e) ⟨AtLeastTwo.finite s hm, fun | .finite _ _ h => h⟩
  | .zero _ => .isFalse nofun
  | .infinity _ => .isFalse nofun
  | .notANumber => .isFalse nofun

theorem AtLeastTwo.isFinite {u : UnpackedFloat} (h : AtLeastTwo u) : u.isFinite = true := by
  cases h
  rfl

theorem log2_shift_div_le {m n k : Nat} (hn : 0 < n) :
    ((m <<< k) / n).log2 ≤ m.log2 + k - n.log2 := by
  refine log2_le_of_lt ?_
  have hlow : 2 ^ n.log2 ≤ n := Nat.log2_self_le (Nat.ne_of_gt hn)
  rw [Nat.div_lt_iff_lt_mul hn]
  calc
    m <<< k = m * 2 ^ k := Nat.shiftLeft_eq m k
    _ < 2 ^ (m.log2 + 1) * 2 ^ k := Nat.mul_lt_mul_of_pos_right Nat.lt_log2_self (Nat.two_pow_pos k)
    _ ≤ 2 ^ (m.log2 + k - n.log2 + 1) * 2 ^ n.log2 := by
      rw [← Nat.pow_add, ← Nat.pow_add]
      exact Nat.pow_le_pow_right (by decide) (by omega)
    _ ≤ 2 ^ (m.log2 + k - n.log2 + 1) * n := Nat.mul_le_mul_left _ hlow

theorem log2_shift_le {m k : Nat} : (m <<< k).log2 ≤ m.log2 + k := by
  have := log2_shift_div_le (m := m) (k := k) (n := 1) (by decide)
  rwa [Nat.div_one] at this

theorem within_div {u v : UnpackedFloat} (hu : Within 971 u) (hv : AtLeastTwo v) :
    Within 971 (UnpackedFloat.div Format.binary64 u v) := by
  cases hv with
  | @finite t n k hn hnk =>
      cases hu with
      | zero s => exact .zero (s / t)
      | @finite s m e hm hm53 he =>
          have hlog : m.log2 ≤ 52 := log2_le_of_lt hm53
          -- The quotient is rounded at an exponent that the divisor brings down.
          obtain ⟨target, htarget⟩ : ∃ target : Int, target = min (e - k)
              (Format.binary64.targetExponent (totalExponent m e - totalExponent n k)) := ⟨_, rfl⟩
          have hbound : target ≤ e - k ∧ target ≤ 970 := by
            simp only [Format.targetExponent, totalExponent, Format.mantissaBits,
              Format.minExponent] at htarget
            omega
          have hquotient : ((m <<< (e - k - target).toNat) / n).log2 ≤
              m.log2 + (e - k - target).toNat - n.log2 := log2_shift_div_le hn
          have hrounding :
              roundingExponent ((m <<< (e - k - target).toNat) / n) target + 1 ≤ 971 := by
            unfold roundingExponent
            omega
          rw [htarget] at hrounding
          exact within_round hrounding (s / t) _

/-- A finite float divided by one of at least two in amount is finite. -/
theorem isFinite_div {x y : Float} (hx : x.isFinite = true) (hy : AtLeastTwo y.toModel.unpack) :
    (x / y).isFinite = true :=
  isFinite_of_within
    (within_unpack_pack (by decide) (by decide) (within_div (within_of_isFinite hx) hy))

theorem isFinite_neg {x : Float} (hx : x.isFinite = true) : (-x).isFinite = true := by
  have hneg : Within 971 x.toModel.unpack.neg := by
    generalize x.toModel.unpack = u, within_of_isFinite hx = hwithin
    cases hwithin with
    | zero s => exact .zero (-s)
    | finite s hm hsmall he => exact .finite (-s) hm hsmall he
  exact isFinite_of_within (within_unpack_pack (by decide) (by decide) hneg)

/-! ## Significands -/

/-- A significand of 64 bits is rounded to a small exponent. -/
theorem within_round_of_lt {n : Nat} (h : n < 2 ^ 64) (s : Sign) :
    Within 12 (UnpackedFloat.round Format.binary64 s n 0) := by
  obtain ⟨k, hk⟩ : ∃ k : Nat, k = ((0 : Int) -
      Format.binary64.targetExponent (totalExponent n 0)).toNat := ⟨_, rfl⟩
  have hlog : n.log2 ≤ 63 := log2_le_of_lt h
  have hshifted : (n <<< k).log2 ≤ n.log2 + k := log2_shift_le
  have hrounding : roundingExponent (n <<< k) (0 - (k : Int)) + 1 ≤ 12 := by
    unfold roundingExponent
    omega
  rw [hk] at hrounding
  exact within_round hrounding s .exact

theorem within_ofInt {n : Nat} (h : n < 2 ^ 64) :
    Within 12 (UnpackedFloat.ofInt Format.binary64 n) := by
  unfold UnpackedFloat.ofInt UnpackedFloat.normalize
  cases hsign : compare (n : Int) 0 with
  | eq => exact .zero .positive
  | gt => exact within_round_of_lt h .positive
  | lt =>
      have : (n : Int) < 0 := Std.compare_eq_lt.1 hsign
      omega

/-- A significand times a power of ten is rounded once. -/
theorem ofScientific_eq {m k : Nat} (hm : m ≠ 0) (hk : k ≤ 2048) :
    UnpackedFloat.ofScientific Format.binary64 m k =
      roundWithAccuracy Format.binary64 .positive ((m <<< 53) * 10 ^ k) (-53) .exact := by
  have hrange : (2 : Int) ^ Format.binary64.exponentBits = 2048 := by decide
  unfold UnpackedFloat.ofScientific
  rw [dif_neg hm, hrange, if_neg (by omega), if_neg (by omega), if_pos (by omega)]
  rfl

theorem isFinite_ofNat {n : Nat} (h : n < 2 ^ 64) : (Float.ofNat n).isFinite = true := by
  change (Float.ofScientific n false 0).isFinite = true
  unfold Float.ofScientific
  split
  case isTrue hsmall =>
    have hmodel : Within 12 (Float.Model.ofUInt64 n.toUInt64).unpack := by
      refine within_unpack_pack (by decide) (by decide) ?_
      have hnat : n.toUInt64.toNat = n := Nat.mod_eq_of_lt h
      unfold UnpackedFloat.ofUInt64 UnpackedFloat.ofNat
      rw [hnat]
      exact within_ofInt h
    have hone : Within 0 (Float.ofBits 4607182418800017408).toModel.unpack :=
      .finite (m := 2 ^ 52) (e := -52) .positive (by decide) (by decide) (by decide)
    exact isFinite_of_within
      (within_unpack_pack (by decide) (by decide) (within_mul (by decide) hmodel hone))
  case isFalse hlarge =>
    have hnonzero : n ≠ 0 := by
      intro hzero
      exact hlarge ⟨by omega, by decide⟩
    have hlog : n.log2 ≤ 63 := log2_le_of_lt h
    have hshifted : (n <<< 53).log2 ≤ n.log2 + 53 := log2_shift_le
    have hrounding : roundingExponent (n <<< 53) (-53) + 1 ≤ 12 := by
      unfold roundingExponent
      omega
    have hround := ofScientific_eq (k := 0) hnonzero (by decide)
    rw [Nat.pow_zero, Nat.mul_one] at hround
    have hwithin : Within 12 (UnpackedFloat.ofScientific Format.binary64 n (0 : Nat)) := by
      rw [hround]
      exact within_round hrounding .positive .exact
    exact isFinite_of_within (within_unpack_pack (by decide) (by decide) hwithin)

end Number
end RecordFilter
