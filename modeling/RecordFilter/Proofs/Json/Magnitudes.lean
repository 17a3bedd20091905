import RecordFilter.Proofs.Json.Numbers
import RecordFilter.Proofs.Number.Finite

/-!
# Magnitudes — numbers in JSON text are finite

A number that is read is an integer of 64 bits or a finite float (`isFinite_of_number?`).  A positive
exponent multiplies, and the reader refuses what is too large; a negative one divides by powers of ten
up to `10^308`, each of which is at least two in amount.
-/

namespace RecordFilter
namespace Json

open Float.Model (UnpackedFloat Format totalExponent)
open Float.Model.UnpackedFloat
open RecordFilter.Number

variable {s left : Text} {n : Number} {negative : Bool} {significand : Nat} {exponent : Int}

/-! ## Powers of ten -/

/-- The powers that are exact in a float, and the greatest. -/
theorem atLeastTwo_exact :
    (∀ n : Fin 22, AtLeastTwo (powerOfTen (n.val + 1)).toModel.unpack) ∧
      AtLeastTwo (powerOfTen 308).toModel.unpack := by
  decide +kernel

theorem log2_scaled {m : Nat} (hm : m ≠ 0) : ((1 <<< 53) * m).log2 = m.log2 + 53 := by
  have hscale : (1 <<< 53) * m = m * 2 ^ 53 := by rw [Nat.one_shiftLeft, Nat.mul_comm]
  rw [hscale, Nat.log2_eq_iff (Nat.mul_ne_zero hm (by decide))]
  constructor
  · rw [Nat.pow_add]
    exact Nat.mul_le_mul_right _ (Nat.log2_self_le hm)
  · rw [Nat.add_right_comm, Nat.pow_add]
    exact Nat.mul_lt_mul_of_pos_right Nat.lt_log2_self (by decide)

/-- A power of ten that is no exact float is rounded at its own exponent. -/
theorem atLeastTwo_rounded {n : Nat} (hlow : 22 < n) (hhigh : n < 308) :
    AtLeastTwo (powerOfTen n).toModel.unpack := by
  have hpos : 10 ^ n ≠ 0 := Nat.ne_of_gt (Nat.pow_pos (by decide))
  have hten : 1 ≤ (10 ^ n).log2 := by
    refine (Nat.le_log2 hpos).2 ?_
    calc
      2 ^ 1 ≤ 10 ^ 1 := by decide
      _ ≤ 10 ^ n := Nat.pow_le_pow_right (by decide) (by omega)
  have hlog : (10 ^ n).log2 ≤ 1019 := by
    refine log2_le_of_lt ?_
    calc
      10 ^ n ≤ 10 ^ 307 := Nat.pow_le_pow_right (by decide) (by omega)
      _ < 2 ^ (1019 + 1) := by decide +kernel
  -- the exponent stays below the greatest, which only the last power comes near to
  have hscaled := log2_scaled hpos
  rcases round_normal (m := (1 <<< 53) * 10 ^ n) (e := -53) (by omega) (by omega) .positive .exact with
    ⟨f, k, hf, hround, hbits, hsmall, hk, hk'⟩
  have hrange : -1074 ≤ k ∧ k ≤ 971 := by omega
  rcases unpack_pack_normal .positive hf hbits hsmall hrange.1 hrange.2 with ⟨t, m, hm, hu, hmbits⟩
  have hpower : powerOfTen n = .ofModel (Float.Model.pack (.finite .positive f k hf)) := by
    unfold powerOfTen Float.ofScientific
    rw [dif_neg (by omega), ← hround, ← ofScientific_eq (by decide) (by omega)]
    rfl
  rw [hpower, hu]
  exact .finite t hm (by omega)

theorem atLeastTwo_powerOfTen {n : Nat} (hpos : 1 ≤ n) (hn : n ≤ 308) :
    AtLeastTwo (powerOfTen n).toModel.unpack := by
  rcases Decidable.em (n ≤ 22) with hsmall | hlarge
  · have hexact := atLeastTwo_exact.1 ⟨n - 1, by omega⟩
    rwa [Nat.sub_add_cancel hpos] at hexact
  · rcases Nat.lt_or_eq_of_le hn with hless | rfl
    · exact atLeastTwo_rounded (by omega) hless
    · exact atLeastTwo_exact.2

theorem isFinite_powerOfTen {n : Nat} (hn : n ≤ 308) : (powerOfTen n).isFinite = true := by
  rcases Nat.eq_zero_or_pos n with rfl | hpos
  · decide +kernel
  · exact (atLeastTwo_powerOfTen hpos hn).isFinite

/-! ## Scaling -/

theorem isFinite_scaleDown {x : Float} (hx : x.isFinite = true) {places : Nat} (hpos : 0 < places) :
    (scaleDown x places).isFinite = true := by
  induction places using Nat.strongRecOn generalizing x with
  | ind places ih =>
      rw [scaleDown]
      split
      case isTrue hfits => exact isFinite_div hx (atLeastTwo_powerOfTen hpos hfits)
      case isFalse hlarge =>
        split
        case isTrue => exact hx
        case isFalse =>
          exact ih (places - 308) (by omega) (isFinite_div hx atLeastTwo_exact.2) (by omega)

theorem isFinite_of_scale? {x y : Float} (hx : x.isFinite = true) (h : scale? x exponent = some y) :
    y.isFinite = true := by
  cases exponent with
  | negSucc k =>
      cases h
      exact isFinite_scaleDown hx (Nat.succ_pos k)
  | ofNat places =>
      rw [scale?] at h
      split at h
      case isTrue hfits =>
        dsimp only at h
        split at h
        case isTrue => cases h
        case isFalse hfinite =>
          cases h
          exact isFinite_mul hx (isFinite_powerOfTen hfits) (Bool.eq_false_iff.2 hfinite)
      case isFalse =>
        split at h
        case isTrue =>
          cases h
          exact hx
        case isFalse => cases h

/-! ## The reader of numbers -/

/-- A number that is an integer of 64 bits or a finite float. -/
abbrev Number.IsFinite (n : Number) : Prop := n.Fits fun x => x.isFinite = true

theorem Number.IsFinite.toFloat (h : n.IsFinite) : n.toFloat.isFinite = true := by
  cases n with
  | real x => exact h
  | integer n =>
      cases n with
      | ofNat n => exact isFinite_ofNat (Int.ofNat_lt.1 h.2)
      | negSucc n =>
          have hlow : n + 1 ≤ 2 ^ 63 := by
            have := h.1
            omega
          exact isFinite_neg (isFinite_ofNat (by omega))

theorem isFinite_of_signedReal? (hsignificand : significand < 2 ^ 64)
    (h : signedReal? negative significand exponent = some n) : n.IsFinite := by
  rcases Option.map_eq_some_iff.1 h with ⟨x, hx, rfl⟩
  have hfinite : x.isFinite = true := isFinite_of_scale? (isFinite_ofNat hsignificand) hx
  cases negative with
  | true => exact isFinite_neg hfinite
  | false => exact hfinite

theorem isFinite_of_integer? {unused : Nat} (hsignificand : significand < 2 ^ 64)
    (h : integer? negative significand unused = some n) : n.IsFinite := by
  rw [integer?] at h
  split at h
  case isTrue => exact isFinite_of_signedReal? hsignificand h
  case isFalse =>
    split at h
    case isTrue =>
      cases h
      exact ⟨by omega, by omega⟩
    case isFalse =>
      split at h
      case isTrue =>
        cases h
        exact isFinite_neg (isFinite_ofNat hsignificand)
      case isFalse hrange =>
        cases h
        simp only [Bool.or_eq_true, decide_eq_true_eq, not_or, Nat.not_lt] at hrange
        have hle : significand ≤ 2 ^ 63 := hrange.2
        exact ⟨by omega, by omega⟩

theorem isFinite_of_withExponent? {minus : Bool} {digits : Text} (hsignificand : significand < 2 ^ 64)
    (h : withExponent? negative significand exponent minus digits = some n) : n.IsFinite := by
  rw [withExponent?] at h
  split at h
  case isTrue => exact isFinite_of_signedReal? hsignificand h
  case isFalse =>
    split at h
    case isTrue => cases h
    case isFalse =>
      cases h
      cases negative with
      | true =>
          have hzero : (-0.0 : Float).isFinite = true := by decide +kernel
          exact hzero
      | false =>
          have hzero : (0.0 : Float).isFinite = true := by decide +kernel
          exact hzero

theorem isFinite_of_exponentTail? (hsignificand : significand < 2 ^ 64)
    (h : exponentTail? negative significand exponent s = some (n, left)) : n.IsFinite := by
  cases s with
  | nil => exact isFinite_of_signedReal? hsignificand (map_rest_eq_some_iff.1 h).1
  | cons c s =>
      rw [exponentTail?_cons_eq_some_iff] at h
      split at h
      case isTrue => exact isFinite_of_withExponent? hsignificand h.2.1
      case isFalse => exact isFinite_of_signedReal? hsignificand h.1

theorem isFinite_of_afterWhole? {unused : Text} (hsignificand : significand < 2 ^ 64)
    (h : afterWhole? negative significand unused s = some (n, left)) : n.IsFinite := by
  cases s with
  | nil => exact isFinite_of_integer? hsignificand (map_rest_eq_some_iff.1 h).1
  | cons c more =>
      rw [afterWhole?] at h
      split at h
      case isTrue =>
        split at h
        case isTrue => cases h
        case isFalse => exact isFinite_of_exponentTail? (gather_lt _ hsignificand) h
      case isFalse =>
        split at h
        case isTrue => exact isFinite_of_exponentTail? hsignificand h
        case isFalse => exact isFinite_of_integer? hsignificand (map_rest_eq_some_iff.1 h).1

/-- A number in JSON text is an integer of 64 bits or a finite float. -/
theorem isFinite_of_number? (h : number? s = some (n, left)) : n.IsFinite := by
  have hmagnitude : ∀ {negative s}, magnitude? negative s = some (n, left) → n.IsFinite := by
    intro negative s hs
    exact isFinite_of_afterWhole? (gather_lt _ (by decide)) (magnitude?_eq_some_iff.1 hs).2
  cases s with
  | nil => cases h
  | cons c s =>
      rw [number?] at h
      split at h
      case isTrue => exact hmagnitude h
      case isFalse => exact hmagnitude h

end Json
end RecordFilter
