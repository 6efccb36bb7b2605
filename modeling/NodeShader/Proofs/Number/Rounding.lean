import Mathlib
import NodeShader.Number.FloatFormat

/-!
# Rounding to doubles

Arithmetic on doubles computes a mantissa with an exponent and rounds it to 53 bits, and the number is
packed into a pattern and unpacked again by whoever reads it.

* `roundWithAccuracy_spec`: **rounding takes a long mantissa to one of the two next to it**, and
  `roundWithAccuracy_exact` leaves it alone where nothing is lost.
* `unpack_pack_normal`: a number with a mantissa of 53 bits comes back from its pattern.
* `floatValue_eq`: the value that `FloatFormat.decode` reads off a pattern is that of its parts.
-/

namespace NodeShader

open Float.Model Float.Model.UnpackedFloat

/-! ### Shifting mantissas -/

theorem shiftRight_succ (em : ExtendedMantissa) (k : Nat) :
    em >>> (k + 1) = (em >>> k).shiftRightOne := rfl

theorem shiftRight_mantissa (em : ExtendedMantissa) (k : Nat) :
    (em >>> k).mantissa = em.mantissa / 2 ^ k := by
  induction k with
  | zero => exact (Nat.div_one _).symm
  | succ k ih =>
    rw [shiftRight_succ, ExtendedMantissa.shiftRightOne, ih, Nat.div_div_eq_div_mul, ← Nat.pow_succ]

/-- Nothing is lost while the bits that go are zero. -/
theorem shiftRight_exact {m k : Nat} (h : 2 ^ k ∣ m) :
    (⟨m, false, false⟩ : ExtendedMantissa) >>> k = ⟨m / 2 ^ k, false, false⟩ := by
  induction k with
  | zero => rw [Nat.pow_zero, Nat.div_one]; rfl
  | succ k ih =>
    rw [shiftRight_succ, ih (Nat.dvd_trans (Nat.pow_dvd_pow 2 (Nat.le_succ k)) h)]
    obtain ⟨c, rfl⟩ := h
    have hc : 2 ^ (k + 1) * c / 2 ^ k = 2 * c := by
      rw [Nat.pow_succ, Nat.mul_assoc, Nat.mul_div_cancel_left _ (Nat.two_pow_pos k)]
    rw [ExtendedMantissa.shiftRightOne, hc, Nat.mul_div_cancel_left _ (Nat.two_pow_pos _)]
    simp

theorem roundedMantissa_bounds (em : ExtendedMantissa) :
    em.mantissa ≤ em.roundedMantissa ∧ em.roundedMantissa ≤ em.mantissa + 1 := by
  obtain ⟨m, r, s⟩ := em
  cases r <;> cases s <;>
    simp [ExtendedMantissa.roundedMantissa, ExtendedMantissa.accuracy, Accuracy.roundToNearestEven]
  omega

/-- The exponent that a number gets, unless it is very small. -/
theorem targetExponent_eq (m : Nat) (e : Int) (he : -1074 ≤ m.log2 + e - 52) :
    Format.binary64.targetExponent (totalExponent m e) = m.log2 + e - 52 := by
  simp only [Format.targetExponent, totalExponent, Format.mantissaBits, Format.minExponent]
  omega

theorem log2_normal {m : Nat} (h : 2 ^ 52 ≤ m) (h' : m < 2 ^ 53) : m.log2 = 52 :=
  (Nat.log2_eq_iff (by omega)).2 ⟨h, h'⟩

theorem log2_mul_two_pow {m : Nat} (hm : m ≠ 0) (k : Nat) : (m * 2 ^ k).log2 = m.log2 + k := by
  obtain ⟨hlo, hhi⟩ := (Nat.log2_eq_iff hm).1 rfl
  refine (Nat.log2_eq_iff (Nat.mul_ne_zero hm (Nat.two_pow_pos k).ne')).2 ⟨?_, ?_⟩
  · rw [Nat.pow_add]
    exact Nat.mul_le_mul_right _ hlo
  · rw [Nat.add_right_comm, Nat.pow_add]
    exact Nat.mul_lt_mul_of_pos_right hhi (Nat.two_pow_pos k)

/-- **The steps of rounding**: a mantissa that is long enough is cut to 53 bits. -/
theorem shiftToTargetExponent_eq {m k : Nat} {e : Int} (a : Accuracy) (hk : m.log2 = 52 + k)
    (he : -1074 ≤ e + k) : shiftToTargetExponent .binary64 m e a =
      (ExtendedMantissa.ofMantissaAndAccuracy m a >>> k, e + k) := by
  have ht : Format.binary64.targetExponent (totalExponent m e) = e + k := by
    rw [targetExponent_eq m e (by omega)]
    omega
  have hs : (e + k - e).toNat = k := by omega
  rw [shiftToTargetExponent, ht, shiftToExponent, hs]

theorem div_normal {m k : Nat} (hk : m.log2 = 52 + k) : 2 ^ 52 ≤ m / 2 ^ k ∧ m / 2 ^ k < 2 ^ 53 := by
  have hm : m ≠ 0 := by
    rintro rfl
    rw [Nat.log2_zero] at hk
    omega
  have hlog := (Nat.log2_eq_iff hm).1 hk
  rw [Nat.le_div_iff_mul_le (Nat.two_pow_pos k), Nat.div_lt_iff_lt_mul (Nat.two_pow_pos k), ← Nat.pow_add,
    ← Nat.pow_add]
  exact ⟨hlog.1, by rw [show 53 + k = 52 + k + 1 by omega]; exact hlog.2⟩

/-- A mantissa of 53 bits stays as it is, and one that has become too long loses its last bit. -/
theorem shiftToTargetExponent_rounded {r : Nat} {e : Int} (h : 2 ^ 52 ≤ r) (h' : r ≤ 2 ^ 53)
    (he : -1074 ≤ e) : ∃ R δ : Nat, shiftToTargetExponent .binary64 r e .exact =
      (⟨R, false, false⟩, e + δ) ∧ 2 ^ 52 ≤ R ∧ R < 2 ^ 53 ∧ R * 2 ^ δ = r ∧ (r < 2 ^ 53 → δ = 0) := by
  rcases Nat.lt_or_eq_of_le h' with hlt | rfl
  · refine ⟨r, 0, ?_, h, hlt, Nat.mul_one r, fun _ => rfl⟩
    exact shiftToTargetExponent_eq (k := 0) .exact (log2_normal h hlt) (by omega)
  · refine ⟨2 ^ 52, 1, ?_, Nat.le_refl _, by decide, by decide, fun h => absurd h (Nat.lt_irrefl _)⟩
    rw [shiftToTargetExponent_eq (k := 1) .exact (Nat.log2_two_pow (n := 53)) (by omega)]
    rfl

/-- **Rounding to nearest** takes a mantissa to one of the two next to it. -/
theorem roundWithAccuracy_spec (s : Sign) {m k : Nat} {e : Int} (a : Accuracy) (hk : m.log2 = 52 + k)
    (he : -1074 ≤ e + k) : ∃ (R δ : Nat) (hR : 0 < R),
      roundWithAccuracy .binary64 s m e a = .finite s R (e + k + δ) hR ∧ 2 ^ 52 ≤ R ∧ R < 2 ^ 53 ∧
      m / 2 ^ k ≤ R * 2 ^ δ ∧ R * 2 ^ δ ≤ m / 2 ^ k + 1 ∧ δ ≤ 1 := by
  have hcut : (ExtendedMantissa.ofMantissaAndAccuracy m a >>> k).mantissa = m / 2 ^ k := by
    rw [shiftRight_mantissa]
    cases a with
    | exact => rfl
    | inexact o => cases o <;> rfl
  obtain ⟨hlo, hhi⟩ := roundedMantissa_bounds (ExtendedMantissa.ofMantissaAndAccuracy m a >>> k)
  rw [hcut] at hlo hhi
  obtain ⟨h52, h53⟩ := div_normal hk
  obtain ⟨R, δ, hshift, hR, hR', hmul, -⟩ := shiftToTargetExponent_rounded (e := e + k)
    (Nat.le_trans h52 hlo) (Nat.le_trans hhi h53) he
  refine ⟨R, δ, by omega, ?_, hR, hR', hmul ▸ hlo, hmul ▸ hhi, ?_⟩
  · rw [roundWithAccuracy, shiftToTargetExponent_eq a hk he]
    dsimp only
    rw [hshift]
    dsimp only
    rw [dif_neg (by omega)]
  · by_contra hδ
    have hpow : 2 ^ 2 ≤ 2 ^ δ := Nat.pow_le_pow_right (by decide) (by omega)
    have : 2 ^ 52 * 2 ^ 2 ≤ R * 2 ^ δ := Nat.mul_le_mul hR hpow
    omega

/-- What fits is not changed. -/
theorem roundWithAccuracy_exact (s : Sign) {m k : Nat} {e : Int} (hk : m.log2 = 52 + k)
    (he : -1074 ≤ e + k) (hdvd : 2 ^ k ∣ m) : ∃ h : 0 < m / 2 ^ k,
      roundWithAccuracy .binary64 s m e .exact = .finite s (m / 2 ^ k) (e + k) h := by
  obtain ⟨h52, h53⟩ := div_normal hk
  refine ⟨by omega, ?_⟩
  rw [roundWithAccuracy, shiftToTargetExponent_eq .exact hk he]
  dsimp only
  rw [ExtendedMantissa.ofMantissaAndAccuracy, shiftRight_exact hdvd]
  have hrounded : (⟨m / 2 ^ k, false, false⟩ : ExtendedMantissa).roundedMantissa = m / 2 ^ k := rfl
  rw [hrounded, shiftToTargetExponent_eq (k := 0) .exact (log2_normal h52 h53) (by omega)]
  have hne : m / 2 ^ k ≠ 0 := by omega
  refine (dif_neg hne).trans ?_
  congr 1
  exact Int.add_zero _

/-! ### The fields of a pattern -/

section Fields

variable (b : BitVec 64)

theorem toNat_unpackMantissa :
    (@unpackMantissa .binary64 b).toNat = b.toNat % 2 ^ 52 := by
  rw [unpackMantissa, BitVec.toNat_cast, BitVec.extractLsb_toNat, Nat.shiftRight_zero]
  rfl

theorem toNat_unpackExponent :
    (@unpackExponent .binary64 b).toNat = b.toNat / 2 ^ 52 % 2 ^ 11 := by
  rw [unpackExponent, BitVec.toNat_cast, BitVec.extractLsb_toNat, Nat.shiftRight_eq_div_pow]
  rfl

theorem toNat_unpackSign :
    (@unpackSign .binary64 b).toNat = b.toNat / 2 ^ 63 % 2 := by
  rw [unpackSign, BitVec.toNat_cast, BitVec.extractLsb_toNat, Nat.shiftRight_eq_div_pow]
  rfl

end Fields

theorem unpackSign_packComponents (s : Sign) (e : BitVec 11) (m : BitVec 52) :
    Sign.ofBitVec (unpackSign (packComponents .binary64 s e m)) = s := by
  simp only [unpackSign, packComponents, BitVec.extractLsb]
  rw [BitVec.extractLsb'_append_eq_of_le (by omega), BitVec.extractLsb'_append_eq_of_le (by omega)]
  cases s <;> rfl

theorem toNat_one_append (v : BitVec 52) : (1#1 ++ v).toNat = 2 ^ 52 + v.toNat := by
  rw [BitVec.toNat_append, ← Nat.shiftLeft_add_eq_or_of_lt v.isLt]
  rfl

/-- **A number of 53 bits is packed without loss.** -/
theorem unpack_pack_normal {s : Sign} {m : Nat} {e : Int} (hm : 0 < m) (h : 2 ^ 52 ≤ m) (h' : m < 2 ^ 53)
    (he : -1074 ≤ e) (he' : e ≤ 971) :
    (Float.Model.pack (.finite s m e hm)).unpack = .finite s m e hm := by
  have hb : (e + Format.binary64.exponentBias + Format.binary64.mantissaBitsWithoutImplicit).toNat =
      (e + 1075).toNat := by
    show (e + (2 ^ (11 - 1) - 1 : Nat) + (52 : Nat)).toNat = (e + 1075).toNat
    omega
  have hfield : (BitVec.ofNat 11 (e + 1075).toNat).toNat = (e + 1075).toNat := by
    rw [BitVec.toNat_ofNat, Nat.mod_eq_of_lt (by omega)]
  have hmantissa : (BitVec.ofNat 52 m).toNat = m - 2 ^ 52 := by
    rw [BitVec.toNat_ofNat]
    omega
  have hne : BitVec.ofNat 11 (e + 1075).toNat ≠ -1#11 := fun heq => by
    have := congrArg BitVec.toNat heq
    rw [hfield] at this
    simp at this
    omega
  have hne' : BitVec.ofNat 11 (e + 1075).toNat ≠ 0#11 := fun heq => by
    have := congrArg BitVec.toNat heq
    rw [hfield] at this
    simp at this
    omega
  show UnpackedFloat.unpack .binary64 (UnpackedFloat.pack .binary64 (.finite s m e hm)) = _
  rw [UnpackedFloat.pack]
  simp only [log2_normal h h', hb]
  rw [if_neg (by omega), if_pos (show 52 + 1 = Format.binary64.mantissaBits from rfl),
    UnpackedFloat.unpack]
  simp only [unpackMantissa_packComponents, unpackExponent_packComponents, unpackSign_packComponents]
  rw [if_neg hne, if_neg hne']
  congr 1
  · rw [toNat_one_append, hmantissa]
    omega
  · rw [hfield]
    show ((e + 1075).toNat : Int) - ((2 ^ (11 - 1) - 1 : Nat) + (52 : Nat) : Int) = e
    omega

theorem unpack_pack_zero (s : Sign) : (Float.Model.pack (.zero s)).unpack = .zero s := by
  cases s <;> rfl

/-! ### Values of doubles -/

/-- The value that an unpacked number stands for. -/
def FloatValue.ofUnpacked : UnpackedFloat → FloatValue
  | .notANumber => .nan
  | .infinity s => .infinite (s == .negative)
  | .zero s => .finite (s == .negative) 0 (-1074)
  | .finite s m e _ => .finite (s == .negative) m e

/-- **The value of a double** is that of its parts. -/
theorem decode_eq (b : BitVec 64) : FloatFormat.binary64.decode b.toNat =
    .ofUnpacked (UnpackedFloat.unpack .binary64 b) := by
  have hsign : (b.toNat / FloatFormat.binary64.signBit % 2 == 1) =
      (Sign.ofBitVec (@unpackSign .binary64 b) == .negative) := by
    have h := toNat_unpackSign b
    have hcases : ∀ v : BitVec 1, (v.toNat == 1) = (Sign.ofBitVec v == .negative) := by decide
    rw [← hcases, h]
    rfl
  have hfield : b.toNat >>> FloatFormat.binary64.fraction % 1 <<< FloatFormat.binary64.exponent =
      (@unpackExponent .binary64 b).toNat := by
    rw [toNat_unpackExponent, Nat.shiftRight_eq_div_pow]
    rfl
  have hfraction : b.toNat % 1 <<< FloatFormat.binary64.fraction =
      (@unpackMantissa .binary64 b).toNat := by
    rw [toNat_unpackMantissa]
    rfl
  rw [FloatFormat.decode, UnpackedFloat.unpack, hsign]
  dsimp only
  rw [hfield, hfraction]
  have htop : (@unpackExponent .binary64 b).toNat = FloatFormat.binary64.topField ↔
      @unpackExponent .binary64 b = -1#11 := by
    rw [← BitVec.toNat_inj]
    rfl
  have hlow : (@unpackExponent .binary64 b).toNat = 0 ↔ @unpackExponent .binary64 b = 0#11 := by
    rw [← BitVec.toNat_inj]
    rfl
  have hnone : (@unpackMantissa .binary64 b).toNat = 0 ↔ @unpackMantissa .binary64 b = 0#52 := by
    rw [← BitVec.toNat_inj]
    rfl
  simp only [htop, hlow, hnone]
  by_cases h₁ : @unpackExponent .binary64 b = -1#11
  · rw [if_pos h₁, if_pos h₁]
    split <;> rfl
  · rw [if_neg h₁, if_neg h₁]
    by_cases h₂ : @unpackExponent .binary64 b = 0#11
    · rw [if_pos h₂, if_pos h₂]
      by_cases h₃ : @unpackMantissa .binary64 b = 0#52
      · rw [dif_pos h₃, h₃]
        rfl
      · rw [dif_neg h₃, h₂]
        rfl
    · rw [if_neg h₂, if_neg h₂]
      show FloatValue.finite _ _ _ = .finite _ _ _
      congr 1
      · exact (toNat_one_append _).symm
      · have hpos : (@unpackExponent .binary64 b).toNat ≠ 0 := fun h => h₂ (hlow.1 h)
        show (-1074 : Int) + ((@unpackExponent .binary64 b).toNat - 1 : Nat) =
          (@unpackExponent .binary64 b).toNat - ((2 ^ (11 - 1) - 1 : Nat) + (52 : Nat) : Int)
        omega

theorem floatValue_eq (x : Float) : floatValue x = .ofUnpacked x.toModel.unpack :=
  decode_eq x.toModel.toBits.toBitVec

/-- The mantissas and exponents of doubles. -/
theorem unpack_finite {b : BitVec 64} {s : Sign} {m : Nat} {e : Int} {h : 0 < m}
    (hx : UnpackedFloat.unpack .binary64 b = .finite s m e h) :
    m < 2 ^ 53 ∧ (2 ^ 52 ≤ m ∧ -1074 ≤ e ∧ e ≤ 971 ∨ e = -1074) := by
  have hb : _ < 2 ^ 52 := (@unpackMantissa .binary64 b).isLt
  have he : _ < 2 ^ 11 := (@unpackExponent .binary64 b).isLt
  rw [UnpackedFloat.unpack] at hx
  dsimp only at hx
  split at hx
  · split at hx <;> cases hx
  · rename_i htop
    split at hx
    · rename_i hlow
      split at hx
      · cases hx
      · cases hx
        refine ⟨by omega, .inr ?_⟩
        rw [hlow]
        rfl
    · rename_i hlow
      cases hx
      have hpos : (@unpackExponent .binary64 b).toNat ≠ 0 := fun h =>
        hlow (BitVec.eq_of_toNat_eq h)
      have hne : (@unpackExponent .binary64 b).toNat ≠ 2047 := fun h =>
        htop (BitVec.eq_of_toNat_eq h)
      rw [toNat_one_append]
      refine ⟨by omega, .inl ⟨by omega, ?_, ?_⟩⟩
      · show (-1074 : Int) ≤ _ - ((2 ^ (11 - 1) - 1 : Nat) + (52 : Nat) : Int)
        omega
      · show _ - ((2 ^ (11 - 1) - 1 : Nat) + (52 : Nat) : Int) ≤ (971 : Int)
        omega

/-! ### Patterns -/

theorem decode_parts (b : Nat) : FloatFormat.binary64.decode b =
    if b / 2 ^ 52 % 2 ^ 11 = 2047 then
      if b % 2 ^ 52 = 0 then .infinite (b / 2 ^ 52 / 2 ^ 11 % 2 == 1) else .nan
    else if b / 2 ^ 52 % 2 ^ 11 = 0 then .finite (b / 2 ^ 52 / 2 ^ 11 % 2 == 1) (b % 2 ^ 52) (-1074)
    else .finite (b / 2 ^ 52 / 2 ^ 11 % 2 == 1) (2 ^ 52 + b % 2 ^ 52)
      (-1074 + (b / 2 ^ 52 % 2 ^ 11 - 1 : Nat)) := by
  rw [Nat.div_div_eq_div_mul, FloatFormat.decode, Nat.shiftRight_eq_div_pow]
  rfl

/-- Clearing bits of the mantissa of a pattern. -/
theorem decode_sub {b r m : Nat} {e : Int} {negative : Bool}
    (h : FloatFormat.binary64.decode b = .finite negative m e) (hm : 2 ^ 52 ≤ m) (hr : r ≤ b % 2 ^ 52) :
    m = 2 ^ 52 + b % 2 ^ 52 ∧ FloatFormat.binary64.decode (b - r) = .finite negative (m - r) e := by
  have hhigh : (b - r) / 2 ^ 52 = b / 2 ^ 52 := by omega
  have hlow : (b - r) % 2 ^ 52 = b % 2 ^ 52 - r := by omega
  rw [decode_parts] at h
  rw [decode_parts, hhigh, hlow]
  split at h
  · split at h <;> cases h
  · rename_i htop
    rw [if_neg htop]
    split at h
    · cases h
      omega
    · rename_i hzero
      rw [if_neg hzero]
      cases h
      refine ⟨rfl, ?_⟩
      congr 1
      omega

/-- **A pattern of a number of 53 bits** is the double of that number. -/
theorem floatValue_floatOfPattern {b m : Nat} {e : Int} {negative : Bool} (hb : b < 2 ^ 64)
    (h : FloatFormat.binary64.decode b = .finite negative m e) (hm : 2 ^ 52 ≤ m) :
    floatValue (floatOfPattern b) = .finite negative m e := by
  have hbits : (BitVec.ofNat 64 b).toNat = b := by
    rw [BitVec.toNat_ofNat, Nat.mod_eq_of_lt hb]
  have hvalue := decode_eq (BitVec.ofNat 64 b)
  rw [hbits, h] at hvalue
  have hpattern : (floatOfPattern b).toModel.unpack =
      (Float.Model.pack (UnpackedFloat.unpack .binary64 (BitVec.ofNat 64 b))).unpack := by
    rfl
  rw [floatValue_eq, hpattern]
  cases hu : UnpackedFloat.unpack .binary64 (BitVec.ofNat 64 b) with
  | notANumber =>
    rw [hu] at hvalue
    cases hvalue
  | infinity s =>
    rw [hu] at hvalue
    cases hvalue
  | zero s =>
    rw [hu] at hvalue
    cases hvalue
    omega
  | finite s m' e' h' =>
    rw [hu] at hvalue
    cases hvalue
    obtain ⟨hhi, ⟨hlo, he, he'⟩ | rfl⟩ := unpack_finite hu
    · rw [unpack_pack_normal _ hlo hhi he he']
      rfl
    · rw [unpack_pack_normal _ hm hhi (by omega) (by omega)]
      rfl

end NodeShader
