import NodeShader.Proofs.Number.Whole

/-!
# Integers as doubles

Doubles that stand for whole numbers compute with them: sums, differences, products and quotients are
those of the numbers, as long as 53 bits can hold them, and a quotient loses its fraction afterwards.

* `Whole.add`, `Whole.mul`, `Whole.minimum`: arithmetic on doubles is that of the integers.
* `Whole.div`: **the quotient of integers of 32 bits** without its fraction is the integer quotient.
* `Whole.signedWord`: a double that stands for an integer of 32 bits is emitted as that integer.
-/

namespace NodeShader

open Float.Model Float.Model.UnpackedFloat

namespace Stands

variable {u v : UnpackedFloat} {a b : Int}

/-- Mantissas of 53 bits are divided to one of 53 or 54 bits. -/
theorem divCore_eq {m m' k k' : Nat} (hlo : 2 ^ 52 ≤ m) (hhi : m < 2 ^ 53) (hlo' : 2 ^ 52 ≤ m')
    (hhi' : m' < 2 ^ 53) (hk : k ≤ 52) (hk' : k' ≤ 52) :
    divCore .binary64 m (-k) m' (-k') = (m * 2 ^ 53 / m', -((53 + k - k' : Nat) : Int),
      accuracyOfFraction (m * 2 ^ 53 % m') m') := by
  have htarget : Format.binary64.targetExponent (totalExponent m (-k) - totalExponent m' (-k')) =
      -((53 + k - k' : Nat) : Int) := by
    simp only [Format.targetExponent, totalExponent, Format.mantissaBits, Format.minExponent,
      log2_normal hlo hhi, log2_normal hlo' hhi']
    omega
  have hmin : min (-k - -k' : Int) (-((53 + k - k' : Nat) : Int)) = -((53 + k - k' : Nat) : Int) := by omega
  have hshift : (-k - -k' - -((53 + k - k' : Nat) : Int) : Int).toNat = 53 := by omega
  rw [divCore, htarget, hmin, hshift, Nat.shiftLeft_eq]

/-- The quotient of the mantissas stays below the next whole number by more than what rounding can add. -/
theorem quotient_bounds {A B k k' J : Nat} (hA : A < 2 ^ 32) (hB : 0 < B) (hlo : 2 ^ 52 ≤ A * 2 ^ k)
    (hhi' : B * 2 ^ k' < 2 ^ 53) (hJ : J + k' = 53 + k) :
    A / B * 2 ^ J ≤ A * 2 ^ k * 2 ^ 53 / (B * 2 ^ k') ∧
      A * 2 ^ k * 2 ^ 53 / (B * 2 ^ k') + 2 < (A / B + 1) * 2 ^ J := by
  have hpow : 2 ^ J * 2 ^ k' = 2 ^ 53 * 2 ^ k := by rw [← Nat.pow_add, hJ, Nat.pow_add]
  have hB' : 0 < B * 2 ^ k' := Nat.mul_pos hB (Nat.two_pow_pos k')
  have hk : 2 ≤ 2 ^ k := by
    by_contra hk
    have : A * 2 ^ k ≤ A * 1 := Nat.mul_le_mul_left A (by omega)
    omega
  have hscale : ∀ c, c * 2 ^ J * (B * 2 ^ k') = c * B * 2 ^ k * 2 ^ 53 := fun c => by
    rw [show c * 2 ^ J * (B * 2 ^ k') = c * B * (2 ^ J * 2 ^ k') by ring, hpow]
    ring
  constructor
  · rw [Nat.le_div_iff_mul_le hB', hscale]
    exact Nat.mul_le_mul_right _ (Nat.mul_le_mul_right _ (Nat.div_mul_le_self A B))
  · have hnext : A + 1 ≤ (A / B + 1) * B := Nat.lt_mul_of_div_lt (Nat.lt_succ_self _) hB
    have hle : (A + 1) * 2 ^ k * 2 ^ 53 ≤ (A / B + 1) * 2 ^ J * (B * 2 ^ k') := by
      rw [hscale]
      exact Nat.mul_le_mul_right _ (Nat.mul_le_mul_right _ hnext)
    have hquotient := Nat.div_mul_le_self (A * 2 ^ k * 2 ^ 53) (B * 2 ^ k')
    have hspace : 2 * (B * 2 ^ k') < 2 ^ k * 2 ^ 53 :=
      Nat.lt_of_lt_of_le (by omega) (Nat.mul_le_mul_right (2 ^ 53) hk)
    refine Nat.lt_of_mul_lt_mul_right (a := B * 2 ^ k') (Nat.lt_of_lt_of_le ?_ hle)
    rw [Nat.add_mul, Nat.add_mul, Nat.add_mul, Nat.one_mul]
    exact Nat.add_lt_add_of_le_of_lt hquotient hspace

/-- Rounding the quotient of the mantissas does not change its whole part. -/
theorem div_normal_parts {s s' : Sign} {A B k k' : Nat} (hA : A < 2 ^ 32) (hk : k ≤ 52) (hk' : k' ≤ 52)
    (hlo : 2 ^ 52 ≤ A * 2 ^ k) (hhi : A * 2 ^ k < 2 ^ 53) (hlo' : 2 ^ 52 ≤ B * 2 ^ k')
    (hhi' : B * 2 ^ k' < 2 ^ 53) (hm : 0 < A * 2 ^ k) (hm' : 0 < B * 2 ^ k') :
    ∃ (R K : Nat) (hR : 0 < R), UnpackedFloat.div .binary64 (.finite s (A * 2 ^ k) (-k) hm)
        (.finite s' (B * 2 ^ k') (-k') hm') = .finite (s / s') R (-K) hR ∧
      2 ^ 52 ≤ R ∧ R < 2 ^ 53 ∧ K ≤ 105 ∧ R / 2 ^ K = A / B := by
  obtain ⟨J, hJ⟩ : ∃ J, J = 53 + k - k' := ⟨_, rfl⟩
  obtain ⟨Q, hQ⟩ : ∃ Q, Q = A * 2 ^ k * 2 ^ 53 / (B * 2 ^ k') := ⟨_, rfl⟩
  have hB : 0 < B := Nat.pos_of_mul_pos_right hm'
  obtain ⟨hbelow, habove⟩ := quotient_bounds hA hB hlo hhi' (show J + k' = 53 + k by omega)
  rw [← hQ] at hbelow habove
  -- the quotient has 53 or 54 bits
  have hQlo : 2 ^ 52 ≤ Q := by
    rw [hQ, Nat.le_div_iff_mul_le hm']
    exact Nat.mul_le_mul hlo (Nat.le_of_lt hhi')
  have hQhi : Q < 2 ^ 54 := by
    rw [hQ, Nat.div_lt_iff_lt_mul hm']
    omega
  have hlog : 52 ≤ Q.log2 := (Nat.le_log2 (by omega)).2 hQlo
  have hlog' : Q.log2 < 54 := (Nat.log2_lt (by omega)).2 hQhi
  obtain ⟨i, hi⟩ : ∃ i, Q.log2 = 52 + i := ⟨Q.log2 - 52, by omega⟩
  have hk20 : 20 ≤ k := by
    by_contra hlt
    have hpow : 2 ^ k ≤ 2 ^ 19 := Nat.pow_le_pow_right (by decide) (by omega)
    have := Nat.mul_le_mul (Nat.le_of_lt hA) hpow
    omega
  obtain ⟨R, δ, hR, hround, hRlo, hRhi, hRfrom, hRto, hδ⟩ := roundWithAccuracy_spec (s / s')
    (e := -J) (accuracyOfFraction (A * 2 ^ k * 2 ^ 53 % (B * 2 ^ k')) (B * 2 ^ k')) hi (by omega)
  refine ⟨R, J - i - δ, hR, ?_, hRlo, hRhi, by omega, ?_⟩
  · rw [UnpackedFloat.div, divCore_eq hlo hhi hlo' hhi' hk hk', ← hQ, ← hJ]
    dsimp only
    rw [hround]
    congr 1
    omega
  · have hsplit : 2 ^ (J - i - δ) * 2 ^ δ * 2 ^ i = 2 ^ J := by
      rw [← Nat.pow_add, ← Nat.pow_add]
      congr 1
      omega
    have hi1 : 2 ^ i ≤ 2 := Nat.pow_le_pow_right (n := 2) (by decide) (show i ≤ 1 by omega)
    have hcut := Nat.div_mul_le_self Q (2 ^ i)
    refine Nat.div_eq_of_lt_le ?_ ?_
    · refine Nat.le_of_mul_le_mul_right (Nat.le_trans ?_ hRfrom) (Nat.two_pow_pos δ)
      rw [Nat.le_div_iff_mul_le (Nat.two_pow_pos i), Nat.mul_assoc, Nat.mul_assoc, ← Nat.mul_assoc (2 ^ _),
        hsplit]
      exact hbelow
    · refine Nat.lt_of_mul_lt_mul_right (a := 2 ^ δ) (Nat.lt_of_le_of_lt hRto ?_)
      refine Nat.lt_of_mul_lt_mul_right (a := 2 ^ i) ?_
      rw [Nat.mul_assoc, Nat.mul_assoc, ← Nat.mul_assoc (2 ^ _), hsplit, Nat.add_mul, Nat.one_mul]
      omega

theorem apply_tdiv (s s' : Sign) (A B : Nat) :
    (s / s').apply (A / B : Nat) = (s.apply A).tdiv (s'.apply B) := by
  rw [Int.natCast_div, ← Int.tdiv_eq_ediv_of_nonneg (Int.natCast_nonneg A)]
  cases s with
  | negative =>
    cases s' with
    | negative => exact (Int.neg_tdiv_neg A B).symm
    | positive => exact (Int.neg_tdiv A B).symm
  | positive =>
    cases s' with
    | negative => exact (Int.tdiv_neg A B).symm
    | positive => rfl

end Stands

/-- **Dividing whole numbers** and dropping the fraction is division towards zero. -/
theorem Whole.div {x y : Float} {a b : Int} (hx : Whole x a) (hy : Whole y b) (ha : a.natAbs < 2 ^ 32)
    (hb : b.natAbs < 2 ^ 32) (hne : b ≠ 0) : Whole (NodeShader.truncated (x / y)) (a.tdiv b) := by
  have hu := hx.stands (by omega)
  have hv := hy.stands (by omega)
  have hdiv : (x / y).toModel.unpack =
      (Float.Model.pack (UnpackedFloat.div .binary64 x.toModel.unpack y.toModel.unpack)).unpack := rfl
  generalize x.toModel.unpack = u at hu hdiv
  generalize y.toModel.unpack = v at hv hdiv
  cases hv with
  | zero s' => exact absurd rfl hne
  | normal hm' hlo' hhi' hk' heq' =>
    cases hu with
    | zero s =>
      rw [Int.zero_tdiv]
      have hzero : (x / y).toModel.unpack = .zero (s / _) := hdiv.trans (unpack_pack_zero _)
      exact Whole.truncated (.of_stands (by rw [hzero]; exact .zero _)) (by decide)
    | normal hm hlo hhi hk heq =>
      obtain ⟨A, -, rfl, rfl⟩ := Stands.exists_natAbs hm heq
      obtain ⟨B, -, rfl, rfl⟩ := Stands.exists_natAbs hm' heq'
      rw [Stands.natAbs_apply] at ha
      obtain ⟨R, K, hR, hparts, hRlo, hRhi, hK, hRK⟩ :=
        Stands.div_normal_parts ha hk hk' hlo hhi hlo' hhi' hm hm'
      rw [hparts, unpack_pack_normal hR hRlo hRhi (by omega) (by omega)] at hdiv
      rw [← Stands.apply_tdiv, ← hRK]
      exact whole_truncated hdiv hRlo hRhi

/-! ### Sums, products and the like -/

theorem Whole.of_pack {x : Float} {u : UnpackedFloat} {n : Int}
    (hx : x.toModel.unpack = (Float.Model.pack u).unpack) (hu : Stands u n) : Whole x n :=
  .of_stands (by rw [hx, hu.unpack_pack]; exact hu)

section Arithmetic

variable {x y : Float} {a b : Int}

theorem Whole.neg (hx : Whole x a) (ha : a.natAbs < 2 ^ 53) : Whole (-x) (-a) :=
  .of_pack rfl (hx.stands ha).neg

theorem Whole.abs (hx : Whole x a) (ha : a.natAbs < 2 ^ 53) : Whole x.abs a.natAbs :=
  .of_pack rfl (hx.stands ha).abs

variable (hx : Whole x a) (hy : Whole y b) (ha : a.natAbs < 2 ^ 53) (hb : b.natAbs < 2 ^ 53)
include hx hy ha hb

theorem Whole.add (hab : (a + b).natAbs < 2 ^ 53) : Whole (x + y) (a + b) :=
  .of_pack rfl ((hx.stands ha).add (hy.stands hb) hab)

theorem Whole.sub (hab : (a - b).natAbs < 2 ^ 53) : Whole (x - y) (a - b) :=
  .of_pack rfl ((hx.stands ha).sub (hy.stands hb) hab)

theorem Whole.mul (hab : (a * b).natAbs < 2 ^ 53) : Whole (x * y) (a * b) :=
  .of_pack rfl ((hx.stands ha).mul (hy.stands hb) hab)

end Arithmetic

/-! ### Comparisons -/

theorem lt_iff_compare (x y : Float) :
    x < y ↔ x.toModel.unpack.compare y.toModel.unpack = some .lt := by
  have hmodel : x < y ↔ x.toModel < y.toModel := decide_eq_true_iff
  exact hmodel.trans beq_iff_eq

theorem le_iff_compare (x y : Float) :
    x ≤ y ↔ (x.toModel.unpack.compare y.toModel.unpack).any Ordering.isLE = true :=
  decide_eq_true_iff (p := x.toModel ≤ y.toModel)

theorem beq_eq_compare (x y : Float) :
    (x == y) = (x.toModel.unpack.compare y.toModel.unpack == some .eq) := rfl

section Comparison

variable {x y : Float} {a b : Int}

theorem Whole.isInfinity (hx : Whole x a) (negative : Bool) : Math.isInfinity negative x = false := by
  refine decide_eq_false fun hinf => ?_
  rw [Whole, hinf] at hx
  cases hx

theorem Whole.isNaN (hx : Whole x a) (ha : a.natAbs < 2 ^ 53) : x.isNaN = false := by
  have hu := hx.stands ha
  show x.toModel.unpack.isNaN = false
  generalize x.toModel.unpack = u at hu
  cases hu with
  | zero => rfl
  | normal => rfl

variable (hx : Whole x a) (hy : Whole y b) (ha : a.natAbs < 2 ^ 53) (hb : b.natAbs < 2 ^ 53)
include hx hy ha hb

theorem Whole.lt_iff : x < y ↔ a < b := by
  rw [lt_iff_compare, (hx.stands ha).compare (hy.stands hb), Option.some_inj, Int.compare_eq_lt]

theorem Whole.le_iff : x ≤ y ↔ a ≤ b := by
  rw [le_iff_compare, (hx.stands ha).compare (hy.stands hb), Option.any_some, Int.isLE_compare]

theorem Whole.beq_eq : (x == y) = decide (a = b) := by
  rw [beq_eq_compare, (hx.stands ha).compare (hy.stands hb), Bool.eq_iff_iff, beq_iff_eq,
    Option.some_inj, Int.compare_eq_eq, decide_eq_true_iff]

omit hy hb in
theorem Whole.eq_zero : (x == 0) = decide (a = 0) :=
  hx.beq_eq (.of_stands (.zero .positive)) ha (by decide)

theorem Whole.minimum : Whole (Math.minimum x y) (min a b) := by
  rw [Math.minimum, hx.isInfinity, hy.isInfinity, hx.isNaN ha, hy.isNaN hb, hx.eq_zero ha, hy.eq_zero hb]
  simp only [Bool.false_eq_true, if_false, Bool.or_self, Bool.and_eq_true, decide_eq_true_eq]
  split
  · rename_i hzero
    obtain ⟨rfl, rfl⟩ := hzero
    split
    · exact hx
    · exact hy
  · split
    · rename_i hlt
      rw [hx.lt_iff hy ha hb] at hlt
      rwa [min_eq_left (Int.le_of_lt hlt)]
    · rename_i hlt
      rw [hx.lt_iff hy ha hb] at hlt
      rwa [min_eq_right (Int.not_lt.1 hlt)]

theorem Whole.maximum : Whole (Math.maximum x y) (max a b) := by
  rw [Math.maximum, hx.isInfinity, hy.isInfinity, hx.isNaN ha, hy.isNaN hb, hx.eq_zero ha, hy.eq_zero hb]
  simp only [Bool.false_eq_true, if_false, Bool.or_self, Bool.and_eq_true, decide_eq_true_eq]
  split
  · rename_i hzero
    obtain ⟨rfl, rfl⟩ := hzero
    split
    · exact hy
    · exact hx
  · split
    · rename_i hlt
      rw [hy.lt_iff hx hb ha] at hlt
      rwa [max_eq_left (Int.le_of_lt hlt)]
    · rename_i hlt
      rw [hy.lt_iff hx hb ha] at hlt
      rwa [max_eq_right (Int.not_lt.1 hlt)]

end Comparison

/-! ### Words -/

/-- **A number that a signed word can hold**, but for its fraction. -/
def InWord (x : Float) : Prop :=
  ∃ r : ℚ, (floatValue x).number? = some r ∧ (-2 ^ 31 : Int) ≤ r ∧ r < (2 ^ 31 : Int)

instance (x : Float) : Decidable (InWord x) :=
  inferInstanceAs (Decidable (∃ r ∈ (floatValue x).number?, (-2 ^ 31 : Int) ≤ r ∧ r < (2 ^ 31 : Int)))

theorem Whole.bounds {x : Float} {n : Int} (hx : Whole x n) (h : InWord x) : -2 ^ 31 ≤ n ∧ n < 2 ^ 31 := by
  obtain ⟨r, hr, hlo, hhi⟩ := h
  obtain rfl := Option.some.inj (hr.symm.trans hx)
  exact ⟨Int.cast_le.1 hlo, Int.cast_lt.1 hhi⟩

/-- What is a number without its fraction is finite. -/
theorem InWord.finite {x : Float} (h : InWord (truncated x)) :
    ∃ negative m e, floatValue x = .finite negative m e := by
  obtain ⟨r, hr, -⟩ := h
  rw [truncated] at hr
  cases hx : floatValue x with
  | finite negative m e => exact ⟨_, _, _, rfl⟩
  | _ =>
    rw [hx] at hr
    dsimp only at hr
    rw [hx] at hr
    cases hr

/-- **Without its fraction** a double stands for its whole part. -/
theorem truncated_isWhole {x : Float} {negative : Bool} {m : Nat} {e : Int}
    (h : floatValue x = .finite negative m e) : Whole (truncated x) (floatValue x).whole := by
  cases hu : x.toModel.unpack with
  | notANumber =>
    rw [floatValue_eq, hu] at h
    cases h
  | infinity s =>
    rw [floatValue_eq, hu] at h
    cases h
  | zero s =>
    have hzero : Stands x.toModel.unpack 0 := hu ▸ .zero s
    have hwhole : (floatValue x).whole = 0 := by
      rw [floatValue_eq, hu]
      cases s <;> rfl
    rw [hwhole]
    exact (Whole.of_stands hzero).truncated (by decide)
  | finite s m e hm =>
    have hvalue : floatValue x = .finite (s == .negative) m e := by rw [floatValue_eq, hu]; rfl
    cases e with
    | ofNat k =>
      have hsame : truncated x = x := by rw [truncated, hvalue]
      have hwhole : (floatValue x).whole = s.apply m * 2 ^ k := by
        rw [hvalue]
        have hshift : ((m <<< k : Nat) : Int) = m * 2 ^ k := by
          rw [Nat.shiftLeft_eq]
          push_cast
          rfl
        cases s with
        | negative =>
          show -((m <<< k : Nat) : Int) = -(m : Int) * 2 ^ k
          rw [hshift, Int.neg_mul]
        | positive => exact hshift
      rw [hsame, hwhole, Whole, number?_finite hu]
      push_cast
      rfl
    | negSucc k =>
      have hwhole : (floatValue x).whole = s.apply (m / 2 ^ (k + 1) : Nat) := by
        rw [hvalue, ← Nat.shiftRight_eq_div_pow]
        cases s <;> rfl
      rw [hwhole]
      obtain ⟨hhi, ⟨hlo, -⟩ | hexp⟩ := unpack_finite (b := x.toModel.toBits.toBitVec) hu
      · exact whole_truncated (k := k + 1) hu hlo hhi
      · have hpow : 2 ^ 53 ≤ 2 ^ (k + 1) := Nat.pow_le_pow_right (by decide) (by omega)
        have hsmall : m / 2 ^ (k + 1) = 0 := Nat.div_eq_of_lt (by omega)
        have hzero : s.apply (0 : Nat) = 0 := by cases s <;> rfl
        rw [hsmall, hzero]
        exact whole_truncated_small hvalue (by rw [Nat.shiftRight_eq_div_pow, hsmall])

/-- What has lost its fraction is whole, if it is a number at all. -/
theorem InWord.whole {x : Float} (h : InWord (truncated x)) : ∃ n, Whole (truncated x) n := by
  obtain ⟨negative, m, e, hx⟩ := h.finite
  exact ⟨_, truncated_isWhole hx⟩

/-- A product that 53 bits cannot hold is too large for a word. -/
theorem Whole.mul_natAbs_lt {x y : Float} {a b : Int} (hx : Whole x a) (hy : Whole y b)
    (ha : a.natAbs < 2 ^ 53) (hb : b.natAbs < 2 ^ 53) (h : InWord (NodeShader.truncated (x * y))) :
    (a * b).natAbs < 2 ^ 53 := by
  by_contra hlarge
  obtain ⟨s, R, E, hR, hparts, hlo, hhi, hE, hE'⟩ := (hx.stands ha).mul_large (hy.stands hb) (by omega)
  have hunpack : (x * y).toModel.unpack = .finite s R E hR := by
    have hmul : (x * y).toModel.unpack =
        (Float.Model.pack (UnpackedFloat.mul .binary64 x.toModel.unpack y.toModel.unpack)).unpack := rfl
    rw [hmul, hparts, unpack_pack_normal hR hlo hhi (by omega) (by omega)]
  have hsame : NodeShader.truncated (x * y) = x * y := by
    rw [NodeShader.truncated, floatValue_eq, hunpack]
    rfl
  have hwhole : Whole (x * y) (s.apply R * 2 ^ E) := by
    rw [Whole, number?_finite hunpack]
    push_cast
    rfl
  rw [hsame] at h
  have hbounds := hwhole.bounds h
  have habs : (s.apply R * 2 ^ E).natAbs = R * 2 ^ E := by
    rw [Int.natAbs_mul, Stands.natAbs_apply, Int.natAbs_pow]
    rfl
  have hle : 2 ^ 52 * 1 ≤ R * 2 ^ E := Nat.mul_le_mul hlo Nat.one_le_two_pow
  omega

/-- The whole part of a whole number. -/
theorem FloatValue.whole_eq {v : FloatValue} {n : Int} (h : v.number? = some (n : ℚ)) : v.whole = n := by
  have hpositive : ∀ {m : Nat} {e n : Int}, (m : ℚ) * 2 ^ e = n →
      FloatValue.whole (.finite false m e) = n := by
    intro m e n hvalue
    cases e with
    | ofNat k =>
      show ((m <<< k : Nat) : Int) = n
      rw [Int.ofNat_eq_natCast, zpow_natCast] at hvalue
      rw [Nat.shiftLeft_eq]
      exact_mod_cast hvalue
    | negSucc k =>
      rw [zpow_negSucc, mul_inv_eq_iff_eq_mul₀ (pow_ne_zero _ two_ne_zero)] at hvalue
      have hm : (m : Int) = n * 2 ^ (k + 1) := by exact_mod_cast hvalue
      show ((m >>> (k + 1) : Nat) : Int) = n
      rw [Nat.shiftRight_eq_div_pow, Int.natCast_div, hm]
      push_cast
      exact Int.mul_ediv_cancel n (Int.pow_pos (by decide)).ne'
  cases v with
  | nan => cases h
  | infinite => cases h
  | finite negative m e =>
    have hvalue := Option.some.inj h
    cases negative with
    | true =>
      have hneg : (m : ℚ) * 2 ^ e = ((-n : Int) : ℚ) := by
        rw [Int.cast_neg, ← hvalue, if_pos rfl, neg_mul, neg_neg]
      show -FloatValue.whole (.finite false m e) = n
      rw [hpositive hneg, Int.neg_neg]
    | false => exact hpositive hvalue

/-- **The word of a double** is that of its whole part. -/
theorem signedWord_eq {x : Float} {n : Int} {negative : Bool} {m : Nat} {e : Int}
    (hx : floatValue x = .finite negative m e) (hn : (floatValue x).whole = n) (hlo : -2 ^ 31 ≤ n)
    (hhi : n < 2 ^ 31) : (signedWord x).toInt32 = Int32.ofInt n := by
  rw [signedWord]
  rw [hx] at hn ⊢
  dsimp only
  rw [hn, if_pos ⟨hlo, hhi⟩]
  refine Int32.toBitVec_inj.1 (BitVec.eq_of_toNat_eq ?_)
  have hto : (Int32.ofInt n).toBitVec.toNat = (n % 2 ^ 32).toNat := BitVec.toNat_ofInt n
  have hfrom : (n % 0x100000000).toNat.toUInt32.toInt32.toBitVec.toNat =
      (n % 0x100000000).toNat % 2 ^ 32 := BitVec.toNat_ofNat _ 32
  rw [hto, hfrom]
  omega

/-- **A double that stands for an integer of 32 bits** is emitted as that integer. -/
theorem Whole.signedWord {x : Float} {n : Int} (hx : Whole x n) (hlo : -2 ^ 31 ≤ n) (hhi : n < 2 ^ 31) :
    (NodeShader.signedWord x).toInt32 = Int32.ofInt n := by
  have hwhole := FloatValue.whole_eq hx
  cases hvalue : floatValue x with
  | finite negative m e => exact signedWord_eq hvalue hwhole hlo hhi
  | _ =>
    rw [Whole, hvalue] at hx
    cases hx

end NodeShader
