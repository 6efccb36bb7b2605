import NodeShader.Math.Expr
import NodeShader.Proofs.Number.Rounding

/-!
# Doubles that stand for whole numbers

The parts of a double that stands for a whole number of up to 53 bits are a mantissa of 53 bits and as
many places to drop as it takes (`Stands`).  Arithmetic on such parts is carried out on the numbers.

* `Whole.stands`: a double stands for a whole number of 53 bits only with such parts.
* `Stands.of_round`: rounding a whole number of 53 bits loses nothing, so that sums and products are
  exact (`Stands.add`, `Stands.mul`); a product that is longer stays long (`Stands.mul_large`).
* `Stands.compare`: parts are compared as the numbers are.
* `whole_truncated`: **without its fraction a double is whole.**
-/

namespace NodeShader

open Float.Model Float.Model.UnpackedFloat

/-- The number that a finite value stands for. -/
def FloatValue.number? : FloatValue → Option ℚ
  | .finite negative mantissa scale =>
    some ((if negative then -(mantissa : ℚ) else mantissa) * 2 ^ scale)
  | _ => none

/-- **A double that stands for a whole number.** -/
def Whole (x : Float) (n : Int) : Prop := (floatValue x).number? = some (n : ℚ)

instance (x : Float) (n : Int) : Decidable (Whole x n) :=
  inferInstanceAs (Decidable ((floatValue x).number? = some (n : ℚ)))

/-- The parts of a whole number that 53 bits can hold. -/
inductive Stands : UnpackedFloat → Int → Prop
  | zero (s : Sign) : Stands (.zero s) 0
  | normal {s : Sign} {m k : Nat} {n : Int} (h : 0 < m) : 2 ^ 52 ≤ m → m < 2 ^ 53 → k ≤ 52 →
      s.apply m = n * 2 ^ k → Stands (.finite s m (-k) h) n

namespace Stands

variable {u v : UnpackedFloat} {a b n : Int}

theorem natAbs_apply (s : Sign) (m : Nat) : (s.apply m).natAbs = m := by
  cases s with
  | negative => exact Int.natAbs_neg m
  | positive => rfl

/-- The mantissa holds the size of the number. -/
theorem mantissa_eq {s : Sign} {m k : Nat} (h : s.apply m = n * 2 ^ k) : m = n.natAbs * 2 ^ k := by
  have := congrArg Int.natAbs h
  rw [natAbs_apply, Int.natAbs_mul, Int.natAbs_pow] at this
  exact this

theorem natAbs_lt (h : Stands u n) : n.natAbs < 2 ^ 53 := by
  cases h with
  | zero => decide
  | normal _ _ hlt _ heq =>
    rw [mantissa_eq heq] at hlt
    exact Nat.lt_of_le_of_lt (Nat.le_mul_of_pos_right _ (Nat.two_pow_pos _)) hlt

theorem unpack_pack (h : Stands u n) : (Float.Model.pack u).unpack = u := by
  cases h with
  | zero s => exact unpack_pack_zero s
  | normal _ hlo hhi hk => exact unpack_pack_normal _ hlo hhi (by omega) (by omega)

end Stands

/-- The number of the parts of a double. -/
theorem number?_finite {x : Float} {s : Sign} {m : Nat} {e : Int} {h : 0 < m}
    (hx : x.toModel.unpack = .finite s m e h) :
    (floatValue x).number? = some ((s.apply m : ℚ) * 2 ^ e) := by
  rw [floatValue_eq, hx, FloatValue.ofUnpacked, FloatValue.number?]
  cases s with
  | negative =>
    show some (-(m : ℚ) * 2 ^ e) = _
    rw [Sign.apply, Int.cast_neg, Int.cast_natCast]
  | positive => rfl

theorem Whole.of_stands {x : Float} {n : Int} (h : Stands x.toModel.unpack n) : Whole x n := by
  rw [Whole]
  generalize hu : x.toModel.unpack = u at h
  cases h with
  | zero s =>
    rw [floatValue_eq, hu]
    cases s <;> simp [FloatValue.ofUnpacked, FloatValue.number?]
  | @normal s m k n hm _ _ _ heq =>
    rw [number?_finite hu, heq]
    push_cast
    rw [mul_assoc, ← zpow_natCast, ← zpow_add₀ (by norm_num)]
    simp

theorem Whole.unique {x : Float} {n n' : Int} (h : Whole x n) (h' : Whole x n') : n = n' := by
  have := Option.some.inj (h.symm.trans h')
  exact_mod_cast this

/-- A whole number that 53 bits can hold has the parts of one. -/
theorem Whole.stands {x : Float} {n : Int} (h : Whole x n) (hn : n.natAbs < 2 ^ 53) :
    Stands x.toModel.unpack n := by
  rw [Whole] at h
  cases hu : x.toModel.unpack with
  | notANumber =>
    rw [floatValue_eq, hu] at h
    cases h
  | infinity s =>
    rw [floatValue_eq, hu] at h
    cases h
  | zero s =>
    have hzero : (floatValue x).number? = some ((0 : Int) : ℚ) :=
      Whole.of_stands (by rw [hu]; exact .zero s)
    obtain rfl := Whole.unique hzero h
    exact .zero s
  | finite s m e hm =>
    rw [number?_finite hu] at h
    have hvalue : (s.apply m : ℚ) * 2 ^ e = n := Option.some.inj h
    obtain ⟨hhi, hshape⟩ := unpack_finite (b := x.toModel.toBits.toBitVec) hu
    have hexp : e ≤ 0 := by
      by_contra hpos
      obtain ⟨j, rfl⟩ : ∃ j : Nat, e = j + 1 := ⟨(e - 1).toNat, by omega⟩
      have heq : s.apply m * 2 ^ (j + 1) = n := by exact_mod_cast hvalue
      have habs : m * 2 ^ (j + 1) = n.natAbs := by
        rw [← heq, Int.natAbs_mul, Stands.natAbs_apply, Int.natAbs_pow]
        rfl
      have hle : 2 ^ 52 * 2 ≤ m * 2 ^ (j + 1) := Nat.mul_le_mul (by omega)
        (Nat.pow_le_pow_right (n := 2) (by decide) (show 1 ≤ j + 1 by omega))
      omega
    obtain ⟨k, rfl⟩ := Int.exists_eq_neg_ofNat hexp
    have heq : s.apply m = n * 2 ^ k := by
      rw [zpow_neg, zpow_natCast, mul_inv_eq_iff_eq_mul₀ (pow_ne_zero _ two_ne_zero)] at hvalue
      exact_mod_cast hvalue
    have hk : k ≤ 52 := by
      have hmantissa := Stands.mantissa_eq heq
      have hone : 1 ≤ n.natAbs := by
        by_contra hzero
        rw [show n.natAbs = 0 by omega, Nat.zero_mul] at hmantissa
        omega
      have hle : 1 * 2 ^ k ≤ n.natAbs * 2 ^ k := Nat.mul_le_mul_right _ hone
      have hlt : 2 ^ k < 2 ^ 53 := by omega
      have := (Nat.pow_lt_pow_iff_right (by decide)).1 hlt
      omega
    exact .normal hm (by omega) hhi hk heq

/-! ### Arithmetic -/

namespace Stands

variable {u v : UnpackedFloat} {a b n : Int}

/-- **Rounding a whole number** that 53 bits can hold. -/
theorem of_round (s : Sign) {N L : Nat} (hN : 0 < N) (hN' : N < 2 ^ 53) (hL : 52 ≤ N.log2 + L) :
    Stands (roundWithAccuracy .binary64 s (N * 2 ^ L) (-L) .exact) (s.apply N) := by
  have hlog : N.log2 < 53 := (Nat.log2_lt (by omega)).2 hN'
  obtain ⟨k, hk⟩ : ∃ k, N.log2 + L = 52 + k := ⟨N.log2 + L - 52, by omega⟩
  have hlog' : (N * 2 ^ L).log2 = 52 + k := by
    rw [log2_mul_two_pow (by omega), hk]
  have hdvd : 2 ^ k ∣ N * 2 ^ L := Dvd.dvd.mul_left (Nat.pow_dvd_pow 2 (by omega)) N
  have hdiv : N * 2 ^ L / 2 ^ k = N * 2 ^ (L - k) := by
    rw [Nat.mul_div_assoc N (Nat.pow_dvd_pow 2 (by omega)), Nat.pow_div (by omega) (by decide)]
  obtain ⟨hpos, h⟩ := roundWithAccuracy_exact s (e := -L) hlog' (by omega) hdvd
  obtain ⟨hlo, hhi⟩ := div_normal hlog'
  have hexp : (-L : Int) + k = -(L - k : Nat) := by omega
  rw [h]
  rw [hexp]
  refine .normal hpos hlo hhi (by omega) ?_
  rw [hdiv]
  cases s with
  | negative => simp [Sign.apply]
  | positive => simp [Sign.apply]

/-- The same, where the mantissa may be too short. -/
theorem of_round_short (s : Sign) {N K : Nat} (hN : 0 < N) (hN' : N < 2 ^ 53) :
    Stands (round .binary64 s (N * 2 ^ K) (-K)) (s.apply N) := by
  have hlog : N.log2 < 53 := (Nat.log2_lt (by omega)).2 hN'
  have htarget : Format.binary64.targetExponent (totalExponent (N * 2 ^ K) (-K)) = N.log2 - 52 := by
    rw [targetExponent_eq _ _ (by rw [log2_mul_two_pow (by omega)]; omega), log2_mul_two_pow (by omega)]
    omega
  have hshift : (-(K : Int) - (N.log2 - 52)).toNat = 52 - N.log2 - K := by omega
  have hmantissa : (N * 2 ^ K) <<< (52 - N.log2 - K) = N * 2 ^ (K + (52 - N.log2 - K)) := by
    rw [Nat.shiftLeft_eq, Nat.mul_assoc, Nat.pow_add]
  have hexponent : -(K : Int) - (52 - N.log2 - K : Nat) = -(K + (52 - N.log2 - K) : Nat) := by omega
  rw [UnpackedFloat.round, htarget, decreaseExponent, hshift]
  dsimp only
  rw [hmantissa, hexponent]
  exact of_round s hN hN' (by omega)

theorem of_normalize {n : Int} (hn : n.natAbs < 2 ^ 53) (K : Nat) (s : Sign) :
    Stands (normalize .binary64 (n * 2 ^ K) (-K) s) n := by
  have hpow : (0 : Int) < 2 ^ K := Int.pow_pos (by decide)
  have hcast : ∀ N : Nat, ((N : Int) * 2 ^ K).toNat = N * 2 ^ K := fun N => by
    exact_mod_cast Int.toNat_natCast (N * 2 ^ K)
  rw [UnpackedFloat.normalize]
  rcases Int.lt_trichotomy n 0 with h | rfl | h
  · obtain ⟨N, rfl⟩ : ∃ N : Nat, n = -N := ⟨n.natAbs, by omega⟩
    rw [Int.compare_eq_lt.2 (Int.mul_neg_of_neg_of_pos h hpow)]
    dsimp only
    rw [Int.neg_mul, Int.neg_neg, hcast]
    exact of_round_short .negative (by omega) (by omega)
  · rw [Int.zero_mul]
    exact .zero s
  · obtain ⟨N, rfl⟩ : ∃ N : Nat, n = N := ⟨n.natAbs, by omega⟩
    rw [Int.compare_eq_gt.2 (Int.mul_pos h hpow)]
    dsimp only
    rw [hcast]
    exact of_round_short .positive (by omega) (by omega)

theorem add (hu : Stands u a) (hv : Stands v b) (hab : (a + b).natAbs < 2 ^ 53) :
    Stands (UnpackedFloat.add .binary64 u v) (a + b) := by
  cases hu with
  | zero s =>
    rw [Int.zero_add]
    cases hv with
    | zero s' =>
      rw [UnpackedFloat.add]
      split <;> exact .zero _
    | normal hm hlo hhi hk heq => exact .normal hm hlo hhi hk heq
  | @normal s m k a hm hlo hhi hk heq =>
    cases hv with
    | zero s' =>
      rw [Int.add_zero]
      exact .normal hm hlo hhi hk heq
    | @normal s' m' k' b hm' _ _ _ heq' =>
      obtain ⟨K, hK, hKk, hKk'⟩ : ∃ K : Nat, min (-k : Int) (-k') = -K ∧ k ≤ K ∧ k' ≤ K :=
        ⟨max k k', by omega, by omega, by omega⟩
      have hshift : ∀ {t : Sign} {j l : Nat} {c : Int}, t.apply j = c * 2 ^ l → l ≤ K →
          t.apply (decreaseExponent j (-l) (-K)).1 = c * 2 ^ K := by
        intro t j l c h hl
        have hto : (-(l : Int) - -K).toNat = K - l := by omega
        have happly : t.apply (j <<< (K - l) : Nat) = t.apply j * 2 ^ (K - l) := by
          rw [Nat.shiftLeft_eq]
          cases t <;> simp [Sign.apply]
        rw [decreaseExponent, hto]
        dsimp only
        rw [happly, h, Int.mul_assoc, ← Int.pow_add, Nat.add_sub_cancel' hl]
      rw [UnpackedFloat.add, hK]
      dsimp only
      rw [hshift heq hKk, hshift heq' hKk', ← Int.add_mul]
      exact of_normalize hab K _

theorem apply_neg (s : Sign) (n : Int) : (-s).apply n = -s.apply n := by
  cases s with
  | negative => exact (Int.neg_neg n).symm
  | positive => rfl

theorem neg (hu : Stands u a) : Stands u.neg (-a) := by
  cases hu with
  | zero s => exact .zero (-s)
  | normal hm hlo hhi hk heq =>
    exact .normal hm hlo hhi hk (by rw [apply_neg, heq, Int.neg_mul])

theorem abs (hu : Stands u a) : Stands u.abs a.natAbs := by
  cases hu with
  | zero s => exact .zero .positive
  | normal hm hlo hhi hk heq =>
    refine .normal hm hlo hhi hk ?_
    rw [Sign.apply]
    exact_mod_cast mantissa_eq heq

theorem sub (hu : Stands u a) (hv : Stands v b) (hab : (a - b).natAbs < 2 ^ 53) :
    Stands (UnpackedFloat.sub .binary64 u v) (a - b) := by
  have hneg : UnpackedFloat.sub .binary64 u v = UnpackedFloat.add .binary64 u v.neg := by
    cases hu with
    | zero s =>
      cases hv with
      | zero s' => rfl
      | normal => rfl
    | normal =>
      cases hv with
      | zero s' => rfl
      | normal =>
        rw [UnpackedFloat.sub, UnpackedFloat.neg, UnpackedFloat.add]
        simp only [apply_neg]
        rfl
  rw [hneg, Int.sub_eq_add_neg]
  exact hu.add hv.neg (by rwa [← Int.sub_eq_add_neg])

/-- The sign is that of the number. -/
theorem apply_natAbs {s : Sign} {m k : Nat} {n : Int} (h : s.apply m = n * 2 ^ k) :
    s.apply n.natAbs = n := by
  have hpow : (0 : Int) < 2 ^ k := Int.pow_pos (by decide)
  cases s with
  | negative =>
    have hle : n ≤ 0 := by
      by_contra hn
      have := Int.mul_pos (show 0 < n by omega) hpow
      rw [Sign.apply] at h
      omega
    rw [Sign.apply]
    omega
  | positive =>
    have hle : 0 ≤ n := by
      by_contra hn
      have := Int.mul_neg_of_neg_of_pos (show n < 0 by omega) hpow
      rw [Sign.apply] at h
      omega
    rw [Sign.apply]
    omega

theorem apply_mul (s s' : Sign) (m n : Int) : (s * s').apply (m * n) = s.apply m * s'.apply n := by
  cases s with
  | negative =>
    cases s' with
    | negative => exact (Int.neg_mul_neg m n).symm
    | positive => exact (Int.neg_mul m n).symm
  | positive =>
    cases s' with
    | negative => exact (Int.mul_neg m n).symm
    | positive => rfl

/-- **A product** that 53 bits can hold. -/
theorem mul (hu : Stands u a) (hv : Stands v b) (hab : (a * b).natAbs < 2 ^ 53) :
    Stands (UnpackedFloat.mul .binary64 u v) (a * b) := by
  cases hu with
  | zero s =>
    rw [Int.zero_mul]
    cases hv with
    | zero s' => exact .zero _
    | normal => exact .zero _
  | @normal s m k a hm hlo _ _ heq =>
    cases hv with
    | zero s' =>
      rw [Int.mul_zero]
      exact .zero _
    | @normal s' m' k' b hm' hlo' _ _ heq' =>
      have hmul : m * m' = (a * b).natAbs * 2 ^ (k + k') := by
        rw [mantissa_eq heq, mantissa_eq heq', Int.natAbs_mul, Nat.pow_add]
        ring
      have hpos : 0 < (a * b).natAbs := Nat.pos_of_mul_pos_right (hmul ▸ Nat.mul_pos hm hm')
      have hlog : 52 ≤ (m * m').log2 := (Nat.le_log2 (Nat.mul_pos hm hm').ne').2
        (Nat.le_trans hlo (Nat.le_mul_of_pos_right m hm'))
      have hsign : (s * s').apply (a * b).natAbs = a * b := by
        rw [Int.natAbs_mul, Int.natCast_mul, apply_mul, apply_natAbs heq, apply_natAbs heq']
      rw [hmul, log2_mul_two_pow hpos.ne'] at hlog
      have hround := of_round (s * s') hpos hab hlog
      rw [hsign] at hround
      rw [UnpackedFloat.mul, hmul, ← Int.neg_add, ← Int.natCast_add]
      exact hround

/-- **A product** that is too large for 53 bits. -/
theorem mul_large (hu : Stands u a) (hv : Stands v b) (hab : 2 ^ 53 ≤ (a * b).natAbs) :
    ∃ (s : Sign) (R E : Nat) (hR : 0 < R), UnpackedFloat.mul .binary64 u v = .finite s R E hR ∧
      2 ^ 52 ≤ R ∧ R < 2 ^ 53 ∧ 1 ≤ E ∧ E ≤ 55 := by
  cases hu with
  | zero s =>
    rw [Int.zero_mul] at hab
    cases hab
  | @normal s m k a hm hlo hhi _ heq =>
    cases hv with
    | zero s' =>
      rw [Int.mul_zero] at hab
      cases hab
    | @normal s' m' k' b hm' _ hhi' _ heq' =>
      have hmul : m * m' = (a * b).natAbs * 2 ^ (k + k') := by
        rw [mantissa_eq heq, mantissa_eq heq', Int.natAbs_mul, Nat.pow_add]
        ring
      have hlog : 53 ≤ (a * b).natAbs.log2 := (Nat.le_log2 (by omega)).2 hab
      have hlt : m * m' < 2 ^ 106 := (Nat.mul_lt_mul'' hhi hhi').trans_eq (by rw [← Nat.pow_add])
      have hlog' : (m * m').log2 < 106 := (Nat.log2_lt (Nat.mul_pos hm hm').ne').2 hlt
      rw [hmul, log2_mul_two_pow (by omega)] at hlog'
      obtain ⟨i, hi⟩ : ∃ i, (m * m').log2 = 52 + i := ⟨(m * m').log2 - 52, by
        rw [hmul, log2_mul_two_pow (by omega)]
        omega⟩
      obtain ⟨R, δ, hR, hround, hRlo, hRhi, -, -, hδ⟩ :=
        roundWithAccuracy_spec (s * s') (e := -k + -k') .exact hi (by omega)
      rw [hmul, log2_mul_two_pow (by omega)] at hi
      refine ⟨s * s', R, (a * b).natAbs.log2 - 52 + δ, hR, ?_, hRlo, hRhi, by omega, ?_⟩
      · rw [UnpackedFloat.mul, hround]
        congr 1
        omega
      · omega

/-- Mantissas of one length are ordered by their exponents first. -/
theorem compare_parts {A B k k' : Nat} (hA : 2 ^ 52 ≤ A * 2 ^ k) (hA' : A * 2 ^ k < 2 ^ 53)
    (hB : 2 ^ 52 ≤ B * 2 ^ k') (hB' : B * 2 ^ k' < 2 ^ 53) :
    (compare (-k : Int) (-k')).then (compare (A * 2 ^ k) (B * 2 ^ k')) = compare A B := by
  have hless : ∀ {A B k k' : Nat}, A * 2 ^ k < 2 ^ 53 → 2 ^ 52 ≤ B * 2 ^ k' → k' < k → A < B := by
    intro A B k k' hA hB hk
    have hle : A * 2 ^ (k' + 1) ≤ A * 2 ^ k :=
      Nat.mul_le_mul_left A (Nat.pow_le_pow_right (by decide) hk)
    rw [Nat.pow_succ, ← Nat.mul_assoc] at hle
    exact Nat.lt_of_mul_lt_mul_right (show A * 2 ^ k' < B * 2 ^ k' by omega)
  rcases Nat.lt_trichotomy k k' with hk | rfl | hk
  · rw [Int.compare_eq_gt.2 (by omega), Nat.compare_eq_gt.2 (hless hB' hA hk)]
    rfl
  · rw [Int.compare_eq_eq.2 rfl]
    show compare (A * 2 ^ k) (B * 2 ^ k) = compare A B
    rcases Nat.lt_trichotomy A B with h | rfl | h
    · rw [Nat.compare_eq_lt.2 h, Nat.compare_eq_lt.2 (Nat.mul_lt_mul_of_pos_right h (Nat.two_pow_pos k))]
    · rw [Nat.compare_eq_eq.2 rfl, Nat.compare_eq_eq.2 rfl]
    · rw [Nat.compare_eq_gt.2 h, Nat.compare_eq_gt.2 (Nat.mul_lt_mul_of_pos_right h (Nat.two_pow_pos k))]
  · rw [Int.compare_eq_lt.2 (by omega), Nat.compare_eq_lt.2 (hless hA' hB hk)]
    rfl

theorem compare_natCast (A B : Nat) : Ord.compare (A : Int) B = Ord.compare A B := by
  rcases Nat.lt_trichotomy A B with h | rfl | h
  · rw [Nat.compare_eq_lt.2 h, Int.compare_eq_lt.2 (by omega)]
  · rw [Nat.compare_eq_eq.2 rfl, Int.compare_eq_eq.2 rfl]
  · rw [Nat.compare_eq_gt.2 h, Int.compare_eq_gt.2 (by omega)]

theorem compare_neg_natCast (A B : Nat) :
    Ord.compare (-A : Int) (-B) = (Ord.compare A B).swap := by
  rcases Nat.lt_trichotomy A B with h | rfl | h
  · rw [Nat.compare_eq_lt.2 h, Int.compare_eq_gt.2 (by omega)]
    rfl
  · rw [Nat.compare_eq_eq.2 rfl, Int.compare_eq_eq.2 rfl]
    rfl
  · rw [Nat.compare_eq_gt.2 h, Int.compare_eq_lt.2 (by omega)]
    rfl

/-- A number with a mantissa is its size with its sign. -/
theorem exists_natAbs {s : Sign} {m k : Nat} {n : Int} (hm : 0 < m) (h : s.apply m = n * 2 ^ k) :
    ∃ N : Nat, 0 < N ∧ n = s.apply N ∧ m = N * 2 ^ k := by
  refine ⟨n.natAbs, ?_, (apply_natAbs h).symm, mantissa_eq h⟩
  by_contra hzero
  rw [mantissa_eq h, show n.natAbs = 0 by omega, Nat.zero_mul] at hm
  exact Nat.lt_irrefl 0 hm

/-- **Whole numbers are compared** as they stand. -/
theorem compare (hu : Stands u a) (hv : Stands v b) : u.compare v = some (Ord.compare a b) := by
  cases hu with
  | zero s =>
    cases hv with
    | zero s' => rfl
    | @normal s' m' k' b hm' _ _ _ heq' =>
      obtain ⟨B, hB, rfl, -⟩ := exists_natAbs hm' heq'
      cases s' with
      | negative => exact congrArg some (Int.compare_eq_gt.2 (show -(B : Int) < 0 by omega)).symm
      | positive => exact congrArg some (Int.compare_eq_lt.2 (show 0 < (B : Int) by omega)).symm
  | @normal s m k a hm hlo hhi _ heq =>
    obtain ⟨A, hA, rfl, rfl⟩ := exists_natAbs hm heq
    cases hv with
    | zero s' =>
      cases s with
      | negative => exact congrArg some (Int.compare_eq_lt.2 (show -(A : Int) < 0 by omega)).symm
      | positive => exact congrArg some (Int.compare_eq_gt.2 (show 0 < (A : Int) by omega)).symm
    | @normal s' m' k' b hm' hlo' hhi' _ heq' =>
      obtain ⟨B, hB, rfl, rfl⟩ := exists_natAbs hm' heq'
      have hparts := compare_parts hlo hhi hlo' hhi'
      cases s with
      | negative =>
        cases s' with
        | negative => exact congrArg some ((congrArg Ordering.swap hparts).trans (compare_neg_natCast A B).symm)
        | positive => exact congrArg some (Int.compare_eq_lt.2 (show -(A : Int) < B by omega)).symm
      | positive =>
        cases s' with
        | negative => exact congrArg some (Int.compare_eq_gt.2 (show -(B : Int) < A by omega)).symm
        | positive => exact congrArg some (hparts.trans (compare_natCast A B).symm)

end Stands

/-! ### Dropping the fraction -/

/-- The number of a value with an exponent that is not positive. -/
theorem Whole.of_value {x : Float} {s : Sign} {m k q : Nat}
    (h : floatValue x = .finite (s == .negative) m (-k)) (hm : m = q * 2 ^ k) : Whole x (s.apply q) := by
  have hpow : (m : ℚ) * 2 ^ (-k : Int) = q := by
    rw [hm, Nat.cast_mul, Nat.cast_pow, zpow_neg, zpow_natCast]
    exact mul_inv_cancel_right₀ (pow_ne_zero k two_ne_zero) (q : ℚ)
  rw [Whole, h, FloatValue.number?]
  cases s with
  | negative =>
    show some (-(m : ℚ) * 2 ^ (-k : Int)) = _
    rw [neg_mul, hpow, Sign.apply, Int.cast_neg, Int.cast_natCast]
  | positive =>
    show some ((m : ℚ) * 2 ^ (-k : Int)) = _
    rw [hpow, Sign.apply, Int.cast_natCast]

/-- What is less than one has no whole part. -/
theorem whole_truncated_small {x : Float} {s : Sign} {m n : Nat}
    (h : floatValue x = .finite (s == .negative) m (.negSucc n)) (hm : m >>> (n + 1) = 0) :
    Whole (truncated x) 0 := by
  have hdef : truncated x =
      floatOfPattern (if s == .negative then FloatFormat.binary64.signBit else 0) := by
    rw [truncated, h]
    exact if_pos hm
  refine Whole.of_stands ?_
  rw [hdef]
  cases s with
  | negative => exact .zero .negative
  | positive => exact .zero .positive

/-- **Clearing the fraction** leaves the whole part. -/
theorem whole_truncated {x : Float} {s : Sign} {m k : Nat} {h : 0 < m}
    (hx : x.toModel.unpack = .finite s m (-k) h) (hlo : 2 ^ 52 ≤ m) (hhi : m < 2 ^ 53) :
    Whole (truncated x) (s.apply (m / 2 ^ k : Nat)) := by
  have hvalue : floatValue x = .finite (s == .negative) m (-k) := by
    rw [floatValue_eq, hx]
    rfl
  cases k with
  | zero =>
    have hsame : truncated x = x := by
      rw [truncated, hvalue]
      rfl
    rw [hsame]
    exact .of_value hvalue (by rw [Nat.pow_zero, Nat.div_one, Nat.mul_one])
  | succ j =>
    by_cases hsmall : m >>> (j + 1) = 0
    · rw [← Nat.shiftRight_eq_div_pow, hsmall]
      have hzero : s.apply (0 : Nat) = 0 := by cases s <;> rfl
      rw [hzero]
      exact whole_truncated_small hvalue hsmall
    · have hdef : truncated x = floatOfPattern (x.toBits.toNat - m % 2 ^ (j + 1)) := by
        rw [truncated, hvalue]
        exact if_neg hsmall
      rw [hdef]
      have hk : j + 1 ≤ 52 := by
        by_contra hk
        have hle : 2 ^ 53 ≤ 2 ^ (j + 1) := Nat.pow_le_pow_right (by decide) (by omega)
        exact hsmall (by rw [Nat.shiftRight_eq_div_pow]; exact Nat.div_eq_of_lt (by omega))
      -- the bits that go are bits of the fraction of the pattern
      have hdvd : 2 ^ (j + 1) ∣ 2 ^ 52 := Nat.pow_dvd_pow 2 hk
      obtain ⟨hm, -⟩ := decode_sub (b := x.toBits.toNat) (r := 0) hvalue hlo (Nat.zero_le _)
      have hfraction : m % 2 ^ (j + 1) ≤ x.toBits.toNat % 2 ^ 52 := by
        rw [hm, Nat.add_mod, Nat.mod_eq_zero_of_dvd hdvd, Nat.zero_add, Nat.mod_mod]
        exact Nat.mod_le _ _
      obtain ⟨-, hdecode⟩ := decode_sub (b := x.toBits.toNat) hvalue hlo hfraction
      refine .of_value (floatValue_floatOfPattern ?_ hdecode ?_) ?_
      · exact Nat.lt_of_le_of_lt (Nat.sub_le _ _) x.toBits.toNat_lt
      · omega
      · have := Nat.div_add_mod' m (2 ^ (j + 1))
        omega

/-- Whole numbers have no fraction. -/
theorem Whole.truncated {x : Float} {n : Int} (h : Whole x n) (hn : n.natAbs < 2 ^ 53) :
    Whole (truncated x) n := by
  have hs := h.stands hn
  generalize hx : x.toModel.unpack = u at hs
  cases hs with
  | zero s =>
    have hvalue : floatValue x = .finite (s == .negative) 0 (-1074) := by
      rw [floatValue_eq, hx]
      rfl
    exact whole_truncated_small hvalue (Nat.zero_shiftRight _)
  | normal hm hlo hhi hk heq =>
    have htrunc := whole_truncated hx hlo hhi
    rwa [Stands.mantissa_eq heq, Nat.mul_div_cancel _ (Nat.two_pow_pos _), Stands.apply_natAbs heq] at htrunc

end NodeShader
