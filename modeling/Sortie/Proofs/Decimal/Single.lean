import Mathlib

/-!
# Numbers in single precision

A positive number in single precision is a significand of at most 24 bits, times a power
of two. Two of them are compared by their powers first, and the power in a reciprocal
is known from the leading digits of the significand, but for the last rounding.
-/

namespace Sortie.Single

open Float.Model Float.Model.UnpackedFloat

/-- The number is `m * 2 ^ e`, and is kept so. -/
def Holds (x : Float32) (m : Nat) (e : Int) : Prop :=
  ∃ h, x.toModel.unpack = .finite .positive m e h

def Full (m : Nat) : Prop := 2 ^ 23 ≤ m ∧ m < 2 ^ 24

/-- The number is `m * 2 ^ e`, or infinite where that is more than can be kept. -/
def Rounds (x : Float32) (m : Nat) (e : Int) : Prop :=
  e ≤ 104 ∧ Holds x m e ∨ 105 ≤ e ∧ x.toModel.unpack = .infinity .positive

variable {x y r : Float32} {m m' n q : Nat} {e e' t : Int} {em : ExtendedMantissa} {acc : Accuracy}

theorem full_two_pow : Full (2 ^ 23) := ⟨Nat.le_refl _, by decide⟩

theorem Full.pos (h : Full m) : 0 < m := Nat.zero_lt_of_lt h.1

theorem Full.log2_eq (h : Full m) : m.log2 = 23 := (Nat.log2_eq_iff h.pos.ne').mpr h

/-! ## The format -/

theorem bias_eq : (Format.binary32.exponentBias : Int) = 127 := rfl

theorem mantissaBits_eq : Format.binary32.mantissaBits = 24 := rfl

theorem minExponent_eq : Format.binary32.minExponent = -149 := rfl

/-- The leading bit of a significand is not stored. -/
theorem toNat_one_append (v : BitVec 23) : (1#1 ++ v).toNat = 2 ^ 23 + v.toNat := by
  rw [BitVec.toNat_append, ← Nat.shiftLeft_add_eq_or_of_lt v.isLt]
  rfl

theorem Holds.bounds (h : Holds x m e) :
    -149 ≤ e ∧ e ≤ 104 ∧ m < 2 ^ 24 ∧ (2 ^ 23 ≤ m ∨ e = -149) := by
  obtain ⟨hPos, h⟩ := h
  revert h
  unfold Float32.Model.unpack
  fun_cases UnpackedFloat.unpack with
  | case1 | case2 | case3 => exact nofun
  | case4 mantissa exponent e' _ _ _ hExponent =>
    rw [finite.injEq]
    rintro ⟨-, rfl, rfl⟩
    have hZero : exponent.toNat = 0 := congrArg BitVec.toNat hExponent
    have hMantissa : mantissa.toNat < 2 ^ 23 := mantissa.isLt
    have hValue : e' = -150 := by
      simp only [e', bias_eq, hZero]
      rfl
    omega
  | case5 mantissa exponent e' _ _ hOnes hZero =>
    rw [finite.injEq]
    rintro ⟨-, rfl, rfl⟩
    have hMantissa : mantissa.toNat < 2 ^ 23 := mantissa.isLt
    have hExponent : exponent.toNat < 256 := exponent.isLt
    have hHigh : exponent.toNat ≠ 255 := mt (BitVec.eq_of_toNat_eq (y := -1#8)) hOnes
    have hLow : exponent.toNat ≠ 0 := mt (BitVec.eq_of_toNat_eq (y := 0#8)) hZero
    have hValue : e' = exponent.toNat - 150 := by
      simp only [e', bias_eq]
      rfl
    rw [toNat_one_append]
    omega

theorem Holds.log2_le (h : Holds x m e) : m.log2 ≤ 23 :=
  Nat.le_of_lt_succ ((Nat.log2_lt h.choose.ne').mpr h.bounds.2.2.1)

theorem pack_full {h : 0 < m} (hFull : Full m) (hHigh : e ≤ 104) :
    UnpackedFloat.pack .binary32 (.finite .positive m e h) =
      packComponents .binary32 .positive (.ofNat 8 (e + 127 + 23).toNat) (.ofNat 23 m) := by
  unfold UnpackedFloat.pack
  simp only [bias_eq, mantissaBits_eq, hFull.log2_eq]
  exact (if_neg (by omega)).trans (if_pos trivial)

theorem pack_large {h : 0 < m} (hLarge : 105 ≤ e) :
    UnpackedFloat.pack .binary32 (.finite .positive m e h) = packedInfinity .binary32 .positive := by
  unfold UnpackedFloat.pack
  simp only [bias_eq]
  exact if_pos (by omega)

theorem unpack_pack_full {h : 0 < m} (hFull : Full m) (hLow : -149 ≤ e) (hHigh : e ≤ 104) :
    (Float32.Model.pack (.finite .positive m e h)).unpack = .finite .positive m e h := by
  have hExponent : (BitVec.ofNat 8 (e + 127 + 23).toNat).toNat = (e + 127 + 23).toNat := by
    rw [BitVec.toNat_ofNat, Nat.mod_eq_of_lt (by omega)]
  have hMantissa : (1#1 ++ BitVec.ofNat 23 m).toNat = m := by
    obtain ⟨hMin, hMax⟩ := hFull
    rw [toNat_one_append, BitVec.toNat_ofNat]
    omega
  unfold Float32.Model.unpack Float32.Model.pack
  simp only [pack_full hFull hHigh, UnpackedFloat.unpack, unpackExponent_packComponents,
    unpackMantissa_packComponents, unpackSign_packComponents, bias_eq, Sign.ofBitVec_toBitVec]
  rw [if_neg, if_neg]
  · rw [finite.injEq, hMantissa, hExponent]
    exact ⟨rfl, rfl, by omega⟩
  · rw [← BitVec.toNat_inj, hExponent]
    change ¬ _ = 0
    omega
  · rw [← BitVec.toNat_inj, hExponent]
    change ¬ _ = 255
    omega

theorem rounds_pack {h : 0 < m} (hx : x.toModel = .pack (.finite .positive m e h)) (hFull : Full m)
    (hLow : -149 ≤ e) : Rounds x m e := by
  rw [Rounds, Holds, hx]
  rcases le_or_gt e 104 with hHigh | hLarge
  · exact .inl ⟨hHigh, h, unpack_pack_full hFull hLow hHigh⟩
  · refine .inr ⟨hLarge, ?_⟩
    unfold Float32.Model.unpack Float32.Model.pack
    simp only [pack_large hLarge]
    rfl

/-! ## Comparison -/

theorem lt_iff : x < y ↔ x.toModel.unpack.compare y.toModel.unpack = some .lt := by
  change Float32.lt x y = true ↔ _
  simp only [Float32.lt, decide_eq_true_eq]
  change Float32.Model.lt _ _ = true ↔ _
  simp [Float32.Model.lt, UnpackedFloat.lt]

theorem le_iff : x ≤ y ↔ (x.toModel.unpack.compare y.toModel.unpack).any (·.isLE) = true := by
  change Float32.le x y = true ↔ _
  simp only [Float32.le, decide_eq_true_eq]
  rfl

theorem isNaN_eq_false_of_lt (h : x < y) : y.isNaN = false := by
  rw [lt_iff] at h
  change y.toModel.unpack.isNaN = false
  cases hy : y.toModel.unpack with
  | notANumber =>
    rw [hy] at h
    cases hx : x.toModel.unpack <;> rw [hx] at h <;> cases h
  | infinity | zero | finite => rfl

theorem unpack_zero : (0 : Float32).toModel.unpack = .zero .positive := by rfl

theorem Holds.lt_iff (hx : Holds x m e) (hy : Holds y m' e') :
    x < y ↔ e < e' ∨ e = e' ∧ m < m' := by
  obtain ⟨_, hx⟩ := hx
  obtain ⟨_, hy⟩ := hy
  rw [Single.lt_iff, hx, hy, UnpackedFloat.compare, Option.some.injEq, Ordering.then_eq_lt,
    Int.compare_eq_lt, Int.compare_eq_eq, Nat.compare_eq_lt]

theorem Rounds.lt_iff (hx : Rounds x m e) (hy : Holds y m' e') :
    x < y ↔ e < e' ∨ e = e' ∧ m < m' := by
  rcases hx with ⟨-, hx⟩ | ⟨hLarge, hx⟩
  · exact hx.lt_iff hy
  · have hHigh := hy.bounds.2.1
    obtain ⟨_, hy⟩ := hy
    rw [Single.lt_iff, hx, hy]
    exact iff_of_false nofun (by omega)

theorem Rounds.isFinite_iff (hx : Rounds x m e) : x.isFinite ↔ e ≤ 104 := by
  change x.toModel.unpack.isFinite = true ↔ _
  rcases hx with ⟨hHigh, _, hx⟩ | ⟨hLarge, hx⟩ <;> rw [hx]
  · exact iff_of_true rfl hHigh
  · exact iff_of_false nofun (by omega)

theorem Rounds.pos (hx : Rounds x m e) : 0 < x := by
  rw [Single.lt_iff, unpack_zero]
  rcases hx with ⟨-, _, hx⟩ | ⟨-, hx⟩ <;> rw [hx] <;> rfl

/-- What lies between zero and a number is a number of no greater power. -/
theorem exists_holds (hPos : 0 < x) (hLe : x ≤ y) (hy : Holds y m' e') :
    ∃ m e, Holds x m e ∧ e ≤ e' := by
  obtain ⟨_, hy⟩ := hy
  rw [Single.lt_iff, unpack_zero] at hPos
  rw [le_iff, hy] at hLe
  cases hx : x.toModel.unpack with
  | infinity s =>
    rw [hx] at hPos hLe
    cases s with
    | negative => cases hPos
    | positive => cases hLe
  | notANumber | zero =>
    rw [hx] at hPos
    cases hPos
  | finite s m e h =>
    rw [hx] at hPos hLe
    cases s with
    | negative => cases hPos
    | positive =>
      refine ⟨m, e, ⟨h, hx⟩, ?_⟩
      by_contra hGreater
      rw [UnpackedFloat.compare, Int.compare_eq_gt.mpr (by omega)] at hLe
      cases hLe

/-! ## Rounding -/

theorem shift_eq (hq : q.log2 = 23 + n) (ht : -149 ≤ t) :
    shiftToTargetExponent .binary32 q t acc =
      (ExtendedMantissa.ofMantissaAndAccuracy q acc >>> n, t + n) := by
  have hTarget : Format.binary32.targetExponent (totalExponent q t) = t + n := by
    simp only [Format.targetExponent, totalExponent, mantissaBits_eq, minExponent_eq, hq]
    omega
  simp only [shiftToTargetExponent, shiftToExponent, hTarget, add_sub_cancel_left, Int.toNat_natCast]

theorem shift_full (hq : Full q) (ht : -149 ≤ t) :
    shiftToTargetExponent .binary32 q t acc = (.ofMantissaAndAccuracy q acc, t) := by
  rw [shift_eq (n := 0) hq.log2_eq ht, Int.natCast_zero, Int.add_zero]
  rfl

theorem shift_two_pow (ht : -149 ≤ t) : shiftToTargetExponent .binary32 (2 ^ 24) t acc =
    ((ExtendedMantissa.ofMantissaAndAccuracy (2 ^ 24) acc).shiftRightOne, t + 1) :=
  shift_eq (n := 1) Nat.log2_two_pow ht

theorem round_of_shift (hShift : shiftToTargetExponent .binary32 q t acc = (em, e))
    (hFull : Full em.roundedMantissa) (he : -149 ≤ e) : roundWithAccuracy .binary32 .positive q t acc =
      .finite .positive em.roundedMantissa e hFull.pos := by
  simp only [roundWithAccuracy, hShift, shift_full hFull he]
  exact dif_neg hFull.pos.ne'

theorem round_of_carry (hShift : shiftToTargetExponent .binary32 q t acc = (em, e))
    (hCarry : em.roundedMantissa = 2 ^ 24) (he : -149 ≤ e) :
    roundWithAccuracy .binary32 .positive q t acc = .finite .positive (2 ^ 23) (e + 1) full_two_pow.pos := by
  simp only [roundWithAccuracy, hShift, hCarry, shift_two_pow he]
  rfl

theorem roundedMantissa_cases (q : Nat) (acc : Accuracy) :
    (ExtendedMantissa.ofMantissaAndAccuracy q acc).roundedMantissa = q ∨
      (ExtendedMantissa.ofMantissaAndAccuracy q acc).roundedMantissa = q + 1 := by
  cases acc with
  | exact => exact .inl rfl
  | inexact o =>
    cases o with
    | lt => exact .inl rfl
    | eq =>
      change q + q % 2 = q ∨ q + q % 2 = q + 1
      omega
    | gt => exact .inr rfl

theorem full_roundedMantissa_half (acc : Accuracy) :
    Full (ExtendedMantissa.ofMantissaAndAccuracy (2 ^ 24) acc).shiftRightOne.roundedMantissa := by
  cases acc with
  | exact => exact full_two_pow
  | inexact o => cases o <;> exact full_two_pow

/-- The power is raised at most by one, and only where the digits overflow. -/
theorem exists_round (hq : Full q ∨ q = 2 ^ 24) (ht : -149 ≤ t) (acc : Accuracy) :
    ∃ m e h, roundWithAccuracy .binary32 .positive q t acc = .finite .positive m e h ∧ Full m ∧
      (e = t ∧ q < 2 ^ 24 ∨ e = t + 1 ∧ 2 ^ 24 ≤ q + 1) := by
  rcases hq with hFull | rfl
  · have hShift : shiftToTargetExponent .binary32 q t acc = (.ofMantissaAndAccuracy q acc, t) :=
      shift_full hFull ht
    have hRounded := roundedMantissa_cases q acc
    obtain ⟨hMin, hMax⟩ := hFull
    rcases lt_or_ge (ExtendedMantissa.ofMantissaAndAccuracy q acc).roundedMantissa (2 ^ 24) with
      hRoom | hCarry
    · have hFull : Full (ExtendedMantissa.ofMantissaAndAccuracy q acc).roundedMantissa :=
        ⟨by omega, hRoom⟩
      exact ⟨_, t, _, round_of_shift hShift hFull ht, hFull, .inl ⟨rfl, hMax⟩⟩
    · exact ⟨2 ^ 23, t + 1, _, round_of_carry hShift (by omega) ht, full_two_pow,
        .inr ⟨rfl, by omega⟩⟩
  · have hFull := full_roundedMantissa_half acc
    exact ⟨_, t + 1, _, round_of_shift (shift_two_pow ht) hFull (by omega), hFull, .inr ⟨rfl, by omega⟩⟩

/-! ## Reciprocals -/

/-- The first digits of the reciprocal of a significand. -/
def quotient (m : Nat) : Nat := 2 ^ (24 + m.log2) / m

theorem quotient_full (hPos : 0 < m) : Full (quotient m) ∨ quotient m = 2 ^ 24 := by
  have hMin : 2 ^ m.log2 ≤ m := Nat.log2_self_le hPos.ne'
  have hMax : m < 2 ^ (m.log2 + 1) := Nat.lt_log2_self
  have hLow : 2 ^ 23 ≤ quotient m := by
    rw [quotient, Nat.le_div_iff_mul_le hPos]
    calc 2 ^ 23 * m ≤ 2 ^ 23 * 2 ^ (m.log2 + 1) := Nat.mul_le_mul_left _ hMax.le
      _ = 2 ^ (24 + m.log2) := by rw [← Nat.pow_add]; congr 1; omega
  have hHigh : quotient m ≤ 2 ^ 24 := by
    apply Nat.div_le_of_le_mul
    rw [Nat.pow_add, Nat.mul_comm]
    exact Nat.mul_le_mul_right _ hMin
  exact hHigh.lt_or_eq.imp_left fun hLess => ⟨hLow, hLess⟩

theorem quotient_two_pow : quotient (2 ^ 23) = 2 ^ 24 := by
  rw [quotient, Nat.log2_two_pow]
  rfl

/-- What is larger than a power of two has a reciprocal that is not rounded up to one. -/
theorem quotient_lt (hFull : Full m) (hLarger : 2 ^ 23 < m) : quotient m + 1 < 2 ^ 24 := by
  have hQuotient : quotient m < 2 ^ 24 - 1 := by
    rw [quotient, hFull.log2_eq, Nat.div_lt_iff_lt_mul hFull.pos]
    omega
  omega

theorem divCore_one (hLow : -149 ≤ e) (hHigh : e ≤ -14) (hLog : m.log2 ≤ 23) :
    divCore .binary32 (2 ^ 23) (-23) m e =
      (quotient m, -24 - m.log2 - e, accuracyOfFraction (2 ^ (24 + m.log2) % m) m) := by
  have hOne : Nat.log2 (2 ^ 23) = 23 := Nat.log2_two_pow
  have hTarget : min (-23 - e) (Format.binary32.targetExponent
      (totalExponent (2 ^ 23) (-23) - totalExponent m e)) = -24 - m.log2 - e := by
    simp only [Format.targetExponent, totalExponent, mantissaBits_eq, minExponent_eq, hOne]
    omega
  have hShift : (-23 - e - (-24 - m.log2 - e)).toNat = 1 + m.log2 := by omega
  simp only [divCore, hTarget, hShift, quotient, Nat.shiftLeft_eq, ← Nat.pow_add, ← Nat.add_assoc]

theorem holds_one : Holds 1 (2 ^ 23) (-23) := ⟨by decide, by rfl⟩

/-- The reciprocal of a number that is not too large, as it is rounded. -/
theorem exists_rounds_one_div (h : Holds r m e) (hHigh : e ≤ -14) :
    ∃ m' e', Rounds (1 / r) m' e' ∧ Full m' ∧
      (e' = -24 - m.log2 - e ∧ quotient m < 2 ^ 24 ∨
        e' = -24 - m.log2 - e + 1 ∧ 2 ^ 24 ≤ quotient m + 1) := by
  have hLow := h.bounds.1
  have hLog := h.log2_le
  obtain ⟨hPos, hUnpack⟩ := h
  obtain ⟨_, hOne⟩ := holds_one
  have hTarget : -149 ≤ -24 - m.log2 - e := by omega
  obtain ⟨m', e', _, hRound, hFull, hExponent⟩ := exists_round (quotient_full hPos) hTarget
    (accuracyOfFraction (2 ^ (24 + m.log2) % m) m)
  have hDiv : (1 / r).toModel = .pack (.finite .positive m' e' hFull.pos) := by
    change Float32.Model.pack (.div .binary32 (1 : Float32).toModel.unpack r.toModel.unpack) = _
    rw [hOne, hUnpack, ← hRound, UnpackedFloat.div, divCore_one hLow hHigh hLog]
    rfl
  exact ⟨m', e', rounds_pack hDiv hFull (by omega), hFull, hExponent⟩

end Sortie.Single
