import CiRunner.Proofs.Decimal.Doubles

/-!
# Signs of sums and products

A product of doubles is rounded, and so is a difference.  Rounding keeps a sign, and what is not
below the smallest double is not rounded to zero.  So a difference is positive exactly if the second
number is less than the first one, which are both as fine as the smallest double, and a number times
sixty is positive exactly if the number is.
-/

namespace CiRunner.Decimal

open Float.Model UnpackedFloat

/-! ## Signs -/

/-- Whether an unpacked number is greater than zero. -/
def isPositive : UnpackedFloat → Bool
  | .infinity .positive => true
  | .finite .positive .. => true
  | _ => false

/-- What is greater than a zero is infinite or finite with a positive sign. -/
lemma zero_lt_eq_isPositive (s : Sign) (x : UnpackedFloat) :
    (UnpackedFloat.zero s).lt x = isPositive x := by
  cases x with
  | infinity sign => cases sign <;> rfl
  | notANumber => rfl
  | zero sign => rfl
  | finite sign mantissa exponent hpos => cases sign <;> rfl

lemma pos_iff_isPositive {x : Float} : 0.0 < x ↔ isPositive x.toModel.unpack = true := by
  rw [lt_iff_unpack, unpack_zero, zero_lt_eq_isPositive]

/-- An unpacked number has at most 53 binary digits, and none below those of the smallest double. -/
def IsRounded : UnpackedFloat → Prop
  | .finite _ mantissa exponent _ => mantissa < 2 ^ 53 ∧ -1074 ≤ exponent
  | _ => True

/-- Bits that stand for a number other than zero have its sign. -/
lemma isPositive_unpack_packComponents (s : Sign) {e : BitVec 11} {m : BitVec 52}
    (hnumber : e = -1#11 → m = 0#52) (hnonzero : e = 0#11 → m ≠ 0#52) :
    isPositive (UnpackedFloat.unpack .binary64 (packComponents .binary64 s e m)) =
      isPositive (.infinity s) := by
  unfold UnpackedFloat.unpack
  simp only [unpackMantissa_packComponents, unpackExponent_packComponents,
    unpackSign_packComponents]
  split_ifs with hfull hzero hsmall hzero
  · rfl
  · exact absurd (hnumber hfull) hzero
  · exact absurd hzero (hnonzero hsmall)
  · cases s <;> rfl
  · cases s <;> rfl

/-- A number that is packed keeps its sign, and it is not lost if it is rounded. -/
lemma isPositive_unpack_pack {x : UnpackedFloat} (h : IsRounded x) :
    isPositive (Float.Model.pack x).unpack = isPositive x := by
  have hpacked : (Float.Model.pack x).unpack =
      UnpackedFloat.unpack .binary64 (UnpackedFloat.pack .binary64 x) := rfl
  rw [hpacked]
  cases x with
  | infinity s => exact isPositive_unpack_packComponents s (fun _ => rfl) nofun
  | notANumber => rfl
  | zero s => cases s <;> rfl
  | finite s mantissa exponent hpos =>
    obtain ⟨hmantissa, hexponent⟩ := h
    have hsign : isPositive (.finite s mantissa exponent hpos) = isPositive (.infinity s) := by
      cases s <;> rfl
    have hbias : Format.binary64.exponentBias = 1023 := rfl
    rw [hsign, UnpackedFloat.pack, hbias]
    dsimp only
    split_ifs with hlarge hnormal
    · exact isPositive_unpack_packComponents s (fun _ => rfl) nofun
    · -- the exponent of a normal number is neither the least nor the greatest one
      have hfield : (BitVec.ofNat 11 (exponent + (1023 : ℕ) + (52 : ℕ)).toNat).toNat =
          (exponent + (1023 : ℕ) + (52 : ℕ)).toNat := by
        rw [BitVec.toNat_ofNat]
        omega
      refine isPositive_unpack_packComponents s (fun hfull => ?_) fun hzero => ?_
      · have hval := hfield.symm.trans (congrArg BitVec.toNat hfull)
        change _ = 2047 at hval
        omega
      · have hval := hfield.symm.trans (congrArg BitVec.toNat hzero)
        change _ = 0 at hval
        omega
    · refine isPositive_unpack_packComponents s nofun fun _ hzero => ?_
      have hval := congrArg BitVec.toNat hzero
      change mantissa % 2 ^ 52 = 0 at hval
      have hlog : mantissa.log2 ≠ 52 := fun hlog => hnormal (by rw [hlog]; rfl)
      rw [ne_eq, Nat.log2_eq_iff hpos.ne'] at hlog
      omega

/-! ## Rounding -/

/-- Shifting to the right drops digits. -/
lemma mantissa_shiftRight (x : ExtendedMantissa) (k : ℕ) :
    (x >>> k).mantissa = x.mantissa / 2 ^ k := by
  have hrepeat : ∀ k, x >>> k = Nat.repeat ExtendedMantissa.shiftRightOne k x := fun _ => rfl
  induction k with
  | zero => rw [Nat.pow_zero, Nat.div_one, hrepeat, Nat.repeat]
  | succ k ih =>
    rw [hrepeat, Nat.repeat, ExtendedMantissa.shiftRightOne, ← hrepeat, ih, Nat.div_div_eq_div_mul,
      Nat.pow_succ]

/-- What a mantissa and an exponent stand for is not below the smallest double. -/
def NotTiny (mantissa : ℕ) (exponent : ℤ) : Prop :=
  0 < mantissa ∧ -1074 ≤ (mantissa.log2 : ℤ) + exponent

/-- A mantissa that is shifted to its place has at most 53 digits. -/
lemma shiftToTargetExponent_bounds {mantissa : ℕ} {exponent : ℤ} (h : NotTiny mantissa exponent) :
    let shifted := shiftToTargetExponent .binary64 mantissa exponent .exact
    0 < shifted.1.mantissa ∧ shifted.1.mantissa < 2 ^ 53 ∧ -1074 ≤ shifted.2 := by
  obtain ⟨hpos, htiny⟩ := h
  have hplace : Format.binary64.targetExponent (totalExponent mantissa exponent) =
      max ((mantissa.log2 : ℤ) + 1 + exponent - 53) (-1074) := rfl
  obtain ⟨k, hk⟩ : ∃ k, k = (max ((mantissa.log2 : ℤ) + 1 + exponent - 53) (-1074) -
    exponent).toNat := ⟨_, rfl⟩
  have hshifted : shiftToTargetExponent .binary64 mantissa exponent .exact =
      (ExtendedMantissa.ofMantissaAndAccuracy mantissa .exact >>> k, exponent + k) := by
    rw [shiftToTargetExponent, shiftToExponent, hplace, hk]
  intro shifted
  have hquotient : shifted.1.mantissa = mantissa / 2 ^ k := by
    rw [show shifted = _ from hshifted]
    exact mantissa_shiftRight _ k
  have hexponent : shifted.2 = exponent + k := by rw [show shifted = _ from hshifted]
  rw [hquotient, hexponent]
  refine ⟨Nat.div_pos ?_ (Nat.two_pow_pos k), ?_, by omega⟩
  · -- at least the leading digit is left
    exact (Nat.pow_le_pow_right Nat.two_pos (by omega)).trans (Nat.log2_self_le hpos.ne')
  · have hlt : mantissa < 2 ^ 53 * 2 ^ k := by
      rw [← Nat.pow_add]
      exact Nat.lt_log2_self.trans_le (Nat.pow_le_pow_right Nat.two_pos (by omega))
    exact (Nat.div_lt_iff_lt_mul (Nat.two_pow_pos k)).mpr hlt

/-- Rounding to the nearest mantissa does not lead below the one that is there. -/
lemma mantissa_le_roundedMantissa (x : ExtendedMantissa) : x.mantissa ≤ x.roundedMantissa := by
  unfold ExtendedMantissa.roundedMantissa Accuracy.roundToNearestEven
  split <;> omega

variable {s : Sign} {mantissa : ℕ} {exponent : ℤ}

/-- A number that is not below the smallest double is rounded to one of its sign. -/
lemma roundWithAccuracy_sign (h : NotTiny mantissa exponent) :
    IsRounded (roundWithAccuracy .binary64 s mantissa exponent .exact) ∧
      isPositive (roundWithAccuracy .binary64 s mantissa exponent .exact) =
        isPositive (.infinity s) := by
  obtain ⟨hpos, -, hexponent⟩ := shiftToTargetExponent_bounds h
  -- what is rounded up to a digit more is shifted once more
  have hrounded : NotTiny
      (shiftToTargetExponent .binary64 mantissa exponent .exact).1.roundedMantissa
      (shiftToTargetExponent .binary64 mantissa exponent .exact).2 :=
    ⟨hpos.trans_le (mantissa_le_roundedMantissa _), by omega⟩
  obtain ⟨hpos', hlt, hexponent'⟩ := shiftToTargetExponent_bounds hrounded
  rw [roundWithAccuracy]
  dsimp only
  rw [dif_neg hpos'.ne']
  refine ⟨⟨hlt, hexponent'⟩, ?_⟩
  cases s <;> rfl

/-- A number keeps its value when its exponent is decreased. -/
lemma NotTiny.decreaseExponent (h : NotTiny mantissa exponent) (target : ℤ) :
    NotTiny (decreaseExponent mantissa exponent target).1
      (decreaseExponent mantissa exponent target).2 := by
  obtain ⟨hpos, htiny⟩ := h
  simp only [UnpackedFloat.decreaseExponent, Nat.shiftLeft_eq]
  generalize (exponent - target).toNat = k
  have hpos' : 0 < mantissa * 2 ^ k := Nat.mul_pos hpos (Nat.two_pow_pos k)
  have hlog : mantissa.log2 + k ≤ (mantissa * 2 ^ k).log2 := by
    rw [Nat.le_log2 hpos'.ne', Nat.pow_add]
    exact Nat.mul_le_mul_right _ (Nat.log2_self_le hpos.ne')
  exact ⟨hpos', by omega⟩

/-- So is a number whose exponent may have to be decreased first. -/
lemma round_sign (h : NotTiny mantissa exponent) :
    IsRounded (UnpackedFloat.round .binary64 s mantissa exponent) ∧
      isPositive (UnpackedFloat.round .binary64 s mantissa exponent) = isPositive (.infinity s) :=
  roundWithAccuracy_sign (h.decreaseExponent _)

/-- A sum of signed numbers that are as fine as the smallest double is rounded to a number of its
sign. -/
lemma normalize_sign (sum : ℤ) (hexponent : -1074 ≤ exponent) (zeroSign : Sign) :
    IsRounded (UnpackedFloat.normalize .binary64 sum exponent zeroSign) ∧
      isPositive (UnpackedFloat.normalize .binary64 sum exponent zeroSign) = decide (0 < sum) := by
  have hfine : ∀ {n : ℕ}, 0 < n → NotTiny n exponent := fun hn => ⟨hn, by omega⟩
  unfold UnpackedFloat.normalize
  rcases lt_trichotomy sum 0 with hneg | rfl | hpos
  · rw [compare_lt_iff_lt.mpr hneg, decide_eq_false (not_lt.mpr hneg.le)]
    exact round_sign (hfine (by omega))
  · rw [compare_eq_iff_eq.mpr rfl]
    exact ⟨trivial, rfl⟩
  · rw [compare_gt_iff_gt.mpr hpos, decide_eq_true hpos]
    exact round_sign (hfine (by omega))

/-! ## Unpacked doubles -/

/-- Finite numbers that are unpacked are in their canonical form: they have 53 digits, or the least
exponent. -/
structure IsCanonical (mantissa : ℕ) (exponent : ℤ) : Prop where
  /-- There are at most 53 digits. -/
  mantissa_lt : mantissa < 2 ^ 53
  /-- The exponent is at least the least one. -/
  le_exponent : -1074 ≤ exponent
  /-- With another exponent there are no fewer digits. -/
  le_mantissa : -1074 < exponent → 2 ^ 52 ≤ mantissa

/-- What a double is unpacked to is in canonical form. -/
lemma isCanonical_unpack {x : Float.Model} {s : Sign} {hpos : 0 < mantissa}
    (h : x.unpack = .finite s mantissa exponent hpos) : IsCanonical mantissa exponent := by
  rw [Float.Model.unpack, UnpackedFloat.unpack] at h
  dsimp only at h
  split_ifs at h with hfull hzero hsmall hzero
  · obtain ⟨-, rfl, rfl⟩ := UnpackedFloat.finite.inj h
    have hlt : (@unpackMantissa .binary64 x.toBits.toBitVec).toNat < 2 ^ 52 :=
      BitVec.isLt _
    rw [hsmall]
    exact ⟨by omega, le_rfl, fun hlarge => absurd hlarge (lt_irrefl _)⟩
  · obtain ⟨-, rfl, rfl⟩ := UnpackedFloat.finite.inj h
    have hlt : (@unpackMantissa .binary64 x.toBits.toBitVec).toNat < 2 ^ 52 :=
      BitVec.isLt _
    have hexponent : 0 < (@unpackExponent .binary64 x.toBits.toBitVec).toNat :=
      Nat.pos_of_ne_zero fun h0 => hsmall (BitVec.eq_of_toNat_eq h0)
    have hbias : (Format.binary64.exponentBias : ℤ) = 1023 := rfl
    rw [toNat_one_append, hbias]
    exact ⟨by omega, by omega, fun _ => by omega⟩

variable {s' : Sign} {mantissa' : ℕ} {exponent' : ℤ} {hpos : 0 < mantissa} {hpos' : 0 < mantissa'}

/-- On the scale of the smaller exponent, the number with the greater one is the greater one. -/
lemma IsCanonical.lt_shifted (h : IsCanonical mantissa exponent)
    (h' : IsCanonical mantissa' exponent') (hlt : exponent < exponent') :
    mantissa < mantissa' <<< (exponent' - exponent).toNat := by
  obtain ⟨k, hk⟩ : ∃ k, (exponent' - exponent).toNat = k + 1 :=
    ⟨(exponent' - exponent).toNat - 1, by omega⟩
  rw [hk, Nat.shiftLeft_eq, Nat.pow_succ, ← Nat.mul_assoc]
  have hdigits : 2 ^ 52 ≤ mantissa' := h'.le_mantissa (h.le_exponent.trans_lt hlt)
  have hmore : mantissa' ≤ mantissa' * 2 ^ k := Nat.le_mul_of_pos_right _ (Nat.two_pow_pos k)
  have hless := h.mantissa_lt
  omega

/-- The mantissa of a number on the scale of an exponent that is no greater than its own. -/
def onScale (mantissa : ℕ) (exponent least : ℤ) : ℕ :=
  (UnpackedFloat.decreaseExponent mantissa exponent least).1

lemma onScale_pos (hpos : 0 < mantissa) (exponent least : ℤ) :
    0 < onScale mantissa exponent least := by
  rw [onScale, UnpackedFloat.decreaseExponent, Nat.shiftLeft_eq]
  exact Nat.mul_pos hpos (Nat.two_pow_pos _)

/-- Two numbers in canonical form compare by their exponents first, and then by their mantissas. -/
lemma IsCanonical.onScale_lt_iff (h : IsCanonical mantissa exponent)
    (h' : IsCanonical mantissa' exponent') :
    onScale mantissa exponent (min exponent exponent') <
        onScale mantissa' exponent' (min exponent exponent') ↔
      (compare exponent exponent').then (compare mantissa mantissa') = .lt := by
  simp only [onScale, UnpackedFloat.decreaseExponent]
  rcases lt_trichotomy exponent exponent' with hlt | rfl | hgt
  · rw [compare_lt_iff_lt.mpr hlt, min_eq_left hlt.le, sub_self]
    exact iff_of_true (h.lt_shifted h' hlt) rfl
  · rw [compare_eq_iff_eq.mpr rfl, min_self, sub_self]
    exact compare_lt_iff_lt.symm
  · rw [compare_gt_iff_gt.mpr hgt, min_eq_right hgt.le, sub_self]
    exact iff_of_false (h'.lt_shifted h hgt).not_gt nofun

/-- Finite numbers compare as the integers that they are on the scale of the smaller exponent. -/
lemma lt_finite_iff (h : IsCanonical mantissa exponent) (h' : IsCanonical mantissa' exponent') :
    (UnpackedFloat.finite s mantissa exponent hpos).lt
        (.finite s' mantissa' exponent' hpos') = true ↔
      s.apply (onScale mantissa exponent (min exponent exponent')) <
        s'.apply (onScale mantissa' exponent' (min exponent exponent')) := by
  have hscale := onScale_pos hpos exponent (min exponent exponent')
  have hscale' := onScale_pos hpos' exponent' (min exponent exponent')
  have hlt : ∀ o : Ordering, (some o == some .lt) = true ↔ o = .lt := by decide
  cases s <;> cases s'
  case positive.positive =>
    refine (hlt _).trans ((h.onScale_lt_iff h').symm.trans ?_)
    exact Int.ofNat_lt.symm
  case positive.negative =>
    refine iff_of_false nofun ?_
    simp only [Sign.apply]
    omega
  case negative.positive =>
    refine iff_of_true rfl ?_
    simp only [Sign.apply]
    omega
  case negative.negative =>
    have hswap : ((compare exponent exponent').then (compare mantissa mantissa')).swap =
        (compare exponent' exponent).then (compare mantissa' mantissa) := by
      rw [Ordering.swap_then, ← Std.OrientedCmp.eq_swap, ← Std.OrientedCmp.eq_swap]
    refine (hlt _).trans ?_
    rw [hswap, ← h'.onScale_lt_iff h, min_comm]
    simp only [Sign.apply]
    omega

/-- The difference of unpacked doubles is positive exactly if the second one is less. -/
lemma isPositive_sub (x y : Float.Model) :
    IsRounded (UnpackedFloat.sub .binary64 y.unpack x.unpack) ∧
      isPositive (UnpackedFloat.sub .binary64 y.unpack x.unpack) = x.unpack.lt y.unpack := by
  cases hx : x.unpack <;> cases hy : y.unpack
  case finite.finite s m e hm s' m' e' hm' =>
    have hcanonical := isCanonical_unpack hx
    have hcanonical' := isCanonical_unpack hy
    obtain ⟨hrounded, hsign⟩ := normalize_sign
      (s'.apply (onScale m' e' (min e' e)) - s.apply (onScale m e (min e' e)))
      (le_min hcanonical'.le_exponent hcanonical.le_exponent) .positive
    refine ⟨hrounded, hsign.trans ?_⟩
    rw [Bool.eq_iff_iff, decide_eq_true_iff, Int.sub_pos, min_comm,
      lt_finite_iff hcanonical hcanonical']
  case finite.zero s m e hm s' =>
    have hcanonical := isCanonical_unpack hx
    refine ⟨⟨hcanonical.mantissa_lt, hcanonical.le_exponent⟩, ?_⟩
    cases s <;> rfl
  case zero.finite s s' m' e' hm' =>
    have hcanonical := isCanonical_unpack hy
    exact ⟨⟨hcanonical.mantissa_lt, hcanonical.le_exponent⟩, (zero_lt_eq_isPositive ..).symm⟩
  case infinity.infinity s s' | infinity.zero s s' | zero.infinity s s' | zero.zero s s' =>
    cases s <;> cases s' <;> exact ⟨trivial, rfl⟩
  case infinity.finite s s' m' e' hm' => cases s <;> cases s' <;> exact ⟨trivial, rfl⟩
  case finite.infinity s m e hm s' => cases s <;> cases s' <;> exact ⟨trivial, rfl⟩
  case infinity.notANumber s | zero.notANumber s | finite.notANumber s _ _ _ =>
    cases s <;> exact ⟨trivial, rfl⟩
  case notANumber.infinity s | notANumber.zero s | notANumber.finite s _ _ _ =>
    cases s <;> exact ⟨trivial, rfl⟩
  case notANumber.notANumber => exact ⟨trivial, rfl⟩

/-- A difference is positive exactly if the second number is less than the first one. -/
theorem sub_pos_iff {x y : Float} : 0.0 < y - x ↔ x < y := by
  obtain ⟨hrounded, hsign⟩ := isPositive_sub x.toModel y.toModel
  rw [pos_iff_isPositive, lt_iff_unpack, ← hsign, ← isPositive_unpack_pack hrounded]
  rfl

lemma unpack_sixty : (60.0 : Float).toModel.unpack =
    .finite .positive 8444249301319680 (-47) (by decide) := by
  have hbits : (60.0 : Float).toModel.toBits = 4633641066610819072 := by decide +kernel
  rw [Float.Model.unpack, hbits]
  rfl

/-- The product of an unpacked double with sixty has the sign of the double. -/
lemma isPositive_mul_sixty (x : Float.Model) :
    IsRounded (UnpackedFloat.mul .binary64 x.unpack (60.0 : Float).toModel.unpack) ∧
      isPositive (UnpackedFloat.mul .binary64 x.unpack (60.0 : Float).toModel.unpack) =
        isPositive x.unpack := by
  rw [unpack_sixty]
  cases hx : x.unpack with
  | infinity s => cases s <;> exact ⟨trivial, rfl⟩
  | notANumber => exact ⟨trivial, rfl⟩
  | zero s => cases s <;> exact ⟨trivial, rfl⟩
  | finite s mantissa exponent hpos =>
    have hexponent := (isCanonical_unpack hx).le_exponent
    -- the digits of sixty make up for its exponent
    have hdigits : 52 ≤ (mantissa * 8444249301319680).log2 :=
      (Nat.le_log2 (by omega)).mpr (by omega)
    have hfine : NotTiny (mantissa * 8444249301319680) (exponent + -47) :=
      ⟨by omega, by omega⟩
    obtain ⟨hrounded, hsign⟩ := roundWithAccuracy_sign (s := s * .positive) hfine
    refine ⟨hrounded, hsign.trans ?_⟩
    cases s <;> rfl

/-- A product with sixty is positive exactly if the number is. -/
theorem mul_sixty_pos_iff {x : Float} : 0.0 < x * 60.0 ↔ 0.0 < x := by
  obtain ⟨hrounded, hsign⟩ := isPositive_mul_sixty x.toModel
  rw [pos_iff_isPositive, pos_iff_isPositive, ← hsign, ← isPositive_unpack_pack hrounded]
  rfl

/-! ## Comparisons with zero -/

/-- What is not at most zero is positive, unless it is no number. -/
lemma le_zero_eq {x : UnpackedFloat} (h : x.isNaN = false) (s : Sign) :
    x.le (.zero s) = !isPositive x := by
  cases x with
  | infinity sign => cases sign <;> rfl
  | notANumber => cases h
  | zero sign => rfl
  | finite sign mantissa exponent hpos => cases sign <;> rfl

/-- A double that is not at most zero is positive exactly if it is a number. -/
lemma pos_iff_of_not_le_zero {x : Float} (h : ¬x ≤ 0.0) : 0.0 < x ↔ x.isNaN = false := by
  have hnan : x.isNaN = x.toModel.unpack.isNaN := rfl
  rw [pos_iff_isPositive, hnan]
  rw [le_iff_unpack, unpack_zero] at h
  cases hx : x.toModel.unpack.isNaN with
  | false =>
    rw [le_zero_eq hx] at h
    exact iff_of_true (by simpa using h) rfl
  | true =>
    cases hunpack : x.toModel.unpack <;> rw [hunpack] at hx
    case notANumber => exact iff_of_false nofun nofun
    all_goals cases hx

/-- A positive number is one. -/
lemma isNaN_eq_false_of_pos {x : Float} (h : 0.0 < x) : x.isNaN = false :=
  (pos_iff_of_not_le_zero (not_le_zero_of_pos h)).mp h

/-- What is greater than something positive is positive. -/
lemma isPositive_of_lt {x y : UnpackedFloat} (hx : isPositive x = true) (hlt : x.lt y = true) :
    isPositive y = true := by
  match x, hx with
  | .infinity .positive, _ | .finite .positive .., _ =>
    cases y with
    | infinity sign | finite sign =>
      cases sign with
      | positive => rfl
      | negative => cases hlt
    | notANumber | zero => cases hlt

/-- A double that is greater than a positive one is positive. -/
lemma pos_of_pos_of_lt {x y : Float} (hx : 0.0 < x) (hlt : x < y) : 0.0 < y := by
  rw [pos_iff_isPositive] at hx ⊢
  exact isPositive_of_lt hx (lt_iff_unpack.mp hlt)

/-! ## Integers -/

/-- Bits other than zero, which are not beyond those of the positive infinite number, stand for a
positive number. -/
lemma ofBits_pos {k : ℕ} (hpos : 0 < k) (hk : k ≤ 2047 * 2 ^ 52) :
    0.0 < Float.ofBits (UInt64.ofNat k) := by
  have hval : (UInt64.ofNat k).toNat = k := by
    rw [UInt64.toNat_ofNat']
    omega
  obtain ⟨b, hb⟩ : ∃ b, UInt64.ofNat k = b := ⟨_, rfl⟩
  rw [hb] at hval ⊢
  have hnumber : b.toNat % 2 ^ 63 ≤ 2047 * 2 ^ 52 := by omega
  have hunpack : (Float.ofBits b).toModel.unpack = UnpackedFloat.unpack .binary64 b.toBitVec :=
    congrArg (fun bits : UInt64 => UnpackedFloat.unpack .binary64 bits.toBitVec)
      (toBits_ofBits hnumber)
  have hsign : @unpackSign .binary64 b.toBitVec = 0#1 := by
    refine BitVec.eq_of_toNat_eq (toNat_unpackSign.trans ?_)
    change _ = 0
    omega
  rw [pos_iff_isPositive, hunpack, ← packComponents_unpack b.toBitVec, hsign]
  refine isPositive_unpack_packComponents .positive (unpackMantissa_eq_zero hnumber)
    fun hzero hnone => ?_
  have hexponent := toNat_unpackExponent (b := b)
  have hmantissa := toNat_unpackMantissa (b := b)
  rw [hzero] at hexponent
  rw [hnone] at hmantissa
  change 0 = _ at hexponent
  change 0 = _ at hmantissa
  omega

/-- The double nearest to a positive integer is positive. -/
theorem pos_of_ofInt? {n : ℤ} {x : Float} (hn : 0 < n) (h : Binary.ofInt? n = some x) :
    0.0 < x := by
  have hx : Binary.nearest (n < 0) n.natAbs 1 = x := by
    simp only [Binary.ofInt?] at h
    split at h
    · exact Option.some.inj h
    · cases h
  have hnonzero : n.natAbs ≠ 0 := by omega
  obtain ⟨hlower, -⟩ := Binary.rounded_bounds hnonzero
  rw [← hx, Binary.nearest, decide_eq_false (not_lt.mpr hn.le), if_neg Bool.false_ne_true,
    if_neg hnonzero, Nat.add_zero]
  refine ofBits_pos (lt_min ?_ (by decide)) (Nat.min_le_right _ _)
  rw [Nat.one_mul]
  omega

end CiRunner.Decimal
