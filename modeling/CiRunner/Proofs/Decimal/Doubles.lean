import CiRunner.Decimal.Binary
import Mathlib

/-!
# Doubles

Doubles are compared as what they are unpacked to.  One that is greater than zero is not also at
most zero; one that is no number is neither.

The double nearest to an integer is put together bit by bit.  Its bits are kept, since they are none
of those that stand for no number, and they stand for a finite one unless the integer, rounded to 53
binary digits, has more than 1024.
-/

namespace CiRunner.Decimal

open Float.Model

/-! ## Positive doubles -/

lemma lt_iff_unpack {x y : Float} : x < y ↔ x.toModel.unpack.lt y.toModel.unpack = true := by
  change decide (x.toModel.lt y.toModel = true) = true ↔ _
  rw [decide_eq_true_iff]
  rfl

lemma le_iff_unpack {x y : Float} : x ≤ y ↔ x.toModel.unpack.le y.toModel.unpack = true := by
  change decide (x.toModel.le y.toModel = true) = true ↔ _
  rw [decide_eq_true_iff]
  rfl

lemma unpack_zero : (0.0 : Float).toModel.unpack = .zero .positive := by
  have hbits : (0.0 : Float).toModel.toBits = 0 := by decide +kernel
  rw [unpack, hbits]
  rfl

/-- What is greater than a zero is infinite or finite with a positive sign, so it is not at most
zero. -/
lemma le_zero_of_zero_lt {s : UnpackedFloat.Sign} {x : UnpackedFloat}
    (h : (UnpackedFloat.zero s).lt x = true) : x.le (.zero s) = false := by
  cases x with
  | infinity sign =>
    cases sign with
    | positive => rfl
    | negative => cases h
  | notANumber => cases h
  | zero sign => cases h
  | finite sign mantissa exponent hpos =>
    cases sign with
    | positive => rfl
    | negative => cases h

/-- A positive double is not at most zero. -/
lemma not_le_zero_of_pos {x : Float} (h : 0.0 < x) : ¬x ≤ 0.0 := by
  rw [lt_iff_unpack, unpack_zero] at h
  rw [le_iff_unpack, unpack_zero, le_zero_of_zero_lt h]
  exact Bool.false_ne_true

/-! ## The bits of a double -/

section Bits

open UnpackedFloat

/-- The sign among the bits. -/
lemma unpackSign_packComponents (s : Sign) (e : BitVec 11) (m : BitVec 52) :
    Sign.ofBitVec (unpackSign (packComponents .binary64 s e m)) = s := by
  have hsign : unpackSign (packComponents .binary64 s e m) = s.toBitVec := by
    simp only [packComponents, unpackSign, BitVec.extractLsb]
    ext i hi
    grind
  rw [hsign]
  cases s <;> rfl

/-- Bits are put together from their parts. -/
lemma packComponents_unpack (b : BitVec Format.binary64.numBits) :
    packComponents .binary64 (Sign.ofBitVec (unpackSign b)) (unpackExponent b)
      (unpackMantissa b) = b := by
  have hsign (x : BitVec 1) : (Sign.ofBitVec x).toBitVec = x := by
    revert x
    decide
  simp only [packComponents, hsign, unpackSign, unpackExponent, unpackMantissa, BitVec.extractLsb]
  ext
  grind

/-- The leading digit of a normal number stands in front of its mantissa. -/
lemma toNat_one_append (m : BitVec 52) : (1#1 ++ m).toNat = 2 ^ 52 + m.toNat := by
  rw [BitVec.toNat_append, Nat.shiftLeft_eq]
  show 1 * 2 ^ 52 ||| m.toNat = _
  rw [Nat.one_mul, ← Nat.two_pow_add_eq_or_of_lt m.isLt 1, Nat.mul_one]

/-- The bits of a normal number. -/
lemma pack_normal (s : Sign) {k : ℕ} (hk : k < 2047) (m : BitVec 52) (hpos) :
    UnpackedFloat.pack .binary64 (.finite s (1#1 ++ m).toNat ((k : ℤ) - 1075) hpos) =
      packComponents .binary64 s (BitVec.ofNat 11 k) m := by
  have hlog : (1#1 ++ m).toNat.log2 = 52 := by
    have hm : m.toNat < 2 ^ 52 := m.isLt
    rw [toNat_one_append, Nat.log2_eq_iff (by omega)]
    omega
  have hexponent : ((k : ℤ) - 1075 + (1023 : ℕ) + (52 : ℕ)).toNat = k := by omega
  have hmantissa : BitVec.ofNat 52 (1#1 ++ m).toNat = m := by
    apply BitVec.eq_of_toNat_eq
    rw [toNat_one_append, BitVec.toNat_ofNat, Nat.add_mod_left, Nat.mod_eq_of_lt m.isLt]
  have hfinite : ¬2 ^ 11 ≤ k + 1 := by omega
  rw [UnpackedFloat.pack, show Format.binary64.exponentBias = 1023 from rfl, hexponent,
    if_neg hfinite, if_pos (by rw [hlog]; rfl), hmantissa]

/-- The bits of a number below the normal ones. -/
lemma pack_small (s : Sign) (m : BitVec 52) (hpos) :
    UnpackedFloat.pack .binary64 (.finite s m.toNat (-1074) hpos) =
      packComponents .binary64 s 0#11 m := by
  have hlog : m.toNat.log2 < 52 := (Nat.log2_lt hpos.ne').mpr m.isLt
  have hexponent : ((-1074 : ℤ) + (1023 : ℕ) + (52 : ℕ)).toNat = 1 := rfl
  have hsmall : m.toNat.log2 + 1 ≠ Format.binary64.mantissaBits := by
    show _ ≠ 53
    omega
  rw [UnpackedFloat.pack, show Format.binary64.exponentBias = 1023 from rfl, hexponent,
    if_neg (by decide), if_neg hsmall, BitVec.ofNat_toNat]
  simp

/-- Bits are kept, unless they stand for no number. -/
lemma pack_unpack_packComponents (s : Sign) {e : BitVec 11} {m : BitVec 52}
    (h : e = -1#11 → m = 0#52) :
    UnpackedFloat.pack .binary64
      (UnpackedFloat.unpack .binary64 (packComponents .binary64 s e m)) =
        packComponents .binary64 s e m := by
  unfold UnpackedFloat.unpack
  simp only [unpackMantissa_packComponents, unpackExponent_packComponents,
    unpackSign_packComponents]
  split_ifs with hinfinite hzero hsmall hzero
  · rw [hinfinite, hzero]
    rfl
  · exact absurd (h hinfinite) hzero
  · rw [hsmall, hzero]
    rfl
  · rw [hsmall]
    exact pack_small s m _
  · have hlt : e.toNat < 2047 := by
      have hne : e.toNat ≠ (-1#11).toNat := fun heq => hinfinite (BitVec.eq_of_toNat_eq heq)
      have hval : (-1#11).toNat = 2047 := rfl
      omega
    refine (pack_normal s hlt m _).trans ?_
    rw [BitVec.ofNat_toNat, BitVec.setWidth_eq]

section Fields

variable {b : UInt64}

lemma toNat_unpackMantissa : (@unpackMantissa .binary64 b.toBitVec).toNat = b.toNat % 2 ^ 52 := by
  simp [unpackMantissa]

lemma toNat_unpackExponent :
    (@unpackExponent .binary64 b.toBitVec).toNat = b.toNat / 2 ^ 52 % 2 ^ 11 := by
  simp [unpackExponent, Nat.shiftRight_eq_div_pow]

lemma toNat_unpackSign :
    (@unpackSign .binary64 b.toBitVec).toNat = b.toNat / 2 ^ 63 % 2 := by
  simp [unpackSign, Nat.shiftRight_eq_div_pow]

/-- Bits that are not beyond those of an infinite number do not stand for no number. -/
lemma unpackMantissa_eq_zero (h : b.toNat % 2 ^ 63 ≤ 2047 * 2 ^ 52)
    (hfull : @unpackExponent .binary64 b.toBitVec = -1#11) :
    @unpackMantissa .binary64 b.toBitVec = 0#52 := by
  have hexponent := toNat_unpackExponent (b := b)
  rw [hfull] at hexponent
  change 2047 = _ at hexponent
  refine BitVec.eq_of_toNat_eq (toNat_unpackMantissa.trans ?_)
  change _ = 0
  omega

/-- A double has the bits that it is made of, if they are not beyond those of an infinite one. -/
lemma toBits_ofBits (h : b.toNat % 2 ^ 63 ≤ 2047 * 2 ^ 52) : (Float.ofBits b).toBits = b := by
  obtain ⟨v, hv⟩ : ∃ v : BitVec Format.binary64.numBits, v = b.toBitVec := ⟨_, rfl⟩
  have hnumber : unpackExponent v = -1#11 → unpackMantissa v = 0#52 := by
    rw [hv]
    exact unpackMantissa_eq_zero h
  show UInt64.ofBitVec
    (UnpackedFloat.pack .binary64 (UnpackedFloat.unpack .binary64 b.toBitVec)) = b
  rw [← hv, ← packComponents_unpack v, pack_unpack_packComponents _ hnumber,
    packComponents_unpack, hv]

end Fields

end Bits

/-! ## Rounding -/

section Rounding

variable {n k : ℕ}

lemma twoTo_add (a b : ℕ) : twoTo (a + b) = 2 ^ a * twoTo b := Nat.pow_add 2 a b

lemma lt_twoTo_iff (h : n ≠ 0) : n < twoTo k ↔ n.log2 < k := (Nat.log2_lt h).symm

lemma twoTo_le_iff (h : n ≠ 0) : twoTo k ≤ n ↔ k ≤ n.log2 := (Nat.le_log2 h).symm

lemma div_le_roundDiv (num den : ℕ) : num / den ≤ roundDiv num den := by
  simp only [roundDiv]
  split_ifs <;> omega

lemma roundDiv_le_div_succ (num den : ℕ) : roundDiv num den ≤ num / den + 1 := by
  simp only [roundDiv]
  split_ifs <;> omega

/-- A quotient is rounded to an even number, or beyond it, exactly if it is at most half below it.
-/
lemma even_le_roundDiv_iff {num den : ℕ} (hden : 0 < den) (heven : k % 2 = 0) (hpos : 0 < k) :
    k ≤ roundDiv num den ↔ (2 * k - 1) * den ≤ 2 * num := by
  obtain ⟨j, rfl⟩ : ∃ j, k = j + 1 := ⟨k - 1, by omega⟩
  have hnum : num = den * (num / den) + num % den := (Nat.div_add_mod num den).symm
  have hrest : num % den < den := Nat.mod_lt _ hden
  simp only [roundDiv]
  generalize num / den = floor at *
  generalize num % den = rest at *
  have hhalf : (2 * (j + 1) - 1) * den = 2 * (den * j) + den := by
    rw [show 2 * (j + 1) - 1 = 2 * j + 1 by omega, Nat.add_mul, Nat.mul_assoc, Nat.mul_comm j,
      Nat.one_mul]
  rw [hhalf, hnum]
  rcases Nat.lt_trichotomy floor j with hlt | rfl | hgt
  · have hmul : den * floor + den ≤ den * j := Nat.mul_le_mul_left den hlt
    refine iff_of_false ?_ (by omega)
    split_ifs <;> omega
  · split_ifs <;> omega
  · have hmul : den * j + den ≤ den * floor := Nat.mul_le_mul_left den hgt
    refine iff_of_true ?_ (by omega)
    split_ifs <;> omega

/-- A quotient is rounded to fewer than 54 binary digits if it is more than half below the least
number of so many digits. -/
lemma roundDiv_lt_iff (num : ℕ) {p : ℕ} (hp : 0 < p) :
    roundDiv num (2 * p) < 2 ^ 53 ↔ num < 2 ^ 54 * p - p := by
  have hround : 2 ^ 53 ≤ roundDiv num (2 * p) ↔ (2 * 2 ^ 53 - 1) * (2 * p) ≤ 2 * num :=
    even_le_roundDiv_iff (Nat.mul_pos Nat.two_pos hp) (by decide) (by decide)
  omega

end Rounding

/-! ## The range of doubles -/

namespace Binary

variable {n : ℕ}

lemma scale_one (h : n ≠ 0) : scale n 1 = (n.log2 : ℤ) - 52 := by
  have hone : (1 : ℕ).log2 = 0 := rfl
  have hleading : ¬n * twoTo (-((n.log2 : ℤ) - (0 : ℕ))).toNat <
      1 * twoTo ((n.log2 : ℤ) - (0 : ℕ)).toNat := by
    simpa [twoTo] using Nat.log2_self_le h
  simp only [scale, hone, if_neg hleading]
  omega

/-- The mantissa of an integer has 53 binary digits before it is rounded. -/
lemma mantissa_bounds (h : n ≠ 0) :
    2 ^ 52 * twoTo (scale n 1).toNat ≤ n * twoTo (-scale n 1).toNat ∧
      n * twoTo (-scale n 1).toNat < 2 ^ 53 * twoTo (scale n 1).toNat := by
  have hle : twoTo n.log2 ≤ n := (twoTo_le_iff h).mpr le_rfl
  have hlt : n < twoTo (1 + n.log2) := (lt_twoTo_iff h).mpr (by omega)
  rw [scale_one h]
  rcases Nat.le_total n.log2 52 with hsmall | hlarge
  · -- the digits that are missing are zeros behind those of the integer
    obtain ⟨missing, hmissing⟩ := Nat.exists_eq_add_of_le hsmall
    have hq : ((n.log2 : ℤ) - 52).toNat = 0 := by omega
    have hq' : (-((n.log2 : ℤ) - 52)).toNat = missing := by omega
    have hdigits : 2 ^ 52 = twoTo n.log2 * twoTo missing := by
      rw [hmissing]
      exact Nat.pow_add 2 _ _
    rw [twoTo_add] at hlt
    rw [hq, hq', show twoTo 0 = 1 from rfl, Nat.mul_one, Nat.mul_one,
      show 2 ^ 53 = 2 ^ 1 * 2 ^ 52 from rfl, hdigits, ← Nat.mul_assoc]
    exact ⟨Nat.mul_le_mul_right _ hle, Nat.mul_lt_mul_of_pos_right hlt (twoTo_pos missing)⟩
  · obtain ⟨more, hmore⟩ := Nat.exists_eq_add_of_le hlarge
    have hq : ((n.log2 : ℤ) - 52).toNat = more := by omega
    have hq' : (-((n.log2 : ℤ) - 52)).toNat = 0 := by omega
    rw [hmore, twoTo_add] at hle
    rw [hmore, ← Nat.add_assoc, twoTo_add] at hlt
    rw [hq, hq', show twoTo 0 = 1 from rfl, Nat.mul_one]
    exact ⟨hle, hlt⟩

/-- The mantissa of an integer has 53 binary digits, or is rounded to the least number of 54. -/
lemma rounded_bounds (h : n ≠ 0) :
    2 ^ 52 ≤ roundDiv (n * twoTo (-scale n 1).toNat) (twoTo (scale n 1).toNat) ∧
      roundDiv (n * twoTo (-scale n 1).toNat) (twoTo (scale n 1).toNat) ≤ 2 ^ 53 := by
  obtain ⟨hlower, hupper⟩ := mantissa_bounds h
  have hden : 0 < twoTo (scale n 1).toNat := twoTo_pos _
  exact ⟨((Nat.le_div_iff_mul_le hden).mpr hlower).trans (div_le_roundDiv _ _),
    (roundDiv_le_div_succ _ _).trans ((Nat.div_lt_iff_lt_mul hden).mpr hupper)⟩

/-- What the exponent and the mantissa of an integer come to stays below the bits of an infinite
number exactly if the integer is less than half a unit of the last place beyond the greatest
double. -/
lemma magnitude_lt_iff (h : n ≠ 0) :
    (scale n 1 + 1074).toNat * 2 ^ 52 +
        roundDiv (n * twoTo (-scale n 1).toNat) (twoTo (scale n 1).toNat) < 2047 * 2 ^ 52 ↔
      n < twoTo 1024 - twoTo 970 := by
  obtain ⟨hlower, hupper⟩ := rounded_bounds h
  have hpos : 0 < twoTo 970 := twoTo_pos 970
  have hgreatest : twoTo 1024 = 2 ^ 54 * twoTo 970 := twoTo_add 54 970
  have hq := scale_one h
  have hexponent : (scale n 1 + 1074).toNat = n.log2 + 1022 := by omega
  rw [hexponent]
  rcases Nat.lt_trichotomy n.log2 1023 with hless | heq | hmore
  · have hsmall : n < twoTo 1023 := (lt_twoTo_iff h).mpr hless
    rw [twoTo_add 53 970] at hsmall
    omega
  · have hq₁ : (scale n 1).toNat = 1 + 970 := by omega
    have hq₂ : (-scale n 1).toNat = 0 := by omega
    have hround := roundDiv_lt_iff n hpos
    rw [hq₁, hq₂, heq, twoTo_add, show twoTo 0 = 1 from rfl, Nat.mul_one, Nat.pow_one]
    omega
  · have hlarge : twoTo 1024 ≤ n := (twoTo_le_iff h).mpr hmore
    omega

lemma beyond_pos : 0 < twoTo 1024 - twoTo 970 := by
  have hgreatest : twoTo 1024 = 2 ^ 54 * twoTo 970 := twoTo_add 54 970
  have hpos : 0 < twoTo 970 := twoTo_pos 970
  omega

/-- Bits are those of a finite number if they are below those of an infinite one. -/
lemma exists_read_eq_finite_iff (negative : Bool) {k : ℕ} (hk : k ≤ 2047 * 2 ^ 52) :
    (∃ value, read (Float.ofBits (UInt64.ofNat (k + if negative then twoTo 63 else 0))) =
      .finite value) ↔ k < 2047 * 2 ^ 52 := by
  obtain ⟨sign, hsign, hcases⟩ : ∃ sign, (if negative then twoTo 63 else 0) = sign ∧
      (sign = 0 ∨ sign = 2 ^ 63) := by
    cases negative
    · exact ⟨0, rfl, Or.inl rfl⟩
    · exact ⟨_, rfl, Or.inr rfl⟩
  rw [hsign]
  have hval : (UInt64.ofNat (k + sign)).toNat = k + sign := by
    rw [UInt64.toNat_ofNat']
    omega
  have hbits : (Float.ofBits (UInt64.ofNat (k + sign))).toBits = UInt64.ofNat (k + sign) :=
    toBits_ofBits (by rw [hval]; omega)
  have hfield : (k + sign) / 2 ^ 52 % 2048 = 2047 ↔ ¬k < 2047 * 2 ^ 52 := by omega
  simp only [read, hbits, hval, twoTo, Nat.pow_eq, hfield]
  split_ifs <;> simp_all

/-- An integer is beyond every double if it is at least half a unit of the last place beyond the
greatest one. -/
theorem ofInt?_eq_none_iff {n : ℤ} : ofInt? n = none ↔ twoTo 1024 - twoTo 970 ≤ n.natAbs := by
  have hfinite : ofInt? n = none ↔
      ¬∃ value, read (nearest (n < 0) n.natAbs 1) = .finite value := by
    simp only [ofInt?]
    cases read (nearest (n < 0) n.natAbs 1) <;> simp
  rw [hfinite, nearest, ← not_lt, not_iff_not]
  simp only [Nat.one_mul]
  by_cases hzero : n.natAbs = 0
  · rw [if_pos hzero, exists_read_eq_finite_iff _ (by decide), hzero]
    exact iff_of_true (by decide) beyond_pos
  · rw [if_neg hzero]
    exact (exists_read_eq_finite_iff _ (Nat.min_le_right _ _)).trans
      (min_lt_iff.trans ((or_iff_left (lt_irrefl _)).trans (magnitude_lt_iff hzero)))

end Binary

end CiRunner.Decimal
