import Mathlib
import ToolDialogue.Proofs.Decimal.Nearest
import ToolDialogue.Proofs.Decimal.Packing

namespace ToolDialogue.Decimal

open Float.Model Float.Model.UnpackedFloat

theorem sign_toNat (b : BitVec 64) : (@unpackSign .binary64 b).toNat = b.toNat / Nat.pow 2 63 % 2 := by
  simp [unpackSign,Nat.shiftRight_eq_div_pow]

theorem toBitVec_ofBitVec (bit : BitVec 1) : (Sign.ofBitVec bit).toBitVec = bit := by
  revert bit
  decide

theorem packComponents_toNat (sign : Sign) (exponent : BitVec 11) (mantissa : BitVec 52) :
    (packComponents .binary64 sign exponent mantissa).toNat =
      (sign.toBitVec.toNat * 2^11 + exponent.toNat) * 2^52 + mantissa.toNat := by
  unfold packComponents
  rw [BitVec.toNat_append,← Nat.shiftLeft_add_eq_or_of_lt (BitVec.isLt _),BitVec.toNat_append,
    ← Nat.shiftLeft_add_eq_or_of_lt (BitVec.isLt _),Nat.shiftLeft_eq,Nat.shiftLeft_eq]

theorem packComponents_parts (b : BitVec 64) :
    packComponents .binary64 (Sign.ofBitVec (@unpackSign .binary64 b)) (@unpackExponent .binary64 b)
      (@unpackMantissa .binary64 b) = b := by
  apply BitVec.eq_of_toNat_eq
  rw [packComponents_toNat,toBitVec_ofBitVec,sign_toNat,exponent_toNat,mantissa_toNat]
  have bound := b.isLt
  simp only [Nat.pow_eq]
  omega

theorem implied_toNat (mantissa : BitVec 52) : (1#1 ++ mantissa).toNat = 2^52 + mantissa.toNat := by
  rw [BitVec.toNat_append,← Nat.shiftLeft_add_eq_or_of_lt (BitVec.isLt _)]
  rfl

theorem implied_fits (mantissa : BitVec 52) : Fits (1#1 ++ mantissa).toNat := by
  have bound := mantissa.isLt
  rw [implied_toNat]
  exact ⟨by omega,by omega⟩

theorem pack_unpack (b : BitVec 64) (finite : (UnpackedFloat.unpack .binary64 b).isFinite = true) :
    UnpackedFloat.pack .binary64 (UnpackedFloat.unpack .binary64 b) = b := by
  refine Eq.trans ?_ (packComponents_parts b)
  have bias : Format.exponentBias .binary64 = 1023 := rfl
  unfold UnpackedFloat.unpack at finite ⊢
  dsimp only at finite ⊢
  split at finite
  · split at finite <;> cases finite
  · next top =>
    rw [if_neg top]
    have below : (@unpackExponent .binary64 b).toNat < 2047 := by
      have bound := (@unpackExponent .binary64 b).isLt
      have other : (@unpackExponent .binary64 b).toNat ≠ 2047 := fun same => top (BitVec.eq_of_toNat_eq same)
      change _ < 2^11 at bound
      omega
    split
    · next zero =>
      split
      · next none =>
        rw [none,zero]
        rfl
      · next some =>
        have narrow : (@unpackMantissa .binary64 b).toNat.log2 ≤ 51 := log2_less (BitVec.isLt _)
        have least : ¬971 < ((@unpackExponent .binary64 b).toNat : ℤ) - ((1023 : ℕ) + (52 : ℕ)) + 1 := by
          rw [zero]
          decide
        rw [pack_finite,bias,if_neg least,if_neg (by omega),zero,BitVec.ofNat_toNat,BitVec.setWidth_eq]
    · next normal =>
      have wide : (1#1 ++ @unpackMantissa .binary64 b).toNat.log2 = 52 := (implied_fits _).log2
      have same : (((@unpackExponent .binary64 b).toNat : ℤ) - ((1023 : ℕ) + (52 : ℕ)) + 1075).toNat =
          (@unpackExponent .binary64 b).toNat := by
        omega
      have fraction : BitVec.ofNat 52 (1#1 ++ @unpackMantissa .binary64 b).toNat = @unpackMantissa .binary64 b := by
        apply BitVec.eq_of_toNat_eq
        rw [BitVec.toNat_ofNat,implied_toNat,Nat.add_mod_left,Nat.mod_eq_of_lt (BitVec.isLt _)]
      rw [pack_finite,bias,same,if_neg (by omega),if_pos wide,fraction,BitVec.ofNat_toNat,BitVec.setWidth_eq]

theorem Double.pack_unpack (x : Float) (finite : x.isFinite = true) : .ofModel (.pack x.toModel.unpack) = x := by
  obtain ⟨⟨bits,valid⟩⟩ := x
  have same := Decimal.pack_unpack bits.toBitVec finite
  change Float.ofModel (.pack (UnpackedFloat.unpack .binary64 bits.toBitVec)) = _
  simp only [Float.Model.pack,same]

theorem unpack_pack_subnormal {m : ℕ} (sign : Sign) (positive : 0 < m) (narrow : m < 2^52) :
    (Float.Model.pack (.finite sign m (-1074) positive)).unpack = .finite sign m (-1074) positive := by
  have short : m.log2 ≤ 51 := log2_less narrow
  have fraction : (BitVec.ofNat 52 m).toNat = m := by rw [BitVec.toNat_ofNat,Nat.mod_eq_of_lt narrow]
  have some : BitVec.ofNat 52 m ≠ 0#52 := by
    intro none
    rw [none] at fraction
    exact positive.ne fraction
  change UnpackedFloat.unpack .binary64 (UnpackedFloat.pack .binary64 (.finite sign m (-1074) positive)) = _
  rw [pack_finite,if_neg (by decide),if_neg (by omega),UnpackedFloat.unpack]
  simp only [unpackExponent_packComponents,unpackMantissa_packComponents,unpackSign_packComponents,
    Sign.ofBitVec_toBitVec,some,fraction]
  rfl

theorem unpack_pack_canonical {b : Binary} (sign : Sign) (canonical : b.Canonical) (positive : 0 < b.mantissa)
    (within : b.exponent ≤ 971) :
    (Float.Model.pack (.finite sign b.mantissa b.exponent positive)).unpack =
      .finite sign b.mantissa b.exponent positive := by
  obtain ⟨m,e⟩ := b
  by_cases wide : 2^52 ≤ m
  · rw [unpack_pack sign ⟨wide,canonical.narrow⟩ canonical.least,if_pos within]
  · obtain rfl : e = -1074 := canonical.full.resolve_left wide
    exact unpack_pack_subnormal sign positive (Nat.lt_of_not_le wide)

theorem unpack_isFinite {b : BitVec 64} (below : @unpackExponent .binary64 b ≠ -1#11) :
    (UnpackedFloat.unpack .binary64 b).isFinite = true := by
  rw [UnpackedFloat.unpack]
  dsimp only
  rw [if_neg below]
  split
  · split <;> rfl
  · rfl

theorem pack_isFinite {m : ℕ} {e : ℤ} (sign : Sign) (positive : 0 < m) (within : e ≤ 971) :
    (Float.Model.pack (.finite sign m e positive)).unpack.isFinite = true := by
  refine unpack_isFinite (b := UnpackedFloat.pack .binary64 (.finite sign m e positive)) ?_
  rw [pack_finite,if_neg (Int.not_lt.mpr within)]
  split
  · rw [unpackExponent_packComponents,Ne,← BitVec.toNat_inj,BitVec.toNat_ofNat,Nat.mod_eq_of_lt (by omega)]
    change ¬_ = 2047
    omega
  · rw [unpackExponent_packComponents]
    decide

theorem shiftToTarget_exponent (m : ℕ) (e : ℤ) (accuracy : Accuracy) :
    (shiftToTargetExponent .binary64 m e accuracy).2 = max e (max (m.log2 + 1 + e - 53) (-1074)) := by
  change e + ((max (m.log2 + 1 + e - 53) (-1074) - e).toNat : ℤ) = _
  omega

-- Neither shift lets the exponent grow by more than there are bits, so the product of two
-- mantissas is in range unless its exponent is large.
theorem round_isFinite {m : ℕ} {e : ℤ} (sign : Sign) (narrow : m < 2^106) (small : e ≤ 0) :
    (Float.Model.pack (roundWithAccuracy .binary64 sign m e .exact)).unpack.isFinite = true := by
  have width : m.log2 ≤ 105 := log2_less narrow
  have exponent := shiftToTarget_exponent m e .exact
  obtain ⟨shift,mantissa⟩ : ∃ shift : ℕ, (shiftToTargetExponent .binary64 m e .exact).1 =
      ExtendedMantissa.ofMantissaAndAccuracy m .exact >>> shift := ⟨_,rfl⟩
  have tells := (tells_exact m).shiftRight shift
  rw [← mantissa] at tells
  have less : (m : ℚ)/2^shift ≤ m := div_le_self (Nat.cast_nonneg m) (one_le_pow₀ (by norm_num))
  obtain ⟨-,more,-⟩ := tells.rounded
  unfold roundWithAccuracy
  generalize shiftToTargetExponent .binary64 m e .exact = first at exponent tells more ⊢
  obtain ⟨em,power⟩ := first
  dsimp only at exponent tells more ⊢
  have floor : em.mantissa ≤ m := by
    have low : (em.mantissa : ℚ) ≤ m := by linarith [tells.bounds.1]
    exact_mod_cast low
  have wider : em.roundedMantissa.log2 ≤ 106 := log2_less (by omega)
  have final := shiftToTarget_exponent em.roundedMantissa power .exact
  generalize shiftToTargetExponent .binary64 em.roundedMantissa power .exact = last at final ⊢
  split
  · cases sign <;> rfl
  · exact pack_isFinite sign _ (by omega)

namespace Double

variable {x : Float} {negative : Bool} {b : Binary}

theorem of_canonical (read : Double.of x = .finite negative b) : b.Canonical ∧ b.exponent ≤ 971 := by
  unfold Double.of Double.ofBits at read
  dsimp only at read
  have fraction : x.toBits.toNat % Nat.pow 2 52 < 2^52 := Nat.mod_lt _ (by decide)
  have raised : x.toBits.toNat / Nat.pow 2 52 % 2048 < 2048 := Nat.mod_lt _ (by decide)
  generalize x.toBits.toNat / Nat.pow 2 52 % 2048 = raised at *
  generalize x.toBits.toNat % Nat.pow 2 52 = fraction at *
  have unit : Nat.pow 2 52 = 2^52 := rfl
  split at read
  · split at read <;> cases read
  · split at read
    · cases read
      exact ⟨⟨by dsimp only; omega,Int.le_refl _,.inr rfl⟩,by dsimp only; omega⟩
    · cases read
      exact ⟨⟨by dsimp only; omega,by dsimp only; omega,.inl (by dsimp only; omega)⟩,by dsimp only; omega⟩

theorem of_finite (read : Double.of x = .finite negative b) :
    (b.mantissa = 0 ∧ x.toModel.unpack = .zero (if negative then .negative else .positive)) ∨
      ∃ positive : 0 < b.mantissa,
        x.toModel.unpack = .finite (if negative then .negative else .positive) b.mantissa b.exponent positive := by
  rw [Double.of_eq] at read
  have signs (sign : Sign) : (if sign == .negative then Sign.negative else .positive) = sign := by cases sign <;> rfl
  cases spelled : x.toModel.unpack with
  | infinity sign => rw [spelled] at read; cases read
  | notANumber => rw [spelled] at read; cases read
  | zero sign =>
    rw [spelled] at read
    cases read
    exact .inl ⟨rfl,by rw [signs]⟩
  | finite sign m e positive =>
    rw [spelled] at read
    cases read
    exact .inr ⟨positive,by rw [signs]⟩

theorem of_isFinite (finite : x.isFinite = true) : ∃ negative b, Double.of x = .finite negative b := by
  change x.toModel.unpack.isFinite = true at finite
  rw [Double.of_eq]
  cases spelled : x.toModel.unpack with
  | infinity sign => rw [spelled] at finite; cases finite
  | notANumber => rw [spelled] at finite; cases finite
  | zero sign => exact ⟨_,_,rfl⟩
  | finite sign m e positive => exact ⟨_,_,rfl⟩

end Double

end ToolDialogue.Decimal
