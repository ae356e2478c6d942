import Mathlib
import ToolDialogue.Proofs.Decimal.Rounding

namespace ToolDialogue.Decimal

open Float.Model Float.Model.UnpackedFloat

def Double.unpacked : UnpackedFloat → Double
  | .notANumber => .nan
  | .infinity sign => .infinite (sign == .negative)
  | .zero sign => .finite (sign == .negative) ⟨0,-1074⟩
  | .finite sign m e _ => .finite (sign == .negative) ⟨m,e⟩

theorem exponent_toNat (b : BitVec 64) :
    (@unpackExponent .binary64 b).toNat = b.toNat / Nat.pow 2 52 % 2048 := by
  simp [unpackExponent,Nat.shiftRight_eq_div_pow]

theorem mantissa_toNat (b : BitVec 64) :
    (@unpackMantissa .binary64 b).toNat = b.toNat % Nat.pow 2 52 := by
  simp [unpackMantissa]

theorem sign_negative (b : BitVec 64) :
    (Sign.ofBitVec (@unpackSign .binary64 b) == .negative) = (b.toNat / Nat.pow 2 63 % 2 == 1) := by
  have bit : (@unpackSign .binary64 b).toNat = b.toNat / Nat.pow 2 63 % 2 := by
    simp [unpackSign,Nat.shiftRight_eq_div_pow]
  generalize @unpackSign .binary64 b = sign at bit
  rw [← bit]
  clear bit
  revert sign; decide

theorem Double.ofBits_eq (b : BitVec 64) : Double.ofBits b.toNat = .unpacked (UnpackedFloat.unpack .binary64 b) := by
  have top : (@unpackExponent .binary64 b = -1#_) ↔ b.toNat / Nat.pow 2 52 % 2048 = 2047 := by
    rw [← exponent_toNat,← BitVec.toNat_inj]; rfl
  have bottom : (@unpackExponent .binary64 b = 0#_) ↔ b.toNat / Nat.pow 2 52 % 2048 = 0 := by
    rw [← exponent_toNat,← BitVec.toNat_inj]; rfl
  have bare : (@unpackMantissa .binary64 b = 0#_) ↔ b.toNat % Nat.pow 2 52 = 0 := by
    rw [← mantissa_toNat,← BitVec.toNat_inj]; rfl
  have implied : (1#1 ++ @unpackMantissa .binary64 b).toNat = b.toNat % Nat.pow 2 52 + Nat.pow 2 52 := by
    rw [BitVec.toNat_append,← Nat.shiftLeft_add_eq_or_of_lt (BitVec.isLt _),mantissa_toNat,Nat.add_comm]; rfl
  rw [Double.ofBits,UnpackedFloat.unpack]
  simp only [top,bottom,bare]
  split
  · split
    · simp [Double.unpacked,sign_negative]
    · rfl
  · split
    · next least =>
      split
      · next none => rw [none,Double.unpacked,sign_negative]
      · rw [Double.unpacked,sign_negative,mantissa_toNat,exponent_toNat,least]; rfl
    · rw [Double.unpacked,sign_negative,implied,exponent_toNat]; rfl

theorem Double.of_eq (x : Float) : Double.of x = .unpacked x.toModel.unpack := Double.ofBits_eq _

-- What is too large is packed as infinity. Of full width the leading one is left out, and what
-- is narrower has all its bits below the least exponent.
theorem pack_finite (sign : Sign) {m : ℕ} {e : ℤ} (positive : 0 < m) :
    UnpackedFloat.pack .binary64 (.finite sign m e positive) =
      if 971 < e then packedInfinity .binary64 sign
      else if m.log2 = 52 then packComponents .binary64 sign (BitVec.ofNat 11 (e + 1075).toNat) (BitVec.ofNat 52 m)
      else packComponents .binary64 sign 0#11 (BitVec.ofNat 52 m) := by
  have raised : e + (Format.exponentBias .binary64 : ℕ) + (52 : ℕ) = e + 1075 := by
    rw [show Format.exponentBias .binary64 = 1023 from rfl]
    omega
  have large : 2048 ≤ (e + 1075).toNat + 1 ↔ 971 < e := by omega
  have full : m.log2 + 1 = 53 ↔ m.log2 = 52 := by omega
  change (if 2048 ≤ (e + (Format.exponentBias .binary64 : ℕ) + (52 : ℕ)).toNat + 1 then _ else
    if m.log2 + 1 = 53 then packComponents .binary64 sign (BitVec.ofNat 11 (e + (Format.exponentBias .binary64 : ℕ) +
      (52 : ℕ)).toNat) _ else _) = _
  simp only [raised,large,full]

theorem unpack_pack {f : ℕ} {e : ℤ} (sign : Sign) (fits : Fits f) (above : -1074 ≤ e) :
    (Float.Model.pack (.finite sign f e fits.pos)).unpack =
      if e ≤ 971 then .finite sign f e fits.pos else .infinity sign := by
  change UnpackedFloat.unpack .binary64 (UnpackedFloat.pack .binary64 (.finite sign f e fits.pos)) = _
  rw [pack_finite]
  by_cases within : e ≤ 971
  · have spelled : (BitVec.ofNat 11 (e + 1075).toNat).toNat = (e + 1075).toNat := by
      rw [BitVec.toNat_ofNat,Nat.mod_eq_of_lt (by omega)]
    have top : BitVec.ofNat 11 (e + 1075).toNat ≠ -1#11 := by
      rw [ne_eq,← BitVec.toNat_inj,spelled]; change ¬(e + 1075).toNat = 2047; omega
    have bottom : BitVec.ofNat 11 (e + 1075).toNat ≠ 0#11 := by
      rw [ne_eq,← BitVec.toNat_inj,spelled]; change ¬(e + 1075).toNat = 0; omega
    have implied : (1#1 ++ BitVec.ofNat 52 f).toNat = f := by
      rw [BitVec.toNat_append,← Nat.shiftLeft_add_eq_or_of_lt (BitVec.isLt _),BitVec.toNat_ofNat]
      change 2^52 + f % 2^52 = f
      have wide := fits.wide
      have narrow := fits.narrow
      omega
    rw [if_pos within,if_neg (Int.not_lt.mpr within),if_pos fits.log2,UnpackedFloat.unpack]
    simp only [unpackExponent_packComponents,unpackMantissa_packComponents,unpackSign_packComponents,
      Sign.ofBitVec_toBitVec,top,bottom,
      if_false,implied,spelled]
    congr 1
    change ((e + 1075).toNat : ℤ) - (1023 + 52) = e
    omega
  · rw [if_neg within,if_pos (Int.not_le.mp within),packedInfinity,UnpackedFloat.unpack]
    simp only [unpackExponent_packComponents,unpackMantissa_packComponents,unpackSign_packComponents,
      Sign.ofBitVec_toBitVec]
    rfl

end ToolDialogue.Decimal
