import Mathlib
import ToolDialogue.Proofs.Decimal.Unpacking

namespace ToolDialogue.Decimal

open Float.Model Float.Model.UnpackedFloat

variable {b : Binary}

theorem toFloat_unpack {n : ℕ} (positive : 0 < n) (narrow : n < 2^53) :
    ∃ (m zeros : ℕ) (fits : Fits m), n * 2^zeros = m ∧
      n.toUInt64.toFloat.toModel.unpack = .finite .positive m (-zeros) fits.pos := by
  have short : n.log2 ≤ 52 := log2_less narrow
  have bits := (Nat.log2_eq_iff positive.ne').mp rfl
  obtain ⟨zeros,all⟩ := Nat.exists_eq_add_of_le short
  have fits : Fits (n * 2^zeros) := by
    have low : 2^n.log2 * 2^zeros ≤ n * 2^zeros := Nat.mul_le_mul_right _ bits.1
    have high : n * 2^zeros < 2^(n.log2 + 1) * 2^zeros := Nat.mul_lt_mul_of_pos_right bits.2 (Nat.two_pow_pos zeros)
    rw [← pow_add] at low high
    rw [show n.log2 + zeros = 52 by omega] at low
    rw [show n.log2 + 1 + zeros = 53 by omega] at high
    exact ⟨low,high⟩
  refine ⟨n * 2^zeros,zeros,fits,rfl,?_⟩
  have word : n.toUInt64.toNat = n := Nat.mod_eq_of_lt (by omega)
  have canonical : Binary.Canonical ⟨n * 2^zeros,-zeros⟩ := ⟨fits.narrow,by dsimp only; omega,.inl fits.wide⟩
  have near : Binary.Near ⟨n * 2^zeros,-zeros⟩ (((n * 2^zeros : ℕ) : ℚ)/2^0) := by
    simpa using Binary.near_self ⟨n * 2^zeros,-zeros⟩
  have rounded := round_near .positive canonical fits.pos (add_zero _) (tells_exact (n * 2^zeros)) near
  have made : n.toUInt64.toFloat.toModel = .pack (.finite .positive (n * 2^zeros) (-zeros) fits.pos) := by
    change Float.Model.pack (UnpackedFloat.normalize .binary64 (n.toUInt64.toNat : ℤ) 0 .positive) = _
    have order : compare (n : ℤ) 0 = .gt := Int.compare_eq_gt.mpr (by exact_mod_cast positive)
    have amount : (0 - max ((n.log2 : ℤ) + 1 + 0 - 53) (-1074)).toNat = zeros := by omega
    rw [word,UnpackedFloat.normalize,order]
    dsimp only
    rw [Int.toNat_natCast,UnpackedFloat.round,target_eq,decreaseExponent]
    dsimp only
    rw [amount,Nat.shiftLeft_eq,zero_sub,rounded]
  rw [made]
  exact unpack_pack_canonical .positive canonical fits.pos (by dsimp only; omega)

-- The table of powers of ten holds the powers themselves.
def isPower (j : ℕ) (x : Float) : Bool :=
  match x.toModel.unpack with
  | .finite .positive m e _ => m * 2^e.toNat == 10^j * 2^(-e).toNat
  | _ => false

theorem powers_exact : ∀ j : Fin Float.exactlyRepresentablePowersOfTen.size,
    isPower j Float.exactlyRepresentablePowersOfTen[j] = true := by decide +kernel

theorem isPower_value {j : ℕ} {x : Float} (power : isPower j x = true) :
    ∃ (m : ℕ) (e : ℤ) (positive : 0 < m), x.toModel.unpack = .finite .positive m e positive ∧ (m : ℚ) * 2^e = 10^j := by
  unfold isPower at power
  split at power
  · next m e positive read =>
    refine ⟨m,e,positive,read,?_⟩
    have equal : (m : ℚ) * 2^e.toNat = 10^j * 2^(-e).toNat := by exact_mod_cast beq_iff_eq.mp power
    have scaled := Binary.value_eq ⟨m,e⟩
    have unit : (2 : ℚ)^(-e).toNat ≠ 0 := by positivity
    refine mul_right_cancel₀ unit ?_
    rw [← equal]
    simpa [Binary.value,Binary.ratio] using scaled
  · cases power

-- What is near a double has not more places than there are powers of two.
theorem places_less {n j : ℕ} (canonical : b.Canonical) (positive : 0 < b.mantissa)
    (near : b.Near (n/10^j/2^b.exponent)) : j ≤ 2048 + n.log2 := by
  have one : (1 : ℚ) ≤ b.mantissa := by exact_mod_cast positive
  have half : (1/2 : ℚ) ≤ n/10^j/2^b.exponent := by linarith [near.half.1]
  rw [le_div_iff₀ (by positivity),le_div_iff₀ (by positivity)] at half
  have ten : (2 : ℚ)^(j : ℤ) ≤ 10^j := by
    rw [zpow_natCast]
    exact pow_le_pow_left₀ (by norm_num) (by norm_num) j
  have wide : (n : ℚ) < 2^((n.log2 + 1 : ℕ) : ℤ) := by
    rw [zpow_natCast]
    exact_mod_cast Nat.lt_log2_self
  have chain : (2 : ℚ)^((-1 : ℤ) + b.exponent + j) < 2^((n.log2 + 1 : ℕ) : ℤ) := by
    rw [zpow_add₀ two_ne_zero,zpow_add₀ two_ne_zero]
    calc (2 : ℚ)^(-1 : ℤ) * 2^b.exponent * 2^(j : ℤ) ≤ 1/2 * 2^b.exponent * 10^j := by
          rw [show (2 : ℚ)^(-1 : ℤ) = 1/2 by norm_num]
          gcongr
      _ ≤ n := half
      _ < _ := wide
  have exponents := (zpow_lt_zpow_iff_right₀ (by norm_num : (1 : ℚ) < 2)).mp chain
  have least := canonical.least
  omega

theorem unpacked_near {n j : ℕ} (digits : 0 < n) (slow : ¬(n < 2^53 ∧ j ≤ 22)) (canonical : b.Canonical)
    (positive : 0 < b.mantissa) (near : b.Near (n/10^j/2^b.exponent)) :
    UnpackedFloat.ofScientific .binary64 n (-(j : ℤ)) = .finite .positive b.mantissa b.exponent positive := by
  have few := places_less canonical positive near
  rw [UnpackedFloat.ofScientific,dif_neg digits.ne',if_neg (by change ¬(-(j : ℤ) > 2^11); omega),
    if_neg (by change ¬(-(j : ℤ) < -((2^11 : ℤ) + n.log2)); omega)]
  split
  · next whole =>
    obtain rfl : j = 0 := by omega
    have large : (2^53 : ℚ) ≤ n := by exact_mod_cast (by omega : 2^53 ≤ n)
    have less := near.less canonical
    rw [pow_zero,div_one,div_lt_iff₀ (by positivity)] at less
    have above : 0 < b.exponent := by
      by_contra below
      have small : (2 : ℚ)^b.exponent ≤ 1 := zpow_le_one_of_nonpos₀ (by norm_num) (by omega)
      linarith
    obtain ⟨places,up⟩ := Int.eq_ofNat_of_zero_le (show 0 ≤ b.exponent + 53 by omega)
    rw [UnpackedFloat.mul]
    have finer : -53 + 0 + (places : ℤ) = b.exponent := by omega
    refine round_near _ canonical positive finer (tells_exact _) ?_
    · convert near using 1
      have unit : (2 : ℚ)^b.exponent * 2^53 = 2^places := by
        rw [← zpow_natCast,← zpow_natCast,← zpow_add₀ two_ne_zero,← up]
        rfl
      rw [Nat.shiftLeft_eq]
      change ((n * 2^53 * 1 : ℕ) : ℚ)/2^places = _
      rw [← unit]
      push_cast
      field_simp
      norm_num
  · next places =>
    refine div_near .positive .positive digits _ canonical positive ?_
    simpa using near

theorem scientific_near {n j : ℕ} (digits : 0 < n) (canonical : b.Canonical) (positive : 0 < b.mantissa)
    (near : b.Near (n/10^j/2^b.exponent)) :
    (Float.ofScientific n true j).toModel = .pack (.finite .positive b.mantissa b.exponent positive) := by
  unfold Float.ofScientific
  split
  · next fast =>
    obtain ⟨m,zeros,fits,shifted,read⟩ := toFloat_unpack digits fast.1
    have listed : j < Float.exactlyRepresentablePowersOfTen.size := Nat.lt_succ_of_le fast.2
    have power : isPower j Float.exactlyRepresentablePowersOfTen[j] = true := powers_exact ⟨j,listed⟩
    obtain ⟨m',e',positive',read',value⟩ := isPower_value power
    change Float.Model.pack (UnpackedFloat.div .binary64 n.toUInt64.toFloat.toModel.unpack
      Float.exactlyRepresentablePowersOfTen[j].toModel.unpack) = _
    rw [read,read',div_near .positive .positive fits.pos positive' canonical positive]
    · rfl
    · rw [value,← shifted]
      push_cast
      rw [mul_assoc,zpow_neg,zpow_natCast,mul_inv_cancel₀ (by positivity),mul_one]
      exact near
  · next slow =>
    have spelled : Int.negOfNat j = -(j : ℤ) := Int.negOfNat_eq
    change Float.Model.pack (UnpackedFloat.ofScientific .binary64 n (Int.negOfNat j)) = _
    rw [spelled,unpacked_near digits slow canonical positive near]

end ToolDialogue.Decimal
