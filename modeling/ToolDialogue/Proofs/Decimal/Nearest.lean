import Mathlib.Tactic.FieldSimp
import ToolDialogue.Proofs.Decimal.Rounding

namespace ToolDialogue.Decimal

open Float.Model Float.Model.UnpackedFloat

theorem Tells.nearest {em : ExtendedMantissa} {value : ℚ} (tells : Tells em value) {n : ℕ}
    (low : (n : ℚ) - 1/2 ≤ value) (high : value ≤ n + 1/2)
    (odd : n % 2 = 1 → (n : ℚ) - 1/2 < value ∧ value < n + 1/2) : em.roundedMantissa = n := by
  obtain ⟨m,round,sticky⟩ := em
  have same : (m : ℚ) < n + 1 → (n : ℚ) < m + 1 → m = n := by
    intro less more
    have less' : m < n + 1 := by exact_mod_cast less
    have more' : n < m + 1 := by exact_mod_cast more
    omega
  have next : (m : ℚ) < n → (n : ℚ) < m + 2 → m + 1 = n := by
    intro less more
    have less' : m < n := by exact_mod_cast less
    have more' : n < m + 2 := by exact_mod_cast more
    omega
  cases round <;> cases sticky <;>
    simp only [Tells,Rest,ExtendedMantissa.roundedMantissa,ExtendedMantissa.accuracy,
      Accuracy.roundToNearestEven] at tells ⊢
  · exact same (by linarith) (by linarith)
  · exact same (by linarith) (by linarith)
  · -- the value is in the middle, so only an even number is near enough
    have parity : n % 2 = 0 := by
      by_contra other
      obtain ⟨above,below⟩ := odd (by omega)
      have first : (m : ℚ) < n := by linarith
      have last : (n : ℚ) < m + 1 := by linarith
      have first' : m < n := by exact_mod_cast first
      have last' : n < m + 1 := by exact_mod_cast last
      omega
    have least : (m : ℚ) ≤ n := by linarith
    have most : (n : ℚ) ≤ m + 1 := by linarith
    have least' : m ≤ n := by exact_mod_cast least
    have most' : n ≤ m + 1 := by exact_mod_cast most
    omega
  · exact next (by linarith) (by linarith)

structure Binary.Canonical (b : Binary) : Prop where
  narrow : b.mantissa < 2^53
  least : -1074 ≤ b.exponent
  full : 2^52 ≤ b.mantissa ∨ b.exponent = -1074

def Binary.below (b : Binary) : ℚ := if b.mantissa = 2^52 ∧ b.exponent ≠ -1074 then 1/4 else 1/2

-- The values, in units of the last place, that no other double is nearer to. The two ends are as
-- near to the neighbour, and go to the even one.
structure Binary.Near (b : Binary) (value : ℚ) : Prop where
  low : b.mantissa - b.below ≤ value
  high : value ≤ b.mantissa + 1/2
  odd : b.mantissa % 2 = 1 → b.mantissa - b.below < value ∧ value < b.mantissa + 1/2

variable {b : Binary} {m : ℕ} {e : ℤ} {accuracy : Accuracy} {value : ℚ}

theorem Binary.below_cases (b : Binary) :
    b.below = 1/2 ∨ b.below = 1/4 ∧ b.mantissa = 2^52 ∧ b.exponent ≠ -1074 := by
  unfold Binary.below
  split
  · next edge => exact .inr ⟨rfl,edge⟩
  · exact .inl rfl

theorem Binary.near_self (b : Binary) : b.Near b.mantissa := by
  have positive : 0 < b.below := by
    obtain half | ⟨quarter,-⟩ := b.below_cases
    · rw [half]
      norm_num
    · rw [quarter]
      norm_num
  exact ⟨by linarith,by linarith,fun _ => ⟨by linarith,by linarith⟩⟩

theorem Binary.Near.half (near : b.Near value) : (b.mantissa : ℚ) - 1/2 ≤ value ∧
    (b.mantissa % 2 = 1 → (b.mantissa : ℚ) - 1/2 < value ∧ value < b.mantissa + 1/2) := by
  have low := near.low
  obtain half | ⟨quarter,edge,-⟩ := b.below_cases
  · rw [half] at low
    refine ⟨low,fun odd => ?_⟩
    have ends := near.odd odd
    rwa [half] at ends
  · rw [quarter] at low
    refine ⟨by linarith,fun odd => ?_⟩
    rw [edge] at odd
    cases odd

theorem target_eq (m : ℕ) (e : ℤ) :
    Format.targetExponent .binary64 (totalExponent m e) = max (m.log2 + 1 + e - 53) (-1074) := rfl

theorem log2_less {m n : ℕ} (less : m < 2^(n+1)) : m.log2 ≤ n := by
  by_cases zero : m = 0
  · rw [zero]
    exact Nat.zero_le n
  · exact Nat.le_of_lt_succ ((Nat.log2_lt zero).mpr less)

theorem Binary.Canonical.settles (canonical : b.Canonical) (positive : 0 < b.mantissa) (zeros : ℕ) :
    (shiftToTargetExponent .binary64 (b.mantissa * 2^zeros) (b.exponent - zeros) .exact).1.mantissa = b.mantissa ∧
      (shiftToTargetExponent .binary64 (b.mantissa * 2^zeros) (b.exponent - zeros) .exact).2 = b.exponent := by
  have width : (b.mantissa * 2^zeros).log2 = b.mantissa.log2 + zeros := by
    rw [Nat.log2_eq_iff (by positivity),pow_add,add_right_comm,pow_add]
    have bits := (Nat.log2_eq_iff positive.ne').mp rfl
    exact ⟨Nat.mul_le_mul_right _ bits.1,Nat.mul_lt_mul_of_pos_right bits.2 (Nat.two_pow_pos zeros)⟩
  have short : b.mantissa.log2 ≤ 52 := log2_less canonical.narrow
  have target : max ((b.mantissa * 2^zeros).log2 + 1 + (b.exponent - zeros) - 53) (-1074) = b.exponent := by
    rw [width]
    have least := canonical.least
    rcases canonical.full with wide | same
    · have long := long_of_wide wide
      omega
    · omega
  unfold shiftToTargetExponent shiftToExponent
  dsimp only
  rw [target_eq,target,show (b.exponent - (b.exponent - (zeros : ℤ))).toNat = zeros by omega]
  have tells := (tells_exact (b.mantissa * 2^zeros)).shiftRight zeros
  have value : ((b.mantissa * 2^zeros : ℕ) : ℚ) / 2^zeros = b.mantissa := by
    push_cast
    exact mul_div_cancel_right₀ _ (by positivity)
  rw [value] at tells
  obtain ⟨above,under⟩ := tells.bounds
  refine ⟨?_,by omega⟩
  generalize (ExtendedMantissa.ofMantissaAndAccuracy (b.mantissa * 2^zeros) .exact >>> zeros).mantissa = left at *
  have least : (left : ℚ) ≤ b.mantissa := by linarith
  have most : (b.mantissa : ℚ) < left + 1 := by linarith
  have least' : left ≤ b.mantissa := by exact_mod_cast least
  have most' : b.mantissa < left + 1 := by exact_mod_cast most
  omega

theorem Tells.floor (tells : Tells (.ofMantissaAndAccuracy m accuracy) value) : m ≤ value ∧ value < m + 1 := by
  obtain ⟨low,high⟩ := tells.bounds
  have mantissa : (ExtendedMantissa.ofMantissaAndAccuracy m accuracy).mantissa = m := by
    rcases accuracy with - | ⟨- | - | -⟩ <;> rfl
  rw [mantissa] at low high
  exact ⟨by linarith,by linarith⟩

theorem Binary.Near.less (near : b.Near value) (canonical : b.Canonical) : value < 2^53 := by
  have narrow : (b.mantissa : ℚ) + 1 ≤ 2^53 := by exact_mod_cast canonical.narrow
  linarith [near.high]

theorem Tells.le_log2 (tells : Tells (.ofMantissaAndAccuracy m accuracy) value) {k : ℕ} (least : 2^k ≤ value) :
    k ≤ m.log2 := by
  have above : (2^k : ℚ) < m + 1 := least.trans_lt tells.floor.2
  have reached : 2^k ≤ m := Nat.le_of_lt_succ (by exact_mod_cast above)
  exact (Nat.le_log2 (Nat.lt_of_lt_of_le (Nat.two_pow_pos k) reached).ne').mpr reached

theorem Tells.log2_le (tells : Tells (.ofMantissaAndAccuracy m accuracy) value) {k : ℕ} (less : value < 2^(k+1)) :
    m.log2 ≤ k := by
  have below := tells.floor.1.trans_lt less
  exact log2_less (by exact_mod_cast below)

theorem Binary.Near.edge (near : b.Near value) (wide : 2^52 ≤ b.mantissa) (more : b.exponent ≠ -1074)
    (short : value < 2^52) : b.mantissa = 2^52 ∧ 2^52 - 1/4 ≤ value := by
  have edge : b.mantissa = 2^52 := by
    have above : (b.mantissa : ℚ) < 2^52 + 1 := by linarith [near.half.1]
    have above' : b.mantissa < 2^52 + 1 := by exact_mod_cast above
    omega
  have quarter : b.below = 1/4 := if_pos ⟨edge,more⟩
  have low := near.low
  rw [quarter,edge] at low
  push_cast at low
  exact ⟨edge,low⟩

theorem Tells.filled (tells : Tells (.ofMantissaAndAccuracy m accuracy) value) {places : ℕ}
    (low : 2^52 - 1/4 ≤ value/2^(places + 1)) (short : value/2^(places + 1) < 2^52) : 52 + places ≤ m.log2 ∧
      (ExtendedMantissa.ofMantissaAndAccuracy m accuracy >>> places).roundedMantissa = 2^53 := by
  have double : value/2^places = 2*(value/2^(places + 1)) := by
    rw [pow_succ,← div_div]
    ring
  constructor
  · refine tells.le_log2 ?_
    rw [pow_add,← le_div_iff₀ (by positivity),double]
    linarith
  · refine (tells.shiftRight places).nearest ?_ ?_ nofun
    · rw [double]
      push_cast
      linarith
    · rw [double]
      push_cast
      linarith

-- How far the first shift goes: to the last place of the double, or one less just below a
-- power of two. There rounding fills the mantissa up.
theorem Binary.Canonical.approaches (canonical : b.Canonical) {places : ℕ} (finer : e + places = b.exponent)
    (tells : Tells (.ofMantissaAndAccuracy m accuracy) value) (near : b.Near (value / 2^places)) :
    ∃ shift zeros : ℕ, shift + zeros = places ∧
      shiftToTargetExponent .binary64 m e accuracy =
        (ExtendedMantissa.ofMantissaAndAccuracy m accuracy >>> shift,e + shift) ∧
      (ExtendedMantissa.ofMantissaAndAccuracy m accuracy >>> shift).roundedMantissa = b.mantissa * 2^zeros := by
  have unit : (0 : ℚ) < 2^places := by positivity
  have least := canonical.least
  have most : m.log2 ≤ 52 + places := by
    refine tells.log2_le ?_
    rw [show 52 + places + 1 = 53 + places by omega,pow_add,← div_lt_iff₀ unit]
    exact near.less canonical
  refine ⟨(max (m.log2 + 1 + e - 53) (-1074) - e).toNat,places - (max (m.log2 + 1 + e - 53) (-1074) - e).toNat,?_,rfl,?_⟩
  · omega
  by_cases all : (max (m.log2 + 1 + e - 53) (-1074) - e).toNat = places
  · rw [all,Nat.sub_self,pow_zero,mul_one]
    exact (tells.shiftRight places).nearest near.half.1 near.high near.half.2
  · have short : value/2^places < 2^52 := by
      rw [div_lt_iff₀ unit,← pow_add]
      by_contra long
      have bits := tells.le_log2 (not_lt.mp long)
      omega
    obtain ⟨edge,low⟩ := near.edge (canonical.full.resolve_right (by omega)) (by omega) short
    obtain ⟨places,rfl⟩ : ∃ fewer, places = fewer + 1 := Nat.exists_eq_succ_of_ne_zero (by omega)
    obtain ⟨bits,rounded⟩ := tells.filled low short
    have amount : (max (m.log2 + 1 + e - 53) (-1074) - e).toNat = places := by omega
    rw [amount,rounded,edge,Nat.add_sub_cancel_left]
    rfl

theorem round_near (sign : Sign) (canonical : b.Canonical) (positive : 0 < b.mantissa) {places : ℕ}
    (finer : e + places = b.exponent) (tells : Tells (.ofMantissaAndAccuracy m accuracy) value)
    (near : b.Near (value / 2^places)) :
    roundWithAccuracy .binary64 sign m e accuracy = .finite sign b.mantissa b.exponent positive := by
  obtain ⟨shift,zeros,all,first,rounded⟩ := canonical.approaches finer tells near
  obtain ⟨mantissa,exponent⟩ := canonical.settles positive zeros
  have left : e + shift = b.exponent - zeros := by omega
  unfold roundWithAccuracy
  rw [first]
  dsimp only
  rw [rounded,left]
  generalize shiftToTargetExponent .binary64 (b.mantissa * 2^zeros) (b.exponent - zeros) .exact = final at mantissa exponent
  obtain ⟨⟨last,round,sticky⟩,power⟩ := final
  cases mantissa
  cases exponent
  rw [dif_neg positive.ne']

theorem tells_quotient (top : ℕ) {bottom : ℕ} (positive : 0 < bottom) :
    Tells (.ofMantissaAndAccuracy (top / bottom) (accuracyOfFraction (top % bottom) bottom)) (top / bottom : ℚ) := by
  have unit : (0 : ℚ) < bottom := by exact_mod_cast positive
  have rest : (top : ℚ)/bottom - (top / bottom : ℕ) = (top % bottom : ℕ)/bottom := by
    have parts : (bottom : ℚ) * (top / bottom : ℕ) + (top % bottom : ℕ) = top := by exact_mod_cast Nat.div_add_mod top bottom
    rw [eq_div_iff unit.ne',sub_mul,div_mul_cancel₀ _ unit.ne']
    linarith
  have less : ((top % bottom : ℕ) : ℚ) < bottom := by exact_mod_cast Nat.mod_lt top positive
  generalize top % bottom = left at rest less ⊢
  generalize top / bottom = whole at rest ⊢
  unfold accuracyOfFraction
  split
  · next zero =>
    subst zero
    change Rest false false ((top : ℚ)/bottom - whole)
    rw [rest,Nat.cast_zero,zero_div]
    rfl
  · next nonzero =>
    have above : (0 : ℚ) < left/bottom := div_pos (by exact_mod_cast Nat.pos_of_ne_zero nonzero) unit
    rcases order : compare (2*left) bottom with - | - | -
    · have half : 2*(left : ℚ) < bottom := by exact_mod_cast Nat.compare_eq_lt.mp order
      change Rest false true ((top : ℚ)/bottom - whole)
      rw [rest]
      refine ⟨above,?_⟩
      rw [div_lt_iff₀ unit]
      linarith
    · have half : 2*(left : ℚ) = bottom := by exact_mod_cast Nat.compare_eq_eq.mp order
      change Rest true false ((top : ℚ)/bottom - whole)
      rw [rest]
      change (left : ℚ)/bottom = 1/2
      rw [div_eq_iff unit.ne']
      linarith
    · have half : (bottom : ℚ) < 2*left := by exact_mod_cast Nat.compare_eq_gt.mp order
      change Rest true true ((top : ℚ)/bottom - whole)
      rw [rest]
      constructor
      · rw [lt_div_iff₀ unit]
        linarith
      · rw [div_lt_iff₀ unit]
        linarith

theorem quotient_width {m₁ m₂ : ℕ} {e₁ e₂ t : ℤ} (positive₁ : 0 < m₁) (positive₂ : 0 < m₂)
    (less : (m₁ * 2^e₁)/(m₂ * 2^e₂) < (2 : ℚ)^t) : m₁.log2 + e₁ < m₂.log2 + 1 + e₂ + t := by
  have low : (2 : ℚ)^(m₁.log2 : ℤ) ≤ m₁ := by
    rw [zpow_natCast]
    exact_mod_cast ((Nat.log2_eq_iff positive₁.ne').mp rfl).1
  have high : (m₂ : ℚ) < 2^((m₂.log2 + 1 : ℕ) : ℤ) := by
    rw [zpow_natCast]
    exact_mod_cast ((Nat.log2_eq_iff positive₂.ne').mp rfl).2
  have divisor : (0 : ℚ) < m₂ * 2^e₂ := mul_pos (by exact_mod_cast positive₂) (by positivity)
  rw [div_lt_iff₀ divisor] at less
  have chain : (2 : ℚ)^((m₁.log2 : ℤ) + e₁) < 2^(t + (((m₂.log2 + 1 : ℕ) : ℤ) + e₂)) := by
    rw [zpow_add₀ two_ne_zero,zpow_add₀ two_ne_zero,zpow_add₀ two_ne_zero]
    calc (2 : ℚ)^(m₁.log2 : ℤ) * 2^e₁ ≤ m₁ * 2^e₁ := mul_le_mul_of_nonneg_right low (by positivity)
      _ < 2^t * (m₂ * 2^e₂) := less
      _ ≤ 2^t * (2^((m₂.log2 + 1 : ℕ) : ℤ) * 2^e₂) := by gcongr
  have exponents := (zpow_lt_zpow_iff_right₀ (by norm_num : (1 : ℚ) < 2)).mp chain
  push_cast at exponents
  omega

theorem div_near (one other : Sign) {m₁ m₂ : ℕ} {e₁ e₂ : ℤ} (positive₁ : 0 < m₁) (positive₂ : 0 < m₂)
    (canonical : b.Canonical) (positive : 0 < b.mantissa)
    (near : b.Near ((m₁ * 2^e₁)/(m₂ * 2^e₂)/2^b.exponent)) :
    UnpackedFloat.div .binary64 (.finite one m₁ e₁ positive₁) (.finite other m₂ e₂ positive₂) =
      .finite (one / other) b.mantissa b.exponent positive := by
  have least := canonical.least
  have width : m₁.log2 + e₁ < m₂.log2 + 1 + e₂ + (53 + b.exponent) := by
    refine quotient_width positive₁ positive₂ ?_
    rw [zpow_add₀ two_ne_zero,← div_lt_iff₀ (by positivity)]
    exact near.less canonical
  have finer : min (e₁ - e₂) (Format.targetExponent .binary64 (totalExponent m₁ e₁ - totalExponent m₂ e₂)) ≤ b.exponent := by
    refine (min_le_right _ _).trans ?_
    change max (m₁.log2 + 1 + e₁ - (m₂.log2 + 1 + e₂) - 53) (-1074) ≤ b.exponent
    omega
  have coarser := min_le_left (e₁ - e₂) (Format.targetExponent .binary64 (totalExponent m₁ e₁ - totalExponent m₂ e₂))
  unfold UnpackedFloat.div divCore
  dsimp only
  generalize min (e₁ - e₂) (Format.targetExponent .binary64 (totalExponent m₁ e₁ - totalExponent m₂ e₂)) = t at finer coarser ⊢
  obtain ⟨shift,down⟩ := Int.eq_ofNat_of_zero_le (show 0 ≤ e₁ - e₂ - t by omega)
  obtain ⟨places,up⟩ := Int.eq_ofNat_of_zero_le (show 0 ≤ b.exponent - t by omega)
  rw [down,Int.toNat_natCast,Nat.shiftLeft_eq]
  refine round_near _ canonical positive (show t + places = b.exponent by omega) (tells_quotient _ positive₂) ?_
  convert near using 1
  have first : (2 : ℚ)^e₁ = 2^e₂ * 2^t * 2^shift := by
    rw [show e₁ = e₂ + t + shift by omega,zpow_add₀ two_ne_zero,zpow_add₀ two_ne_zero,zpow_natCast]
  have last : (2 : ℚ)^b.exponent = 2^t * 2^places := by
    rw [show b.exponent = t + places by omega,zpow_add₀ two_ne_zero,zpow_natCast]
  have nonzero : (m₂ : ℚ) ≠ 0 := by exact_mod_cast positive₂.ne'
  rw [first,last]
  push_cast
  field_simp

end ToolDialogue.Decimal
