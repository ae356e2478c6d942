import Mathlib
import ToolDialogue.Proofs.Decimal.Places
import ToolDialogue.Proofs.Decimal.Scientific
import ToolDialogue.Proofs.Decimal.Unpacking

namespace ToolDialogue.Decimal

variable {text front back : List Char} {b : Binary}

theorem Binary.Near.pos {q : ℚ} (near : b.Near (q/2^b.exponent)) (positive : 0 < b.mantissa) : 0 < q := by
  have one : (1 : ℚ) ≤ b.mantissa := by exact_mod_cast positive
  have above : 0 < q/2^b.exponent := by linarith [near.half.1]
  rwa [div_pos_iff_of_pos_right (by positivity)] at above

theorem Binary.near_whole {n : ℕ} (whole : b.value = n) : b.Near (n/2^b.exponent) := by
  rw [← whole,Binary.value,mul_div_cancel_right₀ _ (by positivity)]
  exact b.near_self

theorem Binary.Near.less_most {q : ℚ} (near : b.Near (q/2^b.exponent)) (canonical : b.Canonical)
    (within : b.exponent ≤ 971) : q < 10^mostDigits := by
  have unit : (0 : ℚ) < 2^b.exponent := by positivity
  have less := near.less canonical
  rw [div_lt_iff₀ unit] at less
  calc q < 2^53 * 2^b.exponent := less
    _ ≤ 2^53 * 2^(971 : ℤ) := by
      gcongr
      norm_num
    _ = 2^1024 := by
      rw [← zpow_natCast,← zpow_natCast,← zpow_add₀ two_ne_zero]
      rfl
    _ ≤ 10^mostDigits := by
      have digits : 2^1024 ≤ 10^mostDigits := by decide +kernel
      exact_mod_cast digits

theorem Spelled.unsignedValue_near (spelled : Spelled text front back) (canonical : b.Canonical)
    (positive : 0 < b.mantissa) (within : b.exponent ≤ 971)
    (near : b.Near ((natOf (front ++ back) : ℚ)/10^back.length/2^b.exponent)) :
    unsignedValue text = .ofModel (.pack (.finite .positive b.mantissa b.exponent positive)) := by
  have most := near.less_most canonical within
  have few : ¬mostDigits < (front.dropWhile (· == '0')).length := by
    intro many
    have least := natOf_least spelled.before many
    have whole : (10 : ℚ)^mostDigits * 10^back.length ≤ natOf (front ++ back) := by
      rw [natOf_append]
      exact_mod_cast (Nat.mul_le_mul_right _ least).trans (Nat.le_add_right _ _)
    rw [div_lt_iff₀ (by positivity)] at most
    exact most.not_ge whole
  have digits : 0 < natOf (front ++ back) := by
    have above := near.pos positive
    rw [div_pos_iff_of_pos_right (by positivity)] at above
    exact_mod_cast above
  rw [spelled.unsignedValue_eq,if_neg few]
  exact congrArg Float.ofModel (scientific_near digits canonical positive near)

theorem unsignedValue_shortest (canonical : b.Canonical) (positive : 0 < b.mantissa) (within : b.exponent ≤ 971)
    (tie : Tie) : unsignedValue ((b.shortest tie).positional []) =
      .ofModel (.pack (.finite .positive b.mantissa b.exponent positive)) := by
  obtain ⟨front,back,spelled,value⟩ := (b.shortest tie).positional_spelled
  refine spelled.unsignedValue_near canonical positive within ?_
  rw [value]
  exact Binary.shortest_near canonical positive tie

theorem unsignedValue_whole (canonical : b.Canonical) (positive : 0 < b.mantissa) (within : b.exponent ≤ 971)
    {n : ℕ} (whole : b.value = n) : unsignedValue (digitsOf n) =
      .ofModel (.pack (.finite .positive b.mantissa b.exponent positive)) := by
  refine (digitsOf_spelled n).unsignedValue_near canonical positive within ?_
  rw [List.append_nil,natOf_digitsOf,List.length_nil,pow_zero,div_one]
  exact Binary.near_whole whole

section Length

theorem Scaled.positional_length (s : Scaled) :
    (s.positional []).length ≤ digitCount s.significand + s.exponent.natAbs + 2 := by
  have count : (digitsOf s.significand).length = digitCount s.significand := rfl
  unfold Scaled.positional
  dsimp only
  split
  · simp only [List.length_append,List.length_nil,zeros,List.length_replicate,count]
    omega
  · split
    · simp only [List.length_append,List.length_cons,List.length_take,List.length_drop,count]
      omega
    · simp only [List.length_append,List.length_cons,zeros,List.length_replicate,count]
      omega

theorem Interval.search_exponent (i : Interval) (tie : Tie) (top : ℤ) (digits tries : ℕ) :
    min 0 (top - (digits + tries)) ≤ (i.search tie top digits tries).exponent := by
  induction tries generalizing digits with
  | zero => exact Int.min_le_left _ _
  | succ tries ih =>
    have further := ih (digits+1)
    rw [search]
    split
    · dsimp only
      omega
    · omega

theorem Scaled.reduced_exponent (s : Scaled) : min 0 s.exponent ≤ s.reduced.exponent := by
  unfold Scaled.reduced
  dsimp only
  split
  · exact Int.min_le_left _ _
  · dsimp only
    omega

theorem decade_least {bottom k : ℕ} (top : ℕ) (small : bottom < 10^k) (some : 0 < k) : 1 - (k : ℤ) ≤ decade top bottom := by
  have above : 0 < digitCount top := Nat.length_toDigits_pos
  have below : digitCount bottom ≤ k := (Nat.length_toDigits_le_iff (by decide) some).mpr small
  unfold decade
  dsimp only
  split <;> omega

theorem Binary.shortest_exponent (canonical : b.Canonical) (tie : Tie) : -341 ≤ (b.shortest tie).exponent := by
  unfold Binary.shortest
  split
  · decide
  · have small : b.ratio.2 < 10^324 := by
      have least := canonical.least
      calc b.ratio.2 ≤ 2^1074 := Nat.pow_le_pow_right (by decide) (by omega)
        _ < 10^324 := by decide +kernel
    have low := decade_least b.ratio.1 small (by decide)
    have found := b.interval.search_exponent tie (decade b.ratio.1 b.ratio.2) 1 17
    have left := (b.interval.search tie (decade b.ratio.1 b.ratio.2) 1 17).reduced_exponent
    dsimp only
    omega

theorem Scaled.exponent_lt (s : Scaled) {k : ℕ} (above : 0 < s.significand) (most : s.value < 10^k) : s.exponent < k := by
  have one : (1 : ℚ) ≤ s.significand := by exact_mod_cast above
  have less : (10 : ℚ)^s.exponent < 10^(k : ℤ) := by
    rw [zpow_natCast]
    exact lt_of_le_of_lt (le_mul_of_one_le_left (by positivity) one) most
  exact (zpow_lt_zpow_iff_right₀ (by norm_num)).mp less

theorem Scaled.digitCount_le (s : Scaled) {k l : ℕ} (most : s.value < 10^k) (least : -(l : ℤ) ≤ s.exponent)
    (some : 0 < k + l) : digitCount s.significand ≤ k + l := by
  have shift : (10 : ℚ)^(-s.exponent) ≤ 10^l := by
    rw [← zpow_natCast]
    exact zpow_le_zpow_right₀ (by norm_num) (by omega)
  have narrow : (s.significand : ℚ) < 10^(k + l) := by
    calc (s.significand : ℚ) = s.value * 10^(-s.exponent) := by
          rw [Scaled.value,zpow_neg,mul_inv_cancel_right₀ (by positivity)]
      _ < 10^k * 10^(-s.exponent) := by gcongr
      _ ≤ 10^k * 10^l := by gcongr
      _ = 10^(k + l) := (pow_add ..).symm
  exact (Nat.length_toDigits_le_iff (by decide) some).mpr (by exact_mod_cast narrow)

def longest : ℕ := 1000

theorem shortest_length (canonical : b.Canonical) (positive : 0 < b.mantissa) (within : b.exponent ≤ 971) (tie : Tie) :
    ((b.shortest tie).positional []).length ≤ longest := by
  have near := Binary.shortest_near canonical positive tie
  have most := near.less_most canonical within
  have least := Binary.shortest_exponent canonical tie
  have length := (b.shortest tie).positional_length
  generalize b.shortest tie = s at near most least length ⊢
  have above : 0 < s.significand := by
    have value := near.pos positive
    rw [Scaled.value,mul_pos_iff_of_pos_right (by positivity)] at value
    exact_mod_cast value
  have few := s.exponent_lt above most
  have digits : digitCount s.significand ≤ mostDigits + 341 := s.digitCount_le most least (by decide)
  have count : mostDigits = 309 := rfl
  have bound : longest = 1000 := rfl
  omega

theorem whole_length (canonical : b.Canonical) (within : b.exponent ≤ 971) {n : ℕ} (whole : b.value = n) :
    (digitsOf n).length ≤ longest := by
  have most : n < 10^mostDigits := by exact_mod_cast (Binary.near_whole whole).less_most canonical within
  have digits : (digitsOf n).length ≤ mostDigits := (Nat.length_toDigits_le_iff (by decide) (by decide)).mpr most
  exact digits.trans (by decide)

end Length

end ToolDialogue.Decimal
