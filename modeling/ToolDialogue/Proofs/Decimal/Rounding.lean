import Mathlib.Algebra.Order.Field.Power
import Mathlib.Algebra.Order.Field.Rat
import Mathlib.Tactic.Linarith
import Mathlib.Tactic.Ring
import ToolDialogue.Decimal.Binary

namespace ToolDialogue.Decimal

open Float.Model Float.Model.UnpackedFloat

theorem zpow_toNat {base : ℚ} (nonzero : base ≠ 0) (e : ℤ) : base^e * base^(-e).toNat = base^e.toNat := by
  rw [← zpow_natCast,← zpow_natCast,← zpow_add₀ nonzero]
  congr 1
  omega

def Binary.value (b : Binary) : ℚ := b.mantissa * 2^b.exponent

theorem Binary.ratio_pos (b : Binary) : 0 < b.ratio.2 := Nat.two_pow_pos _

theorem Binary.value_eq (b : Binary) : b.value * b.ratio.2 = b.ratio.1 := by
  change (b.mantissa * 2^b.exponent : ℚ) * (Nat.pow 2 (-b.exponent).toNat : ℕ) =
    (b.mantissa * Nat.pow 2 b.exponent.toNat : ℕ)
  push_cast [Nat.pow_eq]
  rw [mul_assoc,zpow_toNat (by norm_num)]

theorem Binary.ratio_eq (b : Binary) : (b.ratio.1 : ℚ)/b.ratio.2 = b.value := by
  rw [div_eq_iff (by exact_mod_cast b.ratio_pos.ne'),b.value_eq]

theorem Binary.value_nonneg (b : Binary) : 0 ≤ b.value := by unfold Binary.value; positivity

theorem Binary.value_eq_zero {b : Binary} : b.value = 0 ↔ b.mantissa = 0 := by
  simp [Binary.value,zpow_ne_zero b.exponent (two_ne_zero' ℚ)]

theorem Binary.value_iff {b : Binary} {n : ℕ} : b.value = n ↔ b.isWhole = true ∧ b.floor = n := by
  have positive : (b.ratio.2 : ℚ) ≠ 0 := by exact_mod_cast b.ratio_pos.ne'
  have scaled : b.value = n ↔ b.ratio.1 = n * b.ratio.2 := by
    rw [← mul_left_inj' positive,b.value_eq]
    norm_cast
  rw [scaled,Binary.isWhole,Binary.floor,beq_iff_eq]
  constructor
  · intro same
    rw [same]
    exact ⟨Nat.mul_mod_left ..,Nat.mul_div_cancel n b.ratio_pos⟩
  · rintro ⟨whole,rfl⟩
    exact (Nat.div_mul_cancel (Nat.dvd_of_mod_eq_zero whole)).symm

theorem Binary.nearest_whole {b : Binary} (whole : b.isWhole = true) : b.value = b.nearest := by
  refine Binary.value_iff.mpr ⟨whole,?_⟩
  obtain ⟨n,top⟩ := Nat.dvd_of_mod_eq_zero (beq_iff_eq.mp whole)
  have positive := b.ratio_pos
  have split : 2 * (b.ratio.2 * n) + b.ratio.2 = b.ratio.2 + 2 * b.ratio.2 * n := by ring
  rw [Binary.floor,Binary.nearest,top,Nat.mul_div_cancel_left _ positive,split,
    Nat.add_mul_div_left _ _ (by omega),Nat.div_eq_of_lt (by omega),Nat.zero_add]

def Rest : Bool → Bool → ℚ → Prop
  | false,false,rest => rest = 0
  | false,true,rest => 0 < rest ∧ rest < 1/2
  | true,false,rest => rest = 1/2
  | true,true,rest => 1/2 < rest ∧ rest < 1

-- Of two halves the upper one is the round bit, and all below it is the sticky one.
theorem Rest.half {round sticky : Bool} {rest : ℚ} (holds : Rest round sticky rest) (odd : Bool) :
    Rest odd (round || sticky) ((rest + odd.toNat)/2) := by
  cases round <;> cases sticky <;> cases odd <;>
    simp only [Rest,Bool.toNat_true,Bool.toNat_false,Bool.or_self,Bool.or_true,Bool.or_false,Nat.cast_zero,
      Nat.cast_one] at holds ⊢ <;>
    first | linarith | (constructor <;> linarith)

theorem Rest.bounds {round sticky : Bool} {rest : ℚ} (holds : Rest round sticky rest) :
    0 ≤ rest ∧ rest < 1 := by
  cases round <;> cases sticky <;> simp only [Rest] at holds <;> constructor <;> linarith

-- The mantissa and its bits stand for the value, in units of the last place.
def Tells (em : ExtendedMantissa) (value : ℚ) : Prop :=
  Rest em.roundBit em.stickyBit (value - em.mantissa)

theorem tells_exact (m : ℕ) : Tells (.ofMantissaAndAccuracy m .exact) m := sub_self _

theorem Tells.shiftRightOne {em : ExtendedMantissa} {value : ℚ} (tells : Tells em value) :
    Tells em.shiftRightOne (value/2) := by
  have halves : (em.mantissa : ℚ) = 2*(em.mantissa/2 : ℕ) + (em.mantissa % 2 != 0).toNat := by
    have bit : (em.mantissa % 2 != 0).toNat = em.mantissa % 2 := by
      rcases Nat.mod_two_eq_zero_or_one em.mantissa with parity | parity <;> simp [parity]
    rw [bit]
    exact_mod_cast (Nat.div_add_mod em.mantissa 2).symm
  have rest := tells.half (em.mantissa % 2 != 0)
  rw [halves] at rest
  unfold Tells ExtendedMantissa.shiftRightOne
  convert rest using 1
  ring

theorem Tells.shiftRight {em : ExtendedMantissa} {value : ℚ} (tells : Tells em value) (n : ℕ) :
    Tells (em >>> n) (value / 2^n) := by
  change Tells (n.repeat ExtendedMantissa.shiftRightOne em) _
  induction n with
  | zero => simpa [Nat.repeat] using tells
  | succ n ih => rw [Nat.repeat,pow_succ,← div_div]; exact ih.shiftRightOne

theorem Tells.rounded {em : ExtendedMantissa} {value : ℚ} (tells : Tells em value) :
    em.mantissa ≤ em.roundedMantissa ∧ em.roundedMantissa ≤ em.mantissa + 1 ∧
      value ≤ em.roundedMantissa + 1/2 := by
  obtain ⟨m,round,sticky⟩ := em
  have parity : m % 2 ≤ 1 := Nat.le_of_lt_succ (Nat.mod_lt m (by decide))
  have more : (m : ℚ) ≤ (m + m % 2 : ℕ) := Nat.cast_le.mpr (Nat.le_add_right ..)
  cases round <;> cases sticky <;>
    simp only [Tells,Rest,ExtendedMantissa.roundedMantissa,ExtendedMantissa.accuracy,
      Accuracy.roundToNearestEven] at tells ⊢
  · exact ⟨le_rfl,Nat.le_succ m,by linarith⟩
  · exact ⟨le_rfl,Nat.le_succ m,by linarith⟩
  · exact ⟨Nat.le_add_right ..,by omega,by linarith⟩
  · exact ⟨Nat.le_succ m,le_rfl,by push_cast; linarith⟩

structure Fits (m : ℕ) : Prop where
  wide : 2^52 ≤ m
  narrow : m < 2^53

theorem Fits.pos {m : ℕ} (fits : Fits m) : 0 < m := Nat.lt_of_lt_of_le (by decide) fits.wide

theorem Fits.log2 {m : ℕ} (fits : Fits m) : m.log2 = 52 :=
  (Nat.log2_eq_iff fits.pos.ne').mpr ⟨fits.wide,fits.narrow⟩

theorem long_of_wide {m : ℕ} (wide : 2^52 ≤ m) : 52 ≤ m.log2 :=
  (Nat.le_log2 (Nat.lt_of_lt_of_le (by decide) wide).ne').mpr wide

theorem shiftToTarget_eq {m : ℕ} {e : ℤ} (wide : 2^52 ≤ m) (above : -1074 ≤ e) :
    shiftToTargetExponent .binary64 m e .exact =
      (ExtendedMantissa.ofMantissaAndAccuracy m .exact >>> (m.log2 - 52),e + (m.log2 - 52 : ℕ)) := by
  have long := long_of_wide wide
  have amount : (Format.targetExponent .binary64 (totalExponent m e) - e).toNat = m.log2 - 52 := by
    have bits : ((Format.mantissaBits .binary64 : ℕ) : ℤ) = 53 := rfl
    have least : Format.minExponent .binary64 = -1074 := rfl
    rw [Format.targetExponent,totalExponent,bits,least]
    omega
  unfold shiftToTargetExponent shiftToExponent
  dsimp only
  rw [amount]

theorem shiftToTarget_again {m : ℕ} {e : ℤ} (wide : 2^52 ≤ m) (narrow : m ≤ 2^53) (above : -1074 ≤ e) :
    ∃ f carry : ℕ, Fits f ∧ m = f * 2^carry ∧
      (shiftToTargetExponent .binary64 m e .exact).1.mantissa = f ∧
      (shiftToTargetExponent .binary64 m e .exact).2 = e + carry := by
  rw [shiftToTarget_eq wide above]
  obtain short | rfl := Nat.lt_or_eq_of_le narrow
  · refine ⟨m,0,⟨wide,short⟩,by simp,?_⟩
    rw [Fits.log2 ⟨wide,short⟩]
    exact ⟨rfl,rfl⟩
  · refine ⟨2^52,1,⟨le_rfl,by decide⟩,by decide,?_⟩
    rw [Nat.log2_two_pow]
    exact ⟨rfl,rfl⟩

theorem Tells.full {em : ExtendedMantissa} {m : ℕ} (tells : Tells em (m/2^(m.log2 - 52))) (wide : 2^52 ≤ m) :
    Fits em.mantissa := by
  have long := long_of_wide wide
  have bits := (Nat.log2_eq_iff (Nat.lt_of_lt_of_le (by decide) wide).ne').mp rfl
  have unit : (0 : ℚ) < 2^(m.log2 - 52) := by positivity
  have least : (2^52 : ℚ) ≤ m/2^(m.log2 - 52) := by
    rw [le_div_iff₀ unit,← pow_add,Nat.add_sub_cancel' long]
    exact_mod_cast bits.1
  have most : m/2^(m.log2 - 52) < (2^53 : ℚ) := by
    rw [div_lt_iff₀ unit,← pow_add,show 53 + (m.log2 - 52) = m.log2 + 1 by omega]
    exact_mod_cast bits.2
  obtain ⟨below,above⟩ := tells.bounds
  have first : (2^52 : ℚ) < em.mantissa + 1 := by linarith
  have last : (em.mantissa : ℚ) < 2^53 := by linarith
  exact ⟨Nat.le_of_lt_succ (by exact_mod_cast first),by exact_mod_cast last⟩

theorem round_normal (sign : Sign) {m : ℕ} {e : ℤ} (wide : 2^52 ≤ m) (above : -1074 ≤ e) :
    ∃ (f k : ℕ) (fits : Fits f),
      roundWithAccuracy .binary64 sign m e .exact = .finite sign f (e + k) fits.pos ∧
      m.log2 ≤ 52 + k ∧ (m : ℚ)/2^k ≤ f + 1/2 := by
  have long := long_of_wide wide
  have tells := (tells_exact m).shiftRight (m.log2 - 52)
  have shifted := shiftToTarget_eq wide above
  generalize ExtendedMantissa.ofMantissaAndAccuracy m .exact >>> (m.log2 - 52) = em at tells shifted
  obtain ⟨low,high,near⟩ := tells.rounded
  have full := tells.full wide
  obtain ⟨f,carry,fits,spelled,mantissa,exponent⟩ := shiftToTarget_again (full.wide.trans low)
    (high.trans full.narrow) (above.trans (le_add_of_nonneg_right (Int.natCast_nonneg (m.log2 - 52))))
  refine ⟨f,m.log2 - 52 + carry,fits,?_,by omega,?_⟩
  · unfold roundWithAccuracy
    rw [shifted]
    dsimp only
    generalize shiftToTargetExponent .binary64 _ _ _ = final at mantissa exponent
    obtain ⟨⟨last,round,sticky⟩,power⟩ := final
    cases mantissa
    rw [dif_neg fits.pos.ne']
    congr 1
    dsimp only at exponent
    omega
  · rw [spelled] at near
    have unit : (1 : ℚ) ≤ 2^carry := one_le_pow₀ (by norm_num)
    rw [pow_add,← div_div,div_le_iff₀ (by positivity)]
    push_cast at near
    linarith

end ToolDialogue.Decimal
