import Mathlib
import ToolDialogue.Arithmetic.Rendering
import ToolDialogue.Proofs.Decimal.Unpacking

namespace ToolDialogue.Arithmetic

structure Ratio.Reduces (ratio : Ratio) (millionths : ℤ) : Prop where
  positive : 0 < ratio.bottom
  divides : ratio.bottom ∣ denominator
  coprime : ratio.top.gcd ratio.bottom = 1
  worth : ratio.top * denominator = millionths * ratio.bottom

theorem Ratio.reduces_gcd (millionths : ℤ) {parts : ℕ} (positive : 0 < parts) :
    let shared := millionths.natAbs.gcd parts
    0 < parts / shared ∧ parts / shared ∣ parts ∧ (millionths.tdiv shared).natAbs.gcd (parts / shared) = 1 ∧
      millionths.tdiv shared * parts = millionths * (parts / shared : ℕ) := by
  intro shared
  have above : 0 < shared := Nat.gcd_pos_of_pos_right _ positive
  have below : shared ∣ parts := Nat.gcd_dvd_right _ _
  have within : (shared : ℤ) ∣ millionths := Int.natCast_dvd.mpr (Nat.gcd_dvd_left _ _)
  refine ⟨Nat.div_pos (Nat.le_of_dvd positive below) above,Nat.div_dvd_of_dvd below,?_,?_⟩
  · rw [Int.natAbs_tdiv]
    exact Nat.coprime_div_gcd_div_gcd above
  · calc millionths.tdiv shared * parts = millionths.tdiv shared * (shared * (parts / shared : ℕ)) := by
          rw [← Nat.cast_mul,Nat.mul_div_cancel' below]
      _ = millionths * (parts / shared : ℕ) := by rw [← Int.mul_assoc,Int.tdiv_mul_cancel within]

theorem Ratio.ofMillionths?_reduces {millionths : ℤ} (small : millionths.natAbs < Word.limit) :
    ∃ ratio, ofMillionths? millionths = some ratio ∧ ratio.Reduces millionths := by
  have positive : 0 < denominator := by decide
  obtain ⟨above,divides,coprime,worth⟩ := Ratio.reduces_gcd millionths positive
  refine ⟨_,ofMillionths?_eq small,⟨?_,?_,?_,worth⟩⟩
  · exact Int.natCast_pos.mpr above
  · exact Int.natCast_dvd_natCast.mpr divides
  · exact coprime

open Decimal Float.Model Float.Model.UnpackedFloat

variable {x : Float} {negative : Bool} {b : Binary}

theorem exponent_of_broken (broken : b.isWhole = false) : b.exponent < 0 ∧ 0 < b.mantissa := by
  constructor
  · by_contra whole
    have none : (-b.exponent).toNat = 0 := by omega
    have all : b.isWhole = true := by
      simp [Binary.isWhole,Binary.ratio,none,Nat.mod_one]
    rw [all] at broken
    cases broken
  · refine Nat.pos_of_ne_zero fun none => ?_
    have all : b.isWhole = true := by simp [Binary.isWhole,Binary.ratio,none]
    rw [all] at broken
    cases broken

theorem millionths?_isSome (finite : x.isFinite = true) (broken : isWhole x = false) : ∃ s, millionths? x = some s := by
  obtain ⟨negative,b,read⟩ := Double.of_isFinite finite
  rw [isWhole,read] at broken
  obtain ⟨below,above⟩ := exponent_of_broken broken
  obtain ⟨none,-⟩ | ⟨positive,spelled⟩ := Double.of_finite read
  · exact absurd none above.ne'
  have million : (Float.ofNat denominator).toModel.unpack = .finite .positive (1000000 * 2^33) (-33) (by decide) := by rfl
  have product : (x * Float.ofNat denominator).isFinite = true := by
    change (Float.Model.pack (.mul .binary64 x.toModel.unpack (Float.ofNat denominator).toModel.unpack)).unpack.isFinite = true
    rw [spelled,million]
    refine round_isFinite _ ?_ (by omega)
    have narrow := (Double.of_canonical read).1.narrow
    omega
  obtain ⟨side,scaled,found⟩ := Double.of_isFinite product
  rw [millionths?,nearest?,found]
  exact ⟨_,rfl⟩

-- A number with a fraction is written in lowest terms, from its millionths taken to the nearest
-- whole number. No step leaves the words or divides by zero. What has more millionths than a
-- word holds is written as a decimal.
theorem fraction_lowest (finite : x.isFinite = true) (broken : isWhole x = false) :
    ∃ s, millionths? x = some s ∧
      (s.natAbs < 2^63 → ∃ ratio, Ratio.ofMillionths? s = some ratio ∧ ratio.Reduces s ∧
        ResultFormat.fraction.render x =
          if ratio.bottom = 1 then toString ratio.top else toString ratio.top ++ "/" ++ toString ratio.bottom) ∧
      (2^63 ≤ s.natAbs → ResultFormat.fraction.render x = ResultFormat.decimal.render x) := by
  obtain ⟨s,scaled⟩ := millionths?_isSome finite broken
  have limit : Word.limit = 2^63 := rfl
  have rendered : ResultFormat.fraction.render x =
      if small : s.natAbs < Word.limit then ((Ratio.ofMillionths? s).get (Ratio.ofMillionths?_isSome small)).text
      else decimalText x := by
    rw [ResultFormat.render,if_pos finite]
    rw [fractionText,broken,if_neg Bool.false_ne_true,scaled]
  refine ⟨s,scaled,fun small => ?_,fun large => ?_⟩
  · rw [← limit] at small
    obtain ⟨ratio,taken,reduces⟩ := Ratio.ofMillionths?_reduces small
    refine ⟨ratio,taken,reduces,?_⟩
    rw [rendered,dif_pos small]
    simp only [taken,Option.get_some]
    rfl
  · rw [← limit] at large
    rw [rendered,dif_neg (Nat.not_lt.mpr large),ResultFormat.render,if_pos finite]

theorem fraction_lowest_edges : ResultFormat.fraction.render (-2.5) = "-5/2" ∧
    ResultFormat.fraction.render 10000000000000.5 = ResultFormat.decimal.render 10000000000000.5 := by
  constructor
  · obtain ⟨s,scaled,within,-⟩ := fraction_lowest (x := -2.5) (by rfl) (by decide +kernel)
    have value : millionths? (-2.5) = some (-2500000) := by decide +kernel
    rw [value] at scaled
    cases scaled
    have small : (-2500000 : ℤ).natAbs < 2^63 := by decide
    obtain ⟨ratio,taken,-,written⟩ := within small
    rw [Ratio.ofMillionths?_eq small] at taken
    have halves : (⟨(-2500000 : ℤ).tdiv ((-2500000 : ℤ).natAbs.gcd denominator),
        (denominator / (-2500000 : ℤ).natAbs.gcd denominator : ℕ)⟩ : Ratio) = ⟨-5,2⟩ := by decide
    rw [halves] at taken
    cases taken
    exact written
  · obtain ⟨s,scaled,-,beyond⟩ := fraction_lowest (x := 10000000000000.5) (by rfl) (by decide +kernel)
    have value : millionths? 10000000000000.5 = some 10000000000000499712 := by decide +kernel
    rw [value] at scaled
    cases scaled
    exact beyond (by decide)

end ToolDialogue.Arithmetic
