import ToolDialogue.Proofs.Decimal.Packing

namespace ToolDialogue.Decimal

open Float.Model Float.Model.UnpackedFloat

def AtLeast (x : Float) (bound : ℚ) : Prop :=
  x.toModel.unpack = .infinity .positive ∨
    ∃ (f : ℕ) (e : ℤ) (fits : Fits f), x.toModel.unpack = .finite .positive f e fits.pos ∧ bound ≤ f * 2^e

theorem AtLeast.mono {x : Float} {bound less : ℚ} (least : AtLeast x bound) (below : less ≤ bound) :
    AtLeast x less :=
  least.imp_right fun ⟨f,e,fits,read,most⟩ => ⟨f,e,fits,read,below.trans most⟩

theorem AtLeast.ne_zero {x : Float} {bound : ℚ} (least : AtLeast x bound) : (x == 0.0) = false := by
  have zero : (0.0 : Float).toModel.unpack = .zero .positive := by rfl
  change x.toModel.unpack.beq (0.0 : Float).toModel.unpack = false
  rw [zero]
  obtain infinite | ⟨f,e,fits,read,-⟩ := least
  · rw [infinite]; rfl
  · rw [read]; rfl

theorem rounded_atLeast {x : Float} {m : ℕ} {e : ℤ} (wide : 2^52 ≤ m) (above : -1074 ≤ e)
    (made : x.toModel = .pack (roundWithAccuracy .binary64 .positive m e .exact)) :
    ∃ (f k : ℕ), Fits f ∧ m.log2 ≤ 52 + k ∧ (m : ℚ)/2^k ≤ f + 1/2 ∧ AtLeast x (f * 2^(e + k)) := by
  obtain ⟨f,k,fits,rounded,long,near⟩ := round_normal .positive wide above
  refine ⟨f,k,fits,long,near,?_⟩
  have read := unpack_pack .positive fits (above.trans (le_add_of_nonneg_right (Int.natCast_nonneg k)))
  rw [rounded] at made
  rw [← made] at read
  split at read
  · exact .inr ⟨f,e + k,fits,read,le_rfl⟩
  · exact .inl read

theorem exponent_of_le {m width : ℕ} {e t : ℤ} (narrow : m < 2^width) (least : (2 : ℚ)^t ≤ m * 2^e) :
    t < width + e := by
  have under : (m : ℚ) < 2^(width : ℤ) := by rw [zpow_natCast]; exact_mod_cast narrow
  have strict : (2 : ℚ)^t < 2^((width : ℤ) + e) := by
    rw [zpow_add₀ (by norm_num)]
    exact least.trans_lt (mul_lt_mul_of_pos_right under (by positivity))
  exact (zpow_lt_zpow_iff_right₀ (by norm_num)).mp strict

theorem rounded_power {x : Float} {m : ℕ} {e : ℤ} (wide : 2^52 ≤ m) (above : -1074 ≤ e)
    (made : x.toModel = .pack (roundWithAccuracy .binary64 .positive m e .exact)) {t : ℤ} (reached : 2^t ≤ m * (2 : ℚ)^e) :
    AtLeast x (2^t) := by
  obtain ⟨f,k,fits,long,-,least⟩ := rounded_atLeast wide above made
  refine least.mono ?_
  have short : t < (m.log2 + 1 : ℕ) + e := exponent_of_le Nat.lt_log2_self reached
  have full : (2 : ℚ)^(52 : ℤ) ≤ f := by exact_mod_cast fits.wide
  calc (2 : ℚ)^t ≤ 2^((52 : ℤ) + (e + k)) := zpow_le_zpow_right₀ (by norm_num) (by omega)
    _ = 2^(52 : ℤ) * 2^(e + k) := zpow_add₀ (by norm_num) ..
    _ ≤ f * 2^(e + k) := mul_le_mul_of_nonneg_right full (by positivity)

theorem AtLeast.mul {x y : Float} {a b : ℚ} (left : AtLeast x a) (right : AtLeast y b) (one : 1 ≤ a) (unit : 1 ≤ b)
    {t : ℤ} (reached : 2^t ≤ a*b) : AtLeast (x*y) (2^t) := by
  have made : (x*y).toModel = .pack (.mul .binary64 x.toModel.unpack y.toModel.unpack) := rfl
  have large : (Float.Model.pack (.infinity .positive)).unpack = .infinity .positive := rfl
  obtain infinite | ⟨f,d,fits,read,above⟩ := left
  · obtain infinite' | ⟨g,e,fits',read',above'⟩ := right
    · rw [infinite,infinite'] at made
      exact .inl (made ▸ large)
    · rw [infinite,read'] at made
      exact .inl (made ▸ large)
  · obtain infinite' | ⟨g,e,fits',read',above'⟩ := right
    · rw [read,infinite'] at made
      exact .inl (made ▸ large)
    · rw [read,read'] at made
      have low : 0 < (53 : ℕ) + d := exponent_of_le fits.narrow (one.trans above)
      have low' : 0 < (53 : ℕ) + e := exponent_of_le fits'.narrow (unit.trans above')
      have wide : 2^52 ≤ f*g := fits.wide.trans (Nat.le_mul_of_pos_right f fits'.pos)
      refine rounded_power wide (by omega) made (reached.trans ?_)
      have both := mul_le_mul above above' (zero_le_one.trans unit) (by positivity)
      rw [zpow_add₀ (by norm_num)]
      push_cast
      linarith [mul_mul_mul_comm (f : ℚ) (2^d) g (2^e)]

theorem scientific_rounded {m j : ℕ} (positive : m ≠ 0) (beyond : 2^53 ≤ m ∨ 22 < j) (short : j ≤ 2048) :
    (Float.ofScientific m false j).toModel =
      .pack (roundWithAccuracy .binary64 .positive (m * 2^53 * 10^j) (-53) .exact) := by
  have inexact : ¬(m < 2^53 ∧ j ≤ 22) := by omega
  rw [Float.ofScientific,dif_neg inexact]
  have limit : ¬((j : ℤ) > 2^11) := by omega
  have least : ¬((j : ℤ) < -((2^11 : ℤ) + m.log2)) := by omega
  change Float.Model.pack (UnpackedFloat.ofScientific .binary64 m (j : ℤ)) = _
  rw [UnpackedFloat.ofScientific,dif_neg positive,if_neg limit,if_neg least,if_pos (Int.natCast_nonneg j)]
  have shifted : m <<< Format.mantissaBits .binary64 = m * 2^53 := Nat.shiftLeft_eq ..
  simp only [UnpackedFloat.mul,shifted,Int.toNat_natCast]
  rfl

theorem unshifted (m n : ℕ) : ((m * 2^53 * n : ℕ) : ℚ) * 2^(-53 : ℤ) = m * n := by
  have unit : (2 : ℚ)^53 * 2^(-53 : ℤ) = 1 := by norm_num
  push_cast
  linear_combination (m * n : ℚ) * unit

def tenOrMore (x : Float) : Bool :=
  match x.toModel.unpack with
  | .finite .positive f e _ => 2^52 ≤ f && f < 2^53 && (10*2^49 ≤ f && e == -49 || -49 < e)
  | _ => false

theorem atLeast_of_tenOrMore {x : Float} (more : tenOrMore x = true) : AtLeast x 10 := by
  rw [tenOrMore] at more
  split at more
  · next f e _ read =>
    simp only [Bool.and_eq_true,Bool.or_eq_true,decide_eq_true_eq,beq_iff_eq] at more
    obtain ⟨⟨wide,narrow⟩,enough⟩ := more
    refine .inr ⟨f,e,⟨wide,narrow⟩,read,?_⟩
    obtain ⟨ten,rfl⟩ | up := enough
    · have many : (10*2^49 : ℚ) ≤ f := by exact_mod_cast ten
      calc (10 : ℚ) = 10*2^49 * 2^(-49 : ℤ) := by norm_num
        _ ≤ f * 2^(-49 : ℤ) := mul_le_mul_of_nonneg_right many (by positivity)
    · have full : (2 : ℚ)^(52 : ℤ) ≤ f := by exact_mod_cast wide
      calc (10 : ℚ) ≤ 2^(52 : ℤ) * 2^(-48 : ℤ) := by norm_num
        _ ≤ f * 2^e := mul_le_mul full (zpow_le_zpow_right₀ (by norm_num) (by omega)) (by positivity) (by positivity)
  · cases more

-- The powers of ten up to the twenty-second are doubles, and come from a table.
theorem power_atLeast {j : ℕ} (up : 1 ≤ j) (short : j ≤ 2048) : AtLeast (Float.ofScientific 1 false j) 10 := by
  by_cases listed : j ≤ 22
  · have table : ∀ j < 23, 1 ≤ j → tenOrMore (Float.ofScientific 1 false j) = true := by decide +kernel
    exact atLeast_of_tenOrMore (table j (by omega) up)
  · have made := scientific_rounded one_ne_zero (.inr (Nat.lt_of_not_le listed)) short
    have hundred : (10 : ℚ)^2 ≤ 10^j := pow_le_pow_right₀ (by norm_num) (by omega)
    have reached : (2 : ℚ)^(4 : ℤ) ≤ (1 * 2^53 * 10^j : ℕ) * 2^(-53 : ℤ) := by
      rw [unshifted]
      push_cast
      linarith
    have wide : 2^52 ≤ 1 * 2^53 * 10^j := by
      have := Nat.one_le_pow j 10 (by decide)
      omega
    exact (rounded_power wide (by decide) made reached).mono (by norm_num)

-- The least number that one more digit can take to 2^64, and the double that it is rounded to.
theorem number_atLeast {v : ℕ} (many : 1844674407370955161 ≤ v) :
    AtLeast (Float.ofNat v) (7205759403792794 * 2^(8 : ℤ)) := by
  have made : (Float.ofNat v).toModel = .pack (roundWithAccuracy .binary64 .positive (v * 2^53 * 10^0) (-53) .exact) :=
    scientific_rounded (by omega) (.inl (by omega)) (by decide)
  obtain ⟨f,k,fits,long,near,least⟩ := rounded_atLeast (by omega) (by decide) made
  refine least.mono ?_
  have bits : 113 ≤ (v * 2^53 * 10^0).log2 := (Nat.le_log2 (by omega)).mpr (by omega)
  obtain rfl | later : k = 61 ∨ 62 ≤ k := by omega
  · -- the last place is 2^8, and the value is above the middle between two of its multiples
    have enough : 7205759403792794 ≤ f := by
      have above : (7205759403792793 : ℚ) < f := by
        have many' : (1844674407370955161 : ℚ) ≤ v := by exact_mod_cast many
        push_cast at near
        norm_num at near
        linarith
      exact_mod_cast above
    exact mul_le_mul_of_nonneg_right (by exact_mod_cast enough) (by positivity)
  · have full : (2 : ℚ)^(52 : ℤ) ≤ f := by exact_mod_cast fits.wide
    calc (7205759403792794 * 2^(8 : ℤ) : ℚ) ≤ 2^(52 : ℤ) * 2^(9 : ℤ) := by norm_num
      _ ≤ f * 2^((-53 : ℤ) + k) :=
        mul_le_mul full (zpow_le_zpow_right₀ (by norm_num) (by omega)) (by positivity) (by positivity)

end ToolDialogue.Decimal
