import Mathlib.Data.List.TakeWhile
import ToolDialogue.Decimal.Shortest
import ToolDialogue.Proofs.Decimal.Nearest

namespace ToolDialogue.Decimal

namespace Interval

def Reached (i : Interval) (exponent : ℤ) (n : ℕ) : Prop :=
  let down := Nat.pow 10 (-exponent).toNat
  let step := i.bottom * Nat.pow 10 exponent.toNat
  if i.closed then i.low * down ≤ n * step else i.low * down < n * step

def Kept (i : Interval) (exponent : ℤ) (n : ℕ) : Prop :=
  let down := Nat.pow 10 (-exponent).toNat
  let step := i.bottom * Nat.pow 10 exponent.toNat
  if i.closed then n * step ≤ i.high * down else n * step < i.high * down

structure Sound (i : Interval) : Prop where
  bottom : 0 < i.bottom
  low : i.low < i.middle
  high : i.middle < i.high

def lower (i : Interval) (exponent : ℤ) : ℕ :=
  i.middle * Nat.pow 10 (-exponent).toNat / (i.bottom * Nat.pow 10 exponent.toNat)

variable {i : Interval} {tie : Tie} {exponent : ℤ} {n : ℕ}

instance : Decidable (i.Reached exponent n) := by
  unfold Reached
  infer_instance

instance : Decidable (i.Kept exponent n) := by
  unfold Kept
  infer_instance

def nearer (i : Interval) (tie : Tie) (exponent : ℤ) : ℕ :=
  let down := Nat.pow 10 (-exponent).toNat
  let step := i.bottom * Nat.pow 10 exponent.toNat
  let before := i.middle * down - i.lower exponent * step
  let after := (i.lower exponent + 1) * step - i.middle * down
  if before < after then i.lower exponent
  else if after < before then i.lower exponent + 1
  else if tie.takesUpper (i.lower exponent) then i.lower exponent + 1
  else i.lower exponent

theorem onGrid_eq (i : Interval) (tie : Tie) (exponent : ℤ) : i.onGrid tie exponent =
    if i.Reached exponent (i.lower exponent) then
      if i.Kept exponent (i.lower exponent + 1) then some (i.nearer tie exponent) else some (i.lower exponent)
    else if i.Kept exponent (i.lower exponent + 1) then some (i.lower exponent + 1)
    else none := by
  unfold nearer
  dsimp only
  rw [apply_ite some,apply_ite some,apply_ite some]
  rfl

theorem nearer_cases (i : Interval) (tie : Tie) (exponent : ℤ) :
    i.nearer tie exponent = i.lower exponent ∨ i.nearer tie exponent = i.lower exponent + 1 := by
  unfold nearer
  dsimp only
  split
  · exact .inl rfl
  · split
    · exact .inr rfl
    · split
      · exact .inr rfl
      · exact .inl rfl

theorem onGrid_cases (found : i.onGrid tie exponent = some n) :
    n = i.lower exponent ∧ i.Reached exponent n ∨ n = i.lower exponent + 1 ∧ i.Kept exponent n := by
  rw [onGrid_eq] at found
  split at found
  · next reached =>
    split at found
    · next kept =>
      cases found
      rcases i.nearer_cases tie exponent with same | same
      · rw [same]; exact .inl ⟨rfl,reached⟩
      · rw [same]; exact .inr ⟨rfl,kept⟩
    · cases found; exact .inl ⟨rfl,reached⟩
  · split at found
    · next kept => cases found; exact .inr ⟨rfl,kept⟩
    · cases found

theorem onGrid_none (missing : i.onGrid tie exponent = none) :
    ¬i.Reached exponent (i.lower exponent) ∧ ¬i.Kept exponent (i.lower exponent + 1) := by
  rw [onGrid_eq] at missing
  split at missing
  · split at missing <;> cases missing
  · next unreached =>
    split at missing
    · cases missing
    · next left => exact ⟨unreached,left⟩

theorem Sound.step (sound : i.Sound) (exponent : ℤ) : 0 < i.bottom * Nat.pow 10 exponent.toNat :=
  Nat.mul_pos sound.bottom (Nat.pow_pos (by decide))

theorem Sound.between (sound : i.Sound) (exponent : ℤ) :
    let down := Nat.pow 10 (-exponent).toNat
    let step := i.bottom * Nat.pow 10 exponent.toNat
    i.lower exponent * step ≤ i.middle * down ∧ i.middle * down < (i.lower exponent + 1) * step := by
  refine ⟨Nat.div_mul_le_self _ _,?_⟩
  rw [Nat.succ_mul]
  exact Nat.lt_div_mul_add (sound.step exponent)

theorem onGrid_holds (sound : i.Sound) (found : i.onGrid tie exponent = some n) :
    i.Reached exponent n ∧ i.Kept exponent n := by
  obtain ⟨under,above⟩ := sound.between exponent
  have down : 0 < Nat.pow 10 (-exponent).toNat := Nat.pow_pos (by decide)
  have low := Nat.mul_lt_mul_of_pos_right sound.low down
  have high := Nat.mul_lt_mul_of_pos_right sound.high down
  rcases onGrid_cases found with ⟨rfl,reached⟩ | ⟨rfl,kept⟩
  · refine ⟨reached,?_⟩
    unfold Kept
    split
    · exact Nat.le_of_lt (Nat.lt_of_le_of_lt under high)
    · exact Nat.lt_of_le_of_lt under high
  · refine ⟨?_,kept⟩
    unfold Reached
    split
    · exact Nat.le_of_lt (Nat.lt_trans low above)
    · exact Nat.lt_trans low above

theorem onGrid_isSome (finer : i.low * Nat.pow 10 (-exponent).toNat + i.bottom * Nat.pow 10 exponent.toNat <
    i.high * Nat.pow 10 (-exponent).toNat) : (i.onGrid tie exponent).isSome := by
  rw [Option.isSome_iff_ne_none]
  intro missing
  obtain ⟨unreached,left⟩ := onGrid_none missing
  unfold Reached at unreached
  unfold Kept at left
  dsimp only at unreached left
  rw [Nat.succ_mul] at left
  generalize i.lower exponent * (i.bottom * Nat.pow 10 exponent.toNat) = multiple at unreached left
  generalize i.bottom * Nat.pow 10 exponent.toNat = step at finer unreached left
  generalize i.low * Nat.pow 10 (-exponent).toNat = low at finer unreached left
  generalize i.high * Nat.pow 10 (-exponent).toNat = high at finer unreached left
  cases shut : i.closed with
  | true =>
    rw [if_pos shut] at unreached left
    omega
  | false =>
    rw [if_neg (by simp [shut])] at unreached left
    omega

theorem search_holds (sound : i.Sound) {top : ℤ} {digits tries : ℕ}
    (last : (i.onGrid tie (top - (digits + tries : ℕ))).isSome) :
    let s := i.search tie top digits (tries + 1)
    i.Reached s.exponent s.significand ∧ i.Kept s.exponent s.significand := by
  induction tries generalizing digits with
  | zero =>
    obtain ⟨n,found⟩ := Option.isSome_iff_exists.mp last
    rw [Nat.add_zero] at found
    simp only [search,found]
    exact onGrid_holds sound found
  | succ tries ih =>
    rw [search]
    cases found : i.onGrid tie (top - digits) with
    | some n => exact onGrid_holds sound found
    | none =>
      refine ih ?_
      rwa [Nat.add_assoc,Nat.add_comm 1]

theorem holds_value (reached : i.Reached exponent n) (kept : i.Kept exponent n) :
    (i.low ≤ n * (10 : ℚ)^exponent * i.bottom ∧ n * (10 : ℚ)^exponent * i.bottom ≤ i.high) ∧
      (i.closed = false → i.low < n * (10 : ℚ)^exponent * i.bottom ∧ n * (10 : ℚ)^exponent * i.bottom < i.high) := by
  have scale := zpow_toNat (show (10 : ℚ) ≠ 0 by norm_num) exponent
  have unit : (0 : ℚ) < 10^(-exponent).toNat := by positivity
  have down (m : ℕ) : ((m * Nat.pow 10 (-exponent).toNat : ℕ) : ℚ) = m * 10^(-exponent).toNat := by
    push_cast [Nat.pow_eq]
    rfl
  have step : ((n * (i.bottom * Nat.pow 10 exponent.toNat) : ℕ) : ℚ) =
      n * (10 : ℚ)^exponent * i.bottom * 10^(-exponent).toNat := by
    push_cast [Nat.pow_eq]
    rw [← scale]
    ring
  have weak {m k : ℕ} {x y : ℚ} (less : m ≤ k) (left : (m : ℚ) = x * 10^(-exponent).toNat)
      (right : (k : ℚ) = y * 10^(-exponent).toNat) : x ≤ y := by
    refine le_of_mul_le_mul_right ?_ unit
    rw [← left,← right]
    exact_mod_cast less
  have strict {m k : ℕ} {x y : ℚ} (less : m < k) (left : (m : ℚ) = x * 10^(-exponent).toNat)
      (right : (k : ℚ) = y * 10^(-exponent).toNat) : x < y := by
    refine lt_of_mul_lt_mul_right ?_ unit.le
    rw [← left,← right]
    exact_mod_cast less
  unfold Reached at reached
  unfold Kept at kept
  dsimp only at reached kept
  cases shut : i.closed with
  | true =>
    rw [if_pos shut] at reached kept
    exact ⟨⟨weak reached (down _) step,weak kept step (down _)⟩,nofun⟩
  | false =>
    rw [if_neg (by simp [shut])] at reached kept
    have both := And.intro (strict reached (down _) step) (strict kept step (down _))
    exact ⟨⟨both.1.le,both.2.le⟩,fun _ => both⟩

end Interval

def Scaled.value (s : Scaled) : ℚ := s.significand * 10^s.exponent

theorem trailing_zeros (digits : List Char) : ∃ front, digits =
    front ++ List.replicate (digits.reverse.takeWhile (· == '0')).length '0' := by
  refine ⟨(digits.reverse.dropWhile (· == '0')).reverse,?_⟩
  have zeros : digits.reverse.takeWhile (· == '0') =
      List.replicate (digits.reverse.takeWhile (· == '0')).length '0' := by
    refine List.eq_replicate_of_mem fun c member => ?_
    have same := List.mem_takeWhile_imp member
    exact beq_iff_eq.mp same
  have parts := congrArg List.reverse (List.takeWhile_append_dropWhile (p := (· == '0')) (l := digits.reverse))
  rw [List.reverse_append,List.reverse_reverse,zeros,List.reverse_replicate] at parts
  exact parts.symm

theorem Scaled.reduced_value (s : Scaled) : s.reduced.value = s.value := by
  unfold reduced
  dsimp only
  split
  · next none => simp [Scaled.value,none]
  · obtain ⟨front,digits⟩ := trailing_zeros (Nat.toDigits 10 s.significand)
    generalize ((Nat.toDigits 10 s.significand).reverse.takeWhile (· == '0')).length = zeros at digits ⊢
    have read : 10^zeros * Nat.ofDigitChars 10 front 0 = s.significand := by
      rw [← Nat.ofDigitChars_replicate_zero,← Nat.ofDigitChars_append,← digits,Nat.ofDigitChars_ten_toDigits]
    have left : s.significand / Nat.pow 10 zeros = Nat.ofDigitChars 10 front 0 := by
      rw [← read]
      exact Nat.mul_div_cancel_left _ (Nat.pow_pos (by decide))
    unfold Scaled.value
    dsimp only
    rw [left,← read,zpow_add₀ (by norm_num),zpow_natCast]
    push_cast
    ring

theorem digitCount_bounds {n : ℕ} (positive : 0 < n) : 10^(digitCount n - 1) ≤ n ∧ n < 10^digitCount n := by
  have filled : 0 < digitCount n := Nat.length_toDigits_pos
  refine ⟨?_,(Nat.length_toDigits_le_iff (by decide) filled).mp (Nat.le_refl _)⟩
  by_contra less
  obtain one | more : digitCount n = 1 ∨ 0 < digitCount n - 1 := by omega
  · rw [one] at less
    omega
  · have short := (Nat.length_toDigits_le_iff (by decide) more).mpr (Nat.lt_of_not_le less)
    change digitCount n ≤ _ at short
    omega

theorem decade_le {top bottom : ℕ} (above : 0 < top) (positive : 0 < bottom) :
    (10 : ℚ)^(decade top bottom - 1) ≤ top/bottom := by
  have unit : (0 : ℚ) < bottom := by exact_mod_cast positive
  rw [le_div_iff₀ unit,decade]
  split
  · have low : (10 : ℚ)^((digitCount top : ℤ) - 1) ≤ top := by
      have least := (digitCount_bounds above).1
      have filled : 0 < digitCount top := Nat.length_toDigits_pos
      rw [show (digitCount top : ℤ) - 1 = (digitCount top - 1 : ℕ) by omega,zpow_natCast]
      exact_mod_cast least
    have high : (bottom : ℚ) ≤ 10^(digitCount bottom : ℤ) := by
      rw [zpow_natCast]
      exact_mod_cast (digitCount_bounds positive).2.le
    calc (10 : ℚ)^((digitCount top : ℤ) - digitCount bottom - 1) * bottom
        ≤ 10^((digitCount top : ℤ) - digitCount bottom - 1) * 10^(digitCount bottom : ℤ) := by gcongr
      _ = 10^((digitCount top : ℤ) - 1) := by
        rw [← zpow_add₀ (by norm_num)]
        congr 1
        omega
      _ ≤ top := low
  · next enough =>
    generalize (digitCount top : ℤ) - digitCount bottom = guess at enough ⊢
    have scale := zpow_toNat (show (10 : ℚ) ≠ 0 by norm_num) guess
    have least : (bottom : ℚ) * 10^guess.toNat ≤ top * 10^(-guess).toNat := by
      exact_mod_cast Nat.le_of_not_lt enough
    rw [add_sub_cancel_right]
    refine le_of_mul_le_mul_right ?_ (show (0 : ℚ) < 10^(-guess).toNat by positivity)
    calc (10 : ℚ)^guess * bottom * 10^(-guess).toNat = bottom * 10^guess.toNat := by
          rw [← scale]
          ring
      _ ≤ top * 10^(-guess).toNat := least

namespace Binary

variable {b : Binary} {tie : Tie}

theorem interval_low (b : Binary) :
    (b.below = 1/4 ∧ b.interval.low = 4*b.ratio.1 - Nat.pow 2 b.exponent.toNat) ∨
      b.below = 1/2 ∧ b.interval.low = 4*b.ratio.1 - 2*Nat.pow 2 b.exponent.toNat := by
  change (_ ∧ 4*b.ratio.1 - (if b.mantissa = Nat.pow 2 52 ∧ b.exponent ≠ -1074 then _ else _) = _) ∨ _ ∧
    4*b.ratio.1 - (if b.mantissa = Nat.pow 2 52 ∧ b.exponent ≠ -1074 then _ else _) = _
  by_cases edge : b.mantissa = Nat.pow 2 52 ∧ b.exponent ≠ -1074
  · rw [if_pos edge]
    exact .inl ⟨if_pos edge,rfl⟩
  · rw [if_neg edge]
    exact .inr ⟨if_neg edge,rfl⟩

theorem unit_le (positive : 0 < b.mantissa) : Nat.pow 2 b.exponent.toNat ≤ b.ratio.1 := Nat.le_mul_of_pos_left _ positive

theorem interval_sound (positive : 0 < b.mantissa) : b.interval.Sound := by
  have unit : 0 < Nat.pow 2 b.exponent.toNat := Nat.two_pow_pos _
  have top := unit_le positive
  refine ⟨Nat.mul_pos (by decide) (Nat.two_pow_pos _),?_,?_⟩
  · change b.interval.low < 4*b.ratio.1
    rcases b.interval_low with ⟨-,low⟩ | ⟨-,low⟩ <;> omega
  · change 4*b.ratio.1 < 4*b.ratio.1 + 2*Nat.pow 2 b.exponent.toNat
    omega

-- The ends are those that a rounding to the nearest double has.
theorem interval_ends (positive : 0 < b.mantissa) :
    (b.interval.low : ℚ) = (b.mantissa - b.below) * 2^b.exponent * b.interval.bottom ∧
      (b.interval.high : ℚ) = (b.mantissa + 1/2) * 2^b.exponent * b.interval.bottom := by
  have scale := zpow_toNat (two_ne_zero' ℚ) b.exponent
  have bottom : (b.interval.bottom : ℚ) = 4 * 2^(-b.exponent).toNat := by
    change ((4 * Nat.pow 2 (-b.exponent).toNat : ℕ) : ℚ) = _
    push_cast [Nat.pow_eq]
    rfl
  have top : (b.ratio.1 : ℚ) = b.mantissa * 2^b.exponent.toNat := by
    change ((b.mantissa * Nat.pow 2 b.exponent.toNat : ℕ) : ℚ) = _
    push_cast [Nat.pow_eq]
    rfl
  have least := unit_le positive
  rw [bottom,mul_assoc,mul_assoc,mul_left_comm _ (4 : ℚ),scale]
  constructor
  · rcases b.interval_low with ⟨quarter,low⟩ | ⟨half,low⟩
    · rw [low,quarter,Nat.cast_sub (by omega)]
      push_cast [Nat.pow_eq,top]
      ring
    · rw [low,half,Nat.cast_sub (by omega)]
      push_cast [Nat.pow_eq,top]
      ring
  · change ((4*b.ratio.1 + 2*Nat.pow 2 b.exponent.toNat : ℕ) : ℚ) = _
    push_cast [Nat.pow_eq,top]
    ring

theorem near_of_holds (positive : 0 < b.mantissa) {exponent : ℤ} {n : ℕ} (reached : b.interval.Reached exponent n)
    (kept : b.interval.Kept exponent n) : b.Near (n * 10^exponent / 2^b.exponent) := by
  obtain ⟨low,high⟩ := interval_ends positive
  obtain ⟨⟨above,under⟩,ends⟩ := Interval.holds_value reached kept
  have bottom : (0 : ℚ) < b.interval.bottom := by exact_mod_cast (interval_sound positive).bottom
  have unit : (0 : ℚ) < 2^b.exponent := by positivity
  rw [low] at above ends
  rw [high] at under ends
  refine ⟨?_,?_,fun odd => ?_⟩
  · rw [le_div_iff₀ unit]
    exact le_of_mul_le_mul_right above bottom
  · rw [div_le_iff₀ unit]
    exact le_of_mul_le_mul_right under bottom
  · obtain ⟨above,under⟩ := ends (by simp [interval,odd])
    rw [lt_div_iff₀ unit,div_lt_iff₀ unit]
    exact ⟨lt_of_mul_lt_mul_right above bottom.le,lt_of_mul_lt_mul_right under bottom.le⟩

-- Seventeen digits are finer than doubles are apart.
theorem seventeen_finer (canonical : b.Canonical) (positive : 0 < b.mantissa) :
    (10 : ℚ)^(decade b.ratio.1 b.ratio.2 - 17) < (b.below + 1/2) * 2^b.exponent := by
  have top : 0 < b.ratio.1 := Nat.lt_of_lt_of_le (Nat.two_pow_pos _) (unit_le positive)
  have least := decade_le top (Nat.two_pow_pos (-b.exponent).toNat)
  change (10 : ℚ)^(decade b.ratio.1 b.ratio.2 - 1) ≤ b.ratio.1/b.ratio.2 at least
  rw [ratio_eq,value] at least
  have unit : (0 : ℚ) < 2^b.exponent := by positivity
  have fewer : (10 : ℚ)^(decade b.ratio.1 b.ratio.2 - 17) * 10^16 = 10^(decade b.ratio.1 b.ratio.2 - 1) := by
    rw [← zpow_natCast,← zpow_add₀ (by norm_num)]
    congr 1
    omega
  generalize (10 : ℚ)^(decade b.ratio.1 b.ratio.2 - 17) = grid at fewer ⊢
  rw [← fewer] at least
  obtain half | ⟨quarter,edge,-⟩ := b.below_cases
  · have narrow : (b.mantissa : ℚ) < 2^53 := by exact_mod_cast canonical.narrow
    have less := mul_lt_mul_of_pos_right narrow unit
    rw [half]
    linarith
  · rw [edge] at least
    push_cast at least
    rw [quarter]
    linarith

theorem seventeen (canonical : b.Canonical) (positive : 0 < b.mantissa) :
    (b.interval.onGrid tie (decade b.ratio.1 b.ratio.2 - 17)).isSome := by
  refine Interval.onGrid_isSome ?_
  have finer := seventeen_finer canonical positive
  generalize decade b.ratio.1 b.ratio.2 - 17 = exponent at finer ⊢
  have scale := zpow_toNat (show (10 : ℚ) ≠ 0 by norm_num) exponent
  have bottom : (0 : ℚ) < b.interval.bottom := by exact_mod_cast (interval_sound positive).bottom
  have down : (0 : ℚ) < 10^(-exponent).toNat := by positivity
  obtain ⟨low,high⟩ := interval_ends positive
  have wider := mul_lt_mul_of_pos_right finer (mul_pos bottom down)
  have cast : (b.interval.low : ℚ) * 10^(-exponent).toNat + b.interval.bottom * 10^exponent.toNat <
      b.interval.high * 10^(-exponent).toNat := by
    rw [low,high,← scale]
    linarith
  exact_mod_cast cast

theorem shortest_near (canonical : b.Canonical) (positive : 0 < b.mantissa) (tie : Tie) :
    b.Near ((b.shortest tie).value / 2^b.exponent) := by
  have last : (b.interval.onGrid tie (decade b.ratio.1 b.ratio.2 - (1 + 16 : ℕ))).isSome := seventeen canonical positive
  obtain ⟨reached,kept⟩ := Interval.search_holds (interval_sound positive) last
  have spelled : b.shortest tie = (b.interval.search tie (decade b.ratio.1 b.ratio.2) 1 17).reduced := if_neg positive.ne'
  rw [spelled,Scaled.reduced_value]
  exact near_of_holds positive reached kept

end Binary

end ToolDialogue.Decimal
